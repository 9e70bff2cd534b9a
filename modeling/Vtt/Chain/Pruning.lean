import Vtt.Chain.Lookup

/-!
# Pruning

A node removes old blocks from its store, under their heights. But bodies are stored under the hash
of the block and receipts under the hash of the transaction, so that nothing is removed.
-/

namespace Vtt

open Lib

namespace Store

/-- Remove what a column has under the given heights, and count it. -/
def pruneColumn (heights : List ℕ) (acc : UInt64 × Store) (column : Column) : UInt64 × Store :=
  heights.foldl (fun acc height =>
    let key := beBytes 8 height
    if acc.2.contains column key then (acc.1 + 1, acc.2.delete column key) else acc) acc

/-- Remove old blocks, and keep the most recent ones. -/
def pruneOldBlocks (store : Store) (keepRecent currentHeight : UInt64) : UInt64 × Store :=
  if currentHeight ≤ keepRecent then (0, store)
  else [.blockBodies, .receipts].foldl (pruneColumn (List.range (currentHeight - keepRecent).toNat))
    (0, store)

variable {column c : Column} {k : Bytes}

theorem get_pruneColumn (h : c ≠ column ∨ k.length ≠ 8) (heights : List ℕ) (acc : UInt64 × Store) :
    (pruneColumn heights acc column).2.get c k = acc.2.get c k := by
  induction heights generalizing acc with
  | nil => rfl
  | cons _ _ ih =>
    refine (ih _).trans ?_
    dsimp only
    split
    · refine Storage.read_remove_of_ne (some acc.2) (h.imp_right fun hk heq => hk ?_)
      rw [heq, beBytes_length]
    · rfl

/-- Headers are left alone, and so is what is not stored under a height. -/
theorem get_pruneOldBlocks (h : c = .blockHeaders ∨ k.length ≠ 8) (store : Store)
    (keepRecent currentHeight : UInt64) :
    (store.pruneOldBlocks keepRecent currentHeight).2.get c k = store.get c k := by
  have other {column : Column} (hc : Column.blockHeaders ≠ column) : c ≠ column ∨ k.length ≠ 8 :=
    h.imp_left (ne_of_eq_of_ne · hc)
  unfold pruneOldBlocks
  split
  · rfl
  · exact (get_pruneColumn (other (by decide)) ..).trans (get_pruneColumn (other (by decide)) ..)

end Store

section Pruning

variable [Crypto]

/-- Where the body of a block and its receipts are stored. -/
def Chain.blockKeys (c : Chain) (hash : H256) : List (Column × Bytes) :=
  (.blockBodies, hash.asBytes) :: (((c.bodies[hash]?).map Block.transactions).getD []).map
    (.receipts, ·.hash.asBytes)

/-- Pruning leaves no canonical block below a height, and changes no header and no canonical block
above. -/
structure Chain.Prunes (c : Chain) (bound : UInt64) (store store' : Store) : Prop where
  old : ∀ number hash, number < bound → c.getCanonicalHash number = some hash →
    ∀ k ∈ c.blockKeys hash, store'.get k.1 k.2 = none
  headers : ∀ key, store'.get .blockHeaders key = store.get .blockHeaders key
  recent : ∀ number hash, bound ≤ number → c.getCanonicalHash number = some hash →
    ∀ k ∈ c.blockKeys hash, store'.get k.1 k.2 = store.get k.1 k.2

theorem Chain.get_pruned {c : Chain} {hash : H256} {k : Column × Bytes} (hk : k ∈ c.blockKeys hash)
    (store : Store) (keepRecent currentHeight : UInt64) :
    (store.pruneOldBlocks keepRecent currentHeight).2.get k.1 k.2 = store.get k.1 k.2 := by
  refine Store.get_pruneOldBlocks (.inr ?_) ..
  obtain rfl | hk := List.mem_cons.1 hk
  · simp
  · obtain ⟨_, -, rfl⟩ := List.mem_map.1 hk
    simp

/-- Pruning does this exactly if there was no old block in the store. -/
theorem Chain.prunes_iff (c : Chain) (store : Store) (keepRecent currentHeight : UInt64) :
    c.Prunes (currentHeight - keepRecent) store (store.pruneOldBlocks keepRecent currentHeight).2 ↔
      ∀ number hash, number < currentHeight - keepRecent → c.getCanonicalHash number = some hash →
        ∀ k ∈ c.blockKeys hash, store.get k.1 k.2 = none := by
  constructor
  · intro h number hash hlt hcanonical k hk
    rw [← get_pruned hk store keepRecent currentHeight]
    exact h.old number hash hlt hcanonical k hk
  · refine fun h => ⟨fun number hash hlt hcanonical k hk => ?_,
      fun _ => Store.get_pruneOldBlocks (.inl rfl) .., fun _ _ _ _ _ hk => get_pruned hk ..⟩
    rw [get_pruned hk]
    exact h number hash hlt hcanonical k hk

end Pruning

namespace Demo

open Chain

/-- The genesis is still there when it has been pruned. -/
theorem genesis_not_pruned : ∃ genesis c₀ calls c store head, StartedFresh genesis c₀ ∧
    Run ImportStep c₀ calls c ∧
    c.state.storage = some store ∧ c.head = some head ∧ (0 : UInt64) < head.number ∧
    ¬ c.Prunes (head.number - 0) store (store.pruneOldBlocks 0 head.number).2 := by
  obtain ⟨c₀, hstart, hcheck⟩ : ∃ c₀, storedStart = some c₀ ∧ (c₀.head.any fun genesis =>
      (importAll 0 c₀ [firstBlock genesis]).any fun c => c.head.any fun head =>
        c.state.storage.any fun store => (c.getCanonicalHash 0).any fun hash => 0 < head.number &&
          (store.get .blockBodies hash.asBytes).isSome) = true :=
    (Option.any_eq_true ..).1 (by decide +kernel)
  simp only [Option.any_eq_true, Bool.and_eq_true, decide_eq_true_eq] at hcheck
  obtain ⟨_, -, c, himport, head, hhead, store, hstore, hash, hcanonical, hpos, hbody⟩ := hcheck
  obtain ⟨_, genesis, _, _, hopened, hbuild, hnone, hrun⟩ := storedStart_parts hstart
  refine ⟨genesis, c₀, _, c, store, head, .start hbuild (.stored hopened) hnone hrun,
    importAll_run .nil himport, hstore, hhead, hpos, fun h => ?_⟩
  have hgone := h.old 0 hash (by simpa using hpos) hcanonical _ (List.mem_cons_self ..)
  rw [get_pruned (c := c) (List.mem_cons_self ..)] at hgone
  rw [hgone] at hbody
  cases hbody

end Demo

end Vtt
