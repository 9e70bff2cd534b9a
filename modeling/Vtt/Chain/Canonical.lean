import Vtt.Chain.Tree
import Vtt.Demo

/-!
# The canonical index

A new head writes the canonical entry of its own height only. The index is the ancestry of the head
as long as every new head continues the indexed chain, and stops being it at the first one that does
not: a switch to another branch leaves the entries of the old one below it.
-/

namespace Vtt

open Lib Std UInt64
open Option (some.inj)
open ExtTreeMap (getElem?_insert getElem?_insert_self)
open UInt64 (le_iff_toNat_le toNat_inj toNat_one)

namespace Chain

variable [Crypto]

/-- The canonical index is the ancestry of the head: the entry of the head's height is the head,
every entry below has the entry before it as parent, and only ancestors of the head are found by
number. -/
def AncestryIndexed (c : Chain) : Prop :=
  ∃ head, c.head = some head ∧ c.getCanonicalHash head.number = some head.hash ∧
    c.headHash = some head.hash ∧ (∀ n, 1 ≤ n → n ≤ head.number → ∃ header : BlockHeader,
      c.getHeader header.hash = some header ∧ c.getCanonicalHash n = some header.hash ∧
      c.getCanonicalHash (n - 1) = some header.parentHash) ∧
    ∀ n block, c.getBlockByNumber n = some block → c.Ancestor block.header.hash head.hash

/-! ## The invariant -/

/-- The tree of a chain with the index of its head's ancestry. -/
structure Indexed (c : Chain) (head : BlockHeader) : Prop extends Tree c head where
  top : c.canonical[head.number]? = some head.hash
  bounded : ∀ ⦃n : UInt64⦄ ⦃hash : H256⦄, c.canonical[n]? = some hash → n ≤ head.number
  linked : ∀ ⦃n : UInt64⦄, n ≠ 0 → n ≤ head.number → ∃ header : BlockHeader,
    c.headers[header.hash]? = some header ∧ c.canonical[n]? = some header.hash ∧
    c.canonical[n - 1]? = some header.parentHash

namespace Indexed

variable {c : Chain} {head parent : BlockHeader} {block : Block}

/-- Every entry of the index is an ancestor of the head. -/
theorem ancestor (x : Indexed c head) {n : UInt64} {hash : H256} (h : c.canonical[n]? = some hash) :
    c.Ancestor hash head.hash := by
  -- by induction on the distance to the head
  obtain ⟨k, hk⟩ := Nat.exists_eq_add_of_le (le_iff_toNat_le.1 (x.bounded h))
  induction k generalizing n hash with
  | zero =>
    obtain rfl : head.number = n := toNat_inj.1 hk
    obtain rfl := some.inj (x.top.symm.trans h)
    exact .refl
  | succ _ ih =>
    have next : (n + 1).toNat = n.toNat + 1 := by
      have bound := head.number.toNat_lt
      rw [UInt64.toNat_add, toNat_one]
      omega
    have nonzero : n + 1 ≠ 0 := by
      intro hzero
      rw [hzero] at next
      exact Nat.succ_ne_zero _ next.symm
    have below : n + 1 ≤ head.number := by
      rw [le_iff_toNat_le]
      omega
    obtain ⟨header, hstored, hentry, hparent⟩ := x.linked nonzero below
    rw [UInt64.add_sub_cancel, h] at hparent
    have above : c.Ancestor header.hash head.hash := ih hentry (by omega)
    exact above.tail ⟨header, hstored, (some.inj hparent).symm⟩

theorem ancestryIndexed (x : Indexed c head) : c.AncestryIndexed := by
  refine ⟨head, x.head_eq, x.top, x.headHash, ?_, ?_⟩
  · intro n hpos hle
    refine x.linked ?_ hle
    rintro rfl
    exact absurd hpos (by decide)
  · intro _ _ h
    obtain ⟨_, hentry, hbody⟩ := Option.bind_eq_some_iff.1 h
    rw [x.keyed (x.bodies hbody)]
    exact x.ancestor hentry

theorem moved (x : Indexed c head) (state : StateDB) (vs : ValidatorSet) :
    Indexed (c.moved state vs) head :=
  ⟨x.toTree.moved state vs, x.top, x.bounded, x.linked⟩

/-- A block that loses the fork choice keeps the index. -/
theorem withBlock_of_loses (x : Indexed c head) (hfresh : c.headers[block.header.hash]? = none)
    (hloses : c.isNewHead block.header = false) (state : StateDB) (vs : ValidatorSet) :
    Indexed (c.withBlock block state vs) head := by
  have tree := x.toTree.withBlock hfresh state vs
  rw [hloses] at tree
  have canonical : (c.withBlock block state vs).canonical = c.canonical := by
    simp only [withBlock, x.wins_eq hfresh, hloses, Bool.false_eq_true, if_false]
  refine ⟨tree, canonical ▸ x.top, canonical ▸ x.bounded, ?_⟩
  intro _ hpos hle
  obtain ⟨header, hstored, hentry⟩ := x.linked hpos hle
  exact ⟨header, getElem?_insert_of_fresh hfresh hstored, canonical ▸ hentry⟩

/-- A block that wins the fork choice and continues the index keeps it. -/
theorem withBlock_of_wins (x : Indexed c head) (hfresh : c.headers[block.header.hash]? = none)
    (hparent : c.headers[block.header.parentHash]? = some parent)
    (hnumber : block.header.number = parent.number + 1) (hwins : c.isNewHead block.header = true)
    (hcontinues : c.canonical[block.header.number - 1]? = some block.header.parentHash)
    (state : StateDB) (vs : ValidatorSet) : Indexed (c.withBlock block state vs) block.header := by
  have tree := x.toTree.withBlock hfresh state vs
  rw [hwins] at tree
  have number := x.number_of_wins hparent hnumber hwins
  have parent_le := le_iff_toNat_le.1 (x.highest hparent)
  have canonical : (c.withBlock block state vs).canonical =
      c.canonical.insert block.header.number block.header.hash := by
    simp only [withBlock, x.wins_eq hfresh, hwins, if_true]
  have kept : ∀ n : UInt64, n.toNat < block.header.number.toNat →
      (c.withBlock block state vs).canonical[n]? = c.canonical[n]? := by
    intro n hlt
    rw [canonical, getElem?_insert, if_neg]
    intro heq
    rw [LawfulEqOrd.eq_of_compare heq] at hlt
    exact Nat.lt_irrefl _ hlt
  refine ⟨tree, ?_, ?_, ?_⟩
  · rw [canonical]
    exact getElem?_insert_self
  · intro n _ h
    rw [canonical, getElem?_insert] at h
    split at h
    · rename_i heq
      rw [LawfulEqOrd.eq_of_compare heq]
      exact le_refl _
    · exact le_trans (x.bounded h) (x.head_le_of_wins hwins)
  · intro n hpos hle
    have := U64.toNat_pred hpos
    rcases Nat.lt_or_eq_of_le (le_iff_toNat_le.1 hle) with hlt | heq
    · have below : n ≤ head.number := by
        rw [le_iff_toNat_le]
        omega
      obtain ⟨header, hstored, hentry, hlink⟩ := x.linked hpos below
      rw [kept n hlt, kept (n - 1) (by omega)]
      exact ⟨header, getElem?_insert_of_fresh hfresh hstored, hentry, hlink⟩
    · obtain rfl := toNat_inj.1 heq
      rw [kept (block.header.number - 1) (by omega), canonical]
      exact ⟨block.header, getElem?_insert_self, getElem?_insert_self, hcontinues⟩

end Indexed

/-- A freshly started chain has the index of its genesis. -/
theorem StartedFresh.indexed {c : Chain} {genesis : Block} (h : StartedFresh genesis c) :
    Indexed c genesis.header := by
  have tree := h.tree
  obtain ⟨_, _, -, -, hcanonical, hnumber, rfl⟩ := h.onGenesis
  refine ⟨tree, ?_, ?_, ?_⟩
  · rw [hnumber]
    exact getElem?_insert_self
  · intro n _ hget
    simp only [Chain.onGenesis, hcanonical, getElem?_insert] at hget
    split at hget
    · rename_i heq
      rw [← LawfulEqOrd.eq_of_compare heq, hnumber]
      exact le_refl _
    · simp at hget
  · intro _ hpos hle
    rw [hnumber] at hle
    exact absurd (UInt64.le_zero_iff.1 hle) hpos

variable [Wasm] [Environment]

/-! ## Runs -/

/-- If the block of a call is accepted and wins the fork choice, then the canonical block one below
it is its parent. -/
def ContinuesIndex (c : Chain) (call : UInt64 × Block) : Prop :=
  ∀ r c', (importBlock call.1 call.2).run c = some (.ok r, c') → c.isNewHead call.2.header = true →
    c.getCanonicalHash (call.2.header.number - 1) = some call.2.header.parentHash

/-- An import that continues the index keeps it. -/
theorem Indexed.step {c c' : Chain} {head : BlockHeader} {call : UInt64 × Block}
    (x : Indexed c head) (hcontinues : ContinuesIndex c call) (h : ImportStep c call c') :
    ∃ head', Indexed c' head' := by
  obtain ⟨r, hrun⟩ := h
  cases r with
  | error =>
    rw [(importBlockImpl_iff.1 hrun).error_moved]
    exact ⟨head, x.moved ..⟩
  | ok r =>
    obtain ⟨_, state, vs, hchecked, hnumber, rfl⟩ := accepted_withBlock hrun
    cases hwins : c.isNewHead call.2.header with
    | true =>
      exact ⟨_, x.withBlock_of_wins hchecked.fresh hchecked.known hnumber hwins
        (hcontinues r _ hrun hwins) state vs⟩
    | false => exact ⟨_, x.withBlock_of_loses hchecked.fresh hwins state vs⟩

/-- A new head that does not continue the index breaks it. -/
theorem Indexed.continues_of_accepted {c c' : Chain} {head : BlockHeader} {now : UInt64}
    {block : Block} {r : ImportResult} (x : Indexed c head)
    (h : (importBlock now block).run c = some (.ok r, c')) (h' : c'.AncestryIndexed) :
    ContinuesIndex c (now, block) := by
  intro _ _ _ hwins
  obtain ⟨parent, state, vs, hchecked, hnumber, rfl⟩ := accepted_withBlock h
  have number := x.number_of_wins hchecked.known hnumber hwins
  have tree := x.toTree.withBlock hchecked.fresh state vs
  rw [hwins, if_pos rfl] at tree
  obtain ⟨_, hhead, htop, -, hlinked, -⟩ := h'
  obtain rfl := some.inj (tree.head_eq.symm.trans hhead)
  have pos : 1 ≤ block.header.number := by
    rw [le_iff_toNat_le, toNat_one]
    omega
  have pred : (block.header.number - 1).toNat = parent.number.toNat := by
    rw [UInt64.toNat_sub_of_le _ _ pos, toNat_one]
    omega
  obtain ⟨header, hstored, hentry, hparent⟩ := hlinked _ pos (le_refl _)
  -- the entry of the new height is the block, so it is its parent that the entry below must be
  have hash_eq : header.hash = block.header.hash := some.inj (hentry.symm.trans htop)
  rw [hash_eq] at hstored
  obtain rfl := some.inj (hstored.symm.trans tree.stored)
  have canonical : (c.withBlock block state vs).canonical =
      c.canonical.insert block.header.number block.header.hash := by
    simp only [withBlock, x.wins_eq hchecked.fresh, hwins, if_true]
  rw [getCanonicalHash, canonical, getElem?_insert, if_neg] at hparent
  · exact hparent
  · intro heq
    rw [← LawfulEqOrd.eq_of_compare heq] at pred
    omega

/-- In a run whose accepted new heads all continue the index, the canonical index is the ancestry of
the head; and after the next accepted block it still is exactly if that block continues the
index. -/
theorem ancestryIndexed_of_run {genesis : Block} {c₀ c : Chain} {calls : List (UInt64 × Block)}
    (h₀ : StartedFresh genesis c₀) (hrun : Run (Within ContinuesIndex ImportStep) c₀ calls c) :
    c.AncestryIndexed ∧ ∀ now block r c', (importBlock now block).run c = some (.ok r, c') →
      (c'.AncestryIndexed ↔ ContinuesIndex c (now, block)) := by
  obtain ⟨head, x⟩ : ∃ head, Indexed c head := by
    refine hrun.invariant (I := fun c => ∃ head, Indexed c head) ?_ ⟨_, h₀.indexed⟩
    rintro _ _ _ ⟨hcontinues, hstep⟩ ⟨_, x⟩
    exact x.step hcontinues hstep
  refine ⟨x.ancestryIndexed, ?_⟩
  intro _ _ r _ h
  refine ⟨x.continues_of_accepted h, fun hcontinues => ?_⟩
  obtain ⟨_, x'⟩ := x.step hcontinues ⟨.ok r, h⟩
  exact x'.ancestryIndexed

end Chain

namespace Demo

open Chain

/-- The first block continues the index of the genesis. -/
theorem firstBlock_indexed : ∃ genesis c₀ now block c, StartedFresh genesis c₀ ∧
      Run (Within ContinuesIndex ImportStep) c₀ [(now, block)] c ∧ c.AncestryIndexed := by
  obtain ⟨genesis, c₀, header, _, h₀, -, himport, hcheck⟩ := exists_grown (fun g => [firstBlock g])
    (fun c₀ g _ => c₀.getCanonicalHash ((firstBlock g).header.number - 1) =
    some (firstBlock g).header.parentHash)
    (by decide +kernel)
  obtain ⟨r, c₁, hstep, hrest⟩ := importAll_cons himport
  obtain rfl := Option.some.inj hrest
  have step : Within ContinuesIndex ImportStep c₀ (0, firstBlock header) c₁ :=
    ⟨fun _ _ _ _ => of_decide_eq_true hcheck, .ok r, hstep⟩
  have hrun := Run.nil.snoc step
  exact ⟨genesis, c₀, _, _, c₁, h₀, hrun, (ancestryIndexed_of_run h₀ hrun).1⟩

/-- The first block, its sibling and a block on the sibling are accepted, and then the entry below
the head is not its parent. -/
theorem overtaking_not_indexed : ∃ genesis c₀ calls c, StartedFresh genesis c₀ ∧
    Run ImportStep c₀ calls c ∧
      ¬ c.AncestryIndexed := by
  obtain ⟨genesis, c₀, _, c, h₀, -, himport, hcheck⟩ := exists_grown
    (fun g => [firstBlock g, siblingBlock g, overtakingBlock g])
    (fun _ _ c => c.head.any fun head => (c.getBlockByNumber 1).any fun block =>
      (climb c.headers BlockHeader.parentHash 4 head.hash).any fun way => block.header.hash ∉ way)
    (by decide +kernel)
  refine ⟨genesis, c₀, _, c, h₀, importAll_run .nil himport, ?_⟩
  rintro ⟨_, hhead, -, -, -, hblocks⟩
  simp only [Option.any_eq_true] at hcheck
  obtain ⟨_, hhead', block, hblock, _, hway, hmem⟩ := hcheck
  obtain rfl := Option.some.inj (hhead'.symm.trans hhead)
  exact of_decide_eq_true hmem ((hblocks 1 block hblock).mem_climb hway)

end Demo

end Vtt
