import Vtt.Chain.Start
import Vtt.Lib.Links

/-!
# The tree of blocks

A started chain keeps its headers under their hashes, its head is among them, and none of them is
higher than the head. An import either adds one block on a known parent or leaves the tree alone.
-/

namespace Vtt

open Lib Std ExtTreeMap Option UInt64

namespace Chain

variable [Crypto]

/-- A block is an ancestor of another one, or that block itself. -/
def Ancestor (c : Chain) (ancestor hash : H256) : Prop :=
  Descends c.headers BlockHeader.parentHash hash ancestor

theorem isNewHead_iff {c : Chain} {head : BlockHeader} (hhash : c.headHash = some head.hash)
    (hstored : c.headers[head.hash]? = some head) (header : BlockHeader) :
    c.isNewHead header = true ↔ head.number < header.number ∨
      (header.number = head.number ∧ compare header.hash head.hash = .lt) := by
  have hhead : c.head = some head := by rw [Chain.head, hhash, bind_some, hstored]
  simp only [isNewHead, hhead, hhash, getD_some]
  split
  · rename_i hlt
    exact ⟨fun _ => .inl hlt, fun _ => rfl⟩
  · rename_i hnlt
    split
    · rename_i hgt
      refine ⟨fun h => (Bool.false_ne_true h).elim, ?_⟩
      rintro (hlt | ⟨heq, -⟩)
      · exact (hnlt hlt).elim
      · exact (UInt64.lt_irrefl _ (heq ▸ hgt)).elim
    · rename_i hngt
      have heq : header.number = head.number := le_antisymm (not_lt.1 hnlt) (not_lt.1 hngt)
      rw [beq_iff_eq]
      exact ⟨fun h => .inr ⟨heq, h⟩, fun h => h.elim (fun hlt => (hnlt hlt).elim) And.right⟩

/-- A chain with a block added on the tree, and the head moved to it if it wins. -/
def withBlock (c : Chain) (block : Block) (state : StateDB) (validatorSet : ValidatorSet) : Chain :=
  { c with
    state
    validatorSet
    headers := c.headers.insert block.header.hash block.header
    bodies := c.bodies.insert block.header.hash block
    canonical := if c.wins block then c.canonical.insert block.header.number block.header.hash
      else c.canonical
    headHash := if c.wins block then some block.header.hash else c.headHash }

/-! ## The tree -/

/-- The headers are kept under their hashes, with their bodies; the given one is the head, and none
is higher. -/
structure Tree (c : Chain) (head : BlockHeader) : Prop where
  headHash : c.headHash = some head.hash
  stored : c.headers[head.hash]? = some head
  keyed : ∀ ⦃hash : H256⦄ ⦃header : BlockHeader⦄, c.headers[hash]? = some header →
    header.hash = hash
  highest : ∀ ⦃hash : H256⦄ ⦃header : BlockHeader⦄, c.headers[hash]? = some header →
    header.number ≤ head.number
  bodies : ∀ ⦃hash : H256⦄ ⦃block : Block⦄, c.bodies[hash]? = some block →
    c.headers[hash]? = some block.header

namespace Tree

variable {c : Chain} {head parent : BlockHeader} {block : Block}

theorem head_eq (t : Tree c head) : c.head = some head := by
  rw [Chain.head, t.headHash, bind_some, t.stored]

/-- A new block has no body yet. -/
theorem body_fresh (t : Tree c head) {hash : H256} (hfresh : c.headers[hash]? = none) :
    c.bodies[hash]? = none := by
  refine eq_none_iff_forall_ne_some.2 fun block hbody => ?_
  rw [t.bodies hbody] at hfresh
  cases hfresh

theorem moved (t : Tree c head) (state : StateDB) (vs : ValidatorSet) :
    Tree (c.moved state vs) head :=
  ⟨t.headHash, t.stored, t.keyed, t.highest, t.bodies⟩

/-- Storing a new block first does not change the fork choice. -/
theorem wins_eq (t : Tree c head) (hfresh : c.headers[block.header.hash]? = none) :
    c.wins block = c.isNewHead block.header := by
  refine Bool.eq_iff_iff.2 ?_
  rw [isNewHead_iff t.headHash t.stored block.header]
  have hhash : (c.insertBlock block).headHash = some head.hash := t.headHash
  exact isNewHead_iff hhash (getElem?_insert_of_fresh hfresh t.stored) block.header

/-- A winning block is not below the head. -/
theorem head_le_of_wins (t : Tree c head) (hwins : c.isNewHead block.header = true) :
    head.number ≤ block.header.number := by
  rcases (isNewHead_iff t.headHash t.stored block.header).1 hwins with hlt | ⟨heq, -⟩
  · exact le_of_lt hlt
  · exact heq ▸ le_refl _

/-- The number of a winning block does not wrap around. -/
theorem number_of_wins (t : Tree c head)
    (hparent : c.headers[block.header.parentHash]? = some parent)
    (hnumber : block.header.number = parent.number + 1) (hwins : c.isNewHead block.header = true) :
    block.header.number.toNat = parent.number.toNat + 1 := by
  have below : parent.number.toNat ≤ head.number.toNat := le_iff_toNat_le.1 (t.highest hparent)
  have above : head.number.toNat ≤ block.header.number.toNat :=
    le_iff_toNat_le.1 (t.head_le_of_wins hwins)
  have wrapped : block.header.number.toNat = (parent.number.toNat + 1) % 2 ^ 64 := by
    rw [hnumber, UInt64.toNat_add]
    rfl
  have bound := parent.number.toNat_lt
  omega

/-- A block on a known parent keeps the tree. -/
theorem withBlock (t : Tree c head) (hfresh : c.headers[block.header.hash]? = none)
    (state : StateDB) (vs : ValidatorSet) :
    Tree (c.withBlock block state vs) (if c.isNewHead block.header then block.header
      else head) := by
  have keyed : ∀ ⦃hash : H256⦄ ⦃header : BlockHeader⦄,
      (c.headers.insert block.header.hash block.header)[hash]? = some header →
      header.hash = hash ∧ (header = block.header ∨ header.number ≤ head.number) := by
    intro hash header h
    rw [getElem?_insert] at h
    split at h
    · rename_i heq
      cases h
      exact ⟨LawfulEqOrd.eq_of_compare heq, .inl rfl⟩
    · exact ⟨t.keyed h, .inr (t.highest h)⟩
  have bodies : ∀ ⦃hash : H256⦄ ⦃b : Block⦄, (c.bodies.insert block.header.hash block)[hash]? =
      some b → (c.headers.insert block.header.hash block.header)[hash]? = some b.header := by
    intro hash _ h
    rw [getElem?_insert] at h ⊢
    split at h
    · rename_i heq
      rw [if_pos heq, some.inj h]
    · rename_i hne
      rw [if_neg hne]
      exact t.bodies h
  cases hwins : c.isNewHead block.header with
  | true =>
    refine ⟨?_, getElem?_insert_self, fun _ _ h => (keyed h).1, ?_, bodies⟩
    · simp only [Chain.withBlock, t.wins_eq hfresh, hwins, if_true]
    · intro hash header h
      rcases (keyed h).2 with rfl | hle
      · exact le_refl _
      · exact le_trans hle (t.head_le_of_wins hwins)
  | false =>
    have below : block.header.number ≤ head.number := by
      refine not_lt.1 fun hlt => ?_
      rw [(isNewHead_iff t.headHash t.stored block.header).2 (.inl hlt)] at hwins
      cases hwins
    refine ⟨?_, getElem?_insert_of_fresh hfresh t.stored, fun _ _ h => (keyed h).1, ?_, bodies⟩
    · simp only [Chain.withBlock, t.wins_eq hfresh, hwins, Bool.false_eq_true, if_false]
      exact t.headHash
    · intro _ _ h
      rcases (keyed h).2 with rfl | hle
      · exact below
      · exact hle

end Tree

/-- A freshly started chain is a tree of its genesis block. -/
theorem StartedFresh.tree {c : Chain} {genesis : Block} (h : StartedFresh genesis c) :
    Tree c genesis.header := by
  obtain ⟨c₀, state, hheaders, hbodies, -, -, rfl⟩ := h.onGenesis
  have headers : ∀ ⦃hash : H256⦄ ⦃header : BlockHeader⦄,
      (c₀.onGenesis genesis state).headers[hash]? = some header → genesis.header.hash = hash ∧
      genesis.header = header := by
    intro hash header hget
    simp only [Chain.onGenesis, hheaders, getElem?_insert] at hget
    split at hget
    · rename_i heq
      exact ⟨LawfulEqOrd.eq_of_compare heq, some.inj hget⟩
    · simp at hget
  refine ⟨rfl, getElem?_insert_self, ?_, ?_, ?_⟩
  · intro hash header hget
    obtain ⟨hhash, rfl⟩ := headers hget
    exact hhash
  · intro hash _ hget
    obtain ⟨-, rfl⟩ := headers hget
    exact le_refl _
  · intro _ _ hget
    simp only [Chain.onGenesis, hbodies, getElem?_insert] at hget ⊢
    split at hget
    · rename_i heq
      rw [if_pos heq, some.inj hget]
    · simp at hget

variable [Wasm] [Environment]

/-- An accepted block was new, on a known parent and one above it, and is in the tree afterwards. -/
theorem accepted_withBlock {c c' : Chain} {now : UInt64} {block : Block} {r : ImportResult}
    (h : (importBlock now block).run c = some (.ok r, c')) :
    ∃ parent state vs, Checked c now block parent ∧ block.header.number = parent.number + 1 ∧
      c' = c.withBlock block state vs := by
  obtain ⟨parent, epoch, _, _, hadm, rfl⟩ := (importBlockImpl_iff.1 h).ok_stored
  obtain ⟨_, hverified⟩ := ConsensusEngine.verifyHeader_ok_iff.1 hadm.verified
  exact ⟨parent, _, (c.enterEpoch epoch).validatorSet, checkBlock_ok_iff.1 hadm.checked,
    hverified.number, storeBlock_eq ..⟩

/-- A call of `importBlock` leaves the tree alone, or it adds the block. -/
theorem ImportStep.cases {c c' : Chain} {now : UInt64} {block : Block}
    (h : ImportStep c (now, block) c') :
    (∃ state vs, c' = c.moved state vs) ∨
      ∃ parent state vs, Checked c now block parent ∧ block.header.number = parent.number + 1 ∧
        c' = c.withBlock block state vs := by
  obtain ⟨r, hrun⟩ := h
  cases r with
  | error => exact .inl ⟨_, _, (importBlockImpl_iff.1 hrun).error_moved⟩
  | ok => exact .inr (accepted_withBlock hrun)

end Chain

end Vtt
