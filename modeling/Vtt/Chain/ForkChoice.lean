import Vtt.Chain.Canonical
import Vtt.Chain.Lookup

/-!
# The fork choice

The head of a chain is the best of the headers it has accepted: one of the largest number and, among
those, the one with the smallest hash. Which header that is does not depend on the order in which
the blocks came in.
-/

namespace Vtt

open Lib Std UInt64 List ReflCmp
open List (mem_append mem_singleton)

section Choice

variable [Crypto]

/-- The header the fork choice wants: no other one is higher, and none of its height has a smaller
hash. -/
structure Best (headers : List BlockHeader) (head : BlockHeader) : Prop where
  mem : head ∈ headers
  highest : ∀ header ∈ headers, header.number ≤ head.number
  least : ∀ header ∈ headers, header.number = head.number →
    (compare head.hash header.hash).isLE = true

/-- The best header depends only on which headers there are, not on their order. -/
theorem Best.hash_eq {headers headers' : List BlockHeader} {head head' : BlockHeader}
    (h : Best headers head) (h' : Best headers' head')
    (hsame : ∀ header, header ∈ headers ↔ header ∈ headers') : head.hash = head'.hash := by
  have hmem : head ∈ headers' := (hsame head).1 h.mem
  have hmem' : head' ∈ headers := (hsame head').2 h'.mem
  have hnumber : head.number = head'.number := le_antisymm (h'.highest _ hmem) (h.highest _ hmem')
  exact LawfulEqOrd.eq_of_compare (OrientedCmp.isLE_antisymm (h.least _ hmem' hnumber.symm)
    (h'.least _ hmem hnumber))

namespace Chain

variable {genesis : Block}

/-- The chain keeps the headers and has the best of them as its head. -/
structure Chosen (c : Chain) (headers : List BlockHeader) (head : BlockHeader) : Prop where
  tree : Tree c head
  kept : ∀ header, (∃ hash : H256, c.headers[hash]? = some header) ↔ header ∈ headers
  best : Best headers head

namespace Chosen

variable {c : Chain} {headers : List BlockHeader} {head : BlockHeader} {block : Block}

theorem moved (h : Chosen c headers head) (state : StateDB) (vs : ValidatorSet) :
    Chosen (c.moved state vs) headers head :=
  ⟨h.tree.moved state vs, h.kept, h.best⟩

/-- A block that wins is higher than all headers, or at the height of the head with a smaller
hash. -/
theorem best_of_wins (h : Chosen c headers head) (hwins : c.isNewHead block.header = true) :
    Best (headers ++ [block.header]) block.header := by
  have hcases := (isNewHead_iff h.tree.headHash h.tree.stored block.header).1 hwins
  have habove : head.number ≤ block.header.number := h.tree.head_le_of_wins hwins
  refine ⟨mem_append_right _ (mem_singleton_self _), fun header hmem => ?_,
    fun header hmem heq => ?_⟩
  · rcases mem_append.1 hmem with hold | hnew
    · exact le_trans (h.best.highest _ hold) habove
    · exact mem_singleton.1 hnew ▸ le_refl _
  · rcases mem_append.1 hmem with hold | hnew
    · rcases hcases with hlt | ⟨hnumber, hhash⟩
      · -- an old header is not as high as a block above the head
        exact absurd (heq ▸ h.best.highest _ hold) (not_le.2 hlt)
      · have hleast := h.best.least _ hold (heq.trans hnumber)
        exact TransCmp.isLE_trans (by rw [hhash]; rfl) hleast
    · exact mem_singleton.1 hnew ▸ isLE_rfl

/-- A block that does not win leaves the head the best one. -/
theorem best_of_loses (h : Chosen c headers head) (hwins : c.isNewHead block.header = false) :
    Best (headers ++ [block.header]) head := by
  have hcases :=
    mt (isNewHead_iff h.tree.headHash h.tree.stored block.header).2 (Bool.not_eq_true _ ▸ hwins)
  rw [not_or, not_and] at hcases
  refine ⟨mem_append_left _ h.best.mem, fun header hmem => ?_, fun header hmem heq => ?_⟩
  · rcases mem_append.1 hmem with hold | hnew
    · exact h.best.highest _ hold
    · exact mem_singleton.1 hnew ▸ not_lt.1 hcases.1
  · rcases mem_append.1 hmem with hold | hnew
    · exact h.best.least _ hold heq
    · obtain rfl := mem_singleton.1 hnew
      refine OrientedCmp.isGE_iff_isLE.1 ?_
      exact Ordering.isGE_iff_ne_lt.2 (hcases.2 heq)

/-- A new block joins the headers, and the head is the best of them all. -/
theorem withBlock (h : Chosen c headers head) (hfresh : c.headers[block.header.hash]? = none)
    (state : StateDB) (vs : ValidatorSet) :
    Chosen (c.withBlock block state vs) (headers ++ [block.header])
      (if c.isNewHead block.header then block.header else head) := by
  refine ⟨h.tree.withBlock hfresh state vs, fun header => ?_, ?_⟩
  · rw [mem_append, mem_singleton, ← h.kept]
    constructor
    · rintro ⟨hash, hget⟩
      rw [Chain.withBlock, ExtTreeMap.getElem?_insert] at hget
      split at hget
      · exact .inr (Option.some.inj hget).symm
      · exact .inl ⟨hash, hget⟩
    · rintro (⟨hash, hget⟩ | rfl)
      · exact ⟨hash, getElem?_insert_of_fresh hfresh hget⟩
      · exact ⟨_, ExtTreeMap.getElem?_insert_self⟩
  · cases hwins : c.isNewHead block.header with
    | true => exact h.best_of_wins hwins
    | false => exact h.best_of_loses hwins

end Chosen

/-- A freshly started chain has its genesis header and nothing else. -/
theorem StartedFresh.chosen {c : Chain} (h : StartedFresh genesis c) :
    Chosen c [genesis.header] genesis.header := by
  refine ⟨h.tree, fun header => ?_, mem_singleton_self _, fun header hmem => ?_,
    fun header hmem _ => ?_⟩
  · obtain ⟨_, _, hheaders, -, -, -, rfl⟩ := h.onGenesis
    simp only [Chain.onGenesis, hheaders, ExtTreeMap.getElem?_insert, mem_singleton]
    constructor
    · rintro ⟨_, hget⟩
      split at hget
      · exact (Option.some.inj hget).symm
      · simp at hget
    · rintro rfl
      exact ⟨_, if_pos ReflCmp.compare_self⟩
  · exact mem_singleton.1 hmem ▸ le_refl _
  · exact mem_singleton.1 hmem ▸ isLE_rfl

variable [Wasm] [Environment]

/-- The headers of the accepted blocks, after the one of the genesis block. -/
def acceptedHeaders (genesis : Block)
    (calls : List ((UInt64 × Block) × Except ChainError ImportResult)) :
    List BlockHeader :=
  genesis.header :: (acceptedBlocks calls).map (·.1.header)

/-- Every call of `importBlock` keeps the head the best of the accepted headers. -/
theorem chosen_of_run {c₀ c : Chain}
    {calls : List ((UInt64 × Block) × Except ChainError ImportResult)}
    (hstart : StartedFresh genesis c₀) (h : Run ImportCall c₀ calls c) :
    ∃ head, Chosen c (acceptedHeaders genesis calls) head := by
  induction h with
  | nil => exact ⟨_, hstart.chosen⟩
  | @snoc _ call _ _ _ hcall ih =>
    obtain ⟨head, hchosen⟩ := ih
    obtain ⟨⟨_, _⟩, result⟩ := call
    unfold acceptedHeaders acceptedBlocks at hchosen ⊢
    cases result with
    | error =>
      simp only [filterMap_append, filterMap_cons_none, filterMap_nil, append_nil]
      rw [(importBlockImpl_iff.1 hcall).error_moved]
      exact ⟨head, hchosen.moved _ _⟩
    | ok =>
      obtain ⟨_, state, vs, hchecked, -, rfl⟩ := accepted_withBlock hcall
      have hnext := hchosen.withBlock hchecked.fresh state vs
      exact ⟨_, by simpa using hnext⟩

/-- The head is the best of the accepted headers and the genesis header, and another chain of the
same genesis block that accepts the same headers in whatever order has the same head. -/
theorem head_best {c₀ c : Chain} {genesis : Block}
    {calls : List ((UInt64 × Block) × Except ChainError ImportResult)}
    (hstart : StartedFresh genesis c₀) (h : Run ImportCall c₀ calls c) :
    (∃ head, c.head = some head ∧ Best (acceptedHeaders genesis calls) head) ∧
      ∀ c₁ c' calls', StartedFresh genesis c₁ → Run ImportCall c₁ calls' c' →
        (∀ header, header ∈ acceptedHeaders genesis calls ↔
          header ∈ acceptedHeaders genesis calls') →
        c'.headHash = c.headHash := by
  obtain ⟨head, hchosen⟩ := chosen_of_run hstart h
  refine ⟨⟨head, hchosen.tree.head_eq, hchosen.best⟩, fun c₁ c' calls' hstart' h' hsame => ?_⟩
  obtain ⟨_, hchosen'⟩ := chosen_of_run hstart' h'
  rw [hchosen.tree.headHash, hchosen'.tree.headHash, hchosen.best.hash_eq hchosen'.best hsame]

end Chain

end Choice

namespace Demo

open Chain

/-- The first block and its sibling are accepted one after the other, and the head is the best of
them. -/
theorem sibling_best : ∃ genesis c₀ calls c, StartedFresh genesis c₀ ∧ Run ImportCall c₀ calls c ∧
    (acceptedHeaders genesis calls).length = 3 ∧
    ∃ head, c.head = some head ∧ Best (acceptedHeaders genesis calls) head := by
  obtain ⟨genesis, c₀, header, _, h₀, -, himport, -⟩ :=
    exists_grown (fun g => [firstBlock g, siblingBlock g]) (fun _ _ _ => true) (by decide +kernel)
  obtain ⟨r₁, _, hfirst, hrest⟩ := importAll_cons himport
  obtain ⟨r₂, c₂, hsecond, -⟩ := importAll_cons hrest
  have hrun : Run ImportCall c₀ [((0, firstBlock header), .ok r₁),
      ((0, siblingBlock header), .ok r₂)] c₂ :=
    (Run.nil.snoc hfirst).snoc hsecond
  exact ⟨genesis, c₀, _, c₂, h₀, hrun, rfl, (head_best h₀ hrun).1⟩

end Demo

end Vtt
