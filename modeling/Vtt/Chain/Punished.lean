import Vtt.Chain.Deposits
import Vtt.Chain.DoubleSign
import Vtt.Chain.Lookup
import Vtt.Chain.Tree
import Vtt.Chain.Unmarked
import Vtt.State.Observation

/-!
# Double signing and imports

A chain notes the validator, the epoch and the slot of every block that passes its checks, and a
second block for them is evidence if the chain has kept the header of the first one. If the state
root of a block is wrong, the slash is undone, but the note stays, and it is about a block whose
header is not kept.
-/

namespace Vtt

open Lib Executor StateDB Std List BitVec LawfulEqCmp BlockHeader ExtTreeMap Option Chain
open DoubleSignEvidence (isValid)

/-- What the blocks of a validator for a slot are noted under. -/
def BlockHeader.slotKey (header : BlockHeader) : SlotKey :=
  (header.validator, header.epoch, header.slot)

/-! ## Evidence -/

section Evidence

variable {s : StateDB} {evidence : DoubleSignEvidence} {bps : UInt16} {epoch : UInt64}

/-- The stake of the offender is reduced exactly if the evidence is slashed for. -/
theorem stakeOf_processEvidence_lt_iff (s : StateDB) (evidence : DoubleSignEvidence) (bps : UInt16)
    (epoch : UInt64) :
    stakeOf (processEvidence s evidence bps epoch).2 evidence.offender <
      stakeOf s evidence.offender ↔
      Slashable s evidence bps := by
  have hlt (a b : Amount) : a < b ↔ a.raw.toNat < b.raw.toNat := Iff.rfl
  rcases processEvidence_actedOn s evidence bps epoch with ⟨ha, hsame⟩ | ⟨hna, heq⟩
  · have hpos : (stakeOf s evidence.offender).raw.toNat ≠ 0 := fun h => ha.stake (eq_of_toNat_eq h)
    have hleft := toNat_stakeOf_slashFor s evidence bps
    have hshare : (calculateDoubleSignSlash (stakeOf s evidence.offender) bps).raw ≠ 0 ↔
        shareOf (stakeOf s evidence.offender).raw.toNat bps.toNat ≠ 0 := by
      rw [← toNat_calculateDoubleSignSlash, not_iff_not]
      exact ⟨fun h => by rw [h]; rfl, fun h => eq_of_toNat_eq h⟩
    rw [hlt, stakeOf, hsame, ← stakeOf, hleft]
    constructor
    · intro _
      exact ⟨ha.valid, ha.unseen, hshare.2 fun h => by omega⟩
    · intro h
      have := hshare.1 h.nonzero
      omega
  · rw [heq]
    exact ⟨fun h => absurd h (BitVec.lt_irrefl _), fun h => absurd h.actionable hna⟩

/-- Something was taken only if the slash is not zero. -/
theorem slashable_of_taken (ha : Actionable s evidence)
    (h : ¬ (slashFor s evidence bps).1.isZero = true) :
    Slashable s evidence bps := by
  refine ⟨ha.valid, ha.unseen, fun hzero => h (Amount.isZero_iff.2 ?_)⟩
  have hnone : (slashFor s evidence bps).1.raw.toNat = 0 := by
    have hle : (slashFor s evidence bps).1.raw.toNat ≤
        (calculateDoubleSignSlash (stakeOf s evidence.offender) bps).raw.toNat := applySlash_le
    rw [hzero] at hle
    exact Nat.le_zero.1 hle
  exact congrArg Amount.mk (eq_of_toNat_eq hnone)

/-- A slot is acted on exactly if its evidence is slashed for. -/
theorem seen_processEvidence_iff {key : SlotKey} :
    Seen (processEvidence s evidence bps epoch).2 key ↔
    Seen s key ∨ (key = evidence.key ∧ Slashable s evidence bps) := by
  have hreduced := stakeOf_processEvidence_lt_iff s evidence bps epoch
  rcases processEvidence_state s evidence bps epoch with ⟨ha, heq⟩ | ⟨hna, heq⟩
  · rw [heq] at hreduced ⊢
    split
    · rename_i hzero
      have hsame : stakeOf (slashFor s evidence bps).2 evidence.offender =
          stakeOf s evidence.offender :=
        stakeOf_of_isZero ha.stake hzero
      rw [if_pos hzero, hsame] at hreduced
      rw [Seen, slashFor, slashingSeen_applySlash]
      exact ⟨.inl, fun h => h.resolve_right fun h => BitVec.lt_irrefl _ (hreduced.2 h.2)⟩
    · rename_i htaken
      have hslash := slashable_of_taken ha htaken
      rw [Seen, slashingSeen_slashNoted, ExtTreeSet.mem_insert, LawfulEqCmp.compare_eq_iff_eq]
      exact ⟨fun h => h.symm.imp_right fun h => ⟨h.symm, hslash⟩,
        fun h => h.symm.imp_left fun h => h.1.symm⟩
  · rw [heq]
    exact ⟨.inl, fun h => h.resolve_right fun h => hna h.2.actionable⟩

end Evidence

/-! ## What is neither noted nor acted on -/

/-- The blocks that were noted and the evidence that was acted on are the same. -/
structure SameNotes (s t : StateDB) : Prop where
  seen : SameSeen s t
  commitments : t.blockCommitments = s.blockCommitments

instance : IsPreorder StateDB SameNotes where
  refl _ := ⟨rfl, rfl⟩
  trans _ _ _ h h' := ⟨Eq.trans h'.seen h.seen, h'.commitments.trans h.commitments⟩

section SameNotes

variable (s : StateDB)

theorem sameNotes_applySlash (validator : Address) (amount : Amount) :
    SameNotes s (s.applySlash validator amount).2 :=
  ⟨slashingSeen_applySlash s validator amount,
    (observed_of_linked (linked_observing s).applySlash.2).1⟩

/-- Evidence that is processed notes no block. -/
theorem blockCommitments_processEvidence (evidence : DoubleSignEvidence) (bps : UInt16)
    (epoch : UInt64) :
    (processEvidence s evidence bps epoch).2.blockCommitments = s.blockCommitments :=
  (observed_of_linked ((linked_observing s).processSlashingEvidence [evidence] bps epoch)).1

theorem sameNotes_slashDowntime (slots : UInt32) (thresholdPct : UInt8) (bps : UInt16)
    (epoch : Epoch) (missed : Address × UInt32) :
    SameNotes s (slashDowntime slots thresholdPct bps epoch s missed) := by
  unfold slashDowntime
  dsimp only
  split
  · have hslashed :=
      sameNotes_applySlash s missed.1
        (calculateDowntimeSlash (totalStakeOf (s.getAccount missed.1)) bps)
    split
    · exact hslashed
    · exact IsTrans.trans _ _ _ hslashed ⟨rfl, rfl⟩
  · exact refl s

/-- Steps that change nothing of it, one after the other. -/
theorem sameNotes_foldl {α : Type} {f : StateDB → α → StateDB} (hf : ∀ s a, SameNotes s (f s a))
    (as : List α) :
    SameNotes s (as.foldl f s) := by
  induction as generalizing s with
  | nil => exact refl s
  | cons a _ ih => exact IsTrans.trans _ _ _ (hf s a) (ih _)

theorem sameNotes_closeEpoch (params : ConsensusParams) (vs : ValidatorSet) :
    SameNotes s (closeEpoch params vs s) := by
  have htaken : SameNotes s (s.takeMissedSlotsForEpoch vs.epoch).2 := ⟨rfl, rfl⟩
  unfold closeEpoch
  dsimp only
  split
  · exact IsTrans.trans _ _ _ htaken (sameNotes_foldl _ (fun s m => sameNotes_slashDowntime s ..) _)
  · exact htaken

end SameNotes

namespace Chain

variable {prior : BlockHeader}

/-! ## Noting a block -/

section Noting

variable (c : Chain) (header parent : BlockHeader) (epoch : Epoch)

/-- Two headers that are evidence are for one slot. -/
theorem slotKey_eq_of_isValid (h : isValid ⟨prior, header⟩ = true) :
    prior.slotKey = header.slotKey := by
  simp only [isValid, Bool.and_eq_true, beq_iff_eq] at h
  obtain ⟨⟨⟨hvalidator, hepoch⟩, hslot⟩, -⟩ := h
  rw [slotKey, slotKey, hvalidator, hepoch, hslot]

theorem sameNotes_enterEpoch : SameNotes c.state (c.enterEpoch epoch).state := by
  unfold enterEpoch
  split
  · exact sameNotes_closeEpoch ..
  · exact refl _

theorem headers_enterEpoch : (c.enterEpoch epoch).headers = c.headers := by
  rw [enterEpoch_moved]
  rfl

theorem sameNotes_trackMissedSlots : SameNotes c.state (c.trackMissedSlots header parent).state :=
  sameNotes_foldl (f := fun db v => db.recordMissedSlot header.epoch v) _ (fun _ _ => ⟨rfl, rfl⟩) _

variable [Crypto]

/-- The block has a rival and the two are slashed for. -/
def Conflicts : Prop :=
  ∃ prior, c.rival header = some prior ∧ Slashable c.state ⟨prior, header⟩ c.doubleSignBps

theorem seen_observeBlock_iff {key : SlotKey} : Seen (c.observeBlock header epoch).state key ↔
    Seen c.state key ∨ (key = header.slotKey ∧ c.Conflicts header) := by
  cases hrival : c.rival header with
  | none =>
    rw [observeBlock_state_of_none hrival]
    refine ⟨.inl, fun h => h.resolve_right ?_⟩
    rintro ⟨-, prior, hprior, -⟩
    cases hrival.symm.trans hprior
  | some prior =>
    rw [observeBlock_state_of_some hrival, seen_processEvidence_iff,
      slashable_recordBlockCommitment_iff]
    refine or_congr Iff.rfl ⟨?_, ?_⟩
    · rintro ⟨rfl, hslash⟩
      exact ⟨slotKey_eq_of_isValid header hslash.valid, prior, hrival, hslash⟩
    · rintro ⟨rfl, _, hprior, hslash⟩
      obtain rfl := some.inj (hrival.symm.trans hprior)
      exact ⟨(slotKey_eq_of_isValid header hslash.valid).symm, hslash⟩

/-- Noting a block reduces the stake of its validator exactly if it is slashed for. -/
theorem stakeOf_observeBlock_lt_iff :
    stakeOf (c.observeBlock header epoch).state header.validator <
      stakeOf c.state header.validator ↔
      c.Conflicts header := by
  have hnoted (address : Address) :
      stakeOf (c.state.recordBlockCommitment header.validator header.epoch header.slot
      header.hash).2 address = stakeOf c.state address := by
    rw [stakeOf, getAccount_recordBlockCommitment, stakeOf]
  constructor
  · intro hless
    exact (stakeReduced_observeBlock_iff c header epoch).1 ⟨_, hless⟩
  · rintro ⟨prior, hrival, hslash⟩
    have hkey := slotKey_eq_of_isValid header hslash.valid
    have hvalidator : prior.validator = header.validator := congrArg (·.1) hkey
    have hless := (stakeOf_processEvidence_lt_iff _ _ _ epoch).2
      ((slashable_recordBlockCommitment_iff c.state header.validator header.epoch header.slot
      header.hash _ _).2 hslash)
    rw [← observeBlock_state_of_some hrival, hnoted] at hless
    rwa [← hvalidator]

theorem blockCommitments_observeBlock : (c.observeBlock header epoch).state.blockCommitments =
    c.state.blockCommitments.insert header.slotKey header.hash := by
  cases hrival : c.rival header with
  | none => rw [observeBlock_state_of_none hrival]; rfl
  | some =>
    rw [observeBlock_state_of_some hrival, blockCommitments_processEvidence]
    rfl

theorem sameNotes_storeBlock (block : Block) (receipts : List TransactionReceipt) :
    SameNotes c.state (c.storeBlock block receipts).2.state := by
  obtain ⟨_, heq⟩ := c.exists_storeBlock_state block receipts
  rw [heq]
  exact ⟨rfl, rfl⟩

variable [Wasm] [Environment]

section Execution

variable {c header parent epoch} {now : UInt64} {block : Block} {staked : Amount}
  {receipts : List TransactionReceipt} {executed : Chain}

/-- A block whose transactions have nothing to say about a slot does not act on it once it is
executed. -/
theorem spares_runBlock {key : SlotKey} (hadm : Admitted now block c parent epoch staked)
    (hplain : ∀ tx ∈ block.transactions, Unrelated key tx)
    (hrun : (runBlock block none staked).run (c.noted block.header parent epoch) =
      some (.ok receipts, executed)) :
    Spares key (c.noted block.header parent epoch).state executed.state := by
  obtain ⟨state, _, t, _, _, -, hrelease, hall, hsettle⟩ := runBlock_parts hadm hrun
  have hreleased : Spares key _ state :=
    .of_sameSeen (dealing_sameSeen.toRoutine.processUnbonding _ hrelease)
  have hsettled : Spares key t executed.state := .of_sameSeen
    (dealing_sameSeen.toRoutine.applyBlockRewardsAndGovernance (fun _ _ h => h.seen)
    (fun _ => trivial) hsettle)
  exact IsTrans.trans _ _ _ hreleased
    (IsTrans.trans _ _ _ (spares_of_executeTransactions hplain hall) hsettled)

/-- No block is noted and no missed slot is counted while a block is executed. -/
theorem observed_runBlock
    (hrun : (runBlock block none staked).run (c.noted block.header parent epoch) =
      some (.ok receipts, executed)) :
    executed.state.blockCommitments = (c.noted block.header parent epoch).state.blockCommitments ∧
      executed.state.missedSlots = (c.noted block.header parent epoch).state.missedSlots := by
  obtain ⟨_, -, ⟨hnone, -⟩ | ⟨-, _, rfl, hexec⟩⟩ := runBlock_ok hrun
  · cases hnone
  · exact SettleM.run_observed _ hexec

end Execution

end Noting

/-! ## Imports -/

variable [Crypto]

/-- The slots for which an import takes from a stake: the one of an accepted block, if noting it
reduces the stake of its validator. -/
def slashedSlots (c : Chain) (call : (UInt64 × Block) × Except ChainError ImportResult) :
    List SlotKey :=
  let header := call.1.2.header
  match call.2, c.consensus.epochForBlock header.number with
  | .ok _, some epoch =>
    let entered := c.enterEpoch epoch
    if stakeOf (entered.observeBlock header epoch).state header.validator <
      stakeOf entered.state header.validator
    then [header.slotKey] else []
  | _, _ => []

section Imports

variable {c c' : Chain} {now : UInt64} {block : Block} {parent : BlockHeader} {epoch : Epoch}
  {staked : Amount}

theorem mem_slashedSlots_iff {result : ImportResult} {key : SlotKey}
    (hepoch : c.consensus.epochForBlock block.header.number = some epoch) :
    key ∈ c.slashedSlots ((now, block), .ok result) ↔
      key = block.header.slotKey ∧ (c.enterEpoch epoch).Conflicts block.header := by
  rw [← stakeOf_observeBlock_lt_iff _ _ epoch]
  simp only [slashedSlots, hepoch]
  split
  · rename_i hless
    exact ⟨fun h => ⟨mem_singleton.1 h, hless⟩, fun h => mem_singleton.2 h.1⟩
  · rename_i hless
    exact ⟨fun h => absurd h not_mem_nil, fun h => absurd h.2 hless⟩

/-- What an import slashes for was not acted on before. -/
theorem unseen_of_mem_slashedSlots {result : Except ChainError ImportResult} {key : SlotKey}
    (h : key ∈ c.slashedSlots ((now, block), result)) : ¬ Seen c.state key := by
  cases hepoch : c.consensus.epochForBlock block.header.number with
  | none =>
    simp only [slashedSlots, hepoch] at h
    exact absurd h not_mem_nil
  | some epoch =>
    cases result with
    | error => exact absurd h not_mem_nil
    | ok =>
      obtain ⟨rfl, _, -, hslash⟩ := (mem_slashedSlots_iff hepoch).1 h
      intro hseen
      rw [Seen, ← (sameNotes_enterEpoch c epoch).seen,
        ← slotKey_eq_of_isValid _ hslash.valid] at hseen
      exact Bool.false_ne_true (hslash.unseen.symm.trans (seen_iff.1 hseen))

theorem nodup_slashedSlots (call : (UInt64 × Block) × Except ChainError ImportResult) :
    (c.slashedSlots call).Nodup := by
  unfold slashedSlots
  dsimp only
  split
  · split
    · exact nodup_singleton _
    · exact nodup_nil
  · exact nodup_nil

/-- What is acted on once an admitted block was noted. -/
theorem seen_noted_iff (c : Chain) (block : Block) (parent : BlockHeader) (epoch : Epoch)
    (key : SlotKey) :
    Seen (c.noted block.header parent epoch).state key ↔
    Seen c.state key ∨
      (key = block.header.slotKey ∧ (c.enterEpoch epoch).Conflicts block.header) := by
  have htracked :=
    (sameNotes_trackMissedSlots ((c.enterEpoch epoch).observeBlock block.header epoch)
      block.header parent).seen
  have hentered := (sameNotes_enterEpoch c epoch).seen
  rw [Seen, noted, htracked, ← Seen, seen_observeBlock_iff, Seen, hentered, ← Seen]

theorem blockCommitments_noted : (c.noted block.header parent epoch).state.blockCommitments =
    c.state.blockCommitments.insert block.header.slotKey block.header.hash := by
  rw [noted, (sameNotes_trackMissedSlots ..).commitments, blockCommitments_observeBlock,
    (sameNotes_enterEpoch ..).commitments]

variable [Wasm] [Environment] {result : Except ChainError ImportResult}

/-- An import acts on a slot exactly if it slashes for it, unless a transaction of the block is
about the slot. -/
theorem seen_import {key : SlotKey} (hplain : ∀ tx ∈ block.transactions, Unrelated key tx)
    (h : ImportOutcome now block none c result c') :
    (∀ other, Seen c.state other ∨ other ∈ c.slashedSlots ((now, block), result) →
      Seen c'.state other) ∧
      (Seen c'.state key → Seen c.state key ∨ key ∈ c.slashedSlots ((now, block), result)) := by
  cases h with
  | refused => exact ⟨fun _ h => h.resolve_right not_mem_nil, .inl⟩
  | @unverified _ epoch _ _ _ _ =>
    have hentered : Spares key c.state (c.enterEpoch epoch).state :=
      .of_sameSeen (sameNotes_enterEpoch ..).seen
    exact ⟨fun other h => hentered.kept other (h.resolve_right not_mem_nil),
      fun h => .inl (hentered.unmarked h)⟩
  | mismatched =>
    -- the evidence that was acted on is that of the snapshot
    exact ⟨fun _ h => h.resolve_right not_mem_nil, .inl⟩
  | @accepted parent epoch _ receipts executed hadm hrun _ =>
    have hstored :
        Spares key executed.state (executed.computeRoot.2.storeBlock block receipts).2.state :=
      .of_sameSeen (sameNotes_storeBlock executed.computeRoot.2 block receipts).seen
    have hexec := IsTrans.trans _ _ _ (spares_runBlock hadm hplain hrun) hstored
    have hnoted := seen_noted_iff c block parent epoch
    simp only [mem_slashedSlots_iff hadm.epoch_eq]
    exact ⟨fun other h => hexec.kept other ((hnoted other).2 h),
      fun h => (hnoted key).1 (hexec.unmarked h)⟩

end Imports

/-! ## What is known of blocks -/

/-- A chain has kept the headers of some blocks, and for those of a slot it has noted a block that
it has kept; this is the block itself, unless evidence was acted on. -/
structure Watched (key : SlotKey) (c : Chain) (blocks : List Block) : Prop where
  nodup : (blocks.map (·.header)).Nodup
  kept : ∀ block ∈ blocks, c.headers[block.header.hash]? = some block.header
  noted : ∀ block ∈ blocks, block.header.slotKey = key → ∃ prior : BlockHeader,
    c.state.blockCommitments[key]? = some prior.hash ∧ c.headers[prior.hash]? = some prior ∧
      prior.slotKey = key ∧ (prior = block.header ∨ Seen c.state key)

namespace Watched

variable {key : SlotKey} {c c' : Chain} {blocks : List Block} {block : Block}

theorem nil (key : SlotKey) (c : Chain) : Watched key c [] :=
  ⟨nodup_nil, fun _ h => absurd h not_mem_nil, fun _ h => absurd h not_mem_nil⟩

/-- A chain that notes no block for the slot and forgets nothing. -/
theorem of_same (h : Watched key c blocks) (hheaders : c'.headers = c.headers)
    (hcommitments : c'.state.blockCommitments[key]? = c.state.blockCommitments[key]?)
    (hseen : Seen c.state key → Seen c'.state key) : Watched key c' blocks := by
  refine ⟨h.nodup, fun block hmem => hheaders ▸ h.kept block hmem, fun block hmem hkey => ?_⟩
  obtain ⟨prior, hnoted, hkept, hprior, hcase⟩ := h.noted block hmem hkey
  exact ⟨prior, hcommitments.trans hnoted, hheaders ▸ hkept, hprior, hcase.imp_right hseen⟩

theorem left {blocks' : List Block} (h : Watched key c (blocks ++ blocks')) :
    Watched key c blocks := by
  refine ⟨?_, fun block hmem => h.kept block (mem_append_left _ hmem),
    fun block hmem => h.noted block (mem_append_left _ hmem)⟩
  have hnodup := h.nodup
  rw [map_append] at hnodup
  exact hnodup.of_append_left

/-- Two blocks for the slot have been acted on. -/
theorem seen (h : Watched key c blocks) {first second : Block} (hfirst : first ∈ blocks)
    (hsecond : second ∈ blocks) (hne : first ≠ second) (hkey : first.header.slotKey = key)
    (hkey' : second.header.slotKey = key) :
    Seen c.state key := by
  obtain ⟨_, hnoted, hkept, -, hcase⟩ := h.noted first hfirst hkey
  obtain ⟨_, hnoted', hkept', -, hcase'⟩ := h.noted second hsecond hkey'
  rw [hnoted] at hnoted'
  rw [← some.inj hnoted', hkept] at hkept'
  cases hkept'
  -- the noted block cannot be both of them
  rcases hcase with rfl | hseen
  · rcases hcase' with heq | hseen
    · exact absurd (inj_on_of_nodup_map h.nodup hfirst hsecond heq) hne
    · exact hseen
  · exact hseen

/-- A new block is noted, and if it is for the slot and another block was noted for it, that is
acted on. -/
theorem noted_new (h : Watched key c blocks) (hfresh : c.headers[block.header.hash]? = none)
    (hheaders : c'.headers = c.headers.insert block.header.hash block.header)
    (hcommitments : c'.state.blockCommitments = c.state.blockCommitments.insert block.header.slotKey
    block.header.hash) (hseen : Seen c.state key → Seen c'.state key)
    (hconflict : block.header.slotKey = key → ∀ prior : BlockHeader,
      c.state.blockCommitments[key]? = some prior.hash → c.headers[prior.hash]? = some prior →
        prior.slotKey = key → Seen c'.state key) : Watched key c' (blocks ++ [block]) := by
  have hold : ∀ {hash : H256} {header : BlockHeader}, c.headers[hash]? = some header →
      c'.headers[hash]? = some header := fun hget => hheaders ▸ getElem?_insert_of_fresh hfresh hget
  have hnew : c'.headers[block.header.hash]? = some block.header := hheaders ▸ getElem?_insert_self
  have hnote : c'.state.blockCommitments[block.header.slotKey]? = some block.header.hash :=
    hcommitments ▸ getElem?_insert_self
  constructor
  · rw [map_append, map_singleton]
    refine h.nodup.append (nodup_singleton _) ?_
    rintro _ hmem hlast
    obtain ⟨other, hother, rfl⟩ := mem_map.1 hmem
    have hkept := h.kept other hother
    rw [mem_singleton.1 hlast, hfresh] at hkept
    cases hkept
  · intro other hmem
    rcases mem_append.1 hmem with hmem | hmem
    · exact hold (h.kept other hmem)
    · rw [mem_singleton.1 hmem]
      exact hnew
  · intro other hmem hother
    rcases mem_append.1 hmem with hmem | hmem
    · obtain ⟨prior, hprior, hkept, hkey, hcase⟩ := h.noted other hmem hother
      by_cases hslot : block.header.slotKey = key
      · exact ⟨block.header, hslot ▸ hnote, hnew, hslot,
          .inr (hconflict hslot prior hprior hkept hkey)⟩
      · refine ⟨prior, ?_, hold hkept, hkey, hcase.imp_right hseen⟩
        rw [hcommitments, ExtTreeMap.getElem?_insert, if_neg]
        · exact hprior
        · exact fun heq => hslot (eq_of_compare heq)
    · obtain rfl := mem_singleton.1 hmem
      exact ⟨other.header, hother ▸ hnote, hnew, hother, .inl rfl⟩

end Watched

/-! ## Runs -/

section Runs

/-- The other block that was noted for the slot of a new one is its rival, and the two are acted
on. -/
theorem conflicts_of_noted {c : Chain} {header : BlockHeader}
    (hfresh : c.headers[header.hash]? = none)
    (hnoted : c.state.blockCommitments[header.slotKey]? = some prior.hash)
    (hkept : c.headers[prior.hash]? = some prior) (hkey : prior.slotKey = header.slotKey) :
    c.rival header = some prior ∧ isValid ⟨prior, header⟩ = true := by
  have hhash : prior.hash ≠ header.hash := fun heq => by rw [heq, hfresh] at hkept; cases hkept
  have hnoted' : c.state.blockCommitments[(header.validator, header.epoch, header.slot)]? =
    some prior.hash := hnoted
  constructor
  · rw [rival, conflicting, hnoted', filter_some, if_pos (decide_eq_true hhash)]
    exact hkept
  · have hbytes : prior.signableBytes ≠ header.signableBytes :=
      fun heq => hhash (congrArg blake3Hash heq)
    simp only [slotKey, Prod.mk.injEq] at hkey
    simp [isValid, hkey, hbytes]

variable [Wasm] [Environment]

/-- No transaction of a block submits evidence about a slot; and if the block is for the slot and
passes the checks, then it has the state root of its execution, and if it has a rival, the slash of
its validator does not round to nothing. -/
structure Punishable (key : SlotKey) (c : Chain) (call : UInt64 × Block) : Prop where
  plain : ∀ tx ∈ call.2.transactions, Unrelated key tx
  root : call.2.header.slotKey = key → ∀ parent epoch staked receipts executed,
    Admitted call.1 call.2 c parent epoch staked →
    (runBlock call.2 none staked).run (c.noted call.2.header parent epoch) =
      some (.ok receipts, executed) →
    call.2.header.stateRoot = executed.computeRoot.1
  worth : call.2.header.slotKey = key → ∀ parent epoch staked prior,
    Admitted call.1 call.2 c parent epoch staked →
    (c.enterEpoch epoch).rival call.2.header = some prior →
    (calculateDoubleSignSlash (stakeOf (c.enterEpoch epoch).state call.2.header.validator)
      (c.enterEpoch epoch).doubleSignBps).raw ≠ 0

/-- A call of `importBlock`, with its result and the slots that it slashes for. -/
structure PunishStep (c : Chain)
    (step : ((UInt64 × Block) × Except ChainError ImportResult) × List SlotKey) (c' : Chain) :
    Prop where
  call : ImportCall c step.1 c'
  slots : step.2 = c.slashedSlots step.1

/-- The blocks that have passed the checks, whatever became of them. -/
def passedBlocks
    (steps : List (((UInt64 × Block) × Except ChainError ImportResult) × List SlotKey)) :
    List Block :=
  (steps.filter fun step => executesBlock step.1.2).map (·.1.1.2)

section Steps

variable {key : SlotKey} {c c' : Chain} {blocks : List Block} {now : UInt64} {block : Block}
  {result : ImportResult}

/-- An accepted block is watched with the others. -/
theorem Watched.accepted (h : Watched key c blocks) (hcall : Punishable key c (now, block))
    (hout : ImportOutcome now block none c (.ok result) c') :
    Watched key c' (blocks ++ [block]) := by
  have hseen := (seen_import hcall.plain hout).1 key
  obtain ⟨parent, epoch, staked, _, hadm, hstored⟩ := hout.ok_stored
  have hfresh : c.headers[block.header.hash]? = none := (checkBlock_ok_iff.1 hadm.checked).fresh
  have hheaders : c'.headers = c.headers.insert block.header.hash block.header := by
    rw [hstored, storeBlock_eq]
    rfl
  have hentered := sameNotes_enterEpoch c epoch
  have hknown := headers_enterEpoch c epoch
  refine h.noted_new hfresh hheaders ?_ (fun hold => hseen (.inl hold)) ?_
  · cases hout with
    | accepted _ hrun =>
      rw [(sameNotes_storeBlock ..).commitments]
      exact (observed_runBlock hrun).1.trans blockCommitments_noted
  · rintro rfl prior hnoted hkept hkey
    rw [← hentered.commitments] at hnoted
    rw [← hknown] at hkept hfresh
    obtain ⟨hrival, hvalid⟩ := conflicts_of_noted hfresh hnoted hkept hkey
    by_cases hbefore : Seen c.state block.header.slotKey
    · exact hseen (.inl hbefore)
    · refine hseen
        (.inr ((mem_slashedSlots_iff hadm.epoch_eq).2 ⟨rfl, prior, hrival, hvalid, ?_, ?_⟩))
      · have hunseen : ¬ Seen (c.enterEpoch epoch).state prior.slotKey := by
          rwa [hkey, Seen, hentered.seen]
        exact Bool.eq_false_iff.2 fun heq => hunseen (seen_iff.2 heq)
      · have hvalidator : prior.validator = block.header.validator := congrArg (·.1) hkey
        have hworth := hcall.worth rfl parent epoch staked prior hadm hrival
        rwa [← hvalidator] at hworth

/-- A rollback does not restore the notes, so a block that is rolled back has left one for its own
slot. -/
theorem Watched.rolledBack (h : Watched key c blocks) (hne : block.header.slotKey ≠ key)
    {parent : BlockHeader} {epoch : Epoch} {staked : Amount} {receipts : List TransactionReceipt}
    {executed : Chain}
    (hrun : (runBlock block none staked).run (c.noted block.header parent epoch) =
      some (.ok receipts, executed)) :
    Watched key (executed.rolledBack c.state.snapshot c.validatorSet) blocks := by
  refine h.of_same ?_ ?_ id
  · rw [executed_moved hrun]
    rfl
  · have hnoted : executed.state.blockCommitments =
        c.state.blockCommitments.insert block.header.slotKey block.header.hash :=
      (observed_runBlock hrun).1.trans blockCommitments_noted
    show executed.state.blockCommitments[key]? = _
    rw [hnoted, ExtTreeMap.getElem?_insert, if_neg]
    exact fun heq => hne (eq_of_compare heq)

/-- The blocks for a slot that have passed. -/
def passedFor (key : SlotKey)
    (steps : List (((UInt64 × Block) × Except ChainError ImportResult) × List SlotKey)) :
    List Block :=
  (passedBlocks steps).filter (·.header.slotKey = key)

variable {step : ((UInt64 × Block) × Except ChainError ImportResult) × List SlotKey}

omit [Crypto] [Wasm] [Environment] in
theorem passedFor_of_error (h : executesBlock step.1.2 = false) : passedFor key [step] = [] := by
  simp [passedFor, passedBlocks, h]

omit [Crypto] [Wasm] [Environment] in
theorem passedFor_of_ne (h : step.1.1.2.header.slotKey ≠ key) : passedFor key [step] = [] := by
  cases hpassed : executesBlock step.1.2 with
  | false => exact passedFor_of_error hpassed
  | true => simp [passedFor, passedBlocks, hpassed, h]

omit [Crypto] [Wasm] [Environment] in
theorem passedFor_of_accepted {slots : List SlotKey} (h : block.header.slotKey = key) :
    passedFor key [(((now, block), .ok result), slots)] = [block] := by
  simp [passedFor, passedBlocks, executesBlock, h]

/-- A call of an import and the blocks that have passed. -/
theorem Watched.import_call (h : Watched key c blocks) (hcall : Punishable key c step.1.1)
    (hstep : PunishStep c step c') : Watched key c' (blocks ++ passedFor key [step]) := by
  obtain ⟨⟨⟨now, block⟩, result⟩, _⟩ := step
  have hout : ImportOutcome now block none c result c' := importBlockImpl_iff.1 hstep.call
  cases hout with
  | refused hcheck =>
    rw [passedFor_of_error (executesBlock_of_refused hcheck), append_nil]
    exact h
  | @unverified _ epoch _ _ _ _ =>
    rw [passedFor_of_error rfl, append_nil]
    have hnotes := sameNotes_enterEpoch c epoch
    exact h.of_same (headers_enterEpoch ..) (by rw [hnotes.commitments]) fun hseen => by
      rwa [Seen, hnotes.seen]
  | mismatched hadm hrun hroot =>
    -- a block for the slot would have had the right state root
    have hne : block.header.slotKey ≠ key := fun hkey => hroot (hcall.root hkey _ _ _ _ _ hadm hrun)
    rw [passedFor_of_ne hne, append_nil]
    exact h.rolledBack hne hrun
  | accepted hadm hrun hroot =>
    have hnext := h.accepted hcall (.accepted hadm hrun hroot)
    by_cases hkey : block.header.slotKey = key
    · rwa [passedFor_of_accepted hkey]
    · rw [passedFor_of_ne hkey, append_nil]
      exact hnext.left

/-- An import slashes for nothing that was acted on before. -/
theorem PunishStep.marksOnce (hplain : ∀ tx ∈ step.1.1.2.transactions, Unrelated key tx)
    (hstep : PunishStep c step c') : MarksOnce Seen c.state c'.state step.2 := by
  have hseen := (seen_import hplain (importBlockImpl_iff.1 hstep.call)).1
  rw [hstep.slots]
  exact ⟨nodup_slashedSlots .., fun _ => unseen_of_mem_slashedSlots,
    fun key h => hseen key (.inr h), fun key h => hseen key (.inl h)⟩

end Steps

variable {key : SlotKey} {c₀ c : Chain}
  {steps : List (((UInt64 × Block) × Except ChainError ImportResult) × List SlotKey)}

/-- The blocks for a slot that have passed are watched. -/
theorem watched_of_run
    (h : Run (Within (fun c step => Punishable key c step.1.1) PunishStep) c₀ steps c) :
    Watched key c (passedFor key steps) := by
  induction h with
  | nil => exact .nil key c₀
  | snoc _ hstep ih =>
    have hnext := ih.import_call hstep.1 hstep.2
    simpa only [passedFor, passedBlocks, ← map_append, ← filter_append] using hnext

/-- The slot is acted on by what the imports slash for only. -/
theorem slashed_of_run
    (h : Run (Within (fun c step => Punishable key c step.1.1) PunishStep) c₀ steps c) :
    MarksOnce Seen c₀.state c.state (steps.flatMap (·.2)) ∧
      (Seen c.state key → Seen c₀.state key ∨ key ∈ steps.flatMap (·.2)) := by
  induction h with
  | nil => exact ⟨.of_kept fun _ => id, .inl⟩
  | snoc _ hstep ih =>
    obtain ⟨hcall, hstep⟩ := hstep
    rw [flatMap_append, flatMap_singleton]
    refine ⟨ih.1.append (hstep.marksOnce hcall.plain), fun hseen => ?_⟩
    rcases (seen_import hcall.plain (importBlockImpl_iff.1 hstep.call)).2 hseen with hold | hnew
    · exact (ih.2 hold).imp_right (mem_append_left _)
    · exact .inr (mem_append_right _ (hstep.slots ▸ hnew))

/-- Evidence for a slot was acted on, by exactly one of the imports unless it was acted on before
them. -/
structure PunishedOnce (key : SlotKey) (c₀ : Chain) (slots : List SlotKey) (c : Chain) : Prop where
  seen : Seen c.state key
  once : ¬ Seen c₀.state key → slots.count key = 1
  before : Seen c₀.state key → slots.count key = 0

/-- Whatever else is imported, two different blocks of a validator for one slot that have passed the
checks are slashed for once. -/
theorem double_signing_punished {first second : Block}
    (h : Run (Within (fun c step => Punishable first.header.slotKey c step.1.1) PunishStep) c₀ steps
    c) (hfirst : first ∈ passedBlocks steps) (hsecond : second ∈ passedBlocks steps)
    (hne : first ≠ second) (hkey : first.header.slotKey = second.header.slotKey) :
    PunishedOnce first.header.slotKey c₀ (steps.flatMap (·.2)) c := by
  have hseen := (watched_of_run h).seen (mem_filter.2 ⟨hfirst, decide_eq_true rfl⟩)
    (mem_filter.2 ⟨hsecond, decide_eq_true hkey.symm⟩) hne rfl hkey.symm
  obtain ⟨hmarks, honly⟩ := slashed_of_run h
  refine ⟨hseen, fun hunseen => ?_, fun hbefore => ?_⟩
  · exact count_eq_one_of_mem hmarks.nodup ((honly hseen).resolve_left hunseen)
  · exact count_eq_zero.2 fun hmem => hmarks.fresh _ hmem hbefore

end Runs

end Chain

namespace Demo

open Chain

/-- A slash of the validator of a block would take something. -/
def worthy (c : Chain) (block : Block) : Bool :=
  (c.consensus.epochForBlock block.header.number).all fun epoch =>
    decide ((calculateDoubleSignSlash (stakeOf (c.enterEpoch epoch).state block.header.validator)
      (c.enterEpoch epoch).doubleSignBps).raw ≠ 0)

theorem punishStep_of_run {c c' : Chain} {now : UInt64} {block : Block}
    {r : Except ChainError ImportResult} (h : (importBlock now block).run c = some (r, c')) :
    PunishStep c (((now, block), r), c.slashedSlots ((now, block), r)) c' := ⟨h, rfl⟩

/-- The import of a block without transactions that is accepted meets the conditions. -/
theorem punishStep_of_accepted {c c' : Chain} {now : UInt64} {block : Block} {result : ImportResult}
    (h : (importBlock now block).run c = some (.ok result, c')) (hempty : block.transactions = [])
    (hworth : worthy c block = true) (key : SlotKey) :
    Within (fun c step => Punishable key c step.1.1) PunishStep c
      (((now, block), .ok result), c.slashedSlots ((now, block), .ok result)) c' := by
  refine ⟨⟨fun tx hmem => ?_, ?_, fun _ parent epoch staked prior hadm _ => ?_⟩, h, rfl⟩
  · rw [show (now, block).2.transactions = [] from hempty] at hmem
    exact absurd hmem not_mem_nil
  · intro _ _ _ _ _ _ hadm hrun
    have hout : ImportOutcome now block none c (.ok result) c' := importBlockImpl_iff.1 h
    cases hout with
    | accepted hadm' hrun' hroot =>
      obtain ⟨rfl, rfl, rfl⟩ := hadm.toEntry.unique hadm'.toEntry
      obtain ⟨-, rfl⟩ := Prod.mk.inj (some.inj (hrun.symm.trans hrun'))
      exact hroot
  · rw [worthy, hadm.epoch_eq] at hworth
    exact of_decide_eq_true hworth

/-- The first block and its sibling are for one slot, and the validator is slashed for them. -/
theorem siblings_punished : ∃ c₀ steps c first second,
    Run (Within (fun c step => Punishable first.header.slotKey c step.1.1) PunishStep) c₀ steps c ∧
      first ∈ passedBlocks steps ∧ second ∈ passedBlocks steps ∧ first ≠ second ∧
      first.header.slotKey = second.header.slotKey ∧
      PunishedOnce first.header.slotKey c₀ (steps.flatMap (·.2)) c := by
  obtain ⟨_, c₀, header, c₁, _, -, himport, hcheck⟩ := exists_grown (fun g => [firstBlock g])
    (fun c g c₁ => worthy c (firstBlock g) && worthy c₁ (siblingBlock g) &&
      (importAll 0 c₁ [siblingBlock g]).isSome && decide (firstBlock g ≠ siblingBlock g) &&
      decide ((firstBlock g).header.slotKey = (siblingBlock g).header.slotKey)) (by decide +kernel)
  simp only [Bool.and_eq_true, decide_eq_true_eq, Option.isSome_iff_exists] at hcheck
  obtain ⟨⟨⟨⟨hfirst, hsecond⟩, _, hsibling⟩, hne⟩, hkey⟩ := hcheck
  obtain ⟨_, _, hrun₁, hnil⟩ := importAll_cons himport
  cases hnil
  obtain ⟨_, _, hrun₂, hnil⟩ := importAll_cons hsibling
  cases hnil
  have hrun :=
    (Run.nil.snoc (punishStep_of_accepted hrun₁ rfl hfirst (firstBlock header).header.slotKey)).snoc
      (punishStep_of_accepted hrun₂ rfl hsecond _)
  exact ⟨c₀, _, _, firstBlock header, siblingBlock header, hrun, mem_cons_self,
    mem_cons_of_mem _ mem_cons_self, hne, hkey,
    double_signing_punished hrun mem_cons_self (mem_cons_of_mem _ mem_cons_self) hne hkey⟩

/-- A sibling of the first block with a wrong state root. -/
def misrootedBlock (genesis : BlockHeader) : Block := ⟨headerOn 10 genesis 3000 .zero, []⟩

/-- A second sibling of the first block, with the state root that it has without a slash. -/
def lateBlock (genesis : BlockHeader) : Block := ⟨headerOn 10 genesis 4000 secondRoot, []⟩

/-- Between two blocks for a slot that are both accepted, a third one has a wrong state root. Its
slash is undone, but not the note of it, and the chain has not kept its header: nobody is
slashed. -/
theorem misrooted_not_punished : ∃ genesis c₀ steps c first second, StartedFresh genesis c₀ ∧
    Run PunishStep c₀ steps c ∧ first ∈ passedBlocks steps ∧ second ∈ passedBlocks steps ∧
      first ≠ second ∧
      first.header.slotKey = second.header.slotKey ∧
      ¬ PunishedOnce first.header.slotKey c₀ (steps.flatMap (·.2)) c := by
  obtain ⟨genesis, c₀, header, c₁, h₀, -, himport, hcheck⟩ := exists_grown (fun g => [firstBlock g])
    (fun c g c₁ => decide (firstBlock g ≠ lateBlock g) &&
      decide ((firstBlock g).header.slotKey = (lateBlock g).header.slotKey) &&
      ((importBlock 0 (misrootedBlock g)).run c₁).any fun (_, c₂) =>
        (importAll 0 c₂ [lateBlock g]).any fun c₃ =>
          !c₃.state.slashingSeen.contains (firstBlock g).header.slotKey) (by decide +kernel)
  simp only [Bool.and_eq_true, decide_eq_true_eq, Option.any_eq_true, Bool.not_eq_true'] at hcheck
  obtain ⟨⟨hne, hkey⟩, ⟨_, _⟩, hrun₂, _, hlate, hunseen⟩ := hcheck
  obtain ⟨_, _, hrun₁, hnil⟩ := importAll_cons himport
  cases hnil
  obtain ⟨_, _, hrun₃, hnil⟩ := importAll_cons hlate
  cases hnil
  have hrun :=
    ((Run.nil.snoc (punishStep_of_run hrun₁)).snoc (punishStep_of_run hrun₂)).snoc
      (punishStep_of_run hrun₃)
  refine ⟨genesis, c₀, _, _, firstBlock header, lateBlock header, h₀, hrun, ?_, ?_, hne, hkey, ?_⟩
  · exact mem_cons_self
  · rw [passedBlocks, filter_append, map_append]
    exact mem_append_right _ mem_cons_self
  · intro h
    exact Bool.false_ne_true (hunseen.symm.trans (ExtTreeSet.mem_iff_contains.1 h.seen))

end Demo

end Vtt
