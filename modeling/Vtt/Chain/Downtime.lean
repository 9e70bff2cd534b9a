import Mathlib.Data.UInt
import Vtt.Chain.Tree
import Vtt.Chain.Kept
import Vtt.Demo
import Vtt.State.Observation
import Vtt.State.Persist

/-!
# Downtime

The number of a block gives its epoch and its slot, and a block has the number after its parent's.
So a block has the slot after its parent's, or it is in another epoch: a chain never sees a slot
that was skipped, and nobody is slashed for downtime.
-/

namespace Vtt

open Lib Std Executor ConsensusEngine Option Nat

namespace Chain

/-- A header has the epoch and the slot of its number. -/
def Scheduled (e : ConsensusEngine) (header : BlockHeader) : Prop :=
  e.epochForBlock header.number = some header.epoch ∧
    e.slotForBlock header.number = some header.slot

section Slots

variable {e : ConsensusEngine} {header parent : BlockHeader}

theorem Scheduled.toNat (h : Scheduled e header) (hlength : e.params.epochLength < 2 ^ 32) :
    header.epoch.toNat = header.number.toNat / e.params.epochLength.toNat ∧
      header.slot.toNat = header.number.toNat % e.params.epochLength.toNat ∧
      header.slot.toNat + 1 < 2 ^ 32 := by
  have hbound : e.params.epochLength.toNat < 2 ^ 32 := hlength
  obtain ⟨hepoch, hslot⟩ := h
  unfold slotForBlock U64.checkedRem at hslot
  by_cases hzero : e.params.epochLength = 0
  · rw [if_pos hzero] at hslot
    cases hslot
  · have hpos : 0 < e.params.epochLength.toNat := pos_of_ne_zero fun h => hzero (UInt64.toNat.inj h)
    have hmod := mod_lt header.number.toNat hpos
    rw [if_neg hzero, map_some, some.injEq] at hslot
    rw [← hslot, UInt64.toNat_toUInt32, UInt64.toNat_mod]
    refine ⟨?_, mod_eq_of_lt (by omega), by omega⟩
    unfold epochForBlock U64.checkedDiv at hepoch
    split at hepoch
    · rename_i hnumber
      rw [← some.inj hepoch, hnumber]
      exact (Nat.zero_div _).symm
    · rw [← some.inj hepoch, UInt64.toNat_div]

/-- Within an epoch, no slot lies between those of a block and of its parent. -/
theorem Scheduled.slot_le (h : Scheduled e header) (hparent : Scheduled e parent)
    (hlength : e.params.epochLength < 2 ^ 32) (hnumber : header.number = parent.number + 1)
    (hepoch : header.epoch = parent.epoch) : header.slot ≤ parent.slot + 1 := by
  obtain ⟨hdiv, hmod, -⟩ := h.toNat hlength
  obtain ⟨hdiv', hmod', hbound⟩ := hparent.toNat hlength
  have hnext : header.number.toNat = (parent.number.toNat + 1) % 2 ^ 64 := by
    rw [hnumber, UInt64.toNat_add]; rfl
  have hsucc : (parent.slot + 1).toNat = parent.slot.toNat + 1 := by exact mod_eq_of_lt hbound
  have hparts := div_add_mod header.number.toNat e.params.epochLength.toNat
  have hparts' := div_add_mod parent.number.toNat e.params.epochLength.toNat
  rw [← hdiv, ← hmod, hepoch] at hparts
  rw [← hdiv', ← hmod'] at hparts'
  rw [UInt32.le_iff_toNat_le, hsucc]
  have hsize := parent.number.toNat_lt
  omega

theorem skippedLeaders_eq_nil (h : Scheduled e header) (hparent : Scheduled e parent)
    (hlength : e.params.epochLength < 2 ^ 32) (hnumber : header.number = parent.number + 1)
    (vs : ValidatorSet) :
    skippedLeaders vs header parent = [] :=
  if_neg fun hskips => UInt32.not_lt.2 (h.slot_le hparent hlength hnumber hskips.1) hskips.2

end Slots

/-! ## Imports -/

section Missed

variable {s : StateDB} (h : s.missedSlots = ∅)
include h

theorem takeMissedSlots_of_empty (epoch : UInt64) : (s.takeMissedSlotsForEpoch epoch).1 = [] ∧
    (s.takeMissedSlotsForEpoch epoch).2.missedSlots = ∅ := by
  unfold StateDB.takeMissedSlotsForEpoch
  rw [h]
  exact ⟨rfl, rfl⟩

/-- Where no slot was missed, nobody is slashed. -/
theorem closeEpoch_of_empty (params : ConsensusParams) (vs : ValidatorSet) :
    closeEpoch params vs s = (s.takeMissedSlotsForEpoch vs.epoch).2 := by
  unfold closeEpoch
  dsimp only
  rw [(takeMissedSlots_of_empty h vs.epoch).1]
  split
  · rfl
  · rfl

end Missed

/-- No slot was missed, and the headers have the epochs and the slots of their numbers. -/
structure Unmissed (c : Chain) : Prop where
  missed : c.state.missedSlots = ∅
  scheduled : ∀ (hash : H256) header, c.headers[hash]? = some header → Scheduled c.consensus header

section Imports

variable {c c' : Chain} {now : UInt64} {block : Block} {parent : BlockHeader} {epoch : Epoch}
  {staked : Amount}

theorem missedSlots_enterEpoch (h : c.state.missedSlots = ∅) (epoch : Epoch) :
    (c.enterEpoch epoch).state.missedSlots = ∅ := by
  unfold enterEpoch
  split
  · rw [closeEpoch_of_empty h]
    exact (takeMissedSlots_of_empty h _).2
  · exact h

variable [Crypto]

theorem Unmissed.skipped (h : Unmissed c) (hlength : c.consensus.params.epochLength < 2 ^ 32)
    (hadm : Admitted now block c parent epoch staked) (vs : ValidatorSet) :
    skippedLeaders vs block.header parent = [] := by
  obtain ⟨_, hverified⟩ := verifyHeader_ok_iff.1 hadm.verified
  exact skippedLeaders_eq_nil ⟨hverified.epoch, hverified.slot⟩
    (h.scheduled _ _ (checkBlock_ok_iff.1 hadm.checked).known) hlength hverified.number vs

theorem Unmissed.noted (h : Unmissed c) (hlength : c.consensus.params.epochLength < 2 ^ 32)
    (hadm : Admitted now block c parent epoch staked) :
    (c.noted block.header parent epoch).state.missedSlots = ∅ := by
  have hentered := missedSlots_enterEpoch h.missed epoch
  have hobserved : ((c.enterEpoch epoch).observeBlock block.header epoch).state.missedSlots =
      ∅ := by
    unfold observeBlock
    dsimp only
    split
    · exact hentered
    · exact (observed_of_linked ((linked_observing _).processSlashingEvidence ..)).2.trans hentered
  rw [Chain.noted, trackMissedSlots, h.skipped hlength hadm]
  exact hobserved

/-- A chain that was started on a genesis has missed nothing. -/
theorem StartedFresh.unmissed {genesis : Block} (h : StartedFresh genesis c)
    (hlength : 0 < c.consensus.params.epochLength) : Unmissed c := by
  cases h with
  | @start config _ _ _ c₀ _ _ hbuild hopened hhead hrun =>
    obtain ⟨adopted, hadopted, rfl⟩ := initGenesis_fresh hhead hrun
    obtain ⟨initial, hsetup, rfl, rfl⟩ := Genesis.exists_setupState hbuild
    have hinitial : initial.missedSlots = ∅ :=
      (SettleM.run_observed (.lift (Genesis.setupState config)) hsetup).2
    refine ⟨?_, fun hash header hget => ?_⟩
    · have hmissed : adopted.missedSlots = ∅ := by
        split at hadopted
        · obtain ⟨_, -, hattached⟩ := bind_eq_some_iff.1 hadopted
          obtain ⟨_, storage, rfl, -⟩ := StateDB.exists_attached hattached
          exact hinitial
        · cases hadopted
          exact hinitial
      obtain ⟨_, hstate⟩ := (c₀.withState adopted).exists_persist_state (writeGenesis · _)
      rw [hstate]
      exact hmissed
    · replace hget : (c₀.headers.insert _ _)[hash]? = some header := hget
      rw [get_insert, (hopened.empty hhead).1] at hget
      split at hget
      · cases hget
        refine ⟨rfl, ?_⟩
        unfold slotForBlock U64.checkedRem
        rw [if_neg (UInt64.ne_of_lt hlength).symm]
        exact congrArg (fun n : UInt64 => some n.toUInt32) UInt64.zero_mod
      · cases hget

variable [Wasm] [Environment] {provided : Option (List TransactionReceipt)}
  {result : Except ChainError ImportResult}

/-- An import records no missed slot. -/
theorem Unmissed.import (h : Unmissed c) (hlength : c.consensus.params.epochLength < 2 ^ 32)
    (hout : ImportOutcome now block provided c result c') :
    Unmissed c' ∧ c'.consensus = c.consensus := by
  have hexecuted {parent epoch staked receipts executed}
      (hadm : Admitted now block c parent epoch staked)
        (hrun : (runBlock block provided staked).run (c.noted block.header parent epoch) =
        some (.ok receipts, executed)) : executed.state.missedSlots = ∅ := by
    obtain ⟨_, -, ⟨-, rfl⟩ | ⟨-, _, rfl, hexec⟩⟩ := runBlock_ok hrun
    · exact h.noted hlength hadm
    · exact (SettleM.run_observed _ hexec).2.trans (h.noted hlength hadm)
  cases hout with
  | refused => exact ⟨h, rfl⟩
  | unverified =>
    rw [enterEpoch_moved]
    exact ⟨⟨missedSlots_enterEpoch h.missed _, h.scheduled⟩, rfl⟩
  | mismatched hadm hrun =>
    have hmissed := hexecuted hadm hrun
    rw [executed_moved hrun] at hmissed ⊢
    exact ⟨⟨hmissed, h.scheduled⟩, rfl⟩
  | @accepted _ _ _ receipts executed hadm hrun =>
    have hmissed := hexecuted hadm hrun
    obtain ⟨_, hstate⟩ := exists_storeBlock_state executed.computeRoot.2 block receipts
    refine ⟨⟨?_, fun hash header hget => ?_⟩, ?_⟩
    · rw [hstate]
      exact hmissed
    · obtain ⟨_, hverified⟩ := verifyHeader_ok_iff.1 hadm.verified
      rw [storeBlock_eq, executed_moved hrun] at hget ⊢
      rw [get_insert] at hget
      split at hget
      · cases hget
        exact ⟨hverified.epoch, hverified.slot⟩
      · exact h.scheduled _ _ hget
    · rw [storeBlock_eq, executed_moved hrun]
      rfl

/-- A call of `importBlock`, or of `importProducedBlock` with the receipts of a block. -/
def AnyImport (c : Chain) (call : (UInt64 × Block) × Option (List TransactionReceipt))
    (c' : Chain) : Prop :=
  ∃ result, (call.2.elim (importBlock call.1.1 call.1.2)
    (importProducedBlock call.1.1 call.1.2)).run c = some (result, c')

theorem AnyImport.outcome {call : (UInt64 × Block) × Option (List TransactionReceipt)}
    (h : AnyImport c call c') :
    ∃ result, ImportOutcome call.1.1 call.1.2 call.2 c result c' := by
  obtain ⟨call, provided⟩ := call
  obtain ⟨result, hrun⟩ := h
  cases provided with
  | none | some => exact ⟨result, importBlockImpl_iff.1 hrun⟩

/-- Whatever is imported after the genesis: no slot is recorded as missed, none is taken at the end
of an epoch, so that nobody is slashed for downtime, and none was skipped before a block that is
admitted next. -/
theorem downtime_never_recorded {genesis : Block} {c₀ c : Chain}
    {calls : List ((UInt64 × Block) × Option (List TransactionReceipt))}
    (hstart : StartedFresh genesis c₀) (hpos : 0 < c₀.consensus.params.epochLength)
    (hlength : c₀.consensus.params.epochLength < 2 ^ 32) (h : Run AnyImport c₀ calls c) :
    c.state.missedSlots = ∅ ∧ (∀ epoch, (c.state.takeMissedSlotsForEpoch epoch).1 = []) ∧
      (∀ params vs, closeEpoch params vs c.state = (c.state.takeMissedSlotsForEpoch vs.epoch).2) ∧
      ∀ now block parent epoch staked vs, Admitted now block c parent epoch staked →
        skippedLeaders vs block.header parent = [] := by
  have hreached : Unmissed c ∧ c.consensus = c₀.consensus := by
    induction h with
    | nil => exact ⟨hstart.unmissed hpos, rfl⟩
    | snoc _ hstep ih =>
      obtain ⟨hbefore, hsame⟩ := ih
      obtain ⟨_, hrun⟩ := hstep.outcome
      obtain ⟨hafter, hkept⟩ := hbefore.import (hsame ▸ hlength) hrun
      exact ⟨hafter, hkept.trans hsame⟩
  obtain ⟨hc, hsame⟩ := hreached
  exact ⟨hc.missed, fun epoch => (takeMissedSlots_of_empty hc.missed epoch).1,
    closeEpoch_of_empty hc.missed, fun _ _ _ _ _ vs hadm => hc.skipped (hsame ▸ hlength) hadm vs⟩

end Imports

end Chain

namespace Demo

open Chain

/-- The first block is imported, and no slot was missed. -/
theorem firstBlock_misses_nothing : ∃ genesis c₀ calls c, StartedFresh genesis c₀ ∧
    0 < c₀.consensus.params.epochLength ∧ c₀.consensus.params.epochLength < 2 ^ 32 ∧
    Run AnyImport c₀ calls c ∧ calls.length = 1 ∧ c.state.missedSlots = ∅ := by
  obtain ⟨genesis, c₀, header, c, h₀, -, himport, hcheck⟩ := exists_grown (fun g => [firstBlock g])
    (fun c _ _ => decide (0 < c.consensus.params.epochLength ∧
    c.consensus.params.epochLength < 2 ^ 32))
    (by decide +kernel)
  obtain ⟨hpos, hlength⟩ := of_decide_eq_true hcheck
  obtain ⟨_, _, hfirst, hnil⟩ := importAll_cons himport
  cases hnil
  have hrun : Run AnyImport c₀ [((0, firstBlock header), none)] c := .snoc .nil ⟨_, hfirst⟩
  exact ⟨genesis, c₀, _, c, h₀, hpos, hlength, hrun, rfl,
    (downtime_never_recorded h₀ hpos hlength hrun).1⟩

end Demo

end Vtt
