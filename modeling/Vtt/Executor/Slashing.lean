import Vtt.Executor.Accounts
import Vtt.State.Accounts

/-!
# What a slash takes

Evidence of double signing is slashed for if it is valid, was not seen before and the slash does not
round to nothing; the signatures of the two headers are not part of that. This holds of the
transaction that submits evidence and of the evidence that the chain finds itself.
-/

namespace Vtt

open Lib Confined StateDB U128 Borsh

/-! ## Stakes -/

namespace Executor

variable {bps : UInt16} {bytes : Bytes} {db' : StateDB} {evidence : DoubleSignEvidence}
  {r : Except ExecutionError (List Log)}

variable {sender : Address} {number : UInt64}

/-- The stake of a validator. -/
def stakeOf (db : StateDB) (validator : Address) : Amount := totalStakeOf (db.getAccount validator)

/-- The stake of some validator is less than it was. -/
def StakeReduced (before after : StateDB) : Prop :=
  ∃ validator, stakeOf after validator < stakeOf before validator

theorem not_stakeReduced_of_getAccount {s t : StateDB}
    (h : ∀ address, t.getAccount address = s.getAccount address) :
    ¬ StakeReduced s t := by
  rintro ⟨validator, hlt⟩
  rw [stakeOf, h validator] at hlt
  exact absurd hlt (BitVec.lt_irrefl _)

theorem le_saturatingAdd (total pending : U128) : total ≤ saturatingAdd total pending := by
  unfold saturatingAdd checkedAdd
  split
  · rename_i hfits
    rw [BitVec.le_def, Option.getD_some, BitVec.toNat_add, Nat.mod_eq_of_lt hfits]
    exact Nat.le_add_right _ _
  · exact Nat.le_sub_one_of_lt total.isLt

/-- What is taken from the stake does not depend on the stake that is being withdrawn. -/
theorem min_saturatingAdd (amount total pending : U128) :
    min (min amount (saturatingAdd total pending)) total = min amount total := by
  have hle := le_saturatingAdd total pending
  unfold U128.min
  split
  · rfl
  · rename_i hgt
    split
    · rename_i hge
      rw [if_neg (fun h => hgt (BitVec.le_trans h hle))]
      exact BitVec.le_antisymm hge hle
    · rw [if_neg (fun h => hgt (BitVec.le_trans h hle))]

/-- From nothing, nothing is taken. -/
theorem sub_min_zero (amount : U128) : (0 : U128) - min amount 0 = 0 := by
  have min_zero : min amount 0 = 0 := by
    unfold U128.min
    split
    · exact BitVec.le_zero_iff.1 ‹_›
    · rfl
  rw [min_zero]
  rfl

variable (db : StateDB) {validator other : Address} (amount : Amount)

/-- A slash takes the amount, or all the stake there is. -/
theorem stakeOf_applySlash : stakeOf (db.applySlash validator amount).2 validator =
      ⟨(stakeOf db validator).raw - min amount.raw (stakeOf db validator).raw⟩ := by
  unfold applySlash
  dsimp only
  cases hstaking : (db.getAccount validator).staking with
  | none =>
    have none : stakeOf db validator = ⟨0⟩ := by simp [stakeOf, totalStakeOf, hstaking, Amount.zero]
    rw [none, sub_min_zero, ← none]
  | some staking =>
    have stake : stakeOf db validator = staking.totalStake := by
      simp [stakeOf, totalStakeOf, hstaking]
    dsimp only
    split
    · -- there is neither stake nor stake being withdrawn
      rename_i hzero
      have none : staking.totalStake.raw = 0 := by
        have hle := le_saturatingAdd staking.totalStake.raw (db.pendingUnbonding validator)
        rw [hzero] at hle
        exact BitVec.le_zero_iff.1 hle
      rw [stake, none, sub_min_zero, ← none]
    · rw [min_saturatingAdd, stake]
      split
      · simp [stakeOf, totalStakeOf]
      · simp [stakeOf, totalStakeOf]

/-- A slash takes nothing from other validators. -/
theorem stakeOf_applySlash_of_ne (h : other ≠ validator) :
    stakeOf (db.applySlash validator amount).2 other = stakeOf db other := by
  unfold applySlash
  dsimp only
  split
  · rfl
  · split
    · rfl
    · split
      · rw [stakeOf, getAccount_slashUnbondingEntries, getAccount_putAccount_of_ne _ h, stakeOf]
      · rw [stakeOf, getAccount_putAccount_of_ne _ h, stakeOf]

/-- A slash reduces a stake if there is something to take and a stake to take it from. -/
theorem stakeReduced_applySlash_iff : StakeReduced db (db.applySlash validator amount).2 ↔
      amount.raw ≠ 0 ∧ (stakeOf db validator).raw ≠ 0 := by
  constructor
  · rintro ⟨other, hlt⟩
    by_cases h : other = validator
    · subst h
      rw [stakeOf_applySlash] at hlt
      have hlt : (stakeOf db other).raw - min amount.raw (stakeOf db other).raw <
        (stakeOf db other).raw := hlt
      refine ⟨fun hzero => ?_, fun hzero => ?_⟩
      · have min_zero : min 0 (stakeOf db other).raw = 0 := if_pos (BitVec.le_def.2 (Nat.zero_le _))
        rw [hzero, min_zero] at hlt
        simp at hlt
      · rw [hzero] at hlt
        exact BitVec.not_lt_zero hlt
    · rw [stakeOf_applySlash_of_ne db amount h] at hlt
      exact absurd hlt (BitVec.lt_irrefl _)
  · rintro ⟨_, _⟩
    refine ⟨validator, ?_⟩
    rw [stakeOf_applySlash]
    show (stakeOf db validator).raw - min amount.raw (stakeOf db validator).raw <
      (stakeOf db validator).raw
    unfold U128.min
    split
    · bv_omega
    · bv_omega

/-! ## Evidence -/

/-- Evidence is slashed for: it is valid, it was not seen before, and the slash is not zero. -/
structure Slashable (db : StateDB) (evidence : DoubleSignEvidence) (bps : UInt16) : Prop where
  valid : evidence.isValid = true
  unseen : db.slashingEvidenceSeen evidence.offender evidence.headerA.epoch evidence.headerA.slot =
    false
  nonzero : (calculateDoubleSignSlash (stakeOf db evidence.offender) bps).raw ≠ 0

theorem Slashable.stake (h : Slashable db evidence bps) :
    (stakeOf db evidence.offender).raw ≠ 0 := by
  intro hzero
  apply h.nonzero
  simp [calculateDoubleSignSlash, slashShare, hzero]

theorem stakeReduced_congr {s t t' : StateDB}
    (h : ∀ address, t'.getAccount address = t.getAccount address) :
    StakeReduced s t' ↔ StakeReduced s t := by
  simp only [StakeReduced, stakeOf, h]

variable [Crypto]

/-- Submitting evidence does not abort. -/
theorem run_submitSlashingEvidence (sender : Address) (bytes : Bytes) (number : UInt64)
    (db : StateDB) :
    ∃ r db', (executeSubmitSlashingEvidence sender bytes number).run db = some (r, db') := by
  unfold executeSubmitSlashingEvidence
  cases (tryFromSlice bytes : Option DoubleSignEvidence) with
  | none => exact ⟨_, _, rfl⟩
  | some =>
    rw [run_okOr_some_bind, run_require_bind]
    split
    · dsimp only
      rw [Db.slashingEvidenceSeen, run_view_bind, run_require_bind]
      split
      · rw [Db.getAccount, run_view_bind, run_require_bind]
        split
        · exact ⟨_, _, rfl⟩
        · exact ⟨_, _, rfl⟩
      · exact ⟨_, _, rfl⟩
    · exact ⟨_, _, rfl⟩

/-- Evidence is acted on: it is valid, was not seen before, and the offender has a stake. -/
structure Actionable (db : StateDB) (evidence : DoubleSignEvidence) : Prop where
  valid : evidence.isValid = true
  unseen : db.slashingEvidenceSeen evidence.offender evidence.headerA.epoch evidence.headerA.slot =
    false
  stake : (stakeOf db evidence.offender).raw ≠ 0

omit [Crypto] in
theorem Slashable.actionable {db : StateDB} (h : Slashable db evidence bps) :
    Actionable db evidence :=
  ⟨h.valid, h.unseen, h.stake db⟩

/-- The slash for evidence at a rate. -/
def slashFor (db : StateDB) (evidence : DoubleSignEvidence) (bps : UInt16) : Amount × StateDB :=
  db.applySlash evidence.offender (calculateDoubleSignSlash (stakeOf db evidence.offender) bps)

/-- The state after a slash for evidence was recorded. -/
def slashNoted (db : StateDB) (evidence : DoubleSignEvidence) (bps : UInt16) (epoch : UInt64) :
    StateDB :=
  ((slashFor db evidence bps).2.recordSlash evidence.offender epoch "double_sign"
    (slashFor db evidence bps).1).markSlashingEvidence evidence.offender evidence.headerA.epoch
    evidence.headerA.slot

/-- Submitted evidence is acted on, or nothing happens. -/
theorem submitSlashingEvidence_state (hdecode : tryFromSlice bytes = some evidence) {db : StateDB}
    (h : (executeSubmitSlashingEvidence sender bytes number).run db = some (r, db')) :
    (Actionable db evidence ∧ db' = slashNoted db evidence 500 evidence.headerA.epoch) ∨
      (¬ Actionable db evidence ∧ db' = db) := by
  simp only [executeSubmitSlashingEvidence, hdecode, run_okOr_some_bind, run_require_bind] at h
  split at h
  · rename_i hvalid
    rw [Db.slashingEvidenceSeen, run_view_bind, run_require_bind] at h
    split at h
    · rename_i hunseen
      rw [Db.getAccount, run_view_bind, run_require_bind] at h
      split at h
      · rename_i hstake
        simp only [Db.applySlash, run_act_bind, Db.recordSlash, Db.markSlashingEvidence,
          run_update_bind, run_pure, Option.some.injEq, Prod.mk.injEq] at h
        exact .inl ⟨⟨hvalid, by
          simpa using hunseen, by simpa [Amount.isZero, stakeOf] using hstake⟩, h.2.symm⟩
      · rename_i hstake
        cases h
        exact .inr ⟨fun ha => ha.stake (by simpa [Amount.isZero, stakeOf] using hstake), rfl⟩
    · rename_i hseen
      cases h
      exact .inr ⟨fun ha => hseen (by simp [ha.unseen]), rfl⟩
  · rename_i hinvalid
    cases h
    exact .inr ⟨fun ha => hinvalid ha.valid, rfl⟩

omit [Crypto] in
/-- Evidence that the chain finds itself is acted on, and noted if something was taken, or nothing
happens. -/
theorem processEvidence_state (db : StateDB) (evidence : DoubleSignEvidence) (bps : UInt16)
    (epoch : UInt64) :
    (Actionable db evidence ∧ (processEvidence db evidence bps epoch).2 =
      if (slashFor db evidence bps).1.isZero then (slashFor db evidence bps).2
      else slashNoted db evidence bps epoch) ∨
    (¬ Actionable db evidence ∧ (processEvidence db evidence bps epoch).2 = db) := by
  unfold processEvidence
  dsimp only
  split
  · rename_i hskip
    refine .inr ⟨fun ha => ?_, rfl⟩
    have hstake : (totalStakeOf (db.getAccount evidence.offender)).raw ≠ 0 := ha.stake
    exact hstake (by simpa [ha.valid, ha.unseen, Amount.isZero] using hskip)
  · rename_i hskip
    simp only [Bool.or_eq_true, not_or, Bool.not_eq_true] at hskip
    refine .inl ⟨⟨by simpa using hskip.1.1, hskip.1.2, by simpa [Amount.isZero,
      stakeOf] using hskip.2⟩, ?_⟩
    split
    · rename_i hzero
      exact (if_pos hzero).symm
    · rename_i hzero
      exact (if_neg hzero).symm

omit [Crypto] in
@[simp] theorem getAccount_slashNoted (db : StateDB) (epoch : UInt64) (address : Address) :
    (slashNoted db evidence bps epoch).getAccount address =
      (slashFor db evidence bps).2.getAccount address := by
  rw [slashNoted, getAccount_markSlashingEvidence, getAccount_recordSlash]

/-- The accounts are those after the slash for evidence, or nothing happened if it is not acted
on. -/
def ActedOn (db : StateDB) (evidence : DoubleSignEvidence) (bps : UInt16) (db' : StateDB) : Prop :=
  (Actionable db evidence ∧ ∀ address, db'.getAccount address =
    (slashFor db evidence bps).2.getAccount address) ∨ (¬ Actionable db evidence ∧ db' = db)

theorem submitSlashingEvidence_actedOn (hdecode : tryFromSlice bytes = some evidence) {db : StateDB}
    (h : (executeSubmitSlashingEvidence sender bytes number).run db = some (r, db')) :
    ActedOn db evidence 500 db' := by
  rcases submitSlashingEvidence_state hdecode h with ⟨ha, rfl⟩ | hna
  · exact .inl ⟨ha, fun address => getAccount_slashNoted ..⟩
  · exact .inr hna

omit [Crypto] in
theorem processEvidence_actedOn (db : StateDB) (evidence : DoubleSignEvidence) (bps : UInt16)
    (epoch : UInt64) :
    ActedOn db evidence bps (processEvidence db evidence bps epoch).2 := by
  rcases processEvidence_state db evidence bps epoch with ⟨ha, heq⟩ | hna
  · refine .inl ⟨ha, fun address => ?_⟩
    rw [heq]
    split
    · rfl
    · exact getAccount_slashNoted ..
  · exact .inr hna

omit [Crypto] in
theorem ActedOn.stakeReduced_iff {db : StateDB} (h : ActedOn db evidence bps db') :
    StakeReduced db db' ↔ Slashable db evidence bps := by
  rcases h with ⟨ha, hsame⟩ | ⟨hna, rfl⟩
  · rw [stakeReduced_congr hsame, slashFor, stakeReduced_applySlash_iff]
    exact ⟨fun hs => ⟨ha.valid, ha.unseen, hs.1⟩, fun hs => ⟨hs.nonzero, hs.stake⟩⟩
  · exact iff_of_false (not_stakeReduced_of_getAccount fun _ => rfl) fun hs => hna hs.actionable

/-- Submitting evidence reduces a stake exactly if the evidence is slashed for. -/
theorem submitSlashingEvidence_reduces_iff (hdecode : tryFromSlice bytes = some evidence)
    (sender : Address) (number : UInt64) {db : StateDB}
    (h : (executeSubmitSlashingEvidence sender bytes number).run db = some (r, db')) :
    StakeReduced db db' ↔ Slashable db evidence 500 :=
  (submitSlashingEvidence_actedOn hdecode h).stakeReduced_iff

omit [Crypto] in
/-- Evidence that the chain finds itself reduces a stake under the same conditions. -/
theorem processEvidence_reduces_iff (db : StateDB) (epoch : UInt64) :
    StakeReduced db (processEvidence db evidence bps epoch).2 ↔ Slashable db evidence bps :=
  (processEvidence_actedOn db evidence bps epoch).stakeReduced_iff

end Executor

end Vtt
