import Vtt.Executor.SlashReport
import Vtt.Executor.StakeVotes

/-!
# The rate of a slash

A double-sign slash takes a share of the stake that the offender has at that moment. Submitted
evidence is slashed for at a fixed rate, evidence that the chain finds at the rate of the
parameters, so that the two agree only for the default rate or for stakes too small to tell.
-/

namespace Vtt

open Lib List Borsh

namespace Executor

open Confined StateDB

/-! ## Charging leaves the stakes alone -/

section Charge

variable (db : StateDB) (sender : Address) (fee : Amount)

@[simp] theorem slashingSeen_charge : (db.charge sender fee).slashingSeen = db.slashingSeen :=
  charge_induction _ _ _ rfl fun _ _ => id

@[simp] theorem unbondingEntries_charge : (db.charge sender fee).unbondingEntries =
    db.unbondingEntries :=
  charge_induction _ _ _ rfl fun _ _ => id

@[simp] theorem staking_charge (address : Address) :
    ((db.charge sender fee).getAccount address).staking = (db.getAccount address).staking := by
  by_cases h : address = sender
  · subst h
    unfold charge
    dsimp only
    split
    · simp only [getAccount_incrementNonce_self, getAccount_putAccount_self]
    · simp only [getAccount_incrementNonce_self]
  · rw [getAccount_charge_of_ne _ _ _ h]

theorem stakeOf_charge (address : Address) : stakeOf (db.charge sender fee) address =
    stakeOf db address := by
  rw [stakeOf, stakeOf, totalStakeOf, staking_charge, totalStakeOf]

end Charge

/-! ## The share of a stake -/

/-- A share of a stake in basis points, rounded down; the product wraps. -/
def shareOf (stake bps : ℕ) : ℕ := stake * bps % 2 ^ 128 / 10000

theorem toNat_calculateDoubleSignSlash (stake : Amount) (bps : UInt16) :
    (calculateDoubleSignSlash stake bps).raw.toNat = shareOf stake.raw.toNat bps.toNat := by
  rw [calculateDoubleSignSlash, slashShare, BitVec.toNat_udiv, BitVec.toNat_mul, U128.toNat_ofU16]
  rfl

theorem shareOf_le (stake : ℕ) {bps : ℕ} (h : bps ≤ 10000) : shareOf stake bps ≤ stake := by
  have hmod : stake * bps % 2 ^ 128 ≤ stake * 10000 :=
    (Nat.mod_le ..).trans (Nat.mul_le_mul_left _ h)
  calc stake * bps % 2 ^ 128 / 10000 ≤ stake * 10000 / 10000 := Nat.div_le_div_right hmod
    _ = stake := Nat.mul_div_cancel _ (by decide)

/-- What is left of the stake of an offender after a slash. -/
theorem toNat_stakeOf_slashFor (db : StateDB) (evidence : DoubleSignEvidence) (bps : UInt16) :
    (stakeOf (slashFor db evidence bps).2 evidence.offender).raw.toNat =
        (stakeOf db evidence.offender).raw.toNat -
          min (shareOf (stakeOf db evidence.offender).raw.toNat bps.toNat)
            (stakeOf db evidence.offender).raw.toNat := by
  rw [slashFor, toNat_stakeOf_applySlash, toNat_calculateDoubleSignSlash]

/-! ## The two rates -/

/-- What the stake of an address has lost. -/
def stakeLoss (before after : StateDB) (address : Address) : ℕ :=
  (stakeOf before address).raw.toNat - (stakeOf after address).raw.toNat

/-- The rate of the parameters: the one set by governance, or else the one of the consensus. -/
def effectiveDoubleSignBps (db : StateDB) (param : UInt16) : UInt16 :=
  db.getSlashDoubleSignBpsOverride.getD param

/-- Two ways to act on evidence take the same, and unless the evidence was acted on before, it is
the share at the rate of the parameters. -/
structure PenaltyUniform (db : StateDB) (evidence : DoubleSignEvidence) (param : UInt16)
    (submitted found : StateDB) : Prop where
  same : stakeLoss db submitted evidence.offender = stakeLoss db found evidence.offender
  rate : db.slashingEvidenceSeen evidence.offender evidence.headerA.epoch evidence.headerA.slot =
    false → stakeLoss db found evidence.offender =
      (stakeOf db evidence.offender).raw.toNat * (effectiveDoubleSignBps db param).toNat / 10000

/-- The rate takes no more than there is, without an overflow, and the fixed rate comes to the same
amount. -/
structure RateAgrees (stake bps : ℕ) : Prop where
  fits : stake * bps < 2 ^ 128
  within : stake * bps / 10000 ≤ stake
  fixed : shareOf stake 500 = stake * bps / 10000

/-- What an offender loses when evidence is acted on. -/
theorem ActedOn.stakeLoss {db db' : StateDB} {evidence : DoubleSignEvidence} {bps : UInt16}
    (h : ActedOn db evidence bps db') (hvalid : evidence.isValid = true)
    (hunseen : db.slashingEvidenceSeen evidence.offender evidence.headerA.epoch
      evidence.headerA.slot = false) :
    Executor.stakeLoss db db' evidence.offender =
      min (shareOf (stakeOf db evidence.offender).raw.toNat bps.toNat)
        (stakeOf db evidence.offender).raw.toNat := by
  rcases h with ⟨-, hsame⟩ | ⟨hna, rfl⟩
  · have hleft :
        stakeOf db' evidence.offender = stakeOf (slashFor db evidence bps).2 evidence.offender := by
      rw [stakeOf, hsame, stakeOf]
    rw [Executor.stakeLoss, hleft, toNat_stakeOf_slashFor]
    omega
  · -- without a stake there is nothing to lose
    have hzero : (stakeOf db' evidence.offender).raw.toNat = 0 := by
      by_contra hne
      exact hna ⟨hvalid, hunseen, fun h => hne (by rw [h]; rfl)⟩
    rw [Executor.stakeLoss, hzero]
    omega

section Uniform

variable [Crypto]

/-- The two ways to act on evidence take the same exactly if it was acted on before or the rates
agree. -/
theorem penaltyUniform_iff {db submitted : StateDB} {evidence : DoubleSignEvidence} {bytes : Bytes}
    {sender : Address} {number : UInt64} {r : Except ExecutionError (List Log)} (param : UInt16)
    (epoch : UInt64) (hvalid : evidence.isValid = true)
    (hdecode : tryFromSlice bytes = some evidence)
    (hrun : (executeSubmitSlashingEvidence sender bytes number).run db = some (r, submitted)) :
    PenaltyUniform db evidence param submitted
        (processSlashingEvidence db [evidence] (effectiveDoubleSignBps db param) epoch).2 ↔
      db.slashingEvidenceSeen evidence.offender evidence.headerA.epoch evidence.headerA.slot =
        true ∨
        RateAgrees (stakeOf db evidence.offender).raw.toNat
          (effectiveDoubleSignBps db param).toNat := by
  have hsubmit := submitSlashingEvidence_state hdecode hrun
  have hfound := processEvidence_state db evidence (effectiveDoubleSignBps db param) epoch
  have hone : (processSlashingEvidence db [evidence] (effectiveDoubleSignBps db param) epoch).2 =
      (processEvidence db evidence (effectiveDoubleSignBps db param) epoch).2 := rfl
  rw [hone]
  cases hseen :
    db.slashingEvidenceSeen evidence.offender evidence.headerA.epoch evidence.headerA.slot with
  | true =>
    refine iff_of_true ?_ (.inl rfl)
    have hna : ¬ Actionable db evidence := fun ha => Bool.false_ne_true (ha.unseen.symm.trans hseen)
    obtain rfl := (hsubmit.resolve_left fun h => hna h.1).2
    rw [(hfound.resolve_left fun h => hna h.1).2]
    exact ⟨rfl, fun h => absurd (hseen.symm.trans h) (by decide)⟩
  | false =>
    have hlossS := (submitSlashingEvidence_actedOn hdecode hrun).stakeLoss hvalid hseen
    have hlossF :=
      (processEvidence_actedOn db evidence (effectiveDoubleSignBps db param) epoch).stakeLoss hvalid
        hseen
    have hfixed : shareOf (stakeOf db evidence.offender).raw.toNat 500 ≤
        (stakeOf db evidence.offender).raw.toNat :=
      shareOf_le _ (by decide)
    rw [show (500 : UInt16).toNat = 500 from rfl, Nat.min_eq_left hfixed] at hlossS
    constructor
    · rintro ⟨hsame, hrate⟩
      have hrate := hrate hseen
      rw [hlossF] at hsame hrate
      have hfits :
          (stakeOf db evidence.offender).raw.toNat * (effectiveDoubleSignBps db param).toNat <
          2 ^ 128 := by
        unfold shareOf at hrate
        omega
      exact .inr ⟨hfits, by omega, by omega⟩
    · rintro (hno | ⟨hfits, hwithin, hagree⟩)
      · cases hno
      · have hshare :
            shareOf (stakeOf db evidence.offender).raw.toNat
            (effectiveDoubleSignBps db param).toNat =
              (stakeOf db evidence.offender).raw.toNat * (effectiveDoubleSignBps db param).toNat /
              10000 := by
          rw [shareOf, Nat.mod_eq_of_lt hfits]
        rw [hshare, Nat.min_eq_left hwithin] at hlossF
        exact ⟨by rw [hlossS, hlossF, hagree], fun _ => hlossF⟩

end Uniform

/-! ## Unstaking before a slash -/

/-- How many entries are being withdrawn from a validator. -/
def entriesFrom (db : StateDB) (validator : Address) : ℕ :=
  sumOver db.unbondingEntries fun _ entries => entries.countP fun e => e.validator = validator

/-- What a slash at a rate takes from the stake of a validator and from the stake being
withdrawn. -/
def slashRemoves (db : StateDB) (validator : Address) (bps : UInt16) : ℕ :=
  let after := (db.applySlash validator (calculateDoubleSignSlash (stakeOf db validator) bps)).2
  ((stakeOf db validator).raw.toNat + db.unbondingFrom validator) -
    ((stakeOf after validator).raw.toNat + after.unbondingFrom validator)

/-- A slash at a rate of the whole at most takes its share of the stake, and nothing of what is
being withdrawn. -/
theorem slashRemoves_eq {db : StateDB} {validator : Address} {bps : UInt16}
    (h : bps.toNat ≤ 10000) :
    slashRemoves db validator bps = shareOf (stakeOf db validator).raw.toNat bps.toNat := by
  have hle := shareOf_le (stakeOf db validator).raw.toNat h
  have hamount := toNat_calculateDoubleSignSlash (stakeOf db validator) bps
  have hleft :=
    toNat_stakeOf_applySlash db validator (calculateDoubleSignSlash (stakeOf db validator) bps)
  have hentries :
      (db.applySlash validator
      (calculateDoubleSignSlash (stakeOf db validator) bps)).2.unbondingEntries =
        db.unbondingEntries := by
    cases hstaking : (db.getAccount validator).staking with
    | none => simp only [applySlash, hstaking]
    | some =>
      rcases applySlash_of_staking
          (calculateDoubleSignSlash (stakeOf db validator) bps) hstaking with
        ⟨-, -, ht | ⟨_, ht⟩⟩ | ⟨hbeyond, -⟩
      · rw [ht]
      · rw [ht]
        rfl
      · refine absurd ?_ hbeyond
        rw [beyondStake, hamount]
        omega
  have hwithdrawn : (db.applySlash validator
      (calculateDoubleSignSlash (stakeOf db validator) bps)).2.unbondingFrom validator =
      db.unbondingFrom validator := by
    rw [unbondingFrom, hentries, unbondingFrom]
  rw [slashRemoves, hwithdrawn, hleft, hamount]
  omega

/-- An entry more is being withdrawn. -/
theorem entriesFrom_addUnbondingEntry (db : StateDB) (owner : Address) (entry : UnbondingEntry)
    (validator : Address) (h : entry.validator = validator) :
    entriesFrom (db.addUnbondingEntry owner entry) validator = entriesFrom db validator + 1 := by
  have hsum :=
    sumOver_insert_add db.unbondingEntries owner ((db.unbondingEntries[owner]?).getD [] ++ [entry])
      fun _ entries => entries.countP fun e => e.validator = validator
  have hcount :
      (((db.unbondingEntries[owner]?).getD [] ++ [entry]).countP fun e => e.validator = validator) =
      (db.unbondingEntries[owner]?).elim 0 (fun entries => entries.countP fun e =>
        e.validator = validator) + 1 := by
    rw [countP_append, countP_singleton, decide_eq_true h, if_pos rfl]
    cases db.unbondingEntries[owner]? with
    | none | some => rfl
  show sumOver (db.unbondingEntries.insert owner _) _ = sumOver db.unbondingEntries _ + 1
  omega

/-- What is unstaked leaves the stake and is being withdrawn. -/
theorem executeUnstake_ok {sender validator : Address} {amount : Amount} {timestamp : UInt64}
    {s t : StateDB}
    (h : (executeUnstake sender validator amount timestamp).run s = some (.ok (), t)) :
    (stakeOf t validator).raw.toNat + amount.raw.toNat = (stakeOf s validator).raw.toNat ∧
      entriesFrom t validator = entriesFrom s validator + 1 := by
  rw [executeUnstake, Db.getAccount, run_view_bind] at h
  obtain ⟨staking, hremove, h⟩ := ok_of_still (Routine.still_removeStake ..) h
  obtain ⟨_, htotal, h⟩ := ok_of_unwrap h
  cases h
  have hless := Amount.toNat_checkedSub htotal
  have hstake : ((s.getAccount validator).staking.getD .default).totalStake =
      stakeOf s validator := by
    unfold stakeOf totalStakeOf
    cases (s.getAccount validator).staking with
    | none | some => rfl
  rw [totalStake_of_removeStake hremove, hstake] at hless
  refine ⟨?_, entriesFrom_addUnbondingEntry _ _ _ _ rfl⟩
  rw [stakeOf, getAccount_addUnbondingEntry, getAccount_putAccount_self]
  exact hless

section Evasion

variable [Crypto] [Wasm] [Environment] {validator : Address} {s t : StateDB}

/-- A transaction unstakes an amount from a validator. -/
def UnstakeStep (validator : Address) (s : StateDB)
    (call : (BlockContext × SignedTransaction) × Amount) (t : StateDB) : Prop :=
  call.1.2.payload.action = .unstake validator call.2 ∧
    ∃ result, (executeTransactionAt call.1.1 call.1.2 : DbM Empty _).run s = some (.ok result, t) ∧
      result.receipt.success = true

/-- What the calls unstake together. -/
def unstaked (calls : List ((BlockContext × SignedTransaction) × Amount)) : ℕ :=
  (calls.map fun call => call.2.raw.toNat).sum

theorem UnstakeStep.moves {call : (BlockContext × SignedTransaction) × Amount}
    (h : UnstakeStep validator s call t) :
    (stakeOf t validator).raw.toNat + call.2.raw.toNat = (stakeOf s validator).raw.toNat ∧
      entriesFrom t validator = entriesFrom s validator + 1 := by
  obtain ⟨haction, _, hrun, hsuccess⟩ := h
  have houtcome := outcome_of_executed hrun
  cases houtcome with
  | inert | excessive | short | failed => cases hsuccess
  | done _ hop =>
    rw [operation, haction] at hop
    obtain ⟨_, _, hunstake, hevent⟩ := run_bind_ok hop
    obtain ⟨-, rfl⟩ := ok_of_pure hevent
    obtain ⟨hstake, hentries⟩ := executeUnstake_ok hunstake
    rw [stakeOf_charge] at hstake
    refine ⟨hstake, ?_⟩
    rw [hentries, entriesFrom, unbondingEntries_charge, entriesFrom]

/-- What is unstaked in a row leaves the stake, with an entry for each transaction. -/
theorem moves_of_unstakes {calls : List ((BlockContext × SignedTransaction) × Amount)}
    (h : Run (UnstakeStep validator) s calls t) :
    (stakeOf t validator).raw.toNat + unstaked calls = (stakeOf s validator).raw.toNat ∧
      entriesFrom t validator = entriesFrom s validator + calls.length := by
  induction h with
  | nil => exact ⟨rfl, rfl⟩
  | snoc _ hlast ih =>
    obtain ⟨_, _⟩ := hlast.moves
    rw [unstaked, map_append, sum_append, length_append]
    rw [unstaked] at ih
    simp only [map_cons, map_nil, sum_cons, sum_nil, length_singleton]
    omega

/-- A slash takes the same after the calls as before, up to a unit for each entry. -/
def NotEvaded (validator : Address) (bps : UInt16) (s t : StateDB) : Prop :=
  slashRemoves s validator bps ≤ slashRemoves t validator bps + entriesFrom t validator ∧
    slashRemoves t validator bps ≤ slashRemoves s validator bps + entriesFrom t validator

/-- Unstaking does not lower a slash exactly if the share of what is left is the share of all up to
the number of entries. -/
theorem notEvaded_iff {calls : List ((BlockContext × SignedTransaction) × Amount)} {bps : UInt16}
    (h : Run (UnstakeStep validator) s calls t) (hbps : bps.toNat ≤ 10000) :
    NotEvaded validator bps s t ↔ shareOf (stakeOf s validator).raw.toNat bps.toNat ≤
          shareOf ((stakeOf s validator).raw.toNat - unstaked calls) bps.toNat +
            (entriesFrom s validator + calls.length) ∧
        shareOf ((stakeOf s validator).raw.toNat - unstaked calls) bps.toNat ≤
          shareOf (stakeOf s validator).raw.toNat bps.toNat +
            (entriesFrom s validator + calls.length) := by
  obtain ⟨_, hentries⟩ := moves_of_unstakes h
  have hleft : (stakeOf t validator).raw.toNat = (stakeOf s validator).raw.toNat -
    unstaked calls := by omega
  rw [NotEvaded, slashRemoves_eq hbps, slashRemoves_eq hbps, hentries, hleft]

end Evasion

end Executor

namespace Demo

open Executor

theorem doubleSigned_decodes : tryFromSlice (serialize doubleSigned) = some doubleSigned :=
  tryFromSlice_serialize _ doubleSigned.fits

theorem doubleSigned_valid : doubleSigned.isValid = true := by decide +kernel

/-- Submitted evidence takes five percent where the parameters say ten. -/
theorem penalty_not_uniform : ∃ r t,
    (executeSubmitSlashingEvidence .zero (serialize doubleSigned) 1).run staked = some (r, t) ∧
      doubleSigned.isValid = true ∧
      ¬ PenaltyUniform staked doubleSigned 1000 t
        (processSlashingEvidence staked [doubleSigned]
          (effectiveDoubleSignBps staked 1000) 0).2 := by
  obtain ⟨r, t, hrun⟩ := run_submitSlashingEvidence .zero (serialize doubleSigned) 1 staked
  refine ⟨r, t, hrun, doubleSigned_valid, fun h => ?_⟩
  have hsame := h.same
  rw [(submitSlashingEvidence_actedOn doubleSigned_decodes hrun).stakeLoss doubleSigned_valid
    (by decide +kernel)] at hsame
  revert hsame
  decide +kernel

/-- At the default rate the penalties agree. -/
theorem default_penalty_uniform : ∃ r t,
    (executeSubmitSlashingEvidence .zero (serialize doubleSigned) 1).run staked = some (r, t) ∧
      doubleSigned.isValid = true ∧
      PenaltyUniform staked doubleSigned 500 t
        (processSlashingEvidence staked [doubleSigned]
          (effectiveDoubleSignBps staked 500) 0).2 := by
  obtain ⟨r, t, hrun⟩ := run_submitSlashingEvidence .zero (serialize doubleSigned) 1 staked
  refine ⟨r, t, hrun, doubleSigned_valid, ?_⟩
  exact (penaltyUniform_iff 500 0 doubleSigned_valid doubleSigned_decodes hrun).2
    (.inr ⟨by decide +kernel, by decide +kernel, by decide +kernel⟩)

/-- The validator unstakes four of its five tokens before it is slashed. -/
theorem unstaking_evades : ∃ calls t, Run (UnstakeStep key.address) staked calls t ∧
    ¬ NotEvaded key.address 500 staked t := by
  obtain ⟨result, t, hrun, hcheck⟩ :=
    exists_executed context (numbered 0 (.unstake key.address (.fromVtt 4))) staked
      (fun result t => result.receipt.success &&
      decide (slashRemoves t key.address 500 + entriesFrom t key.address <
        slashRemoves staked key.address 500))
    (by decide +kernel)
  rw [Bool.and_eq_true, decide_eq_true_eq] at hcheck
  have hstep :
    UnstakeStep key.address staked ((context, numbered 0 (.unstake key.address (.fromVtt 4))),
    .fromVtt 4) t := ⟨rfl, result, hrun, hcheck.1⟩
  exact ⟨_, t, Run.nil.snoc hstep, fun h => absurd h.1 (Nat.not_le.2 hcheck.2)⟩

/-- Unstaking twenty units makes no difference that counts. -/
theorem small_unstaking_not_evading : ∃ calls t, Run (UnstakeStep key.address) staked calls t ∧
    calls.length = 1 ∧ NotEvaded key.address 500 staked t := by
  obtain ⟨result, t, hrun, hcheck⟩ :=
    exists_executed context (numbered 0 (.unstake key.address ⟨20⟩)) staked
      (fun result _ => result.receipt.success) (by decide +kernel)
  have hstep :
      UnstakeStep key.address staked ((context, numbered 0 (.unstake key.address ⟨20⟩)), ⟨20⟩) t :=
    ⟨rfl, result, hrun, hcheck⟩
  have hrun' := Run.nil.snoc hstep
  exact ⟨_, t, hrun', rfl, (notEvaded_iff hrun' (by decide)).2 (by decide +kernel)⟩

end Demo

end Vtt
