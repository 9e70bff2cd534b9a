import Vtt.Executor.Atomic
import Vtt.Lib.Sums

/-!
# What a slash reports

A slash returns the amount that was asked for, cut to the stake and the stake being withdrawn. What
it takes from the entries being withdrawn is rounded down for each of them, so that it can take less
than it returns, and it drops every entry without an amount, also those of other validators.
-/

namespace Vtt

open Lib List BitVec Nat

/-! ## Lists of entries -/

theorem sum_map_filter {α : Type} {p : α → Bool} {w : α → ℕ} (h : ∀ a, p a = false → w a = 0)
    (l : List α) :
    ((l.filter p).map w).sum = (l.map w).sum := by
  induction l with
  | nil => rfl
  | cons a _ ih =>
    rw [filter_cons, map_cons, sum_cons]
    split
    · rw [map_cons, sum_cons, ih]
    · rename_i hout
      rw [ih, h a (by simpa using hout), zero_add]

theorem sublistForall₂_filter_map {α : Type} {R : α → α → Prop} {f : α → α} (p : α → Bool)
    (h : ∀ a, R (f a) a) (l : List α) : List.SublistForall₂ R ((l.map f).filter p) l := by
  induction l with
  | nil => exact .nil
  | cons a _ ih =>
    rw [map_cons, filter_cons]
    split
    · exact .cons (h a) ih
    · exact .cons_right ih

namespace StateDB

/-- What an entry counts in the stake being withdrawn from a validator. -/
def entryOf (validator : Address) (e : UnbondingEntry) : ℕ :=
  if e.validator = validator then e.amount.raw.toNat else 0

/-- The stake being withdrawn from a validator. -/
def unbondingFrom (db : StateDB) (validator : Address) : ℕ :=
  sumOver db.unbondingEntries fun _ entries => (entries.map (entryOf validator)).sum

/-- The part of an amount in a slash of `rest` of everything pending, rounded down. -/
def entryShare (rest pending amount : ℕ) : ℕ :=
  min (min (amount * rest) (2 ^ 128 - 1) / pending) amount

/-- What the entries of a validator give to a slash. -/
def sharesFrom (db : StateDB) (validator : Address) (rest : ℕ) : ℕ :=
  sumOver db.unbondingEntries fun _ entries =>
    (entries.map fun e => entryShare rest (db.pendingUnbonding validator).toNat
      (entryOf validator e)).sum

theorem toNat_entrySlash {rest pending : U128} (h : pending ≠ 0) (e : UnbondingEntry) :
    (entrySlash rest pending e).toNat = entryShare rest.toNat pending.toNat e.amount.raw.toNat := by
  rw [entrySlash, U128.checkedDiv, if_neg h, Option.getD_some, U128.toNat_min, toNat_udiv,
    U128.toNat_saturatingMul]
  rfl

theorem entryShare_le (rest pending amount : ℕ) : entryShare rest pending amount ≤ amount :=
  min_le_right ..

/-- Nothing is withdrawn from the zero address as far as slashes go. -/
theorem pendingUnbonding_zero (db : StateDB) : db.pendingUnbonding .zero = 0 := by
  have none : ∀ l : List UnbondingEntry, (l.filterMap fun e =>
      if slashTarget .zero e then some e.amount.raw else none) = [] := by
    intro _
    refine filterMap_eq_nil_iff.2 fun e _ => if_neg ?_
    simp [slashTarget]
  rw [pendingUnbonding, none]
  rfl

section Slash

variable {validator : Address} {rest pending : U128}

theorem slashTarget_iff (h : validator ≠ .zero) (e : UnbondingEntry) :
    slashTarget validator e = true ↔ e.validator = validator := by
  simp only [slashTarget, Bool.and_eq_true, bne_iff_ne, beq_iff_eq, and_iff_right_iff_imp]
  rintro rfl
  exact h

/-- An entry gives its share if it is one of the validator. -/
theorem entryOf_slashEntry (h : validator ≠ .zero) (hpending : pending ≠ 0) (e : UnbondingEntry) :
    entryOf validator (slashEntry validator rest pending e) +
      entryShare rest.toNat pending.toNat (entryOf validator e) = entryOf validator e := by
  unfold slashEntry
  split
  · rename_i htarget
    have hvalidator := (slashTarget_iff h e).1 htarget
    have hle : (entrySlash rest pending e).toNat ≤ e.amount.raw.toNat := by
      rw [toNat_entrySlash hpending]
      exact entryShare_le ..
    rw [entryOf, if_pos hvalidator, entryOf, if_pos hvalidator, ← toNat_entrySlash hpending]
    rw [toNat_sub_of_le hle]
    omega
  · rename_i htarget
    have hother : e.validator ≠ validator := mt (slashTarget_iff h e).2 htarget
    simp [entryOf, hother, entryShare]

/-- The entries of the validator lose their shares. -/
theorem unbondingFrom_slashUnbondingEntries (s : StateDB) (h : validator ≠ .zero)
    (hpending : pending ≠ 0) :
    (s.slashUnbondingEntries validator rest pending).unbondingFrom validator +
      (sumOver s.unbondingEntries fun _ entries =>
        (entries.map fun e => entryShare rest.toNat pending.toNat (entryOf validator e)).sum) =
      s.unbondingFrom validator := by
  have dropped : ∀ e : UnbondingEntry, (!e.amount.isZero) = false → entryOf validator e = 0 := by
    intro e he
    have hzero : e.amount.raw = 0 := by simpa [Amount.isZero] using he
    simp [entryOf, hzero]
  have emptied : ∀ entries : List UnbondingEntry, (!entries.isEmpty) = false →
      (entries.map (entryOf validator)).sum = 0 := by
    intro entries hempty
    have hnil : entries = [] := by simpa using hempty
    rw [hnil]
    rfl
  unfold unbondingFrom slashUnbondingEntries
  rw [sumOver_filter_map _ fun _ entries => emptied _]
  unfold sumOver
  rw [← sum_map_add]
  congr 1
  refine map_congr_left fun o _ => ?_
  dsimp only
  rw [sum_map_filter dropped, map_map, ← sum_map_add]
  congr 1
  exact map_congr_left fun e _ => entryOf_slashEntry h hpending e

/-- The entries of an owner after a slash. -/
theorem getUnbondingEntries_slash (s : StateDB) (owner : Address) :
    (s.slashUnbondingEntries validator rest pending).getUnbondingEntries owner =
      ((s.getUnbondingEntries owner).map (slashEntry validator rest pending)).filter fun e =>
        !e.amount.isZero :=
  getD_filter_map s.unbondingEntries rfl

theorem validator_slashEntry (e : UnbondingEntry) :
    (slashEntry validator rest pending e).validator = e.validator := by
  unfold slashEntry
  split
  · rfl
  · rfl

/-- Entries of other validators stay, but not those without an amount. -/
theorem foreign_slash (h : validator ≠ .zero) (entries : List UnbondingEntry) :
    ((entries.map (slashEntry validator rest pending)).filter fun e => !e.amount.isZero).filter
        (fun e => e.validator ≠ validator) = entries.filter (fun e => e.validator ≠ validator) ↔
      ∀ e ∈ entries, e.validator ≠ validator → e.amount.isZero = false := by
  have untouched : (entries.map (slashEntry validator rest pending)).filter
      (fun e => e.validator ≠ validator) = entries.filter fun e => e.validator ≠ validator := by
    induction entries with
    | nil => rfl
    | cons e _ ih =>
      rw [map_cons, filter_cons, filter_cons, validator_slashEntry, ih]
      split
      · rename_i hforeign
        have same : slashEntry validator rest pending e = e :=
          if_neg (mt (slashTarget_iff h e).1 (of_decide_eq_true hforeign))
        rw [same]
      · rfl
  rw [filter_comm, untouched, filter_eq_self]
  simp

end Slash

end StateDB

namespace Executor

open StateDB

/-! ## What is reported -/

/-- An entry is another one with a part of its amount. -/
def Shrunk (e' e : UnbondingEntry) : Prop :=
  e'.amount.raw.toNat ≤ e.amount.raw.toNat ∧ e' = { e with amount := e'.amount }

/-- A slash took what it returned and no more than was asked for, no other account or entry has
changed, and no entry has become larger. -/
structure SlashReported (validator : Address) (amount : Amount) (before : StateDB) (taken : Amount)
    (after : StateDB) : Prop where
  reported : taken.raw.toNat =
      ((stakeOf before validator).raw.toNat - (stakeOf after validator).raw.toNat) +
      (before.unbondingFrom validator - after.unbondingFrom validator)
  bounded : taken.raw.toNat ≤ amount.raw.toNat
  accounts : ∀ address, address ≠ validator → after.getAccount address = before.getAccount address
  foreign : ∀ owner, (after.getUnbondingEntries owner).filter (fun e => e.validator ≠ validator) =
    (before.getUnbondingEntries owner).filter (fun e => e.validator ≠ validator)
  shrunk : ∀ owner,
    List.SublistForall₂ Shrunk (after.getUnbondingEntries owner) (before.getUnbondingEntries owner)

/-- What a slash asks for beyond the stake. -/
def beyondStake (db : StateDB) (validator : Address) (amount : Amount) : ℕ :=
  let stake := (stakeOf db validator).raw.toNat
  min amount.raw.toNat (min (stake + (db.pendingUnbonding validator).toNat) (2 ^ 128 - 1)) - stake

/-- The validator never staked, or the slash does not reach beyond the stake, or the shares of the
entries add up without a remainder and no entry of another validator is without an amount. -/
def SlashExact (db : StateDB) (validator : Address) (amount : Amount) : Prop :=
  (db.getAccount validator).staking = none ∨ beyondStake db validator amount = 0 ∨
    (db.sharesFrom validator (beyondStake db validator amount) = beyondStake db validator amount ∧
      ∀ owner, ∀ e ∈ db.getUnbondingEntries owner, e.validator ≠ validator →
      e.amount.isZero = false)

section

variable {db : StateDB} {validator : Address} {amount : Amount}

/-- A slash of a validator that stakes: it takes from the stake only, or everything there and the
rest from the entries. -/
theorem applySlash_of_staking (amount : Amount) {staking : StakingState}
    (h : (db.getAccount validator).staking = some staking) :
    (beyondStake db validator amount = 0 ∧ (db.applySlash validator amount).1.raw.toNat =
        min amount.raw.toNat (stakeOf db validator).raw.toNat ∧
      ((db.applySlash validator amount).2 = db ∨
        ∃ account, (db.applySlash validator amount).2 = db.putAccount validator account)) ∨
    (beyondStake db validator amount ≠ 0 ∧ db.pendingUnbonding validator ≠ 0 ∧
      (db.applySlash validator amount).1.raw.toNat =
        (stakeOf db validator).raw.toNat + beyondStake db validator amount ∧
      ∃ account, ∃ rest : U128, rest.toNat = beyondStake db validator amount ∧
          (db.applySlash validator amount).2 =
            (db.putAccount validator account).slashUnbondingEntries validator rest
              (db.pendingUnbonding validator)) := by
  have stake : stakeOf db validator = staking.totalStake := by simp [stakeOf, totalStakeOf, h]
  have hcombined := U128.toNat_saturatingAdd staking.totalStake.raw (db.pendingUnbonding validator)
  have hstake := staking.totalStake.raw.isLt
  have hpending := (db.pendingUnbonding validator).isLt
  unfold applySlash beyondStake
  rw [stake]
  simp only [h]
  split
  · rename_i hzero
    rw [hzero] at hcombined
    have nothing : staking.totalStake.raw.toNat = 0 ∧
        (db.pendingUnbonding validator).toNat = 0 := by
      change 0 = _ at hcombined
      omega
    refine .inl ⟨?_, ?_, .inl rfl⟩
    · omega
    · rw [nothing.1]
      exact (min_zero _).symm
  · have hrequested := U128.toNat_min amount.raw
      (U128.saturatingAdd staking.totalStake.raw (db.pendingUnbonding validator))
    rw [hcombined] at hrequested
    generalize U128.min amount.raw
      (U128.saturatingAdd staking.totalStake.raw (db.pendingUnbonding validator)) =
      requested at hrequested
    have hrest : (U128.saturatingSub requested (U128.min requested staking.totalStake.raw)).toNat =
        requested.toNat - staking.totalStake.raw.toNat := by
      rw [U128.toNat_saturatingSub, U128.toNat_min]
      omega
    rw [← hrequested]
    dsimp only
    split
    · rename_i hsplit
      have hpos := lt_def.1 hsplit.1
      refine .inr ⟨by omega, (pos_iff_ne_zero _).1 hsplit.2, by omega, _, _, hrest, rfl⟩
    · rename_i hsplit
      have hnone : requested.toNat - staking.totalStake.raw.toNat = 0 := by
        by_contra hne
        refine hsplit ⟨?_, ?_⟩
        · rw [lt_def, hrest]
          exact pos_of_ne_zero hne
        · rw [lt_def]
          show 0 < _
          omega
      exact .inl ⟨hnone, by omega, .inr ⟨_, rfl⟩⟩

/-- Whatever was taken is not more than was asked for. -/
theorem applySlash_le : (db.applySlash validator amount).1.raw.toNat ≤ amount.raw.toNat := by
  unfold applySlash
  dsimp only
  split
  · exact zero_le _
  · split
    · exact zero_le _
    · exact (U128.min_le ..).1

/-- The accounts of others are not touched. -/
theorem getAccount_applySlash {address : Address} (h : address ≠ validator) :
    (db.applySlash validator amount).2.getAccount address = db.getAccount address := by
  unfold applySlash
  dsimp only
  split
  · rfl
  · split
    · rfl
    · split
      · rw [getAccount_slashUnbondingEntries, getAccount_putAccount_of_ne _ h]
      · rw [getAccount_putAccount_of_ne _ h]

theorem shrunk_rfl (e : UnbondingEntry) : Shrunk e e := ⟨le_refl _, rfl⟩

theorem shrunk_slashEntry {rest pending : U128} (hpending : pending ≠ 0) (e : UnbondingEntry) :
    Shrunk (slashEntry validator rest pending e) e := by
  unfold slashEntry
  split
  · have hle : (entrySlash rest pending e).toNat ≤ e.amount.raw.toNat := by
      rw [toNat_entrySlash hpending]
      exact entryShare_le ..
    refine ⟨?_, rfl⟩
    rw [toNat_sub_of_le hle]
    exact sub_le ..
  · exact shrunk_rfl e

/-- What is left of the stake. -/
theorem toNat_stakeOf_applySlash (db : StateDB) (validator : Address) (amount : Amount) :
    (stakeOf (db.applySlash validator amount).2 validator).raw.toNat =
      (stakeOf db validator).raw.toNat - min amount.raw.toNat (stakeOf db validator).raw.toNat := by
  rw [stakeOf_applySlash]
  rw [toNat_sub_of_le (U128.min_le ..).2, U128.toNat_min]

end

/-- A slash takes what it returns exactly if it rounds nothing away and there is no empty entry to
drop. -/
theorem slashReported_iff (db : StateDB) (validator : Address) (amount : Amount) :
    SlashReported validator amount db (db.applySlash validator amount).1
      (db.applySlash validator amount).2 ↔
      SlashExact db validator amount := by
  have hstake := toNat_stakeOf_applySlash db validator amount
  -- what holds if no entry changes
  have kept : ∀ {t : StateDB}, t.unbondingEntries = db.unbondingEntries →
      (db.applySlash validator amount).2 = t → (db.applySlash validator amount).1.raw.toNat =
        min amount.raw.toNat (stakeOf db validator).raw.toNat →
      SlashReported validator amount db (db.applySlash validator amount).1 t := by
    intro t hentries ht htaken
    have hsame : ∀ owner, t.getUnbondingEntries owner = db.getUnbondingEntries owner := by
      intro owner
      rw [getUnbondingEntries, hentries, getUnbondingEntries]
    refine ⟨?_, applySlash_le, fun address h => ht ▸ getAccount_applySlash h,
      fun owner => by rw [hsame], fun owner => ?_⟩
    · rw [ht] at hstake
      rw [htaken, hstake, unbondingFrom, unbondingFrom, hentries]
      omega
    · rw [hsame]
      exact sublistForall₂_iff.2 ⟨_, forall₂_same.2 fun e _ => shrunk_rfl e, List.Sublist.refl _⟩
  cases hstaking : (db.getAccount validator).staking with
  | none =>
    have hnothing : db.applySlash validator amount = (.zero, db) := by
      simp only [applySlash, hstaking]
    have hzero : (stakeOf db validator).raw.toNat = 0 := by
      simp [stakeOf, totalStakeOf, hstaking, Amount.zero]
    refine iff_of_true ?_ (.inl hstaking)
    rw [hnothing] at kept ⊢
    exact kept rfl rfl (by rw [hzero, Nat.min_zero]; rfl)
  | some =>
    rcases applySlash_of_staking amount hstaking with
      ⟨hwithin, htaken, ht | ⟨account, ht⟩⟩ | ⟨hbeyond, hpending, htaken, account, rest, hrest, ht⟩
    iterate 2 exact iff_of_true (ht.symm ▸ kept rfl ht htaken) (.inr (.inl hwithin))
    · have hvalidator : validator ≠ .zero := by
        rintro rfl
        exact hpending db.pendingUnbonding_zero
      have hshares : (db.applySlash validator amount).2.unbondingFrom validator +
          db.sharesFrom validator (beyondStake db validator amount) =
          db.unbondingFrom validator := by
        rw [ht, ← hrest]
        exact unbondingFrom_slashUnbondingEntries (db.putAccount validator account)
          hvalidator hpending
      have hentries : ∀ owner, (db.applySlash validator amount).2.getUnbondingEntries owner =
          ((db.getUnbondingEntries owner).map
            (slashEntry validator rest (db.pendingUnbonding validator))).filter fun e =>
            !e.amount.isZero := by
        intro owner
        rw [ht, getUnbondingEntries_slash]
        rfl
      have hall : (stakeOf db validator).raw.toNat ≤ amount.raw.toNat := by
        unfold beyondStake at hbeyond
        dsimp only at hbeyond
        omega
      constructor
      · intro h
        refine .inr (.inr ⟨?_, fun owner => ?_⟩)
        · have hreported := h.reported
          omega
        · have hforeign := h.foreign owner
          rw [hentries] at hforeign
          exact (foreign_slash hvalidator _).1 hforeign
      · rintro (hnone | hwithin | ⟨_, hforeign⟩)
        · cases hstaking.symm.trans hnone
        · exact absurd hwithin hbeyond
        · refine ⟨by omega, applySlash_le, fun address h => getAccount_applySlash h,
            fun owner => ?_, fun owner => ?_⟩
          · rw [hentries]
            exact (foreign_slash hvalidator _).2 (hforeign owner)
          · rw [hentries]
            exact sublistForall₂_filter_map _ (shrunk_slashEntry hpending) _

end Executor

namespace Demo

open Executor

/-- A header for the first slot of the validator. -/
def slotHeader (timestamp : UInt64) : BlockHeader where
  version := 1
  chainId := ⟨1⟩
  number := 1
  parentHash := .zero
  transactionsRoot := .zero
  stateRoot := .zero
  receiptsRoot := .zero
  validator := key.address
  epoch := 0
  slot := 1
  timestamp
  gasLimit := 1000000
  gasUsed := 0
  crossChainRoot := none
  signature := .zero

/-- Two headers for one slot. -/
def doubleSigned : DoubleSignEvidence := ⟨slotHeader 2000, slotHeader 3000⟩

/-- A validator without stake from which one unit is being withdrawn three times. -/
def withdrawing : StateDB :=
  let entry : UnbondingEntry := { amount := ⟨1⟩, completionTime := 100, validator := key.address }
  let db := funded.putAccount key.address { AccountState.default with staking := some .default }
  ((db.addUnbondingEntry key.address entry).addUnbondingEntry key.address entry).addUnbondingEntry
    key.address entry

/-- A slash of two units returns two, and takes nothing of three entries of one unit. -/
theorem withdrawing_not_reported :
    ¬ SlashReported key.address ⟨2⟩ withdrawing (withdrawing.applySlash key.address ⟨2⟩).1
      (withdrawing.applySlash key.address ⟨2⟩).2 := by
  intro h
  have hreported := h.reported
  revert hreported
  decide +kernel

end Demo

end Vtt
