import Vtt.Executor.Circulation
import Vtt.Executor.SlashRate
import Vtt.State.Payout

/-!
# The unbonding period

A stake that is withdrawn is released after the unbonding period, which governance may set to any
word of seconds. The period in milliseconds saturates, but the time of completion is a 64-bit sum
that wraps: with a period that is too long for it the entry is complete before it was made.
-/

namespace Vtt

open Lib

namespace Executor

open Confined StateDB

section Unstaking

variable {s t : StateDB} {sender validator : Address} {amount : Amount}

/-- The unbonding period of a state in milliseconds. -/
def unbondingPeriod (s : StateDB) : UInt64 :=
  s.effectiveUnbondingPeriodMs defaultUnbondingPeriodSecs

theorem unbondingPeriod_congr
    (h : t.getParamRaw "unbonding_period_secs" = s.getParamRaw "unbonding_period_secs") :
    unbondingPeriod t = unbondingPeriod s := by
  unfold unbondingPeriod effectiveUnbondingPeriodMs getUnbondingPeriodSecsOverride getParamNat
  rw [h]

/-- Unstaking adds an entry for the sender. -/
theorem entries_of_executeUnstake {timestamp : UInt64}
    (h : (executeUnstake sender validator amount timestamp).run s = some (.ok (), t)) :
    t.getUnbondingEntries sender = s.getUnbondingEntries sender ++
      [⟨amount, timestamp + unbondingPeriod s, validator⟩] := by
  rw [executeUnstake, Db.getAccount, run_view_bind] at h
  obtain ⟨_, -, h⟩ := ok_of_still (Routine.still_removeStake ..) h
  obtain ⟨_, -, h⟩ := ok_of_unwrap h
  cases h
  rw [getUnbondingEntries_addUnbondingEntry, if_pos rfl]
  exact congrArg
    (fun period => s.getUnbondingEntries sender ++ [⟨amount, timestamp + period, validator⟩])
    (unbondingPeriod_congr (read_note_putAccount s (.param "unbonding_period_secs") _ _))

/-- A sum that wraps is below the largest word. -/
theorem min_le_toNat_add_iff (a b : UInt64) :
    min (a.toNat + b.toNat) (2 ^ 64 - 1) ≤ (a + b).toNat ↔ a.toNat + b.toNat < 2 ^ 64 := by
  have ha := a.toNat_lt
  have hb := b.toNat_lt
  rw [UInt64.toNat_add]
  omega

end Unstaking

variable [Crypto] [Wasm] [Environment] {ε : Type} {ctx : BlockContext} {tx : SignedTransaction}
  {s t : StateDB} {result : ExecutionResult} {validator : Address} {amount : Amount}

/-- The entry of a stake that is withdrawn completes after the unbonding period, or at the end of
time if that is earlier, exactly if the sum fits a word. -/
theorem unbonding_respected_iff (haction : tx.payload.action = .unstake validator amount)
    (h : (executeTransactionAt ctx tx : DbM ε ExecutionResult).run s = some (.ok result, t))
    (hsuccess : result.receipt.success = true) :
    ∃ entry, t.getUnbondingEntries tx.sender = s.getUnbondingEntries tx.sender ++ [entry] ∧
      entry.amount = amount ∧ entry.validator = validator ∧
      (min (ctx.blockTimestamp.toNat + (unbondingPeriod s).toNat) (2 ^ 64 - 1) ≤
        entry.completionTime.toNat ↔
        ctx.blockTimestamp.toNat + (unbondingPeriod s).toNat < 2 ^ 64) := by
  have houtcome := outcome_of_executed h
  cases houtcome with
  | inert | excessive | short | failed => cases hsuccess
  | done _ hop =>
    rw [operation, haction] at hop
    obtain ⟨_, _, hunstake, hevent⟩ := run_bind_ok hop
    obtain ⟨-, rfl⟩ := ok_of_pure hevent
    have hentries := entries_of_executeUnstake hunstake
    have hperiod := unbondingPeriod_congr
      (read_note_charge s (.param "unbonding_period_secs") tx.sender (gasFee tx ctx.gasConfig))
    have hcharged : (s.charge tx.sender (gasFee tx ctx.gasConfig)).getUnbondingEntries tx.sender =
        s.getUnbondingEntries tx.sender := by
      unfold getUnbondingEntries
      rw [unbondingEntries_charge]
    rw [hperiod, hcharged] at hentries
    exact ⟨_, hentries, rfl, rfl, min_le_toNat_add_iff _ _⟩

end Executor

namespace Demo

open Executor

/-- The validator withdraws one of its five tokens. -/
def withdrawal : SignedTransaction := numbered 0 (.unstake key.address (.fromVtt 1))

/-- The built-in period is respected. -/
theorem withdrawal_respected : ∃ result t entry,
    (executeTransactionAt context withdrawal : DbM Empty _).run staked = some (.ok result, t) ∧
      result.receipt.success = true ∧
      t.getUnbondingEntries withdrawal.sender =
        staked.getUnbondingEntries withdrawal.sender ++ [entry] ∧
      min (context.blockTimestamp.toNat + (unbondingPeriod staked).toNat) (2 ^ 64 - 1) ≤
        entry.completionTime.toNat := by
  obtain ⟨result, t, hrun, hsuccess⟩ := exists_executed context withdrawal staked
    (fun result _ => result.receipt.success) (by decide +kernel)
  obtain ⟨entry, hentries, -, -, hiff⟩ := unbonding_respected_iff rfl hrun hsuccess
  exact ⟨result, t, entry, hrun, hsuccess, hentries, hiff.2 (by decide +kernel)⟩

/-- The longest period in seconds, as governance would set it. -/
def longestPeriod : String := "18446744073709551615"

/-- The validator with ten tokens and a stake, on a store. -/
def stakedOnStore : StateDB :=
  attached.putAccount key.address { AccountState.default with
    balance := .fromVtt 10
    staking := some
      { StakingState.default with totalStake := .fromVtt 5, selfStake := .fromVtt 5 } }

/-- Governance sets the period, and then a transaction is executed. -/
def afterChange (value : String) (tx : SignedTransaction) (db : StateDB) :
    Option (StateDB × Executor.ExecutionResult × StateDB) := do
  let _ ← ended ((validateParameterChange "unbonding_period_secs" value).run db)
  let s ← ended ((applyParameterChange "unbonding_period_secs" value : DbM Empty Unit).run db)
  match (executeTransactionAt context tx : DbM Empty _).run s with
  | some (.ok result, t) => some (s, result, t)
  | _ => none

theorem exists_of_afterChange {value : String} {tx : SignedTransaction} {db s t : StateDB}
    {result : Executor.ExecutionResult} (h : afterChange value tx db = some (s, result, t)) :
    (∃ x u, (validateParameterChange "unbonding_period_secs" value).run db = some (.ok x, u)) ∧
      (∃ x, (applyParameterChange "unbonding_period_secs" value : DbM Empty Unit).run db =
        some (.ok x, s)) ∧
      (executeTransactionAt context tx : DbM Empty _).run s = some (.ok result, t) := by
  obtain ⟨u, hvalid, h⟩ := Option.bind_eq_some_iff.1 h
  obtain ⟨_, happly, h⟩ := Option.bind_eq_some_iff.1 h
  obtain ⟨x, hvalid⟩ := exists_of_ended hvalid
  split at h
  · rename_i hrun
    cases h
    exact ⟨⟨x, u, hvalid⟩, exists_of_ended happly, hrun⟩
  · cases h

/-- After governance has set the longest period, the entry is complete before the block that makes
it. -/
theorem longest_period_not_respected : ∃ s result t entry,
    (∃ x u, (validateParameterChange "unbonding_period_secs" longestPeriod).run stakedOnStore =
      some (.ok x, u)) ∧
    (∃ x, (applyParameterChange "unbonding_period_secs" longestPeriod : DbM Empty Unit).run
      stakedOnStore = some (.ok x, s)) ∧
    (executeTransactionAt context withdrawal : DbM Empty _).run s = some (.ok result, t) ∧
    result.receipt.success = true ∧ withdrawal.payload.action = .unstake key.address (.fromVtt 1) ∧
    t.getUnbondingEntries withdrawal.sender = s.getUnbondingEntries withdrawal.sender ++ [entry] ∧
    entry.completionTime < context.blockTimestamp := by
  obtain ⟨⟨s, result, t⟩, hchange, hcheck⟩ :
      ∃ x, afterChange longestPeriod withdrawal stakedOnStore = some x ∧ (x.2.1.receipt.success &&
        (x.2.2.getUnbondingEntries withdrawal.sender == x.1.getUnbondingEntries withdrawal.sender ++
          [⟨.fromVtt 1, context.blockTimestamp - 1, key.address⟩])) = true :=
    (Option.any_eq_true ..).1 (by decide +kernel)
  obtain ⟨hvalid, happly, hrun⟩ := exists_of_afterChange hchange
  obtain ⟨hsuccess, hentries⟩ := Bool.and_eq_true_iff.1 hcheck
  exact ⟨s, result, t, _, hvalid, happly, hrun, hsuccess, rfl, beq_iff_eq.1 hentries, by decide⟩

end Demo

end Vtt
