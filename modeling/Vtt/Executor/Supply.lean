import Vtt.Executor.Block
import Vtt.State.Kept

/-!
# What settlement counts

Executing transactions and running governance leave the supply counters alone. Settlement counts the
reward of the block, which is reckoned from the counters themselves, as minted, in thousandths of a
token.
-/

namespace Vtt.Executor

open Lib DbM
open Confined (run_bind_ok)

variable {ε : Type}

variable {producer : Address} {s t : StateDB}

/-- The reward of a block in thousandths of a token, as it is counted. -/
def rewardMilli (caches : StateSnapshot) (totalStaked : Amount) (epochLength : UInt64) : UInt64 :=
  U128.toU64 ((blockReward caches totalStaked epochLength).raw / milliToRaw)

/-- The reward depends on the counters only. -/
theorem blockReward_congr {s t : StateSnapshot} (hminted : t.totalMintedMilli = s.totalMintedMilli)
    (hburned : t.totalBurnedMilli = s.totalBurnedMilli) (totalStaked : Amount)
    (epochLength : UInt64) :
    blockReward t totalStaked epochLength = blockReward s totalStaked epochLength := by
  unfold blockReward
  rw [hminted, hburned]

/-- A reward that is paid is counted. -/
theorem minted_of_payReward {treasury : Address} {reward : Amount}
    (h : (payReward producer treasury reward : SettleM ε Unit).run s = some (.ok (), t)) :
    t.totalMintedMilli =
      U64.saturatingAdd s.totalMintedMilli (U128.toU64 (reward.raw / milliToRaw)) := by
  unfold payReward at h
  split at h
  · obtain ⟨_, _, hproducer, hrest⟩ := run_bind_ok h
    obtain ⟨_, s₂, htreasury, hmint⟩ := run_bind_ok hrest
    cases hmint
    have kept := (run_counters _ htreasury).1.trans (run_counters _ hproducer).1
    change U64.saturatingAdd s₂.totalMintedMilli _ = _
    rw [kept]
  · rename_i hzero
    cases h
    have nothing : reward.raw = 0 := by exact BitVec.eq_of_toNat_eq (Nat.eq_zero_of_not_pos hzero)
    rw [nothing]
    exact (U64.saturatingAdd_zero _).symm

/-- Paying fees mints nothing. -/
theorem minted_of_payFees {fees : Amount}
    (h : (payFees producer fees : SettleM ε Unit).run s = some (.ok (), t)) :
    t.totalMintedMilli = s.totalMintedMilli := by
  unfold payFees at h
  split at h
  · obtain ⟨_, _, hproducer, hburn⟩ := run_bind_ok h
    cases hburn
    exact (run_counters _ hproducer).1
  · cases h
    rfl

/-- Settlement counts the reward that the counters before it give. -/
theorem minted_of_settlement [Environment] {blockNumber gasUsed : UInt64} {gasConfig : GasConfig}
     {totalStaked : Amount} {params : ConsensusParams}
    {summary : BlockSettlementSummary}
    (h : (applyBlockRewardsAndGovernance blockNumber gasUsed gasConfig producer totalStaked params :
      SettleM ε _).run s = some (.ok summary, t)) :
    t.totalMintedMilli = U64.saturatingAdd s.totalMintedMilli
      (rewardMilli s.toStateSnapshot totalStaked params.epochLength) := by
  obtain ⟨_, _, hfinalize, hrest⟩ := run_bind_ok h
  obtain ⟨_, s₂, hexecute, hrest⟩ := run_bind_ok hrest
  obtain ⟨reward, s₃, hreward, hrest⟩ := run_bind_ok hrest
  obtain ⟨_, _, hpay, hrest⟩ := run_bind_ok hrest
  obtain ⟨_, _, hfees, hlast⟩ := run_bind_ok hrest
  cases hlast
  obtain ⟨rfl, rfl⟩ : blockReward s₂.toStateSnapshot totalStaked params.epochLength =
      reward ∧ s₂ = s₃ := by
    simpa [SettleM.cached] using Prod.mk.inj (Option.some.inj hreward)
  have finalized := run_counters _ hfinalize
  have executed := run_counters _ hexecute
  have same := blockReward_congr (executed.1.trans finalized.1) (executed.2.trans finalized.2)
    totalStaked params.epochLength
  rw [minted_of_payFees hfees, minted_of_payReward hpay, same, executed.1, finalized.1, rewardMilli]

end Vtt.Executor
