import Vtt.Dex.Pool

/-!
# Swaps, protocol fees and liquidity mining
-/

namespace Vtt

open Lib Confined

/-! ## Mining state -/

/-- A phase of a mining programme. -/
structure MiningPhase where
  durationEpochs : UInt64
  rewardPerEpoch : Amount
deriving DecidableEq

instance : Borsh MiningPhase :=
  .ofIso (fun p => (p.durationEpochs, p.rewardPerEpoch))
    (fun (durationEpochs, rewardPerEpoch) => ⟨durationEpochs, rewardPerEpoch⟩) (fun _ => rfl)

/-- A mining programme of a pool. -/
structure MiningConfig where
  poolId : H256
  totalBudget : Amount
  source : Address
  phases : List MiningPhase
deriving DecidableEq

instance : Borsh MiningConfig :=
  .ofIso (fun c => (c.poolId, c.totalBudget, c.source, c.phases))
    (fun (poolId, totalBudget, source, phases) => ⟨poolId, totalBudget, source, phases⟩)
    (fun _ => rfl)

/-- What an account has claimed. -/
structure MiningClaim where
  rewardDebt : U128
  unclaimed : U128
deriving DecidableEq

instance : Borsh MiningClaim :=
  .ofIso (fun c => (c.rewardDebt, c.unclaimed)) (fun (rewardDebt, unclaimed) =>
    ⟨rewardDebt, unclaimed⟩) (fun _ => rfl)

/-- A running mining programme. -/
structure MiningState where
  config : MiningConfig
  startEpoch : Epoch
  rewardPerLpAccumulated : U128
  lastUpdateEpoch : Epoch
  totalDistributed : Amount
  claims : FinMap Address MiningClaim

namespace MiningState

instance : Borsh MiningState :=
  .ofIso (fun s => (s.config, s.startEpoch, s.rewardPerLpAccumulated, s.lastUpdateEpoch,
    s.totalDistributed, s.claims))
      (fun (config, startEpoch, rewardPerLpAccumulated, lastUpdateEpoch, totalDistributed,
      claims) => ⟨config, startEpoch, rewardPerLpAccumulated, lastUpdateEpoch,
        totalDistributed, claims⟩)
    (fun _ => rfl)

/-- Scale of the accumulated rewards. -/
def precision : U128 := BitVec.ofNat 128 (10 ^ 18)

/-- The reward of the phase that an elapsed time falls into; phase boundaries wrap. -/
def phaseReward (elapsed : UInt64) : UInt64 → List MiningPhase → U128
  | _, [] => 0
  | boundary, phase :: rest =>
    let boundary := boundary + phase.durationEpochs
    if elapsed < boundary then phase.rewardPerEpoch.raw else phaseReward elapsed boundary rest

def rewardAtEpoch (s : MiningState) (epoch : Epoch) : U128 :=
  phaseReward (U64.saturatingSub epoch s.startEpoch) 0 s.config.phases

/-- A quotient, or a default if it does not fit. -/
def quotientOr (n : U256) (divisor fallback : U128) : U128 :=
  match n.divU128 divisor with
  | .ok q => q
  | .error _ => fallback

/-- Accumulate the reward of one epoch. -/
def accrueEpoch (lpTotalSupply : U128) (s : MiningState) (epoch : Epoch) : MiningState :=
  let reward := s.rewardAtEpoch epoch
  if 0 < reward ∧ 0 < lpTotalSupply then
    let delta := quotientOr (U256.mulU128 reward precision) lpTotalSupply 0
    { s with rewardPerLpAccumulated := U128.saturatingAdd s.rewardPerLpAccumulated delta }
  else s

/-- Accumulate the rewards up to an epoch. -/
def updateToEpoch (s : MiningState) (currentEpoch : Epoch) (lpTotalSupply : U128) : MiningState :=
  if currentEpoch ≤ s.lastUpdateEpoch ∨ lpTotalSupply = 0 then
    { s with lastUpdateEpoch := currentEpoch }
  else
    let epochs := (List.range (currentEpoch - s.lastUpdateEpoch).toNat).map fun i =>
      s.lastUpdateEpoch + 1 + UInt64.ofNat i
    { epochs.foldl (accrueEpoch lpTotalSupply) s with lastUpdateEpoch := currentEpoch }

/-- What a balance has earned since the start. -/
def totalEarned (s : MiningState) (userLpBalance : U128) : U128 :=
  quotientOr (U256.mulU128 userLpBalance s.rewardPerLpAccumulated) precision 0

def pendingRewards (s : MiningState) (userLpBalance : U128) (user : Address) : U128 :=
  let claim := (s.claims[user]?).getD ⟨0, 0⟩
  U128.saturatingSub (s.totalEarned userLpBalance) claim.rewardDebt + claim.unclaimed

/-- The rewards to pay to a user, and the programme with the claim noted. -/
def claim (s : MiningState) (userLpBalance : U128) (user : Address) : U128 × MiningState :=
  let pending := s.pendingRewards userLpBalance user
  (pending,
    { s with
      claims := s.claims.insert user ⟨s.totalEarned userLpBalance, 0⟩
      totalDistributed := ⟨U128.saturatingAdd s.totalDistributed.raw pending⟩ })

end MiningState

namespace Dex

variable [Crypto]

/-! ## Swaps -/

/-- Swap a token for the other token of a pool. -/
def executeSwap (sender : Address) (poolId tokenIn : H256) (amountIn minAmountOut : Amount) :
    DexM Amount := do
  requireNotPaused
  let pool ← loadPool poolId
  require (amountIn.raw ≠ 0) .zeroAmount
  require (tokenIn = pool.tokenA ∨ tokenIn = pool.tokenB) .invalidTokenPair
  let aToB := tokenIn = pool.tokenA
  let reserveIn := if aToB then pool.reserveA.raw else pool.reserveB.raw
  let reserveOut := if aToB then pool.reserveB.raw else pool.reserveA.raw
  let fees ← ofExcept (calculateFees amountIn.raw pool.feeBps pool.protocolFeeBps)
  let (amountInNet, lpFee, protocolFee) := fees
  let amountOut ← ofExcept (getAmountOut amountInNet reserveIn reserveOut)
  require (minAmountOut.raw ≤ amountOut) (.slippageExceeded minAmountOut.raw amountOut)
  require (amountOut ≠ 0) .zeroAmount
  transferTokenIn sender tokenIn amountIn
  transferTokenOut sender (if aToB then pool.tokenB else pool.tokenA) ⟨amountOut⟩
  let effectiveIn := amountInNet + lpFee
  savePool (if aToB then
      { pool with
        reserveA := ⟨pool.reserveA.raw + effectiveIn⟩
        reserveB := ⟨pool.reserveB.raw - amountOut⟩
        protocolFeesA := ⟨pool.protocolFeesA.raw + protocolFee⟩ }
    else
      { pool with
        reserveB := ⟨pool.reserveB.raw + effectiveIn⟩
        reserveA := ⟨pool.reserveA.raw - amountOut⟩
        protocolFeesB := ⟨pool.protocolFeesB.raw + protocolFee⟩ })
  pure ⟨amountOut⟩

/-! ## Protocol fees -/

/-- Pay out tokens, if there are any to pay. -/
def payOut (recipient : Address) (token : H256) (amount : Amount) : DexM Unit :=
  if 0 < amount.raw then transferTokenOut recipient token amount else pure ()

/-- Pay the protocol fees of a pool to the treasury, which must ask for them itself. -/
def claimProtocolFees (sender : Address) (poolId : H256) (treasury : Address) :
    DexM (Amount × Amount) := do
  require (sender = treasury) .notAuthorized
  let pool ← loadPool poolId
  require (pool.protocolFeesA.raw ≠ 0 ∨ pool.protocolFeesB.raw ≠ 0) .nothingToClaim
  payOut treasury pool.tokenA pool.protocolFeesA
  payOut treasury pool.tokenB pool.protocolFeesB
  savePool { pool with protocolFeesA := .zero, protocolFeesB := .zero }
  pure (pool.protocolFeesA, pool.protocolFeesB)

/-! ## Liquidity mining -/

/-- Pay a user's mining rewards; returns the reward and the programme after it. -/
def claimMiningRewards (sender : Address) (poolId : H256) (currentEpoch : Epoch)
    (mining : MiningState) : DexM (Amount × MiningState) := do
  let pool ← loadPool poolId
  let mining := mining.updateToEpoch currentEpoch pool.lpTotalSupply.raw
  let ownership ← Db.getOwnership pool.lpTokenId sender
  let userLp := ownership.available.raw
  require (userLp ≠ 0) .nothingToClaim
  let (reward, mining) := mining.claim userLp sender
  require (reward ≠ 0) .nothingToClaim
  (Db.subBalance mining.config.source ⟨reward⟩).mapError fun _ => .insufficientBalance
  (Db.addBalance sender ⟨reward⟩).mapError fun _ => .overflow
  pure (⟨reward⟩, mining)

end Dex

end Vtt
