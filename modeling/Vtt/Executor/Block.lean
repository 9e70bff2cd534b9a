import Vtt.Executor.Accounts
import Vtt.Executor.Assets
import Vtt.Executor.Proposals
import Vtt.Executor.Services

/-!
# Transactions, blocks and settlement

A transaction that fails is rolled back, but keeps its fee and its nonce. A block is executed
transaction by transaction until its gas limit is reached, after the matured unbonding entries were
released. Settlement then runs governance and pays the reward and the fees.
-/

namespace Vtt.Executor

open Lib
open Borsh (serialize)
open U128 (ofU64 toU64)

/-- The gas cost of an operation; sums and products wrap. -/
def calculateGasCost (action : TransactionAction) (config : GasConfig) : UInt64 :=
  match action with
  | .transfer .. => config.baseTransferCost
  | .stake .. => config.baseTransferCost * 2
  | .unstake .. => config.baseTransferCost * 2
  | .governanceVote .. => config.baseTransferCost
  | .deployContract code _ =>
    config.baseTransferCost + UInt64.ofNat code.length * config.costPerByte
  | .callContract _ _ args _ =>
    config.baseTransferCost + UInt64.ofNat args.length * config.costPerByte
  | .createAssetClass .. => config.baseTransferCost * 5
  | .assetTransfer .. => config.baseTransferCost * 2
  | .crossChainTransfer .. => config.baseTransferCost * 3
  | .createPool .. => 50000
  | .addLiquidity .. => 30000
  | .removeLiquidity .. => 30000
  | .swap .. => 25000
  | .claimRevenue .. => 10000
  | .claimMiningRewards .. => 10000
  | .distributeRevenue .. => 50000
  | .proposeAssetAction .. => 100000
  | .voteAssetProposal .. => 30000
  | .finalizeAssetProposal .. => 100000
  | .bridgeWithdraw .. => 50000
  | .governancePropose .. => 100000
  | .freezeAsset .. => 30000
  | .unfreezeAsset .. => 30000
  | .submitSlashingEvidence .. => 150000
  | .bridgeDeposit .. => 80000
  | .fundRedemptionPool .. => 50000
  | .claimRedemption .. => 80000
  | .setKycApproval .. => 30000
  | .setAddressJurisdiction .. => 30000
  | .createOracleFeed .. => 80000
  | .submitOracleValue .. => 40000

/-- The epoch that the exchange reckons with. -/
def dexEpoch {ε : Type} (blockNumber : UInt64) : DbM ε Epoch := do
  let epochLength ← Db.getEpochLength
  pure ((U64.checkedDiv blockNumber epochLength).getD 0)

variable [Crypto] [Wasm] [Environment]

/-- Pay a user's mining rewards from the mining state of a pool. -/
def executeClaimMiningRewards (sender : Address) (poolId : H256) (blockNumber : UInt64) :
    ExecM (List Log) := do
  let currentEpoch ← dexEpoch blockNumber
  let stored ← Db.getMiningStateRaw poolId
  let stored ← Confined.okOr stored (.custom "mining not active for this pool")
  let mining : MiningState ←
    Confined.okOr (Borsh.tryFromSlice stored) (.custom "corrupt mining state")
  let claimed ← onDex (Dex.claimMiningRewards sender poolId currentEpoch mining)
  Db.putMiningStateRaw poolId (serialize claimed.2)
  pure [event sender "ClaimMiningRewards" [poolId] (serialize claimed.1.raw)]

/-- Execute the operation of a transaction. -/
def executeAction (sender : Address) (action : TransactionAction)
    (blockNumber blockTimestamp nonce gasLimit : UInt64) : ExecM (List Log) :=
  match action with
  | .transfer recipient amount => do
    onState (Db.transfer sender recipient amount)
    pure [event sender "Transfer" [] (serialize (sender, recipient, amount))]
  | .stake validator amount => do
    executeStake sender validator amount
    pure [event sender "Stake" [] (serialize (sender, validator, amount))]
  | .unstake validator amount => do
    executeUnstake sender validator amount blockTimestamp
    pure [event sender "Unstake" [] (serialize (sender, validator, amount))]
  | .governanceVote proposalId vote => executeGovernanceVote sender proposalId vote blockNumber
  | .deployContract code _ => executeDeployContract sender code
  | .callContract contract method args value =>
    executeCallContract sender contract method args value blockNumber blockTimestamp gasLimit
  | .createAssetClass name symbol metadataUri totalSupply decimals assetClass jurisdiction
      legalEntity => do
    executeCreateAsset sender name symbol metadataUri totalSupply decimals assetClass jurisdiction
      legalEntity blockNumber
    pure [event sender "CreateAssetClass" [] (serialize (sender, name, symbol))]
  | .assetTransfer assetId recipient amount => executeAssetTransfer sender assetId recipient amount
  | .crossChainTransfer destinationChain _ _ =>
    Confined.fail (.custom ("cross-chain routing to " ++ toString destinationChain.id ++
      " is not yet live; the app-chain is registered but the relayer is not active"))
  | .createPool tokenA tokenB amountA amountB => do
    let currentEpoch ← dexEpoch blockNumber
    let pool ← onDex (Dex.createPool sender tokenA tokenB amountA amountB currentEpoch)
    pure [event sender "CreatePool" [pool.poolId] (serialize pool.poolId)]
  | .addLiquidity poolId amountA amountB minLp => do
    let minted ← onDex (Dex.addLiquidity sender poolId amountA amountB minLp)
    pure [event sender "AddLiquidity" [poolId] (serialize minted.raw)]
  | .removeLiquidity poolId lpAmount minA minB => do
    let out ← onDex (Dex.removeLiquidity sender poolId lpAmount minA minB)
    pure [event sender "RemoveLiquidity" [poolId] (serialize (out.1.raw, out.2.raw))]
  | .swap poolId tokenIn amountIn minAmountOut => do
    let out ← onDex (Dex.executeSwap sender poolId tokenIn amountIn minAmountOut)
    pure [event sender "Swap" [poolId] (serialize out.raw)]
  | .claimRevenue poolId => do
    let treasury ← Db.getTreasuryAddress
    let fees ← onDex (Dex.claimProtocolFees sender poolId treasury)
    pure [event sender "ClaimRevenue" [poolId] (serialize (fees.1.raw, fees.2.raw))]
  | .claimMiningRewards poolId => executeClaimMiningRewards sender poolId blockNumber
  | .distributeRevenue assetId totalAmount => executeDistributeRevenue sender assetId totalAmount
  | .proposeAssetAction assetId action description =>
    executeProposeAssetAction sender assetId action description blockNumber nonce
  | .voteAssetProposal proposalId vote =>
    executeVoteAssetProposal sender proposalId vote blockNumber
  | .finalizeAssetProposal proposalId => executeFinalizeAssetProposal sender proposalId blockNumber
  | .bridgeWithdraw token amount destinationChain destinationAddress =>
    executeBridgeWithdraw sender token amount destinationChain destinationAddress
  | .governancePropose description actionType paramKey paramValue recipient amount =>
    executeGovernancePropose sender description actionType paramKey paramValue recipient
      amount blockNumber
  | .freezeAsset assetId => executeFreezeAsset sender assetId
  | .unfreezeAsset assetId => executeUnfreezeAsset sender assetId
  | .submitSlashingEvidence evidence => executeSubmitSlashingEvidence sender evidence blockNumber
  | .fundRedemptionPool assetId amount => executeFundRedemptionPool sender assetId amount
  | .claimRedemption assetId => executeClaimRedemption sender assetId
  | .setKycApproval address approved => executeSetKycApproval sender address approved
  | .bridgeDeposit sourceTxHash sourceChain recipient token amount =>
    executeBridgeDeposit sender sourceTxHash sourceChain recipient token amount
  | .setAddressJurisdiction address country => executeSetAddressJurisdiction sender address country
  | .createOracleFeed feedId name feedType authorizedSources quorum maxStalenessMs decimals =>
    executeCreateOracleFeed sender feedId name feedType authorizedSources quorum maxStalenessMs
      decimals blockNumber
  | .submitOracleValue feedId value => executeSubmitOracleValue sender feedId value blockTimestamp

/-! ## Transactions -/

/-- What a block gives to the execution of its transactions. -/
structure BlockContext where
  gasConfig : GasConfig
  blockNumber : UInt64
  blockTimestamp : UInt64
  chainId : ChainId
deriving DecidableEq

/-- The result of executing a transaction. -/
structure ExecutionResult where
  receipt : TransactionReceipt
  gasUsed : UInt64
deriving DecidableEq

def failReceipt (txHash : H256) (gasUsed : UInt64) : ExecutionResult :=
  ⟨⟨txHash, false, gasUsed, []⟩, gasUsed⟩

/-- The balance a sender needs: the fee, with the amount that some operations move. -/
def totalNeeded (action : TransactionAction) (gasFee : Amount) : Option Amount :=
  match action with
  | .transfer _ amount => gasFee.checkedAdd amount
  | .stake _ amount => gasFee.checkedAdd amount
  | .callContract _ _ _ value => gasFee.checkedAdd value
  | .distributeRevenue _ totalAmount => gasFee.checkedAdd totalAmount
  | .bridgeWithdraw token amount _ _ =>
    if token = .zero then gasFee.checkedAdd amount else some gasFee
  | _ => some gasFee

section Block

variable {ε : Type}

/-- Deduct a fee, if the balance allows, and move the nonce on. -/
def chargeFee (sender : Address) (fee : Amount) : DbM ε Unit := do
  (Db.subBalance sender fee).ignoreError
  Db.incrementNonce sender

/-- The gas that a transaction uses, whatever happens to it. -/
def gasToUse (tx : SignedTransaction) (config : GasConfig) : UInt64 :=
  U64.min (calculateGasCost tx.payload.action config) tx.payload.gasLimit

/-- The fee of a transaction; nothing if it does not fit a word. -/
def gasFee (tx : SignedTransaction) (config : GasConfig) : Amount :=
  (tx.payload.gasPrice.checkedMul (ofU64 (gasToUse tx config))).getD .zero

/-- Charge a transaction and execute its operation, rolling back if that fails. -/
def executeCharged (ctx : BlockContext) (tx : SignedTransaction) : DbM ε ExecutionResult := do
  let gas := gasToUse tx ctx.gasConfig
  let fee := gasFee tx ctx.gasConfig
  let outcome ← Db.orRestore do
    chargeFee tx.sender fee
    executeAction tx.sender tx.payload.action ctx.blockNumber ctx.blockTimestamp tx.payload.nonce
      tx.payload.gasLimit
  match outcome with
  | .ok logs => pure ⟨⟨tx.hash, true, gas, logs⟩, gas⟩
  | .error _ => do
    chargeFee tx.sender fee
    pure (failReceipt tx.hash gas)

/-- Execute a transaction that passed its own checks, if the sender can pay for it. -/
def executeAdmitted (ctx : BlockContext) (tx : SignedTransaction) : DbM ε ExecutionResult := do
  let gas := gasToUse tx ctx.gasConfig
  let fee := gasFee tx ctx.gasConfig
  let balance ← Db.getBalance tx.sender
  match totalNeeded tx.payload.action fee with
  | none => pure (failReceipt tx.hash gas)
  | some needed =>
    if balance < needed then do
      chargeFee tx.sender ⟨U128.min fee.raw balance.raw⟩
      pure (failReceipt tx.hash gas)
    else
      executeCharged ctx tx

/-- Execute a transaction: one for another chain, with a bad signature or nonce, or below the
minimum gas price fails without any effect. -/
def executeTransactionAt (ctx : BlockContext) (tx : SignedTransaction) : DbM ε ExecutionResult :=
  if tx.payload.chainId ≠ ctx.chainId ∨ !verify tx.payloadBytes tx.signature tx.publicKey then
    pure (failReceipt tx.hash 0)
  else do
    let expectedNonce ← Db.getNonce tx.sender
    let override ← Db.getMinGasPriceOverride
    let minGasPrice := override.getD ctx.gasConfig.minGasPrice
    if tx.payload.nonce ≠ expectedNonce ∨ tx.payload.gasPrice < minGasPrice then
      pure (failReceipt tx.hash 0)
    else
      executeAdmitted ctx tx

/-- Execute transactions in turn until the gas limit is reached. -/
def executeTransactions (ctx : BlockContext) (blockGasLimit : UInt64) :
    List SignedTransaction → List TransactionReceipt → UInt64 →
      DbM ε (List TransactionReceipt × UInt64)
  | [], receipts, totalGas => pure (receipts, totalGas)
  | tx :: rest, receipts, totalGas =>
    if blockGasLimit ≤ totalGas then
      pure (receipts, totalGas)
    else do
      let result ← executeTransactionAt ctx tx
      executeTransactions ctx blockGasLimit rest (receipts ++ [result.receipt])
        (totalGas + result.gasUsed)

/-- Execute the transactions of a block, after the matured unbonding entries are released; returns
the receipts and the gas used. -/
def executeBlockTransactionsAt (ctx : BlockContext) (transactions : List SignedTransaction)
    (blockGasLimit : UInt64) : DbM ε (List TransactionReceipt × UInt64) := do
  let _ ← Db.processUnbonding ctx.blockTimestamp
  executeTransactions ctx blockGasLimit transactions [] 0

/-! ## Settlement -/

/-- Credit an account; an overflow is passed over. -/
def credit (address : Address) (amount : Amount) : DbM ε Unit :=
  (Db.addBalance address amount).ignoreError

/-- Credit an account, if there is anything to credit. -/
def creditNonzero (address : Address) (amount : U128) : DbM ε Unit :=
  if 0 < amount then credit address ⟨amount⟩ else pure ()

/-- A staker's part of a reward. -/
def stakeShare (stake stakersPool totalStake : U128) : U128 :=
  (U128.checkedDiv (U128.saturatingMul stake stakersPool) totalStake).getD 0

/-- Pay out the stakers' part of a reward; what rounding leaves goes to the validator. -/
def distributeToStakers (validator : Address) (staking : StakingState) (stakersPool : U128) :
    DbM ε Unit := do
  let totalStake := staking.totalStake.raw
  let selfShare := stakeShare staking.selfStake.raw stakersPool totalStake
  creditNonzero validator selfShare
  let distributed ← Confined.foldEach staking.delegations selfShare fun distributed d => do
    let share := stakeShare d.amount.raw stakersPool totalStake
    creditNonzero d.delegator share
    pure (U128.saturatingAdd distributed share)
  if distributed < stakersPool then credit validator ⟨stakersPool - distributed⟩ else pure ()

/-- Pay a producer's reward: the commission to the validator, the rest to the stakers. -/
def distributeProducerReward (validator : Address) (reward : Amount) : DbM ε Unit :=
  if reward.raw = 0 then
    pure ()
  else do
    let account ← Db.getAccount validator
    match account.staking with
    | none => credit validator reward
    | some staking =>
      if staking.totalStake.raw = 0 then
        credit validator reward
      else do
        let split := splitProducerReward reward staking.commissionBps
        creditNonzero validator split.validatorCommission.raw
        if split.stakerRewards.raw = 0 then pure ()
        else distributeToStakers validator staking split.stakerRewards.raw

/-- What settlement did to a block. -/
structure BlockSettlementSummary where
  minted : Amount
  burned : Amount
  treasury : Amount
  producerTotal : Amount
  governanceFinalized : UInt64
  governanceExecuted : UInt64
deriving DecidableEq

/-- A thousandth of a token. -/
def milliToRaw : U128 := BitVec.ofNat 128 (10 ^ 15)

/-- The circulating supply: the initial billion, what was minted and what was burned. -/
def circulatingSupply (mintedMilli burnedMilli : UInt64) : Amount :=
  ⟨U128.saturatingSub
    (U128.saturatingAdd (Amount.fromVtt 1000000000).raw (ofU64 mintedMilli * milliToRaw))
    (ofU64 burnedMilli * milliToRaw)⟩

/-- The reward of one block. -/
def blockReward (caches : StateSnapshot) (totalStaked : Amount) (epochLength : UInt64) : Amount :=
  let supply := circulatingSupply caches.totalMintedMilli caches.totalBurnedMilli
  let ratio := if 0 < supply.raw then toU64 (totalStaked.raw * 100 / supply.raw) else 0
  let epochReward := calculateEpochReward supply ratio
  if 0 < epochLength then ⟨epochReward.raw / ofU64 epochLength⟩ else .zero

/-- Pay the block reward to the producer and the treasury. -/
def payReward (producer treasury : Address) (reward : Amount) : SettleM ε Unit :=
  if 0 < reward.raw then do
    let split := splitBlockReward reward
    SettleM.lift (distributeProducerReward producer split.producer)
    SettleM.lift (credit treasury split.treasury)
    SettleM.recordMintMilli (toU64 (reward.raw / milliToRaw))
  else pure ()

/-- Pay the producer's part of the gas fees and count the rest as burned. -/
def payFees (producer : Address) (fees : Amount) : SettleM ε Unit :=
  if 0 < fees.raw then do
    let split := splitGasFees fees
    SettleM.lift (distributeProducerReward producer split.producer)
    SettleM.recordBurnMilli (toU64 (split.burned.raw / milliToRaw))
  else pure ()

/-- The summary of a settlement that paid the given reward and fees. -/
def settlementSummary (reward fees : Amount) (finalized executed : UInt64) :
    BlockSettlementSummary :=
  let split := splitBlockReward reward
  let gasSplit := splitGasFees fees
  { minted := reward
    burned := gasSplit.burned
    treasury := split.treasury
    producerTotal := (split.producer.checkedAdd gasSplit.producer).getD split.producer
    governanceFinalized := finalized
    governanceExecuted := executed }

/-- Settle a block: governance, then the reward, then the fees. -/
def applyBlockRewardsAndGovernance (blockNumber gasUsed : UInt64) (gasConfig : GasConfig)
    (producer : Address) (totalStaked : Amount) (params : ConsensusParams) :
    SettleM ε BlockSettlementSummary := do
  let finalized ← SettleM.lift (finalizeGovernanceProposals blockNumber totalStaked)
  let executed ← SettleM.lift (executeQueuedProposals blockNumber)
  let reward ← SettleM.cached (blockReward · totalStaked params.epochLength)
  payReward producer params.treasuryAddress reward
  let fees : Amount := ⟨ofU64 gasUsed * gasConfig.minGasPrice.raw⟩
  payFees producer fees
  pure (settlementSummary reward fees finalized executed)

end Block

end Vtt.Executor
