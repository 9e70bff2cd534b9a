import Vtt.Primitives.Basic

/-!
# Transactions

The operations of the chain, their signed envelopes and the receipts of their execution, with the
binary layout that is hashed and signed.
-/

namespace Vtt

open Lib

/-! ## Proposals of token holders -/

/-- What the holders of an asset can vote on. -/
inductive AssetProposalAction where
  | distributeRevenue (totalAmount : Amount)
  | changeIssuer (newIssuer : Address)
  | signal (description : String)
  | disposeAsset (reason : String)
  | finalizeRedemption (reason : String)
deriving DecidableEq

namespace AssetProposalAction

instance : Borsh AssetProposalAction :=
  .ofVariants [.of distributeRevenue, .of changeIssuer, .of signal, .of disposeAsset,
    .of finalizeRedemption] (by decide)
    (fun
      | distributeRevenue totalAmount => ⟨0, totalAmount⟩
      | changeIssuer newIssuer => ⟨1, newIssuer⟩
      | signal description => ⟨2, description⟩
      | disposeAsset reason => ⟨3, reason⟩
      | finalizeRedemption reason => ⟨4, reason⟩)
    (fun a => by cases a <;> rfl)

end AssetProposalAction

/-- Where a proposal of token holders stands. -/
inductive AssetProposalStatus where
  | active
  | passed
  | rejected
  | executed
deriving DecidableEq

instance : Borsh AssetProposalStatus :=
  .ofVariants [.of fun () => .active, .of fun () => .passed, .of fun () => .rejected,
    .of fun () => .executed] (by decide)
    (fun | .active => ⟨0, ()⟩ | .passed => ⟨1, ()⟩ | .rejected => ⟨2, ()⟩ | .executed => ⟨3, ()⟩)
    (fun s => by cases s <;> rfl)

/-- Voting period of asset proposals in blocks. -/
def assetVotingPeriodBlocks : UInt64 := 201600

/-- Share of the supply that must vote, in basis points. -/
def assetQuorumBps : UInt64 := 3300

/-- Share of yes among yes and no, in basis points. -/
def assetPassThresholdBps : UInt64 := 5001

/-- Share of yes among yes and no for critical actions, in basis points. -/
def assetSupermajorityBps : UInt64 := 6700

/-- A proposal of the holders of one asset. -/
structure AssetProposal where
  id : H256
  assetId : H256
  proposer : Address
  action : AssetProposalAction
  description : String
  createdAt : BlockNumber
  votingEnd : BlockNumber
  status : AssetProposalStatus
  votesYes : Amount
  votesNo : Amount
  votesAbstain : Amount
  voters : List Address
deriving DecidableEq

namespace AssetProposal

instance : Borsh AssetProposal :=
  .ofIso
    (fun p => (p.id, p.assetId, p.proposer, p.action, p.description, p.createdAt, p.votingEnd,
      p.status, p.votesYes, p.votesNo, p.votesAbstain, p.voters))
    (fun (id, assetId, proposer, action, description, createdAt, votingEnd, status, votesYes,
      votesNo, votesAbstain, voters) => ⟨id, assetId, proposer, action, description, createdAt,
      votingEnd, status, votesYes, votesNo, votesAbstain, voters⟩)
    (fun _ => rfl)

def isVotingEnded (p : AssetProposal) (currentBlock : BlockNumber) : Bool :=
  p.votingEnd ≤ currentBlock

/-- All votes cast; the additions abort on overflow. -/
def totalVotes (p : AssetProposal) : Option Amount := do
  let yesNo ← p.votesYes.checkedAdd p.votesNo
  yesNo.checkedAdd p.votesAbstain

/-- Enough of the supply has voted; the products wrap. -/
def hasQuorum (p : AssetProposal) (totalSupply : Amount) : Option Bool :=
  if totalSupply.isZero then
    some false
  else do
    let votes ← p.totalVotes
    pure (totalSupply.raw * U128.ofU64 assetQuorumBps ≤ votes.raw * 10000)

/-- The yes votes reach a share of the yes and no votes; sums and products wrap. -/
def passesShare (p : AssetProposal) (bps : UInt64) : Bool :=
  let yesPlusNo := p.votesYes.raw + p.votesNo.raw
  if yesPlusNo = 0 then false else yesPlusNo * U128.ofU64 bps ≤ p.votesYes.raw * 10000

def passesThreshold (p : AssetProposal) : Bool := p.passesShare assetPassThresholdBps

def passesSupermajority (p : AssetProposal) : Bool := p.passesShare assetSupermajorityBps

def hasVoted (p : AssetProposal) (voter : Address) : Bool := p.voters.contains voter

end AssetProposal

/-! ## Operations -/

/-- What a cross-chain transfer carries. -/
inductive CrossChainPayload where
  | vttTransfer (amount : Amount)
  | assetTransfer (assetId : H256) (amount : Amount)
  | contractCall (contract : Address) (method : String) (args : Bytes) (value : Amount)
deriving DecidableEq

namespace CrossChainPayload

instance : Borsh CrossChainPayload :=
  .ofVariants [.of vttTransfer, .of fun (assetId, amount) => assetTransfer assetId amount,
    .of fun (contract, method, args, value) => contractCall contract method args value] (by decide)
    (fun
      | vttTransfer amount => ⟨0, amount⟩
      | assetTransfer assetId amount => ⟨1, (assetId, amount)⟩
      | contractCall contract method args value => ⟨2, (contract, method, args, value)⟩)
    (fun p => by cases p <;> rfl)

end CrossChainPayload

/-- The operations a transaction can carry. -/
inductive TransactionAction where
  | transfer (recipient : Address) (amount : Amount)
  | deployContract (code initData : Bytes)
  | callContract (contract : Address) (method : String) (args : Bytes) (value : Amount)
  | stake (validator : Address) (amount : Amount)
  | unstake (validator : Address) (amount : Amount)
  | governanceVote (proposalId : H256) (vote : Vote)
  | createAssetClass (name symbol metadataUri : String) (totalSupply : Amount) (decimals : UInt8)
      (assetClass jurisdiction legalEntity : String)
  | assetTransfer (assetId : H256) (recipient : Address) (amount : Amount)
  | crossChainTransfer (destinationChain : ChainId) (recipient : Address)
      (payload : CrossChainPayload)
  | createPool (tokenA tokenB : H256) (amountA amountB : Amount)
  | addLiquidity (poolId : H256) (amountA amountB minLp : Amount)
  | removeLiquidity (poolId : H256) (lpAmount minA minB : Amount)
  | swap (poolId tokenIn : H256) (amountIn minAmountOut : Amount)
  | claimRevenue (poolId : H256)
  | claimMiningRewards (poolId : H256)
  | distributeRevenue (assetId : H256) (totalAmount : Amount)
  | proposeAssetAction (assetId : H256) (action : AssetProposalAction) (description : String)
  | voteAssetProposal (proposalId : H256) (vote : Vote)
  | finalizeAssetProposal (proposalId : H256)
  | bridgeWithdraw (token : H256) (amount : Amount) (destinationChain : UInt32)
      (destinationAddress : Address)
  | governancePropose (description actionType : String) (paramKey paramValue : Option String)
      (recipient : Option Address) (amount : Option Amount)
  | freezeAsset (assetId : H256)
  | unfreezeAsset (assetId : H256)
  | submitSlashingEvidence (evidence : Bytes)
  | fundRedemptionPool (assetId : H256) (amount : Amount)
  | claimRedemption (assetId : H256)
  | setKycApproval (address : Address) (approved : Bool)
  | bridgeDeposit (sourceTxHash : H256) (sourceChain : UInt32) (recipient : Address)
      (token : H256) (amount : Amount)
  | setAddressJurisdiction (address : Address) (country : String)
  | createOracleFeed (feedId : H256) (name feedType : String) (authorizedSources : List Address)
      (quorum : UInt8) (maxStalenessMs : UInt64) (decimals : UInt8)
  | submitOracleValue (feedId : H256) (value : Amount)
deriving DecidableEq

namespace TransactionAction

/-- The constructors in the order of their tags. -/
abbrev variants : List (Borsh.Variant TransactionAction) := [
  .of fun (recipient, amount) => transfer recipient amount,
  .of fun (code, initData) => deployContract code initData,
  .of fun (contract, method, args, value) => callContract contract method args value,
  .of fun (validator, amount) => stake validator amount,
  .of fun (validator, amount) => unstake validator amount,
  .of fun (proposalId, vote) => governanceVote proposalId vote,
  .of fun (name, symbol, metadataUri, totalSupply, decimals, assetClass, jurisdiction,
    legalEntity) => createAssetClass name symbol metadataUri totalSupply decimals assetClass
    jurisdiction legalEntity,
  .of fun (assetId, recipient, amount) => assetTransfer assetId recipient amount,
  .of fun (destinationChain, recipient, payload) =>
    crossChainTransfer destinationChain recipient payload,
  .of fun (tokenA, tokenB, amountA, amountB) => createPool tokenA tokenB amountA amountB,
  .of fun (poolId, amountA, amountB, minLp) => addLiquidity poolId amountA amountB minLp,
  .of fun (poolId, lpAmount, minA, minB) => removeLiquidity poolId lpAmount minA minB,
  .of fun (poolId, tokenIn, amountIn, minAmountOut) => swap poolId tokenIn amountIn minAmountOut,
  .of claimRevenue,
  .of claimMiningRewards,
  .of fun (assetId, totalAmount) => distributeRevenue assetId totalAmount,
  .of fun (assetId, action, description) => proposeAssetAction assetId action description,
  .of fun (proposalId, vote) => voteAssetProposal proposalId vote,
  .of finalizeAssetProposal,
  .of fun (token, amount, destinationChain, destinationAddress) =>
    bridgeWithdraw token amount destinationChain destinationAddress,
  .of fun (description, actionType, paramKey, paramValue, recipient, amount) =>
    governancePropose description actionType paramKey paramValue recipient amount,
  .of freezeAsset,
  .of unfreezeAsset,
  .of submitSlashingEvidence,
  .of fun (assetId, amount) => fundRedemptionPool assetId amount,
  .of claimRedemption,
  .of fun (address, approved) => setKycApproval address approved,
  .of fun (sourceTxHash, sourceChain, recipient, token, amount) =>
    bridgeDeposit sourceTxHash sourceChain recipient token amount,
  .of fun (address, country) => setAddressJurisdiction address country,
  .of fun (feedId, name, feedType, authorizedSources, quorum, maxStalenessMs, decimals) =>
    createOracleFeed feedId name feedType authorizedSources quorum maxStalenessMs decimals,
  .of fun (feedId, value) => submitOracleValue feedId value]

/-- The tag and the arguments of an operation. -/
def pick : TransactionAction → Σ i : Fin variants.length, (variants.get i).Payload
  | transfer recipient amount => ⟨0, (recipient, amount)⟩
  | deployContract code initData => ⟨1, (code, initData)⟩
  | callContract contract method args value => ⟨2, (contract, method, args, value)⟩
  | stake validator amount => ⟨3, (validator, amount)⟩
  | unstake validator amount => ⟨4, (validator, amount)⟩
  | governanceVote proposalId vote => ⟨5, (proposalId, vote)⟩
  | createAssetClass name symbol metadataUri totalSupply decimals assetClass jurisdiction
      legalEntity =>
    ⟨6, (name, symbol, metadataUri, totalSupply, decimals, assetClass, jurisdiction, legalEntity)⟩
  | assetTransfer assetId recipient amount => ⟨7, (assetId, recipient, amount)⟩
  | crossChainTransfer destinationChain recipient payload =>
    ⟨8, (destinationChain, recipient, payload)⟩
  | createPool tokenA tokenB amountA amountB => ⟨9, (tokenA, tokenB, amountA, amountB)⟩
  | addLiquidity poolId amountA amountB minLp => ⟨10, (poolId, amountA, amountB, minLp)⟩
  | removeLiquidity poolId lpAmount minA minB => ⟨11, (poolId, lpAmount, minA, minB)⟩
  | swap poolId tokenIn amountIn minAmountOut => ⟨12, (poolId, tokenIn, amountIn, minAmountOut)⟩
  | claimRevenue poolId => ⟨13, poolId⟩
  | claimMiningRewards poolId => ⟨14, poolId⟩
  | distributeRevenue assetId totalAmount => ⟨15, (assetId, totalAmount)⟩
  | proposeAssetAction assetId action description => ⟨16, (assetId, action, description)⟩
  | voteAssetProposal proposalId vote => ⟨17, (proposalId, vote)⟩
  | finalizeAssetProposal proposalId => ⟨18, proposalId⟩
  | bridgeWithdraw token amount destinationChain destinationAddress =>
    ⟨19, (token, amount, destinationChain, destinationAddress)⟩
  | governancePropose description actionType paramKey paramValue recipient amount =>
    ⟨20, (description, actionType, paramKey, paramValue, recipient, amount)⟩
  | freezeAsset assetId => ⟨21, assetId⟩
  | unfreezeAsset assetId => ⟨22, assetId⟩
  | submitSlashingEvidence evidence => ⟨23, evidence⟩
  | fundRedemptionPool assetId amount => ⟨24, (assetId, amount)⟩
  | claimRedemption assetId => ⟨25, assetId⟩
  | setKycApproval address approved => ⟨26, (address, approved)⟩
  | bridgeDeposit sourceTxHash sourceChain recipient token amount =>
    ⟨27, (sourceTxHash, sourceChain, recipient, token, amount)⟩
  | setAddressJurisdiction address country => ⟨28, (address, country)⟩
  | createOracleFeed feedId name feedType authorizedSources quorum maxStalenessMs decimals =>
    ⟨29, (feedId, name, feedType, authorizedSources, quorum, maxStalenessMs, decimals)⟩
  | submitOracleValue feedId value => ⟨30, (feedId, value)⟩

instance : Borsh TransactionAction :=
  .ofVariants variants (by decide) pick (fun a => by cases a <;> rfl)

end TransactionAction

/-- The signed part of a transaction. -/
structure TransactionPayload where
  chainId : ChainId
  nonce : UInt64
  gasPrice : Amount
  gasLimit : UInt64
  action : TransactionAction
deriving DecidableEq

instance : Borsh TransactionPayload :=
  .ofIso (fun p => (p.chainId, p.nonce, p.gasPrice, p.gasLimit, p.action))
    (fun (chainId, nonce, gasPrice, gasLimit, action) => ⟨chainId, nonce, gasPrice, gasLimit,
      action⟩)
    (fun _ => rfl)

/-- A signed transaction. -/
structure SignedTransaction where
  payload : TransactionPayload
  signature : Signature
  publicKey : PublicKey
deriving DecidableEq

instance : Borsh SignedTransaction :=
  .ofIso (fun t => (t.payload, t.signature, t.publicKey))
    (fun (payload, signature, publicKey) => ⟨payload, signature, publicKey⟩) (fun _ => rfl)

/-- The bytes that are hashed and signed. -/
def SignedTransaction.payloadBytes (tx : SignedTransaction) : Bytes :=
  Borsh.serialize tx.payload

/-! ## Receipts -/

/-- A log entry. -/
structure Log where
  address : Address
  topics : List H256
  data : Bytes
deriving DecidableEq

instance : Borsh Log :=
  .ofIso (fun l => (l.address, l.topics, l.data))
    (fun (address, topics, data) => ⟨address, topics, data⟩) (fun _ => rfl)

/-- The record of an executed transaction. -/
structure TransactionReceipt where
  txHash : H256
  success : Bool
  gasUsed : UInt64
  logs : List Log
deriving DecidableEq

instance : Borsh TransactionReceipt :=
  .ofIso (fun r => (r.txHash, r.success, r.gasUsed, r.logs))
    (fun (txHash, success, gasUsed, logs) => ⟨txHash, success, gasUsed, logs⟩) (fun _ => rfl)

end Vtt
