import Vtt.Executor.Basic

/-!
# Assets, their holders' proposals, oracle feeds and the bridge
-/

namespace Vtt.Executor

open Lib Confined Db
open Borsh (serialize)

/-! ## Transfer rules -/

/-- The jurisdiction of an address against the white list and the black list of the chain. -/
def checkJurisdictionPolicy (address : Address) : ExecM Unit := do
  let whitelist ← getJurisdictionWhitelist
  let blacklist ← getJurisdictionBlacklist
  let recorded ← getAddressJurisdiction address
  let code := recorded.map Text.asciiUppercase
  if whitelist.isEmpty then pure () else do
    let code ← okOr code (.custom ("address " ++ address.display ++
      " has no jurisdiction set; chain requires whitelisted jurisdiction"))
    require (whitelist.any fun c => Text.eqIgnoreCase c code)
      (.custom ("jurisdiction '" ++ code ++ "' is not in the chain whitelist"))
  match code with
  | none => pure ()
  | some code =>
    require (!blacklist.any fun c => Text.eqIgnoreCase c code)
      (.custom ("jurisdiction '" ++ code ++ "' is blacklisted on this chain"))

/-- The limit on the number of holders. It does not concern a recipient who holds the asset already,
nor a sender who parts with everything. -/
def checkMaxHolders (assetId : H256) (sender recipient : Address) (amount : Amount) : ExecM Unit :=
  do
  let max ← getMaxHoldersPerAsset
  if max = 0 then pure () else do
    let recipientHolding ← getOwnership assetId recipient
    let recipientTotal ← unwrap recipientHolding.total
    if !recipientTotal.isZero then pure () else do
      let senderHolding ← getOwnership assetId sender
      let senderTotal ← unwrap senderHolding.total
      let after := U128.saturatingSub senderTotal.raw amount.raw
      if after = 0 ∧ !senderTotal.isZero then pure () else do
        let holders ← holderCount assetId
        require (holders < max) (.custom ("asset has reached max_holders_per_asset (" ++
          toString max ++ "); recipient is a new holder"))

/-- Transfers of a registrar-mediated asset come from its registrar. -/
def checkTransferMode (asset : AssetRecord) (sender : Address) : ExecM Unit :=
  match asset.transferMode with
  | .peerToPeer => pure ()
  | .registrarMediated => do
    let registrar ←
      okOr asset.registrar (.custom "asset configured as RegistrarMediated but has no registrar")
    require (sender = registrar)
      (.custom "registrar-mediated asset: only the registrar can originate transfers")

/-- Both sides of a transfer of a regulated asset are approved. -/
def checkKyc (asset : AssetRecord) (sender recipient : Address) : ExecM Unit :=
  if asset.requiresKyc then do
    let approved ← isKycApproved sender
    require approved (.custom "sender is not KYC-approved for this regulated asset")
    let approved ← isKycApproved recipient
    require approved (.custom "recipient is not KYC-approved for this regulated asset")
  else pure ()

variable [Crypto]

def executeAssetTransfer (sender : Address) (assetId : H256) (recipient : Address)
    (amount : Amount) : ExecM (List Log) := do
  let asset ← cachedAsset assetId .assetNotFound
  checkTransferMode asset sender
  checkKyc asset sender recipient
  checkJurisdictionPolicy sender
  checkJurisdictionPolicy recipient
  checkMaxHolders assetId sender recipient amount
  onState (transferAsset assetId sender recipient amount)
  pure [event sender "AssetTransfer" [assetId] (serialize (sender, recipient, amount))]

/-! ## Creation and freezing -/

/-- The class that a text names. -/
def parseAssetClass (assetClass : String) : AssetClass :=
  match assetClass with
  | "equity" => .equity
  | "debt" => .debt
  | "real_estate" => .realEstate
  | "commodity" => .commodity
  | "fund" => .fund
  | "ip" => .intellectualProperty
  | "carbon" => .carbonCredit
  | "invoice" => .invoice
  | _ => .custom assetClass

/-- Regulated classes need a jurisdiction and a legal entity. -/
def isRegulated (assetClass : AssetClass) : Bool :=
  match assetClass with
  | .equity | .debt | .realEstate | .fund => true
  | _ => false

/-- A text of two ASCII letters. -/
def isCountryCode (code : String) : Bool :=
  code.utf8ByteSize == 2 && code.toList.all Char.isAlpha

def executeCreateAsset (sender : Address) (name symbol metadataUri : String)
    (totalSupply : Amount) (decimals : UInt8) (assetClass jurisdiction legalEntity : String)
    (blockNumber : UInt64) : ExecM Unit := do
  let assetId := blake3Hash (serialize (sender, name, symbol))
  let parsed := parseAssetClass assetClass
  let regulated := isRegulated parsed
  require (!regulated || isCountryCode jurisdiction)
    (.custom ("jurisdiction must be a 2-letter ISO 3166-1 alpha-2 code for " ++
    "regulated asset classes"))
  require (!regulated || !(Text.trim legalEntity.toList).isEmpty)
    (.custom "legal_entity is required for regulated asset classes")
  onState (registerAsset
    { id := assetId, name, symbol, assetClass := parsed, originChain := .relay, issuer := sender
      totalSupply, decimals, status := .active, compliancePolicy := none, valuationOracle := none
      documents := [], metadataUri, jurisdiction, legalEntity, transferMode := .peerToPeer
      registrar := none, redemptionPool := .zero, requiresKyc := regulated
      createdAt := blockNumber })
  let ownership ← getOwnership assetId sender
  let credited ← unwrap (ownership.credit totalSupply)
  putOwnership credited

/-- Replace an asset by a changed one, on behalf of its issuer. -/
def changeByIssuer (sender : Address) (assetId : H256) (change : AssetRecord → AssetRecord)
    (eventName : String) : ExecM (List Log) := do
  let asset ← getAssetOwned assetId
  let asset ← okOr asset .assetNotFound
  require (asset.issuer = sender) .notIssuer
  putAsset assetId (change asset)
  pure [event sender eventName [assetId] (serialize (sender, assetId))]

def executeFreezeAsset (sender : Address) (assetId : H256) : ExecM (List Log) :=
  changeByIssuer sender assetId .freeze "FreezeAsset"

def executeUnfreezeAsset (sender : Address) (assetId : H256) : ExecM (List Log) :=
  changeByIssuer sender assetId .unfreeze "UnfreezeAsset"

/-! ## Redemption -/

def executeFundRedemptionPool (sender : Address) (assetId : H256) (amount : Amount) :
    ExecM (List Log) := do
  require (!amount.isZero) (.custom "amount is zero")
  let asset ← cachedAsset assetId .assetNotFound
  require asset.isRedemptionPending (.custom "asset is not in RedemptionPending state")
  require (asset.issuer = sender) (.custom "only the asset issuer can fund the redemption pool")
  onState (subBalance sender amount)
  changeAsset assetId .assetNotFound fun asset => do
    let redemptionPool ← okOr (asset.redemptionPool.checkedAdd amount)
      (.state (.serialization "redemption_pool overflow"))
    pure { asset with redemptionPool }
  pure [event sender "FundRedemptionPool" [assetId] (serialize (sender, amount))]

/-- An asset after a holder was paid out; the differences abort on underflow. -/
def redeemed (asset : AssetRecord) (holderTotal share : Amount) : Option AssetRecord := do
  let totalSupply ← asset.totalSupply.checkedSub holderTotal
  let redemptionPool ← asset.redemptionPool.checkedSub share
  pure
    { asset with
      totalSupply
      redemptionPool
      status := if totalSupply.isZero then .redeemed else asset.status }

/-- Burn a holder's tokens for the holder's share of the redemption pool. -/
def executeClaimRedemption (sender : Address) (assetId : H256) : ExecM (List Log) := do
  let asset ← cachedAsset assetId .assetNotFound
  require asset.isRedemptionPending (.custom "asset is not in RedemptionPending state")
  require (!asset.totalSupply.isZero) (.custom "asset has zero total supply")
  require (!asset.redemptionPool.isZero) (.custom "redemption pool is empty, no proceeds to claim")
  let ownership ← getOwnership assetId sender
  let holderTotal ← unwrap ownership.total
  require (!holderTotal.isZero) (.custom "caller holds no tokens for this asset")
  let product ← okOr (U128.checkedMul holderTotal.raw asset.redemptionPool.raw)
    (.state (.serialization "redemption share overflow"))
  let share : Amount := ⟨product / asset.totalSupply.raw⟩
  putOwnership { ownership with available := .zero, locked := .zero }
  (addBalance sender share).mapError fun e => .custom ("credit failed: " ++ e.display)
  changeAsset assetId .assetNotFound fun asset =>
    unwrap (redeemed asset holderTotal share)
  pure [event sender "ClaimRedemption" [assetId] (serialize (sender, holderTotal, share))]

/-- Close a redemption; what is left in the pool goes to the treasury. -/
def executeFinalizeRedemption (assetId : H256) : ExecM Unit := do
  let asset ← cachedAsset assetId (assetMissing assetId)
  require asset.isRedemptionPending
    (.custom "FinalizeRedemption only applies to assets in RedemptionPending")
  let remaining := asset.redemptionPool
  let treasury ← getTreasuryAddress
  changeAsset assetId (assetMissing assetId) fun asset =>
    pure { asset with status := .redeemed, redemptionPool := .zero }
  if remaining.isZero then pure ()
  else (addBalance treasury remaining).mapError fun e => .custom e.display

/-! ## Revenue -/

/-- The product of two words divided by a third; the parts wrap if the product is too large. -/
def mulDiv (a b c : U128) : U128 :=
  match U128.checkedMul a b with
  | some product => product / c
  | none =>
    let q1 := (a / c) * b
    let r1 := a % c
    let q2 := match U128.checkedMul r1 b with
      | some product => product / c
      | none => (r1 / c) * b + (r1 % c) * (b / c)
    q1 + q2

/-- Pay one holder's share; counts what was paid and to how many. -/
def payShare (totalAmount totalSupply : Amount) (paid : Amount × UInt64)
    (holder : OwnershipRecord) : ExecM (Amount × UInt64) := do
  let share : Amount := ⟨mulDiv holder.available.raw totalAmount.raw totalSupply.raw⟩
  if 0 < share.raw then do
    onState (addBalance holder.owner share)
    let distributed ← unwrap (paid.1.checkedAdd share)
    pure (distributed, paid.2 + 1)
  else pure paid

/-- Pay out the issuer's tokens to the holders of an asset in proportion to what they have. -/
def executeDistributeRevenue (sender : Address) (assetId : H256) (totalAmount : Amount) :
    ExecM (List Log) := do
  require (!totalAmount.isZero) (.custom "distribution amount must be non-zero")
  let asset ← cachedAsset assetId (assetMissing assetId)
  require (asset.issuer = sender) (.custom "only the asset issuer can distribute revenue")
  require (!asset.totalSupply.isZero) (.custom "asset has zero total supply")
  let records ← ownershipForAsset assetId
  let holders := records.filter fun r => !r.available.isZero
  require (!holders.isEmpty) (.custom "no holders with available balance")
  onState (subBalance sender totalAmount)
  let paid ← foldEach holders (Amount.zero, 0) (payShare totalAmount asset.totalSupply)
  match totalAmount.checkedSub paid.1 with
  | none => pure ()
  | some remainder =>
    if remainder.isZero then pure () else onState (addBalance sender remainder)
  pure [event sender "DistributeRevenue" [assetId]
    (serialize (sender, assetId, totalAmount.raw, paid.2))]

/-! ## Proposals of holders -/

/-- What a proposal needs of its proposer and of the asset. -/
def checkProposedAction (sender : Address) (asset : AssetRecord) (action : AssetProposalAction) :
    ExecM Unit :=
  match action with
  | .distributeRevenue totalAmount => do
    let balance ← getBalance sender
    require (totalAmount ≤ balance) (.insufficientBalance balance totalAmount)
  | .finalizeRedemption _ =>
    require asset.isRedemptionPending
      (.custom "FinalizeRedemption can only be proposed on an asset in RedemptionPending")
  | _ => pure ()

def executeProposeAssetAction (sender : Address) (assetId : H256) (action : AssetProposalAction)
    (description : String) (blockNumber nonce : UInt64) : ExecM (List Log) := do
  let asset ← cachedAsset assetId (assetMissing assetId)
  let ownership ← getOwnership assetId sender
  require (!ownership.available.isZero) (.custom "only token holders can propose asset actions")
  checkProposedAction sender asset action
  let proposalId := blake3Hash (serialize (assetId, sender, blockNumber, nonce))
  putAssetProposal
    { id := proposalId, assetId, proposer := sender, action, description, createdAt := blockNumber
      votingEnd := blockNumber + assetVotingPeriodBlocks, status := .active, votesYes := .zero
      votesNo := .zero, votesAbstain := .zero, voters := [] }
  pure [event sender "ProposeAssetAction" [proposalId] (serialize (sender, assetId, proposalId))]

/-- A proposal with a vote added; aborts on overflow. -/
def addAssetVote (proposal : AssetProposal) (voter : Address) (vote : Vote) (power : Amount) :
    Option AssetProposal :=
  let voters := proposal.voters ++ [voter]
  match vote with
  | .yes => (proposal.votesYes.checkedAdd power).map fun v =>
    { proposal with votesYes := v, voters }
  | .no => (proposal.votesNo.checkedAdd power).map fun v => { proposal with votesNo := v, voters }
  | .abstain =>
    (proposal.votesAbstain.checkedAdd power).map fun v =>
      { proposal with votesAbstain := v, voters }

/-- The number of a vote. -/
def voteByte : Vote → UInt8
  | .yes => 0
  | .no => 1
  | .abstain => 2

/-- The error for an asset proposal that is not in the cache. -/
def proposalMissing : ExecutionError := .custom "asset proposal not found"

/-- An asset proposal that is still active. -/
def activeAssetProposal (proposalId : H256) : ExecM AssetProposal := do
  let proposal ← getAssetProposal proposalId
  let proposal ← okOr proposal proposalMissing
  require (proposal.status = .active) (.custom "proposal is not active")
  pure proposal

def executeVoteAssetProposal (sender : Address) (proposalId : H256) (vote : Vote)
    (currentBlock : UInt64) : ExecM (List Log) := do
  let proposal ← activeAssetProposal proposalId
  require (!proposal.isVotingEnded currentBlock) (.custom "voting period has ended")
  require (!proposal.hasVoted sender) (.custom "already voted on this proposal")
  let ownership ← getOwnership proposal.assetId sender
  let votingPower := ownership.available
  require (!votingPower.isZero) (.custom "no token holdings to vote with")
  changeAssetProposal proposalId proposalMissing fun p =>
    unwrap (addAssetVote p sender vote votingPower)
  pure [event sender "VoteAssetProposal" [proposalId] (serialize (sender, voteByte vote,
    votingPower.raw))]

/-- Whether a proposal with quorum has the majority that its action needs. -/
def assetProposalPasses (proposal : AssetProposal) : Bool :=
  match proposal.action with
  | .changeIssuer _ | .disposeAsset _ | .finalizeRedemption _ => proposal.passesSupermajority
  | _ => proposal.passesThreshold

/-- Carry out a proposal that passed. -/
def runAssetAction (proposal : AssetProposal) : ExecM Unit :=
  match proposal.action with
  | .distributeRevenue totalAmount => do
    let _ ← executeDistributeRevenue proposal.proposer proposal.assetId totalAmount
    pure ()
  | .changeIssuer newIssuer =>
    changeAsset proposal.assetId (assetMissing proposal.assetId) fun asset =>
      pure { asset with issuer := newIssuer }
  | .signal _ => pure ()
  | .disposeAsset _ =>
    changeAsset proposal.assetId (assetMissing proposal.assetId) fun asset =>
      pure { asset with status := .redemptionPending }
  | .finalizeRedemption _ => executeFinalizeRedemption proposal.assetId

/-- Set the status of a cached proposal. -/
def setAssetProposalStatus (proposalId : H256) (status : AssetProposalStatus) : ExecM Unit :=
  changeAssetProposal proposalId proposalMissing fun p => pure { p with status }

/-- The text of a final status. -/
def finalStatusText : AssetProposalStatus → String
  | .executed => "Executed"
  | .rejected => "Rejected"
  | _ => "Unknown"

def executeFinalizeAssetProposal (sender : Address) (proposalId : H256) (currentBlock : UInt64) :
    ExecM (List Log) := do
  let proposal ← activeAssetProposal proposalId
  require (proposal.isVotingEnded currentBlock) (.custom "voting period has not ended yet")
  let asset ← cachedAsset proposal.assetId (assetMissing proposal.assetId)
  let hasQuorum ← unwrap (proposal.hasQuorum asset.totalSupply)
  if hasQuorum && assetProposalPasses proposal then do
    runAssetAction proposal
    setAssetProposalStatus proposalId .executed
  else
    setAssetProposalStatus proposalId .rejected
  let final ← getAssetProposal proposalId
  let final ← okOr final (.custom "asset proposal disappeared during finalization")
  pure [event sender "FinalizeAssetProposal" [proposalId]
    (serialize (sender, proposalId, finalStatusText final.status))]

end Vtt.Executor
