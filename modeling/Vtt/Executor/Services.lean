import Vtt.Executor.Basic

/-!
# Approvals, oracle feeds and the bridge

The operations that the treasury, the sources of oracle feeds and the relayer of the bridge are
trusted with, and withdrawals over the bridge.
-/

namespace Vtt.Executor

open Lib Confined
open Borsh (serialize)

variable [Crypto]

/-! ## Approvals -/

def executeSetKycApproval (sender address : Address) (approved : Bool) : ExecM (List Log) := do
  requireTreasury sender "only the treasury / admin can set KYC approval"
  Db.setKycApproved address approved
  pure [event sender "SetKycApproval" [] (serialize (address, approved))]

def executeSetAddressJurisdiction (sender address : Address) (country : String) :
    ExecM (List Log) := do
  requireTreasury sender "only the treasury / admin can set address jurisdiction"
  let countryUpper := Text.asciiUppercase (String.ofList (Text.trim country.toList))
  require (countryUpper.isEmpty || countryUpper.utf8ByteSize == 2)
    (.custom "jurisdiction must be an ISO 3166-1 alpha-2 code (2 letters) or empty")
  require (countryUpper.toList.all Char.isAlpha)
    (.custom "jurisdiction must contain only ASCII letters")
  Db.setAddressJurisdiction address countryUpper
  pure [event sender "SetAddressJurisdiction" [] (serialize (address, countryUpper))]

/-! ## Oracle feeds -/

/-- The asset that a hexadecimal text names. -/
def parseAssetId (hex : List Char) : ExecM H256 := do
  let bytes := ascii (String.ofList hex)
  require (bytes.length = 64) (.custom "oracle feed_type 'asset:<hex>' expects 32-byte asset id")
  let parsed ← unwrap (Text.hexBytes bytes)
  let parsed ← okOr parsed (.custom "oracle feed_type 'asset:<hex>': invalid hex")
  pure (.fromSlice parsed)

/-- What a feed reports, by the start of its type. -/
def parseFeedType (feedType : String) : ExecM OracleFeedType :=
  let cs := feedType.toList
  let after := fun (start : String) => Text.trimStartMatches start.toList cs
  if "price:".toList.isPrefixOf cs then
    pure (.marketPrice (String.ofList (after "price:")))
  else if "rate:".toList.isPrefixOf cs then
    pure (.interestRate (String.ofList (after "rate:")))
  else if "asset:".toList.isPrefixOf cs then do
    let tail := after "asset:"
    let assetId ← parseAssetId (if "0x".toList.isPrefixOf tail then tail.drop 2 else tail)
    pure (.assetValuation assetId)
  else
    pure (.custom feedType)

/-- The error for a feed that could not be added. -/
def feedError (feedId : H256) (e : StateError) : ExecutionError :=
  match e with
  | .serialization s =>
    if "already exists".toList <:+: s.toList then
      .custom ("oracle feed_id already registered: " ++ feedId.display)
    else .custom (StateError.serialization s).display
  | other => .custom other.display

def executeCreateOracleFeed (sender : Address) (feedId : H256) (name feedType : String)
    (authorizedSources : List Address) (quorum : UInt8) (maxStalenessMs : UInt64)
    (decimals : UInt8) (blockNumber : UInt64) : ExecM (List Log) := do
  require (decimals ≤ 30) (.custom "oracle decimals must be <= 30")
  requireTreasury sender "only the treasury / admin can create oracle feeds"
  require (!name.isEmpty && name.utf8ByteSize ≤ 128)
    (.custom "oracle feed name must be 1..=128 chars")
  require (!feedType.isEmpty && feedType.utf8ByteSize ≤ 64)
    (.custom "oracle feed_type must be 1..=64 chars")
  require (!authorizedSources.isEmpty && authorizedSources.length ≤ 32)
    (.custom "oracle feed must have between 1 and 32 authorized sources")
  require authorizedSources.Nodup (.custom "oracle authorized_sources contains duplicates")
  require (quorum ≠ 0 ∧ quorum.toNat ≤ authorizedSources.length)
    (.custom "oracle quorum must be between 1 and the number of authorized sources")
  let parsed ← parseFeedType feedType
  let feed := OracleFeed.newWithDecimals feedId name parsed authorizedSources quorum
    maxStalenessMs decimals
  (Db.registerOracle { feed with createdAt := blockNumber }).mapError (feedError feedId)
  pure [event sender "CreateOracleFeed" [feedId]
    (serialize (feedId, name, authorizedSources, quorum))]

def executeSubmitOracleValue (sender : Address) (feedId : H256) (value : Amount)
    (blockTimestamp : UInt64) : ExecM (List Log) := do
  let reached ← (Db.submitOracle feedId sender value blockTimestamp).mapError fun e =>
    .custom e.display
  pure [event sender "SubmitOracleValue" [feedId]
    (serialize (sender, value, blockTimestamp, reached))]

/-! ## The bridge -/

/-- Credit a deposit on the bridge with native tokens, or with an active asset. -/
def creditDeposit (recipient : Address) (token : H256) (amount : Amount) : ExecM Unit :=
  if token = .zero then
    (Db.addBalance recipient amount).mapError fun e =>
      .custom ("credit recipient failed: " ++ e.display)
  else do
    let asset ← cachedAsset token (.custom ("bridge asset not found: " ++ token.display))
    require asset.isTradeable (.custom "bridge asset is not active")
    let ownership ← Db.getOwnership token recipient
    let credited ← unwrap (ownership.credit amount)
    Db.putOwnership credited

/-- Credit a deposit that the relayer reports, once. -/
def executeBridgeDeposit (sender : Address) (sourceTxHash : H256) (sourceChain : UInt32)
    (recipient : Address) (token : H256) (amount : Amount) : ExecM (List Log) := do
  let paused ← Db.isBridgePaused
  require (!paused) (.custom "bridge is paused")
  let relayer ← Db.bridgeRelayer
  require (relayer ≠ .zero) (.custom "bridge relayer not configured")
  require (sender = relayer) (.custom "only the configured bridge relayer can submit BridgeDeposit")
  let processed ← Db.bridgeDepositProcessed sourceChain sourceTxHash
  require (!processed) (.custom "bridge deposit already processed")
  require (!amount.isZero) (.custom "bridge deposit amount is zero")
  creditDeposit recipient token amount
  Db.markBridgeDepositProcessed sourceChain sourceTxHash
  pure [event sender "BridgeDeposit" [sourceTxHash, token] (serialize (recipient, token, amount))]

/-- Burn tokens that are to be released on another chain. -/
def executeBridgeWithdraw (sender : Address) (token : H256) (amount : Amount)
    (destinationChain : UInt32) (destinationAddress : Address) : ExecM (List Log) := do
  let paused ← Db.isBridgePaused
  require (!paused) .bridgePaused
  require (!amount.isZero) (.custom "bridge withdraw amount must be non-zero")
  if token = .zero then
    onState (Db.subBalance sender amount)
  else do
    let _ ← cachedAsset token (assetMissing token)
    onState (Db.transferAsset token sender .zero amount)
  pure [event sender "BridgeWithdraw" [token]
    (serialize (sender, token, amount, destinationChain, destinationAddress))]

end Vtt.Executor
