import Vtt.State.Frame

/-!
# The methods of the state database as code

The methods that execution calls, as code confined to what a `Frame` allows. Everything that is
built from them is confined too.
-/

namespace Vtt

open Lib Confined StateDB

/-- Code on the state database that leaves the chain's observations and the supply alone. -/
abbrev DbM := Confined Frame.Linked

namespace Db

variable {ε : Type}

/-! ## Getters -/

/-- Read something off the caches. -/
def cached {α : Type} (g : StateSnapshot → α) : DbM ε α :=
  .view (fun db => g db.toStateSnapshot) fun _ _ _ h => h.cached g

def getAccount (address : Address) : DbM ε AccountState :=
  .view (·.getAccount address) fun _ _ _ h => h.getAccount

def getBalance (address : Address) : DbM ε Amount := do
  let account ← getAccount address
  pure account.balance

def getNonce (address : Address) : DbM ε UInt64 := do
  let account ← getAccount address
  pure account.nonce

def hasAsset (assetId : H256) : DbM ε Bool := .view (·.hasAsset assetId) fun _ _ _ h => h.hasAsset

def getAsset (assetId : H256) : DbM ε (Option AssetRecord) :=
  .view (·.getAsset assetId) fun _ _ _ h => h.getAsset

def getAssetOwned (assetId : H256) : DbM ε (Option AssetRecord) :=
  .view (·.getAssetOwned assetId) fun _ _ _ h => h.getAssetOwned

def ownershipRecord (assetId : H256) (owner : Address) : DbM ε (Option OwnershipRecord) :=
  cached (·.ownership[(assetId, owner)]?)

def getOwnership (assetId : H256) (owner : Address) : DbM ε OwnershipRecord :=
  .view (·.getOwnership assetId owner) fun _ _ _ h => h.getOwnership

def holderCount (assetId : H256) : DbM ε UInt32 :=
  .view (·.holderCount assetId) fun _ _ _ h => h.holderCount

def ownershipForAsset (assetId : H256) : DbM ε (List OwnershipRecord) :=
  .view (·.ownershipForAsset assetId) fun _ _ _ h => h.ownershipForAsset

def getAssetProposal (id : H256) : DbM ε (Option AssetProposal) :=
  .view (·.getAssetProposal id) fun _ _ _ h => h.getAssetProposal

def getOracle (feedId : H256) : DbM ε (Option OracleFeed) :=
  .view (·.getOracle feedId) fun _ _ _ h => h.getOracle

def getCode (codeHash : H256) : DbM ε (Option Bytes) :=
  .view (·.getCode codeHash) fun _ _ _ h => h.getCode

def loadContractStorage (address : Address) : DbM ε (FinMap Bytes Bytes) :=
  .view (·.loadContractStorage address) fun _ _ _ h => h.loadContractStorage

def getPoolRaw (poolId : H256) : DbM ε (Option Bytes) :=
  .view (·.getPoolRaw poolId) fun _ _ _ h => h.getPoolRaw

def hasPool (poolId : H256) : DbM ε Bool := .view (·.hasPool poolId) fun _ _ _ h => h.hasPool

def getMiningStateRaw (poolId : H256) : DbM ε (Option Bytes) :=
  .view (·.getMiningStateRaw poolId) fun _ _ _ h => h.getMiningStateRaw

def governanceProposals : DbM ε (FinMap H256 Bytes) := cached (·.governanceProposals)

def getGovernanceProposalOwned (id : H256) : DbM ε (Option Bytes) :=
  .view (·.getGovernanceProposalOwned id) fun _ _ _ h => h.getGovernanceProposalOwned

def getTreasuryAddress : DbM ε Address := cached (·.treasuryAddress)

def getEpochLength : DbM ε UInt64 := cached (·.epochLength)

def isDexPaused : DbM ε Bool := cached (·.dexPaused)

def isKycApproved (address : Address) : DbM ε Bool := .view (·.isKycApproved address) fun _ _ _ h =>
    h.isKycApproved

def slashingEvidenceSeen (offender : Address) (epoch : UInt64) (slot : UInt32) : DbM ε Bool :=
  .view (·.slashingEvidenceSeen offender epoch slot) fun _ _ _ h => h.slashingEvidenceSeen

def isBridgePaused : DbM ε Bool := .view (·.isBridgePaused) fun _ _ _ h => h.isBridgePaused

def bridgeRelayer : DbM ε Address := .view (·.bridgeRelayer) fun _ _ _ h => h.bridgeRelayer

def bridgeDepositProcessed (sourceChain : UInt32) (sourceTxHash : H256) : DbM ε Bool :=
  .view (·.bridgeDepositProcessed sourceChain sourceTxHash) fun _ _ _ h => h.bridgeDepositProcessed

def getMinGasPriceOverride : DbM ε (Option Amount) :=
  .view (·.getMinGasPriceOverride) fun _ _ _ h => h.getMinGasPriceOverride

def effectiveUnbondingPeriodMs (fallbackSecs : UInt64) : DbM ε UInt64 :=
  .view (·.effectiveUnbondingPeriodMs fallbackSecs) fun _ _ _ h => h.effectiveUnbondingPeriodMs

def getMaxHoldersPerAsset : DbM ε UInt32 := .view (·.getMaxHoldersPerAsset) fun _ _ _ h =>
    h.getMaxHoldersPerAsset

def getJurisdictionWhitelist : DbM ε (List String) :=
  .view (·.getJurisdictionWhitelist) fun _ _ _ h => h.getJurisdictionWhitelist

def getJurisdictionBlacklist : DbM ε (List String) :=
  .view (·.getJurisdictionBlacklist) fun _ _ _ h => h.getJurisdictionBlacklist

def getAddressJurisdiction (address : Address) : DbM ε (Option String) :=
  .view (·.getAddressJurisdiction address) fun _ _ _ h => h.getAddressJurisdiction

/-! ## Methods that cannot fail -/

def putAccount (address : Address) (state : AccountState) : DbM ε Unit :=
  .update (·.putAccount address state) fun _ _ _ h => h.putAccount

def incrementNonce (address : Address) : DbM ε Unit :=
  .update (·.incrementNonce address) fun _ _ _ h => h.incrementNonce

def touchAsset (assetId : H256) : DbM ε Unit :=
  .update (·.touchAsset assetId) fun _ _ _ h => h.touchAsset

def setCachedAsset (assetId : H256) (asset : AssetRecord) : DbM ε Unit :=
  .update (·.setCachedAsset assetId asset) fun _ _ _ h => h.setCachedAsset

def putAsset (assetId : H256) (asset : AssetRecord) : DbM ε Unit :=
  .update (·.putAsset assetId asset) fun _ _ _ h => h.putAsset

def putOwnershipWith (record : OwnershipRecord) (prevTotal newTotal : Amount) : DbM ε Unit :=
  .update (·.putOwnershipWith record prevTotal newTotal) fun _ _ _ h => h.putOwnershipWith

def setCachedAssetProposal (id : H256) (proposal : AssetProposal) : DbM ε Unit :=
  .update (·.setCachedAssetProposal id proposal) fun _ _ _ h => h.setCachedAssetProposal

def putAssetProposal (proposal : AssetProposal) : DbM ε Unit :=
  .update (·.putAssetProposal proposal) fun _ _ _ h => h.putAssetProposal

def putOracle (feedId : H256) (feed : OracleFeed) : DbM ε Unit :=
  .update (·.putOracle feedId feed) fun _ _ _ h => h.putOracle

def storeCode [Crypto] (code : Bytes) : DbM ε H256 :=
  .act (·.storeCode code) (fun _ _ _ _ => rfl) fun _ _ _ h => h.storeCode

def putContractStorage (address : Address) (key value : Bytes) : DbM ε Unit :=
  .update (·.putContractStorage address key value) fun _ _ _ h => h.putContractStorage

def putPoolRaw (poolId : H256) (data : Bytes) : DbM ε Unit :=
  .update (·.putPoolRaw poolId data) fun _ _ _ h => h.putPoolRaw

def putMiningStateRaw (poolId : H256) (data : Bytes) : DbM ε Unit :=
  .update (·.putMiningStateRaw poolId data) fun _ _ _ h => h.putMiningStateRaw

def putGovernanceProposal (id : H256) (data : Bytes) : DbM ε Unit :=
  .update (·.putGovernanceProposal id data) fun _ _ _ h => h.putGovernanceProposal

def setTreasuryAddress (address : Address) : DbM ε Unit :=
  .update (·.setTreasuryAddress address) fun _ _ _ h => h.setTreasuryAddress

def setEpochLength (length : UInt64) : DbM ε Unit :=
  .update (·.setEpochLength length) fun _ _ _ h => h.setEpochLength

def setDexPaused (paused : Bool) : DbM ε Unit := .update (·.setDexPaused paused) fun _ _ _ h =>
    h.setDexPaused

/-- Write a key of the chain metadata. -/
def writeMeta (key value : Bytes) (hk : observationKey .chainMeta key = false) : DbM ε Unit :=
  .update (·.writeMeta key value) fun _ _ _ h => h.writeMeta key value hk

def setBridgePaused (paused : Bool) : DbM ε Unit :=
  writeMeta (ascii "bridge:paused") [if paused then 1 else 0] (by decide)

def setBridgeRelayer (relayer : Address) : DbM ε Unit :=
  writeMeta (ascii "bridge:relayer") relayer.asBytes (by decide)

def markBridgeDepositProcessed (sourceChain : UInt32) (sourceTxHash : H256) : DbM ε Unit :=
  writeMeta (bridgeDepositKey sourceChain sourceTxHash) [1] (by
    rw [bridgeDepositKey, List.append_assoc]
    exact observationKey_append _ (by decide))

def putRegisteredChain (chainId : UInt32) (data : Bytes) : DbM ε Unit :=
  writeMeta (registeredChainKey chainId) data (observationKey_append _ (by decide))

def nextRegisteredChainId : DbM ε UInt32 :=
  .act (·.nextRegisteredChainId) (fun _ _ _ h => h.nextRegisteredChainId_fst) fun _ _ _ h =>
    h.nextRegisteredChainId_snd

/-! ## Parameter overrides -/

def setParamRaw (key : String) (value : Bytes) : DbM ε Unit :=
  writeMeta (paramKey key) value (observationKey_append _ (by decide))

/-- Set a numeric override. -/
def setParamNat (key : String) (width value : Nat) : DbM ε Unit :=
  setParamRaw key (leBytes width value)

def setMinGasPrice (value : Amount) : DbM ε Unit := setParamNat "min_gas_price" 16 value.raw.toNat

def setBaseTransferCost (value : UInt64) : DbM ε Unit :=
  setParamNat "base_transfer_cost" 8 value.toNat

def setCostPerByte (value : UInt64) : DbM ε Unit := setParamNat "cost_per_byte" 8 value.toNat

def setSlashDoubleSignBps (value : UInt16) : DbM ε Unit :=
  setParamNat "slash_double_sign_bps" 2 value.toNat

def setSlashDowntimeBps (value : UInt16) : DbM ε Unit :=
  setParamNat "slash_downtime_bps" 2 value.toNat

def setDowntimeThresholdPct (value : UInt8) : DbM ε Unit :=
  setParamNat "downtime_threshold_pct" 1 value.toNat

def setUnbondingPeriodSecs (value : UInt64) : DbM ε Unit :=
  setParamNat "unbonding_period_secs" 8 value.toNat

def setMaxHoldersPerAsset (value : UInt32) : DbM ε Unit :=
  setParamNat "max_holders_per_asset" 4 value.toNat

def setJurisdictionWhitelist (codesCsv : String) : DbM ε Unit :=
  setParamRaw "jurisdiction_whitelist" (ascii codesCsv)

def setJurisdictionBlacklist (codesCsv : String) : DbM ε Unit :=
  setParamRaw "jurisdiction_blacklist" (ascii codesCsv)

/-! ## More methods that cannot fail -/

def setAddressJurisdiction (address : Address) (country : String) : DbM ε Unit :=
  .update (·.setAddressJurisdiction address country) fun _ _ _ h => h.setAddressJurisdiction

def applySlash (validator : Address) (amount : Amount) : DbM ε Amount :=
  .act (·.applySlash validator amount) (fun _ _ _ h => h.applySlash.1)
    fun _ _ _ h => h.applySlash.2

def recordSlash (validator : Address) (epoch : UInt64) (reason : String) (amount : Amount) :
    DbM ε Unit :=
  .update (·.recordSlash validator epoch reason amount) fun _ _ _ h => h.recordSlash

def markSlashingEvidence (offender : Address) (epoch : UInt64) (slot : UInt32) : DbM ε Unit :=
  .update (·.markSlashingEvidence offender epoch slot) fun _ _ _ h => h.markSlashingEvidence

def setKycApproved (address : Address) (approved : Bool) : DbM ε Unit :=
  .update (·.setKycApproved address approved) fun _ _ _ h => h.setKycApproved

def addUnbondingEntry (address : Address) (entry : UnbondingEntry) : DbM ε Unit :=
  .update (·.addUnbondingEntry address entry) fun _ _ _ h => h.addUnbondingEntry

/-- Run code with a snapshot of the caches, and roll back to it if the code fails. -/
def orRestore {ε' α : Type} (x : DbM ε α) : DbM ε' (Except ε α) :=
  x.orElseRestore (·.snapshot) (fun snapshot db => db.restore snapshot) fun _ _ _ _ _ h h' =>
    h.restore h'

/-! ## Balances -/

/-- Credit an account; an overflow is an error. -/
def addBalance (address : Address) (amount : Amount) : DbM StateError Unit := do
  let account ← getAccount address
  let balance ← okOr (account.balance.checkedAdd amount) (.serialization "balance overflow")
  putAccount address { account with balance }

/-- Debit an account. -/
def subBalance (address : Address) (amount : Amount) : DbM StateError Unit := do
  let account ← getAccount address
  let balance ←
    okOr (account.balance.checkedSub amount) (.insufficientBalance account.balance amount)
  putAccount address { account with balance }

/-- Move balance from one account to another. -/
def transfer (source dest : Address) (amount : Amount) : DbM StateError Unit :=
  if amount.isZero then
    pure ()
  else do
    subBalance source amount
    addBalance dest amount

/-- Release the matured unbonding entries to their owners. A credit that overflows is dropped. -/
def processUnbonding (now : Timestamp) : DbM ε Amount := do
  let entries ← cached (·.unbondingEntries)
  let (releases, total) ← unwrap (unbondingReleases now entries.toList)
  .update (·.dropMatured now) fun _ _ _ h => h.dropMatured
  forEach releases fun r => (addBalance r.1 r.2).ignoreError
  .update (·.dropReleased total) fun _ _ _ h => h.dropReleased
  pure total

/-! ## Assets -/

/-- Add an asset to the registry. -/
def registerAsset (asset : AssetRecord) : DbM StateError Unit := do
  let known ← hasAsset asset.id
  require (!known) (.serialization ("asset already exists: " ++ asset.id.display))
  putAsset asset.id asset

/-- Change a cached asset in place. It is marked as changed before the change, which may fail. -/
def changeAsset (assetId : H256) (missing : ε) (change : AssetRecord → DbM ε AssetRecord) :
    DbM ε Unit := do
  let asset ← getAsset assetId
  let asset ← okOr asset missing
  touchAsset assetId
  let asset ← change asset
  setCachedAsset assetId asset

/-- Set an ownership record, keeping the number of holders. Adding up a record's balance aborts on
overflow. -/
def putOwnership (record : OwnershipRecord) : DbM ε Unit := do
  let prev ← ownershipRecord record.assetId record.owner
  let prevTotal ← unwrap (match prev with
    | some r => r.total
    | none => some .zero)
  let newTotal ← unwrap record.total
  putOwnershipWith record prevTotal newTotal

/-- Move tokens of an asset from one owner to another. -/
def transferAsset (assetId : H256) (source dest : Address) (amount : Amount) :
    DbM StateError Unit :=
  if amount.isZero then
    pure ()
  else do
    let asset ← getAsset assetId
    let asset ← okOr asset (.serialization ("asset not found: " ++ assetId.display))
    require asset.isTradeable (.serialization ("asset not tradeable: " ++ asset.status.str))
    let fromRecord ← getOwnership assetId source
    let debited ← okOr (fromRecord.debit amount) (.insufficientBalance fromRecord.available amount)
    putOwnership debited
    -- read after the debit: for a transfer to oneself this is the debited record
    let toRecord ← getOwnership assetId dest
    let credited ← unwrap (toRecord.credit amount)
    putOwnership credited

/-- Change a cached proposal in place. -/
def changeAssetProposal (id : H256) (missing : ε) (change : AssetProposal → DbM ε AssetProposal) :
    DbM ε Unit := do
  let proposal ← getAssetProposal id
  let proposal ← okOr proposal missing
  let proposal ← change proposal
  setCachedAssetProposal id proposal

/-! ## Oracle feeds and governance -/

/-- Add an oracle feed. -/
def registerOracle (feed : OracleFeed) : DbM StateError Unit := do
  let known ← getOracle feed.feedId
  require (!known.isSome) (.serialization ("oracle feed already exists: " ++ feed.feedId.display))
  putOracle feed.feedId feed

/-- Submit a value to a feed; says whether the quorum was reached. -/
def submitOracle (feedId : H256) (source : Address) (value : Amount) (timestamp : Timestamp) :
    DbM StateError Bool := do
  let feed ← getOracle feedId
  let feed ← okOr feed (.serialization ("oracle feed not found: " ++ feedId.display))
  require (feed.isAuthorized source)
    (.serialization ("address is not an authorized source for feed " ++ feedId.display))
  let (reached, feed) := feed.submit source value timestamp
  putOracle feedId feed
  pure reached

/-- The next governance proposal number, moving the counter on. A stored counter that is not eight
bytes long aborts. In memory there is no counter and the number is always zero. -/
def nextGovernanceId : DbM ε UInt64 := do
  let stored ← .view (·.storage.read .chainMeta governanceCounterKey) fun _ _ _ h =>
    h.read _ _ (by decide)
  let current ← unwrap (match stored with
    | some v => if v.length = 8 then some (UInt64.ofNat (beNat v)) else none
    | none => some 0)
  writeMeta governanceCounterKey (beBytes 8 (current + 1).toNat) (by decide)
  pure current

end Db

/-! ## Settlement -/

/-- A frame that says nothing of the supply. -/
abbrev SettleFrame := { F : Frame // ∀ minted burned, F.supply minted burned }

/-- Code on the state database that leaves the chain's observations alone and may count supply. -/
abbrev SettleM := Confined fun F : SettleFrame => F.1.Linked

namespace SettleM

variable {ε α : Type}

/-- Code that leaves the supply alone, as part of code that may count it. -/
def lift (x : DbM ε α) : SettleM ε α := x.restrict Subtype.val

theorem run_lift (x : DbM ε α) (s : StateDB) : (lift x).run s = x.run s := rfl

def recordMintMilli (milli : UInt64) : SettleM ε Unit :=
  .update (·.recordMintMilli milli) fun F _ _ h => h.recordMintMilli F.2 milli

def recordBurnMilli (milli : UInt64) : SettleM ε Unit :=
  .update (·.recordBurnMilli milli) fun F _ _ h => h.recordBurnMilli F.2 milli

/-- Read something off the caches. -/
def cached {β : Type} (g : StateSnapshot → β) : SettleM ε β := lift (Db.cached g)

end SettleM

end Vtt
