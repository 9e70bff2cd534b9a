import Vtt.Lib.Text
import Vtt.State.StateDB

/-!
# Parameters kept in the store

The governance overrides of protocol parameters, the bridge, the registered chains and the
jurisdictions of addresses live in the store only: in memory the overrides read as unset and
setting them does nothing.
-/

namespace Vtt

open Lib

namespace StateDB

/-- The state with a key of the chain metadata written through. -/
def writeMeta (db : StateDB) (key value : Bytes) : StateDB :=
  { db with storage := db.storage.write .chainMeta key value }

/-! ## The bridge -/

def isBridgePaused (db : StateDB) : Bool :=
  db.storage.read .chainMeta (ascii "bridge:paused") == some [1]

/-- The only address that may credit deposits; the zero address if there is none. -/
def bridgeRelayer (db : StateDB) : Address :=
  match db.storage.read .chainMeta (ascii "bridge:relayer") with
  | some v => if v.length = 20 then .fromSlice v else .zero
  | none => .zero

/-- The key that marks a deposit as credited. -/
def bridgeDepositKey (sourceChain : UInt32) (sourceTxHash : H256) : Bytes :=
  ascii "bridge:deposit:v2:" ++ leBytes 4 sourceChain.toNat ++ sourceTxHash.asBytes

/-- The key that marked a deposit before the mark named the source chain. -/
def legacyBridgeDepositKey (sourceTxHash : H256) : Bytes :=
  ascii "bridge:deposit:" ++ sourceTxHash.asBytes

def bridgeDepositProcessed (db : StateDB) (sourceChain : UInt32) (sourceTxHash : H256) : Bool :=
  (db.storage.read .chainMeta (bridgeDepositKey sourceChain sourceTxHash)).isSome ||
    (db.storage.read .chainMeta (legacyBridgeDepositKey sourceTxHash)).isSome

/-! ## Registered chains -/

/-- The key of a registered chain. -/
def registeredChainKey (chainId : UInt32) : Bytes :=
  ascii "chain:registered:" ++ leBytes 4 chainId.toNat

def getRegisteredChain (db : StateDB) (chainId : UInt32) : Option Bytes :=
  db.storage.read .chainMeta (registeredChainKey chainId)

/-- The registered chains with their numbers. -/
def iterRegisteredChains (db : StateDB) : List (UInt32 × Bytes) :=
  let label := ascii "chain:registered:"
  let entries := db.storage.elim [] fun store => store.prefixScan .chainMeta label
  entries.filterMap fun e =>
    let suffix := e.1.drop label.length
    if suffix.length = 4 then some (UInt32.ofNat (leNat suffix), e.2) else none

/-- The next free chain number, and the state with the counter moved on. -/
def nextRegisteredChainId (db : StateDB) : UInt32 × StateDB :=
  let key := ascii "chain:registered:next_id"
  let current : UInt32 :=
    match db.storage.read .chainMeta key with
    | some b => if b.length = 4 then UInt32.ofNat (leNat b) else 1
    | none => 1
  (current, db.writeMeta key (leBytes 4 (current + 1).toNat))

/-- The key of the counter of governance proposals. -/
def governanceCounterKey : Bytes := ascii "governance:next_id"

/-! ## Parameter overrides -/

/-- The key of a parameter override. -/
def paramKey (key : String) : Bytes := ascii "param:" ++ ascii key

def getParamRaw (db : StateDB) (key : String) : Option Bytes :=
  db.storage.read .chainMeta (paramKey key)

/-- A numeric override of exactly the given number of bytes, least significant first. -/
def getParamNat (db : StateDB) (key : String) (width : Nat) : Option Nat :=
  (db.getParamRaw key).bind fun raw => if raw.length = width then some (leNat raw) else none

def getMinGasPriceOverride (db : StateDB) : Option Amount :=
  (db.getParamNat "min_gas_price" 16).map fun n => ⟨BitVec.ofNat 128 n⟩

def getBaseTransferCostOverride (db : StateDB) : Option UInt64 :=
  (db.getParamNat "base_transfer_cost" 8).map UInt64.ofNat

def getCostPerByteOverride (db : StateDB) : Option UInt64 :=
  (db.getParamNat "cost_per_byte" 8).map UInt64.ofNat

def getSlashDoubleSignBpsOverride (db : StateDB) : Option UInt16 :=
  (db.getParamNat "slash_double_sign_bps" 2).map UInt16.ofNat

def getSlashDowntimeBpsOverride (db : StateDB) : Option UInt16 :=
  (db.getParamNat "slash_downtime_bps" 2).map UInt16.ofNat

def getDowntimeThresholdPctOverride (db : StateDB) : Option UInt8 :=
  (db.getParamNat "downtime_threshold_pct" 1).map UInt8.ofNat

def getUnbondingPeriodSecsOverride (db : StateDB) : Option UInt64 :=
  (db.getParamNat "unbonding_period_secs" 8).map UInt64.ofNat

/-- The unbonding period in milliseconds, from the override or else from the given seconds. -/
def effectiveUnbondingPeriodMs (db : StateDB) (fallbackSecs : UInt64) : UInt64 :=
  U64.saturatingMul (db.getUnbondingPeriodSecsOverride.getD fallbackSecs) 1000

/-- The most holders an asset may have; zero is no limit. -/
def getMaxHoldersPerAsset (db : StateDB) : UInt32 :=
  UInt32.ofNat ((db.getParamNat "max_holders_per_asset" 4).getD 0)

/-! ## Jurisdictions -/

/-- The upper-case country codes of a comma-separated list; nothing if it is not UTF-8. -/
def decodeCountryList (data : Option Bytes) : List String :=
  match data.bind fun bs => String.fromUTF8? ⟨bs.toArray⟩ with
  | none => []
  | some s =>
    let codes := (s.toList.splitOn ',').map fun c => (Text.trim c).map Char.toUpper
    (codes.filter fun c => !c.isEmpty).map String.ofList

def getJurisdictionWhitelist (db : StateDB) : List String :=
  decodeCountryList (db.getParamRaw "jurisdiction_whitelist")

def getJurisdictionBlacklist (db : StateDB) : List String :=
  decodeCountryList (db.getParamRaw "jurisdiction_blacklist")

/-- The key of an address's jurisdiction. -/
def jurisdictionKey (address : Address) : Bytes := ascii "jur:" ++ address.asBytes

def getAddressJurisdiction (db : StateDB) (address : Address) : Option String :=
  (db.storage.read .chainMeta (jurisdictionKey address)).bind fun bs =>
    String.fromUTF8? ⟨bs.toArray⟩

/-- Record the jurisdiction of an address; an empty one clears it. -/
def setAddressJurisdiction (db : StateDB) (address : Address) (country : String) : StateDB :=
  { db with
    storage :=
      if country.isEmpty then db.storage.remove .chainMeta (jurisdictionKey address)
      else db.storage.write .chainMeta (jurisdictionKey address) (ascii country) }

/-! ## Finality -/

def setFinalizedBlock (db : StateDB) (number : UInt64) : StateDB :=
  db.writeMeta (ascii "finalized_block") (beBytes 8 number.toNat)

/-- The stored finalized height; zero if there is none. -/
def finalizedBlock (db : StateDB) : UInt64 :=
  match db.storage.read .chainMeta (ascii "finalized_block") with
  | some v => if v.length = 8 then UInt64.ofNat (beNat v) else 0
  | none => 0

end StateDB

end Vtt
