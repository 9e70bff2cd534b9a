import Vtt.State.Root

/-!
# What the getters show of a state

All that the getters of the state database return. The observed blocks, the missed slots, the trie
and the lists of changes have no getter.
-/

namespace Vtt

open Lib

/-- The answers of all getters of a state. -/
structure StateView where
  caches : StateSnapshot
  getAccount : Address → AccountState
  accountExists : Address → Bool
  getAssetOwned : H256 → Option AssetRecord
  getCodeOwned : H256 → Option Bytes
  getContractStorage : Address → Bytes → Option Bytes
  getPoolRawOwned : H256 → Option Bytes
  hasPool : H256 → Bool
  hasMiningState : H256 → Bool
  getGovernanceProposalOwned : H256 → Option Bytes
  isBridgePaused : Bool
  bridgeRelayer : Address
  bridgeDepositProcessed : UInt32 → H256 → Bool
  getRegisteredChain : UInt32 → Option Bytes
  iterRegisteredChains : List (UInt32 × Bytes)
  getMinGasPriceOverride : Option Amount
  getBaseTransferCostOverride : Option UInt64
  getCostPerByteOverride : Option UInt64
  getSlashDoubleSignBpsOverride : Option UInt16
  getSlashDowntimeBpsOverride : Option UInt16
  getDowntimeThresholdPctOverride : Option UInt8
  getUnbondingPeriodSecsOverride : Option UInt64
  getMaxHoldersPerAsset : UInt32
  getJurisdictionWhitelist : List String
  getJurisdictionBlacklist : List String
  getAddressJurisdiction : Address → Option String
  slashingHistoryRaw : Address → List (UInt64 × String × U128)
  finalizedBlock : UInt64

namespace StateDB

/-- The caches, without the list of pools to flush. -/
def caches (db : StateDB) : StateSnapshot := { db.snapshot with dirtyPools := [] }

/-- The answers of all getters. -/
def view (db : StateDB) : StateView where
  caches := db.caches
  getAccount := db.getAccount
  accountExists := db.accountExists
  getAssetOwned := db.getAssetOwned
  getCodeOwned := db.getCodeOwned
  getContractStorage := db.getContractStorage
  getPoolRawOwned := db.getPoolRawOwned
  hasPool := db.hasPool
  hasMiningState := db.hasMiningState
  getGovernanceProposalOwned := db.getGovernanceProposalOwned
  isBridgePaused := db.isBridgePaused
  bridgeRelayer := db.bridgeRelayer
  bridgeDepositProcessed := db.bridgeDepositProcessed
  getRegisteredChain := db.getRegisteredChain
  iterRegisteredChains := db.iterRegisteredChains
  getMinGasPriceOverride := db.getMinGasPriceOverride
  getBaseTransferCostOverride := db.getBaseTransferCostOverride
  getCostPerByteOverride := db.getCostPerByteOverride
  getSlashDoubleSignBpsOverride := db.getSlashDoubleSignBpsOverride
  getSlashDowntimeBpsOverride := db.getSlashDowntimeBpsOverride
  getDowntimeThresholdPctOverride := db.getDowntimeThresholdPctOverride
  getUnbondingPeriodSecsOverride := db.getUnbondingPeriodSecsOverride
  getMaxHoldersPerAsset := db.getMaxHoldersPerAsset
  getJurisdictionWhitelist := db.getJurisdictionWhitelist
  getJurisdictionBlacklist := db.getJurisdictionBlacklist
  getAddressJurisdiction := db.getAddressJurisdiction
  slashingHistoryRaw := db.slashingHistoryRaw
  finalizedBlock := db.finalizedBlock

/-- The getters look at the caches and the store only. -/
theorem view_congr {s t : StateDB} (hcaches : s.caches = t.caches)
    (hstorage : s.storage = t.storage) :
    s.view = t.view := by
  obtain ⟨⟨⟩, _, _, _, _, _, _⟩ := s
  obtain ⟨⟨⟩, _, _, _, _, _, _⟩ := t
  obtain ⟨rfl, rfl, rfl, rfl, rfl, rfl, rfl, rfl, rfl, rfl, rfl, rfl, rfl, rfl, -, rfl,
    rfl, rfl, rfl, rfl, rfl⟩ := hcaches
  cases hstorage
  rfl

end StateDB

end Vtt
