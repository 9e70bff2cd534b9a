import Vtt.Crypto
import Vtt.State.Records
import Vtt.Storage

/-!
# The state database

The world state as in-memory caches over an optional store: every write goes to the cache and to the
store, and some of the reads fall through from the cache to the store. The caches that a snapshot
saves are the fields of `StateSnapshot`; the state database has them all and adds the observations
of the chain, the trie with its bookkeeping, and the store itself.
-/

namespace Vtt

open Lib
open Borsh (serialize)

/-- The errors of the state database. -/
inductive StateError where
  | insufficientBalance (held needed : Amount)
  | accountNotFound (address : Address)
  | nonceMismatch (expected got : UInt64)
  | serialization (message : String)
deriving DecidableEq

/-- The text of an error in messages. -/
def StateError.display : StateError → String
  | insufficientBalance held needed =>
    "insufficient balance: have " ++ held.display ++ ", need " ++ needed.display
  | accountNotFound address => "account not found: " ++ address.display
  | nonceMismatch expected got =>
    "nonce mismatch: expected " ++ toString expected ++ ", got " ++ toString got
  | serialization message => "serialization error: " ++ message

/-- The key of a slot: the validator, the epoch and the slot. -/
abbrev SlotKey := Address × UInt64 × UInt32

instance : Std.TransOrd SlotKey := inferInstance

instance : Std.TransOrd (Address × Bytes) := inferInstance

/-- The part of the state that is saved for a rollback. -/
structure StateSnapshot where
  accounts : FinMap Address AccountState
  assets : FinMap H256 AssetRecord
  ownership : FinMap (H256 × Address) OwnershipRecord
  oracles : FinMap H256 OracleFeed
  contractCode : FinMap H256 Bytes
  contractStorage : FinMap (Address × Bytes) Bytes
  pools : FinMap H256 Bytes
  assetProposals : FinMap H256 AssetProposal
  miningStates : FinMap H256 Bytes
  governanceProposals : FinMap H256 Bytes
  unbondingEntries : FinMap Address (List UnbondingEntry)
  treasuryAddress : Address
  epochLength : UInt64
  dexPaused : Bool
  dirtyPools : List H256
  assetHolderCount : FinMap H256 UInt32
  slashingSeen : FinSet SlotKey
  kycApproved : FinSet Address
  stakers : FinSet Address
  totalMintedMilli : UInt64
  totalBurnedMilli : UInt64

/-- The Merkle trie over the state: a sorted map from keys to values. The root that the code caches
between changes is the one it would compute, so it is not part of the model. -/
structure StateTrie where
  entries : FinMap Bytes Bytes

/-- The state database. -/
structure StateDB extends StateSnapshot where
  blockCommitments : FinMap SlotKey H256
  missedSlots : FinMap (UInt64 × Address) UInt32
  trie : StateTrie
  dirty : List Address
  dirtyAssets : List H256
  storage : Storage

namespace StateDB

/-- An empty state database over the given store. -/
def emptyOn (storage : Storage) : StateDB where
  accounts := ∅
  assets := ∅
  ownership := ∅
  oracles := ∅
  contractCode := ∅
  contractStorage := ∅
  pools := ∅
  assetProposals := ∅
  miningStates := ∅
  governanceProposals := ∅
  unbondingEntries := ∅
  treasuryAddress := .zero
  epochLength := 1200
  dexPaused := false
  dirtyPools := []
  assetHolderCount := ∅
  slashingSeen := ∅
  kycApproved := ∅
  stakers := ∅
  totalMintedMilli := 0
  totalBurnedMilli := 0
  blockCommitments := ∅
  missedSlots := ∅
  trie := ⟨∅⟩
  dirty := []
  dirtyAssets := []
  storage

/-- An empty state database in memory. -/
def new : StateDB := emptyOn none

/-! ## Accounts -/

/-- The account of an address, from the cache or else from the store; an empty one by default. -/
def getAccount (db : StateDB) (address : Address) : AccountState :=
  match db.accounts[address]? with
  | some account => account
  | none =>
    ((db.storage.read .accounts address.asBytes).bind Borsh.tryFromSlice).getD .default

/-- The store with the index of stakers written to it. -/
def storeStakers (storage : Storage) (stakers : FinSet Address) : Storage :=
  storage.write .chainMeta (ascii "stakers:set") (serialize stakers.toList)

/-- Whether an account has stake of its own. -/
def hasSelfStake (state : AccountState) : Bool :=
  match state.staking with
  | some s => !s.selfStake.isZero
  | none => false

/-- Set an account, keeping the index of stakers. -/
def putAccount (db : StateDB) (address : Address) (state : AccountState) : StateDB :=
  let staker := hasSelfStake state
  let stakers := if staker then db.stakers.insert address else db.stakers.erase address
  let storage := db.storage.write .accounts address.asBytes (serialize state)
  { db with
    dirty := db.dirty ++ [address]
    stakers
    accounts := db.accounts.insert address state
    -- the index is written only when it changed
    storage := if staker != db.stakers.contains address then storeStakers storage stakers
      else storage }

def accountExists (db : StateDB) (address : Address) : Bool :=
  db.accounts.contains address || (db.storage.read .accounts address.asBytes).isSome

def getBalance (db : StateDB) (address : Address) : Amount := (db.getAccount address).balance

def getNonce (db : StateDB) (address : Address) : UInt64 := (db.getAccount address).nonce

/-- Increase the nonce of an account, modulo the word size. -/
def incrementNonce (db : StateDB) (address : Address) : StateDB :=
  let account := db.getAccount address
  db.putAccount address { account with nonce := account.nonce + 1 }

/-! ## Assets and ownership -/

/-- Whether an asset is in the registry. -/
def hasAsset (db : StateDB) (assetId : H256) : Bool :=
  db.assets.contains assetId || (db.storage.read .assets assetId.asBytes).isSome

/-- An asset in the cache. -/
def getAsset (db : StateDB) (assetId : H256) : Option AssetRecord := db.assets[assetId]?

/-- An asset, from the cache or else from the store. -/
def getAssetOwned (db : StateDB) (assetId : H256) : Option AssetRecord :=
  match db.assets[assetId]? with
  | some asset => some asset
  | none => (db.storage.read .assets assetId.asBytes).bind Borsh.tryFromSlice

/-- Mark a cached asset as changed. -/
def touchAsset (db : StateDB) (assetId : H256) : StateDB :=
  { db with dirtyAssets := db.dirtyAssets ++ [assetId] }

/-- Set a cached asset; the store is not written. -/
def setCachedAsset (db : StateDB) (assetId : H256) (asset : AssetRecord) : StateDB :=
  { db with assets := db.assets.insert assetId asset }

/-- Add or replace an asset. -/
def putAsset (db : StateDB) (assetId : H256) (asset : AssetRecord) : StateDB :=
  { db with
    dirtyAssets := db.dirtyAssets ++ [assetId]
    assets := db.assets.insert assetId asset
    storage := db.storage.write .assets assetId.asBytes (serialize asset) }

/-- What an owner holds of an asset. -/
def getOwnership (db : StateDB) (assetId : H256) (owner : Address) : OwnershipRecord :=
  (db.ownership[(assetId, owner)]?).getD (.new assetId owner)

/-- The key of an ownership record in the store. -/
def ownershipKey (assetId : H256) (owner : Address) : Bytes := assetId.asBytes ++ owner.asBytes

/-- The key of a holder count in the store. -/
def holdersKey (assetId : H256) : Bytes := ascii "holders:" ++ assetId.asBytes

/-- Set an ownership record, with the totals before and after already computed. -/
def putOwnershipWith (db : StateDB) (record : OwnershipRecord) (prevTotal newTotal : Amount) :
    StateDB :=
  let wasHolder := !prevTotal.isZero
  let isHolder := !newTotal.isZero
  let count := (db.assetHolderCount[record.assetId]?).getD 0
  let updated := if isHolder then U32.saturatingAdd count 1 else U32.saturatingSub count 1
  let changed := wasHolder != isHolder
  let storage :=
    db.storage.write .ownership (ownershipKey record.assetId record.owner) (serialize record)
  { db with
    dirtyAssets := db.dirtyAssets ++ [record.assetId]
    ownership := db.ownership.insert (record.assetId, record.owner) record
    assetHolderCount :=
      if changed then db.assetHolderCount.insert record.assetId updated else db.assetHolderCount
    storage :=
      if changed then storage.write .chainMeta (holdersKey record.assetId) (leBytes 4 updated.toNat)
      else storage }

/-- The number of holders of an asset. -/
def holderCount (db : StateDB) (assetId : H256) : UInt32 :=
  (db.assetHolderCount[assetId]?).getD 0

/-- The ownership records of an asset. -/
def ownershipForAsset (db : StateDB) (assetId : H256) : List OwnershipRecord :=
  (db.ownership.toList.filter fun e => e.1.1 == assetId).map (·.2)

/-! ## Asset proposals -/

def getAssetProposal (db : StateDB) (id : H256) : Option AssetProposal := db.assetProposals[id]?

/-- Set a cached proposal; the store is not written. -/
def setCachedAssetProposal (db : StateDB) (id : H256) (proposal : AssetProposal) : StateDB :=
  { db with assetProposals := db.assetProposals.insert id proposal }

def putAssetProposal (db : StateDB) (proposal : AssetProposal) : StateDB :=
  { db with
    assetProposals := db.assetProposals.insert proposal.id proposal
    storage := db.storage.write .assetProposals proposal.id.asBytes (serialize proposal) }

/-! ## Oracle feeds -/

def getOracle (db : StateDB) (feedId : H256) : Option OracleFeed := db.oracles[feedId]?

/-- Add or replace an oracle feed. -/
def putOracle (db : StateDB) (feedId : H256) (feed : OracleFeed) : StateDB :=
  { db with
    oracles := db.oracles.insert feedId feed
    storage := db.storage.write .oracles feedId.asBytes (serialize feed) }

/-! ## Contracts -/

/-- The code hash and the state with the code stored under it. -/
def storeCode [Crypto] (db : StateDB) (code : Bytes) : H256 × StateDB :=
  let hash := blake3Hash code
  (hash,
    { db with
      contractCode := db.contractCode.insert hash code
      storage := db.storage.write .contractCode hash.asBytes code })

/-- Contract code in the cache. -/
def getCode (db : StateDB) (codeHash : H256) : Option Bytes := db.contractCode[codeHash]?

/-- Contract code, from the cache or else from the store. -/
def getCodeOwned (db : StateDB) (codeHash : H256) : Option Bytes :=
  match db.contractCode[codeHash]? with
  | some code => some code
  | none => db.storage.read .contractCode codeHash.asBytes

def getContractStorage (db : StateDB) (address : Address) (key : Bytes) : Option Bytes :=
  match db.contractStorage[(address, key)]? with
  | some value => some value
  | none => db.storage.read .contractStorage (address.asBytes ++ key)

def putContractStorage (db : StateDB) (address : Address) (key value : Bytes) : StateDB :=
  { db with
    dirty := db.dirty ++ [address]
    contractStorage := db.contractStorage.insert (address, key) value
    storage := db.storage.write .contractStorage (address.asBytes ++ key) value }

def deleteContractStorage (db : StateDB) (address : Address) (key : Bytes) : StateDB :=
  { db with
    dirty := db.dirty ++ [address]
    contractStorage := db.contractStorage.erase (address, key)
    storage := db.storage.remove .contractStorage (address.asBytes ++ key) }

/-- The most entries of a contract's storage that are handed to a call. -/
def maxEagerEntries : Nat := 10000

/-- The cached storage of a contract, cut off at a number of entries. -/
def loadContractStorage (db : StateDB) (address : Address) : FinMap Bytes Bytes :=
  let entries := (db.contractStorage.toList.filter fun e => e.1.1 == address).take maxEagerEntries
  entries.foldl (fun m e => m.insert e.1.2 e.2) ∅

/-! ## Pools and mining -/

def getPoolRaw (db : StateDB) (poolId : H256) : Option Bytes := db.pools[poolId]?

def getPoolRawOwned (db : StateDB) (poolId : H256) : Option Bytes :=
  match db.pools[poolId]? with
  | some data => some data
  | none => db.storage.read .pools poolId.asBytes

def putPoolRaw (db : StateDB) (poolId : H256) (data : Bytes) : StateDB :=
  { db with
    pools := db.pools.insert poolId data
    dirtyPools := db.dirtyPools ++ [poolId]
    storage := db.storage.write .pools poolId.asBytes data }

def hasPool (db : StateDB) (poolId : H256) : Bool :=
  db.pools.contains poolId || (db.storage.read .pools poolId.asBytes).isSome

def getMiningStateRaw (db : StateDB) (poolId : H256) : Option Bytes := db.miningStates[poolId]?

def putMiningStateRaw (db : StateDB) (poolId : H256) (data : Bytes) : StateDB :=
  { db with
    miningStates := db.miningStates.insert poolId data
    storage := db.storage.write .miningStates poolId.asBytes data }

def hasMiningState (db : StateDB) (poolId : H256) : Bool :=
  db.miningStates.contains poolId || (db.storage.read .miningStates poolId.asBytes).isSome

/-! ## Governance proposals -/

/-- The key of a governance proposal in the store. -/
def governanceKey (id : H256) : Bytes := ascii "gov:" ++ id.asBytes

def putGovernanceProposal (db : StateDB) (id : H256) (data : Bytes) : StateDB :=
  { db with
    governanceProposals := db.governanceProposals.insert id data
    storage := db.storage.write .chainMeta (governanceKey id) data }

def getGovernanceProposalOwned (db : StateDB) (id : H256) : Option Bytes :=
  match db.governanceProposals[id]? with
  | some data => some data
  | none => db.storage.read .chainMeta (governanceKey id)

/-! ## Chain parameters and supply -/

def setTreasuryAddress (db : StateDB) (address : Address) : StateDB :=
  { db with
    treasuryAddress := address
    storage := db.storage.write .chainMeta (ascii "treasury_address") address.asBytes }

def setEpochLength (db : StateDB) (length : UInt64) : StateDB :=
  { db with
    epochLength := length
    storage := db.storage.write .chainMeta (ascii "epoch_length") (leBytes 8 length.toNat) }

def setDexPaused (db : StateDB) (paused : Bool) : StateDB :=
  { db with
    dexPaused := paused
    storage := db.storage.write .chainMeta (ascii "dex:paused") [if paused then 1 else 0] }

/-- Count newly minted tokens, in thousandths. -/
def recordMintMilli (db : StateDB) (milli : UInt64) : StateDB :=
  let total := U64.saturatingAdd db.totalMintedMilli milli
  { db with
    totalMintedMilli := total
    storage := db.storage.write .chainMeta (ascii "supply:minted_milli") (leBytes 8 total.toNat) }

/-- Count burned tokens, in thousandths. -/
def recordBurnMilli (db : StateDB) (milli : UInt64) : StateDB :=
  let total := U64.saturatingAdd db.totalBurnedMilli milli
  { db with
    totalBurnedMilli := total
    storage := db.storage.write .chainMeta (ascii "supply:burned_milli") (leBytes 8 total.toNat) }

end StateDB

end Vtt
