import Vtt.State.Root

/-!
# Attaching a store and starting from one

A fresh state database is given a store by writing its caches out. On a restart the caches that
reads do not fall through are loaded from the store again and the trie is rebuilt from them.
-/

namespace Vtt

open Lib Std ExtTreeMap

namespace StateDB

open StateSnapshot

/-- The store with the schema version stamped on it; aborts on another version. -/
def verifyOrStampSchemaVersion (store : Store) : Option Store :=
  match store.get .chainMeta (ascii "schema:version") with
  | some bytes => if bytes = leBytes 4 1 then some store else none
  | none => some (store.put .chainMeta (ascii "schema:version") (leBytes 4 1))

/-- Count one holder more of an asset if a record holds anything. -/
def countHolder (counts : FinMap H256 UInt32) (record : (H256 × Address) × OwnershipRecord) :
    Option (FinMap H256 UInt32) :=
  record.2.total.map fun total =>
    if total.isZero then counts
    else counts.insert record.1.1 ((counts[record.1.1]?).getD 0 + 1)

/-- The number of holders of every asset. -/
def recountHolders (ownership : FinMap (H256 × Address) OwnershipRecord) :
    Option (FinMap H256 UInt32) :=
  ownership.toList.foldlM countHolder ∅

/-- The accounts with stake of their own. -/
def stakersOf (accounts : FinMap Address AccountState) : FinSet Address :=
  ExtTreeSet.ofList ((accounts.toList.filter fun a => hasSelfStake a.2).map (·.1)) compare

/-- A store with the caches of a snapshot written to it. -/
def writeCaches (storage : Storage) (s : StateSnapshot) : Storage :=
  let storage := storage.writeAll .accounts s.accountEntries
  let storage := storage.writeAll .assets (recordEntries s.assets)
  let storage := storage.writeAll .ownership s.ownershipEntries
  let storage := storage.writeAll .chainMeta s.holderEntries
  let storage := storage.writeAll .oracles (recordEntries s.oracles)
  let storage := storage.writeAll .contractCode (rawEntries s.contractCode)
  let storage := storage.writeAll .contractStorage s.contractStorageEntries
  let storage := storage.writeAll .pools (rawEntries s.pools)
  let storage := storage.writeAll .miningStates (rawEntries s.miningStates)
  let storage := storage.writeAll .assetProposals (recordEntries s.assetProposals)
  let storage := storage.writeAll .chainMeta s.governanceEntries
  let storage := if s.treasuryAddress = .zero then storage
    else storage.write .chainMeta (ascii "treasury_address") s.treasuryAddress.asBytes
  let storage := storage.write .chainMeta (ascii "epoch_length") (leBytes 8 s.epochLength.toNat)
  storage.write .chainMeta (ascii "dex:paused") [if s.dexPaused then 1 else 0]

/-- Attach a store, writing everything that is in memory to it. -/
def attachStorage (db : StateDB) (store : Store) : Option StateDB := do
  let holders ← recountHolders db.ownership
  let db := { db with assetHolderCount := holders }
  let written ← writeCaches (some store) db.toStateSnapshot
  let stamped ← verifyOrStampSchemaVersion written
  let storage := storeUnbonding (some stamped) db.unbondingEntries
  let storage := storeSlashingSeen storage db.slashingSeen
  let storage := if db.kycApproved.isEmpty then storage else storeKycApproved storage db.kycApproved
  let storage := storeBlockCommitments storage db.blockCommitments
  let storage := storeMissedSlots storage db.missedSlots
  let stakers := stakersOf db.accounts
  pure { db with stakers, storage := storeStakers storage stakers }

/-! ## Loading -/

/-- A blob of the chain metadata, decoded. -/
def loadMeta (α : Type) [Borsh α] (store : Store) (key : String) : Option α :=
  (store.get .chainMeta (ascii key)).bind Borsh.tryFromSlice

/-- A counter of eight bytes; zero if it cannot be read. -/
def loadCounter (store : Store) (key : String) : UInt64 :=
  match store.get .chainMeta (ascii key) with
  | some bytes => if bytes.length = 8 then UInt64.ofNat (leNat bytes) else 0
  | none => 0

/-- The unbonding entries, or those of the layout that did not name the validator. -/
def loadUnbonding (store : Store) : FinMap Address (List UnbondingEntry) :=
  match loadMeta (List (Address × List UnbondingEntry)) store "unbonding:all" with
  | some items => ofList items compare
  | none =>
    match loadMeta (List (Address × List (Amount × UInt64))) store "unbonding:all" with
    | some legacy =>
      let migrated :=
        legacy.map fun e => (e.1, e.2.map fun u => (⟨u.1, u.2, .zero⟩ : UnbondingEntry))
      ofList migrated compare
    | none => ∅

/-- The entries of a column under 32-byte keys that can be decoded. -/
def loadHashed {α : Type} (store : Store) (column : Column) (decode : Bytes → Option α) :
    FinMap H256 α :=
  let entries := (store.prefixScan column []).filterMap fun e =>
    if e.1.length = 32 then (decode e.2).map fun value => (H256.fromSlice e.1, value) else none
  ofList entries compare

/-- The entries of the chain metadata under a label and a 32-byte key that can be decoded. -/
def loadLabelled {α : Type} (store : Store) (label : String) (decode : Bytes → Option α) :
    FinMap H256 α :=
  let start := ascii label
  let entries := (store.prefixScan .chainMeta start).filterMap fun e =>
    if e.1.length = start.length + 32 then
      (decode e.2).map fun value => (H256.fromSlice (e.1.drop start.length), value)
    else none
  ofList entries compare

/-- A stored holder count. -/
def decodeCount (bytes : Bytes) : Option UInt32 :=
  if bytes.length = 4 then some (UInt32.ofNat (leNat bytes)) else none

/-- The stored ownership records. -/
def loadOwnership (store : Store) : FinMap (H256 × Address) OwnershipRecord :=
  let entries := (store.prefixScan .ownership []).filterMap fun e =>
    if e.1.length = 52 then
      (Borsh.tryFromSlice e.2).map fun record =>
        ((H256.fromSlice (e.1.take 32), Address.fromSlice (e.1.drop 32)), record)
    else none
  ofList entries compare

/-- The stored contract storage. -/
def loadContracts (store : Store) : FinMap (Address × Bytes) Bytes :=
  let entries := (store.prefixScan .contractStorage []).filterMap fun e =>
    if 20 ≤ e.1.length then some ((Address.fromSlice (e.1.take 20), e.1.drop 20), e.2) else none
  ofList entries compare

/-- The accounts of the given addresses, as far as they are in the store. -/
def loadAccounts (store : Store) (addresses : FinSet Address) : FinMap Address AccountState :=
  let entries := addresses.toList.filterMap fun a =>
    ((store.get .accounts a.asBytes).bind Borsh.tryFromSlice).map fun account => (a, account)
  ofList entries compare

/-- A set of the chain metadata. -/
def loadSet {α : Type} [Borsh α] [Ord α] (store : Store) (key : String) : FinSet α :=
  ExtTreeSet.ofList ((loadMeta (List α) store key).getD []) compare

/-- A map of the chain metadata. -/
def loadMap {κ ν : Type} [Borsh κ] [Borsh ν] [Ord κ] (store : Store) (key : String) : FinMap κ ν :=
  ofList ((loadMeta (List (κ × ν)) store key).getD []) compare

/-- What is in the store, without the trie. The treasury, the epoch length and the pause of the
exchange are not loaded. -/
def loadCaches (store : Store) : StateDB :=
  let stakers : FinSet Address := loadSet store "stakers:set"
  { emptyOn (some store) with
    slashingSeen := loadSet store "slashing:seen"
    unbondingEntries := loadUnbonding store
    kycApproved := loadSet store "kyc:approved"
    blockCommitments := loadMap store "block:commitments"
    missedSlots := loadMap store "missed:slots"
    stakers
    totalMintedMilli := loadCounter store "supply:minted_milli"
    totalBurnedMilli := loadCounter store "supply:burned_milli"
    assetHolderCount := loadLabelled store "holders:" decodeCount
    accounts := loadAccounts store stakers
    assets := loadHashed store .assets Borsh.tryFromSlice
    pools := loadHashed store .pools some
    miningStates := loadHashed store .miningStates some
    assetProposals := loadHashed store .assetProposals Borsh.tryFromSlice
    oracles := loadHashed store .oracles Borsh.tryFromSlice
    governanceProposals := loadLabelled store "gov:" some
    ownership := loadOwnership store
    contractCode := loadHashed store .contractCode some
    contractStorage := loadContracts store }

/-- Count the holders again if there are records but no counts, as in an older store. -/
def backfillHolders (db : StateDB) : Option StateDB :=
  if db.assetHolderCount.isEmpty ∧ !db.ownership.isEmpty then do
    let holders ← recountHolders db.ownership
    let db := { db with assetHolderCount := holders }
    pure { db with storage := db.storage.writeAll .chainMeta db.holderEntries }
  else some db

/-- Insert everything that is cached into the trie. -/
def rebuildTrie (db : StateDB) : StateDB :=
  let accounts := db.accounts.toList.filterMap fun a =>
    if a.2.isEmpty then none else some (a.1.asBytes, Borsh.serialize a.2)
  let entries := accounts ++ labelled "asset:" (recordEntries db.assets) ++
    labelled "pool:" (rawEntries db.pools) ++ db.flushedEntries
  { db with trie := db.trie.insertAll entries }

/-- The state database of a restart; aborts on a store of another schema version. -/
def withStorage (store : Store) : Option StateDB := do
  let store ← verifyOrStampSchemaVersion store
  let db ← backfillHolders (loadCaches store)
  pure db.rebuildTrie

/-- Rebuild the index of stakers from a genesis state, for a store that has none. An account that
has staking state already is kept. -/
def bootstrapStakersFrom (db source : StateDB) : StateDB :=
  let staking := source.accounts.toList.filter fun a => hasSelfStake a.2
  let accounts := staking.foldl (fun accounts a =>
    let existing := ({ db with accounts } : StateDB).getAccount a.1
    accounts.insert a.1 (if existing.staking.isSome then existing else a.2)) db.accounts
  let stakers := staking.foldl (fun stakers a => stakers.insert a.1) db.stakers
  { db with accounts, stakers, storage := storeStakers db.storage stakers }

end StateDB

end Vtt
