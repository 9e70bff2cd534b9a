import Vtt.State.Staking

/-!
# State root, snapshot and rollback

The state root is the Merkle root over a sorted map of keys and values. Accounts, assets and pools
are flushed into the map when they were changed, the other collections every time.
-/

namespace Vtt

open Lib

/-! ## The entries of the store and of the trie -/

namespace StateSnapshot

/-- The cached ownership records under their store keys. -/
def ownershipEntries (s : StateSnapshot) : List (Bytes × Bytes) :=
  s.ownership.toList.map fun e => (StateDB.ownershipKey e.1.1 e.1.2, Borsh.serialize e.2)

/-- The cached contract storage under its store keys. -/
def contractStorageEntries (s : StateSnapshot) : List (Bytes × Bytes) :=
  s.contractStorage.toList.map fun e => (e.1.1.asBytes ++ e.1.2, e.2)

/-- The cached raw records of a map keyed by hashes under their store keys. -/
def rawEntries (m : FinMap H256 Bytes) : List (Bytes × Bytes) :=
  m.toList.map fun e => (e.1.asBytes, e.2)

/-- The cached records of a map keyed by hashes, serialized, under their store keys. -/
def recordEntries {α : Type} [Borsh α] (m : FinMap H256 α) : List (Bytes × Bytes) :=
  m.toList.map fun e => (e.1.asBytes, Borsh.serialize e.2)

/-- The cached accounts under their store keys. -/
def accountEntries (s : StateSnapshot) : List (Bytes × Bytes) :=
  s.accounts.toList.map fun e => (e.1.asBytes, Borsh.serialize e.2)

/-- The cached governance proposals under their store keys. -/
def governanceEntries (s : StateSnapshot) : List (Bytes × Bytes) :=
  s.governanceProposals.toList.map fun e => (StateDB.governanceKey e.1, e.2)

/-- The holder counts under their store keys. -/
def holderEntries (s : StateSnapshot) : List (Bytes × Bytes) :=
  s.assetHolderCount.toList.map fun e => (StateDB.holdersKey e.1, leBytes 4 e.2.toNat)

/-- The keys of a list of entries behind a label. -/
def labelled (label : String) (entries : List (Bytes × Bytes)) : List (Bytes × Bytes) :=
  entries.map fun e => (ascii label ++ e.1, e.2)

/-- The entries that every computation of the root flushes into the trie. -/
def flushedEntries (s : StateSnapshot) : List (Bytes × Bytes) :=
  labelled "own:" s.ownershipEntries ++
  labelled "oracle:" (recordEntries s.oracles) ++
  labelled "mining:" (rawEntries s.miningStates) ++
  labelled "code:" (rawEntries s.contractCode) ++
  labelled "cs:" s.contractStorageEntries ++
  labelled "aprop:" (recordEntries s.assetProposals) ++
  labelled "gprop:" (rawEntries s.governanceProposals)

end StateSnapshot

namespace StateTrie

/-- Insert a list of entries in turn. -/
def insertAll (t : StateTrie) (entries : List (Bytes × Bytes)) : StateTrie :=
  ⟨insertList t.entries entries⟩

/-- The root: leaves are the hashes of key and value together. -/
def root [Crypto] (t : StateTrie) : H256 :=
  merkleRoot (t.entries.toList.map fun e => blake3Hash (e.1 ++ e.2))

end StateTrie

namespace StateDB

open StateSnapshot

/-! ## The state root -/

/-- Flush a changed account: an empty account leaves the trie. -/
def flushAccount (accounts : FinMap Address AccountState) (m : FinMap Bytes Bytes)
    (address : Address) : FinMap Bytes Bytes :=
  match accounts[address]? with
  | none => m
  | some account =>
    if account.isEmpty then m.erase address.asBytes
    else m.insert address.asBytes (Borsh.serialize account)

/-- Flush a changed asset. -/
def flushAsset (assets : FinMap H256 AssetRecord) (m : FinMap Bytes Bytes) (assetId : H256) :
    FinMap Bytes Bytes :=
  match assets[assetId]? with
  | none => m
  | some asset => m.insert (ascii "asset:" ++ assetId.asBytes) (Borsh.serialize asset)

/-- Flush a changed pool. -/
def flushPool (pools : FinMap H256 Bytes) (m : FinMap Bytes Bytes) (poolId : H256) :
    FinMap Bytes Bytes :=
  match pools[poolId]? with
  | none => m
  | some data => m.insert (ascii "pool:" ++ poolId.asBytes) data

/-- The trie with everything flushed into it. -/
def flushedTrie (db : StateDB) : StateTrie :=
  let m := db.dirty.foldl (flushAccount db.accounts) db.trie.entries
  let m := db.dirtyAssets.foldl (flushAsset db.assets) m
  let m := db.dirtyPools.foldl (flushPool db.pools) m
  StateTrie.insertAll ⟨m⟩ db.flushedEntries

/-- The state after its changes were flushed into the trie. -/
def flush (db : StateDB) : StateDB :=
  { db with
    trie := db.flushedTrie
    dirty := []
    dirtyAssets := []
    dirtyPools := [] }

/-- Nothing is left to flush after a flush. -/
theorem flushedTrie_flush (db : StateDB) : db.flush.flushedTrie = db.flushedTrie :=
  congrArg StateTrie.mk (insertList_insertList ..)

/-- The state root, and the state with its changes flushed into the trie. -/
def computeStateRoot [Crypto] (db : StateDB) : H256 × StateDB := (db.flushedTrie.root, db.flush)

/-! ## Rollback -/

/-- The caches, for a rollback. -/
def snapshot (db : StateDB) : StateSnapshot := db.toStateSnapshot

/-- The store after the caches of a snapshot were written to it again. Keys that the snapshot has no
entry for keep what was written to them. -/
def restoreStorage (storage : Storage) (s : StateSnapshot) : Storage :=
  let storage :=
    storage.write .chainMeta (ascii "supply:minted_milli") (leBytes 8 s.totalMintedMilli.toNat)
  let storage :=
    storage.write .chainMeta (ascii "supply:burned_milli") (leBytes 8 s.totalBurnedMilli.toNat)
  let storage := storage.writeAll .accounts s.accountEntries
  let storage := storage.writeAll .assets (recordEntries s.assets)
  let storage := storage.writeAll .ownership s.ownershipEntries
  let storage := storage.writeAll .oracles (recordEntries s.oracles)
  let storage := storage.writeAll .contractCode (rawEntries s.contractCode)
  let storage := storage.writeAll .contractStorage s.contractStorageEntries
  let storage := storage.writeAll .pools (rawEntries s.pools)
  let storage := storage.writeAll .miningStates (rawEntries s.miningStates)
  let storage := storage.writeAll .assetProposals (recordEntries s.assetProposals)
  let storage := storage.writeAll .chainMeta s.governanceEntries
  let storage := storage.writeAll .chainMeta s.holderEntries
  let storage := storeSlashingSeen storage s.slashingSeen
  let storage := storeStakers storage s.stakers
  storeKycApproved storage s.kycApproved

/-- Roll the caches back to a snapshot. The observed blocks, the missed slots and the trie stay as
they are. -/
def restore (db : StateDB) (s : StateSnapshot) : StateDB where
  toStateSnapshot := s
  blockCommitments := db.blockCommitments
  missedSlots := db.missedSlots
  trie := db.trie
  dirty := db.dirty ++ db.accounts.keys ++ s.accounts.keys
  dirtyAssets := db.dirtyAssets ++ db.assets.keys ++ s.assets.keys
  storage := restoreStorage db.storage s

end StateDB

end Vtt
