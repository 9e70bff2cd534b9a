import Vtt.Lib.Moves
import Vtt.Lib.Runs
import Vtt.State.Methods
import Vtt.State.Restart

/-!
# Histories of a state database

The changes that a state database goes through. A method that changes the state makes one of the
mutations below, or several of them in turn.
-/

namespace Vtt

open Lib StateDB Confined

/-- The keys of the chain metadata that only the store has. -/
inductive Note where
  | bridgePaused
  | bridgeRelayer
  | bridgeDeposit (sourceChain : UInt32) (sourceTxHash : H256)
  | registeredChain (chainId : UInt32)
  | nextChainId
  | param (key : String)
  | jurisdiction (address : Address)
  | governanceCounter
  | slash (validator : Address) (epoch : UInt64)
  | slashHistory (validator : Address)
  | finalizedBlock

def Note.key : Note → Bytes
  | bridgePaused => ascii "bridge:paused"
  | bridgeRelayer => ascii "bridge:relayer"
  | bridgeDeposit sourceChain sourceTxHash => bridgeDepositKey sourceChain sourceTxHash
  | registeredChain chainId => registeredChainKey chainId
  | nextChainId => ascii "chain:registered:next_id"
  | param key => paramKey key
  | jurisdiction address => jurisdictionKey address
  | governanceCounter => governanceCounterKey
  | slash validator epoch => ascii "slash:" ++ validator.asBytes ++ beBytes 8 epoch.toNat
  | slashHistory validator => slashHistoryKey validator
  | finalizedBlock => ascii "finalized_block"

/-- What an owner holds of an asset in total; aborts on overflow. -/
def StateDB.ownershipTotal (db : StateDB) (assetId : H256) (owner : Address) : Option Amount :=
  match db.ownership[(assetId, owner)]? with
  | some r => r.total
  | none => some .zero

/-- Set an ownership record; adding up the records aborts on overflow. -/
def StateDB.putOwnership (db : StateDB) (record : OwnershipRecord) : Option StateDB :=
  (db.ownershipTotal record.assetId record.owner).bind fun prevTotal =>
    record.total.map (db.putOwnershipWith record prevTotal)

/-- A change of a state database. -/
inductive Mutation where
  | putAccount (address : Address) (state : AccountState)
  | bootstrapStakersFrom (source : StateDB)
  | putAsset (assetId : H256) (asset : AssetRecord)
  | editAsset (assetId : H256) (asset : AssetRecord)
  | putOwnership (record : OwnershipRecord)
  | putAssetProposal (proposal : AssetProposal)
  | editAssetProposal (id : H256) (proposal : AssetProposal)
  | putOracle (feedId : H256) (feed : OracleFeed)
  | editOracle (feedId : H256) (feed : OracleFeed)
  | storeCode (code : Bytes)
  | putContractStorage (address : Address) (key value : Bytes)
  | deleteContractStorage (address : Address) (key : Bytes)
  | putPoolRaw (poolId : H256) (data : Bytes)
  | putMiningStateRaw (poolId : H256) (data : Bytes)
  | putGovernanceProposal (id : H256) (data : Bytes)
  | setTreasuryAddress (address : Address)
  | setEpochLength (length : UInt64)
  | setDexPaused (paused : Bool)
  | recordMintMilli (milli : UInt64)
  | recordBurnMilli (milli : UInt64)
  | writeNote (note : Note) (value : Bytes)
  | clearNote (note : Note)
  | addUnbondingEntry (address : Address) (entry : UnbondingEntry)
  | slashUnbondingEntries (validator : Address) (slashUnbonding pending : U128)
  | processUnbonding (now : Timestamp)
  | markSlashingEvidence (offender : Address) (epoch : UInt64) (slot : UInt32)
  | recordBlockCommitment (validator : Address) (epoch : UInt64) (slot : UInt32) (hash : H256)
  | recordMissedSlot (epoch : UInt64) (validator : Address)
  | takeMissedSlotsForEpoch (epoch : UInt64)
  | setKycApproved (address : Address) (approved : Bool)
  | computeStateRoot
  | restore (snapshot : StateSnapshot)

namespace Mutation

variable [Crypto]

/-- What a mutation does. Adding up an ownership record aborts on overflow, and so does adding up
the unbonding entries that are released. -/
def run : Mutation → StateDB → Option StateDB
  | putAccount address state, db => some (db.putAccount address state)
  | bootstrapStakersFrom source, db => some (db.bootstrapStakersFrom source)
  | putAsset assetId asset, db => some (db.putAsset assetId asset)
  | editAsset assetId asset, db =>
    -- there is a reference to cached records only
    some (if db.assets.contains assetId then (db.touchAsset assetId).setCachedAsset assetId asset
      else db)
  | putOwnership record, db => db.putOwnership record
  | putAssetProposal proposal, db => some (db.putAssetProposal proposal)
  | editAssetProposal id proposal, db =>
    some (if db.assetProposals.contains id then db.setCachedAssetProposal id proposal else db)
  | putOracle feedId feed, db => some (db.putOracle feedId feed)
  | editOracle feedId feed, db =>
    some (if db.oracles.contains feedId then { db with oracles := db.oracles.insert feedId feed }
      else db)
  | storeCode code, db => some (db.storeCode code).2
  | putContractStorage address key value, db => some (db.putContractStorage address key value)
  | deleteContractStorage address key, db => some (db.deleteContractStorage address key)
  | putPoolRaw poolId data, db => some (db.putPoolRaw poolId data)
  | putMiningStateRaw poolId data, db => some (db.putMiningStateRaw poolId data)
  | putGovernanceProposal id data, db => some (db.putGovernanceProposal id data)
  | setTreasuryAddress address, db => some (db.setTreasuryAddress address)
  | setEpochLength length, db => some (db.setEpochLength length)
  | setDexPaused paused, db => some (db.setDexPaused paused)
  | recordMintMilli milli, db => some (db.recordMintMilli milli)
  | recordBurnMilli milli, db => some (db.recordBurnMilli milli)
  | writeNote note value, db => some (db.writeMeta note.key value)
  | clearNote note, db => some { db with storage := db.storage.remove .chainMeta note.key }
  | addUnbondingEntry address entry, db => some (db.addUnbondingEntry address entry)
  | slashUnbondingEntries validator slashUnbonding pending, db =>
    some (db.slashUnbondingEntries validator slashUnbonding pending)
  | processUnbonding now, db => ((Db.processUnbonding now : DbM Empty Amount).run db).map (·.2)
  | markSlashingEvidence offender epoch slot, db =>
    some (db.markSlashingEvidence offender epoch slot)
  | recordBlockCommitment validator epoch slot hash, db =>
    some (db.recordBlockCommitment validator epoch slot hash).2
  | recordMissedSlot epoch validator, db => some (db.recordMissedSlot epoch validator)
  | takeMissedSlotsForEpoch epoch, db => some (db.takeMissedSlotsForEpoch epoch).2
  | setKycApproved address approved, db => some (db.setKycApproved address approved)
  | computeStateRoot, db => some db.computeStateRoot.2
  | restore snapshot, db => some (db.restore snapshot)

/-- A mutation leads from one state to another. -/
def Step (s : StateDB) (m : Mutation) (t : StateDB) : Prop := m.run s = some t

end Mutation

theorem Db.run_putOwnership {ε : Type} (record : OwnershipRecord) (s : StateDB) :
    (putOwnership record : DbM ε Unit).run s = (s.putOwnership record).map fun t =>
      (.ok (), t) := by
  change run (unwrap (s.ownershipTotal record.assetId record.owner) >>= fun prevTotal =>
    unwrap record.total >>= fun newTotal => putOwnershipWith record prevTotal newTotal) s = _
  unfold StateDB.putOwnership
  cases s.ownershipTotal record.assetId record.owner with
  | none => rfl
  | some =>
    cases record.total with
    | none | some => rfl

end Vtt
