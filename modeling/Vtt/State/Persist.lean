import Vtt.State.InStep

/-!
# Writing the caches out

Attaching a store and rolling back write whole collections. A cell that is written so reads as the
caches have it, and every other cell reads as before.
-/

namespace Vtt

open Lib Std Borsh Storage List ExtTreeMap

namespace StateSnapshot

/-- The cells of accounts, assets and what is held of them. -/
def holdingCells (s : StateSnapshot) : List (Cell × Bytes) :=
  s.accounts.toList.map (fun e => (Cell.account e.1, serialize e.2)) ++
  s.assets.toList.map (fun e => (Cell.asset e.1, serialize e.2)) ++
  s.ownership.toList.map (fun e => (Cell.ownership e.1.1 e.1.2, serialize e.2))

/-- The cells of the holder counts. -/
def holderCells (s : StateSnapshot) : List (Cell × Bytes) :=
  s.assetHolderCount.toList.map fun e => (Cell.holders e.1, leBytes 4 e.2.toNat)

/-- The cells of feeds, contracts, pools and proposals. -/
def serviceCells (s : StateSnapshot) : List (Cell × Bytes) :=
  s.oracles.toList.map (fun e => (Cell.oracle e.1, serialize e.2)) ++
  s.contractCode.toList.map (fun e => (Cell.code e.1, e.2)) ++
  s.contractStorage.toList.map (fun e => (Cell.contractStorage e.1.1 e.1.2, e.2)) ++
  s.pools.toList.map (fun e => (Cell.pool e.1, e.2)) ++
  s.miningStates.toList.map (fun e => (Cell.mining e.1, e.2)) ++
  s.assetProposals.toList.map (fun e => (Cell.assetProposal e.1, serialize e.2)) ++
  s.governanceProposals.toList.map (fun e => (Cell.governance e.1, e.2))

/-- The cells of the collections that have a cell for each record. -/
def recordCells (s : StateSnapshot) : List (Cell × Bytes) :=
  s.holdingCells ++ s.serviceCells ++ s.holderCells

/-- What these cells are written with. -/
def recorded (s : StateSnapshot) : Cell → Option Bytes
  | .account a => (s.accounts[a]?).map serialize
  | .asset id => (s.assets[id]?).map serialize
  | .ownership id owner => (s.ownership[(id, owner)]?).map serialize
  | .oracle id => (s.oracles[id]?).map serialize
  | .code hash => s.contractCode[hash]?
  | .contractStorage address key => s.contractStorage[(address, key)]?
  | .pool id => s.pools[id]?
  | .mining id => s.miningStates[id]?
  | .assetProposal id => (s.assetProposals[id]?).map serialize
  | .governance id => s.governanceProposals[id]?
  | .holders id => (s.assetHolderCount[id]?).map fun n => leBytes 4 n.toNat
  | _ => none

theorem mem_recordCells (s : StateSnapshot) (c : Cell) (v : Bytes) :
    (c, v) ∈ s.recordCells ↔ s.recorded c = some v := by
  simp only [recordCells, holdingCells, serviceCells, holderCells, mem_append, mem_map,
    Prod.mk.injEq, Prod.exists, mem_toList_iff_getElem?_eq_some]
  cases c <;> simp [recorded, Option.map_eq_some_iff]

end StateSnapshot

namespace StateDB

open StateSnapshot

variable {storage : Storage}

variable {store : Store}

theorem bind_decodeCount (count : Option UInt32) :
    (count.map fun n => leBytes 4 n.toNat).bind decodeCount = count := by
  cases count with
  | none => rfl
  | some n => exact decodeCount_leBytes n

/-! ## Attaching a store -/

/-- The cells that attaching a store writes first, in that order. -/
def attachedCells (s : StateSnapshot) : List (Cell × Bytes) :=
  s.holdingCells ++ s.holderCells ++ s.serviceCells

theorem mem_attachedCells (s : StateSnapshot) (c : Cell) (v : Bytes) :
    (c, v) ∈ attachedCells s ↔ s.recorded c = some v := by
  rw [← mem_recordCells, attachedCells, recordCells, append_assoc, append_assoc,
    mem_append, mem_append, mem_append, mem_append, or_comm (a := _ ∈ s.holderCells)]

/-- The parameters that attaching a store writes. -/
def writeParams (storage : Storage) (s : StateSnapshot) : Storage :=
  ((if s.treasuryAddress = .zero then storage
    else storage.write .chainMeta (ascii "treasury_address") s.treasuryAddress.asBytes).write
      .chainMeta (ascii "epoch_length") (leBytes 8 s.epochLength.toNat)).write .chainMeta
        (ascii "dex:paused") [if s.dexPaused then 1 else 0]

theorem writeCaches_eq (s : StateSnapshot) :
    writeCaches storage s = writeParams (storage.writeCells (attachedCells s)) s := by
  simp only [writeCaches, writeAll, writeCells, attachedCells, holdingCells, serviceCells,
    holderCells, accountEntries, recordEntries, ownershipEntries, rawEntries,
    contractStorageEntries, governanceEntries,
    holderEntries, foldl_append, foldl_map]
  rfl

/-- Writing the caches out concerns the cells of records only. -/
theorem read_writeCaches (hsome : storage.isSome = true) (s : StateSnapshot) (c : Cell) :
    (writeCaches storage s).read c.column c.key =
      (s.recorded c).or (storage.read c.column c.key) := by
  rw [writeCaches_eq, writeParams, read_write_foreign (by decide +kernel),
    read_write_foreign (by decide +kernel), ← read_writeCells hsome (mem_attachedCells s)]
  split
  · rfl
  · exact read_write_foreign (by decide +kernel)

theorem get_of_verifyOrStamp_of_ne {store' : Store}
    (h : verifyOrStampSchemaVersion store = some store') {c : Cell} (hc : c ≠ .schema) :
    store'.get c.column c.key = store.get c.column c.key := by
  unfold verifyOrStampSchemaVersion at h
  split at h
  · obtain ⟨-, rfl⟩ := Option.ite_none_right_eq_some.1 h |>.imp_right Option.some.inj
    rfl
  · cases h
    have hsome : (some store : Storage).isSome = true := rfl
    exact (read_write_cell (c := .schema) hsome).trans (if_neg hc)

theorem mem_stakersOf {accounts : FinMap Address AccountState} {a : Address} :
    a ∈ stakersOf accounts ↔ ∃ state, accounts[a]? = some state ∧ hasSelfStake state = true := by
  simp only [stakersOf, ExtTreeSet.mem_ofList, contains_eq_mem, decide_eq_true_eq,
    mem_map, mem_filter, mem_toList_iff_getElem?_eq_some, Prod.exists]
  constructor
  · rintro ⟨_, state, ⟨hget, hstake⟩, rfl⟩
    exact ⟨state, hget, hstake⟩
  · rintro ⟨state, hget, hstake⟩
    exact ⟨a, state, ⟨hget, hstake⟩, rfl⟩

/-- The collections that have one cell, which attaching a store writes last. -/
def attachedBlobs (db : StateDB) : List (Cell × Bytes) :=
  [(.unbonding, serialize db.unbondingEntries.toList),
    (.slashingSeen, serialize db.slashingSeen.toList)] ++
  (if db.kycApproved.isEmpty then [] else [(.kycApproved, serialize db.kycApproved.toList)]) ++
  [(.blockCommitments, serialize db.blockCommitments.toList),
    (.missedSlots, serialize db.missedSlots.toList),
    (.stakers, serialize (stakersOf db.accounts).toList)]

def blob (db : StateDB) : Cell → Option Bytes
  | .unbonding => some (serialize db.unbondingEntries.toList)
  | .slashingSeen => some (serialize db.slashingSeen.toList)
  | .kycApproved =>
    if db.kycApproved.isEmpty then none else some (serialize db.kycApproved.toList)
  | .blockCommitments => some (serialize db.blockCommitments.toList)
  | .missedSlots => some (serialize db.missedSlots.toList)
  | .stakers => some (serialize (stakersOf db.accounts).toList)
  | _ => none

theorem mem_attachedBlobs (db : StateDB) (c : Cell) (v : Bytes) : (c, v) ∈ attachedBlobs db ↔
    db.blob c = some v := by
  unfold attachedBlobs
  split <;> cases c <;> simp [blob, eq_comm, *]

/-- A store is attached by writing to it and building the index of stakers. A cell then has what was
written last, else what was written first, else what it had before. -/
theorem exists_attached {db s : StateDB} (h : db.attachStorage store = some s) :
    ∃ holders storage,
      s = { db with assetHolderCount := holders, storage, stakers := stakersOf db.accounts } ∧
      recountHolders db.ownership = some holders ∧
      storage.read Cell.schema.column Cell.schema.key = some (leBytes 4 1) ∧
      ∀ c : Cell, c ≠ .schema → storage.read c.column c.key = (db.blob c).or
        ((({ db with assetHolderCount := holders } : StateDB).recorded c).or
          (store.get c.column c.key)) := by
  obtain ⟨holders, hholders, h⟩ := Option.bind_eq_some_iff.1 h
  obtain ⟨_, hwritten, h⟩ := Option.bind_eq_some_iff.1 h
  obtain ⟨stamped, hstamped, h⟩ := Option.bind_eq_some_iff.1 h
  cases h
  have hsome : (some stamped : Storage).isSome = true := rfl
  have final : storeStakers (storeMissedSlots (storeBlockCommitments
      (if db.kycApproved.isEmpty then storeSlashingSeen (storeUnbonding (some stamped)
        db.unbondingEntries) db.slashingSeen
      else storeKycApproved (storeSlashingSeen (storeUnbonding (some stamped) db.unbondingEntries)
        db.slashingSeen) db.kycApproved) db.blockCommitments) db.missedSlots)
        (stakersOf db.accounts) =
      writeCells (some stamped) (attachedBlobs db) := by
    unfold attachedBlobs
    split
    · rfl
    · rfl
  refine ⟨holders, _, rfl, hholders, ?_, fun c hc => ?_⟩
  · refine (congrArg (read · _ _) final).trans
      ((read_writeCells hsome (mem_attachedBlobs db) _).trans ?_)
    exact get_of_verifyOrStampSchemaVersion hstamped
  · refine (congrArg (read · _ _) final).trans
      ((read_writeCells hsome (mem_attachedBlobs db) c).trans ?_)
    have hstore : (some store : Storage).isSome = true := rfl
    have records :=
      read_writeCaches hstore ({ db with assetHolderCount := holders } : StateDB).toStateSnapshot c
    rw [hwritten] at records
    exact congrArg (Option.or _) ((get_of_verifyOrStamp_of_ne hstamped hc).trans records)

/-- A state is in step with a store that it was given and that had at most a stamp, unless it
counted minted or burned tokens before, which are not written. -/
theorem synced_of_attachStorage {db s : StateDB} (h : attachStorage db store = some s)
    (hfresh : ∀ c : Cell, c ≠ .schema → store.get c.column c.key = none)
    (hminted : db.totalMintedMilli = 0) (hburned : db.totalBurnedMilli = 0) : Synced s := by
  obtain ⟨holders, storage, rfl, hholders, hschema, hread⟩ := exists_attached h
  have written (c : Cell) (hc : c ≠ .schema) : storage.read c.column c.key =
      (db.blob c).or (({ db with assetHolderCount := holders } : StateDB).recorded c) := by
    rw [hread c hc, hfresh c hc, Option.or_none]
  refine ⟨fun c => ?_, fun hempty => ?_⟩
  · by_cases hc : c = .schema
    · rw [hc]
      exact hschema
    rw [written c hc]
    cases c with
    | schema => exact absurd rfl hc
    | unbonding => exact fun hfits => decodeUnbonding_serialize _ hfits
    | slashingSeen => exact fun hfits => decodeSet_serialize _ hfits
    | blockCommitments | missedSlots => exact fun hfits => decodeMap_serialize _ hfits
    | stakers => exact fun hfits => decodeSet_serialize _ hfits
    | kycApproved =>
      rw [blob]
      split
      · rename_i hempty
        exact fun _ => (ExtTreeSet.isEmpty_iff.1 hempty).symm
      · exact fun hfits => decodeSet_serialize _ hfits
    | account a => exact fun _ => .map_serialize db.accounts[a]?
    | asset id => exact .map_serialize db.assets[id]?
    | ownership id owner => exact .map_serialize db.ownership[(id, owner)]?
    | oracle id => exact .map_serialize db.oracles[id]?
    | assetProposal id => exact .map_serialize db.assetProposals[id]?
    | holders id => exact bind_decodeCount holders[id]?
    | minted => exact hminted.symm
    | burned => exact hburned.symm
    | _ => rfl
  · obtain rfl := isEmpty_iff.1 hempty
    exact zero_of_recountHolders hholders

/-! ## Rolling back -/

/-- The cells that a rollback writes. -/
def restoredCells (s : StateSnapshot) : List (Cell × Bytes) :=
  [(.minted, leBytes 8 s.totalMintedMilli.toNat), (.burned, leBytes 8 s.totalBurnedMilli.toNat)] ++
  s.recordCells ++
  [(.slashingSeen, serialize s.slashingSeen.toList), (.stakers, serialize s.stakers.toList),
    (.kycApproved, serialize s.kycApproved.toList)]

theorem restoreStorage_eq (storage : Storage) (s : StateSnapshot) :
    restoreStorage storage s = storage.writeCells (restoredCells s) := by
  simp only [restoreStorage, writeAll, writeCells, restoredCells, recordCells,
    holdingCells, serviceCells, holderCells, accountEntries, recordEntries, ownershipEntries,
    rawEntries, contractStorageEntries,
    governanceEntries, holderEntries, foldl_append, foldl_map, foldl_cons, foldl_nil]
  rfl

/-- What a rollback writes. -/
def restored (s : StateSnapshot) : Cell → Option Bytes
  | .minted => some (leBytes 8 s.totalMintedMilli.toNat)
  | .burned => some (leBytes 8 s.totalBurnedMilli.toNat)
  | .slashingSeen => some (serialize s.slashingSeen.toList)
  | .stakers => some (serialize s.stakers.toList)
  | .kycApproved => some (serialize s.kycApproved.toList)
  | c => s.recorded c

theorem isSome_restored_mono {s t : StateSnapshot}
    (h : ∀ c, (s.recorded c).isSome = true → (t.recorded c).isSome = true) (c : Cell) :
    (restored s c).isSome = true → (restored t c).isSome = true := by
  have before := h c
  cases c with
  | minted | burned | slashingSeen | stakers | kycApproved => exact fun _ => rfl
  | _ => exact before

theorem mem_restoredCells (s : StateSnapshot) (c : Cell) (v : Bytes) :
    (c, v) ∈ restoredCells s ↔ restored s c = some v := by
  simp only [restoredCells, mem_append, mem_recordCells, mem_cons, Prod.mk.injEq,
    not_mem_nil, or_false]
  cases c <;> simp [restored, recorded, eq_comm]

theorem read_restoreStorage (hsome : storage.isSome = true) (s : StateSnapshot) (c : Cell) :
    (restoreStorage storage s).read c.column c.key =
      (restored s c).or (storage.read c.column c.key) := by
  rw [restoreStorage_eq]
  exact read_writeCells hsome (mem_restoredCells s) c

end StateDB

end Vtt
