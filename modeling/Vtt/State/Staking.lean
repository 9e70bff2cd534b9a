import Vtt.State.Params

/-!
# Slashing, unbonding and the observations of the chain

The stake-related side of the state database: slashing a validator together with the stake that is
being withdrawn from it, releasing unbonded stake, and the records that the chain keeps of the
blocks it has seen per slot and of the slots that were missed.
-/

namespace Vtt

open Lib
open Borsh (serialize)

namespace StateDB

/-! ## Slashing -/

/-- The store with the unbonding entries written to it. -/
def storeUnbonding (storage : Storage) (entries : FinMap Address (List UnbondingEntry)) : Storage :=
  storage.write .chainMeta (ascii "unbonding:all") (serialize entries.toList)

/-- Entries of unknown origin carry the zero address and are never slashed. -/
def slashTarget (validator : Address) (e : UnbondingEntry) : Bool :=
  e.validator != .zero && e.validator == validator

/-- The stake that is being withdrawn from a validator; the sum wraps. -/
def pendingUnbonding (db : StateDB) (validator : Address) : U128 :=
  U128.sum ((db.unbondingEntries.toList.flatMap (·.2)).filterMap fun e =>
    if slashTarget validator e then some e.amount.raw else none)

/-- What is taken from one entry: its part of the slash, rounded down. -/
def entrySlash (slashUnbonding pending : U128) (e : UnbondingEntry) : U128 :=
  U128.min ((U128.checkedDiv (U128.saturatingMul e.amount.raw slashUnbonding) pending).getD 0)
    e.amount.raw

/-- An entry after its part of the slash. -/
def slashEntry (validator : Address) (slashUnbonding pending : U128) (e : UnbondingEntry) :
    UnbondingEntry :=
  if slashTarget validator e then
    { e with amount := ⟨e.amount.raw - entrySlash slashUnbonding pending e⟩ }
  else e

/-- Spread a slash over the entries of a validator; entries left with nothing are dropped. -/
def slashUnbondingEntries (db : StateDB) (validator : Address) (slashUnbonding pending : U128) :
    StateDB :=
  let slashed := db.unbondingEntries.map fun _ entries =>
    (entries.map (slashEntry validator slashUnbonding pending)).filter fun e => !e.amount.isZero
  let kept := slashed.filter fun _ entries => !entries.isEmpty
  let changed := (db.unbondingEntries.toList.flatMap (·.2)).any fun e =>
    slashTarget validator e && 0 < entrySlash slashUnbonding pending e
  { db with
    unbondingEntries := kept
    storage := if changed then storeUnbonding db.storage kept else db.storage }

/-- Slash a validator by at most an amount: first its stake, own stake first, then the stake being
withdrawn from it. Returns the amount taken. -/
def applySlash (db : StateDB) (validator : Address) (amount : Amount) : Amount × StateDB :=
  let account := db.getAccount validator
  match account.staking with
  | none => (.zero, db)
  | some staking =>
    let pending := db.pendingUnbonding validator
    let combined := U128.saturatingAdd staking.totalStake.raw pending
    if combined = 0 then
      (.zero, db)
    else
      let requested := U128.min amount.raw combined
      let slashStake := U128.min requested staking.totalStake.raw
      let fromSelf := U128.min slashStake staking.selfStake.raw
      let staking' :=
        { staking with
          selfStake := ⟨staking.selfStake.raw - fromSelf⟩
          totalStake := ⟨staking.totalStake.raw - slashStake⟩ }
      let db := db.putAccount validator { account with staking := some staking' }
      let slashUnbonding := U128.saturatingSub requested slashStake
      (⟨requested⟩,
        if 0 < slashUnbonding ∧ 0 < pending then
          db.slashUnbondingEntries validator slashUnbonding pending
        else db)

/-- The key of the slashing history of a validator. -/
def slashHistoryKey (validator : Address) : Bytes := ascii "slash:history:" ++ validator.asBytes

/-- The slashing history of a validator. -/
def slashingHistoryRaw (db : StateDB) (validator : Address) : List (UInt64 × String × U128) :=
  ((db.storage.read .chainMeta (slashHistoryKey validator)).bind Borsh.tryFromSlice).getD []

/-- Record a slash under its epoch and in the history of the validator. -/
def recordSlash (db : StateDB) (validator : Address) (epoch : UInt64) (reason : String)
    (amount : Amount) : StateDB :=
  let key := ascii "slash:" ++ validator.asBytes ++ beBytes 8 epoch.toNat
  let db := db.writeMeta key (ascii (reason ++ ":" ++ toString amount.raw.toNat))
  let history := db.slashingHistoryRaw validator ++ [(epoch, reason, amount.raw)]
  db.writeMeta (slashHistoryKey validator) (serialize history)

def slashingEvidenceSeen (db : StateDB) (offender : Address) (epoch : UInt64) (slot : UInt32) :
    Bool :=
  db.slashingSeen.contains (offender, epoch, slot)

/-- The store with the processed evidence written to it. -/
def storeSlashingSeen (storage : Storage) (seen : FinSet SlotKey) : Storage :=
  storage.write .chainMeta (ascii "slashing:seen") (serialize seen.toList)

def markSlashingEvidence (db : StateDB) (offender : Address) (epoch : UInt64) (slot : UInt32) :
    StateDB :=
  let seen := db.slashingSeen.insert (offender, epoch, slot)
  { db with
    slashingSeen := seen
    storage := storeSlashingSeen db.storage seen }

/-! ## Observed blocks and missed slots -/

/-- The store with the observed blocks written to it. -/
def storeBlockCommitments (storage : Storage) (commitments : FinMap SlotKey H256) : Storage :=
  storage.write .chainMeta (ascii "block:commitments") (serialize commitments.toList)

/-- Record the block seen at a slot of a validator, and return the one recorded there before. Only
the first one is written to the store. -/
def recordBlockCommitment (db : StateDB) (validator : Address) (epoch : UInt64) (slot : UInt32)
    (hash : H256) : Option H256 × StateDB :=
  let key := (validator, epoch, slot)
  let prior := db.blockCommitments[key]?
  let commitments := db.blockCommitments.insert key hash
  (prior,
    { db with
      blockCommitments := commitments
      storage :=
        if prior.isNone then storeBlockCommitments db.storage commitments else db.storage })

/-- The store with the missed slots written to it. -/
def storeMissedSlots (storage : Storage) (missed : FinMap (UInt64 × Address) UInt32) : Storage :=
  storage.write .chainMeta (ascii "missed:slots") (serialize missed.toList)

/-- Count a missed slot of a validator. -/
def recordMissedSlot (db : StateDB) (epoch : UInt64) (validator : Address) : StateDB :=
  let count := (db.missedSlots[(epoch, validator)]?).getD 0
  let missed := db.missedSlots.insert (epoch, validator) (U32.saturatingAdd count 1)
  { db with
    missedSlots := missed
    storage := storeMissedSlots db.storage missed }

/-- The missed slots of an epoch, and the state without them. -/
def takeMissedSlotsForEpoch (db : StateDB) (epoch : UInt64) : List (Address × UInt32) × StateDB :=
  let taken := db.missedSlots.toList.filter fun e => e.1.1 == epoch
  let kept := db.missedSlots.filter fun key _ => key.1 != epoch
  (taken.map fun e => (e.1.2, e.2),
    { db with
      missedSlots := kept
      storage := storeMissedSlots db.storage kept })

/-! ## Identity checks -/

def isKycApproved (db : StateDB) (address : Address) : Bool := db.kycApproved.contains address

/-- The store with the approved addresses written to it. -/
def storeKycApproved (storage : Storage) (approved : FinSet Address) : Storage :=
  storage.write .chainMeta (ascii "kyc:approved") (serialize approved.toList)

def setKycApproved (db : StateDB) (address : Address) (approved : Bool) : StateDB :=
  let set := if approved then db.kycApproved.insert address else db.kycApproved.erase address
  { db with
    kycApproved := set
    storage := storeKycApproved db.storage set }

/-! ## Unbonding -/

def addUnbondingEntry (db : StateDB) (address : Address) (entry : UnbondingEntry) : StateDB :=
  let entries :=
    db.unbondingEntries.insert address ((db.unbondingEntries[address]?).getD [] ++ [entry])
  { db with
    unbondingEntries := entries
    storage := storeUnbonding db.storage entries }

def getUnbondingEntries (db : StateDB) (address : Address) : List UnbondingEntry :=
  (db.unbondingEntries[address]?).getD []

/-- Whether an entry has matured. -/
def matured (now : Timestamp) (e : UnbondingEntry) : Bool := e.completionTime ≤ now

/-- What matured entries release together; aborts on overflow. -/
def releasedAmount (now : Timestamp) (entries : List UnbondingEntry) : Option Amount :=
  (entries.filter (matured now)).foldlM (fun acc e => acc.checkedAdd e.amount) .zero

/-- The releases per address, without the zero ones, and their total; aborts on overflow. -/
def unbondingReleases (now : Timestamp) :
    List (Address × List UnbondingEntry) → Option (List (Address × Amount) × Amount)
  | [] => some ([], .zero)
  | (address, entries) :: rest => do
    let released ← releasedAmount now entries
    let (releases, total) ← unbondingReleases now rest
    if released.isZero then
      pure (releases, total)
    else
      pure ((address, released) :: releases, ← released.checkedAdd total)

/-- The state without the matured entries. -/
def dropMatured (db : StateDB) (now : Timestamp) : StateDB :=
  { db with
    unbondingEntries := db.unbondingEntries.map fun _ es => es.filter fun e => !matured now e }

/-- The state without addresses that have no unbonding entry left, written through if anything was
released. -/
def dropReleased (db : StateDB) (released : Amount) : StateDB :=
  let kept := db.unbondingEntries.filter fun _ es => !es.isEmpty
  { db with
    unbondingEntries := kept
    storage := if released.isZero then db.storage else storeUnbonding db.storage kept }

end StateDB

end Vtt
