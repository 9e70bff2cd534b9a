import Vtt.State.StateDB

/-!
# The consensus engine

Validator election, the round-robin schedule, the check of a block header against its parent and
the validator set, and the evidence of double signing. Dividing by an epoch length of zero aborts;
the functions that may do so return an option.
-/

namespace Vtt

open Lib Option

/-! ## Validators -/

/-- A member of the validator set. -/
structure ValidatorInfo where
  address : Address
  publicKey : Option PublicKey
  totalStake : Amount
  selfStake : Amount
  commissionBps : UInt16
deriving DecidableEq

/-- The validators of an epoch. -/
structure ValidatorSet where
  epoch : Epoch
  validators : List ValidatorInfo
deriving DecidableEq

namespace ValidatorSet

def empty (epoch : Epoch) : ValidatorSet := ⟨epoch, []⟩

/-- The validator whose turn a slot is. -/
def slotLeader (vs : ValidatorSet) (slot : UInt32) : Option ValidatorInfo :=
  vs.validators[slot.toNat % vs.validators.length]?

def contains (vs : ValidatorSet) (address : Address) : Bool :=
  vs.validators.any fun v => v.address == address

def get (vs : ValidatorSet) (address : Address) : Option ValidatorInfo :=
  vs.validators.find? fun v => v.address == address

/-- The stake of all validators; aborts on overflow. -/
def totalStake (vs : ValidatorSet) : Option Amount :=
  vs.validators.foldlM (fun acc v => acc.checkedAdd v.totalStake) .zero

end ValidatorSet

/-! ## Evidence of double signing -/

/-- Two headers of one validator for one slot. -/
structure DoubleSignEvidence where
  headerA : BlockHeader
  headerB : BlockHeader
deriving DecidableEq

namespace DoubleSignEvidence

instance : Borsh DoubleSignEvidence :=
  .ofIso (fun e => (e.headerA, e.headerB)) (fun (headerA, headerB) => ⟨headerA, headerB⟩)
    (fun _ => rfl)

/-- Same validator, same epoch and slot, different signable bytes. -/
def isValid (e : DoubleSignEvidence) : Bool :=
  e.headerA.validator == e.headerB.validator && e.headerA.epoch == e.headerB.epoch &&
    e.headerA.slot == e.headerB.slot && e.headerA.signableBytes != e.headerB.signableBytes

def offender (e : DoubleSignEvidence) : Address := e.headerA.validator

theorem fits (e : DoubleSignEvidence) : Borsh.Fits e := ⟨e.headerA.fits, e.headerB.fits⟩

/-- Headers are evidence exactly if they name the same validator, epoch and slot and differ in more
than the signature. -/
theorem isValid_iff (e : DoubleSignEvidence) : e.isValid = true ↔
    e.headerA.validator = e.headerB.validator ∧
    e.headerA.epoch = e.headerB.epoch ∧ e.headerA.slot = e.headerB.slot ∧
      e.headerA.withSignature e.headerB.signature ≠ e.headerB := by
  have signed : e.headerA.signableBytes = e.headerB.signableBytes ↔
      e.headerA.withSignature e.headerB.signature = e.headerB := by
    constructor
    · intro h
      have read (h : BlockHeader) :=
        Borsh.tryFromSlice_serialize (h.withSignature .zero) (BlockHeader.fits _)
      have unsigned :=
        Option.some.inj ((read e.headerA).symm.trans ((congrArg _ h).trans (read e.headerB)))
      have := congrArg (fun h => h.withSignature e.headerB.signature) unsigned
      exact this
    · intro h
      rw [← h]
      rfl
  simp [isValid, signed, and_assoc]

end DoubleSignEvidence

/-- A share of a stake in basis points; the product wraps. -/
def slashShare (totalStake : Amount) (bps : UInt16) : Amount :=
  ⟨totalStake.raw * U128.ofU16 bps / 10000⟩

def calculateDoubleSignSlash (totalStake : Amount) (slashBps : UInt16) : Amount :=
  slashShare totalStake slashBps

def calculateDowntimeSlash (totalStake : Amount) (slashBps : UInt16) : Amount :=
  slashShare totalStake slashBps

/-- More than a percentage of the slots was missed. -/
def isDowntimeViolation (missedSlots totalSlots : UInt32) (thresholdPct : UInt8) : Bool :=
  if totalSlots = 0 then
    false
  else
    let missedPct := missedSlots.toUInt64 * 100 / totalSlots.toUInt64
    thresholdPct.toUInt64 < missedPct

/-! ## The engine -/

/-- The errors of the consensus engine. -/
inductive ConsensusError where
  | wrongBlockProducer (expected got : Address)
  | invalidSignature
  | invalidTimestamp (got parent : UInt64)
  | wrongParentHash (expected got : H256)
  | wrongBlockNumber (expected got : BlockNumber)
  | emptyValidatorSet
  | validatorNotInSet (address : Address)
  | invalidEvidence
deriving DecidableEq

/-- The consensus engine: its parameters. -/
structure ConsensusEngine where
  params : ConsensusParams
deriving DecidableEq

namespace ConsensusEngine

/-- The epoch of a block number. -/
def epochForBlock (e : ConsensusEngine) (number : BlockNumber) : Option Epoch :=
  if number = 0 then some 0 else U64.checkedDiv number e.params.epochLength

/-- The slot of a block number within its epoch. -/
def slotForBlock (e : ConsensusEngine) (number : BlockNumber) : Option UInt32 :=
  (U64.checkedRem number e.params.epochLength).map UInt64.toUInt32

/-- An account as a candidate, if it has enough stake of its own. No public key is known here. -/
def candidate (e : ConsensusEngine) (address : Address) (account : AccountState) :
    Option ValidatorInfo :=
  account.staking.bind fun staking =>
    if staking.selfStake < e.params.minSelfStake then
      none
    else
      some ⟨address, none, staking.totalStake, staking.selfStake, staking.commissionBps⟩

/-- More stake comes first; equal stakes are ordered by address. -/
def ranksBefore (a b : ValidatorInfo) : Bool :=
  b.totalStake <
    a.totalStake || (a.totalStake == b.totalStake && (compare a.address b.address).isLE)

/-- Elect the validators of an epoch among the cached accounts. -/
def electValidators (e : ConsensusEngine) (state : StateDB) (epoch : Epoch) : ValidatorSet :=
  let candidates := state.accounts.toList.filterMap fun a => e.candidate a.1 a.2
  ⟨epoch, (candidates.insertionSort (fun a b => ranksBefore a b)).take
    e.params.activeValidators.toNat⟩

/-- The validator that is to produce a block number. -/
def blockProducer (e : ConsensusEngine) (vs : ValidatorSet) (number : BlockNumber) :
    Option (Except ConsensusError ValidatorInfo) := do
  let slot ← e.slotForBlock number
  match vs.slotLeader slot with
  | some v => pure (.ok v)
  | none => pure (.error .emptyValidatorSet)

variable [Crypto]

/-- The signature of a header, which is only looked at if a public key is known. -/
def verifyHeaderSignature (header : BlockHeader) (producer : ValidatorInfo) :
    Except ConsensusError Unit :=
  match producer.publicKey with
  | none => .ok ()
  | some key =>
    if verify header.signableBytes header.signature key then .ok () else .error .invalidSignature

/-- Check a header against its parent and the validator set. -/
def verifyHeader (e : ConsensusEngine) (header parent : BlockHeader) (vs : ValidatorSet) :
    Option (Except ConsensusError Unit) :=
  if header.number ≠ parent.number + 1 then
    some (.error (.wrongBlockNumber (parent.number + 1) header.number))
  else if header.parentHash ≠ parent.hash then
    some (.error (.wrongParentHash parent.hash header.parentHash))
  else if header.timestamp ≤ parent.timestamp then
    some (.error (.invalidTimestamp header.timestamp parent.timestamp))
  else do
    match ← e.blockProducer vs header.number with
    | .error err => pure (.error err)
    | .ok producer =>
      if header.validator ≠ producer.address then
        pure (.error (.wrongBlockProducer producer.address header.validator))
      else
        let expectedEpoch ← e.epochForBlock header.number
        let expectedSlot ← e.slotForBlock header.number
        if header.epoch ≠ expectedEpoch then
          pure (.error (.wrongBlockNumber expectedEpoch header.epoch))
        else if header.slot ≠ expectedSlot then
          pure (.error (.wrongBlockNumber expectedSlot.toUInt64 header.slot.toUInt64))
        else
          pure (verifyHeaderSignature header producer)

/-- What a verified header says: it continues its parent, and it names the producer, the epoch and
the slot of its number. -/
structure Verified (e : ConsensusEngine) (header parent : BlockHeader) (vs : ValidatorSet)
    (producer : ValidatorInfo) : Prop where
  number : header.number = parent.number + 1
  parentHash : header.parentHash = parent.hash
  timestamp : parent.timestamp < header.timestamp
  scheduled : e.blockProducer vs header.number = some (.ok producer)
  validator : header.validator = producer.address
  epoch : e.epochForBlock header.number = some header.epoch
  slot : e.slotForBlock header.number = some header.slot
  signature : verifyHeaderSignature header producer = .ok ()

theorem verifyHeader_ok_iff {e : ConsensusEngine} {header parent : BlockHeader}
    {vs : ValidatorSet} :
    e.verifyHeader header parent vs = some (.ok ()) ↔
      ∃ producer, Verified e header parent vs producer := by
  constructor
  · intro h
    unfold verifyHeader at h
    split at h
    · simp at h
    split at h
    · simp at h
    split at h
    · simp at h
    rename_i hnumber hparent htime
    obtain ⟨scheduled, hscheduled, hrest⟩ := bind_eq_some_iff.1 h
    cases scheduled with
    | error => simp at hrest
    | ok producer =>
      dsimp only at hrest
      split at hrest
      · simp at hrest
      rename_i hvalidator
      obtain ⟨_, hepoch, hrest'⟩ := bind_eq_some_iff.1 hrest
      obtain ⟨_, hslot, hlast⟩ := bind_eq_some_iff.1 hrest'
      split at hlast
      · simp at hlast
      split at hlast
      · simp at hlast
      rename_i hepoch' hslot'
      rw [not_not] at hnumber hparent hvalidator hepoch' hslot'
      rw [← hepoch'] at hepoch
      rw [← hslot'] at hslot
      exact ⟨producer, hnumber, hparent, UInt64.not_le.1 htime, hscheduled, hvalidator, hepoch,
        hslot, some.inj hlast⟩
  · rintro ⟨_, h⟩
    unfold verifyHeader
    rw [if_neg (not_not.2 h.number), if_neg (not_not.2 h.parentHash),
      if_neg (UInt64.not_le.2 h.timestamp), h.scheduled]
    simp [h.validator, h.epoch, h.slot, h.signature]

/-- Check evidence of double signing against the validator set. -/
def verifyDoubleSign (evidence : DoubleSignEvidence) (vs : ValidatorSet) :
    Except ConsensusError Address :=
  if !evidence.isValid then
    .error .invalidEvidence
  else
    match vs.get evidence.offender with
    | none => .error (.validatorNotInSet evidence.offender)
    | some info =>
      match verifyHeaderSignature evidence.headerA info,
        verifyHeaderSignature evidence.headerB info with
      | .ok (), .ok () => .ok evidence.offender
      | _, _ => .error .invalidSignature

end ConsensusEngine

end Vtt
