import Vtt.Chain.Basic
import Vtt.Executor.Block

/-!
# Importing blocks

A block is checked, the epoch is entered, the header is verified, the block is noted as seen,
executed and settled, its state root is compared, and then it is stored and the fork choice is made.
Only a wrong state root rolls anything back. The wall clock is an argument.
-/

namespace Vtt

open Lib Executor Exec

namespace Chain

variable [Crypto]

/-! ## Checks at the entry -/

/-- How far ahead of the wall clock a block may be. -/
def maxFutureDriftMs : UInt64 := 30000

/-- The hash at the checkpoint that contradicts it, for a block at or above it. -/
def checkpointConflict (c : Chain) (number : BlockNumber) : Option ChainError :=
  match c.weakSubjectivity with
  | none => none
  | some (checkpoint, hash) =>
    if number < checkpoint then
      none
    else
      match c.canonical[checkpoint]? with
      | none => none
      | some stored =>
        if stored = hash then none else some (.weakSubjectivityViolation checkpoint hash stored)

/-- The root over the transactions of a block. -/
def txRoot (transactions : List SignedTransaction) : H256 :=
  merkleRoot (transactions.map (·.hash))

/-- The checks that a block must pass before anything is changed; returns the header of its
parent. -/
def checkBlock (c : Chain) (now : UInt64) (block : Block) : Except ChainError BlockHeader :=
  let header := block.header
  if c.headers.contains header.hash then
    .error (.blockAlreadyKnown header.hash)
  else
    match c.headers[header.parentHash]? with
    | none => .error (.unknownParent header.parentHash)
    | some parent =>
      if 0 < c.finalizedBlock ∧ parent.number < c.finalizedBlock then
        .error (.revertsPastFinalized header.number c.finalizedBlock)
      else
        match c.checkpointConflict header.number with
        | some e => .error e
        | none =>
          if header.timestamp ≤ parent.timestamp then
            .error (.invalidTimestamp header.timestamp parent.timestamp)
          else if 0 < now ∧ U64.saturatingAdd now maxFutureDriftMs < header.timestamp then
            .error (.timestampTooFarInFuture header.timestamp now)
          else if header.transactionsRoot ≠ txRoot block.transactions then
            .error (.invalidTransactionsRoot (txRoot block.transactions) header.transactionsRoot)
          else
            .ok parent

/-! ## Entering an epoch -/

/-- The slots of an epoch that fall to one validator. -/
def slotAllocation (slotsPerEpoch validatorCount : UInt64) : UInt32 :=
  let share := slotsPerEpoch / validatorCount
  (if share ≤ 1 then 1 else share).toUInt32

/-- Slash a validator that missed too many slots of an epoch. -/
def slashDowntime (slots : UInt32) (thresholdPct : UInt8) (bps : UInt16) (epoch : Epoch)
    (db : StateDB) (missed : Address × UInt32) : StateDB :=
  let totalStake := totalStakeOf (db.getAccount missed.1)
  if isDowntimeViolation missed.2 slots thresholdPct && !totalStake.isZero then
    let (actual, db) := db.applySlash missed.1 (calculateDowntimeSlash totalStake bps)
    if actual.isZero then db else db.recordSlash missed.1 epoch "downtime" actual
  else db

/-- The state after the missed slots of an epoch were taken and punished. -/
def closeEpoch (params : ConsensusParams) (vs : ValidatorSet) (db : StateDB) : StateDB :=
  let (missed, db) := db.takeMissedSlotsForEpoch vs.epoch
  let thresholdPct := db.getDowntimeThresholdPctOverride.getD params.downtimeThresholdPct
  let bps := db.getSlashDowntimeBpsOverride.getD params.slashDowntimeBps
  let count := UInt64.ofNat vs.validators.length
  if 0 < count ∧ 0 < params.epochLength then
    missed.foldl (slashDowntime (slotAllocation params.epochLength count) thresholdPct bps vs.epoch)
      db
  else db

/-- Enter the epoch of a block: close the old one and elect validators. -/
def enterEpoch (c : Chain) (epoch : Epoch) : Chain :=
  if c.validatorSet.epoch < epoch then
    let state := closeEpoch c.consensus.params c.validatorSet c.state
    { c with state, validatorSet := c.consensus.electValidators state epoch }
  else c

/-! ## Noting a block -/

/-- The header of a different block that was noted before at the slot of a block, if it is known. -/
def conflicting (c : Chain) (header : BlockHeader) (prior : Option H256) : Option BlockHeader :=
  (prior.filter (· ≠ header.hash)).bind fun hash => c.headers[hash]?

/-- Note the block of a slot; a different one noted before is evidence, if its header is known. -/
def observeBlock (c : Chain) (header : BlockHeader) (epoch : Epoch) : Chain :=
  let (prior, state) :=
    c.state.recordBlockCommitment header.validator header.epoch header.slot header.hash
  match c.conflicting header prior with
  | none => c.withState state
  | some priorHeader =>
    let bps := state.getSlashDoubleSignBpsOverride.getD c.consensus.params.slashDoubleSignBps
    c.withState (processSlashingEvidence state [⟨priorHeader, header⟩] bps epoch).2

/-- The validators whose slots between two slots passed without a block. -/
def skippedLeaders (vs : ValidatorSet) (header parent : BlockHeader) : List Address :=
  let first := parent.slot + 1
  if header.epoch = parent.epoch ∧ first < header.slot then
    let slots := (List.range (header.slot.toNat - first.toNat)).map (first.toNat + ·)
    slots.filterMap fun slot =>
      (vs.validators[slot % vs.validators.length]?).bind fun v =>
        if v.address = header.validator then none else some v.address
  else []

/-- Count the missed slots since the parent. -/
def trackMissedSlots (c : Chain) (header parent : BlockHeader) : Chain :=
  c.withState ((skippedLeaders c.validatorSet header parent).foldl
    (fun db v => db.recordMissedSlot header.epoch v) c.state)

/-! ## Storing a block -/

/-- Write a block, its receipts and the index of its transactions to the store. -/
def persistBlock (c : Chain) (block : Block) (receipts : List TransactionReceipt) : Chain :=
  let hash := block.header.hash
  c.persist fun s =>
    let s := s.write .blockHeaders hash.asBytes (Borsh.serialize block.header)
    let s := s.write .blockBodies hash.asBytes (Borsh.serialize block)
    let s := s.writeAll .receipts (receipts.map fun r => (r.txHash.asBytes, Borsh.serialize r))
    let s := s.writeAll .transactions (txIndexEntries block.header.number block.transactions)
    s.write .chainMeta (ascii "tx_index:head") (leBytes 8 block.header.number.toNat)

/-- Keep the header and the body of a block. -/
def insertBlock (c : Chain) (block : Block) : Chain :=
  { c with
    headers := c.headers.insert block.header.hash block.header
    bodies := c.bodies.insert block.header.hash block }

/-- The longest chain wins; between equal heights the smaller hash. -/
def isNewHead (c : Chain) (header : BlockHeader) : Bool :=
  match c.head with
  | none => true
  | some head =>
    if head.number < header.number then true
    else if header.number < head.number then false
    else compare header.hash (c.headHash.getD .zero) == .lt

/-- Make a block the head. Only the canonical entry of its own height is written. -/
def adoptHead (c : Chain) (header : BlockHeader) : Chain :=
  let c := c.persist fun s =>
    (s.write .chainIndex (canonicalKey header.number) header.hash.asBytes).write .chainMeta
      (ascii "head_hash") header.hash.asBytes
  { c with
    canonical := c.canonical.insert header.number header.hash
    headHash := some header.hash }

/-- Store a block and make the fork choice. -/
def storeBlock (c : Chain) (block : Block) (receipts : List TransactionReceipt) :
    ImportResult × Chain :=
  let stored := (c.persistBlock block receipts).insertBlock block
  let newHead := stored.isNewHead block.header
  (⟨block.header.hash, block.header.number, receipts, newHead⟩,
    if newHead then stored.adoptHead block.header else stored)

/-! ## Importing -/

/-- The state root of the chain, with the changes flushed into the trie. -/
def computeRoot (c : Chain) : H256 × Chain :=
  (c.state.computeStateRoot.1, c.withState c.state.computeStateRoot.2)

theorem computeRoot_fst (c : Chain) : c.computeRoot.1 = c.state.flushedTrie.root := rfl

/-- What the header of a block tells the execution. -/
def blockContext (c : Chain) (header : BlockHeader) : BlockContext :=
  ⟨c.gasConfig, header.number, header.timestamp, header.chainId⟩

variable [Wasm] [Environment]

/-- Execute and settle a block of another node, with the gas that its header declares. -/
def executeBlock (ctx : BlockContext) (params : ConsensusParams) (block : Block)
    (totalStaked : Amount) : SettleM Empty (List TransactionReceipt) := do
  let result ←
    SettleM.lift (executeBlockTransactionsAt ctx block.transactions block.header.gasLimit)
  let _ ← applyBlockRewardsAndGovernance block.header.number block.header.gasUsed ctx.gasConfig
    block.header.validator totalStaked params
  pure result.1

/-- The receipts of a block: those of its production, or those of executing it now. -/
def runBlock (block : Block) (provided : Option (List TransactionReceipt)) (totalStaked : Amount) :
    Exec Chain ChainError (List TransactionReceipt) :=
  match provided with
  | some receipts => pure receipts
  | none => do
    let ctx ← view (·.blockContext block.header)
    let params ← view (·.consensus.params)
    onStateOf (executeBlock ctx params block totalStaked).code.infallible

/-- Compare the state root; a wrong one restores the caches and the validator set. -/
def settleRoot (header : BlockHeader) (snapshot : StateSnapshot) (validatorSet : ValidatorSet) :
    Exec Chain ChainError Unit := do
  let root ← act computeRoot
  if header.stateRoot = root then
    pure ()
  else do
    update fun c => { c with state := c.state.restore snapshot, validatorSet }
    fail (.invalidStateRoot root header.stateRoot)

/-- Import a block, with the receipts of its production if it is our own. -/
def importBlockImpl (now : UInt64) (block : Block) (provided : Option (List TransactionReceipt)) :
    Exec Chain ChainError ImportResult := do
  let checked ← view (·.checkBlock now block)
  let parent ← ofExcept checked
  let snapshot ← view (·.state.snapshot)
  let validatorSet ← view (·.validatorSet)
  -- the stake before the epoch is entered is what the reward is reckoned with
  let totalStaked ← unwrap validatorSet.totalStake
  let engine ← view (·.consensus)
  let epoch ← unwrap (engine.epochForBlock block.header.number)
  update (·.enterEpoch epoch)
  let verified ← view fun c => engine.verifyHeader block.header parent c.validatorSet
  let verified ← unwrap verified
  ofExcept (verified.mapError .consensus)
  update (·.observeBlock block.header epoch)
  update (·.trackMissedSlots block.header parent)
  let receipts ← runBlock block provided totalStaked
  settleRoot block.header snapshot validatorSet
  act (·.storeBlock block receipts)

/-- Import a block of another node. -/
def importBlock (now : UInt64) (block : Block) : Exec Chain ChainError ImportResult :=
  importBlockImpl now block none

/-- Import a block that this node produced and whose effects are in the state already. -/
def importProducedBlock (now : UInt64) (block : Block) (receipts : List TransactionReceipt) :
    Exec Chain ChainError ImportResult :=
  importBlockImpl now block (some receipts)

end Chain

end Vtt
