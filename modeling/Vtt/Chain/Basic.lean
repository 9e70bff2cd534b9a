import Vtt.Lib.Exec
import Vtt.Consensus.Engine
import Vtt.State.Restart

/-!
# The chain

The blocks that a node knows, the canonical index, the head and the world state. The store of the
chain is the store of its state; `persistent` says whether the chain writes its own records to it.
-/

namespace Vtt

open Lib Exec

/-- The errors of the chain. -/
inductive ChainError where
  | blockAlreadyKnown (hash : H256)
  | unknownParent (hash : H256)
  | consensus (error : ConsensusError)
  | invalidTransactionsRoot (expected got : H256)
  | invalidStateRoot (expected got : H256)
  | genesisAlreadySet
  | noGenesis
  | revertsPastFinalized (blockNumber finalized : UInt64)
  | invalidTimestamp (block parent : UInt64)
  | timestampTooFarInFuture (block now : UInt64)
  | weakSubjectivityViolation (checkpoint : UInt64) (expected got : H256)
deriving DecidableEq

/-- The result of importing a block. -/
structure ImportResult where
  blockHash : H256
  blockNumber : BlockNumber
  receipts : List TransactionReceipt
  isNewHead : Bool
deriving DecidableEq

/-- The chain. -/
structure Chain where
  headers : FinMap H256 BlockHeader
  bodies : FinMap H256 Block
  canonical : FinMap UInt64 H256
  headHash : Option H256
  state : StateDB
  consensus : ConsensusEngine
  gasConfig : GasConfig
  validatorSet : ValidatorSet
  persistent : Bool
  finalizedBlock : BlockNumber
  weakSubjectivity : Option (BlockNumber × H256)

namespace Chain

/-- An empty chain on a state. -/
def onState (consensus : ConsensusEngine) (gasConfig : GasConfig) (state : StateDB)
    (persistent : Bool) (finalizedBlock : BlockNumber) : Chain where
  headers := ∅
  bodies := ∅
  canonical := ∅
  headHash := none
  state
  consensus
  gasConfig
  validatorSet := .empty 0
  persistent
  finalizedBlock
  weakSubjectivity := none

/-- An empty chain in memory. -/
def new (consensus : ConsensusEngine) (gasConfig : GasConfig) : Chain :=
  onState consensus gasConfig .new false 0

/-! ## Reading -/

/-- The header of the head. -/
def head (c : Chain) : Option BlockHeader := c.headHash.bind fun h => c.headers[h]?

def getHeader (c : Chain) (hash : H256) : Option BlockHeader := c.headers[hash]?

def getBlock (c : Chain) (hash : H256) : Option Block := c.bodies[hash]?

def getCanonicalHash (c : Chain) (number : BlockNumber) : Option H256 := c.canonical[number]?

def getBlockByNumber (c : Chain) (number : BlockNumber) : Option Block :=
  c.canonical[number]?.bind fun hash => c.bodies[hash]?

def height (c : Chain) : Option BlockNumber := c.head.map (·.number)

/-! ## Writing -/

/-- The chain with another state. -/
def withState (c : Chain) (state : StateDB) : Chain := { c with state }

@[simp] theorem withState_state (c : Chain) (state : StateDB) : (c.withState state).state = state :=
  rfl

/-- Code that works on the state of the chain. -/
def onStateOf {ε α : Type} (x : Exec StateDB ε α) : Exec Chain ε α :=
  x.zoom Chain.state fun state c => c.withState state

/-- A write to the store, if the chain is persistent. -/
def persist (c : Chain) (write : Storage → Storage) : Chain :=
  if c.persistent then c.withState { c.state with storage := write c.state.storage } else c

/-- Raise the finalized height. -/
def setFinalizedBlock (c : Chain) (number : BlockNumber) : Chain :=
  if c.finalizedBlock < number then
    { c with finalizedBlock := number, state := c.state.setFinalizedBlock number }
  else c

def setWeakSubjectivityCheckpoint (c : Chain) (number : BlockNumber) (hash : H256) : Chain :=
  { c with weakSubjectivity := some (number, hash) }

/-- The key of a canonical hash in the store. -/
def canonicalKey (number : BlockNumber) : Bytes := ascii ("canonical:" ++ toString number.toNat)

/-- The value of the index from a transaction to its place. -/
def txPlace (number : BlockNumber) (index : Nat) : Bytes :=
  leBytes 8 number.toNat ++ leBytes 4 index

variable [Crypto]

/-- The entries of the index for the transactions of a block. -/
def txIndexEntries (number : BlockNumber) (transactions : List SignedTransaction) :
    List (Bytes × Bytes) :=
  transactions.zipIdx.map fun t => (t.1.hash.asBytes, txPlace number t.2)

/-! ## Starting -/

/-- Start from a genesis block and its state. A chain that was loaded from a store checks that it
has the same genesis, and fills the index of stakers if it is missing. -/
def initGenesis (genesisBlock : Block) (genesisState : StateDB) : Exec Chain ChainError H256 := do
  let blockHash := genesisBlock.header.hash
  let head ← view (·.headHash)
  match head with
  | some head => do
    let stored ← view (·.canonical[(0 : UInt64)]?)
    require (stored = some blockHash) .genesisAlreadySet
    let stakers ← view (·.state.stakers)
    if stakers.isEmpty then do
      let number ← view fun c => ((c.headers[head]?).map (·.number)).getD 0
      update fun c => c.withState (c.state.bootstrapStakersFrom genesisState)
      let epoch ← view (·.consensus.epochForBlock number)
      let epoch ← unwrap epoch
      update fun c => { c with validatorSet := c.consensus.electValidators c.state epoch }
    else pure ()
    pure head
  | none => do
    let persistent ← view (·.persistent)
    let store ← view (·.state.storage)
    let adopted ← unwrap (if persistent then store.bind genesisState.attachStorage
      else some genesisState)
    update fun c => c.withState adopted
    update fun c => c.persist fun s =>
      let s := s.write .blockHeaders blockHash.asBytes (Borsh.serialize genesisBlock.header)
      let s := s.write .blockBodies blockHash.asBytes (Borsh.serialize genesisBlock)
      let s := s.write .chainIndex (canonicalKey 0) blockHash.asBytes
      s.write .chainMeta (ascii "head_hash") blockHash.asBytes
    update fun c =>
      { c with
        validatorSet := c.consensus.electValidators c.state 0
        headers := c.headers.insert blockHash genesisBlock.header
        bodies := c.bodies.insert blockHash genesisBlock
        canonical := c.canonical.insert 0 blockHash
        headHash := some blockHash }
    pure blockHash

end Chain

end Vtt
