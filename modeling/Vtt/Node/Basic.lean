import Vtt.Consensus.Finality
import Vtt.Producer

/-!
# A validator node

What a validator does with the messages of its peers and at the ticks of its block timer. The locks
around the chain and the pool are not modelled: a message or a tick is handled before the next. The
wall clock is read once for a message; the monotonic clock of the pool is an argument of its own.
-/

namespace Vtt

open Lib

/-- The messages between nodes. -/
inductive NetworkMessage where
  | blockAnnounce (blockHash : H256) (blockNumber : BlockNumber) (block : Block)
  | transactionBroadcast (transaction : SignedTransaction)
  | blockRequest (blockHash : H256)
  | blockRangeRequest (requestId : UInt64) (fromNumber : BlockNumber) (count : UInt32)
  | blockResponse (requestId : UInt64) (block : Option Block)
  | blockRangeResponse (requestId : UInt64) (blocks : List Block)
  | status (chainId : ChainId) (bestBlockHash : H256) (bestBlockNumber : BlockNumber)
    (genesisHash : H256)
  | finalityVote (voter : Address) (blockHash : H256) (blockNumber : BlockNumber)
    (signature : Signature)

/-- A validator node. -/
structure Node where
  chain : Chain
  pool : TxPool
  tracker : FinalityTracker
  keypair : Keypair
  gasConfig : GasConfig
  nextRequestId : UInt64

namespace Node

/-- The most blocks that are asked for at once. -/
def syncBatchSize : UInt32 := 100

/-- A node on a chain that was started. -/
def start (chain : Chain) (keypair : Keypair) (gasConfig : GasConfig) : Node where
  chain
  pool := .empty
  tracker := .new chain.validatorSet.validators.length
  keypair
  gasConfig
  nextRequestId := 1

variable {ε : Type}

/-- Code that works on the chain of a node. -/
def onChain {ε α : Type} (x : Exec Chain ε α) : Exec Node ε α :=
  x.zoom Node.chain fun chain node => { node with chain }

/-- Code that works on the pool of a node. -/
def onPool {ε α : Type} (x : Exec TxPool ε α) : Exec Node ε α :=
  x.zoom Node.pool fun pool node => { node with pool }

/-- Submit a vote to the tracker; a block that became final is recorded in the chain. -/
def attest (node : Node) (vote : FinalityVote) : Node :=
  let submitted := node.tracker.submitVote vote
  { node with
    tracker := submitted.2
    chain := if submitted.1 then node.chain.setFinalizedBlock vote.blockNumber else node.chain }

/-- A number for a request. -/
def freshRequestId : Exec Node ε UInt64 :=
  Exec.act fun node => (node.nextRequestId, { node with nextRequestId := node.nextRequestId + 1 })

/-- The canonical blocks from a number on, up to a count or the first that is missing. -/
def blocksFrom (chain : Chain) : BlockNumber → Nat → List Block
  | _, 0 => []
  | number, count + 1 =>
    match chain.getBlockByNumber number with
    | some block => block :: blocksFrom chain (number + 1) count
    | none => []

/-- Ask for the blocks after the height if a peer is ahead. -/
def requestMissing (bestBlockNumber : BlockNumber) : Exec Node ε (List NetworkMessage) := do
  let height ← Exec.view fun node => node.chain.height.getD 0
  if height < bestBlockNumber then do
    let requestId ← freshRequestId
    let count := min (bestBlockNumber - height).toUInt32 syncBatchSize
    pure [.blockRangeRequest requestId (height + 1) count]
  else
    pure []

section Messages

variable [Crypto] [Wasm] [Environment]

/-- Import a block of a peer; an accepted block counts as its validator's vote for the announced
hash. -/
def importAnnounced (now : UInt64) (blockHash : H256) (block : Block) : Exec Node ε Unit := do
  let outcome ← (onChain (Chain.importBlock now block)).attempt
  match outcome with
  | .ok result =>
    Exec.update (·.attest ⟨block.header.validator, blockHash, result.blockNumber⟩)
  | .error _ => pure ()

/-- Import blocks in turn until one is refused; returns how many were imported. -/
def importRange (now : UInt64) : List Block → Exec Node ε UInt64
  | [] => pure 0
  | block :: rest => do
    let outcome ← (onChain (Chain.importBlock now block)).attempt
    match outcome with
    | .ok _ => do
      let imported ← importRange now rest
      pure (imported + 1)
    | .error _ => pure 0

/-- Ask for more blocks after a full batch of which some were imported. -/
def requestMore (imported : UInt64) (received : UInt32) : Exec Node ε (List NetworkMessage) := do
  let height ← Exec.view fun node => node.chain.height.getD 0
  if 0 < imported ∧ received = syncBatchSize then do
    let requestId ← freshRequestId
    pure [.blockRangeRequest requestId (height + 1) syncBatchSize]
  else
    pure []

/-- The bytes that a finality vote signs. -/
def voteBytes (voter : Address) (blockHash : H256) (blockNumber : BlockNumber) : Bytes :=
  Borsh.serialize (voter, blockHash, blockNumber)

/-- The public key under which the validator set knows a voter. -/
def voterKey (node : Node) (voter : Address) : Option PublicKey :=
  (node.chain.validatorSet.get voter).bind (·.publicKey)

/-- Count the finality vote of a peer if its signature verifies under the known key of the voter. -/
def countVote (node : Node) (voter : Address) (blockHash : H256) (blockNumber : BlockNumber)
    (signature : Signature) : Node :=
  match node.voterKey voter with
  | none => node
  | some key =>
    if verify (voteBytes voter blockHash blockNumber) signature key then
      node.attest ⟨voter, blockHash, blockNumber⟩
    else node

/-- Handle a message of a peer; returns the messages to broadcast. -/
def handleNetworkMessage (now : UInt64) (instant : Nat) (message : NetworkMessage) :
    Exec Node ε (List NetworkMessage) :=
  match message with
  | .blockAnnounce blockHash _ block => do
    let own ← Exec.view (·.keypair.address)
    if block.header.validator = own then pure ()
    else importAnnounced now blockHash block
    pure []
  | .transactionBroadcast transaction => do
    let sender := transaction.sender
    let nonce ← Exec.view (·.chain.state.getNonce sender)
    (onPool (TxPool.add transaction sender nonce instant)).ignoreError
    pure []
  | .status _ _ bestBlockNumber _ => requestMissing bestBlockNumber
  | .blockRangeRequest requestId fromNumber count => do
    let chain ← Exec.view (·.chain)
    pure [.blockRangeResponse requestId
      (blocksFrom chain fromNumber (min count syncBatchSize).toNat)]
  | .blockRangeResponse _ blocks =>
    if blocks.isEmpty then
      pure []
    else do
      let imported ← importRange now blocks
      requestMore imported (.ofNat blocks.length)
  | .blockRequest blockHash => do
    let block ← Exec.view (·.chain.getBlock blockHash)
    let requestId ← freshRequestId
    pure [.blockResponse requestId block]
  | .blockResponse _ block => do
    let _ ← importRange now block.toList
    pure []
  | .finalityVote voter blockHash blockNumber signature => do
    Exec.update (·.countVote voter blockHash blockNumber signature)
    pure []

/-- Tell the tracker how many validators there are. -/
def refreshValidatorCount (node : Node) : Node :=
  { node with
    tracker := node.tracker.setValidatorCount node.chain.validatorSet.validators.length }

/-- Receive a message: handle it, and tell the tracker how many validators there are now. -/
def receive (now : UInt64) (instant : Nat) (message : NetworkMessage) :
    Exec Node ε (List NetworkMessage) := do
  let replies ← handleNetworkMessage now instant message
  Exec.update refreshValidatorCount
  pure replies

/-- A tick of the block timer: try to produce a block, and vote for it. -/
def tick (now importNow : UInt64) : Exec Node ε (Option Block) := do
  let node ← Exec.view id
  let produced ←
    onChain (Producer.tryProduceBlock node.keypair node.gasConfig now importNow node.pool)
  Exec.update fun node => { node with pool := produced.2 }
  match produced.1 with
  | none => pure none
  | some block => do
    Exec.update (·.attest ⟨node.keypair.address, block.header.hash, block.header.number⟩)
    pure (some block)

/-- What happens to a node: a message of a peer at a time, a tick of the block timer with the block
that is produced at it, and the eviction of old transactions. -/
inductive NodeEvent where
  | message (now : UInt64) (instant : Nat) (message : NetworkMessage)
  | tick (now importNow : UInt64) (produced : Option Block)
  | eviction (instant : Nat)

/-- One event. -/
def Step (node : Node) : NodeEvent → Node → Prop
  | .message now instant message, node' =>
    ∃ replies, (receive now instant message : Exec Node Empty _).run node =
      some (.ok replies, node')
  | .tick now importNow produced, node' =>
    (tick now importNow : Exec Node Empty _).run node = some (.ok produced, node')
  | .eviction instant, node' => node' = { node with pool := node.pool.evictExpired instant }

end Messages

end Node

end Vtt
