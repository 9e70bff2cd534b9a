import Vtt.Chain.Import
import Vtt.TxPool

/-!
# Producing blocks

A validator whose turn it is executes the selected transactions on the live state, settles the
block, builds and signs the header over the resulting root, and then imports its own block without
executing it again. The gas configuration of the node is an argument of its own, and so is the wall
clock.
-/

namespace Vtt

open Lib Executor

namespace Producer

/-- The gas limit of a produced block. -/
def blockGasLimit : UInt64 := 10000000

/-- The most transactions of a produced block. -/
def maxTransactions : Nat := 100

variable [Crypto]

/-- The hash of a receipt. -/
def receiptHash (r : TransactionReceipt) : H256 := blake3Hash (Borsh.serialize r)

/-- The root over the receipts of a block. -/
def receiptsRoot (receipts : List TransactionReceipt) : H256 :=
  merkleRoot (receipts.map receiptHash)

/-- What a produced block is built from. -/
structure Draft where
  validator : Address
  head : BlockHeader
  now : UInt64
  epoch : Epoch
  slot : UInt32
  txs : List SignedTransaction
deriving DecidableEq

/-- The unsigned header of a produced block. -/
def Draft.header (d : Draft) (stateRoot : H256) (receipts : List TransactionReceipt)
    (gasUsed : UInt64) : BlockHeader where
  version := 1
  chainId := d.head.chainId
  number := d.head.number + 1
  parentHash := d.head.hash
  transactionsRoot := Chain.txRoot d.txs
  stateRoot
  receiptsRoot := receiptsRoot receipts
  validator := d.validator
  epoch := d.epoch
  slot := d.slot
  timestamp := d.now
  gasLimit := blockGasLimit
  gasUsed
  crossChainRoot := none
  signature := .zero

/-- The signed block of a draft. -/
def Draft.block (d : Draft) (keypair : Keypair) (stateRoot : H256)
    (receipts : List TransactionReceipt) (gasUsed : UInt64) : Block :=
  let header := d.header stateRoot receipts gasUsed
  ⟨header.withSignature (keypair.sign header.signableBytes), d.txs⟩

/-- The transactions for the next block, with the nonces of the senders in the state. -/
def selectFor (pool : TxPool) (db : StateDB) : List SignedTransaction :=
  pool.selectTransactions maxTransactions db.getNonce

/-- Drop the transactions of the senders whose nonce moved on. -/
def pruneMined (pool : TxPool) (before after : StateDB) : TxPool :=
  pool.senders.foldl (fun p sender =>
    if before.getNonce sender < after.getNonce sender then
      p.removeCommitted sender (after.getNonce sender - 1)
    else p) pool

variable [Wasm] [Environment]

/-- Execute and settle the transactions of a draft on the state; returns the receipts and the gas
used. -/
def produceState (ctx : BlockContext) (params : ConsensusParams) (validator : Address)
    (txs : List SignedTransaction) (totalStaked : Amount) :
    SettleM Empty (List TransactionReceipt × UInt64) := do
  let result ← SettleM.lift (executeBlockTransactionsAt ctx txs blockGasLimit)
  let _ ← applyBlockRewardsAndGovernance ctx.blockNumber result.2 ctx.gasConfig validator
    totalStaked params
  pure result

/-- A header for which it is the validator's turn: the head to build on. -/
def ourTurn (c : Chain) (validator : Address) : Option (Option BlockHeader) :=
  match c.head with
  | none => some none
  | some head =>
    (c.consensus.blockProducer c.validatorSet (head.number + 1)).map fun
      | .ok v => if v.address = validator then some head else none
      | .error _ => none

/-- Produce a block on a head. The clock is read for the block's timestamp and again when the block
is imported. Nothing is rolled back if the block cannot be imported. -/
def produceOn (keypair : Keypair) (gasConfig : GasConfig) (now importNow : UInt64) (pool : TxPool)
    (head : BlockHeader) : Exec Chain ChainError (Block × ImportResult) := do
  let number := head.number + 1
  let txs ← Exec.view fun c => selectFor pool c.state
  let params ← Exec.view (·.consensus.params)
  let ctx : BlockContext := ⟨gasConfig, number, now, head.chainId⟩
  let staked ← Exec.view (·.validatorSet.totalStake)
  let totalStaked ← Exec.unwrap staked
  let result ←
    Chain.onStateOf (produceState ctx params keypair.address txs totalStaked).code.infallible
  let root ← Exec.act Chain.computeRoot
  let engine ← Exec.view (·.consensus)
  let epoch ← Exec.unwrap (engine.epochForBlock number)
  let slot ← Exec.unwrap (engine.slotForBlock number)
  let draft : Draft := ⟨keypair.address, head, now, epoch, slot, txs⟩
  let block := draft.block keypair root result.1 result.2
  let imported ← Chain.importProducedBlock importNow block result.1
  pure (block, imported)

/-- What an attempt to produce gives: the block, if it was produced and imported, and the pool. -/
def attemptResult (pool : TxPool) (before : StateDB)
    (outcome : Except ChainError (Block × ImportResult)) (after : StateDB) :
    Option Block × TxPool :=
  match outcome with
  | .ok produced => (some produced.1, pruneMined pool before after)
  | .error _ => (none, pool)

/-- Try to produce a block, if it is our turn. Returns the block to broadcast, and the pool without
the mined transactions. -/
def tryProduceBlock {ε : Type} (keypair : Keypair) (gasConfig : GasConfig)
    (now importNow : UInt64) (pool : TxPool) : Exec Chain ε (Option Block × TxPool) := do
  let turn ← Exec.view (ourTurn · keypair.address)
  let turn ← Exec.unwrap turn
  match turn with
  | none => pure (none, pool)
  | some head => do
    let before ← Exec.view (·.state)
    let outcome ← (produceOn keypair gasConfig now importNow pool head).attempt
    let after ← Exec.view (·.state)
    pure (attemptResult pool before outcome after)

end Producer

end Vtt
