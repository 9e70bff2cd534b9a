import Vtt.Crypto
import Vtt.Lib.Exec

/-!
# The transaction pool

Pending transactions by hash and by sender, their admission, and the selection of transactions for a
block. Senders are visited in the order of their addresses, transactions in the order of their
hashes; the order of a hash map is not fixed by the source. Times of the monotonic clock are in
nanoseconds.
-/

namespace Vtt

open Lib Exec

/-- The errors of the pool. -/
inductive TxPoolError where
  | alreadyExists (hash : H256)
  | poolFull (max : Nat)
  | gasPriceTooLow (got min : Amount)
  | nonceTooLow (current got : UInt64)
deriving DecidableEq

/-- The configuration of the pool. -/
structure TxPoolConfig where
  maxSize : Nat
  maxPerAccount : Nat
  minGasPrice : Amount
  txTtlSecs : UInt64
deriving DecidableEq

def TxPoolConfig.default : TxPoolConfig := ⟨10000, 100, ⟨1000000000⟩, 3600⟩

/-- A pending transaction. -/
structure PoolEntry where
  tx : SignedTransaction
  sender : Address
  insertedAt : Nat
deriving DecidableEq

/-- The transaction pool. -/
structure TxPool where
  config : TxPoolConfig
  byHash : FinMap H256 PoolEntry
  bySender : FinMap Address (FinMap UInt64 H256)
  known : FinSet H256

namespace TxPool

/-- A pool with nothing in it. -/
def new (config : TxPoolConfig) : TxPool := ⟨config, ∅, ∅, ∅⟩

/-- The pool that a node starts with. -/
def empty : TxPool := new .default

/-! ## Admission -/

/-- The queues of the senders with another queue for one of them; an empty queue is dropped. -/
def setQueue (queues : FinMap Address (FinMap UInt64 H256)) (sender : Address)
    (queue : FinMap UInt64 H256) : FinMap Address (FinMap UInt64 H256) :=
  if queue.isEmpty then queues.erase sender else queues.insert sender queue

/-- Remove a transaction; its hash stays known. -/
def remove (pool : TxPool) (hash : H256) : TxPool :=
  match pool.byHash[hash]? with
  | none => pool
  | some entry =>
    { pool with
      byHash := pool.byHash.erase hash
      bySender := match pool.bySender[entry.sender]? with
        | none => pool.bySender
        | some queue => setQueue pool.bySender entry.sender (queue.erase entry.tx.payload.nonce) }

/-- Remove a transaction and forget its hash. -/
def evict (pool : TxPool) (hash : H256) : TxPool :=
  { pool.remove hash with known := (pool.remove hash).known.erase hash }

/-- The first of the cheapest among transactions with their gas prices. -/
def cheapestOf : List (H256 × Amount) → Option (H256 × Amount)
  | [] => none
  | e :: rest =>
    match cheapestOf rest with
    | none => some e
    | some best => if best.2 < e.2 then some best else some e

/-- The cheapest pending transaction. -/
def cheapestTx (pool : TxPool) : Option (H256 × Amount) :=
  cheapestOf (pool.byHash.toList.map fun e => (e.1, e.2.tx.payload.gasPrice))

/-- The cheapest pending transaction of a queue. -/
def cheapestIn (pool : TxPool) (queue : FinMap UInt64 H256) : Option (H256 × Amount) :=
  cheapestOf (queue.toList.filterMap fun q =>
    (pool.byHash[q.2]?).map fun e => (q.2, e.tx.payload.gasPrice))

/-- The pending transaction of a sender under a nonce. -/
def pending (pool : TxPool) (sender : Address) (nonce : UInt64) : Option (H256 × PoolEntry) := do
  let queue ← pool.bySender[sender]?
  let hash ← queue[nonce]?
  let entry ← pool.byHash[hash]?
  pure (hash, entry)

/-- A transaction replaces a pending one of the same sender and nonce if it pays strictly more. -/
def replaceByFee (tx : SignedTransaction) (sender : Address) : Exec TxPool TxPoolError Unit := do
  let existing ← view (·.pending sender tx.payload.nonce)
  match existing with
  | none => pure ()
  | some (hash, entry) => do
    require (entry.tx.payload.gasPrice < tx.payload.gasPrice)
      (.gasPriceTooLow tx.payload.gasPrice entry.tx.payload.gasPrice)
    update (·.evict hash)

/-- Evict a cheaper transaction, or give up. -/
def evictCheaper (tx : SignedTransaction) (cheapest : Option (H256 × Amount)) (max : Nat) :
    Exec TxPool TxPoolError Unit :=
  match cheapest with
  | some (hash, gas) => do
    require (gas < tx.payload.gasPrice) (.poolFull max)
    update (·.evict hash)
  | none => fail (.poolFull max)

/-- Room for a transaction in a pool that is full. -/
def makeRoom (tx : SignedTransaction) : Exec TxPool TxPoolError Unit := do
  let pool ← view id
  if pool.config.maxSize ≤ pool.byHash.size then
    evictCheaper tx pool.cheapestTx pool.config.maxSize
  else pure ()

/-- The queue of a sender. -/
def queue (pool : TxPool) (sender : Address) : FinMap UInt64 H256 := (pool.bySender[sender]?).getD ∅

/-- Room for a transaction in the queue of its sender, which is made if there is none. -/
def makeRoomFor (tx : SignedTransaction) (sender : Address) : Exec TxPool TxPoolError Unit := do
  update fun p => { p with bySender := p.bySender.insert sender (p.queue sender) }
  let pool ← view id
  if pool.config.maxPerAccount ≤ (pool.queue sender).size then
    evictCheaper tx (pool.cheapestIn (pool.queue sender)) pool.config.maxPerAccount
  else pure ()

variable [Crypto]

/-- The pool with a transaction put into it. -/
def insert (pool : TxPool) (tx : SignedTransaction) (sender : Address) (now : Nat) : TxPool :=
  { pool with
    bySender := pool.bySender.insert sender ((pool.queue sender).insert tx.payload.nonce tx.hash)
    byHash := pool.byHash.insert tx.hash ⟨tx, sender, now⟩
    known := pool.known.insert tx.hash }

/-- Add a transaction of a sender whose account has a nonce. What was evicted on the way stays so if
the transaction is refused in the end. -/
def add (tx : SignedTransaction) (sender : Address) (accountNonce : UInt64) (now : Nat) :
    Exec TxPool TxPoolError H256 := do
  let known ← view (·.known.contains tx.hash)
  require (!known) (.alreadyExists tx.hash)
  let minGasPrice ← view (·.config.minGasPrice)
  require (minGasPrice ≤ tx.payload.gasPrice) (.gasPriceTooLow tx.payload.gasPrice minGasPrice)
  require (accountNonce ≤ tx.payload.nonce) (.nonceTooLow accountNonce tx.payload.nonce)
  replaceByFee tx sender
  makeRoom tx
  makeRoomFor tx sender
  update (·.insert tx sender now)
  pure tx.hash

omit [Crypto]

/-- Remove the transactions that are older than the configuration allows. -/
def evictExpired (pool : TxPool) (now : Nat) : TxPool :=
  if pool.config.txTtlSecs = 0 then
    pool
  else
    let ttl := pool.config.txTtlSecs.toNat * 1000000000
    let expired := pool.byHash.toList.filter fun e => ttl < now - e.2.insertedAt
    expired.foldl (fun p e => p.remove e.1) pool

/-! ## Selection -/

/-- The senders of pending transactions. -/
def senders (pool : TxPool) : List Address := pool.bySender.keys

/-- The pending transactions of a sender with consecutive nonces from a given one on. -/
def consecutive (pool : TxPool) : UInt64 → List (UInt64 × H256) → List SignedTransaction
  | _, [] => []
  | expected, (nonce, hash) :: rest =>
    if nonce ≠ expected then
      []
    else
      ((pool.byHash[hash]?).map (·.tx)).toList ++ pool.consecutive (expected + 1) rest

/-- A higher gas price comes first. -/
def pricedBefore (a b : SignedTransaction) : Prop := b.payload.gasPrice ≤ a.payload.gasPrice

instance (a b : SignedTransaction) : Decidable (pricedBefore a b) :=
  inferInstanceAs (Decidable (b.payload.gasPrice ≤ a.payload.gasPrice))

/-- At most a number of transactions for a block, by gas price. -/
def selectTransactions (pool : TxPool) (maxCount : Nat) (accountNonces : Address → UInt64) :
    List SignedTransaction :=
  let candidates := pool.bySender.toList.flatMap fun s =>
    pool.consecutive (accountNonces s.1) s.2.toList
  (candidates.insertionSort pricedBefore).take maxCount

/-- Remove the transactions of a sender up to a nonce. -/
def removeCommitted (pool : TxPool) (sender : Address) (committedNonce : UInt64) : TxPool :=
  match pool.bySender[sender]? with
  | none => pool
  | some txs =>
    let removed := txs.toList.filter fun t => t.1 ≤ committedNonce
    let kept := txs.filter fun nonce _ => !(nonce ≤ committedNonce)
    { pool with
      byHash := removed.foldl (fun m t => m.erase t.2) pool.byHash
      bySender := setQueue pool.bySender sender kept }

end TxPool

end Vtt
