import Vtt.Chain.Basic

/-!
# Resuming a chain from its store

The blocks are found by walking from the stored head to the genesis block. A store whose parent
links run in a circle would keep the walk going forever; it has no result here.
-/

namespace Vtt

open Lib

namespace Chain

/-- Follow the parent links from a hash, collecting headers, bodies and canonical hashes. Every
round visits another header of the store, unless the links run in a circle. -/
def walkBack (store : Store) : Nat → H256 → Chain → Option Chain
  | 0, _, _ => none
  | rounds + 1, current, c =>
    match (store.get .blockHeaders current.asBytes).bind
      (Borsh.tryFromSlice (α := BlockHeader)) with
    | none => some c
    | some header =>
      let body := (store.get .blockBodies current.asBytes).bind Borsh.tryFromSlice
      let c :=
        { c with
          canonical := c.canonical.insert header.number current
          bodies := match body with
            | some block => c.bodies.insert current block
            | none => c.bodies
          headers := c.headers.insert current header }
      if header.number = 0 then some c else walkBack store rounds header.parentHash c

variable [Crypto]

/-- The numbers above one height up to another. -/
def heightsBetween (low high : UInt64) : List UInt64 :=
  (List.range (high.toNat - low.toNat)).map fun i => UInt64.ofNat (low.toNat + 1 + i)

/-- The height up to which the transactions are indexed. -/
def indexedHeight (c : Chain) : UInt64 :=
  match c.state.storage.read .chainMeta (ascii "tx_index:head") with
  | some b => if b.length = 8 then UInt64.ofNat (leNat b) else 0
  | none => 0

/-- Index the transactions of the canonical blocks that are not indexed yet. -/
def backfillTxIndex (c : Chain) (headNumber : UInt64) : Chain :=
  if headNumber ≤ c.indexedHeight then
    c
  else
    let entries := (heightsBetween c.indexedHeight headNumber).flatMap fun n =>
      match c.getBlockByNumber n with
      | some block => txIndexEntries n block.transactions
      | none => []
    c.persist fun s => (s.writeAll .transactions entries).write .chainMeta (ascii "tx_index:head")
      (leBytes 8 headNumber.toNat)

/-- Compare the rebuilt state with the head, and note the first height at which they differ. -/
def checkResumedRoot (c : Chain) (head : BlockHeader) : Chain :=
  let (root, state) := c.state.computeStateRoot
  let c := c.withState state
  if root = head.stateRoot then
    c
  else
    let boundary := c.state.storage.read .chainMeta (ascii "state_root:boundary")
    if boundary = some (leBytes 8 head.number.toNat) then c
    else c.persist fun s =>
      s.write .chainMeta (ascii "state_root:boundary") (leBytes 8 head.number.toNat)

/-- Load the chain that a store holds; nothing happens if it holds none. -/
def resumeFromStorage (c : Chain) (store : Store) : Option Chain :=
  match store.get .chainMeta (ascii "head_hash") with
  | none => some c
  | some bytes =>
    if bytes.length ≠ 32 then
      some c
    else do
      let headHash := H256.fromSlice bytes
      let c ← walkBack store ((store.column .blockHeaders).size + 1) headHash c
      if c.headers.isEmpty then
        pure c
      else
        let headNumber := ((c.headers[headHash]?).map (·.number)).getD 0
        let c := { c.backfillTxIndex headNumber with headHash := some headHash }
        match c.headers[headHash]? with
        | none => pure c
        | some head =>
          let epoch ← c.consensus.epochForBlock head.number
          let c := { c with validatorSet := c.consensus.electValidators c.state epoch }
          pure (c.checkResumedRoot head)

/-- A chain on a store, resumed if the store holds one. -/
def withStorage (consensus : ConsensusEngine) (gasConfig : GasConfig) (store : Store) :
    Option Chain := do
  let state ← StateDB.withStorage store
  let store ← state.storage
  resumeFromStorage (onState consensus gasConfig state true state.finalizedBlock) store

end Chain

end Vtt
