import Vtt.Chain.Start
import Vtt.Producer

/-!
# A small chain

Concrete functions in place of the outside code and a chain with one validator, on which statements
about all chains can be evaluated. The hash is a polynomial in the bytes, a signature is the hash of
the message next to the key, and no contract compiles.
-/

namespace Vtt.Demo

open Lib Chain Option BitVec

/-! ## The outside code -/

/-- A polynomial in the bytes, cut to the width of a hash. -/
def polynomialHash (bs : Bytes) : H256 :=
  ⟨BitVec.ofNat 256 (bs.foldl (fun acc b => acc * 257 + b.toNat + 1) 7)⟩

/-- The hash of a message next to the key. -/
def signatureOf (key : BitVec 256) (message : Bytes) : Signature :=
  ⟨(polynomialHash message).bits ++ key⟩

scoped instance : Crypto where
  blake3Hash := polynomialHash
  verify message signature key := signature == signatureOf key.bits message
  publicKeyOfSeed seed := ⟨seed⟩
  signWithSeed seed message := signatureOf seed message

scoped instance : Wasm where
  compile _ := .error "no compiler"
  instantiate _ := .trap "no compiler"
  outOfBounds := "out of bounds"

scoped instance : Environment where
  votingPeriodBlocks := 100
  executionDelayBlocks := 10
  parseChainConfig _ := .error "no parser"

/-- A signature that verifies starts with the hash of the message. -/
theorem high_of_verify {message : Bytes} {signature : Signature} {key : PublicKey}
    (h : verify message signature key = true) :
    extractLsb' 256 256 signature.bits = (polynomialHash message).bits := by
  rw [eq_of_beq h]
  exact extractLsb'_append_eq_left

/-- Some signature does not start with the hash. -/
theorem refutable : Crypto.Refutable := by
  intro message
  refine ⟨⟨((polynomialHash message).bits + 1) ++ 0#256⟩, fun key => ?_⟩
  refine Bool.eq_false_iff.2 fun hverify => ?_
  have high := high_of_verify hverify
  rw [extractLsb'_append_eq_left] at high
  exact absurd high (by bv_omega)

/-- Nobody signs with the zero signature. -/
theorem not_authentic_of_zero {header : BlockHeader} (hsig : header.signature = .zero)
    (hhash : header.hash ≠ .zero) :
    ¬ header.Authentic := by
  rintro ⟨_, -, hverify⟩
  have high := high_of_verify hverify
  rw [hsig] at high
  exact hhash (congrArg H256.mk (high.symm.trans extractLsb'_zero))

/-! ## The genesis -/

/-- The key of the validator. -/
def key : Keypair := ⟨1⟩

/-- The built-in parameters with a short epoch. -/
def params (epochLength : UInt64) : ConsensusParams := { ConsensusParams.default with epochLength }

/-- A genesis with one validator. -/
def config (epochLength : UInt64) : GenesisConfig where
  chain := ⟨⟨1⟩, "demo", params epochLength, .default⟩
  timestamp := 1000
  allocations := [⟨key.address, .fromVtt 1000000⟩]
  validators := [⟨key.address, .fromVtt 100000, 1000⟩]

/-- The chain in memory right after its genesis. -/
def start (epochLength : UInt64) : Option Chain :=
  (Genesis.buildGenesis (config epochLength)).bind fun genesis =>
    match (initGenesis genesis.1 genesis.2).run (.new ⟨params epochLength⟩ .default) with
    | some (.ok _, c) => some c
    | _ => none

/-- The chain of the genesis is a started one. -/
theorem start_started {epochLength : UInt64} {c : Chain} (h : start epochLength = some c) :
    ∃ genesis, StartedFresh genesis c := by
  obtain ⟨genesis, hbuild, hstart⟩ := bind_eq_some_iff.1 h
  split at hstart
  · rename_i hrun
    cases hstart
    exact ⟨genesis.1, .start hbuild .memory rfl hrun⟩
  · cases hstart

/-- The chain on a store right after its genesis. -/
def storedStart : Option Chain :=
  (withStorage ⟨params 10⟩ .default .empty).bind fun opened =>
    (Genesis.buildGenesis (config 10)).bind fun genesis =>
      match opened.headHash, (initGenesis genesis.1 genesis.2).run opened with
      | none, some (.ok _, c) => some c
      | _, _ => none

theorem storedStart_parts {c : Chain} (h : storedStart = some c) :
    ∃ opened genesis state hash, withStorage ⟨params 10⟩ .default .empty = some opened ∧
      Genesis.buildGenesis (config 10) = some (genesis, state) ∧ opened.headHash = none ∧
      (initGenesis genesis state).run opened = some (.ok hash, c) := by
  obtain ⟨opened, hopened, h⟩ := bind_eq_some_iff.1 h
  obtain ⟨genesis, hbuild, hstart⟩ := bind_eq_some_iff.1 h
  split at hstart
  · rename_i hhead hrun
    cases hstart
    exact ⟨opened, genesis.1, genesis.2, _, hopened, hbuild, hhead, hrun⟩
  · cases hstart

theorem storedStart_started {c : Chain} (h : storedStart = some c) :
    ∃ genesis, StartedFresh genesis c := by
  obtain ⟨_, genesis, _, _, hopened, hbuild, hhead, hrun⟩ := storedStart_parts h
  exact ⟨genesis, .start hbuild (.stored hopened) hhead hrun⟩

/-! ## Blocks -/

/-- The header of a block without transactions on a parent. -/
def headerOn (epochLength : UInt64) (parent : BlockHeader) (timestamp : UInt64) (stateRoot : H256) :
    BlockHeader where
  version := 1
  chainId := parent.chainId
  number := parent.number + 1
  parentHash := parent.hash
  transactionsRoot := txRoot []
  stateRoot
  receiptsRoot := merkleRoot []
  validator := key.address
  epoch := (parent.number + 1) / epochLength
  slot := ((parent.number + 1) % epochLength).toUInt32
  timestamp
  gasLimit := Producer.blockGasLimit
  gasUsed := 0
  crossChainRoot := none
  signature := .zero

/-- The state root after the first block. -/
def firstRoot : H256 :=
  ⟨53449776225886626515021181032755644424328769144400167698256625109715318975628⟩

/-- The first block, on the genesis. -/
def firstBlock (genesis : BlockHeader) : Block := ⟨headerOn 10 genesis 2000 firstRoot, []⟩

/-- The state root after the second block. -/
def secondRoot : H256 :=
  ⟨62488913910192402570981176543111937239117813407885239766385055006736398090518⟩

/-- The second block, on the first. -/
def secondBlock (genesis : BlockHeader) : Block :=
  ⟨headerOn 10 (firstBlock genesis).header 3000 secondRoot, []⟩

/-- The state root after the first block and a sibling of it. -/
def siblingRoot : H256 :=
  ⟨411447743162086578963852659740545677728416396041547793465415575164161597759⟩

/-- A sibling of the first block that loses the fork choice against it. -/
def siblingBlock (genesis : BlockHeader) : Block := ⟨headerOn 10 genesis 3000 siblingRoot, []⟩

/-- The state root after a block on the sibling. -/
def overtakingRoot : H256 :=
  ⟨62038970725463926409358432195515406947654096846368659260748191678269315166721⟩

/-- A block on the sibling, which overtakes the first block. -/
def overtakingBlock (genesis : BlockHeader) : Block :=
  ⟨headerOn 10 (siblingBlock genesis).header 4000 overtakingRoot, []⟩

/-- The payload of a first transaction by the validator. -/
def firstPayload (action : TransactionAction) : TransactionPayload :=
  ⟨⟨1⟩, 0, GasConfig.default.minGasPrice, 100000, action⟩

/-- A first transaction by the validator. -/
def firstTransaction (action : TransactionAction) : SignedTransaction :=
  ⟨firstPayload action, key.sign (Borsh.serialize (firstPayload action)), key.publicKey⟩

/-- A transfer by the validator. -/
def transfer : SignedTransaction := firstTransaction (.transfer ⟨7⟩ (.fromVtt 1))

/-- The transfer, signed for another chain. -/
def foreignTransfer : SignedTransaction :=
  let payload := { transfer.payload with chainId := ⟨2⟩ }
  ⟨payload, key.sign (Borsh.serialize payload), key.publicKey⟩

/-- A pool with one transaction. -/
def poolOf (tx : SignedTransaction) : TxPool := TxPool.empty.insert tx tx.sender 0

/-- The first block with other transactions, gas and roots. -/
def firstBlockWith (genesis : BlockHeader) (transactions : List SignedTransaction)
    (gasUsed : UInt64) (receiptsRoot stateRoot : H256) : Block :=
  ⟨{ headerOn 10 genesis 2000 stateRoot with
    transactionsRoot := txRoot transactions
    gasUsed
    receiptsRoot }, transactions⟩

/-- What an evaluation of a transaction shows. -/
theorem exists_executed (ctx : Executor.BlockContext) (tx : SignedTransaction) (db : StateDB)
    (check : Executor.ExecutionResult → StateDB → Bool)
    (h : (match (Executor.executeTransactionAt ctx tx : DbM Empty _).run db with
      | some (.ok result, t) => check result t
      | _ => false) = true) :
    ∃ result t, (Executor.executeTransactionAt ctx tx : DbM Empty _).run db = some (.ok result, t) ∧
      check result t = true := by
  split at h
  · rename_i result t hrun
    exact ⟨result, t, hrun, h⟩
  · cases h

/-- The chain after its genesis, and the chain after it imported blocks that are built on it. -/
def grow (blocks : BlockHeader → List Block) : Option (Chain × BlockHeader × Chain) :=
  (start 10).bind fun c => c.head.bind fun genesis =>
    (importAll 0 c (blocks genesis)).map fun c' => (c, genesis, c')

/-- What an evaluation of `grow` shows. -/
theorem exists_grown (blocks : BlockHeader → List Block)
    (check : Chain → BlockHeader → Chain → Bool)
    (h : ((grow blocks).any fun g => check g.1 g.2.1 g.2.2) = true) :
    ∃ block c genesis c', StartedFresh block c ∧ c.head = some genesis ∧
      importAll 0 c (blocks genesis) = some c' ∧ check c genesis c' = true := by
  obtain ⟨⟨c, genesis, c'⟩, hgrow, hcheck⟩ := (any_eq_true _ _).1 h
  obtain ⟨c₁, hstart, hrest⟩ := bind_eq_some_iff.1 hgrow
  obtain ⟨genesis₁, hhead, hlast⟩ := bind_eq_some_iff.1 hrest
  obtain ⟨c₂, himport, heq⟩ := map_eq_some_iff.1 hlast
  obtain ⟨rfl, rfl, rfl⟩ : c₁ = c ∧ genesis₁ = genesis ∧ c₂ = c' := by simpa using heq
  obtain ⟨block, hblock⟩ := start_started hstart
  exact ⟨block, c₁, genesis₁, c₂, hblock, hhead, himport, hcheck⟩

end Vtt.Demo
