import Vtt.Crypto

/-!
# The contract virtual machine

The WebAssembly runtime is outside the code base. What the code sees of it is a `Guest`: a
computation that asks the host for services, and ends with a result or a trap, or never ends.
-/

namespace Vtt

open Lib

/-! ## Gas -/

/-- What a contract call has used, and what it may use. -/
structure GasMeter where
  used : UInt64
  limit : UInt64
deriving DecidableEq

namespace GasMeter

def new (limit : UInt64) : GasMeter := ⟨0, limit⟩

/-- Consume gas; says whether the limit still holds. The counter moves on, modulo the word size,
either way. -/
def consume (m : GasMeter) (amount : UInt64) : Bool × GasMeter :=
  ((U64.checkedAdd m.used amount).any (· ≤ m.limit), { m with used := m.used + amount })

def remaining (m : GasMeter) : UInt64 := U64.saturatingSub m.limit m.used

end GasMeter

namespace GasCosts

def storageRead : UInt64 := 200
def storageWrite : UInt64 := 5000
def storageWriteNew : UInt64 := 20000
def hostCallBase : UInt64 := 100
def logBase : UInt64 := 375
def logPerByte : UInt64 := 8

/-- The largest contract code in bytes. -/
def maxContractSize : Nat := 512 * 1024

/-- The most pages of linear memory. -/
def maxWasmMemoryPages : UInt32 := 256

end GasCosts

/-! ## The execution context -/

/-- A change of a balance that a contract asks for. -/
structure BalanceChange where
  address : Address
  amount : Amount
  isCredit : Bool
deriving DecidableEq

/-- What the host functions read and change during a call. -/
structure ExecutionContext where
  contractAddress : Address
  caller : Address
  blockNumber : BlockNumber
  blockTimestamp : Timestamp
  chainId : ChainId
  gas : GasMeter
  storage : FinMap Bytes Bytes
  logs : List Log
  balanceChanges : List BalanceChange

namespace ExecutionContext

/-- A fresh context; the balance changes stay empty, as no host function records one. -/
def new (contractAddress caller : Address) (blockNumber : BlockNumber) (blockTimestamp : Timestamp)
    (chainId : ChainId) (gasLimit : UInt64) : ExecutionContext where
  contractAddress
  caller
  blockNumber
  blockTimestamp
  chainId
  gas := .new gasLimit
  storage := ∅
  logs := []
  balanceChanges := []

/-- Consume gas of the context. -/
def consume (ctx : ExecutionContext) (amount : UInt64) : Bool × ExecutionContext :=
  let (ok, gas) := ctx.gas.consume amount
  (ok, { ctx with gas })

end ExecutionContext

/-! ## Guests -/

/-- The services of the host. Arguments are the words that the guest passes. -/
inductive HostCall where
  | storageRead (keyPtr keyLen valPtr valMax : UInt32)
  | storageWrite (keyPtr keyLen valPtr valLen : UInt32)
  | caller
  | callerAddress (outPtr : UInt32)
  | blockNumber
  | blockTimestamp
  | chainId
  | emitLog (dataPtr dataLen : UInt32)
  | gasRemaining
  | consumeGas (amount : UInt64)

/-- A running guest: the contents of its memory at a call of the host, and how it goes on with the
word it gets back and the memory it then finds. -/
inductive Guest (α : Type) where
  | done (result : α)
  | trap (message : String)
  | hang
  | call (memory : Bytes) (request : HostCall) (resume : UInt64 → Bytes → Guest α)

/-- An exported memory: its size limits in pages, and its contents. -/
structure WasmMemory where
  minimum : UInt32
  maximum : Option UInt32
  contents : Bytes

/-- An instance of a module: its exported memory, and its exported functions as guests. A function
returns its first result, if that is a 32-bit word, with the memory as it leaves it. -/
structure WasmInstance where
  memory : Option WasmMemory
  function : String → Option (Bytes → Guest (Option UInt32 × Bytes))

/-- The WebAssembly runtime. -/
class Wasm where
  /-- Whether a module compiles, or the message of the compiler. -/
  compile : Bytes → Except String Unit
  /-- The instantiation of a module, which may call the host. -/
  instantiate : Bytes → Guest WasmInstance
  /-- The message for an access outside the memory. -/
  outOfBounds : String

/-! ## Host functions -/

/-- The largest piece of memory that the host reads or writes at once. -/
def maxHostIoBytes : Nat := 2 ^ 20

/-- Read guest memory; nothing without a memory, for too large a piece or outside the memory. -/
def readWasmMemory (memory : Option Bytes) (offset len : UInt32) : Option Bytes :=
  if maxHostIoBytes < len.toNat then
    none
  else
    memory.bind fun m =>
      if m.length < offset.toNat + len.toNat then none
      else some ((m.drop offset.toNat).take len.toNat)

/-- Write guest memory, under the same conditions. -/
def writeWasmMemory (memory : Option Bytes) (offset : UInt32) (data : Bytes) : Option Bytes :=
  if maxHostIoBytes < data.length then
    none
  else
    memory.bind fun m =>
      if m.length < offset.toNat + data.length then none
      else some (m.take offset.toNat ++ data ++ m.drop (offset.toNat + data.length))

/-- A signed 32-bit word widened to 64 bits. -/
def signExtend (w : UInt32) : UInt64 :=
  if w.toNat < 2 ^ 31 then w.toUInt64 else w.toUInt64 + 0xFFFFFFFF00000000

/-- The word that the host answers an error with. -/
def minusOne : UInt64 := UInt64.ofNat (2 ^ 32 - 1)

/-- What the host answers: the word, the memory if it was written, and the context. -/
structure HostAnswer where
  word : UInt64
  written : Option Bytes
  context : ExecutionContext

section HostFunctions

variable (ctx : ExecutionContext) (memory : Option Bytes)

def hostStorageRead (keyPtr keyLen valPtr valMax : UInt32) : HostAnswer :=
  let (ok, ctx) := ctx.consume GasCosts.storageRead
  if !ok then
    ⟨minusOne, none, ctx⟩
  else
    match readWasmMemory memory keyPtr keyLen with
    | none => ⟨minusOne, none, ctx⟩
    | some key =>
      match ctx.storage[key]? with
      | none => ⟨0, none, ctx⟩
      | some value =>
        if (signExtend valMax).toNat < value.length then
          ⟨minusOne, none, ctx⟩
        else
          match writeWasmMemory memory valPtr value with
          | none => ⟨minusOne, none, ctx⟩
          | some m => ⟨UInt64.ofNat value.length, some m, ctx⟩

def hostStorageWrite (keyPtr keyLen valPtr valLen : UInt32) : HostAnswer :=
  match readWasmMemory memory keyPtr keyLen, readWasmMemory memory valPtr valLen with
  | some key, some value =>
    let cost :=
      if ctx.storage.contains key then GasCosts.storageWrite else GasCosts.storageWriteNew
    let (ok, ctx) := ctx.consume cost
    if !ok then ⟨0, none, ctx⟩
    else ⟨0, none, { ctx with storage := ctx.storage.insert key value }⟩
  | _, _ => ⟨0, none, ctx⟩

def hostEmitLog (dataPtr dataLen : UInt32) : HostAnswer :=
  let (ok, ctx) := ctx.consume (GasCosts.logBase + GasCosts.logPerByte * signExtend dataLen)
  if !ok then
    ⟨0, none, ctx⟩
  else
    match readWasmMemory memory dataPtr dataLen with
    | none => ⟨0, none, ctx⟩
    | some data => ⟨0, none, { ctx with logs := ctx.logs ++ [⟨ctx.contractAddress, [], data⟩] }⟩

/-- A service that charges the base cost and returns a word, whatever is left of the gas. -/
def hostWord (word : UInt64) : HostAnswer :=
  ⟨word, none, (ctx.consume GasCosts.hostCallBase).2⟩

def hostCaller : HostAnswer :=
  hostWord ctx (UInt64.ofNat (leNat (ctx.caller.asBytes.take 8)))

def hostCallerAddress (outPtr : UInt32) : HostAnswer :=
  let (ok, ctx) := ctx.consume GasCosts.hostCallBase
  if !ok then
    ⟨minusOne, none, ctx⟩
  else
    match writeWasmMemory memory outPtr ctx.caller.asBytes with
    | none => ⟨minusOne, none, ctx⟩
    | some m => ⟨0, some m, ctx⟩

def hostBlockNumber : HostAnswer := hostWord ctx ctx.blockNumber

def hostBlockTimestamp : HostAnswer := hostWord ctx ctx.blockTimestamp

def hostChainId : HostAnswer := hostWord ctx ctx.chainId.id.toUInt64

def hostGasRemaining : HostAnswer := ⟨ctx.gas.remaining, none, ctx⟩

def hostConsumeGas (amount : UInt64) : HostAnswer :=
  let (ok, ctx) := ctx.consume amount
  ⟨if ok then 0 else minusOne, none, ctx⟩

/-- The answer of the host to a request. -/
def hostAnswer : HostCall → HostAnswer
  | .storageRead keyPtr keyLen valPtr valMax =>
    hostStorageRead ctx memory keyPtr keyLen valPtr valMax
  | .storageWrite keyPtr keyLen valPtr valLen =>
    hostStorageWrite ctx memory keyPtr keyLen valPtr valLen
  | .caller => hostCaller ctx
  | .callerAddress outPtr => hostCallerAddress ctx memory outPtr
  | .blockNumber => hostBlockNumber ctx
  | .blockTimestamp => hostBlockTimestamp ctx
  | .chainId => hostChainId ctx
  | .emitLog dataPtr dataLen => hostEmitLog ctx memory dataPtr dataLen
  | .gasRemaining => hostGasRemaining ctx
  | .consumeGas amount => hostConsumeGas ctx amount

end HostFunctions

/-! ## Calling a contract -/

/-- The errors of the virtual machine. -/
inductive VmError where
  | compilation (message : String)
  | instantiation (message : String)
  | runtime (message : String)
  | exportNotFound (name : String)
  | memoryAccess (message : String)
  | memoryLimitExceeded (pages max : UInt32)
deriving DecidableEq

/-- The text of an error in messages. -/
def VmError.display : VmError → String
  | compilation message => "compilation error: " ++ message
  | instantiation message => "instantiation error: " ++ message
  | runtime message => "runtime error: " ++ message
  | exportNotFound name => "export not found: " ++ name
  | memoryAccess message => "memory access error: " ++ message
  | memoryLimitExceeded pages max =>
    "memory limit exceeded: " ++ toString pages ++ " pages (max " ++ toString max ++ ")"

/-- Run a guest against the host, which sees its memory only if that is exported and already
known. No result is a guest that never ends. -/
def Guest.run {α : Type} (visible : Bool) : Guest α → ExecutionContext → Option
    (Except String α × ExecutionContext)
  | .done result, ctx => some (.ok result, ctx)
  | .trap message, ctx => some (.error message, ctx)
  | .hang, _ => none
  | .call memory request resume, ctx =>
    let answer := hostAnswer ctx (if visible then some memory else none) request
    (resume answer.word (answer.written.getD memory)).run visible answer.context

/-- The result of executing a contract. -/
structure ExecutionResult where
  status : UInt32
  gasUsed : UInt64
  returnData : Bytes
deriving DecidableEq

namespace VmEngine

variable [Wasm]

/-- Compile contract code, to find out whether it compiles. -/
def compile (bytecode : Bytes) : Except VmError Bytes :=
  match Wasm.compile bytecode with
  | .error message => .error (.compilation message)
  | .ok () => .ok bytecode

/-- The memory of an instance, if it is not too large. -/
def checkMemory (memory : WasmMemory) : Except VmError Unit :=
  if GasCosts.maxWasmMemoryPages < memory.minimum then
    .error (.memoryLimitExceeded memory.minimum GasCosts.maxWasmMemoryPages)
  else
    match memory.maximum with
    | some pages =>
      if GasCosts.maxWasmMemoryPages < pages then
        .error (.memoryLimitExceeded pages GasCosts.maxWasmMemoryPages)
      else .ok ()
    | none => .ok ()

/-- The memory with the arguments in it: their length at offset zero, then the arguments. -/
def writeArgs (contents args : Bytes) : Except VmError Bytes :=
  if args.isEmpty then
    .ok contents
  else if contents.length < 8 + args.length then
    .error (.memoryAccess Wasm.outOfBounds)
  else
    .ok (leBytes 8 args.length ++ args ++ contents.drop (8 + args.length))

/-- The memory a call starts with. -/
def prepareMemory (memory : Option WasmMemory) (args : Bytes) : Except VmError Bytes :=
  match memory with
  | none => .ok []
  | some m => do
    checkMemory m
    writeArgs m.contents args

/-- The data that a positive status announces, at offset zero of the memory. -/
def returnData (visible : Bool) (status : UInt32) (memory : Bytes) : Bytes :=
  if status ≠ 0 ∧ status.toNat < 2 ^ 31 ∧ visible = true ∧ status.toNat ≤ memory.length then
    memory.take status.toNat
  else []

/-- Execute a method of a contract in a context. -/
def execute (bytecode : Bytes) (method : String) (args : Bytes) (ctx : ExecutionContext) :
    Option (Except VmError ExecutionResult × ExecutionContext) := do
  match Wasm.compile bytecode with
  | .error message => pure (.error (.compilation message), ctx)
  | .ok () =>
    -- the memory is not yet known to the host while the module is instantiated
    match ← (Wasm.instantiate bytecode).run false ctx with
    | (.error message, ctx) => pure (.error (.instantiation message), ctx)
    | (.ok inst, ctx) =>
      match prepareMemory inst.memory args with
      | .error e => pure (.error e, ctx)
      | .ok memory =>
        match inst.function method with
        | none => pure (.error (.exportNotFound method), ctx)
        | some function =>
          match ← (function memory).run inst.memory.isSome ctx with
          | (.error message, ctx) => pure (.error (.runtime message), ctx)
          | (.ok (value, memory), ctx) =>
            let status := value.getD 0
            pure (.ok ⟨status, ctx.gas.used, returnData inst.memory.isSome status memory⟩, ctx)

end VmEngine

end Vtt
