import Vtt.Executor.Atomic
import Vtt.Executor.Routine

/-!
# Deployments and calls of contracts

A deployment puts an account at an address that is known beforehand. By the convention of the
contracts a positive status is the length of the data that a call returns, and a negative one an
error. The executor takes every status other than zero for an error.
-/

namespace Vtt

open Lib Confined StateDB Bool
open Std.ExtTreeMap (mem_toList_iff_getElem?_eq_some)

namespace Executor

/-- Each entry put into the storage of a contract in turn. -/
theorem run_putAll (contract : Address) {s : StateDB} (entries : List (Bytes × Bytes)) :
    ∃ t, (forEach entries fun e => Db.putContractStorage contract e.1 e.2 : ExecM Unit).run s =
      some (.ok (), t) ∧
      t.contractStorage =
        insertList s.contractStorage (entries.map fun e => ((contract, e.1), e.2)) := by
  induction entries generalizing s with
  | nil => exact ⟨s, rfl, rfl⟩
  | cons e rest ih => exact ih (s := s.putContractStorage contract e.1 e.2)

theorem status_eq_zero_iff {status : UInt32} : status = 0 ↔ status.toBitVec.toInt = 0 := by
  rw [← BitVec.toInt_zero, BitVec.toInt_inj]
  exact ⟨congrArg _, UInt32.eq_of_toBitVec_eq⟩

theorem getAccount_storeCode [Crypto] (db : StateDB) (code : Bytes) (address : Address) :
    (db.storeCode code).2.getAccount address = db.getAccount address :=
  getAccount_congr rfl fun _ => Storage.read_write_of_ne _ _ (.inl (by decide))

variable [Crypto] [Wasm] [Environment] {ctx : BlockContext} {tx : SignedTransaction}
  {db t : StateDB} {ε : Type}

/-- The state in which the operation of a transaction starts. -/
abbrev charged (ctx : BlockContext) (tx : SignedTransaction) (db : StateDB) : StateDB :=
  db.charge tx.sender (gasFee tx ctx.gasConfig)

/-- A deployment puts a new account at the address of the contract. -/
theorem getAccount_deployed {code args : Bytes} (h : Succeeds ctx tx db t)
    (haction : tx.payload.action = .deployContract code args) :
    ∃ codeHash, t.getAccount (contractAddress tx.sender (db.getNonce tx.sender + 1)) =
      { AccountState.default with codeHash := some codeHash } := by
  obtain ⟨-, _, hrun⟩ := succeeds_iff.1 h
  unfold operation at hrun
  rw [haction] at hrun
  obtain ⟨-, hrun⟩ := ok_of_require hrun
  obtain ⟨_, -, hrun⟩ := ok_of_ofExcept hrun
  have hnonce : ((charged ctx tx db).storeCode code).2.getNonce tx.sender =
      db.getNonce tx.sender + 1 := by
    rw [getNonce, getAccount_storeCode]
    exact getNonce_charge_self ..
  obtain ⟨-, rfl⟩ := Prod.mk.inj (Option.some.inj hrun)
  rw [← hnonce]
  exact ⟨_, getAccount_putAccount_self ..⟩

/-- An account keeps its balance, its nonce and its stake. -/
structure FundsKept (before after : AccountState) : Prop where
  balance : after.balance = before.balance
  nonce : after.nonce = before.nonce
  staking : after.staking = before.staking

/-- For every deployment that succeeds: the account at the address of the contract keeps what it has
exactly if it has nothing. -/
theorem fundsKept_iff {code args : Bytes} (h : Succeeds ctx tx db t)
    (haction : tx.payload.action = .deployContract code args) :
    let contract := contractAddress tx.sender (db.getNonce tx.sender + 1)
    FundsKept (db.getAccount contract) (t.getAccount contract) ↔
      FundsKept (db.getAccount contract) .default := by
  intro contract
  obtain ⟨_, heq⟩ := getAccount_deployed h haction
  rw [heq]
  exact ⟨fun h => ⟨h.balance, h.nonce, h.staking⟩, fun h => ⟨h.balance, h.nonce, h.staking⟩⟩

/-- A transaction that comes to call a contract, which returns. -/
structure ContractCall (ctx : BlockContext) (tx : SignedTransaction) (db : StateDB) where
  contract : Address
  method : String
  args : Bytes
  value : Amount
  codeHash : H256
  code : Bytes
  /-- The state in which the value is paid. -/
  paid : StateDB
  /-- The context in which the contract starts. -/
  start : ExecutionContext
  returned : Except VmError Vtt.ExecutionResult
  /-- The context in which the contract ends. -/
  vm : ExecutionContext
  ready : Ready ctx db tx
  action : tx.payload.action = .callContract contract method args value
  hash : ((charged ctx tx db).getAccount contract).codeHash = some codeHash
  stored : (charged ctx tx db).getCode codeHash = some code
  pays : (if value.isZero then pure () else onState (Db.transfer tx.sender contract value)).run
    (charged ctx tx db) = some (.ok (), paid)
  starts : { ExecutionContext.new contract tx.sender ctx.blockNumber ctx.blockTimestamp .relay
      tx.payload.gasLimit with storage := paid.loadContractStorage contract } = start
  executes : VmEngine.execute code method args start = some (returned, vm)

namespace ContractCall

variable (c : ContractCall ctx tx db)

/-- The contract returns the status zero. -/
def ReturnsZero : Prop := ∃ r, c.returned = .ok r ∧ r.status = 0

/-- The storage in which the contract ends is there. -/
def Written (t : StateDB) : Prop :=
  ∀ (key : Bytes) value, c.vm.storage[key]? = some value →
    t.contractStorage[(c.contract, key)]? = some value

omit [Environment] in
theorem exists_written : ∃ t, (forEach c.vm.storage.toList fun e =>
    Db.putContractStorage c.contract e.1 e.2 : ExecM Unit).run c.paid = some (.ok (), t) ∧
      c.Written t := by
  obtain ⟨t, hput, hstorage⟩ := run_putAll c.contract (s := c.paid) c.vm.storage.toList
  refine ⟨t, hput, fun key value hvalue => ?_⟩
  rw [hstorage]
  refine insertList_of_mem (k := (c.contract, key)) (v := value) ?_ ?_ _
  · exact List.mem_map.2 ⟨(key, value), mem_toList_iff_getElem?_eq_some.2 hvalue, rfl⟩
  · intro value' hmem
    obtain ⟨e, he, heq⟩ := List.mem_map.1 hmem
    cases heq
    exact Option.some.inj ((mem_toList_iff_getElem?_eq_some.1 he).symm.trans hvalue)

theorem run_operation : ∃ result t, (operation ctx tx).run (charged ctx tx db) = some (result, t) ∧
    (result.isOk = true ↔ c.ReturnsZero) ∧ (result.isOk = true → c.Written t) := by
  obtain ⟨t, hput, hwritten⟩ := c.exists_written
  have hnone : c.vm.balanceChanges = [] :=
    (VmEngine.execute_balanceChanges c.executes).trans (congrArg _ c.starts.symm)
  have paid : ∀ k : ExecM (List Log), (if c.value.isZero = true then k else do
      onState (Db.transfer tx.sender c.contract c.value)
      k).run (charged ctx tx db) = k.run c.paid := by
    intro k
    have hpays := c.pays
    split at hpays
    · rw [if_pos ‹_›, (ok_of_pure hpays).2]
    · rw [if_neg ‹_›, run_bind_of_ok hpays]
  unfold operation
  rw [c.action]
  show ∃ result t, (executeCallContract ..).run _ = some (result, t) ∧ _
  simp only [executeCallContract, Db.getAccount, Db.getCode, run_view_bind, c.hash, c.stored,
    run_okOr_some_bind, paid, Db.loadContractStorage, c.starts, c.executes, run_unwrap_some_bind,
    hnone, ReturnsZero]
  cases c.returned with
  | error e =>
    refine ⟨.error _, _, rfl, iff_of_false false_ne_true ?_, fun h => absurd h false_ne_true⟩
    rintro ⟨_, ⟨⟩, _⟩
  | ok r =>
    show ∃ result t, (require (r.status = 0) _ >>= _).run _ = some (result, t) ∧ _
    rw [run_require_bind]
    by_cases hstatus : r.status = 0
    · rw [if_pos hstatus, run_bind_of_ok hput]
      exact ⟨.ok _, t, rfl, ⟨fun _ => ⟨r, rfl, hstatus⟩, fun _ => rfl⟩, fun _ => hwritten⟩
    · rw [if_neg hstatus]
      refine ⟨.error _, _, rfl, iff_of_false false_ne_true ?_, fun h => absurd h false_ne_true⟩
      rintro ⟨_, ⟨⟩, hzero⟩
      exact absurd hzero hstatus

/-- A call succeeds exactly if its contract returns the status zero, and then what the contract
wrote is there. -/
theorem ends : ∃ result t, (executeTransactionAt ctx tx : DbM ε ExecutionResult).run db =
    some (.ok result, t) ∧
    (result.receipt.success = true ↔ c.ReturnsZero) ∧
      (result.receipt.success = true → c.Written t) := by
  obtain ⟨result, t, hrun, hiff, hwritten⟩ := c.run_operation
  cases result with
  | error e => exact ⟨_, _, executeTransactionAt_iff.2 ⟨_, rfl, .failed c.ready hrun⟩, hiff, nofun⟩
  | ok logs => exact ⟨_, _, executeTransactionAt_iff.2 ⟨_, rfl, .done c.ready hrun⟩, hiff, hwritten⟩

/-- The transaction fails exactly if the contract traps or returns a negative status, and what the
contract wrote is there if it does not. -/
structure StatusKept (result : ExecutionResult) (t : StateDB) : Prop where
  success : result.receipt.success = true ↔ ∃ r, c.returned = .ok r ∧ 0 ≤ r.status.toBitVec.toInt
  written : result.receipt.success = true → c.Written t

/-- For every call that comes to run its contract, whatever the contract is: the transaction keeps
to the convention exactly if the contract does not return a positive status. -/
theorem statusKept_iff : ∃ result t,
    (executeTransactionAt ctx tx : DbM ε ExecutionResult).run db = some (.ok result, t) ∧
      (c.StatusKept result t ↔ ∀ r, c.returned = .ok r → r.status.toBitVec.toInt ≤ 0) := by
  obtain ⟨result, t, hrun, hiff, hwritten⟩ := c.ends (ε := ε)
  refine ⟨result, t, hrun, fun kept r hr => ?_, fun hnone => ⟨hiff.trans ⟨?_, ?_⟩, hwritten⟩⟩
  · by_contra hpos
    obtain ⟨r', hr', hzero⟩ := hiff.1 (kept.success.2 ⟨r, hr, by omega⟩)
    obtain rfl := Except.ok.inj (hr.symm.trans hr')
    rw [status_eq_zero_iff] at hzero
    omega
  · rintro ⟨r, hr, hzero⟩
    exact ⟨r, hr, (status_eq_zero_iff.1 hzero).ge⟩
  · rintro ⟨r, hr, hle⟩
    exact ⟨r, hr, status_eq_zero_iff.2 (le_antisymm (hnone r hr) hle)⟩

end ContractCall

end Executor

namespace Demo

open Executor

/-- Contracts that run a script, with a memory of two bytes. -/
abbrev scripted (script : Guest (Option UInt32 × Bytes)) : Wasm where
  compile _ := .ok ()
  instantiate _ := .done ⟨some ⟨1, none, [1, 2]⟩, fun _ => some fun _ => script⟩
  outOfBounds := ""

/-- The validator deploys a contract. -/
def deploying : SignedTransaction := firstTransaction (.deployContract [] [])

/-- The account at the address of that contract, with some coins. -/
def prefunded : StateDB :=
  funded.putAccount (contractAddress key.address 1)
    { AccountState.default with balance := .fromVtt 1 }

theorem exists_deployed (db : StateDB) (h : Ready context db deploying) : letI := scripted .hang
    ∃ t, Succeeds context deploying db t :=
  let _ := scripted .hang
  ⟨_, succeeds_iff.2 ⟨h, _, rfl⟩⟩

/-- A deployment to an address without an account. -/
theorem fresh_fundsKept : letI := scripted .hang
    ∃ t, Succeeds context deploying funded t ∧
      let contract := contractAddress deploying.sender (funded.getNonce deploying.sender + 1)
      FundsKept (funded.getAccount contract) (t.getAccount contract) := by
  let _ := scripted .hang
  obtain ⟨t, h⟩ := exists_deployed funded (by decide +kernel)
  refine ⟨t, h, (fundsKept_iff h rfl).2 ⟨?_, ?_, ?_⟩⟩
  · decide +kernel
  · decide +kernel
  · decide +kernel

/-- Coins that were sent to the address beforehand are gone. -/
theorem prefunded_destroyed : letI := scripted .hang
    ∃ t, Succeeds context deploying prefunded t ∧
      let contract := contractAddress deploying.sender (prefunded.getNonce deploying.sender + 1)
      ¬ FundsKept (prefunded.getAccount contract) (t.getAccount contract) := by
  let _ := scripted .hang
  obtain ⟨t, h⟩ := exists_deployed prefunded (by decide +kernel)
  obtain ⟨_, heq⟩ := getAccount_deployed h rfl
  refine ⟨t, h, fun kept => ?_⟩
  have hzero : AccountState.default.balance = _ :=
    (congrArg AccountState.balance heq).symm.trans kept.balance
  exact absurd hzero (by decide +kernel)

/-- The validator calls a contract. -/
def calling : SignedTransaction := firstTransaction (.callContract ⟨9⟩ "run" [] .zero)

def deployed : StateDB :=
  (funded.storeCode []).2.putAccount ⟨9⟩
    { AccountState.default with codeHash := some (blake3Hash []) }

/-- The call of a contract that returns. -/
def called [Wasm] {returned : Except VmError Vtt.ExecutionResult} {vm : ExecutionContext}
    (h : VmEngine.execute [] "run" [] { ExecutionContext.new ⟨9⟩ calling.sender context.blockNumber
      context.blockTimestamp .relay calling.payload.gasLimit with
      storage := (charged context calling deployed).loadContractStorage ⟨9⟩ } =
      some (returned, vm)) :
    ContractCall context calling deployed :=
  ⟨⟨9⟩, "run", [], .zero, blake3Hash [], [], charged context calling deployed, _, returned, vm,
    by decide +kernel, rfl, by decide +kernel, by decide +kernel, rfl, rfl, h⟩

/-- A contract that returns no data keeps to the convention. -/
theorem no_data_kept : letI := scripted (.done (some 0, []))
    ∃ (c : ContractCall context calling deployed) (result : Executor.ExecutionResult) (t : StateDB),
      (executeTransactionAt context calling : DbM Empty _).run deployed = some (.ok result, t) ∧
      result.receipt.success = true ∧ c.StatusKept result t := by
  let _ := scripted (.done (some 0, []))
  let c := called rfl
  obtain ⟨result, t, hrun, hiff⟩ := c.statusKept_iff (ε := Empty)
  have kept : c.StatusKept result t := by
    refine hiff.2 fun r hr => ?_
    cases hr
    decide
  exact ⟨c, result, t, hrun, kept.success.2 ⟨_, rfl, by decide⟩, kept⟩

/-- A contract that returns one byte is reverted. -/
theorem data_reverted : letI := scripted (.done (some 1, [1]))
    ∃ (c : ContractCall context calling deployed) (r : Vtt.ExecutionResult)
      (result : Executor.ExecutionResult) (t : StateDB), c.returned = .ok r ∧ r.status = 1 ∧
      (executeTransactionAt context calling : DbM Empty _).run deployed = some (.ok result, t) ∧
      ¬ c.StatusKept result t := by
  let _ := scripted (.done (some 1, [1]))
  let c := called rfl
  obtain ⟨result, t, hrun, hiff, -⟩ := c.ends (ε := Empty)
  refine ⟨c, _, result, t, rfl, rfl, hrun, fun kept => ?_⟩
  obtain ⟨_, ⟨⟩, hzero⟩ := hiff.1 (kept.success.2 ⟨_, rfl, by decide⟩)
  cases hzero

end Demo

end Vtt
