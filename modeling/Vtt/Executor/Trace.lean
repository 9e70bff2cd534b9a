import Vtt.Executor.Outcome

/-!
# The executions of a block

The transactions of a block that are executed, each with the state before and the state after it. A
block executes its transactions in turn and stops when the gas limit is reached.
-/

namespace Vtt

open Lib List

namespace Executor

/-- A transaction that was executed in a block, with the states before and after it. -/
structure Execution where
  tx : SignedTransaction
  before : StateDB
  after : StateDB

/-- Each execution starts in the state that the one before it ended in. -/
inductive Successive : StateDB → List Execution → StateDB → Prop where
  | nil {db : StateDB} : Successive db [] db
  | cons {e : Execution} {es : List Execution} {t : StateDB} : Successive e.after es t →
    Successive e.before (e :: es) t

variable [Crypto] [Wasm] [Environment]

/-- The executions of transactions in turn until the gas limit is reached. -/
def executions (ctx : BlockContext) (limit : UInt64) : List SignedTransaction → UInt64 → StateDB →
    List Execution
  | [], _, _ => []
  | tx :: rest, totalGas, db =>
    if limit ≤ totalGas then
      []
    else
      match (executeTransactionAt ctx tx : DbM Empty ExecutionResult).run db with
      | some (.ok result, after) =>
        ⟨tx, db, after⟩ :: executions ctx limit rest (totalGas + result.gasUsed) after
      | _ => []

variable {ctx : BlockContext} {limit totalGas : UInt64} {txs : List SignedTransaction}
  {db t : StateDB}

/-- An execution is a run of its transaction. -/
theorem outcome_of_mem_executions {e : Execution} (h : e ∈ executions ctx limit txs totalGas db) :
    e.tx ∈ txs ∧ ∃ result, Outcome ctx e.tx e.before result e.after := by
  induction txs generalizing totalGas db with
  | nil => cases h
  | cons _ _ ih =>
    rw [executions] at h
    split at h
    · cases h
    split at h
    · rename_i hrun
      rcases mem_cons.1 h with rfl | hrest
      · exact ⟨mem_cons_self .., _, outcome_of_executed hrun⟩
      · exact (ih hrest).imp_left (mem_cons_of_mem _)
    · cases h

/-- A single transaction is executed, unless there is no gas at all. -/
theorem mem_executions_singleton {tx : SignedTransaction} {result : ExecutionResult}
    (h : Outcome ctx tx db result t) (hlimit : limit ≠ 0) : ⟨tx, db, t⟩ ∈ executions ctx limit
      [tx] 0 db := by
  have hrun := (executeTransactionAt_iff (ε := Empty)).2 ⟨result, rfl, h⟩
  have hgo : ¬ limit ≤ 0 :=
    fun hle => hlimit (UInt64.toNat_inj.1 (Nat.le_zero.1 (UInt64.le_iff_toNat_le.1 hle)))
  rw [executions, if_neg hgo]
  simp only [hrun]
  exact mem_cons_self ..

/-- The executions lead to the state that the block leads to, and there is a receipt for each. -/
theorem executions_of_run {ε : Type} {receipts rs : List TransactionReceipt} {total : UInt64}
    (h : (executeTransactions ctx limit txs receipts totalGas : DbM ε _).run db =
      some (.ok (rs, total), t)) :
    Successive db (executions ctx limit txs totalGas db) t ∧
      rs.length = receipts.length + (executions ctx limit txs totalGas db).length := by
  induction txs generalizing receipts totalGas db with
  | nil =>
    obtain ⟨⟨rfl, -⟩, rfl⟩ := h
    exact ⟨.nil, rfl⟩
  | cons tx _ ih =>
    rw [executeTransactions] at h
    rw [executions]
    split at h
    · rename_i hstop
      obtain ⟨⟨rfl, -⟩, rfl⟩ := h
      rw [if_pos hstop]
      exact ⟨.nil, rfl⟩
    · rename_i hgo
      rw [if_neg hgo]
      obtain ⟨_, after, hfirst, hrest⟩ := Confined.run_bind_ok h
      have outcome := outcome_of_executed hfirst
      have hrun := (executeTransactionAt_iff (ε := Empty)).2 ⟨_, rfl, outcome⟩
      obtain ⟨hsuccessive, hlength⟩ := ih hrest
      simp only [hrun]
      refine ⟨.cons (e := ⟨tx, db, after⟩) hsuccessive, ?_⟩
      simp only [hlength, length_append, length_cons, length_nil]
      omega

end Executor

end Vtt
