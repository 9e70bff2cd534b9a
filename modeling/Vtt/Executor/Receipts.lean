import Vtt.Executor.Block

/-!
# The receipts of a block

The execution of a block stops at the first transaction that the gas limit is reached before. It
gives one receipt per transaction and keeps to the limit exactly if executing all transactions,
without looking at the limit, starts each of them below it and ends within it.
-/

namespace Vtt.Executor

open Lib Confined List Option

variable {limit totalGas : UInt64} {receipts rs : List TransactionReceipt} {ctx : BlockContext}
  {txs : List SignedTransaction}

/-- The gas of all receipts together. -/
def gasSum (receipts : List TransactionReceipt) : Nat := (receipts.map fun r => r.gasUsed.toNat).sum

/-- After some gas was used, every receipt is of a transaction that started below the limit, and the
gas of all of them keeps to it. -/
def WithinLimit (limit : UInt64) : Nat → List TransactionReceipt → Prop
  | used, [] => used ≤ limit.toNat
  | used, r :: rest => used < limit.toNat ∧ WithinLimit limit (used + r.gasUsed.toNat) rest

instance (limit : UInt64) : ∀ used receipts, Decidable (WithinLimit limit used receipts)
  | used, [] => inferInstanceAs (Decidable (used ≤ limit.toNat))
  | used, r :: rest =>
    have := instDecidableWithinLimit limit (used + r.gasUsed.toNat) rest
    inferInstanceAs (Decidable (used < limit.toNat ∧ _))

theorem gasSum_cons (r : TransactionReceipt) (rest : List TransactionReceipt) :
    gasSum (r :: rest) = r.gasUsed.toNat + gasSum rest := by
  simp [gasSum]

theorem WithinLimit.gasSum_le {used : Nat} (h : WithinLimit limit used receipts) :
    used + gasSum receipts ≤ limit.toNat := by
  induction receipts generalizing used with
  | nil => exact h
  | cons _ _ ih =>
    have := ih h.2
    rw [gasSum_cons]
    omega

/-- Gas within the limit does not wrap around. -/
theorem toNat_add_of_le (limit : UInt64) {total gas : UInt64}
    (h : total.toNat + gas.toNat ≤ limit.toNat) :
    (total + gas).toNat = total.toNat + gas.toNat := by
  have := limit.toNat_lt
  rw [UInt64.toNat_add, Nat.mod_eq_of_lt (by omega)]

variable [Crypto] [Wasm] [Environment] {ε : Type}

/-- A receipt names the gas that counts for the block. -/
theorem executeCharged_gasUsed (ctx : BlockContext) (tx : SignedTransaction) :
    (executeCharged ctx tx : DbM ε ExecutionResult).Returns fun result => result.receipt.gasUsed =
      result.gasUsed := by
  refine .bind fun outcome => ?_
  cases outcome with
  | ok => exact .pure rfl
  | error => exact .bind fun _ => .pure rfl

@[inherit_doc executeCharged_gasUsed]
theorem executeTransactionAt_gasUsed (ctx : BlockContext) (tx : SignedTransaction) :
    (executeTransactionAt ctx tx : DbM ε ExecutionResult).Returns
      fun result => result.receipt.gasUsed = result.gasUsed := by
  refine .ite (.pure rfl) (.bind fun expectedNonce => .bind fun override => .ite (.pure rfl) ?_)
  refine .bind fun balance => ?_
  split
  · exact .pure rfl
  · exact .ite (.bind fun _ => .pure rfl) (executeCharged_gasUsed ctx tx)

/-! ## All transactions -/

/-- Execute transactions in turn, whatever gas they use. -/
def executeAll (ctx : BlockContext) : List SignedTransaction → DbM ε (List TransactionReceipt)
  | [] => pure []
  | tx :: rest => do
    let result ← executeTransactionAt ctx tx
    let later ← executeAll ctx rest
    pure (result.receipt :: later)

/-- There is one receipt for each transaction. -/
theorem executeAll_length (ctx : BlockContext) (txs : List SignedTransaction) :
    (executeAll ctx txs : DbM ε _).Returns fun receipts => receipts.length = txs.length := by
  induction txs with
  | nil => exact .pure rfl
  | cons _ _ ih =>
    intro _ _ _ hrun
    obtain ⟨_, _, -, hrest⟩ := run_bind_ok hrun
    obtain ⟨_, _, hlater, hlast⟩ := run_bind_ok hrest
    rw [run_pure, some.injEq, Prod.mk.injEq, Except.ok.injEq] at hlast
    rw [← hlast.1, length_cons, length_cons, ih hlater]

/-- The receipts are added to those there are. -/
theorem executeTransactions_append (ctx : BlockContext) (limit : UInt64)
    (txs : List SignedTransaction) (receipts : List TransactionReceipt) (totalGas : UInt64) :
    (executeTransactions ctx limit txs receipts totalGas : DbM ε _).Returns
      fun result => ∃ rs, result.1 = receipts ++ rs := by
  induction txs generalizing receipts totalGas with
  | nil => exact .pure ⟨[], (append_nil _).symm⟩
  | cons _ _ ih =>
    refine .ite (.pure ⟨[], (append_nil _).symm⟩) (.bind fun result => ?_)
    intro _ _ _ hrun
    obtain ⟨rs, hrs⟩ := ih _ _ hrun
    exact ⟨result.receipt :: rs, by rw [hrs, append_assoc, singleton_append]⟩

/-- If there is a receipt for every transaction and their gas keeps to the limit, then the limit
stopped nothing. -/
theorem executeAll_of_complete {total : UInt64} {s t : StateDB}
    (h : (executeTransactions ctx limit txs receipts totalGas : DbM ε _).run s =
    some (.ok (receipts ++ rs, total), t)) (hlength : rs.length = txs.length)
      (hlimit : totalGas.toNat + gasSum rs ≤ limit.toNat) :
    (executeAll ctx txs : DbM ε _).run s = some (.ok rs, t) ∧
      WithinLimit limit totalGas.toNat rs := by
  induction txs generalizing receipts rs totalGas s with
  | nil =>
    obtain rfl := eq_nil_of_length_eq_zero hlength
    obtain ⟨-, rfl⟩ := Prod.mk.inj (some.inj h)
    exact ⟨rfl, hlimit⟩
  | cons tx rest ih =>
    rw [executeTransactions] at h
    split at h
    · -- stopped before the first transaction: there would be no receipt
      rw [run_pure, some.injEq, Prod.mk.injEq, Except.ok.injEq, Prod.mk.injEq] at h
      obtain rfl := self_eq_append_right.1 h.1.1
      cases hlength
    · rename_i hbelow
      obtain ⟨result, _, hfirst, hrest⟩ := run_bind_ok h
      obtain ⟨rs', hrs'⟩ := executeTransactions_append ctx limit rest _ _ hrest
      dsimp only at hrs'
      rw [hrs'] at hrest
      rw [append_assoc, append_cancel_left_eq, singleton_append] at hrs'
      subst hrs'
      rw [gasSum_cons] at hlimit
      have gas := executeTransactionAt_gasUsed ctx tx hfirst
      rw [gas] at hlimit
      have total_eq : (totalGas + result.gasUsed).toNat = totalGas.toNat + result.gasUsed.toNat :=
        toNat_add_of_le limit (by omega)
      have rest_le : (totalGas + result.gasUsed).toNat + gasSum rs' ≤ limit.toNat := by omega
      obtain ⟨hall, _⟩ := ih hrest (Nat.succ.inj hlength) rest_le
      refine ⟨?_, UInt64.lt_iff_toNat_lt.1 (UInt64.not_le.1 hbelow), ?_⟩
      · rw [executeAll, run_bind_of_ok hfirst, run_bind_of_ok hall, run_pure]
      · rwa [gas, ← total_eq]

/-- If executing all transactions keeps to the limit throughout, then the limit stops nothing. -/
theorem executeTransactions_of_withinLimit {s t : StateDB}
    (h : (executeAll ctx txs : DbM ε _).run s = some (.ok rs, t))
    (hwithin : WithinLimit limit totalGas.toNat rs) (receipts : List TransactionReceipt) :
    ∃ total, (executeTransactions ctx limit txs receipts totalGas : DbM ε _).run s =
      some (.ok (receipts ++ rs, total), t) := by
  induction txs generalizing receipts rs totalGas s with
  | nil =>
    obtain ⟨rfl, rfl⟩ := h
    exact ⟨totalGas, by rw [executeTransactions, run_pure, append_nil]⟩
  | cons tx _ ih =>
    obtain ⟨result, _, hfirst, hrest⟩ := run_bind_ok h
    obtain ⟨_, _, hall, hlast⟩ := run_bind_ok hrest
    obtain ⟨rfl, rfl⟩ := hlast
    have gas := executeTransactionAt_gasUsed ctx tx hfirst
    have hlater := hwithin.2
    rw [gas] at hlater
    have total_eq : (totalGas + result.gasUsed).toNat = totalGas.toNat + result.gasUsed.toNat :=
      toNat_add_of_le limit (Nat.le_of_add_right_le hlater.gasSum_le)
    rw [← total_eq] at hlater
    obtain ⟨total, htotal⟩ := ih hall hlater (receipts ++ [result.receipt])
    refine ⟨total, ?_⟩
    rw [executeTransactions, if_neg (UInt64.not_le.2 (UInt64.lt_iff_toNat_lt.2 hwithin.1)),
      run_bind_of_ok hfirst, htotal, append_assoc, singleton_append]

end Vtt.Executor
