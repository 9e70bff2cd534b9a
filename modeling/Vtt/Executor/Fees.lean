import Vtt.Executor.Atomic

/-!
# What a successful transaction pays

The fee is the gas price times the gas that the transaction uses, which is what its operation costs
but never more than the sender's own gas limit; a fee that does not fit a word is dropped
altogether. The costs are those of the node's configuration: the overrides that governance sets are
stored and not looked at.
-/

namespace Vtt

open Lib U128 BitVec

namespace Executor

/-- The gas parameters in force: those of the node, with the overrides that governance has set. -/
def effectiveGasConfig (db : StateDB) (config : GasConfig) : GasConfig where
  minGasPrice := db.getMinGasPriceOverride.getD config.minGasPrice
  baseTransferCost := db.getBaseTransferCostOverride.getD config.baseTransferCost
  costPerByte := db.getCostPerByteOverride.getD config.costPerByte

/-- The gas that the operation of a transaction costs with the parameters in force. -/
def intrinsicGas (ctx : BlockContext) (db : StateDB) (tx : SignedTransaction) : UInt64 :=
  calculateGasCost tx.payload.action (effectiveGasConfig db ctx.gasConfig)

/-- A fee was paid: between two states the balance of the sender went down by the gas price times
the gas of the receipt, and that gas is at least what the operation costs. -/
structure FeePaid [Crypto] (ctx : BlockContext) (tx : SignedTransaction) (db charged : StateDB)
    (receipt : TransactionReceipt) : Prop where
  debited : (db.getBalance tx.sender).raw.toNat = (charged.getBalance tx.sender).raw.toNat +
    tx.payload.gasPrice.raw.toNat * receipt.gasUsed.toNat
  covered : intrinsicGas ctx db tx ≤ receipt.gasUsed

/-- The fee of a transaction fits a word, and the cost with the parameters in force is above neither
the cost in the node's configuration nor the sender's gas limit. -/
structure Priced (ctx : BlockContext) (db : StateDB) (tx : SignedTransaction) : Prop where
  fits : tx.payload.gasPrice.raw.toNat *
    (U64.min (calculateGasCost tx.payload.action ctx.gasConfig) tx.payload.gasLimit).toNat < 2 ^ 128
  configured : intrinsicGas ctx db tx ≤ calculateGasCost tx.payload.action ctx.gasConfig
  limited : intrinsicGas ctx db tx ≤ tx.payload.gasLimit

/-- The fee is the product exactly if the product fits a word. -/
theorem toNat_gasFee_eq_iff (tx : SignedTransaction) (config : GasConfig) :
    (gasFee tx config).raw.toNat = tx.payload.gasPrice.raw.toNat * (gasToUse tx config).toNat ↔
      tx.payload.gasPrice.raw.toNat * (gasToUse tx config).toNat < 2 ^ 128 := by
  have widened : (ofU64 (gasToUse tx config)).toNat = (gasToUse tx config).toNat := by
    have bound := (gasToUse tx config).toNat_lt
    rw [ofU64, toNat_ofNat, Nat.mod_eq_of_lt (by omega)]
  unfold gasFee Amount.checkedMul
  constructor
  · intro heq
    rw [← heq]
    exact isLt _
  · intro hlt
    rw [← widened] at hlt ⊢
    have product : checkedMul tx.payload.gasPrice.raw (ofU64 (gasToUse tx config)) =
        some (tx.payload.gasPrice.raw * ofU64 (gasToUse tx config)) := if_pos hlt
    rw [product]
    exact (toNat_mul ..).trans (Nat.mod_eq_of_lt hlt)

theorem le_gasToUse_iff {gas : UInt64} (tx : SignedTransaction) (config : GasConfig) :
    gas ≤ gasToUse tx config ↔
      gas ≤ calculateGasCost tx.payload.action config ∧ gas ≤ tx.payload.gasLimit := by
  unfold gasToUse U64.min
  simp only [UInt64.le_iff_toNat_le]
  split <;> omega

variable [Crypto] [Wasm] [Environment]

/-- A successful transaction ran its operation on a state in which the sender had been charged. The
fee was paid exactly if the transaction is priced, and then it is at least the minimum gas price in
force times the gas that the operation costs. -/
theorem success_paid_iff {ε : Type} {ctx : BlockContext} {tx : SignedTransaction} {db t : StateDB}
    {result : ExecutionResult}
    (h : (executeTransactionAt ctx tx : DbM ε ExecutionResult).run db = some (.ok result, t))
    (hsuccess : result.receipt.success = true) :
    ∃ charged logs, charged = db.charge tx.sender (gasFee tx ctx.gasConfig) ∧
      (operation ctx tx).run charged = some (.ok logs, t) ∧
      (FeePaid ctx tx db charged result.receipt ↔ Priced ctx db tx) ∧
      (Priced ctx db tx →
          (effectiveGasConfig db ctx.gasConfig).minGasPrice.raw.toNat *
            (intrinsicGas ctx db tx).toNat + (charged.getBalance tx.sender).raw.toNat ≤
              (db.getBalance tx.sender).raw.toNat) := by
  have outcome := outcome_of_executed h
  cases outcome with
  | inert | excessive | short | failed => cases hsuccess
  | @done logs _ ready hrun =>
    refine ⟨_, logs, rfl, hrun, ?_⟩
    obtain ⟨balance, hbalance⟩ := ready.exists_balance
    have left : (db.charge tx.sender (gasFee tx ctx.gasConfig)).getBalance tx.sender = balance := by
      rw [StateDB.getBalance, StateDB.getAccount_charge_self _ _ _ hbalance]
    have debit : balance.raw.toNat + (gasFee tx ctx.gasConfig).raw.toNat =
        (db.getBalance tx.sender).raw.toNat := Amount.toNat_checkedSub hbalance
    have paid_iff : FeePaid ctx tx db (db.charge tx.sender (gasFee tx ctx.gasConfig))
        ⟨tx.hash, true, gasToUse tx ctx.gasConfig, logs⟩ ↔ Priced ctx db tx := by
      constructor
      · rintro ⟨hdebited, hcovered⟩
        rw [left] at hdebited
        dsimp only at hdebited
        obtain ⟨hconfigured, hlimited⟩ := (le_gasToUse_iff ..).1 hcovered
        refine ⟨(toNat_gasFee_eq_iff ..).1 ?_, hconfigured, hlimited⟩
        omega
      · rintro ⟨hfits, hconfigured, hlimited⟩
        have product := (toNat_gasFee_eq_iff tx ctx.gasConfig).2 hfits
        refine ⟨?_, (le_gasToUse_iff ..).2 ⟨hconfigured, hlimited⟩⟩
        rw [left]
        dsimp only
        omega
    refine ⟨paid_iff, fun priced => ?_⟩
    obtain ⟨hdebited, hcovered⟩ := paid_iff.2 priced
    have price : (effectiveGasConfig db ctx.gasConfig).minGasPrice.raw.toNat ≤
        tx.payload.gasPrice.raw.toNat :=
      Nat.le_of_not_lt fun hlt => ready.admitted (.inr (.inr (BitVec.lt_def.2 hlt)))
    have least := Nat.mul_le_mul price (UInt64.le_iff_toNat_le.1 hcovered)
    omega

end Executor

namespace Demo

open Executor

/-- A transfer by the validator pays its fee. -/
theorem transfer_paid : ∃ result t charged logs,
      (executeTransactionAt context transfer : DbM Empty _).run funded = some (.ok result, t) ∧
      result.receipt.success = true ∧
        (operation context transfer).run charged = some (.ok logs, t) ∧
      FeePaid context transfer funded charged result.receipt := by
  obtain ⟨result, t, run, success⟩ := exists_executed context transfer funded
    (fun result _ => result.receipt.success) (by decide +kernel)
  have priced : Priced context funded transfer :=
    ⟨by decide +kernel, by decide +kernel, by decide +kernel⟩
  obtain ⟨charged, logs, -, hrun, hpaid, -⟩ := success_paid_iff run success
  exact ⟨result, t, charged, logs, run, success, hrun, hpaid.2 priced⟩

/-- A sender without any balance makes a transaction with a gas limit of zero: it succeeds, for
nothing. -/
theorem gasless_not_paid :
        ∃ db ctx tx result t, (executeTransactionAt ctx tx : DbM Empty _).run db =
          some (.ok result, t) ∧ result.receipt.success = true ∧
      ¬ intrinsicGas ctx db tx ≤ result.receipt.gasUsed := by
  obtain ⟨result, t, run, hcheck⟩ := exists_executed context (gasless (.transfer ⟨7⟩ .zero)) .new
    (fun result _ => result.receipt.success &&
      !intrinsicGas context .new (gasless (.transfer ⟨7⟩ .zero)) ≤ result.receipt.gasUsed)
    (by decide +kernel)
  rw [Bool.and_eq_true, Bool.not_eq_true', decide_eq_false_iff_not] at hcheck
  exact ⟨.new, context, _, result, t, run, hcheck.1, hcheck.2⟩

end Demo

end Vtt
