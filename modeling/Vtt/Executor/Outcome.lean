import Vtt.Executor.Slashing
import Vtt.Executor.Block

/-!
# What a transaction can do

A transaction ends in one of five ways: its own checks refuse it; the value it needs does not fit a
word; the sender cannot pay and is charged what there is; its operation fails and is rolled back,
and the sender is charged; or the sender is charged and its operation is carried out. `Outcome` says
so, and `executeTransactionAt_iff` says that these are the runs of a transaction.
-/

namespace Vtt

open Lib Confined Std.ExtTreeMap

/-! ## Charging a sender -/

namespace StateDB

variable {other : Address}

/-- The state after a fee was deducted, if the balance allows, and the nonce was moved on. -/
def charge (db : StateDB) (sender : Address) (fee : Amount) : StateDB :=
  let account := db.getAccount sender
  match account.balance.checkedSub fee with
  | some balance => (db.putAccount sender { account with balance }).incrementNonce sender
  | none => db.incrementNonce sender

variable (db : StateDB) (sender : Address) (fee : Amount)

@[simp] theorem getAccount_incrementNonce_self : (db.incrementNonce sender).getAccount sender =
      { db.getAccount sender with nonce := (db.getAccount sender).nonce + 1 } := by
  rw [incrementNonce, getAccount_putAccount_self]

/-- A sender that can pay has the fee less and the next nonce. -/
theorem getAccount_charge_self {balance : Amount}
    (h : (db.getAccount sender).balance.checkedSub fee = some balance) :
    (db.charge sender fee).getAccount sender =
      { db.getAccount sender with balance, nonce := (db.getAccount sender).nonce + 1 } := by
  simp only [charge, h, getAccount_incrementNonce_self, getAccount_putAccount_self]

/-- What setting the sender's account keeps, charging the sender keeps. -/
@[elab_as_elim]
theorem charge_induction {P : StateDB → Prop} (refl : P db)
    (step : ∀ s state, P s → P (s.putAccount sender state)) : P (db.charge sender fee) := by
  unfold charge
  dsimp only
  split
  · exact step _ _ (step _ _ refl)
  · exact step _ _ refl

/-- A sender always has the next nonce. -/
theorem getNonce_charge_self : (db.charge sender fee).getNonce sender = db.getNonce sender + 1 := by
  unfold getNonce charge
  dsimp only
  split
  · simp only [getAccount_incrementNonce_self, getAccount_putAccount_self]
  · simp only [getAccount_incrementNonce_self]

/-- A sender that was charged is in the cache. -/
theorem accounts_charge_self :
    (db.charge sender fee).accounts[sender]? = some ((db.charge sender fee).getAccount sender) := by
  unfold charge
  dsimp only
  split
  · rw [getAccount_incrementNonce_self]
    exact getElem?_insert_self
  · rw [getAccount_incrementNonce_self]
    exact getElem?_insert_self

theorem getAccount_charge_of_ne (h : other ≠ sender) : (db.charge sender fee).getAccount other =
    db.getAccount other :=
  charge_induction _ _ _ rfl fun _ _ => (getAccount_putAccount_of_ne _ h _).trans

end StateDB

namespace Executor

variable {ε : Type}

variable {ctx : BlockContext} {tx : SignedTransaction} {db : StateDB}

theorem run_chargeFee (sender : Address) (fee : Amount) (db : StateDB) :
    (chargeFee sender fee : DbM ε Unit).run db = some (.ok (), db.charge sender fee) := by
  have subtracted : ((Db.subBalance sender fee).ignoreError : DbM ε Unit).run db =
      some (.ok (), match (db.getAccount sender).balance.checkedSub fee with
        | some balance => db.putAccount sender { db.getAccount sender with balance }
        | none => db) := by
    unfold Db.subBalance Db.getAccount
    change ((run (_ >>= _ : DbM StateError Unit) db).map _) = _
    rw [run_view_bind]
    cases (db.getAccount sender).balance.checkedSub fee with
    | none | some => rfl
  unfold chargeFee StateDB.charge
  rw [run_bind_of_ok subtracted]
  dsimp only
  split
  · rfl
  · rfl

/-! ## The ways a transaction ends -/

variable [Crypto] [Wasm] [Environment]

/-- A transaction is refused by its own checks: it is for another chain, its signature or its nonce
is wrong, or its gas price is too low. -/
def Inert (ctx : BlockContext) (db : StateDB) (tx : SignedTransaction) : Prop :=
  (tx.payload.chainId ≠ ctx.chainId ∨ verify tx.payloadBytes tx.signature tx.publicKey = false) ∨
    tx.payload.nonce ≠ db.getNonce tx.sender ∨
    tx.payload.gasPrice < db.getMinGasPriceOverride.getD ctx.gasConfig.minGasPrice

instance (ctx : BlockContext) (db : StateDB) (tx : SignedTransaction) :
    Decidable (Inert ctx db tx) :=
  inferInstanceAs (Decidable ((_ ∨ _) ∨ _ ∨ _))

/-- An inert transaction fails without any effect; every other one is admitted. -/
theorem run_executeTransactionAt : (executeTransactionAt ctx tx : DbM ε ExecutionResult).run db =
      if Inert ctx db tx then some (.ok (failReceipt tx.hash 0), db)
      else (executeAdmitted ctx tx).run db := by
  have entry :
      (tx.payload.chainId ≠ ctx.chainId ∨
      (!verify tx.payloadBytes tx.signature tx.publicKey) = true) ↔
        (tx.payload.chainId ≠ ctx.chainId ∨
        verify tx.payloadBytes tx.signature tx.publicKey = false) := by
    rw [Bool.not_eq_true']
  unfold executeTransactionAt
  by_cases hforeign : tx.payload.chainId ≠ ctx.chainId ∨
    verify tx.payloadBytes tx.signature tx.publicKey = false
  · rw [if_pos (entry.2 hforeign), if_pos (show Inert ctx db tx from .inl hforeign), run_pure]
  · rw [if_neg (mt entry.1 hforeign)]
    change (if tx.payload.nonce ≠ db.getNonce tx.sender ∨
        tx.payload.gasPrice < db.getMinGasPriceOverride.getD ctx.gasConfig.minGasPrice then
      pure (failReceipt tx.hash 0) else executeAdmitted ctx tx : DbM ε ExecutionResult).run db = _
    split
    · rename_i hlate
      rw [if_pos (show Inert ctx db tx from .inr hlate), run_pure]
    · rename_i hlate
      rw [if_neg (show ¬ Inert ctx db tx from not_or_intro hforeign hlate)]

theorem Inert.run (h : Inert ctx db tx) :
      (executeTransactionAt ctx tx : DbM ε ExecutionResult).run db =
        some (.ok (failReceipt tx.hash 0), db) := by
  rw [run_executeTransactionAt, if_pos h]

/-- The operation of a transaction, as it is run after the sender was charged. -/
def operation (ctx : BlockContext) (tx : SignedTransaction) : ExecM (List Log) :=
  executeAction tx.sender tx.payload.action ctx.blockNumber ctx.blockTimestamp tx.payload.nonce
    tx.payload.gasLimit

/-- A transaction passes all checks before its operation: its own ones, and the sender can pay. -/
structure Ready (ctx : BlockContext) (db : StateDB) (tx : SignedTransaction) : Prop where
  admitted : ¬ Inert ctx db tx
  payable : ∃ needed, totalNeeded tx.payload.action (gasFee tx ctx.gasConfig) = some needed ∧
    ¬ db.getBalance tx.sender < needed

/-- The ways a transaction ends, with the result and the state afterwards. -/
inductive Outcome (ctx : BlockContext) (tx : SignedTransaction) (db : StateDB) : ExecutionResult →
    StateDB → Prop where
  | inert : Inert ctx db tx → Outcome ctx tx db (failReceipt tx.hash 0) db
  | excessive : ¬ Inert ctx db tx → totalNeeded tx.payload.action (gasFee tx ctx.gasConfig) = none →
      Outcome ctx tx db (failReceipt tx.hash (gasToUse tx ctx.gasConfig)) db
  | short {needed : Amount} : ¬ Inert ctx db tx →
      totalNeeded tx.payload.action (gasFee tx ctx.gasConfig) = some needed →
      db.getBalance tx.sender < needed →
      Outcome ctx tx db (failReceipt tx.hash (gasToUse tx ctx.gasConfig)) (db.charge tx.sender
          ⟨U128.min (gasFee tx ctx.gasConfig).raw (db.getBalance tx.sender).raw⟩)
  | failed {e : ExecutionError} {t : StateDB} : Ready ctx db tx →
      (operation ctx tx).run (db.charge tx.sender (gasFee tx ctx.gasConfig)) = some (.error e, t) →
      Outcome ctx tx db (failReceipt tx.hash (gasToUse tx ctx.gasConfig))
        ((t.restore db.snapshot).charge tx.sender (gasFee tx ctx.gasConfig))
  | done {logs : List Log} {t : StateDB} : Ready ctx db tx →
      (operation ctx tx).run (db.charge tx.sender (gasFee tx ctx.gasConfig)) = some (.ok logs, t) →
      Outcome ctx tx db ⟨⟨tx.hash, true, gasToUse tx ctx.gasConfig, logs⟩,
        gasToUse tx ctx.gasConfig⟩ t

/-- What charging and the operation come to. -/
theorem run_executeCharged : (executeCharged ctx tx : DbM ε ExecutionResult).run db =
      ((operation ctx tx).run (db.charge tx.sender (gasFee tx ctx.gasConfig))).map fun
        | (.ok logs, t) =>
          (.ok ⟨⟨tx.hash, true, gasToUse tx ctx.gasConfig, logs⟩, gasToUse tx ctx.gasConfig⟩, t)
        | (.error _, t) => (.ok (failReceipt tx.hash (gasToUse tx ctx.gasConfig)),
            (t.restore db.snapshot).charge tx.sender (gasFee tx ctx.gasConfig)) := by
  have charged : (do
      chargeFee tx.sender (gasFee tx ctx.gasConfig)
      operation ctx tx : ExecM (List Log)).run db =
      (operation ctx tx).run (db.charge tx.sender (gasFee tx ctx.gasConfig)) :=
    run_bind_of_ok (run_chargeFee ..)
  have saved : (Db.orRestore (do
      chargeFee tx.sender (gasFee tx ctx.gasConfig)
      operation ctx tx) : DbM ε (Except ExecutionError (List Log))).run db =
      ((operation ctx tx).run (db.charge tx.sender (gasFee tx ctx.gasConfig))).map fun
        | (.ok logs, t) => (.ok (.ok logs), t)
        | (.error e, t) => (.ok (.error e), t.restore db.snapshot) := by
    change Option.map _ (run _ db) = _
    congr 1
    funext r
    obtain ⟨_ | _, _⟩ := r <;> rfl
  cases hrun : (operation ctx tx).run (db.charge tx.sender (gasFee tx ctx.gasConfig)) with
  | none =>
    rw [hrun] at saved
    exact Exec.run_bind_of_abort saved
  | some outcome =>
    rw [hrun] at saved
    obtain ⟨_ | _, _⟩ := outcome
    · exact (run_bind_of_ok saved).trans (run_bind_of_ok (run_chargeFee ..))
    · exact run_bind_of_ok saved

/-- What a transaction that passed its own checks comes to. -/
theorem run_executeAdmitted : (executeAdmitted ctx tx : DbM ε ExecutionResult).run db =
      match totalNeeded tx.payload.action (gasFee tx ctx.gasConfig) with
      | none => some (.ok (failReceipt tx.hash (gasToUse tx ctx.gasConfig)), db)
      | some needed =>
        if db.getBalance tx.sender < needed then
          some (.ok (failReceipt tx.hash (gasToUse tx ctx.gasConfig)), db.charge tx.sender
            ⟨U128.min (gasFee tx ctx.gasConfig).raw (db.getBalance tx.sender).raw⟩)
        else (executeCharged ctx tx).run db := by
  have read : (Db.getBalance tx.sender : DbM ε Amount).run db =
    some (.ok (db.getBalance tx.sender), db) := rfl
  unfold executeAdmitted
  rw [run_bind_of_ok read]
  cases totalNeeded tx.payload.action (gasFee tx ctx.gasConfig) with
  | none => rfl
  | some =>
    dsimp only
    split
    · rw [run_bind_of_ok (run_chargeFee ..), run_pure]
    · rfl

/-- The runs of a transaction are the outcomes; a transaction returns no error. -/
theorem executeTransactionAt_iff {t : StateDB} {r : Except ε ExecutionResult} :
    (executeTransactionAt ctx tx : DbM ε ExecutionResult).run db = some (r, t) ↔
      ∃ result, r = .ok result ∧ Outcome ctx tx db result t := by
  rw [run_executeTransactionAt]
  constructor
  · intro h
    split at h
    · rename_i hinert
      cases h
      exact ⟨_, rfl, .inert hinert⟩
    rename_i hadmitted
    rw [run_executeAdmitted] at h
    split at h
    · rename_i hneeded
      cases h
      exact ⟨_, rfl, .excessive hadmitted hneeded⟩
    rename_i needed hneeded
    split at h
    · rename_i hshort
      cases h
      exact ⟨_, rfl, .short hadmitted hneeded hshort⟩
    rename_i henough
    have ready : Ready ctx db tx := ⟨hadmitted, needed, hneeded, henough⟩
    rw [run_executeCharged] at h
    obtain ⟨⟨_ | _, _⟩, hrun, heq⟩ := Option.map_eq_some_iff.1 h
    · cases heq
      exact ⟨_, rfl, .failed ready hrun⟩
    · cases heq
      exact ⟨_, rfl, .done ready hrun⟩
  · rintro ⟨_, rfl, outcome⟩
    cases outcome with
    | inert hinert => rw [if_pos hinert]
    | excessive hadmitted hneeded => rw [if_neg hadmitted, run_executeAdmitted, hneeded]
    | short hadmitted hneeded hshort =>
      rw [if_neg hadmitted, run_executeAdmitted, hneeded]
      exact if_pos hshort
    | failed ready hrun =>
      obtain ⟨hadmitted, needed, hneeded, henough⟩ := ready
      rw [if_neg hadmitted, run_executeAdmitted, hneeded]
      dsimp only
      rw [if_neg henough, run_executeCharged, hrun]
      rfl
    | done ready hrun =>
      obtain ⟨hadmitted, _, hneeded, henough⟩ := ready
      rw [if_neg hadmitted, run_executeAdmitted, hneeded]
      dsimp only
      rw [if_neg henough, run_executeCharged, hrun]
      rfl

theorem outcome_of_executed {t : StateDB} {result : ExecutionResult}
    (h : (executeTransactionAt ctx tx : DbM ε ExecutionResult).run db = some (.ok result, t)) :
    Outcome ctx tx db result t := by
  obtain ⟨_, heq, outcome⟩ := executeTransactionAt_iff.1 h
  cases heq
  exact outcome

end Executor

end Vtt
