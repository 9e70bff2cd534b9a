import Vtt.Demo
import Vtt.Executor.Outcome
import Vtt.State.Kept
import Vtt.State.View

/-!
# Failed transactions

In memory, the operation of a transaction that fails leaves nothing behind: afterwards the state
shows what it showed before, with the account of the sender written once, for the fee and the nonce.
A sender without an account has one afterwards.
-/

namespace Vtt

open Lib StateDB BitVec Option Amount

namespace StateDB

/-- Writing an account twice shows the last one, if both have stake of their own or neither has. -/
theorem view_putAccount_putAccount (db : StateDB) (address : Address) {first last : AccountState}
    (hstake : hasSelfStake first = hasSelfStake last) (hmemory : db.storage = none) :
    ((db.putAccount address first).putAccount address last).view =
      (db.putAccount address last).view := by
  have stakers : ((db.putAccount address first).putAccount address last).stakers =
      (db.putAccount address last).stakers := by
    simp only [putAccount, hstake]
    split
    · exact insertSet_insertSet ..
    · exact eraseSet_eraseSet ..
  refine view_congr ?_ ?_
  · simp only [caches, snapshot, putAccount] at stakers ⊢
    rw [stakers, insert_insert_self]
  · simp only [putAccount, hmemory, Storage.write, storeStakers, map_none, ite_self]

/-- Without a store, the account of an address depends on the cache only. -/
theorem getAccount_of_memory {s t : StateDB} (hs : s.storage = none) (ht : t.storage = none)
    (haccounts : s.accounts = t.accounts) (address : Address) :
    s.getAccount address = t.getAccount address := by
  rw [getAccount, getAccount, hs, ht, haccounts]

end StateDB

namespace Executor

variable {ε : Type}

variable {t : StateDB} {r : Except ExecutionError (List Log)}

/-- The fee is part of what a sender needs. -/
theorem fee_le_totalNeeded {action : TransactionAction} {fee needed : Amount}
    (h : totalNeeded action fee = some needed) : fee ≤ needed := by
  have le_of_add : ∀ amount, fee.checkedAdd amount = some needed → fee ≤ needed := by
    intro _ hadd
    have total := toNat_checkedAdd hadd
    exact le_def.2 (by omega)
  have le_of_eq : some fee = some needed → fee ≤ needed :=
    fun heq => le_def.2 (by rw [some.inj heq])
  unfold totalNeeded at h
  split at h
  iterate 4 exact le_of_add _ h
  · split at h
    · exact le_of_add _ h
    · exact le_of_eq h
  · exact le_of_eq h

variable [Crypto] [Wasm] [Environment] {ctx : BlockContext} {tx : SignedTransaction} {db : StateDB}

omit [Wasm] [Environment] in
theorem ready_iff : Ready ctx db tx ↔ ¬ Inert ctx db tx ∧
    (totalNeeded tx.payload.action (gasFee tx ctx.gasConfig)).any (¬ db.getBalance tx.sender < ·) =
      true := by
  simp only [any_eq_true, decide_eq_true_eq]
  exact ⟨fun h => ⟨h.admitted, h.payable⟩, fun h => ⟨h.1, h.2⟩⟩

instance : Decidable (Ready ctx db tx) := decidable_of_iff' _ ready_iff

omit [Wasm] [Environment] in
/-- A sender that is ready can pay the fee. -/
theorem Ready.exists_balance (h : Ready ctx db tx) :
    ∃ balance, (db.getAccount tx.sender).balance.checkedSub (gasFee tx ctx.gasConfig) =
      some balance := by
  obtain ⟨-, needed, hneeded, henough⟩ := h
  refine exists_checkedSub (le_def.2 ?_)
  have fee : (gasFee tx ctx.gasConfig).raw.toNat ≤ needed.raw.toNat :=
    le_def.1 (fee_le_totalNeeded hneeded)
  have enough : ¬ (db.getBalance tx.sender).raw.toNat < needed.raw.toNat :=
    fun hlt => henough (lt_def.2 hlt)
  exact Nat.le_trans fee (Nat.le_of_not_lt enough)

/-- A transaction is executed with success. -/
def Succeeds (ctx : BlockContext) (tx : SignedTransaction) (s t : StateDB) : Prop :=
  ∃ result, (executeTransactionAt ctx tx : DbM Empty ExecutionResult).run s = some (.ok result, t) ∧
    result.receipt.success = true

/-- The operation of a successful transaction returned, after the sender had been charged. -/
theorem succeeds_iff : Succeeds ctx tx db t ↔ Ready ctx db tx ∧
    ∃ logs, (operation ctx tx).run (db.charge tx.sender (gasFee tx ctx.gasConfig)) =
      some (.ok logs, t) := by
  constructor
  · rintro ⟨_, hrun, hsuccess⟩
    have outcome := outcome_of_executed hrun
    cases outcome with
    | inert | excessive | short | failed => cases hsuccess
    | done ready hdone => exact ⟨ready, _, hdone⟩
  · rintro ⟨ready, _, hdone⟩
    exact ⟨_, executeTransactionAt_iff.2 ⟨_, rfl, .done ready hdone⟩, rfl⟩

omit [Wasm] [Environment] in
/-- A sender that is ready has the fee less. -/
theorem Ready.getBalance_charge (h : Ready ctx db tx) :
    ((db.charge tx.sender (gasFee tx ctx.gasConfig)).getBalance tx.sender).raw.toNat +
      (gasFee tx ctx.gasConfig).raw.toNat = (db.getBalance tx.sender).raw.toNat := by
  obtain ⟨_, hbalance⟩ := h.exists_balance
  rw [getBalance, getAccount_charge_self _ _ _ hbalance]
  exact toNat_checkedSub hbalance

/-- In memory, neither the fee nor the operation nor a rollback gives the state a store. -/
theorem storage_restored (hmemory : db.storage = none)
    (hrun : (operation ctx tx).run (db.charge tx.sender (gasFee tx ctx.gasConfig)) = some (r, t)) :
    (t.restore db.snapshot).storage = none := by
  have memory : Kept.memory.Holds db := ⟨hmemory, trivial⟩
  have charged : Kept.memory.Holds (db.charge tx.sender (gasFee tx ctx.gasConfig)) :=
    memory.run (run_chargeFee (ε := Empty) ..)
  exact (Frame.restoreStorage (F := Kept.memory.spared.frame) ⟨(charged.run hrun).1,
    rfl⟩ db.snapshot).1

/-- In memory, a rollback brings every account back. -/
theorem getAccount_restored (hmemory : db.storage = none)
    (hrun : (operation ctx tx).run (db.charge tx.sender (gasFee tx ctx.gasConfig)) = some (r, t))
    (address : Address) :
    (t.restore db.snapshot).getAccount address = db.getAccount address :=
  getAccount_of_memory (storage_restored hmemory hrun) hmemory rfl address

/-- A transaction in memory that is ready and whose operation fails shows nothing, apart from the
account of the sender: it has the fee less and the next nonce. -/
theorem failed_atomic {e : ExecutionError} {t : StateDB} (hmemory : db.storage = none)
    (hready : Ready ctx db tx)
    (hfailed : (operation ctx tx).run (db.charge tx.sender (gasFee tx ctx.gasConfig)) =
      some (.error e, t)) :
    ∃ after balance, (executeTransactionAt ctx tx : DbM ε ExecutionResult).run db =
        some (.ok (failReceipt tx.hash (gasToUse tx ctx.gasConfig)), after) ∧
      balance.raw.toNat + (gasFee tx ctx.gasConfig).raw.toNat =
        (db.getBalance tx.sender).raw.toNat ∧
      after.view = (db.putAccount tx.sender { db.getAccount tx.sender with
        balance, nonce := db.getNonce tx.sender + 1 }).view := by
  obtain ⟨balance, hbalance⟩ := hready.exists_balance
  refine ⟨_, balance, executeTransactionAt_iff.2 ⟨_, rfl, .failed hready hfailed⟩,
    Amount.toNat_checkedSub hbalance, ?_⟩
  have restored := storage_restored hmemory hfailed
  have account := getAccount_restored hmemory hfailed tx.sender
  have put : ∀ account : AccountState, ((t.restore db.snapshot).putAccount tx.sender account).view =
      (db.putAccount tx.sender account).view := by
    intro account
    refine view_congr rfl ?_
    simp only [putAccount, restored, hmemory, Storage.write, storeStakers,
      Option.map_none, ite_self]
  rw [charge, account]
  rw [hbalance]
  dsimp only
  rw [incrementNonce, getAccount_putAccount_self]
  refine (view_putAccount_putAccount _ _ ?_ restored).trans (put _)
  rfl

end Executor

/-! ## On small states -/

namespace Demo

open Executor

/-- A key without an account. -/
def stranger : Keypair := ⟨2⟩

/-- The context of a first block. -/
def context : BlockContext := ⟨.default, 1, 2000, ⟨1⟩⟩

/-- A first transaction of the stranger that offers no gas. -/
def gasless (action : TransactionAction) : SignedTransaction :=
  let payload := { firstPayload action with gasLimit := 0 }
  ⟨payload, stranger.sign (Borsh.serialize payload), stranger.publicKey⟩

/-- A transfer to another chain, which always fails. -/
def outbound : TransactionAction := .crossChainTransfer ⟨2⟩ ⟨7⟩ (.vttTransfer .zero)

/-- A state in which the validator has ten tokens. -/
def funded : StateDB :=
  new.putAccount key.address { AccountState.default with balance := .fromVtt 10 }

/-- A failed transaction of the validator in memory. -/
theorem outbound_atomic :
    ∃ e t after balance, funded.storage = none ∧ Ready context funded (firstTransaction outbound) ∧
      (operation context (firstTransaction outbound)).run (funded.charge
        (firstTransaction outbound).sender (gasFee (firstTransaction outbound) .default)) =
        some (.error e, t) ∧
      (executeTransactionAt context (firstTransaction outbound) : DbM Empty _).run
        funded = some (.ok (failReceipt (firstTransaction outbound).hash 63000), after) ∧
      balance.raw.toNat + (gasFee (firstTransaction outbound) .default).raw.toNat =
        (funded.getBalance key.address).raw.toNat ∧
      after.view = (funded.putAccount (firstTransaction outbound).sender
        { funded.getAccount (firstTransaction outbound).sender with
          balance, nonce := funded.getNonce (firstTransaction outbound).sender + 1 }).view := by
  have ready : Ready context funded (firstTransaction outbound) :=
    ⟨by decide +kernel, gasFee (firstTransaction
      outbound) .default, by decide +kernel, by decide +kernel⟩
  obtain ⟨after, balance, hrun, hbalance, hview⟩ := failed_atomic (ε := Empty) rfl ready rfl
  exact ⟨_, _, after, balance, rfl, ready, rfl, hrun, hbalance, hview⟩

/-- A failed transaction of a sender without an account and without a fee: the account exists
afterwards. -/
theorem outbound_creates_account : ∃ db ctx tx e t r after, db.storage = none ∧ Ready ctx db tx ∧
      (operation ctx tx).run (db.charge tx.sender (gasFee tx ctx.gasConfig)) = some (.error e, t) ∧
      (executeTransactionAt ctx tx : DbM Empty _).run db = some (.ok r, after) ∧
      after.accountExists tx.sender ≠ db.accountExists tx.sender := by
  have ready : Ready context .new (gasless outbound) :=
    ⟨by decide +kernel, gasFee (gasless outbound) .default, by decide +kernel, by decide +kernel⟩
  have run := (executeTransactionAt_iff (ε := Empty)).2 ⟨_, rfl, .failed ready rfl⟩
  exact ⟨.new, context, gasless outbound, _, _, _, _, rfl, ready, rfl, run, by decide +kernel⟩

end Demo

end Vtt
