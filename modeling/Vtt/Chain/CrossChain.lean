import Vtt.Chain.Commitments
import Vtt.Executor.Nonces
import Vtt.State.View

/-!
# Transactions for another chain

A transaction is compared with the chain id that the header of its block claims, and nothing
compares that one with the chain's own. A transaction for another chain is without effect exactly in
the blocks whose header claims the chain's own id.
-/

namespace Vtt

open Lib Executor BitVec

/-- Charging a sender after a rollback shows: the sender has another nonce than before, or an
account that it did not have. -/
theorem StateDB.view_restore_charge_ne (t db : StateDB) (sender : Address) (fee : Amount) :
    ((t.restore db.snapshot).charge sender fee).view ≠ db.view := by
  intro hview
  have entry : db.accounts[sender]? = some _ :=
    (congrArg (·.caches.accounts[sender]?) hview).symm.trans (accounts_charge_self ..)
  have kept := getAccount_of_cached entry
  -- an account that was in the cache is restored from there
  have restored : (t.restore db.snapshot).getAccount sender = _ := getAccount_of_cached entry
  have next := getNonce_charge_self (t.restore db.snapshot) sender fee
  rw [getNonce, getNonce, ← kept, restored, ← kept] at next
  exact absurd (UInt64.left_eq_add.1 next) (by decide)

namespace Executor

variable [Crypto]

/-- A transaction for another chain than its block claims to be of has no effect. -/
theorem Outcome.after_eq_of_foreign [Wasm] [Environment] {ctx : BlockContext}
    {tx : SignedTransaction} {db t : StateDB} {result : ExecutionResult}
    (h : Outcome ctx tx db result t) (hid : tx.payload.chainId ≠ ctx.chainId) : t = db := by
  have inert : Inert ctx db tx := .inl (.inl hid)
  cases h with
  | inert | excessive => rfl
  | short hadmitted => exact absurd inert hadmitted
  | failed ready => exact absurd inert ready.admitted
  | done ready => exact absurd inert ready.admitted

/-- A transaction is refused before its sender is charged. -/
def Refused (ctx : BlockContext) (db : StateDB) (tx : SignedTransaction) : Prop :=
  Inert ctx db tx ∨ totalNeeded tx.payload.action (gasFee tx ctx.gasConfig) = none

/-- A transaction shows nothing exactly if it is refused, unless its sender is the address of the
contract that it deploys. -/
theorem Outcome.view_eq_iff [Wasm] [Environment] {ctx : BlockContext} {tx : SignedTransaction}
    {db t : StateDB} {result : ExecutionResult} (h : Outcome ctx tx db result t)
    (hcontract : ∀ code args, tx.payload.action = .deployContract code args →
      contractAddress tx.sender (db.getNonce tx.sender + 1) ≠ tx.sender) :
    t.view = db.view ↔ Refused ctx db tx := by
  -- where the sender is charged, the nonce moves on
  have moved {u : StateDB} (hnonce : u.getNonce tx.sender = db.getNonce tx.sender + 1) :
      u.view ≠ db.view := by
    intro hview
    have same : u.getNonce tx.sender = db.getNonce tx.sender :=
      congrArg (fun v => (v.getAccount tx.sender).nonce) hview
    exact absurd (UInt64.left_eq_add.1 (same.symm.trans hnonce)) (by decide)
  have unrefused (ready : Ready ctx db tx) : ¬ Refused ctx db tx := by
    obtain ⟨_, hneeded, -⟩ := ready.payable
    exact not_or_intro ready.admitted fun hnone => by cases hnone.symm.trans hneeded
  cases h with
  | inert hinert => exact iff_of_true rfl (.inl hinert)
  | excessive _ hnone => exact iff_of_true rfl (.inr hnone)
  | short hadmitted hneeded =>
    exact iff_of_false (moved (StateDB.getNonce_charge_self ..))
      (not_or_intro hadmitted fun hnone => by cases hnone.symm.trans hneeded)
  | failed ready => exact iff_of_false (StateDB.view_restore_charge_ne _ _ _ _) (unrefused ready)
  | done ready hrun =>
    exact iff_of_false
      (moved ((sameNonce_operation hcontract hrun).trans (StateDB.getNonce_charge_self ..)))
      (unrefused ready)

/-- A transaction of a key that offers no gas for an operation that fails. -/
def probe (k : Keypair) (id : ChainId) (nonce : UInt64) : SignedTransaction :=
  let payload : TransactionPayload :=
    ⟨id, nonce, ⟨U128.maxValue⟩, 0, .crossChainTransfer id .zero (.vttTransfer .zero)⟩
  ⟨payload, k.sign (Borsh.serialize payload), k.publicKey⟩

/-- A transaction that offers no gas pays nothing. -/
theorem gasFee_probe (config : GasConfig) (k : Keypair) (id : ChainId) (nonce : UInt64) :
    gasFee (probe k id nonce) config = .zero := by
  have unused : gasToUse (probe k id nonce) config = 0 := by
    unfold gasToUse U64.min probe
    split
    · rename_i hle
      exact UInt64.toNat_inj.1 (Nat.le_zero.1 (UInt64.le_iff_toNat_le.1 hle))
    · rfl
  rw [gasFee, unused]
  rfl

section Probe

variable (hsign : ∀ (k : Keypair) (message : Bytes),
  verify message (k.sign message) k.publicKey = true) (ctx : BlockContext)
  (db : StateDB) (k : Keypair)

include hsign in
/-- A key can always make a transaction that is ready. -/
theorem ready_probe : Ready ctx db (probe k ctx.chainId (db.getNonce k.address)) := by
  refine ⟨?_, .zero, ?_, ?_⟩
  · rintro ((hid | hverify) | hnonce | hprice)
    · exact hid rfl
    · exact Bool.false_ne_true (hverify.symm.trans (hsign k _))
    · exact hnonce rfl
    · have bound := (db.getMinGasPriceOverride.getD ctx.gasConfig.minGasPrice).raw.isLt
      have above : U128.maxValue.toNat < _ := lt_def.1 hprice
      rw [U128.maxValue, toNat_allOnes] at above
      omega
  · rw [gasFee_probe]
    rfl
  · exact fun hlt => Nat.not_lt_zero _ (lt_def.1 hlt)

include hsign in
/-- Its execution shows: the sender has another nonce, or an account that it did not have. -/
theorem exists_probe_outcome [Wasm] [Environment] : ∃ result t,
    Outcome ctx (probe k ctx.chainId (db.getNonce k.address)) db result t ∧ t.view ≠ db.view :=
  ⟨_, _, .failed (ready_probe hsign ctx db k) rfl, StateDB.view_restore_charge_ne _ _ _ _⟩

end Probe

end Executor

namespace Chain

variable [Crypto] [Wasm] [Environment]

omit [Wasm] [Environment] in
/-- The head of a freshly started chain is its genesis. -/
theorem StartedFresh.head {c : Chain} {genesis : Block} (h : StartedFresh genesis c) :
    c.head = some genesis.header := by
  obtain ⟨_, _, -, -, -, -, rfl⟩ := h.onGenesis
  exact Std.ExtTreeMap.getElem?_insert_self

/-- The transactions of a block that an import executes. -/
def executions (c : Chain) (block : Block) : List Execution :=
  ((c.beforeTransactions block).map fun state =>
    Executor.executions (c.blockContext block.header) block.header.gasLimit block.transactions 0
      state).getD []

/-- Executing any transactions under the header of an accepted block leaves the state as it is for
the transactions of other chains, exactly if the header claims the id of the chain or has no gas.
The block's own transactions of other chains leave it as it is exactly if they are all refused. -/
theorem foreign_unchanged_iff
    (hsign : ∀ (k : Keypair) (message : Bytes), verify message (k.sign message) k.publicKey = true)
    {c c' : Chain} {now : UInt64} {block : Block} {r : ImportResult}
    (h : (importBlock now block).run c = some (.ok r, c')) (id : ChainId) :
    ((∀ transactions, ∀ e ∈ c.executions ⟨block.header, transactions⟩, e.tx.payload.chainId ≠ id →
      e.after.view = e.before.view) ↔ block.header.chainId = id ∨ block.header.gasLimit = 0) ∧
    ((∀ e ∈ c.executions block, ∀ code args, e.tx.payload.action = .deployContract code args →
        contractAddress e.tx.sender (e.before.getNonce e.tx.sender + 1) ≠ e.tx.sender) →
      ((∀ e ∈ c.executions block, e.tx.payload.chainId ≠ id → e.after.view = e.before.view) ↔
        ∀ e ∈ c.executions block, e.tx.payload.chainId ≠ id →
          Refused (c.blockContext block.header) e.before e.tx)) := by
  obtain ⟨state, -, -, hbefore, -⟩ := accepted_receipts h
  have executed : ∀ transactions, c.executions ⟨block.header, transactions⟩ =
      Executor.executions (c.blockContext block.header) block.header.gasLimit
      transactions 0 state := by
    intro transactions
    rw [executions,
      show c.beforeTransactions ⟨block.header, transactions⟩ = some state from hbefore]
    rfl
  refine ⟨?_, fun hcontract => forall₂_congr fun e he => imp_congr_right fun _ => ?_⟩
  · simp only [executed]
    constructor
    · intro hall
      by_contra hneither
      obtain ⟨hforeign, hgas⟩ := not_or.1 hneither
      obtain ⟨result, _, outcome, hview⟩ :=
        exists_probe_outcome hsign (c.blockContext block.header) state ⟨0⟩
      have hmem := mem_executions_singleton outcome hgas
      exact hview (hall _ _ hmem hforeign)
    · rintro (rfl | hgas) transactions _ he hne
      · obtain ⟨-, _, outcome⟩ := outcome_of_mem_executions he
        rw [outcome.after_eq_of_foreign hne]
      · rw [hgas] at he
        cases transactions with
        | nil => cases he
        | cons => cases he
  · obtain ⟨-, _, outcome⟩ := outcome_of_mem_executions (executed block.transactions ▸ he)
    exact outcome.view_eq_iff (hcontract e he)

end Chain

/-! ## On the small chain -/

namespace Demo

open Chain

/-- The keys of the small chain sign what verifies. -/
theorem verify_sign (k : Keypair) (message : Bytes) :
    verify message (k.sign message) k.publicKey = true :=
  beq_self_eq_true _

/-- A first block whose header claims to be of that other chain. -/
def foreignBlock (genesis : BlockHeader) : Block :=
  let block := firstBlockWith genesis [foreignTransfer] 21000 transferReceipts transferRoot
  { block with header := { block.header with chainId := ⟨2⟩ } }

/-- The first block claims the id of the chain, so transactions of other chains do nothing in it. -/
theorem firstBlock_foreign_unchanged : ∃ genesis c now block r c', StartedFresh genesis c ∧
      (importBlock now block).run c = some (.ok r, c') ∧
      block.header.chainId = genesis.header.chainId ∧
      ∀ transactions, ∀ e ∈ c.executions ⟨block.header, transactions⟩,
        e.tx.payload.chainId ≠ genesis.header.chainId → e.after.view = e.before.view := by
  obtain ⟨genesis, c, _, _, h₀, hhead, himport, -⟩ :=
    exists_grown (fun g => [firstBlock g]) (fun _ _ _ => true) (by decide +kernel)
  obtain ⟨r, c₁, hrun, -⟩ := importAll_cons himport
  obtain rfl := Option.some.inj (hhead.symm.trans h₀.head)
  exact ⟨genesis, c, 0, _, r, c₁, h₀, hrun, rfl,
    (foreign_unchanged_iff verify_sign hrun _).1.2 (.inl rfl)⟩

/-- A block that claims another id is accepted, and a transaction of that other chain moves
value. -/
theorem foreignBlock_changes : ∃ genesis c now block r c', StartedFresh genesis c ∧
      (importBlock now block).run c = some (.ok r, c') ∧
      ∃ e ∈ c.executions block, e.tx.payload.chainId ≠ genesis.header.chainId ∧ e.after.view ≠
        e.before.view := by
  obtain ⟨genesis, c, _, _, h₀, hhead, himport, hcheck⟩ := exists_grown (fun g => [foreignBlock g])
    (fun c g _ => (c.executions (foreignBlock g)).any fun e =>
      e.tx.payload.chainId ≠ g.chainId && e.after.getBalance ⟨7⟩ ≠ e.before.getBalance ⟨7⟩)
    (by decide +kernel)
  obtain ⟨r, c₁, hrun, -⟩ := importAll_cons himport
  obtain rfl := Option.some.inj (hhead.symm.trans h₀.head)
  obtain ⟨e, he, hcheck⟩ := List.any_eq_true.1 hcheck
  simp only [Bool.and_eq_true, decide_eq_true_eq] at hcheck
  refine ⟨genesis, c, 0, _, r, c₁, h₀, hrun, e, he, hcheck.1, fun hview => hcheck.2 ?_⟩
  exact congrArg (fun v => (v.getAccount ⟨7⟩).balance) hview

end Demo

end Vtt
