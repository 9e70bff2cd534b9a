import Vtt.Executor.Spending
import Vtt.Executor.Trace
import Vtt.Lib.Once

/-!
# Nonces

A transaction has an effect only if it carries the nonce of its sender, and moves that nonce on by
one. Nothing else changes a nonce, so that no nonce of a sender is used twice. On a store there is
an exception: a rollback does not take back what was written of an account that is not cached, and
the nonce of such a sender is moved on twice.
-/

namespace Vtt

open Lib StateDB List AccountState
open UInt64 (zero_le toNat_add toNat_one lt_irrefl)

namespace Executor

open Confined

variable {e : Execution} {address : Address}

/-! ## What keeps a nonce -/

section Nonce

variable {a : Address} {s t : StateDB}

/-- The nonce of an account is the one before. -/
def SameNonce (a : Address) (s t : StateDB) : Prop := t.getNonce a = s.getNonce a

instance (a : Address) : IsPreorder StateDB (SameNonce a) where
  refl _ := rfl
  trans _ _ _ h h' := h'.trans h

theorem sameNonce_of_sameAccounts (h : SameAccounts s t) : SameNonce a s t :=
  congrArg nonce (h.getAccount a)

/-- Another account is set. -/
theorem sameNonce_putAccount_of_ne (h : address ≠ a) (s : StateDB) (state : AccountState) :
    SameNonce a s (s.putAccount address state) :=
  congrArg nonce (getAccount_putAccount_of_ne _ h.symm state)

/-- An account is set with the nonce that it had. -/
theorem sameNonce_putAccount {state : AccountState} (h : state.nonce = s.getNonce address) :
    SameNonce a s (s.putAccount address state) := by
  by_cases heq : address = a
  · subst heq
    unfold SameNonce
    rw [← h, getNonce, getAccount_putAccount_self]
  · exact sameNonce_putAccount_of_ne heq s state

/-- No operation but a new contract changes a nonce. -/
theorem dealing_sameNonce (a : Address) : Dealing (SameNonce a) (fun _ => True) where
  aside _ _ h := sameNonce_of_sameAccounts h.toSameAccounts
  addBalance _ _ := .view_bind fun _ => .okOr_bind fun _ _ => .update (sameNonce_putAccount rfl)
  subBalance _ _ _ := .view_bind fun _ => .okOr_bind fun _ _ => .update (sameNonce_putAccount rfl)
  putOwnership s _ _ _ := sameNonce_of_sameAccounts (sameAccounts_putOwnershipWith s ..)
  putPoolRaw s _ _ := sameNonce_of_sameAccounts (sameAccounts_putPoolRaw s ..)
  setCachedAsset _ _ _ := sameNonce_of_sameAccounts ⟨rfl, fun _ => rfl⟩

theorem getNonce_charge_of_ne {sender : Address} (ha : a ≠ sender) (db : StateDB) (fee : Amount) :
    (db.charge sender fee).getNonce a = db.getNonce a :=
  congrArg nonce (getAccount_charge_of_ne _ _ _ ha)

end Nonce

/-! ## Transactions -/

variable [Crypto] [Wasm] [Environment]

/-- A rollback brings the nonces back: there is no store, or the account of the sender and all
accounts that have a nonce are cached. -/
def Rewinds (db : StateDB) (sender : Address) : Prop :=
  db.storage = none ∨ (db.accounts[sender]?).isSome = true ∧ ∀ a, db.accounts[a]? = none →
    db.getNonce a = 0

/-- What the nonces need for a transaction: they come back in a rollback; the nonce of the sender is
not the last one; and the address of a new contract is not the sender's and has no nonce. -/
structure Sequenced (db : StateDB) (tx : SignedTransaction) : Prop where
  rewinds : Rewinds db tx.sender
  bounded : (db.getNonce tx.sender).toNat + 1 < 2 ^ 64
  contract : ∀ code args, tx.payload.action = .deployContract code args →
    contractAddress tx.sender (db.getNonce tx.sender + 1) ≠ tx.sender ∧
      db.getNonce (contractAddress tx.sender (db.getNonce tx.sender + 1)) = 0

section Transactions

variable {ctx : BlockContext} {tx : SignedTransaction} {db t : StateDB}
  {result : ExecutionResult} {a : Address}
variable {r : Except ExecutionError (List Log)}

/-- An operation keeps the nonce of every account but a new contract's. -/
theorem sameNonce_operation {fee : Amount}
    (ha : ∀ code args, tx.payload.action = .deployContract code args →
      contractAddress tx.sender (db.getNonce tx.sender + 1) ≠ a)
    (h : (operation ctx tx).run (db.charge tx.sender fee) = some (r, t)) :
    SameNonce a (db.charge tx.sender fee) t := by
  have reforms : ∀ ⦃s t⦄, Reforms s t → SameNonce a s t :=
    fun _ _ h => sameNonce_of_sameAccounts h.toSameAccounts
  refine (dealing_sameNonce a).executeAction (fun _ _ _ => sameNonce_putAccount rfl)
    ⟨trivial, fun _ _ _ _ _ _ => trivial, fun _ _ _ h => reforms h.toReforms,
      fun _ _ _ h => reforms h.toReforms, ?_, ?_,
      ?_⟩ (fun _ s _ _ => sameNonce_of_sameAccounts (sameAccounts_putAsset s ..)) h
  · intro _ _ _ _ _ _ _ _ _ _
    exact Moves.at ((dealing_sameNonce a).runAssetAction reforms fun _ _ => trivial) _
  · intro code args u _ haction
    rw [getNonce_charge_self]
    exact sameNonce_putAccount_of_ne (ha code args haction) u _
  · intro _ _ u _ _ _
    exact sameNonce_of_sameAccounts ⟨rfl,
      fun key => ((apart_markSlashingEvidence u ..).beside key).1⟩

/-- A rollback brings the account of the sender back. -/
theorem Rewinds.getAccount_sender (h : Rewinds db tx.sender)
    (hrun : (operation ctx tx).run (db.charge tx.sender (gasFee tx ctx.gasConfig)) = some (r, t)) :
    (t.restore db.snapshot).getAccount tx.sender = db.getAccount tx.sender := by
  rcases h with hmemory | ⟨hcached, -⟩
  · exact getAccount_restored hmemory hrun tx.sender
  · obtain ⟨account, haccount⟩ := Option.isSome_iff_exists.1 hcached
    have hrestored : (t.restore db.snapshot).accounts[tx.sender]? = some account := haccount
    rw [getAccount, getAccount, haccount, hrestored]

/-- A rollback lowers no nonce. -/
theorem Rewinds.getNonce_le (h : Rewinds db tx.sender)
    (hrun : (operation ctx tx).run (db.charge tx.sender (gasFee tx ctx.gasConfig)) = some (r, t))
    (a : Address) :
    db.getNonce a ≤ (t.restore db.snapshot).getNonce a := by
  rcases h with hmemory | ⟨-, hloaded⟩
  · rw [getNonce, getNonce, getAccount_restored hmemory hrun a]
    exact UInt64.le_refl _
  · cases haccount : db.accounts[a]? with
    | none =>
      rw [hloaded a haccount]
      exact zero_le
    | some account =>
      have hrestored : (t.restore db.snapshot).accounts[a]? = some account := haccount
      unfold getNonce getAccount
      rw [haccount, hrestored]
      exact UInt64.le_refl _

/-- A transaction that changes the state carries the nonce of its sender, which is moved on by
one. -/
theorem Outcome.getNonce_sender (h : Outcome ctx tx db result t) (hs : Sequenced db tx) :
    t = db ∨ tx.payload.nonce = db.getNonce tx.sender ∧
      t.getNonce tx.sender = db.getNonce tx.sender + 1 := by
  have hnonce (hadmitted : ¬ Inert ctx db tx) : tx.payload.nonce = db.getNonce tx.sender :=
    not_not.1 fun hne => hadmitted (.inr (.inl hne))
  cases h with
  | inert | excessive => exact .inl rfl
  | short hadmitted => exact .inr ⟨hnonce hadmitted, getNonce_charge_self ..⟩
  | failed hready hrun =>
    refine .inr ⟨hnonce hready.admitted, ?_⟩
    rw [getNonce_charge_self, getNonce, hs.rewinds.getAccount_sender hrun, getNonce]
  | done hready hrun =>
    refine .inr ⟨hnonce hready.admitted, ?_⟩
    have hsame :=
      sameNonce_operation (fun code args haction => (hs.contract code args haction).1) hrun
    exact hsame.trans (getNonce_charge_self ..)

/-- No transaction lowers a nonce. -/
theorem Outcome.getNonce_le (h : Outcome ctx tx db result t) (hs : Sequenced db tx) (a : Address) :
    db.getNonce a ≤ t.getNonce a := by
  by_cases ha : a = tx.sender
  · subst ha
    rcases h.getNonce_sender hs with rfl | ⟨-, hnext⟩
    · exact UInt64.le_refl _
    · have hbound := hs.bounded
      rw [hnext, UInt64.le_iff_toNat_le, toNat_add, toNat_one]
      omega
  cases h with
  | inert | excessive => exact UInt64.le_refl _
  | short =>
    rw [getNonce_charge_of_ne ha]
    exact UInt64.le_refl _
  | failed _ hrun =>
    rw [getNonce_charge_of_ne ha]
    exact hs.rewinds.getNonce_le hrun a
  | done _ hrun =>
    by_cases hcontract : ∃ code args, tx.payload.action = .deployContract code args ∧
        contractAddress tx.sender (db.getNonce tx.sender + 1) = a
    · -- a new contract has the nonce zero, and had it before
      obtain ⟨code, args, haction, rfl⟩ := hcontract
      rw [(hs.contract code args haction).2]
      exact zero_le
    · have hsame :=
        sameNonce_operation (fun code args haction heq => hcontract ⟨code, args, haction, heq⟩) hrun
      rw [hsame.trans (getNonce_charge_of_ne ha _ _)]
      exact UInt64.le_refl _

/-- The nonces of a sender that are used up. -/
def Used (db : StateDB) (key : Address × UInt64) : Prop := key.2 < db.getNonce key.1

/-- A transaction with an effect uses up a nonce that was not used before. -/
theorem Outcome.marksOnce_used (h : Outcome ctx tx db result t) (hs : Sequenced db tx)
    (hne : t ≠ db) :
    MarksOnce Used db t [(tx.sender, tx.payload.nonce)] := by
  obtain ⟨hnonce, hnext⟩ := (h.getNonce_sender hs).resolve_left hne
  refine .of_new ?_ ?_ fun key hkey => UInt64.lt_of_lt_of_le hkey (h.getNonce_le hs key.1)
  · rw [hnonce]
    exact lt_irrefl _
  · have hbound := hs.bounded
    unfold Used
    dsimp only
    rw [hnext, hnonce, UInt64.lt_iff_toNat_lt, toNat_add, toNat_one]
    omega

end Transactions

/-! ## Blocks -/

/-- The arguments of executing the transactions of a block. -/
structure BlockCall where
  ctx : BlockContext
  transactions : List SignedTransaction
  gasLimit : UInt64

/-- The transactions that a call executes: the matured unbonding entries are released first. -/
def BlockCall.executions (call : BlockCall) (db : StateDB) : List Execution :=
  match (Db.processUnbonding call.ctx.blockTimestamp : DbM Empty Amount).run db with
  | some (_, state) => Executor.executions call.ctx call.gasLimit call.transactions 0 state
  | none => []

/-- The transactions of a block are executed; the step says which ones, and between which states. -/
def BlockStep (s : StateDB) (step : BlockCall × List Execution) (t : StateDB) : Prop :=
  ∃ receipts, (executeBlockTransactionsAt step.1.ctx step.1.transactions step.1.gasLimit : DbM
    Empty _).run s = some (.ok receipts, t) ∧ step.2 = step.1.executions s

/-- Every transaction of a block has what the nonces need. -/
def AllSequenced (_ : StateDB) (step : BlockCall × List Execution) : Prop :=
  ∀ e ∈ step.2, Sequenced e.before e.tx

open Classical in
/-- The senders and nonces of the transactions that change the state at all. -/
noncomputable def spent (es : List Execution) : List (Address × UInt64) :=
  (es.filter fun e => e.after ≠ e.before).map fun e => (e.tx.sender, e.tx.payload.nonce)

/-- No nonce decreases; a transaction that changes the state carries the nonce of its sender and
leaves the next one; and no two of them have sender and nonce in common. -/
structure Protected (s t : StateDB) (es : List Execution) : Prop where
  monotone : ∀ a, s.getNonce a ≤ t.getNonce a
  advances : ∀ e ∈ es, (∀ a, e.before.getNonce a ≤ e.after.getNonce a) ∧ (e.after ≠ e.before →
    e.tx.payload.nonce = e.before.getNonce e.tx.sender ∧
      (e.after.getNonce e.tx.sender).toNat = (e.before.getNonce e.tx.sender).toNat + 1)
  once : (spent es).Nodup

section Blocks

variable {ctx : BlockContext} {s t : StateDB} {es : List Execution}

omit [Wasm] [Environment] in
theorem spent_append (es' : List Execution) : spent (es ++ es') = spent es ++ spent es' := by
  simp only [spent, filter_append, map_append]

omit [Wasm] [Environment] in
theorem spent_flatMap {ι : Type} (steps : List (ι × List Execution)) :
    (steps.map fun step => (step.1, spent step.2)).flatMap (·.2) = spent (steps.flatMap (·.2)) := by
  induction steps with
  | nil => rfl
  | cons _ _ ih => rw [map_cons, flatMap_cons, flatMap_cons, spent_append, ih]

theorem marksOnce_spent {result : ExecutionResult} (h : Outcome ctx e.tx e.before result e.after)
    (hs : Sequenced e.before e.tx) : MarksOnce Used e.before e.after (spent [e]) := by
  by_cases hne : e.after = e.before
  · have hnone : spent [e] = [] := by simp [spent, hne]
    rw [hnone, hne]
    exact .of_kept fun _ => id
  · have hone : spent [e] = [(e.tx.sender, e.tx.payload.nonce)] := by simp [spent, hne]
    rw [hone]
    exact h.marksOnce_used hs hne

/-- Executions that follow each other use up every nonce once. -/
theorem Successive.marksOnce_spent (h : Successive s es t)
    (hes : ∀ e ∈ es, Sequenced e.before e.tx ∧ ∃ result, Outcome ctx e.tx e.before result e.after) :
    MarksOnce Used s t (spent es) := by
  induction h with
  | nil => exact .of_kept fun _ => id
  | @cons e _ _ _ ih =>
    obtain ⟨hs, _, houtcome⟩ := hes e mem_cons_self
    rw [← singleton_append, spent_append]
    exact (Executor.marksOnce_spent houtcome hs).append
      (ih fun e' he' => hes e' (mem_cons_of_mem _ he'))

theorem BlockStep.outcome {step : BlockCall × List Execution} (h : BlockStep s step t)
    (he : e ∈ step.2) :
    ∃ result, Outcome step.1.ctx e.tx e.before result e.after := by
  obtain ⟨_, -, hes⟩ := h
  rw [hes, BlockCall.executions] at he
  split at he
  · exact (outcome_of_mem_executions he).2
  · cases he

theorem BlockStep.marksOnce_spent {step : BlockCall × List Execution} (h : BlockStep s step t)
    (hs : AllSequenced s step) : MarksOnce Used s t (spent step.2) := by
  have houtcome := fun e he => And.intro (hs e he) (h.outcome he)
  obtain ⟨_, hrun, hes⟩ := h
  obtain ⟨_, state, hrelease, hrun⟩ := run_bind_ok hrun
  have hexecutions :
      step.2 = Executor.executions step.1.ctx step.1.gasLimit step.1.transactions 0 state := by
    rw [hes, BlockCall.executions, hrelease]
  -- releasing unbonding entries is no transaction
  have hreleased : MarksOnce Used s state [] := .of_kept fun key hkey => by
    have hsame : SameNonce key.1 s state := (dealing_sameNonce key.1).processUnbonding _ hrelease
    unfold Used
    rw [hsame]
    exact hkey
  have hsuccessive := (executions_of_run hrun).1
  rw [← hexecutions] at hsuccessive
  exact hreleased.append (hsuccessive.marksOnce_spent houtcome)

/-- The transactions of a run are executed, each with what the nonces need. -/
theorem outcome_of_run {steps : List (BlockCall × List Execution)}
    (h : Run (Within AllSequenced BlockStep) s steps t) (he : e ∈ steps.flatMap (·.2)) :
    Sequenced e.before e.tx ∧ ∃ ctx result, Outcome ctx e.tx e.before result e.after := by
  induction h with
  | nil => cases he
  | @snoc _ step _ _ _ hlast ih =>
    rw [flatMap_append, flatMap_singleton, mem_append] at he
    rcases he with he | he
    · exact ih he
    · exact ⟨hlast.1 e he, step.1.ctx, hlast.2.outcome he⟩

/-- Over any number of blocks whose transactions have what the nonces need, no nonce decreases or is
used twice. -/
theorem nonces_used_once {steps : List (BlockCall × List Execution)}
    (h : Run (Within AllSequenced BlockStep) s steps t) : Protected s t (steps.flatMap (·.2)) := by
  have hmarks : MarksOnce Used s t (spent (steps.flatMap (·.2))) := by
    rw [← spent_flatMap]
    let marks (s : StateDB) (label : BlockCall × List (Address × UInt64)) (t : StateDB) : Prop :=
      MarksOnce Used s t label.2
    have hrun : Run marks s (steps.map fun step => (step.1, spent step.2)) t :=
      h.relabel _ fun _ _ _ hstep => hstep.2.marksOnce_spent hstep.1
    have hmark : ∀ {s label t}, True → marks s label t → True ∧ MarksOnce Used s t label.2 :=
      fun _ h => ⟨trivial, h⟩
    exact .of_run hmark hrun trivial
  refine ⟨fun a => UInt64.not_lt.1 fun hlt => ?_, ?_, hmarks.nodup⟩
  · exact lt_irrefl _ (hmarks.kept (a, t.getNonce a) hlt)
  · intro _ he
    obtain ⟨hs, _, _, houtcome⟩ := outcome_of_run h he
    refine ⟨houtcome.getNonce_le hs, fun hne => ?_⟩
    obtain ⟨hnonce, hnext⟩ := (houtcome.getNonce_sender hs).resolve_left hne
    refine ⟨hnonce, ?_⟩
    have hbound := hs.bounded
    rw [hnext, toNat_add, toNat_one]
    omega

end Blocks

end Executor

/-! ## On small states -/

namespace Demo

open Executor

/-- What a block of the validator's transactions needs, as far as it can be evaluated. -/
def sequencedCheck (e : Execution) : Bool :=
  decide (e.before.storage.isNone = true) && decide
    ((e.before.getNonce e.tx.sender).toNat + 1 < 2 ^ 64) && match e.tx.payload.action with
    | .deployContract _ _ => false
    | _ => true

theorem sequenced_of_check {e : Execution} (h : sequencedCheck e = true) :
    Sequenced e.before e.tx := by
  simp only [sequencedCheck, Bool.and_eq_true, decide_eq_true_eq] at h
  obtain ⟨⟨hmemory, hbound⟩, haction⟩ := h
  refine ⟨.inl (Option.isNone_iff_eq_none.1 hmemory), hbound, fun code args heq => ?_⟩
  rw [heq] at haction
  cases haction

theorem allSequenced_of_check (call : BlockCall) (db : StateDB)
    (h : (call.executions db).all sequencedCheck = true) :
    AllSequenced db (call, call.executions db) :=
  fun e he => sequenced_of_check (all_eq_true.1 h e he)

/-- A run of one block. -/
theorem exists_blockStep (call : BlockCall) (db : StateDB) (check : StateDB → Bool)
    (h : (match (executeBlockTransactionsAt call.ctx call.transactions call.gasLimit : DbM Empty
      _).run db with
      | some (.ok _, t) => check t
      | _ => false) = true) : ∃ t, BlockStep db (call, call.executions db) t ∧ check t = true := by
  split at h
  · rename_i receipts t hrun
    exact ⟨t, ⟨receipts, hrun, rfl⟩, h⟩
  · cases h

/-- A transfer that is offered twice. -/
def replayed : BlockCall := ⟨context, [transfer, transfer], 1000000⟩

/-- In memory, it is carried out once. -/
theorem replayed_used_once : ∃ steps t, steps.map (·.1) = [replayed] ∧
    Run (Within AllSequenced BlockStep) funded steps t ∧ t.getNonce key.address = 1 ∧
    t.getBalance ⟨7⟩ = .fromVtt 1 ∧ Protected funded t (steps.flatMap (·.2)) := by
  obtain ⟨t, hstep, hcheck⟩ := exists_blockStep replayed funded
    (fun t => decide (t.getNonce key.address = 1) && decide (t.getBalance ⟨7⟩ = .fromVtt 1))
    (by decide +kernel)
  simp only [Bool.and_eq_true, decide_eq_true_eq] at hcheck
  obtain ⟨hnonce, hbalance⟩ := hcheck
  have hsequenced := allSequenced_of_check replayed funded (by decide +kernel)
  have hrun : Run (Within AllSequenced BlockStep) funded [(replayed,
      replayed.executions funded)] t :=
    .single ⟨hsequenced, hstep⟩
  exact ⟨_, t, rfl, hrun, hnonce, hbalance, nonces_used_once hrun⟩

/-- The validator's account on a store. -/
def onStore : Store :=
  Store.empty.put .accounts key.address.asBytes
    (Borsh.serialize { AccountState.default with balance := .fromVtt 10 })

/-- A transfer to another chain, which fails. -/
def refused : BlockCall := ⟨context, [firstTransaction outbound], 1000000⟩

/-- An execution that moves the nonce of its sender on by two. -/
def skipsNonce (e : Execution) : Bool :=
  decide (e.before.getNonce e.tx.sender = 0) && decide (e.after.getNonce e.tx.sender = 2)

theorem not_protected_of_skipsNonce {s t : StateDB} {es : List Execution}
    (h : es.any skipsNonce = true) :
    ¬ Protected s t es := by
  intro hprotected
  obtain ⟨e, he, hskips⟩ := any_eq_true.1 h
  simp only [skipsNonce, Bool.and_eq_true, decide_eq_true_eq] at hskips
  obtain ⟨hbefore, hafter⟩ := hskips
  have hne : e.after ≠ e.before := by
    intro heq
    rw [heq, hbefore] at hafter
    cases hafter
  have hnext := ((hprotected.advances e he).2 hne).2
  rw [hbefore, hafter] at hnext
  cases hnext

/-- What is evaluated of the failing transaction on a store. -/
def reopenedCheck : Bool :=
  (withStorage onStore).any fun s =>
    (match (executeBlockTransactionsAt refused.ctx refused.transactions refused.gasLimit : DbM
        Empty _).run s with
      | some (.ok _, _) => true
      | _ => false) && (refused.executions s).any skipsNonce &&
        (refused.executions s).all fun e =>
        decide ((e.before.getNonce e.tx.sender).toNat + 1 < 2 ^ 64)

/-- On a store that was just opened, the nonce of the sender of a failing transaction is moved on by
two. -/
theorem reopened_nonce_skipped : ∃ s t, withStorage onStore = some s ∧
    Run BlockStep s [(refused, refused.executions s)] t ∧
    (∀ e ∈ refused.executions s, (e.before.getNonce e.tx.sender).toNat + 1 < 2 ^ 64) ∧
    (∀ tx ∈ refused.transactions, ∀ code args, tx.payload.action ≠ .deployContract code args) ∧
    ¬ Protected s t (refused.executions s) := by
  have hcheck : reopenedCheck = true := by decide +kernel
  simp only [reopenedCheck, Option.any_eq_true, Bool.and_eq_true, all_eq_true,
    decide_eq_true_eq] at hcheck
  obtain ⟨s, hopen, ⟨hruns, hskips⟩, hbounds⟩ := hcheck
  obtain ⟨t, hstep, -⟩ := exists_blockStep refused s (fun _ => true) hruns
  refine ⟨s, t, hopen, .single hstep, hbounds, ?_, not_protected_of_skipsNonce hskips⟩
  intro _ htx _ _ haction
  rw [mem_singleton.1 htx] at haction
  cases haction

end Demo

end Vtt
