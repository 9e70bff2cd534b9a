import Vtt.Executor.Atomic
import Vtt.Executor.Booking

/-!
# Whose funds a transaction spends

A transaction debits the balance of its sender. There are three more accounts that may lose balance:
the source of a mining programme whose rewards are claimed, the proposer of a distribution that
holders voted for, and whatever account has the address of a new contract.
-/

namespace Vtt

open Lib Vtt.Flow Storage Dex
open Option (bind_eq_some_iff)

/-- The operations of the exchange. -/
def TransactionAction.isExchange : TransactionAction → Bool
  | .createPool .. | .addLiquidity .. | .removeLiquidity .. | .swap .. | .claimRevenue .. => true
  | _ => false

namespace Executor

open Confined StateDB

variable {address : Address}

/-! ## Balances -/

/-- The balance of an account is not lower than before. -/
def NotLess (address : Address) (s t : StateDB) : Prop :=
  (s.getBalance address).raw.toNat ≤ (t.getBalance address).raw.toNat

instance (address : Address) : IsPreorder StateDB (NotLess address) where
  refl _ := le_refl _
  trans _ _ _ h h' := Nat.le_trans h h'

section Balances

variable {a : Address} {s t : StateDB}

theorem notLess_of_getAccount (h : t.getAccount a = s.getAccount a) : NotLess a s t :=
  le_of_eq (congrArg (fun account : AccountState => account.balance.raw.toNat) h.symm)

theorem notLess_of_sameAccounts (h : SameAccounts s t) : NotLess a s t := notLess_of_getAccount
    (h.getAccount a)

/-- Another account is set. -/
theorem notLess_putAccount (h : address ≠ a) (s : StateDB) (state : AccountState) :
    NotLess a s (s.putAccount address state) :=
  notLess_of_getAccount (getAccount_putAccount_of_ne _ h.symm state)

/-- An account is set with at least the balance that it had. -/
theorem notLess_putAccount_of_le {state : AccountState}
    (h : (s.getBalance address).raw.toNat ≤ state.balance.raw.toNat) :
    NotLess a s (s.putAccount address state) := by
  by_cases heq : address = a
  · subst heq
    unfold NotLess getBalance at *
    rw [getAccount_putAccount_self]
    exact h
  · exact notLess_putAccount heq s state

theorem sameAccounts_putOwnershipWith (s : StateDB) (record : OwnershipRecord)
    (prevTotal newTotal : Amount) :
    SameAccounts s (s.putOwnershipWith record prevTotal newTotal) := by
  refine ⟨rfl, fun key => ?_⟩
  unfold putOwnershipWith
  dsimp only
  split
  · exact (read_write_of_ne _ _ (.inl (by decide))).trans (read_write_of_ne _ _ (.inl (by decide)))
  · exact read_write_of_ne _ _ (.inl (by decide))

theorem sameAccounts_putPoolRaw (s : StateDB) (poolId : H256) (data : Bytes) :
    SameAccounts s (s.putPoolRaw poolId data) :=
  ⟨rfl, fun _ => read_write_of_ne _ _ (.inl (by decide))⟩

theorem sameAccounts_putAsset (s : StateDB) (assetId : H256) (asset : AssetRecord) :
    SameAccounts s (s.putAsset assetId asset) :=
  ⟨rfl, fun _ => read_write_of_ne _ _ (.inl (by decide))⟩

/-- Operations that debit other accounts than this one do not lower its balance. -/
theorem dealing_notLess (a : Address) : Dealing (NotLess a) (· ≠ a) where
  aside _ _ h := notLess_of_sameAccounts h.toSameAccounts
  addBalance _ _ := .view_bind fun s => .okOr_bind fun balance hbalance => .update <|
    notLess_putAccount_of_le (by
      have sum := Amount.toNat_checkedAdd hbalance
      unfold getBalance
      dsimp only
      omega)
  subBalance _ _ hne := .found fun _ _ => .update fun s => notLess_putAccount hne s _
  putOwnership s _ _ _ := notLess_of_sameAccounts (sameAccounts_putOwnershipWith s ..)
  putPoolRaw s _ _ := notLess_of_sameAccounts (sameAccounts_putPoolRaw s ..)
  setCachedAsset _ _ _ := notLess_of_sameAccounts ⟨rfl, fun _ => rfl⟩

theorem restakes_notLess (a : Address) : Routine.Restakes (NotLess a) := fun _ _ _ =>
  notLess_putAccount_of_le (le_refl _)

theorem publishes_notLess (a : Address) : Publishes (NotLess a) := fun s _ _ =>
  notLess_of_sameAccounts (sameAccounts_putAsset s ..)

end Balances

/-! ## Losses -/

section Losses

/-- What holds of the parts of an exchange holds of all its flows. -/
theorem exchange_induction [Crypto] {P : List Flow → Prop} (db : StateDB) {sender : Address}
    {action : TransactionAction} (h : action.isExchange = true) (nil : P [])
    (append : ∀ {x y}, P x → P y → P (x ++ y))
    (paid : ∀ token amount, P (move token sender .zero amount))
    (pays : ∀ token amount, P (move token .zero sender amount))
    (minted : ∀ token amount, P [.credit (token, sender) amount])
    (burnt : ∀ token amount, P [.debit (token, sender) amount .zero]) :
    P (planned db sender action) := by
  have paidIn (token : H256) (amount : Amount) : P (paidIn sender token amount) :=
    paidIn_of nil (paid token amount)
  have paidOut (token : H256) (amount : Amount) : P (paidOut sender token amount) :=
    paidOut_of nil (pays token amount)
  have paidIfAny (token : H256) (amount : Amount) : P (paidIfAny sender token amount) :=
    paidIfAny_of nil (pays token amount)
  have found {α : Type} {o : Option α} {f : α → Option (List Flow)} (h : ∀ a, P ((f a).getD [])) :
      P ((o.bind f).getD []) := by
    cases o with
    | none => exact nil
    | some a => exact h a
  cases action with
  | createPool => exact append (append (paidIn ..) (paidIn ..)) (minted ..)
  | addLiquidity =>
    exact found fun _ => found fun _ => found fun _ =>
      append (append (paidIn ..) (paidIn ..)) (minted ..)
  | removeLiquidity =>
    exact found fun _ => found fun _ => found fun _ =>
      append (append (burnt ..) (paidOut ..)) (paidOut ..)
  | swap => exact found fun _ => found fun _ => found fun _ => append (paidIn ..) (paidOut ..)
  | claimRevenue => exact found fun _ => append (paidIfAny ..) (paidIfAny ..)
  | _ => cases h

/-- The owners that an operation may take tokens from. -/
def losers (sender : Address) (action : TransactionAction) : List Address :=
  if action.isExchange then [sender, .zero] else [sender]

/-- An operation takes tokens from its sender, and the exchange from the zero address too. -/
theorem only_loss_planned [Crypto] (db : StateDB) (sender : Address) (action : TransactionAction) :
    Flow.Only loss (losers sender action) (planned db sender action) := by
  by_cases hexchange : action.isExchange = true
  · rw [losers, if_pos hexchange]
    exact exchange_induction db hexchange .nil .append
      (fun _ _ => (only_loss_move _ _ _ _).mono (by simp))
      (fun _ _ => (only_loss_move _ _ _ _).mono (by simp)) (fun _ _ => only_loss_credit _ _ _)
      fun _ _ => (only_loss_debit _ _ _).mono (by simp)
  rw [losers, if_neg hexchange]
  cases action with
  | createPool | addLiquidity | removeLiquidity | swap | claimRevenue => exact absurd rfl hexchange
  | assetTransfer => exact only_loss_move _ _ _ _
  | createAssetClass => exact only_loss_credit _ _ _
  | claimRedemption => exact only_loss_debit _ _ _
  | bridgeDeposit =>
    dsimp only [planned]
    split
    · exact .nil
    · exact only_loss_credit _ _ _
  | bridgeWithdraw =>
    dsimp only [planned]
    split
    · exact .nil
    · exact only_loss_move _ _ _ _
  | _ => exact .nil

end Losses

/-! ## Transactions -/

/-- Charging a sender touches accounts only. -/
theorem charge_same (db : StateDB) (sender : Address) (fee : Amount) :
    (db.charge sender fee).miningStates = db.miningStates ∧
      (db.charge sender fee).assetProposals = db.assetProposals ∧
      (db.charge sender fee).assets = db.assets :=
  charge_induction _ _ _ ⟨rfl, rfl, rfl⟩ fun _ _ => id

variable [Crypto] [Wasm] [Environment]

/-- The accounts besides the sender that a transaction may debit. -/
inductive MayPay (ctx : BlockContext) (db : StateDB) (tx : SignedTransaction) : Address → Prop where
  | source {poolId : H256} {data : Bytes} {mining : MiningState} :
      tx.payload.action = .claimMiningRewards poolId → db.getMiningStateRaw poolId = some data →
      Borsh.tryFromSlice data = some mining → MayPay ctx db tx mining.config.source
  | proposer {proposalId : H256} {proposal : AssetProposal} {asset : AssetRecord}
      {amount : Amount} : tx.payload.action = .finalizeAssetProposal proposalId →
      db.getAssetProposal proposalId = some proposal →
        proposal.isVotingEnded ctx.blockNumber = true →
      db.getAsset proposal.assetId = some asset → proposal.hasQuorum asset.totalSupply = some true →
      assetProposalPasses proposal = true → proposal.action = .distributeRevenue amount →
      MayPay ctx db tx proposal.proposer
  | contract {code args : Bytes} : tx.payload.action = .deployContract code args →
      MayPay ctx db tx (contractAddress tx.sender (db.getNonce tx.sender + 1))

section Transactions

variable {ctx : BlockContext} {tx : SignedTransaction} {db t : StateDB}
  {result : ExecutionResult} {a : Address}

omit [Wasm] [Environment] in
theorem notLess_charge (ha : a ≠ tx.sender) (db : StateDB) (fee : Amount) :
    NotLess a db (db.charge tx.sender fee) :=
  notLess_of_getAccount (getAccount_charge_of_ne _ _ _ ha)

/-- The operation of a transaction lowers the balances of accounts that may pay only. -/
theorem notLess_operation {result : Except ExecutionError (List Log)} (ha : a ≠ tx.sender)
    (hpay : ¬ MayPay ctx db tx a)
    (h : (operation ctx tx).run (db.charge tx.sender (gasFee tx ctx.gasConfig)) =
      some (result, t)) :
    NotLess a (db.charge tx.sender (gasFee tx ctx.gasConfig)) t := by
  obtain ⟨hmining, hproposals, hassets⟩ := charge_same db tx.sender (gasFee tx ctx.gasConfig)
  have hnonce := getNonce_charge_self db tx.sender (gasFee tx ctx.gasConfig)
  have reforms : ∀ ⦃s t⦄, Reforms s t → NotLess a s t :=
    fun _ _ h => notLess_of_sameAccounts h.toSameAccounts
  refine (dealing_notLess a).executeAction (restakes_notLess a)
    ⟨ha.symm, ?_, fun _ _ _ h => reforms h.toReforms, fun _ _ _ h => reforms h.toReforms, ?_, ?_,
    ?_⟩
    (fun _ => publishes_notLess a) h
  · rintro _ _ _ haction hdata hdecode rfl
    rw [getMiningStateRaw, hmining] at hdata
    exact hpay (.source haction hdata hdecode)
  · intro _ _ _ haction hproposal _ hended hasset hquorum hpasses
    refine Moves.at ((dealing_notLess a).runAssetAction reforms ?_) _
    rintro _ hkind rfl
    rw [getAssetProposal, hproposals] at hproposal
    rw [getAsset, hassets] at hasset
    exact hpay (.proposer haction hproposal hended hasset hquorum hpasses hkind)
  · intro _ _ u _ haction
    refine notLess_putAccount ?_ u _
    rintro rfl
    rw [hnonce] at hpay
    exact hpay (.contract haction)
  · intro _ _ u _ _ _
    exact notLess_of_sameAccounts ⟨rfl, fun key => ((apart_markSlashingEvidence u ..).beside key).1⟩

/-- In memory, a transaction lowers the balances of its sender and of accounts that may pay only. -/
theorem Outcome.notLess (h : Outcome ctx tx db result t) (hmemory : db.storage = none)
    (ha : a ≠ tx.sender) (hpay : ¬ MayPay ctx db tx a) : NotLess a db t := by
  cases h with
  | inert | excessive => exact refl db
  | short => exact notLess_charge ha db _
  | failed hready hrun =>
    rename_i u
    have same : NotLess a db (u.restore db.snapshot) :=
      notLess_of_getAccount (getAccount_restored hmemory hrun a)
    exact IsTrans.trans _ _ _ same (notLess_charge ha _ _)
  | done _ hrun =>
    exact IsTrans.trans _ _ _ (notLess_charge ha db _) (notLess_operation ha hpay hrun)

/-- A transaction lowers the holdings of its sender, and of the zero address if it is one of the
exchange. -/
theorem Outcome.held_le (h : Outcome ctx tx db result t) (hkeyed : db.holdings.Keyed)
    (ha : a ≠ tx.sender) (hzero : tx.payload.action.isExchange = true → a ≠ .zero)
    (assetId : H256) :
    (db.getOwnership assetId a).held ≤ (t.getOwnership assetId a).held := by
  have hlosers : a ∉ losers tx.sender tx.payload.action := by
    unfold losers
    split
    · rename_i hexchange
      simp [ha, hzero hexchange]
    · simp [ha]
  have losses : Flow.Only loss (losers tx.sender tx.payload.action)
      (if result.receipt.success then planned db tx.sender tx.payload.action else []) := by
    split
    · exact only_loss_planned _ _ _
    · exact .nil
  have sum := held_of_runAll (h.flows hkeyed) (assetId, a)
  have none_lost := losses.sum_eq_zero (k := (assetId, a)) hlosers
  change db.holdings.held (assetId, a) ≤ t.holdings.held (assetId, a)
  omega

/-- In memory, a transaction takes from the account of its sender and from those that may pay, and
the holdings of its sender and, on the exchange, of the zero address. -/
theorem others_keep_their_funds {ε : Type} (hdb : db.InMemory)
    (h : (executeTransactionAt ctx tx : DbM ε ExecutionResult).run db = some (.ok result, t))
    (a : Address) (ha : a ≠ tx.sender) :
    (¬ MayPay ctx db tx a → (db.getBalance a).raw.toNat ≤ (t.getBalance a).raw.toNat) ∧
      ((tx.payload.action.isExchange = true → a ≠ .zero) →
        ∀ assetId, (db.getOwnership assetId a).held ≤ (t.getOwnership assetId a).held) := by
  have outcome := outcome_of_executed h
  exact ⟨outcome.notLess hdb.storage ha,
    fun hzero assetId => outcome.held_le hdb.keyed ha hzero assetId⟩

end Transactions

end Executor

namespace Demo

open Executor

/-- The state in which the validator has ten tokens, and another account thirty units of an
asset. -/
def endowed : StateDB :=
  let record := { OwnershipRecord.new ⟨5⟩ ⟨7⟩ with available := ⟨30⟩ }
  { funded with ownership := funded.ownership.insert (⟨5⟩, ⟨7⟩) record }

/-- The recipient of a transfer does not pay for it, and keeps the units. -/
theorem others_keep_their_funds_of_transfer :
    ∃ result t, (executeTransactionAt context transfer : DbM Empty _).run endowed =
      some (.ok result, t) ∧
      result.receipt.success = true ∧ (endowed.getBalance ⟨7⟩).raw.toNat ≤
        (t.getBalance ⟨7⟩).raw.toNat ∧
      (endowed.getOwnership ⟨5⟩ ⟨7⟩).held = 30 ∧
      ∀ assetId, (endowed.getOwnership assetId ⟨7⟩).held ≤ (t.getOwnership assetId ⟨7⟩).held := by
  obtain ⟨result, t, run, success⟩ := exists_executed context transfer endowed
    (fun result _ => result.receipt.success) (by decide +kernel)
  have memory : endowed.InMemory := ⟨rfl, Holdings.keyed_empty.insert rfl⟩
  have kept := others_keep_their_funds memory run ⟨7⟩ (by decide +kernel)
  refine ⟨result, t, run, success, kept.1 fun hpay => ?_, by
    decide +kernel, kept.2 fun h => by cases h⟩
  generalize (⟨7⟩ : Address) = payer at hpay
  cases hpay with
  | source haction => cases haction
  | proposer haction => cases haction
  | contract haction => cases haction

end Demo

end Vtt
