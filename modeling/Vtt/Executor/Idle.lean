import Vtt.Executor.Outcome

/-!
# Blocks with nothing to do

A transaction that its own checks refuse does nothing. A block of such transactions, at a time when
no unbonding entry has matured, no governance proposal is due and there is no reward, leaves the
state exactly as it is.
-/

namespace Vtt

open Lib Std Confined ExtTreeMap SettleM

/-! ## Unbonding -/

namespace StateDB

/-- No unbonding entry has matured, and no address is kept without an entry. -/
def Unripe (db : StateDB) (now : Timestamp) : Prop :=
  ∀ (address : Address) (entries : List UnbondingEntry),
    db.unbondingEntries[address]? = some entries → entries ≠ [] ∧ ∀ e ∈ entries,
    matured now e = false

namespace Unripe

variable {db : StateDB} {now : Timestamp} (h : db.Unripe now)
include h

theorem dropMatured : db.dropMatured now = db := by
  have kept : (db.unbondingEntries.map fun _ es => es.filter fun e => !matured now e) =
      db.unbondingEntries := by
    refine ext_getElem? fun address => ?_
    rw [getElem?_map]
    cases hentries : db.unbondingEntries[address]? with
    | none => rfl
    | some entries =>
      rw [Option.map_some, List.filter_eq_self.2 fun e he => by
        rw [(h address entries hentries).2 e he, Bool.not_false]]
  rw [StateDB.dropMatured, kept]

theorem dropReleased : db.dropReleased .zero = db := by
  have kept : (db.unbondingEntries.filter fun _ es => !es.isEmpty) = db.unbondingEntries := by
    refine ext_getElem? fun address => ?_
    rw [getElem?_filter']
    cases hentries : db.unbondingEntries[address]? with
    | none => rfl
    | some entries =>
      have nonempty := (h address entries hentries).1
      simp [Option.filter, nonempty]
  rw [StateDB.dropReleased]
  simp only [kept]
  rfl

theorem unbondingReleases : unbondingReleases now db.unbondingEntries.toList =
    some ([], .zero) := by
  have unripe : ∀ p ∈ db.unbondingEntries.toList, ∀ e ∈ p.2, matured now e = false := fun p hp =>
    (h p.1 p.2 (mem_toList_iff_getElem?_eq_some.1 hp)).2
  generalize db.unbondingEntries.toList = entries at unripe
  induction entries with
  | nil => rfl
  | cons p _ ih =>
    have released : releasedAmount now p.2 = some .zero := by
      rw [releasedAmount, List.filter_eq_nil_iff.2 fun e he => by
        rw [unripe p (List.mem_cons_self ..) e he]
        exact Bool.false_ne_true]
      rfl
    obtain ⟨_, _⟩ := p
    rw [StateDB.unbondingReleases, released, ih fun q hq => unripe q (List.mem_cons_of_mem _ hq)]
    rfl

theorem run_processUnbonding {ε : Type} : (Db.processUnbonding now : DbM ε Amount).run db =
    some (.ok .zero, db) := by
  unfold Db.processUnbonding Db.cached
  simp only [run_view_bind, h.unbondingReleases, run_unwrap_some_bind, run_update_bind,
    h.dropMatured]
  have released : (forEach [] fun r : Address × Amount =>
      (Db.addBalance r.1 r.2).ignoreError : DbM ε Unit).run db = some (.ok (), db) := rfl
  rw [run_bind_of_ok released, run_update_bind, h.dropReleased, run_pure]

end Unripe

end StateDB

namespace Executor

variable {ε : Type}

variable {blockNumber : UInt64}

/-! ## Governance -/

/-- No cached proposal is to be finalized or executed at a block. -/
def Undue (db : StateDB) (blockNumber : UInt64) : Prop :=
  ∀ (id : H256) (data : Bytes) (proposal : Proposal), db.governanceProposals[id]? = some data →
    Borsh.tryFromSlice data = some proposal →
    (proposal.status ≠ .active ∨ proposal.isVotingEnded blockNumber = false) ∧
      ∀ executeAfter, proposal.status = .queued executeAfter → blockNumber < executeAfter

/-- A computation that does nothing with any proposal counts none. -/
theorem run_overProposals {db : StateDB} {f : H256 → Bytes → DbM ε Bool}
    (h : ∀ (id : H256) (data : Bytes), db.governanceProposals[id]? = some data →
      (f id data).run db = some (.ok false, db)) :
    (overProposals f).run db = some (.ok 0, db) := by
  have each : ∀ p ∈ db.governanceProposals.toList, (f p.1 p.2).run db = some (.ok false, db) :=
    fun p hp => h p.1 p.2 (mem_toList_iff_getElem?_eq_some.1 hp)
  unfold overProposals Db.governanceProposals Db.cached
  rw [run_view_bind]
  generalize db.governanceProposals.toList = proposals at each
  induction proposals with
  | nil => rfl
  | cons p _ ih =>
    have first : (do
        let counted ← f p.1 p.2
        pure (if counted then (0 : UInt64) + 1 else 0) : DbM ε UInt64).run db =
          some (.ok 0, db) := by
      rw [run_bind_of_ok (each p (List.mem_cons_self ..)), run_pure]
      rfl
    rw [foldEach, run_bind_of_ok first]
    exact ih fun q hq => each q (List.mem_cons_of_mem _ hq)

theorem Undue.run_finalize [Environment] {db : StateDB} (h : Undue db blockNumber)
    (totalStaked : Amount) :
    (finalizeGovernanceProposals blockNumber totalStaked : DbM ε UInt64).run db =
      some (.ok 0, db) := by
  refine run_overProposals fun id data hdata => ?_
  unfold finalizeProposal
  split
  · rfl
  · rename_i proposal hproposal
    have waiting : proposal.status ≠ .active ∨ (!proposal.isVotingEnded blockNumber) = true :=
      (h id data proposal hdata hproposal).1.imp_right fun hopen => by rw [hopen, Bool.not_false]
    rw [if_pos waiting, run_pure]

theorem Undue.run_execute [Environment] {db : StateDB} (h : Undue db blockNumber) :
    (executeQueuedProposals blockNumber : DbM ε UInt64).run db = some (.ok 0, db) := by
  refine run_overProposals fun id data hdata => ?_
  unfold executeQueued
  split
  · rfl
  · rename_i proposal hproposal
    split
    · rename_i executeAfter hqueued
      rw [if_pos ((h id data proposal hdata hproposal).2 executeAfter hqueued), run_pure]
    · rfl

variable [Crypto] [Wasm] [Environment]

/-- A block of inert transactions gives receipts and uses no gas. -/
theorem run_executeTransactions_of_inert {ctx : BlockContext} {txs : List SignedTransaction}
    {db : StateDB} (h : ∀ tx ∈ txs, Inert ctx db tx) (limit totalGas : UInt64)
    (receipts : List TransactionReceipt) :
    ∃ rs, (executeTransactions ctx limit txs receipts totalGas : DbM ε _).run db =
      some (.ok (rs, totalGas), db) := by
  induction txs generalizing receipts with
  | nil => exact ⟨receipts, rfl⟩
  | cons tx _ ih =>
    rw [executeTransactions]
    split
    · exact ⟨receipts, rfl⟩
    · rw [run_bind_of_ok (h tx (List.mem_cons_self ..)).run]
      obtain ⟨rs, hrs⟩ := ih (fun tx' htx' => h tx' (List.mem_cons_of_mem _ htx'))
        (receipts ++ [(failReceipt tx.hash 0).receipt])
      have unused : totalGas + (failReceipt tx.hash 0).gasUsed = totalGas :=
        UInt64.add_zero totalGas
      rw [unused]
      exact ⟨rs, hrs⟩

/-! ## Blocks -/

/-- There is nothing to do in a block: no entry has matured, all transactions are inert, no proposal
is due and the reward is nothing. -/
structure Idle (ctx : BlockContext) (params : ConsensusParams) (txs : List SignedTransaction)
    (totalStaked : Amount) (db : StateDB) : Prop where
  unripe : db.Unripe ctx.blockTimestamp
  inert : ∀ tx ∈ txs, Inert ctx db tx
  undue : Undue db ctx.blockNumber
  unrewarded : (blockReward db.toStateSnapshot totalStaked params.epochLength).raw = 0

namespace Idle

variable {ctx : BlockContext} {params : ConsensusParams} {txs : List SignedTransaction}
  {totalStaked : Amount} {db : StateDB} (h : Idle ctx params txs totalStaked db)
include h

theorem run_transactions (limit : UInt64) :
      ∃ receipts, (executeBlockTransactionsAt ctx txs limit : DbM ε _).run db =
        some (.ok (receipts, 0), db) := by
  obtain ⟨receipts, hrun⟩ := run_executeTransactions_of_inert h.inert limit 0 []
  refine ⟨receipts, ?_⟩
  unfold executeBlockTransactionsAt
  rw [run_bind_of_ok h.unripe.run_processUnbonding, hrun]

omit [Wasm] in
theorem run_settlement (producer : Address) :
    ∃ summary, (applyBlockRewardsAndGovernance ctx.blockNumber 0 ctx.gasConfig producer totalStaked
      params : SettleM ε _).run db = some (.ok summary, db) := by
  have finalized : (lift (finalizeGovernanceProposals ctx.blockNumber totalStaked) :
      SettleM ε UInt64).run db = some (.ok 0, db) := h.undue.run_finalize totalStaked
  have executed : (lift (executeQueuedProposals ctx.blockNumber) : SettleM ε UInt64).run db =
      some (.ok 0, db) := h.undue.run_execute
  have reward : (cached (blockReward · totalStaked params.epochLength) : SettleM ε Amount).run db =
      some (.ok (blockReward db.toStateSnapshot totalStaked params.epochLength), db) := rfl
  have unpaid : ∀ treasury, (payReward producer treasury
      (blockReward db.toStateSnapshot totalStaked params.epochLength) : SettleM ε Unit).run db =
      some (.ok (), db) := by
    intro _
    rw [payReward, h.unrewarded, if_neg (by decide), run_pure]
  have free : (payFees producer ⟨U128.ofU64 0 * ctx.gasConfig.minGasPrice.raw⟩ :
      SettleM ε Unit).run db = some (.ok (), db) := by
    have zero : (U128.ofU64 0 * ctx.gasConfig.minGasPrice.raw : U128) = 0 := BitVec.zero_mul
    rw [payFees, zero, if_neg (by decide), run_pure]
  unfold applyBlockRewardsAndGovernance
  rw [run_bind_of_ok finalized, run_bind_of_ok executed,
    run_bind_of_ok reward, run_bind_of_ok (unpaid _), run_bind_of_ok free,
    run_pure]
  exact ⟨_, rfl⟩

end Idle

end Executor

end Vtt
