import Vtt.Chain.DoubleSign
import Vtt.Chain.Kept
import Vtt.Executor.Idle
import Vtt.Executor.Supply
import Vtt.State.Observation
import Vtt.State.View

/-!
# Failed productions

A producer executes and settles its block on the live state before it imports it. If the import is
refused, nothing of that is taken back: the reward stays minted, whatever the reason of the refusal.
-/

namespace Vtt

open Lib Executor Producer Option Confined StateDB

namespace Chain

/-! ## Productions -/

variable [Crypto] [Wasm] [Environment]

/-- What a production computes before its block is imported. -/
structure Production (c : Chain) (keypair : Keypair) (gasConfig : GasConfig) (now : UInt64)
    (pool : TxPool) (head : BlockHeader) (staked : Amount) (epoch : Epoch) (slot : UInt32)
    (receipts : List TransactionReceipt) (gasUsed : UInt64) (state : StateDB) : Prop where
  staked_eq : c.validatorSet.totalStake = some staked
  epoch_eq : c.consensus.epochForBlock (head.number + 1) = some epoch
  slot_eq : c.consensus.slotForBlock (head.number + 1) = some slot
  run_eq : (produceState ⟨gasConfig, head.number + 1, now, head.chainId⟩ c.consensus.params
    keypair.address (selectFor pool c.state) staked).run c.state =
    some (.ok (receipts, gasUsed), state)

/-- The block of a production. -/
def productionBlock (c : Chain) (keypair : Keypair) (now : UInt64) (pool : TxPool)
    (head : BlockHeader) (epoch : Epoch) (slot : UInt32) (receipts : List TransactionReceipt)
    (gasUsed : UInt64) (state : StateDB) : Block :=
  Draft.block ⟨keypair.address, head, now, epoch, slot, selectFor pool c.state⟩ keypair
    state.flushedTrie.root receipts gasUsed

variable {c c' : Chain} {keypair : Keypair} {gasConfig : GasConfig} {now importNow : UInt64}
  {pool : TxPool} {head : BlockHeader} {staked : Amount} {epoch : Epoch} {slot : UInt32}
  {receipts : List TransactionReceipt}
  {gasUsed : UInt64} {state : StateDB} {e : ChainError}

/-- A production comes to the import of its block by the node with the state after it. -/
theorem Production.run_produceOn
    (p : Production c keypair gasConfig now pool head staked epoch slot receipts gasUsed state) :
    let block := c.productionBlock keypair now pool head epoch slot receipts gasUsed state
    (produceOn keypair gasConfig now importNow pool head).run c =
      (do let imported ← importProducedBlock importNow block receipts
          pure (block, imported) : Exec Chain ChainError (Block × ImportResult)).run
        (c.withState state.flush) := by
  have executed : (onStateOf (produceState ⟨gasConfig, head.number + 1, now, head.chainId⟩
      c.consensus.params keypair.address (selectFor pool c.state) staked).code.infallible :
      Exec Chain ChainError _).run c = some (.ok (receipts, gasUsed), c.withState state) := by
    rw [onStateOf, Exec.run_zoom, Exec.run_infallible_of_ok p.run_eq]
    rfl
  simp only [produceOn, Exec.run_view_bind, p.staked_eq, Exec.run_unwrap_some_bind]
  rw [Exec.run_bind_of_ok executed]
  have hepoch : (c.withState state).computeRoot.2.consensus.epochForBlock (head.number + 1) =
    some epoch := p.epoch_eq
  have hslot : (c.withState state).computeRoot.2.consensus.slotForBlock (head.number + 1) =
    some slot := p.slot_eq
  simp only [Exec.run_act_bind, Exec.run_view_bind, hepoch, hslot, Exec.run_unwrap_some_bind]
  rfl

/-- An attempt to produce in our turn gives what the production gives. -/
theorem run_tryProduceBlock {ε : Type} {outcome : Except ChainError (Block × ImportResult)}
    (hturn : ourTurn c keypair.address = some (some head))
    (h : (produceOn keypair gasConfig now importNow pool head).run c = some (outcome, c')) :
    (tryProduceBlock keypair gasConfig now importNow pool : Exec Chain ε _).run c =
      some (.ok (attemptResult pool c.state outcome c'.state), c') := by
  have attempted : ((produceOn keypair gasConfig now importNow pool head).attempt :
      Exec Chain ε _).run c = some (.ok outcome, c') := by
    rw [Exec.run_attempt, h]
    rfl
  simp only [tryProduceBlock, Exec.run_view_bind, hturn, Exec.run_unwrap_some_bind]
  rw [Exec.run_bind_of_ok attempted, Exec.run_view_bind, Exec.run_pure]

omit [Crypto] [Wasm] [Environment] in
/-- Code on the state that cannot fail, and does not abort, comes to a value and a state. -/
theorem run_onStateOf_bind {ε α β : Type} {x : SettleM Empty α} {f : α → Exec Chain ε β}
    {r : Except ε β × Chain} (h : (onStateOf x.code.infallible >>= f).run c = some r) :
    ∃ a state, x.run c.state = some (.ok a, state) ∧ (f a).run (c.withState state) = some r := by
  rw [Exec.run_bind] at h
  obtain ⟨_, honState, h⟩ := Option.bind_eq_some_iff.1 h
  obtain ⟨⟨_, state⟩, hx, rfl⟩ := Option.map_eq_some_iff.1 honState
  obtain ⟨a, rfl, hrun⟩ := Exec.run_infallible_ok hx
  exact ⟨a, state, hrun, h⟩

/-- An attempt that does not abort computes its block. -/
theorem exists_production_of_run {r : Except ChainError (Block × ImportResult)}
    (h : (produceOn keypair gasConfig now importNow pool head).run c = some (r, c')) :
    ∃ staked epoch slot receipts gasUsed state,
      Production c keypair gasConfig now pool head staked epoch slot receipts gasUsed state := by
  simp only [produceOn, Exec.run_view_bind] at h
  obtain ⟨staked, hstaked, h⟩ := Exec.run_unwrap_bind h
  obtain ⟨result, state, hrun, h⟩ := run_onStateOf_bind h
  simp only [Exec.run_act_bind, Exec.run_view_bind] at h
  obtain ⟨epoch, hepoch, h⟩ := Exec.run_unwrap_bind h
  obtain ⟨slot, hslot, -⟩ := Exec.run_unwrap_bind h
  exact ⟨staked, epoch, slot, result.1, result.2, state, hstaked, hepoch, hslot, hrun⟩

/-- A failed attempt computes its block and then fails to import it. -/
theorem exists_failed_import
    (h : (produceOn keypair gasConfig now importNow pool head).run c = some (.error e, c')) :
    ∃ staked epoch slot receipts gasUsed state,
      Production c keypair gasConfig now pool head staked epoch slot receipts gasUsed state ∧
      ImportOutcome importNow
        (c.productionBlock keypair now pool head epoch slot receipts gasUsed state) (some receipts)
        (c.withState state.flush) (.error e) c' := by
  obtain ⟨staked, epoch, slot, receipts, gasUsed, state, p⟩ := exists_production_of_run h
  refine ⟨staked, epoch, slot, receipts, gasUsed, state, p, outcome_of_run ?_⟩
  rw [p.run_produceOn] at h
  obtain failed | ⟨_, _, -, hlast⟩ := Exec.run_bind_error h
  · exact failed
  · cases hlast

/-- A rejected block leaves the counters as they were when its import began. -/
theorem ImportOutcome.error_minted {block : Block} {provided : Option (List TransactionReceipt)}
    (h : ImportOutcome now block provided c (.error e) c') :
    c'.state.totalMintedMilli = c.state.totalMintedMilli := by
  have kept : (Kept.counters c.state.totalMintedMilli c.state.totalBurnedMilli).Holds c.state :=
    ⟨trivial, rfl, rfl⟩
  cases h with
  | refused => rfl
  | unverified => exact (kept.enterEpoch _).2.1
  | mismatched => rfl

/-- A production mints the reward of its block. -/
theorem Production.minted
    (p : Production c keypair gasConfig now pool head staked epoch slot receipts gasUsed state) :
    state.totalMintedMilli = U64.saturatingAdd c.state.totalMintedMilli
      (rewardMilli c.state.toStateSnapshot staked c.consensus.params.epochLength) := by
  obtain ⟨_, _, htxs, hrest⟩ := run_bind_ok p.run_eq
  obtain ⟨_, _, hsettle, hlast⟩ := run_bind_ok hrest
  cases hlast
  obtain ⟨minted, burned⟩ := DbM.run_counters _ htxs
  rw [minted_of_settlement hsettle, minted, rewardMilli, rewardMilli,
    blockReward_congr minted burned]

/-! ## Attempts without anything to do -/

omit [Wasm] [Environment] in
/-- Where entering its epoch leaves the state as it is, noting a block without a rival only writes
observations. -/
theorem noted_state {header : BlockHeader} (parent : BlockHeader)
    (henter : (c.enterEpoch epoch).state = c.state) (hrival : c.rival header = none) :
      (c.noted header parent epoch).state = c.state.noteBlock header.validator header.epoch
        header.slot header.hash
          (skippedLeaders (c.enterEpoch epoch).validatorSet header parent) := by
  have hentered : (c.enterEpoch epoch).rival header = none := by
    rw [enterEpoch_moved, henter]
    exact hrival
  have hset : ((c.enterEpoch epoch).observeBlock header epoch).validatorSet =
      (c.enterEpoch epoch).validatorSet := by
    rw [observeBlock_moved]
    rfl
  rw [noted, trackMissedSlots, withState_state, hset, observeBlock_state_of_none hentered,
    henter, noteBlock]

/-- It shows nothing if the node makes an attempt on a head: there is nothing to do in the block,
entering its epoch leaves the state as it is, and no other known block was noted for its slot. -/
structure IdleTurn (c : Chain) (keypair : Keypair) (gasConfig : GasConfig) (now : UInt64)
    (pool : TxPool) (head : BlockHeader) : Prop where
  idle : ∀ staked, c.validatorSet.totalStake = some staked →
    Idle ⟨gasConfig, head.number + 1, now, head.chainId⟩ c.consensus.params
    (selectFor pool c.state) staked c.state
  entered : ∀ epoch, c.consensus.epochForBlock (head.number + 1) = some epoch →
    ((c.withState c.state.flush).enterEpoch epoch).state = c.state.flush
  unrivalled : ∀ staked epoch slot receipts gasUsed state,
    Production c keypair gasConfig now pool head staked epoch slot receipts gasUsed state →
    c.rival (c.productionBlock keypair now pool head epoch slot receipts gasUsed state).header =
      none

theorem Production.state_of_idle
    (p : Production c keypair gasConfig now pool head staked epoch slot receipts gasUsed state)
    (h : IdleTurn c keypair gasConfig now pool head) : state = c.state := by
  have idle := h.idle staked p.staked_eq
  obtain ⟨_, htxs⟩ := idle.run_transactions (ε := Empty) blockGasLimit
  obtain ⟨_, hsettle⟩ := idle.run_settlement (ε := Empty) keypair.address
  have hrun := p.run_eq
  unfold produceState at hrun
  rw [run_bind_of_ok ((SettleM.run_lift _ _).trans htxs), run_bind_of_ok hsettle, run_pure] at hrun
  exact (Prod.mk.inj (some.inj hrun)).2.symm

/-- A failed attempt without anything to do shows nothing. -/
theorem Production.view_of_idle
    (p : Production c keypair gasConfig now pool head staked epoch slot receipts gasUsed state)
    (h : IdleTurn c keypair gasConfig now pool head)
    (failed : ImportOutcome importNow
      (c.productionBlock keypair now pool head epoch slot receipts gasUsed state) (some receipts)
      (c.withState state.flush) (.error e) c') : c'.state.view = c.state.view := by
  obtain rfl := p.state_of_idle h
  have unrivalled := h.unrivalled _ _ _ _ _ _ p
  generalize hblock : c.productionBlock keypair now pool head epoch slot receipts gasUsed c.state =
    block at failed unrivalled
  have flushed : c.state.flush.view = c.state.view := view_congr rfl rfl
  have number : block.header.number = head.number + 1 := by rw [← hblock]; rfl
  cases failed with
  | refused => exact flushed
  | unverified entry =>
    rw [h.entered _ (number ▸ entry.epoch_eq)]
    exact flushed
  | @mismatched parent _ _ _ _ admitted hrun hroot =>
    -- the block was built over the root that its import computes
    refine absurd ?_ hroot
    cases hrun
    rw [computeRoot_fst, noted_state parent (h.entered _ (number ▸ admitted.epoch_eq)) unrivalled,
      flushedTrie_noteBlock, withState_state, flushedTrie_flush, ← hblock]
    rfl

/-- A failed attempt to produce returns no block. It shows nothing if there was nothing to do; it
always shows if the block has a reward that the counters can count. -/
theorem failedProduction_view {ε : Type} (hturn : ourTurn c keypair.address = some (some head))
    (hfailed : (produceOn keypair gasConfig now importNow pool head).run c = some (.error e, c')) :
    (tryProduceBlock keypair gasConfig now importNow pool : Exec Chain ε _).run c =
      some (.ok (none, pool), c') ∧
      (IdleTurn c keypair gasConfig now pool head → c'.state.view = c.state.view) ∧
      ∀ staked, c.validatorSet.totalStake = some staked → U64.saturatingAdd c.state.totalMintedMilli
          (rewardMilli c.state.toStateSnapshot staked c.consensus.params.epochLength) ≠
            c.state.totalMintedMilli →
        c'.state.view ≠ c.state.view := by
  obtain ⟨staked, _, _, _, _, state, p, failed⟩ := exists_failed_import hfailed
  refine ⟨run_tryProduceBlock hturn hfailed, fun idle => p.view_of_idle idle failed, ?_⟩
  intro staked' hstaked' hcounted hview
  obtain rfl : staked = staked' := some.inj (p.staked_eq.symm.trans hstaked')
  have minted : c'.state.totalMintedMilli = state.totalMintedMilli := failed.error_minted
  rw [p.minted] at minted
  exact hcounted (minted.symm.trans (congrArg (·.caches.totalMintedMilli) hview))

end Chain

/-! ## On the small chain -/

namespace Demo

open Chain

/-- The chain after its genesis with all supply burned, so that there is no reward. -/
def burnedStart : Option Chain :=
  (start 10).map fun c => c.withState { c.state with totalBurnedMilli := 1000000000000 }

/-- The validator makes an attempt at the time of the genesis, with a transaction that is refused.
The import is refused as well, and the attempt shows nothing. -/
theorem foreignAttempt_unchanged : ∃ c head e c', ourTurn c key.address = some (some head) ∧
      (produceOn key .default 1000 1000 (poolOf foreignTransfer) head).run c = some (.error e, c') ∧
      selectFor (poolOf foreignTransfer) c.state = [foreignTransfer] ∧
      IdleTurn c key .default 1000 (poolOf foreignTransfer) head ∧
        c'.state.view = c.state.view := by
  have evaluated :
      (burnedStart.any fun c => (ourTurn c key.address).any fun turn => turn.any fun head =>
        c.state.unbondingEntries.isEmpty && c.state.governanceProposals.isEmpty &&
          c.state.blockCommitments.isEmpty && selectFor (poolOf foreignTransfer) c.state =
          [foreignTransfer] && head.chainId ≠ ⟨2⟩ &&
        (c.validatorSet.totalStake.all fun staked => (blockReward c.state.toStateSnapshot staked
          c.consensus.params.epochLength).raw = 0) &&
        ((c.consensus.epochForBlock (head.number + 1)).all fun epoch =>
          epoch ≤ c.validatorSet.epoch) &&
        ((produceOn key .default 1000 1000 (poolOf foreignTransfer) head).run c).any fun r =>
          !r.1.isOk) = true := by
    decide +kernel
  simp only [any_eq_true, Bool.and_eq_true, Std.ExtTreeMap.isEmpty_iff,
    decide_eq_true_eq] at evaluated
  obtain ⟨c, -, _, hturn, head, rfl, hrest⟩ := evaluated
  obtain ⟨⟨⟨⟨⟨⟨⟨hunbonding, hproposals⟩, hnoted⟩, hselected⟩, hchain⟩, hreward⟩, hepoch⟩, hrun⟩ :=
    hrest
  have idle : IdleTurn c key .default 1000 (poolOf foreignTransfer) head := by
    refine ⟨fun staked hstaked => ⟨?_, ?_, ?_, ?_⟩, ?_, ?_⟩
    · intro _ _ hentries
      simp [hunbonding] at hentries
    · intro tx htx
      rw [hselected, List.mem_singleton] at htx
      subst htx
      exact .inl (.inl fun heq => hchain heq.symm)
    · intro _ _ _ hdata
      simp [hproposals] at hdata
    · rw [hstaked] at hreward
      exact of_decide_eq_true hreward
    · intro epoch heq
      rw [heq] at hepoch
      exact congrArg (·.state) (enterEpoch_eq_of_le (c := c.withState c.state.flush)
        (of_decide_eq_true hepoch))
    · intro _ _ _ _ _ _ _
      rw [rival, hnoted]
      rfl
  obtain ⟨⟨result, c'⟩, hrun, herror⟩ := hrun
  cases result with
  | error e =>
    exact ⟨c, head, e, c', hturn, hrun, hselected, idle,
      (failedProduction_view (ε := Empty) hturn hrun).2.1 idle⟩
  | ok => cases herror

/-- An attempt with an empty pool on the chain as it is fails as well and mints a reward. -/
theorem emptyAttempt_mints : ∃ genesis c head e c', StartedFresh genesis c ∧
    ourTurn c key.address = some (some head) ∧
      (produceOn key .default 1000 1000 .empty head).run c = some (.error e, c') ∧
      (tryProduceBlock key .default 1000 1000 .empty : Exec Chain Empty _).run c =
        some (.ok (none, .empty), c') ∧
      c'.state.view ≠ c.state.view := by
  have evaluated : ((start 10).any fun c => (ourTurn c key.address).any fun turn =>
      turn.any fun head => ((produceOn key .default 1000 1000 .empty head).run c).any fun r =>
        !r.1.isOk && r.2.state.totalMintedMilli ≠ c.state.totalMintedMilli) = true := by
    decide +kernel
  simp only [any_eq_true, Bool.and_eq_true] at evaluated
  obtain ⟨c, hstart, _, hturn, head, rfl, ⟨result, c'⟩, hrun, herror, hminted⟩ := evaluated
  obtain ⟨genesis, hgenesis⟩ := start_started hstart
  cases result with
  | error e =>
    exact ⟨genesis, c, head, e, c', hgenesis, hturn, hrun, run_tryProduceBlock hturn hrun,
      fun hview => of_decide_eq_true hminted (congrArg (·.caches.totalMintedMilli) hview)⟩
  | ok => cases herror

end Demo

end Vtt
