import Vtt.Chain.Kept
import Vtt.Chain.Punished
import Vtt.State.Rollback

/-!
# Rejected blocks

A wrong state root rolls the caches and the validator set back. The note of the block stays, and the
store keeps what the rollback does not write again. A header that is refused rolls nothing back,
although the epoch of the block was entered before.
-/

namespace Vtt

open Lib Executor

namespace Chain

variable [Crypto] [Wasm] [Environment]

/-- Executing a block does not give a chain in memory a store. -/
theorem runBlock_memory {c c' : Chain} {block : Block} {staked : Amount}
    {provided : Option (List TransactionReceipt)} {r : Except ChainError (List TransactionReceipt)}
    (h : Kept.memory.Holds c.state) (hrun : (runBlock block provided staked).run c = some (r, c')) :
    c'.state.storage = none := by
  obtain ⟨_, -, ⟨-, rfl⟩ | ⟨-, _, rfl, hexec⟩⟩ := runBlock_ok hrun
  · exact h.1
  · exact (h.run_settle (fun _ _ => trivial) hexec).1

/-! ## The property and its conditions -/

/-- Two chains show the same: all getters of the state, the observations, the validators, the
blocks, the canonical index and the head. -/
structure Unchanged (c c' : Chain) : Prop where
  view : c'.state.view = c.state.view
  blockCommitments : c'.state.blockCommitments = c.state.blockCommitments
  missedSlots : c'.state.missedSlots = c.state.missedSlots
  validatorSet : c'.validatorSet = c.validatorSet
  headers : c'.headers = c.headers
  bodies : c'.bodies = c.bodies
  canonical : c'.canonical = c.canonical
  headHash : c'.headHash = c.headHash

omit [Crypto] [Wasm] [Environment] in
theorem Unchanged.refl (c : Chain) : Unchanged c c := ⟨rfl, rfl, rfl, rfl, rfl, rfl, rfl, rfl⟩

/-- A block passes the checks at the entry and is of an epoch that is not entered yet, and the
validators that are elected for that epoch refuse its header. -/
def RefusedInNewEpoch (c : Chain) (now : UInt64) (block : Block) : Prop :=
  ∃ parent epoch staked e, Entry now block c parent epoch staked ∧ c.validatorSet.epoch < epoch ∧
    c.consensus.verifyHeader block.header parent (c.enterEpoch epoch).validatorSet = some (.error e)

omit [Wasm] [Environment] in
theorem not_refusedInNewEpoch {c : Chain} {block : Block} (now : UInt64)
    (h : c.consensus.epochForBlock block.header.number = some c.validatorSet.epoch) :
    ¬ RefusedInNewEpoch c now block := by
  rintro ⟨_, _, _, _, entry, hlt, -⟩
  rw [Option.some.inj (h.symm.trans entry.epoch_eq)] at hlt
  exact UInt64.lt_irrefl _ hlt

/-- If a block gets to be noted, then it was noted for its slot before, and noting it counts and
takes no missed slot. -/
def NotedBefore (c : Chain) (now : UInt64) (block : Block) : Prop :=
  ∀ parent epoch staked, Admitted now block c parent epoch staked →
    c.state.blockCommitments[block.header.slotKey]? = some block.header.hash ∧
      (c.noted block.header parent epoch).state.missedSlots = c.state.missedSlots

/-- If a block gets to be executed, then it writes to the store only where the rollback writes
again. -/
def UndoneInStore (c : Chain) (now : UInt64) (block : Block) : Prop :=
  ∀ parent epoch staked receipts executed, Admitted now block c parent epoch staked →
    (runBlock block none staked).run (c.noted block.header parent epoch) =
    some (.ok receipts, executed) →
    Undoable c.state.snapshot c.state executed.state

/-! ## Rejections -/

section Cases

variable {c : Chain} {now : UInt64} {block : Block} {parent : BlockHeader} {epoch : Epoch}
  {staked : Amount}

omit [Wasm] [Environment] in
/-- A refused header changes something exactly if it is refused in a new epoch. -/
theorem unverified_unchanged_iff {e : ConsensusError}
    (entry : Entry now block c parent epoch staked) (hunverified :
      c.consensus.verifyHeader block.header parent (c.enterEpoch epoch).validatorSet =
      some (.error e)) :
    Unchanged c (c.enterEpoch epoch) ↔ ¬ RefusedInNewEpoch c now block := by
  rcases UInt64.lt_or_le c.validatorSet.epoch epoch with hlt | hle
  · refine iff_of_false (fun unchanged => ?_)
      (not_not_intro ⟨parent, epoch, staked, e, entry, hlt, hunverified⟩)
    -- the validators were elected again, for another epoch
    have epochs := congrArg ValidatorSet.epoch unchanged.validatorSet
    rw [enterEpoch, if_pos hlt] at epochs
    exact UInt64.ne_of_lt hlt epochs.symm
  · rw [enterEpoch_eq_of_le hle]
    refine iff_of_true (.refl c) ?_
    rintro ⟨_, _, _, _, entry', hlt, -⟩
    rw [← (entry.unique entry').2.1] at hlt
    exact UInt64.not_le.2 hlt hle

variable {receipts : List TransactionReceipt} {executed : Chain}
  (admitted : Admitted now block c parent epoch staked)
  (hrun : (runBlock block none staked).run (c.noted block.header parent epoch) = some (.ok receipts,
    executed))

include hrun

/-- A rollback leaves everything but the store and the observations as it was. -/
theorem unchanged_rolledBack (hview : (executed.state.restore c.state.snapshot).view = c.state.view)
    (hcommitments : executed.state.blockCommitments = c.state.blockCommitments)
    (hmissed : executed.state.missedSlots = c.state.missedSlots) :
    Unchanged c (executed.rolledBack c.state.snapshot c.validatorSet) := by
  have view : (executed.rolledBack c.state.snapshot c.validatorSet).state.view = c.state.view :=
    Eq.trans (StateDB.view_congr rfl rfl) hview
  rw [executed_moved hrun] at view hcommitments hmissed ⊢
  exact ⟨view, hcommitments, hmissed, rfl, rfl, rfl, rfl, rfl⟩

include admitted

/-- The observations after a rollback are those before exactly if the block was noted before. -/
theorem observed_executed_iff : executed.state.blockCommitments = c.state.blockCommitments ∧
    executed.state.missedSlots = c.state.missedSlots ↔ NotedBefore c now block := by
  obtain ⟨hcommitments, hmissed⟩ := observed_runBlock hrun
  rw [hcommitments, hmissed, blockCommitments_noted]
  constructor
  · rintro ⟨hsame, hkept⟩ _ _ _ admitted'
    obtain ⟨rfl, rfl, rfl⟩ := admitted.toEntry.unique admitted'.toEntry
    refine ⟨?_, hkept⟩
    rw [← hsame, Std.ExtTreeMap.getElem?_insert_self]
  · intro noted
    obtain ⟨hnoted, hkept⟩ := noted _ _ _ admitted
    exact ⟨insert_eq_self hnoted, hkept⟩

end Cases

/-- What a rejected block changes. In memory it changes nothing exactly if its header is not refused
in a new epoch and it was noted before, if it is noted at all. With a store these are necessary, and
it is enough in addition that the block only writes what the rollback writes again. -/
theorem rejected_unchanged {c c' : Chain} {now : UInt64} {block : Block} {e : ChainError}
    (h : (importBlock now block).run c = some (.error e, c')) :
    (Unchanged c c' → ¬ RefusedInNewEpoch c now block ∧ NotedBefore c now block) ∧
      (c.state.storage = none → ¬ RefusedInNewEpoch c now block ∧ NotedBefore c now block →
        Unchanged c c') ∧
      (c.state.storage.isSome = true → ¬ RefusedInNewEpoch c now block ∧ UndoneInStore c now block →
        Unchanged c c') := by
  have outcome := importBlockImpl_iff.1 h
  cases outcome with
  | refused hrefused =>
    refine ⟨fun _ => ⟨?_, ?_⟩, fun _ _ => .refl c, fun _ _ => .refl c⟩
    · rintro ⟨_, _, _, _, entry, -⟩
      exact absurd (hrefused.symm.trans entry.checked) nofun
    · intro _ _ _ admitted
      exact absurd (hrefused.symm.trans admitted.checked) nofun
  | unverified entry hunverified =>
    have main := unverified_unchanged_iff entry hunverified
    refine ⟨fun hsame => ⟨main.1 hsame, ?_⟩, fun _ h => main.2 h.1, fun _ h => main.2 h.1⟩
    intro _ _ _ admitted
    obtain ⟨rfl, rfl, rfl⟩ := entry.unique admitted.toEntry
    exact absurd (hunverified.symm.trans admitted.verified) nofun
  | mismatched admitted hrun =>
    have observed := observed_executed_iff admitted hrun
    refine ⟨fun hsame => ⟨?_, observed.1 ⟨hsame.blockCommitments, hsame.missedSlots⟩⟩,
      fun hmemory h => ?_, fun hstored h => ?_⟩
    · rintro ⟨_, _, _, _, entry, -, hunverified⟩
      obtain ⟨rfl, rfl, rfl⟩ := admitted.toEntry.unique entry
      exact absurd (hunverified.symm.trans admitted.verified) nofun
    · -- in memory the snapshot has all that the getters read
      have memory : Kept.memory.Holds c.state := ⟨hmemory, trivial⟩
      have storage := runBlock_memory (memory.noted ..) hrun
      have restored :=
        Frame.restoreStorage (F := Kept.memory.spared.frame) ⟨storage, rfl⟩ c.state.snapshot
      obtain ⟨hcommitments, hmissed⟩ := observed.2 h.2
      exact unchanged_rolledBack hrun (StateDB.view_congr rfl (restored.1.trans hmemory.symm))
        hcommitments hmissed
    · have undoable := h.2 _ _ _ _ _ admitted hrun
      exact unchanged_rolledBack hrun (undoable.rolledBack hstored).view_eq
        undoable.blockCommitments undoable.missedSlots

end Chain

/-! ## On the small chain -/

namespace Demo

open Chain

/-- The columns of a store. -/
def columns : List Column :=
  [.blockHeaders, .blockBodies, .transactions, .receipts, .stateTrie, .contractCode, .chainIndex,
    .crossChainQueue, .accounts, .assets, .ownership, .oracles, .contractStorage, .pools,
    .assetProposals, .miningStates, .chainMeta]

/-- Stores with the same entries are the same. -/
theorem store_ext {a b : Store} (h : ∀ c ∈ columns, (a.column c).toList = (b.column c).toList) :
    a = b := by
  refine congrArg Store.mk (funext fun c => Std.ExtTreeMap.toList_inj.1 (h c ?_))
  cases c with
  | _ => decide

/-- A block without transactions and with a wrong state root. -/
def wrongRoot (parent : BlockHeader) : Block := ⟨headerOn 10 parent 3000 .zero, []⟩

/-- The chain after a block was executed on it, before its root is looked at. -/
def execution (c : Chain) (block : Block) : Option Chain := do
  let staked ← c.validatorSet.totalStake
  let epoch ← c.consensus.epochForBlock block.header.number
  let parent ← (c.checkBlock 0 block).toOption
  match (runBlock block none staked).run (c.noted block.header parent epoch) with
  | some (.ok _, executed) => some executed
  | _ => none

/-- What a block without transactions writes: the accounts of the treasury and of the validator, and
the counter of minted coins. -/
def rewardCells (executed : StateDB) : List (Cell × Bytes) :=
  [(.account .zero, Borsh.serialize (executed.getAccount .zero)),
    (.account key.address, Borsh.serialize (executed.getAccount key.address)),
    (.minted, leBytes 8 executed.totalMintedMilli.toNat)]

/-- These cells are all that a block writes, and a snapshot has them. -/
def writesReward (s t : StateDB) : Bool :=
  (t.storage.any fun store => (s.storage.writeCells (rewardCells t)).any fun written =>
    columns.all fun column => (store.column column).toList = (written.column column).toList) &&
  ((rewardCells t).all fun e => (StateDB.restored s.snapshot e.1).isSome) &&
  t.blockCommitments.toList = s.blockCommitments.toList && t.missedSlots.toList =
    s.missedSlots.toList

theorem undoable_of_writesReward {s t : StateDB} (h : writesReward s t = true) :
    Undoable s.snapshot s t := by
  simp only [writesReward, Bool.and_eq_true, Option.any_eq_true, List.all_eq_true,
    decide_eq_true_eq] at h
  obtain ⟨⟨⟨⟨_, hstore, _, hwritten, hsame⟩, hcells⟩, hcommitments⟩, hmissed⟩ := h
  refine .of_writeCells hcells ?_ (Std.ExtTreeMap.toList_inj.1 hcommitments)
    (Std.ExtTreeMap.toList_inj.1 hmissed)
  rw [hstore, hwritten, store_ext hsame]

/-- On a store, a second block with a wrong root is rejected twice. The second time it was noted
before, and nothing changes. -/
theorem wrongRoot_unchanged : ∃ genesis c₀ header c₁ block e c e' c', StartedFresh genesis c₀ ∧
      importAll 0 c₀ [firstBlock header] = some c₁ ∧
        (importBlock 0 block).run c₁ = some (.error e, c) ∧
      (importBlock 0 block).run c = some (.error e', c') ∧ c.state.storage.isSome = true ∧
      Unchanged c c' := by
  have evaluated : (storedStart.any fun c₀ => c₀.head.any fun header =>
      (importAll 0 c₀ [firstBlock header]).any fun c₁ =>
        ((importBlock 0 (wrongRoot (firstBlock header).header)).run c₁).any fun r => !r.1.isOk &&
          ((importBlock 0 (wrongRoot (firstBlock header).header)).run r.2).any
            fun r' => !r'.1.isOk && r.2.state.storage.isSome &&
            r.2.consensus.epochForBlock (wrongRoot (firstBlock header).header).header.number =
              some r.2.validatorSet.epoch &&
            (execution r.2 (wrongRoot (firstBlock header).header)).any fun executed =>
              writesReward r.2.state executed.state) = true := by decide +kernel
  simp only [Option.any_eq_true, Bool.and_eq_true, decide_eq_true_eq] at evaluated
  obtain ⟨c₀, hstart, header, -, c₁, himport, ⟨r, c⟩, hfirst, herror, ⟨r', c'⟩, hrun,
    ⟨⟨herror', hstored⟩, hepoch⟩, executed, hexecution, hwrites⟩ := evaluated
  obtain ⟨genesis, hgenesis⟩ := storedStart_started hstart
  cases r with
  | ok => cases herror
  | error e =>
    cases r' with
    | ok => cases herror'
    | error e' =>
      refine ⟨genesis, c₀, header, c₁, _, e, c, e', c', hgenesis, himport, hfirst, hrun, hstored,
        (rejected_unchanged hrun).2.2 hstored ⟨not_refusedInNewEpoch 0 hepoch, ?_⟩⟩
      intro _ _ _ _ executed' admitted hrun'
      have hsame : execution c (wrongRoot (firstBlock header).header) = some executed' := by
        simp only [execution, admitted.staked_eq, admitted.epoch_eq, admitted.checked,
          Except.toOption, Option.bind_eq_bind, Option.bind_some, hrun']
      obtain rfl := Option.some.inj (hsame.symm.trans hexecution)
      exact undoable_of_writesReward hwrites

/-- What the rejection of a block by a chain after its genesis shows. -/
theorem exists_rejected {started : Option Chain}
    (hstarted : ∀ c, started = some c → ∃ genesis, StartedFresh genesis c)
    (block : BlockHeader → Block) (check : Chain → Chain → Bool)
      (h : (started.any fun c => c.head.any fun genesis =>
      ((importBlock 0 (block genesis)).run c).any fun r => !r.1.isOk && check c r.2) = true) :
    ∃ genesis c block e c', StartedFresh genesis c ∧
      (importBlock 0 block).run c = some (.error e, c') ∧
      check c c' = true := by
  simp only [Option.any_eq_true, Bool.and_eq_true] at h
  obtain ⟨c, hstart, header, -, ⟨r, c'⟩, hrun, herror, hcheck⟩ := h
  obtain ⟨genesis, hgenesis⟩ := hstarted c hstart
  cases r with
  | ok => cases herror
  | error e => exact ⟨genesis, c, block header, e, c', hgenesis, hrun, hcheck⟩

/-- A block on the genesis that claims the number of a later epoch is rejected, and the validators
are elected for that epoch. On a store, a first block with a wrong root is rejected, and the
treasury keeps its share of the reward. -/
theorem rejected_changed : (∃ genesis c block e c', StartedFresh genesis c ∧
      (importBlock 0 block).run c = some (.error e, c') ∧ ¬ Unchanged c c') ∧
    ∃ genesis c block e c', StartedFresh genesis c ∧
      (importBlock 0 block).run c = some (.error e, c') ∧
      c'.state.getAccount .zero ≠ c.state.getAccount .zero := by
  obtain ⟨genesis, c, block, e, c', h₀, hrun, hcheck⟩ := exists_rejected
    (fun c (h : start 10 = some c) => start_started h)
    (fun g => ⟨{ headerOn 10 g 2000 .zero with number := 10 }, []⟩)
      (fun c c' => c'.validatorSet ≠ c.validatorSet)
    (by decide +kernel)
  obtain ⟨genesis', d, block', e', d', h₀', hrun', hcheck'⟩ :=
    exists_rejected (fun _ => storedStart_started) wrongRoot
      (fun c c' => c'.state.getAccount .zero ≠ c.state.getAccount .zero) (by decide +kernel)
  exact ⟨⟨genesis, c, block, e, c', h₀, hrun,
    fun unchanged => of_decide_eq_true hcheck unchanged.validatorSet⟩, genesis', d, block', e', d',
    h₀', hrun', of_decide_eq_true hcheck'⟩

end Demo

end Vtt
