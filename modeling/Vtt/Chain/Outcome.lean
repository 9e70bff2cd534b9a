import Vtt.Chain.Import

/-!
# What an import can do

The import of a block ends in one of four ways: the checks at the entry refuse it and nothing is
changed; the header does not verify, and the epoch stays entered; the state root is wrong, and the
caches and the validator set are restored; or the block is stored. `ImportOutcome` says so with
everything that was computed on the way, and `importBlockImpl_iff` says that these are the runs of
the import.
-/

namespace Vtt

open Lib Executor Exec Option Std.ExtTreeMap
open UInt64 (not_le not_lt)

namespace Chain

variable [Crypto]

variable {r : Except ChainError (List TransactionReceipt)} {executed : Chain} {header : BlockHeader}

/-! ## The checks at the entry -/

variable {block : Block} {c c' : Chain} {e : ChainError} {epoch : Epoch} {now : UInt64}
  {parent : BlockHeader} {provided : Option (List TransactionReceipt)}
  {receipts : List TransactionReceipt} {staked : Amount}

/-- What the checks at the entry say of a block, given the header of its parent. -/
structure Checked (c : Chain) (now : UInt64) (block : Block) (parent : BlockHeader) : Prop where
  fresh : c.headers[block.header.hash]? = none
  known : c.headers[block.header.parentHash]? = some parent
  final : 0 < c.finalizedBlock → c.finalizedBlock ≤ parent.number
  checkpoint : c.checkpointConflict block.header.number = none
  later : parent.timestamp < block.header.timestamp
  drift : 0 < now → block.header.timestamp ≤ U64.saturatingAdd now maxFutureDriftMs
  root : block.header.transactionsRoot = txRoot block.transactions

theorem checkBlock_ok_iff : c.checkBlock now block = .ok parent ↔ Checked c now block parent := by
  constructor
  · intro h
    unfold checkBlock at h
    dsimp only at h
    split at h
    · cases h
    rename_i hfresh
    split at h
    · cases h
    rename_i hknown
    split at h
    · cases h
    rename_i hfinal
    split at h
    · cases h
    rename_i hcheckpoint
    split at h
    · cases h
    rename_i hlater
    split at h
    · cases h
    rename_i hdrift
    split at h
    · cases h
    rename_i hroot
    cases h
    refine ⟨?_, hknown, ?_, hcheckpoint, not_le.1 hlater, ?_, not_not.1 hroot⟩
    · rw [contains_eq_isSome_getElem?, Bool.not_eq_true] at hfresh
      exact isNone_iff_eq_none.1 (isSome_eq_false_iff.1 hfresh)
    · exact fun hpos => not_lt.1 fun hlt => hfinal ⟨hpos, hlt⟩
    · exact fun hpos => not_lt.1 fun hlt => hdrift ⟨hpos, hlt⟩
  · intro h
    have hfresh : c.headers.contains block.header.hash = false := by
      rw [contains_eq_isSome_getElem?, h.fresh]
      rfl
    have hfinal : ¬ (0 < c.finalizedBlock ∧ parent.number < c.finalizedBlock) :=
      fun hlt => not_lt.2 (h.final hlt.1) hlt.2
    have hdrift : ¬ (0 < now ∧ U64.saturatingAdd now maxFutureDriftMs < block.header.timestamp) :=
      fun hlt => not_lt.2 (h.drift hlt.1) hlt.2
    simp only [checkBlock, hfresh, h.known, hfinal, h.checkpoint, not_le.2 h.later, hdrift,
      h.root, if_false, ne_eq, not_true_eq_false, Bool.false_eq_true]

/-- Errors that are found before a block changes anything: not those of the consensus rules, and not
a wrong state root. -/
def atEntry : ChainError → Bool
  | .consensus _ => false
  | .invalidStateRoot _ _ => false
  | _ => true

omit [Crypto] in
theorem atEntry_of_checkpointConflict {number : BlockNumber}
    (h : c.checkpointConflict number = some e) :
    atEntry e = true := by
  unfold checkpointConflict at h
  repeat' split at h
  all_goals cases h
  rfl

theorem atEntry_of_checkBlock (h : c.checkBlock now block = .error e) : atEntry e = true := by
  unfold checkBlock at h
  dsimp only at h
  repeat' split at h
  all_goals cases h
  all_goals first | rfl | exact atEntry_of_checkpointConflict ‹_›

/-! ## The parts of an import -/

/-- The chain after its epoch was entered and the block was noted. -/
def noted (c : Chain) (header parent : BlockHeader) (epoch : Epoch) : Chain :=
  ((c.enterEpoch epoch).observeBlock header epoch).trackMissedSlots header parent

/-- The chain after a rollback from a wrong state root. -/
def rolledBack (executed : Chain) (snapshot : StateSnapshot) (validatorSet : ValidatorSet) :
    Chain :=
  { executed.computeRoot.2 with
    state := executed.computeRoot.2.state.restore snapshot
    validatorSet }

/-- The chain with another state and another validator set: what an import changes of it before the
block is stored. -/
def moved (c : Chain) (state : StateDB) (validatorSet : ValidatorSet) : Chain :=
  { c with state, validatorSet }

/-- A block passes the checks at the entry: its parent, its epoch and the stake of the
validators. -/
structure Entry (now : UInt64) (block : Block) (c : Chain) (parent : BlockHeader) (epoch : Epoch)
    (staked : Amount) : Prop where
  checked : c.checkBlock now block = .ok parent
  staked_eq : c.validatorSet.totalStake = some staked
  epoch_eq : c.consensus.epochForBlock block.header.number = some epoch

/-- The parent, the epoch and the stake are those of the chain and the block. -/
theorem Entry.unique {parent' : BlockHeader} {epoch' : Epoch} {staked' : Amount}
    (h : Entry now block c parent epoch staked) (h' : Entry now block c parent' epoch' staked') :
    parent = parent' ∧ epoch = epoch' ∧ staked = staked' :=
  ⟨Except.ok.inj (h.checked.symm.trans h'.checked), some.inj (h.epoch_eq.symm.trans h'.epoch_eq),
    some.inj (h.staked_eq.symm.trans h'.staked_eq)⟩

/-- A block passes the checks at the entry and its header verifies against the validators of its
epoch. -/
structure Admitted (now : UInt64) (block : Block) (c : Chain) (parent : BlockHeader) (epoch : Epoch)
    (staked : Amount) : Prop extends Entry now block c parent epoch staked where
  verified : c.consensus.verifyHeader block.header parent (c.enterEpoch epoch).validatorSet =
    some (.ok ())

/-- The end of an import, after the block was executed. -/
theorem run_settle (block : Block) (receipts : List TransactionReceipt) (snapshot : StateSnapshot)
    (vs : ValidatorSet) (c : Chain) :
    (do settleRoot block.header snapshot vs
        act (·.storeBlock block receipts) : Exec Chain ChainError ImportResult).run c =
      if block.header.stateRoot = c.computeRoot.1 then
        some (.ok (c.computeRoot.2.storeBlock block receipts).1,
      (c.computeRoot.2.storeBlock block receipts).2)
        else some (.error (.invalidStateRoot c.computeRoot.1 block.header.stateRoot),
        c.rolledBack snapshot vs) := by
  by_cases h : block.header.stateRoot = c.computeRoot.1
  · have settled : (settleRoot block.header snapshot vs).run c =
        some (.ok (), c.computeRoot.2) := by
      simp only [settleRoot, run_act_bind, h, if_true, run_pure]
    rw [run_bind_of_ok settled, if_pos h, run_act]
  · have settled : (settleRoot block.header snapshot vs).run c =
        some (.error (.invalidStateRoot c.computeRoot.1 block.header.stateRoot),
        c.rolledBack snapshot vs) := by
      simp only [settleRoot, run_act_bind, h, if_false, run_update_bind, run_fail]
      rfl
    rw [run_bind_of_error settled, if_neg h]

omit [Crypto] in
theorem enterEpoch_moved :
    c.enterEpoch epoch = c.moved (c.enterEpoch epoch).state (c.enterEpoch epoch).validatorSet := by
  unfold enterEpoch
  split
  · rfl
  · rfl

omit [Crypto] in
/-- An epoch that is entered already is not entered again. -/
theorem enterEpoch_eq_of_le (h : epoch ≤ c.validatorSet.epoch) : c.enterEpoch epoch = c := by
  rw [enterEpoch, if_neg (not_lt.2 h)]

theorem observeBlock_moved :
    c.observeBlock header epoch = c.moved (c.observeBlock header epoch).state c.validatorSet := by
  unfold observeBlock
  dsimp only
  split
  · rfl
  · rfl

/-- Entering the epoch and noting the block change the state and the validator set only. -/
theorem noted_moved : c.noted header parent epoch =
      c.moved (c.noted header parent epoch).state (c.enterEpoch epoch).validatorSet := by
  unfold noted trackMissedSlots
  rw [observeBlock_moved, enterEpoch_moved]
  rfl

variable [Wasm] [Environment]

/-- The ways an import of a block by a chain ends, with the result and the chain afterwards. -/
inductive ImportOutcome (now : UInt64) (block : Block) (provided : Option (List TransactionReceipt))
    (c : Chain) : Except ChainError ImportResult → Chain → Prop where
  | refused {e : ChainError} : c.checkBlock now block = .error e →
    ImportOutcome now block provided c (.error e) c
  | unverified {parent : BlockHeader} {epoch : Epoch} {staked : Amount} {e : ConsensusError} :
      Entry now block c parent epoch staked →
      c.consensus.verifyHeader block.header parent (c.enterEpoch epoch).validatorSet =
        some (.error e) →
      ImportOutcome now block provided c (.error (.consensus e)) (c.enterEpoch epoch)
  | mismatched {parent : BlockHeader} {epoch : Epoch} {staked : Amount}
      {receipts : List TransactionReceipt} {executed : Chain} :
      Admitted now block c parent epoch staked →
      (runBlock block provided staked).run (c.noted block.header parent epoch) =
        some (.ok receipts, executed) →
      block.header.stateRoot ≠ executed.computeRoot.1 →
      ImportOutcome now block provided c
        (.error (.invalidStateRoot executed.computeRoot.1 block.header.stateRoot))
        (executed.rolledBack c.state.snapshot c.validatorSet)
  | accepted {parent : BlockHeader} {epoch : Epoch} {staked : Amount}
      {receipts : List TransactionReceipt} {executed : Chain} :
      Admitted now block c parent epoch staked →
      (runBlock block provided staked).run (c.noted block.header parent epoch) =
        some (.ok receipts, executed) →
      block.header.stateRoot = executed.computeRoot.1 →
      ImportOutcome now block provided c (.ok (executed.computeRoot.2.storeBlock block receipts).1)
        (executed.computeRoot.2.storeBlock block receipts).2

/-! ## Runs of an import -/

/-- The receipts of a block are those provided, or those of executing it on the state. -/
theorem runBlock_ok (h : (runBlock block provided staked).run c = some (r, c')) :
    ∃ receipts, r = .ok receipts ∧ ((provided = some receipts ∧ c' = c) ∨
      (provided = none ∧ ∃ state, c' = c.withState state ∧
        (executeBlock (c.blockContext block.header) c.consensus.params block staked).run c.state =
          some (.ok receipts, state))) := by
  cases provided with
  | some receipts =>
    obtain ⟨rfl, rfl⟩ := h
    exact ⟨receipts, rfl, .inl ⟨rfl, rfl⟩⟩
  | none =>
    simp only [runBlock, run_view_bind, onStateOf, run_zoom, map_eq_some_iff, Prod.mk.injEq] at h
    obtain ⟨⟨_, state⟩, hrun, rfl, rfl⟩ := h
    obtain ⟨receipts, rfl, hexec⟩ := run_infallible_ok hrun
    exact ⟨receipts, rfl, .inr ⟨rfl, state, rfl, hexec⟩⟩

/-- A block that can be executed on the state gives its receipts. -/
theorem runBlock_of_execute {state : StateDB}
    (h : (executeBlock (c.blockContext block.header) c.consensus.params block staked).run c.state =
      some (.ok receipts, state)) :
    (runBlock block none staked).run c = some (.ok receipts, c.withState state) := by
  simp only [runBlock, run_view_bind, onStateOf, run_zoom]
  rw [run_infallible_of_ok h]
  rfl

/-- An import that gets to the header check. -/
theorem run_importBlockImpl_of_entry (h : Entry now block c parent epoch staked) :
    (importBlockImpl now block provided).run c =
      (c.consensus.verifyHeader block.header parent (c.enterEpoch epoch).validatorSet).bind fun
        | .error e => some (.error (.consensus e), c.enterEpoch epoch)
        | .ok () =>
          (do let receipts ← runBlock block provided staked
              settleRoot block.header c.state.snapshot c.validatorSet
              act (·.storeBlock block receipts) :
            Exec Chain ChainError ImportResult).run (c.noted block.header parent epoch) := by
  simp only [importBlockImpl, run_view_bind, h.checked, run_ofExcept_ok_bind,
    h.staked_eq, run_unwrap_some_bind, h.epoch_eq, run_update_bind]
  cases c.consensus.verifyHeader block.header parent (c.enterEpoch epoch).validatorSet with
  | none => rfl
  | some verified =>
    cases verified with
    | error | ok => rfl

/-- An import that passes all checks of the header. -/
theorem run_importBlockImpl_of_admitted (h : Admitted now block c parent epoch staked)
    (hrun : (runBlock block provided staked).run (c.noted block.header parent epoch) =
      some (.ok receipts, executed)) :
    (importBlockImpl now block provided).run c =
      if block.header.stateRoot = executed.computeRoot.1 then
        some (.ok (executed.computeRoot.2.storeBlock block receipts).1,
          (executed.computeRoot.2.storeBlock block receipts).2)
      else some (.error (.invalidStateRoot executed.computeRoot.1 block.header.stateRoot),
        executed.rolledBack c.state.snapshot c.validatorSet) := by
  rw [run_importBlockImpl_of_entry h.toEntry, h.verified, bind_some]
  rw [run_bind_of_ok hrun, run_settle]

/-- Every run of an import is one of the outcomes. -/
theorem outcome_of_run {r : Except ChainError ImportResult}
    (h : (importBlockImpl now block provided).run c = some (r, c')) :
    ImportOutcome now block provided c r c' := by
  cases hcheck : c.checkBlock now block with
  | error =>
    simp only [importBlockImpl, run_view_bind, hcheck, run_ofExcept_error_bind, some.injEq,
      Prod.mk.injEq] at h
    obtain ⟨rfl, rfl⟩ := h
    exact .refused hcheck
  | ok parent =>
    -- the stake and the epoch are known, or the import aborts
    have hchecked := h
    simp only [importBlockImpl, run_view_bind, hcheck, run_ofExcept_ok_bind] at hchecked
    obtain ⟨staked, hstaked, hchecked⟩ := run_unwrap_bind hchecked
    obtain ⟨epoch, hepoch, -⟩ := run_unwrap_bind hchecked
    have entry : Entry now block c parent epoch staked := ⟨hcheck, hstaked, hepoch⟩
    rw [run_importBlockImpl_of_entry entry] at h
    obtain ⟨verified, hverified, hrest⟩ := bind_eq_some_iff.1 h
    cases verified with
    | error =>
      obtain ⟨rfl, rfl⟩ := hrest
      exact .unverified entry hverified
    | ok =>
      have admitted : Admitted now block c parent epoch staked := ⟨entry, hverified⟩
      dsimp only at hrest
      cases hrun : (runBlock block provided staked).run (c.noted block.header parent epoch) with
      | none => simp [run_bind_of_abort hrun] at hrest
      | some result =>
        obtain ⟨_, _⟩ := result
        obtain ⟨_, rfl, -⟩ := runBlock_ok hrun
        rw [run_bind_of_ok hrun, run_settle] at hrest
        split at hrest
        · rename_i hroot
          cases hrest
          exact .accepted admitted hrun hroot
        · rename_i hroot
          cases hrest
          exact .mismatched admitted hrun hroot

/-- The runs of an import are the outcomes. -/
theorem importBlockImpl_iff {r : Except ChainError ImportResult} :
    (importBlockImpl now block provided).run c = some (r, c') ↔
      ImportOutcome now block provided c r c' := by
  refine ⟨outcome_of_run, fun h => ?_⟩
  cases h with
  | refused hcheck => simp only [importBlockImpl, run_view_bind, hcheck, run_ofExcept_error_bind]
  | unverified entry hverified =>
    rw [run_importBlockImpl_of_entry entry, hverified]
    rfl
  | mismatched admitted hrun hroot =>
    rw [run_importBlockImpl_of_admitted admitted hrun, if_neg hroot]
  | accepted admitted hrun hroot => rw [run_importBlockImpl_of_admitted admitted hrun, if_pos hroot]

/-! ## What an import leaves alone -/

/-- Executing a block changes the state only. -/
theorem runBlock_moved (h : (runBlock block provided staked).run c = some (r, c')) :
    c' = c.moved c'.state c.validatorSet := by
  obtain ⟨_, -, ⟨-, rfl⟩ | ⟨-, _, rfl, -⟩⟩ := runBlock_ok h
  · rfl
  · rfl

/-- Before the block is stored, an import changes the state and the validator set only. -/
theorem executed_moved
    (h : (runBlock block provided staked).run (c.noted block.header parent epoch) =
      some (.ok receipts, executed)) :
    executed = c.moved executed.state (c.enterEpoch epoch).validatorSet := by
  have executed_eq := runBlock_moved h
  rw [noted_moved] at executed_eq
  exact executed_eq

/-- A rejected block leaves the blocks, the canonical index and the head alone. -/
theorem ImportOutcome.error_moved (h : ImportOutcome now block provided c (.error e) c') :
    c' = c.moved c'.state c'.validatorSet := by
  cases h with
  | refused => rfl
  | unverified => exact enterEpoch_moved ..
  | mismatched _ hrun =>
    rw [executed_moved hrun]
    rfl

/-- An accepted block was admitted and is stored. -/
theorem ImportOutcome.ok_stored {r : ImportResult}
    (h : ImportOutcome now block provided c (.ok r) c') :
    ∃ parent epoch staked state, Admitted now block c parent epoch staked ∧
      c' = ((c.moved state (c.enterEpoch epoch).validatorSet).storeBlock block r.receipts).2 := by
  cases h with
  | @accepted parent epoch staked _ executed hadm hrun _ =>
    refine ⟨parent, epoch, staked, executed.computeRoot.2.state, hadm, ?_⟩
    rw [executed_moved hrun]
    rfl

/-! ## What storing a block changes -/

section Store

omit [Wasm] [Environment]

variable (c : Chain) (block : Block) (receipts : List TransactionReceipt)

omit [Crypto] in
theorem persist_moved (write : Storage → Storage) :
    c.persist write = c.moved (c.persist write).state c.validatorSet := by
  unfold persist
  split
  · rfl
  · rfl

omit [Crypto] in
theorem exists_persist_state (write : Storage → Storage) :
    ∃ storage, (c.persist write).state = { c.state with storage } := by
  unfold persist
  split
  · exact ⟨_, rfl⟩
  · exact ⟨_, rfl⟩

/-- Of the state, storing a block changes the store only. -/
theorem exists_storeBlock_state : ∃ storage, (c.storeBlock block receipts).2.state =
    { c.state with storage } := by
  have stored : ∃ storage, (c.persistBlock block receipts).state = { c.state with storage } :=
    exists_persist_state ..
  unfold storeBlock
  dsimp only
  split
  · obtain ⟨storage, heq⟩ := stored
    obtain ⟨storage', heq'⟩ :=
      ((c.persistBlock block receipts).insertBlock block).exists_persist_state _
    exact ⟨storage', heq'.trans (congrArg (fun s : StateDB => { s with storage := storage' }) heq)⟩
  · exact stored

/-- The block wins the fork choice once it is stored. -/
def wins : Bool := (c.insertBlock block).isNewHead block.header

/-- A stored block is among the blocks; the canonical index and the head change if it wins. -/
theorem storeBlock_eq : (c.storeBlock block receipts).2 = { c with
        state := (c.storeBlock block receipts).2.state
        headers := c.headers.insert block.header.hash block.header
        bodies := c.bodies.insert block.header.hash block
        canonical := if c.wins block then c.canonical.insert block.header.number block.header.hash
          else c.canonical
        headHash := if c.wins block then some block.header.hash else c.headHash } := by
  have stored : (c.persistBlock block receipts).insertBlock block =
      (c.insertBlock block).moved (c.persistBlock block receipts).state c.validatorSet := by
    unfold persistBlock
    rw [persist_moved]
    rfl
  have newHead : ((c.persistBlock block receipts).insertBlock block).isNewHead block.header =
      c.wins block := by
    rw [stored]
    rfl
  unfold storeBlock
  dsimp only
  rw [newHead, stored]
  cases c.wins block with
  | true =>
    simp only [if_true, adoptHead]
    rw [persist_moved]
    rfl
  | false => rfl

end Store

end Chain

end Vtt
