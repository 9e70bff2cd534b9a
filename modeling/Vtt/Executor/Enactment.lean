import Vtt.Executor.Voting

/-!
# From a proposal to its action

At the end of a block the proposals whose vote is over are queued or rejected, and the actions of
those whose delay is over are run. A proposal goes through this once and in order. The block from
which on an action may be run is computed with a 64-bit addition, so that a delay that is too long
for it is no delay at all.
-/

namespace Vtt

open Lib Std List Environment StateDB
open Option (some.inj)

namespace Executor

open Confined StateDB

variable {e : H256 × Proposal} {status : ProposalStatus}

section EndOfBlock

variable {ε : Type} {s t : StateDB} {n : UInt64}

/-! ## Passes over all proposals -/

variable {data : Bytes} {id : H256}

/-- Proposals are cached under different ids. -/
theorem nodup_ids (s : StateDB) : (s.governanceProposals.toList.map Prod.fst).Nodup := by
  rw [List.Nodup, pairwise_map]
  refine ExtTreeMap.distinct_keys_toList.imp fun {a b} hne heq => hne ?_
  rw [heq]
  exact ReflOrd.compare_self

/-- A cached proposal is on record. -/
theorem owned_of_mem (h : (id, data) ∈ s.governanceProposals.toList) :
    s.getGovernanceProposalOwned id = some data := by
  unfold getGovernanceProposalOwned
  rw [show s.governanceProposals[id]? =
    some data from ExtTreeMap.mem_toList_iff_getElem?_eq_some.1 h]

/-- A visit to a proposal leaves the records legible and the other ones alone. -/
structure Visit (id : H256) (s t : StateDB) : Prop where
  legible : Legible t
  others : ∀ id', id' ≠ id → t.getGovernanceProposalOwned id' = s.getGovernanceProposalOwned id'

theorem Visit.refl (id : H256) (hs : Legible s) : Visit id s s := ⟨hs, fun _ _ => rfl⟩

/-- What a pass that visits every cached proposal does to the records, if a visit concerns one
record only. -/
theorem recorded_of_overProposals {f : H256 → Bytes → DbM ε Bool}
    {Q : Option Proposal → Option Proposal → Prop}
    (hf : ∀ ⦃s id data b t⦄, Legible s → s.getGovernanceProposalOwned id = some data →
      (f id data).run s = some (.ok b, t) → Visit id s t ∧ Q (s.recorded id) (t.recorded id))
    {count : UInt64} (hs : Legible s) (h : (overProposals f).run s = some (.ok count, t)) :
    Legible t ∧ ∀ id, (id ∈ s.governanceProposals.toList.map Prod.fst →
      Q (s.recorded id) (t.recorded id)) ∧
      (id ∉ s.governanceProposals.toList.map Prod.fst → t.recorded id = s.recorded id) := by
  -- the entries that are left are still on record, under different ids
  have fold : ∀ (entries : List (H256 × Bytes)) (start : UInt64) (u : StateDB), Legible u →
      (entries.map Prod.fst).Nodup → (∀ e ∈ entries, u.getGovernanceProposalOwned e.1 = some e.2) →
      (Confined.foldEach entries start fun count p => do
        let counted ← f p.1 p.2
        pure (if counted then count + 1 else count)).run u = some (.ok count, t) →
      Legible t ∧ ∀ id, (id ∈ entries.map Prod.fst → Q (u.recorded id) (t.recorded id)) ∧
        (id ∉ entries.map Prod.fst → t.recorded id = u.recorded id) := by
    intro entries
    induction entries with
    | nil =>
      intro start u hu _ _ hrun
      obtain ⟨-, rfl⟩ := ok_of_pure hrun
      exact ⟨hu, fun id => ⟨nofun, fun _ => rfl⟩⟩
    | cons e rest ih =>
      intro _ u hu hnodup howned hrun
      obtain ⟨hfirst, hrest⟩ := nodup_cons.1 hnodup
      obtain ⟨_, u₂, hvisit, hrun⟩ := run_bind_ok hrun
      obtain ⟨_, hone, -⟩ := ok_of_last hvisit
      obtain ⟨visit, turned⟩ := hf hu (howned e (mem_cons_self ..)) hone
      have owned' : ∀ e' ∈ rest, u₂.getGovernanceProposalOwned e'.1 = some e'.2 := by
        intro e' he'
        rw [visit.others e'.1 fun heq => hfirst (heq ▸ mem_map_of_mem he')]
        exact howned e' (mem_cons_of_mem _ he')
      obtain ⟨hlast, later⟩ := ih _ u₂ visit.legible hrest owned' hrun
      refine ⟨hlast, fun id => ?_⟩
      by_cases hid : id = e.1
      · subst hid
        rw [(later e.1).2 hfirst]
        exact ⟨fun _ => turned, fun hmem => absurd (mem_cons_self ..) hmem⟩
      · have same : u₂.recorded id = u.recorded id := by
          unfold recorded
          rw [visit.others id hid]
        rw [← same]
        refine ⟨fun hmem => (later id).1 ?_,
          fun hmem => (later id).2 fun h => hmem (mem_cons_of_mem _ h)⟩
        exact (mem_cons.1 hmem).resolve_left hid
  exact fold _ 0 s hs (nodup_ids s) (fun e he => owned_of_mem he) h

/-- A proposal on record gets another status. -/
theorem recorded_storeStatus {p : Proposal} {x : Unit} (hs : Legible s)
    (hp : s.recorded id = some p)
    (h : (storeStatus id p status : DbM ε Unit).run s = some (.ok x, t)) :
    Visit id s t ∧ t.recorded id = some { p with status } := by
  cases h
  have fits := Proposal.fits_status (hs id p hp) status
  refine ⟨⟨?_, ?_⟩, ?_⟩
  · intro id' p' hp'
    rw [recorded_putGovernanceProposal _ _ _ fits] at hp'
    split at hp'
    · exact some.inj hp' ▸ fits
    · exact hs id' p' hp'
  · intro _ hne
    rw [owned_putGovernanceProposal, if_neg hne.symm]
  · rw [recorded_putGovernanceProposal _ _ _ fits, if_pos rfl]

theorem recorded_of_owned (h : s.getGovernanceProposalOwned id = some data) :
    s.recorded id = Borsh.tryFromSlice data := by
  unfold recorded
  rw [h]
  rfl

variable [Environment]

/-- A visit at the end of the vote. -/
theorem finalizeProposal_visit {staked : Amount} {b : Bool} (hs : Legible s)
    (howned : s.getGovernanceProposalOwned id = some data)
    (h : (finalizeProposal n staked id data : DbM ε Bool).run s = some (.ok b, t)) :
    Visit id s t ∧ Turn n (s.recorded id) (t.recorded id) := by
  have nothing : Visit id s s ∧ Turn n (s.recorded id) (s.recorded id) := ⟨.refl id hs, .same _⟩
  have recorded := recorded_of_owned howned
  unfold finalizeProposal at h
  split at h
  · obtain ⟨-, rfl⟩ := ok_of_pure h
    exact nothing
  rename_i hp
  rw [hp] at recorded
  split at h
  · obtain ⟨-, rfl⟩ := ok_of_pure h
    exact nothing
  rename_i hopen
  rw [not_or, not_not, Bool.not_eq_true', Bool.not_eq_false] at hopen
  obtain ⟨_, hq, h⟩ := ok_of_unwrap h
  split at h
  · rename_i hpasses
    obtain ⟨rfl, hthreshold⟩ := Bool.and_eq_true_iff.1 hpasses
    obtain ⟨_, hstore, -⟩ := ok_of_last h
    obtain ⟨visit, after⟩ := recorded_storeStatus hs recorded hstore
    rw [recorded, after]
    exact ⟨visit, .queued hopen.1 hopen.2 hq hthreshold⟩
  · obtain ⟨_, hstore, -⟩ := ok_of_last h
    obtain ⟨visit, after⟩ := recorded_storeStatus hs recorded hstore
    rw [recorded, after]
    exact ⟨visit, .rejected hopen.1 hopen.2⟩

/-! ## The actions that are run -/

/-- A cached proposal, if it is queued and its delay is over. -/
def dueEntry (n : UInt64) (e : H256 × Bytes) : Option (H256 × Proposal) :=
  match (Borsh.tryFromSlice e.2 : Option Proposal) with
  | none => none
  | some p =>
    match p.status with
    | .queued executeAfter => if n < executeAfter then none else some (e.1, p)
    | _ => none

/-- The cached proposals whose delay is over. -/
def due (n : UInt64) (entries : List (H256 × Bytes)) : List (H256 × Proposal) :=
  entries.filterMap (dueEntry n)

/-- Run the actions of proposals in turn, and store after each one that it was executed. -/
def enactAll (n : UInt64) (proposals : List (H256 × Proposal)) : DbM ε UInt64 :=
  Confined.foldEach proposals 0 fun count e => do
    runProposal e.2 n
    storeStatus e.1 e.2 .executed
    pure (count + 1)

omit [Environment] in
theorem dueEntry_eq_some_iff {entry : H256 × Bytes} : dueEntry n entry = some e ↔ e.1 = entry.1 ∧
    Borsh.tryFromSlice entry.2 = some e.2 ∧ ∃ executeAfter, e.2.status = .queued executeAfter ∧
      executeAfter ≤ n := by
  constructor
  · intro h
    unfold dueEntry at h
    split at h
    · cases h
    rename_i hp
    split at h
    · rename_i executeAfter hstatus
      split at h
      · cases h
      · rename_i hdue
        cases h
        exact ⟨rfl, hp, executeAfter, hstatus, UInt64.not_lt.1 hdue⟩
    · cases h
  · rintro ⟨hid, hp, _, hstatus, hle⟩
    simp only [dueEntry, hp, hstatus, UInt64.not_lt.2 hle, if_false, ← hid]

/-- A proposal that is due is run, and then its status is stored. -/
theorem executeQueued_of_due {id : H256} {data : Bytes} (h : dueEntry n (id, data) = some e) :
    (executeQueued n id data : DbM ε Bool) = (do
      runProposal e.2 n
      storeStatus e.1 e.2 .executed
      pure true) := by
  obtain ⟨hid, hp, _, hstatus, hle⟩ := dueEntry_eq_some_iff.1 h
  simp only [executeQueued, hp, hstatus, UInt64.not_lt.2 hle, if_false, hid]

/-- Nothing happens to other ones. -/
theorem executeQueued_of_not_due {id : H256} {data : Bytes} (h : dueEntry n (id, data) = none) :
    (executeQueued n id data : DbM ε Bool) = pure false := by
  unfold executeQueued
  split
  · rfl
  rename_i p hp
  split
  · rename_i executeAfter hstatus
    split
    · rfl
    · rename_i hdue
      have due : dueEntry n (id, data) = some (id, p) :=
        dueEntry_eq_some_iff.2 ⟨rfl, hp, executeAfter, hstatus, UInt64.not_lt.1 hdue⟩
      cases h.symm.trans due
  · rfl

/-- A pass over cached proposals is one over those that are due. -/
theorem foldEach_executeQueued (n : UInt64) (entries : List (H256 × Bytes)) (start : UInt64) :
    (Confined.foldEach entries start fun count p => do
      let counted ← (executeQueued n p.1 p.2 : DbM ε Bool)
      pure (if counted then count + 1 else count)) =
    (Confined.foldEach (due n entries) start fun count e => do
      runProposal e.2 n
      storeStatus e.1 e.2 .executed
      pure (count + 1)) := by
  induction entries generalizing start with
  | nil => rfl
  | cons entry rest ih =>
    cases hdue : dueEntry n entry with
    | none =>
      rw [due, filterMap_cons_none hdue, Confined.foldEach, executeQueued_of_not_due hdue]
      exact ih start
    | some e =>
      rw [due, filterMap_cons_some hdue, Confined.foldEach, Confined.foldEach,
        executeQueued_of_due hdue]
      simp only [Confined.bind_bind, Confined.pure_bind, if_true, ih]
      rfl

/-- The second pass runs the actions of the proposals that are due, and nothing else. -/
theorem run_executeQueuedProposals (n : UInt64) (s : StateDB) :
    (executeQueuedProposals n : DbM ε UInt64).run s =
      (enactAll n (due n s.governanceProposals.toList)).run s := by
  rw [enactAll, ← foldEach_executeQueued]
  rfl

/-- A proposal whose delay is over is executed. -/
def Enacted (n : UInt64) (r r' : Option Proposal) : Prop :=
  ∀ p executeAfter, r = some p → p.status = .queued executeAfter → executeAfter ≤ n →
    ∃ p', r' = some p' ∧ p'.status = .executed

/-- A visit at the end of the delay. -/
theorem executeQueued_visit {b : Bool} (hs : Legible s)
    (howned : s.getGovernanceProposalOwned id = some data)
    (h : (executeQueued n id data : DbM ε Bool).run s = some (.ok b, t)) :
    Visit id s t ∧ Turn n (s.recorded id) (t.recorded id) ∧
      Enacted n (s.recorded id) (t.recorded id) := by
  have recorded := recorded_of_owned howned
  cases hdue : dueEntry n (id, data) with
  | none =>
    rw [executeQueued_of_not_due hdue] at h
    obtain ⟨-, rfl⟩ := ok_of_pure h
    refine ⟨.refl id hs, .same _, fun p executeAfter hp hqueued hle => ?_⟩
    have due : dueEntry n (id, data) = some (id, p) :=
      dueEntry_eq_some_iff.2 ⟨rfl, recorded.symm.trans hp, executeAfter, hqueued, hle⟩
    cases hdue.symm.trans due
  | some e =>
    rw [executeQueued_of_due hdue] at h
    obtain ⟨hid, hp, _, hstatus, hle⟩ := dueEntry_eq_some_iff.1 hdue
    obtain rfl : e.1 = id := hid
    rw [show Borsh.tryFromSlice data = some e.2 from hp] at recorded
    obtain ⟨_, u, haction, h⟩ := run_bind_ok h
    obtain ⟨_, hstore, -⟩ := ok_of_last h
    have same : SameOwned s u := (dealing_sameRecords.runProposal (fun _ => trivial) haction).owned
    have legible : Legible u := fun id' p' hp' => hs id' p' (same.recorded id' ▸ hp')
    obtain ⟨visit, after⟩ :=
      recorded_storeStatus legible ((same.recorded e.1).trans recorded) hstore
    rw [recorded, after]
    exact ⟨⟨visit.legible, fun id' hne => (visit.others id' hne).trans (same id')⟩,
      .executed hstatus hle, fun _ _ _ _ _ => ⟨_, rfl, rfl⟩⟩

end EndOfBlock

/-! ## Runs -/

/-- What happens to proposals: transactions, and the two passes at the end of a block. -/
inductive GovernanceEvent where
  | transaction (ctx : BlockContext) (tx : SignedTransaction)
  | finalize (currentBlock : UInt64) (totalStaked : Amount)
  | execute (currentBlock : UInt64)

namespace GovernanceEvent

/-- The number of the block in which it happens. -/
def number : GovernanceEvent → UInt64
  | transaction ctx _ => ctx.blockNumber
  | finalize n _ => n
  | execute n => n

variable [Crypto] [Wasm] [Environment]

/-- A state and the actions that were run, each with the number of the block. -/
abbrev History := StateDB × List (H256 × UInt64)

/-- An event leads from one state to another. The second pass runs the actions of the proposals that
are due. -/
def Step (s : History) (event : GovernanceEvent) (t : History) : Prop :=
  match event with
  | transaction ctx tx =>
    (∃ result, (executeTransactionAt ctx tx : DbM Empty ExecutionResult).run s.1 = some (.ok result,
      t.1)) ∧ t.2 = s.2
  | finalize n totalStaked =>
    (∃ count, (finalizeGovernanceProposals n totalStaked : DbM Empty UInt64).run s.1 =
      some (.ok count, t.1)) ∧ t.2 = s.2
  | execute n =>
    (∃ count, (executeQueuedProposals n : DbM Empty UInt64).run s.1 = some (.ok count, t.1)) ∧
      t.2 = s.2 ++ (due n s.1.governanceProposals.toList).map fun e => (e.1, n)

/-- The state after an event, if it is reached. -/
def advance (event : GovernanceEvent) (s : History) : Option History :=
  match event with
  | transaction ctx tx =>
    match (executeTransactionAt ctx tx : DbM Empty ExecutionResult).run s.1 with
    | some (.ok _, t) => some (t, s.2)
    | _ => none
  | finalize n totalStaked =>
    match (finalizeGovernanceProposals n totalStaked : DbM Empty UInt64).run s.1 with
    | some (.ok _, t) => some (t, s.2)
    | _ => none
  | execute n =>
    match (executeQueuedProposals n : DbM Empty UInt64).run s.1 with
    | some (.ok _, t) =>
      some (t, s.2 ++ (due n s.1.governanceProposals.toList).map fun e => (e.1, n))
    | _ => none

theorem step_of_advance {event : GovernanceEvent} {s t : History} (h : event.advance s = some t) :
    event.Step s t := by
  cases event with
  | transaction | finalize | execute =>
    unfold advance at h
    dsimp only at h
    split at h
    · rename_i hrun
      cases h
      exact ⟨⟨_, hrun⟩, rfl⟩
    · cases h

/-- What is taken for granted of an event. -/
def Orderly (s : History) : GovernanceEvent → Prop
  | transaction ctx tx => Executor.Orderly ctx s.1 tx
  | _ => True

/-- The condition on an event: the delay from its block on ends at a number that fits in 64 bits. -/
def Delays (event : GovernanceEvent) : Prop :=
  event.number.toNat + Environment.executionDelayBlocks.toNat < 2 ^ 64

instance (event : GovernanceEvent) : Decidable event.Delays := inferInstanceAs (Decidable (_ < _))

/-- The steps by events that are as they should be and whose delay fits. -/
abbrev FairStep : History → GovernanceEvent → History → Prop :=
  Within (fun s event => event.Orderly s ∧ event.Delays) fun s event t => event.Step s t

end GovernanceEvent

/-- A proposal moves on from active to queued or rejected, and from queued to executed. -/
inductive MovesOn : ProposalStatus → ProposalStatus → Prop where
  | stay (status : ProposalStatus) : MovesOn status status
  | queued (executeAfter : UInt64) : MovesOn .active (.queued executeAfter)
  | rejected : MovesOn .active .rejected
  | executed (executeAfter : UInt64) : MovesOn (.queued executeAfter) .executed

theorem MovesOn.of_executed (h : MovesOn .executed status) : status = .executed := by
  cases h
  rfl

section Runs

variable [Environment]

/-- What holds of every proposal on record: nobody is counted twice, and a queued one has the votes
and waits for the whole delay. -/
structure Sound (p : Proposal) : Prop where
  fits : Borsh.Fits p
  voters : p.voters.Nodup
  queued : ∀ executeAfter, p.status = .queued executeAfter →
    p.votingEnd.toNat + Environment.executionDelayBlocks.toNat ≤ executeAfter.toNat ∧
      (∃ staked, p.hasQuorum staked = some true) ∧ p.passesThreshold = true

variable {n : UInt64} {r : Option Proposal} {p p' : Proposal}

/-- A proposal stays on record with its terms. -/
theorem Turn.keeps (h : Turn n (some p) r) : ∃ p', r = some p' ∧ p'.terms = p.terms ∧
    MovesOn p.status p'.status := by
  cases h with
  | same => exact ⟨p, rfl, rfl, .stay _⟩
  | voted _ _ _ hadd =>
    obtain ⟨-, -, terms, status, -⟩ := addVote_spec hadd
    exact ⟨_, rfl, terms, status ▸ .stay _⟩
  | queued hactive => exact ⟨_, rfl, rfl, hactive ▸ .queued _⟩
  | rejected hactive => exact ⟨_, rfl, rfl, hactive ▸ .rejected⟩
  | executed hqueued => exact ⟨_, rfl, rfl, hqueued ▸ .executed _⟩

/-- A step keeps proposals sound, if the end of the delay of a queued one fits. -/
theorem Turn.sound (h : Turn n r (some p')) (hr : ∀ p, r = some p → Sound p) (hfits : Borsh.Fits p')
    (hdelay : n.toNat + executionDelayBlocks.toNat < 2 ^ 64) : Sound p' := by
  cases h with
  | same => exact hr p' rfl
  | proposed => exact ⟨hfits, nodup_nil, fun _ h => by cases h⟩
  | @voted p _ _ _ _ hactive _ hnew hadd =>
    obtain ⟨-, voters, -, status, -⟩ := addVote_spec hadd
    refine ⟨hfits, ?_, fun _ h => ?_⟩
    · rw [voters]
      refine nodup_append.2 ⟨(hr p rfl).voters, nodup_singleton _, ?_⟩
      rintro _ hv _ hw rfl
      exact hnew (mem_singleton.1 hw ▸ hv)
    · rw [status, hactive] at h
      cases h
  | @queued p staked _ hended hquorum hpasses =>
    refine ⟨hfits, (hr p rfl).voters, ?_⟩
    rintro _ ⟨⟩
    refine ⟨?_, ⟨staked, hquorum⟩, hpasses⟩
    have ended : p.votingEnd.toNat ≤ n.toNat := UInt64.le_iff_toNat_le.1 (of_decide_eq_true hended)
    have sum : (n + executionDelayBlocks).toNat = n.toNat + executionDelayBlocks.toNat := by
      rw [UInt64.toNat_add, Nat.mod_eq_of_lt hdelay]
    dsimp only
    omega
  | @rejected p => exact ⟨hfits, (hr p rfl).voters, fun _ h => by cases h⟩
  | @executed p => exact ⟨hfits, (hr p rfl).voters, fun _ h => by cases h⟩

/-! ## Histories -/

omit [Environment] in
theorem mem_due {entries : List (H256 × Bytes)} (h : e ∈ due n entries) :
    ∃ data executeAfter, (e.1, data) ∈ entries ∧ Borsh.tryFromSlice data = some e.2 ∧
      e.2.status = .queued executeAfter ∧ executeAfter ≤ n := by
  obtain ⟨entry, hmem, hsome⟩ := mem_filterMap.1 h
  obtain ⟨hid, hp, executeAfter, hstatus, hle⟩ := dueEntry_eq_some_iff.1 hsome
  exact ⟨entry.2, executeAfter, hid ▸ hmem, hp, hstatus, hle⟩

omit [Environment] in
/-- What is due is on record. -/
theorem recorded_of_mem_due {s : StateDB} (h : e ∈ due n s.governanceProposals.toList) :
    s.recorded e.1 = some e.2 := by
  obtain ⟨_, -, hmem, hp, -⟩ := mem_due h
  exact (recorded_of_owned (owned_of_mem hmem)).trans hp

omit [Environment] in
theorem due_sublist (entries : List (H256 × Bytes)) :
    ((due n entries).map Prod.fst).Sublist (entries.map Prod.fst) := by
  induction entries with
  | nil => exact .slnil
  | cons e _ ih =>
    cases hdue : dueEntry n e with
    | none =>
      rw [due, filterMap_cons_none hdue]
      exact .cons _ ih
    | some =>
      rw [due, filterMap_cons_some hdue, map_cons, map_cons, (dueEntry_eq_some_iff.1 hdue).1]
      exact .cons_cons _ ih

/-- The records are sound, and every action that was run belongs to another proposal, which is
executed and had waited for the whole delay. -/
structure Ordered (s : GovernanceEvent.History) : Prop where
  sound : ∀ id p, s.1.recorded id = some p → Sound p
  once : (s.2.map Prod.fst).Nodup
  waited : ∀ e ∈ s.2, ∃ p, s.1.recorded e.1 = some p ∧ p.status = .executed ∧
    p.votingEnd.toNat + Environment.executionDelayBlocks.toNat ≤ e.2.toNat

variable {s t : GovernanceEvent.History} {event : GovernanceEvent}

theorem Ordered.legible (h : Ordered s) : Legible s.1 := fun id p hp => (h.sound id p hp).fits

variable [Crypto] [Wasm]

/-- Every event takes at most one step with every proposal. -/
theorem GovernanceEvent.Step.turn (h : event.Step s t) (horderly : event.Orderly s)
    (hlegible : Legible s.1) :
    Legible t.1 ∧ ∀ id, Turn event.number (s.1.recorded id) (t.1.recorded id) := by
  cases event with
  | transaction =>
    obtain ⟨⟨_, hrun⟩, -⟩ := h
    have turned := (outcome_of_executed hrun).turn horderly hlegible
    exact ⟨fun id => (turned id).2, fun id => (turned id).1⟩
  | finalize n =>
    obtain ⟨⟨count, hrun⟩, -⟩ := h
    obtain ⟨legible, turned⟩ := recorded_of_overProposals (Q := Turn n)
      (fun _ _ _ _ _ => finalizeProposal_visit) hlegible hrun
    refine ⟨legible, fun id => ?_⟩
    by_cases hid : id ∈ s.1.governanceProposals.toList.map Prod.fst
    · exact (turned id).1 hid
    · rw [(turned id).2 hid]
      exact .same _
  | execute n =>
    obtain ⟨⟨_, hrun⟩, -⟩ := h
    obtain ⟨legible, turned⟩ := recorded_of_overProposals
      (Q := fun r r' => Turn n r r' ∧ Enacted n r r')
      (fun _ _ _ _ _ => executeQueued_visit) hlegible hrun
    refine ⟨legible, fun id => ?_⟩
    by_cases hid : id ∈ s.1.governanceProposals.toList.map Prod.fst
    · exact ((turned id).1 hid).1
    · rw [(turned id).2 hid]
      exact .same _

/-- A proposal that is due is executed by the pass. -/
theorem executed_of_due (h : GovernanceEvent.Step s (.execute n) t) (hlegible : Legible s.1)
    (he : e ∈ due n s.1.governanceProposals.toList) :
    s.1.recorded e.1 = some e.2 ∧ ∃ p', t.1.recorded e.1 = some p' ∧ p'.status = .executed := by
  obtain ⟨⟨_, hrun⟩, -⟩ := h
  have recorded := recorded_of_mem_due he
  obtain ⟨_, executeAfter, hmem, -, hstatus, hdue⟩ := mem_due he
  obtain ⟨-, turned⟩ := recorded_of_overProposals
    (Q := fun r r' => Turn n r r' ∧ Enacted n r r')
    (fun _ _ _ _ _ => executeQueued_visit) hlegible hrun
  exact ⟨recorded, ((turned e.1).1 (mem_map_of_mem hmem)).2 e.2 executeAfter recorded hstatus hdue⟩

/-- An event keeps the history in order, if the delay fits. -/
theorem Ordered.step (hs : Ordered s) (h : event.Step s t) (horderly : event.Orderly s)
    (hdelay : event.Delays) :
    Ordered t := by
  obtain ⟨legible, turned⟩ := h.turn horderly hs.legible
  have sound : ∀ id p, t.1.recorded id = some p → Sound p := by
    intro id p hp
    have step := turned id
    rw [hp] at step
    exact step.sound (hs.sound id) (legible id p hp) hdelay
  -- what was executed stays executed
  have before : ∀ e ∈ s.2, ∃ p, t.1.recorded e.1 = some p ∧ p.status = .executed ∧
      p.votingEnd.toNat + executionDelayBlocks.toNat ≤ e.2.toNat := by
    intro e he
    obtain ⟨p, hp, hexecuted, hwaited⟩ := hs.waited e he
    have step := turned e.1
    rw [hp] at step
    obtain ⟨p', hp', hterms, hmoves⟩ := step.keeps
    refine ⟨p', hp', ?_, ?_⟩
    · rw [hexecuted] at hmoves
      exact hmoves.of_executed
    · have ending : p'.votingEnd = p.votingEnd := congrArg (fun terms => terms.2.2.1) hterms
      rw [ending]
      exact hwaited
  cases event with
  | transaction =>
    obtain ⟨-, hlog⟩ := h
    exact ⟨sound, hlog ▸ hs.once, hlog ▸ before⟩
  | finalize =>
    obtain ⟨-, hlog⟩ := h
    exact ⟨sound, hlog ▸ hs.once, hlog ▸ before⟩
  | execute =>
    have hlog := h.2
    refine ⟨sound, ?_, ?_⟩
    · rw [hlog, map_append, map_map]
      refine nodup_append.2 ⟨hs.once, (nodup_ids s.1).sublist (due_sublist _), ?_⟩
      rintro _ hid _ hnew rfl
      -- an action that was run belongs to an executed proposal, one that is due to a queued one
      obtain ⟨e, he, rfl⟩ := mem_map.1 hid
      obtain ⟨d, hd, heq⟩ := mem_map.1 hnew
      obtain ⟨_, hp, hexecuted, -⟩ := hs.waited e he
      obtain ⟨recorded, -⟩ := executed_of_due h hs.legible hd
      obtain ⟨-, executeAfter, -, -, hqueued, -⟩ := mem_due hd
      rw [show d.1 = e.1 from heq] at recorded
      obtain rfl := some.inj (hp.symm.trans recorded)
      cases hexecuted.symm.trans hqueued
    · rw [hlog]
      intro e he
      rcases mem_append.1 he with he | he
      · exact before e he
      obtain ⟨d, hd, rfl⟩ := mem_map.1 he
      obtain ⟨recorded, p', hp', hexecuted⟩ := executed_of_due h hs.legible hd
      obtain ⟨-, executeAfter, -, -, hqueued, hdue⟩ := mem_due hd
      have step := turned d.1
      rw [recorded] at step
      obtain ⟨_, hq, hterms, -⟩ := step.keeps
      obtain rfl := some.inj (hp'.symm.trans hq)
      have ending : p'.votingEnd = d.2.votingEnd := congrArg (fun terms => terms.2.2.1) hterms
      refine ⟨p', hp', hexecuted, ?_⟩
      have waited := ((hs.sound _ _ recorded).queued executeAfter hqueued).1
      rw [ending]
      exact waited.trans (UInt64.le_iff_toNat_le.1 hdue)

/-- From a state without proposals on, governance runs in order: in every state that is reached the
records are sound and every action was run once and after its delay; every event takes at most one
step with a proposal, which keeps its terms and moves on; and what the second pass does is to run
the actions of the proposals that are due, in turn, and to store that they were executed. -/
theorem governance_life_cycle {start : StateDB} {events : List GovernanceEvent}
    (hstart : ∀ id, start.recorded id = none)
    (hrun : Run GovernanceEvent.FairStep (start, []) events s)
    (hstep : GovernanceEvent.FairStep s event t) :
    Ordered s ∧ Ordered t ∧ (∀ id, Turn event.number (s.1.recorded id) (t.1.recorded id) ∧
      ∀ p, s.1.recorded id = some p →
        ∃ p', t.1.recorded id = some p' ∧ p'.terms = p.terms ∧ MovesOn p.status p'.status) ∧
    ∀ n, (executeQueuedProposals n : DbM Empty UInt64).run s.1 =
      (enactAll n (due n s.1.governanceProposals.toList)).run s.1 := by
  have first : Ordered (start, []) :=
    ⟨fun id p hp => absurd ((hstart id).symm.trans hp) nofun, nodup_nil, nofun⟩
  have ordered : Ordered s := hrun.invariant (fun _ _ _ h hs => hs.step h.2 h.1.1 h.1.2) first
  obtain ⟨⟨horderly, hdelay⟩, hevent⟩ := hstep
  obtain ⟨-, turned⟩ := hevent.turn horderly ordered.legible
  refine ⟨ordered, ordered.step hevent horderly hdelay, fun id => ⟨turned id, fun p hp => ?_⟩,
    fun n => run_executeQueuedProposals n s.1⟩
  have step := turned id
  rw [hp] at step
  exact step.keeps

end Runs

end Executor

/-! ## On a small state -/

namespace Demo

open Executor GovernanceEvent

/-- The id of the first proposal of the validator. -/
def pauseId : H256 := newProposalId 0 key.address 1

/-- The validator proposes to pause the exchange and votes for it. -/
def proposing : SignedTransaction :=
  numbered 0 (.governancePropose "pause" "dex_pause" none none none none)

def agreeing : SignedTransaction := numbered 1 (.governanceVote pauseId .yes)

/-- The validator with ten tokens and a stake. -/
def staked : StateDB :=
  StateDB.new.putAccount key.address { AccountState.default with
    balance := .fromVtt 10
    staking := some
      { StakingState.default with totalStake := .fromVtt 5, selfStake := .fromVtt 5 } }

/-- A proposal from the first block to its execution. -/
def pausing (last : UInt64) : List GovernanceEvent :=
  [.transaction context proposing, .transaction context agreeing, .finalize 101 (.fromVtt 5),
    .execute last]

theorem recorded_staked (id : H256) : staked.recorded id = none := by
  have cached : staked.governanceProposals[id]? = none := ExtTreeMap.getElem?_empty
  unfold recorded getGovernanceProposalOwned
  rfl

theorem orderly_proposing : Orderly context staked proposing where
  kind := rfl
  fresh _ _ _ _ _ _ sequence _ _ := by
    have cached :
        staked.governanceProposals[newProposalId sequence proposing.sender context.blockNumber]? =
        none :=
      ExtTreeMap.getElem?_empty
    unfold getGovernanceProposalOwned
    rfl
  texts := by
    rintro _ _ _ _ _ _ ⟨⟩
    exact ⟨⟨by decide +kernel, fun _ _ => trivial⟩, trivial, trivial⟩
  voters _ _ _ h := by cases h

theorem orderly_agreeing {s : StateDB} (h : (s.recorded pauseId).all (·.voters.isEmpty) = true) :
    Orderly context s agreeing where
  kind := rfl
  fresh _ _ _ _ _ _ _ h := by cases h
  texts _ _ _ _ _ _ h := by cases h
  voters := by
    intro id _ _ haction hp
    obtain ⟨rfl, -⟩ : pauseId = id ∧ _ := TransactionAction.governanceVote.inj haction
    rw [hp, Option.all_some, List.isEmpty_iff] at h
    rw [h]
    decide

theorem exists_pausing [Environment] (last : UInt64) (check : History → History → Bool)
    (h : ((advance (.transaction context proposing) (staked, [])).any fun s₁ =>
      (advance (.transaction context agreeing) s₁).any fun s₂ =>
        (advance (.finalize 101 (.fromVtt 5)) s₂).any fun s₃ =>
      (advance (.execute last) s₃).any (check s₁)) = true) :
    ∃ s₁ s₂ s₃ t, Step (staked, []) (.transaction context proposing) s₁ ∧
      Step s₁ (.transaction context agreeing) s₂ ∧ Step s₂ (.finalize 101 (.fromVtt 5)) s₃ ∧
      Step s₃ (.execute last) t ∧ check s₁ t = true := by
  simp only [Option.any_eq_true] at h
  obtain ⟨s₁, h₁, s₂, h₂, s₃, h₃, t, h₄, hcheck⟩ := h
  exact ⟨s₁, s₂, s₃, t, step_of_advance h₁, step_of_advance h₂, step_of_advance h₃,
    step_of_advance h₄, hcheck⟩

/-- With a delay of ten blocks, the exchange is paused ten blocks after the vote. -/
theorem pause_waits : ∃ s t, Run (fun s event t => Step s event t) (staked, [])
    ((pausing 111).take 3) s ∧
      Step s (.execute 111) t ∧ (pauseId, 111) ∈ t.2 ∧ Ordered t := by
  obtain ⟨s₁, s₂, s₃, t, e₁, e₂, e₃, e₄, hcheck⟩ := exists_pausing 111
    (fun s₁ t => (s₁.1.recorded pauseId).all (·.voters.isEmpty) && t.2.contains (pauseId, 111))
    (by decide +kernel)
  obtain ⟨hvoters, hran⟩ := Bool.and_eq_true_iff.1 hcheck
  have fair₁ : FairStep (staked, []) (.transaction context proposing) s₁ :=
    ⟨⟨orderly_proposing, by decide +kernel⟩, e₁⟩
  have fair₂ : FairStep s₁ (.transaction context agreeing) s₂ :=
    ⟨⟨orderly_agreeing hvoters, by decide +kernel⟩, e₂⟩
  have fair₃ : FairStep s₂ (.finalize 101 (.fromVtt 5)) s₃ := ⟨⟨trivial, by decide +kernel⟩, e₃⟩
  have fair₄ : FairStep s₃ (.execute 111) t := ⟨⟨trivial, by decide +kernel⟩, e₄⟩
  have run₃ := Run.snoc (.snoc (.snoc .nil fair₁) fair₂) fair₃
  have ordered := (governance_life_cycle recorded_staked run₃ fair₄).2.1
  exact ⟨s₃, t, run₃.mono fun _ _ _ h => h.2, e₄, by simpa using hran, ordered⟩

/-- The longest delay. -/
local instance (priority := 2000) patient : Environment where
  votingPeriodBlocks := 100
  executionDelayBlocks := 18446744073709551615
  parseChainConfig _ := .error "no parser"

/-- With the longest delay, the exchange is paused in the block in which the vote ends. -/
theorem pause_does_not_wait : ∃ s₁ s₂ s₃ t p, Step (staked, [])
    (.transaction context proposing) s₁ ∧
      Step s₁ (.transaction context agreeing) s₂ ∧
      Step s₂ (.finalize 101 (.fromVtt 5)) s₃ ∧ Step s₃ (.execute 101) t ∧
      (pauseId, 101) ∈ t.2 ∧ t.1.recorded pauseId = some p ∧
      ¬ p.votingEnd.toNat + Environment.executionDelayBlocks.toNat ≤ (101 : UInt64).toNat := by
  obtain ⟨s₁, s₂, s₃, t, e₁, e₂, e₃, e₄, hcheck⟩ := exists_pausing 101
    (fun _ t => t.2.contains (pauseId, 101) && (t.1.recorded pauseId).isSome) (by decide +kernel)
  simp only [Bool.and_eq_true, Option.isSome_iff_exists] at hcheck
  obtain ⟨hmem, p, hp⟩ := hcheck
  refine ⟨s₁, s₂, s₃, t, p, e₁, e₂, e₃, e₄, by simpa using hmem, hp, fun h => ?_⟩
  have long : (Environment.executionDelayBlocks : UInt64).toNat = 18446744073709551615 := rfl
  have short : (101 : UInt64).toNat = 101 := rfl
  omega

end Demo

end Vtt
