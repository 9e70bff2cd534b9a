import Vtt.Executor.Events
import Vtt.Executor.Mediation
import Vtt.State.Persist

/-!
# Governance proposals on record

A governance proposal is kept as bytes, in the cache and in the store. Only the operations of
governance write there: a proposal is made, a vote is added, or the end of a block moves it on.
-/

namespace Vtt

open Lib Storage Option Proposal Cell Borsh

namespace StateDB

/-- The governance proposal on record under an id. -/
def recorded (db : StateDB) (id : H256) : Option Proposal :=
  (db.getGovernanceProposalOwned id).bind Borsh.tryFromSlice

/-- All governance proposals read the same. -/
def SameOwned (s t : StateDB) : Prop := ∀ id, t.getGovernanceProposalOwned id =
    s.getGovernanceProposalOwned id

instance : IsPreorder StateDB SameOwned where
  refl _ _ := rfl
  trans _ _ _ h h' id := (h' id).trans (h id)

variable {s t : StateDB}

theorem SameRecords.owned (h : SameRecords s t) : SameOwned s t := by
  intro _
  unfold getGovernanceProposalOwned
  rw [h.records, h.storedRecords]

theorem SameOwned.recorded (h : SameOwned s t) (id : H256) : t.recorded id = s.recorded id := by
  unfold StateDB.recorded
  rw [h id]

theorem owned_putGovernanceProposal (id id' : H256) (data : Bytes) :
    (s.putGovernanceProposal id data).getGovernanceProposalOwned id' =
      if id = id' then some data else s.getGovernanceProposalOwned id' := by
  unfold getGovernanceProposalOwned putGovernanceProposal
  rw [get_insert]
  by_cases hid : id = id'
  · rw [if_pos hid, if_pos hid]
  · rw [if_neg hid, if_neg hid]
    have other : (s.storage.write .chainMeta (governanceKey id) data).read .chainMeta
        (governanceKey id') = s.storage.read .chainMeta (governanceKey id') :=
      read_write_of_ne _ _ (ne_location
        (show governance id' ≠ .governance id from fun heq => hid (governance.inj heq).symm))
    rw [other]

/-- A proposal that was put on record. -/
theorem recorded_putGovernanceProposal (s : StateDB) (id id' : H256) {p : Proposal}
    (hfits : Borsh.Fits p) :
    (s.putGovernanceProposal id (serialize p)).recorded id' = if id = id' then some p
      else s.recorded id' := by
  unfold recorded
  rw [owned_putGovernanceProposal]
  split
  · exact tryFromSlice_serialize p hfits
  · rfl

theorem sameRecords_putAccount (s : StateDB) (address : Address) (account : AccountState) :
    SameRecords s (s.putAccount address account) := by
  refine ⟨rfl, fun id => ?_⟩
  unfold putAccount
  dsimp only
  split
  · exact (read_write_of_ne _ _ (.inr (governanceKey_ne (by decide +kernel) id))).trans
      (read_write_of_ne _ _ (.inl (by decide)))
  · exact read_write_of_ne _ _ (.inl (by decide))

theorem sameRecords_charge (s : StateDB) (sender : Address) (fee : Amount) :
    SameRecords s (s.charge sender fee) :=
  charge_induction _ _ _ (Std.Refl.refl s) fun _ _ h =>
    IsTrans.trans _ _ _ h (sameRecords_putAccount ..)

/-- Rolling back brings the proposals of the snapshot back. -/
theorem sameOwned_restore {u : StateDB} (h : SameRecords s u) :
    SameOwned s (u.restore s.snapshot) := by
  intro id
  unfold getGovernanceProposalOwned
  rw [show (u.restore s.snapshot).governanceProposals = s.governanceProposals from rfl]
  cases hcached : s.governanceProposals[id]? with
  | some => rfl
  | none =>
    show (restoreStorage u.storage s.snapshot).read .chainMeta (governanceKey id) = _
    rw [← h.storedRecords id]
    cases hstorage : u.storage with
    | none =>
      have empty : restoreStorage none s.snapshot = none := by
        rw [restoreStorage_eq, ← not_isSome_iff_eq_none, isSome_writeCells]
        exact Bool.false_ne_true
      rw [empty]
    | some store =>
      have read : (restoreStorage (some store) s.snapshot).read .chainMeta (governanceKey id) = _ :=
        read_restoreStorage rfl s.snapshot (.governance id)
      rw [show restored s.snapshot (.governance id) = none from hcached, none_or] at read
      exact read

end StateDB

/-! ## Proposals as bytes -/

/-- A proposal can be read back if its texts and its voters can be counted in 32 bits. -/
theorem Proposal.fits_iff (p : Proposal) : Borsh.Fits p ↔
    Borsh.Fits p.action ∧ Borsh.Fits p.description ∧ p.voters.length < 2 ^ 32 := by
  have status : Borsh.Fits p.status := by cases p.status <;> exact trivial
  constructor
  · rintro ⟨-, -, haction, hdescription, -, -, -, -, -, -, hvoters, -⟩
    exact ⟨haction, hdescription, hvoters.1⟩
  · rintro ⟨haction, hdescription, hvoters⟩
    exact ⟨trivial, trivial, haction, hdescription, trivial, trivial, status, trivial,
      trivial, trivial, ⟨hvoters, fun _ _ => trivial⟩, trivial, trivial⟩

theorem Proposal.fits_status {p : Proposal} (h : Borsh.Fits p) (status : ProposalStatus) :
    Borsh.Fits { p with status } :=
  (fits_iff _).2 ((fits_iff p).1 h)

/-- All votes on a proposal, as a number. -/
def Proposal.cast (p : Proposal) : ℕ :=
  p.votesYes.raw.toNat + p.votesNo.raw.toNat + p.votesAbstain.raw.toNat

/-- What a proposal keeps from its creation on. -/
def Proposal.terms (p : Proposal) : ProposalAction × Address × BlockNumber × BlockNumber × Amount :=
  (p.action, p.proposer, p.votingEnd, p.snapshotBlock, p.totalStakedAtCreation)

namespace Executor

open Confined StateDB

variable {vote : Vote} {voter : Address} {description actionType : String}
  {paramKey paramValue : Option String} {recipient : Option Address} {amount : Option Amount}

/-- What a vote adds to a proposal. -/
theorem addVote_spec {p p' : Proposal} {power : Amount} (h : addVote p voter vote power = some p') :
    p'.cast = p.cast + power.raw.toNat ∧ p'.voters = p.voters ++ [voter] ∧ p'.terms = p.terms ∧
      p'.status = p.status ∧ p'.description = p.description := by
  cases vote with
  | yes | no | abstain =>
    obtain ⟨_, hsum, rfl⟩ := map_eq_some_iff.1 h
    have total := Amount.toNat_checkedAdd hsum
    refine ⟨?_, rfl, rfl, rfl, rfl⟩
    unfold Proposal.cast
    dsimp only
    omega

theorem fits_addVote {p p' : Proposal} {power : Amount} (hp : Borsh.Fits p)
    (hvoters : p.voters.length + 1 < 2 ^ 32) (h : addVote p voter vote power = some p') :
    Borsh.Fits p' := by
  obtain ⟨-, voters, terms, -, description⟩ := addVote_spec h
  obtain ⟨haction, hdescription, -⟩ := p.fits_iff.1 hp
  have action : p'.action = p.action := congrArg Prod.fst terms
  refine p'.fits_iff.2 ⟨action ▸ haction, description ▸ hdescription, ?_⟩
  rw [voters, List.length_append]
  exact hvoters

theorem sameRecords_putOwnershipWith (s : StateDB) (record : OwnershipRecord)
    (prevTotal newTotal : Amount) :
    SameRecords s (s.putOwnershipWith record prevTotal newTotal) := by
  refine ⟨rfl, fun id => ?_⟩
  unfold putOwnershipWith
  dsimp only
  split
  · exact (read_write_of_ne _ _
        (ne_location (show governance id ≠ .holders record.assetId from nofun))).trans
        (read_write_of_ne _ _ (.inl (show Column.chainMeta ≠ .ownership by decide)))
  · exact read_write_of_ne _ _ (.inl (by decide))

/-- Only governance writes governance proposals. -/
theorem dealing_sameRecords : Dealing SameRecords fun _ => True where
  aside _ _ h := h.toSameRecords
  addBalance _ _ := .found fun _ _ => .update fun s => sameRecords_putAccount s ..
  subBalance _ _ _ := .found fun _ _ => .update fun s => sameRecords_putAccount s ..
  putOwnership s _ _ _ := sameRecords_putOwnershipWith s ..
  putPoolRaw _ _ _ := ⟨rfl, fun _ => read_write_of_ne _ _ (.inl (by decide))⟩
  setCachedAsset _ _ _ := ⟨rfl, fun _ => rfl⟩

section Steps

variable [Crypto] [Environment]

/-! ## Steps of a proposal -/

/-- A proposal as it is made. -/
def draft (id : H256) (sender : Address) (action : ProposalAction) (description : String)
    (blockNumber : UInt64) (totalStaked : Amount) : Proposal where
  id
  proposer := sender
  action
  description
  createdAt := blockNumber
  votingEnd := blockNumber + Environment.votingPeriodBlocks
  status := .active
  votesYes := .zero
  votesNo := .zero
  votesAbstain := .zero
  voters := []
  snapshotBlock := blockNumber
  totalStakedAtCreation := totalStaked

/-- The id of a proposal by its number in the sequence of proposals. -/
def newProposalId (sequence : UInt64) (sender : Address) (blockNumber : UInt64) : H256 :=
  blake3Hash (Borsh.serialize (sequence, sender, blockNumber))

/-- One step of a proposal in a block with a number. -/
inductive Turn (n : UInt64) : Option Proposal → Option Proposal → Prop where
  | same (r : Option Proposal) : Turn n r r
  | proposed (id : H256) (sender : Address) (action : ProposalAction) (description : String)
      (totalStaked : Amount) : Turn n none (some (draft id sender action description n totalStaked))
  | voted {p p' : Proposal} {voter : Address} {vote : Vote} {power : Amount}
      (hactive : p.status = .active) (hopen : p.isVotingEnded n = false) (hnew : voter ∉ p.voters)
      (hadd : addVote p voter vote power = some p') : Turn n (some p) (some p')
  | queued {p : Proposal} {staked : Amount} (hactive : p.status = .active)
      (hended : p.isVotingEnded n = true) (hquorum : p.hasQuorum staked = some true)
      (hpasses : p.passesThreshold = true) :
      Turn n (some p) (some { p with status := .queued (n + Environment.executionDelayBlocks) })
  | rejected {p : Proposal} (hactive : p.status = .active) (hended : p.isVotingEnded n = true) :
      Turn n (some p) (some { p with status := .rejected })
  | executed {p : Proposal} {executeAfter : UInt64} (hqueued : p.status = .queued executeAfter)
      (hdue : executeAfter ≤ n) : Turn n (some p) (some { p with status := .executed })

/-- The number of the next proposal, if there is one; in memory it is always zero. -/
def nextSequence (db : StateDB) : Option UInt64 :=
  match db.storage.read .chainMeta governanceCounterKey with
  | some v => if v.length = 8 then some (UInt64.ofNat (beNat v)) else none
  | none => some 0

variable {s t : StateDB} {sender : Address} {blockNumber : UInt64} {logs : List Log}

omit [Crypto] [Environment] in
/-- Actions are made of the texts of the transaction. -/
theorem fits_of_proposedAction {action : ProposalAction}
    (h : (proposedAction description actionType paramKey paramValue recipient amount).run s =
    some (.ok action, t)) (hdescription : Borsh.Fits description) (hkey : Borsh.Fits paramKey)
      (hvalue : Borsh.Fits paramValue) :
    Borsh.Fits action := by
  have default : ∀ {o : Option String} {d : String}, Borsh.Fits o → Borsh.Fits d →
      Borsh.Fits (o.getD d) := by
    intro o _ ho hd
    cases o with
    | none => exact hd
    | some => exact ho
  have empty : Borsh.Fits "" := ⟨by decide +kernel, fun _ _ => trivial⟩
  unfold proposedAction at h
  split at h
  · obtain ⟨_, -, h⟩ := ok_of_still (Routine.validateParameterChange ..) h
    obtain ⟨rfl, -⟩ := ok_of_pure h
    exact ⟨default hkey empty, default hvalue hdescription⟩
  · obtain ⟨rfl, -⟩ := ok_of_pure h
    exact ⟨trivial, trivial⟩
  · obtain ⟨rfl, -⟩ := ok_of_pure h
    exact ⟨trivial, hdescription⟩
  · obtain ⟨rfl, -⟩ := ok_of_pure h
    exact trivial
  · obtain ⟨rfl, -⟩ := ok_of_pure h
    exact trivial
  · obtain ⟨rfl, -⟩ := ok_of_pure h
    exact trivial
  · obtain ⟨rfl, -⟩ := ok_of_pure h
    exact trivial
  · obtain ⟨rfl, -⟩ := ok_of_pure h
    exact ⟨default hkey empty, default hvalue ⟨by decide +kernel, fun _ _ => trivial⟩⟩
  · cases h

/-- A proposal that is made is put on record under its id. -/
theorem executeGovernancePropose_ok
    (h : (executeGovernancePropose sender description actionType paramKey paramValue
      recipient amount blockNumber).run s = some (.ok logs, t)) :
    ∃ action totalStaked sequence s₁,
      (proposedAction description actionType paramKey paramValue recipient amount).run s =
        some (.ok action, s) ∧
      totalStakedInCache s.toStateSnapshot = some totalStaked ∧
      nextSequence s = some sequence ∧ Aside s s₁ ∧
      t = s₁.putGovernanceProposal (newProposalId sequence sender blockNumber)
        (serialize (draft (newProposalId sequence sender blockNumber) sender action
          description blockNumber totalStaked)) := by
  obtain ⟨-, h⟩ := ok_of_require h
  obtain ⟨action, haction, h⟩ := ok_of_still (Routine.proposedAction ..) h
  obtain ⟨-, h⟩ := ok_of_require h
  obtain ⟨_, hstaked, h⟩ := ok_of_still (Routine.cached _) h
  obtain ⟨totalStaked, htotal, h⟩ := ok_of_unwrap h
  obtain ⟨_, s₁, hnext, h⟩ := run_bind_ok h
  obtain ⟨_, hput, -⟩ := ok_of_last h
  cases hput
  obtain rfl := Except.ok.inj (Prod.mk.inj (some.inj hstaked)).1
  have same : Aside s s₁ := Db.aside_nextGovernanceId hnext
  obtain ⟨current, hcurrent, hnext⟩ := ok_of_unwrap hnext
  obtain ⟨_, -, rfl⟩ := ok_of_last hnext
  exact ⟨action, totalStaked, current, s₁, haction, htotal, hcurrent, same, rfl⟩

omit [Environment] in
/-- A vote that is counted: it is cast in time and for the first time, with the stake of the
voter. -/
theorem executeGovernanceVote_ok {id : H256}
    (h : (executeGovernanceVote sender id vote blockNumber).run s = some (.ok logs, t)) :
    ∃ p p', s.recorded id = some p ∧ p.status = .active ∧ p.isVotingEnded blockNumber = false ∧
      sender ∉ p.voters ∧
      addVote p sender vote
        (votingPower p (((s.getAccount sender).staking.map (·.totalStake)).getD .zero)) = some p' ∧
      t = s.putGovernanceProposal id (serialize p') := by
  obtain ⟨_, hstored, h⟩ := ok_of_okOr (o := s.getGovernanceProposalOwned id) h
  obtain ⟨p, hp, h⟩ := ok_of_okOr h
  obtain ⟨hactive, h⟩ := ok_of_require h
  obtain ⟨hopen, h⟩ := ok_of_require h
  obtain ⟨hvoted, h⟩ := ok_of_require h
  obtain ⟨-, h⟩ := ok_of_require h
  obtain ⟨p', hadd, h⟩ := ok_of_unwrap h
  obtain ⟨_, hput, -⟩ := ok_of_last h
  cases hput
  refine ⟨p, p', ?_, hactive, by simpa using hopen, by simpa [hasVoted] using hvoted, hadd, rfl⟩
  unfold recorded
  rw [hstored]
  exact hp

/-- A proposal or a vote that fails writes no proposal. -/
theorem fails_executeGovernancePropose (description actionType : String)
    (paramKey paramValue : Option String) (recipient : Option Address) (amount : Option Amount) :
    Fails SameRecords
      (executeGovernancePropose sender description actionType paramKey paramValue recipient amount
        blockNumber) :=
  .bind .require fun _ => .bind (Routine.proposedAction ..) fun _ => .bind .view fun _ =>
    .bind .require fun _ => .bind (Routine.cached _) fun _ => .bind (.unwrap _) fun _ =>
    .bind (dealing_sameRecords.of_aside Db.aside_nextGovernanceId) fun _ => fun _ _ _ h => by
      cases h

omit [Environment] in
theorem fails_executeGovernanceVote (id : H256) (vote : Vote) :
    Fails SameRecords (executeGovernanceVote sender id vote blockNumber) :=
  .bind .view fun _ => .bind (.okOr _) fun _ => .bind (.okOr _) fun _ => .bind .require fun _ =>
    .bind .require fun _ => .bind .require fun _ => .bind .view fun _ => .bind .require fun _ =>
    .bind (.unwrap _) fun _ => fun _ _ _ h => by cases h

/-! ## Transactions -/

variable [Wasm] {ctx : BlockContext} {tx : SignedTransaction} {result : ExecutionResult}

/-- Operations that have nothing to do with proposals leave the records alone. -/
theorem sameRecords_operation {r : Except ExecutionError (List Log)}
    (hgovernance : tx.payload.action.isGovernance = false)
    (hdeliberation : tx.payload.action.isDeliberation = false)
    (h : (operation ctx tx).run s = some (r, t)) : SameRecords s t := by
  refine dealing_sameRecords.executeAction (fun s _ _ => sameRecords_putAccount s ..)
    ⟨trivial, fun _ _ _ _ _ _ => trivial, ?_, ?_, ?_, fun _ _ u _ _ => sameRecords_putAccount u ..,
      fun _ _ u _ _ _ => ⟨rfl, (apart_markSlashingEvidence u ..).governance⟩⟩
    (fun _ _ _ _ => ⟨rfl, fun _ => read_write_of_ne _ _ (.inl (by decide))⟩) h
  · intro hyes
    rw [hgovernance] at hyes
    cases hyes
  · intro hyes
    rw [hdeliberation] at hyes
    cases hyes
  · intro _ _ _ haction
    rw [haction] at hdeliberation
    cases hdeliberation

/-- A governance operation that fails leaves the records alone. -/
theorem sameRecords_of_failed {e : ExecutionError}
    (hgovernance : tx.payload.action.isGovernance = true)
    (h : (operation ctx tx).run s = some (.error e, t)) : SameRecords s t := by
  unfold operation at h
  generalize tx.payload.action = action at *
  cases action with
  | governancePropose => exact fails_executeGovernancePropose _ _ _ _ _ _ h
  | governanceVote => exact fails_executeGovernanceVote _ _ h
  | _ => cases hgovernance

/-- A transaction that fails, or that has nothing to do with proposals, leaves the proposals as they
were. -/
theorem Outcome.sameOwned (h : Outcome ctx tx s result t)
    (hdeliberation : tx.payload.action.isDeliberation = false)
    (hquiet : tx.payload.action.isGovernance = false ∨ result.receipt.success = false) :
    SameOwned s t := by
  cases h with
  | inert | excessive => exact refl s
  | short => exact (sameRecords_charge ..).owned
  | @failed _ u _ hrun =>
    have op : SameRecords (s.charge tx.sender (gasFee tx ctx.gasConfig)) u := by
      cases hgovernance : tx.payload.action.isGovernance with
      | false => exact sameRecords_operation hgovernance hdeliberation hrun
      | true => exact sameRecords_of_failed hgovernance hrun
    have all : SameRecords s u := IsTrans.trans _ _ _ (sameRecords_charge ..) op
    exact IsTrans.trans _ _ _ (sameOwned_restore all) (sameRecords_charge ..).owned
  | done _ hrun =>
    have hgovernance : tx.payload.action.isGovernance = false :=
      hquiet.resolve_right fun hfail => by cases hfail
    have op := sameRecords_operation hgovernance hdeliberation hrun
    exact (show SameRecords s t from IsTrans.trans _ _ _ (sameRecords_charge ..) op).owned

/-- What is taken for granted of a governance transaction: a new proposal has an id of its own, and
texts and voters can be counted in 32 bits. -/
structure Orderly (ctx : BlockContext) (s : StateDB) (tx : SignedTransaction) : Prop where
  kind : tx.payload.action.isGovernance = true
  fresh : ∀ description actionType paramKey paramValue recipient amount sequence,
    tx.payload.action =
    .governancePropose description actionType paramKey paramValue recipient amount →
    nextSequence s = some sequence →
    s.getGovernanceProposalOwned (newProposalId sequence tx.sender ctx.blockNumber) = none
  texts : ∀ description actionType paramKey paramValue recipient amount,
    tx.payload.action =
    .governancePropose description actionType paramKey paramValue recipient amount →
    Borsh.Fits description ∧ Borsh.Fits paramKey ∧ Borsh.Fits paramValue
  voters : ∀ id vote p, tx.payload.action = .governanceVote id vote → s.recorded id = some p →
    p.voters.length + 1 < 2 ^ 32

/-- The proposals on record can be read back. -/
def Legible (s : StateDB) : Prop := ∀ id p, s.recorded id = some p → Borsh.Fits p

/-- A governance transaction takes at most one step with every proposal, which can still be read
back. -/
theorem Outcome.turn (h : Outcome ctx tx s result t) (horderly : Orderly ctx s tx)
    (hlegible : Legible s) (id : H256) :
    Turn ctx.blockNumber (s.recorded id) (t.recorded id) ∧ ∀ p, t.recorded id = some p →
      Borsh.Fits p := by
  have hkind := horderly.kind
  have hdeliberation : tx.payload.action.isDeliberation = false := by
    generalize tx.payload.action = action at hkind
    cases action <;> first | rfl | cases hkind
  cases hsuccess : result.receipt.success with
  | false =>
    rw [(h.sameOwned hdeliberation (.inr hsuccess)).recorded id]
    exact ⟨.same _, hlegible id⟩
  | true =>
    cases h with
    | inert | excessive | short | failed => cases hsuccess
    | done _ hrun =>
      have charged := (sameRecords_charge s tx.sender (gasFee tx ctx.gasConfig)).owned
      unfold operation at hrun
      cases haction : tx.payload.action with
      | governancePropose description =>
        rw [haction] at hrun
        obtain ⟨action, totalStaked, sequence, _, hproposed, -, hsequence, same, rfl⟩ :=
          executeGovernancePropose_ok hrun
        obtain ⟨hdescription, hkey, hvalue⟩ := horderly.texts _ _ _ _ _ _ haction
        have fits : Borsh.Fits
            (draft (newProposalId sequence tx.sender ctx.blockNumber) tx.sender action description
            ctx.blockNumber totalStaked) :=
          (fits_iff _).2 ⟨fits_of_proposedAction hproposed hdescription hkey hvalue, hdescription,
            Nat.two_pow_pos 32⟩
        rw [recorded_putGovernanceProposal _ _ _ fits]
        split
        · rename_i hid
          have counter : nextSequence s = some sequence := by
            unfold nextSequence at hsequence ⊢
            rw [show (s.charge tx.sender (gasFee tx ctx.gasConfig)).storage.read .chainMeta
              governanceCounterKey = s.storage.read .chainMeta governanceCounterKey from
                read_note_charge s .governanceCounter tx.sender _] at hsequence
            exact hsequence
          have none : s.recorded id = none := by
            unfold recorded
            rw [← hid, horderly.fresh _ _ _ _ _ _ sequence haction counter]
            rfl
          rw [none]
          exact ⟨.proposed _ _ _ _ _, fun p hp => some.inj hp ▸ fits⟩
        · rw [same.toSameRecords.owned.recorded id, charged.recorded id]
          exact ⟨.same _, hlegible id⟩
      | governanceVote proposalId =>
        rw [haction] at hrun
        obtain ⟨_, _, hp, hactive, hopen, hnew, hadd, rfl⟩ := executeGovernanceVote_ok hrun
        rw [charged.recorded proposalId] at hp
        have fits := fits_addVote (hlegible _ _ hp) (horderly.voters _ _ _ haction hp) hadd
        rw [recorded_putGovernanceProposal _ _ _ fits]
        split
        · rename_i hid
          rw [← hid, hp]
          exact ⟨.voted hactive hopen hnew hadd, fun q hq => some.inj hq ▸ fits⟩
        · rw [charged.recorded id]
          exact ⟨.same _, hlegible id⟩
      | _ =>
        rw [haction] at hkind
        cases hkind

end Steps

end Executor

end Vtt
