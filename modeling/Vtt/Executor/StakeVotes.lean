import Vtt.Executor.Ballot
import Vtt.Executor.Enactment

/-!
# The weight of governance votes

A vote on a governance proposal counts the stake that the voter has when voting, at most what all
had staked together when the proposal was made. Stake that an address received after that is counted
as well.
-/

namespace Vtt

open Lib List Option

/-- The stake of an account that is in the cache. -/
def StateDB.stakeAt (db : StateDB) (address : Address) : Option ℕ :=
  (db.accounts[address]?).map fun account => (Executor.totalStakeOf account).raw.toNat

/-- The transactions that matter for the weight of votes. -/
def TransactionAction.isStaking : TransactionAction → Bool
  | .stake .. | .unstake .. | .governanceVote .. => true
  | _ => false

namespace Executor

open Confined StateDB

variable {validator address sender : Address} {account : AccountState} {amount : Amount}

/-! ## Stake that does not grow -/

/-- An account stays in the cache and has no more stake than before. -/
def NoMoreStake (address : Address) (s t : StateDB) : Prop :=
  ∀ n, s.stakeAt address = some n → ∃ m, t.stakeAt address = some m ∧ m ≤ n

section Stakes

variable {v : Address} {s t : StateDB}

instance (v : Address) : IsPreorder StateDB (NoMoreStake v) where
  refl _ n h := ⟨n, h, le_refl n⟩
  trans _ _ _ h h' n hn := by
    obtain ⟨m, hm, hle⟩ := h n hn
    obtain ⟨k, hk, hle'⟩ := h' m hm
    exact ⟨k, hk, hle'.trans hle⟩

theorem noMoreStake_of_accounts (h : t.accounts = s.accounts) : NoMoreStake v s t := by
  intro n hn
  refine ⟨n, ?_, le_refl n⟩
  rw [stakeAt, h]
  exact hn

/-- An account is set whose stake does not exceed the one it had. -/
theorem noMoreStake_putAccount
    (h : address = v →
      (totalStakeOf account).raw.toNat ≤ (totalStakeOf (s.getAccount v)).raw.toNat) :
    NoMoreStake v s (s.putAccount address account) := by
  intro n hn
  show ∃ m, ((s.accounts.insert address account)[v]?).map _ = some m ∧ m ≤ n
  rw [get_insert]
  split
  · rename_i heq
    obtain ⟨_, hcached, rfl⟩ := map_eq_some_iff.1 hn
    refine ⟨_, rfl, (h heq).trans (le_of_eq ?_)⟩
    unfold getAccount
    rw [hcached]
  · exact ⟨n, hn, le_refl n⟩

/-- The staking side of an account stays as it is. -/
theorem noMoreStake_of_staking (h : account.staking = (s.getAccount address).staking) :
    NoMoreStake v s (s.putAccount address account) := by
  refine noMoreStake_putAccount ?_
  rintro rfl
  unfold totalStakeOf
  rw [h]

theorem routine_noMoreStake (v : Address) : Routine (NoMoreStake v) fun _ => True where
  aside _ _ h := noMoreStake_of_accounts h.accounts
  addBalance _ _ := .view_bind fun _ => .okOr_bind fun _ _ => .update (noMoreStake_of_staking rfl)
  subBalance _ _ _ := .view_bind fun _ => .okOr_bind fun _ _ => .update (noMoreStake_of_staking rfl)

theorem noMoreStake_incrementNonce (s : StateDB) (address : Address) :
    NoMoreStake v s (s.incrementNonce address) := by
  exact noMoreStake_of_staking rfl

theorem noMoreStake_charge (s : StateDB) (sender : Address) (fee : Amount) :
    NoMoreStake v s (s.charge sender fee) := by
  unfold charge
  dsimp only
  split
  · rename_i balance _
    have paid : NoMoreStake v s (s.putAccount sender { s.getAccount sender with balance }) :=
      noMoreStake_of_staking rfl
    exact IsTrans.trans _ _ _ paid (noMoreStake_incrementNonce _ _)
  · exact noMoreStake_incrementNonce _ _

/-- Staking with others. -/
theorem noMoreStake_executeStake (h : validator ≠ v) (sender : Address) (amount : Amount) :
    Moves (NoMoreStake v) (executeStake sender validator amount) :=
  .bind (.mapError ((routine_noMoreStake v).subBalance _ _ trivial)) fun _ => .view_bind fun _ =>
    .still_bind (Routine.still_addStake ..) fun _ _ => .okOr_bind fun _ _ =>
    .update (noMoreStake_putAccount fun heq => absurd heq h)

/-- What is unstaked is taken off the total afterwards. -/
theorem totalStake_of_removeStake {staking staking' : StakingState}
    (h : (removeStake sender validator amount staking).run s = some (.ok staking', t)) :
    staking'.totalStake = staking.totalStake := by
  unfold removeStake at h
  split at h
  · obtain ⟨-, h⟩ := ok_of_require h
    obtain ⟨rfl, -⟩ := ok_of_pure h
    rfl
  · obtain ⟨_, -, h⟩ := ok_of_okOr h
    obtain ⟨-, h⟩ := ok_of_require h
    obtain ⟨rfl, -⟩ := ok_of_pure h
    rfl

theorem noMoreStake_executeUnstake (blockTimestamp : UInt64) :
    Moves (NoMoreStake v) (executeUnstake sender validator amount blockTimestamp) := by
  refine .view_bind fun s => .still_bind (Routine.still_removeStake ..) fun staking hrun =>
    .unwrap_bind fun totalStake htotal => .bind (.update (noMoreStake_putAccount ?_)) fun _ t _ =>
      Moves.at (.bind .view fun _ =>
        (routine_noMoreStake v).of_aside (Db.aside_addUnbondingEntry ..)) t
  rintro rfl
  have less := Amount.toNat_checkedSub htotal
  rw [totalStake_of_removeStake hrun] at less
  have same : totalStakeOf (s.getAccount validator) =
      ((s.getAccount validator).staking.getD .default).totalStake := by
    unfold totalStakeOf
    cases (s.getAccount validator).staking with
    | none | some => rfl
  rw [same]
  show totalStake.raw.toNat ≤ _
  omega

end Stakes

/-! ## Sums of stake -/

/-- All stake in the cache, as a number. -/
theorem toNat_totalStakedInCache {s : StateDB} {total : Amount}
    (h : totalStakedInCache s.toStateSnapshot = some total) :
    total.raw.toNat = sumOver s.accounts fun _ account => (totalStakeOf account).raw.toNat := by
  have fold : ∀ (entries : List (Address × AccountState)) (start : Amount),
      (entries.filterMap fun a => a.2.staking).foldlM (fun sum s => sum.checkedAdd s.totalStake)
      start = some total →
      total.raw.toNat =
        start.raw.toNat + (entries.map fun a => (totalStakeOf a.2).raw.toNat).sum := by
    intro entries
    induction entries with
    | nil =>
      intro start h
      cases h
      rfl
    | cons entry _ ih =>
      intro start h
      obtain ⟨_, account⟩ := entry
      rw [map_cons, sum_cons]
      dsimp only
      cases hstaking : account.staking with
      | none =>
        simp only [filterMap_cons, hstaking] at h
        have rest := ih start h
        have nothing : (totalStakeOf account).raw.toNat = 0 := by
          unfold totalStakeOf
          rw [hstaking]
          rfl
        omega
      | some staking =>
        simp only [filterMap_cons, hstaking, foldlM_cons] at h
        obtain ⟨sum, hsum, h⟩ := bind_eq_some_iff.1 h
        have rest := ih sum h
        have more := Amount.toNat_checkedAdd hsum
        have own : totalStakeOf account = staking.totalStake := by
          unfold totalStakeOf
          rw [hstaking]
          rfl
        rw [own]
        omega
  exact (fold s.accounts.toList .zero h).trans (Nat.zero_add _)

/-- What different accounts have staked is part of it. -/
theorem sum_stakeAt_le {s : StateDB} {total : Amount}
    (h : totalStakedInCache s.toStateSnapshot = some total) {voters : List Address}
    (hvoters : voters.Nodup) :
    (voters.map fun v => (s.stakeAt v).getD 0).sum ≤ total.raw.toNat := by
  rw [toNat_totalStakedInCache h]
  refine le_trans (le_of_eq ?_) (sum_le_sumOver s.accounts _ hvoters)
  refine congrArg sum (map_congr_left fun v _ => ?_)
  unfold stakeAt
  cases s.accounts[v]? with
  | none | some => rfl

section Transactions

variable {ctx : BlockContext} {tx : SignedTransaction} {s t start : StateDB}
  {result : ExecutionResult} {late : Address → Prop} {id : H256} {total : Amount}

theorem votingPower_le (p : Proposal) (stake : Amount) : (votingPower p stake).raw.toNat ≤
    stake.raw.toNat := by
  unfold votingPower
  split
  · exact le_refl _
  · unfold U128.min
    split
    · exact le_refl _
    · rename_i h
      exact BitVec.le_def.1 (BitVec.le_of_lt (BitVec.not_le.1 h))

/-- The weight of a vote is within the stake at the start. -/
theorem weight_le {v : Address} {n : ℕ} (p : Proposal) (fee : Amount)
    (hn : start.stakeAt v = some n) (hmore : NoMoreStake v start s) :
    (votingPower p
      ((((s.charge v fee).getAccount v).staking.map (·.totalStake)).getD .zero)).raw.toNat ≤ n := by
  have charged : NoMoreStake v start (s.charge v fee) :=
    IsTrans.trans _ _ _ hmore (noMoreStake_charge _ _ _)
  obtain ⟨_, hm, hle⟩ := charged n hn
  obtain ⟨account, haccount, rfl⟩ := map_eq_some_iff.1 hm
  have cached : (s.charge v fee).getAccount v = account := by
    unfold getAccount
    rw [haccount]
  rw [cached]
  exact (votingPower_le p _).trans hle

variable [Crypto] [Wasm] [Environment]

/-- Only an operation that stakes with an address raises its stake. -/
theorem noMoreStake_operation {v : Address} (hkind : tx.payload.action.isStaking = true)
    (hv : ∀ amount, tx.payload.action ≠ .stake v amount) : Moves (NoMoreStake v)
      (operation ctx tx) := by
  unfold operation
  cases haction : tx.payload.action with
  | stake validator amount =>
    have hne : validator ≠ v := fun heq => hv amount (heq ▸ haction)
    exact .bind (noMoreStake_executeStake hne ..) fun _ => .pure _
  | unstake => exact .bind (noMoreStake_executeUnstake ..) fun _ => .pure _
  | governanceVote =>
    exact Routine.executeGovernanceVote (fun _ _ h => noMoreStake_of_accounts h.accounts) ..
  | _ =>
    rw [haction] at hkind
    cases hkind

theorem Outcome.noMoreStake {v : Address} (h : Outcome ctx tx s result t)
    (hkind : tx.payload.action.isStaking = true)
    (hv : ∀ amount, tx.payload.action ≠ .stake v amount) : NoMoreStake v s t := by
  cases h with
  | inert | excessive => exact refl s
  | short => exact noMoreStake_charge _ _ _
  | @failed _ u =>
    -- the accounts in the cache are those of the snapshot
    have restored : NoMoreStake v s (u.restore s.snapshot) := noMoreStake_of_accounts rfl
    exact IsTrans.trans _ _ _ restored (noMoreStake_charge _ _ _)
  | done _ hrun =>
    have charged : NoMoreStake v s (s.charge tx.sender (gasFee tx ctx.gasConfig)) :=
      noMoreStake_charge _ _ _
    exact IsTrans.trans _ _ _ charged (noMoreStake_operation hkind hv hrun)

/-! ## Votes on a proposal -/

/-- A transaction after the creation of a proposal: a stake, an unstake or a vote. Who is given
stake before having voted is one of the late addresses, and those who vote on the proposal are not.
They had an account in the cache when it was created. -/
structure VotesFairly (late : Address → Prop) (start : StateDB) (id : H256) (s : StateDB)
    (tx : SignedTransaction) : Prop where
  kind : tx.payload.action.isStaking = true
  stakes : ∀ validator amount p, tx.payload.action = .stake validator amount →
    s.recorded id = some p → late validator ∨ validator ∈ p.voters
  votes : ∀ vote, tx.payload.action = .governanceVote id vote →
    ¬ late tx.sender ∧ tx.sender ∈ start.accounts
  /-- Voters can be counted in 32 bits. -/
  voters : ∀ vote p, tx.payload.action = .governanceVote id vote → s.recorded id = some p →
    p.voters.length + 1 < 2 ^ 32

/-- Different voters cast the votes of a proposal, each with a weight within the stake at the
start. -/
structure Weighed (start : StateDB) (total : Amount) (p : Proposal) : Prop where
  fits : Borsh.Fits p
  total : p.totalStakedAtCreation = total
  nodup : p.voters.Nodup
  cast : p.cast ≤ (p.voters.map fun v => (start.stakeAt v).getD 0).sum

/-- A proposal is on record with such votes, and who may still vote has no more stake than at the
start. -/
def Weighing (late : Address → Prop) (start : StateDB) (id : H256) (total : Amount) (s : StateDB) :
    Prop :=
  ∃ p, s.recorded id = some p ∧ Weighed start total p ∧ ∀ v, ¬ late v → v ∉ p.voters →
    NoMoreStake v start s

omit [Crypto] [Wasm] [Environment] in
/-- A vote that is added with such a weight. -/
theorem Weighed.addVote {p p' : Proposal} {voter : Address} {vote : Vote} {power : Amount}
    (h : Weighed start total p) (hvoters : p.voters.length + 1 < 2 ^ 32) (hnew : voter ∉ p.voters)
    (hpower : power.raw.toNat ≤ (start.stakeAt voter).getD 0)
    (hadd : Executor.addVote p voter vote power = some p') :
    Weighed start total p' := by
  obtain ⟨hcast, hvoters', hterms, -, -⟩ := addVote_spec hadd
  refine ⟨fits_addVote h.fits hvoters hadd, ?_, ?_, ?_⟩
  · exact (congrArg (fun terms => terms.2.2.2.2) hterms).trans h.total
  · rw [hvoters']
    refine nodup_append.2 ⟨h.nodup, nodup_singleton _, ?_⟩
    rintro _ hv _ hw rfl
    exact hnew (mem_singleton.1 hw ▸ hv)
  · rw [hcast, hvoters', map_append, sum_append, map_singleton, sum_singleton]
    exact Nat.add_le_add h.cast hpower

/-- A transaction adds at most one vote to a proposal, with a weight within the stake at the
start. -/
theorem Outcome.weighed {p : Proposal} (h : Outcome ctx tx s result t) (hp : s.recorded id = some p)
    (hweighed : Weighed start total p)
    (hmore : ∀ v, ¬ late v → v ∉ p.voters → NoMoreStake v start s)
    (hfair : VotesFairly late start id s tx) :
    ∃ p', t.recorded id = some p' ∧ Weighed start total p' ∧ (∀ v ∈ p.voters, v ∈ p'.voters) ∧
      p'.cast ≤ p.cast + (start.stakeAt tx.sender).getD 0 := by
  have unchanged (heq : t.recorded id = s.recorded id) :
      ∃ p', t.recorded id = some p' ∧ Weighed start total p' ∧ (∀ v ∈ p.voters, v ∈ p'.voters) ∧
        p'.cast ≤ p.cast + (start.stakeAt tx.sender).getD 0 :=
    ⟨p, heq.trans hp, hweighed, fun _ hv => hv, Nat.le_add_right _ _⟩
  have hdeliberation : tx.payload.action.isDeliberation = false := by
    have hkind := hfair.kind
    generalize tx.payload.action = action at hkind
    cases action <;> first | rfl | cases hkind
  by_cases hquiet : tx.payload.action.isGovernance = false ∨ result.receipt.success = false
  · exact unchanged ((h.sameOwned hdeliberation hquiet).recorded id)
  cases h with
  | inert | excessive | short | failed => exact absurd (.inr rfl) hquiet
  | done _ hrun =>
    have charged := (sameRecords_charge s tx.sender (gasFee tx ctx.gasConfig)).owned
    cases haction : tx.payload.action with
    | governanceVote proposalId vote =>
      rw [operation, haction] at hrun
      obtain ⟨_, q', hq, -, -, hnew, hadd, rfl⟩ := executeGovernanceVote_ok hrun
      rw [charged.recorded proposalId] at hq
      by_cases hid : proposalId = id
      · subst hid
        obtain rfl := some.inj (hp.symm.trans hq)
        obtain ⟨hlate, hcached⟩ := hfair.votes vote haction
        obtain ⟨account, haccount⟩ :=
          isSome_iff_exists.1 (Std.ExtTreeMap.mem_iff_isSome_getElem?.1 hcached)
        have stake : start.stakeAt tx.sender = some (totalStakeOf account).raw.toNat := by
          rw [stakeAt, haccount]
          rfl
        have power := weight_le p (gasFee tx ctx.gasConfig) stake (hmore tx.sender hlate hnew)
        rw [← getD_some (a := (totalStakeOf account).raw.toNat) (b := 0), ← stake] at power
        have weighed := hweighed.addVote (hfair.voters vote p haction hp) hnew power hadd
        obtain ⟨hcast, hvoters, -⟩ := addVote_spec hadd
        refine ⟨q', ?_, weighed, ?_, ?_⟩
        · rw [recorded_putGovernanceProposal _ _ _ weighed.fits, if_pos rfl]
        · intro _ hv
          rw [hvoters]
          exact mem_append_left _ hv
        · rw [hcast]
          exact Nat.add_le_add_left power _
      · refine unchanged ?_
        unfold recorded
        rw [owned_putGovernanceProposal, if_neg hid]
        exact charged.recorded id
    | _ =>
      refine absurd (.inl ?_) hquiet
      have hkind := hfair.kind
      rw [haction] at hkind ⊢
      first | rfl | cases hkind

/-- So the votes stay within the stake at the start. -/
theorem Outcome.weighing (h : Outcome ctx tx s result t) (hs : Weighing late start id total s)
    (hfair : VotesFairly late start id s tx) : Weighing late start id total t := by
  obtain ⟨p, hp, hweighed, hmore⟩ := hs
  obtain ⟨p', hp', hweighed', hvoters, -⟩ := h.weighed hp hweighed hmore hfair
  refine ⟨p', hp', hweighed', fun v hlate hv => ?_⟩
  have hnew : v ∉ p.voters := fun hmem => hv (hvoters v hmem)
  refine IsTrans.trans _ _ _ (hmore v hlate hnew) (h.noMoreStake hfair.kind
    fun amount haction => ?_)
  rcases hfair.stakes v amount p haction hp with hgiven | hmem
  · exact hlate hgiven
  · exact hnew hmem

/-- A proposal that was made, and what was staked then. -/
theorem Outcome.created {description actionType : String} {paramKey paramValue : Option String}
    {recipient : Option Address} {amount : Option Amount} {sequence : UInt64}
    (h : Outcome ctx tx s result t) (hsuccess : result.receipt.success = true)
    (haction : tx.payload.action = .governancePropose description actionType paramKey paramValue
    recipient amount)
    (htexts : Borsh.Fits description ∧ Borsh.Fits paramKey ∧ Borsh.Fits paramValue)
    (hsequence : nextSequence s = some sequence) :
    ∃ p, t.recorded (newProposalId sequence tx.sender ctx.blockNumber) = some p ∧ Borsh.Fits p ∧
      p.voters = [] ∧ p.cast = 0 ∧
        totalStakedInCache t.toStateSnapshot = some p.totalStakedAtCreation := by
  cases h with
  | inert | excessive | short | failed => cases hsuccess
  | done _ hrun =>
    rw [operation, haction] at hrun
    obtain ⟨action, totalStaked, sequence', s₁, hproposed, htotal, hsequence', same, rfl⟩ :=
      executeGovernancePropose_ok hrun
    have counter : sequence' = sequence := by
      unfold nextSequence at hsequence hsequence'
      rw [show (s.charge tx.sender (gasFee tx ctx.gasConfig)).storage.read .chainMeta
        governanceCounterKey = s.storage.read .chainMeta governanceCounterKey from
          read_note_charge s .governanceCounter tx.sender _, hsequence] at hsequence'
      exact (some.inj hsequence').symm
    subst counter
    obtain ⟨hdescription, hkey, hvalue⟩ := htexts
    have fits : Borsh.Fits
        (draft (newProposalId sequence' tx.sender ctx.blockNumber) tx.sender action description
        ctx.blockNumber totalStaked) :=
      (Proposal.fits_iff _).2 ⟨fits_of_proposedAction hproposed hdescription hkey hvalue,
        hdescription, Nat.two_pow_pos 32⟩
    refine ⟨_, ?_, fits, rfl, rfl, ?_⟩
    · rw [recorded_putGovernanceProposal _ _ _ fits, if_pos rfl]
    · unfold totalStakedInCache at htotal ⊢
      rw [show (s₁.putGovernanceProposal _ _).toStateSnapshot.accounts = s₁.accounts from rfl,
        same.accounts]
      exact htotal

/-- The condition on an event: it is a transaction that votes fairly. -/
def Event.VotesFairly (late : Address → Prop) (start : StateDB) (id : H256) (s : StateDB) :
    Event → Prop
  | .transaction _ tx => Executor.VotesFairly late start id s tx
  | _ => False

/-- Votes on a proposal that was made stay within what was staked then, and each one within what the
voter had staked, in a run of stakes, unstakes and votes by which nobody votes with stake that was
added. -/
theorem weights_le_stake {description actionType : String} {paramKey paramValue : Option String}
    {recipient : Option Address} {amount : Option Amount} {sequence : UInt64} {events : List Event}
    (hcreate : (executeTransactionAt ctx tx : DbM Empty ExecutionResult).run s = some (.ok result,
    start)) (hsuccess : result.receipt.success = true)
    (haction : tx.payload.action = .governancePropose description actionType paramKey paramValue
    recipient amount)
    (htexts : Borsh.Fits description ∧ Borsh.Fits paramKey ∧ Borsh.Fits paramValue)
    (hsequence : nextSequence s = some sequence)
      (hid : newProposalId sequence tx.sender ctx.blockNumber = id)
    (h : Run (Within (fun s event => event.VotesFairly late start id s) fun s event t =>
      event.Step s t) start events t) :
    ∃ p, t.recorded id = some p ∧
      totalStakedInCache start.toStateSnapshot = some p.totalStakedAtCreation ∧
      p.cast ≤ p.totalStakedAtCreation.raw.toNat ∧
      ∀ ctx' tx' result' u p', VotesFairly late start id t tx' →
        (executeTransactionAt ctx' tx' : DbM Empty ExecutionResult).run t = some (.ok result', u) →
        u.recorded id = some p' → p'.cast ≤ p.cast + (start.stakeAt tx'.sender).getD 0 := by
  have creation := outcome_of_executed hcreate
  obtain ⟨p₀, hp₀, hfits, hvoters, hcast, htotal⟩ :=
    creation.created hsuccess haction htexts hsequence
  rw [hid] at hp₀
  have weighing : Weighing late start id p₀.totalStakedAtCreation t := by
    refine h.invariant ?_
      ⟨p₀, hp₀, ⟨hfits, rfl, hvoters ▸ nodup_nil, hcast.trans_le (Nat.zero_le _)⟩,
      fun v _ _ => refl (r := NoMoreStake v) start⟩
    intro _ event _ hstep hs
    cases event with
    | transaction =>
      obtain ⟨hfair, _, hrun⟩ := hstep
      exact (outcome_of_executed hrun).weighing hs hfair
    | release | settle | slash => exact absurd hstep.1 not_false
  obtain ⟨p, hp, hweighed, hmore⟩ := weighing
  rw [← hweighed.total] at htotal
  refine ⟨p, hp, htotal, hweighed.cast.trans (sum_stakeAt_le htotal hweighed.nodup), ?_⟩
  intro _ _ _ _ _ hfair hrun hp'
  obtain ⟨_, hq, -, -, hle⟩ := (outcome_of_executed hrun).weighed hp hweighed hmore hfair
  obtain rfl := some.inj (hq.symm.trans hp')
  exact hle

end Transactions

end Executor

/-! ## On a small state -/

namespace Demo

open Executor

/-- The validator and another address, both with a stake. -/
def electorate : StateDB :=
  staked.putAccount stranger.address { AccountState.default with
    balance := .fromVtt 10
    staking := some
      { StakingState.default with totalStake := .fromVtt 5, selfStake := .fromVtt 5 } }

/-- The validator stakes more and votes. -/
def raising : List (BlockContext × SignedTransaction) :=
  [(context, numbered 1 (.stake key.address (.fromVtt 3))),
    (context, numbered 2 (.governanceVote pauseId .yes))]

/-- The other one votes. -/
def following : List (BlockContext × SignedTransaction) :=
  [(context, strange 0 (.governanceVote pauseId .yes))]

/-- Stake that is added after the creation of a proposal is counted, so that the votes exceed what
was staked. -/
theorem added_stake_counted :
    ∃ start s t p p', Run (fun s event t => Event.Step s event t) electorate
      (eventsOf [(context, proposing)]) start ∧
      Run (fun s event t => Event.Step s event t) start (eventsOf raising) s ∧
      Run (fun s event t => Event.Step s event t) s (eventsOf following) t ∧
      s.recorded pauseId = some p ∧ p.voters = [key.address] ∧ (start.stakeAt key.address).getD 0 <
        p.cast ∧
      t.recorded pauseId = some p' ∧ p'.totalStakedAtCreation.raw.toNat < p'.cast := by
  obtain ⟨start, hstart, hcheck⟩ := exists_successes [(context, proposing)] electorate
    (fun start => (successes raising start).any fun s =>
      (s.recorded pauseId).any
        (fun p => p.voters = [key.address] && (start.stakeAt key.address).getD 0 < p.cast) &&
          (successes following s).any fun t => (t.recorded pauseId).any fun p =>
          p.totalStakedAtCreation.raw.toNat < p.cast) (by decide +kernel)
  simp only [Option.any_eq_true, Bool.and_eq_true, decide_eq_true_eq] at hcheck
  obtain ⟨s, hs, ⟨p, hp, hvoters, hmore⟩, t, ht, p', hp', hover⟩ := hcheck
  exact ⟨start, s, t, p, p', hstart, run_of_successes hs, run_of_successes ht, hp, hvoters,
    hmore, hp', hover⟩

/-- The other one votes, with no stake added. -/
theorem old_stake_within : ∃ start t p, Event.Step electorate
    (.transaction context proposing) start ∧
      Event.Step start (.transaction context (strange 0 (.governanceVote pauseId .yes))) t ∧
      t.recorded pauseId = some p ∧ p.cast ≤ p.totalStakedAtCreation.raw.toNat := by
  obtain ⟨⟨created, start⟩, hcreate, hcheck⟩ : ∃ outcome, (executeTransactionAt context proposing :
      DbM Empty _).run electorate = some outcome ∧
        (outcome.1.toOption.any (·.receipt.success) &&
          (outcome.2.recorded pauseId).all (·.voters.isEmpty) &&
          outcome.2.accounts.contains stranger.address &&
          ((executeTransactionAt context (strange 0 (.governanceVote pauseId .yes)) :
            DbM Empty _).run outcome.2).isSome) = true :=
            (Option.any_eq_true ..).1 (by decide +kernel)
  simp only [Bool.and_eq_true, isSome_iff_exists] at hcheck
  obtain ⟨⟨⟨hsuccess, hvoters⟩, hcached⟩, ⟨_, t⟩, hvote⟩ := hcheck
  obtain ⟨result, rfl, -⟩ := executeTransactionAt_iff.1 hcreate
  obtain ⟨result', rfl, -⟩ := executeTransactionAt_iff.1 hvote
  have step : Event.Step start (.transaction context (strange 0 (.governanceVote pauseId .yes)))
    t := ⟨result', hvote⟩
  have fair : Event.VotesFairly (fun _ => False) start pauseId start
      (.transaction context (strange 0 (.governanceVote pauseId .yes))) := by
    refine ⟨rfl, fun _ _ _ h => (nomatch h), fun _ _ => ⟨not_false, ?_⟩, fun _ p _ hp => ?_⟩
    · exact Std.ExtTreeMap.contains_iff_mem.1 hcached
    · rw [hp, all_some, List.isEmpty_iff] at hvoters
      rw [hvoters]
      decide
  have texts : Borsh.Fits "pause" ∧ Borsh.Fits (none : Option String) ∧
      Borsh.Fits (none : Option String) :=
    ⟨⟨by decide +kernel, fun _ _ => trivial⟩, trivial, trivial⟩
  obtain ⟨p, hp, -, hle, -⟩ := weights_le_stake hcreate hsuccess rfl texts
    (show nextSequence electorate = some 0 by decide +kernel) rfl (.snoc .nil ⟨fair, step⟩)
  exact ⟨start, t, p, ⟨result, hcreate⟩, step, hp, hle⟩

end Demo

end Vtt
