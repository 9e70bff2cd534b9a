import Vtt.Consensus.Engine

/-!
# Finality votes

The tracker of finality votes: who voted for a block hash, and the last block that got votes of more
than two thirds of the validators. It is told the number of validators from outside and does not
look at who a voter is.
-/

namespace Vtt

open Lib

/-- A finality vote of a validator. -/
structure FinalityVote where
  voter : Address
  blockHash : H256
  blockNumber : BlockNumber
deriving DecidableEq

/-- The tracker of finality votes. -/
structure FinalityTracker where
  votes : FinMap H256 (FinSet Address)
  blockNumbers : FinMap H256 BlockNumber
  finalizedNumber : BlockNumber
  finalizedHash : H256
  validatorCount : Nat

namespace FinalityTracker

variable {hash : H256} {voter : Address}

def new (validatorCount : Nat) : FinalityTracker := ⟨∅, ∅, 0, .zero, validatorCount⟩

def setValidatorCount (t : FinalityTracker) (count : Nat) : FinalityTracker :=
  { t with validatorCount := count }

/-- The number of votes that makes a block final. -/
def threshold (t : FinalityTracker) : Nat :=
  if t.validatorCount = 0 then 0 else t.validatorCount * 2 / 3 + 1

/-- Forget the votes for blocks at or below the finalized height. -/
def cleanup (t : FinalityTracker) : FinalityTracker :=
  let old := t.blockNumbers.filter fun _ number => number ≤ t.finalizedNumber
  { t with
    votes := t.votes.filter fun hash _ => !old.contains hash
    blockNumbers := t.blockNumbers.filter fun hash _ => !old.contains hash }

/-- Those who voted for a block. -/
def votersOf (t : FinalityTracker) (hash : H256) : FinSet Address := (t.votes[hash]?).getD ∅

/-- The tracker with a vote noted. -/
def note (t : FinalityTracker) (vote : FinalityVote) : FinalityTracker :=
  { t with
    blockNumbers := t.blockNumbers.insert vote.blockHash vote.blockNumber
    votes := t.votes.insert vote.blockHash ((t.votersOf vote.blockHash).insert vote.voter) }

/-- Submit a vote; says whether its block became final. -/
def submitVote (t : FinalityTracker) (vote : FinalityVote) : Bool × FinalityTracker :=
  if vote.blockNumber ≤ t.finalizedNumber then
    (false, t)
  else
    let noted := t.note vote
    if noted.threshold ≤ (noted.votersOf vote.blockHash).size then
      (true, { noted with
        finalizedNumber := vote.blockNumber
        finalizedHash := vote.blockHash }.cleanup)
    else
      (false, noted)

/-! ## What a vote changes -/

section Votes

variable {t : FinalityTracker} {vote : FinalityVote}

theorem votersOf_note (t : FinalityTracker) (vote : FinalityVote) : (t.note vote).votersOf hash =
      if vote.blockHash = hash then (t.votersOf hash).insert vote.voter else t.votersOf hash := by
  unfold votersOf note
  rw [get_insert]
  by_cases h : vote.blockHash = hash
  · subst h
    simp [votersOf]
  · rw [if_neg h, if_neg h]

/-- Forgetting votes adds no voter. -/
theorem mem_votersOf_of_cleanup (h : voter ∈ (t.cleanup).votersOf hash) :
    voter ∈ t.votersOf hash := by
  unfold votersOf cleanup at h
  rw [get_filter_key] at h
  split at h
  · exact h
  · simp at h

/-- The three things a vote can do. -/
theorem submitVote_cases (t : FinalityTracker) (vote : FinalityVote) :
    (vote.blockNumber ≤ t.finalizedNumber ∧ t.submitVote vote = (false, t)) ∨ t.finalizedNumber <
      vote.blockNumber ∧
        ((t.threshold ≤ ((t.note vote).votersOf vote.blockHash).size ∧ t.submitVote vote = (true,
            { t.note vote with
              finalizedNumber := vote.blockNumber
              finalizedHash := vote.blockHash }.cleanup)) ∨
          (((t.note vote).votersOf vote.blockHash).size < t.threshold ∧
          t.submitVote vote = (false, t.note vote))) := by
  unfold submitVote
  split
  · exact .inl ⟨‹_›, rfl⟩
  · refine .inr ⟨UInt64.not_le.1 ‹_›, ?_⟩
    dsimp only
    split
    · exact .inl ⟨‹_›, rfl⟩
    · exact .inr ⟨Nat.not_le.1 ‹_›, rfl⟩

/-- A voter after a vote voted before, or by it. -/
theorem mem_votersOf_of_submitVote (h : voter ∈ (t.submitVote vote).2.votersOf hash) :
    voter ∈ t.votersOf hash ∨ (hash = vote.blockHash ∧ voter = vote.voter) := by
  have of_note (h : voter ∈ (t.note vote).votersOf hash) :
      voter ∈ t.votersOf hash ∨ (hash = vote.blockHash ∧ voter = vote.voter) := by
    rw [votersOf_note] at h
    split at h
    · rename_i hhash
      rw [Std.ExtTreeSet.mem_insert, Std.LawfulEqOrd.compare_eq_iff_eq] at h
      exact h.symm.imp_right fun heq => ⟨hhash.symm, heq.symm⟩
    · exact .inl h
  rcases submitVote_cases t vote with ⟨-, hstep⟩ | ⟨-, ⟨-, hstep⟩ | ⟨-, hstep⟩⟩
  · rw [hstep] at h
    exact .inl h
  · rw [hstep] at h
    have h := mem_votersOf_of_cleanup h
    exact of_note h
  · rw [hstep] at h
    exact of_note h

/-- A vote reports its own block as final, with enough voters. -/
theorem submitVote_final (h : (t.submitVote vote).1 = true) : (t.submitVote vote).2.finalizedHash =
    vote.blockHash ∧
      (t.submitVote vote).2.finalizedNumber = vote.blockNumber ∧
      t.threshold ≤ ((t.votersOf vote.blockHash).insert vote.voter).size := by
  rcases submitVote_cases t vote with ⟨-, hstep⟩ | ⟨-, ⟨henough, hstep⟩ | ⟨-, hstep⟩⟩
  · rw [hstep] at h
    cases h
  · rw [votersOf_note, if_pos rfl] at henough
    rw [hstep]
    exact ⟨rfl, rfl, henough⟩
  · rw [hstep] at h
    cases h

/-- A vote that reports nothing leaves the finalized block alone. -/
theorem submitVote_not_final (h : (t.submitVote vote).1 = false) :
    (t.submitVote vote).2.finalizedHash = t.finalizedHash ∧
      (t.submitVote vote).2.finalizedNumber = t.finalizedNumber := by
  rcases submitVote_cases t vote with ⟨-, hstep⟩ | ⟨-, ⟨-, hstep⟩ | ⟨-, hstep⟩⟩
  · rw [hstep]
    exact ⟨rfl, rfl⟩
  · rw [hstep] at h
    cases h
  · rw [hstep]
    exact ⟨rfl, rfl⟩

end Votes

end FinalityTracker

end Vtt
