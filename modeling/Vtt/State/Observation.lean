import Vtt.State.Methods

/-!
# Noting a block

The chain notes a block before it executes it. Execution and settlement leave alone what was noted,
and noting a block leaves the trie alone.
-/

namespace Vtt

variable {s t : StateDB}

namespace StateDB

/-- Record the block of a slot and count the slots that were skipped before it. -/
def noteBlock (db : StateDB) (validator : Address) (epoch : UInt64) (slot : UInt32) (hash : H256)
    (skipped : List Address) : StateDB :=
  skipped.foldl (fun db v => db.recordMissedSlot epoch v)
    (db.recordBlockCommitment validator epoch slot hash).2

/-- Noting a block does not change the trie. -/
theorem flushedTrie_noteBlock (db : StateDB) {validator : Address} {epoch : UInt64}
    {slot : UInt32} {hash : H256} {skipped : List Address} :
    (db.noteBlock validator epoch slot hash skipped).flushedTrie = db.flushedTrie := by
  induction skipped using List.reverseRecOn with
  | nil =>
    simp only [noteBlock, recordBlockCommitment, List.foldl_nil]
    split <;> rfl
  | append_singleton _ _ ih =>
    rw [noteBlock, List.foldl_concat]
    exact ih

end StateDB

/-- The frame of the code that leaves the observations of a state alone. -/
def SettleFrame.observing (s : StateDB) : SettleFrame where
  val := {
    storage a b := b = a
    observed commitments missed _ _ := commitments = s.blockCommitments ∧ missed = s.missedSlots
    supply _ _ := True
    read _ _ h _ := by rw [h]
    write _ _ _ h _ := by rw [h]
    remove _ h := by rw [h] }
  property _ _ := trivial

theorem linked_observing (s : StateDB) : (SettleFrame.observing s).1.Linked s s :=
  .mk rfl ⟨rfl, rfl⟩ trivial

theorem observed_of_linked {u : StateDB} (h : (SettleFrame.observing s).1.Linked t u) :
    t.blockCommitments = s.blockCommitments ∧ t.missedSlots = s.missedSlots := by
  cases h with
  | mk _ hobserved => exact hobserved

theorem SettleM.run_observed {ε α : Type} (x : SettleM ε α) {r : Except ε α}
    (h : x.run s = some (r, t)) :
    t.blockCommitments = s.blockCommitments ∧ t.missedSlots = s.missedSlots := by
  obtain ⟨_, -, hlinked⟩ := (x.respects (.observing s) (linked_observing s)).exists_right h
  exact observed_of_linked hlinked

end Vtt
