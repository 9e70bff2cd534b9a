import Vtt.Chain.Outcome
import Vtt.State.Kept

/-!
# What every import keeps

Entering an epoch and noting a block write observations and slash, and keep what all code on the
state keeps.
-/

namespace Vtt

open Lib Executor Chain

/-- Evidence that is processed has an effect within every frame. -/
theorem Frame.Linked.processSlashingEvidence {F : Frame} {db : StateDB} (h : F.Linked db db)
    (evidence : List DoubleSignEvidence) (bps : UInt16) (epoch : Epoch) :
    F.Linked (processSlashingEvidence db evidence bps epoch).2
      (processSlashingEvidence db evidence bps epoch).2 := by
  refine List.foldlRecOn (motive := fun acc : List (Address × Amount) × StateDB =>
    F.Linked acc.2 acc.2) _ _ h ?_
  intro _ hacc _ _
  unfold processEvidence
  dsimp only
  split
  · exact hacc
  · split
    · exact hacc.applySlash.2
    · exact hacc.applySlash.2.recordSlash.markSlashingEvidence

namespace Spared

variable {K : Spared}

variable {c : Chain} {provided : Option (List TransactionReceipt)}

section Import

variable {db : StateDB} (h : K.Holds db)
include h

theorem Holds.slashDowntime (slots : UInt32) (thresholdPct : UInt8) (bps : UInt16) (epoch : Epoch)
    (missed : Address × UInt32) :
    K.Holds (slashDowntime slots thresholdPct bps epoch db missed) := by
  unfold Chain.slashDowntime
  dsimp only
  split
  · split
    · exact holds_of_linked h.linked.applySlash.2
    · exact holds_of_linked h.linked.applySlash.2.recordSlash
  · exact h

theorem Holds.closeEpoch (params : ConsensusParams) (vs : ValidatorSet) :
    K.Holds (closeEpoch params vs db) := by
  have taken : K.Holds (db.takeMissedSlotsForEpoch vs.epoch).2 := ⟨K.write _ _ _ rfl h.1, h.2⟩
  unfold Chain.closeEpoch
  dsimp only
  split
  · exact List.foldlRecOn (motive := K.Holds) _ _ taken fun _ h' _ _ => h'.slashDowntime ..
  · exact taken

theorem Holds.processSlashingEvidence (evidence : List DoubleSignEvidence) (bps : UInt16)
    (epoch : Epoch) :
    K.Holds (processSlashingEvidence db evidence bps epoch).2 :=
  holds_of_linked (h.linked.processSlashingEvidence evidence bps epoch)

theorem Holds.recordBlockCommitment (validator : Address) (epoch : UInt64) (slot : UInt32)
    (hash : H256) :
    K.Holds (db.recordBlockCommitment validator epoch slot hash).2 := by
  refine ⟨?_, h.2⟩
  simp only [StateDB.recordBlockCommitment, StateDB.storeBlockCommitments]
  split
  · exact K.write _ _ _ rfl h.1
  · exact h.1

theorem Holds.recordMissedSlot (epoch : UInt64) (validator : Address) :
    K.Holds (db.recordMissedSlot epoch validator) :=
  ⟨K.write _ _ _ rfl h.1, h.2⟩

end Import

theorem Holds.enterEpoch (h : K.Holds c.state) (epoch : Epoch) :
    K.Holds (c.enterEpoch epoch).state := by
  unfold Chain.enterEpoch
  split
  · exact h.closeEpoch ..
  · exact h

/-- Entering an epoch and noting a block keep the property. -/
theorem Holds.noted [Crypto] (h : K.Holds c.state) (header parent : BlockHeader) (epoch : Epoch) :
    K.Holds (c.noted header parent epoch).state := by
  have observed : K.Holds ((c.enterEpoch epoch).observeBlock header epoch).state := by
    have recorded :=
      (h.enterEpoch epoch).recordBlockCommitment header.validator header.epoch
        header.slot header.hash
    unfold observeBlock
    dsimp only
    split
    · exact recorded
    · exact recorded.processSlashingEvidence ..
  exact List.foldlRecOn (motive := K.Holds) _ _ observed fun _ h' _ _ => h'.recordMissedSlot ..

/-! ## Imports -/

/-- A rollback writes caches back. -/
theorem Holds.restore {db : StateDB} (hsupply : ∀ minted burned, K.supply minted burned)
    (h : K.Holds db) (snapshot : StateSnapshot) : K.Holds (db.restore snapshot) :=
  ⟨(Frame.restoreStorage (F := K.frame) ⟨h.1, rfl⟩ snapshot).1, hsupply _ _⟩

variable [Crypto] [Wasm] [Environment]

/-- A block that is executed. -/
theorem Holds.executed {block : Block} {staked : Amount}
    {c₁ : Chain} {parent : BlockHeader} {epoch : Epoch} {receipts : List TransactionReceipt}
    (hsupply : ∀ minted burned, K.supply minted burned) (h : K.Holds c.state)
    (hrun : (runBlock block provided staked).run (c.noted block.header parent epoch) =
      some (.ok receipts, c₁)) : K.Holds c₁.state := by
  obtain ⟨_, -, ⟨-, rfl⟩ | ⟨-, _, rfl, hexec⟩⟩ := runBlock_ok hrun
  · exact h.noted ..
  · exact (h.noted ..).run_settle hsupply hexec

/-- An import that is refused keeps the property, if it says nothing of the counters. -/
theorem Holds.refused {now : UInt64} {block : Block} {c' : Chain} {e : ChainError}
    (hsupply : ∀ minted burned, K.supply minted burned) (h : K.Holds c.state)
    (houtcome : Chain.ImportOutcome now block provided c (.error e) c') : K.Holds c'.state := by
  cases houtcome with
  | refused => exact h
  | unverified => exact h.enterEpoch _
  | @mismatched _ _ _ _ c₁ _ hrun _ =>
    have executed : K.Holds c₁.state := h.executed hsupply hrun
    have flushed : K.Holds c₁.computeRoot.2.state := executed
    exact flushed.restore hsupply _

end Spared

namespace Kept

variable {K : Kept}

theorem storage_writeAll {a : Storage} (h : K.storage a) (column : Column)
    (entries : List (Bytes × Bytes)) :
    K.storage (a.writeAll column entries) := by
  induction entries generalizing a with
  | nil => exact h
  | cons e _ ih => exact ih (K.write column e.1 e.2 h)

theorem Holds.persist {c : Chain} (h : K.Holds c.state) {write : Storage → Storage}
    (hwrite : ∀ a, K.storage a → K.storage (write a)) : K.Holds (c.persist write).state := by
  unfold Chain.persist
  split
  · exact ⟨hwrite _ h.1, h.2⟩
  · exact h

variable [Crypto]

theorem Holds.storeBlock {c : Chain} (h : K.Holds c.state) (block : Block)
    (receipts : List TransactionReceipt) :
    K.Holds (c.storeBlock block receipts).2.state := by
  have persisted : K.Holds (c.persistBlock block receipts).state := by
    refine h.persist fun a ha => K.write _ _ _ (storage_writeAll (storage_writeAll ?_ _ _) _ _)
    exact K.write _ _ _ (K.write _ _ _ ha)
  unfold Chain.storeBlock
  dsimp only
  split
  · exact Holds.persist (c := (c.persistBlock block receipts).insertBlock block) persisted
      fun a ha => K.write _ _ _ (K.write _ _ _ ha)
  · exact persisted

end Kept

end Vtt
