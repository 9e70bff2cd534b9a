import Vtt.Demo
import Vtt.Executor.Slashing

/-!
# Slashing for double signing

Evidence of double signing is two headers of a validator for one slot. Neither the transaction that
submits evidence nor the import that finds it in two blocks looks at the signatures of the headers,
although the consensus engine has a check of evidence that does.
-/

namespace Vtt

open Lib Executor StateDB
open Borsh (serialize tryFromSlice)

/-- Both headers carry a signature of the validator they name. -/
def DoubleSignEvidence.Signed [Crypto] (e : DoubleSignEvidence) : Prop :=
  e.headerA.Authentic ∧ e.headerB.Authentic

section DoubleSign

/-- Noting a block changes nothing that a slash depends on. -/
theorem slashable_recordBlockCommitment_iff (db : StateDB) (validator : Address) (epoch : UInt64)
    (slot : UInt32) (hash : H256) (e : DoubleSignEvidence) (bps : UInt16) :
    Slashable (db.recordBlockCommitment validator epoch slot hash).2 e bps ↔
      Slashable db e bps := by
  have stake : stakeOf (db.recordBlockCommitment validator epoch slot hash).2 e.offender =
      stakeOf db e.offender := by
    rw [stakeOf, getAccount_recordBlockCommitment, stakeOf]
  constructor
  · rintro ⟨hvalid, hunseen, hnonzero⟩
    exact ⟨hvalid, hunseen, by rwa [stake] at hnonzero⟩
  · rintro ⟨hvalid, hunseen, _⟩
    exact ⟨hvalid, hunseen, by rwa [stake]⟩

variable [Crypto]

namespace Chain

/-- The known header of another block at the slot of a block. -/
def rival (c : Chain) (header : BlockHeader) : Option BlockHeader :=
  c.conflicting header c.state.blockCommitments[(header.validator, header.epoch, header.slot)]?

/-- The part of a stake that the chain slashes for double signing. -/
def doubleSignBps (c : Chain) : UInt16 :=
  c.state.getSlashDoubleSignBpsOverride.getD c.consensus.params.slashDoubleSignBps

omit [Crypto] in
theorem doubleSignBps_recordBlockCommitment (c : Chain) (validator : Address) (epoch : UInt64)
    (slot : UInt32) (hash : H256) :
    (c.withState (c.state.recordBlockCommitment validator epoch slot hash).2).doubleSignBps =
      c.doubleSignBps := by
  have hkey : observationKey .chainMeta (paramKey "slash_double_sign_bps") = false :=
    observationKey_append _ (by decide)
  simp only [doubleSignBps, getSlashDoubleSignBpsOverride, getParamNat,
    getParamRaw, withState, read_recordBlockCommitment _ _ _ _ _ hkey]

/-- A block without a rival is noted. -/
theorem observeBlock_state_of_none {c : Chain} {header : BlockHeader} (h : c.rival header = none)
    (epoch : Epoch) :
    (c.observeBlock header epoch).state =
      (c.state.recordBlockCommitment header.validator header.epoch header.slot header.hash).2 := by
  rw [rival] at h
  simp only [observeBlock, recordBlockCommitment, h, withState]

/-- A block with a rival is noted, and the two are evidence. -/
theorem observeBlock_state_of_some {c : Chain} {header prior : BlockHeader}
    (h : c.rival header = some prior) (epoch : Epoch) : (c.observeBlock header epoch).state =
      (processEvidence
      (c.state.recordBlockCommitment header.validator header.epoch header.slot header.hash).2
        ⟨prior, header⟩ c.doubleSignBps epoch).2 := by
  rw [← c.doubleSignBps_recordBlockCommitment header.validator header.epoch header.slot header.hash]
  rw [rival] at h
  simp only [observeBlock, recordBlockCommitment, h, withState]
  rfl

/-- Noting a block reduces a stake exactly if the block has a rival and the two are slashed for. -/
theorem stakeReduced_observeBlock_iff (c : Chain) (header : BlockHeader) (epoch : Epoch) :
    StakeReduced c.state (c.observeBlock header epoch).state ↔
      ∃ prior, c.rival header = some prior ∧
        Slashable c.state ⟨prior, header⟩ c.doubleSignBps := by
  have recorded (s : StateDB) : StakeReduced c.state s ↔ StakeReduced
      (c.state.recordBlockCommitment header.validator header.epoch header.slot header.hash).2
      s := by
    simp only [StakeReduced, stakeOf, getAccount_recordBlockCommitment]
  cases hrival : c.rival header with
  | none =>
    rw [observeBlock_state_of_none hrival]
    simpa using not_stakeReduced_of_getAccount fun a => getAccount_recordBlockCommitment _ _ _ _ _ a
  | some =>
    rw [observeBlock_state_of_some hrival, recorded, processEvidence_reduces_iff,
      slashable_recordBlockCommitment_iff]
    simp

/-- Counting missed slots changes no stake. -/
theorem stakeReduced_noted_iff (c : Chain) (header parent : BlockHeader) (epoch : Epoch) :
    StakeReduced (c.enterEpoch epoch).state (c.noted header parent epoch).state ↔
      ∃ prior, (c.enterEpoch epoch).rival header = some prior ∧
        Slashable (c.enterEpoch epoch).state ⟨prior,
        header⟩ (c.enterEpoch epoch).doubleSignBps := by
  rw [← stakeReduced_observeBlock_iff _ _ epoch]
  refine stakeReduced_congr fun address => ?_
  have counted : ∀ (leaders : List Address) (db : StateDB),
      (leaders.foldl (fun db v => db.recordMissedSlot header.epoch v) db).getAccount address =
        db.getAccount address := by
    intro leaders
    induction leaders with
    | nil => exact fun _ => rfl
    | cons _ _ ih =>
      intro _
      rw [List.foldl_cons, ih, getAccount_recordMissedSlot]
  exact counted _ _

end Chain

variable [Wasm] [Environment]

/-- What can be slashed for is slashed for with every signature. So a stake is reduced for signed
headers only, in a state where no evidence can be slashed for and nowhere else. The first part is
about submitted evidence, the second about the evidence that an import finds while it notes a
block. -/
theorem signed_iff_nothing_slashable (hcrypto : Crypto.Refutable) :
    (∀ (db : StateDB) (sender : Address) (number timestamp nonce gasLimit : UInt64),
      (∀ (e : DoubleSignEvidence) r db',
        (executeAction sender (.submitSlashingEvidence (serialize e)) number timestamp nonce
          gasLimit).run db = some (r, db') → StakeReduced db db' → e.Signed) ↔
        ∀ e, ¬ Slashable db e 500) ∧
    (∀ (c : Chain) (epoch : Epoch),
      (∀ header parent, StakeReduced (c.enterEpoch epoch).state
          (c.noted header parent epoch).state →
        ∃ prior, (c.enterEpoch epoch).rival header = some prior ∧
          DoubleSignEvidence.Signed ⟨prior, header⟩) ↔
        ∀ header prior, (c.enterEpoch epoch).rival header = some prior →
          ¬ Slashable (c.enterEpoch epoch).state ⟨prior, header⟩
            (c.enterEpoch epoch).doubleSignBps) := by
  constructor
  · intro db sender number timestamp nonce gasLimit
    have reduces (e : DoubleSignEvidence) {r db'} (hrun : (executeAction sender
        (.submitSlashingEvidence (serialize e)) number timestamp nonce gasLimit).run db =
          some (r, db')) : StakeReduced db db' ↔ Slashable db e 500 :=
      submitSlashingEvidence_reduces_iff (Borsh.tryFromSlice_serialize e e.fits) _ _ hrun
    constructor
    · intro h e hslash
      obtain ⟨signature, hforged⟩ := hcrypto.exists_not_authentic e.headerA
      -- neither the validity nor the stake depends on the signature
      let forged : DoubleSignEvidence := ⟨e.headerA.withSignature signature, e.headerB⟩
      obtain ⟨r, db', hrun⟩ := run_submitSlashingEvidence sender (serialize forged) number db
      have hreduced := (reduces forged hrun).2 ⟨hslash.valid, hslash.unseen, hslash.nonzero⟩
      exact hforged (h forged r db' hrun hreduced).1
    · intro h e r db' hrun hreduced
      exact absurd ((reduces e hrun).1 hreduced) (h e)
  · intro c epoch
    constructor
    · intro h header prior hrival hslash
      obtain ⟨signature, hforged⟩ := hcrypto.exists_not_authentic header
      have hreduced := (c.stakeReduced_noted_iff (header.withSignature signature) prior epoch).2
        ⟨prior, hrival, hslash.valid, hslash.unseen, hslash.nonzero⟩
      obtain ⟨_, -, -, hsigned⟩ := h _ prior hreduced
      exact hforged hsigned
    · intro h header parent hreduced
      obtain ⟨prior, hrival, hslash⟩ := (c.stakeReduced_noted_iff header parent epoch).1 hreduced
      exact absurd hslash (h header prior hrival)

end DoubleSign

/-! ## Headers that nobody signed -/

namespace Demo

open Chain

/-- Two headers for the first slot, with nothing in their signatures. -/
def forgedEvidence (genesis : BlockHeader) : DoubleSignEvidence :=
  ⟨headerOn 10 genesis 2000 .zero, headerOn 10 genesis 3000 .zero⟩

/-- The headers can be slashed for right after the genesis. -/
theorem exists_forged : ∃ c genesis, Reached c ∧ Slashable c.state (forgedEvidence genesis) 500 ∧
    (forgedEvidence genesis).headerA.hash ≠ .zero := by
  obtain ⟨_, c, genesis, _, hstart, -, -, hcheck⟩ := exists_grown (fun _ => []) (fun c genesis _ =>
      let e := forgedEvidence genesis
      e.isValid && !c.state.slashingEvidenceSeen e.offender e.headerA.epoch e.headerA.slot &&
        decide ((calculateDoubleSignSlash (stakeOf c.state e.offender) 500).raw ≠ 0) &&
        decide (e.headerA.hash ≠ .zero))
    (by decide +kernel)
  simp only [Bool.and_eq_true, decide_eq_true_eq, Bool.not_eq_true'] at hcheck
  obtain ⟨⟨⟨hvalid, hunseen⟩, hnonzero⟩, hhash⟩ := hcheck
  exact ⟨c, genesis, ⟨c, [], hstart.started, .nil⟩, ⟨hvalid, hunseen, hnonzero⟩, hhash⟩

/-- In that state stake can be lost for headers that nobody signed. -/
theorem genesis_not_signed : ∃ c, Reached c ∧ ¬ ∀ (e : DoubleSignEvidence) r db',
    (executeAction .zero (.submitSlashingEvidence (serialize e)) 1 0 0 0).run c.state =
      some (r, db') → StakeReduced c.state db' → e.Signed := by
  obtain ⟨c, _, hc, hslash, -⟩ := exists_forged
  exact ⟨c, hc, fun h => ((signed_iff_nothing_slashable refutable).1 c.state ..).1 h _ hslash⟩

/-- A validator loses stake for two headers it did not sign. -/
theorem reduced_not_signed : ¬ ∀ c, Reached c →
      ∀ sender bytes number timestamp nonce gasLimit r db',
          (executeAction sender (.submitSlashingEvidence bytes) number timestamp nonce gasLimit).run
            c.state = some (r, db') → StakeReduced c.state db' →
        ∃ e : DoubleSignEvidence, tryFromSlice bytes = some e ∧ e.isValid ∧ e.Signed := by
  intro h
  obtain ⟨c, genesis, hc, hslash, hhash⟩ := exists_forged
  have decode : tryFromSlice (serialize (forgedEvidence genesis)) = some (forgedEvidence genesis) :=
    Borsh.tryFromSlice_serialize _ (forgedEvidence genesis).fits
  obtain ⟨r, db', hrun⟩ :=
    run_submitSlashingEvidence .zero (serialize (forgedEvidence genesis)) 1 c.state
  have hreduced := (submitSlashingEvidence_reduces_iff decode _ _ hrun).2 hslash
  obtain ⟨_, hdecode, -, hsigned, -⟩ := h c hc .zero
    (serialize (forgedEvidence genesis)) 1 0 0 0 r db' hrun hreduced
  rw [decode] at hdecode
  cases hdecode
  exact not_authentic_of_zero rfl hhash hsigned

end Demo

end Vtt
