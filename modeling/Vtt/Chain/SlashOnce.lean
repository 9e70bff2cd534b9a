import Vtt.Chain.Kept
import Vtt.Executor.SlashRate
import Vtt.Lib.Once

/-!
# One slash per slot

Evidence of double signing reaches the state in two ways: the chain finds it itself, or a
transaction submits it. Both look up the offender, the epoch and the slot among those that were
acted on, and both add them when they have taken something.
-/

namespace Vtt

open Lib Std.ExtTreeSet

/-- What evidence is kept under. -/
def DoubleSignEvidence.key (evidence : DoubleSignEvidence) : SlotKey :=
  (evidence.offender, evidence.headerA.epoch, evidence.headerA.slot)

namespace Executor

open StateDB

variable {r : Except ExecutionError (List Log)}

/-- The slot of evidence, if the stake of the offender was reduced. -/
def slotReduced (before after : StateDB) (evidence : DoubleSignEvidence) : List SlotKey :=
  if stakeOf after evidence.offender < stakeOf before evidence.offender then [evidence.key] else []

/-- The slots for which a list of evidence reduces stakes. -/
def slotsReduced (bps : UInt16) (epoch : UInt64) : StateDB → List DoubleSignEvidence → List SlotKey
  | _, [] => []
  | db, evidence :: rest =>
    slotReduced db (processEvidence db evidence bps epoch).2 evidence ++
      slotsReduced bps epoch (processEvidence db evidence bps epoch).2 rest

/-- A way for evidence to reach a state: a transaction, or a list that the chain has found. -/
inductive SlashCall where
  | submit (ctx : BlockContext) (tx : SignedTransaction)
  | process (evidence : List DoubleSignEvidence) (bps : UInt16) (epoch : UInt64)

/-! ## Slots that are acted on once -/

/-- Evidence for a slot was acted on. -/
def Seen (db : StateDB) (key : SlotKey) : Prop := key ∈ db.slashingSeen

theorem seen_iff {db : StateDB} {evidence : DoubleSignEvidence} : Seen db evidence.key ↔
    db.slashingEvidenceSeen evidence.offender evidence.headerA.epoch evidence.headerA.slot = true :=
  mem_iff_contains

section Fields

variable (db : StateDB)

@[simp] theorem slashingSeen_applySlash (validator : Address) (amount : Amount) :
    (db.applySlash validator amount).2.slashingSeen = db.slashingSeen := by
  unfold applySlash
  dsimp only
  split
  · rfl
  · split
    · rfl
    · split
      · rfl
      · rfl

theorem slashingSeen_slashNoted (evidence : DoubleSignEvidence) (bps : UInt16) (epoch : UInt64) :
    (slashNoted db evidence bps epoch).slashingSeen = db.slashingSeen.insert evidence.key := by
  show ((slashFor db evidence bps).2.slashingSeen.insert evidence.key) = _
  rw [slashFor, slashingSeen_applySlash]

end Fields

section Marks

variable {s t : StateDB} {evidence : DoubleSignEvidence}

theorem slotReduced_of_stakeOf (h : stakeOf t evidence.offender = stakeOf s evidence.offender) :
    slotReduced s t evidence = [] := by
  rw [slotReduced, h]
  exact if_neg (BitVec.lt_irrefl _)

/-- What is noted was not acted on before. -/
theorem marksOnce_slashNoted (h : Actionable s evidence) (bps : UInt16) (epoch : UInt64) :
    MarksOnce Seen s (slashNoted s evidence bps epoch)
      (slotReduced s (slashNoted s evidence bps epoch) evidence) := by
  have hseen := slashingSeen_slashNoted s evidence bps epoch
  have kept : ∀ key, Seen s key → Seen (slashNoted s evidence bps epoch) key := by
    intro _ hkey
    rw [Seen, hseen]
    exact mem_insert.2 (.inr hkey)
  unfold slotReduced
  split
  · refine .of_new (fun hkey => ?_) ?_ kept
    · exact Bool.false_ne_true (h.unseen.symm.trans (seen_iff.1 hkey))
    · exact mem_insert_self
  · exact .of_kept kept

/-- A slash that takes nothing of a stake leaves it as it is. -/
theorem stakeOf_of_isZero {validator : Address} {amount : Amount}
    (hstake : (stakeOf s validator).raw ≠ 0)
    (hzero : (s.applySlash validator amount).1.isZero = true) :
    stakeOf (s.applySlash validator amount).2 validator = stakeOf s validator := by
  have hpos : (stakeOf s validator).raw.toNat ≠ 0 := fun h => hstake (BitVec.eq_of_toNat_eq h)
  have hnone : (s.applySlash validator amount).1.raw.toNat = 0 := by
    rw [Amount.isZero_iff.1 hzero]
    rfl
  cases hstaking : (s.getAccount validator).staking with
  | none => exact absurd (by simp [stakeOf, totalStakeOf, hstaking, Amount.zero]) hstake
  | some =>
    have hleft := toNat_stakeOf_applySlash s validator amount
    rcases applySlash_of_staking amount hstaking with ⟨-, _, -⟩ | ⟨-, -, _, -⟩
    · have hsame : (stakeOf (s.applySlash validator amount).2 validator).raw.toNat =
          (stakeOf s validator).raw.toNat := by omega
      exact congrArg Amount.mk (BitVec.eq_of_toNat_eq hsame)
    · omega

/-- Evidence that the chain finds marks its slot if a stake was reduced. -/
theorem marksOnce_processEvidence (s : StateDB) (evidence : DoubleSignEvidence) (bps : UInt16)
    (epoch : UInt64) :
    MarksOnce Seen s (processEvidence s evidence bps epoch).2
      (slotReduced s (processEvidence s evidence bps epoch).2 evidence) := by
  rcases processEvidence_state s evidence bps epoch with ⟨ha, heq⟩ | ⟨-, heq⟩
  · rw [heq]
    split
    · -- nothing was taken, and nothing is noted
      rename_i hzero
      have hsame : stakeOf (slashFor s evidence bps).2 evidence.offender =
          stakeOf s evidence.offender :=
        stakeOf_of_isZero ha.stake hzero
      rw [slotReduced_of_stakeOf hsame]
      exact .of_kept fun key hkey => by rwa [Seen, slashFor, slashingSeen_applySlash]
    · exact marksOnce_slashNoted ha bps epoch
  · rw [heq, slotReduced_of_stakeOf rfl]
    exact .of_kept fun _ => id

/-- A list of evidence is processed one after the other. -/
theorem processSlashingEvidence_state (evidence : List DoubleSignEvidence) (bps : UInt16)
    (epoch : UInt64) :
    (processSlashingEvidence s evidence bps epoch).2 =
      evidence.foldl (fun db e => (processEvidence db e bps epoch).2) s := by
  suffices h : ∀ acc : List (Address × Amount) × StateDB, (evidence.foldl (fun acc e =>
      (acc.1 ++ (processEvidence acc.2 e bps epoch).1.toList,
        (processEvidence acc.2 e bps epoch).2)) acc).2 =
        evidence.foldl (fun db e => (processEvidence db e bps epoch).2) acc.2 from h ([], s)
  induction evidence with
  | nil => exact fun _ => rfl
  | cons _ _ ih => exact fun acc => ih _

theorem marksOnce_processSlashingEvidence (s : StateDB) (evidence : List DoubleSignEvidence)
    (bps : UInt16) (epoch : UInt64) : MarksOnce Seen s
      (processSlashingEvidence s evidence bps epoch).2 (slotsReduced bps epoch s evidence) := by
  rw [processSlashingEvidence_state]
  induction evidence generalizing s with
  | nil => exact .of_kept fun _ => id
  | cons e _ ih => exact (marksOnce_processEvidence s e bps epoch).append (ih _)

end Marks

section Calls

variable [Crypto] [Wasm] [Environment]

/-- The slot for which the transaction of a piece of evidence reduces a stake. -/
def slotSubmitted (before after : StateDB) (bytes : Bytes) : List SlotKey :=
  match (Borsh.tryFromSlice bytes : Option DoubleSignEvidence) with
  | some evidence => slotReduced before after evidence
  | none => []

/-- The calls by which evidence reaches a state, with the slots for which a stake was reduced. -/
inductive SlashStep (s : StateDB) : SlashCall × List SlotKey → StateDB → Prop where
  | submit {ctx : BlockContext} {tx : SignedTransaction} {bytes : Bytes} {result : ExecutionResult}
      {t : StateDB} : tx.payload.action = .submitSlashingEvidence bytes →
      (executeTransactionAt ctx tx : DbM Empty _).run s = some (.ok result, t) →
      SlashStep s (.submit ctx tx, slotSubmitted s t bytes) t
  | process (evidence : List DoubleSignEvidence) (bps : UInt16) (epoch : UInt64) :
      SlashStep s (.process evidence bps epoch, slotsReduced bps epoch s evidence)
        (processSlashingEvidence s evidence bps epoch).2

section Transactions

variable {ctx : BlockContext} {tx : SignedTransaction} {s t : StateDB} {result : ExecutionResult}
  {bytes : Bytes}

omit [Crypto] [Wasm] [Environment] in
/-- A transaction that leaves stakes and slots alone. -/
theorem marksOnce_of_same (hstake : ∀ address, stakeOf t address = stakeOf s address)
    (hseen : t.slashingSeen = s.slashingSeen) : MarksOnce Seen s t (slotSubmitted s t bytes) := by
  have hnone : slotSubmitted s t bytes = [] := by
    unfold slotSubmitted
    split
    · exact slotReduced_of_stakeOf (hstake _)
    · rfl
  rw [hnone]
  exact .of_kept fun key hkey => by rwa [Seen, hseen]

/-- The operation of the transaction acts on its evidence, or leaves the state as it is. -/
theorem operation_submit (haction : tx.payload.action = .submitSlashingEvidence bytes)
    (h : (operation ctx tx).run s = some (r, t)) :
    (∃ evidence, Borsh.tryFromSlice bytes = some evidence ∧ Actionable s evidence ∧
      t = slashNoted s evidence 500 evidence.headerA.epoch) ∨ t = s := by
  rw [operation, haction] at h
  have hrun : (executeSubmitSlashingEvidence tx.sender bytes ctx.blockNumber).run s = some (r, t) :=
    h
  cases hdecode : (Borsh.tryFromSlice bytes : Option DoubleSignEvidence) with
  | none =>
    rw [executeSubmitSlashingEvidence, hdecode, Confined.run_okOr_none_bind] at hrun
    exact .inr (Prod.mk.inj (Option.some.inj hrun)).2.symm
  | some evidence =>
    rcases submitSlashingEvidence_state hdecode hrun with ⟨ha, heq⟩ | ⟨-, heq⟩
    · exact .inl ⟨evidence, rfl, ha, heq⟩
    · exact .inr heq

/-- The operation of the transaction on the state after the sender was charged. -/
theorem marksOnce_operation {fee : Amount}
    (haction : tx.payload.action = .submitSlashingEvidence bytes)
    (h : (operation ctx tx).run (s.charge tx.sender fee) = some (r, t)) :
    MarksOnce Seen s t (slotSubmitted s t bytes) := by
  have hstake := stakeOf_charge s tx.sender fee
  have hseen := slashingSeen_charge s tx.sender fee
  rcases operation_submit haction h with ⟨evidence, hdecode, ha, rfl⟩ | rfl
  · have hmarks := marksOnce_slashNoted ha 500 evidence.headerA.epoch
    have hcharged : MarksOnce Seen s (s.charge tx.sender fee) [] := .of_kept fun key hkey => by
      rwa [Seen, hseen]
    simp only [slotSubmitted, hdecode, slotReduced] at hmarks ⊢
    rw [hstake] at hmarks
    exact hcharged.append hmarks
  · exact marksOnce_of_same hstake hseen

/-- In memory, the transaction marks the slot of its evidence if it reduces a stake. -/
theorem Outcome.marksOnce (h : Outcome ctx tx s result t) (hmemory : s.storage = none)
    (haction : tx.payload.action = .submitSlashingEvidence bytes) : MarksOnce Seen s t
      (slotSubmitted s t bytes) := by
  cases h with
  | inert | excessive => exact marksOnce_of_same (fun _ => rfl) rfl
  | short => exact marksOnce_of_same (stakeOf_charge _ _ _) (slashingSeen_charge ..)
  | failed _ hrun =>
    refine marksOnce_of_same (fun address => ?_) (slashingSeen_charge ..)
    rw [stakeOf_charge, stakeOf, getAccount_restored hmemory hrun, stakeOf]
  | done _ hrun => exact marksOnce_operation haction hrun

theorem SlashStep.marksOnce {label : SlashCall × List SlotKey} (hmemory : s.storage = none)
    (h : SlashStep s label t) :
    t.storage = none ∧ MarksOnce Seen s t label.2 := by
  have memory : Kept.memory.Holds s := ⟨hmemory, trivial⟩
  cases h with
  | submit haction hrun =>
    refine ⟨(memory.run hrun).1, ?_⟩
    exact (outcome_of_executed hrun).marksOnce hmemory haction
  | process evidence bps epoch =>
    refine ⟨?_, marksOnce_processSlashingEvidence s evidence bps epoch⟩
    exact (Spared.Holds.processSlashingEvidence (K := Kept.memory.spared) memory
      evidence bps epoch).1

/-- In memory, however evidence is submitted and found, at most one call reduces the stake of an
offender for a slot. -/
theorem slashed_once {calls : List (SlashCall × List SlotKey)} (hmemory : s.storage = none)
    (h : Run SlashStep s calls t) : (calls.flatMap (·.2)).Nodup :=
  (MarksOnce.of_run SlashStep.marksOnce h hmemory).nodup

end Transactions

end Calls

end Executor

namespace Demo

open Executor

/-- The evidence is found twice, then submitted, and reduces the stake once. -/
theorem staked_once : ∃ calls t, staked.storage = none ∧ Run SlashStep staked calls t ∧
    calls.flatMap (·.2) = [doubleSigned.key] ∧ (calls.flatMap (·.2)).Nodup := by
  obtain ⟨_, t, hrun, hcheck⟩ := exists_executed context
    (numbered 0 (.submitSlashingEvidence (Borsh.serialize doubleSigned)))
    (processSlashingEvidence staked [doubleSigned, doubleSigned] 500 0).2
    (fun _ t => slotSubmitted (processSlashingEvidence staked [doubleSigned,
      doubleSigned] 500 0).2 t (Borsh.serialize doubleSigned) = []) (by decide +kernel)
  have hfound : slotsReduced 500 0 staked [doubleSigned, doubleSigned] = [doubleSigned.key] := by
    decide +kernel
  have hsteps :=
    (Run.nil.snoc (SlashStep.process [doubleSigned, doubleSigned] 500 0)).snoc
      (SlashStep.submit rfl hrun)
  refine ⟨_, t, rfl, hsteps, ?_, slashed_once rfl hsteps⟩
  simp only [List.nil_append, List.cons_append, List.flatMap_cons, List.flatMap_nil,
    List.append_nil, hfound, of_decide_eq_true hcheck]

end Demo

end Vtt
