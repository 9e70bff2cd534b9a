import Vtt.Chain.SlashOnce
import Vtt.Executor.Trace

/-!
# Evidence that is acted on

Only the transaction that submits evidence of double signing adds to the evidence that was acted on,
and only the slot of its evidence. Every other transaction, the release of stake and the settlement
of a block leave it as it is.
-/

namespace Vtt

open Lib Std.ExtTreeSet

/-- A transaction that submits evidence. -/
def TransactionAction.isEvidence : TransactionAction → Bool
  | .submitSlashingEvidence _ => true
  | _ => false

namespace Executor

open Confined StateDB

variable {key : SlotKey}

/-- The evidence that was acted on is the same. -/
def SameSeen (s t : StateDB) : Prop := t.slashingSeen = s.slashingSeen

instance : IsPreorder StateDB SameSeen where
  refl _ := rfl
  trans _ _ _ h h' := Eq.trans h' h

theorem sameSeen_putOwnershipWith (s : StateDB) (record : OwnershipRecord)
    (prevTotal newTotal : Amount) :
    SameSeen s (s.putOwnershipWith record prevTotal newTotal) := by
  rfl

/-- No operation but that of evidence acts on evidence. -/
theorem dealing_sameSeen : Dealing SameSeen fun _ => True where
  aside _ _ h := h.seen
  addBalance _ _ := .found fun _ _ => .update fun _ => rfl
  subBalance _ _ _ := .found fun _ _ => .update fun _ => rfl
  putOwnership s _ _ _ := sameSeen_putOwnershipWith s ..
  putPoolRaw _ _ _ := rfl
  setCachedAsset _ _ _ := rfl

/-- Nothing that was acted on is forgotten, and a slot is not acted on. -/
structure Spares (key : SlotKey) (s t : StateDB) : Prop where
  kept : ∀ other, Seen s other → Seen t other
  unmarked : Seen t key → Seen s key

instance (key : SlotKey) : IsPreorder StateDB (Spares key) where
  refl _ := ⟨fun _ => id, id⟩
  trans _ _ _ h h' :=
    ⟨fun other hseen => h'.kept other (h.kept other hseen),
      fun hseen => h.unmarked (h'.unmarked hseen)⟩

theorem Spares.of_sameSeen {s t : StateDB} (h : SameSeen s t) : Spares key s t := by
  constructor
  · intro _ hseen
    rwa [Seen, h]
  · intro hseen
    rwa [Seen, h] at hseen

theorem spares_slashNoted {evidence : DoubleSignEvidence} (hne : evidence.key ≠ key) (s : StateDB)
    (bps : UInt16) (epoch : UInt64) : Spares key s (slashNoted s evidence bps epoch) := by
  have hseen := slashingSeen_slashNoted s evidence bps epoch
  constructor
  · intro _ hother
    rw [Seen, hseen]
    exact mem_insert.2 (.inr hother)
  · intro hmem
    rw [Seen, hseen, mem_insert, Std.LawfulEqCmp.compare_eq_iff_eq] at hmem
    exact hmem.resolve_left hne

section Transactions

variable {ctx : BlockContext} {tx : SignedTransaction} {s t : StateDB}
  {result : ExecutionResult}

theorem Successive.spares {es : List Execution} (h : Successive s es t)
    (hes : ∀ e ∈ es, Spares key e.before e.after) :
    Spares key s t := by
  induction h with
  | nil => exact refl _
  | cons _ ih =>
    exact IsTrans.trans _ _ _ (hes _ List.mem_cons_self)
      (ih fun e he => hes e (List.mem_cons_of_mem _ he))

variable [Crypto] [Wasm] [Environment]

theorem sameSeen_operation {r : Except ExecutionError (List Log)}
    (hkind : tx.payload.action.isEvidence = false) (h : (operation ctx tx).run s = some (r, t)) :
    SameSeen s t := by
  have reforms : ∀ ⦃s t⦄, Reforms s t → SameSeen s t := fun _ _ h => h.seen
  refine dealing_sameSeen.executeAction (fun _ _ _ => rfl)
    ⟨trivial, fun _ _ _ _ _ _ => trivial, fun _ _ _ h => reforms h.toReforms,
      fun _ _ _ h => reforms h.toReforms, ?_, fun _ _ _ _ _ => rfl, ?_⟩ (fun _ _ _ _ => rfl) h
  · intro _ _ _ _ _ _ _ _ _ _
    exact Moves.at (dealing_sameSeen.runAssetAction reforms fun _ _ => trivial) _
  · intro _ haction
    rw [haction] at hkind
    cases hkind

/-- A transaction without evidence, whatever becomes of it, acts on none. -/
theorem Outcome.sameSeen (h : Outcome ctx tx s result t)
    (hkind : tx.payload.action.isEvidence = false) :
    SameSeen s t := by
  cases h with
  | inert | excessive => rfl
  | short | failed => exact slashingSeen_charge ..
  | done _ hrun => exact (sameSeen_operation hkind hrun).trans (slashingSeen_charge ..)

/-- A transaction that has nothing to say about a slot. -/
def Unrelated (key : SlotKey) (tx : SignedTransaction) : Prop :=
  ∀ bytes evidence, tx.payload.action = .submitSlashingEvidence bytes →
    Borsh.tryFromSlice bytes = some evidence → DoubleSignEvidence.key evidence ≠ key

/-- A transaction acts at most on the slot of its evidence. -/
theorem Outcome.spares (h : Outcome ctx tx s result t) (hother : Unrelated key tx) :
    Spares key s t := by
  by_cases hkind : tx.payload.action.isEvidence = false
  · exact .of_sameSeen (h.sameSeen hkind)
  cases h with
  | inert | excessive => exact refl s
  | short | failed => exact .of_sameSeen (slashingSeen_charge ..)
  | done _ hrun =>
    obtain ⟨bytes, haction⟩ : ∃ bytes, tx.payload.action = .submitSlashingEvidence bytes := by
      cases haction : tx.payload.action with
      | submitSlashingEvidence bytes => exact ⟨bytes, rfl⟩
      | _ => exact absurd (by rw [haction]; rfl) hkind
    refine IsTrans.trans _ _ _
      (.of_sameSeen (slashingSeen_charge s tx.sender (gasFee tx ctx.gasConfig))) ?_
    rcases operation_submit haction hrun with ⟨evidence, hdecode, -, rfl⟩ | rfl
    · exact spares_slashNoted (hother bytes evidence haction hdecode) ..
    · exact refl _

/-- The transactions of a block. -/
theorem spares_of_executeTransactions {ε : Type} {limit totalGas total : UInt64}
    {txs : List SignedTransaction} {receipts rs : List TransactionReceipt}
    (htxs : ∀ tx ∈ txs, Unrelated key tx)
    (h : (executeTransactions ctx limit txs receipts totalGas : DbM ε _).run s =
      some (.ok (rs, total), t)) :
    Spares key s t := by
  refine (executions_of_run h).1.spares fun e he => ?_
  obtain ⟨hmem, _, houtcome⟩ := outcome_of_mem_executions he
  exact houtcome.spares (htxs _ hmem)

end Transactions

end Executor

end Vtt
