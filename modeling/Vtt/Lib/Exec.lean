import Mathlib.Tactic.Common

/-!
# Fallible computations on a mutable state

`Exec σ ε α` is code that runs on a state it may change, and then returns a value, returns an error,
or aborts the process. An error does not undo what was changed before it: the state at the point of
the error is part of the result.
-/

namespace Vtt.Lib

/-- Code over a state `σ` that returns `α`, fails with `ε`, or aborts (`none`). -/
def Exec (σ ε α : Type) : Type :=
  σ → Option (Except ε α × σ)

namespace Exec

variable {σ ε ε' α β : Type}

/-- The outcome of a computation started in a state. -/
def run (x : Exec σ ε α) (s : σ) : Option (Except ε α × σ) :=
  x s

instance : Monad (Exec σ ε) where
  pure a := fun s => some (.ok a, s)
  bind x f := fun s =>
    match x s with
    | none => none
    | some (.error e, s') => some (.error e, s')
    | some (.ok a, s') => f a s'

/-- Return with an error. -/
def fail (e : ε) : Exec σ ε α :=
  fun s => some (.error e, s)

/-- Abort the process. -/
def abort : Exec σ ε α :=
  fun _ => none

/-- Read off the state. -/
def view (g : σ → α) : Exec σ ε α :=
  fun s => some (.ok (g s), s)

/-- Change the state. -/
def update (g : σ → σ) : Exec σ ε Unit :=
  fun s => some (.ok (), g s)

/-- Read off the state and change it. -/
def act (g : σ → α × σ) : Exec σ ε α :=
  fun s => some (.ok (g s).1, (g s).2)

/-- Return with an error unless the condition holds. -/
def require (p : Prop) [Decidable p] (e : ε) : Exec σ ε Unit :=
  if p then pure () else fail e

/-- The value, or an abort if there is none. -/
def unwrap (o : Option α) : Exec σ ε α :=
  match o with
  | some a => pure a
  | none => abort

/-- A result that was computed without touching the state. -/
def ofExcept (r : Except ε α) : Exec σ ε α :=
  fun s => some (r, s)

/-- Hand the result of a computation, error or not, to the code after it. -/
def attempt (x : Exec σ ε α) : Exec σ ε' (Except ε α) :=
  fun s => (x s).map fun r => (.ok r.1, r.2)

/-- Translate the errors of a computation. -/
def mapError (f : ε → ε') (x : Exec σ ε α) : Exec σ ε' α :=
  fun s => (x s).map fun r => (r.1.mapError f, r.2)

/-- Run a computation for its effect on the state; its error, if any, is dropped. -/
def ignoreError (x : Exec σ ε α) : Exec σ ε' Unit :=
  fun s => (x s).map fun r => (.ok (), r.2)

/-- Run a computation; if it fails, put back what was saved of the state before it. -/
def orElseRestore {τ : Type} (save : σ → τ) (restore : τ → σ → σ) (x : Exec σ ε α) :
    Exec σ ε' (Except ε α) :=
  fun s => (x s).map fun r =>
    match r.1 with
    | .ok a => (.ok (.ok a), r.2)
    | .error e => (.ok (.error e), restore (save s) r.2)

/-- Run a computation that is known not to fail; an error aborts. -/
def expect (x : Exec σ ε α) : Exec σ ε' α :=
  fun s =>
    match x s with
    | some (.ok a, s') => some (.ok a, s')
    | _ => none

/-- A computation that has no errors, among others that have. -/
def infallible (x : Exec σ Empty α) : Exec σ ε α :=
  x.mapError Empty.elim

/-- Run a computation on a part of a larger state. -/
def zoom {τ : Type} (get : τ → σ) (set : σ → τ → τ) (x : Exec σ ε α) : Exec τ ε α :=
  fun t => (x (get t)).map fun r => (r.1, set r.2 t)

/-! ## Running -/

section Run

variable (s : σ)

@[simp] theorem run_pure (a : α) : (pure a : Exec σ ε α).run s = some (.ok a, s) := rfl

theorem run_bind (x : Exec σ ε α) (f : α → Exec σ ε β) : (x >>= f).run s = (x.run s).bind fun r =>
      match r.1 with
      | .ok a => (f a).run r.2
      | .error e => some (.error e, r.2) := by
  simp only [run, bind]
  rcases x s with _ | ⟨_ | _, _⟩ <;> rfl

@[simp] theorem run_fail (e : ε) : (fail e : Exec σ ε α).run s = some (.error e, s) := rfl

@[simp] theorem run_view (g : σ → α) : (view g : Exec σ ε α).run s = some (.ok (g s), s) := rfl

@[simp] theorem run_update (g : σ → σ) : (update g : Exec σ ε Unit).run s = some (.ok (), g s) :=
  rfl

@[simp] theorem run_act (g : σ → α × σ) : (act g : Exec σ ε α).run s =
    some (.ok (g s).1, (g s).2) := rfl

theorem run_require_pos {p : Prop} [Decidable p] {e : ε} (hp : p) :
    (require p e : Exec σ ε Unit).run s = some (.ok (), s) := by
  unfold require
  rw [if_pos hp]
  rfl

@[simp] theorem run_attempt (x : Exec σ ε α) :
    (attempt x : Exec σ ε' (Except ε α)).run s = (x.run s).map fun r => (.ok r.1, r.2) := rfl

@[simp] theorem run_mapError (f : ε → ε') (x : Exec σ ε α) :
    (mapError f x).run s = (x.run s).map fun r => (r.1.mapError f, r.2) := rfl

@[simp] theorem run_ignoreError (x : Exec σ ε α) :
    (ignoreError x : Exec σ ε' Unit).run s = (x.run s).map fun r => (.ok (), r.2) := rfl

@[simp] theorem run_orElseRestore {τ : Type} (save : σ → τ) (restore : τ → σ → σ) (x : Exec σ ε α) :
    (orElseRestore save restore x : Exec σ ε' (Except ε α)).run s = (x.run s).map fun r =>
      match r.1 with
      | .ok a => (.ok (.ok a), r.2)
      | .error e => (.ok (.error e), restore (save s) r.2) := rfl

@[simp] theorem run_zoom {τ : Type} (get : τ → σ) (set : σ → τ → τ) (x : Exec σ ε α) (t : τ) :
    (zoom get set x).run t = (x.run (get t)).map fun r => (r.1, set r.2 t) := rfl

end Run

/-- A computation without errors returns, if it does not abort. -/
theorem run_infallible_ok {s s' : σ} {x : Exec σ Empty α} {r : Except ε α}
    (h : (infallible x).run s = some (r, s')) :
    ∃ a, r = .ok a ∧ x.run s = some (.ok a, s') := by
  simp only [infallible, run_mapError, Option.map_eq_some_iff, Prod.mk.injEq] at h
  obtain ⟨⟨_ | a, _⟩, hx, hr, rfl⟩ := h
  · contradiction
  · exact ⟨a, hr.symm, hx⟩

theorem run_infallible_of_ok {s s' : σ} {x : Exec σ Empty α} {a : α}
    (h : x.run s = some (.ok a, s')) :
    (infallible x : Exec σ ε α).run s = some (.ok a, s') := by
  rw [infallible, run_mapError, h]
  rfl

/-- A sequence does not depend on how it is put together. -/
theorem bind_bind {γ : Type} (x : Exec σ ε α) (f : α → Exec σ ε β) (g : β → Exec σ ε γ) :
    (x >>= f >>= g) = x >>= fun a => f a >>= g := by
  funext s
  simp only [bind]
  rcases x s with _ | ⟨_ | _, _⟩ <;> rfl

section Sequencing

variable {s s' : σ} {x : Exec σ ε α} {f : α → Exec σ ε β}

/-- Sequencing after a computation that returns. -/
theorem run_bind_of_ok {a : α} (h : x.run s = some (.ok a, s')) :
    (x >>= f).run s = (f a).run s' := by
  rw [run_bind, h]
  rfl

/-- Sequencing after a computation that fails. -/
theorem run_bind_of_error {e : ε} (h : x.run s = some (.error e, s')) : (x >>= f).run s =
    some (.error e, s') := by
  rw [run_bind, h]
  rfl

/-- Sequencing after a computation that aborts. -/
theorem run_bind_of_abort (h : x.run s = none) : (x >>= f).run s = none := by
  rw [run_bind, h]
  rfl

/-- A sequence that returns is two computations that return. -/
theorem run_bind_ok {b : β} (h : (x >>= f).run s = some (.ok b, s')) :
    ∃ a s₁, x.run s = some (.ok a, s₁) ∧ (f a).run s₁ = some (.ok b, s') := by
  rw [run_bind] at h
  rcases hx : x.run s with _ | ⟨_ | a, s₁⟩
  · simp [hx] at h
  · simp [hx] at h
  · exact ⟨a, s₁, rfl, by simpa [hx] using h⟩

/-- A sequence that fails does so in its first part or in its second. -/
theorem run_bind_error {e : ε} (h : (x >>= f).run s = some (.error e, s')) :
    x.run s = some (.error e, s') ∨
      ∃ a s₁, x.run s = some (.ok a, s₁) ∧ (f a).run s₁ = some (.error e, s') := by
  rw [run_bind] at h
  rcases hx : x.run s with _ | ⟨_ | a, s₁⟩
  · simp [hx] at h
  · left
    simpa [hx] using h
  · right
    exact ⟨a, s₁, rfl, by simpa [hx] using h⟩

theorem run_require_bind {p : Prop} [Decidable p] {e : ε} {f : Unit → Exec σ ε β} :
    (require p e >>= f).run s = if p then (f ()).run s else some (.error e, s) := by
  unfold require
  split
  · rfl
  · rfl

@[simp] theorem run_view_bind (g : σ → α) : (view g >>= f).run s = (f (g s)).run s := rfl

@[simp] theorem run_update_bind (g : σ → σ) (f : Unit → Exec σ ε β) :
    (update g >>= f).run s = (f ()).run (g s) := rfl

@[simp] theorem run_act_bind (g : σ → α × σ) : (act g >>= f).run s = (f (g s).1).run (g s).2 := rfl

@[simp] theorem run_ofExcept_ok_bind (a : α) : (ofExcept (.ok a) >>= f).run s = (f a).run s := rfl

@[simp] theorem run_ofExcept_error_bind (e : ε) : (ofExcept (.error e) >>= f).run s =
    some (.error e, s) := rfl

@[simp] theorem run_unwrap_some_bind (a : α) : (unwrap (some a) >>= f).run s = (f a).run s := rfl

@[simp] theorem run_unwrap_none_bind : (unwrap none >>= f).run s = none := rfl

/-- Code that does not abort finds what it unwraps. -/
theorem run_unwrap_bind {o : Option α} {r : Except ε β × σ} (h : (unwrap o >>= f).run s = some r) :
    ∃ a, o = some a ∧ (f a).run s = some r := by
  cases o with
  | none => cases h
  | some a => exact ⟨a, rfl, h⟩

end Sequencing

end Exec

end Vtt.Lib
