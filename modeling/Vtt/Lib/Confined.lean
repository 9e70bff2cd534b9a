import Vtt.Lib.Exec

/-!
# Confined code

A relation between states is respected by a computation if its runs from related states agree: both
abort, or both return the same and end in related states. Code that respects every relation of a
family carries the proof with it in the type `Confined`; whatever is built from such code with the
operations below respects the family as well, so that nothing has to be proved about the programs
themselves.
-/

namespace Vtt.Lib

variable {ι σ ε ε' α β : Type}

namespace Exec

/-- The outcomes of two runs agree up to a relation on the final states. -/
inductive Agree (r : σ → σ → Prop) : Option (α × σ) → Option (α × σ) → Prop where
  | abort : Agree r none none
  | done {a : α} {s t : σ} : r s t → Agree r (some (a, s)) (some (a, t))

/-- Runs from related states agree. -/
def Respects (r : σ → σ → Prop) (x : Exec σ ε α) : Prop :=
  ∀ ⦃s t⦄, r s t → Agree r (x.run s) (x.run t)

theorem Agree.map {r : σ → σ → Prop} {x y : Option (α × σ)} (h : Agree r x y) (f : α → β) :
    Agree r (x.map fun p => (f p.1, p.2)) (y.map fun p => (f p.1, p.2)) := by
  cases h with
  | abort => exact .abort
  | done h => exact .done h

/-- If one of two agreeing runs ends, so does the other. -/
theorem Agree.exists_right {r : σ → σ → Prop} {x y : Option (α × σ)} {a : α} {s : σ}
    (h : Agree r x y) (hx : x = some (a, s)) : ∃ t, y = some (a, t) ∧ r s t := by
  cases h with
  | abort => cases hx
  | done h =>
    cases hx
    exact ⟨_, rfl, h⟩

namespace Respects

variable {r : σ → σ → Prop}

theorem ofExcept (e : Except ε α) : Respects r (Exec.ofExcept e : Exec σ ε α) :=
  fun _ _ h => .done h

theorem abort : Respects r (Exec.abort : Exec σ ε α) := fun _ _ _ => .abort

theorem act {g : σ → α × σ} (hv : ∀ ⦃s t⦄, r s t → (g s).1 = (g t).1)
    (hg : ∀ ⦃s t⦄, r s t → r (g s).2 (g t).2) :
    Respects r (Exec.act g : Exec σ ε α) := by
  intro _ _ h
  rw [run_act, run_act, hv h]
  exact .done (hg h)

theorem bind {x : Exec σ ε α} {f : α → Exec σ ε β} (hx : Respects r x)
    (hf : ∀ a, Respects r (f a)) :
    Respects r (x >>= f) := by
  intro s t h
  rw [run_bind, run_bind]
  have ha := hx h
  generalize x.run s = o, x.run t = o' at ha ⊢
  cases ha with
  | abort => exact .abort
  | @done a _ _ h' =>
    cases a with
    | error => exact .done h'
    | ok a => exact hf a h'

theorem mapError {x : Exec σ ε α} (f : ε → ε') (hx : Respects r x) :
    Respects r (Exec.mapError f x) :=
  fun _ _ h => (hx h).map _

theorem ignoreError {x : Exec σ ε α} (hx : Respects r x) :
    Respects r (Exec.ignoreError x : Exec σ ε' Unit) :=
  fun _ _ h => (hx h).map fun _ => (Except.ok () : Except ε' Unit)

theorem expect {x : Exec σ ε α} (hx : Respects r x) : Respects r (Exec.expect x : Exec σ ε' α) := by
  intro s t h
  have ha := hx h
  simp only [run, Exec.expect] at ha ⊢
  generalize x s = o, x t = o' at ha ⊢
  cases ha with
  | abort => exact .abort
  | @done a _ _ h' =>
    cases a with
    | error => exact .abort
    | ok => exact .done h'

/-- Code that saves part of the state before a computation and puts it back if that fails. -/
theorem orElseRestore {τ : Type} {x : Exec σ ε α} {save : σ → τ} {restore : τ → σ → σ}
    (hx : Respects r x)
    (hr : ∀ ⦃s t s' t'⦄, r s t → r s' t' → r (restore (save s) s') (restore (save t) t')) :
    Respects r (Exec.orElseRestore save restore x : Exec σ ε' (Except ε α)) := by
  intro s t h
  rw [run_orElseRestore, run_orElseRestore]
  have ha := hx h
  generalize x.run s = o, x.run t = o' at ha ⊢
  cases ha with
  | abort => exact .abort
  | @done a _ _ h' =>
    cases a with
    | error => exact .done (hr h h')
    | ok => exact .done h'

end Respects

end Exec

/-- Code that respects every relation of a family. -/
structure Confined (r : ι → σ → σ → Prop) (ε α : Type) where
  code : Exec σ ε α
  respects : ∀ i, code.Respects (r i)

namespace Confined

variable {r : ι → σ → σ → Prop}

/-- The outcome of confined code started in a state. -/
def run (x : Confined r ε α) (s : σ) : Option (Except ε α × σ) := x.code.run s

/-- A result that was computed without touching the state. -/
def ofExcept (e : Except ε α) : Confined r ε α := ⟨.ofExcept e, fun _ => .ofExcept e⟩

instance : Monad (Confined r ε) where
  pure a := ofExcept (.ok a)
  bind x f := ⟨x.code >>= fun a => (f a).code, fun i => (x.respects i).bind fun a =>
    (f a).respects i⟩

/-- Return with an error. -/
def fail (e : ε) : Confined r ε α := ofExcept (.error e)

/-- Abort the process. -/
def abort : Confined r ε α := ⟨.abort, fun _ => .abort⟩

/-- Read off the state and change it: related states give the same value and stay related. -/
def act (g : σ → α × σ) (hv : ∀ i ⦃s t⦄, r i s t → (g s).1 = (g t).1)
    (hg : ∀ i ⦃s t⦄, r i s t → r i (g s).2 (g t).2) : Confined r ε α :=
  ⟨.act g, fun i => .act (hv i) (hg i)⟩

/-- Read off the state something that related states agree on. -/
def view (g : σ → α) (hg : ∀ i ⦃s t⦄, r i s t → g s = g t) : Confined r ε α :=
  act (fun s => (g s, s)) hg fun _ _ _ h => h

/-- Change the state in a way that keeps related states related. -/
def update (g : σ → σ) (hg : ∀ i ⦃s t⦄, r i s t → r i (g s) (g t)) : Confined r ε Unit :=
  act (fun s => ((), g s)) (fun _ _ _ _ => rfl) hg

/-- Return with an error unless the condition holds. -/
def require (p : Prop) [Decidable p] (e : ε) : Confined r ε Unit :=
  if p then pure () else fail e

/-- The value, or an error if there is none. -/
def okOr (o : Option α) (e : ε) : Confined r ε α :=
  match o with
  | some a => pure a
  | none => fail e

/-- The value, or an abort if there is none. -/
def unwrap (o : Option α) : Confined r ε α :=
  match o with
  | some a => pure a
  | none => abort

/-- Translate the errors of a computation. -/
def mapError (f : ε → ε') (x : Confined r ε α) : Confined r ε' α :=
  ⟨x.code.mapError f, fun i => (x.respects i).mapError f⟩

/-- Run a computation for its effect on the state; its error, if any, is dropped. -/
def ignoreError (x : Confined r ε α) : Confined r ε' Unit :=
  ⟨x.code.ignoreError, fun i => (x.respects i).ignoreError⟩

/-- Run a computation that is known not to fail; an error aborts. -/
def expect (x : Confined r ε α) : Confined r ε' α :=
  ⟨x.code.expect, fun i => (x.respects i).expect⟩

/-- Run a computation; if it fails, put back what was saved of the state before it. -/
def orElseRestore {τ : Type} (save : σ → τ) (restore : τ → σ → σ)
    (hr : ∀ i ⦃s t s' t'⦄, r i s t → r i s' t' → r i (restore (save s) s') (restore (save t) t'))
    (x : Confined r ε α) : Confined r ε' (Except ε α) :=
  ⟨x.code.orElseRestore save restore, fun i => (x.respects i).orElseRestore (hr i)⟩

/-- Run a computation for every element in turn, stopping at the first error. -/
def forEach (xs : List α) (f : α → Confined r ε Unit) : Confined r ε Unit :=
  match xs with
  | [] => pure ()
  | x :: xs => do
    f x
    forEach xs f

/-- Thread an accumulator through a computation for every element in turn. -/
def foldEach (xs : List α) (init : β) (f : β → α → Confined r ε β) : Confined r ε β :=
  match xs with
  | [] => pure init
  | x :: xs => do
    let acc ← f init x
    foldEach xs acc f

theorem pure_bind (a : α) (f : α → Confined r ε β) : (pure a >>= f) = f a := rfl

theorem bind_bind {γ : Type} (x : Confined r ε α) (f : α → Confined r ε β)
    (g : β → Confined r ε γ) : (x >>= f >>= g) = x >>= fun a => f a >>= g := by
  rw [mk.injEq]
  exact Exec.bind_bind ..

/-! ## Running -/

section Run

variable {s s' : σ} {f : α → Confined r ε β}

@[simp] theorem run_pure (a : α) : (pure a : Confined r ε α).run s = some (.ok a, s) := rfl

@[simp] theorem run_fail (e : ε) : (fail e : Confined r ε α).run s = some (.error e, s) := rfl

theorem run_bind_of_ok {x : Confined r ε α} {a : α} (h : x.run s = some (.ok a, s')) :
    (x >>= f).run s = (f a).run s' :=
  Exec.run_bind_of_ok h

theorem run_bind_of_error {x : Confined r ε α} {e : ε} (h : x.run s = some (.error e, s')) :
    (x >>= f).run s = some (.error e, s') :=
  Exec.run_bind_of_error h

theorem run_bind_of_abort {x : Confined r ε α} (h : x.run s = none) : (x >>= f).run s = none :=
  Exec.run_bind_of_abort h

/-- A sequence that does not abort fails in its first part, or its first part returns. -/
theorem run_bind_cases {x : Confined r ε α} {result : Except ε β}
    (h : (x >>= f).run s = some (result, s')) :
    (∃ e, x.run s = some (.error e, s') ∧ result = .error e) ∨
      ∃ a s₁, x.run s = some (.ok a, s₁) ∧ (f a).run s₁ = some (result, s') := by
  rcases hx : x.run s with _ | ⟨e | a, s₁⟩
  · rw [run_bind_of_abort hx] at h
    cases h
  · rw [run_bind_of_error hx] at h
    cases h
    exact .inl ⟨e, rfl, rfl⟩
  · rw [run_bind_of_ok hx] at h
    exact .inr ⟨a, s₁, rfl, h⟩

@[simp] theorem run_view_bind (g : σ → α) (hg : ∀ i ⦃s t⦄, r i s t → g s = g t) :
    (view g hg >>= f).run s = (f (g s)).run s := rfl

@[simp] theorem run_update_bind (g : σ → σ) (hg : ∀ i ⦃s t⦄, r i s t → r i (g s) (g t))
    (f : Unit → Confined r ε β) :
    (update g hg >>= f).run s = (f ()).run (g s) := rfl

@[simp] theorem run_act_bind (g : σ → α × σ) (hv : ∀ i ⦃s t⦄, r i s t → (g s).1 = (g t).1)
    (hg : ∀ i ⦃s t⦄, r i s t → r i (g s).2 (g t).2) : (act g hv hg >>= f).run s = (f (g s).1).run
      (g s).2 := rfl

@[simp] theorem run_okOr_some_bind (a : α) (e : ε) : (okOr (some a) e >>= f).run s = (f a).run s :=
  rfl

@[simp] theorem run_okOr_none_bind (e : ε) : (okOr none e >>= f).run s = some (.error e, s) := rfl

@[simp] theorem run_unwrap_some_bind (a : α) : (unwrap (some a) >>= f).run s = (f a).run s := rfl

theorem run_require_bind {p : Prop} [Decidable p] (e : ε) (f : Unit → Confined r ε β) :
    (require p e >>= f).run s = if p then (f ()).run s else some (.error e, s) := by
  unfold require
  split
  · rfl
  · rfl

end Run

/-- What confined code returned, its parts returned. -/
theorem run_bind_ok {x : Confined r ε α} {s t : σ} {f : α → Confined r ε β} {b : β}
    (h : (x >>= f).run s = some (.ok b, t)) : ∃ a s', x.run s = some (.ok a, s') ∧
      (f a).run s' = some (.ok b, t) :=
  Exec.run_bind_ok h

/-! ## What is returned -/

/-- Whatever the code returns has a property. -/
def Returns (x : Confined r ε α) (p : α → Prop) : Prop :=
  ∀ ⦃s a t⦄, x.run s = some (.ok a, t) → p a

namespace Returns

variable {p : β → Prop}

theorem pure {b : β} (h : p b) : Returns (Pure.pure b : Confined r ε β) p := by
  intro _ _ _ hrun
  rw [run_pure, Option.some.injEq, Prod.mk.injEq, Except.ok.injEq] at hrun
  exact hrun.1 ▸ h

theorem bind {x : Confined r ε α} {f : α → Confined r ε β} (h : ∀ a, (f a).Returns p) :
    (x >>= f).Returns p := by
  intro _ _ _ hrun
  obtain ⟨a, _, -, hrest⟩ := run_bind_ok hrun
  exact h a hrest

theorem ite {c : Prop} [Decidable c] {x y : Confined r ε β} (hx : x.Returns p) (hy : y.Returns p) :
    (if c then x else y).Returns p := by
  split
  · exact hx
  · exact hy

end Returns

/-- Code that respects a family respects every part of the family. -/
def restrict {κ : Type} (f : κ → ι) (x : Confined r ε α) : Confined (fun k => r (f k)) ε α :=
  ⟨x.code, fun k => x.respects (f k)⟩

end Confined

end Vtt.Lib
