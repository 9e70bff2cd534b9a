import Vtt.Lib.Confined

/-!
# Where code leads

A relation between the state before and the state after that is reflexive and transitive is a
property of code as soon as it is one of every step: it is enough to know it of the methods that the
code is made of. An error does not undo anything, so that the state at an error is related to the
state before as well.
-/

namespace Vtt.Lib

/-- A property of the state before is one of the state after. -/
def Keeps {σ : Type} (I : σ → Prop) (s t : σ) : Prop := I s → I t

instance {σ : Type} (I : σ → Prop) : IsPreorder σ (Keeps I) where
  refl _ := id
  trans _ _ _ h h' := h' ∘ h

namespace Confined

variable {ι σ ε ε' α β : Type} {r : ι → σ → σ → Prop} {R : σ → σ → Prop}

/-- Every run leads to a related state. -/
def Moves (R : σ → σ → Prop) (x : Confined r ε α) : Prop :=
  ∀ ⦃s result t⦄, x.run s = some (result, t) → R s t

namespace Moves

theorem update {g : σ → σ} {hg : ∀ i ⦃s t⦄, r i s t → r i (g s) (g t)} (h : ∀ s, R s (g s)) :
    Moves R (Confined.update g hg : Confined r ε Unit) := by
  intro s _ _ hrun
  cases hrun
  exact h s

theorem act {g : σ → α × σ} {hv : ∀ i ⦃s t⦄, r i s t → (g s).1 = (g t).1}
    {hg : ∀ i ⦃s t⦄, r i s t → r i (g s).2 (g t).2} (h : ∀ s, R s (g s).2) :
    Moves R (Confined.act g hv hg : Confined r ε α) := by
  intro s _ _ hrun
  cases hrun
  exact h s

theorem ite {c : Prop} [Decidable c] {x y : Confined r ε α} (hx : Moves R x) (hy : Moves R y) :
    Moves R (if c then x else y) := by
  split
  · exact hx
  · exact hy

theorem mapError {f : ε → ε'} {x : Confined r ε α} (h : Moves R x) :
    Moves R (Confined.mapError f x) := by
  intro _ _ _ hrun
  obtain ⟨_, hx, heq⟩ := Option.map_eq_some_iff.1 hrun
  cases heq
  exact h hx

theorem ignoreError {x : Confined r ε α} (h : Moves R x) :
    Moves R (Confined.ignoreError x : Confined r ε' Unit) := by
  intro _ _ _ hrun
  obtain ⟨_, hx, heq⟩ := Option.map_eq_some_iff.1 hrun
  cases heq
  exact h hx

theorem bind [IsTrans σ R] {x : Confined r ε α} {f : α → Confined r ε β} (hx : Moves R x)
    (hf : ∀ a, Moves R (f a)) :
    Moves R (x >>= f) := by
  intro _ _ _ hrun
  obtain ⟨_, hfirst, -⟩ | ⟨a, _, hfirst, hrest⟩ := run_bind_cases hrun
  · exact hx hfirst
  · exact IsTrans.trans _ _ _ (hx hfirst) (hf a hrest)

theorem ofExcept [Std.Refl R] (e : Except ε α) :
    Moves R (Confined.ofExcept e : Confined r ε α) := by
  intro s _ _ hrun
  cases hrun
  exact Std.Refl.refl s

theorem pure [Std.Refl R] (a : α) : Moves R (Pure.pure a : Confined r ε α) := ofExcept _

theorem fail [Std.Refl R] (e : ε) : Moves R (Confined.fail e : Confined r ε α) := ofExcept _

theorem view [Std.Refl R] {g : σ → α} {hg : ∀ i ⦃s t⦄, r i s t → g s = g t} :
    Moves R (Confined.view g hg : Confined r ε α) :=
  act fun s => Std.Refl.refl s

theorem require [Std.Refl R] {p : Prop} [Decidable p] {e : ε} :
    Moves R (Confined.require p e : Confined r ε Unit) :=
  ite (pure ()) (fail e)

theorem okOr [Std.Refl R] (o : Option α) {e : ε} :
    Moves R (Confined.okOr o e : Confined r ε α) := by
  cases o with
  | none => exact fail e
  | some a => exact pure a

theorem unwrap [Std.Refl R] (o : Option α) : Moves R (Confined.unwrap o : Confined r ε α) := by
  cases o with
  | none =>
    intro _ _ _ hrun
    cases hrun
  | some a => exact pure a

/-- A requirement in front. -/
theorem guarded [IsPreorder σ R] {p : Prop} [Decidable p] {e : ε} {x : Confined r ε α}
    (h : Moves R x) :
    Moves R (Confined.require p e >>= fun _ => x) :=
  bind require fun _ => h

/-- A look-up in front. -/
theorem found [IsPreorder σ R] {γ : Type} {g : σ → γ} {hg : ∀ i ⦃s t⦄, r i s t → g s = g t}
    {o : γ → Option α} {e : γ → ε} {f : γ → α → Confined r ε β} (h : ∀ c a, Moves R (f c a)) :
    Moves R (Confined.view g hg >>= fun c => Confined.okOr (o c) (e c) >>= f c) :=
  bind view fun c => bind (okOr _) (h c)

theorem forEach [IsPreorder σ R] {f : α → Confined r ε Unit} (xs : List α)
    (h : ∀ x ∈ xs, Moves R (f x)) :
    Moves R (Confined.forEach xs f) := by
  induction xs with
  | nil => exact pure ()
  | cons x _ ih =>
    exact bind (h x (List.mem_cons_self ..)) fun _ => ih fun y hy => h y (List.mem_cons_of_mem _ hy)

theorem foldEach [IsPreorder σ R] {f : β → α → Confined r ε β} (xs : List α) {init : β}
    (h : ∀ b, ∀ x ∈ xs, Moves R (f b x)) : Moves R (Confined.foldEach xs init f) := by
  induction xs generalizing init with
  | nil => exact pure init
  | cons x _ ih =>
    exact bind (h init x (List.mem_cons_self ..)) fun _ => ih fun b y hy =>
      h b y (List.mem_cons_of_mem _ hy)

end Moves

/-- Every run that fails leaves a related state. -/
def Fails (R : σ → σ → Prop) (x : Confined r ε α) : Prop :=
  ∀ ⦃s e t⦄, x.run s = some (.error e, t) → R s t

theorem Fails.bind [IsTrans σ R] {x : Confined r ε α} {f : α → Confined r ε β} (hx : Moves R x)
    (hf : ∀ a, Fails R (f a)) : Fails R (x >>= f) := by
  intro _ _ _ hrun
  obtain ⟨_, hfirst, -⟩ | ⟨a, _, hfirst, hrest⟩ := run_bind_cases hrun
  · exact hx hfirst
  · exact IsTrans.trans _ _ _ (hx hfirst) (hf a hrest)

end Confined

end Vtt.Lib
