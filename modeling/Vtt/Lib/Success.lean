import Vtt.Lib.Moves

/-!
# Runs that succeed

A run that returns has passed all its checks. Each lemma takes the first statement off such a run
and says what the statement found.
-/

namespace Vtt.Lib

/-- A part of the state is the same before and after. -/
def Unchanged {σ α : Type} (part : σ → α) (s t : σ) : Prop := part t = part s

instance {σ α : Type} (part : σ → α) : IsPreorder σ (Unchanged part) where
  refl _ := rfl
  trans _ _ _ h h' := h'.trans h

/-- A computation that returns, its first step taken off. -/
theorem ok_of_bind {ε α β : Type} {x : Except ε α} {f : α → Except ε β} {b : β}
    (h : (x >>= f) = .ok b) :
    ∃ a, x = .ok a ∧ f a = .ok b := by
  cases x with
  | error => cases h
  | ok a => exact ⟨a, rfl, h⟩

namespace Confined

variable {ι σ ε ε' α β : Type} {r : ι → σ → σ → Prop} {s t : σ} {b : β} {o : Option α} {e : ε}
  {x : Confined r ε α} {f : α → Confined r ε β}

variable {p : Prop}

/-- Code that returns after it read a value of the state. -/
theorem ok_of_view {g : σ → α} {hg : ∀ i ⦃s t⦄, r i s t → g s = g t}
    (h : (Confined.view g hg >>= f).run s = some (.ok b, t)) : (f (g s)).run s = some (.ok b, t) :=
      h

/-- A check passes if its condition holds. -/
theorem run_require_iff [Decidable p] {u : Unit} :
    (Confined.require p e : Confined r ε Unit).run s = some (.ok u, t) ↔ p ∧ s = t := by
  unfold Confined.require
  split
  · exact ⟨fun h => ⟨‹p›, (Prod.mk.inj (Option.some.inj h)).2⟩, fun h => h.2 ▸ rfl⟩
  · exact ⟨nofun, fun h => absurd h.1 ‹_›⟩

theorem ok_of_require [Decidable p] {f : Unit → Confined r ε β}
    (h : (require p e >>= f).run s = some (.ok b, t)) :
    p ∧ (f ()).run s = some (.ok b, t) := by
  rw [run_require_bind] at h
  split at h
  · exact ⟨‹p›, h⟩
  · cases h

theorem ok_of_okOr (h : (okOr o e >>= f).run s = some (.ok b, t)) :
    ∃ a, o = some a ∧ (f a).run s = some (.ok b, t) := by
  cases o with
  | none => cases h
  | some a => exact ⟨a, rfl, h⟩

theorem ok_of_unwrap (h : (unwrap o >>= f).run s = some (.ok b, t)) :
    ∃ a, o = some a ∧ (f a).run s = some (.ok b, t) := by
  cases o with
  | none => cases h
  | some a => exact ⟨a, rfl, h⟩

theorem ok_of_ofExcept {x : Except ε α} (h : (ofExcept x >>= f).run s = some (.ok b, t)) :
    ∃ a, x = .ok a ∧ (f a).run s = some (.ok b, t) := by
  cases x with
  | error => cases h
  | ok a => exact ⟨a, rfl, h⟩

theorem ok_of_mapError {x : Confined r ε β} {g : ε → ε'}
    (h : (x.mapError g).run s = some (.ok b, t)) :
    x.run s = some (.ok b, t) := by
  obtain ⟨⟨_ | _, _⟩, hx, heq⟩ := Option.map_eq_some_iff.1 h
  · cases heq
  · cases heq
    exact hx

theorem ok_of_expect {x : Confined r ε β}
    (h : (x.expect : Confined r ε' β).run s = some (.ok b, t)) :
    x.run s = some (.ok b, t) := by
  change x.code.expect s = _ at h
  unfold Exec.expect at h
  split at h
  · rename_i hx
    cases h
    exact hx
  · cases h

/-- A run that returns without changing anything. -/
theorem ok_of_pure {a : β} (h : (pure a : Confined r ε β).run s = some (.ok b, t)) :
    a = b ∧ s = t := by
  cases h
  exact ⟨rfl, rfl⟩

/-- Code that returns right after its first part ends where that part ends. -/
theorem ok_of_last {x : Confined r ε α} {g : α → β}
    (h : (x >>= fun a => pure (g a)).run s = some (.ok b, t)) :
    ∃ a, x.run s = some (.ok a, t) ∧ g a = b := by
  obtain ⟨a, _, hx, h⟩ := run_bind_ok h
  obtain ⟨hb, rfl⟩ := ok_of_pure h
  exact ⟨a, hx, hb⟩

/-! ## Where values matter -/

variable {R R' : σ → σ → Prop}

theorem Moves.mono (h : Moves R x) (hle : ∀ ⦃s t⦄, R s t → R' s t) : Moves R' x :=
  fun _ _ _ hrun => hle (h hrun)

/-- Every run from a state leads to a related state. -/
def MovesAt (R : σ → σ → Prop) (s : σ) (x : Confined r ε α) : Prop :=
  ∀ ⦃result t⦄, x.run s = some (result, t) → R s t

theorem Moves.at (h : Moves R x) (s : σ) : MovesAt R s x := fun _ _ hrun => h hrun

/-- Code that leaves the state as it is. -/
abbrev Still (x : Confined r ε α) : Prop := Moves (Unchanged id) x

theorem ok_of_still (hx : Still x) (h : (x >>= f).run s = some (.ok b, t)) :
    ∃ a, x.run s = some (.ok a, s) ∧ (f a).run s = some (.ok b, t) := by
  obtain ⟨a, s', hrun, hrest⟩ := run_bind_ok h
  obtain rfl : s' = s := hx hrun
  exact ⟨a, hrun, hrest⟩

/-- Code that goes on with a value of the state. -/
theorem Moves.view_bind {g : σ → α} {hg : ∀ i ⦃s t⦄, r i s t → g s = g t}
    (h : ∀ s, MovesAt R s (f (g s))) :
    Moves R (Confined.view g hg >>= f) := fun s _ _ hrun => h s hrun

/-- Code after some that leads somewhere. -/
theorem MovesAt.bind [IsTrans σ R] (hx : MovesAt R s x)
    (hf : ∀ a t, x.run s = some (.ok a, t) → MovesAt R t (f a)) :
    MovesAt R s (x >>= f) := by
  intro _ _ hrun
  obtain ⟨_, hfirst, -⟩ | ⟨a, t, hfirst, hrest⟩ := run_bind_cases hrun
  · exact hx hfirst
  · exact IsTrans.trans _ _ _ (hx hfirst) (hf a t hfirst hrest)

/-- Code after some that leaves the state as it is. -/
theorem MovesAt.still_bind [IsPreorder σ R] (hx : Still x)
    (hf : ∀ a, x.run s = some (.ok a, s) → MovesAt R s (f a)) :
    MovesAt R s (x >>= f) := by
  refine .bind (fun _ t hrun => ?_) fun a t hrun => ?_
  · obtain rfl : t = s := hx hrun
    exact refl t
  · obtain rfl : t = s := hx hrun
    exact hf a hrun

theorem MovesAt.update {g : σ → σ} {hg : ∀ i ⦃s t⦄, r i s t → r i (g s) (g t)} (h : R s (g s)) :
    MovesAt R s (Confined.update g hg : Confined r ε Unit) := by
  intro _ _ hrun
  cases hrun
  exact h

/-- Code after a check that succeeded. -/
theorem MovesAt.require_bind [Std.Refl R] [Decidable p] {f : Unit → Confined r ε β}
    (h : p → MovesAt R s (f ())) :
    MovesAt R s (Confined.require p e >>= f) := by
  intro _ _ hrun
  rw [run_require_bind] at hrun
  split at hrun
  · exact h ‹p› hrun
  · cases hrun
    exact refl s

/-- Code after a value that must be there. -/
theorem MovesAt.okOr_bind [Std.Refl R] (h : ∀ a, o = some a → MovesAt R s (f a)) :
    MovesAt R s (Confined.okOr o e >>= f) := by
  intro _ _ hrun
  cases o with
  | none =>
    cases hrun
    exact refl s
  | some a => exact h a rfl hrun

@[inherit_doc MovesAt.okOr_bind]
theorem MovesAt.unwrap_bind (h : ∀ a, o = some a → MovesAt R s (f a)) :
    MovesAt R s (Confined.unwrap o >>= f) := by
  intro _ _ hrun
  cases o with
  | none => cases hrun
  | some a => exact h a rfl hrun

@[inherit_doc MovesAt.okOr_bind]
theorem Moves.unwrap_bind (h : ∀ a, o = some a → Moves R (f a)) :
    Moves R (Confined.unwrap o >>= f) :=
      fun s _ _ hrun => MovesAt.unwrap_bind (fun a ha => (h a ha).at s) hrun

end Confined

end Vtt.Lib
