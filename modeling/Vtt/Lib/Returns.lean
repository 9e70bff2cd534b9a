import Vtt.Lib.Success

/-!
# When a computation returns a value

The parts of a computation that returns a value, as equivalences: what has to hold for the whole to
return is what has to hold for its parts.
-/

namespace Vtt.Lib.Confined

variable {ι σ ε ε' α β : Type} {r : ι → σ → σ → Prop} {s t : σ} {b : β}

theorem returns_pure_iff {a : β} : (pure a : Confined r ε β).run s = some (.ok b, t) ↔
    b = a ∧ t = s := by
  constructor
  · intro h
    obtain ⟨rfl, rfl⟩ := ok_of_pure h
    exact ⟨rfl, rfl⟩
  · rintro ⟨rfl, rfl⟩
    rfl

/-- Two computations in a row. -/
theorem returns_bind_iff {x : Confined r ε α} {f : α → Confined r ε β} :
    (x >>= f).run s = some (.ok b, t) ↔ ∃ a u, x.run s = some (.ok a, u) ∧
      (f a).run u = some (.ok b, t) := by
  constructor
  · exact run_bind_ok
  · rintro ⟨a, u, hx, hf⟩
    rw [run_bind_of_ok hx]
    exact hf

/-- A check comes first. -/
theorem returns_require_iff {p : Prop} [Decidable p] {e : ε} {f : Unit → Confined r ε β} :
    (require p e >>= f).run s = some (.ok b, t) ↔ p ∧ (f ()).run s = some (.ok b, t) := by
  constructor
  · exact ok_of_require
  · rintro ⟨hp, hf⟩
    rw [run_require_bind, if_pos hp]
    exact hf

/-- A value that may be missing comes first. -/
theorem returns_okOr_iff {o : Option α} {e : ε} {f : α → Confined r ε β} :
    (okOr o e >>= f).run s = some (.ok b, t) ↔ ∃ a, o = some a ∧ (f a).run s = some (.ok b, t) := by
  constructor
  · exact ok_of_okOr
  · rintro ⟨a, rfl, hf⟩
    exact hf

theorem returns_unwrap_iff {o : Option α} {f : α → Confined r ε β} :
    (unwrap o >>= f).run s = some (.ok b, t) ↔ ∃ a, o = some a ∧ (f a).run s = some (.ok b, t) := by
  constructor
  · exact ok_of_unwrap
  · rintro ⟨a, rfl, hf⟩
    exact hf

theorem returns_ofExcept_iff {x : Except ε α} {f : α → Confined r ε β} :
    (ofExcept x >>= f).run s = some (.ok b, t) ↔ ∃ a, x = .ok a ∧
      (f a).run s = some (.ok b, t) := by
  constructor
  · exact ok_of_ofExcept
  · rintro ⟨a, rfl, hf⟩
    exact hf

theorem returns_mapError_iff {x : Confined r ε β} {g : ε → ε'} :
    (x.mapError g).run s = some (.ok b, t) ↔ x.run s = some (.ok b, t) := by
  constructor
  · exact ok_of_mapError
  · intro h
    show (x.run s).map _ = _
    rw [h]
    rfl

/-- An evaluation shows that a computation returns a value. -/
theorem exists_returns (x : Confined r ε β) (s : σ) (check : σ → Bool)
    (h : (x.run s).any (fun result => result.1.isOk && check result.2) = true) :
    ∃ b t, x.run s = some (.ok b, t) ∧ check t = true := by
  obtain ⟨⟨result, t⟩, hrun, hcheck⟩ := (Option.any_eq_true ..).1 h
  obtain ⟨hok, hcheck⟩ := Bool.and_eq_true_iff.1 hcheck
  cases result with
  | error e => cases hok
  | ok b => exact ⟨b, t, hrun, hcheck⟩

end Vtt.Lib.Confined
