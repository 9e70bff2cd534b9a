import Mathlib.Tactic.Common

/-!
# Runs of a labelled transition relation

A run takes a sequence of labelled steps. What every step keeps, a run keeps; a property of runs
whose steps all meet a condition is a property of the runs of the restricted relation.
-/

namespace Vtt.Lib

variable {σ ℓ : Type}

/-- The runs of a step relation: the labels are in the order of the steps. -/
inductive Run (step : σ → ℓ → σ → Prop) (s : σ) : List ℓ → σ → Prop where
  | nil : Run step s [] s
  | snoc {ls : List ℓ} {l : ℓ} {t u : σ} : Run step s ls t → step t l u → Run step s (ls ++ [l]) u

namespace Run

variable {step : σ → ℓ → σ → Prop} {s t : σ} {ls : List ℓ}

theorem single {l : ℓ} (h : step s l t) : Run step s [l] t := .snoc .nil h

/-- What every step keeps, a run keeps. -/
theorem invariant {I : σ → Prop} (h : Run step s ls t) (hstep : ∀ ⦃s l t⦄, step s l t → I s → I t)
    (hs : I s) :
    I t := by
  induction h with
  | nil => exact hs
  | snoc _ hlast ih => exact hstep hlast ih

/-- Runs can be made one after the other. -/
theorem append {u : σ} {ls' : List ℓ} (h : Run step s ls t) (h' : Run step t ls' u) :
    Run step s (ls ++ ls') u := by
  induction h' with
  | nil =>
    rw [List.append_nil]
    exact h
  | snoc _ hlast ih =>
    rw [← List.append_assoc]
    exact .snoc ih hlast

/-- A run is a run of every larger relation. -/
theorem mono {step' : σ → ℓ → σ → Prop} (h : Run step s ls t)
    (hle : ∀ ⦃s l t⦄, step s l t → step' s l t) :
    Run step' s ls t := by
  induction h with
  | nil => exact .nil
  | snoc _ hlast ih => exact .snoc ih (hle hlast)

/-- A run is a run of a relation that has the same steps under other labels. -/
theorem relabel {ℓ' : Type} {step' : σ → ℓ' → σ → Prop} (f : ℓ → ℓ') (h : Run step s ls t)
    (hle : ∀ ⦃s l t⦄, step s l t → step' s (f l) t) : Run step' s (ls.map f) t := by
  induction h with
  | nil => exact .nil
  | snoc _ hlast ih =>
    rw [List.map_append]
    exact .snoc ih (hle hlast)

end Run

/-- The steps whose label meets a condition in the state before them. -/
def Within (condition : σ → ℓ → Prop) (step : σ → ℓ → σ → Prop) (s : σ) (l : ℓ) (t : σ) : Prop :=
  condition s l ∧ step s l t

end Vtt.Lib
