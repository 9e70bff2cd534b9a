import Mathlib.Data.List.Nodup
import Vtt.Lib.Runs

/-!
# Keys that are acted on once

A system remembers the keys it has acted on. A step that acts on keys finds them new and remembers
them. Then no key is acted on twice in a run.
-/

namespace Vtt.Lib

variable {σ κ ι : Type} {seen : σ → κ → Prop} {s t u : σ} {keys keys' : List κ}

/-- The keys are different ones; none of them was seen before, all of them are afterwards, and no
key is forgotten. -/
structure MarksOnce (seen : σ → κ → Prop) (s t : σ) (keys : List κ) : Prop where
  nodup : keys.Nodup
  fresh : ∀ key ∈ keys, ¬ seen s key
  marked : ∀ key ∈ keys, seen t key
  kept : ∀ key, seen s key → seen t key

namespace MarksOnce

theorem of_kept (h : ∀ key, seen s key → seen t key) : MarksOnce seen s t [] where
  nodup := List.nodup_nil
  fresh _ hkey := by cases hkey
  marked _ hkey := by cases hkey
  kept := h

theorem of_new {key : κ} (hunseen : ¬ seen s key) (hseen : seen t key)
    (h : ∀ key, seen s key → seen t key) :
    MarksOnce seen s t [key] where
  nodup := List.nodup_singleton _
  fresh _ hkey := List.mem_singleton.1 hkey ▸ hunseen
  marked _ hkey := List.mem_singleton.1 hkey ▸ hseen
  kept := h

theorem append (h : MarksOnce seen s t keys) (h' : MarksOnce seen t u keys') : MarksOnce seen s u
    (keys ++ keys') where
  nodup := h.nodup.append h'.nodup fun key hkey hkey' => h'.fresh key hkey' (h.marked key hkey)
  fresh key hkey := by
    rcases List.mem_append.1 hkey with hkey | hkey
    · exact h.fresh key hkey
    · exact fun hseen => h'.fresh key hkey (h.kept key hseen)
  marked key hkey := by
    rcases List.mem_append.1 hkey with hkey | hkey
    · exact h'.kept key (h.marked key hkey)
    · exact h'.marked key hkey
  kept key hkey := h'.kept key (h.kept key hkey)

/-- What a part of a state marks, the state marks. -/
theorem of_part {τ : Type} {part : τ → σ} {x y : τ} (h : MarksOnce seen (part x) (part y) keys) :
    MarksOnce (fun z => seen (part z)) x y keys :=
  ⟨h.nodup, h.fresh, h.marked, h.kept⟩

/-- What steps mark is marked once along a run, in states that have an invariant. -/
theorem of_run {Step : σ → ι × List κ → σ → Prop} {Inv : σ → Prop}
    (hstep : ∀ {s label t}, Inv s → Step s label t → Inv t ∧ MarksOnce seen s t label.2)
    {labels : List (ι × List κ)} (h : Run Step s labels t) (hinv : Inv s) : MarksOnce seen s t
      (labels.flatMap (·.2)) := by
  suffices both : Inv t ∧ MarksOnce seen s t (labels.flatMap (·.2)) from both.2
  induction h with
  | nil => exact ⟨hinv, .of_kept fun _ => id⟩
  | snoc _ hlast ih =>
    obtain ⟨hinv', hmarks⟩ := ih
    obtain ⟨hinv'', hlabel⟩ := hstep hinv' hlast
    rw [List.flatMap_append, List.flatMap_singleton]
    exact ⟨hinv'', hmarks.append hlabel⟩

end MarksOnce

end Vtt.Lib
