import Mathlib.Algebra.BigOperators.Group.List.Basic
import Vtt.Lib.FinMap

/-!
# Sums over finite maps

A sum over the entries of a map changes with an entry by the difference of the old and the new
summand. The statements have additions on both sides instead of differences.
-/

namespace Vtt.Lib

open Std ExtTreeMap

variable {κ ν : Type} [Ord κ] [TransOrd κ] [LawfulEqOrd κ]

/-- The sum of a function over the entries of a map. -/
def sumOver (m : FinMap κ ν) (f : κ → ν → ℕ) : ℕ := (m.toList.map fun e => f e.1 e.2).sum

/-- An entry occurs once in the list of entries. -/
theorem nodup_toList (m : FinMap κ ν) : m.toList.Nodup := by
  refine distinct_keys_toList.imp fun {a b} hne heq => hne ?_
  rw [heq]
  exact ReflOrd.compare_self

theorem erase_eq_self {m : FinMap κ ν} {k : κ} (h : m[k]? = none) : m.erase k = m := by
  apply ext_getElem?
  intro _
  rw [getElem?_erase]
  split
  · rename_i ha
    rw [← LawfulEqOrd.eq_of_compare ha, h]
  · rfl

/-- Summands that agree on all entries. -/
theorem sumOver_congr {m : FinMap κ ν} {f g : κ → ν → ℕ}
    (h : ∀ (k : κ) (v : ν), m[k]? = some v → f k v = g k v) :
    sumOver m f = sumOver m g := by
  unfold sumOver
  congr 1
  refine List.map_congr_left fun e he => ?_
  exact h e.1 e.2 (mem_toList_iff_getElem?_eq_some.1 he)

omit [LawfulEqOrd κ] in
/-- Values may be replaced before the sum, and entries that add nothing may be left out. -/
theorem sumOver_filter_map (m : FinMap κ ν) {f : κ → ν → ν} {p : κ → ν → Bool} {w : κ → ν → ℕ}
    (h : ∀ k v, p k (f k v) = false → w k (f k v) = 0) :
    sumOver ((m.map f).filter p) w = sumOver m fun k v => w k (f k v) := by
  unfold sumOver
  rw [toList_filter, toList_map]
  induction m.toList with
  | nil => rfl
  | cons e _ ih =>
    simp only [List.map_cons, List.filter_cons, List.sum_cons]
    split
    · rw [List.map_cons, List.sum_cons, ih]
    · rename_i hout
      rw [ih, h e.1 e.2 (by simpa using hout), Nat.zero_add]

variable [DecidableEq κ]

/-- The entries after an insertion: the new one and those under other keys. -/
theorem toList_insert_perm (m : FinMap κ ν) (k : κ) (v : ν) :
    (m.insert k v).toList.Perm ((k, v) :: (m.erase k).toList) := by
  have fresh : (k, v) ∉ (m.erase k).toList := by
    rw [mem_toList_iff_getElem?_eq_some, get_erase, if_pos rfl]
    exact nofun
  rw [List.perm_ext_iff_of_nodup (nodup_toList _) (List.nodup_cons.2 ⟨fresh, nodup_toList _⟩)]
  rintro ⟨_, _⟩
  rw [List.mem_cons, mem_toList_iff_getElem?_eq_some,
    mem_toList_iff_getElem?_eq_some, get_insert, get_erase, Prod.mk.injEq]
  split
  · rename_i hk
    simp [hk, eq_comm]
  · rename_i hk
    simp [Ne.symm hk]

theorem sumOver_insert (m : FinMap κ ν) (k : κ) (v : ν) (f : κ → ν → ℕ) :
    sumOver (m.insert k v) f = f k v + sumOver (m.erase k) f := by
  have perm := (toList_insert_perm m k v).map fun e => f e.1 e.2
  rw [sumOver, perm.sum_eq, List.map_cons, List.sum_cons, sumOver]

/-- An entry and the entries under other keys. -/
theorem sumOver_of_get {m : FinMap κ ν} {k : κ} {v : ν} (h : m[k]? = some v) (f : κ → ν → ℕ) :
    sumOver m f = f k v + sumOver (m.erase k) f := by
  conv_lhs => rw [← insert_eq_self h]
  exact sumOver_insert m k v f

/-- A sum after an insertion, with the summand that was there before added on the other side. -/
theorem sumOver_insert_add (m : FinMap κ ν) (k : κ) (v : ν) (f : κ → ν → ℕ) :
    sumOver (m.insert k v) f + (m[k]?).elim 0 (f k) = sumOver m f + f k v := by
  rw [sumOver_insert]
  cases h : m[k]? with
  | none =>
    rw [erase_eq_self h, Option.elim_none]
    omega
  | some =>
    rw [sumOver_of_get h, Option.elim_some]
    omega

/-- Entries under different keys are part of the sum. -/
theorem sum_le_sumOver (m : FinMap κ ν) (f : κ → ν → ℕ) {ks : List κ} (hks : ks.Nodup) :
    (ks.map fun k => (m[k]?).elim 0 (f k)).sum ≤ sumOver m f := by
  induction ks generalizing m with
  | nil => exact Nat.zero_le _
  | cons k ks ih =>
    obtain ⟨hk, hks⟩ := List.nodup_cons.1 hks
    -- the other keys have the same entries when this one is gone
    have others : (ks.map fun k' => (m[k']?).elim 0 (f k')) = ks.map fun k' =>
        ((m.erase k)[k']?).elim 0 (f k') := by
      refine List.map_congr_left fun k' hk' => ?_
      rw [get_erase, if_neg]
      rintro rfl
      exact hk hk'
    have rest := ih (m.erase k) hks
    rw [List.map_cons, List.sum_cons, others]
    cases hget : m[k]? with
    | none =>
      rw [erase_eq_self hget] at rest ⊢
      simpa using rest
    | some =>
      rw [sumOver_of_get hget]
      exact Nat.add_le_add_left rest _

/-- A sum over the entry under one key. -/
theorem sumOver_at (m : FinMap κ ν) (k : κ) (g : ν → ℕ) :
    (sumOver m fun k' v => if k' = k then g v else 0) = (m[k]?).elim 0 g := by
  have apart : ∀ m' : FinMap κ ν, m'[k]? = none →
      (sumOver m' fun k' v => if k' = k then g v else 0) = 0 := by
    intro m' hnone
    have hzero : (sumOver m' fun k' v => if k' = k then g v else 0) = sumOver m' fun _ _ => 0 := by
      refine sumOver_congr fun k' v hget => if_neg ?_
      rintro rfl
      cases hget.symm.trans hnone
    rw [hzero, sumOver]
    exact List.sum_eq_zero (by simp)
  cases hget : m[k]? with
  | none => exact apart m hget
  | some =>
    rw [sumOver_of_get hget, if_pos rfl, apart _ getElem?_erase_self]
    rfl

end Vtt.Lib
