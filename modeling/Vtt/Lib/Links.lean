import Vtt.Lib.FinMap

/-!
# Parent links in a finite map

The entries of a map point to the key of their parent. A key descends from another if following the
links leads there.
-/

namespace Vtt.Lib

open Std List Option

variable {κ ν : Type} [Ord κ] [TransOrd κ] [LawfulEqOrd κ]

/-- A key has an entry, and the entry points to a key. -/
def Links (m : FinMap κ ν) (parent : ν → κ) (k p : κ) : Prop :=
  ∃ v, m[k]? = some v ∧ parent v = p

/-- A key is another one, or its links lead there. -/
def Descends (m : FinMap κ ν) (parent : ν → κ) : κ → κ → Prop :=
  Relation.ReflTransGen (Links m parent)

variable {m : FinMap κ ν} {parent : ν → κ}

theorem getElem?_insert_of_fresh {k k' : κ} {v v' : ν} (hfresh : m[k]? = none)
    (h : m[k']? = some v') :
    (m.insert k v)[k']? = some v' := by
  rw [ExtTreeMap.getElem?_insert, if_neg, h]
  intro heq
  obtain rfl := LawfulEqOrd.eq_of_compare heq
  rw [hfresh] at h
  cases h

/-- A new entry keeps every descent. -/
theorem Descends.insert {k : κ} (hfresh : m[k]? = none) (v : ν) {a b : κ}
    (h : Descends m parent a b) :
    Descends (m.insert k v) parent a b := by
  have kept : ∀ a b, Links m parent a b → Links (m.insert k v) parent a b := by
    rintro _ _ ⟨v', hv', hp⟩
    exact ⟨v', getElem?_insert_of_fresh hfresh hv', hp⟩
  exact Relation.ReflTransGen.mono kept _ _ h

/-- A new entry descends from what its parent descends from. -/
theorem Descends.insert_self {k : κ} (hfresh : m[k]? = none) {v : ν} {b : κ}
    (h : Descends m parent (parent v) b) :
    Descends (m.insert k v) parent k b :=
  .head ⟨v, ExtTreeMap.getElem?_insert_self, rfl⟩ (h.insert hfresh v)

/-- The keys on the way from a key to where the links end, if that takes less than a number of
steps. -/
def climb (m : FinMap κ ν) (parent : ν → κ) : Nat → κ → Option (List κ)
  | 0, _ => none
  | n + 1, k =>
    match m[k]? with
    | none => some [k]
    | some v => (climb m parent n (parent v)).map (k :: ·)

omit [LawfulEqOrd κ] in
/-- Everything that a key descends from is on the way. -/
theorem Descends.mem_climb {n : Nat} {a b : κ} {way : List κ} (h : Descends m parent a b)
    (hway : climb m parent n a = some way) : b ∈ way := by
  induction n generalizing a way with
  | zero => cases hway
  | succ _ ih =>
    rw [climb] at hway
    rcases h.cases_head with rfl | ⟨_, ⟨_, hv, rfl⟩, hrest⟩
    · split at hway
      · cases hway
        exact mem_singleton_self _
      · obtain ⟨_, -, rfl⟩ := map_eq_some_iff.1 hway
        exact mem_cons_self ..
    · rw [hv] at hway
      obtain ⟨_, hclimb, rfl⟩ := map_eq_some_iff.1 hway
      exact mem_cons_of_mem _ (ih hrest hclimb)

omit [LawfulEqOrd κ] in
/-- A key descends from everything on the way. -/
theorem descends_of_mem_climb {n : Nat} {a b : κ} {way : List κ}
    (hway : climb m parent n a = some way) (h : b ∈ way) :
    Descends m parent a b := by
  induction n generalizing a way with
  | zero => cases hway
  | succ _ ih =>
    rw [climb] at hway
    split at hway
    · cases hway
      obtain rfl := mem_singleton.1 h
      exact .refl
    · rename_i v hv
      obtain ⟨_, hclimb, rfl⟩ := map_eq_some_iff.1 hway
      rcases mem_cons.1 h with rfl | hrest
      · exact .refl
      · exact .head ⟨v, hv, rfl⟩ (ih hclimb hrest)

end Vtt.Lib
