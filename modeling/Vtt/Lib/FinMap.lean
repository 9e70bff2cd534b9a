import Vtt.Lib.Borsh

/-!
# Finite maps and sets

Hash maps and hash sets are modelled by the library's extensional tree maps and tree sets: two of
them are equal exactly when they have the same entries, and a traversal visits the entries in key
order.
-/

namespace Vtt.Lib

open Std ExtTreeMap Option ExtTreeSet ReflOrd
open LawfulEqOrd (eq_of_compare)

/-- A finite map. -/
abbrev FinMap (κ ν : Type) [Ord κ] := ExtTreeMap κ ν compare

/-- A finite set. -/
abbrev FinSet (κ : Type) [Ord κ] := ExtTreeSet κ compare

/-- Pairs are ordered by their first component, then by their second. -/
instance ordProd {α β : Type} [Ord α] [Ord β] : Ord (α × β) := lexOrd

/-- Keys ordered by what they are mapped to are lawfully ordered if the map is injective. -/
theorem lawfulEqOrd_of_injective {α β : Type} [Ord β] [LawfulEqOrd β] (f : α → β)
    (hf : ∀ a b, f a = f b → a = b) :
    LawfulEqCmp (compareOn f) where
  compare_self {a} := show compare (f a) (f a) = .eq from compare_self
  eq_of_compare h := hf _ _ (eq_of_compare h)

/-! ## Maps as lists of entries -/

section Entries

variable {κ ν : Type} [DecidableEq κ] [Ord κ] [TransOrd κ] [LawfulEqOrd κ]

omit [DecidableEq κ] [LawfulEqOrd κ] in
theorem mem_of_get {m : FinMap κ ν} {k : κ} {v : ν} (h : m[k]? = some v) : k ∈ m :=
  mem_iff_isSome_getElem?.2 (isSome_of_eq_some h)

/-- A map is rebuilt from its entries. -/
theorem ofList_toList (m : FinMap κ ν) : ofList m.toList compare = m := by
  apply ext_getElem?
  intro k
  cases h : m[k]? with
  | some =>
    exact getElem?_ofList_of_mem compare_self
      distinct_keys_toList (mem_toList_iff_getElem?_eq_some.2 h)
  | none =>
    apply getElem?_ofList_of_contains_eq_false
    rw [map_fst_toList_eq_keys]
    simp only [List.contains_eq_mem, decide_eq_false_iff_not, mem_keys]
    rw [mem_iff_isSome_getElem?, h]
    simp

/-- A set is rebuilt from its elements. -/
theorem ofList_toListSet (s : FinSet κ) : ofList s.toList compare = s := by
  apply ext_mem
  intro _
  simp

omit [DecidableEq κ] in
/-- What a list is read as comes from one of its entries. -/
theorem mem_of_get_ofList {entries : List (κ × ν)} {k : κ} {v : ν}
    (h : (ofList entries compare)[k]? = some v) :
    (k, v) ∈ entries := by
  rw [ExtTreeMap.ofList_eq_foldl] at h
  refine List.foldlRecOn (motive := fun m : FinMap κ ν => m[k]? = some v →
    (k, v) ∈ entries) _ _ ?_ ?_ h
  · intro hget
    rw [getElem?_empty] at hget
    cases hget
  · intro _ ih e he hget
    rw [getElem?_insert] at hget
    split at hget
    · rename_i heq
      rwa [← LawfulEqOrd.eq_of_compare heq, ← some.inj hget]
    · exact ih hget

omit [DecidableEq κ] in
/-- A list of entries without repeated keys, read as a map, has these entries. -/
theorem get_ofList_iff {entries : List (κ × ν)} (hdistinct : entries.Pairwise fun a b => a.1 ≠ b.1)
    {k : κ} {v : ν} :
    (ofList entries compare)[k]? = some v ↔ (k, v) ∈ entries := by
  have distinct : entries.Pairwise fun a b => ¬ compare a.1 b.1 = .eq := by
    simpa only [LawfulEqOrd.compare_eq_iff_eq] using hdistinct
  exact ⟨mem_of_get_ofList, getElem?_ofList_of_mem compare_self distinct⟩

/-- A map is laid out as the list of its entries in key order. -/
instance [Borsh κ] [Borsh ν] : Borsh (FinMap κ ν) :=
  .ofIso toList (fun l => ofList l compare) ofList_toList

end Entries

/-! ## Inserting entries -/

section Insert

variable {κ ν : Type} [Ord κ] [TransOrd κ] [LawfulEqOrd κ]

theorem get_insert [DecidableEq κ] (m : FinMap κ ν) (k a : κ) (v : ν) :
    (m.insert k v)[a]? = if k = a then some v else m[a]? := by
  rw [getElem?_insert]
  simp only [LawfulEqOrd.compare_eq_iff_eq]

theorem get_erase [DecidableEq κ] (m : FinMap κ ν) (k a : κ) :
    (m.erase k)[a]? = if k = a then none else m[a]? := by
  rw [getElem?_erase]
  simp only [LawfulEqOrd.compare_eq_iff_eq]

theorem get_filter_key (m : FinMap κ ν) (p : κ → Bool) (k : κ) :
    (m.filter fun a _ => p a)[k]? = if p k then m[k]? else none := by
  rw [getElem?_filter']
  cases m[k]? with
  | none => simp
  | some => simp [Option.filter]

/-- The lists of a map, after each has changed and the empty ones were dropped. -/
theorem getD_filter_map {α : Type} (m : FinMap κ (List α)) {f : κ → List α → List α} {k : κ}
    (hnil : f k [] = []) :
    (((m.map f).filter fun _ l => !l.isEmpty)[k]?).getD [] = f k ((m[k]?).getD []) := by
  rw [getElem?_filter', getElem?_map]
  cases m[k]? with
  | none => exact hnil.symm
  | some =>
    rw [map_some, filter_some]
    split
    · rfl
    · rename_i hempty
      simp only [Bool.not_eq_true', Bool.not_eq_false, List.isEmpty_iff] at hempty
      rw [getD_none, getD_some, hempty]

/-- Nothing changes if every value stays as it is and passes the filter. -/
theorem filter_map_eq_self {m : FinMap κ ν} {f : κ → ν → ν} {p : κ → ν → Bool}
    (h : ∀ (k : κ) v, m[k]? = some v → f k v = v ∧ p k v = true) : (m.map f).filter p = m := by
  apply ext_getElem?
  intro k
  rw [getElem?_filter', getElem?_map]
  cases hv : m[k]? with
  | none => rfl
  | some v =>
    obtain ⟨hf, hp⟩ := h k v hv
    simp [hf, hp]

/-- Inserting an entry that is there changes nothing. -/
theorem insert_eq_self {m : FinMap κ ν} {k : κ} {v : ν} (h : m[k]? = some v) :
    m.insert k v = m := by
  apply ext_getElem?
  intro _
  rw [getElem?_insert]
  split
  · rename_i ha
    rw [← eq_of_compare ha, h]
  · rfl

/-- An entry that is inserted again is the one inserted last. -/
theorem insert_insert_self (m : FinMap κ ν) (k : κ) (v v' : ν) :
    (m.insert k v).insert k v' = m.insert k v' := by
  apply ext_getElem?
  intro _
  simp only [getElem?_insert]
  split
  · rfl
  · rfl

theorem insertSet_insertSet (s : FinSet κ) (k : κ) : (s.insert k).insert k = s.insert k := by
  apply ext_mem
  intro _
  simp

theorem eraseSet_eraseSet (s : FinSet κ) (k : κ) : (s.erase k).erase k = s.erase k := by
  apply ext_mem
  intro _
  simp

/-- Insert a list of entries in turn. -/
def insertList (m : FinMap κ ν) (entries : List (κ × ν)) : FinMap κ ν :=
  entries.foldl (fun m e => m.insert e.1 e.2) m

omit [LawfulEqOrd κ] in
/-- A list of entries leaves a key alone, or it says what is there afterwards. -/
theorem getElem?_insertList (entries : List (κ × ν)) (k : κ) :
    (∀ m, (insertList m entries)[k]? = m[k]?) ∨ ∃ v, ∀ m, (insertList m entries)[k]? = some v := by
  induction entries with
  | nil => exact .inl fun _ => rfl
  | cons e _ ih =>
    rcases ih with kept | ⟨v, set⟩
    · by_cases hk : compare e.1 k = .eq
      · refine .inr ⟨e.2, fun m => ?_⟩
        exact (kept _).trans (by rw [getElem?_insert, if_pos hk])
      · refine .inl fun m => ?_
        exact (kept _).trans (by rw [getElem?_insert, if_neg hk])
    · exact .inr ⟨v, fun m => set _⟩

/-- Keys that are not in a list of entries stay as they are. -/
theorem insertList_of_forall_ne {entries : List (κ × ν)} {k : κ} (h : ∀ e ∈ entries, e.1 ≠ k)
    (m : FinMap κ ν) :
    (insertList m entries)[k]? = m[k]? := by
  induction entries generalizing m with
  | nil => rfl
  | cons e _ ih =>
    refine (ih (fun e' he' => h e' (List.mem_cons_of_mem _ he')) _).trans ?_
    rw [getElem?_insert, if_neg]
    exact fun heq => h e (List.mem_cons_self ..) (eq_of_compare heq)

/-- A key that a list of entries has with one value only is set to that value. -/
theorem insertList_of_mem {entries : List (κ × ν)} {k : κ} {v : ν} (hmem : (k, v) ∈ entries)
    (hunique : ∀ v', (k, v') ∈ entries → v' = v) (m : FinMap κ ν) :
    (insertList m entries)[k]? = some v := by
  classical
  induction entries generalizing m with
  | nil => cases hmem
  | cons e rest ih =>
    rw [insertList, List.foldl_cons]
    by_cases hrest : ∃ v', (k, v') ∈ rest
    · obtain ⟨v', hv'⟩ := hrest
      obtain rfl := hunique v' (List.mem_cons_of_mem _ hv')
      exact ih hv' (fun w hw => hunique w (List.mem_cons_of_mem _ hw)) _
    · have hhead : e = (k, v) := by
        rcases List.mem_cons.1 hmem with heq | hmem
        · exact heq.symm
        · exact absurd ⟨v, hmem⟩ hrest
      refine (insertList_of_forall_ne (fun e' he' hk => hrest ⟨e'.2, ?_⟩) _).trans ?_
      · rwa [← hk]
      · rw [hhead, getElem?_insert_self]

/-- Inserting the same entries again changes nothing. -/
theorem insertList_insertList (m : FinMap κ ν) (entries : List (κ × ν)) :
    insertList (insertList m entries) entries = insertList m entries := by
  apply ext_getElem?
  intro k
  rcases getElem?_insertList entries k with kept | ⟨_, set⟩
  · rw [kept]
  · rw [set, set]

end Insert

end Vtt.Lib
