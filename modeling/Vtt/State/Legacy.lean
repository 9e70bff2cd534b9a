import Mathlib.Algebra.Order.BigOperators.Group.List
import Vtt.State.Restarted

/-!
# Unbonding entries of the layout before

Entries did not name their validator before. Their bytes are tried in the layout of now first, in
which an entry is longer, and taken over if that fails.
-/

namespace Vtt

open Lib Std StateDB Option Borsh

/-! ## The two layouts -/

theorem canonical_address : Canonical Address :=
  .digits (fun _ => trivial) (fun _ => rfl) (fun _ => rfl)
    (fun bs => ⟨beNat_lt bs, beBytes_beNat bs⟩) fun _ hv =>
    (BitVec.toNat_ofNat ..).trans (Nat.mod_eq_of_lt hv)

theorem canonical_unbonding : Canonical (List (Address × List UnbondingEntry)) := by
  have amount : Canonical Amount :=
    .iso .uint128 Amount.raw Amount.mk (fun _ h => h) (fun _ => rfl) (fun _ => rfl) fun _ => rfl
  have entry : Canonical UnbondingEntry :=
    .iso (.prod amount (.prod .uint64 canonical_address))
      (fun e => (e.amount, e.completionTime, e.validator)) (fun b => ⟨b.1, b.2.1, b.2.2⟩)
      (fun _ h => h) (fun _ => rfl) (fun _ => rfl) fun _ => rfl
  exact .list (.prod canonical_address (.list entry))

/-- The number of entries of all addresses together. -/
def entryCount {β : Type} (l : List (Address × List β)) : Nat := (l.map fun e => e.2.length).sum

theorem eq_nil_of_entryCount {β : Type} {l : List (Address × List β)} (h : entryCount l = 0)
    {e : Address × List β} (he : e ∈ l) : e.2 = [] :=
  List.eq_nil_of_length_eq_zero (List.sum_eq_zero_iff.1 h _ (List.mem_map_of_mem he))

/-- The bytes of a list with entries of a given size. -/
theorem length_serialize_entries {β : Type} [Borsh β] (size : Nat)
    (hsize : ∀ b : β, (serialize b).length = size) (l : List (Address × List β)) :
    (serialize l).length = 4 + 24 * l.length + size * entryCount l := by
  have entries (es : List β) : (es.flatMap serialize).length = size * es.length := by
    simp [List.length_flatMap, hsize, Nat.mul_comm]
  have item (e : Address × List β) : (serialize e).length = 24 + size * e.2.length := by
    show (beBytes 20 _ ++ (leBytes 4 _ ++ e.2.flatMap serialize)).length = _
    simp only [List.length_append, beBytes_length, leBytes_length, entries]
    omega
  show (leBytes 4 _ ++ l.flatMap serialize).length = _
  rw [List.length_append, leBytes_length, List.length_flatMap]
  induction l with
  | nil => rfl
  | cons e _ ih =>
    simp only [entryCount, List.map_cons, List.sum_cons, item, List.length_cons] at ih ⊢
    rw [Nat.mul_add size]
    omega

/-- The bytes of a list of the layout before are also those of a list in the layout of now that has
entries. -/
def Ambiguous (legacy : List (Address × List (Amount × UInt64))) : Prop :=
  ∃ items : List (Address × List UnbondingEntry), Fits items ∧ serialize items = serialize legacy ∧
    0 < entryCount items

/-! ## Taking entries over -/

/-- An unbonding entry that did not name its validator, as it is taken over. -/
def migrated (u : Amount × UInt64) : UnbondingEntry := ⟨u.1, u.2, .zero⟩

/-- The entries of a store of the layout before are there after a restart, with the zero address as
the validator. -/
def Migrates (legacy : List (Address × List (Amount × UInt64))) (s : StateDB) : Prop :=
  (∀ e ∈ legacy, s.getUnbondingEntries e.1 = e.2.map migrated) ∧
    ∀ a, (∀ e ∈ legacy, e.1 ≠ a) → s.getUnbondingEntries a = []

section Layouts

variable {legacy : List (Address × List (Amount × UInt64))}
  {items : List (Address × List UnbondingEntry)}

/-- Both layouts write the number of addresses first, and entries of different sizes. -/
theorem entryCount_of_serialize_eq (hfits : Fits legacy) (hitems : Fits items)
    (h : serialize items = serialize legacy) : 44 * entryCount items = 24 * entryCount legacy := by
  have lengths := congrArg List.length h
  rw [length_serialize_entries 44 fun _ => rfl, length_serialize_entries 24 fun _ => rfl]
    at lengths
  have counts : UInt32.ofNat items.length = UInt32.ofNat legacy.length := by
    have read :=
      Borsh.deserialize_serialize (UInt32.ofNat items.length) trivial (items.flatMap serialize)
    have h : serialize (UInt32.ofNat items.length) ++ items.flatMap serialize =
      serialize (UInt32.ofNat legacy.length) ++ legacy.flatMap serialize := h
    rw [h, Borsh.deserialize_serialize _ trivial] at read
    exact (congrArg Prod.fst (some.inj read)).symm
  have := congrArg UInt32.toNat counts
  rw [UInt32.toNat_ofNat_of_lt' hitems.1, UInt32.toNat_ofNat_of_lt' hfits.1] at this
  omega

variable {store : Store} {s : StateDB}

/-- The entries after a restart on a store of the layout before. -/
theorem getUnbondingEntries_of_legacy (hfits : Borsh.Fits legacy)
    (hstore : store.get .chainMeta (ascii "unbonding:all") = some (serialize legacy))
    (hopen : withStorage store = some s) (a : Address) :
    s.getUnbondingEntries a = (((tryFromSlice (serialize legacy)).elim
      (ExtTreeMap.ofList (legacy.map fun e => (e.1, e.2.map migrated)) compare)
      fun items : List (Address × List UnbondingEntry) => ExtTreeMap.ofList items compare)[a]?).getD
        [] := by
  obtain ⟨store', _, _, rfl, hstamped⟩ := exists_loadCaches hopen
  have hget : store'.get .chainMeta (ascii "unbonding:all") = some _ :=
    (get_of_verifyOrStamp_of_ne hstamped (c := .unbonding) (by simp)).trans hstore
  show ((loadUnbonding store')[a]?).getD [] = _
  simp only [loadUnbonding, loadMeta]
  rw [hget, bind_some, bind_some, tryFromSlice_serialize legacy hfits]
  cases (tryFromSlice (serialize legacy) : Option (List (Address × List UnbondingEntry))) with
  | none | some => rfl

theorem migrates_of_unread (hdistinct : legacy.Pairwise fun e e' => e.1 ≠ e'.1)
    (h : ∀ a, s.getUnbondingEntries a =
      ((ExtTreeMap.ofList (legacy.map fun e => (e.1, e.2.map migrated)) compare)[a]?).getD []) :
    Migrates legacy s := by
  have hget {a : Address} {entries : List UnbondingEntry} := get_ofList_iff (k := a) (v := entries)
    (List.pairwise_map (f := fun e : Address × List (Amount × UInt64) =>
    (e.1, e.2.map migrated)).2 hdistinct)
  refine ⟨fun e he => ?_, fun a ha => ?_⟩
  · rw [h, hget.2 (List.mem_map_of_mem he)]
    rfl
  · rw [h]
    cases hentry :
      (ExtTreeMap.ofList (legacy.map fun e => (e.1, e.2.map migrated)) compare)[a]? with
    | none => rfl
    | some =>
      obtain ⟨e, he, heq⟩ := List.mem_map.1 (hget.1 hentry)
      exact absurd (congrArg Prod.fst heq) (ha e he)

/-- If all entries are taken over, then there are as many in the list that is read. -/
theorem entryCount_le_of_migrates (hdistinct : legacy.Pairwise fun e e' => e.1 ≠ e'.1)
    (hmigrates : Migrates legacy s)
    (h : ∀ a, s.getUnbondingEntries a = ((ExtTreeMap.ofList items compare)[a]?).getD []) :
    entryCount legacy ≤ entryCount items := by
  -- the addresses that have entries, with the entries as they are taken over
  let kept := (legacy.filter fun e => e.2 ≠ []).map fun e => (e.1, e.2.map migrated)
  have count_eq : entryCount legacy = entryCount kept := by
    unfold kept
    clear hdistinct hmigrates
    induction legacy with
    | nil => rfl
    | cons e _ ih =>
      by_cases hempty : e.2 = []
      · simpa [entryCount, hempty] using ih
      · simpa [entryCount, hempty] using ih
  have nodup : kept.Nodup := by
    refine List.pairwise_map.2 ((hdistinct.filter _).imp ?_)
    intro _ _ hne heq
    exact hne (Prod.mk.inj heq).1
  have read : kept ⊆ items := by
    intro _ hkept
    obtain ⟨e, he, rfl⟩ := List.mem_map.1 hkept
    obtain ⟨hmem, hne⟩ := List.mem_filter.1 he
    have hentries := (h e.1).symm.trans (hmigrates.1 e hmem)
    refine mem_of_get_ofList ?_
    cases hget : (ExtTreeMap.ofList items compare)[e.1]? with
    | none => simp_all
    | some => simp_all
  obtain ⟨_, hperm, hsub⟩ := List.subperm_of_subset nodup read
  rw [count_eq, entryCount, ← (hperm.map _).sum_nat]
  exact (hsub.map _).sum_le_sum fun _ _ => Nat.zero_le _

/-- A store of the layout before is taken over exactly if its bytes are not those of entries in the
layout of now. They can be only if the number of entries is a multiple of eleven. -/
theorem legacy_unbonding_migrates_iff (hdistinct : legacy.Pairwise fun e e' => e.1 ≠ e'.1)
    (hfits : Borsh.Fits legacy)
    (hstore : store.get .chainMeta (ascii "unbonding:all") = some (serialize legacy))
    (hopen : withStorage store = some s) :
    (Migrates legacy s ↔ ¬ Ambiguous legacy) ∧
      (Ambiguous legacy → 0 < entryCount legacy ∧ 11 ∣ entryCount legacy) := by
  have hget := getUnbondingEntries_of_legacy hfits hstore hopen
  refine ⟨⟨?_, fun hclear => ?_⟩, ?_⟩
  · rintro hmigrates ⟨items, hitems, hbytes, hpos⟩
    simp only [(tryFromSlice_eq_some_iff canonical_unbonding).2 ⟨hitems, hbytes⟩, elim_some] at hget
    have more := entryCount_le_of_migrates hdistinct hmigrates hget
    have counts := entryCount_of_serialize_eq hfits hitems hbytes
    omega
  · cases hread :
      (tryFromSlice (serialize legacy) : Option (List (Address × List UnbondingEntry))) with
    | none =>
      simp only [hread, elim_none] at hget
      exact migrates_of_unread hdistinct hget
    | some items =>
      obtain ⟨hitems, hbytes⟩ := (tryFromSlice_eq_some_iff canonical_unbonding).1 hread
      have none_read : entryCount items = 0 := by
        by_contra hne
        exact hclear ⟨items, hitems, hbytes, Nat.pos_of_ne_zero hne⟩
      have counts := entryCount_of_serialize_eq hfits hitems hbytes
      simp only [hread, elim_some] at hget
      have empty (a : Address) : s.getUnbondingEntries a = [] := by
        rw [hget]
        cases hentry : (ExtTreeMap.ofList items compare)[a]? with
        | none => rfl
        | some => exact eq_nil_of_entryCount none_read (mem_of_get_ofList hentry)
      refine ⟨fun e he => ?_, fun a _ => empty a⟩
      rw [empty, eq_nil_of_entryCount (by omega) he]
      rfl
  · rintro ⟨items, hitems, hbytes, hpos⟩
    have counts := entryCount_of_serialize_eq hfits hitems hbytes
    omega

end Layouts

/-! ## On small stores -/

namespace Demo

/-- A store of the layout before. -/
def aged (legacy : List (Address × List (Amount × UInt64))) : Store :=
  Store.empty.put .chainMeta (ascii "unbonding:all") (serialize legacy)

/-- One entry is taken over: it is not a multiple of eleven. -/
theorem single_entry_migrates : ∃ s, withStorage (aged [(⟨1⟩, [(.zero, 0)])]) = some s ∧
    Migrates [(⟨1⟩, [(.zero, 0)])] s := by
  obtain ⟨s, hopen⟩ := isSome_iff_exists.1
    (show (withStorage (aged [(⟨1⟩, [(.zero, 0)])])).isSome = true by decide +kernel)
  have distinct :
      List.Pairwise (fun e e' => e.1 ≠ e'.1)
      [((⟨1⟩ : Address), [(Amount.zero, (0 : UInt64))])] := by
    simp
  obtain ⟨hiff, heleven⟩ :=
    legacy_unbonding_migrates_iff distinct (by simp [Borsh.Fits]) (by decide +kernel) hopen
  exact ⟨s, hopen, hiff.2 fun h => absurd (heleven h).2 (by decide)⟩

/-- Two lists that can be read in the layout of now: the second address becomes the validator of the
first entry. -/
theorem legacy_unbonding_misread :
    let legacy := [(⟨1⟩, [(.zero, 0)]), (⟨2⟩, (.zero, 5) :: List.replicate 9 (.zero, 0))]
    ∃ store s, legacy.Pairwise (fun e e' => e.1 ≠ e'.1) ∧ Borsh.Fits legacy ∧
      store.get .chainMeta (ascii "unbonding:all") = some (serialize legacy) ∧
      withStorage store = some s ∧
      ¬ Migrates legacy s := by
  intro legacy
  obtain ⟨s, hopen, hread⟩ := (any_eq_true
    (fun s : StateDB => s.getUnbondingEntries ⟨1⟩ ≠ [migrated (.zero, 0)])
    (withStorage (aged legacy))).1 (by decide +kernel)
  exact ⟨aged legacy, s, by decide, by simp [legacy, Borsh.Fits], by decide +kernel, hopen,
    fun h => of_decide_eq_true hread (h.1 _ (List.mem_cons_self ..))⟩

end Demo

end Vtt
