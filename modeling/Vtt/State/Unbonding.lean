import Vtt.Lib.Moves
import Vtt.State.Methods

/-!
# Releasing unbonded stake

What the release of matured entries does: the entries that have matured are taken out, every owner
is credited what its entries add up to, unless that overflows, and owners without entries are
dropped.
-/

namespace Vtt

open Lib Option List Amount

namespace StateDB

variable {now : Timestamp}

variable {entries : List UnbondingEntry} {released : Amount}

/-! ## What is released -/

theorem le_of_foldlM_checkedAdd {start total : Amount}
    (h : entries.foldlM (fun acc e => acc.checkedAdd e.amount) start = some total) :
    start.raw.toNat ≤ total.raw.toNat ∧ ∀ e ∈ entries, e.amount.raw.toNat ≤ total.raw.toNat := by
  induction entries generalizing start with
  | nil =>
    cases h
    exact ⟨Nat.le_refl _, fun _ he => nomatch he⟩
  | cons _ _ ih =>
    obtain ⟨_, hsum, hrest⟩ := bind_eq_some_iff.1 h
    obtain ⟨_, hall⟩ := ih hrest
    have hadd := toNat_checkedAdd hsum
    exact ⟨by omega, forall_mem_cons.2 ⟨by omega, hall⟩⟩

theorem le_releasedAmount (h : releasedAmount now entries = some released) {e : UnbondingEntry}
    (he : e ∈ entries) (hmatured : matured now e = true) :
    e.amount.raw.toNat ≤ released.raw.toNat :=
  (le_of_foldlM_checkedAdd h).2 e (mem_filter.2 ⟨he, hmatured⟩)

/-- Something is released only if an entry has matured. -/
theorem exists_matured_of_releasedAmount (h : releasedAmount now entries = some released)
    (hreleased : released.isZero = false) : ∃ e ∈ entries, matured now e = true := by
  by_contra hnone
  have unripe : entries.filter (matured now) = [] := filter_eq_nil_iff.2 fun e he hmatured =>
    hnone ⟨e, he, hmatured⟩
  rw [releasedAmount, unripe] at h
  cases h
  cases hreleased

/-- Owners are credited for entries that have matured, and all releases are part of the total. -/
theorem unbondingReleases_spec {owners : List (Address × List UnbondingEntry)}
    {releases : List (Address × Amount)} {total : Amount}
    (h : unbondingReleases now owners = some (releases, total)) :
    (∀ r ∈ releases, ∃ entries, (r.1, entries) ∈ owners ∧ ∃ e ∈ entries, matured now e = true) ∧
      ∀ o ∈ owners, ∀ e ∈ o.2, matured now e = true → e.amount.raw.toNat ≤ total.raw.toNat := by
  induction owners generalizing releases total with
  | nil =>
    cases h
    constructor
    · rintro _ ⟨⟩
    · rintro _ ⟨⟩
  | cons owner rest ih =>
    obtain ⟨address, entries⟩ := owner
    obtain ⟨released, hreleased, h⟩ := bind_eq_some_iff.1 h
    obtain ⟨⟨others, _⟩, hothers, h⟩ := bind_eq_some_iff.1 h
    obtain ⟨hcredited, hbound⟩ := ih hothers
    have later : ∀ r ∈ others, ∃ es, (r.1, es) ∈ (address, entries) :: rest ∧ ∃ e ∈ es,
        matured now e = true := by
      intro r hr
      obtain ⟨es, hmem, he⟩ := hcredited r hr
      exact ⟨es, mem_cons_of_mem _ hmem, he⟩
    have here : ∀ e ∈ entries, matured now e = true → e.amount.raw.toNat ≤ released.raw.toNat :=
      fun e he hmatured => le_releasedAmount hreleased he hmatured
    dsimp only at h
    split at h
    · rename_i hzero
      cases h
      refine ⟨later, forall_mem_cons.2 ⟨fun e he hmatured => ?_, hbound⟩⟩
      have nothing : released.raw.toNat = 0 := by
        rw [isZero_iff.1 hzero]
        rfl
      have := here e he hmatured
      omega
    · rename_i hzero
      obtain ⟨_, htotal, h⟩ := bind_eq_some_iff.1 h
      cases h
      have hadd := toNat_checkedAdd htotal
      constructor
      · refine forall_mem_cons.2 ⟨⟨entries, mem_cons_self .., ?_⟩, later⟩
        exact exists_matured_of_releasedAmount hreleased (by simpa using hzero)
      · refine forall_mem_cons.2 ⟨fun e he hmatured => ?_, fun o ho e he hmatured => ?_⟩
        · have := here e he hmatured
          omega
        · have := hbound o ho e he hmatured
          omega

end StateDB

/-! ## Crediting -/

namespace Db

open Confined

variable {ε : Type}

theorem moves_credit {R : StateDB → StateDB → Prop} [IsPreorder StateDB R] {address : Address}
    {amount : Amount}
    (h : ∀ s balance, (s.getAccount address).balance.checkedAdd amount = some balance →
      R s (s.putAccount address { s.getAccount address with balance })) :
    Moves R (addBalance address amount) := by
  intro s _ _ hrun
  unfold addBalance getAccount at hrun
  rw [run_view_bind] at hrun
  cases hadd : (s.getAccount address).balance.checkedAdd amount with
  | none =>
    rw [hadd, run_okOr_none_bind] at hrun
    cases hrun
    exact Std.Refl.refl s
  | some balance =>
    rw [hadd, run_okOr_some_bind] at hrun
    cases hrun
    exact h s balance hadd

theorem forEach_ignoreError_ok {ε' α : Type} {f : α → DbM ε' Unit} {xs : List α} {s t : StateDB}
    {result : Except ε Unit}
    (h : (forEach xs fun x => (f x).ignoreError : DbM ε Unit).run s = some (result, t)) :
    result = .ok () := by
  induction xs generalizing s with
  | nil => exact (Prod.mk.inj (some.inj h)).1.symm
  | cons _ _ ih =>
    cases result with
    | ok => rfl
    | error =>
      -- the first computation returns, so that the error is one of the rest
      rcases Exec.run_bind_error h with hfirst | ⟨_, _, -, hrest⟩
      · obtain ⟨_, -, heq⟩ := map_eq_some_iff.1 hfirst
        cases heq
      · cases ih hrest

/-- A release takes the matured entries out, credits their owners and drops owners without
entries. -/
theorem exists_of_processUnbonding {now : Timestamp} {s t : StateDB} {result : Except ε Amount}
    (h : (processUnbonding now).run s = some (result, t)) :
    ∃ releases total credited, result = .ok total ∧
      StateDB.unbondingReleases now s.unbondingEntries.toList = some (releases, total) ∧
      (forEach releases fun r => (addBalance r.1 r.2).ignoreError : DbM ε Unit).run
        (s.dropMatured now) = some (.ok (), credited) ∧
      t = credited.dropReleased total := by
  unfold processUnbonding cached at h
  rw [run_view_bind] at h
  cases hreleases : StateDB.unbondingReleases now s.unbondingEntries.toList with
  | none =>
    rw [hreleases] at h
    cases h
  | some r =>
    obtain ⟨releases, total⟩ := r
    rw [hreleases, run_unwrap_some_bind, run_update_bind] at h
    cases hcredits : (forEach releases fun r => (addBalance r.1 r.2).ignoreError : DbM ε Unit).run
        (s.dropMatured now) with
    | none =>
      rw [run_bind_of_abort hcredits] at h
      cases h
    | some r =>
      obtain ⟨_, credited⟩ := r
      obtain rfl := forEach_ignoreError_ok hcredits
      rw [run_bind_of_ok hcredits, run_update_bind, run_pure] at h
      cases h
      exact ⟨releases, total, credited, rfl, rfl, hcredits, rfl⟩

end Db

end Vtt
