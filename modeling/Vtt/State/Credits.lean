import Mathlib.Algebra.BigOperators.Group.Finset.Piecewise
import Mathlib.Algebra.Order.BigOperators.Group.List
import Vtt.Lib.Returns
import Vtt.State.Accounts
import Vtt.State.Methods

/-!
# Credits

Lists of credits to accounts, as payments to many owners make them. Either a credit that overflows
is passed over, or it ends the payment.
-/

namespace Vtt

open Lib Amount List BitVec

variable {b : Amount}

theorem Amount.checkedAdd_eq_some_iff {a c : Amount} :
    a.checkedAdd b = some c ↔ c.raw.toNat = a.raw.toNat + b.raw.toNat := by
  refine ⟨toNat_checkedAdd, fun h => ?_⟩
  have hfits : a.raw.toNat + b.raw.toNat < 2 ^ 128 := h ▸ c.raw.isLt
  have hsum : a.raw + b.raw = c.raw := by
    refine eq_of_toNat_eq ?_
    rw [toNat_add, Nat.mod_eq_of_lt hfits, h]
  rw [checkedAdd, U128.checkedAdd, if_pos hfits, hsum]
  rfl

/-- A sum that fits is found. -/
theorem Amount.exists_checkedAdd {a : Amount} (h : a.raw.toNat + b.raw.toNat < 2 ^ 128) :
    ∃ c, a.checkedAdd b = some c ∧ c.raw.toNat = a.raw.toNat + b.raw.toNat :=
  ⟨⟨a.raw + b.raw⟩, checkedAdd_eq_some_iff.2 (toNat_add_of_lt h), toNat_add_of_lt h⟩

theorem Amount.checkedAdd_eq_none_iff {a : Amount} : a.checkedAdd b = none ↔
    2 ^ 128 ≤ a.raw.toNat + b.raw.toNat := by
  constructor
  · intro h
    refine Nat.le_of_not_lt fun hfits => ?_
    obtain ⟨c, hc, -⟩ := exists_checkedAdd hfits
    rw [h] at hc
    cases hc
  · intro _
    refine Option.eq_none_iff_forall_ne_some.2 fun c hc => ?_
    have := toNat_checkedAdd hc
    have := c.raw.isLt
    omega

/-- What credits add up to for an address. -/
def creditedTo (credits : List (Address × Amount)) (address : Address) : ℕ :=
  (credits.map fun c => if c.1 = address then c.2.raw.toNat else 0).sum

section CreditedTo

variable (credits : List (Address × Amount)) (address : Address)

@[simp] theorem creditedTo_nil : creditedTo [] address = 0 := rfl

@[simp] theorem creditedTo_cons (c : Address × Amount) :
    creditedTo (c :: credits) address = (if c.1 = address then c.2.raw.toNat else 0) +
      creditedTo credits address :=
  rfl

@[simp] theorem creditedTo_append (credits' : List (Address × Amount)) :
    creditedTo (credits ++ credits') address =
      creditedTo credits address + creditedTo credits' address := by
  unfold creditedTo
  rw [map_append, sum_append]

/-- Credits without those of nothing. -/
def nonzeroCredits : List (Address × Amount) := credits.filter fun c => 0 < c.2.raw

/-- Credits of nothing add nothing. -/
@[simp] theorem creditedTo_nonzero : creditedTo (nonzeroCredits credits) address =
    creditedTo credits address := by
  unfold nonzeroCredits
  induction credits with
  | nil => rfl
  | cons c _ ih =>
    by_cases hzero : 0 < c.2.raw
    · rw [filter_cons_of_pos (by exact decide_eq_true hzero), creditedTo_cons, creditedTo_cons, ih]
    · have hnone : c.2.raw.toNat = 0 := Nat.eq_zero_of_not_pos fun hpos => hzero (lt_def.2 hpos)
      rw [filter_cons_of_neg (by exact fun h => hzero (of_decide_eq_true h)), ih,
        creditedTo_cons, hnone, ite_self, Nat.zero_add]

/-- An address is credited no more than all are. -/
theorem creditedTo_le : creditedTo credits address ≤ (credits.map fun c => c.2.raw.toNat).sum := by
  refine sum_le_sum fun c _ => ?_
  split
  · exact le_rfl
  · exact Nat.zero_le _

theorem nonzeroCredits_append (credits' : List (Address × Amount)) :
    nonzeroCredits (credits ++ credits') = nonzeroCredits credits ++ nonzeroCredits credits' :=
  filter_append ..

theorem nonzeroCredits_eq_nil {credits : List (Address × Amount)} (h : ∀ c ∈ credits, c.2.raw = 0) :
    nonzeroCredits credits = [] :=
  filter_eq_nil_iff.2 fun c hc => by
    rw [h c hc]
    decide

end CreditedTo

/-! ## Credits that may be dropped -/

namespace StateDB

variable (s : StateDB) (credits : List (Address × Amount)) (a : Address)

variable {credits' : List (Address × Amount)} {address : Address} {amount : Amount}

/-- A state after a credit; one that overflows is dropped. -/
def credited (c : Address × Amount) : StateDB :=
  match (s.getAccount c.1).balance.checkedAdd c.2 with
  | some balance => s.putAccount c.1 { s.getAccount c.1 with balance }
  | none => s

/-- A state after credits. -/
def creditAll : StateDB := credits.foldl credited s

theorem creditAll_append :
    s.creditAll (credits ++ credits') = (s.creditAll credits).creditAll credits' := foldl_append

theorem creditAll_nonzeroCredits_append :
    s.creditAll (nonzeroCredits (credits ++ credits')) =
      (s.creditAll (nonzeroCredits credits)).creditAll (nonzeroCredits credits') := by
  rw [nonzeroCredits_append, creditAll_append]

/-- A credit changes the balance of the one account. -/
theorem getAccount_credited (c : Address × Amount) : (s.credited c).getAccount a =
    { s.getAccount a with balance := (s.credited c).getBalance a } ∧
      (c.1 ≠ a → (s.credited c).getAccount a = s.getAccount a) := by
  unfold credited
  split
  · by_cases heq : c.1 = a
    · subst heq
      rw [getBalance, getAccount_putAccount_self]
      exact ⟨rfl, fun hne => absurd rfl hne⟩
    · rw [getBalance, getAccount_putAccount_of_ne _ (Ne.symm heq)]
      exact ⟨rfl, fun _ => rfl⟩
  · exact ⟨rfl, fun _ => rfl⟩

theorem getBalance_credited (c : Address × Amount) :
    (s.getBalance a).raw.toNat ≤ ((s.credited c).getBalance a).raw.toNat ∧
      ((s.credited c).getBalance a).raw.toNat ≤ (s.getBalance a).raw.toNat + creditedTo [c] a ∧
      ((s.getBalance a).raw.toNat + creditedTo [c] a < 2 ^ 128 →
        ((s.credited c).getBalance a).raw.toNat = (s.getBalance a).raw.toNat +
          creditedTo [c] a) := by
  rw [creditedTo_cons, creditedTo_nil, Nat.add_zero]
  by_cases heq : c.1 = a
  · subst heq
    rw [if_pos rfl]
    unfold credited
    split
    · rename_i hadd
      rw [getBalance, getBalance, getAccount_putAccount_self, toNat_checkedAdd hadd]
      exact ⟨Nat.le_add_right .., le_rfl, fun _ => rfl⟩
    · rename_i hnone
      have hover := checkedAdd_eq_none_iff.1 hnone
      exact ⟨le_rfl, Nat.le_add_right .., fun hfits => absurd hfits (Nat.not_lt.2 hover)⟩
  · have hsame : (s.credited c).getBalance a = s.getBalance a :=
      congrArg AccountState.balance ((s.getAccount_credited a c).2 heq)
    rw [if_neg heq, hsame]
    exact ⟨le_rfl, le_rfl, fun _ => rfl⟩

/-- Credits change the balances of the accounts they go to. -/
theorem getAccount_creditAll : (s.creditAll credits).getAccount a =
    { s.getAccount a with balance := (s.creditAll credits).getBalance a } ∧
      ((∀ c ∈ credits, c.1 ≠ a) → (s.creditAll credits).getAccount a = s.getAccount a) := by
  induction credits generalizing s with
  | nil => exact ⟨rfl, fun _ => rfl⟩
  | cons c rest ih =>
    obtain ⟨hfields, hsame⟩ := ih (s.credited c)
    obtain ⟨hfields', hsame'⟩ := s.getAccount_credited a c
    refine ⟨?_, fun hne => ?_⟩
    · show ((s.credited c).creditAll rest).getAccount a = _
      rw [hfields, hfields']
      rfl
    · obtain ⟨hfirst, hrest⟩ := forall_mem_cons.1 hne
      exact (hsame hrest).trans (hsame' hfirst)

/-- A balance does not fall, grows by no more than the credits to it, and grows by all of them if
there is room. -/
theorem getBalance_creditAll :
    (s.getBalance a).raw.toNat ≤ ((s.creditAll credits).getBalance a).raw.toNat ∧
      ((s.creditAll credits).getBalance a).raw.toNat ≤
        (s.getBalance a).raw.toNat + creditedTo credits a ∧
      ((s.getBalance a).raw.toNat + creditedTo credits a < 2 ^ 128 →
        ((s.creditAll credits).getBalance a).raw.toNat = (s.getBalance a).raw.toNat +
          creditedTo credits a) := by
  induction credits generalizing s with
  | nil => exact ⟨le_rfl, le_rfl, fun _ => rfl⟩
  | cons c rest ih =>
    obtain ⟨hle, _, heq⟩ := ih (s.credited c)
    obtain ⟨hle', hge', heq'⟩ := s.getBalance_credited a c
    rw [creditedTo_cons, creditedTo_nil, Nat.add_zero] at hge' heq'
    rw [creditedTo_cons, show s.creditAll (c :: rest) = (s.credited c).creditAll rest from rfl]
    refine ⟨hle'.trans hle, by omega, fun hfits => ?_⟩
    have hfirst := heq' (by omega)
    have hrest := heq (by omega)
    omega

/-- A state after a debit. -/
def debited (address : Address) (amount : Amount) : StateDB :=
  s.putAccount address
    { s.getAccount address with balance := ⟨(s.getBalance address).raw - amount.raw⟩ }

variable {s} in
theorem getBalance_debited (h : amount.raw.toNat ≤ (s.getBalance address).raw.toNat) (a : Address) :
    ((s.debited address amount).getBalance a).raw.toNat +
      (if address = a then amount.raw.toNat else 0) = (s.getBalance a).raw.toNat := by
  unfold debited
  split
  · rename_i heq
    subst heq
    rw [getBalance, getAccount_putAccount_self, toNat_sub_of_le (le_def.2 h)]
    omega
  · rename_i hne
    rw [getBalance, getAccount_putAccount_of_ne _ (Ne.symm hne)]
    rfl

/-- Every balance has room for what it is credited. -/
def RoomFor : Prop := ∀ a, (s.getBalance a).raw.toNat + creditedTo credits a < 2 ^ 128

variable {s credits} in
theorem RoomFor.getBalance (h : s.RoomFor credits) (a : Address) :
    ((s.creditAll (nonzeroCredits credits)).getBalance a).raw.toNat =
      (s.getBalance a).raw.toNat + creditedTo credits a := by
  have hcredits := (s.getBalance_creditAll (nonzeroCredits credits) a).2.2
  rw [creditedTo_nonzero] at hcredits
  exact hcredits (h a)

/-- There is room for credits if there is for the first ones and then for the others. -/
theorem roomFor_append_iff : s.RoomFor (credits ++ credits') ↔
      s.RoomFor credits ∧ (s.creditAll (nonzeroCredits credits)).RoomFor credits' := by
  constructor
  · intro h
    have hfirst : s.RoomFor credits := fun a => by
      have hall := h a
      rw [creditedTo_append] at hall
      omega
    refine ⟨hfirst, fun a => ?_⟩
    have hall := h a
    rw [creditedTo_append] at hall
    rw [hfirst.getBalance]
    omega
  · rintro ⟨hfirst, hrest⟩ a
    have hall := hrest a
    rw [hfirst.getBalance] at hall
    rw [creditedTo_append]
    omega

/-- What setting an account leaves alone, a credit leaves alone. -/
theorem unchanged_credited {α : Type} (view : StateDB → α)
    (h : ∀ (u : StateDB) address state, view (u.putAccount address state) = view u)
    (c : Address × Amount) :
    view (s.credited c) = view s := by
  unfold credited
  split
  · exact h ..
  · rfl

theorem unchanged_creditAll {α : Type} (view : StateDB → α)
    (h : ∀ (u : StateDB) address state, view (u.putAccount address state) = view u) :
    view (s.creditAll credits) = view s := by
  induction credits generalizing s with
  | nil => rfl
  | cons c _ ih => exact (ih (s.credited c)).trans (unchanged_credited s view h c)

theorem unbondingEntries_creditAll : (s.creditAll credits).unbondingEntries = s.unbondingEntries :=
  unchanged_creditAll s credits (·.unbondingEntries) fun _ _ _ => rfl

/-! ## All balances -/

noncomputable instance : Fintype Address :=
  .ofInjective (fun a : Address => a.bits.toFin) fun a b h => by
    have hbits : a.bits = b.bits := BitVec.toFin_inj.1 h
    cases a
    cases b
    exact congrArg Address.mk hbits

/-- What all accounts have together. -/
noncomputable def totalBalance : ℕ := ∑ address, (s.getBalance address).raw.toNat

variable {s} in
/-- A debit is taken from all balances. -/
theorem totalBalance_debited (h : amount.raw.toNat ≤ (s.getBalance address).raw.toNat) :
    (s.debited address amount).totalBalance + amount.raw.toNat = s.totalBalance := by
  have hsum : ∑ a, (if address = a then amount.raw.toNat else 0) = amount.raw.toNat := by
    simp only [Finset.sum_ite_eq, Finset.mem_univ, if_true]
  rw [← hsum, totalBalance, totalBalance, ← Finset.sum_add_distrib]
  exact Finset.sum_congr rfl fun a _ => getBalance_debited h a

/-- What all addresses are credited is what the credits add up to. -/
theorem sum_creditedTo : ∑ address, creditedTo credits address =
    (credits.map fun c => c.2.raw.toNat).sum := by
  induction credits with
  | nil => exact Finset.sum_const_zero
  | cons _ _ ih =>
    simp only [creditedTo_cons, Finset.sum_add_distrib, ih, map_cons, sum_cons, Finset.sum_ite_eq,
      Finset.mem_univ, if_true]

variable {s credits} in
/-- Balances that grow by the credits grow by what these add up to. -/
theorem totalBalance_of_credits {t : StateDB}
    (h : ∀ a, (t.getBalance a).raw.toNat = (s.getBalance a).raw.toNat + creditedTo credits a) :
    t.totalBalance = s.totalBalance + (credits.map fun c => c.2.raw.toNat).sum := by
  rw [← sum_creditedTo, totalBalance, totalBalance, ← Finset.sum_add_distrib]
  exact Finset.sum_congr rfl fun a _ => h a

end StateDB

namespace Db

open Confined StateDB

variable {ε : Type} {s t : StateDB}

variable {address : Address} {amount : Amount}

/-! ## Payments -/

/-- A credit in full, or an error. -/
theorem run_addBalance : (addBalance address amount).run s =
      if (s.getBalance address).raw.toNat + amount.raw.toNat < 2 ^ 128 then
        some (.ok (), s.credited (address, amount))
      else some (.error (.serialization "balance overflow"), s) := by
  unfold addBalance getAccount
  rw [run_view_bind]
  split
  · rename_i hfits
    obtain ⟨balance, hadd, -⟩ := exists_checkedAdd hfits
    have hadd : (s.getAccount address).balance.checkedAdd amount = some balance := hadd
    rw [hadd, run_okOr_some_bind, credited, hadd]
    rfl
  · rename_i hover
    have hnone : (s.getAccount address).balance.checkedAdd amount = none :=
      checkedAdd_eq_none_iff.2 (Nat.le_of_not_lt hover)
    rw [hnone, run_okOr_none_bind]

theorem returns_addBalance_iff {x : Unit} : (addBalance address amount).run s = some (.ok x, t) ↔
      (s.getBalance address).raw.toNat + amount.raw.toNat < 2 ^ 128 ∧
        t = s.credited (address, amount) := by
  rw [run_addBalance]
  split
  · rename_i hfits
    exact ⟨fun h => ⟨hfits, (Prod.mk.inj (Option.some.inj h)).2.symm⟩, fun h => by rw [h.2]⟩
  · rename_i hover
    exact ⟨nofun, fun h => absurd h.1 hover⟩

/-- A debit in full. -/
theorem returns_subBalance_iff {x : Unit} : (subBalance address amount).run s = some (.ok x, t) ↔
      amount.raw.toNat ≤ (s.getBalance address).raw.toNat ∧ t = s.debited address amount := by
  unfold subBalance getAccount
  rw [run_view_bind, returns_okOr_iff]
  constructor
  · rintro ⟨balance, hsub, h⟩
    have hsum : balance.raw.toNat + amount.raw.toNat = (s.getBalance address).raw.toNat :=
      toNat_checkedSub hsub
    have hle : amount.raw.toNat ≤ (s.getBalance address).raw.toNat := by omega
    cases h
    refine ⟨hle, ?_⟩
    have hbalance : balance = ⟨(s.getBalance address).raw - amount.raw⟩ := by
      refine congrArg Amount.mk (eq_of_toNat_eq ?_)
      rw [toNat_sub_of_le (le_def.2 hle)]
      omega
    rw [debited, hbalance]
  · rintro ⟨hle, rfl⟩
    refine ⟨⟨(s.getBalance address).raw - amount.raw⟩, ?_, rfl⟩
    unfold checkedSub U128.checkedSub
    rw [if_pos (show amount.raw.toNat ≤ (s.getAccount address).balance.raw.toNat from hle)]
    rfl

/-- A credit that is dropped if it overflows. -/
theorem run_addBalance_ignoreError (address : Address) (amount : Amount) (s : StateDB) :
    ((addBalance address amount).ignoreError : DbM ε Unit).run s =
      some (.ok (), s.credited (address, amount)) := by
  show ((addBalance address amount).run s).map _ = _
  rw [run_addBalance]
  split
  · rfl
  · rename_i hover
    have hnone : (s.getAccount address).balance.checkedAdd amount = none :=
      checkedAdd_eq_none_iff.2 (Nat.le_of_not_lt hover)
    rw [credited, hnone]
    rfl

/-- Credits of which those that overflow are dropped. -/
theorem run_forEach_ignoreError (credits : List (Address × Amount)) :
    (forEach credits fun c => (addBalance c.1 c.2).ignoreError : DbM ε Unit).run s =
      some (.ok (), s.creditAll credits) := by
  induction credits generalizing s with
  | nil => rfl
  | cons c rest ih =>
    show ((addBalance c.1 c.2).ignoreError >>= fun _ =>
      forEach rest fun c => (addBalance c.1 c.2).ignoreError : DbM ε Unit).run s = _
    rw [run_bind_of_ok (run_addBalance_ignoreError ..), ih]
    rfl

end Db

end Vtt
