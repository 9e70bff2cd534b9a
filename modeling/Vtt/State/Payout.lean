import Vtt.Lib.Runs
import Vtt.Lib.Sums
import Vtt.State.Credits
import Vtt.State.Unbonding

/-!
# Unbonding pays out once

Entries of stake being withdrawn are added for an owner, and a release at a time pays those that
have matured. Over any sequence of additions and releases every entry is paid to its owner by the
first release at or after its completion, and is gone from then on.
-/

namespace Vtt

open Lib Std List Amount

variable {other : Address} {entry : UnbondingEntry}

namespace StateDB

variable {now : Timestamp}

variable {entries : List UnbondingEntry} {owners : List (Address × List UnbondingEntry)}

/-! ## One release -/

/-- What the matured ones of some entries add up to. -/
def maturedSum (now : Timestamp) (entries : List UnbondingEntry) : ℕ :=
  ((entries.filter (matured now)).map fun e => e.amount.raw.toNat).sum

theorem foldlM_checkedAdd_iff {start total : Amount} :
    entries.foldlM (fun acc e => acc.checkedAdd e.amount) start = some total ↔
      total.raw.toNat = start.raw.toNat + (entries.map fun e => e.amount.raw.toNat).sum := by
  induction entries generalizing start with
  | nil =>
    constructor
    · intro h
      rw [Option.some.inj h]
      rfl
    · intro h
      exact congrArg some (congrArg Amount.mk (BitVec.eq_of_toNat_eq h)).symm
  | cons e _ ih =>
    rw [foldlM_cons, map_cons, sum_cons]
    constructor
    · intro h
      obtain ⟨_, hsum, hrest⟩ := Option.bind_eq_some_iff.1 h
      have hadd := toNat_checkedAdd hsum
      have hlater := ih.1 hrest
      omega
    · intro _
      have hfits : start.raw.toNat + e.amount.raw.toNat < 2 ^ 128 := by
        have := total.raw.isLt
        omega
      have hsum : (start.raw + e.amount.raw).toNat = start.raw.toNat + e.amount.raw.toNat := by
        rw [BitVec.toNat_add, Nat.mod_eq_of_lt hfits]
      refine Option.bind_eq_some_iff.2 ⟨⟨start.raw + e.amount.raw⟩, checkedAdd_eq_some_iff.2 hsum,
        ih.2 ?_⟩
      dsimp only
      omega

theorem releasedAmount_iff {released : Amount} :
    releasedAmount now entries = some released ↔ released.raw.toNat = maturedSum now entries := by
  rw [releasedAmount, foldlM_checkedAdd_iff]
  exact Eq.congr_right (Nat.zero_add _)

/-- What is released of a list of owners with their entries. -/
structure Releases (now : Timestamp) (owners : List (Address × List UnbondingEntry))
    (releases : List (Address × Amount)) (total : Amount) : Prop where
  sum : total.raw.toNat = (owners.map fun o => maturedSum now o.2).sum
  addresses : (releases.map (·.1)).Sublist (owners.map (·.1))
  each : ∀ address, (releases.map fun r => if r.1 = address then r.2.raw.toNat else 0).sum =
    (owners.map fun o => if o.1 = address then maturedSum now o.2 else 0).sum

theorem releases_of_unbondingReleases {releases : List (Address × Amount)} {total : Amount}
    (h : unbondingReleases now owners = some (releases, total)) :
    Releases now owners releases total := by
  induction owners generalizing releases total with
  | nil =>
    cases h
    exact ⟨rfl, .slnil, fun _ => rfl⟩
  | cons owner _ ih =>
    obtain ⟨_, entries⟩ := owner
    obtain ⟨released, hreleased, h⟩ := Option.bind_eq_some_iff.1 h
    obtain ⟨⟨_, _⟩, hothers, h⟩ := Option.bind_eq_some_iff.1 h
    have hlater := ih hothers
    have hsum := releasedAmount_iff.1 hreleased
    dsimp only at h
    split at h
    · -- nothing is released to this owner
      rename_i hzero
      cases h
      have hnone : maturedSum now entries = 0 := by
        rw [← hsum, isZero_iff.1 hzero]
        rfl
      refine ⟨?_, hlater.addresses.cons _, fun a => ?_⟩
      · rw [map_cons, sum_cons, hnone, Nat.zero_add]
        exact hlater.sum
      · rw [map_cons, sum_cons, hnone, ite_self, Nat.zero_add]
        exact hlater.each a
    · obtain ⟨_, htotal, h⟩ := Option.bind_eq_some_iff.1 h
      cases h
      refine ⟨?_, hlater.addresses.cons_cons _, fun a => ?_⟩
      · rw [toNat_checkedAdd htotal, hsum, hlater.sum]
        rfl
      · rw [map_cons, sum_cons, hlater.each a, map_cons, sum_cons, hsum]

/-- A release returns if all that it releases is not too much for a number of its size. -/
theorem exists_unbondingReleases (h : (owners.map fun o => maturedSum now o.2).sum < 2 ^ 128) :
    ∃ r, unbondingReleases now owners = some r := by
  induction owners with
  | nil => exact ⟨_, rfl⟩
  | cons owner _ ih =>
    obtain ⟨_, entries⟩ := owner
    rw [map_cons, sum_cons] at h
    obtain ⟨⟨_, sum⟩, hothers⟩ := ih (by omega)
    have hfits : maturedSum now entries < 2 ^ 128 := by
      dsimp only at h
      omega
    have hreleased :
        releasedAmount now entries = some ⟨BitVec.ofNat 128 (maturedSum now entries)⟩ :=
      releasedAmount_iff.2 (Nat.mod_eq_of_lt hfits)
    have hsum := (releases_of_unbondingReleases hothers).sum
    simp only [unbondingReleases, hreleased, hothers, Option.bind_eq_bind, Option.bind_some]
    split
    · exact ⟨_, rfl⟩
    · have hadd : (⟨BitVec.ofNat 128 (maturedSum now entries)⟩ : Amount).checkedAdd sum =
          some ⟨BitVec.ofNat 128 (maturedSum now entries + sum.raw.toNat)⟩ := by
        refine checkedAdd_eq_some_iff.2 ?_
        rw [BitVec.toNat_ofNat, BitVec.toNat_ofNat, Nat.mod_eq_of_lt hfits, Nat.mod_eq_of_lt]
        dsimp only at h
        omega
      rw [hadd]
      exact ⟨_, rfl⟩

/-- A release takes the matured entries out, pays them to their owners and returns what it paid
together. -/
structure PaidOut (now : Timestamp) (s : StateDB) (total : Amount) (t : StateDB) : Prop where
  entries : ∀ owner, t.getUnbondingEntries owner = (s.getUnbondingEntries owner).filter fun e =>
    !matured now e
  balance : ∀ owner, (t.getBalance owner).raw.toNat =
    (s.getBalance owner).raw.toNat + maturedSum now (s.getUnbondingEntries owner)
  total : total.raw.toNat = sumOver s.unbondingEntries fun _ entries => maturedSum now entries

/-- No balance overflows in a release. -/
def PayoutFits (now : Timestamp) (s : StateDB) : Prop :=
  ∀ owner, (s.getBalance owner).raw.toNat + maturedSum now (s.getUnbondingEntries owner) < 2 ^ 128

end StateDB

namespace Db

open Confined StateDB

variable {ε : Type} {s t : StateDB}

variable {now : Timestamp}

theorem getAccount_dropMatured (s : StateDB) (now : Timestamp) (address : Address) :
    (s.dropMatured now).getAccount address = s.getAccount address := rfl

theorem getAccount_dropReleased (total : Amount) (address : Address) :
    (s.dropReleased total).getAccount address = s.getAccount address := by
  apply getAccount_congr
  · rfl
  · intro key
    show (if total.isZero then s.storage else _).read .accounts key = _
    split
    · rfl
    · exact Storage.read_write_of_ne _ _ (.inl (by decide))

/-- The credits of a release in which no balance overflows. -/
theorem run_releases {releases : List (Address × Amount)} {total : Amount}
    (hfits : PayoutFits now s)
    (h : unbondingReleases now s.unbondingEntries.toList = some (releases, total)) :
    ∃ t, (forEach releases fun r => (addBalance r.1 r.2).ignoreError : DbM ε Unit).run
        (s.dropMatured now) = some (.ok (), t) ∧
          t.unbondingEntries = (s.dropMatured now).unbondingEntries ∧
      ∀ owner, (t.getBalance owner).raw.toNat =
        (s.getBalance owner).raw.toNat + maturedSum now (s.getUnbondingEntries owner) := by
  have hspec := releases_of_unbondingReleases h
  have heach : ∀ owner, (releases.map fun r => if r.1 = owner then r.2.raw.toNat else 0).sum =
      maturedSum now (s.getUnbondingEntries owner) := by
    intro owner
    have hat := sumOver_at s.unbondingEntries owner (maturedSum now)
    rw [sumOver] at hat
    rw [hspec.each owner, hat, getUnbondingEntries]
    cases s.unbondingEntries[owner]? with
    | none | some => rfl
  refine ⟨_, run_forEach_ignoreError .., unbondingEntries_creditAll _ _, fun owner => ?_⟩
  have hbalance : (s.dropMatured now).getBalance owner = s.getBalance owner :=
    congrArg AccountState.balance (getAccount_dropMatured s now owner)
  have hcredits := ((s.dropMatured now).getBalance_creditAll releases owner).2.2
  rw [creditedTo, heach, hbalance] at hcredits
  exact hcredits (hfits owner)

/-- A release in which no balance overflows pays what has matured. -/
theorem paid_of_processUnbonding {result : Except ε Amount} (hfits : PayoutFits now s)
    (h : (processUnbonding now).run s = some (result, t)) : ∃ total, result = .ok total ∧
      PaidOut now s total t := by
  obtain ⟨_, total, credited, rfl, hreleases, hcredits, rfl⟩ := exists_of_processUnbonding h
  obtain ⟨t, hrun, hentries, hbalance⟩ := run_releases (ε := ε) hfits hreleases
  obtain rfl : credited = t := (Prod.mk.inj (Option.some.inj (hcredits.symm.trans hrun))).2
  refine ⟨total, rfl, fun owner => ?_, fun owner => ?_,
    (releases_of_unbondingReleases hreleases).sum⟩
  · show (((credited.unbondingEntries.filter fun _ es => !es.isEmpty)[owner]?).getD []) = _
    rw [hentries]
    exact getD_filter_map s.unbondingEntries rfl
  · rw [StateDB.getBalance, getAccount_dropReleased]
    exact hbalance owner

/-- A release returns if all that it pays is not too much for a number of its size. -/
theorem exists_processUnbonding (hfits : PayoutFits now s)
    (h : (sumOver s.unbondingEntries fun _ entries => maturedSum now entries) < 2 ^ 128) :
    ∃ total t, (processUnbonding now : DbM ε Amount).run s = some (.ok total, t) := by
  obtain ⟨⟨_, total⟩, hreleases⟩ := exists_unbondingReleases h
  obtain ⟨_, hrun, -, -⟩ := run_releases (ε := ε) hfits hreleases
  unfold processUnbonding cached
  rw [run_view_bind, hreleases, run_unwrap_some_bind, run_update_bind, run_bind_of_ok hrun,
    run_update_bind]
  exact ⟨total, _, rfl⟩

end Db

/-! ## Additions and releases -/

/-- An entry is added for an owner, or what has matured at a time is released. -/
inductive UnbondingCall where
  | add (owner : Address) (entry : UnbondingEntry)
  | process (now : Timestamp)

open StateDB

/-- The calls, with what a release returns. -/
inductive UnbondingStep (s : StateDB) : UnbondingCall → StateDB → Prop where
  | add (owner : Address) (entry : UnbondingEntry) :
      UnbondingStep s (.add owner entry) (s.addUnbondingEntry owner entry)
  | process {now : Timestamp} {total : Amount} {t : StateDB} :
      (Db.processUnbonding now : DbM Empty _).run s = some (.ok total, t) →
      UnbondingStep s (.process now) t

/-- No balance overflows in a call. -/
def CallFits (s : StateDB) : UnbondingCall → Prop
  | .add _ _ => True
  | .process now => PayoutFits now s

/-- An entry is due in one of the calls. -/
def dueIn (calls : List UnbondingCall) (entry : UnbondingEntry) : Bool :=
  calls.any fun
    | .add _ _ => false
    | .process now => matured now entry

/-- The entries that are added for an owner, each with the calls after it. -/
def entriesAdded (owner : Address) : List UnbondingCall → List (UnbondingEntry × List UnbondingCall)
  | [] => []
  | .add other entry :: rest =>
    (if other = owner then [(entry, rest)] else []) ++ entriesAdded owner rest
  | .process _ :: rest => entriesAdded owner rest

/-- The entries of an owner in a run: those at its start and those that are added, each with the
calls after it. -/
def entriesGiven (owner : Address) (s : StateDB) (calls : List UnbondingCall) :
    List (UnbondingEntry × List UnbondingCall) :=
  (s.getUnbondingEntries owner).map (·, calls) ++ entriesAdded owner calls

/-- Every entry of an owner is still there or was paid, by a call in which it was due. -/
structure SettledFor (owner : Address) (s : StateDB) (calls : List UnbondingCall) (t : StateDB) :
    Prop where
  pending : t.getUnbondingEntries owner =
    ((entriesGiven owner s calls).filter fun given => !dueIn given.2 given.1).map (·.1)
  paid : (t.getBalance owner).raw.toNat = (s.getBalance owner).raw.toNat +
    (((entriesGiven owner s calls).filter fun given => dueIn given.2 given.1).map fun given =>
      given.1.amount.raw.toNat).sum

/-! ### A call more -/

/-- An entry with a call more after it. -/
def later (call : UnbondingCall) (given : UnbondingEntry × List UnbondingCall) :
    UnbondingEntry × List UnbondingCall :=
  (given.1, given.2 ++ [call])

theorem entriesAdded_append_process (owner : Address) (calls : List UnbondingCall)
    (now : Timestamp) :
    entriesAdded owner (calls ++ [.process now]) =
      (entriesAdded owner calls).map (later (.process now)) := by
  induction calls with
  | nil => rfl
  | cons call _ ih =>
    cases call with
    | add =>
      simp only [cons_append, entriesAdded, map_append, ih]
      split
      · rfl
      · rfl
    | process => exact ih

theorem entriesAdded_append_add (owner : Address) (calls : List UnbondingCall) :
    entriesAdded owner (calls ++ [.add other entry]) = (entriesAdded owner calls).map
      (later (.add other entry)) ++ if other = owner then [(entry, [])] else [] := by
  induction calls with
  | nil => simp [entriesAdded]
  | cons call _ ih =>
    cases call with
    | add =>
      simp only [cons_append, entriesAdded, map_append, ih, append_assoc]
      split
      · rfl
      · rfl
    | process => exact ih

theorem entriesGiven_append_process (owner : Address) (s : StateDB) (calls : List UnbondingCall)
    (now : Timestamp) :
    entriesGiven owner s (calls ++ [.process now]) =
      (entriesGiven owner s calls).map (later (.process now)) := by
  rw [entriesGiven, entriesGiven, entriesAdded_append_process, map_append, map_map]
  rfl

theorem entriesGiven_append_add (owner : Address) (s : StateDB) (calls : List UnbondingCall) :
    entriesGiven owner s (calls ++ [.add other entry]) = (entriesGiven owner s calls).map
      (later (.add other entry)) ++ if other = owner then [(entry, [])] else [] := by
  rw [entriesGiven, entriesGiven, entriesAdded_append_add, map_append, map_map, append_assoc]
  rfl

theorem dueIn_later_add (given : UnbondingEntry × List UnbondingCall) :
    dueIn (later (.add other entry) given).2 (later (.add other entry) given).1 =
      dueIn given.2 given.1 := by
  simp [later, dueIn]

theorem dueIn_later_process (given : UnbondingEntry × List UnbondingCall) (now : Timestamp) :
    dueIn (later (.process now) given).2 (later (.process now) given).1 =
      (dueIn given.2 given.1 || matured now given.1) := by
  simp [later, dueIn]

/-- A release pays those of the entries that are left and have matured. -/
theorem settled_later_process (now : Timestamp)
    (givens : List (UnbondingEntry × List UnbondingCall)) :
    (((givens.map (later (.process now))).filter fun given => !dueIn given.2 given.1).map (·.1) =
      (((givens.filter fun given => !dueIn given.2 given.1).map (·.1)).filter fun e =>
        !matured now e)) ∧
    (((givens.map (later (.process now))).filter fun given => dueIn given.2 given.1).map
        fun given => given.1.amount.raw.toNat).sum =
      ((givens.filter fun given => dueIn given.2 given.1).map fun given =>
        given.1.amount.raw.toNat).sum +
          maturedSum now ((givens.filter fun given => !dueIn given.2 given.1).map (·.1)) := by
  induction givens with
  | nil => exact ⟨rfl, rfl⟩
  | cons given _ ih =>
    obtain ⟨hpending, hpaid⟩ := ih
    simp only [maturedSum] at hpaid ⊢
    cases hdue : dueIn given.2 given.1 with
    | true =>
      simp only [map_cons, filter_cons, dueIn_later_process, hdue, Bool.true_or, Bool.not_true,
        Bool.false_eq_true, if_false, if_true, sum_cons]
      refine ⟨hpending, ?_⟩
      show given.1.amount.raw.toNat + _ = _
      omega
    | false =>
      cases hmatured : matured now given.1 with
      | true =>
        simp only [map_cons, filter_cons, dueIn_later_process, hdue, hmatured, Bool.or_true,
          Bool.not_true, Bool.not_false, Bool.false_eq_true, if_false, if_true, sum_cons]
        refine ⟨hpending, ?_⟩
        show given.1.amount.raw.toNat + _ = _
        omega
      | false =>
        simp only [map_cons, filter_cons, dueIn_later_process, hdue, hmatured, Bool.or_false,
          Bool.not_false, Bool.false_eq_true, if_false, if_true]
        exact ⟨congrArg (given.1 :: ·) hpending, hpaid⟩

theorem filter_later_add (givens : List (UnbondingEntry × List UnbondingCall)) (other : Address)
    (entry : UnbondingEntry) (p : Bool → Bool) :
    ((givens.map (later (.add other entry))).filter fun given => p (dueIn given.2 given.1)) =
      (givens.filter fun given => p (dueIn given.2 given.1)).map (later (.add other entry)) := by
  rw [filter_map]
  congr 1
  refine filter_congr fun given _ => ?_
  rw [Function.comp_apply, dueIn_later_add]

section Steps

variable {owner : Address} {s t u : StateDB} {calls : List UnbondingCall}

theorem getUnbondingEntries_addUnbondingEntry (db : StateDB) :
    (db.addUnbondingEntry other entry).getUnbondingEntries owner =
      db.getUnbondingEntries owner ++ if other = owner then [entry] else [] := by
  show ((db.unbondingEntries.insert other _)[owner]?).getD [] = _
  rw [get_insert]
  split
  · rename_i heq
    subst heq
    rfl
  · exact (append_nil _).symm

theorem getBalance_addUnbondingEntry (db : StateDB) :
    (db.addUnbondingEntry other entry).getBalance owner = db.getBalance owner := by
  rw [getBalance, getAccount_addUnbondingEntry, getBalance]

namespace SettledFor

theorem refl (owner : Address) (s : StateDB) : SettledFor owner s [] s := by
  have hall : entriesGiven owner s [] = (s.getUnbondingEntries owner).map (·, []) := append_nil _
  refine ⟨?_, ?_⟩
  · rw [hall, filter_eq_self.2 (fun given hgiven => ?_), map_map]
    · exact (map_id _).symm
    · obtain ⟨e, -, rfl⟩ := mem_map.1 hgiven
      rfl
  · rw [hall, filter_eq_nil_iff.2 fun given hgiven => ?_]
    · rfl
    · obtain ⟨_, -, rfl⟩ := mem_map.1 hgiven
      exact Bool.false_ne_true

theorem add (h : SettledFor owner s calls t) (other : Address) (entry : UnbondingEntry) :
    SettledFor owner s (calls ++ [.add other entry]) (t.addUnbondingEntry other entry) := by
  have hnot := filter_later_add (entriesGiven owner s calls) other entry (fun due => !due)
  have hdue := filter_later_add (entriesGiven owner s calls) other entry id
  simp only [id] at hdue
  refine ⟨?_, ?_⟩
  · rw [getUnbondingEntries_addUnbondingEntry, h.pending, entriesGiven_append_add, filter_append,
      map_append, hnot, map_map]
    congr 1
    split
    · rfl
    · rfl
  · rw [getBalance_addUnbondingEntry, h.paid, entriesGiven_append_add, filter_append, map_append,
      sum_append, hdue, map_map]
    split
    · rfl
    · rfl

theorem process {now : Timestamp} {total : Amount} (h : SettledFor owner s calls t)
    (hpaid : PaidOut now t total u) :
    SettledFor owner s (calls ++ [.process now]) u := by
  obtain ⟨hpending, hsum⟩ := settled_later_process now (entriesGiven owner s calls)
  refine ⟨?_, ?_⟩
  · rw [hpaid.entries, h.pending, entriesGiven_append_process, hpending]
  · rw [hpaid.balance, h.paid, h.pending, entriesGiven_append_process, hsum, Nat.add_assoc]

end SettledFor

/-- Every call keeps the account of the entries. -/
theorem settledFor_of_run (h : Run (Within CallFits UnbondingStep) s calls t) (owner : Address) :
    SettledFor owner s calls t := by
  induction h with
  | nil => exact .refl owner s
  | snoc _ hlast ih =>
    obtain ⟨hfits, hstep⟩ := hlast
    cases hstep with
    | add other entry => exact ih.add other entry
    | process hrun =>
      obtain ⟨_, -, hpaid⟩ := Db.paid_of_processUnbonding hfits hrun
      exact ih.process hpaid

/-- What is being withdrawn by an owner. -/
def pendingOf (db : StateDB) (owner : Address) : ℕ :=
  ((db.getUnbondingEntries owner).map fun e => e.amount.raw.toNat).sum

theorem maturedSum_add_filter (now : Timestamp) (entries : List UnbondingEntry) :
    maturedSum now entries + ((entries.filter fun e => !matured now e).map fun e =>
      e.amount.raw.toNat).sum = (entries.map fun e => e.amount.raw.toNat).sum := by
  unfold maturedSum
  induction entries with
  | nil => rfl
  | cons e =>
    simp only [filter_cons, map_cons, sum_cons]
    cases matured now e with
    | true =>
      simp only [if_true, Bool.not_true, Bool.false_eq_true, if_false, map_cons, sum_cons]
      omega
    | false =>
      simp only [Bool.false_eq_true, if_false, Bool.not_false, if_true, map_cons, sum_cons]
      omega

/-- A release moves from entries to balances, and returns what it moved. -/
theorem StateDB.PaidOut.conserved {now : Timestamp} {total : Amount} (h : PaidOut now t total u) :
    (∀ owner, (u.getBalance owner).raw.toNat + pendingOf u owner = (t.getBalance owner).raw.toNat +
      pendingOf t owner) ∧
    total.raw.toNat = sumOver t.unbondingEntries fun owner _ =>
      (u.getBalance owner).raw.toNat - (t.getBalance owner).raw.toNat := by
  refine ⟨fun owner => ?_, ?_⟩
  · have hsplit := maturedSum_add_filter now (t.getUnbondingEntries owner)
    rw [h.balance, pendingOf, h.entries, pendingOf]
    omega
  · rw [h.total]
    refine sumOver_congr fun owner entries hget => ?_
    have hentries : t.getUnbondingEntries owner = entries := by
      rw [getUnbondingEntries, hget, Option.getD_some]
    rw [h.balance, hentries]
    omega

/-- Over any additions and releases in which no balance overflows, every entry is paid to its owner
by the first release in which it is due and is there until then. A further release that returns
moves what has matured from entries to balances and returns what it moved, and it returns unless
that is too much for a number of its size. -/
theorem entries_paid_once (h : Run (Within CallFits UnbondingStep) s calls t) :
    (∀ owner, SettledFor owner s calls t) ∧
    ∀ now, PayoutFits now t →
      (∀ total u, (Db.processUnbonding now : DbM Empty _).run t = some (.ok total, u) →
        (∀ owner, (u.getBalance owner).raw.toNat + pendingOf u owner =
          (t.getBalance owner).raw.toNat + pendingOf t owner) ∧
        total.raw.toNat = sumOver t.unbondingEntries fun owner _ =>
          (u.getBalance owner).raw.toNat - (t.getBalance owner).raw.toNat) ∧
      ((sumOver t.unbondingEntries fun _ entries => maturedSum now entries) < 2 ^ 128 →
        ∃ total u, (Db.processUnbonding now : DbM Empty _).run t = some (.ok total, u)) := by
  refine ⟨settledFor_of_run h,
    fun now hfits => ⟨fun total u hrun => ?_, Db.exists_processUnbonding hfits⟩⟩
  obtain ⟨_, heq, hpaid⟩ := Db.paid_of_processUnbonding hfits hrun
  cases heq
  exact hpaid.conserved

end Steps

namespace Demo

/-- An entry that is complete at a time. -/
def maturing : UnbondingEntry := { amount := ⟨7⟩, completionTime := 100, validator := .zero }

theorem maturing_fits : PayoutFits 100 (new.addUnbondingEntry .zero maturing) := by
  intro owner
  have hbalance : (new.getBalance owner).raw.toNat = 0 := by
    unfold getBalance getAccount
    rfl
  have hentries : new.getUnbondingEntries owner = [] := by
    unfold getUnbondingEntries
    rfl
  rw [getBalance_addUnbondingEntry, getUnbondingEntries_addUnbondingEntry, hbalance, hentries]
  split
  · decide
  · decide

/-- An entry is added and released at its completion. -/
theorem maturing_paid_once : ∃ t,
    Run (Within CallFits UnbondingStep) new [.add .zero maturing, .process 100] t ∧
      ∀ owner, SettledFor owner new [.add .zero maturing, .process 100] t := by
  obtain ⟨_, t, hrun⟩ := Db.exists_processUnbonding (ε := Empty) maturing_fits (by decide +kernel)
  have hadd : Within CallFits UnbondingStep new (.add .zero maturing)
      (new.addUnbondingEntry .zero maturing) := ⟨trivial, .add _ _⟩
  have hprocess :
      Within CallFits UnbondingStep (new.addUnbondingEntry .zero maturing) (.process 100) t :=
    ⟨maturing_fits, .process hrun⟩
  have hall := (Run.nil.snoc hadd).snoc hprocess
  exact ⟨t, hall, (entries_paid_once hall).1⟩

end Demo

end Vtt
