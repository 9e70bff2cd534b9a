import Vtt.State.Credits
import Vtt.State.Holdings

/-!
# When tokens can be moved

Setting an ownership record adds up what was there and what is there now, and stops if either does
not fit into a word. A transfer sets two records, and it needs a tradeable asset unless there is
nothing to move.
-/

namespace Vtt

open Lib OwnershipRecord Amount
open Option (map_eq_some_iff)

variable {r : OwnershipRecord}

/-- Amounts add up exactly if the sum fits. -/
theorem OwnershipRecord.exists_total_iff : (∃ total, r.total = some total) ↔ r.held < 2 ^ 128 := by
  constructor
  · rintro ⟨total, h⟩
    have hsum := toNat_checkedAdd h
    unfold held
    rw [← hsum]
    exact total.raw.isLt
  · intro h
    obtain ⟨total, htotal, -⟩ := exists_checkedAdd h
    exact ⟨total, htotal⟩

theorem OwnershipRecord.exists_debit_iff {amount : Amount} :
    (∃ debited, r.debit amount = some debited) ↔ amount.raw.toNat ≤ r.available.raw.toNat := by
  constructor
  · rintro ⟨_, h⟩
    obtain ⟨available, hsub, -⟩ := map_eq_some_iff.1 h
    have := toNat_checkedSub hsub
    omega
  · intro h
    obtain ⟨available, hsub⟩ := exists_checkedSub (show amount ≤ r.available from h)
    exact ⟨_, map_eq_some_iff.2 ⟨available, hsub, rfl⟩⟩

/-- What a debit leaves of a record. -/
theorem OwnershipRecord.of_debit {debited : OwnershipRecord} {amount : Amount}
    (h : r.debit amount = some debited) :
    (debited.assetId, debited.owner) = (r.assetId, r.owner) ∧
      debited.held + amount.raw.toNat = r.held := by
  obtain ⟨_, hsub, rfl⟩ := map_eq_some_iff.1 h
  have := toNat_checkedSub hsub
  refine ⟨rfl, ?_⟩
  unfold held
  dsimp only
  omega

theorem OwnershipRecord.of_credit {credited : OwnershipRecord} {amount : Amount}
    (h : r.credit amount = some credited) :
    (credited.assetId, credited.owner) = (r.assetId, r.owner) ∧
      credited.held = r.held + amount.raw.toNat := by
  obtain ⟨_, hadd, rfl⟩ := map_eq_some_iff.1 h
  have := toNat_checkedAdd hadd
  refine ⟨rfl, ?_⟩
  unfold held
  dsimp only
  omega

namespace StateDB

/-- Tokens can be moved: there are none, or the asset is tradeable, the source has them available,
and what source and destination hold fits into a word. -/
def Transferable (s : StateDB) (assetId : H256) (source dest : Address) (amount : Amount) : Prop :=
  amount.raw = 0 ∨ (∃ asset, s.getAsset assetId = some asset ∧ asset.isTradeable = true) ∧
      amount.raw.toNat ≤ s.holdings.available (assetId, source) ∧
      s.holdings.held (assetId, source) < 2 ^ 128 ∧
      (source ≠ dest → s.holdings.held (assetId, dest) + amount.raw.toNat < 2 ^ 128)

end StateDB

namespace Db

open Confined StateDB

variable {ε : Type} {s t : StateDB} {record : OwnershipRecord}
variable {amount : Amount} {assetId : H256}

variable {source owner : Address}

theorem exists_putOwnership_iff :
    (∃ t, (putOwnership record : DbM ε Unit).run s = some (.ok (), t)) ↔
      s.holdings.held (record.assetId, record.owner) < 2 ^ 128 ∧ record.held < 2 ^ 128 := by
  have hprev : (∃ total, s.ownershipTotal record.assetId record.owner = some total) ↔
      s.holdings.held (record.assetId, record.owner) < 2 ^ 128 := by
    unfold ownershipTotal Holdings.held Holdings.recordOf holdings
    cases s.ownership[(record.assetId, record.owner)]? with
    | none => exact ⟨fun _ => show (0 : ℕ) < 2 ^ 128 by decide, fun _ => ⟨_, rfl⟩⟩
    | some => exact exists_total_iff
  rw [← hprev, ← exists_total_iff]
  simp only [run_putOwnership, StateDB.putOwnership]
  constructor
  · rintro ⟨_, h⟩
    obtain ⟨_, hput, -⟩ := map_eq_some_iff.1 h
    obtain ⟨prev, hprev, hrest⟩ := Option.bind_eq_some_iff.1 hput
    obtain ⟨new, hnew, -⟩ := map_eq_some_iff.1 hrest
    exact ⟨⟨prev, hprev⟩, new, hnew⟩
  · rintro ⟨⟨_, hprev⟩, _, hnew⟩
    rw [hprev, hnew]
    exact ⟨_, rfl⟩

/-- What setting a record does. -/
theorem holdings_of_putOwnership {x : Unit}
    (h : (putOwnership record : DbM ε Unit).run s = some (.ok x, t)) :
    t.holdings = s.holdings.insert (record.assetId, record.owner) record ∧ t.assets = s.assets := by
  rw [run_putOwnership] at h
  obtain ⟨_, hput, heq⟩ := map_eq_some_iff.1 h
  cases heq
  obtain ⟨_, -, hrest⟩ := Option.bind_eq_some_iff.1 hput
  obtain ⟨_, -, rfl⟩ := map_eq_some_iff.1 hrest
  exact ⟨rfl, rfl⟩

/-- What the destination holds after the debit leaves room for the credit, if it is another
owner. -/
theorem room_after_debit {dest : Address} {m m' : Holdings} {debited : OwnershipRecord}
    (hdebit : (m.recordOf (assetId, source)).debit amount = some debited)
    (hinsert : m' = m.insert (assetId, source) debited)
    (hsource : m.held (assetId, source) < 2 ^ 128) :
    m'.held (assetId, dest) + amount.raw.toNat < 2 ^ 128 ↔
      (source ≠ dest → m.held (assetId, dest) + amount.raw.toNat < 2 ^ 128) := by
  have hheld := (of_debit hdebit).2
  subst hinsert
  rw [Holdings.held, Holdings.recordOf_insert]
  by_cases heq : source = dest
  · rw [if_pos (by rw [heq]), hheld]
    exact ⟨fun _ hne => absurd heq hne, fun _ => hsource⟩
  · rw [if_neg fun h => heq (Prod.mk.inj h).2]
    exact ⟨fun h _ => h, fun h => h heq⟩

/-- A record can be credited and set exactly if what its owner holds then fits. -/
theorem exists_credit_iff (hkeyed : s.holdings.Keyed) : (∃ t, (do
      let record ← getOwnership assetId owner
      let credited ← Confined.unwrap (record.credit amount)
      putOwnership credited : DbM ε Unit).run s = some (.ok (), t)) ↔
      s.holdings.held (assetId, owner) + amount.raw.toNat < 2 ^ 128 := by
  have hkey := hkeyed.recordOf (assetId, owner)
  constructor
  · rintro ⟨t, h⟩
    obtain ⟨_, hcredit, h⟩ := ok_of_unwrap (o := (s.getOwnership assetId owner).credit amount) h
    have hheld := (of_credit hcredit).2
    have hfits := (exists_putOwnership_iff.1 ⟨t, h⟩).2
    rw [hheld] at hfits
    exact hfits
  · intro h
    have havailable : (s.getOwnership assetId owner).available.raw.toNat + amount.raw.toNat <
        2 ^ 128 :=
      Nat.lt_of_le_of_lt (Nat.add_le_add_right (Nat.le_add_right ..) _) h
    obtain ⟨available, hadd, -⟩ := exists_checkedAdd havailable
    have hcredit : (s.getOwnership assetId owner).credit amount =
        some { s.getOwnership assetId owner with available } := by
      rw [credit, hadd]
      rfl
    obtain ⟨hkey', hheld⟩ := of_credit hcredit
    have hput : ∃ t,
        (putOwnership { s.getOwnership assetId owner with available } : DbM ε Unit).run s =
        some (.ok (), t) := by
      refine exists_putOwnership_iff.2 ⟨?_, ?_⟩
      · exact Nat.lt_of_le_of_lt (Nat.le_add_right ..) (hkey.symm ▸ h)
      · rw [hheld]
        exact h
    obtain ⟨t, hput⟩ := hput
    exact ⟨t, (returns_unwrap_iff (o := (s.getOwnership assetId owner).credit amount)).2 ⟨_,
      hcredit, hput⟩⟩

/-- The debit of a record can be set exactly if its owner has the amount available, and what the
owner holds fits. -/
theorem exists_putDebited_iff (hkeyed : s.holdings.Keyed) :
    (∃ debited t, (s.getOwnership assetId owner).debit amount = some debited ∧
      (putOwnership debited : DbM ε Unit).run s = some (.ok (), t)) ↔
      amount.raw.toNat ≤ s.holdings.available (assetId, owner) ∧ s.holdings.held (assetId, owner) <
        2 ^ 128 := by
  have hkey := hkeyed.recordOf (assetId, owner)
  constructor
  · rintro ⟨debited, t, hdebit, hput⟩
    obtain ⟨hkey', -⟩ := of_debit hdebit
    have hfits := (exists_putOwnership_iff.1 ⟨t, hput⟩).1
    rw [hkey'.trans hkey] at hfits
    exact ⟨exists_debit_iff.1 ⟨debited, hdebit⟩, hfits⟩
  · rintro ⟨havailable, hfits⟩
    obtain ⟨debited, hdebit⟩ := exists_debit_iff.2 havailable
    obtain ⟨hkey', hheld⟩ := of_debit hdebit
    obtain ⟨t, hput⟩ : ∃ t, (putOwnership debited : DbM ε Unit).run s = some (.ok (), t) := by
      refine exists_putOwnership_iff.2 ⟨?_, ?_⟩
      · rw [hkey'.trans hkey]
        exact hfits
      · exact Nat.lt_of_le_of_lt (Nat.le_add_right ..) (hheld.trans_lt hfits)
    exact ⟨debited, t, hdebit, hput⟩

/-- Tokens are moved exactly if they can be. -/
theorem exists_transferAsset_iff {dest : Address} (hkeyed : s.holdings.Keyed) :
    (∃ t, (transferAsset assetId source dest amount).run s = some (.ok (), t)) ↔
      s.Transferable assetId source dest amount := by
  unfold transferAsset Transferable
  by_cases hzero : amount.isZero = true
  · rw [if_pos hzero]
    exact ⟨fun _ => .inl (beq_iff_eq.1 hzero), fun _ => ⟨s, rfl⟩⟩
  rw [if_neg hzero, or_iff_right (mt beq_iff_eq.2 hzero)]
  have hkey := hkeyed.recordOf (assetId, source)
  constructor
  · rintro ⟨t, h⟩
    obtain ⟨asset, hasset, h⟩ := ok_of_okOr (o := s.getAsset assetId) h
    obtain ⟨htradeable, h⟩ := ok_of_require h
    obtain ⟨debited, hdebit, h⟩ := ok_of_okOr (o := (s.getOwnership assetId source).debit amount) h
    obtain ⟨_, u, hput, h⟩ := run_bind_ok h
    obtain ⟨havailable, hfits⟩ := (exists_putDebited_iff hkeyed).1 ⟨debited, u, hdebit, hput⟩
    have hkey' := (of_debit hdebit).1.trans hkey
    obtain ⟨hinsert, -⟩ := holdings_of_putOwnership hput
    rw [hkey'] at hinsert
    have hkeyed' : u.holdings.Keyed := hinsert ▸ hkeyed.insert hkey'
    refine ⟨⟨asset, hasset, htradeable⟩, havailable, hfits,
      (room_after_debit hdebit hinsert hfits).1 ?_⟩
    exact (exists_credit_iff hkeyed').1 ⟨t, h⟩
  · rintro ⟨⟨asset, hasset, htradeable⟩, havailable, hfits, hroom⟩
    obtain ⟨debited, u, hdebit, hput⟩ :=
      (exists_putDebited_iff (ε := StateError) hkeyed).2 ⟨havailable, hfits⟩
    have hkey' := (of_debit hdebit).1.trans hkey
    obtain ⟨hinsert, -⟩ := holdings_of_putOwnership hput
    rw [hkey'] at hinsert
    have hkeyed' : u.holdings.Keyed := hinsert ▸ hkeyed.insert hkey'
    obtain ⟨t, hcredit⟩ := (exists_credit_iff (ε := StateError) hkeyed').2
      ((room_after_debit hdebit hinsert hfits).2 hroom)
    refine ⟨t, (returns_okOr_iff (o := s.getAsset assetId)).2 ⟨asset, hasset, ?_⟩⟩
    refine returns_require_iff.2 ⟨htradeable, ?_⟩
    refine (returns_okOr_iff (o := (s.getOwnership assetId source).debit amount)).2
      ⟨debited, hdebit, ?_⟩
    exact returns_bind_iff.2 ⟨(), u, hput, hcredit⟩

end Db

end Vtt
