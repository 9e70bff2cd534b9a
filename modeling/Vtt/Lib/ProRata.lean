import Mathlib.Tactic.Ring
import Vtt.Lib.Runs

/-!
# Shares of a fund

A holder gives units back and gets the part of the pool that they are of all units, rounded down.
What is rounded off stays in the pool, so nobody loses by coming late, and the last holder gets all
that is left.
-/

namespace Vtt.Lib

/-- A pool, and the units it is divided by. -/
structure Fund where
  pool : ℕ
  supply : ℕ

namespace Fund

variable {f g k : Fund} {units : ℕ}

/-- What units are worth, rounded down. -/
def share (f : Fund) (units : ℕ) : ℕ := units * f.pool / f.supply

/-- The fund after units were given back. -/
def redeem (f : Fund) (units : ℕ) : Fund := ⟨f.pool - f.share units, f.supply - units⟩

/-- The pool is at least as much for each unit. -/
def NoWorse (f g : Fund) : Prop := f.pool * g.supply ≤ g.pool * f.supply

theorem NoWorse.refl (f : Fund) : NoWorse f f := Nat.le_refl _

theorem NoWorse.trans (hg : 0 < g.supply) (h : NoWorse f g) (h' : NoWorse g k) : NoWorse f k := by
  have hleft : f.pool * k.supply * g.supply ≤ k.pool * f.supply * g.supply := by
    calc
      f.pool * k.supply * g.supply = f.pool * g.supply * k.supply := by ring
      _ ≤ g.pool * f.supply * k.supply := Nat.mul_le_mul_right _ h
      _ = g.pool * k.supply * f.supply := by ring
      _ ≤ k.pool * g.supply * f.supply := Nat.mul_le_mul_right _ h'
      _ = k.pool * f.supply * g.supply := by ring
  exact Nat.le_of_mul_le_mul_right hleft hg

/-- Units are worth no less. -/
theorem NoWorse.share_le (hf : 0 < f.supply) (hg : 0 < g.supply) (h : NoWorse f g) (units : ℕ) :
    f.share units ≤ g.share units := by
  refine (Nat.le_div_iff_mul_le hg).2 (Nat.le_of_mul_le_mul_right ?_ hf)
  calc
    f.share units * g.supply * f.supply = f.share units * f.supply * g.supply := by ring
    _ ≤ units * f.pool * g.supply := Nat.mul_le_mul_right _ (Nat.div_mul_le_self ..)
    _ = units * (f.pool * g.supply) := by ring
    _ ≤ units * (g.pool * f.supply) := Nat.mul_le_mul_left _ h
    _ = units * g.pool * f.supply := by ring

theorem share_le_pool (f : Fund) (h : units ≤ f.supply) : f.share units ≤ f.pool := by
  refine Nat.div_le_of_le_mul ?_
  exact Nat.mul_le_mul_right _ h

/-- All units are worth the whole pool. -/
theorem share_supply (hf : 0 < f.supply) : f.share f.supply = f.pool := Nat.mul_div_cancel_left _ hf

/-- The units that are left are worth no less. -/
theorem noWorse_redeem (f : Fund) (units : ℕ) : NoWorse f (f.redeem units) := by
  show f.pool * (f.supply - units) ≤ (f.pool - f.share units) * f.supply
  rw [Nat.mul_sub, Nat.sub_mul, Nat.mul_comm f.pool units]
  exact Nat.sub_le_sub_left (Nat.div_mul_le_self ..) _

/-! ## Runs -/

/-- Units that are given back, and what is paid for them. -/
structure Redemption where
  units : ℕ
  paid : ℕ

/-- Units of a fund are given back for what they are worth. -/
structure Redeems (f : Fund) (r : Redemption) (g : Fund) : Prop where
  some : 0 < f.supply
  enough : r.units ≤ f.supply
  paid : r.paid = f.share r.units
  after : g = f.redeem r.units

variable {rs : List Redemption}

/-- What was paid and what is left. -/
theorem run_spent (h : Run Redeems f rs g) : (rs.map (·.paid)).sum + g.pool = f.pool := by
  induction h with
  | nil => exact Nat.zero_add _
  | @snoc _ r g k _ hstep _ =>
    have hle := g.share_le_pool hstep.enough
    have hleft : k.pool = g.pool - g.share r.units := by rw [hstep.after, redeem]
    rw [List.map_append, List.sum_append, List.map_singleton, List.sum_singleton, hstep.paid, hleft]
    omega

theorem run_returned (h : Run Redeems f rs g) : (rs.map (·.units)).sum + g.supply = f.supply := by
  induction h with
  | nil => exact Nat.zero_add _
  | @snoc _ r g k _ hstep _ =>
    have hle := hstep.enough
    have hleft : k.supply = g.supply - r.units := by rw [hstep.after, redeem]
    rw [List.map_append, List.sum_append, List.map_singleton, List.sum_singleton, hleft]
    omega

/-- The state before every step still has units, so that the ratio is carried through it. -/
theorem run_noWorse (h : Run Redeems f rs g) : NoWorse f g := by
  induction h with
  | nil => exact .refl f
  | @snoc _ r g _ _ hstep ih =>
    rw [hstep.after]
    exact ih.trans hstep.some (noWorse_redeem g r.units)

/-- Everyone is paid at least what the units were worth at the start. -/
theorem run_fair (h : Run Redeems f rs g) : ∀ r ∈ rs, f.share r.units ≤ r.paid := by
  induction h with
  | nil => exact nofun
  | @snoc _ _ _ _ hrun hstep ih =>
    intro r' hr'
    rcases List.mem_append.1 hr' with hbefore | hlast
    · exact ih r' hbefore
    · obtain rfl := List.mem_singleton.1 hlast
      have hsome : 0 < f.supply := by
        have := run_returned hrun
        have := hstep.some
        omega
      rw [hstep.paid]
      exact (run_noWorse hrun).share_le hsome hstep.some _

/-- The last units empty the pool. -/
theorem run_empty (h : Run Redeems f rs g) (hrs : rs ≠ []) (hg : g.supply = 0) : g.pool = 0 := by
  cases h with
  | nil => exact absurd rfl hrs
  | @snoc _ r g' _ _ hstep =>
    have hall : r.units = g'.supply := by
      have hleft : g.supply = g'.supply - r.units := by rw [hstep.after, redeem]
      have := hstep.enough
      omega
    rw [hstep.after, redeem, hall, share_supply hstep.some]
    exact Nat.sub_self _

end Fund

end Vtt.Lib
