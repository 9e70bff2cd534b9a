import Mathlib.Tactic.Ring
import Mathlib.Tactic.Linarith

/-!
# Shares of a constant-product pool

A pool has two reserves and a number of shares. One share stands for the geometric mean of the
reserves divided by the number of shares; its square is compared here without division. Deposits,
withdrawals and trades that round in favour of the pool never lower the value of a share.
-/

namespace Vtt.Lib

/-- Two reserves and the shares in them. -/
@[ext]
structure Reserves where
  a : ℕ
  b : ℕ
  shares : ℕ

namespace Reserves

variable {x a burned : ℕ}

/-- A share of the second pool is worth at least as much as a share of the first. -/
def NoLoss (r r' : Reserves) : Prop :=
  r.a * r.b * r'.shares ^ 2 ≤ r'.a * r'.b * r.shares ^ 2

/-- Nothing is used up, and the shares are at most the geometric mean of the reserves. -/
structure Backed (r : Reserves) : Prop where
  a_pos : 0 < r.a
  b_pos : 0 < r.b
  shares_pos : 0 < r.shares
  sq_shares_le : r.shares ^ 2 ≤ r.a * r.b

variable {r r₁ r' : Reserves}

theorem NoLoss.refl (r : Reserves) : NoLoss r r := le_refl _

theorem NoLoss.trans (h : NoLoss r r₁) (h' : NoLoss r₁ r') (hpos : 0 < r₁.shares) :
    NoLoss r r' := by
  have hsq : 0 < r₁.shares ^ 2 := pow_pos hpos 2
  refine Nat.le_of_mul_le_mul_right ?_ hsq
  calc r.a * r.b * r'.shares ^ 2 * r₁.shares ^ 2 =
        r.a * r.b * r₁.shares ^ 2 * r'.shares ^ 2 := by ring
    _ ≤ r₁.a * r₁.b * r.shares ^ 2 * r'.shares ^ 2 := Nat.mul_le_mul_right _ h
    _ = r₁.a * r₁.b * r'.shares ^ 2 * r.shares ^ 2 := by ring
    _ ≤ r'.a * r'.b * r₁.shares ^ 2 * r.shares ^ 2 := Nat.mul_le_mul_right _ h'
    _ = r'.a * r'.b * r.shares ^ 2 * r₁.shares ^ 2 := by ring

/-- It is enough that neither reserve falls by more than the shares do. -/
theorem noLoss_of_ratio (ha : r.a * r'.shares ≤ r'.a * r.shares)
    (hb : r.b * r'.shares ≤ r'.b * r.shares) :
    NoLoss r r' := by
  calc r.a * r.b * r'.shares ^ 2 = (r.a * r'.shares) * (r.b * r'.shares) := by ring
    _ ≤ (r'.a * r.shares) * (r'.b * r.shares) := Nat.mul_le_mul ha hb
    _ = r'.a * r'.b * r.shares ^ 2 := by ring

/-- With as many shares as before it is enough that the product does not fall. -/
theorem noLoss_of_product (hshares : r'.shares = r.shares) (h : r.a * r.b ≤ r'.a * r'.b) :
    NoLoss r r' := by
  unfold NoLoss
  rw [hshares]
  exact Nat.mul_le_mul_right _ h

/-- Shares stay backed if a share is worth as much as before. -/
theorem Backed.sq_le_of_noLoss (h : r.Backed) (hloss : NoLoss r r') :
    r'.shares ^ 2 ≤ r'.a * r'.b := by
  have hpos : 0 < r.a * r.b := Nat.mul_pos h.a_pos h.b_pos
  refine Nat.le_of_mul_le_mul_left ?_ hpos
  calc r.a * r.b * r'.shares ^ 2 ≤ r'.a * r'.b * r.shares ^ 2 := hloss
    _ ≤ r'.a * r'.b * (r.a * r.b) := Nat.mul_le_mul_left _ h.sq_shares_le
    _ = r.a * r.b * (r'.a * r'.b) := by ring

/-! ## Deposits, withdrawals and trades -/

/-- What is minted for a deposit is at most in proportion to both parts of the deposit. -/
theorem noLoss_deposit {y minted : ℕ} (hx : minted * r.a ≤ x * r.shares)
    (hy : minted * r.b ≤ y * r.shares) :
    NoLoss r ⟨r.a + x, r.b + y, r.shares + minted⟩ := by
  apply noLoss_of_ratio
  · linarith
  · linarith

/-- What is left of a reserve after at most the part of some shares is paid out. -/
theorem ratio_of_withdraw {shares : ℕ} (hx : x * shares ≤ burned * a) :
    a * (shares - burned) ≤ (a - x) * shares := by
  rw [Nat.mul_sub, Nat.sub_mul]
  have : x * shares ≤ a * burned := by linarith
  omega

/-- What is paid out for shares is at most in proportion to them. -/
theorem noLoss_withdraw {y : ℕ} (hx : x * r.shares ≤ burned * r.a)
    (hy : y * r.shares ≤ burned * r.b) :
    NoLoss r ⟨r.a - x, r.b - y, r.shares - burned⟩ :=
  noLoss_of_ratio (ratio_of_withdraw hx) (ratio_of_withdraw hy)

/-- Something is left of a reserve if some shares are. -/
theorem lt_of_withdraw {shares : ℕ} (hpos : 0 < a) (hlt : burned < shares)
    (hx : x * shares ≤ burned * a) : x < a := by
  by_contra hge
  have hmul : a * shares ≤ burned * a := (Nat.mul_le_mul_right _ (Nat.not_lt.1 hge)).trans hx
  have : burned * a < shares * a := Nat.mul_lt_mul_of_pos_right hlt hpos
  linarith

/-- What is paid for an input of which at least the net amount stays in the pool. -/
theorem product_le_of_trade {b net out : ℕ} (hnet : net ≤ x) (hout : out * (a + net) ≤ b * net) :
    a * b ≤ (a + x) * (b - out) := by
  calc a * b = b * (a + net) - b * net := by rw [← Nat.mul_sub]; simp [Nat.mul_comm]
    _ ≤ b * (a + net) - out * (a + net) := Nat.sub_le_sub_left hout _
    _ = (a + net) * (b - out) := by rw [← Nat.sub_mul, Nat.mul_comm]
    _ ≤ (a + x) * (b - out) := by gcongr

/-- A trade does not take all of a reserve. -/
theorem lt_of_trade {b net out : ℕ} (ha : 0 < a) (hb : 0 < b) (hout : out * (a + net) ≤ b * net) :
    out < b := by
  by_contra hge
  have hmul : b * (a + net) ≤ b * net := (Nat.mul_le_mul_right _ (Nat.not_lt.1 hge)).trans hout
  have : 0 < b * a := Nat.mul_pos hb ha
  rw [Nat.mul_add] at hmul
  omega

/-- If the shares and one reserve are what they were, the other reserve is not lower. -/
theorem NoLoss.le_of_same (h : NoLoss r r') (hpos : 0 < r.shares) (hshares : r'.shares = r.shares) :
    (0 < r.a → r'.a = r.a → r.b ≤ r'.b) ∧ (0 < r.b → r'.b = r.b → r.a ≤ r'.a) := by
  unfold NoLoss at h
  rw [hshares] at h
  have hprod : r.a * r.b ≤ r'.a * r'.b := Nat.le_of_mul_le_mul_right h (pow_pos hpos 2)
  constructor
  · intro ha hsame
    rw [hsame] at hprod
    exact Nat.le_of_mul_le_mul_left hprod ha
  · intro hb hsame
    rw [hsame] at hprod
    exact Nat.le_of_mul_le_mul_right hprod hb

end Reserves

end Vtt.Lib
