import Vtt.Dex.Arithmetic
import Vtt.Dex.Effects
import Vtt.Lib.ConstantProduct

/-!
# Quotes of the exchange as natural numbers

What the exchange computes before it moves anything: the amounts it takes of a deposit, the shares
for it, the fees of an input and the output for it. Every quotient is rounded down.
-/

namespace Vtt

open Lib

namespace Dex

theorem toNat_pos {x : U128} (h : x ≠ 0) : 0 < x.toNat :=
  Nat.pos_of_ne_zero fun hzero => h (BitVec.eq_of_toNat_eq hzero)

/-- A quotient of a product, which is rounded down. -/
theorem mul_le_of_quotient {x y divisor q : U128} (h : (U256.mulU128 x y).divU128 divisor = .ok q) :
    q.toNat * divisor.toNat ≤ x.toNat * y.toNat := by
  obtain ⟨-, hq⟩ := U256.divU128_eq_ok h
  rw [hq, U256.toNat_mulU128]
  exact Nat.div_mul_le_self _ _

/-- The shares for a deposit are at most in proportion to its parts. -/
theorem sharesFor_le {pool : PoolState} {actualA actualB lp : U128}
    (h : sharesFor pool actualA actualB = .ok lp) :
    lp.toNat * pool.reserveA.raw.toNat ≤ actualA.toNat * pool.lpTotalSupply.raw.toNat ∧
      lp.toNat * pool.reserveB.raw.toNat ≤ actualB.toNat * pool.lpTotalSupply.raw.toNat := by
  obtain ⟨lpA, hA, h⟩ := ok_of_bind h
  obtain ⟨lpB, hB, h⟩ := ok_of_bind h
  obtain rfl := Except.ok.inj h
  obtain ⟨hleA, hleB⟩ := U128.min_le lpA lpB
  exact ⟨(Nat.mul_le_mul_right _ hleA).trans (mul_le_of_quotient hA),
    (Nat.mul_le_mul_right _ hleB).trans (mul_le_of_quotient hB)⟩

/-- The output for an input, which is rounded down. -/
theorem getAmountOut_le {net reserveIn reserveOut out : U128}
    (h : getAmountOut net reserveIn reserveOut = .ok out) :
    (0 < reserveIn.toNat ∧ 0 < reserveOut.toNat) ∧
      out.toNat * (reserveIn.toNat + net.toNat) ≤ reserveOut.toNat * net.toNat := by
  unfold getAmountOut at h
  split at h
  · cases h
  split at h
  · cases h
  rename_i hreserves
  rw [not_or] at hreserves
  refine ⟨⟨toNat_pos hreserves.1, toNat_pos hreserves.2⟩, ?_⟩
  split at h
  · cases h
  · rename_i hsum
    rw [← U128.toNat_checkedAdd hsum]
    exact mul_le_of_quotient h

end Dex

end Vtt
