import Mathlib.Data.Nat.Bitwise
import Vtt.Dex.Math

/-!
# The arithmetic of the exchange on naturals

What the operations on double words compute: the product is exact, the quotient is the one of
natural numbers whenever it fits a word, and the square root is never above the real one. It is the
real one, rounded down, unless the first estimate is too large for a word.
-/

namespace Vtt

open Lib List BitVec Nat Except U256
open Nat (mod_eq_of_lt zero_add not_le)

variable {n : ℕ} {x : U128}

namespace U256

variable {divisor : U128} {i : ℕ}

/-- The number that two halves stand for. -/
def toNat (n : U256) : ℕ := n.hi.toNat * 2 ^ 128 + n.lo.toNat

/-! ## Products -/

/-- The parts of a product of two numbers of two digits each, with the carries. -/
theorem product_digits {ll lh hl mid lo carry : ℕ} (hh : ℕ) (hll : ll < 2 ^ 128)
    (hlh : lh < 2 ^ 128) (hhl : hl < 2 ^ 128)
    (htotal : hh * 2 ^ 128 + (lh + hl) * 2 ^ 64 + ll < 2 ^ 256) (hmid : mid = (lh + hl) % 2 ^ 128)
    (hlo : lo = (ll + mid * 2 ^ 64 % 2 ^ 128) % 2 ^ 128)
    (hcarry : carry = (if lo < ll then 1 else 0) + (if mid < lh then 2 ^ 64 else 0)) :
    (hh + mid / 2 ^ 64 + carry) % 2 ^ 128 * 2 ^ 128 + lo =
      hh * 2 ^ 128 + (lh + hl) * 2 ^ 64 + ll := by
  have middle : lh + hl = mid + (if mid < lh then 2 ^ 128 else 0) := by split <;> omega
  have low : ll + mid * 2 ^ 64 = lo + (mid / 2 ^ 64) * 2 ^ 128 +
    (if lo < ll then 2 ^ 128 else 0) := by split <;> omega
  have sum : hh * 2 ^ 128 + (lh + hl) * 2 ^ 64 + ll =
      (hh + mid / 2 ^ 64 + carry) * 2 ^ 128 + lo := by
    rw [middle, hcarry]
    split at low <;> split <;> omega
  have fits : hh + mid / 2 ^ 64 + carry < 2 ^ 128 := by omega
  rw [mod_eq_of_lt fits, sum]

theorem toNat_and_mask (a : U128) : (a &&& BitVec.ofNat 128 (2 ^ 64 - 1)).toNat =
    a.toNat % 2 ^ 64 := by
  rw [toNat_and, toNat_ofNat, mod_eq_of_lt (by norm_num), and_two_pow_sub_one_eq_mod]

theorem toNat_shiftRight_half (a : U128) : (a >>> 64).toNat = a.toNat / 2 ^ 64 := by
  rw [toNat_ushiftRight, shiftRight_eq_div_pow]

/-- A product of two digits fits a word. -/
theorem digit_mul_lt {a b : ℕ} (ha : a < 2 ^ 64) (hb : b < 2 ^ 64) : a * b < 2 ^ 128 := by
  calc a * b < 2 ^ 64 * 2 ^ 64 := mul_lt_mul'' ha hb
    _ = 2 ^ 128 := by norm_num

theorem toNat_carry (p q : Prop) [Decidable p] [Decidable q] :
    ((if p then (1 : U128) else 0) + (if q then BitVec.ofNat 128 (2 ^ 64) else 0)).toNat =
      (if p then 1 else 0) + (if q then 2 ^ 64 else 0) := by
  split <;> split <;> decide

/-- The product is exact. -/
theorem toNat_mulU128 (a b : U128) : (mulU128 a b).toNat = a.toNat * b.toNat := by
  have ha := a.isLt
  have hb := b.isLt
  have hmul : a.toNat * b.toNat < 2 ^ 256 := by
    calc a.toNat * b.toNat < 2 ^ 128 * 2 ^ 128 := mul_lt_mul'' ha hb
      _ = 2 ^ 256 := by norm_num
  let mask : U128 := BitVec.ofNat 128 (2 ^ 64 - 1)
  -- the digits of the two factors
  have hal : (a &&& mask).toNat = a.toNat % 2 ^ 64 := toNat_and_mask a
  have hbl : (b &&& mask).toNat = b.toNat % 2 ^ 64 := toNat_and_mask b
  have hah := toNat_shiftRight_half a
  have hbh := toNat_shiftRight_half b
  generalize hdal : a &&& mask = al at hal
  generalize hdbl : b &&& mask = bl at hbl
  generalize hdah : a >>> 64 = ah at hah
  generalize hdbh : b >>> 64 = bh at hbh
  have hprod : a.toNat * b.toNat = ah.toNat * bh.toNat * 2 ^ 128 +
      (al.toNat * bh.toNat + ah.toNat * bl.toNat) * 2 ^ 64 + al.toNat * bl.toNat := by
    have ea : a.toNat = ah.toNat * 2 ^ 64 + al.toNat := by omega
    have eb : b.toNat = bh.toNat * 2 ^ 64 + bl.toNat := by omega
    rw [ea, eb]
    ring
  -- products of digits do not wrap
  have mul {x y : U128} (hx : x.toNat < 2 ^ 64) (hy : y.toNat < 2 ^ 64) :
      (x * y).toNat = x.toNat * y.toNat := by
    rw [BitVec.toNat_mul, mod_eq_of_lt (digit_mul_lt hx hy)]
  have hll := mul (x := al) (y := bl) (by omega) (by omega)
  have hlh := mul (x := al) (y := bh) (by omega) (by omega)
  have hhl := mul (x := ah) (y := bl) (by omega) (by omega)
  have hhh := mul (x := ah) (y := bh) (by omega) (by omega)
  have hmid : (al * bh + ah * bl).toNat = ((al * bh).toNat + (ah * bl).toNat) % 2 ^ 128 :=
    toNat_add _ _
  have hlo : (al * bl + ((al * bh + ah * bl) <<< 64)).toNat =
      ((al * bl).toNat + (al * bh + ah * bl).toNat * 2 ^ 64 % 2 ^ 128) % 2 ^ 128 := by
    rw [toNat_add, BitVec.toNat_shiftLeft, Nat.shiftLeft_eq]
  have hcarry : ((if al * bl + ((al * bh + ah * bl) <<< 64) < al * bl then (1 : U128) else 0) +
      (if al * bh + ah * bl < al * bh then BitVec.ofNat 128 (2 ^ 64) else 0)).toNat = _ :=
    (toNat_carry _ _).trans (congrArg₂ (· + ·) (if_congr lt_def rfl rfl) (if_congr lt_def rfl rfl))
  have parts := product_digits (ah * bh).toNat (al * bl).isLt (al * bh).isLt (ah * bl).isLt
    (by rw [hll, hlh, hhl, hhh, ← hprod]; exact hmul) hmid hlo hcarry
  have hhi : (mulU128 a b).hi.toNat = ((ah * bh).toNat + (al * bh + ah * bl).toNat / 2 ^ 64 +
      ((if al * bl + ((al * bh + ah * bl) <<< 64) < al * bl then (1 : U128) else 0) +
      (if al * bh + ah * bl < al * bh then BitVec.ofNat 128 (2 ^ 64) else 0)).toNat) % 2 ^ 128 := by
    rw [← hdal, ← hdbl, ← hdah, ← hdbh]
    refine (toNat_add _ _).trans ?_
    rw [toNat_add, toNat_shiftRight_half, mod_add_mod]
  have hlow : (mulU128 a b).lo = al * bl + ((al * bh + ah * bl) <<< 64) := by
    rw [← hdal, ← hdbl, ← hdah, ← hdbh]
    rfl
  rw [hprod, ← hll, ← hlh, ← hhl, ← hhh, ← parts, toNat, hhi, hlow]

/-! ## Quotients -/

theorem toNat_bit (word : U128) : ((word >>> i) &&& 1).toNat = word.toNat / 2 ^ i % 2 := by
  rw [toNat_and, toNat_ushiftRight, shiftRight_eq_div_pow]
  exact and_one_is_mod _

/-- A word shifted left by one bit with another bit moved in, without the bit that is lost. -/
theorem toNat_shiftIn (rem bit : U128) (hbit : bit.toNat < 2) :
    (rem <<< 1 ||| bit).toNat = 2 * (rem.toNat % 2 ^ 127) + bit.toNat := by
  have even : rem.toNat <<< 1 % 2 ^ 128 = 2 ^ 1 * (rem.toNat % 2 ^ 127) := by omega
  rw [toNat_or, toNat_shiftLeft, even, ← two_pow_add_eq_or_of_lt (by omega)]

/-- A bit is set in a word that has no bit so low. -/
theorem toNat_setBit {q : U128} (hi : i < 128) (hq : 2 ^ (i + 1) ∣ q.toNat) :
    (q ||| (1 <<< i)).toNat = q.toNat + 2 ^ i := by
  obtain ⟨_, hc⟩ := hq
  have hpow : 2 ^ i < 2 ^ 128 := Nat.pow_lt_pow_right (by omega) hi
  have hone : ((1 <<< i : ℕ) : U128).toNat = 2 ^ i := by
    rw [natCast_eq_ofNat, toNat_ofNat, Nat.shiftLeft_eq, Nat.one_mul, mod_eq_of_lt hpow]
  rw [toNat_or, hone, hc,
    ← Nat.two_pow_add_eq_or_of_lt (Nat.pow_lt_pow_right (by omega) (Nat.lt_succ_self i))]

/-- One step of the division: the next bit is moved into the remainder, and the divisor is taken off
if it fits. -/
theorem divStep_spec (word : U128) {acc : U128 × U128} (hi : i < 128)
    (hrem : acc.1.toNat < divisor.toNat) (hquot : 2 ^ (i + 1) ∣ acc.2.toNat) :
    (divStep divisor word acc i).1.toNat < divisor.toNat ∧
      2 ^ i ∣ (divStep divisor word acc i).2.toNat ∧
      (divStep divisor word acc i).2.toNat * divisor.toNat +
        (divStep divisor word acc i).1.toNat * 2 ^ i =
          acc.2.toNat * divisor.toNat + (2 * acc.1.toNat + word.toNat / 2 ^ i % 2) * 2 ^ i := by
  have hdivisor := divisor.isLt
  have hbit : ((word >>> i) &&& 1).toNat < 2 := by
    rw [toNat_bit]
    omega
  have hshift := toNat_shiftIn acc.1 ((word >>> i) &&& 1) hbit
  rw [toNat_bit] at hshift hbit
  have hcarry : acc.1 >>> 127 ≠ 0 ↔ 2 ^ 127 ≤ acc.1.toNat := by
    rw [ne_eq, ← toNat_inj, toNat_ushiftRight, shiftRight_eq_div_pow]
    change ¬ acc.1.toNat / 2 ^ 127 = 0 ↔ _
    omega
  have hlow : 2 ^ i ∣ acc.2.toNat := (pow_dvd_pow 2 (le_succ i)).trans hquot
  unfold divStep
  simp only [hcarry, le_def, hshift]
  generalize word.toNat / 2 ^ i % 2 = bit at *
  generalize acc.1 <<< 1 ||| ((word >>> i) &&& 1) = shifted at *
  split
  · rename_i htake
    have hsub : (shifted - divisor).toNat + divisor.toNat = 2 * acc.1.toNat + bit := by
      rw [toNat_sub, hshift]
      omega
    have hset := toNat_setBit hi hquot
    dsimp only
    refine ⟨by omega, ?_, ?_⟩
    · rw [hset]
      exact (Nat.dvd_add_right hlow).2 (dvd_refl _)
    · rw [hset, ← hsub]
      ring
  · rename_i hleave
    have hsame : shifted.toNat = 2 * acc.1.toNat + bit := by omega
    dsimp only
    exact ⟨by omega, hlow, by rw [hsame]⟩

/-- All steps together: the quotient and the remainder of the remainder so far with the bits of the
word behind it. -/
theorem foldl_divStep (word : U128) {k : ℕ} (hk : k ≤ 128) (acc : U128 × U128)
    (hrem : acc.1.toNat < divisor.toNat) (hquot : 2 ^ k ∣ acc.2.toNat) :
    ((range k).reverse.foldl (divStep divisor word) acc).1.toNat < divisor.toNat ∧
      ((range k).reverse.foldl (divStep divisor word) acc).2.toNat * divisor.toNat +
          ((range k).reverse.foldl (divStep divisor word) acc).1.toNat =
        acc.2.toNat * divisor.toNat + acc.1.toNat * 2 ^ k + word.toNat % 2 ^ k := by
  -- by induction on the bits left: the quotient so far is a multiple of their power of two
  induction k generalizing acc with
  | zero => exact ⟨hrem, by simp [mod_one]⟩
  | succ k ih =>
    obtain ⟨hrem', hquot', hstep⟩ := divStep_spec word (by omega) hrem hquot
    obtain ⟨hlt, heq⟩ := ih (by omega) _ hrem' hquot'
    have hword :
        word.toNat % 2 ^ (k + 1) = word.toNat / 2 ^ k % 2 * 2 ^ k + word.toNat % 2 ^ k := by
      rw [pow_succ, mod_mul]
      ring
    rw [range_succ, List.reverse_append, reverse_singleton, singleton_append, foldl_cons]
    refine ⟨hlt, heq.trans ?_⟩
    rw [hstep, hword, pow_succ]
    ring

/-- A quotient and a remainder are determined by what they add up to. -/
theorem eq_div_mod_of_mul_add {q r d n : ℕ} (hlt : r < d) (h : q * d + r = n) :
    q = n / d ∧ r = n % d := by
  subst h
  rw [add_comm, add_mul_div_right _ _ (by omega), div_eq_of_lt hlt, zero_add,
    add_mul_mod_self_right, mod_eq_of_lt hlt]
  exact ⟨rfl, rfl⟩

/-- The quotient and the remainder of a remainder with the bits of a word behind it. -/
theorem divWord_spec {rem : U128} (word : U128) (hrem : rem.toNat < divisor.toNat) :
    ((range 128).reverse.foldl (divStep divisor word) (rem, 0)).2.toNat =
        (rem.toNat * 2 ^ 128 + word.toNat) / divisor.toNat ∧
      ((range 128).reverse.foldl (divStep divisor word) (rem, 0)).1.toNat =
        (rem.toNat * 2 ^ 128 + word.toNat) % divisor.toNat := by
  obtain ⟨hlt, heq⟩ := foldl_divStep word (le_refl 128) (rem, 0) hrem (dvd_zero _)
  have hzero : (0 : U128).toNat = 0 := rfl
  rw [hzero, Nat.zero_mul, zero_add, mod_eq_of_lt word.isLt] at heq
  exact eq_div_mod_of_mul_add hlt heq

/-- A quotient that is returned is the one of natural numbers. -/
theorem divU128_eq_ok {n : U256} {q : U128} (h : n.divU128 divisor = .ok q) :
    0 < divisor.toNat ∧ q.toNat = n.toNat / divisor.toNat := by
  unfold divU128 at h
  split at h
  · cases h
  rename_i hzero
  have hpos : 0 < divisor.toNat := pos_of_ne_zero fun h0 => hzero (eq_of_toNat_eq h0)
  split at h
  · rename_i hhi
    obtain rfl := ok.inj h
    rw [toNat, hhi, toNat_udiv]
    exact ⟨hpos, by simp⟩
  split at h
  · cases h
  rename_i hfits
  obtain rfl := ok.inj h
  rw [le_def, not_le] at hfits
  -- the upper half is below the divisor, so that it is its own remainder
  have hstart : (0 : U128).toNat < divisor.toNat := hpos
  obtain ⟨-, hhigh⟩ := divWord_spec n.hi hstart
  rw [show (0 : U128).toNat = 0 from rfl, Nat.zero_mul, zero_add, mod_eq_of_lt hfits] at hhigh
  obtain ⟨hquot, -⟩ := divWord_spec n.lo (hhigh.trans_lt hfits)
  refine ⟨hpos, hquot.trans ?_⟩
  rw [hhigh, toNat]

/-- There is no quotient if the divisor is zero or the quotient does not fit a word. -/
theorem divU128_eq_error {n : U256} {e : DexError} (h : n.divU128 divisor = .error e) :
    (divisor = 0 ∨ divisor ≤ n.hi) ∧ e = .overflow := by
  unfold divU128 at h
  split at h
  · exact ⟨.inl ‹_›, (error.inj h).symm⟩
  split at h
  · cases h
  split at h
  · exact ⟨.inr ‹_›, (error.inj h).symm⟩
  · cases h

/-- The quotient of a product, if it exists and fits a word. -/
theorem divU128_mulU128 (a b divisor : U128) : (mulU128 a b).divU128 divisor =
    if divisor ≠ 0 ∧ a.toNat * b.toNat / divisor.toNat < 2 ^ 128 then
      .ok (.ofNat 128 (a.toNat * b.toNat / divisor.toNat))
    else .error .overflow := by
  cases h : (mulU128 a b).divU128 divisor with
  | ok q =>
    obtain ⟨hpos, hq⟩ := divU128_eq_ok h
    rw [toNat_mulU128] at hq
    rw [if_pos ⟨fun hzero => hpos.ne' (congrArg BitVec.toNat hzero), hq ▸ q.isLt⟩, ← hq,
      BitVec.ofNat_toNat, setWidth_eq]
  | error e =>
    obtain ⟨hnone, rfl⟩ := divU128_eq_error h
    rw [if_neg]
    rintro ⟨hnonzero, hfits⟩
    have hpos : 0 < divisor.toNat := pos_of_ne_zero fun hzero => hnonzero (eq_of_toNat_eq hzero)
    -- the upper half alone makes the quotient too large
    have hlarge : 2 ^ 128 * divisor.toNat ≤ a.toNat * b.toNat := by
      rw [← toNat_mulU128, toNat, mul_comm]
      exact (Nat.mul_le_mul_right _ (le_def.1 (hnone.resolve_left hnonzero))).trans
        (Nat.le_add_right ..)
    exact absurd hfits (not_lt.2 ((le_div_iff_mul_le hpos).2 hlarge))

/-- The product of two words is exact, and so is its quotient by a third unless the divisor is zero
or the quotient does not fit a word. -/
theorem product_quotient_exact (a b divisor : U128) : (mulU128 a b).toNat = a.toNat * b.toNat ∧
    (mulU128 a b).divU128 divisor =
      if divisor ≠ 0 ∧ a.toNat * b.toNat / divisor.toNat < 2 ^ 128 then
        .ok (.ofNat 128 (a.toNat * b.toNat / divisor.toNat))
      else .error .overflow :=
  ⟨toNat_mulU128 a b, divU128_mulU128 a b divisor⟩

end U256

/-! ## Square roots -/

/-- The integer part of a square root. -/
def IsRoot (n r : ℕ) : Prop := r * r ≤ n ∧ n < (r + 1) * (r + 1)

/-- A number is not above the root if the average of it and of the quotient by it is not below
it. -/
theorem sq_le_of_le_average {x : ℕ} (h : x ≤ (x + n / x) / 2) : x * x ≤ n := by
  have hquot : x ≤ n / x := by omega
  calc x * x ≤ x * (n / x) := mul_le_mul_left x hquot
    _ ≤ n := mul_div_le n x

/-- The average is not below the root. -/
theorem lt_sq_average {x : ℕ} (hx : 0 < x) : n < ((x + n / x) / 2 + 1) * ((x + n / x) / 2 + 1) := by
  have hlt : n < x * (n / x + 1) := Nat.lt_mul_div_succ n hx
  have hsq := four_mul_le_sq_add x (n / x + 1)
  have hle : x + (n / x + 1) ≤ 2 * ((x + n / x) / 2 + 1) := by omega
  have hmono := Nat.pow_le_pow_left hle 2
  rw [Nat.mul_pow, pow_two ((x + n / x) / 2 + 1)] at hmono
  rw [Nat.mul_assoc] at hsq
  omega

/-- The rounds of Newton's method stay above one. -/
theorem two_le_average {x : ℕ} (hn : 3 < n) (hx : 0 < x) : 2 ≤ (x + n / x) / 2 := by
  rcases lt_or_ge x 4 with _ | _
  · obtain rfl | rfl | rfl : x = 1 ∨ x = 2 ∨ x = 3 := by omega
    all_goals omega
  · generalize n / x = quotient
    omega

/-- The next round does not leave the word. -/
theorem add_div_le {y : ℕ} (hy : 2 ≤ y) (hlt : y < n) : y + n / y ≤ n := by
  by_cases hhalf : y ≤ n / 2
  · have hquot : n / y ≤ n / 2 := div_le_div_left hy (by omega)
    omega
  · have hquot : n / y < 2 := Nat.div_lt_of_lt_mul (by omega)
    omega

theorem isRoot_sqrtLoop {n : U128} (hn : 3 < n.toNat) {rounds : ℕ} {y : U128} (hx : 0 < x.toNat)
    (hxn : x.toNat ≤ n.toNat) (habove : n.toNat < (x.toNat + 1) * (x.toNat + 1))
    (hy : y.toNat = (x.toNat + n.toNat / x.toNat) / 2) (hrounds : x.toNat ≤ rounds) :
    IsRoot n.toNat (sqrtLoop n rounds x y).toNat := by
  -- by induction on the rounds: the second number is the next estimate, and no estimate is below
  -- the root
  induction rounds generalizing x y with
  | zero => omega
  | succ _ ih =>
    unfold sqrtLoop
    split
    · rename_i hlt
      rw [lt_def] at hlt
      have hy2 : 2 ≤ y.toNat := hy ▸ two_le_average hn hx
      have hsum := add_div_le hy2 (hlt.trans_le hxn)
      have hnext : ((y + n / y) / 2).toNat = (y.toNat + n.toNat / y.toNat) / 2 := by
        rw [toNat_udiv, toNat_add, toNat_udiv, mod_eq_of_lt (hsum.trans_lt n.isLt)]
        rfl
      exact ih (by omega) (by omega) (hy ▸ lt_sq_average hx) hnext (by omega)
    · rename_i hge
      rw [lt_def, not_lt, hy] at hge
      exact ⟨sq_le_of_le_average hge, habove⟩

theorem isRoot_sqrtU128 (n : U128) : IsRoot n.toNat (sqrtU128 n).toNat := by
  unfold sqrtU128
  split
  · rename_i hzero
    rw [hzero]
    exact ⟨zero_le _, one_pos⟩
  rename_i hzero
  have hpos : n.toNat ≠ 0 := fun h => hzero (eq_of_toNat_eq h)
  split
  · rename_i hsmall
    exact ⟨pos_of_ne_zero hpos, lt_succ_of_le (le_def.1 hsmall)⟩
  · rename_i hlarge
    rw [le_def, not_le] at hlarge
    have hn : 3 < n.toNat := hlarge
    have hlt := n.isLt
    refine isRoot_sqrtLoop hn (by omega) (le_refl _) (lt_of_lt_of_le (lt_succ_self _)
      (le_mul_self _)) ?_ (le_refl _)
    rw [toNat_add, toNat_udiv, toNat_umod, Nat.div_self (by omega)]
    change (n.toNat / 2 + n.toNat % 2) % 2 ^ 128 = _
    omega

/-- The average of two words, computed without leaving the word. -/
theorem toNat_average (y : U128) :
    ((x >>> 1) + (y >>> 1) + ((x &&& 1) + (y &&& 1)) / 2).toNat = (x.toNat + y.toNat) / 2 := by
  have hx := x.isLt
  have hy := y.isLt
  have hbit (w : U128) : (w &&& 1).toNat = w.toNat % 2 := by exact and_one_is_mod _
  rw [toNat_add, toNat_add, toNat_udiv, toNat_add, hbit, hbit,
    toNat_ushiftRight, toNat_ushiftRight, shiftRight_eq_div_pow,
    shiftRight_eq_div_pow]
  change ((x.toNat / 2 ^ 1 + y.toNat / 2 ^ 1) % 2 ^ 128 +
    (x.toNat % 2 + y.toNat % 2) % 2 ^ 128 / 2) % 2 ^ 128 = _
  omega

/-- The rounds end not above the root, and at it if they start above it. -/
theorem sqrtLoop256_spec {n : U256} {rounds : ℕ} (hrounds : x.toNat < rounds) :
    (sqrtLoop256 n rounds x).toNat * (sqrtLoop256 n rounds x).toNat ≤ n.toNat ∧
      (n.toNat < (x.toNat + 1) * (x.toNat + 1) →
        IsRoot n.toNat (sqrtLoop256 n rounds x).toNat) := by
  induction rounds generalizing x with
  | zero => omega
  | succ rounds ih =>
    unfold sqrtLoop256
    cases hdiv : n.divU128 x with
    | ok =>
      obtain ⟨hpos, hquot⟩ := divU128_eq_ok hdiv
      dsimp only
      split
      · rename_i hstop
        rw [le_def, toNat_average, hquot] at hstop
        have hle := sq_le_of_le_average hstop
        exact ⟨hle, fun habove => ⟨hle, habove⟩⟩
      · rename_i hlt
        rw [le_def, not_le] at hlt
        obtain ⟨hle, hroot⟩ := ih (hlt.trans_le (le_of_lt_succ hrounds))
        refine ⟨hle, fun _ => hroot ?_⟩
        rw [toNat_average, hquot]
        exact lt_sq_average hpos
    | error =>
      dsimp only
      -- the largest word is no smaller estimate
      have hstop :
          x ≤ (x >>> 1) + (U128.maxValue >>> 1) + ((x &&& 1) + (U128.maxValue &&& 1)) / 2 := by
        have hlt := x.isLt
        have hmax : U128.maxValue.toNat = 2 ^ 128 - 1 := rfl
        rw [le_def, toNat_average, hmax]
        omega
      have hle : x.toNat * x.toNat ≤ n.toNat := by
        rcases (divU128_eq_error hdiv).1 with rfl | hle
        · exact zero_le _
        · -- the quotient does not fit a word, so that the number is below the root
          calc x.toNat * x.toNat ≤ n.hi.toNat * 2 ^ 128 := Nat.mul_le_mul hle x.isLt.le
            _ ≤ n.toNat := le_add_right _ _
      rw [if_pos hstop]
      exact ⟨hle, fun habove => ⟨hle, habove⟩⟩

/-- The square root is never above the real one. -/
theorem sq_sqrtU256_le (n : U256) : (sqrtU256 n).toNat * (sqrtU256 n).toNat ≤ n.toNat := by
  unfold sqrtU256
  split
  · exact (isRoot_sqrtU128 n.lo).1.trans (le_add_left _ _)
  · exact (sqrtLoop256_spec (lt_succ_self _)).1

/-- It is the real one exactly if the first estimate fits a word. -/
theorem isRoot_sqrtU256_iff (n : U256) : IsRoot n.toNat (sqrtU256 n).toNat ↔
    n.hi.toNat < (2 ^ 64 - 1) ^ 2 := by
  unfold sqrtU256
  split
  · rename_i hhi
    have hlow : n.toNat = n.lo.toNat := by simp [U256.toNat, hhi]
    rw [hlow, hhi]
    exact iff_of_true (isRoot_sqrtU128 n.lo) (by simp)
  rename_i hhi
  obtain ⟨hle, hlt⟩ := isRoot_sqrtU128 n.hi
  have hlo := n.lo.isLt
  have hword := n.hi.isLt
  have hshift : ((sqrtU128 n.hi + 1) <<< 64).toNat =
      ((sqrtU128 n.hi).toNat + 1) * 2 ^ 64 % 2 ^ 128 := by
    rw [toNat_shiftLeft, toNat_add, Nat.shiftLeft_eq, Nat.mod_mul_mod]
    rfl
  generalize (sqrtU128 n.hi).toNat = r at *
  by_cases hfits : r + 1 < 2 ^ 64
  · have hx : ((sqrtU128 n.hi + 1) <<< 64).toNat = (r + 1) * 2 ^ 64 := by
      rw [hshift, mod_eq_of_lt (by omega)]
    refine iff_of_true ((sqrtLoop256_spec (lt_succ_self _)).2 ?_) ?_
    · rw [hx, U256.toNat]
      nlinarith
    · rw [← pow_two] at hlt
      exact hlt.trans_le (Nat.pow_le_pow_left (Nat.le_sub_one_of_lt hfits) 2)
  · -- the estimate is lost, and the loop stops at zero
    have hr : r = 2 ^ 64 - 1 := by
      have hsmall : r < 2 ^ 64 := by
        by_contra hlarge
        have := mul_le_mul (not_lt.1 hlarge) (not_lt.1 hlarge)
        omega
      omega
    subst hr
    have hx : (sqrtU128 n.hi + 1) <<< 64 = 0 := eq_of_toNat_eq hshift
    have hstop : sqrtLoop256 n 1 0 = 0 := by
      rw [sqrtLoop256]
      exact if_pos (le_def.2 (zero_le _))
    rw [hx]
    show IsRoot n.toNat (sqrtLoop256 n 1 0).toNat ↔ _
    rw [hstop]
    refine iff_of_false (fun hroot => hhi (eq_of_toNat_eq ?_)) (not_lt.2 (by rwa [pow_two]))
    have hsmall : n.toNat < 1 := hroot.2
    rw [U256.toNat] at hsmall
    show n.hi.toNat = 0
    omega

/-! ## Rounds -/

theorem sqrtLoop_congr {n y : U128} {k l : ℕ} (hk : x.toNat ≤ k) (hl : x.toNat ≤ l) :
    sqrtLoop n k x y = sqrtLoop n l x y := by
  have stop {x y : U128} (hx : x.toNat ≤ 0) (l : ℕ) : sqrtLoop n l x y = x := by
    cases l with
    | zero => rfl
    | succ => exact if_neg fun hlt => not_lt_zero _ ((lt_def.1 hlt).trans_le hx)
  induction k generalizing l x y with
  | zero => rw [stop hk, stop hk]
  | succ k ih =>
    cases l with
    | zero => rw [stop hl, stop hl]
    | succ l =>
      unfold sqrtLoop
      split
      · rename_i hlt
        rw [lt_def] at hlt
        exact ih (by omega) (by omega)
      · rfl

theorem sqrtLoop256_congr {n : U256} {k l : ℕ} (hk : x.toNat < k) (hl : x.toNat < l) :
    sqrtLoop256 n k x = sqrtLoop256 n l x := by
  induction k generalizing l x with
  | zero => omega
  | succ k ih =>
    cases l with
    | zero => omega
    | succ l =>
      refine ite_congr rfl (fun _ => rfl) fun hlt => ?_
      rw [le_def, not_le] at hlt
      exact ih (by omega) (by omega)

/-- The loops end within the rounds that they are given, and the square root of a product is exact
exactly if the product is so small that the first estimate fits a word. -/
theorem sqrt_exact_iff (a b : U128) :
    (∀ {n x y : U128} {rounds : ℕ}, x.toNat ≤ rounds →
      sqrtLoop n rounds x y = sqrtLoop n x.toNat x y) ∧
    (∀ {n : U256} {x : U128} {rounds : ℕ}, x.toNat < rounds →
      sqrtLoop256 n rounds x = sqrtLoop256 n (x.toNat + 1) x) ∧
    (IsRoot (a.toNat * b.toNat) (sqrtU256 (U256.mulU128 a b)).toNat ↔
      a.toNat * b.toNat < (2 ^ 64 - 1) ^ 2 * 2 ^ 128) := by
  refine ⟨fun h => sqrtLoop_congr h (le_refl _), fun h => sqrtLoop256_congr h (Nat.lt_succ_self _),
    ?_⟩
  have hlo := (U256.mulU128 a b).lo.isLt
  rw [← U256.toNat_mulU128, isRoot_sqrtU256_iff, U256.toNat]
  omega

/-- The root of the largest product comes out as zero. -/
theorem sqrt_largest : let a := U128.maxValue
    sqrtU256 (U256.mulU128 a a) = 0 ∧
      ¬ IsRoot (a.toNat * a.toNat) (sqrtU256 (U256.mulU128 a a)).toNat := by
  have hzero : sqrtU256 (U256.mulU128 U128.maxValue U128.maxValue) = 0 := by decide +kernel
  refine ⟨hzero, fun hroot => ?_⟩
  rw [hzero] at hroot
  exact absurd hroot.2 (by decide)

end Vtt
