import Mathlib.Data.BitVec

/-!
# Machine words

The checked and saturating operations on machine words. The plain operators wrap, which is what
they do in an optimised build. The 128-bit word has no type of its own in the core library and is a
bit vector here.
-/

namespace Vtt.Lib

open Option (getD_some getD_none)

/-- The unsigned 128-bit word. -/
abbrev U128 := BitVec 128

namespace U128

/-- The largest word. -/
def maxValue : U128 := BitVec.allOnes 128

/-- The sum, if it does not overflow. -/
def checkedAdd (a b : U128) : Option U128 :=
  if a.toNat + b.toNat < 2 ^ 128 then some (a + b) else none

/-- The difference, if it does not underflow. -/
def checkedSub (a b : U128) : Option U128 :=
  if b.toNat ≤ a.toNat then some (a - b) else none

/-- The product, if it does not overflow. -/
def checkedMul (a b : U128) : Option U128 :=
  if a.toNat * b.toNat < 2 ^ 128 then some (a * b) else none

/-- The quotient, if the divisor is not zero. -/
def checkedDiv (a b : U128) : Option U128 :=
  if b = 0 then none else some (a / b)

/-- The sum, or the largest word on overflow. -/
def saturatingAdd (a b : U128) : U128 :=
  (checkedAdd a b).getD maxValue

/-- The difference, or zero on underflow. -/
def saturatingSub (a b : U128) : U128 :=
  (checkedSub a b).getD 0

/-- The product, or the largest word on overflow. -/
def saturatingMul (a b : U128) : U128 :=
  (checkedMul a b).getD maxValue

/-- The smaller of two words. -/
def min (a b : U128) : U128 :=
  if a ≤ b then a else b

/-- A smaller word widened. -/
def ofU64 (a : UInt64) : U128 := BitVec.ofNat 128 a.toNat

@[inherit_doc ofU64]
def ofU16 (a : UInt16) : U128 := BitVec.ofNat 128 a.toNat

/-- The low 64 bits. -/
def toU64 (a : U128) : UInt64 := UInt64.ofNat a.toNat

/-- Wrapping sum of a list of words. -/
def sum (as : List U128) : U128 :=
  as.foldl (· + ·) 0

/-! ## The checked operations on naturals -/

section Checked

variable {a b c : U128}

theorem toNat_checkedAdd (h : checkedAdd a b = some c) : c.toNat = a.toNat + b.toNat := by
  unfold checkedAdd at h
  split at h
  · rename_i hlt
    cases h
    rw [BitVec.toNat_add, Nat.mod_eq_of_lt hlt]
  · cases h

theorem toNat_checkedSub (h : checkedSub a b = some c) : c.toNat + b.toNat = a.toNat := by
  unfold checkedSub at h
  split at h
  · rename_i hle
    cases h
    rw [BitVec.toNat_sub_of_le hle]
    omega
  · cases h

theorem toNat_checkedMul (h : checkedMul a b = some c) : c.toNat = a.toNat * b.toNat := by
  unfold checkedMul at h
  split at h
  · rename_i hlt
    cases h
    rw [BitVec.toNat_mul, Nat.mod_eq_of_lt hlt]
  · cases h

theorem checkedSub_isSome_iff : (checkedSub a b).isSome ↔ b.toNat ≤ a.toNat := by
  unfold checkedSub
  split
  · rename_i hle
    simp [hle]
  · rename_i hlt
    simp [hlt]

end Checked

/-! ## The other operations on naturals -/

section Saturating

variable (a b : U128)

theorem toNat_min : (min a b).toNat = Min.min a.toNat b.toNat := by
  unfold min
  split
  · rename_i hle
    exact (Nat.min_eq_left (BitVec.le_def.1 hle)).symm
  · rename_i hlt
    exact (Nat.min_eq_right (Nat.le_of_lt (Nat.not_le.1 (mt BitVec.le_def.2 hlt)))).symm

theorem min_le : (min a b).toNat ≤ a.toNat ∧ (min a b).toNat ≤ b.toNat := by
  rw [toNat_min]
  exact ⟨Nat.min_le_left .., Nat.min_le_right ..⟩

theorem toNat_saturatingAdd : (saturatingAdd a b).toNat = Min.min (a.toNat + b.toNat)
    (2 ^ 128 - 1) := by
  unfold saturatingAdd checkedAdd
  split
  · rename_i hfits
    rw [getD_some, BitVec.toNat_add, Nat.mod_eq_of_lt hfits]
    exact (Nat.min_eq_left (by omega)).symm
  · exact (Nat.min_eq_right (by omega)).symm

theorem toNat_saturatingSub : (saturatingSub a b).toNat = a.toNat - b.toNat := by
  unfold saturatingSub checkedSub
  split
  · rename_i hle
    exact BitVec.toNat_sub_of_le hle
  · rename_i hlt
    show 0 = _
    omega

theorem toNat_saturatingMul : (saturatingMul a b).toNat = Min.min (a.toNat * b.toNat)
    (2 ^ 128 - 1) := by
  unfold saturatingMul checkedMul
  split
  · rename_i hfits
    rw [getD_some, BitVec.toNat_mul, Nat.mod_eq_of_lt hfits]
    exact (Nat.min_eq_left (by omega)).symm
  · exact (Nat.min_eq_right (by omega)).symm

theorem toNat_ofU16 (x : UInt16) : (ofU16 x).toNat = x.toNat := by
  have := x.toNat_lt
  exact Nat.mod_eq_of_lt (by omega)

end Saturating

end U128

namespace U64

/-- The largest word. -/
def maxValue : UInt64 := UInt64.ofNat (2 ^ 64 - 1)

/-- The sum, if it does not overflow. -/
def checkedAdd (a b : UInt64) : Option UInt64 :=
  if a.toNat + b.toNat < 2 ^ 64 then some (a + b) else none

/-- The sum, or the largest word on overflow. -/
def saturatingAdd (a b : UInt64) : UInt64 :=
  (checkedAdd a b).getD maxValue

/-- The difference, or zero on underflow. -/
def saturatingSub (a b : UInt64) : UInt64 :=
  if b ≤ a then a - b else 0

/-- The product, or the largest word on overflow. -/
def saturatingMul (a b : UInt64) : UInt64 :=
  if a.toNat * b.toNat < 2 ^ 64 then a * b else maxValue

/-- The quotient, if the divisor is not zero. -/
def checkedDiv (a b : UInt64) : Option UInt64 :=
  if b = 0 then none else some (a / b)

/-- The remainder, if the divisor is not zero. -/
def checkedRem (a b : UInt64) : Option UInt64 :=
  if b = 0 then none else some (a % b)

/-- The smaller of two words. -/
def min (a b : UInt64) : UInt64 :=
  if a ≤ b then a else b

theorem saturatingAdd_zero (a : UInt64) : saturatingAdd a 0 = a := by
  have bound := a.toNat_lt
  rw [saturatingAdd, checkedAdd, if_pos (by rw [UInt64.toNat_zero]; omega), getD_some,
    UInt64.add_zero]

/-- The word before a word that is not zero. -/
theorem toNat_pred {a : UInt64} (h : a ≠ 0) : (a - 1).toNat + 1 = a.toNat := by
  have pos : 0 < a.toNat := Nat.pos_of_ne_zero fun hzero => h (UInt64.toNat_inj.1 hzero)
  have le : 1 ≤ a := UInt64.le_iff_toNat_le.2 pos
  rw [UInt64.toNat_sub_of_le _ _ le, UInt64.toNat_one]
  omega

end U64

namespace U32

/-- The sum, or the largest word on overflow. -/
def saturatingAdd (a b : UInt32) : UInt32 :=
  if a.toNat + b.toNat < 2 ^ 32 then a + b else UInt32.ofNat (2 ^ 32 - 1)

/-- The difference, or zero on underflow. -/
def saturatingSub (a b : UInt32) : UInt32 :=
  if b ≤ a then a - b else 0

end U32

end Vtt.Lib
