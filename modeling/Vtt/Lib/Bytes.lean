import Mathlib.Data.Nat.Digits.Defs

/-!
# Fixed-width byte strings

Positional byte strings of a fixed width, least significant byte first, and their reversal. A
natural number is written modulo `256 ^ width`, so the two directions agree on every number that
the width can hold.
-/

namespace Vtt.Lib

/-- A byte string. -/
abbrev Bytes := List UInt8

/-- The `width` least significant base-256 digits of a number, least significant first. -/
def leBytes : (width : Nat) → (value : Nat) → Bytes
  | 0, _ => []
  | width + 1, value => UInt8.ofNat value :: leBytes width (value / 256)

/-- The number a byte string denotes, least significant byte first. -/
def leNat : Bytes → Nat
  | [] => 0
  | b :: bs => b.toNat + 256 * leNat bs

/-- The `width` least significant base-256 digits of a number, most significant first. -/
def beBytes (width value : Nat) : Bytes :=
  (leBytes width value).reverse

/-- The number a byte string denotes, most significant byte first. -/
def beNat (bs : Bytes) : Nat :=
  leNat bs.reverse

@[simp] theorem leBytes_length (width value : Nat) : (leBytes width value).length = width := by
  induction width generalizing value with
  | zero => rfl
  | succ _ ih => simp [leBytes, ih]

@[simp] theorem beBytes_length (width value : Nat) : (beBytes width value).length = width := by
  simp [beBytes]

theorem leNat_leBytes (width value : Nat) : leNat (leBytes width value) = value % 256 ^ width := by
  induction width generalizing value with
  | zero => simp [leBytes, leNat, Nat.mod_one]
  | succ _ ih =>
    have hbyte : (UInt8.ofNat value).toNat = value % 256 := UInt8.toNat_ofNat'
    rw [leBytes, leNat, ih, hbyte, pow_succ', Nat.mod_mul]

theorem beNat_beBytes (width value : Nat) : beNat (beBytes width value) = value % 256 ^ width := by
  rw [beNat, beBytes, List.reverse_reverse, leNat_leBytes]

theorem leNat_lt (bs : Bytes) : leNat bs < 256 ^ bs.length := by
  induction bs with
  | nil => exact Nat.one_pos
  | cons b =>
    have hb : b.toNat < 256 := b.toNat_lt
    rw [leNat, List.length_cons, pow_succ']
    omega

/-- A byte string is the digits of the number it denotes. -/
theorem leBytes_leNat (bs : Bytes) : leBytes bs.length (leNat bs) = bs := by
  induction bs with
  | nil => rfl
  | cons b bs ih =>
    have hb : b.toNat < 256 := b.toNat_lt
    have hhead : UInt8.ofNat (b.toNat + 256 * leNat bs) = b := by
      apply UInt8.toNat_inj.1
      rw [UInt8.toNat_ofNat']
      omega
    have htail : (b.toNat + 256 * leNat bs) / 256 = leNat bs := by omega
    rw [leNat, List.length_cons, leBytes, hhead, htail, ih]

theorem beNat_lt (bs : Bytes) : beNat bs < 256 ^ bs.length := by
  have h := leNat_lt bs.reverse
  rwa [List.length_reverse] at h

@[inherit_doc leBytes_leNat]
theorem beBytes_beNat (bs : Bytes) : beBytes bs.length (beNat bs) = bs := by
  have h := leBytes_leNat bs.reverse
  rw [List.length_reverse] at h
  rw [beBytes, beNat, h, List.reverse_reverse]

/-- The first `n` bytes and the rest, if there are that many. -/
def splitBytes (n : Nat) (bs : Bytes) : Option (Bytes × Bytes) :=
  if n ≤ bs.length then some (bs.take n, bs.drop n) else none

theorem splitBytes_append {n : Nat} {bs : Bytes} (hlen : bs.length = n) (rest : Bytes) :
    splitBytes n (bs ++ rest) = some (bs, rest) := by
  subst hlen
  simp [splitBytes]

/-! ## Labels -/

/-- What a key has in front of its first colon. -/
def labelOf (key : Bytes) : Bytes := key.takeWhile (· != 58)

/-- A byte string that ends in its only colon. -/
def isLabel (label : Bytes) : Bool := labelOf label ++ [58] == label

theorem labelOf_append {start : Bytes} (h : start.contains 58 = true) (rest : Bytes) :
    labelOf (start ++ rest) = labelOf start := by
  induction start with
  | nil => cases h
  | cons _ start ih =>
    unfold labelOf at ih ⊢
    rw [List.cons_append, List.takeWhile_cons, List.takeWhile_cons]
    split
    · rename_i hb
      have hrest : start.contains 58 = true := by
        rw [List.contains_cons, Bool.or_eq_true] at h
        exact h.resolve_left fun heq => by simp [← beq_iff_eq.1 heq] at hb
      rw [ih hrest]
    · rfl

theorem contains_of_isLabel {label : Bytes} (h : isLabel label = true) :
    label.contains 58 = true := by
  rw [← beq_iff_eq.1 h]
  simp

/-- Keys behind labels are equal if the labels and what follows them are. -/
theorem label_append_inj {label label' rest rest' : Bytes} (h : isLabel label = true)
    (h' : isLabel label' = true) (heq : label ++ rest = label' ++ rest') :
    label = label' ∧ rest = rest' := by
  have hlabel : label = label' := by
    rw [← beq_iff_eq.1 h, ← beq_iff_eq.1 h', ← labelOf_append (contains_of_isLabel h) rest, heq,
      labelOf_append (contains_of_isLabel h')]
  subst hlabel
  exact ⟨rfl, List.append_cancel_left heq⟩

end Vtt.Lib
