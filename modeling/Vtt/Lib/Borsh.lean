import Vtt.Lib.Bytes

/-!
# Self-delimiting binary codecs

A `Borsh` instance is a serializer with the deserializer that reads one value off the front of a
byte string. The law is the round trip in front of an arbitrary remainder, which is what makes
codecs compose. A sequence is written behind a 32-bit length, so the law is only promised for
values whose sequences are short enough for that length: `Fits` says which those are.
-/

namespace Vtt.Lib

/-- A type with a binary serializer and a deserializer that consumes exactly what was written. -/
class Borsh (α : Type) where
  serialize : α → Bytes
  deserialize : Bytes → Option (α × Bytes)
  /-- The values whose every sequence has a length that its length field can hold. -/
  Fits : α → Prop
  deserialize_serialize : ∀ a, Fits a → ∀ rest, deserialize (serialize a ++ rest) = some (a, rest)

namespace Borsh

/-- Read a value that must take up the whole input. -/
def tryFromSlice {α : Type} [Borsh α] (bs : Bytes) : Option α :=
  match deserialize bs with
  | some (a, []) => some a
  | _ => none

/-- Deserializing what was serialized returns the value. -/
theorem tryFromSlice_serialize {α : Type} [Borsh α] (a : α) (hfits : Fits a) :
    tryFromSlice (serialize a) = some a := by
  have hread := deserialize_serialize a hfits []
  rw [List.append_nil] at hread
  rw [tryFromSlice, hread]

/-! ## Fixed-width values -/

/-- A value that is a number of `width` bytes, written by `put` as exactly that many bytes. -/
abbrev ofDigits {α : Type} (width : Nat) (put : Nat → Nat → Bytes) (get : Bytes → Nat)
    (hlen : ∀ v, (put width v).length = width)
    (hput : ∀ v, get (put width v) = v % 256 ^ width)
    (pack : α → Nat) (unpack : Nat → α) (hlt : ∀ a, pack a < 256 ^ width)
    (hpack : ∀ a, unpack (pack a) = a) : Borsh α where
  serialize a := put width (pack a)
  deserialize bs := (splitBytes width bs).map fun r => (unpack (get r.1), r.2)
  Fits _ := True
  deserialize_serialize a _ rest := by
    rw [splitBytes_append (hlen _), Option.map_some, hput, Nat.mod_eq_of_lt (hlt a), hpack]

/-- A number of `width` bytes, least significant first. -/
abbrev ofLittleEndian {α : Type} (width : Nat) (pack : α → Nat) (unpack : Nat → α)
    (hlt : ∀ a, pack a < 256 ^ width) (hpack : ∀ a, unpack (pack a) = a) : Borsh α :=
  ofDigits width leBytes leNat (leBytes_length width) (leNat_leBytes width) pack unpack hlt hpack

/-- A string of `width` bytes, kept as the number it denotes most significant byte first. -/
abbrev ofBigEndian {α : Type} (width : Nat) (pack : α → Nat) (unpack : Nat → α)
    (hlt : ∀ a, pack a < 256 ^ width) (hpack : ∀ a, unpack (pack a) = a) : Borsh α :=
  ofDigits width beBytes beNat (beBytes_length width) (beNat_beBytes width) pack unpack hlt hpack

/-- A string of `width` bytes, kept as a bit vector. -/
abbrev ofBitVec {α : Type} (width : Nat) (bits : α → BitVec (8 * width))
    (mk : BitVec (8 * width) → α) (hmk : ∀ a, mk (bits a) = a) : Borsh α :=
  ofBigEndian width (fun a => (bits a).toNat) (fun v => mk (BitVec.ofNat (8 * width) v))
    (fun a => lt_of_lt_of_eq (bits a).isLt (Nat.pow_mul 2 8 width))
    fun a => by rw [BitVec.ofNat_toNat, BitVec.setWidth_eq, hmk]

instance : Borsh UInt8 :=
  ofLittleEndian 1 UInt8.toNat UInt8.ofNat UInt8.toNat_lt fun _ => UInt8.ofNat_toNat

instance : Borsh UInt16 :=
  ofLittleEndian 2 UInt16.toNat UInt16.ofNat UInt16.toNat_lt fun _ => UInt16.ofNat_toNat

instance : Borsh UInt32 :=
  ofLittleEndian 4 UInt32.toNat UInt32.ofNat UInt32.toNat_lt fun _ => UInt32.ofNat_toNat

instance : Borsh UInt64 :=
  ofLittleEndian 8 UInt64.toNat UInt64.ofNat UInt64.toNat_lt fun _ => UInt64.ofNat_toNat

/-- The 128-bit machine word, which the language has and the core library does not. -/
instance : Borsh (BitVec 128) :=
  ofLittleEndian 16 BitVec.toNat (BitVec.ofNat 128) BitVec.isLt fun a => by
    rw [BitVec.ofNat_toNat, BitVec.setWidth_eq]

/-! ## Composite values -/

/-- A codec carried along a map with a left inverse. -/
abbrev ofIso {α β : Type} [Borsh β] (pack : α → β) (unpack : β → α)
    (hpack : ∀ a, unpack (pack a) = a) : Borsh α where
  serialize a := serialize (pack a)
  deserialize bs := (deserialize bs).map fun r => (unpack r.1, r.2)
  Fits a := Fits (pack a)
  deserialize_serialize a hfits rest := by
    rw [deserialize_serialize _ hfits, Option.map_some, hpack]

/-- A value that is one byte, of which only some are accepted. -/
abbrev ofTag {α : Type} (tag : α → UInt8) (ofTag? : UInt8 → Option α)
    (htag : ∀ a, ofTag? (tag a) = some a) : Borsh α where
  serialize a := [tag a]
  deserialize
    | [] => none
    | b :: rest => (ofTag? b).map fun a => (a, rest)
  Fits _ := True
  deserialize_serialize a _ rest := by simp [htag]

instance : Borsh Bool :=
  ofTag (fun b => if b then 1 else 0)
    (fun tag => if tag = 0 then some false else if tag = 1 then some true else none) (by decide)

instance {α β : Type} [Borsh α] [Borsh β] : Borsh (α × β) where
  serialize p := serialize p.1 ++ serialize p.2
  deserialize bs := do
    let (a, bs) ← deserialize bs
    let (b, bs) ← deserialize bs
    pure ((a, b), bs)
  Fits p := Fits p.1 ∧ Fits p.2
  deserialize_serialize p hfits rest := by
    rw [List.append_assoc]
    simp [deserialize_serialize _ hfits.1, deserialize_serialize _ hfits.2]

instance {α : Type} [Borsh α] : Borsh (Option α) where
  serialize
    | none => [0]
    | some a => 1 :: serialize a
  deserialize
    | [] => none
    | tag :: bs =>
      if tag = 0 then some (none, bs)
      else if tag = 1 then (deserialize bs).map fun r => (some r.1, r.2)
      else none
  Fits
    | none => True
    | some a => Fits a
  deserialize_serialize o hfits rest := by
    cases o with
    | none => rfl
    | some a =>
      have hread := deserialize_serialize a hfits rest
      simp [hread]

/-- Read a given number of values. -/
def deserializeMany {α : Type} [Borsh α] : Nat → Bytes → Option (List α × Bytes)
  | 0, bs => some ([], bs)
  | n + 1, bs => do
    let (a, bs) ← deserialize bs
    let (as, bs) ← deserializeMany n bs
    pure (a :: as, bs)

theorem deserializeMany_flatMap {α : Type} [Borsh α] (as : List α) (hfits : ∀ a ∈ as, Fits a)
    (rest : Bytes) :
    deserializeMany as.length (as.flatMap serialize ++ rest) = some (as, rest) := by
  induction as with
  | nil => rfl
  | cons a _ ih =>
    obtain ⟨hhead, htail⟩ := List.forall_mem_cons.mp hfits
    rw [List.length_cons, List.flatMap_cons, List.append_assoc, deserializeMany]
    simp [deserialize_serialize a hhead, ih htail]

instance {α : Type} [Borsh α] : Borsh (List α) where
  serialize as := serialize (UInt32.ofNat as.length) ++ as.flatMap serialize
  deserialize bs := do
    let (n, bs) ← deserialize (α := UInt32) bs
    deserializeMany n.toNat bs
  Fits as := as.length < 2 ^ 32 ∧ ∀ a ∈ as, Fits a
  deserialize_serialize as hfits rest := by
    have hlen : (UInt32.ofNat as.length).toNat = as.length := UInt32.toNat_ofNat_of_lt' hfits.1
    rw [List.append_assoc, deserialize_serialize _ trivial]
    simp [hlen, deserializeMany_flatMap as hfits.2]

instance : Borsh Unit where
  serialize _ := []
  deserialize bs := some ((), bs)
  Fits _ := True
  deserialize_serialize _ _ _ := rfl

/-- A text is its UTF-8 bytes, behind their number. -/
instance : Borsh String where
  serialize s := serialize s.toByteArray.data.toList
  deserialize bs := do
    let (utf8, bs) ← deserialize (α := List UInt8) bs
    let s ← String.fromUTF8? ⟨utf8.toArray⟩
    pure (s, bs)
  Fits s := Fits s.toByteArray.data.toList
  deserialize_serialize s hfits rest := by
    have hread : String.fromUTF8? ⟨s.toByteArray.data⟩ = some s := by
      simp only [String.fromUTF8?, s.isValidUTF8, dite_true]
      rfl
    simp [deserialize_serialize _ hfits, hread]

/-! ## Sums -/

/-- One constructor of a sum type, with the codec of its arguments. -/
structure Variant (α : Type) where
  Payload : Type
  codec : Borsh Payload
  make : Payload → α

/-- The constructor `make`, whose arguments have a codec. -/
abbrev Variant.of {α β : Type} [codec : Borsh β] (make : β → α) : Variant α :=
  ⟨β, codec, make⟩

/-- Read the arguments of a given constructor. -/
def Variant.read {α : Type} (v : Variant α) (bs : Bytes) : Option (α × Bytes) :=
  (v.codec.deserialize bs).map fun r => (v.make r.1, r.2)

/-- A sum type is the position of the constructor in one byte, followed by the arguments. -/
abbrev ofVariants {α : Type} (variants : List (Variant α)) (hlen : variants.length ≤ 256)
    (pick : α → Σ i : Fin variants.length, (variants.get i).Payload)
    (hpick : ∀ a, (variants.get (pick a).1).make (pick a).2 = a) : Borsh α where
  serialize a :=
    UInt8.ofNat (pick a).1 :: (variants.get (pick a).1).codec.serialize (pick a).2
  deserialize
    | [] => none
    | tag :: bs => if h : tag.toNat < variants.length then (variants.get ⟨_, h⟩).read bs else none
  Fits a := (variants.get (pick a).1).codec.Fits (pick a).2
  deserialize_serialize a hfits rest := by
    have htag : (UInt8.ofNat (pick a).1).toNat = (pick a).1 :=
      UInt8.toNat_ofNat_of_lt' (lt_of_lt_of_le (pick a).1.isLt hlen)
    have hlt : (UInt8.ofNat (pick a).1).toNat < variants.length := by
      rw [htag]
      exact (pick a).1.isLt
    have hindex : (⟨_, hlt⟩ : Fin variants.length) = (pick a).1 := Fin.ext htag
    rw [List.cons_append]
    dsimp only
    rw [dif_pos hlt, hindex, Variant.read,
      (variants.get (pick a).1).codec.deserialize_serialize _ hfits, Option.map_some, hpick]

/-! ## Codecs that read only what they write -/

/-- Whatever is read fits and was written as it is. -/
def Canonical (α : Type) [Borsh α] : Prop :=
  ∀ ⦃bs : Bytes⦄ ⦃a : α⦄ ⦃rest : Bytes⦄, deserialize bs = some (a, rest) →
    Fits a ∧ bs = serialize a ++ rest

namespace Canonical

variable {α β : Type} [Borsh α] [Borsh β]

theorem digits {width : Nat} {put : Nat → Nat → Bytes} {get : Bytes → Nat} {pack : α → Nat}
    {unpack : Nat → α} (hfits : ∀ a : α, Fits a) (hwrite : ∀ a, serialize a = put width (pack a))
    (hread : ∀ bs, deserialize bs = (splitBytes width bs).map fun r => (unpack (get r.1), r.2))
    (hget : ∀ bs : Bytes, get bs < 256 ^ bs.length ∧ put bs.length (get bs) = bs)
    (hunpack : ∀ v < 256 ^ width, pack (unpack v) = v) : Canonical α := by
  intro bs _ _ h
  rw [hread] at h
  obtain ⟨_, hsplit, heq⟩ := Option.map_eq_some_iff.1 h
  rw [splitBytes] at hsplit
  split at hsplit
  · rename_i hwidth
    cases hsplit
    cases heq
    obtain ⟨below, written⟩ := hget (bs.take width)
    rw [List.length_take_of_le hwidth] at below written
    exact ⟨hfits _, by rw [hwrite, hunpack _ below, written, List.take_append_drop]⟩
  · cases hsplit

theorem iso (h : Canonical β) (pack : α → β) (unpack : β → α) (hfits : ∀ a, Fits (pack a) → Fits a)
    (hwrite : ∀ a, serialize a = serialize (pack a))
    (hread : ∀ bs, deserialize bs = (deserialize bs).map fun r => (unpack r.1, r.2))
    (hunpack : ∀ b, pack (unpack b) = b) : Canonical α := by
  intro bs _ _ hbs
  rw [hread] at hbs
  obtain ⟨⟨b, _⟩, hb, heq⟩ := Option.map_eq_some_iff.1 hbs
  cases heq
  obtain ⟨fits, rfl⟩ := h hb
  exact ⟨hfits _ (by rwa [hunpack]), by rw [hwrite, hunpack]⟩

theorem prod (hα : Canonical α) (hβ : Canonical β) : Canonical (α × β) := by
  intro bs _ rest h
  obtain ⟨⟨a, _⟩, ha, h⟩ := Option.bind_eq_some_iff.1 h
  obtain ⟨⟨b, _⟩, hb, h⟩ := Option.bind_eq_some_iff.1 h
  cases h
  obtain ⟨fits, rfl⟩ := hα ha
  obtain ⟨fits', rfl⟩ := hβ hb
  exact ⟨⟨fits, fits'⟩, (List.append_assoc ..).symm⟩

theorem many (hα : Canonical α) {n : Nat} {bs rest : Bytes} {as : List α}
    (h : deserializeMany n bs = some (as, rest)) :
    as.length = n ∧ (∀ a ∈ as, Fits a) ∧ bs = as.flatMap serialize ++ rest := by
  induction n generalizing bs as with
  | zero =>
    cases h
    exact ⟨rfl, by simp, rfl⟩
  | succ n ih =>
    obtain ⟨⟨a, _⟩, ha, h⟩ := Option.bind_eq_some_iff.1 h
    obtain ⟨⟨as, _⟩, has, h⟩ := Option.bind_eq_some_iff.1 h
    cases h
    obtain ⟨fits, rfl⟩ := hα ha
    obtain ⟨rfl, fits', rfl⟩ := ih has
    exact ⟨rfl, List.forall_mem_cons.2 ⟨fits, fits'⟩, (List.append_assoc ..).symm⟩

theorem uint32 : Canonical UInt32 :=
  digits (fun _ => trivial) (fun _ => rfl) (fun _ => rfl)
    (fun bs => ⟨leNat_lt bs, leBytes_leNat bs⟩) fun _ hv => UInt32.toNat_ofNat_of_lt' hv

theorem uint64 : Canonical UInt64 :=
  digits (fun _ => trivial) (fun _ => rfl) (fun _ => rfl)
    (fun bs => ⟨leNat_lt bs, leBytes_leNat bs⟩) fun _ hv => UInt64.toNat_ofNat_of_lt' hv

theorem uint128 : Canonical (BitVec 128) :=
  digits (fun _ => trivial) (fun _ => rfl) (fun _ => rfl)
    (fun bs => ⟨leNat_lt bs, leBytes_leNat bs⟩) fun _ hv =>
    (BitVec.toNat_ofNat ..).trans (Nat.mod_eq_of_lt hv)

theorem list (hα : Canonical α) : Canonical (List α) := by
  intro bs as rest h
  obtain ⟨⟨n, bs'⟩, hn, hmany⟩ := Option.bind_eq_some_iff.1 h
  have hmany : deserializeMany n.toNat bs' = some (as, rest) := hmany
  obtain ⟨hlength, fits, rfl⟩ := hα.many hmany
  refine ⟨⟨hlength ▸ n.toNat_lt, fits⟩, ?_⟩
  show _ = serialize (UInt32.ofNat as.length) ++ as.flatMap serialize ++ rest
  rw [hlength, UInt32.ofNat_toNat, List.append_assoc]
  exact (uint32 hn).2

end Canonical

theorem tryFromSlice_eq_some_iff {α : Type} [Borsh α] (h : Canonical α) {bs : Bytes} {a : α} :
    tryFromSlice bs = some a ↔ Fits a ∧ serialize a = bs := by
  constructor
  · intro hread
    rw [tryFromSlice] at hread
    split at hread
    · rename_i hread'
      cases hread
      obtain ⟨fits, rfl⟩ := h hread'
      exact ⟨fits, (List.append_nil _).symm⟩
    · cases hread
  · rintro ⟨fits, rfl⟩
    exact tryFromSlice_serialize a fits

end Borsh

end Vtt.Lib
