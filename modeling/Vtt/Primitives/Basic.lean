import Vtt.Lib.FinMap
import Vtt.Lib.Word

/-!
# Hashes, addresses, amounts and chain parameters

The fixed-width byte strings are kept as the number they denote, most significant byte first, so
that the numeric order is the order of the byte strings. An `Amount` is a 128-bit word; its `+` and
`-` abort on overflow, and appear in the model as the checked operations.
-/

namespace Vtt

open Lib Std BitVec Option Nat List

/-- The lower-case hexadecimal digits of a byte string. -/
def hexEncode (bs : Bytes) : String :=
  String.ofList (bs.flatMap fun b => [Nat.digitChar (b.toNat / 16), Nat.digitChar (b.toNat % 16)])

/-- A 32-byte hash. -/
structure H256 where
  bits : BitVec 256
deriving DecidableEq

/-- A 20-byte account address. -/
structure Address where
  bits : BitVec 160
deriving DecidableEq

/-- A 32-byte Ed25519 public key. -/
structure PublicKey where
  bits : BitVec 256
deriving DecidableEq

/-- A 64-byte Ed25519 signature. -/
structure Signature where
  bits : BitVec 512
deriving DecidableEq

/-- The number of a chain in the network. -/
structure ChainId where
  id : UInt32
deriving DecidableEq

/-- Block height. -/
abbrev BlockNumber := UInt64

/-- Epoch number. -/
abbrev Epoch := UInt64

/-- Unix time in milliseconds. -/
abbrev Timestamp := UInt64

namespace H256

def zero : H256 := ⟨0⟩

def asBytes (h : H256) : Bytes := beBytes 32 h.bits.toNat

/-- The first 32 bytes of a slice, filled up with zero bytes at the end. -/
def fromSlice (bs : Bytes) : H256 :=
  ⟨BitVec.ofNat 256 (beNat ((bs ++ List.replicate 32 0).take 32))⟩

@[simp] theorem asBytes_length (h : H256) : h.asBytes.length = 32 := beBytes_length ..

theorem asBytes_fromSlice {bs : Bytes} (h : bs.length = 32) : (fromSlice bs).asBytes = bs := by
  rw [asBytes, fromSlice, take_left' h, toNat_ofNat, mod_eq_of_lt, ← h, beBytes_beNat]
  exact lt_of_lt_of_eq (beNat_lt bs) (by rw [h]; rfl)

@[simp] theorem fromSlice_asBytes (h : H256) : fromSlice h.asBytes = h := by
  rw [fromSlice, take_left' h.asBytes_length, asBytes, beNat_beBytes]
  exact congrArg mk (eq_of_toNat_eq (by
    rw [toNat_ofNat, mod_eq_of_lt (show h.bits.toNat < 256 ^ 32 from h.bits.isLt),
      mod_eq_of_lt h.bits.isLt]))

theorem asBytes_injective : Function.Injective asBytes := fun a b h => by
  rw [← fromSlice_asBytes a, h, fromSlice_asBytes]

/-- The text of a hash in messages. -/
def display (h : H256) : String := "0x" ++ hexEncode h.asBytes

instance : Ord H256 := ⟨compareOn bits⟩

instance : TransOrd H256 := inferInstanceAs (TransCmp (compareOn bits))

instance : LawfulEqOrd H256 := lawfulEqOrd_of_injective bits fun _ _ => congrArg mk

instance : Borsh H256 :=
  .ofBitVec 32 bits mk fun _ => rfl

end H256

namespace Address

def zero : Address := ⟨0⟩

def asBytes (a : Address) : Bytes := beBytes 20 a.bits.toNat

/-- The first 20 bytes of a slice, filled up with zero bytes at the end. -/
def fromSlice (bs : Bytes) : Address :=
  ⟨BitVec.ofNat 160 (beNat ((bs ++ List.replicate 20 0).take 20))⟩

@[simp] theorem asBytes_length (a : Address) : a.asBytes.length = 20 := beBytes_length ..

theorem asBytes_fromSlice {bs : Bytes} (h : bs.length = 20) : (fromSlice bs).asBytes = bs := by
  rw [asBytes, fromSlice, take_left' h, toNat_ofNat, mod_eq_of_lt, ← h, beBytes_beNat]
  exact lt_of_lt_of_eq (beNat_lt bs) (by rw [h]; rfl)

@[simp] theorem fromSlice_asBytes (a : Address) : fromSlice a.asBytes = a := by
  rw [fromSlice, take_left' a.asBytes_length, asBytes, beNat_beBytes]
  exact congrArg mk (eq_of_toNat_eq (by
    rw [toNat_ofNat, mod_eq_of_lt (show a.bits.toNat < 256 ^ 20 from a.bits.isLt),
      mod_eq_of_lt a.bits.isLt]))

theorem asBytes_injective : Function.Injective asBytes := fun a b h => by
  rw [← fromSlice_asBytes a, h, fromSlice_asBytes]

/-- The text of an address in messages. -/
def display (a : Address) : String := "0x" ++ hexEncode a.asBytes

instance : Ord Address := ⟨compareOn bits⟩

instance : TransOrd Address := inferInstanceAs (TransCmp (compareOn bits))

instance : LawfulEqOrd Address := lawfulEqOrd_of_injective bits fun _ _ => congrArg mk

instance : Borsh Address :=
  .ofBitVec 20 bits mk fun _ => rfl

end Address

namespace PublicKey

def asBytes (k : PublicKey) : Bytes := beBytes 32 k.bits.toNat

instance : Borsh PublicKey :=
  .ofBitVec 32 bits mk fun _ => rfl

end PublicKey

namespace Signature

def zero : Signature := ⟨0⟩

instance : Borsh Signature :=
  .ofBitVec 64 bits mk fun _ => rfl

end Signature

namespace ChainId

/-- The relay chain. -/
def relay : ChainId := ⟨0⟩

instance : Borsh ChainId := .ofIso id mk fun _ => rfl

end ChainId

/-! ## Amounts -/

/-- A token amount with 18 decimal places. -/
structure Amount where
  raw : U128
deriving DecidableEq

namespace Amount

def zero : Amount := ⟨0⟩

/-- A whole number of tokens. -/
def fromVtt (vtt : UInt64) : Amount := ⟨U128.ofU64 vtt * 10 ^ 18⟩

def checkedAdd (a b : Amount) : Option Amount := (U128.checkedAdd a.raw b.raw).map mk

def checkedSub (a b : Amount) : Option Amount := (U128.checkedSub a.raw b.raw).map mk

def checkedMul (a : Amount) (b : U128) : Option Amount := (U128.checkedMul a.raw b).map mk

def isZero (a : Amount) : Bool := a.raw == 0

theorem isZero_iff {a : Amount} : a.isZero = true ↔ a = zero := by
  obtain ⟨_⟩ := a
  rw [isZero, beq_iff_eq, zero, mk.injEq]

instance : LE Amount := ⟨fun a b => a.raw ≤ b.raw⟩

instance : LT Amount := ⟨fun a b => a.raw < b.raw⟩

instance (a b : Amount) : Decidable (a ≤ b) := inferInstanceAs (Decidable (a.raw ≤ b.raw))

instance (a b : Amount) : Decidable (a < b) := inferInstanceAs (Decidable (a.raw < b.raw))

instance : Borsh Amount := .ofIso raw mk fun _ => rfl

section Checked

variable {a b c : Amount}

theorem toNat_checkedAdd (h : a.checkedAdd b = some c) :
    c.raw.toNat = a.raw.toNat + b.raw.toNat := by
  obtain ⟨_, hraw, rfl⟩ := map_eq_some_iff.1 h
  exact U128.toNat_checkedAdd hraw

theorem toNat_checkedSub (h : a.checkedSub b = some c) :
    c.raw.toNat + b.raw.toNat = a.raw.toNat := by
  obtain ⟨_, hraw, rfl⟩ := map_eq_some_iff.1 h
  exact U128.toNat_checkedSub hraw

/-- A difference that does not underflow exists. -/
theorem exists_checkedSub (h : b ≤ a) : ∃ c, a.checkedSub b = some c := by
  refine isSome_iff_exists.1 ?_
  rw [checkedSub, isSome_map]
  exact U128.checkedSub_isSome_iff.2 h

end Checked

/-- The text of an amount in messages: the whole tokens, and the decimals without the zeros at
their end. -/
def display (a : Amount) : String :=
  let whole := a.raw.toNat / 10 ^ 18
  let frac := a.raw.toNat % 10 ^ 18
  if frac = 0 then
    toString whole ++ " VTT"
  else
    let digits := (Nat.toDigits 10 frac)
    let padded := List.replicate (18 - digits.length) '0' ++ digits
    let trimmed := (padded.reverse.dropWhile (· == '0')).reverse
    toString whole ++ "." ++ String.ofList trimmed ++ " VTT"

end Amount

/-! ## Votes and parameters -/

/-- A governance vote. -/
inductive Vote where
  | yes
  | no
  | abstain
deriving DecidableEq

instance : Borsh Vote :=
  .ofVariants [.of fun () => .yes, .of fun () => .no, .of fun () => .abstain] (by decide)
    (fun | .yes => ⟨0, ()⟩ | .no => ⟨1, ()⟩ | .abstain => ⟨2, ()⟩)
    (fun v => by cases v <;> rfl)

/-- The consensus parameters of a chain. -/
structure ConsensusParams where
  epochLength : UInt64
  blockTimeMs : UInt64
  activeValidators : UInt32
  minSelfStake : Amount
  unbondingPeriodSecs : UInt64
  slashDoubleSignBps : UInt16
  slashDowntimeBps : UInt16
  downtimeThresholdPct : UInt8
  treasuryAddress : Address
deriving DecidableEq

/-- The built-in consensus parameters. -/
def ConsensusParams.default : ConsensusParams where
  epochLength := 1200
  blockTimeMs := 3000
  activeValidators := 21
  minSelfStake := .fromVtt 100000
  unbondingPeriodSecs := 21 * 24 * 3600
  slashDoubleSignBps := 500
  slashDowntimeBps := 10
  downtimeThresholdPct := 50
  treasuryAddress := .zero

/-- The gas parameters of a chain. -/
structure GasConfig where
  minGasPrice : Amount
  baseTransferCost : UInt64
  costPerByte : UInt64
deriving DecidableEq

/-- The built-in gas parameters. -/
def GasConfig.default : GasConfig where
  minGasPrice := ⟨1000000000⟩
  baseTransferCost := 21000
  costPerByte := 16

/-- The configuration of a chain. -/
structure ChainConfig where
  chainId : ChainId
  name : String
  consensus : ConsensusParams
  gas : GasConfig
deriving DecidableEq

end Vtt
