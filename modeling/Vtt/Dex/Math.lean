import Vtt.Primitives.Basic

/-!
# Arithmetic of the exchange

A 256-bit word of two halves for products, its division and square root, and the constant-product
formula. A loop that runs while a value decreases is given that value as its number of rounds.
-/

namespace Vtt

open Lib

/-- The errors of the exchange. -/
inductive DexError where
  | poolAlreadyExists (poolId : H256)
  | poolNotFound (poolId : H256)
  | zeroAmount
  | zeroLiquidity
  | insufficientBalance
  | insufficientLiquidity
  | slippageExceeded (expected got : U128)
  | invalidTokenPair
  | sameToken
  | overflow
  | notAuthorized
  | miningNotActive
  | nothingToClaim
  | dexPaused
deriving DecidableEq

/-- The text of an error in messages. -/
def DexError.display : DexError → String
  | poolAlreadyExists poolId => "pool already exists: " ++ poolId.display
  | poolNotFound poolId => "pool not found: " ++ poolId.display
  | zeroAmount => "amount must be non-zero"
  | zeroLiquidity => "pool has zero liquidity"
  | insufficientBalance => "insufficient balance"
  | insufficientLiquidity => "insufficient liquidity in pool"
  | slippageExceeded expected got =>
    "slippage exceeded: expected >= " ++ toString expected.toNat ++ ", got " ++ toString got.toNat
  | invalidTokenPair => "invalid token pair"
  | sameToken => "cannot create pool with same token on both sides"
  | overflow => "arithmetic overflow"
  | notAuthorized => "not authorized for this operation"
  | miningNotActive => "liquidity mining not active for this pool"
  | nothingToClaim => "nothing to claim"
  | dexPaused => "DEX is paused"

/-- A 256-bit word as two halves. -/
structure U256 where
  hi : U128
  lo : U128
deriving DecidableEq

namespace U256

/-- The product of two words. -/
def mulU128 (a b : U128) : U256 :=
  let mask : U128 := BitVec.ofNat 128 (2 ^ 64 - 1)
  let aLo := a &&& mask
  let aHi := a >>> 64
  let bLo := b &&& mask
  let bHi := b >>> 64
  let ll := aLo * bLo
  let lh := aLo * bHi
  let hl := aHi * bLo
  let hh := aHi * bHi
  let mid := lh + hl
  let lo := ll + (mid <<< 64)
  let carry : U128 :=
    (if lo < ll then 1 else 0) + (if mid < lh then BitVec.ofNat 128 (2 ^ 64) else 0)
  ⟨hh + (mid >>> 64) + carry, lo⟩

/-- One step of the long division: the remainder and the quotient after the next bit. -/
def divStep (divisor word : U128) (acc : U128 × U128) (i : Nat) : U128 × U128 :=
  let bit := (word >>> i) &&& 1
  let carry := acc.1 >>> 127
  let rem := (acc.1 <<< 1) ||| bit
  if carry ≠ 0 ∨ divisor ≤ rem then (rem - divisor, acc.2 ||| (1 <<< i)) else (rem, acc.2)

/-- The quotient, unless it does not fit a word. -/
def divU128 (n : U256) (divisor : U128) : Except DexError U128 :=
  if divisor = 0 then
    .error .overflow
  else if n.hi = 0 then
    .ok (n.lo / divisor)
  else if divisor ≤ n.hi then
    .error .overflow
  else
    let bits := (List.range 128).reverse
    let high := bits.foldl (divStep divisor n.hi) (0, 0)
    .ok (bits.foldl (divStep divisor n.lo) (high.1, 0)).2

end U256

/-- The rounds of Newton's method while the estimate decreases. -/
def sqrtLoop (n : U128) : Nat → U128 → U128 → U128
  | 0, x, _ => x
  | rounds + 1, x, y => if y < x then sqrtLoop n rounds y ((y + n / y) / 2) else x

/-- The integer square root. -/
def sqrtU128 (n : U128) : U128 :=
  if n = 0 then 0
  else if n ≤ 3 then 1
  else sqrtLoop n n.toNat n (n / 2 + n % 2)

/-- The rounds of Newton's method on the double word. -/
def sqrtLoop256 (n : U256) : Nat → U128 → U128
  | 0, x => x
  | rounds + 1, x =>
    let div : U128 := match n.divU128 x with
      | .ok q => q
      | .error _ => U128.maxValue
    let next := (x >>> 1) + (div >>> 1) + ((x &&& 1) + (div &&& 1)) / 2
    if x ≤ next then x else sqrtLoop256 n rounds next

/-- The integer square root of a double word; the first estimate loses its top bit if the upper half
is too large. -/
def sqrtU256 (n : U256) : U128 :=
  if n.hi = 0 then
    sqrtU128 n.lo
  else
    let x := (sqrtU128 n.hi + 1) <<< 64
    sqrtLoop256 n (x.toNat + 1) x

/-- What the constant-product formula pays for an input net of fees. -/
def getAmountOut (amountInNet reserveIn reserveOut : U128) : Except DexError U128 :=
  if amountInNet = 0 then
    .error .zeroAmount
  else if reserveIn = 0 ∨ reserveOut = 0 then
    .error .zeroLiquidity
  else
    match U128.checkedAdd reserveIn amountInNet with
    | none => .error .overflow
    | some denominator => (U256.mulU128 reserveOut amountInNet).divU128 denominator

/-- The net input, the fee for liquidity providers and the fee for the protocol. -/
def calculateFees (amountIn : U128) (feeBps protocolFeeBps : UInt16) :
    Except DexError (U128 × U128 × U128) :=
  if amountIn = 0 then
    .error .zeroAmount
  else
    match U128.checkedMul amountIn (U128.ofU16 feeBps),
      U128.checkedMul amountIn (U128.ofU16 protocolFeeBps) with
    | some total, some protocol =>
      let totalFee := total / 10000
      let protocolFee := protocol / 10000
      .ok (U128.saturatingSub amountIn totalFee, U128.saturatingSub totalFee protocolFee,
        protocolFee)
    | _, _ => .error .overflow

end Vtt
