import Vtt.Dex.Quotes

/-!
# Quotes of swaps

The server computes what a swap would pay as the swap does. The impact on the price is computed in
64 bits, to which the amount is cut, so that it is right for some amounts and reserves only.
-/

namespace Vtt

open Lib Nat

namespace Dex

/-- The errors of a request for a quote. -/
inductive QuoteError where
  | poolNotFound
  | poolDeserialize
  | feeCalculation (e : DexError)
  | swapQuote (e : DexError)
deriving DecidableEq

structure SwapQuote where
  amountIn : U128
  amountOut : U128
  priceImpactBps : UInt32
  fee : U128
deriving DecidableEq

/-- The impact in basis points: the amount is cut to 64 bits, and the reserve capped there. -/
def priceImpactBps (amountInNet reserveIn : U128) : UInt32 :=
  if 0 < reserveIn then
    UInt32.ofNat
      (min (amountInNet.toNat % 2 ^ 64 * 10000) (2 ^ 64 - 1) / min reserveIn.toNat (2 ^ 64 - 1))
  else 0

/-- The reserves of a pool in the direction of a swap. -/
def directed (pool : PoolState) (aToB : Bool) : U128 × U128 :=
  if aToB then (pool.reserveA.raw, pool.reserveB.raw) else (pool.reserveB.raw, pool.reserveA.raw)

def getSwapQuote (s : StateDB) (poolId : H256) (amountIn : U128) (aToB : Bool) :
    Except QuoteError SwapQuote := do
  let data ← (s.getPoolRaw poolId).elim (.error .poolNotFound) .ok
  let pool ← (Borsh.tryFromSlice data).elim (.error .poolDeserialize) .ok
  let (reserveIn, reserveOut) := directed pool aToB
  let fees ← (calculateFees amountIn pool.feeBps pool.protocolFeeBps).mapError .feeCalculation
  let totalFee := U128.saturatingSub amountIn fees.1
  let amountOut ← (getAmountOut fees.1 reserveIn reserveOut).mapError .swapQuote
  pure ⟨amountIn, amountOut, priceImpactBps fees.1 reserveIn, totalFee⟩

variable {s : StateDB} {poolId : H256} {amountIn : U128} {aToB : Bool} {quote : SwapQuote}

theorem getSwapQuote_ok_iff : getSwapQuote s poolId amountIn aToB = .ok quote ↔
    ∃ pool fees out, s.pool poolId = some pool ∧
      calculateFees amountIn pool.feeBps pool.protocolFeeBps = .ok fees ∧
      getAmountOut fees.1 (directed pool aToB).1 (directed pool aToB).2 = .ok out ∧
      quote = ⟨amountIn, out, priceImpactBps fees.1 (directed pool aToB).1,
      U128.saturatingSub amountIn fees.1⟩ := by
  unfold getSwapQuote StateDB.pool StateDB.getPoolRaw
  rcases s.pools[poolId]? with _ | data
  · simp [bind, Except.bind]
  rcases hpool : (Borsh.tryFromSlice data : Option PoolState) with _ | pool
  · simp [hpool, bind, Except.bind]
  rcases hfees : calculateFees amountIn pool.feeBps pool.protocolFeeBps with e | ⟨net, _, _⟩
  · simp [hpool, hfees, bind, Except.bind, Except.mapError]
  rcases hout : getAmountOut net (directed pool aToB).1 (directed pool aToB).2 with _ | _
  · simp [hpool, hfees, hout, bind, Except.bind, Except.mapError]
  · simp [hpool, hfees, hout, bind, Except.bind, Except.mapError, pure, Except.pure, eq_comm]

/-- The numbers for which the impact is right. With a reserve of 64 bits, a quotient below the
largest value needs the product not to be capped, or to have the same quotient when it is; a larger
one needs ones in the 32 bits that are left of it. With a larger reserve the answer is zero or
one. -/
def ImpactRight (net reserve : Nat) : Prop :=
  if reserve < 2 ^ 64 then
    if net * 10000 / reserve < 2 ^ 32 - 1 then
      net * 10000 < 2 ^ 64 ∨ net < 2 ^ 64 ∧ net * 10000 / reserve = (2 ^ 64 - 1) / reserve
    else min (net % 2 ^ 64 * 10000) (2 ^ 64 - 1) / reserve % 2 ^ 32 = 2 ^ 32 - 1
  else if net % 2 ^ 64 * 10000 < 2 ^ 64 - 1 then net * 10000 < reserve
  else reserve ≤ net * 10000 ∧ net * 10000 < 2 * reserve

/-- An amount that is not cut and a product that is capped at most have the quotient of the
product. -/
theorem capped_div_eq_iff {net reserve : Nat} (hpos : 0 < reserve) (hlt : reserve < 2 ^ 64) :
    min (net % 2 ^ 64 * 10000) (2 ^ 64 - 1) / reserve = net * 10000 / reserve ↔
      net * 10000 < 2 ^ 64 ∨ net < 2 ^ 64 ∧ net * 10000 / reserve = (2 ^ 64 - 1) / reserve := by
  by_cases hfits : net * 10000 < 2 ^ 64
  · rw [mod_eq_of_lt (by omega), min_eq_left (by omega)]
    exact iff_of_true rfl (.inl hfits)
  by_cases hnet : net < 2 ^ 64
  · rw [mod_eq_of_lt hnet, min_eq_right (by omega), eq_comm]
    exact ⟨fun h => .inr ⟨hnet, h⟩, fun h => (h.resolve_left hfits).2⟩
  · -- the product is larger by more than the reserve
    have gap : min (net % 2 ^ 64 * 10000) (2 ^ 64 - 1) + reserve ≤ net * 10000 := by omega
    have less := Nat.div_le_div_right (c := reserve) gap
    rw [add_div_right _ hpos] at less
    exact iff_of_false (by omega) (by omega)

/-- The impact is right for exactly these numbers. -/
theorem priceImpactBps_eq_iff {net reserve : U128} (hpos : 0 < reserve) :
    (priceImpactBps net reserve).toNat = min (10000 * net.toNat / reserve.toNat) (2 ^ 32 - 1) ↔
      ImpactRight net.toNat reserve.toNat := by
  have hpos' : 0 < reserve.toNat := by simpa [BitVec.lt_def] using hpos
  rw [priceImpactBps, if_pos hpos, UInt32.toNat_ofNat', mul_comm 10000, ImpactRight]
  split
  · rename_i hlt
    have below : min (net.toNat % 2 ^ 64 * 10000) (2 ^ 64 - 1) / reserve.toNat ≤
        net.toNat * 10000 / reserve.toNat := Nat.div_le_div_right (by omega)
    rw [min_eq_left (by omega : reserve.toNat ≤ 2 ^ 64 - 1)]
    split
    · rename_i hquotient
      rw [min_eq_left (le_of_lt hquotient), mod_eq_of_lt (by omega), capped_div_eq_iff hpos' hlt]
    · rename_i hquotient
      rw [min_eq_right (not_lt.1 hquotient)]
  · rename_i hle
    rw [min_eq_right (by omega : 2 ^ 64 - 1 ≤ reserve.toNat)]
    split
    · rename_i hless
      rw [min_eq_left (by omega), Nat.div_eq_of_lt hless, ← Nat.div_eq_zero_iff_lt hpos']
      omega
    · rename_i hmore
      rw [min_eq_right (by omega), Nat.div_self (by decide)]
      have one := Nat.div_eq_iff (x := net.toNat * 10000) (y := 1) hpos'
      omega

/-- For every state, pool and amount: a swap without a lower limit pays what is quoted for its
direction; and the quoted impact is the rounded quotient, capped to its type, exactly for the
numbers for which it is right. -/
theorem quote_agrees (s : StateDB) (poolId : H256) (amountIn : U128) :
    (∀ sender tokenIn out t,
      (executeSwap sender poolId tokenIn ⟨amountIn⟩ .zero).run s = some (.ok out, t) →
      ∃ pool quote, s.pool poolId = some pool ∧
        getSwapQuote s poolId amountIn (tokenIn = pool.tokenA) = .ok quote ∧
        quote.amountOut = out.raw) ∧
    ∀ aToB quote, getSwapQuote s poolId amountIn aToB = .ok quote →
      ∃ pool fees, s.pool poolId = some pool ∧
      calculateFees amountIn pool.feeBps pool.protocolFeeBps = .ok fees ∧
      let reserveIn := (directed pool aToB).1.toNat
      (quote.priceImpactBps.toNat = min (10000 * fees.1.toNat / reserveIn) (2 ^ 32 - 1) ↔
        ImpactRight fees.1.toNat reserveIn) := by
  constructor
  · intro _ tokenIn out _ h
    obtain ⟨pool, fees, hpool, -, hfees, hout, -⟩ := executeSwap_ok h
    refine ⟨pool, _, hpool, getSwapQuote_ok_iff.2 ⟨pool, fees, out.raw, hpool, hfees, ?_, rfl⟩, rfl⟩
    by_cases htoken : tokenIn = pool.tokenA
    · simpa [directed, htoken] using hout
    · simpa [directed, htoken] using hout
  · intro _ _ h
    obtain ⟨pool, fees, _, hpool, hfees, hout, rfl⟩ := getSwapQuote_ok_iff.1 h
    exact ⟨pool, fees, hpool, hfees,
      priceImpactBps_eq_iff (BitVec.lt_def.2 (getAmountOut_le hout).1.1)⟩

end Dex

namespace Demo

open Dex

/-- A pool of a hundred coins and as many tokens, without fees. -/
def hundred : PoolState :=
  ⟨.zero, .zero, ⟨1⟩, .fromVtt 100, .fromVtt 100, ⟨2⟩, .fromVtt 100, 0, 0, .zero, .zero, .zero, 0⟩

/-- Nothing is left of an amount that is cut to 64 bits. -/
theorem impact_cut : ∃ s quote, StateDB.pool s .zero = some hundred ∧
    calculateFees (2 ^ 64) hundred.feeBps hundred.protocolFeeBps = .ok (2 ^ 64, 0, 0) ∧
    getSwapQuote s .zero (2 ^ 64) true = .ok quote ∧
    quote.priceImpactBps.toNat ≠ min (10000 * 2 ^ 64 / hundred.reserveA.raw.toNat) (2 ^ 32 - 1) :=
  ⟨StateDB.new.putPoolRaw .zero (Borsh.serialize hundred), ⟨2 ^ 64, 15573871800334267139, 0, 0⟩, by
    decide +kernel,
    by decide +kernel, by decide +kernel, by decide +kernel⟩

end Demo

end Vtt
