import Vtt.Demo
import Vtt.Dex.Quotes

/-!
# Rounding in favour of the pool

The value of a liquidity token is compared before and after every call on a pool. No call lowers it
as long as nothing that is added to a reserve wraps around.
-/

namespace Vtt

open Lib Nat Reserves
open Option (some.inj)
open BitVec (toNat_add_of_lt toNat_sub_of_le)

/-- The reserves and the liquidity tokens of a pool as natural numbers. -/
def PoolState.reserves (pool : PoolState) : Reserves where
  a := pool.reserveA.raw.toNat
  b := pool.reserveB.raw.toNat
  shares := pool.lpTotalSupply.raw.toNat

namespace Dex

open Confined StateDB

variable {actual : U128 × U128} {lpAmount amountA amountB : U128} {pool' : PoolState}
  {tokenIn : H256} {fees : U128 × U128 × U128} {sender : Address}

/-! ## Calls -/

/-- A call on a pool, by any account. -/
inductive Call where
  | addLiquidity (sender : Address) (amountA amountB minLp : Amount)
  | removeLiquidity (sender : Address) (lpAmount minA minB : Amount)
  | executeSwap (sender : Address) (tokenIn : H256) (amountIn minAmountOut : Amount)
  | claimProtocolFees (sender treasury : Address)
  /-- Anything that leaves the pool alone. -/
  | elsewhere

namespace Call

/-- A call on a pool succeeds. -/
def Step (poolId : H256) (s : StateDB) : Call → StateDB → Prop
  | addLiquidity sender amountA amountB minLp, t =>
    ∃ lp, (Dex.addLiquidity sender poolId amountA amountB minLp).run s = some (.ok lp, t)
  | removeLiquidity sender lpAmount minA minB, t =>
    ∃ amounts, (Dex.removeLiquidity sender poolId lpAmount minA minB).run s = some (.ok amounts, t)
  | executeSwap sender tokenIn amountIn minAmountOut, t =>
    ∃ out, (Dex.executeSwap sender poolId tokenIn amountIn minAmountOut).run s = some (.ok out, t)
  | claimProtocolFees sender treasury, t =>
    ∃ amounts, (Dex.claimProtocolFees sender poolId treasury).run s = some (.ok amounts, t)
  | elsewhere, t => t.pools[poolId]? = s.pools[poolId]?

/-- What a call adds to the two reserves of a pool. -/
def added (pool : PoolState) : Call → ℕ × ℕ
  | addLiquidity _ amountA amountB _ =>
    match optimalAmounts pool amountA amountB with
    | .ok actual => (actual.1.toNat, actual.2.toNat)
    | .error _ => (0, 0)
  | executeSwap _ tokenIn amountIn _ =>
    match calculateFees amountIn.raw pool.feeBps pool.protocolFeeBps with
    | .ok fees =>
      if tokenIn = pool.tokenA then (fees.1.toNat + fees.2.1.toNat, 0)
      else (0, fees.1.toNat + fees.2.1.toNat)
    | .error _ => (0, 0)
  | removeLiquidity .. | claimProtocolFees .. | elsewhere => (0, 0)

/-- What a call burns of the liquidity tokens. -/
def burnt : Call → ℕ
  | removeLiquidity _ lpAmount _ _ => lpAmount.raw.toNat
  | _ => 0

/-- The additions to the reserves fit a word, and a withdrawal leaves some liquidity tokens. -/
structure Fits (pool : PoolState) (call : Call) : Prop where
  reserveA : pool.reserves.a + (call.added pool).1 < 2 ^ 128
  reserveB : pool.reserves.b + (call.added pool).2 < 2 ^ 128
  shares : call.burnt = 0 ∨ call.burnt < pool.reserves.shares

/-- A call on a pool whose additions fit. -/
def Fitting (poolId : H256) (s : StateDB) (call : Call) : Prop :=
  ∀ pool, s.pool poolId = some pool → call.Fits pool

end Call

/-! ## One call -/

/-- A pool as the exchange creates and keeps it. -/
structure Sound (poolId : H256) (pool : PoolState) : Prop where
  poolId : pool.poolId = poolId
  feeBps : pool.feeBps = PoolState.defaultFeeBps
  protocolFeeBps : pool.protocolFeeBps = PoolState.defaultProtocolFeeBps
  backed : pool.reserves.Backed

section Pools

variable {poolId : H256} {pool : PoolState} {s t : StateDB}

/-- The shares of a backed pool fit a word. -/
theorem shares_lt {r : Reserves} (ha : r.a < 2 ^ 128) (hb : r.b < 2 ^ 128)
    (h : r.shares ^ 2 ≤ r.a * r.b) :
    r.shares < 2 ^ 128 := by
  by_contra hge
  have hsq : 2 ^ 128 * 2 ^ 128 ≤ r.shares * r.shares :=
    Nat.mul_le_mul (Nat.not_lt.1 hge) (Nat.not_lt.1 hge)
  have hprod : r.a * r.b < 2 ^ 128 * 2 ^ 128 := mul_lt_mul'' ha hb
  rw [pow_two] at h
  omega

section Deposit

variable {lp : U128} (h : Sound poolId pool) (hA : pool.reserves.a + actual.1.toNat < 2 ^ 128)
  (hB : pool.reserves.b + actual.2.toNat < 2 ^ 128)
  (hshares : sharesFor pool actual.1 actual.2 = .ok lp)

include h hA hB hshares

/-- A deposit whose additions to the reserves fit adds to the liquidity tokens as well. -/
theorem deposited_reserves : (deposited pool actual lp).reserves =
    ⟨pool.reserves.a + actual.1.toNat, pool.reserves.b + actual.2.toNat,
      pool.reserves.shares + lp.toNat⟩ := by
  obtain ⟨hleA, hleB⟩ := sharesFor_le hshares
  have hsq := h.backed.sq_le_of_noLoss (noLoss_deposit (r := pool.reserves) hleA hleB)
  have hfits : pool.reserves.shares + lp.toNat < 2 ^ 128 := shares_lt hA hB hsq
  exact Reserves.ext (toNat_add_of_lt hA) (toNat_add_of_lt hB) (toNat_add_of_lt hfits)

theorem deposited_sound :
    Sound poolId (deposited pool actual lp) ∧
      pool.reserves.NoLoss (deposited pool actual lp).reserves := by
  obtain ⟨hleA, hleB⟩ := sharesFor_le hshares
  have hloss := noLoss_deposit (r := pool.reserves) hleA hleB
  have hreserves := deposited_reserves h hA hB hshares
  rw [hreserves]
  refine ⟨⟨h.poolId, h.feeBps, h.protocolFeeBps, ?_⟩, hloss⟩
  rw [hreserves]
  exact ⟨Nat.add_pos_left h.backed.a_pos _, Nat.add_pos_left h.backed.b_pos _,
    Nat.add_pos_left h.backed.shares_pos _, h.backed.sq_le_of_noLoss hloss⟩

end Deposit

section Withdrawal

variable (h : Sound poolId pool) (hlt : lpAmount.toNat < pool.reserves.shares)
  (hA : (U256.mulU128 lpAmount pool.reserveA.raw).divU128 pool.lpTotalSupply.raw = .ok amountA)
  (hB : (U256.mulU128 lpAmount pool.reserveB.raw).divU128 pool.lpTotalSupply.raw = .ok amountB)

include h hlt hA hB

/-- A withdrawal of some of the liquidity tokens takes less than the reserves. -/
theorem withdrawn_reserves : amountA.toNat < pool.reserves.a ∧ amountB.toNat < pool.reserves.b ∧
    (withdrawn pool lpAmount amountA amountB).reserves =
      ⟨pool.reserves.a - amountA.toNat, pool.reserves.b - amountB.toNat,
      pool.reserves.shares - lpAmount.toNat⟩ := by
  have hltA := lt_of_withdraw h.backed.a_pos hlt (mul_le_of_quotient hA)
  have hltB := lt_of_withdraw h.backed.b_pos hlt (mul_le_of_quotient hB)
  exact ⟨hltA, hltB, Reserves.ext (toNat_sub_of_le (le_of_lt hltA))
    (toNat_sub_of_le (le_of_lt hltB)) (toNat_sub_of_le (le_of_lt hlt))⟩

theorem withdrawn_sound : Sound poolId (withdrawn pool lpAmount amountA amountB) ∧
    pool.reserves.NoLoss (withdrawn pool lpAmount amountA amountB).reserves := by
  have hloss := noLoss_withdraw (r := pool.reserves) (mul_le_of_quotient hA) (mul_le_of_quotient hB)
  obtain ⟨hltA, hltB, hreserves⟩ := withdrawn_reserves h hlt hA hB
  rw [hreserves]
  refine ⟨⟨h.poolId, h.feeBps, h.protocolFeeBps, ?_⟩, hloss⟩
  rw [hreserves]
  exact ⟨Nat.sub_pos_of_lt hltA, Nat.sub_pos_of_lt hltB, Nat.sub_pos_of_lt hlt,
    h.backed.sq_le_of_noLoss hloss⟩

end Withdrawal

/-- A pool after a trade that leaves as many liquidity tokens and does not lower the product. -/
theorem sound_of_product (h : Sound poolId pool)
    (hsame : pool'.poolId = pool.poolId ∧ pool'.feeBps = pool.feeBps ∧
      pool'.protocolFeeBps = pool.protocolFeeBps ∧ pool'.lpTotalSupply = pool.lpTotalSupply)
    (ha : 0 < pool'.reserves.a) (hb : 0 < pool'.reserves.b)
    (hprod : pool.reserves.a * pool.reserves.b ≤ pool'.reserves.a * pool'.reserves.b) :
    Sound poolId pool' ∧ pool.reserves.NoLoss pool'.reserves := by
  obtain ⟨hid, hfee, hprotocol, hsupply⟩ := hsame
  have hshares : pool'.reserves.shares = pool.reserves.shares :=
    congrArg (fun supply : Amount => supply.raw.toNat) hsupply
  have hloss := noLoss_of_product hshares hprod
  refine ⟨⟨hid.trans h.poolId, hfee.trans h.feeBps, hprotocol.trans h.protocolFeeBps, ha, hb,
    ?_, ?_⟩, hloss⟩
  · rw [hshares]
    exact h.backed.shares_pos
  · exact h.backed.sq_le_of_noLoss hloss

/-- One reserve grows by at least the net input, the other falls by the output. -/
theorem reserves_of_trade {reserveIn reserveOut net lpFee out : U128}
    (hin : reserveIn.toNat + (net.toNat + lpFee.toNat) < 2 ^ 128)
    (hout : getAmountOut net reserveIn reserveOut = .ok out) :
    (reserveIn + (net + lpFee)).toNat = reserveIn.toNat + (net.toNat + lpFee.toNat) ∧
      (reserveOut - out).toNat = reserveOut.toNat - out.toNat ∧ out.toNat < reserveOut.toNat ∧
      reserveIn.toNat * reserveOut.toNat ≤
        (reserveIn.toNat + (net.toNat + lpFee.toNat)) * (reserveOut.toNat - out.toNat) := by
  obtain ⟨⟨hposIn, hposOut⟩, hle⟩ := getAmountOut_le hout
  have hlt := lt_of_trade hposIn hposOut hle
  have hsum : (net + lpFee).toNat = net.toNat + lpFee.toNat := toNat_add_of_lt (by omega)
  refine ⟨?_, toNat_sub_of_le (le_of_lt hlt), hlt, product_le_of_trade (le_add_right _ _) hle⟩
  rw [← hsum]
  exact toNat_add_of_lt (by omega)

theorem swapped_sound {out : U128} (h : Sound poolId pool)
    (hin : (if tokenIn = pool.tokenA then pool.reserveA.raw else pool.reserveB.raw).toNat +
      (fees.1.toNat + fees.2.1.toNat) < 2 ^ 128)
    (hout : getAmountOut fees.1 (if tokenIn = pool.tokenA then pool.reserveA.raw
      else pool.reserveB.raw) (if tokenIn = pool.tokenA then pool.reserveB.raw
      else pool.reserveA.raw) = .ok out) :
    Sound poolId (swapped pool (tokenIn = pool.tokenA) fees out) ∧
      pool.reserves.NoLoss (swapped pool (tokenIn = pool.tokenA) fees out).reserves := by
  obtain ⟨hgrown, hpaid, hlt, hprod⟩ := reserves_of_trade hin hout
  unfold swapped
  by_cases hA : tokenIn = pool.tokenA
  · simp only [if_pos hA] at hgrown hpaid hlt hprod ⊢
    apply sound_of_product h
    · exact ⟨rfl, rfl, rfl, rfl⟩
    · show 0 < (pool.reserveA.raw + (fees.1 + fees.2.1)).toNat
      rw [hgrown]
      exact Nat.add_pos_left h.backed.a_pos _
    · show 0 < (pool.reserveB.raw - out).toNat
      omega
    · show _ ≤ (pool.reserveA.raw + (fees.1 + fees.2.1)).toNat * (pool.reserveB.raw - out).toNat
      rw [hgrown, hpaid]
      exact hprod
  · simp only [if_neg hA] at hgrown hpaid hlt hprod ⊢
    apply sound_of_product h
    · exact ⟨rfl, rfl, rfl, rfl⟩
    · show 0 < (pool.reserveA.raw - out).toNat
      omega
    · show 0 < (pool.reserveB.raw + (fees.1 + fees.2.1)).toNat
      rw [hgrown]
      exact Nat.add_pos_left h.backed.b_pos _
    · show _ ≤ (pool.reserveA.raw - out).toNat * (pool.reserveB.raw + (fees.1 + fees.2.1)).toNat
      rw [hgrown, hpaid, mul_comm, mul_comm (_ - _)]
      exact hprod

/-- The reserve that a swap adds to has room for the input. -/
theorem room_of_added {amountIn minAmountOut : Amount}
    (hfees : calculateFees amountIn.raw pool.feeBps pool.protocolFeeBps = .ok fees)
    (hA : pool.reserves.a + ((Call.executeSwap sender tokenIn amountIn minAmountOut).added pool).1 <
    2 ^ 128) (hB : pool.reserves.b +
      ((Call.executeSwap sender tokenIn amountIn minAmountOut).added pool).2 < 2 ^ 128) :
    (if tokenIn = pool.tokenA then pool.reserveA.raw else pool.reserveB.raw).toNat +
      (fees.1.toNat + fees.2.1.toNat) < 2 ^ 128 := by
  simp only [Call.added, hfees] at hA hB
  by_cases htoken : tokenIn = pool.tokenA
  · rw [if_pos htoken] at hA ⊢
    exact hA
  · rw [if_neg htoken] at hB ⊢
    exact hB

/-- A pool that is saved under its own id is found there. -/
theorem Sound.found (h : Sound poolId pool')
    (hpools : t.pools = s.pools.insert pool'.poolId (Borsh.serialize pool')) :
    t.pool poolId = some pool' := by
  rw [pool_of_insert hpools, if_pos h.poolId.symm]

/-- No call that fits lowers the value of a liquidity token. -/
theorem noLoss_of_step {call : Call} (h : Sound poolId pool) (hpool : s.pool poolId = some pool)
    (hstep : Within (Call.Fitting poolId) (Call.Step poolId) s call t) :
    ∃ pool', t.pool poolId = some pool' ∧ Sound poolId pool' ∧
      pool.reserves.NoLoss pool'.reserves := by
  obtain ⟨hfits, hstep⟩ := hstep
  have hfits := hfits pool hpool
  cases call with
  | addLiquidity =>
    obtain ⟨_, hrun⟩ := hstep
    obtain ⟨p, _, hp, -, hactual, -, hshares, htrade⟩ := addLiquidity_ok hrun
    obtain rfl := some.inj (hpool.symm.trans hp)
    have hA := hfits.reserveA
    have hB := hfits.reserveB
    simp only [Call.added, hactual] at hA hB
    obtain ⟨hsound, hloss⟩ := deposited_sound h hA hB hshares
    exact ⟨_, hsound.found htrade.pools, hsound, hloss⟩
  | removeLiquidity =>
    obtain ⟨amounts, hrun⟩ := hstep
    obtain ⟨p, hp, hnonzero, hA, hB, htrade⟩ := removeLiquidity_ok hrun
    obtain rfl := some.inj (hpool.symm.trans hp)
    have hlt := hfits.shares.resolve_left (pos_iff_ne_zero.1 (toNat_pos hnonzero))
    obtain ⟨hsound, hloss⟩ := withdrawn_sound h hlt hA hB
    exact ⟨_, hsound.found htrade.pools, hsound, hloss⟩
  | executeSwap =>
    obtain ⟨_, hrun⟩ := hstep
    obtain ⟨p, _, hp, -, hfees, hout, htrade⟩ := executeSwap_ok hrun
    obtain rfl := some.inj (hpool.symm.trans hp)
    obtain ⟨hsound, hloss⟩ :=
      swapped_sound h (room_of_added hfees hfits.reserveA hfits.reserveB) hout
    exact ⟨_, hsound.found htrade.pools, hsound, hloss⟩
  | claimProtocolFees =>
    obtain ⟨_, hrun⟩ := hstep
    obtain ⟨-, _, hp, htrade⟩ := claimProtocolFees_ok hrun
    obtain rfl := some.inj (hpool.symm.trans hp)
    have hsound : Sound poolId { pool with protocolFeesA := .zero, protocolFeesB := .zero } :=
      ⟨h.poolId, h.feeBps, h.protocolFeeBps, h.backed⟩
    exact ⟨_, hsound.found htrade.pools, hsound, .refl _⟩
  | elsewhere =>
    refine ⟨pool, ?_, h, .refl _⟩
    unfold StateDB.pool at hpool ⊢
    rw [show t.pools[poolId]? = s.pools[poolId]? from hstep]
    exact hpool

/-- No sequence of calls that fit lowers the value of a liquidity token. -/
theorem noLoss_of_run {calls : List Call} (h : Sound poolId pool)
    (hpool : s.pool poolId = some pool)
    (hrun : Run (Within (Call.Fitting poolId) (Call.Step poolId)) s calls t) :
    ∃ pool', t.pool poolId = some pool' ∧ Sound poolId pool' ∧
      pool.reserves.NoLoss pool'.reserves := by
  induction hrun with
  | nil => exact ⟨pool, hpool, h, .refl _⟩
  | snoc _ hlast ih =>
    obtain ⟨_, hpool₁, hsound₁, hloss₁⟩ := ih
    obtain ⟨pool₂, hpool₂, hsound₂, hloss₂⟩ := noLoss_of_step hsound₁ hpool₁ hlast
    exact ⟨pool₂, hpool₂, hsound₂, hloss₁.trans hloss₂ hsound₁.backed.shares_pos⟩

/-- A new pool has fewer liquidity tokens than the geometric mean of its reserves. -/
theorem opened_sound [Crypto] (sender : Address) (tokenA tokenB : H256) {amountA amountB : Amount}
    (epoch : Epoch) (hamounts : amountA.raw ≠ 0 ∧ amountB.raw ≠ 0)
    (hshares : PoolState.minimumLiquidity < firstShares amountA amountB) :
    Sound (opened sender tokenA tokenB amountA amountB epoch).poolId
      (opened sender tokenA tokenB amountA amountB epoch) := by
  refine ⟨rfl, rfl, rfl, toNat_pos hamounts.1, toNat_pos hamounts.2, ?_, ?_⟩
  · exact lt_of_le_of_lt (zero_le _) (BitVec.lt_def.1 hshares)
  · have hsq := sq_sqrtU256_le (U256.mulU128 amountA.raw amountB.raw)
    rw [U256.toNat_mulU128] at hsq
    rw [pow_two]
    exact hsq

theorem createPool_sound [Crypto] {tokenA tokenB : H256} {amountA amountB : Amount} {epoch : Epoch}
    (h : (createPool sender tokenA tokenB amountA amountB epoch).run s = some (.ok pool, t)) :
    t.pool pool.poolId = some pool ∧ Sound pool.poolId pool := by
  obtain ⟨rfl, -, hamounts, -, hshares, -, -, hpools, -⟩ := createPool_ok h
  have hsound := opened_sound sender tokenA tokenB epoch hamounts hshares
  exact ⟨hsound.found hpools, hsound⟩

/-- No call of a sequence on a new pool lowers the value of a liquidity token, and no part of the
sequence that comes back to the liquidity tokens and one reserve it started with lowers the other
reserve. -/
theorem liquidity_value_never_falls [Crypto] {sender : Address} {tokenA tokenB : H256}
    {amountA amountB : Amount} {epoch : Epoch} {s₀ s₁ : StateDB}
    (hcreate : (createPool sender tokenA tokenB amountA amountB epoch).run s₀ =
      some (.ok pool, s₁)) :
    (∀ (calls : List Call) (call : Call) (s t : StateDB),
      Run (Within (Call.Fitting pool.poolId) (Call.Step pool.poolId)) s₁ calls s →
      Within (Call.Fitting pool.poolId) (Call.Step pool.poolId) s call t →
      ∃ p p', s.pool pool.poolId = some p ∧ t.pool pool.poolId = some p' ∧
        p.reserveA.raw.toNat * p.reserveB.raw.toNat * p'.lpTotalSupply.raw.toNat ^ 2 ≤
          p'.reserveA.raw.toNat * p'.reserveB.raw.toNat * p.lpTotalSupply.raw.toNat ^ 2) ∧
    (∀ (calls calls' : List Call) (s t : StateDB) (p p' : PoolState),
      Run (Within (Call.Fitting pool.poolId) (Call.Step pool.poolId)) s₁ calls s →
      Run (Within (Call.Fitting pool.poolId) (Call.Step pool.poolId)) s calls' t →
      s.pool pool.poolId = some p → t.pool pool.poolId = some p' →
      p'.lpTotalSupply = p.lpTotalSupply →
      (p'.reserveA = p.reserveA → p.reserveB.raw.toNat ≤ p'.reserveB.raw.toNat) ∧
        (p'.reserveB = p.reserveB → p.reserveA.raw.toNat ≤ p'.reserveA.raw.toNat)) := by
  obtain ⟨hpool, hsound⟩ := createPool_sound hcreate
  constructor
  · intro calls _ s t hrun hstep
    obtain ⟨p, hp, hsoundp, -⟩ := noLoss_of_run hsound hpool hrun
    obtain ⟨p', hp', -, hloss⟩ := noLoss_of_step hsoundp hp hstep
    exact ⟨p, p', hp, hp', hloss⟩
  · intro _ _ _ _ _ _ hrun hrun' hp hp' hsupply
    obtain ⟨q, hq, hsoundq, -⟩ := noLoss_of_run hsound hpool hrun
    obtain rfl := Option.some.inj (hq.symm.trans hp)
    obtain ⟨q', hq', -, hloss⟩ := noLoss_of_run hsoundq hp hrun'
    obtain rfl := Option.some.inj (hq'.symm.trans hp')
    have hshares : q'.reserves.shares = q.reserves.shares :=
      congrArg (fun supply : Amount => supply.raw.toNat) hsupply
    obtain ⟨hb, ha⟩ := hloss.le_of_same hsoundq.backed.shares_pos hshares
    exact ⟨fun hA => hb hsoundq.backed.a_pos (congrArg (fun x : Amount => x.raw.toNat) hA),
      fun hB => ha hsoundq.backed.b_pos (congrArg (fun x : Amount => x.raw.toNat) hB)⟩

end Pools

/-! ## A market -/

open scoped Vtt.Demo in
/-- A state with one asset, of which an account holds a million. -/
def market : StateDB :=
  { StateDB.new with
    accounts := (∅ : FinMap _ _).insert ⟨7⟩ { AccountState.default with balance := ⟨5000000⟩ }
    assets := (∅ : FinMap _ _).insert ⟨5⟩ (lpAsset ⟨5⟩ .zero ⟨1000000⟩)
    ownership := (∅ : FinMap _ _).insert (⟨5⟩, ⟨7⟩) ⟨⟨5⟩, ⟨7⟩, ⟨1000000⟩, .zero⟩ }

open scoped Vtt.Demo in
/-- The market with a pool of its asset and the native token, and after a swap in it. -/
def swappedMarket : Option (PoolState × StateDB × StateDB) :=
  match (createPool ⟨7⟩ ⟨5⟩ .zero ⟨100000⟩ ⟨200000⟩ 0).run market with
  | some (.ok pool, s) =>
    match (executeSwap ⟨7⟩ pool.poolId ⟨5⟩ ⟨1000⟩ .zero).run s with
    | some (.ok _, t) => some (pool, s, t)
    | _ => none
  | _ => none

open scoped Vtt.Demo in
theorem liquidity_value_never_falls_of_swap :
    ∃ pool s t p p', (createPool ⟨7⟩ ⟨5⟩ .zero ⟨100000⟩ ⟨200000⟩ 0).run market =
      some (.ok pool, s) ∧
      Within (Call.Fitting pool.poolId) (Call.Step pool.poolId) s
        (.executeSwap ⟨7⟩ ⟨5⟩ ⟨1000⟩ .zero) t ∧
      s.pool pool.poolId = some p ∧ t.pool pool.poolId = some p' ∧
      p.reserveA.raw.toNat * p.reserveB.raw.toNat * p'.lpTotalSupply.raw.toNat ^ 2 ≤
        p'.reserveA.raw.toNat * p'.reserveB.raw.toNat * p.lpTotalSupply.raw.toNat ^ 2 := by
  have hsome : swappedMarket.isSome = true := by decide +kernel
  unfold swappedMarket at hsome
  split at hsome
  · rename_i pool s hcreate
    split at hsome
    · rename_i out t hswap
      obtain ⟨hpool, -⟩ := createPool_sound hcreate
      have hfits : Call.Fitting pool.poolId s (.executeSwap ⟨7⟩ ⟨5⟩ ⟨1000⟩ .zero) := by
        intro _ hq
        obtain rfl := Option.some.inj (hpool.symm.trans hq)
        obtain ⟨rfl, -⟩ := createPool_ok hcreate
        exact ⟨by decide +kernel, by decide +kernel, .inl rfl⟩
      have hstep : Within (Call.Fitting pool.poolId) (Call.Step pool.poolId) s
          (.executeSwap ⟨7⟩ ⟨5⟩ ⟨1000⟩ .zero) t := ⟨hfits, out, hswap⟩
      obtain ⟨p, p', hp, hp', hle⟩ := (liquidity_value_never_falls hcreate).1 [] _ s t .nil hstep
      exact ⟨pool, s, t, p, p', hcreate, hstep, hp, hp', hle⟩
    · cases hsome
  · cases hsome

end Dex

end Vtt
