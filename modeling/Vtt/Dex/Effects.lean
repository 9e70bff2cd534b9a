import Vtt.Dex.Trade
import Vtt.State.Holdings

/-!
# What the operations of the exchange do

Every operation of the exchange that succeeds moves tokens and saves a pool. The tokens that are not
native are moved between the sender and the zero address; the statements below say which flows these
are, and what is saved.
-/

namespace Vtt

open Lib Vtt.Flow Std.ExtTreeMap

/-- The pool that the caches have under an id. -/
def StateDB.pool (db : StateDB) (poolId : H256) : Option PoolState :=
  (db.pools[poolId]?).bind Borsh.tryFromSlice

namespace Dex

open Confined StateDB

variable {pool : PoolState} {amountA amountB : Amount} {amounts : Amount × Amount}

/-- The flows of a payment into a pool; native tokens are balances, not holdings. -/
def paidIn (sender : Address) (token : H256) (amount : Amount) : List Flow :=
  if PoolState.isNative token then [] else Flow.move token sender .zero amount

/-- The flows of a payment out of a pool. -/
def paidOut (recipient : Address) (token : H256) (amount : Amount) : List Flow :=
  if PoolState.isNative token then [] else Flow.move token .zero recipient amount

section Payments

variable {P : List Flow → Prop} {payer recipient : Address} {token : H256} {amount : Amount}

/-- What holds of no flows and of moves holds of payments. -/
theorem paidIn_of (nil : P []) (move : P (move token payer .zero amount)) :
    P (paidIn payer token amount) := by
  unfold paidIn
  split
  · exact nil
  · exact move

theorem paidOut_of (nil : P []) (move : P (move token .zero recipient amount)) :
    P (paidOut recipient token amount) := by
  unfold paidOut
  split
  · exact nil
  · exact move

end Payments

/-- Tokens flow, a pool is saved, and the assets stay as they are. -/
structure Trade (flows : List Flow) (pool : PoolState) (s t : StateDB) : Prop where
  flows : s.holdings.Keyed → Flows flows s t
  pools : t.pools = s.pools.insert pool.poolId (Borsh.serialize pool)
  assets : t.assets = s.assets

variable {s t : StateDB}

/-- Payments leave pools and assets alone. -/
theorem Paid.same (h : Paid s t) : t.pools = s.pools ∧ t.assets = s.assets := by
  obtain ⟨_, _, _, _, _, _, _, rfl⟩ := h
  exact ⟨rfl, rfl⟩

theorem fits_pool (pool : PoolState) : Borsh.Fits pool := by simp [Borsh.Fits]

/-- What is found after a pool is saved. -/
theorem pool_of_insert (h : t.pools = s.pools.insert pool.poolId (Borsh.serialize pool))
    (poolId : H256) :
    t.pool poolId = if poolId = pool.poolId then some pool else s.pool poolId := by
  unfold StateDB.pool
  rw [h, get_insert]
  by_cases heq : poolId = pool.poolId
  · rw [if_pos heq, if_pos heq.symm, Option.bind_some]
    exact Borsh.tryFromSlice_serialize pool (fits_pool pool)
  · rw [if_neg heq, if_neg (Ne.symm heq)]

/-! ## Payments -/

/-- Tokens flow, and nothing but accounts and holdings changes. -/
structure Payment (flows : List Flow) (s t : StateDB) : Prop where
  flows : s.holdings.Keyed → Flows flows s t
  paid : Paid s t

namespace Payment

variable {flows flows' : List Flow} {u : StateDB}

theorem append (h : Payment flows s t) (h' : Payment flows' t u) :
    Payment (flows ++ flows') s u := by
  refine ⟨fun hkeyed => ?_, IsTrans.trans _ _ _ h.paid h'.paid⟩
  have hfirst := h.flows hkeyed
  exact hfirst.append (h'.flows (keyed_of_runAll hfirst hkeyed))

/-- A payment after which a pool is saved. -/
theorem save (h : Payment flows s t) {pool : PoolState} {x : Unit}
    (hsave : (savePool pool).run t = some (.ok x, u)) :
    Trade flows pool s u := by
  cases hsave
  obtain ⟨hpools, hassets⟩ := Paid.same h.paid
  refine ⟨h.flows, ?_, hassets⟩
  rw [← hpools]
  rfl

/-- No payment at all. -/
theorem none (s : StateDB) : Payment [] s s := ⟨fun _ => flows_nil rfl, refl s⟩

end Payment

variable {amount : Amount} {recipient : Address} {token : H256} {x : Unit}

theorem payment_of_transferTokenIn {sender : Address}
    (h : (transferTokenIn sender token amount).run s = some (.ok x, t)) :
    Payment (paidIn sender token amount) s t := by
  unfold transferTokenIn at h
  unfold paidIn
  split at h
  · rename_i hnative
    have hrun := ok_of_mapError h
    rw [if_pos hnative]
    exact ⟨fun _ => flows_nil (Db.holdings_subBalance _ _ hrun), Db.paid_subBalance _ _ hrun⟩
  · rename_i hasset
    have hrun := ok_of_mapError h
    rw [if_neg hasset]
    exact ⟨fun hkeyed => Db.flows_of_transferAsset hkeyed hrun, Db.paid_transferAsset _ _ _ _ hrun⟩

theorem payment_of_transferTokenOut
    (h : (transferTokenOut recipient token amount).run s = some (.ok x, t)) :
    Payment (paidOut recipient token amount) s t := by
  unfold transferTokenOut at h
  unfold paidOut
  split at h
  · rename_i hnative
    have hrun := ok_of_mapError h
    rw [if_pos hnative]
    exact ⟨fun _ => flows_nil (Db.holdings_addBalance _ _ hrun), Db.paid_addBalance _ _ hrun⟩
  · rename_i hasset
    have hrun := ok_of_mapError h
    rw [if_neg hasset]
    exact ⟨fun hkeyed => Db.flows_of_transferAsset hkeyed hrun, Db.paid_transferAsset _ _ _ _ hrun⟩

theorem payment_of_mintLpTo (h : (mintLpTo token recipient amount).run s = some (.ok x, t)) :
    Payment [.credit (token, recipient) amount] s t := by
  refine ⟨fun hkeyed => Db.flows_of_credit hkeyed h, ?_⟩
  have paid : Moves Paid (mintLpTo token recipient amount) :=
    .bind .view fun _ => .bind (.unwrap _) fun _ => Db.paid_putOwnership _
  exact paid h

theorem payment_of_burnLpFrom {sender : Address}
    (h : (burnLpFrom token sender amount).run s = some (.ok x, t)) :
    Payment [.debit (token, sender) amount .zero] s t := by
  refine ⟨fun hkeyed => Db.flows_of_debit hkeyed h, ?_⟩
  have paid : Moves Paid (burnLpFrom token sender amount) :=
    .found fun _ _ => Db.paid_putOwnership _
  exact paid h

/-- A payment that is made only if there is something to pay. -/
def paidIfAny (recipient : Address) (token : H256) (amount : Amount) : List Flow :=
  if 0 < amount.raw then paidOut recipient token amount else []

theorem paidIfAny_of {P : List Flow → Prop} (nil : P [])
    (move : P (move token .zero recipient amount)) :
    P (paidIfAny recipient token amount) := by
  unfold paidIfAny
  split
  · exact paidOut_of nil move
  · exact nil

theorem payment_of_payOut (h : (payOut recipient token amount).run s = some (.ok x, t)) :
    Payment (paidIfAny recipient token amount) s t := by
  unfold payOut at h
  unfold paidIfAny
  split at h
  · rw [if_pos ‹_›]
    exact payment_of_transferTokenOut h
  · rw [if_neg ‹_›]
    obtain ⟨-, rfl⟩ := ok_of_pure h
    exact .none s

/-! ## Operations -/

variable {sender : Address} {poolId : H256}

theorem ok_of_loadPool {β : Type} {f : PoolState → DexM β} {b : β}
    (h : (loadPool poolId >>= f).run s = some (.ok b, t)) :
    ∃ pool, s.pool poolId = some pool ∧ (f pool).run s = some (.ok b, t) :=
  ok_of_okOr (o := s.pool poolId) h

theorem ok_of_requireNotPaused {β : Type} {f : Unit → DexM β} {b : β}
    (h : (requireNotPaused >>= f).run s = some (.ok b, t)) : (f ()).run s = some (.ok b, t) :=
  (ok_of_require (p := (!s.dexPaused) = true) h).2

/-- The liquidity tokens of a new pool. -/
def firstShares (amountA amountB : Amount) : U128 := sqrtU256 (U256.mulU128 amountA.raw amountB.raw)

/-- A new pool. -/
def opened [Crypto] (sender : Address) (tokenA tokenB : H256) (amountA amountB : Amount)
    (currentEpoch : Epoch) : PoolState where
  poolId := computePoolId tokenA tokenB
  tokenA
  tokenB
  reserveA := amountA
  reserveB := amountB
  lpTokenId := computeLpTokenId (computePoolId tokenA tokenB)
  lpTotalSupply := ⟨firstShares amountA amountB⟩
  feeBps := PoolState.defaultFeeBps
  protocolFeeBps := PoolState.defaultProtocolFeeBps
  protocolFeesA := .zero
  protocolFeesB := .zero
  creator := sender
  createdAtEpoch := currentEpoch

/-- Registering an asset adds it to the cache, where it was not before. -/
theorem registerLpAsset_ok {lpTokenId : H256} {totalSupply : Amount}
    (h : (registerLpAsset lpTokenId poolId totalSupply).run s = some (.ok x, t)) :
    lpTokenId ∉ s.assets ∧ t.holdings = s.holdings ∧ t.pools = s.pools ∧
      t.assets = s.assets.insert lpTokenId (lpAsset lpTokenId poolId totalSupply) := by
  obtain ⟨hknown, h⟩ := ok_of_require (p := (!s.hasAsset lpTokenId) = true) (ok_of_mapError h)
  cases h
  refine ⟨?_, rfl, rfl, rfl⟩
  intro hmem
  simp [hasAsset, contains_iff_mem.2 hmem] at hknown

theorem createPool_ok [Crypto] {tokenA tokenB : H256} {epoch : Epoch}
    (h : (createPool sender tokenA tokenB amountA amountB epoch).run s = some (.ok pool, t)) :
    pool = opened sender tokenA tokenB amountA amountB epoch ∧ tokenA ≠ tokenB ∧
      (amountA.raw ≠ 0 ∧ amountB.raw ≠ 0) ∧ pool.poolId ∉ s.pools ∧
      PoolState.minimumLiquidity < firstShares amountA amountB ∧ pool.lpTokenId ∉ s.assets ∧
      (s.holdings.Keyed → Flows (paidIn sender tokenA amountA ++ paidIn sender tokenB amountB ++
        [.credit (pool.lpTokenId,
        sender) ⟨firstShares amountA amountB - PoolState.minimumLiquidity⟩]) s t) ∧
      t.pools = s.pools.insert pool.poolId (Borsh.serialize pool) ∧
      t.assets = s.assets.insert pool.lpTokenId
        (lpAsset pool.lpTokenId pool.poolId pool.lpTotalSupply) := by
  obtain ⟨htokens, h⟩ := ok_of_require (ok_of_requireNotPaused h)
  obtain ⟨hamounts, h⟩ := ok_of_require h
  obtain ⟨hknown, h⟩ := ok_of_require (p := (!s.hasPool (computePoolId tokenA tokenB)) = true) h
  obtain ⟨_, _, hinA, h⟩ := run_bind_ok h
  obtain ⟨_, _, hinB, h⟩ := run_bind_ok h
  obtain ⟨hshares, h⟩ := ok_of_require h
  obtain ⟨_, s₃, hregister, h⟩ := run_bind_ok h
  obtain ⟨_, _, hmint, h⟩ := run_bind_ok h
  obtain ⟨_, hsave, rfl⟩ := ok_of_last h
  have hpaid := (payment_of_transferTokenIn hinA).append (payment_of_transferTokenIn hinB)
  obtain ⟨hnew, hholdings, hpools, hassets⟩ := registerLpAsset_ok hregister
  obtain ⟨hpools₂, hassets₂⟩ := Paid.same hpaid.paid
  have hsaved := (payment_of_mintLpTo hmint).save hsave
  rw [hassets₂] at hnew hassets
  refine ⟨rfl, htokens, hamounts, ?_, hshares, hnew, ?_, ?_, ?_⟩
  · intro hmem
    simp [hasPool, contains_iff_mem.2 hmem] at hknown
  · intro hkeyed
    have hfirst := hpaid.flows hkeyed
    have hfirst₃ : Flows (paidIn sender tokenA amountA ++ paidIn sender tokenB amountB) s s₃ := by
      unfold Flows
      rw [hholdings]
      exact hfirst
    exact hfirst₃.append (hsaved.flows (keyed_of_runAll hfirst₃ hkeyed))
  · rw [hsaved.pools, hpools, hpools₂]
  · rw [hsaved.assets, hassets]

/-- The pool after a deposit. -/
def deposited (pool : PoolState) (actual : U128 × U128) (lpMinted : U128) : PoolState :=
  { pool with
    reserveA := ⟨pool.reserveA.raw + actual.1⟩
    reserveB := ⟨pool.reserveB.raw + actual.2⟩
    lpTotalSupply := ⟨pool.lpTotalSupply.raw + lpMinted⟩ }

theorem addLiquidity_ok {minLp lp : Amount}
    (h : (addLiquidity sender poolId amountA amountB minLp).run s = some (.ok lp, t)) :
    ∃ pool actual, s.pool poolId = some pool ∧ (pool.reserveA.raw ≠ 0 ∧ pool.reserveB.raw ≠ 0) ∧
      optimalAmounts pool amountA amountB = .ok actual ∧ (actual.1 ≠ 0 ∧ actual.2 ≠ 0) ∧
      sharesFor pool actual.1 actual.2 = .ok lp.raw ∧
      Trade (paidIn sender pool.tokenA ⟨actual.1⟩ ++ paidIn sender pool.tokenB ⟨actual.2⟩ ++
        [.credit (pool.lpTokenId, sender) lp]) (deposited pool actual lp.raw) s t := by
  obtain ⟨pool, hpool, h⟩ := ok_of_loadPool (ok_of_requireNotPaused h)
  obtain ⟨hreserves, h⟩ := ok_of_require h
  obtain ⟨actual, hactual, h⟩ := ok_of_ofExcept h
  obtain ⟨hnonzero, h⟩ := ok_of_require h
  obtain ⟨_, hshares, h⟩ := ok_of_ofExcept h
  obtain ⟨-, h⟩ := ok_of_require h
  obtain ⟨_, _, hinA, h⟩ := run_bind_ok h
  obtain ⟨_, _, hinB, h⟩ := run_bind_ok h
  obtain ⟨_, _, hmint, h⟩ := run_bind_ok h
  obtain ⟨_, hsave, rfl⟩ := ok_of_last h
  have hpaid := ((payment_of_transferTokenIn hinA).append (payment_of_transferTokenIn hinB)).append
    (payment_of_mintLpTo hmint)
  exact ⟨pool, actual, hpool, hreserves, hactual, hnonzero, hshares, hpaid.save hsave⟩

/-- The pool after a withdrawal. -/
def withdrawn (pool : PoolState) (lpAmount amountA amountB : U128) : PoolState :=
  { pool with
    reserveA := ⟨pool.reserveA.raw - amountA⟩
    reserveB := ⟨pool.reserveB.raw - amountB⟩
    lpTotalSupply := ⟨pool.lpTotalSupply.raw - lpAmount⟩ }

theorem removeLiquidity_ok {lpAmount minA minB : Amount}
    (h : (removeLiquidity sender poolId lpAmount minA minB).run s = some (.ok amounts, t)) :
    ∃ pool, s.pool poolId = some pool ∧ lpAmount.raw ≠ 0 ∧
      (U256.mulU128 lpAmount.raw pool.reserveA.raw).divU128 pool.lpTotalSupply.raw =
        .ok amounts.1.raw ∧
      (U256.mulU128 lpAmount.raw pool.reserveB.raw).divU128 pool.lpTotalSupply.raw =
        .ok amounts.2.raw ∧
      Trade ([.debit (pool.lpTokenId, sender) lpAmount .zero] ++
        paidOut sender pool.tokenA amounts.1 ++ paidOut sender pool.tokenB amounts.2)
        (withdrawn pool lpAmount.raw amounts.1.raw amounts.2.raw) s t := by
  obtain ⟨pool, hpool, h⟩ := ok_of_loadPool (ok_of_requireNotPaused h)
  obtain ⟨hnonzero, h⟩ := ok_of_require h
  obtain ⟨_, hamountA, h⟩ := ok_of_ofExcept h
  obtain ⟨_, hamountB, h⟩ := ok_of_ofExcept h
  obtain ⟨-, h⟩ := ok_of_require h
  obtain ⟨-, h⟩ := ok_of_require h
  obtain ⟨_, _, hburn, h⟩ := run_bind_ok h
  obtain ⟨_, _, houtA, h⟩ := run_bind_ok h
  obtain ⟨_, _, houtB, h⟩ := run_bind_ok h
  obtain ⟨_, hsave, rfl⟩ := ok_of_last h
  have hpaid := ((payment_of_burnLpFrom hburn).append (payment_of_transferTokenOut houtA)).append
    (payment_of_transferTokenOut houtB)
  exact ⟨pool, hpool, hnonzero, hamountA, hamountB, hpaid.save hsave⟩

/-- The pool after a swap: what goes in is split into the net amount, the fee of the liquidity
providers and the fee of the protocol. -/
def swapped (pool : PoolState) (aToB : Prop) [Decidable aToB] (fees : U128 × U128 × U128)
    (amountOut : U128) : PoolState :=
  if aToB then
    { pool with
      reserveA := ⟨pool.reserveA.raw + (fees.1 + fees.2.1)⟩
      reserveB := ⟨pool.reserveB.raw - amountOut⟩
      protocolFeesA := ⟨pool.protocolFeesA.raw + fees.2.2⟩ }
  else
    { pool with
      reserveB := ⟨pool.reserveB.raw + (fees.1 + fees.2.1)⟩
      reserveA := ⟨pool.reserveA.raw - amountOut⟩
      protocolFeesB := ⟨pool.protocolFeesB.raw + fees.2.2⟩ }

theorem executeSwap_ok {tokenIn : H256} {amountIn minAmountOut out : Amount}
    (h : (executeSwap sender poolId tokenIn amountIn minAmountOut).run s = some (.ok out, t)) :
    ∃ pool fees, s.pool poolId = some pool ∧ (tokenIn = pool.tokenA ∨ tokenIn = pool.tokenB) ∧
      calculateFees amountIn.raw pool.feeBps pool.protocolFeeBps = .ok fees ∧
      getAmountOut fees.1 (if tokenIn = pool.tokenA then pool.reserveA.raw else pool.reserveB.raw)
        (if tokenIn = pool.tokenA then pool.reserveB.raw else pool.reserveA.raw) = .ok out.raw ∧
      Trade (paidIn sender tokenIn amountIn ++
        paidOut sender (if tokenIn = pool.tokenA then pool.tokenB else pool.tokenA) out)
        (swapped pool (tokenIn = pool.tokenA) fees out.raw) s t := by
  obtain ⟨pool, hpool, h⟩ := ok_of_loadPool (ok_of_requireNotPaused h)
  obtain ⟨-, h⟩ := ok_of_require h
  obtain ⟨htoken, h⟩ := ok_of_require h
  obtain ⟨fees, hfees, h⟩ := ok_of_ofExcept h
  obtain ⟨_, hout, h⟩ := ok_of_ofExcept h
  obtain ⟨-, h⟩ := ok_of_require h
  obtain ⟨-, h⟩ := ok_of_require h
  obtain ⟨_, _, hin, h⟩ := run_bind_ok h
  obtain ⟨_, _, hpay, h⟩ := run_bind_ok h
  obtain ⟨_, hsave, rfl⟩ := ok_of_last h
  have hpaid := (payment_of_transferTokenIn hin).append (payment_of_transferTokenOut hpay)
  have htrade := hpaid.save hsave
  exact ⟨pool, fees, hpool, htoken, hfees, hout, htrade⟩

theorem claimProtocolFees_ok {treasury : Address}
    (h : (claimProtocolFees sender poolId treasury).run s = some (.ok amounts, t)) :
    sender = treasury ∧ ∃ pool, s.pool poolId = some pool ∧
        Trade (paidIfAny treasury pool.tokenA pool.protocolFeesA ++
        paidIfAny treasury pool.tokenB pool.protocolFeesB)
          { pool with protocolFeesA := .zero, protocolFeesB := .zero } s t := by
  obtain ⟨hsender, h⟩ := ok_of_require h
  obtain ⟨pool, hpool, h⟩ := ok_of_loadPool h
  obtain ⟨-, h⟩ := ok_of_require h
  obtain ⟨_, _, hpayA, h⟩ := run_bind_ok h
  obtain ⟨_, _, hpayB, h⟩ := run_bind_ok h
  obtain ⟨_, hsave, -⟩ := ok_of_last h
  exact ⟨hsender, pool, hpool,
    ((payment_of_payOut hpayA).append (payment_of_payOut hpayB)).save hsave⟩

end Dex

end Vtt
