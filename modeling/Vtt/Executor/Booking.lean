import Vtt.Executor.Ledger

/-!
# What a transaction books

One lemma that says everything an operation does to the ledger of the assets when it succeeds: the
tokens that were planned have moved, and pools and assets have changed by the entry of its kind.
-/

namespace Vtt

open Lib

namespace Executor

open Confined StateDB Dex

theorem terms_unfreeze (asset : AssetRecord) : asset.unfreeze.terms = asset.terms := by
  unfold AssetRecord.unfreeze
  split
  · rfl
  · rfl

variable [Crypto]

/-- Pools and assets before and after an operation that succeeds. -/
inductive Entry (sender : Address) (s t : StateDB) : TransactionAction → Prop where
  | routine {action : TransactionAction} (hroutine : action.isRoutine = true)
      (same : SameLedger s t) : Entry sender s t action
  | created {name symbol metadataUri : String} {totalSupply : Amount} {decimals : UInt8}
      {assetClass jurisdiction legalEntity : String} (blockNumber : UInt64)
      (hnew : newAssetId sender name symbol ∉ s.assets) (pools : t.pools = s.pools)
      (assets : t.assets = s.assets.insert (newAssetId sender name symbol)
        (newAsset sender name symbol metadataUri totalSupply decimals assetClass jurisdiction
        legalEntity blockNumber)) :
      Entry sender s t
        (.createAssetClass name symbol metadataUri totalSupply decimals assetClass
        jurisdiction legalEntity)
  | transferred {assetId : H256} {recipient : Address} {amount : Amount} (asset : AssetRecord)
      (hasset : s.getAsset assetId = some asset)
      (kyc : (checkKyc asset sender recipient).run s = some (.ok (), s))
      (policy : (checkJurisdictionPolicy recipient).run s = some (.ok (), s))
      (holders : (checkMaxHolders assetId sender recipient amount).run s = some (.ok (), s))
      (pools : t.pools = s.pools) (assets : t.assets = s.assets) :
      Entry sender s t (.assetTransfer assetId recipient amount)
  | opened {tokenA tokenB : H256} {amountA amountB : Amount} (pool : PoolState) (epoch : Epoch)
      (hpool : pool = Dex.opened sender tokenA tokenB amountA amountB epoch)
      (tokens : tokenA ≠ tokenB)
      (amounts : amountA.raw ≠ 0 ∧ amountB.raw ≠ 0) (hnew : pool.poolId ∉ s.pools)
      (shares : PoolState.minimumLiquidity < firstShares amountA amountB)
        (hasset : pool.lpTokenId ∉ s.assets)
      (pools : t.pools = s.pools.insert pool.poolId (Borsh.serialize pool))
      (assets : t.assets = s.assets.insert pool.lpTokenId
        (lpAsset pool.lpTokenId pool.poolId pool.lpTotalSupply)) :
      Entry sender s t (.createPool tokenA tokenB amountA amountB)
  | deposited {poolId : H256} {amountA amountB minLp : Amount} (pool : PoolState)
      (actual : U128 × U128) (lp : Amount) (hpool : s.pool poolId = some pool)
      (reserves : pool.reserveA.raw ≠ 0 ∧ pool.reserveB.raw ≠ 0)
      (hactual : optimalAmounts pool amountA amountB = .ok actual) (amounts : actual.1 ≠ 0 ∧
        actual.2 ≠ 0)
      (shares : sharesFor pool actual.1 actual.2 = .ok lp.raw)
      (trade : Trade (paidIn sender pool.tokenA ⟨actual.1⟩ ++
        paidIn sender pool.tokenB ⟨actual.2⟩ ++ [.credit (pool.lpTokenId, sender) lp])
        (Dex.deposited pool actual lp.raw) s t) :
      Entry sender s t (.addLiquidity poolId amountA amountB minLp)
  | withdrawn {poolId : H256} {lpAmount minA minB : Amount} (pool : PoolState)
      (amounts : Amount × Amount) (hpool : s.pool poolId = some pool) (hlp : lpAmount.raw ≠ 0)
      (hA : (U256.mulU128 lpAmount.raw pool.reserveA.raw).divU128 pool.lpTotalSupply.raw =
        .ok amounts.1.raw)
      (hB : (U256.mulU128 lpAmount.raw pool.reserveB.raw).divU128 pool.lpTotalSupply.raw =
        .ok amounts.2.raw)
      (trade : Trade ([.debit (pool.lpTokenId, sender) lpAmount .zero] ++
        paidOut sender pool.tokenA amounts.1 ++ paidOut sender pool.tokenB amounts.2)
        (Dex.withdrawn pool lpAmount.raw amounts.1.raw amounts.2.raw) s t) :
      Entry sender s t (.removeLiquidity poolId lpAmount minA minB)
  | swapped {poolId tokenIn : H256} {amountIn minAmountOut : Amount} (pool : PoolState)
      (fees : U128 × U128 × U128) (out : Amount) (hpool : s.pool poolId = some pool)
      (token : tokenIn = pool.tokenA ∨ tokenIn = pool.tokenB)
      (hfees : calculateFees amountIn.raw pool.feeBps pool.protocolFeeBps = .ok fees)
      (hout : getAmountOut fees.1 (if tokenIn = pool.tokenA then pool.reserveA.raw
        else pool.reserveB.raw) (if tokenIn = pool.tokenA then pool.reserveB.raw
        else pool.reserveA.raw) = .ok out.raw)
      (trade : Trade (paidIn sender tokenIn amountIn ++
        paidOut sender (if tokenIn = pool.tokenA then pool.tokenB else pool.tokenA) out)
        (Dex.swapped pool (tokenIn = pool.tokenA) fees out.raw) s t) :
      Entry sender s t (.swap poolId tokenIn amountIn minAmountOut)
  | collected {poolId : H256} (pool : PoolState) (hpool : s.pool poolId = some pool)
      (trade : Trade (paidIfAny sender pool.tokenA pool.protocolFeesA ++
        paidIfAny sender pool.tokenB pool.protocolFeesB)
        { pool with protocolFeesA := .zero, protocolFeesB := .zero } s t) :
      Entry sender s t (.claimRevenue poolId)
  | reissued {action : TransactionAction} {assetId : H256} (asset changed : AssetRecord)
      (haction : action = .freezeAsset assetId ∨ action = .unfreezeAsset assetId)
      (hasset : s.getAssetOwned assetId = some asset) (terms : changed.terms = asset.terms)
      (state : t = s.putAsset assetId changed) : Entry sender s t action
  | redeemed {assetId : H256} (asset changed : AssetRecord) (holderTotal share : Amount)
      (hasset : s.getAsset assetId = some asset)
      (total : (s.getOwnership assetId sender).total = some holderTotal)
      (hchanged : Executor.redeemed asset holderTotal share = some changed)
        (pools : t.pools = s.pools)
      (assets : t.assets = s.assets.insert assetId changed) :
        Entry sender s t (.claimRedemption assetId)
  | bridgedIn {sourceTxHash : H256} {sourceChain : UInt32} {recipient : Address} {token : H256}
      {amount : Amount} (relayer : s.bridgeRelayer ≠ .zero) (known : token ≠ .zero →
      token ∈ s.assets)
      (pools : t.pools = s.pools)
      (assets : t.assets = s.assets) :
      Entry sender s t (.bridgeDeposit sourceTxHash sourceChain recipient token amount)
  | bridgedOut {token : H256} {amount : Amount} {destinationChain : UInt32}
      {destinationAddress : Address} (pools : t.pools = s.pools) (assets : t.assets = s.assets) :
      Entry sender s t (.bridgeWithdraw token amount destinationChain destinationAddress)

/-- An operation has moved the tokens that were planned and made its entry. -/
structure Booked (sender : Address) (action : TransactionAction) (s t : StateDB) : Prop where
  flows : s.holdings.Keyed → Flows (planned s sender action) s t
  entry : Entry sender s t action

section Operations

variable [Wasm] [Environment] {s t : StateDB} {sender : Address} {logs : List Log}
  {action : TransactionAction} {blockNumber blockTimestamp nonce gasLimit : UInt64}

/-- An operation that succeeds is booked. -/
theorem booked_of_executeAction
    (h : (executeAction sender action blockNumber blockTimestamp nonce gasLimit).run s =
      some (.ok logs, t)) :
    Booked sender action s t := by
  by_cases hroutine : action.isRoutine = true
  · have same := sameLedger_of_isRoutine hroutine h
    refine ⟨fun _ => ?_, .routine hroutine same⟩
    rw [planned_of_isRoutine hroutine]
    exact flows_nil same.holdings
  cases action with
  | createAssetClass =>
    obtain ⟨_, hcreate, -⟩ := ok_of_last h
    obtain ⟨hnew, hflows, hpaid⟩ := executeCreateAsset_ok hcreate
    obtain ⟨hpools, hassets⟩ := Paid.same hpaid
    exact ⟨hflows, .created blockNumber hnew hpools hassets⟩
  | assetTransfer =>
    obtain ⟨asset, hasset, hkyc, hpolicy, hholders, hmove⟩ := executeAssetTransfer_ok h
    obtain ⟨hpools, hassets⟩ := Paid.same (Db.paid_transferAsset _ _ _ _ hmove)
    exact ⟨fun hkeyed => Db.flows_of_transferAsset hkeyed hmove,
      .transferred asset hasset hkyc hpolicy hholders hpools hassets⟩
  | createPool =>
    obtain ⟨epoch, -, h⟩ := ok_of_still Dealing.dexEpoch h
    obtain ⟨pool, hcreate, -⟩ := ok_of_last h
    obtain ⟨rfl, htokens, hamounts, hnew, hshares, hasset, hflows, hpools, hassets⟩ :=
      createPool_ok (ok_of_mapError hcreate)
    exact ⟨hflows, .opened _ epoch rfl htokens hamounts hnew hshares hasset hpools hassets⟩
  | addLiquidity =>
    obtain ⟨lp, hadd, -⟩ := ok_of_last h
    obtain ⟨pool, actual, hpool, hreserves, hactual, hamounts, hshares, htrade⟩ :=
      addLiquidity_ok (ok_of_mapError hadd)
    refine ⟨?_, .deposited pool actual lp hpool hreserves hactual hamounts hshares htrade⟩
    simpa [planned, plannedDeposit, hpool, hactual, hshares, Except.toOption] using htrade.flows
  | removeLiquidity =>
    obtain ⟨amounts, hremove, -⟩ := ok_of_last h
    obtain ⟨pool, hpool, hlp, hA, hB, htrade⟩ := removeLiquidity_ok (ok_of_mapError hremove)
    refine ⟨?_, .withdrawn pool amounts hpool hlp hA hB htrade⟩
    simpa [planned, plannedWithdrawal, hpool, hA, hB, Except.toOption] using htrade.flows
  | swap =>
    obtain ⟨out, hswap, -⟩ := ok_of_last h
    obtain ⟨pool, fees, hpool, htoken, hfees, hout, htrade⟩ := executeSwap_ok (ok_of_mapError hswap)
    refine ⟨?_, .swapped pool fees out hpool htoken hfees hout htrade⟩
    simpa [planned, plannedSwap, hpool, hfees, hout, Except.toOption] using htrade.flows
  | claimRevenue =>
    obtain ⟨_, -, h⟩ := ok_of_still (Routine.cached _) h
    obtain ⟨_, hclaim, -⟩ := ok_of_last h
    obtain ⟨rfl, pool, hpool, htrade⟩ := claimProtocolFees_ok (ok_of_mapError hclaim)
    refine ⟨?_, .collected pool hpool htrade⟩
    simpa [planned, plannedFees, hpool] using htrade.flows
  | freezeAsset =>
    obtain ⟨asset, hasset, rfl⟩ := changeByIssuer_ok h
    exact ⟨fun _ => flows_nil rfl, .reissued asset asset.freeze (.inl rfl) hasset rfl rfl⟩
  | unfreezeAsset =>
    obtain ⟨asset, hasset, rfl⟩ := changeByIssuer_ok h
    exact ⟨fun _ => flows_nil rfl,
      .reissued asset asset.unfreeze (.inr rfl) hasset (terms_unfreeze asset) rfl⟩
  | claimRedemption =>
    obtain ⟨asset, changed, holderTotal, share, hasset, htotal, hchanged, hflows,
        hpools, hassets⟩ :=
      executeClaimRedemption_ok h
    exact ⟨hflows, .redeemed asset changed holderTotal share hasset htotal hchanged hpools hassets⟩
  | bridgeDeposit =>
    obtain ⟨hrelayer, hknown, hflows, hpools, hassets⟩ := executeBridgeDeposit_ok h
    exact ⟨hflows, .bridgedIn hrelayer hknown hpools hassets⟩
  | bridgeWithdraw =>
    obtain ⟨hflows, hpools, hassets⟩ := executeBridgeWithdraw_ok h
    exact ⟨hflows, .bridgedOut hpools hassets⟩
  | _ => exact absurd rfl hroutine

variable {ctx : BlockContext} {tx : SignedTransaction} {result : ExecutionResult}

/-- The operation of a transaction that succeeds is booked, in the state in which the sender was
charged. -/
theorem Outcome.booked (h : Outcome ctx tx s result t) (hsuccess : result.receipt.success = true) :
    Booked tx.sender tx.payload.action (s.charge tx.sender (gasFee tx ctx.gasConfig)) t := by
  cases h with
  | inert | excessive | short | failed => cases hsuccess
  | done _ hrun => exact booked_of_executeAction hrun

/-- A transaction that succeeds moves what was planned, and one that fails moves nothing. -/
theorem Outcome.flows (h : Outcome ctx tx s result t) (hkeyed : s.holdings.Keyed) :
    Flows (if result.receipt.success then planned s tx.sender tx.payload.action else []) s t := by
  cases h with
  | inert | excessive => exact flows_nil rfl
  | short | failed => exact flows_nil (sameLedger_charge ..).holdings
  | done _ hrun =>
    have hcharged := sameLedger_charge s tx.sender (gasFee tx ctx.gasConfig)
    have hflows := (booked_of_executeAction hrun).flows (hcharged.holdings ▸ hkeyed)
    rw [planned_congr hcharged] at hflows
    unfold Flows at hflows
    rw [hcharged.holdings] at hflows
    exact hflows

end Operations

end Executor

end Vtt
