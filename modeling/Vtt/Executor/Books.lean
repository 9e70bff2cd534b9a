import Vtt.Executor.Booking

/-!
# The books of the chain

What holds of holdings, pools and assets whatever transactions were executed: records and pools are
filed under their own keys, every pool has a registered liquidity token of its own, and nobody holds
an asset that is not registered.
-/

namespace Vtt

open Lib Std Vtt.Flow ExtTreeMap

namespace Executor

open Confined StateDB Dex

variable {token assetId : H256} {amount : Amount} {recipient : Address}

/-- Holdings, pools and assets are in order. -/
structure Books (s : StateDB) : Prop where
  keyed : s.holdings.Keyed
  filed : ∀ poolId pool, s.pool poolId = some pool → pool.poolId = poolId
  registered : ∀ poolId pool, s.pool poolId = some pool → pool.lpTokenId ∈ s.assets
  distinct : ∀ poolId poolId' pool pool', s.pool poolId = some pool → s.pool poolId' = some pool' →
    pool.lpTokenId = pool'.lpTokenId → poolId = poolId'
  unheld : ∀ assetId, assetId ∉ s.assets → s.holdings.supply assetId = 0

/-- What an operation does to the pools: nothing, a new pool, or a change of one. -/
inductive PoolChange (s t : StateDB) : Prop where
  | same (pools : t.pools = s.pools)
  | opened (pool : PoolState) (hnew : pool.poolId ∉ s.pools) (hasset : pool.lpTokenId ∉ s.assets)
      (known : pool.lpTokenId ∈ t.assets)
      (pools : t.pools = s.pools.insert pool.poolId (Borsh.serialize pool))
  | changed {poolId : H256} (pool pool' : PoolState) (hpool : s.pool poolId = some pool)
      (hid : pool'.poolId = pool.poolId) (hlp : pool'.lpTokenId = pool.lpTokenId)
      (pools : t.pools = s.pools.insert pool'.poolId (Borsh.serialize pool'))

theorem swapped_same (pool : PoolState) (aToB : Prop) [Decidable aToB] (fees : U128 × U128 × U128)
    (out : U128) :
    (swapped pool aToB fees out).poolId = pool.poolId ∧
      (swapped pool aToB fees out).lpTokenId = pool.lpTokenId ∧
      (swapped pool aToB fees out).lpTotalSupply = pool.lpTotalSupply := by
  unfold swapped
  split
  · exact ⟨rfl, rfl, rfl⟩
  · exact ⟨rfl, rfl, rfl⟩

section Entries

variable {s t : StateDB} {sender : Address} {action : TransactionAction}

theorem Entry.poolChange [Crypto] (h : Entry sender s t action) : PoolChange s t := by
  cases h with
  | routine _ same => exact .same same.pools
  | created _ _ pools => exact .same pools
  | transferred _ _ _ _ _ pools => exact .same pools
  | opened pool _ _ _ _ hnew _ hasset pools assets =>
    refine .opened pool hnew hasset ?_ pools
    rw [assets]
    exact mem_insert_self
  | deposited pool actual lp hpool _ _ _ _ trade =>
    exact .changed pool (Dex.deposited pool actual lp.raw) hpool rfl rfl trade.pools
  | @withdrawn _ lpAmount _ _ pool amounts hpool _ _ _ trade =>
    exact .changed pool (Dex.withdrawn pool lpAmount.raw amounts.1.raw amounts.2.raw) hpool
      rfl rfl trade.pools
  | @swapped _ tokenIn _ _ pool fees out hpool _ _ _ trade =>
    obtain ⟨hid, hlp, -⟩ := swapped_same pool (tokenIn = pool.tokenA) fees out.raw
    exact .changed pool _ hpool hid hlp trade.pools
  | collected pool hpool trade =>
    exact .changed pool { pool with protocolFeesA := .zero, protocolFeesB := .zero } hpool
      rfl rfl trade.pools
  | reissued _ _ _ _ _ state => exact .same (by rw [state]; rfl)
  | redeemed _ _ _ _ _ _ _ pools => exact .same pools
  | bridgedIn _ _ pools => exact .same pools
  | bridgedOut pools => exact .same pools

theorem mem_assets_of_terms (h : t.terms = s.terms) (hmem : assetId ∈ s.assets) :
    assetId ∈ t.assets := by
  rw [mem_iff_isSome_getElem?] at hmem ⊢
  have terms := congrFun h assetId
  unfold StateDB.terms at terms
  rw [← Option.isSome_map (f := AssetRecord.terms), terms, Option.isSome_map]
  exact hmem

/-- Registered assets stay registered. -/
theorem Entry.mem_assets [Crypto] (h : Entry sender s t action) (hmem : assetId ∈ s.assets) :
    assetId ∈ t.assets := by
  have insert {id : H256} {asset : AssetRecord} (assets : t.assets = s.assets.insert id asset) :
      assetId ∈ t.assets := by
    rw [assets]
    exact mem_insert.2 (.inr hmem)
  cases h with
  | routine _ same => exact mem_assets_of_terms same.terms hmem
  | created _ _ _ assets => exact insert assets
  | transferred _ _ _ _ _ _ assets => exact assets ▸ hmem
  | opened _ _ _ _ _ _ _ _ _ assets => exact insert assets
  | deposited _ _ _ _ _ _ _ _ trade => exact trade.assets ▸ hmem
  | withdrawn _ _ _ _ _ _ trade => exact trade.assets ▸ hmem
  | swapped _ _ _ _ _ _ _ trade => exact trade.assets ▸ hmem
  | collected _ _ trade => exact trade.assets ▸ hmem
  | reissued _ _ _ _ _ state => exact insert (by rw [state]; rfl)
  | redeemed _ _ _ _ _ _ _ _ assets => exact insert assets
  | bridgedIn _ _ _ assets => exact assets ▸ hmem
  | bridgedOut _ assets => exact assets ▸ hmem

/-- Each pool was there before, with its liquidity token, or it is the new one, the token of which
is new as well. -/
theorem PoolChange.origin (h : PoolChange s t) (hs : Books s) :
    ∃ new, ∀ poolId pool, t.pool poolId = some pool →
    pool.poolId = poolId ∧
      ((∃ pool₀, s.pool poolId = some pool₀ ∧ pool.lpTokenId = pool₀.lpTokenId) ∨
      poolId = new ∧ pool.lpTokenId ∉ s.assets ∧ pool.lpTokenId ∈ t.assets) := by
  cases h with
  | same pools =>
    refine ⟨.zero, fun poolId pool h => ?_⟩
    rw [StateDB.pool, pools] at h
    exact ⟨hs.filed _ _ h, .inl ⟨pool, h, rfl⟩⟩
  | opened new _ hasset known pools =>
    refine ⟨new.poolId, fun poolId pool h => ?_⟩
    rw [pool_of_insert pools] at h
    split at h
    · rename_i heq
      cases h
      exact ⟨heq.symm, .inr ⟨heq, hasset, known⟩⟩
    · exact ⟨hs.filed _ _ h, .inl ⟨pool, h, rfl⟩⟩
  | changed old new hpool hid hlp pools =>
    refine ⟨.zero, fun poolId pool h => ?_⟩
    rw [pool_of_insert pools] at h
    split at h
    · rename_i heq
      cases h
      rw [← hs.filed _ _ hpool, ← hid, ← heq] at hpool
      exact ⟨heq.symm, .inl ⟨old, hpool, hlp⟩⟩
    · exact ⟨hs.filed _ _ h, .inl ⟨pool, h, rfl⟩⟩

/-- Pools stay filed, with registered liquidity tokens of their own. -/
theorem Books.of_poolChange (hs : Books s) (hchange : PoolChange s t)
    (hmem : ∀ assetId, assetId ∈ s.assets → assetId ∈ t.assets) (hkeyed : t.holdings.Keyed)
    (hunheld : ∀ assetId, assetId ∉ t.assets → t.holdings.supply assetId = 0) : Books t := by
  obtain ⟨new, origin⟩ := hchange.origin hs
  refine ⟨hkeyed, fun _ _ h => (origin _ _ h).1, ?_, ?_, hunheld⟩
  · intro _ _ h
    obtain ⟨_, h₀, hlp⟩ | ⟨-, -, known⟩ := (origin _ _ h).2
    · exact hlp ▸ hmem _ (hs.registered _ _ h₀)
    · exact known
  · intro _ _ _ _ h h' heq
    -- the liquidity token of an older pool was registered before
    obtain ⟨_, h₀, hlp⟩ | ⟨hnew, hasset, -⟩ := (origin _ _ h).2 <;>
      obtain ⟨_, h₀', hlp'⟩ | ⟨hnew', hasset', -⟩ := (origin _ _ h').2
    · exact hs.distinct _ _ _ _ h₀ h₀' (hlp.symm.trans (heq.trans hlp'))
    · exact absurd (hs.registered _ _ h₀) (hlp ▸ heq ▸ hasset')
    · exact absurd (hs.registered _ _ h₀') (hlp' ▸ heq ▸ hasset)
    · exact hnew.trans hnew'.symm

/-! ## Supply -/

theorem balanced_paidIn (assetId : H256) {payer : Address} : Flow.Balanced assetId
    (paidIn payer token amount) :=
  paidIn_of (balanced_nil _) (balanced_move _)

theorem balanced_paidOut (assetId : H256) : Flow.Balanced assetId
    (paidOut recipient token amount) :=
  paidOut_of (balanced_nil _) (balanced_move _)

theorem balanced_paidIfAny (assetId : H256) : Flow.Balanced assetId
    (paidIfAny recipient token amount) :=
  paidIfAny_of (balanced_nil _) (balanced_move _)

/-- What an operation that succeeds adds to the supply of an asset, if anything, and whether it may
burn some. -/
inductive Issue (s t : StateDB) (assetId : H256) : Prop where
  | same (supply : t.holdings.supply assetId = s.holdings.supply assetId)
  | minted (amount : Amount) (known : assetId ∈ t.assets)
      (supply : t.holdings.supply assetId = s.holdings.supply assetId + amount.raw.toNat)
  | burnt (supply : t.holdings.supply assetId ≤ s.holdings.supply assetId)

/-- Tokens are added to registered assets only. -/
theorem Booked.issue [Crypto] (h : Booked sender action s t) (hs : Books s) (assetId : H256) :
    Issue s t assetId := by
  obtain ⟨hflows, hentry⟩ := h
  replace hflows := hflows hs.keyed
  have hmem : ∀ id, id ∈ s.assets → id ∈ t.assets := fun _ => hentry.mem_assets
  -- flows that leave the supply alone, and then a credit
  have credited (flows : List Flow) {key : H256 × Address} {amount : Amount}
      (hknown : key.1 ∈ t.assets) (hb : Flow.Balanced assetId flows)
      (hf : Flows (flows ++ [.credit key amount]) s t) :
      Issue s t assetId := by
    have supply := supply_of_credit hb hf
    by_cases hkey : key.1 = assetId
    · rw [if_pos hkey] at supply
      exact .minted amount (hkey ▸ hknown) supply
    · rw [if_neg hkey] at supply
      exact .same supply
  cases hentry with
  | routine _ same => exact .same (congrArg (·.supply assetId) same.holdings)
  | created _ _ _ assets =>
    refine credited [] ?_ (balanced_nil _) hflows
    rw [assets]
    exact mem_insert_self
  | transferred => exact .same (supply_of_balanced (balanced_move _) hflows)
  | opened _ _ hpool _ _ _ _ _ _ assets =>
    subst hpool
    refine credited _ ?_ ((balanced_paidIn _).append (balanced_paidIn _)) hflows
    rw [assets]
    exact mem_insert_self
  | deposited _ _ _ hpool _ _ _ _ trade =>
    exact credited _ (hmem _ (hs.registered _ _ hpool))
      ((balanced_paidIn _).append (balanced_paidIn _)) (trade.flows hs.keyed)
  | withdrawn _ _ _ _ _ _ trade =>
    have supply :=
      supply_of_debit ((balanced_paidOut assetId).append (balanced_paidOut _))
        (trade.flows hs.keyed)
    exact .burnt (by omega)
  | swapped _ _ _ _ _ _ _ trade =>
    exact .same (supply_of_balanced ((balanced_paidIn _).append (balanced_paidOut _))
      (trade.flows hs.keyed))
  | collected _ _ trade =>
    exact .same (supply_of_balanced ((balanced_paidIfAny _).append (balanced_paidIfAny _))
      (trade.flows hs.keyed))
  | reissued _ _ _ _ _ state =>
    rw [state]
    exact .same rfl
  | redeemed =>
    have supply := supply_of_debit (balanced_nil assetId) hflows
    exact .burnt (by omega)
  | @bridgedIn _ _ _ token _ _ known _ _ =>
    dsimp only [planned] at hflows
    by_cases htoken : token = .zero
    · rw [if_pos htoken] at hflows
      exact .same (supply_of_balanced (balanced_nil _) hflows)
    · rw [if_neg htoken] at hflows
      exact credited [] (hmem _ (known htoken)) (balanced_nil _) hflows
  | @bridgedOut _ _ _ _ _ _ =>
    refine .same (supply_of_balanced ?_ hflows)
    dsimp only [planned]
    split
    · exact balanced_nil _
    · exact balanced_move _

/-- The books stay in order. -/
theorem Booked.books [Crypto] (h : Booked sender action s t) (hs : Books s) : Books t := by
  refine hs.of_poolChange h.entry.poolChange (fun _ => h.entry.mem_assets)
    (keyed_of_runAll (h.flows hs.keyed) hs.keyed) fun assetId hnew => ?_
  have before := hs.unheld assetId fun hmem => hnew (h.entry.mem_assets hmem)
  cases h.issue hs assetId with
  | same supply => exact supply.trans before
  | minted _ known => exact absurd known hnew
  | burnt supply => exact Nat.eq_zero_of_le_zero (before ▸ supply)

end Entries

end Executor

end Vtt
