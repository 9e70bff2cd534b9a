import Vtt.Dex.Effects
import Vtt.Executor.Dealing
import Vtt.Executor.Outcome

/-!
# What operations do to holdings

The tokens that an operation moves are known before it is executed: they follow from the operation,
its sender and the state. `planned` lists them, and an operation that succeeds has moved just these.
-/

namespace Vtt

open Lib Storage Option

namespace Dex

/-- The flows of a deposit into a pool. -/
def plannedDeposit (db : StateDB) (sender : Address) (poolId : H256) (amountA amountB : Amount) :
    Option (List Flow) := do
  let pool ← db.pool poolId
  let actual ← (optimalAmounts pool amountA amountB).toOption
  let lp ← (sharesFor pool actual.1 actual.2).toOption
  pure (paidIn sender pool.tokenA ⟨actual.1⟩ ++ paidIn sender pool.tokenB ⟨actual.2⟩ ++
    [.credit (pool.lpTokenId, sender) ⟨lp⟩])

/-- The flows of a withdrawal from a pool. -/
def plannedWithdrawal (db : StateDB) (sender : Address) (poolId : H256) (lpAmount : Amount) :
    Option (List Flow) := do
  let pool ← db.pool poolId
  let amountA ←
    ((U256.mulU128 lpAmount.raw pool.reserveA.raw).divU128 pool.lpTotalSupply.raw).toOption
  let amountB ←
    ((U256.mulU128 lpAmount.raw pool.reserveB.raw).divU128 pool.lpTotalSupply.raw).toOption
  pure ([.debit (pool.lpTokenId, sender) lpAmount .zero] ++ paidOut sender pool.tokenA ⟨amountA⟩ ++
    paidOut sender pool.tokenB ⟨amountB⟩)

/-- The flows of a swap. -/
def plannedSwap (db : StateDB) (sender : Address) (poolId tokenIn : H256) (amountIn : Amount) :
    Option (List Flow) := do
  let pool ← db.pool poolId
  let fees ← (calculateFees amountIn.raw pool.feeBps pool.protocolFeeBps).toOption
  let out ← (getAmountOut fees.1 (if tokenIn = pool.tokenA then pool.reserveA.raw
    else pool.reserveB.raw)
    (if tokenIn = pool.tokenA then pool.reserveB.raw else pool.reserveA.raw)).toOption
  pure (paidIn sender tokenIn amountIn ++
    paidOut sender (if tokenIn = pool.tokenA then pool.tokenB else pool.tokenA) ⟨out⟩)

/-- The flows of a payment of protocol fees. -/
def plannedFees (db : StateDB) (sender : Address) (poolId : H256) : Option (List Flow) := do
  let pool ← db.pool poolId
  pure (paidIfAny sender pool.tokenA pool.protocolFeesA ++
    paidIfAny sender pool.tokenB pool.protocolFeesB)

end Dex

namespace Executor

open Confined StateDB Dex

variable {recipient : Address}

/-! ## Operations without flows -/

section Quiet

variable {ε : Type}

theorem sameLedger_putAccount (s : StateDB) (address : Address) (state : AccountState) :
    SameLedger s (s.putAccount address state) := by
  refine ⟨rfl, rfl, rfl, fun key => ?_⟩
  unfold StateDB.putAccount
  dsimp only
  split
  · exact (read_write_of_ne _ _ (.inl (by decide))).trans (read_write_of_ne _ _ (.inl (by decide)))
  · exact read_write_of_ne _ _ (.inl (by decide))

theorem ledgerRoutine : Routine SameLedger fun _ => True where
  aside _ _ h := h.toSameLedger
  addBalance _ _ := .found fun _ _ => .update fun s => sameLedger_putAccount s ..
  subBalance _ _ _ := .found fun _ _ => .update fun s => sameLedger_putAccount s ..

theorem restakes_ledger : Routine.Restakes SameLedger := fun s _ _ => sameLedger_putAccount s ..

/-- Charging a sender leaves the ledger alone. -/
theorem sameLedger_charge (s : StateDB) (sender : Address) (fee : Amount) :
    SameLedger s (s.charge sender fee) :=
  charge_induction _ _ _ (Std.Refl.refl s) fun _ _ h =>
    IsTrans.trans _ _ _ h (sameLedger_putAccount ..)

end Quiet

/-! ## Planned flows -/

/-- Taking everything leaves an empty record. -/
theorem change_all (k : H256 × Address) (r : OwnershipRecord) :
    (Flow.debit k r.available r.locked).change r =
      some { r with available := .zero, locked := .zero } := by
  have sub : ∀ a : Amount, a.checkedSub a = some .zero := by
    intro _
    unfold Amount.checkedSub U128.checkedSub
    rw [if_pos (le_refl _), BitVec.sub_self]
    rfl
  have first : r.debit r.available = some { r with available := .zero } := by
    rw [OwnershipRecord.debit, sub]
    rfl
  refine bind_eq_some_iff.2 ⟨_, first, ?_⟩
  rw [sub]
  rfl

variable [Crypto]

/-- The id of a new asset. -/
def newAssetId (sender : Address) (name symbol : String) : H256 :=
  blake3Hash (Borsh.serialize (sender, name, symbol))

/-- The flows of an operation. -/
def planned (db : StateDB) (sender : Address) : TransactionAction → List Flow
  | .assetTransfer assetId recipient amount => Flow.move assetId sender recipient amount
  | .createAssetClass name symbol _ totalSupply _ _ _ _ =>
    [.credit (newAssetId sender name symbol, sender) totalSupply]
  | .createPool tokenA tokenB amountA amountB =>
    paidIn sender tokenA amountA ++ paidIn sender tokenB amountB ++
      [.credit (computeLpTokenId (computePoolId tokenA tokenB), sender)
        ⟨firstShares amountA amountB - PoolState.minimumLiquidity⟩]
  | .addLiquidity poolId amountA amountB _ =>
    (plannedDeposit db sender poolId amountA amountB).getD []
  | .removeLiquidity poolId lpAmount _ _ => (plannedWithdrawal db sender poolId lpAmount).getD []
  | .swap poolId tokenIn amountIn _ => (plannedSwap db sender poolId tokenIn amountIn).getD []
  | .claimRevenue poolId => (plannedFees db sender poolId).getD []
  | .claimRedemption assetId =>
    [.debit (assetId, sender) (db.getOwnership assetId sender).available
      (db.getOwnership assetId sender).locked]
  | .bridgeDeposit _ _ recipient token amount =>
    if token = .zero then [] else [.credit (token, recipient) amount]
  | .bridgeWithdraw token amount _ _ =>
    if token = .zero then [] else Flow.move token sender .zero amount
  | _ => []

/-! ## Operations with flows -/

section Operations

variable {s t : StateDB} {sender : Address} {logs : List Log}
variable {amount : Amount} {assetId : H256} {x : Unit}

/-- A transfer that succeeds has passed all its checks. -/
theorem executeAssetTransfer_ok
    (h : (executeAssetTransfer sender assetId recipient amount).run s = some (.ok logs, t)) :
    ∃ asset, s.getAsset assetId = some asset ∧
      (checkKyc asset sender recipient).run s = some (.ok (), s) ∧
      (checkJurisdictionPolicy recipient).run s = some (.ok (), s) ∧
      (checkMaxHolders assetId sender recipient amount).run s = some (.ok (), s) ∧
      (Db.transferAsset assetId sender recipient amount).run s = some (.ok (), t) := by
  obtain ⟨asset, hasset, h⟩ := ok_of_okOr (o := s.getAsset assetId) h
  obtain ⟨_, -, h⟩ := ok_of_still Dealing.checkTransferMode h
  obtain ⟨_, hkyc, h⟩ := ok_of_still Dealing.checkKyc h
  obtain ⟨_, -, h⟩ := ok_of_still Dealing.checkJurisdictionPolicy h
  obtain ⟨_, hpolicy, h⟩ := ok_of_still Dealing.checkJurisdictionPolicy h
  obtain ⟨_, hholders, h⟩ := ok_of_still Dealing.checkMaxHolders h
  obtain ⟨_, hmove, -⟩ := ok_of_last h
  exact ⟨asset, hasset, hkyc, hpolicy, hholders, ok_of_mapError hmove⟩

/-- The asset that a creation registers. -/
def newAsset (sender : Address) (name symbol metadataUri : String) (totalSupply : Amount)
    (decimals : UInt8) (assetClass jurisdiction legalEntity : String) (blockNumber : UInt64) :
    AssetRecord where
  id := newAssetId sender name symbol
  name
  symbol
  assetClass := parseAssetClass assetClass
  originChain := .relay
  issuer := sender
  totalSupply
  decimals
  status := .active
  compliancePolicy := none
  valuationOracle := none
  documents := []
  metadataUri
  jurisdiction
  legalEntity
  transferMode := .peerToPeer
  registrar := none
  redemptionPool := .zero
  requiresKyc := isRegulated (parseAssetClass assetClass)
  createdAt := blockNumber

omit [Crypto] in
/-- Registering an asset puts it into the cache, where it was not before, and into the store. -/
theorem registerAsset_ok {asset : AssetRecord}
    (h : (Db.registerAsset asset).run s = some (.ok x, t)) :
    asset.id ∉ s.assets ∧ t = s.putAsset asset.id asset := by
  obtain ⟨hknown, h⟩ := ok_of_require (p := (!s.hasAsset asset.id) = true) h
  cases h
  refine ⟨?_, rfl⟩
  intro hmem
  simp [hasAsset, Std.ExtTreeMap.contains_iff_mem.2 hmem] at hknown

theorem executeCreateAsset_ok {name symbol metadataUri : String} {totalSupply : Amount}
    {decimals : UInt8} {assetClass jurisdiction legalEntity : String} {blockNumber : UInt64}
    (h : (executeCreateAsset sender name symbol metadataUri totalSupply decimals
      assetClass jurisdiction legalEntity blockNumber).run s = some (.ok x, t)) :
    newAssetId sender name symbol ∉ s.assets ∧
      (s.holdings.Keyed → Flows [.credit (newAssetId sender name symbol, sender) totalSupply] s t) ∧
      Paid (s.putAsset (newAssetId sender name symbol)
        (newAsset sender name symbol metadataUri totalSupply decimals assetClass jurisdiction
          legalEntity blockNumber)) t := by
  obtain ⟨-, h⟩ := ok_of_require h
  obtain ⟨-, h⟩ := ok_of_require h
  obtain ⟨_, _, hregister, h⟩ := run_bind_ok h
  obtain ⟨hnew, rfl⟩ := registerAsset_ok (ok_of_mapError hregister)
  refine ⟨hnew, fun hkeyed => ?_, ?_⟩
  · have hflows := Db.flows_of_credit (s := s.putAsset _ _) hkeyed h
    exact hflows
  obtain ⟨_, -, h⟩ := ok_of_unwrap
    (o := (s.getOwnership (newAssetId sender name symbol) sender).credit totalSupply) h
  exact Db.paid_putOwnership _ h

omit [Crypto] in
theorem changeAsset_ok {missing : ExecutionError} {f : AssetRecord → Option AssetRecord}
    (h : (Db.changeAsset assetId missing fun asset => Confined.unwrap (f asset)).run s =
      some (.ok x, t)) :
    ∃ asset changed, s.getAsset assetId = some asset ∧ f asset = some changed ∧
      t = (s.touchAsset assetId).setCachedAsset assetId changed := by
  obtain ⟨asset, hasset, h⟩ := ok_of_okOr (o := s.getAsset assetId) h
  obtain ⟨changed, hchanged, h⟩ := ok_of_unwrap (o := f asset) (s := s.touchAsset assetId) h
  cases h
  exact ⟨asset, changed, hasset, hchanged, rfl⟩

/-- A redemption burns all that the sender holds. -/
theorem executeClaimRedemption_ok
    (h : (executeClaimRedemption sender assetId).run s = some (.ok logs, t)) :
    ∃ asset changed holderTotal share, s.getAsset assetId = some asset ∧
      (s.getOwnership assetId sender).total = some holderTotal ∧
      redeemed asset holderTotal share = some changed ∧
      (s.holdings.Keyed → Flows [.debit (assetId, sender) (s.getOwnership assetId sender).available
        (s.getOwnership assetId sender).locked] s t) ∧
      t.pools = s.pools ∧ t.assets = s.assets.insert assetId changed := by
  obtain ⟨asset, hasset, h⟩ := ok_of_okOr (o := s.getAsset assetId) h
  obtain ⟨-, h⟩ := ok_of_require h
  obtain ⟨-, h⟩ := ok_of_require h
  obtain ⟨-, h⟩ := ok_of_require h
  replace h := ok_of_view h
  obtain ⟨holderTotal, htotal, h⟩ := ok_of_unwrap h
  obtain ⟨-, h⟩ := ok_of_require h
  obtain ⟨_, -, h⟩ := ok_of_okOr h
  obtain ⟨_, s₁, hput, h⟩ := run_bind_ok h
  obtain ⟨_, s₂, hcredit, h⟩ := run_bind_ok h
  obtain ⟨_, hchange, -⟩ := ok_of_last h
  obtain ⟨asset', changed, hasset', hchanged, rfl⟩ := changeAsset_ok hchange
  have hcredit := ok_of_mapError hcredit
  have hpaid : Paid s s₂ :=
    IsTrans.trans _ _ _ (Db.paid_putOwnership _ hput) (Db.paid_addBalance _ _ hcredit)
  obtain ⟨hpools, hassets⟩ := Paid.same hpaid
  obtain rfl : asset = asset' := by
    rw [getAsset, hassets] at hasset'
    exact some.inj (hasset.symm.trans hasset')
  refine ⟨asset, changed, holderTotal, _, hasset, htotal, hchanged, fun hkeyed => ?_, hpools, ?_⟩
  · have hflow :=
      Db.flow_of_putOwnership hkeyed (change_all (assetId, sender) (s.getOwnership assetId sender))
        hput
    have hsame : s₂.holdings = s₁.holdings := Db.holdings_addBalance _ _ hcredit
    show Flow.runAll s.holdings _ = some s₂.holdings
    rw [hsame]
    exact bind_eq_some_iff.2 ⟨_, hflow, rfl⟩
  · show s₂.assets.insert assetId changed = _
    rw [hassets]

theorem executeBridgeDeposit_ok {sourceTxHash : H256} {sourceChain : UInt32} {token : H256}
    (h : (executeBridgeDeposit sender sourceTxHash sourceChain recipient token amount).run s =
      some (.ok logs, t)) :
    s.bridgeRelayer ≠ .zero ∧ (token ≠ .zero → token ∈ s.assets) ∧
      (s.holdings.Keyed →
        Flows (if token = .zero then [] else [.credit (token, recipient) amount]) s t) ∧
      t.pools = s.pools ∧ t.assets = s.assets := by
  obtain ⟨-, h⟩ := ok_of_require (p := (!s.isBridgePaused) = true) h
  obtain ⟨hrelayer, h⟩ := ok_of_require (p := s.bridgeRelayer ≠ .zero) h
  obtain ⟨-, h⟩ := ok_of_require (p := sender = s.bridgeRelayer) h
  obtain ⟨-, h⟩ :=
    ok_of_require (p := (!s.bridgeDepositProcessed sourceChain sourceTxHash) = true) h
  obtain ⟨-, h⟩ := ok_of_require h
  obtain ⟨_, s₁, hcredit, h⟩ := run_bind_ok h
  obtain ⟨_, hmark, -⟩ := ok_of_last h
  cases hmark
  unfold creditDeposit at hcredit
  split at hcredit
  · rename_i hnative
    have hrun := ok_of_mapError hcredit
    obtain ⟨hpools, hassets⟩ := Paid.same (Db.paid_addBalance _ _ hrun)
    have hsame : Unchanged holdings s s₁ := Db.holdings_addBalance _ _ hrun
    rw [if_pos hnative]
    exact ⟨hrelayer, fun hne => absurd hnative hne, fun _ => flows_nil hsame, hpools, hassets⟩
  · rename_i hasset
    obtain ⟨_, hcached, hcredit⟩ := ok_of_okOr (o := s.getAsset token) hcredit
    obtain ⟨-, hcredit⟩ := ok_of_require hcredit
    have hpaid : Paid s s₁ := by
      obtain ⟨_, -, hput⟩ :=
        ok_of_unwrap (o := (s.getOwnership token recipient).credit amount) hcredit
      exact Db.paid_putOwnership _ hput
    obtain ⟨hpools, hassets⟩ := Paid.same hpaid
    have hflows : s.holdings.Keyed → Flows [.credit (token, recipient) amount] s s₁ := fun hkeyed =>
      Db.flows_of_credit hkeyed hcredit
    rw [if_neg hasset]
    refine ⟨hrelayer, fun _ => ?_, hflows, hpools, hassets⟩
    exact mem_of_get hcached

theorem executeBridgeWithdraw_ok {token : H256} {destinationChain : UInt32}
    {destinationAddress : Address}
    (h : (executeBridgeWithdraw sender token amount destinationChain destinationAddress).run s =
      some (.ok logs, t)) :
    (s.holdings.Keyed →
      Flows (if token = .zero then [] else Flow.move token sender .zero amount) s t) ∧
      t.pools = s.pools ∧ t.assets = s.assets := by
  obtain ⟨-, h⟩ := ok_of_require (p := (!s.isBridgePaused) = true) h
  obtain ⟨-, h⟩ := ok_of_require h
  split at h
  · rename_i hnative
    obtain ⟨_, hsub, -⟩ := ok_of_last h
    have hrun := ok_of_mapError hsub
    obtain ⟨hpools, hassets⟩ := Paid.same (Db.paid_subBalance _ _ hrun)
    rw [if_pos hnative]
    exact ⟨fun _ => flows_nil (Db.holdings_subBalance _ _ hrun), hpools, hassets⟩
  · rename_i hasset
    obtain ⟨_, -, h⟩ := ok_of_okOr (o := s.getAsset token) h
    obtain ⟨_, hmove, -⟩ := ok_of_last h
    have hrun := ok_of_mapError hmove
    obtain ⟨hpools, hassets⟩ := Paid.same (Db.paid_transferAsset _ _ _ _ hrun)
    rw [if_neg hasset]
    exact ⟨fun hkeyed => Db.flows_of_transferAsset hkeyed hrun, hpools, hassets⟩

/-- An issuer replaces an asset, which may be in the store only. -/
theorem changeByIssuer_ok {change : AssetRecord → AssetRecord} {eventName : String}
    (h : (changeByIssuer sender assetId change eventName).run s = some (.ok logs, t)) :
    ∃ asset, s.getAssetOwned assetId = some asset ∧ t = s.putAsset assetId (change asset) := by
  obtain ⟨asset, hasset, h⟩ := ok_of_okOr (o := s.getAssetOwned assetId) h
  obtain ⟨-, h⟩ := ok_of_require h
  obtain ⟨_, hput, -⟩ := ok_of_last h
  cases hput
  exact ⟨asset, hasset, rfl⟩

variable {action : TransactionAction} {blockNumber blockTimestamp nonce gasLimit : UInt64}

/-- A routine operation leaves the ledger alone. -/
theorem sameLedger_of_isRoutine [Wasm] [Environment] (hroutine : action.isRoutine = true)
    {result : Except ExecutionError (List Log)}
    (h : (executeAction sender action blockNumber blockTimestamp nonce gasLimit).run s =
      some (result, t)) :
    SameLedger s t :=
  ledgerRoutine.executeAction restakes_ledger hroutine
    ⟨trivial, fun _ _ _ _ _ _ => trivial, fun _ _ _ h => h.toSameLedger,
      fun _ _ _ h => h.toSameLedger, fun _ _ _ _ _ _ _ _ _ _ =>
      (ledgerRoutine.runAssetAction (fun _ _ h => h.toSameLedger) fun _ _ => trivial).at s,
      fun _ _ t _ _ => sameLedger_putAccount t ..,
      fun _ _ t _ _ _ => ⟨rfl, rfl, rfl,
        fun key => ((apart_markSlashingEvidence t ..).beside key).2⟩⟩ h

theorem planned_of_isRoutine (hroutine : action.isRoutine = true) :
    planned s sender action = [] := by
  cases action with
  | createAssetClass | assetTransfer | createPool | addLiquidity | removeLiquidity | swap
  | claimRevenue | freezeAsset | unfreezeAsset | claimRedemption | bridgeDeposit
  | bridgeWithdraw => cases hroutine
  | _ => rfl

/-- What is planned depends on the ledger only. -/
theorem planned_congr (h : SameLedger s t) : planned t sender action = planned s sender action := by
  have pool : ∀ poolId, t.pool poolId = s.pool poolId := fun poolId => by
    unfold StateDB.pool
    rw [h.pools]
  have ownership : ∀ assetId owner, t.getOwnership assetId owner = s.getOwnership assetId owner :=
    fun assetId owner => congrArg (·.recordOf (assetId, owner)) h.holdings
  unfold planned plannedDeposit plannedWithdrawal plannedSwap plannedFees
  simp only [pool, ownership]

end Operations

end Executor

end Vtt
