import Vtt.Executor.Routine

/-!
# What the other operations do to balances and beside them

The operations that deal in assets and pools also change ownership records, pools and assets. A
relation that allows this as well is one of every operation.
-/

namespace Vtt

open Lib Dex Executor

/-- The operations that register an asset or replace one. -/
def TransactionAction.publishes : TransactionAction → Bool
  | .createAssetClass .. | .createPool .. | .freezeAsset .. | .unfreezeAsset .. => true
  | _ => false

namespace Executor

open Confined StateDB

/-- A relation that allows to set ownership records and pools, and to change cached assets. -/
structure Dealing (R : StateDB → StateDB → Prop) (payer : Address → Prop) :
    Prop extends Routine R payer where
  putOwnership : ∀ s record prevTotal newTotal,
    R s (StateDB.putOwnershipWith s record prevTotal newTotal)
  putPoolRaw : ∀ s poolId data, R s (StateDB.putPoolRaw s poolId data)
  setCachedAsset : ∀ s assetId asset, R s (StateDB.setCachedAsset s assetId asset)

/-- A relation that allows to register and replace assets. -/
def Publishes (R : StateDB → StateDB → Prop) : Prop :=
  ∀ (s : StateDB) assetId asset, R s (s.putAsset assetId asset)

namespace Dealing

variable {R : StateDB → StateDB → Prop} {payer : Address → Prop} {ε : Type}
variable {sender recipient : Address} {assetId poolId token : H256} {amount : Amount}
  {asset : AssetRecord}

theorem savePool (D : Dealing R payer) {pool : PoolState} : Moves R (savePool pool) := by
  unfold Dex.savePool Db.putPoolRaw
  exact .update fun s => D.putPoolRaw s ..

variable [IsPreorder StateDB R]

theorem ownership (D : Dealing R payer) {record : OwnershipRecord} :
    Moves R (Db.putOwnership record : DbM ε Unit) :=
  .bind (Routine.cached _) fun _ => .bind (.unwrap _) fun _ => .bind (.unwrap _) fun _ =>
    .update fun s => D.putOwnership s ..

theorem transferAsset (D : Dealing R payer) {source dest : Address} :
    Moves R (Db.transferAsset assetId source dest amount) :=
  .ite (.pure _) <| .found fun _ _ => .guarded <| .found fun _ _ => .bind D.ownership fun _ =>
    .bind .view fun _ => .bind (.unwrap _) fun _ => D.ownership

theorem registerAsset (hput : Publishes R) : Moves R (Db.registerAsset asset) :=
  .bind .view fun _ => .guarded <| .update fun s => hput s ..

/-! ## The exchange -/

theorem transferTokenIn (D : Dealing R payer) (hp : payer sender) :
    Moves R (transferTokenIn sender token amount) :=
  .ite (.mapError (D.subBalance _ _ hp)) (.mapError D.transferAsset)

theorem transferTokenOut (D : Dealing R payer) :
    Moves R (transferTokenOut recipient token amount) :=
  .ite (.mapError (D.addBalance ..)) (.mapError D.transferAsset)

theorem payOut (D : Dealing R payer) : Moves R (payOut recipient token amount) :=
  .ite D.transferTokenOut (.pure _)

theorem mintLpTo (D : Dealing R payer) : Moves R (mintLpTo token recipient amount) :=
  .bind .view fun _ => .bind (.unwrap _) fun _ => D.ownership

theorem burnLpFrom (D : Dealing R payer) : Moves R (burnLpFrom token sender amount) :=
  .found fun _ _ => D.ownership

theorem loadPool : Moves R (loadPool poolId) := .bind .view fun _ => .okOr _

theorem requireNotPaused : Moves R requireNotPaused := .bind (Routine.cached _) fun _ => .require

theorem addLiquidity (D : Dealing R payer) (hp : payer sender) {amountA amountB minLp : Amount} :
    Moves R (addLiquidity sender poolId amountA amountB minLp) :=
  .bind requireNotPaused fun _ => .bind loadPool fun _ => .guarded <|
    .bind (.ofExcept _) fun _ => .guarded <| .bind (.ofExcept _) fun _ => .guarded <|
    .bind (D.transferTokenIn hp) fun _ =>
    .bind (D.transferTokenIn hp) fun _ => .bind D.mintLpTo fun _ => .bind D.savePool
      fun _ => .pure _

theorem removeLiquidity (D : Dealing R payer) {lpAmount minA minB : Amount} :
    Moves R (removeLiquidity sender poolId lpAmount minA minB) :=
  .bind requireNotPaused fun _ => .bind loadPool fun _ => .guarded <| .bind (.ofExcept _) fun _ =>
    .bind (.ofExcept _) fun _ => .guarded <| .guarded <| .bind D.burnLpFrom fun _ =>
    .bind D.transferTokenOut fun _ => .bind D.transferTokenOut fun _ => .bind D.savePool
      fun _ => .pure _

theorem executeSwap (D : Dealing R payer) (hp : payer sender) {tokenIn : H256}
    {amountIn minAmountOut : Amount} :
    Moves R (executeSwap sender poolId tokenIn amountIn minAmountOut) :=
  .bind requireNotPaused fun _ => .bind loadPool fun _ => .guarded <| .guarded <|
    .bind (.ofExcept _) fun _ => .bind (.ofExcept _) fun _ => .guarded <| .guarded <|
    .bind (D.transferTokenIn hp) fun _ =>
    .bind D.transferTokenOut fun _ => .bind D.savePool fun _ => .pure _

theorem claimProtocolFees (D : Dealing R payer) {treasury : Address} :
    Moves R (claimProtocolFees sender poolId treasury) :=
  .guarded <| .bind loadPool fun _ => .guarded <|
    .bind D.payOut fun _ => .bind D.payOut fun _ => .bind D.savePool fun _ => .pure _

theorem checkTransferMode : Moves R (checkTransferMode asset sender) := by
  unfold Executor.checkTransferMode
  split
  · exact .pure _
  · exact .bind (.okOr _) fun _ => .require

theorem checkKyc : Moves R (checkKyc asset sender recipient) :=
  .ite (.bind .view fun _ => .guarded <| .bind .view fun _ => .require) (.pure _)

theorem checkJurisdictionPolicy {address : Address} :
    Moves R (checkJurisdictionPolicy address) := by
  refine .bind .view fun whitelist => .bind .view fun blacklist => .bind .view fun recorded => ?_
  refine .ite ?_ (.bind (.okOr _) fun _ => .guarded <| ?_)
  all_goals
    split
    · exact .pure _
    · exact .require

theorem checkMaxHolders : Moves R (checkMaxHolders assetId sender recipient amount) :=
  .bind .view fun _ => .ite (.pure _) <| .bind .view fun _ => .bind (.unwrap _) fun _ =>
    .ite (.pure _) <| .bind .view fun _ => .bind (.unwrap _) fun _ => .ite (.pure _) <|
      .bind .view fun _ => .require

theorem creditDeposit (D : Dealing R payer) : Moves R (creditDeposit recipient token amount) :=
  .ite (.mapError (D.addBalance ..)) <| .bind (.bind .view fun _ => .okOr _) fun _ =>
    .guarded <| .bind .view fun _ => .bind (.unwrap _) fun _ => D.ownership

theorem dexEpoch {blockNumber : UInt64} : Moves R (dexEpoch blockNumber : DbM ε Epoch) :=
  .bind (Routine.cached _) fun _ => .pure _

variable [Crypto]

theorem createPool (D : Dealing R payer) (hput : Publishes R) (hp : payer sender)
    {tokenA tokenB : H256} {amountA amountB : Amount} {currentEpoch : Epoch} :
    Moves R (createPool sender tokenA tokenB amountA amountB currentEpoch) :=
  .bind requireNotPaused fun _ => .guarded <| .guarded <| .bind .view fun _ => .guarded <|
    .bind (D.transferTokenIn hp) fun _ => .bind (D.transferTokenIn hp) fun _ => .guarded <|
    .bind (.mapError (registerAsset hput)) fun _ => .bind D.mintLpTo fun _ => .bind D.savePool
      fun _ => .pure _

/-! ## Assets -/

theorem executeAssetTransfer (D : Dealing R payer) :
    Moves R (executeAssetTransfer sender assetId recipient amount) :=
  .bind (.bind .view fun _ => .okOr _) fun _ => .bind checkTransferMode fun _ =>
    .bind checkKyc fun _ => .bind checkJurisdictionPolicy fun _ => .bind checkJurisdictionPolicy
      fun _ => .bind checkMaxHolders fun _ =>
    .bind (.mapError D.transferAsset) fun _ => .pure _

theorem executeCreateAsset (D : Dealing R payer) (hput : Publishes R)
    {name symbol metadataUri assetClass jurisdiction legalEntity : String} {totalSupply : Amount}
    {decimals : UInt8} {blockNumber : UInt64} :
    Moves R (executeCreateAsset sender name symbol metadataUri totalSupply decimals assetClass
      jurisdiction legalEntity blockNumber) :=
  .guarded <| .guarded <| .bind (.mapError (registerAsset hput)) fun _ =>
    .bind .view fun _ => .bind (.unwrap _) fun _ => D.ownership

theorem changeByIssuer (hput : Publishes R) {change : AssetRecord → AssetRecord}
    {eventName : String} :
    Moves R (changeByIssuer sender assetId change eventName) :=
  .found fun _ _ => .guarded <| .bind (.update fun s => hput s ..) fun _ => .pure _

theorem executeClaimRedemption (D : Dealing R payer) :
    Moves R (executeClaimRedemption sender assetId) := by
  have change : ∀ holderTotal share, Moves R (Db.changeAsset assetId .assetNotFound fun asset =>
      Confined.unwrap (redeemed asset holderTotal share) : ExecM Unit) :=
        fun _ _ => .found fun _ _ =>
      .bind (.update fun _ => D.aside (.of_apart rfl (.refl _))) fun _ =>
      .bind (.unwrap _) fun _ => .update fun s => D.setCachedAsset s ..
  exact .bind (.bind .view fun _ => .okOr _) fun _ => .guarded <| .guarded <| .guarded <|
    .bind .view fun _ => .bind (.unwrap _) fun _ => .guarded <| .bind (.okOr _) fun _ =>
    .bind D.ownership fun _ =>
    .bind (.mapError (D.addBalance ..)) fun _ => .bind (change ..) fun _ => .pure _

/-! ## The bridge -/

theorem executeBridgeDeposit (D : Dealing R payer) {sourceTxHash : H256} {sourceChain : UInt32} :
    Moves R (executeBridgeDeposit sender sourceTxHash sourceChain recipient token amount) :=
  .bind .view fun _ => .guarded <| .bind .view fun _ => .guarded <|
    .guarded <| .bind .view fun _ => .guarded <| .guarded <|
    .bind D.creditDeposit fun _ => .bind (D.of_aside (Db.aside_writeNote (.bridgeDeposit _ _) _ _))
      fun _ => .pure _

theorem executeBridgeWithdraw (D : Dealing R payer) (hp : payer sender) {destinationChain : UInt32}
    {destinationAddress : Address} :
    Moves R (executeBridgeWithdraw sender token amount destinationChain destinationAddress) :=
  .bind .view fun _ => .guarded <| .guarded <|
      .ite (.bind (.mapError (D.subBalance _ _ hp)) fun _ => .pure _) <|
      .bind (.bind .view fun _ => .okOr _) fun _ => .bind (.mapError D.transferAsset)
        fun _ => .pure _

variable [Wasm] [Environment]

/-- Every operation leads to a related state, if the relation allows what the operation does. -/
theorem executeAction (D : Dealing R payer) (hre : Routine.Restakes R) {s : StateDB}
    {action : TransactionAction} {blockNumber blockTimestamp nonce gasLimit : UInt64}
    (h : Routine.Allows R payer s sender blockNumber action)
    (hput : action.publishes = true → Publishes R) :
    MovesAt R s (executeAction sender action blockNumber blockTimestamp nonce gasLimit) := by
  by_cases hroutine : action.isRoutine = true
  · exact D.toRoutine.executeAction hre hroutine h
  have hp := h.fromSender
  cases action with
  | createAssetClass => exact Moves.at (.bind (D.executeCreateAsset (hput rfl)) fun _ => .pure _) s
  | assetTransfer => exact Moves.at D.executeAssetTransfer s
  | createPool =>
    exact Moves.at (.bind dexEpoch fun _ => .bind (.mapError (D.createPool (hput rfl) hp))
      fun _ => .pure _) s
  | addLiquidity => exact Moves.at (.bind (.mapError (D.addLiquidity hp)) fun _ => .pure _) s
  | removeLiquidity => exact Moves.at (.bind (.mapError D.removeLiquidity) fun _ => .pure _) s
  | swap => exact Moves.at (.bind (.mapError (D.executeSwap hp)) fun _ => .pure _) s
  | claimRevenue =>
    exact Moves.at (.bind (Routine.cached _) fun _ => .bind (.mapError D.claimProtocolFees)
      fun _ => .pure _) s
  | freezeAsset | unfreezeAsset => exact Moves.at (changeByIssuer (hput rfl)) s
  | claimRedemption => exact Moves.at D.executeClaimRedemption s
  | bridgeDeposit => exact Moves.at D.executeBridgeDeposit s
  | bridgeWithdraw => exact Moves.at (D.executeBridgeWithdraw hp) s
  | _ => exact absurd rfl hroutine

end Dealing

end Executor

end Vtt
