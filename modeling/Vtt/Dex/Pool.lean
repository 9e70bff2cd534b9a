import Vtt.Dex.Math
import Vtt.State.Methods

/-!
# Liquidity pools

Pools of two tokens with liquidity tokens as their shares. The pool's tokens are held by the zero
address; the zero hash stands for the native token. Reserves are updated with wrapping arithmetic.
-/

namespace Vtt

open Lib Confined
open U256 (mulU128)

/-- A liquidity pool. -/
structure PoolState where
  poolId : H256
  tokenA : H256
  tokenB : H256
  reserveA : Amount
  reserveB : Amount
  lpTokenId : H256
  lpTotalSupply : Amount
  feeBps : UInt16
  protocolFeeBps : UInt16
  protocolFeesA : Amount
  protocolFeesB : Amount
  creator : Address
  createdAtEpoch : Epoch
deriving DecidableEq

namespace PoolState

instance : Borsh PoolState :=
  .ofIso (fun p => (p.poolId, p.tokenA, p.tokenB, p.reserveA, p.reserveB, p.lpTokenId,
      p.lpTotalSupply, p.feeBps, p.protocolFeeBps, p.protocolFeesA, p.protocolFeesB, p.creator,
      p.createdAtEpoch))
    (fun (poolId, tokenA, tokenB, reserveA, reserveB, lpTokenId, lpTotalSupply, feeBps,
      protocolFeeBps, protocolFeesA, protocolFeesB, creator, createdAtEpoch) =>
      ⟨poolId, tokenA, tokenB, reserveA, reserveB, lpTokenId, lpTotalSupply, feeBps, protocolFeeBps,
        protocolFeesA, protocolFeesB, creator, createdAtEpoch⟩)
    (fun _ => rfl)

/-- The zero hash is the native token. -/
def isNative (token : H256) : Bool := token == .zero

/-- Liquidity tokens that nobody gets at the creation of a pool. -/
def minimumLiquidity : U128 := 1000

def defaultFeeBps : UInt16 := 30

def defaultProtocolFeeBps : UInt16 := 5

end PoolState

/-- Code of the exchange. -/
abbrev DexM := DbM DexError

namespace Dex

open PoolState

variable [Crypto]

/-- The pool of a pair of tokens, in whichever order. -/
def computePoolId (tokenA tokenB : H256) : H256 :=
  if (compare tokenA tokenB).isLE then blake3Hash (tokenA.asBytes ++ tokenB.asBytes)
  else blake3Hash (tokenB.asBytes ++ tokenA.asBytes)

def computeLpTokenId (poolId : H256) : H256 := blake3Hash (ascii "lp:" ++ poolId.asBytes)

def loadPool (poolId : H256) : DexM PoolState := do
  let data ← Db.getPoolRaw poolId
  okOr (data.bind Borsh.tryFromSlice) (.poolNotFound poolId)

def savePool (pool : PoolState) : DexM Unit :=
  Db.putPoolRaw pool.poolId (Borsh.serialize pool)

/-- Take tokens from an account into the pool. -/
def transferTokenIn (sender : Address) (token : H256) (amount : Amount) : DexM Unit :=
  if isNative token then
    (Db.subBalance sender amount).mapError fun _ => .insufficientBalance
  else
    (Db.transferAsset token sender .zero amount).mapError fun _ => .insufficientBalance

/-- Pay tokens from the pool to an account. -/
def transferTokenOut (recipient : Address) (token : H256) (amount : Amount) : DexM Unit :=
  if isNative token then
    (Db.addBalance recipient amount).mapError fun _ => .overflow
  else
    (Db.transferAsset token .zero recipient amount).mapError fun _ => .insufficientLiquidity

/-- The liquidity token of a pool as an asset. -/
def lpAsset (lpTokenId poolId : H256) (totalSupply : Amount) : AssetRecord where
  id := lpTokenId
  name := "LP-" ++ hexEncode (poolId.asBytes.take 4)
  symbol := "LP-" ++ hexEncode (poolId.asBytes.take 2)
  assetClass := .fund
  originChain := .relay
  issuer := .zero
  totalSupply
  decimals := 18
  status := .active
  compliancePolicy := none
  valuationOracle := none
  documents := []
  metadataUri := ""
  jurisdiction := ""
  legalEntity := ""
  transferMode := .peerToPeer
  registrar := none
  redemptionPool := .zero
  requiresKyc := false
  createdAt := 0

def registerLpAsset (lpTokenId poolId : H256) (totalSupply : Amount) : DexM Unit :=
  (Db.registerAsset (lpAsset lpTokenId poolId totalSupply)).mapError fun _ => .overflow

def mintLpTo (lpTokenId : H256) (recipient : Address) (amount : Amount) : DexM Unit := do
  let record ← Db.getOwnership lpTokenId recipient
  let credited ← unwrap (record.credit amount)
  Db.putOwnership credited

def burnLpFrom (lpTokenId : H256) (sender : Address) (amount : Amount) : DexM Unit := do
  let record ← Db.getOwnership lpTokenId sender
  let debited ← okOr (record.debit amount) .insufficientBalance
  Db.putOwnership debited

/-- Every trade stops while the exchange is paused. -/
def requireNotPaused : DexM Unit := do
  let paused ← Db.isDexPaused
  require (!paused) .dexPaused

/-- Create a pool with its first deposit. -/
def createPool (sender : Address) (tokenA tokenB : H256) (amountA amountB : Amount)
    (currentEpoch : Epoch) : DexM PoolState := do
  requireNotPaused
  require (tokenA ≠ tokenB) .sameToken
  require (amountA.raw ≠ 0 ∧ amountB.raw ≠ 0) .zeroAmount
  let poolId := computePoolId tokenA tokenB
  let known ← Db.hasPool poolId
  require (!known) (.poolAlreadyExists poolId)
  transferTokenIn sender tokenA amountA
  transferTokenIn sender tokenB amountB
  let lpMinted := sqrtU256 (mulU128 amountA.raw amountB.raw)
  require (minimumLiquidity < lpMinted) .zeroLiquidity
  let lpTokenId := computeLpTokenId poolId
  registerLpAsset lpTokenId poolId ⟨lpMinted⟩
  mintLpTo lpTokenId sender ⟨lpMinted - minimumLiquidity⟩
  let pool : PoolState :=
    { poolId, tokenA, tokenB, reserveA := amountA, reserveB := amountB, lpTokenId
      lpTotalSupply := ⟨lpMinted⟩, feeBps := defaultFeeBps, protocolFeeBps := defaultProtocolFeeBps
      protocolFeesA := .zero, protocolFeesB := .zero, creator := sender
      createdAtEpoch := currentEpoch }
  savePool pool
  pure pool

/-- What is taken of two offered amounts to keep the ratio of the reserves. -/
def optimalAmounts (pool : PoolState) (amountA amountB : Amount) : Except DexError (U128 × U128) :=
  do
  let optimalB ← (mulU128 amountA.raw pool.reserveB.raw).divU128 pool.reserveA.raw
  if optimalB ≤ amountB.raw then
    pure (amountA.raw, optimalB)
  else
    let optimalA ← (mulU128 amountB.raw pool.reserveA.raw).divU128 pool.reserveB.raw
    pure (optimalA, amountB.raw)

/-- The liquidity tokens for a deposit: the smaller of the two shares. -/
def sharesFor (pool : PoolState) (actualA actualB : U128) : Except DexError U128 := do
  let lpA ← (mulU128 actualA pool.lpTotalSupply.raw).divU128 pool.reserveA.raw
  let lpB ← (mulU128 actualB pool.lpTotalSupply.raw).divU128 pool.reserveB.raw
  pure (U128.min lpA lpB)

/-- Add liquidity to a pool. -/
def addLiquidity (sender : Address) (poolId : H256) (amountA amountB minLp : Amount) :
    DexM Amount := do
  requireNotPaused
  let pool ← loadPool poolId
  require (pool.reserveA.raw ≠ 0 ∧ pool.reserveB.raw ≠ 0) .zeroLiquidity
  let actual ← ofExcept (optimalAmounts pool amountA amountB)
  require (actual.1 ≠ 0 ∧ actual.2 ≠ 0) .zeroAmount
  let lpMinted ← ofExcept (sharesFor pool actual.1 actual.2)
  require (minLp.raw ≤ lpMinted) (.slippageExceeded minLp.raw lpMinted)
  transferTokenIn sender pool.tokenA ⟨actual.1⟩
  transferTokenIn sender pool.tokenB ⟨actual.2⟩
  mintLpTo pool.lpTokenId sender ⟨lpMinted⟩
  savePool
    { pool with
      reserveA := ⟨pool.reserveA.raw + actual.1⟩
      reserveB := ⟨pool.reserveB.raw + actual.2⟩
      lpTotalSupply := ⟨pool.lpTotalSupply.raw + lpMinted⟩ }
  pure ⟨lpMinted⟩

/-- Remove liquidity from a pool. -/
def removeLiquidity (sender : Address) (poolId : H256) (lpAmount minA minB : Amount) :
    DexM (Amount × Amount) := do
  requireNotPaused
  let pool ← loadPool poolId
  require (lpAmount.raw ≠ 0) .zeroAmount
  let amountA ← ofExcept ((mulU128 lpAmount.raw pool.reserveA.raw).divU128 pool.lpTotalSupply.raw)
  let amountB ← ofExcept ((mulU128 lpAmount.raw pool.reserveB.raw).divU128 pool.lpTotalSupply.raw)
  require (minA.raw ≤ amountA) (.slippageExceeded minA.raw amountA)
  require (minB.raw ≤ amountB) (.slippageExceeded minB.raw amountB)
  burnLpFrom pool.lpTokenId sender lpAmount
  transferTokenOut sender pool.tokenA ⟨amountA⟩
  transferTokenOut sender pool.tokenB ⟨amountB⟩
  savePool
    { pool with
      reserveA := ⟨pool.reserveA.raw - amountA⟩
      reserveB := ⟨pool.reserveB.raw - amountB⟩
      lpTotalSupply := ⟨pool.lpTotalSupply.raw - lpAmount.raw⟩ }
  pure (⟨amountA⟩, ⟨amountB⟩)

end Dex

end Vtt
