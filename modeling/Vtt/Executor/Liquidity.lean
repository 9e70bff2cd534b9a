import Vtt.Dex.Rounding
import Vtt.Executor.Ballot

/-!
# Liquidity tokens

The liquidity tokens of a pool that are held, together with those that are locked for ever, are
those that the pool counts, as long as what is added to a reserve fits a word. A reserve that is
added to beyond a word starts again at zero.
-/

namespace Vtt

open Lib Vtt.Flow BitVec
open Option (some.inj any_eq_true)

/-- The operations of the exchange, transfers of assets and withdrawals over the bridge. -/
def TransactionAction.movesTokens : TransactionAction → Bool
  | .bridgeWithdraw .. => true
  | action => action.isTrade

namespace Executor

open Confined StateDB Dex

/-- A pool is found under its id, in order, and its liquidity tokens are held except for those
locked for ever. -/
structure Stocked (poolId lpTokenId : H256) (s : StateDB) (pool : PoolState) : Prop where
  books : Books s
  found : s.pool poolId = some pool
  sound : Dex.Sound poolId pool
  token : pool.lpTokenId = lpTokenId
  supply : s.holdings.supply lpTokenId + PoolState.minimumLiquidity.toNat =
    pool.lpTotalSupply.raw.toNat

/-- The pool stays as it is, and so does what is held of its token. -/
theorem Stocked.of_same {poolId lpTokenId : H256} {s t : StateDB} {pool : PoolState}
    (hs : Stocked poolId lpTokenId s pool) (ht : Books t) (hpool : t.pool poolId = s.pool poolId)
    (hsupply : t.holdings.supply lpTokenId = s.holdings.supply lpTokenId) :
    Stocked poolId lpTokenId t pool :=
  ⟨ht, hpool.trans hs.found, hs.sound, hs.token, by rw [hsupply]; exact hs.supply⟩

theorem swapped_tokens (pool : PoolState) (aToB : Prop) [Decidable aToB] (fees : U128 × U128 × U128)
    (out : U128) :
    (swapped pool aToB fees out).tokenA = pool.tokenA ∧
      (swapped pool aToB fees out).tokenB = pool.tokenB := by
  unfold swapped
  split
  · exact ⟨rfl, rfl⟩
  · exact ⟨rfl, rfl⟩

/-- The call that an operation makes on a pool. -/
def poolCall (poolId : H256) (sender : Address) : TransactionAction → Call
  | .addLiquidity id amountA amountB minLp =>
    if id = poolId then .addLiquidity sender amountA amountB minLp else .elsewhere
  | .swap id tokenIn amountIn minAmountOut =>
    if id = poolId then .executeSwap sender tokenIn amountIn minAmountOut else .elsewhere
  | _ => .elsewhere

/-- What an operation adds to the reserves of a pool fits a word. -/
def ReserveRoom (poolId : H256) (s : StateDB) (sender : Address) (action : TransactionAction) :
    Prop :=
  ∀ pool, s.pool poolId = some pool →
      pool.reserves.a + ((poolCall poolId sender action).added pool).1 < 2 ^ 128 ∧
      pool.reserves.b + ((poolCall poolId sender action).added pool).2 < 2 ^ 128

section Operations

variable {s t : StateDB} {sender : Address} {action : TransactionAction} {poolId lpTokenId : H256}
  {pool : PoolState}

theorem pool_of_same (h : t.pools = s.pools) (poolId : H256) : t.pool poolId = s.pool poolId := by
  rw [pool, h, pool]

/-- Whoever removes liquidity burns less than all liquidity tokens and gets less than the
reserves. -/
theorem Stocked.removal (hs : Stocked poolId lpTokenId s pool) {lpAmount minA minB : Amount}
    {amounts : Amount × Amount}
    (h : (removeLiquidity sender poolId lpAmount minA minB).run s = some (.ok amounts, t)) :
    lpAmount.raw.toNat < pool.lpTotalSupply.raw.toNat ∧ amounts.1.raw.toNat <
      pool.reserveA.raw.toNat ∧
      amounts.2.raw.toNat < pool.reserveB.raw.toNat := by
  obtain ⟨_, hother, -, hA, hB, trade⟩ := removeLiquidity_ok h
  obtain rfl := some.inj (hs.found.symm.trans hother)
  have supply :=
    supply_of_debit ((balanced_paidOut lpTokenId).append (balanced_paidOut _))
      (trade.flows hs.books.keyed)
  rw [if_pos hs.token] at supply
  have hsupply := hs.supply
  have hmin : PoolState.minimumLiquidity.toNat = 1000 := rfl
  have hlt : lpAmount.raw.toNat < pool.lpTotalSupply.raw.toNat := by omega
  obtain ⟨hltA, hltB, -⟩ := withdrawn_reserves hs.sound hlt hA hB
  exact ⟨hlt, hltA, hltB⟩

variable [Crypto]

/-- What an operation makes of a pool: it stays in order, with the same tokens, and as many
liquidity tokens are held more as it counts more, but for some that are burnt. -/
structure PoolTurn (poolId : H256) (s t : StateDB) (pool pool' : PoolState) (burnt : ℕ) : Prop where
  found : t.pool poolId = some pool'
  sound : Dex.Sound poolId pool'
  tokens : pool'.tokenA = pool.tokenA ∧ pool'.tokenB = pool.tokenB ∧
    pool'.lpTokenId = pool.lpTokenId
  tally : t.holdings.supply pool.lpTokenId + burnt + pool.lpTotalSupply.raw.toNat =
    s.holdings.supply pool.lpTokenId + pool'.lpTotalSupply.raw.toNat

section Turns

variable {pool' : PoolState} (hsound : Dex.Sound poolId pool) (hpool : s.pool poolId = some pool)

include hsound hpool

omit [Crypto] in
/-- The pool stays as it is, and so does what is held of its token. -/
theorem poolTurn_of_same (hsame : t.pool poolId = s.pool poolId)
    (hsupply : t.holdings.supply pool.lpTokenId = s.holdings.supply pool.lpTokenId) :
    PoolTurn poolId s t pool pool 0 :=
  ⟨hsame.trans hpool, hsound, ⟨rfl, rfl, rfl⟩, by rw [hsupply, Nat.add_zero]⟩

omit [Crypto] in
/-- A trade with another pool. -/
theorem poolTurn_of_other (hs : Books s) {other : PoolState} {otherId : H256}
    (hother : s.pool otherId = some other) (hne : otherId ≠ poolId)
    (hpools : t.pools = s.pools.insert pool'.poolId (Borsh.serialize pool'))
    (hid : pool'.poolId = other.poolId) (hsupply : other.lpTokenId ≠ pool.lpTokenId →
      t.holdings.supply pool.lpTokenId = s.holdings.supply pool.lpTokenId) :
    PoolTurn poolId s t pool pool 0 := by
  have hfiled : pool'.poolId = otherId := hid.trans (hs.filed _ _ hother)
  refine poolTurn_of_same hsound hpool ?_ (hsupply fun heq => hne ?_)
  · rw [pool_of_insert hpools, hfiled, if_neg (Ne.symm hne)]
  · exact hs.distinct _ _ _ _ hother hpool heq

end Turns

/-- A pool with fewer liquidity tokens held than it counts, under an operation that is no deposit
over the bridge and has room in the reserves. -/
theorem Booked.poolTurn (h : Booked sender action s t) (hs : Books s)
    (hpool : s.pool poolId = some pool) (hsound : Dex.Sound poolId pool)
    (hshares : s.holdings.supply pool.lpTokenId < pool.lpTotalSupply.raw.toNat)
      (hbridge : ∀ sourceTxHash sourceChain recipient token amount,
    action ≠ .bridgeDeposit sourceTxHash sourceChain recipient token amount)
    (hroom : ReserveRoom poolId s sender action) :
    ∃ pool' burnt, PoolTurn poolId s t pool pool' burnt ∧
      (action.movesTokens = true → burnt = 0) := by
  have hknown := hs.registered _ _ hpool
  obtain ⟨hflows, hentry⟩ := h
  replace hflows := hflows hs.keyed
  have hroom := hroom pool hpool
  cases hentry with
  | routine _ ledger =>
    exact ⟨pool, 0,
      poolTurn_of_same hsound hpool (pool_of_same ledger.pools _) (by rw [ledger.holdings]),
      fun _ => rfl⟩
  | @created name symbol _ _ _ _ _ _ _ hnew pools _ =>
    have hne : newAssetId sender name symbol ≠ pool.lpTokenId := fun heq => hnew (heq ▸ hknown)
    have supply := supply_of_credit (balanced_nil pool.lpTokenId)
      (show runAll s.holdings ([] ++ [.credit (newAssetId sender name symbol, _) _]) =
      some t.holdings from hflows)
    rw [if_neg hne] at supply
    exact ⟨pool, 0, poolTurn_of_same hsound hpool (pool_of_same pools _) supply, fun _ => rfl⟩
  | transferred _ _ _ _ _ pools =>
    exact ⟨pool, 0, poolTurn_of_same hsound hpool (pool_of_same pools _)
      (supply_of_balanced (balanced_move _) hflows), fun _ => rfl⟩
  | @opened tokenA tokenB _ _ new _ hnew _ _ hfresh _ hasset pools _ =>
    have hid : poolId ≠ new.poolId := by
      rintro rfl
      rw [StateDB.pool, Std.ExtTreeMap.getElem?_eq_none hfresh] at hpool
      cases hpool
    have hlp : new.lpTokenId ≠ pool.lpTokenId := fun heq => hasset (heq ▸ hknown)
    subst hnew
    have hne : computeLpTokenId (computePoolId tokenA tokenB) ≠ pool.lpTokenId := hlp
    have supply :=
      supply_of_credit ((balanced_paidIn pool.lpTokenId).append (balanced_paidIn _)) hflows
    rw [if_neg hne] at supply
    refine ⟨pool, 0, poolTurn_of_same hsound hpool ?_ supply, fun _ => rfl⟩
    rw [pool_of_insert pools, if_neg hid]
  | @deposited otherId _ _ _ _ actual lp hother _ hactual _ shares trade =>
    have supply := supply_of_credit ((balanced_paidIn pool.lpTokenId).append (balanced_paidIn _))
      (trade.flows hs.keyed)
    by_cases hid : otherId = poolId
    · subst hid
      obtain rfl := some.inj (hpool.symm.trans hother)
      simp only [poolCall, if_pos, Call.added, hactual] at hroom
      obtain ⟨hsound', -⟩ := deposited_sound hsound hroom.1 hroom.2 shares
      have hreserves := congrArg Reserves.shares (deposited_reserves hsound hroom.1 hroom.2 shares)
      refine ⟨_, 0, ⟨hsound'.found trade.pools, hsound', ⟨rfl, rfl, rfl⟩, ?_⟩, fun _ => rfl⟩
      rw [if_pos rfl] at supply
      change (deposited pool actual lp.raw).lpTotalSupply.raw.toNat =
        pool.lpTotalSupply.raw.toNat + lp.raw.toNat at hreserves
      omega
    · refine ⟨pool, 0, poolTurn_of_other hsound hpool hs hother hid trade.pools rfl fun hne => ?_,
        fun _ => rfl⟩
      rw [if_neg hne] at supply
      exact supply
  | @withdrawn otherId lpAmount _ _ _ amounts hother _ hA hB trade =>
    have supply := supply_of_debit ((balanced_paidOut pool.lpTokenId).append (balanced_paidOut _))
      (trade.flows hs.keyed)
    by_cases hid : otherId = poolId
    · subst hid
      obtain rfl := some.inj (hpool.symm.trans hother)
      rw [if_pos rfl] at supply
      change _ + (lpAmount.raw.toNat + 0) = _ at supply
      -- no more is burnt than is held
      have hlt : lpAmount.raw.toNat < pool.lpTotalSupply.raw.toNat := by omega
      obtain ⟨hsound', -⟩ := withdrawn_sound hsound hlt hA hB
      obtain ⟨-, -, hreserves⟩ := withdrawn_reserves hsound hlt hA hB
      have hcount := congrArg Reserves.shares hreserves
      change (withdrawn pool lpAmount.raw amounts.1.raw amounts.2.raw).lpTotalSupply.raw.toNat =
        pool.lpTotalSupply.raw.toNat - lpAmount.raw.toNat at hcount
      exact ⟨_, 0, ⟨hsound'.found trade.pools, hsound', ⟨rfl, rfl, rfl⟩, by omega⟩, fun _ => rfl⟩
    · refine ⟨pool, 0, poolTurn_of_other hsound hpool hs hother hid trade.pools rfl fun hne => ?_,
        fun _ => rfl⟩
      rw [if_neg hne] at supply
      exact supply
  | @swapped otherId tokenIn _ _ other fees out hother _ hfees hout trade =>
    have supply := supply_of_balanced ((balanced_paidIn pool.lpTokenId).append (balanced_paidOut _))
      (trade.flows hs.keyed)
    have hsame := swapped_same other (tokenIn = other.tokenA) fees out.raw
    by_cases hid : otherId = poolId
    · subst hid
      obtain rfl := some.inj (hpool.symm.trans hother)
      simp only [poolCall, if_pos] at hroom
      obtain ⟨hsound', -⟩ := swapped_sound hsound (room_of_added hfees hroom.1 hroom.2) hout
      refine ⟨_, 0, ⟨hsound'.found trade.pools, hsound', ⟨?_, ?_, hsame.2.1⟩, ?_⟩, fun _ => rfl⟩
      · exact (swapped_tokens ..).1
      · exact (swapped_tokens ..).2
      · rw [supply, hsame.2.2, Nat.add_zero]
    · exact ⟨pool, 0, poolTurn_of_other hsound hpool hs hother hid trade.pools hsame.1 fun _ =>
        supply, fun _ => rfl⟩
  | @collected otherId _ hother trade =>
    have supply := supply_of_balanced
      ((balanced_paidIfAny pool.lpTokenId).append (balanced_paidIfAny _)) (trade.flows hs.keyed)
    by_cases hid : otherId = poolId
    · subst hid
      obtain rfl := some.inj (hpool.symm.trans hother)
      have hsound' :
          Dex.Sound otherId { pool with protocolFeesA := .zero, protocolFeesB := .zero } :=
        ⟨hsound.poolId, hsound.feeBps, hsound.protocolFeeBps, hsound.backed⟩
      exact ⟨_, 0, ⟨hsound'.found trade.pools, hsound', ⟨rfl, rfl, rfl⟩, by
        rw [supply, Nat.add_zero]⟩, fun _ => rfl⟩
    · exact ⟨pool, 0, poolTurn_of_other hsound hpool hs hother hid trade.pools rfl fun _ => supply,
        fun _ => rfl⟩
  | reissued _ _ _ _ _ state =>
    subst state
    exact ⟨pool, 0, poolTurn_of_same hsound hpool rfl rfl, fun _ => rfl⟩
  | redeemed _ _ _ _ _ _ _ pools =>
    have supply := supply_of_debit (balanced_nil pool.lpTokenId) hflows
    exact ⟨pool, _, ⟨(pool_of_same pools _).trans hpool, hsound, ⟨rfl, rfl, rfl⟩,
      congrArg (· + pool.lpTotalSupply.raw.toNat) supply⟩, fun hkind => by cases hkind⟩
  | bridgedIn => exact absurd rfl (hbridge _ _ _ _ _)
  | @bridgedOut _ _ _ _ pools _ =>
    refine ⟨pool, 0,
      poolTurn_of_same hsound hpool (pool_of_same pools _) (supply_of_balanced ?_ hflows),
      fun _ => rfl⟩
    dsimp only [planned]
    split
    · exact balanced_nil _
    · exact balanced_move _

theorem Booked.stocked (h : Booked sender action s t) (hs : Stocked poolId lpTokenId s pool)
    (hkind : action.movesTokens = true) (hroom : ReserveRoom poolId s sender action) :
    ∃ pool', Stocked poolId lpTokenId t pool' := by
  obtain ⟨hbooks, hpool, hsound, rfl, _⟩ := hs
  have hmin : PoolState.minimumLiquidity.toNat = 1000 := rfl
  obtain ⟨pool', _, hturn, hexact⟩ := h.poolTurn hbooks hpool hsound (by omega)
    (fun _ _ _ _ _ heq => by subst heq; cases hkind) hroom
  have htally := hturn.tally
  rw [hexact hkind] at htally
  exact ⟨pool', h.books hbooks, hturn.found, hturn.sound, hturn.tokens.2.2, by omega⟩

/-- A new pool, in a state whose books are in order. -/
theorem stocked_of_createPool {tokenA tokenB : H256} {amountA amountB : Amount} {epoch : Epoch}
    (hs : Books s)
    (h : (createPool sender tokenA tokenB amountA amountB epoch).run s = some (.ok pool, t)) :
    Stocked pool.poolId pool.lpTokenId t pool := by
  obtain ⟨hfound, hsound⟩ := createPool_sound h
  obtain ⟨hopened, htokens, hamounts, hnew, hshares, hasset, hflows, hpools, hassets⟩ :=
    createPool_ok h
  have hbooked : Booked sender (.createPool tokenA tokenB amountA amountB) s t :=
    ⟨by subst hopened; exact hflows,
      .opened pool epoch hopened htokens hamounts hnew hshares hasset hpools hassets⟩
  refine ⟨hbooked.books hs, hfound, hsound, rfl, ?_⟩
  have supply :=
    supply_of_credit ((balanced_paidIn pool.lpTokenId).append (balanced_paidIn _)) (hflows hs.keyed)
  rw [if_pos rfl, hs.unheld _ hasset] at supply
  subst hopened
  have hlt := lt_def.1 hshares
  change _ + _ = (firstShares amountA amountB).toNat
  rw [supply, toNat_sub_of_le (le_def.2 (Nat.le_of_lt hlt))]
  omega

end Operations

/-! ## Runs -/

section Runs

variable [Crypto] [Wasm] [Environment] {s t : StateDB} {ctx : BlockContext} {tx : SignedTransaction}
  {result : ExecutionResult} {poolId lpTokenId : H256} {pool : PoolState}

theorem Outcome.stocked (h : Outcome ctx tx s result t) (hs : Stocked poolId lpTokenId s pool)
    (hkind : tx.payload.action.movesTokens = true)
    (hroom : ReserveRoom poolId s tx.sender tx.payload.action) :
    ∃ pool', Stocked poolId lpTokenId t pool' := by
  cases hsuccess : result.receipt.success with
  | false =>
    obtain ⟨holdings, pools, -⟩ := h.same_of_failure hsuccess
    exact ⟨pool, hs.of_same (h.books hs.books) (pool_of_same pools _) (by rw [holdings])⟩
  | true =>
    obtain ⟨holdings, pools, -⟩ := ledger_charge s tx.sender (gasFee tx ctx.gasConfig)
    have hsame := pool_of_same pools poolId
    have hcharged : Stocked poolId lpTokenId (s.charge tx.sender (gasFee tx ctx.gasConfig)) pool :=
      hs.of_same (hs.books.of_sameLedger (sameLedger_charge ..)) hsame (by rw [holdings])
    refine (h.booked hsuccess).stocked hcharged hkind fun p hp => hroom p ?_
    rw [← hsame]
    exact hp

/-- A transaction of an account other than the zero address that trades, transfers an asset or
withdraws over the bridge, with room in the reserves of a pool. -/
def Liquid (poolId : H256) (s : StateDB) : Event → Prop
  | .transaction _ tx => tx.sender ≠ .zero ∧ tx.payload.action.movesTokens = true ∧
      ReserveRoom poolId s tx.sender tx.payload.action
  | _ => False

theorem Event.stocked {event : Event} (h : event.Step s t) (hliquid : Liquid poolId s event)
    (hs : ∃ pool, Stocked poolId lpTokenId s pool) : ∃ pool, Stocked poolId lpTokenId t pool := by
  cases event with
  | transaction =>
    obtain ⟨-, hkind, hroom⟩ := hliquid
    obtain ⟨_, hrun⟩ := h
    obtain ⟨_, hpool⟩ := hs
    exact (outcome_of_executed hrun).stocked hpool hkind hroom
  | release | settle | slash => cases hliquid

/-- The liquidity tokens that are held and those locked for ever are those that the pool counts,
both reserves are positive, and no removal takes all of the tokens or of a reserve. -/
structure Counted (poolId lpTokenId : H256) (s : StateDB) (pool : PoolState) : Prop where
  found : s.pool poolId = some pool
  token : pool.lpTokenId = lpTokenId
  supply : s.holdings.supply lpTokenId + PoolState.minimumLiquidity.toNat =
    pool.lpTotalSupply.raw.toNat
  reserveA : 0 < pool.reserveA.raw.toNat
  reserveB : 0 < pool.reserveB.raw.toNat
  removal : ∀ sender lpAmount minA minB amounts t,
    (removeLiquidity sender poolId lpAmount minA minB).run s = some (.ok amounts, t) →
    lpAmount.raw.toNat < pool.lpTotalSupply.raw.toNat ∧ amounts.1.raw.toNat <
      pool.reserveA.raw.toNat ∧ amounts.2.raw.toNat < pool.reserveB.raw.toNat

/-- From the creation of a pool on, in a state whose books are in order. -/
theorem liquidity_tokens_counted {s₀ : StateDB} {events : List Event} {sender : Address}
    {tokenA tokenB : H256} {amountA amountB : Amount} {epoch : Epoch} (hbooks : Books s₀)
    (hcreate : (createPool sender tokenA tokenB amountA amountB epoch).run s₀ = some (.ok pool, s))
    (h : Run (Within (Liquid pool.poolId) fun s event t => Event.Step s event t) s events t) :
    ∃ pool', Counted pool.poolId pool.lpTokenId t pool' := by
  obtain ⟨pool', hs⟩ :=
    h.invariant (I := fun s => ∃ pool', Stocked pool.poolId pool.lpTokenId s pool')
      (fun _ _ _ hstep hs => Event.stocked hstep.2 hstep.1 hs) ⟨pool,
      stocked_of_createPool hbooks hcreate⟩
  exact ⟨pool', hs.found, hs.token, hs.supply, hs.sound.backed.a_pos, hs.sound.backed.b_pos,
    fun _ _ _ _ _ _ hremove => hs.removal hremove⟩

end Runs

end Executor

/-! ## A pool with vast reserves -/

namespace Demo

open Executor

/-- A genesis with two rich accounts. -/
def richConfig : GenesisConfig :=
  { config 10 with
    allocations := [⟨key.address, ⟨2 ^ 127 + 2 ^ 100⟩⟩, ⟨stranger.address, ⟨2 ^ 127 + 2 ^ 100⟩⟩] }

/-- The revenue token of the genesis, its pool with the coin, and the liquidity token of that
pool. -/
def revenueId : H256 := blake3Hash (ascii "asset:VTT-REV")

def revenuePool : H256 := Dex.computePoolId .zero revenueId

def revenueShare : H256 := Dex.computeLpTokenId revenuePool

/-- The validator creates the pool, and then something happens. -/
def onRevenuePool (events : List Event) (check : PoolState → StateDB → Bool)
    (genesis : Block × StateDB) : Bool :=
  match (Dex.createPool key.address .zero revenueId ⟨2 ^ 127⟩ ⟨5000⟩ 0).run genesis.2 with
  | some (.ok pool, s) =>
    decide (pool.poolId = revenuePool) && (happenAll events s).any (check pool)
  | _ => false

theorem exists_of_onRevenuePool {events : List Event} {check : PoolState → StateDB → Bool}
    {genesis : Block × StateDB} (h : onRevenuePool events check genesis = true) :
    ∃ pool s t, (Dex.createPool key.address .zero revenueId ⟨2 ^ 127⟩ ⟨5000⟩ 0).run genesis.2 =
      some (.ok pool, s) ∧
      pool.poolId = revenuePool ∧ happenAll events s = some t ∧ check pool t = true := by
  unfold onRevenuePool at h
  split at h
  · rename_i pool s hcreate
    simp only [Bool.and_eq_true, decide_eq_true_eq, any_eq_true] at h
    obtain ⟨hid, t, hrun, hcheck⟩ := h
    exact ⟨pool, s, t, hcreate, hid, hrun, hcheck⟩
  · cases h

/-- The validator sends liquidity tokens to the other account. -/
def sharing : Event := .transaction context
    (numbered 0 (.assetTransfer revenueShare stranger.address ⟨10 ^ 20⟩))

/-- A transfer adds nothing to a reserve. -/
theorem liquid_sharing (s : StateDB) : Liquid revenuePool s sharing := by
  refine ⟨by decide +kernel, rfl, fun pool _ => ⟨?_, ?_⟩⟩
  · exact pool.reserveA.raw.isLt
  · exact pool.reserveB.raw.isLt

/-- The liquidity tokens are counted after one of them changed hands. -/
theorem shared_tokens_counted : ∃ block genesis pool s t pool',
    Genesis.buildGenesis richConfig = some (block, genesis) ∧
    (Dex.createPool key.address .zero revenueId ⟨2 ^ 127⟩ ⟨5000⟩ 0).run genesis =
      some (.ok pool, s) ∧
    Run (Within (Liquid pool.poolId) fun s event t => Event.Step s event t) s [sharing] t ∧
    t.holdings.held (revenueShare, stranger.address) = 10 ^ 20 ∧
      Counted pool.poolId pool.lpTokenId t pool' := by
  obtain ⟨⟨block, genesis⟩, hbuild, hcheck⟩ : ∃ genesis, Genesis.buildGenesis richConfig =
      some genesis ∧ onRevenuePool [sharing]
        (fun _ t => decide (t.holdings.held (revenueShare, stranger.address) = 10 ^ 20)) genesis =
        true :=
    (Option.any_eq_true ..).1 (by decide +kernel)
  obtain ⟨pool, s, t, hcreate, hid, hall, hheld⟩ := exists_of_onRevenuePool hcheck
  have hrun : Run (Within (Liquid pool.poolId) fun s event t => Event.Step s event t) s
      [sharing] t :=
    .single ⟨hid ▸ liquid_sharing s, step_of_happenAll hall⟩
  obtain ⟨pool', hcounted⟩ :=
    liquidity_tokens_counted (Circulates.buildGenesis hbuild).books hcreate hrun
  exact ⟨block, genesis, pool, s, t, pool', hbuild, hcreate, hrun,
    of_decide_eq_true hheld, hcounted⟩

/-- The other account gets revenue tokens and adds as much liquidity as there was. -/
def doubling : List Event :=
  [.transaction context (numbered 0 (.assetTransfer revenueId stranger.address ⟨5000⟩)),
    .transaction context (strange 0 (.addLiquidity revenuePool ⟨2 ^ 127⟩ ⟨5000⟩ .zero))]

/-- The pool has none of the coin. -/
def drained (pool : PoolState) (t : StateDB) : Bool :=
  (t.pool pool.poolId).any fun pool' => decide (pool'.reserveA.raw.toNat = 0)

/-- Adding liquidity leaves a pool without a reserve. -/
theorem doubled_reserve_lost : ∃ block genesis pool s t,
    Genesis.buildGenesis richConfig = some (block, genesis) ∧ genesis.InMemory ∧ Books genesis ∧
    (Dex.createPool key.address .zero revenueId ⟨2 ^ 127⟩ ⟨5000⟩ 0).run genesis =
      some (.ok pool, s) ∧
    (∀ event ∈ doubling, ∃ ctx tx, event = .transaction ctx tx ∧ tx.sender ≠ .zero ∧
      tx.payload.action.movesTokens = true) ∧
    Run (fun s event t => Event.Step s event t) s doubling t ∧
    ¬ ∃ pool', Counted pool.poolId pool.lpTokenId t pool' := by
  obtain ⟨⟨block, genesis⟩, hbuild, hcheck⟩ : ∃ genesis, Genesis.buildGenesis richConfig =
      some genesis ∧ (genesis.2.storage.isNone && onRevenuePool doubling drained genesis) = true :=
    (Option.any_eq_true ..).1 (by decide +kernel)
  obtain ⟨hmemory, hcheck⟩ := Bool.and_eq_true_iff.1 hcheck
  obtain ⟨pool, s, t, hcreate, _, hall, hdrained⟩ := exists_of_onRevenuePool hcheck
  have hbooks := (Circulates.buildGenesis hbuild).books
  refine ⟨block, genesis, pool, s, t, hbuild, ⟨Option.isNone_iff_eq_none.1 hmemory, hbooks.keyed⟩,
    hbooks, hcreate, ?_, run_of_happenAll hall, ?_⟩
  · intro _ hevent
    simp only [doubling, List.mem_cons, List.not_mem_nil, or_false] at hevent
    rcases hevent with rfl | rfl
    · exact ⟨_, _, rfl, by decide +kernel, rfl⟩
    · exact ⟨_, _, rfl, by decide +kernel, rfl⟩
  · rintro ⟨_, hcounted⟩
    obtain ⟨_, hfound, hzero⟩ := (Option.any_eq_true _ _).1 hdrained
    obtain rfl := Option.some.inj (hcounted.found.symm.trans hfound)
    exact absurd (of_decide_eq_true hzero) (Nat.pos_iff_ne_zero.1 hcounted.reserveA)

end Demo

end Vtt
