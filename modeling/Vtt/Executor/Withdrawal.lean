import Vtt.Executor.Redemption

/-!
# Withdrawals from pools of an asset under redemption

The payment of an asset is an ordinary transfer from the account that keeps the tokens of all pools,
and transfers need a tradeable asset. While an asset is pending redemption its tokens therefore stay
in the pools, unless the part is rounded down to nothing.
-/

namespace Vtt

open Lib PoolState Executor Option BitVec Except

namespace Dex

open Confined StateDB

/-! ## Payments out of a pool -/

section Payments

variable {s t : StateDB} {recipient : Address} {token : H256} {amount : Amount}

/-- Tokens can be paid out of a pool. -/
def Payable (s : StateDB) (recipient : Address) (token : H256) (amount : Amount) : Prop :=
  if isNative token then (s.getBalance recipient).raw.toNat + amount.raw.toNat < 2 ^ 128
  else s.Transferable token .zero recipient amount

theorem exists_transferTokenOut_iff (hkeyed : s.holdings.Keyed) :
    (∃ t, (transferTokenOut recipient token amount).run s = some (.ok (), t)) ↔
      Payable s recipient token amount := by
  unfold transferTokenOut Payable
  split
  · simp only [returns_mapError_iff, Db.returns_addBalance_iff]
    exact ⟨fun ⟨_, h, _⟩ => h, fun h => ⟨_, h, rfl⟩⟩
  · simp only [returns_mapError_iff]
    exact Db.exists_transferAsset_iff hkeyed

/-- Liquidity tokens are burned exactly if their owner has them available, and what the owner
holds fits into a word. -/
theorem exists_burnLpFrom_iff {sender : Address} (hkeyed : s.holdings.Keyed) :
    (∃ t, (burnLpFrom token sender amount).run s = some (.ok (), t)) ↔
      amount.raw.toNat ≤ s.holdings.available (token, sender) ∧
        s.holdings.held (token, sender) < 2 ^ 128 := by
  rw [← Db.exists_putDebited_iff (ε := DexError) hkeyed]
  constructor
  · rintro ⟨t, h⟩
    obtain ⟨debited, hdebit, hput⟩ := ok_of_okOr (o := (s.getOwnership token sender).debit amount) h
    exact ⟨debited, t, hdebit, hput⟩
  · rintro ⟨debited, t, hdebit, hput⟩
    exact ⟨t, (returns_okOr_iff (o := (s.getOwnership token sender).debit amount)).2
      ⟨debited, hdebit, hput⟩⟩

theorem sameAccounts_transferAsset (assetId : H256) (source dest : Address) (amount : Amount) :
    Moves SameAccounts (Db.transferAsset assetId source dest amount) :=
  .ite (.pure _) <| .found fun _ _ => .guarded <|
    .found fun _ _ => .bind (sameAccounts_putOwnership _) fun _ => .bind .view fun _ =>
    .bind (.unwrap _) fun _ => sameAccounts_putOwnership _

theorem sameAccounts_burnLpFrom (lpTokenId : H256) (sender : Address) (amount : Amount) :
    Moves SameAccounts (burnLpFrom lpTokenId sender amount) :=
  .found fun _ _ => sameAccounts_putOwnership _

/-- A payment in native tokens goes to the balance, and no other does. -/
theorem getBalance_of_transferTokenOut
    (h : (transferTokenOut recipient token amount).run s = some (.ok (), t)) :
    (t.getBalance recipient).raw.toNat =
      (s.getBalance recipient).raw.toNat + if isNative token then amount.raw.toNat else 0 := by
  unfold transferTokenOut at h
  split at h
  · rename_i hnative
    obtain ⟨hfits, rfl⟩ := Db.returns_addBalance_iff.1 (returns_mapError_iff.1 h)
    rw [if_pos hnative]
    exact (credited_iff ..).2 (.inr ⟨rfl, hfits⟩)
  · rename_i hasset
    have haccounts := sameAccounts_transferAsset _ _ _ _ (returns_mapError_iff.1 h)
    rw [if_neg hasset, getBalance, haccounts.getAccount]
    rfl

end Payments

/-! ## Removing liquidity -/

section Removal

/-- The tokens of a pool, by side. -/
def tokenOf (pool : PoolState) (first : Bool) : H256 := if first then pool.tokenA else pool.tokenB

def reserveOf (pool : PoolState) (first : Bool) : Amount :=
  if first then pool.reserveA else pool.reserveB

/-- The part of a reserve that liquidity tokens stand for, rounded down. -/
def entitled (pool : PoolState) (lpAmount : Amount) (first : Bool) : ℕ :=
  lpAmount.raw.toNat * (reserveOf pool first).raw.toNat / pool.lpTotalSupply.raw.toNat

/-- The same as an amount. -/
def entitlement (pool : PoolState) (lpAmount : Amount) (first : Bool) : Amount :=
  ⟨BitVec.ofNat 128 (entitled pool lpAmount first)⟩

variable {s t u : StateDB} {sender : Address} {poolId : H256} {pool : PoolState} {lpAmount : Amount}

theorem divU128_iff (first : Bool) {q : U128} :
    (U256.mulU128 lpAmount.raw (reserveOf pool first).raw).divU128 pool.lpTotalSupply.raw = .ok q ↔
      pool.lpTotalSupply.raw ≠ 0 ∧ entitled pool lpAmount first < 2 ^ 128 ∧
        q = (entitlement pool lpAmount first).raw := by
  rw [U256.divU128_mulU128]
  constructor
  · intro h
    split at h
    · rename_i hexact
      exact ⟨hexact.1, hexact.2, (ok.inj h).symm⟩
    · cases h
  · rintro ⟨hnonzero, hfits, rfl⟩
    exact if_pos ⟨hnonzero, hfits⟩

theorem keyed_of_payment {flows : List Flow} (h : Payment flows s t) (hkeyed : s.holdings.Keyed) :
    t.holdings.Keyed :=
  Flow.keyed_of_runAll (h.flows hkeyed) hkeyed

/-- What removing liquidity needs: liquidity tokens that can be burned, parts that fit into a word,
and payments that can be made one after the other. -/
structure Removable (s : StateDB) (sender : Address) (pool : PoolState) (lpAmount : Amount)
    (u v : StateDB) : Prop where
  running : s.dexPaused = false
  some : lpAmount.raw ≠ 0
  supply : pool.lpTotalSupply.raw ≠ 0
  fits : ∀ first, entitled pool lpAmount first < 2 ^ 128
  burned : (burnLpFrom pool.lpTokenId sender lpAmount).run s = .some (.ok (), u)
  first : (transferTokenOut sender pool.tokenA (entitlement pool lpAmount true)).run u =
    .some (.ok (), v)

/-- Liquidity is removed in these steps, and all of it is paid. -/
theorem returns_removeLiquidity_iff (hpool : s.pool poolId = some pool)
    {amounts : Amount × Amount} :
    (removeLiquidity sender poolId lpAmount .zero .zero).run s = some (.ok amounts, t) ↔
      ∃ u v w, Removable s sender pool lpAmount u v ∧
        (transferTokenOut sender pool.tokenB (entitlement pool lpAmount false)).run v =
          some (.ok (), w) ∧
        (savePool (withdrawn pool lpAmount.raw (entitlement pool lpAmount true).raw
          (entitlement pool lpAmount false).raw)).run w = some (.ok (), t) ∧
        amounts = (entitlement pool lpAmount true, entitlement pool lpAmount false) := by
  constructor
  · intro h
    obtain ⟨hrunning, h⟩ := ok_of_require (p := (!s.dexPaused) = true) h
    obtain ⟨_, hpool', h⟩ := ok_of_loadPool h
    obtain rfl := some.inj (hpool.symm.trans hpool')
    obtain ⟨hsome, h⟩ := ok_of_require h
    obtain ⟨_, hamountA, h⟩ := ok_of_ofExcept h
    obtain ⟨_, hamountB, h⟩ := ok_of_ofExcept h
    obtain ⟨hsupply, hfitsA, rfl⟩ := (divU128_iff true).1 hamountA
    obtain ⟨-, hfitsB, rfl⟩ := (divU128_iff false).1 hamountB
    obtain ⟨-, h⟩ := ok_of_require h
    obtain ⟨-, h⟩ := ok_of_require h
    obtain ⟨_, u, hburn, h⟩ := run_bind_ok h
    obtain ⟨_, v, houtA, h⟩ := run_bind_ok h
    obtain ⟨_, w, houtB, h⟩ := run_bind_ok h
    obtain ⟨_, hsave, rfl⟩ := ok_of_last h
    have hfits : ∀ first, entitled pool lpAmount first < 2 ^ 128 := Bool.rec hfitsB hfitsA
    exact ⟨u, v, w, ⟨by simpa using hrunning, hsome, hsupply, hfits, hburn, houtA⟩,
      houtB, hsave, rfl⟩
  · rintro ⟨u, v, w, hremovable, houtB, hsave, rfl⟩
    refine (returns_require_iff (p := (!s.dexPaused) = true)).2 ⟨?_, ?_⟩
    · rw [hremovable.running]
      rfl
    refine (returns_okOr_iff (o := s.pool poolId)).2 ⟨pool, hpool, ?_⟩
    refine returns_require_iff.2 ⟨hremovable.some, ?_⟩
    refine returns_ofExcept_iff.2 ⟨_,
      (divU128_iff true).2 ⟨hremovable.supply, hremovable.fits _, rfl⟩, ?_⟩
    refine returns_ofExcept_iff.2 ⟨_,
      (divU128_iff false).2 ⟨hremovable.supply, hremovable.fits _, rfl⟩, ?_⟩
    refine returns_require_iff.2 ⟨le_def.2 (Nat.zero_le _), ?_⟩
    refine returns_require_iff.2 ⟨le_def.2 (Nat.zero_le _), ?_⟩
    refine returns_bind_iff.2 ⟨(), u, hremovable.burned, ?_⟩
    refine returns_bind_iff.2 ⟨(), v, hremovable.first, ?_⟩
    exact returns_bind_iff.2 ⟨(), w, houtB, returns_bind_iff.2 ⟨(), t, hsave, rfl⟩⟩

end Removal

/-! ## Assets that are not tradeable -/

section Untradeable

variable {s t : StateDB} {recipient : Address} {token : H256} {amount : Amount}
  {asset : AssetRecord}

/-- Nothing is paid in an asset that is not tradeable. -/
theorem payable_iff_of_untradeable (htoken : token ≠ .zero) (hasset : s.getAsset token = some asset)
    (huntradeable : asset.isTradeable = false) : Payable s recipient token amount ↔
      amount.raw = 0 := by
  have hnative : ¬ isNative token = true := fun h => htoken (beq_iff_eq.1 h)
  rw [Payable, if_neg hnative]
  constructor
  · rintro (hzero | ⟨⟨_, hasset', htradeable⟩, -⟩)
    · exact hzero
    · obtain rfl := some.inj (hasset.symm.trans hasset')
      rw [huntradeable] at htradeable
      cases htradeable
  · exact .inl

/-- Paying nothing in an asset does nothing. -/
theorem run_transferTokenOut_zero (htoken : token ≠ .zero) (hzero : amount.raw = 0) :
    (transferTokenOut recipient token amount).run s = some (.ok (), s) := by
  have hnative : ¬ isNative token = true := fun h => htoken (beq_iff_eq.1 h)
  rw [transferTokenOut, if_neg hnative]
  refine returns_mapError_iff.2 ?_
  rw [Db.transferAsset, if_pos (show amount.isZero = true from beq_iff_eq.2 hzero)]
  rfl

theorem entitlement_eq_zero_iff {pool : PoolState} {lpAmount : Amount} {first : Bool}
    (hfits : entitled pool lpAmount first < 2 ^ 128) :
    (entitlement pool lpAmount first).raw = 0 ↔ entitled pool lpAmount first = 0 := by
  constructor
  · intro h
    exact (Nat.mod_eq_of_lt hfits).symm.trans (congrArg BitVec.toNat h)
  · intro h
    refine eq_of_toNat_eq ?_
    exact (Nat.mod_eq_of_lt hfits).trans h

end Untradeable

end Dex

namespace Executor

open Confined StateDB Dex

/-! ## Withdrawals -/

section Withdrawals

variable {ctx : BlockContext} {tx : SignedTransaction} {s t c u v w : StateDB}
  {sender : Address} {poolId : H256} {pool : PoolState} {lpAmount : Amount} {first : Bool}
  {asset : AssetRecord}

/-- The balance after the steps of a withdrawal. -/
theorem getBalance_of_removable (h : Removable c sender pool lpAmount u v)
    (hout : (transferTokenOut sender pool.tokenB (entitlement pool lpAmount false)).run v =
      some (.ok (), w)) :
    (w.getBalance sender).raw.toNat = (c.getBalance sender).raw.toNat +
      (if isNative pool.tokenA then entitled pool lpAmount true else 0) +
      if isNative pool.tokenB then entitled pool lpAmount false else 0 := by
  have hburned : u.getBalance sender = c.getBalance sender :=
    congrArg AccountState.balance ((sameAccounts_burnLpFrom _ _ _ h.burned).getAccount sender)
  have hvalue (first : Bool) : (entitlement pool lpAmount first).raw.toNat =
      entitled pool lpAmount first :=
    Nat.mod_eq_of_lt (h.fits first)
  rw [getBalance_of_transferTokenOut hout, getBalance_of_transferTokenOut h.first, hburned,
    hvalue, hvalue]

theorem dexPaused_charge (fee : Amount) : (s.charge sender fee).dexPaused = s.dexPaused :=
  charge_induction _ _ _ rfl fun _ _ => id

theorem untradeable_of_pending (h : asset.status = .redemptionPending) :
    asset.isTradeable = false := by
  rw [AssetRecord.isTradeable, h]
  rfl

/-- Charging a sender leaves pools, assets and the keys of the holdings alone. -/
theorem charge_pool (sender : Address) (fee : Amount) (hkeyed : s.holdings.Keyed)
    (hpool : s.pool poolId = some pool) {token : H256} (hasset : s.getAsset token = some asset) :
    (s.charge sender fee).holdings.Keyed ∧ (s.charge sender fee).pool poolId = some pool ∧
      (s.charge sender fee).getAsset token = some asset := by
  obtain ⟨hholdings, hpools, hassets⟩ := ledger_charge s sender fee
  refine ⟨hholdings ▸ hkeyed, ?_, ?_⟩
  · rw [StateDB.pool, hpools]
    exact hpool
  · rw [getAsset, hassets]
    exact hasset

variable [Crypto] [Wasm] [Environment]

/-- The sender gave the liquidity tokens and has the parts of both reserves, where native tokens go
to the balance. -/
structure Withdrawn (fee : Amount) (sender : Address) (pool : PoolState) (lpAmount : Amount)
    (s t : StateDB) : Prop where
  flows : Flows ([.debit (pool.lpTokenId, sender) lpAmount .zero] ++
    paidOut sender pool.tokenA (entitlement pool lpAmount true) ++
    paidOut sender pool.tokenB (entitlement pool lpAmount false)) s t
  balance : (t.getBalance sender).raw.toNat + fee.raw.toNat = (s.getBalance sender).raw.toNat +
    (if isNative pool.tokenA then entitled pool lpAmount true else 0) +
    if isNative pool.tokenB then entitled pool lpAmount false else 0

/-- The liquidity tokens are gone, and nothing else is. -/
structure Burned (s : StateDB) (sender : Address) (pool : PoolState) (lpAmount : Amount)
    (u : StateDB) : Prop where
  flows : Flows [.debit (pool.lpTokenId, sender) lpAmount .zero] s u
  assets : u.assets = s.assets
  accounts : SameAccounts s u

omit [Crypto] [Wasm] [Environment] in
theorem burned_of_run (hkeyed : c.holdings.Keyed)
    (h : (burnLpFrom pool.lpTokenId sender lpAmount).run c = some (.ok (), u)) :
    Burned c sender pool lpAmount u := by
  have hburn := payment_of_burnLpFrom h
  exact ⟨hburn.flows hkeyed, (Paid.same hburn.paid).2, sameAccounts_burnLpFrom _ _ _ h⟩

omit [Crypto] [Wasm] [Environment] in
/-- What can be paid then does not depend on anything else. -/
theorem Burned.payable_iff (h : Burned c sender pool lpAmount u)
    (h' : Burned c sender pool lpAmount v) {token : H256} {amount : Amount} :
    Payable u sender token amount ↔ Payable v sender token amount := by
  have hholdings : u.holdings = v.holdings := some.inj (h.flows.symm.trans h'.flows)
  have hassets : u.assets = v.assets := h.assets.trans h'.assets.symm
  unfold Payable Transferable getAsset getBalance
  rw [hholdings, hassets, h.accounts.getAccount, h'.accounts.getAccount]

/-- What a withdrawal from a pool needs, one of whose tokens cannot be transferred: the liquidity
tokens, a part of that token that is rounded down to nothing, and a payment of the other part that
can be made once the liquidity tokens are gone. -/
structure Withdrawable (s : StateDB) (sender : Address) (pool : PoolState) (lpAmount : Amount)
    (first : Bool) : Prop where
  some : lpAmount.raw ≠ 0
  supply : pool.lpTotalSupply.raw ≠ 0
  fits : ∀ side, entitled pool lpAmount side < 2 ^ 128
  nothing : entitled pool lpAmount first = 0
  owned : lpAmount.raw.toNat ≤ s.holdings.available (pool.lpTokenId, sender)
  held : s.holdings.held (pool.lpTokenId, sender) < 2 ^ 128
  other : ∀ u, Burned s sender pool lpAmount u →
    Payable u sender (tokenOf pool !first) (entitlement pool lpAmount !first)

omit [Crypto] [Wasm] [Environment] in
/-- The steps of a withdrawal can be made exactly if nothing is to be paid of the token that cannot
be transferred. -/
theorem exists_removal_iff (hkeyed : c.holdings.Keyed) (hrunning : c.dexPaused = false)
    (htoken : tokenOf pool first ≠ .zero) (hasset : c.getAsset (tokenOf pool first) = some asset)
    (huntradeable : asset.isTradeable = false) :
    (∃ u v w, Removable c sender pool lpAmount u v ∧
      (transferTokenOut sender pool.tokenB (entitlement pool lpAmount false)).run v =
        some (.ok (), w)) ↔
      Withdrawable c sender pool lpAmount first := by
  -- payments leave the asset as it is, and the records under their keys
  have hsame {flows : List Flow} {u : StateDB} (h : Payment flows c u) :
      u.getAsset (tokenOf pool first) = some asset ∧ u.holdings.Keyed := by
    refine ⟨?_, keyed_of_payment h hkeyed⟩
    rw [getAsset, (Paid.same h.paid).2]
    exact hasset
  constructor
  · rintro ⟨u, v, w, h, hout⟩
    have hburn := payment_of_burnLpFrom h.burned
    have hpaid := hburn.append (payment_of_transferTokenOut h.first)
    obtain ⟨howned, hheld⟩ := (exists_burnLpFrom_iff hkeyed).1 ⟨u, h.burned⟩
    have hburned := burned_of_run hkeyed h.burned
    have hpayable := (exists_transferTokenOut_iff (hsame hburn).2).1 ⟨v, h.first⟩
    have hpayable' := (exists_transferTokenOut_iff (hsame hpaid).2).1 ⟨w, hout⟩
    cases first with
    | true =>
      have hzero := (payable_iff_of_untradeable htoken (hsame hburn).1 huntradeable).1 hpayable
      -- the first payment does nothing
      have hsecond : some (ok (), u) = some (ok (), v) :=
        (run_transferTokenOut_zero htoken hzero).symm.trans h.first
      obtain rfl := (Prod.mk.inj (some.inj hsecond)).2
      exact ⟨h.some, h.supply, h.fits, (entitlement_eq_zero_iff (h.fits true)).1 hzero,
        howned, hheld, fun _ hburned' => (hburned.payable_iff hburned').1 hpayable'⟩
    | false =>
      have hzero := (payable_iff_of_untradeable htoken (hsame hpaid).1 huntradeable).1 hpayable'
      exact ⟨h.some, h.supply, h.fits, (entitlement_eq_zero_iff (h.fits false)).1 hzero,
        howned, hheld, fun _ hburned' => (hburned.payable_iff hburned').1 hpayable⟩
  · rintro ⟨hsome, hsupply, hfits, hnothing, howned, hheld, hother⟩
    obtain ⟨u, hburned⟩ := (exists_burnLpFrom_iff hkeyed).2 ⟨howned, hheld⟩
    have hburn := payment_of_burnLpFrom hburned
    have hpayable := hother u (burned_of_run hkeyed hburned)
    have hzero := (entitlement_eq_zero_iff (hfits first)).2 hnothing
    obtain ⟨v, hout⟩ := (exists_transferTokenOut_iff (hsame hburn).2).2 hpayable
    cases first with
    | true => exact ⟨u, u, v,
      ⟨hrunning, hsome, hsupply, hfits, hburned, run_transferTokenOut_zero htoken hzero⟩, hout⟩
    | false => exact ⟨u, v, v, ⟨hrunning, hsome, hsupply, hfits, hburned, hout⟩,
      run_transferTokenOut_zero htoken hzero⟩

/-- The operation of a withdrawal. -/
theorem returns_removal_iff
    (haction : tx.payload.action = .removeLiquidity poolId lpAmount .zero .zero) :
    (∃ logs, (operation ctx tx).run c = some (.ok logs, t)) ↔
      ∃ amounts, (removeLiquidity tx.sender poolId lpAmount .zero .zero).run c =
        some (.ok amounts, t) := by
  have hoperation : operation ctx tx = (do
      let out ← onDex (Dex.removeLiquidity tx.sender poolId lpAmount .zero .zero)
      pure [event tx.sender "RemoveLiquidity" [poolId]
        (Borsh.serialize (out.1.raw, out.2.raw))]) := by
    rw [operation, haction]
    rfl
  rw [hoperation]
  constructor
  · rintro ⟨_, h⟩
    obtain ⟨amounts, hremove, -⟩ := ok_of_last h
    exact ⟨amounts, returns_mapError_iff.1 hremove⟩
  · rintro ⟨amounts, h⟩
    exact ⟨_, returns_bind_iff.2 ⟨amounts, t, returns_mapError_iff.2 h, rfl⟩⟩

/-- A withdrawal that succeeds had what it needs. -/
theorem withdrawable_of_succeeds (h : Succeeds ctx tx s t)
    (haction : tx.payload.action = .removeLiquidity poolId lpAmount .zero .zero)
    (hrunning : s.dexPaused = false) (hkeyed : s.holdings.Keyed) (hpool : s.pool poolId = some pool)
    (htoken : tokenOf pool first ≠ .zero) (hasset : s.getAsset (tokenOf pool first) = some asset)
    (hpending : asset.status = .redemptionPending) :
    Withdrawable (s.charge tx.sender (gasFee tx ctx.gasConfig)) tx.sender pool lpAmount first := by
  obtain ⟨-, hlogs⟩ := succeeds_iff.1 h
  obtain ⟨hkeyed', hpool', hasset'⟩ :=
    charge_pool tx.sender (gasFee tx ctx.gasConfig) hkeyed hpool hasset
  obtain ⟨_, hremove⟩ := (returns_removal_iff haction).1 hlogs
  obtain ⟨u, v, w, hremovable, hout, -⟩ := (returns_removeLiquidity_iff hpool').1 hremove
  exact (exists_removal_iff hkeyed' ((dexPaused_charge ..).trans hrunning) htoken hasset'
    (untradeable_of_pending hpending)).1 ⟨u, v, w, hremovable, hout⟩

/-- While one of a pool's tokens is pending redemption, liquidity is paid out exactly if the part of
that token is nothing and the other part can be paid. -/
theorem withdrawal_paid_iff (hready : Ready ctx s tx)
    (haction : tx.payload.action = .removeLiquidity poolId lpAmount .zero .zero)
    (hrunning : s.dexPaused = false) (hkeyed : s.holdings.Keyed) (hpool : s.pool poolId = some pool)
    (htoken : tokenOf pool first ≠ .zero) (hasset : s.getAsset (tokenOf pool first) = some asset)
    (hpending : asset.status = .redemptionPending) :
    (∃ t, Succeeds ctx tx s t ∧ Withdrawn (gasFee tx ctx.gasConfig) tx.sender pool lpAmount s t) ↔
      Withdrawable (s.charge tx.sender (gasFee tx ctx.gasConfig)) tx.sender pool
        lpAmount first := by
  constructor
  · rintro ⟨_, hsucceeds, -⟩
    exact withdrawable_of_succeeds hsucceeds haction hrunning hkeyed hpool htoken hasset hpending
  intro hwithdrawable
  obtain ⟨hkeyed', hpool', hasset'⟩ :=
    charge_pool tx.sender (gasFee tx ctx.gasConfig) hkeyed hpool hasset
  obtain ⟨u, v, w, h, hout⟩ :=
    (exists_removal_iff hkeyed' ((dexPaused_charge ..).trans hrunning) htoken hasset'
      (untradeable_of_pending hpending)).2 hwithdrawable
  have hremove := (returns_removeLiquidity_iff hpool').2 ⟨u, v, w, h, hout, rfl, rfl⟩
  refine ⟨_, succeeds_iff.2 ⟨hready, (returns_removal_iff haction).2 ⟨_, hremove⟩⟩, ?_, ?_⟩
  · -- the tokens flow from the state before the charge, which has the same holdings
    have hflows :=
      (((payment_of_burnLpFrom h.burned).append (payment_of_transferTokenOut h.first)).append
        (payment_of_transferTokenOut hout)).flows hkeyed'
    unfold Flows at hflows
    rw [(ledger_charge ..).1] at hflows
    exact hflows
  · have haccounts :=
      sameAccounts_putPoolRaw w pool.poolId
        (Borsh.serialize (withdrawn pool lpAmount.raw (entitlement pool lpAmount true).raw
        (entitlement pool lpAmount false).raw))
    have hsaved :=
      congrArg (fun account => account.balance.raw.toNat) (haccounts.getAccount tx.sender)
    refine (congrArg (· + _) hsaved).trans ?_
    show (w.getBalance tx.sender).raw.toNat + _ = _
    rw [getBalance_of_removable h hout, ← hready.getBalance_charge]
    omega

end Withdrawals

end Executor

/-! ## On a small state -/

namespace Demo

open Executor Dex

/-- The validator puts a part of an asset into a pool with native tokens, and disposes of the
asset. -/
def pooled (amountA amountB : Amount) : List (BlockContext × SignedTransaction) :=
  [(context, numbered 0 (.createAssetClass "Estate" "EST" "" ⟨20000⟩ 0 "other" "IT" "Estate Ltd")),
    (context, numbered 1 (.proposeAssetAction estate (.disposeAsset "sold") "sell")),
    (context, numbered 2 (.createPool estate .zero amountA amountB)),
    (context, numbered 3 (.voteAssetProposal disposalId .yes)),
    (afterVote, numbered 4 (.finalizeAssetProposal disposalId))]

def estatePool : H256 := computePoolId estate .zero

/-- The withdrawal that follows. -/
def withdrawTx : SignedTransaction := numbered 5 (.removeLiquidity estatePool ⟨1000⟩ .zero .zero)

/-- A pool has the asset, which is pending redemption, and the validator has liquidity tokens to
give back. -/
structure Pooled (s : StateDB) (pool : PoolState) (asset : AssetRecord) : Prop where
  ready : Ready afterVote s withdrawTx
  running : s.dexPaused = false
  found : s.pool estatePool = some pool
  token : tokenOf pool true ≠ .zero
  listed : s.getAsset (tokenOf pool true) = some asset
  pending : asset.status = .redemptionPending
  owned : (1000 : ℕ) ≤ s.holdings.available (pool.lpTokenId, withdrawTx.sender)

/-- The same as a check, with another check of the state. -/
def isPooled (check : StateDB → Bool) (s : StateDB) : Bool :=
  Ready afterVote s withdrawTx && s.dexPaused = false && (s.pool estatePool).any (fun pool =>
    tokenOf pool true ≠ .zero && (s.getAsset (tokenOf pool true)).any
      (·.status = .redemptionPending) && (1000 : ℕ) ≤ s.holdings.available (pool.lpTokenId,
      withdrawTx.sender)) && check s

/-- What such a check shows. -/
theorem exists_pooled (amountA amountB : Amount) (check : StateDB → Bool)
    (h : (successes (pooled amountA amountB) funded).any (isPooled check) = true) :
    ∃ s pool asset, s.holdings.Keyed ∧ Pooled s pool asset ∧ check s = true := by
  obtain ⟨s, hrun, hcheck⟩ := exists_successes _ funded _ h
  have books : Books s := hrun.invariant (fun _ _ _ hstep => Event.books hstep) books_funded
  simp only [isPooled, Bool.and_eq_true, decide_eq_true_eq, any_eq_true] at hcheck
  obtain ⟨⟨⟨hready, hrunning⟩, pool, hpool, ⟨htoken, asset, hasset, hpending⟩, howned⟩, hcheck⟩ :=
    hcheck
  exact ⟨s, pool, asset, books.keyed, ⟨hready, hrunning, hpool, htoken, hasset, hpending, howned⟩,
    hcheck⟩

/-- Liquidity tokens cannot be given back while the asset in the pool is pending redemption. -/
theorem withdrawal_blocked : ∃ s pool asset, s.holdings.Keyed ∧ Pooled s pool asset ∧
    ¬ ∃ t, Succeeds afterVote withdrawTx s t := by
  obtain ⟨s, pool, asset, hkeyed, h, hcheck⟩ := exists_pooled ⟨10000⟩ ⟨10000⟩
    (fun s => (successes [(afterVote, withdrawTx)] s).isNone) (by decide +kernel)
  refine ⟨s, pool, asset, hkeyed, h, ?_⟩
  rintro ⟨_, hsucceeds⟩
  rw [successes_singleton_iff.2 hsucceeds] at hcheck
  cases hcheck

/-- A withdrawal whose part of the asset is rounded down to nothing is paid in native tokens. -/
theorem withdrawal_of_nothing : ∃ s t pool asset, Pooled s pool asset ∧
    Succeeds afterVote withdrawTx s t ∧
    Withdrawn (gasFee withdrawTx afterVote.gasConfig) withdrawTx.sender pool ⟨1000⟩ s t := by
  obtain ⟨s, pool, asset, hkeyed, h, hcheck⟩ := exists_pooled ⟨1⟩ ⟨100000000⟩
    (fun s => (successes [(afterVote, withdrawTx)] s).isSome) (by decide +kernel)
  obtain ⟨t, hsuccess⟩ := Option.isSome_iff_exists.1 hcheck
  have haction : withdrawTx.payload.action = .removeLiquidity estatePool ⟨1000⟩ .zero .zero := rfl
  have hwithdrawable :=
    withdrawable_of_succeeds (successes_singleton_iff.1 hsuccess) haction h.running hkeyed h.found
      h.token h.listed h.pending
  obtain ⟨t, hsucceeds, hwithdrawn⟩ :=
    (withdrawal_paid_iff h.ready haction h.running hkeyed h.found h.token h.listed h.pending).2
      hwithdrawable
  exact ⟨s, t, pool, asset, h, hsucceeds, hwithdrawn⟩

end Demo

end Vtt
