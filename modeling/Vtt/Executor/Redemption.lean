import Vtt.Executor.Ballot
import Vtt.Executor.Revenue
import Vtt.Lib.ProRata
import Vtt.State.Transfers

/-!
# Redemption of an asset

When an asset is disposed of, its holders give their tokens back for a part of the redemption pool.
A claim computes the share from what is left of pool and supply at that time, with a product that
has to fit into a word.
-/

namespace Vtt

open Lib Option Amount BitVec Holdings Vtt.Flow U128

/-- The redemption pool of an asset, divided by its supply. -/
def AssetRecord.fund (asset : AssetRecord) : Fund :=
  ⟨asset.redemptionPool.raw.toNat, asset.totalSupply.raw.toNat⟩

namespace Executor

open Confined StateDB

/-! ## One claim -/

section Claim

variable {s t : StateDB} {sender : Address} {assetId : H256} {asset changed : AssetRecord}
  {holderTotal share : Amount}

/-- What an asset is after a holder was paid out. -/
theorem redeemed_eq_some_iff : redeemed asset holderTotal share = some changed ↔
      ∃ totalSupply redemptionPool, asset.totalSupply.checkedSub holderTotal = some totalSupply ∧
        asset.redemptionPool.checkedSub share = some redemptionPool ∧
        changed = { asset with
          totalSupply
          redemptionPool
          status := if totalSupply.isZero then .redeemed else asset.status } := by
  unfold redeemed
  constructor
  · intro h
    obtain ⟨totalSupply, hsupply, h⟩ := bind_eq_some_iff.1 h
    obtain ⟨redemptionPool, hpool, h⟩ := bind_eq_some_iff.1 h
    exact ⟨totalSupply, redemptionPool, hsupply, hpool, (some.inj h).symm⟩
  · rintro ⟨_, _, hsupply, hpool, rfl⟩
    rw [hsupply, hpool]
    rfl

/-- The share that the code computes is the one of the fund. -/
theorem toNat_share {product : U128}
    (h : checkedMul holderTotal.raw asset.redemptionPool.raw = some product) :
    (product / asset.totalSupply.raw).toNat = asset.fund.share holderTotal.raw.toNat := by
  rw [toNat_udiv, toNat_checkedMul h]
  rfl

/-- The fund is divided as the abstract one. -/
theorem fund_of_redeemed (h : redeemed asset holderTotal share = some changed)
    (hshare : share.raw.toNat = asset.fund.share holderTotal.raw.toNat) :
    changed.fund = asset.fund.redeem holderTotal.raw.toNat ∧ holderTotal.raw.toNat ≤
      asset.fund.supply := by
  obtain ⟨totalSupply, redemptionPool, hsupply, hpool, rfl⟩ := redeemed_eq_some_iff.1 h
  have hsupply' := toNat_checkedSub hsupply
  have hpool' := toNat_checkedSub hpool
  refine ⟨?_, ?_⟩
  · show Fund.mk redemptionPool.raw.toNat totalSupply.raw.toNat =
      Fund.mk (asset.redemptionPool.raw.toNat - asset.fund.share holderTotal.raw.toNat)
        (asset.totalSupply.raw.toNat - holderTotal.raw.toNat)
    congr 1 <;> omega
  · show holderTotal.raw.toNat ≤ asset.totalSupply.raw.toNat
    omega

/-- The last claim closes the redemption. -/
theorem status_of_redeemed (h : redeemed asset holderTotal share = some changed) :
    changed.status = if changed.fund.supply = 0 then .redeemed else asset.status := by
  obtain ⟨totalSupply, _, -, -, rfl⟩ := redeemed_eq_some_iff.1 h
  show (if totalSupply.isZero = true then _ else _) = if totalSupply.raw.toNat = 0 then _ else _
  refine if_congr ?_ rfl rfl
  rw [isZero, beq_iff_eq]
  exact ⟨fun hzero => congrArg BitVec.toNat hzero, fun hzero => BitVec.eq_of_toNat_eq hzero⟩

/-- A holder can be paid out of a fund that the tokens are part of. -/
theorem exists_redeemed (hshare : share.raw.toNat = asset.fund.share holderTotal.raw.toNat)
    (henough : holderTotal.raw.toNat ≤ asset.totalSupply.raw.toNat) :
    ∃ changed, redeemed asset holderTotal share = some changed := by
  have hle : share.raw.toNat ≤ asset.redemptionPool.raw.toNat :=
    hshare.trans_le (asset.fund.share_le_pool henough)
  obtain ⟨totalSupply, hsupply⟩ :=
    exists_checkedSub (show holderTotal ≤ asset.totalSupply from henough)
  obtain ⟨redemptionPool, hpool⟩ := exists_checkedSub (show share ≤ asset.redemptionPool from hle)
  exact ⟨_, redeemed_eq_some_iff.2 ⟨totalSupply, redemptionPool, hsupply, hpool, rfl⟩⟩

/-- A cached asset is changed in place. -/
theorem returns_changeAsset {missing : ExecutionError} {f : AssetRecord → Option AssetRecord}
    (hfound : s.getAsset assetId = some asset) (hchanged : f asset = some changed) :
    (Db.changeAsset assetId missing fun asset => Confined.unwrap (f asset)).run s =
      some (.ok (), (s.touchAsset assetId).setCachedAsset assetId changed) := by
  refine (returns_okOr_iff (o := s.getAsset assetId)).2 ⟨asset, hfound, ?_⟩
  exact (returns_unwrap_iff (o := f asset) (s := s.touchAsset assetId)).2 ⟨changed, hchanged, rfl⟩

/-- What a claim needs, and what it does to the sender's balance, the asset and the holdings. -/
structure Claimed (s : StateDB) (sender : Address) (assetId : H256) (asset : AssetRecord)
    (holderTotal : Amount) (changed : AssetRecord) (t : StateDB) : Prop where
  found : s.getAsset assetId = some asset
  pending : asset.status = .redemptionPending
  supply : asset.totalSupply.raw ≠ 0
  pool : asset.redemptionPool.raw ≠ 0
  total : (s.getOwnership assetId sender).total = some holderTotal
  holds : holderTotal.raw ≠ 0
  fits : holderTotal.raw.toNat * asset.redemptionPool.raw.toNat < 2 ^ 128
  balance : (t.getBalance sender).raw.toNat = (s.getBalance sender).raw.toNat +
    asset.fund.share holderTotal.raw.toNat
  left : t.getAsset assetId = some changed
  fund : changed.fund = asset.fund.redeem holderTotal.raw.toNat
  enough : holderTotal.raw.toNat ≤ asset.fund.supply
  status : changed.status = if changed.fund.supply = 0 then .redeemed else asset.status
  holdings : s.holdings.Keyed →
    Flows [.debit (assetId, sender) (s.getOwnership assetId sender).available
    (s.getOwnership assetId sender).locked] s t

/-- Ownership records are not accounts. -/
theorem sameAccounts_putOwnership {ε : Type} (record : OwnershipRecord) :
    Moves SameAccounts (Db.putOwnership record : DbM ε Unit) := by
  intro _ _ _ h
  rw [Db.run_putOwnership] at h
  obtain ⟨_, hput, heq⟩ := map_eq_some_iff.1 h
  cases heq
  obtain ⟨_, -, hrest⟩ := bind_eq_some_iff.1 hput
  obtain ⟨_, -, rfl⟩ := map_eq_some_iff.1 hrest
  exact sameAccounts_putOwnershipWith ..

/-- A record can be emptied if it could be added up. -/
theorem exists_burn {ε : Type} (hkeyed : s.holdings.Keyed)
    (htotal : (s.getOwnership assetId sender).total = some holderTotal) :
    ∃ u, (Db.putOwnership
      { s.getOwnership assetId sender with available := .zero, locked := .zero } :
      DbM ε Unit).run s = some (.ok (), u) := by
  refine Db.exists_putOwnership_iff.2 ⟨?_, show (0 : ℕ) < 2 ^ 128 by decide⟩
  have hkey : ((s.getOwnership assetId sender).assetId, (s.getOwnership assetId sender).owner) =
      (assetId, sender) :=
    hkeyed.recordOf (assetId, sender)
  rw [hkey]
  exact OwnershipRecord.exists_total_iff.1 ⟨holderTotal, htotal⟩

variable [Crypto]

/-- A successful claim had all it needs. -/
theorem claimed_of_run {logs : List Log}
    (h : (executeClaimRedemption sender assetId).run s = some (.ok logs, t)) :
    ∃ asset holderTotal changed, Claimed s sender assetId asset holderTotal changed t := by
  obtain ⟨-, -, -, -, -, -, -, hflows, -, -⟩ := executeClaimRedemption_ok h
  unfold executeClaimRedemption at h
  simp only [returns_require_iff, returns_cachedAsset_iff] at h
  obtain ⟨asset, hfound, hpending, hsupply, hpool, h⟩ := h
  rw [Db.getOwnership, run_view_bind, returns_unwrap_iff] at h
  obtain ⟨holderTotal, htotal, h⟩ := h
  rw [returns_require_iff, returns_okOr_iff] at h
  obtain ⟨hholds, product, hproduct, h⟩ := h
  obtain ⟨_, u, hput, h⟩ := run_bind_ok h
  obtain ⟨_, _, hcredit, h⟩ := run_bind_ok h
  obtain ⟨_, hchange, -⟩ := ok_of_last h
  obtain ⟨hfits, rfl⟩ := Db.returns_addBalance_iff.1 (returns_mapError_iff.1 hcredit)
  obtain ⟨asset', changed, hasset', hchanged, rfl⟩ := changeAsset_ok hchange
  have haccounts := sameAccounts_putOwnership _ hput
  obtain ⟨-, hassets⟩ := Db.holdings_of_putOwnership hput
  have hsame : (u.credited (sender, ⟨product / asset.totalSupply.raw⟩)).assets = s.assets :=
    (unchanged_credited u (·.assets) (fun _ _ _ => rfl) _).trans hassets
  obtain rfl : asset = asset' := by
    rw [getAsset, hsame] at hasset'
    exact some.inj (hfound.symm.trans hasset')
  have hshare := toNat_share hproduct
  obtain ⟨hfund, henough⟩ := fund_of_redeemed hchanged hshare
  refine ⟨asset, holderTotal, changed, hfound, eq_of_beq hpending, isZero_eq_false_iff.1 hsupply,
    isZero_eq_false_iff.1 hpool, htotal, isZero_eq_false_iff.1 hholds, ?_, ?_, ?_, hfund, henough,
    status_of_redeemed hchanged, hflows⟩
  · rw [← toNat_checkedMul hproduct]
    exact product.isLt
  · have hbalance : (s.getBalance sender).raw.toNat = (u.getBalance sender).raw.toNat :=
      congrArg (fun a => a.balance.raw.toNat) (haccounts.getAccount sender).symm
    rw [← hshare, hbalance]
    exact (credited_iff ..).2 (.inr ⟨rfl, hfits⟩)
  · exact Std.ExtTreeMap.getElem?_insert_self

/-- A claim whose product fits, and whose share fits into the balance, is paid. -/
theorem exists_claim (hfound : s.getAsset assetId = some asset)
    (hpending : asset.status = .redemptionPending) (hsupply : asset.totalSupply.raw ≠ 0)
    (hpool : asset.redemptionPool.raw ≠ 0) (hkeyed : s.holdings.Keyed)
    (htotal : (s.getOwnership assetId sender).total = some holderTotal)
    (hholds : holderTotal.raw ≠ 0)
    (hfits : holderTotal.raw.toNat * asset.redemptionPool.raw.toNat < 2 ^ 128)
    (henough : holderTotal.raw.toNat ≤ asset.totalSupply.raw.toNat)
    (hroom : (s.getBalance sender).raw.toNat + asset.fund.share holderTotal.raw.toNat < 2 ^ 128) :
    ∃ logs t, (executeClaimRedemption sender assetId).run s = some (.ok logs, t) := by
  obtain ⟨product, hproduct⟩ : ∃ product, checkedMul holderTotal.raw asset.redemptionPool.raw =
      some product :=
    ⟨_, if_pos hfits⟩
  have hshare := toNat_share hproduct
  obtain ⟨u, hput⟩ := exists_burn (ε := ExecutionError) hkeyed htotal
  have haccounts := sameAccounts_putOwnership _ hput
  obtain ⟨-, hassets⟩ := Db.holdings_of_putOwnership hput
  have hbalance : (u.getBalance sender).raw.toNat = (s.getBalance sender).raw.toNat :=
    congrArg (fun a => a.balance.raw.toNat) (haccounts.getAccount sender)
  have hcredit : (Db.addBalance sender ⟨product / asset.totalSupply.raw⟩).run u =
      some (.ok (), u.credited (sender, ⟨product / asset.totalSupply.raw⟩)) := by
    refine Db.returns_addBalance_iff.2 ⟨?_, rfl⟩
    rw [hbalance, hshare]
    exact hroom
  have hasset : (u.credited (sender, ⟨product / asset.totalSupply.raw⟩)).getAsset assetId =
      some asset := by
    rw [getAsset, unchanged_credited u (·.assets) (fun _ _ _ => rfl), hassets]
    exact hfound
  obtain ⟨changed, hchanged⟩ := exists_redeemed hshare henough
  refine ⟨[event sender "ClaimRedemption" [assetId]
      (Borsh.serialize (sender, holderTotal, (⟨product / asset.totalSupply.raw⟩ : Amount)))],
    ((u.credited (sender, ⟨product / asset.totalSupply.raw⟩)).touchAsset assetId).setCachedAsset
      assetId changed, ?_⟩
  refine returns_cachedAsset_iff.2 ⟨asset, hfound,
    returns_require_iff.2 ⟨beq_iff_eq.2 hpending, ?_⟩⟩
  refine returns_require_iff.2 ⟨isZero_eq_false_iff.2 hsupply, ?_⟩
  refine returns_require_iff.2 ⟨isZero_eq_false_iff.2 hpool, ?_⟩
  rw [Db.getOwnership, run_view_bind, returns_unwrap_iff]
  refine ⟨holderTotal, htotal, returns_require_iff.2 ⟨isZero_eq_false_iff.2 hholds, ?_⟩⟩
  refine returns_okOr_iff.2 ⟨product, hproduct, returns_bind_iff.2 ⟨(), u, hput, ?_⟩⟩
  refine returns_bind_iff.2 ⟨(), _, returns_mapError_iff.2 hcredit, ?_⟩
  exact returns_bind_iff.2 ⟨(), _, returns_changeAsset hasset hchanged, rfl⟩

end Claim

/-! ## Transactions -/

section Transactions

variable {s t : StateDB} {assetId : H256} {owner : Address} {asset : AssetRecord} {m : Holdings}

/-- What the records of an owner add up to is what the owner holds. -/
theorem total_eq_some_iff {holderTotal : Amount} : (s.getOwnership assetId owner).total =
    some holderTotal ↔
      holderTotal.raw.toNat = s.holdings.held (assetId, owner) :=
  checkedAdd_eq_some_iff

/-- An owner holds no more than all do. -/
theorem held_le_supply (m : Holdings) (assetId : H256) (owner : Address) :
    m.held (assetId, owner) ≤ m.supply assetId := by
  have hone :=
    sum_le_sumOver m (fun k r => if k.1 = assetId then r.held else 0)
      (List.nodup_singleton (assetId, owner))
  rw [List.map_singleton, List.sum_singleton] at hone
  refine Nat.le_trans (Nat.le_of_eq ?_) hone
  unfold held recordOf
  cases m[(assetId, owner)]? with
  | none => rfl
  | some => exact (if_pos rfl).symm

/-- If nobody holds anything, there is nothing. -/
theorem supply_eq_zero (h : ∀ owner, m.held (assetId, owner) = 0) : m.supply assetId = 0 := by
  have hzero : m.supply assetId = sumOver m fun _ _ => 0 := by
    refine sumOver_congr fun k r hr => ?_
    split
    · rename_i hk
      have hheld := h k.2
      rw [← hk] at hheld
      unfold held recordOf at hheld
      rw [hr] at hheld
      exact hheld
    · rfl
  rw [hzero]
  exact List.sum_eq_zero fun x hx => (List.mem_map.1 hx).elim fun _ he => he.2.symm

/-- Burning all that an owner holds leaves the owner with nothing and the others with what they
have. -/
theorem held_of_burn {m' : Holdings} (h : runAll m [.debit (assetId, owner)
      (m.recordOf (assetId, owner)).available (m.recordOf (assetId, owner)).locked] = some m')
    (other : Address) :
    m'.held (assetId, other) = if other = owner then 0 else m.held (assetId, other) := by
  have hall := held_of_runAll h (assetId, other)
  change m'.held (assetId, other) + ((if (assetId, owner) = (assetId, other) then
    m.held (assetId, owner) else 0) + 0) = _ + 0 at hall
  split
  · rename_i heq
    rw [heq, if_pos rfl] at hall
    rw [heq]
    omega
  · rename_i hne
    rw [if_neg fun heq => hne (Prod.mk.inj heq).2.symm] at hall
    exact hall

theorem supply_of_burn {m' : Holdings} (h : runAll m [.debit (assetId, owner)
      (m.recordOf (assetId, owner)).available (m.recordOf (assetId, owner)).locked] = some m') :
    m'.supply assetId + m.held (assetId, owner) = m.supply assetId := by
  have hall := supply_of_runAll h assetId
  change m'.supply assetId + ((if assetId = assetId then m.held (assetId, owner) else 0) + 0) =
    _ + 0 at hall
  rw [if_pos rfl] at hall
  exact hall

variable [Crypto] [Wasm] [Environment] {ctx : BlockContext} {tx : SignedTransaction}

theorem operation_claim (haction : tx.payload.action = .claimRedemption assetId) :
    operation ctx tx = executeClaimRedemption tx.sender assetId := by
  rw [operation, haction]
  rfl

/-- A claim is paid the holder's part of the pool, rounded down, exactly if the product of the
holder's tokens and the pool fits into a word. -/
theorem claim_paid_iff (hready : Ready ctx s tx)
    (haction : tx.payload.action = .claimRedemption assetId)
    (hfound : s.getAsset assetId = some asset) (hpending : asset.status = .redemptionPending)
    (hpool : asset.redemptionPool.raw ≠ 0) (hsupply : asset.totalSupply.raw ≠ 0)
    (hkeyed : s.holdings.Keyed) (hsum : asset.totalSupply.raw.toNat = s.holdings.supply assetId)
    (hholds : s.holdings.held (assetId, tx.sender) ≠ 0)
      (hroom : ((s.charge tx.sender (gasFee tx ctx.gasConfig)).getBalance tx.sender).raw.toNat +
      s.holdings.held (assetId,
      tx.sender) * asset.redemptionPool.raw.toNat / asset.totalSupply.raw.toNat < 2 ^ 128) :
    (∃ t, Succeeds ctx tx s t ∧
      (t.getBalance tx.sender).raw.toNat + (gasFee tx ctx.gasConfig).raw.toNat =
        (s.getBalance tx.sender).raw.toNat + s.holdings.held (assetId,
        tx.sender) * asset.redemptionPool.raw.toNat / asset.totalSupply.raw.toNat) ↔
      s.holdings.held (assetId, tx.sender) * asset.redemptionPool.raw.toNat < 2 ^ 128 := by
  obtain ⟨hholdings, -, hassets⟩ := ledger_charge s tx.sender (gasFee tx ctx.gasConfig)
  have hcharged := hready.getBalance_charge
  have hle := (held_le_supply s.holdings assetId tx.sender).trans_eq hsum.symm
  obtain ⟨holderTotal, hheld⟩ : ∃ holderTotal : Amount, holderTotal.raw.toNat =
      s.holdings.held (assetId, tx.sender) :=
    ⟨⟨BitVec.ofNat 128 _⟩, Nat.mod_eq_of_lt (hle.trans_lt (BitVec.isLt _))⟩
  have htotal :
    ((s.charge tx.sender (gasFee tx ctx.gasConfig)).getOwnership assetId tx.sender).total =
      some holderTotal := by
    rw [total_eq_some_iff, hholdings, hheld]
  have hfound' : (s.charge tx.sender (gasFee tx ctx.gasConfig)).getAsset assetId = some asset := by
    rw [getAsset, hassets]
    exact hfound
  simp only [succeeds_iff, operation_claim haction]
  rw [← hheld] at hholds hle hroom ⊢
  constructor
  · rintro ⟨t, ⟨-, logs, hrun⟩, -⟩
    obtain ⟨asset', holderTotal', changed, hclaimed⟩ := claimed_of_run hrun
    obtain rfl := some.inj (hfound'.symm.trans hclaimed.found)
    obtain rfl := some.inj (htotal.symm.trans hclaimed.total)
    exact hclaimed.fits
  · intro hfits
    have hsome : holderTotal.raw ≠ 0 := fun hzero => hholds (congrArg BitVec.toNat hzero)
    obtain ⟨logs, t, hrun⟩ :=
      exists_claim hfound' hpending hsupply hpool (hholdings ▸ hkeyed) htotal hsome hfits hle hroom
    obtain ⟨_, _, _, hclaimed⟩ := claimed_of_run hrun
    obtain rfl := some.inj (hfound'.symm.trans hclaimed.found)
    obtain rfl := some.inj (htotal.symm.trans hclaimed.total)
    refine ⟨t, ⟨hready, logs, hrun⟩, ?_⟩
    rw [hclaimed.balance, ← hcharged]
    exact Nat.add_right_comm ..

end Transactions

/-! ## Runs of claims -/

section Runs

variable [Crypto] [Wasm] [Environment]

/-- A transaction in its block, and what its sender received. -/
structure Claim where
  ctx : BlockContext
  tx : SignedTransaction
  paid : ℕ

/-- A claim transaction on an asset succeeds. What was paid is what the sender's balance gained,
apart from the fee. -/
structure Claims (assetId : H256) (s : StateDB) (claim : Claim) (t : StateDB) : Prop where
  action : claim.tx.payload.action = .claimRedemption assetId
  succeeds : Succeeds claim.ctx claim.tx s t
  received : (t.getBalance claim.tx.sender).raw.toNat +
    (gasFee claim.tx claim.ctx.gasConfig).raw.toNat =
    (s.getBalance claim.tx.sender).raw.toNat + claim.paid

variable {s t u : StateDB} {assetId : H256} {asset : AssetRecord} {claim : Claim}

/-- Every successful claim pays something. -/
theorem exists_claims {ctx : BlockContext} {tx : SignedTransaction} (h : Succeeds ctx tx s t)
    (haction : tx.payload.action = .claimRedemption assetId) : ∃ paid, Claims assetId s
      ⟨ctx, tx, paid⟩ t := by
  obtain ⟨hready, _, hrun⟩ := succeeds_iff.1 h
  rw [operation_claim haction] at hrun
  obtain ⟨asset, holderTotal, _, hclaimed⟩ := claimed_of_run hrun
  refine ⟨asset.fund.share holderTotal.raw.toNat, haction, h, ?_⟩
  rw [hclaimed.balance, ← hready.getBalance_charge]
  exact Nat.add_right_comm ..

/-- A claim gives back all that the sender holds, for what it is worth. -/
structure Redeemed (assetId : H256) (s : StateDB) (asset : AssetRecord)
    (claim : Claim) (t : StateDB) (changed : AssetRecord) : Prop where
  found : t.getAsset assetId = some changed
  keyed : t.holdings.Keyed
  holds : s.holdings.held (assetId, claim.tx.sender) ≠ 0
  redeems : Fund.Redeems asset.fund ⟨s.holdings.held (assetId, claim.tx.sender),
    claim.paid⟩ changed.fund
  status : changed.fund.supply = 0 → changed.status = .redeemed
  held : ∀ owner, t.holdings.held (assetId, owner) =
    if owner = claim.tx.sender then 0 else s.holdings.held (assetId, owner)
  supply : t.holdings.supply assetId + s.holdings.held (assetId, claim.tx.sender) =
    s.holdings.supply assetId

theorem Claims.redeemed (h : Claims assetId s claim t) (hkeyed : s.holdings.Keyed)
    (hfound : s.getAsset assetId = some asset) :
    ∃ changed, Redeemed assetId s asset claim t changed := by
  obtain ⟨hready, _, hrun⟩ := succeeds_iff.1 h.succeeds
  rw [operation_claim h.action] at hrun
  obtain ⟨hholdings, -, hassets⟩ :=
    ledger_charge s claim.tx.sender (gasFee claim.tx claim.ctx.gasConfig)
  obtain ⟨asset', holderTotal, changed, hclaimed⟩ := claimed_of_run hrun
  obtain rfl : asset = asset' := by
    have hfound' := hclaimed.found
    rw [getAsset, hassets] at hfound'
    exact some.inj (hfound.symm.trans hfound')
  have hheld : holderTotal.raw.toNat = s.holdings.held (assetId, claim.tx.sender) := by
    rw [← hholdings]
    exact total_eq_some_iff.1 hclaimed.total
  have hflows : runAll s.holdings [.debit (assetId, claim.tx.sender)
      (s.holdings.recordOf (assetId, claim.tx.sender)).available
      (s.holdings.recordOf (assetId, claim.tx.sender)).locked] = some t.holdings := by
    rw [← hholdings]
    exact hclaimed.holdings (hholdings ▸ hkeyed)
  have hcharged := hready.getBalance_charge
  have hbalance := hclaimed.balance
  have hreceived := h.received
  refine ⟨changed, hclaimed.left, keyed_of_runAll hflows hkeyed, ?_, ⟨?_, ?_, ?_, ?_⟩,
    fun hzero => ?_, held_of_burn hflows, supply_of_burn hflows⟩
  · rw [← hheld]
    exact fun hzero => hclaimed.holds (eq_of_toNat_eq hzero)
  · exact Nat.pos_of_ne_zero fun hzero => hclaimed.supply (eq_of_toNat_eq hzero)
  · exact hheld ▸ hclaimed.enough
  · show claim.paid = asset.fund.share (s.holdings.held (assetId, claim.tx.sender))
    rw [← hheld]
    omega
  · rw [← hheld]
    exact hclaimed.fund
  · rw [hclaimed.status, if_pos hzero]

/-- Where a run of claims has come to: the fund is divided as the abstract one, and those who
claimed hold nothing any more. -/
structure Underway (assetId : H256) (s : StateDB) (asset : AssetRecord)
    (claims : List Claim) (t : StateDB) (changed : AssetRecord) : Prop where
  found : t.getAsset assetId = some changed
  keyed : t.holdings.Keyed
  supply : changed.fund.supply = t.holdings.supply assetId
  run : Run Fund.Redeems asset.fund (claims.map fun c => ⟨s.holdings.held (assetId, c.tx.sender),
    c.paid⟩) changed.fund
  status : claims ≠ [] → changed.fund.supply = 0 → changed.status = .redeemed
  held : ∀ owner, t.holdings.held (assetId, owner) =
    if owner ∈ claims.map (·.tx.sender) then 0 else s.holdings.held (assetId, owner)

/-- One more claim. A sender who still holds something has not claimed before. -/
theorem Underway.snoc {claims : List Claim} {changed : AssetRecord}
    (h : Underway assetId s asset claims t changed) (hclaim : Claims assetId t claim u) :
    ∃ changed', Underway assetId s asset (claims ++ [claim]) u changed' := by
  obtain ⟨changed', hredeemed⟩ := hclaim.redeemed h.keyed h.found
  have hheld := h.held claim.tx.sender
  have hfresh : claim.tx.sender ∉ claims.map (·.tx.sender) := fun hmem => by
    rw [if_pos hmem] at hheld
    exact hredeemed.holds hheld
  rw [if_neg hfresh] at hheld
  have hredeems := hredeemed.redeems
  refine ⟨changed', hredeemed.found, hredeemed.keyed, ?_, ?_, fun _ => hredeemed.status,
    fun owner => ?_⟩
  · have hleft :
        changed'.fund.supply = changed.fund.supply - t.holdings.held (assetId,
        claim.tx.sender) := by
      rw [hredeems.after, Fund.redeem]
    have hsupply := hredeemed.supply
    rw [hleft, h.supply]
    omega
  · rw [hheld] at hredeems
    rw [List.map_append]
    exact h.run.snoc hredeems
  · rw [hredeemed.held, h.held, List.map_append, List.map_singleton]
    by_cases heq : owner = claim.tx.sender
    · rw [if_pos heq, if_pos (List.mem_append_right _ (List.mem_singleton.2 heq))]
    · rw [if_neg heq]
      refine if_congr ?_ rfl rfl
      rw [List.mem_append, List.mem_singleton]
      exact ⟨.inl, fun h => h.resolve_right heq⟩

theorem underway_of_run {claims : List Claim} (h : Run (Claims assetId) s claims t)
    (hfound : s.getAsset assetId = some asset) (hkeyed : s.holdings.Keyed)
    (hsum : asset.totalSupply.raw.toNat = s.holdings.supply assetId) :
    ∃ changed, Underway assetId s asset claims t changed := by
  induction h with
  | nil => exact ⟨asset, hfound, hkeyed, hsum, .nil, fun h => absurd rfl h, fun _ => rfl⟩
  | snoc _ hstep ih =>
    obtain ⟨_, hunderway⟩ := ih
    exact hunderway.snoc hstep

/-- The holders of an asset that is pending redemption claim in any order. Everyone is paid at least
the share that the tokens had at the start, all payments together are no more than the pool, and
when everyone has claimed they are the whole pool, nothing is left and the asset is redeemed. -/
theorem redemption_fair {claims : List Claim} (h : Run (Claims assetId) s claims t)
    (hfound : s.getAsset assetId = some asset) (hkeyed : s.holdings.Keyed)
    (hsum : asset.totalSupply.raw.toNat = s.holdings.supply assetId) :
    (∀ claim ∈ claims, s.holdings.held (assetId, claim.tx.sender) * asset.redemptionPool.raw.toNat /
      asset.totalSupply.raw.toNat ≤ claim.paid) ∧
    (claims.map (·.paid)).sum ≤ asset.redemptionPool.raw.toNat ∧
    (claims ≠ [] → (∀ owner, s.holdings.held (assetId, owner) ≠ 0 → ∃ claim ∈ claims,
      claim.tx.sender = owner) →
      (claims.map (·.paid)).sum = asset.redemptionPool.raw.toNat ∧
      ∃ changed, t.getAsset assetId = some changed ∧ changed.redemptionPool.raw.toNat = 0 ∧
        changed.status = .redeemed) := by
  obtain ⟨changed, hunderway⟩ := underway_of_run h hfound hkeyed hsum
  have hspent := Fund.run_spent hunderway.run
  rw [List.map_map] at hspent
  refine ⟨fun claim hclaim => ?_, Nat.le.intro hspent, fun hsome hall => ?_⟩
  · exact Fund.run_fair hunderway.run _ (List.mem_map_of_mem hclaim)
  · have hnone : changed.fund.supply = 0 := by
      rw [hunderway.supply]
      refine supply_eq_zero fun owner => ?_
      rw [hunderway.held]
      split
      · rfl
      · rename_i hfresh
        by_contra hholds
        obtain ⟨_, hclaim, rfl⟩ := hall owner hholds
        exact hfresh (List.mem_map_of_mem hclaim)
    have hempty : changed.fund.pool = 0 :=
      Fund.run_empty hunderway.run (mt List.map_eq_nil_iff.1 hsome) hnone
    rw [hempty] at hspent
    exact ⟨hspent, changed, hunderway.found, hempty, hunderway.status hsome hnone⟩

end Runs

end Executor

/-! ## On a small state -/

namespace Demo

open Executor Confined

/-- The validator creates an asset, disposes of it and funds its redemption. -/
def redemption (supply pool : Amount) : List (BlockContext × SignedTransaction) :=
  [(context, numbered 0 (.createAssetClass "Estate" "EST" "" supply 0 "other" "IT" "Estate Ltd")),
    (context, numbered 1 (.proposeAssetAction estate (.disposeAsset "sold") "sell")),
    (context, numbered 2 (.voteAssetProposal disposalId .yes)),
    (afterVote, numbered 3 (.finalizeAssetProposal disposalId)),
    (afterVote, numbered 4 (.fundRedemptionPool estate pool))]

/-- The claim that follows. -/
def claimTx : SignedTransaction := numbered 5 (.claimRedemption estate)

/-- The asset can be redeemed for a share of its pool, the supply is what its holders have, and the
validator is one of them and can send the claim. -/
@[mk_iff redeemable_iff]
structure Redeemable (s : StateDB) (asset : AssetRecord) : Prop where
  ready : Ready afterVote s claimTx
  pending : asset.status = .redemptionPending
  pool : asset.redemptionPool.raw ≠ 0
  supply : asset.totalSupply.raw ≠ 0
  sum : asset.totalSupply.raw.toNat = s.holdings.supply estate
  holds : s.holdings.held (estate, claimTx.sender) ≠ 0
  room : ((s.charge claimTx.sender (gasFee claimTx afterVote.gasConfig)).getBalance
    claimTx.sender).raw.toNat + s.holdings.held (estate,
    claimTx.sender) * asset.redemptionPool.raw.toNat / asset.totalSupply.raw.toNat < 2 ^ 128

instance {s : StateDB} {asset : AssetRecord} : Decidable (Redeemable s asset) := decidable_of_iff' _
    (redeemable_iff ..)

/-- The asset can be redeemed, and a check holds of it. -/
def isRedeemable (check : StateDB → AssetRecord → Bool) (s : StateDB) : Bool :=
  (s.getAsset estate).any fun asset => Redeemable s asset && check s asset

/-- What such a check shows. -/
theorem exists_redeemable (supply pool : Amount) (check : StateDB → AssetRecord → Bool)
    (h : (successes (redemption supply pool) funded).any (isRedeemable check) = true) :
    ∃ s asset, s.holdings.Keyed ∧ s.getAsset estate = some asset ∧ Redeemable s asset ∧
      check s asset = true := by
  obtain ⟨s, hrun, hcheck⟩ := exists_successes _ funded _ h
  have books : Books s := hrun.invariant (fun _ _ _ hstep => Event.books hstep) books_funded
  simp only [isRedeemable, any_eq_true, Bool.and_eq_true, decide_eq_true_eq] at hcheck
  obtain ⟨asset, hasset, hredeemable, hcheck⟩ := hcheck
  exact ⟨s, asset, books.keyed, hasset, hredeemable, hcheck⟩

/-- A single transaction is evaluated. -/
theorem successes_singleton_iff {ctx : BlockContext} {tx : SignedTransaction} {s t : StateDB} :
    successes [(ctx, tx)] s = some t ↔ Succeeds ctx tx s t := by
  unfold successes Succeeds
  constructor
  · intro h
    split at h
    · rename_i result _ hrun
      split at h
      · rename_i hsuccess
        cases h
        exact ⟨result, hrun, hsuccess⟩
      · cases h
    · cases h
  · rintro ⟨_, hrun, hsuccess⟩
    rw [hrun]
    exact if_pos hsuccess

/-- A small redemption is paid. -/
theorem small_claim_paid : ∃ s t asset, s.getAsset estate = some asset ∧ Redeemable s asset ∧
    Succeeds afterVote claimTx s t ∧
      (t.getBalance claimTx.sender).raw.toNat + (gasFee claimTx afterVote.gasConfig).raw.toNat =
        (s.getBalance claimTx.sender).raw.toNat +
          s.holdings.held (estate,
          claimTx.sender) * asset.redemptionPool.raw.toNat / asset.totalSupply.raw.toNat := by
  obtain ⟨s, asset, hkeyed, hasset, h, hcheck⟩ := exists_redeemable ⟨1000⟩ ⟨100⟩
    (fun s asset => s.holdings.held (estate, claimTx.sender) * asset.redemptionPool.raw.toNat <
    2 ^ 128)
    (by decide +kernel)
  obtain ⟨t, hsucceeds, hpaid⟩ :=
    (claim_paid_iff h.ready rfl hasset h.pending h.pool h.supply hkeyed h.sum h.holds h.room).2
      (of_decide_eq_true hcheck)
  exact ⟨s, t, asset, hasset, h, hsucceeds, hpaid⟩

/-- A million tokens with eighteen decimals cannot be redeemed for one VTT. -/
theorem large_claim_fails : ∃ s asset, s.holdings.Keyed ∧ s.getAsset estate = some asset ∧
    Redeemable s asset ∧
    ¬ ∃ t, Succeeds afterVote claimTx s t := by
  obtain ⟨s, asset, hkeyed, hasset, h, hcheck⟩ :=
    exists_redeemable ⟨BitVec.ofNat 128 (10 ^ 24)⟩ (.fromVtt 1)
      (fun s _ => (successes [(afterVote, claimTx)] s).isNone) (by decide +kernel)
  refine ⟨s, asset, hkeyed, hasset, h, ?_⟩
  rintro ⟨_, hsucceeds⟩
  rw [successes_singleton_iff.2 hsucceeds] at hcheck
  cases hcheck

/-- The validator hands tokens to the stranger before the asset is disposed of. -/
def sharedRedemption : List (BlockContext × SignedTransaction) :=
  (redemption ⟨1000⟩ ⟨100⟩).take 3 ++
    [(context, numbered 3 (.assetTransfer estate stranger.address ⟨401⟩)),
    (afterVote, numbered 4 (.finalizeAssetProposal disposalId)),
    (afterVote, numbered 5 (.fundRedemptionPool estate ⟨100⟩))]

theorem gasless_sender {action : TransactionAction} : (gasless action).sender = stranger.address :=
  rfl

theorem gasless_action {action : TransactionAction} : (gasless action).payload.action = action :=
  rfl

theorem numbered_sender {nonce : UInt64} {action : TransactionAction} :
    (numbered nonce action).sender = key.address :=
  rfl

theorem numbered_action {nonce : UInt64} {action : TransactionAction} :
    (numbered nonce action).payload.action = action := rfl

/-- Both holders claim, and are paid the whole pool. -/
theorem shared_redemption_fair : ∃ s t asset first second, s.getAsset estate = some asset ∧
    asset.redemptionPool.raw.toNat = 100 ∧ s.holdings.held (estate, key.address) = 599 ∧
    s.holdings.held (estate, stranger.address) = 401 ∧ first.tx.sender = stranger.address ∧
    second.tx.sender = key.address ∧ Run (Claims estate) s [first, second] t ∧ 40 ≤ first.paid ∧
      59 ≤ second.paid ∧
    first.paid + second.paid = 100 ∧ ∃ changed, t.getAsset estate = some changed ∧
      changed.status = .redeemed := by
  obtain ⟨s, hrun₀, hcheck⟩ :=
    exists_successes sharedRedemption funded (fun s => (s.getAsset estate).any fun asset =>
      asset.totalSupply.raw.toNat = s.holdings.supply estate &&
      asset.totalSupply.raw.toNat = 1000 && asset.redemptionPool.raw.toNat = 100 &&
      s.holdings.held (estate, key.address) = 599 &&
      s.holdings.held (estate, stranger.address) = 401 &&
      (s.ownership.toList.all fun e => e.1.2 = key.address || e.1.2 = stranger.address) &&
      (successes [(afterVote, gasless (.claimRedemption estate))] s).any fun u =>
        (successes [(afterVote, numbered 6 (.claimRedemption estate))] u).isSome)
          (by decide +kernel)
  simp only [any_eq_true, Bool.and_eq_true, decide_eq_true_eq, List.all_eq_true, Bool.or_eq_true,
    isSome_iff_exists] at hcheck
  obtain ⟨asset, hasset, ⟨⟨⟨⟨⟨hsum, hsupply⟩, hpool⟩, hvalidator⟩, hstranger⟩, howners⟩, u, hfirst,
    t, hsecond⟩ := hcheck
  have books : Books s := hrun₀.invariant (fun _ _ _ hstep => Event.books hstep) books_funded
  obtain ⟨paid, hclaims⟩ := exists_claims (successes_singleton_iff.1 hfirst) gasless_action
  obtain ⟨paid', hclaims'⟩ := exists_claims (successes_singleton_iff.1 hsecond) numbered_action
  have hrun := Run.snoc (.single hclaims) hclaims'
  obtain ⟨hfair, -, hclosed⟩ := redemption_fair hrun hasset books.keyed hsum
  simp only [List.nil_append, List.cons_append, List.mem_cons, List.not_mem_nil, or_false,
    forall_eq_or_imp, forall_eq, exists_eq_or_imp, exists_eq_left, gasless_sender, numbered_sender,
    List.map_cons, List.map_nil, List.sum_cons,
    List.sum_nil, hpool, hsupply, hvalidator, hstranger] at hfair hclosed
  have hall : ∀ owner, s.holdings.held (estate, owner) ≠ 0 → stranger.address = owner ∨
      key.address = owner := by
    intro owner hholds
    cases hrecord : s.ownership[(estate, owner)]? with
    | none =>
      rw [Holdings.held, Holdings.recordOf,
        show s.holdings[(estate, owner)]? = none from hrecord] at hholds
      exact absurd rfl hholds
    | some =>
      rcases howners _ (Std.ExtTreeMap.mem_toList_iff_getElem?_eq_some.2 hrecord) with heq | heq
      · exact .inr heq.symm
      · exact .inl heq.symm
  obtain ⟨hpaid, changed, hchanged, -, hredeemed⟩ := hclosed (List.cons_ne_nil _ _) hall
  exact ⟨s, t, asset, ⟨afterVote, gasless (.claimRedemption estate), paid⟩,
    ⟨afterVote, numbered 6 (.claimRedemption estate), paid'⟩, hasset, hpool, hvalidator, hstranger,
    gasless_sender, numbered_sender, hrun, hfair.1,
    hfair.2, hpaid, changed, hchanged, hredeemed⟩

end Demo

end Vtt
