import Vtt.Executor.Redemption
import Vtt.Executor.Thresholds

/-!
# Closing proposals on assets

When the vote on a proposal has ended, anyone may close it. One that passed is carried out first,
and if that fails the whole transaction fails and the proposal stays active. The checks made when it
was proposed do not ensure that it can be carried out: revenue can be proposed by any holder but is
only distributed by the issuer.
-/

namespace Vtt

open Lib AssetProposal Option
open Option (some.inj)

namespace Executor

open Confined StateDB

variable {assetId : H256}

section Carrying

variable {s t : StateDB} {p : AssetProposal} {asset : AssetRecord} {id : H256}

/-- The action of a proposal can be carried out: revenue can be distributed by the proposer, or the
redemption is pending and the treasury has room for what is left in the pool. The other actions have
no conditions. -/
def Executable (s : StateDB) (p : AssetProposal) (asset : AssetRecord) : Prop :=
  match p.action with
  | .distributeRevenue totalAmount => Distributable s p.proposer p.assetId totalAmount asset
  | .finalizeRedemption _ => asset.status = .redemptionPending ∧
      (s.getBalance s.treasuryAddress).raw.toNat + asset.redemptionPool.raw.toNat < 2 ^ 128
  | .changeIssuer _ | .signal _ | .disposeAsset _ => True

/-- A change of a cached asset that cannot fail. -/
theorem returns_changeAssetWith_iff {missing : ExecutionError} {f : AssetRecord → AssetRecord}
    (hfound : s.getAsset assetId = some asset) {x : Unit} :
    (Db.changeAsset assetId missing fun asset => pure (f asset)).run s = some (.ok x, t) ↔
      t = (s.touchAsset assetId).setCachedAsset assetId (f asset) := by
  refine (returns_okOr_iff (o := s.getAsset assetId)).trans ?_
  constructor
  · rintro ⟨_, hfound', h⟩
    obtain rfl := some.inj (hfound.symm.trans hfound')
    exact (Prod.mk.inj (some.inj h)).2.symm
  · rintro rfl
    exact ⟨asset, hfound, rfl⟩

theorem returns_creditOnly_iff {payee : Address} {amount : Amount} {g : StateError → ExecutionError}
    {x : Unit} :
    (if amount.isZero then pure () else (Db.addBalance payee amount).mapError g).run s =
      some (.ok x, t) ↔
      s.RoomFor [(payee, amount)] ∧ t = s.creditAll (nonzeroCredits [(payee, amount)]) := by
  have hnext : (if amount.isZero then pure () else (Db.addBalance payee amount).mapError g).run s =
      some (.ok x, t) ↔
        (if amount.isZero then pure () else (Db.addBalance payee amount).mapError g >>= pure).run
        s = some (.ok x, t) := by
    split
    · exact Iff.rfl
    · rw [returns_bind_iff]
      constructor
      · exact fun h => ⟨x, t, h, rfl⟩
      · rintro ⟨_, _, h, hpure⟩
        obtain ⟨rfl, rfl⟩ := ok_of_pure hpure
        exact h
  rw [hnext, returns_creditIfAny_iff, returns_pure_iff]
  exact ⟨fun h => ⟨h.1, h.2.2⟩, fun h => ⟨h.1, rfl, h.2⟩⟩

/-- A redemption is closed exactly if it is pending and the treasury has room. -/
theorem returns_finalizeRedemption_iff (hfound : s.getAsset assetId = some asset) :
    (executeFinalizeRedemption assetId).run s = some (.ok (), t) ↔
      asset.status = .redemptionPending ∧
      (s.getBalance s.treasuryAddress).raw.toNat + asset.redemptionPool.raw.toNat < 2 ^ 128 ∧
      t = ((s.touchAsset assetId).setCachedAsset assetId
        { asset with status := .redeemed, redemptionPool := .zero }).creditAll
          (nonzeroCredits [(s.treasuryAddress, asset.redemptionPool)]) := by
  have hsame (changed : AssetRecord) (a : Address) :
      ((s.touchAsset assetId).setCachedAsset assetId changed).getBalance a = s.getBalance a := by
    have haccounts : SameAccounts s ((s.touchAsset assetId).setCachedAsset assetId changed) :=
      ⟨rfl, fun _ => rfl⟩
    exact congrArg AccountState.balance (haccounts.getAccount a)
  unfold executeFinalizeRedemption
  rw [returns_cachedAsset_iff]
  constructor
  · rintro ⟨_, hfound', h⟩
    obtain rfl := some.inj (hfound.symm.trans hfound')
    obtain ⟨hpending, h⟩ := ok_of_require h
    rw [Db.getTreasuryAddress, Db.cached, run_view_bind] at h
    obtain ⟨_, _, hchange, h⟩ := run_bind_ok h
    obtain rfl := (returns_changeAssetWith_iff hfound).1 hchange
    obtain ⟨hroom, rfl⟩ := returns_creditOnly_iff.1 h
    have hroom := roomFor_singleton_iff.1 hroom
    exact ⟨eq_of_beq hpending, hroom, rfl⟩
  · rintro ⟨hpending, hroom, rfl⟩
    refine ⟨asset, hfound, returns_require_iff.2 ⟨beq_iff_eq.2 hpending, ?_⟩⟩
    rw [Db.getTreasuryAddress, Db.cached, run_view_bind]
    refine returns_bind_iff.2 ⟨(), _, (returns_changeAssetWith_iff hfound).2 rfl, ?_⟩
    refine returns_creditOnly_iff.2 ⟨roomFor_singleton_iff.2 ?_, rfl⟩
    exact hroom

variable [Crypto]

/-- An action that can be carried out is. -/
theorem returns_runAssetAction_iff (hfound : s.getAsset p.assetId = some asset) :
    (∃ t, (runAssetAction p).run s = some (.ok (), t)) ↔ Executable s p asset := by
  unfold runAssetAction Executable
  cases p.action with
  | distributeRevenue =>
    -- revenue is distributed on behalf of the proposer
    constructor
    · rintro ⟨_, h⟩
      obtain ⟨logs, _, hdistributed, -⟩ := run_bind_ok h
      obtain ⟨_, distributed⟩ := returns_distributeRevenue_iff.1 ⟨logs, hdistributed⟩
      obtain rfl := some.inj (hfound.symm.trans distributed.found)
      exact distributed.toDistributable
    · intro h
      obtain ⟨logs, hdistributed⟩ := returns_distributeRevenue_iff.2 ⟨asset, h, rfl⟩
      exact ⟨_, returns_bind_iff.2 ⟨logs, _, hdistributed, rfl⟩⟩
  | changeIssuer =>
    exact ⟨fun _ => trivial, fun _ => ⟨_, (returns_changeAssetWith_iff hfound).2 rfl⟩⟩
  | signal => exact ⟨fun _ => trivial, fun _ => ⟨s, rfl⟩⟩
  | disposeAsset =>
    exact ⟨fun _ => trivial, fun _ => ⟨_, (returns_changeAssetWith_iff hfound).2 rfl⟩⟩
  | finalizeRedemption =>
    simp only [returns_finalizeRedemption_iff hfound]
    exact ⟨fun ⟨_, hpending, hroom, _⟩ => ⟨hpending, hroom⟩, fun h => ⟨_, h.1, h.2, rfl⟩⟩

/-- Whatever is carried out, the proposals stay. -/
theorem assetProposals_of_runAssetAction (hfound : s.getAsset p.assetId = some asset)
    (h : (runAssetAction p).run s = some (.ok (), t)) : t.assetProposals = s.assetProposals := by
  unfold runAssetAction at h
  split at h
  · obtain ⟨logs, hdistributed, -⟩ := ok_of_last h
    obtain ⟨_, distributed⟩ := returns_distributeRevenue_iff.1 ⟨logs, hdistributed⟩
    rw [distributed.after, unchanged_creditAll _ _ (·.assetProposals) fun _ _ _ => rfl]
    rfl
  · rw [(returns_changeAssetWith_iff hfound).1 h]
    rfl
  · obtain ⟨-, rfl⟩ := ok_of_pure h
    rfl
  · rw [(returns_changeAssetWith_iff hfound).1 h]
    rfl
  · obtain ⟨-, -, rfl⟩ := (returns_finalizeRedemption_iff hfound).1 h
    rw [unchanged_creditAll _ _ (·.assetProposals) fun _ _ _ => rfl]
    rfl

end Carrying

section Closing

variable {s t : StateDB} {p : AssetProposal} {asset : AssetRecord} {id : H256}

/-- The votes are counted if they fit into a word together, or nothing is compared with them. -/
theorem exists_hasQuorum_iff {totalSupply : Amount} :
    (∃ quorum, p.hasQuorum totalSupply = some quorum) ↔ totalSupply.raw = 0 ∨ p.cast < 2 ^ 128 := by
  unfold hasQuorum
  split
  · rename_i hzero
    exact ⟨fun _ => .inl (beq_iff_eq.1 hzero), fun _ => ⟨false, rfl⟩⟩
  · rename_i hsome
    constructor
    · rintro ⟨_, h⟩
      obtain ⟨votes, hvotes, -⟩ := bind_eq_some_iff.1 h
      obtain ⟨_, hyesNo, hall⟩ := bind_eq_some_iff.1 hvotes
      have hyesNo := Amount.toNat_checkedAdd hyesNo
      have hall := Amount.toNat_checkedAdd hall
      refine .inr ?_
      rw [AssetProposal.cast, ← hyesNo, ← hall]
      exact votes.raw.isLt
    · rintro (hzero | hfits)
      · exact absurd (beq_iff_eq.2 hzero) hsome
      · obtain ⟨_, hvotes, -⟩ := exists_totalVotes hfits
        rw [hvotes]
        exact ⟨_, rfl⟩

/-- A proposal can be closed: its asset is known, its votes can be counted, and if it passed, its
action can be carried out. -/
structure Closable (s : StateDB) (p : AssetProposal) (asset : AssetRecord) : Prop where
  found : s.getAsset p.assetId = some asset
  counted : asset.totalSupply.raw = 0 ∨ p.cast < 2 ^ 128
  executable : p.hasQuorum asset.totalSupply = some true → assetProposalPasses p = true →
    Executable s p asset

variable [Crypto] [Wasm] [Environment] {ctx : BlockContext} {tx : SignedTransaction}

theorem operation_finalize (haction : tx.payload.action = .finalizeAssetProposal id) :
    operation ctx tx = executeFinalizeAssetProposal tx.sender id ctx.blockNumber := by
  rw [operation, haction]
  rfl

/-- A transaction closes a proposal whose vote has ended, and leaves it executed or rejected,
exactly if the proposal can be closed once the sender has paid for the gas. -/
theorem proposal_closed_iff (hready : Ready ctx s tx)
    (haction : tx.payload.action = .finalizeAssetProposal id) (hp : s.getAssetProposal id = some p)
    (hactive : p.status = .active) (hended : p.votingEnd.toNat ≤ ctx.blockNumber.toNat) :
    (∃ t p', Succeeds ctx tx s t ∧ t.getAssetProposal id = some p' ∧
      (p'.status = .executed ∨ p'.status = .rejected)) ↔
      ∃ asset, Closable (s.charge tx.sender (gasFee tx ctx.gasConfig)) p asset := by
  have hproposals := (charge_same s tx.sender (gasFee tx ctx.gasConfig)).2.1
  have hp' : (s.charge tx.sender (gasFee tx ctx.gasConfig)).getAssetProposal id = some p := by
    rw [getAssetProposal, hproposals]
    exact hp
  simp only [succeeds_iff, operation_finalize haction]
  generalize s.charge tx.sender (gasFee tx ctx.gasConfig) = c at hp'
  constructor
  · rintro ⟨_, -, ⟨-, hlogs⟩, -⟩
    obtain ⟨_, hq, -, -, asset, hasset, quorum, hquorum, h⟩ :=
      returns_finalizeAssetProposal_iff.1 hlogs
    obtain rfl := Option.some.inj (hp'.symm.trans hq)
    refine ⟨asset, hasset, exists_hasQuorum_iff.1 ⟨quorum, hquorum⟩, fun htrue hpasses => ?_⟩
    obtain rfl := Option.some.inj (hquorum.symm.trans htrue)
    rw [if_pos (Bool.and_eq_true_iff.2 ⟨rfl, hpasses⟩)] at h
    obtain ⟨u, -, hcarried, -⟩ := h
    exact (returns_runAssetAction_iff hasset).1 ⟨u, hcarried⟩
  · rintro ⟨asset, hasset, hcounted, hexecutable⟩
    obtain ⟨quorum, hquorum⟩ := exists_hasQuorum_iff.2 hcounted
    have hended' : p.isVotingEnded ctx.blockNumber = true :=
      decide_eq_true (UInt64.le_iff_toNat_le.2 hended)
    by_cases hpass : (quorum && assetProposalPasses p) = true
    · obtain ⟨rfl, hpasses⟩ := Bool.and_eq_true_iff.1 hpass
      obtain ⟨u, hcarried⟩ := (returns_runAssetAction_iff hasset).2 (hexecutable hquorum hpasses)
      have hkept : u.getAssetProposal id = some p := by
        rw [getAssetProposal, assetProposals_of_runAssetAction hasset hcarried]
        exact hp'
      have hlogs : ∃ logs, (executeFinalizeAssetProposal tx.sender id ctx.blockNumber).run c =
          some (.ok logs, u.setCachedAssetProposal id { p with status := .executed }) := by
        refine returns_finalizeAssetProposal_iff.2 ⟨p, hp', hactive, hended', asset, hasset,
          true, hquorum, ?_⟩
        rw [if_pos hpass]
        exact ⟨u, p, hcarried, hkept, rfl⟩
      exact ⟨_, _, ⟨hready, hlogs⟩, getAssetProposal_setCached .., .inl rfl⟩
    · have hlogs : ∃ logs, (executeFinalizeAssetProposal tx.sender id ctx.blockNumber).run c =
          some (.ok logs, c.setCachedAssetProposal id { p with status := .rejected }) := by
        refine returns_finalizeAssetProposal_iff.2 ⟨p, hp', hactive, hended', asset, hasset,
          quorum, hquorum, ?_⟩
        rw [if_neg hpass]
      exact ⟨_, _, ⟨hready, hlogs⟩, getAssetProposal_setCached .., .inr rfl⟩

end Closing

end Executor

/-! ## On a small state -/

namespace Demo

open Executor

/-- A transaction that closes a proposal. -/
def closing (nonce : UInt64) (id : H256) : SignedTransaction :=
  numbered nonce (.finalizeAssetProposal id)

/-- The vote on a proposal has ended, and it can be closed by a transaction. -/
structure Ended (s : StateDB) (id : H256) (tx : SignedTransaction) (p : AssetProposal) : Prop where
  found : s.getAssetProposal id = some p
  active : p.status = .active
  ended : p.votingEnd.toNat ≤ afterVote.blockNumber.toNat
  ready : Ready afterVote s tx

/-- The vote has ended, and a check holds of the proposal. -/
def hasEnded (id : H256) (tx : SignedTransaction) (check : StateDB → AssetProposal → Bool)
    (s : StateDB) : Bool :=
  Ready afterVote s tx && (s.getAssetProposal id).any fun p =>
    p.status = .active && p.votingEnd.toNat ≤ afterVote.blockNumber.toNat && check s p

/-- What such a check shows. -/
theorem exists_ended (txs : List (BlockContext × SignedTransaction)) (id : H256)
    (tx : SignedTransaction) (check : StateDB → AssetProposal → Bool)
    (h : (successes txs funded).any (hasEnded id tx check) = true) :
    ∃ s p, Run (fun s event t => Event.Step s event t) funded (eventsOf txs) s ∧ Ended s id tx p ∧
      check s p = true := by
  obtain ⟨s, hrun, hcheck⟩ := exists_successes txs funded _ h
  obtain ⟨hready, hcheck⟩ := Bool.and_eq_true_iff.1 hcheck
  obtain ⟨p, hp, hcheck⟩ := (any_eq_true ..).1 hcheck
  simp only [Bool.and_eq_true, decide_eq_true_eq] at hready hcheck
  exact ⟨s, p, hrun, ⟨hp, hcheck.1.1, hcheck.1.2, hready⟩, hcheck.2⟩

/-- The proposal to dispose of an asset is closed. -/
theorem disposal_closed : ∃ s p t p', Ended s disposalId (closing 3 disposalId) p ∧
    Succeeds afterVote (closing 3 disposalId) s t ∧ t.getAssetProposal disposalId = some p' ∧
      (p'.status = .executed ∨ p'.status = .rejected) := by
  obtain ⟨s, p, -, h, hcheck⟩ := exists_ended (disposal.take 3) disposalId (closing 3 disposalId)
    (fun s p => p.action = .disposeAsset "sold" && decide (p.cast < 2 ^ 128) &&
    (s.getAsset p.assetId).isSome)
    (by decide +kernel)
  simp only [Bool.and_eq_true, decide_eq_true_eq, Option.isSome_iff_exists] at hcheck
  obtain ⟨⟨haction, hcast⟩, asset, hasset⟩ := hcheck
  have hexecutable (c : StateDB) : Executable c p asset := by
    unfold Executable
    rw [haction]
    trivial
  have hfound :
      (s.charge (closing 3 disposalId).sender
      (gasFee (closing 3 disposalId) afterVote.gasConfig)).getAsset p.assetId = some asset := by
    rw [StateDB.getAsset, (charge_same ..).2.2]
    exact hasset
  obtain ⟨t, p', hsucceeds, hp', hclosed⟩ :=
    (proposal_closed_iff h.ready rfl h.found h.active h.ended).2 ⟨asset, hfound, .inr hcast,
      fun _ _ => hexecutable _⟩
  exact ⟨s, p, t, p', h, hsucceeds, hp', hclosed⟩

/-- A holder who is not the issuer proposes to distribute revenue, and the issuer votes for it. -/
def revenueVote : List (BlockContext × SignedTransaction) :=
  [(context, numbered 0 (.createAssetClass "Estate" "EST" "" ⟨1000⟩ 0 "other" "IT" "Estate Ltd")),
    (context, numbered 1 (.transfer stranger.address (.fromVtt 1))),
    (context, numbered 2 (.assetTransfer estate stranger.address ⟨100⟩)),
    (context, strange 0 (.proposeAssetAction estate (.distributeRevenue ⟨1000⟩) "pay")),
    (context, numbered 3 (.voteAssetProposal revenueId .yes))]
where
  /-- The id of the proposal. -/
  revenueId : H256 :=
    blake3Hash (Borsh.serialize (estate, stranger.address, (1 : UInt64), (0 : UInt64)))

/-- The vote has ended, but nobody can close the proposal. -/
theorem revenue_proposal_stuck :
    ∃ s p, Run (fun s event t => Event.Step s event t) funded (eventsOf revenueVote) s ∧
      Ended s revenueVote.revenueId (closing 4 revenueVote.revenueId) p ∧
      ¬ ∃ t, Succeeds afterVote (closing 4 revenueVote.revenueId) s t := by
  obtain ⟨s, p, hrun, h, hcheck⟩ :=
    exists_ended revenueVote revenueVote.revenueId (closing 4 revenueVote.revenueId)
      (fun s _ => (successes [(afterVote, closing 4 revenueVote.revenueId)] s).isNone)
      (by decide +kernel)
  refine ⟨s, p, hrun, h, ?_⟩
  rintro ⟨_, hsucceeds⟩
  rw [successes_singleton_iff.2 hsucceeds] at hcheck
  cases hcheck

end Demo

end Vtt
