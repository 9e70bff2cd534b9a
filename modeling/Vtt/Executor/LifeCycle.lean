import Vtt.Executor.Events
import Vtt.Executor.Spending

/-!
# The life cycle of an asset

Once the holders of an asset have voted to dispose of it, it should only ever be redeemed. Three
change it without asking where it stands: an issuer who freezes the asset, and a proposal of
disposal that passes, also a second one.
-/

namespace Vtt

open Lib Option

namespace AssetStatus

/-- A redeemed asset stays redeemed, and one that is being redeemed is redeemed at most. -/
structure Follows (a b : AssetStatus) : Prop where
  redeemed : a = .redeemed → b = .redeemed
  pending : a = .redemptionPending → b = .redemptionPending ∨ b = .redeemed

theorem Follows.refl (a : AssetStatus) : a.Follows a := ⟨id, .inl⟩

theorem Follows.trans {a b c : AssetStatus} (h : a.Follows b) (h' : b.Follows c) : a.Follows c where
  redeemed ha := h'.redeemed (h.redeemed ha)
  pending ha := by
    rcases h.pending ha with hb | hb
    · exact h'.pending hb
    · exact .inr (h'.redeemed hb)

/-- Any status may come after one from which nothing was decided. -/
theorem follows_of_open {a b : AssetStatus} (h : a ≠ .redemptionPending) (h' : a ≠ .redeemed) :
    a.Follows b :=
  ⟨fun ha => absurd ha h', fun ha => absurd ha h⟩

end AssetStatus

namespace Executor

open Confined StateDB

variable {id : H256} {changed asset : AssetRecord}

/-- A cached asset stays in the cache, with a status that may come after the one it had. -/
def Advances (assetId : H256) (s t : StateDB) : Prop :=
  ∀ asset, s.getAsset assetId = some asset →
    ∃ asset', t.getAsset assetId = some asset' ∧ asset.status.Follows asset'.status

/-- A transaction does not freeze an asset whose disposal was voted, and does not dispose of it once
it is redeemed. -/
structure LeavesFinal [Crypto] (assetId : H256) (s : StateDB) (tx : SignedTransaction) : Prop where
  unfrozen : tx.payload.action = .freezeAsset assetId → ∀ asset, s.getAsset assetId = some asset →
    asset.issuer = tx.sender → asset.status ≠ .redemptionPending ∧ asset.status ≠ .redeemed
  undisposed : ∀ proposalId proposal reason asset, tx.payload.action =
    .finalizeAssetProposal proposalId → s.getAssetProposal proposalId = some proposal →
    proposal.assetId = assetId →
    proposal.action = .disposeAsset reason → s.getAsset assetId = some asset →
      asset.status ≠ .redeemed

/-- The condition on an event: transactions leave what is final. -/
def Event.LeavesFinal [Crypto] (assetId : H256) (s : StateDB) : Event → Prop
  | .transaction _ tx => Executor.LeavesFinal assetId s tx
  | _ => True

section Relation

variable {assetId : H256} {s t : StateDB}

instance (assetId : H256) : IsPreorder StateDB (Advances assetId) where
  refl _ := fun asset h => ⟨asset, h, .refl _⟩
  trans _ _ _ h h' := by
    intro asset hasset
    obtain ⟨asset', hasset', follows⟩ := h asset hasset
    obtain ⟨last, hlast, follows'⟩ := h' asset' hasset'
    exact ⟨last, hlast, follows.trans follows'⟩

theorem advances_of_assets (h : t.assets = s.assets) : Advances assetId s t := by
  intro asset hasset
  refine ⟨asset, ?_, .refl _⟩
  rw [getAsset, h]
  exact hasset

theorem advances_of_statuses (h : t.statuses = s.statuses) : Advances assetId s t := by
  intro _ hasset
  have same : (t.getAsset assetId).map (·.status) = (s.getAsset assetId).map (·.status) :=
    congrFun h assetId
  rw [hasset] at same
  obtain ⟨asset', hasset', hstatus⟩ := map_eq_some_iff.1 same
  exact ⟨asset', hasset', hstatus ▸ .refl _⟩

/-- Another asset is set, or this one in a way that may come next. -/
theorem advances_insert (h : t.assets = s.assets.insert id changed)
    (hfollows : id = assetId → ∀ asset, s.getAsset assetId = some asset →
      asset.status.Follows changed.status) :
    Advances assetId s t := by
  intro asset hasset
  rw [getAsset, h, get_insert]
  split
  · rename_i heq
    exact ⟨changed, rfl, hfollows heq asset hasset⟩
  · exact ⟨asset, hasset, .refl _⟩

theorem advances_insert_new {new : AssetRecord} (hnew : id ∉ s.assets)
    (h : t.assets = s.assets.insert id new) :
    Advances assetId s t := by
  refine advances_insert h fun heq asset hasset => absurd ?_ hnew
  subst heq
  exact mem_of_get hasset

theorem advances_putAccount (s : StateDB) (address : Address) (account : AccountState) :
    Advances assetId s (s.putAccount address account) := advances_of_assets rfl

/-- What happens beside the status of assets. -/
theorem routine_advances (assetId : H256) : Routine (Advances assetId) fun _ => True where
  aside _ _ h := advances_of_statuses h.statuses
  addBalance _ _ := .found fun _ _ => .update fun s => advances_putAccount s _ _
  subBalance _ _ _ := .found fun _ _ => .update fun s => advances_putAccount s _ _

theorem restakes_advances (assetId : H256) : Routine.Restakes (Advances assetId) := fun s _ _ =>
  advances_putAccount s _ _

end Relation

section Operations

variable {assetId : H256} {s t : StateDB} {sender : Address}

/-- A redemption ends once there are no tokens left. -/
theorem redeemed_follows {holderTotal share : Amount}
    (h : redeemed asset holderTotal share = some changed) :
    asset.status.Follows changed.status := by
  obtain ⟨_, -, h⟩ := bind_eq_some_iff.1 h
  obtain ⟨_, -, h⟩ := bind_eq_some_iff.1 h
  cases h
  split
  · exact ⟨fun _ => rfl, fun _ => .inr rfl⟩
  · exact .refl _

/-- Only an asset that is being redeemed is declared redeemed. -/
theorem executeFinalizeRedemption_advances (id : H256) :
    MovesAt (Advances assetId) s (executeFinalizeRedemption id) := by
  refine Routine.cachedAsset_bind fun asset hasset => .require_bind fun hpending => ?_
  refine .still_bind (Routine.cached _) fun treasury _ => ?_
  refine .bind ?_ fun _ t _ =>
    Moves.at (.ite (.pure _) (.mapError ((routine_advances assetId).addBalance ..))) t
  intro _ _ hrun
  have keeps :=
    Routine.changesOnly_ofPure (ε := ExecutionError) (P := fun _ changed =>
      changed.status = .redeemed)
        (f := fun asset => { asset with status := .redeemed, redemptionPool := .zero }) fun _ => rfl
  rcases Db.changeAsset_run keeps hrun with rfl | rfl | ⟨_, _, _, hchanged, rfl⟩
  · exact refl _
  · exact advances_of_assets rfl
  refine advances_insert rfl ?_
  rintro rfl _ _
  rw [hchanged]
  exact ⟨fun _ => rfl, fun _ => .inr rfl⟩

/-- An asset that is cached is not looked up in the store. -/
theorem getAssetOwned_of_cached (h : s.getAsset assetId = some asset) :
    s.getAssetOwned assetId = some asset := by
  unfold StateDB.getAssetOwned
  rw [show s.assets[assetId]? = some asset from h]

theorem unfreeze_follows (asset : AssetRecord) : asset.status.Follows asset.unfreeze.status := by
  unfold AssetRecord.unfreeze
  split
  · rename_i hfrozen
    rw [hfrozen]
    exact AssetStatus.follows_of_open (by decide) (by decide)
  · exact .refl _

variable [Crypto]

/-- What a proposal that passed does to the status of an asset. -/
theorem runAssetAction_advances {proposal : AssetProposal}
    (h : ∀ reason asset, proposal.assetId = assetId → proposal.action = .disposeAsset reason →
      s.getAsset assetId = some asset → asset.status ≠ .redeemed) :
    MovesAt (Advances assetId) s (runAssetAction proposal) := by
  unfold runAssetAction
  cases haction : proposal.action with
  | distributeRevenue =>
    exact Moves.at (.bind ((routine_advances assetId).executeDistributeRevenue trivial)
      fun _ => .pure _) s
  | changeIssuer newIssuer =>
    have changed :
        Moves Aside (Db.changeAsset proposal.assetId (assetMissing proposal.assetId) fun asset =>
        pure { asset with issuer := newIssuer } : ExecM Unit) :=
      Db.aside_changeAsset (Routine.changesOnly_ofPure fun _ => ⟨rfl, rfl⟩)
    exact ((routine_advances assetId).of_aside changed).at s
  | signal => exact Moves.at (.pure _) s
  | disposeAsset reason =>
    intro _ _ hrun
    have keeps := Routine.changesOnly_ofPure (ε := ExecutionError)
      (P := fun _ changed => changed.status = .redemptionPending)
      (f := fun asset => { asset with status := .redemptionPending }) fun _ => rfl
    rcases Db.changeAsset_run keeps hrun with rfl | rfl | ⟨_, _, _, hchanged, rfl⟩
    · exact refl _
    · exact advances_of_assets rfl
    refine advances_insert rfl fun hid asset hasset => ?_
    rw [hchanged]
    exact ⟨fun hredeemed => absurd hredeemed (h reason asset hid haction hasset), fun _ => .inl rfl⟩
  | finalizeRedemption => exact executeFinalizeRedemption_advances _

/-- An issuer replaces an asset. -/
theorem changeByIssuer_advances {change : AssetRecord → AssetRecord} {eventName : String}
    {logs : List Log} (h : id = assetId → ∀ asset, s.getAsset assetId = some asset →
      asset.issuer = sender →
      asset.status.Follows (change asset).status)
    (hrun : (changeByIssuer sender id change eventName).run s = some (.ok logs, t)) :
    Advances assetId s t := by
  obtain ⟨_, hasset, hrun⟩ := ok_of_okOr (o := s.getAssetOwned id) hrun
  obtain ⟨hissuer, hrun⟩ := ok_of_require hrun
  obtain ⟨_, hput, -⟩ := ok_of_last hrun
  cases hput
  refine advances_insert rfl fun heq cached hcached => ?_
  subst heq
  obtain rfl := some.inj ((getAssetOwned_of_cached hcached).symm.trans hasset)
  exact h rfl cached hcached hissuer

/-! ## Transactions -/

variable [Wasm] [Environment] {ctx : BlockContext} {tx : SignedTransaction}
  {result : ExecutionResult}

/-- An operation that succeeds leaves what is final. -/
theorem operation_advances {logs : List Log} (h : LeavesFinal assetId s tx)
    (hrun : (operation ctx tx).run s = some (.ok logs, t)) : Advances assetId s t := by
  by_cases hroutine : tx.payload.action.isRoutine = true
  · refine (routine_advances assetId).executeAction (restakes_advances assetId) hroutine
      ⟨trivial, fun _ _ _ _ _ _ => trivial, fun _ _ _ h => advances_of_statuses h.statuses,
        fun _ _ _ h => advances_of_statuses h.statuses, ?_,
        fun _ _ t _ _ => advances_putAccount t _ _, fun _ _ _ _ _ _ => advances_of_assets rfl⟩ hrun
    intro proposalId proposal asset haction hproposal _ _ _ _ _
    exact runAssetAction_advances fun reason asset =>
      h.undisposed proposalId proposal reason asset haction hproposal
  have entry := (booked_of_executeAction hrun).entry
  unfold operation at hrun
  generalize haction : tx.payload.action = action at *
  cases entry with
  | routine hr => exact absurd hr hroutine
  | created _ hnew _ assets => exact advances_insert_new hnew assets
  | transferred _ _ _ _ _ _ assets => exact advances_of_assets assets
  | opened _ _ _ _ _ _ _ hnew _ assets => exact advances_insert_new hnew assets
  | deposited _ _ _ _ _ _ _ _ trade => exact advances_of_assets trade.assets
  | withdrawn _ _ _ _ _ _ trade => exact advances_of_assets trade.assets
  | swapped _ _ _ _ _ _ _ trade => exact advances_of_assets trade.assets
  | collected _ _ trade => exact advances_of_assets trade.assets
  | reissued asset _ hkind =>
    -- the entry does not say what became of the asset
    rcases hkind with rfl | rfl
    · refine changeByIssuer_advances ?_ hrun
      rintro rfl asset hasset hissuer
      obtain ⟨hpending, hredeemed⟩ := h.unfrozen haction asset hasset hissuer
      exact AssetStatus.follows_of_open hpending hredeemed
    · exact changeByIssuer_advances (fun _ asset _ _ => unfreeze_follows asset) hrun
  | redeemed _ _ _ _ hasset _ hchanged _ assets =>
    refine advances_insert assets ?_
    rintro rfl _ hcached
    obtain rfl := some.inj (hasset.symm.trans hcached)
    exact redeemed_follows hchanged
  | bridgedIn _ _ _ assets => exact advances_of_assets assets
  | bridgedOut _ assets => exact advances_of_assets assets

/-- So does a transaction. -/
theorem Outcome.advances (h : Outcome ctx tx s result t) (hleaves : LeavesFinal assetId s tx) :
    Advances assetId s t := by
  cases hsuccess : result.receipt.success with
  | false => exact advances_of_assets (h.same_of_failure hsuccess).2.2
  | true =>
    cases h with
    | inert | excessive | short | failed => cases hsuccess
    | done _ hrun =>
      obtain ⟨-, hproposals, hassets⟩ := charge_same s tx.sender (gasFee tx ctx.gasConfig)
      refine IsTrans.trans _ _ _ (advances_of_assets hassets) (operation_advances ⟨?_, ?_⟩ hrun)
      · intro haction asset hasset
        rw [getAsset, hassets] at hasset
        exact hleaves.unfrozen haction asset hasset
      · intro proposalId proposal reason asset haction hproposal hid hdispose hasset
        rw [getAssetProposal, hproposals] at hproposal
        rw [getAsset, hassets] at hasset
        exact hleaves.undisposed proposalId proposal reason asset haction hproposal hid
          hdispose hasset

/-- Every event leaves what is final, transactions under their condition. -/
theorem Event.advances {event : Event} (h : event.Step s t)
    (hleaves : event.LeavesFinal assetId s) :
    Advances assetId s t := by
  obtain ⟨_, _, _, rfl, outcome⟩ | advances :=
    outcome_or (routine_advances assetId) (restakes_advances assetId)
      (fun _ _ h => advances_of_statuses h.statuses) h
  · exact outcome.advances hleaves
  · exact advances

/-- In a run whose transactions leave what is final, the status of an asset follows the one it had
in every earlier state. After disposal was voted nothing makes its tokens tradeable again. -/
theorem status_follows {events : List Event} {asset : AssetRecord}
    (h : Run (Within (fun s event => event.LeavesFinal assetId s) fun s event t =>
    event.Step s t) s events t) (hasset : s.getAsset assetId = some asset) :
    ∃ asset', t.getAsset assetId = some asset' ∧ asset.status.Follows asset'.status ∧
      (asset.status = .redemptionPending ∨ asset.status = .redeemed →
        asset'.isTradeable = false) := by
  have advances : Advances assetId s t :=
      h.invariant (I := Advances assetId s) (fun _ _ _ hstep before =>
        IsTrans.trans _ _ _ before (Event.advances hstep.2 hstep.1)) (refl s)
  obtain ⟨asset', hasset', follows⟩ := advances asset hasset
  refine ⟨asset', hasset', follows, ?_⟩
  have closed : asset'.status = .redemptionPending ∨ asset'.status = .redeemed →
      asset'.isTradeable = false := by
    rintro (hstatus | hstatus)
    · rw [AssetRecord.isTradeable, hstatus]
      rfl
    · rw [AssetRecord.isTradeable, hstatus]
      rfl
  rintro (hpending | hredeemed)
  · exact closed (follows.pending hpending)
  · exact closed (.inr (follows.redeemed hredeemed))

end Operations

end Executor

/-! ## On a small state -/

namespace Demo

open Executor

/-- The asset that the validator creates. -/
def estate : H256 := newAssetId key.address "Estate" "EST"

/-- The proposal to dispose of it, made in the first block. -/
def disposalId : H256 :=
  blake3Hash (Borsh.serialize (estate, key.address, (1 : UInt64), (1 : UInt64)))

/-- The context of a block after the vote. -/
def afterVote : BlockContext := { context with blockNumber := 300000 }

/-- An asset is created and its only holder votes to dispose of it. -/
def disposal : List (BlockContext × SignedTransaction) :=
  [(context, numbered 0 (.createAssetClass "Estate" "EST" "" ⟨1000⟩ 0 "other" "IT" "Estate Ltd")),
    (context, numbered 1 (.proposeAssetAction estate (.disposeAsset "sold") "sell")),
    (context, numbered 2 (.voteAssetProposal disposalId .yes)),
    (afterVote, numbered 3 (.finalizeAssetProposal disposalId))]

/-- Its issuer freezes it and unfreezes it again. -/
def revival : List (BlockContext × SignedTransaction) :=
  [(afterVote, numbered 4 (.freezeAsset estate)), (afterVote, numbered 5 (.unfreezeAsset estate))]

/-- An asset is pending redemption, or tradeable. -/
def isPending (db : StateDB) : Bool := (db.getAsset estate).any (·.isRedemptionPending)

def isRevived (db : StateDB) : Bool := (db.getAsset estate).any (·.isTradeable)

theorem isPending_iff {db : StateDB} :
    isPending db = true ↔ ∃ asset, db.getAsset estate = some asset ∧
      asset.status = .redemptionPending := by
  simp [isPending, AssetRecord.isRedemptionPending, any_eq_true]

/-- The tokens of an asset are tradeable again after its disposal was voted. -/
theorem disposal_revived :
    ∃ s t asset asset', Run (fun s event t => Event.Step s event t) funded (eventsOf disposal) s ∧
      s.getAsset estate = some asset ∧ asset.status = .redemptionPending ∧
      Run (fun s event t => Event.Step s event t) s (eventsOf revival) t ∧
      t.getAsset estate = some asset' ∧ asset'.isTradeable = true ∧
      ¬ asset.status.Follows asset'.status := by
  obtain ⟨s, hrun, hcheck⟩ := exists_successes disposal funded
    (fun s => isPending s && (successes revival s).any isRevived) (by decide +kernel)
  obtain ⟨hpending, hrest⟩ := Bool.and_eq_true_iff.1 hcheck
  obtain ⟨asset, hasset, hstatus⟩ := isPending_iff.1 hpending
  obtain ⟨t, hrun', hrevived⟩ := exists_successes revival s isRevived hrest
  obtain ⟨asset', hasset', htradeable⟩ := (any_eq_true ..).1 hrevived
  refine ⟨s, t, asset, asset', hrun, hasset, hstatus, hrun', hasset', htradeable, fun follows => ?_⟩
  have active : asset'.status = .active := eq_of_beq htradeable
  rw [active] at follows
  rcases follows.pending hstatus with h | h
  · cases h
  · cases h

/-- Unfreezing it alone changes nothing. -/
theorem disposal_final : ∃ s t asset asset', s.getAsset estate = some asset ∧
    asset.status = .redemptionPending ∧
      Event.Step s (.transaction afterVote (numbered 4 (.unfreezeAsset estate))) t ∧
      t.getAsset estate = some asset' ∧ asset.status.Follows asset'.status := by
  obtain ⟨s, -, hcheck⟩ := exists_successes disposal funded
    (fun s => isPending s && ((executeTransactionAt afterVote (numbered 4 (.unfreezeAsset estate)) :
      DbM Empty _).run s).any (·.1.isOk)) (by decide +kernel)
  obtain ⟨hpending, hrest⟩ := Bool.and_eq_true_iff.1 hcheck
  obtain ⟨asset, hasset, hstatus⟩ := isPending_iff.1 hpending
  obtain ⟨⟨result, t⟩, hrun, -⟩ := (any_eq_true ..).1 hrest
  obtain ⟨result, rfl, -⟩ := executeTransactionAt_iff.1 hrun
  have step : Event.Step s (.transaction afterVote (numbered 4 (.unfreezeAsset estate))) t :=
    ⟨result, hrun⟩
  have leaves :
      Event.LeavesFinal estate s (.transaction afterVote (numbered 4 (.unfreezeAsset estate))) :=
    ⟨fun h => (nomatch h), fun _ _ _ _ h => (nomatch h)⟩
  obtain ⟨asset', hasset', follows, -⟩ := status_follows (.snoc .nil ⟨leaves, step⟩) hasset
  exact ⟨s, t, asset, asset', hasset, hstatus, step, hasset', follows⟩

end Demo

end Vtt
