import Vtt.State.Cell
import Vtt.State.Holdings

/-!
# Changes beside accounts and assets

Most methods of the state database have nothing to do with balances, holdings, pools or the terms of
assets. `Aside` says that a change leaves all of these alone, in the caches and in the store.
-/

namespace Vtt

open Lib Storage Note
open IsTrans (trans)

/-- What the accounting of an asset depends on: its supply, and whether its holders must be
approved. -/
def AssetRecord.terms (asset : AssetRecord) : Amount × Bool :=
  (asset.totalSupply, asset.requiresKyc)

namespace StateDB

variable {s t : StateDB} {column : Column}

/-- The terms of the assets in the cache. -/
def terms (db : StateDB) (assetId : H256) : Option (Amount × Bool) :=
  (db.assets[assetId]?).map AssetRecord.terms

/-- The status of the assets in the cache. -/
def statuses (db : StateDB) (assetId : H256) : Option AssetStatus :=
  (db.assets[assetId]?).map (·.status)

/-- The accounts are the same, in the cache and in the store. -/
structure SameAccounts (s t : StateDB) : Prop where
  accounts : t.accounts = s.accounts
  storedAccounts : ∀ key, t.storage.read .accounts key = s.storage.read .accounts key

/-- Holdings, pools and the terms of the assets are the same, and no asset was written to the
store. -/
structure SameLedger (s t : StateDB) : Prop where
  holdings : t.holdings = s.holdings
  pools : t.pools = s.pools
  terms : t.terms = s.terms
  storedAssets : ∀ key, t.storage.read .assets key = s.storage.read .assets key

/-- Neither accounts nor the ledger of the assets have changed, and no evidence was acted on. -/
structure Reforms (s t : StateDB) : Prop extends SameAccounts s t, SameLedger s t where
  seen : t.slashingSeen = s.slashingSeen

/-- The assets have kept their status as well. -/
structure Deliberates (s t : StateDB) : Prop extends Reforms s t where
  statuses : t.statuses = s.statuses

/-- The proposals of the assets are the same as well. -/
structure Legislates (s t : StateDB) : Prop extends Deliberates s t where
  proposals : t.assetProposals = s.assetProposals

/-- The governance proposals are the same, in the cache and in the store. -/
structure SameRecords (s t : StateDB) : Prop where
  records : t.governanceProposals = s.governanceProposals
  storedRecords : ∀ id, t.storage.read .chainMeta (governanceKey id) =
    s.storage.read .chainMeta (governanceKey id)

/-- None of all that has changed. -/
structure Aside (s t : StateDB) : Prop extends Legislates s t, SameRecords s t

instance : IsPreorder StateDB SameAccounts where
  refl _ := ⟨rfl, fun _ => rfl⟩
  trans _ _ _ h h' :=
    ⟨h'.accounts.trans h.accounts, fun key => (h'.storedAccounts key).trans (h.storedAccounts key)⟩

instance : IsPreorder StateDB SameLedger where
  refl _ := ⟨rfl, rfl, rfl, fun _ => rfl⟩
  trans _ _ _ h h' :=
    ⟨h'.holdings.trans h.holdings, h'.pools.trans h.pools, h'.terms.trans h.terms,
      fun key => (h'.storedAssets key).trans (h.storedAssets key)⟩

instance : IsPreorder StateDB Reforms where
  refl s := ⟨refl s, refl s, rfl⟩
  trans _ _ _ h h' :=
    ⟨IsTrans.trans _ _ _ h.toSameAccounts h'.toSameAccounts,
      IsTrans.trans _ _ _ h.toSameLedger h'.toSameLedger, h'.seen.trans h.seen⟩

instance : IsPreorder StateDB Deliberates where
  refl s := ⟨refl s, rfl⟩
  trans _ _ _ h h' := ⟨IsTrans.trans _ _ _ h.toReforms h'.toReforms, h'.statuses.trans h.statuses⟩

instance : IsPreorder StateDB Legislates where
  refl s := ⟨refl s, rfl⟩
  trans _ _ _ h h' :=
    ⟨IsTrans.trans _ _ _ h.toDeliberates h'.toDeliberates, h'.proposals.trans h.proposals⟩

instance : IsPreorder StateDB SameRecords where
  refl _ := ⟨rfl, fun _ => rfl⟩
  trans _ _ _ h h' :=
    ⟨h'.records.trans h.records, fun id => (h'.storedRecords id).trans (h.storedRecords id)⟩

instance : IsPreorder StateDB Aside where
  refl s := ⟨refl s, refl s⟩
  trans _ _ _ h h' :=
    ⟨IsTrans.trans _ _ _ h.toLegislates h'.toLegislates,
      IsTrans.trans _ _ _ h.toSameRecords h'.toSameRecords⟩

/-- What is read in an account's place is what was there. -/
theorem SameAccounts.getAccount (h : SameAccounts s t) (address : Address) :
    t.getAccount address = s.getAccount address := by
  unfold StateDB.getAccount
  rw [h.accounts, h.storedAccounts]

/-! ## Stores -/

/-- A store has the same accounts and assets as another. -/
def Beside (a b : Storage) : Prop :=
  ∀ key, b.read .accounts key = a.read .accounts key ∧ b.read .assets key = a.read .assets key

theorem Beside.refl (a : Storage) : Beside a a := fun _ => ⟨rfl, rfl⟩

theorem beside_write (a : Storage) (key value : Bytes) (h : .accounts ≠ column ∧ .assets ≠ column) :
    Beside a (a.write column key value) := fun _ =>
  ⟨read_write_of_ne _ _ (.inl h.1), read_write_of_ne _ _ (.inl h.2)⟩

theorem beside_remove (a : Storage) (key : Bytes) (h : .accounts ≠ column ∧ .assets ≠ column) :
    Beside a (a.remove column key) := fun _ =>
  ⟨read_remove_of_ne _ (.inl h.1), read_remove_of_ne _ (.inl h.2)⟩

/-- The keys of governance proposals begin in their own way. -/
theorem governanceKey_ne {key : Bytes} (h : labelOf key ≠ ascii "gov") (id : H256) :
    governanceKey id ≠ key := by
  rintro rfl
  exact h ((labelOf_append (by decide) _).trans (by decide))

/-- A store has the same governance proposals as well. -/
structure Apart (a b : Storage) : Prop where
  beside : Beside a b
  governance : ∀ id, b.read .chainMeta (governanceKey id) = a.read .chainMeta (governanceKey id)

theorem Apart.refl (a : Storage) : Apart a a := ⟨.refl a, fun _ => rfl⟩

theorem apart_write (a : Storage) (key value : Bytes) (h : .accounts ≠ column ∧ .assets ≠ column)
    (hmeta : .chainMeta ≠ column) : Apart a (a.write column key value) :=
  ⟨beside_write a key value h, fun _ => read_write_of_ne _ _ (.inl hmeta)⟩

theorem apart_writeMeta (a : Storage) (key value : Bytes) (h : labelOf key ≠ ascii "gov") :
    Apart a (a.write .chainMeta key value) :=
  ⟨beside_write a key value (by decide),
    fun id => read_write_of_ne _ _ (.inr (governanceKey_ne h id))⟩

theorem apart_removeMeta (a : Storage) (key : Bytes) (h : labelOf key ≠ ascii "gov") :
    Apart a (a.remove .chainMeta key) :=
  ⟨beside_remove a key (by decide), fun id => read_remove_of_ne _ (.inr (governanceKey_ne h id))⟩

theorem Apart.ite {p : Prop} [Decidable p] {a b c : Storage} (hb : Apart a b) (hc : Apart a c) :
    Apart a (if p then b else c) := by
  split
  · exact hb
  · exact hc

/-- A change that leaves the relevant caches alone and writes to the store beside accounts and
assets. -/
theorem Deliberates.of_beside (haccounts : t.accounts = s.accounts)
    (hholdings : t.holdings = s.holdings) (hpools : t.pools = s.pools)
    (hassets : t.assets = s.assets) (hseen : t.slashingSeen = s.slashingSeen)
    (hstorage : Beside s.storage t.storage) :
    Deliberates s t where
  accounts := haccounts
  storedAccounts key := (hstorage key).1
  holdings := hholdings
  pools := hpools
  terms := by
    funext assetId
    unfold terms
    rw [hassets]
  storedAssets key := (hstorage key).2
  seen := hseen
  statuses := by
    funext assetId
    unfold StateDB.statuses
    rw [hassets]

theorem Aside.of_apart
    (hcaches : (t.accounts, t.holdings, t.pools, t.assets, t.slashingSeen, t.assetProposals,
      t.governanceProposals) = (s.accounts, s.holdings, s.pools, s.assets, s.slashingSeen,
    s.assetProposals, s.governanceProposals)) (hstorage : Apart s.storage t.storage) :
    Aside s t := by
  simp only [Prod.mk.injEq] at hcaches
  obtain ⟨haccounts, hholdings, hpools, hassets, hseen, hproposals, hrecords⟩ := hcaches
  exact ⟨⟨.of_beside haccounts hholdings hpools hassets hseen hstorage.beside, hproposals⟩,
    hrecords, hstorage.governance⟩

theorem apart_markSlashingEvidence (s : StateDB) (offender : Address) (epoch : UInt64)
    (slot : UInt32) :
    Apart s.storage (s.markSlashingEvidence offender epoch slot).storage :=
  apart_writeMeta _ _ _ (by decide +kernel)

/-- A key of the chain metadata is written. -/
theorem aside_writeMeta (s : StateDB) (key value : Bytes) (h : labelOf key ≠ ascii "gov") :
    Aside s (s.writeMeta key value) :=
  .of_apart rfl (apart_writeMeta _ _ _ h)

end StateDB

/-- No note is a governance proposal. -/
theorem Note.labelOf_ne (note : Note) : labelOf note.key ≠ ascii "gov" := by
  intro h
  exact absurd (h ▸ note.labelOf_key) (by decide +kernel)

/-! ## Methods -/

namespace Db

open Confined StateDB

variable {ε : Type}

variable {address : Address} {id : H256}

/-- A note is written. -/
theorem aside_writeNote (note : Note) (value : Bytes)
    (hk : observationKey .chainMeta note.key = false) :
    Moves Aside (writeMeta note.key value hk : DbM ε Unit) :=
  .update fun s => s.aside_writeMeta note.key value note.labelOf_ne

theorem deliberates_setCachedAssetProposal (proposal : AssetProposal) :
    Moves Deliberates (setCachedAssetProposal id proposal : DbM ε Unit) :=
  .update fun _ => .of_beside rfl rfl rfl rfl rfl (.refl _)

theorem deliberates_putAssetProposal (proposal : AssetProposal) :
    Moves Deliberates (putAssetProposal proposal : DbM ε Unit) :=
  .update fun _ => .of_beside rfl rfl rfl rfl rfl (beside_write _ _ _ (by decide))

theorem aside_putOracle (feedId : H256) (feed : OracleFeed) :
    Moves Aside (putOracle feedId feed : DbM ε Unit) :=
  .update fun _ => .of_apart rfl (apart_write _ _ _ (by decide) (by decide))

theorem aside_storeCode [Crypto] (code : Bytes) : Moves Aside (storeCode code : DbM ε H256) :=
  .act fun _ => .of_apart rfl (apart_write _ _ _ (by decide) (by decide))

theorem aside_putContractStorage (key value : Bytes) :
    Moves Aside (putContractStorage address key value : DbM ε Unit) :=
  .update fun _ => .of_apart rfl (apart_write _ _ _ (by decide) (by decide))

theorem aside_putMiningStateRaw (poolId : H256) (data : Bytes) :
    Moves Aside (putMiningStateRaw poolId data : DbM ε Unit) :=
  .update fun _ => .of_apart rfl (apart_write _ _ _ (by decide) (by decide))

theorem legislates_putGovernanceProposal (data : Bytes) :
    Moves Legislates (putGovernanceProposal id data : DbM ε Unit) :=
  .update fun _ => ⟨.of_beside rfl rfl rfl rfl rfl (beside_write _ _ _ (by decide)), rfl⟩

theorem aside_setTreasuryAddress (address : Address) :
    Moves Aside (setTreasuryAddress address : DbM ε Unit) :=
  .update fun _ => .of_apart rfl (apart_writeMeta _ _ _ (by decide +kernel))

theorem aside_setDexPaused (paused : Bool) : Moves Aside (setDexPaused paused : DbM ε Unit) :=
  .update fun _ => .of_apart rfl (apart_writeMeta _ _ _ (by decide +kernel))

theorem aside_nextRegisteredChainId : Moves Aside (nextRegisteredChainId : DbM ε UInt32) :=
  .act fun s => s.aside_writeMeta _ _ (labelOf_ne .nextChainId)

theorem aside_setAddressJurisdiction (country : String) :
    Moves Aside (setAddressJurisdiction address country : DbM ε Unit) :=
  .update fun _ => .of_apart rfl (.ite (apart_removeMeta _ _ (labelOf_ne (.jurisdiction address)))
    (apart_writeMeta _ _ _ (labelOf_ne (.jurisdiction address))))

theorem aside_recordSlash (validator : Address) (epoch : UInt64) (reason : String)
    (amount : Amount) :
    Moves Aside (recordSlash validator epoch reason amount : DbM ε Unit) :=
  .update fun s => trans _ _ _ (s.aside_writeMeta _ _ (labelOf_ne (.slash validator epoch)))
    (aside_writeMeta _ _ _ (labelOf_ne (.slashHistory validator)))

theorem aside_setKycApproved (approved : Bool) :
    Moves Aside (setKycApproved address approved : DbM ε Unit) :=
  .update fun _ => .of_apart rfl (apart_writeMeta _ _ _ (by decide +kernel))

theorem aside_addUnbondingEntry (entry : UnbondingEntry) :
    Moves Aside (addUnbondingEntry address entry : DbM ε Unit) :=
  .update fun _ => .of_apart rfl (apart_writeMeta _ _ _ (by decide +kernel))

theorem aside_registerOracle (feed : OracleFeed) : Moves Aside (registerOracle feed) :=
  .bind .view fun _ => .guarded <| aside_putOracle ..

theorem aside_submitOracle (feedId : H256) (source : Address) (value : Amount)
    (timestamp : Timestamp) :
    Moves Aside (submitOracle feedId source value timestamp) :=
  .found fun _ _ => .guarded <| .bind (aside_putOracle ..) fun _ => .pure _

theorem aside_nextGovernanceId : Moves Aside (nextGovernanceId : DbM ε UInt64) :=
  .bind .view fun _ => .bind (.unwrap _) fun _ => .bind (aside_writeNote .governanceCounter _ _)
    fun _ => .pure _

theorem deliberates_changeAssetProposal {missing : ε} {change : AssetProposal → DbM ε AssetProposal}
    (h : ∀ proposal, Moves Deliberates (change proposal)) : Moves Deliberates
      (changeAssetProposal id missing change) :=
  .found fun _ _ => .bind (h _) fun _ => deliberates_setCachedAssetProposal ..

/-- A change of an asset in place that touches nothing else. -/
def ChangesOnly (P : AssetRecord → AssetRecord → Prop) (change : AssetRecord → DbM ε AssetRecord) :
    Prop :=
  ∀ ⦃asset s result t⦄, (change asset).run s = some (result, t) →
    t = s ∧ ∀ changed, result = .ok changed → P asset changed

/-- What a change of a cached asset leaves behind. -/
theorem changeAsset_run {P : AssetRecord → AssetRecord → Prop} {assetId : H256} {missing : ε}
    {change : AssetRecord → DbM ε AssetRecord} (h : ChangesOnly P change) {s t : StateDB}
    {result : Except ε Unit}
    (hrun : (changeAsset assetId missing change).run s = some (result, t)) :
    t = s ∨ t = s.touchAsset assetId ∨ ∃ asset changed, s.getAsset assetId = some asset ∧
      P asset changed ∧
      t = (s.touchAsset assetId).setCachedAsset assetId changed := by
  change (okOr (s.getAsset assetId) missing >>= fun asset => touchAsset assetId >>= fun _ =>
    change asset >>= fun asset => setCachedAsset assetId asset).run s = some (result, t) at hrun
  cases hasset : s.getAsset assetId with
  | none =>
    rw [hasset] at hrun
    cases hrun
    exact .inl rfl
  | some asset =>
    rw [hasset] at hrun
    change (change asset >>= fun asset => setCachedAsset assetId asset).run (s.touchAsset assetId) =
      some (result, t) at hrun
    refine .inr ?_
    cases hchange : (change asset).run (s.touchAsset assetId) with
    | none => cases (Exec.run_bind_of_abort hchange).symm.trans hrun
    | some outcome =>
      obtain ⟨r, _⟩ := outcome
      obtain ⟨rfl, hkeeps⟩ := h hchange
      cases r with
      | error =>
        rw [run_bind_of_error hchange] at hrun
        cases hrun
        exact .inl rfl
      | ok changed =>
        rw [run_bind_of_ok hchange] at hrun
        cases hrun
        exact .inr ⟨asset, changed, rfl, hkeeps changed rfl, rfl⟩

end Db

namespace StateDB

variable {asset changed : AssetRecord} {assetId : H256} {s : StateDB}

/-- Marking an asset as changed. -/
theorem aside_touchAsset (s : StateDB) (assetId : H256) : Aside s (s.touchAsset assetId) :=
  .of_apart rfl (.refl _)

/-- A part of an asset that a change keeps is the same for all assets. -/
theorem map_setCachedAsset {α : Type} (g : AssetRecord → α)
    (hasset : s.getAsset assetId = some asset) (hg : g changed = g asset) (id : H256) :
    ((s.setCachedAsset assetId changed).assets[id]?).map g = (s.assets[id]?).map g := by
  show ((s.assets.insert assetId changed)[id]?).map _ = (s.assets[id]?).map _
  rw [get_insert]
  split
  · rename_i heq
    subst heq
    rw [show s.assets[assetId]? = some asset from hasset]
    exact congrArg some hg
  · rfl

theorem reforms_setCachedAsset (hasset : s.getAsset assetId = some asset)
    (hterms : changed.terms = asset.terms) :
    Reforms s (s.setCachedAsset assetId changed) where
  accounts := rfl
  storedAccounts _ := rfl
  holdings := rfl
  pools := rfl
  terms := funext (map_setCachedAsset AssetRecord.terms hasset hterms)
  storedAssets _ := rfl
  seen := rfl

theorem aside_setCachedAsset (hasset : s.getAsset assetId = some asset)
    (hterms : changed.terms = asset.terms) (hstatus : changed.status = asset.status) :
    Aside s (s.setCachedAsset assetId changed) where
  toReforms := reforms_setCachedAsset hasset hterms
  statuses := funext (map_setCachedAsset AssetRecord.status hasset hstatus)
  proposals := rfl
  records := rfl
  storedRecords _ := rfl

end StateDB

namespace Db

open Confined StateDB

variable {ε : Type}

variable {assetId : H256}

/-- A change of an asset in place that keeps its terms. -/
theorem reforms_changeAsset {missing : ε} {change : AssetRecord → DbM ε AssetRecord}
    (h : ChangesOnly (fun asset changed => changed.terms = asset.terms) change) :
    Moves Reforms (changeAsset assetId missing change) := by
  intro s _ _ hrun
  rcases changeAsset_run h hrun with rfl | rfl | ⟨_, _, hasset, hterms, rfl⟩
  · exact refl _
  · exact (s.aside_touchAsset assetId).toReforms
  · exact trans _ _ _ (s.aside_touchAsset assetId).toReforms (reforms_setCachedAsset hasset hterms)

/-- A change of an asset in place that keeps its terms and its status. -/
theorem aside_changeAsset {missing : ε} {change : AssetRecord → DbM ε AssetRecord}
    (h : ChangesOnly (fun asset changed => changed.terms = asset.terms ∧
      changed.status = asset.status) change) :
    Moves Aside (changeAsset assetId missing change) := by
  intro s _ _ hrun
  rcases changeAsset_run h hrun with rfl | rfl | ⟨_, _, hasset, ⟨hterms, hstatus⟩, rfl⟩
  · exact refl _
  · exact s.aside_touchAsset assetId
  · exact trans _ _ _ (s.aside_touchAsset assetId) (aside_setCachedAsset hasset hterms hstatus)

end Db

end Vtt
