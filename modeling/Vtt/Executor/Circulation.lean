import Vtt.Executor.HolderCap
import Vtt.Executor.LifeCycle
import Vtt.Executor.Voting
import Vtt.State.Restarted

/-!
# Tokens in circulation

What all owners hold of an asset is its supply, for every registered asset that is not the liquidity
token of a pool. The operations keep this, with one exception: a deposit of a registered asset over
the bridge is credited to its recipient, but not added to the supply.
-/

namespace Vtt

open Lib Std Vtt.Flow Genesis ExtTreeMap Option
open Option (map_some bind_eq_some_iff any_eq_true)

namespace Executor

open Confined StateDB Dex

variable {after : AssetRecord} {config : GenesisConfig}

/-- An asset is no liquidity token of a pool. -/
def Unlisted (assetId : H256) (s : StateDB) : Prop :=
  ∀ poolId pool, s.pool poolId = some pool → pool.lpTokenId ≠ assetId

/-- The books are in order, and what is held of an asset is its supply. -/
structure Circulates (s : StateDB) : Prop where
  books : Books s
  supply : ∀ assetId asset, s.getAsset assetId = some asset → Unlisted assetId s →
    s.holdings.supply assetId = asset.totalSupply.raw.toNat

section Changes

variable {s t : StateDB} {assetId : H256}

/-- A pool keeps its liquidity token. -/
theorem unlisted_before (h : PoolChange s t) (hs : Books s) (ht : Unlisted assetId t) :
    Unlisted assetId s := by
  intro poolId pool hpool
  cases h with
  | same pools =>
    refine ht poolId pool ?_
    rw [StateDB.pool, pools]
    exact hpool
  | opened _ hnew _ _ pools =>
    refine ht poolId pool ?_
    rw [pool_of_insert pools, if_neg]
    · exact hpool
    · rintro rfl
      rw [StateDB.pool, getElem?_eq_none hnew] at hpool
      cases hpool
  | changed _ new hold hid hlp pools =>
    by_cases heq : poolId = new.poolId
    · subst heq
      have hfiled := hs.filed _ _ hold
      rw [← hid] at hfiled
      rw [hfiled] at hpool
      obtain rfl := some.inj (hold.symm.trans hpool)
      rw [← hlp]
      exact ht new.poolId new (by rw [pool_of_insert pools, if_pos rfl])
    · refine ht poolId pool ?_
      rw [pool_of_insert pools, if_neg heq]
      exact hpool

/-- What becomes of the supply of a registered asset: what is held changes with it, or the asset is
new and all of it is held. -/
inductive Tally (s t : StateDB) (assetId : H256) (after : AssetRecord) : Prop where
  | known (before : AssetRecord) (hbefore : s.getAsset assetId = some before)
      (held : t.holdings.supply assetId + before.totalSupply.raw.toNat =
        s.holdings.supply assetId + after.totalSupply.raw.toNat)
  | new (hnew : assetId ∉ s.assets)
      (held : t.holdings.supply assetId = s.holdings.supply assetId + after.totalSupply.raw.toNat)

theorem Tally.of_same (hafter : t.getAsset assetId = some after) (hassets : t.assets = s.assets)
    (held : t.holdings.supply assetId = s.holdings.supply assetId) : Tally s t assetId after := by
  refine .known after ?_ (by rw [held])
  rw [getAsset, ← hassets]
  exact hafter

theorem Tally.of_terms (hafter : t.getAsset assetId = some after)
    (hterms : t.terms assetId = s.terms assetId)
    (held : t.holdings.supply assetId = s.holdings.supply assetId) : Tally s t assetId after := by
  unfold terms at hterms
  rw [show t.assets[assetId]? = some after from hafter, map_some, eq_comm,
    map_eq_some_iff] at hterms
  obtain ⟨before, hbefore, hsame⟩ := hterms
  refine .known before hbefore ?_
  rw [held, show before.totalSupply = after.totalSupply from congrArg Prod.fst hsame]

theorem Circulates.of_tally (hs : Circulates s) (ht : Books t) (hchange : PoolChange s t)
    (htally : ∀ assetId after, t.getAsset assetId = some after → Unlisted assetId t →
      Tally s t assetId after) :
    Circulates t := by
  refine ⟨ht, fun assetId after hafter hunlisted => ?_⟩
  cases htally assetId after hafter hunlisted with
  | known before hbefore =>
    have hsupply := hs.supply assetId before hbefore (unlisted_before hchange hs.books hunlisted)
    omega
  | new hnew =>
    have hnone := hs.books.unheld assetId hnew
    omega

/-- An operation that only looks at assets and pools, or does not touch what is held and the
supply. -/
theorem Circulates.of_sameLedger (hs : Circulates s) (h : SameLedger s t) : Circulates t :=
  hs.of_tally (hs.books.of_sameLedger h) (.same h.pools) fun assetId _ hafter _ =>
    .of_terms hafter (congrFun h.terms assetId) (by rw [h.holdings])

end Changes

/-! ## Operations -/

theorem circulates_new : Circulates .new := by
  have hpools : ∀ poolId pool, ¬ new.pool poolId = some pool := by
    intro poolId _ h
    unfold pool at h
    cases h
  refine ⟨⟨Holdings.keyed_empty, fun _ _ h => absurd h (hpools _ _),
    fun _ _ h => absurd h (hpools _ _), fun _ _ _ _ h => absurd h (hpools _ _), fun _ _ => rfl⟩,
    fun assetId asset h => ?_⟩
  cases h

variable [Crypto]

/-- An operation that keeps the supply: a deposit over the bridge is one of the coin, or empty; and
an asset that its issuer replaces is in the cache, if it is registered at all. -/
structure KeepsSupply (s : StateDB) (action : TransactionAction) : Prop where
  deposit : ∀ sourceTxHash sourceChain recipient token amount,
    action = .bridgeDeposit sourceTxHash sourceChain recipient token amount →
    token = .zero ∨ amount = .zero
  cached : ∀ assetId, action = .freezeAsset assetId ∨ action = .unfreezeAsset assetId →
    s.getAssetOwned assetId = s.getAsset assetId

section Operations

variable {s t : StateDB} {sender : Address} {action : TransactionAction} {assetId : H256}

theorem Booked.tally (h : Booked sender action s t) (hs : Books s) (hkeeps : KeepsSupply s action)
    (hafter : t.getAsset assetId = some after) (hunlisted : Unlisted assetId t) :
    Tally s t assetId after := by
  have hbefore := unlisted_before h.entry.poolChange hs hunlisted
  obtain ⟨hflows, hentry⟩ := h
  replace hflows := hflows hs.keyed
  cases hentry with
  | routine _ ledger =>
    exact .of_terms hafter (congrFun ledger.terms assetId) (by rw [ledger.holdings])
  | created _ hnew _ assets =>
    have supply := supply_of_credit (balanced_nil assetId) hflows
    rw [getAsset, assets, get_insert] at hafter
    split at hafter
    · rename_i hid
      cases hafter
      rw [if_pos hid] at supply
      exact .new (hid ▸ hnew) supply
    · rename_i hid
      rw [if_neg hid] at supply
      exact .known after hafter (by rw [supply, Nat.add_zero])
  | transferred _ _ _ _ _ _ assets =>
    exact .of_same hafter assets (supply_of_balanced (balanced_move _) hflows)
  | @opened tokenA tokenB _ _ pool _ hpool _ _ _ _ _ pools assets =>
    have hlisted : pool.lpTokenId ≠ assetId :=
      hunlisted pool.poolId pool (by rw [pool_of_insert pools, if_pos rfl])
    subst hpool
    have hne : computeLpTokenId (computePoolId tokenA tokenB) ≠ assetId := hlisted
    have supply := supply_of_credit ((balanced_paidIn assetId).append (balanced_paidIn _)) hflows
    rw [if_neg hne] at supply
    rw [getAsset, assets, get_insert, if_neg hlisted] at hafter
    exact .known after hafter (by rw [supply, Nat.add_zero])
  | deposited pool _ _ hpool _ _ _ _ trade =>
    have supply :=
      supply_of_credit ((balanced_paidIn assetId).append (balanced_paidIn _)) (trade.flows hs.keyed)
    rw [if_neg (hbefore _ pool hpool)] at supply
    exact .of_same hafter trade.assets supply
  | withdrawn pool _ hpool _ _ _ trade =>
    have supply :=
      supply_of_debit ((balanced_paidOut assetId).append (balanced_paidOut _))
        (trade.flows hs.keyed)
    rw [if_neg (hbefore _ pool hpool)] at supply
    exact .of_same hafter trade.assets supply
  | swapped _ _ _ _ _ _ _ trade =>
    exact .of_same hafter trade.assets (supply_of_balanced
      ((balanced_paidIn _).append (balanced_paidOut _)) (trade.flows hs.keyed))
  | collected _ _ trade =>
    exact .of_same hafter trade.assets (supply_of_balanced
      ((balanced_paidIfAny _).append (balanced_paidIfAny _)) (trade.flows hs.keyed))
  | @reissued _ replaced asset changed haction hasset terms state =>
    have hcached : s.getAsset replaced = some asset :=
      (hkeeps.cached replaced haction).symm.trans hasset
    refine .of_terms hafter ?_ (by rw [state]; rfl)
    rw [state]
    show ((s.assets.insert replaced changed)[assetId]?).map AssetRecord.terms =
      (s.assets[assetId]?).map _
    rw [get_insert]
    split
    · rename_i hid
      rw [← hid, show s.assets[replaced]? = some asset from hcached, map_some, map_some, terms]
    · rfl
  | @redeemed _ asset _ _ _ hasset total hchanged _ assets =>
    have supply := supply_of_debit (balanced_nil assetId) hflows
    rw [getAsset, assets, get_insert] at hafter
    split at hafter
    · rename_i hid
      cases hafter
      rw [if_pos hid] at supply
      obtain ⟨_, hsub, hrest⟩ := bind_eq_some_iff.1 hchanged
      obtain ⟨_, -, hrest⟩ := bind_eq_some_iff.1 hrest
      cases hrest
      have hsub := Amount.toNat_checkedSub hsub
      have hsum := Amount.toNat_checkedAdd total
      refine .known asset (hid ▸ hasset) ?_
      dsimp only
      omega
    · rename_i hid
      rw [if_neg hid] at supply
      exact .known after hafter (by omega)
  | @bridgedIn _ _ _ _ _ _ _ _ assets =>
    refine .of_same hafter assets ?_
    dsimp only [planned] at hflows
    rcases hkeeps.deposit _ _ _ _ _ rfl with htoken | hamount
    · rw [if_pos htoken] at hflows
      exact supply_of_balanced (balanced_nil _) hflows
    · split at hflows
      · exact supply_of_balanced (balanced_nil _) hflows
      · have supply := supply_of_credit (balanced_nil assetId) hflows
        rw [hamount] at supply
        split at supply
        · exact supply
        · exact supply
  | @bridgedOut _ _ _ _ _ assets =>
    refine .of_same hafter assets (supply_of_balanced ?_ hflows)
    dsimp only [planned]
    split
    · exact balanced_nil _
    · exact balanced_move _

/-- An operation keeps what is in circulation. -/
theorem Booked.circulates (h : Booked sender action s t) (hs : Circulates s)
    (hkeeps : KeepsSupply s action) :
    Circulates t :=
  hs.of_tally (h.books hs.books) h.entry.poolChange fun _ _ hafter hunlisted =>
    h.tally hs.books hkeeps hafter hunlisted

end Operations

/-! ## Events -/

section Events

variable {s t : StateDB} {ctx : BlockContext} {tx : SignedTransaction}
  {result : ExecutionResult}

omit [Crypto] in
theorem KeepsSupply.charge {action : TransactionAction} (h : KeepsSupply s action)
    (sender : Address) (fee : Amount) :
    KeepsSupply (s.charge sender fee) action := by
  refine ⟨h.deposit, fun assetId haction => ?_⟩
  have hcached := h.cached assetId haction
  have hassets := (ledger_charge s sender fee).2.2
  have hstored := (sameLedger_charge s sender fee).storedAssets assetId.asBytes
  unfold getAssetOwned getAsset at *
  rw [hassets, hstored]
  exact hcached

variable [Wasm] [Environment]

theorem Outcome.circulates (h : Outcome ctx tx s result t) (hs : Circulates s)
    (hkeeps : KeepsSupply s tx.payload.action) : Circulates t := by
  cases hsuccess : result.receipt.success with
  | false =>
    obtain ⟨holdings, pools, assets⟩ := h.same_of_failure hsuccess
    exact hs.of_tally (h.books hs.books) (.same pools) fun _ _ hafter _ =>
      .of_same hafter assets (by rw [holdings])
  | true => exact (h.booked hsuccess).circulates (hs.of_sameLedger
    (sameLedger_charge ..)) (hkeeps.charge ..)

/-- The transactions of an event keep the supply. -/
def Event.KeepsSupply (s : StateDB) : Event → Prop
  | .transaction _ tx => Executor.KeepsSupply s tx.payload.action
  | _ => True

theorem Event.circulates {event : Event} (h : event.Step s t) (hkeeps : event.KeepsSupply s)
    (hs : Circulates s) :
    Circulates t := by
  obtain ⟨_, _, _, rfl, outcome⟩ | same :=
    outcome_or ledgerRoutine restakes_ledger (fun _ _ h => h.toSameLedger) h
  · exact outcome.circulates hs hkeeps
  · exact hs.of_sameLedger same

end Events

/-! ## The genesis -/

section Genesis

variable {s t : StateDB} {ε : Type}

omit [Crypto] in
theorem Circulates.of_caches (hs : Circulates s) (holdings : t.holdings = s.holdings)
    (pools : t.pools = s.pools) (assets : t.assets = s.assets) : Circulates t :=
  hs.of_tally (hs.books.of_same holdings pools fun assetId => by rw [assets]) (.same pools)
    fun _ _ hafter _ => .of_same hafter assets (by rw [holdings])

omit [Crypto] in
/-- A new asset is held by one owner as a whole. -/
theorem Circulates.minted {asset : AssetRecord} {owner : Address} (hs : Circulates s)
    (h : Minted asset owner s t) :
    Circulates t := by
  obtain ⟨hnew, hflows, hpools, hassets⟩ := h
  replace hflows := hflows hs.books.keyed
  have supply (assetId : H256) := supply_of_credit (balanced_nil assetId) hflows
  refine hs.of_tally ?_ (.same hpools) fun assetId after hafter _ => ?_
  · refine hs.books.of_poolChange (.same hpools) (fun assetId hmem => ?_)
      (keyed_of_runAll hflows hs.books.keyed) fun assetId hmem => ?_
    · rw [hassets, mem_insert]
      exact .inr hmem
    · rw [hassets, mem_insert, not_or] at hmem
      have hne : asset.id ≠ assetId := fun heq => hmem.1 (LawfulEqCmp.compare_eq_iff_eq.2 heq)
      rw [supply, if_neg hne]
      exact hs.books.unheld assetId hmem.2
  · have hsupply := supply assetId
    rw [getAsset, hassets, get_insert] at hafter
    split at hafter
    · rename_i hid
      cases hafter
      rw [if_pos hid] at hsupply
      exact .new (hid ▸ hnew) hsupply
    · rename_i hid
      rw [if_neg hid] at hsupply
      exact .known after hafter (by rw [hsupply, Nat.add_zero])

/-- The first pool, its liquidity token and two assets. -/
theorem Circulates.setupDexGenesis {treasury : Address} {chainId : ChainId} {x : Unit}
    (hs : Circulates s)
    (h : (setupDexGenesis treasury chainId : DbM ε Unit).run s = some (.ok x, t)) :
    Circulates t := by
  obtain ⟨_, s₁, hfirst, h⟩ := run_bind_ok h
  obtain ⟨pool, s₂, hcreate, h⟩ := run_bind_ok h
  obtain ⟨_, s₃, hsave, hlast⟩ := run_bind_ok h
  have hs₁ := hs.minted (mintAsset_ok hfirst)
  obtain ⟨hopened, htokens, hamounts, hnew, hshares, hasset, hflows, hpools, hassets⟩ :=
    createPool_ok (ok_of_expect hcreate)
  subst hopened
  have hbooked : Booked treasury (.createPool .zero _ (.fromVtt 100000) ⟨10800000000⟩) s₁ s₂ :=
    ⟨hflows, .opened _ 0 rfl htokens hamounts hnew hshares hasset hpools hassets⟩
  have hs₂ := hbooked.circulates hs₁ ⟨nofun, fun _ => nofun⟩
  -- the pool is saved once more
  have hs₃ : Circulates s₃ := by
    obtain ⟨-, rfl⟩ := Prod.mk.inj (some.inj (ok_of_expect hsave))
    refine hs₂.of_caches rfl ?_ rfl
    show s₂.pools.insert _ _ = s₂.pools
    rw [hpools, insert_insert_self]
  exact hs₃.minted (mintAsset_ok hlast)

/-- The accounts of a genesis have nothing to do with the assets. -/
theorem Circulates.setupState {x : Unit} (hs : Circulates s)
    (h : (setupState config : DbM ε Unit).run s = some (.ok x, t)) : Circulates t := by
  have put (address : Address) (state : AccountState) :
      Moves SameLedger (Db.putAccount address state : DbM ε Unit) :=
    .update fun s => sameLedger_putAccount s address state
  obtain ⟨_, s₁, halloc, h⟩ := run_bind_ok h
  obtain ⟨_, s₂, hvalidators, h⟩ := run_bind_ok h
  obtain ⟨_, _, htreasury, h⟩ := run_bind_ok h
  obtain ⟨_, _, hepoch, h⟩ := run_bind_ok h
  have hs₁ : SameLedger s s₁ := Moves.forEach _ (fun _ _ => put _ _) halloc
  have hs₂ : SameLedger s₁ s₂ :=
    Moves.forEach _ (fun _ _ => .bind .view fun _ => .bind (.unwrap _) fun _ => put _ _) hvalidators
  cases htreasury
  cases hepoch
  have hs₄ : Circulates
      ((s₂.setTreasuryAddress config.chain.consensus.treasuryAddress).setEpochLength
      config.chain.consensus.epochLength) :=
    ((hs.of_sameLedger hs₁).of_sameLedger hs₂).of_caches rfl rfl rfl
  exact hs₄.setupDexGenesis h

theorem Circulates.buildGenesis {block : Block} {db : StateDB}
    (h : buildGenesis config = some (block, db)) :
    Circulates db := by
  obtain ⟨_, hrun, -, rfl⟩ := exists_setupState h
  exact (circulates_new.setupState hrun).of_caches rfl rfl rfl

/-- The state of a genesis, in memory or on a store. -/
theorem Origin.circulates (h : Origin s) : Circulates s := by
  cases h with
  | memory hbuild => exact .buildGenesis hbuild
  | stored hbuild _ hattach =>
    obtain ⟨_, _, rfl, -⟩ := exists_attached hattach
    exact (Circulates.buildGenesis hbuild).of_caches rfl rfl rfl

end Genesis

/-- From a genesis on, what all owners hold of an asset that is no liquidity token is its supply. -/
theorem supply_in_circulation [Wasm] [Environment] {s t : StateDB} {events : List Event}
    (hs : Origin s)
    (h : Run (Within Event.KeepsSupply fun s event t => Event.Step s event t) s events t)
    {assetId : H256} {asset : AssetRecord} (hasset : t.getAsset assetId = some asset)
    (hunlisted : Unlisted assetId t) :
    t.holdings.supply assetId = asset.totalSupply.raw.toNat := by
  have hcirculates : Circulates t :=
    h.invariant (fun _ _ _ hstep hs => Event.circulates hstep.2 hstep.1 hs) hs.circulates
  exact hcirculates.supply assetId asset hasset hunlisted

/-- From a genesis on, whatever happens, the books are in order. -/
theorem books_of_run [Wasm] [Environment] {s t : StateDB} {events : List Event} (hs : Origin s)
    (h : Run (fun s event t => Event.Step s event t) s events t) : Books t :=
  h.invariant (fun _ _ _ hstep => Event.books hstep) hs.circulates.books

end Executor

/-! ## Small runs -/

namespace Demo

open Executor

variable {t s : StateDB} {genesis : Block × StateDB}

/-- The state after a run that returned a value. -/
def ended {ε α : Type} : Option (Except ε α × StateDB) → Option StateDB
  | some (.ok _, t) => some t
  | _ => none

theorem exists_of_ended {ε α : Type} {r : Option (Except ε α × StateDB)} (h : ended r = some t) :
    ∃ x, r = some (.ok x, t) := by
  unfold ended at h
  split at h
  · rename_i x _
    cases h
    exact ⟨x, rfl⟩
  · cases h

/-- The state after an event. -/
def happen (event : Event) (s : StateDB) : Option StateDB :=
  match event with
  | .transaction ctx tx => ended ((executeTransactionAt ctx tx : DbM Empty _).run s)
  | .release now => ended ((Db.processUnbonding now : DbM Empty Amount).run s)
  | .settle blockNumber gasUsed gasConfig producer totalStaked params =>
    ended ((applyBlockRewardsAndGovernance blockNumber gasUsed gasConfig producer
      totalStaked params : SettleM Empty BlockSettlementSummary).run s)
  | .slash validator amount => some (s.applySlash validator amount).2

theorem step_of_happen {event : Event} (h : happen event s = some t) : event.Step s t := by
  cases event with
  | transaction | release | settle => exact exists_of_ended h
  | slash => exact (some.inj h).symm

/-- Events one after the other. -/
def happenAll (events : List Event) (s : StateDB) : Option StateDB :=
  events.foldlM (fun s event => happen event s) s

theorem run_of_happenAll {events : List Event} (h : happenAll events s = some t) :
    Run (fun s event t => Event.Step s event t) s events t := by
  induction events generalizing s with
  | nil =>
    cases h
    exact .nil
  | cons _ _ ih =>
    obtain ⟨_, hfirst, hrest⟩ := bind_eq_some_iff.1 h
    exact (Run.single (step_of_happen hfirst)).append (ih hrest)

theorem step_of_happenAll {event : Event} (h : happenAll [event] s = some t) : event.Step s t := by
  exact step_of_happen (by simpa [happenAll] using h)

/-- The dollars of the genesis. -/
def dollarId : H256 := blake3Hash (ascii "asset:vUSDT")

/-- The validator sends dollars to somebody. -/
def spending : Event := .transaction context (numbered 0 (.assetTransfer dollarId ⟨7⟩ ⟨5⟩))

/-- No pool has the dollars as its liquidity token. -/
def unlistedCheck (t : StateDB) : Bool :=
  t.pools.toList.all fun entry =>
    (Borsh.tryFromSlice entry.2 : Option PoolState).all (·.lpTokenId != dollarId)

theorem unlisted_of_check (h : unlistedCheck t = true) : Unlisted dollarId t := by
  intro poolId _ hpool
  obtain ⟨data, hdata, hdecode⟩ := bind_eq_some_iff.1 hpool
  have hentry := List.all_eq_true.1 h (poolId, data) (mem_toList_iff_getElem?_eq_some.2 hdata)
  rw [hdecode, all_some] at hentry
  exact bne_iff_ne.1 hentry

/-- What is evaluated of the transfer. -/
def spendingCheck (genesis : Block × StateDB) : Bool :=
  (happenAll [spending] genesis.2).any fun t =>
    (t.getAsset dollarId).isSome && unlistedCheck t &&
      decide ((t.getOwnership dollarId ⟨7⟩).held = 5)

theorem keepsSupply_spending (s : StateDB) : spending.KeepsSupply s := by
  refine ⟨fun _ _ _ _ _ haction => ?_, fun _ haction => ?_⟩
  · cases haction
  · cases haction with
    | inl haction | inr haction => cases haction

/-- After a transfer of dollars, all dollars are still held. -/
theorem spending_in_circulation : ∃ block s t asset, buildGenesis (config 10) = some (block, s) ∧
    Run (Within Event.KeepsSupply fun s event t => Event.Step s event t) s [spending] t ∧
    t.getAsset dollarId = some asset ∧ Unlisted dollarId t ∧
    (t.getOwnership dollarId ⟨7⟩).held = 5 ∧
    t.holdings.supply dollarId = asset.totalSupply.raw.toNat := by
  obtain ⟨⟨block, s⟩, hbuild, hcheck⟩ :
      ∃ genesis, buildGenesis (config 10) = some genesis ∧ spendingCheck genesis = true :=
    (any_eq_true ..).1 (by decide +kernel)
  simp only [spendingCheck, any_eq_true, Bool.and_eq_true, decide_eq_true_eq,
    Option.isSome_iff_exists] at hcheck
  obtain ⟨t, hall, ⟨⟨asset, hasset⟩, hunlisted⟩, hheld⟩ := hcheck
  replace hunlisted := unlisted_of_check hunlisted
  have hrun : Run (Within Event.KeepsSupply fun s event t => Event.Step s event t) s [spending] t :=
    .single ⟨keepsSupply_spending s, step_of_happenAll hall⟩
  exact ⟨block, s, t, asset, hbuild, hrun, hasset, hunlisted, hheld,
    supply_in_circulation (.memory hbuild) hrun hasset hunlisted⟩

/-- The books after the transfer. -/
theorem spending_books : ∃ s t, Origin s ∧ Run (fun s event t => Event.Step s event t) s
    [spending] t ∧ Books t := by
  obtain ⟨⟨_, s⟩, hbuild, hcheck⟩ :
      ∃ genesis, buildGenesis (config 10) = some genesis ∧
      (happenAll [spending] genesis.2).isSome = true :=
    (any_eq_true ..).1 (by decide +kernel)
  obtain ⟨t, hall⟩ := isSome_iff_exists.1 hcheck
  have hrun := run_of_happenAll hall
  exact ⟨s, t, .memory hbuild, hrun, books_of_run (.memory hbuild) hrun⟩

/-- Governance makes the validator the relayer of the bridge, which then reports a deposit of
dollars. -/
def bridging : List Event :=
  [.transaction context
      (numbered 0 (.governancePropose "relayer" "parameter_change" (some "bridge_relayer")
      (some (hexEncode key.address.asBytes)) none none)),
    .transaction context (numbered 1 (.governanceVote (newProposalId 0 key.address 1) .yes)),
    .settle 101 0 .default key.address (.fromVtt 100000) (params 10),
    .settle 111 0 .default key.address (.fromVtt 100000) (params 10),
    .transaction context (numbered 2 (.bridgeDeposit ⟨9⟩ 1 ⟨7⟩ dollarId ⟨5⟩))]

/-- The owners of the dollars do not hold what the asset says. -/
def overissued (t : StateDB) : Bool :=
  unlistedCheck t && (t.getAsset dollarId).any fun asset =>
    decide (t.holdings.supply dollarId ≠ asset.totalSupply.raw.toNat)

/-- What is evaluated of the deposit. -/
def bridgingCheck (genesis : Block × StateDB) : Bool :=
  (genesis.2.attachStorage .empty).any fun s => (happenAll bridging s).any overissued

/-- The deposit is credited to its recipient, and the supply stays as it was. -/
theorem bridged_not_in_supply : ∃ s t asset, Origin s ∧ Run
    (fun s event t => Event.Step s event t) s bridging t ∧
    t.getAsset dollarId = some asset ∧ Unlisted dollarId t ∧
    t.holdings.supply dollarId ≠ asset.totalSupply.raw.toNat := by
  obtain ⟨⟨block, genesis⟩, hbuild, hcheck⟩ :
      ∃ genesis, buildGenesis (config 10) = some genesis ∧ bridgingCheck genesis = true :=
    (any_eq_true ..).1 (by decide +kernel)
  simp only [bridgingCheck, overissued, any_eq_true, Bool.and_eq_true, decide_eq_true_eq] at hcheck
  obtain ⟨s, hattach, t, hrun, hunlisted, asset, hasset, hne⟩ := hcheck
  have hfresh : Fresh .empty :=
    fun key => ⟨by simp [Store.get, Store.empty], by simp [Store.get, Store.empty]⟩
  exact ⟨s, t, asset, .stored hbuild hfresh hattach, run_of_happenAll hrun, hasset,
    unlisted_of_check hunlisted, hne⟩

end Demo

end Vtt
