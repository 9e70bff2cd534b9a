import Vtt.State.Cell

/-!
# What a restart loads

The caches that a restart loads have exactly what the cells of the store hold. A state that is in
step with its store is therefore loaded again as it was, apart from what is not loaded: accounts
without stake of their own, the treasury, the epoch length and the pause of the exchange.
-/

namespace Vtt

open Lib Std ExtTreeMap H256 Storage Store
open Option (ite_none_right_eq_some map_eq_some_iff bind_eq_some_iff bind_fun_some)
open Borsh (tryFromSlice)

namespace Store

variable {store : Store} {column : Column} {start : Bytes}

theorem mem_prefixScan {e : Bytes × Bytes} : e ∈ store.prefixScan column start ↔
      store.get column e.1 = some e.2 ∧ start.isPrefixOf e.1 = true := by
  rw [prefixScan, List.mem_filter, mem_toList_iff_getElem?_eq_some]
  rfl

theorem pairwise_prefixScan : (store.prefixScan column start).Pairwise fun a b => a.1 ≠ b.1 := by
  refine List.Pairwise.filter _ (distinct_keys_toList.imp ?_)
  intro _ _ h heq
  exact h (LawfulEqOrd.compare_eq_iff_eq.2 heq)

/-- A scan looks at the keys behind its start only. -/
theorem prefixScan_congr {store' : Store}
    (h : ∀ key, start.isPrefixOf key = true → store'.get column key = store.get column key) :
    store'.prefixScan column start = store.prefixScan column start := by
  have filtered : ((store'.column column).filter fun key _ => start.isPrefixOf key) =
      (store.column column).filter fun key _ => start.isPrefixOf key := by
    apply ext_getElem?
    intro key
    rw [get_filter_key, get_filter_key]
    split
    · rename_i hkey
      exact h key hkey
    · rfl
  have lists := congrArg toList filtered
  rwa [toList_filter, toList_filter] at lists

/-- A scan whose keys are decoded reads every record where its key locates it. -/
theorem get_scan {κ ν : Type} [DecidableEq κ] [Ord κ] [TransOrd κ] [LawfulEqOrd κ]
    (fits : Bytes → Prop) [DecidablePred fits] (keyOf : Bytes → κ) (decode : Bytes → Option ν)
    (locate : κ → Bytes) (hlocate : ∀ key, start.isPrefixOf key = true → fits key →
    locate (keyOf key) = key) (hkey : ∀ k, start.isPrefixOf (locate k) = true ∧ fits (locate k) ∧
      keyOf (locate k) = k) (k : κ) :
    (ofList ((store.prefixScan column start).filterMap fun e =>
      if fits e.1 then (decode e.2).map fun v => (keyOf e.1, v) else none) compare)[k]? =
        (store.get column (locate k)).bind decode := by
  have distinct : ((store.prefixScan column start).filterMap fun e =>
      if fits e.1 then (decode e.2).map fun v => (keyOf e.1, v) else none).Pairwise fun a b =>
        a.1 ≠ b.1 := by
    refine List.pairwise_filterMap.2 (pairwise_prefixScan.imp_of_mem ?_)
    intro _ _ he he' hne _ hr _ hr' heq
    simp only [ite_none_right_eq_some, map_eq_some_iff] at hr hr'
    obtain ⟨hfits, _, -, rfl⟩ := hr
    obtain ⟨hfits', _, -, rfl⟩ := hr'
    apply hne
    rw [← hlocate _ (mem_prefixScan.1 he).2 hfits, ← hlocate _ (mem_prefixScan.1 he').2 hfits']
    exact congrArg locate heq
  ext v
  rw [get_ofList_iff distinct, bind_eq_some_iff]
  simp only [List.mem_filterMap, mem_prefixScan, ite_none_right_eq_some, map_eq_some_iff,
    Prod.mk.injEq]
  constructor
  · rintro ⟨⟨key, bytes⟩, ⟨hget, hstart⟩, hfits, _, hdecode, rfl, rfl⟩
    exact ⟨bytes, by rwa [hlocate key hstart hfits], hdecode⟩
  · rintro ⟨bytes, hget, hdecode⟩
    obtain ⟨hstart, hfits, heq⟩ := hkey k
    exact ⟨(locate k, bytes), ⟨hget, hstart⟩, hfits, v, hdecode, heq, rfl⟩

end Store

namespace StateDB

variable {α : Type} {store : Store}

variable {db : StateDB} {id : H256} {address : Address}
  {ownership : FinMap (H256 × Address) OwnershipRecord}

/-! ## Collections with a cell for each record -/

theorem get_loadHashed (column : Column) (decode : Bytes → Option α) :
    (loadHashed store column decode)[id]? = (store.get column id.asBytes).bind decode :=
  get_scan (·.length = 32) fromSlice decode asBytes (fun _ _ hlength => asBytes_fromSlice hlength)
    (fun id => ⟨rfl, id.asBytes_length, id.fromSlice_asBytes⟩) id

theorem get_loadLabelled (label : String) (decode : Bytes → Option α) :
    (loadLabelled store label decode)[id]? =
      (store.get .chainMeta (ascii label ++ id.asBytes)).bind decode := by
  refine get_scan (·.length = (ascii label).length + 32)
    (fun key => fromSlice (key.drop (ascii label).length)) decode
    (fun id => ascii label ++ id.asBytes) ?_ ?_ id
  · intro _ hstart hlength
    obtain ⟨_, rfl⟩ := List.isPrefixOf_iff_prefix.1 hstart
    rw [List.length_append] at hlength
    rw [List.drop_left, asBytes_fromSlice (by omega)]
  · intro _
    refine ⟨List.isPrefixOf_iff_prefix.2 (List.prefix_append ..), ?_, ?_⟩
    · rw [List.length_append, asBytes_length]
    · rw [List.drop_left, fromSlice_asBytes]

theorem get_loadOwnership (owner : Address) : (loadOwnership store)[(id, owner)]? =
      (store.get .ownership (ownershipKey id owner)).bind tryFromSlice := by
  refine get_scan (·.length = 52)
    (fun key => (fromSlice (key.take 32), Address.fromSlice (key.drop 32))) tryFromSlice
    (fun k : H256 × Address => ownershipKey k.1 k.2) ?_ ?_ (id, owner)
  · intro _ _ _
    rw [ownershipKey, asBytes_fromSlice (by rw [List.length_take]; omega),
      Address.asBytes_fromSlice (by rw [List.length_drop]; omega), List.take_append_drop]
  · rintro ⟨id, owner⟩
    have hid := id.asBytes_length
    refine ⟨rfl, ?_, Prod.ext ?_ ?_⟩
    · rw [ownershipKey, List.length_append, hid, owner.asBytes_length]
    · rw [ownershipKey, List.take_left' hid, fromSlice_asBytes]
    · rw [ownershipKey, List.drop_left' hid, Address.fromSlice_asBytes]

theorem get_loadContracts (key : Bytes) :
    (loadContracts store)[(address, key)]? =
      store.get .contractStorage (address.asBytes ++ key) := by
  refine (get_scan (20 ≤ ·.length) (fun key => (Address.fromSlice (key.take 20), key.drop 20)) some
    (fun k : Address × Bytes => k.1.asBytes ++ k.2) ?_ ?_ (address, key)).trans (bind_fun_some _)
  · intro key _ _
    rw [Address.asBytes_fromSlice (by rw [List.length_take]; omega), List.take_append_drop]
  · rintro ⟨address, key⟩
    have haddress := address.asBytes_length
    refine ⟨rfl, ?_, Prod.ext ?_ ?_⟩
    · rw [List.length_append, haddress]
      exact Nat.le_add_right ..
    · rw [List.take_left' haddress, Address.fromSlice_asBytes]
    · exact List.drop_left' haddress

theorem get_loadAccounts (addresses : FinSet Address) : (loadAccounts store addresses)[address]? =
      if addresses.contains address then
        (store.get .accounts address.asBytes).bind tryFromSlice
      else none := by
  have distinct : (addresses.toList.filterMap fun a =>
      ((store.get .accounts a.asBytes).bind (tryFromSlice (α := AccountState))).map
        fun account => (a, account)).Pairwise fun a b => a.1 ≠ b.1 := by
    refine List.pairwise_filterMap.2 (ExtTreeSet.distinct_toList.imp ?_)
    intro a _ hne _ hr _ hr' heq
    obtain ⟨_, -, rfl⟩ := map_eq_some_iff.1 hr
    obtain ⟨_, -, rfl⟩ := map_eq_some_iff.1 hr'
    exact hne (LawfulEqOrd.compare_eq_iff_eq.2 heq)
  ext account
  refine (get_ofList_iff distinct).trans ?_
  simp only [List.mem_filterMap, map_eq_some_iff, Prod.mk.injEq, ExtTreeSet.mem_toList,
    ite_none_right_eq_some, ExtTreeSet.contains_iff_mem]
  constructor
  · rintro ⟨_, hmem, _, hget, rfl, rfl⟩
    exact ⟨hmem, hget⟩
  · rintro ⟨hmem, hget⟩
    exact ⟨address, hmem, account, hget, rfl, rfl⟩

/-! ## All caches -/

/-- What a restart loads of a state that is in step with its store. -/
def reloaded (db : StateDB) : StateDB :=
  { db with
    accounts := db.accounts.filter fun a _ => db.stakers.contains a
    treasuryAddress := .zero
    epochLength := 1200
    dexPaused := false
    dirtyPools := []
    trie := ⟨∅⟩
    dirty := []
    dirtyAssets := [] }

theorem loadCaches_eq (h : Synced db) (hcompact : Compact db) (hstorage : db.storage = some store) :
    loadCaches store = db.reloaded := by
  have agrees : ∀ c : Cell, c.Agrees db (store.get c.column c.key) := by
    intro c
    have before := h.agrees c
    rwa [hstorage] at before
  have assets : loadHashed store .assets tryFromSlice = db.assets :=
    ext_getElem? fun id => (get_loadHashed ..).trans (agrees (.asset id) (hcompact.asset id))
  have oracles : loadHashed store .oracles tryFromSlice = db.oracles := ext_getElem? fun id =>
      (get_loadHashed ..).trans (agrees (.oracle id) (hcompact.oracle id))
  have assetProposals : loadHashed store .assetProposals tryFromSlice = db.assetProposals :=
    ext_getElem? fun id =>
      (get_loadHashed ..).trans (agrees (.assetProposal id) (hcompact.assetProposal id))
  have pools : loadHashed store .pools some = db.pools := ext_getElem? fun id =>
      ((get_loadHashed ..).trans (bind_fun_some _)).trans (agrees (.pool id))
  have miningStates : loadHashed store .miningStates some = db.miningStates :=
      ext_getElem? fun id =>
        ((get_loadHashed ..).trans (bind_fun_some _)).trans (agrees (.mining id))
  have contractCode : loadHashed store .contractCode some = db.contractCode :=
      ext_getElem? fun id => ((get_loadHashed ..).trans (bind_fun_some _)).trans (agrees (.code id))
  have governanceProposals : loadLabelled store "gov:" some = db.governanceProposals :=
    ext_getElem? fun id =>
      ((get_loadLabelled ..).trans (bind_fun_some _)).trans (agrees (.governance id))
  have assetHolderCount : loadLabelled store "holders:" decodeCount = db.assetHolderCount :=
    ext_getElem? fun id => (get_loadLabelled ..).trans (agrees (.holders id))
  have ownership : loadOwnership store = db.ownership := ext_getElem? fun k =>
      (get_loadOwnership ..).trans (agrees (.ownership k.1 k.2) (hcompact.ownership k))
  have contractStorage : loadContracts store = db.contractStorage := ext_getElem? fun k =>
      (get_loadContracts ..).trans (agrees (.contractStorage k.1 k.2))
  have slashingSeen : loadSet store "slashing:seen" = db.slashingSeen :=
    agrees .slashingSeen hcompact.slashingSeen
  have unbondingEntries : loadUnbonding store = db.unbondingEntries :=
    agrees .unbonding hcompact.unbonding
  have kycApproved : loadSet store "kyc:approved" = db.kycApproved :=
    agrees .kycApproved hcompact.kycApproved
  have blockCommitments : loadMap store "block:commitments" = db.blockCommitments :=
    agrees .blockCommitments hcompact.blockCommitments
  have missedSlots : loadMap store "missed:slots" = db.missedSlots :=
    agrees .missedSlots hcompact.missedSlots
  have stakers : loadSet store "stakers:set" = db.stakers := agrees .stakers hcompact.stakers
  have minted : loadCounter store "supply:minted_milli" = db.totalMintedMilli := agrees .minted
  have burned : loadCounter store "supply:burned_milli" = db.totalBurnedMilli := agrees .burned
  have accounts : loadAccounts store db.stakers = db.accounts.filter fun a _ =>
      db.stakers.contains a := by
    apply ext_getElem?
    intro a
    rw [get_loadAccounts, get_filter_key]
    split
    · rename_i hmem
      exact agrees (.account a) (.inr (ExtTreeSet.contains_iff_mem.1 hmem)) (hcompact.account a)
    · rfl
  simp only [loadCaches, emptyOn, reloaded, assets, oracles, assetProposals, pools, miningStates,
    contractCode, governanceProposals, assetHolderCount, ownership, contractStorage, slashingSeen,
    unbondingEntries, kycApproved, blockCommitments, missedSlots, stakers, minted, burned, accounts,
    hstorage]

/-- No holder is counted if every record adds up to nothing. -/
theorem recountHolders_of_zero
    (h : ∀ (k : H256 × Address) (r : OwnershipRecord), ownership[k]? = some r →
      r.total = some .zero) :
    recountHolders ownership = some ∅ := by
  have zero : ∀ e ∈ ownership.toList, e.2.total = some .zero := fun e he =>
    h e.1 e.2 (mem_toList_iff_getElem?_eq_some.1 he)
  unfold recountHolders
  generalize ownership.toList = records at zero ⊢
  induction records with
  | nil => rfl
  | cons e _ ih =>
    have counted : countHolder ∅ e = some ∅ := by
      rw [countHolder, zero e (List.mem_cons_self ..)]
      rfl
    rw [List.foldlM_cons, counted]
    exact ih fun e' he' => zero e' (List.mem_cons_of_mem _ he')

theorem backfillHolders_reloaded (h : Synced db) :
    backfillHolders db.reloaded = some db.reloaded := by
  unfold backfillHolders
  split
  · rename_i hcond
    have empty : db.assetHolderCount = ∅ := isEmpty_iff.1 hcond.1
    have recounted : recountHolders db.reloaded.ownership = some ∅ :=
      recountHolders_of_zero (h.counted hcond.1)
    rw [recounted]
    simp only [reloaded, empty]
    rfl
  · rfl

/-- A restart on the store of a state that is in step with it. -/
theorem withStorage_eq (h : Synced db) (hcompact : Compact db)
    (hstorage : db.storage = some store) :
    withStorage store = some db.reloaded.rebuildTrie := by
  have stamped : store.get .chainMeta (ascii "schema:version") = some (leBytes 4 1) := by
    have before := h.agrees .schema
    rwa [hstorage] at before
  have verified : verifyOrStampSchemaVersion store = some store := by
    rw [verifyOrStampSchemaVersion, stamped]
    exact if_pos rfl
  simp only [withStorage, verified, Option.bind_eq_bind, Option.bind_some,
    loadCaches_eq h hcompact hstorage, backfillHolders_reloaded h]
  rfl

/-! ## A restart is in step with its store -/

theorem zero_of_foldlM_countHolder {records : List ((H256 × Address) × OwnershipRecord)}
    {counts : FinMap H256 UInt32} (h : records.foldlM countHolder counts = some ∅) :
    counts = ∅ ∧ ∀ e ∈ records, e.2.total = some .zero := by
  induction records generalizing counts with
  | nil => exact ⟨Option.some.inj h, fun _ he => nomatch he⟩
  | cons _ _ ih =>
    obtain ⟨_, hcount, hrest⟩ := bind_eq_some_iff.1 h
    obtain ⟨rfl, hzero⟩ := ih hrest
    obtain ⟨_, htotal, hcounts⟩ := map_eq_some_iff.1 hcount
    split at hcounts
    · rename_i hnothing
      obtain rfl := Amount.isZero_iff.1 hnothing
      exact ⟨hcounts, List.forall_mem_cons.2 ⟨htotal, hzero⟩⟩
    · exact absurd hcounts insert_ne_empty

/-- Every record adds up to nothing if no holder is counted. -/
theorem zero_of_recountHolders (h : recountHolders ownership = some ∅) (k : H256 × Address)
    (r : OwnershipRecord) (hr : ownership[k]? = some r) : r.total = some .zero :=
  (zero_of_foldlM_countHolder h).2 (k, r) (mem_toList_iff_getElem?_eq_some.2 hr)

theorem agrees_loadCaches
    (hstamped : store.get .chainMeta (ascii "schema:version") = some (leBytes 4 1)) (c : Cell) :
    c.Agrees (loadCaches store) (store.get c.column c.key) := by
  cases c with
  | account address =>
    intro hmem
    have staker : (loadCaches store).stakers.contains address = true := by
      rcases hmem with hcached | hstaker
      · by_contra hnot
        have uncached : (loadCaches store).accounts[address]? = none :=
          (get_loadAccounts ..).trans (if_neg hnot)
        rw [mem_iff_isSome_getElem?, uncached] at hcached
        cases hcached
      · exact ExtTreeSet.contains_iff_mem.2 hstaker
    exact fun _ => ((get_loadAccounts ..).trans (if_pos staker)).symm
  | asset | oracle | assetProposal => exact fun _ => (get_loadHashed ..).symm
  | pool | mining | code => exact ((get_loadHashed ..).trans (bind_fun_some _)).symm
  | governance => exact ((get_loadLabelled ..).trans (bind_fun_some _)).symm
  | holders => exact (get_loadLabelled ..).symm
  | ownership => exact fun _ => (get_loadOwnership ..).symm
  | contractStorage => exact (get_loadContracts ..).symm
  | stakers | slashingSeen | unbonding | kycApproved | blockCommitments | missedSlots =>
    exact fun _ => rfl
  | minted | burned => rfl
  | schema => exact hstamped

theorem get_of_verifyOrStampSchemaVersion {store' : Store}
    (h : verifyOrStampSchemaVersion store = some store') :
    store'.get .chainMeta (ascii "schema:version") = some (leBytes 4 1) := by
  unfold verifyOrStampSchemaVersion at h
  split at h
  · rename_i hget
    obtain ⟨rfl, rfl⟩ := ite_none_right_eq_some.1 h |>.imp_right Option.some.inj
    exact hget
  · cases h
    have written : (some store : Storage).isSome = true := rfl
    exact read_write_self written ..

theorem decodeCount_leBytes (n : UInt32) : decodeCount (leBytes 4 n.toNat) = some n := by
  have hlt : n.toNat < 256 ^ 4 := n.toNat_lt
  rw [decodeCount, if_pos (leBytes_length 4 _), leNat_leBytes, Nat.mod_eq_of_lt hlt,
    UInt32.ofNat_toNat]

theorem writeAll_holderEntries (storage : Storage) (s : StateSnapshot) :
    storage.writeAll .chainMeta s.holderEntries = storage.writeCells
      (s.assetHolderCount.toList.map fun e => (Cell.holders e.1, leBytes 4 e.2.toNat)) := by
  simp only [writeAll, writeCells, StateSnapshot.holderEntries, List.foldl_map]
  rfl

/-- Counting the holders again brings the counts in step. -/
theorem synced_of_backfillHolders {t : StateDB} (hagrees : InStep db)
    (h : backfillHolders db = some t) : Synced t := by
  unfold backfillHolders at h
  split at h
  · rename_i hcond
    obtain ⟨holders, hrecount, ht⟩ := bind_eq_some_iff.1 h
    cases ht
    let written : Cell → Option Bytes
      | .holders id => (holders[id]?).map fun n => leBytes 4 n.toNat
      | _ => none
    have mem_iff :
        ∀ c v, (c, v) ∈ (holders.toList.map fun e => (Cell.holders e.1, leBytes 4 e.2.toNat)) ↔
        written c = some v := by
      intro c _
      simp only [List.mem_map, Prod.mk.injEq, Prod.exists, mem_toList_iff_getElem?_eq_some]
      constructor
      · rintro ⟨id, n, hn, rfl, rfl⟩
        exact map_eq_some_iff.2 ⟨n, hn, rfl⟩
      · intro hv
        cases c with
        | holders id =>
          obtain ⟨n, hn, rfl⟩ := map_eq_some_iff.1 hv
          exact ⟨id, n, hn, rfl, rfl⟩
        | _ => cases hv
    refine ⟨fun c => ?_, fun hempty => ?_⟩
    · rw [writeAll_holderEntries, read_writeCells hagrees.isSome_storage mem_iff]
      have before := hagrees c
      cases c with
      | holders id =>
        change (((holders[id]?).map fun n => leBytes 4 n.toNat).or _).bind decodeCount =
          holders[id]?
        cases holders[id]? with
        | some n => exact decodeCount_leBytes n
        | none =>
          have uncounted : db.assetHolderCount[id]? = none := by
            rw [isEmpty_iff.1 hcond.1, getElem?_empty]
          exact Eq.trans before uncounted
      | _ => exact before
    · obtain rfl := isEmpty_iff.1 hempty
      exact zero_of_recountHolders hrecount
  · rename_i hcond
    cases h
    refine ⟨hagrees, fun hempty k r hr => ?_⟩
    have unowned : db.ownership = ∅ := by
      by_contra hne
      exact hcond ⟨hempty, by simpa using hne⟩
    rw [unowned, getElem?_empty] at hr
    cases hr

/-- The state of a restart is in step with its store. -/
theorem synced_of_withStorage (h : withStorage store = some db) : Synced db := by
  obtain ⟨_, hstore, hrest⟩ := bind_eq_some_iff.1 h
  obtain ⟨_, hloaded, hdb⟩ := bind_eq_some_iff.1 hrest
  cases hdb
  have synced :=
    synced_of_backfillHolders (agrees_loadCaches (get_of_verifyOrStampSchemaVersion hstore)) hloaded
  refine ⟨fun c => ?_, synced.counted⟩
  have before := synced.agrees c
  cases c with
  | _ => exact before

end StateDB

end Vtt
