import Vtt.State.Durable
import Vtt.State.Persist
import Vtt.State.RootHistory

/-!
# Restarting

After a history that loses nothing, a restart on the same store gives back the running state: every
getter answers the same, and accounts with stake are loaded. The state root is the same if no
account that counts for it is left out.
-/

namespace Vtt

open Lib Std StateDB Option Borsh StateSnapshot
open ExtTreeSet (contains_iff_mem)
open ExtTreeMap (mem_iff_isSome_getElem? ext_getElem? isEmpty_iff getElem?_empty)

/-! ## States with a store -/

/-- A state that was just given its store: loaded from a store, or with a fresh store attached to
it. The state it is attached to has the property `Q`, has not counted minted or burned tokens, which
are not written, and has stake of its own in every account with the property `P`. -/
inductive Opened (P : AccountState → Prop) (Q : StateDB → Prop) : StateDB → Prop where
  | reopened {store : Store} {s : StateDB} (h : withStorage store = some s) : Opened P Q s
  | attached {db s : StateDB} {store : Store} (h : db.attachStorage store = some s)
      (memory : Q db) (fresh : ∀ c : Cell, store.get c.column c.key = none)
      (minted : db.totalMintedMilli = 0) (burned : db.totalBurnedMilli = 0)
      (stakes : ∀ (a : Address) state, db.accounts[a]? = some state → P state →
        hasSelfStake state = true) : Opened P Q s

/-- A restart loads the caches and then counts holders and builds the trie. -/
theorem exists_loadCaches {store : Store} {s : StateDB} (h : withStorage store = some s) :
    ∃ store' holders storage,
      s = rebuildTrie { loadCaches store' with assetHolderCount := holders, storage } ∧
      verifyOrStampSchemaVersion store = some store' := by
  obtain ⟨store', hstamped, h⟩ := bind_eq_some_iff.1 h
  obtain ⟨_, hdb, h⟩ := bind_eq_some_iff.1 h
  cases h
  unfold backfillHolders at hdb
  split at hdb
  · obtain ⟨holders, -, hdb⟩ := bind_eq_some_iff.1 hdb
    cases hdb
    exact ⟨store', holders, _, rfl, hstamped⟩
  · cases hdb
    exact ⟨store', _, _, rfl, hstamped⟩

namespace Opened

variable {P : AccountState → Prop} {Q : StateDB → Prop} {s : StateDB}

/-- A state that was just given its store is in step with it. -/
theorem synced (h : Opened P Q s) : Synced s := by
  cases h with
  | reopened h => exact synced_of_withStorage h
  | attached h _ fresh minted burned =>
    exact synced_of_attachStorage h (fun c _ => fresh c) minted burned

theorem indexed (h : Opened P Q s) : Indexed P s := by
  intro a state hstate hP
  cases h with
  | reopened h =>
    obtain ⟨store', holders, storage, rfl, -⟩ := exists_loadCaches h
    have loaded : (loadAccounts store' (loadSet store' "stakers:set"))[a]? = some state := hstate
    rw [get_loadAccounts] at loaded
    split at loaded
    · rename_i hmem
      exact contains_iff_mem.1 hmem
    · cases loaded
  | attached h _ _ _ _ stakes =>
    obtain ⟨_, _, rfl, -⟩ := exists_attached h
    exact mem_stakersOf.2 ⟨state, hstate, stakes a state hstate hP⟩

theorem defaultParams (h : Opened P StateDB.DefaultParams s) : s.DefaultParams := by
  cases h with
  | reopened h =>
    obtain ⟨_, holders, storage, rfl, -⟩ := exists_loadCaches h
    exact ⟨rfl, rfl, rfl⟩
  | attached h memory =>
    obtain ⟨_, _, rfl, -⟩ := exists_attached h
    exact memory

end Opened

/-! ## What a restart shows -/

namespace StateDB

variable {t : StateDB}

theorem getAccount_reloaded (h : Synced t) (hcompact : Compact t) (a : Address) :
    t.reloaded.getAccount a = t.getAccount a := by
  have filtered : t.reloaded.accounts[a]? = if t.stakers.contains a then t.accounts[a]? else none :=
    get_filter_key ..
  cases hcached : t.accounts[a]? with
  | none =>
    have uncached : t.reloaded.accounts[a]? = none := by rw [filtered, hcached, ite_self]
    simp only [getAccount, hcached, uncached]
    rfl
  | some state =>
    have stored : (t.storage.read .accounts a.asBytes).bind tryFromSlice = some state := by
      have before := h.agrees (.account a) (.inl (mem_of_get hcached))
      exact (before (hcompact.account a)).trans hcached
    rw [getAccount_of_cached hcached, getAccount, filtered, hcached]
    split
    · rename_i heq
      split at heq
      · exact (some.inj heq).symm
      · cases heq
    · change ((t.storage.read .accounts a.asBytes).bind tryFromSlice).getD .default = state
      rw [stored, getD_some]

theorem accountExists_reloaded (h : Synced t) (hcompact : Compact t) (a : Address) :
    t.reloaded.accountExists a = t.accountExists a := by
  cases hstored : t.storage.read .accounts a.asBytes with
  | some bytes =>
    have stored : t.reloaded.storage.read .accounts a.asBytes = some bytes := hstored
    simp only [accountExists, hstored, stored, isSome_some, Bool.or_true]
  | none =>
    -- a cached account would be in the store
    have uncached : a ∉ t.accounts := by
      intro hmem
      have read : (t.storage.read .accounts a.asBytes).bind tryFromSlice = t.accounts[a]? :=
        h.agrees (.account a) (.inl hmem) (hcompact.account a)
      rw [mem_iff_isSome_getElem?, ← read, hstored] at hmem
      cases hmem
    have unloaded : a ∉ t.reloaded.accounts :=
      fun hmem => uncached (ExtTreeMap.mem_of_mem_filter hmem)
    have stored : t.reloaded.storage.read .accounts a.asBytes = none := hstored
    rw [← ExtTreeMap.contains_iff_mem, Bool.not_eq_true] at uncached unloaded
    simp only [accountExists, hstored, stored, uncached, unloaded]

/-- The getters of a restarted state. -/
theorem view_reloaded (h : Synced t) (hcompact : Compact t) (treasury : t.treasuryAddress = .zero)
    (epoch : t.epochLength = 1200) (paused : t.dexPaused = false) :
    t.reloaded.rebuildTrie.view =
      { t.view with caches := { t.caches with accounts := t.reloaded.accounts } } := by
  have caches : t.reloaded.caches = { t.caches with accounts := t.reloaded.accounts } := by
    simp only [caches, snapshot, reloaded, treasury, epoch, paused]
  have same : t.reloaded.rebuildTrie.view = { t.view with
      caches := t.reloaded.caches
      getAccount := t.reloaded.getAccount
      accountExists := t.reloaded.accountExists } := rfl
  rw [same, caches, funext (getAccount_reloaded h hcompact),
    funext (accountExists_reloaded h hcompact)]
  rfl

end StateDB

/-- Whether an account has stake, its own or that of others. -/
def StateDB.hasStake (state : AccountState) : Bool :=
  match state.staking with
  | some staking => !(staking.totalStake.isZero && staking.selfStake.isZero)
  | none => false

/-- A restarted state is as the running one. Accounts with stake are loaded; the account cache as a
whole is the same exactly if it only had stakers. -/
structure Restarted (t re : StateDB) : Prop where
  view : re.view = { t.view with caches := { t.caches with accounts := re.accounts } }
  stakes : ∀ (a : Address) state, hasStake state = true →
    (re.accounts[a]? = some state ↔ t.accounts[a]? = some state)
  blockCommitments : re.blockCommitments = t.blockCommitments
  missedSlots : re.missedSlots = t.missedSlots
  accounts : re.view = t.view ↔ ∀ a ∈ t.accounts, a ∈ t.stakers

/-- A restart on the store of a state that is in step with it. -/
theorem exists_restarted {t : StateDB} (synced : Synced t) (indexed : Indexed (hasStake · = true) t)
    (params : t.DefaultParams) (hcompact : Compact t) :
    ∃ store re, t.storage = some store ∧ withStorage store = some re ∧ Restarted t re := by
  obtain ⟨treasury, epoch, paused⟩ := params
  obtain ⟨store, hstorage⟩ := isSome_iff_exists.1 synced.isSome_storage
  have view := view_reloaded synced hcompact treasury epoch paused
  have loaded (a : Address) : t.reloaded.rebuildTrie.accounts[a]? =
      if t.stakers.contains a then t.accounts[a]? else none := get_filter_key ..
  refine ⟨store, t.reloaded.rebuildTrie, hstorage, withStorage_eq synced hcompact hstorage, view,
    fun a state hstake => ?_, rfl, rfl, ?_⟩
  · rw [loaded]
    constructor
    · intro h
      split at h
      · exact h
      · cases h
    · intro h
      rw [if_pos (contains_iff_mem.2 (indexed a state h hstake)), h]
  · constructor
    · intro heq a hmem
      have accounts : t.reloaded.rebuildTrie.accounts = t.accounts :=
        congrArg (fun v : StateView => v.caches.accounts) heq
      rw [← accounts, mem_iff_isSome_getElem?, loaded] at hmem
      split at hmem
      · rename_i hstaker
        exact contains_iff_mem.1 hstaker
      · cases hmem
    · intro hall
      have accounts : t.reloaded.accounts = t.accounts := by
        apply ext_getElem?
        intro a
        refine (loaded a).trans ?_
        split
        · rfl
        · rename_i hstaker
          by_contra hne
          have hmem : a ∈ t.accounts := mem_iff_isSome_getElem?.2
            (isSome_iff_ne_none.2 fun hnone => hne hnone.symm)
          exact hstaker (contains_iff_mem.2 (hall a hmem))
      rw [view, accounts]
      rfl

namespace Mutation

variable [Crypto] {P : AccountState → Prop} {Q : StateDB → Prop} {s t : StateDB}
  {ms : List Mutation}

/-- A history that is written through stays in step with its store. -/
theorem synced_of_run (hs : Opened P Q s) (hrun : Run (Within (Written P) Step) s ms t) :
    Synced t ∧ Indexed P t :=
  hrun.invariant (fun _ _ _ h => synced_of_step h) ⟨hs.synced, hs.indexed⟩

theorem defaultParams_of_run (hs : Opened P StateDB.DefaultParams s)
    (hrun : Run (Within (Durable P) Step) s ms t) :
    t.DefaultParams :=
  hrun.invariant (fun _ _ _ h => defaultParams_of_step ⟨h.1.2, h.2⟩) hs.defaultParams

/-- After a history without losses, a restart on the store gives back the running state. -/
theorem restart_agrees (hs : Opened (hasStake · = true) StateDB.DefaultParams s)
    (hrun : Run (Within (Durable (hasStake · = true)) Step) s ms t) (hcompact : Compact t) :
    ∃ store re, t.storage = some store ∧ withStorage store = some re ∧ Restarted t re := by
  obtain ⟨synced, indexed⟩ := synced_of_run hs (hrun.mono fun _ _ _ h => ⟨h.1.1, h.2⟩)
  exact exists_restarted synced indexed (defaultParams_of_run hs hrun) hcompact

end Mutation

/-! ## The state root -/

theorem StateSnapshot.rebuilt_congr {s t : StateSnapshot} (h : ∀ k, s.entry k = t.entry k) :
    s.rebuilt = t.rebuilt := by
  refine congrArg StateTrie.mk (ext_getElem? fun b => ?_)
  by_cases hkey : ∃ k : TrieKey, k.bytes = b
  · obtain ⟨k, rfl⟩ := hkey
    exact (rebuilt_bytes s k).trans ((h k).trans (rebuilt_bytes t k).symm)
  · have foreign : ∀ k : TrieKey, k.bytes ≠ b := fun k hk => hkey ⟨k, hk⟩
    exact (rebuilt_of_forall_ne s foreign).trans (rebuilt_of_forall_ne t foreign).symm

/-- The trie of a restart is that of the caches. -/
theorem Tracked.rebuildTrie {db : StateDB} (h : db.trie = ⟨∅⟩) : Tracked db.rebuildTrie := by
  have trie : db.rebuildTrie.trie = db.rebuilt := congrArg (·.insertAll db.trieEntries) h
  constructor
  · intro k
    rw [trie]
    exact .inr (rebuilt_bytes _ k)
  · intro _ hsome
    by_contra hnone
    rw [trie, rebuilt_of_forall_ne _ fun k hk => hnone ⟨k, hk⟩] at hsome
    cases hsome

namespace Mutation

variable [Crypto] {P : AccountState → Prop} {s t : StateDB} {ms : List Mutation}

/-- A state that the trie kept up with since it was new. -/
def TracedMemory (db : StateDB) : Prop := ∃ ms, Run (Within Traceable Step) .new ms db

theorem tracked_of_opened (h : Opened P TracedMemory s) : Tracked s := by
  cases h with
  | reopened h =>
    obtain ⟨_, holders, storage, rfl, -⟩ := exists_loadCaches h
    exact .rebuildTrie rfl
  | attached h memory =>
    obtain ⟨_, _, rfl, -⟩ := exists_attached h
    obtain ⟨_, hms⟩ := memory
    exact (tracked_of_run hms .new).of_marks ⟨rfl, fun _ => id, fun _ => .inl rfl⟩

/-- After a history that is written through and that the trie keeps up with, in which accounts that
count for the root have stake of their own, a restart on the store has the state root of the running
state. -/
theorem restart_root (hs : Opened (·.isEmpty = false) TracedMemory s)
    (hrun : Run (Within (fun s m => m.Written (·.isEmpty = false) s ∧ m.Traceable s) Step) s ms t)
    (hcompact : Compact t) :
    ∃ store re, t.storage = some store ∧ withStorage store = some re ∧
      re.computeStateRoot.1 = t.computeStateRoot.1 := by
  obtain ⟨synced, indexed⟩ := synced_of_run hs (hrun.mono fun _ _ _ h => ⟨h.1.1, h.2⟩)
  have tracked : Tracked t :=
    tracked_of_run (hrun.mono fun _ _ _ h => ⟨h.1.2, h.2⟩) (tracked_of_opened hs)
  obtain ⟨store, hstorage⟩ := isSome_iff_exists.1 synced.isSome_storage
  refine ⟨store, t.reloaded.rebuildTrie, hstorage, withStorage_eq synced hcompact hstorage, ?_⟩
  have restarted : Tracked t.reloaded.rebuildTrie := .rebuildTrie rfl
  rw [restarted.root_eq, tracked.root_eq]
  refine congrArg StateTrie.root (StateSnapshot.rebuilt_congr fun k => ?_)
  cases k with
  | account a =>
    have loaded : t.reloaded.rebuildTrie.accounts[a]? =
        if t.stakers.contains a then t.accounts[a]? else none := get_filter_key ..
    simp only [StateSnapshot.entry, loaded]
    split
    · rfl
    · rename_i hstaker
      -- an account outside the index is empty, and so the trie has no entry for it
      cases haccount : t.accounts[a]? with
      | none => rfl
      | some state =>
        cases hempty : state.isEmpty with
        | true => simp [hempty]
        | false =>
          have hmem := indexed a state haccount hempty
          exact absurd (contains_iff_mem.2 hmem) hstaker
  | _ => rfl

end Mutation

/-! ## In a small state -/

namespace Demo

open Mutation

/-- An account with a token, and another one that it staked. -/
def staker : AccountState :=
  { holder with
    staking := some
      { StakingState.default with totalStake := .fromVtt 1, selfStake := .fromVtt 1 } }

/-- A new state that was given an empty store. -/
def attached : StateDB := (new.attachStorage .empty).getD .new

theorem attachStorage_empty : new.attachStorage .empty = some attached := by
  have some : (new.attachStorage .empty).isSome = true := by decide +kernel
  obtain ⟨_, hs⟩ := isSome_iff_exists.1 some
  rw [attached, hs, getD_some]

theorem opened_attached {P : AccountState → Prop} {Q : StateDB → Prop} (h : Q .new) :
    Opened P Q attached :=
  .attached attachStorage_empty h (fun _ => by simp [Store.get, Store.empty]) rfl rfl
    fun a state hstate => by simp [new, emptyOn] at hstate

/-- An asset without documents and with short texts. -/
def plainAsset (a : AssetRecord) : Bool :=
  decide (a.documents = [] ∧ a.name.utf8ByteSize < 2 ^ 32 ∧ a.symbol.utf8ByteSize < 2 ^ 32 ∧
    a.metadataUri.utf8ByteSize < 2 ^ 32 ∧ a.jurisdiction.utf8ByteSize < 2 ^ 32 ∧
    a.legalEntity.utf8ByteSize < 2 ^ 32) &&
  match a.assetClass with
  | .custom name => decide (name.utf8ByteSize < 2 ^ 32)
  | _ => true

theorem fits_plainAsset {a : AssetRecord} (h : plainAsset a = true) : Borsh.Fits a := by
  simp only [plainAsset, Bool.and_eq_true, decide_eq_true_eq] at h
  obtain ⟨⟨hdocuments, hname, hsymbol, huri, hjurisdiction, hentity⟩, hclass⟩ := h
  have text : ∀ {s : String}, s.utf8ByteSize < 2 ^ 32 → Borsh.Fits s :=
    fun h => by simpa [Borsh.Fits] using h
  have class_ : Borsh.Fits a.assetClass := by
    cases hcase : a.assetClass with
    | custom =>
      rw [hcase] at hclass
      exact text (of_decide_eq_true hclass)
    | _ => trivial
  have status : Borsh.Fits a.status := by cases a.status <;> trivial
  have mode : Borsh.Fits a.transferMode := by cases a.transferMode <;> trivial
  have policy : Borsh.Fits a.compliancePolicy := by cases a.compliancePolicy <;> trivial
  have oracle : Borsh.Fits a.valuationOracle := by cases a.valuationOracle <;> trivial
  have registrar : Borsh.Fits a.registrar := by cases a.registrar <;> trivial
  have documents : Borsh.Fits a.documents := by
    rw [hdocuments]
    exact ⟨by decide, fun _ h => absurd h List.not_mem_nil⟩
  exact ⟨trivial, text hname, text hsymbol, class_, trivial, trivial, trivial, trivial, status,
    policy, oracle, documents, text huri, text hjurisdiction, text hentity, mode, registrar,
    trivial, trivial, trivial⟩

/-- A state with short records and little else. -/
def shortRecords (s : StateDB) : Bool :=
  s.accounts.toList.all (fun a => a.2.staking.all fun staking =>
      decide (staking.delegations.length < 2 ^ 32 ∧ staking.unbonding.length < 2 ^ 32)) &&
    s.assets.toList.all (fun a => plainAsset a.2) && s.oracles.isEmpty &&
      s.assetProposals.isEmpty &&
    decide (s.stakers.toList.length < 2 ^ 32) && decide (s.slashingSeen.toList = []) &&
    decide (s.unbondingEntries.toList = []) && decide (s.kycApproved.toList = []) &&
    decide (s.blockCommitments.toList = []) && decide (s.missedSlots.toList = [])

theorem compact_of_shortRecords {s : StateDB} (h : shortRecords s = true) : Compact s := by
  simp only [shortRecords, Bool.and_eq_true, List.all_eq_true, decide_eq_true_eq] at h
  obtain ⟨⟨⟨⟨⟨⟨⟨⟨⟨haccounts, hassets⟩, horacles⟩, hproposals⟩, hstakers⟩, hseen⟩, hunbonding⟩,
    hkyc⟩, hblocks⟩, hmissed⟩ := h
  have nil {α : Type} [Borsh α] : Borsh.Fits ([] : List α) := by simp [Borsh.Fits]
  refine ⟨fun a r hget => ?_, fun id r hget => ?_, fun k r hget => ?_, fun id r hget => ?_,
    fun id r hget => ?_, ⟨hstakers, fun _ _ => trivial⟩, hseen ▸ nil, hunbonding ▸ nil, hkyc ▸ nil,
    hblocks ▸ nil, hmissed ▸ nil⟩
  · have hshort := haccounts (a, r) (ExtTreeMap.mem_toList_iff_getElem?_eq_some.2 hget)
    have code : Borsh.Fits r.codeHash := by
      cases r.codeHash with
      | _ => trivial
    have stakes : Borsh.Fits r.staking := by
      cases hstaking : r.staking with
      | none => trivial
      | some =>
        rw [hstaking] at hshort
        simpa [Borsh.Fits] using of_decide_eq_true hshort
    exact ⟨trivial, trivial, code, trivial, stakes⟩
  · exact fits_plainAsset (hassets (id, r) (ExtTreeMap.mem_toList_iff_getElem?_eq_some.2 hget))
  · simp [Borsh.Fits]
  · rw [isEmpty_iff.1 horacles, getElem?_empty] at hget
    cases hget
  · rw [isEmpty_iff.1 hproposals, getElem?_empty] at hget
    cases hget

theorem compact_staker : Compact (attached.putAccount ⟨7⟩ staker) := compact_of_shortRecords
    (by decide +kernel)

/-- A restart gives back a state with a staker. -/
theorem staker_restarts : ∃ store re, (attached.putAccount ⟨7⟩ staker).storage = some store ∧
      withStorage store = some re ∧ Restarted (attached.putAccount ⟨7⟩ staker) re := by
  have staked : hasSelfStake staker = true := by decide +kernel
  have hrun : Run (Within (Durable (hasStake · = true)) Step) attached
      ([] ++ [.putAccount ⟨7⟩ staker]) (attached.putAccount ⟨7⟩ staker) :=
    .snoc .nil ⟨⟨fun _ => staked, trivial⟩, rfl⟩
  exact restart_agrees (opened_attached ⟨rfl, rfl, rfl⟩) hrun compact_staker

/-- An epoch length that was set is not there after a restart. -/
theorem epochLength_lost :
    ∃ s ms t store re, Opened (hasStake · = true) StateDB.DefaultParams s ∧ Run Step s ms t ∧
      t.storage = some store ∧ withStorage store = some re ∧
      t.epochLength = 600 ∧ re.epochLength = 1200 ∧ ¬ Restarted t re := by
  have opened : Opened (hasStake · = true) StateDB.DefaultParams attached :=
    opened_attached ⟨rfl, rfl, rfl⟩
  have synced := (opened.synced.putAccount ⟨7⟩ staker).setEpochLength 600
  have compact : Compact ((attached.putAccount ⟨7⟩ staker).setEpochLength 600) :=
    compact_of_shortRecords (by decide +kernel)
  have hrun : Run Step attached ([] ++ [.putAccount ⟨7⟩ staker] ++ [.setEpochLength 600])
      ((attached.putAccount ⟨7⟩ staker).setEpochLength 600) := .snoc (.snoc .nil rfl) rfl
  obtain ⟨store, hstorage⟩ := isSome_iff_exists.1 synced.isSome_storage
  refine ⟨attached, _, _, store, _, opened, hrun, hstorage,
    withStorage_eq synced compact hstorage, rfl, rfl, fun restarted => ?_⟩
  have length : (1200 : UInt64) = 600 :=
    congrArg (fun v : StateView => v.caches.epochLength) restarted.view
  exact absurd length (by decide)

/-- A restart has the state root of a state with a staker. -/
theorem staker_restart_root : ∃ store re, (attached.putAccount ⟨7⟩ staker).storage = some store ∧
      withStorage store = some re ∧
      re.computeStateRoot.1 = (attached.putAccount ⟨7⟩ staker).computeStateRoot.1 := by
  have staked : hasSelfStake staker = true := by decide +kernel
  have hrun : Run (Within (fun s m => m.Written (·.isEmpty = false) s ∧ m.Traceable s) Step)
      attached ([] ++ [.putAccount ⟨7⟩ staker]) (attached.putAccount ⟨7⟩ staker) :=
    .snoc .nil ⟨⟨fun _ => staked, trivial⟩, rfl⟩
  exact restart_root (opened_attached ⟨[], .nil⟩) hrun compact_staker

/-- An account without stake counts for the root, but not after a restart. -/
theorem holder_lost_from_root : ∃ s ms t store re, Opened (·.isEmpty = false) TracedMemory s ∧
    Run Step s ms t ∧
      t.storage = some store ∧ withStorage store = some re ∧
      re.computeStateRoot.1 ≠ t.computeStateRoot.1 := by
  have opened : Opened (·.isEmpty = false) TracedMemory attached := opened_attached ⟨[], .nil⟩
  have synced := opened.synced.putAccount ⟨7⟩ holder
  have hrun : Run Step attached ([] ++ [.putAccount ⟨7⟩ holder]) (attached.putAccount ⟨7⟩ holder) :=
    .snoc .nil rfl
  obtain ⟨store, hstorage⟩ := isSome_iff_exists.1 synced.isSome_storage
  exact ⟨attached, _, _, store, _, opened, hrun, hstorage,
    withStorage_eq synced (compact_of_shortRecords (by decide +kernel)) hstorage, by decide +kernel⟩

end Demo

end Vtt
