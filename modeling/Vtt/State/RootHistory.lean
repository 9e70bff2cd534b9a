import Vtt.Demo
import Vtt.State.Mutation
import Vtt.State.TrieKey
import Vtt.State.View

/-!
# State roots and histories

The state root is that of the caches as long as the trie can keep up with them: every entry of the
trie is the one that the caches ask for, or the next flush sets it. A rollback keeps it that way if
the trie has no entry that the snapshot lacks and no pool that the snapshot has otherwise, as is the
case if no root was computed since.
-/

namespace Vtt

open Lib Std StateDB Option List StateSnapshot
open ExtTreeMap (mem_insert mem_insert_self getElem?_eq_none mem_keys)

/-- Every entry of the trie is the one that the caches ask for, or the next flush sets it. -/
structure Tracked (db : StateDB) : Prop where
  entry : ∀ k, db.Pending k ∨ (db.trie.entries)[k.bytes]? = db.entry k
  keys : ∀ b, ((db.trie.entries)[b]?).isSome = true → ∃ k : TrieKey, k.bytes = b

namespace Tracked

/-- A flush then leads to the trie that the caches ask for. -/
theorem flushedTrie_eq {db : StateDB} (h : Tracked db) : db.flushedTrie = db.rebuilt := by
  refine congrArg StateTrie.mk (ExtTreeMap.ext_getElem? fun b => ?_)
  by_cases hkey : ∃ k : TrieKey, k.bytes = b
  · obtain ⟨k, rfl⟩ := hkey
    refine Eq.trans ?_ (rebuilt_bytes _ k).symm
    by_cases hpending : db.Pending k
    · exact flushedTrie_of_pending hpending
    · exact (flushedTrie_of_not_pending hpending).trans ((h.entry k).resolve_left hpending)
  · have foreign : ∀ k : TrieKey, k.bytes ≠ b := fun k hk => hkey ⟨k, hk⟩
    refine Eq.trans ?_ (rebuilt_of_forall_ne _ foreign).symm
    refine (flushedTrie_of_forall_ne fun k _ => foreign k).trans ?_
    exact not_isSome_iff_eq_none.1 fun hsome => hkey (h.keys b hsome)

/-- The state root is that of the caches. -/
theorem root_eq [Crypto] {db : StateDB} (h : Tracked db) :
    db.computeStateRoot.1 = db.rebuilt.root := by
  rw [computeStateRoot, h.flushedTrie_eq]

theorem new : Tracked StateDB.new where
  entry k := by
    refine .inr ?_
    cases k <;> simp [StateDB.new, StateDB.emptyOn, StateSnapshot.entry]
  keys b hsome := by simp [StateDB.new, StateDB.emptyOn] at hsome

end Tracked

/-! ## Writing -/

/-- A change of the caches that marks what it changes. -/
structure Marks (s t : StateDB) : Prop where
  trie : t.trie = s.trie
  pending : ∀ k, s.Pending k → t.Pending k
  entry : ∀ k, t.entry k = s.entry k ∨ t.Pending k

theorem Tracked.of_marks {s t : StateDB} (h : Tracked s) (hmarks : Marks s t) : Tracked t where
  entry k := by
    rcases hmarks.entry k with hsame | hpending
    · rw [hmarks.trie, hsame]
      exact (h.entry k).imp_left (hmarks.pending k)
    · exact .inl hpending
  keys := by
    rw [hmarks.trie]
    exact h.keys

namespace Marks

variable {s t : StateDB}

/-- A change that only marks more, only adds to the caches, and marks what it changes there. -/
theorem of_entry (htrie : t.trie = s.trie) (hdirty : ∀ a ∈ s.dirty, a ∈ t.dirty)
    (hassets : ∀ id ∈ s.dirtyAssets, id ∈ t.dirtyAssets)
    (hpools : ∀ id ∈ s.dirtyPools, id ∈ t.dirtyPools) (haccounts : ∀ a ∈ s.accounts, a ∈ t.accounts)
    (hcached : ∀ id ∈ s.assets, id ∈ t.assets) (hpooled : ∀ id ∈ s.pools, id ∈ t.pools)
    (hentry : ∀ k, t.entry k = s.entry k ∨ t.Pending k) : Marks s t where
  trie := htrie
  entry := hentry
  pending k hk := by
    rcases hentry k with hsame | hpending
    · cases k with
      | account address => exact hk.imp (hdirty address) (haccounts address)
      | asset id => exact hk.imp (hassets id) (hcached id)
      | pool id => exact hk.imp (hpools id) (hpooled id)
      | _ => exact (congrArg isSome hsame).trans hk
    · exact hpending

variable (s)

theorem putAccount (address : Address) (state : AccountState) :
    Marks s (s.putAccount address state) := by
  have marked : ∀ a ∈ s.dirty, a ∈ (s.putAccount address state).dirty :=
    fun a ha => mem_append_left _ ha
  have cached : ∀ a ∈ s.accounts, a ∈ (s.putAccount address state).accounts :=
    fun a ha => mem_insert.2 (.inr ha)
  refine of_entry rfl marked (fun _ => id) (fun _ => id) cached (fun _ => id) (fun _ => id) fun k =>
    ?_
  cases k with
  | account a =>
    by_cases ha : address = a
    · subst ha
      exact .inr ⟨mem_append_right _ (mem_singleton_self _), mem_insert_self⟩
    · refine .inl ?_
      simp only [StateSnapshot.entry, StateDB.putAccount, get_insert, if_neg ha]
  | _ => exact .inl rfl

/-- Setting a cached asset that is marked as changed. -/
theorem setAsset {s : StateDB} {assetId : H256} {asset : AssetRecord} (htrie : t.trie = s.trie)
    (hdirty : t.dirty = s.dirty) (hmarked : t.dirtyAssets = s.dirtyAssets ++ [assetId])
    (hcaches : t.toStateSnapshot =
      { s.toStateSnapshot with assets := s.assets.insert assetId asset }) : Marks s t := by
  have marked : ∀ id ∈ s.dirtyAssets, id ∈ t.dirtyAssets := fun id hid => by
    rw [hmarked]
    exact mem_append_left _ hid
  have assets : t.assets = s.assets.insert assetId asset := by rw [hcaches]
  have cached : ∀ id ∈ s.assets, id ∈ t.assets := fun id hid => by
    rw [assets]
    exact mem_insert.2 (.inr hid)
  refine of_entry htrie (fun _ => hdirty ▸ id) marked ?_ ?_ cached ?_ fun k => ?_
  iterate 3 (rw [hcaches]; exact fun _ => id)
  · cases k with
    | asset id =>
      by_cases hid : assetId = id
      · subst hid
        refine .inr ⟨?_, ?_⟩
        · rw [hmarked]
          exact mem_append_right _ (mem_singleton_self _)
        · rw [assets]
          exact mem_insert_self
      · refine .inl ?_
        simp only [StateSnapshot.entry, assets, get_insert, if_neg hid]
    | _ =>
      rw [hcaches]
      exact .inl rfl

theorem putPoolRaw (poolId : H256) (data : Bytes) : Marks s (s.putPoolRaw poolId data) := by
  refine of_entry rfl (fun _ => id) (fun _ => id) (fun _ h => mem_append_left _ h) (fun _ => id)
    (fun _ => id) (fun _ h => mem_insert.2 (.inr h)) fun k => ?_
  cases k with
  | pool id =>
    by_cases hid : poolId = id
    · subst hid
      exact .inr ⟨mem_append_right _ (mem_singleton_self _), mem_insert_self⟩
    · refine .inl ?_
      simp only [StateSnapshot.entry, StateDB.putPoolRaw, get_insert, if_neg hid]
  | _ => exact .inl rfl

/-- A change that adds to the collections that are always flushed. -/
theorem of_always {s : StateDB} (htrie : t.trie = s.trie) (hdirty : ∀ a ∈ s.dirty, a ∈ t.dirty)
    (hassets : ∀ id ∈ s.dirtyAssets, id ∈ t.dirtyAssets) (hpools : t.dirtyPools = s.dirtyPools)
    (haccounts : t.accounts = s.accounts) (hcached : t.assets = s.assets)
    (hpooled : t.pools = s.pools)
    (hentry : ∀ k, flushedAlways k = true → t.entry k = s.entry k ∨ (t.entry k).isSome = true) :
    Marks s t := by
  refine of_entry htrie hdirty hassets (fun _ => hpools ▸ id) (fun _ => haccounts ▸ id)
    (fun _ => hcached ▸ id) (fun _ => hpooled ▸ id) fun k => ?_
  cases k with
  | account => exact .inl (by simp only [StateSnapshot.entry, haccounts])
  | asset => exact .inl (by simp only [StateSnapshot.entry, hcached])
  | pool => exact .inl (by simp only [StateSnapshot.entry, hpooled])
  | _ => exact hentry _ rfl

/-- A key of a map after an insertion has what it had, or something. -/
theorem get_insert_or {κ ν : Type} [Ord κ] [TransOrd κ] [LawfulEqOrd κ] [DecidableEq κ]
    (m : FinMap κ ν) (k a : κ) (v : ν) :
    (m.insert k v)[a]? = m[a]? ∨ ((m.insert k v)[a]?).isSome = true := by
  rw [get_insert]
  split
  · exact .inr rfl
  · exact .inl rfl

theorem get_insert_map_or {κ ν μ : Type} [Ord κ] [TransOrd κ] [LawfulEqOrd κ] [DecidableEq κ]
    (m : FinMap κ ν) (k a : κ) (v : ν) (f : ν → μ) :
    ((m.insert k v)[a]?).map f = (m[a]?).map f ∨ (((m.insert k v)[a]?).map f).isSome = true := by
  rcases get_insert_or m k a v with hsame | _
  · exact .inl (congrArg _ hsame)
  · exact .inr (by rwa [isSome_map])

theorem putOwnershipWith (record : OwnershipRecord) (prevTotal newTotal : Amount) :
    Marks s (s.putOwnershipWith record prevTotal newTotal) := by
  refine of_always rfl (fun _ => id) (fun _ h => mem_append_left _ h) rfl rfl rfl rfl fun k _ => ?_
  cases k with
  | ownership => exact get_insert_map_or ..
  | _ => exact .inl rfl

theorem setAssetProposals (id : H256) (proposal : AssetProposal) (storage : Storage) :
    Marks s { s with assetProposals := s.assetProposals.insert id proposal, storage } := by
  refine of_always rfl (fun _ h => h) (fun _ h => h) rfl rfl rfl rfl fun k _ => ?_
  cases k with
  | assetProposal => exact get_insert_map_or ..
  | _ => exact .inl rfl

theorem setOracles (feedId : H256) (feed : OracleFeed) (storage : Storage) :
    Marks s { s with oracles := s.oracles.insert feedId feed, storage } := by
  refine of_always rfl (fun _ => id) (fun _ => id) rfl rfl rfl rfl fun k _ => ?_
  cases k with
  | oracle => exact get_insert_map_or ..
  | _ => exact .inl rfl

theorem storeCode [Crypto] (code : Bytes) : Marks s (s.storeCode code).2 := by
  refine of_always rfl (fun _ => id) (fun _ => id) rfl rfl rfl rfl fun k _ => ?_
  cases k with
  | code => exact get_insert_or ..
  | _ => exact .inl rfl

theorem putContractStorage (address : Address) (key value : Bytes) :
    Marks s (s.putContractStorage address key value) := by
  refine of_always rfl (fun _ h => mem_append_left _ h) (fun _ => id) rfl rfl rfl rfl fun k _ => ?_
  cases k with
  | contractStorage => exact get_insert_or ..
  | _ => exact .inl rfl

theorem putMiningStateRaw (poolId : H256) (data : Bytes) :
    Marks s (s.putMiningStateRaw poolId data) := by
  refine of_always rfl (fun _ => id) (fun _ => id) rfl rfl rfl rfl fun k _ => ?_
  cases k with
  | mining => exact get_insert_or ..
  | _ => exact .inl rfl

theorem putGovernanceProposal (id : H256) (data : Bytes) :
    Marks s (s.putGovernanceProposal id data) := by
  refine of_always rfl (fun _ h => h) (fun _ h => h) rfl rfl rfl rfl fun k _ => ?_
  cases k with
  | governanceProposal => exact get_insert_or ..
  | _ => exact .inl rfl

end Marks

/-! ## Rolling back -/

namespace StateSnapshot

/-- The caches have a record under a key. -/
def Has (s : StateSnapshot) : TrieKey → Prop
  | .account address => address ∈ s.accounts
  | .asset id => id ∈ s.assets
  | .pool id => id ∈ s.pools
  | k => (s.entry k).isSome = true

theorem entry_eq_none_of_not_has {s : StateSnapshot} {k : TrieKey} (h : ¬ s.Has k) :
    s.entry k = none := by
  cases k with
  | account address =>
    have missing : s.accounts[address]? = none := getElem?_eq_none h
    rw [entry, missing]
    rfl
  | asset id =>
    have missing : s.assets[id]? = none := getElem?_eq_none h
    rw [entry, missing]
    rfl
  | pool => exact getElem?_eq_none h
  | _ => exact not_isSome_iff_eq_none.1 h

/-- A trie has nothing that a rollback to the snapshot would leave behind: every entry is of
something that the snapshot has, and the pools that the snapshot does not mark as changed are as in
the snapshot. -/
structure Covers (s : StateSnapshot) (trie : StateTrie) : Prop where
  entry : ∀ k : TrieKey, ((trie.entries)[k.bytes]?).isSome = true → s.Has k
  pool : ∀ id, id ∈ s.dirtyPools ∨ (trie.entries)[(TrieKey.pool id).bytes]? = s.pools[id]?

end StateSnapshot

namespace Tracked

variable {s t : StateDB}

/-- A snapshot covers the trie as it was when the snapshot was taken. -/
theorem covers_snapshot (h : Tracked s) : s.snapshot.Covers s.trie where
  entry k hsome := by
    by_contra hmissing
    have hnone : s.entry k = none := entry_eq_none_of_not_has hmissing
    rcases h.entry k with hpending | hsame
    · cases k with
      | account | asset | pool => exact hmissing hpending.2
      | _ => exact hmissing hpending
    · rw [hsame, hnone] at hsome
      cases hsome
  pool id := by
    rcases h.entry (.pool id) with hpending | hsame
    · exact .inl hpending.1
    · exact .inr hsame

/-- A rollback to a snapshot that covers the trie. -/
theorem restore (h : Tracked s) {snapshot : StateSnapshot} (hcovers : snapshot.Covers s.trie) :
    Tracked (s.restore snapshot) where
  keys := h.keys
  entry k := by
    by_cases hhas : snapshot.Has k
    · cases k with
      | account => exact .inl ⟨mem_append_right _ (mem_keys.2 hhas), hhas⟩
      | asset => exact .inl ⟨mem_append_right _ (mem_keys.2 hhas), hhas⟩
      | pool id => exact (hcovers.pool id).imp_left fun hdirty => ⟨hdirty, hhas⟩
      | _ => exact .inl hhas
    · refine .inr ?_
      rw [show (s.restore snapshot).entry k = none from entry_eq_none_of_not_has hhas]
      exact not_isSome_iff_eq_none.1 fun hsome => hhas (hcovers.entry k hsome)

theorem flush (h : Tracked s) : Tracked s.flush := by
  have trie : s.flush.trie = s.rebuilt := h.flushedTrie_eq
  constructor
  · intro k
    refine .inr ?_
    rw [trie]
    exact rebuilt_bytes _ k
  · intro _ hsome
    by_contra hforeign
    rw [trie, rebuilt_of_forall_ne _ fun k hk => hforeign ⟨k, hk⟩] at hsome
    cases hsome

/-- Deleting what is not in the trie yet. -/
theorem deleteContractStorage (h : Tracked s) {address : Address} {key : Bytes}
    (hunflushed : (s.trie.entries)[(TrieKey.contractStorage address key).bytes]? = none) :
    Tracked (s.deleteContractStorage address key) where
  keys := h.keys
  entry k := by
    by_cases hk : k = .contractStorage address key
    · subst hk
      refine .inr (hunflushed.trans ?_)
      exact ExtTreeMap.getElem?_erase_self.symm
    · have before := h.entry k
      cases k with
      | account => exact before.imp_left (And.imp_left (mem_append_left _))
      | contractStorage a k =>
        have hne : (address, key) ≠ (a, k) := fun heq => hk (by cases heq; rfl)
        have kept : (s.deleteContractStorage address key).entry (.contractStorage a k) =
            s.entry (.contractStorage a k) := by
          simp only [StateSnapshot.entry, StateDB.deleteContractStorage, get_erase, if_neg hne]
        refine before.imp (fun hpending => ?_) fun hsame => hsame.trans kept.symm
        exact (congrArg isSome kept).trans hpending
      | _ => exact before

end Tracked

/-! ## Histories -/

namespace Mutation

/-- A mutation that the trie can keep up with, in the state before it. -/
def Traceable (s : StateDB) : Mutation → Prop
  | bootstrapStakersFrom _ => False
  | deleteContractStorage address key =>
    (s.trie.entries)[(TrieKey.contractStorage address key).bytes]? = none
  | restore snapshot => snapshot.Covers s.trie
  | _ => True

/-- Released stake is credited account by account. -/
theorem tracked_of_processUnbonding {ε : Type} (now : Timestamp) :
    Confined.Moves (Keeps Tracked) (Db.processUnbonding now : DbM ε Amount) := by
  have credit : ∀ address amount, Confined.Moves (Keeps Tracked) (Db.addBalance address amount) :=
    fun address amount => .found fun _ state => .update fun s hs =>
      hs.of_marks (.putAccount s address _)
  exact .bind .view fun _ => .bind (.unwrap _) fun _ =>
    .bind (.update fun s hs => hs.of_marks ⟨rfl, fun _ => id, fun _ => .inl rfl⟩) fun _ =>
    .bind (.forEach _ fun _ _ => .ignoreError (credit ..)) fun _ =>
    .bind (.update fun s hs => hs.of_marks ⟨rfl, fun _ => id, fun _ => .inl rfl⟩) fun _ => .pure _

variable [Crypto]

theorem tracked_of_step {s t : StateDB} {m : Mutation} (h : Within Traceable Step s m t)
    (hs : Tracked s) :
    Tracked t := by
  obtain ⟨hm, hrun⟩ := h
  cases m <;> try cases hrun
  case bootstrapStakersFrom => cases hm
  case putOwnership record =>
    obtain ⟨prevTotal, -, hrest⟩ := bind_eq_some_iff.1 hrun
    obtain ⟨newTotal, -, rfl⟩ := map_eq_some_iff.1 hrest
    exact hs.of_marks (.putOwnershipWith s record prevTotal newTotal)
  case deleteContractStorage => exact hs.deleteContractStorage hm
  case computeStateRoot => exact hs.flush
  case restore => exact hs.restore hm
  case processUnbonding now =>
    obtain ⟨⟨_, _⟩, hprocess, rfl⟩ := map_eq_some_iff.1 hrun
    exact tracked_of_processUnbonding now hprocess hs
  case putAccount address state => exact hs.of_marks (.putAccount s address state)
  case putAsset => exact hs.of_marks (.setAsset rfl rfl rfl rfl)
  case editAsset =>
    split
    · exact hs.of_marks (.setAsset rfl rfl rfl rfl)
    · exact hs
  case putAssetProposal proposal => exact hs.of_marks (.setAssetProposals s proposal.id proposal _)
  case editAssetProposal id proposal =>
    split
    · exact hs.of_marks (.setAssetProposals s id proposal s.storage)
    · exact hs
  case putOracle => exact hs.of_marks (.setOracles s ..)
  case editOracle feedId feed =>
    split
    · exact hs.of_marks (.setOracles s feedId feed s.storage)
    · exact hs
  case storeCode => exact hs.of_marks (.storeCode s _)
  case putContractStorage => exact hs.of_marks (.putContractStorage s ..)
  case putPoolRaw => exact hs.of_marks (.putPoolRaw s ..)
  case putMiningStateRaw => exact hs.of_marks (.putMiningStateRaw s ..)
  case putGovernanceProposal => exact hs.of_marks (.putGovernanceProposal s ..)
  all_goals
    -- neither the trie nor what goes into it is touched
    exact hs.of_marks ⟨rfl, fun _ => id, fun _ => .inl rfl⟩

theorem tracked_of_run {s t : StateDB} {ms : List Mutation} (h : Run (Within Traceable Step) s ms t)
    (hs : Tracked s) :
    Tracked t :=
  h.invariant (fun _ _ _ hstep => tracked_of_step hstep) hs

/-- Two histories in memory that the trie can keep up with and that lead to the same answers of all
getters lead to the same state root. -/
theorem root_eq_of_view_eq {s t : StateDB} {ms ms' : List Mutation}
    (hs : Run (Within Traceable Step) .new ms s) (ht : Run (Within Traceable Step) .new ms' t)
    (hview : s.view = t.view) :
    s.computeStateRoot.1 = t.computeStateRoot.1 := by
  have rebuilt : s.caches.rebuilt = t.caches.rebuilt := congrArg (fun v => v.caches.rebuilt) hview
  rw [(tracked_of_run hs .new).root_eq, (tracked_of_run ht .new).root_eq]
  exact congrArg StateTrie.root rebuilt

end Mutation

/-! ## In a small state -/

namespace Demo

open Mutation

/-- An account with a token. -/
def holder : AccountState := .withBalance (.fromVtt 1)

/-- A state with one account that a root was computed of. -/
def settled : StateDB := (new.putAccount ⟨7⟩ holder).flush

/-- The same state after another account was added and rolled back. -/
def rolledBack : StateDB := (settled.putAccount ⟨8⟩ holder).restore settled.snapshot

/-- States that are in memory and have the same caches give the same answers. -/
theorem view_eq_of_memory {s t : StateDB} (hcaches : s.caches = t.caches)
    (hs : s.storage.isNone = true) (ht : t.storage.isNone = true) : s.view = t.view :=
  view_congr hcaches ((isNone_iff_eq_none.1 hs).trans (isNone_iff_eq_none.1 ht).symm)

/-- A root is the same after a rollback if none was computed in between. -/
theorem rolledBack_root : ∃ ms ms', Run (Within Traceable Step) .new ms settled ∧
      Run (Within Traceable Step) .new ms' rolledBack ∧ settled.view = rolledBack.view ∧
      settled.computeStateRoot.1 = rolledBack.computeStateRoot.1 := by
  have first :
    Run (Within Traceable Step) .new ([] ++ [.putAccount ⟨7⟩ holder] ++ [.computeStateRoot])
      settled := .snoc (.snoc .nil ⟨trivial, rfl⟩) ⟨trivial, rfl⟩
  have covers : settled.snapshot.Covers (settled.putAccount ⟨8⟩ holder).trie :=
    (tracked_of_run first .new).covers_snapshot
  have grown : Run (Within Traceable Step) .new (_ ++ [.putAccount ⟨8⟩ holder]) _ :=
    .snoc first ⟨trivial, rfl⟩
  have second : Run (Within Traceable Step) .new (_ ++ [.restore settled.snapshot]) rolledBack :=
    .snoc grown ⟨covers, rfl⟩
  have hview : settled.view = rolledBack.view :=
    view_eq_of_memory rfl (by decide +kernel) (by decide +kernel)
  exact ⟨_, _, first, second, hview, root_eq_of_view_eq first second hview⟩

/-- A root that was computed before a rollback shows in the root after it. -/
theorem flushed_then_rolledBack_root : ∃ ms ms' s t, Run Step .new ms s ∧ Run Step .new ms' t ∧
    s.view = t.view ∧
      s.computeStateRoot.1 ≠ t.computeStateRoot.1 := by
  have flushed : Run Step .new ([] ++ [.putAccount ⟨7⟩ holder] ++ [.computeStateRoot]) settled :=
    .snoc (.snoc .nil rfl) rfl
  have second : Run Step .new (_ ++ [.restore new.snapshot])
      (settled.restore new.snapshot) := .snoc flushed rfl
  exact ⟨[], _, .new, _, .nil, second,
    view_eq_of_memory rfl (by decide +kernel) (by decide +kernel), by decide +kernel⟩

end Demo

end Vtt
