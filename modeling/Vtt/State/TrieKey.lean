import Vtt.State.Restart

/-!
# The entries of the trie

The trie has an entry for every account that is not empty and for every record of the other
collections, under keys that start with the name of the collection. No two entries have the same
key.
-/

namespace Vtt

open Lib Std StateSnapshot List ExtTreeMap StateDB Address
open Borsh (serialize)

/-- The collections whose keys in the trie start with a label. -/
inductive TrieTable where
  | asset
  | pool
  | ownership
  | oracle
  | mining
  | code
  | contractStorage
  | assetProposal
  | governanceProposal

namespace TrieTable

def label : TrieTable → Bytes
  | asset => ascii "asset:"
  | pool => ascii "pool:"
  | ownership => ascii "own:"
  | oracle => ascii "oracle:"
  | mining => ascii "mining:"
  | code => ascii "code:"
  | contractStorage => ascii "cs:"
  | assetProposal => ascii "aprop:"
  | governanceProposal => ascii "gprop:"

theorem isLabel_label (t : TrieTable) : isLabel t.label = true := by cases t <;> decide +kernel

theorem label_injective {t t' : TrieTable} (h : t.label = t'.label) : t = t' := by
  cases t <;> cases t' <;> first
    | rfl
    | exact absurd h (by decide +kernel)

end TrieTable

/-- The keys of the trie. -/
inductive TrieKey where
  | account (address : Address)
  | asset (id : H256)
  | pool (id : H256)
  | ownership (id : H256) (owner : Address)
  | oracle (id : H256)
  | mining (id : H256)
  | code (hash : H256)
  | contractStorage (address : Address) (key : Bytes)
  | assetProposal (id : H256)
  | governanceProposal (id : H256)
deriving DecidableEq

namespace TrieKey

/-- The collection of a key; accounts have no label. -/
def table : TrieKey → Option TrieTable
  | account _ => none
  | asset _ => some .asset
  | pool _ => some .pool
  | ownership _ _ => some .ownership
  | oracle _ => some .oracle
  | mining _ => some .mining
  | code _ => some .code
  | contractStorage _ _ => some .contractStorage
  | assetProposal _ => some .assetProposal
  | governanceProposal _ => some .governanceProposal

/-- The key inside of the collection. -/
def body : TrieKey → Bytes
  | account address => address.asBytes
  | asset id => id.asBytes
  | pool id => id.asBytes
  | ownership id owner => StateDB.ownershipKey id owner
  | oracle id => id.asBytes
  | mining id => id.asBytes
  | code hash => hash.asBytes
  | contractStorage address key => address.asBytes ++ key
  | assetProposal id => id.asBytes
  | governanceProposal id => id.asBytes

/-- The key as the trie has it. -/
def bytes (k : TrieKey) : Bytes := ((k.table.map TrieTable.label).getD []) ++ k.body

theorem le_body_length (k : TrieKey) : 20 ≤ k.body.length := by
  cases k <;> simp [body, ownershipKey]

theorem body_length_of_account {k : TrieKey} (h : k.table = none) : k.body.length = 20 := by
  cases k with
  | account address => exact address.asBytes_length
  | _ => cases h

theorem eq_of_table_body {k k' : TrieKey} (htable : k.table = k'.table) (hbody : k.body = k'.body) :
    k = k' := by
  cases k <;> cases k' <;> cases htable
  case account.account.refl => exact congrArg account (asBytes_injective hbody)
  case ownership.ownership.refl id owner id' owner' =>
    obtain ⟨hid, howner⟩ := append_inj hbody (by simp)
    rw [H256.asBytes_injective hid, asBytes_injective howner]
  case contractStorage.contractStorage.refl address key address' key' =>
    obtain ⟨haddress, hkey⟩ := append_inj hbody (by simp)
    rw [asBytes_injective haddress, hkey]
  all_goals exact congrArg _ (H256.asBytes_injective hbody)

/-- A key with a label is longer than the key of an account. -/
theorem bytes_ne_of_labelled {k k' : TrieKey} {t : TrieTable} (hk : k.table = none)
    (hk' : k'.table = some t) :
    k.bytes ≠ k'.bytes := by
  intro h
  have short := body_length_of_account hk
  have long := k'.le_body_length
  have label : 0 < t.label.length := by cases t <;> decide +kernel
  have length := congrArg length h
  simp only [bytes, hk, hk', length_append, Option.map_none, Option.map_some, Option.getD_none,
    Option.getD_some, length_nil] at length
  omega

/-- Different keys are different in the trie. -/
theorem bytes_injective : Function.Injective bytes := by
  intro k k' h
  cases htable : k.table with
  | none =>
    cases htable' : k'.table with
    | none =>
      rw [bytes, bytes, htable, htable'] at h
      exact eq_of_table_body (htable.trans htable'.symm) h
    | some => exact absurd h (bytes_ne_of_labelled htable htable')
  | some t =>
    cases htable' : k'.table with
    | none => exact absurd h.symm (bytes_ne_of_labelled htable' htable)
    | some t' =>
      rw [bytes, bytes, htable, htable'] at h
      obtain ⟨hlabel, hbody⟩ := label_append_inj t.isLabel_label t'.isLabel_label h
      obtain rfl := TrieTable.label_injective hlabel
      exact eq_of_table_body (htable.trans htable'.symm) hbody

end TrieKey

/-! ## What the caches ask for -/

namespace StateSnapshot

/-- The entry of the trie that the caches ask for. Empty accounts have none. -/
def entry (s : StateSnapshot) : TrieKey → Option Bytes
  | .account address => (s.accounts[address]?).bind fun account =>
    if account.isEmpty then none else some (serialize account)
  | .asset id => (s.assets[id]?).map serialize
  | .pool id => s.pools[id]?
  | .ownership id owner => (s.ownership[(id, owner)]?).map serialize
  | .oracle id => (s.oracles[id]?).map serialize
  | .mining id => s.miningStates[id]?
  | .code hash => s.contractCode[hash]?
  | .contractStorage address key => s.contractStorage[(address, key)]?
  | .assetProposal id => (s.assetProposals[id]?).map serialize
  | .governanceProposal id => s.governanceProposals[id]?

variable {s : StateSnapshot} {b v : Bytes}

theorem mem_labelled {label : String} {entries : List (Bytes × Bytes)} :
    (b, v) ∈ labelled label entries ↔ ∃ k, (k, v) ∈ entries ∧ ascii label ++ k = b := by
  simp only [labelled, mem_map, Prod.mk.injEq, Prod.exists]
  constructor
  · rintro ⟨k, _, hmem, rfl, rfl⟩
    exact ⟨k, hmem, rfl⟩
  · rintro ⟨k, hmem, rfl⟩
    exact ⟨k, v, hmem, rfl, rfl⟩

/-- The entries that a map is laid out as. -/
theorem mem_map_toList {κ ν : Type} [Ord κ] [TransOrd κ] [LawfulEqOrd κ] {m : FinMap κ ν}
    {f : κ → Bytes} {g : ν → Bytes} : (b, v) ∈ m.toList.map (fun e => (f e.1, g e.2)) ↔
      ∃ k, (m[k]?).map g = some v ∧ f k = b := by
  simp only [mem_map, Prod.mk.injEq, Prod.exists, mem_toList_iff_getElem?_eq_some,
    Option.map_eq_some_iff]
  constructor
  · rintro ⟨k, record, hget, rfl, rfl⟩
    exact ⟨k, ⟨record, hget, rfl⟩, rfl⟩
  · rintro ⟨k, ⟨record, hget, rfl⟩, rfl⟩
    exact ⟨k, record, hget, rfl, rfl⟩

theorem mem_recordEntries {α : Type} [Borsh α] {m : FinMap H256 α} : (b, v) ∈ recordEntries m ↔
      ∃ id : H256, (m[id]?).map serialize = some v ∧ id.asBytes = b :=
  mem_map_toList

theorem mem_rawEntries {m : FinMap H256 Bytes} :
    (b, v) ∈ rawEntries m ↔ ∃ id : H256, m[id]? = some v ∧ id.asBytes = b := by
  refine (mem_map_toList (f := H256.asBytes) (g := id)).trans ?_
  simp only [Option.map_id, id_eq]

theorem mem_ownershipEntries :
    (b, v) ∈ s.ownershipEntries ↔ ∃ k : H256 × Address, (s.ownership[k]?).map serialize = some v ∧
      ownershipKey k.1 k.2 = b :=
  mem_map_toList (f := fun k : H256 × Address => ownershipKey k.1 k.2)

theorem mem_contractStorageEntries : (b, v) ∈ s.contractStorageEntries ↔
      ∃ k : Address × Bytes, s.contractStorage[k]? = some v ∧ k.1.asBytes ++ k.2 = b := by
  refine (mem_map_toList (f := fun k : Address × Bytes => k.1.asBytes ++ k.2) (g := id)).trans ?_
  simp only [Option.map_id, id_eq]

/-- The collections that every computation of the root flushes. -/
def flushedAlways : TrieKey → Bool
  | .account _ => false
  | .asset _ => false
  | .pool _ => false
  | _ => true

/-- What every computation of the root flushes is what the caches ask for. -/
theorem mem_flushedEntries : (b, v) ∈ s.flushedEntries ↔
      ∃ k, flushedAlways k = true ∧ s.entry k = some v ∧ k.bytes = b := by
  simp only [flushedEntries, mem_append, mem_labelled, mem_recordEntries, mem_rawEntries,
    mem_ownershipEntries, mem_contractStorageEntries]
  constructor
  · rintro ((((((⟨_, ⟨k, hget, rfl⟩, rfl⟩ | ⟨_, ⟨k, hget, rfl⟩, rfl⟩) | ⟨_, ⟨k, hget, rfl⟩, rfl⟩) |
      ⟨_, ⟨k, hget, rfl⟩, rfl⟩) | ⟨_, ⟨k, hget, rfl⟩, rfl⟩) | ⟨_, ⟨k, hget, rfl⟩, rfl⟩) |
      ⟨_, ⟨k, hget, rfl⟩, rfl⟩)
    · exact ⟨.ownership k.1 k.2, rfl, hget, rfl⟩
    · exact ⟨.oracle k, rfl, hget, rfl⟩
    · exact ⟨.mining k, rfl, hget, rfl⟩
    · exact ⟨.code k, rfl, hget, rfl⟩
    · exact ⟨.contractStorage k.1 k.2, rfl, hget, rfl⟩
    · exact ⟨.assetProposal k, rfl, hget, rfl⟩
    · exact ⟨.governanceProposal k, rfl, hget, rfl⟩
  · rintro ⟨k, halways, hget, rfl⟩
    cases k with
    | account | asset | pool => cases halways
    | ownership id owner =>
      exact .inl (.inl (.inl (.inl (.inl (.inl ⟨_, ⟨(id, owner), hget, rfl⟩, rfl⟩)))))
    | oracle id => exact .inl (.inl (.inl (.inl (.inl (.inr ⟨_, ⟨id, hget, rfl⟩, rfl⟩)))))
    | mining id => exact .inl (.inl (.inl (.inl (.inr ⟨_, ⟨id, hget, rfl⟩, rfl⟩))))
    | code id => exact .inl (.inl (.inl (.inr ⟨_, ⟨id, hget, rfl⟩, rfl⟩)))
    | contractStorage address key => exact .inl (.inl (.inr ⟨_, ⟨(address, key), hget, rfl⟩, rfl⟩))
    | assetProposal id => exact .inl (.inr ⟨_, ⟨id, hget, rfl⟩, rfl⟩)
    | governanceProposal id => exact .inr ⟨_, ⟨id, hget, rfl⟩, rfl⟩

/-- The non-empty accounts under their keys. -/
def accountTrieEntries (s : StateSnapshot) : List (Bytes × Bytes) :=
  s.accounts.toList.filterMap fun a =>
    if a.2.isEmpty then none else some (a.1.asBytes, serialize a.2)

/-- All entries that the caches ask for. -/
def trieEntries (s : StateSnapshot) : List (Bytes × Bytes) :=
  s.accountTrieEntries ++ labelled "asset:" (recordEntries s.assets) ++
    labelled "pool:" (rawEntries s.pools) ++ s.flushedEntries

theorem mem_accountTrieEntries : (b, v) ∈ s.accountTrieEntries ↔ ∃ address, s.entry
    (.account address) = some v ∧
      address.asBytes = b := by
  simp only [accountTrieEntries, mem_filterMap, Prod.exists,
    mem_toList_iff_getElem?_eq_some, entry, Option.bind_eq_some_iff]
  constructor
  · rintro ⟨address, account, hget, hentry⟩
    split at hentry
    · cases hentry
    · rename_i hfull
      cases hentry
      exact ⟨address, ⟨account, hget, if_neg hfull⟩, rfl⟩
  · rintro ⟨address, ⟨account, hget, hentry⟩, rfl⟩
    split at hentry
    · cases hentry
    · rename_i hfull
      cases hentry
      exact ⟨address, account, hget, if_neg hfull⟩

/-- The list has all entries that the caches ask for. -/
theorem mem_trieEntries : (b, v) ∈ s.trieEntries ↔ ∃ k, s.entry k = some v ∧ k.bytes = b := by
  simp only [trieEntries, mem_append, mem_accountTrieEntries, mem_labelled, mem_recordEntries,
    mem_rawEntries, mem_flushedEntries]
  constructor
  · rintro (((⟨k, hget, rfl⟩ | ⟨_, ⟨k, hget, rfl⟩, rfl⟩) | ⟨_, ⟨k, hget, rfl⟩, rfl⟩) | ⟨k,
      -, hget, rfl⟩)
    · exact ⟨.account k, hget, rfl⟩
    · exact ⟨.asset k, hget, rfl⟩
    · exact ⟨.pool k, hget, rfl⟩
    · exact ⟨k, hget, rfl⟩
  · rintro ⟨k, hget, rfl⟩
    cases k with
    | account address => exact .inl (.inl (.inl ⟨address, hget, rfl⟩))
    | asset id => exact .inl (.inl (.inr ⟨_, ⟨id, hget, rfl⟩, rfl⟩))
    | pool id => exact .inl (.inr ⟨_, ⟨id, hget, rfl⟩, rfl⟩)
    | _ => exact .inr ⟨_, rfl, hget, rfl⟩

/-- The trie that the caches ask for. -/
def rebuilt (s : StateSnapshot) : StateTrie := StateTrie.insertAll ⟨∅⟩ s.trieEntries

theorem rebuilt_bytes (s : StateSnapshot) (k : TrieKey) :
    (s.rebuilt.entries)[k.bytes]? = s.entry k := by
  have unique : ∀ v, (k.bytes, v) ∈ s.trieEntries ↔ s.entry k = some v := by
    intro v
    rw [mem_trieEntries]
    exact ⟨fun ⟨k', hget, hk'⟩ => TrieKey.bytes_injective hk' ▸ hget, fun hget => ⟨k, hget, rfl⟩⟩
  cases hentry : s.entry k with
  | some v =>
    refine insertList_of_mem ((unique v).2 hentry) (fun v' hv' => ?_) _
    exact Option.some.inj (((unique v').1 hv').symm.trans hentry)
  | none =>
    refine (insertList_of_forall_ne (fun e he hk => ?_) _).trans (by simp)
    have hmem : (k.bytes, e.2) ∈ s.trieEntries := by rwa [← hk]
    rw [unique, hentry] at hmem
    cases hmem

/-- Other keys are not in it. -/
theorem rebuilt_of_forall_ne (s : StateSnapshot) (h : ∀ k : TrieKey, k.bytes ≠ b) :
    (s.rebuilt.entries)[b]? = none := by
  refine (insertList_of_forall_ne (fun e he heq => ?_) _).trans (by simp)
  obtain ⟨k, -, hk⟩ := mem_trieEntries.1 he
  exact h k (hk.trans heq)

/-- Set the entry of a key to what the caches ask for. -/
def setEntry (s : StateSnapshot) (m : FinMap Bytes Bytes) (k : TrieKey) : FinMap Bytes Bytes :=
  match s.entry k with
  | some v => m.insert k.bytes v
  | none => m.erase k.bytes

theorem setEntry_get (m : FinMap Bytes Bytes) (k : TrieKey) :
    (s.setEntry m k)[b]? = if k.bytes = b then s.entry k else m[b]? := by
  unfold setEntry
  cases s.entry k with
  | some => exact get_insert ..
  | none => exact get_erase ..

/-- Setting entries in turn sets those keys and no others. -/
theorem foldl_setEntry_of_mem {keys : List TrieKey} {k : TrieKey} (h : k ∈ keys)
    (m : FinMap Bytes Bytes) :
    (keys.foldl s.setEntry m)[k.bytes]? = s.entry k := by
  induction keys using reverseRecOn with
  | nil => cases h
  | append_singleton rest _ ih =>
    rw [foldl_append, foldl_cons, foldl_nil, setEntry_get]
    split
    · rename_i hk
      rw [TrieKey.bytes_injective hk]
    · rename_i hk
      have hrest : k ∈ rest := by
        rcases mem_append.1 h with hrest | hlast
        · exact hrest
        · exact absurd (congrArg TrieKey.bytes (mem_singleton.1 hlast)).symm hk
      exact ih hrest

theorem foldl_setEntry_of_forall_ne {keys : List TrieKey} (h : ∀ k ∈ keys, k.bytes ≠ b)
    (m : FinMap Bytes Bytes) :
    (keys.foldl s.setEntry m)[b]? = m[b]? := by
  induction keys generalizing m with
  | nil => rfl
  | cons k _ ih =>
    rw [foldl_cons, ih (fun k' hk' => h k' (mem_cons_of_mem _ hk')), setEntry_get,
      if_neg (h k (mem_cons_self ..))]

end StateSnapshot

/-! ## What a flush sets -/

namespace StateDB

variable {db : StateDB} {k : TrieKey}

variable {m : FinMap Bytes Bytes}

/-- The changed accounts, assets and pools that are in the caches. -/
def dirtyKeys (db : StateDB) : List TrieKey :=
  (db.dirty.filter (db.accounts.contains ·)).map .account ++
    (db.dirtyAssets.filter (db.assets.contains ·)).map .asset ++
    (db.dirtyPools.filter (db.pools.contains ·)).map .pool

theorem flushAccount_eq (address : Address) :
    flushAccount db.accounts m address =
      if db.accounts.contains address then db.setEntry m (.account address) else m := by
  simp only [flushAccount, setEntry, entry, contains_eq_isSome_getElem?]
  cases db.accounts[address]? with
  | none => rfl
  | some =>
    simp only [Option.isSome_some, if_true, Option.bind_some]
    split
    · rfl
    · rfl

theorem flushAsset_eq (id : H256) :
    flushAsset db.assets m id = if db.assets.contains id then db.setEntry m (.asset id) else m := by
  simp only [flushAsset, setEntry, entry, contains_eq_isSome_getElem?]
  cases db.assets[id]? with
  | none | some => rfl

theorem flushPool_eq (id : H256) :
    flushPool db.pools m id = if db.pools.contains id then db.setEntry m (.pool id) else m := by
  simp only [flushPool, setEntry, entry, contains_eq_isSome_getElem?]
  cases db.pools[id]? with
  | none | some => rfl

/-- A flush sets the entries of the changed keys, and then those that are always flushed. -/
theorem flushedTrie_eq : db.flushedTrie =
      ⟨insertList (db.dirtyKeys.foldl db.setEntry db.trie.entries) db.flushedEntries⟩ := by
  have fold : ∀ {α : Type} (p : α → Bool) (make : α → TrieKey) (xs : List α)
      (m : FinMap Bytes Bytes),
      xs.foldl (fun m x => if p x then db.setEntry m (make x) else m) m =
        ((xs.filter p).map make).foldl db.setEntry m := by
    intro α _ _ _ _
    rw [foldl_map, foldl_filter]
  rw [dirtyKeys, foldl_append, foldl_append, ← fold, ← fold, ← fold]
  simp only [← flushAccount_eq, ← flushAsset_eq, ← flushPool_eq]
  rfl

/-- The keys that a flush sets. -/
def Pending (db : StateDB) : TrieKey → Prop
  | .account address => address ∈ db.dirty ∧ address ∈ db.accounts
  | .asset id => id ∈ db.dirtyAssets ∧ id ∈ db.assets
  | .pool id => id ∈ db.dirtyPools ∧ id ∈ db.pools
  | k => (db.entry k).isSome = true

theorem pending_iff : db.Pending k ↔ k ∈ db.dirtyKeys ∨ flushedAlways k = true ∧
    (db.entry k).isSome = true := by
  cases k <;> simp [Pending, dirtyKeys, flushedAlways]

theorem flushedTrie_of_pending (h : db.Pending k) : (db.flushedTrie.entries)[k.bytes]? =
    db.entry k := by
  rw [flushedTrie_eq]
  rw [pending_iff] at h
  by_cases halways : flushedAlways k = true ∧ (db.entry k).isSome = true
  · obtain ⟨_, hv⟩ := Option.isSome_iff_exists.1 halways.2
    rw [hv]
    refine insertList_of_mem (mem_flushedEntries.2 ⟨k, halways.1, hv, rfl⟩) ?_ _
    intro _ hv'
    obtain ⟨k', -, hget, hk'⟩ := mem_flushedEntries.1 hv'
    obtain rfl := TrieKey.bytes_injective hk'
    exact Option.some.inj (hget.symm.trans hv)
  · have hdirty := h.resolve_right halways
    refine (insertList_of_forall_ne (fun e he heq => ?_) _).trans (foldl_setEntry_of_mem hdirty _)
    obtain ⟨_, hkind, hget, hk'⟩ := mem_flushedEntries.1 he
    obtain rfl := TrieKey.bytes_injective (hk'.trans heq)
    exact halways ⟨hkind, Option.isSome_iff_exists.2 ⟨_, hget⟩⟩

theorem flushedTrie_of_forall_ne {b : Bytes} (h : ∀ k, db.Pending k → k.bytes ≠ b) :
    (db.flushedTrie.entries)[b]? = (db.trie.entries)[b]? := by
  rw [flushedTrie_eq]
  refine (insertList_of_forall_ne (fun e he heq => ?_) _).trans
    (foldl_setEntry_of_forall_ne (fun k hk => h k (pending_iff.2 (.inl hk))) _)
  obtain ⟨k, hkind, hget, hk⟩ := mem_flushedEntries.1 he
  exact h k (pending_iff.2 (.inr ⟨hkind, Option.isSome_iff_exists.2 ⟨_, hget⟩⟩)) (hk.trans heq)

theorem flushedTrie_of_not_pending (h : ¬ db.Pending k) :
    (db.flushedTrie.entries)[k.bytes]? = (db.trie.entries)[k.bytes]? :=
  flushedTrie_of_forall_ne fun _ hk' heq => h (TrieKey.bytes_injective heq ▸ hk')

end StateDB

end Vtt
