import Vtt.State.Accounts
import Vtt.State.Reload

/-!
# Changes that are written through

A change of the caches that is written to the cell it is about keeps a state in step with its store.
Keys that are no cells may be written freely.
-/

namespace Vtt

open Lib Std StateDB ExtTreeMap Option Storage
open Borsh (serialize)

namespace StateDB

/-! ## Reading back what was written -/

theorem decodeSet_serialize {α : Type} [DecidableEq α] [Ord α] [TransOrd α] [LawfulEqOrd α]
    [Borsh α] (set : FinSet α) (hfits : Borsh.Fits set.toList) :
    decodeSet (some (serialize set.toList)) = set := by
  rw [decodeSet, bind_some, Borsh.tryFromSlice_serialize _ hfits, getD_some]
  exact ofList_toListSet set

theorem decodeMap_serialize {κ ν : Type} [DecidableEq κ] [Ord κ] [TransOrd κ] [LawfulEqOrd κ]
    [Borsh κ] [Borsh ν] (map : FinMap κ ν) (hfits : Borsh.Fits map.toList) :
    decodeMap (some (serialize map.toList)) = map := by
  rw [decodeMap, bind_some, Borsh.tryFromSlice_serialize _ hfits, getD_some]
  exact ofList_toList map

theorem decodeUnbonding_serialize (entries : FinMap Address (List UnbondingEntry))
    (hfits : Borsh.Fits entries.toList) :
    decodeUnbonding (some (serialize entries.toList)) = entries := by
  rw [decodeUnbonding, bind_some, Borsh.tryFromSlice_serialize _ hfits]
  exact ofList_toList entries

theorem decodeCounter_leBytes (n : UInt64) : decodeCounter (some (leBytes 8 n.toNat)) = n := by
  have hlt : n.toNat < 256 ^ 8 := n.toNat_lt
  rw [decodeCounter, if_pos (leBytes_length 8 _), leNat_leBytes, Nat.mod_eq_of_lt hlt,
    UInt64.ofNat_toNat]

/-! ## Accounts -/

section Accounts

variable {s : StateDB} {address : Address} {state : AccountState}

theorem mem_stakers_putAccount {a : Address} : a ∈ (s.putAccount address state).stakers ↔
      if a = address then hasSelfStake state = true else a ∈ s.stakers := by
  simp only [putAccount]
  by_cases ha : a = address
  · subst ha
    cases hasSelfStake state <;> simp
  · have ha' : address ≠ a := fun heq => ha heq.symm
    cases hasSelfStake state <;> simp [ha, ha']

theorem read_putAccount (hsome : s.storage.isSome = true) (c : Cell) :
    (s.putAccount address state).storage.read c.column c.key =
      if c = .account address then some (serialize state)
      else if c = .stakers ∧ hasSelfStake state ≠ s.stakers.contains address then
        some (serialize (s.putAccount address state).stakers.toList)
      else s.storage.read c.column c.key := by
  have account : (s.storage.write .accounts address.asBytes (serialize state)).read
      c.column c.key = if c = .account address then some (serialize state) else
        s.storage.read c.column c.key := read_write_cell (c := .account address) hsome
  by_cases hchanged : hasSelfStake state = s.stakers.contains address
  · have unchanged : (hasSelfStake state != s.stakers.contains address) = false := by
      simp [hchanged]
    simp only [putAccount, unchanged, Bool.false_eq_true, if_false, account]
    simp [hchanged]
  · have changed : (hasSelfStake state != s.stakers.contains address) = true := by simp [hchanged]
    have written : (s.storage.write .accounts address.asBytes (serialize state)).isSome = true :=
      isSome_map.trans hsome
    simp only [putAccount, changed, if_true]
    refine (read_write_cell (c := .stakers) written).trans ?_
    rw [account]
    by_cases hstakers : c = .stakers
    · subst hstakers
      simp [hchanged]
    · simp [hstakers]

/-- Every cell stays in step when an account is written. -/
theorem agrees_putAccount (hsome : s.storage.isSome = true) {c : Cell}
    (h : c.Agrees s (s.storage.read c.column c.key)) :
    c.Agrees (s.putAccount address state)
      ((s.putAccount address state).storage.read c.column c.key) := by
  rw [read_putAccount hsome]
  cases c with
  | account a =>
    by_cases ha : a = address
    · subst ha
      intro _
      simp only [putAccount, getElem?_insert_self]
      exact .serialize state
    · rw [if_neg (by simpa using ha), if_neg (by simp)]
      have cached : (s.putAccount address state).accounts[a]? = s.accounts[a]? := by
        simp only [putAccount, get_insert]
        exact if_neg fun heq => ha heq.symm
      intro hmem
      rw [cached]
      apply h
      rw [mem_iff_isSome_getElem?, cached, mem_stakers_putAccount, if_neg ha] at hmem
      rwa [mem_iff_isSome_getElem?]
  | stakers =>
    rw [if_neg (by simp)]
    split
    · exact fun hfits => decodeSet_serialize _ hfits
    · rename_i hsame
      have unchanged : (s.putAccount address state).stakers = s.stakers := by
        apply ExtTreeSet.ext_mem
        intro a
        rw [mem_stakers_putAccount]
        split
        · rename_i ha
          subst ha
          have hstake : hasSelfStake state = s.stakers.contains a := by simpa using hsame
          rw [hstake, ExtTreeSet.contains_iff_mem]
        · rfl
      intro hfits
      rw [unchanged] at hfits ⊢
      exact h hfits
  | _ => exact h

end Accounts

end StateDB

/-! ## Writing one cell -/

namespace InStep

variable {s t : StateDB}

/-- A change of what one cell is about, written through, keeps a state in step. -/
theorem write (h : InStep s) (c : Cell) {value : Bytes}
    (hstorage : t.storage = s.storage.write c.column c.key value) (hself : c.Agrees t (some value))
    (hothers : ∀ c', c' ≠ c → ∀ stored, c'.Agrees s stored → c'.Agrees t stored) :
    InStep t := by
  intro c'
  rw [hstorage, read_write_cell h.isSome_storage]
  split
  · rename_i heq
    rwa [heq]
  · rename_i hne
    exact hothers c' hne _ (h c')

/-- An entry of a collection that has a cell for each of its entries, written through. -/
theorem write_entry {κ ν : Type} [DecidableEq κ] [Ord κ] [TransOrd κ] [LawfulEqOrd κ] (h : InStep s)
    (map : StateDB → FinMap κ ν) (cell : κ → Cell) (agrees : Option Bytes → Option ν → Prop)
    (hagrees : ∀ db k stored, (cell k).Agrees db stored ↔ agrees stored (map db)[k]?) {k : κ}
    {v : ν} {value : Bytes} (hmap : map t = (map s).insert k v)
    (hstorage : t.storage = s.storage.write (cell k).column (cell k).key value)
    (hvalue : agrees (some value) (some v))
    (hothers : ∀ c, (∀ k, c ≠ cell k) → ∀ stored, c.Agrees s stored → c.Agrees t stored) :
    InStep t := by
  refine h.write (cell k) hstorage ?_ fun c hne stored before => ?_
  · rw [hagrees, hmap, getElem?_insert_self]
    exact hvalue
  · by_cases hcell : ∃ k', c = cell k'
    · obtain ⟨k', rfl⟩ := hcell
      have hk : k ≠ k' := fun heq => hne (congrArg cell heq.symm)
      rw [hagrees, hmap, get_insert, if_neg hk]
      exact (hagrees ..).1 before
    · exact hothers c (fun k' heq => hcell ⟨k', heq⟩) stored before

/-- A change of what no cell is about keeps a state in step. -/
theorem of_foreign (h : InStep s)
    (hread : ∀ c : Cell, t.storage.read c.column c.key = s.storage.read c.column c.key)
    (hagrees : ∀ (c : Cell) stored, c.Agrees s stored → c.Agrees t stored) : InStep t := by
  intro c
  rw [hread c]
  exact hagrees c _ (h c)

end InStep

namespace Synced

variable {s : StateDB} (h : Synced s)

include h

theorem putAccount (address : Address) (state : AccountState) :
    Synced (s.putAccount address state) :=
  ⟨fun c => agrees_putAccount h.isSome_storage (h.agrees c), h.counted⟩

theorem putAsset (id : H256) (asset : AssetRecord) : Synced (s.putAsset id asset) := by
  refine ⟨h.agrees.write_entry (·.assets) .asset Stored
    (fun _ _ _ => Iff.rfl) rfl rfl (.serialize asset) fun c hc stored before => ?_, h.counted⟩
  cases c with
  | asset id => exact absurd rfl (hc id)
  | _ => exact before

theorem putOracle (id : H256) (feed : OracleFeed) : Synced (s.putOracle id feed) := by
  refine ⟨h.agrees.write_entry (·.oracles) .oracle Stored
    (fun _ _ _ => Iff.rfl) rfl rfl (.serialize feed) fun c hc stored before => ?_, h.counted⟩
  cases c with
  | oracle id => exact absurd rfl (hc id)
  | _ => exact before

theorem putAssetProposal (proposal : AssetProposal) : Synced (s.putAssetProposal proposal) := by
  refine ⟨h.agrees.write_entry (·.assetProposals) .assetProposal Stored
    (fun _ _ _ => Iff.rfl) rfl rfl (.serialize proposal) fun c hc stored before => ?_, h.counted⟩
  cases c with
  | assetProposal id => exact absurd rfl (hc id)
  | _ => exact before

theorem storeCode [Crypto] (code : Bytes) : Synced (s.storeCode code).2 := by
  refine ⟨h.agrees.write_entry (·.contractCode) .code (· = ·) (fun _ _ _ => Iff.rfl) rfl rfl rfl
    fun c hc stored before => ?_, h.counted⟩
  cases c with
  | code hash => exact absurd rfl (hc hash)
  | _ => exact before

theorem putContractStorage (address : Address) (key value : Bytes) :
    Synced (s.putContractStorage address key value) := by
  refine ⟨h.agrees.write_entry (·.contractStorage) (fun k => .contractStorage k.1 k.2) (· = ·)
    (fun _ _ _ => Iff.rfl) rfl rfl rfl fun c hc stored before => ?_, h.counted⟩
  cases c with
  | contractStorage address key => exact absurd rfl (hc (address, key))
  | _ => exact before

theorem putPoolRaw (id : H256) (data : Bytes) : Synced (s.putPoolRaw id data) := by
  refine ⟨h.agrees.write_entry (·.pools) .pool (· = ·) (fun _ _ _ => Iff.rfl) rfl rfl rfl
    fun c hc stored before => ?_, h.counted⟩
  cases c with
  | pool id => exact absurd rfl (hc id)
  | _ => exact before

theorem putMiningStateRaw (id : H256) (data : Bytes) : Synced (s.putMiningStateRaw id data) := by
  refine ⟨h.agrees.write_entry (·.miningStates) .mining (· = ·) (fun _ _ _ => Iff.rfl) rfl rfl rfl
    fun c hc stored before => ?_, h.counted⟩
  cases c with
  | mining id => exact absurd rfl (hc id)
  | _ => exact before

theorem putGovernanceProposal (id : H256) (data : Bytes) :
    Synced (s.putGovernanceProposal id data) := by
  refine ⟨h.agrees.write_entry (·.governanceProposals) .governance (· = ·)
    (fun _ _ _ => Iff.rfl) rfl rfl rfl fun c hc stored before => ?_, h.counted⟩
  cases c with
  | governance id => exact absurd rfl (hc id)
  | _ => exact before

theorem deleteContractStorage (address : Address) (key : Bytes) :
    Synced (s.deleteContractStorage address key) := by
  refine ⟨fun c => ?_, h.counted⟩
  have before := h.agrees c
  by_cases hc : c = .contractStorage address key
  · subst hc
    change ((s.storage.remove .contractStorage (address.asBytes ++ key)).read .contractStorage
      (address.asBytes ++ key)) = (s.contractStorage.erase (address, key))[(address, key)]?
    rw [read_remove_self, getElem?_erase_self]
  · have kept : (s.deleteContractStorage address key).storage.read c.column c.key =
        s.storage.read c.column c.key := read_remove_cell hc
    rw [kept]
    cases c with
    | contractStorage address' key' =>
      have hk : (address, key) ≠ (address', key') := by
        rintro ⟨⟩
        exact hc rfl
      change _ = (s.contractStorage.erase (address, key))[(address', key')]?
      rw [get_erase, if_neg hk]
      exact before
    | _ => exact before

/-! ## Collections in one cell -/

theorem setKycApproved (address : Address) (approved : Bool) :
    Synced (s.setKycApproved address approved) := by
  refine ⟨h.agrees.write .kycApproved rfl (fun hfits => decodeSet_serialize _ hfits)
    fun c hne stored before => ?_, h.counted⟩
  cases c with
  | kycApproved => exact absurd rfl hne
  | _ => exact before

theorem markSlashingEvidence (offender : Address) (epoch : UInt64) (slot : UInt32) :
    Synced (s.markSlashingEvidence offender epoch slot) := by
  refine ⟨h.agrees.write .slashingSeen rfl (fun hfits => decodeSet_serialize _ hfits)
    fun c hne stored before => ?_, h.counted⟩
  cases c with
  | slashingSeen => exact absurd rfl hne
  | _ => exact before

/-- The missed slots are set to anything, written through. -/
theorem setMissedSlots (missed : FinMap (UInt64 × Address) UInt32) :
    Synced { s with missedSlots := missed, storage := storeMissedSlots s.storage missed } := by
  refine ⟨h.agrees.write .missedSlots rfl (fun hfits => decodeMap_serialize _ hfits)
    fun c hne stored before => ?_, h.counted⟩
  cases c with
  | missedSlots => exact absurd rfl hne
  | _ => exact before

theorem setBlockCommitments (commitments : FinMap SlotKey H256) :
    Synced { s with
      blockCommitments := commitments
      storage := storeBlockCommitments s.storage commitments } := by
  refine ⟨h.agrees.write .blockCommitments rfl (fun hfits => decodeMap_serialize _ hfits)
    fun c hne stored before => ?_, h.counted⟩
  cases c with
  | blockCommitments => exact absurd rfl hne
  | _ => exact before

theorem setUnbonding (entries : FinMap Address (List UnbondingEntry)) :
    Synced { s with
      unbondingEntries := entries
      storage := storeUnbonding s.storage entries } := by
  refine ⟨h.agrees.write .unbonding rfl (fun hfits => decodeUnbonding_serialize _ hfits)
    fun c hne stored before => ?_, h.counted⟩
  cases c with
  | unbonding => exact absurd rfl hne
  | _ => exact before

theorem recordMintMilli (milli : UInt64) : Synced (s.recordMintMilli milli) := by
  refine ⟨h.agrees.write .minted rfl (decodeCounter_leBytes _) fun c hne stored before => ?_,
    h.counted⟩
  cases c with
  | minted => exact absurd rfl hne
  | _ => exact before

theorem recordBurnMilli (milli : UInt64) : Synced (s.recordBurnMilli milli) := by
  refine ⟨h.agrees.write .burned rfl (decodeCounter_leBytes _) fun c hne stored before => ?_,
    h.counted⟩
  cases c with
  | burned => exact absurd rfl hne
  | _ => exact before

/-! ## Ownership -/

theorem putOwnershipWith (record : OwnershipRecord) {prevTotal newTotal : Amount}
    (hprev : s.ownershipTotal record.assetId record.owner = some prevTotal)
    (hnew : record.total = some newTotal) :
    Synced (s.putOwnershipWith record prevTotal newTotal) := by
  let stored : StateDB :=
    { s with
      dirtyAssets := s.dirtyAssets ++ [record.assetId]
      ownership := s.ownership.insert (record.assetId, record.owner) record
      storage := s.storage.write .ownership (ownershipKey record.assetId record.owner)
        (serialize record) }
  have recorded : InStep stored := by
    refine h.agrees.write_entry (·.ownership) (fun k => .ownership k.1 k.2) Stored
      (fun _ _ _ => Iff.rfl) rfl rfl (.serialize record) fun c hc _ before => ?_
    cases c with
    | ownership id owner => exact absurd rfl (hc (id, owner))
    | _ => exact before
  -- the count changes only with a record that starts or stops to hold something
  by_cases hchanged : (!prevTotal.isZero) = !newTotal.isZero
  · have same : s.putOwnershipWith record prevTotal newTotal = stored := by
      simp only [StateDB.putOwnershipWith, hchanged, bne_self_eq_false,
        Bool.false_eq_true, if_false]
      rfl
    rw [same]
    refine ⟨recorded, fun hempty k r hr => ?_⟩
    rw [get_insert] at hr
    split at hr
    · cases hr
      have before : prevTotal = .zero := by
        unfold ownershipTotal at hprev
        split at hprev
        · rename_i r hr
          exact some.inj (hprev.symm.trans (h.counted hempty _ r hr))
        · exact (some.inj hprev).symm
      subst before
      have nothing : newTotal.isZero = true := (Bool.not_inj hchanged).symm
      rw [hnew, Amount.isZero_iff.1 nothing]
    · exact h.counted hempty k r hr
  · have changed : ((!prevTotal.isZero) != !newTotal.isZero) = true := bne_iff_ne.2 hchanged
    simp only [StateDB.putOwnershipWith, changed, if_true]
    refine ⟨recorded.write_entry (·.assetHolderCount) .holders
      (fun stored count => stored.bind decodeCount = count) (fun _ _ _ => Iff.rfl) rfl rfl
      (decodeCount_leBytes _) fun c hc _ before => ?_, fun hempty => ?_⟩
    · cases c with
      | holders id => exact absurd rfl (hc id)
      | _ => exact before
    · exact absurd (isEmpty_iff.1 hempty) insert_ne_empty

/-! ## Keys that are no cells -/

theorem writeMeta {key : Bytes}
    (hkey : ∀ k ∈ CellKind.all, k.column = .chainMeta → labelOf k.label ≠ labelOf key)
    (value : Bytes) :
    Synced (s.writeMeta key value) := by
  refine ⟨h.agrees.of_foreign (fun c => read_write_foreign hkey) fun c stored before => ?_,
    h.counted⟩
  cases c with
  | _ => exact before

theorem clearNote (note : Note) :
    Synced { s with storage := s.storage.remove .chainMeta note.key } := by
  refine ⟨h.agrees.of_foreign (fun c => read_remove_foreign note.foreign) fun c stored before => ?_,
    h.counted⟩
  cases c with
  | _ => exact before

/-- The fields of a state that no cell is about may change. -/
theorem of_aside (treasuryAddress : Address) (epochLength : UInt64) (dexPaused : Bool)
    (trie : StateTrie) (dirty : List Address) (dirtyAssets dirtyPools : List H256) :
    Synced { s with
      treasuryAddress, epochLength, dexPaused, trie, dirty, dirtyAssets, dirtyPools } := by
  refine ⟨h.agrees.of_foreign (fun _ => rfl) fun c stored before => ?_, h.counted⟩
  cases c with
  | _ => exact before

theorem setTreasuryAddress (address : Address) : Synced (s.setTreasuryAddress address) :=
  (h.writeMeta (by decide +kernel) address.asBytes).of_aside address s.epochLength
    s.dexPaused s.trie s.dirty s.dirtyAssets s.dirtyPools

theorem setEpochLength (length : UInt64) : Synced (s.setEpochLength length) :=
  (h.writeMeta (by decide +kernel) (leBytes 8 length.toNat)).of_aside s.treasuryAddress length
    s.dexPaused s.trie s.dirty s.dirtyAssets s.dirtyPools

theorem setDexPaused (paused : Bool) : Synced (s.setDexPaused paused) :=
  (h.writeMeta (by decide +kernel) [if paused then 1 else 0]).of_aside
    s.treasuryAddress s.epochLength paused s.trie s.dirty s.dirtyAssets s.dirtyPools

end Synced

end Vtt
