import Vtt.State.Restarted

/-!
# Rolling back with a store

A rollback puts the caches back and writes them to the store again. What was written to the store in
between stays there if the snapshot has no entry for it: new records, notes, unbonding entries, and
what the chain has observed.
-/

namespace Vtt

open Lib Std StateDB Option Storage Borsh
open Note (labels labelOf_key)
open ExtTreeMap (mem_iff_isSome_getElem?)

/-- The store has been changed only where a rollback to a snapshot writes, and the observations of
the chain are the same. -/
structure Undoable (snapshot : StateSnapshot) (s t : StateDB) : Prop where
  cells : ∀ c : Cell, (restored snapshot c).isSome = true ∨
    t.storage.read c.column c.key = s.storage.read c.column c.key
  notes : ∀ key, labelOf key ∈ Note.labels →
    t.storage.read .chainMeta key = s.storage.read .chainMeta key
  isSome : t.storage.isSome = s.storage.isSome
  blockCommitments : t.blockCommitments = s.blockCommitments
  missedSlots : t.missedSlots = s.missedSlots

namespace Undoable

variable {snapshot : StateSnapshot} {s t : StateDB}

variable {key : Bytes} {address : Address}

theorem refl (s : StateDB) : Undoable snapshot s s where
  cells _ := .inr rfl
  notes _ _ := rfl
  isSome := rfl
  blockCommitments := rfl
  missedSlots := rfl

theorem trans {u : StateDB} (h : Undoable snapshot s t) (h' : Undoable snapshot t u) :
    Undoable snapshot s u where
  cells c := by
    rcases h'.cells c with hrestored | hsame
    · exact .inl hrestored
    · exact (h.cells c).imp_right hsame.trans
  notes key hkey := (h'.notes key hkey).trans (h.notes key hkey)
  isSome := h'.isSome.trans h.isSome
  blockCommitments := h'.blockCommitments.trans h.blockCommitments
  missedSlots := h'.missedSlots.trans h.missedSlots

/-- The keys of notes are no keys of cells. -/
theorem note_ne_cell {c : Cell} (hkey : labelOf key ∈ labels) :
    Column.chainMeta ≠ c.column ∨ key ≠ c.key := by
  by_cases hmeta : c.column = .chainMeta
  · have disjoint : ∀ k ∈ CellKind.all, k.column = .chainMeta → labelOf k.label ∉ labels := by
      decide +kernel
    refine .inr (Cell.key_ne hmeta fun k hk hk' heq => ?_).symm
    exact disjoint k hk hk' (heq ▸ hkey)
  · exact .inl fun heq => hmeta heq.symm

/-- Cells that the snapshot has may be written. -/
theorem of_writeCells {entries : List (Cell × Bytes)}
    (h : ∀ e ∈ entries, (restored snapshot e.1).isSome = true)
    (hstorage : t.storage = s.storage.writeCells entries)
    (hblocks : t.blockCommitments = s.blockCommitments) (hmissed : t.missedSlots = s.missedSlots) :
    Undoable snapshot s t where
  cells c := by
    by_cases hc : ∃ e ∈ entries, e.1 = c
    · obtain ⟨e, he, rfl⟩ := hc
      exact .inl (h e he)
    · rw [hstorage]
      exact .inr (read_writeCells_of_forall_ne fun e he heq => hc ⟨e, he, heq⟩)
  notes key hkey := by
    rw [hstorage]
    generalize s.storage = storage
    clear hstorage h
    induction entries generalizing storage with
    | nil => rfl
    | cons _ _ ih => exact (ih _).trans (read_write_of_ne _ _ (note_ne_cell hkey))
  isSome := by rw [hstorage, isSome_writeCells]
  blockCommitments := hblocks
  missedSlots := hmissed

/-- A parameter that is never loaded may be written. -/
theorem of_param {value : Bytes} (hcell : ∀ k ∈ CellKind.all, k.column = .chainMeta →
    labelOf k.label ≠ labelOf key) (hnote : labelOf key ∉ labels)
    (hstorage : t.storage = s.storage.write .chainMeta key value)
    (hblocks : t.blockCommitments = s.blockCommitments) (hmissed : t.missedSlots = s.missedSlots) :
    Undoable snapshot s t where
  cells c := by
    rw [hstorage]
    exact .inr (read_write_foreign hcell)
  notes key' hkey' := by
    rw [hstorage]
    refine read_write_of_ne _ _ (.inr ?_)
    rintro rfl
    exact hnote hkey'
  isSome := by
    rw [hstorage]
    exact isSome_map
  blockCommitments := hblocks
  missedSlots := hmissed

/-- The caches may change. -/
theorem of_storage (hstorage : t.storage = s.storage)
    (hblocks : t.blockCommitments = s.blockCommitments) (hmissed : t.missedSlots = s.missedSlots) :
    Undoable snapshot s t := by
  have none : ∀ e ∈ ([] : List (Cell × Bytes)), (restored snapshot e.1).isSome =
    true := by rintro _ ⟨⟩
  exact of_writeCells none hstorage hblocks hmissed

/-- A cell that the snapshot has may be written. -/
theorem of_write {c : Cell} {value : Bytes} (h : (restored snapshot c).isSome = true)
    (hstorage : t.storage = s.storage.write c.column c.key value)
    (hblocks : t.blockCommitments = s.blockCommitments) (hmissed : t.missedSlots = s.missedSlots) :
    Undoable snapshot s t := by
  have one : ∀ e ∈ [(c, value)], (restored snapshot e.1).isSome = true := by
    rintro _ he
    rwa [List.mem_singleton.1 he]
  exact of_writeCells one hstorage hblocks hmissed

theorem putAccount (h : address ∈ snapshot.accounts) (s : StateDB) (state : AccountState) :
    Undoable snapshot s (s.putAccount address state) := by
  have account : (restored snapshot (.account address)).isSome = true :=
    isSome_map.trans (mem_iff_isSome_getElem?.1 h)
  let written : StateDB :=
    { s with storage := s.storage.write .accounts address.asBytes (serialize state) }
  have first : Undoable snapshot s written := of_write account rfl rfl rfl
  refine first.trans ?_
  by_cases hchanged : (hasSelfStake state != s.stakers.contains address) = true
  · have index : (restored snapshot .stakers).isSome = true := rfl
    exact of_write index (if_pos hchanged) rfl rfl
  · exact of_storage (if_neg hchanged) rfl rfl

theorem putOwnershipWith {record : OwnershipRecord} {prevTotal newTotal : Amount}
    (hrecord : (record.assetId, record.owner) ∈ snapshot.ownership)
    (hcount : record.assetId ∈ snapshot.assetHolderCount) (s : StateDB) :
    Undoable snapshot s (s.putOwnershipWith record prevTotal newTotal) := by
  have recorded : (restored snapshot (.ownership record.assetId record.owner)).isSome = true :=
    isSome_map.trans (mem_iff_isSome_getElem?.1 hrecord)
  have counted : (restored snapshot (.holders record.assetId)).isSome = true :=
    isSome_map.trans (mem_iff_isSome_getElem?.1 hcount)
  let written : StateDB :=
    { s with
      storage := s.storage.write .ownership (ownershipKey record.assetId record.owner)
        (serialize record) }
  have first : Undoable snapshot s written := of_write recorded rfl rfl rfl
  refine first.trans ?_
  by_cases hchanged : ((!prevTotal.isZero) != !newTotal.isZero) = true
  · exact of_write counted (if_pos hchanged) rfl rfl
  · exact of_storage (if_neg hchanged) rfl rfl

theorem deleteContractStorage (h : (address, key) ∈ snapshot.contractStorage) (s : StateDB) :
    Undoable snapshot s (s.deleteContractStorage address key) where
  cells c := by
    by_cases hc : c = .contractStorage address key
    · subst hc
      exact .inl (mem_iff_isSome_getElem?.1 h)
    · exact .inr (read_remove_cell hc)
  notes _ _ := read_remove_of_ne _ (.inl (by decide))
  isSome := isSome_map
  blockCommitments := rfl
  missedSlots := rfl

end Undoable

namespace Mutation

variable [Crypto]

/-- A mutation that writes to the store only where a rollback to a snapshot writes. -/
def UndoneBy (snapshot : StateSnapshot) : Mutation → Prop
  | putAccount address _ => address ∈ snapshot.accounts
  | putAsset assetId _ => assetId ∈ snapshot.assets
  | putOwnership record =>
    (record.assetId, record.owner) ∈ snapshot.ownership ∧ record.assetId ∈ snapshot.assetHolderCount
  | putAssetProposal proposal => proposal.id ∈ snapshot.assetProposals
  | putOracle feedId _ => feedId ∈ snapshot.oracles
  | storeCode code => blake3Hash code ∈ snapshot.contractCode
  | putContractStorage address key _ => (address, key) ∈ snapshot.contractStorage
  | deleteContractStorage address key => (address, key) ∈ snapshot.contractStorage
  | putPoolRaw poolId _ => poolId ∈ snapshot.pools
  | putMiningStateRaw poolId _ => poolId ∈ snapshot.miningStates
  | putGovernanceProposal id _ => id ∈ snapshot.governanceProposals
  | writeNote _ _ => False
  | clearNote _ => False
  | addUnbondingEntry _ _ => False
  | slashUnbondingEntries _ _ _ => False
  | processUnbonding _ => False
  | recordBlockCommitment _ _ _ _ => False
  | recordMissedSlot _ _ => False
  | takeMissedSlotsForEpoch _ => False
  | restore other => ∀ c, (other.recorded c).isSome = true → (snapshot.recorded c).isSome = true
  | _ => True

variable {snapshot : StateSnapshot} {s t : StateDB}

theorem undoable_of_step {m : Mutation} (hm : m.UndoneBy snapshot) (hrun : Step s m t) :
    Undoable snapshot s t := by
  -- a record that the snapshot has is written back
  have cached {κ ν : Type} [Ord κ] [TransOrd κ] {map : FinMap κ ν} {k : κ} (h : k ∈ map) :
      map[k]?.isSome = true := mem_iff_isSome_getElem?.1 h
  cases m <;> try cases hrun
  case putAccount address state => exact .putAccount hm s state
  case bootstrapStakersFrom => exact .of_write (c := .stakers) rfl rfl rfl rfl
  case putAsset assetId asset =>
    exact .of_write (c := .asset assetId) (isSome_map.trans (cached hm)) rfl rfl rfl
  case editAsset | editAssetProposal | editOracle =>
    split
    · exact .of_storage rfl rfl rfl
    · exact .refl s
  case putOwnership =>
    obtain ⟨_, -, hrest⟩ := bind_eq_some_iff.1 hrun
    obtain ⟨_, -, rfl⟩ := map_eq_some_iff.1 hrest
    exact .putOwnershipWith hm.1 hm.2 s
  case putAssetProposal proposal =>
    exact .of_write (c := .assetProposal proposal.id) (isSome_map.trans (cached hm)) rfl rfl rfl
  case putOracle feedId feed =>
    exact .of_write (c := .oracle feedId) (isSome_map.trans (cached hm)) rfl rfl rfl
  case storeCode code => exact .of_write (c := .code (blake3Hash code)) (cached hm) rfl rfl rfl
  case putContractStorage address key value =>
    exact .of_write (c := .contractStorage address key) (cached hm) rfl rfl rfl
  case deleteContractStorage => exact .deleteContractStorage hm s
  case putPoolRaw poolId data => exact .of_write (c := .pool poolId) (cached hm) rfl rfl rfl
  case putMiningStateRaw poolId data =>
    exact .of_write (c := .mining poolId) (cached hm) rfl rfl rfl
  case putGovernanceProposal id data =>
    exact .of_write (c := .governance id) (cached hm) rfl rfl rfl
  case setTreasuryAddress | setEpochLength | setDexPaused =>
    exact .of_param (by decide +kernel) (by decide +kernel) rfl rfl rfl
  case recordMintMilli => exact .of_write (c := .minted) rfl rfl rfl rfl
  case recordBurnMilli => exact .of_write (c := .burned) rfl rfl rfl rfl
  case markSlashingEvidence => exact .of_write (c := .slashingSeen) rfl rfl rfl rfl
  case setKycApproved => exact .of_write (c := .kycApproved) rfl rfl rfl rfl
  case computeStateRoot => exact .of_storage rfl rfl rfl
  case restore other =>
    refine .of_writeCells (fun e he => ?_) (restoreStorage_eq s.storage other) rfl rfl
    refine isSome_restored_mono hm e.1 ?_
    rw [(mem_restoredCells other e.1 e.2).1 he]
    rfl
  all_goals exact absurd hm id

end Mutation

/-! ## The getters after a rollback -/

/-- A state was rolled back to what another one is: the caches and the observations are its own, the
store has its caches and is otherwise as it was, as far as cells and notes go. -/
structure RolledBack (s r : StateDB) : Prop where
  caches : r.toStateSnapshot = s.toStateSnapshot
  blockCommitments : r.blockCommitments = s.blockCommitments
  missedSlots : r.missedSlots = s.missedSlots
  cells : ∀ c : Cell, r.storage.read c.column c.key =
    (restored s.snapshot c).or (s.storage.read c.column c.key)
  notes : ∀ key, labelOf key ∈ Note.labels →
    r.storage.read .chainMeta key = s.storage.read .chainMeta key
  isSome : s.storage.isSome = true ∧ r.storage.isSome = true

/-- Rolling back after a history that is undone by it. -/
theorem Undoable.rolledBack {s t : StateDB} (h : Undoable s.snapshot s t)
    (hsome : s.storage.isSome = true) :
    RolledBack s (t.restore s.snapshot) := by
  have cells : ∀ e ∈ restoredCells s.snapshot, (restored s.snapshot e.1).isSome = true := by
    intro e he
    rw [(mem_restoredCells s.snapshot e.1 e.2).1 he]
    rfl
  have restored : Undoable s.snapshot t (t.restore s.snapshot) :=
    .of_writeCells cells (restoreStorage_eq t.storage s.snapshot) rfl rfl
  have whole := h.trans restored
  refine ⟨rfl, whole.blockCommitments, whole.missedSlots, fun c => ?_, whole.notes, hsome,
    whole.isSome.trans hsome⟩
  have read : (t.restore s.snapshot).storage.read c.column c.key =
      (StateDB.restored s.snapshot c).or (t.storage.read c.column c.key) :=
    read_restoreStorage (h.isSome.trans hsome) s.snapshot c
  rw [read]
  rcases h.cells c with hrestored | hsame
  · obtain ⟨_, hv⟩ := isSome_iff_exists.1 hrestored
    rw [hv]
    rfl
  · rw [hsame]

namespace RolledBack

variable {s r : StateDB} {stored : Option Bytes}

/-- A record that is written back, or was not touched, agrees with the caches. -/
theorem stored_or {α : Type} [Borsh α] {record : Option α} (h : Stored stored record) :
    Stored ((record.map serialize).or stored) record := by
  cases record with
  | none => exact h
  | some r => exact .serialize r

theorem raw_or {record : Option Bytes} (h : stored = record) : record.or stored = record := by
  rw [h, Option.or_self]

variable (h : RolledBack s r)

include h

/-- Where the snapshot has nothing, the store is as it was. -/
theorem read_of_none {c : Cell} (hc : restored s.snapshot c = none) :
    r.storage.read c.column c.key = s.storage.read c.column c.key := by
  rw [h.cells, hc, none_or]

/-- A check that falls through to the store. -/
theorem contains_eq {κ ν : Type} [Ord κ] [TransOrd κ] (c : Cell) {m m' : FinMap κ ν} {k : κ}
    (hm : m' = m) (hc : m[k]? = none → restored s.snapshot c = none) :
    (m'.contains k || (r.storage.read c.column c.key).isSome) =
      (m.contains k || (s.storage.read c.column c.key).isSome) := by
  subst hm
  cases hcached : m'[k]? with
  | some =>
    have hmem : m'.contains k = true := by
      rw [← ExtTreeMap.isSome_getElem?_eq_contains, hcached]
      rfl
    rw [hmem, Bool.true_or, Bool.true_or]
  | none => rw [h.read_of_none (hc hcached)]

theorem getParamRaw_eq (key : String) : r.getParamRaw key = s.getParamRaw key :=
  h.notes _ (labelOf_key (.param key))

theorem getParamNat_eq (key : String) (width : Nat) :
    r.getParamNat key width = s.getParamNat key width := by
  rw [getParamNat, h.getParamRaw_eq, getParamNat]

theorem iterRegisteredChains_eq : r.iterRegisteredChains = s.iterRegisteredChains := by
  obtain ⟨store, hs⟩ := isSome_iff_exists.1 h.isSome.1
  obtain ⟨store', hr⟩ := isSome_iff_exists.1 h.isSome.2
  have scan : store'.prefixScan .chainMeta (ascii "chain:registered:") =
      store.prefixScan .chainMeta (ascii "chain:registered:") := by
    refine Store.prefixScan_congr fun key hkey => ?_
    have note : labelOf key ∈ labels := by
      obtain ⟨_, rfl⟩ := List.isPrefixOf_iff_prefix.1 hkey
      rw [labelOf_append (by decide +kernel)]
      decide +kernel
    have same := h.notes key note
    rwa [hs, hr] at same
  simp only [iterRegisteredChains, hs, hr, elim_some, scan]

/-- All getters answer as before. -/
theorem view_eq : r.view = s.view := by
  have cached {α : Type} (f : StateSnapshot → α) : f r.toStateSnapshot = f s.toStateSnapshot :=
    congrArg f h.caches
  have caches : r.caches = s.caches := cached fun c => { c with dirtyPools := [] }
  have accounts : r.accounts = s.accounts := cached (·.accounts)
  have assets : r.assets = s.assets := cached (·.assets)
  have contractCode : r.contractCode = s.contractCode := cached (·.contractCode)
  have contractStorage : r.contractStorage = s.contractStorage := cached (·.contractStorage)
  have pools : r.pools = s.pools := cached (·.pools)
  have governanceProposals : r.governanceProposals = s.governanceProposals :=
    cached (·.governanceProposals)
  have getAccount : r.getAccount = s.getAccount := by
    funext a
    unfold getAccount
    rw [accounts]
    cases hcached : s.accounts[a]? with
    | some => rfl
    | none =>
      exact congrArg (fun stored : Option Bytes => (stored.bind tryFromSlice).getD
        AccountState.default) (h.read_of_none (c := .account a) (congrArg (Option.map _) hcached))
  have getAssetOwned : r.getAssetOwned = s.getAssetOwned := by
    funext assetId
    unfold getAssetOwned
    rw [assets]
    cases hcached : s.assets[assetId]? with
    | some => rfl
    | none =>
      exact congrArg (fun stored : Option Bytes => stored.bind tryFromSlice)
        (h.read_of_none (c := .asset assetId) (congrArg (Option.map _) hcached))
  have getCodeOwned : r.getCodeOwned = s.getCodeOwned := by
    funext hash
    unfold getCodeOwned
    rw [contractCode]
    cases hcached : s.contractCode[hash]? with
    | some => rfl
    | none => exact h.read_of_none (c := .code hash) hcached
  have getContractStorage : r.getContractStorage = s.getContractStorage := by
    funext address key
    unfold getContractStorage
    rw [contractStorage]
    cases hcached : s.contractStorage[(address, key)]? with
    | some => rfl
    | none => exact h.read_of_none (c := .contractStorage address key) hcached
  have getPoolRawOwned : r.getPoolRawOwned = s.getPoolRawOwned := by
    funext poolId
    unfold getPoolRawOwned
    rw [pools]
    cases hcached : s.pools[poolId]? with
    | some => rfl
    | none => exact h.read_of_none (c := .pool poolId) hcached
  have getGovernanceProposalOwned :
      r.getGovernanceProposalOwned = s.getGovernanceProposalOwned := by
    funext proposalId
    unfold getGovernanceProposalOwned
    rw [governanceProposals]
    cases hcached : s.governanceProposals[proposalId]? with
    | some => rfl
    | none => exact h.read_of_none (c := .governance proposalId) hcached
  have accountExists : r.accountExists = s.accountExists := funext fun a =>
    h.contains_eq (.account a) accounts (congrArg (Option.map _))
  have hasPool : r.hasPool = s.hasPool := funext fun poolId => h.contains_eq (.pool poolId) pools id
  have hasMiningState : r.hasMiningState = s.hasMiningState := funext fun poolId =>
    h.contains_eq (.mining poolId) (cached (·.miningStates)) id
  -- the rest is read from notes
  have paused := h.notes _ (labelOf_key .bridgePaused)
  have relayer := h.notes _ (labelOf_key .bridgeRelayer)
  have deposits : r.bridgeDepositProcessed = s.bridgeDepositProcessed := by
    funext chain hash
    have mark := h.notes _ (labelOf_key (.bridgeDeposit chain hash))
    have legacy : r.storage.read .chainMeta (legacyBridgeDepositKey hash) =
        s.storage.read .chainMeta (legacyBridgeDepositKey hash) := by
      refine h.notes _ ?_
      rw [legacyBridgeDepositKey, labelOf_append (by decide +kernel)]
      decide +kernel
    simp only [bridgeDepositProcessed]
    rw [legacy]
    exact congrArg (fun stored : Option Bytes => stored.isSome || _) mark
  have chains : r.getRegisteredChain = s.getRegisteredChain := funext fun id =>
    h.notes _ (labelOf_key (.registeredChain id))
  have jurisdictions : r.getAddressJurisdiction = s.getAddressJurisdiction := funext fun a =>
    congrArg (fun stored : Option Bytes => stored.bind fun bs => String.fromUTF8? ⟨bs.toArray⟩)
      (h.notes _ (labelOf_key (.jurisdiction a)))
  have histories : r.slashingHistoryRaw = s.slashingHistoryRaw := funext fun a =>
    congrArg (fun stored : Option Bytes => (stored.bind tryFromSlice).getD [])
      (h.notes _ (labelOf_key (.slashHistory a)))
  have finalized := h.notes _ (labelOf_key .finalizedBlock)
  simp only [Note.key] at paused relayer finalized
  simp only [view, caches, getAccount, accountExists, getAssetOwned, getCodeOwned,
    getContractStorage, getPoolRawOwned, hasPool, hasMiningState, getGovernanceProposalOwned,
    isBridgePaused, bridgeRelayer, paused, relayer, deposits, chains,
    h.iterRegisteredChains_eq, getMinGasPriceOverride, getBaseTransferCostOverride,
    getCostPerByteOverride, getSlashDoubleSignBpsOverride,
    getSlashDowntimeBpsOverride, getDowntimeThresholdPctOverride,
    getUnbondingPeriodSecsOverride, getMaxHoldersPerAsset, h.getParamNat_eq,
    getJurisdictionWhitelist, getJurisdictionBlacklist, h.getParamRaw_eq,
    jurisdictions, histories, finalizedBlock, finalized]

/-! ## A restart after a rollback -/

theorem eq_with : r = { r with
    toStateSnapshot := s.toStateSnapshot, blockCommitments := s.blockCommitments,
      missedSlots := s.missedSlots } := by
  rw [← h.caches, ← h.blockCommitments, ← h.missedSlots]

theorem agrees_iff {c : Cell} : c.Agrees r stored ↔ c.Agrees s stored := by
  rw [h.eq_with]
  cases c with
  | _ => exact Iff.rfl

theorem compact (hs : Compact s) : Compact r := by
  rw [h.eq_with]
  exact ⟨hs.account, hs.asset, hs.ownership, hs.oracle, hs.assetProposal, hs.stakers,
    hs.slashingSeen, hs.unbonding, hs.kycApproved, hs.blockCommitments, hs.missedSlots⟩

/-- The store of a state that was in step is in step again. -/
theorem synced (hs : Synced s) : Synced r := by
  refine ⟨fun c => ?_, ?_⟩
  · rw [h.agrees_iff, h.cells]
    have before := hs.agrees c
    cases c with
    | account => exact fun hmem => stored_or (before hmem)
    | asset | ownership | oracle | assetProposal => exact stored_or before
    | code | contractStorage | pool | mining | governance => exact raw_or before
    | holders id =>
      change (((s.assetHolderCount[id]?).map fun n => leBytes 4 n.toNat).or _).bind decodeCount =
        s.assetHolderCount[id]?
      cases hcount : s.assetHolderCount[id]? with
      | none => exact Eq.trans before hcount
      | some n => exact decodeCount_leBytes n
    | stakers | slashingSeen | kycApproved => exact fun hfits => decodeSet_serialize _ hfits
    | minted | burned => exact decodeCounter_leBytes _
    | _ => exact before
  · have counted := hs.counted
    have ownership : r.ownership = s.ownership := congrArg (·.ownership) h.caches
    have counts : r.assetHolderCount = s.assetHolderCount := congrArg (·.assetHolderCount) h.caches
    rwa [ownership, counts]

end RolledBack

namespace Mutation

variable [Crypto] {s t : StateDB} {ms : List Mutation}

theorem undoable_of_run {snapshot : StateSnapshot}
    (hrun : Run (Within (fun _ m => m.UndoneBy snapshot) Step) s ms t) :
    Undoable snapshot s t := by
  induction hrun with
  | nil => exact .refl s
  | snoc _ hlast ih => exact ih.trans (undoable_of_step hlast.1 hlast.2)

/-- A rollback after a history that it undoes gives back every answer. If the state could be
restarted when the snapshot was taken, a restart on the store gives back these answers as well. -/
theorem rollback_complete (hsome : s.storage.isSome = true)
    (hrun : Run (Within (fun _ m => m.UndoneBy s.snapshot) Step) s ms t) :
    ((t.restore s.snapshot).view = s.view ∧
      (t.restore s.snapshot).blockCommitments = s.blockCommitments ∧
      (t.restore s.snapshot).missedSlots = s.missedSlots) ∧
    ∀ {s₀ : StateDB} {ms₀ : List Mutation}, Opened (hasStake · = true) StateDB.DefaultParams s₀ →
      Run (Within (Durable (hasStake · = true)) Step) s₀ ms₀ s → Compact s →
      ∃ store re, (t.restore s.snapshot).storage = some store ∧ withStorage store = some re ∧
        Restarted s re := by
  have rolled := (undoable_of_run hrun).rolledBack hsome
  refine ⟨⟨rolled.view_eq, rolled.blockCommitments, rolled.missedSlots⟩,
    fun hs₀ hrun₀ hcompact => ?_⟩
  obtain ⟨synced, indexed⟩ := synced_of_run hs₀ (hrun₀.mono fun _ _ _ h => ⟨h.1.1, h.2⟩)
  have before : s.DefaultParams := defaultParams_of_run hs₀ hrun₀
  have params : (t.restore s.snapshot).DefaultParams := before
  obtain ⟨store, re, hstorage, hre, restarted⟩ :=
    exists_restarted (rolled.synced synced) indexed params (rolled.compact hcompact)
  refine ⟨store, re, hstorage, hre, ?_, restarted.stakes, ?_, ?_, ?_⟩
  · rw [restarted.view, rolled.view_eq]
    rfl
  · exact restarted.blockCommitments.trans rolled.blockCommitments
  · exact restarted.missedSlots.trans rolled.missedSlots
  · rw [← rolled.view_eq]
    exact restarted.accounts

end Mutation

namespace Demo

open Mutation

/-- An account that the snapshot has is rolled back in the store as well. -/
theorem staker_rolled_back : ∃ s ms t, s = attached.putAccount ⟨7⟩ staker ∧
      Run (Within (fun _ m => m.UndoneBy s.snapshot) Step) s ms t ∧ t.getAccount ⟨7⟩ = holder ∧
      (t.restore s.snapshot).view = s.view ∧
      ∃ store re, (t.restore s.snapshot).storage = some store ∧ withStorage store = some re ∧
        Restarted s re := by
  have opened : Opened (hasStake · = true) StateDB.DefaultParams attached :=
    opened_attached ⟨rfl, rfl, rfl⟩
  have staked : hasSelfStake staker = true := by decide +kernel
  have before : Run (Within (Durable (hasStake · = true)) Step) attached
      ([] ++ [.putAccount ⟨7⟩ staker]) (attached.putAccount ⟨7⟩ staker) :=
    .snoc .nil ⟨⟨fun _ => staked, trivial⟩, rfl⟩
  have cached : (⟨7⟩ : Address) ∈ (attached.putAccount ⟨7⟩ staker).snapshot.accounts :=
    ExtTreeMap.mem_insert_self
  have hrun : Run (Within (fun _ m => m.UndoneBy (attached.putAccount ⟨7⟩ staker).snapshot) Step)
      (attached.putAccount ⟨7⟩ staker) ([] ++ [.putAccount ⟨7⟩ holder])
      ((attached.putAccount ⟨7⟩ staker).putAccount ⟨7⟩ holder) := .snoc .nil ⟨cached, rfl⟩
  obtain ⟨⟨hview, -, -⟩, hrestart⟩ := rollback_complete (by decide +kernel) hrun
  exact ⟨_, _, _, rfl, hrun, getAccount_putAccount_self .., hview,
    hrestart opened before compact_staker⟩

/-- A new account is still in the store after a rollback. -/
theorem holder_survives_rollback :
    ∃ s ms t, Opened (hasStake · = true) StateDB.DefaultParams s ∧ Run Step s ms t ∧
      s.getAccount ⟨7⟩ = .default ∧ (t.restore s.snapshot).getAccount ⟨7⟩ = holder ∧
      (t.restore s.snapshot).view ≠ s.view := by
  have hrun : Run Step attached ([] ++ [.putAccount ⟨7⟩ holder]) (attached.putAccount ⟨7⟩ holder) :=
    .snoc .nil rfl
  have before : attached.getAccount ⟨7⟩ = .default := by decide +kernel
  have after : ((attached.putAccount ⟨7⟩ holder).restore attached.snapshot).getAccount ⟨7⟩ =
      holder := by
    decide +kernel
  refine ⟨attached, _, _, opened_attached ⟨rfl, rfl, rfl⟩, hrun, before, after, fun heq => ?_⟩
  have same := congrArg (fun v : StateView => v.getAccount ⟨7⟩) heq
  exact absurd (after.symm.trans (same.trans before)) (by decide)

end Demo

end Vtt
