import Vtt.Lib.Confined
import Vtt.State.Root

/-!
# What execution leaves alone

The chain keeps its observations of blocks and missed slots, and its blocks, receipts and indices,
beside the state of the world. The methods that execution uses leave all of it alone, and the supply
counters as well. This is said with relations between states: two states that a `Frame` relates stay
`Linked` under every method below and answer every getter below alike.
-/

namespace Vtt

open Lib List

/-- The columns of the store for the blocks of the chain and what is known of them. -/
def Column.ofChain : Column → Bool
  | .blockHeaders | .blockBodies | .transactions | .receipts | .chainIndex => true
  | _ => false

/-- The store keys of the chain's blocks and observations. -/
def observationKey (column : Column) (key : Bytes) : Bool :=
  column.ofChain || column == .chainMeta &&
    (key == ascii "block:commitments" || key == ascii "missed:slots")

/-- A key behind a label is not one of an observation, unless the label starts one. -/
theorem observationKey_append {label : Bytes} (key : Bytes)
      (h : (label.isPrefixOf (ascii "block:commitments") ||
      label.isPrefixOf (ascii "missed:slots")) = false) :
    observationKey .chainMeta (label ++ key) = false := by
  rw [Bool.or_eq_false_iff] at h
  have ne_of_label : ∀ k, label.isPrefixOf k = false → (label ++ key == k) = false := by
    intro _ hk
    rw [beq_eq_false_iff_ne]
    rintro rfl
    rw [List.isPrefixOf_iff_prefix.2 (prefix_append label key)] at hk
    cases hk
  simp [observationKey, Column.ofChain, ne_of_label _ h.1, ne_of_label _ h.2]

theorem observationKey_jurisdictionKey (address : Address) :
    observationKey .chainMeta (StateDB.jurisdictionKey address) = false :=
  observationKey_append _ (by decide)

theorem ne_of_observationKey {column : Column} {key : Bytes}
    (h : observationKey column key = false) :
    (column ≠ .chainMeta ∨ key ≠ ascii "block:commitments") ∧
      (column ≠ .chainMeta ∨ key ≠ ascii "missed:slots") := by
  simp only [observationKey, Bool.and_eq_false_iff, Bool.or_eq_false_iff, beq_eq_false_iff_ne] at h
  exact ⟨h.2.imp id And.left, h.2.imp id And.right⟩

namespace StateDB

variable {column : Column}

/-- The observations are written under their own keys only. -/
theorem read_recordBlockCommitment (db : StateDB) (validator : Address) (epoch : UInt64)
    (slot : UInt32) (hash : H256) {key : Bytes} (h : observationKey column key = false) :
    (db.recordBlockCommitment validator epoch slot hash).2.storage.read column key =
      db.storage.read column key := by
  simp only [recordBlockCommitment, storeBlockCommitments]
  split
  · exact Storage.read_write_of_ne _ _ (ne_of_observationKey h).1
  · rfl

@[inherit_doc read_recordBlockCommitment]
theorem read_recordMissedSlot (db : StateDB) (epoch : UInt64) (validator : Address) {key : Bytes}
    (h : observationKey column key = false) :
    (db.recordMissedSlot epoch validator).storage.read column key = db.storage.read column key :=
  Storage.read_write_of_ne _ _ (ne_of_observationKey h).2

end StateDB

/-- How the stores of two states, their observations and their supply counters may be related. -/
structure Frame where
  storage : Storage → Storage → Prop
  observed : FinMap SlotKey H256 → FinMap (UInt64 × Address) UInt32 →
    FinMap SlotKey H256 → FinMap (UInt64 × Address) UInt32 → Prop
  supply : UInt64 → UInt64 → Prop
  read : ∀ {a b} column key, storage a b → observationKey column key = false →
    a.read column key = b.read column key
  write : ∀ {a b} column key value, storage a b → observationKey column key = false →
    storage (a.write column key value) (b.write column key value)
  remove : ∀ {a b} address, storage a b →
      storage (a.remove .chainMeta (StateDB.jurisdictionKey address))
      (b.remove .chainMeta (StateDB.jurisdictionKey address))

namespace StateDB

/-- The state with another store and other observations. -/
def withObserved (db : StateDB) (storage : Storage) (blockCommitments : FinMap SlotKey H256)
    (missedSlots : FinMap (UInt64 × Address) UInt32) : StateDB :=
  { db with storage, blockCommitments, missedSlots }

end StateDB

namespace Frame

variable {F : Frame}

variable {a b : Storage}

theorem writeAll {column : Column} (entries : List (Bytes × Bytes)) (h : F.storage a b)
    (hk : ∀ e ∈ entries, observationKey column e.1 = false) :
    F.storage (a.writeAll column entries) (b.writeAll column entries) := by
  induction entries generalizing a b with
  | nil => exact h
  | cons e _ ih =>
    exact ih (F.write column e.1 e.2 h (hk e (mem_cons_self ..))) fun e' he' =>
      hk e' (mem_cons_of_mem _ he')

theorem ite {c d : Storage} (p : Prop) [Decidable p] (h : F.storage a b) (h' : F.storage c d) :
    F.storage (if p then a else c) (if p then b else d) := by
  split
  · exact h
  · exact h'

/-- Writing a snapshot back. -/
theorem restoreStorage (h : F.storage a b) (s : StateSnapshot) :
    F.storage (StateDB.restoreStorage a s) (StateDB.restoreStorage b s) := by
  have labelled : ∀ e ∈ s.governanceEntries, observationKey .chainMeta e.1 = false := by
    intro e he
    obtain ⟨p, -, rfl⟩ := mem_map.1 he
    exact observationKey_append _ (by decide)
  have counted : ∀ e ∈ s.holderEntries, observationKey .chainMeta e.1 = false := by
    intro _ he
    obtain ⟨_, -, rfl⟩ := mem_map.1 he
    exact observationKey_append _ (by decide)
  refine F.write _ _ _ (F.write _ _ _ (F.write _ _ _ ?_ (by decide)) (by decide)) (by decide)
  refine writeAll _ (writeAll _ ?_ labelled) counted
  repeat refine writeAll _ ?_ fun _ _ => rfl
  exact F.write _ _ _ (F.write _ _ _ h (by decide)) (by decide)

/-- States that are equal up to the store and the observations, which the frame relates. -/
inductive Linked (F : Frame) (s : StateDB) : StateDB → Prop where
  | mk {storage : Storage} {commitments : FinMap SlotKey H256}
      {missed : FinMap (UInt64 × Address) UInt32} : F.storage s.storage storage →
      F.observed s.blockCommitments s.missedSlots commitments missed →
      F.supply s.totalMintedMilli s.totalBurnedMilli →
      F.Linked s (s.withObserved storage commitments missed)

namespace Linked

variable {s t : StateDB} (h : F.Linked s t)
variable {address owner validator offender : Address}
  {assetId id poolId feedId codeHash sourceTxHash : H256} {epoch fallbackSecs : UInt64}
  {slot sourceChain : UInt32} {asset : AssetRecord} {proposal : AssetProposal}
  {amount : Amount} {data : Bytes} {state : AccountState}
include h

/-! ## Getters -/

/-- Linked states have the same caches. -/
theorem snapshot : s.snapshot = t.snapshot := by
  cases h
  rfl

/-- What is read off the caches only. -/
theorem cached {α : Type} (g : StateSnapshot → α) : g s.toStateSnapshot = g t.toStateSnapshot :=
  congrArg g h.snapshot

/-- Linked states read the same from the store, outside the observations. -/
theorem read (column : Column) (key : Bytes) (hk : observationKey column key = false) :
    s.storage.read column key = t.storage.read column key := by
  cases h with
  | mk hs => exact F.read column key hs hk

theorem getAccount : s.getAccount address = t.getAccount address := by
  simp only [StateDB.getAccount, h.cached (·.accounts), h.read .accounts _ rfl]

theorem getAsset : s.getAsset assetId = t.getAsset assetId := h.cached (·.assets[assetId]?)

theorem getOwnership : s.getOwnership assetId owner = t.getOwnership assetId owner := by
  simp only [StateDB.getOwnership, h.cached (·.ownership)]

theorem holderCount : s.holderCount assetId = t.holderCount assetId := by
  simp only [StateDB.holderCount, h.cached (·.assetHolderCount)]

theorem ownershipForAsset : s.ownershipForAsset assetId = t.ownershipForAsset assetId := by
  simp only [StateDB.ownershipForAsset, h.cached (·.ownership)]

theorem getAssetProposal : s.getAssetProposal id = t.getAssetProposal id :=
  h.cached (·.assetProposals[id]?)

theorem getOracle : s.getOracle feedId = t.getOracle feedId := h.cached (·.oracles[feedId]?)

theorem getCode : s.getCode codeHash = t.getCode codeHash := h.cached (·.contractCode[codeHash]?)

theorem loadContractStorage : s.loadContractStorage address = t.loadContractStorage address := by
  simp only [StateDB.loadContractStorage, h.cached (·.contractStorage)]

theorem getPoolRaw : s.getPoolRaw poolId = t.getPoolRaw poolId := h.cached (·.pools[poolId]?)

theorem getMiningStateRaw : s.getMiningStateRaw poolId = t.getMiningStateRaw poolId :=
  h.cached (·.miningStates[poolId]?)

theorem isKycApproved : s.isKycApproved address = t.isKycApproved address :=
  h.cached (·.kycApproved.contains address)

theorem slashingEvidenceSeen :
    s.slashingEvidenceSeen offender epoch slot = t.slashingEvidenceSeen offender epoch slot :=
  h.cached (·.slashingSeen.contains (offender, epoch, slot))

theorem hasAsset : s.hasAsset assetId = t.hasAsset assetId := by
  simp only [StateDB.hasAsset, h.cached (·.assets), h.read .assets _ rfl]

theorem getAssetOwned : s.getAssetOwned assetId = t.getAssetOwned assetId := by
  simp only [StateDB.getAssetOwned, h.cached (·.assets), h.read .assets _ rfl]

theorem hasPool : s.hasPool poolId = t.hasPool poolId := by
  simp only [StateDB.hasPool, h.cached (·.pools), h.read .pools _ rfl]

theorem getGovernanceProposalOwned : s.getGovernanceProposalOwned id =
    t.getGovernanceProposalOwned id := by
  have hk : observationKey .chainMeta (StateDB.governanceKey id) = false :=
    observationKey_append _ (by decide)
  simp only [StateDB.getGovernanceProposalOwned, h.cached (·.governanceProposals), h.read _ _ hk]

theorem getParamRaw (key : String) : s.getParamRaw key = t.getParamRaw key :=
  h.read _ _ (observationKey_append _ (by decide))

theorem getParamNat (key : String) (width : Nat) :
    s.getParamNat key width = t.getParamNat key width := by
  simp only [StateDB.getParamNat, h.getParamRaw]

theorem getMinGasPriceOverride : s.getMinGasPriceOverride = t.getMinGasPriceOverride := by
  simp only [StateDB.getMinGasPriceOverride, h.getParamNat]

theorem effectiveUnbondingPeriodMs :
    s.effectiveUnbondingPeriodMs fallbackSecs = t.effectiveUnbondingPeriodMs fallbackSecs := by
  simp only [StateDB.effectiveUnbondingPeriodMs, StateDB.getUnbondingPeriodSecsOverride,
    h.getParamNat]

theorem getMaxHoldersPerAsset : s.getMaxHoldersPerAsset = t.getMaxHoldersPerAsset := by
  simp only [StateDB.getMaxHoldersPerAsset, h.getParamNat]

theorem getJurisdictionWhitelist : s.getJurisdictionWhitelist = t.getJurisdictionWhitelist := by
  simp only [StateDB.getJurisdictionWhitelist, h.getParamRaw]

theorem getJurisdictionBlacklist : s.getJurisdictionBlacklist = t.getJurisdictionBlacklist := by
  simp only [StateDB.getJurisdictionBlacklist, h.getParamRaw]

theorem getAddressJurisdiction : s.getAddressJurisdiction address =
    t.getAddressJurisdiction address := by
  have hk : observationKey .chainMeta (StateDB.jurisdictionKey address) = false :=
    observationKey_append _ (by decide)
  simp only [StateDB.getAddressJurisdiction, h.read _ _ hk]

theorem bridgeDepositProcessed :
    s.bridgeDepositProcessed sourceChain sourceTxHash =
      t.bridgeDepositProcessed sourceChain sourceTxHash := by
  have hk : observationKey .chainMeta (StateDB.bridgeDepositKey sourceChain sourceTxHash) =
      false := by
    rw [StateDB.bridgeDepositKey, append_assoc]
    exact observationKey_append _ (by decide)
  have hk' : observationKey .chainMeta (StateDB.legacyBridgeDepositKey sourceTxHash) = false :=
    observationKey_append _ (by decide)
  simp only [StateDB.bridgeDepositProcessed, h.read _ _ hk, h.read _ _ hk']

theorem isBridgePaused : s.isBridgePaused = t.isBridgePaused := by
  simp only [StateDB.isBridgePaused, h.read .chainMeta (ascii "bridge:paused") (by decide)]

theorem bridgeRelayer : s.bridgeRelayer = t.bridgeRelayer := by
  simp only [StateDB.bridgeRelayer, h.read .chainMeta (ascii "bridge:relayer") (by decide)]

/-! ## Methods -/

theorem putAccount : F.Linked (s.putAccount address state) (t.putAccount address state) := by
  cases h with
  | mk hs ho hp =>
    have written := F.write .accounts address.asBytes (Borsh.serialize state) hs rfl
    exact .mk (F.ite _ (F.write _ _ _ written (by decide)) written) ho hp

theorem incrementNonce : F.Linked (s.incrementNonce address) (t.incrementNonce address) := by
  rw [StateDB.incrementNonce, StateDB.incrementNonce, h.getAccount]
  exact h.putAccount ..

theorem touchAsset : F.Linked (s.touchAsset assetId) (t.touchAsset assetId) := by
  cases h with
  | mk hs ho hp => exact .mk hs ho hp

theorem setCachedAsset : F.Linked (s.setCachedAsset assetId asset)
    (t.setCachedAsset assetId asset) := by
  cases h with
  | mk hs ho hp => exact .mk hs ho hp

theorem putAsset : F.Linked (s.putAsset assetId asset) (t.putAsset assetId asset) := by
  cases h with
  | mk hs ho hp => exact .mk (F.write _ _ _ hs rfl) ho hp

theorem putOwnershipWith {record : OwnershipRecord} {prevTotal newTotal : Amount} :
    F.Linked (s.putOwnershipWith record prevTotal newTotal)
      (t.putOwnershipWith record prevTotal newTotal) := by
  cases h with
  | mk hs ho hp =>
    have written := F.write .ownership (StateDB.ownershipKey record.assetId record.owner)
      (Borsh.serialize record) hs rfl
    exact .mk (F.ite _ (F.write _ _ _ written (observationKey_append _ (by decide))) written) ho hp

theorem setCachedAssetProposal :
    F.Linked (s.setCachedAssetProposal id proposal) (t.setCachedAssetProposal id proposal) := by
  cases h with
  | mk hs ho hp => exact .mk hs ho hp

theorem putAssetProposal : F.Linked (s.putAssetProposal proposal)
    (t.putAssetProposal proposal) := by
  cases h with
  | mk hs ho hp => exact .mk (F.write _ _ _ hs rfl) ho hp

theorem putOracle {feed : OracleFeed} : F.Linked (s.putOracle feedId feed)
    (t.putOracle feedId feed) := by
  cases h with
  | mk hs ho hp => exact .mk (F.write _ _ _ hs rfl) ho hp

theorem storeCode [Crypto] {code : Bytes} : F.Linked (s.storeCode code).2 (t.storeCode code).2 := by
  cases h with
  | mk hs ho hp => exact .mk (F.write _ _ _ hs rfl) ho hp

theorem putContractStorage {key value : Bytes} :
    F.Linked (s.putContractStorage address key value) (t.putContractStorage address key value) := by
  cases h with
  | mk hs ho hp => exact .mk (F.write _ _ _ hs rfl) ho hp

theorem putPoolRaw : F.Linked (s.putPoolRaw poolId data) (t.putPoolRaw poolId data) := by
  cases h with
  | mk hs ho hp => exact .mk (F.write _ _ _ hs rfl) ho hp

theorem putMiningStateRaw : F.Linked (s.putMiningStateRaw poolId data)
    (t.putMiningStateRaw poolId data) := by
  cases h with
  | mk hs ho hp => exact .mk (F.write _ _ _ hs rfl) ho hp

theorem putGovernanceProposal : F.Linked (s.putGovernanceProposal id data)
    (t.putGovernanceProposal id data) := by
  cases h with
  | mk hs ho hp => exact .mk (F.write _ _ _ hs (observationKey_append _ (by decide))) ho hp

theorem writeMeta (key value : Bytes) (hk : observationKey .chainMeta key = false) :
    F.Linked (s.writeMeta key value) (t.writeMeta key value) := by
  cases h with
  | mk hs ho hp => exact .mk (F.write _ _ _ hs hk) ho hp

theorem setTreasuryAddress : F.Linked (s.setTreasuryAddress address)
    (t.setTreasuryAddress address) := by
  cases h with
  | mk hs ho hp => exact .mk (F.write _ _ _ hs (by decide)) ho hp

theorem setEpochLength {length : UInt64} : F.Linked (s.setEpochLength length)
    (t.setEpochLength length) := by
  cases h with
  | mk hs ho hp => exact .mk (F.write _ _ _ hs (by decide)) ho hp

theorem setDexPaused {paused : Bool} : F.Linked (s.setDexPaused paused)
    (t.setDexPaused paused) := by
  cases h with
  | mk hs ho hp => exact .mk (F.write _ _ _ hs (by decide)) ho hp

theorem setAddressJurisdiction {country : String} :
    F.Linked (s.setAddressJurisdiction address country)
      (t.setAddressJurisdiction address country) := by
  have hk := observationKey_jurisdictionKey address
  cases h with
  | mk hs ho hp => exact .mk (F.ite _ (F.remove _ hs) (F.write _ _ _ hs hk)) ho hp

theorem nextRegisteredChainId_fst : s.nextRegisteredChainId.1 = t.nextRegisteredChainId.1 := by
  simp only [StateDB.nextRegisteredChainId,
    h.read .chainMeta (ascii "chain:registered:next_id") (by decide)]

theorem nextRegisteredChainId_snd :
    F.Linked s.nextRegisteredChainId.2 t.nextRegisteredChainId.2 := by
  simp only [StateDB.nextRegisteredChainId,
    h.read .chainMeta (ascii "chain:registered:next_id") (by decide)]
  exact h.writeMeta _ _ (by decide)

/-! ## Slashing and unbonding -/

theorem slashUnbondingEntries {slashUnbonding pending : U128} :
    F.Linked (s.slashUnbondingEntries validator slashUnbonding pending)
      (t.slashUnbondingEntries validator slashUnbonding pending) := by
  cases h with
  | mk hs ho hp => exact .mk (F.ite _ (F.write _ _ _ hs (by decide)) hs) ho hp

theorem pendingUnbonding : s.pendingUnbonding validator = t.pendingUnbonding validator := by
  simp only [StateDB.pendingUnbonding, h.cached (·.unbondingEntries)]

theorem applySlash : (s.applySlash validator amount).1 = (t.applySlash validator amount).1 ∧
      F.Linked (s.applySlash validator amount).2 (t.applySlash validator amount).2 := by
  simp only [StateDB.applySlash, h.getAccount, h.pendingUnbonding]
  split
  · exact ⟨rfl, h⟩
  · split
    · exact ⟨rfl, h⟩
    · refine ⟨rfl, ?_⟩
      split
      · exact (h.putAccount ..).slashUnbondingEntries ..
      · exact h.putAccount ..

theorem recordSlash {reason : String} :
    F.Linked (s.recordSlash validator epoch reason amount)
      (t.recordSlash validator epoch reason amount) := by
  have hk : observationKey .chainMeta (StateDB.slashHistoryKey validator) = false :=
    observationKey_append _ (by decide)
  have recorded := h.writeMeta (ascii "slash:" ++ validator.asBytes ++ beBytes 8 epoch.toNat)
    (ascii (reason ++ ":" ++ toString amount.raw.toNat)) (by
      rw [append_assoc]
      exact observationKey_append _ (by decide))
  simp only [StateDB.recordSlash, StateDB.slashingHistoryRaw, recorded.read _ _ hk]
  exact recorded.writeMeta _ _ hk

theorem markSlashingEvidence :
    F.Linked (s.markSlashingEvidence offender epoch slot)
      (t.markSlashingEvidence offender epoch slot) := by
  cases h with
  | mk hs ho hp => exact .mk (F.write _ _ _ hs (by decide)) ho hp

theorem setKycApproved {approved : Bool} :
    F.Linked (s.setKycApproved address approved) (t.setKycApproved address approved) := by
  cases h with
  | mk hs ho hp => exact .mk (F.write _ _ _ hs (by decide)) ho hp

theorem addUnbondingEntry {entry : UnbondingEntry} :
    F.Linked (s.addUnbondingEntry address entry) (t.addUnbondingEntry address entry) := by
  cases h with
  | mk hs ho hp => exact .mk (F.write _ _ _ hs (by decide)) ho hp

theorem dropMatured {now : Timestamp} : F.Linked (s.dropMatured now) (t.dropMatured now) := by
  cases h with
  | mk hs ho hp => exact .mk hs ho hp

theorem dropReleased {released : Amount} : F.Linked (s.dropReleased released)
    (t.dropReleased released) := by
  cases h with
  | mk hs ho hp => exact .mk (F.ite _ hs (F.write _ _ _ hs (by decide))) ho hp

/-! ## Rollback and supply -/

/-- A rollback to the caches that two linked states had earlier. -/
theorem restore {s' t' : StateDB} (h' : F.Linked s' t') : F.Linked (s'.restore s.snapshot)
    (t'.restore t.snapshot) := by
  cases h with
  | mk _ _ hp =>
    cases h' with
    | mk hs' ho' => exact .mk (restoreStorage hs' _) ho' hp

/-- Where the frame says nothing of the supply, it may be changed. -/
theorem recordMintMilli (hf : ∀ minted burned, F.supply minted burned) (milli : UInt64) :
    F.Linked (s.recordMintMilli milli) (t.recordMintMilli milli) := by
  cases h with
  | mk hs ho => exact .mk (F.write _ _ _ hs (by decide)) ho (hf ..)

theorem recordBurnMilli (hf : ∀ minted burned, F.supply minted burned) (milli : UInt64) :
    F.Linked (s.recordBurnMilli milli) (t.recordBurnMilli milli) := by
  cases h with
  | mk hs ho => exact .mk (F.write _ _ _ hs (by decide)) ho (hf ..)

end Linked

end Frame

end Vtt
