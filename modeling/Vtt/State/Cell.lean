import Vtt.State.Mutation

/-!
# What the store keeps of the caches

The cells of the store that a restart reads the caches from: a key for every record of most
collections and one key each for the small ones. Different cells have different keys, and none of
them is the key of a parameter or of another note, so that a write concerns one cell only.
-/

namespace Vtt

open Lib Std StateDB List Borsh Option Address

variable {db : StateDB}

/-- The kinds of cells. -/
inductive CellKind where
  | account
  | asset
  | ownership
  | oracle
  | code
  | contractStorage
  | pool
  | assetProposal
  | mining
  | governance
  | holders
  | stakers
  | slashingSeen
  | unbonding
  | kycApproved
  | blockCommitments
  | missedSlots
  | supply
  | schema
deriving DecidableEq

namespace CellKind

def column : CellKind → Column
  | account => .accounts
  | asset => .assets
  | ownership => .ownership
  | oracle => .oracles
  | code => .contractCode
  | contractStorage => .contractStorage
  | pool => .pools
  | assetProposal => .assetProposals
  | mining => .miningStates
  | _ => .chainMeta

/-- What the keys of the chain metadata start with. -/
def label : CellKind → Bytes
  | governance => ascii "gov:"
  | holders => ascii "holders:"
  | stakers => ascii "stakers:"
  | slashingSeen => ascii "slashing:"
  | unbonding => ascii "unbonding:"
  | kycApproved => ascii "kyc:"
  | blockCommitments => ascii "block:"
  | missedSlots => ascii "missed:"
  | supply => ascii "supply:"
  | schema => ascii "schema:"
  | _ => []

/-- All kinds, to compare their labels. -/
def all : List CellKind :=
  [account, asset, ownership, oracle, code, contractStorage, pool, assetProposal,
    mining, governance, holders, stakers, slashingSeen, unbonding, kycApproved, blockCommitments,
    missedSlots, supply, schema]

theorem mem_all (k : CellKind) : k ∈ all := by cases k <;> decide

theorem isLabel_label {k : CellKind} (h : k.column = .chainMeta) : isLabel k.label = true :=
  (show ∀ k ∈ all, k.column = .chainMeta → isLabel k.label = true by decide +kernel) k (mem_all k) h

theorem eq_of_column {k k' : CellKind} (h : k.column = k'.column) (hne : k.column ≠ .chainMeta) :
    k = k' :=
  (show ∀ k ∈ all, ∀ k' ∈ all, k.column = k'.column → k.column ≠ .chainMeta →
    k = k' by decide +kernel) k (mem_all k) k' (mem_all k') h hne

theorem eq_of_label {k k' : CellKind} (h : k.column = .chainMeta) (h' : k'.column = .chainMeta)
    (hlabel : k.label = k'.label) : k = k' :=
  (show ∀ k ∈ all, ∀ k' ∈ all, k.column = .chainMeta → k'.column = .chainMeta → k.label = k'.label →
    k = k' by decide +kernel) k (mem_all k) k' (mem_all k') h h' hlabel

end CellKind

/-- The cells of the store. -/
inductive Cell where
  | account (address : Address)
  | asset (id : H256)
  | ownership (id : H256) (owner : Address)
  | oracle (id : H256)
  | code (hash : H256)
  | contractStorage (address : Address) (key : Bytes)
  | pool (id : H256)
  | assetProposal (id : H256)
  | mining (id : H256)
  | governance (id : H256)
  | holders (id : H256)
  | stakers
  | slashingSeen
  | unbonding
  | kycApproved
  | blockCommitments
  | missedSlots
  | minted
  | burned
  | schema
deriving DecidableEq

namespace Cell

def kind : Cell → CellKind
  | account _ => .account
  | asset _ => .asset
  | ownership _ _ => .ownership
  | oracle _ => .oracle
  | code _ => .code
  | contractStorage _ _ => .contractStorage
  | pool _ => .pool
  | assetProposal _ => .assetProposal
  | mining _ => .mining
  | governance _ => .governance
  | holders _ => .holders
  | stakers => .stakers
  | slashingSeen => .slashingSeen
  | unbonding => .unbonding
  | kycApproved => .kycApproved
  | blockCommitments => .blockCommitments
  | missedSlots => .missedSlots
  | minted => .supply
  | burned => .supply
  | schema => .schema

/-- The key behind the label. -/
def body : Cell → Bytes
  | account address => address.asBytes
  | asset id => id.asBytes
  | ownership id owner => ownershipKey id owner
  | oracle id => id.asBytes
  | code hash => hash.asBytes
  | contractStorage address key => address.asBytes ++ key
  | pool id => id.asBytes
  | assetProposal id => id.asBytes
  | mining id => id.asBytes
  | governance id => id.asBytes
  | holders id => id.asBytes
  | stakers => ascii "set"
  | slashingSeen => ascii "seen"
  | unbonding => ascii "all"
  | kycApproved => ascii "approved"
  | blockCommitments => ascii "commitments"
  | missedSlots => ascii "slots"
  | minted => ascii "minted_milli"
  | burned => ascii "burned_milli"
  | schema => ascii "version"

def column (c : Cell) : Column := c.kind.column

def key (c : Cell) : Bytes := c.kind.label ++ c.body

theorem eq_of_kind_body {c c' : Cell} (hkind : c.kind = c'.kind) (hbody : c.body = c'.body) :
    c = c' := by
  cases c <;> cases c' <;> cases hkind
  case account.account.refl => exact congrArg account (asBytes_injective hbody)
  case ownership.ownership.refl id owner id' owner' =>
    obtain ⟨hid, howner⟩ := append_inj hbody (by simp)
    rw [H256.asBytes_injective hid, asBytes_injective howner]
  case contractStorage.contractStorage.refl address key address' key' =>
    obtain ⟨haddress, hkey⟩ := append_inj hbody (by simp)
    rw [asBytes_injective haddress, hkey]
  case minted.burned.refl => exact absurd hbody (by decide +kernel)
  case burned.minted.refl => exact absurd hbody (by decide +kernel)
  all_goals first
    | rfl
    | exact congrArg _ (H256.asBytes_injective hbody)

/-- Different cells are kept under different keys. -/
theorem eq_of_location {c c' : Cell} (hcolumn : c.column = c'.column) (hkey : c.key = c'.key) :
    c = c' := by
  by_cases hmeta : c.column = .chainMeta
  · have hmeta' : c'.kind.column = .chainMeta := hcolumn.symm.trans hmeta
    obtain ⟨hlabel, hbody⟩ :=
      label_append_inj (CellKind.isLabel_label hmeta) (CellKind.isLabel_label hmeta') hkey
    exact eq_of_kind_body (CellKind.eq_of_label hmeta hmeta' hlabel) hbody
  · have hkind := CellKind.eq_of_column hcolumn hmeta
    unfold key at hkey
    rw [hkind] at hkey
    exact eq_of_kind_body hkind (append_cancel_left hkey)

theorem ne_location {c c' : Cell} (h : c ≠ c') : c.column ≠ c'.column ∨ c.key ≠ c'.key := by
  by_contra hsame
  obtain ⟨hcolumn, hkey⟩ := not_or.1 hsame
  exact h (eq_of_location (not_not.1 hcolumn) (not_not.1 hkey))

end Cell

namespace Note

/-- What the keys of notes start with, up to the first colon. -/
def labels : List Bytes :=
  [ascii "bridge", ascii "chain", ascii "param", ascii "jur", ascii "governance", ascii "slash",
    ascii "finalized_block"]

theorem labelOf_key (note : Note) : labelOf note.key ∈ labels := by
  have labelled : ∀ {start : Bytes} (rest : Bytes), start.contains 58 = true →
      labelOf start ∈ labels → labelOf (start ++ rest) ∈ labels := by
    intro _ _ h _
    rwa [labelOf_append h]
  cases note with
  | bridgePaused | bridgeRelayer | nextChainId | governanceCounter | finalizedBlock =>
    decide +kernel
  | param | jurisdiction | slashHistory | registeredChain =>
    exact labelled _ (by decide +kernel) (by decide +kernel)
  | slash validator epoch =>
    rw [show (slash validator epoch).key = ascii "slash:" ++ (validator.asBytes ++ _) from
      append_assoc ..]
    exact labelled _ (by decide +kernel) (by decide +kernel)
  | bridgeDeposit sourceChain sourceTxHash =>
    rw [show (bridgeDeposit sourceChain sourceTxHash).key = ascii "bridge:deposit:v2:" ++
      (_ ++ _) from
      append_assoc ..]
    exact labelled _ (by decide +kernel) (by decide +kernel)

end Note

/-! ## Reading cells -/

/-- The key of a cell starts with another label than the keys outside the cells. -/
theorem Cell.key_ne {c : Cell} {key : Bytes} (hmeta : c.column = .chainMeta)
    (hkey : ∀ k ∈ CellKind.all, k.column = .chainMeta → labelOf k.label ≠ labelOf key) :
    c.key ≠ key := by
  rintro rfl
  have label : labelOf c.key = labelOf c.kind.label :=
    labelOf_append (contains_of_isLabel (CellKind.isLabel_label hmeta)) _
  exact hkey c.kind (CellKind.mem_all _) hmeta label.symm

theorem Note.foreign (note : Note) :
    ∀ k ∈ CellKind.all, k.column = .chainMeta → labelOf k.label ≠ labelOf note.key := by
  intro k hk hmeta heq
  have disjoint : ∀ k ∈ CellKind.all, k.column = .chainMeta → labelOf k.label ∉ labels := by
    decide +kernel
  exact disjoint k hk hmeta (heq ▸ note.labelOf_key)

namespace Storage

variable {storage : Storage} {c c' : Cell} {value : Bytes}

/-- A write to a cell concerns that cell only. -/
theorem read_write_cell (h : storage.isSome = true) :
      (storage.write c.column c.key value).read c'.column c'.key = if c' = c then some value
        else storage.read c'.column c'.key := by
  split
  · subst c'
    exact read_write_self h ..
  · rename_i hne
    exact read_write_of_ne _ _ (Cell.ne_location hne)

theorem read_remove_cell (h : c' ≠ c) :
    (storage.remove c.column c.key).read c'.column c'.key = storage.read c'.column c'.key :=
  read_remove_of_ne _ (Cell.ne_location h)

/-- Write a list of cells in turn. -/
def writeCells (storage : Storage) (entries : List (Cell × Bytes)) : Storage :=
  entries.foldl (fun s e => s.write e.1.column e.1.key e.2) storage

theorem isSome_writeCells (entries : List (Cell × Bytes)) : (storage.writeCells entries).isSome =
    storage.isSome := by
  induction entries generalizing storage with
  | nil => rfl
  | cons _ _ ih => exact ih.trans isSome_map

theorem read_writeCells_of_forall_ne {entries : List (Cell × Bytes)} (h : ∀ e ∈ entries, e.1 ≠ c) :
    (storage.writeCells entries).read c.column c.key = storage.read c.column c.key := by
  induction entries generalizing storage with
  | nil => rfl
  | cons e _ ih =>
    refine (ih fun e' he' => h e' (mem_cons_of_mem _ he')).trans ?_
    exact read_write_of_ne _ _ (Cell.ne_location (h e (mem_cons_self ..)).symm)

theorem read_writeCells_of_mem (hsome : storage.isSome = true) {entries : List (Cell × Bytes)}
    (hmem : (c, value) ∈ entries) (hunique : ∀ v, (c, v) ∈ entries → v = value) :
    (storage.writeCells entries).read c.column c.key = some value := by
  induction entries generalizing storage with
  | nil => cases hmem
  | cons e rest ih =>
    by_cases hrest : ∃ v, (c, v) ∈ rest
    · obtain ⟨v, hv⟩ := hrest
      obtain rfl := hunique v (mem_cons_of_mem _ hv)
      exact ih (isSome_map.trans hsome) hv fun w hw => hunique w (mem_cons_of_mem _ hw)
    · have hhead : e = (c, value) := by
        rcases mem_cons.1 hmem with heq | hmem
        · exact heq.symm
        · exact absurd ⟨value, hmem⟩ hrest
      have unwritten : ∀ e' ∈ rest, e'.1 ≠ c := fun e' he' hc => hrest ⟨e'.2, by rwa [← hc]⟩
      refine (read_writeCells_of_forall_ne unwritten).trans ?_
      · subst e
        exact read_write_self hsome ..

/-- Cells that are written read as they were written, the others as before. -/
theorem read_writeCells (hsome : storage.isSome = true) {entries : List (Cell × Bytes)}
    {written : Cell → Option Bytes} (h : ∀ c v, (c, v) ∈ entries ↔ written c = some v) (c : Cell) :
    (storage.writeCells entries).read c.column c.key =
      (written c).or (storage.read c.column c.key) := by
  cases hvalue : written c with
  | some v =>
    refine read_writeCells_of_mem hsome ((h c v).2 hvalue) fun v' hv' => ?_
    exact some.inj (((h c v').1 hv').symm.trans hvalue)
  | none =>
    refine read_writeCells_of_forall_ne ?_
    rintro ⟨_, v⟩ hmem rfl
    cases hvalue.symm.trans ((h _ v).1 hmem)

variable (hkey : ∀ k ∈ CellKind.all, k.column = .chainMeta → labelOf k.label ≠ labelOf key)

include hkey

theorem foreign_location : c.column ≠ .chainMeta ∨ c.key ≠ key := by
  by_cases hmeta : c.column = .chainMeta
  · exact .inr (Cell.key_ne hmeta hkey)
  · exact .inl hmeta

/-- A write to a foreign key concerns no cell. -/
theorem read_write_foreign : (storage.write .chainMeta key value).read c.column c.key =
    storage.read c.column c.key :=
  read_write_of_ne _ _ (foreign_location hkey)

theorem read_remove_foreign : (storage.remove .chainMeta key).read c.column c.key =
    storage.read c.column c.key :=
  read_remove_of_ne _ (foreign_location hkey)

end Storage

/-! ## The contents of cells -/

namespace StateDB

/-- The set that a cell holds. -/
def decodeSet {α : Type} [Borsh α] [Ord α] (stored : Option Bytes) : FinSet α :=
  ExtTreeSet.ofList ((stored.bind tryFromSlice).getD []) compare

/-- The map that a cell holds. -/
def decodeMap {κ ν : Type} [Borsh κ] [Borsh ν] [Ord κ] (stored : Option Bytes) : FinMap κ ν :=
  ExtTreeMap.ofList ((stored.bind tryFromSlice).getD []) compare

/-- The counter that a cell holds. -/
def decodeCounter (stored : Option Bytes) : UInt64 :=
  match stored with
  | some bytes => if bytes.length = 8 then UInt64.ofNat (leNat bytes) else 0
  | none => 0

/-- The unbonding entries that a cell holds, in the layout of now or before. -/
def decodeUnbonding (stored : Option Bytes) : FinMap Address (List UnbondingEntry) :=
  match stored.bind (tryFromSlice (α := List (Address × List UnbondingEntry))) with
  | some items => ExtTreeMap.ofList items compare
  | none =>
    match stored.bind (tryFromSlice (α := List (Address × List (Amount × UInt64)))) with
    | some legacy =>
      let migrated :=
        legacy.map fun e => (e.1, e.2.map fun u => (⟨u.1, u.2, .zero⟩ : UnbondingEntry))
      ExtTreeMap.ofList migrated compare
    | none => ∅

end StateDB

/-- A cell has a record, provided that the record is short enough to be written at all. -/
def Stored {α : Type} [Borsh α] (stored : Option Bytes) (record : Option α) : Prop :=
  (∀ r, record = some r → Borsh.Fits r) → stored.bind tryFromSlice = record

theorem Stored.serialize {α : Type} [Borsh α] (r : α) : Stored (some (serialize r)) (some r) :=
  fun fits => tryFromSlice_serialize r (fits r rfl)

theorem Stored.map_serialize {α : Type} [Borsh α] (record : Option α) :
    Stored (record.map Borsh.serialize) record := by
  cases record with
  | none => exact fun _ => rfl
  | some r => exact .serialize r

/-- The caches have what a cell holds. Accounts need not be cached, except those of stakers. -/
def Cell.Agrees (db : StateDB) (stored : Option Bytes) : Cell → Prop
  | account address =>
    address ∈ db.accounts ∨ address ∈ db.stakers → Stored stored db.accounts[address]?
  | asset id => Stored stored db.assets[id]?
  | ownership id owner => Stored stored db.ownership[(id, owner)]?
  | oracle id => Stored stored db.oracles[id]?
  | code hash => stored = db.contractCode[hash]?
  | contractStorage address key => stored = db.contractStorage[(address, key)]?
  | pool id => stored = db.pools[id]?
  | assetProposal id => Stored stored db.assetProposals[id]?
  | mining id => stored = db.miningStates[id]?
  | governance id => stored = db.governanceProposals[id]?
  | holders id => stored.bind decodeCount = db.assetHolderCount[id]?
  | stakers => Borsh.Fits db.stakers.toList → decodeSet stored = db.stakers
  | slashingSeen => Borsh.Fits db.slashingSeen.toList → decodeSet stored = db.slashingSeen
  | unbonding =>
    Borsh.Fits db.unbondingEntries.toList → decodeUnbonding stored = db.unbondingEntries
  | kycApproved => Borsh.Fits db.kycApproved.toList → decodeSet stored = db.kycApproved
  | blockCommitments =>
    Borsh.Fits db.blockCommitments.toList → decodeMap stored = db.blockCommitments
  | missedSlots => Borsh.Fits db.missedSlots.toList → decodeMap stored = db.missedSlots
  | minted => decodeCounter stored = db.totalMintedMilli
  | burned => decodeCounter stored = db.totalBurnedMilli
  | schema => stored = some (leBytes 4 1)

/-- All cells have what the caches have. -/
def InStep (db : StateDB) : Prop := ∀ c : Cell, c.Agrees db (db.storage.read c.column c.key)

/-- A state is in step with its store. Holders are counted as soon as somebody holds something. -/
structure Synced (db : StateDB) : Prop where
  agrees : InStep db
  counted : db.assetHolderCount.isEmpty = true →
    ∀ (k : H256 × Address) (record : OwnershipRecord), db.ownership[k]? = some record →
    record.total = some .zero

/-- A stamp is in the store only. -/
theorem Cell.isSome_storage
    (h : Cell.schema.Agrees db (db.storage.read Cell.schema.column Cell.schema.key)) :
    db.storage.isSome = true := by
  have stamped : db.storage.read .chainMeta _ = some (leBytes 4 1) := h
  cases hstorage : db.storage with
  | none =>
    rw [hstorage] at stamped
    cases stamped
  | some => rfl

theorem InStep.isSome_storage (h : InStep db) : db.storage.isSome = true :=
  Cell.isSome_storage (h .schema)

theorem Synced.isSome_storage (h : Synced db) : db.storage.isSome = true := h.agrees.isSome_storage

/-- Every collection is short enough to be written. -/
structure Compact (db : StateDB) : Prop where
  account : ∀ (a : Address) r, db.accounts[a]? = some r → Borsh.Fits r
  asset : ∀ (id : H256) r, db.assets[id]? = some r → Borsh.Fits r
  ownership : ∀ (k : H256 × Address) r, db.ownership[k]? = some r → Borsh.Fits r
  oracle : ∀ (id : H256) r, db.oracles[id]? = some r → Borsh.Fits r
  assetProposal : ∀ (id : H256) r, db.assetProposals[id]? = some r → Borsh.Fits r
  stakers : Borsh.Fits db.stakers.toList
  slashingSeen : Borsh.Fits db.slashingSeen.toList
  unbonding : Borsh.Fits db.unbondingEntries.toList
  kycApproved : Borsh.Fits db.kycApproved.toList
  blockCommitments : Borsh.Fits db.blockCommitments.toList
  missedSlots : Borsh.Fits db.missedSlots.toList

end Vtt
