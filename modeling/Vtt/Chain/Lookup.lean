import Vtt.Chain.Commitments
import Vtt.Chain.Kept
import Vtt.Executor.Outcome
import Vtt.Lib.Success
import Vtt.State.Cell

/-!
# Looking transactions up

A chain on a store keeps the receipts of its blocks and the places of their transactions, under the
hashes of the transactions. Only storing a block writes there.
-/

namespace Vtt

open Lib Executor Storage List Spared Confined Option
open Option (isSome_map)

variable {ctx : BlockContext}

/-! ## Lists of writes -/

namespace Storage

variable {column : Column}

/-- The value under a key is that of one of the entries, or there is none for the key and it is as
before. -/
def Entered (a b : Storage) (column : Column) (entries : List (Bytes × Bytes)) (key : Bytes) :
    Prop :=
  (∃ e ∈ entries, e.1 = key ∧ b.read column key = some e.2) ∨
    (∀ e ∈ entries, e.1 ≠ key) ∧ b.read column key = a.read column key

theorem entered_writeAll {a : Storage} (ha : a.isSome = true) (column : Column)
    (entries : List (Bytes × Bytes)) (key : Bytes) :
    a.Entered (a.writeAll column entries) column entries key := by
  induction entries generalizing a with
  | nil => exact .inr ⟨nofun, rfl⟩
  | cons e _ ih =>
    have written : (a.write column e.1 e.2).isSome = true := isSome_map.trans ha
    rcases ih written with ⟨e', he', hkey, hread⟩ | ⟨hnone, hread⟩
    · exact .inl ⟨e', mem_cons_of_mem _ he', hkey, hread⟩
    · by_cases hkey : e.1 = key
      · refine .inl ⟨e, mem_cons_self, hkey, hread.trans ?_⟩
        rw [← hkey]
        exact read_write_self ha ..
      · refine .inr ⟨forall_mem_cons.2 ⟨hkey, hnone⟩, hread.trans ?_⟩
        exact read_write_of_ne _ _ (.inr (Ne.symm hkey))

/-- Other columns are left alone. -/
theorem read_writeAll_of_ne (a : Storage) {column' : Column} (h : column' ≠ column)
    (entries : List (Bytes × Bytes)) (key : Bytes) : (a.writeAll column entries).read column' key =
      a.read column' key := by
  induction entries generalizing a with
  | nil => rfl
  | cons _ _ ih => exact (ih _).trans (read_write_of_ne _ _ (.inl h))

theorem isSome_writeAll (a : Storage) (entries : List (Bytes × Bytes)) :
    (a.writeAll column entries).isSome = a.isSome := by
  induction entries generalizing a with
  | nil => rfl
  | cons _ _ ih => exact (ih _).trans isSome_map

end Storage

/-- The columns of the chain read as in a given store. -/
def Spared.chainColumns (a₀ : Storage) : Spared where
  storage a := a.isSome = a₀.isSome ∧ ∀ column key, column.ofChain = true →
    a.read column key = a₀.read column key
  supply _ _ := True
  write column _ _ hcolumn h := by
    refine ⟨isSome_map.trans h.1, fun column' key' hchain => ?_⟩
    have hne : column' ≠ column := by
      rintro rfl
      rw [hcolumn] at hchain
      cases hchain
    exact (read_write_of_ne _ _ (.inl hne)).trans (h.2 column' key' hchain)
  remove _ h := by
    refine ⟨isSome_map.trans h.1, fun column' key' hchain => ?_⟩
    have hne : column' ≠ .chainMeta := by
      rintro rfl
      cases hchain
    exact (read_remove_of_ne _ (.inl hne)).trans (h.2 column' key' hchain)

/-- The receipt of a transaction carries its hash. -/
theorem Executor.Outcome.txHash [Crypto] [Wasm] [Environment] {tx : SignedTransaction}
    {s t : StateDB} {result : ExecutionResult} (h : Outcome ctx tx s result t) :
    result.receipt.txHash = tx.hash := by
  cases h <;> rfl

/-- The hashes of the receipts are those of the first transactions, in their order. -/
theorem Executor.txHash_executeTransactions [Crypto] [Wasm] [Environment] {ε : Type}
    {limit totalGas total : UInt64} {txs : List SignedTransaction}
    {receipts rs : List TransactionReceipt} {s t : StateDB}
    (h : (executeTransactions ctx limit txs receipts totalGas : DbM ε _).run s =
      some (.ok (rs, total), t)) :
    rs.map (·.txHash) <+: receipts.map (·.txHash) ++ txs.map (·.hash) := by
  induction txs generalizing receipts totalGas s with
  | nil =>
    obtain ⟨heq, -⟩ := ok_of_pure h
    obtain rfl := (Prod.mk.inj heq).1
    exact prefix_append _ _
  | cons _ _ ih =>
    rw [executeTransactions] at h
    split at h
    · obtain ⟨heq, -⟩ := ok_of_pure h
      obtain rfl := (Prod.mk.inj heq).1
      exact prefix_append _ _
    · obtain ⟨_, _, hfirst, hrest⟩ := run_bind_ok h
      have outcome := outcome_of_executed hfirst
      have whole := ih hrest
      rw [map_append, map_singleton, outcome.txHash, append_assoc] at whole
      exact whole

namespace Chain

variable {now : UInt64} {blocks : List (Block × List TransactionReceipt)}

/-! ## On record -/

/-- The receipt that is on record for a transaction. -/
def getReceipt (c : Chain) (txHash : H256) : Option TransactionReceipt :=
  if c.persistent then (c.state.storage.read .receipts txHash.asBytes).bind Borsh.tryFromSlice
    else none

/-- The place of a transaction that is on record: the height of its block, and its number in it. -/
def getTxLocation (c : Chain) (txHash : H256) : Option (BlockNumber × UInt32) :=
  if c.persistent then
    (c.state.storage.read .transactions txHash.asBytes).bind fun v =>
      if v.length ≠ 12 then none
      else some (UInt64.ofNat (leNat (v.take 8)), UInt32.ofNat (leNat (v.drop 8)))
  else none

theorem getTxLocation_of_place {c : Chain} {txHash : H256} {number : BlockNumber} {index : ℕ}
    (hpersistent : c.persistent = true)
    (h : c.state.storage.read .transactions txHash.asBytes = some (txPlace number index)) :
    c.getTxLocation txHash = some (number, UInt32.ofNat index) := by
  have long : (txPlace number index).length = 12 := by simp [txPlace]
  unfold getTxLocation
  rw [if_pos hpersistent, h, bind_some, if_neg (not_not_intro long)]
  have first : (txPlace number index).take 8 = leBytes 8 number.toNat :=
    take_left' (leBytes_length 8 _)
  have last : (txPlace number index).drop 8 = leBytes 4 index := drop_left' (leBytes_length 8 _)
  rw [first, last, leNat_leBytes, leNat_leBytes]
  have height : UInt64.ofNat (number.toNat % 256 ^ 8) = number := by
    rw [show 256 ^ 8 = 2 ^ 64 from rfl, Nat.mod_eq_of_lt (UInt64.toNat_lt number),
      UInt64.ofNat_toNat]
  have place : UInt32.ofNat (index % 256 ^ 4) = UInt32.ofNat index := by
    apply UInt32.toNat_inj.1
    exact Nat.mod_mod _ _
  rw [height, place]

/-- The chain writes to a store. -/
def Stores (c : Chain) : Prop := c.persistent = true ∧ c.state.storage.isSome = true

section Store

variable (c : Chain) (block : Block) (receipts : List TransactionReceipt)

theorem storage_persist {c : Chain} (hpersistent : c.persistent = true)
    (write : Storage → Storage) :
    (c.persist write).state.storage = write c.state.storage := by
  unfold persist
  rw [if_pos hpersistent]
  rfl

theorem persistent_persist (write : Storage → Storage) :
    (c.persist write).persistent = c.persistent := by
  unfold persist
  split
  · rfl
  · rfl

variable [Crypto]

/-- The columns for transactions and receipts after a block is stored are those of writing it
down. -/
theorem read_storeBlock (hpersistent : c.persistent = true) {column : Column}
    (hindex : column ≠ .chainIndex ∧ column ≠ .chainMeta) (key : Bytes) :
    (c.storeBlock block receipts).2.state.storage.read column key =
      (c.persistBlock block receipts).state.storage.read column key := by
  unfold storeBlock
  dsimp only
  split
  · have stored : ((c.persistBlock block receipts).insertBlock block).persistent = true :=
      (persistent_persist c _).trans hpersistent
    unfold adoptHead
    rw [storage_persist stored]
    exact (read_write_of_ne _ _ (.inl hindex.2)).trans (read_write_of_ne _ _ (.inl hindex.1))
  · rfl

variable {c} (h : c.Stores)
include h

/-- The place of a transaction after a block is stored is one in this block, or the one before. -/
theorem place_storeBlock (key : Bytes) :
    c.state.storage.Entered (c.storeBlock block receipts).2.state.storage .transactions
      (txIndexEntries block.header.number block.transactions) key := by
  rw [Entered, read_storeBlock c block receipts h.1 ⟨by decide, by decide⟩, persistBlock,
    storage_persist h.1]
  rw [read_write_of_ne _ _ (.inl (by decide))]
  refine (entered_writeAll ?_ ..).imp_right fun hnone => ⟨hnone.1, hnone.2.trans ?_⟩
  · rw [isSome_writeAll]
    exact isSome_map.trans (isSome_map.trans h.2)
  · rw [read_writeAll_of_ne _ (by decide), read_write_of_ne _ _ (.inl (by decide)),
      read_write_of_ne _ _ (.inl (by decide))]

/-- So is its receipt. -/
theorem receipt_storeBlock (key : Bytes) :
    c.state.storage.Entered (c.storeBlock block receipts).2.state.storage .receipts
      (receipts.map fun r => (r.txHash.asBytes, Borsh.serialize r)) key := by
  rw [Entered, read_storeBlock c block receipts h.1 ⟨by decide, by decide⟩, persistBlock,
    storage_persist h.1]
  rw [read_write_of_ne _ _ (.inl (by decide)), read_writeAll_of_ne _ (by decide)]
  refine (entered_writeAll ?_ ..).imp_right fun hnone => ⟨hnone.1, hnone.2.trans ?_⟩
  · exact isSome_map.trans (isSome_map.trans h.2)
  · rw [read_write_of_ne _ _ (.inl (by decide)), read_write_of_ne _ _ (.inl (by decide))]

theorem stored_storeBlock : (c.storeBlock block receipts).2.Stores := by
  have persisted : (c.persistBlock block receipts).state.storage.isSome = true := by
    rw [persistBlock, storage_persist h.1]
    refine isSome_map.trans ?_
    rw [isSome_writeAll, isSome_writeAll]
    exact isSome_map.trans (isSome_map.trans h.2)
  have stored : ((c.persistBlock block receipts).insertBlock block).persistent = true :=
    (persistent_persist c _).trans h.1
  unfold Stores storeBlock
  dsimp only
  split
  · unfold adoptHead
    rw [storage_persist stored, persistent_persist]
    exact ⟨stored, isSome_map.trans (isSome_map.trans persisted)⟩
  · exact ⟨stored, persisted⟩

end Store

/-! ## Imports -/

variable {c c' : Chain} {tx : SignedTransaction}

/-- The blocks that were accepted, with the receipts of their transactions. -/
def acceptedBlocks (calls : List ((UInt64 × Block) × Except ChainError ImportResult)) :
    List (Block × List TransactionReceipt) :=
  calls.filterMap fun call =>
    match call.2 with
    | .ok r => some (call.1.2, r.receipts)
    | .error _ => none

variable [Crypto] [Wasm] [Environment]

/-- A block that is refused leaves the records of the chain alone. -/
theorem spared_of_refused {block : Block} {e : ChainError}
    (h : (importBlock now block).run c = some (.error e, c')) :
    c'.persistent = c.persistent ∧ (chainColumns c.state.storage).Holds c'.state := by
  have outcome := importBlockImpl_iff.1 h
  have before : (chainColumns c.state.storage).Holds c.state := ⟨⟨rfl, fun _ _ _ => rfl⟩, trivial⟩
  refine ⟨?_, before.refused (fun _ _ => trivial) outcome⟩
  rw [outcome.error_moved]
  rfl

/-- A block that is accepted is stored on a chain that has the records of before. -/
theorem stored_of_accepted {block : Block} {r : ImportResult}
    (h : (importBlock now block).run c = some (.ok r, c')) :
    ∃ c₁ : Chain, c₁.persistent = c.persistent ∧ (chainColumns c.state.storage).Holds c₁.state ∧
      c' = (c₁.storeBlock block r.receipts).2 := by
  have outcome := importBlockImpl_iff.1 h
  have before : (chainColumns c.state.storage).Holds c.state := ⟨⟨rfl, fun _ _ _ => rfl⟩, trivial⟩
  cases outcome with
  | @accepted _ _ _ _ executed _ hrun _ =>
    have spared : (chainColumns c.state.storage).Holds executed.state :=
      before.executed (fun _ _ => trivial) hrun
    refine ⟨executed.computeRoot.2, ?_, spared, rfl⟩
    rw [executed_moved hrun]
    rfl

/-- The receipts of an accepted block belong to its transactions, in their order. -/
theorem hash_of_receipt {block : Block} {r : ImportResult}
    (h : (importBlock now block).run c = some (.ok r, c')) {i : ℕ} {receipt : TransactionReceipt}
    (hreceipt : r.receipts[i]? = some receipt) :
    ∃ tx, block.transactions[i]? = some tx ∧ tx.hash = receipt.txHash := by
  obtain ⟨_, _, _, -, hexec⟩ := accepted_receipts h
  have aligned := txHash_executeTransactions hexec
  rw [map_nil, nil_append] at aligned
  obtain ⟨_, hothers⟩ := aligned
  have here : (block.transactions.map (·.hash))[i]? = some receipt.txHash := by
    rw [← hothers, getElem?_append_left, getElem?_map, hreceipt]
    · rfl
    · rw [length_map]
      exact (List.getElem?_eq_some_iff.1 hreceipt).1
  rw [getElem?_map] at here
  exact map_eq_some_iff.1 here

/-- A call of `importBlock` with its result. -/
def ImportCall (c : Chain) (call : (UInt64 × Block) × Except ChainError ImportResult) (c' : Chain) :
    Prop :=
  (importBlock call.1.1 call.1.2).run c = some (call.2, c')

/-- What is on record of a transaction is its own: its place in one of the blocks, and the receipt
for it there. -/
structure Found (tx : SignedTransaction) (c : Chain)
    (blocks : List (Block × List TransactionReceipt)) : Prop where
  place : ∀ e ∈ blocks, tx ∈ e.1.transactions → ∃ e ∈ blocks, ∃ i : ℕ,
    e.1.transactions[i]? = some tx ∧
    c.state.storage.read .transactions tx.hash.asBytes = some (txPlace e.1.header.number i)
  receipt : ∀ e ∈ blocks, ∀ (i : ℕ) r, e.1.transactions[i]? = some tx → e.2[i]? = some r →
    ∃ e ∈ blocks, ∃ (i : ℕ) (r : TransactionReceipt), e.1.transactions[i]? = some tx ∧
      e.2[i]? = some r ∧ c.state.storage.read .receipts tx.hash.asBytes = some (Borsh.serialize r)

omit [Wasm] [Environment] in
/-- Nothing of the chain was written. -/
theorem Found.of_same (h : Found tx c blocks) (hsame : ∀ column key, column.ofChain = true →
      c'.state.storage.read column key = c.state.storage.read column key) : Found tx c' blocks := by
  constructor
  · intro e he htx
    obtain ⟨e', he', i, hi, hread⟩ := h.place e he htx
    exact ⟨e', he', i, hi, (hsame .transactions _ rfl).trans hread⟩
  · intro e he i r hi hr
    obtain ⟨e', he', j, r', hj, hr', hread⟩ := h.receipt e he i r hi hr
    exact ⟨e', he', j, r', hj, hr', (hsame .receipts _ rfl).trans hread⟩

omit [Wasm] [Environment] in
/-- A block is stored in which no other transaction has the hash. -/
theorem Found.storeBlock {block : Block} {receipts : List TransactionReceipt}
    (h : Found tx c blocks) (hstores : c.Stores)
    (hown : ∀ tx' ∈ block.transactions, tx'.hash = tx.hash → tx' = tx)
    (haligned : ∀ (i : ℕ) r, receipts[i]? = some r → ∃ tx', block.transactions[i]? = some tx' ∧
      tx'.hash = r.txHash) :
    Found tx (c.storeBlock block receipts).2 (blocks ++ [(block, receipts)]) := by
  have last : (block, receipts) ∈ blocks ++ [(block, receipts)] := mem_append_right _ mem_cons_self
  constructor
  · intro e he htx
    rcases place_storeBlock block receipts hstores tx.hash.asBytes with
      ⟨entry, hentry, hkey, hread⟩ | ⟨hnone, hread⟩
    · obtain ⟨⟨tx', i⟩, hmem, rfl⟩ := mem_map.1 hentry
      have hi : block.transactions[i]? = some tx' := mk_mem_zipIdx_iff_getElem?.1 hmem
      obtain rfl := hown tx' (mem_of_getElem? hi) (H256.asBytes_injective hkey)
      exact ⟨_, last, i, hi, hread⟩
    · -- the transaction is in a block before
      rcases mem_append.1 he with hold | hnew
      · obtain ⟨e', he', i, hi, hbefore⟩ := h.place e hold htx
        exact ⟨e', mem_append_left _ he', i, hi, hread.trans hbefore⟩
      · obtain rfl := mem_singleton.1 hnew
        obtain ⟨i, hi⟩ := mem_iff_getElem?.1 htx
        exact absurd rfl (hnone (tx.hash.asBytes, txPlace block.header.number i)
          (mem_map.2 ⟨(tx, i), mk_mem_zipIdx_iff_getElem?.2 hi, rfl⟩))
  · intro e he i r hi hr
    rcases receipt_storeBlock block receipts hstores tx.hash.asBytes with
      ⟨entry, hentry, hkey, hread⟩ | ⟨hnone, hread⟩
    · obtain ⟨r', hmem, rfl⟩ := mem_map.1 hentry
      obtain ⟨j, hj⟩ := mem_iff_getElem?.1 hmem
      obtain ⟨tx', htx', hhash⟩ := haligned j r' hj
      obtain rfl := hown tx' (mem_of_getElem? htx') (hhash.trans (H256.asBytes_injective hkey))
      exact ⟨_, last, j, r', htx', hj, hread⟩
    · rcases mem_append.1 he with hold | hnew
      · obtain ⟨e', he', j, r', hj, hr', hbefore⟩ := h.receipt e hold i r hi hr
        exact ⟨e', mem_append_left _ he', j, r', hj, hr', hread.trans hbefore⟩
      · obtain rfl := mem_singleton.1 hnew
        obtain ⟨_, htx', hhash⟩ := haligned i r hr
        obtain rfl := some.inj (hi.symm.trans htx')
        exact absurd (congrArg H256.asBytes hhash.symm)
          (hnone (r.txHash.asBytes, Borsh.serialize r) (mem_map.2 ⟨r, mem_of_getElem? hr, rfl⟩))

/-- After any imports on a chain with a store, what is on record of a transaction is its own, if no
other transaction of the accepted blocks has its hash. -/
theorem found_of_run {calls : List ((UInt64 × Block) × Except ChainError ImportResult)}
    (h : Run ImportCall c calls c') (hstores : c.Stores)
    (hown : ∀ e ∈ acceptedBlocks calls, ∀ tx' ∈ e.1.transactions, tx'.hash = tx.hash → tx' = tx) :
    c'.Stores ∧ Found tx c' (acceptedBlocks calls) := by
  induction h with
  | nil => exact ⟨hstores, fun _ he => absurd he not_mem_nil, fun _ he => absurd he not_mem_nil⟩
  | @snoc _ call _ _ _ hcall ih =>
    unfold acceptedBlocks at hown ih ⊢
    rw [filterMap_append] at hown ⊢
    obtain ⟨hstores₁, found⟩ := ih fun e he => hown e (mem_append_left _ he)
    obtain ⟨⟨now, block⟩, result⟩ := call
    cases result with
    | error e =>
      obtain ⟨hpersistent, spared⟩ := spared_of_refused hcall
      rw [show filterMap _ [((now, block), Except.error e)] = [] from rfl, append_nil]
      exact ⟨⟨hpersistent.trans hstores₁.1, spared.1.1.trans hstores₁.2⟩, found.of_same spared.1.2⟩
    | ok r =>
      obtain ⟨c₀, hpersistent, spared, rfl⟩ := stored_of_accepted hcall
      have stores : c₀.Stores := ⟨hpersistent.trans hstores₁.1, spared.1.1.trans hstores₁.2⟩
      refine ⟨stored_storeBlock block r.receipts stores, ?_⟩
      refine (found.of_same spared.1.2).storeBlock stores ?_ fun i receipt hi =>
        hash_of_receipt hcall hi
      exact hown (block, r.receipts) (mem_append_right _ mem_cons_self)

end Chain

end Vtt
