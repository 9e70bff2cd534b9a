import Vtt.Chain.CrossChain
import Vtt.Chain.Kept
import Vtt.Executor.Atomic
import Vtt.Lib.Once
import Vtt.Lib.Success
import Vtt.State.Cell

/-!
# Bridge deposits are credited once

A deposit that is credited leaves a mark in the store. No code removes a mark, whatever becomes of
the transaction or of the block: the only keys that are ever removed are those of jurisdictions, and
a rollback writes caches back.
-/

namespace Vtt

open Lib Executor StateDB Option List Storage Confined Bool

/-! ## Marks -/

/-- A key that is set stays set when something is written. -/
theorem Storage.isSome_read_write {a : Storage} {column column' : Column} {key key' value : Bytes}
    (h : (a.read column key).isSome = true) :
    ((a.write column' key' value).read column key).isSome = true := by
  by_cases hsame : column = column' ∧ key = key'
  · obtain ⟨rfl, rfl⟩ := hsame
    cases a with
    | none => cases h
    | some =>
      rw [read_write_self rfl]
      rfl
  · rw [read_write_of_ne _ _ (Classical.not_and_iff_not_or_not.1 hsame)]
    exact h

namespace Kept

/-- There is a store. -/
def stored : Kept where
  storage a := a.isSome = true
  supply _ _ := True
  write _ _ _ h := isSome_map.trans h
  remove _ h := isSome_map.trans h

/-- A deposit is marked, with its source chain or in the old format. -/
def deposited (sourceChain : UInt32) (sourceTxHash : H256) : Kept where
  storage a := (a.read .chainMeta (bridgeDepositKey sourceChain sourceTxHash)).isSome = true ∨
    (a.read .chainMeta (legacyBridgeDepositKey sourceTxHash)).isSome = true
  supply _ _ := True
  write _ _ _ h := h.imp isSome_read_write isSome_read_write
  remove address h := by
    have hkey (key : Bytes) : ascii "bridge:deposit:" ++ key ≠ jurisdictionKey address := by
      intro heq
      have hfirst := congrArg (take 1) heq
      rw [jurisdictionKey, take_append_of_le_length (by decide),
        take_append_of_le_length (by decide)] at hfirst
      exact absurd hfirst (by decide)
    rw [read_remove_of_ne _ (.inr ?_), read_remove_of_ne _ (.inr ?_)]
    · exact h
    · exact hkey _
    · have hlabel : ascii "bridge:deposit:v2:" = ascii "bridge:deposit:" ++ ascii "v2:" := by decide
      rw [bridgeDepositKey, hlabel, append_assoc, append_assoc]
      exact hkey _

/-- A deposit counts as processed if it is marked. -/
theorem deposited_iff {db : StateDB} {sourceChain : UInt32} {sourceTxHash : H256} :
    (deposited sourceChain sourceTxHash).Holds db ↔
      db.bridgeDepositProcessed sourceChain sourceTxHash = true := by
  rw [bridgeDepositProcessed, or_eq_true]
  exact and_iff_left trivial

end Kept

namespace StateDB

theorem verifyOrStampSchemaVersion_kept {K : Kept} {store store' : Store}
    (h : verifyOrStampSchemaVersion store = some store') (hkept : K.storage (some store)) :
    K.storage (some store') := by
  unfold verifyOrStampSchemaVersion at h
  split at h
  · split at h
    · cases h
      exact hkept
    · cases h
  · cases h
    exact K.write .chainMeta _ _ hkept

/-- What all code on the state keeps of the store is kept when the state is opened again. -/
theorem withStorage_kept {K : Kept} (hsupply : ∀ minted burned, K.supply minted burned)
    {store : Store} {db : StateDB} (h : withStorage store = some db)
    (hkept : K.storage (some store)) : K.Holds db := by
  obtain ⟨_, hstamp, h⟩ := bind_eq_some_iff.1 h
  obtain ⟨loaded, hbackfill, h⟩ := bind_eq_some_iff.1 h
  cases h
  have hstore := verifyOrStampSchemaVersion_kept hstamp hkept
  refine ⟨?_, hsupply _ _⟩
  unfold backfillHolders at hbackfill
  split at hbackfill
  · obtain ⟨_, -, hlast⟩ := bind_eq_some_iff.1 hbackfill
    cases hlast
    exact Kept.storage_writeAll hstore ..
  · cases hbackfill
    exact hstore

end StateDB

/-! ## Credited deposits -/

namespace Executor

variable [Crypto] [Wasm] [Environment]

variable {sourceTxHash : H256} {sourceChain : UInt32}

/-- The deposit that a transaction reports. -/
def depositOf (tx : SignedTransaction) : Option (UInt32 × H256) :=
  match tx.payload.action with
  | .bridgeDeposit sourceTxHash sourceChain _ _ _ => some (sourceChain, sourceTxHash)
  | _ => none

/-- A transaction succeeds on a state. -/
def succeeds (ctx : BlockContext) (tx : SignedTransaction) (db : StateDB) : Bool :=
  match (executeTransactionAt ctx tx : DbM Empty ExecutionResult).run db with
  | some (.ok result, _) => result.receipt.success
  | _ => false

/-- The deposit that a transaction credits on a state. -/
def credited (ctx : BlockContext) (tx : SignedTransaction) (db : StateDB) : List (UInt32 × H256) :=
  if succeeds ctx tx db then (depositOf tx).toList else []

variable {ctx : BlockContext} {tx : SignedTransaction} {db t : StateDB} {result : ExecutionResult}

omit [Wasm] [Environment] in
/-- A deposit that is credited was not marked before and is marked afterwards. -/
theorem executeBridgeDeposit_marks {sender recipient : Address} {token : H256} {amount : Amount}
    {logs : List Log}
    (h : (executeBridgeDeposit sender sourceTxHash sourceChain recipient token amount).run db =
      some (.ok logs, t)) :
    db.bridgeDepositProcessed sourceChain sourceTxHash = false ∧
      t.bridgeDepositProcessed sourceChain sourceTxHash = true := by
  obtain ⟨-, h⟩ := ok_of_require (p := (!db.isBridgePaused) = true) h
  obtain ⟨hrelayer, h⟩ := ok_of_require (p := db.bridgeRelayer ≠ .zero) h
  obtain ⟨-, h⟩ := ok_of_require (p := sender = db.bridgeRelayer) h
  obtain ⟨hfresh, h⟩ :=
    ok_of_require (p := (!db.bridgeDepositProcessed sourceChain sourceTxHash) = true) h
  obtain ⟨-, h⟩ := ok_of_require h
  obtain ⟨_, s₁, hcredit, h⟩ := run_bind_ok h
  obtain ⟨_, hmark, -⟩ := ok_of_last h
  cases hmark
  refine ⟨by simpa using hfresh, ?_⟩
  -- only a store has a relayer, and the store is still there when the mark is written
  have hstore : db.storage.isSome = true := by
    cases hstorage : db.storage with
    | none =>
      rw [bridgeRelayer, hstorage] at hrelayer
      exact absurd rfl hrelayer
    | some => rfl
  have hstored : Kept.stored.Holds s₁ := Spared.Holds.run ⟨hstore, trivial⟩ hcredit
  rw [bridgeDepositProcessed, or_eq_true]
  left
  change ((s₁.storage.write .chainMeta _ _).read .chainMeta _).isSome = true
  rw [read_write_self hstored.1]
  rfl

/-- A transaction keeps every mark. -/
theorem Outcome.deposited (h : Outcome ctx tx db result t)
    (hmarked : db.bridgeDepositProcessed sourceChain sourceTxHash = true) :
    t.bridgeDepositProcessed sourceChain sourceTxHash = true := by
  have hrun := (executeTransactionAt_iff (ε := Empty)).2 ⟨result, rfl, h⟩
  exact Kept.deposited_iff.1 ((Kept.deposited_iff.2 hmarked).run hrun)

/-- A deposit that a transaction credits was not marked before and is marked afterwards. -/
theorem Outcome.credited_marks (h : Outcome ctx tx db result t) {key : UInt32 × H256}
    (hkey : key ∈ credited ctx tx db) :
    db.bridgeDepositProcessed key.1 key.2 = false ∧
      t.bridgeDepositProcessed key.1 key.2 = true := by
  have hrun := (executeTransactionAt_iff (ε := Empty)).2 ⟨result, rfl, h⟩
  unfold credited succeeds at hkey
  rw [hrun] at hkey
  dsimp only at hkey
  split at hkey
  · rename_i hsuccess
    cases h with
    | inert | excessive | short | failed => cases hsuccess
    | done _ hop =>
      unfold depositOf at hkey
      split at hkey
      · rename_i haction
        obtain rfl := mem_singleton.1 hkey
        unfold operation at hop
        rw [haction] at hop
        obtain ⟨hfresh, hmarked⟩ := executeBridgeDeposit_marks hop
        refine ⟨?_, hmarked⟩
        -- a mark would have survived the charge
        rw [← not_eq_true] at hfresh ⊢
        intro hbefore
        refine hfresh (Kept.deposited_iff.1 ?_)
        exact (Kept.deposited_iff.2 hbefore).run (run_chargeFee (ε := Empty) ..)
      · cases hkey
  · cases hkey

/-- The deposits that some executions credit. -/
def creditedBy (ctx : BlockContext) (es : List Execution) : List (UInt32 × H256) :=
  es.flatMap fun e => credited ctx e.tx e.before

theorem credited_nodup (ctx : BlockContext) (tx : SignedTransaction) (db : StateDB) :
    (credited ctx tx db).Nodup := by
  unfold credited
  split
  · cases depositOf tx with
    | none => exact nodup_nil
    | some key => exact nodup_singleton key
  · exact nodup_nil

/-- Code that credits deposits once: none that is marked before, all are marked afterwards, and no
mark is lost. -/
structure CreditsOnce (s t : StateDB) (keys : List (UInt32 × H256)) : Prop where
  nodup : keys.Nodup
  fresh : ∀ key ∈ keys, s.bridgeDepositProcessed key.1 key.2 = false
  marked : ∀ key ∈ keys, t.bridgeDepositProcessed key.1 key.2 = true
  kept : ∀ sourceChain sourceTxHash, s.bridgeDepositProcessed sourceChain sourceTxHash = true →
    t.bridgeDepositProcessed sourceChain sourceTxHash = true

namespace CreditsOnce

variable {s : StateDB} {keys : List (UInt32 × H256)}

omit [Crypto] [Wasm] [Environment] in
/-- The marks of the store are those of the keys that are acted on once. -/
theorem iff_marksOnce : CreditsOnce s t keys ↔
      MarksOnce (fun (db : StateDB) key => db.bridgeDepositProcessed key.1 key.2 = true)
        s t keys where
  mp h := ⟨h.nodup, fun key hkey => not_eq_true _ ▸ h.fresh key hkey, h.marked, fun _ => h.kept _ _⟩
  mpr h := ⟨h.nodup, fun key hkey => not_eq_true _ ▸ h.fresh key hkey, h.marked,
    fun a b => h.kept (a, b)⟩

omit [Crypto] [Wasm] [Environment] in
theorem of_kept (h : ∀ sourceChain sourceTxHash, (Kept.deposited sourceChain sourceTxHash).Holds s →
      (Kept.deposited sourceChain sourceTxHash).Holds t) : CreditsOnce s t [] :=
  iff_marksOnce.2 (.of_kept fun _ hmarked =>
    Kept.deposited_iff.1 (h _ _ (Kept.deposited_iff.2 hmarked)))

omit [Crypto] [Wasm] [Environment] in
theorem append {u : StateDB} {keys' : List (UInt32 × H256)} (h : CreditsOnce s t keys)
    (h' : CreditsOnce t u keys') :
    CreditsOnce s u (keys ++ keys') :=
  iff_marksOnce.2 ((iff_marksOnce.1 h).append (iff_marksOnce.1 h'))

end CreditsOnce

theorem Outcome.creditsOnce (h : Outcome ctx tx db result t) : CreditsOnce db t
    (credited ctx tx db) where
  nodup := credited_nodup ctx tx db
  fresh _ hkey := (h.credited_marks hkey).1
  marked _ hkey := (h.credited_marks hkey).2
  kept _ _ hmarked := h.deposited hmarked

/-- Executions that follow each other credit every deposit once. -/
theorem Successive.creditsOnce {es : List Execution} (h : Successive db es t)
    (houtcome : ∀ e ∈ es, ∃ result, Outcome ctx e.tx e.before result e.after) :
    CreditsOnce db t (creditedBy ctx es) := by
  induction h with
  | nil => exact .of_kept fun _ _ h => h
  | @cons e _ _ _ ih =>
    obtain ⟨_, hfirst⟩ := houtcome e (mem_cons_self ..)
    exact hfirst.creditsOnce.append (ih fun e' he' => houtcome e' (mem_cons_of_mem _ he'))

end Executor

/-! ## Runs on a store -/

namespace Chain

variable [Crypto] [Wasm] [Environment]

variable {c : Chain}

/-- What happens to the state on a store: a transaction is executed, a block is imported, or the
state is opened again. -/
inductive StoreEvent where
  | transaction (ctx : BlockContext) (tx : SignedTransaction)
  | block (now : UInt64) (block : Block)
  | reopening

/-- An import that ends so has executed its block. -/
def executesBlock : Except ChainError ImportResult → Bool
  | .ok _ => true
  | .error (.invalidStateRoot _ _) => true
  | .error _ => false

/-- One event, with the deposits that are credited in it. -/
def StoreStep (c : Chain) (step : StoreEvent × List (UInt32 × H256)) (c' : Chain) : Prop :=
  match step.1 with
  | .transaction ctx tx =>
    ∃ result t, (executeTransactionAt ctx tx : DbM Empty Executor.ExecutionResult).run c.state =
      some (.ok result, t) ∧ c' = c.withState t ∧ step.2 = credited ctx tx c.state
  | .block now block =>
    ∃ r, (importBlock now block).run c = some (r, c') ∧ step.2 = if executesBlock r then
        creditedBy (c.blockContext block.header) (c.executions block) else []
  | .reopening =>
    ∃ store db, c.state.storage = some store ∧ StateDB.withStorage store = some db ∧
      c' = c.withState db ∧ step.2 = []

omit [Wasm] [Environment] in
/-- The checks at the entry do not look at the state root. -/
theorem executesBlock_of_refused {now : UInt64} {block : Block} {e : ChainError}
    (h : c.checkBlock now block = .error e) : executesBlock (.error e) = false := by
  have hentry := atEntry_of_checkBlock h
  cases e with
  | invalidStateRoot => cases hentry
  | _ => rfl

/-- Executing an admitted block credits every deposit once. -/
theorem executed_creditsOnce {executed : Chain} {now : UInt64} {block : Block}
    {parent : BlockHeader} {epoch : Epoch} {staked : Amount} {receipts : List TransactionReceipt}
    (admitted : Admitted now block c parent epoch staked)
    (hrun : (runBlock block none staked).run (c.noted block.header parent epoch) =
      some (.ok receipts, executed)) :
    CreditsOnce c.state executed.state
      (creditedBy (c.blockContext block.header) (c.executions block)) := by
  obtain ⟨state, _, t, _, _, hbefore, hrelease, hall, hsettle⟩ := runBlock_parts admitted hrun
  have hstart : CreditsOnce c.state state [] := .of_kept fun _ _ h => (h.noted ..).run hrelease
  have htxs : CreditsOnce state t
      (creditedBy (c.blockContext block.header) (c.executions block)) := by
    rw [executions, hbefore]
    exact (executions_of_run hall).1.creditsOnce fun e he => (outcome_of_mem_executions he).2
  have hend : CreditsOnce t executed.state [] :=
    .of_kept fun _ _ h => h.run_settle (fun _ _ => trivial) hsettle
  have happend := (hstart.append htxs).append hend
  rwa [nil_append, append_nil] at happend

theorem StoreStep.creditsOnce {c' : Chain} {step : StoreEvent × List (UInt32 × H256)}
    (h : StoreStep c step c') :
    CreditsOnce c.state c'.state step.2 := by
  obtain ⟨event, _⟩ := step
  cases event with
  | transaction =>
    obtain ⟨_, _, hrun, rfl, rfl⟩ := h
    exact (outcome_of_executed hrun).creditsOnce
  | block _ block =>
    obtain ⟨_, hrun, rfl⟩ := h
    have houtcome := outcome_of_run hrun
    -- what a rollback or the storing of the block does after it was executed
    cases houtcome with
    | refused hcheck =>
      rw [executesBlock_of_refused hcheck]
      exact .of_kept fun _ _ h => h
    | unverified => exact .of_kept fun _ _ h => h.enterEpoch _
    | @mismatched _ _ _ _ executed admitted hexec _ =>
      have hrestored :
          CreditsOnce executed.state (executed.rolledBack c.state.snapshot c.validatorSet).state
          [] := by
        refine .of_kept fun sourceChain sourceTxHash hmarked => ?_
        have hflushed :
          (Kept.deposited sourceChain sourceTxHash).Holds executed.computeRoot.2.state := hmarked
        exact hflushed.restore (fun _ _ => trivial) c.state.snapshot
      have hall := (executed_creditsOnce admitted hexec).append hrestored
      rw [append_nil] at hall
      exact hall
    | @accepted _ _ _ receipts executed admitted hexec _ =>
      have hstored := (executed_creditsOnce admitted hexec).append (.of_kept fun _ _ h =>
          Kept.Holds.storeBlock (c := executed.computeRoot.2) h block receipts)
      rw [append_nil] at hstored
      exact hstored
  | reopening =>
    obtain ⟨_, _, hstorage, hopen, rfl, rfl⟩ := h
    refine .of_kept fun _ _ hmarked => ?_
    exact withStorage_kept (fun _ _ => trivial) hopen (hstorage ▸ hmarked.1)

/-- Over every sequence of transactions, blocks and reopenings, each deposit is credited at most
once, and none is credited that the store marked before, with its source chain or in the old
format. -/
theorem deposits_credited_once {c₀ c : Chain} {steps : List (StoreEvent × List (UInt32 × H256))}
    (h : Run StoreStep c₀ steps c) :
    (steps.flatMap (·.2)).Nodup ∧ ∀ key ∈ steps.flatMap (·.2),
      c₀.state.storage.read .chainMeta (legacyBridgeDepositKey key.2) = none ∧
        c₀.state.storage.read .chainMeta (bridgeDepositKey key.1 key.2) = none := by
  let marked (c : Chain) (key : UInt32 × H256) : Prop :=
    c.state.bridgeDepositProcessed key.1 key.2 = true
  have hstep : ∀ {c step c'}, True → StoreStep c step c' → True ∧ MarksOnce marked c c' step.2 :=
    fun _ h => ⟨trivial, (CreditsOnce.iff_marksOnce.1 h.creditsOnce).of_part⟩
  have hcredits := MarksOnce.of_run hstep h trivial
  refine ⟨hcredits.nodup, fun key hkey => ?_⟩
  have hfresh := Bool.eq_false_iff.2 (hcredits.fresh key hkey)
  rw [bridgeDepositProcessed, Bool.or_eq_false_iff] at hfresh
  exact ⟨isSome_eq_false_iff.1 hfresh.2 |> isNone_iff_eq_none.1,
    isSome_eq_false_iff.1 hfresh.1 |> isNone_iff_eq_none.1⟩

end Chain

/-! ## A deposit on a store -/

namespace Demo

open Chain

/-- The state of the funded validator on a store that names it as the relayer. -/
def relaying : StateDB :=
  { funded with
    storage := some (Store.empty.put .chainMeta (ascii "bridge:relayer") key.address.asBytes) }

/-- The report of a deposit. -/
def report : SignedTransaction := firstTransaction (.bridgeDeposit ⟨9⟩ 1 ⟨7⟩ .zero (.fromVtt 1))

/-- The deposit is credited, and the state is opened again on its store. -/
theorem report_credited_once : ∃ c₀ c steps, c₀.state = relaying ∧ Run StoreStep c₀ steps c ∧
      steps.flatMap (·.2) = [(1, ⟨9⟩)] ∧ (steps.flatMap (·.2)).Nodup := by
  obtain ⟨result, t, hrun, hcheck⟩ := exists_executed context report relaying
    (fun _ t => decide (credited context report relaying = [(1, ⟨9⟩)]) &&
      (t.storage.bind withStorage).isSome) (by decide +kernel)
  simp only [Bool.and_eq_true, decide_eq_true_eq] at hcheck
  obtain ⟨hcredited, hopens⟩ := hcheck
  obtain ⟨db, hopen⟩ := isSome_iff_exists.1 hopens
  obtain ⟨store, hstorage, hopen⟩ := bind_eq_some_iff.1 hopen
  let c₀ : Chain := (Chain.new ⟨params 10⟩ .default).withState relaying
  have hrun : Run StoreStep c₀ ([(.transaction context report, [(1, ⟨9⟩)])] ++ [(.reopening, [])])
      (c₀.withState db) :=
    .snoc (.snoc .nil ⟨result, t, hrun, rfl, hcredited.symm⟩) ⟨store, db, hstorage, hopen, rfl, rfl⟩
  exact ⟨c₀, _, _, rfl, hrun, rfl, (deposits_credited_once hrun).1⟩

end Demo

end Vtt
