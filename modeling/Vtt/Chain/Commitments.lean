import Vtt.Chain.Authenticity
import Vtt.Chain.DoubleSign
import Vtt.Chain.Tree
import Vtt.Executor.Receipts
import Vtt.State.Observation

/-!
# What a header says of the execution

An import executes the transactions of a block and then drops the gas and the receipts: the root
over the receipts is not compared with anything, and the gas of the header is what the settlement
pays for. There is one receipt for each transaction, within the gas limit, exactly if executing all
of them keeps to it.
-/

namespace Vtt

open Lib Executor Producer Option Confined Storage

/-! ## States that differ in their observations -/

/-- Stores that agree outside the observations. -/
def SameStore (a b : Storage) : Prop :=
  a.isSome = b.isSome ∧ ∀ column key, observationKey column key = false →
    a.read column key = b.read column key

theorem SameStore.write {a b : Storage} (h : SameStore a b) (column : Column) (key value : Bytes) :
    SameStore (a.write column key value) (b.write column key value) := by
  refine ⟨isSome_map.trans (h.1.trans isSome_map.symm), fun column' key' hk => ?_⟩
  by_cases hsame : column' = column ∧ key' = key
  · obtain ⟨rfl, rfl⟩ := hsame
    cases a with
    | none => cases b with
      | none => rfl
      | some => cases h.1
    | some => cases b with
      | none => cases h.1
      | some => rw [read_write_self rfl _ _, read_write_self rfl _ _]
  · have hne := Classical.not_and_iff_not_or_not.1 hsame
    rw [read_write_of_ne _ _ hne, read_write_of_ne _ _ hne, h.2 _ _ hk]

theorem SameStore.remove {a b : Storage} (h : SameStore a b) (column : Column) (key : Bytes) :
    SameStore (a.remove column key) (b.remove column key) := by
  refine ⟨isSome_map.trans (h.1.trans isSome_map.symm), fun column' key' hk => ?_⟩
  by_cases hsame : column' = column ∧ key' = key
  · obtain ⟨rfl, rfl⟩ := hsame
    rw [read_remove_self, read_remove_self]
  · have hne := Classical.not_and_iff_not_or_not.1 hsame
    rw [read_remove_of_ne _ hne, read_remove_of_ne _ hne, h.2 _ _ hk]

/-- The frame of two states with the same store but for observations, and the same caches. -/
def SettleFrame.unobserved : SettleFrame where
  val := {
    storage := SameStore
    observed _ _ _ _ := True
    supply _ _ := True
    read column key h := h.2 column key
    write column key value h _ := h.write column key value
    remove _ h := h.remove _ _ }
  property _ _ := trivial

namespace Unobserved

variable {s t : StateDB}

/-- States are the same but for their observations. -/
abbrev Same (s t : StateDB) : Prop := SettleFrame.unobserved.1.Linked s t

theorem recordBlockCommitment (s : StateDB) (validator : Address) (epoch : UInt64) (slot : UInt32)
    (hash hash' : H256) :
    Same (s.recordBlockCommitment validator epoch slot hash).2
      (s.recordBlockCommitment validator epoch slot hash').2 := by
  have stored : SameStore (s.recordBlockCommitment validator epoch slot hash).2.storage
      (s.recordBlockCommitment validator epoch slot hash').2.storage := by
    refine ⟨?_, fun _ _ hk => ?_⟩
    · simp only [StateDB.recordBlockCommitment]
      split
      · exact isSome_map.trans isSome_map.symm
      · rfl
    · rw [s.read_recordBlockCommitment _ _ _ _ hk, s.read_recordBlockCommitment _ _ _ _ hk]
  exact .mk stored trivial trivial

theorem recordMissedSlot (h : Same s t) (epoch : UInt64) (validator : Address) :
    Same (s.recordMissedSlot epoch validator) (t.recordMissedSlot epoch validator) := by
  cases h with
  | mk hs =>
    refine .mk ⟨isSome_map.trans (hs.1.trans isSome_map.symm),
      fun column key hk => ?_⟩ trivial trivial
    rw [StateDB.read_recordMissedSlot _ _ _ hk, hs.2 _ _ hk]
    exact (read_write_of_ne _ _ (ne_of_observationKey hk).2).symm

theorem flushedTrie (h : Same s t) : s.flushedTrie = t.flushedTrie := by
  cases h
  rfl

/-- Evidence of the same validity against the same header. -/
theorem processEvidence (h : Same s t) {prior header header' : BlockHeader}
    (hvalid : DoubleSignEvidence.isValid ⟨prior, header⟩ = DoubleSignEvidence.isValid ⟨prior,
    header'⟩) (bps : UInt16) (epoch : Epoch) :
    Same (processEvidence s ⟨prior, header⟩ bps epoch).2
      (processEvidence t ⟨prior, header'⟩ bps epoch).2 := by
  unfold Executor.processEvidence
  dsimp only [DoubleSignEvidence.offender]
  rw [hvalid, h.slashingEvidenceSeen, h.getAccount, h.applySlash.1]
  split
  · exact h
  · split
    · exact h.applySlash.2
    · exact h.applySlash.2.recordSlash.markSlashingEvidence

end Unobserved

/-! ## Blocks that claim something else -/

/-- The header with other claims about the execution of its block. -/
def BlockHeader.claiming (header : BlockHeader) (stateRoot receiptsRoot : H256) (gasUsed : UInt64) :
    BlockHeader :=
  { header with stateRoot, receiptsRoot, gasUsed }

/-- The block with other claims about its execution. -/
def Block.claiming (block : Block) (stateRoot receiptsRoot : H256) (gasUsed : UInt64) : Block :=
  { block with header := block.header.claiming stateRoot receiptsRoot gasUsed }

namespace Chain

variable [Crypto] {c : Chain} {header head parent : BlockHeader} {stateRoot root : H256}
  {gas : UInt64} {epoch : Epoch} {now : UInt64} {block : Block} {staked : Amount}

/-- A header fits the receipts of its transactions: the gas, the root, one receipt for each
transaction, and the gas limit. -/
structure Commits (block : Block) (receipts : List TransactionReceipt) : Prop where
  gasUsed : block.header.gasUsed.toNat = gasSum receipts
  receiptsRoot : block.header.receiptsRoot = receiptsRoot receipts
  complete : receipts.length = block.transactions.length
  limit : gasSum receipts ≤ block.header.gasLimit.toNat

/-- The known blocks that a new header conflicts with do not depend on its hash. -/
theorem conflicting_of_fresh (hfresh : c.headers[header.hash]? = none) (prior : Option H256) :
    c.conflicting header prior = prior.bind fun hash => c.headers[hash]? := by
  cases prior with
  | none => rfl
  | some hash =>
    by_cases heq : hash = header.hash
    · simp [conflicting, heq, hfresh]
    · simp [conflicting, Option.filter, heq]

/-- A known header and a new one of its slot are evidence, whatever else the new one says. -/
theorem isValid_of_fresh {prior : BlockHeader} (hprior : c.headers[prior.hash]? = some prior)
    (hfresh : c.headers[header.hash]? = none)
    (hfresh' : c.headers[(header.claiming stateRoot root gas).hash]? = none) :
    DoubleSignEvidence.isValid ⟨prior, header⟩ =
      DoubleSignEvidence.isValid ⟨prior, header.claiming stateRoot root gas⟩ := by
  have differs : ∀ {h : BlockHeader}, c.headers[h.hash]? = none →
      (prior.signableBytes != h.signableBytes) = true := by
    intro h hnone
    refine bne_iff_ne.2 fun heq => ?_
    have same : prior.hash = h.hash := congrArg blake3Hash heq
    rw [same, hnone] at hprior
    cases hprior
  simp only [DoubleSignEvidence.isValid, differs hfresh, differs hfresh']
  rfl

/-- The rival of a new block does not depend on what its header claims. -/
theorem rival_claiming (hfresh : c.headers[header.hash]? = none)
    (hfresh' : c.headers[(header.claiming stateRoot root gas).hash]? = none) :
    c.rival (header.claiming stateRoot root gas) = c.rival header := by
  rw [rival, rival, conflicting_of_fresh hfresh, conflicting_of_fresh hfresh']
  rfl

theorem observeBlock_claiming
    (hkeyed : ∀ ⦃hash : H256⦄ ⦃known : BlockHeader⦄, c.headers[hash]? = some known →
    known.hash = hash) (hfresh : c.headers[header.hash]? = none)
    (hfresh' : c.headers[(header.claiming stateRoot root gas).hash]? = none) (epoch : Epoch) :
    Unobserved.Same (c.observeBlock header epoch).state
      (c.observeBlock (header.claiming stateRoot root gas) epoch).state := by
  have recorded := Unobserved.recordBlockCommitment c.state header.validator header.epoch
    header.slot header.hash (header.claiming stateRoot root gas).hash
  have rival_eq := rival_claiming hfresh hfresh'
  cases hrival : c.rival header with
  | none =>
    rw [observeBlock_state_of_none hrival, observeBlock_state_of_none (rival_eq.trans hrival)]
    exact recorded
  | some prior =>
    rw [observeBlock_state_of_some hrival, observeBlock_state_of_some (rival_eq.trans hrival)]
    refine Unobserved.processEvidence recorded (isValid_of_fresh ?_ hfresh hfresh') _ _
    rw [rival, conflicting_of_fresh hfresh] at hrival
    obtain ⟨_, -, hprior⟩ := bind_eq_some_iff.1 hrival
    rwa [hkeyed hprior]

/-- Noting a new block comes to the same but for the observations, whatever its header claims. -/
theorem noted_claiming (stateRoot root : H256) (gas : UInt64) (t : Tree c head)
    (hfresh : c.headers[header.hash]? = none)
    (hfresh' : c.headers[(header.claiming stateRoot root gas).hash]? = none) (parent : BlockHeader)
    (epoch : Epoch) :
    Unobserved.Same (c.noted header parent epoch).state
      (c.noted (header.claiming stateRoot root gas) parent epoch).state := by
  have entered : (c.enterEpoch epoch).headers = c.headers := by
    rw [enterEpoch_moved]
    rfl
  have observed := observeBlock_claiming (c := c.enterEpoch epoch) (entered ▸ t.keyed)
    (entered ▸ hfresh) (entered ▸ hfresh') epoch
  have set_eq (h : BlockHeader) :
      ((c.enterEpoch epoch).observeBlock h epoch).validatorSet =
      (c.enterEpoch epoch).validatorSet := by
    rw [observeBlock_moved]
    rfl
  have skip : ∀ (leaders : List Address) {s t : StateDB}, Unobserved.Same s t → Unobserved.Same
      (leaders.foldl (fun db v => db.recordMissedSlot header.epoch v) s)
      (leaders.foldl (fun db v => db.recordMissedSlot header.epoch v) t) := by
    intro leaders
    induction leaders with
    | nil => exact fun h => h
    | cons v _ ih => exact fun h => ih (Unobserved.recordMissedSlot h _ v)
  unfold noted trackMissedSlots
  rw [set_eq, set_eq]
  exact skip _ observed

/-- A block is admitted whatever it claims, if its hash is new. -/
theorem Admitted.claiming (h : Admitted now block c parent epoch staked)
    (hc : c.validatorSet.Keyless)
    (hfresh : c.headers[(block.claiming stateRoot root gas).header.hash]? = none) :
    Admitted now (block.claiming stateRoot root gas) c parent epoch staked where
  checked := by
    have checked := checkBlock_ok_iff.1 h.checked
    exact checkBlock_ok_iff.2 ⟨hfresh, checked.known, checked.final, checked.checkpoint,
      checked.later, checked.drift, checked.root⟩
  staked_eq := h.staked_eq
  epoch_eq := h.epoch_eq
  verified := by
    obtain ⟨producer, v⟩ := ConsensusEngine.verifyHeader_ok_iff.1 h.verified
    refine ConsensusEngine.verifyHeader_ok_iff.2 ⟨producer, v.number, v.parentHash,
      v.timestamp, v.scheduled, v.validator, v.epoch, v.slot, ?_⟩
    rw [ConsensusEngine.verifyHeaderSignature,
      enterEpoch_keyless hc epoch producer (ConsensusEngine.blockProducer_mem v.scheduled)]

variable [Wasm] [Environment]

/-- The state that the transactions of a block are executed on: the epoch was entered, the block
noted and the matured unbonding entries released. -/
def beforeTransactions (c : Chain) (block : Block) : Option StateDB := do
  let parent ← c.headers[block.header.parentHash]?
  let epoch ← c.consensus.epochForBlock block.header.number
  let release : DbM Empty Amount := Db.processUnbonding block.header.timestamp
  match ← release.run (c.noted block.header parent epoch).state with
  | (.ok _, state) => some state

/-- The receipts of executing all transactions of a block, without looking at its gas limit. -/
def fullReceipts (c : Chain) (block : Block) : Option (List TransactionReceipt) := do
  let state ← c.beforeTransactions block
  let execution : DbM Empty (List TransactionReceipt) :=
    executeAll (c.blockContext block.header) block.transactions
  match ← execution.run state with
  | (.ok receipts, _) => some receipts

/-- A block that was noted is executed in the context of the chain. -/
theorem runBlock_noted_iff {executed : Chain} {receipts : List TransactionReceipt} :
    (runBlock block none staked).run (c.noted block.header parent epoch) =
      some (.ok receipts, executed) ↔
      ∃ state, executed = (c.noted block.header parent epoch).withState state ∧
        (executeBlock (c.blockContext block.header) c.consensus.params block staked).run
          (c.noted block.header parent epoch).state = some (.ok receipts, state) := by
  have context : (c.noted block.header parent epoch).blockContext block.header =
      c.blockContext block.header := by
    rw [noted_moved]
    rfl
  have params : (c.noted block.header parent epoch).consensus.params = c.consensus.params := by
    rw [noted_moved]
    rfl
  rw [← context, ← params]
  constructor
  · intro hrun
    obtain ⟨_, heq, ⟨hnone, -⟩ | ⟨-, state, rfl, hexec⟩⟩ := runBlock_ok hrun
    · cases hnone
    cases heq
    exact ⟨state, rfl, hexec⟩
  · rintro ⟨_, rfl, hexec⟩
    exact runBlock_of_execute hexec

/-- The parts of executing an admitted block: its transactions, and then the settlement. -/
theorem runBlock_parts {executed : Chain} {receipts : List TransactionReceipt}
    (admitted : Admitted now block c parent epoch staked)
    (hrun : (runBlock block none staked).run (c.noted block.header parent epoch) =
      some (.ok receipts, executed)) :
    ∃ state total t released summary, c.beforeTransactions block = some state ∧
      (Db.processUnbonding block.header.timestamp : DbM Empty Amount).run
        (c.noted block.header parent epoch).state = some (.ok released, state) ∧
      (executeTransactions (c.blockContext block.header) block.header.gasLimit block.transactions
        [] 0 : DbM Empty _).run state = some (.ok (receipts, total), t) ∧
      (applyBlockRewardsAndGovernance block.header.number block.header.gasUsed
        (c.blockContext block.header).gasConfig block.header.validator staked c.consensus.params :
        SettleM Empty _).run t = some (.ok summary, executed.state) := by
  obtain ⟨_, rfl, hexec⟩ := runBlock_noted_iff.1 hrun
  obtain ⟨⟨_, total⟩, s₂, htxs, hrest⟩ := run_bind_ok hexec
  obtain ⟨released, s₁, hrelease, hall⟩ := run_bind_ok htxs
  obtain ⟨summary, _, hsettle, hlast⟩ := run_bind_ok hrest
  obtain ⟨rfl, rfl⟩ := hlast
  refine ⟨s₁, total, s₂, released, summary, ?_, hrelease, hall, hsettle⟩
  have known := (checkBlock_ok_iff.1 admitted.checked).known
  have release : (Db.processUnbonding block.header.timestamp : DbM Empty _).run
      (c.noted block.header parent epoch).state = some (.ok released, s₁) := hrelease
  simp only [beforeTransactions, known, admitted.epoch_eq, bind_eq_bind, bind_some, release]

/-- The receipts of an accepted block are those of executing its transactions up to the gas
limit. -/
theorem accepted_receipts {c' : Chain} {r : ImportResult}
    (h : (importBlock now block).run c = some (.ok r, c')) :
    ∃ state total t, c.beforeTransactions block = some state ∧
      (executeTransactions (c.blockContext block.header) block.header.gasLimit block.transactions
        [] 0 : DbM Empty _).run state = some (.ok (r.receipts, total), t) := by
  have outcome := importBlockImpl_iff.1 h
  cases outcome with
  | @accepted _ _ _ _ _ admitted hrun _ =>
    obtain ⟨state, total, t, _, _, hbefore, -, hall, -⟩ := runBlock_parts admitted hrun
    exact ⟨state, total, t, hbefore, hall⟩

/-- The state root after a block is executed and settled with the given gas. -/
def settledRoot (c : Chain) (block : Block) (gasUsed : UInt64) : Option H256 := do
  let parent ← c.headers[block.header.parentHash]?
  let epoch ← c.consensus.epochForBlock block.header.number
  let staked ← c.validatorSet.totalStake
  let claimed := block.claiming block.header.stateRoot block.header.receiptsRoot gasUsed
  match ← (executeBlock (c.blockContext block.header) c.consensus.params claimed staked).run
      (c.noted block.header parent epoch).state with
  | (.ok _, state) => some state.flushedTrie.root

/-- An admitted block is accepted if the state root is that of executing it. -/
theorem Admitted.accepted_iff {receipts : List TransactionReceipt}
    (h : Admitted now block c parent epoch staked) :
    (∃ r c', (importBlock now block).run c = some (.ok r, c') ∧ r.receipts = receipts) ↔
      ∃ state, (executeBlock (c.blockContext block.header) c.consensus.params block staked).run
        (c.noted block.header parent epoch).state = some (.ok receipts, state) ∧
        block.header.stateRoot = state.flushedTrie.root := by
  constructor
  · rintro ⟨r, c', hrun, rfl⟩
    cases outcome_of_run hrun with
    | accepted hadm hblock hroot =>
      obtain ⟨rfl, rfl, rfl⟩ := h.toEntry.unique hadm.toEntry
      obtain ⟨state, rfl, hexec⟩ := runBlock_noted_iff.1 hblock
      exact ⟨state, hexec, hroot⟩
  · rintro ⟨state, hexec, hroot⟩
    exact ⟨_, _,
      importBlockImpl_iff.2 (.accepted h (runBlock_noted_iff.2 ⟨state, rfl, hexec⟩) hroot), rfl⟩

/-- The receipts of a block do not depend on what its header claims. -/
theorem receipts_claiming {ctx : BlockContext} {params : ConsensusParams} {s t t' : StateDB}
    {receipts receipts' : List TransactionReceipt}
    (h : (executeBlock ctx params block staked).run s = some (.ok receipts, t))
    (h' : (executeBlock ctx params (block.claiming stateRoot root gas) staked).run s =
      some (.ok receipts', t')) :
    receipts' = receipts := by
  obtain ⟨_, _, htxs, hrest⟩ := run_bind_ok h
  obtain ⟨_, _, -, hlast⟩ := run_bind_ok hrest
  obtain ⟨_, _, htxs', hrest'⟩ := run_bind_ok h'
  obtain ⟨_, _, -, hlast'⟩ := run_bind_ok hrest'
  cases htxs.symm.trans htxs'
  cases hlast
  cases hlast'
  rfl

/-- Imports reach trees only. -/
theorem exists_tree_of_run {genesis : Block} {c₀ : Chain} {calls : List (UInt64 × Block)}
    (hstart : StartedFresh genesis c₀) (hrun : Run ImportStep c₀ calls c) :
    ∃ head, Tree c head := by
  refine hrun.invariant (I := fun c => ∃ head, Tree c head) ?_ ⟨_, hstart.tree⟩
  rintro _ ⟨_, _⟩ _ hstep ⟨head, t⟩
  obtain ⟨state, vs, rfl⟩ | ⟨_, state, vs, hchecked, -, rfl⟩ := hstep.cases
  · exact ⟨head, t.moved state vs⟩
  · exact ⟨_, t.withBlock hchecked.fresh state vs⟩

/-- An accepted block has one receipt for each transaction, within its gas limit, exactly if
executing all of them keeps to the limit. -/
theorem accepted_complete_iff {c' : Chain} {r : ImportResult}
    (h : (importBlock now block).run c = some (.ok r, c')) :
    (r.receipts.length = block.transactions.length ∧
      gasSum r.receipts ≤ block.header.gasLimit.toNat) ↔
      ∃ receipts, c.fullReceipts block = some receipts ∧
      WithinLimit block.header.gasLimit 0 receipts := by
  obtain ⟨_, _, _, hbefore, hexec⟩ := accepted_receipts h
  constructor
  · rintro ⟨hcomplete, hlimit⟩
    rw [← Nat.zero_add (gasSum _), ← UInt64.toNat_zero] at hlimit
    obtain ⟨hall, hwithin⟩ := executeAll_of_complete hexec hcomplete hlimit
    refine ⟨r.receipts, ?_, hwithin⟩
    simp only [fullReceipts, hbefore, bind_eq_bind, bind_some, hall]
  · rintro ⟨_, hfull, hwithin⟩
    simp only [fullReceipts, hbefore, bind_eq_bind, bind_some] at hfull
    obtain ⟨⟨result, _⟩, hall, hreceipts⟩ := bind_eq_some_iff.1 hfull
    cases result with
    | error e => cases e
    | ok receipts' =>
      obtain rfl := some.inj hreceipts
      have hstart : WithinLimit block.header.gasLimit (0 : UInt64).toNat receipts' := hwithin
      obtain ⟨_, hexec'⟩ := executeTransactions_of_withinLimit hall hstart []
      have same := hexec.symm.trans hexec'
      rw [some.injEq, Prod.mk.injEq, Except.ok.injEq, Prod.mk.injEq, List.nil_append] at same
      rw [same.1.1]
      have hlimit := hwithin.gasSum_le
      rw [Nat.zero_add] at hlimit
      exact ⟨executeAll_length _ _ hall, hlimit⟩

/-- What an accepted block shows of its header. It has one receipt for each transaction, within the
gas limit, exactly if executing all of them keeps to the limit. Its other claims could be any: with
another receipts root and another gas it is accepted all the same, with the same receipts, exactly
if its state root is that of settling the gas it claims. -/
theorem accepted_claims {genesis : Block} {c₀ c c' : Chain} {calls : List (UInt64 × Block)}
    {now : UInt64} {block : Block} {r : ImportResult} (hstart : StartedFresh genesis c₀)
    (hrun : Run ImportStep c₀ calls c) (h : (importBlock now block).run c = some (.ok r, c')) :
    ((r.receipts.length = block.transactions.length ∧
      gasSum r.receipts ≤ block.header.gasLimit.toNat) ↔
      ∃ receipts, c.fullReceipts block = some receipts ∧
      WithinLimit block.header.gasLimit 0 receipts) ∧
    ∀ stateRoot receiptsRoot gasUsed,
      c.headers[(block.claiming stateRoot receiptsRoot gasUsed).header.hash]? = none →
      ((∃ r' c'', (importBlock now (block.claiming stateRoot receiptsRoot gasUsed)).run c =
          some (.ok r', c'') ∧ r'.receipts = r.receipts) ↔
        c.settledRoot block gasUsed = some stateRoot) := by
  refine ⟨accepted_complete_iff h, fun stateRoot receiptsRoot gasUsed hfresh => ?_⟩
  obtain ⟨_, t⟩ := exists_tree_of_run hstart hrun
  have hkeyless : c.validatorSet.Keyless := Reached.keyless ⟨c₀, calls, hstart.started, hrun⟩
  cases outcome_of_run h with
  | @accepted parent epoch staked receipts _ hadm _ _ =>
    have known := checkBlock_ok_iff.1 hadm.checked
    obtain ⟨_, hexec, -⟩ := hadm.accepted_iff.1 ⟨_, _, h, rfl⟩
    refine (hadm.claiming hkeyless hfresh).accepted_iff.trans ?_
    simp only [settledRoot, known.known, hadm.epoch_eq, hadm.staked_eq, bind_eq_bind, bind_some]
    constructor
    · rintro ⟨_, hclaimed, hroot⟩
      -- what was noted differs, and no transaction reads it
      have linked :=
        noted_claiming block.header.stateRoot block.header.receiptsRoot block.header.gasUsed t
          hfresh known.fresh parent epoch
      obtain ⟨_, hown, hsame⟩ :=
        ((executeBlock _ _ _ staked).respects .unobserved linked).exists_right hclaimed
      have hown : (executeBlock (c.blockContext block.header) c.consensus.params
          (block.claiming block.header.stateRoot block.header.receiptsRoot gasUsed) staked).run
          (c.noted block.header parent epoch).state = _ := hown
      rw [hown, show stateRoot = _ from hroot, Unobserved.flushedTrie hsame]
      rfl
    · intro hroot
      obtain ⟨⟨result, _⟩, hown, hlast⟩ := bind_eq_some_iff.1 hroot
      cases result with
      | error e => cases e
      | ok receipts' =>
        obtain rfl := receipts_claiming hexec hown
        have linked := noted_claiming _ _ _ t known.fresh hfresh parent epoch
        obtain ⟨u, hclaimed, hsame⟩ :=
          ((executeBlock _ _ _ staked).respects .unobserved linked).exists_right hown
        refine ⟨u, hclaimed, ?_⟩
        rw [← Unobserved.flushedTrie hsame]
        exact (some.inj hlast).symm

end Chain

/-! ## On the small chain -/

namespace Demo

open Chain

/-- The root over the receipt of the transfer. -/
def transferReceipts : H256 :=
  ⟨63914127230689831683860271043483532698533143461943075795422402676672284004752⟩

/-- The state root after a block with the transfer. -/
def transferRoot : H256 :=
  ⟨3701167673428574241411451023692773378739039930042270088951772875973880753209⟩

/-- The state root after a block without transactions that claims to have used a million of gas. -/
def inflatedRoot : H256 :=
  ⟨68893689243431069035959106405543893618747902453656923737012931821234121286154⟩

/-- A block with the transfer keeps to its gas limit, and is accepted with any other receipts root,
such as zero. -/
theorem transferBlock_claims : ∃ genesis c block r c', StartedFresh genesis c ∧
    block.transactions = [transfer] ∧
      (importBlock 0 block).run c = some (.ok r, c') ∧
      r.receipts.length = block.transactions.length ∧ gasSum r.receipts ≤
        block.header.gasLimit.toNat ∧
      ∃ r' c'', (importBlock 0
        (block.claiming block.header.stateRoot .zero block.header.gasUsed)).run c =
          some (.ok r', c'') ∧ r'.receipts = r.receipts := by
  obtain ⟨genesis, c, header, _, h₀, -, himport, hcheck⟩ := exists_grown
    (fun g => [firstBlockWith g [transfer] 21000 transferReceipts transferRoot])
    (fun c g _ =>
      let block := firstBlockWith g [transfer] 21000 transferReceipts transferRoot
      (c.fullReceipts block).any (fun receipts => WithinLimit blockGasLimit 0 receipts) &&
        (c.headers[(block.claiming transferRoot .zero 21000).header.hash]?).isNone &&
        c.settledRoot block 21000 = some transferRoot)
    (by decide +kernel)
  simp only [Bool.and_eq_true, any_eq_true, isNone_iff_eq_none, decide_eq_true_eq] at hcheck
  obtain ⟨⟨⟨receipts, hfull, hwithin⟩, hfresh⟩, hroot⟩ := hcheck
  obtain ⟨r, c₁, hrun, -⟩ := importAll_cons himport
  obtain ⟨hlimit, hclaims⟩ := accepted_claims h₀ .nil hrun
  obtain ⟨hcomplete, hbelow⟩ := hlimit.2 ⟨receipts, hfull, hwithin⟩
  exact ⟨genesis, c, _, r, c₁, h₀, rfl, hrun, hcomplete, hbelow,
    (hclaims transferRoot .zero 21000 hfresh).2 hroot⟩

/-- A block without transactions claims to have used gas and is accepted. -/
theorem inflatedBlock_not_commits : ∃ genesis c now block r c', StartedFresh genesis c ∧
      (importBlock now block).run c = some (.ok r, c') ∧ ¬ Commits block r.receipts := by
  obtain ⟨genesis, c, _, _, h₀, -, himport, -⟩ := exists_grown
    (fun g => [firstBlockWith g [] 1000000 (receiptsRoot []) inflatedRoot]) (fun _ _ _ => true)
    (by decide +kernel)
  obtain ⟨r, c₁, hrun, -⟩ := importAll_cons himport
  refine ⟨genesis, c, 0, _, r, c₁, h₀, hrun, fun commits => ?_⟩
  have empty : r.receipts = [] := List.eq_nil_of_length_eq_zero commits.complete
  have gas : (1000000 : UInt64).toNat = gasSum r.receipts := commits.gasUsed
  rw [empty] at gas
  exact absurd gas (by decide)

end Demo

end Vtt
