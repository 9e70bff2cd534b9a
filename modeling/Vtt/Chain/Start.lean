import Vtt.Chain.Outcome
import Vtt.Chain.Resume
import Vtt.Genesis
import Vtt.Lib.Runs

/-!
# Started chains and their runs

A chain is started by `initGenesis` with the block and the state of an accepted genesis
configuration, in memory or on a store. On a store that holds a chain already, that chain is
resumed.
-/

namespace Vtt

open Lib Std ExtTreeMap Option

namespace Chain

variable [Crypto]

variable {genesisState : StateDB}

/-! ## What resuming a chain leaves alone -/

variable {c c' c₀ : Chain} {genesis : Block} {hash : H256} {store : Store}

theorem backfillTxIndex_moved (number : UInt64) :
    c.backfillTxIndex number = c.moved (c.backfillTxIndex number).state c.validatorSet := by
  unfold backfillTxIndex
  split
  · rfl
  · rw [persist_moved]
    rfl

theorem checkResumedRoot_moved (c : Chain) (head : BlockHeader) :
    c.checkResumedRoot head = c.moved (c.checkResumedRoot head).state c.validatorSet := by
  unfold checkResumedRoot
  dsimp only
  split
  · rfl
  split
  · rfl
  · rw [persist_moved]
    rfl

omit [Crypto] in
/-- The walk from the head keeps every header it has found. -/
theorem walkBack_mem {rounds : Nat} {key : H256} (h : walkBack store rounds hash c = some c')
    (hkey : key ∈ c.headers) :
    key ∈ c'.headers := by
  induction rounds generalizing hash c with
  | zero => cases h
  | succ _ ih =>
    rw [walkBack] at h
    split at h
    · rwa [← some.inj h]
    · split at h
      · rw [← some.inj h]
        exact mem_insert.2 (.inr hkey)
      · exact ih h (mem_insert.2 (.inr hkey))

omit [Crypto] in
/-- A walk that finds no header leaves the chain as it was. -/
theorem walkBack_eq_of_isEmpty {rounds : Nat} (h : walkBack store rounds hash c = some c')
    (hempty : c'.headers.isEmpty = true) : c' = c := by
  have not_mem : ∀ key, key ∉ c'.headers := by
    intro _ hkey
    rw [isEmpty_iff.1 hempty] at hkey
    exact not_mem_empty hkey
  cases rounds with
  | zero => cases h
  | succ =>
    rw [walkBack] at h
    split at h
    · exact (some.inj h).symm
    · split at h
      · rw [← some.inj h] at not_mem
        exact absurd (mem_insert_self) (not_mem hash)
      · exact absurd (walkBack_mem h mem_insert_self) (not_mem hash)

/-- A chain that is resumed without a head is the one it was resumed on. -/
theorem resumeFromStorage_eq_of_none (h : c.resumeFromStorage store = some c')
    (hhead : c'.headHash = none) :
    c' = c := by
  unfold resumeFromStorage at h
  split at h
  · exact (some.inj h).symm
  split at h
  · exact (some.inj h).symm
  obtain ⟨_, hwalk, hrest⟩ := bind_eq_some_iff.1 h
  split at hrest
  · rename_i hempty
    cases hrest
    exact walkBack_eq_of_isEmpty hwalk hempty
  · dsimp only at hrest
    split at hrest
    · rw [← some.inj hrest] at hhead
      cases hhead
    · obtain ⟨_, -, hlast⟩ := bind_eq_some_iff.1 hrest
      rw [← some.inj hlast, checkResumedRoot_moved] at hhead
      cases hhead

/-! ## Starting -/

/-- A chain on a genesis block, with its validators elected. -/
def onGenesis (c : Chain) (genesis : Block) (state : StateDB) : Chain :=
  { c with
    state
    validatorSet := c.consensus.electValidators state 0
    headers := c.headers.insert genesis.header.hash genesis.header
    bodies := c.bodies.insert genesis.header.hash genesis
    canonical := c.canonical.insert 0 genesis.header.hash
    headHash := some genesis.header.hash }

/-- A store with the genesis block written to it. -/
def writeGenesis (storage : Storage) (genesis : Block) : Storage :=
  let hash := genesis.header.hash.asBytes
  let storage := storage.write .blockHeaders hash (Borsh.serialize genesis.header)
  let storage := storage.write .blockBodies hash (Borsh.serialize genesis)
  let storage := storage.write .chainIndex (canonicalKey 0) hash
  storage.write .chainMeta (ascii "head_hash") hash

/-- A chain without a head starts on the genesis block and adopts its state, on the store if there
is one. -/
theorem initGenesis_fresh (hfresh : c₀.headHash = none)
    (h : (initGenesis genesis genesisState).run c₀ = some (.ok hash, c)) :
    ∃ adopted, (if c₀.persistent then c₀.state.storage.bind genesisState.attachStorage
        else some genesisState) = some adopted ∧
      c = c₀.onGenesis genesis ((c₀.withState adopted).persist (writeGenesis · genesis)).state := by
  simp only [initGenesis, Exec.run_view_bind, hfresh] at h
  obtain ⟨state, hadopted, hrest⟩ := Exec.run_unwrap_bind h
  simp only [Exec.run_update_bind, Exec.run_pure, some.injEq, Prod.mk.injEq] at hrest
  obtain ⟨-, rfl⟩ := hrest
  rw [persist_moved]
  exact ⟨state, hadopted, rfl⟩

/-- A chain with a head stays as it is, or elects its validators again. -/
theorem initGenesis_resumed {head : H256} (hhead : c₀.headHash = some head)
    (h : (initGenesis genesis genesisState).run c₀ = some (.ok hash, c)) :
    c = c₀ ∨ ∃ state epoch, c = c₀.moved state (c₀.consensus.electValidators state epoch) := by
  simp only [initGenesis, Exec.run_view_bind, hhead] at h
  obtain ⟨_, c₁, hsame, hrest⟩ := Exec.run_bind_ok h
  obtain rfl : c₁ = c₀ := by
    unfold Exec.require at hsame
    split at hsame
    · exact (Prod.mk.inj (some.inj hsame)).2.symm
    · cases hsame
  rw [Exec.run_view_bind] at hrest
  split at hrest
  · simp only [Exec.run_view_bind, Exec.run_update_bind] at hrest
    obtain ⟨epoch, -, hlast⟩ := Exec.run_unwrap_bind hrest
    obtain rfl := (Prod.mk.inj (some.inj hlast)).2
    exact .inr ⟨_, epoch, rfl⟩
  · left
    exact (Prod.mk.inj (some.inj hrest)).2.symm

/-- A chain before its genesis: in memory, or as loaded from a store. -/
inductive Opened (engine : ConsensusEngine) (gas : GasConfig) : Chain → Prop where
  | memory : Opened engine gas (new engine gas)
  | stored {store : Store} {c : Chain} : withStorage engine gas store = some c → Opened engine gas c

/-- A chain that has no head before its genesis has no blocks. -/
theorem Opened.empty {engine : ConsensusEngine} {gas : GasConfig} (h : Opened engine gas c)
    (hhead : c.headHash = none) : c.headers = ∅ ∧ c.bodies = ∅ ∧ c.canonical = ∅ := by
  cases h with
  | memory => exact ⟨rfl, rfl, rfl⟩
  | stored h =>
    obtain ⟨_, -, hstate⟩ := bind_eq_some_iff.1 h
    obtain ⟨_, -, hresume⟩ := bind_eq_some_iff.1 hstate
    obtain rfl := resumeFromStorage_eq_of_none hresume hhead
    exact ⟨rfl, rfl, rfl⟩

/-- A chain that was started with an accepted genesis. -/
inductive Started : Chain → Prop where
  | start {config : GenesisConfig} {engine : ConsensusEngine} {gas : GasConfig} {block : Block}
      {state : StateDB} {c₀ c : Chain} {hash : H256} :
      Genesis.buildGenesis config = some (block, state) → Opened engine gas c₀ →
      (initGenesis block state).run c₀ = some (.ok hash, c) → Started c

/-- A chain that was started with an accepted genesis block and had no blocks before. -/
inductive StartedFresh (genesis : Block) : Chain → Prop where
  | start {config : GenesisConfig} {engine : ConsensusEngine} {gas : GasConfig} {state : StateDB}
      {c₀ c : Chain} {hash : H256} :
      Genesis.buildGenesis config = some (genesis, state) → Opened engine gas c₀ →
      c₀.headHash = none → (initGenesis genesis state).run c₀ = some (.ok hash, c) →
      StartedFresh genesis c

theorem StartedFresh.started (h : StartedFresh genesis c) : Started c := by
  cases h with
  | start hbuild hopened _ hrun => exact .start hbuild hopened hrun

/-- A freshly started chain has its genesis block and nothing else. -/
theorem StartedFresh.onGenesis (h : StartedFresh genesis c) :
    ∃ (c₀ : Chain) (state : StateDB), c₀.headers = ∅ ∧ c₀.bodies = ∅ ∧ c₀.canonical = ∅ ∧
      genesis.header.number = 0 ∧ c = c₀.onGenesis genesis state := by
  cases h with
  | @start _ _ _ _ c₀ _ _ hbuild hopened hhead hrun =>
    obtain ⟨_, -, rfl⟩ := initGenesis_fresh hhead hrun
    obtain ⟨hheaders, hbodies, hcanonical⟩ := hopened.empty hhead
    obtain ⟨_, -, rfl, -⟩ := Genesis.exists_setupState hbuild
    exact ⟨c₀, _, hheaders, hbodies, hcanonical, rfl, rfl⟩

variable [Wasm] [Environment]

/-- One call of `importBlock`, whatever it returns. The label is the wall clock and the block. -/
def ImportStep (c : Chain) (call : UInt64 × Block) (c' : Chain) : Prop :=
  ∃ r, (importBlock call.1 call.2).run c = some (r, c')

/-- A started chain after any number of imports. -/
def Reached (c : Chain) : Prop :=
  ∃ c₀ calls, Started c₀ ∧ Run ImportStep c₀ calls c

/-- A block is accepted by a chain. -/
def Accepts (c : Chain) (now : UInt64) (block : Block) : Prop :=
  ∃ r c', (importBlock now block).run c = some (.ok r, c')

/-- Import blocks in turn at a time, as long as they are accepted. -/
def importAll (now : UInt64) (c : Chain) : List Block → Option Chain
  | [] => some c
  | block :: rest =>
    match (importBlock now block).run c with
    | some (.ok _, c') => importAll now c' rest
    | _ => none

theorem importAll_cons {now : UInt64} {block : Block} {rest : List Block}
    (h : importAll now c (block :: rest) = some c') :
    ∃ r c₁, (importBlock now block).run c = some (.ok r, c₁) ∧ importAll now c₁ rest = some c' := by
  unfold importAll at h
  split at h
  · rename_i hrun
    exact ⟨_, _, hrun, h⟩
  · cases h

/-- Blocks that are imported in turn make a run. -/
theorem importAll_run {now : UInt64} {calls : List (UInt64 × Block)} {blocks : List Block}
    (hrun : Run ImportStep c₀ calls c) (h : importAll now c blocks = some c') :
    Run ImportStep c₀ (calls ++ blocks.map (now, ·)) c' := by
  induction blocks generalizing c calls with
  | nil =>
    cases h
    simpa using hrun
  | cons block _ ih =>
    obtain ⟨r, c₁, hstep, hrest⟩ := importAll_cons h
    have step : ImportStep c (now, block) c₁ := ⟨.ok r, hstep⟩
    simpa using ih (hrun.snoc step) hrest

end Chain

end Vtt
