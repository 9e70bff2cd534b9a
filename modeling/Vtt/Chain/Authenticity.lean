import Vtt.Demo

/-!
# Signatures of imported blocks

The consensus engine verifies the signature of a header only if the validator set knows the public
key of the producer. An election never puts a key into the set, so the signature of an imported
block is not looked at: an accepted block is accepted with every signature.
-/

namespace Vtt

open Lib Executor ConsensusEngine Option List
open Option (some.inj)

section Authenticity

/-- No public key of the validators is known. -/
def ValidatorSet.Keyless (vs : ValidatorSet) : Prop := ∀ v ∈ vs.validators, v.publicKey = none

variable [Crypto]

/-! ## Validator sets without keys -/

namespace ConsensusEngine

variable {e : ConsensusEngine} {v : ValidatorInfo} {vs : ValidatorSet}

omit [Crypto] in
theorem candidate_publicKey {address : Address} {account : AccountState}
    (h : e.candidate address account = some v) :
    v.publicKey = none := by
  obtain ⟨_, -, hv⟩ := bind_eq_some_iff.1 h
  split at hv
  · cases hv
  · cases hv
    rfl

omit [Crypto] in
/-- An election does not learn any key. -/
theorem electValidators_keyless (e : ConsensusEngine) (state : StateDB) (epoch : Epoch) :
    (e.electValidators state epoch).Keyless := by
  intro _ hv
  have hv := mem_of_mem_take hv
  rw [mem_insertionSort] at hv
  obtain ⟨_, -, hcandidate⟩ := mem_filterMap.1 hv
  exact candidate_publicKey hcandidate

omit [Crypto] in
theorem slotLeader_mem {slot : UInt32} (h : vs.slotLeader slot = some v) : v ∈ vs.validators :=
  mem_of_getElem? h

omit [Crypto] in
theorem blockProducer_mem {number : BlockNumber} (h : e.blockProducer vs number = some (.ok v)) :
    v ∈ vs.validators := by
  obtain ⟨_, -, hv⟩ := bind_eq_some_iff.1 h
  split at hv
  · rename_i hleader
    obtain rfl := Except.ok.inj (some.inj hv)
    exact slotLeader_mem hleader
  · cases hv

/-- Without keys a verified header is verified with every signature. -/
theorem Verified.withSignature {header parent : BlockHeader} {producer : ValidatorInfo}
    (h : Verified e header parent vs producer) (hvs : vs.Keyless) (signature : Signature) :
    Verified e (header.withSignature signature) parent vs producer where
  number := h.number
  parentHash := h.parentHash
  timestamp := h.timestamp
  scheduled := h.scheduled
  validator := h.validator
  epoch := h.epoch
  slot := h.slot
  signature := by rw [verifyHeaderSignature, hvs producer (blockProducer_mem h.scheduled)]

end ConsensusEngine

/-! ## Chains without keys -/

namespace Chain

variable {c c' : Chain}

omit [Crypto] in
theorem enterEpoch_keyless (h : c.validatorSet.Keyless) (epoch : Epoch) :
    (c.enterEpoch epoch).validatorSet.Keyless := by
  unfold enterEpoch
  split
  · exact electValidators_keyless _ _ _
  · exact h

omit [Crypto] in
theorem walkBack_validatorSet {store : Store} {rounds : Nat} {hash : H256}
    (h : walkBack store rounds hash c = some c') : c'.validatorSet = c.validatorSet := by
  induction rounds generalizing hash c with
  | zero => cases h
  | succ _ ih =>
    rw [walkBack] at h
    split at h
    · rw [some.inj h]
    · split at h
      · rw [← some.inj h]
      · rw [ih h]

/-- A resumed chain has the set it had, or an elected one. -/
theorem resumeFromStorage_keyless {store : Store} (hc : c.validatorSet.Keyless)
    (h : c.resumeFromStorage store = some c') : c'.validatorSet.Keyless := by
  unfold resumeFromStorage at h
  split at h
  · rwa [← some.inj h]
  split at h
  · rwa [← some.inj h]
  obtain ⟨c₁, hwalk, hrest⟩ := bind_eq_some_iff.1 h
  have hc₁ : c₁.validatorSet.Keyless := by rwa [walkBack_validatorSet hwalk]
  split at hrest
  · rwa [← some.inj hrest]
  dsimp only at hrest
  rw [backfillTxIndex_moved] at hrest
  split at hrest
  · rwa [← some.inj hrest]
  · obtain ⟨_, -, hlast⟩ := bind_eq_some_iff.1 hrest
    rw [← some.inj hlast, checkResumedRoot_moved]
    exact electValidators_keyless _ _ _

theorem Opened.keyless {engine : ConsensusEngine} {gas : GasConfig} (h : Opened engine gas c) :
    c.validatorSet.Keyless := by
  cases h with
  | memory => intro v hv; cases hv
  | stored h =>
    obtain ⟨_, -, h⟩ := bind_eq_some_iff.1 h
    obtain ⟨_, -, h⟩ := bind_eq_some_iff.1 h
    exact resumeFromStorage_keyless (fun v hv => by cases hv) h

theorem Started.keyless (h : Started c) : c.validatorSet.Keyless := by
  cases h with
  | @start _ _ _ _ _ c₀ _ _ _ hopened hrun =>
    cases hhead : c₀.headHash with
    | none =>
      obtain ⟨_, -, rfl⟩ := initGenesis_fresh hhead hrun
      exact electValidators_keyless _ _ _
    | some =>
      obtain rfl | ⟨_, _, rfl⟩ := initGenesis_resumed hhead hrun
      · exact hopened.keyless
      · exact electValidators_keyless _ _ _

theorem Admitted.withSignature {now : UInt64} {block : Block} {parent : BlockHeader} {epoch : Epoch}
    {staked : Amount} (h : Admitted now block c parent epoch staked) (hc : c.validatorSet.Keyless)
    (signature : Signature) :
    Admitted now (block.withSignature signature) c parent epoch staked where
  checked := h.checked
  staked_eq := h.staked_eq
  epoch_eq := h.epoch_eq
  verified := by
    obtain ⟨producer, hverified⟩ := verifyHeader_ok_iff.1 h.verified
    exact verifyHeader_ok_iff.2 ⟨producer,
      hverified.withSignature (enterEpoch_keyless hc epoch) signature⟩

variable [Wasm] [Environment]

theorem ImportStep.keyless {call : UInt64 × Block} (h : ImportStep c call c')
    (hc : c.validatorSet.Keyless) :
    c'.validatorSet.Keyless := by
  obtain ⟨_, hrun⟩ := h
  cases outcome_of_run hrun with
  | refused => exact hc
  | unverified => exact enterEpoch_keyless hc _
  | mismatched => exact hc
  | accepted _ hexec =>
    rw [storeBlock_eq, executed_moved hexec]
    exact enterEpoch_keyless hc _

/-- No chain ever learns a key. -/
theorem Reached.keyless (h : Reached c) : c.validatorSet.Keyless := by
  obtain ⟨_, _, hstart, hrun⟩ := h
  exact hrun.invariant (fun _ _ _ hstep => hstep.keyless) hstart.keyless

/-- A chain that accepts a block accepts it with every signature. -/
theorem Accepts.withSignature {now : UInt64} {block : Block} (h : c.Accepts now block)
    (hc : c.validatorSet.Keyless) (signature : Signature) :
    c.Accepts now (block.withSignature signature) := by
  obtain ⟨_, _, hrun⟩ := h
  cases outcome_of_run hrun with
  | accepted hadm hexec hroot =>
    -- a block is noted and executed the same with every signature
    exact ⟨_, _, importBlockImpl_iff.2 (.accepted (hadm.withSignature hc signature) hexec hroot)⟩

/-- In every chain that imports can reach, a block that is accepted is accepted with every
signature. So acceptance never shows that a block is signed by its validator, except where nothing
is accepted. -/
theorem authentic_iff_nothing_accepted (hcrypto : Crypto.Refutable) {c : Chain} (hc : Reached c)
    (now : UInt64) :
    (∀ block, c.Accepts now block → ∀ signature, c.Accepts now (block.withSignature signature)) ∧
      ((∀ block, c.Accepts now block → block.header.Authentic) ↔
        ∀ block, ¬ c.Accepts now block) := by
  refine ⟨fun _ hblock => hblock.withSignature hc.keyless, fun h block hblock => ?_,
    fun h block hblock => absurd hblock (h block)⟩
  obtain ⟨signature, hforged⟩ := hcrypto.exists_not_authentic block.header
  exact hforged (h _ (hblock.withSignature hc.keyless signature))

end Chain

end Authenticity

/-! ## An unsigned block -/

namespace Demo

open Chain

/-- The first block of the small chain is accepted without any signature. -/
theorem firstBlock_accepted : ∃ c block, Reached c ∧ c.Accepts 0 block ∧
    block.header.signature = .zero ∧
      block.header.hash ≠ .zero := by
  obtain ⟨_, c, genesis, _, hstart, -, himport, hhash⟩ :=
      exists_grown (fun genesis => [firstBlock genesis])
        (fun _ genesis _ => (firstBlock genesis).header.hash != .zero) (by decide +kernel)
  obtain ⟨r, c₁, hrun, -⟩ := importAll_cons himport
  refine ⟨c, firstBlock genesis, ⟨c, [], hstart.started, .nil⟩, ⟨r, c₁, hrun⟩, rfl, ?_⟩
  exact bne_iff_ne.1 hhash

/-- A reached chain accepts a block that nobody signed. -/
theorem accepted_not_authentic : ¬ ∀ c, Reached c → ∀ now block, c.Accepts now block →
    block.header.Authentic := by
  intro h
  obtain ⟨c, block, hc, hblock, hsig, hhash⟩ := firstBlock_accepted
  exact not_authentic_of_zero hsig hhash (h c hc 0 block hblock)

/-- The small chain accepts its first block with every signature, and so does not authenticate. -/
theorem firstBlock_not_authenticated : ∃ c block, Reached c ∧ c.Accepts 0 block ∧
    (∀ signature, c.Accepts 0 (block.withSignature signature)) ∧
    ¬ ∀ block, c.Accepts 0 block → block.header.Authentic := by
  obtain ⟨c, block, hc, hblock, -, -⟩ := firstBlock_accepted
  obtain ⟨hsignatures, hiff⟩ := authentic_iff_nothing_accepted refutable hc 0
  exact ⟨c, block, hc, hblock, hsignatures block hblock, fun h => hiff.1 h block hblock⟩

end Demo

end Vtt
