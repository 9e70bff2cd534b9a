import Vtt.Chain.Tree
import Vtt.Demo

/-!
# Finality and the checkpoint

A finalized height only refuses blocks whose parent is below it. The checkpoint only refuses blocks
once a wrong hash is in the index; the block at its own height is not compared with it.
-/

namespace Vtt

open Lib Std Option UInt64

namespace Chain

variable [Crypto]

/-! ## Finality -/

/-- The calls of a node that imports blocks and finalizes heights. -/
inductive Call where
  | importBlock (now : UInt64) (block : Block)
  | setFinalizedBlock (number : BlockNumber)

/-- The head is a block or descends from it. -/
def HeadFollows (c : Chain) (hash : H256) : Prop :=
  ∃ head, c.headHash = some head ∧ c.Ancestor hash head

/-- Every known block from a height on descends from a block. -/
def Settled (c : Chain) (number : BlockNumber) (hash : H256) : Prop :=
  ∀ ⦃h : H256⦄ ⦃header : BlockHeader⦄, c.headers[h]? = some header → number ≤ header.number →
    c.Ancestor hash h

/-- Every known block from a height on descends from the canonical block there: no other branch has
reached the height. -/
def Undisputed (c : Chain) (number : BlockNumber) : Prop :=
  ∀ hash, c.getCanonicalHash number = some hash → c.Settled number hash

/-- A block is final: its height is, every known block from there on descends from it, and the head
does. -/
structure Final (c : Chain) (number : BlockNumber) (hash : H256) : Prop where
  finalized : number ≤ c.finalizedBlock
  settled : c.Settled number hash
  follows : c.HeadFollows hash

namespace Final

variable {c : Chain} {number : BlockNumber} {hash : H256} {block : Block} {parent : BlockHeader}

omit [Crypto] in
theorem moved (f : Final c number hash) (state : StateDB) (vs : ValidatorSet) :
    Final (c.moved state vs) number hash :=
  ⟨f.finalized, f.settled, f.follows⟩

omit [Crypto] in
theorem setFinalizedBlock (f : Final c number hash) (n : BlockNumber) :
    Final (c.setFinalizedBlock n) number hash := by
  unfold Chain.setFinalizedBlock
  split
  · rename_i hlt
    exact ⟨le_trans f.finalized (le_of_lt hlt), f.settled, f.follows⟩
  · exact f

/-- A block on a parent that is not below the final height descends from the final block. -/
theorem withBlock (f : Final c number hash) (hfresh : c.headers[block.header.hash]? = none)
    (hparent : c.headers[block.header.parentHash]? = some parent)
    (hfinal : c.finalizedBlock ≤ parent.number) (state : StateDB) (vs : ValidatorSet) :
    Final (c.withBlock block state vs) number hash := by
  have new : (c.withBlock block state vs).Ancestor hash block.header.hash :=
    Descends.insert_self hfresh (f.settled hparent (le_trans f.finalized hfinal))
  have kept : ∀ {h : H256}, c.Ancestor hash h → (c.withBlock block state vs).Ancestor hash h :=
    fun ancestor => ancestor.insert hfresh block.header
  refine ⟨f.finalized, ?_, ?_⟩
  · intro _ _ hget hle
    simp only [Chain.withBlock, ExtTreeMap.getElem?_insert] at hget
    split at hget
    · rename_i heq
      rw [← LawfulEqOrd.eq_of_compare heq]
      exact new
    · exact kept (f.settled hget hle)
  · obtain ⟨head, hhead, hancestor⟩ := f.follows
    cases hwins : c.wins block with
    | true => exact ⟨block.header.hash, by simp only [Chain.withBlock, hwins, if_true], new⟩
    | false =>
      refine ⟨head, ?_, kept hancestor⟩
      simp only [Chain.withBlock, hwins, Bool.false_eq_true, if_false]
      exact hhead

end Final

variable [Wasm] [Environment]

/-- One call, whatever it returns. -/
def CallStep (c : Chain) : Call → Chain → Prop
  | .importBlock now block, c' => ImportStep c (now, block) c'
  | .setFinalizedBlock number, c' => c' = c.setFinalizedBlock number

/-- Blocks that are imported in turn make a run of calls. -/
theorem importAll_callRun {now : UInt64} {c c' : Chain} {blocks : List Block}
    (h : importAll now c blocks = some c') :
    ∃ calls, Run CallStep c calls c' := by
  have relabelled : ∀ ⦃c : Chain⦄ ⦃call : UInt64 × Block⦄ ⦃c' : Chain⦄, ImportStep c call c' →
      CallStep c (.importBlock call.1 call.2) c' := fun _ _ _ hstep => hstep
  exact ⟨_, (importAll_run .nil h).relabel (fun call => .importBlock call.1 call.2) relabelled⟩

/-- A call keeps a final block final. -/
theorem Final.step {c c' : Chain} {number : BlockNumber} {hash : H256} {call : Call}
    (hpos : 1 ≤ number) (f : Final c number hash) (h : CallStep c call c') :
    Final c' number hash := by
  cases call with
  | setFinalizedBlock n =>
    obtain rfl := h
    exact f.setFinalizedBlock n
  | importBlock =>
    obtain ⟨state, vs, rfl⟩ | ⟨_, state, vs, hchecked, -, rfl⟩ := ImportStep.cases h
    · exact f.moved state vs
    · have pos : 0 < c.finalizedBlock := lt_of_lt_of_le (by decide) (le_trans hpos f.finalized)
      exact f.withBlock hchecked.fresh hchecked.known (hchecked.final pos) state vs

/-- If no other branch has reached a height when it is finalized, then every later head is the
canonical block of that height or descends from it. -/
theorem headFollows_of_undisputed {c c' : Chain} {head : BlockHeader}
    {number : BlockNumber} {hash : H256} {calls : List Call} (hhead : c.head = some head)
    (hpos : 1 ≤ number) (hle : number ≤ head.number)
    (hcanonical : c.getCanonicalHash number = some hash) (hundisputed : c.Undisputed number)
    (hrun : Run CallStep (c.setFinalizedBlock number) calls c') : c'.HeadFollows hash := by
  have settled := hundisputed hash hcanonical
  have final : Final (c.setFinalizedBlock number) number hash := by
    obtain ⟨h, hhash, hstored⟩ := bind_eq_some_iff.1 hhead
    have follows : c.HeadFollows hash := ⟨h, hhash, settled hstored hle⟩
    unfold setFinalizedBlock
    split
    · exact ⟨UInt64.le_refl _, settled, follows⟩
    · rename_i hnlt
      exact ⟨UInt64.not_lt.1 hnlt, settled, follows⟩
  exact (hrun.invariant (fun _ _ _ hstep f => Final.step hpos f hstep) final).follows

/-! ## The checkpoint -/

/-- The canonical entry of a height is missing or the given hash. -/
def HoldsCheckpoint (c : Chain) (number : BlockNumber) (hash : H256) : Prop :=
  c.getCanonicalHash number = none ∨ c.getCanonicalHash number = some hash

/-- The chain with another checkpoint, or with none. -/
def withCheckpoint (c : Chain) (checkpoint : Option (BlockNumber × H256)) : Chain :=
  { c with weakSubjectivity := checkpoint }

/-- The checkpoint holds before and after each import of a list. -/
def KeepsCheckpoint (number : BlockNumber) (hash : H256) (c : Chain)
    (calls : List (UInt64 × Block)) : Prop :=
  ∀ ⦃first c'⦄, first <+: calls → Run ImportStep c first c' → c'.HoldsCheckpoint number hash

section Unread

variable {c c' : Chain} {number : BlockNumber} {hash : H256} {now : UInt64} {block : Block}
  {checkpoint : Option (BlockNumber × H256)} {r : Except ChainError ImportResult}

omit [Crypto] [Wasm] [Environment] in
/-- While its height has no other hash, a checkpoint refuses no block. -/
theorem checkpointConflict_eq_none (h : c.HoldsCheckpoint number hash)
    (hw : ∀ w, checkpoint = some w → w = (number, hash)) (n : BlockNumber) :
    (c.withCheckpoint checkpoint).checkpointConflict n = none := by
  cases checkpoint with
  | none => rfl
  | some w =>
    obtain rfl := hw w rfl
    simp only [checkpointConflict, withCheckpoint]
    split
    · rfl
    · rcases h with habsent | hsame
      · rw [show c.canonical[number]? = none from habsent]
      · rw [show c.canonical[number]? = some hash from hsame]
        exact if_pos rfl

omit [Wasm] [Environment] in
theorem checkBlock_withCheckpoint (now : UInt64)
    (h : (c.withCheckpoint checkpoint).checkpointConflict block.header.number =
      c.checkpointConflict block.header.number) :
    (c.withCheckpoint checkpoint).checkBlock now block = c.checkBlock now block := by
  unfold checkBlock
  dsimp only
  rw [h]
  rfl

omit [Crypto] [Wasm] [Environment] in
theorem enterEpoch_withCheckpoint (epoch : Epoch) :
    (c.withCheckpoint checkpoint).enterEpoch epoch =
      (c.enterEpoch epoch).withCheckpoint checkpoint := by
  unfold enterEpoch
  rw [apply_ite (fun d : Chain => d.withCheckpoint checkpoint)]
  rfl

omit [Wasm] [Environment] in
theorem observeBlock_withCheckpoint (header : BlockHeader) (epoch : Epoch) :
    (c.withCheckpoint checkpoint).observeBlock header epoch =
      (c.observeBlock header epoch).withCheckpoint checkpoint := by
  have same (prior : Option H256) :
    (c.withCheckpoint checkpoint).conflicting header prior = c.conflicting header prior := rfl
  have state_eq : (c.withCheckpoint checkpoint).state = c.state := rfl
  cases hprior : c.conflicting header
      (c.state.recordBlockCommitment header.validator header.epoch header.slot header.hash).1 with
  | none | some =>
    simp only [observeBlock, same, state_eq, hprior]
    rfl

omit [Wasm] [Environment] in
theorem noted_withCheckpoint (header parent : BlockHeader) (epoch : Epoch) :
    (c.withCheckpoint checkpoint).noted header parent epoch =
      (c.noted header parent epoch).withCheckpoint checkpoint := by
  unfold noted
  rw [enterEpoch_withCheckpoint, observeBlock_withCheckpoint]
  rfl

omit [Crypto] [Wasm] [Environment] in
theorem persist_withCheckpoint (write : Storage → Storage) :
    (c.withCheckpoint checkpoint).persist write = (c.persist write).withCheckpoint checkpoint := by
  unfold persist
  rw [apply_ite (fun d : Chain => d.withCheckpoint checkpoint)]
  rfl

omit [Wasm] [Environment] in
theorem computeRoot_withCheckpoint :
    (c.withCheckpoint checkpoint).computeRoot.2 = c.computeRoot.2.withCheckpoint checkpoint := rfl

omit [Wasm] [Environment] in
theorem storeBlock_withCheckpoint (receipts : List TransactionReceipt) :
    (c.withCheckpoint checkpoint).storeBlock block receipts =
      ((c.storeBlock block receipts).1,
      (c.storeBlock block receipts).2.withCheckpoint checkpoint) := by
  have stored : ((c.withCheckpoint checkpoint).persistBlock block receipts).insertBlock block =
      ((c.persistBlock block receipts).insertBlock block).withCheckpoint checkpoint := by
    unfold persistBlock
    rw [persist_withCheckpoint]
    rfl
  unfold storeBlock
  dsimp only
  rw [stored, apply_ite (fun d : Chain => d.withCheckpoint checkpoint)]
  unfold adoptHead
  rw [persist_withCheckpoint]
  rfl

theorem runBlock_withCheckpoint (checkpoint : Option (BlockNumber × H256))
    {provided : Option (List TransactionReceipt)} {staked : Amount}
    {receipts : List TransactionReceipt}
    (h : (runBlock block provided staked).run c = some (.ok receipts, c')) :
    (runBlock block provided staked).run (c.withCheckpoint checkpoint) =
      some (.ok receipts, c'.withCheckpoint checkpoint) := by
  obtain ⟨_, hr, ⟨rfl, rfl⟩ | ⟨rfl, state, rfl, hexec⟩⟩ := runBlock_ok h
  · obtain rfl := Except.ok.inj hr
    rfl
  · obtain rfl := Except.ok.inj hr
    exact runBlock_of_execute hexec

/-- An import goes the same way with another checkpoint, if that refuses the block alike. -/
theorem ImportOutcome.withCheckpoint {provided : Option (List TransactionReceipt)}
    (hsame : (c.withCheckpoint checkpoint).checkpointConflict block.header.number =
      c.checkpointConflict block.header.number)
    (h : ImportOutcome now block provided c r c') :
    ImportOutcome now block provided (c.withCheckpoint checkpoint) r
      (c'.withCheckpoint checkpoint) := by
  have checked := checkBlock_withCheckpoint now hsame
  have admitted : ∀ {parent epoch staked}, Admitted now block c parent epoch staked →
      Admitted now block (c.withCheckpoint checkpoint) parent epoch staked := by
    intro _ _ _ hadm
    refine ⟨⟨checked.trans hadm.checked, hadm.staked_eq, hadm.epoch_eq⟩, ?_⟩
    rw [enterEpoch_withCheckpoint]
    exact hadm.verified
  cases h with
  | refused hcheck => exact .refused (checked.trans hcheck)
  | unverified hentry hverified =>
    rw [← enterEpoch_withCheckpoint]
    refine .unverified ⟨checked.trans hentry.checked, hentry.staked_eq, hentry.epoch_eq⟩ ?_
    rw [enterEpoch_withCheckpoint]
    exact hverified
  | mismatched hadm hrun hroot =>
    have hrun' := runBlock_withCheckpoint checkpoint hrun
    rw [← noted_withCheckpoint] at hrun'
    exact .mismatched (admitted hadm) hrun' hroot
  | accepted hadm hrun hroot =>
    have hrun' := runBlock_withCheckpoint checkpoint hrun
    rw [← noted_withCheckpoint] at hrun'
    have outcome := ImportOutcome.accepted (admitted hadm) hrun' hroot
    rwa [computeRoot_withCheckpoint, storeBlock_withCheckpoint] at outcome

/-- While the checkpoint holds, an import does the same with it and without it. -/
theorem run_importBlock_withCheckpoint {before after : Option (BlockNumber × H256)}
    (hholds : c.HoldsCheckpoint number hash) (hbefore : ∀ w, before = some w → w = (number, hash))
    (hafter : ∀ w, after = some w → w = (number, hash))
    (h : (importBlock now block).run (c.withCheckpoint before) = some (r, c')) :
    (importBlock now block).run (c.withCheckpoint after) = some (r, c'.withCheckpoint after) := by
  have conflict := (checkpointConflict_eq_none hholds hafter block.header.number).trans
    (checkpointConflict_eq_none hholds hbefore block.header.number).symm
  exact importBlockImpl_iff.2
    (ImportOutcome.withCheckpoint (c := c.withCheckpoint before) conflict (outcome_of_run h))

/-- An import keeps the checkpoint that was set. -/
theorem weakSubjectivity_of_step {call : UInt64 × Block} (h : ImportStep c call c') :
    c'.weakSubjectivity = c.weakSubjectivity := by
  obtain ⟨_, _, rfl⟩ | ⟨_, _, _, -, -, rfl⟩ := h.cases
  · rfl
  · rfl

/-- If the checkpoint holds all along a list of imports, then they run the same way with it and
without it. -/
theorem KeepsCheckpoint.run {before after : Option (BlockNumber × H256)}
    {calls first : List (UInt64 × Block)} (hbefore : ∀ w, before = some w → w = (number, hash))
    (hafter : ∀ w, after = some w → w = (number, hash))
    (hkeeps : KeepsCheckpoint number hash (c.withCheckpoint before) calls)
    (h : Run ImportStep (c.withCheckpoint after) first c') (hfirst : first <+: calls) :
    Run ImportStep (c.withCheckpoint before) first (c'.withCheckpoint before) := by
  induction h with
  | nil => exact .nil
  | @snoc first call d d' hrun hlast ih =>
    have hearlier := (List.prefix_append first [call]).trans hfirst
    have hholds : (d.withCheckpoint before).HoldsCheckpoint number hash :=
      hkeeps hearlier (ih hearlier)
    obtain ⟨r, hlast⟩ := hlast
    have set : d.withCheckpoint after = d := by
      have hset := hrun.invariant (I := fun d => d.weakSubjectivity = after)
        (fun _ _ _ hstep hset => (weakSubjectivity_of_step hstep).trans hset) rfl
      rw [← hset]
      rfl
    rw [← set] at hlast
    exact (ih hearlier).snoc ⟨r,
      run_importBlock_withCheckpoint (c := d) hholds hafter hbefore hlast⟩

/-- A list of imports that keeps the checkpoint with it or without it does so the other way too. -/
theorem KeepsCheckpoint.withCheckpoint {before after : Option (BlockNumber × H256)}
    {calls : List (UInt64 × Block)} (hbefore : ∀ w, before = some w → w = (number, hash))
    (hafter : ∀ w, after = some w → w = (number, hash))
    (hkeeps : KeepsCheckpoint number hash (c.withCheckpoint before) calls) :
    KeepsCheckpoint number hash (c.withCheckpoint after) calls := by
  intro _ c' hfirst hrun
  have hholds : (c'.withCheckpoint before).HoldsCheckpoint number hash :=
    hkeeps hfirst (hkeeps.run hbefore hafter hrun hfirst)
  exact hholds

end Unread

/-- A checkpoint at a height without a canonical hash never protects that height: an import does
what it does without a checkpoint, and any list of imports keeps the checkpoint exactly if it does
without it. -/
theorem checkpoint_never_protects {c : Chain} {number : BlockNumber} {hash : H256}
    (habsent : c.getCanonicalHash number = none) :
    (∀ now block, (importBlock now block).run (c.setWeakSubjectivityCheckpoint number hash) =
      ((importBlock now block).run (c.withCheckpoint none)).map fun result =>
        (result.1, result.2.setWeakSubjectivityCheckpoint number hash)) ∧
    ∀ calls, KeepsCheckpoint number hash (c.setWeakSubjectivityCheckpoint number hash) calls ↔
      KeepsCheckpoint number hash (c.withCheckpoint none) calls := by
  have hset : ∀ w, some (number, hash) = some w → w = (number, hash) :=
    fun _ heq => (some.inj heq).symm
  have hnone : ∀ w, none = some w → w = (number, hash) := fun _ heq => by cases heq
  refine ⟨fun now block => ?_, fun calls => ⟨fun h => h.withCheckpoint hset hnone,
    fun h => h.withCheckpoint hnone hset⟩⟩
  cases hrun : (importBlock now block).run (c.withCheckpoint none) with
  | some result => exact run_importBlock_withCheckpoint (.inl habsent) hnone hset hrun
  | none =>
    refine eq_none_iff_forall_ne_some.2 fun result hresult => ?_
    have unset := run_importBlock_withCheckpoint (c := c) (.inl habsent) hset hnone hresult
    rw [hrun] at unset
    cases unset

end Chain

/-! ## On the small chain -/

namespace Demo

open Chain

/-- The first block is finalized before another one is known, and the second block is imported. -/
theorem firstBlock_final : ∃ genesis c₀ blocks c head hash block c', StartedFresh genesis c₀ ∧
      Run ImportStep c₀ blocks c ∧ c.head = some head ∧ (1 : UInt64) ≤ head.number ∧
      c.getCanonicalHash 1 = some hash ∧ c.Undisputed 1 ∧
      Run CallStep (c.setFinalizedBlock 1) [.importBlock 0 block] c' ∧ c'.HeadFollows hash := by
  obtain ⟨genesis, c₀, header, c, h₀, -, himport, hcheck⟩ := exists_grown (fun g => [firstBlock g])
    (fun _ g c => (c.getCanonicalHash 1).any fun hash =>
      c.head.any (fun head => 1 ≤ head.number) &&
      (c.headers.toList.all fun e => e.2.number < 1 ||
        (climb c.headers BlockHeader.parentHash 4 e.1).any fun way => hash ∈ way) &&
      (importAll 0 (c.setFinalizedBlock 1) [secondBlock g]).isSome)
    (by decide +kernel)
  simp only [any_eq_true, Bool.and_eq_true, isSome_iff_exists] at hcheck
  obtain ⟨hash, hcanonical, ⟨⟨head, hhead, hle⟩, hall⟩, _, hnext⟩ := hcheck
  have undisputed : c.Undisputed 1 := by
    intro _ hcanonical' h header hstored hle
    obtain rfl := some.inj (hcanonical.symm.trans hcanonical')
    have hmem :=
      List.all_eq_true.1 hall (h, header) (ExtTreeMap.mem_toList_iff_getElem?_eq_some.2 hstored)
    rcases Bool.or_eq_true_iff.1 hmem with hlt | hway
    · exact absurd hle (UInt64.not_le.2 (of_decide_eq_true hlt))
    · obtain ⟨_, hclimb, hway⟩ := (any_eq_true _ _).1 hway
      exact descends_of_mem_climb hclimb (of_decide_eq_true hway)
  obtain ⟨r, c₁, hstep, hlast⟩ := importAll_cons hnext
  obtain rfl := some.inj hlast
  have step : CallStep (c.setFinalizedBlock 1) (.importBlock 0 (secondBlock header)) c₁ :=
    ⟨.ok r, hstep⟩
  have hrun := Run.nil.snoc step
  exact ⟨genesis, c₀, _, c, head, hash, _, c₁, h₀, importAll_run .nil himport, hhead,
    of_decide_eq_true hle, hcanonical, undisputed, hrun,
    headFollows_of_undisputed hhead (by decide) (of_decide_eq_true hle) hcanonical undisputed hrun⟩

/-- The first block is finalized when its sibling is known too, and a block on the sibling becomes
the head. -/
theorem overtaken_after_final : ∃ genesis c₀ blocks c head hash calls c', StartedFresh genesis c₀ ∧
      Run ImportStep c₀ blocks c ∧ c.head = some head ∧ (1 : UInt64) ≤ head.number ∧
      c.getCanonicalHash 1 = some hash ∧ Run CallStep (c.setFinalizedBlock 1) calls c' ∧
      ¬ c'.HeadFollows hash := by
  obtain ⟨genesis, c₀, _, c, h₀, -, himport, hcheck⟩ :=
    exists_grown (fun g => [firstBlock g, siblingBlock g])
      (fun _ g c => (c.getCanonicalHash 1).any fun hash =>
      c.head.any (fun head => 1 ≤ head.number) &&
      (importAll 0 (c.setFinalizedBlock 1) [overtakingBlock g]).any fun c' =>
        c'.headHash.any fun head =>
          (climb c'.headers BlockHeader.parentHash 4 head).any fun way => hash ∉ way)
    (by decide +kernel)
  simp only [any_eq_true, Bool.and_eq_true] at hcheck
  obtain ⟨hash, hcanonical, ⟨head, hhead, hle⟩, c', hnext, _, hnewHead, _, hway, hmem⟩ := hcheck
  obtain ⟨calls, hrun⟩ := importAll_callRun hnext
  refine ⟨genesis, c₀, _, c, head, hash, calls, c', h₀, importAll_run .nil himport, hhead,
    of_decide_eq_true hle, hcanonical, hrun, ?_⟩
  rintro ⟨_, hhead', hancestor⟩
  obtain rfl := some.inj (hnewHead.symm.trans hhead')
  exact of_decide_eq_true hmem (hancestor.mem_climb hway)

/-- The first height has no canonical hash yet. The import of the first block goes the same way with
and without a checkpoint of another hash there, and makes that block canonical. -/
theorem firstBlock_past_checkpoint : ∃ genesis c₀ block r c, StartedFresh genesis c₀ ∧
      c₀.getCanonicalHash 1 = none ∧
        (importBlock 0 block).run (c₀.withCheckpoint none) = some (.ok r, c) ∧
      (importBlock 0 block).run (c₀.setWeakSubjectivityCheckpoint 1 .zero) =
        some (.ok r, c.setWeakSubjectivityCheckpoint 1 .zero) ∧ ¬ c.HoldsCheckpoint 1 .zero := by
  obtain ⟨genesis, c₀, header, _, h₀, -, -, hcheck⟩ := exists_grown (fun _ => [])
    (fun c₀ g _ => (c₀.getCanonicalHash 1).isNone &&
      (importAll 0 (c₀.withCheckpoint none) [firstBlock g]).any fun c =>
        (c.getCanonicalHash 1).any fun hash => hash ≠ .zero)
    (by decide +kernel)
  simp only [Bool.and_eq_true, isNone_iff_eq_none, any_eq_true] at hcheck
  obtain ⟨habsent, c, hnext, _, hcanonical, hne⟩ := hcheck
  obtain ⟨r, c₁, hstep, hlast⟩ := importAll_cons hnext
  obtain rfl := some.inj hlast
  refine ⟨genesis, c₀, firstBlock header, r, c₁, h₀, habsent, hstep, ?_, ?_⟩
  · rw [(checkpoint_never_protects habsent).1, hstep]
    rfl
  · rintro (hnone | hsome)
    · rw [hcanonical] at hnone
      cases hnone
    · exact of_decide_eq_true hne (some.inj (hcanonical.symm.trans hsome))

/-- A checkpoint at the first height with another hash than that of the first block, which is
imported and is canonical there. -/
theorem firstBlock_not_checkpoint : ∃ genesis c₀ hash calls c, StartedFresh genesis c₀ ∧
    c₀.getCanonicalHash 1 = none ∧
      Run ImportStep (c₀.setWeakSubjectivityCheckpoint 1 hash) calls c ∧
      ¬ c.HoldsCheckpoint 1 hash := by
  obtain ⟨genesis, c₀, _, c, h₀, -, -, hcheck⟩ := exists_grown (fun _ => [])
    (fun c₀ g _ => (c₀.getCanonicalHash 1).isNone &&
      (importAll 0 (c₀.setWeakSubjectivityCheckpoint 1 .zero) [firstBlock g]).any fun c =>
        (c.getCanonicalHash 1).any fun hash => hash ≠ .zero)
    (by decide +kernel)
  simp only [Bool.and_eq_true, isNone_iff_eq_none, any_eq_true] at hcheck
  obtain ⟨habsent, c', hnext, _, hcanonical, hne⟩ := hcheck
  refine ⟨genesis, c₀, .zero, _, c', h₀, habsent, importAll_run .nil hnext, ?_⟩
  rintro (hnone | hsome)
  · rw [hcanonical] at hnone
    cases hnone
  · exact of_decide_eq_true hne (some.inj (hcanonical.symm.trans hsome))

end Demo

end Vtt
