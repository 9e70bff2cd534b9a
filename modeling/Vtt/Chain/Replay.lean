import Vtt.Chain.Tree
import Vtt.Demo
import Vtt.State.View

/-!
# The state of the head

A chain has one state, which every accepted block is executed on, whatever its parent is. It is the
state of the head, as replaying the head's branch from the genesis gives it, as long as every block
that gets past the checks continues the head.
-/

namespace Vtt

open Lib Option

namespace Chain

variable {block : Block} {blocks : List Block} {c c' : Chain} {now : UInt64}

variable {head : BlockHeader} {call : UInt64 × Block}

/-- The blocks after the genesis on the way to a block that is a number of blocks above it, from the
lowest to the highest. -/
def branch (c : Chain) (genesis : H256) : Nat → H256 → Option (List Block)
  | 0, hash => if hash = genesis then some [] else none
  | n + 1, hash => do
    let block ← c.bodies[hash]?
    let below ← c.branch genesis n block.header.parentHash
    pure (below ++ [block])

variable [Crypto]

/-- A new block does not change the branches of the known ones. -/
theorem branch_withBlock {genesis hash : H256} {n : Nat}
    (hfresh : c.bodies[block.header.hash]? = none) (state : StateDB) (vs : ValidatorSet)
    (h : c.branch genesis n hash = some blocks) :
    (c.withBlock block state vs).branch genesis n hash = some blocks := by
  induction n generalizing hash blocks with
  | zero => exact h
  | succ _ ih =>
    obtain ⟨last, hlast, hrest⟩ := bind_eq_some_iff.1 h
    obtain ⟨_, hbelow, hblocks⟩ := bind_eq_some_iff.1 hrest
    have kept : (c.withBlock block state vs).bodies[hash]? = some last :=
      getElem?_insert_of_fresh hfresh hlast
    rw [branch, kept, bind_eq_bind, bind_some, ih hbelow]
    exact hblocks

variable [Wasm] [Environment]

/-! ## Replaying -/

/-- Enter the epoch of a block, note it, execute it and settle it, without any check. -/
def executed (c : Chain) (block : Block) : Option (List TransactionReceipt × Chain) := do
  let parent ← c.headers[block.header.parentHash]?
  let staked ← c.validatorSet.totalStake
  let epoch ← c.consensus.epochForBlock block.header.number
  match ← (runBlock block none staked).run (c.noted block.header parent epoch) with
  | (.ok receipts, c') => some (receipts, c')
  | (.error _, _) => none

/-- The state root after a block was executed. -/
def rootAfter (c : Chain) (block : Block) : Option H256 :=
  (c.executed block).map fun e => e.2.computeRoot.1

/-- Process a block: execute it, flush the changes and store the block. -/
def process (c : Chain) (block : Block) : Option Chain :=
  (c.executed block).map fun e => (e.2.computeRoot.2.storeBlock block e.1).2

/-- Process blocks in turn. -/
def processAll (c : Chain) (blocks : List Block) : Option Chain := blocks.foldlM process c

/-- All getters of the state agree with the state that the started chain gets to by processing the
blocks on the way from the genesis to the head, in the order of their heights. -/
def StateFollowsHead (c₀ c : Chain) : Prop :=
  ∃ genesis head blocks replayed, c₀.headHash = some genesis ∧ c.head = some head ∧
    c.branch genesis head.number.toNat head.hash = some blocks ∧
    c₀.processAll blocks = some replayed ∧ c.state.view = replayed.state.view

/-- An admitted block is executed by an import as by a replay. -/
theorem executed_of_admitted {parent : BlockHeader} {epoch : Epoch} {staked : Amount}
    {receipts : List TransactionReceipt} (h : Admitted now block c parent epoch staked)
    (hrun : (runBlock block none staked).run (c.noted block.header parent epoch) =
      some (.ok receipts, c')) :
    c.executed block = some (receipts, c') := by
  have known := (checkBlock_ok_iff.1 h.checked).known
  simp only [executed, known, h.staked_eq, h.epoch_eq, bind_eq_bind, bind_some, hrun]

/-! ## The condition -/

/-- The checks at the entry refuse a block, or its header is refused in an epoch that is entered
already. -/
def Harmless (c : Chain) (call : UInt64 × Block) : Prop :=
  (∃ e, c.checkBlock call.1 call.2 = .error e) ∨ ∃ parent epoch e,
      c.checkBlock call.1 call.2 = .ok parent ∧
      c.consensus.epochForBlock call.2.header.number = some epoch ∧
      epoch ≤ c.validatorSet.epoch ∧
      c.consensus.verifyHeader call.2.header parent c.validatorSet = some (.error e)

/-- A block continues the head: its parent is the head and it wins the fork choice, its header
verifies against the validators of its epoch, and it has the state root of executing it. -/
structure ContinuesHead (c : Chain) (block : Block) : Prop where
  child : c.headHash = some block.header.parentHash
  wins : c.isNewHead block.header = true
  verified : ∀ parent epoch, c.headers[block.header.parentHash]? = some parent →
    c.consensus.epochForBlock block.header.number = some epoch →
    c.consensus.verifyHeader block.header parent (c.enterEpoch epoch).validatorSet = some (.ok ())
  root : c.rootAfter block = some block.header.stateRoot

/-- A call that leaves the chain as it is, or whose block continues the head. -/
def Linear (c : Chain) (call : UInt64 × Block) : Prop :=
  (∀ c', ImportStep c call c' → c' = c) ∨ ContinuesHead c call.2

/-! ## Runs -/

/-- A chain that is what the started chain gets to by processing the branch of the head. -/
structure Replayed (c₀ c : Chain) (head : BlockHeader) (blocks : List Block) :
    Prop extends Tree c head where
  branch_eq : ∃ genesis, c₀.headHash = some genesis ∧
    c.branch genesis head.number.toNat head.hash = some blocks
  replayed : c₀.processAll blocks = some c

theorem Replayed.stateFollowsHead {c₀ : Chain} (x : Replayed c₀ c head blocks) :
    StateFollowsHead c₀ c := by
  obtain ⟨genesis, hgenesis, hbranch⟩ := x.branch_eq
  exact ⟨genesis, head, blocks, c, hgenesis, x.head_eq, hbranch, x.replayed, rfl⟩

/-- A harmless call changes nothing. -/
theorem Harmless.eq (hcall : Harmless c call) (h : ImportStep c call c') : c' = c := by
  obtain ⟨_, hrun⟩ := h
  have outcome := importBlockImpl_iff.1 hrun
  rcases hcall with ⟨_, hrefused⟩ | ⟨_, _, _, hchecked, hepoch, hle, hunverified⟩
  · -- the checks at the entry decide the outcome
    cases outcome with
    | refused => rfl
    | unverified entry => exact absurd (hrefused.symm.trans entry.checked) nofun
    | mismatched admitted => exact absurd (hrefused.symm.trans admitted.checked) nofun
    | accepted admitted => exact absurd (hrefused.symm.trans admitted.checked) nofun
  · have same := enterEpoch_eq_of_le hle
    have not_admitted : ∀ {parent' epoch' staked},
        ¬ Admitted call.1 call.2 c parent' epoch' staked := by
      intro _ _ _ admitted
      obtain rfl := Except.ok.inj (hchecked.symm.trans admitted.checked)
      obtain rfl := some.inj (hepoch.symm.trans admitted.epoch_eq)
      have hverified := admitted.verified
      rw [same, hunverified] at hverified
      cases hverified
    cases outcome with
    | refused => rfl
    | unverified entry =>
      obtain rfl := some.inj (hepoch.symm.trans entry.epoch_eq)
      exact same
    | mismatched admitted => exact (not_admitted admitted).elim
    | accepted admitted => exact (not_admitted admitted).elim

/-- A block that continues the head is refused at the entry, or the import processes it. -/
theorem ContinuesHead.cases (hblock : ContinuesHead c block) (h : ImportStep c (now, block) c') :
    c' = c ∨ (c.process block = some c' ∧ ∃ r,
      (importBlock now block).run c = some (.ok r, c')) := by
  obtain ⟨_, hrun⟩ := h
  have outcome := importBlockImpl_iff.1 hrun
  cases outcome with
  | refused => exact .inl rfl
  | unverified entry hunverified =>
    have known := (checkBlock_ok_iff.1 entry.checked).known
    rw [hblock.verified _ _ known entry.epoch_eq] at hunverified
    cases hunverified
  | mismatched admitted hexec hroot =>
    have root := hblock.root
    rw [rootAfter, executed_of_admitted admitted hexec, map_some] at root
    exact absurd (some.inj root).symm hroot
  | accepted admitted hexec =>
    refine .inr ⟨?_, _, hrun⟩
    rw [process, executed_of_admitted admitted hexec, map_some]

/-- An accepted block whose parent is the head and that wins the fork choice continues the head. -/
theorem ContinuesHead.of_accepted {r : ImportResult}
    (h : (importBlock now block).run c = some (.ok r, c'))
    (hchild : c.headHash = some block.header.parentHash) (hwins : c.isNewHead block.header = true) :
    ContinuesHead c block := by
  have outcome := importBlockImpl_iff.1 h
  cases outcome with
  | accepted admitted hexec hroot =>
    refine ⟨hchild, hwins, ?_, ?_⟩
    · intro _ _ hparent hepoch
      have known := (checkBlock_ok_iff.1 admitted.checked).known
      obtain rfl := some.inj (hparent.symm.trans known)
      obtain rfl := some.inj (hepoch.symm.trans admitted.epoch_eq)
      exact admitted.verified
    · rw [rootAfter, executed_of_admitted admitted hexec, map_some, hroot]

/-- A linear call keeps the chain a replay of its head's branch. -/
theorem Replayed.step {c₀ : Chain} (x : Replayed c₀ c head blocks) (hlinear : Linear c call)
    (h : ImportStep c call c') : ∃ head' blocks', Replayed c₀ c' head' blocks' := by
  rcases hlinear with hsame | hblock
  · rw [hsame _ h]
    exact ⟨head, blocks, x⟩
  rcases hblock.cases h with rfl | ⟨hprocess, _, hok⟩
  · exact ⟨head, blocks, x⟩
  obtain ⟨parent, state, vs, hchecked, hnumber, rfl⟩ := accepted_withBlock hok
  have tree := x.toTree.withBlock hchecked.fresh state vs
  rw [hblock.wins, if_pos rfl] at tree
  obtain ⟨genesis, hgenesis, hbranch⟩ := x.branch_eq
  -- the parent is the head, one below the block
  have parentHash : call.2.header.parentHash = head.hash :=
    some.inj (hblock.child.symm.trans x.headHash)
  have parent_eq : parent = head := by
    have known := hchecked.known
    rw [parentHash, x.stored] at known
    exact (some.inj known).symm
  have number := x.number_of_wins hchecked.known hnumber hblock.wins
  rw [parent_eq] at number
  have body_fresh := x.body_fresh hchecked.fresh
  refine ⟨call.2.header, blocks ++ [call.2], tree, ⟨genesis, hgenesis, ?_⟩, ?_⟩
  · have body : (c.withBlock call.2 state vs).bodies[call.2.header.hash]? = some call.2 :=
      Std.ExtTreeMap.getElem?_insert_self
    rw [number, branch, body, bind_eq_bind, bind_some, parentHash,
      branch_withBlock body_fresh state vs hbranch]
    rfl
  · have replayed : blocks.foldlM process c₀ = some c := x.replayed
    rw [processAll, List.foldlM_append, replayed, bind_eq_bind, bind_some,
      List.foldlM_cons, hprocess]
    rfl

/-- In a run of linear calls from the genesis on, the state is that of the head after every call. -/
theorem stateFollowsHead_of_run {genesis : Block} {c₀ c : Chain} {calls : List (UInt64 × Block)}
    (h₀ : StartedFresh genesis c₀) (hrun : Run (Within Linear ImportStep) c₀ calls c) :
    StateFollowsHead c₀ c := by
  have start : Replayed c₀ c₀ genesis.header [] := by
    have tree := h₀.tree
    obtain ⟨_, _, -, -, -, hnumber, -⟩ := h₀.onGenesis
    refine ⟨tree, ⟨_, tree.headHash, ?_⟩, rfl⟩
    rw [hnumber]
    exact if_pos rfl
  obtain ⟨head, blocks, x⟩ :=
    hrun.invariant (I := fun c => ∃ head blocks, Replayed c₀ c head blocks)
      (fun _ _ _ hstep ⟨_, _, x⟩ => x.step hstep.1 hstep.2) ⟨_, _, start⟩
  exact x.stateFollowsHead

end Chain

namespace Demo

open Chain

/-- The first two blocks are imported in turn, the first one twice. -/
theorem secondBlock_replayed : ∃ genesis c₀ first second c, StartedFresh genesis c₀ ∧
      Run (Within Linear ImportStep) c₀ [(0, first), (0, first), (0, second)] c ∧
      StateFollowsHead c₀ c := by
  obtain ⟨genesis, c₀, header, _, h₀, -, himport, hcheck⟩ :=
    exists_grown (fun g => [firstBlock g, secondBlock g])
      (fun c₀ g _ => c₀.headHash = some (firstBlock g).header.parentHash &&
        c₀.isNewHead (firstBlock g).header && (importAll 0 c₀ [firstBlock g]).any fun c₁ =>
        c₁.headers.contains (firstBlock g).header.hash &&
          c₁.headHash = some (secondBlock g).header.parentHash &&
          c₁.isNewHead (secondBlock g).header)
    (by decide +kernel)
  simp only [Bool.and_eq_true, decide_eq_true_eq] at hcheck
  obtain ⟨⟨hchild, hwins⟩, hnext⟩ := hcheck
  obtain ⟨c₁, hfirst, hsecond⟩ := (any_eq_true _ _).1 hnext
  simp only [Bool.and_eq_true, decide_eq_true_eq] at hsecond
  obtain ⟨⟨hknown, hchild'⟩, hwins'⟩ := hsecond
  obtain ⟨r, c₂, hstep, hrest⟩ := importAll_cons himport
  obtain ⟨r', c₃, hstep', hlast⟩ := importAll_cons hrest
  obtain rfl := some.inj hlast
  obtain rfl : c₂ = c₁ := by
    rw [importAll, hstep] at hfirst
    exact some.inj hfirst
  have first : Within Linear ImportStep c₀ (0, firstBlock header) c₂ :=
    ⟨.inr (.of_accepted hstep hchild hwins), .ok r, hstep⟩
  have hrefused : c₂.checkBlock 0 (firstBlock header) = .error (.blockAlreadyKnown _) :=
    if_pos hknown
  have again : Within Linear ImportStep c₂ (0, firstBlock header) c₂ :=
    ⟨.inl fun _ => Harmless.eq (.inl ⟨_, hrefused⟩), _, importBlockImpl_iff.2 (.refused hrefused)⟩
  have second : Within Linear ImportStep c₂ (0, secondBlock header) c₃ :=
    ⟨.inr (.of_accepted hstep' hchild' hwins'), .ok r', hstep'⟩
  have hrun := ((Run.nil.snoc first).snoc again).snoc second
  exact ⟨genesis, c₀, _, _, c₃, h₀, hrun, stateFollowsHead_of_run h₀ hrun⟩

/-- The sibling of the first block is accepted and does not become the head, but its reward is
minted. -/
theorem sibling_not_replayed :
    ∃ genesis c₀ calls c now block r c', StartedFresh genesis c₀ ∧ Run ImportStep c₀ calls c ∧
      (importBlock now block).run c = some (.ok r, c') ∧ ¬ StateFollowsHead c₀ c' := by
  obtain ⟨genesis, c₀, header, c, h₀, -, himport, hcheck⟩ :=
    exists_grown (fun g => [firstBlock g, siblingBlock g])
      (fun c₀ _ c => c₀.headHash.any fun genesis => c.head.any fun head =>
        (c.branch genesis head.number.toNat head.hash).any fun blocks => (c₀.processAll blocks).all
          fun replayed => c.state.totalMintedMilli ≠ replayed.state.totalMintedMilli)
    (by decide +kernel)
  obtain ⟨r, c₁, hstep, hrest⟩ := importAll_cons himport
  obtain ⟨r', c₂, hstep', hlast⟩ := importAll_cons hrest
  obtain rfl := some.inj hlast
  have first : ImportStep c₀ (0, firstBlock header) c₁ := ⟨.ok r, hstep⟩
  refine ⟨genesis, c₀, _, c₁, 0, siblingBlock header, r', c₂, h₀, Run.nil.snoc first, hstep', ?_⟩
  rintro ⟨_, _, _, _, hgenesis, hhead, hbranch, hreplayed, hview⟩
  simp only [hgenesis, hhead, hbranch, hreplayed, any_some, all_some, decide_eq_true_eq] at hcheck
  exact hcheck (congrArg (fun v => v.caches.totalMintedMilli) hview)

end Demo

end Vtt
