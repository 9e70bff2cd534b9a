import Vtt.Chain.Authenticity
import Vtt.Chain.FailedProduction
import Vtt.Node.Basic

/-!
# Who attests a final block

A node counts the vote of a block's validator when it imports an announced block or produces one of
its own, and the votes of peers whose key the validator set knows. The hash that an announcement is
counted for is the peer's word: it need not be the hash of the announced block. If it is, then the
one voter for a hash is the validator of the block with that hash.
-/

namespace Vtt

open Lib Executor Producer Std Exec List Option Chain FinalityTracker ExtTreeSet ConsensusEngine

/-! ## Growing chains -/

namespace Chain

/-- Known headers stay known, and no key of a validator is learnt. -/
structure Grows (c c' : Chain) : Prop where
  headers : ∀ hash, hash ∈ c.headers → hash ∈ c'.headers
  keyless : c.validatorSet.Keyless → c'.validatorSet.Keyless

theorem Grows.refl (c : Chain) : Grows c c := ⟨fun _ h => h, fun h => h⟩

theorem Grows.trans {c c' c'' : Chain} (h : Grows c c') (h' : Grows c' c'') : Grows c c'' :=
  ⟨fun hash hmem => h'.headers hash (h.headers hash hmem), fun hk => h'.keyless (h.keyless hk)⟩

theorem Grows.setFinalizedBlock (c : Chain) (number : BlockNumber) :
    Grows c (c.setFinalizedBlock number) := by
  unfold Chain.setFinalizedBlock
  split
  · exact ⟨fun _ h => h, fun h => h⟩
  · exact .refl c

variable [Crypto]

/-- A block that was new is among the blocks, and its validator is in the validator set. -/
structure Enters (block : Block) (c c' : Chain) : Prop extends Grows c c' where
  fresh : block.header.hash ∉ c.headers
  member : c'.validatorSet.contains block.header.validator = true
  stored : block.header.hash ∈ c'.headers

theorem Enters.of_grows {block : Block} {c₀ c c' : Chain} (hheaders : c.headers = c₀.headers)
    (hset : c.validatorSet = c₀.validatorSet) (h : Enters block c c') : Enters block c₀ c' where
  headers hash hmem := h.headers hash (hheaders ▸ hmem)
  keyless hk := h.keyless (hset ▸ hk)
  fresh hmem := h.fresh (hheaders ▸ hmem)
  member := h.member
  stored := h.stored

theorem Enters.setFinalizedBlock {block : Block} {c c' : Chain} (h : Enters block c c')
    (number : BlockNumber) :
    Enters block c (c'.setFinalizedBlock number) := by
  refine ⟨h.toGrows.trans (.setFinalizedBlock c' number), h.fresh, ?_, ?_⟩
  · unfold Chain.setFinalizedBlock
    split
    · exact h.member
    · exact h.member
  · exact (Grows.setFinalizedBlock c' number).headers _ h.stored

variable [Wasm] [Environment] {now : UInt64} {block : Block}
  {provided : Option (List TransactionReceipt)} {c c' : Chain}

/-- A block that is refused leaves the headers alone. -/
theorem ImportOutcome.grows_of_error {e : ChainError}
    (h : ImportOutcome now block provided c (.error e) c') :
    Grows c c' := by
  refine ⟨fun hash hmem => ?_, fun hk => ?_⟩
  · rw [h.error_moved]
    exact hmem
  · cases h with
    | refused => exact hk
    | unverified => exact enterEpoch_keyless hk _
    | mismatched => exact hk

/-- A block that is accepted enters the chain. -/
theorem ImportOutcome.enters {r : ImportResult}
    (h : ImportOutcome now block provided c (.ok r) c') :
    Enters block c c' ∧ r.blockNumber = block.header.number := by
  have hnumber : r.blockNumber = block.header.number := by
    cases h with
    | accepted => rfl
  obtain ⟨_, epoch, _, _, hadm, rfl⟩ := h.ok_stored
  obtain ⟨producer, hverified⟩ := verifyHeader_ok_iff.1 hadm.verified
  have hchecked := checkBlock_ok_iff.1 hadm.checked
  refine ⟨⟨⟨fun hash hmem => ?_, fun hk => ?_⟩, fun hmem => ?_, ?_, ?_⟩, hnumber⟩
  · rw [storeBlock_eq]
    exact ExtTreeMap.mem_insert.2 (.inr hmem)
  · rw [storeBlock_eq]
    exact enterEpoch_keyless hk epoch
  · rw [ExtTreeMap.mem_iff_isSome_getElem?, hchecked.fresh] at hmem
    cases hmem
  · rw [storeBlock_eq]
    refine any_eq_true.2 ⟨producer, blockProducer_mem hverified.scheduled, ?_⟩
    rw [hverified.validator]
    exact beq_self_eq_true _
  · rw [storeBlock_eq]
    exact ExtTreeMap.mem_insert.2 (.inl ReflOrd.compare_self)

end Chain

/-! ## What an event does to a node -/

namespace FinalityTracker

variable {t t' : FinalityTracker}

/-- The same votes and the same finalized block; the number of validators may differ. -/
structure SameVotes (t t' : FinalityTracker) : Prop where
  votes : t'.votes = t.votes
  number : t'.finalizedNumber = t.finalizedNumber
  hash : t'.finalizedHash = t.finalizedHash

theorem SameVotes.refl (t : FinalityTracker) : SameVotes t t := ⟨rfl, rfl, rfl⟩

theorem SameVotes.trans {t'' : FinalityTracker} (h : SameVotes t t') (h' : SameVotes t' t'') :
    SameVotes t t'' :=
  ⟨h'.votes.trans h.votes, h'.number.trans h.number, h'.hash.trans h.hash⟩

theorem SameVotes.votersOf_eq (h : SameVotes t t') (hash : H256) :
    t'.votersOf hash = t.votersOf hash := by
  rw [votersOf, h.votes]
  rfl

end FinalityTracker

namespace Node

variable {event : NodeEvent} {events : List NodeEvent} {hash : H256} {node node' : Node}
  {now : UInt64} {instant : Nat} {block : Block} {number : BlockNumber}
  {replies : List NetworkMessage} {ε : Type}

variable {outcome : Except ChainError ImportResult} {imported importNow : UInt64} {node₁ : Node}
  {keypair : Keypair} {gasConfig : GasConfig} {produced : Option Block}

/-- The chain grows and the tracker stays as it is. -/
structure Quiet (node node' : Node) : Prop where
  chain : node.chain.Grows node'.chain
  tracker : node'.tracker = node.tracker

theorem Quiet.refl (node : Node) : Quiet node node := ⟨.refl _, rfl⟩

theorem Quiet.trans {node'' : Node} (h : Quiet node node') (h' : Quiet node' node'') :
    Quiet node node'' :=
  ⟨h.chain.trans h'.chain, h'.tracker.trans h.tracker⟩

theorem quiet_of_requestMissing {best : BlockNumber}
    (h : (requestMissing best : Exec Node ε _).run node = some (.ok replies, node')) :
    Quiet node node' := by
  simp only [requestMissing, run_view_bind] at h
  split at h
  · cases h
    exact ⟨.refl _, rfl⟩
  · cases h
    exact .refl node

theorem quiet_of_requestMore {received : UInt32}
    (h : (requestMore imported received : Exec Node ε _).run node = some (.ok replies, node')) :
    Quiet node node' := by
  simp only [requestMore, run_view_bind] at h
  split at h
  · cases h
    exact ⟨.refl _, rfl⟩
  · cases h
    exact .refl node

variable [Crypto]

/-- An event in which a block is voted for under a hash: its announcement, or its production. -/
inductive Casts (hash : H256) (block : Block) : NodeEvent → Prop where
  | announced {now : UInt64} {instant : Nat} {number : BlockNumber} :
      Casts hash block (.message now instant (.blockAnnounce hash number block))
  | produced {now importNow : UInt64} {keypair : Keypair} {header : BlockHeader} :
      hash = block.header.hash → header.validator = keypair.address →
      block.header = header.withSignature (keypair.sign header.signableBytes) →
      Casts hash block (.tick now importNow (some block))

/-- What an event does to the chain and to the tracker: nothing is voted for, or one block that
enters the chain. -/
inductive Effect (node : Node) (event : NodeEvent) (node' : Node) : Prop where
  | quiet : node.chain.Grows node'.chain → node.tracker.SameVotes node'.tracker →
    Effect node event node'
  | vote {hash : H256} {block : Block} : Casts hash block event →
      Chain.Enters block node.chain node'.chain →
      (node.tracker.submitVote ⟨block.header.validator, hash, block.header.number⟩).2.SameVotes
        node'.tracker →
      Effect node event node'

/-- Without keys the vote of a peer is dropped. -/
theorem countVote_of_keyless (hk : node.chain.validatorSet.Keyless) (voter : Address) (hash : H256)
    (number : BlockNumber) (signature : Signature) :
    node.countVote voter hash number signature = node := by
  have hkey : node.voterKey voter = none := by
    refine bind_eq_none_iff.2 fun v hv => ?_
    exact hk v (mem_of_find?_eq_some hv)
  rw [countVote, hkey]

/-- Counting the vote for a block that entered the chain. -/
theorem effect_attest (hcasts : Casts hash block event)
    (henters : Chain.Enters block node.chain node₁.chain)
    (htracker : node₁.tracker = node.tracker) :
    Effect node event (node₁.attest ⟨block.header.validator, hash, block.header.number⟩) := by
  refine .vote hcasts ?_ (htracker ▸ .refl _)
  unfold attest
  dsimp only
  split
  · exact henters.setFinalizedBlock _
  · exact henters

/-- An effect is not changed by what does not concern the blocks and the votes. -/
theorem Effect.congr (h : Effect node event node₁) (hchain : node'.chain = node₁.chain)
    (htracker : node₁.tracker.SameVotes node'.tracker) : Effect node event node' := by
  cases h with
  | quiet hgrows hsame => exact .quiet (hchain ▸ hgrows) (hsame.trans htracker)
  | vote hcasts henters hsame => exact .vote hcasts (hchain ▸ henters) (hsame.trans htracker)

theorem Effect.keyless (h : Effect node event node') (hk : node.chain.validatorSet.Keyless) :
    node'.chain.validatorSet.Keyless := by
  cases h with
  | quiet hgrows => exact hgrows.keyless hk
  | vote _ henters => exact henters.keyless hk

/-! ## Final blocks -/

/-- The block that an event brings to the node: it is announced, or produced. -/
def Brings (block : Block) : NodeEvent → Prop
  | .message _ _ (.blockAnnounce _ _ b) => b = block
  | .tick _ _ produced => produced = some block
  | _ => False

/-- Among some events, a voter signed a vote for a block hash and a number, or produced and signed
the block that has them. -/
def Attested (events : List NodeEvent) (voter : Address) (hash : H256) (number : BlockNumber) :
    Prop :=
  (∃ event ∈ events, ∃ now instant signature key,
    event = .message now instant (.finalityVote voter hash number signature) ∧
      addressFromPublicKey key = voter ∧
      verify (voteBytes voter hash number) signature key = true) ∨
  ∃ event ∈ events, ∃ block, Brings block event ∧ block.header.hash = hash ∧
    block.header.number = number ∧ block.header.validator = voter ∧ block.header.Authentic

/-- An event in which the tracker reports a block as finalized. -/
def Reports (node node' : Node) (hash : H256) (number : BlockNumber) : Prop :=
  node'.tracker.finalizedNumber ≠ node.tracker.finalizedNumber ∧
    node'.tracker.finalizedNumber = number ∧ node'.tracker.finalizedHash = hash

/-- A final block is attested by as many members of the validator set as the tracker asks for. -/
def WellAttested (node node' : Node) (events : List NodeEvent) (hash : H256)
    (number : BlockNumber) : Prop :=
  ∃ voters : List Address, voters.Nodup ∧ node.tracker.threshold ≤ voters.length ∧
    ∀ voter ∈ voters, node'.chain.validatorSet.contains voter = true ∧
    Attested events voter hash number

/-- An announcement gives the hash of its block, and the block is signed by its validator. -/
def Sincere : NodeEvent → Prop
  | .message _ _ (.blockAnnounce hash _ block) => hash = block.header.hash ∧ block.header.Authentic
  | _ => True

/-- Only blocks of the chain have voters. -/
def VotesForKnown (node : Node) : Prop :=
  ∀ hash voter, voter ∈ node.tracker.votersOf hash → hash ∈ node.chain.headers

theorem Casts.hash_eq (h : Casts hash block event) (hsincere : Sincere event) :
    hash = block.header.hash := by
  cases h with
  | announced => exact hsincere.1
  | produced hhash => exact hhash

theorem Casts.brings (h : Casts hash block event) : Brings block event := by
  cases h with
  | announced | produced => rfl

/-- A block that is voted for is signed by its validator. -/
theorem Casts.authentic
    (hsign : ∀ (k : Keypair) (message : Bytes), verify message (k.sign message) k.publicKey = true)
    (h : Casts hash block event) (hsincere : Sincere event) : block.header.Authentic := by
  cases h with
  | announced => exact hsincere.2
  | @produced _ _ keypair header _ hvalidator hheader =>
    refine ⟨keypair.publicKey, ?_, ?_⟩
    · rw [hheader]
      exact hvalidator.symm
    · rw [hheader]
      exact hsign keypair header.signableBytes

theorem Effect.votesForKnown (h : Effect node event node') (hsincere : Sincere event)
    (hknown : VotesForKnown node) :
    VotesForKnown node' := by
  intro hash voter hvoter
  cases h with
  | quiet hgrows hsame =>
    rw [hsame.votersOf_eq] at hvoter
    exact hgrows.headers hash (hknown hash voter hvoter)
  | vote hcasts henters hsame =>
    rw [hsame.votersOf_eq] at hvoter
    rcases mem_votersOf_of_submitVote hvoter with hbefore | ⟨hhash, -⟩
    · exact henters.headers hash (hknown hash voter hbefore)
    · rw [hhash, hcasts.hash_eq hsincere]
      exact henters.stored

/-- A block that becomes final got the vote of its validator and no other before. -/
theorem Effect.wellAttested
    (hsign : ∀ (k : Keypair) (message : Bytes), verify message (k.sign message) k.publicKey = true)
    (h : Effect node event node') (hsincere : Sincere event) (hknown : VotesForKnown node)
    (hreports : Reports node node' hash number) : WellAttested node node'
      (events ++ [event]) hash number := by
  obtain ⟨hnew, rfl, rfl⟩ := hreports
  cases h with
  | quiet _ hsame => exact absurd hsame.number hnew
  | @vote announced block hcasts henters hsame =>
    cases hfinal :
      (node.tracker.submitVote ⟨block.header.validator, announced, block.header.number⟩).1 with
    | false =>
      rw [hsame.number, (submitVote_not_final hfinal).2] at hnew
      exact absurd rfl hnew
    | true =>
      obtain ⟨hhash, hnumber, hthreshold⟩ := submitVote_final hfinal
      rw [hsame.number, hsame.hash, hhash, hnumber]
      obtain rfl := hcasts.hash_eq hsincere
      -- nobody voted for the block before it entered the chain
      have hnone : node.tracker.votersOf block.header.hash = ∅ := by
        apply ext_mem
        intro voter
        constructor
        · intro hvoter
          exact absurd (hknown _ _ hvoter) henters.fresh
        · intro hvoter
          exact absurd hvoter not_mem_empty
      rw [hnone] at hthreshold
      refine ⟨[block.header.validator], nodup_singleton _, ?_, fun voter hvoter => ?_⟩
      · exact hthreshold.trans (by simp [size_insert])
      · obtain rfl := mem_singleton.1 hvoter
        refine ⟨henters.member, .inr ⟨event, ?_, block, hcasts.brings, rfl, rfl, rfl, ?_⟩⟩
        · exact mem_append_right _ (mem_singleton_self event)
        · exact hcasts.authentic hsign hsincere

/-! ## What an event does -/

variable [Wasm] [Environment]

/-- An attempt to import a block returns what the import returns. -/
theorem importBlock_of_attempt
    (h : ((onChain (importBlock now block)).attempt : Exec Node ε _).run node = some (.ok outcome,
      node')) :
    ∃ c, (importBlock now block).run node.chain = some (outcome, c) ∧
      node' = { node with chain := c } := by
  rw [run_attempt, onChain, run_zoom, Option.map_map] at h
  obtain ⟨⟨_, c⟩, hrun, heq⟩ := Option.map_eq_some_iff.1 h
  obtain ⟨hr, rfl⟩ := Prod.mk.inj heq
  cases hr
  exact ⟨c, hrun, rfl⟩

theorem quiet_of_attempt (h : ((onChain (importBlock now block)).attempt : Exec Node ε _).run node =
      some (.ok outcome, node')) : Quiet node node' := by
  obtain ⟨_, hrun, rfl⟩ := importBlock_of_attempt h
  cases outcome with
  | error => exact ⟨(outcome_of_run hrun).grows_of_error, rfl⟩
  | ok => exact ⟨(outcome_of_run hrun).enters.1.toGrows, rfl⟩

/-- Blocks that are imported in turn are not voted for. -/
theorem quiet_of_importRange {blocks : List Block}
    (h : (importRange now blocks : Exec Node ε _).run node = some (.ok imported, node')) :
    Quiet node node' := by
  induction blocks generalizing node imported with
  | nil =>
    obtain ⟨-, rfl⟩ := Prod.mk.inj (some.inj h)
    exact .refl node
  | cons _ _ ih =>
    obtain ⟨outcome, node₁, hattempt, hrest⟩ := run_bind_ok h
    refine (quiet_of_attempt hattempt).trans ?_
    cases outcome with
    | error =>
      obtain ⟨-, rfl⟩ := Prod.mk.inj (some.inj hrest)
      exact .refl node₁
    | ok =>
      obtain ⟨_, _, hrange, hlast⟩ := run_bind_ok hrest
      cases hlast
      exact ih hrange

/-- An announced block is refused, or it enters the chain and is voted for. -/
theorem effect_of_importAnnounced
    (h : (importAnnounced now hash block : Exec Node ε _).run node = some (.ok (), node')) :
    Effect node (.message now instant (.blockAnnounce hash number block)) node' := by
  unfold importAnnounced at h
  obtain ⟨outcome, _, hattempt, hrest⟩ := run_bind_ok h
  cases outcome with
  | error =>
    cases hrest
    have hquiet := quiet_of_attempt hattempt
    exact .quiet hquiet.chain (hquiet.tracker ▸ .refl _)
  | ok =>
    obtain ⟨_, hrun, rfl⟩ := importBlock_of_attempt hattempt
    obtain ⟨henters, hnumber⟩ := (outcome_of_run hrun).enters
    dsimp only at hrest
    rw [run_update, hnumber] at hrest
    cases hrest
    exact effect_attest .announced henters rfl

/-- What handling a message does to a node that knows no keys. -/
theorem effect_of_handle {message : NetworkMessage} (hk : node.chain.validatorSet.Keyless)
    (h : (handleNetworkMessage now instant message : Exec Node ε _).run node = some (.ok replies,
      node')) :
    Effect node (.message now instant message) node' := by
  have quiet (hquiet : Quiet node node') : Effect node (.message now instant message) node' :=
    .quiet hquiet.chain (hquiet.tracker ▸ .refl _)
  cases message with
  | blockAnnounce _ _ block =>
    rw [handleNetworkMessage, run_view_bind] at h
    by_cases hown : block.header.validator = node.keypair.address
    · rw [if_pos hown] at h
      cases h
      exact quiet (.refl node)
    · rw [if_neg hown] at h
      obtain ⟨_, node₁, hfirst, hlast⟩ := run_bind_ok h
      cases hlast
      exact effect_of_importAnnounced hfirst
  | transactionBroadcast =>
    simp only [handleNetworkMessage, run_view_bind] at h
    obtain ⟨_, node₁, hadd, hlast⟩ := run_bind_ok h
    cases hlast
    rw [run_ignoreError, onPool, run_zoom, Option.map_map] at hadd
    obtain ⟨_, -, heq⟩ := map_eq_some_iff.1 hadd
    cases heq
    exact quiet ⟨.refl _, rfl⟩
  | blockRequest =>
    cases h
    exact quiet ⟨.refl _, rfl⟩
  | blockRangeRequest =>
    cases h
    exact quiet (.refl _)
  | blockResponse =>
    obtain ⟨_, node₁, hrange, hlast⟩ := run_bind_ok h
    cases hlast
    exact quiet (quiet_of_importRange hrange)
  | blockRangeResponse =>
    rw [handleNetworkMessage] at h
    split at h
    · cases h
      exact quiet (.refl _)
    · obtain ⟨_, _, hrange, hmore⟩ := run_bind_ok h
      exact quiet ((quiet_of_importRange hrange).trans (quiet_of_requestMore hmore))
  | status => exact quiet (quiet_of_requestMissing h)
  | finalityVote =>
    obtain ⟨-, hnode⟩ := Prod.mk.inj (some.inj h)
    obtain rfl : node = node' := (countVote_of_keyless hk ..).symm.trans hnode
    exact quiet (.refl _)

/-- A produced block is signed by its producer and enters the chain. -/
theorem enters_of_tryProduceBlock {pool pool' : TxPool} {c c' : Chain}
    (h : (tryProduceBlock keypair gasConfig now importNow pool : Exec Chain ε _).run c =
      some (.ok (produced, pool'), c')) :
    Chain.Grows c c' ∧ ∀ block, produced = some block → Chain.Enters block c c' ∧
      ∃ header : BlockHeader, header.validator = keypair.address ∧
        block.header = header.withSignature (keypair.sign header.signableBytes) := by
  simp only [tryProduceBlock, run_view_bind] at h
  obtain ⟨turn, -, hrest⟩ := run_unwrap_bind h
  cases turn with
  | none =>
    obtain ⟨hr, rfl⟩ := Prod.mk.inj (some.inj hrest)
    obtain ⟨rfl, -⟩ := Prod.mk.inj (Except.ok.inj hr)
    exact ⟨.refl c, fun block hblock => by cases hblock⟩
  | some head =>
    dsimp only at hrest
    rw [run_view_bind] at hrest
    obtain ⟨_, _, hattempt, hlast⟩ := run_bind_ok hrest
    obtain ⟨hr, rfl⟩ := Prod.mk.inj (some.inj hlast)
    obtain ⟨hproduced, -⟩ := Prod.mk.inj (Except.ok.inj hr)
    rw [run_attempt] at hattempt
    obtain ⟨⟨r, _⟩, hrun, heq⟩ := map_eq_some_iff.1 hattempt
    obtain ⟨houtcome, rfl⟩ := Prod.mk.inj heq
    cases houtcome
    obtain ⟨_, epoch, slot, receipts, gasUsed, state, p⟩ := exists_production_of_run hrun
    rw [p.run_produceOn] at hrun
    cases r with
    | error =>
      -- only the refused import has changed the chain
      obtain hfailed | ⟨_, _, -, hbad⟩ := run_bind_error hrun
      · have hgrows := (outcome_of_run hfailed).grows_of_error
        refine ⟨⟨fun hash hmem => hgrows.headers hash hmem, fun hk => hgrows.keyless hk⟩, ?_⟩
        intro block hblock
        rw [← hproduced] at hblock
        cases hblock
      · cases hbad
    | ok =>
      obtain ⟨_, _, himport, hlast⟩ := run_bind_ok hrun
      obtain ⟨hresult, rfl⟩ := Prod.mk.inj (some.inj hlast)
      cases hresult
      have himported := (outcome_of_run himport).enters.1
      have henters : Chain.Enters (c.productionBlock keypair now pool head epoch slot receipts
          gasUsed state) c _ := .of_grows (c := c.withState state.flush) rfl rfl himported
      refine ⟨henters.toGrows, fun block hblock => ?_⟩
      rw [← hproduced] at hblock
      cases hblock
      exact ⟨henters, Draft.header ⟨keypair.address, head, now, epoch, slot, selectFor pool c.state⟩
        state.flushedTrie.root receipts gasUsed, rfl, rfl⟩

/-- The node after a tick: what was produced on the chain, and the vote for it. -/
theorem tick_ok (h : (tick now importNow : Exec Node ε _).run node = some (.ok produced, node')) :
    ∃ pool c, (tryProduceBlock node.keypair node.gasConfig now importNow node.pool :
        Exec Chain ε _).run node.chain = some (.ok (produced, pool), c) ∧
      node' = produced.elim { node with chain := c, pool } fun block =>
        attest { node with chain := c, pool } ⟨node.keypair.address, block.header.hash,
        block.header.number⟩ := by
  unfold tick at h
  rw [run_view_bind] at h
  obtain ⟨⟨block, pool⟩, _, hproduce, hrest⟩ := run_bind_ok h
  rw [run_update_bind] at hrest
  obtain ⟨⟨_, c⟩, hrun, heq⟩ := map_eq_some_iff.1 hproduce
  obtain ⟨hr, hnode⟩ := Prod.mk.inj heq
  subst hr hnode
  cases block with
  | none =>
    obtain ⟨hr, rfl⟩ := Prod.mk.inj (some.inj hrest)
    cases hr
    exact ⟨pool, c, hrun, rfl⟩
  | some =>
    obtain ⟨hr, rfl⟩ := Prod.mk.inj (some.inj hrest)
    cases hr
    exact ⟨pool, c, hrun, rfl⟩

/-- What an event does to a node that knows no keys. -/
theorem Step.effect (h : Step node event node') (hk : node.chain.validatorSet.Keyless) :
    Effect node event node' := by
  cases event with
  | message =>
    obtain ⟨_, hrun⟩ := h
    obtain ⟨_, _, hhandle, hlast⟩ := run_bind_ok hrun
    cases hlast
    exact (effect_of_handle hk hhandle).congr rfl ⟨rfl, rfl, rfl⟩
  | tick _ _ produced =>
    obtain ⟨_, _, hrun, rfl⟩ := tick_ok h
    obtain ⟨hgrows, henters⟩ := enters_of_tryProduceBlock hrun
    cases produced with
    | none => exact .quiet hgrows (.refl _)
    | some block =>
      obtain ⟨henter, _, hvalidator, hheader⟩ := henters block rfl
      have hown : node.keypair.address = block.header.validator := by
        rw [hheader, ← hvalidator]
        rfl
      rw [hown]
      exact effect_attest (.produced rfl hvalidator hheader) henter rfl
  | eviction =>
    obtain rfl := h
    exact .quiet (.refl _) (.refl _)

/-! ## Nodes that run -/

/-- A node on a started chain after any events. -/
def Running (node : Node) : Prop :=
  ∃ chain keypair gasConfig events, Chain.Started chain ∧
    Run Step (start chain keypair gasConfig) events node

theorem keyless_of_run {chain : Chain} (hstart : Chain.Started chain)
    (h : Run Step (start chain keypair gasConfig) events node) : node.chain.validatorSet.Keyless :=
  h.invariant (fun _ _ _ hstep hk => (hstep.effect hk).keyless hk) hstart.keyless

theorem Running.keyless (h : Running node) : node.chain.validatorSet.Keyless := by
  obtain ⟨_, _, _, _, hstart, hrun⟩ := h
  exact keyless_of_run hstart hrun

/-! ## The votes of peers -/

/-- A message that carries a member's vote for a block, signed under a key of the member. -/
def CarriesVote (node : Node) (hash : H256) (number : BlockNumber) (voter : Address)
    (event : NodeEvent) : Prop :=
  ∃ now instant signature key, event = .message now instant
      (.finalityVote voter hash number signature) ∧ node.chain.validatorSet.contains voter = true ∧
      addressFromPublicKey key = voter ∧
      verify (voteBytes voter hash number) signature key = true

/-- Messages with the votes of more than two thirds of the validators for a block, in any order and
any number of times. -/
structure Quorum (node : Node) (hash : H256) (number : BlockNumber) (events : List NodeEvent) :
    Prop where
  votes : ∀ event ∈ events, ∃ voter, CarriesVote node hash number voter event
  enough : ∃ voters : List Address, voters.Nodup ∧
    node.chain.validatorSet.validators.length * 2 / 3 + 1 ≤ voters.length ∧
    ∀ voter ∈ voters, ∃ event ∈ events, CarriesVote node hash number voter event

/-- A block number is recorded as finalized, by the chain or by the tracker. -/
def Recorded (node : Node) (number : BlockNumber) : Prop :=
  node.chain.finalizedBlock = number ∨ node.tracker.finalizedNumber = number

/-- A message with a vote of a peer. -/
def IsVote (event : NodeEvent) : Prop :=
  ∃ now instant voter hash number signature,
    event = .message now instant (.finalityVote voter hash number signature)

/-- Without keys the vote of a peer changes nothing but the number of validators. -/
theorem step_vote_iff (hvote : IsVote event) (hk : node.chain.validatorSet.Keyless) :
    Step node event node' ↔ node' = node.refreshValidatorCount := by
  obtain ⟨now, instant, voter, hash, number, signature, rfl⟩ := hvote
  have hreceive : (receive now instant (.finalityVote voter hash number signature) :
      Exec Node Empty _).run node = some (.ok [], node.refreshValidatorCount) := by
    rw [receive, handleNetworkMessage]
    change some (_, (node.countVote voter hash number signature).refreshValidatorCount) = _
    rw [countVote_of_keyless hk]
  constructor
  · rintro ⟨_, hrun⟩
    rw [hreceive] at hrun
    exact (Prod.mk.inj (some.inj hrun)).2.symm
  · rintro rfl
    exact ⟨[], hreceive⟩

section Votes

variable (hk : node.chain.validatorSet.Keyless) (hvotes : ∀ event ∈ events, IsVote event)

include hk hvotes

/-- Votes of peers never change what is recorded. -/
theorem kept_of_votes (h : Run Step node events node') : node'.chain = node.chain ∧
      node'.tracker.finalizedNumber = node.tracker.finalizedNumber := by
  induction h with
  | nil => exact ⟨rfl, rfl⟩
  | @snoc _ event _ _ _ hstep ih =>
    obtain ⟨hchain, hnumber⟩ := ih fun e he => hvotes e (mem_append_left _ he)
    have hvote := hvotes event (mem_append_right _ (mem_singleton_self event))
    obtain rfl := (step_vote_iff hvote (hchain ▸ hk)).1 hstep
    exact ⟨hchain, hnumber⟩

/-- So they record no block above what is recorded. -/
theorem not_recorded_of_votes (hchain : node.chain.finalizedBlock < number)
    (htracker : node.tracker.finalizedNumber < number) (h : Run Step node events node') :
    ¬ node'.Recorded number := by
  obtain ⟨hsame, hnumber⟩ := kept_of_votes hk hvotes h
  rintro (hrecorded | hrecorded)
  · rw [hsame] at hrecorded
    exact UInt64.ne_of_lt hchain hrecorded
  · rw [hnumber] at hrecorded
    exact UInt64.ne_of_lt htracker hrecorded

/-- Votes of peers can always be received. -/
theorem exists_run_of_votes : ∃ node', Run Step node events node' := by
  induction events using reverseRecOn with
  | nil => exact ⟨node, .nil⟩
  | append_singleton events event ih =>
    have hfirst : ∀ e ∈ events, IsVote e := fun e he => hvotes e (mem_append_left _ he)
    obtain ⟨_, hrun⟩ := ih hfirst
    have hchain := (kept_of_votes hk hfirst hrun).1
    have hvote := hvotes event (mem_append_right _ (mem_singleton_self event))
    exact ⟨_, hrun.snoc ((step_vote_iff hvote (hchain ▸ hk)).2 rfl)⟩

end Votes

/-- However many members of the validator set send their signed votes for a block above the
finalized height, the block is not recorded as finalized after they were received. -/
theorem peer_votes_not_recorded {node : Node} (h : Running node) {hash : H256}
    {number : BlockNumber} {events : List NodeEvent} (hquorum : Quorum node hash number events)
    (hchain : node.chain.finalizedBlock < number)
    (htracker : node.tracker.finalizedNumber < number) :
    (∃ node', Run Step node events node') ∧ ∀ node', Run Step node events node' →
      ¬ node'.Recorded number := by
  have hvotes : ∀ event ∈ events, IsVote event := by
    intro event hevent
    obtain ⟨voter, now, instant, signature, _, rfl, -⟩ := hquorum.votes event hevent
    exact ⟨now, instant, voter, hash, number, signature, rfl⟩
  exact ⟨exists_run_of_votes h.keyless hvotes,
    fun _ => not_recorded_of_votes h.keyless hvotes hchain htracker⟩

/-- In every run in which announcements are sincere, a block that the tracker reports as finalized
is attested by enough members of the validator set. -/
theorem reported_wellAttested
    (hsign : ∀ (k : Keypair) (message : Bytes), verify message (k.sign message) k.publicKey = true)
    {chain : Chain} {keypair : Keypair} {gasConfig : GasConfig} {events : List NodeEvent}
    {node node' : Node} {event : NodeEvent} {hash : H256} {number : BlockNumber}
    (hstart : Chain.Started chain)
    (hrun : Run (Within (fun _ event => Sincere event) Step) (start chain keypair gasConfig) events
      node) (hsincere : Sincere event) (hstep : Step node event node')
        (hreports : Reports node node' hash number) :
    WellAttested node node' (events ++ [event]) hash number := by
  have hinv : node.chain.validatorSet.Keyless ∧ VotesForKnown node := by
    refine hrun.invariant (I := fun n => n.chain.validatorSet.Keyless ∧ VotesForKnown n) ?_ ?_
    · intro _ _ _ hstep hs
      have heffect := hstep.2.effect hs.1
      exact ⟨heffect.keyless hs.1, heffect.votesForKnown hstep.1 hs.2⟩
    · refine ⟨hstart.keyless, fun hash voter hvoter => ?_⟩
      exact absurd hvoter ExtTreeSet.not_mem_empty
  exact (hstep.effect hinv.1).wellAttested hsign hsincere hinv.2 hreports

end Node

/-! ## Votes on the small chain -/

namespace Demo

open Node

/-- The vote of the only validator for a block. -/
def onlyVote (hash : H256) : NodeEvent :=
  .message 0 0 (.finalityVote key.address hash 1 (key.sign (voteBytes key.address hash 1)))

/-- The only validator of the small chain sends its signed vote for the first block. -/
theorem exists_quorum : ∃ node : Node, Running node ∧ Quorum node ⟨5⟩ 1 [onlyVote ⟨5⟩] ∧
      node.chain.finalizedBlock < 1 ∧ node.tracker.finalizedNumber < 1 := by
  obtain ⟨_, c, _, _, hstart, -, -, hcheck⟩ := exists_grown (fun _ => [])
      (fun c _ _ => decide (c.validatorSet.validators.length = 1) &&
        c.validatorSet.contains key.address && decide (c.finalizedBlock < 1)) (by decide +kernel)
  simp only [Bool.and_eq_true, decide_eq_true_eq] at hcheck
  obtain ⟨⟨hone, hmember⟩, hfinalized⟩ := hcheck
  have hvote : CarriesVote (Node.start c key .default) ⟨5⟩ 1 key.address (onlyVote ⟨5⟩) :=
    ⟨0, 0, _, key.publicKey, rfl, hmember, rfl, by decide +kernel⟩
  refine ⟨Node.start c key .default, ⟨c, key, .default, [], hstart.started, .nil⟩, ⟨?_, ?_⟩,
    hfinalized, (by decide : (0 : UInt64) < 1)⟩
  · intro _ hevent
    obtain rfl := mem_singleton.1 hevent
    exact ⟨key.address, hvote⟩
  · refine ⟨[key.address], nodup_singleton _, ?_, fun voter hvoter => ?_⟩
    · rw [Node.start, hone]
      decide
    · obtain rfl := mem_singleton.1 hvoter
      exact ⟨_, mem_singleton_self _, hvote⟩

/-- The votes of all validators do not make a block final. -/
theorem quorum_not_recorded :
      ¬ ∀ (node : Node) (hash : H256) (number : BlockNumber) (events : List NodeEvent),
      Running node → Quorum node hash number events → node.chain.finalizedBlock < number →
      node.tracker.finalizedNumber < number →
      ∀ node', Run Step node events node' → node'.Recorded number := by
  intro h
  obtain ⟨node, hrunning, hquorum, hchain, htracker⟩ := exists_quorum
  have hvotes : ∀ event ∈ [onlyVote ⟨5⟩], IsVote event := by
    intro _ hevent
    obtain rfl := mem_singleton.1 hevent
    exact ⟨0, 0, key.address, ⟨5⟩, 1, _, rfl⟩
  obtain ⟨node', hrun⟩ := exists_run_of_votes hrunning.keyless hvotes
  exact not_recorded_of_votes hrunning.keyless hvotes hchain htracker hrun
    (h node ⟨5⟩ 1 _ hrunning hquorum hchain htracker node' hrun)

/-- The vote of the only validator, in `peer_votes_not_recorded`. -/
theorem only_vote_not_recorded :
    ∃ node : Node, Running node ∧ (∃ node', Run Step node [onlyVote ⟨5⟩] node') ∧
      ∀ node', Run Step node [onlyVote ⟨5⟩] node' → ¬ node'.Recorded 1 := by
  obtain ⟨node, hrunning, hquorum, hchain, htracker⟩ := exists_quorum
  exact ⟨node, hrunning, peer_votes_not_recorded hrunning hquorum hchain htracker⟩

/-- The announcement of the first block under a hash. -/
def announcement (hash : H256) (block : Block) : NodeEvent :=
  .message 0 0 (.blockAnnounce hash 1 block)

/-- A node on a chain receives that announcement, and a check holds of the block and of the node
before and after. -/
def announces (signature : BlockHeader → Signature) (hash : Block → H256)
    (check : Block → Node → Node → Bool) (c : Chain) (genesis : BlockHeader) : Bool :=
  let block := (firstBlock genesis).withSignature (signature genesis)
  match (receive 0 0 (.blockAnnounce (hash block) 1 block) : Exec Node Empty _).run
    (Node.start c ⟨2⟩ .default) with
  | some (.ok _, node') => check block (Node.start c ⟨2⟩ .default) node'
  | _ => false

/-- What an evaluation of it shows. -/
theorem exists_announced (signature : BlockHeader → Signature) (hash : Block → H256)
    (check : Block → Node → Node → Bool)
    (h : ((grow fun _ => []).any fun g => announces signature hash check g.1 g.2.1) = true) :
    ∃ c block node', Chain.Started c ∧ Step (Node.start c ⟨2⟩ .default)
      (announcement (hash block) block) node' ∧
      check block (Node.start c ⟨2⟩ .default) node' = true := by
  obtain ⟨_, c, genesis, _, hstart, -, -, hcheck⟩ := exists_grown (fun _ => [])
    (fun c genesis _ => announces signature hash check c genesis) h
  unfold announces at hcheck
  dsimp only at hcheck
  split at hcheck
  · rename_i replies node' hrun
    exact ⟨c, _, node', hstart.started, ⟨replies, hrun⟩, hcheck⟩
  · cases hcheck

/-- A peer makes a hash final that no block has. -/
theorem announced_not_attested :
    ¬ ∀ (chain : Chain) (keypair : Keypair) (gasConfig : GasConfig) (events : List NodeEvent)
      (node node' : Node) (event : NodeEvent) (hash : H256) (number : BlockNumber),
      Chain.Started chain → Run Step (Node.start chain keypair gasConfig) events node →
      Step node event node' → Reports node node' hash number →
      WellAttested node node' (events ++ [event]) hash number := by
  intro h
  obtain ⟨c, block, node', hstart, hstep, hcheck⟩ :=
    exists_announced (fun _ => .zero) (fun _ => ⟨5⟩)
      (fun block node node' => decide (block.header.hash ≠ ⟨5⟩) &&
      decide (node.tracker.threshold = 1) &&
        decide (node.tracker.finalizedNumber ≠ node'.tracker.finalizedNumber) &&
      decide (node'.tracker.finalizedNumber = 1) && decide (node'.tracker.finalizedHash = ⟨5⟩))
    (by decide +kernel)
  simp only [Bool.and_eq_true, decide_eq_true_eq] at hcheck
  obtain ⟨⟨⟨⟨hhash, hthreshold⟩, hnew⟩, hnumber⟩, hfinal⟩ := hcheck
  obtain ⟨_, -, henough, hattested⟩ :=
    h c ⟨2⟩ .default [] _ node' _ ⟨5⟩ 1 hstart .nil hstep ⟨hnew.symm, hnumber, hfinal⟩
  rw [hthreshold] at henough
  obtain ⟨voter, hvoter⟩ := exists_mem_of_length_pos henough
  -- the only event is the announcement, and its block has another hash
  rcases (hattested voter hvoter).2 with ⟨event, hevent, _, _, _, _, rfl, -⟩ |
    ⟨event, hevent, block', hbrings, hhash', -⟩
  · cases mem_singleton.1 hevent
  · obtain rfl := mem_singleton.1 hevent
    obtain rfl : block = block' := hbrings
    exact hhash hhash'

/-- The announcement of the signed first block under its own hash, in `reported_wellAttested`. -/
theorem announced_wellAttested : ∃ (c : Chain) (block : Block) (node' : Node), Chain.Started c ∧
      Step (Node.start c ⟨2⟩ .default) (announcement block.header.hash block) node' ∧
      WellAttested (Node.start c ⟨2⟩ .default) node' [announcement block.header.hash block]
        block.header.hash 1 := by
  obtain ⟨c, block, node', hstart, hstep, hcheck⟩ := exists_announced
    (fun genesis => key.sign (firstBlock genesis).header.signableBytes)
    (fun block => block.header.hash)
    (fun block node node' => decide (block.header.validator = key.address) &&
      verify block.header.signableBytes block.header.signature key.publicKey &&
      decide (node.tracker.finalizedNumber ≠ node'.tracker.finalizedNumber) &&
      decide (node'.tracker.finalizedNumber = 1) &&
      decide (node'.tracker.finalizedHash = block.header.hash))
    (by decide +kernel)
  simp only [Bool.and_eq_true, decide_eq_true_eq] at hcheck
  obtain ⟨⟨⟨⟨hvalidator, hverify⟩, hnew⟩, hnumber⟩, hfinal⟩ := hcheck
  refine ⟨c, block, node', hstart, hstep, ?_⟩
  exact reported_wellAttested (fun _ _ => beq_self_eq_true _) hstart .nil
    ⟨rfl, key.publicKey, hvalidator.symm, hverify⟩ hstep ⟨hnew.symm, hnumber, hfinal⟩

end Demo

end Vtt
