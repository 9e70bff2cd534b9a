import Mathlib.Algebra.Order.BigOperators.Group.List
import Vtt.Executor.Circulation

/-!
# Votes by token holders

A vote on a proposal of an asset counts what the voter has available when voting. Tokens that leave
a voter afterwards can be counted again.
-/

namespace Vtt

open Lib TransactionAction List StateDB

/-- The transactions by which tokens change hands: transfers and the operations of the exchange. -/
def TransactionAction.isTrade : TransactionAction → Bool
  | .assetTransfer .. | .claimMiningRewards .. => true
  | action => action.isExchange

/-- All votes on a proposal, as a number. -/
def AssetProposal.cast (p : AssetProposal) : ℕ :=
  p.votesYes.raw.toNat + p.votesNo.raw.toNat + p.votesAbstain.raw.toNat

namespace Executor

open Confined

variable {p : AssetProposal} {supply : Amount} {sender : Address}

/-! ## Proposals stay as they are -/

/-- The proposals of the assets are the same. -/
def SameProposals (s t : StateDB) : Prop := t.assetProposals = s.assetProposals

instance : IsPreorder StateDB SameProposals where
  refl _ := rfl
  trans _ _ _ h h' := h'.trans h

theorem dealing_sameProposals : Dealing SameProposals fun _ => True where
  aside _ _ h := h.proposals
  addBalance _ _ := .found fun _ _ => .update fun _ => rfl
  subBalance _ _ _ := .found fun _ _ => .update fun _ => rfl
  putOwnership _ _ _ _ := rfl
  putPoolRaw _ _ _ := rfl
  setCachedAsset _ _ _ := rfl

section Transactions

variable {ctx : BlockContext} {tx : SignedTransaction} {s t : StateDB}
  {result : ExecutionResult} {assetId proposalId : H256}

/-- What a vote adds to a proposal. -/
theorem addAssetVote_spec {p' : AssetProposal} {voter : Address} {vote : Vote} {power : Amount}
    (h : addAssetVote p voter vote power = some p') :
    p'.cast = p.cast + power.raw.toNat ∧ p'.voters = p.voters ++ [voter] ∧
      p'.assetId = p.assetId := by
  cases vote with
  | yes | no | abstain =>
    obtain ⟨_, hsum, rfl⟩ := Option.map_eq_some_iff.1 h
    have total := Amount.toNat_checkedAdd hsum
    refine ⟨?_, rfl, rfl⟩
    unfold AssetProposal.cast
    dsimp only
    omega

/-- What different owners hold is part of what all hold. -/
theorem sum_held_le (m : Holdings) (assetId : H256) {owners : List Address} (h : owners.Nodup) :
    (owners.map fun v => m.held (assetId, v)).sum ≤ m.supply assetId := by
  have part := sum_le_sumOver m (fun k r => if k.1 = assetId then r.held else 0)
    (show (owners.map fun v => (assetId, v)).Nodup from h.map fun _ _ heq => (Prod.mk.inj heq).2)
  refine le_trans (le_of_eq ?_) part
  rw [map_map]
  refine congrArg sum (map_congr_left fun v _ => ?_)
  show (m.recordOf (assetId, v)).held = _
  unfold Holdings.recordOf
  dsimp only [Function.comp]
  cases m[(assetId, v)]? with
  | none => rfl
  | some => exact (if_pos rfl).symm

/-- Tokens that stay where they were back the votes that were counted. -/
theorem sum_held_mono {m m' : Holdings} {voters : List Address}
    (h : ∀ v ∈ voters, m.held (assetId, v) ≤ m'.held (assetId, v)) :
    (voters.map fun v => m.held (assetId, v)).sum ≤
      (voters.map fun v => m'.held (assetId, v)).sum :=
  sum_le_sum h

variable [Crypto] [Wasm] [Environment]

/-- Only operations on proposals change them. -/
theorem sameProposals_operation {r : Except ExecutionError (List Log)}
    (hkind : tx.payload.action.isDeliberation = false)
    (h : (operation ctx tx).run s = some (r, t)) :
    SameProposals s t := by
  refine dealing_sameProposals.executeAction (fun _ _ _ => rfl)
    ⟨trivial, fun _ _ _ _ _ _ => trivial, fun _ _ _ h => h.proposals, ?_, ?_,
    fun _ _ _ _ _ => rfl, fun _ _ _ _ _ _ => rfl⟩ (fun _ _ _ _ => rfl) h
  · intro hdeliberation
    rw [hkind] at hdeliberation
    cases hdeliberation
  · intro _ _ _ haction
    rw [haction] at hkind
    cases hkind

theorem Outcome.sameProposals (h : Outcome ctx tx s result t)
    (hkind : tx.payload.action.isDeliberation = false) :
    SameProposals s t := by
  cases h with
  | inert | excessive => rfl
  | short | failed => exact (charge_same ..).2.1
  | done _ hrun => exact (sameProposals_operation hkind hrun).trans (charge_same ..).2.1

omit [Wasm] [Environment] in
/-- A vote that is counted: the voter has not voted, and the weight is what is available. -/
theorem executeVoteAssetProposal_ok {id : H256} {vote : Vote} {currentBlock : UInt64}
    {logs : List Log}
    (h : (executeVoteAssetProposal sender id vote currentBlock).run s = some (.ok logs, t)) :
    ∃ p p', s.getAssetProposal id = some p ∧ sender ∉ p.voters ∧
      addAssetVote p sender vote (s.getOwnership p.assetId sender).available = some p' ∧
      t.assetProposals = s.assetProposals.insert id p' := by
  obtain ⟨_, _, hactive, h⟩ := run_bind_ok h
  obtain ⟨q, hp, hactive⟩ := ok_of_okOr (o := s.getAssetProposal id) hactive
  obtain ⟨-, hactive⟩ := ok_of_require hactive
  obtain ⟨rfl, rfl⟩ := ok_of_pure hactive
  obtain ⟨-, h⟩ := ok_of_require h
  obtain ⟨hvoted, h⟩ := ok_of_require h
  obtain ⟨-, h⟩ := ok_of_require h
  obtain ⟨_, hchange, -⟩ := ok_of_last h
  obtain ⟨_, hq, hchange⟩ := ok_of_okOr (o := s.getAssetProposal id) hchange
  obtain rfl := Option.some.inj (hp.symm.trans hq)
  obtain ⟨p', hadd, hchange⟩ := ok_of_unwrap hchange
  cases hchange
  refine ⟨_, p', hp, ?_, hadd, rfl⟩
  simpa [AssetProposal.hasVoted] using hvoted

/-! ## Tokens of a voting period -/

/-- A transaction of the voting period: a trade or a vote, by which no tokens of the asset leave an
address that has voted on the proposal. -/
structure SparesVoters (assetId proposalId : H256) (s : StateDB) (tx : SignedTransaction) :
    Prop where
  kind : tx.payload.action.isTrade = true ∨ ∃ id vote, tx.payload.action =
    .voteAssetProposal id vote
  sender : ∀ p, s.getAssetProposal proposalId = some p → tx.payload.action.isExchange = true ∨
      (∃ recipient amount, tx.payload.action = .assetTransfer assetId recipient amount) →
      tx.sender ∉ p.voters
  exchange : ∀ p, s.getAssetProposal proposalId = some p → tx.payload.action.isExchange = true →
    Address.zero ∉ p.voters

omit [Wasm] [Environment] in
/-- A trade that is not one of the exchange, or a vote, moves no tokens other than those of a
transfer. -/
theorem SparesVoters.foreign (h : SparesVoters assetId proposalId s tx)
    (hexchange : ¬ tx.payload.action.isExchange = true)
    (htransfer : ¬ ∃ recipient amount,
      tx.payload.action = .assetTransfer assetId recipient amount) :
    ∀ f ∈ planned s tx.sender tx.payload.action, f.key.1 ≠ assetId := by
  intro _ hf
  rcases h.kind with htrade | ⟨id, _, haction⟩
  · generalize tx.payload.action = action at *
    cases action with
    | assetTransfer _ recipient amount =>
      rw [Flow.asset_of_mem_move hf]
      rintro rfl
      exact htransfer ⟨recipient, amount, rfl⟩
    | claimMiningRewards => cases hf
    | _ => first | exact absurd htrade hexchange
  · rw [haction] at hf
    cases hf

/-- Who has voted keeps the tokens. -/
theorem Outcome.held_kept (h : Outcome ctx tx s result t) (hkeyed : s.holdings.Keyed)
    (hspares : SparesVoters assetId proposalId s tx) (hp : s.getAssetProposal proposalId = some p)
    {v : Address} (hv : v ∈ p.voters) : s.holdings.held (assetId, v) ≤ t.holdings.held
      (assetId, v) := by
  by_cases hmoves : tx.payload.action.isExchange = true ∨
      ∃ recipient amount, tx.payload.action = .assetTransfer assetId recipient amount
  · have hsender : v ≠ tx.sender := fun heq => hspares.sender p hp hmoves (heq ▸ hv)
    exact h.held_le hkeyed hsender (fun hexchange heq => hspares.exchange p hp hexchange (heq ▸ hv))
      assetId
  rw [not_or] at hmoves
  have flows := Flow.held_of_runAll (h.flows hkeyed) (assetId, v)
  have nothing : ((if result.receipt.success then planned s tx.sender tx.payload.action else []).map
      (Flow.loss (assetId, v))).sum = 0 := by
    refine sum_eq_zero fun n hn => ?_
    obtain ⟨f, hf, rfl⟩ := mem_map.1 hn
    refine Flow.loss_of_ne fun heq => ?_
    split at hf
    · exact hspares.foreign hmoves.1 hmoves.2 f hf (congrArg Prod.fst heq)
    · cases hf
  omega

/-- An asset is registered and no liquidity token of a pool. -/
structure Plain (assetId : H256) (s : StateDB) : Prop where
  registered : assetId ∈ s.assets
  unlisted : ∀ poolId pool, s.pool poolId = some pool → pool.lpTokenId ≠ assetId

omit [Crypto] [Wasm] [Environment] in
theorem unlisted_of_poolChange (h : PoolChange s t) (hs : Books s) (hplain : Plain assetId s) :
    ∀ poolId pool, t.pool poolId = some pool → pool.lpTokenId ≠ assetId := by
  intro poolId pool hpool
  obtain ⟨_, origin⟩ := h.origin hs
  obtain ⟨pool₀, h₀, hlp⟩ | ⟨-, hasset, -⟩ := (origin poolId pool hpool).2
  · exact hlp ▸ hplain.unlisted poolId pool₀ h₀
  · exact fun heq => hasset (heq ▸ hplain.registered)

omit [Wasm] [Environment] in
/-- Trades and votes neither issue tokens of a plain asset nor change its terms. -/
theorem Booked.not_issued {action : TransactionAction} (h : Booked sender action s t) (hs : Books s)
    (hplain : Plain assetId s)
    (hkind : action.isTrade = true ∨ ∃ id vote, action = .voteAssetProposal id vote) :
    t.holdings.supply assetId ≤ s.holdings.supply assetId ∧ t.terms assetId = s.terms assetId := by
  have same (h : t.assets = s.assets) : t.terms assetId = s.terms assetId :=
    congrArg (·[assetId]?.map _) h
  have hterms : t.terms assetId = s.terms assetId := by
    cases h.entry with
    | routine _ ledger => exact congrFun ledger.terms assetId
    | transferred _ _ _ _ _ _ assets => exact same assets
    | opened _ _ _ _ _ _ _ hasset _ assets =>
      unfold terms
      rw [assets, get_insert, if_neg]
      rintro rfl
      exact hasset hplain.registered
    | deposited _ _ _ _ _ _ _ _ trade => exact same trade.assets
    | withdrawn _ _ _ _ _ _ trade => exact same trade.assets
    | swapped _ _ _ _ _ _ _ trade => exact same trade.assets
    | collected _ _ trade => exact same trade.assets
    | created | redeemed | bridgedIn | bridgedOut => simp [isTrade, isExchange] at hkind
    | reissued _ _ haction => rcases haction with rfl | rfl <;> simp [isTrade, isExchange] at hkind
  refine ⟨?_, hterms⟩
  have hkeeps : KeepsSupply s action := by
    refine ⟨?_, ?_⟩
    · rintro _ _ _ _ _ rfl
      simp [isTrade, isExchange] at hkind
    · rintro _ (rfl | rfl) <;> simp [isTrade, isExchange] at hkind
  have hafter := Std.ExtTreeMap.getElem?_eq_some_getElem (h.entry.mem_assets hplain.registered)
  cases h.tally hs hkeeps hafter (unlisted_of_poolChange h.entry.poolChange hs hplain) with
  | known before hbefore held =>
    unfold terms at hterms
    simp_all [getAsset, AssetRecord.terms]
  | new hnew => exact absurd hplain.registered hnew

/-! ## The vote as a whole -/

/-- The votes of a proposal are backed by what different voters hold of the asset, and all that is
held by its supply. -/
structure Ballot (assetId proposalId : H256) (supply : Amount) (s : StateDB) :
    Prop extends Plain assetId s where
  books : Books s
  terms : (s.terms assetId).map (·.1) = some supply
  covered : s.holdings.supply assetId ≤ supply.raw.toNat
  proposal : ∃ p, s.getAssetProposal proposalId = some p ∧ p.assetId = assetId ∧ p.voters.Nodup ∧
    p.cast ≤ (p.voters.map fun v => s.holdings.held (assetId, v)).sum

omit [Crypto] [Wasm] [Environment] in
/-- So the votes do not exceed the supply. -/
theorem Ballot.cast_le (h : Ballot assetId proposalId supply s)
    (hp : s.getAssetProposal proposalId = some p) :
    p.cast ≤ supply.raw.toNat := by
  obtain ⟨_, hq, -, hnodup, _⟩ := h.proposal
  obtain rfl := Option.some.inj (hp.symm.trans hq)
  have held := sum_held_le s.holdings assetId hnodup
  have covered := h.covered
  omega

/-- The proposal after a transaction of the voting period. -/
theorem Outcome.proposal_backed (h : Outcome ctx tx s result t)
    (hballot : Ballot assetId proposalId supply s)
    (hspares : SparesVoters assetId proposalId s tx) :
    ∃ p, t.getAssetProposal proposalId = some p ∧ p.assetId = assetId ∧ p.voters.Nodup ∧
      p.cast ≤ (p.voters.map fun v => t.holdings.held (assetId, v)).sum := by
  obtain ⟨p, hp, hasset, hnodup, hcast⟩ := hballot.proposal
  have kept := sum_held_mono fun v hv => h.held_kept hballot.books.keyed hspares hp hv
  have unchanged (heq : t.getAssetProposal proposalId = s.getAssetProposal proposalId) :
      ∃ p, t.getAssetProposal proposalId = some p ∧ p.assetId = assetId ∧ p.voters.Nodup ∧
        p.cast ≤ (p.voters.map fun v => t.holdings.held (assetId, v)).sum :=
    ⟨p, heq.trans hp, hasset, hnodup, hcast.trans kept⟩
  by_cases hdeliberation : tx.payload.action.isDeliberation = false
  · refine unchanged ?_
    unfold getAssetProposal
    rw [h.sameProposals hdeliberation]
  rcases hspares.kind with htrade | ⟨id, _, haction⟩
  · generalize tx.payload.action = action at *
    cases action with
    | proposeAssetAction | voteAssetProposal | finalizeAssetProposal => cases htrade
    | _ => exact absurd rfl hdeliberation
  cases h with
  | inert | excessive => exact unchanged rfl
  | short | failed =>
    -- the proposals of the snapshot, in the second case
    exact unchanged (congrArg (·[proposalId]?) (charge_same ..).2.1)
  | done _ hrun =>
    have routine : tx.payload.action.isRoutine = true := by rw [haction]; rfl
    have holdings : t.holdings = s.holdings :=
      (sameLedger_of_isRoutine routine hrun).holdings.trans (sameLedger_charge ..).holdings
    rw [operation, haction] at hrun
    obtain ⟨_, q', hq, hvoted, hadd, hproposals⟩ := executeVoteAssetProposal_ok hrun
    rw [getAssetProposal, (charge_same ..).2.1] at hq
    rw [(charge_same ..).2.1] at hproposals
    by_cases hid : id = proposalId
    · subst hid
      obtain rfl := Option.some.inj (hp.symm.trans hq)
      obtain ⟨htotal, hvoters, hsame⟩ := addAssetVote_spec hadd
      refine ⟨q', ?_, hsame.trans hasset, ?_, ?_⟩
      · rw [getAssetProposal, hproposals, get_insert, if_pos rfl]
      · rw [hvoters]
        refine nodup_append.2 ⟨hnodup, nodup_singleton _, ?_⟩
        rintro _ hv _ hw rfl
        exact hvoted (mem_singleton.1 hw ▸ hv)
      · have weight : ((s.charge tx.sender (gasFee tx ctx.gasConfig)).getOwnership p.assetId
            tx.sender).available.raw.toNat ≤ t.holdings.held (assetId, tx.sender) := by
          rw [hasset, holdings,
            ← (sameLedger_charge s tx.sender (gasFee tx ctx.gasConfig)).holdings]
          exact Nat.le_add_right _ _
        rw [htotal, hvoters, map_append, sum_append, map_singleton, sum_singleton]
        exact Nat.add_le_add (hcast.trans kept) weight
    · refine unchanged ?_
      unfold getAssetProposal
      rw [hproposals, get_insert, if_neg hid]

/-- A transaction of the voting period keeps the votes backed. -/
theorem Outcome.ballot (h : Outcome ctx tx s result t)
    (hballot : Ballot assetId proposalId supply s)
    (hspares : SparesVoters assetId proposalId s tx) : Ballot assetId proposalId supply t := by
  have books := h.books hballot.books
  have proposal := h.proposal_backed hballot hspares
  cases hsuccess : result.receipt.success with
  | false =>
    obtain ⟨holdings, pools, assets⟩ := h.same_of_failure hsuccess
    refine ⟨⟨assets ▸ hballot.registered, ?_⟩, books, ?_, holdings ▸ hballot.covered, proposal⟩
    · intro poolId pool hpool
      rw [StateDB.pool, pools] at hpool
      exact hballot.unlisted poolId pool hpool
    · unfold terms
      rw [assets]
      exact hballot.terms
  | true =>
    have charged := sameLedger_charge s tx.sender (gasFee tx ctx.gasConfig)
    have booked := h.booked hsuccess
    have booksCharged := hballot.books.of_sameLedger charged
    have plain : Plain assetId (s.charge tx.sender (gasFee tx ctx.gasConfig)) := by
      refine ⟨?_, fun poolId pool hpool => ?_⟩
      · rw [(ledger_charge ..).2.2]
        exact hballot.registered
      · rw [StateDB.pool, charged.pools] at hpool
        exact hballot.unlisted poolId pool hpool
    obtain ⟨supplied, terms⟩ := booked.not_issued booksCharged plain hspares.kind
    refine ⟨⟨booked.entry.mem_assets plain.registered,
      unlisted_of_poolChange booked.entry.poolChange booksCharged plain⟩, books, ?_, ?_, proposal⟩
    · rw [terms, charged.terms]
      exact hballot.terms
    · rw [charged.holdings] at supplied
      exact supplied.trans hballot.covered

/-- The condition on an event: it is a transaction of the voting period that spares the voters. -/
def Event.SparesVoters (assetId proposalId : H256) (s : StateDB) : Event → Prop
  | .transaction _ tx => Executor.SparesVoters assetId proposalId s tx
  | _ => False

/-- Votes on a new proposal never exceed the supply of the asset in a run of trades and votes that
takes no tokens from who has voted, if nobody holds more than there is to begin with. -/
theorem votes_le_supply {events : List Event} {asset : AssetRecord} {p : AssetProposal}
    (hbooks : Books s) (hasset : s.getAsset assetId = some asset)
    (hlp : ∀ poolId pool, s.pool poolId = some pool → pool.lpTokenId ≠ assetId)
    (hcovered : s.holdings.supply assetId ≤ asset.totalSupply.raw.toNat)
    (hp : s.getAssetProposal proposalId = some p) (hid : p.assetId = assetId)
    (hnew : p.voters = [] ∧ p.cast = 0)
      (h : Run (Within (fun s event => event.SparesVoters assetId proposalId s) fun s event t =>
      event.Step s t) s events t) :
    ∃ asset' p', t.getAsset assetId = some asset' ∧ t.getAssetProposal proposalId = some p' ∧
      p'.cast ≤ asset'.totalSupply.raw.toNat := by
  have start : Ballot assetId proposalId asset.totalSupply s := by
    refine ⟨⟨?_, hlp⟩, hbooks, ?_, hcovered, p, hp, hid, ?_, ?_⟩
    · exact mem_of_get hasset
    · rw [terms, show s.assets[assetId]? = some asset from hasset]
      rfl
    · rw [hnew.1]
      exact nodup_nil
    · rw [hnew.2]
      exact Nat.zero_le _
  have ballot : Ballot assetId proposalId asset.totalSupply t := by
    refine h.invariant ?_ start
    intro _ event _ hstep hballot
    cases event with
    | transaction =>
      obtain ⟨hspares, _, hrun⟩ := hstep
      exact (outcome_of_executed hrun).ballot hballot hspares
    | release | settle | slash => exact absurd hstep.1 id
  obtain ⟨p', hp', -⟩ := ballot.proposal
  obtain ⟨_, hterms, hsupply⟩ := Option.map_eq_some_iff.1 ballot.terms
  obtain ⟨asset', hasset', rfl⟩ := Option.map_eq_some_iff.1 hterms
  exact ⟨asset', p', hasset', hp', (ballot.cast_le hp').trans (hsupply ▸ le_refl _)⟩

end Transactions

end Executor

/-! ## On a small state -/

namespace Demo

open Executor

/-- A signal on the asset of the validator, proposed in the first block. -/
def signalled : List (BlockContext × SignedTransaction) :=
  [(context, numbered 0 (.createAssetClass "Estate" "EST" "" ⟨1000⟩ 0 "other" "IT" "Estate Ltd")),
    (context, numbered 1 (.transfer stranger.address (.fromVtt 1))),
    (context, numbered 2 (.proposeAssetAction estate (.signal "paint") "paint it"))]

/-- The id of that proposal. -/
def signalId : H256 :=
  blake3Hash (Borsh.serialize (estate, key.address, (1 : UInt64), (2 : UInt64)))

/-- A transaction of the stranger with a nonce. -/
def strange (nonce : UInt64) (action : TransactionAction) : SignedTransaction :=
  let payload := { firstPayload action with nonce, gasLimit := 1000000 }
  ⟨payload, stranger.sign (Borsh.serialize payload), stranger.publicKey⟩

/-- The validator votes and hands all tokens on, and the new holder votes. -/
def votedTwice : List (BlockContext × SignedTransaction) :=
  [(context, numbered 3 (.voteAssetProposal signalId .yes)),
    (context, numbered 4 (.assetTransfer estate stranger.address ⟨1000⟩)),
    (context, strange 0 (.voteAssetProposal signalId .yes))]

/-- The votes on the proposal are more than the supply of the asset. -/
def overcast (db : StateDB) : Bool :=
  (db.getAsset estate).any fun asset => (db.getAssetProposal signalId).any fun p =>
    asset.totalSupply.raw.toNat < p.cast

/-- The proposal is new, the holdings are covered by the supply, and there are no pools. -/
def isOpen (db : StateDB) : Bool :=
  db.pools.isEmpty && (db.getAsset estate).any
    (fun asset => db.holdings.supply estate ≤ asset.totalSupply.raw.toNat) &&
    (db.getAssetProposal signalId).any fun p => p.assetId = estate && p.voters.isEmpty && p.cast = 0

/-- The same tokens are counted twice. -/
theorem tokens_counted_twice :
    ∃ s t asset p asset' p',
      Run (fun s event t => Event.Step s event t) funded (eventsOf signalled) s ∧
      s.getAsset estate = some asset ∧ s.holdings.supply estate ≤ asset.totalSupply.raw.toNat ∧
      s.getAssetProposal signalId = some p ∧ p.voters = [] ∧ p.cast = 0 ∧
      Run (fun s event t => Event.Step s event t) s (eventsOf votedTwice) t ∧
      t.getAsset estate = some asset' ∧ t.getAssetProposal signalId = some p' ∧
      asset'.totalSupply.raw.toNat < p'.cast := by
  obtain ⟨s, hrun, hcheck⟩ := exists_successes signalled funded
    (fun s => isOpen s && (successes votedTwice s).any overcast) (by decide +kernel)
  obtain ⟨hopen, hrest⟩ := Bool.and_eq_true_iff.1 hcheck
  simp only [isOpen, Bool.and_eq_true, Option.any_eq_true, decide_eq_true_eq,
    List.isEmpty_iff] at hopen
  obtain ⟨⟨-, asset, hasset, hcovered⟩, p, hp, ⟨-, hvoters⟩, hcast⟩ := hopen
  obtain ⟨t, hrun', hover⟩ := exists_successes votedTwice s overcast hrest
  simp only [overcast, Option.any_eq_true, decide_eq_true_eq] at hover
  obtain ⟨asset', hasset', p', hp', hover⟩ := hover
  exact ⟨s, t, asset, p, asset', p', hrun, hasset, hcovered, hp, hvoters, hcast, hrun',
    hasset', hp', hover⟩

theorem books_funded : Books funded := by
  have nothing : ∀ poolId pool, ¬ funded.pool poolId = some pool := by
    intro poolId _ h
    unfold pool at h
    cases h
  exact ⟨Holdings.keyed_empty, fun _ _ h => absurd h (nothing _ _),
    fun _ _ h => absurd h (nothing _ _), fun _ _ _ _ h => absurd h (nothing _ _), fun _ _ => rfl⟩

/-- One vote with all tokens is within the supply. -/
theorem first_vote_covered :
    ∃ s t asset' p', Run (fun s event t => Event.Step s event t) funded (eventsOf signalled) s ∧
      Event.Step s (.transaction context (numbered 3 (.voteAssetProposal signalId .yes))) t ∧
      t.getAsset estate = some asset' ∧ t.getAssetProposal signalId = some p' ∧
      p'.cast ≤ asset'.totalSupply.raw.toNat := by
  obtain ⟨s, hrun, hcheck⟩ := exists_successes signalled funded
    (fun s => isOpen s &&
      ((executeTransactionAt context (numbered 3 (.voteAssetProposal signalId .yes)) : DbM Empty
      _).run s).any (·.1.isOk)) (by decide +kernel)
  obtain ⟨hopen, hrest⟩ := Bool.and_eq_true_iff.1 hcheck
  simp only [isOpen, Bool.and_eq_true, Option.any_eq_true, decide_eq_true_eq,
    List.isEmpty_iff] at hopen
  obtain ⟨⟨hpools, _, hasset, hcovered⟩, _, hp, ⟨hid, hvoters⟩, hcast⟩ := hopen
  have books : Books s := hrun.invariant (fun _ _ _ hstep => Event.books hstep) books_funded
  have unlisted : ∀ poolId pool, s.pool poolId = some pool → pool.lpTokenId ≠ estate := by
    intro _ _ hpool
    unfold pool at hpool
    rw [Std.ExtTreeMap.isEmpty_iff.1 hpools, Std.ExtTreeMap.getElem?_empty] at hpool
    cases hpool
  obtain ⟨⟨result, t⟩, hvote, -⟩ := (Option.any_eq_true ..).1 hrest
  obtain ⟨result, rfl, -⟩ := executeTransactionAt_iff.1 hvote
  have step : Event.Step s (.transaction context (numbered 3 (.voteAssetProposal signalId .yes)))
    t := ⟨result, hvote⟩
  have spares : Event.SparesVoters estate signalId s
      (.transaction context (numbered 3 (.voteAssetProposal signalId .yes))) := by
    refine ⟨.inr ⟨signalId, .yes, rfl⟩, fun _ _ h => ?_, fun _ _ h => (nomatch h)⟩
    rcases h with h | ⟨_, _, h⟩
    · cases h
    · cases h
  obtain ⟨asset', p', hasset', hp', hle⟩ := votes_le_supply books hasset unlisted hcovered hp hid
    ⟨hvoters, hcast⟩ (.snoc .nil ⟨spares, step⟩)
  exact ⟨s, t, asset', p', hrun, step, hasset', hp', hle⟩

end Demo

end Vtt
