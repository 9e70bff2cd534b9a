import Vtt.Executor.Block
import Vtt.State.Aside

/-!
# What operations do to balances and beside them

Most operations credit and debit accounts and otherwise change things that neither accounts nor the
ledger of the assets depend on. A relation that allows just that is one of all these operations,
which is shown here once for all such relations.
-/

namespace Vtt

open Lib Db VmEngine Guest Confined SettleM

variable {ctx ctx' : ExecutionContext}

/-! ## Contracts change no balances -/

/-- No service of the host records a balance change. -/
theorem hostAnswer_balanceChanges (memory : Option Bytes) (request : HostCall) :
    (hostAnswer ctx memory request).context.balanceChanges = ctx.balanceChanges := by
  cases request with
  | storageRead =>
    unfold hostAnswer hostStorageRead
    dsimp only
    repeat' split
    all_goals rfl
  | storageWrite keyPtr keyLen valPtr valLen =>
    show (hostStorageWrite ctx memory keyPtr keyLen valPtr valLen).context.balanceChanges = _
    unfold hostStorageWrite
    split
    · rw [apply_ite HostAnswer.context, apply_ite ExecutionContext.balanceChanges]
      exact ite_self _
    · rfl
  | callerAddress =>
    unfold hostAnswer hostCallerAddress
    dsimp only
    repeat' split
    all_goals rfl
  | emitLog =>
    unfold hostAnswer hostEmitLog
    dsimp only
    repeat' split
    all_goals rfl
  | caller | blockNumber | blockTimestamp | chainId | gasRemaining | consumeGas amount => rfl

theorem Guest.run_balanceChanges {α : Type} {visible : Bool} {guest : Guest α}
    {result : Except String α} (h : guest.run visible ctx = some (result, ctx')) :
    ctx'.balanceChanges = ctx.balanceChanges := by
  induction guest generalizing ctx with
  | done =>
    cases h
    rfl
  | trap =>
    cases h
    rfl
  | hang => cases h
  | call _ _ _ ih => exact (ih _ _ h).trans (hostAnswer_balanceChanges ..)

/-- A contract records no balance change. -/
theorem VmEngine.execute_balanceChanges [Wasm] {bytecode args : Bytes} {method : String}
    {result : Except VmError ExecutionResult}
    (h : execute bytecode method args ctx = some (result, ctx')) :
    ctx'.balanceChanges = ctx.balanceChanges := by
  unfold execute at h
  split at h
  · cases h
    rfl
  obtain ⟨⟨_ | _, _⟩, hinst, h⟩ := Option.bind_eq_some_iff.1 h
  · cases h
    exact run_balanceChanges hinst
  have hfirst := run_balanceChanges hinst
  dsimp only at h
  split at h
  · cases h
    exact hfirst
  split at h
  · cases h
    exact hfirst
  obtain ⟨⟨_ | ⟨_, _⟩, _⟩, hcall, h⟩ := Option.bind_eq_some_iff.1 h
  · cases h
    exact (run_balanceChanges hcall).trans hfirst
  · cases h
    exact (run_balanceChanges hcall).trans hfirst

/-! ## Routine operations -/

/-- The operations that leave the ledger of the assets alone. -/
def TransactionAction.isRoutine : TransactionAction → Bool
  | .createAssetClass .. | .assetTransfer .. | .createPool .. | .addLiquidity
    .. | .removeLiquidity ..
  | .swap .. | .claimRevenue .. | .freezeAsset .. | .unfreezeAsset .. | .claimRedemption ..
  | .bridgeDeposit .. | .bridgeWithdraw .. => false
  | _ => true

/-- The operations on governance proposals. -/
def TransactionAction.isGovernance : TransactionAction → Bool
  | .governancePropose .. | .governanceVote .. => true
  | _ => false

/-- The operations on the proposals of an asset. -/
def TransactionAction.isDeliberation : TransactionAction → Bool
  | .proposeAssetAction .. | .voteAssetProposal .. | .finalizeAssetProposal .. => true
  | _ => false

namespace MiningState

variable {lpTotalSupply : U128} {mining : MiningState}

theorem accrueEpoch_config (epoch : Epoch) : (accrueEpoch lpTotalSupply mining epoch).config =
    mining.config := by
  unfold accrueEpoch
  dsimp only
  split
  · rfl
  · rfl

/-- A mining programme goes on under the same conditions. -/
theorem updateToEpoch_config (currentEpoch : Epoch) :
    (mining.updateToEpoch currentEpoch lpTotalSupply).config = mining.config := by
  have fold : ∀ (epochs : List Epoch) (m : MiningState),
      (epochs.foldl (accrueEpoch lpTotalSupply) m).config = m.config := by
    intro epochs
    induction epochs with
    | nil => exact fun _ => rfl
    | cons _ _ ih => exact fun m => (ih _).trans (accrueEpoch_config ..)
  unfold updateToEpoch
  split
  · rfl
  · exact fold _ _

end MiningState

namespace Executor

open Confined StateDB

/-- A relation that allows to credit every account, to debit some accounts, and to change anything
that neither accounts nor the ledger of the assets depend on. -/
structure Routine (R : StateDB → StateDB → Prop) (payer : Address → Prop) : Prop where
  aside : ∀ ⦃s t⦄, Aside s t → R s t
  addBalance : ∀ address amount, Moves R (addBalance address amount)
  subBalance : ∀ address amount, payer address → Moves R (subBalance address amount)

namespace Routine

variable {R : StateDB → StateDB → Prop} {payer : Address → Prop} {ε α : Type} {s : StateDB}
  {sender validator address contract : Address} {assetId proposalId feedId id : H256}
  {amount totalAmount totalSupply totalStaked : Amount}
    {blockNumber currentBlock blockTimestamp nonce gasLimit : UInt64}
  {name description actionType feedType : String} {vote : Vote} {proposal : Proposal} {data : Bytes}

theorem cached [Std.Refl R] (g : StateSnapshot → α) : Moves R (cached g : DbM ε α) := .view

theorem of_aside (B : Routine R payer) {x : DbM ε α} (h : Moves Aside x) : Moves R x :=
  h.mono fun _ _ hst => B.aside hst

theorem setAssetProposalStatus (hd : ∀ ⦃s t⦄, Deliberates s t → R s t)
    (status : AssetProposalStatus) :
    Moves R (Executor.setAssetProposalStatus proposalId status) :=
  (deliberates_changeAssetProposal fun _ => .pure _).mono hd

theorem storeStatus (hl : ∀ ⦃s t⦄, Legislates s t → R s t) (status : ProposalStatus) :
    Moves R (Executor.storeStatus id proposal status : DbM ε Unit) :=
  (legislates_putGovernanceProposal ..).mono hl

theorem credit (B : Routine R payer) : Moves R (Executor.credit address amount : DbM ε Unit) :=
  .ignoreError (B.addBalance ..)

theorem lift {x : DbM ε α} (h : Moves R x) : Moves R (lift x) := fun _ _ _ hrun => h hrun

variable [IsPreorder StateDB R]

variable {P : AssetRecord → AssetRecord → Prop} {staking : StakingState}

theorem transfer (B : Routine R payer) {source : Address} (hp : payer source) (dest : Address) :
    Moves R (transfer source dest amount) :=
  .ite (.pure _) <| .bind (B.subBalance _ _ hp) fun _ => B.addBalance ..

theorem processUnbonding (B : Routine R payer) (now : Timestamp) :
    Moves R (processUnbonding now : DbM ε Amount) :=
  .bind .view fun _ => .bind (.unwrap _) fun _ =>
    .bind (.update fun _ => B.aside (.of_apart rfl (.refl _))) fun _ =>
    .bind (.forEach _ fun _ _ => .ignoreError (B.addBalance ..)) fun _ =>
    .bind (.update fun _ => B.aside (.of_apart rfl
      (.ite (.refl _) (apart_writeMeta _ _ _ (by decide +kernel))))) fun _ => .pure _

/-! ### Assets -/

theorem payShare (B : Routine R payer) (paid : Amount × UInt64) (holder : OwnershipRecord) :
    Moves R (Executor.payShare totalAmount totalSupply paid holder) :=
  .ite (.bind (.mapError (B.addBalance ..)) fun _ => .bind (.unwrap _) fun _ => .pure _) (.pure _)

theorem executeDistributeRevenue [Crypto] (B : Routine R payer) (hp : payer sender) :
    Moves R (Executor.executeDistributeRevenue sender assetId totalAmount) := by
  refine .guarded <| .bind (.bind .view fun _ => .okOr _) fun _ => .guarded <| .guarded <|
    .bind .view fun _ => .guarded <| .bind (.mapError (B.subBalance _ _ hp)) fun _ =>
    .bind (.foldEach _ fun _ _ _ => B.payShare ..) fun paid => ?_
  cases totalAmount.checkedSub paid.1 with
  | none => exact .pure _
  | some => exact .ite (.pure _) (.bind (.mapError (B.addBalance ..)) fun _ => .pure _)

theorem changesOnly_ofPure {f : AssetRecord → AssetRecord} (h : ∀ a, P a (f a)) :
    Db.ChangesOnly P (fun asset => pure (f asset) : AssetRecord → DbM ε AssetRecord) := by
  intro asset _ _ _ hrun
  cases hrun
  refine ⟨rfl, ?_⟩
  rintro _ ⟨⟩
  exact h asset

theorem changesOnly_okOr {o : AssetRecord → Option α} {e : ε} {f : AssetRecord → α → AssetRecord}
    (h : ∀ asset x, P asset (f asset x)) :
    Db.ChangesOnly P (fun asset => (do
      let x ← okOr (o asset) e
      pure (f asset x)) : AssetRecord → DbM ε AssetRecord) := by
  intro asset _ _ _ hrun
  dsimp only at hrun
  cases hx : o asset with
  | none =>
    rw [hx] at hrun
    cases hrun
    exact ⟨rfl, fun _ herror => by cases herror⟩
  | some x =>
    rw [hx] at hrun
    cases hrun
    refine ⟨rfl, ?_⟩
    rintro _ ⟨⟩
    exact h asset x

theorem executeFinalizeRedemption (B : Routine R payer) (hreforms : ∀ ⦃s t⦄, Reforms s t → R s t) :
    Moves R (Executor.executeFinalizeRedemption assetId) :=
  .bind (.bind .view fun _ => .okOr _) fun _ => .guarded <| .bind (cached _) fun _ =>
    .bind (.mono (reforms_changeAsset (changesOnly_ofPure fun _ => rfl)) hreforms) fun _ =>
    .ite (.pure _) (.mapError (B.addBalance ..))

/-- Carrying out a proposal, by a relation that does not care for the status of assets. -/
theorem runAssetAction [Crypto] (B : Routine R payer) (hreforms : ∀ ⦃s t⦄, Reforms s t → R s t)
    {proposal : AssetProposal} (hp : ∀ amount, proposal.action = .distributeRevenue amount →
      payer proposal.proposer) :
    Moves R (Executor.runAssetAction proposal) := by
  unfold Executor.runAssetAction
  cases haction : proposal.action with
  | distributeRevenue totalAmount =>
    exact .bind (B.executeDistributeRevenue (hp totalAmount haction)) fun _ => .pure _
  | changeIssuer => exact B.of_aside (aside_changeAsset (changesOnly_ofPure fun _ => ⟨rfl, rfl⟩))
  | signal => exact .pure _
  | disposeAsset => exact .mono (reforms_changeAsset (changesOnly_ofPure fun _ => rfl)) hreforms
  | finalizeRedemption => exact B.executeFinalizeRedemption hreforms

/-- Code that goes on with an active proposal. -/
theorem activeAssetProposal_bind {β : Type} {f : AssetProposal → ExecM β}
    (h : ∀ proposal, s.getAssetProposal proposalId = some proposal → proposal.status = .active →
      MovesAt R s (f proposal)) : MovesAt R s (activeAssetProposal proposalId >>= f) := by
  refine .still_bind (.found fun _ _ => .guarded <| .pure _) ?_
  intro _ hrun
  obtain ⟨p, hp, hrun⟩ := ok_of_okOr (o := s.getAssetProposal proposalId) hrun
  obtain ⟨hactive, hrun⟩ := ok_of_require hrun
  obtain ⟨rfl, -⟩ := ok_of_pure hrun
  exact h p hp hactive

/-- Code that goes on with a cached asset. -/
theorem cachedAsset_bind {β : Type} {missing : ExecutionError} {f : AssetRecord → ExecM β}
    (h : ∀ asset, s.getAsset assetId = some asset → MovesAt R s (f asset)) :
    MovesAt R s (cachedAsset assetId missing >>= f) :=
  MovesAt.okOr_bind (o := s.getAsset assetId) h

/-- Only a proposal that passed is carried out. -/
theorem executeFinalizeAssetProposal [Crypto] (hd : ∀ ⦃s t⦄, Deliberates s t → R s t)
    (hcarries : ∀ proposal asset, s.getAssetProposal proposalId = some proposal →
      proposal.status = .active → proposal.isVotingEnded currentBlock = true →
      s.getAsset proposal.assetId = some asset → proposal.hasQuorum asset.totalSupply = some true →
      assetProposalPasses proposal = true → MovesAt R s (Executor.runAssetAction proposal)) :
    MovesAt R s (Executor.executeFinalizeAssetProposal sender proposalId currentBlock) := by
  refine activeAssetProposal_bind fun proposal hproposal hactive => ?_
  refine .require_bind fun hended => ?_
  refine cachedAsset_bind fun asset hasset => ?_
  refine .unwrap_bind fun hasQuorum hquorum => ?_
  have last : Moves R (do
      let final ← getAssetProposal proposalId
      let final ← okOr final (.custom "asset proposal disappeared during finalization")
      pure [event sender "FinalizeAssetProposal" [proposalId]
        (Borsh.serialize (sender, proposalId, finalStatusText final.status))] : ExecM (List Log)) :=
    .found fun _ _ => .pure _
  by_cases hpass : (hasQuorum && assetProposalPasses proposal) = true
  · rw [if_pos hpass]
    obtain ⟨rfl, hpasses⟩ := Bool.and_eq_true_iff.1 hpass
    have carried := hcarries proposal asset hproposal hactive hended hasset hquorum hpasses
    exact .bind carried fun _ t _ => Moves.at (.bind (setAssetProposalStatus hd ..) fun _ => last) t
  · rw [if_neg hpass]
    exact Moves.at (.bind (setAssetProposalStatus hd ..) fun _ => last) s

theorem checkProposedAction (asset : AssetRecord) (action : AssetProposalAction) :
    Moves R (Executor.checkProposedAction sender asset action) := by
  unfold Executor.checkProposedAction
  cases action with
  | distributeRevenue => exact .bind (.bind .view fun _ => .pure _) fun _ => .require
  | finalizeRedemption => exact .require
  | changeIssuer | signal | disposeAsset => exact .pure _

theorem executeProposeAssetAction [Crypto] (hd : ∀ ⦃s t⦄, Deliberates s t → R s t)
    (action : AssetProposalAction) :
    Moves R (Executor.executeProposeAssetAction sender assetId action description
      blockNumber nonce) :=
  .bind (.bind .view fun _ => .okOr _) fun _ => .bind .view fun _ => .guarded <|
    .bind (checkProposedAction ..) fun _ => .bind ((deliberates_putAssetProposal _).mono hd)
    fun _ => .pure _

theorem executeVoteAssetProposal [Crypto] (hd : ∀ ⦃s t⦄, Deliberates s t → R s t) :
    Moves R (Executor.executeVoteAssetProposal sender proposalId vote currentBlock) :=
  .bind (.found fun _ _ => .guarded <| .pure _) fun _ => .guarded <| .guarded <|
    .bind .view fun _ => .guarded <|
    .bind ((deliberates_changeAssetProposal fun _ => .unwrap _).mono hd) fun _ => .pure _

theorem executeFundRedemptionPool [Crypto] (B : Routine R payer) (hp : payer sender) :
    Moves R (Executor.executeFundRedemptionPool sender assetId amount) := by
  have keeps := changesOnly_okOr (o := fun asset => asset.redemptionPool.checkedAdd amount)
    (e := ExecutionError.state (.serialization "redemption_pool overflow"))
    (P := fun asset changed => changed.terms = asset.terms ∧ changed.status = asset.status)
    (f := fun asset redemptionPool => { asset with redemptionPool }) fun _ _ => ⟨rfl, rfl⟩
  exact .guarded <| .bind (.bind .view fun _ => .okOr _) fun _ => .guarded <| .guarded <|
    .bind (.mapError (B.subBalance _ _ hp)) fun _ => .bind (B.of_aside (aside_changeAsset keeps))
    fun _ => .pure _

/-! ### Services -/

theorem requireTreasury (message : String) : Moves R (Executor.requireTreasury sender message) :=
  .bind (cached _) fun _ => .require

theorem executeSetKycApproval [Crypto] (B : Routine R payer) (approved : Bool) :
    Moves R (Executor.executeSetKycApproval sender address approved) :=
  .bind (requireTreasury ..) fun _ => .bind (B.of_aside (aside_setKycApproved ..)) fun _ => .pure _

theorem executeSetAddressJurisdiction [Crypto] (B : Routine R payer) (country : String) :
    Moves R (Executor.executeSetAddressJurisdiction sender address country) :=
  .bind (requireTreasury ..) fun _ => .guarded <| .guarded <|
    .bind (B.of_aside (aside_setAddressJurisdiction ..)) fun _ => .pure _

theorem parseFeedType : Moves R (Executor.parseFeedType feedType) :=
  .ite (.pure _) <| .ite (.pure _) <| .ite (.bind (.guarded <| .bind (.unwrap _) fun _ =>
    .bind (.okOr _) fun _ => .pure _) fun _ => .pure _) (.pure _)

theorem executeCreateOracleFeed [Crypto] (B : Routine R payer) (authorizedSources : List Address)
    (quorum : UInt8) (maxStalenessMs : UInt64) (decimals : UInt8) :
    Moves R (Executor.executeCreateOracleFeed sender feedId name feedType authorizedSources quorum
      maxStalenessMs decimals blockNumber) :=
  .guarded <| .bind (requireTreasury ..) fun _ => .guarded <| .guarded <| .guarded <|
    .guarded <| .guarded <| .bind parseFeedType fun _ =>
    .bind (.mapError (B.of_aside (aside_registerOracle _))) fun _ => .pure _

theorem executeSubmitOracleValue [Crypto] (B : Routine R payer) (value : Amount) :
    Moves R (Executor.executeSubmitOracleValue sender feedId value blockTimestamp) :=
  .bind (.mapError (B.of_aside (aside_submitOracle ..))) fun _ => .pure _

/-! ### Contracts -/

theorem executeCallContract [Crypto] [Wasm] (B : Routine R payer) (hp : payer sender)
    (method : String) (args : Bytes) (value : Amount) :
    Moves R (Executor.executeCallContract sender contract method args value blockNumber
      blockTimestamp gasLimit) := by
  have changes : ∀ {code : Bytes} {ctx : ExecutionContext} {outcome}, ctx.balanceChanges = [] →
      execute code method args ctx = some outcome →
      Moves R (forEach outcome.2.balanceChanges applyBalanceChange) := by
    intro _ _ outcome hctx hexec
    rw [execute_balanceChanges hexec, hctx]
    exact .pure _
  refine .found fun _ _ => .found fun _ _ =>
    .ite ?_ (.bind (.mapError (B.transfer hp ..)) fun _ => ?_)
  all_goals
    exact .bind .view fun _ => .unwrap_bind fun outcome hexec => .bind (.ofExcept _) fun _ =>
      .guarded <|
      .bind (.forEach _ fun _ _ => B.of_aside (aside_putContractStorage ..)) fun _ =>
      .bind (changes rfl hexec) fun _ => .pure _

/-! ### Mining rewards -/

/-- The rewards of a mining programme are paid by its source. -/
theorem claimMiningRewards (B : Routine R payer) {mining : MiningState}
    (hp : payer mining.config.source) (poolId : H256) (currentEpoch : Epoch) :
    Moves R (Dex.claimMiningRewards sender poolId currentEpoch mining) := by
  refine .bind (.bind .view fun _ => .okOr _) fun pool => .bind .view fun ownership =>
    .guarded <| .guarded <| .bind (.mapError (B.subBalance _ _ ?_)) fun _ =>
    .bind (.mapError (B.addBalance ..)) fun _ => .pure _
  show payer (mining.updateToEpoch currentEpoch pool.lpTotalSupply.raw).config.source
  rw [MiningState.updateToEpoch_config]
  exact hp

theorem executeClaimMiningRewards [Crypto] (B : Routine R payer) {poolId : H256}
    (hp : ∀ data (mining : MiningState), s.getMiningStateRaw poolId = some data →
      Borsh.tryFromSlice data = some mining → payer mining.config.source) :
    MovesAt R s (Executor.executeClaimMiningRewards sender poolId blockNumber) := by
  refine .still_bind (.bind (cached _) fun _ => .pure _) fun epoch _ => ?_
  refine MovesAt.okOr_bind (o := s.getMiningStateRaw poolId) fun data hdata => ?_
  refine .okOr_bind fun mining hmining => ?_
  exact Moves.at (.bind (.mapError (B.claimMiningRewards (hp data mining hdata hmining) ..))
    fun _ => .bind (B.of_aside (aside_putMiningStateRaw ..)) fun _ => .pure _) s

/-! ### Stakes -/

/-- A relation that allows to change the staking side of an account. -/
def Restakes (R : StateDB → StateDB → Prop) : Prop :=
  ∀ (s : StateDB) (address : Address) (staking : StakingState),
    R s (s.putAccount address { s.getAccount address with staking := some staking })

/-- A relation does not mind evidence that is marked as acted on. -/
def Marks (R : StateDB → StateDB → Prop) : Prop :=
  ∀ s offender epoch slot, R s (s.markSlashingEvidence offender epoch slot)

theorem still_addStake : Still (addStake sender validator amount staking) :=
  .ite (.bind (.okOr _) fun _ => .pure _) (.guarded <| .bind (.okOr _) fun _ => .pure _)

theorem executeStake (B : Routine R payer) (hre : Restakes R) (hp : payer sender) :
    Moves R (Executor.executeStake sender validator amount) :=
  .bind (.mapError (B.subBalance _ _ hp)) fun _ => .view_bind fun s =>
    .still_bind (still_addStake ..) fun _ _ => .okOr_bind fun _ _ => .update (hre s validator _)

theorem still_removeStake : Still (removeStake sender validator amount staking) :=
  .ite (.guarded <| .pure _) (.bind (.okOr _) fun _ => .guarded <| .pure _)

theorem executeUnstake (B : Routine R payer) (hre : Restakes R) :
    Moves R (Executor.executeUnstake sender validator amount blockTimestamp) :=
  .view_bind fun s => .still_bind (still_removeStake ..) fun _ _ => .unwrap_bind fun _ _ =>
    .bind (.update (hre s validator _)) fun _ t _ =>
      Moves.at (.bind .view fun _ => B.of_aside (aside_addUnbondingEntry ..)) t

theorem applySlash (B : Routine R payer) (hre : Restakes R) (s : StateDB) (validator : Address)
    (amount : Amount) :
    R s (s.applySlash validator amount).2 := by
  unfold StateDB.applySlash
  dsimp only
  split
  · exact refl s
  split
  · exact refl s
  split
  · refine IsTrans.trans _ _ _ (hre s validator _) (B.aside (.of_apart rfl ?_))
    exact .ite (apart_writeMeta _ _ _ (by decide +kernel)) (.refl _)
  · exact hre s validator _

theorem executeSubmitSlashingEvidence [Crypto] (B : Routine R payer) (hre : Restakes R)
    (hmarks : Marks R) (evidence : Bytes) :
    Moves R (Executor.executeSubmitSlashingEvidence sender evidence blockNumber) :=
  .bind (.okOr _) fun _ => .guarded <| .bind .view fun _ => .guarded <|
    .bind .view fun _ => .guarded <| .bind (.act fun s => B.applySlash hre s _ _) fun _ =>
    .bind (B.of_aside (aside_recordSlash ..)) fun _ =>
    .bind (.update fun s => hmarks s ..) fun _ => .pure _

/-- A new contract takes the place of whatever account has its address. -/
theorem executeDeployContract [Crypto] [Wasm] (B : Routine R payer)
    (hput : ∀ t codeHash, R t (t.putAccount (contractAddress sender (s.getNonce sender))
      { AccountState.default with codeHash := some codeHash }))
    (code : Bytes) : MovesAt R s (Executor.executeDeployContract sender code) := by
  refine .require_bind fun _ => .still_bind (.ofExcept _) fun _ _ => ?_
  have store : Moves Aside (storeCode code : ExecM H256) := aside_storeCode code
  refine .bind ((B.of_aside store).at s) fun codeHash t hstore => ?_
  have hnonce : t.getNonce sender = s.getNonce sender :=
    congrArg AccountState.nonce ((store hstore).toSameAccounts.getAccount sender)
  refine .still_bind (.bind .view fun _ => .pure _) fun nonce hrun => ?_
  obtain rfl : t.getNonce sender = nonce := by
    cases hrun
    rfl
  rw [hnonce]
  exact .bind (.update (hput t codeHash)) fun _ u _ => Moves.at (.pure _) u

/-! ### Governance -/

theorem validateParameterChange (key value : String) :
    Moves R (Executor.validateParameterChange key value) := by
  unfold Executor.validateParameterChange
  split
  iterate 2 exact .bind (.unwrap _) fun _ => .require
  iterate 4 exact .bind (.okOr _) fun _ => .pure _
  iterate 3 exact .bind (.okOr _) fun _ => .require
  · exact .bind (.okOr _) fun _ => .pure _
  iterate 2 exact .forEach _ fun _ _ => .require
  · exact .fail _

theorem proposedAction (paramKey paramValue : Option String) (recipient : Option Address)
    (amount : Option Amount) :
    Moves R (Executor.proposedAction description actionType paramKey paramValue
      recipient amount) := by
  unfold Executor.proposedAction
  split
  · exact .bind (validateParameterChange ..) fun _ => .pure _
  iterate 7 exact .pure _
  · exact .fail _

theorem executeGovernancePropose [Crypto] [Environment] (B : Routine R payer)
    (hl : ∀ ⦃s t⦄, Legislates s t → R s t) (paramKey paramValue : Option String)
    (recipient : Option Address) (amount : Option Amount) :
    Moves R (Executor.executeGovernancePropose sender description actionType paramKey
      paramValue recipient amount blockNumber) :=
  .guarded <| .bind (proposedAction ..) fun _ => .bind .view fun _ => .guarded <|
    .bind (cached _) fun _ => .bind (.unwrap _) fun _ =>
    .bind (B.of_aside aside_nextGovernanceId) fun _ =>
    .bind ((legislates_putGovernanceProposal ..).mono hl) fun _ => .pure _

theorem executeGovernanceVote [Crypto] (hl : ∀ ⦃s t⦄, Legislates s t → R s t) :
    Moves R (Executor.executeGovernanceVote sender proposalId vote blockNumber) :=
  .found fun _ _ => .bind (.okOr _) fun _ => .guarded <| .guarded <| .guarded <|
    .bind .view fun _ => .guarded <| .bind (.unwrap _) fun _ =>
    .bind ((legislates_putGovernanceProposal ..).mono hl) fun _ => .pure _

theorem finalizeProposal [Environment] (hl : ∀ ⦃s t⦄, Legislates s t → R s t) :
    Moves R (Executor.finalizeProposal currentBlock totalStaked id data : DbM ε Bool) := by
  unfold Executor.finalizeProposal
  split
  · exact .pure _
  · exact .ite (.pure _) <| .bind (.unwrap _) fun _ =>
      .ite (.bind (storeStatus hl ..) fun _ => .pure _) (.bind (storeStatus hl ..) fun _ => .pure _)

theorem overProposals {f : H256 → Bytes → DbM ε Bool} (h : ∀ id data, Moves R (f id data)) :
    Moves R (Executor.overProposals f) :=
  .bind (cached _) fun _ => .foldEach _ fun _ _ _ => .bind (h _ _) fun _ => .pure _

theorem treasurySpend (B : Routine R payer) (hp : ∀ address, payer address) (recipient : Address) :
    Moves R (Executor.treasurySpend recipient amount : DbM ε Unit) :=
  .bind (cached _) fun _ => .bind (.bind .view fun _ => .pure _) fun _ =>
    .ite (.ignoreError (B.transfer (hp _) _)) (.pure _)

theorem setIfSome {value : Option α} {set : α → DbM ε Unit} (h : ∀ v, Moves R (set v)) :
    Moves R (Executor.setIfSome value set) := by
  cases value with
  | none => exact .pure _
  | some v => exact h v

theorem applyParameterChange (B : Routine R payer) (key value : String) :
    Moves R (Executor.applyParameterChange key value : DbM ε Unit) := by
  have param : ∀ key value, Moves R (setParamRaw key value : DbM ε Unit) := fun _ _ =>
    B.of_aside (aside_writeNote (.param _) _ _)
  unfold Executor.applyParameterChange
  split
  · exact .bind (.unwrap _) fun _ => setIfSome fun _ =>
      B.of_aside (aside_writeNote .bridgeRelayer _ _)
  · exact .bind (.unwrap _) fun _ => setIfSome fun _ => B.of_aside (aside_setTreasuryAddress _)
  iterate 8 exact setIfSome fun _ => param ..
  iterate 2 exact param ..
  · exact .pure _

theorem parseCompliance (config : AppChainConfig) : Moves R (Executor.parseCompliance config) :=
  .ite (.pure _) (.ite (.bind (.unwrap _) fun _ => .pure _) (.fail _))

theorem registerAppChain [Environment] (B : Routine R payer) (configJson : String)
    (proposer : Address) :
    Moves R (Executor.registerAppChain name configJson proposer currentBlock) :=
  .bind (.ofExcept _) fun _ => .guarded <| .bind (parseCompliance _) fun _ =>
    .bind (B.of_aside aside_nextRegisteredChainId) fun _ =>
    .bind (B.of_aside (aside_writeNote (.registeredChain _) _ _)) fun _ => .pure _

theorem runProposal [Environment] (B : Routine R payer) (hp : ∀ address, payer address) :
    Moves R (Executor.runProposal proposal currentBlock : DbM ε Unit) := by
  unfold Executor.runProposal
  split
  · exact B.applyParameterChange ..
  · exact B.treasurySpend hp _
  · exact .ignoreError (B.registerAppChain ..)
  · exact .pure _
  · exact B.of_aside (aside_setDexPaused _)
  · exact B.of_aside (aside_writeNote .bridgePaused _ _)

theorem executeQueued [Environment] (B : Routine R payer) (hl : ∀ ⦃s t⦄, Legislates s t → R s t)
    (hp : ∀ address, payer address) :
    Moves R (Executor.executeQueued currentBlock id data : DbM ε Bool) := by
  unfold Executor.executeQueued
  split
  · exact .pure _
  split
  · exact .ite (.pure _) <| .bind (B.runProposal hp) fun _ => .bind (storeStatus hl ..)
      fun _ => .pure _
  · exact .pure _

/-! ### Settlement -/

theorem creditNonzero (B : Routine R payer) (amount : U128) :
    Moves R (Executor.creditNonzero address amount : DbM ε Unit) :=
  .ite (B.credit) (.pure _)

theorem distributeProducerReward (B : Routine R payer) (reward : Amount) :
    Moves R (Executor.distributeProducerReward validator reward : DbM ε Unit) := by
  refine .ite (.pure _) (.bind .view fun account => ?_)
  split
  · exact B.credit
  · refine .ite (B.credit) (.bind (B.creditNonzero ..) fun _ => .ite (.pure _) ?_)
    exact .bind (B.creditNonzero ..) fun _ => .bind (.foldEach _ fun _ _ _ =>
      .bind (B.creditNonzero ..) fun _ => .pure _) fun _ => .ite (B.credit) (.pure _)

/-- A block is settled. -/
theorem applyBlockRewardsAndGovernance [Environment] (B : Routine R payer)
    (hl : ∀ ⦃s t⦄, Legislates s t → R s t) (hp : ∀ address, payer address) {gasUsed : UInt64}
    {gasConfig : GasConfig} {producer : Address} {params : ConsensusParams} :
    Moves R (Executor.applyBlockRewardsAndGovernance blockNumber gasUsed gasConfig producer
      totalStaked params :
      SettleM ε BlockSettlementSummary) := by
  have mint : ∀ milli, Moves R (recordMintMilli milli : SettleM ε Unit) := fun _ =>
    .update fun _ => B.aside (.of_apart rfl (apart_writeMeta _ _ _ (by decide +kernel)))
  have burn : ∀ milli, Moves R (recordBurnMilli milli : SettleM ε Unit) := fun _ =>
    .update fun _ => B.aside (.of_apart rfl (apart_writeMeta _ _ _ (by decide +kernel)))
  refine .bind (lift (overProposals fun _ _ => finalizeProposal hl ..)) fun _ =>
    .bind (lift (overProposals fun _ _ => B.executeQueued hl hp ..)) fun _ =>
    .bind (lift (cached _)) fun reward => .bind ?_ fun _ => .bind ?_ fun _ => .pure _
  · exact .ite (.bind (lift (B.distributeProducerReward ..)) fun _ => .bind (lift (B.credit))
      fun _ => mint _) (.pure _)
  · exact .ite (.bind (lift (B.distributeProducerReward ..)) fun _ => burn _) (.pure _)

/-! ### All of them -/

variable [Crypto] [Environment] [Wasm]

/-- What a relation must allow for an operation in a state: the sender pays, or the source of a
mining programme; governance proposals and those of assets change, and one of an asset that passed
is carried out; a contract takes its place; and evidence is marked as acted on. -/
structure Allows (R : StateDB → StateDB → Prop) (payer : Address → Prop) (s : StateDB)
    (sender : Address) (blockNumber : UInt64) (action : TransactionAction) : Prop where
  fromSender : payer sender
  fromSource : ∀ poolId data (mining : MiningState), action = .claimMiningRewards poolId →
    s.getMiningStateRaw poolId = some data → Borsh.tryFromSlice data = some mining →
    payer mining.config.source
  legislates : action.isGovernance = true → ∀ ⦃s t⦄, Legislates s t → R s t
  deliberates : action.isDeliberation = true → ∀ ⦃s t⦄, Deliberates s t → R s t
  carries : ∀ proposalId proposal asset, action = .finalizeAssetProposal proposalId →
    s.getAssetProposal proposalId = some proposal → proposal.status = .active →
    proposal.isVotingEnded blockNumber = true → s.getAsset proposal.assetId = some asset →
    proposal.hasQuorum asset.totalSupply = some true → assetProposalPasses proposal = true →
    MovesAt R s (Executor.runAssetAction proposal)
  contract : ∀ code args t codeHash, action = .deployContract code args →
    R t (t.putAccount (contractAddress sender (s.getNonce sender))
      { AccountState.default with codeHash := some codeHash })
  marks : ∀ evidence, action = .submitSlashingEvidence evidence → Marks R

/-- Every routine operation leads to a related state. -/
theorem executeAction (B : Routine R payer) (hre : Restakes R) {action : TransactionAction}
    (hroutine : action.isRoutine = true) (h : Allows R payer s sender blockNumber action) :
    MovesAt R s (Executor.executeAction sender action blockNumber blockTimestamp nonce
      gasLimit) := by
  cases action with
  | createAssetClass | assetTransfer | createPool | addLiquidity | removeLiquidity | swap
  | claimRevenue | freezeAsset | unfreezeAsset | claimRedemption | bridgeDeposit
  | bridgeWithdraw => cases hroutine
  | transfer => exact Moves.at (.bind (.mapError (B.transfer h.fromSender ..)) fun _ => .pure _) s
  | stake => exact Moves.at (.bind (B.executeStake hre h.fromSender ..) fun _ => .pure _) s
  | unstake => exact Moves.at (.bind (B.executeUnstake hre ..) fun _ => .pure _) s
  | governanceVote => exact Moves.at (executeGovernanceVote (h.legislates rfl) ..) s
  | deployContract code args =>
    exact B.executeDeployContract (fun t codeHash => h.contract code args t codeHash rfl) code
  | callContract => exact Moves.at (B.executeCallContract h.fromSender ..) s
  | crossChainTransfer => exact Moves.at (.fail _) s
  | claimMiningRewards poolId =>
    exact B.executeClaimMiningRewards (fun data mining => h.fromSource poolId data mining rfl)
  | distributeRevenue => exact Moves.at (B.executeDistributeRevenue h.fromSender ..) s
  | proposeAssetAction => exact Moves.at (executeProposeAssetAction (h.deliberates rfl) ..) s
  | voteAssetProposal => exact Moves.at (executeVoteAssetProposal (h.deliberates rfl) ..) s
  | finalizeAssetProposal proposalId =>
    exact executeFinalizeAssetProposal (h.deliberates rfl)
      (fun proposal asset => h.carries proposalId proposal asset rfl)
  | governancePropose => exact Moves.at (B.executeGovernancePropose (h.legislates rfl) ..) s
  | submitSlashingEvidence evidence =>
    exact Moves.at (B.executeSubmitSlashingEvidence hre (h.marks evidence rfl) ..) s
  | fundRedemptionPool => exact Moves.at (B.executeFundRedemptionPool h.fromSender ..) s
  | setKycApproval => exact Moves.at (B.executeSetKycApproval ..) s
  | setAddressJurisdiction => exact Moves.at (B.executeSetAddressJurisdiction ..) s
  | createOracleFeed => exact Moves.at (B.executeCreateOracleFeed ..) s
  | submitOracleValue => exact Moves.at (B.executeSubmitOracleValue ..) s

end Routine

end Executor

end Vtt
