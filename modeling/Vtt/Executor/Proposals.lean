import Vtt.Executor.Governance

/-!
# Governance proposals and their life

A proposal is made and voted on by transactions. At the end of every block the proposals whose
voting period is over are queued or rejected, and those whose delay is over are executed.
-/

namespace Vtt.Executor

open Lib Confined
open Borsh (serialize tryFromSlice)

variable [Crypto] [Environment]

/-! ## Proposing and voting -/

/-- The error for an unknown kind of proposal. -/
def invalidActionType (actionType : String) : ExecutionError :=
  .custom ("invalid action_type '" ++ actionType ++ "', must be one of: parameter_change, " ++
    "treasury_spend, signal, dex_pause, dex_unpause, bridge_pause, bridge_unpause, register_chain")

/-- The action of a proposal from the arguments of the transaction. -/
def proposedAction (description actionType : String) (paramKey paramValue : Option String)
    (recipient : Option Address) (amount : Option Amount) : ExecM ProposalAction :=
  match actionType with
  | "parameter_change" => do
    let key := paramKey.getD ""
    let value := paramValue.getD description
    validateParameterChange key value
    pure (.parameterChange key value)
  | "treasury_spend" => pure (.treasurySpend (recipient.getD .zero) (amount.getD .zero))
  | "signal" => pure (.protocolUpgrade 0 description)
  | "dex_pause" => pure (.dexPause true)
  | "dex_unpause" => pure (.dexPause false)
  | "bridge_pause" => pure (.bridgePause true)
  | "bridge_unpause" => pure (.bridgePause false)
  | "register_chain" => pure (.registerChain (paramKey.getD "") (paramValue.getD "\x7b\x7d"))
  | other => fail (invalidActionType other)

/-- The stake of all cached accounts; aborts on overflow. -/
def totalStakedInCache (caches : StateSnapshot) : Option Amount :=
  (caches.accounts.toList.filterMap fun a => a.2.staking).foldlM
    (fun sum s => sum.checkedAdd s.totalStake) .zero

/-- Whether an account has stake, its own or delegated to it. -/
def hasStake (account : AccountState) : Bool :=
  match account.staking with
  | some staking => !staking.totalStake.isZero
  | none => false

def executeGovernancePropose (sender : Address) (description actionType : String)
    (paramKey paramValue : Option String) (recipient : Option Address) (amount : Option Amount)
    (blockNumber : UInt64) : ExecM (List Log) := do
  require (!description.isEmpty) (.custom "proposal description must not be empty")
  let action ← proposedAction description actionType paramKey paramValue recipient amount
  let account ← Db.getAccount sender
  require (hasStake account) (.custom "sender must have staked VTT to create proposals")
  let staked ← Db.cached totalStakedInCache
  let totalStaked ← unwrap staked
  let sequence ← Db.nextGovernanceId
  let proposalId := blake3Hash (serialize (sequence, sender, blockNumber))
  let proposal : Proposal :=
    { id := proposalId, proposer := sender, action, description, createdAt := blockNumber
      votingEnd := blockNumber + Environment.votingPeriodBlocks, status := .active
      votesYes := .zero, votesNo := .zero, votesAbstain := .zero, voters := []
      snapshotBlock := blockNumber, totalStakedAtCreation := totalStaked }
  Db.putGovernanceProposal proposalId (serialize proposal)
  pure [event sender "GovernancePropose" [proposalId] (serialize (sender, description, actionType))]

/-- A proposal with a vote added; aborts on overflow. -/
def addVote (proposal : Proposal) (voter : Address) (vote : Vote) (power : Amount) :
    Option Proposal :=
  let voters := proposal.voters ++ [voter]
  match vote with
  | .yes => (proposal.votesYes.checkedAdd power).map fun v =>
    { proposal with votesYes := v, voters }
  | .no => (proposal.votesNo.checkedAdd power).map fun v => { proposal with votesNo := v, voters }
  | .abstain =>
    (proposal.votesAbstain.checkedAdd power).map fun v =>
      { proposal with votesAbstain := v, voters }

/-- The weight of a vote: the voter's stake, at most what was staked when the proposal was made. -/
def votingPower (proposal : Proposal) (voterStake : Amount) : Amount :=
  if proposal.totalStakedAtCreation.isZero then voterStake
  else ⟨U128.min voterStake.raw proposal.totalStakedAtCreation.raw⟩

/-- Vote on a governance proposal. The message of the decoder is not part of the error here. -/
def executeGovernanceVote (sender : Address) (proposalId : H256) (vote : Vote)
    (blockNumber : UInt64) : ExecM (List Log) := do
  let stored ← Db.getGovernanceProposalOwned proposalId
  let stored ← okOr stored (.custom "governance proposal not found")
  let proposal : Proposal ← okOr (tryFromSlice stored) (.custom "corrupt governance proposal")
  require (proposal.status = .active) (.custom "proposal is not active")
  require (!proposal.isVotingEnded blockNumber) (.custom "voting period has ended")
  require (!proposal.hasVoted sender) (.custom "already voted on this proposal")
  let account ← Db.getAccount sender
  require (hasStake account) (.custom "no staked VTT to vote with")
  let voterStake := (account.staking.map (·.totalStake)).getD .zero
  let updated ← unwrap (addVote proposal sender vote (votingPower proposal voterStake))
  Db.putGovernanceProposal proposalId (serialize updated)
  pure [event sender "GovernanceVote" [proposalId] (serialize vote)]

/-! ## The end of a block -/

section EndOfBlock

variable {ε : Type}

/-- Store a proposal with a new status. -/
def storeStatus (id : H256) (proposal : Proposal) (status : ProposalStatus) : DbM ε Unit :=
  Db.putGovernanceProposal id (serialize { proposal with status })

/-- Queue or reject a proposal whose voting period is over; says whether it was finalized. -/
def finalizeProposal (currentBlock : UInt64) (totalStaked : Amount) (id : H256) (data : Bytes) :
    DbM ε Bool :=
  match (tryFromSlice data : Option Proposal) with
  | none => pure false
  | some proposal =>
    if proposal.status ≠ .active ∨ !proposal.isVotingEnded currentBlock then
      pure false
    else do
      let hasQuorum ← unwrap (proposal.hasQuorum totalStaked)
      if hasQuorum && proposal.passesThreshold then
        storeStatus id proposal (.queued (currentBlock + Environment.executionDelayBlocks))
      else
        storeStatus id proposal .rejected
      pure true

/-- Count the successes of a computation over the cached proposals, in the order of their ids. -/
def overProposals (f : H256 → Bytes → DbM ε Bool) : DbM ε UInt64 := do
  let proposals ← Db.governanceProposals
  foldEach proposals.toList 0 fun count p => do
    let counted ← f p.1 p.2
    pure (if counted then count + 1 else count)

def finalizeGovernanceProposals (currentBlock : UInt64) (totalStaked : Amount) : DbM ε UInt64 :=
  overProposals (finalizeProposal currentBlock totalStaked)

/-- Spend from the treasury, if it has enough. -/
def treasurySpend (recipient : Address) (amount : Amount) : DbM ε Unit := do
  let treasury ← Db.getTreasuryAddress
  let balance ← Db.getBalance treasury
  if amount ≤ balance then (Db.transfer treasury recipient amount).ignoreError else pure ()

/-- Carry out the action of a proposal; failures are only logged. -/
def runProposal (proposal : Proposal) (currentBlock : UInt64) : DbM ε Unit :=
  match proposal.action with
  | .parameterChange key value => applyParameterChange key value
  | .treasurySpend recipient amount => treasurySpend recipient amount
  | .registerChain name configJson =>
    (registerAppChain name configJson proposal.proposer currentBlock).ignoreError
  | .protocolUpgrade _ _ => pure ()
  | .dexPause paused => Db.setDexPaused paused
  | .bridgePause paused => Db.setBridgePaused paused

/-- Execute a queued proposal whose delay is over; says whether it was executed. -/
def executeQueued (currentBlock : UInt64) (id : H256) (data : Bytes) : DbM ε Bool :=
  match (tryFromSlice data : Option Proposal) with
  | none => pure false
  | some proposal =>
    match proposal.status with
    | .queued executeAfter =>
      if currentBlock < executeAfter then
        pure false
      else do
        runProposal proposal currentBlock
        storeStatus id proposal .executed
        pure true
    | _ => pure false

def executeQueuedProposals (currentBlock : UInt64) : DbM ε UInt64 :=
  overProposals (executeQueued currentBlock)

end EndOfBlock

end Vtt.Executor
