import Vtt.Primitives.Basic

/-!
# Rewards and governance proposals

The amounts that a block pays out, and the proposals that stakers vote on. Amounts are 128-bit
words here and their products wrap.
-/

namespace Vtt

open Lib

/-! ## Rewards -/

/-- The reward of an epoch: an inflation target scaled by how much of the supply is staked. -/
def calculateEpochReward (totalSupply : Amount) (stakingRatioPct : UInt64) : Amount :=
  let baseRate : U128 := 50
  let adjusted : U128 :=
    if stakingRatioPct = 0 then
      baseRate * 2
    else
      let ratio := 60 * baseRate / U128.ofU64 stakingRatioPct
      let capped := U128.min ratio (baseRate * 2)
      if capped < baseRate / 2 then baseRate / 2 else capped
  ⟨totalSupply.raw * adjusted / (1000 * 8760)⟩

/-- A percentage of an amount. -/
def percentOf (total : Amount) (pct : U128) : Amount := ⟨total.raw * pct / 100⟩

/-- What of a block reward goes to the producer and to the treasury. -/
structure BlockRewardSplit where
  producer : Amount
  treasury : Amount
deriving DecidableEq

def splitBlockReward (totalReward : Amount) : BlockRewardSplit :=
  ⟨percentOf totalReward 80, percentOf totalReward 20⟩

/-- What of a producer's reward is commission and what goes to the stakers. -/
structure ProducerRewardSplit where
  validatorCommission : Amount
  stakerRewards : Amount
deriving DecidableEq

def splitProducerReward (producerReward : Amount) (commissionBps : UInt16) : ProducerRewardSplit :=
  let commission := producerReward.raw * U128.ofU16 commissionBps / 10000
  ⟨⟨commission⟩, ⟨producerReward.raw - commission⟩⟩

/-- What of the gas fees is burned and what goes to the producer. -/
structure GasFeeSplit where
  burned : Amount
  producer : Amount
deriving DecidableEq

def splitGasFees (totalFees : Amount) : GasFeeSplit :=
  ⟨percentOf totalFees 70, percentOf totalFees 30⟩

/-! ## Governance proposals -/

/-- Share of the stake that must vote, in basis points. -/
def quorumBps : U128 := 3300

/-- Share of yes among yes and no, in basis points. -/
def passThresholdBps : U128 := 5001

/-- What a governance proposal does. -/
inductive ProposalAction where
  | parameterChange (key value : String)
  | registerChain (name configJson : String)
  | treasurySpend (recipient : Address) (amount : Amount)
  | protocolUpgrade (version : UInt32) (description : String)
  | dexPause (paused : Bool)
  | bridgePause (paused : Bool)
deriving DecidableEq

namespace ProposalAction

instance : Borsh ProposalAction :=
  .ofVariants [.of fun (key, value) => parameterChange key value,
    .of fun (name, configJson) => registerChain name configJson,
    .of fun (recipient, amount) => treasurySpend recipient amount,
    .of fun (version, description) => protocolUpgrade version description,
    .of dexPause, .of bridgePause] (by decide)
    (fun
      | parameterChange key value => ⟨0, (key, value)⟩
      | registerChain name configJson => ⟨1, (name, configJson)⟩
      | treasurySpend recipient amount => ⟨2, (recipient, amount)⟩
      | protocolUpgrade version description => ⟨3, (version, description)⟩
      | dexPause paused => ⟨4, paused⟩
      | bridgePause paused => ⟨5, paused⟩)
    (fun a => by cases a <;> rfl)

end ProposalAction

/-- Where a governance proposal stands. -/
inductive ProposalStatus where
  | active
  | passed
  | queued (executeAfter : UInt64)
  | rejected
  | executed
deriving DecidableEq

namespace ProposalStatus

instance : Borsh ProposalStatus :=
  .ofVariants [.of fun () => active, .of fun () => passed, .of queued, .of fun () => rejected,
    .of fun () => executed] (by decide)
    (fun
      | active => ⟨0, ()⟩ | passed => ⟨1, ()⟩ | queued executeAfter => ⟨2, executeAfter⟩
      | rejected => ⟨3, ()⟩ | executed => ⟨4, ()⟩)
    (fun s => by cases s <;> rfl)

end ProposalStatus

/-- A governance proposal. -/
structure Proposal where
  id : H256
  proposer : Address
  action : ProposalAction
  description : String
  createdAt : BlockNumber
  votingEnd : BlockNumber
  status : ProposalStatus
  votesYes : Amount
  votesNo : Amount
  votesAbstain : Amount
  voters : List Address
  snapshotBlock : BlockNumber
  totalStakedAtCreation : Amount
deriving DecidableEq

namespace Proposal

instance : Borsh Proposal :=
  .ofIso (fun p => (p.id, p.proposer, p.action, p.description, p.createdAt, p.votingEnd, p.status,
      p.votesYes, p.votesNo, p.votesAbstain, p.voters, p.snapshotBlock, p.totalStakedAtCreation))
    (fun (id, proposer, action, description, createdAt, votingEnd, status, votesYes, votesNo,
      votesAbstain, voters, snapshotBlock, totalStakedAtCreation) =>
      ⟨id, proposer, action, description, createdAt, votingEnd, status, votesYes, votesNo,
        votesAbstain, voters, snapshotBlock, totalStakedAtCreation⟩)
    (fun _ => rfl)

def isVotingEnded (p : Proposal) (currentBlock : BlockNumber) : Bool := p.votingEnd ≤ currentBlock

/-- All votes cast; the additions abort on overflow. -/
def totalVotes (p : Proposal) : Option Amount := do
  let yesNo ← p.votesYes.checkedAdd p.votesNo
  yesNo.checkedAdd p.votesAbstain

/-- Enough stake has voted, measured by the stake at creation if that was recorded. -/
def hasQuorum (p : Proposal) (totalStaked : Amount) : Option Bool :=
  let effectiveTotal :=
    if !p.totalStakedAtCreation.isZero then p.totalStakedAtCreation else totalStaked
  if effectiveTotal.isZero then
    some false
  else do
    let votes ← p.totalVotes
    pure (effectiveTotal.raw * quorumBps ≤ votes.raw * 10000)

def passesThreshold (p : Proposal) : Bool :=
  let yesPlusNo := p.votesYes.raw + p.votesNo.raw
  if yesPlusNo = 0 then false else yesPlusNo * passThresholdBps ≤ p.votesYes.raw * 10000

def hasVoted (p : Proposal) (voter : Address) : Bool := p.voters.contains voter

end Proposal

end Vtt
