import Vtt.Consensus.Engine
import Vtt.Executor.Basic

/-!
# Staking, slashing evidence and contracts
-/

namespace Vtt.Executor

open Lib Confined Db

/-! ## Staking -/

/-- Overflow of a stake. -/
def stakeOverflow : ExecutionError := .state (.serialization "overflow")

/-- More on the first delegation of a delegator, or a new one; nothing on overflow. -/
def bumpDelegation (delegator : Address) (amount : Amount) : List Delegation → Option
    (List Delegation)
  | [] => some [⟨delegator, amount⟩]
  | d :: ds =>
    if d.delegator = delegator then
      (d.amount.checkedAdd amount).map fun total => { d with amount := total } :: ds
    else
      (bumpDelegation delegator amount ds).map (d :: ·)

/-- Less on the first delegation of a delegator. -/
def reduceDelegation (delegator : Address) (amount : Amount) : List Delegation → List Delegation
  | [] => []
  | d :: ds =>
    if d.delegator = delegator then { d with amount := ⟨d.amount.raw - amount.raw⟩ } :: ds
    else d :: reduceDelegation delegator amount ds

/-- The staking side of a validator after a stake, before its total is updated. -/
def addStake (sender validator : Address) (amount : Amount) (staking : StakingState) :
    ExecM StakingState :=
  if sender = validator then do
    let selfStake ← okOr (staking.selfStake.checkedAdd amount) stakeOverflow
    pure { staking with selfStake }
  else do
    -- nobody can delegate to an address that has not staked itself
    require (!staking.selfStake.isZero) (.custom "cannot delegate to an address with no self-stake")
    let delegations ← okOr (bumpDelegation sender amount staking.delegations) stakeOverflow
    pure { staking with delegations }

def executeStake (sender validator : Address) (amount : Amount) : ExecM Unit := do
  onState (subBalance sender amount)
  let account ← getAccount validator
  let staking ← addStake sender validator amount (account.staking.getD .default)
  let totalStake ← okOr (staking.totalStake.checkedAdd amount) stakeOverflow
  putAccount validator { account with staking := some { staking with totalStake } }

/-- The default unbonding period. -/
def defaultUnbondingPeriodSecs : UInt64 := 21 * 24 * 3600

/-- The staking side of a validator after an unstake, before its total is updated. -/
def removeStake (sender validator : Address) (amount : Amount) (staking : StakingState) :
    ExecM StakingState :=
  if sender = validator then do
    require (amount ≤ staking.selfStake) (.unstakeExceedsStake staking.selfStake amount)
    pure { staking with selfStake := ⟨staking.selfStake.raw - amount.raw⟩ }
  else do
    let delegation ←
      okOr (staking.delegations.find? fun d => d.delegator == sender)
        (.unstakeExceedsStake .zero amount)
    require (amount ≤ delegation.amount) (.unstakeExceedsStake delegation.amount amount)
    let delegations := reduceDelegation sender amount staking.delegations
    pure { staking with delegations := delegations.filter fun d => !d.amount.isZero }

/-- Unstaked tokens are not returned at once: an entry matures after the unbonding period. -/
def executeUnstake (sender validator : Address) (amount : Amount) (blockTimestamp : UInt64) :
    ExecM Unit := do
  let account ← getAccount validator
  let staking ← removeStake sender validator amount (account.staking.getD .default)
  let totalStake ← unwrap (staking.totalStake.checkedSub amount)
  putAccount validator { account with staking := some { staking with totalStake } }
  let period ← effectiveUnbondingPeriodMs defaultUnbondingPeriodSecs
  addUnbondingEntry sender ⟨amount, blockTimestamp + period, validator⟩

/-! ## Slashing evidence -/

/-- The stake of an account. -/
def totalStakeOf (account : AccountState) : Amount :=
  (account.staking.map (·.totalStake)).getD .zero

variable [Crypto]

/-- Slash the validator that evidence of double signing names, by five percent of its stake. -/
def executeSubmitSlashingEvidence (sender : Address) (evidenceBytes : Bytes)
    (blockNumber : UInt64) :
    ExecM (List Log) := do
  let evidence : DoubleSignEvidence ←
    okOr (Borsh.tryFromSlice evidenceBytes) (.custom "malformed slashing evidence")
  require evidence.isValid (.custom "invalid slashing evidence")
  let offender := evidence.offender
  let epoch := evidence.headerA.epoch
  let slot := evidence.headerA.slot
  let seen ← slashingEvidenceSeen offender epoch slot
  require (!seen) (.custom "slashing evidence already processed")
  let account ← getAccount offender
  let totalStake := totalStakeOf account
  require (!totalStake.isZero) (.custom "offender has no stake to slash")
  let actual ← applySlash offender (calculateDoubleSignSlash totalStake 500)
  recordSlash offender epoch "double_sign" actual
  markSlashingEvidence offender epoch slot
  pure [event sender "SlashValidator" [.fromSlice offender.asBytes]
    (Borsh.serialize (offender, actual, epoch, blockNumber))]

/-- Slash for one piece of evidence that the chain found itself. Evidence that is not valid, was
seen before or names a validator without stake is passed over. -/
def processEvidence (db : StateDB) (evidence : DoubleSignEvidence) (doubleSignSlashBps : UInt16)
    (currentEpoch : UInt64) : Option (Address × Amount) × StateDB :=
  let offender := evidence.offender
  let epoch := evidence.headerA.epoch
  let slot := evidence.headerA.slot
  let totalStake := totalStakeOf (db.getAccount offender)
  if !evidence.isValid || db.slashingEvidenceSeen offender epoch slot || totalStake.isZero then
    (none, db)
  else
    let (actual, db) :=
      db.applySlash offender (calculateDoubleSignSlash totalStake doubleSignSlashBps)
    if actual.isZero then
      (none, db)
    else
      (some (offender, actual),
          (db.recordSlash offender currentEpoch "double_sign" actual).markSlashingEvidence
          offender epoch slot)

/-- Slash for each piece of evidence in turn; returns who was slashed by how much. -/
def processSlashingEvidence (db : StateDB) (evidence : List DoubleSignEvidence)
    (doubleSignSlashBps : UInt16) (currentEpoch : UInt64) : List (Address × Amount) × StateDB :=
  evidence.foldl (fun acc ev =>
    let (slash, db) := processEvidence acc.2 ev doubleSignSlashBps currentEpoch
    (acc.1 ++ slash.toList, db)) ([], db)

/-! ## Contracts -/

/-- The address of a contract: a hash of its deployer and the deployer's nonce. -/
def contractAddress (sender : Address) (nonce : UInt64) : Address :=
  .fromSlice ((blake3Hash (Borsh.serialize (sender, nonce))).asBytes.drop 12)

variable [Wasm]

def executeDeployContract (sender : Address) (code : Bytes) : ExecM (List Log) := do
  require (code.length ≤ GasCosts.maxContractSize)
    (.contractTooLarge code.length GasCosts.maxContractSize)
  let _ ← ofExcept ((VmEngine.compile code).mapError fun _ => .contractNotSupported)
  let codeHash ← storeCode code
  let nonce ← getNonce sender
  let contract := contractAddress sender nonce
  putAccount contract { AccountState.default with codeHash := some codeHash }
  pure [event contract "ContractDeployed" [] (Borsh.serialize (contract, codeHash))]

/-- Apply a change of a balance that a contract asked for. -/
def applyBalanceChange (change : BalanceChange) : ExecM Unit :=
  if change.isCredit then onState (addBalance change.address change.amount)
  else onState (subBalance change.address change.amount)

/-- Call a contract on the part of its storage that is in the cache, and write the storage back. -/
def executeCallContract (sender contract : Address) (method : String) (args : Bytes)
    (value : Amount) (blockNumber blockTimestamp gasLimit : UInt64) : ExecM (List Log) := do
  let account ← getAccount contract
  let codeHash ← okOr account.codeHash .contractNotSupported
  let code ← getCode codeHash
  let code ← okOr code .contractNotSupported
  if value.isZero then pure () else onState (transfer sender contract value)
  let storage ← loadContractStorage contract
  let ctx := ExecutionContext.new contract sender blockNumber blockTimestamp .relay gasLimit
  let outcome ← unwrap (VmEngine.execute code method args { ctx with storage })
  let result ← ofExcept (outcome.1.mapError fun e => .state (.serialization e.display))
  require (result.status = 0) (.state (.serialization
    ("contract reverted with status " ++ toString result.status.toBitVec.toInt)))
  let ctx := outcome.2
  forEach ctx.storage.toList fun e => putContractStorage contract e.1 e.2
  forEach ctx.balanceChanges applyBalanceChange
  pure (ctx.logs ++ [event contract "ContractCall" [] (Borsh.serialize (sender, contract, method))])

end Vtt.Executor
