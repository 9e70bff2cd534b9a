import Vtt.Dex.Trade
import Vtt.Vm

/-!
# Execution of operations: errors and common parts
-/

namespace Vtt

open Lib

/-- The errors of an operation. None of them reaches the receipt. -/
inductive ExecutionError where
  | invalidSignature
  | nonceMismatch (expected got : UInt64)
  | insufficientGas (held needed : Amount)
  | insufficientBalance (held needed : Amount)
  | gasLimitExceeded
  | state (error : StateError)
  | contractNotSupported
  | stakeBelowMinimum (held needed : Amount)
  | unstakeExceedsStake (staked requested : Amount)
  | contractTooLarge (size max : Nat)
  | bridgePaused
  | assetNotFound
  | notIssuer
  | custom (message : String)
deriving DecidableEq

/-- Code that executes an operation. -/
abbrev ExecM := DbM ExecutionError

namespace Executor

/-- An operation of the state database as part of the execution. -/
def onState {α : Type} (x : DbM StateError α) : ExecM α := x.mapError .state

/-- An operation of the exchange as part of the execution. -/
def onDex {α : Type} (x : DexM α) : ExecM α := x.mapError fun e => .custom e.display

/-- A log entry whose first topic is the hash of the event's name. -/
def event [Crypto] (address : Address) (name : String) (topics : List H256) (data : Bytes) : Log :=
  ⟨address, blake3Hash (ascii name) :: topics, data⟩

/-- The error for an asset that is not in the cache. -/
def assetMissing (assetId : H256) : ExecutionError :=
  .custom ("asset not found: " ++ assetId.display)

/-- The cached asset, or the given error. -/
def cachedAsset (assetId : H256) (missing : ExecutionError) : ExecM AssetRecord := do
  let asset ← Db.getAsset assetId
  Confined.okOr asset missing

/-- Some operations are reserved for the treasury. -/
def requireTreasury (sender : Address) (message : String) : ExecM Unit := do
  let treasury ← Db.getTreasuryAddress
  Confined.require (sender = treasury) (.custom message)

end Executor

end Vtt
