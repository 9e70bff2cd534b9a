import Vtt.Lib.Sums
import Vtt.Primitives.Basic

/-!
# The contracts on the other side

The wrapped coin `WVTT` and the bridge contract `VTTBridge`, with every external function. A call
runs in a system of the two contracts and a dollar token, which is a parameter. Amounts are natural
numbers, and every sum, difference and product is checked to be one of 256 bits, as the compiler
does.
-/

namespace Vtt.Evm

open Lib

/-! ## Checked arithmetic -/

/-- Why a call reverts: a requirement with its text, or arithmetic out of range. -/
inductive Revert where
  | require (message : String)
  | panic
deriving DecidableEq

def require (condition : Bool) (message : String) : Except Revert Unit :=
  if condition then .ok () else .error (.require message)

/-- The size of numbers. -/
def wordSize : ℕ := 2 ^ 256

def checkedAdd (a b : ℕ) : Except Revert ℕ := if a + b < wordSize then .ok
    (a + b) else .error .panic

def checkedSub (a b : ℕ) : Except Revert ℕ := if b ≤ a then .ok (a - b) else .error .panic

def checkedMul (a b : ℕ) : Except Revert ℕ := if a * b < wordSize then .ok
    (a * b) else .error .panic

/-- A counter of fees with a fee added, if there is one. -/
def addFee (collected fee : ℕ) : Except Revert ℕ :=
  if 0 < fee then checkedAdd collected fee else .ok collected

/-! ## The wrapped coin -/

structure WVTT where
  totalSupply : ℕ
  balanceOf : FinMap Address ℕ
  allowance : FinMap (Address × Address) ℕ
  bridge : Address
  owner : Address

namespace WVTT

/-- The contract after its construction. -/
def deploy (sender bridge : Address) : WVTT where
  totalSupply := 0
  balanceOf := ∅
  allowance := ∅
  bridge
  owner := sender

/-- A balance; there is none at first. -/
def balance (w : WVTT) (account : Address) : ℕ := (w.balanceOf[account]?).getD 0

def setBalance (w : WVTT) (account : Address) (amount : ℕ) : WVTT :=
  { w with balanceOf := w.balanceOf.insert account amount }

def allowed (w : WVTT) (holder spender : Address) : ℕ := (w.allowance[(holder, spender)]?).getD 0

def setAllowance (w : WVTT) (holder spender : Address) (amount : ℕ) : WVTT :=
  { w with allowance := w.allowance.insert (holder, spender) amount }

def onlyBridge (w : WVTT) (sender : Address) : Except Revert Unit :=
  require (sender == w.bridge) "WVTT: caller is not the bridge"

def onlyOwner (w : WVTT) (sender : Address) : Except Revert Unit :=
  require (sender == w.owner) "WVTT: caller is not the owner"

def setBridge (w : WVTT) (sender bridge : Address) : Except Revert WVTT := do
  w.onlyOwner sender
  pure { w with bridge }

def transferOwnership (w : WVTT) (sender newOwner : Address) : Except Revert WVTT := do
  w.onlyOwner sender
  require (newOwner != .zero) "WVTT: zero address"
  pure { w with owner := newOwner }

def mint (w : WVTT) (sender target : Address) (amount : ℕ) : Except Revert WVTT := do
  w.onlyBridge sender
  let totalSupply ← checkedAdd w.totalSupply amount
  let balance ← checkedAdd (w.balance target) amount
  pure { w.setBalance target balance with totalSupply }

def burn (w : WVTT) (sender source : Address) (amount : ℕ) : Except Revert WVTT := do
  w.onlyBridge sender
  require (amount ≤ w.balance source) "WVTT: insufficient balance"
  let balance ← checkedSub (w.balance source) amount
  let totalSupply ← checkedSub w.totalSupply amount
  pure { w.setBalance source balance with totalSupply }

/-- Take an amount from one balance, then add it to another, which can be the same. -/
def move (w : WVTT) (source target : Address) (amount : ℕ) : Except Revert WVTT := do
  let less ← checkedSub (w.balance source) amount
  let w := w.setBalance source less
  let more ← checkedAdd (w.balance target) amount
  pure (w.setBalance target more)

def transfer (w : WVTT) (sender target : Address) (amount : ℕ) : Except Revert WVTT := do
  require (amount ≤ w.balance sender) "WVTT: insufficient balance"
  w.move sender target amount

def approve (w : WVTT) (sender spender : Address) (amount : ℕ) : Except Revert WVTT :=
  pure (w.setAllowance sender spender amount)

def transferFrom (w : WVTT) (sender source target : Address) (amount : ℕ) : Except Revert WVTT := do
  require (amount ≤ w.balance source) "WVTT: insufficient balance"
  require (amount ≤ w.allowed source sender) "WVTT: insufficient allowance"
  let allowed ← checkedSub (w.allowed source sender) amount
  (w.setAllowance source sender allowed).move source target amount

end WVTT

/-! ## The bridge -/

/-- A queued change. -/
structure TimelockAction where
  executeAfter : ℕ
  executed : Bool

/-- The events that say what was deposited and released. -/
inductive Event where
  | deposit (nonce : ℕ) (sender token : Address) (amount fee : ℕ) (vttDestination : H256)
  | release (vttTxHash : H256) (recipient token : Address) (amount : ℕ)

structure VTTBridge where
  relayer : Address
  owner : Address
  protocolFeeBps : ℕ
  collectedFeesWVTT : ℕ
  collectedFeesUSDT : ℕ
  paused : Bool
  processedWithdrawals : FinSet H256
  depositNonce : ℕ
  timelockActions : FinMap H256 TimelockAction

/-- Two days. -/
def timelockDelay : ℕ := 172800

namespace VTTBridge

/-- The contract after its construction; the fee is not checked. -/
def deploy (sender relayer : Address) (feeBps : ℕ) : VTTBridge where
  relayer
  owner := sender
  protocolFeeBps := feeBps
  collectedFeesWVTT := 0
  collectedFeesUSDT := 0
  paused := false
  processedWithdrawals := ∅
  depositNonce := 0
  timelockActions := ∅

def onlyRelayer (b : VTTBridge) (sender : Address) : Except Revert Unit :=
  require (sender == b.relayer) "Bridge: not relayer"

def onlyOwner (b : VTTBridge) (sender : Address) : Except Revert Unit :=
  require (sender == b.owner) "Bridge: not owner"

def whenNotPaused (b : VTTBridge) : Except Revert Unit := require (!b.paused) "Bridge: paused"

/-- The fee of a deposit, and what is left of it. -/
def depositFee (b : VTTBridge) (amount : ℕ) : Except Revert (ℕ × ℕ) := do
  let product ← checkedMul amount b.protocolFeeBps
  let fee := product / 10000
  let net ← checkedSub amount fee
  pure (fee, net)

end VTTBridge

/-! ## The system -/

/-- The dollar token as the bridge sees it: a transfer either changes the state of the token or
fails. -/
structure Token (τ : Type) where
  balanceOf : τ → Address → ℕ
  transfer : (sender target : Address) → ℕ → τ → Option τ
  transferFrom : (sender source target : Address) → ℕ → τ → Option τ

/-- Where the contracts are, and the hash under which a change of the relayer is queued. -/
structure Deployment where
  bridge : Address
  wvtt : Address
  usdt : Address
  relayerAction : Address → H256

/-- The contracts, the state of the dollar token, and the events of the bridge so far. -/
structure System (τ : Type) where
  wvtt : WVTT
  bridge : VTTBridge
  usdt : τ
  events : List Event

/-- The external functions of both contracts, with their arguments. -/
inductive Call where
  | transfer (target : Address) (amount : ℕ)
  | approve (spender : Address) (amount : ℕ)
  | transferFrom (source target : Address) (amount : ℕ)
  | mint (target : Address) (amount : ℕ)
  | burn (source : Address) (amount : ℕ)
  | setBridge (bridge : Address)
  | transferCoinOwnership (newOwner : Address)
  | pause
  | unpause
  | depositWVTT (amount : ℕ) (vttDestination : H256)
  | depositUSDT (amount : ℕ) (vttDestination : H256)
  | releaseWVTT (vttTxHash : H256) (recipient : Address) (amount : ℕ)
  | releaseUSDT (vttTxHash : H256) (recipient : Address) (amount : ℕ)
  | queueSetRelayer (relayer : Address)
  | executeSetRelayer (relayer : Address)
  | setFee (feeBps : ℕ)
  | withdrawFees (target : Address)
  | transferOwnership (newOwner : Address)

namespace System

variable {τ : Type} (T : Token τ) (d : Deployment) (s : System τ) (sender : Address) (timestamp : ℕ)

/-- Run a function of the coin. -/
def onCoin (r : Except Revert WVTT) : Except Revert (System τ) := do
  pure { s with wvtt := ← r }

/-- The result of a token call that must return true. -/
def usdtResult (r : Option τ) : Except Revert τ :=
  match r with
  | some usdt => .ok usdt
  | none => .error (.require "Bridge: USDT transfer failed")

def setPaused (paused : Bool) : Except Revert (System τ) := do
  s.bridge.onlyOwner sender
  pure { s with bridge := { s.bridge with paused } }

def depositWVTT (amount : ℕ) (vttDestination : H256) : Except Revert (System τ) := do
  s.bridge.whenNotPaused
  require (0 < amount) "Bridge: zero amount"
  let (fee, net) ← s.bridge.depositFee amount
  let wvtt ← s.wvtt.burn d.bridge sender amount
  let collectedFeesWVTT ← addFee s.bridge.collectedFeesWVTT fee
  let depositNonce ← checkedAdd s.bridge.depositNonce 1
  pure { s with
    wvtt
    bridge := { s.bridge with collectedFeesWVTT, depositNonce }
    events := s.events ++ [.deposit depositNonce sender .zero net fee vttDestination] }

def depositUSDT (amount : ℕ) (vttDestination : H256) : Except Revert (System τ) := do
  s.bridge.whenNotPaused
  require (0 < amount) "Bridge: zero amount"
  let (fee, net) ← s.bridge.depositFee amount
  let usdt ← usdtResult (T.transferFrom d.bridge sender d.bridge amount s.usdt)
  let collectedFeesUSDT ← addFee s.bridge.collectedFeesUSDT fee
  let depositNonce ← checkedAdd s.bridge.depositNonce 1
  pure { s with
    bridge := { s.bridge with collectedFeesUSDT, depositNonce }
    usdt
    events := s.events ++ [.deposit depositNonce sender d.usdt net fee vttDestination] }

def releaseWVTT (vttTxHash : H256) (recipient : Address) (amount : ℕ) : Except Revert (System τ) :=
  do
  s.bridge.onlyRelayer sender
  s.bridge.whenNotPaused
  require (!s.bridge.processedWithdrawals.contains vttTxHash) "Bridge: already processed"
  let wvtt ← s.wvtt.mint d.bridge recipient amount
  pure { s with
    wvtt
    bridge := { s.bridge with
      processedWithdrawals := s.bridge.processedWithdrawals.insert vttTxHash }
    events := s.events ++ [.release vttTxHash recipient d.wvtt amount] }

/-- The dollars are taken from the whole balance of the bridge, the fees included. -/
def releaseUSDT (vttTxHash : H256) (recipient : Address) (amount : ℕ) : Except Revert (System τ) :=
  do
  s.bridge.onlyRelayer sender
  s.bridge.whenNotPaused
  require (!s.bridge.processedWithdrawals.contains vttTxHash) "Bridge: already processed"
  require (amount ≤ T.balanceOf s.usdt d.bridge) "Bridge: insufficient USDT reserve"
  let usdt ← usdtResult (T.transfer d.bridge recipient amount s.usdt)
  pure { s with
    bridge := { s.bridge with
      processedWithdrawals := s.bridge.processedWithdrawals.insert vttTxHash }
    usdt
    events := s.events ++ [.release vttTxHash recipient d.usdt amount] }

def queueSetRelayer (relayer : Address) : Except Revert (System τ) := do
  s.bridge.onlyOwner sender
  let executeAfter ← checkedAdd timestamp timelockDelay
  pure { s with bridge := { s.bridge with
    timelockActions := s.bridge.timelockActions.insert (d.relayerAction relayer) ⟨executeAfter,
      false⟩ } }

def executeSetRelayer (relayer : Address) : Except Revert (System τ) := do
  s.bridge.onlyOwner sender
  let action := (s.bridge.timelockActions[d.relayerAction relayer]?).getD ⟨0, false⟩
  require (0 < action.executeAfter) "Bridge: not queued"
  require (action.executeAfter ≤ timestamp) "Bridge: timelock active"
  require (!action.executed) "Bridge: already executed"
  pure { s with bridge := { s.bridge with
    timelockActions :=
      s.bridge.timelockActions.insert (d.relayerAction relayer) { action with executed := true }
    relayer } }

def setFee (feeBps : ℕ) : Except Revert (System τ) := do
  s.bridge.onlyOwner sender
  require (feeBps ≤ 500) "Bridge: fee too high"
  pure { s with bridge := { s.bridge with protocolFeeBps := feeBps } }

/-- The fees in the coin are minted, if there are any. -/
def withdrawCoinFees (target : Address) : Except Revert (System τ) :=
  if 0 < s.bridge.collectedFeesWVTT then do
    let wvtt ← s.wvtt.mint d.bridge target s.bridge.collectedFeesWVTT
    pure { s with wvtt, bridge := { s.bridge with collectedFeesWVTT := 0 } }
  else pure s

/-- The fees in dollars are sent, if there are any. -/
def withdrawDollarFees (target : Address) : Except Revert (System τ) :=
  if 0 < s.bridge.collectedFeesUSDT then do
    let usdt ← usdtResult (T.transfer d.bridge target s.bridge.collectedFeesUSDT s.usdt)
    pure { s with usdt, bridge := { s.bridge with collectedFeesUSDT := 0 } }
  else pure s

def withdrawFees (target : Address) : Except Revert (System τ) := do
  s.bridge.onlyOwner sender
  require (target != .zero) "Bridge: zero address"
  let s ← s.withdrawCoinFees d target
  s.withdrawDollarFees T d target

def transferOwnership (newOwner : Address) : Except Revert (System τ) := do
  s.bridge.onlyOwner sender
  require (newOwner != .zero) "Bridge: zero address"
  pure { s with bridge := { s.bridge with owner := newOwner } }

/-- An external call of a sender at a time. -/
def exec : Call → Except Revert (System τ)
  | .transfer target amount => s.onCoin (s.wvtt.transfer sender target amount)
  | .approve spender amount => s.onCoin (s.wvtt.approve sender spender amount)
  | .transferFrom source target amount => s.onCoin (s.wvtt.transferFrom sender source target amount)
  | .mint target amount => s.onCoin (s.wvtt.mint sender target amount)
  | .burn source amount => s.onCoin (s.wvtt.burn sender source amount)
  | .setBridge bridge => s.onCoin (s.wvtt.setBridge sender bridge)
  | .transferCoinOwnership newOwner => s.onCoin (s.wvtt.transferOwnership sender newOwner)
  | .pause => s.setPaused sender true
  | .unpause => s.setPaused sender false
  | .depositWVTT amount vttDestination => s.depositWVTT d sender amount vttDestination
  | .depositUSDT amount vttDestination => s.depositUSDT T d sender amount vttDestination
  | .releaseWVTT vttTxHash recipient amount => s.releaseWVTT d sender vttTxHash recipient amount
  | .releaseUSDT vttTxHash recipient amount => s.releaseUSDT T d sender vttTxHash recipient amount
  | .queueSetRelayer relayer => s.queueSetRelayer d sender timestamp relayer
  | .executeSetRelayer relayer => s.executeSetRelayer d sender timestamp relayer
  | .setFee feeBps => s.setFee sender feeBps
  | .withdrawFees target => s.withdrawFees T d sender target
  | .transferOwnership newOwner => s.transferOwnership sender newOwner

end System

end Vtt.Evm
