import Vtt.Evm.Contracts
import Vtt.Lib.Runs
import Vtt.Lib.Success

/-!
# The backing of the wrapped coin

The bridge alone mints and burns. What it has released is either in circulation, or was deposited,
or is a fee it has kept. The supply is the sum of the balances at any time.
-/

namespace Vtt.Evm

open Lib WVTT VTTBridge
open Except (ok.inj)

variable {a b c : ℕ}

/-! ## Calls that succeed -/

theorem ok_bind_iff {α β : Type} {x : Except Revert α} {f : α → Except Revert β} {b : β} :
    (x >>= f) = .ok b ↔ ∃ a, x = .ok a ∧ f a = .ok b :=
  ⟨ok_of_bind, fun ⟨_, hx, hf⟩ => hx ▸ hf⟩

theorem ok_of_require {p : Bool} {message : String} {u : Unit} (h : require p message = .ok u) :
    p = true := by
  unfold require at h
  split at h
  · assumption
  · cases h

theorem ok_of_checkedAdd (h : checkedAdd a b = .ok c) : c = a + b := by
  unfold checkedAdd at h
  split at h
  · exact (ok.inj h).symm
  · cases h

theorem ok_of_checkedSub (h : checkedSub a b = .ok c) : c + b = a := by
  unfold checkedSub at h
  split at h
  · have := ok.inj h
    omega
  · cases h

theorem ok_of_checkedMul (h : checkedMul a b = .ok c) : c = a * b := by
  unfold checkedMul at h
  split at h
  · exact (ok.inj h).symm
  · cases h

namespace WVTT

variable {w w' : WVTT} {sender source target : Address} {amount : ℕ}

/-- The sum of all balances. -/
def held (w : WVTT) : ℕ := sumOver w.balanceOf fun _ amount => amount

theorem held_setBalance (w : WVTT) (account : Address) (amount : ℕ) :
    (w.setBalance account amount).held + w.balance account = w.held + amount := by
  have h := sumOver_insert_add w.balanceOf account amount fun _ amount => amount
  unfold held balance setBalance
  cases hget : w.balanceOf[account]? with
  | none =>
    rw [hget] at h
    exact h
  | some =>
    rw [hget] at h
    exact h

/-- Only the bridge mints, and what is minted is in the supply and in the balances. -/
theorem mint_ok (h : w.mint sender target amount = .ok w') :
    sender = w.bridge ∧ w'.bridge = w.bridge ∧ w'.totalSupply = w.totalSupply + amount ∧
      w'.held = w.held + amount := by
  obtain ⟨_, hsender, h⟩ := ok_of_bind h
  obtain ⟨_, hsupply, h⟩ := ok_of_bind h
  obtain ⟨balance, hbalance, h⟩ := ok_of_bind h
  obtain rfl := ok.inj h
  have hheld := held_setBalance w target balance
  rw [ok_of_checkedAdd hbalance] at hheld
  refine ⟨beq_iff_eq.1 (ok_of_require hsender), rfl, ok_of_checkedAdd hsupply, ?_⟩
  show (w.setBalance target balance).held = _
  rw [ok_of_checkedAdd hbalance]
  omega

/-- Only the bridge burns, and what is burned is gone from the supply and from the balances. -/
theorem burn_ok (h : w.burn sender source amount = .ok w') :
    sender = w.bridge ∧ w'.bridge = w.bridge ∧ w'.totalSupply + amount = w.totalSupply ∧
      w'.held + amount = w.held := by
  obtain ⟨_, hsender, h⟩ := ok_of_bind h
  obtain ⟨_, -, h⟩ := ok_of_bind h
  obtain ⟨balance, hbalance, h⟩ := ok_of_bind h
  obtain ⟨_, hsupply, h⟩ := ok_of_bind h
  obtain rfl := ok.inj h
  have hheld := held_setBalance w source balance
  have hless := ok_of_checkedSub hbalance
  refine ⟨beq_iff_eq.1 (ok_of_require hsender), rfl, ok_of_checkedSub hsupply, ?_⟩
  show (w.setBalance source balance).held + amount = _
  omega

/-- A coin with the same bridge, supply and sum of balances. -/
structure Kept (w w' : WVTT) : Prop where
  bridge : w'.bridge = w.bridge
  supply : w'.totalSupply = w.totalSupply
  held : w'.held = w.held

theorem move_ok (h : w.move source target amount = .ok w') : Kept w w' := by
  obtain ⟨less, hless, h⟩ := ok_of_bind h
  obtain ⟨more, hmore, h⟩ := ok_of_bind h
  obtain rfl := ok.inj h
  have htaken := held_setBalance w source less
  have hgiven := held_setBalance (w.setBalance source less) target more
  have hsub := ok_of_checkedSub hless
  have hadd := ok_of_checkedAdd hmore
  exact ⟨rfl, rfl, by omega⟩

theorem transfer_ok (h : w.transfer sender target amount = .ok w') : Kept w w' := by
  obtain ⟨_, -, h⟩ := ok_of_bind h
  exact move_ok h

theorem transferFrom_ok (h : w.transferFrom sender source target amount = .ok w') : Kept w w' := by
  obtain ⟨_, -, h⟩ := ok_of_bind h
  obtain ⟨_, -, h⟩ := ok_of_bind h
  obtain ⟨_, -, h⟩ := ok_of_bind h
  obtain ⟨hbridge, hsupply, hheld⟩ := move_ok h
  exact ⟨hbridge, hsupply, hheld⟩

theorem transferOwnership_ok {newOwner : Address}
    (h : w.transferOwnership sender newOwner = .ok w') : Kept w w' := by
  obtain ⟨_, -, h⟩ := ok_of_bind h
  obtain ⟨_, -, h⟩ := ok_of_bind h
  obtain rfl := ok.inj h
  exact ⟨rfl, rfl, rfl⟩

end WVTT

/-- The fee and the rest are the deposit together. -/
theorem VTTBridge.depositFee_ok {b : VTTBridge} {amount : ℕ} {parts : ℕ × ℕ}
    (h : b.depositFee amount = .ok parts) :
    parts.1 + parts.2 = amount ∧ parts.1 = amount * b.protocolFeeBps / 10000 := by
  obtain ⟨_, hproduct, h⟩ := ok_of_bind h
  obtain ⟨_, hnet, h⟩ := ok_of_bind h
  obtain rfl := ok.inj h
  have hsub := ok_of_checkedSub hnet
  exact ⟨by omega, by rw [ok_of_checkedMul hproduct]⟩

theorem ok_of_addFee {collected fee : ℕ} (h : addFee collected fee = .ok c) :
    c = collected + fee := by
  unfold addFee at h
  split at h
  · exact ok_of_checkedAdd h
  · have := ok.inj h
    omega

theorem ok_of_usdtResult {τ : Type} {r : Option τ} {usdt : τ} (h : System.usdtResult r = .ok usdt) :
    r = some usdt := by
  unfold System.usdtResult at h
  split at h
  · exact congrArg some (ok.inj h)
  · cases h

/-! ## What a call does to the bridge -/

section Calls

variable {τ : Type} {T : Token τ} {d : Deployment} {s s' : System τ}
  {sender recipient target : Address} {timestamp amount : ℕ} {vttDestination vttTxHash : H256}

/-- A deposit of the coin is burned as a whole; the fee is kept, and the rest is announced. -/
theorem depositWVTT_ok (h : s.depositWVTT d sender amount vttDestination = .ok s') :
    ∃ fee net wvtt depositNonce, fee + net = amount ∧
      s.wvtt.burn d.bridge sender amount = .ok wvtt ∧ s' = { s with
        wvtt
        bridge := { s.bridge with
          collectedFeesWVTT := s.bridge.collectedFeesWVTT + fee
          depositNonce }
        events := s.events ++ [.deposit depositNonce sender .zero net fee vttDestination] } := by
  simp only [System.depositWVTT, ok_bind_iff, Prod.exists] at h
  obtain ⟨_, -, _, -, fee, net, hfee, wvtt, hburn, _, hcollected, depositNonce, -, h⟩ := h
  obtain rfl := ok_of_addFee hcollected
  exact ⟨fee, net, wvtt, depositNonce, (depositFee_ok hfee).1, hburn, (ok.inj h).symm⟩

/-- A deposit of dollars is moved to the bridge as a whole; the fee is kept, and the rest is
announced. -/
theorem depositUSDT_ok (h : s.depositUSDT T d sender amount vttDestination = .ok s') :
    ∃ fee net usdt depositNonce, fee + net = amount ∧
      T.transferFrom d.bridge sender d.bridge amount s.usdt = some usdt ∧
      s' = { s with
        bridge := { s.bridge with
          collectedFeesUSDT := s.bridge.collectedFeesUSDT + fee
          depositNonce }
        usdt
        events := s.events ++ [.deposit depositNonce sender d.usdt net fee vttDestination] } := by
  simp only [System.depositUSDT, ok_bind_iff, Prod.exists] at h
  obtain ⟨_, -, _, -, fee, net, hfee, usdt, husdt, _, hcollected, depositNonce, -, h⟩ := h
  obtain rfl := ok_of_addFee hcollected
  exact ⟨fee, net, usdt, depositNonce, (depositFee_ok hfee).1, ok_of_usdtResult husdt,
    (ok.inj h).symm⟩

/-- A release of the coin is minted. -/
theorem releaseWVTT_ok (h : s.releaseWVTT d sender vttTxHash recipient amount = .ok s') :
    ∃ wvtt, s.wvtt.mint d.bridge recipient amount = .ok wvtt ∧
      s' = { s with
        wvtt
        bridge := { s.bridge with
          processedWithdrawals := s.bridge.processedWithdrawals.insert vttTxHash }
        events := s.events ++ [.release vttTxHash recipient d.wvtt amount] } := by
  simp only [System.releaseWVTT, ok_bind_iff] at h
  obtain ⟨_, -, _, -, _, -, wvtt, hmint, h⟩ := h
  exact ⟨wvtt, hmint, (ok.inj h).symm⟩

/-- A release of dollars is paid by the bridge. -/
theorem releaseUSDT_ok (h : s.releaseUSDT T d sender vttTxHash recipient amount = .ok s') :
    ∃ usdt, T.transfer d.bridge recipient amount s.usdt = some usdt ∧ s' = { s with
        bridge := { s.bridge with
          processedWithdrawals := s.bridge.processedWithdrawals.insert vttTxHash }
        usdt
        events := s.events ++ [.release vttTxHash recipient d.usdt amount] } := by
  simp only [System.releaseUSDT, ok_bind_iff] at h
  obtain ⟨_, -, _, -, _, -, _, -, usdt, husdt, h⟩ := h
  exact ⟨usdt, ok_of_usdtResult husdt, (ok.inj h).symm⟩

/-- The calls of the owner that move no funds. -/
def Call.administers : Call → Bool
  | pause | unpause | queueSetRelayer _ | executeSetRelayer _ | setFee _ | transferOwnership _ =>
    true
  | _ => false

/-- Only the settings of the bridge change, and a new fee is below its bound. -/
structure Administers (s s' : System τ) : Prop where
  wvtt : s'.wvtt = s.wvtt
  usdt : s'.usdt = s.usdt
  events : s'.events = s.events
  coinFees : s'.bridge.collectedFeesWVTT = s.bridge.collectedFeesWVTT
  dollarFees : s'.bridge.collectedFeesUSDT = s.bridge.collectedFeesUSDT
  fee : s'.bridge.protocolFeeBps = s.bridge.protocolFeeBps ∨ s'.bridge.protocolFeeBps ≤ 500

theorem administers_of_exec {call : Call} (hadmin : call.administers = true)
    (h : s.exec T d sender timestamp call = .ok s') : Administers s s' := by
  cases call with
  | pause | unpause =>
    obtain ⟨_, -, h⟩ := ok_of_bind h
    obtain rfl := ok.inj h
    exact ⟨rfl, rfl, rfl, rfl, rfl, .inl rfl⟩
  | queueSetRelayer relayer | transferOwnership newOwner =>
    obtain ⟨_, -, h⟩ := ok_of_bind h
    obtain ⟨_, -, h⟩ := ok_of_bind h
    obtain rfl := ok.inj h
    exact ⟨rfl, rfl, rfl, rfl, rfl, .inl rfl⟩
  | executeSetRelayer =>
    obtain ⟨_, -, h⟩ := ok_of_bind h
    obtain ⟨_, -, h⟩ := ok_of_bind h
    obtain ⟨_, -, h⟩ := ok_of_bind h
    obtain ⟨_, -, h⟩ := ok_of_bind h
    obtain rfl := ok.inj h
    exact ⟨rfl, rfl, rfl, rfl, rfl, .inl rfl⟩
  | setFee =>
    obtain ⟨_, -, h⟩ := ok_of_bind h
    obtain ⟨_, hfee, h⟩ := ok_of_bind h
    obtain rfl := ok.inj h
    exact ⟨rfl, rfl, rfl, rfl, rfl, .inr (of_decide_eq_true (ok_of_require hfee))⟩
  | _ => cases hadmin

/-! ## What is accounted for -/

/-- What was deposited of the coin, as the events say; the zero address stands for the coin. -/
def netDeposits (events : List Event) : ℕ :=
  (events.map fun
    | .deposit _ _ token amount _ _ => if token = .zero then amount else 0
    | .release .. => 0).sum

/-- What a call releases of the coin. -/
def Call.releases : Call → ℕ
  | .releaseWVTT _ _ amount => amount
  | _ => 0

/-- What the bridge is accountable for: the supply, the fees it keeps and what was deposited. -/
def System.accounted (s : System τ) : ℕ :=
  s.wvtt.totalSupply + s.bridge.collectedFeesWVTT + netDeposits s.events

/-- A call changes what is accounted for by what it releases, and the supply as the balances. -/
structure Accounts (s s' : System τ) (released : ℕ) : Prop where
  bridge : s'.wvtt.bridge = s.wvtt.bridge
  accounted : s'.accounted = s.accounted + released
  held : s'.wvtt.held + s.wvtt.totalSupply = s.wvtt.held + s'.wvtt.totalSupply

theorem netDeposits_append (events : List Event) (event : Event) :
    netDeposits (events ++ [event]) = netDeposits events + netDeposits [event] := by
  rw [netDeposits, List.map_append, List.sum_append]
  rfl

/-- The coin is touched by its own functions only. -/
theorem accounts_of_onCoin {r : Except Revert WVTT} (hr : ∀ w, r = .ok w → WVTT.Kept s.wvtt w)
    (h : s.onCoin r = .ok s') : Accounts s s' 0 := by
  obtain ⟨w, hw, h⟩ := ok_of_bind h
  obtain rfl := ok.inj h
  obtain ⟨hbridge, hsupply, hheld⟩ := hr w hw
  refine ⟨hbridge, ?_, ?_⟩
  · rw [System.accounted, System.accounted, hsupply]
    rfl
  · rw [hsupply, hheld]

/-- Changes of the bridge that have nothing to do with the coin. -/
theorem accounts_of_same (hwvtt : s'.wvtt = s.wvtt)
    (hfees : s'.bridge.collectedFeesWVTT = s.bridge.collectedFeesWVTT)
    (hevents : netDeposits s'.events = netDeposits s.events) : Accounts s s' 0 := by
  refine ⟨by rw [hwvtt], ?_, by rw [hwvtt]⟩
  rw [System.accounted, System.accounted, hwvtt, hfees, hevents]
  rfl

theorem accounts_of_administers (h : Administers s s') : Accounts s s' 0 :=
  accounts_of_same h.wvtt h.coinFees (congrArg netDeposits h.events)

theorem depositWVTT_accounts (h : s.depositWVTT d sender amount vttDestination = .ok s') :
    Accounts s s' 0 := by
  obtain ⟨fee, net, _, _, _, hburn, rfl⟩ := depositWVTT_ok h
  obtain ⟨-, hbridge, _, _⟩ := burn_ok hburn
  refine ⟨hbridge, ?_, ?_⟩
  · simp only [System.accounted, netDeposits_append]
    show _ + (_ + fee) + (_ + (net + 0)) = _
    omega
  · dsimp only
    omega

theorem depositUSDT_accounts (husdt : d.usdt ≠ .zero)
    (h : s.depositUSDT T d sender amount vttDestination = .ok s') :
    Accounts s s' 0 := by
  obtain ⟨_, _, _, _, -, -, rfl⟩ := depositUSDT_ok h
  refine accounts_of_same rfl rfl ?_
  simp [netDeposits, husdt]

theorem releaseWVTT_accounts (h : s.releaseWVTT d sender vttTxHash recipient amount = .ok s') :
    Accounts s s' amount := by
  obtain ⟨_, hmint, rfl⟩ := releaseWVTT_ok h
  obtain ⟨-, hbridge, _, _⟩ := mint_ok hmint
  refine ⟨hbridge, ?_, ?_⟩
  · simp only [System.accounted, netDeposits_append]
    show _ + _ + (_ + 0) = _
    omega
  · dsimp only
    omega

theorem releaseUSDT_accounts (h : s.releaseUSDT T d sender vttTxHash recipient amount = .ok s') :
    Accounts s s' 0 := by
  obtain ⟨_, -, rfl⟩ := releaseUSDT_ok h
  exact accounts_of_same rfl rfl (netDeposits_append ..)

/-- The fees that the bridge has kept are minted. -/
theorem withdrawCoinFees_accounts (h : s.withdrawCoinFees d target = .ok s') : Accounts s s' 0 := by
  unfold System.withdrawCoinFees at h
  split at h
  · obtain ⟨_, hmint, h⟩ := ok_of_bind h
    obtain rfl := ok.inj h
    obtain ⟨-, hbridge, _, _⟩ := mint_ok hmint
    refine ⟨hbridge, ?_, ?_⟩
    · simp only [System.accounted]
      omega
    · dsimp only
      omega
  · obtain rfl := ok.inj h
    exact accounts_of_same rfl rfl rfl

theorem withdrawDollarFees_accounts (h : s.withdrawDollarFees T d target = .ok s') :
    Accounts s s' 0 := by
  unfold System.withdrawDollarFees at h
  split at h
  · obtain ⟨_, -, h⟩ := ok_of_bind h
    obtain rfl := ok.inj h
    exact accounts_of_same rfl rfl rfl
  · obtain rfl := ok.inj h
    exact accounts_of_same rfl rfl rfl

theorem Accounts.trans {u : System τ} (h : Accounts s u a) (h' : Accounts u s' b) :
    Accounts s s' (a + b) := by
  refine ⟨h'.bridge.trans h.bridge, ?_, ?_⟩
  · rw [h'.accounted, h.accounted, Nat.add_assoc]
  · have hheld := h.held
    have hheld' := h'.held
    omega

/-- A successful call of anyone but the bridge, which does not give the coin another bridge. -/
theorem exec_accounts {call : Call} (husdt : d.usdt ≠ .zero) (hsender : sender ≠ d.bridge)
    (hbridge : s.wvtt.bridge = d.bridge)
    (hkeep : ∀ bridge, call = .setBridge bridge → bridge = d.bridge)
    (h : s.exec T d sender timestamp call = .ok s') : Accounts s s' call.releases := by
  cases call with
  | transfer => exact accounts_of_onCoin (fun _ => transfer_ok) h
  | approve =>
    refine accounts_of_onCoin (fun w hw => ?_) h
    obtain rfl := ok.inj hw
    exact ⟨rfl, rfl, rfl⟩
  | transferFrom => exact accounts_of_onCoin (fun _ => transferFrom_ok) h
  | mint =>
    obtain ⟨w, hw, -⟩ := ok_of_bind h
    exact absurd ((mint_ok hw).1.trans hbridge) hsender
  | burn =>
    obtain ⟨w, hw, -⟩ := ok_of_bind h
    exact absurd ((burn_ok hw).1.trans hbridge) hsender
  | setBridge bridge =>
    refine accounts_of_onCoin (fun w hw => ?_) h
    obtain ⟨_, -, hw⟩ := ok_of_bind hw
    obtain rfl := ok.inj hw
    exact ⟨(hkeep bridge rfl).trans hbridge.symm, rfl, rfl⟩
  | transferCoinOwnership => exact accounts_of_onCoin (fun _ => transferOwnership_ok) h
  | depositWVTT => exact depositWVTT_accounts h
  | depositUSDT => exact depositUSDT_accounts husdt h
  | releaseWVTT => exact releaseWVTT_accounts h
  | releaseUSDT => exact releaseUSDT_accounts h
  | pause | unpause | queueSetRelayer | executeSetRelayer | setFee | transferOwnership =>
    exact accounts_of_administers (administers_of_exec rfl h)
  | withdrawFees =>
    obtain ⟨_, -, h⟩ := ok_of_bind h
    obtain ⟨_, -, h⟩ := ok_of_bind h
    obtain ⟨_, hcoin, h⟩ := ok_of_bind h
    exact (withdrawCoinFees_accounts hcoin).trans (withdrawDollarFees_accounts h)

/-! ## Sequences of calls -/

/-- A successful call of a sender at a time. The bridge makes no calls but those of its own
functions. -/
def SystemStep (T : Token τ) (d : Deployment) (s : System τ) (call : (Address × ℕ) × Call)
    (s' : System τ) : Prop :=
  call.1.1 ≠ d.bridge ∧ s.exec T d call.1.1 call.1.2 call.2 = .ok s'

/-- The coin is not given another bridge. -/
def KeepsBridge (d : Deployment) (_ : System τ) (call : (Address × ℕ) × Call) : Prop :=
  ∀ bridge, call.2 = .setBridge bridge → bridge = d.bridge

/-- The contracts after their construction by some accounts, with some relayer and fee. -/
def System.deployed (d : Deployment) (coinOwner owner relayer : Address) (feeBps : ℕ) (usdt : τ) :
    System τ where
  wvtt := .deploy coinOwner d.bridge
  bridge := .deploy owner relayer feeBps
  usdt
  events := []

/-- The supply is the sum of the balances, and with the fees kept and the deposits it is what was
released. -/
theorem supply_backed {coinOwner owner relayer : Address} {feeBps : ℕ} {usdt : τ}
    {calls : List ((Address × ℕ) × Call)} (husdt : d.usdt ≠ .zero)
    (h : Run (Within (KeepsBridge d) (SystemStep T d))
      (.deployed d coinOwner owner relayer feeBps usdt) calls s) :
    s.wvtt.totalSupply = s.wvtt.held ∧ s.wvtt.totalSupply + s.bridge.collectedFeesWVTT +
        netDeposits s.events = (calls.map fun call => call.2.releases).sum := by
  suffices both : s.wvtt.bridge = d.bridge ∧ s.wvtt.totalSupply = s.wvtt.held ∧
      s.accounted = (calls.map fun call => call.2.releases).sum from both.2
  induction h with
  | nil => exact ⟨rfl, rfl, rfl⟩
  | snoc _ hlast ih =>
    obtain ⟨hbridge, _, haccounted⟩ := ih
    obtain ⟨hkeep, hsender, hexec⟩ := hlast
    have hstep := exec_accounts husdt hsender hbridge hkeep hexec
    have hheld' := hstep.held
    refine ⟨hstep.bridge.trans hbridge, by omega, ?_⟩
    rw [hstep.accounted, haccounted, List.map_append, List.sum_append]
    rfl

end Calls

namespace Demo

/-- The dollars of an account. -/
def dollarsOf (m : FinMap Address ℕ) (account : Address) : ℕ := (m[account]?).getD 0

/-- Dollars that move from an account that has them to another one. -/
def moveDollars (source target : Address) (amount : ℕ) (m : FinMap Address ℕ) :
    Option (FinMap Address ℕ) :=
  if amount ≤ dollarsOf m source then
    let less := m.insert source (dollarsOf m source - amount)
    some (less.insert target (dollarsOf less target + amount))
  else none

/-- A token that is a table of balances. -/
def dollars : Token (FinMap Address ℕ) where
  balanceOf := dollarsOf
  transfer := moveDollars
  transferFrom _ := moveDollars

/-- Contracts at the first addresses. -/
def deployment : Deployment where
  bridge := ⟨1⟩
  wvtt := ⟨2⟩
  usdt := ⟨3⟩
  relayerAction relayer := .fromSlice relayer.asBytes

/-- The contracts with a fee, and a customer who has dollars. The owner is the relayer as well. -/
def deployed (feeBps : ℕ) : System (FinMap Address ℕ) :=
  .deployed deployment ⟨9⟩ ⟨9⟩ ⟨9⟩ feeBps ((∅ : FinMap Address ℕ).insert ⟨8⟩ 1000000)

/-- Calls one after the other, as long as they succeed. -/
def execAll (s : System (FinMap Address ℕ)) : List ((Address × ℕ) × Call) → Except Revert
    (System (FinMap Address ℕ))
  | [] => .ok s
  | call :: rest =>
    (s.exec dollars deployment call.1.1 call.1.2 call.2).bind fun s' => execAll s' rest

theorem run_of_execAll {calls : List ((Address × ℕ) × Call)} {s s' : System (FinMap Address ℕ)}
    (hcalls : ∀ call ∈ calls, call.1.1 ≠ deployment.bridge ∧ ∀ bridge, call.2 ≠ .setBridge bridge)
    (h : execAll s calls = .ok s') :
    Run (Within (KeepsBridge deployment) (SystemStep dollars deployment)) s calls s' := by
  induction calls generalizing s with
  | nil =>
    obtain rfl := ok.inj h
    exact .nil
  | cons call _ ih =>
    obtain ⟨⟨hsender, hkeep⟩, hrest⟩ := List.forall_mem_cons.1 hcalls
    obtain ⟨u, hexec, h⟩ := ok_of_bind h
    have hfirst : Within (KeepsBridge deployment) (SystemStep dollars deployment) s call u :=
      ⟨fun bridge heq => absurd heq (hkeep bridge), hsender, hexec⟩
    exact (Run.nil.snoc hfirst).append (ih hrest h)

/-- The coin is released, deposited in part, and the fees are withdrawn. -/
def circulation : List ((Address × ℕ) × Call) :=
  [((⟨9⟩, 0), .releaseWVTT ⟨1⟩ ⟨8⟩ 100000), ((⟨8⟩, 1), .transfer ⟨7⟩ 20000),
    ((⟨8⟩, 2), .depositWVTT 50000 ⟨5⟩), ((⟨9⟩, 3), .withdrawFees ⟨9⟩)]

theorem circulation_backed :
      ∃ s, Run (Within (KeepsBridge deployment) (SystemStep dollars deployment))
        (deployed 10) circulation s ∧ s.wvtt.totalSupply = s.wvtt.held ∧
    s.wvtt.totalSupply + s.bridge.collectedFeesWVTT + netDeposits s.events = 100000 := by
  obtain ⟨s, hs⟩ : ∃ s, execAll (deployed 10) circulation = .ok s := by
    have hok : (execAll (deployed 10) circulation).isOk = true := by decide +kernel
    cases h : execAll (deployed 10) circulation with
    | ok s => exact ⟨s, rfl⟩
    | error =>
      rw [h] at hok
      cases hok
  have hcalls : ∀ call ∈ circulation, call.1.1 ≠ deployment.bridge ∧ ∀ bridge,
      call.2 ≠ .setBridge bridge := by
    intro _ hcall
    simp only [circulation, List.mem_cons, List.not_mem_nil, or_false] at hcall
    rcases hcall with rfl | rfl | rfl | rfl
    all_goals exact ⟨by decide, fun _ h => nomatch h⟩
  have hrun := run_of_execAll hcalls hs
  exact ⟨s, hrun, supply_backed (by decide) hrun⟩

end Demo

end Vtt.Evm
