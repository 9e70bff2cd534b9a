import Vtt.Evm.Backing

/-!
# The reserve for collected fees

The bridge keeps fees on deposits of dollars among the dollars it holds. A release is checked
against all of them, the fees included, and the fee that the contract is constructed with is not
checked at all.
-/

namespace Vtt.Evm

open Lib

variable {amount : ℕ}

section Reserve

variable {τ : Type} {T : Token τ} {d : Deployment} {s s' : System τ} {sender : Address}
  {timestamp : ℕ}

/-- An amount has moved from one account to another. -/
def Token.Moved (T : Token τ) (source target : Address) (amount : ℕ) (usdt usdt' : τ) : Prop :=
  amount ≤ T.balanceOf usdt source ∧ ∀ account,
      T.balanceOf usdt' account + (if account = source then amount else 0) =
      T.balanceOf usdt account + (if account = target then amount else 0)

/-- A token with standard exact transfers: a transfer moves just the amount, and an account that has
it can send it. -/
structure Token.Exact (T : Token τ) : Prop where
  transfer : ∀ {sender target : Address} {amount : ℕ} {usdt usdt' : τ},
    T.transfer sender target amount usdt = some usdt' → T.Moved sender target amount usdt usdt'
  transferFrom : ∀ {sender source target : Address} {amount : ℕ} {usdt usdt' : τ},
    T.transferFrom sender source target amount usdt = some usdt' →
    T.Moved source target amount usdt usdt'
  enough : ∀ {sender target : Address} {amount : ℕ} {usdt : τ},
    amount ≤ T.balanceOf usdt sender → ∃ usdt', T.transfer sender target amount usdt = some usdt'

/-- The fees are among the dollars of the bridge, so that they can be sent, and no deposit that can
be multiplied by the fee is blocked by it. -/
structure Reserved (T : Token τ) (d : Deployment) (s : System τ) : Prop where
  reserve : s.bridge.collectedFeesUSDT ≤ T.balanceOf s.usdt d.bridge
  payable : ∀ target, ∃ s', s.withdrawDollarFees T d target = .ok s'
  depositable : ∀ amount, 0 < amount → amount * s.bridge.protocolFeeBps < wordSize →
    ∃ parts, s.bridge.depositFee amount = .ok parts

/-- A call, or a change of the token by others, which takes nothing from the bridge. -/
inductive ReserveStep (T : Token τ) (d : Deployment) (s : System τ) :
    Option ((Address × ℕ) × Call) → System τ → Prop where
  | call {call : (Address × ℕ) × Call} {s' : System τ} : SystemStep T d s call s' →
    ReserveStep T d s (some call) s'
  | others {usdt : τ} : T.balanceOf s.usdt d.bridge ≤ T.balanceOf usdt d.bridge →
    ReserveStep T d s none { s with usdt }

/-- A release leaves the fees in the bridge. -/
def Covered (T : Token τ) (d : Deployment) (s : System τ) : Option ((Address × ℕ) × Call) → Prop
  | some (_, .releaseUSDT _ _ amount) =>
    amount + s.bridge.collectedFeesUSDT ≤ T.balanceOf s.usdt d.bridge
  | _ => True

/-! ## What every call keeps -/

/-- The fee is the whole at most, and the fees are there. -/
structure Safe (T : Token τ) (d : Deployment) (s : System τ) : Prop where
  fee : s.bridge.protocolFeeBps ≤ 10000
  reserve : s.bridge.collectedFeesUSDT ≤ T.balanceOf s.usdt d.bridge

theorem Safe.of_same (h : Safe T d s) (hfee : s'.bridge.protocolFeeBps = s.bridge.protocolFeeBps)
    (hcollected : s'.bridge.collectedFeesUSDT = s.bridge.collectedFeesUSDT)
    (husdt : s'.usdt = s.usdt) : Safe T d s' :=
  ⟨hfee ▸ h.fee, hcollected ▸ husdt ▸ h.reserve⟩

theorem Safe.administers (hs : Safe T d s) (h : Administers s s') : Safe T d s' := by
  refine ⟨?_, h.dollarFees ▸ h.usdt ▸ hs.reserve⟩
  rcases h.fee with hsame | hbound
  · exact hsame ▸ hs.fee
  · exact hbound.trans (by decide)

theorem Safe.depositUSDT {vttDestination : H256} (hexact : T.Exact) (hsender : sender ≠ d.bridge)
    (hs : Safe T d s) (h : s.depositUSDT T d sender amount vttDestination = .ok s') :
    Safe T d s' := by
  obtain ⟨fee, _, _, _, _, husdt, rfl⟩ := depositUSDT_ok h
  refine ⟨hs.fee, ?_⟩
  -- the bridge gets the whole deposit, of which the fee is a part
  have hmoved := (hexact.transferFrom husdt).2 d.bridge
  rw [if_neg (Ne.symm hsender), if_pos rfl] at hmoved
  have hreserve := hs.reserve
  dsimp only
  omega

theorem Safe.releaseUSDT {vttTxHash : H256} {recipient : Address} (hexact : T.Exact)
    (hcovered : amount + s.bridge.collectedFeesUSDT ≤ T.balanceOf s.usdt d.bridge) (hs : Safe T d s)
    (h : s.releaseUSDT T d sender vttTxHash recipient amount = .ok s') : Safe T d s' := by
  obtain ⟨_, husdt, rfl⟩ := releaseUSDT_ok h
  refine ⟨hs.fee, ?_⟩
  have hmoved := (hexact.transfer husdt).2 d.bridge
  rw [if_pos rfl] at hmoved
  dsimp only
  omega

theorem Safe.withdrawFees {target : Address} (hs : Safe T d s)
    (h : s.withdrawFees T d sender target = .ok s') :
    Safe T d s' := by
  obtain ⟨_, -, h⟩ := ok_of_bind h
  obtain ⟨_, -, h⟩ := ok_of_bind h
  obtain ⟨u, hcoin, h⟩ := ok_of_bind h
  have hu : Safe T d u := by
    unfold System.withdrawCoinFees at hcoin
    split at hcoin
    · obtain ⟨_, -, hcoin⟩ := ok_of_bind hcoin
      cases hcoin
      exact hs.of_same rfl rfl rfl
    · cases hcoin
      exact hs
  unfold System.withdrawDollarFees at h
  split at h
  · obtain ⟨_, -, h⟩ := ok_of_bind h
    cases h
    exact ⟨hu.fee, Nat.zero_le _⟩
  · cases h
    exact hu

/-- The coin is none of the bridge's storage. -/
theorem Safe.onCoin {r : Except Revert WVTT} (hs : Safe T d s) (h : s.onCoin r = .ok s') :
    Safe T d s' := by
  obtain ⟨_, -, h⟩ := ok_of_bind h
  cases h
  exact hs.of_same rfl rfl rfl

theorem Safe.exec {call : (Address × ℕ) × Call} (hexact : T.Exact) (hs : Safe T d s)
    (hcovered : Covered T d s (some call)) (h : SystemStep T d s call s') : Safe T d s' := by
  obtain ⟨⟨_, _⟩, call⟩ := call
  obtain ⟨hsender, h⟩ := h
  cases call with
  | transfer | approve | transferFrom | mint | burn | setBridge | transferCoinOwnership =>
    exact hs.onCoin h
  | depositWVTT =>
    obtain ⟨_, _, wvtt, _, -, -, rfl⟩ := depositWVTT_ok h
    exact hs.of_same rfl rfl rfl
  | depositUSDT => exact hs.depositUSDT hexact hsender h
  | releaseWVTT =>
    obtain ⟨_, -, rfl⟩ := releaseWVTT_ok h
    exact hs.of_same rfl rfl rfl
  | releaseUSDT => exact hs.releaseUSDT hexact hcovered h
  | withdrawFees => exact hs.withdrawFees h
  | pause | unpause | queueSetRelayer | executeSetRelayer | setFee | transferOwnership =>
    exact hs.administers (administers_of_exec rfl h)

/-- A fee of the whole at most blocks no deposit. -/
theorem depositFee_of_le {b : VTTBridge} (hfee : b.protocolFeeBps ≤ 10000)
    (hfits : amount * b.protocolFeeBps < wordSize) : ∃ parts, b.depositFee amount = .ok parts := by
  have hle : amount * b.protocolFeeBps / 10000 ≤ amount := by
    calc amount * b.protocolFeeBps / 10000 ≤ amount * 10000 / 10000 :=
          Nat.div_le_div_right (Nat.mul_le_mul_left _ hfee)
      _ = amount := Nat.mul_div_cancel _ (by decide)
  refine ⟨(amount * b.protocolFeeBps / 10000, amount - amount * b.protocolFeeBps / 10000), ?_⟩
  simp only [VTTBridge.depositFee, checkedMul, if_pos hfits, checkedSub, bind, Except.bind,
    if_pos hle, pure, Except.pure]

theorem Safe.reserved (hexact : T.Exact) (hs : Safe T d s) : Reserved T d s := by
  refine ⟨hs.reserve, fun target => ?_, fun amount _ hfits => depositFee_of_le hs.fee hfits⟩
  unfold System.withdrawDollarFees
  split
  · obtain ⟨usdt, husdt⟩ : ∃ usdt, T.transfer d.bridge target s.bridge.collectedFeesUSDT s.usdt =
        some usdt :=
      hexact.enough hs.reserve
    rw [husdt]
    exact ⟨_, rfl⟩
  · exact ⟨_, rfl⟩

/-- With a fee of the whole at most, and releases that leave the fees alone, the fees are there in
every state, can be sent, and the fee blocks no deposit. -/
theorem fees_reserved {coinOwner owner relayer : Address} {feeBps : ℕ} {usdt : τ}
    {calls : List (Option ((Address × ℕ) × Call))} (hexact : T.Exact) (hfee : feeBps ≤ 10000)
    (h : Run (Within (Covered T d) (ReserveStep T d))
      (.deployed d coinOwner owner relayer feeBps usdt) calls s) :
    Reserved T d s := by
  refine Safe.reserved hexact (h.invariant ?_ ⟨hfee, Nat.zero_le _⟩)
  rintro _ _ _ ⟨hcovered, hstep⟩ hs
  cases hstep with
  | call hcall => exact hs.exec hexact hcovered hcall
  | others husdt => exact ⟨hs.fee, hs.reserve.trans husdt⟩

end Reserve

namespace Demo

variable {m : FinMap Address ℕ}

theorem dollarsOf_insert (account other : Address) (amount : ℕ) :
    dollarsOf (m.insert account amount) other = if account = other then amount
      else dollarsOf m other := by
  unfold dollarsOf
  rw [get_insert]
  split
  · rfl
  · rfl

theorem moved_of_moveDollars {m' : FinMap Address ℕ} {source target : Address} {amount : ℕ}
    (h : moveDollars source target amount m = some m') :
    dollars.Moved source target amount m m' := by
  unfold moveDollars at h
  split at h
  · rename_i hle
    cases h
    refine ⟨hle, fun account => ?_⟩
    simp only [dollars, dollarsOf_insert]
    grind
  · cases h

/-- The table of balances is a token of the kind that is assumed. -/
theorem dollars_exact : dollars.Exact where
  transfer h := moved_of_moveDollars h
  transferFrom h := moved_of_moveDollars h
  enough h := ⟨_, if_pos h⟩

/-- A deposit is released in full, and the fee for it is gone. -/
def draining : List ((Address × ℕ) × Call) :=
  [((⟨8⟩, 0), .depositUSDT 100000 ⟨5⟩), ((⟨9⟩, 1), .releaseUSDT ⟨1⟩ ⟨7⟩ 100000)]

/-- The fees of a deposit are released, and with a fee above the whole nothing can be deposited. -/
theorem fees_not_reserved :
    (∃ calls s, Run (ReserveStep dollars deployment) (deployed 10) calls s ∧
      ¬ Reserved dollars deployment s) ∧
      ¬ Reserved dollars deployment (deployed 20000) := by
  refine ⟨?_, fun h => ?_⟩
  · have hcheck : (match execAll (deployed 10) draining with
        | .ok s => decide (dollars.balanceOf s.usdt deployment.bridge < s.bridge.collectedFeesUSDT)
        | .error _ => false) = true := by decide +kernel
    split at hcheck
    · rename_i s hs
      have hcalls : ∀ call ∈ draining, call.1.1 ≠ deployment.bridge ∧ ∀ bridge,
          call.2 ≠ .setBridge bridge := by
        intro _ hcall
        simp only [draining, List.mem_cons, List.not_mem_nil, or_false] at hcall
        rcases hcall with rfl | rfl
        all_goals exact ⟨by decide, fun _ h => nomatch h⟩
      have hrun := run_of_execAll hcalls hs
      refine ⟨_, s, hrun.relabel some fun _ _ _ hstep => .call hstep.2, fun hreserved => ?_⟩
      exact absurd hreserved.reserve (Nat.not_le.2 (of_decide_eq_true hcheck))
    · cases hcheck
  · obtain ⟨_, hparts⟩ := h.depositable 10000 (by decide) (by decide +kernel)
    have hsum := VTTBridge.depositFee_ok hparts
    have hfee : (deployed 20000).bridge.protocolFeeBps = 20000 := rfl
    omega

/-- A deposit, and a release that leaves its fee. -/
theorem deposit_reserved :
    ∃ s, Run (Within (Covered dollars deployment) (ReserveStep dollars deployment)) (deployed 10)
      [some ((⟨8⟩, 0), .depositUSDT 100000 ⟨5⟩), some ((⟨9⟩, 1), .releaseUSDT ⟨1⟩ ⟨7⟩ 99900)] s ∧
      Reserved dollars deployment s := by
  have hcheck : (match (deployed 10).exec dollars deployment ⟨8⟩ 0 (.depositUSDT 100000 ⟨5⟩) with
      | .ok u => decide (99900 + u.bridge.collectedFeesUSDT ≤
        dollars.balanceOf u.usdt deployment.bridge) &&
        (u.exec dollars deployment ⟨9⟩ 1 (.releaseUSDT ⟨1⟩ ⟨7⟩ 99900)).isOk
      | .error _ => false) = true := by decide +kernel
  split at hcheck
  · rename_i u hu
    rw [Bool.and_eq_true, decide_eq_true_eq] at hcheck
    cases hs : u.exec dollars deployment ⟨9⟩ 1 (.releaseUSDT ⟨1⟩ ⟨7⟩ 99900) with
    | error =>
      rw [hs] at hcheck
      cases hcheck.2
    | ok s =>
      have hdeposit :
          Within (Covered dollars deployment) (ReserveStep dollars deployment) (deployed 10)
          (some ((⟨8⟩, 0), .depositUSDT 100000 ⟨5⟩)) u := ⟨trivial, .call ⟨by decide, hu⟩⟩
      have hrelease : Within (Covered dollars deployment) (ReserveStep dollars deployment) u
          (some ((⟨9⟩, 1), .releaseUSDT ⟨1⟩ ⟨7⟩ 99900)) s := ⟨hcheck.1, .call ⟨by decide, hs⟩⟩
      have hrun := (Run.nil.snoc hdeposit).snoc hrelease
      exact ⟨s, hrun, fees_reserved dollars_exact (by decide) hrun⟩
  · cases hcheck

end Demo

end Vtt.Evm
