import Vtt.Demo
import Vtt.State.Credits

/-!
# The reward of a producer

A producer's reward is split into the commission of the validator and the part of the stakers, which
goes to the stakes in proportion. A share is computed from a product that saturates, so that large
stakes and rewards give the stakers less than their proportion.
-/

namespace Vtt

open Lib List StateDB BitVec

namespace Executor

open Confined

variable {ε : Type}

variable {α : Type}

/-! ## The credits -/

/-- The part of the stakers in a reward. -/
def stakersPart (staking : StakingState) (reward : Amount) : U128 :=
  (splitProducerReward reward staking.commissionBps).stakerRewards.raw

/-- The share of a staker in their part. -/
def shareIn (staking : StakingState) (reward : Amount) (stake : Amount) : U128 :=
  stakeShare stake.raw (stakersPart staking reward) staking.totalStake.raw

/-- What is counted as paid to the stakers. -/
def countedShares (staking : StakingState) (reward : Amount) : U128 :=
  staking.delegations.foldl (fun sum d => U128.saturatingAdd sum (shareIn staking reward d.amount))
    (shareIn staking reward staking.selfStake)

/-- What is left of the stakers' part. -/
def dustOf (staking : StakingState) (reward : Amount) : U128 :=
  if countedShares staking reward < stakersPart staking reward then
    stakersPart staking reward - countedShares staking reward
  else 0

/-- What the stakers are credited for their stakes. -/
def shareCredits (staking : StakingState) (reward : Amount) : List (Address × Amount) :=
  staking.delegations.map fun d => (d.delegator, ⟨shareIn staking reward d.amount⟩)

/-- The credits that pay a reward, if the validator has stake. -/
def stakedCredits (validator : Address) (staking : StakingState) (reward : Amount) :
    List (Address × Amount) :=
  (validator, (splitProducerReward reward staking.commissionBps).validatorCommission) ::
    (validator, ⟨shareIn staking reward staking.selfStake⟩) ::
    (shareCredits staking reward ++ [(validator, ⟨dustOf staking reward⟩)])

/-- The credits that pay a reward. -/
def rewardCredits (validator : Address) (staking : Option StakingState) (reward : Amount) :
    List (Address × Amount) :=
  match staking with
  | none => [(validator, reward)]
  | some staking =>
    if staking.totalStake.raw = 0 then [(validator, reward)]
      else stakedCredits validator staking reward

theorem run_creditNonzero (address : Address) (amount : U128) (s : StateDB) :
    (creditNonzero address amount : DbM ε Unit).run s =
      some (.ok (), s.creditAll (nonzeroCredits [(address, ⟨amount⟩)])) := by
  unfold creditNonzero
  split
  · rename_i hpos
    rw [nonzeroCredits, filter_cons_of_pos (by exact decide_eq_true hpos)]
    exact Db.run_addBalance_ignoreError ..
  · rename_i hzero
    rw [nonzeroCredits, filter_cons_of_neg (by exact fun h => hzero (of_decide_eq_true h))]
    rfl

/-- The delegators are paid one after the other. -/
theorem run_shares (pool totalStake : U128) (delegations : List Delegation) (start : U128)
    (s : StateDB) :
    (foldEach delegations start fun distributed d => do
        let share := stakeShare d.amount.raw pool totalStake
        creditNonzero d.delegator share
        pure (U128.saturatingAdd distributed share) : DbM ε U128).run s =
      some (.ok (delegations.foldl
          (fun sum d => U128.saturatingAdd sum (stakeShare d.amount.raw pool totalStake)) start),
        s.creditAll (nonzeroCredits
          (delegations.map fun d => (d.delegator,
          ⟨stakeShare d.amount.raw pool totalStake⟩)))) := by
  induction delegations generalizing start s with
  | nil => rfl
  | cons d _ ih =>
    have hfirst : (do
        let share := stakeShare d.amount.raw pool totalStake
        creditNonzero d.delegator share
        pure (U128.saturatingAdd start share) : DbM ε U128).run s =
      some (.ok (U128.saturatingAdd start (stakeShare d.amount.raw pool totalStake)),
        s.creditAll (nonzeroCredits [(d.delegator, ⟨stakeShare d.amount.raw pool totalStake⟩)])) :=
      run_bind_of_ok (run_creditNonzero ..)
    rw [foldEach, run_bind_of_ok hfirst, ih, map_cons, foldl_cons,
      ← creditAll_nonzeroCredits_append]
    rfl

section Nothing

variable {staking : StakingState} {reward : Amount} (h : stakersPart staking reward = 0)

include h

theorem shareIn_of_nothing (stake : Amount) : shareIn staking reward stake = 0 := by
  unfold shareIn stakeShare U128.checkedDiv
  rw [h]
  have hproduct : U128.saturatingMul stake.raw 0 = 0 :=
    eq_of_toNat_eq ((U128.toNat_saturatingMul _ _).trans (Nat.zero_min _))
  split
  · rfl
  · exact zero_udiv

/-- If there is nothing for the stakers, only the commission is paid. -/
theorem nonzeroCredits_of_nothing (validator : Address) :
    nonzeroCredits (stakedCredits validator staking reward) =
      nonzeroCredits
        [(validator, (splitProducerReward reward staking.commissionBps).validatorCommission)] := by
  have hdust : dustOf staking reward = 0 := by
    unfold dustOf
    rw [h]
    exact if_neg not_lt_zero
  have hrest : nonzeroCredits ((validator, ⟨shareIn staking reward staking.selfStake⟩) ::
      (shareCredits staking reward ++ [(validator, ⟨dustOf staking reward⟩)])) = [] := by
    refine nonzeroCredits_eq_nil fun c hc => ?_
    simp only [shareCredits, mem_cons, mem_append, mem_map, not_mem_nil, or_false] at hc
    rcases hc with rfl | ⟨_, -, rfl⟩ | rfl
    · exact shareIn_of_nothing h _
    · exact shareIn_of_nothing h _
    · exact hdust
  refine (nonzeroCredits_append [_] _).trans ?_
  rw [hrest, append_nil]

end Nothing

/-- The stakers' part is paid by its credits. -/
theorem run_distributeToStakers (validator : Address) (staking : StakingState) (reward : Amount)
    (s : StateDB) :
    (distributeToStakers validator staking (stakersPart staking reward) : DbM ε Unit).run s =
      some (.ok (),
        s.creditAll (nonzeroCredits ((validator, ⟨shareIn staking reward staking.selfStake⟩) ::
          (shareCredits staking reward ++ [(validator, ⟨dustOf staking reward⟩)])))) := by
  have hdust (u : StateDB) : (if countedShares staking reward < stakersPart staking reward then
        credit validator ⟨stakersPart staking reward - countedShares staking reward⟩
      else pure () : DbM ε Unit).run u =
        some (.ok (), u.creditAll (nonzeroCredits [(validator, ⟨dustOf staking reward⟩)])) := by
    unfold dustOf
    split
    · rename_i hlt
      have hpos : 0 < stakersPart staking reward - countedShares staking reward := by
        rw [lt_def] at hlt ⊢
        rw [toNat_sub_of_le (le_def.2 (Nat.le_of_lt hlt))]
        exact Nat.sub_pos_of_lt hlt
      rw [← run_creditNonzero (ε := ε), creditNonzero, if_pos hpos]
    · rfl
  unfold distributeToStakers
  rw [run_bind_of_ok (run_creditNonzero ..), run_bind_of_ok (run_shares ..)]
  refine (hdust _).trans ?_
  rw [← creditAll_nonzeroCredits_append, ← creditAll_nonzeroCredits_append]
  rfl

/-- A reward is paid by its credits. -/
theorem run_distributeProducerReward (validator : Address) (reward : Amount) (s : StateDB) :
    (distributeProducerReward validator reward : DbM ε Unit).run s = some (.ok (),
        s.creditAll (nonzeroCredits
          (rewardCredits validator (s.getAccount validator).staking reward))) := by
  have hall : (credit validator reward : DbM ε Unit).run s =
      some (.ok (), s.creditAll [(validator, reward)]) :=
    Db.run_addBalance_ignoreError ..
  unfold distributeProducerReward
  split
  · rename_i hzero
    have hnothing :
        nonzeroCredits (rewardCredits validator (s.getAccount validator).staking reward) = [] := by
      have hone : nonzeroCredits [(validator, reward)] = [] :=
        nonzeroCredits_eq_nil fun c hc => by rw [mem_singleton.1 hc, hzero]
      unfold rewardCredits
      split
      · exact hone
      · rename_i staking _
        split
        · exact hone
        · have hcommission :
              (splitProducerReward reward staking.commissionBps).validatorCommission.raw = 0 := by
            show reward.raw * U128.ofU16 staking.commissionBps / 10000 = 0
            rw [hzero]
            exact congrArg (· / (10000 : U128)) (zero_mul)
          have hstakers : stakersPart staking reward = 0 := by
            show reward.raw -
              (splitProducerReward reward staking.commissionBps).validatorCommission.raw = 0
            rw [hzero, hcommission]
            rfl
          rw [nonzeroCredits_of_nothing hstakers]
          exact nonzeroCredits_eq_nil fun c hc => by rw [mem_singleton.1 hc, hcommission]
    rw [hnothing]
    rfl
  · rename_i hsome
    have hraw : 0 < reward.raw := lt_def.2 (Nat.pos_of_ne_zero fun h => hsome (eq_of_toNat_eq h))
    have hpos : nonzeroCredits [(validator, reward)] = [(validator, reward)] := by
      rw [nonzeroCredits, filter_cons_of_pos (by exact decide_eq_true hraw)]
      rfl
    rw [Db.getAccount, run_view_bind]
    unfold rewardCredits
    cases (s.getAccount validator).staking with
    | none =>
      rw [hpos]
      exact hall
    | some =>
      dsimp only
      split
      · rw [hpos]
        exact hall
      · rw [run_bind_of_ok (run_creditNonzero ..)]
        split
        · rename_i hnone
          rw [nonzeroCredits_of_nothing hnone]
          rfl
        · refine (run_distributeToStakers ..).trans ?_
          rw [← creditAll_nonzeroCredits_append]
          rfl

/-! ## Shares as numbers -/

section Shares

variable {staking : StakingState} (reward : Amount)

/-- What was delegated to a validator. -/
def delegated (staking : StakingState) : ℕ :=
  (staking.delegations.map fun d => d.amount.raw.toNat).sum

/-- The share of a stake without a bound on the product. -/
def exactShare (staking : StakingState) (reward stake : Amount) : ℕ :=
  stake.raw.toNat * (stakersPart staking reward).toNat / staking.totalStake.raw.toNat

theorem toNat_shareIn (h : staking.totalStake.raw ≠ 0) (stake : Amount) :
    (shareIn staking reward stake).toNat =
      min (stake.raw.toNat * (stakersPart staking reward).toNat)
        (2 ^ 128 - 1) / staking.totalStake.raw.toNat := by
  rw [shareIn, stakeShare, U128.checkedDiv, if_neg h, Option.getD_some, toNat_udiv,
    U128.toNat_saturatingMul]

theorem shareIn_le (h : staking.totalStake.raw ≠ 0) (stake : Amount) :
    (shareIn staking reward stake).toNat ≤ exactShare staking reward stake := by
  rw [toNat_shareIn reward h]
  exact Nat.div_le_div_right (Nat.min_le_left ..)

/-- The product of a share fits a word, or makes no difference to the share. -/
def ShareFits (staking : StakingState) (reward stake : Amount) : Prop :=
  stake.raw.toNat * (stakersPart staking reward).toNat < 2 ^ 128 ∨
    (2 ^ 128 - 1) / staking.totalStake.raw.toNat = exactShare staking reward stake

theorem shareIn_eq_iff (h : staking.totalStake.raw ≠ 0) (stake : Amount) :
    (shareIn staking reward stake).toNat = exactShare staking reward stake ↔
      ShareFits staking reward stake := by
  rw [toNat_shareIn reward h]
  rcases Nat.lt_or_ge (stake.raw.toNat * (stakersPart staking reward).toNat)
    (2 ^ 128) with hlt | hge
  · rw [Nat.min_eq_left (by omega)]
    exact ⟨fun _ => .inl hlt, fun _ => rfl⟩
  · rw [Nat.min_eq_right (by omega)]
    exact ⟨.inr, fun hfits => hfits.resolve_left (Nat.not_lt.2 hge)⟩

/-- Shares of parts are no more than the share of the whole. -/
theorem sum_div_le (xs : List α) (f : α → ℕ) (n d : ℕ) :
    (xs.map fun x => f x * n / d).sum ≤ (xs.map f).sum * n / d := by
  induction xs with
  | nil => exact Nat.zero_le _
  | cons _ _ ih =>
    rw [map_cons, sum_cons, map_cons, sum_cons, Nat.add_mul]
    exact (Nat.add_le_add_left ih _).trans (Nat.div_add_div_le_add_div)

/-- The shares are no more than there is for the stakers. -/
theorem shares_le (h : staking.totalStake.raw ≠ 0)
    (hstakes : staking.selfStake.raw.toNat + delegated staking ≤ staking.totalStake.raw.toNat) :
    (shareIn staking reward staking.selfStake).toNat +
        (staking.delegations.map fun d => (shareIn staking reward d.amount).toNat).sum ≤
      (stakersPart staking reward).toNat := by
  have hpos : 0 < staking.totalStake.raw.toNat := Nat.pos_of_ne_zero fun hz => h (eq_of_toNat_eq hz)
  have hself := shareIn_le reward h staking.selfStake
  have hdelegated : (staking.delegations.map fun d => (shareIn staking reward d.amount).toNat).sum ≤
      delegated staking * (stakersPart staking reward).toNat / staking.totalStake.raw.toNat := by
    refine (sum_le_sum fun d _ => shareIn_le reward h d.amount).trans ?_
    exact sum_div_le staking.delegations (fun d => d.amount.raw.toNat) _ _
  calc
    _ ≤ staking.selfStake.raw.toNat * (stakersPart staking reward).toNat /
          staking.totalStake.raw.toNat +
          delegated staking * (stakersPart staking reward).toNat / staking.totalStake.raw.toNat :=
        Nat.add_le_add hself hdelegated
    _ ≤ (staking.selfStake.raw.toNat + delegated staking) * (stakersPart staking reward).toNat /
          staking.totalStake.raw.toNat := by
        rw [Nat.add_mul]
        exact Nat.div_add_div_le_add_div
    _ ≤ staking.totalStake.raw.toNat * (stakersPart staking reward).toNat /
        staking.totalStake.raw.toNat :=
        Nat.div_le_div_right (Nat.mul_le_mul_right _ hstakes)
    _ = (stakersPart staking reward).toNat := Nat.mul_div_cancel_left _ hpos

theorem toNat_foldl_saturatingAdd (xs : List α) (f : α → U128) (start : U128) :
    (xs.foldl (fun sum x => U128.saturatingAdd sum (f x)) start).toNat =
      min (start.toNat + (xs.map fun x => (f x).toNat).sum) (2 ^ 128 - 1) := by
  induction xs generalizing start with
  | nil =>
    have hlt := start.isLt
    exact (Nat.min_eq_left (show start.toNat ≤ 2 ^ 128 - 1 by omega)).symm
  | cons _ _ ih =>
    rw [foldl_cons, ih, U128.toNat_saturatingAdd, map_cons, sum_cons]
    omega

/-- The commission and the stakers' part are the reward. -/
theorem commission_add_part (hbps : staking.commissionBps.toNat ≤ 10000) :
    (splitProducerReward reward staking.commissionBps).validatorCommission.raw.toNat +
      (stakersPart staking reward).toNat = reward.raw.toNat := by
  have hlt := reward.raw.isLt
  have hcommission :
      (splitProducerReward reward staking.commissionBps).validatorCommission.raw.toNat =
      reward.raw.toNat * staking.commissionBps.toNat % 2 ^ 128 / 10000 := by
    show (reward.raw * U128.ofU16 staking.commissionBps / 10000).toNat = _
    rw [toNat_udiv, toNat_mul, U128.toNat_ofU16]
    rfl
  have hle : (splitProducerReward reward staking.commissionBps).validatorCommission.raw.toNat ≤
      reward.raw.toNat := by
    rw [hcommission]
    have hmod := Nat.mod_le (reward.raw.toNat * staking.commissionBps.toNat) (2 ^ 128)
    have hmul := Nat.mul_le_mul_left reward.raw.toNat hbps
    exact Nat.div_le_of_le_mul ((hmod.trans hmul).trans_eq (Nat.mul_comm ..))
  have hpart : (stakersPart staking reward).toNat = reward.raw.toNat -
      (splitProducerReward reward staking.commissionBps).validatorCommission.raw.toNat :=
    toNat_sub_of_le (le_def.2 hle)
  omega

/-- The credits of a reward add up to the reward. -/
theorem sum_stakedCredits (validator : Address) (h : staking.totalStake.raw ≠ 0)
    (hstakes : staking.selfStake.raw.toNat + delegated staking ≤ staking.totalStake.raw.toNat)
    (hbps : staking.commissionBps.toNat ≤ 10000) :
    ((stakedCredits validator staking reward).map fun c => c.2.raw.toNat).sum =
      reward.raw.toNat := by
  have hle := shares_le reward h hstakes
  have hsplit := commission_add_part reward hbps
  have hpart := (stakersPart staking reward).isLt
  have hcounted : (countedShares staking reward).toNat =
      (shareIn staking reward staking.selfStake).toNat +
      (staking.delegations.map fun d => (shareIn staking reward d.amount).toNat).sum := by
    rw [countedShares, toNat_foldl_saturatingAdd]
    exact Nat.min_eq_left (by omega)
  have hdust : (dustOf staking reward).toNat + (countedShares staking reward).toNat =
      (stakersPart staking reward).toNat := by
    unfold dustOf
    split
    · rename_i hlt
      have hlt := lt_def.1 hlt
      rw [toNat_sub_of_le (le_def.2 (Nat.le_of_lt hlt))]
      omega
    · rename_i hge
      have hge := Nat.le_of_not_lt (mt lt_def.2 hge)
      show 0 + _ = _
      omega
  have hshares : ((shareCredits staking reward).map fun c => c.2.raw.toNat).sum =
      (staking.delegations.map fun d => (shareIn staking reward d.amount).toNat).sum := by
    rw [shareCredits, map_map]
    rfl
  simp only [stakedCredits, map_cons, map_append, map_nil, sum_cons, sum_append, sum_nil, hshares]
  omega

end Shares

/-! ## What a reward does -/

section Paid

variable {s : StateDB} {validator : Address} {reward : Amount}

/-- The stakes of a validator are within its total, and its commission is a share. -/
structure Regular (staking : StakingState) : Prop where
  stakes : staking.selfStake.raw.toNat + delegated staking ≤ staking.totalStake.raw.toNat
  commission : staking.commissionBps.toNat ≤ 10000

theorem sum_rewardCredits (validator : Address) (reward : Amount) {staking : Option StakingState}
    (h : ∀ st, staking = some st → Regular st) :
    ((rewardCredits validator staking reward).map fun c => c.2.raw.toNat).sum =
      reward.raw.toNat := by
  unfold rewardCredits
  split
  · exact Nat.add_zero _
  · rename_i st
    split
    · exact Nat.add_zero _
    · rename_i hsome
      exact sum_stakedCredits reward validator hsome (h st rfl).stakes (h st rfl).commission

/-- The credits of a reward go to the validator and its delegators. -/
theorem owner_of_rewardCredits {staking : Option StakingState} {c : Address × Amount}
    (h : c ∈ rewardCredits validator staking reward) :
    c.1 = validator ∨ ∃ st, staking = some st ∧ ∃ d ∈ st.delegations, d.delegator = c.1 := by
  unfold rewardCredits at h
  split at h
  · rw [mem_singleton.1 h]
    exact .inl rfl
  · rename_i st
    split at h
    · rw [mem_singleton.1 h]
      exact .inl rfl
    · simp only [stakedCredits, shareCredits, mem_cons, mem_append, mem_map, not_mem_nil,
        or_false] at h
      rcases h with rfl | rfl | ⟨d, hd, rfl⟩ | rfl
      · exact .inl rfl
      · exact .inl rfl
      · exact .inr ⟨st, rfl, d, hd, rfl⟩
      · exact .inl rfl

/-- A reward is paid in full if no balance overflows, to the validator and its delegators only, and
takes from nobody. -/
theorem producer_reward_paid (reward : Amount)
    (hregular : ∀ staking, (s.getAccount validator).staking = some staking → Regular staking) :
    ∃ t, (distributeProducerReward validator reward : DbM ε Unit).run s = some (.ok (), t) ∧
      (s.RoomFor (rewardCredits validator (s.getAccount validator).staking reward) →
        t.totalBalance = s.totalBalance + reward.raw.toNat) ∧
      (∀ a, a ≠ validator → (∀ staking, (s.getAccount validator).staking = some staking →
        ∀ d ∈ staking.delegations, d.delegator ≠ a) → t.getAccount a = s.getAccount a) ∧
      ∀ a, (s.getBalance a).raw.toNat ≤ (t.getBalance a).raw.toNat := by
  refine ⟨_, run_distributeProducerReward validator reward s, fun hfits => ?_,
    fun a hne hothers => ?_, fun a => ?_⟩
  · rw [← sum_rewardCredits validator reward hregular]
    exact totalBalance_of_credits hfits.getBalance
  · refine (s.getAccount_creditAll _ a).2 fun c hc heq => ?_
    rcases owner_of_rewardCredits (mem_of_mem_filter hc) with hvalidator | ⟨staking, hstaking,
      d, hd, howner⟩
    · exact hne (heq.symm.trans hvalidator)
    · exact hothers staking hstaking d hd (howner.trans heq)
  · exact (s.getBalance_creditAll _ a).1

/-! ## Pro rata -/

variable {staking : StakingState}

/-- What the validator is credited apart from delegations. -/
def ownCredit (validator : Address) (staking : StakingState) (reward : Amount) (a : Address) : ℕ :=
  if validator = a then
    (splitProducerReward reward staking.commissionBps).validatorCommission.raw.toNat +
      (shareIn staking reward staking.selfStake).toNat + (dustOf staking reward).toNat
  else 0

/-- The delegations of an address. -/
def delegationsOf (staking : StakingState) (a : Address) : List Delegation :=
  staking.delegations.filter fun d => d.delegator = a

theorem creditedTo_shareCredits (a : Address) : creditedTo (shareCredits staking reward) a =
    ((delegationsOf staking a).map fun d => (shareIn staking reward d.amount).toNat).sum := by
  unfold shareCredits delegationsOf
  induction staking.delegations with
  | nil => rfl
  | cons d _ ih =>
    rw [map_cons, creditedTo_cons, ih]
    by_cases hd : d.delegator = a
    · rw [filter_cons_of_pos (by exact decide_eq_true hd), if_pos hd, map_cons, sum_cons]
    · rw [filter_cons_of_neg (by exact fun h => hd (of_decide_eq_true h)), if_neg hd, Nat.zero_add]

theorem creditedTo_stakedCredits (a : Address) :
    creditedTo (stakedCredits validator staking reward) a = ownCredit validator staking reward a +
      ((delegationsOf staking a).map fun d => (shareIn staking reward d.amount).toNat).sum := by
  rw [stakedCredits, creditedTo_cons, creditedTo_cons, creditedTo_append, creditedTo_cons,
    creditedTo_nil, creditedTo_shareCredits, ownCredit]
  dsimp only
  split
  · omega
  · omega

/-- Sums of smaller parts are equal only if the parts are. -/
theorem sum_eq_iff_of_le {xs : List α} {f g : α → ℕ} (h : ∀ x ∈ xs, f x ≤ g x) :
    (xs.map f).sum = (xs.map g).sum ↔ ∀ x ∈ xs, f x = g x := by
  induction xs with
  | nil => exact ⟨fun _ => nofun, fun _ => rfl⟩
  | cons _ rest ih =>
    obtain ⟨_, hrest⟩ := forall_mem_cons.1 h
    have hle : (rest.map f).sum ≤ (rest.map g).sum := sum_le_sum hrest
    rw [map_cons, map_cons, sum_cons, sum_cons, forall_mem_cons, ← ih hrest]
    omega

/-- A delegator is credited the proportion of each delegation exactly if there is room in the
balance and each product fits a word or makes no difference. -/
theorem delegators_share_iff (reward : Amount)
    (hstaking : (s.getAccount validator).staking = some staking)
    (htotal : staking.totalStake.raw ≠ 0) :
    ∃ t, (distributeProducerReward validator reward : DbM ε Unit).run s = some (.ok (), t) ∧ ∀ a,
      ((t.getBalance a).raw.toNat = (s.getBalance a).raw.toNat +
          ownCredit validator staking reward a +
            ((delegationsOf staking a).map fun d => exactShare staking reward d.amount).sum ↔
        (s.getBalance a).raw.toNat + ownCredit validator staking reward a +
            ((delegationsOf staking a).map fun d => exactShare staking reward d.amount).sum <
              2 ^ 128 ∧
          ∀ d ∈ delegationsOf staking a, ShareFits staking reward d.amount) := by
  refine ⟨_, run_distributeProducerReward validator reward s, fun a => ?_⟩
  have hcredits :
      creditedTo (nonzeroCredits (rewardCredits validator (s.getAccount validator).staking reward))
        a = ownCredit validator staking reward a +
        ((delegationsOf staking a).map fun d => (shareIn staking reward d.amount).toNat).sum := by
    rw [creditedTo_nonzero, hstaking, rewardCredits, if_neg htotal, creditedTo_stakedCredits]
  obtain ⟨-, hle, heq⟩ := s.getBalance_creditAll
    (nonzeroCredits (rewardCredits validator (s.getAccount validator).staking reward)) a
  have hshares : ∀ d ∈ delegationsOf staking a, (shareIn staking reward d.amount).toNat ≤
      exactShare staking reward d.amount := fun d _ => shareIn_le reward htotal d.amount
  have hsum : ((delegationsOf staking a).map fun d => (shareIn staking reward d.amount).toNat).sum ≤
      ((delegationsOf staking a).map fun d => exactShare staking reward d.amount).sum :=
      sum_le_sum hshares
  have hexact := sum_eq_iff_of_le hshares
  simp only [shareIn_eq_iff reward htotal] at hexact
  rw [← hexact]
  constructor
  · intro h
    exact ⟨lt_of_eq_of_lt h.symm (isLt _), by omega⟩
  · intro _
    have hroom := heq (by omega)
    omega

end Paid

/-! ## The share of the treasury -/

section Treasury

variable {s t : StateDB} {summary : BlockSettlementSummary} {number gasUsed : UInt64}
  {gasConfig : GasConfig} {producer : Address} {totalStaked : Amount} {params : ConsensusParams}

/-- An account gets a credit exactly if the credit is its own and there is room for it. -/
theorem credited_iff (address owner : Address) (amount : Amount) :
    ((s.credited (address, amount)).getBalance owner).raw.toNat = (s.getBalance owner).raw.toNat +
      amount.raw.toNat ↔
      amount.raw.toNat = 0 ∨ address = owner ∧ (s.getBalance owner).raw.toNat + amount.raw.toNat <
        2 ^ 128 := by
  have bound := ((s.credited (address, amount)).getBalance owner).raw.isLt
  obtain ⟨-, hle, hroom⟩ := s.getBalance_credited owner (address, amount)
  rw [creditedTo_cons, creditedTo_nil, Nat.add_zero] at hle hroom
  by_cases howner : address = owner
  · simp only [howner, if_true, true_and] at hle hroom ⊢
    omega
  · simp only [howner, if_false, false_and, or_false] at hle hroom ⊢
    omega

/-- Credits do not change the treasury. -/
theorem treasuryAddress_creditAll (s : StateDB) (credits : List (Address × Amount)) :
    (s.creditAll credits).treasuryAddress = s.treasuryAddress := by
  unfold creditAll
  induction credits generalizing s with
  | nil => rfl
  | cons c _ ih =>
    refine (ih _).trans ?_
    unfold credited
    split
    · rfl
    · rfl

variable [Environment]

/-- A settlement that pays a reward runs governance, pays the producer and then credits the share to
the treasury of the parameters. The treasury of the state that governance has left, which pays what
governance spends, gets the share exactly if it is the same one and has room, or if the share is
nothing. -/
theorem treasury_share_iff
    (h : (applyBlockRewardsAndGovernance number gasUsed gasConfig producer totalStaked params :
      SettleM ε BlockSettlementSummary).run s = some (.ok summary, t))
    (hpaid : 0 < summary.minted.raw) :
    ∃ u s₁ s₂ s₃ fees, (finalizeGovernanceProposals number totalStaked : DbM ε UInt64).run s =
        some (.ok summary.governanceFinalized, u) ∧
      (executeQueuedProposals number : DbM ε UInt64).run u =
        some (.ok summary.governanceExecuted, s₁) ∧
      (distributeProducerReward producer (splitBlockReward summary.minted).producer :
        DbM ε Unit).run s₁ = some (.ok (), s₂) ∧
      (credit params.treasuryAddress summary.treasury : DbM ε Unit).run s₂ = some (.ok (), s₃) ∧
      (SettleM.recordMintMilli (U128.toU64 (summary.minted.raw / milliToRaw)) >>= fun _ =>
        payFees producer fees : SettleM ε Unit).run s₃ = some (.ok (), t) ∧
      s₂.treasuryAddress = s₁.treasuryAddress ∧
      ((s₃.getBalance s₁.treasuryAddress).raw.toNat =
          (s₂.getBalance s₁.treasuryAddress).raw.toNat + summary.treasury.raw.toNat ↔
        summary.treasury.raw.toNat = 0 ∨ params.treasuryAddress = s₁.treasuryAddress ∧
          (s₂.getBalance s₁.treasuryAddress).raw.toNat + summary.treasury.raw.toNat < 2 ^ 128) := by
  obtain ⟨_, u, hfinalize, h⟩ := run_bind_ok h
  obtain ⟨_, s₁, hexecute, h⟩ := run_bind_ok h
  obtain ⟨reward, s₀, hreward, h⟩ := run_bind_ok h
  obtain rfl : s₁ = s₀ := (Prod.mk.inj (Option.some.inj hreward)).2
  obtain ⟨_, _, hpay, h⟩ := run_bind_ok h
  obtain ⟨_, hfees, rfl⟩ := ok_of_last h
  rw [payReward, if_pos (show 0 < reward.raw from hpaid)] at hpay
  obtain ⟨_, s₂, hproducer, hpay⟩ := run_bind_ok hpay
  obtain ⟨_, s₃, hshare, hmint⟩ := run_bind_ok hpay
  have credited : s₂.credited (params.treasuryAddress, (splitBlockReward reward).treasury) =
      s₃ := by
    have hrun := (Db.run_addBalance_ignoreError (ε := ε) ..).symm.trans hshare
    exact (Prod.mk.inj (Option.some.inj hrun)).2
  have paid :=
    (run_distributeProducerReward producer (splitBlockReward reward).producer s₁).symm.trans
      hproducer
  have treasury : s₂.treasuryAddress = s₁.treasuryAddress := by
    rw [← (Prod.mk.inj (Option.some.inj paid)).2, treasuryAddress_creditAll]
  refine ⟨u, s₁, s₂, s₃, _, hfinalize, hexecute, hproducer, hshare,
    (run_bind_of_ok hmint).trans hfees, treasury, ?_⟩
  rw [← credited]
  exact credited_iff ..

end Treasury

end Executor

namespace Demo

open Executor

/-- A validator that keeps a tenth, and a delegator with a third of the stake. -/
def backedStaking : StakingState :=
  { StakingState.default with
    totalStake := .fromVtt 3
    selfStake := .fromVtt 2
    commissionBps := 1000
    delegations := [⟨⟨7⟩, .fromVtt 1⟩] }

def backed : StateDB := new.putAccount ⟨1⟩
    { AccountState.default with staking := some backedStaking }

theorem staking_backed : (backed.getAccount ⟨1⟩).staking = some backedStaking := by
  rw [backed, getAccount_putAccount_self]

theorem regular_backed : Regular backedStaking := ⟨by decide +kernel, by decide⟩

/-- Nobody has a balance yet. -/
theorem getBalance_backed (a : Address) : (backed.getBalance a).raw.toNat = 0 := by
  unfold backed getBalance
  by_cases heq : a = ⟨1⟩
  · rw [heq, getAccount_putAccount_self]
    rfl
  · rw [getAccount_putAccount_of_ne _ heq]
    rfl

/-- A reward of one token is paid in full. -/
theorem backed_reward_paid : ∃ t,
    (distributeProducerReward ⟨1⟩ (.fromVtt 1) : DbM Empty Unit).run backed = some (.ok (), t) ∧
      t.totalBalance = backed.totalBalance + (Amount.fromVtt 1).raw.toNat := by
  have hregular : ∀ staking, (backed.getAccount ⟨1⟩).staking = some staking → Regular staking := by
    intro _ hstaking
    exact Option.some.inj hstaking ▸ regular_backed
  obtain ⟨t, hrun, htotal, -⟩ := producer_reward_paid (ε := Empty) (.fromVtt 1) hregular
  refine ⟨t, hrun, htotal fun a => ?_⟩
  rw [getBalance_backed, Nat.zero_add]
  refine Nat.lt_of_le_of_lt (creditedTo_le _ a) ?_
  exact (Amount.fromVtt 1).raw.isLt

/-- The delegator gets a third of nine tenths of a small reward. -/
theorem backed_delegator_share : ∃ t,
    (distributeProducerReward ⟨1⟩ ⟨1000⟩ : DbM Empty Unit).run backed = some (.ok (), t) ∧
      (t.getBalance ⟨7⟩).raw.toNat = 300 := by
  obtain ⟨t, hrun, hall⟩ :=
    delegators_share_iff (ε := Empty) ⟨1000⟩ staking_backed (by decide +kernel)
  refine ⟨t, hrun, ((hall ⟨7⟩).2 ⟨?_, ?_⟩).trans ?_⟩
  · decide +kernel
  · intro d hd
    obtain rfl : d = ⟨⟨7⟩, .fromVtt 1⟩ := mem_singleton.1 hd
    exact .inl (by decide +kernel)
  · decide +kernel

/-- Half of a large stake is delegated. -/
def largeStaking : StakingState :=
  { StakingState.default with
    totalStake := ⟨BitVec.ofNat 128 (2 * 10 ^ 26)⟩
    selfStake := ⟨BitVec.ofNat 128 (10 ^ 26)⟩
    commissionBps := 0
    delegations := [⟨⟨7⟩, ⟨BitVec.ofNat 128 (10 ^ 26)⟩⟩] }

def largeStake : StateDB := new.putAccount ⟨1⟩
    { AccountState.default with staking := some largeStaking }

/-- The delegator gets nothing like half of a hundred tokens. -/
theorem large_share_lost : ∃ t,
    (distributeProducerReward ⟨1⟩ (.fromVtt 100) : DbM Empty Unit).run largeStake =
      some (.ok (), t) ∧
      (largeStake.getAccount ⟨1⟩).staking = some largeStaking ∧
      largeStaking.totalStake.raw.toNat = largeStaking.selfStake.raw.toNat +
        delegated largeStaking ∧
      largeStaking.totalStake.raw.toNat ≤ 10 ^ 27 ∧ (Amount.fromVtt 100).raw.toNat ≤ 10 ^ 27 ∧
      delegationsOf largeStaking ⟨7⟩ = [⟨⟨7⟩, ⟨BitVec.ofNat 128 (10 ^ 26)⟩⟩] ∧
      exactShare largeStaking (.fromVtt 100) ⟨BitVec.ofNat 128 (10 ^ 26)⟩ = 50 * 10 ^ 18 ∧
      (largeStake.getBalance ⟨7⟩).raw.toNat = 0 ∧
      (t.getBalance ⟨7⟩).raw.toNat = (2 ^ 128 - 1) / (2 * 10 ^ 26) := by
  refine ⟨_, run_distributeProducerReward .., ?_, ?_, ?_, ?_, ?_, ?_, ?_, ?_⟩
  · rw [largeStake, getAccount_putAccount_self]
  all_goals decide +kernel

/-- The settlement of the first block. -/
def firstSettlement : SettleM Empty BlockSettlementSummary :=
  applyBlockRewardsAndGovernance 1 0 .default ⟨1⟩ (.fromVtt 3) .default

/-- The first settlement on a state pays a share and has a property. -/
def settles (c : BlockSettlementSummary → StateDB → Bool) (s : StateDB) : Bool :=
  (firstSettlement.run s).any fun
    | (.ok summary, t) => decide (0 < summary.treasury.raw ∧ 0 < summary.minted.raw) && c summary t
    | _ => false

theorem exists_of_settles {c : BlockSettlementSummary → StateDB → Bool} {s : StateDB}
    (h : settles c s = true) :
    ∃ summary t, firstSettlement.run s = some (.ok summary, t) ∧ 0 < summary.treasury.raw ∧
      0 < summary.minted.raw ∧ c summary t = true := by
  obtain ⟨⟨result, t⟩, hrun, h⟩ := (Option.any_eq_true ..).1 h
  cases result with
  | error => cases h
  | ok summary =>
    obtain ⟨hpaid, hcheck⟩ := Bool.and_eq_true_iff.1 h
    obtain ⟨hshare, hminted⟩ := of_decide_eq_true hpaid
    exact ⟨summary, t, hrun, hshare, hminted, hcheck⟩

/-- In the first settlement the treasury of the state is that of the parameters, and gets the
share. -/
theorem first_share : ∃ summary t s₂ s₃, firstSettlement.run backed = some (.ok summary, t) ∧
    (credit ConsensusParams.default.treasuryAddress summary.treasury : DbM Empty Unit).run s₂ =
      some (.ok (), s₃) ∧
    0 < summary.treasury.raw ∧ (s₃.getBalance backed.treasuryAddress).raw.toNat =
      (s₂.getBalance backed.treasuryAddress).raw.toNat + summary.treasury.raw.toNat := by
  let paid (reward : Amount) : StateDB := backed.creditAll (nonzeroCredits
    (rewardCredits ⟨1⟩ (backed.getAccount ⟨1⟩).staking (splitBlockReward reward).producer))
  obtain ⟨summary, t, hrun, hshare, hminted, hroom⟩ :=
    exists_of_settles (s := backed) (c := fun summary _ =>
      ((paid summary.minted).getBalance .zero).raw.toNat + summary.treasury.raw.toNat < 2 ^ 128)
        (by decide +kernel)
  obtain ⟨u, s₁, s₂, s₃, _, hfinalize, hexecute, hproducer, hcredit, -, -, hiff⟩ :=
    treasury_share_iff hrun hminted
  obtain rfl : backed = u := (Prod.mk.inj (Option.some.inj hfinalize)).2
  obtain rfl : backed = s₁ := (Prod.mk.inj (Option.some.inj hexecute)).2
  obtain rfl : paid summary.minted = s₂ :=
    (Prod.mk.inj (Option.some.inj ((run_distributeProducerReward ..).symm.trans hproducer))).2
  exact ⟨summary, t, _, s₃, hrun, hcredit, hshare, hiff.2 (.inr ⟨rfl, of_decide_eq_true hroom⟩)⟩

/-- After governance has named another treasury, it gets nothing of the share. -/
theorem share_bypasses_treasury : ∃ s summary t,
    (applyParameterChange "treasury_address" "0x0000000000000000000000000000000000000008" : DbM
      Empty Unit).run backed = some (.ok (), s) ∧
    firstSettlement.run s = some (.ok summary, t) ∧ 0 < summary.treasury.raw ∧
      s.treasuryAddress = ⟨8⟩ ∧
    t.treasuryAddress = ⟨8⟩ ∧ t.getBalance ⟨8⟩ = .zero := by
  obtain ⟨_, s, hchange, hcheck⟩ := Confined.exists_returns (applyParameterChange "treasury_address"
    "0x0000000000000000000000000000000000000008" : DbM Empty Unit) backed
    (fun s => decide (s.treasuryAddress = ⟨8⟩) &&
      settles (fun _ t => decide (t.treasuryAddress = ⟨8⟩ ∧ t.getBalance ⟨8⟩ = .zero)) s)
      (by decide +kernel)
  obtain ⟨hnamed, hcheck⟩ := Bool.and_eq_true_iff.1 hcheck
  obtain ⟨summary, t, hrun, hshare, -, hcheck⟩ := exists_of_settles hcheck
  obtain ⟨hstays, hnothing⟩ := of_decide_eq_true hcheck
  exact ⟨s, summary, t, hchange, hrun, hshare, of_decide_eq_true hnamed, hstays, hnothing⟩

end Demo

end Vtt
