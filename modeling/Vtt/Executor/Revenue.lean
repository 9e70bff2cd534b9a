import Vtt.Executor.LifeCycle
import Vtt.Executor.Rewards

/-!
# Revenue of an asset

The issuer of an asset pays its holders in proportion to what they have. The shares are rounded
down, and where the product is too large for a word they are rounded down further, so that they
never add up to more than the amount.
-/

namespace Vtt

open Lib Amount List BitVec Db

namespace Executor

open Confined StateDB

variable {α : Type} {distributed : Amount} {credits : List (Address × Amount)}
  {paid : Amount × UInt64} {asset : AssetRecord} {status : AssetProposalStatus}

/-! ## Shares -/

section Shares

/-- A quotient by the parts of the first factor. -/
theorem mul_div_parts (a b : ℕ) {c : ℕ} (hc : 0 < c) : a * b / c = a / c * b + a % c * b / c := by
  conv_lhs => rw [← Nat.div_add_mod a c]
  rw [Nat.add_mul, Nat.mul_assoc, Nat.mul_add_div hc]

/-- What is computed: the rest of the second division is dropped, and the sum wraps. -/
theorem toNat_mulDiv (a b : U128) {c : U128} (hc : 0 < c.toNat) : (mulDiv a b c).toNat =
    (a.toNat / c.toNat * b.toNat +
      if a.toNat % c.toNat * b.toNat < 2 ^ 128 then a.toNat % c.toNat * b.toNat / c.toNat
        else a.toNat % c.toNat * (b.toNat / c.toNat)) % 2 ^ 128 := by
  have hrest : a.toNat % c.toNat < c.toNat := Nat.mod_lt _ hc
  unfold mulDiv U128.checkedMul
  by_cases hproduct : a.toNat * b.toNat < 2 ^ 128
  · have hless := (Nat.mul_le_mul_right b.toNat (Nat.mod_le a.toNat c.toNat)).trans_lt hproduct
    rw [if_pos hproduct, if_pos hless, ← mul_div_parts _ _ hc,
      Nat.mod_eq_of_lt ((Nat.div_le_self ..).trans_lt hproduct)]
    dsimp only
    rw [toNat_udiv, toNat_mul, Nat.mod_eq_of_lt hproduct]
  · rw [if_neg hproduct]
    dsimp only
    rw [toNat_umod, toNat_add, toNat_mul, toNat_udiv, Nat.mod_add_mod]
    by_cases hless : a.toNat % c.toNat * b.toNat < 2 ^ 128
    · rw [if_pos hless, if_pos hless]
      dsimp only
      rw [toNat_udiv, toNat_mul, toNat_umod, Nat.mod_eq_of_lt hless]
    · rw [if_neg hless, if_neg hless]
      dsimp only
      rw [toNat_add, toNat_mul, toNat_mul, toNat_udiv, toNat_udiv, toNat_umod,
        toNat_umod, toNat_umod, Nat.div_eq_of_lt hrest, Nat.mod_eq_of_lt hrest, Nat.zero_mul,
        Nat.zero_mod, Nat.zero_add, Nat.mod_mod,
        Nat.add_mod_mod]

/-- The quotient is not rounded up, and what wraps only makes it smaller. -/
theorem mulDiv_le (a b : U128) {c : U128} (hc : c ≠ 0) :
    (mulDiv a b c).toNat ≤ a.toNat * b.toNat / c.toNat := by
  have hpos : 0 < c.toNat := Nat.pos_of_ne_zero fun hz => hc (eq_of_toNat_eq hz)
  rw [toNat_mulDiv a b hpos, mul_div_parts a.toNat b.toNat hpos]
  refine (Nat.mod_le ..).trans (Nat.add_le_add_left ?_ _)
  split
  · exact le_refl _
  · exact Nat.mul_div_le_mul_div_assoc ..

/-- For every quotient that fits a word: it is computed exactly if the rest of the first factor is
so small that its product with the second fits a word, or that the product of the rests is below the
divisor. -/
theorem mulDiv_exact_iff {a b c : U128} (hc : 0 < c.toNat)
    (hfits : a.toNat * b.toNat / c.toNat < 2 ^ 128) :
    (mulDiv a b c).toNat = a.toNat * b.toNat / c.toNat ↔ a.toNat % c.toNat * b.toNat < 2 ^ 128 ∨
      a.toNat % c.toNat * (b.toNat % c.toNat) < c.toNat := by
  rw [mul_div_parts a.toNat b.toNat hc] at hfits ⊢
  rw [toNat_mulDiv a b hc]
  split
  · rename_i hless
    rw [Nat.mod_eq_of_lt hfits]
    exact iff_of_true rfl (.inl hless)
  · rename_i hlarge
    have hdropped := mul_div_parts b.toNat (a.toNat % c.toNat) hc
    rw [Nat.mul_comm b.toNat, Nat.mul_comm (b.toNat / c.toNat),
      Nat.mul_comm (b.toNat % c.toNat)] at hdropped
    rw [hdropped] at hfits ⊢
    rw [Nat.mod_eq_of_lt ((Nat.add_le_add_left (Nat.le_add_right ..) _).trans_lt hfits),
      or_iff_right hlarge, ← Nat.div_eq_zero_iff_lt hc]
    omega

theorem mulDiv_seven : (mulDiv 7 5 3).toNat = 7 * 5 / 3 :=
  (mulDiv_exact_iff (by decide) (by decide)).2 (.inl (by decide))

/-- A quotient that fits a word and comes out as zero: the whole of it is in the product of the
rests. -/
theorem mulDiv_drops : let a : U128 := 2 ^ 65; let c : U128 := 3 * 2 ^ 64
    0 < c.toNat ∧ a.toNat * a.toNat / c.toNat < 2 ^ 128 ∧ (mulDiv a a c).toNat ≠
      a.toNat * a.toNat / c.toNat := by
  decide +kernel

end Shares

/-! ## Payments to the holders -/

section Payments

variable {totalAmount totalSupply : Amount} {s t : StateDB}
variable {amount : Amount} {payee : Address}

/-- What a holder is due. -/
def dueShare (totalAmount totalSupply : Amount) (holder : OwnershipRecord) : Amount :=
  ⟨mulDiv holder.available.raw totalAmount.raw totalSupply.raw⟩

/-- The credits that pay holders. -/
def shares (totalAmount totalSupply : Amount) (holders : List OwnershipRecord) :
    List (Address × Amount) :=
  holders.map fun holder => (holder.owner, dueShare totalAmount totalSupply holder)

/-- What credits add up to. -/
def sumCredits (credits : List (Address × Amount)) : ℕ := (credits.map fun c => c.2.raw.toNat).sum

theorem sumCredits_append (credits' : List (Address × Amount)) :
    sumCredits (credits ++ credits') = sumCredits credits + sumCredits credits' := by
  rw [sumCredits, map_append, sum_append]
  rfl

/-- A single credit of something. -/
theorem roomFor_singleton_iff {c : Address × Amount} :
    s.RoomFor [c] ↔ (s.getBalance c.1).raw.toNat + c.2.raw.toNat < 2 ^ 128 := by
  constructor
  · intro h
    have hown := h c.1
    rwa [creditedTo_cons, creditedTo_nil, if_pos rfl] at hown
  · intro h a
    rw [creditedTo_cons, creditedTo_nil]
    split
    · rename_i heq
      exact heq ▸ h
    · exact (s.getBalance a).raw.isLt

theorem roomFor_of_zero (h : amount.raw = 0) : s.RoomFor [(payee, amount)] := by
  refine roomFor_singleton_iff.2 ?_
  rw [h]
  exact isLt _

theorem creditAll_nonzero_of_zero (s : StateDB) (h : amount.raw = 0) :
    s.creditAll (nonzeroCredits [(payee, amount)]) = s := by
  have hnil : nonzeroCredits [(payee, amount)] = [] := nonzeroCredits_eq_nil fun c hc => by
      rw [mem_singleton.1 hc]
      exact h
  rw [hnil]
  rfl

/-- A credit that is made if there is something to pay. -/
theorem returns_creditIfAny_iff {g : StateError → ExecutionError} {k : Unit → ExecM α} {x : α} :
    (if amount.isZero then k () else (addBalance payee amount).mapError g >>= k).run s =
      some (.ok x, t) ↔
      s.RoomFor [(payee, amount)] ∧ (k ()).run (s.creditAll (nonzeroCredits [(payee, amount)])) =
        some (.ok x, t) := by
  by_cases hzero : amount.isZero = true
  · have hraw : amount.raw = 0 := beq_iff_eq.1 hzero
    rw [if_pos hzero, creditAll_nonzero_of_zero s hraw]
    exact ⟨fun h => ⟨roomFor_of_zero hraw, h⟩, fun h => h.2⟩
  · have hpos : 0 < amount.raw := lt_def.2
      (Nat.pos_of_ne_zero fun hnone => hzero (beq_iff_eq.2 (eq_of_toNat_eq hnone)))
    have hone : nonzeroCredits [(payee, amount)] = [(payee, amount)] :=
      filter_cons_of_pos (by exact decide_eq_true hpos)
    rw [if_neg hzero, hone, roomFor_singleton_iff, returns_bind_iff]
    constructor
    · rintro ⟨_, _, hadd, h⟩
      obtain ⟨hfits, rfl⟩ := returns_addBalance_iff.1 (returns_mapError_iff.1 hadd)
      exact ⟨hfits, h⟩
    · rintro ⟨hfits, h⟩
      exact ⟨(), _, returns_mapError_iff.2 (returns_addBalance_iff.2 ⟨hfits, rfl⟩), h⟩

/-- One holder is paid if there is room in the balance and in the count. -/
theorem returns_payShare_iff {holder : OwnershipRecord} :
    (∃ count, (payShare totalAmount totalSupply paid holder).run s =
        some (.ok (distributed, count), t)) ↔
      s.RoomFor (shares totalAmount totalSupply [holder]) ∧
        distributed.raw.toNat =
          paid.1.raw.toNat + sumCredits (shares totalAmount totalSupply [holder]) ∧
        t = s.creditAll (nonzeroCredits (shares totalAmount totalSupply [holder])) := by
  unfold payShare
  dsimp only
  split
  · rename_i hpos
    have hone : nonzeroCredits (shares totalAmount totalSupply [holder]) =
        shares totalAmount totalSupply [holder] :=
      filter_cons_of_pos (by exact decide_eq_true hpos)
    rw [hone]
    constructor
    · rintro ⟨count, h⟩
      obtain ⟨_, _, hadd, h⟩ := run_bind_ok h
      obtain ⟨hfits, rfl⟩ := returns_addBalance_iff.1 (returns_mapError_iff.1 hadd)
      obtain ⟨_, hsum, h⟩ := ok_of_unwrap h
      obtain ⟨heq, rfl⟩ := ok_of_pure h
      cases heq
      exact ⟨roomFor_singleton_iff.2 hfits, toNat_checkedAdd hsum, rfl⟩
    · rintro ⟨hroom, hsum, rfl⟩
      have hadd := returns_mapError_iff (g := ExecutionError.state).2
        (returns_addBalance_iff (x := ()).2 ⟨roomFor_singleton_iff.1 hroom, rfl⟩)
      refine ⟨paid.2 + 1,
        returns_bind_iff.2 ⟨(), _, hadd, returns_unwrap_iff.2 ⟨distributed, ?_, rfl⟩⟩⟩
      exact checkedAdd_eq_some_iff.2 hsum
  · rename_i hzero
    have hnone : (dueShare totalAmount totalSupply holder).raw.toNat = 0 :=
      Nat.eq_zero_of_not_pos fun hpos => hzero (lt_def.2 hpos)
    have hnil : nonzeroCredits (shares totalAmount totalSupply [holder]) = [] :=
      filter_cons_of_neg (by exact fun h => hzero (of_decide_eq_true h))
    have hsum : sumCredits (shares totalAmount totalSupply [holder]) = 0 := hnone
    rw [hnil, hsum, Nat.add_zero]
    constructor
    · rintro ⟨_, h⟩
      obtain ⟨heq, rfl⟩ := ok_of_pure h
      obtain rfl := congrArg Prod.fst heq
      exact ⟨roomFor_of_zero (eq_of_toNat_eq hnone), rfl, rfl⟩
    · rintro ⟨-, hsum, rfl⟩
      obtain rfl : distributed = paid.1 := congrArg Amount.mk (eq_of_toNat_eq hsum)
      exact ⟨paid.2, rfl⟩

/-- The holders are paid if there is room in the balances and in the count. -/
theorem returns_payShares_iff {holders : List OwnershipRecord} :
    (∃ count, (foldEach holders paid (payShare totalAmount totalSupply)).run s =
      some (.ok (distributed, count), t)) ↔
      s.RoomFor (shares totalAmount totalSupply holders) ∧
        distributed.raw.toNat =
          paid.1.raw.toNat + sumCredits (shares totalAmount totalSupply holders) ∧
        t = s.creditAll (nonzeroCredits (shares totalAmount totalSupply holders)) := by
  induction holders generalizing s paid with
  | nil =>
    constructor
    · rintro ⟨count, h⟩
      obtain ⟨heq, rfl⟩ := ok_of_pure h
      obtain rfl := congrArg Prod.fst heq
      exact ⟨fun a => (s.getBalance a).raw.isLt, rfl, rfl⟩
    · rintro ⟨-, hsum, rfl⟩
      obtain rfl : distributed = paid.1 := congrArg Amount.mk (eq_of_toNat_eq hsum)
      exact ⟨paid.2, rfl⟩
  | cons holder rest ih =>
    have hsplit : shares totalAmount totalSupply (holder :: rest) =
        shares totalAmount totalSupply [holder] ++ shares totalAmount totalSupply rest := rfl
    rw [hsplit, sumCredits_append, roomFor_append_iff, creditAll_nonzeroCredits_append]
    constructor
    · rintro ⟨count, h⟩
      obtain ⟨⟨sum, counted⟩, _, hfirst, hrest⟩ := run_bind_ok h
      obtain ⟨hroom, hsum, rfl⟩ := returns_payShare_iff.1 ⟨counted, hfirst⟩
      obtain ⟨hroom', hsum', rfl⟩ := ih.1 ⟨count, hrest⟩
      refine ⟨⟨hroom, hroom'⟩, ?_, rfl⟩
      rw [hsum', hsum, Nat.add_assoc]
    · rintro ⟨⟨hroom, hroom'⟩, hsum, rfl⟩
      have hlt : paid.1.raw.toNat + sumCredits (shares totalAmount totalSupply [holder]) <
          2 ^ 128 := by
        have := distributed.raw.isLt
        omega
      obtain ⟨sum, hfirstSum⟩ : ∃ sum : Amount, sum.raw.toNat =
          paid.1.raw.toNat + sumCredits (shares totalAmount totalSupply [holder]) :=
        ⟨⟨BitVec.ofNat 128 _⟩, Nat.mod_eq_of_lt hlt⟩
      obtain ⟨counted, hfirst⟩ := returns_payShare_iff.2 ⟨hroom, hfirstSum, rfl⟩
      have hrestSum : distributed.raw.toNat = (sum, counted).1.raw.toNat +
          sumCredits (shares totalAmount totalSupply rest) := by
        rw [hsum, hfirstSum, Nat.add_assoc]
      obtain ⟨count, hrest⟩ := ih.2 ⟨hroom', hrestSum, rfl⟩
      exact ⟨count, returns_bind_iff.2 ⟨_, _, hfirst, hrest⟩⟩

end Payments

/-! ## A distribution -/

section Distribution

variable {s t : StateDB} {payer : Address} {assetId : H256} {totalAmount : Amount}

/-- The holders of an asset that have some of it available. -/
def holdersOf (s : StateDB) (assetId : H256) : List OwnershipRecord :=
  (s.ownershipForAsset assetId).filter fun r => !r.available.isZero

/-- What goes back to the payer. -/
def remainder (totalAmount : Amount) (credits : List (Address × Amount)) : Amount :=
  ⟨BitVec.ofNat 128 (totalAmount.raw.toNat - sumCredits credits)⟩

/-- All credits of a distribution. -/
def revenueCredits (s : StateDB) (payer : Address) (assetId : H256)
    (totalAmount totalSupply : Amount) :
    List (Address × Amount) :=
  let paid := shares totalAmount totalSupply (holdersOf s assetId)
  paid ++ [(payer, remainder totalAmount paid)]

/-- What a distribution needs of the payer, the asset and its holders. -/
structure Distributable (s : StateDB) (payer : Address) (assetId : H256) (totalAmount : Amount)
    (asset : AssetRecord) : Prop where
  found : s.getAsset assetId = some asset
  amount : totalAmount.raw ≠ 0
  issuer : asset.issuer = payer
  supply : asset.totalSupply.raw ≠ 0
  holders : holdersOf s assetId ≠ []
  balance : totalAmount.raw.toNat ≤ (s.getBalance payer).raw.toNat
  counted : sumCredits (shares totalAmount asset.totalSupply (holdersOf s assetId)) < 2 ^ 128
  room : (s.debited payer totalAmount).RoomFor
    (revenueCredits s payer assetId totalAmount asset.totalSupply)

/-- A distribution that has what it needs, and the state after it. -/
structure Distributed (s : StateDB) (payer : Address) (assetId : H256) (totalAmount : Amount)
    (asset : AssetRecord) (t : StateDB) :
    Prop extends Distributable s payer assetId totalAmount asset where
  after : t = (s.debited payer totalAmount).creditAll
    (nonzeroCredits (revenueCredits s payer assetId totalAmount asset.totalSupply))

theorem toNat_remainder (totalAmount : Amount) (credits : List (Address × Amount)) :
    (remainder totalAmount credits).raw.toNat = totalAmount.raw.toNat - sumCredits credits :=
  Nat.mod_eq_of_lt (Nat.lt_of_le_of_lt (Nat.sub_le ..) totalAmount.raw.isLt)

/-- The last payment of a distribution. -/
theorem returns_refund_iff (hsum : distributed.raw.toNat = sumCredits credits)
    {u v : StateDB} {x y : α} :
    (match totalAmount.checkedSub distributed with
      | none => pure y
      | some rest =>
        if rest.isZero then pure y
        else do
          onState (addBalance payer rest)
          pure y : ExecM α).run u = some (.ok x, v) ↔
      x = y ∧ u.RoomFor [(payer, remainder totalAmount credits)] ∧
        v = u.creditAll (nonzeroCredits [(payer, remainder totalAmount credits)]) := by
  have hrest := toNat_remainder totalAmount credits
  cases hsub : totalAmount.checkedSub distributed with
  | none =>
    have hlt : ¬ distributed.raw.toNat ≤ totalAmount.raw.toNat := fun hle => by
      rw [checkedSub, U128.checkedSub, if_pos hle] at hsub
      cases hsub
    have hzero : (remainder totalAmount credits).raw = 0 := eq_of_toNat_eq (show _ = 0 by omega)
    rw [creditAll_nonzero_of_zero _ hzero]
    exact returns_pure_iff.trans ⟨fun h => ⟨h.1, roomFor_of_zero hzero, h.2⟩, fun h => ⟨h.1, h.2.2⟩⟩
  | some rest =>
    have hle := toNat_checkedSub hsub
    have heq : rest = remainder totalAmount credits :=
      congrArg Amount.mk (eq_of_toNat_eq (show _ = (remainder totalAmount credits).raw.toNat by
        omega))
    subst heq
    refine (returns_creditIfAny_iff (k := fun _ => pure y)).trans ?_
    rw [returns_pure_iff]
    exact ⟨fun h => ⟨h.2.1, h.1, h.2.2⟩, fun h => ⟨h.2.1, h.1, h.2.2⟩⟩

theorem isZero_eq_false_iff {amount : Amount} : (!amount.isZero) = true ↔
    amount.raw ≠ 0 := by simp [isZero]

theorem isEmpty_eq_false_iff {xs : List α} : (!xs.isEmpty) = true ↔ xs ≠ [] := by simp

theorem returns_cachedAsset_iff {e : ExecutionError} {f : AssetRecord → ExecM α} {x : α} :
    (cachedAsset assetId e >>= f).run s = some (.ok x, t) ↔
      ∃ asset, s.getAsset assetId = some asset ∧ (f asset).run s = some (.ok x, t) :=
  returns_okOr_iff

/-- A distribution succeeds exactly if it has what it needs. -/
theorem returns_distributeRevenue_iff [Crypto] :
    (∃ logs, (executeDistributeRevenue payer assetId totalAmount).run s = some (.ok logs, t)) ↔
      ∃ asset, Distributed s payer assetId totalAmount asset t := by
  unfold executeDistributeRevenue
  simp only [returns_require_iff, returns_cachedAsset_iff]
  constructor
  · rintro ⟨_, hamount, asset, hfound, hissuer, hsupply, h⟩
    rw [Db.ownershipForAsset, run_view_bind, returns_require_iff] at h
    obtain ⟨hholders, h⟩ := h
    obtain ⟨_, _, hdebit, h⟩ := run_bind_ok h
    obtain ⟨hbalance, rfl⟩ := returns_subBalance_iff.1 (returns_mapError_iff.1 hdebit)
    obtain ⟨⟨distributed, count⟩, _, hpaid, h⟩ := run_bind_ok h
    obtain ⟨hroom, hsum, rfl⟩ := returns_payShares_iff.1 ⟨count, hpaid⟩
    obtain ⟨-, hroom', rfl⟩ := (returns_refund_iff (hsum.trans (Nat.zero_add _))).1 h
    refine ⟨asset,
      ⟨hfound, ?_, hissuer, ?_, ?_, hbalance, ?_, (roomFor_append_iff ..).2 ⟨hroom, hroom'⟩⟩, ?_⟩
    · exact isZero_eq_false_iff.1 hamount
    · exact isZero_eq_false_iff.1 hsupply
    · exact isEmpty_eq_false_iff.1 hholders
    · exact (hsum.trans (Nat.zero_add _)) ▸ distributed.raw.isLt
    · exact (creditAll_nonzeroCredits_append ..).symm
  · rintro ⟨asset, ⟨hfound, hamount, hissuer, hsupply, hholders, hbalance, hcounted, hroom⟩, rfl⟩
    obtain ⟨hroom, hroom'⟩ := (roomFor_append_iff ..).1 hroom
    obtain ⟨distributed, hsum⟩ : ∃ sum : Amount, sum.raw.toNat =
        sumCredits (shares totalAmount asset.totalSupply (holdersOf s assetId)) :=
      ⟨⟨BitVec.ofNat 128 _⟩, Nat.mod_eq_of_lt hcounted⟩
    have hstart : distributed.raw.toNat = ((zero, 0) : Amount × UInt64).1.raw.toNat +
        sumCredits (shares totalAmount asset.totalSupply (holdersOf s assetId)) :=
        hsum.trans (Nat.zero_add _).symm
    obtain ⟨count, hpaid⟩ := returns_payShares_iff.2 ⟨hroom, hstart, rfl⟩
    refine ⟨[event payer "DistributeRevenue" [assetId] (Borsh.serialize (payer, assetId,
      totalAmount.raw, count))], isZero_eq_false_iff.2 hamount, asset, hfound, hissuer,
      isZero_eq_false_iff.2 hsupply, ?_⟩
    rw [Db.ownershipForAsset, run_view_bind, returns_require_iff]
    have hdebit : (onState (subBalance payer totalAmount)).run s =
        some (.ok (), s.debited payer totalAmount) :=
      returns_mapError_iff.2 (returns_subBalance_iff.2 ⟨hbalance, rfl⟩)
    refine ⟨isEmpty_eq_false_iff.2 hholders, returns_bind_iff.2 ⟨(), _, hdebit, ?_⟩⟩
    refine returns_bind_iff.2 ⟨_, _, hpaid, ?_⟩
    exact (returns_refund_iff hsum).2 ⟨rfl, hroom', creditAll_nonzeroCredits_append ..⟩

/-! ## Conservation -/

/-- What holders have available of an asset. -/
def availableOf (s : StateDB) (assetId : H256) : ℕ :=
  ((s.ownershipForAsset assetId).map fun r => r.available.raw.toNat).sum

/-- The shares of all holders are no more than the amount. -/
theorem sum_shares_le (totalAmount : Amount) (hsupply : asset.totalSupply.raw ≠ 0)
    (havailable : availableOf s assetId ≤ asset.totalSupply.raw.toNat) :
    sumCredits (shares totalAmount asset.totalSupply (holdersOf s assetId)) ≤
      totalAmount.raw.toNat := by
  have hpos : 0 < asset.totalSupply.raw.toNat :=
    Nat.pos_of_ne_zero fun hzero => hsupply (eq_of_toNat_eq hzero)
  have hholders : ((holdersOf s assetId).map fun r => r.available.raw.toNat).sum ≤
      availableOf s assetId :=
    (filter_sublist.map _).sum_le_sum fun _ _ => Nat.zero_le _
  have heach : sumCredits (shares totalAmount asset.totalSupply (holdersOf s assetId)) ≤
      ((holdersOf s assetId).map fun r =>
        r.available.raw.toNat * totalAmount.raw.toNat / asset.totalSupply.raw.toNat).sum := by
    rw [sumCredits, shares, map_map]
    exact sum_le_sum fun r _ => mulDiv_le _ _ hsupply
  calc
    _ ≤ _ := heach
    _ ≤ ((holdersOf s assetId).map fun r => r.available.raw.toNat).sum * totalAmount.raw.toNat /
          asset.totalSupply.raw.toNat := sum_div_le _ _ _ _
    _ ≤ asset.totalSupply.raw.toNat * totalAmount.raw.toNat / asset.totalSupply.raw.toNat :=
        Nat.div_le_div_right (Nat.mul_le_mul_right _ (hholders.trans havailable))
    _ = totalAmount.raw.toNat := Nat.mul_div_cancel_left _ hpos

/-- Balances move from the payer to others. -/
structure Conserved (payer : Address) (totalAmount : Amount) (s t : StateDB) : Prop where
  total : t.totalBalance = s.totalBalance
  others : ∀ a, a ≠ payer → (s.getBalance a).raw.toNat ≤ (t.getBalance a).raw.toNat
  payer : (s.getBalance payer).raw.toNat ≤ (t.getBalance payer).raw.toNat + totalAmount.raw.toNat

theorem Distributed.conserved (h : Distributed s payer assetId totalAmount asset t)
    (havailable : availableOf s assetId ≤ asset.totalSupply.raw.toNat) :
    Conserved payer totalAmount s t := by
  have hle := sum_shares_le totalAmount h.supply havailable
  have hsum : sumCredits (revenueCredits s payer assetId totalAmount asset.totalSupply) =
      totalAmount.raw.toNat := by
    rw [revenueCredits, sumCredits_append]
    show _ + ((remainder _ _).raw.toNat + 0) = _
    rw [toNat_remainder]
    omega
  have hbalance (a : Address) := h.room.getBalance a
  rw [← h.after] at hbalance
  have hdebited := getBalance_debited h.balance
  refine ⟨?_, fun a hne => ?_, ?_⟩
  · rw [totalBalance_of_credits hbalance]
    exact (congrArg _ hsum).trans (totalBalance_debited h.balance)
  · have hsame := hdebited a
    rw [if_neg (Ne.symm hne)] at hsame
    have := hbalance a
    omega
  · have hless := hdebited payer
    rw [if_pos rfl] at hless
    have := hbalance payer
    omega

end Distribution

/-! ## Closing a proposal -/

section Closing

variable {s t : StateDB} {id : H256} {block : UInt64}

theorem returns_setAssetProposalStatus_iff {f : Unit → ExecM α} {x : α} :
    (setAssetProposalStatus id status >>= f).run s = some (.ok x, t) ↔
      ∃ p, s.getAssetProposal id = some p ∧
        (f ()).run (s.setCachedAssetProposal id { p with status }) = some (.ok x, t) := by
  rw [returns_bind_iff]
  constructor
  · rintro ⟨_, _, hset, h⟩
    obtain ⟨p, hp, hset⟩ := ok_of_okOr (o := s.getAssetProposal id) hset
    obtain rfl := congrArg Prod.snd (Option.some.inj hset)
    exact ⟨p, hp, h⟩
  · rintro ⟨p, hp, h⟩
    refine ⟨(), _, ?_, h⟩
    exact (returns_okOr_iff (o := s.getAssetProposal id)).2 ⟨p, hp, rfl⟩

theorem getAssetProposal_setCached (p : AssetProposal) :
    (s.setCachedAssetProposal id p).getAssetProposal id = some p :=
  Std.ExtTreeMap.getElem?_insert_self

/-- The last steps of closing a proposal. -/
theorem returns_close_iff {logs : AssetProposal → List Log} {missing : ExecutionError} : (∃ x, (do
      setAssetProposalStatus id status
      let final ← getAssetProposal id
      let final ← Confined.okOr final missing
      pure (logs final) : ExecM (List Log)).run s = some (.ok x, t)) ↔
      ∃ p, s.getAssetProposal id = some p ∧ t = s.setCachedAssetProposal id { p with status } := by
  simp only [returns_setAssetProposalStatus_iff]
  constructor
  · rintro ⟨_, p, hp, h⟩
    obtain ⟨_, -, h⟩ := ok_of_okOr (o := (s.setCachedAssetProposal id _).getAssetProposal id) h
    obtain ⟨-, rfl⟩ := ok_of_pure h
    exact ⟨p, hp, rfl⟩
  · rintro ⟨p, hp, rfl⟩
    refine ⟨logs { p with status }, p, hp, ?_⟩
    exact (returns_okOr_iff (o := (s.setCachedAssetProposal id _).getAssetProposal id)).2
      ⟨_, getAssetProposal_setCached .., rfl⟩

theorem returns_activeAssetProposal_iff {f : AssetProposal → ExecM α} {x : α} :
    (activeAssetProposal id >>= f).run s = some (.ok x, t) ↔
      ∃ p, s.getAssetProposal id = some p ∧ p.status = .active ∧ (f p).run s = some (.ok x, t) := by
  rw [returns_bind_iff]
  constructor
  · rintro ⟨p, _, hactive, h⟩
    obtain ⟨p', hp, hactive⟩ := ok_of_okOr (o := s.getAssetProposal id) hactive
    obtain ⟨hstatus, hactive⟩ := ok_of_require hactive
    obtain ⟨rfl, rfl⟩ := ok_of_pure hactive
    exact ⟨p', hp, hstatus, h⟩
  · rintro ⟨p, hp, hstatus, h⟩
    refine ⟨p, s, ?_, h⟩
    exact (returns_okOr_iff (o := s.getAssetProposal id)).2 ⟨p, hp,
      returns_require_iff.2 ⟨hstatus, rfl⟩⟩

/-- A proposal whose vote has ended is closed exactly if its action can be carried out or it did not
pass. -/
theorem returns_finalizeAssetProposal_iff [Crypto] {sender : Address} :
    (∃ logs, (executeFinalizeAssetProposal sender id block).run s = some (.ok logs, t)) ↔
      ∃ p, s.getAssetProposal id = some p ∧ p.status = .active ∧ p.isVotingEnded block = true ∧
        ∃ asset, s.getAsset p.assetId = some asset ∧ ∃ quorum,
        p.hasQuorum asset.totalSupply = some quorum ∧
          if quorum && assetProposalPasses p then
            ∃ u p', (runAssetAction p).run s = some (.ok (), u) ∧ u.getAssetProposal id = some p' ∧
              t = u.setCachedAssetProposal id { p' with status := .executed }
          else t = s.setCachedAssetProposal id { p with status := .rejected } := by
  unfold executeFinalizeAssetProposal
  simp only [returns_activeAssetProposal_iff, returns_require_iff, returns_cachedAsset_iff,
    returns_unwrap_iff]
  constructor
  · rintro ⟨logs, p, hp, hactive, hended, asset, hasset, quorum, hquorum, h⟩
    refine ⟨p, hp, hactive, hended, asset, hasset, quorum, hquorum, ?_⟩
    split at h
    · rename_i hpass
      rw [if_pos hpass]
      obtain ⟨_, u, hcarried, h⟩ := run_bind_ok h
      obtain ⟨p', hp', rfl⟩ := returns_close_iff.1 ⟨logs, h⟩
      exact ⟨u, p', hcarried, hp', rfl⟩
    · rename_i hfails
      rw [if_neg hfails]
      obtain ⟨p', hp', rfl⟩ := returns_close_iff.1 ⟨logs, h⟩
      obtain rfl := Option.some.inj (hp.symm.trans hp')
      rfl
  · rintro ⟨p, hp, hactive, hended, asset, hasset, quorum, hquorum, h⟩
    by_cases hpass : (quorum && assetProposalPasses p) = true
    · rw [if_pos hpass] at h
      obtain ⟨u, p', hcarried, hp', rfl⟩ := h
      obtain ⟨logs, hclose⟩ := returns_close_iff.2 ⟨p', hp', rfl⟩
      refine ⟨logs, p, hp, hactive, hended, asset, hasset, quorum, hquorum, ?_⟩
      rw [if_pos hpass]
      exact returns_bind_iff.2 ⟨(), u, hcarried, hclose⟩
    · rw [if_neg hpass] at h
      obtain ⟨logs, hclose⟩ := returns_close_iff.2 ⟨p, hp, h⟩
      refine ⟨logs, p, hp, hactive, hended, asset, hasset, quorum, hquorum, ?_⟩
      rw [if_neg hpass]
      exact hclose

/-- An action distributes revenue of an asset, or closes a proposal to do so. -/
inductive Pays (s : StateDB) (sender : Address) : TransactionAction → Address → H256 →
    Amount → Prop where
  | direct (assetId : H256) (totalAmount : Amount) :
      Pays s sender (.distributeRevenue assetId totalAmount) sender assetId totalAmount
  | proposed {id : H256} {p : AssetProposal} {totalAmount : Amount}
      (found : s.getAssetProposal id = some p)
      (action : p.action = .distributeRevenue totalAmount) :
      Pays s sender (.finalizeAssetProposal id) p.proposer p.assetId totalAmount

/-- Balances that are as they were go on being conserved. -/
theorem Conserved.of_sameBalance {payer : Address} {totalAmount : Amount} {u : StateDB}
    (h : Conserved payer totalAmount s t) (hsame : ∀ a, u.getBalance a = t.getBalance a) :
    Conserved payer totalAmount s u := by
  refine ⟨?_, fun a hne => ?_, ?_⟩
  · rw [← h.total, totalBalance, totalBalance]
    exact Finset.sum_congr rfl fun a _ => by rw [hsame a]
  · rw [hsame a]
    exact h.others a hne
  · rw [hsame payer]
    exact h.payer

theorem Conserved.refl (payer : Address) (totalAmount : Amount) (s : StateDB) :
    Conserved payer totalAmount s s :=
  ⟨rfl, fun _ _ => Nat.le_refl _, Nat.le_add_right ..⟩

/-- A distribution of revenue moves VTT from the payer to others: the sum of all balances stays, no
balance falls but that of the payer, and the payer loses at most the amount. -/
theorem revenue_conserved [Crypto] [Wasm] [Environment] {ctx : BlockContext}
    {tx : SignedTransaction} {logs : List Log} {payer : Address} {assetId : H256}
    {totalAmount : Amount} (h : (operation ctx tx).run s = some (.ok logs, t))
    (hpays : Pays s tx.sender tx.payload.action payer assetId totalAmount)
    (havailable : ∀ asset, s.getAsset assetId = some asset →
      availableOf s assetId ≤ asset.totalSupply.raw.toNat) :
    Conserved payer totalAmount s t := by
  unfold operation at h
  generalize tx.payload.action = action at h hpays
  cases hpays with
  | direct =>
    obtain ⟨asset, distributed⟩ := returns_distributeRevenue_iff.1 ⟨logs, h⟩
    exact distributed.conserved (havailable asset distributed.found)
  | @proposed _ _ _ hfound haction =>
    obtain ⟨p', hp', -, -, asset, _, _, -, h⟩ := returns_finalizeAssetProposal_iff.1 ⟨logs, h⟩
    obtain rfl := Option.some.inj (hfound.symm.trans hp')
    split at h
    · -- the proposal passed
      obtain ⟨_, _, hcarried, -, rfl⟩ := h
      unfold runAssetAction at hcarried
      rw [haction] at hcarried
      obtain ⟨logs', hdistributed, -⟩ := ok_of_last hcarried
      obtain ⟨asset, distributed⟩ := returns_distributeRevenue_iff.1 ⟨logs', hdistributed⟩
      exact (distributed.conserved (havailable asset distributed.found)).of_sameBalance fun _ => rfl
    · subst h
      exact (Conserved.refl _ _ s).of_sameBalance fun _ => rfl

end Closing

end Executor

/-! ## On a small state -/

namespace Demo

open Executor Confined

/-- What is available of the asset is no more than its supply. -/
def isCovered (db : StateDB) : Bool :=
  (db.getAsset estate).all fun asset => availableOf db estate ≤ asset.totalSupply.raw.toNat

/-- An asset of which the stranger has four hundred and one of a thousand tokens. -/
def sharedEstate : List (BlockContext × SignedTransaction) :=
  disposal.take 1 ++ [(context, numbered 1 (.assetTransfer estate stranger.address ⟨401⟩))]

/-- The issuer of the asset pays a hundred and one units to its holders; the share of the stranger
is rounded. -/
theorem estate_revenue_conserved : ∃ s t logs,
    (operation context (numbered 2 (.distributeRevenue estate ⟨101⟩))).run s = some (.ok logs, t) ∧
      (t.getBalance stranger.address).raw = (s.getBalance stranger.address).raw + 40 ∧
      Conserved key.address ⟨101⟩ s t := by
  obtain ⟨s, -, hcheck⟩ := exists_successes sharedEstate funded
    (fun s => isCovered s &&
      ((operation context (numbered 2 (.distributeRevenue estate ⟨101⟩))).run s).any fun result =>
      result.1.isOk && (result.2.getBalance stranger.address).raw =
        (s.getBalance stranger.address).raw + 40)
    (by decide +kernel)
  obtain ⟨hcovered, hrest⟩ := Bool.and_eq_true_iff.1 hcheck
  obtain ⟨logs, t, hrun, hshare⟩ := exists_returns _ s
    (fun t => (t.getBalance stranger.address).raw = (s.getBalance stranger.address).raw + 40) hrest
  refine ⟨s, t, logs, hrun, of_decide_eq_true hshare,
    revenue_conserved hrun (.direct estate ⟨101⟩) fun asset hasset => ?_⟩
  rw [isCovered, hasset] at hcovered
  exact of_decide_eq_true hcovered

end Demo

end Vtt
