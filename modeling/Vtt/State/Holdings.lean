import Vtt.Lib.Success
import Vtt.Lib.Sums
import Vtt.State.Mutation

/-!
# Holdings of assets

Who holds how much of which asset, as a map of ownership records. Every change of it is a list of
flows: a flow adds to what an owner has available, or takes from what an owner has available and
locked.
-/

namespace Vtt

open Lib List Amount Option OwnershipRecord
open Option (map_eq_some_iff bind_eq_some_iff)

theorem Amount.checkedSub_zero (a : Amount) : a.checkedSub .zero = some a := by
  have positive : (0 : U128).toNat ≤ a.raw.toNat := Nat.zero_le _
  exact congrArg (some ∘ mk) (BitVec.sub_zero a.raw)

/-- Available and locked together, as a number. -/
def OwnershipRecord.held (r : OwnershipRecord) : ℕ := r.available.raw.toNat + r.locked.raw.toNat

/-- The ownership records by asset and owner. -/
abbrev Holdings := FinMap (H256 × Address) OwnershipRecord

namespace Holdings

variable {k : H256 × Address} {r : OwnershipRecord}

/-- The record of an owner; an owner without one has an empty record. -/
def recordOf (m : Holdings) (k : H256 × Address) : OwnershipRecord := (m[k]?).getD (.new k.1 k.2)

/-- What an owner holds of an asset, available or locked. -/
def held (m : Holdings) (k : H256 × Address) : ℕ := (m.recordOf k).held

/-- What an owner has available of an asset. -/
def available (m : Holdings) (k : H256 × Address) : ℕ := (m.recordOf k).available.raw.toNat

/-- What all owners hold of an asset together. -/
def supply (m : Holdings) (assetId : H256) : ℕ :=
  sumOver m fun k r => if k.1 = assetId then r.held else 0

/-- The number of owners who hold something of an asset. -/
def owners (m : Holdings) (assetId : H256) : ℕ :=
  sumOver m fun k r => if k.1 = assetId ∧ r.held ≠ 0 then 1 else 0

/-- Every record is kept under its own asset and owner. -/
def Keyed (m : Holdings) : Prop :=
  ∀ (k : H256 × Address) (r : OwnershipRecord), m[k]? = some r → (r.assetId, r.owner) = k

theorem keyed_empty : Keyed ∅ := by
  intro _ _ h
  cases h

theorem Keyed.recordOf {m : Holdings} (h : m.Keyed) (k : H256 × Address) :
    ((m.recordOf k).assetId, (m.recordOf k).owner) = k := by
  unfold Holdings.recordOf
  cases hk : m[k]? with
  | none => rfl
  | some r => exact h k r hk

theorem Keyed.insert {m : Holdings} (h : m.Keyed) (hr : (r.assetId, r.owner) = k) :
    Keyed (m.insert k r) := by
  intro k' r' hget
  rw [get_insert] at hget
  split at hget
  · rename_i hk
    cases hget
    exact hr.trans hk
  · exact h k' r' hget

theorem recordOf_insert (m : Holdings) (k' : H256 × Address) :
    recordOf (m.insert k r) k' = if k = k' then r else m.recordOf k' := by
  unfold recordOf
  rw [get_insert]
  split
  · rfl
  · rfl

/-- A sum over the records after one record was set, for a summand that an empty record has nothing
of. -/
theorem sumOver_insert_record (m : Holdings) (k : H256 × Address) (r : OwnershipRecord)
    (f : H256 × Address → OwnershipRecord → ℕ) (hempty : f k (.new k.1 k.2) = 0) :
    sumOver (m.insert k r) f + f k (m.recordOf k) = sumOver m f + f k r := by
  have change := sumOver_insert_add m k r f
  unfold recordOf
  cases hk : m[k]? with
  | none =>
    rw [hk, elim_none] at change
    rw [getD_none, hempty]
    exact change
  | some =>
    rw [hk, elim_some] at change
    exact change

end Holdings

/-! ## Flows -/

/-- A change of what an owner holds of an asset. -/
inductive Flow where
  | credit (key : H256 × Address) (amount : Amount)
  | debit (key : H256 × Address) (available locked : Amount)
deriving DecidableEq

namespace Flow

variable {k : H256 × Address} {amount : Amount}

/-- The asset and the owner. -/
def key : Flow → H256 × Address
  | credit key _ => key
  | debit key _ _ => key

/-- What a flow does to a record. -/
def change : Flow → OwnershipRecord → Option OwnershipRecord
  | credit _ amount, r => r.credit amount
  | debit _ available locked, r =>
    (r.debit available).bind fun r => (r.locked.checkedSub locked).map fun locked =>
      { r with locked }

/-- What a flow does to the holdings. -/
def run (m : Holdings) (f : Flow) : Option Holdings :=
  (f.change (m.recordOf f.key)).map (m.insert f.key ·)

/-- What a flow adds to the holdings of an owner. -/
def gain (k : H256 × Address) : Flow → ℕ
  | credit key amount => if key = k then amount.raw.toNat else 0
  | debit _ _ _ => 0

/-- What a flow takes of what an owner has available. -/
def taken (k : H256 × Address) : Flow → ℕ
  | credit _ _ => 0
  | debit key available _ => if key = k then available.raw.toNat else 0

/-- What a flow takes of the holdings of an owner. -/
def loss (k : H256 × Address) : Flow → ℕ
  | credit _ _ => 0
  | debit key available locked =>
    if key = k then available.raw.toNat + locked.raw.toNat else 0

/-- What a flow adds to an asset. -/
def minted (assetId : H256) : Flow → ℕ
  | credit key amount => if key.1 = assetId then amount.raw.toNat else 0
  | debit _ _ _ => 0

/-- What a flow takes from an asset. -/
def burned (assetId : H256) : Flow → ℕ
  | credit _ _ => 0
  | debit key available locked =>
    if key.1 = assetId then available.raw.toNat + locked.raw.toNat else 0

section Run

variable {m m' : Holdings} {f : Flow}

/-- A record that is credited or debited stays the record of its asset and owner, with the amounts
moved. -/
theorem change_spec {r r' : OwnershipRecord} (h : f.change r = some r') :
    (r'.assetId, r'.owner) = (r.assetId, r.owner) ∧ r'.held + f.loss f.key = r.held + f.gain f.key ∧
      r'.available.raw.toNat + f.taken f.key = r.available.raw.toNat + f.gain f.key := by
  cases f with
  | credit =>
    obtain ⟨available, hadd, rfl⟩ := map_eq_some_iff.1 h
    have sum := toNat_checkedAdd hadd
    simp only [held, loss, gain, taken, Flow.key, if_true]
    exact ⟨trivial, by omega, by omega⟩
  | debit =>
    obtain ⟨_, hdebit, hrest⟩ := bind_eq_some_iff.1 h
    obtain ⟨_, hsub, rfl⟩ := map_eq_some_iff.1 hdebit
    obtain ⟨_, hsub', rfl⟩ := map_eq_some_iff.1 hrest
    have difference := toNat_checkedSub hsub
    have difference' := toNat_checkedSub hsub'
    dsimp only at difference'
    simp only [held, loss, gain, taken, Flow.key, if_true]
    exact ⟨trivial, by omega, by omega⟩

theorem gain_of_ne (h : f.key ≠ k) : f.gain k = 0 := by
  cases f with
  | credit => exact if_neg h
  | debit => rfl

theorem loss_of_ne (h : f.key ≠ k) : f.loss k = 0 := by
  cases f with
  | credit => rfl
  | debit => exact if_neg h

/-- A flow adds to its asset what it adds to its owner. -/
theorem minted_eq (f : Flow) (assetId : H256) :
    f.minted assetId = if f.key.1 = assetId then f.gain f.key else 0 := by
  cases f with
  | credit => simp [minted, gain, Flow.key]
  | debit => simp [minted, gain]

theorem burned_eq (f : Flow) (assetId : H256) :
    f.burned assetId = if f.key.1 = assetId then f.loss f.key else 0 := by
  cases f with
  | credit => simp [burned, loss]
  | debit => simp [burned, loss, Flow.key]

theorem keyed_of_run (h : f.run m = some m') (hkeyed : m.Keyed) : m'.Keyed := by
  obtain ⟨_, hchange, rfl⟩ := map_eq_some_iff.1 h
  exact hkeyed.insert ((change_spec hchange).1.trans (hkeyed.recordOf f.key))

theorem held_of_run (h : f.run m = some m') (k : H256 × Address) :
    m'.held k + f.loss k = m.held k + f.gain k := by
  obtain ⟨_, hchange, rfl⟩ := map_eq_some_iff.1 h
  rw [Holdings.held, Holdings.recordOf_insert]
  split
  · rename_i hk
    subst hk
    exact (change_spec hchange).2.1
  · rename_i hk
    rw [gain_of_ne hk, loss_of_ne hk]
    rfl

theorem supply_of_run (h : f.run m = some m') (assetId : H256) :
    m'.supply assetId + f.burned assetId = m.supply assetId + f.minted assetId := by
  obtain ⟨r, hchange, rfl⟩ := map_eq_some_iff.1 h
  have change :=
    Holdings.sumOver_insert_record m f.key r (fun k r => if k.1 = assetId then r.held
      else 0) (ite_self 0)
  have held := (change_spec hchange).2.1
  rw [minted_eq, burned_eq, Holdings.supply, Holdings.supply]
  split at change
  · rename_i hasset
    rw [if_pos hasset, if_pos hasset]
    omega
  · rename_i hasset
    rw [if_neg hasset, if_neg hasset]
    exact change

/-- The number of owners changes with the owner of the flow. -/
theorem owners_of_run (h : f.run m = some m') (assetId : H256) :
    m'.owners assetId + (if f.key.1 = assetId ∧ m.held f.key ≠ 0 then 1 else 0) =
      m.owners assetId + (if f.key.1 = assetId ∧ m'.held f.key ≠ 0 then 1 else 0) := by
  obtain ⟨r, _, rfl⟩ := map_eq_some_iff.1 h
  have new : Holdings.held (m.insert f.key r) f.key = r.held := by
    rw [Holdings.held, Holdings.recordOf_insert, if_pos rfl]
  rw [new]
  exact Holdings.sumOver_insert_record m f.key r
    (fun k r => if k.1 = assetId ∧ r.held ≠ 0 then 1 else 0) (if_neg fun h => h.2 rfl)

end Run

/-! ## Lists of flows -/

/-- What flows in turn do to the holdings. -/
def runAll (m : Holdings) (flows : List Flow) : Option Holdings := flows.foldlM run m

variable {m m' : Holdings} {flows flows' : List Flow} {assetId : H256} {key : H256 × Address}

theorem runAll_cons {f : Flow} (h : runAll m (f :: flows) = some m') :
    ∃ m₁, f.run m = some m₁ ∧ runAll m₁ flows = some m' := by
  exact bind_eq_some_iff.1 h

theorem runAll_append {first second : List Flow} {m₁ : Holdings} (h : runAll m first = some m₁)
    (h' : runAll m₁ second = some m') : runAll m (first ++ second) = some m' := by
  rw [runAll, foldlM_append]
  exact bind_eq_some_iff.2 ⟨m₁, h, h'⟩

theorem keyed_of_runAll (h : runAll m flows = some m') (hkeyed : m.Keyed) : m'.Keyed := by
  induction flows generalizing m with
  | nil => exact some.inj h ▸ hkeyed
  | cons _ _ ih =>
    obtain ⟨_, hf, hrest⟩ := runAll_cons h
    exact ih hrest (keyed_of_run hf hkeyed)

/-- A quantity of holdings that every flow changes by what it adds and takes is changed by a list of
flows by what they add and take together. -/
theorem sum_of_runAll (size : Holdings → ℕ) {plus minus : Flow → ℕ}
    (hstep : ∀ ⦃m f m'⦄, run m f = some m' → size m' + minus f = size m + plus f)
    (h : runAll m flows = some m') :
    size m' + (flows.map minus).sum = size m + (flows.map plus).sum := by
  induction flows generalizing m with
  | nil =>
    rw [← some.inj h]
    rfl
  | cons _ _ ih =>
    obtain ⟨_, hf, hrest⟩ := runAll_cons h
    have first := hstep hf
    have others := ih hrest
    simp only [map_cons, sum_cons]
    omega

theorem held_of_runAll (h : runAll m flows = some m') (k : H256 × Address) :
    m'.held k + (flows.map (loss k)).sum = m.held k + (flows.map (gain k)).sum :=
  sum_of_runAll (Holdings.held · k) (fun _ _ _ hf => held_of_run hf k) h

theorem supply_of_runAll (h : runAll m flows = some m') (assetId : H256) :
    m'.supply assetId + (flows.map (burned assetId)).sum =
      m.supply assetId + (flows.map (minted assetId)).sum :=
  sum_of_runAll (Holdings.supply · assetId) (fun _ _ _ hf => supply_of_run hf assetId) h

/-- Tokens that move from one owner to another. -/
def move (assetId : H256) (source dest : Address) (amount : Amount) : List Flow :=
  if amount.isZero then []
  else [.debit (assetId, source) amount .zero, .credit (assetId, dest) amount]

/-- What flows add to a holding. -/
def gains (flows : List Flow) (k : H256 × Address) : ℕ := (flows.map (gain k)).sum

/-- What flows take from a holding. -/
def losses (flows : List Flow) (k : H256 × Address) : ℕ := (flows.map (loss k)).sum

/-- Flows leave the supply of an asset as it is. -/
def Balanced (assetId : H256) (flows : List Flow) : Prop :=
  (flows.map (minted assetId)).sum = (flows.map (burned assetId)).sum

theorem Balanced.append (h : Balanced assetId flows) (h' : Balanced assetId flows') :
    Balanced assetId (flows ++ flows') := by
  unfold Balanced at *
  rw [map_append, sum_append, map_append, sum_append, h, h']

theorem balanced_nil (assetId : H256) : Balanced assetId [] := rfl

theorem balanced_move (assetId : H256) {token : H256} {source dest : Address} :
    Balanced assetId (move token source dest amount) := by
  unfold move Balanced
  split
  · rfl
  · simp [minted, burned, zero]

/-- The supply of an asset after flows that leave it alone and one that adds to it. -/
theorem supply_of_credit (hb : Balanced assetId flows)
    (h : runAll m (flows ++ [.credit key amount]) = some m') :
    m'.supply assetId = m.supply assetId + if key.1 = assetId then amount.raw.toNat else 0 := by
  have sum := supply_of_runAll h assetId
  simp only [map_append, sum_append, map_singleton, sum_singleton, minted, burned] at sum
  unfold Balanced at hb
  omega

/-- The supply of an asset after a flow that takes from it and flows that leave it alone. -/
theorem supply_of_debit {available locked : Amount} (hb : Balanced assetId flows)
    (h : runAll m (.debit key available locked :: flows) = some m') :
    m'.supply assetId + (if key.1 = assetId then available.raw.toNat + locked.raw.toNat else 0) =
      m.supply assetId := by
  have sum := supply_of_runAll h assetId
  simp only [map_cons, sum_cons, minted, burned] at sum
  unfold Balanced at hb
  omega

theorem supply_of_balanced (hb : Balanced assetId flows) (h : runAll m flows = some m') :
    m'.supply assetId = m.supply assetId := by
  have sum := supply_of_runAll h assetId
  unfold Balanced at hb
  omega

/-- What is counted of some flows concerns these owners only. -/
def Only (count : H256 × Address → Flow → ℕ) (owners : List Address) (flows : List Flow) : Prop :=
  ∀ f ∈ flows, ∀ k : H256 × Address, k.2 ∉ owners → count k f = 0

namespace Only

variable {count : H256 × Address → Flow → ℕ} {owners owners' : List Address}

theorem nil : Only count owners [] := nofun

theorem append (h : Only count owners flows) (h' : Only count owners flows') : Only count owners
    (flows ++ flows') := by
  intro f hf
  rcases mem_append.1 hf with hmem | hmem
  · exact h f hmem
  · exact h' f hmem

theorem mono (h : Only count owners flows) (hsub : owners ⊆ owners') : Only count owners' flows :=
  fun f hf k hk => h f hf k fun hmem => hk (hsub hmem)

theorem sum_eq_zero (h : Only count owners flows) {k : H256 × Address} (hk : k.2 ∉ owners) :
    (flows.map (count k)).sum = 0 := by
  refine List.sum_eq_zero fun n hn => ?_
  obtain ⟨f, hf, rfl⟩ := mem_map.1 hn
  exact h f hf k hk

end Only

theorem only_loss_credit (owners : List Address) (key : H256 × Address) (amount : Amount) :
    Only loss owners [.credit key amount] := by
  intro _ hf _ _
  rw [mem_singleton.1 hf]
  rfl

theorem only_loss_debit (key : H256 × Address) (available locked : Amount) :
    Only loss [key.2] [.debit key available locked] := by
  intro _ hf _ hk
  rw [mem_singleton.1 hf]
  exact loss_of_ne fun heq => hk (heq ▸ mem_singleton.2 rfl)

theorem only_gain_credit (key : H256 × Address) (amount : Amount) : Only gain [key.2]
    [.credit key amount] := by
  intro _ hf _ hk
  rw [mem_singleton.1 hf]
  exact gain_of_ne fun heq => hk (heq ▸ mem_singleton.2 rfl)

theorem only_gain_debit (owners : List Address) (key : H256 × Address) (available locked : Amount) :
    Only gain owners [.debit key available locked] := by
  intro _ hf _ _
  rw [mem_singleton.1 hf]
  rfl

/-- A move takes from its source. -/
theorem only_loss_move (token : H256) (source dest : Address) (amount : Amount) :
    Only loss [source] (move token source dest amount) := by
  unfold move
  split
  · exact .nil
  · exact (only_loss_debit (token, source) amount .zero).append
      (only_loss_credit _ (token, dest) amount)

/-- A move adds to its destination. -/
theorem only_gain_move (token : H256) (source dest : Address) (amount : Amount) :
    Only gain [dest] (move token source dest amount) := by
  unfold move
  split
  · exact .nil
  · exact (only_gain_debit _ (token, source) amount .zero).append
      (only_gain_credit (token, dest) amount)

end Flow

/-! ## What the methods do to holdings -/

namespace StateDB

/-- The holdings of a state. -/
def holdings (db : StateDB) : Holdings := db.ownership

/-- Nothing but accounts and holdings has changed, with what is kept along with them. -/
def Paid (s t : StateDB) : Prop :=
  ∃ accounts stakers dirty ownership assetHolderCount dirtyAssets storage,
    t = { s with accounts, stakers, dirty, ownership, assetHolderCount, dirtyAssets, storage }

instance : IsPreorder StateDB Paid where
  refl s := ⟨_, _, _, _, _, _, _, rfl⟩
  trans := by
    rintro s _ _ ⟨_, _, _, _, _, _, _, rfl⟩ ⟨_, _, _, _, _, _, _, rfl⟩
    exact ⟨_, _, _, _, _, _, _, rfl⟩

/-- The holdings have gone through a list of flows. -/
def Flows (flows : List Flow) (s t : StateDB) : Prop :=
  Flow.runAll s.holdings flows = some t.holdings

theorem Flows.append {first second : List Flow} {s t u : StateDB} (h : Flows first s t)
    (h' : Flows second t u) :
    Flows (first ++ second) s u :=
  Flow.runAll_append h h'

/-- No flow leaves the holdings as they are. -/
theorem flows_nil {s t : StateDB} (h : Unchanged holdings s t) : Flows [] s t :=
  congrArg some h.symm

end StateDB

namespace Db

open Confined StateDB

variable {ε : Type} {s t : StateDB}
variable {amount : Amount} {assetId : H256} {u : Unit}

variable {address owner : Address} {state : AccountState} {r : OwnershipRecord}

theorem paid_putAccount : Moves Paid (putAccount address state : DbM ε Unit) :=
  .update fun _ => ⟨_, _, _, _, _, _, _, rfl⟩

theorem paid_addBalance (address : Address) (amount : Amount) :
    Moves Paid (addBalance address amount) :=
  .found fun _ _ => paid_putAccount ..

theorem paid_subBalance (address : Address) (amount : Amount) :
    Moves Paid (subBalance address amount) :=
  .found fun _ _ => paid_putAccount ..

theorem paid_putOwnership (record : OwnershipRecord) :
    Moves Paid (putOwnership record : DbM ε Unit) := by
  intro _ _ _ h
  rw [run_putOwnership] at h
  obtain ⟨_, hput, heq⟩ := map_eq_some_iff.1 h
  cases heq
  obtain ⟨_, -, hrest⟩ := bind_eq_some_iff.1 hput
  obtain ⟨_, -, rfl⟩ := map_eq_some_iff.1 hrest
  exact ⟨_, _, _, _, _, _, _, rfl⟩

theorem paid_transferAsset (assetId : H256) (source dest : Address) (amount : Amount) :
    Moves Paid (transferAsset assetId source dest amount) :=
  .ite (.pure _) <| .found fun _ _ => .guarded <|
    .found fun _ _ => .bind (paid_putOwnership _) fun _ => .bind .view fun _ => .bind (.unwrap _)
    fun _ => paid_putOwnership _

/-- Balances are not holdings. -/
theorem holdings_putAccount : Moves (Unchanged holdings) (putAccount address state : DbM ε Unit) :=
  .update fun _ => rfl

theorem holdings_addBalance (address : Address) (amount : Amount) :
    Moves (Unchanged holdings) (addBalance address amount) :=
  .found fun _ _ => holdings_putAccount ..

theorem holdings_subBalance (address : Address) (amount : Amount) :
    Moves (Unchanged holdings) (subBalance address amount) :=
  .found fun _ _ => holdings_putAccount ..

/-- Setting a changed record is the flow that changed it. -/
theorem flow_of_putOwnership {f : Flow} (hkeyed : s.holdings.Keyed)
    (hchange : f.change (s.holdings.recordOf f.key) = some r)
    (h : (putOwnership r : DbM ε Unit).run s = some (.ok u, t)) :
    f.run s.holdings = some t.holdings := by
  have key : (r.assetId, r.owner) = f.key :=
    (Flow.change_spec hchange).1.trans (hkeyed.recordOf f.key)
  rw [run_putOwnership] at h
  obtain ⟨_, hput, heq⟩ := map_eq_some_iff.1 h
  cases heq
  obtain ⟨_, -, hrest⟩ := bind_eq_some_iff.1 hput
  obtain ⟨_, -, rfl⟩ := map_eq_some_iff.1 hrest
  rw [Flow.run, hchange, ← key]
  rfl

/-- Crediting an owner. -/
theorem flows_of_credit (hkeyed : s.holdings.Keyed) (h : (do
      let record ← getOwnership assetId owner
      let credited ← Confined.unwrap (record.credit amount)
      putOwnership credited : DbM ε Unit).run s = some (.ok u, t)) :
    Flows [.credit (assetId, owner) amount] s t := by
  obtain ⟨_, hcredit, hput⟩ := ok_of_unwrap (o := (s.getOwnership assetId owner).credit amount) h
  have run := flow_of_putOwnership (f := .credit (assetId, owner) amount) hkeyed hcredit hput
  exact bind_eq_some_iff.2 ⟨_, run, rfl⟩

/-- A debit takes nothing from what is locked. -/
theorem change_debit {k : H256 × Address} {debited : OwnershipRecord}
    (h : r.debit amount = some debited) :
    (Flow.debit k amount .zero).change r = some debited := by
  refine bind_eq_some_iff.2 ⟨debited, h, ?_⟩
  rw [checkedSub_zero]
  rfl

/-- Debiting an owner. -/
theorem flows_of_debit {e : ε} (hkeyed : s.holdings.Keyed) (h : (do
      let record ← getOwnership assetId owner
      let debited ← Confined.okOr (record.debit amount) e
      putOwnership debited : DbM ε Unit).run s = some (.ok u, t)) :
    Flows [.debit (assetId, owner) amount .zero] s t := by
  obtain ⟨_, hdebit, hput⟩ := ok_of_okOr (o := (s.getOwnership assetId owner).debit amount) h
  have run := flow_of_putOwnership (f := .debit (assetId, owner) amount .zero) hkeyed
    (change_debit hdebit) hput
  exact bind_eq_some_iff.2 ⟨_, run, rfl⟩

/-- Moving tokens between owners. -/
theorem flows_of_transferAsset {source dest : Address} (hkeyed : s.holdings.Keyed)
    (h : (transferAsset assetId source dest amount).run s = some (.ok u, t)) :
    Flows (Flow.move assetId source dest amount) s t := by
  unfold transferAsset at h
  unfold Flow.move
  split at h
  · rename_i hzero
    rw [if_pos hzero]
    obtain ⟨-, rfl⟩ := ok_of_pure h
    exact flows_nil rfl
  rename_i hsome
  rw [if_neg hsome]
  obtain ⟨_, -, h⟩ := ok_of_okOr (o := s.getAsset assetId) h
  obtain ⟨-, h⟩ := ok_of_require h
  obtain ⟨_, hdebit, h⟩ := ok_of_okOr (o := (s.getOwnership assetId source).debit amount) h
  obtain ⟨_, s₁, hput, h⟩ := run_bind_ok h
  obtain ⟨_, hcredit, hput'⟩ := ok_of_unwrap (o := (s₁.getOwnership assetId dest).credit amount) h
  have run := flow_of_putOwnership (f := .debit (assetId, source) amount .zero) hkeyed
    (change_debit hdebit) hput
  have run' :=
    flow_of_putOwnership (f := .credit (assetId, dest) amount)
      (Flow.keyed_of_run run hkeyed) hcredit hput'
  exact bind_eq_some_iff.2 ⟨_, run, bind_eq_some_iff.2 ⟨_, run', rfl⟩⟩

end Db

/-- A state database without a store. Its ownership records are filed under their own asset and
owner, where every method files them. -/
structure StateDB.InMemory (db : StateDB) : Prop where
  storage : db.storage = none
  keyed : db.holdings.Keyed

end Vtt
