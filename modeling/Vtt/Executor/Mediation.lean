import Vtt.Executor.Spending

/-!
# Who may come to hold regulated assets

A transfer of an asset asks whether its recipient is approved and whether the recipient's country is
allowed. No other operation asks, though several of them credit holdings: the issue of an asset, the
exchange, and the deposits of the bridge.
-/

namespace Vtt

open Lib Vtt.Flow List Storage Text
open Option (bind_eq_some_iff)

namespace StateDB

/-- Setting an account leaves the notes alone. -/
theorem read_note_putAccount (s : StateDB) (note : Note) (address : Address)
    (state : AccountState) :
    (s.putAccount address state).storage.read .chainMeta note.key =
      s.storage.read .chainMeta note.key := by
  have stakers : note.key ≠ ascii "stakers:set" :=
    Ne.symm (Cell.key_ne (c := .stakers) rfl note.foreign)
  unfold putAccount
  dsimp only
  split
  · exact (read_write_of_ne _ _ (.inr stakers)).trans (read_write_of_ne _ _ (.inl (by decide)))
  · exact read_write_of_ne _ _ (.inl (by decide))

theorem read_note_charge (s : StateDB) (note : Note) (sender : Address) (fee : Amount) :
    (s.charge sender fee).storage.read .chainMeta note.key = s.storage.read .chainMeta note.key :=
  charge_induction _ _ _ rfl fun _ _ => (read_note_putAccount ..).trans

end StateDB

namespace Executor

open Confined StateDB Dex

variable {flows : List Flow} {fee amount : Amount} {address : Address} {owners : List Address}
  {asset : AssetRecord}

/-! ## The policy -/

/-- The policy on countries accepts an address. -/
def Accepts (db : StateDB) (address : Address) : Prop :=
  (checkJurisdictionPolicy address).run db = some (.ok (), db)

/-- An address is accepted if its country is on the whitelist, in case there is one, and not on the
blacklist. -/
theorem accepts_iff {db : StateDB} : Accepts db address ↔
      (db.getJurisdictionWhitelist.isEmpty = true ∨ ∃ country,
      db.getAddressJurisdiction address = some country ∧
        (db.getJurisdictionWhitelist.any fun c => eqIgnoreCase c (asciiUppercase country)) = true) ∧
      ∀ country, db.getAddressJurisdiction address = some country →
        (db.getJurisdictionBlacklist.any fun c => eqIgnoreCase c (asciiUppercase country)) =
          false := by
  unfold Accepts checkJurisdictionPolicy Db.getJurisdictionWhitelist Db.getJurisdictionBlacklist
    Db.getAddressJurisdiction
  rw [run_view_bind, run_view_bind, run_view_bind]
  cases hcountry : db.getAddressJurisdiction address with
  | none =>
    cases db.getJurisdictionWhitelist.isEmpty with
    | true | false => simp
  | some =>
    cases db.getJurisdictionWhitelist.isEmpty with
    | true => simp [run_require_iff]
    | false =>
      simp only [Option.map_some, Bool.false_eq_true, if_false, run_okOr_some_bind,
        run_require_bind]
      split
      · simp_all [run_require_iff]
      · simp_all

/-- An address is approved, and the policy accepts it. -/
def Cleared (db : StateDB) (address : Address) : Prop :=
  db.isKycApproved address = true ∧ Accepts db address

/-- Charging a sender clears nobody and bars nobody. -/
theorem cleared_charge_iff {db : StateDB} {sender : Address} :
    Cleared (db.charge sender fee) address ↔ Cleared db address := by
  have whitelist : (db.charge sender fee).getJurisdictionWhitelist = db.getJurisdictionWhitelist :=
    congrArg decodeCountryList (read_note_charge db (.param "jurisdiction_whitelist") sender fee)
  have blacklist : (db.charge sender fee).getJurisdictionBlacklist = db.getJurisdictionBlacklist :=
    congrArg decodeCountryList (read_note_charge db (.param "jurisdiction_blacklist") sender fee)
  have country : (db.charge sender fee).getAddressJurisdiction address =
      db.getAddressJurisdiction address :=
    congrArg (fun stored : Option Bytes => stored.bind fun bs => String.fromUTF8? ⟨bs.toArray⟩)
      (read_note_charge db (.jurisdiction address) sender fee)
  have approved : (db.charge sender fee).isKycApproved address = db.isKycApproved address :=
    charge_induction _ _ _ rfl fun _ _ => id
  rw [Cleared, Cleared, accepts_iff, accepts_iff, whitelist, blacklist, country, approved]

/-! ## Gains -/

/-- Flows add more to what an owner holds of an asset than they take. -/
def Gains (flows : List Flow) (assetId : H256) (owner : Address) : Prop :=
  losses flows (assetId, owner) < gains flows (assetId, owner)

/-- Owners hold more afterwards if and only if the flows add more than they take. -/
theorem held_lt_iff_gains {s t : StateDB} (h : Flows flows s t) (assetId : H256) (owner : Address) :
    (s.getOwnership assetId owner).held < (t.getOwnership assetId owner).held ↔
      Gains flows assetId owner := by
  have sum := held_of_runAll h (assetId, owner)
  change s.holdings.held (assetId, owner) < t.holdings.held (assetId, owner) ↔ _
  unfold Gains losses gains
  omega

section Gains

variable {a sender : Address} {assetId : H256}

theorem not_gains_of_only (h : Flow.Only gain owners flows) (ha : a ∉ owners) :
    ¬ Gains flows assetId a := by
  unfold Gains gains
  rw [h.sum_eq_zero (k := (assetId, a)) ha]
  exact Nat.not_lt_zero _

theorem gains_of_append {flows' : List Flow} (h : Flow.Only gain owners flows) (ha : a ∉ owners)
    (hgains : Gains (flows ++ flows') assetId a) : Gains flows' assetId a := by
  have nothing := h.sum_eq_zero (k := (assetId, a)) ha
  unfold Gains losses gains at *
  rw [map_append, sum_append, map_append, sum_append] at hgains
  omega

theorem gains_credit_iff {k : H256 × Address} :
    Gains [.credit k amount] assetId a ↔ k = (assetId, a) ∧ amount.raw ≠ 0 := by
  have positive : 0 < amount.raw.toNat ↔ amount.raw ≠ 0 :=
    Nat.pos_iff_ne_zero.trans (not_congr (BitVec.toNat_inj (y := 0)))
  unfold Gains losses gains
  simp only [map_cons, map_nil, sum_cons, sum_nil, loss, gain]
  by_cases hk : k = (assetId, a)
  · simpa [hk] using positive
  · simp [hk]

/-- Nobody gains by a move within one account, and nobody but the destination by any other. -/
theorem eq_of_gains_move {token : H256} {source dest : Address}
    (h : Gains (move token source dest amount) assetId a) :
    token = assetId ∧ dest = a ∧ source ≠ a := by
  unfold Gains losses gains move at h
  split at h
  · exact absurd h (Nat.lt_irrefl 0)
  simp only [map_cons, map_nil, sum_cons, sum_nil, loss, gain] at h
  by_cases hdest : (token, dest) = (assetId, a)
  · cases hdest
    refine ⟨rfl, rfl, ?_⟩
    rintro rfl
    simp at h
  · rw [if_neg hdest] at h
    omega

/-- The exchange pays its sender, and keeps what it is paid at the zero address. -/
theorem only_gain_planned [Crypto] (db : StateDB) (sender : Address) (action : TransactionAction)
    (h : action.isExchange = true) : Flow.Only gain [sender, .zero] (planned db sender action) :=
  exchange_induction db h .nil .append (fun _ _ => (only_gain_move _ _ _ _).mono (by simp))
    (fun _ _ => (only_gain_move _ _ _ _).mono (by simp))
    (fun _ _ => (only_gain_credit _ _).mono (by simp))
    fun _ _ => only_gain_debit _ _ _ _

end Gains

/-! ## Mediation -/

/-- Holders of an asset must be approved. -/
def Regulated (db : StateDB) (assetId : H256) : Prop :=
  ∃ asset, db.getAsset assetId = some asset ∧ asset.requiresKyc = true

/-- Whoever holds more of a regulated asset than before was cleared for it; the zero address is
exempt. -/
def Mediated (s t : StateDB) : Prop :=
  ∀ a, a ≠ .zero → ∀ assetId, Regulated t assetId →
    (s.getOwnership assetId a).held < (t.getOwnership assetId a).held → Cleared s a

/-- Whoever an operation would hand regulated assets to without asking is cleared: an issuer, the
recipient of a deposit of the bridge, and whoever the exchange pays. -/
def Screened [Crypto] (s : StateDB) (sender : Address) (action : TransactionAction) : Prop :=
  match action with
  | .createAssetClass _ _ _ totalSupply _ assetClass _ _ =>
    isRegulated (parseAssetClass assetClass) = true → totalSupply.raw ≠ 0 → sender ≠ .zero →
      Cleared s sender
  | .bridgeDeposit _ _ recipient token amount =>
    token ≠ .zero → Regulated s token → amount.raw ≠ 0 → recipient ≠ .zero → Cleared s recipient
  | .addLiquidity .. | .removeLiquidity .. | .swap .. | .claimRevenue .. =>
    sender ≠ .zero → ∀ assetId, Regulated s assetId →
      Gains (planned s sender action) assetId sender → Cleared s sender
  | _ => True

section Mediation

variable {s t : StateDB} {sender : Address} {action : TransactionAction}

theorem regulated_congr (h : t.assets = s.assets) (assetId : H256) : Regulated t assetId ↔
    Regulated s assetId := by
  unfold Regulated getAsset
  rw [h]

/-- What is regulated after an asset was registered. -/
theorem regulated_insert_iff {id : H256} (h : t.assets = s.assets.insert id asset)
    (assetId : H256) :
    Regulated t assetId ↔ if id = assetId then asset.requiresKyc =
      true else Regulated s assetId := by
  unfold Regulated getAsset
  rw [h, get_insert]
  split
  · simp
  · rfl

/-- Nobody gains, so there is nobody to clear. -/
theorem mediated_of_not_gains (h : Flows flows s t)
    (hgains : ∀ a, a ≠ .zero → ∀ assetId, Regulated t assetId → ¬ Gains flows assetId a) :
    Mediated s t :=
  fun a ha assetId hregulated hlt =>
    absurd ((held_lt_iff_gains h assetId a).1 hlt) (hgains a ha assetId hregulated)

/-- Only the sender is paid by the exchange. -/
theorem mediated_iff_of_only (h : Flows flows s t) (hassets : t.assets = s.assets)
    (honly : Flow.Only gain [sender, .zero] flows) :
    Mediated s t ↔ (sender ≠ .zero → ∀ assetId, Regulated s assetId → Gains flows assetId sender →
      Cleared s sender) := by
  constructor
  · intro hmediated hsender assetId hregulated hgains
    exact hmediated sender hsender assetId ((regulated_congr hassets assetId).2 hregulated)
      ((held_lt_iff_gains h assetId sender).2 hgains)
  · intro hscreened a ha assetId hregulated hlt
    have hgains := (held_lt_iff_gains h assetId a).1 hlt
    by_cases hsender : a = sender
    · subst hsender
      exact hscreened ha assetId ((regulated_congr hassets assetId).1 hregulated) hgains
    · exact absurd hgains (not_gains_of_only honly (by simp [ha, hsender]))

/-- A check for approval that passed. -/
theorem approved_of_checkKyc {recipient : Address} {x : Unit}
    (h : (checkKyc asset sender recipient).run s = some (.ok x, t))
    (hregulated : asset.requiresKyc = true) :
    s.isKycApproved recipient = true := by
  unfold checkKyc at h
  rw [if_pos hregulated] at h
  obtain ⟨-, h⟩ := ok_of_require (p := s.isKycApproved sender = true) h
  exact (run_require_iff (p := s.isKycApproved recipient = true).1 h).1

theorem screened_of_isRoutine [Crypto] (h : action.isRoutine = true) :
    Screened s sender action := by
  cases action with
  | createAssetClass | bridgeDeposit | addLiquidity | removeLiquidity | swap | claimRevenue =>
    cases h
  | _ => trivial

/-- An operation that is booked hands regulated assets to cleared addresses if and only if it is
screened. -/
theorem Booked.mediated_iff [Crypto] (h : Booked sender action s t) (hkeyed : s.holdings.Keyed) :
    Mediated s t ↔ Screened s sender action := by
  obtain ⟨hflows, hentry⟩ := h
  replace hflows := hflows hkeyed
  have idle {flows : List Flow} (hflows : Flows flows s t) (honly : Flow.Only gain [] flows) :
      Mediated s t :=
    mediated_of_not_gains hflows fun _ _ _ _ => not_gains_of_only honly not_mem_nil
  cases hentry with
  | routine hroutine =>
    rw [planned_of_isRoutine hroutine] at hflows
    exact iff_of_true (idle hflows .nil) (screened_of_isRoutine hroutine)
  | @created name symbol _ _ _ _ _ _ _ _ _ assets =>
    -- only the issuer gains, and only of the new asset
    have regulated := regulated_insert_iff assets
    constructor
    · intro hmediated hclass hsupply hsender
      refine hmediated sender hsender (newAssetId sender name symbol) ((regulated _).2 ?_)
        ((held_lt_iff_gains hflows _ _).2 ?_)
      · rw [if_pos rfl]
        exact hclass
      · exact gains_credit_iff.2 ⟨rfl, hsupply⟩
    · intro hscreened a ha assetId hregulated hlt
      obtain ⟨hkey, hsupply⟩ := gains_credit_iff.1 ((held_lt_iff_gains hflows _ _).1 hlt)
      cases hkey
      have hclass := (regulated _).1 hregulated
      rw [if_pos rfl] at hclass
      exact hscreened hclass hsupply ha
  | transferred _ hasset kyc policy _ _ assets =>
    refine iff_of_true (fun a ha assetId hregulated hlt => ?_) trivial
    obtain ⟨rfl, rfl, -⟩ := eq_of_gains_move ((held_lt_iff_gains hflows _ _).1 hlt)
    obtain ⟨_, hasset', hkyc⟩ := (regulated_congr assets _).1 hregulated
    obtain rfl := Option.some.inj (hasset.symm.trans hasset')
    exact ⟨approved_of_checkKyc kyc hkyc, policy⟩
  | opened _ _ hpool tokens _ _ _ _ _ assets =>
    -- the new liquidity tokens are not regulated
    refine iff_of_true (mediated_of_not_gains hflows fun a ha assetId hregulated hgains =>
      ?_) trivial
    subst hpool
    have paid (token : H256) (amount : Amount) :
        Flow.Only gain [.zero] (Dex.paidIn sender token amount) :=
      Dex.paidIn_of .nil (only_gain_move _ _ _ _)
    have hminted := gains_of_append ((paid _ _).append (paid _ _)) (by simpa using ha) hgains
    obtain ⟨rfl, rfl⟩ := Prod.mk.inj (gains_credit_iff.1 hminted).1
    have unregulated := (regulated_insert_iff assets _).1 hregulated
    rw [if_pos (by rfl)] at unregulated
    cases unregulated
  | deposited _ _ _ _ _ _ _ _ trade =>
    exact mediated_iff_of_only hflows trade.assets (only_gain_planned s sender _ rfl)
  | withdrawn _ _ _ _ _ _ trade =>
    exact mediated_iff_of_only hflows trade.assets (only_gain_planned s sender _ rfl)
  | swapped _ _ _ _ _ _ _ trade =>
    exact mediated_iff_of_only hflows trade.assets (only_gain_planned s sender _ rfl)
  | collected _ _ trade =>
    exact mediated_iff_of_only hflows trade.assets (only_gain_planned s sender _ rfl)
  | reissued _ _ haction =>
    rcases haction with rfl | rfl <;> exact iff_of_true (idle hflows .nil) trivial
  | redeemed => exact iff_of_true (idle hflows (only_gain_debit [] _ _ _)) trivial
  | @bridgedIn _ _ recipient token _ _ _ _ assets =>
    dsimp only [planned] at hflows
    by_cases htoken : token = .zero
    · rw [if_pos htoken] at hflows
      exact iff_of_true (idle hflows .nil) fun hne => absurd htoken hne
    rw [if_neg htoken] at hflows
    constructor
    · intro hmediated _ hregulated hamount hrecipient
      exact hmediated recipient hrecipient token ((regulated_congr assets _).2 hregulated)
        ((held_lt_iff_gains hflows _ _).2 (gains_credit_iff.2 ⟨rfl, hamount⟩))
    · intro hscreened a ha _ hregulated hlt
      obtain ⟨hkey, hamount⟩ := gains_credit_iff.1 ((held_lt_iff_gains hflows _ _).1 hlt)
      cases hkey
      exact hscreened htoken ((regulated_congr assets _).1 hregulated) hamount ha
  | @bridgedOut _ _ _ _ _ _ =>
    refine iff_of_true (mediated_of_not_gains hflows fun a ha _ _ hgains => ?_) trivial
    dsimp only [planned] at hgains
    split at hgains
    · exact not_gains_of_only .nil not_mem_nil hgains
    · exact ha (eq_of_gains_move hgains).2.1.symm

/-! ## Transactions -/

theorem mediated_charge_iff : Mediated (s.charge sender fee) t ↔ Mediated s t := by
  have holdings : ∀ assetId a, (s.charge sender fee).getOwnership assetId a =
      s.getOwnership assetId a :=
    fun assetId a => congrArg (·.recordOf (assetId, a)) (sameLedger_charge s sender fee).holdings
  simp only [Mediated, holdings, cleared_charge_iff]

theorem screened_charge_iff [Crypto] : Screened (s.charge sender fee) sender action ↔
    Screened s sender action := by
  have planned : planned (s.charge sender fee) sender action = planned s sender action :=
    planned_congr (sameLedger_charge s sender fee)
  have regulated : ∀ assetId, Regulated (s.charge sender fee) assetId ↔ Regulated s assetId :=
    regulated_congr (charge_same s sender fee).2.2
  cases action with
  | createAssetClass => simp only [Screened, cleared_charge_iff]
  | bridgeDeposit => simp only [Screened, cleared_charge_iff, regulated]
  | addLiquidity | removeLiquidity | swap | claimRevenue =>
    simp only [Screened, cleared_charge_iff, regulated, planned]
  | _ => rfl

variable [Wasm] [Environment] {ctx : BlockContext} {tx : SignedTransaction}
  {result : ExecutionResult}

/-- A transaction that succeeds leaves regulated assets with cleared holders if and only if it is
screened; a transfer of an asset always is. -/
theorem mediated_iff_screened [Crypto] {ε : Type} (hkeyed : s.holdings.Keyed)
    (h : (executeTransactionAt ctx tx : DbM ε ExecutionResult).run s = some (.ok result, t))
    (hsuccess : result.receipt.success = true) : Mediated s t ↔
      Screened s tx.sender tx.payload.action := by
  have outcome := outcome_of_executed h
  have charged := sameLedger_charge s tx.sender (gasFee tx ctx.gasConfig)
  rw [← mediated_charge_iff, (outcome.booked hsuccess).mediated_iff (charged.holdings ▸ hkeyed),
    screened_charge_iff]

end Mediation

end Executor

/-! ## A swap -/

namespace Demo

open Executor Dex

/-- A pool of the native token and an asset. -/
def listedPool : PoolState := opened key.address .zero ⟨5⟩ ⟨100000⟩ ⟨100000⟩ 0

/-- A state in which a regulated asset is in a pool, with some approved addresses. -/
def listed (approved : FinSet Address) : StateDB :=
  { funded with
    assets := (∅ : FinMap _ _).insert ⟨5⟩ { lpAsset ⟨5⟩ .zero ⟨100000⟩ with requiresKyc := true }
    ownership := (∅ : FinMap _ _).insert (⟨5⟩, .zero) ⟨⟨5⟩, .zero, ⟨100000⟩, .zero⟩
    pools := (∅ : FinMap _ _).insert listedPool.poolId (Borsh.serialize listedPool)
    kycApproved := approved }

theorem keyed_listed (approved : FinSet Address) : (listed approved).holdings.Keyed :=
  Holdings.keyed_empty.insert rfl

/-- The validator buys the asset. -/
def purchase : SignedTransaction := firstTransaction (.swap listedPool.poolId .zero ⟨1000⟩ .zero)

/-- Somebody who was never approved buys a regulated asset. -/
theorem purchase_not_mediated : ∃ result t, (listed ∅).holdings.Keyed ∧
      (executeTransactionAt context purchase : DbM Empty _).run (listed ∅) = some (.ok result, t) ∧
      result.receipt.success = true ∧ ¬ Mediated (listed ∅) t := by
  obtain ⟨result, t, run, hcheck⟩ := exists_executed context purchase (listed ∅)
    (fun result t => result.receipt.success && (t.getAsset ⟨5⟩).any (·.requiresKyc) &&
      decide (((listed ∅).getOwnership ⟨5⟩ key.address).held <
      (t.getOwnership ⟨5⟩ key.address).held))
    (by decide +kernel)
  rw [Bool.and_eq_true, Bool.and_eq_true, decide_eq_true_eq, Option.any_eq_true] at hcheck
  obtain ⟨⟨success, regulated⟩, gain⟩ := hcheck
  refine ⟨result, t, keyed_listed ∅, run, success, fun mediated => ?_⟩
  obtain ⟨approved, -⟩ := mediated key.address (by decide +kernel) ⟨5⟩ regulated gain
  cases approved

/-- The same purchase by somebody who is approved. -/
theorem approved_purchase_mediated :
    ∃ approved result t, (executeTransactionAt context purchase : DbM Empty _).run
        (listed approved) = some (.ok result, t) ∧ result.receipt.success = true ∧
        Mediated (listed approved) t := by
  obtain ⟨result, t, run, success⟩ := exists_executed context purchase
    (listed ((∅ : FinSet _).insert key.address)) (fun result _ => result.receipt.success)
    (by decide +kernel)
  refine ⟨_, result, t, run, success, (mediated_iff_screened (keyed_listed _) run success).2 ?_⟩
  intro _ _ _ _
  exact ⟨by decide +kernel, accepts_iff.2 ⟨.inl (by decide +kernel), fun _ h => by cases h⟩⟩

end Demo

end Vtt
