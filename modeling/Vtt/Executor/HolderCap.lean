import Vtt.Dex.Quotes
import Vtt.Executor.Mediation

/-!
# The number of holders of an asset

The chain may limit the number of holders of an asset. Transfers keep to the limit; the exchange,
the issue of assets and the bridge do not ask for it.
-/

namespace Vtt

open Lib Vtt.Flow List Amount

namespace Flow

/-! ## Arrivals and departures -/

/-- The owners that flows concern. -/
def concerned (flows : List Flow) : List Address := (flows.map (·.key.2)).dedup

/-- The number of owners who hold nothing of an asset and get some. -/
def arrivals (m : Holdings) (flows : List Flow) (assetId : H256) : ℕ :=
  (concerned flows).countP fun a =>
    m.held (assetId, a) = 0 ∧ losses flows (assetId, a) < gains flows (assetId, a)

/-- The number of owners who hold some of an asset and part with it. -/
def departures (m : Holdings) (flows : List Flow) (assetId : H256) : ℕ :=
  (concerned flows).countP fun a =>
    m.held (assetId, a) ≠ 0 ∧ m.held (assetId, a) + gains flows (assetId, a) =
      losses flows (assetId, a)

/-- The number of addresses of a list that hold something of an asset. -/
def holdersAmong (owners : List Address) (m : Holdings) (assetId : H256) : ℕ :=
  owners.countP fun a => m.held (assetId, a) ≠ 0

section Holders

variable {m m' : Holdings} {f : Flow} {flows : List Flow} {owners : List Address} {assetId : H256}

/-- If only the holding of one address of a list has changed, the number of holders among them
changes with that address. -/
theorem holdersAmong_of_eq {a : Address} (hnodup : owners.Nodup) (ha : a ∈ owners)
    (h : ∀ b, b ≠ a → m'.held (assetId, b) = m.held (assetId, b)) :
    holdersAmong owners m' assetId + (if m.held (assetId, a) ≠ 0 then 1 else 0) =
      holdersAmong owners m assetId + (if m'.held (assetId, a) ≠ 0 then 1 else 0) := by
  unfold holdersAmong
  induction owners with
  | nil => cases ha
  | cons b rest ih =>
    obtain ⟨hb, hrest⟩ := nodup_cons.1 hnodup
    rw [countP_cons, countP_cons]
    by_cases hab : b = a
    · subst hab
      -- the others are the same, in particular none of them is this one
      have same : rest.countP (fun a => decide (m'.held (assetId, a) ≠ 0)) =
          rest.countP (fun a => decide (m.held (assetId, a) ≠ 0)) := by
        refine countP_congr fun c hc => ?_
        rw [h c fun heq => hb (heq ▸ hc)]
      simp only [decide_eq_true_eq]
      omega
    · have hmem : a ∈ rest := (mem_cons.1 ha).resolve_left (Ne.symm hab)
      have step := ih hrest hmem
      rw [h b hab]
      omega

/-- A flow changes the number of owners and the number of holders among some addresses alike, if its
own is one of them. -/
theorem owners_add_of_run (h : f.run m = some m') (hnodup : owners.Nodup) (hf : f.key.2 ∈ owners) :
    m'.owners assetId + holdersAmong owners m assetId =
      m.owners assetId + holdersAmong owners m' assetId := by
  have change := owners_of_run h assetId
  have other (k : H256 × Address) (hk : f.key ≠ k) : m'.held k = m.held k := by
    have sum := held_of_run h k
    rw [gain_of_ne hk, loss_of_ne hk] at sum
    exact sum
  by_cases hasset : f.key.1 = assetId
  · have key : f.key = (assetId, f.key.2) := by rw [← hasset]
    have among : holdersAmong owners m' assetId + (if m.held (assetId, f.key.2) ≠ 0 then 1 else 0) =
        holdersAmong owners m assetId + (if m'.held (assetId, f.key.2) ≠ 0 then 1 else 0) :=
      holdersAmong_of_eq hnodup hf fun b hb => other (assetId, b) fun heq =>
        hb (congrArg Prod.snd heq).symm
    rw [← key] at among
    simp only [hasset, true_and] at change
    omega
  · have same : holdersAmong owners m' assetId = holdersAmong owners m assetId := by
      refine countP_congr fun b _ => ?_
      rw [other (assetId, b) fun heq => hasset (congrArg Prod.fst heq)]
    simp only [hasset, false_and, if_false] at change
    omega

theorem owners_add_of_runAll (h : runAll m flows = some m') (hnodup : owners.Nodup)
    (hflows : ∀ f ∈ flows, f.key.2 ∈ owners) :
    m'.owners assetId + holdersAmong owners m assetId =
      m.owners assetId + holdersAmong owners m' assetId := by
  induction flows generalizing m with
  | nil =>
    cases h
    rfl
  | cons f _ ih =>
    obtain ⟨m₁, hf, hrest⟩ := runAll_cons h
    have first : m₁.owners assetId + holdersAmong owners m assetId =
        m.owners assetId + holdersAmong owners m₁ assetId :=
      owners_add_of_run hf hnodup (hflows f mem_cons_self)
    have later := ih hrest fun g hg => hflows g (mem_cons_of_mem _ hg)
    omega

/-- Counting who holds something afterwards and who departs is counting who held something and who
arrives. -/
theorem holdersAmong_add_departures (h : runAll m flows = some m') (assetId : H256) :
    holdersAmong (concerned flows) m' assetId + departures m flows assetId =
      holdersAmong (concerned flows) m assetId + arrivals m flows assetId := by
  unfold holdersAmong departures arrivals
  induction concerned flows with
  | nil => rfl
  | cons a _ ih =>
    have sum : m'.held (assetId, a) + losses flows (assetId, a) =
        m.held (assetId, a) + gains flows (assetId, a) := held_of_runAll h (assetId, a)
    simp only [countP_cons, decide_eq_true_eq] at ih ⊢
    split <;> split <;> split <;> split <;> omega

/-- The number of owners after some flows. -/
theorem owners_add_departures (h : runAll m flows = some m') (assetId : H256) :
    m'.owners assetId + departures m flows assetId =
      m.owners assetId + arrivals m flows assetId := by
  have owners : m'.owners assetId + holdersAmong (concerned flows) m assetId =
      m.owners assetId + holdersAmong (concerned flows) m' assetId :=
    owners_add_of_runAll h (nodup_dedup _) fun f hf => mem_dedup.2 (mem_map_of_mem hf)
  have among := holdersAmong_add_departures h assetId
  omega

/-- Flows of other assets leave the owners of an asset alone. -/
theorem owners_of_runAll_ne (h : runAll m flows = some m') (hne : ∀ f ∈ flows, f.key.1 ≠ assetId) :
    m'.owners assetId = m.owners assetId := by
  induction flows generalizing m with
  | nil =>
    cases h
    rfl
  | cons f _ ih =>
    obtain ⟨_, hf, hrest⟩ := runAll_cons h
    have first := owners_of_run hf assetId
    simp only [hne f mem_cons_self, false_and, if_false] at first
    exact (ih hrest fun g hg => hne g (mem_cons_of_mem _ hg)).trans first

theorem asset_of_mem_move {token : H256} {source dest : Address} {amount : Amount}
    (hf : f ∈ move token source dest amount) : f.key.1 = token := by
  unfold move at hf
  split at hf
  · cases hf
  · rcases mem_pair.1 hf with rfl | rfl
    · rfl
    · rfl

end Holders

end Flow

namespace Executor

open Confined StateDB

/-! ## The limit -/

/-- Assets that had no more holders than allowed still have not. -/
def CapKept (max : ℕ) (s t : StateDB) : Prop :=
  ∀ assetId, s.holdings.owners assetId ≤ max → t.holdings.owners assetId ≤ max

/-- The operation is a transfer of an asset whose holders are counted right, or there is room for
those who come to hold an asset by it. -/
def HasRoom [Crypto] (s : StateDB) (max : ℕ) (sender : Address) (action : TransactionAction) :
    Prop :=
  (∃ assetId recipient amount, action = .assetTransfer assetId recipient amount ∧
    (s.holderCount assetId).toNat = s.holdings.owners assetId) ∨
  ∀ assetId, s.holdings.owners assetId ≤ max →
    s.holdings.owners assetId + arrivals s.holdings (planned s sender action) assetId ≤
      max + departures s.holdings (planned s sender action) assetId

section Limit

variable {s t : StateDB} {sender recipient : Address} {assetId : H256} {amount : Amount}

theorem held_of_total {r : OwnershipRecord} {total : Amount} (h : r.total = some total) :
    r.held = total.raw.toNat :=
  (toNat_checkedAdd h).symm

/-- A check of the limit that passed: the recipient holds some of the asset, or the sender parts
with all of it, or fewer holders were counted than are allowed. -/
theorem room_of_checkMaxHolders {x : Unit}
    (h : (checkMaxHolders assetId sender recipient amount).run s = some (.ok x, t))
    (hmax : s.getMaxHoldersPerAsset ≠ 0) :
    (s.getOwnership assetId recipient).held ≠ 0 ∨
      (s.getOwnership assetId sender).held ≠ 0 ∧ (s.getOwnership assetId sender).held ≤
        amount.raw.toNat ∨
      s.holderCount assetId < s.getMaxHoldersPerAsset := by
  replace h := ok_of_view h
  rw [if_neg hmax] at h
  obtain ⟨_, hrecipient, h⟩ := ok_of_unwrap h
  rw [held_of_total hrecipient]
  split at h
  · rename_i hsome
    left
    simpa [isZero, ← BitVec.toNat_inj] using hsome
  obtain ⟨senderTotal, hsender, h⟩ := ok_of_unwrap h
  rw [held_of_total hsender]
  dsimp only at h
  split at h
  · rename_i hall
    right; left
    have nothing := U128.toNat_saturatingSub senderTotal.raw amount.raw
    rw [hall.1] at nothing
    refine ⟨by simpa [isZero, ← BitVec.toNat_inj] using hall.2, ?_⟩
    exact Nat.le_of_sub_eq_zero nothing.symm
  · exact .inr (.inr (run_require_iff.1 h).1)

theorem getMaxHoldersPerAsset_charge (fee : Amount) :
    (s.charge sender fee).getMaxHoldersPerAsset = s.getMaxHoldersPerAsset := by
  have param := read_note_charge s (.param "max_holders_per_asset") sender fee
  unfold getMaxHoldersPerAsset getParamNat
  rw [show (s.charge sender fee).getParamRaw "max_holders_per_asset" =
    s.getParamRaw "max_holders_per_asset" from param]

theorem holderCount_charge (fee : Amount) : (s.charge sender fee).holderCount assetId =
    s.holderCount assetId :=
  charge_induction _ _ _ rfl fun _ _ => id

/-- A move of tokens that passes the check keeps to the limit, if holders are counted right. -/
theorem owners_le_of_move {max : ℕ} {m m' : Holdings}
    (h : runAll m (move assetId sender recipient amount) = some m')
    (hroom : m.held (assetId, recipient) ≠ 0 ∨
      m.held (assetId, sender) ≠ 0 ∧ m.held (assetId, sender) ≤ amount.raw.toNat ∨
      m.owners assetId < max) (hmax : m.owners assetId ≤ max) : m'.owners assetId ≤ max := by
  unfold move at h
  split at h
  · exact Option.some.inj h ▸ hmax
  obtain ⟨_, hdebit, h⟩ := runAll_cons h
  obtain ⟨_, hcredit, h⟩ := runAll_cons h
  cases h
  have first := owners_of_run hdebit assetId
  have second := owners_of_run hcredit assetId
  have sender₁ := held_of_run hdebit (assetId, sender)
  have recipient₁ := held_of_run hdebit (assetId, recipient)
  simp only [key, true_and, gain, loss, if_true, zero] at first second sender₁ recipient₁
  by_cases hself : sender = recipient
  · -- what is taken comes back
    subst hself
    split at first <;> split at first <;> split at second <;> split at second <;> omega
  · rw [if_neg fun heq => hself (Prod.mk.inj heq).2] at recipient₁
    split at first <;> split at first <;> split at second <;> split at second <;> omega

variable [Crypto] [Wasm] [Environment] {ctx : BlockContext} {tx : SignedTransaction}
  {result : ExecutionResult}

/-- A transfer of an asset keeps to the limit, if holders are counted right. -/
theorem Outcome.capKept (h : Outcome ctx tx s result t) (hsuccess : result.receipt.success = true)
    (hkeyed : s.holdings.Keyed)
    (haction : tx.payload.action = .assetTransfer assetId recipient amount)
    (hmax : s.getMaxHoldersPerAsset ≠ 0)
    (hcount : (s.holderCount assetId).toNat = s.holdings.owners assetId) :
    CapKept s.getMaxHoldersPerAsset.toNat s t := by
  have flows := h.flows hkeyed
  rw [if_pos hsuccess, haction] at flows
  have entry := (h.booked hsuccess).entry
  rw [haction] at entry
  intro id hle
  by_cases hid : assetId = id
  · subst hid
    refine owners_le_of_move flows ?_ hle
    cases entry with
    | routine hroutine => cases hroutine
    | reissued _ _ hfreeze => rcases hfreeze with hfreeze | hfreeze <;> cases hfreeze
    | transferred _ _ _ _ holders =>
      have charged := sameLedger_charge s tx.sender (gasFee tx ctx.gasConfig)
      have room := room_of_checkMaxHolders holders (by rwa [getMaxHoldersPerAsset_charge])
      rw [getMaxHoldersPerAsset_charge, holderCount_charge, UInt32.lt_iff_toNat_lt, hcount] at room
      have holding :
          ∀ a, ((s.charge tx.sender (gasFee tx ctx.gasConfig)).getOwnership assetId a).held =
          s.holdings.held (assetId, a) := fun a => congrArg (·.held (assetId, a)) charged.holdings
      rwa [holding, holding] at room
  · rw [owners_of_runAll_ne flows fun f hf heq => hid ((asset_of_mem_move hf).symm.trans heq)]
    exact hle

/-- A transaction that succeeds keeps to the limit on holders if and only if there is room. -/
theorem capKept_iff_hasRoom {ε : Type} {max : UInt32} (hkeyed : s.holdings.Keyed)
    (hmax : s.getMaxHoldersPerAsset = max) (hpos : max ≠ 0)
    (h : (executeTransactionAt ctx tx : DbM ε ExecutionResult).run s = some (.ok result, t))
    (hsuccess : result.receipt.success = true) :
    CapKept max.toNat s t ↔ HasRoom s max.toNat tx.sender tx.payload.action := by
  have outcome := outcome_of_executed h
  subst hmax
  have flows := outcome.flows hkeyed
  rw [if_pos hsuccess] at flows
  have kept_iff : CapKept s.getMaxHoldersPerAsset.toNat s t ↔ ∀ assetId,
      s.holdings.owners assetId ≤ s.getMaxHoldersPerAsset.toNat →
      s.holdings.owners assetId + arrivals s.holdings
        (planned s tx.sender tx.payload.action) assetId ≤ s.getMaxHoldersPerAsset.toNat +
        departures s.holdings (planned s tx.sender tx.payload.action) assetId := by
    refine forall_congr' fun assetId => imp_congr_right fun _ => ?_
    have owners := owners_add_departures flows assetId
    omega
  constructor
  · exact fun hkept => .inr (kept_iff.1 hkept)
  · rintro (⟨_, _, _, haction, hcount⟩ | hroom)
    · exact outcome.capKept hsuccess hkeyed haction hpos hcount
    · exact kept_iff.2 hroom

end Limit

end Executor

/-! ## A limit -/

namespace Demo

open Executor Dex

/-- A state in which one owner holds an asset, with a limit on the number of holders. -/
def limited (max : UInt8) (owner : Address) : StateDB :=
  { funded with
    assets := (∅ : FinMap _ _).insert ⟨5⟩ (lpAsset ⟨5⟩ .zero ⟨100000⟩)
    ownership := (∅ : FinMap _ _).insert (⟨5⟩, owner) ⟨⟨5⟩, owner, ⟨100000⟩, .zero⟩
    assetHolderCount := (∅ : FinMap _ _).insert ⟨5⟩ 1
    pools := (∅ : FinMap _ _).insert listedPool.poolId (Borsh.serialize listedPool)
    storage := Storage.write (some .empty) .chainMeta (StateDB.paramKey "max_holders_per_asset")
      [max, 0, 0, 0] }

theorem keyed_limited (max : UInt8) (owner : Address) : (limited max owner).holdings.Keyed :=
  Holdings.keyed_empty.insert rfl

/-- With room for one holder, the validator buys what the pool holds some of. -/
theorem purchase_exceeds_cap :
    ∃ result t, (limited 1 .zero).holdings.Keyed ∧ (limited 1 .zero).getMaxHoldersPerAsset = 1 ∧
      (executeTransactionAt context purchase : DbM Empty _).run (limited 1 .zero) =
        some (.ok result, t) ∧
      result.receipt.success = true ∧ ¬ CapKept 1 (limited 1 .zero) t := by
  obtain ⟨result, t, run, hcheck⟩ := exists_executed context purchase (limited 1 .zero)
    (fun result t => result.receipt.success && decide (t.holdings.owners ⟨5⟩ = 2))
    (by decide +kernel)
  rw [Bool.and_eq_true, decide_eq_true_eq] at hcheck
  refine ⟨result, t, keyed_limited 1 .zero, by decide +kernel, run, hcheck.1, fun kept => ?_⟩
  have least := kept ⟨5⟩ (by decide +kernel)
  omega

/-- With room for two, the validator transfers some of the asset. -/
theorem transfer_keeps_cap : ∃ tx result t, (limited 2 key.address).getMaxHoldersPerAsset = 2 ∧
      (executeTransactionAt context tx : DbM Empty _).run (limited 2 key.address) =
        some (.ok result, t) ∧
      result.receipt.success = true ∧ CapKept 2 (limited 2 key.address) t := by
  obtain ⟨result, t, run, success⟩ := exists_executed context
    (firstTransaction (.assetTransfer ⟨5⟩ ⟨7⟩ ⟨10⟩)) (limited 2 key.address)
    (fun result _ => result.receipt.success) (by decide +kernel)
  have max : (limited 2 key.address).getMaxHoldersPerAsset = 2 := by decide +kernel
  exact ⟨_, result, t, max, run, success,
    (capKept_iff_hasRoom (keyed_limited 2 key.address) max (by decide) run success).2
    (.inl ⟨⟨5⟩, ⟨7⟩, ⟨10⟩, rfl, by decide +kernel⟩)⟩

end Demo

end Vtt
