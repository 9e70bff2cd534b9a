import Mathlib.Algebra.Order.BigOperators.Group.List
import Vtt.Chain.Lookup
import Vtt.Evm.Reserve

/-!
# Withdrawals over the bridge

The node lists the withdrawals of its last blocks for the relayer, and the contract remembers the
hashes that it has released. The list does not look at receipts, and the hash of a transaction is
that of its payload alone.
-/

namespace Vtt

open Lib List Nat

/-! ## The list -/

/-- A withdrawal as it is listed. -/
structure BridgeWithdrawalInfo where
  txHash : H256
  blockNumber : BlockNumber
  sender : Address
  token : H256
  amount : Amount
  destinationChain : UInt32
  destinationAddress : Address
  timestamp : Timestamp
deriving DecidableEq

/-- The withdrawal that a transaction of a block asks for. -/
def withdrawalOf [Crypto] (block : Block) (tx : SignedTransaction) : Option BridgeWithdrawalInfo :=
  match tx.payload.action with
  | .bridgeWithdraw token amount destinationChain destinationAddress =>
    some ⟨tx.hash, block.header.number, tx.sender, token, amount, destinationChain,
      destinationAddress, block.header.timestamp⟩
  | _ => none

namespace Chain

variable [Crypto]

/-- How many blocks are scanned below the head. -/
def maxBlockScanDepth : UInt64 := 20000

/-- The canonical blocks that are scanned, from the head down. -/
def scannedBlocks (c : Chain) : List Block :=
  let height := c.height.getD 0
  let min := height.toNat - maxBlockScanDepth.toNat
  ((range' min (height.toNat + 1 - min)).reverse.map UInt64.ofNat).filterMap c.getBlockByNumber

/-- The withdrawals of the scanned blocks, for the relayer. The limit on heavy reads is left out. -/
def getBridgeWithdrawals (c : Chain) : List BridgeWithdrawalInfo :=
  c.scannedBlocks.flatMap fun block => block.transactions.filterMap (withdrawalOf block)

/-! ## What was burned -/

/-- A transaction is on record as one that succeeded. -/
def succeeded (c : Chain) (tx : SignedTransaction) : Bool := (c.getReceipt tx.hash).any (·.success)

/-- The withdrawals of the scanned blocks that were executed with success. -/
def burnedWithdrawals (c : Chain) : List BridgeWithdrawalInfo :=
  c.scannedBlocks.flatMap fun block =>
    (block.transactions.filter c.succeeded).filterMap (withdrawalOf block)

end Chain

/-- What a list of withdrawals takes of a token. -/
def takenOf (token : H256) (withdrawals : List BridgeWithdrawalInfo) : ℕ :=
  (withdrawals.map fun w => if w.token = token then w.amount.raw.toNat else 0).sum

/-- What a list of withdrawals takes of the dollars: all that is not the coin. -/
def dollarsOf (withdrawals : List BridgeWithdrawalInfo) : ℕ :=
  (withdrawals.map fun w => if w.token = .zero then 0 else w.amount.raw.toNat).sum

/-! ## Releases -/

namespace Evm.System

variable {τ : Type} (T : Token τ) (d : Deployment)

/-- The relayer releases an entry of the list: the coin is minted, dollars are paid. -/
def release (s : System τ) (w : BridgeWithdrawalInfo) : Except Revert (System τ) :=
  if w.token = .zero then
    s.releaseWVTT d s.bridge.relayer w.txHash w.destinationAddress w.amount.raw.toNat
  else
    s.releaseUSDT T d s.bridge.relayer w.txHash w.destinationAddress w.amount.raw.toNat

/-- The relayer calls once for every entry of a list; those that were released, and the contracts
afterwards. -/
def releaseAll (s : System τ) :
    List BridgeWithdrawalInfo → List BridgeWithdrawalInfo × System τ
  | [] => ([], s)
  | w :: rest =>
    match s.release T d w with
    | .ok s' => (w :: (releaseAll s' rest).1, (releaseAll s' rest).2)
    | .error _ => releaseAll s rest

/-- The bridge runs and may mint, has released none of the withdrawals, has the dollars for them,
and there is room for the coins. -/
structure Ready (s : System τ) (withdrawals : List BridgeWithdrawalInfo) : Prop where
  running : s.bridge.paused = false
  minter : s.wvtt.bridge = d.bridge
  fresh : ∀ w ∈ withdrawals, w.txHash ∉ s.bridge.processedWithdrawals
  reserve : dollarsOf withdrawals ≤ T.balanceOf s.usdt d.bridge
  supply : s.wvtt.totalSupply + takenOf .zero withdrawals < wordSize
  balances : ∀ account, s.wvtt.balance account + takenOf .zero withdrawals < wordSize

variable {T d} {s : System τ} {w : BridgeWithdrawalInfo} {withdrawals : List BridgeWithdrawalInfo}

/-- What is released is part of the list. -/
theorem releaseAll_sublist (s : System τ) (withdrawals : List BridgeWithdrawalInfo) :
    (s.releaseAll T d withdrawals).1.Sublist withdrawals := by
  induction withdrawals generalizing s with
  | nil => exact .slnil
  | cons w _ ih =>
    unfold releaseAll
    split
    · exact (ih _).cons_cons w
    · exact (ih s).cons w

/-- The hashes of the others are still new after a release. -/
theorem Ready.others (h : s.Ready T d (w :: withdrawals))
    (hnodup : ((w :: withdrawals).map (·.txHash)).Nodup) :
    ∀ w' ∈ withdrawals, w'.txHash ∉ s.bridge.processedWithdrawals.insert w.txHash := by
  intro w' hw' hmem
  rcases Std.ExtTreeSet.mem_insert.1 hmem with heq | hold
  · have same : w.txHash = w'.txHash := Std.LawfulEqOrd.eq_of_compare heq
    exact (nodup_cons.1 hnodup).1 (mem_map.2 ⟨w', hw', same.symm⟩)
  · exact h.fresh w' (mem_cons_of_mem _ hw') hold

/-- A mint by the bridge for which there is room. -/
theorem mint_of_room {coin : WVTT} (target : Address) {amount : ℕ}
    (hbridge : coin.bridge = d.bridge) (hsupply : coin.totalSupply + amount < wordSize)
    (hbalance : coin.balance target + amount < wordSize) :
    coin.mint d.bridge target amount =
      .ok { coin.setBalance target (coin.balance target + amount) with
      totalSupply := coin.totalSupply + amount } := by
  simp only [WVTT.mint, WVTT.onlyBridge, require, checkedAdd, hbridge, if_pos hsupply,
    if_pos hbalance, beq_self_eq_true, if_true]
  rfl

/-- The first of a list of withdrawals is released, and the contracts are ready for the others. -/
theorem Ready.release (hexact : T.Exact) (h : s.Ready T d (w :: withdrawals))
    (hnodup : ((w :: withdrawals).map (·.txHash)).Nodup) :
    ∃ s', s.release T d w = .ok s' ∧ s'.Ready T d withdrawals := by
  have fresh : s.bridge.processedWithdrawals.contains w.txHash = false :=
    Bool.eq_false_iff.2 (h.fresh w mem_cons_self)
  obtain ⟨running, minter, -, reserve, supply, balances⟩ := id h
  simp only [dollarsOf, takenOf, map_cons, sum_cons] at reserve supply balances
  unfold System.release
  by_cases htoken : w.token = .zero
  · -- the coin is minted: what is left to mint fits as before
    simp only [if_pos htoken, Nat.zero_add, ← Nat.add_assoc] at reserve supply balances ⊢
    have hmint := mint_of_room w.destinationAddress minter ((le_add_right _ _).trans_lt supply)
      ((le_add_right _ _).trans_lt (balances _))
    simp only [releaseWVTT, VTTBridge.onlyRelayer, VTTBridge.whenNotPaused, require,
      running, fresh, hmint, beq_self_eq_true, Bool.not_false, if_true]
    refine ⟨_, rfl, rfl, minter, h.others hnodup, reserve, supply, fun account => ?_⟩
    have hbalance := balances account
    show ((s.wvtt.balanceOf.insert w.destinationAddress _)[account]?).getD 0 +
      takenOf .zero withdrawals < _
    rw [get_insert]
    split
    · subst_vars
      exact hbalance
    · exact (Nat.add_le_add_right (le_add_right _ _) _).trans_lt hbalance
  · -- dollars come out of the reserve
    simp only [if_neg htoken, Nat.zero_add] at reserve supply balances ⊢
    have enough : w.amount.raw.toNat ≤ T.balanceOf s.usdt d.bridge :=
      (le_add_right _ _).trans reserve
    obtain ⟨usdt, husdt⟩ : ∃ usdt, T.transfer d.bridge w.destinationAddress _ s.usdt = some usdt :=
      hexact.enough enough
    have hmoved := (hexact.transfer husdt).2 d.bridge
    rw [if_pos rfl] at hmoved
    simp only [releaseUSDT, VTTBridge.onlyRelayer, VTTBridge.whenNotPaused, require,
      running, fresh, husdt, beq_self_eq_true, Bool.not_false, if_true, enough,
      decide_true, usdtResult]
    refine ⟨_, rfl, rfl, minter, h.others hnodup, ?_, supply, balances⟩
    show dollarsOf withdrawals ≤ T.balanceOf usdt d.bridge
    unfold dollarsOf
    omega

/-- Withdrawals with different hashes are all released. -/
theorem releaseAll_of_nodup (hexact : T.Exact) (h : s.Ready T d withdrawals)
    (hnodup : (withdrawals.map (·.txHash)).Nodup) : (s.releaseAll T d withdrawals).1 =
      withdrawals := by
  induction withdrawals generalizing s with
  | nil => rfl
  | cons w _ ih =>
    obtain ⟨_, hrelease, hready⟩ := h.release hexact hnodup
    unfold releaseAll
    rw [hrelease]
    exact congrArg (w :: ·) (ih hready (nodup_cons.1 hnodup).2)

end Evm.System

/-! ## The list and what was burned -/

/-- Leaving entries out of a list changes what it is mapped to, unless nothing comes of them. -/
theorem filterMap_filter_eq_iff {α β : Type} (p : α → Bool) (f : α → Option β) (l : List α) :
    (l.filter p).filterMap f = l.filterMap f ↔ ∀ x ∈ l, (f x).isSome = true → p x = true := by
  induction l with
  | nil => simp
  | cons x l ih =>
    rw [forall_mem_cons, ← ih]
    by_cases hp : p x = true
    · rw [filter_cons_of_pos hp]
      cases hf : f x with
      | none => simp [hf]
      | some => simp [hf, hp]
    · rw [filter_cons_of_neg hp]
      cases hf : f x with
      | none => simp [hf]
      | some =>
        -- the entry is missing on one side
        have short : ((l.filter p).filterMap f).length ≤ (l.filterMap f).length :=
          (filter_sublist.filterMap f).length_le
        rw [filterMap_cons_some hf]
        constructor
        · intro heq
          rw [heq, length_cons] at short
          exact absurd short (not_succ_le_self _)
        · rintro ⟨hsucceeded, -⟩
          exact absurd (hsucceeded rfl) hp

namespace Chain

variable [Crypto]

/-- The transactions of the scanned blocks, each with its block. -/
def scannedTransactions (c : Chain) : List (Block × SignedTransaction) :=
  c.scannedBlocks.flatMap fun block => block.transactions.map fun tx => (block, tx)

/-- The scanned transactions that are withdrawals. -/
def scannedWithdrawals (c : Chain) : List SignedTransaction :=
  (c.scannedTransactions.filter fun e => (withdrawalOf e.1 e.2).isSome).map (·.2)

theorem getBridgeWithdrawals_eq (c : Chain) :
    c.getBridgeWithdrawals = c.scannedTransactions.filterMap fun e => withdrawalOf e.1 e.2 := by
  unfold getBridgeWithdrawals scannedTransactions
  rw [filterMap_flatMap]
  refine congrArg (flatMap · _) ?_
  funext block
  rw [filterMap_map]
  rfl

theorem burnedWithdrawals_eq (c : Chain) : c.burnedWithdrawals =
      (c.scannedTransactions.filter fun e => c.succeeded e.2).filterMap fun e =>
        withdrawalOf e.1 e.2 := by
  unfold burnedWithdrawals scannedTransactions
  rw [filter_flatMap, filterMap_flatMap]
  refine congrArg (flatMap · _) ?_
  funext block
  rw [filter_map, filterMap_map]
  rfl

/-- The hash of a listed withdrawal is that of its transaction. -/
theorem map_txHash (c : Chain) : c.getBridgeWithdrawals.map (·.txHash) = c.scannedWithdrawals.map
    (·.hash) := by
  rw [getBridgeWithdrawals_eq, scannedWithdrawals]
  induction c.scannedTransactions with
  | nil => rfl
  | cons e _ ih =>
    cases hw : withdrawalOf e.1 e.2 with
    | none => simpa [filterMap_cons, hw] using ih
    | some w =>
      have hash : w.txHash = e.2.hash := by
        unfold withdrawalOf at hw
        split at hw
        · cases hw
          rfl
        · cases hw
      simpa [filterMap_cons, hw, hash] using ih

/-- The list is exactly what was burned, under different hashes; and if every entry is released
once, by contracts that are ready for them and with a token of exact transfers, then all that was
burned is released. Not more of any token is released in any case. -/
structure WithdrawalsReal (c : Chain) : Prop where
  exact : c.getBridgeWithdrawals = c.burnedWithdrawals
  distinct : (c.getBridgeWithdrawals.map (·.txHash)).Nodup
  released : ∀ {τ : Type} {T : Evm.Token τ} {d : Evm.Deployment} {s : Evm.System τ}, T.Exact →
    s.Ready T d c.getBridgeWithdrawals →
    (s.releaseAll T d c.getBridgeWithdrawals).1 = c.burnedWithdrawals
  covered : ∀ {τ : Type} (T : Evm.Token τ) (d : Evm.Deployment) (s : Evm.System τ) (token : H256),
    takenOf token (s.releaseAll T d c.getBridgeWithdrawals).1 ≤ takenOf token c.burnedWithdrawals

/-- The list is real if no withdrawal in the scanned blocks failed and no two of them have the same
payload. -/
theorem withdrawalsReal_iff (c : Chain) : c.WithdrawalsReal ↔
      (∀ tx ∈ c.scannedWithdrawals, c.succeeded tx = true) ∧
      (c.scannedWithdrawals.map (·.hash)).Nodup := by
  have listed : c.getBridgeWithdrawals = c.burnedWithdrawals ↔ ∀ tx ∈ c.scannedWithdrawals,
      c.succeeded tx = true := by
    rw [getBridgeWithdrawals_eq, burnedWithdrawals_eq, eq_comm, filterMap_filter_eq_iff]
    unfold scannedWithdrawals
    rw [forall_mem_map]
    simp only [mem_filter, and_imp]
  constructor
  · intro h
    exact ⟨listed.1 h.exact, map_txHash c ▸ h.distinct⟩
  · rintro ⟨hsucceeded, hnodup⟩
    have hlist := listed.2 hsucceeded
    rw [← map_txHash] at hnodup
    refine ⟨hlist, hnodup, fun hexact hready => ?_, fun T d s token => ?_⟩
    · rw [Evm.System.releaseAll_of_nodup hexact hready hnodup, hlist]
    · rw [← hlist]
      exact ((s.releaseAll_sublist _).map _).sum_le_sum fun _ _ => Nat.zero_le _

end Chain

/-! ## A withdrawal that failed -/

namespace Demo

open Chain

/-- The validator withdraws more than there is. -/
def overdrawn : SignedTransaction := firstTransaction
    (.bridgeWithdraw .zero (.fromVtt 2000000) 1 ⟨7⟩)

/-- A first block with that transaction. -/
def overdrawnBlock (genesis : BlockHeader) : Block :=
  firstBlockWith genesis [overdrawn] 50000 .zero
    ⟨69371443429632383540349233370400192035955623139705658168694795682299434398404⟩

/-- The withdrawal fails, and is listed. -/
theorem overdrawn_listed :
    ∃ genesis c c' header, StartedFresh genesis c ∧
      importAll 0 c [overdrawnBlock header] = some c' ∧
      (c'.getReceipt overdrawn.hash).map (·.success) = some false ∧
      c'.getBridgeWithdrawals.map (·.txHash) = [overdrawn.hash] ∧ ¬ c'.WithdrawalsReal := by
  obtain ⟨⟨c, header, c'⟩, heval, hcheck⟩ :
      ∃ e, (storedStart.bind fun c => c.head.bind fun header =>
        (importAll 0 c [overdrawnBlock header]).map fun c' => (c, header, c')) = some e ∧
          ((e.2.2.getReceipt overdrawn.hash).map (·.success) = some false &&
          e.2.2.getBridgeWithdrawals.map (·.txHash) = [overdrawn.hash] &&
          e.2.2.burnedWithdrawals = []) = true := (Option.any_eq_true ..).1 (by decide +kernel)
  obtain ⟨c₀, hstart, hrest⟩ := Option.bind_eq_some_iff.1 heval
  obtain ⟨header₀, -, hlast⟩ := Option.bind_eq_some_iff.1 hrest
  obtain ⟨c₁, himport, heq⟩ := Option.map_eq_some_iff.1 hlast
  obtain ⟨rfl, rfl, rfl⟩ : c₀ = c ∧ header₀ = header ∧ c₁ = c' := by simpa using heq
  obtain ⟨genesis, hgenesis⟩ := storedStart_started hstart
  simp only [Bool.and_eq_true, decide_eq_true_eq] at hcheck
  obtain ⟨⟨hreceipt, hlisted⟩, hburned⟩ := hcheck
  refine ⟨genesis, c₀, c₁, header₀, hgenesis, himport, hreceipt, hlisted, fun h => ?_⟩
  rw [h.exact, hburned] at hlisted
  cases hlisted

end Demo

end Vtt
