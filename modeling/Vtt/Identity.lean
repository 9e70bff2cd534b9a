import Vtt.Chain.Lookup
import Vtt.Executor.Ballot

/-!
# Identities of transactions

A transaction goes by the hash of its payload: in the pool, in the index of the chain and for its
receipt. Transactions of different senders with equal payloads are therefore one and the same to the
pool, which refuses the second. A header names the transactions of its block by the Merkle root of
their hashes, which does not tell two hashes from their inner node.
-/

namespace Vtt

open Lib Std Exec List TxPool Option

/-! ## The pool -/

section Identities

variable [Crypto]

namespace TxPool

/-- A transaction is new to a pool that has room for it, and pays enough. -/
structure HasRoom (pool : TxPool) (tx : SignedTransaction) (accountNonce : UInt64) : Prop where
  new : pool.known.contains tx.hash = false
  price : pool.config.minGasPrice ≤ tx.payload.gasPrice
  nonce : accountNonce ≤ tx.payload.nonce
  slot : (pool.queue tx.sender)[tx.payload.nonce]? = none
  queue : (pool.queue tx.sender).size < pool.config.maxPerAccount
  size : pool.byHash.size < pool.config.maxSize

variable {pool : TxPool} {tx tx' : SignedTransaction} {accountNonce : UInt64}

/-- The pool after a transaction for which it had room. -/
def added (pool : TxPool) (tx : SignedTransaction) (now : ℕ) : TxPool :=
  { pool with bySender := pool.bySender.insert tx.sender (pool.queue tx.sender) }.insert
    tx tx.sender now

omit [Crypto] in
theorem queue_insert (sender sender' : Address) (queue : FinMap UInt64 H256) :
    { pool with bySender := pool.bySender.insert sender queue }.queue sender' =
      if sender = sender' then queue else pool.queue sender' := by
  unfold TxPool.queue
  rw [get_insert]
  split
  · rfl
  · rfl

/-- A transaction for which there is room is taken. -/
theorem add_of_hasRoom (h : pool.HasRoom tx accountNonce) (now : ℕ) :
    (add tx tx.sender accountNonce now).run pool = some (.ok tx.hash, pool.added tx now) := by
  have nothing : pool.pending tx.sender tx.payload.nonce = none := by
    have slot := h.slot
    unfold queue at slot
    unfold pending
    cases hqueue : pool.bySender[tx.sender]? with
    | none => rfl
    | some =>
      rw [hqueue, getD_some] at slot
      simp only [bind_eq_bind, bind_some, slot, bind_none]
  have replaced : (replaceByFee tx tx.sender).run pool = some (.ok (), pool) := by
    unfold replaceByFee
    rw [run_view_bind, nothing]
    rfl
  have roomy : (makeRoom tx).run pool = some (.ok (), pool) := by
    unfold makeRoom
    rw [run_view_bind, id_eq, if_neg (Nat.not_le.2 h.size)]
    rfl
  have queued : (makeRoomFor tx tx.sender).run pool =
      some (.ok (),
      { pool with bySender := pool.bySender.insert tx.sender (pool.queue tx.sender) }) := by
    have room := Nat.not_le.2 h.queue
    unfold makeRoomFor
    rw [run_update_bind, run_view_bind, id_eq, queue_insert, if_pos rfl, if_neg room]
    rfl
  unfold add
  rw [run_view_bind, h.new, Bool.not_false, run_bind_of_ok (run_require_pos _ rfl), run_view_bind,
    run_bind_of_ok (run_require_pos _ h.price), run_bind_of_ok (run_require_pos _ h.nonce),
    run_bind_of_ok replaced, run_bind_of_ok roomy, run_bind_of_ok queued, run_update_bind]
  rfl

/-- The second of two transactions with one hash is refused. -/
theorem add_of_known (h : pool.known.contains tx.hash = true) (now : ℕ) :
    (add tx tx.sender accountNonce now).run pool =
      some (.error (.alreadyExists tx.hash), pool) := by
  unfold add
  rw [run_view_bind, h]
  rfl

/-- There is still room for a transaction of another sender with another hash. -/
theorem HasRoom.added (h : pool.HasRoom tx accountNonce) (hhash : tx'.hash ≠ tx.hash)
    (hsender : tx'.sender ≠ tx.sender) (hsize : pool.byHash.size + 1 < pool.config.maxSize)
    (now : ℕ) :
    (pool.added tx' now).HasRoom tx accountNonce := by
  have same : (pool.added tx' now).queue tx.sender = pool.queue tx.sender := by
    unfold TxPool.added TxPool.insert TxPool.queue
    rw [get_insert, if_neg hsender, get_insert, if_neg hsender]
  refine ⟨?_, h.price, h.nonce, same ▸ h.slot, same ▸ h.queue, ?_⟩
  · show (pool.known.insert tx'.hash).contains tx.hash = false
    rw [ExtTreeSet.contains_insert, h.new, Bool.or_false]
    exact beq_eq_false_iff_ne.2 fun heq => hhash (LawfulEqOrd.eq_of_compare heq)
  · exact ExtTreeMap.size_insert_le.trans_lt hsize

end TxPool

/-! ## The pool and the chain -/

variable [Wasm] [Environment] {tx₁ tx₂ : SignedTransaction}

open Chain

/-- Two transactions do not get into each other's way. A pool that has room for both takes both; and
after imports on a chain with a store, what is on record of each is its own, if no third transaction
has the hash of one of them and the receipts can be read back. -/
structure OwnIdentities (tx₁ tx₂ : SignedTransaction) : Prop where
  pool : ∀ (pool : TxPool) nonce₁ nonce₂ now₁ now₂, pool.HasRoom tx₁ nonce₁ →
    pool.HasRoom tx₂ nonce₂ → pool.byHash.size + 1 < pool.config.maxSize →
      ∃ hash₁ pool₁ hash₂ pool₂, (TxPool.add tx₁ tx₁.sender nonce₁ now₁).run pool =
        some (.ok hash₁, pool₁) ∧
        (TxPool.add tx₂ tx₂.sender nonce₂ now₂).run pool₁ = some (.ok hash₂, pool₂)
  lookup : ∀ (c c' : Chain) calls, c.Stores → Run ImportCall c calls c' →
    (∀ e ∈ acceptedBlocks calls, ∀ tx ∈ e.1.transactions,
      tx.hash = tx₁.hash ∨ tx.hash = tx₂.hash → tx = tx₁ ∨ tx = tx₂) →
    (∀ e ∈ acceptedBlocks calls, ∀ r ∈ e.2, Borsh.Fits r) → ∀ tx, tx = tx₁ ∨ tx = tx₂ →
      (∀ e ∈ acceptedBlocks calls, tx ∈ e.1.transactions → ∃ e ∈ acceptedBlocks calls, ∃ i : ℕ,
        e.1.transactions[i]? = some tx ∧ c'.getTxLocation tx.hash = some (e.1.header.number,
        UInt32.ofNat i)) ∧
      ∀ e ∈ acceptedBlocks calls, ∀ (i : ℕ) r, e.1.transactions[i]? = some tx → e.2[i]? = some r →
        ∃ e ∈ acceptedBlocks calls, ∃ (i : ℕ) (r : TransactionReceipt),
          e.1.transactions[i]? = some tx ∧ e.2[i]? = some r ∧ c'.getReceipt tx.hash = some r

/-- A pool with room for two transactions takes one of two with equal payloads. -/
theorem not_ownIdentities_of_payload (h : tx₁.payloadBytes = tx₂.payloadBytes) :
    ¬ OwnIdentities tx₁ tx₂ := by
  intro own
  have hash : tx₁.hash = tx₂.hash := congrArg blake3Hash h
  have room : ∀ tx : SignedTransaction, (new ⟨2, 1, .zero, 0⟩).HasRoom tx 0 := by
    intro tx
    have empty : (new ⟨2, 1, .zero, 0⟩).queue tx.sender = ∅ := by
      unfold TxPool.queue TxPool.new
      rfl
    refine ⟨ExtTreeSet.contains_empty, Nat.zero_le _, Nat.zero_le _, ?_, ?_, by decide⟩
    · exact ExtTreeMap.getElem?_empty
    · rw [empty]
      decide
  obtain ⟨_, _, _, _, hfirst, hsecond⟩ := own.pool _ 0 0 0 0 (room tx₁) (room tx₂) (by decide)
  rw [add_of_hasRoom (room tx₁)] at hfirst
  cases hfirst
  rw [add_of_known] at hsecond
  · cases hsecond
  · show (ExtTreeSet.insert _ tx₁.hash).contains tx₂.hash = true
    rw [hash]
    exact ExtTreeSet.contains_insert_self

omit [Wasm] [Environment] in
/-- What is on record of a transaction after imports, if it is its own. -/
theorem lookup_of_found {c : Chain} {tx : SignedTransaction}
    {blocks : List (Block × List TransactionReceipt)} (hstores : c.Stores)
    (hfits : ∀ e ∈ blocks, ∀ r ∈ e.2, Borsh.Fits r) (h : Found tx c blocks) :
    (∀ e ∈ blocks, tx ∈ e.1.transactions → ∃ e ∈ blocks, ∃ i : ℕ, e.1.transactions[i]? = some tx ∧
        c.getTxLocation tx.hash = some (e.1.header.number, UInt32.ofNat i)) ∧
      ∀ e ∈ blocks, ∀ (i : ℕ) r, e.1.transactions[i]? = some tx → e.2[i]? = some r →
        ∃ e ∈ blocks, ∃ (i : ℕ) (r : TransactionReceipt),
          e.1.transactions[i]? = some tx ∧ e.2[i]? = some r ∧ c.getReceipt tx.hash = some r := by
  constructor
  · intro e he htx
    obtain ⟨e', he', i, hi, hread⟩ := h.place e he htx
    exact ⟨e', he', i, hi, getTxLocation_of_place hstores.1 hread⟩
  · intro e he i r hi hr
    obtain ⟨e', he', j, r', hj, hr', hread⟩ := h.receipt e he i r hi hr
    refine ⟨e', he', j, r', hj, hr', ?_⟩
    unfold getReceipt
    rw [if_pos hstores.1, hread]
    exact Borsh.tryFromSlice_serialize r' (hfits e' he' r' (mem_of_getElem? hr'))

/-- Two transactions of different senders have identities of their own exactly if their payloads
differ, if the hash function has no collisions on the payloads and on the keys. -/
theorem ownIdentities_iff (hkeys : tx₁.publicKey ≠ tx₂.publicKey)
    (haddress : tx₁.sender = tx₂.sender → tx₁.publicKey = tx₂.publicKey)
    (hcollision : tx₁.hash = tx₂.hash → tx₁.payloadBytes = tx₂.payloadBytes) :
    OwnIdentities tx₁ tx₂ ↔ tx₁.payloadBytes ≠ tx₂.payloadBytes := by
  constructor
  · exact fun own heq => not_ownIdentities_of_payload heq own
  · intro hpayload
    have hsender : tx₁.sender ≠ tx₂.sender := fun heq => hkeys (haddress heq)
    have hhash : tx₁.hash ≠ tx₂.hash := fun heq => hpayload (hcollision heq)
    constructor
    · intro _ _ _ now₁ now₂ room₁ room₂ hsize
      exact ⟨_, _, _, _, TxPool.add_of_hasRoom room₁ now₁,
        TxPool.add_of_hasRoom (room₂.added hhash hsender hsize now₁) now₂⟩
    · intro _ _ calls hstores hrun hthird hfits tx htx
      have hown : ∀ e ∈ acceptedBlocks calls, ∀ tx' ∈ e.1.transactions, tx'.hash = tx.hash →
          tx' = tx := by
        intro e he tx' htx' heq
        rcases htx with rfl | rfl
        · rcases hthird e he tx' htx' (.inl heq) with rfl | rfl
          · rfl
          · exact absurd heq.symm hhash
        · rcases hthird e he tx' htx' (.inr heq) with rfl | rfl
          · exact absurd heq hhash
          · rfl
      obtain ⟨hstores', found⟩ := found_of_run hrun hstores hown
      exact lookup_of_found hstores' hfits found

end Identities

/-! ## Merkle roots -/

section MerkleRoots

variable [Crypto] {xs ys : List H256}

/-- What is hashed for one level of the tree. -/
def levelInputs : List H256 → List Bytes
  | a :: b :: rest => (a.asBytes ++ b.asBytes) :: levelInputs rest
  | _ => []

/-- What is hashed for so many levels. -/
def climbInputs : ℕ → List H256 → List Bytes
  | 0, _ => []
  | rounds + 1, hashes => levelInputs hashes ++ climbInputs rounds (merkleLevel hashes)

/-- No input of the first list has the hash of another one of the second. -/
def NoCollision (inputs inputs' : List Bytes) : Prop := ∀ p ∈ inputs, ∀ q ∈ inputs', blake3Hash p =
    blake3Hash q → p = q

theorem length_merkleLevel (xs : List H256) : (merkleLevel xs).length = (xs.length + 1) / 2 := by
  induction xs using merkleLevel.induct with
  | case1 a b rest ih =>
    rw [merkleLevel, length_cons, ih, length_cons, length_cons]
    omega
  | case2 | case3 => simp [merkleLevel]

/-- A level determines the one below, if the number of hashes there is known. -/
theorem eq_of_merkleLevel (hlength : xs.length = ys.length)
    (hfree : NoCollision (levelInputs xs) (levelInputs ys))
    (hlevel : merkleLevel xs = merkleLevel ys) : xs = ys := by
  induction xs using merkleLevel.induct generalizing ys with
  | case1 a b rest ih =>
    obtain _ | ⟨a', _ | ⟨b', rest'⟩⟩ := ys
    · cases hlength
    · simp at hlength
    simp only [merkleLevel, cons.injEq] at hlevel
    obtain ⟨ha, hb⟩ :=
      append_inj (hfree _ (mem_cons_self ..) _ (mem_cons_self ..) hlevel.1) (by simp)
    rw [H256.asBytes_injective ha, H256.asBytes_injective hb, ih (by simpa using hlength)
      (fun p hp q hq => hfree p (mem_cons_of_mem _ hp) q (mem_cons_of_mem _ hq)) hlevel.2]
  | case2 =>
    obtain ⟨_, rfl⟩ := length_eq_one_iff.1 hlength.symm
    simpa [merkleLevel] using hlevel
  | case3 => exact (length_eq_zero_iff.1 hlength.symm).symm

theorem eq_of_merkleClimb {rounds : ℕ} (hrounds : xs.length ≤ rounds + 1)
    (hlength : xs.length = ys.length)
    (hfree : NoCollision (climbInputs rounds xs) (climbInputs rounds ys))
    (hroot : merkleClimb rounds xs = merkleClimb rounds ys) : xs = ys := by
  induction rounds generalizing xs ys with
  | zero =>
    obtain _ | ⟨x, _ | _⟩ := xs
    · exact (length_eq_zero_iff.1 hlength.symm).symm
    · obtain ⟨_, rfl⟩ := length_eq_one_iff.1 hlength.symm
      exact congrArg ([·]) hroot
    · simp at hrounds
  | succ rounds ih =>
    have hclimb (zs : List H256) :
        merkleClimb (rounds + 1) zs = merkleClimb rounds (merkleLevel zs) := by
      obtain _ | ⟨_, _ | _⟩ := zs
      case cons.cons => rfl
      -- a single hash stays as it is
      all_goals cases rounds <;> simp [merkleLevel, merkleClimb]
    rw [hclimb, hclimb] at hroot
    refine eq_of_merkleLevel hlength
      (fun p hp q hq => hfree p (mem_append_left _ hp) q (mem_append_left _ hq))
      (ih ?_ ?_ (fun p hp q hq => hfree p (mem_append_right _ hp) q (mem_append_right _ hq)) hroot)
    · rw [length_merkleLevel]
      omega
    · rw [length_merkleLevel, length_merkleLevel, hlength]

/-- Two lists with the same root, for which no collision was hashed, are equal exactly if they have
the same length. -/
theorem merkleRoot_binds_iff
    (hfree : NoCollision (climbInputs xs.length xs) (climbInputs ys.length ys))
    (hroot : merkleRoot xs = merkleRoot ys) : xs = ys ↔ xs.length = ys.length := by
  refine ⟨congrArg _, fun hlength => ?_⟩
  unfold merkleRoot at hroot
  rw [← hlength] at hfree hroot
  exact eq_of_merkleClimb (Nat.le_succ _) hlength hfree hroot

end MerkleRoots

/-! ## On the small chain -/

namespace Demo

/-- A transfer by the stranger with the payload of the one by the validator. -/
def twin : SignedTransaction :=
  ⟨transfer.payload, stranger.sign transfer.payloadBytes, stranger.publicKey⟩

/-- Both transfers are signed by their senders, and the pool takes the first only. -/
theorem twin_refused : transfer.publicKey ≠ twin.publicKey ∧
      verify transfer.payloadBytes transfer.signature transfer.publicKey = true ∧
      verify twin.payloadBytes twin.signature twin.publicKey = true ∧
      (∃ pool, (TxPool.add transfer transfer.sender 0 0).run .empty = some (.ok transfer.hash,
      pool) ∧
        (TxPool.add twin twin.sender 0 0).run pool = some (.error (.alreadyExists twin.hash),
        pool)) ∧
      ¬ OwnIdentities transfer twin := by
  obtain ⟨⟨result, pool⟩, hfirst, hcheck⟩ :
      ∃ outcome, (TxPool.add transfer transfer.sender 0 0).run .empty = some outcome ∧
      (outcome.1 = .ok transfer.hash && outcome.2.known.contains twin.hash) = true :=
    (Option.any_eq_true ..).1 (by decide +kernel)
  obtain ⟨hok, hknown⟩ := Bool.and_eq_true_iff.1 hcheck
  obtain rfl : result = .ok transfer.hash := of_decide_eq_true hok
  exact ⟨by decide +kernel, by decide +kernel, by decide +kernel,
    ⟨pool, hfirst, TxPool.add_of_known hknown 0⟩, not_ownIdentities_of_payload (by decide +kernel)⟩

/-- A transfer of another amount by the stranger does not collide. -/
theorem transfers_own_identities : OwnIdentities transfer
    (strange 0 (.transfer ⟨7⟩ (.fromVtt 2))) :=
  (ownIdentities_iff (by decide +kernel) (fun h => absurd h (by decide +kernel))
    fun h => absurd h (by decide +kernel)).2 (by decide +kernel)

/-- Two hashes and their inner node alone have one root. -/
theorem inner_node_ambiguous : let xs : List H256 := [.zero, .zero]; let ys := [merkleRoot xs]
    NoCollision (climbInputs xs.length xs) (climbInputs ys.length ys) ∧
      merkleRoot xs = merkleRoot ys ∧ xs ≠ ys := by
  have single (h : H256) : merkleRoot [h] = h := rfl
  exact ⟨by simp [NoCollision, climbInputs, levelInputs], (single _).symm, by simp⟩

theorem pair_bound : ([.zero, .zero] : List H256) = [.zero, .zero] :=
  (merkleRoot_binds_iff (by simp [NoCollision, climbInputs, levelInputs, merkleLevel]) rfl).2 rfl

end Demo

end Vtt
