import Vtt.Demo

/-!
# Refused transactions

A transaction may replace a pending one and evict another one before the queue of its sender is
looked at. If it is refused there, what it replaced or evicted stays out of the pool.
-/

namespace Vtt

open Lib Exec Std ExtTreeMap Option

namespace TxPool

variable {pool pool' : TxPool} {tx : SignedTransaction} {sender : Address} {hash : H256}
  {cheapest : Option (H256 × Amount)} {max now : ℕ} {r : Except TxPoolError Unit} {e : TxPoolError}

variable {found : H256 × Amount}

/-- The pending transactions, the queues and the known hashes are the same. -/
structure SamePending (pool pool' : TxPool) : Prop where
  byHash : pool'.byHash = pool.byHash
  bySender : pool'.bySender = pool.bySender
  known : pool'.known = pool.known

/-- A transaction pays more than the cheapest one. -/
def Displaces (cheapest : Option (H256 × Amount)) (tx : SignedTransaction) : Prop :=
  ∃ found, cheapest = some found ∧ found.2 < tx.payload.gasPrice

theorem byHash_evict : (pool.evict hash).byHash = pool.byHash.erase hash := by
  unfold evict remove
  split
  · rename_i hnone
    apply ext_getElem?
    intro _
    rw [get_erase]
    split
    · rename_i heq
      rw [← heq, hnone]
    · rfl
  · rfl

theorem not_mem_evict (pool : TxPool) (hash : H256) : hash ∉ (pool.evict hash).byHash := by
  rw [byHash_evict]
  simp

theorem evictCheaper_cases (h : (evictCheaper tx cheapest max).run pool = some (r, pool')) :
    (r = .ok () ∧ ∃ found, cheapest = some found ∧ found.2 < tx.payload.gasPrice ∧
      pool' = pool.evict found.1) ∨
      (r = .error (.poolFull max) ∧ pool' = pool ∧ ¬ Displaces cheapest tx) := by
  unfold evictCheaper at h
  cases cheapest with
  | none =>
    cases h
    exact .inr ⟨rfl, rfl, fun hd => by cases hd.choose_spec.1⟩
  | some found =>
    simp only [run_require_bind, run_update] at h
    split at h
    · cases h
      exact .inl ⟨rfl, found, rfl, ‹_›, rfl⟩
    · rename_i hnot
      cases h
      refine .inr ⟨rfl, rfl, ?_⟩
      rintro ⟨_, ⟨⟩, hless⟩
      exact hnot hless

/-- Making room brings nothing into the pool. -/
theorem not_mem_of_evictIf {full : Prop} [Decidable full]
    (h : (if full then evictCheaper tx cheapest max else pure ()).run pool = some (r, pool'))
    (hout : hash ∉ pool.byHash) : hash ∉ pool'.byHash := by
  split at h
  · rcases evictCheaper_cases h with ⟨-, _, -, -, rfl⟩ | ⟨-, rfl, -⟩
    · rw [byHash_evict]
      exact fun hmem => hout (mem_of_mem_erase hmem)
    · exact hout
  · cases h
    exact hout

theorem not_mem_of_makeRoom (h : (makeRoom tx).run pool = some (r, pool'))
    (hout : hash ∉ pool.byHash) :
    hash ∉ pool'.byHash := by
  unfold makeRoom at h
  exact not_mem_of_evictIf h hout

theorem not_mem_of_makeRoomFor (h : (makeRoomFor tx sender).run pool = some (r, pool'))
    (hout : hash ∉ pool.byHash) :
    hash ∉ pool'.byHash := by
  unfold makeRoomFor at h
  exact not_mem_of_evictIf h hout

/-- If the queue of the sender has no room, at most the queue was made. -/
theorem error_of_makeRoomFor (h : (makeRoomFor tx sender).run pool = some (.error e, pool')) :
    pool' = { pool with bySender := pool.bySender.insert sender (pool.queue sender) } := by
  unfold makeRoomFor at h
  rw [run_update_bind, run_view_bind] at h
  split at h
  · rcases evictCheaper_cases h with ⟨hok, -⟩ | ⟨-, rfl, -⟩
    · cases hok
    · rfl
  · cases h

theorem samePending_makeQueue_iff : SamePending pool
    { pool with bySender := pool.bySender.insert sender (pool.queue sender) } ↔
      sender ∈ pool.bySender := by
  constructor
  · intro h
    rw [← h.bySender]
    exact mem_insert_self
  · intro hmem
    obtain ⟨_, hqueue⟩ := isSome_iff_exists.1 (mem_iff_isSome_getElem?.1 hmem)
    refine ⟨rfl, insert_eq_self ?_, rfl⟩
    rw [queue, hqueue, getD_some]

theorem not_samePending (hmem : hash ∈ pool.byHash) (hout : hash ∉ pool'.byHash) :
    ¬ SamePending pool pool' :=
  fun h => hout (h.byHash ▸ hmem)

theorem mem_of_cheapestOf {entries : List (H256 × Amount)} (h : cheapestOf entries = some found) :
    found ∈ entries := by
  induction entries generalizing found with
  | nil => cases h
  | cons _ _ ih =>
    unfold cheapestOf at h
    split at h
    · cases h
      exact List.mem_cons_self
    · rename_i hbest
      split at h
      · cases h
        exact List.mem_cons_of_mem _ (ih hbest)
      · cases h
        exact List.mem_cons_self

theorem mem_of_cheapestTx (h : pool.cheapestTx = some found) : found.1 ∈ pool.byHash := by
  obtain ⟨_, hentry, rfl⟩ := List.mem_map.1 (mem_of_cheapestOf h)
  exact mem_of_get (mem_toList_iff_getElem?_eq_some.1 hentry)

theorem mem_of_pending {nonce : UInt64} {found : H256 × PoolEntry}
    (h : pool.pending sender nonce = some found) :
    found.1 ∈ pool.byHash := by
  obtain ⟨_, -, h⟩ := bind_eq_some_iff.1 h
  obtain ⟨_, -, h⟩ := bind_eq_some_iff.1 h
  obtain ⟨_, hentry, h⟩ := bind_eq_some_iff.1 h
  cases h
  exact mem_of_get hentry

variable [Crypto] {accountNonce : UInt64}

/-- A transaction is not refused for its hash, its gas price or its nonce. -/
def Passes (pool : TxPool) (tx : SignedTransaction) (accountNonce : UInt64) : Prop :=
  (!pool.known.contains tx.hash) = true ∧ pool.config.minGasPrice ≤ tx.payload.gasPrice ∧
    accountNonce ≤ tx.payload.nonce

/-- If a transaction is refused, then before the pool is changed: for itself, for a pending one that
pays as much, in a full pool without a cheaper one, or in the queue that its sender has. -/
def RefusesAtOnce (pool : TxPool) (tx : SignedTransaction) (sender : Address)
    (accountNonce : UInt64) : Prop :=
  pool.Passes tx accountNonce →
    match pool.pending sender tx.payload.nonce with
    | some found => ¬ found.2.tx.payload.gasPrice < tx.payload.gasPrice
    | none =>
      if pool.config.maxSize ≤ pool.byHash.size then ¬ Displaces pool.cheapestTx tx
        else sender ∈ pool.bySender

/-- A transaction that is refused leaves the pool alone exactly if it is refused before the pool is
changed. -/
theorem refused_unchanged_iff
    (h : (add tx sender accountNonce now).run pool = some (.error e, pool')) :
    SamePending pool pool' ↔ pool.RefusesAtOnce tx sender accountNonce := by
  have same : SamePending pool pool := ⟨rfl, rfl, rfl⟩
  unfold add at h
  simp only [run_view_bind, run_require_bind] at h
  by_cases hpasses : pool.Passes tx accountNonce
  · rw [if_pos hpasses.1, if_pos hpasses.2.1, if_pos hpasses.2.2] at h
    rw [RefusesAtOnce, forall_prop_of_true hpasses]
    -- a hash that is out of the pool when the queue is looked at stays out
    have stays {p : TxPool} {hash : H256} (hout : hash ∉ p.byHash)
        (h : (makeRoomFor tx sender >>= fun _ => update (·.insert tx sender now) >>= fun _ =>
        pure tx.hash).run p = some (.error e, pool')) :
        hash ∉ pool'.byHash := by
      obtain hfull | ⟨_, p₁, -, h⟩ := run_bind_error h
      · exact not_mem_of_makeRoomFor hfull hout
      · cases h
    cases hpending : pool.pending sender tx.payload.nonce with
    | some found =>
      have replaced : (replaceByFee tx sender).run pool =
          if found.2.tx.payload.gasPrice < tx.payload.gasPrice then some (.ok (),
          pool.evict found.1)
          else some (.error (.gasPriceTooLow tx.payload.gasPrice found.2.tx.payload.gasPrice),
            pool) := by
        unfold replaceByFee
        rw [run_view_bind, hpending]
        exact run_require_bind
      split at replaced
      · rename_i hmore
        rw [run_bind_of_ok replaced] at h
        refine iff_of_false (not_samePending (mem_of_pending hpending) ?_) (not_not.2 hmore)
        obtain hfull | ⟨_, p₁, hroom, h⟩ := run_bind_error h
        · exact not_mem_of_makeRoom hfull (not_mem_evict _ _)
        · exact stays (not_mem_of_makeRoom hroom (not_mem_evict _ _)) h
      · rename_i hless
        rw [run_bind_of_error replaced] at h
        cases h
        exact iff_of_true same hless
    | none =>
      have kept : (replaceByFee tx sender).run pool = some (.ok (), pool) := by
        unfold replaceByFee
        rw [run_view_bind, hpending]
        rfl
      have room : (makeRoom tx).run pool = if pool.config.maxSize ≤ pool.byHash.size then
          (evictCheaper tx pool.cheapestTx pool.config.maxSize).run pool
            else some (.ok (), pool) := by
        unfold makeRoom
        exact apply_ite (run · pool) ..
      rw [run_bind_of_ok kept] at h
      split at room
      · rename_i hfull
        rw [if_pos hfull]
        obtain hfirst | ⟨_, p₁, hfirst, h⟩ := run_bind_error h
        · rcases evictCheaper_cases (room ▸ hfirst) with ⟨hok, -⟩ | ⟨-, rfl, hnot⟩
          · cases hok
          · exact iff_of_true same hnot
        · rcases evictCheaper_cases (room ▸ hfirst) with ⟨-, found, hfound, hless,
            rfl⟩ | ⟨herror, -⟩
          · refine iff_of_false (not_samePending (mem_of_cheapestTx hfound) ?_)
              (not_not.2 ⟨found, hfound, hless⟩)
            exact stays (not_mem_evict _ _) h
          · cases herror
      · rename_i hnot
        rw [if_neg hnot]
        rw [run_bind_of_ok room] at h
        obtain hqueue | ⟨_, _, -, h⟩ := run_bind_error h
        · rw [error_of_makeRoomFor hqueue]
          exact samePending_makeQueue_iff
        · cases h
  · have unchanged : pool' = pool := by
      split_ifs at h with hnew hprice hnonce
      · exact absurd ⟨hnew, hprice, hnonce⟩ hpasses
      all_goals
        cases h
        rfl
    exact iff_of_true (unchanged ▸ same) fun h => absurd h hpasses

end TxPool

namespace Demo

open TxPool

/-- The transfer under a nonce and with a gas price. -/
def priced (nonce : UInt64) (gasPrice : Amount) : SignedTransaction :=
  { transfer with payload := { transfer.payload with nonce, gasPrice } }

/-- A pool with room for two transactions and for one of each sender, with an expensive and a cheap
one. -/
def crowded : TxPool := ((new ⟨2, 1, .zero, 0⟩).insert (priced 0 ⟨5⟩) ⟨1⟩ 0).insert
    (priced 1 ⟨1⟩) ⟨2⟩ 0

theorem exists_refused (tx : SignedTransaction) (check : TxPool → Bool)
    (h : ((add tx ⟨1⟩ 0 0).run crowded).any (fun
      | (.error _, pool) => check pool
      | _ => false) = true) :
    ∃ e pool, (add tx ⟨1⟩ 0 0).run crowded = some (.error e, pool) ∧ check pool = true := by
  obtain ⟨⟨result, pool⟩, hrun, h⟩ := (any_eq_true ..).1 h
  cases result with
  | ok => cases h
  | error e => exact ⟨e, pool, hrun, h⟩

/-- The expensive transaction again. -/
theorem known_refused : ∃ e pool, (add (priced 0 ⟨5⟩) ⟨1⟩ 0 0).run crowded = some (.error e, pool) ∧
    SamePending crowded pool := by
  obtain ⟨e, pool, hrun, -⟩ := exists_refused (priced 0 ⟨5⟩) (fun _ => true) (by decide +kernel)
  have hknown : crowded.known.contains (priced 0 ⟨5⟩).hash = true := by decide +kernel
  refine ⟨e, pool, hrun, (refused_unchanged_iff hrun).2 fun h => ?_⟩
  have hnew := h.1
  rw [hknown] at hnew
  cases hnew

/-- A second transaction of the first sender evicts the cheap one, and is refused in the queue of
its sender. -/
theorem refused_evicts : ∃ e pool, (add (priced 1 ⟨3⟩) ⟨1⟩ 0 0).run crowded =
    some (.error e, pool) ∧
    ¬ SamePending crowded pool := by
  obtain ⟨e, pool, hrun, hcheck⟩ := exists_refused (priced 1 ⟨3⟩)
    (fun pool => decide (pool.byHash.size ≠ crowded.byHash.size)) (by decide +kernel)
  exact ⟨e, pool, hrun, fun h => of_decide_eq_true hcheck (congrArg size h.byHash)⟩

end Demo

end Vtt
