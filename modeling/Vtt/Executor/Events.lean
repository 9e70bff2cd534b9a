import Vtt.Executor.Atomic
import Vtt.Executor.Books

/-!
# From the genesis on

The states that are reached from an accepted genesis: by transactions, by what a block does before
and after its transactions, and by slashing. The ledger of the assets at the genesis has two assets
and one pool.
-/

namespace Vtt

open Lib

namespace Executor

open Confined StateDB Dex

/-- What happens to the state of a chain. -/
inductive Event where
  | transaction (ctx : BlockContext) (tx : SignedTransaction)
  /-- Stake whose unbonding is over is released. -/
  | release (now : Timestamp)
  | settle (blockNumber gasUsed : UInt64) (gasConfig : GasConfig) (producer : Address)
      (totalStaked : Amount) (params : ConsensusParams)
  | slash (validator : Address) (amount : Amount)

/-- Charging a sender leaves holdings, pools and assets alone. -/
theorem ledger_charge (s : StateDB) (sender : Address) (fee : Amount) :
    (s.charge sender fee).holdings = s.holdings ∧ (s.charge sender fee).pools = s.pools ∧
      (s.charge sender fee).assets = s.assets :=
  charge_induction _ _ _ ⟨rfl, rfl, rfl⟩ fun _ _ => id

variable [Crypto]

section Steps

variable [Wasm] [Environment]

/-- An event leads from one state to another. -/
def Event.Step (s : StateDB) (event : Event) (t : StateDB) : Prop :=
  match event with
  | transaction ctx tx =>
    ∃ result, (executeTransactionAt ctx tx : DbM Empty ExecutionResult).run s = some (.ok result, t)
  | release now => ∃ total, (Db.processUnbonding now : DbM Empty Amount).run s = some (.ok total, t)
  | settle blockNumber gasUsed gasConfig producer totalStaked params =>
    ∃ summary, (applyBlockRewardsAndGovernance blockNumber gasUsed gasConfig producer
      totalStaked params : SettleM Empty BlockSettlementSummary).run s = some (.ok summary, t)
  | slash validator amount => t = (s.applySlash validator amount).2

end Steps

/-- A store without accounts and assets. -/
def Fresh (store : Store) : Prop := ∀ key, store.get .accounts key = none ∧
    store.get .assets key = none

/-- The state of an accepted genesis, in memory or on a store. -/
inductive Origin : StateDB → Prop where
  | memory {config : GenesisConfig} {block : Block} {db : StateDB} :
      Genesis.buildGenesis config = some (block, db) → Origin db
  | stored {config : GenesisConfig} {block : Block} {genesis db : StateDB} {store : Store} :
      Genesis.buildGenesis config = some (block, genesis) → Fresh store →
      genesis.attachStorage store = some db → Origin db

/-! ## Transactions and the ledger -/

section Ledger

variable {s t : StateDB}

omit [Crypto] in
/-- The books are about holdings, pools and the registered assets. -/
theorem Books.of_same (hs : Books s) (holdings : t.holdings = s.holdings)
    (pools : t.pools = s.pools) (hmem : ∀ assetId, assetId ∈ t.assets ↔ assetId ∈ s.assets) :
    Books t := by
  refine hs.of_poolChange (.same pools) (fun assetId => (hmem assetId).2) (holdings ▸ hs.keyed) ?_
  intro assetId hnew
  rw [holdings]
  exact hs.unheld assetId fun h => hnew ((hmem assetId).2 h)

omit [Crypto] in
theorem Books.of_sameLedger (hs : Books s) (h : SameLedger s t) : Books t :=
  hs.of_same h.holdings h.pools fun _ =>
    ⟨mem_assets_of_terms h.terms.symm, mem_assets_of_terms h.terms⟩

variable [Wasm] [Environment] {ctx : BlockContext} {tx : SignedTransaction}
  {result : ExecutionResult}

/-- A transaction that fails leaves the ledger in the caches as it was. -/
theorem Outcome.same_of_failure (h : Outcome ctx tx s result t)
    (hfail : result.receipt.success = false) :
    t.holdings = s.holdings ∧ t.pools = s.pools ∧ t.assets = s.assets := by
  cases h with
  | inert | excessive => exact ⟨rfl, rfl, rfl⟩
  | short => exact ledger_charge ..
  | failed =>
    -- the caches are those of the snapshot
    exact ledger_charge ..
  | done => cases hfail

/-- Transactions keep the books in order. -/
theorem Outcome.books (h : Outcome ctx tx s result t) (hs : Books s) : Books t := by
  cases hsuccess : result.receipt.success with
  | false =>
    obtain ⟨holdings, pools, assets⟩ := h.same_of_failure hsuccess
    exact hs.of_same holdings pools fun assetId => by rw [assets]
  | true => exact (h.booked hsuccess).books (hs.of_sameLedger (sameLedger_charge ..))

/-- All other events are routine. -/
theorem Event.outcome_or {R : StateDB → StateDB → Prop} [IsPreorder StateDB R]
    (routine : Routine R fun _ => True) (restakes : Routine.Restakes R)
    (legislates : ∀ ⦃s t⦄, Legislates s t → R s t) {event : Event} (h : event.Step s t) :
    (∃ ctx tx result, event = .transaction ctx tx ∧ Outcome ctx tx s result t) ∨ R s t := by
  cases event with
  | transaction ctx tx =>
    obtain ⟨result, hrun⟩ := h
    exact .inl ⟨ctx, tx, result, rfl, outcome_of_executed hrun⟩
  | release now =>
    obtain ⟨_, hrun⟩ := h
    exact .inr (routine.processUnbonding now hrun)
  | settle =>
    obtain ⟨_, hrun⟩ := h
    exact .inr (routine.applyBlockRewardsAndGovernance legislates (fun _ => trivial) hrun)
  | slash validator amount =>
    obtain rfl := h
    exact .inr (routine.applySlash restakes s validator amount)

theorem Event.books {event : Event} (h : event.Step s t) (hs : Books s) : Books t := by
  obtain ⟨_, _, _, -, outcome⟩ | same :=
    outcome_or ledgerRoutine restakes_ledger (fun _ _ h => h.toSameLedger) h
  · exact outcome.books hs
  · exact hs.of_sameLedger same

end Ledger

/-- An asset is registered and all of it is given to one owner. -/
structure Minted (asset : AssetRecord) (owner : Address) (s t : StateDB) : Prop where
  hnew : asset.id ∉ s.assets
  flows : s.holdings.Keyed → Flows [.credit (asset.id, owner) asset.totalSupply] s t
  pools : t.pools = s.pools
  assets : t.assets = s.assets.insert asset.id asset

omit [Crypto] in
theorem mintAsset_ok {ε : Type} {asset : AssetRecord} {s t : StateDB} {x : Unit}
    (h : (Genesis.mintAsset asset : DbM ε Unit).run s = some (.ok x, t)) :
    Minted asset asset.issuer s t := by
  obtain ⟨_, _, hregister, h⟩ := run_bind_ok h
  obtain ⟨hnew, rfl⟩ := registerAsset_ok (ok_of_expect hregister)
  have hpaid : Paid (s.putAsset asset.id asset) t := by
    obtain ⟨_, -, hput⟩ := ok_of_unwrap h
    exact Db.paid_putOwnership _ hput
  obtain ⟨hpools, hassets⟩ := Paid.same hpaid
  exact ⟨hnew, fun hkeyed => Db.flows_of_credit (s := s.putAsset asset.id asset) hkeyed h,
    hpools, hassets⟩

end Executor

/-! ## Small runs -/

namespace Demo

open Executor

/-- Transactions one after the other, all of which have to succeed. -/
def successes : List (BlockContext × SignedTransaction) → StateDB → Option StateDB
  | [], db => some db
  | (ctx, tx) :: rest, db =>
    match (executeTransactionAt ctx tx : DbM Empty _).run db with
    | some (.ok result, t) => if result.receipt.success then successes rest t else none
    | _ => none

/-- The transactions as events. -/
def eventsOf (txs : List (BlockContext × SignedTransaction)) : List Event :=
  txs.map fun entry => .transaction entry.1 entry.2

theorem run_of_successes {txs : List (BlockContext × SignedTransaction)} {s t : StateDB}
    (h : successes txs s = some t) : Run (fun s event t => Event.Step s event t) s
      (eventsOf txs) t := by
  induction txs generalizing s with
  | nil =>
    cases h
    exact .nil
  | cons entry _ ih =>
    obtain ⟨ctx, tx⟩ := entry
    unfold successes at h
    split at h
    · rename_i result u hrun
      split at h
      · have first :
            Run (fun s event t => Event.Step s event t) s ([] ++ [.transaction ctx tx]) u :=
          .snoc .nil ⟨result, hrun⟩
        exact first.append (ih h)
      · cases h
    · cases h

/-- What an evaluation of transactions shows. -/
theorem exists_successes (txs : List (BlockContext × SignedTransaction)) (s : StateDB)
    (check : StateDB → Bool) (h : (successes txs s).any check = true) :
    ∃ t, Run (fun s event t => Event.Step s event t) s (eventsOf txs) t ∧ check t = true := by
  obtain ⟨t, ht, hcheck⟩ := (Option.any_eq_true ..).1 h
  exact ⟨t, run_of_successes ht, hcheck⟩

/-- A transaction of the validator with a nonce. -/
def numbered (nonce : UInt64) (action : TransactionAction) : SignedTransaction :=
  let payload := { firstPayload action with nonce, gasLimit := 1000000 }
  ⟨payload, key.sign (Borsh.serialize payload), key.publicKey⟩

end Demo

end Vtt
