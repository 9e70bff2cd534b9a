import Vtt.State.InStep
import Vtt.State.Unbonding

/-!
# What survives a restart

Most changes of the caches are written through. Some are not: those that are made through a
reference to a cached record, a second block at the same slot, and unbonding entries of zero that
are dropped. The treasury, the epoch length and the pause of the exchange are written but never
loaded again.
-/

namespace Vtt

open Lib Std StateDB List
open ExtTreeMap
  (mem_toList_iff_getElem?_eq_some mem_iff_isSome_getElem? isSome_getElem?_eq_contains)

/-! ## Unbonding entries -/

namespace StateDB

/-- No unbonding entry is of zero, and no owner is kept without an entry. -/
def NoDust (db : StateDB) : Prop :=
  ∀ (owner : Address) entries, db.unbondingEntries[owner]? = some entries →
    entries ≠ [] ∧ ∀ e ∈ entries, e.amount.isZero = false

/-- Something is taken from an unbonding entry of a validator. -/
def Slashes (db : StateDB) (validator : Address) (slashUnbonding pending : U128) : Prop :=
  ∃ (owner : Address) (entries : List UnbondingEntry) (e : UnbondingEntry),
    db.unbondingEntries[owner]? = some entries ∧ e ∈ entries ∧ slashTarget validator e = true ∧
      0 < entrySlash slashUnbonding pending e

/-- A matured unbonding entry of an owner. -/
def Ripe (db : StateDB) (now : Timestamp) (owner : Address) (e : UnbondingEntry) : Prop :=
  ∃ entries, db.unbondingEntries[owner]? = some entries ∧ e ∈ entries ∧ matured now e = true

variable {s : StateDB}

/-- A slash that takes nothing changes nothing if there is no dust to drop. -/
theorem slashUnbondingEntries_of_noDust {validator : Address} {slashUnbonding pending : U128}
    (hdust : s.NoDust) (hslash : ¬ s.Slashes validator slashUnbonding pending) :
    s.slashUnbondingEntries validator slashUnbonding pending = s := by
  have untouched : ∀ (owner : Address) entries, s.unbondingEntries[owner]? = some entries →
      ∀ e ∈ entries, slashEntry validator slashUnbonding pending e = e := by
    intro owner entries hentries e he
    unfold slashEntry
    split
    · rename_i htarget
      have nothing : entrySlash slashUnbonding pending e = 0 := by
        by_contra hne
        exact hslash ⟨owner, entries, e, hentries, he, htarget, (BitVec.pos_iff_ne_zero _).2 hne⟩
      rw [nothing, show e.amount.raw - 0 = e.amount.raw from BitVec.sub_zero _]
    · rfl
  have kept : (s.unbondingEntries.map fun _ entries =>
      (entries.map (slashEntry validator slashUnbonding pending)).filter fun e =>
        !e.amount.isZero).filter (fun _ entries => !entries.isEmpty) = s.unbondingEntries := by
    refine filter_map_eq_self fun owner entries hentries => ?_
    obtain ⟨hne, hnonzero⟩ := hdust owner entries hentries
    rw [map_congr_left (untouched owner entries hentries), map_id']
    refine ⟨filter_eq_self.2 fun e he => ?_, ?_⟩
    · rw [hnonzero e he]
      rfl
    · simpa using hne
  have unchanged : ((s.unbondingEntries.toList.flatMap (·.2)).any fun e =>
      slashTarget validator e && 0 < entrySlash slashUnbonding pending e) = false := by
    rw [any_eq_false]
    intro e he htaken
    obtain ⟨⟨owner, entries⟩, hmem, he⟩ := mem_flatMap.1 he
    simp only [Bool.and_eq_true, decide_eq_true_eq] at htaken
    exact hslash ⟨owner, entries, e, mem_toList_iff_getElem?_eq_some.1 hmem, he, htaken⟩
  simp only [slashUnbondingEntries, kept, unchanged, Bool.false_eq_true, if_false]

end StateDB

namespace Synced

variable {s : StateDB}

theorem slashUnbondingEntries (h : Synced s) {validator : Address} {slashUnbonding pending : U128}
    (hcond : s.NoDust ∨ s.Slashes validator slashUnbonding pending) :
    Synced (s.slashUnbondingEntries validator slashUnbonding pending) := by
  by_cases hslash : s.Slashes validator slashUnbonding pending
  · obtain ⟨owner, entries, e, hentries, he, htarget, htaken⟩ := hslash
    have changed : ((s.unbondingEntries.toList.flatMap (·.2)).any fun e =>
        slashTarget validator e && 0 < entrySlash slashUnbonding pending e) = true := by
      refine any_eq_true.2 ⟨e, mem_flatMap.2 ⟨(owner, entries), ?_, he⟩, ?_⟩
      · exact mem_toList_iff_getElem?_eq_some.2 hentries
      · rw [htarget, Bool.true_and, decide_eq_true_eq]
        exact htaken
    simp only [StateDB.slashUnbondingEntries, changed, if_true]
    exact h.setUnbonding _
  · rw [slashUnbondingEntries_of_noDust (hcond.resolve_right hslash) hslash]
    exact h

end Synced

/-! ## Releasing stake -/

/-- Cached accounts with a property are in the index of stakers. -/
def Indexed (P : AccountState → Prop) (db : StateDB) : Prop :=
  ∀ (address : Address) state, db.accounts[address]? = some state → P state → address ∈ db.stakers

theorem Indexed.putAccount {P : AccountState → Prop} {s : StateDB} (h : Indexed P s)
    {address : Address} {state : AccountState} (hstate : P state → hasSelfStake state = true) :
    Indexed P (s.putAccount address state) := by
  intro a account haccount hP
  rw [mem_stakers_putAccount]
  simp only [StateDB.putAccount, get_insert] at haccount
  split
  · rename_i ha
    rw [if_pos ha.symm] at haccount
    cases haccount
    exact hstate hP
  · rename_i ha
    rw [if_neg fun heq => ha heq.symm] at haccount
    exact h a account haccount hP

/-- While stake is released from a state: the entries are not written yet, all other cells are in
step, and accounts differ in their balance only. -/
structure Releasing (P : AccountState → Prop) (now : Timestamp) (s db : StateDB) : Prop where
  agrees : ∀ c : Cell, c ≠ .unbonding → c.Agrees db (db.storage.read c.column c.key)
  unbonding : db.storage.read Cell.unbonding.column Cell.unbonding.key =
    s.storage.read Cell.unbonding.column Cell.unbonding.key
  others : { db with accounts := s.accounts, stakers := s.stakers, dirty := s.dirty,
                     storage := s.storage } = s.dropMatured now
  account : ∀ a balance, { db.getAccount a with balance } = { s.getAccount a with balance }
  indexed : Indexed P db

namespace Releasing

variable {P : AccountState → Prop} {now : Timestamp} {s db : StateDB}

theorem start (h : Synced s) (hindexed : Indexed P s) : Releasing P now s (s.dropMatured now) where
  agrees c hne := by
    have before := h.agrees c
    cases c with
    | unbonding => exact absurd rfl hne
    | _ => exact before
  unbonding := rfl
  others := rfl
  account _ _ := rfl
  indexed := hindexed

theorem isSome_storage (h : Releasing P now s db) : db.storage.isSome = true :=
  Cell.isSome_storage (h.agrees .schema (by simp))

theorem credit (h : Releasing P now s db) {address : Address} {balance : Amount}
    (hcond : P { s.getAccount address with balance } → hasSelfStake (s.getAccount address) = true) :
    Releasing P now s (db.putAccount address { db.getAccount address with balance }) := by
  have hsome := h.isSome_storage
  have same := h.account address balance
  constructor
  · exact fun c hne => agrees_putAccount hsome (h.agrees c hne)
  · rw [read_putAccount hsome, if_neg (by simp), if_neg (by simp)]
    exact h.unbonding
  · exact h.others
  · intro a balance'
    by_cases ha : a = address
    · subst ha
      rw [getAccount_putAccount_self]
      exact h.account a balance'
    · rw [getAccount_putAccount_of_ne _ ha]
      exact h.account a balance'
  · refine h.indexed.putAccount fun hP => ?_
    rw [same] at hP ⊢
    exact hcond hP

theorem unbondingEntries_eq (h : Releasing P now s db) :
    db.unbondingEntries = (s.dropMatured now).unbondingEntries :=
  congrArg (·.unbondingEntries) h.others

/-- The entries that are left are written, unless nothing was released. -/
theorem finish (h : Releasing P now s db) (hs : Synced s) {total : Amount}
    (hkept : total.isZero = true →
      ((s.dropMatured now).unbondingEntries.filter fun _ es => !es.isEmpty) = s.unbondingEntries) :
    Synced (db.dropReleased total) := by
  constructor
  · intro c
    cases hzero : total.isZero with
    | true =>
      by_cases hc : c = .unbonding
      · subst hc
        simp only [dropReleased, hzero, if_true]
        rw [h.unbonding]
        simp only [Cell.Agrees, h.unbondingEntries_eq, hkept hzero]
        exact hs.agrees .unbonding
      · have before := h.agrees c hc
        simp only [dropReleased, hzero, if_true]
        cases c with
        | unbonding => exact absurd rfl hc
        | _ => exact before
    | false =>
      simp only [dropReleased, hzero, Bool.false_eq_true, if_false]
      change c.Agrees _
        ((db.storage.write Cell.unbonding.column Cell.unbonding.key _).read c.column c.key)
      rw [Storage.read_write_cell h.isSome_storage]
      split
      · rename_i hc
        subst hc
        exact fun hfits => decodeUnbonding_serialize _ hfits
      · rename_i hc
        have before := h.agrees c hc
        cases c with
        | unbonding => exact absurd rfl hc
        | _ => exact before
  · have ownership : db.ownership = s.ownership := congrArg (·.ownership) h.others
    have counts : db.assetHolderCount = s.assetHolderCount := congrArg (·.assetHolderCount) h.others
    change db.assetHolderCount.isEmpty = true → ∀ (k : H256 × Address) (r : OwnershipRecord),
      db.ownership[k]? = some r → r.total = some .zero
    rw [ownership, counts]
    exact hs.counted

end Releasing

/-- Releasing stake keeps a state in step if the entries that are left are written or are all there
were, and the accounts that are credited are in the index as far as they have to be. -/
theorem Synced.processUnbonding {ε : Type} {P : AccountState → Prop} {now : Timestamp}
    {s t : StateDB} {result : Except ε Amount} (h : Synced s) (hindexed : Indexed P s)
    (hrun : (Db.processUnbonding now).run s = some (result, t))
    (hdust : s.NoDust ∨ ∃ owner e, s.Ripe now owner e ∧ e.amount.isZero = false)
    (howners : ∀ owner e balance, s.Ripe now owner e → P { s.getAccount owner with balance } →
      hasSelfStake (s.getAccount owner) = true) :
    Synced t ∧ Indexed P t := by
  obtain ⟨releases, _, credited, -, hreleases, hcredits, rfl⟩ := Db.exists_of_processUnbonding hrun
  obtain ⟨hmatured, hbound⟩ := unbondingReleases_spec hreleases
  have released : Releasing P now s credited := by
    have keeps : Confined.Moves (Keeps (Releasing P now s))
        (Confined.forEach releases fun r => (Db.addBalance r.1 r.2).ignoreError : DbM ε Unit) := by
      refine .forEach _ fun r hr => .ignoreError (Db.moves_credit fun db balance _ hdb => ?_)
      obtain ⟨entries, hentries, e, he, hripe⟩ := hmatured r hr
      refine hdb.credit (howners r.1 e balance ⟨entries, ?_, he, hripe⟩)
      exact mem_toList_iff_getElem?_eq_some.1 hentries
    exact keeps hcredits (.start h hindexed)
  refine ⟨released.finish h fun hzero => ?_, released.indexed⟩
  -- nothing was released, so that whatever has matured is of zero
  have dust : ∀ owner e, s.Ripe now owner e → e.amount.isZero = true := by
    rintro owner e ⟨entries, hentries, he, hripe⟩
    have hle := hbound (owner, entries) (mem_toList_iff_getElem?_eq_some.2 hentries) e he hripe
    rw [Amount.isZero_iff.1 hzero] at hle
    exact beq_iff_eq.2 (BitVec.eq_of_toNat_eq (Nat.le_zero.1 hle))
  have nodust : s.NoDust := hdust.resolve_right fun ⟨owner, e, hripe, hnonzero⟩ => by
    rw [dust owner e hripe] at hnonzero
    cases hnonzero
  refine filter_map_eq_self fun owner entries hentries => ?_
  obtain ⟨hne, hnonzero⟩ := nodust owner entries hentries
  refine ⟨filter_eq_self.2 fun e he => ?_, by simpa using hne⟩
  cases hripe : matured now e with
  | false => rfl
  | true =>
    have := dust owner e ⟨entries, hentries, he, hripe⟩
    rw [hnonzero e he] at this
    cases this

/-! ## Bootstrapping the index -/

namespace StateDB

variable {accounts : FinMap Address AccountState}

variable {db : StateDB} {l : List (Address × AccountState)}

/-- The staking accounts of a genesis state. -/
def staking (source : StateDB) : List (Address × AccountState) :=
  source.accounts.toList.filter fun a => hasSelfStake a.2

/-- Accounts that have staking state already are only brought into the cache. -/
def warmed (db : StateDB) (accounts : FinMap Address AccountState) (a : Address × AccountState) :
    FinMap Address AccountState :=
  let existing := ({ db with accounts } : StateDB).getAccount a.1
  accounts.insert a.1 (if existing.staking.isSome then existing else a.2)

/-- The caches have nothing but the accounts of a state. -/
structure Caches (db : StateDB) (accounts : FinMap Address AccountState) : Prop where
  account : ∀ (a : Address) state, accounts[a]? = some state → state = db.getAccount a
  cached : ∀ a ∈ db.accounts, a ∈ accounts

theorem Caches.getAccount_eq (h : db.Caches accounts) (a : Address) :
    ({ db with accounts } : StateDB).getAccount a = db.getAccount a := by
  cases ha : accounts[a]? with
  | some state => exact (getAccount_of_cached ha).trans (h.account a state ha)
  | none =>
    have uncached : db.accounts[a]? = none := by
      by_contra hne
      have hmem := h.cached a (mem_iff_isSome_getElem?.2 (Option.isSome_iff_ne_none.2 hne))
      rw [mem_iff_isSome_getElem?, ha] at hmem
      cases hmem
    rw [getAccount, getAccount, uncached]
    rw [ha]

theorem Caches.warmed (h : db.Caches accounts) {a : Address × AccountState}
    (ha : (db.getAccount a.1).staking.isSome = true) :
    db.warmed accounts a = accounts.insert a.1 (db.getAccount a.1) ∧
      db.Caches (db.warmed accounts a) := by
  have step : db.warmed accounts a = accounts.insert a.1 (db.getAccount a.1) := by
    rw [StateDB.warmed, h.getAccount_eq, if_pos ha]
  refine ⟨step, ?_, ?_⟩
  · intro a' state hstate
    rw [step, get_insert] at hstate
    split at hstate
    · rename_i heq
      rw [← heq]
      exact (Option.some.inj hstate).symm
    · exact h.account a' state hstate
  · intro a' hmem
    rw [step, ExtTreeMap.mem_insert]
    exact .inr (h.cached a' hmem)

theorem get_foldl_warmed (h : db.Caches accounts)
    (hl : ∀ a ∈ l, (db.getAccount a.1).staking.isSome = true) (a : Address) :
    (l.foldl db.warmed accounts)[a]? = if a ∈ l.map (·.1) then some (db.getAccount a)
      else accounts[a]? := by
  induction l generalizing accounts with
  | nil => rfl
  | cons e rest ih =>
    obtain ⟨step, hcaches⟩ := h.warmed (hl e (mem_cons_self ..))
    rw [foldl_cons, ih hcaches fun e' he' => hl e' (mem_cons_of_mem _ he'), step, get_insert]
    by_cases hrest : a ∈ rest.map (·.1)
    · rw [if_pos hrest, if_pos (by simp [hrest])]
    · by_cases he : e.1 = a
      · subst he
        simp
      · have hne : a ≠ e.1 := fun heq => he heq.symm
        simp [hrest, he, hne]

theorem mem_foldl_insert {stakers : FinSet Address} {a : Address} :
    a ∈ l.foldl (fun stakers e => stakers.insert e.1) stakers ↔ a ∈ stakers ∨ a ∈ l.map (·.1) := by
  induction l generalizing stakers with
  | nil => simp
  | cons _ _ ih =>
    rw [foldl_cons, ih, ExtTreeSet.mem_insert, map_cons, mem_cons,
      LawfulEqOrd.compare_eq_iff_eq, eq_comm, or_assoc, or_left_comm]

end StateDB

/-- The index can be bootstrapped from accounts that all have staking state already. -/
theorem Synced.bootstrapStakersFrom {P : AccountState → Prop} {s source : StateDB} (h : Synced s)
    (hindexed : Indexed P s)
    (hsource : ∀ (a : Address) state, source.accounts[a]? = some state →
      hasSelfStake state = true → (s.getAccount a).staking.isSome = true) :
    Synced (s.bootstrapStakersFrom source) ∧ Indexed P (s.bootstrapStakersFrom source) := by
  let added := source.staking.map (·.1)
  have staked : ∀ a ∈ source.staking, (s.getAccount a.1).staking.isSome = true := by
    intro a ha
    obtain ⟨hmem, hstake⟩ := mem_filter.1 ha
    exact hsource a.1 a.2 (mem_toList_iff_getElem?_eq_some.1 hmem) hstake
  have caches : s.Caches s.accounts := by
    refine ⟨fun a state hstate => ?_, fun _ => id⟩
    exact (getAccount_of_cached hstate).symm
  have accounts (a : Address) : (s.bootstrapStakersFrom source).accounts[a]? =
      if a ∈ added then some (s.getAccount a) else s.accounts[a]? :=
      get_foldl_warmed caches staked a
  have stakers (a : Address) : a ∈ (s.bootstrapStakersFrom source).stakers ↔
      a ∈ s.stakers ∨ a ∈ added :=
    mem_foldl_insert
  refine ⟨⟨?_, h.counted⟩, ?_⟩
  · intro c
    have before := h.agrees c
    refine (Storage.read_write_cell (c := .stakers) h.isSome_storage : (s.bootstrapStakersFrom
      source).storage.read c.column c.key = _) ▸ ?_
    split
    · rename_i hc
      subst hc
      exact fun hfits => decodeSet_serialize _ hfits
    rename_i hc
    cases c with
    | stakers => exact absurd rfl hc
    | account =>
      intro hmem
      rw [mem_iff_isSome_getElem?, stakers] at hmem
      rw [accounts] at hmem ⊢
      split
      · rename_i hadded
        obtain ⟨e, he, rfl⟩ := mem_map.1 hadded
        cases hcached : s.accounts[e.1]? with
        | some =>
          rw [getAccount_of_cached hcached, ← hcached]
          exact before (.inl (mem_of_get hcached))
        | none =>
          -- an account with staking state that is not cached is in the store
          have found := staked e he
          unfold getAccount at found ⊢
          rw [hcached] at found ⊢
          cases hdisk :
            (s.storage.read .accounts e.1.asBytes).bind
            (Borsh.tryFromSlice (α := AccountState)) with
          | none =>
            rw [hdisk] at found
            cases found
          | some => exact fun _ => hdisk
      · rename_i hadded
        rw [if_neg hadded] at hmem
        apply before
        rw [mem_iff_isSome_getElem?]
        exact hmem.imp_right fun hstaker => hstaker.resolve_right hadded
    | _ => exact before
  · intro a state hstate hP
    rw [accounts] at hstate
    rw [stakers]
    split at hstate
    · rename_i hadded
      exact .inr hadded
    · exact .inl (hindexed a state hstate hP)

/-! ## Histories -/

namespace Mutation

/-- A mutation that is written through, where cached accounts with a property have to be in the
index of stakers. -/
def Written (P : AccountState → Prop) (s : StateDB) : Mutation → Prop
  | putAccount _ state => P state → hasSelfStake state = true
  | bootstrapStakersFrom source => ∀ (a : Address) state, source.accounts[a]? = some state →
      hasSelfStake state = true → (s.getAccount a).staking.isSome = true
  | editAsset assetId asset => ∀ r, s.assets[assetId]? = some r → asset = r
  | editAssetProposal id proposal => ∀ r, s.assetProposals[id]? = some r → proposal = r
  | editOracle feedId feed => ∀ r, s.oracles[feedId]? = some r → feed = r
  | slashUnbondingEntries validator slashUnbonding pending =>
    s.NoDust ∨ s.Slashes validator slashUnbonding pending
  | processUnbonding now =>
    (s.NoDust ∨ ∃ owner e, s.Ripe now owner e ∧ e.amount.isZero = false) ∧
      ∀ owner e balance, s.Ripe now owner e → P { s.getAccount owner with balance } →
        hasSelfStake (s.getAccount owner) = true
  | recordBlockCommitment validator epoch slot hash =>
    ∀ prior, s.blockCommitments[(validator, epoch, slot)]? = some prior → hash = prior
  | restore _ => False
  | _ => True

/-- What is not loaded again is left as a restart has it. -/
def Loaded : Mutation → Prop
  | setTreasuryAddress address => address = .zero
  | setEpochLength length => length = 1200
  | setDexPaused paused => paused = false
  | restore _ => False
  | _ => True

/-- A mutation that a restart does not lose. -/
def Durable (P : AccountState → Prop) (s : StateDB) (m : Mutation) : Prop :=
  m.Written P s ∧ m.Loaded

end Mutation

/-- The treasury, the epoch length and the pause of the exchange are as a restart has them. -/
def StateDB.DefaultParams (db : StateDB) : Prop :=
  db.treasuryAddress = .zero ∧ db.epochLength = 1200 ∧ db.dexPaused = false

namespace Mutation

variable [Crypto] {P : AccountState → Prop} {s t : StateDB}

theorem defaultParams_of_step {m : Mutation} (h : Within (fun _ m => m.Loaded) Step s m t)
    (hs : s.DefaultParams) :
    t.DefaultParams := by
  obtain ⟨hm, hrun⟩ := h
  cases m <;> try cases hrun
  case setTreasuryAddress => exact ⟨hm, hs.2.1, hs.2.2⟩
  case setEpochLength => exact ⟨hs.1, hm, hs.2.2⟩
  case setDexPaused => exact ⟨hs.1, hs.2.1, hm⟩
  case restore => cases hm
  case putOwnership =>
    obtain ⟨_, -, hrest⟩ := Option.bind_eq_some_iff.1 hrun
    obtain ⟨_, -, rfl⟩ := Option.map_eq_some_iff.1 hrest
    exact hs
  case processUnbonding now =>
    obtain ⟨⟨_, _⟩, hprocess, rfl⟩ := Option.map_eq_some_iff.1 hrun
    obtain ⟨releases, _, credited, -, -, hcredits, rfl⟩ := Db.exists_of_processUnbonding hprocess
    have keeps : Confined.Moves (Keeps StateDB.DefaultParams) (Confined.forEach releases fun r =>
        (Db.addBalance r.1 r.2).ignoreError : DbM Empty Unit) :=
      .forEach _ fun r _ => .ignoreError (Db.moves_credit fun _ _ _ => id)
    have matured : (s.dropMatured now).DefaultParams := hs
    have after : credited.DefaultParams := keeps hcredits matured
    exact after
  case editAsset | editAssetProposal | editOracle =>
    split
    · exact hs
    · exact hs
  all_goals exact hs

/-- A mutation that is written through keeps a state in step. -/
theorem synced_of_step {m : Mutation} (h : Within (Written P) Step s m t)
    (hs : Synced s ∧ Indexed P s) :
    Synced t ∧ Indexed P t := by
  obtain ⟨hm, hrun⟩ := h
  obtain ⟨synced, indexed⟩ := hs
  -- a record that is edited into itself
  have unedited {κ ν : Type} [Ord κ] [TransOrd κ] [LawfulEqOrd κ] {map : FinMap κ ν} {k : κ} {v : ν}
      (hm : ∀ r, map[k]? = some r → v = r) (h : map.contains k = true) : map.insert k v = map := by
    obtain ⟨r, hr⟩ := Option.isSome_iff_exists.1 (isSome_getElem?_eq_contains.trans h)
    exact insert_eq_self (hm r hr ▸ hr)
  cases m <;> try cases hrun
  case putAccount => exact ⟨synced.putAccount .., indexed.putAccount hm⟩
  case bootstrapStakersFrom => exact synced.bootstrapStakersFrom indexed hm
  case processUnbonding =>
    obtain ⟨⟨_, _⟩, hprocess, rfl⟩ := Option.map_eq_some_iff.1 hrun
    exact synced.processUnbonding indexed hprocess hm.1 hm.2
  case restore => cases hm
  case putOwnership record =>
    obtain ⟨_, hprev, hrest⟩ := Option.bind_eq_some_iff.1 hrun
    obtain ⟨_, hnew, rfl⟩ := Option.map_eq_some_iff.1 hrest
    exact ⟨synced.putOwnershipWith record hprev hnew, indexed⟩
  case editAsset assetId _ =>
    split
    · have aside := synced.of_aside s.treasuryAddress s.epochLength s.dexPaused s.trie s.dirty
        (s.dirtyAssets ++ [assetId]) s.dirtyPools
      simp only [touchAsset, setCachedAsset, unedited hm ‹_›]
      exact ⟨aside, indexed⟩
    · exact ⟨synced, indexed⟩
  case editAssetProposal | editOracle =>
    split
    · simp only [setCachedAssetProposal, unedited hm ‹_›]
      exact ⟨synced, indexed⟩
    · exact ⟨synced, indexed⟩
  case recordBlockCommitment validator epoch' slot hash =>
    cases hprior : s.blockCommitments[(validator, epoch', slot)]? with
    | none =>
      simp only [StateDB.recordBlockCommitment, hprior, Option.isNone_none, if_true]
      exact ⟨synced.setBlockCommitments _, indexed⟩
    | some prior =>
      obtain rfl := hm prior hprior
      have same : s.blockCommitments.insert (validator, epoch', slot) hash = s.blockCommitments :=
        insert_eq_self hprior
      simp only [StateDB.recordBlockCommitment, hprior, same, Option.isNone_some,
        Bool.false_eq_true, if_false]
      exact ⟨synced, indexed⟩
  all_goals refine ⟨?_, indexed⟩
  case putAsset => exact synced.putAsset ..
  case putAssetProposal => exact synced.putAssetProposal ..
  case putOracle => exact synced.putOracle ..
  case storeCode => exact synced.storeCode ..
  case putContractStorage => exact synced.putContractStorage ..
  case deleteContractStorage => exact synced.deleteContractStorage ..
  case putPoolRaw => exact synced.putPoolRaw ..
  case putMiningStateRaw => exact synced.putMiningStateRaw ..
  case putGovernanceProposal => exact synced.putGovernanceProposal ..
  case setTreasuryAddress address => exact synced.setTreasuryAddress address
  case setEpochLength length => exact synced.setEpochLength length
  case setDexPaused paused' => exact synced.setDexPaused paused'
  case recordMintMilli milli => exact synced.recordMintMilli milli
  case recordBurnMilli milli => exact synced.recordBurnMilli milli
  case writeNote note value => exact synced.writeMeta note.foreign value
  case clearNote note => exact synced.clearNote note
  case addUnbondingEntry => exact synced.setUnbonding _
  case slashUnbondingEntries => exact synced.slashUnbondingEntries hm
  case markSlashingEvidence => exact synced.markSlashingEvidence ..
  case recordMissedSlot => exact synced.setMissedSlots _
  case takeMissedSlotsForEpoch => exact synced.setMissedSlots _
  case setKycApproved => exact synced.setKycApproved ..
  case computeStateRoot => exact synced.of_aside s.treasuryAddress s.epochLength s.dexPaused _ _ _ _

end Mutation

end Vtt
