import Vtt.State.Restarted

/-!
# Elections

The validators of an epoch are the first of all accounts with enough stake of their own, by stake
and then by address. No two accounts have one address, so the order is strict and it does not matter
in which order the accounts are met.
-/

namespace Vtt

open Lib StateDB List Std.ExtTreeMap BitVec Bool Ordering

namespace ConsensusEngine

variable (e : ConsensusEngine) {state : StateDB} {v w : ValidatorInfo}
  {entries : List (Address × AccountState)}

variable {account : AccountState}

/-- Whether an account has enough stake of its own. -/
def isEligible (account : AccountState) : Bool :=
  account.staking.any fun staking => e.params.minSelfStake ≤ staking.selfStake

/-- The election among accounts that are met in some order. -/
def electAmong (entries : List (Address × AccountState)) : List ValidatorInfo :=
  ((entries.filterMap fun a => e.candidate a.1 a.2).insertionSort fun a b => ranksBefore a b).take
    e.params.activeValidators.toNat

/-- One candidate has more stake than another, or as much and a lower address. -/
def Precedes (v w : ValidatorInfo) : Prop :=
  w.totalStake < v.totalStake ∨ v.totalStake = w.totalStake ∧ v.address.bits < w.address.bits

theorem totalStake_eq_iff : v.totalStake = w.totalStake ↔
    v.totalStake.raw.toNat = w.totalStake.raw.toNat := by
  rw [toNat_inj, ← Amount.mk.injEq]

theorem precedes_iff : Precedes v w ↔ w.totalStake.raw.toNat < v.totalStake.raw.toNat ∨
    v.totalStake.raw.toNat = w.totalStake.raw.toNat ∧ v.address.bits.toNat <
      w.address.bits.toNat := by
  rw [Precedes, totalStake_eq_iff]
  rfl

theorem ranksBefore_iff : ranksBefore v w = true ↔ w.totalStake.raw.toNat < v.totalStake.raw.toNat ∨
    v.totalStake.raw.toNat = w.totalStake.raw.toNat ∧ v.address.bits.toNat ≤
      w.address.bits.toNat := by
  have address : (compare v.address w.address).isLE = true ↔
      v.address.bits.toNat ≤ w.address.bits.toNat := by
    show (compareOfLessAndEq v.address.bits w.address.bits).isLE = true ↔ _
    unfold compareOfLessAndEq
    simp only [lt_def, ← toNat_inj]
    split
    · simp only [isLE_lt, true_iff]
      omega
    · split
      · simp only [isLE_eq, true_iff]
        omega
      · simp only [isLE_gt, false_eq_true, false_iff]
        omega
  rw [ranksBefore, or_eq_true, and_eq_true, decide_eq_true_iff, beq_iff_eq, address,
    totalStake_eq_iff]
  rfl

instance : Std.Total fun v w : ValidatorInfo => ranksBefore v w = true where
  total v w := by
    simp only [ranksBefore_iff]
    omega

instance : IsTrans ValidatorInfo fun v w => ranksBefore v w = true where
  trans u v w := by
    simp only [ranksBefore_iff]
    omega

/-- Of two candidates with different addresses, one comes first. -/
theorem precedes_of_ranksBefore (h : ranksBefore v w = true) (hne : v.address ≠ w.address) :
    Precedes v w := by
  have bits : v.address.bits.toNat ≠ w.address.bits.toNat :=
    fun heq => hne (congrArg Address.mk (toNat_inj.1 heq))
  rw [precedes_iff]
  rw [ranksBefore_iff] at h
  omega

theorem not_precedes (h : Precedes v w) : ¬ Precedes w v := by
  rw [precedes_iff] at h ⊢
  omega

theorem isSome_candidate (address : Address) (account : AccountState) :
    (e.candidate address account).isSome = e.isEligible account := by
  unfold candidate isEligible
  cases account.staking with
  | none => rfl
  | some staking =>
    by_cases h : staking.selfStake < e.params.minSelfStake
    · have few : ¬ e.params.minSelfStake ≤ staking.selfStake := BitVec.not_le.2 h
      simp [h, few]
    · have enough : e.params.minSelfStake ≤ staking.selfStake := BitVec.not_lt.1 h
      simp [h, enough]

theorem hasSelfStake_of_isEligible (hmin : .zero < e.params.minSelfStake)
    (h : e.isEligible account = true) :
    hasSelfStake account = true := by
  unfold isEligible at h
  unfold hasSelfStake
  cases hstaking : account.staking with
  | none =>
    rw [hstaking] at h
    cases h
  | some staking =>
    rw [hstaking, Option.any_some, decide_eq_true_iff] at h
    have positive : staking.selfStake.isZero = false := Bool.eq_false_iff.2 fun hzero =>
      BitVec.not_lt.2 (Amount.isZero_iff.1 hzero ▸ h) hmin
    simp only [positive, Bool.not_false]

theorem address_of_candidate {address : Address} (h : e.candidate address account = some v) :
    v.address = address := by
  obtain ⟨_, -, h⟩ := Option.bind_eq_some_iff.1 h
  split at h
  · cases h
  · cases h
    rfl

/-- Candidates of different accounts have different addresses, in whatever order the accounts are
met. -/
theorem distinct_candidates (hperm : entries.Perm state.accounts.toList) :
    (entries.filterMap fun a => e.candidate a.1 a.2).Pairwise (·.address ≠ ·.address) := by
  have keys : entries.Pairwise (·.1 ≠ ·.1) := by
    refine (hperm.pairwise_iff fun h => Ne.symm h).2 (distinct_keys_toList.imp fun h heq => ?_)
    exact h (heq ▸ Std.ReflOrd.compare_self)
  refine keys.filterMap _ fun a b hne v hv w hw => ?_
  rwa [e.address_of_candidate hv, e.address_of_candidate hw]

theorem sorted_candidates (hperm : entries.Perm state.accounts.toList) :
    ((entries.filterMap fun a => e.candidate a.1 a.2).insertionSort fun a b =>
      ranksBefore a b).Pairwise fun v w => Precedes v w ∧ v.address ≠ w.address := by
  have distinct := ((perm_insertionSort (fun a b => ranksBefore a b = true) _).pairwise_iff
    fun h => Ne.symm h).2 (e.distinct_candidates hperm)
  exact ((pairwise_insertionSort ..).and distinct).imp fun h =>
    ⟨precedes_of_ranksBefore h.1 h.2, h.2⟩

/-- It does not matter in which order the accounts are met. -/
theorem electAmong_perm (hperm : entries.Perm state.accounts.toList) :
    e.electAmong entries = e.electAmong state.accounts.toList := by
  have sorted :=
    List.Perm.eq_of_pairwise (fun v w _ _ (h : Precedes v w) h' => absurd h' (not_precedes h))
      ((e.sorted_candidates hperm).imp And.left) ((e.sorted_candidates (.refl _)).imp And.left)
    ((perm_insertionSort ..).trans ((hperm.filterMap _).trans (perm_insertionSort ..).symm))
  exact congrArg (take _) sorted

/-- An election takes the first of the accounts with enough stake of their own: as many as there are
places and accounts, all different, by stake and then by address, and before every such account that
is left out. It does not matter in which order the accounts are met. -/
theorem electValidators_top (state : StateDB) (epoch : Epoch) :
    let elected := (e.electValidators state epoch).validators
    elected.length =
        min e.params.activeValidators.toNat (state.accounts.filter fun _ account =>
          e.isEligible account).size ∧
      (elected.map (·.address)).Nodup ∧ elected.Pairwise Precedes ∧
      (∀ v ∈ elected, ∃ account, state.accounts[v.address]? = some account ∧
      e.isEligible account = true ∧
        e.candidate v.address account = some v) ∧
      (∀ (address : Address) account, state.accounts[address]? = some account →
        e.isEligible account = true →
        address ∉ elected.map (·.address) →
        ∃ v, e.candidate address account = some v ∧ ∀ w ∈ elected, Precedes w v) ∧
      ∀ entries, entries.Perm state.accounts.toList → e.electAmong entries = elected := by
  intro _
  have sorted := e.sorted_candidates (.refl state.accounts.toList)
  have first := sorted.sublist (take_sublist e.params.activeValidators.toNat _)
  have mem {v : ValidatorInfo} :
      v ∈ state.accounts.toList.filterMap (fun a => e.candidate a.1 a.2) ↔ ∃ address account,
      state.accounts[address]? = some account ∧ e.candidate address account = some v := by
    simp [mem_filterMap, mem_toList_iff_getElem?_eq_some]
  refine ⟨?_, pairwise_map.2 (first.imp And.right), first.imp And.left, fun v hv => ?_,
    fun address account hget heligible hout => ?_, fun entries hperm => e.electAmong_perm hperm⟩
  · refine length_take.trans (congrArg (min _) ?_)
    rw [length_insertionSort, length_filterMap_eq_countP, countP_eq_length_filter,
      ← length_toList, toList_filter]
    simp only [isSome_candidate]
  · obtain ⟨address, account, hget, hcandidate⟩ :=
      mem.1 ((mem_insertionSort _).1 (mem_of_mem_take hv))
    obtain rfl := e.address_of_candidate hcandidate
    exact ⟨account, hget, e.isSome_candidate .. ▸ Option.isSome_of_eq_some hcandidate, hcandidate⟩
  · obtain ⟨v, hcandidate⟩ :=
      Option.isSome_iff_exists.1 ((e.isSome_candidate address account).trans heligible)
    refine ⟨v, hcandidate, fun w hw => ?_⟩
    have hv := (mem_insertionSort fun a b => ranksBefore a b = true).2
      (mem.2 ⟨address, account, hget, hcandidate⟩)
    rw [← take_append_drop e.params.activeValidators.toNat (insertionSort ..)] at hv sorted
    rcases mem_append.1 hv with hin | hlater
    · exact absurd (mem_map.2 ⟨v, hin, e.address_of_candidate hcandidate⟩) hout
    · exact ((pairwise_append.1 sorted).2.2 w hw v hlater).1

/-! ## Elections after a restart -/

/-- The accounts with enough stake of their own. -/
def candidates (accounts : FinMap Address AccountState) : List ValidatorInfo :=
  accounts.toList.filterMap fun a => e.candidate a.1 a.2

/-- The candidates that are elected, in their order and with their stakes. -/
def leading (state : StateDB) : List ValidatorInfo :=
  ((e.candidates state.accounts).insertionSort fun a b => ranksBefore a b).take
    e.params.activeValidators.toNat

theorem electValidators_eq (epoch : Epoch) :
    e.electValidators state epoch = ⟨epoch, e.leading state⟩ := rfl

/-- Accounts that are no candidates do not matter. -/
theorem candidates_filter {accounts : FinMap Address AccountState} {f : Address → Bool}
    (h : ∀ (a : Address) account, accounts[a]? = some account →
      (e.candidate a account).isSome = true → f a = true) :
    e.candidates (accounts.filter fun a _ => f a) = e.candidates accounts := by
  unfold candidates
  rw [toList_filter, filterMap_filter]
  refine filterMap_congr fun entry hmem => ?_
  have hget : accounts[entry.1]? = some entry.2 := mem_toList_iff_getElem?_eq_some.1 hmem
  split
  · rfl
  · rename_i hout
    cases hcandidate : e.candidate entry.1 entry.2 with
    | none => rfl
    | some => exact absurd (h _ _ hget (by rw [hcandidate]; rfl)) hout

end ConsensusEngine

/-- The store has the index of stakers and their accounts, and all accounts with stake of their own
are indexed. -/
structure StateDB.Reopens (t : StateDB) : Prop where
  schema : Cell.schema.Agrees t (t.storage.read Cell.schema.column Cell.schema.key)
  account : ∀ a, (Cell.account a).Agrees t (t.storage.read .accounts a.asBytes)
  stakers : Cell.stakers.Agrees t (t.storage.read Cell.stakers.column Cell.stakers.key)
  indexed : Indexed (hasSelfStake · = true) t

namespace StateDB.Reopens

variable {db s t : StateDB} {store : Store}

theorem of_attachStorage (h : db.attachStorage store = some s) : s.Reopens := by
  obtain ⟨_, storage, rfl, -, hschema, hread⟩ := exists_attached h
  refine ⟨hschema, fun a hmem => ?_, fun hfits => ?_, fun a state hstate hstake => ?_⟩
  · have cached : a ∈ db.accounts := hmem.elim id fun hstaker => by
      obtain ⟨state, hstate, -⟩ := mem_stakersOf.1 hstaker
      exact mem_of_get hstate
    obtain ⟨state, hstate⟩ := Option.isSome_iff_exists.1 (mem_iff_isSome_getElem?.1 cached)
    have read : storage.read .accounts a.asBytes = some (Borsh.serialize state) := by
      refine (hread (.account a) (by simp)).trans ?_
      simp [blob, StateSnapshot.recorded, hstate]
    rw [read, hstate]
    exact .serialize state
  · exact (congrArg decodeSet (hread .stakers (by simp))).trans (decodeSet_serialize _ hfits)
  · exact mem_stakersOf.2 ⟨state, hstate, hstake⟩

theorem putAccount (h : t.Reopens) (address : Address) (state : AccountState) :
    (t.putAccount address state).Reopens where
  schema := agrees_putAccount (Cell.isSome_storage h.schema) h.schema
  account a := agrees_putAccount (c := .account a) (Cell.isSome_storage h.schema) (h.account a)
  stakers := agrees_putAccount (Cell.isSome_storage h.schema) h.stakers
  indexed := h.indexed.putAccount id

theorem putAccounts (h : t.Reopens) (puts : List (Address × AccountState)) :
    (puts.foldl (fun db put => db.putAccount put.1 put.2) t).Reopens := by
  induction puts generalizing t with
  | nil => exact h
  | cons put _ ih => exact ih (h.putAccount put.1 put.2)

/-- A restart loads the accounts of the stakers. -/
theorem accounts_eq (h : t.Reopens)
    (haccounts : ∀ (a : Address) state, t.accounts[a]? = some state → Borsh.Fits state)
    (hstakers : Borsh.Fits t.stakers.toList) (hstore : t.storage = some store) {re : StateDB}
    (hre : withStorage store = some re) : re.accounts = t.accounts.filter fun a _ =>
      t.stakers.contains a := by
  obtain ⟨store', _, _, rfl, hstamped⟩ := exists_loadCaches hre
  have read (c : Cell) (hc : c ≠ .schema) :
      store'.get c.column c.key = t.storage.read c.column c.key := by
    rw [get_of_verifyOrStamp_of_ne hstamped hc, hstore]
    rfl
  have index : loadSet store' "stakers:set" = t.stakers :=
    (congrArg decodeSet (read .stakers (by simp))).trans (h.stakers hstakers)
  apply Std.ExtTreeMap.ext_getElem?
  intro a
  show (loadAccounts store' (loadSet store' "stakers:set"))[a]? = _
  rw [index, get_loadAccounts, get_filter_key]
  split
  · rename_i hstaker
    rw [show store'.get .accounts a.asBytes = t.storage.read .accounts a.asBytes from read
      (.account a) (by simp)]
    exact h.account a (.inr (Std.ExtTreeSet.contains_iff_mem.1 hstaker)) (haccounts a)
  · rfl

end StateDB.Reopens

/-- Let candidates need some stake of their own. After a store was attached to a state and accounts
were put into it, an election on the reopened store has the same result as one in the running state,
as long as accounts and the index are short enough to be written. -/
theorem ConsensusEngine.elected_after_reopening (e : ConsensusEngine)
    (hmin : .zero < e.params.minSelfStake) {db s t re : StateDB} {store store' : Store}
    (hattach : db.attachStorage store = some s) {puts : List (Address × AccountState)}
    (ht : t = puts.foldl (fun db put => db.putAccount put.1 put.2) s)
    (haccounts : ∀ (a : Address) state, t.accounts[a]? = some state → Borsh.Fits state)
    (hstakers : Borsh.Fits t.stakers.toList) (hstore : t.storage = some store')
    (hre : withStorage store' = some re) (epoch : Epoch) : (e.electValidators re epoch).validators =
      (e.electValidators t epoch).validators := by
  have reopens : t.Reopens := ht ▸ (StateDB.Reopens.of_attachStorage hattach).putAccounts puts
  have same : e.candidates re.accounts = e.candidates t.accounts := by
    rw [reopens.accounts_eq haccounts hstakers hstore hre]
    refine e.candidates_filter fun a account hget hcandidate => Std.ExtTreeSet.contains_iff_mem.2 ?_
    refine reopens.indexed a account hget ?_
    rw [isSome_candidate] at hcandidate
    exact e.hasSelfStake_of_isEligible hmin hcandidate
  rw [electValidators_eq, electValidators_eq, leading, leading, same]

namespace Demo

/-- An engine whose candidates need a token of their own. -/
def openEngine : ConsensusEngine := ⟨{ ConsensusParams.default with minSelfStake := .fromVtt 1 }⟩

/-- A staker is elected as before when the store is reopened. -/
theorem staker_elected_again : ∃ store re, (attached.putAccount ⟨7⟩ staker).storage = some store ∧
    withStorage store = some re ∧ (openEngine.electValidators re 1).validators =
      (openEngine.electValidators (attached.putAccount ⟨7⟩ staker) 1).validators := by
  have opened : Opened (·.isEmpty = false) (fun _ => True) attached := opened_attached trivial
  have synced := opened.synced.putAccount ⟨7⟩ staker
  obtain ⟨store, hstorage⟩ := Option.isSome_iff_exists.1 synced.isSome_storage
  have hre := withStorage_eq synced compact_staker hstorage
  exact ⟨store, _, hstorage, hre,
    ConsensusEngine.elected_after_reopening openEngine (by decide) attachStorage_empty
    (show _ = [(⟨7⟩, staker)].foldl (fun db put => db.putAccount put.1 put.2) attached from rfl)
    compact_staker.account compact_staker.stakers hstorage hre 1⟩

end Demo

end Vtt
