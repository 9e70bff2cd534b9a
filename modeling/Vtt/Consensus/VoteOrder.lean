import Vtt.Consensus.Finality

/-!
# Votes in any order

As long as every block hash comes with one number, none of that is missed: a block above the
finalized height has all its voters. So the finalized height depends on which votes were submitted,
not on their order or on how often.
-/

namespace Vtt

open Lib Std List UInt64

namespace FinalityTracker

/-- Those who voted for a block. -/
def votersIn (votes : List FinalityVote) (hash : H256) : FinSet Address :=
  .ofList ((votes.filter (·.blockHash = hash)).map (·.voter)) compare

/-- Every block hash comes with one number. -/
def Numbered (votes : List FinalityVote) : Prop :=
  ∀ v ∈ votes, ∀ w ∈ votes, v.blockHash = w.blockHash → v.blockNumber = w.blockNumber

/-- Some block of a height has enough voters. -/
def Reached (enough : ℕ) (votes : List FinalityVote) (number : BlockNumber) : Prop :=
  ∃ v ∈ votes, v.blockNumber = number ∧ enough ≤ (votersIn votes v.blockHash).size

/-- Submit votes in turn. -/
def submitAll (t : FinalityTracker) (votes : List FinalityVote) : FinalityTracker :=
  votes.foldl (fun t vote => (t.submitVote vote).2) t

/-- The votes for a block are for heights above the finalized one. -/
def Young (t : FinalityTracker) (votes : List FinalityVote) (hash : H256) : Prop :=
  ∀ v ∈ votes, v.blockHash = hash → t.finalizedNumber < v.blockNumber

/-- What a tracker knows after votes: it has the voters of blocks above the finalized height, and
the finalized height is the last one that has enough. -/
structure Tracks (enough : ℕ) (votes : List FinalityVote) (t : FinalityTracker) : Prop where
  threshold : t.threshold = enough
  voters : ∀ hash, t.Young votes hash → t.votersOf hash = votersIn votes hash
  numbers : ∀ hash number, t.blockNumbers[hash]? = some number →
    ∃ v ∈ votes, v.blockHash = hash ∧ v.blockNumber = number
  below : ∀ number, Reached enough votes number → number ≤ t.finalizedNumber
  reached : t.finalizedNumber = 0 ∨ Reached enough votes t.finalizedNumber

variable {votes : List FinalityVote} {t : FinalityTracker} {vote : FinalityVote} {enough : ℕ}
  {number : BlockNumber} {hash : H256}

theorem mem_votersIn {voter : Address} :
    voter ∈ votersIn votes hash ↔ ∃ v ∈ votes, v.blockHash = hash ∧ v.voter = voter := by
  simp [votersIn, and_assoc]

theorem votersIn_snoc : votersIn (votes ++ [vote]) hash =
    if vote.blockHash = hash then (votersIn votes hash).insert vote.voter
      else votersIn votes hash := by
  apply ExtTreeSet.ext_mem
  intro _
  split
  · simp_all [mem_votersIn, or_and_right, exists_or, or_comm]
  · simp_all [mem_votersIn, or_and_right, exists_or]

theorem Reached.snoc (h : Reached enough votes number) :
    Reached enough (votes ++ [vote]) number := by
  obtain ⟨v, hv, hnumber, henough⟩ := h
  refine ⟨v, mem_append_left _ hv, hnumber, henough.trans ?_⟩
  rw [votersIn_snoc]
  split
  · exact ExtTreeSet.size_le_size_insert
  · exact Nat.le_refl _

/-- A vote lets its own block have enough voters, or the block had them before. -/
theorem reached_of_snoc (hnumbered : Numbered (votes ++ [vote]))
    (h : Reached enough (votes ++ [vote]) number) :
    (number = vote.blockNumber ∧ enough ≤ (votersIn (votes ++ [vote]) vote.blockHash).size) ∨
      Reached enough votes number := by
  obtain ⟨v, hv, rfl, henough⟩ := h
  by_cases hhash : vote.blockHash = v.blockHash
  · exact .inl ⟨hnumbered v hv vote (by simp) hhash.symm, hhash ▸ henough⟩
  · have hold : v ∈ votes := (mem_append.1 hv).resolve_right fun h =>
      hhash (mem_singleton.1 h ▸ rfl)
    rw [votersIn_snoc, if_neg hhash] at henough
    exact .inr ⟨v, hold, rfl, henough⟩

theorem Young.init (h : t.Young (votes ++ [vote]) hash) : t.Young votes hash :=
  fun v hv => h v (mem_append_left _ hv)

/-- Forgetting votes for old blocks leaves the voters of the others. -/
theorem votersOf_cleanup (h : ∀ number, t.blockNumbers[hash]? = some number →
    t.finalizedNumber < number) :
    t.cleanup.votersOf hash = t.votersOf hash := by
  have young : (t.blockNumbers.filter fun _ number => number ≤ t.finalizedNumber)[hash]? =
      none := by
    rw [ExtTreeMap.getElem?_filter']
    cases hnumber : t.blockNumbers[hash]? with
    | none => rfl
    | some number => simp [h number hnumber]
  unfold votersOf cleanup
  rw [get_filter_key, if_pos]
  rw [ExtTreeMap.contains_eq_isSome_getElem?, young]
  rfl

theorem numbers_of_cleanup (h : t.cleanup.blockNumbers[hash]? = some number) :
    t.blockNumbers[hash]? = some number := by
  unfold cleanup at h
  rw [get_filter_key] at h
  split at h
  · exact h
  · cases h

namespace Tracks

theorem voters_note (vote : FinalityVote) (h : Tracks enough votes t)
    (hyoung : t.Young votes hash) :
    (t.note vote).votersOf hash = votersIn (votes ++ [vote]) hash := by
  rw [votersOf_note, votersIn_snoc, h.voters hash hyoung]

theorem numbers_note (h : Tracks enough votes t)
    (hnoted : (t.note vote).blockNumbers[hash]? = some number) :
    ∃ v ∈ votes ++ [vote], v.blockHash = hash ∧ v.blockNumber = number := by
  unfold note at hnoted
  rw [get_insert] at hnoted
  split at hnoted
  · exact ⟨vote, by simp, ‹_›, Option.some.inj hnoted⟩
  · obtain ⟨v, hv, hrest⟩ := h.numbers hash number hnoted
    exact ⟨v, mem_append_left _ hv, hrest⟩

/-- A vote keeps what the tracker knows. -/
theorem submit (h : Tracks enough votes t) (hnumbered : Numbered (votes ++ [vote])) :
    Tracks enough (votes ++ [vote]) (t.submitVote vote).2 := by
  rcases submitVote_cases t vote with ⟨hold, hstep⟩ | ⟨hnew, hstep⟩
  · rw [hstep]
    refine ⟨h.threshold, fun hash hyoung => ?_, fun hash m hm => ?_, fun m hm => ?_,
      h.reached.imp_right .snoc⟩
    · have hother : vote.blockHash ≠ hash := fun heq => not_lt.2 hold (hyoung vote (by simp) heq)
      rw [votersIn_snoc, if_neg hother]
      exact h.voters hash hyoung.init
    · obtain ⟨v, hv, hrest⟩ := h.numbers hash m hm
      exact ⟨v, mem_append_left _ hv, hrest⟩
    · rcases reached_of_snoc hnumbered hm with ⟨rfl, -⟩ | hm
      · exact hold
      · exact h.below m hm
  · -- the block has one number, so that all its voters are known
    have own := h.voters_note vote fun v hv hhash =>
      hnumbered v (mem_append_left _ hv) vote (by simp) hhash ▸ hnew
    rw [own, h.threshold] at hstep
    rcases hstep with ⟨henough, hstep⟩ | ⟨hfew, hstep⟩
    · rw [hstep]
      refine ⟨h.threshold, fun hash hyoung => ?_, fun hash m hm => ?_, fun m hm => ?_,
        .inr ⟨vote, by simp, rfl, henough⟩⟩
      · rw [votersOf_cleanup]
        · exact h.voters_note _ fun v hv hhash => lt_trans hnew (hyoung.init v hv hhash)
        · intro m hm
          obtain ⟨v, hv, hhash, rfl⟩ := h.numbers_note hm
          exact hyoung v hv hhash
      · have noted := numbers_of_cleanup hm
        exact h.numbers_note noted
      · rcases reached_of_snoc hnumbered hm with ⟨rfl, -⟩ | hm
        · exact le_refl _
        · exact le_of_lt (lt_of_le_of_lt (h.below m hm) hnew)
    · rw [hstep]
      refine ⟨h.threshold, fun hash hyoung => h.voters_note _ hyoung.init,
        fun hash m hm => h.numbers_note hm, fun m hm => ?_, h.reached.imp_right .snoc⟩
      rcases reached_of_snoc hnumbered hm with ⟨-, henough⟩ | hm
      · exact absurd henough (Nat.not_le.2 hfew)
      · exact h.below m hm

end Tracks

theorem submitAll_append (first rest : List FinalityVote) :
    t.submitAll (first ++ rest) = (t.submitAll first).submitAll rest := foldl_append

theorem tracks_submitAll (count : ℕ) (hnumbered : Numbered votes) :
    Tracks (new count).threshold votes ((new count).submitAll votes) := by
  induction votes using reverseRecOn with
  | nil =>
    exact ⟨rfl, fun _ _ => rfl, fun _ _ h => by
      simp [submitAll, new] at h, fun _ ⟨_, h, _⟩ => (nomatch h), .inl rfl⟩
  | append_singleton _ _ ih =>
    rw [submitAll_append]
    refine Tracks.submit (ih fun v hv w hw => ?_) hnumbered
    exact hnumbered v (mem_append_left _ hv) w (mem_append_left _ hw)

theorem finalizedNumber_le_submitAll (t : FinalityTracker) (votes : List FinalityVote) :
    t.finalizedNumber ≤ (t.submitAll votes).finalizedNumber := by
  induction votes generalizing t with
  | nil => exact le_refl _
  | cons vote _ ih =>
    have step : t.finalizedNumber ≤ (t.submitVote vote).2.finalizedNumber := by
      rcases submitVote_cases t vote with ⟨-, hstep⟩ | ⟨hnew, ⟨-, hstep⟩ | ⟨-, hstep⟩⟩
      · exact hstep ▸ le_refl _
      · exact hstep ▸ le_of_lt hnew
      · exact hstep ▸ le_refl _
    exact le_trans step (ih _)

/-- For every number of validators, and votes in which every block hash comes with one number, in
whatever order and however often the votes are submitted: the finalized height is the largest one
above zero at which some block has enough voters, and `0` if there is none; and it never went down
on the way. -/
theorem finalized_largest (count : ℕ) (hnumbered : Numbered votes) {order : List FinalityVote}
    (horder : ∀ vote, vote ∈ order ↔ vote ∈ votes) : let final :=
      ((new count).submitAll order).finalizedNumber
    (∀ number, 0 < number → Reached (new count).threshold votes number → number ≤ final) ∧
      (final = 0 ∨ Reached (new count).threshold votes final) ∧
      ∀ first next rest, order = first ++ next ++ rest →
        ((new count).submitAll first).finalizedNumber ≤
          ((new count).submitAll (first ++ next)).finalizedNumber := by
  have tracks :=
    tracks_submitAll count fun v hv w hw => hnumbered v ((horder v).1 hv) w ((horder w).1 hw)
  have same : ∀ enough number, Reached enough order number ↔ Reached enough votes number := by
    have voters : ∀ hash, votersIn order hash = votersIn votes hash := fun hash =>
      ExtTreeSet.ext_mem fun voter => by simp only [mem_votersIn, horder]
    simp only [Reached, voters, horder, implies_true]
  refine ⟨fun number _ h => tracks.below number ((same _ _).2 h),
    tracks.reached.imp_right (same _ _).1, ?_⟩
  intro _ _ _ _
  rw [submitAll_append]
  exact finalizedNumber_le_submitAll _ _

/-- After votes of members of a set of validators, another vote makes its block final. -/
structure Finalizes (validators : Finset Address) (votes : List FinalityVote)
    (vote : FinalityVote) : Prop where
  numbered : Numbered (votes ++ [vote])
  members : ∀ v ∈ votes ++ [vote], v.voter ∈ validators
  final : (((new validators.card).submitAll votes).submitVote vote).1 = true

variable {validators : Finset Address}

/-- More than two thirds of the validators voted for the block. -/
theorem Finalizes.exists_quorum (h : Finalizes validators votes vote) : ∃ quorum ⊆ validators,
    2 * validators.card < 3 * quorum.card ∧ ∀ voter ∈ quorum,
      voter ∈ votersIn (votes ++ [vote]) vote.blockHash := by
  obtain ⟨hnumbered, hmembers, hfinal⟩ := h
  have tracks := tracks_submitAll validators.card fun v hv w hw =>
    hnumbered v (mem_append_left _ hv) w (mem_append_left _ hw)
  obtain ⟨-, hstep⟩ | ⟨hnew, ⟨henough, -⟩ | ⟨-, hstep⟩⟩ :=
    submitVote_cases ((new validators.card).submitAll votes) vote
  · simp [hstep] at hfinal
  · have own := tracks.voters_note vote fun v hv hhash =>
      hnumbered v (mem_append_left _ hv) vote (by simp) hhash ▸ hnew
    have distinct : (votersIn (votes ++ [vote]) vote.blockHash).toList.Nodup :=
      ExtTreeSet.distinct_toList.imp fun hne heq => hne (compare_eq_iff_eq.2 heq)
    have hpos := Finset.card_pos.2 ⟨_, hmembers vote (by simp)⟩
    rw [own, tracks.threshold, threshold, ← ExtTreeSet.length_toList,
      ← toFinset_card_of_nodup distinct] at henough
    simp only [new, hpos.ne', if_false] at henough
    refine ⟨(votersIn (votes ++ [vote]) vote.blockHash).toList.toFinset, fun voter hvoter => ?_, by
      omega, by simp⟩
    obtain ⟨v, hv, -, rfl⟩ := mem_votersIn.1 (ExtTreeSet.mem_toList.1 (mem_toFinset.1 hvoter))
    exact hmembers v hv
  · simp [hstep] at hfinal

/-- Whenever two nodes, each after votes of its own, each hold a block final, more than a third of
the validators voted for both blocks. -/
theorem finals_share_voters {votes' : List FinalityVote} {vote' : FinalityVote}
    (h : Finalizes validators votes vote) (h' : Finalizes validators votes' vote') :
      ∃ both ⊆ validators, validators.card < 3 * both.card ∧ ∀ voter ∈ both,
      voter ∈ votersIn (votes ++ [vote]) vote.blockHash ∧
      voter ∈ votersIn (votes' ++ [vote']) vote'.blockHash := by
  obtain ⟨quorum, hmembers, henough, hquorum⟩ := h.exists_quorum
  obtain ⟨quorum', hmembers', henough', hquorum'⟩ := h'.exists_quorum
  refine ⟨quorum ∩ quorum', Finset.inter_subset_left.trans hmembers, ?_, fun voter hvoter => ?_⟩
  · have overlap := Finset.card_union_add_card_inter quorum quorum'
    have inside := Finset.card_le_card (Finset.union_subset hmembers hmembers')
    omega
  · obtain ⟨hone, hother⟩ := Finset.mem_inter.1 hvoter
    exact ⟨hquorum voter hone, hquorum' voter hother⟩

end FinalityTracker

namespace Demo

open FinalityTracker

/-- The vote of the only validator, submitted twice. -/
theorem vote_twice_finalizes : ∃ v : FinalityVote, Numbered
    [v] ∧ ((new 1).submitAll [v, v]).finalizedNumber = 5 ∧
    Reached (new 1).threshold [v] ((new 1).submitAll [v, v]).finalizedNumber := by
  have final : ((new 1).submitAll [⟨⟨1⟩, ⟨2⟩, 5⟩, ⟨⟨1⟩, ⟨2⟩, 5⟩]).finalizedNumber = 5 := by
    decide +kernel
  have numbered : Numbered [⟨⟨1⟩, ⟨2⟩, 5⟩] := by simp [Numbered]
  refine ⟨_, numbered, final, (finalized_largest 1 numbered (by simp)).2.1.resolve_left ?_⟩
  decide

/-- The only validator makes one block final at a node and another one at another node. -/
theorem conflicting_share_voters : ∃ v w both, v.blockHash ≠ w.blockHash ∧ Finalizes {⟨1⟩} [] v ∧
    Finalizes {⟨1⟩} [] w ∧ 0 < Finset.card both ∧
    ∀ voter ∈ both, voter ∈ votersIn [v] v.blockHash ∧ voter ∈ votersIn [w] w.blockHash := by
  have final : Finalizes {⟨1⟩} [] ⟨⟨1⟩, ⟨5⟩, 1⟩ := ⟨by simp [Numbered], by simp, by decide +kernel⟩
  have final' : Finalizes {⟨1⟩} [] ⟨⟨1⟩, ⟨6⟩, 1⟩ := ⟨by simp [Numbered], by simp, by decide +kernel⟩
  obtain ⟨both, -, hmany, hboth⟩ := finals_share_voters final final'
  exact ⟨_, _, both, by decide, final, final', by omega, hboth⟩

end Demo

end Vtt
