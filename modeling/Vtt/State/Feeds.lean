import Vtt.State.Records

/-!
# Rounds of oracle feeds

A feed collects one submission of each source until it has a quorum, publishes their median under
the newest of their times, and starts over. The other times are not looked at, so that an old
submission is taken for as fresh as the newest.
-/

namespace Vtt

open Lib List

namespace OracleFeed

/-- Read the published value, unless it is stale. The time at which it becomes so wraps. -/
def read (f : OracleFeed) (currentTime : Timestamp) : Option (Amount × Timestamp) :=
  f.latestValue.bind fun value =>
    if 0 < f.maxStalenessMs ∧ f.updatedAt + f.maxStalenessMs < currentTime then none
      else some (value, f.updatedAt)

/-- What is pending with a submission, which replaces an earlier one of its source. -/
def joined (f : OracleFeed) (s : OracleSubmission) : List OracleSubmission :=
  f.pendingSubmissions.filter (·.source != s.source) ++ [s]

/-- A feed after submissions, with the round that it published last. -/
def submitAll (f : OracleFeed) (submissions : List OracleSubmission) :
    OracleFeed × List OracleSubmission :=
  submissions.foldl (fun (f, round) s =>
    let submitted := f.submit s.source s.value s.timestamp
    (submitted.2, if submitted.1 then f.joined s else round)) (f, [])

/-- A feed with a limit on staleness, and the submissions of the round under the time of which it
has published. -/
structure Stamped (maxStalenessMs : UInt64) (f : OracleFeed) (round : List OracleSubmission) :
    Prop where
  staleness : f.maxStalenessMs = maxStalenessMs
  newest : f.latestValue = none ∨ ∀ s ∈ round, s.timestamp ≤ f.updatedAt

variable {f : OracleFeed} {s : OracleSubmission} {round submissions : List OracleSubmission}
  {maxStalenessMs : UInt64}

theorem le_newest (round : List OracleSubmission) (start : Timestamp) :
    start ≤ round.foldl (fun t s => if t ≤ s.timestamp then s.timestamp else t) start ∧
      ∀ s ∈ round, s.timestamp ≤
        round.foldl (fun t s => if t ≤ s.timestamp then s.timestamp else t) start := by
  induction round generalizing start with
  | nil => exact ⟨UInt64.le_refl _, fun _ h => (nomatch h)⟩
  | cons r _ ih =>
    obtain ⟨hstart, hrest⟩ := ih (if start ≤ r.timestamp then r.timestamp else start)
    have both : start ≤ (if start ≤ r.timestamp then r.timestamp else start) ∧
        r.timestamp ≤ if start ≤ r.timestamp then r.timestamp else start := by
      split
      · exact ⟨‹_›, UInt64.le_refl _⟩
      · exact ⟨UInt64.le_refl _, (UInt64.le_total ..).resolve_left ‹_›⟩
    refine ⟨UInt64.le_trans both.1 hstart, fun s hs => ?_⟩
    rcases mem_cons.1 hs with rfl | hs
    · exact UInt64.le_trans both.2 hstart
    · exact hrest s hs

/-- What is pending is published under the newest of its times. -/
theorem aggregate_stamped (hpending : f.pendingSubmissions ≠ []) :
    Stamped f.maxStalenessMs f.aggregate f.pendingSubmissions := by
  unfold aggregate
  dsimp only
  split
  · rename_i hnone
    rw [getElem?_eq_none_iff, length_insertionSort, length_map] at hnone
    exact absurd (length_pos_iff.2 hpending) (by omega)
  · exact ⟨rfl, .inr (le_newest _ 0).2⟩

/-- A submission publishes its round, or leaves what was published. -/
theorem Stamped.submit (h : Stamped maxStalenessMs f round) (s : OracleSubmission) :
    Stamped maxStalenessMs (f.submit s.source s.value s.timestamp).2
      (if (f.submit s.source s.value s.timestamp).1 then f.joined s else round) := by
  unfold OracleFeed.submit
  split
  · exact h
  · dsimp only
    split
    · rw [← h.staleness]
      exact aggregate_stamped (f := { f with pendingSubmissions := f.joined s }) (by simp [joined])
    · exact ⟨h.staleness, h.newest⟩

theorem Stamped.submitAll (h : Stamped maxStalenessMs f []) (submissions : List OracleSubmission) :
    Stamped maxStalenessMs (f.submitAll submissions).1 (f.submitAll submissions).2 :=
  foldlRecOn (motive := fun state : _ × _ => Stamped maxStalenessMs state.1 state.2) submissions _ h
    fun _ h s _ => h.submit s

/-- What is read of a feed was submitted recently, and the time at which it becomes stale does not
wrap. -/
structure Fresh (f : OracleFeed) (round : List OracleSubmission) : Prop where
  fits : f.latestValue.isSome → f.updatedAt.toNat + f.maxStalenessMs.toNat < 2 ^ 64
  recent : ∀ now, (f.read now).isSome → ∀ s ∈ round, now.toNat ≤
    s.timestamp.toNat + f.maxStalenessMs.toNat

theorem isSome_read_iff (hstale : 0 < f.maxStalenessMs)
    (hfits : f.updatedAt.toNat + f.maxStalenessMs.toNat < 2 ^ 64) {now : Timestamp} :
    (f.read now).isSome ↔ f.latestValue.isSome ∧ now.toNat ≤
      f.updatedAt.toNat + f.maxStalenessMs.toNat := by
  unfold read
  cases f.latestValue with
  | none => simp
  | some =>
    have hsum : (f.updatedAt + f.maxStalenessMs).toNat =
        f.updatedAt.toNat + f.maxStalenessMs.toNat :=
      (UInt64.toNat_add ..).trans (Nat.mod_eq_of_lt hfits)
    simp only [Option.bind_some, hstale, true_and, UInt64.lt_iff_toNat_lt, hsum]
    split
    · simpa
    · simpa using Nat.not_lt.1 ‹_›

/-- For every new feed with a limit on staleness and all submissions: what is read is fresh exactly
if the limit does not take the published time past the end of the word and all submissions of the
published round have that time. -/
theorem fresh_iff_simultaneous (feedId : H256) (name : String) (feedType : OracleFeedType)
    (sources : List Address) (quorum decimals : UInt8) (hstale : 0 < maxStalenessMs)
    (submissions : List OracleSubmission) :
    let state :=
      (newWithDecimals feedId name feedType sources quorum maxStalenessMs decimals).submitAll
        submissions
    Fresh state.1 state.2 ↔
      (state.1.latestValue.isSome → state.1.updatedAt.toNat + maxStalenessMs.toNat < 2 ^ 64 ∧
      ∀ s ∈ state.2, s.timestamp = state.1.updatedAt) := by
  have h := Stamped.submitAll
    (f := newWithDecimals feedId name feedType sources quorum maxStalenessMs decimals) ⟨rfl,
    .inl rfl⟩ submissions
  generalize submitAll _ submissions = state at h
  obtain ⟨f, _⟩ := state
  dsimp only at h ⊢
  obtain ⟨rfl, newest⟩ := h
  constructor
  · intro fresh hsome
    have hfits := fresh.fits hsome
    refine ⟨hfits, fun s hs => ?_⟩
    -- at the last moment at which the value is read
    have last := fresh.recent (f.updatedAt + f.maxStalenessMs)
      ((isSome_read_iff hstale hfits).2 ⟨hsome, by rw [UInt64.toNat_add]; omega⟩) s hs
    rw [UInt64.toNat_add, Nat.mod_eq_of_lt hfits] at last
    have before :=
      UInt64.le_iff_toNat_le.1 (newest.resolve_left (Option.isSome_iff_ne_none.1 hsome) s hs)
    exact UInt64.toNat_inj.1 (by omega)
  · refine fun hsame => ⟨fun hsome => (hsame hsome).1, fun now hread s hs => ?_⟩
    have hsome : f.latestValue.isSome := by
      obtain ⟨_, hread⟩ := Option.isSome_iff_exists.1 hread
      obtain ⟨_, hvalue, -⟩ := Option.bind_eq_some_iff.1 hread
      exact Option.isSome_of_mem hvalue
    rw [(hsame hsome).2 s hs]
    exact ((isSome_read_iff hstale (hsame hsome).1).1 hread).2

end OracleFeed

namespace Demo

open OracleFeed

/-- A feed of two sources, both of which have to submit. -/
def duo : OracleFeed := newWithDecimals .zero "" (.custom "") [⟨1⟩, ⟨2⟩] 2 10 0

/-- Both sources submit at the same time. -/
theorem pair_fresh : (duo.submitAll [⟨⟨1⟩, ⟨7⟩, 50⟩, ⟨⟨2⟩, ⟨8⟩, 50⟩]).1.latestValue.isSome = true ∧
    (duo.submitAll [⟨⟨1⟩, ⟨7⟩, 50⟩, ⟨⟨2⟩, ⟨8⟩, 50⟩]).2.length = 2 ∧
    Fresh (duo.submitAll [⟨⟨1⟩, ⟨7⟩, 50⟩, ⟨⟨2⟩, ⟨8⟩, 50⟩]).1
      (duo.submitAll [⟨⟨1⟩, ⟨7⟩, 50⟩, ⟨⟨2⟩, ⟨8⟩, 50⟩]).2 :=
  ⟨by decide, by decide, (fresh_iff_simultaneous _ _ _ _ _ _ (by decide) _).2 (by decide)⟩

/-- One source submitted long before the other. -/
theorem old_submission_read : ¬ Fresh (duo.submitAll [⟨⟨1⟩, ⟨7⟩, 50⟩, ⟨⟨2⟩, ⟨8⟩, 5000⟩]).1
    (duo.submitAll [⟨⟨1⟩, ⟨7⟩, 50⟩, ⟨⟨2⟩, ⟨8⟩, 5000⟩]).2 :=
  fun fresh => absurd (fresh.recent 5000 (by decide) ⟨⟨1⟩, ⟨7⟩, 50⟩ (by decide)) (by decide)

end Demo

end Vtt
