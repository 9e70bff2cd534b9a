import Vtt.Executor.Ballot
import Vtt.State.Payout

/-!
# Thresholds of asset votes

Quorum, majority and supermajority of a vote of token holders compare shares by multiplying both
sides with basis points. The products wrap, so the answers are exact as long as the supply times ten
thousand fits a word, and beyond that only where both sides have lost as much, or the side that has
lost more is still ahead.
-/

namespace Vtt

open Lib Nat
open BitVec (toNat_mul toNat_add_of_lt)

/-! ## Comparing the last bits of numbers -/

/-- Both numbers have as many full words, or the one that has more is ahead in the last word as
well. -/
inductive ComparesWrapped (a b : ℕ) : Prop where
  | level (h : a / 2 ^ 128 = b / 2 ^ 128)
  | below (h : a / 2 ^ 128 < b / 2 ^ 128) (hlast : a % 2 ^ 128 ≤ b % 2 ^ 128)
  | above (h : b / 2 ^ 128 < a / 2 ^ 128) (hlast : b % 2 ^ 128 < a % 2 ^ 128)

theorem comparesWrapped_iff {a b : ℕ} : (a % 2 ^ 128 ≤ b % 2 ^ 128 ↔ a ≤ b) ↔
    ComparesWrapped a b := by
  have ha := Nat.div_add_mod a (2 ^ 128)
  have hb := Nat.div_add_mod b (2 ^ 128)
  have hlast := Nat.mod_lt a (Nat.two_pow_pos 128)
  have hlast' := Nat.mod_lt b (Nat.two_pow_pos 128)
  constructor
  · intro h
    rcases Nat.lt_trichotomy (a / 2 ^ 128) (b / 2 ^ 128) with hlt | heq | hgt
    · exact .below hlt (h.2 (by omega))
    · exact .level heq
    · exact .above hgt (Nat.lt_of_not_le fun hle => absurd (h.1 hle) (by omega))
  · intro h
    cases h with
    | level | below | above => omega

theorem comparesWrapped_of_lt {a b : ℕ} (ha : a < 2 ^ 128) (hb : b < 2 ^ 128) :
    ComparesWrapped a b :=
  .level (by rw [div_eq_of_lt ha, div_eq_of_lt hb])

/-- Products of words compared as words. -/
theorem decide_le_wrapped {a b c d : U128} {P : Prop} [Decidable P]
    (hP : P ↔ a.toNat * b.toNat ≤ c.toNat * d.toNat) :
    decide (a * b ≤ c * d) = decide P ↔
      ComparesWrapped (a.toNat * b.toNat) (c.toNat * d.toNat) := by
  rw [decide_eq_decide, BitVec.le_def, toNat_mul, toNat_mul, hP]
  exact comparesWrapped_iff

/-- A share is at least so many parts of ten thousand. -/
theorem bps_le_share_iff {part whole bps : ℕ} (hwhole : 0 < whole) :
    (bps : ℚ) / 10000 ≤ (part : ℚ) / whole ↔ whole * bps ≤ part * 10000 := by
  have hpos : (0 : ℚ) < whole := by exact_mod_cast hwhole
  rw [div_le_div_iff₀ (by norm_num) hpos, mul_comm (bps : ℚ)]
  exact_mod_cast Iff.rfl

/-! ## The three answers -/

namespace AssetProposal

variable {p : AssetProposal} {totalSupply : Amount}

/-- The votes for and against. -/
def yesNo (p : AssetProposal) : ℕ := p.votesYes.raw.toNat + p.votesNo.raw.toNat

/-- The yes votes are a share of the votes for and against. -/
def HasShare (p : AssetProposal) (share : ℚ) : Prop :=
  p.yesNo ≠ 0 ∧ share ≤ p.votesYes.raw.toNat / p.yesNo

instance (share : ℚ) : Decidable (p.HasShare share) := inferInstanceAs (Decidable (_ ∧ _))

/-- Nothing aborts, and the answers are those of the rational comparisons. -/
structure Exact (p : AssetProposal) (totalSupply : Amount) : Prop where
  quorum : p.hasQuorum totalSupply = some (decide ((33 / 100 : ℚ) ≤ p.cast / totalSupply.raw.toNat))
  threshold : p.passesThreshold = decide (p.HasShare (5001 / 10000))
  supermajority : p.passesSupermajority = decide (p.HasShare (67 / 100))

/-- The wrapped products compare as the products do. -/
structure Unwrapped (p : AssetProposal) (totalSupply : Amount) : Prop where
  quorum : ComparesWrapped (totalSupply.raw.toNat * 3300) (p.cast * 10000)
  threshold : ComparesWrapped (p.yesNo * 5001) (p.votesYes.raw.toNat * 10000)
  supermajority : ComparesWrapped (p.yesNo * 6700) (p.votesYes.raw.toNat * 10000)

/-- All votes, if they fit. -/
theorem exists_totalVotes (h : p.cast < 2 ^ 128) : ∃ votes, p.totalVotes = some votes ∧
    votes.raw.toNat = p.cast := by
  unfold AssetProposal.cast at h
  have hyesNo : p.votesYes.checkedAdd p.votesNo = some ⟨p.votesYes.raw + p.votesNo.raw⟩ :=
    Amount.checkedAdd_eq_some_iff.2 (toNat_add_of_lt (by omega))
  have hall : (⟨p.votesYes.raw + p.votesNo.raw⟩ : Amount).checkedAdd p.votesAbstain =
      some ⟨p.votesYes.raw + p.votesNo.raw + p.votesAbstain.raw⟩ :=
    Amount.checkedAdd_eq_some_iff.2 (toNat_add_of_lt (by rw [toNat_add_of_lt (by omega)]; omega))
  refine ⟨_, Option.bind_eq_some_iff.2 ⟨_, hyesNo, hall⟩, ?_⟩
  rw [toNat_add_of_lt (by rw [toNat_add_of_lt (by omega)]; omega), toNat_add_of_lt (by omega)]
  rfl

theorem quorum_exact_iff (hvotes : p.cast ≤ totalSupply.raw.toNat) :
    p.hasQuorum totalSupply = some (decide ((33 / 100 : ℚ) ≤ p.cast / totalSupply.raw.toNat)) ↔
      ComparesWrapped (totalSupply.raw.toNat * 3300) (p.cast * 10000) := by
  unfold hasQuorum
  split
  · rename_i hzero
    have hzero : totalSupply.raw.toNat = 0 := congrArg BitVec.toNat (beq_iff_eq.1 hzero)
    have hnone : p.cast = 0 := by omega
    rw [hzero, hnone]
    refine ⟨fun _ => .level rfl, fun _ => ?_⟩
    norm_num
  · rename_i hsome
    have hpos : 0 < totalSupply.raw.toNat := pos_of_ne_zero fun hzero => hsome (beq_iff_eq.2
      (BitVec.eq_of_toNat_eq hzero))
    obtain ⟨_, hall, hcount⟩ := exists_totalVotes (lt_of_le_of_lt hvotes totalSupply.raw.isLt)
    rw [hall, ← hcount]
    show some _ = some _ ↔ _
    rw [Option.some_inj]
    refine decide_le_wrapped ?_
    rw [show (33 / 100 : ℚ) = (3300 : ℕ) / 10000 by norm_num]
    exact bps_le_share_iff hpos

theorem share_exact_iff {bps : UInt64} {share : ℚ} (hvotes : p.yesNo < 2 ^ 128)
    (hshare : share = (bps.toNat : ℚ) / 10000) :
    p.passesShare bps = decide (p.HasShare share) ↔
      ComparesWrapped (p.yesNo * bps.toNat) (p.votesYes.raw.toNat * 10000) := by
  have hsum : (p.votesYes.raw + p.votesNo.raw).toNat = p.yesNo := toNat_add_of_lt hvotes
  have hbps : (U128.ofU64 bps).toNat = bps.toNat := mod_eq_of_lt (bps.toNat_lt.trans (by decide))
  unfold passesShare
  dsimp only
  split
  · rename_i hzero
    have hnone : p.yesNo = 0 := by rw [← hsum, hzero]; rfl
    have hyes : p.votesYes.raw.toNat = 0 := by unfold yesNo at hnone; omega
    have hnot : ¬ p.HasShare share := fun h => h.1 hnone
    rw [hnone, hyes, decide_eq_false hnot, zero_mul]
    exact ⟨fun _ => .level rfl, fun _ => rfl⟩
  · rename_i hsome
    have hpos : p.yesNo ≠ 0 := fun hzero => hsome (BitVec.eq_of_toNat_eq (hsum.trans hzero))
    rw [← hsum, ← hbps]
    refine decide_le_wrapped ?_
    rw [hsum, hbps, HasShare, hshare, bps_le_share_iff (pos_of_ne_zero hpos)]
    exact and_iff_right hpos

theorem unwrapped_of_fits (hvotes : p.cast ≤ totalSupply.raw.toNat)
    (hfits : totalSupply.raw.toNat * 10000 < 2 ^ 128) :
    p.Unwrapped totalSupply := by
  have hyesNo : p.yesNo ≤ p.cast := Nat.le_add_right ..
  have hyes : p.votesYes.raw.toNat ≤ p.yesNo := Nat.le_add_right ..
  have hscaled {part bps : ℕ} (hpart : part ≤ totalSupply.raw.toNat) (hbps : bps ≤ 10000) :
      part * bps < 2 ^ 128 :=
    Nat.lt_of_le_of_lt (Nat.mul_le_mul hpart hbps) hfits
  have hyes := hyes.trans (hyesNo.trans hvotes)
  have hyesNo := hyesNo.trans hvotes
  constructor
  · exact comparesWrapped_of_lt (hscaled le_rfl (by decide)) (hscaled hvotes le_rfl)
  iterate 2 exact comparesWrapped_of_lt (hscaled hyesNo (by decide)) (hscaled hyes le_rfl)

/-- With no more votes than supply, the answers are exact where the products compare unwrapped, and
so they are if the supply times ten thousand fits a word. -/
theorem thresholds_exact_iff (hvotes : p.cast ≤ totalSupply.raw.toNat) :
    (p.Exact totalSupply ↔ p.Unwrapped totalSupply) ∧
      (totalSupply.raw.toNat * 10000 < 2 ^ 128 → p.Exact totalSupply) := by
  have hyesNo : p.yesNo < 2 ^ 128 := by
    have := totalSupply.raw.isLt
    unfold AssetProposal.cast at hvotes
    unfold yesNo
    omega
  have hquorum := quorum_exact_iff hvotes
  have hthreshold : p.passesThreshold = decide (p.HasShare (5001 / 10000)) ↔
      ComparesWrapped (p.yesNo * 5001) (p.votesYes.raw.toNat * 10000) :=
    share_exact_iff hyesNo rfl
  have hsupermajority : p.passesSupermajority = decide (p.HasShare (67 / 100)) ↔
      ComparesWrapped (p.yesNo * 6700) (p.votesYes.raw.toNat * 10000) :=
    share_exact_iff hyesNo (show (67 / 100 : ℚ) = (6700 : ℕ) / 10000 by norm_num)
  have hiff : p.Exact totalSupply ↔ p.Unwrapped totalSupply :=
    ⟨fun h => ⟨hquorum.1 h.quorum, hthreshold.1 h.threshold, hsupermajority.1 h.supermajority⟩,
      fun h => ⟨hquorum.2 h.quorum, hthreshold.2 h.threshold, hsupermajority.2 h.supermajority⟩⟩
  exact ⟨hiff, fun hfits => hiff.2 (unwrapped_of_fits hvotes hfits)⟩

end AssetProposal

namespace Demo

/-- A vote with one token for the proposal. -/
def oneVote : AssetProposal where
  id := .zero
  assetId := .zero
  proposer := .zero
  action := .signal "ask"
  description := "ask"
  createdAt := 0
  votingEnd := 0
  status := .active
  votesYes := ⟨1⟩
  votesNo := .zero
  votesAbstain := .zero
  voters := []

/-- One token out of three votes for a proposal. -/
theorem oneVote_exact : oneVote.cast ≤ (⟨3⟩ : Amount).raw.toNat ∧ oneVote.Exact ⟨3⟩ := by
  have hvotes : oneVote.cast ≤ (⟨3⟩ : Amount).raw.toNat := by decide
  exact ⟨hvotes, (AssetProposal.thresholds_exact_iff hvotes).2 (by decide)⟩

/-- The least supply of which the quorum starts again at zero. -/
def wrappedSupply : Amount := ⟨BitVec.ofNat 128 (2 ^ 128 / 3300 + 1)⟩

/-- One token is a quorum of a vast supply. -/
theorem oneVote_is_quorum : oneVote.cast ≤ wrappedSupply.raw.toNat ∧
    oneVote.hasQuorum wrappedSupply = some true ∧
    ¬ (33 / 100 : ℚ) ≤ oneVote.cast / wrappedSupply.raw.toNat ∧ ¬ oneVote.Exact wrappedSupply := by
  have hquorum : oneVote.hasQuorum wrappedSupply = some true := by decide
  have hshare : ¬ (33 / 100 : ℚ) ≤ oneVote.cast / wrappedSupply.raw.toNat := by
    rw [show oneVote.cast = 1 from rfl, show wrappedSupply.raw.toNat = 2 ^ 128 / 3300 + 1 from rfl]
    norm_num
  refine ⟨by decide, hquorum, hshare, fun h => ?_⟩
  have hexact := h.quorum
  rw [hquorum, decide_eq_false hshare] at hexact
  cases hexact

end Demo

end Vtt
