import Vtt.Crypto

/-!
# Shared security

The relay chain lends validators to a chain for an epoch. They are drawn by a partial shuffle of
indices with the bytes of a hash; an index out of range would abort.
-/

namespace Vtt.SharedSecurity

open Lib List

/-- The validators of a chain in an epoch. -/
structure ValidatorAssignment where
  chainId : ChainId
  epoch : Epoch
  validators : List Address

/-- A round of the shuffle: an index is swapped with one that is not before it, chosen by four bytes
of the seed. -/
def shuffleRound (seed : H256) (indices : List ℕ) (i : ℕ) : Option (List ℕ) := do
  let randVal := leNat ([0, 1, 2, 3].map fun k => seed.asBytes.getD ((i * 4 % 32 + k) % 32) 0)
  let j := i + randVal % (indices.length - i)
  pure ((indices.set i (← indices[j]?)).set j (← indices[i]?))

def assignValidators [Crypto] (relayValidators : List Address) (chainId : ChainId) (epoch : Epoch)
    (count : UInt32) :
    Option ValidatorAssignment := do
  let count := min count.toNat relayValidators.length
  if count = 0 ∨ relayValidators = [] then
    pure ⟨chainId, epoch, []⟩
  else if relayValidators.length ≤ count then
    pure ⟨chainId, epoch, relayValidators⟩
  else
    let indices ←
      (range count).foldlM (shuffleRound (blake3Hash (Borsh.serialize (epoch, chainId.id))))
      (range relayValidators.length)
    pure ⟨chainId, epoch, ← (indices.take count).mapM (relayValidators[·]?)⟩

variable {n count : ℕ} {indices : List ℕ} {xs : List Address}

/-- The rounds of the shuffle permute the indices. -/
theorem exists_shuffled (seed : H256) (h : count ≤ n) :
    ∃ indices, (range count).foldlM (shuffleRound seed) (range n) = some indices ∧
      indices.Perm (range n) := by
  induction count with
  | zero => exact ⟨_, rfl, .refl _⟩
  | succ i ih =>
    obtain ⟨indices, hfold, hperm⟩ := ih (Nat.le_of_succ_le h)
    have hlength : indices.length = n := hperm.length_eq.trans length_range
    have hi : i < indices.length := by omega
    rw [range_succ, foldlM_append, hfold]
    show ∃ _, (shuffleRound seed indices i >>= pure) = _ ∧ _
    rw [bind_pure, shuffleRound]
    -- one is left to draw from, so the other index is in range
    generalize leNat _ = randVal
    have hj : i + randVal % (indices.length - i) < indices.length := by
      have hlt := Nat.mod_lt randVal (Nat.sub_pos_of_lt hi)
      omega
    rw [getElem?_eq_getElem hi, getElem?_eq_getElem hj]
    exact ⟨_, rfl, (set_set_perm hi hj).trans hperm⟩

theorem filterMap_range (xs : List Address) : (range xs.length).filterMap (xs[·]?) = xs := by
  induction xs with
  | nil => rfl
  | cons x xs ih => simp [range_succ_eq_map, filterMap_map, ih]

/-- What is at indices in range. -/
theorem exists_taken (h : ∀ i ∈ indices, i < xs.length) :
    ∃ ys, indices.mapM (xs[·]?) = some ys ∧ indices.filterMap (xs[·]?) = ys ∧
      ys.length = indices.length := by
  induction indices with
  | nil => exact ⟨[], rfl, rfl, rfl⟩
  | cons i rest ih =>
    obtain ⟨hi, hrest⟩ := forall_mem_cons.1 h
    obtain ⟨ys, hmap, hfilter, hlength⟩ := ih hrest
    refine ⟨xs[i] :: ys, ?_, ?_, congrArg (· + 1) hlength⟩
    · rw [mapM_cons, getElem?_eq_getElem hi, hmap]
      rfl
    · rw [filterMap_cons_some (getElem?_eq_getElem hi), hfilter]

/-- Whatever the hash is: the assignment has as many validators as were asked for, or all; they are
of the list, and distinct if the list is. -/
theorem assignment_proper [Crypto] (relayValidators : List Address) (chainId : ChainId)
    (epoch : Epoch) (count : UInt32) :
    ∃ a, assignValidators relayValidators chainId epoch count = some a ∧
      a.validators.length = min count.toNat relayValidators.length ∧
      (∀ v ∈ a.validators, v ∈ relayValidators) ∧
      (relayValidators.Nodup → a.validators.Nodup) := by
  unfold assignValidators
  dsimp only
  split
  · rename_i hnone
    refine ⟨_, rfl, ?_, nofun, fun _ => .nil⟩
    obtain hzero | rfl := hnone
    · exact hzero.symm
    · exact (Nat.min_zero _).symm
  split
  · rename_i hall
    exact ⟨_, rfl, (Nat.min_eq_right (hall.trans (Nat.min_le_left ..))).symm, fun _ hv => hv, id⟩
  · rename_i hless
    obtain ⟨indices, hshuffle, hperm⟩ :=
      exists_shuffled (blake3Hash (Borsh.serialize (epoch, chainId.id))) (Nat.le_of_not_le hless)
    have hrange : ∀ k ∈ indices.take (min count.toNat relayValidators.length),
        k < relayValidators.length :=
      fun k hk => mem_range.1 (hperm.subset (mem_of_mem_take hk))
    obtain ⟨validators, hmap, hfilter, hlength⟩ := exists_taken hrange
    obtain ⟨drawn, hdrawn, hof⟩ : validators.Subperm relayValidators := by
      have hall := hperm.filterMap (relayValidators[·]?)
      rw [filterMap_range] at hall
      rw [← hfilter]
      exact ((take_sublist _ indices).filterMap _).subperm.trans hall.subperm
    rw [hshuffle, Option.bind_eq_bind, Option.bind_some, hmap]
    refine ⟨_, rfl, ?_, fun v hv => hof.subset (hdrawn.mem_iff.2 hv),
      fun hnodup => hdrawn.nodup_iff.1 (hof.nodup hnodup)⟩
    rw [hlength, length_take, hperm.length_eq, length_range, Nat.min_assoc, Nat.min_self]

end Vtt.SharedSecurity
