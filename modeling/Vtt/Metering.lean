import Vtt.Vm

/-!
# The gas meter

The counter of the meter moves on whether or not an amount is accepted, modulo the size of a word.
As long as the amounts add up to less than that, it cannot be refilled; an amount that takes it past
the end of the word refills it.
-/

namespace Vtt

open Lib Nat

namespace GasMeter

/-- The meter after amounts, whether or not it accepted them. -/
def consumeAll (m : GasMeter) (amounts : List UInt64) : GasMeter :=
  amounts.foldl (fun m amount => (m.consume amount).2) m

/-- What a meter accepts of amounts, all together. -/
def accepted (m : GasMeter) : List UInt64 → ℕ
  | [] => 0
  | amount :: rest =>
    (if (m.consume amount).1 then amount.toNat else 0) + accepted (m.consume amount).2 rest

def total (amounts : List UInt64) : ℕ := (amounts.map (·.toNat)).sum

/-- Gas used stays used, what is accepted keeps to the limit, and nothing is accepted after a
refusal. -/
structure NeverRefilled (limit : UInt64) (amounts : List UInt64) : Prop where
  used : ∀ first amount rest, amounts = first ++ amount :: rest →
    ((new limit).consumeAll first).used ≤ ((new limit).consumeAll (first ++ [amount])).used
  accepted : accepted (new limit) amounts ≤ limit.toNat
  refused : ∀ first refused between amount rest, amounts = first ++ refused :: between ++
    amount :: rest → (((new limit).consumeAll first).consume refused).1 = false → 0 < amount →
      (((new limit).consumeAll (first ++ refused :: between)).consume amount).1 = false

variable {m : GasMeter} {limit amount : UInt64} {amounts first rest : List UInt64}

theorem total_append : total (first ++ rest) = total first + total rest := by simp [total]

theorem total_cons : total (amount :: rest) = amount.toNat + total rest := rfl

theorem consume_iff : (m.consume amount).1 = true ↔ m.used.toNat + amount.toNat ≤
    m.limit.toNat := by
  have hlimit := m.limit.toNat_lt
  simp only [consume, U64.checkedAdd]
  split
  · rename_i hfits
    have hsum : (m.used + amount).toNat = m.used.toNat + amount.toNat :=
      (UInt64.toNat_add ..).trans (mod_eq_of_lt hfits)
    simp [UInt64.le_iff_toNat_le, hsum]
  · simp
    omega

theorem limit_consumeAll : (m.consumeAll amounts).limit = m.limit := by
  induction amounts generalizing m with
  | nil => rfl
  | cons _ _ ih => exact ih

/-- The counter is the sum of all amounts, modulo the size of a word. -/
theorem used_consumeAll : (m.consumeAll amounts).used.toNat =
    (m.used.toNat + total amounts) % 2 ^ 64 := by
  induction amounts generalizing m with
  | nil => exact (mod_eq_of_lt m.used.toNat_lt).symm
  | cons amount _ ih =>
    refine ih.trans ?_
    rw [total_cons, show (m.consume amount).2.used = m.used + amount from rfl, UInt64.toNat_add]
    omega

theorem used_of_fits (h : total first < 2 ^ 64) : ((new limit).consumeAll first).used.toNat =
    total first := by
  rw [used_consumeAll, new, UInt64.toNat_zero, zero_add, mod_eq_of_lt h]

/-- What is accepted fits in what is left. -/
theorem accepted_le (h : m.used.toNat + total amounts < 2 ^ 64) :
    accepted m amounts ≤ m.limit.toNat - m.used.toNat := by
  induction amounts generalizing m with
  | nil => exact zero_le _
  | cons amount _ ih =>
    rw [total_cons] at h
    have used : (m.consume amount).2.used.toNat = m.used.toNat + amount.toNat :=
      (UInt64.toNat_add ..).trans (mod_eq_of_lt (by omega))
    have later := ih (m := (m.consume amount).2) (by omega)
    rw [used, show (m.consume amount).2.limit = m.limit from rfl] at later
    rw [accepted]
    split
    · rename_i haccepted
      have fits := consume_iff.1 haccepted
      omega
    · omega

/-- A counter that does not go down has not come to the end of the word. -/
theorem total_lt (h : ∀ first amount rest, amounts = first ++ amount :: rest →
      ((new limit).consumeAll first).used ≤ ((new limit).consumeAll (first ++ [amount])).used) :
    ∀ first rest, amounts = first ++ rest → total first < 2 ^ 64 := by
  intro first
  induction first using List.reverseRecOn with
  | nil => exact fun _ _ => Nat.two_pow_pos 64
  | append_singleton first amount ih =>
    intro rest hsplit
    rw [List.append_assoc] at hsplit
    have before := ih _ hsplit
    have grows := UInt64.le_iff_toNat_le.1 (h first amount rest hsplit)
    rw [used_of_fits before, used_consumeAll, new, UInt64.toNat_zero, total_append] at grows
    have hlt := amount.toNat_lt
    simp only [total_append, total_cons, show total [] = 0 from rfl] at grows ⊢
    omega

/-- For every limit and all amounts: the meter is not refilled exactly if the amounts fit a word
together. -/
theorem neverRefilled_iff : NeverRefilled limit amounts ↔ total amounts < 2 ^ 64 := by
  constructor
  · exact fun h => total_lt h.used amounts [] (List.append_nil _).symm
  · intro h
    refine ⟨?_, ?_, ?_⟩
    · rintro first amount rest rfl
      rw [total_append, total_cons] at h
      have step : total (first ++ [amount]) = total first + amount.toNat := total_append
      rw [UInt64.le_iff_toNat_le, used_of_fits (by omega), used_of_fits (by omega)]
      omega
    · exact accepted_le (by simpa [new] using h)
    · rintro _ _ _ _ _ rfl hrefused -
      simp only [total_append, total_cons] at h
      -- the counter stays past the limit
      have past := mt consume_iff.2 (ne_true_of_eq_false hrefused)
      rw [used_of_fits (by omega), limit_consumeAll] at past
      refine Bool.eq_false_iff.2 (mt consume_iff.1 ?_)
      rw [used_of_fits (by simp only [total_append, total_cons]; omega), limit_consumeAll,
        total_append, total_cons]
      omega

end GasMeter

/-- A refused amount takes the counter past the end of the word, and the next one is accepted
again. -/
theorem Demo.meter_refilled : ¬ GasMeter.NeverRefilled 100 [100, 18446744073709551615, 1] :=
  fun h => absurd h.accepted (by decide)

end Vtt
