import Mathlib.Data.Nat.Bitwise

/-! Masks and shifts on natural numbers, read as division and remainder. -/

namespace BitMasks

/-- The low bits of a number are its remainder. -/
theorem and_low (value width : Nat) : value &&& (2 ^ width - 1) = value % 2 ^ width :=
  Nat.and_two_pow_sub_one_eq_mod value width

/-- The bit at a position of a contiguous mask is set exactly inside its range. -/
theorem testBit_range {low high : Nat} (ordered : low ≤ high) (position : Nat) :
    (2 ^ high - 2 ^ low).testBit position = decide (low ≤ position ∧ position < high) := by
  -- The mask is a block of ones, shifted up past the low bits.
  have split : 2 ^ high - 2 ^ low = 2 ^ low * (2 ^ (high - low) - 1) := by
    rw [Nat.mul_sub, Nat.mul_one, ← Nat.pow_add, Nat.add_sub_cancel' ordered]
  rw [split, Nat.testBit_two_pow_mul, Nat.testBit_two_pow_sub_one]
  by_cases above : low ≤ position
  · simp only [above, decide_true, Bool.true_and, true_and]
    exact decide_eq_decide.mpr (by omega)
  · simp [above]

/-- A contiguous mask keeps a number that fits under it and has no low bits. -/
theorem and_range_of_aligned (low high : Nat) {value : Nat} (ordered : low ≤ high)
    (fits : value < 2 ^ high) (aligned : value % 2 ^ low = 0) :
    value &&& (2 ^ high - 2 ^ low) = value := by
  -- Bits above the mask vanish by size, and bits below it by alignment.
  refine Nat.eq_of_testBit_eq fun position => ?_
  rw [Nat.testBit_and, testBit_range ordered]
  by_cases inside : low ≤ position ∧ position < high
  · simp [inside]
  · rw [decide_eq_false inside, Bool.and_false]
    rcases Nat.lt_or_ge position low with below | above
    · obtain ⟨quotient, rfl⟩ := Nat.dvd_of_mod_eq_zero aligned
      rw [Nat.testBit_two_pow_mul]
      simp [Nat.not_le.mpr below]
    · have past : high ≤ position := by omega
      have tiny : value < 2 ^ position :=
        Nat.lt_of_lt_of_le fits (Nat.pow_le_pow_right (by decide) past)
      exact (Nat.testBit_lt_two_pow tiny).symm

/-- Masking out the low bits rounds down, as long as the number fits under the mask. -/
theorem and_range_eq_sub {value low high : Nat} (ordered : low ≤ high) (fits : value < 2 ^ high) :
    value &&& (2 ^ high - 2 ^ low) = value - value % 2 ^ low := by
  -- The number is its rounded part plus its low bits, and the mask sees only the first.
  have parts : value = value - value % 2 ^ low + value % 2 ^ low := by
    have := Nat.mod_le value (2 ^ low)
    omega
  have rounded : (value - value % 2 ^ low) % 2 ^ low = 0 :=
    Nat.sub_mod_eq_zero_of_mod_eq (by rw [Nat.mod_mod])
  -- Being a multiple of the power, the rounded part shares no bit with what was cut off.
  obtain ⟨quotient, product⟩ := Nat.dvd_of_mod_eq_zero rounded
  have small : value % 2 ^ low < 2 ^ low := Nat.mod_lt _ (Nat.two_pow_pos low)
  have joined : value = 2 ^ low * quotient ||| value % 2 ^ low := by
    rw [← Nat.two_pow_add_eq_or_of_lt small, ← product]
    exact parts
  -- The low bits lie below the mask.
  have nothing : value % 2 ^ low &&& (2 ^ high - 2 ^ low) = 0 := by
    refine Nat.eq_of_testBit_eq fun position => ?_
    rw [Nat.testBit_and, testBit_range ordered, Nat.zero_testBit]
    by_cases above : low ≤ position
    · have tiny : value % 2 ^ low < 2 ^ position :=
        Nat.lt_of_lt_of_le small (Nat.pow_le_pow_right (by decide) above)
      rw [Nat.testBit_lt_two_pow tiny, Bool.false_and]
    · simp [above]
  -- So the mask takes the rounded part apart from the low bits, and keeps all of it.
  calc value &&& (2 ^ high - 2 ^ low)
      = (2 ^ low * quotient ||| value % 2 ^ low) &&& (2 ^ high - 2 ^ low) := by rw [← joined]
    _ = 2 ^ low * quotient &&& (2 ^ high - 2 ^ low) := by
        rw [Nat.and_or_distrib_right, nothing, Nat.or_zero]
    _ = value - value % 2 ^ low := by
        rw [← product]
        exact and_range_of_aligned low high ordered (by omega) rounded

/-- Setting high bits above a small number adds them. -/
theorem or_high_of_lt {value width high : Nat} (small : value < 2 ^ width) :
    value ||| 2 ^ width * high = 2 ^ width * high + value := by
  rw [Nat.or_comm, ← Nat.two_pow_add_eq_or_of_lt small]

end BitMasks
