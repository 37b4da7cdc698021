import Mathlib.Data.Nat.Basic

/-!
# Reading a counter digit by digit

A counter that never goes back is shown by two registers, its low digit and a function of what is
above it.  The registers are read one after the other while the counter goes on, and then both are
read again.  If they show the same twice, then the counter has shown both together at some instant
in between, however far it went.
-/

namespace BdkFreertos.DoubleRead

variable {base : ℕ}

/-- The instant of a block at which the low digit is `low`. -/
def instantOf (base block low : ℕ) : ℕ := base * block + low

theorem instantOf_div (block : ℕ) {low : ℕ} (lower : low < base) :
    instantOf base block low / base = block := by
  have base_pos : 0 < base := Nat.zero_lt_of_lt lower
  rw [instantOf, Nat.mul_add_div base_pos, Nat.div_eq_of_lt lower, Nat.add_zero]

theorem instantOf_mod (block : ℕ) {low : ℕ} (lower : low < base) :
    instantOf base block low % base = low := by
  rw [instantOf, Nat.mul_add_mod, Nat.mod_eq_of_lt lower]

theorem instantOf_le_of_div_le {instant block : ℕ} (block_le : block ≤ instant / base) :
    instantOf base block (instant % base) ≤ instant := by
  have scaled : base * block ≤ base * (instant / base) := Nat.mul_le_mul_left base block_le
  have split := Nat.div_add_mod instant base
  rw [instantOf]
  omega

theorem le_instantOf_of_div_lt {instant block : ℕ} (low : ℕ) (base_pos : 0 < base)
    (block_lt : instant / base < block) : instant ≤ instantOf base block low := by
  have scaled : base * (instant / base + 1) ≤ base * block := Nat.mul_le_mul_left base block_lt
  have split := Nat.div_add_mod instant base
  have lower := Nat.mod_lt instant base_pos
  rw [Nat.mul_succ] at scaled
  rw [instantOf]
  omega

/-- The counter is read at four instants, the upper register at the first and third and the low
digit at the second and fourth.  If both show the same twice, they have shown this together. -/
theorem exists_instant {Upper : Type*} (upper : ℕ → Upper) (base_pos : 0 < base)
    {first second third fourth : ℕ} (first_le : first ≤ second) (second_le : second ≤ third)
    (third_le : third ≤ fourth) (same_upper : upper (first / base) = upper (third / base))
    (same_low : second % base = fourth % base) :
    ∃ instant, first ≤ instant ∧ instant ≤ fourth ∧
      upper (instant / base) = upper (third / base) ∧ instant % base = fourth % base := by
  have lower : second % base < base := Nat.mod_lt second base_pos
  by_cases passed : first % base ≤ second % base
  · -- The block of the first reading still has the digit of the second one to come.
    refine ⟨instantOf base (first / base) (second % base), ?_, ?_, ?_, ?_⟩
    · have split := Nat.div_add_mod first base
      rw [instantOf]
      omega
    · have bounded := instantOf_le_of_div_le (Nat.div_le_div_right (c := base) first_le)
      omega
    · rw [instantOf_div _ lower, same_upper]
    · rw [instantOf_mod _ lower, same_low]
  · -- The digit of the second reading belongs to a later block than that of the first one.
    have next_block : first / base < second / base := by
      by_contra notLater
      have same_block : first / base = second / base :=
        le_antisymm (Nat.div_le_div_right first_le) (not_lt.mp notLater)
      have split := Nat.div_add_mod first base
      have split' := Nat.div_add_mod second base
      rw [same_block] at split
      omega
    have later_block : first / base < third / base :=
      lt_of_lt_of_le next_block (Nat.div_le_div_right second_le)
    refine ⟨instantOf base (third / base) (second % base),
      le_instantOf_of_div_lt _ base_pos later_block, ?_, ?_, ?_⟩
    · rw [same_low]
      exact instantOf_le_of_div_le (Nat.div_le_div_right third_le)
    · rw [instantOf_div _ lower]
    · rw [instantOf_mod _ lower, same_low]

end BdkFreertos.DoubleRead
