import Mathlib.Algebra.Group.Nat.Defs
import Mathlib.Data.Nat.Bits
import Mathlib.Logic.Function.Iterate

/-!
# Counters with fixed bits

A counter whose bits outside a mask are those of a base counts through the values of its free bits:
a carry passes over a fixed bit that is one.  It is lost at a fixed bit that is zero, so the free
bits above the lowest of these never change, and below it every value comes up.
-/

namespace BdkFreertos.MaskedCounter

/-- The counter after one more step. -/
def next (base mask value : ℕ) : ℕ :=
  base ||| ((value + 1) &&& mask)

/-- The bits outside the mask are those of the base. -/
def Masked (base mask value : ℕ) : Prop :=
  base ||| (value &&& mask) = value

/-- A carry that arrives at the place is lost. -/
def Stops (base mask place : ℕ) : Prop :=
  base.testBit place = false ∧ mask.testBit place = false

/-- The values agree on the bits that no carry reaches. -/
def SameAbove (base mask left right : ℕ) : Prop :=
  ∀ place, (∃ lower < place, Stops base mask lower) → left.testBit place = right.testBit place

variable {base mask value target : ℕ}

theorem masked_iff_testBit : Masked base mask value ↔
    ∀ place, (base.testBit place || value.testBit place && mask.testBit place) =
      value.testBit place := by
  constructor
  · intro masked place
    rw [← Nat.testBit_and, ← Nat.testBit_or, masked]
  · intro bits
    apply Nat.eq_of_testBit_eq
    intro place
    rw [Nat.testBit_or, Nat.testBit_and, bits]

theorem Masked.testBit (masked : Masked base mask value) {place : ℕ}
    (fixed : mask.testBit place = false) : value.testBit place = base.testBit place := by
  rw [← masked_iff_testBit.mp masked place, fixed, Bool.and_false, Bool.or_false]

theorem masked_next (base mask value : ℕ) : Masked base mask (next base mask value) := by
  rw [masked_iff_testBit]
  intro place
  rw [next, Nat.testBit_or, Nat.testBit_and]
  cases base.testBit place <;> cases mask.testBit place <;> simp

/-! ## One bit and the bits above it -/

theorem eq_of_halves {left right : ℕ} (half : left / 2 = right / 2)
    (parity : left % 2 = 1 ↔ right % 2 = 1) : left = right := by
  omega

theorem next_div_two (base mask value : ℕ) :
    next base mask value / 2 = base / 2 ||| ((value + 1) / 2 &&& mask / 2) := by
  rw [next, Nat.or_div_two, Nat.and_div_two]

theorem next_odd (base mask value : ℕ) :
    next base mask value % 2 = 1 ↔ base % 2 = 1 ∨ (value + 1) % 2 = 1 ∧ mask % 2 = 1 := by
  rw [next, Nat.or_mod_two_eq_one, Nat.and_mod_two_eq_one]

theorem Masked.half (masked : Masked base mask value) :
    Masked (base / 2) (mask / 2) (value / 2) := by
  rw [Masked, ← Nat.and_div_two, ← Nat.or_div_two, masked]

theorem Masked.odd (masked : Masked base mask value) :
    base % 2 = 1 ∨ value % 2 = 1 ∧ mask % 2 = 1 ↔ value % 2 = 1 := by
  rw [← Nat.and_mod_two_eq_one, ← Nat.or_mod_two_eq_one, masked]

theorem next_half_of_odd (odd : value % 2 = 1) :
    next base mask value / 2 = next (base / 2) (mask / 2) (value / 2) := by
  rw [next_div_two, next]
  congr 2
  omega

theorem next_half_of_even (masked : Masked base mask value) (even : value % 2 = 0) :
    next base mask value / 2 = value / 2 := by
  have same : (value + 1) / 2 = value / 2 := by omega
  rw [next_div_two, same]
  exact masked.half

theorem testBit_next_of_stops (masked : Masked base mask value) {lower place : ℕ}
    (above : lower < place) (stops : Stops base mask lower) :
    (next base mask value).testBit place = value.testBit place := by
  induction lower generalizing base mask value place with
  | zero =>
      obtain ⟨place, rfl⟩ := Nat.exists_eq_add_of_lt above
      have parity := masked.odd
      simp only [Stops, Nat.testBit_zero, decide_eq_false_iff_not] at stops
      rw [Nat.zero_add, Nat.testBit_add_one, Nat.testBit_add_one,
        next_half_of_even masked (by omega)]
  | succ lower induction =>
      obtain ⟨place, rfl⟩ : ∃ before, place = before + 1 := ⟨place - 1, by omega⟩
      rw [Stops, Nat.testBit_add_one, Nat.testBit_add_one] at stops
      rw [Nat.testBit_add_one, Nat.testBit_add_one]
      rcases Nat.mod_two_eq_zero_or_one value with even | odd
      · rw [next_half_of_even masked even]
      · rw [next_half_of_odd odd]
        exact induction masked.half (by omega) stops

/-! ## What stays above the lowest fixed zero -/

theorem SameAbove.refl (base mask value : ℕ) : SameAbove base mask value value :=
  fun _ _ => rfl

theorem SameAbove.symm (same : SameAbove base mask value target) :
    SameAbove base mask target value :=
  fun place above => (same place above).symm

theorem SameAbove.trans {last : ℕ} (first : SameAbove base mask value target)
    (second : SameAbove base mask target last) : SameAbove base mask value last :=
  fun place above => (first place above).trans (second place above)

theorem SameAbove.next (same : SameAbove base mask value target)
    (masked : Masked base mask value) :
    SameAbove base mask (MaskedCounter.next base mask value) target := by
  rintro place ⟨lower, below, stops⟩
  rw [testBit_next_of_stops masked below stops]
  exact same place ⟨lower, below, stops⟩

theorem iterate_next (masked : Masked base mask value) (rounds : ℕ) :
    Masked base mask ((next base mask)^[rounds] value) ∧
      SameAbove base mask ((next base mask)^[rounds] value) value := by
  induction rounds with
  | zero => exact ⟨masked, .refl base mask value⟩
  | succ rounds induction =>
      rw [Function.iterate_succ_apply']
      exact ⟨masked_next _ _ _, induction.2.next induction.1⟩

theorem SameAbove.half (same : SameAbove base mask value target) :
    SameAbove (base / 2) (mask / 2) (value / 2) (target / 2) := by
  rintro place ⟨lower, below, stops⟩
  have above := same (place + 1) ⟨lower + 1, by omega, by
    rw [Stops, Nat.testBit_add_one, Nat.testBit_add_one]
    exact stops⟩
  rwa [Nat.testBit_add_one, Nat.testBit_add_one] at above

theorem SameAbove.half_eq (same : SameAbove base mask value target) (zero : base % 2 = 0)
    (fixed : mask % 2 = 0) : value / 2 = target / 2 := by
  apply Nat.eq_of_testBit_eq
  intro place
  rw [← Nat.testBit_add_one, ← Nat.testBit_add_one]
  exact same (place + 1) ⟨0, by omega, by simp [Stops, zero, fixed]⟩

/-! ## Every value below it comes up -/

theorem iterate_next_of_one (one : base % 2 = 1) (masked : Masked base mask value) (rounds : ℕ) :
    ((next base mask)^[rounds] value) / 2 = (next (base / 2) (mask / 2))^[rounds] (value / 2) ∧
      ((next base mask)^[rounds] value) % 2 = 1 := by
  induction rounds with
  | zero => exact ⟨rfl, masked.odd.mp (Or.inl one)⟩
  | succ rounds induction =>
      rw [Function.iterate_succ_apply', Function.iterate_succ_apply']
      refine ⟨?_, (next_odd _ _ _).mpr (Or.inl one)⟩
      rw [next_half_of_odd induction.2, induction.1]

theorem iterate_next_of_free (zero : base % 2 = 0) (free : mask % 2 = 1)
    (masked : Masked base mask value) (rounds : ℕ) :
    ((next base mask)^[2 * rounds] value) / 2 =
        (next (base / 2) (mask / 2))^[rounds] (value / 2) ∧
      (((next base mask)^[2 * rounds] value) % 2 = 1 ↔ value % 2 = 1) := by
  induction rounds generalizing value with
  | zero => exact ⟨rfl, Iff.rfl⟩
  | succ rounds induction =>
      have twice : (next base mask)^[2 * (rounds + 1)] value =
          (next base mask)^[2 * rounds] (next base mask (next base mask value)) := by
        rw [Nat.mul_succ, Function.iterate_add_apply]
        rfl
      obtain ⟨half, parity⟩ := induction (masked_next base mask (next base mask value))
      have first := next_odd base mask value
      have second := next_odd base mask (next base mask value)
      rw [twice, half, Function.iterate_succ_apply]
      refine ⟨congrArg _ ?_, by omega⟩
      rcases Nat.mod_two_eq_zero_or_one value with even | odd
      · rw [next_half_of_odd (by omega), next_half_of_even masked even]
      · rw [next_half_of_even (masked_next base mask value) (by omega), next_half_of_odd odd]

/-- Every value with the same bits above the lowest fixed zero comes up within as many rounds as
there are values. -/
theorem exists_iterate_next (width : ℕ) (base_lt : base < 2 ^ width) (mask_lt : mask < 2 ^ width)
    (masked : Masked base mask value) (masked_target : Masked base mask target)
    (same : SameAbove base mask value target) :
    ∃ rounds < 2 ^ width, (next base mask)^[rounds] value = target := by
  induction width generalizing base mask value target with
  | zero =>
      obtain rfl : base = 0 := by omega
      obtain rfl : mask = 0 := by omega
      refine ⟨0, by omega, ?_⟩
      rw [Masked, Nat.and_zero, Nat.or_zero] at masked masked_target
      exact masked.symm.trans masked_target
  | succ width induction =>
      have halves : base / 2 < 2 ^ width ∧ mask / 2 < 2 ^ width := by omega
      have parity := masked.odd
      have parity_target := masked_target.odd
      rcases Nat.mod_two_eq_zero_or_one base with zero | one
      · rcases Nat.mod_two_eq_zero_or_one mask with fixed | free
        · refine ⟨0, by omega, eq_of_halves (same.half_eq zero fixed) ?_⟩
          simp only [Function.iterate_zero, id_eq]
          omega
        · -- A value of the other parity is one round away from the target's.
          have even_rounds : ∀ {start : ℕ}, Masked base mask start →
              SameAbove base mask start target → (start % 2 = 1 ↔ target % 2 = 1) →
              ∃ rounds < 2 ^ width, (next base mask)^[2 * rounds] start = target := by
            intro start masked_start same_start agree
            obtain ⟨rounds, short, reached⟩ := induction halves.1 halves.2 masked_start.half
              masked_target.half same_start.half
            obtain ⟨half, odd⟩ := iterate_next_of_free zero free masked_start rounds
            exact ⟨rounds, short, eq_of_halves (half.trans reached) (odd.trans agree)⟩
          by_cases agree : value % 2 = 1 ↔ target % 2 = 1
          · obtain ⟨rounds, short, reached⟩ := even_rounds masked same agree
            exact ⟨2 * rounds, by omega, reached⟩
          · have turned := next_odd base mask value
            obtain ⟨rounds, short, reached⟩ :=
              even_rounds (masked_next base mask value) (same.next masked) (by omega)
            refine ⟨2 * rounds + 1, by omega, ?_⟩
            rw [Function.iterate_succ_apply]
            exact reached
      · obtain ⟨rounds, short, reached⟩ :=
          induction halves.1 halves.2 masked.half masked_target.half same.half
        obtain ⟨half, odd⟩ := iterate_next_of_one one masked rounds
        exact ⟨rounds, by omega, eq_of_halves (half.trans reached) (by omega)⟩

end BdkFreertos.MaskedCounter
