import Mathlib.Data.Nat.Find

/-!
# Scans of a table

A `for` loop compares the entries of a table one after the other and breaks at the first that fits.
After it both the counter and a pointer to the entry last looked at are used, which differ in what
they say when no entry fits.
-/

namespace BdkFreertos.LinearScan

variable (hit : ℕ → Bool)

/-- Look at `rounds` entries from `index` on; the result is the counter after the loop and the entry
looked at last. -/
def scan : ℕ → ℕ → Option ℕ → ℕ × Option ℕ
  | 0, index, last => (index, last)
  | rounds + 1, index, _ =>
      if hit index then (index, some index) else scan rounds (index + 1) (some index)

variable {hit} {rounds index first : ℕ}

theorem exists_first {count : ℕ} (some_fits : ∃ entry < count, hit entry = true) :
    ∃ first < count, hit first = true ∧ ∀ earlier < first, hit earlier = false := by
  obtain ⟨entry, bounded, fits⟩ := some_fits
  have found : ∃ entry, hit entry = true := ⟨entry, fits⟩
  refine ⟨Nat.find found, ?_, Nat.find_spec found, fun earlier before => ?_⟩
  · exact Nat.lt_of_le_of_lt (Nat.find_min' found fits) bounded
  · exact Bool.eq_false_iff.mpr (Nat.find_min found before)

theorem scan_of_first (reaches : index ≤ first) (bounded : first < index + rounds)
    (fits : hit first = true) (others : ∀ earlier, index ≤ earlier → earlier < first →
      hit earlier = false) (last : Option ℕ) :
    scan hit rounds index last = (first, some first) := by
  induction rounds generalizing index last with
  | zero => exact absurd bounded (Nat.not_lt_of_le reaches)
  | succ rounds induction =>
      rcases Nat.eq_or_lt_of_le reaches with rfl | later
      · rw [scan, if_pos fits]
      · have missed : hit index = false := others index (Nat.le_refl index) later
        rw [scan, missed, if_neg Bool.false_ne_true]
        refine induction later (by omega) (fun earlier after before => ?_) _
        exact others earlier (Nat.le_of_succ_le after) before

/-- A scan in which no entry fits leaves the counter behind the table and the pointer at the table's
last entry. -/
theorem scan_of_miss (misses : ∀ entry, index ≤ entry → entry ≤ index + rounds →
      hit entry = false) (last : Option ℕ) :
    scan hit (rounds + 1) index last = (index + rounds + 1, some (index + rounds)) := by
  induction rounds generalizing index last with
  | zero => rw [scan, misses index (Nat.le_refl index) (Nat.le_add_right index 0), scan]; rfl
  | succ rounds induction =>
      have missed : hit index = false := misses index (Nat.le_refl index) (Nat.le_add_right _ _)
      rw [scan, missed, if_neg Bool.false_ne_true,
        induction fun entry after before => misses entry (by omega) (by omega)]
      congr 2 <;> omega

end BdkFreertos.LinearScan
