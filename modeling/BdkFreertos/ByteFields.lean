import Mathlib.Data.Nat.Init
import Mathlib.Tactic.IntervalCases

/-!
# Bytes of a control word

A control register that serves several units keeps one byte for each.  Reading, modifying and
writing back the whole word changes the byte of one unit and leaves those of the others alone.
-/

namespace BdkFreertos

/-- The byte at an index of a word, counted from the low end. -/
def byteField (index : ℕ) (word : BitVec 32) : BitVec 8 :=
  word.extractLsb' (8 * index) 8

/-- The word that has a byte at an index and zeros elsewhere. -/
def placeByte (index : ℕ) (byte : BitVec 8) : BitVec 32 :=
  byte.setWidth 32 <<< (8 * index)

@[simp]
theorem byteField_or (index : ℕ) (left right : BitVec 32) :
    byteField index (left ||| right) = byteField index left ||| byteField index right :=
  BitVec.extractLsb'_or

@[simp]
theorem byteField_and (index : ℕ) (left right : BitVec 32) :
    byteField index (left &&& right) = byteField index left &&& byteField index right :=
  BitVec.extractLsb'_and

variable {index other : ℕ}

theorem byteField_not (inside : index < 4) (word : BitVec 32) :
    byteField index (~~~word) = ~~~byteField index word := by
  apply BitVec.eq_of_getLsbD_eq
  intro bit low
  simp only [byteField, BitVec.getLsbD_extractLsb', BitVec.getLsbD_not]
  simp [low, show 8 * index + bit < 32 by omega]

theorem byteField_placeByte_self (inside : index < 4) (byte : BitVec 8) :
    byteField index (placeByte index byte) = byte := by
  apply BitVec.eq_of_getLsbD_eq
  intro bit low
  simp only [byteField, placeByte, BitVec.getLsbD_extractLsb', BitVec.getLsbD_shiftLeft,
    BitVec.getLsbD_setWidth]
  simp [low, show 8 * index + bit < 32 by omega, show bit < 32 by omega]

theorem byteField_placeByte_of_ne (distinct : other ≠ index) (byte : BitVec 8) :
    byteField other (placeByte index byte) = 0#8 := by
  apply BitVec.eq_of_getLsbD_eq
  intro bit low
  simp only [byteField, placeByte, BitVec.getLsbD_extractLsb', BitVec.getLsbD_shiftLeft,
    BitVec.getLsbD_setWidth]
  rcases Nat.lt_or_gt_of_ne distinct with below | above
  · simp [show 8 * other + bit < 8 * index by omega]
  · rw [BitVec.getLsbD_of_ge byte (8 * other + bit - 8 * index) (by omega)]
    simp

theorem byteField_or_placeByte (inside : other < 4) (word : BitVec 32) (byte : BitVec 8) :
    byteField other (word ||| placeByte index byte) =
      if other = index then byteField other word ||| byte else byteField other word := by
  rw [byteField_or]
  split
  · rename_i same
    rw [← same, byteField_placeByte_self inside]
  · rename_i distinct
    rw [byteField_placeByte_of_ne distinct, BitVec.or_zero]

theorem byteField_and_not_placeByte (inside : other < 4) (word : BitVec 32) (byte : BitVec 8) :
    byteField other (word &&& ~~~placeByte index byte) =
      if other = index then byteField other word &&& ~~~byte else byteField other word := by
  rw [byteField_and, byteField_not inside]
  split
  · rename_i same
    rw [← same, byteField_placeByte_self inside]
  · rename_i distinct
    rw [byteField_placeByte_of_ne distinct, BitVec.not_zero, BitVec.and_allOnes]

theorem and_placeByte (word : BitVec 32) (byte : BitVec 8) :
    word &&& placeByte index byte = placeByte index (byteField index word &&& byte) := by
  apply BitVec.eq_of_getLsbD_eq
  intro bit low
  simp only [byteField, placeByte, BitVec.getLsbD_and, BitVec.getLsbD_extractLsb',
    BitVec.getLsbD_shiftLeft, BitVec.getLsbD_setWidth]
  by_cases above : bit < 8 * index
  · simp [above]
  · rw [show 8 * index + (bit - 8 * index) = bit by omega]
    by_cases inside : bit - 8 * index < 8
    · simp [low, above, inside, ← Bool.and_assoc, Bool.and_comm]
    · rw [BitVec.getLsbD_of_ge byte (bit - 8 * index) (by omega)]
      simp

theorem and_placeByte_eq_zero (inside : index < 4) (word : BitVec 32) (byte : BitVec 8) :
    word &&& placeByte index byte = 0#32 ↔ byteField index word &&& byte = 0#8 := by
  rw [and_placeByte]
  constructor
  · intro zero
    rw [← byteField_placeByte_self inside (byteField index word &&& byte), zero]
    simp [byteField]
  · intro zero
    rw [zero]
    simp [placeByte]

end BdkFreertos
