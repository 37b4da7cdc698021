import Mathlib.Data.Nat.Init
import Mathlib.Tactic.IntervalCases

/-!
# Network byte order

The conversion between host and network order reverses the four bytes of a word.  It is its own
inverse and commutes with the bitwise operations, so a test on addresses may be made in either
order.
-/

namespace BdkFreertos

/-- Reverse the bytes of a word. -/
def htonl (word : UInt32) : UInt32 :=
  ((word &&& 0x000000ff) <<< 24) ||| ((word &&& 0x0000ff00) <<< 8) |||
    ((word &&& 0x00ff0000) >>> 8) ||| ((word &&& 0xff000000) >>> 24)

def ntohl (word : UInt32) : UInt32 := htonl word

theorem getLsbD_htonl (word : UInt32) {bit : ℕ} (inside : bit < 32) :
    (htonl word).toBitVec.getLsbD bit = word.toBitVec.getLsbD (8 * (3 - bit / 8) + bit % 8) := by
  have bits : (htonl word).toBitVec =
      ((word.toBitVec &&& 0x000000ff#32) <<< 24) ||| ((word.toBitVec &&& 0x0000ff00#32) <<< 8) |||
        ((word.toBitVec &&& 0x00ff0000#32) >>> 8) |||
          ((word.toBitVec &&& 0xff000000#32) >>> 24) := rfl
  rw [bits]
  simp only [BitVec.getLsbD_or, BitVec.getLsbD_ushiftRight, BitVec.getLsbD_shiftLeft,
    BitVec.getLsbD_and]
  interval_cases bit <;> simp

theorem eq_of_bits {left right : UInt32}
    (agree : ∀ bit < 32, left.toBitVec.getLsbD bit = right.toBitVec.getLsbD bit) :
    left = right :=
  UInt32.eq_of_toBitVec_eq (BitVec.eq_of_getLsbD_eq agree)

@[simp]
theorem htonl_htonl (word : UInt32) : htonl (htonl word) = word := by
  apply eq_of_bits
  intro bit inside
  rw [getLsbD_htonl _ inside, getLsbD_htonl _ (by omega)]
  congr 1
  omega

theorem htonl_inj {left right : UInt32} : htonl left = htonl right ↔ left = right := by
  constructor
  · intro same
    rw [← htonl_htonl left, same, htonl_htonl]
  · rintro rfl
    rfl

theorem htonl_and (left right : UInt32) : htonl (left &&& right) = htonl left &&& htonl right := by
  apply eq_of_bits
  intro bit inside
  simp [getLsbD_htonl _ inside]

theorem htonl_or (left right : UInt32) : htonl (left ||| right) = htonl left ||| htonl right := by
  apply eq_of_bits
  intro bit inside
  simp [getLsbD_htonl _ inside]

end BdkFreertos
