import Mathlib.Data.List.TakeWhile

/-!
# Strings of C

The bytes before a terminator, the comparisons of the C library as tests for equality, and the
string that starts at a position of a buffer.
-/

namespace BdkFreertos

/-- The bytes of a string, which the terminator is not one of. -/
structure CString where
  bytes : List UInt8
  noNul : (0 : UInt8) ∉ bytes
  deriving DecidableEq

namespace CString

@[ext]
theorem ext {first second : CString} (same : first.bytes = second.bytes) : first = second := by
  cases first
  cases second
  congr

def strlen (string : CString) : ℕ := string.bytes.length

/-- Whether `strcmp` finds no difference. -/
def strcmp (first second : CString) : Bool := first.bytes = second.bytes

/-- Whether `strncmp` finds no difference in the first so many bytes. -/
def strncmp (first second : CString) (count : ℕ) : Bool :=
  first.bytes.take count = second.bytes.take count

/-- The position `strchr` finds a byte at. -/
def strchr (string : CString) (byte : UInt8) : Option ℕ := string.bytes.findIdx? (· = byte)

/-- The string that starts at a position of a buffer. -/
def startingAt (buffer : List UInt8) (position : ℕ) : CString where
  bytes := (buffer.drop position).takeWhile (· ≠ 0)
  noNul := by
    intro member
    simpa using List.mem_takeWhile_imp member

@[simp]
theorem strcmp_iff {first second : CString} : strcmp first second = true ↔ first = second := by
  simp only [strcmp, decide_eq_true_eq]
  exact ⟨ext, congrArg bytes⟩

end CString
end BdkFreertos
