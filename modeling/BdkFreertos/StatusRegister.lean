import Mathlib.Data.BitVec

/-!
# Registers with status bits that are cleared by writing one

A register has some status bits: writing one to such a bit clears it, and writing zero leaves it
alone.  The other bits are stored as they are written.  A change reads the register, clears and sets
some bits and writes the word back; the status bits that it reads as set are cleared with it.
-/

namespace BdkFreertos.StatusRegister

variable {w : ℕ} (status : BitVec w)

/-- What the register holds after a write. -/
def stored (value old : BitVec w) : BitVec w :=
  (value &&& ~~~status) ||| (old &&& ~~~value &&& status)

/-- The bits that a change clears, and those that it sets then. -/
structure Change (w : ℕ) where
  clear : BitVec w
  set : BitVec w

namespace Change

variable (change : Change w)

/-- The word that is written back for one that was read. -/
def value (word : BitVec w) : BitVec w := (word &&& ~~~change.clear) ||| change.set

/-- The register after the change. -/
def apply (word : BitVec w) : BitVec w := stored status (change.value word) word

/-- The change decides the bit, whatever it was. -/
def Writes (bit : ℕ) : Prop := change.clear.getLsbD bit = true ∨ change.set.getLsbD bit = true

instance (bit : ℕ) : Decidable (change.Writes bit) := inferInstanceAs (Decidable (_ ∨ _))

end Change

/-- The register after some changes, one after the other. -/
def applyAll (changes : List (Change w)) (word : BitVec w) : BitVec w :=
  changes.foldl (fun word change => change.apply status word) word

@[simp]
theorem applyAll_cons (change : Change w) (changes : List (Change w)) (word : BitVec w) :
    applyAll status (change :: changes) word =
      applyAll status changes (change.apply status word) := rfl

theorem applyAll_append (front back : List (Change w)) (word : BitVec w) :
    applyAll status (front ++ back) word = applyAll status back (applyAll status front word) :=
  List.foldl_append

variable {status} {bit : ℕ} {word : BitVec w}

theorem getLsbD_stored (plain : status.getLsbD bit = false) (value old : BitVec w) :
    (stored status value old).getLsbD bit = value.getLsbD bit := by
  rcases Nat.lt_or_ge bit w with inside | outside
  · simp only [stored, BitVec.getLsbD_or, BitVec.getLsbD_and, BitVec.getLsbD_not, plain, inside,
      decide_true, Bool.not_false, Bool.and_true, Bool.and_false, Bool.or_false]
  · rw [BitVec.getLsbD_of_ge _ bit outside, BitVec.getLsbD_of_ge _ bit outside]

theorem getLsbD_stored_status (flag : status.getLsbD bit = true) (value old : BitVec w) :
    (stored status value old).getLsbD bit = (old.getLsbD bit && !value.getLsbD bit) := by
  have inside := BitVec.lt_of_getLsbD flag
  simp only [stored, BitVec.getLsbD_or, BitVec.getLsbD_and, BitVec.getLsbD_not, flag, inside,
    decide_true, Bool.true_and, Bool.not_true, Bool.and_true, Bool.and_false, Bool.false_or]

/-- Status bits that a write names are clear after it. -/
theorem stored_and_value {value : BitVec w} (flags : value &&& ~~~status = 0#w) (old : BitVec w) :
    stored status value old &&& value = 0#w := by
  rw [stored, flags, BitVec.zero_or]
  refine BitVec.eq_of_getLsbD_eq fun bit inside => ?_
  rw [BitVec.getLsbD_and, BitVec.getLsbD_and, BitVec.getLsbD_and, BitVec.getLsbD_not]
  cases value.getLsbD bit <;> simp

theorem Change.getLsbD_value (change : Change w) (inside : bit < w) :
    (change.value word).getLsbD bit =
      ((word.getLsbD bit && !change.clear.getLsbD bit) || change.set.getLsbD bit) := by
  simp [Change.value, inside]

section

variable (plain : status.getLsbD bit = false)
include plain

theorem Change.getLsbD_apply_of_not_writes {change : Change w} (untouched : ¬change.Writes bit) :
    (change.apply status word).getLsbD bit = word.getLsbD bit := by
  rw [Change.apply, getLsbD_stored plain]
  rcases Nat.lt_or_ge bit w with inside | outside
  · rw [Change.Writes, not_or, Bool.not_eq_true, Bool.not_eq_true] at untouched
    rw [change.getLsbD_value inside, untouched.1, untouched.2, Bool.not_false, Bool.and_true,
      Bool.or_false]
  · rw [BitVec.getLsbD_of_ge _ bit outside, BitVec.getLsbD_of_ge _ bit outside]

theorem Change.getLsbD_apply_of_writes {change : Change w} (written : change.Writes bit)
    (word' : BitVec w) :
    (change.apply status word).getLsbD bit = (change.apply status word').getLsbD bit := by
  have inside : bit < w := written.elim BitVec.lt_of_getLsbD BitVec.lt_of_getLsbD
  rw [Change.apply, Change.apply, getLsbD_stored plain, getLsbD_stored plain,
    change.getLsbD_value inside, change.getLsbD_value inside]
  rcases written with cleared | set
  · rw [cleared, Bool.not_true, Bool.and_false, Bool.and_false]
  · rw [set, Bool.or_true, Bool.or_true]

theorem Change.getLsbD_apply_congr {change : Change w} {word' : BitVec w}
    (same : word.getLsbD bit = word'.getLsbD bit) :
    (change.apply status word).getLsbD bit = (change.apply status word').getLsbD bit := by
  by_cases written : change.Writes bit
  · exact Change.getLsbD_apply_of_writes plain written word'
  · rw [Change.getLsbD_apply_of_not_writes plain written,
      Change.getLsbD_apply_of_not_writes plain written, same]

end

theorem Change.status_of_apply {change : Change w} (flag : status.getLsbD bit = true)
    (set : (change.apply status word).getLsbD bit = true) : word.getLsbD bit = true := by
  rw [Change.apply, getLsbD_stored_status flag, Bool.and_eq_true] at set
  exact set.1

variable {changes : List (Change w)}

section

variable (plain : status.getLsbD bit = false)
include plain

theorem getLsbD_applyAll_congr {word' : BitVec w} (same : word.getLsbD bit = word'.getLsbD bit) :
    (applyAll status changes word).getLsbD bit = (applyAll status changes word').getLsbD bit := by
  induction changes generalizing word word' with
  | nil => exact same
  | cons change changes induction => exact induction (Change.getLsbD_apply_congr plain same)

theorem getLsbD_applyAll_of_not_writes (untouched : ∀ change ∈ changes, ¬change.Writes bit) :
    (applyAll status changes word).getLsbD bit = word.getLsbD bit := by
  induction changes generalizing word with
  | nil => rfl
  | cons change changes induction =>
      rw [List.forall_mem_cons] at untouched
      exact (induction untouched.2).trans
        (Change.getLsbD_apply_of_not_writes plain untouched.1)

theorem getLsbD_applyAll_of_writes (written : ∃ change ∈ changes, change.Writes bit)
    (word' : BitVec w) :
    (applyAll status changes word).getLsbD bit = (applyAll status changes word').getLsbD bit := by
  induction changes generalizing word word' with
  | nil =>
      obtain ⟨change, member, -⟩ := written
      exact absurd member List.not_mem_nil
  | cons change changes induction =>
      rw [List.exists_mem_cons_iff] at written
      rw [applyAll_cons, applyAll_cons]
      rcases written with first | later
      · exact getLsbD_applyAll_congr plain (Change.getLsbD_apply_of_writes plain first word')
      · exact induction later _

end

theorem status_of_applyAll (flag : status.getLsbD bit = true)
    (set : (applyAll status changes word).getLsbD bit = true) : word.getLsbD bit = true := by
  induction changes generalizing word with
  | nil => exact set
  | cons change changes induction => exact Change.status_of_apply flag (induction set)

/-- Two words agree on a bit after the same changes exactly if these write it or they agreed
before. -/
theorem getLsbD_applyAll_eq_iff (plain : status.getLsbD bit = false) (word' : BitVec w) :
    (applyAll status changes word).getLsbD bit = (applyAll status changes word').getLsbD bit ↔
      word.getLsbD bit = word'.getLsbD bit ∨ ∃ change ∈ changes, change.Writes bit := by
  by_cases written : ∃ change ∈ changes, change.Writes bit
  · exact iff_of_true (getLsbD_applyAll_of_writes plain written word') (Or.inr written)
  · rw [or_iff_left written]
    have untouched : ∀ change ∈ changes, ¬change.Writes bit := fun change member writes =>
      written ⟨change, member, writes⟩
    rw [getLsbD_applyAll_of_not_writes plain untouched,
      getLsbD_applyAll_of_not_writes plain untouched]

end BdkFreertos.StatusRegister
