import BdkFreertos.Memory

/-!
# Printing piece by piece into a buffer

`len += snprintf(buffer + len, size - len, ...)` prints a text behind the one before it.  The length
grows by what each text would take, whether or not it was stored, and the size that is left is the
difference of two `int`s taken as unsigned.
-/

namespace BdkFreertos.AppendPrint

/-- A buffer that is printed to. -/
structure Progress where
  buffer : Memory UInt8
  /-- The stores so far, each the first place and the number of bytes. -/
  stores : List (ℕ × ℕ)
  /-- The variable `len`, lost once it has passed the largest `int`. -/
  len : Option ℕ

/-- Before the first text. -/
def start (buffer : Memory UInt8) : Progress where
  buffer := buffer
  stores := []
  len := some 0

/-- The argument `size - len`. -/
def sizeLeft (size len : ℕ) : UInt32 := UInt32.ofNat size - UInt32.ofNat len

/-- What `snprintf` stores of a text: its front and a terminator, or nothing. -/
def stored (left : UInt32) (text : List UInt8) : List UInt8 :=
  if left = 0 then [] else text.take (left.toNat - 1) ++ [0]

/-- Print one text. -/
def append (size : ℕ) (progress : Progress) (text : List UInt8) : Progress :=
  match progress.len with
  | none => progress
  | some len =>
      let cells := stored (sizeLeft size len) text
      { buffer := progress.buffer.store len cells
        stores := progress.stores ++ [(len, cells.length)]
        len := if len + text.length < 2 ^ 31 then some (len + text.length) else none }

/-- Every byte stored lies in a buffer of the size, and the length is an `int`. -/
structure Contained (size : ℕ) (progress : Progress) : Prop where
  len : progress.len ≠ none
  inside : ∀ store ∈ progress.stores, ∀ index < store.2, store.1 + index < size

/-- The buffer holds the text printed so far, cut to its size, with a terminator. -/
structure Fits (size : ℕ) (text : List UInt8) (progress : Progress) : Prop where
  len : progress.len = some text.length
  inside : ∀ store ∈ progress.stores, ∀ index < store.2, store.1 + index < size
  held : text ≠ [] → progress.buffer.Holds 0 (text.take (size - 1) ++ [0])

variable {size : ℕ} {text more : List UInt8} {progress : Progress}

theorem fits_start (buffer : Memory UInt8) : Fits size [] (start buffer) where
  len := rfl
  inside _ member := absurd member List.not_mem_nil
  held nonempty := absurd rfl nonempty

theorem toNat_sizeLeft_of_le {len : ℕ} (small : size < 2 ^ 31) (short : len ≤ size) :
    (sizeLeft size len).toNat = size - len := by
  have size_eq : (UInt32.ofNat size).toNat = size := by
    rw [UInt32.toNat_ofNat']
    omega
  have len_eq : (UInt32.ofNat len).toNat = len := by
    rw [UInt32.toNat_ofNat']
    omega
  rw [sizeLeft, UInt32.toNat_sub_of_le _ _ (by rw [UInt32.le_iff_toNat_le]; omega), size_eq, len_eq]

theorem sizeLeft_ne_zero_of_lt {len : ℕ} (long : size < len) (small : len < 2 ^ 31) :
    sizeLeft size len ≠ 0 := by
  intro zero
  have value := congrArg UInt32.toNat zero
  rw [sizeLeft, UInt32.toNat_sub, UInt32.toNat_ofNat', UInt32.toNat_ofNat',
    show (0 : UInt32).toNat = 0 from rfl] at value
  omega

theorem stored_ne_nil {left : UInt32} (some_left : left ≠ 0) : stored left text ≠ [] := by
  rw [stored, if_neg some_left]
  exact List.concat_ne_nil _ _

theorem stored_length_le {left : UInt32} : (stored left text).length ≤ left.toNat := by
  rw [stored]
  split
  · simp
  · rename_i room
    have pos : 0 < left.toNat := Nat.pos_of_ne_zero fun zero => room (UInt32.toNat_inj.mp zero)
    rw [List.length_append, List.length_take, List.length_singleton]
    omega

theorem Fits.append (fits : Fits size text progress) (positive : 0 < size)
    (short : text.length ≤ size) (small : size + more.length < 2 ^ 31) :
    Fits size (text ++ more) (append size progress more) := by
  have left_eq := toNat_sizeLeft_of_le (by omega) short
  rw [AppendPrint.append, fits.len]
  refine ⟨?_, fun store member index bound => ?_, fun nonempty => ?_⟩
  · dsimp only
    rw [if_pos (by omega), List.length_append]
  · rcases List.mem_append.mp member with earlier | last
    · exact fits.inside store earlier index bound
    · rw [List.mem_singleton.mp last] at bound ⊢
      have bounded : (stored (sizeLeft size text.length) more).length ≤ _ := stored_length_le
      dsimp only at bound ⊢
      omega
  · dsimp only
    rcases Nat.lt_or_eq_of_le short with room | full
    · -- the text so far is whole, and its terminator is overwritten
      have some_left : sizeLeft size text.length ≠ 0 := by
        intro zero
        rw [zero, show (0 : UInt32).toNat = 0 from rfl] at left_eq
        omega
      have whole : text.take (size - 1) = text := List.take_of_length_le (by omega)
      have cut : (text ++ more).take (size - 1) =
          text ++ more.take (size - text.length - 1) := by
        rw [List.take_append, whole, Nat.sub_right_comm]
      rw [stored, if_neg some_left, left_eq, cut, List.append_assoc, Memory.holds_append,
        Nat.zero_add]
      refine ⟨?_, Memory.holds_store _ _ _⟩
      refine Memory.Holds.store_of_disjoint ?_ (Or.inl (by omega))
      rcases List.eq_nil_or_concat text with rfl | ⟨_, _, rfl⟩
      · exact Memory.holds_nil _ _
      · have held := fits.held (by simp)
        rw [whole, Memory.holds_append] at held
        exact held.1
    · -- nothing is stored, and the terminator stays at the end
      have none_left : sizeLeft size text.length = 0 := by
        rw [← UInt32.toNat_inj, left_eq, show (0 : UInt32).toNat = 0 from rfl]
        omega
      have kept : (text ++ more).take (size - 1) = text.take (size - 1) :=
        List.take_append_of_le_length (by omega)
      rw [stored, if_pos none_left, Memory.store_nil, kept]
      refine fits.held ?_
      rintro rfl
      rw [List.length_nil] at full
      omega

theorem not_contained_append {len : ℕ} (printed : progress.len = some len) (long : size < len)
    (small : len < 2 ^ 31) : ¬Contained size (append size progress more) := by
  intro contained
  have nonempty : stored (sizeLeft size len) more ≠ [] :=
    stored_ne_nil (sizeLeft_ne_zero_of_lt long small)
  have member : (len, (stored (sizeLeft size len) more).length) ∈
      (append size progress more).stores := by
    rw [append, printed]
    exact List.mem_append_right _ (List.mem_singleton.mpr rfl)
  have inside := contained.inside _ member 0 (List.length_pos_of_ne_nil nonempty)
  exact absurd (Nat.lt_trans long inside) (Nat.lt_irrefl _)

theorem append_of_lost (lost : progress.len = none) : append size progress text = progress := by
  rw [append, lost]

theorem foldl_append_of_lost (texts : List (List UInt8)) (lost : progress.len = none) :
    texts.foldl (append size) progress = progress := by
  induction texts with
  | nil => rfl
  | cons text texts induction => rw [List.foldl_cons, append_of_lost lost, induction]

theorem len_foldl_append (texts : List (List UInt8)) {len : ℕ} (printed : progress.len = some len)
    (small : len < 2 ^ 31) :
    (texts.foldl (append size) progress).len = none ∨
      (texts.foldl (append size) progress).len = some (len + texts.flatten.length) ∧
        len + texts.flatten.length < 2 ^ 31 := by
  induction texts generalizing progress len with
  | nil => exact Or.inr ⟨printed, small⟩
  | cons text texts induction =>
      rw [List.foldl_cons, List.flatten_cons, List.length_append, ← Nat.add_assoc]
      by_cases still : len + text.length < 2 ^ 31
      · refine induction ?_ still
        rw [append, printed]
        exact if_pos still
      · have lost : (append size progress text).len = none := by
          rw [append, printed]
          exact if_neg still
        rw [foldl_append_of_lost texts lost]
        exact Or.inl lost

theorem Fits.foldl_append (fits : Fits size text progress) (positive : 0 < size)
    (small : size < 2 ^ 30) (texts : List (List UInt8))
    (short : text.length + texts.flatten.length ≤ size) :
    Fits size (text ++ texts.flatten) (texts.foldl (AppendPrint.append size) progress) := by
  induction texts generalizing text progress with
  | nil => simpa using fits
  | cons more texts induction =>
      rw [List.flatten_cons, List.length_append] at short
      rw [List.flatten_cons, List.foldl_cons, ← List.append_assoc]
      refine induction (fits.append positive (by omega) (by omega)) ?_
      rw [List.length_append]
      omega

section Listing

variable (positive : 0 < size) (small : size < 2 ^ 30) (buffer : Memory UInt8)
  (texts : List (List UInt8)) {last : List UInt8} (brief : last.length < 2 ^ 30)

include positive small brief

theorem fits_listing (short : texts.flatten.length ≤ size) :
    Fits size (texts.flatten ++ last)
      (append size (texts.foldl (append size) (start buffer)) last) := by
  have fits := (fits_start buffer).foldl_append positive small texts
    (by rw [List.length_nil, Nat.zero_add]; exact short)
  rw [List.nil_append] at fits
  exact fits.append positive short (by omega)

theorem contained_listing_iff :
    Contained size (append size (texts.foldl (append size) (start buffer)) last) ↔
      texts.flatten.length ≤ size := by
  constructor
  · intro contained
    have printed := @len_foldl_append size (start buffer) texts 0 rfl (by decide)
    rcases printed with lost | ⟨len, small⟩
    · rw [append_of_lost lost] at contained
      exact absurd lost contained.len
    · rw [Nat.zero_add] at len small
      by_contra long
      exact not_contained_append len (Nat.lt_of_not_le long) small contained
  · intro short
    have fits := fits_listing positive small buffer texts brief short
    exact ⟨by rw [fits.len]; exact Option.some_ne_none _, fits.inside⟩

end Listing

end BdkFreertos.AppendPrint
