import BdkFreertos.CString
import BdkFreertos.MacFrame
import BdkFreertos.SortedTable
import Mathlib.Data.UInt

/-!
# The conversions between GB2312 and UTF-8

`conv_utf8` replaces the pairs of bytes of Chinese characters by three bytes from a table.
`Utf8ToGb2312` goes back in place, through a buffer as long as its text.  Both estimate the length
of what they write from the length of what they read.
-/

namespace BdkFreertos.ConvUtf8

/-! ### From GB2312 -/

/-- `conv_utf8_for_gb2312`, with the rows from `t_gb2312_utf8` on. -/
def convUtf8ForGb2312 (tGb2312Utf8 : ℕ → Vector UInt8 3) (hiBits lowBit : UInt8) :
    Option (Vector UInt8 3) :=
  if hiBits < 0xB0 ∨ hiBits > 0xF7 then none
  else if lowBit < 0xA1 ∨ lowBit > 0xFE then none
  else
    let gbCode : UInt16 := (hiBits.toUInt16 <<< 8) + lowBit.toUInt16
    let distCnt : UInt16 := (hiBits.toUInt16 - 0xB0) * (0xA1 + 0x01)
    some (tGb2312Utf8 (gbCode - 0xB0A1 - distCnt).toNat)

/-- The bytes that the loop of `conv_utf8` writes, with the terminator. -/
def convLoop (tGb2312Utf8 : ℕ → Vector UInt8 3) : List UInt8 → List UInt8
  | [] => [0]
  | byte :: rest =>
      match convUtf8ForGb2312 tGb2312Utf8 byte (rest.headD 0) with
      | some utf8 => utf8.toList ++ convLoop tGb2312Utf8 rest.tail
      | none => byte :: convLoop tGb2312Utf8 rest
termination_by input => input.length

/-- A buffer that has been allocated and filled from its beginning on. -/
structure Filled where
  size : ℕ
  out : List UInt8

/-- `conv_utf8`, with the outcome of its allocation. -/
def convUtf8 (allocated : Bool) (tGb2312Utf8 : ℕ → Vector UInt8 3) (input : CString) :
    Option Filled :=
  if allocated then some ⟨input.strlen / 2 * 3 + 1, convLoop tGb2312Utf8 input.bytes⟩ else none

/-! ### To GB2312 -/

def searchCodeTable (unicodeToGb2312 : List (UInt16 × UInt16)) (unicodeKey : UInt16) : UInt16 :=
  (SortedTable.search unicodeToGb2312 unicodeKey 0 unicodeToGb2312.length).getD 0

/-- `GetUtf8ByteNumForWord`: the leading ones of a byte. -/
def getUtf8ByteNumForWord (firstCh : UInt8) : ℕ :=
  ((List.range 8).takeWhile fun shift => 0x80 >>> UInt8.ofNat shift &&& firstCh ≠ 0).length

/-- The variables of the loop of `Utf8ToGb2312`, with the places of `utf8` it has read and those of
`temp` it has written. -/
structure Scan where
  i : ℕ
  j : ℕ
  temp : Memory UInt8
  reads : List ℕ
  writes : List ℕ

namespace Scan

/-- Go over some bytes, of which the first `count` are looked at, and store others for them. -/
def advance (scan : Scan) (byteCount count : ℕ) (out : List UInt8) : Scan where
  i := scan.i + byteCount
  j := scan.j + out.length
  temp := scan.temp.store scan.j out
  reads := scan.reads ++ List.range' scan.i count
  writes := scan.writes ++ List.range' scan.j out.length

/-- The body of the loop. -/
def convert (unicodeToGb2312 : List (UInt16 × UInt16)) (utf8 : Memory UInt8) (scan : Scan) :
    Scan :=
  let byte₀ := utf8 scan.i
  let byte₁ := utf8 (scan.i + 1)
  let byte₂ := utf8 (scan.i + 2)
  match getUtf8ByteNumForWord byte₀ with
  | 0 => scan.advance 1 1 [byte₀]
  | 2 => scan.advance 2 2 [byte₀, byte₁]
  | 3 =>
      -- the code point lies in `temp` low byte first until it is replaced
      let high := ((byte₀ &&& 0x0F) <<< 4) ||| ((byte₁ >>> 2) &&& 0x0F)
      let low := ((byte₁ &&& 0x03) <<< 6) + (byte₂ &&& 0x3F)
      let gbKey := searchCodeTable unicodeToGb2312 (halfOfBytes low high)
      scan.advance 3 3 [((gbKey &&& 0xff00) >>> 8).toUInt8, (gbKey &&& 0x00ff).toUInt8]
  | 4 => scan.advance 4 1 []
  | 5 => scan.advance 5 1 []
  | 6 => scan.advance 6 1 []
  | _ => scan.advance 1 1 []

theorem i_lt_convert (unicodeToGb2312 : List (UInt16 × UInt16)) (utf8 : Memory UInt8)
    (scan : Scan) : scan.i < (scan.convert unicodeToGb2312 utf8).i := by
  rw [convert]
  split <;> simp only [advance] <;> omega

end Scan

/-- The loop of `Utf8ToGb2312`. -/
def utf8Loop (unicodeToGb2312 : List (UInt16 × UInt16)) (utf8 : Memory UInt8) (len : ℕ)
    (scan : Scan) : Scan :=
  if scan.i < len then
    utf8Loop unicodeToGb2312 utf8 len (scan.convert unicodeToGb2312 utf8)
  else scan
termination_by len - scan.i
decreasing_by
  have further := scan.i_lt_convert unicodeToGb2312 utf8
  omega

/-- What `Utf8ToGb2312` has done to its text, and where. -/
structure Conversion where
  utf8 : Memory UInt8
  /-- The size of `temp`. -/
  size : ℕ
  reads : List ℕ
  writes : List ℕ
  copied : ℕ

/-- `Utf8ToGb2312` on a text of `len` bytes, with the outcome of its allocation and what the buffer
holds at first.  It returns `NULL` and leaves the text alone when there is none or no buffer. -/
def utf8ToGb2312 (allocated : Bool) (unicodeToGb2312 : List (UInt16 × UInt16))
    (utf8 temp : Memory UInt8) (len : ℕ) : Option Conversion :=
  if len ≤ 0 then none
  else if allocated = false then none
  else
    let scan := utf8Loop unicodeToGb2312 utf8 len ⟨0, 0, temp, [], []⟩
    let temp := scan.temp.store scan.j [0]
    some
      { utf8 := utf8.store 0 (temp.load 0 (scan.j + 1))
        size := len
        reads := scan.reads
        writes := scan.writes ++ [scan.j]
        copied := scan.j + 1 }

/-! ### What `conv_utf8` writes -/

def IsPair (hiBits lowBit : UInt8) : Prop :=
  (0xB0 ≤ hiBits ∧ hiBits ≤ 0xF7) ∧ 0xA1 ≤ lowBit ∧ lowBit ≤ 0xFE

instance (hiBits lowBit : UInt8) : Decidable (IsPair hiBits lowBit) :=
  inferInstanceAs (Decidable (_ ∧ _))

/-- The bytes of a text that belong to no pair. -/
def singles : List UInt8 → ℕ
  | [] => 0
  | byte :: rest => if IsPair byte (rest.headD 0) then singles rest.tail else singles rest + 1
termination_by input => input.length

section
variable {tGb2312Utf8 : ℕ → Vector UInt8 3} {hiBits lowBit : UInt8}

theorem convUtf8ForGb2312_of_not_pair (single : ¬IsPair hiBits lowBit) :
    convUtf8ForGb2312 tGb2312Utf8 hiBits lowBit = none := by
  rw [convUtf8ForGb2312]
  split_ifs with high low
  · rfl
  · rfl
  · simp only [not_or, UInt8.not_lt, gt_iff_lt] at high low
    exact absurd ⟨high, low⟩ single

theorem IsPair.bounds (pair : IsPair hiBits lowBit) :
    (0xB0 ≤ hiBits.toNat ∧ hiBits.toNat ≤ 0xF7) ∧
      0xA1 ≤ lowBit.toNat ∧ lowBit.toNat ≤ 0xFE := by
  simp only [IsPair, UInt8.le_iff_toNat_le] at pair
  exact pair

theorem convUtf8ForGb2312_of_pair (pair : IsPair hiBits lowBit) :
    convUtf8ForGb2312 tGb2312Utf8 hiBits lowBit =
      some (tGb2312Utf8 ((hiBits.toNat - 0xB0) * 94 + (lowBit.toNat - 0xA1))) := by
  have high : ¬(hiBits < 0xB0 ∨ hiBits > 0xF7) :=
    not_or.mpr ⟨UInt8.not_lt.mpr pair.1.1, UInt8.not_lt.mpr pair.1.2⟩
  have low : ¬(lowBit < 0xA1 ∨ lowBit > 0xFE) :=
    not_or.mpr ⟨UInt8.not_lt.mpr pair.2.1, UInt8.not_lt.mpr pair.2.2⟩
  obtain ⟨⟨hi_ge, hi_le⟩, low_ge, low_le⟩ := pair.bounds
  have shifted : (hiBits.toUInt16 <<< 8).toNat = hiBits.toNat * 2 ^ 8 % 2 ^ 16 := by
    rw [UInt16.toNat_shiftLeft, UInt8.toNat_toUInt16, ← Nat.shiftLeft_eq]
    rfl
  have base : (0xB0A1 : UInt16).toNat = 0xB0A1 := rfl
  have dist : ((hiBits.toUInt16 - 0xB0) * (0xA1 + 0x01)).toNat =
      (2 ^ 16 - 0xB0 + hiBits.toNat) % 2 ^ 16 * 0xA2 % 2 ^ 16 := by
    have first : (0xB0 : UInt16).toNat = 0xB0 := rfl
    have width : (0xA1 + 0x01 : UInt16).toNat = 0xA2 := rfl
    rw [UInt16.toNat_mul, UInt16.toNat_sub, UInt8.toNat_toUInt16, first, width]
  rw [convUtf8ForGb2312, if_neg high, if_neg low]
  simp only [Option.some_inj]
  have code : (hiBits.toUInt16 <<< 8 + lowBit.toUInt16).toNat =
      (hiBits.toNat * 2 ^ 8 % 2 ^ 16 + lowBit.toNat) % 2 ^ 16 := by
    rw [UInt16.toNat_add, shifted, UInt8.toNat_toUInt16]
  refine congrArg tGb2312Utf8 ?_
  simp only [UInt16.toNat_sub, dist, code, base]
  omega

theorem convLoop_of_pair {byte second : UInt8} {rest : List UInt8} (pair : IsPair byte second) :
    convLoop tGb2312Utf8 (byte :: second :: rest) =
      (tGb2312Utf8 ((byte.toNat - 0xB0) * 94 + (second.toNat - 0xA1))).toList ++
        convLoop tGb2312Utf8 rest := by
  rw [convLoop]
  simp [convUtf8ForGb2312_of_pair pair]

theorem convLoop_of_single {byte : UInt8} {rest : List UInt8}
    (single : ¬IsPair byte (rest.headD 0)) :
    convLoop tGb2312Utf8 (byte :: rest) = byte :: convLoop tGb2312Utf8 rest := by
  rw [convLoop]
  simp only [convUtf8ForGb2312_of_not_pair single]

theorem exists_of_pair {byte : UInt8} {rest : List UInt8} (pair : IsPair byte (rest.headD 0)) :
    ∃ second last, rest = second :: last := by
  cases rest with
  | nil => exact absurd pair.2.1 (by decide)
  | cons second last => exact ⟨second, last, rfl⟩

theorem length_convLoop (input : List UInt8) :
    ∃ pairs, input.length = 2 * pairs + singles input ∧
      (convLoop tGb2312Utf8 input).length = 3 * pairs + singles input + 1 := by
  induction input using singles.induct with
  | case1 => exact ⟨0, by rw [singles]; rfl, by rw [singles, convLoop]; rfl⟩
  | case2 byte rest pair induction =>
      obtain ⟨second, last, rfl⟩ := exists_of_pair pair
      obtain ⟨pairs, length_eq, written_eq⟩ := induction
      rw [List.tail_cons] at length_eq written_eq
      rw [List.headD_cons] at pair
      rw [singles, List.headD_cons, if_pos pair, List.tail_cons, convLoop_of_pair pair]
      refine ⟨pairs + 1, ?_, ?_⟩
      · rw [List.length_cons, List.length_cons, length_eq]
        omega
      · rw [List.length_append, Vector.length_toList, written_eq]
        omega
  | case3 byte rest single induction =>
      obtain ⟨pairs, length_eq, written_eq⟩ := induction
      rw [singles, if_neg single, convLoop_of_single single]
      refine ⟨pairs, ?_, ?_⟩ <;> rw [List.length_cons] <;> omega

end

/-! ### What `Utf8ToGb2312` touches -/

/-- How far the loop goes on for a first byte. -/
def byteCount (firstCh : UInt8) : ℕ :=
  match getUtf8ByteNumForWord firstCh with
  | 2 => 2
  | 3 => 3
  | 4 => 4
  | 5 => 5
  | 6 => 6
  | _ => 1

/-- The bytes it looks at. -/
def reach (firstCh : UInt8) : ℕ :=
  match getUtf8ByteNumForWord firstCh with
  | 2 => 2
  | 3 => 3
  | _ => 1

/-- The bytes it stores. -/
def stored (firstCh : UInt8) : ℕ :=
  match getUtf8ByteNumForWord firstCh with
  | 0 => 1
  | 2 => 2
  | 3 => 2
  | _ => 0

theorem convert_eq_advance (unicodeToGb2312 : List (UInt16 × UInt16)) (utf8 : Memory UInt8)
    (scan : Scan) :
    ∃ out, scan.convert unicodeToGb2312 utf8 =
        scan.advance (byteCount (utf8 scan.i)) (reach (utf8 scan.i)) out ∧
      out.length = stored (utf8 scan.i) := by
  rw [Scan.convert, byteCount, reach, stored]
  generalize getUtf8ByteNumForWord (utf8 scan.i) = nbyte
  match nbyte with
  | 0 | 1 | 2 | 3 | 4 | 5 | 6 | _ + 7 => exact ⟨_, rfl, rfl⟩

theorem byteCount_pos (firstCh : UInt8) : 0 < byteCount firstCh := by
  rw [byteCount]
  split <;> decide

/-- The characters of a text, as their first bytes announce them; the last one may be cut off. -/
def utf8Chars : List UInt8 → List (List UInt8)
  | [] => []
  | firstCh :: rest =>
      (firstCh :: rest.take (byteCount firstCh - 1)) ::
        utf8Chars (rest.drop (byteCount firstCh - 1))
termination_by text => text.length
decreasing_by
  rw [List.length_drop, List.length_cons]
  omega

/-- The first byte of a character of `nbyte` bytes, and nothing behind it. -/
def lone (nbyte : ℕ) (char : List UInt8) : Bool :=
  getUtf8ByteNumForWord (char.headD 0) = nbyte && char.length = 1

/-- The bytes by which a character gets shorter: one for three complete bytes, all of an announced
four to six, and a byte that is not a first byte. -/
def saved (char : List UInt8) : ℕ :=
  match getUtf8ByteNumForWord (char.headD 0) with
  | 0 => 0
  | 2 => 0
  | 3 => char.length - 2
  | 4 => char.length
  | 5 => char.length
  | 6 => char.length
  | _ => 1

section
variable {unicodeToGb2312 : List (UInt16 × UInt16)} {utf8 : Memory UInt8}

/-- What is stored for a character and what is saved make up its length, but for first bytes that
stand alone. -/
theorem stored_add_saved (firstCh : UInt8) (rest : List UInt8) :
    let char := firstCh :: rest.take (byteCount firstCh - 1)
    stored firstCh + saved char =
      char.length + (if lone 2 char then 1 else 0) + if lone 3 char then 1 else 0 := by
  intro char
  have length_eq : char.length = min (byteCount firstCh - 1) rest.length + 1 := by
    rw [List.length_cons, List.length_take]
  have head_eq : char.headD 0 = firstCh := rfl
  simp only [stored, saved, lone, head_eq, length_eq, byteCount, Bool.and_eq_true,
    decide_eq_true_eq]
  generalize getUtf8ByteNumForWord firstCh = nbyte
  match nbyte with
  | 2 | 3 =>
      simp only [true_and]
      split_ifs <;> omega
  | 0 | 1 | 4 | 5 | 6 | _ + 7 => simp

def storedFor (text : List UInt8) : ℕ :=
  ((utf8Chars text).map fun char => stored (char.headD 0)).sum

theorem storedFor_cons (firstCh : UInt8) (rest : List UInt8) :
    storedFor (firstCh :: rest) =
      stored firstCh + storedFor (rest.drop (byteCount firstCh - 1)) := by
  rw [storedFor, utf8Chars, List.map_cons, List.sum_cons, List.headD_cons, storedFor]

theorem storedFor_add_saved (text : List UInt8) :
    storedFor text + ((utf8Chars text).map saved).sum =
      text.length + (utf8Chars text).countP (lone 2) + (utf8Chars text).countP (lone 3) := by
  induction text using utf8Chars.induct with
  | case1 => simp [storedFor, utf8Chars]
  | case2 firstCh rest induction =>
      have char_eq := stored_add_saved firstCh rest
      have lengths : (firstCh :: rest).length =
          (firstCh :: rest.take (byteCount firstCh - 1)).length +
            (rest.drop (byteCount firstCh - 1)).length := by
        rw [← List.length_append, List.cons_append, List.take_append_drop]
      rw [storedFor_cons, utf8Chars, List.map_cons, List.sum_cons, List.countP_cons,
        List.countP_cons, lengths]
      dsimp only at char_eq
      omega

theorem reach_le_iff (firstCh : UInt8) (rest : List UInt8) :
    reach firstCh ≤ rest.length + 2 ↔
      lone 3 (firstCh :: rest.take (byteCount firstCh - 1)) = false := by
  have length_eq : (firstCh :: rest.take (byteCount firstCh - 1)).length =
      min (byteCount firstCh - 1) rest.length + 1 := by
    rw [List.length_cons, List.length_take]
  rw [← Bool.not_eq_true, lone, List.headD_cons, length_eq, Bool.and_eq_true, decide_eq_true_eq,
    decide_eq_true_eq, reach, byteCount]
  generalize getUtf8ByteNumForWord firstCh = nbyte
  match nbyte with
  | 3 =>
      simp only [true_and]
      omega
  | 0 | 1 | 2 | 4 | 5 | 6 | _ + 7 => simp

theorem reach_pos (firstCh : UInt8) : 0 < reach firstCh := by
  rw [reach]
  split <;> decide

theorem forall_reads_iff {scan : Scan} {count len : ℕ} (some : 0 < count) (bytes : ℕ)
    (out : List UInt8) :
    (∀ place ∈ (scan.advance bytes count out).reads, place ≤ len) ↔
      (∀ place ∈ scan.reads, place ≤ len) ∧ scan.i + count ≤ len + 1 := by
  rw [Scan.advance, List.forall_mem_append]
  refine and_congr_right fun _ => ?_
  constructor
  · intro bounded
    have last := bounded (scan.i + count - 1) (List.mem_range'_1.mpr (by omega))
    omega
  · intro bounded place place_mem
    rw [List.mem_range'_1] at place_mem
    omega

/-- The run over what is left of a text. -/
theorem utf8Loop_spec {input : List UInt8} (held : utf8.Holds 0 input) (scan : Scan) :
    (utf8Loop unicodeToGb2312 utf8 input.length scan).j =
        scan.j + storedFor (input.drop scan.i) ∧
      ((∀ place ∈ (utf8Loop unicodeToGb2312 utf8 input.length scan).reads,
          place ≤ input.length) ↔
        (∀ place ∈ scan.reads, place ≤ input.length) ∧
          ∀ char ∈ utf8Chars (input.drop scan.i), lone 3 char = false) ∧
      ((∀ place ∈ scan.writes, place < scan.j) →
        ∀ place ∈ (utf8Loop unicodeToGb2312 utf8 input.length scan).writes,
          place < (utf8Loop unicodeToGb2312 utf8 input.length scan).j) := by
  induction scan using utf8Loop.induct unicodeToGb2312 utf8 input.length with
  | case1 scan inside induction =>
      obtain ⟨out, convert_eq, out_length⟩ := convert_eq_advance unicodeToGb2312 utf8 scan
      have byte_eq : utf8 scan.i = input[scan.i] := by
        have cell := Memory.load_apply held inside
        rw [Nat.zero_add, List.getElem?_eq_getElem inside] at cell
        exact (Option.some.inj cell).symm
      rw [byte_eq] at convert_eq out_length
      have rest_length : (input.drop (scan.i + 1)).length = input.length - (scan.i + 1) :=
        List.length_drop
      have next : input.drop (scan.i + byteCount input[scan.i]) =
          (input.drop (scan.i + 1)).drop (byteCount input[scan.i] - 1) := by
        have positive := byteCount_pos input[scan.i]
        rw [List.drop_drop]
        congr 1
        omega
      obtain ⟨j_eq, reads_iff, writes_lt⟩ := induction
      rw [utf8Loop, if_pos inside]
      rw [convert_eq] at j_eq reads_iff writes_lt ⊢
      rw [List.drop_eq_getElem_cons inside, storedFor_cons, utf8Chars, ← next]
      refine ⟨?_, ?_, ?_⟩
      · rw [j_eq, ← out_length, ← Nat.add_assoc]
        rfl
      · rw [reads_iff, forall_reads_iff (reach_pos _), List.forall_mem_cons, ← reach_le_iff,
          and_assoc]
        refine and_congr_right fun _ => and_congr ?_ Iff.rfl
        omega
      · intro written
        refine writes_lt fun place place_mem => ?_
        rcases List.mem_append.mp place_mem with before | new
        · exact (written place before).trans_le (Nat.le_add_right _ _)
        · exact (List.mem_range'_1.mp new).2
  | case2 scan outside =>
      have rest_nil : input.drop scan.i = [] := List.drop_eq_nil_of_le (Nat.not_lt.mp outside)
      rw [utf8Loop, if_neg outside, rest_nil, storedFor, utf8Chars]
      exact ⟨rfl, by simp, id⟩

/-- What `Utf8ToGb2312` may touch for a text of `len` bytes and a terminator. -/
structure InBounds (conversion : Conversion) (len : ℕ) : Prop where
  writes : ∀ place ∈ conversion.writes, place < conversion.size
  reads : ∀ place ∈ conversion.reads, place ≤ len
  copied : conversion.copied ≤ len + 1

/-- The buffer is long enough for a text without a lone first byte of three if more is saved than
is stored for lone first bytes of two. -/
theorem utf8ToGb2312_inBounds_iff {input : List UInt8} (held : utf8.Holds 0 input)
    (some : input ≠ []) (temp : Memory UInt8) :
    (∀ conversion ∈ utf8ToGb2312 true unicodeToGb2312 utf8 temp input.length,
        InBounds conversion input.length) ↔
      (∀ char ∈ utf8Chars input, lone 3 char = false) ∧
        (utf8Chars input).countP (lone 2) < ((utf8Chars input).map saved).sum := by
  have length_ne : ¬input.length ≤ 0 := fun none => some (List.length_eq_zero_iff.mp (by omega))
  obtain ⟨j_eq, reads_iff, writes_lt⟩ :=
    @utf8Loop_spec unicodeToGb2312 utf8 input held ⟨0, 0, temp, [], []⟩
  have total := storedFor_add_saved input
  rw [List.drop_zero, Nat.zero_add] at j_eq
  rw [List.drop_zero, and_iff_right (fun _ none => absurd none List.not_mem_nil)] at reads_iff
  have before := writes_lt fun _ none => absurd none List.not_mem_nil
  rw [utf8ToGb2312, if_neg length_ne, if_neg (by decide)]
  simp only [Option.mem_some_iff, forall_eq']
  have whole (complete : ∀ char ∈ utf8Chars input, lone 3 char = false) :
      (utf8Chars input).countP (lone 3) = 0 :=
    List.countP_eq_zero.mpr fun char char_mem => Bool.not_eq_true _ ▸ complete char char_mem
  constructor
  · rintro ⟨writes, reads, -⟩
    have complete := reads_iff.mp reads
    have last := writes _ (List.mem_append_right _ (List.mem_singleton_self _))
    dsimp only at last
    have none := whole complete
    exact ⟨complete, by omega⟩
  · rintro ⟨complete, enough⟩
    have none := whole complete
    refine ⟨fun place place_mem => ?_, reads_iff.mpr complete, ?_⟩
    · rcases List.mem_append.mp place_mem with inner | last
      · have place_lt := before place inner
        dsimp only
        omega
      · rw [List.mem_singleton.mp last, j_eq]
        dsimp only
        omega
    · dsimp only
      omega

end

/-- `conv_utf8` stays in its buffer unless exactly one byte of its text belongs to no pair.
`Utf8ToGb2312` does unless its text ends with a lone first byte of three, or not enough of it gets
shorter. -/
theorem conversions_in_bounds_iff (outAllocated tempAllocated : Bool)
    (tGb2312Utf8 : ℕ → Vector UInt8 3) (unicodeToGb2312 : List (UInt16 × UInt16))
    (input : CString) (behind temp : Memory UInt8) :
    ((∀ filled ∈ convUtf8 outAllocated tGb2312Utf8 input, filled.out.length ≤ filled.size) ↔
        outAllocated = false ∨ singles input.bytes ≠ 1) ∧
      ((∀ conversion ∈ utf8ToGb2312 tempAllocated unicodeToGb2312
            (behind.store 0 (input.bytes ++ [0])) temp input.strlen,
          InBounds conversion input.strlen) ↔
        tempAllocated = false ∨ input.bytes = [] ∨
          (∀ char ∈ utf8Chars input.bytes, lone 3 char = false) ∧
            (utf8Chars input.bytes).countP (lone 2) <
              ((utf8Chars input.bytes).map saved).sum) := by
  constructor
  · cases outAllocated with
    | false => exact iff_of_true (fun _ none => absurd none (Option.not_mem_none _)) (Or.inl rfl)
    | true =>
        obtain ⟨pairs, length_eq, written_eq⟩ :=
          @length_convLoop tGb2312Utf8 input.bytes
        rw [convUtf8, if_pos rfl, or_iff_right (by decide)]
        simp only [Option.mem_some_iff, forall_eq']
        rw [written_eq, CString.strlen, length_eq]
        omega
  · cases tempAllocated with
    | false =>
        refine iff_of_true (fun conversion converted => ?_) (Or.inl rfl)
        rw [utf8ToGb2312, if_pos rfl, ite_self] at converted
        exact absurd converted (Option.not_mem_none _)
    | true =>
        rw [or_iff_right (by decide)]
        by_cases nothing : input.bytes = []
        · have length_le : input.strlen ≤ 0 := by
            rw [CString.strlen, nothing]
            exact Nat.le_refl 0
          refine iff_of_true (fun conversion converted => ?_) (Or.inl nothing)
          rw [utf8ToGb2312, if_pos length_le] at converted
          exact absurd converted (Option.not_mem_none _)
        · rw [or_iff_right nothing]
          have stored := Memory.holds_store behind 0 (input.bytes ++ [0])
          exact utf8ToGb2312_inBounds_iff (Memory.holds_append.mp stored).1 nothing temp

/-- The text of one letter is written with its terminator into a buffer of one byte. -/
theorem one_letter_out_of_bounds :
    ¬∀ filled ∈ convUtf8 true (fun _ => #v[0xE5, 0x95, 0x8A]) ⟨[97], by decide⟩,
      filled.out.length ≤ filled.size := by
  have written : convLoop (fun _ => #v[0xE5, 0x95, 0x8A]) [97] = [97, 0] := by
    rw [convLoop_of_single (by decide), convLoop]
  intro bounded
  have filled_le : (convLoop (fun _ => #v[0xE5, 0x95, 0x8A]) [97]).length ≤ 1 := bounded _ rfl
  rw [written] at filled_le
  exact absurd filled_le (by decide)

end BdkFreertos.ConvUtf8
