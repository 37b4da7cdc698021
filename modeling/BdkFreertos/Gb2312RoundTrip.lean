import BdkFreertos.ConvUtf8

/-!
# From GB2312 to UTF-8 and back

The table `t_gb2312_utf8` has one row for each Chinese character of GB2312, and the first byte D7
has five characters less than the others.  `conv_utf8` counts 94 rows for every first byte.
-/

namespace BdkFreertos.ConvUtf8

/-! ### Characters and tables -/

/-- A Chinese character of GB2312. -/
structure ChineseChar where
  hiBits : UInt8
  lowBit : UInt8
  pair : IsPair hiBits lowBit
  /-- The codes from D7FA on are not assigned. -/
  assigned : hiBits = 0xD7 → lowBit ≤ 0xF9

namespace ChineseChar

variable (char : ChineseChar)

def bytes : List UInt8 := [char.hiBits, char.lowBit]

def code : UInt16 := halfOfBytes char.lowBit char.hiBits

/-- The row that `conv_utf8_for_gb2312` takes. -/
def index : ℕ := (char.hiBits.toNat - 0xB0) * 94 + (char.lowBit.toNat - 0xA1)

def rank : ℕ := if char.hiBits ≤ 0xD7 then char.index else char.index - 5

theorem index_eq :
    char.index = (char.hiBits.toNat - 0xB0) * 94 + (char.lowBit.toNat - 0xA1) := by
  delta index
  exact Eq.refl _

theorem hiBits_le_iff : char.hiBits ≤ 0xD7 ↔ char.hiBits.toNat ≤ 0xD7 := UInt8.le_iff_toNat_le

theorem rank_lt : char.rank < 6763 := by
  obtain ⟨⟨hi_ge, hi_le⟩, low_ge, low_le⟩ := char.pair.bounds
  have index_eq := char.index_eq
  rw [rank]
  split_ifs with early
  · rw [hiBits_le_iff] at early
    omega
  · omega

theorem exists_index_eq {place : ℕ} (inside : place < 6768)
    (assigned : place / 94 = 39 → place < 3755) :
    ∃ char : ChineseChar, char.index = place ∧ char.hiBits.toNat = 0xB0 + place / 94 := by
  have hi_eq : (UInt8.ofNat (0xB0 + place / 94)).toNat = 0xB0 + place / 94 :=
    UInt8.toNat_ofNat_of_lt' (by change _ < 256; omega)
  have low_eq : (UInt8.ofNat (0xA1 + place % 94)).toNat = 0xA1 + place % 94 :=
    UInt8.toNat_ofNat_of_lt' (by change _ < 256; omega)
  have pair : IsPair (.ofNat (0xB0 + place / 94)) (.ofNat (0xA1 + place % 94)) := by
    simp only [IsPair, UInt8.le_iff_toNat_le, hi_eq, low_eq]
    change (0xB0 ≤ _ ∧ _ ≤ 0xF7) ∧ 0xA1 ≤ _ ∧ _ ≤ 0xFE
    omega
  have last_assigned : UInt8.ofNat (0xB0 + place / 94) = 0xD7 →
      UInt8.ofNat (0xA1 + place % 94) ≤ 0xF9 := by
    intro last
    rw [← UInt8.toNat_inj, hi_eq] at last
    rw [UInt8.le_iff_toNat_le, low_eq]
    change _ = 0xD7 at last
    change _ ≤ 0xF9
    omega
  have parts := Nat.div_add_mod place 94
  refine ⟨⟨_, _, pair, last_assigned⟩, (index_eq _).trans ?_, hi_eq⟩
  dsimp only
  rw [hi_eq, low_eq, Nat.add_sub_cancel_left, Nat.add_sub_cancel_left, Nat.mul_comm, parts]

theorem exists_rank_eq {row : ℕ} (inside : row < 6763) : ∃ char : ChineseChar, char.rank = row := by
  by_cases early : row < 3755
  · obtain ⟨char, index_eq, hi_eq⟩ := exists_index_eq (show row < 6768 by omega) fun _ => early
    refine ⟨char, ?_⟩
    rw [rank, if_pos (char.hiBits_le_iff.mpr (by omega)), index_eq]
  · obtain ⟨char, index_eq, hi_eq⟩ :=
      exists_index_eq (show row + 5 < 6768 by omega) (by omega)
    refine ⟨char, ?_⟩
    rw [rank, if_neg (mt char.hiBits_le_iff.mp (by omega)), index_eq, Nat.add_sub_cancel]

end ChineseChar

/-- A character of a text. -/
inductive Character
  | ascii (byte : UInt8) (letter : 0 < byte ∧ byte < 0x80)
  | chinese (char : ChineseChar)

def Character.bytes : Character → List UInt8
  | .ascii byte _ => [byte]
  | .chinese char => char.bytes

/-- Three bytes of UTF-8. -/
def IsUtf8 (row : Vector UInt8 3) : Prop :=
  (row.getD 0 0).toNat / 16 = 14 ∧ (row.getD 1 0).toNat / 64 = 2 ∧
    (row.getD 2 0).toNat / 64 = 2

/-- The code point of three bytes of UTF-8. -/
def codePoint (row : Vector UInt8 3) : ℕ :=
  (row.getD 0 0).toNat % 16 * 4096 + (row.getD 1 0).toNat % 64 * 64 +
    (row.getD 2 0).toNat % 64

/-- The tables of the conversions, the second one sorted and the inverse of the first one. -/
structure Tables where
  tGb2312Utf8 : List (Vector UInt8 3)
  unicodeToGb2312 : List (UInt16 × UInt16)
  length_eq : tGb2312Utf8.length = 6763
  sorted : SortedTable.Sorted unicodeToGb2312
  inverse : ∀ char : ChineseChar, ∃ row, tGb2312Utf8[char.rank]? = some row ∧ IsUtf8 row ∧
    (UInt16.ofNat (codePoint row), char.code) ∈ unicodeToGb2312

/-! ### One character -/

theorem getUtf8ByteNumForWord_table : ∀ index : Fin 256,
    (index.val < 128 → getUtf8ByteNumForWord (UInt8.ofNat index) = 0) ∧
      (index.val / 16 = 14 → getUtf8ByteNumForWord (UInt8.ofNat index) = 3) := by
  decide +kernel

variable {byte : UInt8} {point : ℕ} (char : ChineseChar)

theorem getUtf8ByteNumForWord_ascii (letter : byte < 0x80) : getUtf8ByteNumForWord byte = 0 := by
  have row := (getUtf8ByteNumForWord_table ⟨byte.toNat, byte.toNat_lt⟩).1
    (UInt8.lt_iff_toNat_lt.mp letter)
  rwa [UInt8.ofNat_toNat] at row

theorem getUtf8ByteNumForWord_three (lead : byte.toNat / 16 = 14) :
    getUtf8ByteNumForWord byte = 3 := by
  have row := (getUtf8ByteNumForWord_table ⟨byte.toNat, byte.toNat_lt⟩).2 lead
  rwa [UInt8.ofNat_toNat] at row

theorem toNat_and_mask (byte : UInt8) (bits : ℕ) {mask : UInt8}
    (mask_eq : mask.toNat = 2 ^ bits - 1) :
    (byte &&& mask).toNat = byte.toNat % 2 ^ bits := by
  rw [UInt8.toNat_and, mask_eq, Nat.and_two_pow_sub_one_eq_mod]

theorem unicodeKey_eq (byte₀ byte₁ byte₂ : UInt8) :
    halfOfBytes (((byte₁ &&& 0x03) <<< 6) + (byte₂ &&& 0x3F))
        (((byte₀ &&& 0x0F) <<< 4) ||| ((byte₁ >>> 2) &&& 0x0F)) =
      UInt16.ofNat
        (byte₀.toNat % 16 * 4096 + byte₁.toNat % 64 * 64 + byte₂.toNat % 64) := by
  have low_eq : (((byte₁ &&& 0x03) <<< 6) + (byte₂ &&& 0x3F)).toNat =
      byte₁.toNat % 4 * 64 + byte₂.toNat % 64 := by
    have first : ((byte₁ &&& 0x03) <<< 6).toNat = byte₁.toNat % 4 * 2 ^ 6 % 2 ^ 8 := by
      rw [UInt8.toNat_shiftLeft, toNat_and_mask byte₁ 2 rfl, ← Nat.shiftLeft_eq]
      rfl
    rw [UInt8.toNat_add, first, toNat_and_mask byte₂ 6 rfl]
    omega
  have high_eq : (((byte₀ &&& 0x0F) <<< 4) ||| ((byte₁ >>> 2) &&& 0x0F)).toNat =
      byte₀.toNat % 16 * 16 + byte₁.toNat / 4 % 16 := by
    have first : ((byte₀ &&& 0x0F) <<< 4).toNat = 2 ^ 4 * (byte₀.toNat % 16) := by
      rw [UInt8.toNat_shiftLeft, toNat_and_mask byte₀ 4 rfl]
      change (_ % 2 ^ 4) <<< 4 % 2 ^ 8 = _
      rw [Nat.shiftLeft_eq]
      omega
    have second : ((byte₁ >>> 2) &&& 0x0F).toNat = byte₁.toNat / 4 % 16 := by
      rw [toNat_and_mask _ 4 rfl, UInt8.toNat_shiftRight]
      change _ >>> 2 % 2 ^ 4 = _
      rw [Nat.shiftRight_eq_div_pow]
      rfl
    rw [UInt8.toNat_or, first, second, ← Nat.two_pow_add_eq_or_of_lt (Nat.mod_lt _ (by decide)),
      Nat.mul_comm]
  rw [halfOfBytes, low_eq, high_eq]
  congr 1
  omega

theorem codeBytes_eq :
    [((char.code &&& 0xff00) >>> 8).toUInt8, (char.code &&& 0x00ff).toUInt8] = char.bytes := by
  have low_lt : char.lowBit.toNat < 256 := char.lowBit.toNat_lt
  have hi_lt : char.hiBits.toNat < 256 := char.hiBits.toNat_lt
  have code_eq : char.code.toNat = char.lowBit.toNat + 256 * char.hiBits.toNat :=
    UInt16.toNat_ofNat_of_lt' (by change _ < 65536; omega)
  have hi_eq : ((char.code &&& 0xff00) >>> 8).toUInt8 = char.hiBits := by
    rw [← UInt8.toNat_inj, UInt16.toNat_toUInt8, UInt16.toNat_shiftRight, UInt16.toNat_and, code_eq]
    change ((_ &&& 0xff00) >>> 8) % 256 = _
    have mask : (0xff00 : ℕ) >>> 8 = 2 ^ 8 - 1 := rfl
    rw [Nat.shiftRight_and_distrib, mask, Nat.and_two_pow_sub_one_eq_mod,
      Nat.shiftRight_eq_div_pow]
    omega
  have low_eq : (char.code &&& 0x00ff).toUInt8 = char.lowBit := by
    rw [← UInt8.toNat_inj, UInt16.toNat_toUInt8, UInt16.toNat_and, code_eq]
    change (_ &&& 2 ^ 8 - 1) % 256 = _
    rw [Nat.and_two_pow_sub_one_eq_mod]
    omega
  rw [hi_eq, low_eq, ChineseChar.bytes]

/-! ### A text and its conversions -/

/-- What `conv_utf8` writes for a character. -/
def Character.utf8 (tGb2312Utf8 : ℕ → Vector UInt8 3) : Character → List UInt8
  | .ascii byte _ => [byte]
  | .chinese char => (tGb2312Utf8 char.index).toList

theorem Character.length_utf8_pos (tGb2312Utf8 : ℕ → Vector UInt8 3) (char : Character) :
    0 < (char.utf8 tGb2312Utf8).length := by
  cases char with
  | ascii byte letter => exact Nat.one_pos
  | chinese char =>
      rw [utf8, Vector.length_toList]
      decide

/-- A text with its Chinese characters replaced. -/
def Character.map (replaced : ChineseChar → ChineseChar) : Character → Character
  | .ascii byte letter => .ascii byte letter
  | .chinese char => .chinese (replaced char)

def bytesOf (text : List Character) : List UInt8 := text.flatMap Character.bytes

theorem bytesOf_cons (char : Character) (text : List Character) :
    bytesOf (char :: text) = char.bytes ++ bytesOf text := by
  rw [bytesOf, List.flatMap_cons, bytesOf]

theorem Character.zero_not_mem_bytes (char : Character) : 0 ∉ char.bytes := by
  cases char with
  | ascii byte letter =>
      rw [bytes, List.mem_singleton]
      rintro rfl
      exact absurd letter.1 (by decide)
  | chinese char =>
      obtain ⟨⟨hi_ge, -⟩, low_ge, -⟩ := char.pair.bounds
      rw [bytes, ChineseChar.bytes, List.mem_pair]
      rintro (none | none)
      · rw [← none] at hi_ge
        exact absurd hi_ge (by decide)
      · rw [← none] at low_ge
        exact absurd low_ge (by decide)

/-- A text as a string. -/
def stringOf (text : List Character) : CString where
  bytes := bytesOf text
  noNul := by
    rw [bytesOf, List.mem_flatMap]
    rintro ⟨char, -, nul_mem⟩
    exact char.zero_not_mem_bytes nul_mem

/-- The rows of a text are the UTF-8 of some characters. -/
def Means (tables : Tables) (tGb2312Utf8 : ℕ → Vector UInt8 3)
    (replaced : ChineseChar → ChineseChar) (text : List Character) : Prop :=
  ∀ char, .chinese char ∈ text → IsUtf8 (tGb2312Utf8 char.index) ∧
    (UInt16.ofNat (codePoint (tGb2312Utf8 char.index)), (replaced char).code) ∈
      tables.unicodeToGb2312

section
variable {tables : Tables} {tGb2312Utf8 : ℕ → Vector UInt8 3}
  {replaced : ChineseChar → ChineseChar} {text : List Character} {utf8 : Memory UInt8}

theorem convLoop_text (text : List Character) :
    convLoop tGb2312Utf8 (bytesOf text) = text.flatMap (Character.utf8 tGb2312Utf8) ++ [0] := by
  induction text with
  | nil => rw [bytesOf, List.flatMap_nil, List.flatMap_nil, convLoop, List.nil_append]
  | cons char text induction =>
      rw [bytesOf_cons, List.flatMap_cons, List.append_assoc, ← induction]
      cases char with
      | ascii byte letter =>
          refine convLoop_of_single fun pair => ?_
          have byte_lt : byte.toNat < 0x80 := UInt8.lt_iff_toNat_lt.mp letter.2
          have byte_ge := pair.bounds.1.1
          omega
      | chinese char =>
          refine (convLoop_of_pair char.pair).trans ?_
          rw [← ChineseChar.index_eq]
          rfl

theorem searchCodeTable_of_mem {key code : UInt16} (held : (key, code) ∈ tables.unicodeToGb2312) :
    searchCodeTable tables.unicodeToGb2312 key = code := by
  obtain ⟨place, row_eq⟩ := List.mem_iff_getElem?.mp held
  have inside := (List.getElem?_eq_some_iff.mp row_eq).1
  rw [searchCodeTable, SortedTable.search_of_getElem? tables.sorted row_eq (Nat.zero_le _) inside
    (Nat.le_refl _), Option.getD_some]

variable {scan : Scan}

theorem convert_ascii (letter : utf8 scan.i < 0x80) :
    scan.convert tables.unicodeToGb2312 utf8 = scan.advance 1 1 [utf8 scan.i] := by
  rw [Scan.convert, getUtf8ByteNumForWord_ascii letter]
  rfl

theorem convert_chinese {row : Vector UInt8 3} {char : ChineseChar} (isUtf8 : IsUtf8 row)
    (held : utf8.Holds scan.i row.toList)
    (found : (UInt16.ofNat (codePoint row), char.code) ∈ tables.unicodeToGb2312) :
    scan.convert tables.unicodeToGb2312 utf8 = scan.advance 3 3 char.bytes := by
  rw [toList_three] at held
  rw [codePoint] at found
  simp only [Memory.holds_cons] at held
  obtain ⟨first, second, third, -⟩ := held
  rw [Scan.convert, first, second, third, getUtf8ByteNumForWord_three isUtf8.1]
  simp only
  rw [unicodeKey_eq, searchCodeTable_of_mem found, codeBytes_eq]

/-- The run over a text stores the replaced characters one after the other. -/
theorem utf8Loop_text (means : Means tables tGb2312Utf8 replaced text) {scan : Scan} {len : ℕ}
    (held : utf8.Holds scan.i (text.flatMap (Character.utf8 tGb2312Utf8)))
    (len_eq : len = scan.i + (text.flatMap (Character.utf8 tGb2312Utf8)).length) :
    (utf8Loop tables.unicodeToGb2312 utf8 len scan).j =
        scan.j + (bytesOf (text.map (Character.map replaced))).length ∧
      (utf8Loop tables.unicodeToGb2312 utf8 len scan).temp =
        scan.temp.store scan.j (bytesOf (text.map (Character.map replaced))) := by
  induction text generalizing scan with
  | nil =>
      rw [utf8Loop, if_neg (by rw [len_eq]; exact Nat.lt_irrefl _)]
      exact ⟨rfl, (Memory.store_nil _ _).symm⟩
  | cons char text induction =>
      have means_text : Means tables tGb2312Utf8 replaced text :=
        fun other other_mem => means other (List.mem_cons_of_mem _ other_mem)
      rw [List.flatMap_cons, Memory.holds_append] at held
      rw [List.flatMap_cons, List.length_append] at len_eq
      obtain ⟨first, rest⟩ := held
      -- the first character is replaced, and the others are those of the induction
      have step : scan.convert tables.unicodeToGb2312 utf8 =
          scan.advance (char.utf8 tGb2312Utf8).length (char.utf8 tGb2312Utf8).length
            (char.map replaced).bytes := by
        cases char with
        | ascii byte letter =>
            have byte_eq := (Memory.holds_cons.mp first).1
            rw [← byte_eq] at letter
            rw [convert_ascii letter.2, byte_eq]
            rfl
        | chinese char =>
            obtain ⟨isUtf8, found⟩ := means char List.mem_cons_self
            rw [convert_chinese isUtf8 first found, Character.utf8, Vector.length_toList]
            rfl
      have some := char.length_utf8_pos tGb2312Utf8
      obtain ⟨j_eq, temp_eq⟩ := @induction means_text
        (scan.advance (char.utf8 tGb2312Utf8).length (char.utf8 tGb2312Utf8).length
          (char.map replaced).bytes) rest (by rw [len_eq, Scan.advance, Nat.add_assoc])
      rw [utf8Loop, if_pos (by omega), step, j_eq, temp_eq, List.map_cons, bytesOf_cons,
        List.length_append]
      exact ⟨Nat.add_assoc _ _ _, Memory.store_store_adjacent _ _ _ _⟩

theorem zero_not_mem_utf8 (means : Means tables tGb2312Utf8 replaced text) :
    0 ∉ text.flatMap (Character.utf8 tGb2312Utf8) := by
  rw [List.mem_flatMap]
  rintro ⟨char, char_mem, nul_mem⟩
  cases char with
  | ascii byte letter => exact (Character.ascii byte letter).zero_not_mem_bytes nul_mem
  | chinese char =>
      obtain ⟨⟨first, second, third⟩, -⟩ := means char char_mem
      have zero : (0 : UInt8).toNat = 0 := rfl
      rw [Character.utf8, toList_three] at nul_mem
      simp only [List.mem_cons, List.not_mem_nil, or_false] at nul_mem
      rcases nul_mem with none | none | none <;>
        have value := congrArg UInt8.toNat none <;>
        omega

/-- The text in the buffer of `conv_utf8` after `Utf8ToGb2312` has converted it in place.  For an
empty text it returns `NULL` and leaves the buffer as it is. -/
def convertedBack (tGb2312Utf8 : ℕ → Vector UInt8 3) (unicodeToGb2312 : List (UInt16 × UInt16))
    (input : CString) (memory temp : Memory UInt8) : Memory UInt8 :=
  match convUtf8 true tGb2312Utf8 input with
  | none => memory
  | some filled =>
      let utf8 := memory.store 0 filled.out
      (utf8ToGb2312 true unicodeToGb2312 utf8 temp
        (CString.startingAt filled.out 0).strlen).elim utf8 Conversion.utf8

theorem holds_convertedBack (means : Means tables tGb2312Utf8 replaced text)
    (memory temp : Memory UInt8) :
    (convertedBack tGb2312Utf8 tables.unicodeToGb2312 (stringOf text) memory temp).Holds 0
      (bytesOf (text.map (Character.map replaced)) ++ [0]) := by
  have out_eq : convLoop tGb2312Utf8 (stringOf text).bytes =
      text.flatMap (Character.utf8 tGb2312Utf8) ++ [0] := convLoop_text text
  have letters : ∀ byte ∈ text.flatMap (Character.utf8 tGb2312Utf8), decide (byte ≠ 0) = true := by
    rintro byte byte_mem
    rw [decide_eq_true_eq]
    rintro rfl
    exact zero_not_mem_utf8 means byte_mem
  have strlen_eq :
      (CString.startingAt (text.flatMap (Character.utf8 tGb2312Utf8) ++ [0]) 0).strlen =
        (text.flatMap (Character.utf8 tGb2312Utf8)).length := by
    change (List.takeWhile (fun byte => decide (byte ≠ 0)) (_ ++ [0])).length = _
    rw [List.takeWhile_append_of_pos letters]
    simp
  have stored := Memory.holds_store memory 0 (text.flatMap (Character.utf8 tGb2312Utf8) ++ [0])
  rw [convertedBack, convUtf8, if_pos rfl, out_eq]
  simp only [strlen_eq]
  by_cases nothing : (text.flatMap (Character.utf8 tGb2312Utf8)).length ≤ 0
  · have text_nil : text = [] := by
      cases text with
      | nil => rfl
      | cons char text =>
          rw [List.flatMap_cons, List.length_append] at nothing
          have some := char.length_utf8_pos tGb2312Utf8
          omega
    subst text_nil
    rw [utf8ToGb2312, if_pos nothing]
    exact stored
  · obtain ⟨j_eq, temp_eq⟩ := @utf8Loop_text tables tGb2312Utf8 replaced text
      (memory.store 0 (text.flatMap (Character.utf8 tGb2312Utf8) ++ [0])) means
      ⟨0, 0, temp, [], []⟩ _ (Memory.holds_append.mp stored).1 (Nat.zero_add _).symm
    have written := Memory.store_store_adjacent temp 0
      (bytesOf (text.map (Character.map replaced))) [0]
    have loaded := Memory.load_store_self temp 0
      (bytesOf (text.map (Character.map replaced)) ++ [0])
    rw [List.length_append, List.length_singleton] at loaded
    rw [Nat.zero_add] at j_eq written
    rw [utf8ToGb2312, if_neg nothing, if_neg (by decide)]
    simp only [Option.elim_some, j_eq, temp_eq, written, loaded]
    exact Memory.holds_store _ 0 _

end

/-! ### The rows that are taken -/

/-- A row of `t_gb2312_utf8`, or what stands behind the table. -/
def Tables.rowAt (tables : Tables) (behind : ℕ → Vector UInt8 3) (row : ℕ) : Vector UInt8 3 :=
  tables.tGb2312Utf8[row]?.getD (behind row)

/-- A text comes back, whatever lies in memory. -/
def RoundTrips (tables : Tables) (text : List Character) : Prop :=
  ∀ (behind : ℕ → Vector UInt8 3) (memory temp : Memory UInt8),
    (convertedBack (tables.rowAt behind) tables.unicodeToGb2312 (stringOf text) memory temp).Holds 0
      ((stringOf text).bytes ++ [0])

section
variable {tables : Tables} {text : List Character}

theorem Tables.rowAt_rank (behind : ℕ → Vector UInt8 3) (char : ChineseChar) :
    IsUtf8 (tables.rowAt behind char.rank) ∧
      (UInt16.ofNat (codePoint (tables.rowAt behind char.rank)), char.code) ∈
        tables.unicodeToGb2312 := by
  obtain ⟨row, row_eq, found⟩ := tables.inverse char
  rw [rowAt, row_eq]
  exact found

theorem exists_replaced (first char : ChineseChar) (first_rank : first.rank = 0) :
    ∃ other, (char.hiBits ≤ 0xD7 → other = char) ∧ (¬char.hiBits ≤ 0xD7 → other ≠ char) ∧
      ∀ behind, (∀ row, behind row = tables.rowAt behind 0) →
        tables.rowAt behind char.index = tables.rowAt behind other.rank := by
  by_cases early : char.hiBits ≤ 0xD7
  · refine ⟨char, fun _ => rfl, fun late => absurd early late, fun behind _ => ?_⟩
    rw [ChineseChar.rank, if_pos early]
  · have rank_eq : char.rank = char.index - 5 := if_neg early
    have far : 3760 ≤ char.index := by
      have index_eq := char.index_eq
      have hi_gt := mt char.hiBits_le_iff.mpr early
      omega
    by_cases inside : char.index < 6763
    · obtain ⟨other, other_rank⟩ := ChineseChar.exists_rank_eq inside
      refine ⟨other, fun early_too => absurd early_too early, fun _ => ?_, fun behind _ => ?_⟩
      · rintro rfl
        omega
      · rw [other_rank]
    · refine ⟨first, fun early_too => absurd early_too early, fun _ => ?_, fun behind same => ?_⟩
      · rintro rfl
        omega
      · have outside : tables.tGb2312Utf8[char.index]? = none := by
          rw [List.getElem?_eq_none_iff, tables.length_eq]
          exact Nat.not_lt.mp inside
        rw [first_rank, Tables.rowAt, outside]
        exact same _

theorem length_bytesOf_map (replaced : ChineseChar → ChineseChar) (text : List Character) :
    (bytesOf (text.map (Character.map replaced))).length = (bytesOf text).length := by
  induction text with
  | nil => rfl
  | cons char text induction =>
      rw [List.map_cons, bytesOf_cons, bytesOf_cons, List.length_append, List.length_append,
        induction]
      cases char <;> rfl

theorem ChineseChar.eq_of_bytes_eq {char other : ChineseChar} (same : char.bytes = other.bytes) :
    char = other := by
  obtain ⟨hiBits, lowBit, pair, assigned⟩ := char
  simp only [bytes, List.cons.injEq, and_true] at same
  obtain ⟨rfl, rfl⟩ := same
  rfl

theorem eq_of_bytesOf_map_eq {replaced : ChineseChar → ChineseChar}
    (same : bytesOf (text.map (Character.map replaced)) = bytesOf text) :
    ∀ char, .chinese char ∈ text → replaced char = char := by
  induction text with
  | nil => exact fun _ none => absurd none List.not_mem_nil
  | cons head text induction =>
      rw [List.map_cons, bytesOf_cons, bytesOf_cons] at same
      have parts := List.append_inj same (by cases head <;> rfl)
      intro char char_mem
      rcases List.mem_cons.mp char_mem with rfl | char_mem
      · exact ChineseChar.eq_of_bytes_eq parts.1
      · exact induction parts.2 char char_mem

end

/-- A text of ASCII and GB2312 characters comes back exactly if no first byte is greater than D7. -/
theorem gb2312_round_trip_iff (tables : Tables) (text : List Character) :
    RoundTrips tables text ↔ ∀ char, .chinese char ∈ text → char.hiBits ≤ 0xD7 := by
  constructor
  · intro roundTrips char char_mem
    obtain ⟨first, first_rank⟩ := ChineseChar.exists_rank_eq (show 0 < 6763 by decide)
    choose replaced kept changed row_eq using
      fun char => @exists_replaced tables first char first_rank
    -- behind the table stands its first row once more
    obtain ⟨row, first_row, -⟩ := tables.inverse first
    rw [first_rank] at first_row
    have same : ∀ place : ℕ, row = tables.rowAt (fun _ => row) 0 := by
      intro place
      rw [Tables.rowAt, first_row, Option.getD_some]
    have means : Means tables (tables.rowAt fun _ => row) replaced text := by
      intro char _
      rw [row_eq char _ same]
      exact tables.rowAt_rank _ (replaced char)
    have back := holds_convertedBack means (fun _ => 0) (fun _ => 0)
    have original := roundTrips (fun _ => row) (fun _ => 0) (fun _ => 0)
    have length_eq : (bytesOf (text.map (Character.map replaced)) ++ [0]).length =
        ((stringOf text).bytes ++ [0]).length := by
      rw [List.length_append, List.length_append, length_bytesOf_map]
      rfl
    have bytes_eq : bytesOf (text.map (Character.map replaced)) ++ [0] =
        (stringOf text).bytes ++ [0] := by
      rw [Memory.Holds, length_eq] at back
      exact back.symm.trans original
    have unchanged := eq_of_bytesOf_map_eq (List.append_cancel_right bytes_eq)
    by_contra late
    exact changed char late (unchanged char char_mem)
  · intro early behind memory temp
    have means : Means tables (tables.rowAt behind) id text := by
      intro char char_mem
      have found := tables.rowAt_rank behind char
      rwa [ChineseChar.rank, if_pos (early char char_mem)] at found
    have back := holds_convertedBack means memory temp
    have map_id : text.map (Character.map id) = text := by
      refine List.map_id'' (fun char => ?_) text
      cases char <;> rfl
    rwa [map_id] at back

/-! ### An example -/

/-- The rows in the order of the code points from 4E00 on, but for 5345 at the row 3760. -/
def swapped (row : ℕ) : ℕ :=
  if row = 3760 then 1349 else if row = 1349 then 3760 else row

theorem swapped_swapped (row : ℕ) : swapped (swapped row) = row := by
  simp only [swapped]
  split_ifs <;> omega

theorem swapped_lt {row : ℕ} (inside : row < 6763) : swapped row < 6763 := by
  rw [swapped]
  split_ifs <;> omega

def utf8Row (point : ℕ) : Vector UInt8 3 :=
  #v[.ofNat (0xE0 + point / 4096), .ofNat (0x80 + point / 64 % 64), .ofNat (0x80 + point % 64)]

theorem toNat_utf8Row (small : point < 65536) :
    ((utf8Row point).getD 0 0).toNat = 0xE0 + point / 4096 ∧
      ((utf8Row point).getD 1 0).toNat = 0x80 + point / 64 % 64 ∧
      ((utf8Row point).getD 2 0).toNat = 0x80 + point % 64 := by
  refine ⟨UInt8.toNat_ofNat_of_lt' ?_, UInt8.toNat_ofNat_of_lt' ?_, UInt8.toNat_ofNat_of_lt' ?_⟩ <;>
    change _ < 256 <;> omega

theorem isUtf8_utf8Row (small : point < 65536) : IsUtf8 (utf8Row point) := by
  obtain ⟨first, second, third⟩ := toNat_utf8Row small
  rw [IsUtf8, first, second, third]
  omega

theorem codePoint_utf8Row (small : point < 65536) : codePoint (utf8Row point) = point := by
  obtain ⟨first, second, third⟩ := toNat_utf8Row small
  rw [codePoint, first, second, third]
  omega

/-- The code of the character of a row. -/
def codeOf (row : ℕ) : UInt16 :=
  let place := if row < 3755 then row else row + 5
  halfOfBytes (.ofNat (0xA1 + place % 94)) (.ofNat (0xB0 + place / 94))

theorem codeOf_rank : codeOf char.rank = char.code := by
  obtain ⟨⟨hi_ge, hi_le⟩, low_ge, low_le⟩ := char.pair.bounds
  have index_eq := char.index_eq
  have hi_eq : 0xB0 + char.index / 94 = char.hiBits.toNat := by omega
  have low_eq : 0xA1 + char.index % 94 = char.lowBit.toNat := by omega
  have place_eq : (if char.rank < 3755 then char.rank else char.rank + 5) = char.index := by
    by_cases early : char.hiBits ≤ 0xD7
    · have rank_eq : char.rank = char.index := if_pos early
      have inside : char.index < 3755 := by
        have hi_le := char.hiBits_le_iff.mp early
        by_cases last : char.hiBits = 0xD7
        · have low_le : char.lowBit.toNat ≤ 0xF9 :=
            UInt8.le_iff_toNat_le.mp (char.assigned last)
          omega
        · have hi_ne : char.hiBits.toNat ≠ 0xD7 := fun same => last (UInt8.toNat_inj.mp same)
          omega
      rw [rank_eq, if_pos inside]
    · have rank_eq : char.rank = char.index - 5 := if_neg early
      have hi_gt := mt char.hiBits_le_iff.mpr early
      rw [rank_eq, if_neg (by omega), Nat.sub_add_cancel (by omega)]
  simp only [codeOf]
  rw [place_eq, hi_eq, low_eq, UInt8.ofNat_toNat, UInt8.ofNat_toNat, ChineseChar.code]

/-- Tables that agree with those of the source on the row 3760: it is 5345, whose code is D8A6. -/
def exampleTables : Tables where
  tGb2312Utf8 := (List.range 6763).map fun row => utf8Row (0x4E00 + swapped row)
  unicodeToGb2312 :=
    (List.range 6763).map fun place => (.ofNat (0x4E00 + place), codeOf (swapped place))
  length_eq := by rw [List.length_map, List.length_range]
  sorted := by
    rw [SortedTable.Sorted, List.pairwise_map]
    refine List.pairwise_lt_range.imp_of_mem fun {first second} _ second_mem less => ?_
    rw [List.mem_range] at second_mem
    rw [UInt16.lt_iff_toNat_lt, UInt16.toNat_ofNat_of_lt' (by change _ < 65536; omega),
      UInt16.toNat_ofNat_of_lt' (by change _ < 65536; omega)]
    omega
  inverse char := by
    have inside := char.rank_lt
    have inside_too := swapped_lt inside
    refine ⟨utf8Row (0x4E00 + swapped char.rank), ?_, isUtf8_utf8Row (by omega), ?_⟩
    · rw [List.getElem?_map, List.getElem?_range inside]
      rfl
    · rw [codePoint_utf8Row (by omega), ← codeOf_rank]
      refine List.mem_map.mpr ⟨swapped char.rank, List.mem_range.mpr inside_too, ?_⟩
      rw [swapped_swapped]

/-- The first character with the first byte D8, and the one that takes its place. -/
def charD8A1 : ChineseChar := ⟨0xD8, 0xA1, by decide, by decide⟩

def charD8A6 : ChineseChar := ⟨0xD8, 0xA6, by decide, by decide⟩

/-- It comes back as D8A6. -/
theorem d8a1_not_round_trips : ¬RoundTrips exampleTables [.chinese charD8A1] := by
  intro roundTrips
  have original := roundTrips (fun _ => #v[0, 0, 0]) (fun _ => 0) (fun _ => 0)
  have means : Means exampleTables (exampleTables.rowAt fun _ => #v[0, 0, 0]) (fun _ => charD8A6)
      [.chinese charD8A1] := by
    intro char char_mem
    obtain rfl : char = charD8A1 := by
      simpa only [List.mem_singleton, Character.chinese.injEq] using char_mem
    have index_eq : charD8A1.index = charD8A6.rank := by decide
    rw [index_eq]
    exact exampleTables.rowAt_rank _ charD8A6
  have back := holds_convertedBack means (fun _ => 0) (fun _ => 0)
  have bytes_eq : [0xD8, 0xA6, 0] = [0xD8, 0xA1, (0 : UInt8)] := back.symm.trans original
  exact absurd bytes_eq (by decide)

end BdkFreertos.ConvUtf8
