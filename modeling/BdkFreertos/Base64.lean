import Mathlib.Data.List.Basic
import Mathlib.Tactic.IntervalCases

/-!
# The base64 codec

`base64_encode` writes four letters for three bytes, a line break behind every 72 letters, and one
of two padded groups for a rest.  `base64_decode` runs over all bytes, skips those that are neither
a letter nor the padding, gathers groups of four, and takes the padding back from what the last
group gave.
-/

namespace BdkFreertos.Base64

def code (letter : Char) : UInt8 := UInt8.ofNat letter.toNat

/-- The table `base_64_table`. -/
def base64Table : List UInt8 :=
  ['A', 'B', 'C', 'D', 'E', 'F', 'G', 'H', 'I', 'J', 'K', 'L', 'M', 'N', 'O', 'P', 'Q', 'R', 'S',
    'T', 'U', 'V', 'W', 'X', 'Y', 'Z', 'a', 'b', 'c', 'd', 'e', 'f', 'g', 'h', 'i', 'j', 'k',
    'l', 'm', 'n', 'o', 'p', 'q', 'r', 's', 't', 'u', 'v', 'w', 'x', 'y', 'z', '0', '1', '2',
    '3', '4', '5', '6', '7', '8', '9', '+', '/'].map code

def letter (index : UInt8) : UInt8 := base64Table.getD index.toNat 0

/-- What a call gives back: its result, what it stored in `*out_len`, and the bytes it stored from
`out` on. -/
structure Result where
  returned : UInt8
  outLen : Option Int32
  out : List UInt8
  deriving DecidableEq

/-! ## The encoder -/

/-- The rest of fewer than three bytes, and the last line break. -/
def encodeRest (lineLen : ℕ) : List UInt8 → List UInt8
  | [] => if lineLen ≠ 0 then [code '\n'] else []
  | [in0] =>
      [letter (in0 >>> 2), letter ((in0 &&& 0x03) <<< 4), code '=', code '=', code '\n']
  | in0 :: in1 :: _ =>
      [letter (in0 >>> 2), letter (((in0 &&& 0x03) <<< 4) ||| (in1 >>> 4)),
        letter ((in1 &&& 0x0f) <<< 2), code '=', code '\n']

/-- The loop over groups of three bytes, with the number of letters on the current line. -/
def encodeLoop (lineLen : ℕ) : List UInt8 → List UInt8
  | in0 :: in1 :: in2 :: rest =>
      let group :=
        [letter (in0 >>> 2), letter (((in0 &&& 0x03) <<< 4) ||| (in1 >>> 4)),
          letter (((in1 &&& 0x0f) <<< 2) ||| (in2 >>> 6)), letter (in2 &&& 0x3f)]
      if lineLen + 4 ≥ 72 then group ++ code '\n' :: encodeLoop 0 rest
      else group ++ encodeLoop (lineLen + 4) rest
  | rest => encodeRest lineLen rest

/-- `base64_encode` on the bytes of `src`, with `out_len` given. -/
def base64Encode (outNull : Bool) (src : List UInt8) : Result :=
  if outNull then ⟨0, none, []⟩
  else
    let written := encodeLoop 0 src
    ⟨1, some (Int32.ofNat written.length), written ++ [0]⟩

/-! ## The decoder -/

/-- The table `dtable`: the value of each letter, 0 for the padding, and 0x80 for other bytes. -/
def dtable : UInt8 → UInt8 :=
  let letters := (List.range 64).foldl
    (fun table index => Function.update table (letter (UInt8.ofNat index)) (UInt8.ofNat index))
    (fun _ => 0x80)
  Function.update letters (code '=') 0

def taken (byte : UInt8) : Bool := dtable byte ≠ 0x80

/-- The variables of the decoding loop. -/
structure Gather where
  count : ℕ
  in_ : ℕ → UInt8
  block : ℕ → UInt8
  /-- The bytes before `pos`. -/
  out : List UInt8

/-- One round of the decoding loop. -/
def decodeByte (gather : Gather) (byte : UInt8) : Gather :=
  if taken byte then
    let in_ := Function.update gather.in_ gather.count byte
    let block := Function.update gather.block gather.count (dtable byte)
    if gather.count + 1 = 4 then
      { count := 0
        in_ := in_
        block := block
        out := gather.out ++
          [(block 0 <<< 2) ||| (block 1 >>> 4), (block 1 <<< 4) ||| (block 2 >>> 2),
            (block 2 <<< 6) ||| block 3] }
    else { gather with count := gather.count + 1, in_ := in_, block := block }
  else gather

/-- How far `pos` goes back for the padding of the last group. -/
def padding (in_ : ℕ → UInt8) : ℕ :=
  if in_ 2 = code '=' then 2
  else if in_ 3 = code '=' then 1
  else 0

/-- `base64_decode` on a buffer that starts with `src`.  The loops compare an unsigned index with
`len`. -/
def base64Decode (allocated outNull : Bool) (src : List UInt8) (len : Int32) : Result :=
  if allocated = false then ⟨0, some 0, []⟩
  else
    let text := src.take len.toUInt32.toNat
    let count := text.countP taken
    if count % 4 ≠ 0 then ⟨0, none, []⟩
    else if outNull then ⟨0, some (UInt32.ofNat count * 3 / 4).toInt32, []⟩
    else
      let gather := text.foldl decodeByte ⟨0, fun _ => 0, fun _ => 0, []⟩
      let back := if gather.out ≠ [] then padding gather.in_ else 0
      ⟨1, some (Int32.ofNat (gather.out.length - back)), gather.out⟩

/-! ## One group -/

theorem letter_table : ∀ index : Fin 64,
    dtable (letter (UInt8.ofNat index)) = UInt8.ofNat index ∧
      letter (UInt8.ofNat index) ≠ code '=' := by
  decide +kernel

variable {index : UInt8} {gather : Gather} (lineLen : ℕ) (src : List UInt8)

theorem exists_index (small : index < 64) : ∃ position : Fin 64, UInt8.ofNat position = index :=
  ⟨⟨index.toNat, UInt8.lt_iff_toNat_lt.mp small⟩, UInt8.ofNat_toNat⟩

theorem dtable_letter (small : index < 64) : dtable (letter index) = index := by
  obtain ⟨position, rfl⟩ := exists_index small
  exact (letter_table position).1

theorem letter_ne_pad (small : index < 64) : letter index ≠ code '=' := by
  obtain ⟨position, rfl⟩ := exists_index small
  exact (letter_table position).2

theorem taken_letter (small : index < 64) : taken (letter index) = true := by
  rw [taken, dtable_letter small, decide_eq_true_eq]
  rintro rfl
  exact absurd small (by decide)

@[simp]
theorem taken_pad : taken (code '=') = true := by decide +kernel

@[simp]
theorem taken_break : taken (code '\n') = false := by decide +kernel

theorem eq_of_bits {left right : UInt8}
    (agree : ∀ bit < 8, left.toBitVec.getLsbD bit = right.toBitVec.getLsbD bit) :
    left = right :=
  UInt8.eq_of_toBitVec_eq (BitVec.eq_of_getLsbD_eq agree)

theorem lt_of_mask {value : UInt8} (mask : value &&& 0x3f = value) : value < 64 := by
  rw [← mask, UInt8.lt_iff_toNat_lt, UInt8.toNat_and]
  exact Nat.lt_succ_of_le Nat.and_le_right

section Bits

variable (in0 in1 in2 : UInt8)

theorem first_index : in0 >>> 2 < 64 := by
  refine lt_of_mask (eq_of_bits fun bit inside => ?_)
  simp only [UInt8.toBitVec_and, UInt8.toBitVec_shiftRight]
  interval_cases bit <;> simp

theorem second_index : ((in0 &&& 0x03) <<< 4) ||| (in1 >>> 4) < 64 := by
  refine lt_of_mask (eq_of_bits fun bit inside => ?_)
  simp only [UInt8.toBitVec_and, UInt8.toBitVec_or, UInt8.toBitVec_shiftLeft,
    UInt8.toBitVec_shiftRight]
  interval_cases bit <;> simp

theorem third_index : ((in1 &&& 0x0f) <<< 2) ||| (in2 >>> 6) < 64 := by
  refine lt_of_mask (eq_of_bits fun bit inside => ?_)
  simp only [UInt8.toBitVec_and, UInt8.toBitVec_or, UInt8.toBitVec_shiftLeft,
    UInt8.toBitVec_shiftRight]
  interval_cases bit <;> simp

theorem fourth_index : in2 &&& 0x3f < 64 := by
  refine lt_of_mask (eq_of_bits fun bit inside => ?_)
  simp only [UInt8.toBitVec_and]
  interval_cases bit <;> simp

theorem first_byte :
    ((in0 >>> 2) <<< 2) ||| ((((in0 &&& 0x03) <<< 4) ||| (in1 >>> 4)) >>> 4) = in0 := by
  apply eq_of_bits
  intro bit inside
  simp only [UInt8.toBitVec_and, UInt8.toBitVec_or, UInt8.toBitVec_shiftLeft,
    UInt8.toBitVec_shiftRight]
  interval_cases bit <;> simp

theorem second_byte :
    ((((in0 &&& 0x03) <<< 4) ||| (in1 >>> 4)) <<< 4) |||
      ((((in1 &&& 0x0f) <<< 2) ||| (in2 >>> 6)) >>> 2) = in1 := by
  apply eq_of_bits
  intro bit inside
  simp only [UInt8.toBitVec_and, UInt8.toBitVec_or, UInt8.toBitVec_shiftLeft,
    UInt8.toBitVec_shiftRight]
  interval_cases bit <;> simp

theorem third_byte :
    ((((in1 &&& 0x0f) <<< 2) ||| (in2 >>> 6)) <<< 6) ||| (in2 &&& 0x3f) = in2 := by
  apply eq_of_bits
  intro bit inside
  simp only [UInt8.toBitVec_and, UInt8.toBitVec_or, UInt8.toBitVec_shiftLeft,
    UInt8.toBitVec_shiftRight]
  interval_cases bit <;> simp

end Bits

theorem decode_group (between : gather.count = 0) {first second third fourth : UInt8}
    (first_taken : taken first = true) (second_taken : taken second = true)
    (third_taken : taken third = true) (fourth_taken : taken fourth = true) :
    let next := [first, second, third, fourth].foldl decodeByte gather
    next.count = 0 ∧ next.in_ 2 = third ∧ next.in_ 3 = fourth ∧
      next.out = gather.out ++
        [(dtable first <<< 2) ||| (dtable second >>> 4),
          (dtable second <<< 4) ||| (dtable third >>> 2),
          (dtable third <<< 6) ||| dtable fourth] := by
  obtain ⟨count, in_, block, out⟩ := gather
  subst between
  simp [decodeByte, first_taken, second_taken, third_taken, fourth_taken]

@[simp]
theorem decodeByte_break (gather : Gather) : decodeByte gather (code '\n') = gather := by
  simp [decodeByte]

/-- The decoder has gone from between two groups to behind the groups of some bytes.  What the last
group gave beyond the bytes is what its padding takes back. -/
structure Decodes (before after : Gather) (bytes : List UInt8) : Prop where
  between : after.count = 0
  unchanged : bytes = [] → after = before
  given : bytes ≠ [] → ∃ rest, after.out = before.out ++ bytes ++ rest ∧
    padding after.in_ = rest.length

section

variable (between : gather.count = 0)
include between

theorem decodes_group (in0 in1 in2 : UInt8) :
    let next := [letter (in0 >>> 2), letter (((in0 &&& 0x03) <<< 4) ||| (in1 >>> 4)),
      letter (((in1 &&& 0x0f) <<< 2) ||| (in2 >>> 6)), letter (in2 &&& 0x3f)].foldl
        decodeByte gather
    Decodes gather next [in0, in1, in2] ∧ padding next.in_ = 0 := by
  intro next
  have first := first_index in0
  have second := second_index in0 in1
  have third := third_index in1 in2
  have fourth := fourth_index in2
  obtain ⟨count_eq, third_eq, fourth_eq, out_eq⟩ :=
    decode_group between (taken_letter first) (taken_letter second) (taken_letter third)
      (taken_letter fourth)
  have unpadded : padding next.in_ = 0 := by
    rw [padding, third_eq, fourth_eq, if_neg (letter_ne_pad third), if_neg (letter_ne_pad fourth)]
  rw [dtable_letter first, dtable_letter second, dtable_letter third, dtable_letter fourth,
    first_byte, second_byte, third_byte] at out_eq
  refine ⟨⟨count_eq, fun nothing => absurd nothing (List.cons_ne_nil _ _), ?_⟩, unpadded⟩
  intro _
  exact ⟨[], by rw [out_eq, List.append_nil], unpadded⟩

theorem decodes_one (lineLen : ℕ) (in0 : UInt8) :
    Decodes gather ((encodeRest lineLen [in0]).foldl decodeByte gather) [in0] := by
  have first := first_index in0
  have second := second_index in0 0
  simp only [UInt8.zero_shiftRight, UInt8.or_zero] at second
  obtain ⟨count_eq, third_eq, -, out_eq⟩ :=
    decode_group between (taken_letter first) (taken_letter second) taken_pad taken_pad
  have step : (encodeRest lineLen [in0]).foldl decodeByte gather =
      [letter (in0 >>> 2), letter ((in0 &&& 0x03) <<< 4), code '=', code '='].foldl
        decodeByte gather := by
    simp [encodeRest]
  have byte := first_byte in0 0
  simp only [UInt8.zero_shiftRight, UInt8.or_zero] at byte
  rw [dtable_letter first, dtable_letter second, byte] at out_eq
  rw [step]
  refine ⟨count_eq, fun nothing => absurd nothing (List.cons_ne_nil _ _), ?_⟩
  intro _
  refine ⟨_, out_eq.trans (List.append_cons gather.out in0 _), ?_⟩
  rw [padding, if_pos third_eq]
  rfl

theorem decodes_two (lineLen : ℕ) (in0 in1 : UInt8) :
    Decodes gather ((encodeRest lineLen [in0, in1]).foldl decodeByte gather) [in0, in1] := by
  have first := first_index in0
  have second := second_index in0 in1
  have third := third_index in1 0
  simp only [UInt8.zero_shiftRight, UInt8.or_zero] at third
  obtain ⟨count_eq, third_eq, fourth_eq, out_eq⟩ :=
    decode_group between (taken_letter first) (taken_letter second) (taken_letter third)
      taken_pad
  have step : (encodeRest lineLen [in0, in1]).foldl decodeByte gather =
      [letter (in0 >>> 2), letter (((in0 &&& 0x03) <<< 4) ||| (in1 >>> 4)),
        letter ((in1 &&& 0x0f) <<< 2), code '='].foldl decodeByte gather := by
    simp [encodeRest]
  have byte := second_byte in0 in1 0
  simp only [UInt8.zero_shiftRight, UInt8.or_zero] at byte
  rw [dtable_letter first, dtable_letter second, dtable_letter third, first_byte, byte] at out_eq
  rw [step]
  refine ⟨count_eq, fun nothing => absurd nothing (List.cons_ne_nil _ _), ?_⟩
  intro _
  refine ⟨_, out_eq.trans (List.append_assoc gather.out [in0, in1] _).symm, ?_⟩
  rw [padding, third_eq, if_neg (letter_ne_pad third), if_pos fourth_eq]
  rfl

theorem decodes_rest (lineLen : ℕ) {rest : List UInt8} (short : rest.length < 3) :
    Decodes gather ((encodeRest lineLen rest).foldl decodeByte gather) rest := by
  match rest with
  | [] =>
      have same : (encodeRest lineLen []).foldl decodeByte gather = gather := by
        rw [encodeRest]
        split <;> simp
      rw [same]
      exact ⟨between, fun _ => rfl, fun something => absurd rfl something⟩
  | [in0] => exact decodes_one between lineLen in0
  | [in0, in1] => exact decodes_two between lineLen in0 in1

end

theorem Decodes.append {before middle after : Gather} {front back : List UInt8}
    (first : Decodes before middle front) (full : front ≠ []) (unpadded : padding middle.in_ = 0)
    (second : Decodes middle after back) : Decodes before after (front ++ back) := by
  obtain ⟨rest, middle_out, rest_length⟩ := first.given full
  have rest_nil : rest = [] := List.eq_nil_of_length_eq_zero (rest_length.symm.trans unpadded)
  subst rest_nil
  refine ⟨second.between, fun nothing => absurd (List.append_eq_nil_iff.mp nothing).1 full, ?_⟩
  intro _
  by_cases last : back = []
  · rw [second.unchanged last, last]
    exact ⟨[], by rw [middle_out, List.append_nil front], unpadded⟩
  · obtain ⟨rest, after_out, rest_length⟩ := second.given last
    refine ⟨rest, ?_, rest_length⟩
    rw [after_out, middle_out]
    simp

/-! ## The whole text -/

theorem decodes_loop {gather : Gather} (between : gather.count = 0) (lineLen : ℕ)
    (src : List UInt8) :
    Decodes gather ((encodeLoop lineLen src).foldl decodeByte gather) src := by
  induction lineLen, src using encodeLoop.induct generalizing gather with
  | case1 lineLen in0 in1 in2 rest full induction =>
      obtain ⟨group, unpadded⟩ := decodes_group between in0 in1 in2
      rw [encodeLoop, if_pos full, List.foldl_append, List.foldl_cons, decodeByte_break]
      exact group.append (List.cons_ne_nil _ _) unpadded (induction group.between)
  | case2 lineLen in0 in1 in2 rest room induction =>
      obtain ⟨group, unpadded⟩ := decodes_group between in0 in1 in2
      rw [encodeLoop, if_neg room, List.foldl_append]
      exact group.append (List.cons_ne_nil _ _) unpadded (induction group.between)
  | case3 lineLen rest short =>
      have few : rest.length < 3 := by
        match rest, short with
        | [], _ | [_], _ | [_, _], _ => simp
        | in0 :: in1 :: in2 :: rest, short => exact (short in0 in1 in2 rest rfl).elim
      rw [encodeLoop.eq_2 lineLen rest short]
      exact decodes_rest between lineLen few

theorem count_decode (text : List UInt8) {gather : Gather} (inside : gather.count < 4) :
    (text.foldl decodeByte gather).count = (gather.count + text.countP taken) % 4 := by
  induction text generalizing gather with
  | nil => exact (Nat.mod_eq_of_lt inside).symm
  | cons byte text induction =>
      rw [List.foldl_cons, List.countP_cons]
      by_cases isTaken : taken byte = true
      · rw [if_pos isTaken]
        by_cases last : gather.count + 1 = 4
        · have next : (decodeByte gather byte).count = 0 := by
            simp [decodeByte, isTaken, last]
          rw [induction (by omega), next]
          omega
        · have next : (decodeByte gather byte).count = gather.count + 1 := by
            simp [decodeByte, isTaken, last]
          rw [induction (by omega), next]
          omega
      · have next : decodeByte gather byte = gather := by
          simp [decodeByte, isTaken]
        rw [next, induction inside, if_neg isTaken, Nat.add_zero]

theorem length_encodeLoop_le : (encodeLoop lineLen src).length ≤ src.length * 5 / 3 + 5 := by
  induction lineLen, src using encodeLoop.induct with
  | case1 lineLen in0 in1 in2 rest full induction =>
      rw [encodeLoop, if_pos full]
      simp only [List.length_append, List.length_cons, List.length_nil]
      omega
  | case2 lineLen in0 in1 in2 rest room induction =>
      rw [encodeLoop, if_neg room]
      simp only [List.length_append, List.length_cons, List.length_nil]
      omega
  | case3 lineLen rest short =>
      rw [encodeLoop.eq_2 lineLen rest short]
      match rest with
      | [] => rw [encodeRest]; split <;> simp
      | [_] => simp [encodeRest]
      | _ :: _ :: _ => simp [encodeRest]

theorem base64Decode_encodeLoop {src buffer : List UInt8} {len : Int32}
    (text_eq : buffer.take len.toUInt32.toNat = encodeLoop 0 src) :
    ∃ rest, base64Decode true false buffer len =
      ⟨1, some (Int32.ofNat src.length), src ++ rest⟩ := by
  have decodes := @decodes_loop ⟨0, fun _ => 0, fun _ => 0, []⟩ rfl 0 src
  have counted := @count_decode (encodeLoop 0 src) ⟨0, fun _ => 0, fun _ => 0, []⟩ (by decide)
  rw [decodes.between, Nat.zero_add] at counted
  simp only [base64Decode, Bool.true_eq_false, if_false, text_eq, ← counted, ne_eq,
    not_true_eq_false, Bool.false_eq_true]
  by_cases nothing : src = []
  · rw [decodes.unchanged nothing, nothing]
    exact ⟨[], rfl⟩
  · obtain ⟨rest, out_eq, padding_eq⟩ := decodes.given nothing
    refine ⟨rest, ?_⟩
    rw [List.nil_append] at out_eq
    have some_out : src ++ rest ≠ [] := List.append_ne_nil_of_left_ne_nil nothing rest
    rw [out_eq, if_pos some_out, padding_eq, List.length_append, Nat.add_sub_cancel]

/-- For every string of bytes whose length fits an `int`, decoding what the encoder has stored, as
many bytes as the encoder reports, succeeds and gives exactly the string. -/
theorem base64_round_trip (src : List UInt8) (fits : src.length < 2 ^ 31) :
    ∃ encodedLen decodedLen,
      (base64Encode false src).returned = 1 ∧
      (base64Encode false src).outLen = some encodedLen ∧
      (base64Decode true false (base64Encode false src).out encodedLen).returned = 1 ∧
      (base64Decode true false (base64Encode false src).out encodedLen).outLen =
        some decodedLen ∧
      decodedLen.toInt = src.length ∧
      (base64Decode true false (base64Encode false src).out encodedLen).out.take src.length =
        src := by
  have short := length_encodeLoop_le 0 src
  have len_eq : (Int32.ofNat (encodeLoop 0 src).length).toUInt32.toNat =
      (encodeLoop 0 src).length := by
    rw [Int32.toUInt32_ofNat', UInt32.toNat_ofNat_of_lt']
    change _ < 2 ^ 32
    omega
  have text_eq : (encodeLoop 0 src ++ [0]).take
      (Int32.ofNat (encodeLoop 0 src).length).toUInt32.toNat = encodeLoop 0 src := by
    rw [len_eq, List.take_left]
  obtain ⟨rest, decoded⟩ := base64Decode_encodeLoop text_eq
  refine ⟨_, Int32.ofNat src.length, rfl, rfl, ?_⟩
  rw [base64Encode, if_neg Bool.false_ne_true, decoded]
  exact ⟨rfl, rfl, Int32.toInt_ofNat_of_lt fits, List.take_left⟩

/-- One full line and a padded group behind it. -/
theorem base64_round_trip_two_lines :
    (List.replicate 55 (77 : UInt8)).length < 2 ^ 31 ∧
      (base64Encode false (List.replicate 55 77)).outLen = some 78 ∧
      ∃ decodedLen,
        (base64Decode true false (base64Encode false (List.replicate 55 77)).out 78).outLen =
          some decodedLen ∧
        decodedLen.toInt = 55 := by
  have fits : (List.replicate 55 (77 : UInt8)).length < 2 ^ 31 := by decide
  have encoded : (base64Encode false (List.replicate 55 77)).outLen = some 78 := by decide +kernel
  obtain ⟨encodedLen, decodedLen, -, len_eq, -, decoded, exact_len, -⟩ :=
    base64_round_trip (List.replicate 55 77) fits
  have same : encodedLen = 78 := Option.some.inj (len_eq.symm.trans encoded)
  subst same
  exact ⟨fits, encoded, decodedLen, decoded, exact_len⟩

/-! ## The sizes of the buffers -/

/-- `base64_calc_encode_length`. -/
def base64CalcEncodeLength (srcLen : UInt32) : UInt32 :=
  let encLen := srcLen * 4 / 3 + 4
  let encLen := encLen + encLen / 72
  encLen + 1

def base64CalcDecodeLength (allocated : Bool) (src : List UInt8) (srcLen : UInt32) : UInt32 :=
  if allocated = false then 0
  else
    let decLen := UInt32.ofNat ((src.take srcLen.toNat).countP taken)
    if decLen % 4 ≠ 0 then 0 else decLen

theorem length_encodeLoop (aligned : lineLen % 4 = 0) (short : lineLen < 72) :
    (encodeLoop lineLen src).length =
      4 * ((src.length + 2) / 3) + (lineLen + 4 * ((src.length + 2) / 3) + 71) / 72 := by
  induction lineLen, src using encodeLoop.induct with
  | case1 lineLen in0 in1 in2 rest full induction =>
      rw [encodeLoop, if_pos full]
      simp only [List.length_append, List.length_cons, List.length_nil,
        induction rfl (by decide)]
      omega
  | case2 lineLen in0 in1 in2 rest room induction =>
      rw [encodeLoop, if_neg room]
      simp only [List.length_append, List.length_cons, List.length_nil,
        induction (by omega) (by omega)]
      omega
  | case3 lineLen rest few =>
      rw [encodeLoop.eq_2 lineLen rest few]
      match rest with
      | [] =>
          rw [encodeRest]
          split_ifs <;> simp only [List.length_cons, List.length_nil] <;> omega
      | [_] =>
          simp only [encodeRest, List.length_cons, List.length_nil]
          omega
      | [_, _] =>
          simp only [encodeRest, List.length_cons, List.length_nil]
          omega
      | in0 :: in1 :: in2 :: rest => exact (few in0 in1 in2 rest rfl).elim

theorem toNat_base64CalcEncodeLength {srcLen : UInt32} (small : 4 * srcLen.toNat < 2 ^ 32) :
    (base64CalcEncodeLength srcLen).toNat =
      srcLen.toNat * 4 / 3 + 4 + (srcLen.toNat * 4 / 3 + 4) / 72 + 1 := by
  have fits : srcLen.toNat * 4 < 2 ^ 32 := by omega
  have groups : (srcLen * 4 / 3 + 4).toNat = srcLen.toNat * 4 / 3 + 4 := by
    rw [UInt32.toNat_add, UInt32.toNat_div, UInt32.toNat_mul]
    change (srcLen.toNat * 4 % 2 ^ 32 / 3 + 4) % 2 ^ 32 = _
    rw [Nat.mod_eq_of_lt fits, Nat.mod_eq_of_lt (by omega)]
  rw [base64CalcEncodeLength, UInt32.toNat_add, UInt32.toNat_add, UInt32.toNat_div, groups]
  change ((srcLen.toNat * 4 / 3 + 4 + (srcLen.toNat * 4 / 3 + 4) / 72) % 2 ^ 32 + 1) % 2 ^ 32 = _
  rw [Nat.mod_add_mod, Nat.mod_eq_of_lt (by omega)]

theorem length_decode (text : List UInt8) {gather : Gather} (inside : gather.count < 4) :
    4 * (text.foldl decodeByte gather).out.length + 3 * (text.foldl decodeByte gather).count =
      4 * gather.out.length + 3 * (gather.count + text.countP taken) := by
  induction text generalizing gather with
  | nil => rfl
  | cons byte text induction =>
      rw [List.foldl_cons, List.countP_cons]
      by_cases isTaken : taken byte = true
      · rw [if_pos isTaken]
        by_cases last : gather.count + 1 = 4
        · have count_eq : (decodeByte gather byte).count = 0 := by
            simp [decodeByte, isTaken, last]
          have length_eq : (decodeByte gather byte).out.length = gather.out.length + 3 := by
            simp [decodeByte, isTaken, last]
          rw [induction (by omega), count_eq, length_eq]
          omega
        · have count_eq : (decodeByte gather byte).count = gather.count + 1 := by
            simp [decodeByte, isTaken, last]
          have out_eq : (decodeByte gather byte).out = gather.out := by
            simp [decodeByte, isTaken, last]
          rw [induction (by omega), count_eq, out_eq]
          omega
      · have next : decodeByte gather byte = gather := by
          simp [decodeByte, isTaken]
        rw [next, induction inside, if_neg isTaken, Nat.add_zero]

theorem length_base64Decode_le (measured allocated outNull : Bool) (src : List UInt8) (len : Int32)
    (memory : measured = false → allocated = false) :
    4 * (base64Decode allocated outNull src len).out.length ≤
      3 * (base64CalcDecodeLength measured src len.toUInt32).toNat := by
  have count_le : (src.take len.toUInt32.toNat).countP taken < 2 ^ 32 :=
    (List.countP_le_length.trans (List.length_take_le _ _)).trans_lt len.toUInt32.toNat_lt
  have count_eq : (UInt32.ofNat ((src.take len.toUInt32.toNat).countP taken)).toNat =
      (src.take len.toUInt32.toNat).countP taken := UInt32.toNat_ofNat_of_lt' count_le
  rw [base64Decode]
  split
  next => exact Nat.zero_le _
  next ready =>
    simp only
    split
    next => exact Nat.zero_le _
    next uneven =>
      split
      next => exact Nat.zero_le _
      next =>
        have loaded : ¬measured = false := fun none => ready (memory none)
        have even : ¬UInt32.ofNat ((src.take len.toUInt32.toNat).countP taken) % 4 ≠ 0 := by
          rw [← UInt32.toNat_inj.ne, UInt32.toNat_mod, count_eq]
          exact uneven
        have stored := @length_decode (src.take len.toUInt32.toNat)
          ⟨0, fun _ => 0, fun _ => 0, []⟩ (by decide)
        rw [List.length_nil, Nat.mul_zero, Nat.zero_add, Nat.zero_add] at stored
        rw [base64CalcDecodeLength, if_neg loaded, if_neg even, count_eq, ← stored]
        exact Nat.le_add_right _ _

/-- The lengths that are calculated are enough for what is written. -/
theorem base64_lengths_suffice (encodeNull decodeNull measured allocated : Bool)
    (plain text : List UInt8) (len : Int32) (small : 4 * plain.length < 2 ^ 32)
    (memory : measured = false → allocated = false) :
    (base64Encode encodeNull plain).out.length ≤
        (base64CalcEncodeLength (UInt32.ofNat plain.length)).toNat ∧
      4 * (base64Decode allocated decodeNull text len).out.length ≤
        3 * (base64CalcDecodeLength measured text len.toUInt32).toNat := by
  refine ⟨?_, length_base64Decode_le measured allocated decodeNull text len memory⟩
  have length_eq : (UInt32.ofNat plain.length).toNat = plain.length :=
    UInt32.toNat_ofNat_of_lt' (by change plain.length < 2 ^ 32; omega)
  rw [toNat_base64CalcEncodeLength (by rwa [length_eq]), length_eq, base64Encode]
  split_ifs
  · exact Nat.zero_le _
  · rw [List.length_append, length_encodeLoop 0 plain rfl (by decide), List.length_singleton]
    omega

/-- For 55 bytes the 79 bytes that are written are as many as have been calculated. -/
theorem base64_lengths_suffice_two_lines :
    (base64Encode false (List.replicate 55 77)).out.length ≤
        (base64CalcEncodeLength (UInt32.ofNat (List.replicate 55 (77 : UInt8)).length)).toNat ∧
      4 * (base64Decode true false [code 'T', code 'Q', code '=', code '='] 4).out.length ≤
        3 * (base64CalcDecodeLength true [code 'T', code 'Q', code '=', code '=']
          (4 : Int32).toUInt32).toNat :=
  base64_lengths_suffice false false true true (List.replicate 55 77) _ 4 (by decide) (by decide)

end BdkFreertos.Base64
