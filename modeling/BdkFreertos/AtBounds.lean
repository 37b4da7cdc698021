import BdkFreertos.AtInput

/-!
# Where the tokenizer reads and writes

Every access of `_atsvr_handle_input` and `_atsvc_command_handle` to the line and to `argv`, for a
line of any bytes.  The accesses to the line follow a count of the bytes taken from it; the entries
of `argv` are stored without a test, and a line that fills the buffer may leave its name without an
end.
-/

namespace BdkFreertos.AtServer

/-! ## Accesses -/

/-- An access to the line, of some bytes from a position on, or to an entry of `argv`. -/
inductive Access
  | readLine (first count : ℕ)
  | writeLine (first count : ℕ)
  | readArg (index : ℕ)
  | storeArg (index : ℕ)
  deriving DecidableEq

/-- The access lies in a line of so many bytes, or in `argv` as it is declared. -/
def Access.Inside (len : ℕ) : Access → Prop
  | .readLine first count | .writeLine first count => first + count ≤ len
  | .readArg index | .storeArg index => index < atsvrMaxArg + 1

/-- The accesses of the switch on a byte. -/
def switchAccesses (len : ℕ) (scan : Scan) (c : UInt8) : List Access :=
  if c = 0 then
    []
  else if c = equals then
    if scan.argv.length = 1 then [.writeLine scan.i 1] else []
  else if c = backslash then
    let offset := scan.offset + 1
    if offset + 1 > len then
      []
    else
      [.readLine (scan.i + 1) (len - offset + 1), .writeLine scan.i (len - offset + 1)]
  else if c = comma then
    if scan.isD = 1 ∧ scan.argv.length = 1 then
      []
    else if scan.inArg then
      [.writeLine scan.i 1]
    else
      []
  else if scan.inArg then
    []
  else
    [.storeArg scan.argv.length]

/-- The accesses of a turn of the loop. -/
def turnAccesses (len : ℕ) (scan : Scan) : List Access :=
  let scan := { scan with offset := scan.offset + 1 }
  if scan.offset > len then
    []
  else
    .readLine scan.i 1 :: switchAccesses len scan (scan.inbuf.getD scan.i 0)

/-- The accesses of the loop. -/
def loopAccesses (len : ℕ) : ℕ → Scan → List Access
  | 0, _ => []
  | left + 1, scan =>
      turnAccesses len scan ++
        match scanTurn len scan with
        | .again next => loopAccesses len left { next with i := next.i + 1 }
        | _ => []

/-- The accesses of `_atsvc_command_handle`: it reads the name to its terminator and, when it has
found the command, stores the environment behind the arguments if there is room. -/
def commandAccesses (rom : CommandRom) (env : AtsvrEnv) (scan : Scan) : List Access :=
  match scan.argv with
  | [] => []
  | name :: _ =>
      .readArg 0 :: .readLine name ((CString.startingAt scan.inbuf name).strlen + 1) ::
        match atsvcCommandHandle rom env (scan.argv.map (CString.startingAt scan.inbuf)) with
        | .called _ _ =>
            if scan.argv.length < atsvrMaxArg then [.storeArg scan.argv.length] else []
        | _ => []

/-- The variables before the loop. -/
def scanStart (inbuf : List UInt8) : Scan where
  inbuf := inbuf
  argv := []
  i := 0
  offset := 0
  inArg := false
  isD := 0
  limQ := false

/-- All accesses for a line. -/
def handleAccesses (rom : CommandRom) (env : AtsvrEnv) (inbuf : List UInt8) (len : ℕ) :
    List Access :=
  loopAccesses len atsvrInputBuffMaxSize (scanStart inbuf) ++
    match scanLoop len atsvrInputBuffMaxSize (scanStart inbuf) with
    | .refused _ | .overrun => []
    | .again scan | .finished scan => commandAccesses rom env scan

/-- A line is handled without an access outside the line and `argv`. -/
def InBounds (rom : CommandRom) (env : AtsvrEnv) (line : List UInt8) : Prop :=
  ∀ access ∈ handleAccesses rom env line line.length, access.Inside line.length

/-! ## Lines that are handled out of bounds -/

/-- The bytes of a line up to its first terminator, without the backslashes and the bytes they
escape. -/
def unescaped : List UInt8 → List UInt8
  | [] => []
  | c :: rest =>
      if c = 0 then
        []
      else if c = backslash then
        match rest with
        | [] => []
        | _ :: rest => unescaped rest
      else
        c :: unescaped rest

def isPlain (c : UInt8) : Bool := !isSpecial c

/-- How many of the fields between commas have a plain byte. -/
def plainFields (bytes : List UInt8) : ℕ :=
  (bytes.splitOn comma).countP fun field => field.any isPlain

def fromName (bytes : List UInt8) : List UInt8 := bytes.dropWhile (· = comma)

/-- What follows the name and the commas and equals signs behind it. -/
def fromArguments (bytes : List UInt8) : List UInt8 :=
  (((fromName bytes).dropWhile isPlain).dropWhile (· = comma)).dropWhile (· = equals)

def StartsPlain (bytes : List UInt8) : Prop :=
  ∃ c rest, bytes = c :: rest ∧ isPlain c = true

/-- The line names a command and gives it more arguments than `argv` has room for behind the
name. -/
structure TooManyArguments (line : List UInt8) : Prop where
  name : StartsPlain (fromName (unescaped line))
  arguments : StartsPlain (fromArguments (unescaped line))
  many : atsvrMaxArg < plainFields (fromArguments (unescaped line))

/-- Behind commas the bytes are plain ones, at least one. -/
structure OnlyName (bytes : List UInt8) : Prop where
  name : fromName bytes ≠ []
  plain : ∀ c ∈ fromName bytes, c ≠ 0 ∧ isPlain c = true

/-- The line fills the buffer with a name that does not end. -/
structure EndlessName (line : List UInt8) : Prop extends OnlyName line where
  fills : line.length = atsvrInputBuffMaxSize

/-! ## Counting arguments -/

/-- Whether an argument too many starts in bytes that are not escaped, when some have started
before; `isD` tells that the name has ended at an equals sign and no argument has started yet. -/
def spills : ℕ → Bool → Bool → List UInt8 → Bool
  | _, _, _, [] => false
  | argc, inArg, isD, c :: rest =>
      if c = equals then
        if argc = 1 then
          spills 1 false true rest
        else if argc = 0 then
          false
        else
          spills argc inArg isD rest
      else if c = comma then
        if isD = true ∧ argc = 1 then
          false
        else
          spills argc false isD rest
      else if inArg then
        spills argc true isD rest
      else if argc < atsvrMaxArg + 1 then
        spills (argc + 1) true false rest
      else
        true

/-- The fields with a plain byte, counted as they start; `started` tells that the first one has. -/
def countFields : Bool → List UInt8 → ℕ
  | _, [] => 0
  | started, c :: rest =>
      if c = comma then
        countFields false rest
      else if isPlain c = true ∧ started = false then
        countFields true rest + 1
      else
        countFields started rest

theorem countFields_eq (started : Bool) (bytes : List UInt8) :
    ∃ field fields, bytes.splitOn comma = field :: fields ∧
      countFields started bytes =
        fields.countP (fun field => field.any isPlain) +
          if started = false ∧ field.any isPlain = true then 1 else 0 := by
  induction bytes generalizing started with
  | nil => exact ⟨[], [], rfl, by simp [countFields]⟩
  | cons c rest induction =>
      have split : (c :: rest).splitOn comma =
          if c == comma then [] :: rest.splitOn comma
          else (rest.splitOn comma).modifyHead (List.cons c) :=
        List.splitOnP_cons_eq_if_modifyHead c rest
      rw [split, countFields]
      by_cases is_comma : c = comma
      · obtain ⟨field, fields, fields_eq, counted⟩ := induction false
        rw [if_pos (by simpa using is_comma), if_pos is_comma]
        refine ⟨[], rest.splitOn comma, rfl, ?_⟩
        rw [counted, fields_eq, List.countP_cons]
        simp
      · rw [if_neg (by simpa using is_comma), if_neg is_comma]
        by_cases starts : isPlain c = true ∧ started = false
        · obtain ⟨field, fields, fields_eq, counted⟩ := induction true
          rw [if_pos starts]
          refine ⟨c :: field, fields, by rw [fields_eq]; rfl, ?_⟩
          rw [counted]
          simp [starts]
        · obtain ⟨field, fields, fields_eq, counted⟩ := induction started
          rw [if_neg starts]
          refine ⟨c :: field, fields, by rw [fields_eq]; rfl, ?_⟩
          rw [counted]
          cases started with
          | true => simp
          | false =>
              have special : isPlain c = false := by simpa using starts
              simp [special]

theorem plainFields_eq (bytes : List UInt8) : plainFields bytes = countFields false bytes := by
  obtain ⟨field, fields, fields_eq, counted⟩ := countFields_eq false bytes
  rw [plainFields, fields_eq, List.countP_cons, counted]
  simp

theorem isPlain_of_ne {c : UInt8} (not_equals : c ≠ equals) (not_backslash : c ≠ backslash)
    (not_comma : c ≠ comma) : isPlain c = true := by
  simp [isPlain, isSpecial, not_equals, not_backslash, not_comma]

theorem not_isPlain_equals : isPlain equals = false := rfl

theorem not_isPlain_comma : isPlain comma = false := rfl

variable {bytes rest : List UInt8} {len : ℕ} {scan final : Scan}

theorem StartsPlain.cons_iff {c : UInt8} : StartsPlain (c :: rest) ↔ isPlain c = true := by
  constructor
  · rintro ⟨first, others, same, plain⟩
    rw [(List.cons.inj same).1]
    exact plain
  · exact fun plain => ⟨c, rest, rfl, plain⟩

theorem not_startsPlain_nil : ¬StartsPlain [] := nofun

/-- A row of arguments that begins here is one too many for `argv`. -/
def Crowded (args : List UInt8) : Prop :=
  StartsPlain args ∧ atsvrMaxArg < plainFields args

theorem spills_later {argc : ℕ} (several : 2 ≤ argc) (bounded : argc ≤ atsvrMaxArg + 1)
    (inArg isD : Bool) (unescaped : backslash ∉ bytes) :
    spills argc inArg isD bytes = true ↔ atsvrMaxArg + 1 < argc + countFields inArg bytes := by
  induction bytes generalizing argc inArg isD with
  | nil =>
      simp only [spills, countFields]
      simpa using bounded
  | cons c rest induction =>
      obtain ⟨not_backslash, unescaped_rest⟩ := List.ne_and_not_mem_of_not_mem_cons unescaped
      rw [spills, countFields]
      by_cases is_equals : c = equals
      · have not_comma : c ≠ comma := by
          rw [is_equals]
          exact comma_ne_equals.symm
        rw [if_pos is_equals, if_neg (by omega), if_neg (by omega), if_neg not_comma,
          is_equals, not_isPlain_equals, if_neg (by simp)]
        exact induction several bounded inArg isD unescaped_rest
      · by_cases is_comma : c = comma
        · rw [if_neg is_equals, if_pos is_comma, if_neg (by omega), if_pos is_comma]
          exact induction several bounded false isD unescaped_rest
        · have plain := isPlain_of_ne is_equals not_backslash.symm is_comma
          rw [if_neg is_equals, if_neg is_comma, if_neg is_comma, plain]
          cases inArg with
          | true => simpa using induction several bounded true isD unescaped_rest
          | false =>
              by_cases room : argc < atsvrMaxArg + 1
              · simp only [Bool.false_eq_true, if_false, room, if_true, and_self]
                rw [induction (by omega) (by omega) true false unescaped_rest]
                omega
              · simp only [Bool.false_eq_true, if_false, room, and_self, if_true, true_iff]
                omega

section

variable (unescaped : backslash ∉ bytes)
include unescaped

theorem spills_equals :
    spills 1 false true bytes = true ↔ Crowded (bytes.dropWhile (· = equals)) := by
  induction bytes with
  | nil => simp [spills, Crowded, not_startsPlain_nil]
  | cons c rest induction =>
      obtain ⟨not_backslash, unescaped_rest⟩ := List.ne_and_not_mem_of_not_mem_cons unescaped
      by_cases is_equals : c = equals
      · subst is_equals
        rw [spills, if_pos rfl, if_pos rfl, List.dropWhile_cons, if_pos (by simp)]
        exact induction unescaped_rest
      · have begins : (c :: rest).dropWhile (· = equals) = c :: rest := by
          simp [is_equals]
        rw [spills, begins, if_neg is_equals, Crowded, StartsPlain.cons_iff]
        by_cases is_comma : c = comma
        · simp [is_comma, not_isPlain_comma]
        · have plain := isPlain_of_ne is_equals not_backslash.symm is_comma
          rw [if_neg is_comma, if_neg Bool.false_ne_true, if_pos (by decide),
            spills_later (by decide) (by decide) true false unescaped_rest, plainFields_eq,
            countFields, if_neg is_comma, if_pos ⟨plain, rfl⟩, plain]
          simp only [true_and]
          omega

theorem spills_comma :
    spills 1 false false bytes = true ↔
      Crowded ((bytes.dropWhile (· = comma)).dropWhile (· = equals)) := by
  induction bytes with
  | nil => simp [spills, Crowded, not_startsPlain_nil]
  | cons c rest induction =>
      obtain ⟨not_backslash, unescaped_rest⟩ := List.ne_and_not_mem_of_not_mem_cons unescaped
      by_cases is_comma : c = comma
      · subst is_comma
        rw [spills, if_neg comma_ne_equals, if_pos rfl, if_neg (by simp), List.dropWhile_cons,
          if_pos (by simp)]
        exact induction unescaped_rest
      · rw [List.dropWhile_cons, if_neg (by simpa using is_comma)]
        by_cases is_equals : c = equals
        · subst is_equals
          rw [spills, if_pos rfl, if_pos rfl, List.dropWhile_cons, if_pos (by simp)]
          exact spills_equals unescaped_rest
        · -- an argument starts as it does behind an equals sign
          have same : spills 1 false false (c :: rest) = spills 1 false true (c :: rest) := by
            simp [spills, is_equals, is_comma]
          rw [same]
          exact spills_equals unescaped

theorem spills_name :
    spills 1 true false bytes = true ↔
      Crowded (((bytes.dropWhile isPlain).dropWhile (· = comma)).dropWhile (· = equals)) := by
  induction bytes with
  | nil => simp [spills, Crowded, not_startsPlain_nil]
  | cons c rest induction =>
      obtain ⟨not_backslash, unescaped_rest⟩ := List.ne_and_not_mem_of_not_mem_cons unescaped
      by_cases plain : isPlain c = true
      · have not_equals : c ≠ equals := by
          rintro rfl
          exact Bool.false_ne_true plain
        have not_comma : c ≠ comma := by
          rintro rfl
          exact Bool.false_ne_true plain
        rw [spills, if_neg not_equals, if_neg not_comma, if_pos rfl, List.dropWhile_cons,
          if_pos plain]
        exact induction unescaped_rest
      · -- the name ends, and what follows is read as behind a comma
        rw [List.dropWhile_cons, if_neg plain, ← spills_comma unescaped]
        by_cases is_equals : c = equals
        · simp [spills, is_equals]
        · have is_comma : c = comma := by
            by_contra not_comma
            exact plain (isPlain_of_ne is_equals not_backslash.symm not_comma)
          simp [spills, is_comma, comma_ne_equals]

theorem spills_start :
    spills 0 false false bytes = true ↔
      StartsPlain (fromName bytes) ∧ Crowded (fromArguments bytes) := by
  induction bytes with
  | nil => simp [spills, fromName, not_startsPlain_nil]
  | cons c rest induction =>
      obtain ⟨not_backslash, unescaped_rest⟩ := List.ne_and_not_mem_of_not_mem_cons unescaped
      by_cases is_comma : c = comma
      · subst is_comma
        have skipped : fromName (comma :: rest) = fromName rest := by
          simp [fromName]
        rw [spills, if_neg comma_ne_equals, if_pos rfl, if_neg (by simp), fromArguments, skipped,
          induction unescaped_rest, fromArguments]
      · have begins : fromName (c :: rest) = c :: rest := by
          simp [fromName, is_comma]
        rw [fromArguments, begins, StartsPlain.cons_iff]
        by_cases is_equals : c = equals
        · simp [spills, is_equals, not_isPlain_equals]
        · have plain := isPlain_of_ne is_equals not_backslash.symm is_comma
          rw [spills, if_neg is_equals, if_neg is_comma, if_neg Bool.false_ne_true,
            if_pos (by decide), Nat.zero_add, spills_name unescaped_rest, List.dropWhile_cons,
            if_pos plain, plain]
          simp

end

theorem backslash_not_mem_unescaped (bytes : List UInt8) : backslash ∉ unescaped bytes := by
  fun_induction unescaped bytes with
  | case1 | case2 | case3 => exact List.not_mem_nil
  | case4 _ _ _ induction => exact induction
  | case5 c rest _ not_backslash induction =>
      exact List.not_mem_cons_of_ne_of_not_mem (Ne.symm not_backslash) induction

theorem spills_unescaped_iff (line : List UInt8) :
    spills 0 false false (unescaped line) = true ↔ TooManyArguments line := by
  rw [spills_start (backslash_not_mem_unescaped line)]
  constructor
  · rintro ⟨name, arguments, many⟩
    exact ⟨name, arguments, many⟩
  · rintro ⟨name, arguments, many⟩
    exact ⟨name, arguments, many⟩

/-! ## The loop over any bytes -/

/-- The loop stands before the bytes of the line that it has not taken yet. -/
structure Before (len : ℕ) (scan : Scan) (rest : List UInt8) : Prop where
  buffer : ∃ done stale, scan.inbuf = done ++ (rest ++ stale) ∧ done.length = scan.i
  length : scan.inbuf.length = len
  consumed : scan.offset + rest.length = len
  behind : scan.i ≤ scan.offset

/-- What a turn that goes on does on a byte: it passes over it, ends the argument being read, drops
a backslash with the byte it escapes, or starts an argument. -/
inductive Step (len : ℕ) (scan : Scan) (c : UInt8) : Scan → Prop
  | pass (nonzero : c ≠ 0) (not_backslash : c ≠ backslash)
      (quiet : c = equals ∧ 2 ≤ scan.argv.length ∨ c = comma ∧ scan.inArg = false ∨
        isPlain c = true ∧ scan.inArg = true) :
      Step len scan c { scan with offset := scan.offset + 1 }
  | close (isD : ℕ) (limQ : Bool)
      (ends : c = equals ∧ scan.argv.length = 1 ∨ c = comma ∧ scan.inArg = true) :
      Step len scan c
        { scan with
          offset := scan.offset + 1
          inbuf := scan.inbuf.set scan.i 0
          inArg := false
          isD := isD
          limQ := limQ }
  | escape (is_backslash : c = backslash) (enough : scan.offset + 3 ≤ len) :
      Step len scan c
        { scan with
          offset := scan.offset + 1 + 1
          inbuf := memmoveDown scan.inbuf scan.i (len - (scan.offset + 1 + 1) + 1) }
  | start (isD : ℕ) (limQ : Bool) (nonzero : c ≠ 0) (plain : isPlain c = true)
      (idle : scan.inArg = false) (room : scan.argv.length < atsvrMaxArg + 1) :
      Step len scan c
        { scan with
          offset := scan.offset + 1
          inArg := true
          argv := scan.argv ++ [scan.i]
          limQ := limQ
          isD := isD }

theorem Step.i_eq {next : Scan} {c : UInt8} (step : Step len scan c next) : next.i = scan.i := by
  cases step <;> rfl

def afterTurn (c : UInt8) (rest : List UInt8) : List UInt8 :=
  if c = backslash then rest.tail else rest

namespace Before

variable {len : ℕ} {scan : Scan} {c : UInt8} {rest : List UInt8}

theorem room (before : Before len scan rest) : scan.i + rest.length ≤ len := by
  have consumed := before.consumed
  have behind := before.behind
  omega

theorem getElem?_eq (before : Before len scan (c :: rest)) : scan.inbuf[scan.i]? = some c := by
  obtain ⟨done, stale, inbuf_eq, position⟩ := before.buffer
  rw [inbuf_eq, ← position]
  simp

theorem getD_eq (before : Before len scan (c :: rest)) : scan.inbuf.getD scan.i 0 = c := by
  rw [List.getD_eq_getElem?_getD, before.getElem?_eq, Option.getD_some]

theorem scanTurn_nil (before : Before len scan []) : scanTurn len scan = .refused 7 := by
  have consumed := before.consumed
  rw [List.length_nil] at consumed
  rw [scanTurn]
  dsimp only
  rw [if_pos (by omega)]

theorem scanTurn_cons (before : Before len scan (c :: rest)) :
    scanTurn len scan = scanSwitch len { scan with offset := scan.offset + 1 } c := by
  have consumed := before.consumed
  rw [List.length_cons] at consumed
  rw [scanTurn]
  dsimp only
  rw [if_neg (by omega), before.getD_eq]

theorem turnAccesses_nil (before : Before len scan []) : turnAccesses len scan = [] := by
  have consumed := before.consumed
  rw [List.length_nil] at consumed
  rw [turnAccesses]
  dsimp only
  rw [if_pos (by omega)]

section

variable (before : Before len scan (c :: rest))
include before

theorem turnAccesses_cons :
    turnAccesses len scan =
      .readLine scan.i 1 :: switchAccesses len { scan with offset := scan.offset + 1 } c := by
  have consumed := before.consumed
  rw [List.length_cons] at consumed
  rw [turnAccesses]
  dsimp only
  rw [if_neg (by omega), before.getD_eq]

theorem advance {next : Scan} {final : UInt8} (buffer : next.inbuf = scan.inbuf.set scan.i final)
    (position : next.i = scan.i + 1) (offset : next.offset = scan.offset + 1) :
    Before len next rest where
  buffer := by
    obtain ⟨done, stale, inbuf_eq, done_length⟩ := before.buffer
    refine ⟨done ++ [final], stale, ?_, by simp [done_length, position]⟩
    rw [buffer, inbuf_eq, ← done_length, List.set_append_right _ _ (le_refl _)]
    simp
  length := by rw [buffer, List.length_set, before.length]
  consumed := by
    have consumed := before.consumed
    rw [List.length_cons] at consumed
    omega
  behind := by
    have behind := before.behind
    omega

theorem set_self : scan.inbuf = scan.inbuf.set scan.i c := by
  obtain ⟨done, stale, inbuf_eq, done_length⟩ := before.buffer
  rw [inbuf_eq, ← done_length, List.set_append_right _ _ (le_refl _)]
  simp

end

theorem escape {escaped : UInt8} (before : Before len scan (c :: escaped :: rest)) :
    Before len
      { scan with
        offset := scan.offset + 1 + 1
        inbuf := memmoveDown scan.inbuf scan.i (len - (scan.offset + 1 + 1) + 1)
        i := scan.i + 1 }
      rest := by
  obtain ⟨done, stale, inbuf_eq, done_length⟩ := before.buffer
  have consumed := before.consumed
  have behind := before.behind
  simp only [List.length_cons] at consumed
  have count_eq : len - (scan.offset + 1 + 1) + 1 = (escaped :: rest).length := by
    rw [List.length_cons]
    omega
  have taken : scan.inbuf.take scan.i = done := by
    rw [inbuf_eq, ← done_length, List.take_left']
    rfl
  have moved : (scan.inbuf.drop (scan.i + 1)).take (escaped :: rest).length =
      escaped :: rest := by
    rw [inbuf_eq, ← done_length, List.drop_append, List.drop_eq_nil_of_le (by omega),
      Nat.add_sub_cancel_left]
    simp
  have total := before.length
  refine ⟨⟨done ++ [escaped], scan.inbuf.drop (scan.i + (escaped :: rest).length), ?_, ?_⟩, ?_, ?_,
    ?_⟩
  · dsimp only
    rw [count_eq, memmoveDown, taken, moved]
    simp
  · simp [done_length]
  · dsimp only
    rw [count_eq, memmoveDown, taken, moved, List.length_append, List.length_append,
      List.length_drop, total, done_length, List.length_cons]
    omega
  · dsimp only
    omega
  · dsimp only
    omega

theorem step_of_again {next : Scan} (before : Before len scan (c :: rest))
    (again : scanTurn len scan = .again next) : Step len scan c next := by
  rw [before.scanTurn_cons, scanSwitch] at again
  by_cases nul : c = 0
  · rw [if_pos nul] at again
    split at again <;> cases again
  rw [if_neg nul] at again
  by_cases is_equals : c = equals
  · rw [if_pos is_equals] at again
    split at again
    · rename_i one
      obtain rfl := Turn.again.inj again
      exact .close 1 scan.limQ (Or.inl ⟨is_equals, one⟩)
    · rename_i several
      split at again
      · cases again
      · rename_i some_yet
        obtain rfl := Turn.again.inj again
        exact .pass nul (by rw [is_equals]; exact backslash_ne_equals.symm)
          (Or.inl ⟨is_equals, by dsimp only at several some_yet; omega⟩)
  rw [if_neg is_equals] at again
  by_cases is_backslash : c = backslash
  · rw [if_pos is_backslash] at again
    dsimp only at again
    split at again
    · cases again
    · rename_i enough
      obtain rfl := Turn.again.inj again
      exact .escape is_backslash (by omega)
  rw [if_neg is_backslash] at again
  by_cases is_comma : c = comma
  · rw [if_pos is_comma] at again
    split at again
    · cases again
    · split at again
      · rename_i reading
        obtain rfl := Turn.again.inj again
        exact .close scan.isD true (Or.inr ⟨is_comma, reading⟩)
      · rename_i idle
        obtain rfl := Turn.again.inj again
        exact .pass nul is_backslash (Or.inr (Or.inl ⟨is_comma, Bool.eq_false_iff.mpr idle⟩))
  rw [if_neg is_comma] at again
  have plain := isPlain_of_ne is_equals is_backslash is_comma
  split at again
  · rename_i reading
    obtain rfl := Turn.again.inj again
    exact .pass nul is_backslash (Or.inr (Or.inr ⟨plain, reading⟩))
  · rename_i idle
    split at again
    · rename_i room
      obtain rfl := Turn.again.inj again
      exact .start _ false nul plain (Bool.eq_false_iff.mpr idle) room
    · cases again

theorem next {next : Scan} (before : Before len scan (c :: rest)) (step : Step len scan c next) :
    Before len { next with i := next.i + 1 } (afterTurn c rest) := by
  cases step with
  | pass _ not_backslash _ =>
      rw [afterTurn, if_neg not_backslash]
      exact before.advance before.set_self rfl rfl
  | close isD limQ ends =>
      have not_backslash : c ≠ backslash := by
        rcases ends with ⟨rfl, -⟩ | ⟨rfl, -⟩
        · exact backslash_ne_equals.symm
        · exact comma_ne_backslash
      rw [afterTurn, if_neg not_backslash]
      exact before.advance rfl rfl rfl
  | escape is_backslash enough =>
      rw [afterTurn, if_pos is_backslash]
      have consumed := before.consumed
      cases rest with
      | nil =>
          rw [List.length_singleton] at consumed
          omega
      | cons escaped rest => exact before.escape
  | start isD limQ _ plain _ _ =>
      have not_backslash : c ≠ backslash := by
        rintro rfl
        exact Bool.false_ne_true plain
      rw [afterTurn, if_neg not_backslash]
      exact before.advance before.set_self rfl rfl

theorem switch_inside (inside : scan.i + 1 ≤ len) (behind : scan.i + 1 ≤ scan.offset) :
    (∀ access ∈ switchAccesses len scan c, access.Inside len) ↔
      scanSwitch len scan c ≠ .overrun := by
  rw [switchAccesses, scanSwitch]
  by_cases nul : c = 0
  · rw [if_pos nul, if_pos nul]
    split <;> simp
  rw [if_neg nul, if_neg nul]
  by_cases is_equals : c = equals
  · rw [if_pos is_equals, if_pos is_equals]
    split
    · simpa [Access.Inside] using inside
    · split <;> simp
  rw [if_neg is_equals, if_neg is_equals]
  by_cases is_backslash : c = backslash
  · rw [if_pos is_backslash, if_pos is_backslash]
    dsimp only
    split
    · simp
    · simp [Access.Inside]
      omega
  rw [if_neg is_backslash, if_neg is_backslash]
  by_cases is_comma : c = comma
  · rw [if_pos is_comma, if_pos is_comma]
    split
    · simp
    · split
      · simpa [Access.Inside] using inside
      · simp
  rw [if_neg is_comma, if_neg is_comma]
  split
  · simp
  · split
    · rename_i room
      simpa [Access.Inside] using room
    · rename_i full
      simpa [Access.Inside] using full

theorem turn_inside (before : Before len scan (c :: rest)) :
    (∀ access ∈ turnAccesses len scan, access.Inside len) ↔ scanTurn len scan ≠ .overrun := by
  have consumed := before.consumed
  have behind := before.behind
  rw [List.length_cons] at consumed
  have first : (Access.readLine scan.i 1).Inside len := by
    rw [Access.Inside]
    omega
  rw [before.turnAccesses_cons, before.scanTurn_cons, List.forall_mem_cons, and_iff_right first]
  exact switch_inside (by dsimp only; omega) (by dsimp only; omega)

theorem loop_inside {left : ℕ} (before : Before len scan rest) :
    (∀ access ∈ loopAccesses len left scan, access.Inside len) ↔
      scanLoop len left scan ≠ .overrun := by
  induction left generalizing scan rest with
  | zero => simp [loopAccesses, scanLoop]
  | succ left induction =>
      rw [loopAccesses, scanLoop, List.forall_mem_append]
      cases rest with
      | nil => simp [before.turnAccesses_nil, before.scanTurn_nil]
      | cons c rest =>
          rw [before.turn_inside]
          cases turn : scanTurn len scan with
          | again next =>
              simpa using induction (before.next (before.step_of_again turn))
          | finished scan => simp
          | refused code => simp
          | overrun => simp

theorem exists_turn {left : ℕ} (before : Before len scan (c :: rest))
    (fits : len ≤ atsvrInputBuffMaxSize) (room : left + scan.i = atsvrInputBuffMaxSize) :
    ∃ fewer, left = fewer + 1 ∧ fewer + (scan.i + 1) = atsvrInputBuffMaxSize := by
  have within := before.room
  rw [List.length_cons] at within
  exact ⟨left - 1, by omega, by omega⟩

/-- The loop stores behind `argv` exactly if too many arguments start in the bytes that are not
escaped. -/
theorem scanLoop_eq_overrun_iff {left : ℕ} (before : Before len scan rest)
    (fits : len ≤ atsvrInputBuffMaxSize) (room : left + scan.i = atsvrInputBuffMaxSize) :
    scanLoop len left scan = .overrun ↔
      spills scan.argv.length scan.inArg (decide (scan.isD = 1)) (unescaped rest) = true := by
  fun_induction unescaped rest generalizing scan left with
  | case1 =>
      cases left with
      | zero => simp [scanLoop, spills]
      | succ left => simp [scanLoop, before.scanTurn_nil, spills]
  | case2 rest =>
      obtain ⟨fewer, rfl, -⟩ := before.exists_turn fits room
      rw [scanLoop, before.scanTurn_cons, scanSwitch, if_pos rfl, spills]
      split_ifs <;> simp
  | case3 nonzero =>
      obtain ⟨fewer, rfl, -⟩ := before.exists_turn fits room
      have consumed := before.consumed
      rw [List.length_singleton] at consumed
      rw [scanLoop, before.scanTurn_cons, scanSwitch, if_neg nonzero,
        if_neg backslash_ne_equals, if_pos rfl]
      dsimp only
      rw [if_pos (by omega), spills]
      simp
  | case4 escaped rest nonzero induction =>
      obtain ⟨fewer, rfl, room_next⟩ := before.exists_turn fits room
      have consumed := before.consumed
      simp only [List.length_cons] at consumed
      rw [scanLoop, before.scanTurn_cons, scanSwitch, if_neg nonzero,
        if_neg backslash_ne_equals, if_pos rfl]
      dsimp only
      by_cases last : rest = []
      · subst last
        rw [List.length_nil] at consumed
        rw [if_pos (by omega), unescaped, spills]
        simp
      · have more := List.length_pos_of_ne_nil last
        rw [if_neg (by omega)]
        exact induction before.escape room_next
  | case5 c rest nonzero not_backslash induction =>
      obtain ⟨fewer, rfl, room_next⟩ := before.exists_turn fits room
      have onward : ∀ next : Scan, Before len { next with i := next.i + 1 } rest →
          next.i = scan.i →
            (scanLoop len fewer { next with i := next.i + 1 } = .overrun ↔
              spills next.argv.length next.inArg (decide (next.isD = 1)) (unescaped rest) =
                true) := by
        intro next before_next same
        exact induction before_next (by dsimp only; omega)
      rw [scanLoop, before.scanTurn_cons, scanSwitch, if_neg nonzero, spills]
      by_cases is_equals : c = equals
      · rw [if_pos is_equals, if_pos is_equals]
        by_cases one : scan.argv.length = 1
        · rw [if_pos one, if_pos one]
          have goes_on := onward
            { scan with
              offset := scan.offset + 1
              inbuf := scan.inbuf.set scan.i 0
              inArg := false
              isD := 1 } (before.advance rfl rfl rfl) rfl
          rw [one] at goes_on
          exact goes_on
        · rw [if_neg one, if_neg one]
          by_cases none_yet : scan.argv.length = 0
          · simp [none_yet]
          · rw [if_neg none_yet, if_neg none_yet]
            exact onward { scan with offset := scan.offset + 1 }
              (before.advance before.set_self rfl rfl) rfl
      rw [if_neg is_equals, if_neg is_equals, if_neg not_backslash]
      by_cases is_comma : c = comma
      · rw [if_pos is_comma, if_pos is_comma]
        by_cases first : scan.isD = 1 ∧ scan.argv.length = 1
        · simp [first]
        · have not_first : ¬(decide (scan.isD = 1) = true ∧ scan.argv.length = 1) := by
            rwa [decide_eq_true_eq]
          rw [if_neg first, if_neg not_first]
          by_cases reading : scan.inArg = true
          · rw [if_pos reading]
            exact onward
              { scan with
                offset := scan.offset + 1
                inArg := false
                inbuf := scan.inbuf.set scan.i 0
                limQ := true } (before.advance rfl rfl rfl) rfl
          · have idle : scan.inArg = false := Bool.eq_false_iff.mpr reading
            rw [if_neg reading, ← idle]
            exact onward { scan with offset := scan.offset + 1 }
              (before.advance before.set_self rfl rfl) rfl
      rw [if_neg is_comma, if_neg is_comma]
      by_cases reading : scan.inArg = true
      · have same := congrArg
          (fun inArg => spills scan.argv.length inArg (decide (scan.isD = 1)) (unescaped rest))
          reading.symm
        rw [if_pos reading, if_pos reading, same]
        exact onward { scan with offset := scan.offset + 1 }
          (before.advance before.set_self rfl rfl) rfl
      · rw [if_neg reading, if_neg reading]
        by_cases slot : scan.argv.length < atsvrMaxArg + 1
        · rw [if_pos slot, if_pos slot]
          have goes_on := onward
            { scan with
              offset := scan.offset + 1
              inArg := true
              argv := scan.argv ++ [scan.i]
              limQ := false
              isD := if scan.isD = 1 then 2 else scan.isD }
            (before.advance before.set_self rfl rfl) rfl
          have ended : ¬(if scan.isD = 1 then 2 else scan.isD) = 1 := by
            split_ifs with first
            · decide
            · exact first
          rw [List.length_append, List.length_singleton, decide_eq_false ended] at goes_on
          exact goes_on
        · simp [slot]

end Before

/-! ## The end of the name -/

theorem onlyName_snoc {c : UInt8} (onlyName : OnlyName bytes) (nonzero : c ≠ 0)
    (plain : isPlain c = true) : OnlyName (bytes ++ [c]) := by
  have nonempty : ¬(bytes.dropWhile (· = comma)).isEmpty = true := by
    rw [List.isEmpty_iff]
    exact onlyName.name
  have begins : fromName (bytes ++ [c]) = fromName bytes ++ [c] := by
    rw [fromName, List.dropWhile_append, if_neg nonempty]
    rfl
  refine ⟨by simp [begins], fun byte member => ?_⟩
  rw [begins] at member
  rcases List.mem_append.mp member with earlier | last
  · exact onlyName.plain byte earlier
  · rw [List.mem_singleton.mp last]
    exact ⟨nonzero, plain⟩

theorem onlyName_of_commas {c : UInt8} (commas : ∀ byte ∈ bytes, byte = comma) (nonzero : c ≠ 0)
    (plain : isPlain c = true) : OnlyName (bytes ++ [c]) := by
  have not_comma : c ≠ comma := by
    rintro rfl
    exact Bool.false_ne_true plain
  have skipped : bytes.dropWhile (· = comma) = [] := by
    rw [List.dropWhile_eq_nil_iff]
    simpa using commas
  have begins : fromName (bytes ++ [c]) = [c] := by
    simp [fromName, List.dropWhile_append, skipped, not_comma]
  refine ⟨by simp [begins], fun byte member => ?_⟩
  rw [begins] at member
  rw [List.mem_singleton.mp member]
  exact ⟨nonzero, plain⟩

/-- The name is still being read, and unless a byte was escaped all that was taken is commas and the
name. -/
structure NameOpen (line : List UInt8) (scan : Scan) : Prop where
  single : scan.argv.length = 1
  reading : scan.inArg = true
  onlyName : scan.i = scan.offset → OnlyName (line.take scan.offset)

def NameEnded (scan : Scan) (name : ℕ) : Prop :=
  ∃ place, name ≤ place ∧ place < scan.i ∧ scan.inbuf[place]? = some 0

/-- What is known of the name before the bytes that are left. -/
structure Named (line : List UInt8) (scan : Scan) (rest : List UInt8) : Prop where
  left : line.drop scan.offset = rest
  idle : scan.argv = [] → scan.inArg = false
  commas : scan.argv = [] → scan.i = scan.offset → ∀ c ∈ line.take scan.offset, c = comma
  name : ∀ name args, scan.argv = name :: args →
    name < scan.i ∧ (NameOpen line scan ∨ NameEnded scan name)

namespace Named

variable {line rest : List UInt8} {scan : Scan} {c : UInt8} {len : ℕ}

theorem take_succ (named : Named line scan (c :: rest)) :
    line.take (scan.offset + 1) = line.take scan.offset ++ [c] := by
  have first : (line.drop scan.offset).head? = some c := by
    rw [named.left]
    rfl
  rw [List.take_add_one, ← List.head?_drop, first]
  rfl

theorem drop_succ (named : Named line scan (c :: rest)) :
    line.drop (scan.offset + 1) = rest := by
  rw [← List.tail_drop, named.left]
  rfl

theorem start (line : List UInt8) : Named line (scanStart line) line where
  left := rfl
  idle _ := rfl
  commas _ _ := by simp [scanStart]
  name _ _ nonempty := by simp [scanStart] at nonempty

theorem ended_of_take {name : ℕ} {next : Scan} (ended : NameEnded scan name)
    (kept : next.inbuf.take scan.i = scan.inbuf.take scan.i) (later : scan.i ≤ next.i) :
    NameEnded next name := by
  obtain ⟨place, behind, bounded, nul⟩ := ended
  refine ⟨place, behind, by omega, ?_⟩
  rw [← List.getElem?_take_of_lt bounded, kept, List.getElem?_take_of_lt bounded]
  exact nul

theorem take_memmoveDown {buffer : List UInt8} {position count : ℕ}
    (inside : position ≤ buffer.length) :
    (memmoveDown buffer position count).take position = buffer.take position := by
  rw [memmoveDown, List.append_assoc, List.take_left']
  rw [List.length_take, Nat.min_eq_left inside]

theorem next {next : Scan} (named : Named line scan (c :: rest))
    (before : Before len scan (c :: rest)) (step : Step len scan c next) :
    Named line { next with i := next.i + 1 } (afterTurn c rest) := by
  have behind := before.behind
  have within := before.room
  rw [← before.length, List.length_cons] at within
  cases step with
  | pass nonzero not_backslash quiet =>
      rw [afterTurn, if_neg not_backslash]
      refine ⟨named.drop_succ, named.idle, fun unnamed level byte member => ?_,
        fun name args nonempty => ?_⟩
      · rw [named.take_succ] at member
        rcases List.mem_append.mp member with earlier | last
        · exact named.commas unnamed (Nat.succ.inj level) byte earlier
        · rw [List.mem_singleton.mp last]
          rcases quiet with ⟨-, several⟩ | ⟨is_comma, -⟩ | ⟨-, reading⟩
          · rw [show scan.argv = [] from unnamed] at several
            exact absurd several (by decide)
          · exact is_comma
          · rw [named.idle unnamed] at reading
            exact Bool.noConfusion reading
      · obtain ⟨started, known⟩ := named.name name args nonempty
        refine ⟨Nat.lt_succ_of_lt started, ?_⟩
        rcases known with unended | ended
        · have single := unended.single
          have reading := unended.reading
          refine Or.inl ⟨single, reading, fun level => ?_⟩
          rcases quiet with ⟨-, several⟩ | ⟨-, idle⟩ | ⟨plain, -⟩
          · omega
          · rw [reading] at idle
            exact Bool.noConfusion idle
          · dsimp only
            rw [named.take_succ]
            exact onlyName_snoc (unended.onlyName (Nat.succ.inj level)) nonzero plain
        · exact Or.inr (ended_of_take ended rfl (Nat.le_succ _))
  | close isD limQ ends =>
      have not_backslash : c ≠ backslash := by
        rcases ends with ⟨rfl, -⟩ | ⟨rfl, -⟩
        · exact backslash_ne_equals.symm
        · exact comma_ne_backslash
      rw [afterTurn, if_neg not_backslash]
      refine ⟨named.drop_succ, fun _ => rfl, fun unnamed => ?_, fun name args nonempty => ?_⟩
      · rcases ends with ⟨-, one⟩ | ⟨-, reading⟩
        · rw [show scan.argv = [] from unnamed] at one
          exact absurd one (by decide)
        · rw [named.idle unnamed] at reading
          exact Bool.noConfusion reading
      · obtain ⟨started, -⟩ := named.name name args nonempty
        refine ⟨Nat.lt_succ_of_lt started, Or.inr ⟨scan.i, started.le, Nat.lt_succ_self _, ?_⟩⟩
        exact List.getElem?_set_self (by omega)
  | escape is_backslash enough =>
      rw [afterTurn, if_pos is_backslash]
      refine ⟨?_, named.idle, fun _ level => ?_, fun name args nonempty => ?_⟩
      · dsimp only
        rw [← List.tail_drop, named.drop_succ]
      · dsimp only at level
        omega
      · obtain ⟨started, known⟩ := named.name name args nonempty
        refine ⟨Nat.lt_succ_of_lt started, ?_⟩
        rcases known with unended | ended
        · refine Or.inl ⟨unended.single, unended.reading, fun level => ?_⟩
          dsimp only at level
          omega
        · exact Or.inr (ended_of_take ended (take_memmoveDown (by omega)) (Nat.le_succ _))
  | start isD limQ nonzero plain idle room =>
      have not_backslash : c ≠ backslash := by
        rintro rfl
        exact Bool.false_ne_true plain
      rw [afterTurn, if_neg not_backslash]
      refine ⟨named.drop_succ, fun unnamed => ?_, fun unnamed => ?_, fun name args nonempty => ?_⟩
      · exact absurd unnamed (by simp)
      · exact absurd unnamed (by simp)
      · dsimp only at nonempty
        cases started : scan.argv with
        | nil =>
            rw [started] at nonempty
            obtain ⟨rfl, -⟩ := List.cons.inj nonempty
            refine ⟨Nat.lt_succ_self _, Or.inl ⟨by simp, rfl, fun level => ?_⟩⟩
            dsimp only
            rw [named.take_succ]
            exact onlyName_of_commas (named.commas started (Nat.succ.inj level)) nonzero plain
        | cons first others =>
            rw [started] at nonempty
            obtain ⟨rfl, -⟩ := List.cons.inj nonempty
            obtain ⟨earlier, known⟩ := named.name first others started
            refine ⟨Nat.lt_succ_of_lt earlier, ?_⟩
            rcases known with unended | ended
            · rw [unended.reading] at idle
              exact Bool.noConfusion idle
            · exact Or.inr (ended_of_take ended rfl (Nat.le_succ _))

end Named

theorem strlen_lt_iff {buffer : List UInt8} {position : ℕ} :
    position + ((CString.startingAt buffer position).strlen + 1) ≤ buffer.length ↔
      ∃ place, position ≤ place ∧ buffer[place]? = some 0 := by
  have whole : (buffer.drop position).takeWhile (· ≠ 0) = buffer.drop position ↔
      ∀ c ∈ buffer.drop position, c ≠ 0 := by
    rw [List.takeWhile_eq_self_iff]
    simp
  have initialPart := List.takeWhile_prefix (l := buffer.drop position) (· ≠ 0)
  rw [CString.strlen, CString.startingAt]
  dsimp only
  constructor
  · intro ends
    by_contra unended
    push Not at unended
    have all : ∀ c ∈ buffer.drop position, c ≠ 0 := by
      rintro c member rfl
      obtain ⟨place, nul⟩ := List.mem_iff_getElem?.mp member
      rw [List.getElem?_drop] at nul
      exact unended (position + place) (Nat.le_add_right _ _) nul
    rw [whole.mpr all, List.length_drop] at ends
    omega
  · rintro ⟨place, behind, nul⟩
    have inside : place < buffer.length := (List.getElem?_eq_some_iff.mp nul).1
    have member : 0 ∈ buffer.drop position := by
      refine List.mem_iff_getElem?.mpr ⟨place - position, ?_⟩
      rw [List.getElem?_drop, Nat.add_sub_cancel' behind]
      exact nul
    have shorter : ((buffer.drop position).takeWhile (· ≠ 0)).length <
        (buffer.drop position).length := by
      refine Nat.lt_of_le_of_ne initialPart.length_le fun same => ?_
      exact whole.mp (initialPart.eq_of_length same) 0 member rfl
    rw [List.length_drop] at shorter
    omega

theorem eq_of_scanTurn_finished {c : UInt8} (before : Before len scan (c :: rest))
    (finished : scanTurn len scan = .finished final) :
    c = 0 ∧ final = { scan with offset := scan.offset + 1 } := by
  rw [before.scanTurn_cons, scanSwitch] at finished
  by_cases nul : c = 0
  · rw [if_pos nul] at finished
    split at finished
    · cases finished
    · exact ⟨nul, (Turn.finished.inj finished).symm⟩
  · rw [if_neg nul] at finished
    dsimp only at finished
    repeat' split at finished
    all_goals cases finished

/-- When the loop has ended, the name is terminated or fills the buffer with its line. -/
theorem finished_name {line : List UInt8} {left : ℕ} (fits : line.length ≤ atsvrInputBuffMaxSize)
    (before : Before line.length scan rest) (named : Named line scan rest)
    (room : left + scan.i = atsvrInputBuffMaxSize)
    (finished : scanLoop line.length left scan = .finished final) :
    final.inbuf.length = line.length ∧ ∀ name args, final.argv = name :: args →
      EndlessName line ∨ ∃ place, name ≤ place ∧ final.inbuf[place]? = some 0 := by
  induction left generalizing scan rest with
  | zero =>
      rw [scanLoop] at finished
      obtain rfl := Turn.finished.inj finished
      refine ⟨before.length, fun name args nonempty => ?_⟩
      have behind := before.behind
      have consumed := before.consumed
      rcases (named.name name args nonempty).2 with unended | ended
      · have onlyName := unended.onlyName (by omega)
        rw [List.take_of_length_le (by omega)] at onlyName
        exact Or.inl ⟨onlyName, by omega⟩
      · obtain ⟨place, later, -, nul⟩ := ended
        exact Or.inr ⟨place, later, nul⟩
  | succ left induction =>
      rw [scanLoop] at finished
      cases rest with
      | nil =>
          rw [before.scanTurn_nil] at finished
          cases finished
      | cons c rest =>
          cases turn : scanTurn line.length scan with
          | again next =>
              rw [turn] at finished
              have step := before.step_of_again turn
              refine induction (before.next step) (named.next before step) ?_ finished
              dsimp only
              rw [step.i_eq]
              omega
          | finished last =>
              rw [turn] at finished
              obtain rfl := Turn.finished.inj finished
              obtain ⟨rfl, rfl⟩ := eq_of_scanTurn_finished before turn
              refine ⟨before.length, fun name args nonempty => Or.inr ⟨scan.i, ?_, ?_⟩⟩
              · exact (named.name name args nonempty).1.le
              · exact before.getElem?_eq
          | refused code | overrun =>
              rw [turn] at finished
              cases finished

section

variable (full : len = atsvrInputBuffMaxSize) (before : Before len scan rest)
  (level : scan.i = scan.offset)
include full before level

/-- Plain bytes to the end of a full buffer run the loop out of turns in the middle of the name. -/
theorem scanLoop_of_plain {left : ℕ} (reading : scan.inArg = true)
    (plain : ∀ c ∈ rest, c ≠ 0 ∧ isPlain c = true) (room : left + scan.i = atsvrInputBuffMaxSize) :
    ∃ final, scanLoop len left scan = .finished final ∧ final.inbuf = scan.inbuf ∧
      final.argv = scan.argv := by
  induction rest generalizing scan left with
  | nil =>
      have consumed := before.consumed
      rw [List.length_nil] at consumed
      obtain rfl : left = 0 := by omega
      exact ⟨scan, rfl, rfl, rfl⟩
  | cons c rest induction =>
      obtain ⟨⟨nonzero, is_plain⟩, plain_rest⟩ := List.forall_mem_cons.mp plain
      obtain ⟨fewer, rfl, room_next⟩ := before.exists_turn full.le room
      have turn : scanTurn len scan = .again { scan with offset := scan.offset + 1 } := by
        simp only [isPlain, isSpecial, Bool.not_eq_true', Bool.or_eq_false_iff,
          decide_eq_false_iff_not] at is_plain
        rw [before.scanTurn_cons, scanSwitch, if_neg nonzero, if_neg is_plain.1.1,
          if_neg is_plain.1.2, if_neg is_plain.2, if_pos reading]
      have before_next : Before len { scan with offset := scan.offset + 1, i := scan.i + 1 } rest :=
        before.advance before.set_self rfl rfl
      obtain ⟨final, finished, inbuf_eq, argv_eq⟩ :=
        induction before_next (congrArg Nat.succ level) reading plain_rest room_next
      rw [scanLoop, turn]
      exact ⟨final, finished, inbuf_eq, argv_eq⟩

/-- A name that fills the buffer is given to the command without an end. -/
theorem scanLoop_of_onlyName {left : ℕ} (unnamed : scan.argv = []) (idle : scan.inArg = false)
    (onlyName : OnlyName rest) (room : left + scan.i = atsvrInputBuffMaxSize) :
    ∃ final name, scanLoop len left scan = .finished final ∧ final.argv = [name] ∧
      0 ∉ final.inbuf.drop name := by
  induction rest generalizing scan left with
  | nil => exact absurd rfl onlyName.name
  | cons c rest induction =>
      obtain ⟨fewer, rfl, room_next⟩ := before.exists_turn full.le room
      rw [scanLoop, before.scanTurn_cons, scanSwitch]
      by_cases is_comma : c = comma
      · subst is_comma
        have skipped : fromName (comma :: rest) = fromName rest := by
          simp [fromName]
        have rest_onlyName : OnlyName rest :=
          ⟨by rw [← skipped]; exact onlyName.name, by rw [← skipped]; exact onlyName.plain⟩
        rw [if_neg comma_ne_zero, if_neg comma_ne_equals, if_neg comma_ne_backslash, if_pos rfl,
          if_neg (by simp [unnamed]), if_neg (by simp [idle])]
        have before_next :
            Before len { scan with offset := scan.offset + 1, i := scan.i + 1 } rest :=
          before.advance before.set_self rfl rfl
        exact induction before_next (congrArg Nat.succ level) unnamed idle rest_onlyName room_next
      · have begins : fromName (c :: rest) = c :: rest := by
          simp [fromName, is_comma]
        have plain := onlyName.plain
        rw [begins] at plain
        obtain ⟨⟨nonzero, is_plain⟩, plain_rest⟩ := List.forall_mem_cons.mp plain
        simp only [isPlain, isSpecial, Bool.not_eq_true', Bool.or_eq_false_iff,
          decide_eq_false_iff_not] at is_plain
        rw [if_neg nonzero, if_neg is_plain.1.1, if_neg is_plain.1.2, if_neg is_plain.2,
          if_neg (by simp [idle]), if_pos (by simp [unnamed])]
        have before_next :
            Before len
              { scan with
                offset := scan.offset + 1
                inArg := true
                argv := scan.argv ++ [scan.i]
                limQ := false
                isD := if scan.isD = 1 then 2 else scan.isD
                i := scan.i + 1 } rest :=
          before.advance before.set_self rfl rfl
        obtain ⟨final, finished, inbuf_eq, argv_eq⟩ := scanLoop_of_plain full before_next
          (congrArg Nat.succ level) rfl plain_rest room_next
        refine ⟨final, scan.i, finished, ?_, ?_⟩
        · rw [argv_eq, unnamed]
          rfl
        · -- nothing stands behind the line in the buffer
          obtain ⟨done, stale, buffer, position⟩ := before.buffer
          have total := before.length
          have consumed := before.consumed
          rw [buffer, List.length_append, List.length_append] at total
          obtain rfl : stale = [] := List.eq_nil_of_length_eq_zero (by omega)
          rw [inbuf_eq]
          dsimp only
          rw [buffer, ← position, List.drop_left, List.append_nil]
          exact fun member => (plain 0 member).1 rfl

end

/-! ## Lines that stay in bounds -/

theorem before_scanStart (line : List UInt8) : Before line.length (scanStart line) line where
  buffer := ⟨[], [], by simp [scanStart], rfl⟩
  length := rfl
  consumed := Nat.zero_add _
  behind := Nat.le_refl 0

theorem scanLoop_ne_again (len left : ℕ) (scan next : Scan) :
    scanLoop len left scan ≠ .again next := by
  induction left generalizing scan with
  | zero => simp [scanLoop]
  | succ left induction =>
      rw [scanLoop]
      cases turn : scanTurn len scan with
      | again later => exact induction _
      | _ => simp

theorem commandAccesses_inside_iff {rom : CommandRom} {env : AtsvrEnv} :
    (∀ access ∈ commandAccesses rom env scan, access.Inside len) ↔
      ∀ name args, scan.argv = name :: args →
        name + ((CString.startingAt scan.inbuf name).strlen + 1) ≤ len := by
  rw [commandAccesses]
  cases argv_eq : scan.argv with
  | nil => simp
  | cons name args =>
      rw [List.forall_mem_cons, List.forall_mem_cons]
      constructor
      · rintro ⟨-, ends, -⟩ other others same
        obtain ⟨rfl, -⟩ := List.cons.inj same
        exact ends
      · intro ends
        refine ⟨Nat.succ_pos _, ends name args rfl, fun access member => ?_⟩
        split at member
        · split at member
          · rename_i room
            rw [List.mem_singleton.mp member]
            exact Nat.lt_succ_of_lt room
          · exact absurd member List.not_mem_nil
        · exact absurd member List.not_mem_nil

/-- A line of at most the buffer's length is handled inside the line and `argv` exactly if it gives
no command more arguments than fit and is not all name to the end of the buffer. -/
theorem inBounds_iff (rom : CommandRom) (env : AtsvrEnv) {line : List UInt8}
    (fits : line.length ≤ atsvrInputBuffMaxSize) :
    InBounds rom env line ↔ ¬TooManyArguments line ∧ ¬EndlessName line := by
  have before := before_scanStart line
  have room : atsvrInputBuffMaxSize + (scanStart line).i = atsvrInputBuffMaxSize := rfl
  have overruns : scanLoop line.length atsvrInputBuffMaxSize (scanStart line) = .overrun ↔
      TooManyArguments line := by
    rw [← spills_unescaped_iff]
    exact before.scanLoop_eq_overrun_iff fits room
  rw [InBounds, handleAccesses, List.forall_mem_append, before.loop_inside, Ne, overruns]
  refine and_congr_right fun few => ?_
  constructor
  · intro called endless
    obtain ⟨final, name, finished, argv_eq, unended⟩ := scanLoop_of_onlyName endless.fills before
      rfl rfl rfl endless.toOnlyName room
    obtain ⟨length_eq, -⟩ := finished_name fits before (.start line) room finished
    rw [finished] at called
    have ends := commandAccesses_inside_iff.mp called name [] argv_eq
    rw [← length_eq] at ends
    obtain ⟨place, behind, nul⟩ := strlen_lt_iff.mp ends
    refine unended (List.mem_iff_getElem?.mpr ⟨place - name, ?_⟩)
    rw [List.getElem?_drop, Nat.add_sub_cancel' behind]
    exact nul
  · intro not_endless
    cases ended : scanLoop line.length atsvrInputBuffMaxSize (scanStart line) with
    | again next => exact absurd ended (scanLoop_ne_again _ _ _ _)
    | refused code => exact fun access member => absurd member List.not_mem_nil
    | overrun => exact absurd (overruns.mp ended) few
    | finished final =>
        obtain ⟨length_eq, named⟩ := finished_name fits before (.start line) room ended
        refine commandAccesses_inside_iff.mpr fun name args argv_eq => ?_
        rw [← length_eq]
        exact strlen_lt_iff.mpr ((named name args argv_eq).resolve_left not_endless)

def noCommands : CommandRom := fun _ => { name := none, help := none, function := none }

/-- The line `AT=` with so many arguments `1`. -/
def onesLine (count : ℕ) : List UInt8 :=
  [0x41, 0x54, equals] ++ (List.replicate (count - 1) [0x31, comma]).flatten ++ [0x31, 0]

/-- The name and sixteen arguments fill `argv`. -/
theorem inBounds_sixteen_arguments :
    (onesLine 16).length ≤ atsvrInputBuffMaxSize ∧
      InBounds noCommands atsvrDefConfig (onesLine 16) := by
  refine ⟨by decide, (inBounds_iff noCommands atsvrDefConfig (by decide)).mpr ⟨?_, ?_⟩⟩
  · exact fun crowded => absurd crowded.many (by decide)
  · exact fun endless => absurd endless.fills (by decide)

/-- The seventeenth argument is stored behind `argv`. -/
theorem seventeenth_argument_out_of_bounds :
    ¬InBounds noCommands atsvrDefConfig (onesLine 17) := by
  intro inside
  have crowded : TooManyArguments (onesLine 17) :=
    ⟨⟨_, _, rfl, rfl⟩, ⟨_, _, rfl, rfl⟩, by decide⟩
  have before := before_scanStart (onesLine 17)
  have loop := before.loop_inside.mp (List.forall_mem_append.mp inside).1
  have fits : (onesLine 17).length ≤ atsvrInputBuffMaxSize := by decide
  exact loop ((before.scanLoop_eq_overrun_iff fits rfl).mpr ((spills_unescaped_iff _).mpr crowded))

end BdkFreertos.AtServer
