import BdkFreertos.AtCommands
import Mathlib.Data.List.Forall2

/-!
# The tokenizer of the AT server

A line is split in place: separators are overwritten by terminators, a backslash is removed by
moving the rest of the line down over it, and the entries of `argv` point into the line.  The first
part embeds the loop as it edits the buffer; the second reads the same line in one pass and is shown
to give the same arguments; the third says for which arguments an escaped line gives them back.
-/

namespace BdkFreertos.AtServer

def atsvrMaxArg : ℕ := 16

def atsvrInputBuffMaxSize : ℕ := 2048

/-- The byte `=`. -/
def equals : UInt8 := 0x3d

/-- The byte `\`. -/
def backslash : UInt8 := 0x5c

/-- The byte `,`. -/
def comma : UInt8 := 0x2c

/-- The byte `.`. -/
def dot : UInt8 := 0x2e

theorem equals_ne_zero : equals ≠ 0 := by decide

theorem backslash_ne_zero : backslash ≠ 0 := by decide

theorem comma_ne_zero : comma ≠ 0 := by decide

theorem backslash_ne_equals : backslash ≠ equals := by decide

theorem comma_ne_equals : comma ≠ equals := by decide

theorem comma_ne_backslash : comma ≠ backslash := by decide

/-! ## The loop over the buffer -/

/-- The variables of `_atsvr_handle_input`; the number of entries of `argv` is `argc`. -/
structure Scan where
  inbuf : List UInt8
  /-- The positions of the line that the entries of `argv` point at. -/
  argv : List ℕ
  i : ℕ
  offset : ℕ
  inArg : Bool
  isD : ℕ
  limQ : Bool
  deriving DecidableEq

/-- How a turn of the loop ends. -/
inductive Turn
  | again (scan : Scan)
  /-- The flag `done` is set, or the loop is left. -/
  | finished (scan : Scan)
  | refused (code : ℕ)
  /-- A pointer was written behind the end of `argv`. -/
  | overrun
  deriving DecidableEq

/-- `memmove` of so many bytes from the position behind to a position. -/
def memmoveDown (buffer : List UInt8) (position count : ℕ) : List UInt8 :=
  buffer.take position ++ (buffer.drop (position + 1)).take count ++
    buffer.drop (position + count)

/-- The switch of the loop of `_atsvr_handle_input` on the byte at `i`. -/
def scanSwitch (len : ℕ) (scan : Scan) (c : UInt8) : Turn :=
  if c = 0 then
    if scan.argv.length = 0 ∨ scan.isD = 1 ∨ scan.limQ then
      .refused 2
    else
      .finished scan
  else if c = equals then
    if scan.argv.length = 1 then
      .again { scan with inbuf := scan.inbuf.set scan.i 0, inArg := false, isD := 1 }
    else if scan.argv.length = 0 then
      .refused 4
    else
      .again scan
  else if c = backslash then
    let offset := scan.offset + 1
    if offset + 1 > len then
      .refused 6
    else
      .again { scan with
        offset := offset
        inbuf := memmoveDown scan.inbuf scan.i (len - offset + 1) }
  else if c = comma then
    if scan.isD = 1 ∧ scan.argv.length = 1 then
      .refused 5
    else if scan.inArg then
      .again { scan with inArg := false, inbuf := scan.inbuf.set scan.i 0, limQ := true }
    else
      .again scan
  else if scan.inArg then
    .again scan
  else if scan.argv.length < atsvrMaxArg + 1 then
    .again { scan with
      inArg := true
      argv := scan.argv ++ [scan.i]
      limQ := false
      isD := if scan.isD = 1 then 2 else scan.isD }
  else
    .overrun

/-- The body of the loop of `_atsvr_handle_input`. -/
def scanTurn (len : ℕ) (scan : Scan) : Turn :=
  let scan := { scan with offset := scan.offset + 1 }
  if scan.offset > len then
    .refused 7
  else
    scanSwitch len scan (scan.inbuf.getD scan.i 0)

/-- The loop with the turns it may still make before `i` reaches the size of the buffer. -/
def scanLoop (len : ℕ) : ℕ → Scan → Turn
  | 0, scan => .finished scan
  | left + 1, scan =>
      match scanTurn len scan with
      | .again next => scanLoop len left { next with i := next.i + 1 }
      | ended => ended

/-- What a line comes to. -/
inductive Reply
  /-- A command is called with its arguments, its own name first. -/
  | called (command : ℕ) (argv : List CString)
  | returned (code : ℕ)
  | emptySlot
  | overrun
  deriving DecidableEq

/-- Find the command named by the first argument and call it. -/
def atsvcCommandHandle (rom : CommandRom) (env : AtsvrEnv) (argv : List CString) : Reply :=
  match argv with
  | [] => .returned 3
  | name :: _ =>
      match atsvrLookupAtCommand rom env name ((name.strchr dot).getD 0) with
      | .error .emptySlot => .emptySlot
      | .ok none => .returned 1
      | .ok (some command) =>
          if (rom command).function = none then .returned 1 else .called command argv

/-- Split a line and call its command. -/
def atsvrHandleInput (rom : CommandRom) (env : AtsvrEnv) (inbuf : List UInt8) (len : ℕ) : Reply :=
  let start : Scan :=
    { inbuf := inbuf, argv := [], i := 0, offset := 0, inArg := false, isD := 0, limQ := false }
  match scanLoop len atsvrInputBuffMaxSize start with
  | .refused code => .returned code
  | .overrun => .overrun
  | .again scan | .finished scan =>
      atsvcCommandHandle rom env (scan.argv.map (CString.startingAt scan.inbuf))

/-! ## One pass over the line -/

/-- The arguments read so far. -/
structure Tokens where
  /-- Arguments whose end has been seen. -/
  closed : List (List UInt8)
  current : Option (List UInt8)
  isD : ℕ
  limQ : Bool

/-- What a whole line gives. -/
inductive Scanned
  | finished (args : List (List UInt8))
  | refused (code : ℕ)
  | overrun

namespace Tokens

def all (tokens : Tokens) : List (List UInt8) := tokens.closed ++ tokens.current.toList

/-- A byte that belongs to the argument being read and to nothing when there is none. -/
def put (tokens : Tokens) (c : UInt8) : Tokens :=
  { tokens with current := tokens.current.map (· ++ [c]) }

/-- A plain byte, which starts an argument when none is being read. -/
def add (tokens : Tokens) (c : UInt8) : Tokens :=
  match tokens.current with
  | some _ => tokens.put c
  | none =>
      { tokens with
        current := some [c]
        limQ := false
        isD := if tokens.isD = 1 then 2 else tokens.isD }

/-- The name ends at its `=`. -/
def endName (tokens : Tokens) : Tokens where
  closed := tokens.all
  current := none
  isD := 1
  limQ := tokens.limQ

/-- An argument ends at a `,`. -/
def endArg (tokens : Tokens) : Tokens where
  closed := tokens.all
  current := none
  isD := tokens.isD
  limQ := true

theorem put_of_idle {tokens : Tokens} (idle : tokens.current = none) (c : UInt8) :
    tokens.put c = tokens := by
  cases tokens
  cases idle
  rfl

end Tokens

/-- Read a line without its terminator. -/
def scanBytes : Tokens → List UInt8 → Scanned
  | tokens, [] =>
      if tokens.all.length = 0 ∨ tokens.isD = 1 ∨ tokens.limQ then
        .refused 2
      else
        .finished tokens.all
  | tokens, c :: rest =>
      if c = equals then
        if tokens.all.length = 1 then
          scanBytes tokens.endName rest
        else if tokens.all.length = 0 then
          .refused 4
        else
          scanBytes (tokens.put c) rest
      else if c = backslash then
        match rest with
        | [] => .refused 6
        | escaped :: rest => scanBytes (tokens.put escaped) rest
      else if c = comma then
        if tokens.isD = 1 ∧ tokens.all.length = 1 then
          .refused 5
        else if tokens.current.isSome then
          scanBytes tokens.endArg rest
        else
          scanBytes tokens rest
      else if tokens.current.isSome ∨ tokens.all.length < atsvrMaxArg + 1 then
        scanBytes (tokens.add c) rest
      else
        .overrun

/-! ## The loop reads the line in one pass -/

def Ended (done : List UInt8) : List ℕ → List (List UInt8) → Prop :=
  List.Forall₂ fun position arg => 0 ∉ arg ∧ ∃ behind, done.drop position = arg ++ 0 :: behind

/-- The position of the argument being read, which reaches to the end of what has been read. -/
def Reading (done : List UInt8) : List ℕ → Option (List UInt8) → Prop
  | [], none => True
  | [position], some arg => 0 ∉ arg ∧ position ≤ done.length ∧ done.drop position = arg
  | _, _ => False

/-- The entries of `argv` point at the arguments, of which all but the one being read have their
terminator. -/
def Pointed (done : List UInt8) (argv : List ℕ) (tokens : Tokens) : Prop :=
  ∃ ended reading, argv = ended ++ reading ∧ Ended done ended tokens.closed ∧
    Reading done reading tokens.current

/-- The loop stands before a line that ends at the terminator, with some bytes already in their
final place. -/
structure Placed (len : ℕ) (done : List UInt8) (scan : Scan) (tokens : Tokens)
    (line : List UInt8) : Prop where
  buffer : ∃ stale, scan.inbuf = done ++ (line ++ 0 :: stale)
  position : scan.i = done.length
  consumed : scan.offset + (line.length + 1) = len
  behind : done.length ≤ scan.offset
  argv : Pointed done scan.argv tokens
  inArg : scan.inArg = tokens.current.isSome
  isD : scan.isD = tokens.isD
  limQ : scan.limQ = tokens.limQ

/-- The loop ends as the pass does, with the same arguments. -/
def Turn.Gives : Turn → Scanned → Prop
  | .refused code, .refused code' => code = code'
  | .overrun, .overrun => True
  | .finished scan, .finished args =>
      (scan.argv.map fun position => (CString.startingAt scan.inbuf position).bytes) = args
  | _, _ => False

section Positions

variable {done : List UInt8} {argv : List ℕ} {tokens : Tokens}

theorem Reading.length_eq {reading : List ℕ} {current : Option (List UInt8)}
    (points : Reading done reading current) : reading.length = current.toList.length := by
  match reading, current, points with
  | [], none, _ => rfl
  | [_], some _, _ => rfl

theorem position_le_of_drop {position : ℕ} {arg behind : List UInt8}
    (at_position : done.drop position = arg ++ 0 :: behind) : position ≤ done.length := by
  by_contra outside
  rw [List.drop_eq_nil_of_le (by omega)] at at_position
  simp at at_position

variable {args : List (List UInt8)}

theorem Ended.append {ended : List ℕ} (closed : Ended done ended args) (c : UInt8) :
    Ended (done ++ [c]) ended args := by
  refine List.Forall₂.imp ?_ closed
  rintro position arg ⟨noNul, behind, at_position⟩
  have inside := position_le_of_drop at_position
  refine ⟨noNul, behind ++ [c], ?_⟩
  rw [List.drop_append_of_le_length inside, at_position]
  simp

theorem Ended.startingAt_eq {ended : List ℕ} (closed : Ended done ended args) (stale : List UInt8) :
    (ended.map fun position => (CString.startingAt (done ++ stale) position).bytes) = args := by
  induction closed with
  | nil => rfl
  | @cons position arg positions args points _ induction =>
      obtain ⟨noNul, behind, at_position⟩ := points
      have inside := position_le_of_drop at_position
      have every : ∀ c ∈ arg, decide (c ≠ 0) = true := by
        intro c member
        simp only [decide_eq_true_eq]
        rintro rfl
        exact noNul member
      have here : (CString.startingAt (done ++ stale) position).bytes = arg := by
        simp only [CString.startingAt]
        rw [List.drop_append_of_le_length inside, at_position, List.append_assoc,
          List.takeWhile_append_of_pos every]
        simp
      rw [List.map_cons, here, induction]

theorem Reading.ended {reading : List ℕ} {current : Option (List UInt8)}
    (points : Reading done reading current) : Ended (done ++ [0]) reading current.toList := by
  match reading, current, points with
  | [], none, _ => exact .nil
  | [position], some arg, points =>
      obtain ⟨noNul, inside, at_position⟩ := points
      refine .cons ⟨noNul, [], ?_⟩ .nil
      rw [List.drop_append_of_le_length inside, at_position]

namespace Pointed

theorem length_eq (pointed : Pointed done argv tokens) :
    argv.length = tokens.all.length := by
  obtain ⟨ended, reading, rfl, closed, current⟩ := pointed
  have closed_length : ended.length = tokens.closed.length := List.Forall₂.length_eq closed
  rw [Tokens.all, List.length_append, List.length_append, closed_length, current.length_eq]

variable {c : UInt8}

section

variable (pointed : Pointed done argv tokens)
include pointed

theorem put (c_ne : c ≠ 0) : Pointed (done ++ [c]) argv (tokens.put c) := by
  obtain ⟨ended, reading, rfl, closed, current⟩ := pointed
  refine ⟨ended, reading, rfl, closed.append c, ?_⟩
  rw [Tokens.put]
  match reading, tokens.current, current with
  | [], none, _ => trivial
  | [position], some arg, current =>
      obtain ⟨noNul, inside, at_position⟩ := current
      refine ⟨?_, ?_, ?_⟩
      · simpa using ⟨noNul, c_ne.symm⟩
      · rw [List.length_append]
        omega
      · rw [List.drop_append_of_le_length inside, at_position]

theorem close (isD : ℕ) (limQ : Bool) :
    Pointed (done ++ [0]) argv
      { closed := tokens.all, current := none, isD := isD, limQ := limQ } := by
  obtain ⟨ended, reading, rfl, closed, current⟩ := pointed
  refine ⟨ended ++ reading, [], by simp, ?_, trivial⟩
  exact List.rel_append (closed.append 0) current.ended

theorem start (idle : tokens.current = none) (c_ne : c ≠ 0) :
    Pointed (done ++ [c]) (argv ++ [done.length]) (tokens.add c) := by
  obtain ⟨ended, reading, rfl, closed, current⟩ := pointed
  rw [idle] at current
  cases reading with
  | cons position rest => simp [Reading] at current
  | nil =>
      refine ⟨ended, [done.length], by simp, ?_, ?_⟩
      · simpa [Tokens.add, idle] using closed.append c
      · simp only [Tokens.add, idle]
        exact ⟨by simpa using c_ne.symm, by simp, by simp⟩

theorem strings_eq (stale : List UInt8) :
    (argv.map fun position =>
      (CString.startingAt (done ++ 0 :: stale) position).bytes) = tokens.all := by
  obtain ⟨ended, reading, rfl, closed, current⟩ := pointed
  have all_ended : Ended (done ++ [0]) (ended ++ reading) tokens.all :=
    List.rel_append (closed.append 0) current.ended
  rw [List.append_cons done 0 stale]
  exact all_ended.startingAt_eq stale

end

end Pointed
end Positions

theorem memmoveDown_eq (done moved stale : List UInt8) (byte : UInt8) :
    memmoveDown (done ++ (byte :: (moved ++ 0 :: stale))) done.length (moved.length + 1) =
      done ++ (moved ++ 0 :: 0 :: stale) := by
  have kept : (done ++ (byte :: (moved ++ 0 :: stale))).take done.length = done := by simp
  have shifted : ((done ++ (byte :: (moved ++ 0 :: stale))).drop (done.length + 1)).take
      (moved.length + 1) = moved ++ [0] := by
    rw [List.drop_append, List.drop_eq_nil_of_le (by omega)]
    simp [List.take_append, List.take_of_length_le]
  have behind : (done ++ (byte :: (moved ++ 0 :: stale))).drop
      (done.length + (moved.length + 1)) = 0 :: stale := by
    rw [List.drop_append, List.drop_eq_nil_of_le (by omega)]
    simp
  rw [memmoveDown, kept, shifted, behind]
  simp

namespace Placed

variable {len : ℕ} {done line : List UInt8} {scan : Scan} {tokens : Tokens} {c : UInt8}

theorem scanTurn_cons (placed : Placed len done scan tokens (c :: line)) :
    scanTurn len scan = scanSwitch len { scan with offset := scan.offset + 1 } c := by
  obtain ⟨stale, inbuf_eq⟩ := placed.buffer
  have consumed := placed.consumed
  have byte_eq : scan.inbuf.getD scan.i 0 = c := by
    rw [inbuf_eq, placed.position]
    simp
  rw [scanTurn]
  dsimp only
  rw [if_neg (by omega), byte_eq]

theorem scanTurn_nil (placed : Placed len done scan tokens []) :
    scanTurn len scan = scanSwitch len { scan with offset := scan.offset + 1 } 0 := by
  obtain ⟨stale, inbuf_eq⟩ := placed.buffer
  have consumed := placed.consumed
  have byte_eq : scan.inbuf.getD scan.i 0 = 0 := by
    rw [inbuf_eq, placed.position]
    simp
  rw [scanTurn]
  dsimp only
  rw [if_neg (by omega), byte_eq]

/-- One byte of the line becomes final, as it was or as the loop overwrote it. -/
theorem advance (placed : Placed len done scan tokens (c :: line)) {next : Scan}
    {tokens' : Tokens} {final : UInt8} (argv : Pointed (done ++ [final]) next.argv tokens')
    (buffer : next.inbuf = scan.inbuf.set scan.i final) (position : next.i = scan.i + 1)
    (offset : next.offset = scan.offset + 1) (inArg : next.inArg = tokens'.current.isSome)
    (isD : next.isD = tokens'.isD) (limQ : next.limQ = tokens'.limQ) :
    Placed len (done ++ [final]) next tokens' line where
  buffer := by
    obtain ⟨stale, inbuf_eq⟩ := placed.buffer
    refine ⟨stale, ?_⟩
    rw [buffer, inbuf_eq, placed.position, List.set_append_right _ _ (le_refl _)]
    simp
  position := by simp [position, placed.position]
  consumed := by
    have consumed := placed.consumed
    rw [List.length_cons] at consumed
    omega
  behind := by
    have behind := placed.behind
    rw [List.length_append, List.length_singleton]
    omega
  argv := argv
  inArg := inArg
  isD := isD
  limQ := limQ

theorem set_self (placed : Placed len done scan tokens (c :: line)) :
    scan.inbuf = scan.inbuf.set scan.i c := by
  obtain ⟨stale, inbuf_eq⟩ := placed.buffer
  rw [inbuf_eq, placed.position, List.set_append_right _ _ (le_refl _)]
  simp

theorem escape (placed : Placed len done scan tokens (backslash :: c :: line)) (c_ne : c ≠ 0) :
    Placed len (done ++ [c])
      { scan with
        offset := scan.offset + 1 + 1
        inbuf := memmoveDown scan.inbuf scan.i (len - (scan.offset + 1 + 1) + 1)
        i := scan.i + 1 }
      (tokens.put c) line where
  buffer := by
    obtain ⟨stale, inbuf_eq⟩ := placed.buffer
    refine ⟨0 :: stale, ?_⟩
    have consumed := placed.consumed
    simp only [List.length_cons] at consumed
    have count_eq : len - (scan.offset + 1 + 1) + 1 = (c :: line).length + 1 := by
      rw [List.length_cons]
      omega
    have moved := memmoveDown_eq done (c :: line) stale backslash
    simp only [inbuf_eq, placed.position, count_eq]
    rw [List.cons_append, moved]
    simp
  position := by simp [placed.position]
  consumed := by
    have consumed := placed.consumed
    simp only [List.length_cons] at consumed
    dsimp only
    omega
  behind := by
    have behind := placed.behind
    simp only [List.length_append, List.length_singleton]
    omega
  argv := placed.argv.put c_ne
  inArg := by simp [placed.inArg, Tokens.put]
  isD := placed.isD
  limQ := placed.limQ

end Placed

variable {len : ℕ} {done line : List UInt8} {scan : Scan} {c : UInt8}
  {closed strings : List (List UInt8)} {string : CString} (bytes rest : List UInt8)

theorem Placed.turns_left {tokens : Tokens} {left : ℕ} (placed : Placed len done scan tokens line)
    (fits : len ≤ atsvrInputBuffMaxSize) (room : left + scan.i = atsvrInputBuffMaxSize) :
    ∃ fewer, left = fewer + 1 ∧ fewer + (scan.i + 1) = atsvrInputBuffMaxSize := by
  have consumed := placed.consumed
  have behind := placed.behind
  have position := placed.position
  exact ⟨left - 1, by omega, by omega⟩

/-- The turn that is next takes the loop to the place before the rest of a line. -/
def Leads (len : ℕ) (scan : Scan) (tokens : Tokens) (line : List UInt8) : Prop :=
  ∃ next done, scanTurn len scan = .again next ∧ next.i = scan.i ∧
    Placed len done { next with i := next.i + 1 } tokens line

namespace Placed

variable {len left : ℕ} {done line : List UInt8} {scan : Scan} {tokens : Tokens} {c : UInt8}

section

variable (placed : Placed len done scan tokens line) (fits : len ≤ atsvrInputBuffMaxSize)
  (room : left + scan.i = atsvrInputBuffMaxSize)
include placed fits room

/-- The loop goes on as it does from where the next turn leads. -/
theorem gives_of_leads {further : Tokens} {rest : List UInt8} (leads : Leads len scan further rest)
    {scanned : Scanned} (onward : ∀ {done scan left}, Placed len done scan further rest →
      left + scan.i = atsvrInputBuffMaxSize → (scanLoop len left scan).Gives scanned) :
    (scanLoop len left scan).Gives scanned := by
  obtain ⟨fewer, rfl, room_next⟩ := placed.turns_left fits room
  obtain ⟨next, done_next, turn, same, placed_next⟩ := leads
  rw [scanLoop, turn]
  refine onward placed_next ?_
  rw [← same] at room_next
  exact room_next

theorem scanLoop_eq {ended : Turn} (turn : scanTurn len scan = ended)
    (last : ∀ next, ended ≠ .again next) : scanLoop len left scan = ended := by
  obtain ⟨fewer, rfl, -⟩ := placed.turns_left fits room
  rw [scanLoop, turn]
  cases ended with
  | again next => exact absurd rfl (last next)
  | _ => rfl

end

theorem leads_endName (placed : Placed len done scan tokens (equals :: line))
    (one : tokens.all.length = 1) : Leads len scan tokens.endName line := by
  rw [← placed.argv.length_eq] at one
  refine ⟨{ scan with
    offset := scan.offset + 1
    inbuf := scan.inbuf.set scan.i 0
    inArg := false
    isD := 1 }, done ++ [0], ?_, rfl, ?_⟩
  · rw [placed.scanTurn_cons, scanSwitch, if_neg equals_ne_zero, if_pos rfl, if_pos one]
  · exact placed.advance (placed.argv.close 1 tokens.limQ) rfl rfl rfl rfl rfl placed.limQ

theorem leads_equals (placed : Placed len done scan tokens (equals :: line))
    (several : ¬ tokens.all.length = 1) (some_yet : ¬ tokens.all.length = 0) :
    Leads len scan (tokens.put equals) line := by
  rw [← placed.argv.length_eq] at several some_yet
  refine ⟨{ scan with offset := scan.offset + 1 }, done ++ [equals], ?_, rfl, ?_⟩
  · rw [placed.scanTurn_cons, scanSwitch, if_neg equals_ne_zero, if_pos rfl, if_neg several,
      if_neg some_yet]
  · exact placed.advance (placed.argv.put equals_ne_zero) placed.set_self rfl rfl
      (by simp [Tokens.put, placed.inArg]) placed.isD placed.limQ

theorem leads_escape (placed : Placed len done scan tokens (backslash :: c :: line))
    (c_ne : c ≠ 0) (not_equals : ¬ backslash = equals) :
    Leads len scan (tokens.put c) line := by
  have consumed := placed.consumed
  refine ⟨{ scan with
    offset := scan.offset + 1 + 1
    inbuf := memmoveDown scan.inbuf scan.i (len - (scan.offset + 1 + 1) + 1) }, done ++ [c], ?_,
    rfl, placed.escape c_ne⟩
  rw [placed.scanTurn_cons, scanSwitch, if_neg backslash_ne_zero, if_neg not_equals, if_pos rfl]
  dsimp only
  rw [if_neg (by simp only [List.length_cons] at consumed; omega)]

section Comma

variable (placed : Placed len done scan tokens (comma :: line)) (not_equals : ¬ comma = equals)
  (not_backslash : ¬ comma = backslash) (not_first : ¬ (tokens.isD = 1 ∧ tokens.all.length = 1))

include placed not_equals not_backslash not_first

theorem leads_endArg (reading : tokens.current.isSome = true) :
    Leads len scan tokens.endArg line := by
  rw [← placed.argv.length_eq, ← placed.isD] at not_first
  refine ⟨{ scan with
    offset := scan.offset + 1
    inArg := false
    inbuf := scan.inbuf.set scan.i 0
    limQ := true }, done ++ [0], ?_, rfl, ?_⟩
  · rw [placed.scanTurn_cons, scanSwitch, if_neg comma_ne_zero, if_neg not_equals,
      if_neg not_backslash, if_pos rfl, if_neg not_first, if_pos (placed.inArg.trans reading)]
  · exact placed.advance (placed.argv.close tokens.isD true) rfl rfl rfl rfl placed.isD rfl

theorem leads_comma (idle : ¬ tokens.current.isSome = true) : Leads len scan tokens line := by
  rw [← placed.argv.length_eq, ← placed.isD] at not_first
  have idle_flag : ¬ scan.inArg = true := by
    rw [placed.inArg]
    exact idle
  have argv := placed.argv.put comma_ne_zero
  rw [Tokens.put_of_idle (by simpa using idle)] at argv
  refine ⟨{ scan with offset := scan.offset + 1 }, done ++ [comma], ?_, rfl, ?_⟩
  · rw [placed.scanTurn_cons, scanSwitch, if_neg comma_ne_zero, if_neg not_equals,
      if_neg not_backslash, if_pos rfl, if_neg not_first, if_neg idle_flag]
  · exact placed.advance argv placed.set_self rfl rfl placed.inArg placed.isD placed.limQ

end Comma

section Plain

variable (placed : Placed len done scan tokens (c :: line)) (c_ne : c ≠ 0)
  (not_equals : ¬ c = equals) (not_backslash : ¬ c = backslash) (not_comma : ¬ c = comma)

include placed c_ne not_equals not_backslash not_comma

theorem leads_put {arg : List UInt8} (current : tokens.current = some arg) :
    Leads len scan (tokens.add c) line := by
  have reading : scan.inArg = true := by
    rw [placed.inArg, current]
    rfl
  have added : tokens.add c = tokens.put c := by simp [Tokens.add, current]
  rw [added]
  refine ⟨{ scan with offset := scan.offset + 1 }, done ++ [c], ?_, rfl, ?_⟩
  · rw [placed.scanTurn_cons, scanSwitch, if_neg c_ne, if_neg not_equals, if_neg not_backslash,
      if_neg not_comma, if_pos reading]
  · exact placed.advance (placed.argv.put c_ne) placed.set_self rfl rfl
      (by simp [Tokens.put, placed.inArg]) placed.isD placed.limQ

theorem leads_start (current : tokens.current = none)
    (slot : tokens.all.length < atsvrMaxArg + 1) : Leads len scan (tokens.add c) line := by
  have idle : ¬ scan.inArg = true := by simp [placed.inArg, current]
  have argv := placed.argv.start current c_ne
  rw [← placed.argv.length_eq] at slot
  rw [← placed.position] at argv
  refine ⟨{ scan with
    offset := scan.offset + 1
    inArg := true
    argv := scan.argv ++ [scan.i]
    limQ := false
    isD := if scan.isD = 1 then 2 else scan.isD }, done ++ [c], ?_, rfl, ?_⟩
  · rw [placed.scanTurn_cons, scanSwitch, if_neg c_ne, if_neg not_equals, if_neg not_backslash,
      if_neg not_comma, if_neg idle, if_pos slot]
  · exact placed.advance argv placed.set_self rfl rfl (by simp [Tokens.add, current])
      (by simp [Tokens.add, current, placed.isD]) (by simp [Tokens.add, current])

end Plain

end Placed

theorem scanLoop_gives (fits : len ≤ atsvrInputBuffMaxSize) (noNul : 0 ∉ line) {tokens : Tokens}
    {left : ℕ} (placed : Placed len done scan tokens line)
    (room : left + scan.i = atsvrInputBuffMaxSize) :
    (scanLoop len left scan).Gives (scanBytes tokens line) := by
  fun_induction scanBytes tokens line generalizing done scan left with
  | case1 tokens ends =>
      rw [← placed.argv.length_eq, ← placed.isD, ← placed.limQ] at ends
      have turn : scanTurn len scan = .refused 2 := by
        rw [placed.scanTurn_nil, scanSwitch, if_pos rfl, if_pos ends]
      rw [placed.scanLoop_eq fits room turn nofun]
      rfl
  | case2 tokens ends =>
      rw [← placed.argv.length_eq, ← placed.isD, ← placed.limQ] at ends
      have turn : scanTurn len scan = .finished { scan with offset := scan.offset + 1 } := by
        rw [placed.scanTurn_nil, scanSwitch, if_pos rfl, if_neg ends]
      obtain ⟨stale, inbuf_eq⟩ := placed.buffer
      rw [placed.scanLoop_eq fits room turn nofun]
      simp only [Turn.Gives, inbuf_eq]
      exact placed.argv.strings_eq stale
  | case3 tokens line one induction =>
      have noNul_line : 0 ∉ line := fun member => noNul (List.mem_cons_of_mem _ member)
      exact placed.gives_of_leads fits room (placed.leads_endName one) (induction noNul_line)
  | case4 tokens line several none_yet =>
      rw [← placed.argv.length_eq] at several none_yet
      have turn : scanTurn len scan = .refused 4 := by
        rw [placed.scanTurn_cons, scanSwitch, if_neg equals_ne_zero, if_pos rfl, if_neg several,
          if_pos none_yet]
      rw [placed.scanLoop_eq fits room turn nofun]
      rfl
  | case5 tokens line several some_yet induction =>
      have noNul_line : 0 ∉ line := fun member => noNul (List.mem_cons_of_mem _ member)
      exact placed.gives_of_leads fits room (placed.leads_equals several some_yet)
        (induction noNul_line)
  | case6 tokens not_equals =>
      have consumed := placed.consumed
      have turn : scanTurn len scan = .refused 6 := by
        rw [placed.scanTurn_cons, scanSwitch, if_neg backslash_ne_zero, if_neg not_equals,
          if_pos rfl]
        dsimp only
        rw [if_pos (by rw [List.length_singleton] at consumed; omega)]
      rw [placed.scanLoop_eq fits room turn nofun]
      rfl
  | case7 tokens escaped line not_equals induction =>
      have noNul_line : 0 ∉ line := fun member =>
        noNul (List.mem_cons_of_mem _ (List.mem_cons_of_mem _ member))
      have escaped_ne : escaped ≠ 0 := by
        rintro rfl
        exact noNul (by simp)
      exact placed.gives_of_leads fits room (placed.leads_escape escaped_ne not_equals)
        (induction noNul_line)
  | case8 tokens line first not_equals not_backslash =>
      rw [← placed.argv.length_eq, ← placed.isD] at first
      have turn : scanTurn len scan = .refused 5 := by
        rw [placed.scanTurn_cons, scanSwitch, if_neg comma_ne_zero, if_neg not_equals,
          if_neg not_backslash, if_pos rfl, if_pos first]
      rw [placed.scanLoop_eq fits room turn nofun]
      rfl
  | case9 tokens line not_first reading not_equals not_backslash induction =>
      have noNul_line : 0 ∉ line := fun member => noNul (List.mem_cons_of_mem _ member)
      exact placed.gives_of_leads fits room
        (placed.leads_endArg not_equals not_backslash not_first reading) (induction noNul_line)
  | case10 tokens line not_first idle not_equals not_backslash induction =>
      have noNul_line : 0 ∉ line := fun member => noNul (List.mem_cons_of_mem _ member)
      exact placed.gives_of_leads fits room
        (placed.leads_comma not_equals not_backslash not_first idle) (induction noNul_line)
  | case11 tokens c line not_equals not_backslash not_comma accepted induction =>
      have noNul_line : 0 ∉ line := fun member => noNul (List.mem_cons_of_mem _ member)
      have c_ne : c ≠ 0 := by
        rintro rfl
        exact noNul (by simp)
      refine placed.gives_of_leads fits room ?_ (induction noNul_line)
      cases current : tokens.current with
      | some arg => exact placed.leads_put c_ne not_equals not_backslash not_comma current
      | none =>
          have slot : tokens.all.length < atsvrMaxArg + 1 := by simpa [current] using accepted
          exact placed.leads_start c_ne not_equals not_backslash not_comma current slot
  | case12 tokens c line not_equals not_backslash not_comma too_many =>
      have c_ne : c ≠ 0 := by
        rintro rfl
        exact noNul (by simp)
      rw [not_or, ← placed.argv.length_eq, ← placed.inArg] at too_many
      have turn : scanTurn len scan = .overrun := by
        rw [placed.scanTurn_cons, scanSwitch, if_neg c_ne, if_neg not_equals,
          if_neg not_backslash, if_neg not_comma, if_neg too_many.1, if_neg too_many.2]
      rw [placed.scanLoop_eq fits room turn nofun]
      trivial

/-! ## Escaped lines -/

/-- The bytes of a string the tokenizer gives a meaning of their own. -/
def isSpecial (c : UInt8) : Bool := c = equals || c = backslash || c = comma

def escape (bytes : List UInt8) : List UInt8 :=
  bytes.flatMap fun c => if isSpecial c then [backslash, c] else [c]

/-- Escaped arguments with commas between them. -/
def escapeArgs : List CString → List UInt8
  | [] => []
  | [arg] => escape arg.bytes
  | arg :: args => escape arg.bytes ++ comma :: escapeArgs args

/-- The line `NAME=arg1,arg2,...` for a command and its arguments. -/
def encodeLine (name : CString) (args : List CString) : List UInt8 :=
  escape name.bytes ++ equals :: escapeArgs args

def OpensPlain (string : CString) : Prop :=
  ∃ c rest, string.bytes = c :: rest ∧ isSpecial c = false

/-- What the tokenizer keeps of an escaped argument: it opens at the first plain byte. -/
def kept (bytes : List UInt8) : List UInt8 := bytes.dropWhile isSpecial

/-- The state behind an escaped argument of which something was kept. -/
def Tokens.opened (tokens : Tokens) (arg : List UInt8) : Tokens where
  closed := tokens.closed
  current := some arg
  isD := if tokens.isD = 1 then 2 else tokens.isD
  limQ := false

@[simp]
theorem escape_nil : escape [] = [] := rfl

theorem escape_cons_special (special : isSpecial c = true) (bytes : List UInt8) :
    escape (c :: bytes) = backslash :: c :: escape bytes := by
  simp [escape, special]

theorem escape_cons_plain (plain : isSpecial c = false) (bytes : List UInt8) :
    escape (c :: bytes) = c :: escape bytes := by
  simp [escape, plain]

theorem plain_ne (plain : isSpecial c = false) : c ≠ equals ∧ c ≠ backslash ∧ c ≠ comma := by
  simpa [isSpecial, and_assoc] using plain

theorem scanBytes_escaped (tokens : Tokens) (c : UInt8) (rest : List UInt8) :
    scanBytes tokens (backslash :: c :: rest) = scanBytes (tokens.put c) rest := by
  simp [scanBytes, backslash_ne_equals]

theorem scanBytes_plain {tokens : Tokens} (plain : isSpecial c = false) (rest : List UInt8)
    (accepted : tokens.current.isSome ∨ tokens.all.length < atsvrMaxArg + 1) :
    scanBytes tokens (c :: rest) = scanBytes (tokens.add c) rest := by
  obtain ⟨not_equals, not_backslash, not_comma⟩ := plain_ne plain
  rw [scanBytes.eq_def]
  dsimp only
  rw [if_neg not_equals, if_neg not_backslash, if_neg not_comma, if_pos accepted]

theorem scanBytes_equals (tokens : Tokens) (rest : List UInt8) :
    scanBytes tokens (equals :: rest) =
      if tokens.all.length = 1 then scanBytes tokens.endName rest
      else if tokens.all.length = 0 then .refused 4
      else scanBytes (tokens.put equals) rest := by
  rw [scanBytes.eq_def]
  dsimp only
  rw [if_pos rfl]

theorem scanBytes_comma (tokens : Tokens) (rest : List UInt8) :
    scanBytes tokens (comma :: rest) =
      if tokens.isD = 1 ∧ tokens.all.length = 1 then .refused 5
      else if tokens.current.isSome then scanBytes tokens.endArg rest
      else scanBytes tokens rest := by
  rw [scanBytes.eq_def]
  dsimp only
  rw [if_neg comma_ne_equals, if_neg comma_ne_backslash, if_pos rfl]

theorem scanBytes_escape_reading {tokens : Tokens} {arg : List UInt8}
    (reading : tokens.current = some arg) :
    scanBytes tokens (escape bytes ++ rest) =
      scanBytes { tokens with current := some (arg ++ bytes) } rest := by
  induction bytes generalizing tokens arg with
  | nil =>
      cases tokens
      cases reading
      simp
  | cons c bytes induction =>
      cases special : isSpecial c with
      | true =>
          have next : (tokens.put c).current = some (arg ++ [c]) := by simp [Tokens.put, reading]
          rw [escape_cons_special special, List.cons_append, List.cons_append, scanBytes_escaped,
            induction next]
          simp [Tokens.put]
      | false =>
          have next : (tokens.add c).current = some (arg ++ [c]) := by
            simp [Tokens.add, Tokens.put, reading]
          rw [escape_cons_plain special, List.cons_append,
            scanBytes_plain special _ (.inl (by simp [reading])), induction next]
          simp [Tokens.add, Tokens.put, reading]

theorem scanBytes_escape_idle {tokens : Tokens} (idle : tokens.current = none)
    (slot : tokens.all.length < atsvrMaxArg + 1) :
    scanBytes tokens (escape bytes ++ rest) =
      scanBytes (if kept bytes = [] then tokens else tokens.opened (kept bytes)) rest := by
  induction bytes with
  | nil => simp [kept]
  | cons c bytes induction =>
      cases special : isSpecial c with
      | true =>
          have kept_eq : kept (c :: bytes) = kept bytes := by simp [kept, special]
          rw [escape_cons_special special, List.cons_append, List.cons_append, scanBytes_escaped,
            Tokens.put_of_idle idle, induction, kept_eq]
      | false =>
          have kept_eq : kept (c :: bytes) = c :: bytes := by simp [kept, special]
          have next : (tokens.add c).current = some [c] := by simp [Tokens.add, idle]
          rw [escape_cons_plain special, List.cons_append,
            scanBytes_plain special _ (.inr slot), scanBytes_escape_reading bytes rest next,
            kept_eq, if_neg (by simp)]
          simp [Tokens.add, Tokens.opened, idle]

def argTail (args : List CString) : List UInt8 :=
  if args = [] then [] else comma :: escapeArgs args

/-- Behind the comma after an argument. -/
def between (closed : List (List UInt8)) : Tokens where
  closed := closed
  current := none
  isD := 2
  limQ := true

/-- The name has been read up to its `=`. -/
def named (name : List UInt8) : Tokens where
  closed := [name]
  current := none
  isD := 1
  limQ := false

/-- The parts of arguments the tokenizer keeps, those of which nothing is kept left out. -/
def keptArgs (args : List CString) : List (List UInt8) :=
  (args.map fun arg => kept arg.bytes).filter (· ≠ [])

theorem escapeArgs_cons (arg : CString) (args : List CString) :
    escapeArgs (arg :: args) = escape arg.bytes ++ argTail args := by
  cases args with
  | nil | cons next args => simp [escapeArgs, argTail]

theorem keptArgs_cons (arg : CString) (args : List CString) :
    keptArgs (arg :: args) =
      (if kept arg.bytes = [] then [] else [kept arg.bytes]) ++ keptArgs args := by
  by_cases empty : kept arg.bytes = [] <;> simp [keptArgs, empty]

theorem scanBytes_opened_tail {tokens : Tokens} (isD : tokens.isD = 1 ∨ tokens.isD = 2)
    (arg : List UInt8) (args : List CString) :
    scanBytes (tokens.opened arg) (argTail args) =
      if args = [] then .finished (tokens.closed ++ [arg])
      else scanBytes (between (tokens.closed ++ [arg])) (escapeArgs args) := by
  have isD_two : (tokens.opened arg).isD = 2 := by
    rcases isD with one | two
    · simp [Tokens.opened, one]
    · simp [Tokens.opened, two]
  have all_eq : (tokens.opened arg).all = tokens.closed ++ [arg] := by
    simp [Tokens.opened, Tokens.all]
  cases args with
  | nil =>
      have ends : ¬ ((tokens.opened arg).all.length = 0 ∨ (tokens.opened arg).isD = 1 ∨
          (tokens.opened arg).limQ = true) := by
        rw [isD_two, all_eq]
        simp [Tokens.opened]
      rw [argTail, if_pos rfl, if_pos rfl, scanBytes, if_neg ends, all_eq]
  | cons next args =>
      have not_first : ¬ ((tokens.opened arg).isD = 1 ∧ (tokens.opened arg).all.length = 1) := by
        simp [isD_two]
      have ended : (tokens.opened arg).endArg = between (tokens.closed ++ [arg]) := by
        simp [Tokens.endArg, between, isD_two, all_eq]
      rw [argTail, if_neg (by simp), if_neg (by simp), scanBytes_comma, if_neg not_first,
        if_pos (by simp [Tokens.opened]), ended]

theorem scanBytes_between_tail (closed : List (List UInt8)) (args : List CString) :
    scanBytes (between closed) (argTail args) =
      if args = [] then .refused 2 else scanBytes (between closed) (escapeArgs args) := by
  cases args with
  | nil => simp [argTail, scanBytes, between]
  | cons next args =>
      rw [argTail, if_neg (by simp), if_neg (by simp), scanBytes_comma,
        if_neg (by simp [between]), if_neg (by simp [between])]

theorem kept_of_scanBytes_between {args : List CString}
    (few : closed.length + args.length ≤ atsvrMaxArg) (nonempty : args ≠ [])
    (finished : scanBytes (between closed) (escapeArgs args) = .finished strings) :
    strings = closed ++ keptArgs args := by
  induction args generalizing closed with
  | nil => exact absurd rfl nonempty
  | cons arg args induction =>
      rw [List.length_cons] at few
      have slot : (between closed).all.length < atsvrMaxArg + 1 := by
        simp only [between, Tokens.all, Option.toList_none, List.append_nil]
        omega
      rw [escapeArgs_cons, scanBytes_escape_idle _ _ rfl slot] at finished
      rw [keptArgs_cons]
      split at finished
      next empty =>
          rw [scanBytes_between_tail] at finished
          split at finished
          next => simp at finished
          next more => simpa [empty] using induction (by omega) more finished
      next some_kept =>
          rw [scanBytes_opened_tail (.inr rfl)] at finished
          have closed_eq : (between closed).closed = closed := rfl
          rw [closed_eq] at finished
          split at finished
          next last =>
              subst last
              simpa [some_kept, keptArgs] using finished.symm
          next more =>
              have few_next : (closed ++ [kept arg.bytes]).length + args.length ≤ atsvrMaxArg := by
                rw [List.length_append, List.length_singleton]
                omega
              simpa [some_kept] using induction few_next more finished

theorem kept_of_opensPlain (plain : OpensPlain string) : kept string.bytes = string.bytes := by
  obtain ⟨c, rest, bytes_eq, plain⟩ := plain
  simp [kept, bytes_eq, plain]

theorem ne_nil_of_opensPlain (plain : OpensPlain string) : kept string.bytes ≠ [] := by
  rw [kept_of_opensPlain plain]
  obtain ⟨c, rest, bytes_eq, -⟩ := plain
  simp [bytes_eq]

theorem scanBytes_between_plain {args : List CString}
    (few : closed.length + args.length ≤ atsvrMaxArg) (nonempty : args ≠ [])
    (plain : ∀ arg ∈ args, OpensPlain arg) :
    scanBytes (between closed) (escapeArgs args) =
      .finished (closed ++ args.map CString.bytes) := by
  induction args generalizing closed with
  | nil => exact absurd rfl nonempty
  | cons arg args induction =>
      rw [List.length_cons] at few
      have slot : (between closed).all.length < atsvrMaxArg + 1 := by
        simp only [between, Tokens.all, Option.toList_none, List.append_nil]
        omega
      have arg_plain := plain arg List.mem_cons_self
      have closed_eq : (between closed).closed = closed := rfl
      rw [escapeArgs_cons, scanBytes_escape_idle _ _ rfl slot,
        if_neg (ne_nil_of_opensPlain arg_plain), scanBytes_opened_tail (.inr rfl), closed_eq,
        kept_of_opensPlain arg_plain]
      split
      next last => simp [last]
      next more =>
          have few_next : (closed ++ [arg.bytes]).length + args.length ≤ atsvrMaxArg := by
            rw [List.length_append, List.length_singleton]
            omega
          rw [induction few_next more fun later member =>
            plain later (List.mem_cons_of_mem arg member)]
          simp

/-- The state before the first byte of a line. -/
def noTokens : Tokens where
  closed := []
  current := none
  isD := 0
  limQ := false

theorem scanBytes_encodeLine (name : CString) (args : List CString) :
    scanBytes noTokens (encodeLine name args) =
      if kept name.bytes = [] then .refused 4
      else scanBytes (named (kept name.bytes)) (escapeArgs args) := by
  have slot : noTokens.all.length < atsvrMaxArg + 1 := by decide
  rw [encodeLine, scanBytes_escape_idle _ _ rfl slot]
  split
  next => simp [scanBytes_equals, noTokens, Tokens.all]
  next => simp [scanBytes_equals, noTokens, Tokens.opened, Tokens.all, Tokens.endName, named]

theorem scanBytes_named (name : List UInt8) (arg : CString) (args : List CString)
    (some_kept : kept arg.bytes ≠ []) :
    scanBytes (named name) (escapeArgs (arg :: args)) =
      if args = [] then .finished [name, kept arg.bytes]
      else scanBytes (between [name, kept arg.bytes]) (escapeArgs args) := by
  have slot : (named name).all.length < atsvrMaxArg + 1 := by
    simp [named, Tokens.all, atsvrMaxArg]
  rw [escapeArgs_cons, scanBytes_escape_idle _ _ rfl slot, if_neg some_kept,
    scanBytes_opened_tail (.inl rfl)]
  rfl

theorem scanBytes_named_refused (name : List UInt8) {args : List CString}
    (nothing : ∀ arg ∈ args.head?, kept arg.bytes = []) (strings : List (List UInt8)) :
    scanBytes (named name) (escapeArgs args) ≠ .finished strings := by
  cases args with
  | nil => simp [escapeArgs, scanBytes, named]
  | cons arg args =>
      have slot : (named name).all.length < atsvrMaxArg + 1 := by
        simp [named, Tokens.all, atsvrMaxArg]
      rw [escapeArgs_cons, scanBytes_escape_idle _ _ rfl slot, if_pos (nothing arg (by simp))]
      cases args with
      | nil => simp [argTail, scanBytes, named]
      | cons next args =>
          rw [argTail, if_neg (by simp), scanBytes_comma, if_pos (by simp [named, Tokens.all])]
          simp

theorem kept_of_scanBytes_encodeLine {name : CString} {args : List CString}
    (few : args.length < atsvrMaxArg)
    (finished : scanBytes noTokens (encodeLine name args) = .finished strings) :
    strings = keptArgs (name :: args) ∧ args ≠ [] := by
  rw [scanBytes_encodeLine] at finished
  split at finished
  next => simp at finished
  next name_kept =>
      cases args with
      | nil => exact absurd finished (scanBytes_named_refused _ (by simp) strings)
      | cons arg args =>
          refine ⟨?_, by simp⟩
          by_cases some_kept : kept arg.bytes = []
          · exact absurd finished (scanBytes_named_refused _ (by simpa using some_kept) strings)
          · rw [scanBytes_named _ _ _ some_kept] at finished
            rw [keptArgs_cons, keptArgs_cons, if_neg name_kept, if_neg some_kept]
            split at finished
            next last =>
                subst last
                simpa [keptArgs] using finished.symm
            next more =>
                have few_next : [kept name.bytes, kept arg.bytes].length + args.length ≤
                    atsvrMaxArg := by
                  simp only [List.length_cons, List.length_nil] at few ⊢
                  omega
                simpa using kept_of_scanBytes_between few_next more finished

theorem scanBytes_encodeLine_plain {name : CString} {args : List CString}
    (few : args.length < atsvrMaxArg) (name_plain : OpensPlain name) (nonempty : args ≠ [])
    (plain : ∀ arg ∈ args, OpensPlain arg) :
    scanBytes noTokens (encodeLine name args) =
      .finished ((name :: args).map CString.bytes) := by
  rw [scanBytes_encodeLine, if_neg (ne_nil_of_opensPlain name_plain),
    kept_of_opensPlain name_plain]
  cases args with
  | nil => exact absurd rfl nonempty
  | cons arg args =>
      have arg_plain := plain arg List.mem_cons_self
      rw [scanBytes_named _ _ _ (ne_nil_of_opensPlain arg_plain), kept_of_opensPlain arg_plain]
      split
      next last => simp [last]
      next more =>
          have few_next : [name.bytes, arg.bytes].length + args.length ≤ atsvrMaxArg := by
            simp only [List.length_cons, List.length_nil] at few ⊢
            omega
          rw [scanBytes_between_plain few_next more fun later member =>
            plain later (List.mem_cons_of_mem arg member)]
          simp

theorem opensPlain_of_keptArgs {strings : List CString}
    (unchanged : keptArgs strings = strings.map CString.bytes) :
    ∀ string ∈ strings, OpensPlain string := by
  induction strings with
  | nil => simp
  | cons string strings induction =>
      have no_longer : (keptArgs strings).length ≤ strings.length := by
        simpa [keptArgs] using
          List.length_filter_le (· ≠ []) (strings.map fun arg => kept arg.bytes)
      rw [keptArgs_cons, List.map_cons] at unchanged
      split at unchanged
      next =>
          have lengths := congrArg List.length unchanged
          simp only [List.nil_append, List.length_cons, List.length_map] at lengths
          omega
      next some_kept =>
          obtain ⟨same, rest⟩ := List.cons.inj unchanged
          intro other member
          rcases List.mem_cons.mp member with rfl | later
          · cases bytes_eq : other.bytes with
            | nil => simp [kept, bytes_eq] at some_kept
            | cons c bytes =>
                refine ⟨c, bytes, bytes_eq, ?_⟩
                by_contra special
                have shorter : (kept bytes).length ≤ bytes.length :=
                  List.length_dropWhile_le isSpecial bytes
                have lengths := congrArg List.length same
                rw [bytes_eq] at lengths
                simp only [kept, List.dropWhile_cons, eq_true_of_ne_false special, if_true,
                  List.length_cons] at lengths shorter
                omega
          · exact induction rest other later

theorem noNul_escape {bytes : List UInt8} (noNul : 0 ∉ bytes) : 0 ∉ escape bytes := by
  simp only [escape, List.mem_flatMap, not_exists, not_and]
  intro c member
  have c_ne : (0 : UInt8) ≠ c := by
    rintro rfl
    exact noNul member
  split <;> simp [c_ne, backslash_ne_zero.symm]

theorem noNul_escapeArgs (args : List CString) : 0 ∉ escapeArgs args := by
  induction args with
  | nil => simp [escapeArgs]
  | cons arg args induction =>
      have arg_noNul := noNul_escape arg.noNul
      rw [escapeArgs_cons, argTail]
      split <;> simp [arg_noNul, comma_ne_zero.symm, induction]

theorem noNul_encodeLine (name : CString) (args : List CString) : 0 ∉ encodeLine name args := by
  simp [encodeLine, noNul_escape name.noNul, noNul_escapeArgs args, equals_ne_zero.symm]

theorem atsvrHandleInput_eq (rom : CommandRom) (env : AtsvrEnv) (noNul : 0 ∉ line)
    (fits : line.length + 1 ≤ atsvrInputBuffMaxSize) (stale : List UInt8) :
    match scanBytes noTokens line with
    | .finished strings => ∃ argv : List CString, argv.map CString.bytes = strings ∧
        atsvrHandleInput rom env (line ++ 0 :: stale) (line.length + 1) =
          atsvcCommandHandle rom env argv
    | .refused code =>
        atsvrHandleInput rom env (line ++ 0 :: stale) (line.length + 1) = .returned code
    | .overrun => atsvrHandleInput rom env (line ++ 0 :: stale) (line.length + 1) = .overrun := by
  let start : Scan :=
    { inbuf := line ++ 0 :: stale, argv := [], i := 0, offset := 0, inArg := false, isD := 0,
      limQ := false }
  have placed : Placed (line.length + 1) [] start noTokens line :=
    { buffer := ⟨stale, rfl⟩
      position := rfl
      consumed := Nat.zero_add _
      behind := Nat.le_refl 0
      argv := ⟨[], [], rfl, .nil, trivial⟩
      inArg := rfl
      isD := rfl
      limQ := rfl }
  have gives : (scanLoop (line.length + 1) atsvrInputBuffMaxSize start).Gives
      (scanBytes noTokens line) :=
    scanLoop_gives fits noNul placed rfl
  have reply_eq : atsvrHandleInput rom env (line ++ 0 :: stale) (line.length + 1) =
      match scanLoop (line.length + 1) atsvrInputBuffMaxSize start with
      | .refused code => .returned code
      | .overrun => .overrun
      | .again scan | .finished scan =>
          atsvcCommandHandle rom env (scan.argv.map (CString.startingAt scan.inbuf)) := rfl
  rw [reply_eq]
  cases ended : scanLoop (line.length + 1) atsvrInputBuffMaxSize start with
  | again scan => simp [ended, Turn.Gives] at gives
  | overrun =>
      rw [ended] at gives
      cases scanned : scanBytes noTokens line with
      | overrun => rfl
      | refused code | finished strings => simp [scanned, Turn.Gives] at gives
  | refused code =>
      rw [ended] at gives
      cases scanned : scanBytes noTokens line with
      | overrun => simp [scanned, Turn.Gives] at gives
      | refused code' =>
          rw [scanned] at gives
          exact congrArg Reply.returned gives
      | finished strings => simp [scanned, Turn.Gives] at gives
  | finished scan =>
      rw [ended] at gives
      cases scanned : scanBytes noTokens line with
      | overrun | refused code => simp [scanned, Turn.Gives] at gives
      | finished strings =>
          rw [scanned] at gives
          refine ⟨scan.argv.map (CString.startingAt scan.inbuf), ?_, rfl⟩
          rw [List.map_map]
          exact gives

theorem map_bytes_injective {first second : List CString}
    (same : first.map CString.bytes = second.map CString.bytes) : first = second :=
  List.map_injective_iff.mpr (fun _ _ => CString.ext) same

theorem atsvcCommandHandle_called {rom : CommandRom} {env : AtsvrEnv} {argv argv' : List CString}
    {command : ℕ} (called : atsvcCommandHandle rom env argv = .called command argv') :
    argv = argv' := by
  rw [atsvcCommandHandle.eq_def] at called
  split at called
  next => simp at called
  next =>
      split at called
      next => simp at called
      next => simp at called
      next =>
          split at called
          next => simp at called
          next => exact (Reply.called.inj called).2

/-- For a command that its name finds and at most fifteen non-empty arguments, the escaped line
calls the command with its name and exactly these arguments if and only if there is an argument and
neither the name nor any argument begins with a special byte. -/
theorem atsvrHandleInput_encodeLine_iff (rom : CommandRom) (env : AtsvrEnv) (name : CString)
    (args : List CString) (stale : List UInt8) {command : ℕ}
    (found : atsvrLookupAtCommand rom env name ((name.strchr dot).getD 0) = .ok (some command))
    (callable : (rom command).function ≠ none) (few : args.length ≤ 15)
    (fits : (encodeLine name args).length + 1 ≤ atsvrInputBuffMaxSize) :
    atsvrHandleInput rom env (encodeLine name args ++ 0 :: stale)
        ((encodeLine name args).length + 1) = .called command (name :: args) ↔
      OpensPlain name ∧ args ≠ [] ∧ ∀ arg ∈ args, OpensPlain arg := by
  have few_args : args.length < atsvrMaxArg := Nat.lt_succ_of_le few
  have reply := atsvrHandleInput_eq rom env (noNul_encodeLine name args) fits stale
  constructor
  · intro called
    cases scanned : scanBytes noTokens (encodeLine name args) with
    | overrun | refused code => simp [scanned, called] at reply
    | finished strings =>
        rw [scanned] at reply
        obtain ⟨argv, strings_eq, handled⟩ := reply
        obtain ⟨kept_eq, nonempty⟩ := kept_of_scanBytes_encodeLine few_args scanned
        have argv_eq := atsvcCommandHandle_called (handled.symm.trans called)
        rw [argv_eq, kept_eq] at strings_eq
        have plain := opensPlain_of_keptArgs strings_eq.symm
        exact ⟨plain name List.mem_cons_self, nonempty,
          fun arg member => plain arg (List.mem_cons_of_mem name member)⟩
  · rintro ⟨name_plain, nonempty, plain⟩
    rw [scanBytes_encodeLine_plain few_args name_plain nonempty plain] at reply
    obtain ⟨argv, strings_eq, handled⟩ := reply
    rw [handled, map_bytes_injective strings_eq, atsvcCommandHandle, found]
    simp [callable]

/-- The table with the first of two demonstration commands registered. -/
def demoEnv : AtsvrEnv := (atsvrRegisterCommand twoCommands atsvrDefConfig 0).1

/-- A two-byte argument for demonstrations. -/
def demoArg (first second : UInt8) (first_ne : first ≠ 0) (second_ne : second ≠ 0) : CString where
  bytes := [first, second]
  noNul := by simp [first_ne.symm, second_ne.symm]

theorem encodeLine_called_demo :
    atsvrHandleInput twoCommands demoEnv
        (encodeLine (atName 0x31 (by decide)) [demoArg 0x78 equals (by decide) (by decide)] ++
          [0])
        ((encodeLine (atName 0x31 (by decide))
          [demoArg 0x78 equals (by decide) (by decide)]).length + 1) =
      .called 0 [atName 0x31 (by decide), demoArg 0x78 equals (by decide) (by decide)] := by
  refine (atsvrHandleInput_encodeLine_iff twoCommands demoEnv (atName 0x31 (by decide))
    [demoArg 0x78 equals (by decide) (by decide)] [] (by decide) (by decide) (by decide)
    (by decide)).mpr ⟨⟨0x41, [0x54, 0x31], rfl, by decide⟩, by simp, ?_⟩
  intro arg member
  rw [List.mem_singleton.mp member]
  exact ⟨0x78, [equals], rfl, by decide⟩

/-- The argument `=x` comes back as `x`: its escaped first byte does not open the argument. -/
theorem escaped_first_byte_lost :
    ¬ ∀ (rom : CommandRom) (env : AtsvrEnv) (name : CString) (args : List CString) (command : ℕ),
      atsvrLookupAtCommand rom env name ((name.strchr dot).getD 0) = .ok (some command) →
        (rom command).function ≠ none → args.length ≤ 15 → args ≠ [] →
          (∀ arg ∈ args, arg.bytes ≠ []) →
            (encodeLine name args).length + 1 ≤ atsvrInputBuffMaxSize →
              atsvrHandleInput rom env (encodeLine name args ++ [0])
                  ((encodeLine name args).length + 1) = .called command (name :: args) := by
  intro round_trip
  have called := round_trip twoCommands demoEnv (atName 0x31 (by decide))
    [demoArg equals 0x78 (by decide) (by decide)] 0 (by decide) (by decide) (by decide)
    (by decide) (by decide) (by decide)
  exact absurd called (by decide +kernel)

end BdkFreertos.AtServer
