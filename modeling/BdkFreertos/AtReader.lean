import BdkFreertos.AtInput

/-!
# The line reader of the AT server

Received bytes wait in the buffer of the serial port.  Every receive interrupt raises a semaphore;
for each count of it the message thread reads bytes into its line buffer until the port has no more
or a call of `atsvr_msg_get_input` returns zero, handing over a line or replying an error in
between.  Interrupts may come at any moment of this.
-/

namespace BdkFreertos.AtServer

def atsvrRetChar : UInt8 := 0x0d

def atsvrEndChar : UInt8 := 0x0a

/-- The byte `A`. -/
def headFirst : UInt8 := 0x41

/-- The byte `T`. -/
def headSecond : UInt8 := 0x54

def rxRbLength : ℕ := 128

/-- The largest count of `at_rx_sema`. -/
def atRxSemaMax : ℕ := 32

/-- Where the loop of `atsvr_msg_main` stands. -/
inductive Phase
  /-- Before the semaphore. -/
  | waiting
  /-- Before a call of `atsvr_msg_get_input`. -/
  | entering
  /-- In the loop of that call. -/
  | reading
  deriving DecidableEq

/-- The receiving side of the port and of the message thread. -/
structure Port where
  uartOverflow : Bool
  /-- The count of `at_rx_sema`. -/
  atRxSema : ℕ
  /-- Received bytes that have not been read. -/
  fifo : List UInt8
  rxbuf : List UInt8
  bp : ℕ
  /-- Whether the echo mode is not `ATSVR_ECHO_NONE`. -/
  echo : Bool
  phase : Phase

/-- What the thread hands over or replies. -/
inductive Output
  /-- A line, with its terminator, for the parser. -/
  | line (msg : List UInt8)
  /-- The bytes of a wrong head, sent back. -/
  | echo (msg : List UInt8)
  /-- `ATSVR_CMDMSG_ERROR_RSP`. -/
  | error
  /-- `ATSVR_INPUT_MSG_OVERFLOW`. -/
  | overflow
  deriving DecidableEq

/-- The state when the thread enters its loop; the echo mode is `ATSVR_ECHO_DEFAULT`. -/
def portInit : Port where
  uartOverflow := false
  atRxSema := 0
  fifo := []
  rxbuf := List.replicate atsvrInputBuffMaxSize 0
  bp := 0
  echo := true
  phase := .waiting

def isEnd (c : UInt8) : Bool := c = atsvrRetChar || c = atsvrEndChar

/-- The echo of a wrong head: two bytes are written behind what has been read, and all sent. -/
def echoHead (port : Port) : Port × List Output :=
  if port.echo then
    let rxbuf := (port.rxbuf.set (port.bp + 1) atsvrRetChar).set (port.bp + 2) atsvrEndChar
    ({ port with rxbuf := rxbuf, bp := 0 }, [.echo (rxbuf.take (port.bp + 3))])
  else
    ({ port with bp := 0 }, [])

/-- The body of the loop of `atsvr_msg_get_input` for a byte just read; a code is returned when the
loop is left. -/
def msgGetInputByte (port : Port) (c : UInt8) : Port × List Output × Option ℤ :=
  let port := { port with rxbuf := port.rxbuf.set port.bp c }
  if isEnd c then
    if port.bp ≥ 2 then
      ({ port with rxbuf := port.rxbuf.set port.bp 0, bp := port.bp + 1 }, [], some 1)
    else if port.bp = 0 then
      (port, [], none)
    else
      ({ port with bp := 0 }, [], some (-1))
  else if port.bp = 0 ∧ c ≠ headFirst ∨ port.bp = 1 ∧ c ≠ headSecond then
    ((echoHead port).1, (echoHead port).2, some (-1))
  else if c = 0 then
    ({ port with bp := port.bp + 1 }, [], some (-1))
  else if port.bp + 1 ≥ atsvrInputBuffMaxSize then
    ({ port with bp := 0 }, [.overflow], some 0)
  else
    ({ port with bp := port.bp + 1 }, [], none)

/-- The start of a call of `atsvr_msg_get_input`: an overrun of the port clears it. -/
def msgGetInputStart (port : Port) : Port × List Output × Option ℤ :=
  if port.uartOverflow then
    ({ port with fifo := port.fifo.drop rxRbLength, uartOverflow := false, bp := 0 },
      [.overflow], some (-10))
  else
    (port, [], none)

section Reader

-- The echo mode after the parser has handled a line: a command of the line may set it.
variable (echoAfter : Bool → List UInt8 → Bool)

/-- What `atsvr_msg_main` does with the result of a call. -/
def msgMainResult (port : Port) (out : List Output) : Option ℤ → Port × List Output
  | none => ({ port with phase := .reading }, out)
  | some code =>
      if code = 1 then
        ({ port with
           bp := 0
           echo := echoAfter port.echo (port.rxbuf.take port.bp)
           phase := .entering }, out ++ [.line (port.rxbuf.take port.bp)])
      else if code ≤ -1 then
        ({ port with bp := 0, phase := .entering }, out ++ [.error])
      else if code ≠ 0 then
        ({ port with bp := 0, phase := .waiting }, out)
      else
        ({ port with phase := .waiting }, out)

/-- One step of the thread: take the semaphore, start a call, or read a byte. -/
def msgMainTurn (port : Port) : Port × List Output :=
  match port.phase with
  | .waiting =>
      if port.atRxSema = 0 then (port, [])
      else ({ port with atRxSema := port.atRxSema - 1, phase := .entering }, [])
  | .entering =>
      let result := msgGetInputStart port
      msgMainResult echoAfter result.1 result.2.1 result.2.2
  | .reading =>
      match port.fifo with
      | [] => msgMainResult echoAfter port [] (some 0)
      | c :: rest =>
          let result := msgGetInputByte { port with fifo := rest } c
          msgMainResult echoAfter result.1 result.2.1 result.2.2

/-- A receive interrupt with a chunk of bytes, or a step of the thread. -/
inductive ReaderEvent
  | receive (chunk : List UInt8)
  | turn

/-- The reader with its interrupts. -/
def atsvrMsgMain : Machine Port ReaderEvent (List Output) where
  step port
    | .receive chunk =>
        ({ port with
           fifo := port.fifo ++ chunk
           atRxSema := min (port.atRxSema + 1) atRxSemaMax }, [])
    | .turn => msgMainTurn echoAfter port

/-! ## One byte after the other -/

/-- The bytes of the line being read after one more byte, with the lines and errors it gives. -/
def lineByte (line : List UInt8) (c : UInt8) : List UInt8 × List Output :=
  if isEnd c then
    if line.length ≥ 2 then
      ([], [.line (line ++ [0])])
    else if line.length = 0 then
      ([], [])
    else
      ([], [.error])
  else if line.length = 0 ∧ c ≠ headFirst ∨ line.length = 1 ∧ c ≠ headSecond then
    ([], [.error])
  else if c = 0 then
    ([], [.error])
  else if line.length + 1 ≥ atsvrInputBuffMaxSize then
    ([], [.overflow])
  else
    (line ++ [c], [])

def lineReader : Machine (List UInt8) UInt8 (List Output) where
  step := lineByte

/-- The lines and errors a stream gives behind the bytes of an unfinished line. -/
def readsFrom (line bytes : List UInt8) : List Output := (lineReader.outputs line bytes).flatten

def Overruns (line : List UInt8) (c : UInt8) : Prop :=
  line.length + 1 ≥ atsvrInputBuffMaxSize ∧ isEnd c = false ∧ c ≠ 0

def Overran (bytes : List UInt8) : Prop :=
  ∃ front c, bytes = front ++ [c] ∧ Overruns (lineReader.run [] front) c

/-- The port's buffer holds the bytes of an unfinished line. -/
structure Holds (line : List UInt8) (port : Port) : Prop where
  size : port.rxbuf.length = atsvrInputBuffMaxSize
  bp : port.bp = line.length
  room : line.length < atsvrInputBuffMaxSize
  content : port.rxbuf.take port.bp = line
  uartOverflow : port.uartOverflow = false

/-- Lines and errors, without the echoes. -/
def replies (outputs : List Output) : List Output :=
  outputs.filter fun output => match output with
    | .echo _ => false
    | _ => true

theorem replies_append (first second : List Output) :
    replies (first ++ second) = replies first ++ replies second := List.filter_append ..

theorem readsFrom_append (line front back : List UInt8) :
    readsFrom line (front ++ back) =
      readsFrom line front ++ readsFrom (lineReader.run line front) back := by
  simp [readsFrom, Machine.outputs_append]

theorem readsFrom_cons (line : List UInt8) (c : UInt8) (bytes : List UInt8) :
    readsFrom line (c :: bytes) =
      (lineByte line c).2 ++ readsFrom (lineByte line c).1 bytes := rfl

variable {c : UInt8} {port port' : Port} (events : List ReaderEvent)

theorem Holds.congr {line : List UInt8} (holds : Holds line port) (rxbuf : port'.rxbuf = port.rxbuf)
    (bp : port'.bp = port.bp) (uartOverflow : port'.uartOverflow = port.uartOverflow) :
    Holds line port' where
  size := by rw [rxbuf, holds.size]
  bp := bp.trans holds.bp
  room := holds.room
  content := by rw [rxbuf, bp, holds.content]
  uartOverflow := uartOverflow.trans holds.uartOverflow

theorem Holds.reset {line : List UInt8} (holds : Holds line port)
    (size : port'.rxbuf.length = port.rxbuf.length) (bp : port'.bp = 0)
    (uartOverflow : port'.uartOverflow = port.uartOverflow) : Holds [] port' where
  size := size.trans holds.size
  bp := bp
  room := by decide
  content := by simp [bp]
  uartOverflow := uartOverflow.trans holds.uartOverflow

theorem take_set_succ {buffer : List UInt8} {position : ℕ} (inside : position < buffer.length)
    (c : UInt8) : (buffer.set position c).take (position + 1) = buffer.take position ++ [c] := by
  simp [List.take_add_one, List.take_set_of_le, inside]

theorem echoHead_spec (port : Port) :
    (echoHead port).1.bp = 0 ∧ (echoHead port).1.rxbuf.length = port.rxbuf.length ∧
      (echoHead port).1.uartOverflow = port.uartOverflow ∧
        (echoHead port).1.fifo = port.fifo ∧ (echoHead port).1.atRxSema = port.atRxSema ∧
          replies (echoHead port).2 = [] := by
  rw [echoHead]
  split <;> simp [replies]

/-- What reading a byte must have done to the port and the replies. -/
structure ReadByte (line : List UInt8) (c : UInt8) (port : Port) (after : Port × List Output) :
    Prop where
  holds : Holds (lineByte line c).1 after.1
  replied : replies after.2 = (lineByte line c).2
  fifo : after.1.fifo = port.fifo
  sema : after.1.atRxSema = port.atRxSema
  waiting : after.1.phase = .waiting ↔ Overruns line c

section

variable {line : List UInt8} (holds : Holds line port)
include holds

/-- The byte ends what has been read, and the thread starts again at the front of its buffer. -/
theorem Holds.readByte_of_reset {after : Port × List Output} {reply : List Output}
    (read : lineByte line c = ([], reply)) (replied : replies after.2 = reply)
    (size : after.1.rxbuf.length = port.rxbuf.length) (bp : after.1.bp = 0)
    (uartOverflow : after.1.uartOverflow = port.uartOverflow) (fifo : after.1.fifo = port.fifo)
    (sema : after.1.atRxSema = port.atRxSema)
    (waiting : after.1.phase = .waiting ↔ Overruns line c) :
    ReadByte line c port after where
  holds := by
    rw [read]
    exact holds.reset size bp uartOverflow
  replied := by rw [read, replied]
  fifo := fifo
  sema := sema
  waiting := waiting

theorem readByte_end (ends : isEnd c = true) :
    ReadByte line c port (msgMainResult echoAfter (msgGetInputByte port c).1
      (msgGetInputByte port c).2.1 (msgGetInputByte port c).2.2) := by
  have bp := holds.bp
  have no_overrun : ¬ Overruns line c := by simp [Overruns, ends]
  by_cases long : line.length ≥ 2
  · have got : msgGetInputByte port c =
        ({ port with rxbuf := (port.rxbuf.set port.bp c).set port.bp 0, bp := port.bp + 1 },
          [], some 1) := by
      simp [msgGetInputByte, ends, bp, long]
    have read : lineByte line c = ([], [.line (line ++ [0])]) := by
      simp [lineByte, ends, long]
    have inside : port.bp < port.rxbuf.length := by
      rw [bp, holds.size]
      exact holds.room
    have text : (port.rxbuf.set port.bp 0).take (port.bp + 1) = line ++ [0] := by
      rw [take_set_succ inside, holds.content]
    rw [got]
    refine holds.readByte_of_reset read ?_ ?_ rfl rfl rfl rfl ?_
    · simp [msgMainResult, replies, text]
    · simp [msgMainResult]
    · simp [msgMainResult, no_overrun]
  · by_cases empty : line.length = 0
    · have got : msgGetInputByte port c =
          ({ port with rxbuf := port.rxbuf.set port.bp c }, [], none) := by
        simp [msgGetInputByte, ends, bp, empty]
      have read : lineByte line c = ([], []) := by
        simp [lineByte, ends, empty]
      rw [got]
      refine holds.readByte_of_reset read rfl ?_ (bp.trans empty) rfl rfl rfl ?_
      · simp [msgMainResult]
      · simp [msgMainResult, no_overrun]
    · have got : msgGetInputByte port c =
          ({ port with rxbuf := port.rxbuf.set port.bp c, bp := 0 }, [], some (-1)) := by
        simp [msgGetInputByte, ends, bp, long, empty]
      have read : lineByte line c = ([], [.error]) := by
        simp [lineByte, ends, long, empty]
      rw [got]
      refine holds.readByte_of_reset read rfl ?_ rfl rfl rfl rfl ?_
      · simp [msgMainResult]
      · simp [msgMainResult, no_overrun]

theorem readByte_wrong_head (ends : ¬ isEnd c = true)
    (wrong_head : line.length = 0 ∧ c ≠ headFirst ∨ line.length = 1 ∧ c ≠ headSecond) :
    ReadByte line c port (msgMainResult echoAfter (msgGetInputByte port c).1
      (msgGetInputByte port c).2.1 (msgGetInputByte port c).2.2) := by
  have no_overrun : ¬ Overruns line c := by
    intro overruns
    have long := overruns.1
    simp only [atsvrInputBuffMaxSize] at long
    omega
  have got : msgGetInputByte port c =
      ((echoHead { port with rxbuf := port.rxbuf.set port.bp c }).1,
        (echoHead { port with rxbuf := port.rxbuf.set port.bp c }).2, some (-1)) := by
    simp only [msgGetInputByte, ends, holds.bp, wrong_head, if_true]
    rfl
  have read : lineByte line c = ([], [.error]) := by
    rw [lineByte, if_neg ends, if_pos wrong_head]
  obtain ⟨-, size, overflow, fifo, sema, no_reply⟩ :=
    echoHead_spec { port with rxbuf := port.rxbuf.set port.bp c }
  rw [got]
  refine holds.readByte_of_reset read ?_ (size.trans (by simp)) rfl overflow fifo sema ?_
  · refine (replies_append _ [.error]).trans ?_
    rw [no_reply]
    rfl
  · simp [msgMainResult, no_overrun]

theorem readByte_text (ends : ¬ isEnd c = true)
    (right_head : ¬ (line.length = 0 ∧ c ≠ headFirst ∨ line.length = 1 ∧ c ≠ headSecond)) :
    ReadByte line c port (msgMainResult echoAfter (msgGetInputByte port c).1
      (msgGetInputByte port c).2.1 (msgGetInputByte port c).2.2) := by
  have bp := holds.bp
  have head_ok : ¬ (port.bp = 0 ∧ c ≠ headFirst ∨ port.bp = 1 ∧ c ≠ headSecond) := by
    rw [bp]
    exact right_head
  by_cases nul : c = 0
  · have no_overrun : ¬ Overruns line c := by simp [Overruns, nul]
    have got : msgGetInputByte port c =
        ({ port with rxbuf := port.rxbuf.set port.bp c, bp := port.bp + 1 }, [], some (-1)) := by
      rw [msgGetInputByte]
      dsimp only
      rw [if_neg ends, if_neg head_ok, if_pos nul]
    have read : lineByte line c = ([], [.error]) := by
      rw [lineByte, if_neg ends, if_neg right_head, if_pos nul]
    rw [got]
    refine holds.readByte_of_reset read rfl ?_ rfl rfl rfl rfl ?_
    · simp [msgMainResult]
    · simp [msgMainResult, no_overrun]
  by_cases full : line.length + 1 ≥ atsvrInputBuffMaxSize
  · have full_bp : port.bp + 1 ≥ atsvrInputBuffMaxSize := by
      rw [bp]
      exact full
    have got : msgGetInputByte port c =
        ({ port with rxbuf := port.rxbuf.set port.bp c, bp := 0 }, [.overflow], some 0) := by
      rw [msgGetInputByte]
      dsimp only
      rw [if_neg ends, if_neg head_ok, if_neg nul, if_pos full_bp]
    have read : lineByte line c = ([], [.overflow]) := by
      rw [lineByte, if_neg ends, if_neg right_head, if_neg nul, if_pos full]
    have ends_false : isEnd c = false := by simpa using ends
    rw [got]
    refine holds.readByte_of_reset read rfl ?_ rfl rfl rfl rfl ?_
    · simp [msgMainResult]
    · exact iff_of_true rfl ⟨full, ends_false, nul⟩
  · have full_bp : ¬ port.bp + 1 ≥ atsvrInputBuffMaxSize := by
      rw [bp]
      exact full
    have no_overrun : ¬ Overruns line c := fun overruns => full overruns.1
    have inside : port.bp < port.rxbuf.length := by
      rw [bp, holds.size]
      exact holds.room
    have got : msgGetInputByte port c =
        ({ port with rxbuf := port.rxbuf.set port.bp c, bp := port.bp + 1 }, [], none) := by
      rw [msgGetInputByte]
      dsimp only
      rw [if_neg ends, if_neg head_ok, if_neg nul, if_neg full_bp]
    have read : lineByte line c = (line ++ [c], []) := by
      rw [lineByte, if_neg ends, if_neg right_head, if_neg nul, if_neg full]
    rw [got]
    constructor
    · rw [read]
      exact
        { size := by simpa [msgMainResult] using holds.size
          bp := by simp [msgMainResult, bp]
          room := by
            rw [List.length_append, List.length_singleton]
            omega
          content := by
            simp only [msgMainResult]
            rw [take_set_succ inside, holds.content]
          uartOverflow := holds.uartOverflow }
    · rw [read]
      rfl
    · rfl
    · rfl
    · simp [msgMainResult, no_overrun]

theorem readByte_msgGetInputByte (c : UInt8) :
    ReadByte line c port (msgMainResult echoAfter (msgGetInputByte port c).1
      (msgGetInputByte port c).2.1 (msgGetInputByte port c).2.2) := by
  by_cases ends : isEnd c = true
  · exact readByte_end echoAfter holds ends
  by_cases wrong_head : line.length = 0 ∧ c ≠ headFirst ∨ line.length = 1 ∧ c ≠ headSecond
  · exact readByte_wrong_head echoAfter holds ends wrong_head
  · exact readByte_text echoAfter holds ends wrong_head

end

/-! ## Every schedule -/

/-- The bytes of the receive interrupts, in order. -/
def receivedBytes (events : List ReaderEvent) : List UInt8 :=
  events.flatMap fun event => match event with
    | .receive chunk => chunk
    | .turn => []

def Quiet (port : Port) : Prop := port.phase = .waiting ∧ port.atRxSema = 0

/-- How far the thread is with the received bytes, and what it has replied. -/
structure Tracks (received : List UInt8) (replied : List Output) (port : Port)
    (consumed : List UInt8) : Prop where
  split : received = consumed ++ port.fifo
  holds : Holds (lineReader.run [] consumed) port
  replied : replied = readsFrom [] consumed
  idle : Quiet port → port.fifo = [] ∨ Overran consumed

theorem tracks_init : Tracks [] [] portInit [] where
  split := rfl
  holds :=
    { size := by simp [portInit]
      bp := rfl
      room := by decide
      content := rfl
      uartOverflow := rfl }
  replied := rfl
  idle := fun _ => .inl rfl

section Step

variable {received consumed : List UInt8} {replied : List Output} {port : Port}

theorem Tracks.receive (tracks : Tracks received replied port consumed) (chunk : List UInt8) :
    Tracks (received ++ chunk) replied ((atsvrMsgMain echoAfter).step port (.receive chunk)).1
      consumed where
  split := by simp [atsvrMsgMain, tracks.split]
  holds := tracks.holds.congr rfl rfl rfl
  replied := tracks.replied
  idle := by
    rintro ⟨-, no_count⟩
    simp [atsvrMsgMain, atRxSemaMax] at no_count

theorem Tracks.read {c : UInt8} {rest : List UInt8} (tracks : Tracks received replied port consumed)
    (phase : port.phase = .reading) (fifo : port.fifo = c :: rest) :
    ReadByte (lineReader.run [] consumed) c { port with fifo := rest }
        (msgMainTurn echoAfter port) ∧
      Tracks received (replied ++ replies (msgMainTurn echoAfter port).2)
        (msgMainTurn echoAfter port).1 (consumed ++ [c]) := by
  have holds : Holds (lineReader.run [] consumed) { port with fifo := rest } :=
    tracks.holds.congr rfl rfl rfl
  have turn : msgMainTurn echoAfter port =
      msgMainResult echoAfter (msgGetInputByte { port with fifo := rest } c).1
        (msgGetInputByte { port with fifo := rest } c).2.1
        (msgGetInputByte { port with fifo := rest } c).2.2 := by
    simp [msgMainTurn, phase, fifo]
  have read := readByte_msgGetInputByte echoAfter holds c
  rw [← turn] at read
  refine ⟨read, ?_⟩
  constructor
  · rw [read.fifo, tracks.split, fifo]
    simp
  · rw [Machine.run_append]
    exact read.holds
  · rw [tracks.replied, read.replied, readsFrom_append]
    simp [readsFrom, lineReader]
  · rintro ⟨waiting, -⟩
    exact .inr ⟨consumed, c, rfl, read.waiting.mp waiting⟩

theorem Tracks.rephase (tracks : Tracks received replied port consumed) {sema : ℕ} {phase : Phase}
    (idle : phase = .waiting → sema = 0 → port.fifo = [] ∨ Overran consumed) :
    Tracks received replied { port with atRxSema := sema, phase := phase } consumed where
  split := tracks.split
  holds := tracks.holds.congr rfl rfl rfl
  replied := tracks.replied
  idle := fun quiet => idle quiet.1 quiet.2

theorem msgMainTurn_entering (phase : port.phase = .entering)
    (uartOverflow : port.uartOverflow = false) :
    msgMainTurn echoAfter port = ({ port with phase := .reading }, []) := by
  simp [msgMainTurn, phase, msgGetInputStart, uartOverflow, msgMainResult]

theorem msgMainTurn_empty (phase : port.phase = .reading) (fifo : port.fifo = []) :
    msgMainTurn echoAfter port = ({ port with phase := .waiting }, []) := by
  simp [msgMainTurn, phase, fifo, msgMainResult]

theorem Tracks.turn (tracks : Tracks received replied port consumed) :
    ∃ consumed', Tracks received (replied ++ replies (msgMainTurn echoAfter port).2)
      (msgMainTurn echoAfter port).1 consumed' := by
  have no_reply : replied ++ replies [] = replied := List.append_nil replied
  cases phase : port.phase with
  | waiting =>
      refine ⟨consumed, ?_⟩
      by_cases no_count : port.atRxSema = 0
      · have turn : msgMainTurn echoAfter port = (port, []) := by
          simp [msgMainTurn, phase, no_count]
        rw [turn, no_reply]
        exact tracks
      · have turn : msgMainTurn echoAfter port =
            ({ port with atRxSema := port.atRxSema - 1, phase := .entering }, []) := by
          simp [msgMainTurn, phase, no_count]
        rw [turn, no_reply]
        refine tracks.rephase ?_
        intro waiting
        contradiction
  | entering =>
      refine ⟨consumed, ?_⟩
      rw [msgMainTurn_entering echoAfter phase tracks.holds.uartOverflow, no_reply]
      refine tracks.rephase ?_
      intro waiting
      contradiction
  | reading =>
      cases fifo : port.fifo with
      | nil =>
          refine ⟨consumed, ?_⟩
          rw [msgMainTurn_empty echoAfter phase fifo, no_reply]
          exact tracks.rephase fun _ _ => .inl fifo
      | cons c rest => exact ⟨consumed ++ [c], (tracks.read echoAfter phase fifo).2⟩

end Step

/-- After every schedule the thread has read some of the received bytes and has replied what they
give one after the other. -/
theorem tracks_run :
    ∃ consumed, Tracks (receivedBytes events)
      (replies ((atsvrMsgMain echoAfter).outputs portInit events).flatten)
      ((atsvrMsgMain echoAfter).run portInit events) consumed := by
  refine (atsvrMsgMain echoAfter).history_induction (fun _ _ => True)
    (fun events outputs port => ∃ consumed,
      Tracks (receivedBytes events) (replies outputs.flatten) port consumed)
    ⟨[], tracks_init⟩ ?_
    ((atsvrMsgMain echoAfter).always_of_forall (fun _ => True) portInit fun _ _ => trivial)
  rintro events outputs port event ⟨consumed, tracks⟩ -
  cases event with
  | receive chunk =>
      refine ⟨consumed, ?_⟩
      have next := tracks.receive echoAfter chunk
      simpa [receivedBytes, atsvrMsgMain] using next
  | turn =>
      obtain ⟨consumed', next⟩ := tracks.turn echoAfter
      refine ⟨consumed', ?_⟩
      simpa [receivedBytes, atsvrMsgMain, replies_append] using next

theorem bp_lt_run : ((atsvrMsgMain echoAfter).run portInit events).bp < atsvrInputBuffMaxSize := by
  obtain ⟨consumed, tracks⟩ := tracks_run echoAfter events
  rw [tracks.holds.bp]
  exact tracks.holds.room

end Reader
end BdkFreertos.AtServer
