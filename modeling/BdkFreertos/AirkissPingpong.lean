import BdkFreertos.BoundedFifo
import Mathlib.Data.Vector.Basic
import Mathlib.Logic.Function.Basic

/-!
# The ping-pong buffer of Airkiss

`read_from_pingpong_buf` statement by statement, and byte by byte where it copies, with a complete
`write_to_pingpong_buf` between any two steps: writes run with interrupts disabled.  The enable flags
of the two slots, the two current pointers and the two deferred switches encode a queue of at most two
frames.
-/

namespace BdkFreertos.AirkissPingpong

/-- `BUF_LEN`, which is `AIRKISS_MIN_RX_BUF_SIZE`. -/
def bufLen : ℕ := 24

/-- The two buffers. -/
inductive Slot
  | buf1
  | buf2
  deriving DecidableEq

/-- `next_buf_addr`. -/
def Slot.next : Slot → Slot
  | .buf1 => .buf2
  | .buf2 => .buf1

/-- `struct buff_str` without its link. -/
structure BuffStr where
  addr : Vector UInt8 24
  readEnable : Bool
  writeEnable : Bool
  length : ℕ
  offset : ℕ
  actual : UInt32
  deriving DecidableEq

/-- `struct pingpong_buffer`. -/
structure PingpongBuffer where
  buf : Slot → BuffStr
  currentRead : Slot
  readSwitch : Bool
  currentWrite : Slot
  writeSwitch : Bool

/-- `pingpong_init`, on memory with any contents. -/
def pingpongInit (mem : Slot → Vector UInt8 24) : PingpongBuffer where
  buf slot :=
    { addr := mem slot
      readEnable := false
      writeEnable := true
      length := bufLen
      offset := 0
      actual := 0 }
  currentRead := .buf1
  readSwitch := false
  currentWrite := .buf1
  writeSwitch := false

def modifyBuf (pp : PingpongBuffer) (slot : Slot) (change : BuffStr → BuffStr) : PingpongBuffer :=
  { pp with buf := Function.update pp.buf slot (change (pp.buf slot)) }

/-- `os_memcpy` of so many bytes to the front of a buffer. -/
def copyFront (addr source : Vector UInt8 24) (len : ℕ) : Vector UInt8 24 :=
  Vector.ofFn fun i => if i.val < len then source[i] else addr[i]

/-- `write_to_pingpong_buf`, with its result. -/
def writeToPingpongBuf (pp : PingpongBuffer) (bufUser : Vector UInt8 24) (count : ℕ)
    (actual : UInt32) : PingpongBuffer × ℕ :=
  let switched : PingpongBuffer :=
    if pp.writeSwitch then
      { pp with
        currentWrite := pp.currentWrite.next
        writeSwitch := false }
    else pp
  let buf := switched.currentWrite
  if (switched.buf buf).writeEnable then
    let written := modifyBuf switched buf fun slot =>
      { slot with
        addr := copyFront slot.addr bufUser (min bufLen count)
        actual := actual
        readEnable := true
        writeEnable := false }
    ({ written with writeSwitch := true }, bufLen)
  else
    (switched, 0)

/-- The statement `read_from_pingpong_buf` is in front of, with its local variables. -/
inductive Reader
  /-- Not in `read_from_pingpong_buf`. -/
  | idle
  /-- `if (pp_buf->read_switch)`. -/
  | entered
  /-- `pp_buf->current_read = pp_buf->current_read->next_buf_addr`. -/
  | switching
  /-- `pp_buf->read_switch = 0`. -/
  | switched
  /-- `buf = pp_buf->current_read`. -/
  | choosing
  /-- The section which tests `read_enable`. -/
  | testing (buf : Slot)
  /-- `len = min(count, buf->length - buf->offset)`. -/
  | measuring (buf : Slot)
  /-- `os_memcpy`, after so many bytes. -/
  | copying (buf : Slot) (len : ℕ) (bufUser : List UInt8)
  /-- `buf->offset += ret`. -/
  | moving (buf : Slot) (len : ℕ) (bufUser : List UInt8)
  /-- `*actual = buf->actual`. -/
  | reading (buf : Slot) (len : ℕ) (bufUser : List UInt8)
  /-- The section which releases the buffer. -/
  | releasing (buf : Slot) (len : ℕ) (bufUser : List UInt8) (actual : UInt32)
  deriving DecidableEq

/-- The buffer and the place of its reader. -/
structure State where
  pp : PingpongBuffer
  reader : Reader

/-- A frame with its own length. -/
structure Frame where
  data : List UInt8
  actual : UInt32
  deriving DecidableEq

/-- What happens next. -/
inductive Event
  /-- An interrupt writes a frame. -/
  | write (bufUser : Vector UInt8 24) (actual : UInt32)
  /-- The reading thread executes its next statement. -/
  | next

/-- What is seen of it. -/
inductive Output
  | silent
  /-- A write returned `BUF_LEN`. -/
  | accepted (frame : Frame)
  /-- A write returned 0. -/
  | refused (frame : Frame)
  /-- A read returned its bytes and the actual length. -/
  | returned (frame : Frame)
  | nothing
  deriving DecidableEq

/-- The next statement of `read_from_pingpong_buf`, called with a count. -/
def nextStatement (state : State) (count : ℕ) : State × Output :=
  let pp := state.pp
  match state.reader with
  | .idle => (⟨pp, .entered⟩, .silent)
  | .entered => (⟨pp, if pp.readSwitch then .switching else .choosing⟩, .silent)
  | .switching => (⟨{ pp with currentRead := pp.currentRead.next }, .switched⟩, .silent)
  | .switched => (⟨{ pp with readSwitch := false }, .choosing⟩, .silent)
  | .choosing => (⟨pp, .testing pp.currentRead⟩, .silent)
  | .testing buf =>
      if (pp.buf buf).readEnable then (⟨pp, .measuring buf⟩, .silent) else (⟨pp, .idle⟩, .nothing)
  | .measuring buf =>
      (⟨pp, .copying buf (min count ((pp.buf buf).length - (pp.buf buf).offset)) []⟩, .silent)
  | .copying buf len bufUser =>
      if bufUser.length < len then
        (⟨pp, .copying buf len (bufUser ++ [(pp.buf buf).addr.toList.getD bufUser.length 0])⟩,
          .silent)
      else
        (⟨pp, .moving buf len bufUser⟩, .silent)
  | .moving buf len bufUser =>
      (⟨modifyBuf pp buf fun slot => { slot with offset := slot.offset + len },
        .reading buf len bufUser⟩, .silent)
  | .reading buf len bufUser => (⟨pp, .releasing buf len bufUser (pp.buf buf).actual⟩, .silent)
  | .releasing buf _ bufUser actual =>
      let released := modifyBuf pp buf fun slot =>
        { slot with
          readEnable := false
          writeEnable := true
          offset := 0 }
      (⟨{ released with readSwitch := true }, .idle⟩, .returned ⟨bufUser, actual⟩)

/-- The reading thread and the writing interrupt; both pass `AIRKISS_MIN_RX_BUF_SIZE`. -/
def machine : Machine State Event Output where
  step state
    | .write bufUser actual =>
        let result := writeToPingpongBuf state.pp bufUser bufLen actual
        (⟨result.1, state.reader⟩,
          if result.2 = 0 then .refused ⟨bufUser.toList, actual⟩
          else .accepted ⟨bufUser.toList, actual⟩)
    | .next => nextStatement state bufLen

/-- The buffer after `pingpong_init`, with no read under way. -/
def start (mem : Slot → Vector UInt8 24) : State := ⟨pingpongInit mem, .idle⟩

/-! ## The queue that the flags encode -/

/-- The slot of the frame to be read next. -/
def readSlot (state : State) : Slot :=
  match state.reader with
  | .switched => state.pp.currentRead
  | _ => if state.pp.readSwitch then state.pp.currentRead.next else state.pp.currentRead

def writeSlot (pp : PingpongBuffer) : Slot :=
  if pp.writeSwitch then pp.currentWrite.next else pp.currentWrite

/-- A buffer holds an unread frame, or is free. -/
def BuffStr.Contains (buf : BuffStr) : Option Frame → Prop
  | some frame =>
      buf.readEnable = true ∧ buf.writeEnable = false ∧ buf.addr.toList = frame.data ∧
        buf.actual = frame.actual
  | none => buf.readEnable = false ∧ buf.writeEnable = true

/-- A read that has passed its test works on the oldest unread frame. -/
def ReaderOk (state : State) (oldest : Option Frame) : Prop :=
  match state.reader with
  | .switching => state.pp.readSwitch = true
  | .switched => state.pp.readSwitch = true
  | .choosing => state.pp.readSwitch = false
  | .testing buf => state.pp.readSwitch = false ∧ buf = state.pp.currentRead
  | .measuring buf => state.pp.readSwitch = false ∧ buf = state.pp.currentRead ∧ oldest.isSome
  | .copying buf len bufUser =>
      state.pp.readSwitch = false ∧ buf = state.pp.currentRead ∧ len = bufLen ∧
        ∃ frame, oldest = some frame ∧ bufUser = frame.data.take bufUser.length
  | .moving buf len bufUser | .reading buf len bufUser =>
      state.pp.readSwitch = false ∧ buf = state.pp.currentRead ∧ len = bufLen ∧
        ∃ frame, oldest = some frame ∧ bufUser = frame.data
  | .releasing buf len bufUser actual =>
      state.pp.readSwitch = false ∧ buf = state.pp.currentRead ∧ len = bufLen ∧
        oldest = some ⟨bufUser, actual⟩
  | _ => True

/-- The offset of a buffer is moved only by the read that is about to release it. -/
def offsetOf (state : State) (slot : Slot) : ℕ :=
  match state.reader with
  | .reading buf len _ | .releasing buf len _ _ => if slot = buf then len else 0
  | _ => 0

/-- The flags encode a queue: its frames are in the slots from the one to be read on, and the next
frame is written behind them. -/
structure Encodes (state : State) (queue : List Frame) : Prop where
  bounded : queue.length ≤ 2
  first : (state.pp.buf (readSlot state)).Contains queue[0]?
  second : (state.pp.buf (readSlot state).next).Contains queue[1]?
  place : writeSlot state.pp =
    if queue.length = 1 then (readSlot state).next else readSlot state
  length : ∀ slot, (state.pp.buf slot).length = bufLen
  offset : ∀ slot, (state.pp.buf slot).offset = offsetOf state slot
  reader : ReaderOk state queue[0]?

variable {state : State} {queue : List Frame} (pp : PingpongBuffer) (mem : Slot → Vector UInt8 24)
  (slot : Slot) (change : BuffStr → BuffStr)

theorem encodes_start : Encodes (start mem) [] where
  bounded := by decide
  first := ⟨rfl, rfl⟩
  second := ⟨rfl, rfl⟩
  place := rfl
  length _ := rfl
  offset _ := rfl
  reader := trivial

@[simp]
theorem Slot.next_next : slot.next.next = slot := by cases slot <;> rfl

@[simp]
theorem Slot.next_ne : slot.next ≠ slot := by cases slot <;> decide

@[simp]
theorem Slot.ne_next : slot ≠ slot.next := (Slot.next_ne slot).symm

theorem copyFront_bufLen (addr source : Vector UInt8 24) :
    copyFront addr source bufLen = source := by
  apply Vector.ext
  intro i inside
  rw [copyFront, Vector.getElem_ofFn]
  exact if_pos inside

theorem ReaderOk.append (ok : ReaderOk state queue[0]?) (frame : Frame) :
    ReaderOk state (queue ++ [frame])[0]? := by
  cases queue with
  | nil =>
      rw [ReaderOk] at ok ⊢
      split at ok <;> simp_all
  | cons oldest rest => exact ok

@[simp]
theorem modifyBuf_self : (modifyBuf pp slot change).buf slot = change (pp.buf slot) :=
  Function.update_self ..

@[simp]
theorem modifyBuf_of_ne {slot other : Slot} (apart : other ≠ slot) :
    (modifyBuf pp slot change).buf other = pp.buf other :=
  Function.update_of_ne apart ..

/-- A buffer with a frame written into it. -/
def BuffStr.fill (bufUser : Vector UInt8 24) (actual : UInt32) (buf : BuffStr) : BuffStr :=
  { buf with
    addr := bufUser
    actual := actual
    readEnable := true
    writeEnable := false }

theorem writeToPingpongBuf_eq (bufUser : Vector UInt8 24) (actual : UInt32) :
    writeToPingpongBuf pp bufUser bufLen actual =
      if (pp.buf (writeSlot pp)).writeEnable then
        ({ modifyBuf pp (writeSlot pp) (BuffStr.fill bufUser actual) with
            currentWrite := writeSlot pp
            writeSwitch := true }, bufLen)
      else
        ({ pp with
            currentWrite := writeSlot pp
            writeSwitch := false }, 0) := by
  obtain ⟨buf, currentRead, readSwitch, currentWrite, writeSwitch⟩ := pp
  cases writeSwitch <;>
    simp only [writeToPingpongBuf, writeSlot, modifyBuf, Nat.min_self, copyFront_bufLen] <;> rfl

namespace Encodes

variable {state : State} {queue : List Frame}

theorem write_accepted (encodes : Encodes state queue) (short : queue.length < 2)
    (bufUser : Vector UInt8 24) (actual : UInt32) :
    (writeToPingpongBuf state.pp bufUser bufLen actual).2 = bufLen ∧
      Encodes ⟨(writeToPingpongBuf state.pp bufUser bufLen actual).1, state.reader⟩
        (queue ++ [⟨bufUser.toList, actual⟩]) := by
  obtain ⟨-, first, second, place, length, offset, reader⟩ := encodes
  have kept (slot other : Slot) :
      ((modifyBuf state.pp slot (.fill bufUser actual)).buf other).length = bufLen ∧
        ((modifyBuf state.pp slot (.fill bufUser actual)).buf other).offset =
          offsetOf state other := by
    by_cases own : other = slot
    · subst own
      rw [modifyBuf_self]
      exact ⟨length other, offset other⟩
    · rw [modifyBuf_of_ne _ _ own]
      exact ⟨length other, offset other⟩
  have written (slot : Slot) :
      ((modifyBuf state.pp slot (.fill bufUser actual)).buf slot).Contains
        (some ⟨bufUser.toList, actual⟩) := by
    rw [modifyBuf_self]
    exact ⟨rfl, rfl, rfl, rfl⟩
  rw [writeToPingpongBuf_eq]
  match queue, short with
  | [], _ =>
      have at_first : writeSlot state.pp = readSlot state := place
      rw [at_first, if_pos first.2]
      refine ⟨rfl, by simp, ?_, ?_, rfl, fun other => (kept _ other).1,
        fun other => (kept _ other).2, reader.append _⟩
      · exact written (readSlot state)
      · show ((modifyBuf state.pp (readSlot state) _).buf (readSlot state).next).Contains _
        rw [modifyBuf_of_ne _ _ (Slot.next_ne _)]
        exact second
  | [oldest], _ =>
      have at_second : writeSlot state.pp = (readSlot state).next := place
      rw [at_second, if_pos second.2]
      refine ⟨rfl, by simp, ?_, ?_, ?_, fun other => (kept _ other).1,
        fun other => (kept _ other).2, reader.append _⟩
      · show ((modifyBuf state.pp (readSlot state).next _).buf (readSlot state)).Contains _
        rw [modifyBuf_of_ne _ _ (Slot.ne_next _)]
        exact first
      · exact written (readSlot state).next
      · exact Slot.next_next (readSlot state)

theorem write_refused (encodes : Encodes state queue) (full : queue.length = 2)
    (bufUser : Vector UInt8 24) (actual : UInt32) :
    (writeToPingpongBuf state.pp bufUser bufLen actual).2 = 0 ∧
      Encodes ⟨(writeToPingpongBuf state.pp bufUser bufLen actual).1, state.reader⟩ queue := by
  obtain ⟨bounded, first, second, place, length, offset, reader⟩ := encodes
  have at_first : writeSlot state.pp = readSlot state := by
    rw [place, if_neg (by omega)]
  have taken : (state.pp.buf (readSlot state)).writeEnable = false := by
    rw [List.getElem?_eq_getElem (by omega)] at first
    exact first.2.1
  rw [writeToPingpongBuf_eq, at_first, if_neg (by rw [taken]; decide)]
  refine ⟨rfl, bounded, first, second, ?_, length, offset, reader⟩
  rw [if_neg (by omega)]
  rfl

variable {pp : PingpongBuffer} {reader : Reader}

/-- A statement of the reader that changes only its place, and no slot it would read. -/
theorem move (encodes : Encodes state queue) (buf : pp.buf = state.pp.buf)
    (currentWrite : pp.currentWrite = state.pp.currentWrite)
    (writeSwitch : pp.writeSwitch = state.pp.writeSwitch)
    (same : readSlot ⟨pp, reader⟩ = readSlot state)
    (offsets : ∀ slot, offsetOf ⟨pp, reader⟩ slot = offsetOf state slot)
    (ok : ReaderOk ⟨pp, reader⟩ queue[0]?) : Encodes ⟨pp, reader⟩ queue where
  bounded := encodes.bounded
  first := by
    rw [same]
    simp only [buf]
    exact encodes.first
  second := by
    rw [same]
    simp only [buf]
    exact encodes.second
  place := by
    rw [same, ← encodes.place]
    simp [writeSlot, currentWrite, writeSwitch]
  length slot := by
    simp only [buf]
    exact encodes.length slot
  offset slot := by
    rw [offsets]
    simp only [buf]
    exact encodes.offset slot
  reader := ok

theorem oldest (encodes : Encodes state queue) {frame : Frame} (first : queue[0]? = some frame) :
    (state.pp.buf (readSlot state)).Contains (some frame) :=
  first ▸ encodes.first

/-- The effect of a statement of the reader: none, the discovery that nothing is unread, or the
release of the oldest frame. -/
inductive ReadEffect (queue : List Frame) : State × Output → Prop
  | silent (after : State) (encodes : Encodes after queue) : ReadEffect queue (after, .silent)
  | nothing (after : State) (empty : queue = []) (encodes : Encodes after queue) :
      ReadEffect queue (after, .nothing)
  | returned (after : State) (frame : Frame) (rest : List Frame) (oldest : queue = frame :: rest)
      (encodes : Encodes after rest) : ReadEffect queue (after, .returned frame)

/-- The encoding stated at the slot to be read. -/
theorem of_slot (slot : Slot) (same : readSlot ⟨pp, reader⟩ = slot) (bounded : queue.length ≤ 2)
    (first : (pp.buf slot).Contains queue[0]?) (second : (pp.buf slot.next).Contains queue[1]?)
    (place : writeSlot pp = if queue.length = 1 then slot.next else slot)
    (counts : ∀ other, (pp.buf other).length = bufLen ∧
      (pp.buf other).offset = offsetOf ⟨pp, reader⟩ other) (ok : ReaderOk ⟨pp, reader⟩ queue[0]?) :
    Encodes ⟨pp, reader⟩ queue := by
  subst same
  exact ⟨bounded, first, second, place, fun other => (counts other).1,
    fun other => (counts other).2, ok⟩

theorem readSlot_eq {buf : Slot} (switch : pp.readSwitch = false) (current : buf = pp.currentRead) :
    readSlot ⟨pp, reader⟩ = buf := by
  cases reader <;> simp [readSlot, switch, current]

theorem nextStatement_effect (encodes : Encodes state queue) :
    ReadEffect queue (nextStatement state bufLen) := by
  obtain ⟨pp, reader⟩ := state
  have ok := encodes.reader
  cases reader with
  | idle => exact .silent _ (encodes.move rfl rfl rfl rfl (fun _ => rfl) trivial)
  | entered =>
      refine .silent _ ?_
      cases switch : pp.readSwitch with
      | false | true =>
          refine encodes.move rfl rfl rfl ?_ (fun _ => rfl) switch
          rfl
  | switching =>
      have switch : pp.readSwitch = true := ok
      refine .silent _ (encodes.move rfl rfl rfl ?_ (fun _ => rfl) switch)
      simp [readSlot, if_pos switch]
  | switched => exact .silent _ (encodes.move rfl rfl rfl rfl (fun _ => rfl) rfl)
  | choosing => exact .silent _ (encodes.move rfl rfl rfl rfl (fun _ => rfl) ⟨ok, rfl⟩)
  | testing buf =>
      obtain ⟨switch, current⟩ : pp.readSwitch = false ∧ buf = pp.currentRead := ok
      have first := encodes.first
      rw [readSlot_eq switch current] at first
      simp only [nextStatement]
      cases queue with
      | nil =>
          rw [if_neg (by rw [first.1]; decide)]
          refine .nothing _ rfl (encodes.move rfl rfl rfl rfl (fun _ => rfl) trivial)
      | cons frame rest =>
          rw [if_pos first.1]
          exact .silent _ (encodes.move rfl rfl rfl rfl (fun _ => rfl) ⟨switch, current, rfl⟩)
  | measuring buf =>
      obtain ⟨switch, current, unread⟩ :
        pp.readSwitch = false ∧ buf = pp.currentRead ∧ queue[0]?.isSome := ok
      obtain ⟨frame, first⟩ := Option.isSome_iff_exists.mp unread
      have len : min bufLen ((pp.buf buf).length - (pp.buf buf).offset) = bufLen := by
        have length : (pp.buf buf).length = bufLen := encodes.length buf
        have offset : (pp.buf buf).offset = 0 := encodes.offset buf
        rw [length, offset, Nat.sub_zero, Nat.min_self]
      simp only [nextStatement, len]
      exact .silent _ (encodes.move rfl rfl rfl rfl (fun _ => rfl)
        ⟨switch, current, rfl, frame, first, rfl⟩)
  | copying buf len bufUser =>
      obtain ⟨switch, current, rfl, frame, first, copied⟩ :
        pp.readSwitch = false ∧ buf = pp.currentRead ∧ len = bufLen ∧
          ∃ frame : Frame, queue[0]? = some frame ∧
            bufUser = frame.data.take bufUser.length := ok
      have held := encodes.oldest first
      rw [readSlot_eq switch current] at held
      have length : frame.data.length = bufLen := by
        rw [← held.2.2.1, Vector.length_toList]
        rfl
      simp only [nextStatement]
      split
      next more =>
        refine .silent _ (encodes.move rfl rfl rfl rfl (fun _ => rfl)
          ⟨switch, current, rfl, frame, first, ?_⟩)
        rw [held.2.2.1, List.length_append, List.length_singleton, List.take_add_one, ← copied,
          List.getD_eq_getElem?_getD, List.getElem?_eq_getElem (by omega)]
        rfl
      next all =>
        refine .silent _ (encodes.move rfl rfl rfl rfl (fun _ => rfl)
          ⟨switch, current, rfl, frame, first, ?_⟩)
        rw [copied]
        exact List.take_of_length_le (by omega)
  | moving buf len bufUser =>
      obtain ⟨switch, current, rfl, frame, first, copied⟩ :
        pp.readSwitch = false ∧ buf = pp.currentRead ∧ len = bufLen ∧
          ∃ frame : Frame, queue[0]? = some frame ∧ bufUser = frame.data := ok
      have held := encodes.oldest first
      have same : readSlot ⟨pp, .moving buf bufLen bufUser⟩ = buf := readSlot_eq switch current
      obtain ⟨bounded, -, second, place, length, offset, -⟩ := encodes
      rw [same] at held second place
      refine .silent _ (of_slot buf (readSlot_eq switch current) bounded ?_ ?_ place
        (fun other => ?_) ⟨switch, current, rfl, frame, first, copied⟩)
      · rw [modifyBuf_self, first]
        exact held
      · rw [modifyBuf_of_ne _ _ (Slot.next_ne buf)]
        exact second
      · by_cases own : other = buf
        · subst own
          have zero : (pp.buf other).offset = 0 := offset other
          rw [modifyBuf_self]
          refine ⟨length other, ?_⟩
          simp [offsetOf, zero]
        · rw [modifyBuf_of_ne _ _ own]
          refine ⟨length other, ?_⟩
          simp only [offsetOf, if_neg own]
          exact offset other
  | reading buf len bufUser =>
      obtain ⟨switch, current, rfl, frame, first, copied⟩ :
        pp.readSwitch = false ∧ buf = pp.currentRead ∧ len = bufLen ∧
          ∃ frame : Frame, queue[0]? = some frame ∧ bufUser = frame.data := ok
      have held := encodes.oldest first
      rw [readSlot_eq switch current] at held
      have actual : (pp.buf buf).actual = frame.actual := held.2.2.2
      simp only [nextStatement, actual, copied]
      exact .silent _ (encodes.move rfl rfl rfl rfl (fun _ => rfl) ⟨switch, current, rfl, first⟩)
  | releasing buf len bufUser actual =>
      obtain ⟨switch, current, rfl, first⟩ :
        pp.readSwitch = false ∧ buf = pp.currentRead ∧ len = bufLen ∧
          queue[0]? = some (⟨bufUser, actual⟩ : Frame) := ok
      have same : readSlot ⟨pp, .releasing buf bufLen bufUser actual⟩ = buf :=
        readSlot_eq switch current
      obtain ⟨bounded, -, second, place, length, offset, -⟩ := encodes
      rw [same] at second place
      match queue, first with
      | frame :: rest, first =>
          obtain rfl : frame = ⟨bufUser, actual⟩ := Option.some.inj first
          rw [List.length_cons] at bounded place
          have next : readSlot ⟨{ modifyBuf pp buf fun slot =>
              { slot with
                readEnable := false
                writeEnable := true
                offset := 0 } with readSwitch := true }, .idle⟩ = buf.next :=
            congrArg Slot.next current.symm
          refine .returned _ _ rest rfl (of_slot buf.next next (by omega) ?_ ?_ ?_
            (fun other => ?_) trivial)
          · rw [modifyBuf_of_ne _ _ (Slot.next_ne buf)]
            exact second
          · rw [Slot.next_next, modifyBuf_self, List.getElem?_eq_none (by omega)]
            exact ⟨rfl, rfl⟩
          · refine Eq.trans place ?_
            rcases Nat.lt_or_ge rest.length 1 with none | one
            · rw [if_pos (by omega), if_neg (by omega)]
            · rw [if_neg (by omega), if_pos (by omega), Slot.next_next]
          · by_cases own : other = buf
            · subst own
              rw [modifyBuf_self]
              exact ⟨length other, rfl⟩
            · rw [modifyBuf_of_ne _ _ own]
              refine ⟨length other, (offset other).trans ?_⟩
              simp [offsetOf, if_neg own]

/-- A write is refused exactly while two frames are unread. -/
theorem step_write (encodes : Encodes state queue) (bufUser : Vector UInt8 24)
    (actual : UInt32) :
    (machine.step state (.write bufUser actual)).2 =
        (if queue.length = 2 then .refused ⟨bufUser.toList, actual⟩
          else .accepted ⟨bufUser.toList, actual⟩) ∧
      Encodes (machine.step state (.write bufUser actual)).1
        (if queue.length = 2 then queue else queue ++ [⟨bufUser.toList, actual⟩]) := by
  by_cases full : queue.length = 2
  · obtain ⟨result, after⟩ := encodes.write_refused full bufUser actual
    rw [if_pos full, if_pos full]
    exact ⟨if_pos result, after⟩
  · obtain ⟨result, after⟩ :=
      encodes.write_accepted (Nat.lt_of_le_of_ne encodes.bounded full) bufUser actual
    rw [if_neg full, if_neg full]
    exact ⟨if_neg (by rw [result]; decide), after⟩

theorem step_next (encodes : Encodes state queue) : ReadEffect queue (machine.step state .next) :=
  encodes.nextStatement_effect

end Encodes

/-! ## Runs -/

/-- The frames that writes have accepted. -/
def acceptedFrames (outputs : List Output) : List Frame :=
  outputs.filterMap fun
    | .accepted frame => some frame
    | _ => none

/-- The frames that reads have returned. -/
def returnedFrames (outputs : List Output) : List Frame :=
  outputs.filterMap fun
    | .returned frame => some frame
    | _ => none

/-- The accepted frames are those returned and then those the flags encode. -/
def Unread (outputs : List Output) (state : State) (unread : List Frame) : Prop :=
  acceptedFrames outputs = returnedFrames outputs ++ unread ∧ Encodes state unread

theorem step_unread {outputs : List Output} {unread : List Frame}
    (before : Unread outputs state unread) (event : Event) :
    ∃ after, Unread (outputs ++ [(machine.step state event).2]) (machine.step state event).1
      after := by
  obtain ⟨balance, encodes⟩ := before
  simp only [Unread, acceptedFrames, returnedFrames, List.filterMap_append] at balance ⊢
  cases event with
  | write bufUser actual =>
      obtain ⟨result, after⟩ := encodes.step_write bufUser actual
      refine ⟨_, ?_, after⟩
      rw [result]
      split <;> simp [balance]
  | next =>
      have effect := encodes.step_next
      generalize machine.step state .next = result at effect ⊢
      cases effect with
      | silent after encodes | nothing after empty encodes =>
          exact ⟨unread, by simpa using balance, encodes⟩
      | returned after frame rest oldest encodes =>
          refine ⟨rest, ?_, encodes⟩
          simp [balance, oldest]

theorem run_unread (events : List Event) :
    ∃ unread, Unread (machine.outputs (start mem) events) (machine.run (start mem) events)
      unread := by
  induction events using List.reverseRecOn with
  | nil => exact ⟨[], rfl, encodes_start mem⟩
  | append_singleton events event induction =>
      obtain ⟨unread, before⟩ := induction
      rw [Machine.outputs_append, Machine.run_append]
      exact step_unread before event

/-! ## Every read comes to an end -/

/-- How the reads have ended: with a frame or with nothing. -/
def readResults (outputs : List Output) : List (Option Frame) :=
  outputs.filterMap fun
    | .returned frame => some (some frame)
    | .nothing => some none
    | _ => none

/-- The reading thread executes a statement. -/
def Event.isNext : Event → Bool
  | .next => true
  | .write .. => false

/-- A bound on the statements until a read ends. -/
def Reader.distance : Reader → ℕ
  | .idle => bufLen + 11
  | .entered => bufLen + 10
  | .switching => bufLen + 9
  | .switched => bufLen + 8
  | .choosing => bufLen + 7
  | .testing _ => bufLen + 6
  | .measuring _ => bufLen + 5
  | .copying _ len bufUser => len - bufUser.length + 4
  | .moving .. => 3
  | .reading .. => 2
  | .releasing .. => 1

theorem distance_pos (reader : Reader) : 0 < reader.distance := by
  cases reader <;> simp [Reader.distance]

theorem distance_nextStatement (silent : (nextStatement state bufLen).2 = .silent) :
    (nextStatement state bufLen).1.reader.distance < state.reader.distance := by
  obtain ⟨pp, reader⟩ := state
  cases reader with
  | entered =>
      simp only [nextStatement]
      split <;> simp [Reader.distance]
  | testing buf =>
      simp only [nextStatement] at silent ⊢
      split
      next full => simp [Reader.distance]
      next empty =>
        rw [if_neg empty] at silent
        contradiction
  | measuring buf =>
      have short := Nat.min_le_left bufLen ((pp.buf buf).length - (pp.buf buf).offset)
      simp only [nextStatement, Reader.distance, List.length_nil]
      omega
  | copying buf len bufUser =>
      simp only [nextStatement]
      split
      next more =>
        simp only [Reader.distance, List.length_append, List.length_singleton]
        omega
      next all => simp [Reader.distance]
  | releasing buf len bufUser actual => contradiction
  | _ => simp [nextStatement, Reader.distance]

theorem Encodes.distance_le (encodes : Encodes state queue) :
    state.reader.distance ≤ bufLen + 11 := by
  obtain ⟨pp, reader⟩ := state
  cases reader with
  | copying buf len bufUser =>
      obtain ⟨-, -, rfl, -⟩ := encodes.reader
      simp only [Reader.distance]
      omega
  | _ => simp [Reader.distance]

/-- Writes keep the oldest frame and the place of the reader, and each statement of the reader
brings it nearer to its return. -/
theorem Encodes.read_ends (encodes : Encodes state queue) {later : List Event}
    (enough : state.reader.distance ≤ later.countP Event.isNext) :
    ∃ result, (readResults (machine.outputs state later)).head? = some result ∧
      ∀ oldest ∈ queue.head?, result = some oldest := by
  induction later generalizing state queue with
  | nil => exact absurd enough (Nat.not_le_of_lt (distance_pos state.reader))
  | cons event later induction =>
      cases event with
      | write bufUser actual =>
          obtain ⟨output, after⟩ := encodes.step_write bufUser actual
          obtain ⟨result, found, isOldest⟩ := induction after enough
          refine ⟨result, ?_, ?_⟩
          · rw [Machine.outputs_cons, output, ← found]
            split <;> rfl
          · intro oldest first
            apply isOldest
            cases queue with
            | nil => contradiction
            | cons frame rest =>
                split
                · exact first
                · exact first
      | next =>
          rw [List.countP_cons_of_pos rfl] at enough
          have effect := encodes.step_next
          have nearer : (machine.step state .next).2 = .silent →
              (machine.step state .next).1.reader.distance < state.reader.distance :=
            distance_nextStatement
          rw [Machine.outputs_cons]
          generalize machine.step state .next = stepped at effect nearer ⊢
          cases effect with
          | silent after encodes =>
              have closer := nearer rfl
              exact induction encodes (by omega)
          | nothing after empty encodes =>
              refine ⟨none, rfl, ?_⟩
              simp [empty]
          | returned after frame rest oldest encodes =>
              refine ⟨some frame, rfl, ?_⟩
              simp [oldest]

/-- What the buffer promises after a run, with the frames that are still unread. -/
structure TwoSlotFifo (outputs : List Output) (final : State) (unread : List Frame) : Prop where
  inOrder : acceptedFrames outputs = returnedFrames outputs ++ unread
  bounded : unread.length ≤ 2
  write : ∀ bufUser actual, (machine.step final (.write bufUser actual)).2 =
    if unread.length = 2 then .refused ⟨bufUser.toList, actual⟩
    else .accepted ⟨bufUser.toList, actual⟩
  read : (machine.step final .next).2 = .nothing → unread = []
  /-- Whatever writes come in between, a read has ended when the reader has executed so many
  statements, and the first to end returns the oldest unread frame. -/
  read_ends : ∀ later : List Event, bufLen + 11 ≤ later.countP Event.isNext →
    ∃ result, (readResults (machine.outputs final later)).head? = some result ∧
      ∀ oldest ∈ unread.head?, result = some oldest

/-- Whatever writes come between the statements of the reader, the buffer is a queue of two
frames. -/
theorem pingpong_is_fifo (mem : Slot → Vector UInt8 24) (events : List Event) :
    ∃ unread, TwoSlotFifo (machine.outputs (start mem) events) (machine.run (start mem) events)
      unread := by
  obtain ⟨unread, balance, encodes⟩ := run_unread mem events
  refine ⟨unread, balance, encodes.bounded,
    fun bufUser actual => (encodes.step_write bufUser actual).1, fun nothing => ?_,
    fun later enough => encodes.read_ends (encodes.distance_le.trans enough)⟩
  have effect := encodes.step_next
  generalize machine.step (machine.run (start mem) events) .next = result at effect nothing
  cases effect with
  | silent after encodes => cases nothing
  | nothing after empty encodes => exact empty
  | returned after frame rest oldest encodes => cases nothing

end BdkFreertos.AirkissPingpong
