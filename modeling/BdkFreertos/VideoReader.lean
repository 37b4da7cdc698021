import BdkFreertos.Memory
import BdkFreertos.VideoBuffer

/-!
# Frames put together for a reader

`video_buffer_read_frame` attaches a caller's buffer and waits; `video_buffer_recv_video_data` copies
the packets of one frame behind each other into that buffer and wakes the reader with the last one.
The reader takes the length of the frame and detaches its buffer only after it has run again, and a
frame that starts before that is put into the same buffer.
-/

namespace BdkFreertos.VideoBuffer

/-- A packet as it is handed to `video_buffer_recv_video_data`. -/
structure RecvPacket where
  data : Memory UInt8
  /-- The bytes used of it. -/
  len : UInt32

namespace RecvPacket

/-- The header at the start of the packet. -/
def hdr (packet : RecvPacket) : VbHdr where
  id := packet.data 0
  isEof := packet.data 1
  pktCnt := packet.data 2
  pktSeq := packet.data 3

def payload (packet : RecvPacket) : List UInt8 :=
  packet.data.load 4 (packet.len - 4).toNat

end RecvPacket

/-- The values of `start_buf`. -/
inductive BufSta
  /-- `BUF_STA_DONE`. -/
  | done
  /-- `BUF_STA_COPY`. -/
  | copy
  /-- `BUF_STA_FULL`. -/
  | full
  deriving DecidableEq

/-- The record `VBUF_ST`; a pointer is an address, and zero is `NULL`. -/
structure VbufSt where
  /-- The semaphore `aready_semaphore`, which counts to one. -/
  areadySemaphore : Bool
  bufBase : UInt32
  bufLen : UInt32
  frameId : UInt32
  framePktCnt : UInt32
  bufPtr : UInt32
  frameLen : UInt32
  startBuf : BufSta

def StartsFrame (vbuf : VbufSt) (hdr : VbHdr) : Prop :=
  hdr.id.toUInt32 ≠ vbuf.frameId ∧ hdr.pktSeq = 1

instance (vbuf : VbufSt) (hdr : VbHdr) : Decidable (StartsFrame vbuf hdr) :=
  inferInstanceAs (Decidable (_ ∧ _))

/-- The record after the test for the start of a frame. -/
def startOfFrame (vbuf : VbufSt) (hdr : VbHdr) : VbufSt :=
  if StartsFrame vbuf hdr then
    { vbuf with
      frameId := hdr.id.toUInt32
      frameLen := 0
      framePktCnt := 0
      bufPtr := vbuf.bufBase
      startBuf := .copy }
  else vbuf

/-- The test of a complete frame for the marks of an image and for its length; in a short frame it
looks before the buffer. -/
def rightImage (memory : Memory UInt8) (vbuf : VbufSt) : Bool :=
  let sofPtr := vbuf.bufBase
  let eofPtr := vbuf.bufBase + (vbuf.frameLen - 7)
  let crcPtr := eofPtr + 3
  let pLen := (memory crcPtr.toNat).toUInt32 + ((memory (crcPtr + 1).toNat).toUInt32 <<< 8) +
    ((memory (crcPtr + 2).toNat).toUInt32 <<< 16) + ((memory (crcPtr + 3).toNat).toUInt32 <<< 24)
  (memory sofPtr.toNat == 0xff && memory (sofPtr + 1).toNat == 0xd8) &&
    (memory eofPtr.toNat == 0xff && memory (eofPtr + 1).toNat == 0xd9) &&
    pLen == vbuf.frameLen - 5

/-- Whether the packet is the next one of the frame that is being copied. -/
def NextOfFrame (vbuf : VbufSt) (hdr : VbHdr) : Prop :=
  hdr.id.toUInt32 = vbuf.frameId ∧ vbuf.framePktCnt + 1 = hdr.pktSeq.toUInt32 ∧
    vbuf.startBuf = .copy

instance (vbuf : VbufSt) (hdr : VbHdr) : Decidable (NextOfFrame vbuf hdr) :=
  inferInstanceAs (Decidable (_ ∧ _))

/-- The record after a packet has been copied. -/
def movePtr (vbuf : VbufSt) (orgLen : UInt32) : VbufSt :=
  { vbuf with
    frameLen := vbuf.frameLen + orgLen
    bufPtr := vbuf.bufPtr + orgLen
    framePktCnt := vbuf.framePktCnt + 1 }

/-- The copy of a packet's bytes into the buffer; the result carries the memory, the record and
whether the reader has been woken. -/
def copyPacket (memory : Memory UInt8) (vbuf : VbufSt) (packet : RecvPacket) :
    Memory UInt8 × VbufSt × Bool :=
  let orgLen := packet.len - 4
  if NextOfFrame vbuf packet.hdr then
    let leftLen := vbuf.bufLen - vbuf.frameLen
    if orgLen ≤ leftLen then
      let memory := memory.store vbuf.bufPtr.toNat packet.payload
      let vbuf := movePtr vbuf orgLen
      if packet.hdr.isEof = 1 ∧ rightImage memory vbuf = true then
        (memory, { vbuf with startBuf := .done, areadySemaphore := true }, true)
      else (memory, vbuf, false)
    else (memory, { vbuf with startBuf := .full }, false)
  else (memory, vbuf, false)

/-- `video_buffer_recv_video_data`, which returns the length of the packet in every case; the result
carries the memory, the record and whether the reader has been woken. -/
def videoBufferRecvVideoData (memory : Memory UInt8) (vbuf : VbufSt) (packet : RecvPacket) :
    Memory UInt8 × VbufSt × Bool :=
  if vbuf.bufBase ≠ 0 then
    if packet.len < 4 then (memory, vbuf, false)
    else copyPacket memory (startOfFrame vbuf packet.hdr) packet
  else (memory, vbuf, false)

/-- A caller's buffer; the address behind it is representable. -/
structure UserBuffer where
  buf : UInt32
  bufLen : UInt32
  /-- The buffer ends in the address space. -/
  ends : buf.toNat + bufLen.toNat < 2 ^ 32

/-- The statement `video_buffer_read_frame` is in front of, with its local variables. -/
inductive Reader
  /-- Not in `video_buffer_read_frame`. -/
  | idle
  /-- The loop that clears the semaphore. -/
  | draining (user : UserBuffer)
  /-- `g_vbuf->buf_base = buf` and `g_vbuf->buf_len = buf_len`. -/
  | attaching (user : UserBuffer)
  /-- `rtos_get_semaphore(.., BEKEN_WAIT_FOREVER)`. -/
  | waiting (user : UserBuffer)
  /-- `frame_len = g_vbuf->frame_len`. -/
  | woken (user : UserBuffer)
  /-- `g_vbuf->buf_base = NULL` and `g_vbuf->buf_len = 0`. -/
  | detaching (user : UserBuffer) (frameLen : UInt32)

/-- The memory, the frame buffer's record and the reader. -/
structure VideoReader where
  memory : Memory UInt8
  vbuf : VbufSt
  reader : Reader

/-- The record as `video_buffer_open` leaves it. -/
def videoBufferOpen (memory : Memory UInt8) : VideoReader where
  memory := memory
  vbuf :=
    { areadySemaphore := false
      bufBase := 0
      bufLen := 0
      frameId := 0xffff
      framePktCnt := 0
      bufPtr := 0
      frameLen := 0
      startBuf := .done }
  reader := .idle

/-- What happens next. -/
inductive ReaderEvent
  /-- A task calls `video_buffer_read_frame`. -/
  | call (user : UserBuffer)
  /-- The task executes its next statement, if it is not blocked. -/
  | next
  /-- A packet is handed to `video_buffer_recv_video_data`. -/
  | packet (packet : RecvPacket)

/-- What is seen of it. -/
inductive ReaderOutput
  | silent
  /-- `video_buffer_recv_video_data` has returned, and may have woken the reader. -/
  | received (len : UInt32) (woken : Bool)
  /-- `video_buffer_read_frame` has returned zero at once. -/
  | refused
  /-- `video_buffer_read_frame` has returned a length for a caller's buffer. -/
  | returned (user : UserBuffer) (frameLen : UInt32)

/-- The next statement of `video_buffer_read_frame`. -/
def nextStatement (state : VideoReader) : VideoReader × ReaderOutput :=
  let vbuf := state.vbuf
  match state.reader with
  | .idle => (state, .silent)
  | .draining user =>
      ({ state with
         vbuf := { vbuf with areadySemaphore := false }
         reader := .attaching user }, .silent)
  | .attaching user =>
      ({ state with
         vbuf := { vbuf with bufBase := user.buf, bufLen := user.bufLen }
         reader := .waiting user }, .silent)
  | .waiting user =>
      if vbuf.areadySemaphore then
        ({ state with
           vbuf := { vbuf with areadySemaphore := false }
           reader := .woken user }, .silent)
      else (state, .silent)
  | .woken user => ({ state with reader := .detaching user vbuf.frameLen }, .silent)
  | .detaching user frameLen =>
      ({ state with
         vbuf := { vbuf with bufBase := 0, bufLen := 0 }
         reader := .idle }, .returned user frameLen)

/-- The frame buffer with its reader. -/
def videoReader : Machine VideoReader ReaderEvent ReaderOutput where
  step state
    | .call user =>
        match state.reader with
        | .idle =>
            if user.buf = 0 ∨ user.bufLen = 0 then (state, .refused)
            else if state.vbuf.bufBase = 0 then ({ state with reader := .draining user }, .silent)
            else (state, .refused)
        | _ => (state, .silent)
    | .next => nextStatement state
    | .packet packet =>
        let (memory, vbuf, woken) := videoBufferRecvVideoData state.memory state.vbuf packet
        ({ state with memory := memory, vbuf := vbuf }, .received packet.len woken)

/-- The packets received over a run. -/
def receivedPackets : List ReaderEvent → List RecvPacket
  | [] => []
  | .packet packet :: events => packet :: receivedPackets events
  | _ :: events => receivedPackets events

/-- The buffer that is attached. -/
def attached : Reader → Option UserBuffer
  | .waiting user => some user
  | .woken user => some user
  | .detaching user _ => some user
  | _ => none

/-- A complete frame waits for the reader to take its length and to detach the buffer. -/
def FramePending (state : VideoReader) : Prop :=
  match state.reader with
  | .waiting _ => state.vbuf.areadySemaphore = true
  | .woken _ => True
  | .detaching _ _ => True
  | _ => False

/-- No frame starts while a complete one waits for the reader. -/
def Undisturbed (state : VideoReader) : ReaderEvent → Prop
  | .packet packet => FramePending state → 4 ≤ packet.len → ¬StartsFrame state.vbuf packet.hdr
  | _ => True

/-! ## Frames -/

def payloads (frame : List RecvPacket) : List UInt8 :=
  frame.flatMap RecvPacket.payload

/-- Packets of one frame, numbered from one, in the order in which they were received. -/
structure Collected (received : List RecvPacket) (id : UInt8) (frame : List RecvPacket) : Prop where
  among : frame.Sublist received
  same : ∀ packet ∈ frame, packet.hdr.id = id
  numbered : frame.map (fun packet => packet.hdr.pktSeq.toNat) = List.range' 1 frame.length

/-- The memory from an address on holds a frame up to its last packet, and no more. -/
def HoldsFrame (received : List RecvPacket) (memory : Memory UInt8) (buf frameLen : UInt32) :
    Prop :=
  ∃ id front eof, Collected received id (front ++ [eof]) ∧ eof.hdr.isEof = 1 ∧
    memory.load buf.toNat frameLen.toNat = payloads (front ++ [eof])

variable {frame : List RecvPacket} {state : VideoReader}

section

variable {id : UInt8} {received : List RecvPacket} (collected : Collected received id frame)
include collected

theorem Collected.append (packet : RecvPacket) : Collected (received ++ [packet]) id frame :=
  { collected with among := collected.among.trans (List.sublist_append_left received [packet]) }

theorem Collected.concat {packet : RecvPacket} (same : packet.hdr.id = id)
    (number : packet.hdr.pktSeq.toNat = frame.length + 1) :
    Collected (received ++ [packet]) id (frame ++ [packet]) where
  among := collected.among.append_right [packet]
  same := by
    intro other member
    rcases List.mem_append.mp member with earlier | last
    · exact collected.same other earlier
    · rw [List.mem_singleton.mp last, same]
  numbered := by
    rw [List.map_append, collected.numbered, List.length_append, List.length_singleton,
      List.range'_concat, List.map_singleton, number, Nat.one_mul, Nat.add_comm]

end

/-- The record describes a frame that lies in a caller's buffer as far as it has been received. -/
structure Assembled (received : List RecvPacket) (memory : Memory UInt8) (vbuf : VbufSt)
    (user : UserBuffer) (frame : List RecvPacket) : Prop where
  collected : ∃ id : UInt8, vbuf.frameId = id.toUInt32 ∧ Collected received id frame
  count : vbuf.framePktCnt.toNat = frame.length
  count_lt : frame.length < 256
  fits : vbuf.frameLen.toNat ≤ user.bufLen.toNat
  pointer : vbuf.bufPtr = user.buf + vbuf.frameLen
  bytes : memory.load user.buf.toNat vbuf.frameLen.toNat = payloads frame

section Packets

variable {received frame : List RecvPacket} {memory : Memory UInt8} {vbuf : VbufSt}
  {user : UserBuffer} {packet : RecvPacket}

theorem assembled_startOfFrame (received : List RecvPacket) (memory : Memory UInt8)
    (based : vbuf.bufBase = user.buf) (starts : StartsFrame vbuf packet.hdr) :
    Assembled received memory (startOfFrame vbuf packet.hdr) user [] := by
  rw [startOfFrame, if_pos starts]
  exact
    { collected := ⟨packet.hdr.id, rfl, List.nil_sublist _, by simp, rfl⟩
      count := rfl
      count_lt := by simp
      fits := Nat.zero_le _
      pointer := by rw [based]; exact (UInt32.add_zero _).symm
      bytes := rfl }

section

variable (assembled : Assembled received memory vbuf user frame)
include assembled

theorem Assembled.append (packet : RecvPacket) :
    Assembled (received ++ [packet]) memory vbuf user frame := by
  obtain ⟨id, frameId_eq, collected⟩ := assembled.collected
  exact { assembled with collected := ⟨id, frameId_eq, collected.append packet⟩ }

theorem Assembled.toNat_bufPtr : vbuf.bufPtr.toNat = user.buf.toNat + vbuf.frameLen.toNat := by
  have ends := user.ends
  have fits := assembled.fits
  rw [assembled.pointer]
  exact toNat_add_of_lt (by omega)

theorem Assembled.store (next : NextOfFrame vbuf packet.hdr)
    (room : vbuf.frameLen.toNat + (packet.len - 4).toNat ≤ user.bufLen.toNat) :
    Assembled (received ++ [packet]) (memory.store vbuf.bufPtr.toNat packet.payload)
      (movePtr vbuf (packet.len - 4)) user (frame ++ [packet]) := by
  obtain ⟨same, number, -⟩ := next
  obtain ⟨id, frameId_eq, collected⟩ := assembled.collected
  have count := assembled.count
  have count_lt := assembled.count_lt
  have ends := user.ends
  have counted : (vbuf.framePktCnt + 1).toNat = frame.length + 1 := by
    rw [← count]
    exact toNat_add_of_lt (by have : (1 : UInt32).toNat = 1 := rfl; omega)
  have number_eq : packet.hdr.pktSeq.toNat = frame.length + 1 := by
    rw [← counted, number, UInt8.toNat_toUInt32]
  have grown : (vbuf.frameLen + (packet.len - 4)).toNat =
      vbuf.frameLen.toNat + (packet.len - 4).toNat :=
    toNat_add_of_lt (by omega)
  have payload_length : packet.payload.length = (packet.len - 4).toNat := by
    rw [RecvPacket.payload, Memory.length_load]
  refine
    { collected := ⟨id, frameId_eq, collected.concat ?_ number_eq⟩
      count := ?_
      count_lt := ?_
      fits := ?_
      pointer := ?_
      bytes := ?_ }
  · rw [frameId_eq] at same
    apply UInt8.toNat_inj.mp
    rw [← UInt8.toNat_toUInt32, same, UInt8.toNat_toUInt32]
  · rw [List.length_append, List.length_singleton]
    exact counted
  · rw [List.length_append, List.length_singleton, ← number_eq]
    exact packet.hdr.pktSeq.toNat_lt
  · exact grown ▸ room
  · simp only [movePtr]
    rw [assembled.pointer, UInt32.add_assoc]
  · simp only [movePtr]
    have stored := memory.load_store_self vbuf.bufPtr.toNat packet.payload
    rw [grown, Memory.load_add, ← assembled.toNat_bufPtr, ← payload_length, stored,
      Memory.load_store_of_disjoint _ (Or.inl (Nat.le_of_eq assembled.toNat_bufPtr.symm)),
      assembled.bytes]
    simp [payloads]

end

end Packets

/-! ## One packet -/

/-- What a packet does to the attached buffer: it is ignored, it starts or continues a frame, or it
does not fit; a frame that it completes wakes the reader. -/
inductive PacketMove (received : List RecvPacket) (memory : Memory UInt8) (user : UserBuffer)
    (packet : RecvPacket) : VbufSt → Memory UInt8 × VbufSt × Bool → Prop
  | ignored (vbuf : VbufSt) : PacketMove received memory user packet vbuf (memory, vbuf, false)
  /-- The buffer is too small for the frame. -/
  | overrun {vbuf after : VbufSt} (full : after.startBuf = .full)
      (semaphore_eq : after.areadySemaphore = vbuf.areadySemaphore)
      (base_eq : after.bufBase = vbuf.bufBase) (len_eq : after.bufLen = vbuf.bufLen) :
      PacketMove received memory user packet vbuf (memory, after, false)
  /-- The packet goes behind what has been received of the frame. -/
  | copied {vbuf after : VbufSt} {place : ℕ} {frame : List RecvPacket}
      (inside : user.buf.toNat ≤ place ∧
        place + packet.payload.length ≤ user.buf.toNat + user.bufLen.toNat)
      (assembled : Assembled (received ++ [packet]) (memory.store place packet.payload) after user
        (frame ++ [packet]))
      (copying : after.startBuf = .copy)
      (semaphore_eq : after.areadySemaphore = vbuf.areadySemaphore)
      (base_eq : after.bufBase = vbuf.bufBase) (len_eq : after.bufLen = vbuf.bufLen) :
      PacketMove received memory user packet vbuf
        (memory.store place packet.payload, after, false)
  /-- The packet is the last of the frame. -/
  | completed {vbuf after : VbufSt} {place : ℕ} {frame : List RecvPacket}
      (inside : user.buf.toNat ≤ place ∧
        place + packet.payload.length ≤ user.buf.toNat + user.bufLen.toNat)
      (assembled : Assembled (received ++ [packet]) (memory.store place packet.payload) after user
        (frame ++ [packet]))
      (eof : packet.hdr.isEof = 1) (done : after.startBuf = .done)
      (semaphore_eq : after.areadySemaphore = true)
      (base_eq : after.bufBase = vbuf.bufBase) (len_eq : after.bufLen = vbuf.bufLen) :
      PacketMove received memory user packet vbuf
        (memory.store place packet.payload, after, true)

theorem startOfFrame_frame (vbuf : VbufSt) (hdr : VbHdr) :
    (startOfFrame vbuf hdr).areadySemaphore = vbuf.areadySemaphore ∧
      (startOfFrame vbuf hdr).bufBase = vbuf.bufBase ∧
      (startOfFrame vbuf hdr).bufLen = vbuf.bufLen := by
  rw [startOfFrame]
  split <;> exact ⟨rfl, rfl, rfl⟩

section Moves

variable {received : List RecvPacket} {memory : Memory UInt8} {vbuf : VbufSt} {user : UserBuffer}
  {packet : RecvPacket}

theorem copyPacket_moves {started : VbufSt} (len_eq : started.bufLen = user.bufLen)
    (semaphore_eq : started.areadySemaphore = vbuf.areadySemaphore)
    (base_same : started.bufBase = vbuf.bufBase) (len_same : started.bufLen = vbuf.bufLen)
    (assembled : started.startBuf = .copy → ∃ frame, Assembled received memory started user frame)
    (unchanged : ¬NextOfFrame started packet.hdr → started = vbuf) :
    PacketMove received memory user packet vbuf (copyPacket memory started packet) := by
  rw [copyPacket]
  split
  · rename_i next
    obtain ⟨frame, assembled⟩ := assembled next.2.2
    have fits := assembled.fits
    have left : (started.bufLen - started.frameLen).toNat =
        user.bufLen.toNat - started.frameLen.toNat := by
      rw [len_eq]
      exact UInt32.toNat_sub_of_le _ _ (UInt32.le_iff_toNat_le.mpr fits)
    dsimp only
    split
    · rename_i enough
      have room := UInt32.le_iff_toNat_le.mp enough
      rw [left] at room
      have stored := assembled.store next (by omega)
      have inside : user.buf.toNat ≤ started.bufPtr.toNat ∧
          started.bufPtr.toNat + packet.payload.length ≤
            user.buf.toNat + user.bufLen.toNat := by
        rw [assembled.toNat_bufPtr, RecvPacket.payload, Memory.length_load]
        omega
      split
      · rename_i complete
        exact .completed inside
          { stored with } complete.1 rfl rfl base_same len_same
      · exact .copied inside stored next.2.2 semaphore_eq base_same len_same
    · exact .overrun rfl semaphore_eq base_same len_same
  · rename_i other
    rw [unchanged other]
    exact .ignored vbuf

theorem videoBufferRecvVideoData_moves (based : vbuf.bufBase = user.buf)
    (len_eq : vbuf.bufLen = user.bufLen)
    (assembled : vbuf.startBuf = .copy → ∃ frame, Assembled received memory vbuf user frame) :
    PacketMove received memory user packet vbuf
      (videoBufferRecvVideoData memory vbuf packet) := by
  obtain ⟨semaphore_eq, base_same, len_same⟩ := startOfFrame_frame vbuf packet.hdr
  rw [videoBufferRecvVideoData]
  split
  · split
    · exact .ignored vbuf
    · refine copyPacket_moves (len_same.trans len_eq) semaphore_eq base_same len_same ?_ ?_
      · intro copying
        by_cases starts : StartsFrame vbuf packet.hdr
        · exact ⟨[], assembled_startOfFrame received memory based starts⟩
        · rw [startOfFrame, if_neg starts] at copying ⊢
          exact assembled copying
      · intro other
        by_cases starts : StartsFrame vbuf packet.hdr
        · refine (other ?_).elim
          rw [startOfFrame, if_pos starts]
          exact ⟨rfl, by rw [starts.2]; rfl, rfl⟩
        · rw [startOfFrame, if_neg starts]
  · exact .ignored vbuf

theorem videoBufferRecvVideoData_ignores (idle : vbuf.startBuf ≠ .copy)
    (continues : 4 ≤ packet.len → ¬StartsFrame vbuf packet.hdr) :
    videoBufferRecvVideoData memory vbuf packet = (memory, vbuf, false) := by
  rw [videoBufferRecvVideoData]
  split
  · split
    · rfl
    · rename_i long
      rw [startOfFrame, if_neg (continues (UInt32.not_lt.mp long)), copyPacket,
        if_neg fun next => idle next.2.2]
  · rfl

end Moves

/-! ## Runs -/

/-- A complete frame is in a caller's buffer and is not being changed. -/
def FrameDone (received : List RecvPacket) (memory : Memory UInt8) (vbuf : VbufSt)
    (user : UserBuffer) : Prop :=
  vbuf.startBuf = .done ∧ ∃ front eof, Assembled received memory vbuf user (front ++ [eof]) ∧
    eof.hdr.isEof = 1

/-- What holds in front of each statement of `video_buffer_read_frame`. -/
def Ready (received : List RecvPacket) (state : VideoReader) : Prop :=
  match state.reader with
  | .idle => state.vbuf.bufBase = 0 ∧ state.vbuf.startBuf ≠ .copy
  | .draining _ => state.vbuf.bufBase = 0 ∧ state.vbuf.startBuf ≠ .copy
  | .attaching _ =>
      state.vbuf.bufBase = 0 ∧ state.vbuf.startBuf ≠ .copy ∧ state.vbuf.areadySemaphore = false
  | .waiting user =>
      (state.vbuf.bufBase = user.buf ∧ state.vbuf.bufLen = user.bufLen) ∧
        (state.vbuf.startBuf = .copy →
          ∃ frame, Assembled received state.memory state.vbuf user frame) ∧
        (state.vbuf.areadySemaphore = true → FrameDone received state.memory state.vbuf user)
  | .woken user =>
      (state.vbuf.bufBase = user.buf ∧ state.vbuf.bufLen = user.bufLen) ∧
        FrameDone received state.memory state.vbuf user
  | .detaching user frameLen =>
      (state.vbuf.bufBase = user.buf ∧ state.vbuf.bufLen = user.bufLen) ∧
        FrameDone received state.memory state.vbuf user ∧ frameLen = state.vbuf.frameLen

/-- What the next event may do, after the packets received so far: the pointer is behind the bytes
copied; nothing outside the attached buffer changes; a reader is woken with a whole frame in its
buffer; and it is told the length of that frame, which is still there. -/
structure Reassembles (received : List RecvPacket) (state : VideoReader) (event : ReaderEvent) :
    Prop where
  pointer : state.vbuf.startBuf = .copy → state.vbuf.bufPtr = state.vbuf.bufBase + state.vbuf.frameLen
  inside : ∀ address : ℕ,
    (∀ user, attached state.reader = some user →
      address < user.buf.toNat ∨ user.buf.toNat + user.bufLen.toNat ≤ address) →
    (videoReader.step state event).1.memory address = state.memory address
  wakes : ∀ len, (videoReader.step state event).2 = .received len true →
    ∃ user, attached state.reader = some user ∧
      HoldsFrame (received ++ receivedPackets [event]) (videoReader.step state event).1.memory
        user.buf (videoReader.step state event).1.vbuf.frameLen
  reports : ∀ user frameLen, (videoReader.step state event).2 = .returned user frameLen →
    HoldsFrame received (videoReader.step state event).1.memory user.buf frameLen

theorem Assembled.holdsFrame {received front : List RecvPacket} {memory : Memory UInt8}
    {vbuf : VbufSt} {user : UserBuffer} {eof : RecvPacket}
    (assembled : Assembled received memory vbuf user (front ++ [eof])) (last : eof.hdr.isEof = 1) :
    HoldsFrame received memory user.buf vbuf.frameLen := by
  obtain ⟨id, -, collected⟩ := assembled.collected
  exact ⟨id, front, eof, collected, last, assembled.bytes⟩

section Steps

variable {received : List RecvPacket} {state : VideoReader}

theorem Ready.pointer (ready : Ready received state) (copying : state.vbuf.startBuf = .copy) :
    state.vbuf.bufPtr = state.vbuf.bufBase + state.vbuf.frameLen := by
  obtain ⟨memory, vbuf, reader⟩ := state
  cases reader with
  | idle | draining user => exact (ready.2 copying).elim
  | attaching user => exact (ready.2.1 copying).elim
  | waiting user =>
      obtain ⟨⟨based, -⟩, assembled, -⟩ := ready
      obtain ⟨frame, assembled⟩ := assembled copying
      exact based.symm ▸ assembled.pointer
  | woken user =>
      obtain ⟨-, done, -⟩ := ready
      rw [done] at copying
      cases copying
  | detaching user frameLen =>
      obtain ⟨-, ⟨done, -⟩, -⟩ := ready
      rw [done] at copying
      cases copying

theorem Ready.next (ready : Ready received state) : Ready received (nextStatement state).1 := by
  obtain ⟨memory, vbuf, reader⟩ := state
  cases reader with
  | idle => exact ready
  | draining user | woken user => exact ⟨ready.1, ready.2, rfl⟩
  | attaching user =>
      obtain ⟨-, stopped, empty⟩ := ready
      refine ⟨⟨rfl, rfl⟩, fun copying => (stopped copying).elim, fun given => ?_⟩
      exact (Bool.false_ne_true (empty.symm.trans given)).elim
  | waiting user =>
      simp only [nextStatement]
      split
      · rename_i given
        obtain ⟨attached_eq, -, complete⟩ := ready
        obtain ⟨done, front, eof, assembled, last⟩ := complete given
        exact ⟨attached_eq, done, front, eof, { assembled with }, last⟩
      · exact ready
  | detaching user frameLen =>
      obtain ⟨-, ⟨done, -⟩, -⟩ := ready
      refine ⟨rfl, ?_⟩
      simp only [nextStatement]
      rw [done]
      exact BufSta.noConfusion

theorem Ready.call (ready : Ready received state) (user : UserBuffer) :
    Ready received (videoReader.step state (.call user)).1 := by
  obtain ⟨memory, vbuf, reader⟩ := state
  cases reader with
  | idle =>
      simp only [videoReader]
      split
      · exact ready
      · split <;> exact ready
  | _ => exact ready

theorem Ready.ignore (ready : Ready received state) (packet : RecvPacket) :
    Ready (received ++ [packet]) state := by
  obtain ⟨memory, vbuf, reader⟩ := state
  have complete_append : ∀ {user}, FrameDone received memory vbuf user →
      FrameDone (received ++ [packet]) memory vbuf user := by
    rintro user ⟨done, front, eof, assembled, last⟩
    exact ⟨done, front, eof, assembled.append packet, last⟩
  cases reader with
  | idle => exact ready
  | draining user => exact ready
  | attaching user => exact ready
  | waiting user =>
      obtain ⟨attached_eq, assembled, complete⟩ := ready
      refine ⟨attached_eq, fun copying => ?_, fun given => complete_append (complete given)⟩
      obtain ⟨frame, assembled⟩ := assembled copying
      exact ⟨frame, assembled.append packet⟩
  | woken user => exact ⟨ready.1, complete_append ready.2⟩
  | detaching user frameLen => exact ⟨ready.1, complete_append ready.2.1, ready.2.2⟩

variable {memory : Memory UInt8} {user : UserBuffer}

theorem store_outside {place address : ℕ} {bytes : List UInt8} (inside : user.buf.toNat ≤ place ∧
      place + bytes.length ≤ user.buf.toNat + user.bufLen.toNat)
    (outside : address < user.buf.toNat ∨ user.buf.toNat + user.bufLen.toNat ≤ address) :
    memory.store place bytes address = memory address := by
  rcases outside with below | above
  · exact memory.store_apply_of_lt bytes (by omega)
  · exact memory.store_apply_of_le (by omega)

/-- A packet while the reader waits and no complete frame is there. -/
theorem PacketMove.waiting {vbuf : VbufSt} {packet : RecvPacket}
    {result : Memory UInt8 × VbufSt × Bool}
    (move : PacketMove received memory user packet vbuf result)
    (ready : Ready received ⟨memory, vbuf, .waiting user⟩) (empty : vbuf.areadySemaphore = false) :
    Ready (received ++ [packet]) ⟨result.1, result.2.1, .waiting user⟩ ∧
      (∀ address : ℕ,
        address < user.buf.toNat ∨ user.buf.toNat + user.bufLen.toNat ≤ address →
          result.1 address = memory address) ∧
      (result.2.2 = true →
        HoldsFrame (received ++ [packet]) result.1 user.buf result.2.1.frameLen) := by
  have kept := ready.ignore packet
  obtain ⟨⟨based, len_eq⟩, -, -⟩ := ready
  cases move with
  | ignored => exact ⟨kept, fun _ _ => rfl, fun woken => (Bool.false_ne_true woken).elim⟩
  | overrun full semaphore_eq base_eq len_same =>
      refine ⟨⟨⟨base_eq.trans based, len_same.trans len_eq⟩, ?_, ?_⟩, fun _ _ => rfl,
        fun woken => (Bool.false_ne_true woken).elim⟩
      · intro copying
        rw [full] at copying
        cases copying
      · intro given
        exact (Bool.false_ne_true ((semaphore_eq.trans empty).symm.trans given)).elim
  | @copied after place frame inside assembled copying semaphore_eq base_eq len_same =>
      refine ⟨⟨⟨base_eq.trans based, len_same.trans len_eq⟩, fun _ => ⟨_, assembled⟩, ?_⟩,
        fun address outside => store_outside inside outside,
        fun woken => (Bool.false_ne_true woken).elim⟩
      intro given
      exact (Bool.false_ne_true ((semaphore_eq.trans empty).symm.trans given)).elim
  | @completed after place frame inside assembled eof done semaphore_eq base_eq len_same =>
      refine ⟨⟨⟨base_eq.trans based, len_same.trans len_eq⟩, fun _ => ⟨_, assembled⟩,
        fun _ => ⟨done, frame, packet, assembled, eof⟩⟩,
        fun address outside => store_outside inside outside, fun _ => ?_⟩
      exact assembled.holdsFrame eof

/-- A packet keeps everything in order, changes nothing outside the attached buffer, and wakes the
reader with a whole frame, as long as no frame starts while a complete one waits. -/
theorem Ready.packet {packet : RecvPacket} (ready : Ready received state)
    (undisturbed : Undisturbed state (.packet packet)) :
    Ready (received ++ [packet]) (videoReader.step state (.packet packet)).1 ∧
      Reassembles received state (.packet packet) := by
  have pointer := ready.pointer
  have ignore := ready.ignore packet
  obtain ⟨memory, vbuf, reader⟩ := state
  -- whatever the reader does, a packet that is ignored leaves no trace
  have ignored : videoBufferRecvVideoData memory vbuf packet = (memory, vbuf, false) →
      Ready (received ++ [packet]) (videoReader.step ⟨memory, vbuf, reader⟩ (.packet packet)).1 ∧
        Reassembles received ⟨memory, vbuf, reader⟩ (.packet packet) := by
    intro same
    have stepped : videoReader.step ⟨memory, vbuf, reader⟩ (.packet packet) =
        (⟨memory, vbuf, reader⟩, .received packet.len false) := by
      simp [videoReader, same]
    refine ⟨by rw [stepped]; exact ignore, pointer, ?_, ?_, ?_⟩
    · intro address outside
      rw [stepped]
    · intro len woken
      rw [stepped] at woken
      injection woken with _ awake
      exact (Bool.false_ne_true awake).elim
    · intro user frameLen told
      rw [stepped] at told
      cases told
  have nobody : vbuf.bufBase = 0 →
      videoBufferRecvVideoData memory vbuf packet = (memory, vbuf, false) := by
    intro none_there
    rw [videoBufferRecvVideoData, if_neg (not_not.mpr none_there)]
  have quiet : vbuf.startBuf = .done → FramePending ⟨memory, vbuf, reader⟩ →
      videoBufferRecvVideoData memory vbuf packet = (memory, vbuf, false) := by
    intro done pending
    exact videoBufferRecvVideoData_ignores (by rw [done]; exact BufSta.noConfusion)
      (undisturbed pending)
  cases reader with
  | idle | draining user | attaching user => exact ignored (nobody ready.1)
  | woken user => exact ignored (quiet ready.2.1 trivial)
  | detaching user frameLen => exact ignored (quiet ready.2.1.1 trivial)
  | waiting user =>
      obtain ⟨⟨based, len_eq⟩, assembled, complete⟩ := ready
      by_cases given : vbuf.areadySemaphore = true
      · exact ignored (quiet (complete given).1 given)
      · have move := @videoBufferRecvVideoData_moves received memory vbuf user packet based len_eq
          assembled
        obtain ⟨after, outside_same, whole⟩ := move.waiting
          ⟨⟨based, len_eq⟩, assembled, complete⟩ (Bool.eq_false_iff.mpr given)
        refine ⟨after, pointer, ?_, ?_, ?_⟩
        · intro address outside
          exact outside_same address (outside user rfl)
        · intro len woken
          injection woken with _ awake
          exact ⟨user, rfl, whole awake⟩
        · intro other frameLen told
          cases told

end Steps

theorem receivedPackets_append (front back : List ReaderEvent) :
    receivedPackets (front ++ back) = receivedPackets front ++ receivedPackets back := by
  induction front with
  | nil => rfl
  | cons event events induction => cases event <;> simp [receivedPackets, induction]

section

variable {received : List RecvPacket} (ready : Ready received state)
include ready

theorem Ready.reassembles_quietly {event : ReaderEvent}
    (memory_eq : (videoReader.step state event).1.memory = state.memory)
    (quiet : (videoReader.step state event).2 = .silent ∨
      (videoReader.step state event).2 = .refused) : Reassembles received state event := by
  refine ⟨ready.pointer, fun address _ => by rw [memory_eq], ?_, ?_⟩
  · intro len woken
    rcases quiet with silent | refused
    · rw [silent] at woken
      cases woken
    · rw [refused] at woken
      cases woken
  · intro user frameLen told
    rcases quiet with silent | refused
    · rw [silent] at told
      cases told
    · rw [refused] at told
      cases told

theorem Ready.reassembles_next : Reassembles received state .next := by
  have pointer := ready.pointer
  obtain ⟨memory, vbuf, reader⟩ := state
  cases reader with
  | detaching user frameLen =>
      obtain ⟨-, ⟨-, front, eof, assembled, last⟩, frameLen_eq⟩ := ready
      refine ⟨pointer, fun _ _ => rfl, ?_, ?_⟩
      · intro len woken
        cases woken
      · intro other frameLen told
        cases told
        rw [frameLen_eq]
        exact assembled.holdsFrame last
  | waiting user =>
      by_cases given : vbuf.areadySemaphore = true
      · apply ready.reassembles_quietly <;> simp [videoReader, nextStatement, given]
      · apply ready.reassembles_quietly <;> simp [videoReader, nextStatement, given]
  | _ => exact ready.reassembles_quietly rfl (Or.inl rfl)

theorem Ready.reassembles_call (user : UserBuffer) : Reassembles received state (.call user) := by
  obtain ⟨memory, vbuf, reader⟩ := state
  cases reader with
  | idle =>
      have detached : vbuf.bufBase = 0 := ready.1
      by_cases nothing : user.buf = 0 ∨ user.bufLen = 0
      · apply ready.reassembles_quietly <;> simp [videoReader, if_pos nothing]
      · apply ready.reassembles_quietly <;>
          simp [videoReader, if_neg nothing, if_pos detached]
  | _ => exact ready.reassembles_quietly rfl (Or.inl rfl)

end

theorem Ready.step {received : List RecvPacket} {state : VideoReader} {event : ReaderEvent}
    (ready : Ready received state) (undisturbed : Undisturbed state event) :
    Ready (received ++ receivedPackets [event]) (videoReader.step state event).1 ∧
      Reassembles received state event := by
  cases event with
  | call user =>
      rw [show receivedPackets [.call user] = [] from rfl, List.append_nil]
      exact ⟨ready.call user, ready.reassembles_call user⟩
  | next =>
      rw [show receivedPackets [.next] = [] from rfl, List.append_nil]
      exact ⟨ready.next, ready.reassembles_next⟩
  | packet packet => exact ready.packet undisturbed

/-- In every run in which no frame starts while a complete one waits for the reader, every event
keeps to the attached buffer, and the reader is woken with, and told the length of, a whole
frame. -/
theorem frame_reassembly (memory : Memory UInt8) (events : List ReaderEvent) (event : ReaderEvent)
    (undisturbed : videoReader.Always Undisturbed (videoBufferOpen memory) (events ++ [event])) :
    Reassembles (receivedPackets events) (videoReader.run (videoBufferOpen memory) events) event := by
  obtain ⟨earlier, last, -⟩ :=
    (videoReader.always_append Undisturbed (videoBufferOpen memory) events [event]).mp undisturbed
  have ready := videoReader.history_induction Undisturbed
    (fun inputs _ state => Ready (receivedPackets inputs) state)
    (show Ready [] (videoBufferOpen memory) from ⟨rfl, BufSta.noConfusion⟩)
    (by
      rintro inputs _ state input ready meets
      rw [receivedPackets_append]
      exact (ready.step meets).1) earlier
  exact (ready.step last).2

instance (state : VideoReader) : Decidable (FramePending state) :=
  match state with
  | ⟨_, vbuf, .waiting _⟩ => inferInstanceAs (Decidable (vbuf.areadySemaphore = true))
  | ⟨_, _, .woken _⟩ | ⟨_, _, .detaching _ _⟩ => isTrue trivial
  | ⟨_, _, .idle⟩ | ⟨_, _, .draining _⟩ | ⟨_, _, .attaching _⟩ => isFalse id

instance decidableUndisturbed (state : VideoReader) :
    ∀ event, Decidable (Undisturbed state event)
  | .call _ | .next => isTrue trivial
  | .packet packet =>
      inferInstanceAs (Decidable
        (FramePending state → 4 ≤ packet.len → ¬StartsFrame state.vbuf packet.hdr))

/-- A packet with the bytes of a list. -/
def packetOf (bytes : List UInt8) : RecvPacket where
  data index := bytes.getD index 0
  len := UInt32.ofNat bytes.length

/-- A frame of nine bytes in two packets, the second of which comes after a packet of another frame
that is not its first. -/
theorem frame_reassembly_nine :
    let events : List ReaderEvent :=
      [.call ⟨100, 16, by decide⟩, .next, .next, .packet (packetOf [1, 0, 0, 1, 0xff, 0xd8]),
        .packet (packetOf [2, 0, 0, 3, 5]),
        .packet (packetOf [1, 1, 2, 2, 0xff, 0xd9, 0, 4, 0, 0, 0]), .next, .next]
    let state := videoReader.run (videoBufferOpen fun _ => 0) events
    videoReader.Always Undisturbed (videoBufferOpen fun _ => 0) (events ++ [.next]) ∧
      Reassembles (receivedPackets events) state .next ∧
      state.memory.load 100 state.vbuf.frameLen.toNat =
        [0xff, 0xd8, 0xff, 0xd9, 0, 4, 0, 0, 0] := by
  intro events state
  have undisturbed :
      videoReader.Always Undisturbed (videoBufferOpen fun _ => 0) (events ++ [.next]) := by
    decide
  exact ⟨undisturbed, frame_reassembly (fun _ => 0) events .next undisturbed, by decide⟩

/-- A frame starts before the reader has run again: the reader is told one byte of a frame that is
not complete, and the next packet of that frame goes into the old buffer while another one is
attached. -/
theorem frame_reassembly_disturbed :
    let events : List ReaderEvent :=
      [.call ⟨100, 16, by decide⟩, .next, .next,
        .packet (packetOf [1, 1, 1, 1, 0xff, 0xd8, 0xff, 0xd9, 0, 4, 0, 0, 0]),
        .packet (packetOf [2, 0, 0, 1, 7]), .next, .next]
    let later : List ReaderEvent := events ++ [.next, .call ⟨200, 4, by decide⟩, .next, .next]
    ¬Reassembles (receivedPackets events)
        (videoReader.run (videoBufferOpen fun _ => 0) events) .next ∧
      ¬Reassembles (receivedPackets later)
        (videoReader.run (videoBufferOpen fun _ => 0) later)
        (.packet (packetOf [2, 0, 0, 2, 8, 9])) := by
  intro events later
  refine ⟨fun reassembles => ?_, fun reassembles => ?_⟩
  · obtain ⟨id, front, eof, collected, last, bytes⟩ :=
      reassembles.reports ⟨100, 16, by decide⟩ 1 rfl
    have member : eof ∈ receivedPackets events :=
      collected.among.subset (List.mem_append_right front (List.mem_singleton_self eof))
    have lengths := congrArg List.length bytes
    simp only [payloads, Memory.length_load, List.flatMap_append, List.length_append,
      List.flatMap_singleton] at lengths
    rcases List.mem_cons.mp member with rfl | other
    · have nine : (packetOf [1, 1, 1, 1, 0xff, 0xd8, 0xff, 0xd9, 0, 4, 0, 0, 0]).payload.length =
          9 := by decide
      have one : (1 : UInt32).toNat = 1 := rfl
      omega
    · rw [List.mem_singleton.mp other] at last
      exact absurd last (by decide)
  · have kept := reassembles.inside 101 (by
      intro user held
      injection held with same
      subst same
      decide)
    exact absurd kept (by decide)

end BdkFreertos.VideoBuffer
