import BdkFreertos.SpiMaster

/-!
# The bytes of an SPI transfer

What has left, what is in the transmit FIFO and what is still to be written are the message; what
has arrived is what was taken and what is in the receive FIFO.  The counters of the driver say where
in the message the sender is and how much of the buffer is filled.
-/

namespace BdkFreertos.SpiMaster

/-! ## What is still to be sent -/

/-- The number of bytes to write: `total_len`, which the loop lowers only after the read that
follows a write. -/
def unwritten (state : MasterState) : ℕ :=
  match state.interrupt.map Interrupt.place with
  | some (.needWriteRx true) => state.totalLen - 1
  | _ => state.totalLen

/-- The bytes to write, from `tx_ptr`, `tx_len` and the number of all bytes to write. -/
def toSend (txPtr : List UInt8) (txLen count : ℕ) : List UInt8 :=
  txPtr.take txLen ++ List.replicate (count - txLen) 0xff

theorem toSend_message {txPtr : List UInt8} {txLen : ℕ} (more : txLen ≠ 0)
    (readable : txLen ≤ txPtr.length) (count : ℕ) :
    toSend txPtr txLen count = txPtr.headD 0 :: toSend txPtr.tail (txLen - 1) (count - 1) := by
  rcases txPtr with _ | ⟨next, rest⟩
  · exact absurd (Nat.le_zero.mp readable) more
  · obtain ⟨len, rfl⟩ := Nat.exists_eq_succ_of_ne_zero more
    have left : count - (len + 1) = count - 1 - len := by omega
    simp [toSend, left]

theorem toSend_dummy {count : ℕ} (more : count ≠ 0) (txPtr : List UInt8) :
    toSend txPtr 0 count = 0xff :: toSend txPtr 0 (count - 1) := by
  obtain ⟨left, rfl⟩ := Nat.exists_eq_succ_of_ne_zero more
  rfl

def pending (state : MasterState) : List UInt8 :=
  toSend state.txPtr state.txLen (unwritten state)

/-- What has left, what is in the transmit FIFO and what is to be written are the message. -/
structure Sending (state : MasterState) : Prop where
  wire : state.transfer.shiftedOut ++ state.txFifo ++ pending state = state.transfer.message.wire
  readable : state.txLen ≤ state.txPtr.length
  counted : state.txLen ≤ unwritten state

variable {state : MasterState} {interrupt : Interrupt} {message : SpiMessage} {buffer : List UInt8}
  {sendLen : ℕ} {taken : List Received}

theorem unwritten_of_none (none : state.interrupt = none) : unwritten state = state.totalLen := by
  rw [unwritten, none]
  rfl

theorem unwritten_of_place (running : state.interrupt = some interrupt)
    (other : interrupt.place ≠ .needWriteRx true) : unwritten state = state.totalLen := by
  rw [unwritten, running]
  simp only [Option.map_some]
  split
  next same => exact absurd (Option.some.inj same) other
  next => rfl

theorem unwritten_of_written (running : state.interrupt = some interrupt)
    (place : interrupt.place = .needWriteRx true) : unwritten state = state.totalLen - 1 := by
  rw [unwritten, running, Option.map_some, place]

theorem unwritten_le (state : MasterState) : unwritten state ≤ state.totalLen := by
  rw [unwritten]
  split
  · exact Nat.sub_le _ _
  · exact Nat.le_refl _

/-- The sender's side depends on the counters of the sender alone. -/
theorem Sending.congr {other : MasterState} (sending : Sending state)
    (txFifo : other.txFifo = state.txFifo) (txPtr : other.txPtr = state.txPtr)
    (txLen : other.txLen = state.txLen) (count : unwritten other = unwritten state)
    (shiftedOut : other.transfer.shiftedOut = state.transfer.shiftedOut)
    (message : other.transfer.message = state.transfer.message) : Sending other where
  wire := by
    rw [pending, txFifo, txPtr, txLen, count, shiftedOut, message]
    exact sending.wire
  readable := by
    rw [txPtr, txLen]
    exact sending.readable
  counted := by
    rw [txLen, count]
    exact sending.counted

theorem SpiMessage.length_wire (message : SpiMessage) :
    message.wire.length = message.sendLen + message.recvLen := by
  rw [wire, List.length_append, List.length_replicate, sendLen]

theorem Sending.shiftedOut_le (sending : Sending state) :
    state.transfer.shiftedOut.length ≤
      state.transfer.message.sendLen + state.transfer.message.recvLen := by
  rw [← SpiMessage.length_wire, ← sending.wire]
  simp only [List.length_append]
  omega

theorem Sending.pending_nil (sending : Sending state) (written : state.totalLen = 0) :
    pending state = [] := by
  have count : unwritten state = 0 := Nat.le_zero.mp (written ▸ unwritten_le state)
  have len : state.txLen = 0 := Nat.le_zero.mp (count ▸ sending.counted)
  rw [pending, count, len, toSend]
  rfl

theorem Sending.complete (sending : Sending state) (written : state.totalLen = 0)
    (empty : state.txFifo = []) : state.transfer.shiftedOut = state.transfer.message.wire := by
  rw [← sending.wire, empty, sending.pending_nil written, List.append_nil, List.append_nil]

section

variable (none : state.interrupt = none) (fits : message.recvLen + message.sendLen < 2 ^ 32)
include none fits

theorem unwritten_beginTransfer :
    unwritten (beginTransfer state message) = message.recvLen + message.sendLen := by
  have count : unwritten (beginTransfer state message) =
      (message.recvLen + message.sendLen) % 2 ^ 32 := unwritten_of_none none
  rw [count, Nat.mod_eq_of_lt fits]

theorem pending_beginTransfer : pending (beginTransfer state message) = message.wire := by
  rw [pending, unwritten_beginTransfer none fits, toSend]
  simp [beginTransfer, SpiMessage.sendLen, SpiMessage.wire]

end

/-- A byte written is the next byte of the message. -/
theorem Sending.writeByte {depth : ℕ} {written : MasterState} (sending : Sending state)
    (running : state.interrupt = some interrupt) (place : interrupt.place = .needWrite)
    (more : state.totalLen ≠ 0) (result : SpiMaster.writeByte depth state = some written) :
    Sending { written with
      interrupt := some { interrupt with place := .needWriteRx true } } := by
  have count : unwritten state = state.totalLen := by
    refine unwritten_of_place running ?_
    rw [place]
    exact Place.noConfusion
  obtain ⟨wire, readable, counted⟩ := sending
  rw [pending, count] at wire
  rw [count] at counted
  rw [SpiMaster.writeByte] at result
  split at result
  next room =>
    split at result
    next message =>
      obtain rfl := Option.some.inj result
      rw [toSend_message message readable] at wire
      refine ⟨?_, ?_, Nat.sub_le_sub_right counted 1⟩
      · rw [← wire, ← List.append_assoc, List.append_assoc _ [_]]
        rfl
      · rw [List.length_tail]
        exact Nat.sub_le_sub_right readable 1
    next beyond =>
      obtain rfl := Option.some.inj result
      have len : state.txLen = 0 := not_not.mp beyond
      rw [len, toSend_dummy more] at wire
      refine ⟨?_, readable, ?_⟩
      · rw [← wire, pending, len, ← List.append_assoc, List.append_assoc _ [_]]
        rfl
      · rw [len]
        exact Nat.zero_le _
  next => cases result

/-! ## What has been received -/

theorem set_append_drop (front : List UInt8) (room : front.length < buffer.length) (ch : UInt8) :
    (front ++ buffer.drop front.length).set front.length ch =
      front ++ [ch] ++ buffer.drop (front.length + 1) := by
  rw [List.drop_eq_getElem_cons room, List.set_append_right _ _ (Nat.le_refl _), Nat.sub_self,
    List.set_cons_zero, List.append_assoc, List.singleton_append]

/-- A buffer over which the bytes taken after the first `send_len` are written. -/
def filled (sendLen : ℕ) (taken : List Received) (buffer : List UInt8) : List UInt8 :=
  (taken.drop sendLen).map Received.byte ++ buffer.drop (taken.length - sendLen)

theorem filled_dropped (early : taken.length < sendLen) (next : Received) (buffer : List UInt8) :
    filled sendLen (taken ++ [next]) buffer = filled sendLen taken buffer := by
  have later : (taken ++ [next]).length ≤ sendLen := by
    rw [List.length_append]
    exact early
  rw [filled, filled, List.drop_eq_nil_of_le early.le, List.drop_eq_nil_of_le later,
    Nat.sub_eq_zero_of_le early.le, Nat.sub_eq_zero_of_le later]

theorem filled_kept (late : sendLen ≤ taken.length) (next : Received)
    (room : taken.length - sendLen < buffer.length) :
    (filled sendLen taken buffer).set (taken.length - sendLen) next.byte =
      filled sendLen (taken ++ [next]) buffer := by
  have front : ((taken.drop sendLen).map Received.byte).length = taken.length - sendLen := by
    rw [List.length_map, List.length_drop]
  have length : (taken ++ [next]).length - sendLen = taken.length - sendLen + 1 := by
    rw [List.length_append, List.length_singleton, Nat.sub_add_comm late]
  rw [← front] at room
  have written := set_append_drop _ room next.byte
  rw [front] at written
  rw [filled, filled, written, List.drop_append_of_le_length late, List.map_append, length]
  rfl

/-- The bytes shifted in are those taken and those in the receive FIFO, all of this call.  The
buffer has those taken after the first `send_len`, and the counters say how many there are. -/
structure Receiving (state : MasterState) : Prop where
  paired : state.transfer.shiftedIn.length = state.transfer.shiftedOut.length
  received : state.transfer.shiftedIn = (state.transfer.taken ++ state.rxFifo).map Received.byte
  own : ∀ received ∈ state.transfer.taken ++ state.rxFifo, received.call = state.transfer.call
  delivered : ∀ buffer, state.transfer.message.recvBuf = some buffer →
    state.transfer.recvBuf =
      filled state.transfer.message.sendLen state.transfer.taken buffer
  counters : state.rxPtr = true →
    state.rxDrop = state.transfer.message.sendLen - state.transfer.taken.length ∧
      state.rxOffset = state.transfer.taken.length - state.transfer.message.sendLen ∧
      state.rxLen = state.transfer.message.recvLen
  pointed : (state.phase = .idle → state.rxPtr = false) ∧
    (state.phase ≠ .idle → state.rxPtr = state.transfer.message.recvBuf.isSome)

/-- A byte that is taken changes the receiver's counters and the buffer, and leaves an empty receive
FIFO empty. -/
theorem takeByte_frame (state : MasterState) :
    ∃ rxFifo rxDrop rxOffset recvBuf taken, (state.rxFifo = [] → rxFifo = []) ∧
      takeByte state =
        { state with
          rxFifo
          rxDrop
          rxOffset
          transfer := { state.transfer with recvBuf, taken } } := by
  rw [takeByte]
  split
  next empty => exact ⟨_, _, _, _, _, id, rfl⟩
  next received rest full =>
    have leaves : state.rxFifo = [] → rest = [] := by
      intro empty
      rw [empty] at full
      cases full
    rw [keepByte]
    split
    · split
      · exact ⟨_, _, _, _, _, leaves, rfl⟩
      · split
        · exact ⟨_, _, _, _, _, leaves, rfl⟩
        · exact ⟨_, _, _, _, _, leaves, rfl⟩
    · exact ⟨_, _, _, _, _, leaves, rfl⟩

theorem Sending.takeByte (sending : Sending state) : Sending (takeByte state) := by
  obtain ⟨rxFifo, rxDrop, rxOffset, recvBuf, taken, -, frame⟩ := takeByte_frame state
  rw [frame]
  exact sending.congr rfl rfl rfl rfl rfl rfl

namespace Receiving

variable {state : MasterState}

theorem shiftByte (receiving : Receiving state) (byte : UInt8) :
    Receiving (shiftByte state byte) := by
  obtain ⟨paired, received, own, delivered, counters, pointed⟩ := receiving
  rw [SpiMaster.shiftByte]
  split
  next => exact ⟨paired, received, own, delivered, counters, pointed⟩
  next leaving rest full =>
    refine ⟨?_, ?_, ?_, delivered, counters, pointed⟩
    · simp only [List.length_append, paired]
      rfl
    · simp only [received, List.map_append, List.append_assoc]
      rfl
    · intro other member
      rw [← List.append_assoc, List.mem_append, List.mem_singleton] at member
      rcases member with earlier | rfl
      · exact own other earlier
      · rfl

/-- A byte read from the receive FIFO is dropped while the message goes out, and stored behind the
bytes stored before it afterwards. -/
theorem takeByte (receiving : Receiving state)
    (bound : state.transfer.shiftedOut.length ≤
      state.transfer.message.sendLen + state.transfer.message.recvLen)
    (calling : state.rxFifo ≠ [] → state.phase ≠ .idle) : Receiving (takeByte state) := by
  obtain ⟨paired, received, own, delivered, counters, pointed⟩ := receiving
  rw [SpiMaster.takeByte]
  split
  next => exact ⟨paired, received, own, delivered, counters, pointed⟩
  next next rest full =>
    have set : state.rxPtr = state.transfer.message.recvBuf.isSome := by
      apply pointed.2
      apply calling
      rw [full]
      exact List.cons_ne_nil _ _
    rw [full, List.append_cons] at received own
    have taken_lt : state.transfer.taken.length <
        state.transfer.message.sendLen + state.transfer.message.recvLen := by
      rw [← paired, received] at bound
      simp only [List.length_map, List.length_append, List.length_singleton] at bound
      omega
    rw [keepByte]
    split
    next there =>
      obtain ⟨drop, offset, len⟩ := counters there
      split
      next dropping =>
        have early : state.transfer.taken.length < state.transfer.message.sendLen := by
          simp only [drop] at dropping
          omega
        refine ⟨paired, received, own, ?_, ?_, pointed⟩
        · intro buffer given
          exact (delivered buffer given).trans (filled_dropped early next buffer).symm
        · intro _
          simp only [drop, offset, len, List.length_append, List.length_singleton, and_true]
          omega
      next kept =>
        have late : state.transfer.message.sendLen ≤ state.transfer.taken.length := by
          simp only [drop] at kept
          omega
        have inside : state.transfer.taken.length - state.transfer.message.sendLen <
            state.transfer.message.recvLen := by omega
        split
        next =>
          refine ⟨paired, received, own, ?_, ?_, pointed⟩
          · intro buffer given
            have room := Nat.lt_of_lt_of_le inside (state.transfer.message.fits buffer given)
            simp only [offset, delivered buffer given]
            exact filled_kept late next room
          · intro _
            simp only [drop, offset, len, List.length_append, List.length_singleton, and_true]
            omega
        next outside =>
          simp only [offset, len] at outside
          exact absurd inside outside
    next null =>
      have none : state.transfer.message.recvBuf = none := by
        rw [← Option.not_isSome_iff_eq_none, ← set]
        exact null
      refine ⟨paired, received, own, ?_, fun there => absurd there null, pointed⟩
      intro buffer given
      rw [none] at given
      cases given

theorem withInterrupt (receiving : Receiving state) (interrupt : Option Interrupt) :
    Receiving { state with interrupt } :=
  ⟨receiving.paired, receiving.received, receiving.own, receiving.delivered, receiving.counters,
    receiving.pointed⟩

end Receiving

end BdkFreertos.SpiMaster
