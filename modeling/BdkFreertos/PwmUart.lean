import BdkFreertos.Circular
import BdkFreertos.Machine
import Mathlib.Data.List.ReduceOption
import Mathlib.Data.UInt

/-!
# Transmission of the simulated UART

A timer interrupt sets the line to one level after the other.  Bytes that are sent one at a time go
through a ring; a whole buffer is sent from where it is.
-/

namespace BdkFreertos.PwmUart

/-- What `p_uart_io_sim_tx_buf` points to. -/
inductive TxBuf
  /-- `uart_io_sim_tx_buf`. -/
  | own
  /-- The buffer of a caller, and what is behind it. -/
  | direct (bytes : Memory UInt8)

structure Uart where
  uartIoStart : Bool
  pTxBuf : Option TxBuf
  txBuf : Memory UInt8
  txBufSize : UInt32
  txBufCurrentBit : UInt8
  txFirstStart : Bool
  txBufCurrentCnt : UInt32
  /-- The interrupt of the timer is enabled in `PWM_CTL`. -/
  timer : Bool

/-- `UART_IO_SIM_TX_FIFO_MAX_COUNT`. -/
def txFifoMaxCount : UInt32 := 512

/-- After `uart_io_sim_init`. -/
def uartIoSimInit : Uart where
  uartIoStart := true
  pTxBuf := none
  txBuf := fun _ => 0
  txBufSize := 0
  txBufCurrentBit := 0
  txFirstStart := false
  txBufCurrentCnt := 0
  timer := false

def wrap (index : UInt32) : UInt32 := if index = txFifoMaxCount then 0 else index

/-- `p_uart_io_sim_tx_buf[uart_io_sim_tx_buf_current_cnt]`. -/
def Uart.currentByte (uart : Uart) : TxBuf → UInt8
  | .own => uart.txBuf uart.txBufCurrentCnt.toNat
  | .direct bytes => bytes uart.txBufCurrentCnt.toNat

/-- `uart_io_sim_timer_int_handle_tx_data`, with the level it sets. -/
def uartIoSimTimerIntHandleTxData (uart : Uart) : Uart × Option Bool :=
  if uart.txFirstStart then ({ uart with txFirstStart := false }, some false)
  else
    match uart.pTxBuf with
    | none => ({ uart with timer := false }, some true)
    | some buf =>
        let bit := uart.txBufCurrentBit
        if bit < 8 then
          ({ uart with txBufCurrentBit := bit + 1 },
            some ((uart.currentByte buf >>> bit) &&& 0x01 != 0))
        else if bit = 8 ∨ bit = 9 then ({ uart with txBufCurrentBit := bit + 1 }, some true)
        else
          let cnt := wrap (uart.txBufCurrentCnt + 1)
          if cnt = uart.txBufSize then
            ({ uart with pTxBuf := none, txBufCurrentBit := 0, txBufCurrentCnt := cnt }, none)
          else ({ uart with txBufCurrentBit := 0, txBufCurrentCnt := cnt }, some false)

/-- `uart_io_sim_send_byte`. -/
def uartIoSimSendByte (uart : Uart) (data : UInt8) : Uart :=
  if uart.uartIoStart = false then uart
  else
    match uart.pTxBuf with
    | some .own =>
        { uart with
          txBuf := uart.txBuf.store uart.txBufSize.toNat [data]
          txBufSize := wrap (uart.txBufSize + 1) }
    | some (.direct bytes) =>
        { uart with
          pTxBuf := some (.direct (bytes.store uart.txBufSize.toNat [data]))
          txBufSize := wrap (uart.txBufSize + 1) }
    | none =>
        { uart with
          pTxBuf := some .own
          txBuf := Memory.store (fun _ => 0) 0 [data]
          txBufSize := wrap 1
          txBufCurrentCnt := 0
          txFirstStart := true
          timer := true }

/-- `uart_io_sim_send`. -/
def uartIoSimSend (uart : Uart) (buff : Option (Memory UInt8)) (len : Int32) : Uart :=
  match buff with
  | none => uart
  | some bytes =>
      if len < 0 then uart
      else
        { uart with
          pTxBuf := some (.direct bytes)
          txBufSize := len.toUInt32
          txBufCurrentCnt := 0
          txBufCurrentBit := 0
          timer := true }

inductive Event
  | sendByte (data : UInt8)
  | send (buff : Option (Memory UInt8)) (len : Int32)
  | tick

def machine : Machine Uart Event (Option Bool) where
  step uart
    | .sendByte data => (uartIoSimSendByte uart data, none)
    | .send buff len => (uartIoSimSend uart buff len, none)
    | .tick => if uart.timer then uartIoSimTimerIntHandleTxData uart else (uart, none)

/-! ## What is meant -/

def frame (byte : UInt8) : List Bool :=
  false :: (List.range 8).map byte.toNat.testBit ++ [true, true]

/-- The levels of bytes in order, with nothing between their frames but the idle level. -/
inductive Line : List UInt8 → List Bool → Prop
  | nil : Line [] []
  | idle {bytes : List UInt8} {levels : List Bool} (earlier : Line bytes levels) :
      Line bytes (levels ++ [true])
  | byte {bytes : List UInt8} {levels : List Bool} (earlier : Line bytes levels) (last : UInt8) :
      Line (bytes ++ [last]) (levels ++ frame last)

/-- The bytes that a call submits. -/
def Event.bytes : Event → List UInt8
  | .sendByte data => [data]
  | .send (some buff) len => if len < 0 then [] else buff.load 0 len.toInt.toNat
  | .send none _ => []
  | .tick => []

def submitted (events : List Event) : List UInt8 := events.flatMap Event.bytes

def levels (events : List Event) : List Bool := (machine.outputs uartIoSimInit events).reduceOption

/-- The levels set so far are those of the bytes that were submitted first and a part of the frame
of the next one; an idle transmitter has sent all of them. -/
def Framed (submitted : List UInt8) (levels : List Bool) (idle : Prop) : Prop :=
  ∃ sent pending line part, submitted = sent ++ pending ∧ levels = line ++ part ∧
    Line sent line ∧ part <+: (pending.head?.map frame).getD [] ∧ (idle → pending = [])

/-- How many bytes are not sent yet. -/
def Uart.outstanding (uart : Uart) : ℕ :=
  match uart.pTxBuf with
  | none => 0
  | some _ => (uart.txBufSize.toNat + 512 - uart.txBufCurrentCnt.toNat) % 512

/-- Fewer bytes are outstanding than the ring holds, and a buffer is sent by an idle transmitter
only. -/
def Admissible (uart : Uart) : Event → Prop
  | .sendByte _ => uart.outstanding + 1 < 512
  | .send _ len => uart.pTxBuf.isNone = true ∧ len.toInt < 512
  | .tick => True

instance (uart : Uart) : (event : Event) → Decidable (Admissible uart event)
  | .sendByte _ => inferInstanceAs (Decidable (_ < _))
  | .send _ _ => inferInstanceAs (Decidable (_ ∧ _))
  | .tick => isTrue trivial

/-- No buffer is sent from where it is. -/
def Careful : Event → Prop
  | .send (some _) len => len < 0
  | _ => True

/-! ## The invariant -/

/-- The transmitter is idle. -/
structure Resting (uart : Uart) : Prop where
  started : uart.uartIoStart = true
  pointer : uart.pTxBuf = none
  bit : uart.txBufCurrentBit = 0
  noStart : uart.txFirstStart = false

/-- The transmitter sends the bytes of a burst from the ring, and is at one of them. -/
structure Busy (uart : Uart) (burst : List UInt8) (first : ℕ) : Prop where
  started : uart.uartIoStart = true
  pointer : uart.pTxBuf = some .own
  timer : uart.timer = true
  carries : uart.txBuf.Carries 512 burst first burst.length
  left : first < burst.length
  room : burst.length < first + 512
  cnt : uart.txBufCurrentCnt.toNat = first % 512
  size : uart.txBufSize.toNat = burst.length % 512

/-- What is pending, the levels set of its first frame, and the number of ticks until the
transmitter is idle. -/
inductive Sending (uart : Uart) : List UInt8 → List Bool → ℕ → Prop
  | resting (resting : Resting uart) : Sending uart [] [] 0
  | starting {burst : List UInt8} {first : ℕ} (busy : Busy uart burst first)
      (start : uart.txFirstStart = true) (bit : uart.txBufCurrentBit = 0) :
      Sending uart (burst.drop first) [] (11 * (burst.length - first) + 1)
  | framing {burst : List UInt8} {first bit : ℕ} {byte : UInt8} (busy : Busy uart burst first)
      (noStart : uart.txFirstStart = false) (bit_eq : uart.txBufCurrentBit.toNat = bit)
      (inside : bit ≤ 10) (next : burst[first]? = some byte) :
      Sending uart (burst.drop first) ((frame byte).take (bit + 1))
        (11 * (burst.length - first) - bit)

/-- The levels are those of the bytes sent and of what is being sent. -/
def Books (submitted : List UInt8) (levels : List Bool) (uart : Uart) (left : ℕ) : Prop :=
  ∃ sent pending line part, submitted = sent ++ pending ∧ levels = line ++ part ∧
    Line sent line ∧ Sending uart pending part left

/-! ## Levels of a frame -/

@[simp]
theorem length_frame (byte : UInt8) : (frame byte).length = 11 := by simp [frame]

variable {bit : ℕ} {part : List Bool} {pending : List UInt8} {left : ℕ} (event : Event)

theorem frame_level (byte : UInt8) (inside : bit < 10) :
    (frame byte)[bit + 1]? = some (if bit < 8 then byte.toNat.testBit bit else true) := by
  rw [frame, List.cons_append, List.getElem?_cons_succ]
  split
  · rename_i data
    rw [List.getElem?_append_left (by simpa using data), List.getElem?_map,
      List.getElem?_range data]
    rfl
  · rename_i stop
    rw [List.getElem?_append_right (by simpa using stop), List.length_map, List.length_range]
    obtain rfl | rfl : bit = 8 ∨ bit = 9 := by omega
    all_goals rfl

theorem dataBit_eq (byte : UInt8) {bit : UInt8} (inside : bit < 8) :
    ((byte >>> bit) &&& 0x01 != 0) = byte.toNat.testBit bit.toNat := by
  have small : bit.toNat < 8 := UInt8.lt_iff_toNat_lt.mp inside
  have value : ((byte >>> bit) &&& 0x01).toNat = byte.toNat >>> bit.toNat &&& 1 := by
    rw [UInt8.toNat_and, UInt8.toNat_shiftRight, Nat.mod_eq_of_lt small]
    rfl
  have zero_iff : (byte >>> bit) &&& 0x01 = 0 ↔ byte.toNat >>> bit.toNat &&& 1 = 0 := by
    rw [← value, ← UInt8.toNat_inj]
    rfl
  rw [Nat.testBit, Nat.and_comm, Bool.eq_iff_iff, bne_iff_ne, bne_iff_ne, ne_eq, ne_eq, zero_iff]

/-! ## Ticks -/

variable {uart : Uart} {burst : List UInt8} {first : ℕ}

theorem Busy.setBit (busy : Busy uart burst first) (bit : UInt8) (start : Bool) :
    Busy { uart with txBufCurrentBit := bit, txFirstStart := start } burst first :=
  ⟨busy.started, busy.pointer, busy.timer, busy.carries, busy.left, busy.room, busy.cnt, busy.size⟩

theorem Busy.currentByte (busy : Busy uart burst first) :
    burst[first]? = some (uart.currentByte .own) := by
  rw [Uart.currentByte, busy.cnt]
  exact busy.carries first le_rfl busy.left

theorem toNat_wrap_succ {index : UInt32} {place : ℕ} (index_eq : index.toNat = place % 512) :
    (wrap (index + 1)).toNat = (place + 1) % 512 := by
  have next : (index + 1).toNat = place % 512 + 1 := by
    rw [UInt32.toNat_add, index_eq]
    change (place % 512 + 1) % 2 ^ 32 = place % 512 + 1
    omega
  rw [wrap]
  split
  · rename_i full
    have full : place % 512 + 1 = 512 := next.symm.trans (congrArg UInt32.toNat full)
    change 0 = (place + 1) % 512
    omega
  · rename_i notFull
    have notFull : place % 512 + 1 ≠ 512 := fun full =>
      notFull (UInt32.toNat_inj.mp (next.trans full))
    rw [next]
    omega

theorem Busy.next_eq_iff (busy : Busy uart burst first) :
    wrap (uart.txBufCurrentCnt + 1) = uart.txBufSize ↔ first + 1 = burst.length := by
  rw [← UInt32.toNat_inj, toNat_wrap_succ busy.cnt, busy.size]
  have left := busy.left
  have room := busy.room
  omega

theorem Busy.advance (busy : Busy uart burst first) (more : first + 1 < burst.length) :
    Busy { uart with txBufCurrentBit := 0, txBufCurrentCnt := wrap (uart.txBufCurrentCnt + 1) }
      burst (first + 1) :=
  ⟨busy.started, busy.pointer, busy.timer, busy.carries.mono (Nat.le_succ first) le_rfl, more,
    Nat.lt_add_right 1 busy.room |>.trans_eq (Nat.add_right_comm ..),
    toNat_wrap_succ busy.cnt, busy.size⟩

theorem step_tick (uart : Uart) :
    machine.step uart .tick =
      if uart.timer then uartIoSimTimerIntHandleTxData uart else (uart, none) := rfl

theorem tick_resting (resting : Resting uart) :
    uartIoSimTimerIntHandleTxData uart = ({ uart with timer := false }, some true) := by
  unfold uartIoSimTimerIntHandleTxData
  rw [if_neg (by rw [resting.noStart]; decide), resting.pointer]

theorem tick_start (start : uart.txFirstStart = true) :
    uartIoSimTimerIntHandleTxData uart = ({ uart with txFirstStart := false }, some false) :=
  if_pos start

theorem tick_inside {byte : UInt8} (busy : Busy uart burst first)
    (noStart : uart.txFirstStart = false) (bit_eq : uart.txBufCurrentBit.toNat = bit)
    (inside : bit < 10) (next : burst[first]? = some byte) :
    ∃ level, (frame byte)[bit + 1]? = some level ∧
      uartIoSimTimerIntHandleTxData uart =
        ({ uart with txBufCurrentBit := uart.txBufCurrentBit + 1 }, some level) := by
  have byte_eq : uart.currentByte .own = byte :=
    Option.some.inj (busy.currentByte.symm.trans next)
  simp only [uartIoSimTimerIntHandleTxData, noStart, Bool.false_eq_true, if_false, busy.pointer]
  refine ⟨_, frame_level byte inside, ?_⟩
  by_cases data : uart.txBufCurrentBit < 8
  · have data' : bit < 8 := bit_eq ▸ UInt8.lt_iff_toNat_lt.mp data
    rw [if_pos data, if_pos data', byte_eq, dataBit_eq byte data, bit_eq]
  · have data' : ¬bit < 8 := fun small =>
      data (UInt8.lt_iff_toNat_lt.mpr (bit_eq ▸ small))
    have stop : uart.txBufCurrentBit = 8 ∨ uart.txBufCurrentBit = 9 := by
      rw [← UInt8.toNat_inj, ← UInt8.toNat_inj, bit_eq]
      change bit = 8 ∨ bit = 9
      omega
    rw [if_neg data, if_pos stop, if_neg data']

theorem tick_behind (busy : Busy uart burst first) (noStart : uart.txFirstStart = false)
    (bit_eq : uart.txBufCurrentBit.toNat = 10) :
    uartIoSimTimerIntHandleTxData uart =
      if first + 1 = burst.length then
        ({ uart with
            pTxBuf := none
            txBufCurrentBit := 0
            txBufCurrentCnt := wrap (uart.txBufCurrentCnt + 1) }, none)
      else
        ({ uart with
            txBufCurrentBit := 0
            txBufCurrentCnt := wrap (uart.txBufCurrentCnt + 1) }, some false) := by
  obtain ten : uart.txBufCurrentBit = 10 := UInt8.toNat_inj.mp bit_eq
  have notData : ¬(10 : UInt8) < 8 := by decide
  have notStop : ¬((10 : UInt8) = 8 ∨ (10 : UInt8) = 9) := by decide
  simp [uartIoSimTimerIntHandleTxData, noStart, busy.pointer, ten, busy.next_eq_iff]

/-- What a tick adds: it completes some bytes with their line and leaves the rest. -/
def Adds (pending : List UInt8) (levels : List Bool) (uart : Uart) (left : ℕ) : Prop :=
  ∃ sent pending' line part, pending = sent ++ pending' ∧ levels = line ++ part ∧
    (∀ {bytes earlier}, Line bytes earlier → Line (bytes ++ sent) (earlier ++ line)) ∧
      Sending uart pending' part left

theorem drop_eq_cons {byte : UInt8} (next : burst[first]? = some byte) :
    burst.drop first = byte :: burst.drop (first + 1) := by
  obtain ⟨inside, rfl⟩ := List.getElem?_eq_some_iff.mp next
  exact List.drop_eq_getElem_cons inside

theorem adds_of_resting (resting : Resting uart) (part : List Bool) (timer : Bool)
    (idle : part = [] ∨ part = [true]) : Adds [] part { uart with timer } 0 := by
  refine ⟨[], [], part, [], rfl, (List.append_nil part).symm, fun {bytes earlier} line => ?_,
    .resting ⟨resting.started, resting.pointer, resting.bit, resting.noStart⟩⟩
  rw [List.append_nil]
  obtain rfl | rfl := idle
  · rwa [List.append_nil]
  · exact line.idle

theorem adds_start (busy : Busy uart burst first) (bit : uart.txBufCurrentBit = 0) :
    Adds (burst.drop first) [false] { uart with txFirstStart := false }
      (11 * (burst.length - first)) := by
  have sending : Sending { uart with txFirstStart := false } (burst.drop first)
      ((frame (uart.currentByte .own)).take 1) (11 * (burst.length - first)) :=
    .framing (busy.setBit uart.txBufCurrentBit false) rfl (congrArg UInt8.toNat bit)
      (Nat.zero_le 10) busy.currentByte
  refine ⟨[], burst.drop first, [], [false], rfl, rfl, fun {bytes earlier} line => ?_, sending⟩
  rwa [List.append_nil, List.append_nil]

section

variable (busy : Busy uart burst first) (noStart : uart.txFirstStart = false)
include busy noStart

/-- A level within a frame. -/
theorem adds_inside {byte : UInt8} {level : Bool} (bit_eq : uart.txBufCurrentBit.toNat = bit)
    (inside : bit < 10) (next : burst[first]? = some byte)
    (level_eq : (frame byte)[bit + 1]? = some level) :
    Adds (burst.drop first) ((frame byte).take (bit + 1) ++ [level])
      { uart with txBufCurrentBit := uart.txBufCurrentBit + 1 }
      (11 * (burst.length - first) - (bit + 1)) := by
  have counted : (uart.txBufCurrentBit + 1).toNat = bit + 1 := by
    rw [UInt8.toNat_add, bit_eq]
    change (bit + 1) % 2 ^ 8 = bit + 1
    omega
  have longer : (frame byte).take (bit + 1) ++ [level] = (frame byte).take (bit + 1 + 1) := by
    rw [List.take_add_one (i := bit + 1), level_eq]
    rfl
  refine ⟨[], burst.drop first, [], (frame byte).take (bit + 1) ++ [level], rfl, rfl,
    fun {bytes earlier} line => ?_, ?_⟩
  · rwa [List.append_nil, List.append_nil]
  · rw [longer]
    exact .framing (busy.setBit (uart.txBufCurrentBit + 1) uart.txFirstStart) noStart counted
      inside next

theorem adds_last {byte : UInt8} (next : burst[first]? = some byte)
    (last : first + 1 = burst.length) (cnt : UInt32) :
    Adds (burst.drop first) ((frame byte).take 11)
      { uart with pTxBuf := none, txBufCurrentBit := 0, txBufCurrentCnt := cnt } 0 := by
  refine ⟨[byte], [], frame byte, [], ?_, ?_, fun {bytes earlier} line => line.byte byte,
    .resting ⟨busy.started, rfl, rfl, noStart⟩⟩
  · rw [drop_eq_cons next, last, List.drop_length]
    rfl
  · rw [List.append_nil, List.take_of_length_le (length_frame byte).le]

theorem adds_next {byte : UInt8} (next : burst[first]? = some byte)
    (more : first + 1 < burst.length) :
    Adds (burst.drop first) ((frame byte).take 11 ++ [false])
      { uart with txBufCurrentBit := 0, txBufCurrentCnt := wrap (uart.txBufCurrentCnt + 1) }
      (11 * (burst.length - (first + 1))) := by
  have advanced := busy.advance more
  refine ⟨[byte], burst.drop (first + 1), frame byte, [false], drop_eq_cons next, ?_,
    fun {bytes earlier} line => line.byte byte,
    .framing advanced noStart rfl (Nat.zero_le 10) advanced.currentByte⟩
  rw [List.take_of_length_le (length_frame byte).le]

end

theorem sending_tick (sending : Sending uart pending part left) :
    Adds pending (part ++ (machine.step uart .tick).2.toList) (machine.step uart .tick).1
      (left - 1) := by
  rw [step_tick]
  cases sending with
  | resting resting =>
      cases timer : uart.timer with
      | false => exact adds_of_resting resting [] uart.timer (.inl rfl)
      | true =>
          rw [if_pos rfl, tick_resting resting]
          exact adds_of_resting resting [true] false (.inr rfl)
  | starting busy start bit =>
      rw [if_pos busy.timer, tick_start start]
      exact adds_start busy bit
  | @framing burst first bit byte busy noStart bit_eq inside next =>
      rw [if_pos busy.timer]
      rcases Nat.lt_or_ge bit 10 with early | late
      · obtain ⟨level, level_eq, tick_eq⟩ := tick_inside busy noStart bit_eq early next
        rw [tick_eq, Nat.sub_sub]
        exact adds_inside busy noStart bit_eq early next level_eq
      · obtain rfl : bit = 10 := Nat.le_antisymm inside late
        rw [tick_behind busy noStart bit_eq]
        have some_left := busy.left
        split
        · rename_i last
          have none_left : 11 * (burst.length - first) - 10 - 1 = 0 := by omega
          rw [none_left]
          simp only [Option.toList_none, List.append_nil]
          exact adds_last busy noStart next last _
        · rename_i notLast
          have one_less :
              11 * (burst.length - first) - 10 - 1 = 11 * (burst.length - (first + 1)) := by omega
          rw [one_less]
          exact adds_next busy noStart next (by omega)

/-! ## Calls -/

theorem Busy.outstanding (busy : Busy uart burst first) :
    uart.outstanding = burst.length - first := by
  have left := busy.left
  have room := busy.room
  rw [Uart.outstanding, busy.pointer, busy.size, busy.cnt]
  change (burst.length % 512 + 512 - first % 512) % 512 = burst.length - first
  omega

theorem sendByte_busy (busy : Busy uart burst first) (data : UInt8) :
    uartIoSimSendByte uart data =
      { uart with
        txBuf := uart.txBuf.store uart.txBufSize.toNat [data]
        txBufSize := wrap (uart.txBufSize + 1) } := by
  have notStopped : ¬uart.uartIoStart = false := by
    rw [busy.started]
    decide
  rw [uartIoSimSendByte, if_neg notStopped, busy.pointer]

theorem sendByte_resting (resting : Resting uart) (data : UInt8) :
    uartIoSimSendByte uart data =
      { uart with
        pTxBuf := some .own
        txBuf := Memory.store (fun _ => 0) 0 [data]
        txBufSize := wrap 1
        txBufCurrentCnt := 0
        txFirstStart := true
        timer := true } := by
  have notStopped : ¬uart.uartIoStart = false := by
    rw [resting.started]
    decide
  rw [uartIoSimSendByte, if_neg notStopped, resting.pointer]

theorem Busy.put (busy : Busy uart burst first) (room : uart.outstanding + 1 < 512)
    (data : UInt8) : Busy (uartIoSimSendByte uart data) (burst ++ [data]) first := by
  have some_left := busy.left
  rw [busy.outstanding] at room
  have carries := (busy.carries.append [data]).put List.getElem?_concat_length busy.room
  rw [← busy.size] at carries
  have length_eq : (burst ++ [data]).length = burst.length + 1 := by simp
  rw [sendByte_busy busy]
  refine ⟨busy.started, busy.pointer, busy.timer, ?_, ?_, ?_, busy.cnt, ?_⟩
  · rw [length_eq]
    exact carries
  · omega
  · omega
  · rw [length_eq]
    exact toNat_wrap_succ busy.size

theorem busy_of_resting (resting : Resting uart) (data : UInt8) :
    Busy (uartIoSimSendByte uart data) [data] 0 := by
  have carries := (Memory.carries_nothing (fun _ => 0) 512 [data] 0).put rfl (by decide)
  have room : 1 < 0 + 512 := by decide
  rw [sendByte_resting resting]
  exact ⟨resting.started, rfl, rfl, carries, Nat.zero_lt_one, room, rfl, rfl⟩

theorem sending_sendByte (sending : Sending uart pending part left)
    (room : uart.outstanding + 1 < 512) (data : UInt8) :
    ∃ left, Sending (uartIoSimSendByte uart data) (pending ++ [data]) part left := by
  cases sending with
  | resting resting =>
      refine ⟨_, .starting (busy_of_resting resting data) ?_ ?_⟩
      · rw [sendByte_resting resting]
      · rw [sendByte_resting resting]
        exact resting.bit
  | @starting burst first busy start bit =>
      rw [← List.drop_append_of_le_length busy.left.le]
      refine ⟨_, .starting (busy.put room data) ?_ ?_⟩
      · rwa [sendByte_busy busy]
      · rwa [sendByte_busy busy]
  | @framing burst first bit byte busy noStart bit_eq inside next =>
      rw [← List.drop_append_of_le_length busy.left.le]
      refine ⟨_, .framing (busy.put room data) ?_ ?_ inside ?_⟩
      · rwa [sendByte_busy busy]
      · rwa [sendByte_busy busy]
      · rwa [List.getElem?_append_left busy.left]

/-! ## Every run -/

theorem books_tick {submitted : List UInt8} {levels : List Bool}
    (books : Books submitted levels uart left) :
    Books submitted (levels ++ (machine.step uart .tick).2.toList) (machine.step uart .tick).1
      (left - 1) := by
  obtain ⟨sent, pending, line, part, rfl, rfl, sent_line, sending⟩ := books
  obtain ⟨done, pending, front, part, rfl, part_eq, extends_line, sending⟩ := sending_tick sending
  refine ⟨sent ++ done, pending, line ++ front, part, (List.append_assoc ..).symm, ?_,
    extends_line sent_line, sending⟩
  rw [List.append_assoc, part_eq, List.append_assoc]

theorem submitted_append (front back : List Event) :
    submitted (front ++ back) = submitted front ++ submitted back := List.flatMap_append

theorem submitted_singleton : submitted [event] = event.bytes := by
  simp [submitted]

theorem books_step {bytes : List UInt8} {levels : List Bool} (books : Books bytes levels uart left)
    (admissible : Admissible uart event) (careful : Careful event) :
    ∃ left, Books (bytes ++ event.bytes) (levels ++ (machine.step uart event).2.toList)
      (machine.step uart event).1 left := by
  cases event with
  | tick => exact ⟨left - 1, (List.append_nil bytes).symm ▸ books_tick books⟩
  | sendByte data =>
      obtain ⟨sent, pending, line, part, rfl, rfl, sent_line, sending⟩ := books
      obtain ⟨left, sending⟩ := sending_sendByte sending admissible data
      exact ⟨left, sent, pending ++ [data], line, part, List.append_assoc ..,
        List.append_nil _, sent_line, sending⟩
  | send buff len =>
      have ignored : uartIoSimSend uart buff len = uart ∧ (Event.send buff len).bytes = [] := by
        cases buff with
        | none => exact ⟨rfl, rfl⟩
        | some bytes => exact ⟨if_pos careful, if_pos careful⟩
      refine ⟨left, ?_⟩
      change Books (bytes ++ (Event.send buff len).bytes) (levels ++ [])
        (uartIoSimSend uart buff len) left
      rwa [ignored.1, ignored.2, List.append_nil, List.append_nil]

theorem run_books {events : List Event}
    (admissible : machine.Always Admissible uartIoSimInit events)
    (careful : ∀ event ∈ events, Careful event) :
    ∃ left, Books (submitted events) (levels events) (machine.run uartIoSimInit events) left := by
  have meets := (machine.always_and Admissible (fun _ event => Careful event) uartIoSimInit
    events).mpr ⟨admissible, machine.always_of_forall Careful uartIoSimInit careful⟩
  have initial : Books [] [] uartIoSimInit 0 :=
    ⟨[], [], [], [], rfl, rfl, .nil, .resting ⟨rfl, rfl, rfl, rfl⟩⟩
  refine machine.history_induction _
    (fun inputs outputs uart => ∃ left, Books (submitted inputs) outputs.reduceOption uart left)
    ⟨0, initial⟩ ?_ meets
  rintro inputs outputs uart event ⟨left, books⟩ ⟨admissible, careful⟩
  rw [submitted_append, submitted_singleton, List.reduceOption_append,
    List.reduceOption_singleton]
  exact books_step event books admissible careful

theorem framed_of_books {bytes : List UInt8} {levels : List Bool}
    (books : Books bytes levels uart left) : Framed bytes levels (uart.pTxBuf = none) := by
  obtain ⟨sent, pending, line, part, bytes_eq, levels_eq, sent_line, sending⟩ := books
  refine ⟨sent, pending, line, part, bytes_eq, levels_eq, sent_line, ?_⟩
  cases sending with
  | resting => exact ⟨List.nil_prefix, fun _ => rfl⟩
  | starting busy => exact ⟨List.nil_prefix, fun idle => nomatch busy.pointer.symm.trans idle⟩
  | framing busy noStart bit_eq inside next =>
      rw [List.head?_drop, next]
      exact ⟨List.take_prefix .., fun idle => nomatch busy.pointer.symm.trans idle⟩

theorem books_ticks {bytes : List UInt8} {levels : List Bool} (count : ℕ)
    (books : Books bytes levels uart left) :
    Books bytes
      (levels ++ (machine.outputs uart (List.replicate count .tick)).reduceOption)
      (machine.run uart (List.replicate count .tick)) (left - count) := by
  induction count generalizing uart levels left with
  | zero =>
      rw [List.replicate_zero, Machine.outputs_nil, List.reduceOption_nil, List.append_nil]
      exact books
  | succ count induction =>
      have later := induction (books_tick books)
      have split_eq (level : Option Bool) (rest : List (Option Bool)) :
          (level :: rest).reduceOption = level.toList ++ rest.reduceOption := by
        cases level <;> rfl
      rw [List.replicate_succ, Machine.outputs_cons, split_eq, ← List.append_assoc,
        Nat.add_comm count, ← Nat.sub_sub]
      exact later

theorem line_of_books {bytes : List UInt8} {levels : List Bool}
    (books : Books bytes levels uart 0) : Line bytes levels := by
  obtain ⟨sent, pending, line, part, rfl, rfl, sent_line, sending⟩ := books
  generalize none_left : 0 = left at sending
  cases sending with
  | resting => rwa [List.append_nil, List.append_nil]
  | starting busy => exact absurd none_left (Nat.succ_ne_zero _).symm
  | framing busy noStart bit_eq inside next =>
      have some_left := busy.left
      omega

/-- A run in which no buffer is sent from where it is: the levels set are those of the bytes that
were submitted, in order, and when the ticks go on all of them are sent. -/
theorem bytes_framed {events : List Event}
    (admissible : machine.Always Admissible uartIoSimInit events)
    (careful : ∀ event ∈ events, Careful event) :
    (∀ front, front <+: events → Framed (submitted front) (levels front)
      ((machine.run uartIoSimInit front).pTxBuf = none)) ∧
    ∃ count, ∀ more ≥ count,
      Line (submitted events) (levels (events ++ List.replicate more .tick)) := by
  constructor
  · rintro front ⟨back, rfl⟩
    obtain ⟨left, books⟩ := run_books ((machine.always_append ..).mp admissible).1
      fun event member => careful event (List.mem_append_left back member)
    exact framed_of_books books
  · obtain ⟨left, books⟩ := run_books admissible careful
    refine ⟨left, fun more enough => ?_⟩
    have later := books_ticks more books
    rw [Nat.sub_eq_zero_of_le enough, levels, ← List.reduceOption_append,
      ← Machine.outputs_append] at later
    exact line_of_books later

/-- Two bytes, with ticks in between. -/
theorem bytes_framed_two :
    let events := [.sendByte 0x41, .tick, .tick, .sendByte 0x42, .tick]
    (∀ front, front <+: events → Framed (submitted front) (levels front)
      ((machine.run uartIoSimInit front).pTxBuf = none)) ∧
    ∃ count, ∀ more ≥ count,
      Line (submitted events) (levels (events ++ List.replicate more .tick)) := by
  intro events
  refine bytes_framed (by decide) fun event member => ?_
  simp only [events, List.mem_cons, List.not_mem_nil, or_false] at member
  rcases member with rfl | rfl | rfl | rfl | rfl <;> trivial

theorem low_of_line {bytes : List UInt8} {levels : List Bool} (line : Line bytes levels)
    (some_sent : bytes ≠ []) : false ∈ levels := by
  induction line with
  | nil => exact absurd rfl some_sent
  | idle earlier induction => exact List.mem_append_left _ (induction some_sent)
  | byte earlier last induction => exact List.mem_append_right _ List.mem_cons_self

def oneByteBuffer : List Event := .send (some fun _ => 0xff) 1 :: List.replicate 11 .tick

theorem levels_oneByteBuffer : levels oneByteBuffer = List.replicate 10 true := by
  decide +kernel

/-- A buffer of one byte is sent without a start bit. -/
theorem bytes_not_framed :
    ¬∀ events, machine.Always Admissible uartIoSimInit events →
      (∀ front, front <+: events → Framed (submitted front) (levels front)
        ((machine.run uartIoSimInit front).pTxBuf = none)) ∧
      ∃ count, ∀ more ≥ count,
        Line (submitted events) (levels (events ++ List.replicate more .tick)) := by
  intro every
  have admissible : machine.Always Admissible uartIoSimInit oneByteBuffer := by
    decide +kernel
  obtain ⟨sent, pending, line, part, bytes_eq, levels_eq, sent_line, -, complete⟩ :=
    (every oneByteBuffer admissible).1 oneByteBuffer List.prefix_rfl
  have idle : (machine.run uartIoSimInit oneByteBuffer).pTxBuf.isNone = true := by
    decide +kernel
  obtain rfl : pending = [] := complete (Option.isNone_iff_eq_none.mp idle)
  have bytes : submitted oneByteBuffer ≠ [] := by
    decide +kernel
  have some_sent : sent ≠ [] := fun none => bytes (by rw [bytes_eq, none, List.append_nil])
  have low : false ∈ levels oneByteBuffer := by
    rw [levels_eq]
    exact List.mem_append_left part (low_of_line sent_line some_sent)
  rw [levels_oneByteBuffer] at low
  exact absurd low (by decide)

end BdkFreertos.PwmUart
