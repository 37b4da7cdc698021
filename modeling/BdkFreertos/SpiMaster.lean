import BdkFreertos.Machine
import Mathlib.Data.UInt

/-!
# Transfers of the SPI master

A call of `bk_spi_master_xfer` sets its counters, enables the interrupts and waits.  The interrupt
fills the transmit FIFO, empties the receive FIFO from two places and releases the call.  That the
call is over is decided from a status word which was read before the transmit FIFO was filled.
-/

namespace BdkFreertos.SpiMaster

/-- `struct spi_message`, with the memory behind its pointers. -/
structure SpiMessage where
  /-- The `send_len` bytes at `send_buf`. -/
  sendBuf : List UInt8
  /-- What is at `recv_buf`, unless that is `NULL`. -/
  recvBuf : Option (List UInt8)
  recvLen : ℕ
  fits : ∀ buffer ∈ recvBuf, recvLen ≤ buffer.length
  deriving DecidableEq

def SpiMessage.sendLen (message : SpiMessage) : ℕ := message.sendBuf.length

/-- A byte of the receive FIFO, with the call in which it was shifted in. -/
structure Received where
  call : ℕ
  byte : UInt8
  deriving DecidableEq

/-- A call, and what has happened on the bus and in its buffer since it began. -/
structure Transfer where
  call : ℕ
  message : SpiMessage
  /-- What is now at `recv_buf`. -/
  recvBuf : List UInt8
  shiftedOut : List UInt8
  shiftedIn : List UInt8
  /-- The bytes taken from the receive FIFO. -/
  taken : List Received
  deriving DecidableEq

/-- How far `bk_spi_master_xfer` has come. -/
inductive Phase
  | idle
  /-- The counters are set and CS is taken. -/
  | begun
  | rxEnabled
  /-- Both interrupts are enabled, the call waits for `tx_sem`. -/
  | waiting
  /-- The call has taken `tx_sem`. -/
  | released
  | rxDisabled
  /-- Both interrupts are disabled. -/
  | txDisabled
  deriving DecidableEq

/-- Where `spi_isr` is. -/
inductive Place
  /-- In the loop of `bk_spi_rx_callback`. -/
  | rx
  /-- At the head of the loop of `bk_spi_tx_needwrite_callback`. -/
  | needWrite
  /-- After the write of that loop, with `tx_ok`. -/
  | needWriteRx (txOk : Bool)
  /-- At the test of `TXFIFO_EMPTY`. -/
  | finish
  deriving DecidableEq

/-- A run of `spi_isr`, with the bits of the status word it has read. -/
structure Interrupt where
  place : Place
  txFifoEmpty : Bool
  txInt : Bool
  /-- Whether `total_len` was zero when the status word was read. -/
  allWritten : Bool
  deriving DecidableEq

/-- The device, `struct bk_spi_dev` and where the call and the interrupt are.  The callbacks work on
copies of the counters and store them before they return; nothing else runs on the one core in the
meantime, so here they change the counters themselves. -/
structure MasterState where
  /-- The next byte to leave comes first. -/
  txFifo : List UInt8
  /-- The oldest byte comes first. -/
  rxFifo : List Received
  txIntEn : Bool
  rxIntEn : Bool
  /-- The bytes from `tx_ptr` on. -/
  txPtr : List UInt8
  txLen : ℕ
  /-- Whether `rx_ptr` is set, then to the buffer of the call. -/
  rxPtr : Bool
  rxLen : ℕ
  rxOffset : ℕ
  rxDrop : ℕ
  totalLen : ℕ
  /-- `TX_FINISH_FLAG`. -/
  txFinish : Bool
  /-- `tx_sem`, whose count is at most one. -/
  txSem : Bool
  phase : Phase
  interrupt : Option Interrupt
  transfer : Transfer
  /-- The call was released by an interrupt that read its status before everything was written. -/
  early : Bool

/-- After `bk_spi_master_init`, with empty FIFOs. -/
def bkSpiMasterInit : MasterState where
  txFifo := []
  rxFifo := []
  txIntEn := false
  rxIntEn := false
  txPtr := []
  txLen := 0
  rxPtr := false
  rxLen := 0
  rxOffset := 0
  rxDrop := 0
  totalLen := 0
  txFinish := true
  txSem := false
  phase := .idle
  interrupt := none
  transfer :=
    { call := 0
      message := ⟨[], none, 0, by simp⟩
      recvBuf := []
      shiftedOut := []
      shiftedIn := []
      taken := [] }
  early := false

/-- What happens, at any time. -/
inductive Event
  /-- A task calls `bk_spi_master_xfer`. -/
  | xfer (message : SpiMessage)
  | thread
  /-- The device interrupts, because CS went up or because of the FIFOs. -/
  | interrupt (csUp : Bool)
  /-- `spi_isr` does its next step. -/
  | isr
  /-- The bus exchanges a byte of the transmit FIFO for another one. -/
  | shift (byte : UInt8)

/-- What an event gives. -/
inductive Output
  | returned (transfer : Transfer) (result : ℕ)
  | nothing
  deriving DecidableEq

/-! ## The call -/

/-- The counters of `spi_dev` at the beginning of a call. -/
def beginTransfer (state : MasterState) (message : SpiMessage) : MasterState :=
  { state with
    txPtr := message.sendBuf
    txLen := message.sendLen
    rxPtr := message.recvBuf.isSome
    rxLen := message.recvLen
    rxOffset := 0
    rxDrop := message.sendLen
    totalLen := (message.recvLen + message.sendLen) % 2 ^ 32
    txFinish := false
    phase := .begun }

/-- `bk_spi_master_xfer` up to its first sleep or, when there is nothing to do, its end. -/
def bkSpiMasterXfer (state : MasterState) (message : SpiMessage) : MasterState × Output :=
  let called : MasterState :=
    { state with
      transfer :=
        { call := state.transfer.call + 1
          message
          recvBuf := message.recvBuf.getD []
          shiftedOut := []
          shiftedIn := []
          taken := [] } }
  if (message.recvLen + message.sendLen) % 2 ^ 32 = 0 then
    (called, .returned called.transfer message.recvLen)
  else
    (beginTransfer called message, .nothing)

/-- The counters of `spi_dev` at the end of a call. -/
def endTransfer (state : MasterState) : MasterState :=
  { state with
    txPtr := []
    txLen := 0
    rxPtr := false
    rxLen := 0
    totalLen := 0
    txFinish := true
    phase := .idle }

/-- The next step of `bk_spi_master_xfer` after the counters are set. -/
def xferStep (state : MasterState) : MasterState × Output :=
  match state.phase with
  | .idle => (state, .nothing)
  | .begun => ({ state with rxIntEn := true, phase := .rxEnabled }, .nothing)
  | .rxEnabled => ({ state with txIntEn := true, phase := .waiting }, .nothing)
  | .waiting =>
      if state.txSem then
        ({ state with txSem := false, phase := .released }, .nothing)
      else
        (state, .nothing)
  | .released => ({ state with rxIntEn := false, phase := .rxDisabled }, .nothing)
  | .rxDisabled => ({ state with txIntEn := false, phase := .txDisabled }, .nothing)
  | .txDisabled =>
      (endTransfer state, .returned state.transfer state.transfer.message.recvLen)

/-! ## The interrupt -/

/-- What both callbacks do with a byte they have read. -/
def keepByte (state : MasterState) (ch : UInt8) : MasterState :=
  if state.rxPtr then
    if state.rxDrop ≠ 0 then
      { state with rxDrop := state.rxDrop - 1 }
    else if state.rxOffset < state.rxLen then
      { state with
        transfer :=
          { state.transfer with recvBuf := state.transfer.recvBuf.set state.rxOffset ch }
        rxOffset := state.rxOffset + 1 }
    else
      state
  else
    state

/-- `spi_read_rxfifo`, and what is done with the byte. -/
def takeByte (state : MasterState) : MasterState :=
  match state.rxFifo with
  | [] => state
  | received :: rest =>
      keepByte
        { state with
          rxFifo := rest
          transfer := { state.transfer with taken := state.transfer.taken ++ [received] } }
        received.byte

/-- `spi_write_txfifo` with the next byte of the message, or with 0xff after the last. -/
def writeByte (depth : ℕ) (state : MasterState) : Option MasterState :=
  if state.txFifo.length < depth then
    if state.txLen ≠ 0 then
      some
        { state with
          txFifo := state.txFifo ++ [state.txPtr.headD 0]
          txLen := state.txLen - 1
          txPtr := state.txPtr.tail }
    else
      some { state with txFifo := state.txFifo ++ [0xff] }
  else
    none

/-- Where `spi_isr` goes after the reception. -/
def afterRx (txInt : Bool) : Place :=
  if txInt then .needWrite else .finish

/-- The beginning of `spi_isr`: `RXINT` says that the receive FIFO has a byte, `TXINT` that the
transmit FIFO has run down to a level. -/
def spiIsr (txLevel : ℕ) (state : MasterState) (csUp : Bool) : MasterState :=
  let txInt := decide (state.txFifo.length ≤ txLevel)
  { state with
    interrupt := some
      { place := if state.rxFifo ≠ [] ∨ csUp then .rx else afterRx txInt
        txFifoEmpty := decide (state.txFifo = [])
        txInt
        allWritten := decide (state.totalLen = 0) } }

/-- The device interrupts when CS goes up or a level is reached whose interrupt is enabled. -/
def Interrupts (txLevel : ℕ) (state : MasterState) (csUp : Bool) : Prop :=
  csUp = true ∨ (state.rxIntEn = true ∧ state.rxFifo ≠ []) ∨
    (state.txIntEn = true ∧ state.txFifo.length ≤ txLevel)

instance (txLevel : ℕ) (state : MasterState) (csUp : Bool) :
    Decidable (Interrupts txLevel state csUp) :=
  inferInstanceAs (Decidable (_ ∨ _))

/-- The rest of the loop of `bk_spi_tx_needwrite_callback` after its write. -/
def afterWrite (state : MasterState) (interrupt : Interrupt) (txOk : Bool) : MasterState :=
  if txOk then
    if state.totalLen - 1 = 0 then
      { state with
        totalLen := state.totalLen - 1
        txIntEn := false
        interrupt := some { interrupt with place := .finish } }
    else
      { state with
        totalLen := state.totalLen - 1
        interrupt := some { interrupt with place := .needWrite } }
  else
    { state with interrupt := some { interrupt with place := .finish } }

/-- `bk_spi_tx_finish_callback`, if the status word asks for it, and the end of `spi_isr`. -/
def bkSpiTxFinish (state : MasterState) (interrupt : Interrupt) : MasterState :=
  if interrupt.txFifoEmpty ∧ state.totalLen = 0 ∧ state.txFinish = false then
    { state with
      txFinish := true
      txSem := true
      interrupt := none
      early := !interrupt.allWritten }
  else
    { state with interrupt := none }

/-- The next step of `spi_isr`. -/
def isrStep (depth : ℕ) (state : MasterState) (interrupt : Interrupt) : MasterState :=
  match interrupt.place with
  | .rx =>
      if state.rxFifo = [] then
        { state with interrupt := some { interrupt with place := afterRx interrupt.txInt } }
      else
        takeByte state
  | .needWrite =>
      if state.totalLen = 0 then
        { state with interrupt := some { interrupt with place := .finish } }
      else
        match writeByte depth state with
        | some written =>
            { written with interrupt := some { interrupt with place := .needWriteRx true } }
        | none => { state with interrupt := some { interrupt with place := .needWriteRx false } }
  | .needWriteRx txOk => afterWrite (takeByte state) interrupt txOk
  | .finish => bkSpiTxFinish state interrupt

/-! ## The machine -/

/-- The byte in front of the transmit FIFO leaves and another one arrives. -/
def shiftByte (state : MasterState) (byte : UInt8) : MasterState :=
  match state.txFifo with
  | [] => state
  | leaving :: rest =>
      { state with
        txFifo := rest
        rxFifo := state.rxFifo ++ [⟨state.transfer.call, byte⟩]
        transfer :=
          { state.transfer with
            shiftedOut := state.transfer.shiftedOut ++ [leaving]
            shiftedIn := state.transfer.shiftedIn ++ [byte] } }

/-- The call and the interrupt, for a transmit FIFO of any depth and any level of its interrupt.
The interrupt is not interrupted, neither by itself nor by the call; another call waits for the
mutex. -/
def machine (depth txLevel : ℕ) : Machine MasterState Event Output where
  step state
    | .xfer message =>
        if state.interrupt.isNone ∧ state.phase = .idle then
          bkSpiMasterXfer state message
        else
          (state, .nothing)
    | .thread => if state.interrupt.isNone then xferStep state else (state, .nothing)
    | .interrupt csUp =>
        if state.interrupt.isNone ∧ Interrupts txLevel state csUp then
          (spiIsr txLevel state csUp, .nothing)
        else
          (state, .nothing)
    | .isr =>
        match state.interrupt with
        | none => (state, .nothing)
        | some interrupt => (isrStep depth state interrupt, .nothing)
    | .shift byte => (shiftByte state byte, .nothing)

def SpiMessage.wire (message : SpiMessage) : List UInt8 :=
  message.sendBuf ++ List.replicate message.recvLen 0xff

/-- A call has shifted out its message and nothing else, has exactly the bytes shifted in after the
first `send_len` in its buffer, and has taken no byte of another call. -/
structure Exact (transfer : Transfer) : Prop where
  shiftedOut : transfer.shiftedOut = transfer.message.wire
  recvBuf : ∀ buffer, transfer.message.recvBuf = some buffer →
    transfer.recvBuf =
      transfer.shiftedIn.drop transfer.message.sendLen ++ buffer.drop transfer.message.recvLen
  shiftedIn : transfer.shiftedIn.length = transfer.message.sendLen + transfer.message.recvLen
  own : ∀ received ∈ transfer.taken, received.call = transfer.call

/-- The length of a message is below 2^32.  A call that was released early finds both FIFOs empty
when it goes on. -/
def Meets (state : MasterState) : Event → Prop
  | .xfer message => message.recvLen + message.sendLen < 2 ^ 32
  | .thread =>
      state.interrupt = none → state.phase = .released → state.early = true →
        state.txFifo = [] ∧ state.rxFifo = []
  | _ => True

instance : ∀ state event, Decidable (Meets state event)
  | _, .xfer _ => inferInstanceAs (Decidable (_ < _))
  | _, .thread => inferInstanceAs (Decidable (_ → _))
  | _, .interrupt _ => inferInstanceAs (Decidable True)
  | _, .isr => inferInstanceAs (Decidable True)
  | _, .shift _ => inferInstanceAs (Decidable True)

end BdkFreertos.SpiMaster
