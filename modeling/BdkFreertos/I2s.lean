import BdkFreertos.Machine

/-!
# The transfers of the I2S interface

A call leaves its two buffers and the counts to the interrupts and waits for the flag that they set.
Each interrupt moves a burst of words from the one buffer to the FIFO or from the FIFO to the other.
-/

namespace BdkFreertos.I2s

/-- A call of `i2s_transfer`. -/
structure Transfer where
  /-- `i2s_send_buf` is not `NULL`, and the words from it on. -/
  sends : Bool
  i2sSendBuf : ℕ → UInt32
  /-- `i2s_recv_buf` is not `NULL`. -/
  receives : Bool
  count : UInt32

/-- What `i2s_trans` and `i2s_fifo_level` hold for the transmission, and what was transmitted.  A
pointer is the number of words it is behind the start of its buffer. -/
structure Transmission where
  pTxBuf : Option ℕ
  txRemainDataCnt : ℕ
  txLevel : ℕ
  /-- Where the send buffer was read. -/
  reads : List ℕ
  /-- The words written to `PCM_DAT0`. -/
  written : List UInt32

/-- What they hold for the reception, and what was received. -/
structure Reception where
  pRxBuf : Option ℕ
  rxRemainDataCnt : ℕ
  rxLevel : ℕ
  transDone : Bool
  /-- A receive interrupt has found words. -/
  delivered : Bool
  received : List UInt32
  /-- What was stored, and where in the receive buffer. -/
  stores : List (UInt32 × ℕ)

structure I2sTrans where
  tx : Transmission
  rx : Reception

/-- `FIFO_LEVEL_32`. -/
def fifoLevel32 : ℕ := 1

/-- The set-up by `i2s_transfer`. -/
def i2sTransfer (transfer : Transfer) : I2sTrans where
  tx :=
    { pTxBuf := if transfer.sends then some 0 else none
      txRemainDataCnt := transfer.count.toNat
      txLevel := fifoLevel32
      reads := []
      written := [] }
  rx :=
    { pRxBuf := if transfer.receives then some 0 else none
      rxRemainDataCnt := transfer.count.toNat
      rxLevel := fifoLevel32
      transDone := false
      delivered := false
      received := []
      stores := [] }

/-- An interrupt: the status and the words that `PCM_DAT0` gives. -/
structure Interrupt where
  i2sStatus : UInt32
  pcmDat0 : ℕ → UInt32

namespace Interrupt

variable (interrupt : Interrupt)

def rxint : Bool := interrupt.i2sStatus &&& 0x01 != 0

def txint0 : Bool := interrupt.i2sStatus &&& 0x02 != 0

/-- `RX_FIFO0_EMPTY`. -/
def rxFifo0Empty : Bool := interrupt.i2sStatus &&& 0x100 != 0

def delivers : Bool := interrupt.rxint && !interrupt.rxFifo0Empty

end Interrupt

/-- The words of a burst. -/
def levelDataNum : ℕ → ℕ
  | 0 => 8
  | 1 => 16
  | 2 => 32
  | _ => 48

/-- The words of a burst that is received. -/
def rxDataNum (rx : Reception) : ℕ :=
  if rx.rxRemainDataCnt < levelDataNum rx.rxLevel then rx.rxRemainDataCnt
  else levelDataNum rx.rxLevel

/-- The transmit part of `i2s_isr`. -/
def transmit (sendBuf : ℕ → UInt32) (interrupt : Interrupt) (tx : Transmission) : Transmission :=
  if interrupt.txint0 then
    let dataNum := levelDataNum tx.txLevel
    match tx.pTxBuf with
    | none => { tx with written := tx.written ++ List.replicate dataNum 0xEEEEEEEE }
    | some place =>
        { tx with
          pTxBuf := some (place + dataNum)
          reads := tx.reads ++ List.range' place dataNum
          written := tx.written ++ (List.range' place dataNum).map sendBuf }
  else tx

/-- The receive part of `i2s_isr`.  An empty FIFO gives no word to receive. -/
def receive (interrupt : Interrupt) (rx : Reception) : Reception :=
  if interrupt.rxint then
    let dataNum := rxDataNum rx
    let words := (List.range dataNum).map interrupt.pcmDat0
    if interrupt.rxFifo0Empty then rx
    else
      match rx.pRxBuf with
      | none => { rx with delivered := true, received := rx.received ++ words }
      | some place =>
          { rx with
            pRxBuf := some (place + dataNum)
            rxRemainDataCnt := rx.rxRemainDataCnt - dataNum
            transDone := rx.transDone || rx.rxRemainDataCnt - dataNum == 0
            delivered := true
            received := rx.received ++ words
            stores := rx.stores ++ words.zipIdx place }
  else rx

/-- `i2s_isr`. -/
def i2sIsr (sendBuf : ℕ → UInt32) (trans : I2sTrans) (interrupt : Interrupt) : I2sTrans where
  tx := transmit sendBuf interrupt trans.tx
  rx := receive interrupt trans.rx

/-- The interrupts of a transfer.  Both are disabled when the flag is set. -/
def i2s (transfer : Transfer) : Machine I2sTrans Interrupt Unit where
  step trans interrupt :=
    (if trans.rx.transDone then trans else i2sIsr transfer.i2sSendBuf trans interrupt, ())

/-! ### The purpose -/

/-- At most `count` words of the send buffer were read, each once and in order. -/
def SendsInside (transfer : Transfer) (tx : Transmission) : Prop :=
  ∃ n ≤ transfer.count.toNat, tx.reads = List.range n

/-- The first `count` words that were received are in the receive buffer, and the flag is set
exactly when that many have been received. -/
structure ReceivesExactly (transfer : Transfer) (rx : Reception) : Prop where
  stores : rx.stores =
    if transfer.receives then (rx.received.take transfer.count.toNat).zipIdx else []
  done : rx.transDone = true ↔ rx.delivered = true ∧ transfer.count.toNat ≤ rx.received.length

def Exact (transfer : Transfer) (trans : I2sTrans) : Prop :=
  SendsInside transfer trans.tx ∧ ReceivesExactly transfer trans.rx

/-! ### The condition -/

/-- A transmit interrupt finds a whole burst in the send buffer. -/
def SendsBurst (transfer : Transfer) (tx : Transmission) (interrupt : Interrupt) : Prop :=
  interrupt.txint0 = true → transfer.sends = true →
    tx.reads.length + levelDataNum fifoLevel32 ≤ transfer.count.toNat

/-- Without a receive buffer a receive interrupt does not bring the last word. -/
def KeepsWaiting (transfer : Transfer) (rx : Reception) (interrupt : Interrupt) : Prop :=
  interrupt.delivers = true → transfer.receives = false →
    rx.received.length + min (levelDataNum fifoLevel32) transfer.count.toNat <
      transfer.count.toNat

def Covered (transfer : Transfer) (trans : I2sTrans) (interrupt : Interrupt) : Prop :=
  trans.rx.transDone = false →
    SendsBurst transfer trans.tx interrupt ∧ KeepsWaiting transfer trans.rx interrupt

/-! ### The transmission -/

/-- The pointer into the send buffer is behind the words that were read. -/
structure SendTracked (transfer : Transfer) (tx : Transmission) : Prop where
  level : tx.txLevel = fifoLevel32
  pointer : tx.pTxBuf = if transfer.sends then some tx.reads.length else none
  inside : SendsInside transfer tx

section
variable {transfer : Transfer} {interrupt : Interrupt} {tx : Transmission} {rx : Reception}

theorem SendTracked.reads_eq (tracked : SendTracked transfer tx) :
    tx.reads = List.range tx.reads.length := by
  obtain ⟨n, -, reads_eq⟩ := tracked.inside
  rw [reads_eq, List.length_range]

section

variable (tracked : SendTracked transfer tx)
include tracked

theorem SendTracked.reads_append (n : ℕ) :
    tx.reads ++ List.range' tx.reads.length n = List.range (tx.reads.length + n) := by
  conv_lhs => rw [tracked.reads_eq, List.length_range, List.range_eq_range']
  rw [List.range_eq_range', ← List.range'_append_1, Nat.zero_add]

theorem SendTracked.transmit_of_sends (transmits : interrupt.txint0 = true)
    (sends : transfer.sends = true) :
    transmit transfer.i2sSendBuf interrupt tx =
      { tx with
        pTxBuf := some (tx.reads.length + levelDataNum fifoLevel32)
        reads := List.range (tx.reads.length + levelDataNum fifoLevel32)
        written := tx.written ++
          (List.range' tx.reads.length (levelDataNum fifoLevel32)).map transfer.i2sSendBuf } := by
  have pointer := tracked.pointer
  rw [if_pos sends] at pointer
  rw [transmit, if_pos transmits, pointer]
  simp [tracked.level, tracked.reads_append]

theorem SendTracked.transmit_reads (quiet : ¬(interrupt.txint0 = true ∧ transfer.sends = true)) :
    (transmit transfer.i2sSendBuf interrupt tx).txLevel = tx.txLevel ∧
      (transmit transfer.i2sSendBuf interrupt tx).pTxBuf = tx.pTxBuf ∧
        (transmit transfer.i2sSendBuf interrupt tx).reads = tx.reads := by
  rw [transmit]
  split
  · rename_i transmits
    have pointer := tracked.pointer
    rw [if_neg fun sends => quiet ⟨transmits, sends⟩] at pointer
    rw [pointer]
    exact ⟨rfl, rfl, rfl⟩
  · exact ⟨rfl, rfl, rfl⟩

theorem SendTracked.transmit_iff (interrupt : Interrupt) :
    SendsInside transfer (transmit transfer.i2sSendBuf interrupt tx) ↔
      SendsBurst transfer tx interrupt := by
  by_cases burst : interrupt.txint0 = true ∧ transfer.sends = true
  · rw [tracked.transmit_of_sends burst.1 burst.2, SendsInside, SendsBurst]
    simp only [burst, forall_const]
    constructor
    · rintro ⟨n, inside, range_eq⟩
      have length_eq := congrArg List.length range_eq
      rw [List.length_range, List.length_range] at length_eq
      omega
    · intro inside
      exact ⟨_, inside, rfl⟩
  · obtain ⟨-, -, reads_eq⟩ := tracked.transmit_reads burst
    refine iff_of_true ?_ fun transmits sends => absurd ⟨transmits, sends⟩ burst
    rw [SendsInside, reads_eq]
    exact tracked.inside

theorem SendTracked.transmit (covered : SendsBurst transfer tx interrupt) :
    SendTracked transfer (transmit transfer.i2sSendBuf interrupt tx) := by
  have inside := (tracked.transmit_iff interrupt).mpr covered
  by_cases burst : interrupt.txint0 = true ∧ transfer.sends = true
  · have transmitted := tracked.transmit_of_sends burst.1 burst.2
    refine ⟨?_, ?_, inside⟩
    · rw [transmitted]
      exact tracked.level
    · rw [transmitted, if_pos burst.2, List.length_range]
  · obtain ⟨level_eq, pointer_eq, reads_eq⟩ := tracked.transmit_reads burst
    refine ⟨level_eq.trans tracked.level, ?_, inside⟩
    rw [pointer_eq, reads_eq]
    exact tracked.pointer

end

/-! ### The reception -/

/-- The pointer into the receive buffer and the remaining count are those of the words that were
received. -/
structure ReceiveTracked (transfer : Transfer) (rx : Reception) : Prop where
  level : rx.rxLevel = fifoLevel32
  pointer : rx.pRxBuf = if transfer.receives then some rx.received.length else none
  remain : rx.rxRemainDataCnt =
    if transfer.receives then transfer.count.toNat - rx.received.length else transfer.count.toNat
  inside : transfer.receives = true → rx.received.length ≤ transfer.count.toNat
  exact : ReceivesExactly transfer rx

theorem receive_of_not_delivers (quiet : ¬interrupt.delivers = true) :
    receive interrupt rx = rx := by
  rw [Interrupt.delivers, Bool.and_eq_true, Bool.not_eq_true'] at quiet
  rw [receive]
  split
  · rename_i receives
    dsimp only
    rw [if_pos]
    exact eq_true_of_ne_false fun filled => quiet ⟨receives, filled⟩
  · rfl

def words (interrupt : Interrupt) (rx : Reception) : List UInt32 :=
  (List.range (rxDataNum rx)).map interrupt.pcmDat0

theorem length_words (interrupt : Interrupt) (rx : Reception) :
    (words interrupt rx).length = rxDataNum rx := by
  rw [words, List.length_map, List.length_range]

theorem rxDataNum_eq (rx : Reception) :
    rxDataNum rx = min (levelDataNum rx.rxLevel) rx.rxRemainDataCnt := by
  rw [rxDataNum]
  split <;> omega

theorem receive_of_delivers (delivers : interrupt.delivers = true) :
    receive interrupt rx =
      match rx.pRxBuf with
      | none =>
          { rx with delivered := true, received := rx.received ++ words interrupt rx }
      | some place =>
          { rx with
            pRxBuf := some (place + rxDataNum rx)
            rxRemainDataCnt := rx.rxRemainDataCnt - rxDataNum rx
            transDone := rx.transDone || rx.rxRemainDataCnt - rxDataNum rx == 0
            delivered := true
            received := rx.received ++ words interrupt rx
            stores := rx.stores ++ (words interrupt rx).zipIdx place } := by
  rw [Interrupt.delivers, Bool.and_eq_true, Bool.not_eq_true'] at delivers
  rw [receive, if_pos delivers.1]
  simp [delivers.2, words]

section

variable (tracked : ReceiveTracked transfer rx)
include tracked

/-- A burst into a receive buffer is stored behind the words before, and the last one sets the
flag. -/
theorem ReceiveTracked.receive_of_receives (waiting : rx.transDone = false)
    (delivers : interrupt.delivers = true) (receives : transfer.receives = true) :
    ReceiveTracked transfer (receive interrupt rx) := by
  obtain ⟨level, pointer, remain, inside, stores, done⟩ := tracked
  have before := inside receives
  simp only [receives, if_true] at pointer remain stores
  have dataNum_le : rxDataNum rx ≤ transfer.count.toNat - rx.received.length := by
    rw [rxDataNum_eq, ← remain]
    exact Nat.min_le_right _ _
  rw [receive_of_delivers delivers, pointer]
  have length_eq : (rx.received ++ words interrupt rx).length =
      rx.received.length + rxDataNum rx := by
    rw [List.length_append, length_words]
  have taken : (rx.received ++ words interrupt rx).length ≤ transfer.count.toNat := by omega
  refine ⟨level, ?_, ?_, fun _ => taken, ?_, ?_⟩
  · rw [if_pos receives]
    exact congrArg some length_eq.symm
  · rw [if_pos receives]
    dsimp only
    rw [length_eq, remain, Nat.sub_sub]
  · rw [if_pos receives]
    dsimp only
    rw [List.take_of_length_le taken, List.zipIdx_append, stores, List.take_of_length_le before,
      Nat.zero_add]
  · dsimp only
    rw [waiting, Bool.false_or, beq_iff_eq, length_eq, remain, and_iff_right rfl]
    omega

theorem ReceiveTracked.receive_of_null (delivers : interrupt.delivers = true)
    (drops : transfer.receives = false) :
    receive interrupt rx =
      { rx with delivered := true, received := rx.received ++ words interrupt rx } := by
  have pointer := tracked.pointer
  rw [if_neg (by simp [drops])] at pointer
  rw [receive_of_delivers delivers, pointer]

/-- A receive interrupt is exact unless it brings the last word of a transfer without a receive
buffer. -/
theorem ReceiveTracked.receive_iff (waiting : rx.transDone = false) (interrupt : Interrupt) :
    ReceivesExactly transfer (receive interrupt rx) ↔ KeepsWaiting transfer rx interrupt := by
  by_cases delivers : interrupt.delivers = true
  · cases receives : transfer.receives with
    | true =>
        exact iff_of_true (tracked.receive_of_receives waiting delivers receives).exact
          fun _ drops => nomatch receives.symm.trans drops
    | false =>
        have remain := tracked.remain
        rw [if_neg (by simp [receives])] at remain
        rw [tracked.receive_of_null delivers receives, KeepsWaiting]
        have length_eq : (rx.received ++ words interrupt rx).length =
            rx.received.length + min (levelDataNum fifoLevel32) transfer.count.toNat := by
          rw [List.length_append, length_words, rxDataNum_eq, tracked.level, remain]
        simp only [delivers, receives, forall_const]
        constructor
        · rintro ⟨-, done⟩
          simp only [waiting, Bool.false_eq_true, true_and, false_iff, length_eq] at done
          exact Nat.not_le.mp done
        · intro more
          refine ⟨?_, ?_⟩
          · have stores := tracked.exact.stores
            rw [if_neg (by simp [receives])] at stores ⊢
            exact stores
          · simp only [waiting, Bool.false_eq_true, true_and, false_iff, length_eq]
            exact Nat.not_le.mpr more
  · rw [receive_of_not_delivers delivers]
    exact iff_of_true tracked.exact fun delivers' => absurd delivers' delivers

theorem ReceiveTracked.receive (waiting : rx.transDone = false)
    (covered : KeepsWaiting transfer rx interrupt) :
    ReceiveTracked transfer (receive interrupt rx) := by
  have exact_receive := (tracked.receive_iff waiting interrupt).mpr covered
  by_cases delivers : interrupt.delivers = true
  · cases receives : transfer.receives with
    | true => exact tracked.receive_of_receives waiting delivers receives
    | false =>
        rw [tracked.receive_of_null delivers receives] at exact_receive ⊢
        refine ⟨tracked.level, ?_, ?_,
          fun receives' => absurd (receives.symm.trans receives') Bool.false_ne_true, ?_⟩
        · have pointer := tracked.pointer
          rw [if_neg (by simp [receives])] at pointer ⊢
          exact pointer
        · have remain := tracked.remain
          rw [if_neg (by simp [receives])] at remain ⊢
          exact remain
        · exact exact_receive
  · rw [receive_of_not_delivers delivers]
    exact tracked

end

end

/-! ### Whole transfers -/

def Tracked (transfer : Transfer) (trans : I2sTrans) : Prop :=
  SendTracked transfer trans.tx ∧ ReceiveTracked transfer trans.rx

theorem tracked_i2sTransfer (transfer : Transfer) :
    Tracked transfer (i2sTransfer transfer) := by
  refine ⟨⟨rfl, rfl, 0, Nat.zero_le _, rfl⟩, rfl, rfl, ?_, fun _ => Nat.zero_le _, ?_, ?_⟩
  · simp [i2sTransfer]
  · simp [i2sTransfer]
  · simp [i2sTransfer]

variable {transfer : Transfer} {trans : I2sTrans}

theorem step_of_done (done : trans.rx.transDone = true) (interrupt : Interrupt) :
    ((i2s transfer).step trans interrupt).1 = trans := if_pos done

theorem step_of_waiting (waiting : trans.rx.transDone = false) (interrupt : Interrupt) :
    ((i2s transfer).step trans interrupt).1 =
      ⟨transmit transfer.i2sSendBuf interrupt trans.tx, receive interrupt trans.rx⟩ :=
  if_neg (by simp [waiting])

theorem exact_step_iff (tracked : Tracked transfer trans) (interrupt : Interrupt) :
    Exact transfer ((i2s transfer).step trans interrupt).1 ↔ Covered transfer trans interrupt := by
  rw [Covered]
  cases waiting : trans.rx.transDone with
  | true =>
      rw [step_of_done waiting]
      exact iff_of_true ⟨tracked.1.inside, tracked.2.exact⟩ nofun
  | false =>
      rw [step_of_waiting waiting, imp_iff_right rfl]
      exact and_congr (tracked.1.transmit_iff interrupt) (tracked.2.receive_iff waiting interrupt)

theorem Tracked.step {transfer : Transfer} {trans : I2sTrans} (tracked : Tracked transfer trans)
    {interrupt : Interrupt} (covered : Covered transfer trans interrupt) :
    Tracked transfer ((i2s transfer).step trans interrupt).1 := by
  cases waiting : trans.rx.transDone with
  | true =>
      rw [step_of_done waiting]
      exact tracked
  | false =>
      rw [step_of_waiting waiting]
      obtain ⟨burst, keeps⟩ := covered waiting
      exact ⟨tracked.1.transmit burst, tracked.2.receive waiting keeps⟩

/-- The interrupts of a transfer stay in its buffers and set its flag with the last word exactly if
each transmit interrupt finds a whole burst in the send buffer and, without a receive buffer, no
receive interrupt brings the last word. -/
theorem transfer_exact_iff (transfer : Transfer) (interrupts : List Interrupt) :
    (∀ front, front <+: interrupts →
        Exact transfer ((i2s transfer).run (i2sTransfer transfer) front)) ↔
      (i2s transfer).Always (Covered transfer) (i2sTransfer transfer) interrupts :=
  (i2s transfer).forall_run_iff_always_of_strong (Covered transfer) (fun _ => True)
    (Exact transfer) (Tracked transfer) (fun _ _ => trivial)
    (fun tracked => ⟨tracked.1.inside, tracked.2.exact⟩)
    (fun interrupt _ tracked => exact_step_iff tracked interrupt)
    (fun _ _ tracked covered => tracked.step covered) trivial (tracked_i2sTransfer transfer)
    interrupts

/-- A word is sent and received. -/
def singleWord : Transfer where
  sends := true
  i2sSendBuf := fun _ => 0
  receives := true
  count := 1

/-- The first transmit interrupt of a transfer of one word reads fifteen words behind it. -/
theorem single_word_reads_behind :
    ((i2s singleWord).run (i2sTransfer singleWord) [⟨0x02, fun _ => 0⟩]).tx.reads =
        List.range 16 ∧
      ¬Exact singleWord ((i2s singleWord).run (i2sTransfer singleWord) [⟨0x02, fun _ => 0⟩]) := by
  have reads_eq : ((i2s singleWord).run (i2sTransfer singleWord) [⟨0x02, fun _ => 0⟩]).tx.reads =
      List.range 16 := rfl
  refine ⟨reads_eq, fun ⟨⟨n, inside, same⟩, _⟩ => ?_⟩
  have length_eq := congrArg List.length (same.symm.trans reads_eq)
  rw [List.length_range, List.length_range] at length_eq
  exact absurd (length_eq ▸ inside) (by decide)

end BdkFreertos.I2s
