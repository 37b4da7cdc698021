import BdkFreertos.SpiMasterBytes

/-!
# Every transfer of the SPI master

The flag and the semaphore say that everything is written.  They say that it has also left and
arrived only if the interrupt that released the call had nothing to write when it read its status.
-/

namespace BdkFreertos.SpiMaster

/-! ## What the call and the interrupt know -/

/-- The call has taken `tx_sem`, or there is no call. -/
def Phase.past : Phase → Bool
  | .begun | .rxEnabled | .waiting => false
  | .released | .rxDisabled | .txDisabled | .idle => true

/-- The call has disabled the reception interrupt, or there is no call. -/
def Phase.closed : Phase → Bool
  | .begun | .rxEnabled | .waiting | .released => false
  | .rxDisabled | .txDisabled | .idle => true

theorem Phase.past_of_closed {phase : Phase} (closed : phase.closed = true) :
    phase.past = true := by
  cases phase with
  | begun => cases closed
  | rxEnabled => cases closed
  | waiting => cases closed
  | released => rfl
  | rxDisabled => rfl
  | txDisabled => rfl
  | idle => rfl

/-- `TX_FINISH_FLAG` says that everything is written and, unless the release was early, that both
FIFOs are empty.  An interrupt which found everything written and the transmit FIFO empty has
emptied the receive FIFO before it comes to its last test. -/
structure Control (state : MasterState) : Prop where
  finished : state.txFinish = true →
    state.totalLen = 0 ∧ (state.early = true ∨ state.txFifo = [] ∧ state.rxFifo = [])
  semaphore : state.txSem = true → state.txFinish = true ∧ state.phase.past = false
  past : state.phase.past = true → state.txFinish = true
  closed : state.phase.closed = true → state.txFifo = [] ∧ state.rxFifo = []
  sampled : ∀ interrupt, state.interrupt = some interrupt → interrupt.allWritten = true →
    state.totalLen = 0 ∧ (interrupt.txFifoEmpty = true →
      state.txFifo = [] ∧ (interrupt.place = .rx ∨ state.rxFifo = []))

namespace Control

variable {state : MasterState}

section

variable (control : Control state)
include control

theorem waits (more : state.totalLen ≠ 0) :
    state.txFinish = false ∧ state.phase.past = false ∧ state.phase.closed = false := by
  have unfinished : state.txFinish = false := by
    by_contra finished
    exact more (control.finished (Bool.eq_true_of_not_eq_false finished)).1
  have before : state.phase.past = false := by
    by_contra past
    have finished := control.past (Bool.eq_true_of_not_eq_false past)
    rw [unfinished] at finished
    cases finished
  refine ⟨unfinished, before, ?_⟩
  by_contra closed
  have past := Phase.past_of_closed (Bool.eq_true_of_not_eq_false closed)
  rw [before] at past
  cases past

theorem drained (closed : state.phase.closed = true) :
    state.totalLen = 0 ∧ state.txFifo = [] ∧ state.rxFifo = [] := by
  have finish := control.past (Phase.past_of_closed closed)
  exact ⟨(control.finished finish).1, control.closed closed⟩

theorem shiftByte (byte : UInt8) : Control (shiftByte state byte) := by
  obtain ⟨finished, semaphore, past, closed, sampled⟩ := control
  rw [SpiMaster.shiftByte]
  split
  next => exact ⟨finished, semaphore, past, closed, sampled⟩
  next leaving rest full =>
    have some_left : state.txFifo ≠ [] := by
      rw [full]
      exact List.cons_ne_nil _ _
    refine ⟨?_, semaphore, past, ?_, ?_⟩
    · intro finish
      obtain ⟨written, early | ⟨empty, -⟩⟩ := finished finish
      · exact ⟨written, Or.inl early⟩
      · exact absurd empty some_left
    · intro close
      exact absurd (closed close).1 some_left
    · intro interrupt running allWritten
      obtain ⟨written, empty⟩ := sampled interrupt running allWritten
      exact ⟨written, fun sample => absurd (empty sample).1 some_left⟩

theorem takeByte : Control (takeByte state) := by
  obtain ⟨rxFifo, rxDrop, rxOffset, recvBuf, taken, leaves, frame⟩ := takeByte_frame state
  obtain ⟨finished, semaphore, past, closed, sampled⟩ := control
  rw [frame]
  refine ⟨?_, semaphore, past, ?_, ?_⟩
  · intro finish
    obtain ⟨written, early | ⟨sent, empty⟩⟩ := finished finish
    · exact ⟨written, Or.inl early⟩
    · exact ⟨written, Or.inr ⟨sent, leaves empty⟩⟩
  · intro close
    exact ⟨(closed close).1, leaves (closed close).2⟩
  · intro interrupt running allWritten
    obtain ⟨written, empty⟩ := sampled interrupt running allWritten
    refine ⟨written, fun sample => ?_⟩
    obtain ⟨sent, place | drained⟩ := empty sample
    · exact ⟨sent, Or.inl place⟩
    · exact ⟨sent, Or.inr (leaves drained)⟩

theorem move {interrupt : Interrupt} (running : state.interrupt = some interrupt) (place : Place)
    (drained : interrupt.place = .rx → state.rxFifo = []) :
    Control { state with interrupt := some { interrupt with place } } := by
  obtain ⟨finished, semaphore, past, closed, sampled⟩ := control
  refine ⟨finished, semaphore, past, closed, ?_⟩
  rintro moved same allWritten
  obtain rfl := Option.some.inj same
  obtain ⟨written, empty⟩ := sampled interrupt running allWritten
  refine ⟨written, fun sample => ?_⟩
  obtain ⟨sent, place | nothing⟩ := empty sample
  · exact ⟨sent, Or.inr (drained place)⟩
  · exact ⟨sent, Or.inr nothing⟩

theorem spiIsr (txLevel : ℕ) (csUp : Bool) : Control (spiIsr txLevel state csUp) := by
  obtain ⟨finished, semaphore, past, closed, -⟩ := control
  refine ⟨finished, semaphore, past, closed, ?_⟩
  intro interrupt started allWritten
  obtain rfl := Option.some.inj started
  refine ⟨of_decide_eq_true allWritten, fun sample => ⟨of_decide_eq_true sample, ?_⟩⟩
  by_cases empty : state.rxFifo = []
  · exact Or.inr empty
  · exact Or.inl (if_pos (Or.inl empty))

theorem bkSpiTxFinish {interrupt : Interrupt} (running : state.interrupt = some interrupt)
    (place : interrupt.place = .finish) : Control (bkSpiTxFinish state interrupt) := by
  obtain ⟨finished, semaphore, past, closed, sampled⟩ := control
  rw [SpiMaster.bkSpiTxFinish]
  split
  next release =>
    obtain ⟨sample, written, unfinished⟩ := release
    have before : state.phase.past = false := by
      by_contra after
      have finish := past (Bool.eq_true_of_not_eq_false after)
      rw [unfinished] at finish
      cases finish
    refine ⟨fun _ => ⟨written, ?_⟩, fun _ => ⟨rfl, before⟩, fun _ => rfl, closed, ?_⟩
    · rcases all : interrupt.allWritten with _ | _
      · exact Or.inl rfl
      · obtain ⟨sent, rx | drained⟩ := (sampled interrupt running all).2 sample
        · rw [place] at rx
          cases rx
        · exact Or.inr ⟨sent, drained⟩
    · intro other none
      cases none
  next =>
    refine ⟨finished, semaphore, past, closed, ?_⟩
    intro other none
    cases none

end

end Control

/-! ## Steps -/

/-- The invariant of the call and the interrupt. -/
structure Sound (state : MasterState) : Prop where
  sending : Sending state
  receiving : Receiving state
  control : Control state

theorem sound_init : Sound bkSpiMasterInit where
  sending := ⟨rfl, Nat.le_refl 0, Nat.le_refl 0⟩
  receiving :=
    { paired := rfl
      received := rfl
      own := fun _ member => absurd member List.not_mem_nil
      delivered := by
        intro buffer given
        cases given
      counters := fun there => Bool.noConfusion there
      pointed := ⟨fun _ => rfl, fun calling => absurd rfl calling⟩ }
  control :=
    { finished := fun _ => ⟨rfl, Or.inr ⟨rfl, rfl⟩⟩
      semaphore := fun given => Bool.noConfusion given
      past := fun _ => rfl
      closed := fun _ => ⟨rfl, rfl⟩
      sampled := by
        intro interrupt running
        cases running }

namespace Sound

variable {state : MasterState}

theorem shiftByte (sound : Sound state) (byte : UInt8) : Sound (shiftByte state byte) := by
  obtain ⟨sending, receiving, control⟩ := sound
  refine ⟨?_, receiving.shiftByte byte, control.shiftByte byte⟩
  rw [SpiMaster.shiftByte]
  split
  next => exact sending
  next leaving rest full =>
    refine ⟨?_, sending.readable, sending.counted⟩
    have wire := sending.wire
    rw [full, List.append_cons] at wire
    exact wire

theorem takeByte (sound : Sound state) : Sound (takeByte state) where
  sending := sound.sending.takeByte
  receiving := by
    apply sound.receiving.takeByte sound.sending.shiftedOut_le
    intro some_left idle
    apply some_left
    exact (sound.control.closed (by rw [idle]; rfl)).2
  control := sound.control.takeByte

variable {place : Place} {phase : Phase}

theorem move (sound : Sound state) {interrupt : Interrupt}
    (running : state.interrupt = some interrupt) (before : interrupt.place ≠ .needWriteRx true)
    (after : place ≠ .needWriteRx true) (drained : interrupt.place = .rx → state.rxFifo = []) :
    Sound { state with interrupt := some { interrupt with place } } where
  sending := by
    refine sound.sending.congr rfl rfl rfl ?_ rfl rfl
    rw [unwritten_of_place running before]
    exact unwritten_of_place rfl after
  receiving := sound.receiving.withInterrupt _
  control := sound.control.move running place drained

theorem spiIsr (sound : Sound state) (none : state.interrupt = none) (txLevel : ℕ)
    (csUp : Bool) : Sound (spiIsr txLevel state csUp) where
  sending := by
    refine sound.sending.congr rfl rfl rfl ?_ rfl rfl
    rw [unwritten_of_none none]
    refine unwritten_of_place rfl ?_
    simp only [afterRx]
    split
    · exact Place.noConfusion
    · split
      · exact Place.noConfusion
      · exact Place.noConfusion
  receiving := sound.receiving.withInterrupt _
  control := sound.control.spiIsr txLevel csUp

section

variable {interrupt : Interrupt} (sound : Sound state) (running : state.interrupt = some interrupt)
include sound running

theorem writeByte {depth : ℕ} {written : MasterState} (place : interrupt.place = .needWrite)
    (more : state.totalLen ≠ 0) (result : SpiMaster.writeByte depth state = some written) :
    Sound { written with interrupt := some { interrupt with place := .needWriteRx true } } := by
  have sending := sound.sending.writeByte running place more result
  obtain ⟨unfinished, before, unclosed⟩ := sound.control.waits more
  have frame : ∃ txFifo txPtr txLen, written = { state with txFifo, txPtr, txLen } := by
    rw [SpiMaster.writeByte] at result
    split at result
    · split at result
      · exact ⟨_, _, _, (Option.some.inj result).symm⟩
      · exact ⟨_, _, _, (Option.some.inj result).symm⟩
    · cases result
  obtain ⟨txFifo, txPtr, txLen, rfl⟩ := frame
  obtain ⟨paired, received, own, delivered, counters, pointed⟩ := sound.receiving
  refine ⟨sending, ⟨paired, received, own, delivered, counters, pointed⟩, ?_⟩
  obtain ⟨finished, semaphore, past, closed, sampled⟩ := sound.control
  refine ⟨fun finish => ?_, semaphore, past, fun close => ?_, ?_⟩
  · exact absurd (finished finish).1 more
  · rw [unclosed] at close
    cases close
  · intro other same allWritten
    obtain rfl := Option.some.inj same
    exact absurd (sampled interrupt running allWritten).1 more

theorem count (written : interrupt.place = .needWriteRx true) (after : place ≠ .needWriteRx true)
    (txIntEn : Bool) :
    Sound { state with
      totalLen := state.totalLen - 1
      txIntEn
      interrupt := some { interrupt with place } } := by
  obtain ⟨sending, receiving, control⟩ := sound
  have elsewhere : interrupt.place = .rx → state.rxFifo = [] := by
    rw [written]
    exact Place.noConfusion
  refine ⟨?_, ?_, ?_⟩
  · refine sending.congr rfl rfl rfl ?_ rfl rfl
    rw [unwritten_of_written running written]
    exact unwritten_of_place rfl after
  · obtain ⟨paired, received, own, delivered, counters, pointed⟩ := receiving
    exact ⟨paired, received, own, delivered, counters, pointed⟩
  · obtain ⟨finished, semaphore, past, closed, sampled⟩ := control.move running place elsewhere
    refine ⟨fun finish => ?_, semaphore, past, closed, fun other same allWritten => ?_⟩
    · obtain ⟨zero, empty⟩ := finished finish
      exact ⟨Nat.sub_eq_zero_of_le (zero.trans_le (Nat.zero_le 1)), empty⟩
    · obtain ⟨zero, empty⟩ := sampled other same allWritten
      exact ⟨Nat.sub_eq_zero_of_le (zero.trans_le (Nat.zero_le 1)), empty⟩

theorem afterWrite {txOk : Bool} (place : interrupt.place = .needWriteRx txOk) :
    Sound (afterWrite state interrupt txOk) := by
  rw [SpiMaster.afterWrite]
  split
  next ok =>
    rw [ok] at place
    split
    next => exact sound.count running place Place.noConfusion false
    next => exact sound.count running place Place.noConfusion state.txIntEn
  next failed =>
    refine sound.move running ?_ Place.noConfusion ?_
    · rw [place]
      intro same
      exact failed (Place.needWriteRx.inj same)
    · rw [place]
      exact Place.noConfusion

theorem bkSpiTxFinish (place : interrupt.place = .finish) :
    Sound (bkSpiTxFinish state interrupt) := by
  obtain ⟨sending, receiving, control⟩ := sound
  refine ⟨?_, ?_, control.bkSpiTxFinish running place⟩
  · have count : unwritten state = state.totalLen := by
      refine unwritten_of_place running ?_
      rw [place]
      exact Place.noConfusion
    rw [SpiMaster.bkSpiTxFinish]
    split
    · exact sending.congr rfl rfl rfl count.symm rfl rfl
    · exact sending.congr rfl rfl rfl count.symm rfl rfl
  · obtain ⟨paired, received, own, delivered, counters, pointed⟩ := receiving
    rw [SpiMaster.bkSpiTxFinish]
    split
    · exact ⟨paired, received, own, delivered, counters, pointed⟩
    · exact ⟨paired, received, own, delivered, counters, pointed⟩

theorem isrStep (depth : ℕ) : Sound (isrStep depth state interrupt) := by
  rw [SpiMaster.isrStep]
  split
  next place =>
    split
    next empty =>
      refine sound.move running ?_ ?_ fun _ => empty
      · rw [place]
        exact Place.noConfusion
      · rw [afterRx]
        split
        · exact Place.noConfusion
        · exact Place.noConfusion
    next => exact sound.takeByte
  next place =>
    have other : interrupt.place ≠ .needWriteRx true := by
      rw [place]
      exact Place.noConfusion
    have elsewhere : interrupt.place = .rx → state.rxFifo = [] := by
      rw [place]
      exact Place.noConfusion
    split
    next => exact sound.move running other Place.noConfusion elsewhere
    next more =>
      split
      next written result => exact sound.writeByte running place more result
      next => exact sound.move running other (fun same => by cases same) elsewhere
  next txOk place =>
    have taken := sound.takeByte
    refine taken.afterWrite ?_ place
    obtain ⟨rxFifo, rxDrop, rxOffset, recvBuf, taken, -, frame⟩ := takeByte_frame state
    rw [frame]
    exact running
  next place => exact sound.bkSpiTxFinish running place

end

section

variable (sound : Sound state)
include sound

/-- A step of the call that changes neither its counters nor the FIFOs. -/
theorem advance (rxIntEn txIntEn txSem : Bool) (before : state.phase ≠ .idle)
    (after : phase ≠ .idle) (semaphore : txSem = true → state.txFinish = true ∧ phase.past = false)
    (past : phase.past = true → state.txFinish = true)
    (closed : phase.closed = true → state.txFifo = [] ∧ state.rxFifo = []) :
    Sound { state with rxIntEn, txIntEn, txSem, phase } := by
  obtain ⟨sending, receiving, control⟩ := sound
  refine ⟨sending.congr rfl rfl rfl rfl rfl rfl, ?_, ?_⟩
  · obtain ⟨paired, received, own, delivered, counters, -, set⟩ := receiving
    exact ⟨paired, received, own, delivered, counters, fun idle => absurd idle after,
      fun _ => set before⟩
  · exact ⟨control.finished, semaphore, past, closed, control.sampled⟩

theorem advance_waiting (rxIntEn txIntEn : Bool) (before : state.phase ≠ .idle)
    (waits : phase.past = false) : Sound { state with rxIntEn, txIntEn, phase } := by
  have unfinished {property : Prop} (past : phase.past = true) : property := by
    rw [waits] at past
    cases past
  refine sound.advance rxIntEn txIntEn state.txSem before ?_ ?_ unfinished ?_
  · intro idle
    rw [idle] at waits
    cases waits
  · intro given
    exact ⟨(sound.control.semaphore given).1, waits⟩
  · intro closed
    exact unfinished (Phase.past_of_closed closed)

theorem advance_past (rxIntEn txIntEn : Bool) (before : state.phase ≠ .idle) (after : phase ≠ .idle)
    (past : state.phase.past = true)
    (closed : phase.closed = true → state.txFifo = [] ∧ state.rxFifo = []) :
    Sound { state with rxIntEn, txIntEn, phase } := by
  refine sound.advance rxIntEn txIntEn state.txSem before after ?_ ?_ closed
  · intro given
    have waits := (sound.control.semaphore given).2
    rw [past] at waits
    cases waits
  · intro _
    exact sound.control.past past

theorem endTransfer (phase : state.phase = .txDisabled) : Sound (endTransfer state) := by
  obtain ⟨sending, receiving, control⟩ := sound
  have closed : state.phase.closed = true := by
    rw [phase]
    rfl
  obtain ⟨written, empty⟩ := control.drained closed
  refine ⟨⟨?_, Nat.le_refl 0, Nat.zero_le _⟩, ?_, ?_⟩
  · have nothing : pending (SpiMaster.endTransfer state) = [] := by
      have zero : unwritten (SpiMaster.endTransfer state) = 0 :=
        Nat.le_zero.mp (unwritten_le (SpiMaster.endTransfer state))
      rw [pending, zero]
      rfl
    rw [nothing, List.append_nil]
    have sent : state.transfer.shiftedOut ++ state.txFifo = state.transfer.message.wire := by
      rw [empty.1, List.append_nil]
      exact sending.complete written empty.1
    exact sent
  · obtain ⟨paired, received, own, delivered, -, -⟩ := receiving
    exact ⟨paired, received, own, delivered, fun there => Bool.noConfusion there,
      fun _ => rfl, fun calling => absurd rfl calling⟩
  · obtain ⟨-, semaphore, -, -, sampled⟩ := control
    refine ⟨fun _ => ⟨rfl, Or.inr empty⟩, fun given => ?_, fun _ => rfl, fun _ => empty, ?_⟩
    · have before := (semaphore given).2
      rw [phase] at before
      cases before
    · intro interrupt running allWritten
      exact ⟨rfl, (sampled interrupt running allWritten).2⟩

theorem xferStep (none : state.interrupt = none) (meets : Meets state .thread) :
    Sound (xferStep state).1 := by
  have control := sound.control
  rw [SpiMaster.xferStep]
  split
  next => exact sound
  next phase =>
    refine sound.advance_waiting true state.txIntEn ?_ rfl
    rw [phase]
    exact Phase.noConfusion
  next phase =>
    refine sound.advance_waiting state.rxIntEn true ?_ rfl
    rw [phase]
    exact Phase.noConfusion
  next phase =>
    split
    next given =>
      refine sound.advance state.rxIntEn state.txIntEn false ?_ Phase.noConfusion ?_ ?_ ?_
      · rw [phase]
        exact Phase.noConfusion
      · intro given
        cases given
      · intro _
        exact (control.semaphore given).1
      · intro closed
        cases closed
    next => exact sound
  next phase =>
    have past : state.phase.past = true := by
      rw [phase]
      rfl
    refine sound.advance_past false state.txIntEn ?_ Phase.noConfusion past fun _ => ?_
    · rw [phase]
      exact Phase.noConfusion
    · rcases (control.finished (control.past past)).2 with early | empty
      · exact meets none phase early
      · exact empty
  next phase =>
    have closed : state.phase.closed = true := by
      rw [phase]
      rfl
    refine sound.advance_past state.rxIntEn false ?_ Phase.noConfusion
      (Phase.past_of_closed closed) fun _ => control.closed closed
    rw [phase]
    exact Phase.noConfusion
  next phase => exact sound.endTransfer phase

theorem bkSpiMasterXfer (none : state.interrupt = none) (idle : state.phase = .idle)
    {message : SpiMessage} (meets : message.recvLen + message.sendLen < 2 ^ 32) :
    Sound (bkSpiMasterXfer state message).1 := by
  obtain ⟨sending, receiving, control⟩ := sound
  have closed : state.phase.closed = true := by
    rw [idle]
    rfl
  obtain ⟨written, empty⟩ := control.drained closed
  have delivered (buffer : List UInt8) (given : message.recvBuf = some buffer) :
      message.recvBuf.getD [] = filled message.sendLen [] buffer := by
    rw [given, filled, List.length_nil, Nat.zero_sub, List.drop_zero, List.drop_nil]
    rfl
  have received : [] = ([] ++ state.rxFifo).map Received.byte := by
    rw [empty.2]
    rfl
  have own : ∀ received ∈ [] ++ state.rxFifo, received.call = state.transfer.call + 1 := by
    rw [empty.2]
    exact fun _ member => absurd member List.not_mem_nil
  rw [SpiMaster.bkSpiMasterXfer, Nat.mod_eq_of_lt meets]
  split
  next nothing =>
    have wire : message.wire = [] := by
      rw [← List.length_eq_zero_iff, SpiMessage.length_wire, Nat.add_comm]
      exact nothing
    have null := receiving.pointed.1 idle
    refine ⟨⟨?_, sending.readable, sending.counted⟩, ?_, ?_⟩
    · change [] ++ state.txFifo ++ pending state = message.wire
      rw [wire, empty.1, sending.pending_nil written]
      rfl
    · refine ⟨rfl, received, own, delivered, fun there => ?_, fun _ => null, ?_⟩
      · exact absurd (null.symm.trans there) Bool.false_ne_true
      · intro calling
        exact absurd idle calling
    · exact ⟨control.finished, control.semaphore, control.past, control.closed,
        control.sampled⟩
  next something =>
    refine ⟨⟨?_, Nat.le_refl _, ?_⟩, ?_, ?_⟩
    · change [] ++ state.txFifo ++ pending (beginTransfer _ message) = message.wire
      rw [empty.1]
      exact pending_beginTransfer none meets
    · have count := unwritten_beginTransfer none meets
      exact (Nat.le_add_left _ _).trans_eq (Eq.symm count)
    · refine ⟨rfl, received, own, delivered, fun _ => ⟨rfl, ?_, rfl⟩, ?_, fun _ => rfl⟩
      · exact (Nat.zero_sub _).symm
      · intro idle
        cases idle
    · refine ⟨fun finish => Bool.noConfusion finish, fun given => ?_, fun past => ?_,
        fun closed => ?_, fun interrupt running => ?_⟩
      · have waits := (control.semaphore given).2
        rw [idle] at waits
        cases waits
      · cases past
      · cases closed
      · exact absurd (running.symm.trans none) (Option.some_ne_none _)

theorem exact (written : state.totalLen = 0) (empty : state.txFifo = [] ∧ state.rxFifo = []) :
    Exact state.transfer := by
  obtain ⟨paired, received, own, delivered, -, -⟩ := sound.receiving
  have shiftedOut := sound.sending.complete written empty.1
  rw [empty.2, List.append_nil] at received own
  have length : state.transfer.shiftedIn.length =
      state.transfer.message.sendLen + state.transfer.message.recvLen := by
    rw [paired, shiftedOut, SpiMessage.length_wire]
  refine ⟨shiftedOut, fun buffer given => ?_, length, own⟩
  have taken : state.transfer.taken.length =
      state.transfer.message.sendLen + state.transfer.message.recvLen := by
    rw [← length, received, List.length_map]
  rw [delivered buffer given, filled, taken, Nat.add_sub_cancel_left, received, List.map_drop]

end

end Sound

/-- A call that returns has what it should. -/
def Output.Good : Output → Prop
  | .returned transfer _ => Exact transfer
  | .nothing => True

variable {state : MasterState}

theorem xferStep_good (sound : Sound state) : (xferStep state).2.Good := by
  rw [xferStep]
  split
  next => trivial
  next => trivial
  next => trivial
  next =>
    split
    · trivial
    · trivial
  next => trivial
  next => trivial
  next phase =>
    have closed : state.phase.closed = true := by
      rw [phase]
      rfl
    obtain ⟨written, empty⟩ := sound.control.drained closed
    exact sound.exact written empty

theorem bkSpiMasterXfer_good (sound : Sound state) (none : state.interrupt = none)
    (idle : state.phase = .idle) {message : SpiMessage}
    (fits : message.recvLen + message.sendLen < 2 ^ 32) :
    (bkSpiMasterXfer state message).2.Good := by
  have next := sound.bkSpiMasterXfer none idle fits
  have closed : state.phase.closed = true := by
    rw [idle]
    rfl
  obtain ⟨written, empty⟩ := sound.control.drained closed
  rw [bkSpiMasterXfer] at next ⊢
  split
  next nothing =>
    rw [if_pos nothing] at next
    exact next.exact written empty
  next => trivial

theorem Sound.step {state : MasterState} (sound : Sound state) (depth txLevel : ℕ)
    {event : Event} (meets : Meets state event) :
    Sound ((machine depth txLevel).step state event).1 ∧
      ((machine depth txLevel).step state event).2.Good := by
  cases event with
  | xfer message =>
      simp only [machine]
      split
      next start =>
        have none := Option.isNone_iff_eq_none.mp start.1
        exact ⟨sound.bkSpiMasterXfer none start.2 meets,
          bkSpiMasterXfer_good sound none start.2 meets⟩
      next => exact ⟨sound, trivial⟩
  | thread =>
      simp only [machine]
      split
      next alone =>
        exact ⟨sound.xferStep (Option.isNone_iff_eq_none.mp alone) meets, xferStep_good sound⟩
      next => exact ⟨sound, trivial⟩
  | interrupt csUp =>
      simp only [machine]
      split
      next start =>
        exact ⟨sound.spiIsr (Option.isNone_iff_eq_none.mp start.1) txLevel csUp, trivial⟩
      next => exact ⟨sound, trivial⟩
  | isr =>
      simp only [machine]
      split
      next => exact ⟨sound, trivial⟩
      next interrupt running => exact ⟨sound.isrStep running depth, trivial⟩
  | shift byte => exact ⟨sound.shiftByte byte, trivial⟩

/-- For every transmit FIFO, every sequence of calls and every order of what the call, the interrupt
and the bus do: if a call that was released early goes on only when both FIFOs have run empty, and
every length fits, then every call that returns has shifted out its message, has exactly the bytes
shifted in after it and has taken no byte of another call. -/
theorem transfers_exact (depth txLevel : ℕ) {events : List Event}
    (meets : (machine depth txLevel).Always Meets bkSpiMasterInit events) :
    ∀ transfer result,
      Output.returned transfer result ∈ (machine depth txLevel).outputs bkSpiMasterInit events →
        Exact transfer := by
  have run : Sound ((machine depth txLevel).run bkSpiMasterInit events) ∧
      ∀ output ∈ (machine depth txLevel).outputs bkSpiMasterInit events, output.Good := by
    apply (machine depth txLevel).history_induction Meets
      (fun _ outputs state => Sound state ∧ ∀ output ∈ outputs, output.Good)
    · exact ⟨sound_init, fun _ member => absurd member List.not_mem_nil⟩
    · intro inputs outputs state event kept meets
      obtain ⟨next, good⟩ := kept.1.step depth txLevel meets
      refine ⟨next, fun output member => ?_⟩
      rcases List.mem_append.mp member with earlier | last
      · exact kept.2 output earlier
      · rw [List.mem_singleton.mp last]
        exact good
    · exact meets
  intro transfer result member
  exact run.2 _ member

/-- A message of two bytes with an answer of sixteen, longer than a FIFO of sixteen. -/
def longMessage : SpiMessage := ⟨[0x9f, 0x00], some (List.replicate 16 0), 16, by simp⟩

/-- The first interrupt fills the FIFO, the second writes the rest and the third, after the last
byte has left, releases the call. -/
def longCall : List Event :=
  List.flatten
    [[.xfer longMessage, .thread, .thread, .interrupt false], List.replicate 35 .isr,
      (List.range 5).map fun n => .shift (UInt8.ofNat n),
      .interrupt false :: List.replicate 11 .isr,
      (List.range' 5 13).map fun n => .shift (UInt8.ofNat n),
      .interrupt false :: List.replicate 16 .isr, List.replicate 4 .thread]

/-- The call as it returns. -/
def longTransfer : Transfer where
  call := 1
  message := longMessage
  recvBuf := (List.range' 2 16).map UInt8.ofNat
  shiftedOut := [0x9f, 0x00] ++ List.replicate 16 0xff
  shiftedIn := (List.range 18).map UInt8.ofNat
  taken := (List.range 18).map fun n => ⟨1, UInt8.ofNat n⟩

theorem transfers_exact_longCall : Exact longTransfer :=
  transfers_exact 16 12 (by decide +kernel : (machine 16 12).Always Meets bkSpiMasterInit longCall)
    longTransfer 16 (by decide +kernel)

/-- A message of `spi_flash_read_status`: a command, and one byte of answer. -/
def readStatus (command : UInt8) : SpiMessage := ⟨[command], some [0], 1, by simp⟩

/-- The two calls of `spi_flash_read_status`, each released by its first interrupt.  The bytes of
the first leave after its end. -/
def spiFlashReadStatus : List Event :=
  List.flatten
    [[.xfer (readStatus 0x05), .thread, .thread, .interrupt false], List.replicate 5 .isr,
      List.replicate 4 .thread, [.shift 0xff, .shift 0x83],
      [.xfer (readStatus 0x35), .thread, .interrupt false], List.replicate 8 .isr,
      List.replicate 5 .thread]

/-- The first call returns before anything has left, the second with the answer to the first. -/
theorem short_calls_return_early :
    let outputs := (machine 16 12).outputs bkSpiMasterInit spiFlashReadStatus
    let first : Transfer := ⟨1, readStatus 0x05, [0], [], [], []⟩
    let second : Transfer := ⟨2, readStatus 0x35, [0x83], [], [], [⟨1, 0xff⟩, ⟨1, 0x83⟩]⟩
    Output.returned first 1 ∈ outputs ∧ Output.returned second 1 ∈ outputs ∧
      ¬ Exact first ∧ ¬ Exact second := by
  refine ⟨by decide +kernel, by decide +kernel, fun exact => ?_, fun exact => ?_⟩
  · exact absurd exact.shiftedOut (by decide +kernel)
  · exact absurd exact.shiftedOut (by decide +kernel)

end BdkFreertos.SpiMaster
