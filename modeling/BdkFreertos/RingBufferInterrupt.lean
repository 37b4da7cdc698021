import BdkFreertos.RingBufferFifo

/-!
# Reads in the middle of a write

`rb_write` statement by statement, with a complete `rb_read` between any two statements, as when an
interrupt reads what a task writes.  A write that goes around the end of the ring moves the write
point before it has copied its second part, and a read in between that goes around the end as well
takes bytes that are not there yet.
-/

namespace BdkFreertos.RingBuffer

/-- The statement `rb_write` is in front of, with its local variables.  What it computes from the
write point and the capacity, which no read changes, is part of the statement before it. -/
inductive Writer
  /-- Not in `rb_write`. -/
  | idle
  /-- `rp = rb->rp`. -/
  | entered (buffer : Memory UInt8) (writeBytes : UInt32)
  /-- The choice of the branch. -/
  | sampled (buffer : Memory UInt8) (writeBytes rp : UInt32)
  /-- `RB_MEMCPY` of the whole block. -/
  | copying (buffer : Memory UInt8) (writeBytes : UInt32)
  /-- `rb->wp += write_bytes`. -/
  | moving (buffer : Memory UInt8) (writeBytes : UInt32)
  /-- `RB_MEMCPY` up to the end of the ring. -/
  | copyingEnd (buffer : Memory UInt8) (writeBytes remainBytes : UInt32)
  /-- `rb->wp = write_bytes - remain_bytes`. -/
  | movingAround (buffer : Memory UInt8) (writeBytes remainBytes : UInt32)
  /-- `RB_MEMCPY` from the start of the ring. -/
  | copyingStart (buffer : Memory UInt8) (remainBytes : UInt32)
  /-- The test whether the write point is at the end. -/
  | testing
  /-- `rb->wp = 0`. -/
  | resetting

/-- The ring and the place in `rb_write`. -/
structure Interrupted where
  rb : RbSt
  /-- The place in `rb_write`. -/
  writer : Writer

/-- What happens next. -/
inductive Event
  /-- A task calls `rb_write`. -/
  | call (buffer : Memory UInt8) (size count : UInt32)
  /-- The task executes its next statement. -/
  | next
  /-- An interrupt calls `rb_read`. -/
  | read (buffer : Memory UInt8) (size count : UInt32)

/-- What is seen of it. -/
inductive Effect
  | silent
  /-- `rb_write` has decided to store a block. -/
  | accepted (block : List UInt8)
  /-- `rb_read` has returned bytes. -/
  | returned (block : List UInt8)

/-- The branches of `rb_write`. -/
inductive Branch
  | straight
  /-- The block goes around the end, with so many bytes before it. -/
  | around (remainBytes : UInt32)
  | refused

/-- The choice of the branch in `rb_write`, with the read point as it was seen. -/
def chooseBranch (rb : RbSt) (writeBytes rp : UInt32) : Branch :=
  if rb.wp ≥ rp then
    if rb.capacity - rb.wp + rp ≥ writeBytes + rwpSafeInterval then
      if rb.capacity - rb.wp ≥ writeBytes then .straight else .around (rb.capacity - rb.wp)
    else .refused
  else if rp - rb.wp ≥ writeBytes + rwpSafeInterval then .straight
  else .refused

/-- The next statement of `rb_write`. -/
def nextStatement (state : Interrupted) : Interrupted × Effect :=
  let rb := state.rb
  match state.writer with
  | .idle => (state, .silent)
  | .entered buffer writeBytes => (⟨rb, .sampled buffer writeBytes rb.rp⟩, .silent)
  | .sampled buffer writeBytes rp =>
      match chooseBranch rb writeBytes rp with
      | .straight => (⟨rb, .copying buffer writeBytes⟩, .accepted (buffer.load 0 writeBytes.toNat))
      | .around remainBytes =>
          (⟨rb, .copyingEnd buffer writeBytes remainBytes⟩,
            .accepted (buffer.load 0 writeBytes.toNat))
      | .refused => (⟨rb, .idle⟩, .silent)
  | .copying buffer writeBytes =>
      (⟨{ rb with address := rbMemcpy rb.address rb.wp buffer 0 writeBytes },
        .moving buffer writeBytes⟩, .silent)
  | .moving _ writeBytes => (⟨{ rb with wp := rb.wp + writeBytes }, .testing⟩, .silent)
  | .copyingEnd buffer writeBytes remainBytes =>
      (⟨{ rb with address := rbMemcpy rb.address rb.wp buffer 0 remainBytes },
        .movingAround buffer writeBytes remainBytes⟩, .silent)
  | .movingAround buffer writeBytes remainBytes =>
      (⟨{ rb with wp := writeBytes - remainBytes }, .copyingStart buffer remainBytes⟩, .silent)
  | .copyingStart buffer remainBytes =>
      (⟨{ rb with address := rbMemcpy rb.address 0 buffer remainBytes rb.wp }, .testing⟩, .silent)
  | .testing =>
      (⟨rb, if rb.wp ≥ rb.capacity ∧ rb.rp ≠ 0 then .resetting else .idle⟩, .silent)
  | .resetting => (⟨{ rb with wp := 0 }, .idle⟩, .silent)

/-- A task that writes and an interrupt that reads. -/
def writerReader : Machine Interrupted Event Effect where
  step state
    | .call buffer size count =>
        match state.writer with
        | .idle =>
            if size * count = 0 then (state, .silent)
            else (⟨state.rb, .entered buffer (size * count)⟩, .silent)
        | _ => (state, .silent)
    | .next => nextStatement state
    | .read buffer size count =>
        let (after, delivered, readBytes) := rbRead state.rb buffer size count
        (⟨after, state.writer⟩, .returned (delivered.load 0 readBytes.toNat))

/-- The bytes returned by `rb_read` over a run. -/
def returnedBytes : List Effect → List UInt8
  | [] => []
  | .returned block :: effects => block ++ returnedBytes effects
  | _ :: effects => returnedBytes effects

/-- The bytes that `rb_write` has decided to store over a run. -/
def passedBytes : List Effect → List UInt8
  | [] => []
  | .accepted block :: effects => block ++ passedBytes effects
  | _ :: effects => passedBytes effects

/-! ## A write that nothing interrupts -/

theorem run_idle (rb : RbSt) (count : ℕ) :
    writerReader.run ⟨rb, .idle⟩ (List.replicate count .next) = ⟨rb, .idle⟩ := by
  induction count with
  | zero => rfl
  | succ count induction =>
      rw [List.replicate_succ, Machine.run_cons]
      exact induction

theorem run_testing (rb : RbSt) (count : ℕ) :
    writerReader.run ⟨rb, .testing⟩ (List.replicate (count + 2) .next) = ⟨wrapWp rb, .idle⟩ := by
  rw [List.replicate_succ, Machine.run_cons]
  by_cases wraps : rb.wp ≥ rb.capacity ∧ rb.rp ≠ 0
  · have tested : (writerReader.step ⟨rb, .testing⟩ .next).1 = ⟨rb, .resetting⟩ := by
      simp [writerReader, nextStatement, if_pos wraps]
    rw [tested, List.replicate_succ, Machine.run_cons, wrapWp, if_pos wraps]
    exact run_idle _ count
  · have tested : (writerReader.step ⟨rb, .testing⟩ .next).1 = ⟨rb, .idle⟩ := by
      simp [writerReader, nextStatement, if_neg wraps]
    rw [tested, run_idle, wrapWp, if_neg wraps]

section

variable (rb : RbSt) (buffer : Memory UInt8)
include rb buffer

theorem run_copying (writeBytes : UInt32) (count : ℕ) :
    writerReader.run ⟨rb, .copying buffer writeBytes⟩ (List.replicate (count + 4) .next) =
      ⟨wrapWp
        { rb with
          address := rbMemcpy rb.address rb.wp buffer 0 writeBytes
          wp := rb.wp + writeBytes }, .idle⟩ :=
  run_testing _ count

theorem run_copyingEnd (writeBytes remainBytes : UInt32) (count : ℕ) :
    writerReader.run ⟨rb, .copyingEnd buffer writeBytes remainBytes⟩
        (List.replicate (count + 5) .next) =
      ⟨wrapWp
        { rb with
          address :=
            rbMemcpy (rbMemcpy rb.address rb.wp buffer 0 remainBytes) 0 buffer remainBytes
              (writeBytes - remainBytes)
          wp := writeBytes - remainBytes }, .idle⟩ :=
  run_testing _ count

theorem run_write_alone (size count : UInt32) :
    writerReader.run ⟨rb, .idle⟩ (.call buffer size count :: List.replicate 7 .next) =
      ⟨(rbWrite rb buffer size count).1, .idle⟩ := by
  rw [Machine.run_cons, rbWrite]
  by_cases nothing_asked : size * count = 0
  · have called : (writerReader.step ⟨rb, .idle⟩ (.call buffer size count)).1 = ⟨rb, .idle⟩ := by
      simp [writerReader, if_pos nothing_asked]
    rw [called, run_idle, if_pos nothing_asked]
  · have called : (writerReader.step ⟨rb, .idle⟩ (.call buffer size count)).1 =
        ⟨rb, .entered buffer (size * count)⟩ := by
      simp [writerReader, if_neg nothing_asked]
    have chosen : writerReader.run ⟨rb, .entered buffer (size * count)⟩
        (List.replicate 7 .next) =
          writerReader.run (nextStatement ⟨rb, .sampled buffer (size * count) rb.rp⟩).1
            (List.replicate 5 .next) := rfl
    rw [called, chosen, if_neg nothing_asked]
    dsimp only
    by_cases point : rb.wp ≥ rb.rp
    · rw [if_pos point]
      by_cases room : rb.capacity - rb.wp + rb.rp ≥ size * count + rwpSafeInterval
      · rw [if_pos room]
        by_cases straight : rb.capacity - rb.wp ≥ size * count
        · simp only [nextStatement, chooseBranch, if_pos point, if_pos room, if_pos straight]
          exact run_copying rb buffer (size * count) 1
        · simp only [nextStatement, chooseBranch, if_pos point, if_pos room, if_neg straight]
          exact run_copyingEnd rb buffer (size * count) (rb.capacity - rb.wp) 0
      · simp only [nextStatement, chooseBranch, if_pos point, if_neg room]
        exact run_idle rb 5
    · rw [if_neg point]
      by_cases room : rb.rp - rb.wp ≥ size * count + rwpSafeInterval
      · simp only [nextStatement, chooseBranch, if_neg point, if_pos room]
        exact run_copying rb buffer (size * count) 1
      · simp only [nextStatement, chooseBranch, if_neg point, if_neg room]
        exact run_idle rb 5

end

/-- The writer has chosen its branch, or is not in `rb_write`. -/
def Writer.Chosen : Writer → Prop
  | .entered .. | .sampled .. => False
  | _ => True

theorem passedBytes_chosen {writer : Writer} (chosen : writer.Chosen) (rb : RbSt) (count : ℕ) :
    passedBytes (writerReader.outputs ⟨rb, writer⟩ (List.replicate count .next)) = [] := by
  induction count generalizing rb writer with
  | zero => rfl
  | succ count induction =>
      have step : (nextStatement ⟨rb, writer⟩).1.writer.Chosen ∧
          (nextStatement ⟨rb, writer⟩).2 = .silent := by
        cases writer with
        | entered buffer writeBytes | sampled buffer writeBytes rp => exact chosen.elim
        | testing =>
            simp only [nextStatement]
            split <;> trivial
        | _ => exact ⟨trivial, rfl⟩
      have effect : (writerReader.step ⟨rb, writer⟩ .next).2 = .silent := step.2
      rw [List.replicate_succ, Machine.outputs_cons, effect]
      exact induction step.1 _

theorem rbWrite_snd (rb : RbSt) (buffer : Memory UInt8) {size count : UInt32}
    (some_asked : size * count ≠ 0) : (rbWrite rb buffer size count).2 =
      match chooseBranch rb (size * count) rb.rp with
      | .refused => 0
      | _ => size * count := by
  rw [rbWrite, chooseBranch, if_neg some_asked]
  dsimp only
  split_ifs <;> rfl

theorem passedBytes_write_alone (rb : RbSt) (buffer : Memory UInt8) (size count : UInt32) :
    passedBytes (writerReader.outputs ⟨rb, .idle⟩
        (.call buffer size count :: List.replicate 7 .next)) =
      buffer.load 0 (rbWrite rb buffer size count).2.toNat := by
  by_cases nothing_asked : size * count = 0
  · have called : writerReader.step ⟨rb, .idle⟩ (.call buffer size count) =
        (⟨rb, .idle⟩, .silent) := by
      simp [writerReader, if_pos nothing_asked]
    have idle : Writer.idle.Chosen := trivial
    rw [Machine.outputs_cons, called, rbWrite, if_pos nothing_asked]
    exact passedBytes_chosen idle rb 7
  · have called : writerReader.step ⟨rb, .idle⟩ (.call buffer size count) =
        (⟨rb, .entered buffer (size * count)⟩, .silent) := by
      simp [writerReader, if_neg nothing_asked]
    have chosen : passedBytes (writerReader.outputs ⟨rb, .entered buffer (size * count)⟩
        (List.replicate 7 .next)) =
          passedBytes ((nextStatement ⟨rb, .sampled buffer (size * count) rb.rp⟩).2 ::
            writerReader.outputs (nextStatement ⟨rb, .sampled buffer (size * count) rb.rp⟩).1
              (List.replicate 5 .next)) := rfl
    rw [Machine.outputs_cons, called, rbWrite_snd rb buffer nothing_asked]
    refine chosen.trans ?_
    simp only [nextStatement]
    cases chooseBranch rb (size * count) rb.rp with
    | straight =>
        have copying : (Writer.copying buffer (size * count)).Chosen := trivial
        rw [passedBytes, passedBytes_chosen copying, List.append_nil]
    | around remainBytes =>
        have copying : (Writer.copyingEnd buffer (size * count) remainBytes).Chosen := trivial
        rw [passedBytes, passedBytes_chosen copying, List.append_nil]
    | refused => exact passedBytes_chosen (show Writer.idle.Chosen from trivial) rb 5

/-- A write that nothing interrupts does what `rb_write` does: it leaves the same ring behind, and the
bytes that it accepts are as many as `rb_write` returns. -/
theorem write_alone (rb : RbSt) (buffer : Memory UInt8) (size count : UInt32) :
    let events := Event.call buffer size count :: List.replicate 7 .next
    writerReader.run ⟨rb, .idle⟩ events = ⟨(rbWrite rb buffer size count).1, .idle⟩ ∧
      passedBytes (writerReader.outputs ⟨rb, .idle⟩ events) =
        buffer.load 0 (rbWrite rb buffer size count).2.toNat :=
  ⟨run_write_alone rb buffer size count, passedBytes_write_alone rb buffer size count⟩

/-! ## What a writer has still to publish -/

/-- The points lie in the ring with the safe interval between them; the write point may sit at the
end. -/
structure Placed (rb : RbSt) : Prop where
  large : 4 < rb.capacity.toNat
  wp_le : rb.wp.toNat ≤ rb.capacity.toNat
  rp_le : rb.rp.toNat ≤ rb.capacity.toNat
  ahead : rb.rp.toNat ≤ rb.wp.toNat → rb.wp.toNat + 4 ≤ rb.capacity.toNat + rb.rp.toNat
  behind : rb.wp.toNat < rb.rp.toNat → rb.wp.toNat + 4 ≤ rb.rp.toNat

/-- There is room for a block in one run. -/
def FitsStraight (rb : RbSt) (bytes : ℕ) : Prop :=
  rb.wp.toNat + bytes ≤ rb.capacity.toNat ∧
    (rb.rp.toNat ≤ rb.wp.toNat ∧ rb.wp.toNat + bytes + 4 ≤ rb.capacity.toNat + rb.rp.toNat ∨
      rb.wp.toNat + bytes + 4 ≤ rb.rp.toNat)

/-- There is room for a block that goes around the end. -/
def FitsAround (rb : RbSt) (bytes : ℕ) : Prop :=
  rb.rp.toNat ≤ rb.wp.toNat ∧ rb.wp.toNat + bytes + 4 ≤ rb.capacity.toNat + rb.rp.toNat ∧
    rb.capacity.toNat < rb.wp.toNat + bytes

/-- A read point seen earlier: the reader has come from there, and may have gone around the end if
it was ahead of the writer. -/
def SeenBefore (rb : RbSt) (rp : ℕ) : Prop :=
  rp ≤ rb.rp.toNat ∧ rb.rp.toNat ≤ rb.wp.toNat ∨
    rb.wp.toNat < rp ∧ rp ≤ rb.capacity.toNat ∧
      (rp ≤ rb.rp.toNat ∨ rb.rp.toNat ≤ rb.wp.toNat)

/-- What holds of the ring in front of each statement of `rb_write`. -/
def Fits (rb : RbSt) : Writer → Prop
  | .idle => rb.wp.toNat < rb.capacity.toNat
  | .entered _ writeBytes => rb.wp.toNat < rb.capacity.toNat ∧ writeBytes.toNat + 4 < 2 ^ 32
  | .sampled _ writeBytes rp =>
      rb.wp.toNat < rb.capacity.toNat ∧ writeBytes.toNat + 4 < 2 ^ 32 ∧ SeenBefore rb rp.toNat
  | .copying _ writeBytes => FitsStraight rb writeBytes.toNat
  | .moving buffer writeBytes =>
      FitsStraight rb writeBytes.toNat ∧
        rb.address.load rb.wp.toNat writeBytes.toNat = buffer.load 0 writeBytes.toNat
  | .copyingEnd _ writeBytes remainBytes =>
      FitsAround rb writeBytes.toNat ∧
        remainBytes.toNat = rb.capacity.toNat - rb.wp.toNat
  | .movingAround buffer writeBytes remainBytes =>
      FitsAround rb writeBytes.toNat ∧
        remainBytes.toNat = rb.capacity.toNat - rb.wp.toNat ∧
        rb.address.load rb.wp.toNat remainBytes.toNat = buffer.load 0 remainBytes.toNat
  | .copyingStart _ _ => rb.wp.toNat < rb.rp.toNat
  | .testing => True
  | .resetting => rb.wp.toNat = rb.capacity.toNat

/-- The bytes passed to `rb_write` and not yet returned by `rb_read`. -/
def pending (state : Interrupted) : List UInt8 :=
  match state.writer with
  | .copying buffer writeBytes => contents state.rb ++ buffer.load 0 writeBytes.toNat
  | .moving buffer writeBytes => contents state.rb ++ buffer.load 0 writeBytes.toNat
  | .copyingEnd buffer writeBytes _ => contents state.rb ++ buffer.load 0 writeBytes.toNat
  | .movingAround buffer writeBytes _ => contents state.rb ++ buffer.load 0 writeBytes.toNat
  -- the run from the start of the ring is published and not yet copied
  | .copyingStart buffer remainBytes =>
      state.rb.address.load state.rb.rp.toNat
          (state.rb.capacity.toNat - state.rb.rp.toNat) ++
        buffer.load remainBytes.toNat state.rb.wp.toNat
  | _ => contents state.rb

/-- The ring is in order for the place in `rb_write`. -/
def Sound (state : Interrupted) : Prop :=
  Placed state.rb ∧ Fits state.rb state.writer

/-- A read between the publication and the copy of a run from the start of the ring asks for no
more than lies before the end of the ring; and the bytes of a write and the safe interval together
are representable in 32 bits. -/
def Undisturbed (state : Interrupted) : Event → Prop
  | .call _ size count => size.toNat * count.toNat + 4 < 2 ^ 32
  | .next => True
  | .read _ size count =>
      match state.writer with
      | .copyingStart _ _ =>
          (size * count).toNat ≤ state.rb.capacity.toNat - state.rb.rp.toNat
      | _ => True

/-! ## One statement -/

section Statements

variable {rb : RbSt} {buffer : Memory UInt8} {writeBytes remainBytes : UInt32}

/-- What a branch finds in the ring. -/
def Branch.Fits (rb : RbSt) (writeBytes : UInt32) : Branch → Prop
  | .straight => FitsStraight rb writeBytes.toNat
  | .around remainBytes =>
      FitsAround rb writeBytes.toNat ∧ remainBytes.toNat = rb.capacity.toNat - rb.wp.toNat
  | .refused => True

variable {rp : UInt32}

/-- The branch is chosen with a read point that may be out of date; there is room for the block
all the same. -/
theorem chooseBranch_fits (wp_le : rb.wp.toNat ≤ rb.capacity.toNat)
    (representable : writeBytes.toNat + 4 < 2 ^ 32) (seen : SeenBefore rb rp.toNat) :
    (chooseBranch rb writeBytes rp).Fits rb writeBytes := by
  have bound := rb.capacity.toNat_lt
  have needed : (writeBytes + rwpSafeInterval).toNat = writeBytes.toNat + 4 :=
    toNat_add_of_lt representable
  have remain : (rb.capacity - rb.wp).toNat = rb.capacity.toNat - rb.wp.toNat :=
    UInt32.toNat_sub_of_le _ _ (UInt32.le_iff_toNat_le.mpr wp_le)
  rw [SeenBefore] at seen
  rw [chooseBranch]
  split
  · rename_i point
    have ordered := UInt32.le_iff_toNat_le.mp point
    have free : (rb.capacity - rb.wp + rp).toNat =
        rb.capacity.toNat - rb.wp.toNat + rp.toNat := by
      rw [UInt32.toNat_add, remain]
      omega
    split
    · rename_i room
      rw [ge_iff_le, UInt32.le_iff_toNat_le, needed, free] at room
      split
      · rename_i straight
        rw [ge_iff_le, UInt32.le_iff_toNat_le, remain] at straight
        simp only [Branch.Fits, FitsStraight]
        omega
      · rename_i crosses
        rw [ge_iff_le, UInt32.not_le, UInt32.lt_iff_toNat_lt, remain] at crosses
        refine ⟨?_, remain⟩
        rw [FitsAround]
        omega
    · trivial
  · rename_i point
    have behind := UInt32.lt_iff_toNat_lt.mp (UInt32.not_le.mp point)
    have free : (rp - rb.wp).toNat = rp.toNat - rb.wp.toNat :=
      UInt32.toNat_sub_of_le _ _ (UInt32.le_iff_toNat_le.mpr (Nat.le_of_lt behind))
    split
    · rename_i room
      rw [ge_iff_le, UInt32.le_iff_toNat_le, needed, free] at room
      simp only [Branch.Fits, FitsStraight]
      omega
    · trivial

/-- A statement leaves the ring in order and what is pending as it was. -/
abbrev Steady (state : Interrupted) : Prop :=
  Sound (nextStatement state).1 ∧ pending (nextStatement state).1 = pending state

theorem Steady.passes {state : Interrupted} (steady : Steady state)
    (silent : (nextStatement state).2 = .silent) :
    Sound (nextStatement state).1 ∧
      pending (nextStatement state).1 = pending state ++ passedBytes [(nextStatement state).2] := by
  rw [silent]
  exact ⟨steady.1, steady.2.trans (List.append_nil _).symm⟩

section

variable (placed : Placed rb)
include placed

theorem sampled_sound (fits : Fits rb (.sampled buffer writeBytes rp)) :
    Sound (nextStatement ⟨rb, .sampled buffer writeBytes rp⟩).1 ∧
      pending (nextStatement ⟨rb, .sampled buffer writeBytes rp⟩).1 =
        pending ⟨rb, .sampled buffer writeBytes rp⟩ ++
          passedBytes [(nextStatement ⟨rb, .sampled buffer writeBytes rp⟩).2] := by
  obtain ⟨wp_lt, representable, seen⟩ := fits
  have chosen := chooseBranch_fits placed.wp_le representable seen
  simp only [nextStatement]
  cases branch : chooseBranch rb writeBytes rp with
  | straight | around remainBytes =>
      rw [branch] at chosen
      exact ⟨⟨placed, chosen⟩, by simp [pending, passedBytes]⟩
  | refused => exact ⟨⟨placed, wp_lt⟩, by simp [pending, passedBytes]⟩

theorem copying_sound (fits : Fits rb (.copying buffer writeBytes)) :
    Steady ⟨rb, .copying buffer writeBytes⟩ := by
  have stored := rb.address.load_store_self rb.wp.toNat (buffer.load 0 writeBytes.toNat)
  rw [Memory.length_load] at stored
  have apart : rb.rp.toNat ≤ rb.wp.toNat ∨
      rb.wp.toNat + (buffer.load 0 writeBytes.toNat).length ≤ rb.rp.toNat := by
    rw [Memory.length_load]
    simp only [Fits, FitsStraight] at fits
    omega
  refine ⟨⟨⟨placed.large, placed.wp_le, placed.rp_le, placed.ahead, placed.behind⟩, fits,
    stored⟩, ?_⟩
  exact congrArg (· ++ _) (Memory.segment_store_beyond rb.address rb.capacity.toNat apart)

theorem moving_sound (fits : Fits rb (.moving buffer writeBytes)) :
    Steady ⟨rb, .moving buffer writeBytes⟩ := by
  obtain ⟨room, copied⟩ := fits
  obtain ⟨large, wp_le, rp_le, ahead, behind⟩ := placed
  rw [FitsStraight] at room
  have bound := rb.capacity.toNat_lt
  have moved : (rb.wp + writeBytes).toNat = rb.wp.toNat + writeBytes.toNat := by
    rw [UInt32.toNat_add]
    omega
  refine ⟨⟨⟨large, ?_, rp_le, ?_, ?_⟩, trivial⟩, ?_⟩
  · simp only [nextStatement, moved]
    omega
  · simp only [nextStatement, moved]
    omega
  · simp only [nextStatement, moved]
    omega
  · simp only [nextStatement, pending, contents, moved]
    rw [Memory.segment_extend rb.address rb.capacity.toNat (by omega), copied]

theorem copyingEnd_sound (fits : Fits rb (.copyingEnd buffer writeBytes remainBytes)) :
    Steady ⟨rb, .copyingEnd buffer writeBytes remainBytes⟩ := by
  obtain ⟨room, remain⟩ := fits
  have stored := rb.address.load_store_self rb.wp.toNat (buffer.load 0 remainBytes.toNat)
  rw [Memory.length_load] at stored
  refine ⟨⟨⟨placed.large, placed.wp_le, placed.rp_le, placed.ahead, placed.behind⟩, room, remain,
    stored⟩, ?_⟩
  exact congrArg (· ++ _)
    (Memory.segment_store_beyond rb.address rb.capacity.toNat (Or.inl room.1))

theorem movingAround_sound (fits : Fits rb (.movingAround buffer writeBytes remainBytes)) :
    Steady ⟨rb, .movingAround buffer writeBytes remainBytes⟩ := by
  obtain ⟨⟨ordered, room, crosses⟩, remain, copied⟩ := fits
  obtain ⟨large, wp_le, rp_le, -, -⟩ := placed
  have moved : (writeBytes - remainBytes).toNat = writeBytes.toNat - remainBytes.toNat :=
    UInt32.toNat_sub_of_le _ _ (UInt32.le_iff_toNat_le.mpr (by omega))
  refine ⟨⟨⟨large, ?_, rp_le, ?_, ?_⟩, ?_⟩, ?_⟩
  · simp only [nextStatement, moved]
    omega
  · simp only [nextStatement, moved]
    omega
  · simp only [nextStatement, moved]
    omega
  · simp only [nextStatement, Fits, moved]
    omega
  · simp only [nextStatement, pending, contents, moved]
    have block := buffer.load_add 0 remainBytes.toNat (writeBytes.toNat - remainBytes.toNat)
    rw [Nat.zero_add, Nat.add_sub_cancel' (by omega)] at block
    have front := rb.address.load_add rb.rp.toNat (rb.wp.toNat - rb.rp.toNat)
      (rb.capacity.toNat - rb.wp.toNat)
    rw [show rb.wp.toNat - rb.rp.toNat + (rb.capacity.toNat - rb.wp.toNat) =
      rb.capacity.toNat - rb.rp.toNat by omega, Nat.add_sub_cancel' ordered, ← remain,
      copied] at front
    rw [Memory.segment_of_le _ ordered, block, front, List.append_assoc]

theorem copyingStart_sound (fits : Fits rb (.copyingStart buffer remainBytes)) :
    Steady ⟨rb, .copyingStart buffer remainBytes⟩ := by
  have behind : rb.wp.toNat < rb.rp.toNat := fits
  refine ⟨⟨⟨placed.large, placed.wp_le, placed.rp_le, placed.ahead, placed.behind⟩, trivial⟩, ?_⟩
  have stored := rb.address.load_store_self 0 (buffer.load remainBytes.toNat rb.wp.toNat)
  rw [Memory.length_load] at stored
  simp only [nextStatement, pending, contents, rbMemcpy, UInt32.toNat_zero]
  rw [Memory.segment_of_lt _ behind, stored,
    Memory.load_store_of_disjoint _ (Or.inr (by rw [Memory.length_load]; omega))]

theorem testing_sound : Steady ⟨rb, .testing⟩ := by
  obtain ⟨large, wp_le, rp_le, ahead, behind⟩ := placed
  simp only [Steady, nextStatement]
  split
  · rename_i wraps
    have at_end := UInt32.le_iff_toNat_le.mp wraps.1
    exact ⟨⟨⟨large, wp_le, rp_le, ahead, behind⟩, Nat.le_antisymm wp_le at_end⟩, rfl⟩
  · rename_i stays
    refine ⟨⟨⟨large, wp_le, rp_le, ahead, behind⟩, ?_⟩, rfl⟩
    -- a write point at the end has the safe interval before it, so the read point is not zero
    by_contra reaches
    have at_end : rb.capacity.toNat ≤ rb.wp.toNat := Nat.not_lt.mp reaches
    apply stays
    refine ⟨UInt32.le_iff_toNat_le.mpr at_end, ?_⟩
    intro rp_zero
    rw [rp_zero, UInt32.toNat_zero] at ahead
    omega

theorem resetting_sound (fits : Fits rb .resetting) : Steady ⟨rb, .resetting⟩ := by
  have at_end : rb.wp.toNat = rb.capacity.toNat := fits
  obtain ⟨large, wp_le, rp_le, ahead, behind⟩ := placed
  refine ⟨⟨⟨large, ?_, rp_le, ?_, ?_⟩, ?_⟩, ?_⟩
  · simp [nextStatement]
  · simp only [nextStatement, UInt32.toNat_zero]
    omega
  · simp only [nextStatement, UInt32.toNat_zero]
    omega
  · simp only [nextStatement, Fits, UInt32.toNat_zero]
    omega
  · simp only [nextStatement, pending, contents, UInt32.toNat_zero, at_end]
    exact Memory.segment_wrap rb.address (by omega) rp_le

end

end Statements

variable {state : Interrupted} {event : Event} {capacity : UInt32} (front : List Effect)
  (addr : Memory UInt8) (back : List Effect)

/-- A statement of `rb_write` leaves the ring in order, and what is pending grows by the block that
is accepted. -/
theorem nextStatement_sound (sound : Sound state) :
    Sound (nextStatement state).1 ∧
      pending (nextStatement state).1 = pending state ++ passedBytes [(nextStatement state).2] := by
  obtain ⟨rb, writer⟩ := state
  obtain ⟨placed, fits⟩ := sound
  cases writer with
  | idle => exact ⟨⟨placed, fits⟩, (List.append_nil _).symm⟩
  | entered buffer writeBytes =>
      have seen : SeenBefore rb rb.rp.toNat := by
        have rp_le := placed.rp_le
        simp only at rp_le
        rw [SeenBefore]
        omega
      exact ⟨⟨placed, fits.1, fits.2, seen⟩, (List.append_nil _).symm⟩
  | sampled buffer writeBytes rp => exact sampled_sound placed fits
  | copying buffer writeBytes => exact (copying_sound placed fits).passes rfl
  | moving buffer writeBytes => exact (moving_sound placed fits).passes rfl
  | copyingEnd buffer writeBytes remainBytes => exact (copyingEnd_sound placed fits).passes rfl
  | movingAround buffer writeBytes remainBytes => exact (movingAround_sound placed fits).passes rfl
  | copyingStart buffer remainBytes => exact (copyingStart_sound placed fits).passes rfl
  | testing => exact (testing_sound placed).passes rfl
  | resetting => exact (resetting_sound placed fits).passes rfl

/-! ## A read between two statements -/

section Reads

variable {rb : RbSt} {writer : Writer} {buffer : Memory UInt8} {required : UInt32}
  {result : RbSt × Memory UInt8 × UInt32}

section

variable (sound : Sound ⟨rb, writer⟩) (move : ReadMove rb buffer required result)
  (undisturbed : ∀ source remainBytes, writer = .copyingStart source remainBytes →
    required.toNat ≤ rb.capacity.toNat - rb.rp.toNat)
include sound move undisturbed

/-- A read leaves the ring in order for the place in `rb_write`, unless it takes bytes that are not
there yet. -/
theorem sound_read : Sound ⟨result.1, writer⟩ := by
  obtain ⟨⟨large, wp_le, rp_le, ahead, behind⟩, fits⟩ := sound
  obtain ⟨address_eq, capacity_eq, wp_eq⟩ := move.frame
  have point := move.rp_cases rp_le
  simp only at large wp_le rp_le ahead behind fits
  refine ⟨⟨?_, ?_, ?_, ?_, ?_⟩, ?_⟩
  · simpa only [capacity_eq] using large
  · simpa only [capacity_eq, wp_eq] using wp_le
  · simp only [capacity_eq]
    omega
  · simp only [capacity_eq, wp_eq]
    omega
  · simp only [wp_eq]
    omega
  · cases writer <;>
      simp only [Fits, FitsStraight, FitsAround, SeenBefore, address_eq, capacity_eq, wp_eq]
        at fits ⊢
    case idle => exact fits
    case entered => exact fits
    case sampled => omega
    case copying => omega
    case moving | movingAround => exact ⟨by omega, fits.2⟩
    case copyingEnd => omega
    case copyingStart source remainBytes =>
      have := undisturbed source remainBytes rfl
      omega
    case resetting => exact fits

theorem pending_read :
    pending ⟨rb, writer⟩ =
      result.2.1.load 0 result.2.2.toNat ++ pending ⟨result.1, writer⟩ := by
  have after := sound_read sound move undisturbed
  obtain ⟨address_eq, capacity_eq, wp_eq⟩ := move.frame
  have split := move.split sound.1.rp_le
  cases writer with
  | copyingStart source remainBytes =>
      have behind : rb.wp.toNat < rb.rp.toNat := sound.2
      have still_behind : result.1.wp.toNat < result.1.rp.toNat := after.2
      rw [contents, contents, Memory.segment_of_lt _ behind, Memory.segment_of_lt _ still_behind,
        address_eq, wp_eq, ← List.append_assoc] at split
      have front := List.append_cancel_right split
      simp only [pending]
      rw [front, address_eq, wp_eq, List.append_assoc]
  | idle => exact split
  | entered => exact split
  | sampled => exact split
  | copying source writeBytes | moving source writeBytes | copyingEnd source writeBytes _
  | movingAround source writeBytes _ => simp [pending, split]
  | testing => exact split
  | resetting => exact split

end

end Reads

/-! ## Runs -/

theorem returnedBytes_append :
    returnedBytes (front ++ back) = returnedBytes front ++ returnedBytes back := by
  induction front with
  | nil => rfl
  | cons effect effects induction => cases effect <;> simp [returnedBytes, induction]

theorem passedBytes_append :
    passedBytes (front ++ back) = passedBytes front ++ passedBytes back := by
  induction front with
  | nil => rfl
  | cons effect effects induction => cases effect <;> simp [passedBytes, induction]

theorem returnedBytes_nextStatement (state : Interrupted) :
    returnedBytes [(nextStatement state).2] = [] := by
  obtain ⟨rb, writer⟩ := state
  cases writer with
  | sampled buffer writeBytes rp =>
      simp only [nextStatement]
      cases chooseBranch rb writeBytes rp <;> rfl
  | _ => rfl

/-- What has been passed is what has been returned and what is pending, and a step that is
undisturbed keeps it so. -/
theorem step_balance (sound : Sound state) (undisturbed : Undisturbed state event) :
    Sound (writerReader.step state event).1 ∧
      pending state ++ passedBytes [(writerReader.step state event).2] =
        returnedBytes [(writerReader.step state event).2] ++
          pending (writerReader.step state event).1 := by
  cases event with
  | call buffer size count =>
      obtain ⟨rb, writer⟩ := state
      cases writer with
      | idle =>
          simp only [writerReader]
          split
          · exact ⟨sound, List.append_nil _⟩
          · have product := toNat_mul_of_representable undisturbed
            have representable : (size * count).toNat + 4 < 2 ^ 32 := by
              rw [product]
              exact undisturbed
            exact ⟨⟨sound.1, sound.2, representable⟩, List.append_nil _⟩
      | _ => exact ⟨sound, List.append_nil _⟩
  | next =>
      obtain ⟨after, grown⟩ := nextStatement_sound sound
      refine ⟨after, ?_⟩
      have silent := returnedBytes_nextStatement state
      simp only [writerReader]
      rw [silent, List.nil_append, grown]
  | read buffer size count =>
      obtain ⟨rb, writer⟩ := state
      have move := rbRead_moves sound.1.rp_le buffer size count
      have clear : ∀ source remainBytes, writer = .copyingStart source remainBytes →
          (size * count).toNat ≤ rb.capacity.toNat - rb.rp.toNat := by
        rintro source remainBytes rfl
        exact undisturbed
      refine ⟨sound_read sound move clear, ?_⟩
      have taken := pending_read sound move clear
      simp only [writerReader, passedBytes, returnedBytes, List.append_nil]
      exact taken

/-- A ring that is no larger than the safe interval, with nothing in it. -/
def Tiny (state : Interrupted) : Prop :=
  state.rb.capacity.toNat ≤ 4 ∧ state.rb.wp = 0 ∧ state.rb.rp = 0 ∧
    match state.writer with
    | .idle => True
    | .entered _ writeBytes => writeBytes ≠ 0 ∧ writeBytes.toNat + 4 < 2 ^ 32
    | .sampled _ writeBytes rp => writeBytes ≠ 0 ∧ writeBytes.toNat + 4 < 2 ^ 32 ∧ rp = 0
    | _ => False

theorem step_tiny (tiny : Tiny state) (undisturbed : Undisturbed state event) :
    Tiny (writerReader.step state event).1 ∧
      passedBytes [(writerReader.step state event).2] = [] ∧
      returnedBytes [(writerReader.step state event).2] = [] := by
  obtain ⟨rb, writer⟩ := state
  obtain ⟨small, wp_zero, rp_zero, place⟩ := tiny
  simp only at small wp_zero rp_zero place
  cases event with
  | call buffer size count =>
      cases writer with
      | idle =>
          simp only [writerReader]
          split
          · exact ⟨⟨small, wp_zero, rp_zero, trivial⟩, rfl, rfl⟩
          · rename_i some_asked
            have product := toNat_mul_of_representable undisturbed
            refine ⟨⟨small, wp_zero, rp_zero, some_asked, ?_⟩, rfl, rfl⟩
            rw [product]
            exact undisturbed
      | _ => exact ⟨⟨small, wp_zero, rp_zero, place⟩, rfl, rfl⟩
  | next =>
      cases writer with
      | idle => exact ⟨⟨small, wp_zero, rp_zero, place⟩, rfl, rfl⟩
      | entered buffer writeBytes =>
          exact ⟨⟨small, wp_zero, rp_zero, place.1, place.2, rp_zero⟩, rfl, rfl⟩
      | sampled buffer writeBytes rp =>
          obtain ⟨some_asked, representable, sampled_zero⟩ := place
          have refused : chooseBranch rb writeBytes rp = .refused := by
            have needed : (writeBytes + rwpSafeInterval).toNat = writeBytes.toNat + 4 :=
              toNat_add_of_lt representable
            have positive : 0 < writeBytes.toNat :=
              Nat.pos_of_ne_zero fun zero => some_asked (UInt32.toNat_inj.mp zero)
            have ordered : rb.wp ≥ rp := by
              rw [wp_zero, sampled_zero]
              exact UInt32.le_refl 0
            have too_small : ¬rb.capacity - rb.wp + rp ≥ writeBytes + rwpSafeInterval := by
              rw [wp_zero, sampled_zero, UInt32.sub_zero, UInt32.add_zero, ge_iff_le,
                UInt32.le_iff_toNat_le, needed]
              omega
            rw [chooseBranch, if_pos ordered, if_neg too_small]
          simp only [writerReader, nextStatement, refused]
          exact ⟨⟨small, wp_zero, rp_zero, trivial⟩, rfl, rfl⟩
      | _ => exact place.elim
  | read buffer size count =>
      have rp_le : rb.rp.toNat ≤ rb.capacity.toNat := by
        rw [rp_zero]
        exact Nat.zero_le _
      have move := rbRead_moves rp_le buffer size count
      obtain ⟨-, capacity_eq, wp_eq⟩ := move.frame
      have nothing : contents rb = [] := by
        simp [contents, wp_zero, rp_zero, Memory.segment]
      have split := move.split rp_le
      rw [nothing] at split
      have point := move.rp_cases rp_le
      rw [wp_zero, rp_zero, UInt32.toNat_zero] at point
      have stays : (rbRead rb buffer size count).1.rp = 0 := by
        apply UInt32.toNat_inj.mp
        rw [UInt32.toNat_zero]
        omega
      refine ⟨⟨?_, wp_eq.trans wp_zero, stays, place⟩, rfl, ?_⟩
      · simpa only [writerReader, capacity_eq] using small
      · simpa [writerReader, returnedBytes] using (List.append_eq_nil_iff.mp split.symm).1

theorem sound_init (large : 4 < capacity.toNat) : Sound ⟨rbInit addr capacity, .idle⟩ := by
  refine ⟨⟨large, ?_, ?_, ?_, ?_⟩, ?_⟩ <;> simp [rbInit, Fits] <;> omega

/-- Along every undisturbed run on a ring larger than the safe interval, what has been passed is
what has been returned and what is pending. -/
theorem passed_eq_returned_append (large : 4 < capacity.toNat) {events : List Event}
    (undisturbed : writerReader.Always Undisturbed ⟨rbInit addr capacity, .idle⟩ events) :
    Sound (writerReader.run ⟨rbInit addr capacity, .idle⟩ events) ∧
      passedBytes (writerReader.outputs ⟨rbInit addr capacity, .idle⟩ events) =
        returnedBytes (writerReader.outputs ⟨rbInit addr capacity, .idle⟩ events) ++
          pending (writerReader.run ⟨rbInit addr capacity, .idle⟩ events) := by
  refine writerReader.history_induction Undisturbed (fun _ effects state =>
    Sound state ∧ passedBytes effects = returnedBytes effects ++ pending state) ?_ ?_ undisturbed
  · exact ⟨sound_init addr large, (contents_init addr capacity).symm⟩
  · rintro inputs effects state event ⟨sound, balance⟩ meets
    obtain ⟨after, step⟩ := step_balance sound meets
    refine ⟨after, ?_⟩
    rw [passedBytes_append, returnedBytes_append, balance, List.append_assoc, step,
      List.append_assoc]

/-- In every undisturbed run, on a ring of any capacity, the bytes returned by `rb_read` are a
prefix, in order, of the bytes passed to `rb_write`. -/
theorem rb_read_returns_prefix (addr : Memory UInt8) (capacity : UInt32) {events : List Event}
    (undisturbed : writerReader.Always Undisturbed ⟨rbInit addr capacity, .idle⟩ events) :
    returnedBytes (writerReader.outputs ⟨rbInit addr capacity, .idle⟩ events) <+:
      passedBytes (writerReader.outputs ⟨rbInit addr capacity, .idle⟩ events) := by
  rcases Nat.lt_or_ge 4 capacity.toNat with large | small
  · rw [(passed_eq_returned_append addr large undisturbed).2]
    exact List.prefix_append _ _
  · have nothing := writerReader.history_induction Undisturbed (fun _ effects state =>
      Tiny state ∧ passedBytes effects = [] ∧ returnedBytes effects = [])
      ⟨⟨small, rfl, rfl, trivial⟩, rfl, rfl⟩
      (by
        rintro inputs effects state event ⟨tiny, none_passed, none_returned⟩ meets
        obtain ⟨after, passed, returned⟩ := step_tiny tiny meets
        rw [passedBytes_append, returnedBytes_append, none_passed, none_returned, passed, returned]
        exact ⟨after, rfl, rfl⟩) undisturbed
    rw [nothing.2.2]
    exact List.nil_prefix

instance decidableUndisturbed (state : Interrupted) :
    ∀ event, Decidable (Undisturbed state event)
  | .call _ size count => inferInstanceAs (Decidable (size.toNat * count.toNat + 4 < 2 ^ 32))
  | .next => isTrue trivial
  | .read _ size count =>
      match state with
      | ⟨rb, .copyingStart _ _⟩ =>
          inferInstanceAs (Decidable ((size * count).toNat ≤ rb.capacity.toNat - rb.rp.toNat))
      | ⟨_, .idle⟩ | ⟨_, .entered _ _⟩ | ⟨_, .sampled _ _ _⟩ | ⟨_, .copying _ _⟩
      | ⟨_, .moving _ _⟩ | ⟨_, .copyingEnd _ _ _⟩ | ⟨_, .movingAround _ _ _⟩ | ⟨_, .testing⟩
      | ⟨_, .resetting⟩ => isTrue trivial

/-- Six bytes written to a ring of ten, read, and six more of which four are read while the write is
under way around the end. -/
theorem rb_read_returns_prefix_ten :
    let events : List Event :=
      .call (fun index => UInt8.ofNat (index + 1)) 1 6 :: List.replicate 7 .next ++
        .read (fun _ => 0) 1 6 :: .call (fun index => UInt8.ofNat (index + 7)) 1 6 ::
          List.replicate 4 .next ++ [.read (fun _ => 0) 1 4, .next, .read (fun _ => 0) 1 2]
    let effects := writerReader.outputs ⟨rbInit (fun _ => 0) 10, .idle⟩ events
    writerReader.Always Undisturbed ⟨rbInit (fun _ => 0) 10, .idle⟩ events ∧
      returnedBytes effects <+: passedBytes effects ∧
      returnedBytes effects = [1, 2, 3, 4, 5, 6, 7, 8, 9, 10, 11, 12] := by
  intro events effects
  have undisturbed : writerReader.Always Undisturbed ⟨rbInit (fun _ => 0) 10, .idle⟩ events := by
    decide
  exact ⟨undisturbed, rb_read_returns_prefix (fun _ => 0) 10 undisturbed, by decide⟩

/-- The same write, interrupted in the same place by a read that goes around the end: the reader
gets the first two bytes of the write before. -/
theorem rb_read_returns_old_bytes :
    let events : List Event :=
      .call (fun index => UInt8.ofNat (index + 1)) 1 6 :: List.replicate 7 .next ++
        .read (fun _ => 0) 1 6 :: .call (fun index => UInt8.ofNat (index + 7)) 1 6 ::
          List.replicate 4 .next ++ [.read (fun _ => 0) 1 6]
    let effects := writerReader.outputs ⟨rbInit (fun _ => 0) 10, .idle⟩ events
    returnedBytes effects = [1, 2, 3, 4, 5, 6, 7, 8, 9, 10, 1, 2] ∧
      passedBytes effects = [1, 2, 3, 4, 5, 6, 7, 8, 9, 10, 11, 12] ∧
      ¬returnedBytes effects <+: passedBytes effects := by
  intro events effects
  have returned : returnedBytes effects = [1, 2, 3, 4, 5, 6, 7, 8, 9, 10, 1, 2] := by decide
  have passed : passedBytes effects = [1, 2, 3, 4, 5, 6, 7, 8, 9, 10, 11, 12] := by decide
  refine ⟨returned, passed, ?_⟩
  rw [returned, passed]
  decide

end BdkFreertos.RingBuffer
