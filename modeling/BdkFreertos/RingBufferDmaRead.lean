import BdkFreertos.Circular
import BdkFreertos.RingBufferInterrupt

/-!
# The ring that a DMA channel reads

`rb_write_dma_read` stores into the ring while a DMA channel takes bytes out of it.  The channel
moves one byte at a time around the ring and stops at the pause address, which is set to the write
point at the end of each call; its own position is sampled at the start of the call.  The channel
may run between any two statements and between any two bytes of a copy.
-/

namespace BdkFreertos.RingBuffer

/-- The statement `rb_write_dma_read` is in front of, with its local variables. -/
inductive DmaWriter
  /-- Not in `rb_write_dma_read`. -/
  | idle
  /-- `rp = sddev_control(.., CMD_GDMA_GET_SRC_READ_ADDR, ..)` and `rb->rp = rp`. -/
  | entered (buffer : Memory UInt8) (writeBytes : UInt32)
  /-- The choice of the branch. -/
  | sampled (buffer : Memory UInt8) (writeBytes rp : UInt32)
  /-- `RB_DMA_RD_MEMCPY` of the whole block, with so many bytes copied. -/
  | copying (buffer : Memory UInt8) (writeBytes : UInt32) (copied : ℕ)
  /-- `rb->wp += write_bytes`. -/
  | moving (writeBytes : UInt32)
  /-- `RB_DMA_RD_MEMCPY` up to the end of the ring. -/
  | copyingEnd (buffer : Memory UInt8) (writeBytes remainBytes : UInt32) (copied : ℕ)
  /-- `rb->wp = write_bytes - remain_bytes`. -/
  | movingAround (buffer : Memory UInt8) (writeBytes remainBytes : UInt32)
  /-- `RB_DMA_RD_MEMCPY` from the start of the ring. -/
  | copyingStart (buffer : Memory UInt8) (remainBytes : UInt32) (copied : ℕ)
  | testing
  /-- `rb->wp = 0`. -/
  | resetting
  /-- `sddev_control(.., CMD_GDMA_SET_SRC_PAUSE_ADDR, ..)`. -/
  | pausing

/-- The record `RB_DMA_RD_ST`, the registers of its channel as offsets in the ring, and the place in
`rb_write_dma_read`. -/
structure DmaRead where
  /-- The ring; its read point is the one last sampled. -/
  rb : RbSt
  /-- The channel's source read address. -/
  src : UInt32
  /-- The channel's source pause address. -/
  pause : UInt32
  /-- The place in `rb_write_dma_read`. -/
  writer : DmaWriter

/-- Attach an empty ring and a channel that waits at its start. -/
def rbInitDmaRead (addr : Memory UInt8) (capacity : UInt32) : DmaRead where
  rb := rbInit addr capacity
  src := 0
  pause := 0
  writer := .idle

/-- Unread bytes, with the channel's position sampled. -/
def rbGetFillSizeDmaRead (state : DmaRead) : DmaRead × UInt32 :=
  let rb := { state.rb with rp := state.src }
  ({ state with rb := rb }, rbGetFillSize rb)

/-- Bytes that may still be appended, with the channel's position sampled. -/
def rbGetFreeSizeDmaRead (state : DmaRead) : DmaRead × UInt32 :=
  let rb := { state.rb with rp := state.src }
  ({ state with rb := rb }, rbGetFreeSize rb)

/-- What happens next. -/
inductive DmaReadEvent
  /-- The program calls `rb_write_dma_read`. -/
  | call (buffer : Memory UInt8) (size count : UInt32)
  /-- The program executes its next statement, or the next byte of a copy. -/
  | next
  | getFillSize
  | getFreeSize
  /-- The channel takes a byte, if it is not at the pause address. -/
  | dma

/-- The next byte of a copy. -/
def memcpyByte (destination : Memory UInt8) (place : UInt32) (source : Memory UInt8)
    (start : UInt32) (copied : ℕ) : Memory UInt8 :=
  destination.store (place.toNat + copied) [source (start.toNat + copied)]

def advance (capacity offset : UInt32) : UInt32 :=
  if offset + 1 = capacity then 0 else offset + 1

/-- The next statement of `rb_write_dma_read`. -/
def nextStatementDmaRead (state : DmaRead) : DmaRead × Effect :=
  let rb := state.rb
  match state.writer with
  | .idle => (state, .silent)
  | .entered buffer writeBytes =>
      ({ state with
         rb := { rb with rp := state.src }
         writer := .sampled buffer writeBytes state.src }, .silent)
  | .sampled buffer writeBytes rp =>
      match chooseBranch rb writeBytes rp with
      | .straight =>
          ({ state with writer := .copying buffer writeBytes 0 },
            .accepted (buffer.load 0 writeBytes.toNat))
      | .around remainBytes =>
          ({ state with writer := .copyingEnd buffer writeBytes remainBytes 0 },
            .accepted (buffer.load 0 writeBytes.toNat))
      | .refused => ({ state with writer := .idle }, .silent)
  | .copying buffer writeBytes copied =>
      if copied < writeBytes.toNat then
        ({ state with
           rb := { rb with address := memcpyByte rb.address rb.wp buffer 0 copied }
           writer := .copying buffer writeBytes (copied + 1) }, .silent)
      else ({ state with writer := .moving writeBytes }, .silent)
  | .moving writeBytes =>
      ({ state with
         rb := { rb with wp := rb.wp + writeBytes }
         writer := .testing }, .silent)
  | .copyingEnd buffer writeBytes remainBytes copied =>
      if copied < remainBytes.toNat then
        ({ state with
           rb := { rb with address := memcpyByte rb.address rb.wp buffer 0 copied }
           writer := .copyingEnd buffer writeBytes remainBytes (copied + 1) }, .silent)
      else ({ state with writer := .movingAround buffer writeBytes remainBytes }, .silent)
  | .movingAround buffer writeBytes remainBytes =>
      ({ state with
         rb := { rb with wp := writeBytes - remainBytes }
         writer := .copyingStart buffer remainBytes 0 }, .silent)
  | .copyingStart buffer remainBytes copied =>
      if copied < rb.wp.toNat then
        ({ state with
           rb := { rb with address := memcpyByte rb.address 0 buffer remainBytes copied }
           writer := .copyingStart buffer remainBytes (copied + 1) }, .silent)
      else ({ state with writer := .testing }, .silent)
  | .testing =>
      ({ state with
         writer := if rb.wp ≥ rb.capacity ∧ rb.rp ≠ 0 then .resetting else .pausing }, .silent)
  | .resetting => ({ state with rb := { rb with wp := 0 }, writer := .pausing }, .silent)
  | .pausing => ({ state with pause := rb.wp, writer := .idle }, .silent)

/-- The program and the channel. -/
def dmaRead : Machine DmaRead DmaReadEvent Effect where
  step state
    | .call buffer size count =>
        match state.writer with
        | .idle =>
            if size * count = 0 then (state, .silent)
            else ({ state with writer := .entered buffer (size * count) }, .silent)
        | _ => (state, .silent)
    | .next => nextStatementDmaRead state
    | .getFillSize =>
        match state.writer with
        | .idle => ((rbGetFillSizeDmaRead state).1, .silent)
        | _ => (state, .silent)
    | .getFreeSize =>
        match state.writer with
        | .idle => ((rbGetFreeSizeDmaRead state).1, .silent)
        | _ => (state, .silent)
    | .dma =>
        if state.src = state.pause then (state, .silent)
        else
          ({ state with src := advance state.rb.capacity state.src },
            .returned [state.rb.address state.src.toNat])

/-- The bytes of each write and the safe interval together are representable in 32 bits. -/
def DmaReadEvent.Representable : DmaReadEvent → Prop
  | .call _ size count => (size * count).toNat + 4 < 2 ^ 32
  | _ => True

/-! ## Points as remainders of stream positions -/

theorem toNat_advance {capacity offset : UInt32} {position : ℕ}
    (positive : 0 < capacity.toNat) (place : offset.toNat = position % capacity.toNat) :
    (advance capacity offset).toNat = (position + 1) % capacity.toNat := by
  have bound := capacity.toNat_lt
  have inside := Nat.mod_lt position positive
  have moved : (offset + 1).toNat = offset.toNat + 1 :=
    toNat_add_of_lt (by have : (1 : UInt32).toNat = 1 := rfl; omega)
  have next := Memory.add_mod_cases position (Nat.succ_le_of_lt positive)
  rw [Nat.succ_eq_add_one, Nat.zero_add] at next
  rw [advance]
  by_cases last : offset + 1 = capacity
  · rw [if_pos last, UInt32.toNat_zero]
    rw [last] at moved
    omega
  · rw [if_neg last, moved]
    have apart : offset.toNat + 1 ≠ capacity.toNat :=
      fun same => last (UInt32.toNat_inj.mp (moved.trans same))
    omega

variable {rb : RbSt} {released : ℕ} {state : DmaRead}

theorem toNat_fillSize_of_distance {distance : ℕ} (apart : rb.rp.toNat + distance = rb.wp.toNat ∨
      rb.wp.toNat < rb.rp.toNat ∧ rb.rp.toNat ≤ rb.capacity.toNat ∧
        rb.rp.toNat + distance = rb.capacity.toNat + rb.wp.toNat) :
    (rbGetFillSize rb).toNat = distance := by
  have bound := rb.capacity.toNat_lt
  rw [rbGetFillSize]
  split
  · rename_i point
    have ordered := UInt32.le_iff_toNat_le.mp point
    rw [UInt32.toNat_sub_of_le _ _ point]
    omega
  · rename_i point
    have behind := UInt32.lt_iff_toNat_lt.mp (UInt32.not_le.mp point)
    have rp_le : rb.rp ≤ rb.capacity := UInt32.le_iff_toNat_le.mpr (by omega)
    rw [UInt32.toNat_add, UInt32.toNat_sub_of_le _ _ rp_le]
    omega

/-- A block is accepted, with a read point that may be out of date, only when it leaves the safe
interval free behind the position that was seen. -/
theorem chooseBranch_room {writeBytes rp : UInt32} {seen : ℕ}
    (representable : writeBytes.toNat + 4 < 2 ^ 32) (wp_le : rb.wp.toNat ≤ rb.capacity.toNat)
    (rp_eq : rb.rp = rp) (wp_place : rb.wp.toNat = released % rb.capacity.toNat)
    (rp_place : rp.toNat = seen % rb.capacity.toNat) (seen_le : seen ≤ released)
    (room : released ≤ seen + (rb.capacity.toNat - 4)) :
    match chooseBranch rb writeBytes rp with
    | .straight =>
        released + writeBytes.toNat + 4 ≤ seen + rb.capacity.toNat ∧
          rb.wp.toNat + writeBytes.toNat ≤ rb.capacity.toNat ∧
          (rb.wp.toNat + writeBytes.toNat = rb.capacity.toNat → rb.rp ≠ 0)
    | .around remainBytes =>
        released + writeBytes.toNat + 4 ≤ seen + rb.capacity.toNat ∧
          remainBytes.toNat = rb.capacity.toNat - rb.wp.toNat ∧
          remainBytes.toNat < writeBytes.toNat
    | .refused => True := by
  obtain ⟨fill, rfl⟩ := Nat.exists_eq_add_of_le seen_le
  have points := Memory.add_mod_cases seen (show fill ≤ rb.capacity.toNat by omega)
  rw [← wp_place, ← rp_place] at points
  have rp_le : rp.toNat ≤ rb.capacity.toNat := by
    rcases Nat.eq_zero_or_pos rb.capacity.toNat with none_there | positive
    · omega
    · rw [rp_place]
      exact Nat.le_of_lt (Nat.mod_lt seen positive)
  have current : SeenBefore rb rp.toNat := by
    rw [SeenBefore, rp_eq]
    omega
  have chosen := chooseBranch_fits wp_le representable current
  cases branch : chooseBranch rb writeBytes rp with
  | straight =>
      rw [branch] at chosen
      simp only [Branch.Fits, FitsStraight, rp_eq] at chosen
      refine ⟨by omega, chosen.1, ?_⟩
      intro at_end rp_zero
      rw [← rp_eq, rp_zero, UInt32.toNat_zero] at chosen
      omega
  | around remainBytes =>
      rw [branch] at chosen
      simp only [Branch.Fits, FitsAround, rp_eq] at chosen
      exact ⟨by omega, chosen.2, by omega⟩
  | refused => trivial

/-! ## The stream through the ring -/

/-- The position up to which the ring is filled. -/
def DmaWriter.filled (writer : DmaWriter) (stream : List UInt8) (released : ℕ) : ℕ :=
  match writer with
  | .idle => released
  | .entered _ _ => released
  | .sampled _ _ _ => released
  | .copying _ _ copied => released + copied
  | .moving _ => stream.length
  | .copyingEnd _ _ _ copied => released + copied
  | .movingAround _ _ remainBytes => released + remainBytes.toNat
  | .copyingStart _ remainBytes copied => released + remainBytes.toNat + copied
  | .testing => stream.length
  | .resetting => stream.length
  | .pausing => stream.length

/-- What holds in front of each statement of `rb_write_dma_read`, when the channel is at one position
of the stream and is to stop at another. -/
def DmaWriter.Ready (writer : DmaWriter) (rb : RbSt) (pause : UInt32) (stream : List UInt8)
    (taken released : ℕ) : Prop :=
  match writer with
  | .idle => rb.wp = pause ∧ stream.length = released
  | .entered _ writeBytes =>
      rb.wp = pause ∧ stream.length = released ∧ writeBytes.toNat + 4 < 2 ^ 32
  | .sampled _ writeBytes rp =>
      rb.wp = pause ∧ stream.length = released ∧ writeBytes.toNat + 4 < 2 ^ 32 ∧ rb.rp = rp ∧
        ∃ seen, seen ≤ taken ∧ rp.toNat = seen % rb.capacity.toNat ∧
          released ≤ seen + (rb.capacity.toNat - 4)
  | .copying buffer writeBytes copied =>
      rb.wp = pause ∧ stream.drop released = buffer.load 0 writeBytes.toNat ∧
        copied ≤ writeBytes.toNat ∧ rb.wp.toNat + writeBytes.toNat ≤ rb.capacity.toNat ∧
        (rb.wp.toNat + writeBytes.toNat = rb.capacity.toNat → rb.rp ≠ 0)
  | .moving writeBytes =>
      rb.wp = pause ∧ stream.length = released + writeBytes.toNat ∧
        rb.wp.toNat + writeBytes.toNat ≤ rb.capacity.toNat ∧
        (rb.wp.toNat + writeBytes.toNat = rb.capacity.toNat → rb.rp ≠ 0)
  | .copyingEnd buffer writeBytes remainBytes copied =>
      rb.wp = pause ∧ stream.drop released = buffer.load 0 writeBytes.toNat ∧
        copied ≤ remainBytes.toNat ∧
        remainBytes.toNat = rb.capacity.toNat - rb.wp.toNat ∧
        remainBytes.toNat < writeBytes.toNat
  | .movingAround buffer writeBytes remainBytes =>
      rb.wp = pause ∧ stream.drop released = buffer.load 0 writeBytes.toNat ∧
        remainBytes.toNat = rb.capacity.toNat - rb.wp.toNat ∧
        remainBytes.toNat < writeBytes.toNat
  | .copyingStart buffer remainBytes copied =>
      stream.drop released = buffer.load 0 (remainBytes.toNat + rb.wp.toNat) ∧
        copied ≤ rb.wp.toNat ∧ (released + remainBytes.toNat) % rb.capacity.toNat = 0
  | .testing =>
      (rb.wp.toNat = stream.length % rb.capacity.toNat ∨
        rb.wp = rb.capacity ∧ stream.length % rb.capacity.toNat = 0 ∧ rb.rp ≠ 0)
  | .resetting => stream.length % rb.capacity.toNat = 0
  | .pausing => rb.wp.toNat = stream.length % rb.capacity.toNat

/-- The stream of accepted bytes passes through the ring: the channel has taken it up to one
position, is to stop at another, and what lies between is in the ring with the safe interval
free. -/
structure DmaRead.Streams (state : DmaRead) (stream : List UInt8) (taken released : ℕ) : Prop where
  taken_le : taken ≤ released
  released_le : released ≤ stream.length
  room : stream.length ≤ taken + (state.rb.capacity.toNat - 4)
  src_place : state.src.toNat = taken % state.rb.capacity.toNat
  pause_place : state.pause.toNat = released % state.rb.capacity.toNat
  large : stream = [] ∨ 4 ≤ state.rb.capacity.toNat
  carries : state.rb.address.Carries state.rb.capacity.toNat stream taken
    (state.writer.filled stream released)
  ready : state.writer.Ready state.rb state.pause stream taken released

section

variable {stream : List UInt8} {taken : ℕ} (streams : state.Streams stream taken released)
include streams

theorem DmaRead.Streams.pause_le : state.pause.toNat ≤ state.rb.capacity.toNat := by
  rw [streams.pause_place]
  rcases streams.large with rfl | large
  · rw [Nat.le_zero.mp streams.released_le, Nat.zero_mod]
    exact Nat.zero_le _
  · exact Nat.le_of_lt (Nat.mod_lt released (by omega))

theorem DmaRead.Streams.dma (running : state.src ≠ state.pause) :
    DmaRead.Streams { state with src := advance state.rb.capacity state.src } stream (taken + 1)
        released ∧
      stream.take (taken + 1) =
        stream.take taken ++ [state.rb.address state.src.toNat] := by
  obtain ⟨taken_le, released_le, room, src_place, pause_place, large, carries, ready⟩ := streams
  have behind : taken < released := by
    refine Nat.lt_of_le_of_ne taken_le ?_
    rintro rfl
    exact running (UInt32.toNat_inj.mp (src_place.trans pause_place.symm))
  have filled : released ≤ state.writer.filled stream released := by
    cases writer : state.writer <;> simp only [DmaWriter.filled] <;> omega
  refine ⟨⟨behind, released_le, ?_, ?_, pause_place, large, ?_, ?_⟩, ?_⟩
  · simp only
    omega
  · exact toNat_advance (by omega) src_place
  · exact carries.mono (Nat.le_succ taken) (Nat.le_refl _)
  · revert ready
    cases state.writer <;> simp only [DmaWriter.Ready, imp_self]
    rintro ⟨wp_eq, length_eq, representable, rp_eq, seen, seen_le, rest⟩
    exact ⟨wp_eq, length_eq, representable, rp_eq, seen, Nat.le_succ_of_le seen_le, rest⟩
  · rw [src_place]
    exact carries.take_succ (Nat.lt_of_lt_of_le behind filled)

end

/-! ## One statement -/

section Statements

variable {state : DmaRead} {stream : List UInt8} {taken released : ℕ}

/-- A statement that leaves the channel alone and accepts nothing. -/
theorem DmaRead.Streams.proceed (streams : state.Streams stream taken released) {rb : RbSt}
    {writer : DmaWriter} (capacity_eq : rb.capacity = state.rb.capacity)
    (carries : rb.address.Carries state.rb.capacity.toNat stream taken
      (writer.filled stream released))
    (ready : writer.Ready rb state.pause stream taken released) :
    DmaRead.Streams { state with rb := rb, writer := writer } stream taken released := by
  obtain ⟨taken_le, released_le, room, src_place, pause_place, large, -, -⟩ := streams
  rw [← capacity_eq] at room src_place pause_place large carries
  exact ⟨taken_le, released_le, room, src_place, pause_place, large, carries, ready⟩

variable {buffer : Memory UInt8} {writeBytes : UInt32} {copied : ℕ} {remainBytes : UInt32}

section

variable (streams : state.Streams stream taken released)
include streams

/-- The next byte of the block goes behind what the ring holds. -/
theorem DmaRead.Streams.copy {total offset place : ℕ}
    (block : stream.drop released = buffer.load 0 total) (inside : offset < total)
    (placed : (released + offset) % state.rb.capacity.toNat = place)
    (carries : state.rb.address.Carries state.rb.capacity.toNat stream taken (released + offset)) :
    (state.rb.address.store place [buffer offset]).Carries state.rb.capacity.toNat stream taken
      (released + (offset + 1)) := by
  have length_eq := congrArg List.length block
  rw [List.length_drop, Memory.length_load] at length_eq
  have next : stream[released + offset]? = some (buffer offset) := by
    rw [← List.getElem?_drop, block, Memory.getElem?_load, if_pos inside, Nat.zero_add]
  have room := streams.room
  rw [← placed]
  exact carries.put next (by omega)

theorem DmaRead.Streams.entered (place : state.writer = .entered buffer writeBytes) :
    DmaRead.Streams (nextStatementDmaRead state).1 stream taken released := by
  have carries := streams.carries
  have ready := streams.ready
  have room := streams.room
  rw [place] at carries ready
  obtain ⟨wp_eq, length_eq, representable⟩ := ready
  simp only [nextStatementDmaRead, place]
  exact streams.proceed rfl carries
    ⟨wp_eq, length_eq, representable, rfl, taken, Nat.le_refl taken, streams.src_place,
      length_eq ▸ room⟩

theorem DmaRead.Streams.sampled {rp : UInt32}
    (place : state.writer = .sampled buffer writeBytes rp) :
    DmaRead.Streams (nextStatementDmaRead state).1
      (stream ++ passedBytes [(nextStatementDmaRead state).2]) taken released := by
  have pause_le := streams.pause_le
  obtain ⟨taken_le, released_le, room, src_place, pause_place, large, carries, ready⟩ := streams
  rw [place] at carries ready
  obtain ⟨wp_eq, length_eq, representable, rp_eq, seen, seen_le, rp_place, seen_room⟩ := ready
  have chosen := chooseBranch_room representable (by rw [wp_eq]; exact pause_le) rp_eq
    (by rw [wp_eq]; exact pause_place) rp_place (by omega) seen_room
  have behind : (stream ++ buffer.load 0 writeBytes.toNat).drop released =
      buffer.load 0 writeBytes.toNat := List.drop_left' length_eq
  have grown : (stream ++ buffer.load 0 writeBytes.toNat).length =
      released + writeBytes.toNat := by
    rw [List.length_append, Memory.length_load, length_eq]
  simp only [nextStatementDmaRead, place]
  cases branch : chooseBranch state.rb writeBytes rp with
  | straight =>
      rw [branch] at chosen
      obtain ⟨free, reaches, at_end⟩ := chosen
      simp only [passedBytes, List.append_nil]
      refine ⟨taken_le, ?_, ?_, src_place, pause_place, Or.inr ?_, carries.append _, ?_⟩
      · rw [grown]
        exact Nat.le_add_right _ _
      · rw [grown]
        dsimp only
        omega
      · dsimp only
        omega
      · exact ⟨wp_eq, behind, Nat.zero_le _, reaches, at_end⟩
  | around remainBytes =>
      rw [branch] at chosen
      obtain ⟨free, remain, crosses⟩ := chosen
      simp only [passedBytes, List.append_nil]
      refine ⟨taken_le, ?_, ?_, src_place, pause_place, Or.inr ?_, carries.append _, ?_⟩
      · rw [grown]
        exact Nat.le_add_right _ _
      · rw [grown]
        dsimp only
        omega
      · dsimp only
        omega
      · exact ⟨wp_eq, behind, Nat.zero_le _, remain, crosses⟩
  | refused =>
      simp only [passedBytes, List.append_nil]
      exact ⟨taken_le, released_le, room, src_place, pause_place, large, carries, wp_eq,
        length_eq⟩

theorem DmaRead.Streams.copying (place : state.writer = .copying buffer writeBytes copied) :
    DmaRead.Streams (nextStatementDmaRead state).1 stream taken released := by
  have carries := streams.carries
  have ready := streams.ready
  have pause_place := streams.pause_place
  have released_le := streams.released_le
  rw [place] at carries ready
  obtain ⟨wp_eq, block, copied_le, reaches, at_end⟩ := ready
  rw [← wp_eq] at pause_place
  simp only [nextStatementDmaRead, place]
  split
  · rename_i inside
    have point := Memory.add_mod_cases released
      (show copied ≤ state.rb.capacity.toNat by omega)
    have stored := streams.copy block inside
      (show _ = state.rb.wp.toNat + copied by omega) carries
    refine streams.proceed rfl ?_ ⟨wp_eq, block, inside, reaches, at_end⟩
    simpa only [memcpyByte, UInt32.toNat_zero, Nat.zero_add, DmaWriter.filled] using stored
  · rename_i complete
    have length_eq := congrArg List.length block
    rw [List.length_drop, Memory.length_load] at length_eq
    refine streams.proceed rfl ?_ ⟨wp_eq, by omega, reaches, at_end⟩
    exact carries.mono (Nat.le_refl _) (by simp only [DmaWriter.filled]; omega)

theorem DmaRead.Streams.moving (place : state.writer = .moving writeBytes) :
    DmaRead.Streams (nextStatementDmaRead state).1 stream taken released := by
  have carries := streams.carries
  have ready := streams.ready
  have pause_place := streams.pause_place
  rw [place] at carries ready
  obtain ⟨wp_eq, length_eq, reaches, at_end⟩ := ready
  rw [← wp_eq] at pause_place
  have bound := state.rb.capacity.toNat_lt
  have moved : (state.rb.wp + writeBytes).toNat = state.rb.wp.toNat + writeBytes.toNat :=
    toNat_add_of_lt (by omega)
  have point := Memory.add_mod_cases released
    (show writeBytes.toNat ≤ state.rb.capacity.toNat by omega)
  rw [← length_eq] at point
  simp only [nextStatementDmaRead, place]
  refine streams.proceed rfl carries ?_
  simp only [DmaWriter.Ready]
  rcases Nat.lt_or_ge (state.rb.wp.toNat + writeBytes.toNat) state.rb.capacity.toNat with
    before | reached
  · exact Or.inl (by omega)
  · refine Or.inr ⟨UInt32.toNat_inj.mp (by omega), by omega, at_end (by omega)⟩

theorem DmaRead.Streams.copyingEnd
    (place : state.writer = .copyingEnd buffer writeBytes remainBytes copied) :
    DmaRead.Streams (nextStatementDmaRead state).1 stream taken released := by
  have carries := streams.carries
  have ready := streams.ready
  have pause_place := streams.pause_place
  rw [place] at carries ready
  obtain ⟨wp_eq, block, copied_le, remain, crosses⟩ := ready
  rw [← wp_eq] at pause_place
  simp only [nextStatementDmaRead, place]
  split
  · rename_i inside
    have point := Memory.add_mod_cases released
      (show copied ≤ state.rb.capacity.toNat by omega)
    have stored := streams.copy block (Nat.lt_trans inside crosses)
      (show _ = state.rb.wp.toNat + copied by omega) carries
    refine streams.proceed rfl ?_ ⟨wp_eq, block, inside, remain, crosses⟩
    simpa only [memcpyByte, UInt32.toNat_zero, Nat.zero_add, DmaWriter.filled] using stored
  · rename_i complete
    refine streams.proceed rfl ?_ ⟨wp_eq, block, remain, crosses⟩
    exact carries.mono (Nat.le_refl _) (by simp only [DmaWriter.filled]; omega)

theorem DmaRead.Streams.movingAround
    (place : state.writer = .movingAround buffer writeBytes remainBytes) :
    DmaRead.Streams (nextStatementDmaRead state).1 stream taken released := by
  have carries := streams.carries
  have ready := streams.ready
  have pause_place := streams.pause_place
  have pause_le := streams.pause_le
  rw [place] at carries ready
  obtain ⟨wp_eq, block, remain, crosses⟩ := ready
  rw [← wp_eq] at pause_place pause_le
  have moved : (writeBytes - remainBytes).toNat = writeBytes.toNat - remainBytes.toNat :=
    UInt32.toNat_sub_of_le _ _ (UInt32.le_iff_toNat_le.mpr (Nat.le_of_lt crosses))
  have point := Memory.add_mod_cases released
    (show remainBytes.toNat ≤ state.rb.capacity.toNat by omega)
  simp only [nextStatementDmaRead, place]
  refine streams.proceed rfl carries ⟨?_, Nat.zero_le _, by dsimp only; omega⟩
  rw [block, moved, Nat.add_sub_cancel' (Nat.le_of_lt crosses)]

theorem DmaRead.Streams.copyingStart
    (place : state.writer = .copyingStart buffer remainBytes copied) :
    DmaRead.Streams (nextStatementDmaRead state).1 stream taken released := by
  have carries := streams.carries
  have ready := streams.ready
  have room := streams.room
  have released_le := streams.released_le
  have taken_le := streams.taken_le
  rw [place] at carries ready
  obtain ⟨block, copied_le, around⟩ := ready
  have length_eq := congrArg List.length block
  rw [List.length_drop, Memory.length_load] at length_eq
  simp only [nextStatementDmaRead, place]
  split
  · rename_i inside
    have point := Memory.add_mod_cases (released + remainBytes.toNat)
      (show copied ≤ state.rb.capacity.toNat by omega)
    have stored := streams.copy block (Nat.add_lt_add_left inside remainBytes.toNat)
      (show _ = 0 + copied by rw [← Nat.add_assoc]; omega) (Nat.add_assoc _ _ _ ▸ carries)
    refine streams.proceed rfl ?_ ⟨block, inside, around⟩
    simpa only [memcpyByte, UInt32.toNat_zero, DmaWriter.filled, Nat.add_assoc] using stored
  · rename_i complete
    refine streams.proceed rfl ?_ (Or.inl ?_)
    · exact carries.mono (Nat.le_refl _) (by simp only [DmaWriter.filled]; omega)
    · have point := Memory.add_mod_cases (released + remainBytes.toNat)
        (show state.rb.wp.toNat ≤ state.rb.capacity.toNat by omega)
      rw [show stream.length = released + remainBytes.toNat + state.rb.wp.toNat by omega]
      omega

theorem DmaRead.Streams.testing (place : state.writer = .testing) :
    DmaRead.Streams (nextStatementDmaRead state).1 stream taken released := by
  have carries := streams.carries
  have ready := streams.ready
  rw [place] at carries ready
  simp only [nextStatementDmaRead, place]
  split
  · rename_i wraps
    have reached := UInt32.le_iff_toNat_le.mp wraps.1
    refine streams.proceed rfl carries ?_
    rcases ready with point | ⟨-, around, -⟩
    · rcases streams.large with rfl | large
      · exact Nat.zero_mod _
      · have := Nat.mod_lt stream.length (show 0 < state.rb.capacity.toNat by omega)
        omega
    · exact around
  · rename_i stays
    refine streams.proceed rfl carries ?_
    rcases ready with point | ⟨at_end, -, moved⟩
    · exact point
    · exact (stays ⟨by rw [at_end]; exact UInt32.le_refl _, moved⟩).elim

theorem DmaRead.Streams.resetting (place : state.writer = .resetting) :
    DmaRead.Streams (nextStatementDmaRead state).1 stream taken released := by
  have carries := streams.carries
  have around := streams.ready
  rw [place] at carries around
  simp only [nextStatementDmaRead, place]
  exact streams.proceed rfl carries (Eq.symm around)

theorem DmaRead.Streams.pausing (place : state.writer = .pausing) :
    DmaRead.Streams (nextStatementDmaRead state).1 stream taken stream.length := by
  obtain ⟨taken_le, released_le, room, src_place, pause_place, large, carries, ready⟩ := streams
  rw [place] at carries ready
  simp only [nextStatementDmaRead, place]
  exact ⟨Nat.le_trans taken_le released_le, Nat.le_refl _, room, src_place, ready, large, carries,
    rfl, rfl⟩

end

end Statements

theorem returnedBytes_nextStatementDmaRead (state : DmaRead) :
    returnedBytes [(nextStatementDmaRead state).2] = [] := by
  obtain ⟨rb, src, pause, writer⟩ := state
  cases writer with
  | sampled buffer writeBytes rp =>
      simp only [nextStatementDmaRead]
      cases chooseBranch rb writeBytes rp <;> rfl
  | copying buffer writeBytes copied | copyingEnd buffer writeBytes remainBytes copied
  | copyingStart buffer remainBytes copied =>
      simp only [nextStatementDmaRead]
      split <;> rfl
  | _ => rfl

theorem passedBytes_nextStatementDmaRead
    (chosen : ∀ buffer writeBytes rp, state.writer ≠ .sampled buffer writeBytes rp) :
    passedBytes [(nextStatementDmaRead state).2] = [] := by
  obtain ⟨rb, src, pause, writer⟩ := state
  cases writer with
  | sampled buffer writeBytes rp => exact (chosen buffer writeBytes rp rfl).elim
  | copying buffer writeBytes copied | copyingEnd buffer writeBytes remainBytes copied
  | copyingStart buffer remainBytes copied =>
      simp only [nextStatementDmaRead]
      split <;> rfl
  | _ => rfl

theorem DmaRead.Streams.next {state : DmaRead} {stream : List UInt8} {taken released : ℕ}
    (streams : state.Streams stream taken released) :
    ∃ released', DmaRead.Streams (nextStatementDmaRead state).1
      (stream ++ passedBytes [(nextStatementDmaRead state).2]) taken released' := by
  have silently : ∀ {released' : ℕ},
      (∀ buffer writeBytes rp, state.writer ≠ .sampled buffer writeBytes rp) →
        DmaRead.Streams (nextStatementDmaRead state).1 stream taken released' →
        DmaRead.Streams (nextStatementDmaRead state).1
          (stream ++ passedBytes [(nextStatementDmaRead state).2]) taken released' := by
    intro released' chosen after
    rw [passedBytes_nextStatementDmaRead chosen, List.append_nil]
    exact after
  cases place : state.writer with
  | sampled buffer writeBytes rp => exact ⟨released, streams.sampled place⟩
  | idle => exact ⟨released, silently (by simp [place]) (by simpa [nextStatementDmaRead, place])⟩
  | entered buffer writeBytes =>
      exact ⟨released, silently (by simp [place]) (streams.entered place)⟩
  | copying buffer writeBytes copied =>
      exact ⟨released, silently (by simp [place]) (streams.copying place)⟩
  | moving writeBytes => exact ⟨released, silently (by simp [place]) (streams.moving place)⟩
  | copyingEnd buffer writeBytes remainBytes copied =>
      exact ⟨released, silently (by simp [place]) (streams.copyingEnd place)⟩
  | movingAround buffer writeBytes remainBytes =>
      exact ⟨released, silently (by simp [place]) (streams.movingAround place)⟩
  | copyingStart buffer remainBytes copied =>
      exact ⟨released, silently (by simp [place]) (streams.copyingStart place)⟩
  | testing => exact ⟨released, silently (by simp [place]) (streams.testing place)⟩
  | resetting => exact ⟨released, silently (by simp [place]) (streams.resetting place)⟩
  | pausing => exact ⟨stream.length, silently (by simp [place]) (streams.pausing place)⟩

/-! ## Runs -/

/-- Every step keeps the stream in the ring, and what the channel has taken is its front. -/
theorem DmaRead.Streams.step {state : DmaRead} {event : DmaReadEvent} {stream : List UInt8}
    {taken released : ℕ} (streams : state.Streams stream taken released)
    (representable : event.Representable) :
    ∃ taken' released',
      (dmaRead.step state event).1.Streams (stream ++ passedBytes [(dmaRead.step state event).2])
          taken' released' ∧
        (stream ++ passedBytes [(dmaRead.step state event).2]).take taken' =
          stream.take taken ++ returnedBytes [(dmaRead.step state event).2] := by
  have unchanged : ∃ taken' released', state.Streams (stream ++ []) taken' released' ∧
      (stream ++ []).take taken' = stream.take taken ++ [] :=
    ⟨taken, released, by rwa [List.append_nil], by rw [List.append_nil, List.append_nil]⟩
  cases event with
  | call buffer size count =>
      simp only [dmaRead]
      split
      · rename_i place
        split
        · exact unchanged
        · have ready := streams.ready
          have carries := streams.carries
          rw [place] at ready carries
          refine ⟨taken, released, ?_, by simp [passedBytes, returnedBytes]⟩
          simp only [passedBytes, List.append_nil]
          exact streams.proceed rfl carries ⟨ready.1, ready.2, representable⟩
      · exact unchanged
  | next =>
      obtain ⟨released', after⟩ := streams.next
      refine ⟨taken, released', after, ?_⟩
      simp only [dmaRead, returnedBytes_nextStatementDmaRead, List.append_nil]
      exact List.take_append_of_le_length (Nat.le_trans streams.taken_le streams.released_le)
  | getFillSize | getFreeSize =>
      simp only [dmaRead]
      split
      · rename_i place
        have ready := streams.ready
        have carries := streams.carries
        rw [place] at ready carries
        refine ⟨taken, released, ?_, by simp [passedBytes, returnedBytes]⟩
        simp only [passedBytes, List.append_nil, rbGetFillSizeDmaRead, rbGetFreeSizeDmaRead]
        exact streams.proceed rfl (place ▸ carries) (place ▸ ready)
      · exact unchanged
  | dma =>
      simp only [dmaRead]
      split
      · exact unchanged
      · rename_i running
        obtain ⟨after, grown⟩ := streams.dma running
        refine ⟨taken + 1, released, ?_, ?_⟩
        · simpa only [passedBytes, List.append_nil] using after
        · simpa only [passedBytes, returnedBytes, List.append_nil] using grown

theorem capacity_dmaRead_step (state : DmaRead) (event : DmaReadEvent) :
    (dmaRead.step state event).1.rb.capacity = state.rb.capacity := by
  obtain ⟨rb, src, pause, writer⟩ := state
  cases event with
  | next =>
      cases writer with
      | sampled buffer writeBytes rp =>
          simp only [dmaRead, nextStatementDmaRead]
          cases chooseBranch rb writeBytes rp <;> rfl
      | copying buffer writeBytes copied | copyingEnd buffer writeBytes remainBytes copied
      | copyingStart buffer remainBytes copied =>
          simp only [dmaRead, nextStatementDmaRead]
          split <;> rfl
      | _ => rfl
  | call buffer size count =>
      cases writer with
      | idle =>
          simp only [dmaRead]
          split <;> rfl
      | _ => rfl
  | getFillSize | getFreeSize => cases writer <;> rfl
  | dma =>
      simp only [dmaRead]
      split <;> rfl

theorem streams_init (addr : Memory UInt8) (capacity : UInt32) :
    (rbInitDmaRead addr capacity).Streams [] 0 0 where
  taken_le := Nat.le_refl 0
  released_le := Nat.le_refl 0
  room := Nat.zero_le _
  src_place := (Nat.zero_mod _).symm
  pause_place := (Nat.zero_mod _).symm
  large := Or.inl rfl
  carries := Memory.carries_nothing _ _ _ _
  ready := ⟨rfl, rfl⟩

theorem dmaRead_streams (addr : Memory UInt8) (capacity : UInt32) {events : List DmaReadEvent}
    (representable : ∀ event ∈ events, event.Representable) :
    let state := dmaRead.run (rbInitDmaRead addr capacity) events
    let effects := dmaRead.outputs (rbInitDmaRead addr capacity) events
    state.rb.capacity = capacity ∧
      ∃ taken released, state.Streams (passedBytes effects) taken released ∧
        returnedBytes effects = (passedBytes effects).take taken := by
  refine dmaRead.history_induction (fun _ event => event.Representable)
    (fun _ effects state => state.rb.capacity = capacity ∧
      ∃ taken released, state.Streams (passedBytes effects) taken released ∧
        returnedBytes effects = (passedBytes effects).take taken) ?_ ?_
    (dmaRead.always_of_forall _ _ representable)
  · exact ⟨rfl, 0, 0, streams_init addr capacity, rfl⟩
  · rintro inputs effects state event ⟨capacity_eq, taken, released, streams, balance⟩ meets
    obtain ⟨taken', released', after, front⟩ := streams.step meets
    refine ⟨(capacity_dmaRead_step state event).trans capacity_eq, taken', released', ?_, ?_⟩
    · rw [passedBytes_append]
      exact after
    · rw [passedBytes_append, returnedBytes_append, front, balance]

/-- Between two calls the fill size is the number of bytes accepted and not yet taken, and they are
in the ring from the channel's offset on. -/
theorem DmaRead.Streams.fillSize {stream : List UInt8} {taken : ℕ}
    (streams : state.Streams stream taken released) (between : state.writer = .idle) :
    (rbGetFillSizeDmaRead state).2.toNat = stream.length - taken ∧
      state.rb.address.loadAround state.rb.capacity.toNat state.src.toNat
        (rbGetFillSizeDmaRead state).2.toNat = stream.drop taken := by
  obtain ⟨taken_le, released_le, room, src_place, pause_place, large, carries, ready⟩ := streams
  rw [between] at carries ready
  obtain ⟨wp_eq, length_eq⟩ := ready
  simp only [DmaWriter.filled, ← length_eq] at carries
  have distance : (rbGetFillSizeDmaRead state).2.toNat = stream.length - taken := by
    have points := Memory.add_mod_cases taken
      (show stream.length - taken ≤ state.rb.capacity.toNat by omega)
    rw [Nat.add_sub_cancel' (Nat.le_trans taken_le released_le), ← src_place, length_eq,
      ← pause_place, ← wp_eq] at points
    apply toNat_fillSize_of_distance
    rcases large with rfl | large
    · obtain rfl : released = 0 := length_eq.symm
      obtain rfl : taken = 0 := Nat.le_zero.mp taken_le
      rw [Nat.zero_mod] at src_place pause_place
      exact Or.inl (by rw [src_place, wp_eq, pause_place]; rfl)
    · have inside := Nat.mod_lt taken (show 0 < state.rb.capacity.toNat by omega)
      simp only
      omega
  refine ⟨distance, ?_⟩
  rw [distance, ← carries.loadAround_eq_drop (Nat.le_trans taken_le released_le)]
  exact Memory.loadAround_congr _ (by rw [src_place, Nat.mod_mod]) _

end BdkFreertos.RingBuffer
