import BdkFreertos.RingBufferDmaRead

/-!
# The ring that a DMA channel writes

`rb_read_dma_write` copies bytes out of the ring while a DMA channel stores into it.  The channel
moves one byte at a time around the ring and stops at the pause address, which is kept the safe
interval behind the read point: it is set when the ring is attached and at the end of each call.
A ring smaller than the safe interval has its first pause address outside, and the channel does not
stop there.
-/

namespace BdkFreertos.RingBuffer

/-- The statement `rb_read_dma_write` is in front of, with its local variables. -/
inductive DmaReader
  /-- Not in `rb_read_dma_write`. -/
  | idle
  /-- `wp = sddev_control(.., CMD_GDMA_GET_DST_WRITE_ADDR, ..)` and `rb->wp = wp`. -/
  | entered (buffer : Memory UInt8) (requiredBytes : UInt32)
  /-- The choice of the branch. -/
  | sampled (buffer : Memory UInt8) (requiredBytes wp : UInt32)
  /-- `RB_DMA_WR_MEMCPY` of one run, with so many bytes copied. -/
  | copying (buffer : Memory UInt8) (readBytes : UInt32) (copied : ℕ)
  /-- `rb->rp += read_bytes`. -/
  | moving (buffer : Memory UInt8) (readBytes : UInt32)
  /-- `RB_DMA_WR_MEMCPY` up to the end of the ring. -/
  | copyingEnd (buffer : Memory UInt8) (remainBytes backBytes : UInt32) (copied : ℕ)
  /-- `RB_DMA_WR_MEMCPY` from the start of the ring. -/
  | copyingStart (buffer : Memory UInt8) (remainBytes backBytes : UInt32) (copied : ℕ)
  /-- `rb->rp = wp`, or `rb->rp = required_bytes - read_bytes`. -/
  | movingAround (buffer : Memory UInt8) (remainBytes backBytes : UInt32)
  /-- `sddev_control(.., CMD_GDMA_SET_DST_PAUSE_ADDR, ..)`. -/
  | pausing (buffer : Memory UInt8) (readBytes : UInt32)

/-- The record `RB_DMA_WR_ST`, the registers of its channel as offsets in the ring, and the place in
`rb_read_dma_write`. -/
structure DmaWrite where
  /-- The ring; its write point is the one last sampled. -/
  rb : RbSt
  /-- The channel's destination write address. -/
  dst : UInt32
  /-- The channel's destination pause address. -/
  pause : UInt32
  /-- The place in `rb_read_dma_write`. -/
  reader : DmaReader

/-- Attach an empty ring and a channel at its start, to stop the safe interval before its end. -/
def rbInitDmaWrite (addr : Memory UInt8) (capacity : UInt32) : DmaWrite where
  rb := rbInit addr capacity
  dst := 0
  pause := capacity - rwpSafeInterval
  reader := .idle

/-- Unread bytes, with the channel's position sampled. -/
def rbGetFillSizeDmaWrite (state : DmaWrite) : DmaWrite × UInt32 :=
  let rb := { state.rb with wp := state.dst }
  ({ state with rb := rb }, rbGetFillSize rb)

/-- Bytes that may still be stored, with the channel's position sampled. -/
def rbGetFreeSizeDmaWrite (state : DmaWrite) : DmaWrite × UInt32 :=
  let rb := { state.rb with wp := state.dst }
  ({ state with rb := rb }, rbGetFreeSize rb)

/-- The branches of `rb_read_dma_write`. -/
inductive ReadBranch
  | straight (readBytes : UInt32)
  /-- The bytes are copied up to the end of the ring and from its start. -/
  | around (remainBytes backBytes : UInt32)

/-- The choice of the branch in `rb_read_dma_write`, with the write point as it was seen. -/
def chooseReadBranch (rb : RbSt) (requiredBytes wp : UInt32) : ReadBranch :=
  if wp ≥ rb.rp then
    if requiredBytes > wp - rb.rp then .straight (wp - rb.rp) else .straight requiredBytes
  else if requiredBytes > rb.capacity - rb.rp then
    if requiredBytes - (rb.capacity - rb.rp) > wp then .around (rb.capacity - rb.rp) wp
    else .around (rb.capacity - rb.rp) (requiredBytes - (rb.capacity - rb.rp))
  else .straight requiredBytes

/-- The pause address for a read point. -/
def pauseBehind (rb : RbSt) : UInt32 :=
  if rb.rp ≥ rwpSafeInterval then rb.rp - rwpSafeInterval
  else rb.capacity + rb.rp - rwpSafeInterval

/-- What happens next. -/
inductive DmaWriteEvent
  /-- The program calls `rb_read_dma_write`. -/
  | call (buffer : Memory UInt8) (size count : UInt32)
  /-- The program executes its next statement, or the next byte of a copy. -/
  | next
  | getFillSize
  | getFreeSize
  /-- The channel stores a byte, if it is not at the pause address. -/
  | dma (byte : UInt8)

/-- The next statement of `rb_read_dma_write`. -/
def nextStatementDmaWrite (state : DmaWrite) : DmaWrite × Effect :=
  let rb := state.rb
  match state.reader with
  | .idle => (state, .silent)
  | .entered buffer requiredBytes =>
      ({ state with
         rb := { rb with wp := state.dst }
         reader := .sampled buffer requiredBytes state.dst }, .silent)
  | .sampled buffer requiredBytes wp =>
      match chooseReadBranch rb requiredBytes wp with
      | .straight readBytes => ({ state with reader := .copying buffer readBytes 0 }, .silent)
      | .around remainBytes backBytes =>
          ({ state with reader := .copyingEnd buffer remainBytes backBytes 0 }, .silent)
  | .copying buffer readBytes copied =>
      if copied < readBytes.toNat then
        ({ state with
           reader := .copying (memcpyByte buffer 0 rb.address rb.rp copied) readBytes
             (copied + 1) }, .silent)
      else ({ state with reader := .moving buffer readBytes }, .silent)
  | .moving buffer readBytes =>
      ({ state with
         rb := { rb with rp := rb.rp + readBytes }
         reader := .pausing buffer readBytes }, .silent)
  | .copyingEnd buffer remainBytes backBytes copied =>
      if copied < remainBytes.toNat then
        ({ state with
           reader := .copyingEnd (memcpyByte buffer 0 rb.address rb.rp copied) remainBytes
             backBytes (copied + 1) }, .silent)
      else ({ state with reader := .copyingStart buffer remainBytes backBytes 0 }, .silent)
  | .copyingStart buffer remainBytes backBytes copied =>
      if copied < backBytes.toNat then
        ({ state with
           reader := .copyingStart (memcpyByte buffer remainBytes rb.address 0 copied) remainBytes
             backBytes (copied + 1) }, .silent)
      else ({ state with reader := .movingAround buffer remainBytes backBytes }, .silent)
  | .movingAround buffer remainBytes backBytes =>
      ({ state with
         rb := { rb with rp := backBytes }
         reader := .pausing buffer (remainBytes + backBytes) }, .silent)
  | .pausing buffer readBytes =>
      ({ state with pause := pauseBehind rb, reader := .idle },
        .returned (buffer.load 0 readBytes.toNat))

/-- The program and the channel. -/
def dmaWrite : Machine DmaWrite DmaWriteEvent Effect where
  step state
    | .call buffer size count =>
        match state.reader with
        | .idle =>
            if size * count = 0 then (state, .silent)
            else ({ state with reader := .entered buffer (size * count) }, .silent)
        | _ => (state, .silent)
    | .next => nextStatementDmaWrite state
    | .getFillSize =>
        match state.reader with
        | .idle => ((rbGetFillSizeDmaWrite state).1, .silent)
        | _ => (state, .silent)
    | .getFreeSize =>
        match state.reader with
        | .idle => ((rbGetFreeSizeDmaWrite state).1, .silent)
        | _ => (state, .silent)
    | .dma byte =>
        if state.dst = state.pause then (state, .silent)
        else
          ({ state with
             rb := { state.rb with address := state.rb.address.store state.dst.toNat [byte] }
             dst := advance state.rb.capacity state.dst }, .accepted [byte])

/-! ## The read point -/

/-- The read point stands at a position of the stream; it may sit at the end of the ring. -/
def RpAt (rb : RbSt) (position : ℕ) : Prop :=
  rb.rp.toNat ≤ rb.capacity.toNat ∧
    rb.rp.toNat % rb.capacity.toNat = position % rb.capacity.toNat

namespace RpAt

variable {rb : RbSt} {position : ℕ}

theorem add_mod (at_position : RpAt rb position) (offset : ℕ) :
    (position + offset) % rb.capacity.toNat = (rb.rp.toNat + offset) % rb.capacity.toNat := by
  rw [Nat.add_mod, ← at_position.2, ← Nat.add_mod]

theorem distance (at_position : RpAt rb position) {fill wp : ℕ}
    (bounded : fill < rb.capacity.toNat)
    (place : wp = (position + fill) % rb.capacity.toNat) :
    rb.rp.toNat + fill = wp ∧ wp < rb.capacity.toNat ∨
      wp < rb.rp.toNat ∧ rb.rp.toNat + fill = rb.capacity.toNat + wp := by
  have rp_le := at_position.1
  rw [at_position.add_mod] at place
  rcases Nat.lt_or_ge (rb.rp.toNat + fill) rb.capacity.toNat with before | around
  · rw [Nat.mod_eq_of_lt before] at place
    omega
  · rw [Nat.mod_eq_sub_mod around, Nat.mod_eq_of_lt (by omega)] at place
    omega

theorem toNat_pauseBehind (at_position : RpAt rb position) (large : 4 ≤ rb.capacity.toNat) :
    (pauseBehind rb).toNat =
      (position + (rb.capacity.toNat - 4)) % rb.capacity.toNat := by
  have rp_le := at_position.1
  have bound := rb.capacity.toNat_lt
  have interval : rwpSafeInterval.toNat = 4 := rfl
  rw [at_position.add_mod, pauseBehind]
  split
  · rename_i far
    have distant := UInt32.le_iff_toNat_le.mp far
    rw [UInt32.toNat_sub_of_le _ _ far,
      show rb.rp.toNat + (rb.capacity.toNat - 4) = rb.capacity.toNat + (rb.rp.toNat - 4) by omega,
      Nat.add_mod_left, Nat.mod_eq_of_lt (by omega), interval]
  · rename_i close
    have near := UInt32.lt_iff_toNat_lt.mp (UInt32.not_le.mp close)
    have before : rb.rp.toNat + (rb.capacity.toNat - 4) < rb.capacity.toNat := by omega
    rw [Nat.mod_eq_of_lt before, UInt32.toNat_sub, UInt32.toNat_add, interval]
    omega

end RpAt

/-- What a branch copies is in the ring up to a position. -/
def ReadBranch.Available (rb : RbSt) (returned seen : ℕ) : ReadBranch → Prop
  | .straight readBytes =>
      returned + readBytes.toNat ≤ seen ∧ rb.rp.toNat + readBytes.toNat ≤ rb.capacity.toNat
  | .around remainBytes backBytes =>
      returned + remainBytes.toNat + backBytes.toNat ≤ seen ∧
        rb.rp.toNat + remainBytes.toNat = rb.capacity.toNat

theorem chooseReadBranch_available {rb : RbSt} {requiredBytes wp : UInt32} {returned seen : ℕ}
    (at_returned : RpAt rb returned) (place : wp.toNat = seen % rb.capacity.toNat)
    (returned_le : returned ≤ seen) (bounded : seen < returned + rb.capacity.toNat) :
    (chooseReadBranch rb requiredBytes wp).Available rb returned seen := by
  obtain ⟨fill, rfl⟩ := Nat.exists_eq_add_of_le returned_le
  have apart := at_returned.distance (by omega) place
  have rp_le := at_returned.1
  rw [chooseReadBranch]
  split
  · rename_i point
    have ordered := UInt32.le_iff_toNat_le.mp point
    have remain := UInt32.toNat_sub_of_le _ _ point
    split
    · simp only [ReadBranch.Available, remain]
      omega
    · rename_i enough
      have fits := UInt32.le_iff_toNat_le.mp (UInt32.not_lt.mp enough)
      rw [remain] at fits
      simp only [ReadBranch.Available]
      omega
  · rename_i point
    have behind := UInt32.lt_iff_toNat_lt.mp (UInt32.not_le.mp point)
    have remain : (rb.capacity - rb.rp).toNat = rb.capacity.toNat - rb.rp.toNat :=
      UInt32.toNat_sub_of_le _ _ (UInt32.le_iff_toNat_le.mpr rp_le)
    split
    · rename_i crosses
      have beyond := UInt32.lt_iff_toNat_lt.mp crosses
      have back : (requiredBytes - (rb.capacity - rb.rp)).toNat =
          requiredBytes.toNat - (rb.capacity - rb.rp).toNat :=
        UInt32.toNat_sub_of_le _ _ (UInt32.le_iff_toNat_le.mpr (Nat.le_of_lt beyond))
      split
      · simp only [ReadBranch.Available, remain]
        omega
      · rename_i enough
        have fits := UInt32.le_iff_toNat_le.mp (UInt32.not_lt.mp enough)
        rw [back] at fits
        simp only [ReadBranch.Available, back, remain] at fits ⊢
        omega
    · rename_i enough
      have fits := UInt32.le_iff_toNat_le.mp (UInt32.not_lt.mp enough)
      rw [remain] at fits
      simp only [ReadBranch.Available]
      omega

/-! ## The stream through the ring -/

def Delivered (buffer : Memory UInt8) (stream : List UInt8) (returned count : ℕ) : Prop :=
  ∀ index < count, stream[returned + index]? = some (buffer index)

namespace Delivered

variable {buffer : Memory UInt8} {stream : List UInt8} {returned count : ℕ}

section

variable (delivered : Delivered buffer stream returned count)
include delivered

theorem append (more : List UInt8) : Delivered buffer (stream ++ more) returned count := by
  intro index inside
  have held := delivered index inside
  rw [List.getElem?_append_left (List.getElem?_eq_some_iff.mp held).1, held]

theorem put {byte : UInt8} (next : stream[returned + count]? = some byte) :
    Delivered (buffer.store count [byte]) stream returned (count + 1) := by
  intro index inside
  rcases Nat.lt_or_ge index count with earlier | latest
  · rw [delivered index earlier, Memory.store_apply_of_lt _ _ earlier]
  · obtain rfl : index = count := by omega
    have stored := buffer.store_apply_add index 0 [byte]
    rw [Nat.add_zero] at stored
    rw [next, stored]
    rfl

theorem take_add :
    stream.take (returned + count) = stream.take returned ++ buffer.load 0 count := by
  rw [List.take_add]
  congr 1
  apply List.ext_getElem?
  intro index
  rw [Memory.getElem?_load, List.getElem?_take, List.getElem?_drop, Nat.zero_add]
  split
  · rename_i inside
    exact delivered index inside
  · rfl

end

end Delivered

/-- What holds in front of each statement of `rb_read_dma_write`. -/
def DmaReader.Ready (reader : DmaReader) (rb : RbSt) (stream : List UInt8) (returned : ℕ) : Prop :=
  match reader with
  | .idle => RpAt rb returned
  | .entered _ _ => RpAt rb returned
  | .sampled _ _ wp =>
      RpAt rb returned ∧
        ∃ seen, returned ≤ seen ∧ seen ≤ stream.length ∧ wp.toNat = seen % rb.capacity.toNat
  | .copying buffer readBytes copied =>
      RpAt rb returned ∧ (ReadBranch.straight readBytes).Available rb returned stream.length ∧
        copied ≤ readBytes.toNat ∧ Delivered buffer stream returned copied
  | .moving buffer readBytes =>
      RpAt rb returned ∧ (ReadBranch.straight readBytes).Available rb returned stream.length ∧
        Delivered buffer stream returned readBytes.toNat
  | .copyingEnd buffer remainBytes backBytes copied =>
      RpAt rb returned ∧
        (ReadBranch.around remainBytes backBytes).Available rb returned stream.length ∧
        copied ≤ remainBytes.toNat ∧ Delivered buffer stream returned copied
  | .copyingStart buffer remainBytes backBytes copied =>
      RpAt rb returned ∧
        (ReadBranch.around remainBytes backBytes).Available rb returned stream.length ∧
        copied ≤ backBytes.toNat ∧ Delivered buffer stream returned (remainBytes.toNat + copied)
  | .movingAround buffer remainBytes backBytes =>
      RpAt rb returned ∧
        (ReadBranch.around remainBytes backBytes).Available rb returned stream.length ∧
        Delivered buffer stream returned (remainBytes.toNat + backBytes.toNat)
  | .pausing buffer readBytes =>
      RpAt rb (returned + readBytes.toNat) ∧ returned + readBytes.toNat ≤ stream.length ∧
        Delivered buffer stream returned readBytes.toNat

/-- The stream of stored bytes passes through the ring: the program has returned it up to one
position, the channel is to stop at another, and what lies between is in the ring with the safe
interval free. -/
structure DmaWrite.Streams (state : DmaWrite) (stream : List UInt8) (returned limit : ℕ) :
    Prop where
  large : 4 ≤ state.rb.capacity.toNat
  returned_le : returned ≤ stream.length
  length_le : stream.length ≤ limit
  room : limit ≤ returned + (state.rb.capacity.toNat - 4)
  dst_place : state.dst.toNat = stream.length % state.rb.capacity.toNat
  pause_place : state.pause.toNat = limit % state.rb.capacity.toNat
  carries : state.rb.address.Carries state.rb.capacity.toNat stream returned stream.length
  ready : state.reader.Ready state.rb stream returned

variable {rb : RbSt} {state : DmaWrite} {limit : ℕ} {capacity : UInt32} (addr : Memory UInt8)

theorem ReadBranch.Available.mono {returned seen later : ℕ} {branch : ReadBranch}
    (available : branch.Available rb returned seen) (ordered : seen ≤ later) :
    branch.Available rb returned later := by
  cases branch with
  | straight readBytes | around remainBytes backBytes =>
      exact ⟨Nat.le_trans available.1 ordered, available.2⟩

theorem DmaWrite.Streams.dma {stream : List UInt8} {returned : ℕ}
    (streams : state.Streams stream returned limit) (running : state.dst ≠ state.pause)
    (byte : UInt8) :
    DmaWrite.Streams
      { state with
        rb := { state.rb with address := state.rb.address.store state.dst.toNat [byte] }
        dst := advance state.rb.capacity state.dst } (stream ++ [byte]) returned limit := by
  obtain ⟨large, returned_le, length_le, room, dst_place, pause_place, carries, ready⟩ := streams
  have behind : stream.length < limit := by
    refine Nat.lt_of_le_of_ne length_le ?_
    rintro rfl
    exact running (UInt32.toNat_inj.mp (dst_place.trans pause_place.symm))
  have grown : (stream ++ [byte]).length = stream.length + 1 := by simp
  have longer : stream.length ≤ (stream ++ [byte]).length := by omega
  refine ⟨large, by omega, by omega, room, ?_, pause_place, ?_, ?_⟩
  · rw [grown]
    exact toNat_advance (by omega) dst_place
  · rw [grown, dst_place]
    exact (carries.append [byte]).put List.getElem?_concat_length (by omega)
  · revert ready
    cases state.reader <;> simp only [DmaReader.Ready]
    case idle => exact id
    case entered => exact id
    case sampled =>
      rintro ⟨at_returned, seen, returned_le, seen_le, place⟩
      exact ⟨at_returned, seen, returned_le, Nat.le_trans seen_le longer, place⟩
    case copying | copyingEnd | copyingStart =>
      rintro ⟨at_returned, available, copied_le, delivered⟩
      exact ⟨at_returned, available.mono longer, copied_le, delivered.append _⟩
    case moving | movingAround =>
      rintro ⟨at_returned, available, delivered⟩
      exact ⟨at_returned, available.mono longer, delivered.append _⟩
    case pausing =>
      rintro ⟨at_returned, available, delivered⟩
      exact ⟨at_returned, Nat.le_trans available longer, delivered.append _⟩

/-! ## One statement -/

section Statements

variable {state : DmaWrite} {stream : List UInt8} {returned limit : ℕ}

theorem DmaWrite.Streams.proceed (streams : state.Streams stream returned limit) {rb : RbSt}
    {reader : DmaReader} (address_eq : rb.address = state.rb.address)
    (capacity_eq : rb.capacity = state.rb.capacity) (ready : reader.Ready rb stream returned) :
    DmaWrite.Streams { state with rb := rb, reader := reader } stream returned limit := by
  obtain ⟨large, returned_le, length_le, room, dst_place, pause_place, carries, -⟩ := streams
  rw [← capacity_eq] at large room dst_place pause_place carries
  rw [← address_eq] at carries
  exact ⟨large, returned_le, length_le, room, dst_place, pause_place, carries, ready⟩

variable {buffer : Memory UInt8} {copied : ℕ}
  {requiredBytes readBytes remainBytes backBytes : UInt32}

section

variable (streams : state.Streams stream returned limit)
include streams

theorem DmaWrite.Streams.copy {count place : ℕ} (delivered : Delivered buffer stream returned count)
    (inside : returned + count < stream.length)
    (placed : (returned + count) % state.rb.capacity.toNat = place) :
    Delivered (buffer.store count [state.rb.address place]) stream returned (count + 1) := by
  rw [← placed]
  exact delivered.put (streams.carries (returned + count) (Nat.le_add_right _ _) inside)

/-- What lies between the program's place and the end of the ring is copied in order. -/
theorem DmaWrite.Streams.copyEnd (at_returned : RpAt state.rb returned)
    (delivered : Delivered buffer stream returned copied)
    (inside : returned + copied < stream.length)
    (within : state.rb.rp.toNat + copied < state.rb.capacity.toNat) :
    Delivered (memcpyByte buffer 0 state.rb.address state.rb.rp copied) stream returned
      (copied + 1) := by
  have placed : (returned + copied) % state.rb.capacity.toNat = state.rb.rp.toNat + copied := by
    rw [at_returned.add_mod, Nat.mod_eq_of_lt within]
  have stored := streams.copy delivered inside placed
  simpa only [memcpyByte, UInt32.toNat_zero, Nat.zero_add] using stored

theorem DmaWrite.Streams.entered (place : state.reader = .entered buffer requiredBytes) :
    DmaWrite.Streams (nextStatementDmaWrite state).1 stream returned limit := by
  have ready := streams.ready
  rw [place] at ready
  simp only [nextStatementDmaWrite, place]
  exact streams.proceed rfl rfl
    ⟨ready, stream.length, streams.returned_le, Nat.le_refl _, streams.dst_place⟩

theorem DmaWrite.Streams.sampled {wp : UInt32}
    (place : state.reader = .sampled buffer requiredBytes wp) :
    DmaWrite.Streams (nextStatementDmaWrite state).1 stream returned limit := by
  have ready := streams.ready
  have large := streams.large
  have length_le := streams.length_le
  have room := streams.room
  rw [place] at ready
  obtain ⟨at_returned, seen, returned_le, seen_le, wp_place⟩ := ready
  have available := (@chooseReadBranch_available _ requiredBytes _ _ _ at_returned wp_place
    returned_le (by omega)).mono seen_le
  have nothing : Delivered buffer stream returned 0 := by
    intro index inside
    omega
  simp only [nextStatementDmaWrite, place]
  cases branch : chooseReadBranch state.rb requiredBytes wp with
  | straight readBytes | around remainBytes backBytes =>
      rw [branch] at available
      exact streams.proceed rfl rfl ⟨at_returned, available, Nat.zero_le _, nothing⟩

theorem DmaWrite.Streams.copying (place : state.reader = .copying buffer readBytes copied) :
    DmaWrite.Streams (nextStatementDmaWrite state).1 stream returned limit := by
  have ready := streams.ready
  rw [place] at ready
  obtain ⟨at_returned, ⟨available, reaches⟩, copied_le, delivered⟩ := ready
  simp only [nextStatementDmaWrite, place]
  split
  · rename_i inside
    refine streams.proceed rfl rfl ⟨at_returned, ⟨available, reaches⟩, inside, ?_⟩
    exact streams.copyEnd at_returned delivered (by omega) (by omega)
  · rename_i complete
    obtain rfl : copied = readBytes.toNat := by omega
    exact streams.proceed rfl rfl ⟨at_returned, ⟨available, reaches⟩, delivered⟩

theorem DmaWrite.Streams.moving (place : state.reader = .moving buffer readBytes) :
    DmaWrite.Streams (nextStatementDmaWrite state).1 stream returned limit := by
  have ready := streams.ready
  rw [place] at ready
  obtain ⟨at_returned, ⟨available, reaches⟩, delivered⟩ := ready
  have bound := state.rb.capacity.toNat_lt
  have moved : (state.rb.rp + readBytes).toNat = state.rb.rp.toNat + readBytes.toNat :=
    toNat_add_of_lt (by omega)
  simp only [nextStatementDmaWrite, place]
  refine streams.proceed rfl rfl ⟨⟨?_, ?_⟩, available, delivered⟩
  · simp only [moved]
    exact reaches
  · simp only [moved]
    exact (at_returned.add_mod _).symm

theorem DmaWrite.Streams.copyingEnd
    (place : state.reader = .copyingEnd buffer remainBytes backBytes copied) :
    DmaWrite.Streams (nextStatementDmaWrite state).1 stream returned limit := by
  have ready := streams.ready
  rw [place] at ready
  obtain ⟨at_returned, ⟨available, reaches⟩, copied_le, delivered⟩ := ready
  simp only [nextStatementDmaWrite, place]
  split
  · rename_i inside
    refine streams.proceed rfl rfl ⟨at_returned, ⟨available, reaches⟩, inside, ?_⟩
    exact streams.copyEnd at_returned delivered (by omega) (by omega)
  · rename_i complete
    obtain rfl : copied = remainBytes.toNat := by omega
    exact streams.proceed rfl rfl
      ⟨at_returned, ⟨available, reaches⟩, Nat.zero_le _, delivered⟩

theorem DmaWrite.Streams.copyingStart
    (place : state.reader = .copyingStart buffer remainBytes backBytes copied) :
    DmaWrite.Streams (nextStatementDmaWrite state).1 stream returned limit := by
  have ready := streams.ready
  have large := streams.large
  have length_le := streams.length_le
  have room := streams.room
  rw [place] at ready
  obtain ⟨at_returned, ⟨available, reaches⟩, copied_le, delivered⟩ := ready
  simp only [nextStatementDmaWrite, place]
  split
  · rename_i inside
    have placed : (returned + (remainBytes.toNat + copied)) % state.rb.capacity.toNat =
        copied := by
      rw [at_returned.add_mod, ← Nat.add_assoc, reaches, Nat.add_mod_left,
        Nat.mod_eq_of_lt (by omega)]
    have stored := streams.copy delivered (by omega) placed
    refine streams.proceed rfl rfl ⟨at_returned, ⟨available, reaches⟩, inside, ?_⟩
    simpa only [memcpyByte, UInt32.toNat_zero, Nat.zero_add, Nat.add_assoc] using stored
  · rename_i complete
    obtain rfl : copied = backBytes.toNat := by omega
    exact streams.proceed rfl rfl ⟨at_returned, ⟨available, reaches⟩, delivered⟩

theorem DmaWrite.Streams.movingAround
    (place : state.reader = .movingAround buffer remainBytes backBytes) :
    DmaWrite.Streams (nextStatementDmaWrite state).1 stream returned limit := by
  have ready := streams.ready
  have large := streams.large
  have length_le := streams.length_le
  have room := streams.room
  rw [place] at ready
  obtain ⟨at_returned, ⟨available, reaches⟩, delivered⟩ := ready
  have bound := state.rb.capacity.toNat_lt
  have total : (remainBytes + backBytes).toNat = remainBytes.toNat + backBytes.toNat :=
    toNat_add_of_lt (by omega)
  simp only [nextStatementDmaWrite, place]
  refine streams.proceed rfl rfl ⟨⟨?_, ?_⟩, ?_, ?_⟩
  · simp only
    omega
  · rw [total, at_returned.add_mod, ← Nat.add_assoc, reaches, Nat.add_mod_left]
  · omega
  · rw [total]
    exact delivered

/-- The pause address is what lets the channel store over the bytes that are returned. -/
theorem DmaWrite.Streams.pausing (place : state.reader = .pausing buffer readBytes) :
    DmaWrite.Streams (nextStatementDmaWrite state).1 stream (returned + readBytes.toNat)
        (returned + readBytes.toNat + (state.rb.capacity.toNat - 4)) ∧
      stream.take (returned + readBytes.toNat) =
        stream.take returned ++ returnedBytes [(nextStatementDmaWrite state).2] := by
  obtain ⟨large, returned_le, length_le, room, dst_place, pause_place, carries, ready⟩ := streams
  rw [place] at ready
  obtain ⟨at_position, available, delivered⟩ := ready
  simp only [nextStatementDmaWrite, place, returnedBytes, List.append_nil]
  refine ⟨⟨large, available, by omega, Nat.le_refl _, dst_place, ?_, ?_, at_position⟩,
    delivered.take_add⟩
  · exact at_position.toNat_pauseBehind large
  · exact carries.mono (Nat.le_add_right _ _) (Nat.le_refl _)

end

end Statements

theorem snd_nextStatementDmaWrite (state : DmaWrite) :
    (nextStatementDmaWrite state).2 = .silent ∨
      ∃ buffer readBytes, state.reader = .pausing buffer readBytes ∧
        (nextStatementDmaWrite state).2 = .returned (buffer.load 0 readBytes.toNat) := by
  obtain ⟨rb, dst, pause, reader⟩ := state
  cases reader with
  | pausing buffer readBytes => exact .inr ⟨buffer, readBytes, rfl, rfl⟩
  | sampled buffer requiredBytes wp =>
      simp only [nextStatementDmaWrite]
      cases chooseReadBranch rb requiredBytes wp <;> exact .inl rfl
  | copying buffer readBytes copied | copyingEnd buffer remainBytes backBytes copied
  | copyingStart buffer remainBytes backBytes copied =>
      simp only [nextStatementDmaWrite]
      split <;> exact .inl rfl
  | _ => exact .inl rfl

theorem returnedBytes_nextStatementDmaWrite
    (earlier : ∀ buffer readBytes, state.reader ≠ .pausing buffer readBytes) :
    returnedBytes [(nextStatementDmaWrite state).2] = [] := by
  rcases snd_nextStatementDmaWrite state with silent | ⟨buffer, readBytes, last, -⟩
  · rw [silent]
    rfl
  · exact absurd last (earlier buffer readBytes)

theorem passedBytes_nextStatementDmaWrite (state : DmaWrite) :
    passedBytes [(nextStatementDmaWrite state).2] = [] := by
  rcases snd_nextStatementDmaWrite state with silent | ⟨buffer, readBytes, -, returned⟩
  · rw [silent]
    rfl
  · rw [returned]
    rfl

/-- A statement of `rb_read_dma_write` keeps the stream in the ring, and what has been returned is
its front. -/
theorem DmaWrite.Streams.next {state : DmaWrite} {stream : List UInt8} {returned limit : ℕ}
    (streams : state.Streams stream returned limit) :
    ∃ returned' limit',
      DmaWrite.Streams (nextStatementDmaWrite state).1 stream returned' limit' ∧
        stream.take returned' =
          stream.take returned ++ returnedBytes [(nextStatementDmaWrite state).2] := by
  have silently : (∀ buffer readBytes, state.reader ≠ .pausing buffer readBytes) →
      DmaWrite.Streams (nextStatementDmaWrite state).1 stream returned limit →
        ∃ returned' limit',
          DmaWrite.Streams (nextStatementDmaWrite state).1 stream returned' limit' ∧
            stream.take returned' =
              stream.take returned ++ returnedBytes [(nextStatementDmaWrite state).2] := by
    intro earlier after
    refine ⟨returned, limit, after, ?_⟩
    rw [returnedBytes_nextStatementDmaWrite earlier, List.append_nil]
  cases place : state.reader with
  | idle => exact silently (by simp [place]) (by simpa [nextStatementDmaWrite, place])
  | entered buffer requiredBytes => exact silently (by simp [place]) (streams.entered place)
  | sampled buffer requiredBytes wp => exact silently (by simp [place]) (streams.sampled place)
  | copying buffer readBytes copied => exact silently (by simp [place]) (streams.copying place)
  | moving buffer readBytes => exact silently (by simp [place]) (streams.moving place)
  | copyingEnd buffer remainBytes backBytes copied =>
      exact silently (by simp [place]) (streams.copyingEnd place)
  | copyingStart buffer remainBytes backBytes copied =>
      exact silently (by simp [place]) (streams.copyingStart place)
  | movingAround buffer remainBytes backBytes =>
      exact silently (by simp [place]) (streams.movingAround place)
  | pausing buffer readBytes => exact ⟨_, _, streams.pausing place⟩

/-! ## Runs -/

/-- Every step keeps the stream in the ring, and what has been returned is its front. -/
theorem DmaWrite.Streams.step {state : DmaWrite} {event : DmaWriteEvent} {stream : List UInt8}
    {returned limit : ℕ} (streams : state.Streams stream returned limit) :
    ∃ returned' limit',
      (dmaWrite.step state event).1.Streams
          (stream ++ passedBytes [(dmaWrite.step state event).2]) returned' limit' ∧
        (stream ++ passedBytes [(dmaWrite.step state event).2]).take returned' =
          stream.take returned ++ returnedBytes [(dmaWrite.step state event).2] := by
  have silently : ∀ {after : DmaWrite}, after.Streams stream returned limit →
      ∃ returned' limit', after.Streams (stream ++ []) returned' limit' ∧
        (stream ++ []).take returned' = stream.take returned ++ [] := by
    intro after kept
    exact ⟨returned, limit, by rwa [List.append_nil], by rw [List.append_nil, List.append_nil]⟩
  cases event with
  | call buffer size count =>
      simp only [dmaWrite]
      split
      · rename_i place
        split
        · exact silently streams
        · have ready := streams.ready
          rw [place] at ready
          exact silently (streams.proceed rfl rfl ready)
      · exact silently streams
  | next =>
      obtain ⟨returned', limit', after, front⟩ := streams.next
      refine ⟨returned', limit', ?_, ?_⟩
      · simpa only [dmaWrite, passedBytes_nextStatementDmaWrite, List.append_nil] using after
      · simpa only [dmaWrite, passedBytes_nextStatementDmaWrite, List.append_nil] using front
  | getFillSize | getFreeSize =>
      simp only [dmaWrite]
      split
      · rename_i place
        have ready := streams.ready
        rw [place] at ready
        exact silently (streams.proceed rfl rfl (place ▸ ready))
      · exact silently streams
  | dma byte =>
      simp only [dmaWrite]
      split
      · exact silently streams
      · rename_i running
        refine ⟨returned, limit, streams.dma running byte, ?_⟩
        simp only [passedBytes, returnedBytes, List.append_nil]
        exact List.take_append_of_le_length streams.returned_le

theorem capacity_dmaWrite_step (state : DmaWrite) (event : DmaWriteEvent) :
    (dmaWrite.step state event).1.rb.capacity = state.rb.capacity := by
  obtain ⟨rb, dst, pause, reader⟩ := state
  cases event with
  | next =>
      cases reader with
      | sampled buffer requiredBytes wp =>
          simp only [dmaWrite, nextStatementDmaWrite]
          cases chooseReadBranch rb requiredBytes wp <;> rfl
      | copying buffer readBytes copied | copyingEnd buffer remainBytes backBytes copied
      | copyingStart buffer remainBytes backBytes copied =>
          simp only [dmaWrite, nextStatementDmaWrite]
          split <;> rfl
      | _ => rfl
  | call buffer size count =>
      cases reader with
      | idle =>
          simp only [dmaWrite]
          split <;> rfl
      | _ => rfl
  | getFillSize | getFreeSize => cases reader <;> rfl
  | dma byte =>
      simp only [dmaWrite]
      split <;> rfl

theorem streams_init_dmaWrite (large : 4 ≤ capacity.toNat) :
    (rbInitDmaWrite addr capacity).Streams [] 0 (capacity.toNat - 4) where
  large := large
  returned_le := Nat.le_refl 0
  length_le := Nat.zero_le _
  room := Nat.le_of_eq (Nat.zero_add _).symm
  dst_place := (Nat.zero_mod _).symm
  pause_place := by
    have ordered : rwpSafeInterval ≤ capacity := UInt32.le_iff_toNat_le.mpr large
    simp only [rbInitDmaWrite, rbInit]
    rw [UInt32.toNat_sub_of_le _ _ ordered]
    exact (Nat.mod_eq_of_lt (show capacity.toNat - 4 < capacity.toNat by omega)).symm
  carries := Memory.carries_nothing _ _ _ _
  ready := ⟨Nat.zero_le _, rfl⟩

/-- Along every run on a ring no smaller than the safe interval the bytes stored pass through the
ring. -/
theorem dmaWrite_streams (addr : Memory UInt8) (large : 4 ≤ capacity.toNat)
    (events : List DmaWriteEvent) : let state := dmaWrite.run (rbInitDmaWrite addr capacity) events
    let effects := dmaWrite.outputs (rbInitDmaWrite addr capacity) events
    state.rb.capacity = capacity ∧
      ∃ returned limit, state.Streams (passedBytes effects) returned limit ∧
        returnedBytes effects = (passedBytes effects).take returned := by
  refine dmaWrite.history_induction (fun _ _ => True)
    (fun _ effects state => state.rb.capacity = capacity ∧
      ∃ returned limit, state.Streams (passedBytes effects) returned limit ∧
        returnedBytes effects = (passedBytes effects).take returned) ?_ ?_
    (dmaWrite.always_of_forall (fun _ => True) _ fun _ _ => trivial)
  · exact ⟨rfl, 0, capacity.toNat - 4, streams_init_dmaWrite addr large, rfl⟩
  · rintro inputs effects state event ⟨capacity_eq, returned, limit, streams, balance⟩ -
    obtain ⟨returned', limit', after, front⟩ := @streams.step _ event
    refine ⟨(capacity_dmaWrite_step state event).trans capacity_eq, returned', limit', ?_, ?_⟩
    · rw [passedBytes_append]
      exact after
    · rw [passedBytes_append, returnedBytes_append, front, balance]

/-- Between two calls the fill size is the number of bytes stored and not yet returned, and they are
in the ring from the read point on. -/
theorem DmaWrite.Streams.fillSize {stream : List UInt8} {returned : ℕ}
    (streams : state.Streams stream returned limit) (between : state.reader = .idle) :
    (rbGetFillSizeDmaWrite state).2.toNat = stream.length - returned ∧
      state.rb.address.loadAround state.rb.capacity.toNat state.rb.rp.toNat
        (rbGetFillSizeDmaWrite state).2.toNat = stream.drop returned := by
  obtain ⟨large, returned_le, length_le, room, dst_place, pause_place, carries, ready⟩ := streams
  rw [between] at ready
  have at_returned : RpAt state.rb returned := ready
  have distance : (rbGetFillSizeDmaWrite state).2.toNat = stream.length - returned := by
    rw [← Nat.add_sub_cancel' returned_le] at dst_place
    have apart := at_returned.distance (by omega) dst_place
    have rp_le := at_returned.1
    apply toNat_fillSize_of_distance
    simp only
    omega
  refine ⟨distance, ?_⟩
  rw [distance, ← carries.loadAround_eq_drop returned_le]
  exact Memory.loadAround_congr _ at_returned.2 _

/-! ## No unread byte is lost -/

/-- The bytes consumed are the first of the bytes produced, and what is left of them leaves the safe
interval free. -/
def InOrder (capacity : UInt32) (produced consumed : List UInt8) : Prop :=
  consumed <+: produced ∧ produced.length ≤ consumed.length + (capacity.toNat - 4)

/-- What is left of the bytes produced is in the ring from an offset on, as many as the fill size
says. -/
def AllThere (rb : RbSt) (start : UInt32) (fillSize : ℕ) (produced consumed : List UInt8) : Prop :=
  fillSize = produced.length - consumed.length ∧
    consumed ++ rb.address.loadAround rb.capacity.toNat start.toNat fillSize = produced

/-- The channel has read what it was given, in order, and is that far around the ring; between two
calls the rest is in front of it. -/
def DmaRead.Kept (capacity : UInt32) (state : DmaRead) (effects : List Effect) : Prop :=
  InOrder capacity (passedBytes effects) (returnedBytes effects) ∧
    state.src.toNat = (returnedBytes effects).length % capacity.toNat ∧
    (state.writer = .idle →
      AllThere state.rb state.src (rbGetFillSizeDmaRead state).2.toNat (passedBytes effects)
        (returnedBytes effects))

/-- The program has returned what the channel has stored, in order, and the channel is that far
around the ring; between two calls the rest is in front of the read point. -/
def DmaWrite.Kept (capacity : UInt32) (state : DmaWrite) (effects : List Effect) : Prop :=
  InOrder capacity (passedBytes effects) (returnedBytes effects) ∧
    state.dst.toNat = (passedBytes effects).length % capacity.toNat ∧
    (state.reader = .idle →
      AllThere state.rb state.rb.rp (rbGetFillSizeDmaWrite state).2.toNat (passedBytes effects)
        (returnedBytes effects))

section

variable {stream : List UInt8} {taken : ℕ} (taken_le : taken ≤ stream.length)
include taken_le

theorem inOrder_take (room : stream.length ≤ taken + (capacity.toNat - 4)) :
    InOrder capacity stream (stream.take taken) := by
  refine ⟨List.take_prefix taken stream, ?_⟩
  rw [List.length_take_of_le taken_le]
  exact room

theorem allThere_take {start : UInt32} {fillSize : ℕ} (distance : fillSize = stream.length - taken)
    (rest : rb.address.loadAround rb.capacity.toNat start.toNat fillSize = stream.drop taken) :
    AllThere rb start fillSize stream (stream.take taken) := by
  refine ⟨?_, ?_⟩
  · rw [distance, List.length_take_of_le taken_le]
  · rw [rest, List.take_append_drop]

end

theorem dmaRead_kept (capacity : UInt32) {events : List DmaReadEvent}
    (representable : ∀ event ∈ events, event.Representable) :
    (dmaRead.run (rbInitDmaRead addr capacity) events).Kept capacity
      (dmaRead.outputs (rbInitDmaRead addr capacity) events) := by
  obtain ⟨capacity_eq, taken, released, streams, balance⟩ :=
    dmaRead_streams addr capacity representable
  have taken_le := Nat.le_trans streams.taken_le streams.released_le
  have room := streams.room
  have src_place := streams.src_place
  rw [capacity_eq] at room src_place
  rw [DmaRead.Kept, balance]
  refine ⟨inOrder_take taken_le room, ?_, fun between => ?_⟩
  · rw [List.length_take_of_le taken_le]
    exact src_place
  · obtain ⟨distance, rest⟩ := streams.fillSize between
    exact allThere_take taken_le distance rest

theorem dmaWrite_kept (large : 4 ≤ capacity.toNat) (events : List DmaWriteEvent) :
    (dmaWrite.run (rbInitDmaWrite addr capacity) events).Kept capacity
      (dmaWrite.outputs (rbInitDmaWrite addr capacity) events) := by
  obtain ⟨capacity_eq, returned, limit, streams, balance⟩ := dmaWrite_streams addr large events
  have returned_le := streams.returned_le
  have room := Nat.le_trans streams.length_le streams.room
  have dst_place := streams.dst_place
  rw [capacity_eq] at room dst_place
  rw [DmaWrite.Kept, balance]
  refine ⟨inOrder_take returned_le room, dst_place, fun between => ?_⟩
  obtain ⟨distance, rest⟩ := streams.fillSize between
  exact allThere_take returned_le distance rest

/-- The first pause address of a ring smaller than the safe interval is outside, and one byte is
already too much. -/
theorem dmaWrite_not_kept (small : capacity.toNat < 4) :
    ¬(dmaWrite.run (rbInitDmaWrite addr capacity) [.dma 0]).Kept capacity
      (dmaWrite.outputs (rbInitDmaWrite addr capacity) [.dma 0]) := by
  have running : ¬(rbInitDmaWrite addr capacity).dst = (rbInitDmaWrite addr capacity).pause := by
    intro waits
    have pause_zero : (capacity - rwpSafeInterval).toNat = 0 := by
      rw [show capacity - rwpSafeInterval = 0 from waits.symm]
      rfl
    have interval : rwpSafeInterval.toNat = 4 := rfl
    rw [UInt32.toNat_sub, interval] at pause_zero
    omega
  rintro ⟨⟨-, bounded⟩, -⟩
  simp only [Machine.outputs_cons, Machine.outputs_nil, dmaWrite, if_neg running, passedBytes,
    returnedBytes, List.append_nil, List.length_singleton, List.length_nil] at bounded
  omega

/-- In every run in which each write and the safe interval together are representable in 32 bits, a
ring of any capacity that a channel reads loses no unread byte; a ring that a channel writes loses
none in any run exactly when it is no smaller than the safe interval. -/
theorem dma_rings_keep_unread (addr : Memory UInt8) (capacity : UInt32) :
    (∀ events : List DmaReadEvent, (∀ event ∈ events, event.Representable) →
      (dmaRead.run (rbInitDmaRead addr capacity) events).Kept capacity
        (dmaRead.outputs (rbInitDmaRead addr capacity) events)) ∧
      ((∀ events : List DmaWriteEvent,
        (dmaWrite.run (rbInitDmaWrite addr capacity) events).Kept capacity
          (dmaWrite.outputs (rbInitDmaWrite addr capacity) events)) ↔ 4 ≤ capacity.toNat) := by
  refine ⟨fun events representable => dmaRead_kept addr capacity representable,
    ⟨fun kept => ?_, fun large events => dmaWrite_kept addr large events⟩⟩
  by_contra small
  exact dmaWrite_not_kept addr (Nat.not_le.mp small) (kept [.dma 0])

instance : DecidablePred DmaReadEvent.Representable
  | .call _ size count => inferInstanceAs (Decidable ((size * count).toNat + 4 < 2 ^ 32))
  | .next => isTrue trivial
  | .getFillSize => isTrue trivial
  | .getFreeSize => isTrue trivial
  | .dma => isTrue trivial

/-- Twelve bytes through a ring of ten that a channel reads while the program writes around its
end, and as many through one that a channel writes. -/
theorem dma_rings_keep_unread_ten :
    let reads : List DmaReadEvent :=
      .call (fun index => UInt8.ofNat (index + 1)) 1 6 :: List.replicate 13 .next ++
        List.replicate 6 .dma ++ .call (fun index => UInt8.ofNat (index + 7)) 1 6 ::
          List.replicate 18 .next ++ List.replicate 6 .dma
    let writes : List DmaWriteEvent :=
      [.dma 1, .dma 2, .dma 3, .dma 4, .dma 5, .dma 6, .dma 7, .call (fun _ => 0) 1 6] ++
        List.replicate 11 .next
    ((∀ event ∈ reads, event.Representable) ∧
        (dmaRead.run (rbInitDmaRead (fun _ => 0) 10) reads).Kept 10
          (dmaRead.outputs (rbInitDmaRead (fun _ => 0) 10) reads) ∧
        returnedBytes (dmaRead.outputs (rbInitDmaRead (fun _ => 0) 10) reads) =
          [1, 2, 3, 4, 5, 6, 7, 8, 9, 10, 11, 12]) ∧
      (dmaWrite.run (rbInitDmaWrite (fun _ => 0) 10) writes).Kept 10
          (dmaWrite.outputs (rbInitDmaWrite (fun _ => 0) 10) writes) ∧
        returnedBytes (dmaWrite.outputs (rbInitDmaWrite (fun _ => 0) 10) writes) =
          [1, 2, 3, 4, 5, 6] := by
  intro reads writes
  have representable : ∀ event ∈ reads, event.Representable := by decide
  refine ⟨⟨representable, ?_, by decide⟩, ?_, by decide⟩
  · exact (dma_rings_keep_unread _ _).1 _ representable
  · exact (dma_rings_keep_unread _ _).2.mpr (by decide) _

/-- A channel stores four bytes in a ring of three, over the first of them: the program is given the
last byte and none of the other three. -/
theorem dma_ring_loses_unread :
    let events : List DmaWriteEvent :=
      [.dma 1, .dma 2, .dma 3, .dma 4, .call (fun _ => 0) 1 3] ++ List.replicate 6 .next
    let effects := dmaWrite.outputs (rbInitDmaWrite (fun _ => 0) 3) events
    passedBytes effects = [1, 2, 3, 4] ∧ returnedBytes effects = [4] ∧
      ¬(dmaWrite.run (rbInitDmaWrite (fun _ => 0) 3) events).Kept 3 effects := by
  intro events effects
  have passed : passedBytes effects = [1, 2, 3, 4] := by decide
  have returned : returnedBytes effects = [4] := by decide
  refine ⟨passed, returned, ?_⟩
  rintro ⟨⟨first, -⟩, -⟩
  rw [passed, returned] at first
  exact absurd first (by decide)

end BdkFreertos.RingBuffer
