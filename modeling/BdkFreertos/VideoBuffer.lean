import BdkFreertos.CameraFrame

/-!
# Packet headers of the frame buffer

The frame buffer's header callback numbers packets with one global counter that only an
end-of-frame packet resets, and writes the number and the packet count of the frame as single bytes.
A packet without a free node never reaches the callback.  What the headers of a frame say about its
losses therefore depends on the counter's value when the frame begins.
-/

namespace BdkFreertos.VideoBuffer

open VideoTransfer hiding Event machine
open CameraFrame

/-- A packet header `VB_HDR_ST`. -/
structure VbHdr where
  id : UInt8
  isEof : UInt8
  pktCnt : UInt8
  pktSeq : UInt8
  deriving DecidableEq

def VbHdr.bytes (hdr : VbHdr) : List UInt8 :=
  [hdr.id, hdr.isEof, hdr.pktCnt, hdr.pktSeq]

/-- The header the receiver reads at the start of a node. -/
def readHdr (packet : Packet) : VbHdr where
  id := packet.header.getD 0 0
  isEof := packet.header.getD 1 0
  pktCnt := packet.header.getD 2 0
  pktSeq := packet.header.getD 3 0

/-- `video_buffer_add_pkt_header` with the counter `g_pkt_seq`. -/
def videoBufferAddPktHeader (gPktSeq : UInt32) (param : HdrParam) : UInt32 × List UInt8 :=
  let seq := gPktSeq + 1
  let elemTvhdr : VbHdr :=
    { id := UInt8.ofNat param.frameId
      isEof := if param.isEof then 1 else 0
      pktCnt := UInt8.ofNat param.frameLen
      pktSeq := seq.toUInt8 }
  (if param.isEof then 0 else seq, elemTvhdr.bytes)

/-- The setup of `video_buffer_open`. -/
def videoBufferSetup : Setup UInt32 where
  openType := .sccb
  sendType := .intf
  sendFunc := true
  pktHeaderSize := 4
  addPktHeader := some videoBufferAddPktHeader
  header_fits := header_of_four_fits

/-- The end-of-frame packet carries the number of the frame's packets, and these are numbered from
one up to it. -/
def Complete (packets : List Packet) : Prop :=
  ∃ eof ∈ packets, markedEof eof = true ∧
    (readHdr eof).pktCnt.toNat = packets.length ∧
    packets.map (fun packet => (readHdr packet).pktSeq.toNat) =
      List.range' 1 (readHdr eof).pktCnt.toNat

def packetTotal (length : ℕ) : ℕ := pktCnt videoBufferSetup true length

/-- The number byte of the packet at a position of a frame that begins with the counter at
`before`. -/
def seqByte (before position : ℕ) : ℕ := (before + position + 1) % 256

variable {before : UInt32} {packets : List Packet} (frameId : UInt16) (hook : UInt32)
  (curptr : List UInt8) (newlen frameLen : ℕ)

theorem pktSeq_fillNode (isEof : Bool) (frameLen : ℕ) :
    (readHdr (fillNode videoBufferSetup frameId hook curptr newlen isEof frameLen).2).pktSeq.toNat =
      (hook.toNat + 1) % 256 := by
  simp [fillNode, videoBufferSetup, videoBufferAddPktHeader, VbHdr.bytes, readHdr]

theorem pktCnt_fillNode :
    (readHdr (fillNode videoBufferSetup frameId hook curptr newlen true frameLen).2).pktCnt.toNat =
      packetTotal frameLen % 256 := by
  simp [fillNode, videoBufferSetup, videoBufferAddPktHeader, VbHdr.bytes, readHdr, packetTotal]

theorem hook_fillNode :
    (fillNode videoBufferSetup frameId hook curptr newlen false frameLen).1 = hook + 1 := by
  simp [fillNode, videoBufferSetup, videoBufferAddPktHeader]

/-- The packets of a frame so far are unmarked and numbered onwards from the counter's value when
the frame began. -/
structure Numbered (before : UInt32) (packets : List Packet) (hook : UInt32) : Prop where
  unmarked : ∀ packet ∈ packets, markedEof packet = false
  counter : hook.toNat % 256 = (before.toNat + packets.length) % 256
  numbers : packets.map (fun packet => (readHdr packet).pktSeq.toNat) =
    (List.range packets.length).map (seqByte before.toNat)

theorem Numbered.numbers_concat {hook : UInt32} (numbered : Numbered before packets hook)
    {packet : Packet} (number : (readHdr packet).pktSeq.toNat = (hook.toNat + 1) % 256) :
    (packets ++ [packet]).map (fun packet => (readHdr packet).pktSeq.toNat) =
      (List.range (packets ++ [packet]).length).map (seqByte before.toNat) := by
  have counter := numbered.counter
  rw [List.map_append, numbered.numbers, List.length_append, List.length_singleton,
    List.range_succ, List.map_append, List.map_singleton, List.map_singleton, number, seqByte]
  congr 2
  omega

theorem keptByFull_numbered (before : UInt32) (frameId : UInt16) :
    KeptByFull videoBufferSetup frameId (Numbered before) := by
  intro packets hook curptr numbered
  refine
    { unmarked := keptByFull_unmarked (by decide) frameId packets hook curptr numbered.unmarked
      counter := ?_
      numbers := numbered.numbers_concat (pktSeq_fillNode _ _ _ _ _ _) }
  have counter := numbered.counter
  rw [hook_fillNode, UInt32.toNat_add, List.length_append, List.length_singleton,
    UInt32.toNat_one]
  omega

theorem numbers_from_one_iff {count : ℕ} (positive : 0 < count) (small : count < 256)
    (before : ℕ) :
    (List.range count).map (seqByte before) = List.range' 1 count ↔ before % 256 = 0 := by
  rw [List.range'_eq_map_range, List.map_inj_left]
  constructor
  · intro every
    have first := every 0 (List.mem_range.mpr positive)
    simp only [seqByte] at first
    omega
  · intro zero position member
    have bound := List.mem_range.mp member
    simp only [seqByte]
    omega

/-- What the headers of a frame with an end-of-frame packet say, in terms of the counter, the
packets queued and the packets of the frame. -/
theorem complete_iff {hook : UInt32} (numbered : Numbered before packets hook) {eof : Packet}
    (marked : markedEof eof = true) (number : (readHdr eof).pktSeq.toNat = (hook.toNat + 1) % 256)
    {total : ℕ} (counted : (readHdr eof).pktCnt.toNat = total % 256) :
    Complete (packets ++ [eof]) ↔
      (packets ++ [eof]).length = total % 256 ∧ before.toNat % 256 = 0 := by
  have only : ∀ other ∈ packets ++ [eof], markedEof other = true → other = eof := by
    intro other member other_marked
    rcases List.mem_append.mp member with earlier | last
    · rw [numbered.unmarked other earlier] at other_marked
      exact absurd other_marked Bool.false_ne_true
    · exact List.mem_singleton.mp last
  have member : eof ∈ packets ++ [eof] := List.mem_append_right packets (List.mem_singleton_self eof)
  have positive : 0 < (packets ++ [eof]).length := List.length_pos_of_mem member
  have numbers := numbered.numbers_concat number
  constructor
  · rintro ⟨other, other_member, other_marked, length_eq, sequence⟩
    obtain rfl := only other other_member other_marked
    rw [counted] at length_eq sequence
    have small : (packets ++ [other]).length < 256 := by omega
    rw [numbers, length_eq] at sequence
    exact ⟨length_eq.symm, (numbers_from_one_iff (by omega) (by omega) _).mp sequence⟩
  · rintro ⟨length_eq, zero⟩
    refine ⟨eof, member, marked, by rw [counted, length_eq], ?_⟩
    rw [numbers, counted, ← length_eq]
    exact (numbers_from_one_iff positive (by omega) _).mpr zero

theorem packetTotal_of_remainder {length : ℕ} (remainder : ¬ videoBufferSetup.nodeLen ∣ length) :
    packetTotal length = length / videoBufferSetup.nodeLen + 1 := by
  have left : length % videoBufferSetup.nodeLen ≠ 0 :=
    fun zero => remainder (Nat.dvd_of_mod_eq_zero zero)
  rw [packetTotal, pktCnt, if_pos rfl, if_pos left]

/-- The headers of a frame whose end-of-frame packet was queued. -/
theorem complete_frame_iff {start : Camera UInt32} {frame : List UInt8} {events : List Event}
    (delivers : Delivers frame events) (counter : start.dmaLen = 0)
    (stopped : start.delayTimer = false)
    (queued : ∃ packet ∈ framePackets start ((machine videoBufferSetup).run start events),
      markedEof packet = true) :
    (framePackets start ((machine videoBufferSetup).run start events)).length +
        dropCount videoBufferSetup start events = packetTotal frame.length ∧
      (Complete (framePackets start ((machine videoBufferSetup).run start events)) ↔
        (framePackets start ((machine videoBufferSetup).run start events)).length =
            packetTotal frame.length % 256 ∧
          start.pool.hook.toNat % 256 = 0) := by
  obtain ⟨packet, member, marked⟩ := queued
  have initial : Numbered start.pool.hook [] (side start.pool).hook :=
    { unmarked := fun packet member => absurd member List.not_mem_nil
      counter := rfl
      numbers := rfl }
  obtain ⟨packets, dropped, hook, count, numbered, ends⟩ :=
    frame_run delivers counter stopped initial
      (keptByFull_numbered start.pool.hook (side start.pool).frameId)
  have lost_eq : (side ((machine videoBufferSetup).run start events).pool).lost =
      (side start.pool).lost + dropCount videoBufferSetup start events :=
    run_lost events
  rcases ends with
    ⟨-, captured, -⟩ | ⟨remainder, curptr, captured, lost⟩ | ⟨-, captured, -⟩
  · rw [framePackets_eq captured] at member
    rw [numbered.unmarked packet member] at marked
    exact absurd marked Bool.false_ne_true
  · rw [framePackets_eq captured]
    constructor
    · rw [packetTotal_of_remainder remainder, List.length_append, List.length_singleton]
      omega
    · exact complete_iff numbered (markedEof_fillNode (by decide) _ _ _ _ _ _)
        (pktSeq_fillNode _ _ _ _ _ _) (pktCnt_fillNode _ _ _ _ _)
  · rw [framePackets_eq captured] at member
    rw [numbered.unmarked packet member] at marked
    exact absurd marked Bool.false_ne_true

/-- The frame buffer's receive side after a run, from a value of the counter that earlier openings
left behind. -/
def recording (gPktSeq : UInt32) (events : List Event) : Camera UInt32 :=
  (machine videoBufferSetup).run (cameraIntferInit gPktSeq) events

/-- After any run, the headers of a frame with an end-of-frame packet tell whether a packet was
dropped exactly if: with nothing dropped, the counter's low byte was zero and the frame has fewer
than 256 packets; with packets dropped, it is not the case that this byte was zero and the packets
that are left happen to be as many as the count byte says. -/
theorem losses_detected_iff (gPktSeq : UInt32) (earlier : List Event) (frame : List UInt8)
    (events : List Event) (delivers : Delivers frame events)
    (between : (recording gPktSeq earlier).dmaLen = 0 ∧
      (recording gPktSeq earlier).delayTimer = false)
    (queued : ∃ packet ∈ framePackets (recording gPktSeq earlier)
      (recording gPktSeq (earlier ++ events)), markedEof packet = true) :
    (Complete (framePackets (recording gPktSeq earlier) (recording gPktSeq (earlier ++ events))) ↔
        dropCount videoBufferSetup (recording gPktSeq earlier) events = 0) ↔
      if dropCount videoBufferSetup (recording gPktSeq earlier) events = 0 then
        packetTotal frame.length < 256 ∧ (recording gPktSeq earlier).pool.hook.toNat % 256 = 0
      else
        ¬ (packetTotal frame.length - dropCount videoBufferSetup (recording gPktSeq earlier) events =
            packetTotal frame.length % 256 ∧
          (recording gPktSeq earlier).pool.hook.toNat % 256 = 0) := by
  have appended : recording gPktSeq (earlier ++ events) =
      (machine videoBufferSetup).run (recording gPktSeq earlier) events :=
    Machine.run_append _ _ _ _
  rw [appended] at queued ⊢
  obtain ⟨total, complete⟩ := complete_frame_iff delivers between.1 between.2 queued
  rw [complete]
  split
  · next none =>
      rw [none, Nat.add_zero] at total
      rw [none, total, iff_true_right rfl]
      have exact_byte : packetTotal frame.length = packetTotal frame.length % 256 ↔
          packetTotal frame.length < 256 := by
        omega
      rw [exact_byte]
  · next some =>
      rw [iff_false_right some, ← total, Nat.add_sub_cancel]

/-- Twenty-four frames of one byte, which fill all nodes but one. -/
def shortFrames : List Event :=
  (List.replicate 24 (plainDelivery [0xff])).flatten

/-- The thread sends one packet of five bytes and puts its node on the free list. -/
def sendOne : List Event :=
  [.thread 0, .thread 0, .thread 5, .thread 0, .thread 0]

/-- After the short frames, a frame has a full node, which takes the last free one, and an
end-of-frame packet, which is dropped; then one packet is sent. -/
def droppedEof : List Event :=
  shortFrames ++ plainDelivery (List.replicate 1469 0xff) ++ sendOne

/-- The bytes that do not fill a node change the counters of the receive side only. -/
theorem recording_dma_of_short {gPktSeq : UInt32} {earlier : List Event} {bytes : List UInt8}
    (short : (recording gPktSeq earlier).dmaLen + bytes.length < videoBufferSetup.nodeLen)
    (later : List Event) :
    recording gPktSeq (earlier ++ (bytes.map .dma ++ later)) =
      (machine videoBufferSetup).run
        { (machine videoBufferSetup).run (recording gPktSeq earlier) (bytes.map .dma) with
          pool := (recording gPktSeq earlier).pool
          dmaLen := (recording gPktSeq earlier).dmaLen + bytes.length
          rxReadLen := (recording gPktSeq earlier).rxReadLen
          delayTimer := (recording gPktSeq earlier).delayTimer }
        later := by
  rw [← run_dma_of_short short, recording, Machine.run_append, Machine.run_append]
  rfl

theorem recording_droppedEof :
    recording 0 droppedEof =
      (machine videoBufferSetup).run
        { (machine videoBufferSetup).run (recording 0 shortFrames)
            ((List.replicate 1467 0xff).map .dma) with
          pool := (recording 0 shortFrames).pool
          dmaLen := (recording 0 shortFrames).dmaLen + (List.replicate 1467 (0xff : UInt8)).length
          rxReadLen := (recording 0 shortFrames).rxReadLen
          delayTimer := (recording 0 shortFrames).delayTimer }
        ([.dma 0xff, .dma 0xff, .frameEnd, .delayTimer 1469] ++ sendOne) := by
  have short : (recording 0 shortFrames).dmaLen + (List.replicate 1467 (0xff : UInt8)).length <
      videoBufferSetup.nodeLen := by
    rw [List.length_replicate]
    decide +kernel
  have bytes : List.replicate 1469 (0xff : UInt8) = List.replicate 1467 0xff ++ [0xff, 0xff] :=
    List.replicate_add 1467 2 0xff
  rw [← recording_dma_of_short short, droppedEof, plainDelivery, List.length_replicate, bytes,
    List.map_append]
  simp only [List.append_assoc]
  rfl

/-- A frame of a node and a byte: its first packet finds no free node, then the thread sends one
packet and its last one is queued. -/
def droppedFull : List Event :=
  (List.replicate 1467 0xff).map .dma ++
    (.dma 0xff :: (List.replicate 4 (.thread 5) ++ [.dma 0xff, .frameEnd, .delayTimer 1469]))

theorem delivers_droppedFull : Delivers (List.replicate 1469 0xff) droppedFull := by
  refine ⟨(List.replicate 1467 0xff).map .dma ++
    (.dma 0xff :: (List.replicate 4 (.thread 5) ++ [.dma 0xff])), [], ?_, ?_, rfl⟩
  · rw [droppedFull, List.length_replicate]
    simp only [List.append_assoc]
    rfl
  · have bytes : List.replicate 1469 (0xff : UInt8) = List.replicate 1467 0xff ++ [0xff, 0xff] :=
      List.replicate_add 1467 2 0xff
    rw [bytes, List.map_append, List.filter_append, filter_isCamera_dma]
    rfl

/-- After a dropped end-of-frame packet and a frame that takes the last free node, the receiver
can tell that a packet of the frame is missing. -/
theorem losses_detected_dropped_full :
    let earlier := droppedEof ++ plainDelivery [0xff]
    dropCount videoBufferSetup (recording 0 earlier) droppedFull = 1 ∧
      ¬ Complete (framePackets (recording 0 earlier) (recording 0 (earlier ++ droppedFull))) := by
  intro earlier
  have before : recording 0 earlier =
      (machine videoBufferSetup).run (recording 0 droppedEof) (plainDelivery [0xff]) :=
    Machine.run_append _ _ _ _
  have between :
      (recording 0 earlier).dmaLen = 0 ∧ (recording 0 earlier).delayTimer = false := by
    rw [before, recording_droppedEof]
    decide +kernel
  have queued : ∃ packet ∈ framePackets (recording 0 earlier)
      (recording 0 (earlier ++ droppedFull)), markedEof packet = true := by
    have short : (recording 0 earlier).dmaLen + (List.replicate 1467 (0xff : UInt8)).length <
        videoBufferSetup.nodeLen := by
      rw [between.1, List.length_replicate]
      decide
    rw [droppedFull, recording_dma_of_short short, before, recording_droppedEof]
    decide +kernel
  have lost : dropCount videoBufferSetup (recording 0 earlier) droppedFull = 1 := by
    rw [before, recording_droppedEof]
    decide +kernel
  have detected := losses_detected_iff 0 earlier (List.replicate 1469 0xff) droppedFull
    delivers_droppedFull between queued
  rw [lost, List.length_replicate] at detected
  exact ⟨lost, fun complete => absurd ((detected.mpr (by decide)).mp complete) Nat.one_ne_zero⟩

/-- The frame after a dropped end-of-frame packet loses nothing, and its only packet has number
two. -/
theorem complete_frame_rejected :
    Delivers [0xff] (plainDelivery [0xff]) ∧
      ((recording 0 droppedEof).dmaLen = 0 ∧ (recording 0 droppedEof).delayTimer = false) ∧
      (∃ packet ∈ framePackets (recording 0 droppedEof)
        (recording 0 (droppedEof ++ plainDelivery [0xff])), markedEof packet = true) ∧
      dropCount videoBufferSetup (recording 0 droppedEof) (plainDelivery [0xff]) = 0 ∧
      ¬ Complete (framePackets (recording 0 droppedEof)
        (recording 0 (droppedEof ++ plainDelivery [0xff]))) := by
  have appended : recording 0 (droppedEof ++ plainDelivery [0xff]) =
      (machine videoBufferSetup).run (recording 0 droppedEof) (plainDelivery [0xff]) :=
    Machine.run_append _ _ _ _
  have between :
      (recording 0 droppedEof).dmaLen = 0 ∧ (recording 0 droppedEof).delayTimer = false := by
    rw [recording_droppedEof]
    decide +kernel
  have queued : ∃ packet ∈ framePackets (recording 0 droppedEof)
      (recording 0 (droppedEof ++ plainDelivery [0xff])), markedEof packet = true := by
    rw [appended, recording_droppedEof]
    decide +kernel
  have counter : (recording 0 droppedEof).pool.hook.toNat % 256 = 1 := by
    rw [recording_droppedEof]
    decide +kernel
  have kept : dropCount videoBufferSetup (recording 0 droppedEof) (plainDelivery [0xff]) = 0 := by
    rw [recording_droppedEof]
    decide +kernel
  refine ⟨delivers_plainDelivery [0xff], between, queued, kept, ?_⟩
  rw [appended] at queued ⊢
  intro complete
  have zero := ((complete_frame_iff (delivers_plainDelivery [0xff]) between.1 between.2
    queued).2.mp complete).2
  omega

end BdkFreertos.VideoBuffer
