import BdkFreertos.VideoTransfer

/-!
# Frames from the camera to the packet pool

The encoder's bytes reach a looping receive buffer by DMA.  A full node raises an interrupt that
queues it; the end of a frame starts a timer, whose handler queues what the DMA counter says is left
and restarts the DMA.  The channel runs in repeat mode: the counter of the received bytes starts
again with every node, so after a full node nothing is left over.
-/

namespace BdkFreertos.CameraFrame

open VideoTransfer

/-- The receive side `ejpeg_cfg` with its DMA channel, in front of the pool. -/
structure Camera (Hook : Type*) where
  pool : Pool Hook
  rxbuf : ℕ → UInt8
  /-- Where the DMA channel writes next. -/
  dmaPos : ℕ
  /-- The bytes of the current node that the DMA channel has written. -/
  dmaLen : ℕ
  rxReadLen : ℕ
  /-- Whether the timer started at the end of a frame is running. -/
  delayTimer : Bool

/-- The receive side after `camera_intfer_init`. -/
def cameraIntferInit {Hook : Type*} (hook : Hook) : Camera Hook where
  pool := tvideoPoolInit hook
  rxbuf := fun _ => 0
  dmaPos := 0
  dmaLen := 0
  rxReadLen := 0
  delayTimer := false

section

variable {Hook : Type*} (setup : Setup Hook)

def rxbufLen : ℕ := setup.nodeLen * 4

def bytesAt (rxbuf : ℕ → UInt8) (start count : ℕ) : List UInt8 :=
  (List.range count).map fun offset => rxbuf (start + offset)

/-- `camera_intf_ejpeg_rx_handler`, the interrupt of a full node. -/
def cameraIntfEjpegRxHandler (camera : Camera Hook) : Camera Hook :=
  let copyLen := setup.nodeLen
  let alreadyLen := camera.rxReadLen + copyLen
  { camera with
    pool :=
      tvideoRxHandler setup camera.pool (bytesAt camera.rxbuf camera.rxReadLen copyLen) copyLen
        false 0
    rxReadLen := if alreadyLen ≥ rxbufLen setup then 0 else alreadyLen }

/-- The DMA channel writes one byte; with the last byte of a node its counter starts again and the
interrupt is raised. -/
def dmaReceive (camera : Camera Hook) (byte : UInt8) : Camera Hook :=
  let written :=
    { camera with
      rxbuf := Function.update camera.rxbuf camera.dmaPos byte
      dmaPos := (camera.dmaPos + 1) % rxbufLen setup }
  if camera.dmaLen + 1 = setup.nodeLen then
    cameraIntfEjpegRxHandler setup { written with dmaLen := 0 }
  else
    { written with dmaLen := camera.dmaLen + 1 }

/-- `camera_intf_ejpeg_end_handler`, the interrupt at the end of a frame. -/
def cameraIntfEjpegEndHandler (camera : Camera Hook) : Camera Hook :=
  { camera with delayTimer := true }

/-- `camera_intf_delay_timer_hdl`; the frame length is read from the encoder. -/
def cameraIntfDelayTimerHdl (camera : Camera Hook) (frameLen : ℕ) : Camera Hook :=
  let leftLen := setup.nodeLen - camera.dmaLen
  let recLen := setup.nodeLen - leftLen
  let pool :=
    if 0 < recLen then
      tvideoRxHandler setup camera.pool (bytesAt camera.rxbuf camera.rxReadLen recLen) recLen true
        frameLen
    else
      camera.pool
  { camera with
    pool := tvideoEndFrameHandler setup pool
    dmaPos := 0
    dmaLen := 0
    rxReadLen := 0
    delayTimer := false }

/-- What can happen to the receive side and the pool. -/
inductive Event
  /-- The encoder's next byte. -/
  | dma (byte : UInt8)
  | frameEnd
  | delayTimer (frameLen : ℕ)
  /-- The video thread runs to its next step. -/
  | thread (sendLen : ℕ)
  deriving DecidableEq

/-- The events that are not steps of the video thread. -/
def Event.isCamera : Event → Bool
  | .thread _ => false
  | _ => true

/-- The receive side and the pool as a machine. -/
def machine : Machine (Camera Hook) Event Unit where
  step camera
    | .dma byte => (dmaReceive setup camera byte, ())
    | .frameEnd => (cameraIntfEjpegEndHandler camera, ())
    | .delayTimer frameLen =>
        (if camera.delayTimer then cameraIntfDelayTimerHdl setup camera frameLen else camera, ())
    | .thread sendLen => ({ camera with pool := tvideoPollStep setup camera.pool sendLen }, ())

end

/-- A frame is delivered: its bytes by DMA, the end-of-frame interrupt, the timer, with any steps of
the video thread in between. -/
def Delivers (frame : List UInt8) (events : List Event) : Prop :=
  ∃ during waiting, events = during ++ .frameEnd :: (waiting ++ [.delayTimer frame.length]) ∧
    during.filter Event.isCamera = frame.map .dma ∧ waiting.filter Event.isCamera = []

def markedEof (packet : Packet) : Bool :=
  packet.param.any HdrParam.isEof

section

variable {Hook : Type*} {setup : Setup Hook}

theorem nodeLen_pos (setup : Setup Hook) : 0 < setup.nodeLen := by
  have fits := setup.header_fits
  unfold Setup.nodeLen
  simp only [tvideoRxnodeSizeUdp, tvideoRxnodeSizeTcp] at fits ⊢
  split
  · split <;> omega
  all_goals omega

/-- The event queues a packet, which needs a free node. -/
def needsNode (setup : Setup Hook) (camera : Camera Hook) : Event → Bool
  | .dma _ => camera.dmaLen + 1 = setup.nodeLen
  | .delayTimer _ => camera.delayTimer && decide (0 < camera.dmaLen)
  | _ => false

/-- Whenever the event queues a packet there is a free node for it. -/
def Room (setup : Setup Hook) (camera : Camera Hook) (event : Event) : Prop :=
  needsNode setup camera event = true → camera.pool.free ≠ []

instance decidableRoom (setup : Setup Hook) (camera : Camera Hook) (event : Event) :
    Decidable (Room setup camera event) :=
  inferInstanceAs (Decidable (_ → _))

/-- What is left of the pool when one looks at the capture side only. -/
structure Side (Hook : Type*) where
  frameId : UInt16
  hook : Hook
  captured : List Packet
  lost : ℕ

/-- The capture side of a pool. -/
def side (pool : Pool Hook) : Side Hook where
  frameId := pool.frameId
  hook := pool.hook
  captured := pool.captured
  lost := pool.lost

variable (pool : Pool Hook)

@[simp]
theorem side_tvideoIntferSendMsg : side (tvideoIntferSendMsg pool) = side pool := by
  unfold tvideoIntferSendMsg
  split <;> rfl

/-- The video thread does not touch the capture side. -/
@[simp]
theorem side_tvideoPollStep (sendLen : ℕ) :
    side (tvideoPollStep setup pool sendLen) = side pool := by
  unfold tvideoPollStep
  split
  · split <;> rfl
  · split <;> rfl
  · split
    · split <;> rfl
    · rfl
  · rfl
  · rfl

/-- Offering a packet to the capture side: it is queued when there is a node and lost otherwise. -/
def Side.offer (setup : Setup Hook) (before : Side Hook) (room : Bool) (curptr : List UInt8)
    (newlen : ℕ) (isEof : Bool) (frameLen : ℕ) : Side Hook :=
  let filled := fillNode setup before.frameId before.hook curptr newlen isEof frameLen
  if room then
    { before with hook := filled.1, captured := before.captured ++ [filled.2] }
  else
    { before with lost := before.lost + 1 }

theorem side_tvideoRxHandler (curptr : List UInt8) {newlen : ℕ} (positive : 0 < newlen)
    (fits : newlen ≤ setup.nodeLen) (isEof : Bool) (frameLen : ℕ) :
    side (tvideoRxHandler setup pool curptr newlen isEof frameLen) =
      (side pool).offer setup (!pool.free.isEmpty) curptr newlen isEof frameLen := by
  rw [tvideoRxHandler, side_tvideoIntferSendMsg, queuePacket, if_neg (Nat.ne_of_gt positive),
    Nat.min_eq_left fits]
  split
  · next free_eq => simp [free_eq, Side.offer, side]
  · next node rest free_eq => simp [free_eq, Side.offer, side]

@[simp]
theorem side_tvideoEndFrameHandler_captured :
    (side (tvideoEndFrameHandler setup pool)).captured = (side pool).captured := by
  rw [tvideoEndFrameHandler, side_tvideoIntferSendMsg]
  split <;> rfl

@[simp]
theorem side_tvideoEndFrameHandler_lost :
    (side (tvideoEndFrameHandler setup pool)).lost = (side pool).lost := by
  rw [tvideoEndFrameHandler, side_tvideoIntferSendMsg]
  split <;> rfl

end

section

variable {Hook : Type*} {setup : Setup Hook} {good : List Packet → Hook → Prop}
  {start now : Camera Hook} {received : ℕ} {timer : Bool}

/-- After some bytes of a frame: the DMA counter holds the rest, every full node was queued or lost,
and a property of the frame's packets and the header callback has been kept. -/
structure Progress (setup : Setup Hook) (good : List Packet → Hook → Prop) (start : Camera Hook)
    (received : ℕ) (timer : Bool) (now : Camera Hook) : Prop where
  dma : now.dmaLen = received % setup.nodeLen
  running : now.delayTimer = timer
  frameId : (side now.pool).frameId = (side start.pool).frameId
  packets : ∃ packets dropped,
    (side now.pool).captured = (side start.pool).captured ++ packets ∧
      (side now.pool).lost = (side start.pool).lost + dropped ∧
      packets.length + dropped = received / setup.nodeLen ∧ good packets (side now.pool).hook

/-- A property of a frame's packets that every further full node keeps. -/
def KeptByFull (setup : Setup Hook) (frameId : UInt16) (good : List Packet → Hook → Prop) : Prop :=
  ∀ packets hook curptr, good packets hook →
    good (packets ++ [(fillNode setup frameId hook curptr setup.nodeLen false 0).2])
      (fillNode setup frameId hook curptr setup.nodeLen false 0).1

variable {count size : ℕ} {events : List Event} {frame : List UInt8} {packets : List Packet}

theorem mod_div_of_not_full (positive : 0 < size) (unfilled : count % size + 1 ≠ size) :
    (count + 1) % size = count % size + 1 ∧ (count + 1) / size = count / size := by
  have bound := Nat.mod_lt count positive
  have split := Nat.div_add_mod count size
  have next : count + 1 = size * (count / size) + (count % size + 1) := by omega
  constructor
  · rw [next, Nat.mul_add_mod, Nat.mod_eq_of_lt (by omega)]
  · rw [next, Nat.mul_add_div positive, Nat.div_eq_of_lt (a := count % size + 1) (by omega),
      Nat.add_zero]

theorem mod_div_of_full (positive : 0 < size) (full : count % size + 1 = size) :
    (count + 1) % size = 0 ∧ (count + 1) / size = count / size + 1 := by
  have split := Nat.div_add_mod count size
  have next : count + 1 = size * (count / size + 1) := by
    rw [Nat.mul_add, Nat.mul_one]
    omega
  rw [next]
  exact ⟨Nat.mul_mod_right _ _, Nat.mul_div_cancel_left _ positive⟩

theorem Progress.thread (progress : Progress setup good start received timer now) (sendLen : ℕ) :
    Progress setup good start received timer ((machine setup).step now (.thread sendLen)).1 where
  dma := progress.dma
  running := progress.running
  frameId := by simpa [machine] using progress.frameId
  packets := by simpa [machine] using progress.packets

theorem Progress.dmaReceive (kept : KeptByFull setup (side start.pool).frameId good)
    (progress : Progress setup good start received timer now) (byte : UInt8) :
    Progress setup good start (received + 1) timer (dmaReceive setup now byte) := by
  obtain ⟨packets, dropped, captured_eq, lost_eq, count, holds⟩ := progress.packets
  unfold CameraFrame.dmaReceive
  dsimp only
  rw [progress.dma]
  split
  · next full =>
      obtain ⟨mod_eq, div_eq⟩ := mod_div_of_full (nodeLen_pos setup) full
      refine
        { dma := mod_eq.symm
          running := progress.running
          frameId := ?_
          packets := ?_ }
      · simp only [cameraIntfEjpegRxHandler]
        rw [side_tvideoRxHandler _ _ (nodeLen_pos setup) (Nat.le_refl _), Side.offer]
        split <;> exact progress.frameId
      · simp only [cameraIntfEjpegRxHandler]
        rw [side_tvideoRxHandler _ _ (nodeLen_pos setup) (Nat.le_refl _), Side.offer, div_eq,
          progress.frameId]
        generalize bytesAt _ _ _ = curptr
        split
        · refine ⟨packets ++ [(fillNode setup (side start.pool).frameId (side now.pool).hook curptr
            setup.nodeLen false 0).2], dropped, ?_, lost_eq, ?_, kept packets _ curptr holds⟩
          · simp [captured_eq]
          · rw [List.length_append, List.length_singleton, ← count]
            omega
        · refine ⟨packets, dropped + 1, captured_eq, ?_, ?_, holds⟩
          · simp [lost_eq, Nat.add_assoc]
          · rw [← count, Nat.add_assoc]
  · next unfilled =>
      obtain ⟨mod_eq, div_eq⟩ := mod_div_of_not_full (nodeLen_pos setup) unfilled
      exact
        { dma := mod_eq.symm
          running := progress.running
          frameId := progress.frameId
          packets := ⟨packets, dropped, captured_eq, lost_eq, by rw [div_eq, count], holds⟩ }

theorem Progress.run (kept : KeptByFull setup (side start.pool).frameId good) {bytes : List UInt8}
    (arriving : events.filter Event.isCamera = bytes.map .dma)
    (progress : Progress setup good start received timer now) :
    Progress setup good start (received + bytes.length) timer
      ((machine setup).run now events) := by
  induction events generalizing now received bytes with
  | nil =>
      obtain rfl : bytes = [] := by simpa using arriving
      exact progress
  | cons event events induction =>
      rw [Machine.run_cons]
      cases event with
      | thread sendLen =>
          rw [List.filter_cons_of_neg (by simp [Event.isCamera])] at arriving
          exact induction arriving (progress.thread sendLen)
      | dma byte =>
          rw [List.filter_cons_of_pos rfl] at arriving
          cases bytes with
          | nil => simp at arriving
          | cons first bytes =>
              obtain ⟨byte_eq, rest⟩ := List.cons.inj arriving
              rw [List.length_cons, Nat.add_comm bytes.length, ← Nat.add_assoc]
              exact induction rest (progress.dmaReceive kept byte)
      | frameEnd | delayTimer frameLen =>
          rw [List.filter_cons_of_pos rfl] at arriving
          cases bytes <;> simp at arriving

/-- How a frame ends, given its full nodes: with nothing left over, with an end-of-frame packet, or
with an end-of-frame packet that found no node. -/
inductive Ends (setup : Setup Hook) (start : Side Hook) (length : ℕ) (packets : List Packet)
    (dropped : ℕ) (hook : Hook) (finish : Side Hook) : Prop
  | whole (exact_fit : setup.nodeLen ∣ length)
      (captured : finish.captured = start.captured ++ packets)
      (lost : finish.lost = start.lost + dropped)
  | queued (remainder : ¬ setup.nodeLen ∣ length) (curptr : List UInt8)
      (captured : finish.captured = start.captured ++ (packets ++
        [(fillNode setup start.frameId hook curptr (length % setup.nodeLen) true length).2]))
      (lost : finish.lost = start.lost + dropped)
  | missed (remainder : ¬ setup.nodeLen ∣ length)
      (captured : finish.captured = start.captured ++ packets)
      (lost : finish.lost = start.lost + dropped + 1)

theorem Progress.delayTimer (progress : Progress setup good start received true now) :
    ∃ packets dropped hook, packets.length + dropped = received / setup.nodeLen ∧
      good packets hook ∧
        Ends setup (side start.pool) received packets dropped hook
          (side ((machine setup).step now (.delayTimer received)).1.pool) := by
  obtain ⟨packets, dropped, captured_eq, lost_eq, count, holds⟩ := progress.packets
  refine ⟨packets, dropped, (side now.pool).hook, count, holds, ?_⟩
  have bound : now.dmaLen < setup.nodeLen := by
    rw [progress.dma]
    exact Nat.mod_lt _ (nodeLen_pos setup)
  have left_over : setup.nodeLen - (setup.nodeLen - now.dmaLen) = received % setup.nodeLen := by
    rw [← progress.dma]
    omega
  simp only [machine, progress.running, ↓reduceIte, cameraIntfDelayTimerHdl, left_over]
  split
  · next positive =>
      have remainder : ¬ setup.nodeLen ∣ received := by
        intro divides
        rw [Nat.mod_eq_zero_of_dvd divides] at positive
        exact Nat.lt_irrefl 0 positive
      have short : received % setup.nodeLen ≤ setup.nodeLen :=
        Nat.le_of_lt (Nat.mod_lt _ (nodeLen_pos setup))
      by_cases room : now.pool.free.isEmpty = true
      · refine .missed remainder ?_ ?_
        · rw [side_tvideoEndFrameHandler_captured, side_tvideoRxHandler _ _ positive short]
          simp [Side.offer, room, captured_eq]
        · rw [side_tvideoEndFrameHandler_lost, side_tvideoRxHandler _ _ positive short]
          simp [Side.offer, room, lost_eq]
      · refine .queued remainder
          (bytesAt now.rxbuf now.rxReadLen (received % setup.nodeLen)) ?_ ?_
        · rw [side_tvideoEndFrameHandler_captured, side_tvideoRxHandler _ _ positive short]
          simp [Side.offer, room, captured_eq, progress.frameId]
        · rw [side_tvideoEndFrameHandler_lost, side_tvideoRxHandler _ _ positive short]
          simp [Side.offer, room, lost_eq]
  · next empty =>
      refine .whole (Nat.dvd_of_mod_eq_zero (by omega)) ?_ ?_
      · rw [side_tvideoEndFrameHandler_captured, captured_eq]
      · rw [side_tvideoEndFrameHandler_lost, lost_eq]

/-- A whole frame: its full nodes are queued or lost one by one, then it ends in one of the three
ways. -/
theorem frame_run (delivers : Delivers frame events) (counter : start.dmaLen = 0)
    (stopped : start.delayTimer = false) (initial : good [] (side start.pool).hook)
    (kept : KeptByFull setup (side start.pool).frameId good) :
    ∃ packets dropped hook, packets.length + dropped = frame.length / setup.nodeLen ∧
      good packets hook ∧
        Ends setup (side start.pool) frame.length packets dropped hook
          (side ((machine setup).run start events).pool) := by
  obtain ⟨during, waiting, rfl, arriving, quiet⟩ := delivers
  have begin : Progress setup good start 0 false start :=
    { dma := by rw [counter, Nat.zero_mod]
      running := stopped
      frameId := rfl
      packets := ⟨[], 0, (List.append_nil _).symm, rfl, by simp, initial⟩ }
  have bytes := begin.run kept arriving
  rw [Nat.zero_add] at bytes
  have ended : Progress setup good start frame.length true
      ((machine setup).step ((machine setup).run start during) .frameEnd).1 :=
    { dma := bytes.dma
      running := rfl
      frameId := bytes.frameId
      packets := bytes.packets }
  have waited := ended.run kept
    (show waiting.filter Event.isCamera = ([] : List UInt8).map .dma from quiet)
  rw [Machine.run_append, Machine.run_cons, Machine.run_append]
  exact waited.delayTimer

/-- How many packets of a run find no free node. -/
def dropCount (setup : Setup Hook) (camera : Camera Hook) : List Event → ℕ
  | [] => 0
  | event :: events =>
      (if Room setup camera event then 0 else 1) +
        dropCount setup ((machine setup).step camera event).1 events

theorem step_lost (setup : Setup Hook) (camera : Camera Hook) (event : Event) :
    (side ((machine setup).step camera event).1.pool).lost =
      (side camera.pool).lost + if Room setup camera event then 0 else 1 := by
  have offered : ∀ {newlen : ℕ} (curptr : List UInt8) (isEof : Bool) (frameLen : ℕ),
      needsNode setup camera event = true → 0 < newlen → newlen ≤ setup.nodeLen →
        (side (tvideoRxHandler setup camera.pool curptr newlen isEof frameLen)).lost =
          (side camera.pool).lost + if Room setup camera event then 0 else 1 := by
    intro newlen curptr isEof frameLen needs positive fits
    rw [side_tvideoRxHandler _ _ positive fits]
    by_cases empty : camera.pool.free = []
    · simp [Side.offer, Room, needs, empty]
    · simp [Side.offer, Room, needs, empty]
  cases event with
  | dma byte =>
      simp only [machine, dmaReceive]
      split
      · next full =>
          exact offered _ _ _ (by simpa [needsNode] using full) (nodeLen_pos setup) (Nat.le_refl _)
      · next unfilled => simp [Room, needsNode, unfilled]
  | frameEnd => simp [Room, needsNode, machine, cameraIntfEjpegEndHandler]
  | delayTimer frameLen =>
      simp only [machine, cameraIntfDelayTimerHdl]
      split
      · next running =>
          rw [side_tvideoEndFrameHandler_lost]
          split
          · next positive =>
              have counted : 0 < camera.dmaLen := by omega
              exact offered _ _ _ (by simp [needsNode, running, counted]) positive
                (Nat.sub_le _ _)
          · next empty =>
              have nodeLen_pos := nodeLen_pos setup
              have uncounted : camera.dmaLen = 0 := by omega
              simp [Room, needsNode, uncounted]
      · next stopped => simp [Room, needsNode, stopped]
  | thread sendLen => simp [machine, Room, needsNode]

theorem run_lost (events : List Event) :
    (side ((machine setup).run start events).pool).lost =
      (side start.pool).lost + dropCount setup start events := by
  induction events generalizing start with
  | nil => rfl
  | cons event events induction =>
      rw [Machine.run_cons, induction, step_lost, dropCount, Nat.add_assoc]

theorem dropCount_of_room (room : (machine setup).Always (Room setup) start events) :
    dropCount setup start events = 0 := by
  induction events generalizing start with
  | nil => rfl
  | cons event events induction =>
      rw [dropCount, if_pos room.1, induction room.2]

def framePackets (before after : Camera Hook) : List Packet :=
  after.pool.captured.drop before.pool.captured.length

theorem framePackets_eq {before after : Camera Hook}
    (captured : (side after.pool).captured = (side before.pool).captured ++ packets) :
    framePackets before after = packets := by
  have captured_eq : after.pool.captured = before.pool.captured ++ packets := captured
  rw [framePackets, captured_eq, List.drop_left]

/-- Exactly one packet is marked end-of-frame, and it is the last. -/
def Terminated (packets : List Packet) : Prop :=
  ∃ front last, packets = front ++ [last] ∧ markedEof last = true ∧
    ∀ packet ∈ front, markedEof packet = false

theorem not_terminated_of_unmarked (unmarked : ∀ packet ∈ packets, markedEof packet = false) :
    ¬ Terminated packets := by
  rintro ⟨front, last, rfl, marked, -⟩
  have plain := unmarked last (List.mem_append_right front (List.mem_singleton_self last))
  rw [plain] at marked
  exact Bool.false_ne_true marked

section

variable (opened : setup.openType ≠ .spidma)
include opened

theorem markedEof_fillNode (frameId : UInt16) (hook : Hook) (curptr : List UInt8) (newlen : ℕ)
    (isEof : Bool) (frameLen : ℕ) :
    markedEof (fillNode setup frameId hook curptr newlen isEof frameLen).2 = isEof := by
  simp [fillNode, opened, markedEof]

theorem keptByFull_unmarked (frameId : UInt16) :
    KeptByFull setup frameId fun packets _ => ∀ packet ∈ packets, markedEof packet = false := by
  intro packets hook curptr unmarked packet member
  rcases List.mem_append.mp member with earlier | newest
  · exact unmarked packet earlier
  · rw [List.mem_singleton.mp newest]
    exact markedEof_fillNode opened frameId hook curptr setup.nodeLen false 0

theorem terminated_iff_of_room (delivers : Delivers frame events) (counter : start.dmaLen = 0)
    (stopped : start.delayTimer = false) (room : (machine setup).Always (Room setup) start events) :
    Terminated (framePackets start ((machine setup).run start events)) ↔
      ¬ setup.nodeLen ∣ frame.length := by
  obtain ⟨packets, dropped, hook, -, unmarked, ends⟩ :=
    frame_run delivers counter stopped
      (fun packet member => absurd member List.not_mem_nil)
      (keptByFull_unmarked opened (side start.pool).frameId)
  have lost_eq : (side ((machine setup).run start events).pool).lost = (side start.pool).lost := by
    rw [run_lost, dropCount_of_room room, Nat.add_zero]
  rcases ends with
    ⟨exact_fit, captured, lost⟩ | ⟨remainder, curptr, captured, lost⟩ | ⟨remainder, captured, lost⟩
  · rw [framePackets_eq captured]
    exact iff_of_false (not_terminated_of_unmarked unmarked) (not_not_intro exact_fit)
  · rw [framePackets_eq captured]
    refine iff_of_true ⟨packets, _, rfl, ?_, unmarked⟩ remainder
    exact markedEof_fillNode opened _ _ _ _ _ _
  · omega

end

/-- After any run of the camera and the video thread, a frame that is delivered with a free node for
each of its packets is terminated by exactly one end-of-frame packet, its last, if and only if its
length is not a multiple of the node size. -/
theorem frame_terminated_iff (setup : Setup Hook) (opened : setup.openType ≠ .spidma) (hook : Hook)
    (earlier : List Event) (frame : List UInt8) (events : List Event)
    (delivers : Delivers frame events)
    (between : ((machine setup).run (cameraIntferInit hook) earlier).dmaLen = 0 ∧
      ((machine setup).run (cameraIntferInit hook) earlier).delayTimer = false)
    (room : (machine setup).Always (Room setup)
      ((machine setup).run (cameraIntferInit hook) earlier) events) :
    Terminated
        (framePackets ((machine setup).run (cameraIntferInit hook) earlier)
          ((machine setup).run (cameraIntferInit hook) (earlier ++ events))) ↔
      ¬ setup.nodeLen ∣ frame.length := by
  rw [Machine.run_append]
  exact terminated_iff_of_room opened delivers between.1 between.2 room

end

/-- `app_demo_add_pkt_header`: frame number, end-of-frame flag, packet count, and a zero byte. -/
def appDemoAddPktHeader (state : Unit) (param : HdrParam) : Unit × List UInt8 :=
  (state,
    [UInt8.ofNat param.frameId, if param.isEof then 1 else 0, UInt8.ofNat param.frameLen, 0])

theorem header_of_four_fits : 4 ≤ tvideoRxnodeSizeUdp - tvideoRxnodeSizeTcp := by decide

/-- The setup of the UDP sender. -/
def appDemoUdpSetup : Setup Unit where
  openType := .sccb
  sendType := .udp
  sendFunc := true
  pktHeaderSize := 4
  addPktHeader := some appDemoAddPktHeader
  header_fits := header_of_four_fits

theorem run_dma_of_short {Hook : Type*} {setup : Setup Hook} {camera : Camera Hook}
    {bytes : List UInt8} (short : camera.dmaLen + bytes.length < setup.nodeLen) :
    (machine setup).run camera (bytes.map .dma) =
      { (machine setup).run camera (bytes.map .dma) with
        pool := camera.pool
        dmaLen := camera.dmaLen + bytes.length
        rxReadLen := camera.rxReadLen
        delayTimer := camera.delayTimer } := by
  induction bytes generalizing camera with
  | nil => rfl
  | cons byte bytes induction =>
      have unfilled : camera.dmaLen + 1 ≠ setup.nodeLen := by
        rw [List.length_cons] at short
        omega
      have step_eq : ((machine setup).step camera (.dma byte)).1 =
          { camera with
            rxbuf := Function.update camera.rxbuf camera.dmaPos byte
            dmaPos := (camera.dmaPos + 1) % rxbufLen setup
            dmaLen := camera.dmaLen + 1 } := by
        simp [machine, dmaReceive, if_neg unfilled]
      have shorter : camera.dmaLen + 1 + bytes.length < setup.nodeLen := by
        rw [List.length_cons] at short
        omega
      rw [List.map_cons, Machine.run_cons, step_eq, List.length_cons, Nat.add_comm bytes.length 1,
        ← Nat.add_assoc]
      exact induction shorter

/-- The events of a frame when the video thread does not run. -/
def plainDelivery (frame : List UInt8) : List Event :=
  frame.map .dma ++ [.frameEnd, .delayTimer frame.length]

theorem filter_isCamera_dma (bytes : List UInt8) :
    (bytes.map .dma).filter Event.isCamera = bytes.map .dma := by
  rw [List.filter_eq_self]
  intro event member
  obtain ⟨byte, -, rfl⟩ := List.mem_map.mp member
  rfl

theorem delivers_plainDelivery (frame : List UInt8) : Delivers frame (plainDelivery frame) :=
  ⟨frame.map .dma, [], rfl, filter_isCamera_dma frame, rfl⟩

/-- After a frame of one byte, whose packet the thread has picked, a frame of a node and a byte is
terminated. -/
theorem frame_terminated_second :
    let earlier : List Event := plainDelivery [0xff] ++ [.thread 0, .thread 0]
    let frame : List UInt8 := List.replicate 1469 0xff
    Terminated
        (framePackets ((machine appDemoUdpSetup).run (cameraIntferInit ()) earlier)
          ((machine appDemoUdpSetup).run (cameraIntferInit ()) (earlier ++ plainDelivery frame))) ↔
      ¬ appDemoUdpSetup.nodeLen ∣ frame.length := by
  intro earlier frame
  have between : ((machine appDemoUdpSetup).run (cameraIntferInit ()) earlier).dmaLen = 0 ∧
      ((machine appDemoUdpSetup).run (cameraIntferInit ()) earlier).delayTimer = false :=
    ⟨rfl, rfl⟩
  have room : (machine appDemoUdpSetup).Always (Room appDemoUdpSetup)
      ((machine appDemoUdpSetup).run (cameraIntferInit ()) earlier) (plainDelivery frame) := by
    decide +kernel
  exact frame_terminated_iff appDemoUdpSetup (by decide) () earlier frame (plainDelivery frame)
    (delivers_plainDelivery frame) between room

/-- A frame of exactly one node over UDP, with every node free: no end-of-frame packet is queued. -/
theorem full_node_frame_not_terminated :
    Delivers (List.replicate 1468 0xff) (plainDelivery (List.replicate 1468 0xff)) ∧
      (machine appDemoUdpSetup).Always (Room appDemoUdpSetup) (cameraIntferInit ())
        (plainDelivery (List.replicate 1468 0xff)) ∧
      ¬ Terminated
          (framePackets (cameraIntferInit ())
            ((machine appDemoUdpSetup).run (cameraIntferInit ())
              (plainDelivery (List.replicate 1468 0xff)))) := by
  have room : (machine appDemoUdpSetup).Always (Room appDemoUdpSetup) (cameraIntferInit ())
      (plainDelivery (List.replicate 1468 0xff)) := by
    decide +kernel
  have delivers := delivers_plainDelivery (List.replicate 1468 0xff)
  refine ⟨delivers, room, ?_⟩
  rw [terminated_iff_of_room (by decide) delivers rfl rfl room, List.length_replicate, not_not]
  exact Nat.dvd_refl 1468

end BdkFreertos.CameraFrame
