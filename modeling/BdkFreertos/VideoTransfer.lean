import BdkFreertos.Delivery
import BdkFreertos.Machine
import Mathlib.Data.List.Nodup
import Mathlib.Data.List.Perm.Basic
import Mathlib.Logic.Function.Basic

/-!
# The packet pool between the camera and the video sender

Capture interrupts copy received bytes into a node of a fixed pool and queue it; the video thread
hands the queued nodes to the registered send function and returns them to the free list.  The
thread's loop is split at every point where an interrupt can come: before the front node is picked,
while it is being sent, after the send, and between the two list operations that recycle it.
-/

namespace BdkFreertos.VideoTransfer

/-- `TVIDEO_OPEN_TYPE`. -/
inductive OpenType
  | none
  | sccb
  | spidma
  deriving DecidableEq

/-- `TVIDEO_SND_TYPE`. -/
inductive SndType
  | none
  | udp
  | tcp
  | intf
  | buffer
  deriving DecidableEq

/-- What `tvideo_rx_handler` tells the header callback about a packet, `TV_HDR_PARAM_ST`.  The
field `frameLen` holds the packet count of the frame. -/
structure HdrParam where
  ptklen : ℕ
  frameId : ℕ
  isEof : Bool
  frameLen : ℕ
  deriving DecidableEq

/-- `TVIDEO_RXNODE_SIZE_UDP`, also the size of a pool node. -/
def tvideoRxnodeSizeUdp : ℕ := 1472

def tvideoRxnodeSizeTcp : ℕ := 1460

/-- The nodes of the pool, `TVIDEO_POOL_LEN / TVIDEO_RXNODE_SIZE`. -/
def tvideoPoolNodes : ℕ := 25

def tvQitemCount : ℕ := 60

/-- The configuration `TVIDEO_SETUP_DESC_ST` of a transfer; the header callback works on a state of
its own. -/
structure Setup (Hook : Type*) where
  openType : OpenType
  sendType : SndType
  /-- Whether `send_func` is registered. -/
  sendFunc : Bool
  pktHeaderSize : ℕ
  /-- The callback `add_pkt_header`: the bytes it writes at the start of the node. -/
  addPktHeader : Option (Hook → HdrParam → Hook × List UInt8)
  /-- A node holds the header and the payload of every send type. -/
  header_fits : pktHeaderSize ≤ tvideoRxnodeSizeUdp - tvideoRxnodeSizeTcp

/-- The payload size that `tvideo_config_desc` chooses. -/
def Setup.nodeLen {Hook : Type*} (setup : Setup Hook) : ℕ :=
  match setup.sendType with
  | .udp =>
      if setup.openType ≠ .spidma then tvideoRxnodeSizeUdp - setup.pktHeaderSize
      else tvideoRxnodeSizeUdp
  | .tcp => tvideoRxnodeSizeTcp
  | .intf => tvideoRxnodeSizeUdp - setup.pktHeaderSize
  | .buffer => tvideoRxnodeSizeTcp
  | .none => tvideoRxnodeSizeTcp

/-- The contents of a filled node `TVIDEO_ELEM_ST`. -/
structure Packet where
  /-- The parameters the header was built from; a packet of the SPI path has none. -/
  param : Option HdrParam
  header : List UInt8
  payload : List UInt8
  bufLen : ℕ
  deriving DecidableEq

/-- A node that has not been filled. -/
def Packet.blank : Packet where
  param := none
  header := []
  payload := []
  bufLen := 0

/-- Where the video thread is. -/
inductive Phase
  | idle
  /-- At the top of the loop of `tvideo_poll_handler`. -/
  | polling
  /-- The front node is picked and about to be sent. -/
  | picked (node : ℕ)
  | sent (node : ℕ)
  /-- The node has left the ready list and not reached the free list. -/
  | popped (node : ℕ)
  deriving DecidableEq

/-- The pool `tvideo_pool` with the message queue, the thread's position and two histories. -/
structure Pool (Hook : Type*) where
  free : List ℕ
  ready : List ℕ
  elem : ℕ → Packet
  frameId : UInt16
  hook : Hook
  /-- Pending `TV_INT_POLL` messages. -/
  msgQue : ℕ
  phase : Phase
  captured : List Packet
  lost : ℕ
  /-- Every call of the send function so far with its packet and whether it took all of it. -/
  attempts : List (Packet × Bool)

section

variable {Hook : Type*} (setup : Setup Hook)

/-- `tvideo_pool_init`: every node is free. -/
def tvideoPoolInit (hook : Hook) : Pool Hook where
  free := List.range tvideoPoolNodes
  ready := []
  elem := fun _ => Packet.blank
  frameId := 0
  hook := hook
  msgQue := 0
  phase := .idle
  captured := []
  lost := 0
  attempts := []

/-- `tvideo_intfer_send_msg(TV_INT_POLL)`: a full queue refuses the message. -/
def tvideoIntferSendMsg (pool : Pool Hook) : Pool Hook :=
  if pool.msgQue < tvQitemCount then { pool with msgQue := pool.msgQue + 1 } else pool

/-- The packets of a frame, as `tvideo_rx_handler` counts them for an end-of-frame packet. -/
def pktCnt (isEof : Bool) (frameLen : ℕ) : ℕ :=
  if isEof then
    frameLen / setup.nodeLen + if frameLen % setup.nodeLen ≠ 0 then 1 else 0
  else
    0

/-- What `tvideo_rx_handler` writes into the node it picked, with the state of the header callback
afterwards. -/
def fillNode (frameId : UInt16) (hook : Hook) (curptr : List UInt8) (newlen : ℕ) (isEof : Bool)
    (frameLen : ℕ) : Hook × Packet :=
  if setup.openType ≠ .spidma then
    let param : HdrParam :=
      { ptklen := newlen
        frameId := frameId.toNat
        isEof := isEof
        frameLen := pktCnt setup isEof frameLen }
    let written :=
      match setup.addPktHeader with
      | some addPktHeader => addPktHeader hook param
      | none => (hook, [])
    (written.1,
      { param := some param
        header := written.2
        payload := curptr.take newlen
        bufLen := newlen + setup.pktHeaderSize })
  else
    (hook, { param := none, header := [], payload := curptr.take newlen, bufLen := newlen })

/-- The body of `tvideo_rx_handler` before it notifies the thread: the bytes at `curptr` go into
the first free node, or are lost when there is none. -/
def queuePacket (pool : Pool Hook) (curptr : List UInt8) (newlen : ℕ) (isEof : Bool)
    (frameLen : ℕ) : Pool Hook :=
  if newlen = 0 then
    pool
  else
    match pool.free with
    | [] => { pool with lost := pool.lost + 1 }
    | node :: rest =>
        let filled :=
          fillNode setup pool.frameId pool.hook curptr (min newlen setup.nodeLen) isEof frameLen
        { pool with
          hook := filled.1
          elem := Function.update pool.elem node filled.2
          free := rest
          ready := pool.ready ++ [node]
          captured := pool.captured ++ [filled.2] }

def tvideoRxHandler (pool : Pool Hook) (curptr : List UInt8) (newlen : ℕ) (isEof : Bool)
    (frameLen : ℕ) : Pool Hook :=
  tvideoIntferSendMsg (queuePacket setup pool curptr newlen isEof frameLen)

def tvideoEndFrameHandler (pool : Pool Hook) : Pool Hook :=
  tvideoIntferSendMsg
    (if setup.openType ≠ .spidma then { pool with frameId := pool.frameId + 1 } else pool)

/-- One step of `video_transfer_main`, which waits for a message and runs `tvideo_poll_handler`.
The argument is what `send_func` returns if this step calls it. -/
def tvideoPollStep (pool : Pool Hook) (sendLen : ℕ) : Pool Hook :=
  match pool.phase with
  | .idle =>
      if pool.msgQue = 0 then pool
      else { pool with msgQue := pool.msgQue - 1, phase := .polling }
  | .polling =>
      match pool.ready with
      | [] => { pool with phase := .idle }
      | node :: _ => { pool with phase := .picked node }
  | .picked node =>
      if setup.sendFunc then
        if sendLen ≠ (pool.elem node).bufLen then
          { pool with phase := .idle, attempts := pool.attempts ++ [(pool.elem node, false)] }
        else
          { pool with phase := .sent node, attempts := pool.attempts ++ [(pool.elem node, true)] }
      else
        { pool with phase := .sent node }
  | .sent node => { pool with phase := .popped node, ready := pool.ready.tail }
  | .popped node => { pool with phase := .polling, free := pool.free ++ [node] }

/-- What can happen to the pool. -/
inductive Event
  /-- A capture interrupt calls `tvideo_rx_handler`. -/
  | rx (curptr : List UInt8) (newlen : ℕ) (isEof : Bool) (frameLen : ℕ)
  /-- A capture interrupt calls `tvideo_end_frame_handler`. -/
  | endFrame
  /-- The video thread runs to its next step. -/
  | thread (sendLen : ℕ)
  deriving DecidableEq

/-- The pool as a machine over its events. -/
def machine : Machine (Pool Hook) Event Unit where
  step pool
    | .rx curptr newlen isEof frameLen =>
        (tvideoRxHandler setup pool curptr newlen isEof frameLen, ())
    | .endFrame => (tvideoEndFrameHandler setup pool, ())
    | .thread sendLen => (tvideoPollStep setup pool sendLen, ())

end

section

variable {Hook : Type*} {setup : Setup Hook} {pool : Pool Hook}

/-- The node that the thread has taken off the ready list and not yet put on the free list. -/
def Pool.inTransit (pool : Pool Hook) : List ℕ :=
  match pool.phase with
  | .popped node => [node]
  | _ => []

/-- The packets that still have to be sent, oldest first. -/
def Pool.unsent (pool : Pool Hook) : List Packet :=
  match pool.phase with
  | .sent _ => pool.ready.tail.map pool.elem
  | _ => pool.ready.map pool.elem

/-- What every event keeps. -/
structure Kept (setup : Setup Hook) (pool : Pool Hook) : Prop where
  nodes : (pool.free ++ pool.inTransit ++ pool.ready).Perm (List.range tvideoPoolNodes)
  front : ∀ node, pool.phase = .picked node ∨ pool.phase = .sent node →
    pool.ready.head? = some node
  order : setup.sendFunc = true → Delivery.Sends pool.captured pool.attempts pool.unsent
  silent : setup.sendFunc = false → pool.attempts = []
  last : ∀ node, setup.sendFunc = true → pool.phase = .sent node →
    pool.attempts.getLast? = some (pool.elem node, true)

theorem kept_init (hook : Hook) : Kept setup (tvideoPoolInit hook) where
  nodes := by simp [tvideoPoolInit, Pool.inTransit]
  front := by simp [tvideoPoolInit]
  order := fun _ => by simpa [tvideoPoolInit, Pool.unsent] using Delivery.Sends.start
  silent := fun _ => rfl
  last := by simp [tvideoPoolInit]

section

variable (kept : Kept setup pool)
include kept

theorem Kept.nodup : (pool.free ++ pool.inTransit ++ pool.ready).Nodup :=
  kept.nodes.nodup_iff.mpr List.nodup_range

/-- A change of the message queue or the frame number alone keeps everything. -/
theorem Kept.of_frame {next : Pool Hook} (free_eq : next.free = pool.free)
    (ready_eq : next.ready = pool.ready) (elem_eq : next.elem = pool.elem)
    (phase_eq : next.phase = pool.phase) (captured_eq : next.captured = pool.captured)
    (attempts_eq : next.attempts = pool.attempts) : Kept setup next where
  nodes := by simpa [Pool.inTransit, free_eq, ready_eq, phase_eq] using kept.nodes
  front := by simpa [ready_eq, phase_eq] using kept.front
  order := by
    simpa [Pool.unsent, ready_eq, elem_eq, phase_eq, captured_eq, attempts_eq] using kept.order
  silent := by simpa [attempts_eq] using kept.silent
  last := by simpa [phase_eq, attempts_eq, elem_eq] using kept.last

theorem Kept.tvideoIntferSendMsg : Kept setup (tvideoIntferSendMsg pool) := by
  unfold VideoTransfer.tvideoIntferSendMsg
  split
  · exact kept.of_frame rfl rfl rfl rfl rfl rfl
  · exact kept

theorem Kept.tvideoEndFrameHandler : Kept setup (tvideoEndFrameHandler setup pool) := by
  apply Kept.tvideoIntferSendMsg
  split
  · exact kept.of_frame rfl rfl rfl rfl rfl rfl
  · exact kept

end

theorem map_update_of_notMem {nodes : List ℕ} {node : ℕ} (absent : node ∉ nodes)
    (elem : ℕ → Packet) (packet : Packet) :
    nodes.map (Function.update elem node packet) = nodes.map elem := by
  apply List.map_congr_left
  intro other member
  have different : other ≠ node := by
    rintro rfl
    exact absent member
  exact Function.update_of_ne different packet elem

theorem unsent_fill (kept : Kept setup pool) {node : ℕ} (absent : node ∉ pool.ready)
    (packet : Packet) (rest : List ℕ) (hook : Hook) :
    Pool.unsent { pool with
      hook := hook
      elem := Function.update pool.elem node packet
      free := rest
      ready := pool.ready ++ [node]
      captured := pool.captured ++ [packet] } = pool.unsent ++ [packet] := by
  have front := kept.front
  rcases pool with ⟨free, ready, elem, frameId, oldHook, msgQue, phase, captured, lost, attempts⟩
  cases phase with
  | sent first =>
      obtain ⟨tail, rfl⟩ : ∃ tail, ready = first :: tail := by
        have head := front first (Or.inr rfl)
        cases ready with
        | nil => simp at head
        | cons other tail => exact ⟨tail, by simpa using head⟩
      have absent_tail : node ∉ tail := fun member => absent (List.mem_cons_of_mem first member)
      simp [Pool.unsent, map_update_of_notMem absent_tail]
  | _ => simp [Pool.unsent, map_update_of_notMem absent]

theorem Kept.queuePacket (kept : Kept setup pool) (curptr : List UInt8) (newlen : ℕ)
    (isEof : Bool) (frameLen : ℕ) :
    Kept setup (queuePacket setup pool curptr newlen isEof frameLen) := by
  unfold VideoTransfer.queuePacket
  split
  · exact kept
  split
  · exact kept.of_frame rfl rfl rfl rfl rfl rfl
  · next node rest free_eq =>
      have nodup := kept.nodup
      rw [free_eq] at nodup
      have absent : node ∉ pool.ready := by
        simp only [List.cons_append, List.nodup_cons, List.mem_append, not_or] at nodup
        exact nodup.1.2
      refine
        { nodes := ?_
          front := ?_
          order := ?_
          silent := kept.silent
          last := ?_ }
      · have nodes := kept.nodes
        rw [free_eq] at nodes
        refine List.Perm.trans ?_ nodes
        rw [← List.append_assoc, List.cons_append, List.cons_append]
        exact List.perm_append_singleton node _
      · intro other busy
        have head := kept.front other busy
        simp [List.head?_append, head]
      · intro registered
        rw [unsent_fill kept absent]
        exact (kept.order registered).queued _
      · intro other registered busy
        have head := kept.front other (Or.inr busy)
        have different : other ≠ node := by
          rintro rfl
          exact absent (List.mem_of_mem_head? head)
        simpa [Function.update_of_ne different] using kept.last other registered busy

theorem Kept.tvideoPollStep (kept : Kept setup pool) (sendLen : ℕ) :
    Kept setup (tvideoPollStep setup pool sendLen) := by
  have nodes := kept.nodes
  have front := kept.front
  have order := kept.order
  have silent := kept.silent
  have last := kept.last
  unfold VideoTransfer.tvideoPollStep
  cases phase_eq : pool.phase with
  | idle =>
      simp only [Pool.inTransit, Pool.unsent, phase_eq] at nodes order
      dsimp only
      split
      · exact kept
      · exact
          { nodes := nodes
            front := by simp
            order := order
            silent := silent
            last := by simp }
  | polling =>
      simp only [Pool.inTransit, Pool.unsent, phase_eq] at nodes order
      dsimp only
      split
      · exact
          { nodes := nodes
            front := by simp
            order := order
            silent := silent
            last := by simp }
      · next node rest ready_eq =>
          exact
            { nodes := nodes
              front := by simp [ready_eq]
              order := order
              silent := silent
              last := by simp }
  | picked node =>
      simp only [Pool.inTransit, Pool.unsent, phase_eq] at nodes order
      obtain ⟨rest, ready_eq⟩ := List.head?_eq_some_iff.mp (front node (Or.inl phase_eq))
      dsimp only
      split
      · next registered =>
          have sends := order registered
          rw [ready_eq, List.map_cons] at sends
          split
          · exact
              { nodes := nodes
                front := by simp
                order := fun _ => by simpa [Pool.unsent, ready_eq] using sends.refused
                silent := by simp [registered]
                last := by simp }
          · exact
              { nodes := nodes
                front := by simp [ready_eq]
                order := fun _ => by simpa [Pool.unsent, ready_eq] using sends.accepted
                silent := by simp [registered]
                last := by simp }
      · next unregistered =>
          exact
            { nodes := nodes
              front := by simp [ready_eq]
              order := fun registered => absurd registered unregistered
              silent := silent
              last := fun _ registered => absurd registered unregistered }
  | sent node =>
      simp only [Pool.inTransit, Pool.unsent, phase_eq] at nodes order
      obtain ⟨rest, ready_eq⟩ := List.head?_eq_some_iff.mp (front node (Or.inr phase_eq))
      exact
        { nodes := by simpa [Pool.inTransit, ready_eq] using nodes
          front := by simp
          order := order
          silent := silent
          last := by simp }
  | popped node =>
      simp only [Pool.inTransit, Pool.unsent, phase_eq] at nodes order
      exact
        { nodes := by simpa [Pool.inTransit] using nodes
          front := by simp
          order := order
          silent := silent
          last := by simp }

theorem Kept.step (kept : Kept setup pool) (event : Event) :
    Kept setup ((machine setup).step pool event).1 := by
  cases event with
  | rx curptr newlen isEof frameLen =>
      exact (kept.queuePacket curptr newlen isEof frameLen).tvideoIntferSendMsg
  | endFrame => exact kept.tvideoEndFrameHandler
  | thread sendLen => exact kept.tvideoPollStep sendLen

theorem kept_run (hook : Hook) (events : List Event) :
    Kept setup ((machine setup).run (tvideoPoolInit hook) events) :=
  (machine setup).run_invariant_of_step (Kept setup) (kept_init hook)
    (fun event kept => kept.step event) events

theorem Kept.ready_of_refused (kept : Kept setup pool) {packet : Packet}
    (last : pool.attempts.getLast? = some (packet, false)) :
    (pool.ready.map pool.elem).head? = some packet := by
  have registered : setup.sendFunc = true := by
    by_contra unregistered
    simp [kept.silent (by simpa using unregistered)] at last
  have head := (kept.order registered).front_of_refused last
  unfold Pool.unsent at head
  split at head
  · next node phase_eq =>
      rw [kept.last node registered phase_eq] at last
      simp at last
  · exact head

/-- What the pool promises its users. -/
structure Contract (pool : Pool Hook) : Prop where
  conserved : (pool.free ++ pool.inTransit ++ pool.ready).Perm (List.range tvideoPoolNodes)
  settled : pool.inTransit = [] →
    (pool.free ++ pool.ready).Perm (List.range tvideoPoolNodes)
  disjoint : List.Disjoint pool.free pool.ready
  in_order : ∀ attempt packet answer, pool.attempts[attempt]? = some (packet, answer) →
    pool.captured[Delivery.position pool.attempts attempt]? = some packet
  sent_once : ∀ attempt later packet, pool.attempts[attempt]? = some (packet, true) →
    attempt < later →
      Delivery.position pool.attempts attempt < Delivery.position pool.attempts later
  kept_at_front : ∀ packet, pool.attempts.getLast? = some (packet, false) →
    (pool.ready.map pool.elem).head? = some packet

/-- Every run of captures, frame ends and steps of the video thread, with whatever the send
function answers, keeps the contract. -/
theorem pool_keeps_contract (setup : Setup Hook) (hook : Hook) (events : List Event) :
    Contract ((machine setup).run (tvideoPoolInit hook) events) := by
  have kept : Kept setup ((machine setup).run (tvideoPoolInit hook) events) :=
    kept_run hook events
  refine
    { conserved := kept.nodes
      settled := ?_
      disjoint := ?_
      in_order := ?_
      sent_once := ?_
      kept_at_front := fun packet last => kept.ready_of_refused last }
  · intro settled
    simpa [settled] using kept.nodes
  · have nodup := kept.nodup
    rw [List.append_assoc] at nodup
    intro node free ready
    exact List.disjoint_of_nodup_append nodup free (List.mem_append_right _ ready)
  · intro attempt packet answer made
    cases registered : setup.sendFunc with
    | false => simp [kept.silent registered] at made
    | true => exact (kept.order registered).offers made
  · intro attempt later packet made after
    exact Delivery.position_lt_of_accepted made after

end

end BdkFreertos.VideoTransfer
