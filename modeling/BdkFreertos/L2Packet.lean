import BdkFreertos.HapdSockets
import BdkFreertos.MsduOwners
import Mathlib.Data.UInt

/-!
# Frames that are sent synchronously

`__l2_packet_send` waits for the transmission of its frame for five seconds.  The control block it
waits on is on its stack; the pointer to it travels with the frame through the queue of the core
thread, the node and the transmit descriptor, and nothing takes it back when the time is over.
-/

namespace BdkFreertos.L2Packet

open HapdIntf (Core Descriptor Processed)
open Msdu (System Decisions Action EthFrame)

def rwSuccess : ℤ := 0

/-- `RW_FAILURE`, as an `int`. -/
def rwFailure : ℤ := -1

def kTimeoutErr : ℤ := -6722

/-- `struct ieee80211_tx_cb`, with the count of its semaphore if there is one. -/
structure ControlBlock where
  result : ℤ
  sema : Option ℕ
  deriving DecidableEq

/-- How far a synchronous call of `__l2_packet_send` is. -/
inductive Phase
  /-- In `fsocket_send` or in `rtos_get_semaphore`. -/
  | waiting
  | woken
  /-- It has the value it is going to return. -/
  | decided (timedOut : Bool) (ret : ℤ)
  | closed (timedOut : Bool) (ret : ℤ)
  deriving DecidableEq

/-- A synchronous call that has not returned, with the address of its control block. -/
structure Sender where
  call : ℕ
  cb : UInt32
  phase : Phase
  deriving DecidableEq

/-- A synchronous call that has returned. -/
inductive Returned
  /-- There was no memory for the frame. -/
  | refused (ret : ℤ)
  | timedOut (call : ℕ) (ret : ℤ)
  | finished (call : ℕ) (ret : ℤ)
  deriving DecidableEq

/-- A call of `ieee80211_data_tx_cb`: the frame whose node it is for, whether it was transmitted,
and whether its sender had not returned. -/
structure Callback where
  frame : Option Processed
  success : Bool
  alive : Bool
  deriving DecidableEq

/-- The senders, the core thread and the nodes. -/
structure L2 where
  core : Core
  threads : System
  /-- The frame that each node was made of, for nodes of this path. -/
  origin : ℕ → Option Processed
  /-- The memory of control blocks. -/
  blocks : UInt32 → ControlBlock
  senders : List Sender
  returned : List Returned
  callbacks : List Callback

/-- At start; the memory holds anything. -/
def L2.start (tables : Msdu.MacTables) (blocks : UInt32 → ControlBlock) : L2 where
  core := .start
  threads := Msdu.systemInit tables
  origin := fun _ => none
  blocks := blocks
  senders := []
  returned := []
  callbacks := []

/-- The arguments of `__l2_packet_send`, the address of its control block, and which allocations
succeed. -/
structure Send where
  vifIndex : UInt8
  dstAddr : Fin 6 → UInt8
  ownAddr : Fin 6 → UInt8
  proto : UInt16
  buf : List UInt8
  sync : Bool
  cb : UInt32
  typeAllocated : Bool
  dataAllocated : Bool
  semaAllocated : Bool
  /-- Whether `fsocket_send` has memory. -/
  sent : Bool

def Send.dataBuf (send : Send) : List UInt8 :=
  List.ofFn send.dstAddr ++ List.ofFn send.ownAddr ++
    [UInt8.ofNat (send.proto.toNat / 2 ^ 8), UInt8.ofNat send.proto.toNat] ++ send.buf

/-- The header of a frame as `rwm_transfer_node` reads it. -/
def ethFrame (buf : List UInt8) : EthFrame where
  dest := buf.take 6
  src := (buf.drop 6).take 6
  proto := UInt16.ofNat (buf.getD 12 0).toNat + 2 ^ 8 * UInt16.ofNat (buf.getD 13 0).toNat
  len := UInt32.ofNat buf.length

/-- What happens. -/
inductive Event
  /-- `__l2_packet_send` up to the payload of its frame. -/
  | l2PacketSend (send : Send)
  /-- `fsocket_send` of a management frame up to its payload. -/
  | mgmtSend (robust : Bool) (vifIndex : UInt8) (buf : List UInt8) (allocated : Bool)
  /-- `bmsg_skt_tx_sender` of one of the calls. -/
  | bmsgSktTxSender (index : ℕ) (pushed : Bool)
  | peek
  /-- The handler receives the payload, and hands a data frame to `rwm_transfer`. -/
  | receive (allocated : Bool) (decisions : Decisions)
  /-- The handler gets the message for a management frame or not. -/
  | mgmtTx (allocated : Bool)
  /-- The core thread with other messages, and the other threads. -/
  | threads (action : Action)
  /-- `rwm_tx_confirm` of a descriptor. -/
  | rwmTxConfirm (index : ℕ) (success : Bool)
  /-- `rtos_get_semaphore` of a call gets the semaphore. -/
  | getSemaphore (call : ℕ)
  | timeOut (call : ℕ)
  /-- A call that was woken reads the result. -/
  | readResult (call : ℕ)
  /-- `rtos_deinit_semaphore`. -/
  | deinitSemaphore (call : ℕ)
  | leave (call : ℕ)

namespace L2

def setBlock (state : L2) (cb : UInt32) (block : ControlBlock) : L2 :=
  { state with blocks := Function.update state.blocks cb block }

/-- Move a call on. -/
def setPhase (state : L2) (call : ℕ) (phase : Phase) : L2 :=
  { state with
    senders := state.senders.map fun sender =>
      if sender.call = call then { sender with phase := phase } else sender }

def sender (state : L2) (call : ℕ) : Option Sender :=
  state.senders.find? fun sender => sender.call = call

end L2

/-- `__l2_packet_send` up to `bmsg_skt_tx_sender`. -/
def l2PacketSend (state : L2) (send : Send) : L2 :=
  if send.typeAllocated = false ∨ send.dataAllocated = false then
    if send.sync then { state with returned := state.returned ++ [.refused (-1)] } else state
  else
    let descriptor : Descriptor :=
      ⟨state.core.calls, .data, send.vifIndex, if send.sync then send.cb else 0, send.sync⟩
    let core := HapdIntf.fsocketSend state.core descriptor send.dataBuf send.sent
    if send.sync then
      { state.setBlock send.cb ⟨-1, if send.semaAllocated then some 0 else none⟩ with
        core := core
        senders := state.senders ++ [⟨state.core.calls, send.cb, .waiting⟩] }
    else { state with core := core }

/-- `fsocket_send` of a management frame. -/
def mgmtSend (state : L2) (robust : Bool) (vifIndex : UInt8) (buf : List UInt8)
    (allocated : Bool) : L2 :=
  { state with
    core := HapdIntf.fsocketSend state.core
      ⟨state.core.calls, if robust then .mgmtRobust else .mgmt, vifIndex, 0, false⟩ buf allocated }

/-- `rwm_transfer`, up to the first point where another thread may run. -/
def rwmTransfer (state : L2) (decisions : Decisions) (frame : Processed) : L2 :=
  let (tx, pc) := Msdu.takeMsg { decisions with copied := true } state.threads.tx
    (.tx frame.descriptor.vifIndex (ethFrame frame.buf) frame.descriptor.sync
      frame.descriptor.args.toNat)
  { state with
    threads := { state.threads with tx := tx, pc := pc }
    origin := Function.update state.origin state.threads.tx.heap.allocated.length (some frame) }

/-- The second part of `hapd_intf_ke_rx_handle`. -/
def receive (state : L2) (allocated : Bool) (decisions : Decisions) : L2 :=
  let core := HapdIntf.keRxReceive state.core allocated
  match core.processed.drop state.core.processed.length with
  | [] => { state with core := core }
  | frame :: _ => rwmTransfer { state with core := core } decisions frame

/-- `rtos_set_semaphore`; the count does not pass its limit of one. -/
def ControlBlock.give (block : ControlBlock) : ControlBlock :=
  { block with sema := block.sema.map fun _ => 1 }

def ieee80211DataTxCb (state : L2) (handle : ℕ) (args : ℕ) (success : Bool) : L2 :=
  let cb := UInt32.ofNat args
  let result := if success then rwSuccess else rwFailure
  let frame := state.origin handle
  { state.setBlock cb { state.blocks cb with result := result }.give with
    callbacks := state.callbacks ++ [{
      frame := frame
      success := success
      alive := frame.any fun frame =>
        state.senders.any fun sender => sender.call = frame.descriptor.call }] }

/-- `rwm_tx_confirm` of a descriptor with the MAC. -/
def rwmTxConfirm (state : L2) (index : ℕ) (success : Bool) : L2 :=
  let tx := state.threads.tx
  match tx.pushed[index]? with
  | none => state
  | some desc =>
      let (heap, node) := tx.heap.read desc.msduNode
      let tx := { tx with heap := heap, pushed := tx.pushed.eraseIdx index }
      let state :=
        { state with threads := { state.threads with tx := Msdu.rwmNodeFree tx desc.msduNode } }
      match node with
      | some node =>
          if desc.callback then ieee80211DataTxCb state desc.msduNode node.args success else state
      | none => state

/-- `rtos_get_semaphore`, once `fsocket_send` has returned. -/
def getSemaphore (state : L2) (call : ℕ) : L2 :=
  match state.sender call with
  | some ⟨_, cb, .waiting⟩ =>
      match (state.blocks cb).sema with
      | some (_ + 1) =>
          if call ∈ state.core.sending.map Descriptor.call then state
          else
            (state.setBlock cb { state.blocks cb with sema := some 0 }).setPhase call .woken
      | _ => state
  | _ => state

/-- `rtos_get_semaphore` without the semaphore. -/
def timeOut (state : L2) (call : ℕ) : L2 :=
  match state.sender call with
  | some ⟨_, cb, .waiting⟩ =>
      if (state.blocks cb).sema = some 0 ∧ call ∉ state.core.sending.map Descriptor.call then
        state.setPhase call (.decided true kTimeoutErr)
      else state
  | _ => state

/-- `ret = cb.result`. -/
def readResult (state : L2) (call : ℕ) : L2 :=
  match state.sender call with
  | some ⟨_, cb, .woken⟩ => state.setPhase call (.decided false (state.blocks cb).result)
  | _ => state

/-- `rtos_deinit_semaphore`. -/
def deinitSemaphore (state : L2) (call : ℕ) : L2 :=
  match state.sender call with
  | some ⟨_, cb, .decided timedOut ret⟩ =>
      (state.setBlock cb { state.blocks cb with sema := none }).setPhase call (.closed timedOut ret)
  | _ => state

/-- `return ret`. -/
def leave (state : L2) (call : ℕ) : L2 :=
  match state.sender call with
  | some ⟨_, _, .closed timedOut ret⟩ =>
      { state with
        senders := state.senders.filter fun sender => sender.call ≠ call
        returned := state.returned ++
          [if timedOut then .timedOut call ret else .finished call ret] }
  | _ => state

/-- Calls, the core thread, the other threads and completions in any order.  Control blocks of calls
that have not returned are at different addresses, and the core thread does one thing at a time. -/
def machine (nxMfp : Bool) : Machine L2 Event Unit where
  step state event :=
    (match event with
      | .l2PacketSend send =>
          if send.sync = true ∧ send.cb ∈ state.senders.map Sender.cb then state
          else l2PacketSend state send
      | .mgmtSend robust vifIndex buf allocated => mgmtSend state robust vifIndex buf allocated
      | .bmsgSktTxSender index pushed =>
          { state with core := HapdIntf.bmsgSktTxSender state.core index pushed }
      | .peek =>
          if state.threads.pc = .idle then
            { state with core := HapdIntf.keRxPeek nxMfp state.core }
          else state
      | .receive allocated decisions => receive state allocated decisions
      | .mgmtTx allocated => { state with core := HapdIntf.keRxMgmtTx state.core allocated }
      | .threads (.send (.tx vifIdx frame _ _)) =>
          -- Frames of the network stack have no control block.
          { state with
            threads := (Msdu.threads.step state.threads (.send (.tx vifIdx frame false 0))).1 }
      | .threads (.core decisions) =>
          if state.core.handler = .idle then
            { state with threads := (Msdu.threads.step state.threads (.core decisions)).1 }
          else state
      | .threads action => { state with threads := (Msdu.threads.step state.threads action).1 }
      | .rwmTxConfirm index success => rwmTxConfirm state index success
      | .getSemaphore call => getSemaphore state call
      | .timeOut call => timeOut state call
      | .readResult call => readResult state call
      | .deinitSemaphore call => deinitSemaphore state call
      | .leave call => leave state call, ())

/-! ## What is meant -/

namespace L2

def owners (state : L2) : List ℕ := Msdu.owners state.threads.pc.hand state.threads.tx

/-- The call whose synchronous frame a node carries. -/
def syncCall (state : L2) (handle : ℕ) : Option ℕ :=
  match state.threads.tx.heap.allocated[handle]? with
  | none => none
  | some msdu =>
      if msdu.sync then (state.origin handle).map fun frame => frame.descriptor.call else none

/-- The calls whose synchronous frames may still be transmitted: they are on the way to the core
thread, in a node, or with the MAC. -/
def onItsWay (state : L2) : List ℕ :=
  state.core.waiting.filterMap (fun descriptor =>
      if descriptor.sync then some descriptor.call else none) ++
    state.owners.filterMap state.syncCall

/-- A value is the status with which the frame of a call was transmitted. -/
def OwnStatus (state : L2) (call : ℕ) (ret : ℤ) : Prop :=
  ∃ callback ∈ state.callbacks, ∃ frame, callback.frame = some frame ∧
    frame.payload = some ⟨call, frame.buf⟩ ∧
      ret = if callback.success then rwSuccess else rwFailure

end L2

/-- No control block was written or signalled after its sender had returned, and a sender that has
returned without a time-out has returned the status of its own frame. -/
structure Good (state : L2) : Prop where
  alive : ∀ callback ∈ state.callbacks, callback.alive = true
  own : ∀ call ret, .finished call ret ∈ state.returned → state.OwnStatus call ret

/-- Descriptors of data frames come to the queue, and no synchronous one overtakes or is overtaken
by another one of its socket; the handler gets a buffer for every data frame; and no sender returns
after a time-out while its frame may still be transmitted. -/
def Careful (state : L2) : Event → Prop
  | .bmsgSktTxSender index pushed =>
      ∀ descriptor ∈ state.core.sending[index]?, descriptor.type = .data → pushed = true ∧
        ∀ earlier ∈ state.core.sending.take index, earlier.socket = descriptor.socket →
          earlier.sync = false ∧ descriptor.sync = false
  | .receive allocated _ =>
      ∀ descriptor payloadSize, state.core.handler = .peeked descriptor payloadSize →
        descriptor.type = .data → allocated = true
  | .leave call =>
      ∀ sender ∈ state.sender call, ∀ ret, sender.phase = .closed true ret →
        call ∉ state.onItsWay
  | _ => True

instance (state : L2) : DecidablePred (Careful state)
  | .bmsgSktTxSender index pushed =>
      inferInstanceAs (Decidable (∀ descriptor ∈ state.core.sending[index]?,
        descriptor.type = .data → pushed = true ∧
          ∀ earlier ∈ state.core.sending.take index, earlier.socket = descriptor.socket →
            earlier.sync = false ∧ descriptor.sync = false))
  | .receive allocated _ =>
      match handler_eq : state.core.handler with
      | .peeked descriptor _ =>
          decidable_of_iff (descriptor.type = .data → allocated = true)
            (by simp [Careful, handler_eq])
      | .idle | .received _ _ _ => isTrue (by simp [Careful, handler_eq])
  | .leave call =>
      match sender_eq : state.sender call with
      | some ⟨_, _, .closed true _⟩ =>
          decidable_of_iff (call ∉ state.onItsWay) (by simp [Careful, sender_eq])
      | some ⟨_, _, .closed false _⟩ | some ⟨_, _, .waiting⟩ | some ⟨_, _, .woken⟩
      | some ⟨_, _, .decided _ _⟩ | none => isTrue (by simp [Careful, sender_eq])
  | .l2PacketSend _ | .mgmtSend _ _ _ _ | .peek | .mgmtTx _ | .threads _ | .rwmTxConfirm _ _
  | .getSemaphore _ | .timeOut _ | .readResult _ | .deinitSemaphore _ => isTrue trivial

end BdkFreertos.L2Packet
