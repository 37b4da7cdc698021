import BdkFreertos.Machine
import Mathlib.Data.List.Basic
import Mathlib.Logic.Function.Basic

/-!
# Frames of the supplicant and their descriptors

`fsocket_send` queues the bytes of a frame on its socket and a descriptor on the queue of the core
thread, one after the other.  `hapd_intf_ke_rx_handle` takes a descriptor and then the next bytes of
the socket that the descriptor is for.
-/

namespace BdkFreertos.HapdIntf

/-- The values of `type` in `S_TYPE_ST`. -/
inductive FrameType
  /-- `HOSTAPD_MGMT`. -/
  | mgmt
  /-- `HOSTAPD_MGMT_ROBUST`. -/
  | mgmtRobust
  /-- `HOSTAPD_DATA`. -/
  | data
  deriving DecidableEq

/-- The record `S_TYPE_ST`, with the call of `fsocket_send` that it belongs to. -/
structure Descriptor where
  call : ℕ
  type : FrameType
  vifIndex : UInt8
  /-- The control block of a frame that is sent synchronously. -/
  args : UInt32
  sync : Bool
  deriving DecidableEq

/-- The bytes of a frame, with the call of `fsocket_send` that they belong to. -/
structure Payload where
  call : ℕ
  bytes : List UInt8
  deriving DecidableEq

/-- `SK_INTF_MGMT_SOCKET_NUM`: `PF_PACKET`, `SOCK_RAW` and `ETH_P_ALL`. -/
def skIntfMgmtSocketNum : ℕ := 17 + 3 + 0x0003

/-- `SK_INTF_DATA_SOCKET_NUM`: `PF_PACKET`, `SOCK_RAW` and `ETH_P_PAE`. -/
def skIntfDataSocketNum : ℕ := 17 + 3 + 0x888E

def mgmtGetSocketNum (vifIdx : UInt8) : ℕ := skIntfMgmtSocketNum + vifIdx.toNat

def dataGetSocketNum (vifIdx : UInt8) : ℕ := skIntfDataSocketNum + vifIdx.toNat

/-- The socket that a frame is sent on and received from. -/
def Descriptor.socket (descriptor : Descriptor) : ℕ :=
  match descriptor.type with
  | .mgmt | .mgmtRobust => mgmtGetSocketNum descriptor.vifIndex
  | .data => dataGetSocketNum descriptor.vifIndex

/-- How far `hapd_intf_ke_rx_handle` is. -/
inductive Handler
  | idle
  /-- It has the descriptor and the length of the next payload, and allocates a buffer. -/
  | peeked (descriptor : Descriptor) (payloadSize : ℕ)
  /-- It has a management frame in its buffer, and allocates the message for it. -/
  | received (descriptor : Descriptor) (payload : Option Payload) (buf : List UInt8)
  deriving DecidableEq

/-- A frame handed on with what its descriptor says: by `rwm_transfer` or as `ME_MGMT_TX_REQ`. -/
structure Processed where
  descriptor : Descriptor
  payload : Option Payload
  buf : List UInt8
  deriving DecidableEq

/-- The queues, the calls of `fsocket_send` and the handler. -/
structure Core where
  /-- `sk_tx_msg` of the sockets. -/
  skTxMsg : ℕ → List Payload
  /-- Calls that have queued the payload and not come to the descriptor. -/
  sending : List Descriptor
  /-- The descriptors in `g_wifi_core.io_queue`. -/
  ioQueue : List Descriptor
  handler : Handler
  /-- An `ASSERT` has failed. -/
  asserted : Bool
  /-- The number of calls of `fsocket_send` so far. -/
  calls : ℕ
  processed : List Processed

def Core.start : Core := ⟨fun _ => [], [], [], .idle, false, 0, []⟩

/-- What happens. -/
inductive Event
  /-- `fsocket_send` up to its descriptor; its allocations succeed or fail. -/
  | fsocketSend (type : FrameType) (vifIndex : UInt8) (args : UInt32) (sync : Bool)
      (buf : List UInt8) (allocated : Bool)
  /-- `bmsg_skt_tx_sender` of one of the calls; the queue takes the descriptor or is full. -/
  | bmsgSktTxSender (index : ℕ) (pushed : Bool)
  /-- The core thread takes a descriptor and looks for the length of the next payload. -/
  | peek
  | receive (allocated : Bool)
  /-- The handler gets the message for a management frame or not. -/
  | mgmtTx (allocated : Bool)

/-- The first part of `fsocket_send`. -/
def fsocketSend (core : Core) (descriptor : Descriptor) (buf : List UInt8) (allocated : Bool) :
    Core :=
  if allocated then
    { core with
      skTxMsg := Function.update core.skTxMsg descriptor.socket
        (core.skTxMsg descriptor.socket ++ [⟨descriptor.call, buf⟩])
      sending := core.sending ++ [descriptor]
      calls := core.calls + 1 }
  else
    { core with calls := core.calls + 1 }

/-- `bmsg_skt_tx_sender`, whose result is only printed. -/
def bmsgSktTxSender (core : Core) (index : ℕ) (pushed : Bool) : Core :=
  match core.sending[index]? with
  | none => core
  | some descriptor =>
      { core with
        sending := core.sending.eraseIdx index
        ioQueue := if pushed then core.ioQueue ++ [descriptor] else core.ioQueue }

/-- `ke_sk_recv_peek_next_payload_size`. -/
def peekSize (core : Core) (descriptor : Descriptor) : ℕ :=
  match core.skTxMsg descriptor.socket with
  | [] => 0
  | payload :: _ => payload.bytes.length

/-- `hapd_intf_ke_rx_handle` up to its first allocation, with management frame protection
(`NX_MFP`) or without. -/
def keRxPeek (nxMfp : Bool) (core : Core) : Core :=
  match core.handler, core.ioQueue with
  | .idle, descriptor :: rest =>
      let payloadSize := peekSize core descriptor
      let core := { core with ioQueue := rest }
      match descriptor.type with
      | .mgmtRobust =>
          if nxMfp = false then core
          else if payloadSize = 0 then { core with asserted := true }
          else { core with handler := .peeked descriptor payloadSize }
      | .mgmt =>
          if payloadSize = 0 then { core with asserted := true }
          else { core with handler := .peeked descriptor payloadSize }
      | .data => { core with handler := .peeked descriptor payloadSize }
  | _, _ => core

/-- The handler hands a frame on, or keeps a management frame for its message. -/
def handOn (core : Core) (descriptor : Descriptor) (payload : Option Payload)
    (buf : List UInt8) : Core :=
  match descriptor.type with
  | .mgmt | .mgmtRobust => { core with handler := .received descriptor payload buf }
  | .data =>
      { core with handler := .idle, processed := core.processed ++ [⟨descriptor, payload, buf⟩] }

/-- The first allocation of `hapd_intf_ke_rx_handle`, and `ke_sk_recv`. -/
def keRxReceive (core : Core) (allocated : Bool) : Core :=
  match core.handler with
  | .peeked descriptor payloadSize =>
      if allocated = false then { core with handler := .idle }
      else
        match core.skTxMsg descriptor.socket with
        | [] => handOn core descriptor none []
        | payload :: rest =>
            let count := min payload.bytes.length payloadSize
            if count = 0 then { core with asserted := true }
            else
              handOn { core with skTxMsg := Function.update core.skTxMsg descriptor.socket rest }
                descriptor (some payload) (payload.bytes.take count)
  | _ => core

/-- The second allocation of `hapd_intf_ke_rx_handle`. -/
def keRxMgmtTx (core : Core) (allocated : Bool) : Core :=
  match core.handler with
  | .received descriptor payload buf =>
      if allocated then
        { core with handler := .idle, processed := core.processed ++ [⟨descriptor, payload, buf⟩] }
      else { core with handler := .idle }
  | _ => core

/-- Calls of `fsocket_send` and runs of the handler in any order. -/
def core (nxMfp : Bool) : Machine Core Event Unit where
  step state event :=
    (match event with
      | .fsocketSend type vifIndex args sync buf allocated =>
          fsocketSend state ⟨state.calls, type, vifIndex, args, sync⟩ buf allocated
      | .bmsgSktTxSender index pushed => bmsgSktTxSender state index pushed
      | .peek => keRxPeek nxMfp state
      | .receive allocated => keRxReceive state allocated
      | .mgmtTx allocated => keRxMgmtTx state allocated, ())

/-- The descriptor that the handler has taken, whose payload is still in its socket. -/
def Handler.waiting : Handler → List Descriptor
  | .peeked descriptor _ => [descriptor]
  | _ => []

/-- The descriptors whose payload is still in its socket, in the order in which the handler comes to
them. -/
def Core.waiting (state : Core) : List Descriptor :=
  state.handler.waiting ++ state.ioQueue ++ state.sending

/-- The bytes are exactly those that the call of the descriptor has sent. -/
def Matches (descriptor : Descriptor) (payload : Option Payload) (buf : List UInt8) : Prop :=
  payload = some ⟨descriptor.call, buf⟩

/-- The payloads of every socket are in the order of their descriptors. -/
def InStep (skTxMsg : ℕ → List Payload) (waiting : List Descriptor) : Prop :=
  ∀ socket, (skTxMsg socket).map Payload.call =
    (waiting.filter fun descriptor => descriptor.socket = socket).map Descriptor.call

/-- Every descriptor was handled with its own payload, and so will be those that are waiting: the
payloads of every socket are in the order of their descriptors. -/
structure Good (state : Core) : Prop where
  processed : ∀ frame ∈ state.processed, Matches frame.descriptor frame.payload frame.buf
  inStep : InStep state.skTxMsg state.waiting
  notAsserted : state.asserted = false

/-- Descriptors come to the queue, in the order of the payloads of their socket; a payload is not
empty when its descriptor is handled, the handler knows its type and gets a buffer for it. -/
def Careful (nxMfp : Bool) (state : Core) : Event → Prop
  | .bmsgSktTxSender index pushed =>
      ∀ descriptor ∈ state.sending[index]?, pushed = true ∧
        ∀ earlier ∈ state.sending.take index, earlier.socket ≠ descriptor.socket
  | .peek =>
      ∀ descriptor ∈ state.ioQueue.head?, state.handler = .idle →
        (descriptor.type = .mgmtRobust → nxMfp = true) ∧
          (descriptor.type ≠ .data → peekSize state descriptor ≠ 0)
  | .receive allocated =>
      ∀ descriptor payloadSize, state.handler = .peeked descriptor payloadSize →
        allocated = true ∧ payloadSize ≠ 0
  | _ => True

section
variable {skTxMsg : ℕ → List Payload} {descriptor : Descriptor} {front middle back : List Descriptor}

theorem filter_own (descriptor : Descriptor) (back : List Descriptor) :
    (descriptor :: back).filter (fun other => other.socket = descriptor.socket) =
      descriptor :: back.filter fun other => other.socket = descriptor.socket :=
  List.filter_cons_of_pos (by simp)

theorem InStep.queue (inStep : InStep skTxMsg front) (buf : List UInt8) :
    InStep (Function.update skTxMsg descriptor.socket
      (skTxMsg descriptor.socket ++ [⟨descriptor.call, buf⟩])) (front ++ [descriptor]) := by
  intro socket
  by_cases same : socket = descriptor.socket
  · subst same
    rw [Function.update_self, List.map_append, inStep, List.filter_append]
    simp
  · rw [Function.update_of_ne same, inStep, List.filter_append]
    simp [Ne.symm same]

theorem InStep.next (inStep : InStep skTxMsg (descriptor :: back)) :
    ∃ payload rest, skTxMsg descriptor.socket = payload :: rest ∧
      payload.call = descriptor.call ∧
      InStep (Function.update skTxMsg descriptor.socket rest) back := by
  have own := inStep descriptor.socket
  rw [filter_own, List.map_cons] at own
  obtain ⟨payload, rest, msgs_eq, call_eq, rest_eq⟩ := List.map_eq_cons_iff.mp own
  refine ⟨payload, rest, msgs_eq, call_eq, fun socket => ?_⟩
  by_cases same : socket = descriptor.socket
  · subst same
    rw [Function.update_self, rest_eq]
  · rw [Function.update_of_ne same, inStep, List.filter_cons_of_neg (by simpa using Ne.symm same)]

theorem InStep.not_lost (inStep : InStep skTxMsg (front ++ descriptor :: back)) :
    ¬InStep skTxMsg (front ++ back) := by
  intro lost
  have lengths := congrArg List.length ((inStep descriptor.socket).symm.trans
    (lost descriptor.socket))
  simp only [List.length_map, List.filter_append, List.length_append, filter_own,
    List.length_cons] at lengths
  omega

theorem InStep.overtake (inStep : InStep skTxMsg (front ++ middle ++ descriptor :: back))
    (others : ∀ earlier ∈ middle, earlier.socket ≠ descriptor.socket) :
    InStep skTxMsg (front ++ descriptor :: (middle ++ back)) := by
  intro socket
  rw [inStep]
  simp only [List.filter_append, List.filter_cons]
  by_cases same : descriptor.socket = socket
  · have none_left : middle.filter (fun earlier => earlier.socket = socket) = [] := by
      rw [List.filter_eq_nil_iff]
      intro earlier member
      simpa [← same] using others earlier member
    simp [none_left, same]
  · simp [same]

theorem InStep.not_overtake (inStep : InStep skTxMsg (front ++ middle ++ descriptor :: back))
    (distinct : ((front ++ middle ++ descriptor :: back).map Descriptor.call).Nodup)
    (overtaken : InStep skTxMsg (front ++ descriptor :: (middle ++ back))) :
    ∀ earlier ∈ middle, earlier.socket ≠ descriptor.socket := by
  intro earlier member same
  have orders := (inStep descriptor.socket).symm.trans (overtaken descriptor.socket)
  have first : earlier ∈ middle.filter fun other => other.socket = descriptor.socket :=
    List.mem_filter.mpr ⟨member, by simpa using same⟩
  simp only [List.filter_append, List.map_append, List.append_assoc, filter_own, List.map_cons]
    at orders
  have orders := List.append_cancel_left orders
  cases filtered : middle.filter fun other => other.socket = descriptor.socket with
  | nil => exact absurd (filtered ▸ first) List.not_mem_nil
  | cons head rest =>
      rw [filtered] at orders
      have same_call : head.call = descriptor.call := (List.cons.inj orders).1
      have head_mem : head ∈ middle := (List.mem_filter.mp (filtered ▸ List.mem_cons_self)).1
      rw [List.append_assoc, List.map_append, List.map_append] at distinct
      have apart := (List.nodup_append.mp (List.nodup_append.mp distinct).2.1).2.2
      exact apart head.call (List.mem_map_of_mem head_mem) descriptor.call
        (List.mem_map_of_mem List.mem_cons_self) same_call

end

/-- What holds besides the claim. -/
structure Strong (state : Core) : Prop where
  good : Good state
  peeked : ∀ descriptor payloadSize, state.handler = .peeked descriptor payloadSize →
    payloadSize = peekSize state descriptor
  received : ∀ descriptor payload buf, state.handler = .received descriptor payload buf →
    Matches descriptor payload buf
  distinct : (state.waiting.map Descriptor.call).Nodup
  earlier : ∀ descriptor ∈ state.waiting, descriptor.call < state.calls

theorem strong_start : Strong .start where
  good := ⟨fun _ member => absurd member List.not_mem_nil, fun _ => rfl, rfl⟩
  peeked _ _ equal := absurd equal (by simp [Core.start])
  received _ _ _ equal := absurd equal (by simp [Core.start])
  distinct := List.nodup_nil
  earlier _ member := absurd member List.not_mem_nil

section
variable {state : Core}

theorem Strong.fsocketSend (strong : Strong state) {descriptor : Descriptor}
    (call_eq : descriptor.call = state.calls) (buf : List UInt8) (allocated : Bool) :
    Strong (HapdIntf.fsocketSend state descriptor buf allocated) := by
  cases allocated with
  | false =>
      exact { strong with
        good := ⟨strong.good.processed, strong.good.inStep, strong.good.notAsserted⟩
        earlier := fun other member => Nat.lt_succ_of_lt (strong.earlier other member) }
  | true =>
      have waiting_eq : (HapdIntf.fsocketSend state descriptor buf true).waiting =
          state.waiting ++ [descriptor] := by
        simp [HapdIntf.fsocketSend, Core.waiting]
      constructor
      · refine ⟨strong.good.processed, ?_, strong.good.notAsserted⟩
        rw [waiting_eq]
        exact strong.good.inStep.queue buf
      · intro taken payloadSize handler_eq
        have handler_eq : state.handler = .peeked taken payloadSize := handler_eq
        rw [strong.peeked taken payloadSize handler_eq]
        have inStep := strong.good.inStep
        rw [Core.waiting, handler_eq] at inStep
        obtain ⟨payload, rest, msgs_eq, -, -⟩ := InStep.next inStep
        show _ = peekSize { state with skTxMsg := _, sending := _, calls := _ } taken
        simp only [peekSize]
        by_cases same : taken.socket = descriptor.socket
        · rw [same] at msgs_eq ⊢
          rw [Function.update_self, msgs_eq]
          rfl
        · rw [Function.update_of_ne same]
      · exact strong.received
      · rw [waiting_eq, List.map_append, List.nodup_append]
        refine ⟨strong.distinct, by simp, ?_⟩
        intro call member other other_mem equal
        obtain ⟨earlier, earlier_mem, rfl⟩ := List.mem_map.mp member
        have other_eq : other = descriptor.call := by simpa using other_mem
        have := strong.earlier earlier earlier_mem
        omega
      · intro other member
        rw [waiting_eq, List.mem_append, List.mem_singleton] at member
        rcases member with member | rfl
        · exact Nat.lt_succ_of_lt (strong.earlier other member)
        · exact call_eq ▸ Nat.lt_succ_self _

variable {index : ℕ} {descriptor : Descriptor}

theorem sending_split (found : state.sending[index]? = some descriptor) :
    state.sending = state.sending.take index ++ descriptor :: state.sending.drop (index + 1) ∧
      state.sending.eraseIdx index = state.sending.take index ++ state.sending.drop (index + 1) := by
  obtain ⟨inside, rfl⟩ := List.getElem?_eq_some_iff.mp found
  refine ⟨?_, List.eraseIdx_eq_take_drop_succ ..⟩
  rw [← List.drop_eq_getElem_cons, List.take_append_drop]

/-- The descriptors that wait before and after one of the calls under way pushes its own. -/
theorem waiting_pushed (found : state.sending[index]? = some descriptor) :
    state.waiting = (state.handler.waiting ++ state.ioQueue) ++ state.sending.take index ++
        descriptor :: state.sending.drop (index + 1) ∧
      (bmsgSktTxSender state index true).waiting = (state.handler.waiting ++ state.ioQueue) ++
        descriptor :: (state.sending.take index ++ state.sending.drop (index + 1)) ∧
      (bmsgSktTxSender state index false).waiting = (state.handler.waiting ++ state.ioQueue) ++
        state.sending.take index ++ state.sending.drop (index + 1) := by
  obtain ⟨sending_eq, erased_eq⟩ := sending_split found
  refine ⟨?_, ?_, ?_⟩
  · rw [Core.waiting]
    nth_rewrite 1 [sending_eq]
    simp
  · simp [bmsgSktTxSender, found, Core.waiting, erased_eq]
  · simp [bmsgSktTxSender, found, Core.waiting, erased_eq]

theorem bmsgSktTxSender_frame (state : Core) (index : ℕ) (pushed : Bool) :
    (bmsgSktTxSender state index pushed).skTxMsg = state.skTxMsg ∧
      (bmsgSktTxSender state index pushed).handler = state.handler ∧
      (bmsgSktTxSender state index pushed).asserted = state.asserted ∧
      (bmsgSktTxSender state index pushed).calls = state.calls ∧
      (bmsgSktTxSender state index pushed).processed = state.processed := by
  unfold bmsgSktTxSender
  split <;> exact ⟨rfl, rfl, rfl, rfl, rfl⟩

theorem Strong.bmsgSktTxSender (strong : Strong state)
    (found : state.sending[index]? = some descriptor)
    (others : ∀ earlier ∈ state.sending.take index, earlier.socket ≠ descriptor.socket) :
    Strong (HapdIntf.bmsgSktTxSender state index true) := by
  obtain ⟨waiting_eq, pushed_eq, -⟩ := waiting_pushed found
  obtain ⟨msgs_eq, handler_eq, asserted_eq, calls_eq, processed_eq⟩ :=
    bmsgSktTxSender_frame state index true
  have moved : (HapdIntf.bmsgSktTxSender state index true).waiting.Perm state.waiting := by
    rw [waiting_eq, pushed_eq,
      List.append_assoc (state.handler.waiting ++ state.ioQueue) (state.sending.take index)]
    exact (List.perm_middle.symm).append_left _
  constructor
  · constructor
    · rw [processed_eq]
      exact strong.good.processed
    · rw [msgs_eq, pushed_eq]
      exact InStep.overtake (waiting_eq ▸ strong.good.inStep) others
    · rw [asserted_eq]
      exact strong.good.notAsserted
  · intro taken payloadSize handler
    rw [handler_eq] at handler
    rw [strong.peeked taken payloadSize handler, peekSize, peekSize, msgs_eq]
  · rw [handler_eq]
    exact strong.received
  · exact (moved.map _).nodup_iff.mpr strong.distinct
  · intro other member
    rw [calls_eq]
    exact strong.earlier other (moved.mem_iff.mp member)

theorem Strong.taken (strong : Strong state) {descriptor : Descriptor} {rest : List Descriptor}
    (idle : state.handler = .idle) (queue_eq : state.ioQueue = descriptor :: rest) :
    Strong { state with
      ioQueue := rest
      handler := .peeked descriptor (peekSize state descriptor) } := by
  have waiting_eq : ({ state with
      ioQueue := rest
      handler := .peeked descriptor (peekSize state descriptor) } : Core).waiting =
        state.waiting := by
    simp [Core.waiting, Handler.waiting, idle, queue_eq]
  constructor
  · exact ⟨strong.good.processed, waiting_eq ▸ strong.good.inStep, strong.good.notAsserted⟩
  · rintro taken payloadSize equal
    obtain ⟨rfl, rfl⟩ := Handler.peeked.inj equal
    rfl
  · exact fun _ _ _ equal => absurd equal (by simp)
  · exact waiting_eq ▸ strong.distinct
  · exact waiting_eq ▸ strong.earlier

theorem Strong.receive (strong : Strong state) {payloadSize : ℕ}
    (handler_eq : state.handler = .peeked descriptor payloadSize) (filled : payloadSize ≠ 0) :
    Strong (keRxReceive state true) := by
  have inStep := strong.good.inStep
  have size_eq := strong.peeked descriptor payloadSize handler_eq
  rw [Core.waiting, handler_eq] at inStep
  obtain ⟨payload, rest, msgs_eq, call_eq, later⟩ := InStep.next inStep
  rw [peekSize, msgs_eq] at size_eq
  obtain rfl : payloadSize = payload.bytes.length := size_eq
  have received_eq : keRxReceive state true =
      handOn { state with skTxMsg := Function.update state.skTxMsg descriptor.socket rest }
        descriptor (some payload) payload.bytes := by
    simp only [keRxReceive, handler_eq, msgs_eq, Nat.min_self, if_neg filled, List.take_length]
    rfl
  have matched : Matches descriptor (some payload) payload.bytes := by
    rw [Matches, ← call_eq]
  have waiting_eq : state.waiting = descriptor :: (state.ioQueue ++ state.sending) := by
    simp [Core.waiting, handler_eq, Handler.waiting]
  have distinct : ((state.ioQueue ++ state.sending).map Descriptor.call).Nodup := by
    have distinct := strong.distinct
    rw [waiting_eq] at distinct
    exact (List.nodup_cons.mp distinct).2
  have earlier (other : Descriptor) (member : other ∈ state.ioQueue ++ state.sending) :
      other.call < state.calls :=
    strong.earlier other (waiting_eq ▸ List.mem_cons_of_mem _ member)
  have kept : Strong { state with
      skTxMsg := Function.update state.skTxMsg descriptor.socket rest
      handler := .received descriptor (some payload) payload.bytes } := by
    refine ⟨⟨strong.good.processed, later, strong.good.notAsserted⟩, ?_, ?_, distinct, earlier⟩
    · exact fun _ _ equal => absurd equal (by simp)
    · intro taken payload' buf equal
      obtain ⟨rfl, rfl, rfl⟩ := Handler.received.inj equal
      exact matched
  rw [received_eq]
  unfold handOn
  split
  · exact kept
  · exact kept
  · refine ⟨⟨?_, later, strong.good.notAsserted⟩, ?_, ?_, distinct, earlier⟩
    · intro frame member
      rcases List.mem_append.mp member with member | member
      · exact strong.good.processed frame member
      · obtain rfl := List.mem_singleton.mp member
        exact matched
    · exact fun _ _ equal => absurd equal (by simp)
    · exact fun _ _ _ equal => absurd equal (by simp)

theorem Strong.mgmtTx (strong : Strong state) (allocated : Bool) :
    Strong (keRxMgmtTx state allocated) := by
  unfold keRxMgmtTx
  split
  · rename_i descriptor payload buf handler_eq
    have waiting_eq : state.waiting = Core.waiting { state with handler := .idle } := by
      simp [Core.waiting, handler_eq, Handler.waiting]
    have idle : Strong { state with handler := .idle } := by
      refine ⟨⟨strong.good.processed, waiting_eq ▸ strong.good.inStep, strong.good.notAsserted⟩,
        ?_, ?_, waiting_eq ▸ strong.distinct, waiting_eq ▸ strong.earlier⟩
      · exact fun _ _ equal => absurd equal (by simp)
      · exact fun _ _ _ equal => absurd equal (by simp)
    split
    · refine { idle with good := ⟨?_, idle.good.inStep, idle.good.notAsserted⟩ }
      intro frame member
      rcases List.mem_append.mp member with member | member
      · exact strong.good.processed frame member
      · obtain rfl := List.mem_singleton.mp member
        exact strong.received descriptor payload buf handler_eq
    · exact idle
  · exact strong

theorem Strong.step (strong : Strong state) {nxMfp : Bool} (event : Event)
    (careful : Careful nxMfp state event) : Strong ((core nxMfp).step state event).1 := by
  cases event with
  | fsocketSend type vifIndex args sync buf allocated =>
      exact strong.fsocketSend rfl buf allocated
  | bmsgSktTxSender index pushed =>
      cases found : state.sending[index]? with
      | none =>
          simp only [core, HapdIntf.bmsgSktTxSender, found]
          exact strong
      | some descriptor =>
          obtain ⟨rfl, others⟩ := careful descriptor found
          exact strong.bmsgSktTxSender found others
  | peek =>
      show Strong (keRxPeek nxMfp state)
      unfold keRxPeek
      split
      · rename_i descriptor rest idle queue_eq
        have careful := careful descriptor (by simp [queue_eq]) idle
        have taken := strong.taken idle queue_eq
        split
        · rename_i type_eq
          rw [if_neg (by simp [careful.1 type_eq]), if_neg (careful.2 (by simp [type_eq]))]
          exact taken
        · rename_i type_eq
          rw [if_neg (careful.2 (by simp [type_eq]))]
          exact taken
        · exact taken
      · exact strong
  | receive allocated =>
      cases handler_eq : state.handler with
      | peeked descriptor payloadSize =>
          obtain ⟨rfl, filled⟩ := careful descriptor payloadSize handler_eq
          exact strong.receive handler_eq filled
      | idle | received _ _ _ =>
          simp only [core, keRxReceive, handler_eq]
          exact strong
  | mgmtTx allocated => exact strong.mgmtTx allocated

end

section
variable {state : Core}

theorem Strong.careful_of_good (strong : Strong state) {nxMfp : Bool} (event : Event)
    (good : Good ((core nxMfp).step state event).1) : Careful nxMfp state event := by
  have inStep := strong.good.inStep
  cases event with
  | fsocketSend type vifIndex args sync buf allocated => trivial
  | mgmtTx allocated => trivial
  | bmsgSktTxSender index pushed =>
      intro descriptor found
      obtain ⟨waiting_eq, pushed_eq, lost_eq⟩ := waiting_pushed found
      rw [waiting_eq] at inStep
      have later : InStep state.skTxMsg (HapdIntf.bmsgSktTxSender state index pushed).waiting := by
        rw [← (bmsgSktTxSender_frame state index pushed).1]
        exact good.inStep
      cases pushed with
      | false => exact absurd (lost_eq ▸ later) inStep.not_lost
      | true =>
          exact ⟨rfl, inStep.not_overtake (waiting_eq ▸ strong.distinct) (pushed_eq ▸ later)⟩
  | peek =>
      intro descriptor next idle
      obtain ⟨rest, queue_eq⟩ := List.head?_eq_some_iff.mp next
      have waiting_eq : state.waiting = [] ++ descriptor :: (rest ++ state.sending) := by
        simp [Core.waiting, idle, queue_eq, Handler.waiting]
      rw [waiting_eq] at inStep
      have good : Good (keRxPeek nxMfp state) := good
      simp only [keRxPeek, idle, queue_eq] at good
      have protects (robust : descriptor.type = .mgmtRobust) : nxMfp = true := by
        by_contra plain
        rw [Bool.not_eq_true] at plain
        simp only [robust, if_pos plain] at good
        refine inStep.not_lost ?_
        have later := good.inStep
        simpa [Core.waiting, idle, Handler.waiting] using later
      refine ⟨protects, fun managed empty => ?_⟩
      cases type_eq : descriptor.type with
      | data => exact managed type_eq
      | mgmt =>
          simp only [type_eq, if_pos empty] at good
          exact absurd good.notAsserted (by simp)
      | mgmtRobust =>
          have plain : ¬nxMfp = false := by simp [protects type_eq]
          simp only [type_eq, if_neg plain, if_pos empty] at good
          exact absurd good.notAsserted (by simp)
  | receive allocated =>
      intro descriptor payloadSize handler_eq
      have waiting_eq : state.waiting = [] ++ descriptor :: (state.ioQueue ++ state.sending) := by
        simp [Core.waiting, handler_eq, Handler.waiting]
      rw [waiting_eq] at inStep
      have good : Good (keRxReceive state allocated) := good
      simp only [keRxReceive, handler_eq] at good
      cases allocated with
      | false =>
          refine absurd ?_ inStep.not_lost
          have later := good.inStep
          simpa [Core.waiting, Handler.waiting] using later
      | true =>
          refine ⟨rfl, ?_⟩
          rintro rfl
          obtain ⟨payload, rest, msgs_eq, -⟩ := InStep.next inStep
          simp only [msgs_eq, Nat.min_zero, if_true] at good
          exact absurd good.notAsserted (by simp)

end

/-- Every descriptor is handled with its own payload, and later ones will be, after every initial
part of a run exactly if all its events are careful. -/
theorem frames_matched_iff (nxMfp : Bool) (events : List Event) :
    (∀ front, front <+: events → Good ((core nxMfp).run .start front)) ↔
      (core nxMfp).Always (Careful nxMfp) .start events :=
  (core nxMfp).forall_run_iff_always_of_strong (Careful nxMfp) (fun _ => True) Good Strong
    (fun _ _ => trivial) Strong.good
    (fun event _ strong => ⟨strong.careful_of_good event, fun careful =>
      (strong.step event careful).good⟩)
    (fun event _ strong careful => strong.step event careful) trivial strong_start events

/-- Three data frames on one socket; the core queue is full for the descriptor of the first. -/
def queueFull : List Event :=
  [.fsocketSend .data 0 0 false [1] true, .bmsgSktTxSender 0 false,
    .fsocketSend .data 0 0 false [2] true, .bmsgSktTxSender 0 true, .peek, .receive true,
    .fsocketSend .data 0 0 false [3] true, .bmsgSktTxSender 0 true, .peek, .receive true]

/-- Two data frames on one socket; the handler gets no buffer for the first. -/
def noBuffer : List Event :=
  [.fsocketSend .data 0 0 false [1] true, .bmsgSktTxSender 0 true, .peek, .receive false,
    .fsocketSend .data 0 7 true [2] true, .bmsgSktTxSender 0 true, .peek, .receive true]

/-- Two calls on one socket queue their payloads in one order and their descriptors in the other. -/
def overtaken : List Event :=
  [.fsocketSend .data 0 0 false [1] true, .fsocketSend .data 0 7 true [2] true,
    .bmsgSktTxSender 1 true, .peek, .receive true]

/-- After a full queue, a failed allocation or two calls in different orders, frames are sent with
the descriptor of a neighbour. -/
theorem frames_mismatched :
    ((core true).run .start queueFull).processed.map
        (fun frame => (frame.descriptor.call, frame.buf)) = [(1, [1]), (2, [2])] ∧
      ((core true).run .start noBuffer).processed.map
        (fun frame => (frame.descriptor.call, frame.buf)) = [(1, [1])] ∧
      ((core true).run .start overtaken).processed.map
        (fun frame => (frame.descriptor.call, frame.buf)) = [(1, [1])] ∧
      ¬Good ((core true).run .start queueFull) ∧ ¬Good ((core true).run .start noBuffer) ∧
      ¬Good ((core true).run .start overtaken) := by
  have mismatch {state : Core} (frame : Processed) (member : frame ∈ state.processed)
      (wrong : ¬frame.payload = some ⟨frame.descriptor.call, frame.buf⟩) : ¬Good state :=
    fun good => wrong (good.processed frame member)
  refine ⟨by decide, by decide, by decide, ?_, ?_, ?_⟩
  · exact mismatch ⟨⟨1, .data, 0, 0, false⟩, some ⟨0, [1]⟩, [1]⟩ (by decide) (by decide)
  · exact mismatch ⟨⟨1, .data, 0, 7, true⟩, some ⟨0, [1]⟩, [1]⟩ (by decide) (by decide)
  · exact mismatch ⟨⟨1, .data, 0, 7, true⟩, some ⟨0, [1]⟩, [1]⟩ (by decide) (by decide)

end BdkFreertos.HapdIntf
