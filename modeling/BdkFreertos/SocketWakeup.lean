import BdkFreertos.FakeSocket
import BdkFreertos.HapdIntf

/-!
# Waking the supplicant up

A frame for the supplicant is appended to the queue of a socket, and the supplicant is polled.  When
the poll fails, a message is received from the queue to take the frame back.
-/

namespace BdkFreertos.SocketWakeup

open FakeSocket

/-- What the allocator and the queue of the supplicant answer. -/
structure Outcomes where
  /-- The message and its bytes were allocated in `ke_sk_send`. -/
  sent : Bool
  /-- `wpa_hostapd_queue_poll` has returned an error. -/
  pollFlag : Bool
  /-- The buffer of `handle_dummy_read` was allocated. -/
  buf : Bool

/-- `ke_sk_send` without other threads. -/
def keSkSend (sockets : Sockets) (sk : ℤ) (buf : Msg) (allocated : Bool) : Sockets × ℕ :=
  match skGetSkElement sockets sk with
  | none => (sockets, 0)
  | some element =>
      match finishSend sockets .rx element buf allocated with
      | (sockets, .sent ret) => (sockets, ret)
      | (sockets, _) => (sockets, 0)

/-- `fsocket_recv` without other threads. -/
def fsocketRecv (sockets : Sockets) (sk : ℤ) (len : ℕ) : Sockets :=
  match skGetSkElement sockets sk with
  | none => sockets
  | some element => (finishRecv sockets .rx element len).1

def tmpBufLen : ℕ := 512

def handleDummyRead (sockets : Sockets) (sock : ℤ) (allocated : Bool) : Sockets :=
  if allocated then fsocketRecv sockets sock tmpBufLen else sockets

/-- The common body of `ke_mgmt_packet_tx` and `ke_l2_packet_tx`. -/
def packetTx (sk : ℤ) (sockets : Sockets) (buf : Msg) (outcomes : Outcomes) : Sockets × ℕ :=
  let (sent, ret) := keSkSend sockets sk buf outcomes.sent
  let pollFlag := ret ≠ 0 && outcomes.pollFlag
  if pollFlag then (handleDummyRead sent sk outcomes.buf, ret) else (sent, ret)

def keMgmtPacketTx (sockets : Sockets) (buf : Msg) (flag : ℤ) (outcomes : Outcomes) :
    Sockets × ℕ :=
  packetTx (HapdIntf.mgmtGetSocketNum (.ofInt flag)) sockets buf outcomes

def keL2PacketTx (sockets : Sockets) (buf : Msg) (flag : ℤ) (outcomes : Outcomes) :
    Sockets × ℕ :=
  packetTx (HapdIntf.dataGetSocketNum (.ofInt flag)) sockets buf outcomes

/-- The message was accepted, so that the supplicant is polled. -/
def Polled (sockets : Sockets) (sk : ℤ) (buf : Msg) (outcomes : Outcomes) (element : ℕ) : Prop :=
  skGetSkElement sockets sk = some element ∧ outcomes.sent = true ∧ buf ≠ []

/-- When the poll fails the queues are as before, and when it succeeds the message has been
appended to that of the socket. -/
def WithdrawsOwn (sk : ℤ) (sockets : Sockets) (buf : Msg) (outcomes : Outcomes)
    (after : Sockets) : Prop :=
  ∀ element, Polled sockets sk buf outcomes element →
    after.msgs =
      if outcomes.pollFlag then sockets.msgs
      else put sockets.msgs .rx element (sockets.msgs .rx element ++ [buf])

/-- When the poll fails the buffer is allocated, and every message that waits is the same as the new
one; in particular none may wait. -/
def Recoverable (sk : ℤ) (sockets : Sockets) (buf : Msg) (outcomes : Outcomes) : Prop :=
  ∀ element, Polled sockets sk buf outcomes element → outcomes.pollFlag = true →
    outcomes.buf = true ∧ ∀ msg ∈ sockets.msgs .rx element, msg = buf

theorem append_eq_cons_iff {α : Type*} (first new : α) (old : List α) :
    old ++ [new] = first :: old ↔ first = new ∧ ∀ msg ∈ old, msg = new := by
  induction old generalizing first with
  | nil => simp [eq_comm]
  | cons next rest induction =>
      rw [List.cons_append, List.cons.injEq, induction, List.forall_mem_cons]
      constructor
      · rintro ⟨rfl, rfl, same⟩
        exact ⟨rfl, rfl, same⟩
      · rintro ⟨rfl, rfl, same⟩
        exact ⟨rfl, rfl, same⟩

section

variable {Value : Type*} (table : Direction → ℕ → Value) (direction : Direction) (element : ℕ)
include table direction element

theorem put_eq_self_iff (new : Value) :
    put table direction element new = table ↔ new = table direction element := by
  rw [put, Function.update_eq_self_iff, Function.update_eq_self_iff]

theorem put_put (old new : Value) :
    put (put table direction element old) direction element new =
      put table direction element new := by
  simp [put]

end

section
variable {sockets : Sockets} {sk : ℤ} {buf : Msg} {outcomes : Outcomes} {element : ℕ}

/-- The sockets when `ke_sk_send` has accepted the message. -/
def appended (sockets : Sockets) (element : ℕ) (buf : Msg) : Sockets :=
  (sockets.touch element).setMsgs .rx element (sockets.msgs .rx element ++ [buf])

theorem msgs_appended : (appended sockets element buf).msgs =
    put sockets.msgs .rx element (sockets.msgs .rx element ++ [buf]) := rfl

theorem skGetSkElement_appended :
    skGetSkElement (appended sockets element buf) sk = skGetSkElement sockets sk := by
  have allocated_eq : (appended sockets element buf).arena.allocated =
      sockets.arena.allocated := by
    by_cases live : sockets.arena.Live element <;>
      simp [appended, Sockets.setMsgs, Sockets.touch, Arena.read, live]
  rw [skGetSkElement, skGetSkElement, allocated_eq]
  rfl

theorem Polled.keSkSend_eq (polled : Polled sockets sk buf outcomes element) :
    keSkSend sockets sk buf outcomes.sent = (appended sockets element buf, buf.length) := by
  obtain ⟨found, sent, -⟩ := polled
  rw [keSkSend, found]
  simp only [finishSend, sent, if_true]
  rfl

theorem Polled.packetTx_eq (polled : Polled sockets sk buf outcomes element) :
    (packetTx sk sockets buf outcomes).1 =
      if outcomes.pollFlag then
        handleDummyRead (appended sockets element buf) sk outcomes.buf
      else appended sockets element buf := by
  have nonempty : buf.length ≠ 0 := fun empty => polled.2.2 (List.eq_nil_of_length_eq_zero empty)
  rw [packetTx, polled.keSkSend_eq]
  cases outcomes.pollFlag <;> simp [nonempty]

theorem appended_ne : (appended sockets element buf).msgs ≠ sockets.msgs := by
  rw [msgs_appended, Ne, put_eq_self_iff]
  simp

theorem Polled.msgs_fsocketRecv (polled : Polled sockets sk buf outcomes element) {first : Msg}
    {rest : List Msg} (queue_eq : sockets.msgs .rx element ++ [buf] = first :: rest) :
    (fsocketRecv (appended sockets element buf) sk tmpBufLen).msgs =
      if first = [] then (appended sockets element buf).msgs
      else put sockets.msgs .rx element rest := by
  have here : (appended sockets element buf).msgs .rx element = first :: rest := by
    rw [msgs_appended, put_self, queue_eq]
  rw [fsocketRecv, skGetSkElement_appended, polled.1]
  rcases first with _ | ⟨byte, bytes⟩
  · simp only [finishRecv, here, List.length_nil, Nat.zero_min, if_true]
    rfl
  · have some_bytes : min (byte :: bytes).length tmpBufLen ≠ 0 := by
      simp [tmpBufLen]
    simp only [finishRecv, here, if_neg some_bytes, if_neg (List.cons_ne_nil byte bytes)]
    exact put_put sockets.msgs .rx element _ rest

theorem Polled.withdrawn_iff (polled : Polled sockets sk buf outcomes element) :
    (fsocketRecv (appended sockets element buf) sk tmpBufLen).msgs = sockets.msgs ↔
      ∀ msg ∈ sockets.msgs .rx element, msg = buf := by
  obtain ⟨first, rest, queue_eq⟩ :=
    List.exists_cons_of_ne_nil (List.append_ne_nil_of_right_ne_nil
      (sockets.msgs .rx element) (List.cons_ne_nil buf []))
  rw [polled.msgs_fsocketRecv queue_eq]
  split
  · rename_i empty
    refine iff_of_false appended_ne fun same => polled.2.2 ?_
    rw [← empty]
    have member : first ∈ sockets.msgs .rx element ++ [buf] := by
      rw [queue_eq]
      exact List.mem_cons_self
    rcases List.mem_append.mp member with waiting | own
    · exact (same first waiting).symm
    · exact (List.mem_singleton.mp own).symm
  · rw [put_eq_self_iff]
    constructor
    · rintro rfl
      exact ((append_eq_cons_iff first buf _).mp queue_eq).2
    · intro same
      have other : sockets.msgs .rx element ++ [buf] = buf :: sockets.msgs .rx element :=
        (append_eq_cons_iff buf buf _).mpr ⟨rfl, same⟩
      exact (List.cons.inj (queue_eq.symm.trans other)).2

end

theorem packetTx_withdraws_iff (sk : ℤ) (sockets : Sockets) (buf : Msg) (outcomes : Outcomes) :
    WithdrawsOwn sk sockets buf outcomes (packetTx sk sockets buf outcomes).1 ↔
      Recoverable sk sockets buf outcomes := by
  refine forall_congr' fun element => forall_congr' fun polled => ?_
  rw [polled.packetTx_eq]
  cases poll : outcomes.pollFlag with
  | false => simp [msgs_appended]
  | true =>
      simp only [if_true, handleDummyRead, forall_const]
      cases outcomes.buf with
      | false => exact iff_of_false appended_ne fun recoverable =>
          Bool.false_ne_true recoverable.1
      | true => simpa using polled.withdrawn_iff

/-- A failed poll takes its own message back exactly if the buffer is allocated and no other message
waits. -/
theorem wake_up_withdraws_own_iff (sockets : Sockets) (buf : Msg) (flag : ℤ)
    (outcomes : Outcomes) :
    (WithdrawsOwn (HapdIntf.mgmtGetSocketNum (.ofInt flag)) sockets buf outcomes
        (keMgmtPacketTx sockets buf flag outcomes).1 ↔
      Recoverable (HapdIntf.mgmtGetSocketNum (.ofInt flag)) sockets buf outcomes) ∧
    (WithdrawsOwn (HapdIntf.dataGetSocketNum (.ofInt flag)) sockets buf outcomes
        (keL2PacketTx sockets buf flag outcomes).1 ↔
      Recoverable (HapdIntf.dataGetSocketNum (.ofInt flag)) sockets buf outcomes) :=
  ⟨packetTx_withdraws_iff _ sockets buf outcomes, packetTx_withdraws_iff _ sockets buf outcomes⟩

/-- The management socket of interface zero, with one message waiting. -/
def oneWaiting : Sockets where
  arena := ⟨[HapdIntf.mgmtGetSocketNum 0], [], []⟩
  skHead := [0]
  msgs := fun direction element => if direction = .rx ∧ element = 0 then [[1]] else []
  asserted := false

/-- The poll fails, and the message that waited is received in place of the new one. -/
theorem waiting_message_is_lost :
    (keMgmtPacketTx oneWaiting [2] 0 ⟨true, true, true⟩).1.msgs .rx 0 = [[2]] ∧
      ¬WithdrawsOwn (HapdIntf.mgmtGetSocketNum (.ofInt 0)) oneWaiting [2] ⟨true, true, true⟩
        (keMgmtPacketTx oneWaiting [2] 0 ⟨true, true, true⟩).1 := by
  refine ⟨by decide, fun withdraws => ?_⟩
  have restored := withdraws 0 ⟨by decide, rfl, by decide⟩
  exact absurd (congrFun (congrFun restored .rx) 0) (by decide)

end BdkFreertos.SocketWakeup
