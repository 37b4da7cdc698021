import BdkFreertos.Machine
import Mathlib.Data.List.Nodup

/-!
# Requests to the MAC and their confirms

`rw_msg_send` puts a request on a list, queues its message to the MAC and waits for a semaphore;
`rwnx_recv_msg`, in another thread, looks for the first request on the list that waits for the
identifier of a received message, takes it off, copies the contents and sets the semaphore.  Each
guarded section and each access to a request is a step of its own, and the interleavings of the steps
are the runs of one machine.
-/

namespace BdkFreertos.RwMsg

/-- A message from the MAC. -/
structure RxMsg where
  id : UInt16
  param : List UInt8
  /-- The request that the message answers, if it does. -/
  origin : Option ℕ
  deriving DecidableEq

/-- Where the sender of a request is in `rw_msg_send`. -/
inductive Phase
  | unused
  /-- On the list, with the message still to be queued. -/
  | queueing
  /-- At the semaphore, with or without the timeout having expired. -/
  | waiting (expired : Bool)
  | answered
  /-- At `failed_or_timeout`. -/
  | leaving
  | freed
  deriving DecidableEq

/-- Where the receiving thread is in `rwnx_recv_msg`. -/
inductive Recv
  | idle
  /-- Before a node of the list. -/
  | walking (msg : RxMsg) (node : ℕ)
  /-- The node has been taken off the list, and the contents are to be copied. -/
  | copying (msg : RxMsg) (node : ℕ)
  /-- The semaphore is to be set. -/
  | signalling (msg : RxMsg) (node : ℕ)
  deriving DecidableEq

/-- The requests, numbered in the order of their allocation, the lists and the two threads. -/
structure State where
  allocated : ℕ
  reqid : ℕ → UInt16
  phase : ℕ → Phase
  semaphore : ℕ → Bool
  /-- What the last message for a request has copied to where its sender wants the confirm. -/
  cfm : ℕ → List UInt8
  rwMsgTxHead : List ℕ
  rwMsgRxHead : List RxMsg
  /-- The accepted messages that the MAC has not answered, with their requests if they have one. -/
  ioQueue : List (UInt16 × Option ℕ)
  recv : Recv
  /-- What the MAC has produced for each request. -/
  answers : ℕ → Option (List UInt8)
  /-- The contents that senders have received. -/
  received : List (ℕ × List UInt8)
  /-- The requests that were written or signalled after they had been freed. -/
  faults : List ℕ

inductive Event
  /-- `rw_msg_send` up to its first guarded section. -/
  | enlist (reqid : UInt16)
  /-- `bmsg_ioctl_sender` for a request, and whether it succeeds. -/
  | queue (node : ℕ) (accepted : Bool)
  /-- The whole of `rw_msg_send` when no confirm is wanted. -/
  | sendNoCfm (reqid : UInt16) (accepted : Bool)
  /-- `rtos_get_semaphore` returns with the semaphore. -/
  | wake (node : ℕ)
  /-- The timeout of `rtos_get_semaphore` expires. -/
  | expire (node : ℕ)
  /-- It returns without the semaphore, and the request is taken off the list. -/
  | giveUp (node : ℕ)
  | free (node : ℕ)
  /-- The MAC answers the first message it has accepted. -/
  | macAnswer (param : List UInt8)
  /-- The MAC sends a message that is no answer. -/
  | macIndicate (id : UInt16) (param : List UInt8)
  /-- The receiving thread goes on.  What follows a node that is no longer on the list is left
  open. -/
  | recvStep (stale : Option ℕ)
  deriving DecidableEq

/-- `co_list_next` of a node on the list. -/
def coListNext (node : ℕ) : List ℕ → Option ℕ
  | [] => none
  | head :: tail => if head = node then tail.head? else coListNext node tail

/-- The node after the one the receiving thread is at. -/
def nextNode (state : State) (node : ℕ) (stale : Option ℕ) : Option ℕ :=
  if node ∈ state.rwMsgTxHead then coListNext node state.rwMsgTxHead
  else stale.filter (· < state.allocated)

def touch (state : State) (node : ℕ) : List ℕ :=
  if state.phase node = .freed then state.faults ++ [node] else state.faults

/-- One step of `rwnx_recv_msg`.  Without a node to go to, the message is handed to
`rwnx_handle_recv_msg`. -/
def recvStep (state : State) (stale : Option ℕ) : State :=
  match state.recv with
  | .idle =>
      match state.rwMsgRxHead with
      | [] => state
      | msg :: rest =>
          { state with
            rwMsgRxHead := rest
            recv := state.rwMsgTxHead.head?.elim .idle (.walking msg) }
  | .walking msg node =>
      if msg.id = state.reqid node then
        { state with
          rwMsgTxHead := state.rwMsgTxHead.erase node
          recv := .copying msg node }
      else
        { state with recv := (nextNode state node stale).elim .idle (.walking msg) }
  | .copying msg node =>
      { state with
        cfm := Function.update state.cfm node msg.param
        faults := if msg.param = [] then state.faults else touch state node
        recv := .signalling msg node }
  | .signalling _ node =>
      { state with
        semaphore := Function.update state.semaphore node true
        faults := touch state node
        recv := .idle }

/-- The request with the given number is made: it goes onto the list with a fresh semaphore. -/
def enlist (state : State) (reqid : UInt16) : State :=
  { state with
    allocated := state.allocated + 1
    reqid := Function.update state.reqid state.allocated reqid
    phase := Function.update state.phase state.allocated .queueing
    semaphore := Function.update state.semaphore state.allocated false
    rwMsgTxHead := state.rwMsgTxHead ++ [state.allocated] }

/-- `bmsg_ioctl_sender` for a request, and the branch after it. -/
def queue (state : State) (node : ℕ) (accepted : Bool) : State :=
  if accepted then
    { state with
      phase := Function.update state.phase node (.waiting false)
      ioQueue := state.ioQueue ++ [(state.reqid node, some node)] }
  else { state with phase := Function.update state.phase node .leaving }

/-- The MAC answers the first message it has accepted. -/
def macAnswer (state : State) (param : List UInt8) : State :=
  match state.ioQueue with
  | [] => state
  | (id, origin) :: rest =>
      { state with
        ioQueue := rest
        rwMsgRxHead := state.rwMsgRxHead ++ [⟨id, param, origin⟩]
        answers := origin.elim state.answers fun node =>
          Function.update state.answers node (some param) }

def machine : Machine State Event Unit where
  step state
    | .enlist reqid => (enlist state reqid, ())
    | .queue node accepted =>
        (if state.phase node = .queueing then queue state node accepted else state, ())
    | .sendNoCfm reqid accepted =>
        (if accepted then { state with ioQueue := state.ioQueue ++ [(reqid, none)] } else state, ())
    | .wake node =>
        (if state.phase node = .waiting false ∧ state.semaphore node = true then
          { state with
            phase := Function.update state.phase node .answered
            semaphore := Function.update state.semaphore node false
            received := state.received ++ [(node, state.cfm node)] }
        else state, ())
    | .expire node =>
        (if state.phase node = .waiting false ∧ state.semaphore node = false then
          { state with phase := Function.update state.phase node (.waiting true) }
        else state, ())
    | .giveUp node =>
        (if state.phase node = .waiting true then
          { state with
            phase := Function.update state.phase node .leaving
            rwMsgTxHead := state.rwMsgTxHead.erase node }
        else state, ())
    | .free node =>
        (if state.phase node = .answered ∨ state.phase node = .leaving then
          { state with phase := Function.update state.phase node .freed }
        else state, ())
    | .macAnswer param => (macAnswer state param, ())
    | .macIndicate id param =>
        ({ state with rwMsgRxHead := state.rwMsgRxHead ++ [⟨id, param, none⟩] }, ())
    | .recvStep stale => (recvStep state stale, ())

/-- After `mr_kmsg_init`. -/
def start : State where
  allocated := 0
  reqid := fun _ => 0
  phase := fun _ => .unused
  semaphore := fun _ => false
  cfm := fun _ => []
  rwMsgTxHead := []
  rwMsgRxHead := []
  ioQueue := []
  recv := .idle
  answers := fun _ => none
  received := []
  faults := []

/-- The node the receiving thread has a pointer to. -/
def Recv.node : Recv → Option ℕ
  | .idle => none
  | .walking _ node | .copying _ node | .signalling _ node => some node

/-- The request the receiving thread is going to write or signal. -/
def Recv.inHand : Recv → Option ℕ
  | .idle | .walking _ _ => none
  | .copying _ node | .signalling _ node => some node

def Phase.Pending (phase : Phase) : Prop := phase = .queueing ∨ ∃ expired, phase = .waiting expired

/-- Every node on the list is a request whose sender is still waiting, and no request is written or
signalled, nor about to be, after it has been freed. -/
structure OnlyLive (state : State) : Prop where
  pending : ∀ node ∈ state.rwMsgTxHead, (state.phase node).Pending
  inHand : ∀ node, state.recv.inHand = some node → state.phase node ≠ .freed
  faults : state.faults = []

/-- A message is refused only when its request is off the list, a request is freed only when the
receiving thread has not got it in hand, and a request that matches has not been freed while the
receiving thread was before it. -/
def Careful (state : State) : Event → Prop
  | .queue node false => state.phase node = .queueing → node ∉ state.rwMsgTxHead
  | .free node => state.phase node = .answered ∨ state.phase node = .leaving →
      state.recv.inHand ≠ some node
  | .recvStep _ => ∀ msg node, state.recv = .walking msg node → msg.id = state.reqid node →
      state.phase node ≠ .freed
  | _ => True

/-! ## The list -/

variable {state : State} {node : ℕ}

/-- The list is without repetitions, and what the receiving thread has taken off or signalled is not
on it. -/
structure Linked (state : State) : Prop where
  nodup : state.rwMsgTxHead.Nodup
  known : ∀ node ∈ state.rwMsgTxHead, node < state.allocated
  recvKnown : ∀ node, state.recv.node = some node → node < state.allocated
  handOff : ∀ node, state.recv.inHand = some node → node ∉ state.rwMsgTxHead
  semaphoreOff : ∀ node, state.semaphore node = true →
    node < state.allocated ∧ node ∉ state.rwMsgTxHead

theorem Recv.node_of_inHand {recv : Recv} (hand : recv.inHand = some node) :
    recv.node = some node := by
  cases recv with
  | idle => contradiction
  | walking msg other => contradiction
  | copying msg other => exact hand
  | signalling msg other => exact hand

theorem mem_of_coListNext {list : List ℕ} {next : ℕ} (found : coListNext node list = some next) :
    next ∈ list := by
  induction list with
  | nil => contradiction
  | cons head tail induction =>
      rw [coListNext] at found
      split at found
      · exact List.mem_cons_of_mem head (List.mem_of_mem_head? found)
      · exact List.mem_cons_of_mem head (induction found)

theorem nextNode_lt (linked : Linked state) {stale : Option ℕ} {next : ℕ}
    (found : nextNode state node stale = some next) : next < state.allocated := by
  rw [nextNode] at found
  split at found
  · exact linked.known next (mem_of_coListNext found)
  · rw [Option.filter_eq_some_iff] at found
    exact of_decide_eq_true found.2

theorem linked_start : Linked start where
  nodup := List.nodup_nil
  known _ member := absurd member List.not_mem_nil
  recvKnown _ found := nomatch found
  handOff _ hand := nomatch hand
  semaphoreOff _ set := nomatch set

theorem elim_walking {found : Option ℕ} {msg : RxMsg} :
    (found.elim .idle (.walking msg) : Recv).node = found ∧
      (found.elim .idle (.walking msg) : Recv).inHand = none := by
  cases found with
  | none | some next => exact ⟨rfl, rfl⟩

namespace Linked

section

variable (linked : Linked state)
include linked

theorem congr {next : State} (allocated : next.allocated = state.allocated)
    (list : next.rwMsgTxHead = state.rwMsgTxHead) (recv : next.recv = state.recv)
    (semaphore : ∀ node, next.semaphore node = true → state.semaphore node = true) :
    Linked next := by
  constructor
  all_goals simp only [allocated, list, recv]
  exacts [linked.nodup, linked.known, linked.recvKnown, linked.handOff,
    fun node set => linked.semaphoreOff node (semaphore node set)]

theorem enlist (reqid : UInt16) : Linked (RwMsg.enlist state reqid) := by
  have absent : state.allocated ∉ state.rwMsgTxHead := fun member =>
    Nat.lt_irrefl _ (linked.known _ member)
  have grown {node : ℕ} (inside : node < state.allocated) (off : node ∉ state.rwMsgTxHead) :
      node ∉ state.rwMsgTxHead ++ [state.allocated] := by
    rw [List.mem_append, List.mem_singleton, not_or]
    exact ⟨off, Nat.ne_of_lt inside⟩
  constructor
  · exact List.nodup_append.mpr ⟨linked.nodup, List.nodup_singleton _, fun first member last same
      => fun eq => absent (List.mem_singleton.mp same ▸ eq ▸ member)⟩
  · intro node member
    rcases List.mem_append.mp member with earlier | last
    · exact Nat.lt_succ_of_lt (linked.known node earlier)
    · exact List.mem_singleton.mp last ▸ Nat.lt_succ_self _
  · intro node found
    exact Nat.lt_succ_of_lt (linked.recvKnown node found)
  · intro node hand
    exact grown (linked.recvKnown node (Recv.node_of_inHand hand)) (linked.handOff node hand)
  · intro node set
    have other : node ≠ state.allocated := by
      rintro rfl
      simp [RwMsg.enlist] at set
    simp only [RwMsg.enlist, Function.update_of_ne other] at set
    obtain ⟨inside, off⟩ := linked.semaphoreOff node set
    exact ⟨Nat.lt_succ_of_lt inside, grown inside off⟩

/-- A node is taken off the list. -/
theorem erase {next : State} (node : ℕ) (allocated : next.allocated = state.allocated)
    (list : next.rwMsgTxHead = state.rwMsgTxHead.erase node)
    (recvKnown : ∀ other, next.recv.node = some other → other < state.allocated)
    (handOff : ∀ other, next.recv.inHand = some other →
      other = node ∨ state.recv.inHand = some other)
    (semaphore : next.semaphore = state.semaphore) : Linked next := by
  have smaller {other : ℕ} (off : other ∉ state.rwMsgTxHead) :
      other ∉ state.rwMsgTxHead.erase node := fun member => off (List.mem_of_mem_erase member)
  constructor
  all_goals simp only [allocated, list, semaphore]
  · exact linked.nodup.erase node
  · exact fun other member => linked.known other (List.mem_of_mem_erase member)
  · exact recvKnown
  · intro other hand
    rcases handOff other hand with rfl | before
    · exact linked.nodup.not_mem_erase
    · exact smaller (linked.handOff other before)
  · intro other set
    obtain ⟨inside, off⟩ := linked.semaphoreOff other set
    exact ⟨inside, smaller off⟩

theorem recvStep (stale : Option ℕ) : Linked (RwMsg.recvStep state stale) := by
  rw [RwMsg.recvStep]
  split
  · split
    · exact linked
    · next msg rest rx_eq =>
        have ⟨node_eq, hand_eq⟩ := @elim_walking state.rwMsgTxHead.head? msg
        exact
          { linked with
            recvKnown := fun node found =>
              linked.known node (List.mem_of_mem_head? (node_eq.symm.trans found))
            handOff := fun node hand => nomatch hand_eq.symm.trans hand }
  · next msg node at_node =>
      split
      · refine linked.erase node rfl rfl ?_ ?_ rfl
        · intro other found
          refine linked.recvKnown other ?_
          rw [at_node]
          exact found
        · intro other hand
          exact Or.inl (Option.some.inj hand).symm
      · have ⟨node_eq, hand_eq⟩ := @elim_walking (nextNode state node stale) msg
        exact
          { linked with
            recvKnown := fun next found => nextNode_lt linked (node_eq.symm.trans found)
            handOff := fun next hand => nomatch hand_eq.symm.trans hand }
  · next msg node at_copy =>
      have inside := linked.recvKnown node (by rw [at_copy]; rfl)
      have off := linked.handOff node (by rw [at_copy]; rfl)
      exact
        { linked with
          recvKnown := fun other found => Option.some.inj found ▸ inside
          handOff := fun other hand => Option.some.inj hand ▸ off }
  · next msg node at_signal =>
      have inside := linked.recvKnown node (by rw [at_signal]; rfl)
      have off := linked.handOff node (by rw [at_signal]; rfl)
      exact
        { linked with
          recvKnown := fun other found => nomatch found
          handOff := fun other hand => nomatch hand
          semaphoreOff := by
            intro other set
            by_cases same : other = node
            · subst same
              exact ⟨inside, off⟩
            · simp only [Function.update_of_ne same] at set
              exact linked.semaphoreOff other set }

end

theorem step (linked : Linked state) (event : Event) : Linked (machine.step state event).1 := by
  cases event with
  | enlist reqid => exact linked.enlist reqid
  | queue node accepted =>
      simp only [machine]
      split
      · cases accepted with
        | false | true => exact linked.congr rfl rfl rfl fun _ => id
      · exact linked
  | sendNoCfm reqid accepted | expire node | free node =>
      simp only [machine]
      split
      · exact linked.congr rfl rfl rfl fun _ => id
      · exact linked
  | wake node =>
      simp only [machine]
      split
      · refine linked.congr rfl rfl rfl ?_
        intro other set
        by_cases same : other = node
        · subst same
          simp at set
        · simpa only [Function.update_of_ne same] using set
      · exact linked
  | giveUp node =>
      simp only [machine]
      split
      · exact linked.erase node rfl rfl linked.recvKnown (fun other hand => Or.inr hand) rfl
      · exact linked
  | macAnswer param =>
      simp only [machine, macAnswer]
      split
      · exact linked
      · exact linked.congr rfl rfl rfl fun _ => id
  | macIndicate id param => exact linked.congr rfl rfl rfl fun _ set => set
  | recvStep stale => exact linked.recvStep stale

end Linked

/-! ## Only live requests -/

namespace OnlyLive

section

variable (live : OnlyLive state)
include live

/-- The sender of a request moves on. -/
theorem update_iff {next : State} (node : ℕ) (phase : Phase)
    (phase_eq : next.phase = Function.update state.phase node phase)
    (list : ∀ other ∈ next.rwMsgTxHead, other = node ∨ other ∈ state.rwMsgTxHead)
    (recv : next.recv = state.recv) (faults : next.faults = state.faults) :
    OnlyLive next ↔ (node ∈ next.rwMsgTxHead → phase.Pending) ∧
      (state.recv.inHand = some node → phase ≠ .freed) := by
  have at_node : next.phase node = phase := by rw [phase_eq, Function.update_self]
  constructor
  · intro after
    refine ⟨fun member => at_node ▸ after.pending node member, fun hand => ?_⟩
    exact at_node ▸ after.inHand node (recv ▸ hand)
  · rintro ⟨pending, unfreed⟩
    refine ⟨?_, ?_, faults.trans live.faults⟩
    · intro other member
      by_cases same : other = node
      · subst same
        exact at_node ▸ pending member
      · rw [phase_eq, Function.update_of_ne same]
        exact live.pending other ((list other member).resolve_left same)
    · intro other hand
      rw [recv] at hand
      by_cases same : other = node
      · subst same
        exact at_node ▸ unfreed hand
      · rw [phase_eq, Function.update_of_ne same]
        exact live.inHand other hand

/-- The sender of a request moves on and leaves the list as it is. -/
theorem advance_iff {next : State} (node : ℕ) (phase : Phase)
    (phase_eq : next.phase = Function.update state.phase node phase)
    (list : next.rwMsgTxHead = state.rwMsgTxHead) (recv : next.recv = state.recv)
    (faults : next.faults = state.faults) :
    OnlyLive next ↔ (node ∈ state.rwMsgTxHead → phase.Pending) ∧
      (state.recv.inHand = some node → phase ≠ .freed) := by
  rw [live.update_iff node phase phase_eq (fun other member => Or.inr (list ▸ member)) recv faults,
    list]

theorem congr {next : State} (phase : next.phase = state.phase)
    (list : next.rwMsgTxHead = state.rwMsgTxHead) (recv : next.recv = state.recv)
    (faults : next.faults = state.faults) : OnlyLive next := by
  constructor
  all_goals simp only [phase, list, recv, faults]
  exacts [live.pending, live.inHand, live.faults]

theorem touch (hand : state.recv.inHand = some node) : RwMsg.touch state node = [] := by
  rw [RwMsg.touch, if_neg (live.inHand node hand)]
  exact live.faults

theorem recvStep_iff (stale : Option ℕ) :
    OnlyLive (RwMsg.recvStep state stale) ↔ Careful state (.recvStep stale) := by
  rw [RwMsg.recvStep, Careful]
  split
  · next at_idle =>
      simp only [at_idle, reduceCtorEq, false_imp_iff, implies_true, iff_true]
      split
      · exact live
      · next msg rest rx_eq =>
          have hand_eq := (@elim_walking state.rwMsgTxHead.head? msg).2
          exact { live with inHand := fun node hand => nomatch hand_eq.symm.trans hand }
  · next msg node at_node =>
      simp only [at_node, Recv.walking.injEq]
      split
      · next same =>
          constructor
          · intro after other_msg other at_other matches_other
            obtain ⟨-, rfl⟩ := at_other
            exact after.inHand node rfl
          · intro unfreed
            exact
              { pending := fun other member => live.pending other (List.mem_of_mem_erase member)
                inHand := fun other hand =>
                  Option.some.inj hand ▸ unfreed msg node ⟨rfl, rfl⟩ same
                faults := live.faults }
      · next different =>
          have hand_eq := (@elim_walking (nextNode state node stale) msg).2
          refine iff_of_true ?_ ?_
          · exact { live with inHand := fun next hand => nomatch hand_eq.symm.trans hand }
          · intro other_msg other at_other same
            obtain ⟨rfl, rfl⟩ := at_other
            exact absurd same different
  · next msg node at_copy =>
      have hand : state.recv.inHand = some node := by rw [at_copy]; rfl
      simp only [at_copy, reduceCtorEq, false_imp_iff, implies_true, iff_true]
      have unfreed (other : ℕ) (same : some node = some other) : state.phase other ≠ .freed :=
        Option.some.inj same ▸ live.inHand node hand
      refine { live with inHand := unfreed, faults := ?_ }
      dsimp only
      rw [live.touch hand, live.faults, ite_self]
  · next msg node at_signal =>
      have hand : state.recv.inHand = some node := by rw [at_signal]; rfl
      simp only [at_signal, reduceCtorEq, false_imp_iff, implies_true, iff_true]
      exact { live with inHand := fun other none_hand => nomatch none_hand
                        faults := live.touch hand }

theorem step_iff (linked : Linked state) (event : Event) :
    OnlyLive (machine.step state event).1 ↔ Careful state event := by
  cases event with
  | enlist reqid =>
      refine (live.update_iff state.allocated .queueing (by rfl) ?_ (by rfl) (by rfl)).trans
        (iff_of_true ⟨fun _ => Or.inl rfl, fun _ => nofun⟩ trivial)
      intro other member
      rcases List.mem_append.mp member with earlier | last
      · exact Or.inr earlier
      · exact Or.inl (List.mem_singleton.mp last)
  | queue node accepted =>
      simp only [machine]
      split
      · next queueing =>
          cases accepted with
          | false =>
              refine (live.advance_iff node .leaving (by rfl) (by rfl) (by rfl) (by rfl)).trans ?_
              simp [Careful, queueing, Phase.Pending]
          | true =>
              refine (live.advance_iff node (.waiting false) (by rfl) (by rfl) (by rfl)
                (by rfl)).trans ?_
              simp [Careful, Phase.Pending]
      · next other =>
          cases accepted with
          | false => exact iff_of_true live fun queueing => absurd queueing other
          | true => exact iff_of_true live trivial
  | sendNoCfm reqid accepted =>
      refine iff_of_true ?_ trivial
      simp only [machine]
      split
      · exact live.congr rfl rfl rfl rfl
      · exact live
  | wake node =>
      refine iff_of_true ?_ trivial
      simp only [machine]
      split
      · next woken =>
          refine (live.advance_iff node .answered (by rfl) (by rfl) (by rfl) (by rfl)).mpr
            ⟨fun member => ?_, fun _ => nofun⟩
          exact absurd member (linked.semaphoreOff node woken.2).2
      · exact live
  | expire node =>
      refine iff_of_true ?_ trivial
      simp only [machine]
      split
      · exact (live.advance_iff node (.waiting true) (by rfl) (by rfl) (by rfl) (by rfl)).mpr
          ⟨fun _ => Or.inr ⟨true, rfl⟩, fun _ => nofun⟩
      · exact live
  | giveUp node =>
      refine iff_of_true ?_ trivial
      simp only [machine]
      split
      · refine (live.update_iff node .leaving (by rfl)
          (by exact fun other member => Or.inr (List.mem_of_mem_erase member)) (by rfl)
          (by rfl)).mpr ⟨fun member => ?_, fun _ => nofun⟩
        exact absurd member linked.nodup.not_mem_erase
      · exact live
  | free node =>
      simp only [machine]
      split
      · next gone =>
          have off : node ∉ state.rwMsgTxHead := by
            intro member
            rcases live.pending node member with queueing | ⟨expired, waiting⟩
            · simp [queueing] at gone
            · simp [waiting] at gone
          refine (live.advance_iff node .freed (by rfl) (by rfl) (by rfl) (by rfl)).trans ?_
          simp [Careful, gone, off]
      · next other => exact iff_of_true live fun gone => absurd gone other
  | macAnswer param =>
      refine iff_of_true ?_ trivial
      simp only [machine, macAnswer]
      split
      · exact live
      · exact live.congr rfl rfl rfl rfl
  | macIndicate id param => exact iff_of_true (live.congr rfl rfl rfl rfl) trivial
  | recvStep stale => exact live.recvStep_iff stale

end

end OnlyLive

/-- In every interleaving the list holds only live requests exactly as long as every step is
careful. -/
theorem pending_list_live_iff (events : List Event) :
    (∀ front, front <+: events → OnlyLive (machine.run start front)) ↔
      machine.Always Careful start events := by
  refine machine.forall_run_iff_always Careful Linked OnlyLive
    (fun event linked => linked.step event) (fun event linked live => live.step_iff linked event)
    linked_start ⟨?_, ?_, rfl⟩ events
  · exact fun _ member => absurd member List.not_mem_nil
  · exact fun _ hand => nomatch hand

/-- A request whose message is refused is freed while it is on the list, and a request that times out
while the receiving thread has it in hand is written and signalled after it has been freed. -/
theorem pending_list_not_live :
    ¬ OnlyLive (machine.run start [.enlist 1, .queue 0 false, .free 0]) ∧
      ¬ OnlyLive (machine.run start [.enlist 1, .queue 0 true, .macAnswer [7], .recvStep none,
        .recvStep none, .expire 0, .giveUp 0, .free 0, .recvStep none, .recvStep none]) := by
  constructor
  · intro live
    rcases live.pending 0 (by decide) with queueing | ⟨expired, waiting⟩
    · exact absurd queueing (by decide)
    · cases waiting
  · intro live
    exact absurd live.faults (by decide)

end BdkFreertos.RwMsg
