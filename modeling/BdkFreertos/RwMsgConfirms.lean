import BdkFreertos.RwMsg

/-!
# Confirms and the requests they answer

A confirm goes to the first request on the list that waits for its identifier, whichever request the
MAC has answered.  The two are the same as long as, for each identifier, the messages on their way
answer the requests on the list in their order: late confirms come only when no request of their
identifier is on the list any more.
-/

namespace BdkFreertos.RwMsg

/-- The message the receiving thread looks for a request for. -/
def Recv.walkingMsg : Recv → Option RxMsg
  | .walking msg _ => some msg
  | .idle | .copying _ _ | .signalling _ _ => none

/-- The messages with an identifier that are still to be matched, first one first, by the requests
they answer. -/
def outstanding (state : State) (id : UInt16) : List (Option ℕ) :=
  ((state.recv.walkingMsg.toList ++ state.rwMsgRxHead).filter (·.id = id)).map RxMsg.origin ++
    (state.ioQueue.filter (·.1 = id)).map Prod.snd

def waitingFor (state : State) (id : UInt16) : List ℕ :=
  state.rwMsgTxHead.filter fun node => state.reqid node = id

/-- The contents that senders have received are those the MAC has produced for their requests. -/
def OwnConfirms (state : State) : Prop :=
  ∀ pair ∈ state.received, state.answers pair.1 = some pair.2

/-- Requests of one identifier are queued in the order of the list and never refused, a request that
gives up has none of its identifier behind it, no request is made while a late confirm of its
identifier is on its way, messages that answer no request on the list come when none could take
them, and a node does not leave the list while the receiving thread goes on from it. -/
def InTurn (state : State) : Event → Prop
  | .enlist reqid => ∀ origin ∈ outstanding state reqid,
      ∃ node ∈ waitingFor state reqid, origin = some node
  | .queue node true => state.phase node = .queueing →
      ∀ other ∈ waitingFor state (state.reqid node), state.phase other = .queueing → node ≤ other
  | .queue node false => state.phase node ≠ .queueing
  | .sendNoCfm reqid true => ∀ other ∈ waitingFor state reqid, state.phase other ≠ .queueing
  | .giveUp node => state.phase node = .waiting true → node ∈ state.rwMsgTxHead →
      ∀ other ∈ waitingFor state (state.reqid node), other ≤ node
  | .macIndicate id _ => waitingFor state id = []
  | .recvStep _ => ∀ msg node, state.recv = .walking msg node → msg.id ≠ state.reqid node →
      node ∈ state.rwMsgTxHead
  | _ => True

instance (state : State) : ∀ event, Decidable (InTurn state event)
  | .enlist _ => inferInstanceAs (Decidable (∀ origin ∈ _, _))
  | .queue _ true => inferInstanceAs (Decidable (_ → ∀ other ∈ _, _ → _))
  | .queue _ false => inferInstanceAs (Decidable (_ ≠ _))
  | .sendNoCfm _ true => inferInstanceAs (Decidable (∀ other ∈ _, _))
  | .giveUp _ => inferInstanceAs (Decidable (_ → _ → ∀ other ∈ _, _))
  | .macIndicate _ _ => inferInstanceAs (Decidable (_ = _))
  | .recvStep _ =>
      match at_node : state.recv with
      | .walking msg node =>
          decidable_of_iff (msg.id ≠ state.reqid node → node ∈ state.rwMsgTxHead)
            (by simp [InTurn, at_node])
      | .idle | .copying _ _ | .signalling _ _ => isTrue (by simp [InTurn, at_node])
  | .sendNoCfm _ false | .wake _ | .expire _ | .free _ | .macAnswer _ => isTrue trivial

/-! ## Messages and requests in step -/

variable {phase : ℕ → Phase} {messages : List (Option ℕ)} {nodes : List ℕ} {node : ℕ}

/-- The messages answer the accepted requests in order, and late ones come only after all of them and
not before a request that is still to be queued. -/
def Aligned (phase : ℕ → Phase) (messages : List (Option ℕ)) (nodes : List ℕ) : Prop :=
  ∃ accepted late queueing, messages = accepted.map some ++ late ∧ nodes = accepted ++ queueing ∧
    (late = [] ∨ queueing = []) ∧ (∀ node ∈ accepted, phase node ≠ .queueing) ∧
      (∀ node ∈ queueing, phase node = .queueing) ∧ ∀ node, some node ∈ late → node ∉ nodes

theorem aligned_nil : Aligned phase messages [] :=
  ⟨[], messages, [], rfl, rfl, Or.inr rfl, fun _ member => absurd member List.not_mem_nil,
    fun _ member => absurd member List.not_mem_nil, fun _ _ => List.not_mem_nil⟩

namespace Aligned

section

variable (aligned : Aligned phase messages nodes)
include aligned

theorem congr {other : ℕ → Phase}
    (same : ∀ node ∈ nodes, other node = .queueing ↔ phase node = .queueing) :
    Aligned other messages nodes := by
  obtain ⟨accepted, late, queueing, messages_eq, rfl, room, isAccepted, isQueueing, gone⟩ := aligned
  refine ⟨accepted, late, queueing, messages_eq, rfl, room, ?_, ?_, gone⟩
  · intro node member
    exact fun queued => isAccepted node member ((same node (by simp [member])).mp queued)
  · intro node member
    exact (same node (by simp [member])).mpr (isQueueing node member)

theorem enlist (none_late : ∀ origin ∈ messages, ∃ node ∈ nodes, origin = some node)
    (queueing_node : phase node = .queueing) : Aligned phase messages (nodes ++ [node]) := by
  obtain ⟨accepted, late, queueing, rfl, rfl, room, isAccepted, isQueueing, gone⟩ := aligned
  obtain rfl : late = [] := by
    rw [List.eq_nil_iff_forall_not_mem]
    intro origin member
    obtain ⟨other, listed, rfl⟩ := none_late origin (List.mem_append_right _ member)
    exact gone other member listed
  refine ⟨accepted, [], queueing ++ [node], rfl, List.append_assoc _ _ _, Or.inl rfl, isAccepted,
    ?_, fun _ member => absurd member List.not_mem_nil⟩
  intro other member
  rcases List.mem_append.mp member with earlier | last
  · exact isQueueing other earlier
  · exact List.mem_singleton.mp last ▸ queueing_node

theorem accept (sorted : nodes.Pairwise (· < ·)) (listed : node ∈ nodes)
    (queueing_node : phase node = .queueing)
    (first : ∀ other ∈ nodes, phase other = .queueing → node ≤ other) :
    Aligned (Function.update phase node (.waiting false)) (messages ++ [some node]) nodes := by
  obtain ⟨accepted, late, queueing, rfl, rfl, room, isAccepted, isQueueing, gone⟩ := aligned
  have not_accepted : node ∉ accepted := fun member => isAccepted node member queueing_node
  have in_queueing : node ∈ queueing := (List.mem_append.mp listed).resolve_left not_accepted
  obtain ⟨head, rest, rfl⟩ := List.exists_cons_of_ne_nil (List.ne_nil_of_mem in_queueing)
  have rest_sorted := (List.pairwise_append.mp sorted).2.1
  rw [List.pairwise_cons] at rest_sorted
  obtain rfl : node = head := by
    rcases List.mem_cons.mp in_queueing with same | later
    · exact same
    · have above := rest_sorted.1 node later
      have below := first head (by simp) (isQueueing head List.mem_cons_self)
      omega
  obtain rfl : late = [] := room.resolve_right (List.cons_ne_nil _ _)
  refine ⟨accepted ++ [node], [], rest, by simp, by simp, Or.inl rfl, ?_, ?_,
    fun _ member => absurd member List.not_mem_nil⟩
  · intro other member
    rcases List.mem_append.mp member with earlier | last
    · have different : other ≠ node := fun same => not_accepted (same ▸ earlier)
      rw [Function.update_of_ne different]
      exact isAccepted other earlier
    · rw [List.mem_singleton.mp last, Function.update_self]
      exact nofun
  · intro other member
    rw [Function.update_of_ne (Nat.ne_of_gt (rest_sorted.1 other member))]
    exact isQueueing other (List.mem_cons_of_mem node member)

end

theorem late (aligned : Aligned phase messages nodes)
    (none_queueing : ∀ node ∈ nodes, phase node ≠ .queueing) :
    Aligned phase (messages ++ [none]) nodes := by
  obtain ⟨accepted, late, queueing, rfl, rfl, room, isAccepted, isQueueing, gone⟩ := aligned
  obtain rfl : queueing = [] := by
    rw [List.eq_nil_iff_forall_not_mem]
    intro node member
    exact none_queueing node (by simp [member]) (isQueueing node member)
  refine ⟨accepted, late ++ [none], [], List.append_assoc _ _ _, rfl, Or.inr rfl, isAccepted,
    isQueueing, ?_⟩
  intro node member
  refine gone node ?_
  simpa using member

theorem giveUp (aligned : Aligned phase messages nodes) (sorted : nodes.Pairwise (· < ·))
    (listed : node ∈ nodes) (accepted_node : phase node ≠ .queueing)
    (last : ∀ other ∈ nodes, other ≤ node) : Aligned phase messages (nodes.erase node) := by
  obtain ⟨accepted, late, queueing, rfl, rfl, room, isAccepted, isQueueing, gone⟩ := aligned
  have in_accepted : node ∈ accepted := by
    refine (List.mem_append.mp listed).resolve_right fun member => ?_
    exact accepted_node (isQueueing node member)
  obtain rfl : queueing = [] := by
    rw [List.eq_nil_iff_forall_not_mem]
    intro other member
    have above := (List.pairwise_append.mp sorted).2.2 node in_accepted other member
    have below := last other (by simp [member])
    omega
  rw [List.append_nil] at *
  obtain ⟨front, final, rfl⟩ : ∃ front final, accepted = front ++ [final] :=
    ⟨_, _, (List.dropLast_append_getLast (List.ne_nil_of_mem in_accepted)).symm⟩
  have split := List.pairwise_append.mp sorted
  obtain rfl : node = final := by
    rcases List.mem_append.mp in_accepted with earlier | same
    · have above := split.2.2 node earlier final (by simp)
      have below := last final (by simp)
      omega
    · exact List.mem_singleton.mp same
  have not_front : node ∉ front := fun member =>
    Nat.lt_irrefl _ (split.2.2 node member node (by simp))
  rw [List.erase_append_right _ not_front, List.erase_cons_head, List.append_nil]
  refine ⟨front, some node :: late, [], by simp, by simp, Or.inr rfl, ?_, isQueueing, ?_⟩
  · exact fun other member => isAccepted other (by simp [member])
  · intro other member listed_other
    rcases List.mem_cons.mp member with same | earlier
    · exact not_front (Option.some.inj same ▸ listed_other)
    · exact gone other earlier (by simp [listed_other])

section

variable {origin : Option ℕ} (aligned : Aligned phase (origin :: messages) nodes)
include aligned

theorem exists_head (listed : node ∈ nodes) :
    ∃ head later, origin = some head ∧ nodes = head :: later ∧ phase head ≠ .queueing := by
  obtain ⟨accepted, late, queueing, messages_eq, rfl, room, isAccepted, -, -⟩ := aligned
  cases accepted with
  | nil =>
      rw [List.map_nil, List.nil_append] at messages_eq
      rw [room.resolve_left (messages_eq ▸ List.cons_ne_nil _ _)] at listed
      contradiction
  | cons head rest =>
      rw [List.map_cons, List.cons_append, List.cons.injEq] at messages_eq
      exact ⟨head, rest ++ queueing, messages_eq.1, rfl, isAccepted head List.mem_cons_self⟩

theorem head_eq (sorted : nodes.Pairwise (· < ·)) (listed : node ∈ nodes)
    (first : ∀ other ∈ nodes, node ≤ other) : origin = some node := by
  obtain ⟨head, later, rfl, rfl, -⟩ := aligned.exists_head listed
  have below := first head List.mem_cons_self
  rw [List.pairwise_cons] at sorted
  rcases List.mem_cons.mp listed with same | behind
  · rw [same]
  · have above := sorted.1 node behind
    omega

end

theorem head_accepted (aligned : Aligned phase (some node :: messages) nodes)
    (listed : node ∈ nodes) : phase node ≠ .queueing := by
  obtain ⟨head, later, same, -, accepted⟩ := aligned.exists_head listed
  rw [Option.some.inj same]
  exact accepted

theorem matched (aligned : Aligned phase (some node :: messages) nodes) :
    Aligned phase messages (nodes.erase node) := by
  obtain ⟨accepted, late, queueing, messages_eq, rfl, room, isAccepted, isQueueing, gone⟩ := aligned
  cases accepted with
  | nil =>
      rw [List.map_nil, List.nil_append] at messages_eq
      rw [room.resolve_left (messages_eq ▸ List.cons_ne_nil _ _)]
      exact aligned_nil
  | cons head rest =>
      rw [List.map_cons, List.cons_append, List.cons.injEq] at messages_eq
      obtain ⟨same, rfl⟩ := messages_eq
      obtain rfl := Option.some.inj same
      rw [List.cons_append, List.erase_cons_head]
      refine ⟨rest, late, queueing, rfl, rfl, room, ?_, isQueueing, ?_⟩
      · exact fun other member => isAccepted other (List.mem_cons_of_mem node member)
      · exact fun other member listed => gone other member (List.mem_cons_of_mem node listed)

end Aligned

variable {state next : State}

/-- For every identifier the messages and the requests are in step, and the receiving thread has not
passed the request it looks for. -/
structure InStep (state : State) : Prop where
  sorted : state.rwMsgTxHead.Pairwise (· < ·)
  listed : ∀ node, state.phase node = .queueing → node ∈ state.rwMsgTxHead
  aligned : ∀ id, Aligned state.phase (outstanding state id) (waitingFor state id)
  ahead : ∀ msg node, state.recv = .walking msg node →
    ∀ other ∈ waitingFor state msg.id, node ≤ other
  found : ∀ msg node, state.recv = .walking msg node → msg.id = state.reqid node →
    msg.origin = some node

theorem mem_waitingFor {id : UInt16} :
    node ∈ waitingFor state id ↔ node ∈ state.rwMsgTxHead ∧ state.reqid node = id := by
  simp [waitingFor]

theorem waitingFor_congr (list : next.rwMsgTxHead = state.rwMsgTxHead)
    (reqid : next.reqid = state.reqid) : waitingFor next = waitingFor state := by
  funext id
  rw [waitingFor, waitingFor, list, reqid]

theorem waitingFor_erase (list : next.rwMsgTxHead = state.rwMsgTxHead.erase node)
    (reqid : next.reqid = state.reqid) (id : UInt16) :
    waitingFor next id = (waitingFor state id).erase node := by
  rw [waitingFor, waitingFor, list, reqid, List.erase_filter]

theorem InStep.sorted_waitingFor (inStep : InStep state) (id : UInt16) :
    (waitingFor state id).Pairwise (· < ·) := inStep.sorted.filter _

theorem coListNext_spec {list : List ℕ} (sorted : list.Pairwise (· < ·)) (listed : node ∈ list) :
    ∀ other ∈ list, node < other →
      ∃ following, coListNext node list = some following ∧ following ≤ other := by
  induction list with
  | nil => contradiction
  | cons head tail induction =>
      intro other member above
      rw [List.pairwise_cons] at sorted
      rw [coListNext]
      split
      · next same =>
          subst same
          have later : other ∈ tail := by
            refine (List.mem_cons.mp member).resolve_left fun eq => ?_
            omega
          obtain ⟨following, rest, rfl⟩ := List.exists_cons_of_ne_nil (List.ne_nil_of_mem later)
          refine ⟨following, rfl, ?_⟩
          rcases List.mem_cons.mp later with rfl | beyond
          · exact Nat.le_refl _
          · exact Nat.le_of_lt ((List.pairwise_cons.mp sorted.2).1 other beyond)
      · next different =>
          have in_tail : node ∈ tail :=
            (List.mem_cons.mp listed).resolve_left fun same => different same.symm
          refine induction sorted.2 in_tail other ?_ above
          refine (List.mem_cons.mp member).resolve_left fun same => ?_
          have below := sorted.1 node in_tail
          omega

namespace InStep

section

variable (inStep : InStep state) (list : next.rwMsgTxHead = state.rwMsgTxHead)
  (reqid : next.reqid = state.reqid) (recv : next.recv = state.recv)
include inStep list reqid recv

theorem of_same (listed : ∀ node, next.phase node = .queueing → state.phase node = .queueing)
    (aligned : ∀ id, Aligned next.phase (outstanding next id) (waitingFor state id)) :
    InStep next := by
  have waiting_eq := waitingFor_congr list reqid
  constructor
  all_goals simp only [list, reqid, recv, waiting_eq]
  exacts [inStep.sorted, fun node queueing => inStep.listed node (listed node queueing), aligned,
    inStep.ahead, inStep.found]

theorem of_phase (rx : next.rwMsgRxHead = state.rwMsgRxHead) (io : next.ioQueue = state.ioQueue)
    (same : ∀ node, next.phase node = .queueing ↔ state.phase node = .queueing) : InStep next := by
  refine inStep.of_same list reqid recv (fun node => (same node).mp) fun id => ?_
  have outstanding_eq : outstanding next id = outstanding state id := by
    rw [outstanding, outstanding, recv, rx, io]
  rw [outstanding_eq]
  exact (inStep.aligned id).congr fun node _ => same node

end

end InStep

theorem queueing_of_update {after : Phase} {other : ℕ}
    (queueing : Function.update state.phase node after other = .queueing)
    (past : after ≠ .queueing) : state.phase other = .queueing := by
  have different : other ≠ node := by
    rintro rfl
    rw [Function.update_self] at queueing
    exact past queueing
  rwa [Function.update_of_ne different] at queueing

theorem update_queueing_iff {before after : Phase} (at_node : state.phase node = before)
    (past : before ≠ .queueing) (still_past : after ≠ .queueing) (other : ℕ) :
    Function.update state.phase node after other = .queueing ↔ state.phase other = .queueing := by
  by_cases same : other = node
  · subst same
    rw [Function.update_self, at_node]
    exact iff_of_false still_past past
  · rw [Function.update_of_ne same]

theorem waitingFor_enlist (linked : Linked state) (reqid id : UInt16) :
    waitingFor (enlist state reqid) id =
      waitingFor state id ++ if reqid = id then [state.allocated] else [] := by
  rw [waitingFor, enlist, List.filter_append, waitingFor]
  congr 1
  · apply List.filter_congr
    intro node member
    simp [Function.update_of_ne (Nat.ne_of_lt (linked.known node member))]
  · by_cases same : reqid = id
    · simp [same]
    · simp [same]

theorem outstanding_accept {reqid : UInt16} {origin : Option ℕ} (recv : next.recv = state.recv)
    (rx : next.rwMsgRxHead = state.rwMsgRxHead)
    (io : next.ioQueue = state.ioQueue ++ [(reqid, origin)]) (id : UInt16) :
    outstanding next id = outstanding state id ++ if reqid = id then [origin] else [] := by
  by_cases same : reqid = id
  · simp [outstanding, recv, rx, io, same]
  · simp [outstanding, recv, rx, io, same]

namespace InStep

section

variable (inStep : InStep state)
include inStep

theorem enlist (linked : Linked state) {reqid : UInt16} (turn : InTurn state (.enlist reqid)) :
    InStep (RwMsg.enlist state reqid) := by
  have recv_below {msg : RxMsg} {node : ℕ} (at_node : state.recv = .walking msg node) :
      node < state.allocated := linked.recvKnown node (by rw [at_node]; rfl)
  constructor
  · refine List.pairwise_append.mpr ⟨inStep.sorted, List.pairwise_singleton _ _, ?_⟩
    intro node member last same
    exact List.mem_singleton.mp same ▸ linked.known node member
  · intro node queueing
    by_cases same : node = state.allocated
    · subst same
      simp [RwMsg.enlist]
    · simp only [RwMsg.enlist, Function.update_of_ne same] at queueing
      exact List.mem_append_left _ (inStep.listed node queueing)
  · intro id
    have aligned : Aligned (RwMsg.enlist state reqid).phase (outstanding state id)
        (waitingFor state id) := by
      refine (inStep.aligned id).congr fun node member => ?_
      have below := linked.known node (mem_waitingFor.mp member).1
      simp [RwMsg.enlist, Function.update_of_ne (Nat.ne_of_lt below)]
    rw [waitingFor_enlist linked]
    split
    · next same =>
        subst same
        exact aligned.enlist turn (by simp [RwMsg.enlist])
    · rw [List.append_nil]
      exact aligned
  · intro msg node at_node other member
    rw [waitingFor_enlist linked] at member
    rcases List.mem_append.mp member with earlier | last
    · exact inStep.ahead msg node at_node other earlier
    · split at last
      · exact List.mem_singleton.mp last ▸ Nat.le_of_lt (recv_below at_node)
      · contradiction
  · intro msg node at_node same
    simp only [RwMsg.enlist, Function.update_of_ne (Nat.ne_of_lt (recv_below at_node))] at same
    exact inStep.found msg node at_node same

theorem accept (queueing : state.phase node = .queueing) (turn : InTurn state (.queue node true)) :
    InStep (queue state node true) := by
  refine inStep.of_same rfl rfl rfl ?_ ?_
  · intro other still
    by_cases same : other = node
    · exact same ▸ queueing
    · simpa only [queue, if_true, Function.update_of_ne same] using still
  · intro id
    have outstanding_eq := @outstanding_accept state (queue state node true) (state.reqid node)
      (some node) rfl rfl rfl id
    rw [outstanding_eq]
    split
    · next same =>
        subst same
        exact (inStep.aligned _).accept (inStep.sorted_waitingFor _)
          (mem_waitingFor.mpr ⟨inStep.listed node queueing, rfl⟩) queueing (turn queueing)
    · next different =>
        rw [List.append_nil]
        refine (inStep.aligned id).congr fun other member => ?_
        have other_ne : other ≠ node := by
          rintro rfl
          exact different (mem_waitingFor.mp member).2
        simp [queue, Function.update_of_ne other_ne]

theorem sendNoCfm {reqid : UInt16} (turn : InTurn state (.sendNoCfm reqid true)) :
    InStep { state with ioQueue := state.ioQueue ++ [(reqid, none)] } := by
  refine inStep.of_same rfl rfl rfl (fun _ => id) fun id => ?_
  have outstanding_eq := @outstanding_accept state
    { state with ioQueue := state.ioQueue ++ [(reqid, none)] } reqid none rfl rfl rfl id
  rw [outstanding_eq]
  split
  · next same =>
      subst same
      exact (inStep.aligned _).late turn
  · rw [List.append_nil]
    exact inStep.aligned id

theorem giveUp (expired : state.phase node = .waiting true) (turn : InTurn state (.giveUp node)) :
    InStep { state with
      phase := Function.update state.phase node .leaving
      rwMsgTxHead := state.rwMsgTxHead.erase node } := by
  have same_queueing := update_queueing_iff expired nofun
    (show Phase.leaving ≠ .queueing from nofun)
  by_cases on_list : node ∈ state.rwMsgTxHead
  · have waiting_eq := @waitingFor_erase node state
      { state with
        phase := Function.update state.phase node .leaving
        rwMsgTxHead := state.rwMsgTxHead.erase node } rfl rfl
    constructor
    · exact inStep.sorted.sublist List.erase_sublist
    · intro other queueing
      have before := (same_queueing other).mp queueing
      have different : other ≠ node := by
        rintro rfl
        rw [expired] at before
        contradiction
      exact (List.mem_erase_of_ne different).mpr (inStep.listed other before)
    · intro id
      have aligned : Aligned (Function.update state.phase node .leaving) (outstanding state id)
          (waitingFor state id) := (inStep.aligned id).congr fun other _ => same_queueing other
      rw [waiting_eq]
      by_cases same : state.reqid node = id
      · subst same
        refine aligned.giveUp (inStep.sorted_waitingFor _) (mem_waitingFor.mpr ⟨on_list, rfl⟩) ?_
          (turn expired on_list)
        rw [Function.update_self]
        exact nofun
      · rw [List.erase_of_not_mem fun member => same (mem_waitingFor.mp member).2]
        exact aligned
    · intro msg other at_other later member
      rw [waiting_eq] at member
      exact inStep.ahead msg other at_other later (List.mem_of_mem_erase member)
    · exact inStep.found
  · rw [List.erase_of_not_mem on_list]
    exact inStep.of_phase rfl rfl rfl rfl rfl same_queueing

theorem macAnswer (param : List UInt8) : InStep (RwMsg.macAnswer state param) := by
  rw [RwMsg.macAnswer]
  split
  · exact inStep
  · next reqid origin rest io_eq =>
      refine inStep.of_same rfl rfl rfl (fun _ => id) fun id => ?_
      refine Eq.mp ?_ (inStep.aligned id)
      rw [outstanding, outstanding, io_eq]
      by_cases same : reqid = id
      · simp [same]
      · simp [same]

theorem macIndicate {id : UInt16} (param : List UInt8)
    (turn : InTurn state (.macIndicate id param)) :
    InStep { state with rwMsgRxHead := state.rwMsgRxHead ++ [⟨id, param, none⟩] } := by
  refine inStep.of_same rfl rfl rfl (fun _ queueing => queueing) fun other => ?_
  by_cases same : id = other
  · subst same
    rw [show waitingFor state id = [] from turn]
    exact aligned_nil
  · refine Eq.mp ?_ (inStep.aligned other)
    rw [outstanding, outstanding]
    simp [same]

/-- The receiving thread moves on without a change of the list. -/
theorem of_recv (list : next.rwMsgTxHead = state.rwMsgTxHead) (reqid : next.reqid = state.reqid)
    (phase : next.phase = state.phase)
    (aligned : ∀ id, Aligned state.phase (outstanding next id) (waitingFor state id))
    (walking : ∀ msg node, next.recv = .walking msg node → node ∈ state.rwMsgTxHead ∧
      ∀ other ∈ waitingFor state msg.id, node ≤ other) : InStep next := by
  have waiting_eq := waitingFor_congr list reqid
  constructor
  all_goals simp only [list, reqid, phase, waiting_eq]
  · exact inStep.sorted
  · exact inStep.listed
  · exact aligned
  · exact fun msg node at_node => (walking msg node at_node).2
  · intro msg node at_node same
    obtain ⟨listed, first⟩ := walking msg node at_node
    have messages := aligned msg.id
    simp only [outstanding, at_node, Recv.walkingMsg, Option.toList_some, List.cons_append,
      List.nil_append, List.filter_cons, decide_true, if_true, List.map_cons] at messages
    exact messages.head_eq (inStep.sorted_waitingFor _)
      (mem_waitingFor.mpr ⟨listed, same.symm⟩) first

end

end InStep

theorem outstanding_walking {msg : RxMsg} (at_node : state.recv = .walking msg node)
    (recv : next.recv.walkingMsg = none) (rx : next.rwMsgRxHead = state.rwMsgRxHead)
    (io : next.ioQueue = state.ioQueue) (id : UInt16) :
    outstanding state id =
      if msg.id = id then msg.origin :: outstanding next id else outstanding next id := by
  have walking : state.recv.walkingMsg = some msg := by
    rw [at_node]
    rfl
  by_cases same : msg.id = id
  · simp [outstanding, walking, recv, rx, io, same]
  · simp [outstanding, walking, recv, rx, io, same]

theorem elim_eq_walking {found : Option ℕ} {msg other : RxMsg}
    (at_node : (found.elim .idle (.walking msg) : Recv) = .walking other node) :
    found = some node ∧ msg = other := by
  cases found with
  | none => contradiction
  | some next =>
      obtain ⟨rfl, rfl⟩ := Recv.walking.inj at_node
      exact ⟨rfl, rfl⟩

namespace InStep

theorem recvIdle (inStep : InStep state) (idle : state.recv = .idle) {msg : RxMsg}
    {rest : List RxMsg} (rx_eq : state.rwMsgRxHead = msg :: rest) :
    InStep { state with
      rwMsgRxHead := rest
      recv := state.rwMsgTxHead.head?.elim .idle (.walking msg) } := by
  refine inStep.of_recv rfl rfl rfl ?_ ?_
  · intro id
    cases list_eq : state.rwMsgTxHead with
    | nil =>
        rw [waitingFor, list_eq]
        exact aligned_nil
    | cons head tail =>
        refine Eq.mp ?_ (inStep.aligned id)
        simp [outstanding, idle, rx_eq, Recv.walkingMsg]
  · intro other node at_node
    obtain ⟨head_eq, rfl⟩ := elim_eq_walking at_node
    obtain ⟨tail, list_eq⟩ := List.head?_eq_some_iff.mp head_eq
    refine ⟨by rw [list_eq]; exact List.mem_cons_self, ?_⟩
    intro later member
    have sorted := inStep.sorted
    have listed := (mem_waitingFor.mp member).1
    rw [list_eq, List.pairwise_cons] at sorted
    rw [list_eq] at listed
    rcases List.mem_cons.mp listed with rfl | beyond
    · exact Nat.le_refl _
    · exact Nat.le_of_lt (sorted.1 later beyond)

section

variable {msg : RxMsg} (inStep : InStep state) (at_node : state.recv = .walking msg node)
include inStep at_node

theorem recvMatch (same : msg.id = state.reqid node) :
    InStep { state with
      rwMsgTxHead := state.rwMsgTxHead.erase node
      recv := .copying msg node } := by
  have origin_eq := inStep.found msg node at_node same
  have outstanding_eq := @outstanding_walking node state
    { state with
      rwMsgTxHead := state.rwMsgTxHead.erase node
      recv := .copying msg node } msg at_node rfl rfl rfl
  have waiting_eq := @waitingFor_erase node state
    { state with
      rwMsgTxHead := state.rwMsgTxHead.erase node
      recv := .copying msg node } rfl rfl
  have messages := inStep.aligned msg.id
  rw [outstanding_eq, if_pos rfl, origin_eq] at messages
  constructor
  · exact inStep.sorted.sublist List.erase_sublist
  · intro other queueing
    have listed := inStep.listed other queueing
    refine (List.mem_erase_of_ne ?_).mpr listed
    rintro rfl
    exact messages.head_accepted (mem_waitingFor.mpr ⟨listed, same.symm⟩) queueing
  · intro id
    rw [waiting_eq]
    by_cases same_id : msg.id = id
    · subst same_id
      exact messages.matched
    · have aligned := inStep.aligned id
      rw [outstanding_eq, if_neg same_id] at aligned
      have absent : node ∉ waitingFor state id := fun member =>
        same_id (same.trans (mem_waitingFor.mp member).2)
      rw [List.erase_of_not_mem absent]
      exact aligned
  · exact fun _ _ copying => nomatch copying
  · exact fun _ _ copying => nomatch copying

theorem recvNext (different : msg.id ≠ state.reqid node) (listed : node ∈ state.rwMsgTxHead)
    (stale : Option ℕ) :
    InStep { state with recv := (nextNode state node stale).elim .idle (.walking msg) } := by
  have beyond : ∀ other ∈ waitingFor state msg.id,
      ∃ following, coListNext node state.rwMsgTxHead = some following ∧ following ≤ other := by
    intro other member
    obtain ⟨other_listed, other_id⟩ := mem_waitingFor.mp member
    have not_before := inStep.ahead msg node at_node other member
    have other_ne : other ≠ node := by
      rintro rfl
      exact different other_id.symm
    exact coListNext_spec inStep.sorted listed other other_listed (by omega)
  rw [nextNode, if_pos listed]
  refine inStep.of_recv rfl rfl rfl ?_ ?_
  · intro id
    cases next_eq : coListNext node state.rwMsgTxHead with
    | some following =>
        refine Eq.mp ?_ (inStep.aligned id)
        simp [outstanding, at_node, Recv.walkingMsg]
    | none =>
        by_cases same_id : msg.id = id
        · subst same_id
          have none_waiting : waitingFor state msg.id = [] := by
            rw [List.eq_nil_iff_forall_not_mem]
            intro other member
            obtain ⟨following, found, -⟩ := beyond other member
            rw [next_eq] at found
            contradiction
          rw [none_waiting]
          exact aligned_nil
        · have outstanding_eq := @outstanding_walking node state { state with recv := .idle } msg
            at_node rfl rfl rfl id
          rw [if_neg same_id] at outstanding_eq
          exact outstanding_eq ▸ inStep.aligned id
  · intro other following at_following
    obtain ⟨next_eq, rfl⟩ := elim_eq_walking at_following
    refine ⟨mem_of_coListNext next_eq, ?_⟩
    intro later member
    obtain ⟨found, found_eq, below⟩ := beyond later member
    rw [next_eq] at found_eq
    exact Option.some.inj found_eq ▸ below

end

theorem recvStep (inStep : InStep state) {stale : Option ℕ}
    (turn : InTurn state (.recvStep stale)) : InStep (RwMsg.recvStep state stale) := by
  rw [RwMsg.recvStep]
  split
  · next idle =>
      split
      · exact inStep
      · next msg rest rx_eq => exact inStep.recvIdle idle rx_eq
  · next msg node at_node =>
      split
      · next same => exact inStep.recvMatch at_node same
      · next different =>
          exact inStep.recvNext at_node different (turn msg node at_node different) stale
  · next msg node at_copy =>
      refine inStep.of_recv rfl rfl rfl ?_ (by simp)
      intro id
      refine Eq.mp ?_ (inStep.aligned id)
      simp [outstanding, at_copy, Recv.walkingMsg]
  · next msg node at_signal =>
      refine inStep.of_recv rfl rfl rfl ?_ (by simp)
      intro id
      refine Eq.mp ?_ (inStep.aligned id)
      simp [outstanding, at_signal, Recv.walkingMsg]

theorem step (inStep : InStep state) (linked : Linked state) {event : Event}
    (turn : InTurn state event) : InStep (machine.step state event).1 := by
  cases event with
  | enlist reqid => exact inStep.enlist linked turn
  | queue node accepted =>
      simp only [machine]
      split
      · next queueing =>
          cases accepted with
          | false => exact absurd queueing turn
          | true => exact inStep.accept queueing turn
      · exact inStep
  | sendNoCfm reqid accepted =>
      cases accepted with
      | false => exact inStep
      | true => exact inStep.sendNoCfm turn
  | wake node =>
      simp only [machine]
      split
      · next woken =>
          refine inStep.of_phase rfl rfl rfl rfl rfl ?_
          exact update_queueing_iff woken.1 (by simp) (by simp)
      · exact inStep
  | expire node =>
      simp only [machine]
      split
      · next waits =>
          refine inStep.of_phase rfl rfl rfl rfl rfl ?_
          exact update_queueing_iff waits.1 (by simp) (by simp)
      · exact inStep
  | giveUp node =>
      simp only [machine]
      split
      · next expired => exact inStep.giveUp expired turn
      · exact inStep
  | free node =>
      simp only [machine]
      split
      · next gone =>
          rcases gone with answered | leaving
          · refine inStep.of_phase rfl rfl rfl rfl rfl ?_
            exact update_queueing_iff answered (by simp) (by simp)
          · refine inStep.of_phase rfl rfl rfl rfl rfl ?_
            exact update_queueing_iff leaving (by simp) (by simp)
      · exact inStep
  | macAnswer param => exact inStep.macAnswer param
  | macIndicate id param => exact inStep.macIndicate param turn
  | recvStep stale => exact inStep.recvStep turn

end InStep

/-! ## The contents of the confirms -/

/-- The message the receiving thread is busy with. -/
def Recv.msg : Recv → Option RxMsg
  | .idle => none
  | .walking msg _ | .copying msg _ | .signalling msg _ => some msg

/-- The messages that the MAC has sent and the receiving thread is not done with. -/
def inFlight (state : State) : List RxMsg := state.recv.msg.toList ++ state.rwMsgRxHead

theorem inFlight_of_busy {msg : RxMsg} (busy : state.recv.msg = some msg) :
    inFlight state = msg :: state.rwMsgRxHead := by
  rw [inFlight, busy, Option.toList_some, List.singleton_append]

/-- The requests that the MAC has accepted and not answered. -/
def unanswered (state : State) : List ℕ := state.ioQueue.filterMap Prod.snd

/-- A message carries what the MAC has produced for the request it answers, and what is copied to a
request comes from the message that answers it. -/
structure Faithful (state : State) : Prop where
  once : (unanswered state).Nodup
  accepted : ∀ node ∈ unanswered state, state.answers node = none ∧ node < state.allocated ∧
    state.phase node ≠ .queueing
  fresh : ∀ node, state.phase node = .queueing ∨ state.allocated ≤ node → state.answers node = none
  inFlight : ∀ msg ∈ inFlight state, ∀ node, msg.origin = some node →
    state.answers node = some msg.param
  inHand : ∀ msg node, state.recv = .copying msg node ∨ state.recv = .signalling msg node →
    msg.origin = some node
  copied : ∀ msg node, state.recv = .signalling msg node → state.cfm node = msg.param
  semaphore : ∀ node, state.semaphore node = true → state.answers node = some (state.cfm node)
  received : OwnConfirms state

namespace Faithful

section

variable (faithful : Faithful state)
include faithful

/-- A sender that is past the queue moves on. -/
theorem of_phase (allocated : next.allocated = state.allocated)
    (phase : ∀ node, next.phase node = .queueing → state.phase node = .queueing)
    (semaphore : ∀ node, next.semaphore node = true → state.semaphore node = true)
    (cfm : next.cfm = state.cfm) (rx : next.rwMsgRxHead = state.rwMsgRxHead)
    (io : next.ioQueue = state.ioQueue) (recv : next.recv = state.recv)
    (answers : next.answers = state.answers) (received : OwnConfirms next) : Faithful next := by
  have unanswered_eq : unanswered next = unanswered state := by rw [unanswered, unanswered, io]
  have inFlight_eq : RwMsg.inFlight next = RwMsg.inFlight state := by
    rw [RwMsg.inFlight, RwMsg.inFlight, recv, rx]
  refine { once := ?_, accepted := ?_, fresh := ?_, inFlight := ?_, inHand := ?_, copied := ?_
           semaphore := ?_, received := received }
  all_goals simp only [allocated, cfm, recv, answers, unanswered_eq, inFlight_eq]
  · exact faithful.once
  · intro node member
    obtain ⟨no_answer, inside, past⟩ := faithful.accepted node member
    exact ⟨no_answer, inside, fun queueing => past (phase node queueing)⟩
  · intro node early
    exact faithful.fresh node (early.imp_left (phase node))
  · exact faithful.inFlight
  · exact faithful.inHand
  · exact faithful.copied
  · exact fun node set => faithful.semaphore node (semaphore node set)

theorem enlist (reqid : UInt16) : Faithful (RwMsg.enlist state reqid) := by
  refine { faithful with accepted := ?_, fresh := ?_, semaphore := ?_ }
  · intro node member
    obtain ⟨no_answer, inside, past⟩ := faithful.accepted node member
    refine ⟨no_answer, Nat.lt_succ_of_lt inside, ?_⟩
    simpa only [RwMsg.enlist, Function.update_of_ne (Nat.ne_of_lt inside)] using past
  · intro node early
    by_cases same : node = state.allocated
    · exact faithful.fresh node (Or.inr (Nat.le_of_eq same.symm))
    · simp only [RwMsg.enlist, Function.update_of_ne same] at early
      exact faithful.fresh node (early.imp_right Nat.le_of_succ_le)
  · intro node set
    by_cases same : node = state.allocated
    · subst same
      simp [RwMsg.enlist] at set
    · simp only [RwMsg.enlist, Function.update_of_ne same] at set
      exact faithful.semaphore node set

theorem accept (queueing : state.phase node = .queueing) (inside : node < state.allocated) :
    Faithful (queue state node true) := by
  have unanswered_eq : unanswered (queue state node true) = unanswered state ++ [node] := by
    simp [unanswered, queue]
  have past : ∀ other, (queue state node true).phase other = .queueing →
      other ≠ node ∧ state.phase other = .queueing := by
    intro other still
    by_cases same : other = node
    · subst same
      simp [queue] at still
    · refine ⟨same, ?_⟩
      simpa only [queue, if_true, Function.update_of_ne same] using still
  refine { faithful with once := ?_, accepted := ?_, fresh := ?_ }
  · rw [unanswered_eq, List.nodup_append]
    refine ⟨faithful.once, List.nodup_singleton _, ?_⟩
    rintro other member last same rfl
    exact (faithful.accepted other member).2.2 (List.mem_singleton.mp same ▸ queueing)
  · rw [unanswered_eq]
    intro other member
    rcases List.mem_append.mp member with earlier | last
    · obtain ⟨no_answer, below, not_queueing⟩ := faithful.accepted other earlier
      exact ⟨no_answer, below, fun still => not_queueing (past other still).2⟩
    · obtain rfl := List.mem_singleton.mp last
      exact ⟨faithful.fresh other (Or.inl queueing), inside, fun still => (past other still).1 rfl⟩
  · intro other early
    exact faithful.fresh other (early.imp_left fun still => (past other still).2)

theorem answer {reqid : UInt16} {rest : List (UInt16 × Option ℕ)}
    (io_eq : state.ioQueue = (reqid, some node) :: rest) (param : List UInt8) :
    Faithful { state with
      ioQueue := rest
      rwMsgRxHead := state.rwMsgRxHead ++ [⟨reqid, param, some node⟩]
      answers := Function.update state.answers node (some param) } := by
  have unanswered_eq : unanswered state = node :: rest.filterMap Prod.snd := by
    simp [unanswered, io_eq]
  have once := faithful.once
  rw [unanswered_eq, List.nodup_cons] at once
  obtain ⟨no_answer, inside, past⟩ := faithful.accepted node (by simp [unanswered_eq])
  have kept {other : ℕ} {contents : List UInt8} (produced : state.answers other = some contents) :
      Function.update state.answers node (some param) other = some contents := by
    have different : other ≠ node := by
      rintro rfl
      rw [no_answer] at produced
      contradiction
    rw [Function.update_of_ne different, produced]
  constructor
  · exact once.2
  · intro other member
    have different : other ≠ node := fun same => once.1 (same ▸ member)
    simp only [Function.update_of_ne different]
    exact faithful.accepted other (unanswered_eq ▸ List.mem_cons_of_mem node member)
  · intro other early
    have different : other ≠ node := by
      rintro rfl
      rcases early with queueing | beyond
      · exact past queueing
      · exact absurd inside (Nat.not_lt.mpr beyond)
    simp only [Function.update_of_ne different]
    exact faithful.fresh other early
  · intro msg member other origin_eq
    simp only [RwMsg.inFlight, ← List.append_assoc] at member
    rcases List.mem_append.mp member with earlier | last
    · exact kept (faithful.inFlight msg earlier other origin_eq)
    · obtain rfl := List.mem_singleton.mp last
      obtain rfl := Option.some.inj origin_eq
      exact Function.update_self ..
  · exact faithful.inHand
  · exact faithful.copied
  · exact fun other set => kept (faithful.semaphore other set)
  · exact fun pair member => kept (faithful.received pair member)

theorem arrive (id : UInt16) (param : List UInt8) {io : List (UInt16 × Option ℕ)}
    (io_eq : io.filterMap Prod.snd = unanswered state) :
    Faithful { state with
      ioQueue := io
      rwMsgRxHead := state.rwMsgRxHead ++ [⟨id, param, none⟩] } := by
  refine { faithful with once := ?_, accepted := ?_, inFlight := ?_ }
  · rw [unanswered, io_eq]
    exact faithful.once
  · rw [unanswered, io_eq]
    exact faithful.accepted
  · intro msg member other origin_eq
    simp only [RwMsg.inFlight, ← List.append_assoc] at member
    rcases List.mem_append.mp member with earlier | last
    · exact faithful.inFlight msg earlier other origin_eq
    · rw [List.mem_singleton.mp last] at origin_eq
      contradiction

theorem macAnswer (param : List UInt8) : Faithful (RwMsg.macAnswer state param) := by
  rw [RwMsg.macAnswer]
  split
  · exact faithful
  · next reqid origin rest io_eq =>
      cases origin with
      | none => exact faithful.arrive reqid param (by simp [unanswered, io_eq])
      | some node => exact faithful.answer io_eq param

theorem of_recv {list : List ℕ} {rx : List RxMsg} {recv : Recv}
    (messages : ∀ msg ∈ recv.msg.toList ++ rx, msg ∈ RwMsg.inFlight state)
    (inHand : ∀ msg node, recv = .copying msg node → msg.origin = some node)
    (not_signalling : ∀ msg node, recv ≠ .signalling msg node) :
    Faithful { state with rwMsgTxHead := list, rwMsgRxHead := rx, recv := recv } := by
  refine { faithful with inFlight := ?_, inHand := ?_, copied := ?_ }
  · exact fun msg member => faithful.inFlight msg (messages msg member)
  · rintro msg node (copying | signalling)
    · exact inHand msg node copying
    · exact absurd signalling (not_signalling msg node)
  · exact fun msg node signalling => absurd signalling (not_signalling msg node)

theorem recvCopy {msg : RxMsg} (at_copy : state.recv = .copying msg node) {faults : List ℕ} :
    Faithful { state with
      cfm := Function.update state.cfm node msg.param
      faults := faults
      recv := .signalling msg node } := by
  have in_flight := @inFlight_of_busy state msg (by rw [at_copy]; rfl)
  have origin_eq := faithful.inHand msg node (Or.inl at_copy)
  have produced := faithful.inFlight msg (by simp [in_flight]) node origin_eq
  refine { faithful with inFlight := ?_, inHand := ?_, copied := ?_, semaphore := ?_ }
  · intro other member
    exact faithful.inFlight other (in_flight ▸ member)
  · rintro other place (copying | signalling)
    · contradiction
    · obtain ⟨rfl, rfl⟩ := Recv.signalling.inj signalling
      exact origin_eq
  · intro other place signalling
    obtain ⟨rfl, rfl⟩ := Recv.signalling.inj signalling
    exact Function.update_self ..
  · intro other set
    by_cases same : other = node
    · subst same
      simpa only [Function.update_self] using produced
    · simpa only [Function.update_of_ne same] using faithful.semaphore other set

theorem recvSignal {msg : RxMsg} (at_signal : state.recv = .signalling msg node) {faults : List ℕ} :
    Faithful { state with
      semaphore := Function.update state.semaphore node true
      faults := faults
      recv := .idle } := by
  have in_flight := @inFlight_of_busy state msg (by rw [at_signal]; rfl)
  have origin_eq := faithful.inHand msg node (Or.inr at_signal)
  have produced := faithful.inFlight msg (by simp [in_flight]) node origin_eq
  refine { faithful with inFlight := ?_, inHand := ?_, copied := ?_, semaphore := ?_ }
  · intro other member
    exact faithful.inFlight other (in_flight ▸ List.mem_cons_of_mem msg member)
  · rintro other place (copying | signalling) <;> contradiction
  · exact fun other place signalling => nomatch signalling
  · intro other set
    by_cases same : other = node
    · subst same
      rw [produced, faithful.copied msg other at_signal]
    · simp only [Function.update_of_ne same] at set
      exact faithful.semaphore other set

theorem recvStep (inStep : InStep state) (stale : Option ℕ) :
    Faithful (RwMsg.recvStep state stale) := by
  rw [RwMsg.recvStep]
  split
  · split
    · exact faithful
    · next idle msg rest rx_eq =>
        refine faithful.of_recv ?_ ?_ ?_
        · rw [RwMsg.inFlight, rx_eq]
          cases state.rwMsgTxHead.head? with
          | none | some node => exact fun other member => by simp_all [Recv.msg]
        all_goals cases state.rwMsgTxHead.head? <;> exact nofun
  · next msg node at_node =>
      have in_flight := @inFlight_of_busy state msg (by rw [at_node]; rfl)
      split
      · next same =>
          refine faithful.of_recv ?_ ?_ nofun
          · rw [in_flight]
            exact fun _ => id
          · intro other place copying
            obtain ⟨rfl, rfl⟩ := Recv.copying.inj copying
            exact inStep.found msg node at_node same
      · refine faithful.of_recv ?_ ?_ ?_
        · rw [in_flight]
          cases nextNode state node stale with
          | none => exact fun other member => List.mem_cons_of_mem msg member
          | some following => exact fun _ => id
        all_goals cases nextNode state node stale <;> exact nofun
  · next msg node at_copy => exact faithful.recvCopy at_copy
  · next msg node at_signal => exact faithful.recvSignal at_signal

theorem wake : Faithful (machine.step state (.wake node)).1 := by
  simp only [machine]
  split
  · next woken =>
      refine faithful.of_phase rfl ?_ ?_ rfl rfl rfl rfl rfl ?_
      · exact fun other queueing => queueing_of_update queueing (by simp)
      · intro other set
        by_cases same : other = node
        · subst same
          exact woken.2
        · simpa only [Function.update_of_ne same] using set
      · intro pair member
        rcases List.mem_append.mp member with earlier | last
        · exact faithful.received pair earlier
        · rw [List.mem_singleton.mp last]
          exact faithful.semaphore node woken.2
  · exact faithful

end

theorem step (faithful : Faithful state) (inStep : InStep state) (linked : Linked state)
    {event : Event} (turn : InTurn state event) : Faithful (machine.step state event).1 := by
  cases event with
  | enlist reqid => exact faithful.enlist reqid
  | queue node accepted =>
      simp only [machine]
      split
      · next queueing =>
          cases accepted with
          | false => exact absurd queueing turn
          | true => exact faithful.accept queueing (linked.known node (inStep.listed node queueing))
      · exact faithful
  | sendNoCfm reqid accepted =>
      cases accepted with
      | false => exact faithful
      | true =>
          have unanswered_eq :
              unanswered (machine.step state (.sendNoCfm reqid true)).1 = unanswered state := by
            simp [unanswered, machine]
          refine { faithful with once := ?_, accepted := ?_ }
          · rw [unanswered_eq]
            exact faithful.once
          · rw [unanswered_eq]
            exact faithful.accepted
  | wake node => exact faithful.wake
  | expire node | giveUp node | free node =>
      simp only [machine]
      split
      · exact faithful.of_phase rfl (fun other queueing => queueing_of_update queueing (by simp))
          (fun _ => id) rfl rfl rfl rfl rfl faithful.received
      · exact faithful
  | macAnswer param => exact faithful.macAnswer param
  | macIndicate id param => exact faithful.arrive id param rfl
  | recvStep stale => exact faithful.recvStep inStep stale

end Faithful

theorem inStep_start : InStep start where
  sorted := List.Pairwise.nil
  listed _ queueing := nomatch queueing
  aligned _ := aligned_nil
  ahead _ _ walking := nomatch walking
  found _ _ walking := nomatch walking

theorem faithful_start : Faithful start where
  once := List.nodup_nil
  accepted _ member := absurd member List.not_mem_nil
  fresh _ _ := rfl
  inFlight _ member := absurd member List.not_mem_nil
  inHand _ _ busy := by rcases busy with copying | signalling <;> contradiction
  copied _ _ signalling := nomatch signalling
  semaphore _ set := nomatch set
  received _ member := absurd member List.not_mem_nil

/-- The receiving thread handles a message that finds the given number of other nodes before its
own. -/
def handling (others : ℕ) : List Event := List.replicate (others + 4) (.recvStep none)

/-- Two senders with different identifiers, a request that gives up and whose late confirm finds no
request, and one more request of the same identifier. -/
def inTurnRun : List Event := List.flatten
  [[.enlist 1, .enlist 2, .queue 1 true, .queue 0 true, .macAnswer [20], .macAnswer [10]],
    handling 1, [.wake 1], handling 0,
    [.wake 0, .enlist 1, .queue 2 true, .expire 2, .giveUp 2, .free 2, .macAnswer [30],
      .recvStep none, .enlist 1, .queue 3 true, .macAnswer [40]],
    handling 0, [.wake 3]]

/-- A request gives up, and its late confirm comes after another request of its identifier. -/
def lateRun : List Event := List.flatten
  [[.enlist 1, .queue 0 true, .expire 0, .giveUp 0, .free 0, .enlist 1, .queue 1 true,
      .macAnswer [10]], handling 0, [.wake 1]]

/-- Two senders of one identifier queue their messages in the other order. -/
def crossedRun : List Event := List.flatten
  [[.enlist 1, .enlist 1, .queue 1 true, .queue 0 true, .macAnswer [10]], handling 0, [.wake 0]]

end BdkFreertos.RwMsg
