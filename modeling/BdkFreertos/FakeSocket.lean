import BdkFreertos.Arena
import BdkFreertos.Machine
import Mathlib.Algebra.Ring.Int.Defs
import Mathlib.Data.List.Forall2
import Mathlib.Logic.Function.Basic

/-!
# Fake sockets between the MAC and the supplicant

Every function looks its socket up with interrupts disabled, and uses the element it has found with
interrupts disabled again.  Calls of other threads may come between the two, and what memory is
needed is allocated there.
-/

namespace BdkFreertos.FakeSocket

/-- The two lists of messages of a socket. -/
inductive Direction
  /-- `sk_tx_msg`, from the supplicant to the MAC. -/
  | tx
  /-- `sk_rx_msg`, from the MAC to the supplicant. -/
  | rx
  deriving DecidableEq

/-- The bytes of a `SOCKET_MSG`. -/
abbrev Msg := List UInt8

/-- The list of sockets and the elements, by address.  An address is used once. -/
structure Sockets where
  arena : Arena ℤ
  /-- `socket_entity.sk_head`. -/
  skHead : List ℕ
  /-- `sk_tx_msg` and `sk_rx_msg` of the elements. -/
  msgs : Direction → ℕ → List Msg
  /-- An `ASSERT` has failed, which stops the system. -/
  asserted : Bool

/-- The calls of the threads. -/
inductive Call
  | fsocketInit (af type protocol : ℤ)
  | send (direction : Direction) (sk : ℤ) (buf : Msg)
  | recv (direction : Direction) (sk : ℤ) (len : ℕ)
  | peek (direction : Direction) (sk : ℤ)
  | fsocketClose (sk : ℤ)

def keSkSend (sk : ℤ) (buf : Msg) : Call := .send .rx sk buf

def keSkRecv (sk : ℤ) (len : ℕ) : Call := .recv .tx sk len

def keSkRecvPeekNextPayloadSize (sk : ℤ) : Call := .peek .tx sk

def keSkSendPeekNextPayloadSize (sk : ℤ) : Call := .peek .rx sk

def fsocketSend (sk : ℤ) (buf : Msg) : Call := .send .tx sk buf

def fsocketRecv (sk : ℤ) (len : ℕ) : Call := .recv .rx sk len

def fsocketPeekRecvNextPayloadSize (sk : ℤ) : Call := .peek .rx sk

/-- What is left of a call after the socket has been looked up. -/
inductive Pending
  | init (sk : ℤ)
  | send (direction : Direction) (element : ℕ) (buf : Msg)
  | recv (direction : Direction) (sk : ℤ) (element len : ℕ)
  | peek (direction : Direction) (sk : ℤ) (element : ℕ)
  | close (element : ℕ)

/-- What a call returns. -/
inductive Return
  /-- The number of the socket, or zero. -/
  | socket (sk : ℤ)
  | sent (ret : ℕ)
  | received (bytes : Msg)
  /-- The length of the next message, or zero. -/
  | peeked (len : ℕ)
  | closed

def skGetSkElement (sockets : Sockets) (sk : ℤ) : Option ℕ :=
  sockets.skHead.find? fun element => sockets.arena.allocated[element]? = some sk

/-- A call up to the lookup of its socket. -/
def lookup (sockets : Sockets) : Call → Pending ⊕ Return
  | .fsocketInit af type protocol =>
      let sk := af + type + protocol
      match skGetSkElement sockets sk with
      | some _ => .inr (.socket sk)
      | none => .inl (.init sk)
  | .send direction sk buf =>
      match skGetSkElement sockets sk with
      | none => .inr (.sent 0)
      | some element => .inl (.send direction element buf)
  | .recv direction sk len =>
      match skGetSkElement sockets sk with
      | none => .inr (.received [])
      | some element => .inl (.recv direction sk element len)
  | .peek direction sk =>
      match skGetSkElement sockets sk with
      | none => .inr (.peeked 0)
      | some element => .inl (.peek direction sk element)
  | .fsocketClose sk =>
      match skGetSkElement sockets sk with
      | none => .inr .closed
      | some element => .inl (.close element)

/-- Use an element, which is a fault when it has been freed. -/
def Sockets.touch (sockets : Sockets) (element : ℕ) : Sockets :=
  { sockets with arena := (sockets.arena.read element).1 }

/-- The messages of an element are changed. -/
def Sockets.setMsgs (sockets : Sockets) (direction : Direction) (element : ℕ) (msgs : List Msg) :
    Sockets :=
  { sockets with
    msgs := Function.update sockets.msgs direction
      (Function.update (sockets.msgs direction) element msgs) }

/-- The rest of `fsocket_init`. -/
def finishInit (sockets : Sockets) (sk : ℤ) (allocated : Bool) : Sockets × Return :=
  if allocated then
    let (arena, element) := sockets.arena.alloc sk
    ({ sockets with
        arena
        skHead := element :: sockets.skHead
        msgs := fun direction => Function.update (sockets.msgs direction) element [] },
      .socket sk)
  else
    (sockets, .socket 0)

/-- The rest of `ke_sk_send` and `fsocket_send`. -/
def finishSend (sockets : Sockets) (direction : Direction) (element : ℕ) (buf : Msg)
    (allocated : Bool) : Sockets × Return :=
  if allocated then
    ((sockets.touch element).setMsgs direction element (sockets.msgs direction element ++ [buf]),
      .sent buf.length)
  else
    (sockets, .sent 0)

/-- The rest of `ke_sk_recv` and `fsocket_recv`. -/
def finishRecv (sockets : Sockets) (direction : Direction) (element len : ℕ) :
    Sockets × Option Return :=
  match sockets.msgs direction element with
  | [] => (sockets.touch element, some (.received []))
  | msg :: rest =>
      let count := min msg.length len
      if count = 0 then
        ({ sockets.touch element with asserted := true }, none)
      else
        ((sockets.touch element).setMsgs direction element rest, some (.received (msg.take count)))

/-- The rest of the peek functions. -/
def finishPeek (sockets : Sockets) (direction : Direction) (element : ℕ) : Sockets × Return :=
  (sockets.touch element,
    .peeked (match sockets.msgs direction element with
      | [] => 0
      | msg :: _ => msg.length))

/-- The rest of `fsocket_close`. -/
def finishClose (sockets : Sockets) (element : ℕ) : Sockets × Return :=
  ({ sockets with
      arena := sockets.arena.free element
      skHead := sockets.skHead.erase element
      msgs := fun direction => Function.update (sockets.msgs direction) element [] },
    .closed)

/-- What a receiver got. -/
structure Delivery where
  bytes : Msg
  /-- The receiver has given at least the length that its peek returned. -/
  relied : Bool

/-- What happens. -/
inductive Event
  /-- A thread calls a function, which looks its socket up. -/
  | call (thread : ℕ) (call : Call)
  /-- The call of a thread goes on to its end; its allocations succeed or fail. -/
  | finish (thread : ℕ) (allocated : Bool)

/-- The sockets with the threads and the history of every list of messages. -/
structure Tracked where
  sockets : Sockets
  /-- The calls that have not returned. -/
  pending : ℕ → Option Pending
  /-- What the last peek of a thread has returned, until the thread receives. -/
  peeked : ℕ → Direction → ℤ → Option ℕ
  /-- The messages that were accepted for an element. -/
  accepted : Direction → ℕ → List Msg
  /-- The messages that were received from an element. -/
  delivered : Direction → ℕ → List Delivery

def Tracked.start : Tracked where
  sockets := ⟨.empty, [], fun _ _ => [], false⟩
  pending _ := none
  peeked _ _ _ := none
  accepted _ _ := []
  delivered _ _ := []

/-- The length that a receiver gives is enough for what its peek has returned. -/
def Tracked.relies (tracked : Tracked) (thread : ℕ) (direction : Direction) (sk : ℤ) (len : ℕ) :
    Bool :=
  match tracked.peeked thread direction sk with
  | none => false
  | some size => size ≤ len

/-- A function of direction and another argument changed at one place. -/
def put {Key value : Type*} [DecidableEq Key] (table : Direction → Key → value)
    (direction : Direction) (key : Key) (new : value) : Direction → Key → value :=
  Function.update table direction (Function.update (table direction) key new)

/-- What is remembered of a peek. -/
def Tracked.notePeek (tracked : Tracked) (thread : ℕ) (direction : Direction) (sk : ℤ)
    (size : Option ℕ) : Tracked :=
  { tracked with
    peeked := Function.update tracked.peeked thread
      (put (tracked.peeked thread) direction sk size) }

/-- The call of a thread goes on to its end. -/
def Tracked.finish (tracked : Tracked) (thread : ℕ) (allocated : Bool) : Tracked × Option Return :=
  let returned := { tracked with pending := Function.update tracked.pending thread none }
  match tracked.pending thread with
  | none => (tracked, none)
  | some (.init sk) =>
      let (sockets, ret) := finishInit tracked.sockets sk allocated
      ({ returned with sockets }, some ret)
  | some (.send direction element buf) =>
      let (sockets, ret) := finishSend tracked.sockets direction element buf allocated
      ({ returned with
          sockets
          accepted :=
            if allocated then
              put tracked.accepted direction element (tracked.accepted direction element ++ [buf])
            else tracked.accepted }, some ret)
  | some (.recv direction sk element len) =>
      let (sockets, ret) := finishRecv tracked.sockets direction element len
      let delivered :=
        match tracked.sockets.msgs direction element, ret with
        | _ :: _, some (.received bytes) =>
            put tracked.delivered direction element (tracked.delivered direction element ++
              [⟨bytes, tracked.relies thread direction sk len⟩])
        | _, _ => tracked.delivered
      ({ returned with sockets, delivered }.notePeek thread direction sk none, ret)
  | some (.peek direction sk element) =>
      let (sockets, ret) := finishPeek tracked.sockets direction element
      let size :=
        match ret with
        | .peeked size => some size
        | _ => none
      ({ returned with sockets }.notePeek thread direction sk size, some ret)
  | some (.close element) =>
      let (sockets, ret) := finishClose tracked.sockets element
      ({ returned with sockets }, some ret)

/-- A thread that has no call under way calls a function. -/
def Tracked.begin (tracked : Tracked) (thread : ℕ) (call : Call) : Tracked × Option Return :=
  match tracked.pending thread with
  | some _ => (tracked, none)
  | none =>
      match lookup tracked.sockets call with
      | .inl pending =>
          ({ tracked with pending := Function.update tracked.pending thread (some pending) }, none)
      | .inr ret =>
          match call, ret with
          | .peek direction sk, .peeked size =>
              (tracked.notePeek thread direction sk (some size), some ret)
          | .recv direction sk _, _ => (tracked.notePeek thread direction sk none, some ret)
          | _, _ => (tracked, some ret)

/-- The threads call the functions in any order. -/
def threads : Machine Tracked Event (Option Return) where
  step tracked event :=
    match event with
    | .call thread call => tracked.begin thread call
    | .finish thread allocated => tracked.finish thread allocated

def Sockets.number (sockets : Sockets) (element : ℕ) : Option ℤ := sockets.arena.allocated[element]?

/-- The messages of a list were received in the order in which they were accepted, each once, and
whole by receivers that relied on their peek; what is left is in the list. -/
def InOrder (accepted : List Msg) (delivered : List Delivery) (left : List Msg) (inUse : Prop) :
    Prop :=
  ∃ taken, taken <+: accepted ∧ (inUse → accepted = taken ++ left) ∧
    List.Forall₂ (fun msg delivery => delivery.bytes <+: msg ∧
      (delivery.relied = true → delivery.bytes = msg)) taken delivered

/-- What is claimed of the sockets. -/
structure Good (tracked : Tracked) : Prop where
  single : (tracked.sockets.skHead.map tracked.sockets.number).Nodup
  nonempty : ∀ element ∈ tracked.sockets.skHead, ∀ direction,
    [] ∉ tracked.sockets.msgs direction element
  notAsserted : tracked.sockets.asserted = false
  untouched : tracked.sockets.arena.faults = []
  inOrder : ∀ direction element,
    InOrder (tracked.accepted direction element) (tracked.delivered direction element)
      (tracked.sockets.msgs direction element) (element ∈ tracked.sockets.skHead)

/-- A new element has a number that no element has; an element that is used has not been freed
since it was looked up; no empty message is sent; a receiver of a message gives some length, and one
that relies on its peek finds no longer message than it gives. -/
def Careful (tracked : Tracked) : Event → Prop
  | .call _ _ => True
  | .finish thread allocated =>
      match tracked.pending thread with
      | none => True
      | some (.init sk) =>
          allocated = true → ∀ element ∈ tracked.sockets.skHead,
            tracked.sockets.number element ≠ some sk
      | some (.send _ element buf) =>
          allocated = true → tracked.sockets.arena.Live element ∧ buf ≠ []
      | some (.recv direction sk element len) =>
          tracked.sockets.arena.Live element ∧
            ∀ msg ∈ (tracked.sockets.msgs direction element).head?, 0 < len ∧
              (tracked.relies thread direction sk len = true → msg.length ≤ len)
      | some (.peek _ _ element) | some (.close element) => tracked.sockets.arena.Live element

/-- What holds besides the claim. -/
structure Strong (tracked : Tracked) : Prop where
  good : Good tracked
  owned : tracked.sockets.arena.Owned tracked.sockets.skHead
  fresh : ∀ direction element, tracked.sockets.arena.allocated.length ≤ element →
    tracked.accepted direction element = [] ∧ tracked.delivered direction element = []

theorem strong_start : Strong .start where
  good :=
    { single := List.nodup_nil
      nonempty := fun _ member => absurd member List.not_mem_nil
      notAsserted := rfl
      untouched := rfl
      inOrder := fun _ _ => ⟨[], List.prefix_rfl, fun _ => rfl, .nil⟩ }
  owned := Arena.owned_empty
  fresh _ _ _ := ⟨rfl, rfl⟩

theorem Strong.frame {tracked tracked' : Tracked} (strong : Strong tracked)
    (sockets_eq : tracked'.sockets = tracked.sockets)
    (accepted_eq : tracked'.accepted = tracked.accepted)
    (delivered_eq : tracked'.delivered = tracked.delivered) : Strong tracked' := by
  obtain ⟨⟨single, nonempty, notAsserted, untouched, inOrder⟩, owned, fresh⟩ := strong
  constructor
  · constructor <;> rw [sockets_eq] <;> try rw [accepted_eq, delivered_eq]
    all_goals assumption
  · rw [sockets_eq]
    exact owned
  · rw [sockets_eq, accepted_eq, delivered_eq]
    exact fresh

theorem put_self {Key value : Type*} [DecidableEq Key] (table : Direction → Key → value)
    (direction : Direction) (key : Key) (new : value) :
    put table direction key new direction key = new := by
  rw [put, Function.update_self, Function.update_self]

theorem put_of_ne {Key value : Type*} [DecidableEq Key] (table : Direction → Key → value)
    {direction direction' : Direction} {key key' : Key} (new : value)
    (other : ¬(direction' = direction ∧ key' = key)) :
    put table direction key new direction' key' = table direction' key' := by
  unfold put
  by_cases same : direction' = direction
  · subst same
    rw [Function.update_self, Function.update_of_ne fun equal => other ⟨rfl, equal⟩]
  · rw [Function.update_of_ne same]

theorem msgs_setMsgs (sockets : Sockets) (direction : Direction) (element : ℕ) (msgs : List Msg) :
    (sockets.setMsgs direction element msgs).msgs = put sockets.msgs direction element msgs := rfl

variable {sockets : Sockets} {element : ℕ}

theorem touch_of_live (live : sockets.arena.Live element) : sockets.touch element = sockets := by
  rw [Sockets.touch, Arena.read, if_pos live]

theorem faults_touch (dead : ¬sockets.arena.Live element) :
    (sockets.touch element).arena.faults ≠ [] := by
  rw [Sockets.touch, Arena.read, if_neg dead]
  simp

section
variable {tracked : Tracked}

theorem Strong.mem_iff_live (strong : Strong tracked) (element : ℕ) :
    element ∈ tracked.sockets.skHead ↔ tracked.sockets.arena.Live element :=
  ⟨strong.owned.live, strong.owned.mem_of_live⟩

theorem Strong.init (strong : Strong tracked) {sk : ℤ}
    (unused : ∀ element ∈ tracked.sockets.skHead, tracked.sockets.number element ≠ some sk) :
    Strong { tracked with sockets := (finishInit tracked.sockets sk true).1 } := by
  have earlier {element : ℕ} (member : element ∈ tracked.sockets.skHead) :
      element < tracked.sockets.arena.allocated.length := (strong.owned.live member).1
  have number_eq {element : ℕ} (member : element ∈ tracked.sockets.skHead) :
      (finishInit tracked.sockets sk true).1.number element = tracked.sockets.number element :=
    List.getElem?_append_left (earlier member)
  constructor
  · constructor
    · refine List.nodup_cons.mpr ⟨?_, ?_⟩
      · intro member
        obtain ⟨element, member, equal⟩ := List.mem_map.mp member
        rw [number_eq member] at equal
        exact unused element member (equal.trans List.getElem?_concat_length)
      · rw [List.map_congr_left fun element member => number_eq member]
        exact strong.good.single
    · intro element member direction
      rcases List.mem_cons.mp member with rfl | member
      · show [] ∉ Function.update (tracked.sockets.msgs direction) _ [] _
        simp
      · show [] ∉ Function.update (tracked.sockets.msgs direction) _ [] _
        rw [Function.update_of_ne (Nat.ne_of_lt (earlier member))]
        exact strong.good.nonempty element member direction
    · exact strong.good.notAsserted
    · exact strong.good.untouched
    · intro direction element
      show InOrder _ _ (Function.update (tracked.sockets.msgs direction) _ [] element) _
      by_cases same : element = tracked.sockets.arena.allocated.length
      · obtain ⟨accepted_eq, delivered_eq⟩ := strong.fresh direction element (Nat.le_of_eq same.symm)
        subst same
        rw [accepted_eq, delivered_eq]
        exact ⟨[], List.prefix_rfl, fun _ => by rw [Function.update_self]; rfl, .nil⟩
      · rw [Function.update_of_ne same]
        obtain ⟨taken, initial, split_eq, received⟩ := strong.good.inOrder direction element
        refine ⟨taken, initial, fun member => split_eq ?_, received⟩
        exact (List.mem_cons.mp member).resolve_left same
  · exact strong.owned.alloc sk
  · intro direction element beyond
    refine strong.fresh direction element (Nat.le_trans ?_ beyond)
    exact Nat.le_of_lt (by simp [finishInit, Arena.alloc])

variable {element : ℕ}

theorem Strong.send (strong : Strong tracked) (direction : Direction) {buf : Msg}
    (live : tracked.sockets.arena.Live element) (filled : buf ≠ []) :
    Strong { tracked with
      sockets := (finishSend tracked.sockets direction element buf true).1
      accepted := put tracked.accepted direction element
        (tracked.accepted direction element ++ [buf]) } := by
  have sockets_eq : (finishSend tracked.sockets direction element buf true).1 =
      tracked.sockets.setMsgs direction element (tracked.sockets.msgs direction element ++ [buf]) := by
    rw [finishSend, if_pos rfl, touch_of_live live]
  rw [sockets_eq]
  constructor
  · constructor
    · exact strong.good.single
    · intro element' member direction'
      rw [msgs_setMsgs]
      by_cases same : direction' = direction ∧ element' = element
      · obtain ⟨rfl, rfl⟩ := same
        rw [put_self, List.mem_append, List.mem_singleton, not_or]
        exact ⟨strong.good.nonempty _ member _, fun equal => filled equal.symm⟩
      · rw [put_of_ne _ _ same]
        exact strong.good.nonempty element' member direction'
    · exact strong.good.notAsserted
    · exact strong.good.untouched
    · intro direction' element'
      show InOrder (put tracked.accepted _ _ _ _ _) _ _ _
      rw [msgs_setMsgs]
      by_cases same : direction' = direction ∧ element' = element
      · obtain ⟨rfl, rfl⟩ := same
        rw [put_self, put_self]
        obtain ⟨taken, initial, split_eq, received⟩ := strong.good.inOrder direction' element'
        refine ⟨taken, initial.trans (List.prefix_append _ _), fun member => ?_, received⟩
        rw [split_eq member, List.append_assoc]
      · rw [put_of_ne _ _ same, put_of_ne _ _ same]
        exact strong.good.inOrder direction' element'
  · exact strong.owned
  · intro direction' element' beyond
    obtain ⟨accepted_eq, delivered_eq⟩ := strong.fresh direction' element' beyond
    refine ⟨?_, delivered_eq⟩
    show put tracked.accepted _ _ _ _ _ = []
    rw [put_of_ne, accepted_eq]
    rintro ⟨-, rfl⟩
    exact absurd live.1 (Nat.not_lt_of_le beyond)

theorem Strong.recv (strong : Strong tracked) {direction : Direction} {len : ℕ} {msg : Msg}
    {rest : List Msg} {relied : Bool} (live : tracked.sockets.arena.Live element)
    (next : tracked.sockets.msgs direction element = msg :: rest)
    (whole : relied = true → msg.length ≤ len) :
    Strong { tracked with
      sockets := tracked.sockets.setMsgs direction element rest
      delivered := put tracked.delivered direction element
        (tracked.delivered direction element ++ [⟨msg.take (min msg.length len), relied⟩]) } := by
  have member := (strong.mem_iff_live element).mpr live
  constructor
  · constructor
    · exact strong.good.single
    · intro element' member' direction'
      rw [msgs_setMsgs]
      by_cases same : direction' = direction ∧ element' = element
      · obtain ⟨rfl, rfl⟩ := same
        have earlier := strong.good.nonempty element' member' direction'
        rw [next] at earlier
        rw [put_self]
        exact fun inside => earlier (List.mem_cons_of_mem _ inside)
      · rw [put_of_ne _ _ same]
        exact strong.good.nonempty element' member' direction'
    · exact strong.good.notAsserted
    · exact strong.good.untouched
    · intro direction' element'
      show InOrder _ (put tracked.delivered _ _ _ _ _) _ _
      rw [msgs_setMsgs]
      by_cases same : direction' = direction ∧ element' = element
      · obtain ⟨rfl, rfl⟩ := same
        rw [put_self, put_self]
        obtain ⟨taken, -, split_eq, received⟩ := strong.good.inOrder direction' element'
        have split_eq := split_eq member
        rw [next, List.append_cons] at split_eq
        refine ⟨taken ++ [msg], split_eq ▸ List.prefix_append _ _, fun _ => split_eq, ?_⟩
        refine List.rel_append received (.cons ⟨List.take_prefix _ _, fun relies => ?_⟩ .nil)
        rw [Nat.min_eq_left (whole relies), List.take_length]
      · rw [put_of_ne _ _ same, put_of_ne _ _ same]
        exact strong.good.inOrder direction' element'
  · exact strong.owned
  · intro direction' element' beyond
    obtain ⟨accepted_eq, delivered_eq⟩ := strong.fresh direction' element' beyond
    refine ⟨accepted_eq, ?_⟩
    show put tracked.delivered _ _ _ _ _ = []
    rw [put_of_ne, delivered_eq]
    rintro ⟨-, rfl⟩
    exact absurd live.1 (Nat.not_lt_of_le beyond)

theorem Strong.close (strong : Strong tracked) (live : tracked.sockets.arena.Live element) :
    Strong { tracked with sockets := (finishClose tracked.sockets element).1 } := by
  have member := (strong.mem_iff_live element).mpr live
  have inside {element' : ℕ} (remains : element' ∈ tracked.sockets.skHead.erase element) :
      element' ∈ tracked.sockets.skHead ∧ element' ≠ element :=
    (strong.owned.nodup.mem_erase_iff.mp remains).symm
  constructor
  · constructor
    · exact strong.good.single.sublist (List.erase_sublist.map _)
    · intro element' remains direction
      show [] ∉ Function.update (tracked.sockets.msgs direction) _ [] _
      rw [Function.update_of_ne (inside remains).2]
      exact strong.good.nonempty element' (inside remains).1 direction
    · exact strong.good.notAsserted
    · show (if _ then _ else _) = []
      rw [if_pos live]
      exact strong.good.untouched
    · intro direction element'
      show InOrder _ _ (Function.update (tracked.sockets.msgs direction) _ [] _) _
      obtain ⟨taken, initial, split_eq, received⟩ := strong.good.inOrder direction element'
      refine ⟨taken, initial, fun remains => ?_, received⟩
      rw [Function.update_of_ne (inside remains).2]
      exact split_eq (inside remains).1
  · have split : tracked.sockets.arena.Owned (element :: tracked.sockets.skHead.erase element) :=
      strong.owned.congr fun handle => (List.perm_cons_erase member).symm.count_eq handle
    exact split.free
  · exact strong.fresh

end

theorem begin_frame (tracked : Tracked) (thread : ℕ) (call : Call) :
    (tracked.begin thread call).1.sockets = tracked.sockets ∧
      (tracked.begin thread call).1.accepted = tracked.accepted ∧
      (tracked.begin thread call).1.delivered = tracked.delivered := by
  unfold Tracked.begin
  split
  · exact ⟨rfl, rfl, rfl⟩
  split
  · exact ⟨rfl, rfl, rfl⟩
  split <;> exact ⟨rfl, rfl, rfl⟩

section
variable {tracked : Tracked} {thread : ℕ}

theorem Strong.finish (strong : Strong tracked) (allocated : Bool)
    (careful : Careful tracked (.finish thread allocated)) :
    Strong (tracked.finish thread allocated).1 := by
  simp only [Careful] at careful
  cases pending_eq : tracked.pending thread with
  | none =>
      simp only [Tracked.finish, pending_eq]
      exact strong
  | some pending =>
      rw [pending_eq] at careful
      cases pending with
      | init sk =>
          cases allocated with
          | false =>
              refine strong.frame ?_ ?_ ?_ <;> simp [Tracked.finish, pending_eq, finishInit]
          | true =>
              refine (strong.init (careful rfl)).frame ?_ ?_ ?_ <;>
                simp [Tracked.finish, pending_eq]
      | send direction element buf =>
          cases allocated with
          | false =>
              refine strong.frame ?_ ?_ ?_ <;> simp [Tracked.finish, pending_eq, finishSend]
          | true =>
              refine (strong.send direction (careful rfl).1 (careful rfl).2).frame ?_ ?_ ?_ <;>
                simp [Tracked.finish, pending_eq]
      | recv direction sk element len =>
          obtain ⟨live, enough⟩ := careful
          cases msgs_eq : tracked.sockets.msgs direction element with
          | nil =>
              refine strong.frame ?_ ?_ ?_ <;>
                simp [Tracked.finish, pending_eq, finishRecv, msgs_eq, Tracked.notePeek,
                  touch_of_live live]
          | cons msg rest =>
              obtain ⟨positive, whole⟩ := enough msg (by simp [msgs_eq])
              have filled : msg ≠ [] := by
                rintro rfl
                exact strong.good.nonempty element ((strong.mem_iff_live element).mpr live) direction
                  (msgs_eq ▸ List.mem_cons_self)
              have count : min msg.length len ≠ 0 := by
                have := List.length_pos_of_ne_nil filled
                omega
              refine (strong.recv live msgs_eq whole).frame ?_ ?_ ?_ <;>
                simp only [Tracked.finish, pending_eq, finishRecv, msgs_eq, if_neg count,
                  Tracked.notePeek, touch_of_live live]
      | peek direction sk element =>
          refine strong.frame ?_ ?_ ?_ <;>
            simp [Tracked.finish, pending_eq, finishPeek, Tracked.notePeek, touch_of_live careful]
      | close element =>
          refine (strong.close careful).frame ?_ ?_ ?_ <;> simp [Tracked.finish, pending_eq]

/-- A message that is received whole is not longer than the receiver's length. -/
theorem length_le_of_received {taken before rest : List Msg} {msg : Msg}
    {delivered : List Delivery} {len : ℕ}
    (initial : taken <+: before ++ [msg] ++ rest) (matched : before.length = delivered.length)
    (received : List.Forall₂ (fun msg delivery => delivery.bytes <+: msg ∧
      (delivery.relied = true → delivery.bytes = msg)) taken
        (delivered ++ [⟨msg.take (min msg.length len), true⟩])) : msg.length ≤ len := by
  have same_length : taken.length = (before ++ [msg]).length := by
    rw [received.length_eq, List.length_append, List.length_append, matched]
    rfl
  have taken_eq : taken = before ++ [msg] :=
    (List.prefix_of_prefix_length_le initial (List.prefix_append _ _)
      (Nat.le_of_eq same_length)).eq_of_length same_length
  rw [taken_eq] at received
  have backwards := List.forall₂_reverse_iff.mpr received
  rw [List.reverse_append, List.reverse_append] at backwards
  have whole : msg.take (min msg.length len) = msg := (List.forall₂_cons.mp backwards).1.2 rfl
  have lengths := congrArg List.length whole
  rw [List.length_take] at lengths
  omega

theorem Strong.careful_of_good (strong : Strong tracked) (allocated : Bool)
    (good : Good (tracked.finish thread allocated).1) :
    Careful tracked (.finish thread allocated) := by
  simp only [Careful]
  cases pending_eq : tracked.pending thread with
  | none => trivial
  | some pending =>
      simp only [Tracked.finish, pending_eq] at good
      cases pending with
      | init sk =>
          rintro rfl element member equal
          have inside := (strong.owned.live member).1
          have number_eq : (finishInit tracked.sockets sk true).1.number element = some sk :=
            (List.getElem?_append_left inside).trans equal
          refine (List.nodup_cons.mp good.single).1 (List.mem_map.mpr ⟨element, member, ?_⟩)
          exact number_eq.trans List.getElem?_concat_length.symm
      | send direction element buf =>
          rintro rfl
          simp only [finishSend] at good
          have live : tracked.sockets.arena.Live element := by
            by_contra dead
            exact faults_touch dead good.untouched
          refine ⟨live, ?_⟩
          rintro rfl
          refine good.nonempty element ((strong.mem_iff_live element).mpr live) direction ?_
          show [] ∈ put tracked.sockets.msgs direction element _ direction element
          rw [put_self]
          exact List.mem_append_right _ List.mem_cons_self
      | recv direction sk element len =>
          have live : tracked.sockets.arena.Live element := by
            by_contra dead
            refine faults_touch dead ?_
            have untouched := good.untouched
            simp only [finishRecv] at untouched
            split at untouched
            · exact untouched
            · split at untouched <;> exact untouched
          refine ⟨live, fun msg next => ?_⟩
          obtain ⟨rest, msgs_eq⟩ := List.head?_eq_some_iff.mp next
          simp only [finishRecv, msgs_eq] at good
          by_cases count : min msg.length len = 0
          · simp only [if_pos count] at good
            exact absurd good.notAsserted (by simp [Tracked.notePeek])
          · refine ⟨by omega, fun relies => ?_⟩
            simp only [if_neg count, relies] at good
            obtain ⟨taken, initial, -, received⟩ := good.inOrder direction element
            obtain ⟨before, -, split_eq, matched⟩ := strong.good.inOrder direction element
            have split_eq := split_eq ((strong.mem_iff_live element).mpr live)
            rw [msgs_eq, List.append_cons] at split_eq
            simp only [Tracked.notePeek, put_self] at received
            exact length_le_of_received (split_eq ▸ initial) matched.length_eq received
      | peek direction sk element =>
          by_contra dead
          exact faults_touch dead good.untouched
      | close element =>
          by_contra dead
          have untouched : (if tracked.sockets.arena.Live element then tracked.sockets.arena.faults
              else tracked.sockets.arena.faults ++ [element]) = [] := good.untouched
          rw [if_neg dead] at untouched
          simp at untouched

end

/-- The sockets are as claimed after every initial part of a run exactly if all its events are
careful. -/
theorem sockets_good_iff (events : List Event) :
    (∀ front, front <+: events → Good (threads.run .start front)) ↔
      threads.Always Careful .start events := by
  refine threads.forall_run_iff_always_of_strong Careful (fun _ => True) Good Strong
    (fun _ _ => trivial) Strong.good ?_ ?_ trivial strong_start events
  · intro tracked event _ strong
    cases event with
    | call thread call =>
        obtain ⟨sockets_eq, accepted_eq, delivered_eq⟩ := begin_frame tracked thread call
        exact iff_of_true (strong.frame sockets_eq accepted_eq delivered_eq).good trivial
    | finish thread allocated =>
        exact ⟨strong.careful_of_good allocated, fun careful => (strong.finish allocated careful).good⟩
  · intro tracked event _ strong careful
    cases event with
    | call thread call =>
        obtain ⟨sockets_eq, accepted_eq, delivered_eq⟩ := begin_frame tracked thread call
        exact strong.frame sockets_eq accepted_eq delivered_eq
    | finish thread allocated => exact strong.finish allocated careful

/-- Two threads create the same socket: both look it up before either inserts it. -/
def createdTwice : List Event :=
  [.call 0 (.fsocketInit 1 2 3), .call 1 (.fsocketInit 1 2 3), .finish 0 true, .finish 1 true]

/-- A socket is closed while a message for it is being sent. -/
def closedWhileSending : List Event :=
  [.call 0 (.fsocketInit 1 2 3), .finish 0 true, .call 0 (fsocketSend 6 [7]),
    .call 1 (.fsocketClose 6), .finish 1 true, .finish 0 true]

/-- An empty message is sent and received. -/
def emptyMessage : List Event :=
  [.call 0 (.fsocketInit 1 2 3), .finish 0 true, .call 0 (fsocketSend 6 []), .finish 0 true,
    .call 1 (keSkRecv 6 8), .finish 1 true]

/-- Two elements with one number, a message stored in a freed element, and an empty message whose
reception stops the system. -/
theorem sockets_not_good :
    ¬Good (threads.run .start createdTwice) ∧ ¬Good (threads.run .start closedWhileSending) ∧
      ¬Good (threads.run .start (emptyMessage.take 4)) ∧
      (threads.run .start emptyMessage).sockets.asserted = true := by
  refine ⟨fun good => ?_, fun good => ?_, fun good => ?_, by decide⟩
  · exact absurd good.single (by decide)
  · exact absurd good.untouched (by decide)
  · exact absurd (good.nonempty 0 (by decide) .tx) (by decide)

end BdkFreertos.FakeSocket
