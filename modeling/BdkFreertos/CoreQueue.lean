import BdkFreertos.Machine
import Mathlib.Algebra.Ring.Int.Defs

/-!
# The message queue of the core thread and its reception counter

Reception interrupts reach the core thread as messages of a bounded queue that every other sender
shares.  A counter is meant to hold back the third reception message: a call raises it before it
pushes its message, and the handler of the message lowers it.  Calls, pushes of other senders and
the two halves of a turn of the core thread may follow each other in any order.
-/

namespace BdkFreertos.CoreQueue

/-- Message types `BMSG_*_TYPE`. -/
inductive BmsgType
  | null
  | rx
  | tx
  | ioctl
  | sktTx
  | media
  | txing
  | staPs
  | txRaw
  | txRawCb
  | rxLsig
  deriving DecidableEq

/-- A message `BUS_MSG_T` of the queue. -/
structure BusMsg where
  type : BmsgType
  arg : UInt32
  len : UInt32
  deriving DecidableEq

def coreQitemCount : ℕ := 64

/-- The limit `bmsg_rx_sender` compares the counter with. -/
def bmsgRxLimit : ℤ := 2

/-- The queue, the counter and the calls and turns that are under way. -/
structure CoreState where
  ioQueue : List BusMsg
  bmsgRxCount : ℤ
  /-- Arguments of the calls of `bmsg_rx_sender` that raised the counter and have not pushed. -/
  raised : List UInt32
  /-- The message the core thread has taken and not handled. -/
  popped : Option BusMsg
  deriving DecidableEq

/-- Before the first message. -/
def coreThreadInit : CoreState where
  ioQueue := []
  bmsgRxCount := 0
  raised := []
  popped := none

/-- `rtos_push_to_queue` without waiting: a full queue refuses the message. -/
def rtosPushToQueue (state : CoreState) (msg : BusMsg) : CoreState :=
  if state.ioQueue.length < coreQitemCount then
    { state with ioQueue := state.ioQueue ++ [msg] }
  else
    state

/-- The critical section of `bmsg_rx_sender`. -/
def bmsgRxSenderRaise (state : CoreState) (arg : UInt32) : CoreState :=
  if state.bmsgRxCount ≥ bmsgRxLimit then
    state
  else
    { state with
      bmsgRxCount := state.bmsgRxCount + 1
      raised := state.raised ++ [arg] }

/-- The push of the call of `bmsg_rx_sender` at a position among those under way; its result is
only printed. -/
def bmsgRxSenderPush (state : CoreState) (call : ℕ) : CoreState :=
  match state.raised[call]? with
  | none => state
  | some arg =>
      rtosPushToQueue { state with raised := state.raised.eraseIdx call }
        { type := .rx, arg := arg, len := 0 }

/-- The counter after the critical section of `bmsg_rx_handler`. -/
def bmsgRxHandler (state : CoreState) : CoreState :=
  if state.bmsgRxCount > 0 then
    { state with bmsgRxCount := state.bmsgRxCount - 1 }
  else
    state

/-- The core thread takes the oldest message. -/
def rtosPopFromQueue (state : CoreState) : CoreState :=
  match state.popped, state.ioQueue with
  | none, msg :: rest => { state with ioQueue := rest, popped := some msg }
  | _, _ => state

/-- The core thread handles the message it took; the result is what `rxl_cntrl_evt` is called
with. -/
def handlePopped (state : CoreState) : CoreState × Option UInt32 :=
  match state.popped with
  | none => (state, none)
  | some msg =>
      if msg.type = .rx then
        ({ bmsgRxHandler state with popped := none }, some msg.arg)
      else
        ({ state with popped := none }, none)

/-- A step of an interrupt, of another thread or of the core thread. -/
inductive Event
  /-- A call of `bmsg_rx_sender` passes its critical section. -/
  | rxRaise (arg : UInt32)
  /-- A call under way pushes its message. -/
  | rxPush (call : ℕ)
  /-- Any other sender pushes a message of its own type. -/
  | send (msg : BusMsg) (other : msg.type ≠ .rx)
  | pop
  | handle

/-- The queue with all its senders and the loop `core_thread_main`. -/
def coreThreadMain : Machine CoreState Event (Option UInt32) where
  step state
    | .rxRaise arg => (bmsgRxSenderRaise state arg, none)
    | .rxPush call => (bmsgRxSenderPush state call, none)
    | .send msg _ => (rtosPushToQueue state msg, none)
    | .pop => (rtosPopFromQueue state, none)
    | .handle => handlePopped state

/-! ## Accounting -/

def rxWeight (msg : BusMsg) : ℤ := if msg.type = .rx then 1 else 0

def rxMessages (msgs : List BusMsg) : ℤ := (msgs.map rxWeight).sum

def rxQueued (state : CoreState) : ℤ := rxMessages state.ioQueue

/-- Calls between their critical section and their push, and the message between the pop and the
critical section of its handler. -/
def rxUnderWay (state : CoreState) : ℤ := state.raised.length + rxMessages state.popped.toList

/-- By how much the counter exceeds the messages it stands for. -/
def leaked (state : CoreState) : ℤ := state.bmsgRxCount - rxQueued state - rxUnderWay state

/-- The counter is the number of reception messages in the queue, where a message counts from the
critical section of its call to that of its handler, and is within its limit. -/
def Exact (state : CoreState) : Prop :=
  state.bmsgRxCount = rxQueued state + rxUnderWay state ∧ state.bmsgRxCount ≤ bmsgRxLimit

/-- A reception call does not push into a full queue. -/
def FindsRoom (state : CoreState) : Event → Prop
  | .rxPush call => call < state.raised.length → state.ioQueue.length < coreQitemCount
  | _ => True

instance (state : CoreState) : (event : Event) → Decidable (FindsRoom state event)
  | .rxPush call =>
      inferInstanceAs
        (Decidable (call < state.raised.length → state.ioQueue.length < coreQitemCount))
  | .rxRaise _ => isTrue trivial
  | .send _ _ => isTrue trivial
  | .pop => isTrue trivial
  | .handle => isTrue trivial

/-- What every state has: nothing is lowered twice and the limit is kept. -/
structure Sound (state : CoreState) : Prop where
  leaked_nonneg : 0 ≤ leaked state
  count_le : state.bmsgRxCount ≤ bmsgRxLimit

@[simp]
theorem rxMessages_nil : rxMessages [] = 0 := rfl

@[simp]
theorem rxMessages_cons (msg : BusMsg) (msgs : List BusMsg) :
    rxMessages (msg :: msgs) = rxWeight msg + rxMessages msgs := rfl

@[simp]
theorem rxMessages_append (front back : List BusMsg) :
    rxMessages (front ++ back) = rxMessages front + rxMessages back := by
  simp [rxMessages]

theorem rxWeight_of_rx {msg : BusMsg} (rx : msg.type = .rx) : rxWeight msg = 1 := by
  simp [rxWeight, rx]

theorem rxWeight_of_other {msg : BusMsg} (other : msg.type ≠ .rx) : rxWeight msg = 0 := by
  simp [rxWeight, other]

theorem rxMessages_nonneg (msgs : List BusMsg) : 0 ≤ rxMessages msgs := by
  induction msgs with
  | nil => simp
  | cons msg msgs induction =>
      have weight_nonneg : 0 ≤ rxWeight msg := by
        rw [rxWeight]
        split <;> omega
      rw [rxMessages_cons]
      omega

theorem rxQueued_push (state : CoreState) (msg : BusMsg) :
    rxQueued (rtosPushToQueue state msg) =
      rxQueued state +
        if state.ioQueue.length < coreQitemCount then rxWeight msg else 0 := by
  rw [rtosPushToQueue]
  split <;> simp [rxQueued]

@[simp]
theorem rxUnderWay_push (state : CoreState) (msg : BusMsg) :
    rxUnderWay (rtosPushToQueue state msg) = rxUnderWay state := by
  rw [rtosPushToQueue]
  split <;> rfl

@[simp]
theorem bmsgRxCount_push (state : CoreState) (msg : BusMsg) :
    (rtosPushToQueue state msg).bmsgRxCount = state.bmsgRxCount := by
  rw [rtosPushToQueue]
  split <;> rfl

theorem leaked_rxPush (state : CoreState) (call : ℕ) :
    leaked (bmsgRxSenderPush state call) =
      leaked state + if FindsRoom state (.rxPush call) then 0 else 1 := by
  rw [bmsgRxSenderPush]
  rcases under_way : state.raised[call]? with _ | arg
  · have finished : ¬ call < state.raised.length := by
      simpa using under_way
    simp [FindsRoom, finished]
  · have under_way : call < state.raised.length :=
      (List.getElem?_eq_some_iff.mp under_way).1
    have fewer : ((state.raised.eraseIdx call).length : ℤ) = state.raised.length - 1 := by
      rw [List.length_eraseIdx_of_lt under_way]
      omega
    simp only [leaked, bmsgRxCount_push, rxUnderWay_push, rxQueued_push]
    by_cases room : state.ioQueue.length < coreQitemCount
    · simp only [FindsRoom, room, rxWeight, rxQueued, rxUnderWay, fewer, if_true, implies_true]
      omega
    · simp only [FindsRoom, under_way, room, rxQueued, rxUnderWay, fewer, if_false, forall_const]
      omega

variable {state : CoreState}

theorem leaked_handle (sound : Sound state) : leaked (handlePopped state).1 = leaked state := by
  have nonneg := sound.leaked_nonneg
  rw [handlePopped]
  rcases taken : state.popped with _ | msg
  · rfl
  · by_cases rx : msg.type = .rx
    · have queued_nonneg := rxMessages_nonneg state.ioQueue
      have positive : state.bmsgRxCount > 0 := by
        simp only [leaked, rxQueued, rxUnderWay, taken, Option.toList_some, rxMessages_cons,
          rxMessages_nil, rxWeight_of_rx rx] at nonneg
        omega
      simp only [rx, if_true, bmsgRxHandler, positive]
      simp only [leaked, rxQueued, rxUnderWay, taken, Option.toList_some, Option.toList_none,
        rxMessages_cons, rxMessages_nil, rxWeight_of_rx rx]
      omega
    · simp [rx, leaked, rxQueued, rxUnderWay, taken, rxWeight_of_other rx]

theorem leaked_step (sound : Sound state) (event : Event) :
    leaked (coreThreadMain.step state event).1 =
      leaked state + if FindsRoom state event then 0 else 1 := by
  cases event with
  | rxRaise arg =>
      simp only [coreThreadMain, bmsgRxSenderRaise, FindsRoom, ↓reduceIte]
      split
      · omega
      · simp only [leaked, rxQueued, rxUnderWay, List.length_append, List.length_singleton]
        omega
  | rxPush call => exact leaked_rxPush state call
  | send msg other =>
      simp [coreThreadMain, leaked, rxQueued_push, rxWeight_of_other other, FindsRoom]
  | pop =>
      simp only [coreThreadMain, rtosPopFromQueue, FindsRoom, ↓reduceIte]
      split
      next taken queued =>
          simp only [leaked, rxQueued, rxUnderWay, taken, queued, Option.toList_none,
            Option.toList_some, rxMessages_cons, rxMessages_nil]
          omega
      next => omega
  | handle => simpa [coreThreadMain, FindsRoom] using leaked_handle sound

theorem count_le_step (within : state.bmsgRxCount ≤ bmsgRxLimit) (event : Event) :
    (coreThreadMain.step state event).1.bmsgRxCount ≤ bmsgRxLimit := by
  cases event with
  | rxRaise arg =>
      simp only [coreThreadMain, bmsgRxSenderRaise]
      split
      · exact within
      · dsimp only
        omega
  | rxPush call =>
      simp only [coreThreadMain, bmsgRxSenderPush]
      split
      · exact within
      · simpa using within
  | send msg other => simpa [coreThreadMain] using within
  | pop =>
      simp only [coreThreadMain, rtosPopFromQueue]
      split <;> exact within
  | handle =>
      simp only [coreThreadMain, handlePopped]
      split
      · exact within
      · simp only [bmsgRxHandler]
        split
        · split
          · dsimp only
            omega
          · exact within
        · exact within

theorem sound_step (event : Event) (sound : Sound state) :
    Sound (coreThreadMain.step state event).1 where
  leaked_nonneg := by
    have nonneg := sound.leaked_nonneg
    rw [leaked_step sound event]
    split <;> omega
  count_le := count_le_step sound.count_le event

theorem sound_init : Sound coreThreadInit where
  leaked_nonneg := by decide
  count_le := by decide

theorem exact_iff_leaked (sound : Sound state) : Exact state ↔ leaked state = 0 := by
  have within := sound.count_le
  rw [Exact, leaked]
  constructor
  · rintro ⟨count_eq, _⟩
    omega
  · intro none_leaked
    exact ⟨by omega, within⟩

theorem bmsgRxCount_le (events : List Event) :
    (coreThreadMain.run coreThreadInit events).bmsgRxCount ≤ bmsgRxLimit :=
  (coreThreadMain.run_invariant_of_step Sound sound_init sound_step events).count_le

theorem leaked_run_mono (front back : List Event) :
    leaked (coreThreadMain.run coreThreadInit front) ≤
      leaked (coreThreadMain.run coreThreadInit (front ++ back)) := by
  rw [Machine.run_append]
  have sound := coreThreadMain.run_invariant_of_step Sound sound_init sound_step front
  generalize coreThreadMain.run coreThreadInit front = state at sound
  induction back generalizing state with
  | nil => exact Int.le_refl (leaked state)
  | cons event events induction =>
      have leaked_eq := leaked_step sound event
      have later := induction _ (sound_step event sound)
      rw [Machine.run_cons]
      split at leaked_eq <;> omega

theorem exact_between (exact : Exact state) (no_call : state.raised = [])
    (no_turn : state.popped = none) : state.bmsgRxCount = rxQueued state := by
  have count_eq := exact.1
  simpa [rxUnderWay, no_call, no_turn] using count_eq

/-- In every run the counter is exact throughout if and only if no reception call pushes into a
full queue; then, between calls and turns of the core thread, it is the number of reception
messages in the queue.  The limit is kept in any case. -/
theorem bmsgRxCount_exact_iff (events : List Event) :
    ((∀ front, front <+: events → Exact (coreThreadMain.run coreThreadInit front)) ↔
        coreThreadMain.Always FindsRoom coreThreadInit events) ∧
      (coreThreadMain.Always FindsRoom coreThreadInit events →
        ∀ front, front <+: events →
          (coreThreadMain.run coreThreadInit front).raised = [] →
            (coreThreadMain.run coreThreadInit front).popped = none →
              (coreThreadMain.run coreThreadInit front).bmsgRxCount =
                rxQueued (coreThreadMain.run coreThreadInit front)) ∧
      (coreThreadMain.run coreThreadInit events).bmsgRxCount ≤ bmsgRxLimit := by
  have exact_iff := coreThreadMain.forall_run_iff_always FindsRoom Sound Exact sound_step
    (fun {state} event sound good => by
      have none_leaked := (exact_iff_leaked sound).mp good
      rw [exact_iff_leaked (sound_step event sound), leaked_step sound event, none_leaked]
      split <;> simp_all)
    sound_init ((exact_iff_leaked sound_init).mpr (by decide)) events
  refine ⟨exact_iff, ?_, bmsgRxCount_le events⟩
  intro room front initialPart no_call no_turn
  exact exact_between (exact_iff.mpr room front initialPart) no_call no_turn

/-- Other senders fill the queue before one call of `bmsg_rx_sender`. -/
def floodThenReceive : List Event :=
  List.replicate coreQitemCount (Event.send { type := .media, arg := 0, len := 0 } (by decide)) ++
    [Event.rxRaise 0, .rxPush 0]

/-- After the refused push nothing is under way, no reception message is queued and the counter is
one. -/
theorem refused_push_counted :
    ¬ ∀ events : List Event,
      (coreThreadMain.run coreThreadInit events).raised = [] →
        (coreThreadMain.run coreThreadInit events).popped = none →
          (coreThreadMain.run coreThreadInit events).bmsgRxCount =
            rxQueued (coreThreadMain.run coreThreadInit events) := by
  intro exact_always
  have final_eq : coreThreadMain.run coreThreadInit floodThenReceive =
      { ioQueue := List.replicate coreQitemCount { type := .media, arg := 0, len := 0 }
        bmsgRxCount := 1
        raised := []
        popped := none } := by
    decide +kernel
  have count_eq := exact_always floodThenReceive
  rw [final_eq] at count_eq
  exact absurd (count_eq rfl rfl) (by decide +kernel)

/-- Once two pushes were refused every later call is turned away at the counter. -/
theorem reception_stopped {front : List Event}
    (two_leaked : bmsgRxLimit ≤ leaked (coreThreadMain.run coreThreadInit front))
    (back : List Event) (arg : UInt32) :
    bmsgRxSenderRaise (coreThreadMain.run coreThreadInit (front ++ back)) arg =
      coreThreadMain.run coreThreadInit (front ++ back) := by
  have still_leaked := leaked_run_mono front back
  generalize coreThreadMain.run coreThreadInit (front ++ back) = state at still_leaked
  have queued_nonneg : 0 ≤ rxQueued state := rxMessages_nonneg state.ioQueue
  have under_way_nonneg : 0 ≤ rxUnderWay state := by
    have := rxMessages_nonneg state.popped.toList
    rw [rxUnderWay]
    omega
  have at_limit : state.bmsgRxCount ≥ bmsgRxLimit := by
    have leaked_eq : leaked state = state.bmsgRxCount - rxQueued state - rxUnderWay state := rfl
    omega
  simp [bmsgRxSenderRaise, at_limit]

theorem reception_stopped_by_flood :
    let front := floodThenReceive ++ [Event.rxRaise 0, .rxPush 0]
    bmsgRxSenderRaise (coreThreadMain.run coreThreadInit (front ++ [.rxRaise 0])) 7 =
      coreThreadMain.run coreThreadInit (front ++ [.rxRaise 0]) :=
  reception_stopped (by decide +kernel) _ 7

end BdkFreertos.CoreQueue
