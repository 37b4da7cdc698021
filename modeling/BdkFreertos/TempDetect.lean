import BdkFreertos.Machine
import BdkFreertos.Flash

/-!
# Temperature detection

A periodic timer queues a message, the detection thread answers it by stopping the timer and opening
the ADC, the interrupt of the finished conversion queues another message, and the thread evaluates
the samples and starts the timer again.  After so many evaluations the thread restarts the timer by
way of a change of its own configuration.  The queue takes five messages, and a message that finds it
full is lost.
-/

namespace BdkFreertos.TempDetect

/-- The messages of the detection thread.  `TMPD_EXIT` is never sent. -/
inductive TempMsg
  | pauseTimer
  | restartTimer
  | changeParam
  | timerPoll
  | intPoll
  deriving DecidableEq

/-- `TEMP_DET_QITEM_COUNT`. -/
def tempDetQitemCount : ℕ := 5

/-- `ADC_TMEP_DETECT_INTVAL`. -/
def adcTmepDetectIntval : UInt32 := 15

/-- `ADC_TMEP_DETECT_INTVAL_INIT`. -/
def adcTmepDetectIntvalInit : UInt16 := 1

/-- `ADC_TMEP_DETECT_INTVAL_CHANGE`. -/
def adcTmepDetectIntvalChange : UInt32 := 120

/-- `ADC_TMEP_DIST_INTIAL_VAL`. -/
def adcTmepDistIntialVal : UInt32 := 0

/-- `ADC_TMEP_LSB_PER_10DEGREE` times `ADC_TMEP_10DEGREE_PER_DBPWR`. -/
def detectThreDefault : SocName → UInt32
  | .bk7231 => 24
  | .bk7231n => 20
  | _ => 12

/-- The parts of `g_temp_detect_config` that steer the detection, its timer, the ADC and the
queue. -/
structure Detector where
  detectIntval : UInt16
  detectThre : UInt16
  distInital : UInt16
  detectIntvalChange : UInt32
  /-- Whether `detect_timer` is running; it starts itself again when it expires. -/
  timerRunning : Bool
  /-- Whether `tmp_detect_hdl` is valid: a conversion is in progress. -/
  adcOpen : Bool
  /-- The queue `tempd_msg_que`, oldest message first. -/
  queue : List TempMsg
  /-- The message that the thread has taken and not handled yet. -/
  taken : Option TempMsg
  /-- Whether the last request of the user was to pause. -/
  paused : Bool
  deriving DecidableEq

/-- The beginning of `temp_detect_main`. -/
def tempDetectStart (soc : SocName) : Detector where
  detectIntval := adcTmepDetectIntvalInit
  detectThre := (detectThreDefault soc).toUInt16
  distInital := adcTmepDistIntialVal.toUInt16
  detectIntvalChange := 0
  timerRunning := true
  adcOpen := false
  queue := []
  taken := none
  paused := false

/-- `temp_detect_send_msg`. -/
def tempDetectSendMsg (newMsg : TempMsg) (detector : Detector) : Detector :=
  if detector.queue.length < tempDetQitemCount then
    { detector with queue := detector.queue ++ [newMsg] }
  else detector

/-- `temp_detect_pause_timer`. -/
def tempDetectPauseTimer (detector : Detector) : Detector :=
  let detector := { detector with paused := true }
  if detector.timerRunning then tempDetectSendMsg .pauseTimer detector else detector

def tempDetectRestartDetect (detector : Detector) : Detector :=
  let detector := { detector with paused := false }
  if detector.timerRunning = false then tempDetectSendMsg .restartTimer detector else detector

/-- `temp_detect_enable` once no single measurement is going on: whether it succeeds is whether
`temp_detect_open` does, unless the ADC is open. -/
def tempDetectEnable (opens : Bool) (detector : Detector) : Detector × Bool :=
  if detector.adcOpen then (detector, true)
  else ({ detector with timerRunning := false, adcOpen := opens }, opens)

def tempDetectTimerHandler (detector : Detector) : Detector :=
  tempDetectSendMsg .timerPoll detector

def tempDetectTimerPoll (opens : Bool) (detector : Detector) : Detector :=
  let (detector, success) := tempDetectEnable opens detector
  if success then detector else { detector with timerRunning := true }

def tempDetectPollingHandler (detector : Detector) : Detector :=
  let detector := { detector with detectIntvalChange := detector.detectIntvalChange + 1 }
  if detector.detectIntvalChange = adcTmepDetectIntvalChange then
    tempDetectSendMsg .changeParam detector
  else { detector with timerRunning := true }

/-- `temp_detect_handler` when the buffer of samples is full. -/
def tempDetectHandler (detector : Detector) : Detector :=
  if detector.adcOpen then tempDetectSendMsg .intPoll { detector with adcOpen := false }
  else detector

def tempDetectChangeConfiguration (soc : SocName) (intval thre dist : UInt32)
    (detector : Detector) : Detector :=
  let intval := if intval = 0 then adcTmepDetectIntval else intval
  let thre := if thre = 0 then detectThreDefault soc else thre
  let dist := if dist = 0 then adcTmepDistIntialVal else dist
  let detector := { detector with detectThre := thre.toUInt16, distInital := dist.toUInt16 }
  if detector.detectIntval.toUInt32 ≠ intval then
    -- the timer is deleted, created with the new interval and started
    { detector with detectIntval := intval.toUInt16, timerRunning := true }
  else detector

/-- The loop of `temp_detect_main` on one message. -/
def handleMsg (soc : SocName) (opens : Bool) (detector : Detector) : TempMsg → Detector
  | .pauseTimer => { detector with timerRunning := false }
  | .restartTimer => { detector with timerRunning := true }
  | .changeParam =>
      tempDetectChangeConfiguration soc adcTmepDetectIntval detector.detectThre.toUInt32
        adcTmepDistIntialVal detector
  | .timerPoll => tempDetectTimerPoll opens detector
  | .intPoll => tempDetectPollingHandler detector

/-- What can happen to the detection. -/
inductive Event
  | timerExpires
  | adcCompletes
  | pauseTimer
  | restartDetect
  | changeConfiguration (intval thre dist : UInt32)
  | pop
  /-- The thread handles the message it has taken, with the outcome of opening the ADC. -/
  | handle (opens : Bool)
  deriving DecidableEq

/-- Temperature detection as a machine. -/
def machine (soc : SocName) : Machine Detector Event Unit where
  step detector event :=
    (match event with
    | .timerExpires =>
        if detector.timerRunning then tempDetectTimerHandler detector else detector
    | .adcCompletes => tempDetectHandler detector
    | .pauseTimer => tempDetectPauseTimer detector
    | .restartDetect => tempDetectRestartDetect detector
    | .changeConfiguration intval thre dist =>
        tempDetectChangeConfiguration soc intval thre dist detector
    | .pop =>
        match detector.taken, detector.queue with
        | none, msg :: queue => { detector with taken := some msg, queue := queue }
        | _, _ => detector
    | .handle opens =>
        match detector.taken with
        | some msg => handleMsg soc opens { detector with taken := none } msg
        | none => detector, ())

/-- Whether the handling of a message starts a conversion or the timer, now or by a further
message.  A change of the configuration restarts the timer only when it changes the interval. -/
def Rearms (detector : Detector) : TempMsg → Prop
  | .pauseTimer => False
  | .changeParam => detector.detectIntval.toUInt32 ≠ adcTmepDetectIntval
  | _ => True

def pending (detector : Detector) : List TempMsg := detector.taken.toList ++ detector.queue

/-- The timer is armed, or a conversion is in progress, or a message will arm the timer. -/
def Armed (detector : Detector) : Prop :=
  detector.timerRunning = true ∨ detector.adcOpen = true ∨
    ∃ msg ∈ pending detector, Rearms detector msg

def NeverStalls (detector : Detector) : Prop := detector.paused = false → Armed detector

/-- No link of the chain is lost while nothing else carries it on: the message of a finished
conversion and that of a restart find room, a pause is not handled after the restart that was to
end it, and the change of the interval finds room for its message and another interval. -/
def LinkKept (detector : Detector) : Event → Prop
  | .adcCompletes => detector.adcOpen = true →
      detector.queue.length < tempDetQitemCount ∨ detector.paused = true ∨
        detector.timerRunning = true ∨ ∃ msg ∈ pending detector, Rearms detector msg
  | .restartDetect => detector.queue.length < tempDetQitemCount ∨ Armed detector
  | .handle _ =>
      match detector.taken with
      | some .pauseTimer =>
          detector.paused = true ∨ detector.adcOpen = true ∨
            ∃ msg ∈ detector.queue, Rearms detector msg
      | some .intPoll =>
          detector.detectIntvalChange + 1 = adcTmepDetectIntvalChange →
            (detector.queue.length < tempDetQitemCount ∧
              detector.detectIntval.toUInt32 ≠ adcTmepDetectIntval) ∨
            detector.paused = true ∨ detector.timerRunning = true ∨ detector.adcOpen = true ∨
              ∃ msg ∈ detector.queue, Rearms detector msg
      | _ => True
  | _ => True

variable {detector next : Detector} {soc : SocName}

theorem rearms_congr (same : next.detectIntval = detector.detectIntval) (msg : TempMsg) :
    Rearms next msg ↔ Rearms detector msg := by
  cases msg <;> simp [Rearms, same]

theorem armed_congr (timer_eq : next.timerRunning = detector.timerRunning)
    (adc_eq : next.adcOpen = detector.adcOpen)
    (intval_eq : next.detectIntval = detector.detectIntval)
    (pending_eq : pending next = pending detector) : Armed next ↔ Armed detector := by
  simp [Armed, timer_eq, adc_eq, pending_eq, rearms_congr intval_eq]

variable {msg : TempMsg} (newMsg : TempMsg)

theorem pending_sendMsg (detector : Detector) :
    pending (tempDetectSendMsg newMsg detector) =
      if detector.queue.length < tempDetQitemCount then pending detector ++ [newMsg]
      else pending detector := by
  rw [tempDetectSendMsg]
  split
  · simp [pending]
  · rfl

theorem sendMsg_frame (detector : Detector) :
    (tempDetectSendMsg newMsg detector).timerRunning = detector.timerRunning ∧
      (tempDetectSendMsg newMsg detector).adcOpen = detector.adcOpen ∧
      (tempDetectSendMsg newMsg detector).detectIntval = detector.detectIntval ∧
      (tempDetectSendMsg newMsg detector).paused = detector.paused := by
  rw [tempDetectSendMsg]
  split <;> exact ⟨rfl, rfl, rfl, rfl⟩

theorem armed_sendMsg_iff (detector : Detector) :
    Armed (tempDetectSendMsg newMsg detector) ↔
      Armed detector ∨
        (detector.queue.length < tempDetQitemCount ∧ Rearms detector newMsg) := by
  obtain ⟨timer_eq, adc_eq, intval_eq, -⟩ := sendMsg_frame newMsg detector
  rw [Armed, timer_eq, adc_eq, pending_sendMsg]
  simp only [rearms_congr intval_eq]
  split
  · next room =>
      simp [or_and_right, exists_or, Armed, room, or_assoc]
  · next full => simp [full, Armed]

theorem neverStalls_sendMsg_iff (detector : Detector) :
    NeverStalls (tempDetectSendMsg newMsg detector) ↔
      (detector.paused = false → Armed detector ∨
        (detector.queue.length < tempDetQitemCount ∧ Rearms detector newMsg)) := by
  rw [NeverStalls, (sendMsg_frame newMsg detector).2.2.2, armed_sendMsg_iff]

theorem neverStalls_of_running (running : detector.timerRunning = true) : NeverStalls detector :=
  fun _ => Or.inl running

theorem neverStalls_timerExpires (kept : NeverStalls detector) :
    NeverStalls (tempDetectTimerHandler detector) := by
  rw [tempDetectTimerHandler, neverStalls_sendMsg_iff]
  intro active
  exact Or.inl (kept active)

theorem neverStalls_adcCompletes_iff (kept : NeverStalls detector) :
    NeverStalls (tempDetectHandler detector) ↔ LinkKept detector .adcCompletes := by
  rw [tempDetectHandler, LinkKept]
  cases adc : detector.adcOpen with
  | false =>
      rw [if_neg Bool.false_ne_true]
      exact iff_of_true kept nofun
  | true =>
      rw [if_pos rfl, neverStalls_sendMsg_iff]
      simp only [Armed, Rearms, and_true, Bool.false_eq_true, false_or, true_imp_iff]
      cases detector.paused
      · simp only [true_imp_iff, Bool.false_eq_true, false_or]
        exact or_comm.trans (Iff.rfl)
      · simp

theorem neverStalls_pauseTimer : NeverStalls (tempDetectPauseTimer detector) := by
  have paused : (tempDetectPauseTimer detector).paused = true := by
    rw [tempDetectPauseTimer]
    dsimp only
    split
    · exact (sendMsg_frame _ _).2.2.2
    · rfl
  intro active
  rw [paused] at active
  exact Bool.noConfusion active

theorem neverStalls_restartDetect_iff :
    NeverStalls (tempDetectRestartDetect detector) ↔ LinkKept detector .restartDetect := by
  rw [tempDetectRestartDetect, LinkKept]
  by_cases timer : detector.timerRunning = true
  · rw [if_neg (by rw [timer]; exact Bool.noConfusion)]
    exact iff_of_true (neverStalls_of_running timer) (Or.inr (Or.inl timer))
  · rw [if_pos (Bool.eq_false_iff.mpr timer), neverStalls_sendMsg_iff,
      @armed_congr detector { detector with paused := false } rfl rfl rfl rfl]
    simp only [true_imp_iff, Rearms, and_true]
    exact or_comm

/-- A change of the configuration starts the timer or leaves it and the interval as they are. -/
theorem changeConfiguration_cases (soc : SocName) (intval thre dist : UInt32)
    (detector : Detector) :
    (tempDetectChangeConfiguration soc intval thre dist detector).timerRunning = true ∨
      ((tempDetectChangeConfiguration soc intval thre dist detector).timerRunning =
          detector.timerRunning ∧
        (tempDetectChangeConfiguration soc intval thre dist detector).adcOpen =
          detector.adcOpen ∧
        (tempDetectChangeConfiguration soc intval thre dist detector).detectIntval =
          detector.detectIntval ∧
        (tempDetectChangeConfiguration soc intval thre dist detector).paused = detector.paused ∧
        pending (tempDetectChangeConfiguration soc intval thre dist detector) =
          pending detector) := by
  unfold tempDetectChangeConfiguration
  dsimp only
  generalize (if intval = 0 then adcTmepDetectIntval else intval) = intval
  split
  · exact Or.inl rfl
  · exact Or.inr ⟨rfl, rfl, rfl, rfl, rfl⟩

theorem neverStalls_changeConfiguration (kept : NeverStalls detector)
    (intval thre dist : UInt32) :
    NeverStalls (tempDetectChangeConfiguration soc intval thre dist detector) := by
  rcases changeConfiguration_cases soc intval thre dist detector with
    running | ⟨timer_eq, adc_eq, intval_eq, paused_eq, pending_eq⟩
  · exact neverStalls_of_running running
  · rw [NeverStalls, paused_eq, armed_congr timer_eq adc_eq intval_eq pending_eq]
    exact kept

theorem neverStalls_timerPoll (opens : Bool) : NeverStalls (tempDetectTimerPoll opens detector) := by
  intro _
  rw [tempDetectTimerPoll, tempDetectEnable]
  cases adc : detector.adcOpen with
  | true => exact Or.inr (Or.inl adc)
  | false =>
      cases opens with
      | true => exact Or.inr (Or.inl rfl)
      | false => exact Or.inl rfl

theorem armed_iff_of_free (free : detector.taken = none) :
    Armed detector ↔ detector.timerRunning = true ∨ detector.adcOpen = true ∨
      ∃ msg ∈ detector.queue, Rearms detector msg := by
  rw [Armed, pending, free, Option.toList_none, List.nil_append]

theorem neverStalls_iff : NeverStalls detector ↔ detector.paused = true ∨ Armed detector := by
  rw [NeverStalls]
  cases detector.paused <;> simp

theorem neverStalls_lateRestart_iff :
    NeverStalls { detector with taken := none, timerRunning := false } ↔
      detector.paused = true ∨ detector.adcOpen = true ∨
        ∃ msg ∈ detector.queue, Rearms detector msg := by
  rw [neverStalls_iff, armed_iff_of_free rfl]
  simp only [Bool.false_eq_true, false_or]
  exact Iff.rfl

theorem neverStalls_pollingHandler_iff :
    NeverStalls (tempDetectPollingHandler { detector with taken := none }) ↔
      (detector.detectIntvalChange + 1 = adcTmepDetectIntvalChange →
        (detector.queue.length < tempDetQitemCount ∧
          detector.detectIntval.toUInt32 ≠ adcTmepDetectIntval) ∨
        detector.paused = true ∨ detector.timerRunning = true ∨ detector.adcOpen = true ∨
          ∃ msg ∈ detector.queue, Rearms detector msg) := by
  rw [tempDetectPollingHandler]
  dsimp only
  split
  · next last =>
      rw [neverStalls_iff, (sendMsg_frame _ _).2.2.2, armed_sendMsg_iff, armed_iff_of_free rfl,
        forall_prop_of_true last]
      exact or_assoc.symm.trans or_comm
  · next counted =>
      exact iff_of_true (neverStalls_of_running rfl) fun last => absurd last counted

section

variable (kept : NeverStalls detector)
include kept

theorem neverStalls_changeParam (holds : detector.taken = some .changeParam) :
    NeverStalls (tempDetectChangeConfiguration soc adcTmepDetectIntval
      detector.detectThre.toUInt32 adcTmepDistIntialVal { detector with taken := none }) := by
  have interval : (if adcTmepDetectIntval = 0 then adcTmepDetectIntval else adcTmepDetectIntval) =
      adcTmepDetectIntval := ite_self _
  by_cases same : detector.detectIntval.toUInt32 = adcTmepDetectIntval
  · simp only [tempDetectChangeConfiguration, interval, same, ne_eq, not_true_eq_false, if_false]
    rw [neverStalls_iff, armed_iff_of_free rfl]
    refine (neverStalls_iff.mp kept).imp_right ?_
    rintro (running | open_ | ⟨msg, member, rearms⟩)
    · exact Or.inl running
    · exact Or.inr (Or.inl open_)
    · rw [pending, holds, Option.toList_some, List.singleton_append, List.mem_cons] at member
      rcases member with rfl | later
      · exact absurd same rearms
      · exact Or.inr (Or.inr ⟨msg, later, rearms⟩)
  · refine neverStalls_of_running ?_
    simp [tempDetectChangeConfiguration, same]

/-- Handling a message: the pause that comes too late and the change of the interval are the two
that can end the chain. -/
theorem neverStalls_handleMsg_iff (holds : detector.taken = some msg) (opens : Bool) :
    NeverStalls (handleMsg soc opens { detector with taken := none } msg) ↔
      LinkKept detector (.handle opens) := by
  simp only [LinkKept, holds]
  cases msg with
  | pauseTimer => exact neverStalls_lateRestart_iff
  | restartTimer => exact iff_of_true (neverStalls_of_running rfl) trivial
  | changeParam => exact iff_of_true (neverStalls_changeParam kept holds) trivial
  | timerPoll => exact iff_of_true (neverStalls_timerPoll opens) trivial
  | intPoll => exact neverStalls_pollingHandler_iff

theorem neverStalls_pop {queue : List TempMsg} (free : detector.taken = none)
    (queue_eq : detector.queue = msg :: queue) :
    NeverStalls { detector with taken := some msg, queue := queue } := by
  have pending_eq : pending { detector with taken := some msg, queue := queue } =
      pending detector := by
    simp [pending, free, queue_eq]
  intro active
  exact (@armed_congr detector { detector with taken := some msg, queue := queue } rfl rfl rfl
    pending_eq).mpr (kept active)

/-- From a state that does not stall, exactly the loss of a link that nothing else replaces leads to
one that does. -/
theorem neverStalls_step_iff (event : Event) :
    NeverStalls ((machine soc).step detector event).1 ↔ LinkKept detector event := by
  cases event with
  | timerExpires =>
      refine iff_of_true ?_ trivial
      simp only [machine]
      split
      · exact neverStalls_timerExpires kept
      · exact kept
  | adcCompletes => exact neverStalls_adcCompletes_iff kept
  | pauseTimer => exact iff_of_true neverStalls_pauseTimer trivial
  | restartDetect => exact neverStalls_restartDetect_iff
  | changeConfiguration intval thre dist =>
      exact iff_of_true (neverStalls_changeConfiguration kept intval thre dist) trivial
  | pop =>
      refine iff_of_true ?_ trivial
      simp only [machine]
      split
      · next free queue_eq => exact neverStalls_pop kept free queue_eq
      · exact kept
  | handle opens =>
      cases holds : detector.taken with
      | none =>
          simp only [machine, LinkKept, holds]
          exact iff_of_true kept trivial
      | some msg =>
          simp only [machine, holds]
          exact neverStalls_handleMsg_iff kept holds opens

end

/-- One detection: the timer expires, the thread opens the ADC, the conversion ends, and the thread
evaluates it. -/
def oneDetection : List Event :=
  [.timerExpires, .pop, .handle true, .adcCompletes, .pop, .handle true]

/-- The interval is set to its later value before the thread does so itself. -/
def intervalSetBefore : List Event :=
  .changeConfiguration 15 0 0 ::
    (List.replicate 120 oneDetection).flatten.append [.pop, .handle true]

end BdkFreertos.TempDetect
