import BdkFreertos.Machine

/-!
# DTIM power save and its lock

The station's MAC sleeps between beacons.  Putting it to sleep lowers a lock and raises a flag;
waking it asserts that the lock is down, raises it and lowers the flag.  Sleep attempts, beacon and
interrupt wake-ups, wake-ups by the user, timers and the handlers that switch the mode on and off
come in any order, each within its own critical section.
-/

namespace BdkFreertos.PowerSave

/-- `PS_MODE_STATUS`. -/
inductive PsMode
  | noPs
  | standby
  | mcu
  | dtim
  | dtimOpening
  | dtimClosing
  deriving DecidableEq

/-- `PS_STA_BEACON_STATE`. -/
inductive BeaconState
  | init
  | true
  | false
  | timeout
  deriving DecidableEq

/-- `PS_ARM_WAKEUP_WAY`, in the order of its values. -/
inductive WakeupWay
  | none
  | rw
  | peri
  | pwm
  | user
  | uping
  deriving DecidableEq

/-- `PS_ARM_WAKEUP_NONE < way <= PS_ARM_WAKEUP_USER`. -/
def WakeupWay.isWakeup : WakeupWay → Bool
  | .rw | .peri | .pwm | .user => true
  | .none | .uping => false

/-- `PS_BCN_MAX_LOSS_LIMIT`. -/
def psBcnMaxLossLimit : ℕ := 5

/-- The file's variables, the part of `bk_ps_info` its handlers use, and what became of the MAC and
of the two checks. -/
structure PsState where
  bkPsMode : PsMode
  psLock : ℕ
  psRealSleep : Bool
  psCanSleep : Bool
  psArmWakeupWay : WakeupWay
  waitedBeacon : BeaconState
  sleepFirst : Bool
  sleepCount : ℕ
  psDtimPeriod : ℕ
  psDtimMulti : ℕ
  psBeaconInt : ℕ
  sleepMs : ℕ
  psPeriWakeupWaitTimeMs : ℕ
  ifWaitBcn : Bool
  psBcnLossMaxCount : ℕ
  psResetedMoniterFlag : Bool
  /-- The bits of `ps_dis_flag`. -/
  needDisable : Bool
  needReboot : Bool
  /-- The MAC was put to sleep and has not been woken. -/
  macAsleep : Bool
  /-- The processor stays in a loop, after a failed `ASSERT` or before the watchdog's reset. -/
  halted : Bool
  /-- `ASSERT(!ps_lock)` has failed. -/
  assertFailed : Bool
  /-- `power_save_sleep` has taken its error branch. -/
  errorPs : Bool
  deriving DecidableEq

/-- The initial values. -/
def psInit : PsState where
  bkPsMode := .noPs
  psLock := 1
  psRealSleep := false
  psCanSleep := false
  psArmWakeupWay := .none
  waitedBeacon := .init
  sleepFirst := true
  sleepCount := 0
  psDtimPeriod := 1
  psDtimMulti := 1
  psBeaconInt := 0
  sleepMs := 300
  psPeriWakeupWaitTimeMs := 0
  ifWaitBcn := false
  psBcnLossMaxCount := 0
  psResetedMoniterFlag := false
  needDisable := false
  needReboot := false
  macAsleep := false
  halted := false
  assertFailed := false
  errorPs := false

/-- What the handlers ask of the rest of the system. -/
structure Surroundings where
  /-- `net_if_is_up()`. -/
  netUp : Bool
  /-- `mhdr_get_station_status() >= RW_EVT_STA_CONNECTED`. -/
  staConnected : Bool
  /-- The role is `CONFIG_ROLE_STA`. -/
  roleSta : Bool
  bleSwitchMacSleeped : Bool
  /-- `rwnxl_get_status_in_doze()`. -/
  inDoze : Bool
  /-- One of the MAC's interrupts is pending. -/
  macInterrupt : Bool
  /-- `rwnxl_sleep` puts the MAC to sleep. -/
  macSleeps : Bool
  deriving DecidableEq

/-- `PS_STA_DTIM_SWITCH`. -/
def psStaDtimSwitch (around : Surroundings) (state : PsState) : Bool :=
  state.bkPsMode == .dtim && around.netUp && around.roleSta

/-- `PS_STA_DTIM_CAN_SLEEP`. -/
def psStaDtimCanSleep (around : Surroundings) (state : PsState) : Bool :=
  psStaDtimSwitch around state &&
    (state.waitedBeacon == .true || state.psArmWakeupWay == .user) && state.psCanSleep

/-- `power_save_mac_idle_callback`. -/
def powerSaveMacIdleCallback (state : PsState) : PsState :=
  { state with sleepFirst := false, sleepCount := state.sleepCount + 1 }

/-- `power_save_sleep_status_set`. -/
def powerSaveSleepStatusSet (state : PsState) : PsState :=
  { state with psRealSleep := true, psArmWakeupWay := .none }

/-- `power_save_sleep`. -/
def powerSaveSleep (around : Surroundings) (state : PsState) : PsState :=
  if state.psRealSleep || around.bleSwitchMacSleeped then state
  else if !psStaDtimCanSleep around state then state
  else if around.inDoze then state
  else if around.macInterrupt then state
  else if !around.macSleeps then state
  else
    let slept := powerSaveMacIdleCallback { state with macAsleep := true }
    if slept.psLock ≠ 0 then
      powerSaveSleepStatusSet { slept with psLock := slept.psLock - 1 }
    else
      { slept with errorPs := true }

/-- `power_save_wakeup`: the assertion stops the processor when the lock is not down. -/
def powerSaveWakeup (state : PsState) : PsState :=
  let woken := { state with waitedBeacon := .false, macAsleep := false }
  if woken.psLock ≠ 0 then
    { woken with assertFailed := true, halted := true }
  else
    { woken with psLock := woken.psLock + 1 }

/-- `power_save_dtim_exit_check`: the request to leave the mode is sent and forgotten. -/
def powerSaveDtimExitCheck (state : PsState) : PsState :=
  { state with needDisable := false }

/-- `power_save_ieee_dtim_wakeup`. -/
def powerSaveIeeeDtimWakeup (state : PsState) : PsState :=
  if state.psArmWakeupWay.isWakeup && state.psRealSleep then
    let woken := powerSaveWakeup state
    if woken.halted then woken
    else powerSaveDtimExitCheck { woken with psRealSleep := false, psCanSleep := true }
  else
    state

/-- `power_save_dtim_wake`, called at every interrupt with its status. -/
def powerSaveDtimWake (macArmWakeup : Bool) (state : PsState) : PsState :=
  if state.bkPsMode = .dtim ∧ state.psArmWakeupWay = .none ∧ macArmWakeup = true then
    powerSaveIeeeDtimWakeup { state with psArmWakeupWay := .rw }
  else
    state

/-- `power_save_rf_dtim_manual_do_wakeup`. -/
def powerSaveRfDtimManualDoWakeup (around : Surroundings) (state : PsState) : PsState :=
  if around.bleSwitchMacSleeped then state
  else if state.bkPsMode = .dtim ∧
      (state.psArmWakeupWay = .none ∨ state.psArmWakeupWay = .uping) ∧
      state.psRealSleep = true then
    powerSaveIeeeDtimWakeup
      { state with psArmWakeupWay := if state.psArmWakeupWay = .uping then .rw else .user }
  else
    state

/-- `power_save_set_dtim_multi` on a byte. -/
def powerSaveSetDtimMulti (multi : ℕ) (state : PsState) : PsState :=
  let byte := multi % 256
  { state with psDtimMulti := if 0 < byte ∧ byte < 100 then byte else 1 }

def powerSaveDtimPsInit (state : PsState) : PsState :=
  { state with sleepCount := 0, sleepFirst := true, psCanSleep := true }

def powerSaveDtimEnableHandler (around : Surroundings) (state : PsState) : PsState :=
  if around.staConnected then
    let psTime := state.psDtimPeriod * state.psDtimMulti * state.psBeaconInt
    let multi := if 0 < psTime ∧ psTime < 75 then 75 / psTime + 1 else 1
    let ready := powerSaveDtimPsInit
      { powerSaveSetDtimMulti multi state with psPeriWakeupWaitTimeMs := 0 }
    { ready with ifWaitBcn := true, bkPsMode := .dtim }
  else
    state

def powerSaveDtimPsExit (state : PsState) : PsState :=
  { state with
    psPeriWakeupWaitTimeMs := 0
    sleepCount := 0
    psDtimPeriod := 1
    psDtimMulti := 1
    sleepMs := 300
    waitedBeacon := .init
    sleepFirst := true
    psCanSleep := false
    psRealSleep := false }

/-- `power_save_dtim_disable_handler`: a sleeping MAC is only reported. -/
def powerSaveDtimDisableHandler (state : PsState) : PsState :=
  let left := powerSaveDtimPsExit { state with bkPsMode := .noPs }
  if left.needReboot then { left with halted := true } else left

def powerSaveBeaconStateSet (beacon : BeaconState) (state : PsState) : PsState :=
  { state with waitedBeacon := beacon }

/-- `power_save_beacon_state_update`: a beacon was received. -/
def powerSaveBeaconStateUpdate (around : Surroundings) (state : PsState) : PsState :=
  if psStaDtimSwitch around state then
    let begun :=
      if state.psCanSleep && state.waitedBeacon == .init then
        powerSaveBeaconStateSet .false state
      else
        state
    if begun.waitedBeacon ≠ .true then
      { powerSaveBeaconStateSet .true begun with psBcnLossMaxCount := 0 }
    else
      begun
  else
    state

def powerSaveWaitTimerRealHandler (around : Surroundings) (state : PsState) : PsState :=
  if psStaDtimSwitch around state then powerSaveBeaconStateSet .true state else state

/-- `power_save_wait_timer_start` once the timer exists and waiting is allowed. -/
def powerSaveWaitTimerStart (state : PsState) : PsState :=
  powerSaveBeaconStateSet .false state

def powerSaveKeepTimerRealHandler (around : Surroundings) (state : PsState) : PsState :=
  if psStaDtimSwitch around state && state.psArmWakeupWay == .rw && !state.psRealSleep then
    if !state.psResetedMoniterFlag && decide (state.psBcnLossMaxCount < psBcnMaxLossLimit) then
      { powerSaveBeaconStateSet .true state with
        psBcnLossMaxCount := state.psBcnLossMaxCount + 1 }
    else
      { state with psResetedMoniterFlag := false }
  else
    state

/-- The entries through which the state changes, with what they find around them. -/
inductive Event
  | enableHandler (around : Surroundings)
  | sleep (around : Surroundings)
  | interrupt (macArmWakeup : Bool)
  | manualWakeup (around : Surroundings)
  | disableHandler
  | beacon (around : Surroundings)
  | waitTimer (around : Surroundings)
  | waitTimerStart
  | keepTimer (around : Surroundings)
  /-- `power_save_set_reseted_flag`. -/
  | resetedFlag
  /-- `power_save_wkup_event_set` with the two bits of its argument. -/
  | wkupEvent (needDisable needReboot : Bool)
  /-- `power_save_ps_mode_set`. -/
  | modeSet (mode : PsMode)
  /-- `power_save_set_dtim_period`. -/
  | dtimPeriod (period : UInt8)
  /-- `power_save_cal_bcn_liston_int`. -/
  | beaconInt (bcnInt : UInt16)
  deriving DecidableEq

/-- One entry, on a processor that is not stopped. -/
def handle (state : PsState) : Event → PsState
  | .enableHandler around => powerSaveDtimEnableHandler around state
  | .sleep around => powerSaveSleep around state
  | .interrupt macArmWakeup => powerSaveDtimWake macArmWakeup state
  | .manualWakeup around => powerSaveRfDtimManualDoWakeup around state
  | .disableHandler => powerSaveDtimDisableHandler state
  | .beacon around => powerSaveBeaconStateUpdate around state
  | .waitTimer around => powerSaveWaitTimerRealHandler around state
  | .waitTimerStart => powerSaveWaitTimerStart state
  | .keepTimer around => powerSaveKeepTimerRealHandler around state
  | .resetedFlag => { state with psResetedMoniterFlag := true }
  | .wkupEvent needDisable needReboot =>
      { state with
        needDisable := state.needDisable || needDisable
        needReboot := state.needReboot || needReboot }
  | .modeSet mode => { state with bkPsMode := mode }
  | .dtimPeriod period => { state with psDtimPeriod := period.toNat }
  | .beaconInt bcnInt =>
      if bcnInt ≠ 0 then { state with psBeaconInt := bcnInt.toNat } else state

def machine : Machine PsState Event Unit where
  step state event := (if state.halted then state else handle state event, ())

/-- The lock is down exactly while the station sleeps, the assertion has not failed and the error
branch has not been taken. -/
structure Disciplined (state : PsState) : Prop where
  lock : state.psLock = if state.psRealSleep then 0 else 1
  asserted : state.assertFailed = false
  accepted : state.errorPs = false

instance decidableDisciplined (state : PsState) : Decidable (Disciplined state) :=
  decidable_of_iff
    (state.psLock = (if state.psRealSleep then 0 else 1) ∧ state.assertFailed = false ∧
      state.errorPs = false)
    ⟨fun ⟨lock, asserted, accepted⟩ => ⟨lock, asserted, accepted⟩,
      fun kept => ⟨kept.lock, kept.asserted, kept.accepted⟩⟩

def AwakeAtDisable (state : PsState) (event : Event) : Prop :=
  event = .disableHandler → state.halted = true ∨ state.psRealSleep = false

instance decidableAwakeAtDisable (state : PsState) (event : Event) :
    Decidable (AwakeAtDisable state event) :=
  inferInstanceAs (Decidable (_ → _))

variable {state next : PsState}

theorem disciplined_psInit : Disciplined psInit where
  lock := rfl
  asserted := rfl
  accepted := rfl

theorem Disciplined.of_same (kept : Disciplined state) (lock_eq : next.psLock = state.psLock)
    (sleep_eq : next.psRealSleep = state.psRealSleep)
    (assert_eq : next.assertFailed = state.assertFailed) (error_eq : next.errorPs = state.errorPs) :
    Disciplined next where
  lock := by rw [lock_eq, sleep_eq, kept.lock]
  asserted := assert_eq.trans kept.asserted
  accepted := error_eq.trans kept.accepted

theorem Disciplined.powerSaveSleep (kept : Disciplined state) (around : Surroundings) :
    Disciplined (powerSaveSleep around state) := by
  unfold PowerSave.powerSaveSleep
  split
  · exact kept
  next awake =>
    have flag : state.psRealSleep = false := by
      simp only [Bool.or_eq_true, not_or, Bool.not_eq_true] at awake
      exact awake.1
    have up : state.psLock = 1 := by
      rw [kept.lock, flag]
      rfl
    split
    · exact kept
    split
    · exact kept
    split
    · exact kept
    split
    · exact kept
    simp only [powerSaveMacIdleCallback, up, powerSaveSleepStatusSet]
    exact { lock := rfl, asserted := kept.asserted, accepted := kept.accepted }

theorem powerSaveWakeup_of_down (down : state.psLock = 0) :
    powerSaveWakeup state =
      { state with waitedBeacon := .false, macAsleep := false, psLock := 1 } := by
  simp [powerSaveWakeup, down, ↓reduceIte]

section

variable (kept : Disciplined state)
include kept

theorem Disciplined.powerSaveIeeeDtimWakeup (running : state.halted = false) :
    Disciplined (powerSaveIeeeDtimWakeup state) := by
  unfold PowerSave.powerSaveIeeeDtimWakeup
  split
  · next asleep =>
      have flag : state.psRealSleep = true := by
        simp only [Bool.and_eq_true] at asleep
        exact asleep.2
      have down : state.psLock = 0 := by
        rw [kept.lock, flag]
        rfl
      rw [powerSaveWakeup_of_down down]
      simp only [running, Bool.false_eq_true, ↓reduceIte]
      exact { lock := rfl, asserted := kept.asserted, accepted := kept.accepted }
  · exact kept

theorem Disciplined.powerSaveDtimWake (running : state.halted = false) (macArmWakeup : Bool) :
    Disciplined (powerSaveDtimWake macArmWakeup state) := by
  unfold PowerSave.powerSaveDtimWake
  split
  · exact Disciplined.powerSaveIeeeDtimWakeup (kept.of_same rfl rfl rfl rfl) running
  · exact kept

theorem Disciplined.powerSaveRfDtimManualDoWakeup (running : state.halted = false)
    (around : Surroundings) : Disciplined (powerSaveRfDtimManualDoWakeup around state) := by
  unfold PowerSave.powerSaveRfDtimManualDoWakeup
  split
  · exact kept
  split
  · exact Disciplined.powerSaveIeeeDtimWakeup (kept.of_same rfl rfl rfl rfl) running
  · exact kept

theorem Disciplined.powerSaveDtimEnableHandler (around : Surroundings) :
    Disciplined (powerSaveDtimEnableHandler around state) := by
  unfold PowerSave.powerSaveDtimEnableHandler
  split
  · exact kept.of_same rfl rfl rfl rfl
  · exact kept

theorem Disciplined.powerSaveBeaconStateUpdate (around : Surroundings) :
    Disciplined (powerSaveBeaconStateUpdate around state) := by
  unfold PowerSave.powerSaveBeaconStateUpdate
  dsimp only
  split
  · split <;> split <;> exact kept.of_same rfl rfl rfl rfl
  · exact kept

theorem Disciplined.powerSaveKeepTimerRealHandler (around : Surroundings) :
    Disciplined (powerSaveKeepTimerRealHandler around state) := by
  unfold PowerSave.powerSaveKeepTimerRealHandler
  split
  · split <;> exact kept.of_same rfl rfl rfl rfl
  · exact kept

end

theorem powerSaveDtimDisableHandler_guards (state : PsState) :
    (powerSaveDtimDisableHandler state).psLock = state.psLock ∧
      (powerSaveDtimDisableHandler state).psRealSleep = false ∧
      (powerSaveDtimDisableHandler state).assertFailed = state.assertFailed ∧
      (powerSaveDtimDisableHandler state).errorPs = state.errorPs := by
  unfold powerSaveDtimDisableHandler
  dsimp only
  split <;> exact ⟨rfl, rfl, rfl, rfl⟩

theorem Disciplined.disable_iff (kept : Disciplined state) :
    Disciplined (powerSaveDtimDisableHandler state) ↔ state.psRealSleep = false := by
  obtain ⟨lock_eq, sleep_eq, assert_eq, error_eq⟩ := powerSaveDtimDisableHandler_guards state
  constructor
  · intro after
    have up : state.psLock = 1 := by
      rw [← lock_eq, after.lock, sleep_eq]
      rfl
    cases flag : state.psRealSleep with
    | false => rfl
    | true =>
        have down := kept.lock
        rw [flag, up] at down
        exact absurd down (Nat.one_ne_zero)
  · intro awake
    exact kept.of_same lock_eq (sleep_eq.trans awake.symm) assert_eq error_eq

/-- From a disciplined state exactly the switching off of a sleeping station breaks the
discipline. -/
theorem Disciplined.step_iff (kept : Disciplined state) (event : Event) :
    Disciplined (machine.step state event).1 ↔ AwakeAtDisable state event := by
  unfold machine
  dsimp only
  cases running : state.halted with
  | true => exact iff_of_true kept fun _ => Or.inl running
  | false =>
      rw [if_neg Bool.false_ne_true]
      by_cases off : event = .disableHandler
      · subst off
        simp [AwakeAtDisable, handle, running, kept.disable_iff]
      refine iff_of_true ?_ fun is_off => absurd is_off off
      cases event with
      | enableHandler around => exact kept.powerSaveDtimEnableHandler around
      | sleep around => exact kept.powerSaveSleep around
      | interrupt macArmWakeup => exact kept.powerSaveDtimWake running macArmWakeup
      | manualWakeup around => exact kept.powerSaveRfDtimManualDoWakeup running around
      | disableHandler => exact absurd rfl off
      | beacon around => exact kept.powerSaveBeaconStateUpdate around
      | waitTimer around =>
          simp only [handle, powerSaveWaitTimerRealHandler]
          split
          · exact kept.of_same rfl rfl rfl rfl
          · exact kept
      | keepTimer around => exact kept.powerSaveKeepTimerRealHandler around
      | beaconInt bcnInt =>
          simp only [handle]
          split
          · exact kept.of_same rfl rfl rfl rfl
          · exact kept
      | _ => exact kept.of_same rfl rfl rfl rfl

/-- Over every order of the entries, the lock is down exactly while the station sleeps, the
assertion holds and no sleep attempt ends in the error branch, in every state reached, if and only
if the mode is never switched off while the station sleeps. -/
theorem lock_discipline_iff (events : List Event) :
    (∀ front, front <+: events → Disciplined (machine.run psInit front)) ↔
      machine.Always AwakeAtDisable psInit events :=
  machine.forall_run_iff_always AwakeAtDisable (fun _ => True) Disciplined
    (fun _ _ => trivial) (fun event _ kept => kept.step_iff event) trivial disciplined_psInit events

/-- A connected station whose MAC obeys. -/
def Surroundings.ordinary : Surroundings where
  netUp := true
  staConnected := true
  roleSta := true
  bleSwitchMacSleeped := false
  inDoze := false
  macInterrupt := false
  macSleeps := true

/-- The station sleeps, its mode is switched off, switched on again, and it is to sleep once
more. -/
def disabledAsleep : List Event :=
  [.enableHandler .ordinary, .beacon .ordinary, .sleep .ordinary, .disableHandler,
    .enableHandler .ordinary, .beacon .ordinary, .sleep .ordinary]

/-- After the switching off, flag and lock are both down; the next sleep attempt takes the error
branch with the MAC asleep. -/
theorem disable_asleep_breaks_lock :
    (machine.run psInit (disabledAsleep.take 4)).psRealSleep = false ∧
      (machine.run psInit (disabledAsleep.take 4)).psLock = 0 ∧
      (machine.run psInit disabledAsleep).errorPs = true ∧
      (machine.run psInit disabledAsleep).macAsleep = true ∧
      ¬ ∀ front, front <+: disabledAsleep → Disciplined (machine.run psInit front) := by
  have error : (machine.run psInit disabledAsleep).errorPs = true := rfl
  refine ⟨rfl, rfl, error, rfl, ?_⟩
  intro every
  have taken := (every disabledAsleep (List.prefix_refl _)).accepted
  rw [error] at taken
  exact Bool.false_ne_true taken.symm

end BdkFreertos.PowerSave
