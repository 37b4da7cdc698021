import BdkFreertos.PowerSave
import Mathlib.Data.UInt

/-!
# Sleeping for a time

The requests to sleep turn milliseconds or seconds into counts of the low-power clock.  The products
are taken in 32 bits and only then held to the range of the timer.
-/

namespace BdkFreertos.ManualSleep

open PowerSave

/-! ### The requests -/

/-- What the requests read and program. -/
structure LowPower where
  bkPsMode : PsMode
  /-- The argument of the last `ps_pwm0_suspend_tick`; there is none after `ps_pwm0_disable`. -/
  pwm0Wakeup : Option UInt32
  /-- `SCTRL_ROSC_TIMER`. -/
  roscTimer : UInt32
  /-- `SCTRL_ROSC_TIMER_H`. -/
  roscTimerH : UInt32

/-- The product that `general_sleep_wakeup_with_timer` takes, in its range. -/
def wakeupTimer (sleepTime : UInt32) : UInt32 :=
  let timer := sleepTime * 32
  if timer > 65535 then 65535 else if timer < 160 then 160 else timer

/-- `general_sleep_wakeup_with_timer`. -/
def generalSleepWakeupWithTimer (sleepTime : UInt32) (state : LowPower) : LowPower :=
  if state.bkPsMode ≠ .noPs then state
  else if sleepTime ≠ 0xffffffff then { state with pwm0Wakeup := some (wakeupTimer sleepTime) }
  else { state with pwm0Wakeup := none }

/-- Writing a period into `SCTRL_ROSC_TIMER` and starting the timer. -/
def startRoscTimer (period register : UInt32) : UInt32 :=
  let register := register ||| (1 : UInt32) <<< 8
  let register := register &&& ~~~((0xFFFF : UInt32) <<< 16)
  let register := register ||| period <<< 16
  register ||| 1

/-- The part of `sctrl_enter_rtos_idle_sleep` that programs the timer. -/
def sctrlEnterRtosIdleSleep (param : UInt32) (state : LowPower) : LowPower :=
  if param ≠ 0xffffffff then { state with roscTimer := startRoscTimer param state.roscTimer }
  else state

/-- The quotient that `idle_sleep_wakeup_with_timer` takes, in its range. -/
def idleParam (sleepTime : UInt32) : UInt32 :=
  let param := sleepTime * 102400 / 3125
  if param > 0xffff then 0xffff else if param < 32 then 32 else param

def idleSleepWakeupWithTimer (sleepTime : UInt32) (state : LowPower) : LowPower :=
  if state.bkPsMode ≠ .noPs then state
  else
    sctrlEnterRtosIdleSleep (if sleepTime ≠ 0xffffffff then idleParam sleepTime else 0xffffffff)
      { state with pwm0Wakeup := none }

/-- What is used of `PS_DEEP_CTRL_PARAM`. -/
structure PsDeepCtrlParam where
  wakeUpWay : UInt32
  sleepTime : UInt32

def psDeepWakeupRtc : UInt32 := 2

/-- The part of `sctrl_enter_rtos_deep_sleep` that programs the timer. -/
def sctrlEnterRtosDeepSleep (deepParam : PsDeepCtrlParam) (state : LowPower) : LowPower :=
  if deepParam.wakeUpWay &&& psDeepWakeupRtc ≠ 0 ∧ deepParam.sleepTime ≠ 0xffffffff then
    { state with
      roscTimerH := deepParam.sleepTime >>> 16 &&& 0xffff
      roscTimer := startRoscTimer (deepParam.sleepTime &&& 0xFFFF) state.roscTimer }
  else state

/-- The product that `bk_enter_deep_sleep_mode` takes. -/
def deepSleepTime (sleepTime : UInt32) : UInt32 :=
  32768 * if sleepTime > 0x1ffff then 0x1ffff else sleepTime

def bkEnterDeepSleepMode (deepParam : PsDeepCtrlParam) (state : LowPower) : LowPower :=
  let deepParam :=
    if deepParam.wakeUpWay &&& psDeepWakeupRtc ≠ 0 then
      { deepParam with sleepTime := deepSleepTime deepParam.sleepTime }
    else deepParam
  sctrlEnterRtosDeepSleep deepParam state

/-! ### The purpose -/

/-- A way to sleep for a time. -/
inductive SleepFunction
  | general
  | idle
  /-- Deep sleep, with the real-time clock among what wakes the chip up. -/
  | deep (wakeUpWay : UInt32) (rtc : wakeUpWay &&& psDeepWakeupRtc ≠ 0)

namespace SleepFunction

def request : SleepFunction → UInt32 → LowPower → LowPower
  | general, sleepTime => generalSleepWakeupWithTimer sleepTime
  | idle, sleepTime => idleSleepWakeupWithTimer sleepTime
  | deep wakeUpWay _, sleepTime => bkEnterDeepSleepMode ⟨wakeUpWay, sleepTime⟩

/-- The count that the timer of the function holds. -/
def counter : SleepFunction → LowPower → Option ℕ
  | general, state => state.pwm0Wakeup.map UInt32.toNat
  | idle, state => some (state.roscTimer.toNat / 2 ^ 16)
  | deep _ _, state => some (2 ^ 16 * state.roscTimerH.toNat + state.roscTimer.toNat / 2 ^ 16)

/-- The count for a time, in the numbers. -/
def clamped : SleepFunction → ℕ → ℕ
  | general, time => max 160 (min 65535 (time * 32))
  | idle, time => max 32 (min 0xffff (time * 102400 / 3125))
  | deep _ _, time => min (time * 32768) (0x1ffff * 32768)

/-- The product fits into 32 bits, or what is left of it is not below the top of the range. -/
def Saturates : SleepFunction → ℕ → Prop
  | general, time => time * 32 < 2 ^ 32 ∨ 65535 ≤ time * 32 % 2 ^ 32
  | idle, time => time * 102400 < 2 ^ 32 ∨ 65535 * 3125 ≤ time * 102400 % 2 ^ 32
  | deep _ _, _ => True

end SleepFunction

/-! ### The counts -/

theorem toNat_wakeupTimer (sleepTime : UInt32) :
    (wakeupTimer sleepTime).toNat = max 160 (min 65535 (sleepTime.toNat * 32 % 2 ^ 32)) := by
  have product : (sleepTime * 32).toNat = sleepTime.toNat * 32 % 2 ^ 32 := UInt32.toNat_mul ..
  have top : (65535 : UInt32).toNat = 65535 := rfl
  have bottom : (160 : UInt32).toNat = 160 := rfl
  simp only [wakeupTimer, gt_iff_lt, UInt32.lt_iff_toNat_lt, product, top, bottom]
  split_ifs <;> omega

theorem toNat_idleParam (sleepTime : UInt32) :
    (idleParam sleepTime).toNat =
      max 32 (min 0xffff (sleepTime.toNat * 102400 % 2 ^ 32 / 3125)) := by
  have product : (sleepTime * 102400 / 3125).toNat =
      sleepTime.toNat * 102400 % 2 ^ 32 / 3125 := by
    rw [UInt32.toNat_div, UInt32.toNat_mul]
    rfl
  have top : (0xffff : UInt32).toNat = 0xffff := rfl
  have bottom : (32 : UInt32).toNat = 32 := rfl
  simp only [idleParam, gt_iff_lt, UInt32.lt_iff_toNat_lt, product, top, bottom]
  split_ifs <;> omega

theorem toNat_deepSleepTime (sleepTime : UInt32) :
    (deepSleepTime sleepTime).toNat = min (sleepTime.toNat * 32768) (0x1ffff * 32768) := by
  have factor : (32768 : UInt32).toNat = 32768 := rfl
  have top : (0x1ffff : UInt32).toNat = 0x1ffff := rfl
  rw [deepSleepTime, UInt32.toNat_mul, factor]
  split_ifs with long
  · rw [gt_iff_lt, UInt32.lt_iff_toNat_lt, top] at long
    rw [top]
    omega
  · rw [gt_iff_lt, UInt32.lt_iff_toNat_lt, top] at long
    omega

theorem toNat_startRoscTimer (period register : UInt32) :
    (startRoscTimer period register).toNat / 2 ^ 16 = period.toNat % 2 ^ 16 := by
  have kept : (~~~((0xFFFF : UInt32) <<< 16)).toNat = 0xFFFF := by decide
  have shifted : (period <<< 16).toNat = period.toNat * 2 ^ 16 % 2 ^ 32 := by
    rw [UInt32.toNat_shiftLeft, ← Nat.shiftLeft_eq]
    rfl
  have enable : (1 : UInt32).toNat >>> 16 = 0 := rfl
  have low : (0xFFFF : ℕ) >>> 16 = 0 := rfl
  rw [startRoscTimer, ← Nat.shiftRight_eq_div_pow, UInt32.toNat_or, UInt32.toNat_or,
    UInt32.toNat_and, kept, shifted, Nat.shiftRight_or_distrib, Nat.shiftRight_or_distrib,
    Nat.shiftRight_and_distrib, enable, low, Nat.and_zero, Nat.zero_or, Nat.or_zero,
    Nat.shiftRight_eq_div_pow]
  omega

/-! ### The functions -/

section
variable {state : LowPower} {sleepTime : UInt32}

theorem counter_general (ready : state.bkPsMode = .noPs) (finite : sleepTime ≠ 0xffffffff) :
    SleepFunction.general.counter (SleepFunction.general.request sleepTime state) =
      some (max 160 (min 65535 (sleepTime.toNat * 32 % 2 ^ 32))) := by
  rw [SleepFunction.request, generalSleepWakeupWithTimer, if_neg (not_not.mpr ready),
    if_pos finite, ← toNat_wakeupTimer]
  rfl

theorem counter_idle (ready : state.bkPsMode = .noPs) (finite : sleepTime ≠ 0xffffffff) :
    SleepFunction.idle.counter (SleepFunction.idle.request sleepTime state) =
      some (max 32 (min 0xffff (sleepTime.toNat * 102400 % 2 ^ 32 / 3125))) := by
  have param_eq := toNat_idleParam sleepTime
  have not_forever : idleParam sleepTime ≠ 0xffffffff := by
    rw [← UInt32.toNat_inj.ne, param_eq]
    change _ ≠ 0xffffffff
    omega
  rw [SleepFunction.request, idleSleepWakeupWithTimer, if_neg (not_not.mpr ready),
    if_pos finite, sctrlEnterRtosIdleSleep, if_pos not_forever, SleepFunction.counter,
    toNat_startRoscTimer, param_eq]
  congr 1
  omega

theorem counter_deep (wakeUpWay : UInt32) (rtc : wakeUpWay &&& psDeepWakeupRtc ≠ 0) :
    (SleepFunction.deep wakeUpWay rtc).counter
        ((SleepFunction.deep wakeUpWay rtc).request sleepTime state) =
      some (min (sleepTime.toNat * 32768) (0x1ffff * 32768)) := by
  have time_eq := toNat_deepSleepTime sleepTime
  have not_forever : deepSleepTime sleepTime ≠ 0xffffffff := by
    rw [← UInt32.toNat_inj.ne, time_eq]
    change _ ≠ 0xffffffff
    omega
  have low : (deepSleepTime sleepTime &&& 0xFFFF).toNat =
      (deepSleepTime sleepTime).toNat % 2 ^ 16 :=
    (UInt32.toNat_and ..).trans (Nat.and_two_pow_sub_one_eq_mod _ 16)
  have high : (deepSleepTime sleepTime >>> 16 &&& 0xffff).toNat =
      (deepSleepTime sleepTime).toNat / 2 ^ 16 % 2 ^ 16 := by
    rw [UInt32.toNat_and, UInt32.toNat_shiftRight, ← Nat.shiftRight_eq_div_pow]
    exact Nat.and_two_pow_sub_one_eq_mod _ 16
  rw [SleepFunction.request, bkEnterDeepSleepMode, if_pos rtc, sctrlEnterRtosDeepSleep,
    if_pos ⟨rtc, not_forever⟩, SleepFunction.counter, toNat_startRoscTimer]
  simp only [high, low, time_eq]
  congr 1
  omega

theorem counter_eq_clamped_iff (sleepFunction : SleepFunction) (ready : state.bkPsMode = .noPs)
    (finite : sleepTime < 0xffffffff) :
    sleepFunction.counter (sleepFunction.request sleepTime state) =
        some (sleepFunction.clamped sleepTime.toNat) ↔
      sleepFunction.Saturates sleepTime.toNat := by
  have finite_ne : sleepTime ≠ 0xffffffff := UInt32.ne_of_lt finite
  have bounded := sleepTime.toNat_lt
  cases sleepFunction with
  | general =>
      rw [counter_general ready finite_ne, Option.some_inj, SleepFunction.clamped,
        SleepFunction.Saturates]
      omega
  | idle =>
      rw [counter_idle ready finite_ne, Option.some_inj, SleepFunction.clamped,
        SleepFunction.Saturates]
      by_cases fits : sleepTime.toNat * 102400 < 2 ^ 32
      · rw [Nat.mod_eq_of_lt fits]
        exact iff_of_true rfl (Or.inl fits)
      · have top : max 32 (min 0xffff (sleepTime.toNat * 102400 / 3125)) = 0xffff := by omega
        rw [top, or_iff_right fits]
        omega
  | deep wakeUpWay rtc =>
      rw [counter_deep wakeUpWay rtc]
      exact iff_of_true rfl trivial

end

theorem SleepFunction.clamped_mono (sleepFunction : SleepFunction) :
    Monotone sleepFunction.clamped := by
  intro short long le
  cases sleepFunction <;> simp only [SleepFunction.clamped] <;> omega

/-- Requests are converted exactly, and a longer one not to a smaller count, if and only if their
products saturate. -/
theorem sleep_time_exact_iff (sleepFunction : SleepFunction) (state : LowPower)
    (short long : UInt32) (ready : state.bkPsMode = .noPs) (le : short ≤ long)
    (finite : long < 0xffffffff) :
    (∃ shortCount longCount,
        sleepFunction.counter (sleepFunction.request short state) = some shortCount ∧
        sleepFunction.counter (sleepFunction.request long state) = some longCount ∧
        shortCount = sleepFunction.clamped short.toNat ∧
        longCount = sleepFunction.clamped long.toNat ∧ shortCount ≤ longCount) ↔
      sleepFunction.Saturates short.toNat ∧ sleepFunction.Saturates long.toNat := by
  have short_iff := counter_eq_clamped_iff sleepFunction ready (UInt32.lt_of_le_of_lt le finite)
  have long_iff := counter_eq_clamped_iff sleepFunction ready finite
  rw [← short_iff, ← long_iff]
  constructor
  · rintro ⟨_, _, short_eq, long_eq, rfl, rfl, -⟩
    exact ⟨short_eq, long_eq⟩
  · rintro ⟨short_eq, long_eq⟩
    exact ⟨_, _, short_eq, long_eq, rfl, rfl,
      sleepFunction.clamped_mono (UInt32.le_iff_toNat_le.mp le)⟩

/-- One and two seconds. -/
theorem seconds_exact :
    ∃ shortCount longCount,
      SleepFunction.idle.counter (SleepFunction.idle.request 1000 ⟨.noPs, none, 0, 0⟩) =
        some shortCount ∧
      SleepFunction.idle.counter (SleepFunction.idle.request 2000 ⟨.noPs, none, 0, 0⟩) =
        some longCount ∧
      shortCount = SleepFunction.idle.clamped 1000 ∧
      longCount = SleepFunction.idle.clamped 2000 ∧ shortCount ≤ longCount :=
  (sleep_time_exact_iff .idle ⟨.noPs, none, 0, 0⟩ 1000 2000 rfl (by decide) (by decide)).mpr
    ⟨Or.inl (by decide), Or.inl (by decide)⟩

/-- A request for 41944 milliseconds sleeps for one. -/
theorem idle_sleep_wraps :
    SleepFunction.idle.counter (SleepFunction.idle.request 41944 ⟨.noPs, none, 0, 0⟩) = some 32 ∧
      SleepFunction.idle.clamped 41944 = 65535 := by
  refine ⟨(counter_idle rfl (by decide)).trans ?_, by decide⟩
  decide

end BdkFreertos.ManualSleep
