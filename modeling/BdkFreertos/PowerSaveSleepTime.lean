import BdkFreertos.Machine
import Mathlib.Tactic.NormNum

/-!
# The time left to sleep

`power_save_time_to_sleep` multiplies what the beacons and the setters have left in `bk_ps_info` to
the time between two wake-ups and takes off what has passed of it.  The time between two wake-ups is
a number of beacon intervals; what is returned is in milliseconds.
-/

namespace BdkFreertos.PowerSave

/-- The fields of `bk_ps_info` the time is made of. -/
structure DtimInfo where
  psDtimPeriod : UInt8
  psDtimCount : UInt8
  psDtimMulti : UInt8
  psBeaconInt : UInt16
  deriving DecidableEq

/-- The fields as the program starts. -/
def dtimInit : DtimInfo where
  psDtimPeriod := 1
  psDtimCount := 0
  psDtimMulti := 1
  psBeaconInt := 0

/-- `power_save_set_dtim_multi`. -/
def setDtimMulti (multi : UInt8) (info : DtimInfo) : DtimInfo :=
  { info with psDtimMulti := if 0 < multi ∧ multi < 100 then multi else 1 }

/-- `power_save_get_rf_ps_dtim_time`; the product is taken as an `int`. -/
def getRfPsDtimTime (info : DtimInfo) : UInt32 :=
  UInt32.ofNat
    (info.psDtimPeriod.toNat * info.psDtimMulti.toNat * info.psBeaconInt.toNat)

/-- What `power_save_dtim_enable_handler` does to the fields. -/
def dtimEnableHandler (staConnected : Bool) (info : DtimInfo) : DtimInfo :=
  if staConnected then
    let psTime := getRfPsDtimTime info
    if 0 < psTime ∧ psTime < 75 then
      setDtimMulti (75 / psTime + 1).toUInt8 info
    else
      setDtimMulti 1 info
  else
    info

/-- What changes the fields. -/
inductive DtimEvent
  /-- `power_save_set_dtim_period`, with the period of a beacon. -/
  | setDtimPeriod (period : UInt8)
  /-- `power_save_set_dtim_count`, with the count of a beacon. -/
  | setDtimCount (count : UInt8)
  /-- `power_save_set_dtim_multi`, with a command's argument. -/
  | setDtimMulti (multi : UInt8)
  /-- `power_save_cal_bcn_liston_int`, with the interval of a beacon. -/
  | calBcnListonInt (bcnInt : UInt16)
  /-- `power_save_dtim_enable_handler`. -/
  | enable (staConnected : Bool)
  /-- `power_save_dtim_ps_exit`. -/
  | exit

/-- The fields under their setters. -/
def dtimMachine : Machine DtimInfo DtimEvent Unit where
  step info
    | .setDtimPeriod period => ({ info with psDtimPeriod := period }, ())
    | .setDtimCount count => ({ info with psDtimCount := count }, ())
    | .setDtimMulti multi => (setDtimMulti multi info, ())
    | .calBcnListonInt bcnInt =>
        (if bcnInt ≠ 0 then { info with psBeaconInt := bcnInt } else info, ())
    | .enable staConnected => (dtimEnableHandler staConnected info, ())
    | .exit => ({ info with psDtimPeriod := 1, psDtimMulti := 1 }, ())

/-- `tm`: the product is taken as an `int` and stored as a word. -/
def timeBetweenWakeups (info : DtimInfo) : UInt32 :=
  let intervals : ℤ :=
    if info.psDtimCount = 0 then
      (info.psDtimPeriod.toNat : ℤ) * info.psDtimMulti.toNat
    else
      (info.psDtimPeriod.toNat : ℤ) * ((info.psDtimMulti.toNat : ℤ) - 1) + info.psDtimCount.toNat
  UInt32.ofInt (intervals * info.psBeaconInt.toNat)

def fclkDurationMs : UInt64 := 2

/-- The time left to sleep, unless the remainder is taken by zero. -/
def powerSaveTimeToSleep (info : DtimInfo) (lastWkTick : UInt32) (tick : UInt64) : Option UInt32 :=
  let tm := timeBetweenWakeups info
  if tm = 0 then
    none
  else
    let less := tm.toUInt64 - (tick - lastWkTick.toUInt64) * fclkDurationMs % tm.toUInt64
    some less.toUInt32

/-! ## The listen interval -/

/-- The beacon intervals between two wake-ups: the listen interval used. -/
def listenInterval (info : DtimInfo) : ℕ :=
  if info.psDtimCount = 0 then
    info.psDtimPeriod.toNat * info.psDtimMulti.toNat
  else
    info.psDtimPeriod.toNat * (info.psDtimMulti.toNat - 1) + info.psDtimCount.toNat

def MultiInRange (info : DtimInfo) : Prop :=
  1 ≤ info.psDtimMulti.toNat ∧ info.psDtimMulti.toNat < 100

theorem one_in_range : 1 ≤ (1 : UInt8).toNat ∧ (1 : UInt8).toNat < 100 := by
  decide

theorem multiInRange_setDtimMulti (multi : UInt8) (info : DtimInfo) :
    MultiInRange (setDtimMulti multi info) := by
  rw [MultiInRange, setDtimMulti]
  dsimp only
  split
  · rename_i small
    exact ⟨UInt8.lt_iff_toNat_lt.mp small.1, UInt8.lt_iff_toNat_lt.mp small.2⟩
  · exact one_in_range

variable {info : DtimInfo}

theorem multiInRange_step (event : DtimEvent) (range : MultiInRange info) :
    MultiInRange (dtimMachine.step info event).1 := by
  cases event with
  | setDtimPeriod period => exact range
  | setDtimCount count => exact range
  | setDtimMulti multi => exact multiInRange_setDtimMulti multi info
  | calBcnListonInt bcnInt =>
      simp only [dtimMachine]
      split
      · exact range
      · exact range
  | enable staConnected =>
      simp only [dtimMachine, dtimEnableHandler]
      split
      · split
        · exact multiInRange_setDtimMulti _ info
        · exact multiInRange_setDtimMulti 1 info
      · exact range
  | exit => exact one_in_range

theorem multiInRange_run (events : List DtimEvent) :
    MultiInRange (dtimMachine.run dtimInit events) :=
  dtimMachine.run_invariant_of_step MultiInRange (show MultiInRange dtimInit from one_in_range)
    multiInRange_step events

theorem listenInterval_mul_lt (range : MultiInRange info) :
    listenInterval info * info.psBeaconInt.toNat < 2 ^ 31 := by
  have period_lt := info.psDtimPeriod.toNat_lt
  have count_lt := info.psDtimCount.toNat_lt
  have beacon_lt := info.psBeaconInt.toNat_lt
  have intervals : listenInterval info ≤ 255 * 99 := by
    rw [listenInterval]
    split
    · exact Nat.mul_le_mul (by omega) (by have := range.2; omega)
    · have whole : info.psDtimPeriod.toNat * (info.psDtimMulti.toNat - 1) ≤ 255 * 98 :=
        Nat.mul_le_mul (by omega) (by have := range.2; omega)
      omega
  calc
    listenInterval info * info.psBeaconInt.toNat ≤ 255 * 99 * 65535 :=
      Nat.mul_le_mul intervals (by omega)
    _ < 2 ^ 31 := by norm_num

theorem toNat_timeBetweenWakeups (range : MultiInRange info) :
    (timeBetweenWakeups info).toNat = listenInterval info * info.psBeaconInt.toNat := by
  have small := listenInterval_mul_lt range
  have intervals : (if info.psDtimCount = 0 then
        (info.psDtimPeriod.toNat : ℤ) * info.psDtimMulti.toNat
      else
        (info.psDtimPeriod.toNat : ℤ) * ((info.psDtimMulti.toNat : ℤ) - 1) +
          info.psDtimCount.toNat) = (listenInterval info : ℤ) := by
    rw [listenInterval]
    split
    · rw [Nat.cast_mul]
    · rw [Nat.cast_add, Nat.cast_mul, Nat.cast_sub range.1, Nat.cast_one]
  rw [timeBetweenWakeups, intervals, ← Nat.cast_mul, UInt32.ofInt]
  have modulus : (2 : ℤ) ^ 32 = ((2 ^ 32 : ℕ) : ℤ) := by norm_num
  rw [modulus, ← Int.natCast_mod, Int.toNat_natCast, UInt32.toNat_ofNat']
  omega

theorem powerSaveTimeToSleep_bounds (nonzero : timeBetweenWakeups info ≠ 0) (lastWkTick : UInt32)
    (tick : UInt64) :
    ∃ ms, powerSaveTimeToSleep info lastWkTick tick = some ms ∧ 1 ≤ ms.toNat ∧
      ms.toNat ≤ (timeBetweenWakeups info).toNat := by
  rw [powerSaveTimeToSleep]
  simp only
  rw [if_neg nonzero]
  refine ⟨_, rfl, ?_⟩
  generalize (tick - lastWkTick.toUInt64) * fclkDurationMs = passed
  generalize timeBetweenWakeups info = tm at nonzero ⊢
  have positive : 0 < tm.toNat := by
    rcases Nat.eq_zero_or_pos tm.toNat with zero | positive
    · exact absurd (UInt32.toNat_inj.mp zero) nonzero
    · exact positive
  have tm_lt := tm.toNat_lt
  have rest_lt := Nat.mod_lt passed.toNat positive
  have rest_eq : (passed % tm.toUInt64).toNat = passed.toNat % tm.toNat := by
    rw [UInt64.toNat_mod, UInt32.toNat_toUInt64]
  have below : passed % tm.toUInt64 ≤ tm.toUInt64 := by
    rw [UInt64.le_iff_toNat_le, rest_eq, UInt32.toNat_toUInt64]
    exact Nat.le_of_lt rest_lt
  rw [UInt64.toNat_toUInt32, UInt64.toNat_sub_of_le _ _ below, rest_eq, UInt32.toNat_toUInt64]
  omega

/-- For everything the setters and the beacons can store that makes a listen interval of some time,
and whatever the clock says, the time to sleep is at least a millisecond and at most the listen
interval used. -/
theorem time_to_sleep_in_listen_interval (events : List DtimEvent) (lastWkTick : UInt32)
    (tick : UInt64) :
    let info := dtimMachine.run dtimInit events
    0 < listenInterval info * info.psBeaconInt.toNat →
      ∃ ms, powerSaveTimeToSleep info lastWkTick tick = some ms ∧ 1 ≤ ms.toNat ∧
        ms.toNat ≤ listenInterval info * info.psBeaconInt.toNat := by
  intro info some_time
  have between := toNat_timeBetweenWakeups (multiInRange_run events)
  have nonzero : timeBetweenWakeups info ≠ 0 := by
    intro zero
    rw [show dtimMachine.run dtimInit events = info from rfl, zero] at between
    exact absurd between.symm some_time.ne'
  rw [← between]
  exact powerSaveTimeToSleep_bounds nonzero lastWkTick tick

/-- An access point with a beacon every 100 time units and a DTIM at every third one. -/
theorem time_to_sleep_of_third_beacon :
    let info := dtimMachine.run dtimInit [.calBcnListonInt 100, .setDtimPeriod 3]
    0 < listenInterval info * info.psBeaconInt.toNat ∧
      ∃ ms, powerSaveTimeToSleep info 0 0 = some ms ∧ 1 ≤ ms.toNat ∧
        ms.toNat ≤ listenInterval info * info.psBeaconInt.toNat :=
  ⟨by decide, time_to_sleep_in_listen_interval [.calBcnListonInt 100, .setDtimPeriod 3] 0 0
    (by decide)⟩

/-- What is returned is no number of beacon intervals: with a DTIM at every beacon the listen
interval is one, and 100 milliseconds are left to sleep.  A period of zero from a beacon makes it
divide by zero. -/
theorem time_to_sleep_counts_milliseconds :
    let ordinary := dtimMachine.run dtimInit [.calBcnListonInt 100]
    let zeroPeriod := dtimMachine.run dtimInit [.calBcnListonInt 100, .setDtimPeriod 0]
    (listenInterval ordinary = 1 ∧ powerSaveTimeToSleep ordinary 0 0 = some 100) ∧
      powerSaveTimeToSleep zeroPeriod 0 0 = none := by
  decide

end BdkFreertos.PowerSave
