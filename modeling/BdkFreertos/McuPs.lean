import BdkFreertos.FakeClock

/-!
# The peripheral-busy count of the power-save code

Drivers bracket an operation by `peri_busy_count_add` and `peri_busy_count_dec`, and the idle task
puts the processor to sleep only while the count is zero.  Switching the power save on or off sets
the count back to zero, whatever operations are under way.
-/

namespace BdkFreertos.McuPs

open FakeClock

/-- The record `MCU_PS_INFO`. -/
structure McuPsInfo where
  mcuPsOn : UInt8
  /-- Peripheral operations under way. -/
  periBusyCount : Int32
  /-- Reasons not to sleep, one bit each. -/
  mcuPrevent : UInt32

/-- The record as the program starts. -/
def mcuPsInfo : McuPsInfo where
  mcuPsOn := 0
  periBusyCount := 0
  mcuPrevent := 0

def periBusyCountAdd (info : McuPsInfo) : McuPsInfo :=
  { info with periBusyCount := info.periBusyCount + 1 }

def periBusyCountDec (info : McuPsInfo) : McuPsInfo :=
  { info with periBusyCount := info.periBusyCount - 1 }

def periBusyCountGet (info : McuPsInfo) : UInt32 :=
  info.periBusyCount.toUInt32

def mcuPreventSet (info : McuPsInfo) (prevent : UInt32) : McuPsInfo :=
  { info with mcuPrevent := info.mcuPrevent ||| prevent }

def mcuPreventClear (info : McuPsInfo) (prevent : UInt32) : McuPsInfo :=
  { info with mcuPrevent := info.mcuPrevent &&& ~~~prevent }

def mcuPreventGet (info : McuPsInfo) : UInt32 :=
  info.mcuPrevent

def mcuPsEnable (info : McuPsInfo) : McuPsInfo :=
  { info with mcuPsOn := 1 }

def mcuPsDisable (info : McuPsInfo) : McuPsInfo :=
  { info with mcuPsOn := 0 }

def mcuPsInit (info : McuPsInfo) : McuPsInfo :=
  if info.mcuPsOn = 0 then { info with mcuPsOn := 1, periBusyCount := 0 } else info

def mcuPsExit (info : McuPsInfo) : McuPsInfo :=
  if info.mcuPsOn = 1 then { info with mcuPsOn := 0, periBusyCount := 0 } else info

/-- The sleep, in periods of the 32 kHz clock, that an idle time of so many ticks allows.  The build
for the BK7231 cuts it to 65535, which is left out here. -/
def sleepPwmT (sleepTick : UInt32) : Option UInt32 :=
  let sleepMs := sleepTick * UInt32.ofNat fclkDurationMs
  if sleepMs ≤ 2 then
    none
  else
    let sleepMs := sleepMs - UInt32.ofNat fclkDurationMs
    let sleepPwmT := sleepMs * 32
    if int32 sleepPwmT ≤ 64 then
      none
    else
      some (if sleepPwmT < 64 then 64 else sleepPwmT)

/-- The decision of the idle task: the sleep it enters, when it enters one. -/
def mcuPowerSave (info : McuPsInfo) (sleepTick : UInt32) : Option UInt32 :=
  if info.mcuPsOn = 1 ∧ periBusyCountGet info = 0 ∧ mcuPreventGet info = 0 then
    sleepPwmT sleepTick
  else
    none

/-- What a driver or the power-save code does to the record. -/
inductive Event
  | add
  | dec
  | init
  | exit
  /-- `mcu_ps_enable`. -/
  | enable
  /-- `mcu_ps_disable`. -/
  | disable
  /-- `mcu_prevent_set`. -/
  | preventSet (prevent : UInt32)
  /-- `mcu_prevent_clear`. -/
  | preventClear (prevent : UInt32)

/-- The record together with the operations really under way. -/
structure Tracked where
  info : McuPsInfo
  /-- Starts of operations not yet matched by an end. -/
  inFlight : ℕ

/-- The program as it starts. -/
def Tracked.start : Tracked where
  info := mcuPsInfo
  inFlight := 0

/-- The record driven by its events. -/
def mcuPs : Machine Tracked Event Unit where
  step tracked
    | .add => (⟨periBusyCountAdd tracked.info, tracked.inFlight + 1⟩, ())
    | .dec => (⟨periBusyCountDec tracked.info, tracked.inFlight - 1⟩, ())
    | .init => (⟨mcuPsInit tracked.info, tracked.inFlight⟩, ())
    | .exit => (⟨mcuPsExit tracked.info, tracked.inFlight⟩, ())
    | .enable => (⟨mcuPsEnable tracked.info, tracked.inFlight⟩, ())
    | .disable => (⟨mcuPsDisable tracked.info, tracked.inFlight⟩, ())
    | .preventSet prevent => (⟨mcuPreventSet tracked.info prevent, tracked.inFlight⟩, ())
    | .preventClear prevent => (⟨mcuPreventClear tracked.info prevent, tracked.inFlight⟩, ())

def Paired (tracked : Tracked) (event : Event) : Prop :=
  event = .dec → 0 < tracked.inFlight

/-- The power save is switched while no operation is under way, and fewer than `2 ^ 31` operations
are ever under way. -/
def Quiet (tracked : Tracked) : Event → Prop
  | .init => tracked.info.mcuPsOn = 0 → tracked.inFlight = 0
  | .exit => tracked.info.mcuPsOn = 1 → tracked.inFlight = 0
  | .add => tracked.inFlight + 1 < 2 ^ 31
  | _ => True

def Counts (tracked : Tracked) : Prop :=
  tracked.info.periBusyCount.toInt = tracked.inFlight

/-- The count is the number of operations under way, and the processor sleeps in an idle time long
enough exactly when there is none, the power save being on and nothing else preventing it. -/
def Accurate (tracked : Tracked) : Prop :=
  Counts tracked ∧
    ∀ sleepTick, (sleepPwmT sleepTick).isSome → tracked.info.mcuPsOn = 1 →
      tracked.info.mcuPrevent = 0 →
        ((mcuPowerSave tracked.info sleepTick).isSome ↔ tracked.inFlight = 0)

variable {tracked : Tracked}

theorem accurate_of_counts (counts : Counts tracked) : Accurate tracked := by
  refine ⟨counts, ?_⟩
  intro sleepTick long power_on unprevented
  have idle : periBusyCountGet tracked.info = 0 ↔ tracked.inFlight = 0 := by
    rw [Counts] at counts
    rw [periBusyCountGet]
    constructor
    · intro zero
      have count_zero : tracked.info.periBusyCount = 0 := congrArg Int32.ofUInt32 zero
      rw [count_zero, Int32.toInt_zero] at counts
      omega
    · intro none_left
      rw [none_left] at counts
      have count_zero : tracked.info.periBusyCount = 0 := Int32.toInt_inj.mp counts
      rw [count_zero]
      rfl
  rw [mcuPowerSave, ← idle]
  by_cases quiet : periBusyCountGet tracked.info = 0
  · rw [if_pos ⟨power_on, quiet, unprevented⟩]
    exact iff_of_true long quiet
  · rw [if_neg fun guard => quiet guard.2.1]
    exact iff_of_false Bool.false_ne_true quiet

theorem counts_add (counts : Counts tracked) :
    Counts (mcuPs.step tracked .add).1 ↔ tracked.inFlight + 1 < 2 ^ 31 := by
  have upper := tracked.info.periBusyCount.toInt_lt
  simp only [Counts] at counts
  have counted : (tracked.info.periBusyCount + 1).toInt =
      Int.bmod (tracked.inFlight + 1) (2 ^ 32) := by
    rw [Int32.toInt_add, counts]
    rfl
  simp only [Counts, mcuPs, periBusyCountAdd, counted, Int.bmod_def]
  split <;> omega

theorem counts_dec (counts : Counts tracked) :
    Counts (mcuPs.step tracked .dec).1 ↔ 0 < tracked.inFlight := by
  have upper := tracked.info.periBusyCount.toInt_lt
  simp only [Counts] at counts
  have counted : (tracked.info.periBusyCount - 1).toInt =
      Int.bmod (tracked.inFlight - 1) (2 ^ 32) := by
    rw [Int32.toInt_sub, counts]
    rfl
  simp only [Counts, mcuPs, periBusyCountDec, counted, Int.bmod_def]
  split <;> omega

theorem counts_zero_iff {info : McuPsInfo} (zero : info.periBusyCount = 0) (inFlight : ℕ) :
    Counts ⟨info, inFlight⟩ ↔ inFlight = 0 := by
  simp only [Counts, zero, Int32.toInt_zero]
  omega

theorem counts_step (event : Event) (counts : Counts tracked) :
    Counts (mcuPs.step tracked event).1 ↔ Paired tracked event ∧ Quiet tracked event := by
  cases event with
  | add => simp [counts_add counts, Paired, Quiet]
  | dec => simp [counts_dec counts, Paired, Quiet]
  | init =>
      simp only [Paired, Quiet, mcuPs, mcuPsInit]
      split
      · rename_i off
        rw [counts_zero_iff rfl]
        simp [off]
      · rename_i already_on
        exact iff_of_true counts ⟨by simp, fun off => absurd off already_on⟩
  | exit =>
      simp only [Paired, Quiet, mcuPs, mcuPsExit]
      split
      · rename_i power_on
        rw [counts_zero_iff rfl]
        simp [power_on]
      · rename_i already_off
        exact iff_of_true counts ⟨by simp, fun power_on => absurd power_on already_off⟩
  | enable | disable | preventSet prevent | preventClear prevent =>
      exact iff_of_true counts ⟨by simp [Paired], trivial⟩

/-- In every run with paired operations the count is accurate throughout exactly if the power save
is never switched while an operation is under way and fewer than `2 ^ 31` operations ever are. -/
theorem peri_busy_count_accurate_iff (events : List Event)
    (paired : mcuPs.Always Paired .start events) :
    (∀ front, front <+: events → Accurate (mcuPs.run .start front)) ↔
      mcuPs.Always Quiet .start events := by
  have runs := mcuPs.forall_run_iff_always
    (fun tracked event => Paired tracked event ∧ Quiet tracked event) (fun _ => True) Counts
    (fun _ _ => trivial) (fun event _ counts => counts_step event counts) trivial
    (rfl : Counts .start) events
  rw [mcuPs.always_and] at runs
  constructor
  · intro accurate
    exact (runs.mp fun front initialPart => (accurate front initialPart).1).2
  · intro quiet front initialPart
    exact accurate_of_counts (runs.mpr ⟨paired, quiet⟩ front initialPart)

/-- An operation that starts and ends while the power save is on. -/
theorem peri_busy_count_accurate_within :
    Accurate (mcuPs.run .start [.init, .add, .dec, .exit]) := by
  have paired : mcuPs.Always Paired .start [.init, .add, .dec, .exit] := by
    simp [Machine.Always, Paired, mcuPs, Tracked.start]
  have quiet : mcuPs.Always Quiet .start [.init, .add, .dec, .exit] := by
    simp [Machine.Always, Quiet, mcuPs, Tracked.start]
  exact (peri_busy_count_accurate_iff _ paired).mpr quiet _ (List.prefix_refl _)

/-- An operation that is under way while the power save is switched on leaves the count below
zero. -/
theorem peri_busy_count_below_zero :
    mcuPs.Always Paired .start [.add, .init, .dec] ∧
      ¬Accurate (mcuPs.run .start [.add, .init]) ∧
      (mcuPs.run .start [.add, .init, .dec]).info.periBusyCount.toInt = -1 := by
  refine ⟨by simp [Machine.Always, Paired, mcuPs, Tracked.start], ?_, by decide⟩
  intro accurate
  exact absurd accurate.1 (by unfold Counts; decide)

end BdkFreertos.McuPs
