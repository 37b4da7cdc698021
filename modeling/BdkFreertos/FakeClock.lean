import BdkFreertos.Machine
import Mathlib.Algebra.Group.Nat.Defs
import Mathlib.Logic.Function.Iterate

/-!
# The tick clock and its calibration

`fake_clock.c` counts ticks of two milliseconds in `current_clock`, whole seconds in
`current_seconds`, and the ticks left of the running second in `second_countdown`.  A calibration
timer compares the tick count with its own period; ticks it finds missing are added at once, ticks
it finds too many become a debt in `increase_tick` which later tick interrupts pay off.
-/

namespace BdkFreertos.FakeClock

def fclkDurationMs : ℕ := 2

def fclkSecond : UInt32 := 500

def oneCalTime : UInt32 := 15000

/-- The counters of `fake_clock.c`, and the calibration counters of `mcu_ps.c`. -/
structure Clock where
  /-- Ticks since the count was last reset. -/
  currentClock : UInt64
  /-- Seconds since the count was last reset. -/
  currentSeconds : UInt32
  /-- Ticks left of the running second. -/
  secondCountdown : UInt32
  /-- `cal_tick_save.fclk_tick`, the millisecond clock when calibration started. -/
  fclkTick : UInt32
  /-- `cal_tick_save.tmp1`, milliseconds the calibration timer has counted. -/
  tmp1 : UInt32
  /-- Milliseconds the tick interrupts have to pay off, negated. -/
  increaseTick : ℤ
  /-- Tick interrupts so far, as `mcu_ps_need_pstick` counts them. -/
  needPass : UInt32

/-- The counters as the program starts. -/
def initial : Clock where
  currentClock := 0
  currentSeconds := 0
  secondCountdown := fclkSecond
  fclkTick := 0
  tmp1 := 0
  increaseTick := 0
  needPass := 0

def int32 (word : UInt32) : ℤ :=
  if word.toNat < 0x80000000 then word.toNat else word.toNat - 0x100000000

/-- Pay off the debt from a positive number of milliseconds; the result carries what is left of
them. -/
def mcuPsCalIncreaseTick (clock : Clock) (lost : ℤ) : Clock × ℤ :=
  if lost ≤ 0 ∨ clock.increaseTick = 0 then
    (clock, lost)
  else
    let lost := lost + clock.increaseTick
    if lost < 0 then
      ({ clock with increaseTick := lost }, 0)
    else
      ({ clock with increaseTick := 0 }, lost)

/-- Whether a tick interrupt counts: every fifth one pays off the debt first. -/
def mcuPsNeedPstick (clock : Clock) : Clock × ℤ :=
  let counted := { clock with needPass := clock.needPass + 1 }
  if clock.needPass % 5 = 0 then
    mcuPsCalIncreaseTick counted fclkDurationMs
  else
    (counted, fclkDurationMs)

def mcuPsIncreaseClr (clock : Clock) : Clock :=
  { clock with increaseTick := 0 }

/-- Count one tick. -/
def countTick (clock : Clock) : Clock :=
  if clock.secondCountdown - 1 = 0 then
    { clock with
      currentClock := clock.currentClock + 1
      currentSeconds := clock.currentSeconds + 1
      secondCountdown := fclkSecond }
  else
    { clock with
      currentClock := clock.currentClock + 1
      secondCountdown := clock.secondCountdown - 1 }

/-- The tick interrupt. -/
def fclkHdl (clock : Clock) : Clock :=
  let (clock, needed) := mcuPsNeedPstick clock
  if needed = 0 then clock else countTick clock

/-- The loop that takes whole seconds out of a number of ticks. -/
def wholeSeconds (seconds tick : UInt32) : UInt32 × UInt32 :=
  if fclkSecond ≤ tick then wholeSeconds (seconds + 1) (tick - fclkSecond) else (seconds, tick)
termination_by tick.toNat
decreasing_by
  rename_i enough
  have second : fclkSecond.toNat = 500 := rfl
  have enough_toNat := UInt32.le_iff_toNat_le.mp enough
  rw [UInt32.toNat_sub_of_le _ _ enough]
  omega

/-- Add a number of ticks to the counters. -/
def fclkFreertosUpdateTick (clock : Clock) (tick : UInt32) : Clock :=
  let (seconds, rest) := wholeSeconds clock.currentSeconds tick
  if clock.secondCountdown ≤ rest then
    { clock with
      currentClock := clock.currentClock + tick.toUInt64
      currentSeconds := seconds + 1
      secondCountdown := fclkSecond - (rest - clock.secondCountdown) }
  else
    { clock with
      currentClock := clock.currentClock + tick.toUInt64
      currentSeconds := seconds
      secondCountdown := clock.secondCountdown - rest }

/-- Add a number of ticks, unless it is zero, and forget the debt. -/
def fclkUpdateTick (clock : Clock) (tick : UInt32) : Clock :=
  if tick = 0 then clock else fclkFreertosUpdateTick (mcuPsIncreaseClr clock) tick

def fclkGetTick (clock : Clock) : UInt64 :=
  clock.currentClock.toUInt32.toUInt64

def fclkMs (clock : Clock) : UInt32 :=
  (fclkGetTick clock * UInt64.ofNat fclkDurationMs).toUInt32

def fclkResetCount (clock : Clock) : Clock :=
  { clock with currentClock := 0, currentSeconds := 0 }

def timerCalInit (clock : Clock) : Clock :=
  { clock with fclkTick := fclkMs clock, tmp1 := 0 }

/-- The calibration interrupt. -/
def timerCalTick (clock : Clock) : Clock :=
  let fclk := fclkMs clock
  let clock := { clock with tmp1 := clock.tmp1 + oneCalTime }
  let lost := int32 (clock.tmp1 - fclk)
  if 2 * fclkDurationMs ≤ lost then
    let lost := lost - fclkDurationMs
    mcuPsIncreaseClr (fclkUpdateTick clock (UInt32.ofNat (lost / fclkDurationMs).toNat))
  else if lost ≤ -(2 * fclkDurationMs) then
    { clock with increaseTick := lost + fclkDurationMs }
  else
    clock

/-- What happens to the clock. -/
inductive Event
  | hdl
  | updateTick (tick : UInt32)
  | resetCount
  | calInit
  | calTick

/-- The clock driven by its events. -/
def fakeClock : Machine Clock Event Unit where
  step clock
    | .hdl => (fclkHdl clock, ())
    | .updateTick tick => (fclkUpdateTick clock tick, ())
    | .resetCount => (fclkResetCount clock, ())
    | .calInit => (timerCalInit clock, ())
    | .calTick => (timerCalTick clock, ())

/-! ## The phase of the second -/

/-- The countdown runs from a whole second down to one tick. -/
def CountdownInRange (clock : Clock) : Prop :=
  1 ≤ clock.secondCountdown ∧ clock.secondCountdown ≤ fclkSecond

/-- The tick count is the whole seconds and the part of the running one, modulo `2 ^ 32`. -/
def InPhase (clock : Clock) : Prop :=
  clock.currentClock.toNat % 2 ^ 32 =
    (fclkSecond.toNat * clock.currentSeconds.toNat +
      (fclkSecond.toNat - clock.secondCountdown.toNat)) % 2 ^ 32

variable {clock left right : Clock} (event : Event) (word : UInt32)

theorem countdownInRange_iff :
    CountdownInRange clock ↔
      1 ≤ clock.secondCountdown.toNat ∧ clock.secondCountdown.toNat ≤ 500 := by
  simp only [CountdownInRange, UInt32.le_iff_toNat_le]
  exact Iff.rfl

theorem CountdownInRange.congr (range : CountdownInRange left)
    (countdown_eq : right.secondCountdown = left.secondCountdown) : CountdownInRange right := by
  rw [CountdownInRange, countdown_eq]
  exact range

theorem inPhase_congr (clock_eq : left.currentClock = right.currentClock)
    (seconds_eq : left.currentSeconds = right.currentSeconds)
    (countdown_eq : left.secondCountdown = right.secondCountdown) :
    InPhase left ↔ InPhase right := by
  rw [InPhase, InPhase, clock_eq, seconds_eq, countdown_eq]

theorem toNat_wholeSeconds (seconds tick : UInt32) :
    (wholeSeconds seconds tick).1.toNat = (seconds.toNat + tick.toNat / 500) % 2 ^ 32 ∧
      (wholeSeconds seconds tick).2.toNat = tick.toNat % 500 := by
  have second : fclkSecond.toNat = 500 := rfl
  induction seconds, tick using wholeSeconds.induct with
  | case1 seconds tick enough induction =>
      have enough_toNat := UInt32.le_iff_toNat_le.mp enough
      rw [wholeSeconds, if_pos enough]
      rw [UInt32.toNat_sub_of_le _ _ enough, UInt32.toNat_add, second] at induction
      have one : (1 : UInt32).toNat = 1 := rfl
      omega
  | case2 seconds tick short =>
      rw [wholeSeconds, if_neg short]
      have short_toNat := UInt32.lt_iff_toNat_lt.mp (UInt32.not_le.mp short)
      have bound := seconds.toNat_lt
      dsimp only
      omega

section Counting

variable {clock after : Clock} {ticks : ℕ}

def elapsed (clock : Clock) : ℕ :=
  fclkSecond.toNat - clock.secondCountdown.toNat

/-- The counters of a clock some ticks later. -/
structure Later (clock after : Clock) (ticks : ℕ) : Prop where
  currentClock : after.currentClock.toNat = (clock.currentClock.toNat + ticks) % 2 ^ 64
  currentSeconds : after.currentSeconds.toNat =
    (clock.currentSeconds.toNat + (elapsed clock + ticks) / fclkSecond.toNat) % 2 ^ 32
  secondCountdown : after.secondCountdown.toNat =
    fclkSecond.toNat - (elapsed clock + ticks) % fclkSecond.toNat

theorem Later.refl (range : CountdownInRange clock) : Later clock clock 0 := by
  rw [countdownInRange_iff] at range
  have second : fclkSecond.toNat = 500 := rfl
  have clock_lt := clock.currentClock.toNat_lt
  have seconds_lt := clock.currentSeconds.toNat_lt
  constructor
  · omega
  · rw [elapsed, second]
    omega
  · rw [elapsed, second]
    omega

theorem Later.countTick (later : Later clock after ticks) :
    Later clock (FakeClock.countTick after) (ticks + 1) := by
  obtain ⟨clock_eq, seconds_eq, countdown_eq⟩ := later
  have second : fclkSecond.toNat = 500 := rfl
  rw [second] at seconds_eq countdown_eq
  have one : (1 : UInt32).toNat = 1 := rfl
  have less : (after.secondCountdown - 1).toNat = after.secondCountdown.toNat - 1 :=
    UInt32.toNat_sub_of_le _ _ (UInt32.le_iff_toNat_le.mpr (by omega))
  have clock_one : (after.currentClock + 1).toNat = (after.currentClock.toNat + 1) % 2 ^ 64 := rfl
  have seconds_one :
      (after.currentSeconds + 1).toNat = (after.currentSeconds.toNat + 1) % 2 ^ 32 := rfl
  rw [FakeClock.countTick]
  split
  · rename_i last
    have last_toNat := congrArg UInt32.toNat last
    rw [less, UInt32.toNat_zero] at last_toNat
    constructor
    · rw [clock_one]
      omega
    · rw [seconds_one, second]
      omega
    · rw [second]
      omega
  · rename_i running
    have positive : (after.secondCountdown - 1).toNat ≠ 0 := by
      intro none_left
      exact running (UInt32.toNat_inj.mp none_left)
    rw [less] at positive
    constructor
    · rw [clock_one]
      omega
    · rw [second]
      dsimp only
      omega
    · rw [less, second]
      omega

theorem later_fclkFreertosUpdateTick (range : CountdownInRange clock) (tick : UInt32) :
    Later clock (fclkFreertosUpdateTick clock tick) tick.toNat := by
  rw [countdownInRange_iff] at range
  have second : fclkSecond.toNat = 500 := rfl
  have one : (1 : UInt32).toNat = 1 := rfl
  obtain ⟨seconds_eq, rest_eq⟩ := toNat_wholeSeconds clock.currentSeconds tick
  have clock_eq : (clock.currentClock + tick.toUInt64).toNat =
      (clock.currentClock.toNat + tick.toNat) % 2 ^ 64 := by
    rw [UInt64.toNat_add, UInt32.toNat_toUInt64]
  rw [fclkFreertosUpdateTick]
  dsimp only
  split
  · rename_i passes
    have passes_toNat := UInt32.le_iff_toNat_le.mp passes
    have passed := UInt32.toNat_sub_of_le _ _ passes
    have left : (fclkSecond -
        ((wholeSeconds clock.currentSeconds tick).2 - clock.secondCountdown)).toNat =
          500 - (tick.toNat % 500 - clock.secondCountdown.toNat) := by
      rw [UInt32.toNat_sub_of_le _ _ (UInt32.le_iff_toNat_le.mpr (by omega)), passed, rest_eq]
      rfl
    constructor
    · exact clock_eq
    · rw [UInt32.toNat_add, seconds_eq, one, elapsed, second]
      omega
    · rw [left, elapsed, second]
      omega
  · rename_i stays
    have stays_toNat := UInt32.lt_iff_toNat_lt.mp (UInt32.not_le.mp stays)
    have left := UInt32.toNat_sub_of_le _ _ (UInt32.le_of_lt (UInt32.not_le.mp stays))
    constructor
    · exact clock_eq
    · rw [seconds_eq, elapsed, second]
      omega
    · rw [left, rest_eq, elapsed, second]
      omega

theorem Later.keeps (later : Later clock after ticks) :
    CountdownInRange after ∧ (InPhase after ↔ InPhase clock) := by
  obtain ⟨clock_eq, seconds_eq, countdown_eq⟩ := later
  have second : fclkSecond.toNat = 500 := rfl
  rw [elapsed, second] at seconds_eq countdown_eq
  rw [countdownInRange_iff]
  simp only [InPhase, second, clock_eq, seconds_eq, countdown_eq]
  omega

section

variable (range : CountdownInRange clock)
include range

theorem countTick_keeps :
    CountdownInRange (countTick clock) ∧ (InPhase (countTick clock) ↔ InPhase clock) :=
  (Later.refl range).countTick.keeps

theorem fclkFreertosUpdateTick_keeps (tick : UInt32) :
    CountdownInRange (fclkFreertosUpdateTick clock tick) ∧
      (InPhase (fclkFreertosUpdateTick clock tick) ↔ InPhase clock) :=
  (later_fclkFreertosUpdateTick range tick).keeps

theorem fclkUpdateTick_keeps (tick : UInt32) :
    CountdownInRange (fclkUpdateTick clock tick) ∧
      (InPhase (fclkUpdateTick clock tick) ↔ InPhase clock) := by
  rw [fclkUpdateTick]
  split
  · exact ⟨range, Iff.rfl⟩
  · have cleared : CountdownInRange (mcuPsIncreaseClr clock) :=
      range.congr rfl
    obtain ⟨kept, phase⟩ := fclkFreertosUpdateTick_keeps cleared tick
    exact ⟨kept, phase.trans (inPhase_congr rfl rfl rfl)⟩

end

theorem mcuPsNeedPstick_fst (clock : Clock) :
    ∃ debt, (mcuPsNeedPstick clock).1 =
      { clock with needPass := clock.needPass + 1, increaseTick := debt } := by
  rw [mcuPsNeedPstick]
  split
  · rw [mcuPsCalIncreaseTick]
    split
    · exact ⟨clock.increaseTick, rfl⟩
    · dsimp only
      split
      · exact ⟨_, rfl⟩
      · exact ⟨_, rfl⟩
  · exact ⟨clock.increaseTick, rfl⟩

theorem fclkHdl_eq (clock : Clock) :
    fclkHdl clock =
      if (mcuPsNeedPstick clock).2 = 0 then (mcuPsNeedPstick clock).1
      else countTick (mcuPsNeedPstick clock).1 := rfl

theorem fclkHdl_keeps (range : CountdownInRange clock) :
    CountdownInRange (fclkHdl clock) ∧ (InPhase (fclkHdl clock) ↔ InPhase clock) := by
  obtain ⟨debt, asked⟩ := mcuPsNeedPstick_fst clock
  rw [fclkHdl_eq, asked]
  split
  · exact ⟨range.congr rfl, inPhase_congr rfl rfl rfl⟩
  · have same : CountdownInRange
        { clock with needPass := clock.needPass + 1, increaseTick := debt } :=
      range.congr rfl
    obtain ⟨kept, phase⟩ := countTick_keeps same
    exact ⟨kept, phase.trans (inPhase_congr rfl rfl rfl)⟩

/-- What a calibration interrupt does about the milliseconds it finds missing. -/
def calibrated (clock : Clock) (lost : ℤ) : Clock :=
  if 2 * fclkDurationMs ≤ lost then
    mcuPsIncreaseClr
      (fclkUpdateTick clock (UInt32.ofNat ((lost - fclkDurationMs) / fclkDurationMs).toNat))
  else if lost ≤ -(2 * fclkDurationMs) then
    { clock with increaseTick := lost + fclkDurationMs }
  else
    clock

theorem timerCalTick_eq (clock : Clock) :
    timerCalTick clock =
      calibrated { clock with tmp1 := clock.tmp1 + oneCalTime }
        (int32 (clock.tmp1 + oneCalTime - fclkMs clock)) := rfl

section

variable (range : CountdownInRange clock)
include range

theorem calibrated_keeps (lost : ℤ) :
    CountdownInRange (calibrated clock lost) ∧ (InPhase (calibrated clock lost) ↔ InPhase clock) := by
  rw [calibrated]
  split
  · obtain ⟨kept, phase⟩ := fclkUpdateTick_keeps range
      (UInt32.ofNat ((lost - fclkDurationMs) / fclkDurationMs).toNat)
    exact ⟨kept.congr rfl, (inPhase_congr rfl rfl rfl).trans phase⟩
  · split
    · exact ⟨range.congr rfl, inPhase_congr rfl rfl rfl⟩
    · exact ⟨range, Iff.rfl⟩

theorem timerCalTick_keeps :
    CountdownInRange (timerCalTick clock) ∧ (InPhase (timerCalTick clock) ↔ InPhase clock) := by
  have same : CountdownInRange { clock with tmp1 := clock.tmp1 + oneCalTime } := range.congr rfl
  obtain ⟨kept, phase⟩ :=
    calibrated_keeps same (int32 (clock.tmp1 + oneCalTime - fclkMs clock))
  rw [timerCalTick_eq]
  exact ⟨kept, phase.trans (inPhase_congr rfl rfl rfl)⟩

theorem fclkResetCount_inPhase :
    InPhase (fclkResetCount clock) ↔ clock.secondCountdown = fclkSecond := by
  rw [countdownInRange_iff] at range
  have second : fclkSecond.toNat = 500 := rfl
  rw [← UInt32.toNat_inj]
  simp only [InPhase, fclkResetCount, second, UInt32.toNat_zero, UInt64.toNat_zero]
  omega

end

end Counting

def ResetsOnSecond (clock : Clock) (event : Event) : Prop :=
  event = .resetCount → clock.secondCountdown = fclkSecond

/-- The countdown is in range and the counters are in phase. -/
def Consistent (clock : Clock) : Prop :=
  CountdownInRange clock ∧ InPhase clock

theorem countdownInRange_step (range : CountdownInRange clock) :
    CountdownInRange (fakeClock.step clock event).1 := by
  cases event with
  | hdl => exact (fclkHdl_keeps range).1
  | updateTick tick => exact (fclkUpdateTick_keeps range tick).1
  | resetCount | calInit => exact range.congr rfl
  | calTick =>
      obtain ⟨kept, -⟩ := timerCalTick_keeps range
      simpa only [fakeClock] using kept

theorem inPhase_step (range : CountdownInRange clock) (phase : InPhase clock) :
    InPhase (fakeClock.step clock event).1 ↔ ResetsOnSecond clock event := by
  cases event with
  | hdl => simp [fakeClock, ResetsOnSecond, (fclkHdl_keeps range).2, phase]
  | updateTick tick => simp [fakeClock, ResetsOnSecond, (fclkUpdateTick_keeps range tick).2, phase]
  | resetCount => simp [fakeClock, ResetsOnSecond, fclkResetCount_inPhase range]
  | calInit =>
      have kept : InPhase (timerCalInit clock) := (inPhase_congr rfl rfl rfl).mpr phase
      simp [fakeClock, ResetsOnSecond, kept]
  | calTick => simp [fakeClock, ResetsOnSecond, (timerCalTick_keeps range).2, phase]

/-- From initialisation, the counters are consistent in every state of a run exactly if every reset
of the run comes at the start of a second. -/
theorem clock_consistent_iff (events : List Event) :
    (∀ front, front <+: events → Consistent (fakeClock.run initial front)) ↔
      fakeClock.Always ResetsOnSecond initial events := by
  have initial_range : CountdownInRange initial := by
    rw [countdownInRange_iff]
    decide
  have always_in_range : ∀ front, CountdownInRange (fakeClock.run initial front) :=
    fakeClock.run_invariant_of_step CountdownInRange initial_range countdownInRange_step
  rw [← fakeClock.forall_run_iff_always ResetsOnSecond CountdownInRange InPhase
    countdownInRange_step inPhase_step initial_range rfl events]
  constructor
  · intro consistent front initialPart
    exact (consistent front initialPart).2
  · intro phase front initialPart
    exact ⟨always_in_range front, phase front initialPart⟩

/-- One tick into the second a reset leaves the countdown behind. -/
theorem clock_inconsistent_after_reset :
    ¬Consistent (fakeClock.run initial [.hdl, .resetCount]) := by
  intro consistent
  exact absurd consistent.2 (by unfold InPhase; decide)

/-! ## Calibration on an exact clock -/

/-- A calibration interrupt that leaves the tick count and the debt as they are. -/
def Neutral (clock : Clock) : Prop :=
  (timerCalTick clock).currentClock = clock.currentClock ∧
    (timerCalTick clock).increaseTick = clock.increaseTick

def ticksPerCal : ℕ := 7500

/-- The state in which a calibration interrupt comes: calibration has been started, and every
period before has brought its tick interrupts. -/
def beforeCal (clock : Clock) : ℕ → Clock
  | 0 => fclkHdl^[ticksPerCal] (timerCalInit clock)
  | calls + 1 => fclkHdl^[ticksPerCal] (timerCalTick (beforeCal clock calls))

/-- The tick count a calibration interrupt finds when no tick of the periods before is missing. -/
def exactClock (clock : Clock) (calls : ℕ) : UInt64 :=
  clock.currentClock + UInt64.ofNat (ticksPerCal * (calls + 1))

theorem duration_ne_zero : ¬(fclkDurationMs : ℤ) = 0 := by decide

/-- What one tick interrupt does to the counters that calibration reads: the tick counts or it does
not, and at a check a counted tick leaves no debt. -/
theorem fclkHdl_cases (clock : Clock) :
    (fclkHdl clock).tmp1 = clock.tmp1 ∧ (fclkHdl clock).needPass = clock.needPass + 1 ∧
      (clock.increaseTick = 0 → (fclkHdl clock).increaseTick = 0) ∧
      ((fclkHdl clock).currentClock = clock.currentClock + 1 ∧
          (clock.needPass % 5 = 0 → (fclkHdl clock).increaseTick = 0) ∨
        (fclkHdl clock).currentClock = clock.currentClock ∧ clock.increaseTick ≠ 0) := by
  have counted : ∀ other, (countTick other).tmp1 = other.tmp1 ∧
      (countTick other).needPass = other.needPass ∧
      (countTick other).increaseTick = other.increaseTick ∧
      (countTick other).currentClock = other.currentClock + 1 := by
    intro other
    rw [countTick]
    split <;> exact ⟨rfl, rfl, rfl, rfl⟩
  rw [fclkHdl_eq, mcuPsNeedPstick]
  by_cases check : clock.needPass % 5 = 0
  · rw [if_pos check, mcuPsCalIncreaseTick]
    by_cases settled : clock.increaseTick = 0
    · rw [if_pos (Or.inr settled), if_neg duration_ne_zero]
      obtain ⟨tmp1_eq, pass_eq, debt_eq, clock_eq⟩ :=
        counted { clock with needPass := clock.needPass + 1 }
      exact ⟨tmp1_eq, pass_eq, fun _ => debt_eq.trans settled,
        Or.inl ⟨clock_eq, fun _ => debt_eq.trans settled⟩⟩
    · have unpaid : ¬((fclkDurationMs : ℤ) ≤ 0 ∨ clock.increaseTick = 0) := by
        rintro (negative | nothing)
        · exact absurd negative (by decide)
        · exact settled nothing
      rw [if_neg unpaid]
      dsimp only
      by_cases short : (fclkDurationMs : ℤ) + clock.increaseTick < 0
      · rw [if_pos short, if_pos rfl]
        exact ⟨rfl, rfl, fun nothing => absurd nothing settled, Or.inr ⟨rfl, settled⟩⟩
      · rw [if_neg short]
        by_cases swallowed : (fclkDurationMs : ℤ) + clock.increaseTick = 0
        · rw [if_pos swallowed]
          exact ⟨rfl, rfl, fun _ => rfl, Or.inr ⟨rfl, settled⟩⟩
        · rw [if_neg swallowed]
          obtain ⟨tmp1_eq, pass_eq, debt_eq, clock_eq⟩ :=
            counted { clock with needPass := clock.needPass + 1, increaseTick := 0 }
          exact ⟨tmp1_eq, pass_eq, fun _ => debt_eq, Or.inl ⟨clock_eq, fun _ => debt_eq⟩⟩
  · rw [if_neg check, if_neg duration_ne_zero]
    obtain ⟨tmp1_eq, pass_eq, debt_eq, clock_eq⟩ :=
      counted { clock with needPass := clock.needPass + 1 }
    exact ⟨tmp1_eq, pass_eq, fun nothing => debt_eq.trans nothing,
      Or.inl ⟨clock_eq, fun pays => absurd pays check⟩⟩

/-- Ticks counted by a number of tick interrupts. -/
def countedTicks (clock : Clock) : ℕ → ℕ
  | 0 => 0
  | count + 1 =>
      (if (fclkHdl clock).currentClock = clock.currentClock then 0 else 1) +
        countedTicks (fclkHdl clock) count

theorem tmp1_iterate_fclkHdl (clock : Clock) (count : ℕ) :
    (fclkHdl^[count] clock).tmp1 = clock.tmp1 := by
  induction count generalizing clock with
  | zero => rfl
  | succ count induction =>
      rw [Function.iterate_succ_apply, induction, (fclkHdl_cases clock).1]

theorem ne_add_one (clock : UInt64) : clock + 1 ≠ clock := by
  intro same
  have toNat_same := congrArg UInt64.toNat same
  have next : (clock + 1).toNat = (clock.toNat + 1) % 2 ^ 64 := rfl
  have bound := clock.toNat_lt
  omega

theorem currentClock_iterate_fclkHdl (clock : Clock) (count : ℕ) :
    (fclkHdl^[count] clock).currentClock =
        clock.currentClock + UInt64.ofNat (countedTicks clock count) ∧
      countedTicks clock count ≤ count := by
  induction count generalizing clock with
  | zero => exact ⟨(UInt64.add_zero _).symm, Nat.le_refl 0⟩
  | succ count induction =>
      obtain ⟨clock_eq, at_most⟩ := induction (fclkHdl clock)
      rw [Function.iterate_succ_apply, clock_eq, countedTicks]
      obtain ⟨-, -, -, ⟨counts, -⟩ | ⟨stays, -⟩⟩ := fclkHdl_cases clock
      · rw [if_neg (by rw [counts]; exact ne_add_one _), counts, UInt64.ofNat_add,
          ← UInt64.add_assoc]
        exact ⟨rfl, by omega⟩
      · rw [if_pos stays, stays, Nat.zero_add]
        exact ⟨rfl, by omega⟩

theorem iterate_fclkHdl_of_settled (settled : clock.increaseTick = 0) (count : ℕ) :
    (fclkHdl^[count] clock).increaseTick = 0 ∧ countedTicks clock count = count := by
  induction count generalizing clock with
  | zero => exact ⟨settled, rfl⟩
  | succ count induction =>
      obtain ⟨-, -, stays_settled, ⟨counts, -⟩ | ⟨-, unsettled⟩⟩ := fclkHdl_cases clock
      · obtain ⟨settled_later, all⟩ := induction (stays_settled settled)
        refine ⟨settled_later, ?_⟩
        rw [countedTicks, if_neg (by rw [counts]; exact ne_add_one _), all, Nat.add_comm]
      · exact absurd settled unsettled

theorem increaseTick_of_all_counted (clock : Clock) (count : ℕ)
    (all : countedTicks clock count = count) :
    (fclkHdl^[count] clock).increaseTick = 0 ∨
      ∀ index < count, (clock.needPass.toNat + index) % 2 ^ 32 % 5 ≠ 0 := by
  induction count generalizing clock with
  | zero => exact Or.inr fun index inside => absurd inside (Nat.not_lt_zero index)
  | succ count induction =>
      have later := (currentClock_iterate_fclkHdl (fclkHdl clock) count).2
      rw [countedTicks] at all
      obtain ⟨-, pass_eq, -, ⟨counts, checked⟩ | ⟨stays, -⟩⟩ := fclkHdl_cases clock
      · rw [if_neg (by rw [counts]; exact ne_add_one _)] at all
        by_cases check : clock.needPass % 5 = 0
        · exact Or.inl (iterate_fclkHdl_of_settled (checked check) count).1
        · have first : clock.needPass.toNat % 5 ≠ 0 := by
            intro divides
            apply check
            apply UInt32.toNat_inj.mp
            rw [UInt32.toNat_mod]
            exact divides
          rcases induction (fclkHdl clock) (by omega) with settled | unmet
          · exact Or.inl settled
          · refine Or.inr fun index inside => ?_
            have pass_toNat : (fclkHdl clock).needPass.toNat =
                (clock.needPass.toNat + 1) % 2 ^ 32 := by
              rw [pass_eq]
              rfl
            have bound := clock.needPass.toNat_lt
            rcases index with _ | index
            · rw [Nat.add_zero, Nat.mod_eq_of_lt bound]
              exact first
            · have next := unmet index (by omega)
              rw [pass_toNat, Nat.mod_add_mod, Nat.add_assoc, Nat.add_comm 1] at next
              exact next
      · rw [if_pos stays] at all
        omega

theorem increaseTick_of_exact (exact : (fclkHdl^[ticksPerCal] clock).currentClock =
      clock.currentClock + UInt64.ofNat ticksPerCal) :
    (fclkHdl^[ticksPerCal] clock).increaseTick = 0 := by
  have all : countedTicks clock ticksPerCal = ticksPerCal := by
    obtain ⟨clock_eq, at_most⟩ := currentClock_iterate_fclkHdl clock ticksPerCal
    rw [clock_eq] at exact
    have same := congrArg UInt64.toNat ((UInt64.add_right_inj _).mp exact)
    have small : ticksPerCal < 2 ^ 64 := by decide
    rw [UInt64.toNat_ofNat', UInt64.toNat_ofNat', Nat.mod_eq_of_lt (by omega),
      Nat.mod_eq_of_lt small] at same
    exact same
  rcases increaseTick_of_all_counted clock ticksPerCal all with settled | unmet
  · exact settled
  · have many : 6 ≤ ticksPerCal := by decide
    have bound := clock.needPass.toNat_lt
    -- the next multiple of five is a check, and so is zero after a wrap
    rcases Nat.lt_or_ge (clock.needPass.toNat + 5) (2 ^ 32) with straight | wraps
    · have check := unmet ((5 - clock.needPass.toNat % 5) % 5) (by omega)
      have inside : clock.needPass.toNat + (5 - clock.needPass.toNat % 5) % 5 < 2 ^ 32 := by omega
      rw [Nat.mod_eq_of_lt inside] at check
      omega
    · have check := unmet (2 ^ 32 - clock.needPass.toNat) (by omega)
      rw [Nat.add_sub_cancel' (Nat.le_of_lt bound), Nat.mod_self] at check
      exact absurd rfl check

theorem fclkUpdateTick_fields (clock : Clock) (tick : UInt32) :
    (fclkUpdateTick clock tick).tmp1 = clock.tmp1 ∧
      (fclkUpdateTick clock tick).currentClock = clock.currentClock + tick.toUInt64 := by
  rw [fclkUpdateTick]
  split
  · rename_i nothing
    rw [nothing]
    exact ⟨rfl, (UInt64.add_zero _).symm⟩
  · rw [fclkFreertosUpdateTick]
    dsimp only
    split
    · exact ⟨rfl, rfl⟩
    · exact ⟨rfl, rfl⟩

theorem tmp1_calibrated (clock : Clock) (lost : ℤ) : (calibrated clock lost).tmp1 = clock.tmp1 := by
  rw [calibrated]
  split
  · exact (fclkUpdateTick_fields _ _).1
  · split
    · rfl
    · rfl

theorem tmp1_timerCalTick (clock : Clock) :
    (timerCalTick clock).tmp1 = clock.tmp1 + oneCalTime := by
  rw [timerCalTick_eq, tmp1_calibrated]

theorem toNat_fclkMs (clock : Clock) :
    (fclkMs clock).toNat = 2 * clock.currentClock.toNat % 2 ^ 32 := by
  rw [fclkMs, fclkGetTick, UInt64.toNat_toUInt32, UInt64.toNat_mul, UInt32.toNat_toUInt64,
    UInt64.toNat_toUInt32]
  have duration : (UInt64.ofNat fclkDurationMs).toNat = 2 := rfl
  rw [duration]
  omega

theorem tmp1_beforeCal (clock : Clock) (calls : ℕ) :
    (beforeCal clock calls).tmp1.toNat = 15000 * calls % 2 ^ 32 := by
  induction calls with
  | zero => rw [beforeCal, tmp1_iterate_fclkHdl]; rfl
  | succ calls induction =>
      rw [beforeCal, tmp1_iterate_fclkHdl, tmp1_timerCalTick, UInt32.toNat_add, induction]
      have period : oneCalTime.toNat = 15000 := rfl
      omega

/-- The milliseconds a calibration interrupt finds missing on an exact clock: what the clock had
counted before calibration started, negated. -/
theorem lost_of_exact {calls : ℕ}
    (exact : (beforeCal clock calls).currentClock = exactClock clock calls) :
    (beforeCal clock calls).tmp1 + oneCalTime - fclkMs (beforeCal clock calls) =
      0 - fclkMs clock := by
  have period : oneCalTime.toNat = 15000 := rfl
  have counted := tmp1_beforeCal clock calls
  have before := toNat_fclkMs (beforeCal clock calls)
  have start := toNat_fclkMs clock
  rw [exact, exactClock, UInt64.toNat_add, UInt64.toNat_ofNat'] at before
  have ticks : ticksPerCal = 7500 := rfl
  rw [ticks] at before
  apply UInt32.toNat_inj.mp
  rw [UInt32.toNat_sub, UInt32.toNat_sub, UInt32.toNat_add, counted, before, start, period,
    UInt32.toNat_zero]
  omega

theorem int32_lt : int32 word < 0x80000000 := by
  have bound := word.toNat_lt
  rw [int32]
  split <;> omega

theorem currentClock_fclkUpdateTick_ne (clock : Clock) {ticks : ℕ} (some_ticks : ticks ≠ 0)
    (few_ticks : ticks < 2 ^ 32) :
    (fclkUpdateTick clock (UInt32.ofNat ticks)).currentClock ≠ clock.currentClock := by
  have ticks_toNat : (UInt32.ofNat ticks).toNat = ticks := UInt32.toNat_ofNat_of_lt' few_ticks
  rw [(fclkUpdateTick_fields clock _).2]
  intro same
  have same_toNat := congrArg UInt64.toNat same
  rw [UInt64.toNat_add, UInt32.toNat_toUInt64, ticks_toNat] at same_toNat
  have bound := clock.currentClock.toNat_lt
  omega

theorem calibrated_neutral_iff {clock : Clock} (settled : clock.increaseTick = 0) {lost : ℤ}
    (upper : lost < 0x80000000) :
    (calibrated clock lost).currentClock = clock.currentClock ∧
        (calibrated clock lost).increaseTick = clock.increaseTick ↔
      -4 < lost ∧ lost < 4 := by
  have duration : (fclkDurationMs : ℤ) = 2 := rfl
  rw [calibrated, duration]
  by_cases behind : 2 * 2 ≤ lost
  · rw [if_pos behind]
    constructor
    · rintro ⟨same, -⟩
      have some_ticks : ((lost - 2) / 2).toNat ≠ 0 := by omega
      have few_ticks : ((lost - 2) / 2).toNat < 2 ^ 32 := by omega
      exact absurd same (currentClock_fclkUpdateTick_ne _ some_ticks few_ticks)
    · rintro ⟨-, small⟩
      omega
  · rw [if_neg behind]
    by_cases ahead : lost ≤ -(2 * 2)
    · rw [if_pos ahead]
      constructor
      · rintro ⟨-, same⟩
        dsimp only at same
        omega
      · rintro ⟨large, -⟩
        omega
    · rw [if_neg ahead]
      constructor
      · intro
        omega
      · intro
        exact ⟨rfl, rfl⟩

theorem neutral_iff (settled : clock.increaseTick = 0) :
    Neutral clock ↔
      -4 < int32 (clock.tmp1 + oneCalTime - fclkMs clock) ∧
        int32 (clock.tmp1 + oneCalTime - fclkMs clock) < 4 := by
  rw [Neutral, timerCalTick_eq]
  exact @calibrated_neutral_iff { clock with tmp1 := clock.tmp1 + oneCalTime } settled _
    (int32_lt _)

theorem int32_neg :
    -4 < int32 (0 - word) ∧ int32 (0 - word) < 4 ↔ -4 < int32 word ∧ int32 word < 4 := by
  have bound := word.toNat_lt
  have negated : (0 - word).toNat = (2 ^ 32 - word.toNat) % 2 ^ 32 := by
    rw [UInt32.toNat_sub, UInt32.toNat_zero, Nat.add_zero]
  simp only [int32, negated]
  split <;> split <;> omega

/-- Calibration starts with the millisecond clock within a tick of zero. -/
def StartsAtZero (clock : Clock) : Prop :=
  -(2 * fclkDurationMs) < int32 (fclkMs clock) ∧ int32 (fclkMs clock) < 2 * fclkDurationMs

theorem exactClock_succ (clock : Clock) (calls : ℕ) :
    exactClock clock (calls + 1) = exactClock clock calls + UInt64.ofNat ticksPerCal := by
  rw [exactClock, exactClock, Nat.mul_succ ticksPerCal (calls + 1), UInt64.ofNat_add,
    UInt64.add_assoc]

theorem settled_zero (exact : (beforeCal clock 0).currentClock = exactClock clock 0) :
    (beforeCal clock 0).increaseTick = 0 := by
  apply increaseTick_of_exact
  rw [exactClock, Nat.zero_add, Nat.mul_one] at exact
  exact exact

section

variable {calls : ℕ} (exact : (beforeCal clock calls).currentClock = exactClock clock calls)
include exact

theorem settled_succ
    (exact_next : (beforeCal clock (calls + 1)).currentClock = exactClock clock (calls + 1))
    (neutral : Neutral (beforeCal clock calls)) :
    (beforeCal clock (calls + 1)).increaseTick = 0 := by
  apply increaseTick_of_exact
  rw [neutral.1, exact, ← exactClock_succ]
  exact exact_next

/-- What decides an interrupt on an exact clock is the millisecond clock calibration started
with. -/
theorem neutral_beforeCal_iff (settled : (beforeCal clock calls).increaseTick = 0) :
    Neutral (beforeCal clock calls) ↔ StartsAtZero clock := by
  rw [neutral_iff settled, lost_of_exact exact, int32_neg]
  exact Iff.rfl

end

/-- On an exact clock, all the calibration interrupts after `timer_cal_init` are neutral exactly if
calibration was started with the millisecond clock within a tick of zero. -/
theorem timer_cal_tick_neutral_iff (clock : Clock) (calls : ℕ)
    (exact : ∀ call ≤ calls, (beforeCal clock call).currentClock = exactClock clock call) :
    (∀ call ≤ calls, Neutral (beforeCal clock call)) ↔ StartsAtZero clock := by
  have first := exact 0 (Nat.zero_le calls)
  constructor
  · intro neutral
    exact (neutral_beforeCal_iff first (settled_zero first)).mp (neutral 0 (Nat.zero_le calls))
  · intro zero call
    induction call with
    | zero =>
        intro _
        exact (neutral_beforeCal_iff first (settled_zero first)).mpr zero
    | succ call induction =>
        intro inside
        have before := exact call (by omega)
        have now := exact (call + 1) inside
        have settled := settled_succ before now (induction (by omega))
        exact (neutral_beforeCal_iff now settled).mpr zero

theorem currentClock_period_of_settled {clock : Clock} (settled : clock.increaseTick = 0) :
    (fclkHdl^[ticksPerCal] clock).currentClock = clock.currentClock + UInt64.ofNat ticksPerCal := by
  rw [(currentClock_iterate_fclkHdl clock ticksPerCal).1,
    (iterate_fclkHdl_of_settled settled ticksPerCal).2]

theorem exact_zero_of_settled (settled : clock.increaseTick = 0) :
    (beforeCal clock 0).currentClock = exactClock clock 0 := by
  rw [beforeCal, @currentClock_period_of_settled (timerCalInit clock) settled, exactClock,
    Nat.zero_add, Nat.mul_one]
  rfl

/-- Without a debt, the clock of a calibration started within a tick of zero stays exact. -/
theorem exact_of_settled (settled : clock.increaseTick = 0) (zero : StartsAtZero clock)
    (calls : ℕ) :
    (beforeCal clock calls).currentClock = exactClock clock calls ∧
      (beforeCal clock calls).increaseTick = 0 := by
  induction calls with
  | zero => exact ⟨exact_zero_of_settled settled, settled_zero (exact_zero_of_settled settled)⟩
  | succ calls ih =>
      obtain ⟨exact, no_debt⟩ := ih
      have neutral := (neutral_beforeCal_iff exact no_debt).mpr zero
      have next : (beforeCal clock (calls + 1)).currentClock = exactClock clock (calls + 1) := by
        rw [beforeCal, currentClock_period_of_settled (neutral.2.trans no_debt), neutral.1, exact,
          exactClock_succ]
      exact ⟨next, settled_succ exact next neutral⟩

/-- Ten calibration interrupts, with calibration started one tick into the first second. -/
theorem timer_cal_tick_neutral_after_tick :
    let clock := { initial with currentClock := 1, secondCountdown := 499, needPass := 1 }
    ∀ call ≤ 10, Neutral (beforeCal clock call) := by
  intro clock
  have zero : StartsAtZero clock := by unfold StartsAtZero; decide
  exact (timer_cal_tick_neutral_iff clock 10
    (fun call _ => (exact_of_settled rfl zero call).1)).mpr zero

/-- Calibration started two seconds after initialisation takes the two seconds for ticks that came
too early. -/
theorem timer_cal_tick_not_neutral :
    let clock := { initial with currentClock := 1000, currentSeconds := 2 }
    (beforeCal clock 0).currentClock = exactClock clock 0 ∧ ¬Neutral (beforeCal clock 0) := by
  intro clock
  have exact : (beforeCal clock 0).currentClock = exactClock clock 0 := exact_zero_of_settled rfl
  refine ⟨exact, ?_⟩
  rw [neutral_beforeCal_iff exact (settled_zero exact)]
  unfold StartsAtZero
  decide

end BdkFreertos.FakeClock
