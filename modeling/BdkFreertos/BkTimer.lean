import Mathlib.Data.UInt
import Mathlib.Logic.Function.Basic
import Mathlib.Tactic.Ring

/-!
# Programming of the hardware timers

Six timers in two groups: each timer has an end value of its own, and a group shares one control
register with an enable bit and an interrupt bit for each timer and one clock divider.
-/

namespace BdkFreertos.BkTimer

/-- The fields of `timer_param_t`. -/
structure TimerParam where
  channel : UInt8
  div : UInt8
  period : UInt32
  tIntHandler : UInt32

/-- The registers of the timers and the table of their handlers. -/
structure Timers where
  /-- `p_TIMER_Int_Handler`. -/
  handlers : ℕ → UInt32
  /-- `REG_TIMERCTLA_PERIOD_ADDR` and `REG_TIMERCTLB_PERIOD_ADDR`. -/
  periods : ℕ → UInt32
  timer02Ctl : UInt32
  timer35Ctl : UInt32

inductive Status
  /-- `BK_TIMER_SUCCESS`. -/
  | success
  /-- `BK_TIMER_FAILURE`. -/
  | failure
  deriving DecidableEq

/-- What the functions for the end value have in common: the product has 32 bits. -/
def calEndvalue (time clock div : UInt32) : UInt32 :=
  let div := if div = 0 then 1 else div
  let value : UInt64 := (time * clock / div).toUInt64
  (if 0xffffffff < value then 0xffffffff else value).toUInt32

def clockMs (ucChannel : UInt32) : UInt32 := if ucChannel < 3 then 26000 else 32

/-- `bk_timer_cal_endvalue`. -/
def bkTimerCalEndvalue (ucChannel timeMs div : UInt32) : UInt32 :=
  calEndvalue timeMs (clockMs ucChannel) div

/-- `bk_timer_cal_endvalue_us`. -/
def bkTimerCalEndvalueUs (timeUs div : UInt32) : UInt32 := calEndvalue timeUs 26 div

/-- The control register with the divider of a timer and its enable bit. -/
def controlValue (value : UInt32) (div : UInt8) (enableBit : UInt32) : UInt32 :=
  let value := value &&& ~~~((0x07 : UInt32) <<< 3)
  let value := value ||| ((div.toUInt32 - 1) <<< 3)
  value ||| ((1 : UInt32) <<< enableBit)

/-- What the functions below write for a timer of the first group. -/
def writeTimerA (timers : Timers) (param : TimerParam) (value : UInt32) : Timers :=
  { timers with
    handlers := Function.update timers.handlers param.channel.toNat param.tIntHandler
    periods := Function.update timers.periods param.channel.toNat value
    timer02Ctl := controlValue timers.timer02Ctl param.div param.channel.toUInt32 }

/-- What the function below writes for a timer of the second group. -/
def writeTimerB (timers : Timers) (param : TimerParam) (value : UInt32) : Timers :=
  { timers with
    handlers := Function.update timers.handlers param.channel.toNat param.tIntHandler
    periods := Function.update timers.periods param.channel.toNat value
    timer35Ctl := controlValue timers.timer35Ctl param.div (param.channel.toUInt32 - 3) }

/-- `init_timer_param`. -/
def initTimerParam (timers : Timers) (param : TimerParam) : Status × Timers :=
  let value := bkTimerCalEndvalue param.channel.toUInt32 param.period param.div.toUInt32
  if 5 < param.channel then (.failure, timers)
  else if param.channel < 3 then (.success, writeTimerA timers param value)
  else (.success, writeTimerB timers param value)

/-- `init_timer_param_us`. -/
def initTimerParamUs (timers : Timers) (param : TimerParam) : Status × Timers :=
  let value := bkTimerCalEndvalueUs param.period param.div.toUInt32
  if 2 < param.channel then (.failure, timers)
  else (.success, writeTimerA timers param value)

/-! ## What is meant -/

def divider (div : UInt8) : ℕ := max 1 div.toNat

def Timers.ctl (timers : Timers) (channel : UInt8) : UInt32 :=
  if channel < 3 then timers.timer02Ctl else timers.timer35Ctl

/-- The place of a timer's enable bit in the control register of its group. -/
def enablePlace (channel : UInt8) : ℕ := channel.toNat % 3

/-- A timer is programmed with its period and divider, and nothing else in the control register of
its group changes. -/
structure Programmed (clock : ℕ) (param : TimerParam) (before after : Timers) : Prop where
  endValue : (after.periods param.channel.toNat).toNat =
    min (param.period.toNat * clock / divider param.div) 0xffffffff
  clkdiv : ((after.ctl param.channel >>> 3) &&& 0x07).toNat = divider param.div - 1
  enabled : (after.ctl param.channel).toBitVec.getLsbD (enablePlace param.channel) = true
  others : ∀ bit < 32, bit ≠ enablePlace param.channel → ¬(3 ≤ bit ∧ bit < 6) →
    (after.ctl param.channel).toBitVec.getLsbD bit =
      (before.ctl param.channel).toBitVec.getLsbD bit

/-- The product of period and clock has 32 bits, and the divider fits its field. -/
structure Fits (clock : ℕ) (param : TimerParam) : Prop where
  product : param.period.toNat * clock < 2 ^ 32
  positive : param.div ≠ 0
  small : param.div ≤ 8

/-! ## The end value -/

theorem toNat_calEndvalue (time clock : UInt32) (div : UInt8) :
    (calEndvalue time clock div.toUInt32).toNat =
      time.toNat * clock.toNat % 2 ^ 32 / divider div := by
  have quotient (div' : UInt32) : (time * clock / div').toNat =
      time.toNat * clock.toNat % 2 ^ 32 / div'.toNat := by
    rw [UInt32.toNat_div, UInt32.toNat_mul]
  have clamped (value : UInt32) :
      (if (0xffffffff : UInt64) < value.toUInt64 then 0xffffffff else value.toUInt64).toUInt32 =
        value := by
    rw [if_neg]
    · exact UInt32.toUInt32_toUInt64 value
    · rw [UInt64.not_lt, UInt64.le_iff_toNat_le, UInt32.toNat_toUInt64]
      exact Nat.le_of_lt_succ value.toNat_lt
  simp only [calEndvalue, clamped, quotient]
  congr 1
  by_cases zero : div = 0
  · subst zero
    rfl
  · have wide : div.toUInt32 ≠ 0 := by
      intro wide
      exact zero (UInt8.toNat_inj.mp (by simpa using congrArg UInt32.toNat wide))
    have positive : div.toNat ≠ 0 := fun none => zero (UInt8.toNat_inj.mp none)
    rw [if_neg wide, UInt8.toNat_toUInt32, divider]
    omega

theorem wrapped_quotient_iff {product div : ℕ} (div_pos : 0 < div) (div_lt : div < 2 ^ 32)
    (even : 2 ∣ product) :
    product % 2 ^ 32 / div = min (product / div) 0xffffffff ↔ product < 2 ^ 32 := by
  constructor
  · intro equal
    by_contra large
    have split : product = product % 2 ^ 32 + 2 ^ 32 * (product / 2 ^ 32) :=
      (Nat.mod_add_div ..).symm
    have wraps : 1 ≤ product / 2 ^ 32 := (Nat.one_le_div_iff (by decide)).mpr (by omega)
    have apart : product % 2 ^ 32 / div + 1 ≤ product / div := by
      rw [← Nat.add_div_right _ div_pos]
      exact Nat.div_le_div_right (by omega)
    have clamps : product % 2 ^ 32 / div = 0xffffffff := by omega
    have full : 0xffffffff ≤ product % 2 ^ 32 := clamps ▸ Nat.div_le_self ..
    omega
  · intro small
    rw [Nat.mod_eq_of_lt small]
    have quotient_le : product / div ≤ product := Nat.div_le_self ..
    omega

/-! ## The control register -/

section

variable (value : UInt32) (div : UInt8) {enableBit : UInt32}

theorem getLsbD_controlValue (enableBit_lt : enableBit.toNat < 3) {bit : ℕ} (bit_lt : bit < 32) :
    (controlValue value div enableBit).toBitVec.getLsbD bit =
      (value.toBitVec.getLsbD bit && !decide (3 ≤ bit ∧ bit < 6) ||
        (decide (3 ≤ bit) && (div.toUInt32 - 1).toBitVec.getLsbD (bit - 3)) ||
        decide (bit = enableBit.toNat)) := by
  have mask : ∀ bit < 32,
      (~~~((0x07 : UInt32) <<< 3)).toBitVec.getLsbD bit = !decide (3 ≤ bit ∧ bit < 6) := by
    decide
  have enable : ∀ place < 3, ∀ bit < 32,
      ((1 : UInt32) <<< UInt32.ofNat place).toBitVec.getLsbD bit = decide (bit = place) := by
    decide
  have place_eq := enable enableBit.toNat enableBit_lt bit bit_lt
  rw [UInt32.ofNat_toNat] at place_eq
  have shifted (word : UInt32) : (word <<< 3).toBitVec.getLsbD bit =
      (decide (3 ≤ bit) && word.toBitVec.getLsbD (bit - 3)) := by
    change (word.toBitVec <<< (3 : ℕ)).getLsbD bit = _
    rw [BitVec.getLsbD_shiftLeft]
    simp [bit_lt, ← decide_not]
  simp only [controlValue, UInt32.toBitVec_or, UInt32.toBitVec_and, BitVec.getLsbD_or,
    BitVec.getLsbD_and, mask bit bit_lt, place_eq, shifted]

theorem toNat_div_sub_one {div : UInt8} (positive : div ≠ 0) :
    (div.toUInt32 - 1).toNat = div.toNat - 1 := by
  have positive : div.toNat ≠ 0 := fun none => positive (UInt8.toNat_inj.mp none)
  rw [UInt32.toNat_sub_of_le, UInt8.toNat_toUInt32]
  · rfl
  · rw [UInt32.le_iff_toNat_le, UInt8.toNat_toUInt32]
    change 1 ≤ _
    omega

theorem getLsbD_controlValue_outside {div : UInt8} (positive : div ≠ 0) (small : div ≤ 8)
    (enableBit_lt : enableBit.toNat < 3) {bit : ℕ} (bit_lt : bit < 32)
    (outside : ¬(3 ≤ bit ∧ bit < 6)) :
    (controlValue value div enableBit).toBitVec.getLsbD bit =
      (value.toBitVec.getLsbD bit || decide (bit = enableBit.toNat)) := by
  have narrow : (div.toUInt32 - 1).toNat < 2 ^ 3 := by
    have small : div.toNat ≤ 8 := UInt8.le_iff_toNat_le.mp small
    rw [toNat_div_sub_one positive]
    omega
  have unset : (decide (3 ≤ bit) && (div.toUInt32 - 1).toBitVec.getLsbD (bit - 3)) = false := by
    rw [Bool.and_eq_false_iff, decide_eq_false_iff_not, or_iff_not_imp_left, not_not]
    intro high
    exact Nat.testBit_lt_two_pow
      (Nat.lt_of_lt_of_le narrow (Nat.pow_le_pow_right (by decide) (by omega)))
  rw [getLsbD_controlValue value div enableBit_lt bit_lt, unset, decide_eq_false outside]
  simp

theorem clkdiv_controlValue (enableBit_lt : enableBit.toNat < 3) :
    (controlValue value div enableBit >>> 3) &&& 0x07 = (div.toUInt32 - 1) &&& 0x07 := by
  have low : ∀ bit < 32, (0x07 : UInt32).toBitVec.getLsbD bit = decide (bit < 3) := by decide
  apply UInt32.eq_of_toBitVec_eq
  apply BitVec.eq_of_getLsbD_eq
  intro bit bit_lt
  rw [UInt32.toBitVec_and, UInt32.toBitVec_and, BitVec.getLsbD_and, BitVec.getLsbD_and,
    low bit bit_lt]
  by_cases inside : bit < 3
  · have shifted : (controlValue value div enableBit >>> 3).toBitVec.getLsbD bit =
        (controlValue value div enableBit).toBitVec.getLsbD (3 + bit) := by
      change ((controlValue value div enableBit).toBitVec >>> (3 : ℕ)).getLsbD bit = _
      rw [BitVec.getLsbD_ushiftRight]
    have field : 3 ≤ 3 + bit ∧ 3 + bit < 6 := by omega
    have apart : 3 + bit ≠ enableBit.toNat := by omega
    rw [shifted, getLsbD_controlValue value div enableBit_lt (by omega), decide_eq_true field,
      decide_eq_true field.1, decide_eq_false apart, Nat.add_sub_cancel_left]
    simp
  · rw [decide_eq_false inside, Bool.and_false, Bool.and_false]

theorem clkdiv_controlValue_iff (enableBit_lt : enableBit.toNat < 3) :
    ((controlValue value div enableBit >>> 3) &&& 0x07).toNat = divider div - 1 ↔
      div ≠ 0 ∧ div ≤ 8 := by
  rw [clkdiv_controlValue value div enableBit_lt, UInt32.toNat_and]
  change (div.toUInt32 - 1).toNat &&& (2 ^ 3 - 1) = _ ↔ _
  rw [Nat.and_two_pow_sub_one_eq_mod]
  by_cases zero : div = 0
  · subst zero
    decide
  · have positive : div.toNat ≠ 0 := fun none => zero (UInt8.toNat_inj.mp none)
    have small : div ≤ 8 ↔ div.toNat ≤ 8 := UInt8.le_iff_toNat_le
    rw [toNat_div_sub_one zero, divider, and_iff_right zero, small]
    omega

end

/-! ## The timers -/

section

variable (timers : Timers) (param : TimerParam)

/-- A timer of a group is programmed exactly if the product and the divider fit. -/
theorem programmed_iff {clock : UInt32} (even : 2 ∣ clock.toNat) {after : Timers}
    (enableBit : UInt32) (enableBit_lt : enableBit.toNat < 3)
    (place : enablePlace param.channel = enableBit.toNat)
    (period_eq : after.periods param.channel.toNat =
      calEndvalue param.period clock param.div.toUInt32)
    (ctl_eq : after.ctl param.channel =
      controlValue (timers.ctl param.channel) param.div enableBit) :
    Programmed clock.toNat param timers after ↔ Fits clock.toNat param := by
  have field := clkdiv_controlValue_iff (timers.ctl param.channel) param.div enableBit_lt
  have divider_pos : 0 < divider param.div := Nat.le_max_left ..
  have divider_lt : divider param.div < 2 ^ 32 := by
    have small := param.div.toNat_lt
    rw [divider]
    omega
  have quotient := wrapped_quotient_iff divider_pos divider_lt
    (even.mul_left param.period.toNat)
  constructor
  · rintro ⟨endValue, clkdiv, -, -⟩
    rw [period_eq, toNat_calEndvalue, quotient] at endValue
    rw [ctl_eq, field] at clkdiv
    exact ⟨endValue, clkdiv.1, clkdiv.2⟩
  · rintro ⟨product, positive, small⟩
    refine ⟨?_, ?_, ?_, fun bit bit_lt other outside => ?_⟩
    · rw [period_eq, toNat_calEndvalue, quotient]
      exact product
    · rw [ctl_eq, field]
      exact ⟨positive, small⟩
    · rw [ctl_eq, getLsbD_controlValue _ _ enableBit_lt (by omega), decide_eq_true place,
        Bool.or_true]
    · rw [place] at other
      rw [ctl_eq, getLsbD_controlValue_outside _ positive small enableBit_lt bit_lt outside,
        decide_eq_false other, Bool.or_false]

theorem writeTimerA_programmed_iff (clock : UInt32) (even : 2 ∣ clock.toNat)
    (first : param.channel < 3) :
    Programmed clock.toNat param timers
        (writeTimerA timers param (calEndvalue param.period clock param.div.toUInt32)) ↔
      Fits clock.toNat param := by
  have channel_lt : param.channel.toNat < 3 := UInt8.lt_iff_toNat_lt.mp first
  refine programmed_iff timers param even param.channel.toUInt32 ?_ ?_ ?_ ?_
  · rwa [UInt8.toNat_toUInt32]
  · rw [UInt8.toNat_toUInt32, enablePlace, Nat.mod_eq_of_lt channel_lt]
  · exact Function.update_self ..
  · simp [Timers.ctl, if_pos first, writeTimerA]

theorem writeTimerB_programmed_iff (clock : UInt32) (even : 2 ∣ clock.toNat)
    (second : ¬param.channel < 3) (inside : ¬5 < param.channel) :
    Programmed clock.toNat param timers
        (writeTimerB timers param (calEndvalue param.period clock param.div.toUInt32)) ↔
      Fits clock.toNat param := by
  rw [UInt8.lt_iff_toNat_lt] at inside
  have channel_ge : 3 ≤ param.channel.toNat := by
    rw [UInt8.lt_iff_toNat_lt] at second
    exact Nat.le_of_not_lt second
  have channel_le : param.channel.toNat ≤ 5 := Nat.le_of_not_lt inside
  have place : (param.channel.toUInt32 - 3).toNat = param.channel.toNat - 3 := by
    rw [UInt32.toNat_sub_of_le, UInt8.toNat_toUInt32]
    · rfl
    · rw [UInt32.le_iff_toNat_le, UInt8.toNat_toUInt32]
      exact channel_ge
  refine programmed_iff timers param even (param.channel.toUInt32 - 3) ?_ ?_ ?_ ?_
  · omega
  · rw [place, enablePlace]
    omega
  · exact Function.update_self ..
  · simp [Timers.ctl, if_neg second, writeTimerB]

theorem initTimerParam_programmed_iff (accepted : ¬5 < param.channel) :
    Programmed (clockMs param.channel.toUInt32).toNat param timers
        (initTimerParam timers param).2 ↔
      Fits (clockMs param.channel.toUInt32).toNat param := by
  have even : 2 ∣ (clockMs param.channel.toUInt32).toNat := by
    unfold clockMs
    split_ifs <;> decide
  simp only [initTimerParam, if_neg accepted, bkTimerCalEndvalue]
  by_cases first : param.channel < 3
  · rw [if_pos first]
    exact writeTimerA_programmed_iff timers param _ even first
  · rw [if_neg first]
    exact writeTimerB_programmed_iff timers param _ even first accepted

theorem initTimerParamUs_programmed_iff (accepted : ¬2 < param.channel) :
    Programmed 26 param timers (initTimerParamUs timers param).2 ↔ Fits 26 param := by
  have first : param.channel < 3 := by
    rw [UInt8.lt_iff_toNat_lt] at accepted ⊢
    exact Nat.lt_succ_of_le (Nat.le_of_not_lt accepted)
  simp only [initTimerParamUs, if_neg accepted, bkTimerCalEndvalueUs]
  exact writeTimerA_programmed_iff timers param 26 (by decide) first

end

/-- A timer that a function accepts is programmed when the product and the divider fit; of the
functions, the one for microseconds accepts the first group only, and leaves all timers alone
otherwise. -/
theorem timers_programmed (timers : Timers) (param : TimerParam) :
    (param.channel ≤ 5 → Fits (clockMs param.channel.toUInt32).toNat param →
      (initTimerParam timers param).1 = .success ∧
        Programmed (clockMs param.channel.toUInt32).toNat param timers
          (initTimerParam timers param).2) ∧
    (param.channel ≤ 2 → Fits 26 param →
      (initTimerParamUs timers param).1 = .success ∧
        Programmed 26 param timers (initTimerParamUs timers param).2) ∧
    (2 < param.channel → initTimerParamUs timers param = (.failure, timers)) := by
  refine ⟨fun inside fits => ⟨?_, ?_⟩, fun inside fits => ⟨?_, ?_⟩, fun outside => ?_⟩
  · simp only [initTimerParam, if_neg (UInt8.not_lt.mpr inside)]
    split_ifs <;> rfl
  · exact (initTimerParam_programmed_iff timers param (UInt8.not_lt.mpr inside)).mpr fits
  · simp [initTimerParamUs, if_neg (UInt8.not_lt.mpr inside)]
  · exact (initTimerParamUs_programmed_iff timers param (UInt8.not_lt.mpr inside)).mpr fits
  · simp [initTimerParamUs, if_pos outside]

/-- Timer 4 with five seconds, and timer 1 with 250 microseconds and the divider 8, in groups where
every bit is set. -/
theorem timers_programmed_five_seconds :
    let timers : Timers := ⟨fun _ => 0, fun _ => 0, 0xffffffff, 0xffffffff⟩
    Programmed 32 ⟨4, 1, 5000, 0⟩ timers (initTimerParam timers ⟨4, 1, 5000, 0⟩).2 ∧
      Programmed 26 ⟨1, 8, 250, 0⟩ timers (initTimerParamUs timers ⟨1, 8, 250, 0⟩).2 ∧
        initTimerParamUs timers ⟨4, 1, 250, 0⟩ = (.failure, timers) := by
  intro timers
  refine ⟨?_, ?_, ?_⟩
  · exact ((timers_programmed timers ⟨4, 1, 5000, 0⟩).1 (by decide)
      ⟨by decide, by decide, by decide⟩).2
  · exact ((timers_programmed timers ⟨1, 8, 250, 0⟩).2.1 (by decide)
      ⟨by decide, by decide, by decide⟩).2
  · exact (timers_programmed timers ⟨4, 1, 250, 0⟩).2.2 (by decide)

/-- The function for microseconds refuses timer 3. -/
theorem timers_not_programmed :
    ¬∀ (timers : Timers) (param : TimerParam), param.channel < 6 →
      Programmed (clockMs param.channel.toUInt32).toNat param timers
          (initTimerParam timers param).2 ∧
        Programmed 26 param timers (initTimerParamUs timers param).2 := by
  intro every
  have refused := (every ⟨fun _ => 0, fun _ => 0, 0, 0⟩ ⟨3, 1, 1000, 0⟩ (by decide)).2
  exact absurd refused.enabled (by decide)

end BdkFreertos.BkTimer
