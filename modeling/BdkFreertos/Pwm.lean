import BdkFreertos.ByteFields
import BdkFreertos.Machine
import Mathlib.Data.Fintype.Basic
import Mathlib.Logic.Function.Basic
import Mathlib.Tactic.FinCases

/-!
# The PWM channels of the BK7231N

Two channels share a group: one control register with a byte for each, and one gate of the clock.
Every function selects group and channel in two variables and then reads, modifies and writes back
the registers of the group.
-/

namespace BdkFreertos.Pwm

/-- The registers of a group that the driver uses. -/
inductive Register
  /-- `REG_PWM_GROUP_CTRL_ADDR`. -/
  | groupCtrl (group : UInt8)
  /-- `REG_GROUP_PWM0_T1_ADDR` to `REG_GROUP_PWM0_T4_ADDR`. -/
  | pwm0T (index : Fin 4) (group : UInt8)
  /-- `REG_GROUP_PWM1_T1_ADDR` to `REG_GROUP_PWM1_T4_ADDR`. -/
  | pwm1T (index : Fin 4) (group : UInt8)
  deriving DecidableEq

/-- The driver with the registers it writes. -/
structure Driver where
  currentChannel : UInt8
  currentGroup : UInt8
  /-- `p_PWM_Int_Handler`, where zero is no handler. -/
  intHandler : UInt8 → UInt32
  reg : Register → BitVec 32
  /-- `ICU_PERI_CLK_PWD`: a set bit stops a clock. -/
  periClkPwd : BitVec 32
  /-- `ICU_PERI_CLK_MUX`. -/
  periClkMux : BitVec 32
  /-- `ICU_PWM_CLK_MUX`. -/
  pwmClkMux : BitVec 32
  /-- `ICU_INTERRUPT_ENABLE`. -/
  interruptEnable : BitVec 32

/-- The record `pwm_param_t`. -/
structure PwmParam where
  channel : UInt8
  /-- `cfg.bits.mode`. -/
  mode : BitVec 3
  /-- `cfg.bits.int_en`. -/
  intEn : BitVec 1
  /-- `cfg.bits.clk`. -/
  clk : BitVec 2
  endValue : BitVec 32
  dutyCycle1 : BitVec 32
  dutyCycle2 : BitVec 32
  dutyCycle3 : BitVec 32
  /-- `p_Int_Handler`. -/
  intHandler : UInt32

/-- Results of the driver's functions. -/
inductive Result
  /-- `PWM_SUCCESS`, `BK_OK`. -/
  | success
  /-- `PWM_FAILURE`. -/
  | failure
  /-- `BK_ERR_PARAM`. -/
  | errParam
  /-- `BK_ERR_IN_PROGRESS`. -/
  | errInProgress
  deriving DecidableEq

/-- `PWM_COUNT`. -/
def pwmCount : UInt8 := 6

/-- `PWM_CHANNEL_NUMBER_MAX`. -/
def pwmChannelNumberMax : UInt8 := 5

/-- `PWM_GROUP_PWM_INT_STAT_MASK` of both channels: writing a set bit clears it. -/
def intStatMask : BitVec 32 := 0xC0000000#32

def modeSetBit (channel : UInt8) : ℕ := 8 * channel.toNat

def enableMask (channel : UInt8) : BitVec 32 := 1#32 <<< (8 * channel.toNat + 3)

def intEnableBit (channel : UInt8) : ℕ := 8 * channel.toNat + 4

def intLevlMask (channel : UInt8) : BitVec 32 := 1#32 <<< (8 * channel.toNat + 6)

def cfgUpdataMask (channel : UInt8) : BitVec 32 := 1#32 <<< (8 * channel.toNat + 7)

def intStatClear (channel : UInt8) : BitVec 32 := 1#32 <<< (channel.toNat + 30)

/-- `REG_WRITE`. -/
def Driver.write (driver : Driver) (register : Register) (value : BitVec 32) : Driver :=
  match register with
  | .groupCtrl _ =>
      let stored :=
        (value &&& ~~~intStatMask) ||| (driver.reg register &&& ~~~value &&& intStatMask)
      { driver with reg := Function.update driver.reg register stored }
  | _ => { driver with reg := Function.update driver.reg register value }

def Driver.ctrl (driver : Driver) : BitVec 32 :=
  driver.reg (.groupCtrl driver.currentGroup)

def Driver.writeCtrl (driver : Driver) (value : BitVec 32) : Driver :=
  driver.write (.groupCtrl driver.currentGroup) value

/-- Write one of the T registers of the selected channel. -/
def Driver.writeT (driver : Driver) (index : Fin 4) (value : BitVec 32) : Driver :=
  if driver.currentChannel = 0 then
    driver.write (.pwm0T index driver.currentGroup) value
  else
    driver.write (.pwm1T index driver.currentGroup) value

/-- How every function starts: select the group of a channel and the channel within it. -/
def Driver.select (driver : Driver) (channel : UInt8) : Driver :=
  if channel < 2 then
    { driver with currentGroup := 0, currentChannel := channel }
  else if channel < 4 then
    { driver with currentGroup := 1, currentChannel := channel - 2 }
  else
    { driver with currentGroup := 2, currentChannel := channel - 4 }

/-- The bit of `ICU_PERI_CLK_PWD` that stops the clock of a channel. -/
def pwdClkBit (channel : UInt8) : Option (BitVec 32) :=
  if channel = 0 ∨ channel = 1 then some (1#32 <<< 9)
  else if channel = 2 ∨ channel = 3 then some (1#32 <<< 11)
  else if channel = 4 ∨ channel = 5 then some (1#32 <<< 13)
  else none

/-- Select the clock of a channel: `CMD_CONF_PWM_LPOCLK`, or `CMD_CONF_PCLK_26M` or
`CMD_CONF_PCLK_DCO` followed by `CMD_CONF_PWM_PCLK`. -/
def configureClock (param : PwmParam) (driver : Driver) : Driver :=
  let channelBit := 1#32 <<< param.channel.toNat
  let pclkPosiPwms := 1#32 <<< 7
  if param.clk = 0 then
    { driver with pwmClkMux := driver.pwmClkMux ||| channelBit }
  else if param.clk = 1 then
    { driver with
      periClkMux := driver.periClkMux ||| pclkPosiPwms
      pwmClkMux := driver.pwmClkMux &&& ~~~channelBit }
  else
    { driver with
      periClkMux := driver.periClkMux &&& ~~~pclkPosiPwms
      pwmClkMux := driver.pwmClkMux &&& ~~~channelBit }

/-- Start the clock behind a bit of `ICU_PERI_CLK_PWD` and select it, or stop it. -/
def switchClock (param : PwmParam) (enable : Bool) (bit : BitVec 32) (driver : Driver) : Driver :=
  if enable then
    configureClock param { driver with periClkPwd := driver.periClkPwd &&& ~~~bit }
  else
    { driver with periClkPwd := driver.periClkPwd ||| bit }

/-- `CMD_ICU_INT_ENABLE` for the unit. -/
def enableUnitInt (param : PwmParam) (driver : Driver) : Driver :=
  if param.intEn = 1 then
    { driver with interruptEnable := driver.interruptEnable ||| 1#32 <<< 9 }
  else
    driver

/-- Switch the clock of a channel, and enable the interrupt of the unit. -/
def pwmIcuConfiguration (param : PwmParam) (enable : Bool) (driver : Driver) : Driver × Result :=
  match pwdClkBit param.channel with
  | none => (driver, .errParam)
  | some bit => (enableUnitInt param (switchClock param enable bit driver), .success)

/-- Write T1 to T4 of the selected channel. -/
def writeDuties (param : PwmParam) (driver : Driver) : Driver :=
  (((driver.writeT 0 param.dutyCycle1).writeT 1 param.dutyCycle2).writeT 2 param.dutyCycle3).writeT
    3 param.endValue

/-- Set the mode of the selected channel. -/
def setMode (param : PwmParam) (driver : Driver) : Driver :=
  let modeBit := modeSetBit driver.currentChannel
  driver.writeCtrl
    ((driver.ctrl &&& ~~~(7#32 <<< modeBit)) ||| param.mode.setWidth 32 <<< modeBit)

def clearIntStatus (driver : Driver) : Driver :=
  driver.writeCtrl (driver.ctrl ||| intStatClear driver.currentChannel)

def setIntHandler (param : PwmParam) (driver : Driver) : Driver :=
  { driver with intHandler := Function.update driver.intHandler param.channel param.intHandler }

/-- Enable or disable the interrupt of the selected channel. -/
def setIntEn (param : PwmParam) (driver : Driver) : Driver :=
  let enableBit := intEnableBit driver.currentChannel
  driver.writeCtrl
    ((driver.ctrl &&& ~~~(1#32 <<< enableBit)) ||| param.intEn.setWidth 32 <<< enableBit)

/-- The part of the initialisation before the clock is switched. -/
def configure (param : PwmParam) (driver : Driver) : Driver :=
  let driver := setMode param (driver.select param.channel)
  let driver := writeDuties param driver
  let driver := clearIntStatus driver
  let driver := setIntHandler param driver
  setIntEn param driver

def Accepted (param : PwmParam) : Prop :=
  param.channel < pwmCount ∧ param.dutyCycle1 ≤ param.endValue

instance (param : PwmParam) : Decidable (Accepted param) :=
  inferInstanceAs (Decidable (_ ∧ _))

/-- Initialise a channel, or de-initialise it. -/
def initPwmParam (param : PwmParam) (enable : Bool) (driver : Driver) : Driver × Result :=
  if param.channel ≥ pwmCount ∨ param.dutyCycle1 > param.endValue then
    (driver, .errParam)
  else
    pwmIcuConfiguration param enable (configure param driver)

def pwmUnitEnable (channel : UInt8) (driver : Driver) : Driver × Result :=
  if channel > pwmChannelNumberMax then
    (driver, .errParam)
  else
    let driver := driver.select channel
    (driver.writeCtrl (driver.ctrl ||| enableMask driver.currentChannel), .success)

def pwmUnitDisable (channel : UInt8) (driver : Driver) : Driver × Result :=
  if channel > pwmChannelNumberMax then
    (driver, .errParam)
  else
    let driver := driver.select channel
    (driver.writeCtrl (driver.ctrl &&& ~~~enableMask driver.currentChannel), .success)

/-- Set one of the T registers and ask the hardware to take the new value. -/
def setT (index : Fin 4) (channel : UInt8) (value : BitVec 32) (driver : Driver) : Driver :=
  let driver := driver.select channel
  let driver := driver.writeT index value
  driver.writeCtrl (driver.ctrl ||| cfgUpdataMask driver.currentChannel)

def pwmSetDutyCycle (channel : UInt8) (dutyCycle : BitVec 32) (driver : Driver) : Driver :=
  setT 0 channel dutyCycle driver

def pwmSetEndValue (channel : UInt8) (endValue : BitVec 32) (driver : Driver) : Driver :=
  setT 3 channel endValue driver

def pwmInitLevlSetLow (channel : UInt8) (driver : Driver) : Driver × Result :=
  if channel > pwmChannelNumberMax then
    (driver, .errParam)
  else
    let driver := driver.select channel
    (driver.writeCtrl (driver.ctrl &&& ~~~intLevlMask driver.currentChannel), .success)

def pwmInitLevlSetHigh (channel : UInt8) (driver : Driver) : Driver × Result :=
  if channel > pwmChannelNumberMax then
    (driver, .errParam)
  else
    let driver := driver.select channel
    (driver.writeCtrl (driver.ctrl ||| intLevlMask driver.currentChannel), .success)

/-- Write new values for T1 to T4, unless the hardware has not taken the last ones yet. -/
def pwmUpdateParam (param : PwmParam) (driver : Driver) : Driver × Result :=
  if param.channel ≥ pwmCount ∨ param.dutyCycle1 > param.endValue then
    (driver, .errParam)
  else
    let driver := driver.select param.channel
    if driver.ctrl &&& cfgUpdataMask driver.currentChannel ≠ 0 then
      (driver, .errInProgress)
    else
      (writeDuties param driver, .success)

def pwmUpdateParamEnable (channel : UInt8) (driver : Driver) : Driver × Result :=
  if channel ≥ pwmCount then
    (driver, .errParam)
  else
    let driver := driver.select channel
    (driver.writeCtrl (driver.ctrl ||| cfgUpdataMask driver.currentChannel), .success)

/-- Clear T1 to T4.  There is no check of the channel. -/
def pwmParamClear (channel : UInt8) (driver : Driver) : Driver :=
  let driver := driver.select channel
  (((driver.writeT 0 0).writeT 1 0).writeT 2 0).writeT 3 0

def pwmIntHandlerClear (channel : UInt8) (driver : Driver) : Driver :=
  { driver with intHandler := Function.update driver.intHandler channel 0 }

/-- The commands of `pwm_ctrl` that address a single channel. -/
inductive Command
  | unitEnable (channel : UInt32)
  | unitDisable (channel : UInt32)
  | irClear (channel : UInt32)
  | initParam (param : PwmParam)
  | setDutyCycle (param : PwmParam)
  | setEndValue (param : PwmParam)
  | deinitParam (param : PwmParam)
  | updateParam (param : PwmParam)
  | updateParamEnable (channel : UInt32)
  | initLevlSetLow (channel : UInt32)
  | initLevlSetHigh (channel : UInt32)

/-- `pwm_ctrl`.  Its functions take the low 8 bits of a channel number. -/
def pwmCtrl (driver : Driver) : Command → Driver × Result
  | .unitEnable channel => pwmUnitEnable channel.toUInt8 driver
  | .unitDisable channel =>
      let (driver, result) := pwmUnitDisable channel.toUInt8 driver
      (pwmParamClear channel.toUInt8 driver, result)
  | .irClear channel =>
      if channel > 5 then (driver, .failure)
      else (pwmIntHandlerClear channel.toUInt8 driver, .success)
  | .initParam param => initPwmParam param true driver
  | .setDutyCycle param =>
      if param.channel ≥ pwmCount then (driver, .failure)
      else (pwmSetDutyCycle param.channel param.dutyCycle1 driver, .success)
  | .setEndValue param =>
      if param.channel ≥ pwmCount then (driver, .failure)
      else (pwmSetEndValue param.channel param.endValue driver, .success)
  | .deinitParam param => ((initPwmParam param false driver).1, .success)
  | .updateParam param => ((pwmUpdateParam param driver).1, .success)
  | .updateParamEnable channel => pwmUpdateParamEnable channel.toUInt8 driver
  | .initLevlSetLow channel => pwmInitLevlSetLow channel.toUInt8 driver
  | .initLevlSetHigh channel => pwmInitLevlSetHigh channel.toUInt8 driver

/-- What happens to the unit. -/
inductive Event
  /-- A command of `pwm_ctrl`. -/
  | ctrl (command : Command)
  /-- The hardware has taken the new values of a channel. -/
  | taken (channel : Fin 6)
  | interrupt (channel : Fin 6)

def group (channel : Fin 6) : UInt8 := UInt8.ofNat (channel / 2)

/-- The control register of a channel, as the hardware changes it. -/
def Driver.changeCtrl (driver : Driver) (channel : Fin 6) (change : BitVec 32 → BitVec 32) :
    Driver :=
  { driver with
    reg := Function.update driver.reg (.groupCtrl (group channel))
      (change (driver.reg (.groupCtrl (group channel)))) }

def Event.apply (driver : Driver) : Event → Driver
  | .ctrl command => (pwmCtrl driver command).1
  | .taken channel =>
      driver.changeCtrl channel fun word =>
        word &&& ~~~cfgUpdataMask (UInt8.ofNat (channel % 2))
  | .interrupt channel =>
      driver.changeCtrl channel fun word =>
        word ||| intStatClear (UInt8.ofNat (channel % 2))

/-- The channel that an event addresses, as the driver takes it. -/
def Event.channel : Event → UInt8
  | .ctrl (.unitEnable channel) | .ctrl (.unitDisable channel) | .ctrl (.irClear channel)
  | .ctrl (.updateParamEnable channel) | .ctrl (.initLevlSetLow channel)
  | .ctrl (.initLevlSetHigh channel) => channel.toUInt8
  | .ctrl (.initParam param) | .ctrl (.setDutyCycle param) | .ctrl (.setEndValue param)
  | .ctrl (.deinitParam param) | .ctrl (.updateParam param) => param.channel
  | .taken channel | .interrupt channel => UInt8.ofNat channel

/-- The driver with the channels that are initialised. -/
structure Tracked where
  driver : Driver
  /-- The last accepted initialisation or de-initialisation was an initialisation. -/
  initialised : Fin 6 → Bool

/-- Whether a channel is initialised after an event. -/
def initialisedAfter (initialised : Fin 6 → Bool) (event : Event) (channel : Fin 6) : Bool :=
  match event with
  | .ctrl (.initParam param) =>
      if Accepted param ∧ param.channel = UInt8.ofNat channel then true else initialised channel
  | .ctrl (.deinitParam param) =>
      if Accepted param ∧ param.channel = UInt8.ofNat channel then false else initialised channel
  | _ => initialised channel

/-- The unit driven by its events. -/
def pwm : Machine Tracked Event Unit where
  step tracked event :=
    (⟨event.apply tracked.driver, initialisedAfter tracked.initialised event⟩, ())

def Tracked.start (driver : Driver) : Tracked := ⟨driver, fun _ => false⟩

/-- What belongs to one channel: its byte of the control register, T1 to T4 and its handler. -/
@[ext]
structure Channel where
  control : BitVec 8
  t : Fin 4 → BitVec 32
  handler : UInt32

def Driver.channel (driver : Driver) (channel : Fin 6) : Channel where
  control := byteField (channel % 2) (driver.reg (.groupCtrl (group channel)))
  t index :=
    driver.reg
      (if channel.val % 2 = 0 then .pwm0T index (group channel) else .pwm1T index (group channel))
  handler := driver.intHandler (UInt8.ofNat channel)

def Driver.Powered (driver : Driver) (channel : Fin 6) : Prop :=
  ∀ bit ∈ pwdClkBit (UInt8.ofNat channel), driver.periClkPwd &&& bit = 0

instance (driver : Driver) (channel : Fin 6) : Decidable (driver.Powered channel) :=
  inferInstanceAs (Decidable (∀ bit ∈ pwdClkBit (UInt8.ofNat channel), _))

/-- What is observed of a channel. -/
structure Observed where
  mode : BitVec 3
  enable : Bool
  intEnable : Bool
  level : Bool
  t : Fin 4 → BitVec 32
  handler : UInt32
  /-- Whether the clock runs, of an initialised channel. -/
  powered : Option Bool

def Tracked.observe (tracked : Tracked) (channel : Fin 6) : Observed :=
  let own := tracked.driver.channel channel
  { mode := own.control.extractLsb' 0 3
    enable := own.control.getLsbD 3
    intEnable := own.control.getLsbD 4
    level := own.control.getLsbD 6
    t := own.t
    handler := own.handler
    powered :=
      if tracked.initialised channel then some (decide (tracked.driver.Powered channel))
      else none }

def partner (channel : Fin 6) : Fin 6 :=
  ⟨channel / 2 * 2 + (1 - channel % 2), by omega⟩

/-- An accepted de-initialisation comes while the other channel of the group is not initialised,
and a disable command whose channel does not exist comes while T1 to T4 of the last channel are
zero. -/
def Independent (tracked : Tracked) : Event → Prop
  | .ctrl (.deinitParam param) =>
      ∀ channel : Fin 6, Accepted param → param.channel = UInt8.ofNat channel →
        tracked.initialised (partner channel) = false
  | .ctrl (.unitDisable channel) =>
      channel.toUInt8 > pwmChannelNumberMax → ∀ index, (tracked.driver.channel 5).t index = 0
  | _ => True

/-- Every channel looks as if the events addressed to other channels had not happened. -/
def Separate (start : Driver) (events : List Event) (tracked : Tracked) : Prop :=
  ∀ channel : Fin 6,
    tracked.observe channel =
      (pwm.run (.start start)
        (events.filter fun event => event.channel = UInt8.ofNat channel)).observe channel

variable {left right : Fin 6} {word : BitVec 32} {byte : BitVec 8} {number : UInt8}
  {driver : Driver} {param : PwmParam} {event : Event} {tracked : Tracked}

theorem group_inj (same : group left = group right) : left.val / 2 = right.val / 2 := by
  revert left right
  decide

theorem number_inj : UInt8.ofNat left = UInt8.ofNat right ↔ left = right := by
  revert left right
  decide

/-- Putting a word into the control register of a channel changes the byte of that channel, when
the word has the old byte for the other channel. -/
theorem channel_updateCtrl (driver : Driver) (channel : Fin 6)
    (own : byteField (channel % 2) word = byte) (other : ∀ index < 2, index ≠ channel.val % 2 →
      byteField index word = byteField index (driver.reg (.groupCtrl (group channel)))) :
    Driver.channel { driver with
        reg := Function.update driver.reg (.groupCtrl (group channel)) word } =
      Function.update driver.channel channel { driver.channel channel with control := byte } := by
  funext observed
  by_cases same : observed = channel
  · subst same
    rw [Function.update_self]
    ext1
    · show byteField _ (Function.update driver.reg (.groupCtrl (group observed)) word
        (.groupCtrl (group observed))) = byte
      rw [Function.update_self, own]
    · funext index
      show Function.update _ _ _ _ = _
      split <;> rw [Function.update_of_ne (by simp)] <;> simp [Driver.channel, *]
    · rfl
  · rw [Function.update_of_ne same]
    ext1
    · show byteField _ (Function.update driver.reg (.groupCtrl (group channel)) word
        (.groupCtrl (group observed))) = (driver.channel observed).control
      by_cases together : group observed = group channel
      · have halves := group_inj together
        have different : observed.val % 2 ≠ channel.val % 2 := by
          intro equal
          exact same (Fin.ext (by omega))
        rw [together, Function.update_self, other _ (Nat.mod_lt _ two_pos) different, ← together]
        rfl
      · rw [Function.update_of_ne (by simpa using together)]
        rfl
    · funext index
      show Function.update _ _ _ _ = _
      split <;> rw [Function.update_of_ne (by simp)] <;> simp [Driver.channel, *]
    · rfl

/-- A group and a channel of it are selected. -/
structure Selected (driver : Driver) (channel : Fin 6) : Prop where
  group_eq : driver.currentGroup = group channel
  channel_eq : driver.currentChannel = UInt8.ofNat (channel % 2)

theorem selected_select (driver : Driver) (channel : Fin 6) :
    Selected (driver.select (UInt8.ofNat channel)) channel := by
  fin_cases channel <;> exact ⟨rfl, rfl⟩

theorem select_frame (driver : Driver) (number : UInt8) :
    (driver.select number).channel = driver.channel ∧
      (driver.select number).periClkPwd = driver.periClkPwd := by
  unfold Driver.select
  split
  · exact ⟨rfl, rfl⟩
  split <;> exact ⟨rfl, rfl⟩

theorem byteField_stored {index : ℕ} (inside : index < 2) (value old : BitVec 32) :
    byteField index ((value &&& ~~~intStatMask) ||| (old &&& ~~~value &&& intStatMask)) =
      byteField index value := by
  have clear : byteField index intStatMask = 0#8 := by interval_cases index <;> decide
  rw [byteField_or, byteField_and, byteField_and, byteField_not (by omega), clear, BitVec.and_zero,
    BitVec.or_zero, BitVec.not_zero, BitVec.and_allOnes]

/-- A read, modify and write of the control register for the selected channel. -/
theorem channel_writeCtrl {channel : Fin 6} (selected : Selected driver channel)
    (own : byteField (channel % 2) word = byte) (other : ∀ index < 2, index ≠ channel.val % 2 →
      byteField index word = byteField index driver.ctrl) :
    (driver.writeCtrl word).channel =
      Function.update driver.channel channel { driver.channel channel with control := byte } := by
  rw [Driver.writeCtrl, selected.group_eq]
  refine channel_updateCtrl driver channel ?_ ?_
  · rw [byteField_stored (Nat.mod_lt _ two_pos), own]
  · intro index low different
    rw [byteField_stored low, other index low different, Driver.ctrl, selected.group_eq]

theorem control_eq {channel : Fin 6} (selected : Selected driver channel) :
    byteField (channel % 2) driver.ctrl = (driver.channel channel).control := by
  rw [Driver.ctrl, selected.group_eq]
  rfl

/-- Within a function that has selected a channel: the channel has come to be `own`, and the others
are still as they were in `base`. -/
structure Working (base : Driver) (channel : Fin 6) (own : Channel) (driver : Driver) : Prop where
  selected : Selected driver channel
  channel_eq : driver.channel = Function.update base.channel channel own

theorem working_select (driver : Driver) (channel : Fin 6) :
    Working driver channel (driver.channel channel) (driver.select (UInt8.ofNat channel)) where
  selected := selected_select driver channel
  channel_eq := by rw [(select_frame driver _).1, Function.update_eq_self]

section
variable {base driver : Driver} {channel : Fin 6} {own : Channel}

section

variable (working : Working base channel own driver)
include working

theorem Working.own_eq : driver.channel channel = own := by
  rw [working.channel_eq, Function.update_self]

theorem Working.control_eq : byteField (channel % 2) driver.ctrl = own.control := by
  rw [Pwm.control_eq working.selected, working.own_eq]

theorem Working.writeCtrl {word : BitVec 32} {byte : BitVec 8}
    (own_eq : byteField (channel % 2) word = byte) (other : ∀ index < 2, index ≠ channel.val % 2 →
      byteField index word = byteField index driver.ctrl) :
    Working base channel { own with control := byte } (driver.writeCtrl word) where
  selected := ⟨working.selected.group_eq, working.selected.channel_eq⟩
  channel_eq := by
    rw [channel_writeCtrl working.selected own_eq other, working.own_eq, working.channel_eq,
      Function.update_idem]

theorem Working.setBits (byte : BitVec 8) :
    Working base channel { own with control := own.control ||| byte }
      (driver.writeCtrl (driver.ctrl ||| placeByte (channel % 2) byte)) := by
  apply working.writeCtrl
  · rw [byteField_or_placeByte (by omega), if_pos rfl, working.control_eq]
  · intro index low different
    rw [byteField_or_placeByte (by omega), if_neg different]

theorem Working.clearBits (byte : BitVec 8) :
    Working base channel { own with control := own.control &&& ~~~byte }
      (driver.writeCtrl (driver.ctrl &&& ~~~placeByte (channel % 2) byte)) := by
  apply working.writeCtrl
  · rw [byteField_and_not_placeByte (by omega), if_pos rfl, working.control_eq]
  · intro index low different
    rw [byteField_and_not_placeByte (by omega), if_neg different]

theorem Working.replaceBits (old new : BitVec 8) :
    Working base channel { own with control := (own.control &&& ~~~old) ||| new }
      (driver.writeCtrl ((driver.ctrl &&& ~~~placeByte (channel % 2) old) |||
        placeByte (channel % 2) new)) := by
  apply working.writeCtrl
  · rw [byteField_or_placeByte (by omega), if_pos rfl, byteField_and_not_placeByte (by omega),
      if_pos rfl, working.control_eq]
  · intro index low different
    rw [byteField_or_placeByte (by omega), if_neg different,
      byteField_and_not_placeByte (by omega), if_neg different]

end

end

theorem masks_of_selected {channel : Fin 6} (selected : Selected driver channel) :
    enableMask driver.currentChannel = placeByte (channel % 2) 0x08#8 ∧
      intLevlMask driver.currentChannel = placeByte (channel % 2) 0x40#8 ∧
      cfgUpdataMask driver.currentChannel = placeByte (channel % 2) 0x80#8 := by
  rw [selected.channel_eq]
  fin_cases channel <;> decide

/-- The T registers that are written are those of a channel. -/
structure Targets (driver : Driver) (channel : Fin 6) : Prop where
  group_eq : driver.currentGroup = group channel
  half : driver.currentChannel = 0 ↔ channel.val % 2 = 0

theorem Selected.targets {channel : Fin 6} (selected : Selected driver channel) :
    Targets driver channel := by
  have zero : ∀ own : Fin 6, UInt8.ofNat (own.val % 2) = 0 ↔ own.val % 2 = 0 := by decide
  exact ⟨selected.group_eq, by rw [selected.channel_eq, zero]⟩

section

variable {channel : Fin 6} (targets : Targets driver channel)
include targets

theorem Targets.writeT (index : Fin 4) (value : BitVec 32) :
    Targets (driver.writeT index value) channel := by
  unfold Driver.writeT
  split <;> exact ⟨targets.group_eq, targets.half⟩

theorem channel_writeT (index : Fin 4) (value : BitVec 32) :
    (driver.writeT index value).channel =
      Function.update driver.channel channel
        { driver.channel channel with
          t := Function.update (driver.channel channel).t index value } := by
  have written : driver.writeT index value =
      { driver with
        reg := Function.update driver.reg
          (if channel.val % 2 = 0 then .pwm0T index (group channel)
            else .pwm1T index (group channel)) value } := by
    simp only [Driver.writeT, targets.half, Driver.write, targets.group_eq]
    split <;> rfl
  rw [written]
  funext observed
  by_cases same : observed = channel
  · subst same
    rw [Function.update_self]
    ext1
    · show byteField (observed.val % 2) (Function.update driver.reg _ value _) = _
      rw [Function.update_of_ne (by split <;> simp)]
      rfl
    · funext place
      show Function.update driver.reg _ value (if observed.val % 2 = 0 then _ else _) =
        Function.update (driver.channel observed).t index value place
      by_cases hit : place = index
      · subst hit
        rw [Function.update_self, Function.update_self]
      · rw [Function.update_of_ne hit, Function.update_of_ne (by split <;> simpa using hit)]
        rfl
    · rfl
  · rw [Function.update_of_ne same]
    ext1
    · show byteField (observed.val % 2) (Function.update driver.reg _ value _) = _
      rw [Function.update_of_ne (by split <;> simp)]
      rfl
    · funext place
      show Function.update driver.reg _ value (if observed.val % 2 = 0 then _ else _) =
        (driver.channel observed).t place
      rw [Function.update_of_ne]
      · rfl
      · intro equal
        have together : observed.val % 2 = channel.val % 2 ∧ group observed = group channel := by
          split at equal <;> split at equal <;> simp at equal <;> exact ⟨by omega, equal.2⟩
        exact same (Fin.ext (by have := group_inj together.2; omega))
    · rfl

theorem channel_writeAll (values : Fin 4 → BitVec 32) :
    ((((driver.writeT 0 (values 0)).writeT 1 (values 1)).writeT 2 (values 2)).writeT 3
        (values 3)).channel =
      Function.update driver.channel channel { driver.channel channel with t := values } := by
  have first := targets.writeT 0 (values 0)
  have second := first.writeT 1 (values 1)
  have third := second.writeT 2 (values 2)
  rw [channel_writeT third, channel_writeT second, channel_writeT first, channel_writeT targets]
  simp only [Function.update_self, Function.update_idem]
  congr 1
  ext1
  · rfl
  · funext index
    fin_cases index <;> rfl
  · rfl

end

section
variable {base driver : Driver} {channel : Fin 6} {own : Channel}

theorem Working.writeT (working : Working base channel own driver) (index : Fin 4)
    (value : BitVec 32) :
    Working base channel { own with t := Function.update own.t index value }
      (driver.writeT index value) where
  selected := by
    unfold Driver.writeT
    split <;> exact ⟨working.selected.group_eq, working.selected.channel_eq⟩
  channel_eq := by
    rw [channel_writeT working.selected.targets, working.own_eq, working.channel_eq,
      Function.update_idem]

theorem Working.writeAll (working : Working base channel own driver) (values : Fin 4 → BitVec 32) :
    Working base channel { own with t := values }
      ((((driver.writeT 0 (values 0)).writeT 1 (values 1)).writeT 2 (values 2)).writeT 3
        (values 3)) where
  selected :=
    ((((working.writeT 0 (values 0)).writeT 1 (values 1)).writeT 2 (values 2)).writeT 3
      (values 3)).selected
  channel_eq := by
    rw [channel_writeAll working.selected.targets, working.own_eq, working.channel_eq,
      Function.update_idem]

end

/-- The four values of a parameter. -/
def PwmParam.duties (param : PwmParam) : Fin 4 → BitVec 32
  | 0 => param.dutyCycle1
  | 1 => param.dutyCycle2
  | 2 => param.dutyCycle3
  | 3 => param.endValue

/-- The masks by which the initialisation replaces mode and interrupt enable. -/
theorem bits_of_selected {channel : Fin 6} (selected : Selected driver channel) (mode : BitVec 3)
    (intEn : BitVec 1) :
    7#32 <<< modeSetBit driver.currentChannel = placeByte (channel % 2) 0x07#8 ∧
      mode.setWidth 32 <<< modeSetBit driver.currentChannel =
        placeByte (channel % 2) (mode.setWidth 8) ∧
      1#32 <<< intEnableBit driver.currentChannel = placeByte (channel % 2) 0x10#8 ∧
      intEn.setWidth 32 <<< intEnableBit driver.currentChannel =
        placeByte (channel % 2) (intEn.setWidth 8 <<< 4) := by
  have number : driver.currentChannel.toNat = channel.val % 2 := by
    have low : ∀ own : Fin 6, (UInt8.ofNat (own.val % 2)).toNat = own.val % 2 := by decide
    rw [selected.channel_eq, low]
  have half := Nat.mod_lt channel.val two_pos
  rw [modeSetBit, intEnableBit, number]
  generalize channel.val % 2 = index at half
  interval_cases index
  · revert mode intEn
    decide
  · revert mode intEn
    decide

theorem Working.clearIntStatus {base : Driver} {channel : Fin 6} {own : Channel}
    (working : Working base channel own driver) :
    Working base channel own (Pwm.clearIntStatus driver) := by
  have clear : ∀ index < 2, byteField index (intStatClear driver.currentChannel) = 0#8 := by
    have low : ∀ own : Fin 6, ∀ index < 2,
        byteField index (intStatClear (UInt8.ofNat (own.val % 2))) = 0#8 := by decide
    rw [working.selected.channel_eq]
    exact low channel
  have same : ∀ index < 2,
      byteField index (driver.ctrl ||| intStatClear driver.currentChannel) =
        byteField index driver.ctrl := by
    intro index low
    rw [byteField_or, clear index low, BitVec.or_zero]
  have written := working.writeCtrl ((same _ (Nat.mod_lt _ two_pos)).trans working.control_eq)
    fun index low _ => same index low
  exact written

/-- What an accepted initialisation or de-initialisation does to its channel. -/
def configured (param : PwmParam) (own : Channel) : Channel where
  control :=
    (((own.control &&& ~~~0x07#8) ||| param.mode.setWidth 8) &&& ~~~0x10#8) |||
      param.intEn.setWidth 8 <<< 4
  t := param.duties
  handler := param.intHandler

/-- What a command does to the channel it addresses. -/
def Command.effect (own : Channel) : Command → Channel
  | .unitEnable _ => { own with control := own.control ||| 0x08#8 }
  | .unitDisable _ => { own with control := own.control &&& ~~~0x08#8, t := fun _ => 0 }
  | .irClear number => if number > 5 then own else { own with handler := 0 }
  | .initParam param | .deinitParam param => if Accepted param then configured param own else own
  | .setDutyCycle param =>
      { own with
        control := own.control ||| 0x80#8
        t := Function.update own.t 0 param.dutyCycle1 }
  | .setEndValue param =>
      { own with
        control := own.control ||| 0x80#8
        t := Function.update own.t 3 param.endValue }
  | .updateParam param =>
      if Accepted param ∧ own.control &&& 0x80#8 = 0 then { own with t := param.duties } else own
  | .updateParamEnable _ => { own with control := own.control ||| 0x80#8 }
  | .initLevlSetLow _ => { own with control := own.control &&& ~~~0x40#8 }
  | .initLevlSetHigh _ => { own with control := own.control ||| 0x40#8 }

theorem number_inside (channel : Fin 6) :
    ¬UInt8.ofNat channel > pwmChannelNumberMax ∧ ¬UInt8.ofNat channel ≥ pwmCount := by
  revert channel
  decide

theorem Working.setT (driver : Driver) (channel : Fin 6) (index : Fin 4) (value : BitVec 32) :
    Working driver channel
      { driver.channel channel with
        control := (driver.channel channel).control ||| 0x80#8
        t := Function.update (driver.channel channel).t index value }
      (Pwm.setT index (UInt8.ofNat channel) value driver) := by
  have written := (working_select driver channel).writeT index value
  rw [Pwm.setT, (masks_of_selected written.selected).2.2]
  exact written.setBits 0x80#8

theorem working_pwmParamClear (driver : Driver) (channel : Fin 6) :
    Working driver channel { driver.channel channel with t := fun _ => 0 }
      (pwmParamClear (UInt8.ofNat channel) driver) :=
  (working_select driver channel).writeAll fun _ => 0

theorem configureClock_frame (param : PwmParam) (driver : Driver) :
    (configureClock param driver).channel = driver.channel ∧
      (configureClock param driver).periClkPwd = driver.periClkPwd := by
  simp only [configureClock]
  split
  · exact ⟨rfl, rfl⟩
  split <;> exact ⟨rfl, rfl⟩

theorem enableUnitInt_frame (param : PwmParam) (driver : Driver) :
    (enableUnitInt param driver).channel = driver.channel ∧
      (enableUnitInt param driver).periClkPwd = driver.periClkPwd := by
  unfold enableUnitInt
  split <;> exact ⟨rfl, rfl⟩

theorem pwmIcuConfiguration_spec {bit : BitVec 32} (known : pwdClkBit param.channel = some bit)
    (enable : Bool) (driver : Driver) :
    (pwmIcuConfiguration param enable driver).1.channel = driver.channel ∧
      (pwmIcuConfiguration param enable driver).1.periClkPwd =
        if enable then driver.periClkPwd &&& ~~~bit else driver.periClkPwd ||| bit := by
  obtain ⟨channel_eq, clock_eq⟩ := enableUnitInt_frame param (switchClock param enable bit driver)
  simp only [pwmIcuConfiguration, known]
  rw [channel_eq, clock_eq]
  cases enable with
  | true => exact configureClock_frame param _
  | false => exact ⟨rfl, rfl⟩

theorem channel_updateHandler {channel : Fin 6} (addressed : number = UInt8.ofNat channel)
    (driver : Driver) (handler : UInt32) :
    Driver.channel { driver with
        intHandler := Function.update driver.intHandler number handler } =
      Function.update driver.channel channel { driver.channel channel with handler } := by
  subst addressed
  funext observed
  by_cases same : observed = channel
  · subst same
    rw [Function.update_self]
    ext1
    · rfl
    · rfl
    · exact Function.update_self _ _ _
  · rw [Function.update_of_ne same]
    ext1
    · rfl
    · rfl
    · exact Function.update_of_ne (fun equal => same (number_inj.mp equal)) _ _

section
variable {base driver : Driver} {channel : Fin 6} {own : Channel} {param : PwmParam}

section

variable (working : Working base channel own driver)
include working

theorem Working.setIntHandler (addressed : param.channel = UInt8.ofNat channel) :
    Working base channel { own with handler := param.intHandler }
      (Pwm.setIntHandler param driver) where
  selected := ⟨working.selected.group_eq, working.selected.channel_eq⟩
  channel_eq := by
    rw [Pwm.setIntHandler, channel_updateHandler addressed, working.own_eq, working.channel_eq,
      Function.update_idem]

theorem Working.setMode (param : PwmParam) :
    Working base channel
      { own with control := (own.control &&& ~~~0x07#8) ||| param.mode.setWidth 8 }
      (Pwm.setMode param driver) := by
  obtain ⟨mask, mode, -, -⟩ := bits_of_selected working.selected param.mode param.intEn
  simp only [Pwm.setMode, mask, mode]
  exact working.replaceBits 0x07#8 (param.mode.setWidth 8)

theorem Working.setIntEn (param : PwmParam) :
    Working base channel
      { own with control := (own.control &&& ~~~0x10#8) ||| param.intEn.setWidth 8 <<< 4 }
      (Pwm.setIntEn param driver) := by
  obtain ⟨-, -, mask, enable⟩ := bits_of_selected working.selected param.mode param.intEn
  simp only [Pwm.setIntEn, mask, enable]
  exact working.replaceBits 0x10#8 (param.intEn.setWidth 8 <<< 4)

end

end

theorem working_configure {channel : Fin 6} (addressed : param.channel = UInt8.ofNat channel)
    (driver : Driver) :
    Working driver channel (configured param (driver.channel channel))
      (configure param driver) := by
  have selected := working_select driver channel
  rw [← addressed] at selected
  have timed : Working driver channel _ (writeDuties param _) :=
    (selected.setMode param).writeAll param.duties
  exact (timed.clearIntStatus.setIntHandler addressed).setIntEn param

theorem refused_iff (param : PwmParam) :
    (param.channel ≥ pwmCount ∨ param.dutyCycle1 > param.endValue) ↔ ¬Accepted param := by
  rw [Accepted, not_and_or, UInt8.not_lt, BitVec.not_le]

theorem initPwmParam_eq (param : PwmParam) (enable : Bool) (driver : Driver) :
    initPwmParam param enable driver =
      if Accepted param then pwmIcuConfiguration param enable (configure param driver)
      else (driver, .errParam) := by
  simp [initPwmParam, refused_iff]

def clockBit (channel : Fin 6) : BitVec 32 := 1#32 <<< (9 + 2 * (channel.val / 2))

theorem pwdClkBit_eq (channel : Fin 6) :
    pwdClkBit (UInt8.ofNat channel) = some (clockBit channel) := by
  fin_cases channel <;> rfl

theorem channel_initPwmParam {channel : Fin 6} (addressed : param.channel = UInt8.ofNat channel)
    (enable : Bool) (driver : Driver) :
    (initPwmParam param enable driver).1.channel =
      Function.update driver.channel channel
        (if Accepted param then configured param (driver.channel channel)
          else driver.channel channel) := by
  rw [initPwmParam_eq]
  split
  · rw [(pwmIcuConfiguration_spec (addressed ▸ pwdClkBit_eq channel) enable _).1,
      (working_configure addressed driver).channel_eq]
  · exact (Function.update_eq_self channel driver.channel).symm

theorem channel_pwmUpdateParam {channel : Fin 6} (addressed : param.channel = UInt8.ofNat channel)
    (driver : Driver) :
    (pwmUpdateParam param driver).1.channel =
      Function.update driver.channel channel
        (Command.effect (driver.channel channel) (.updateParam param)) := by
  have selected := working_select driver channel
  rw [← addressed] at selected
  have written : Working driver channel _ (writeDuties param (driver.select param.channel)) :=
    selected.writeAll param.duties
  have pending : (driver.select param.channel).ctrl &&&
      cfgUpdataMask (driver.select param.channel).currentChannel = 0 ↔
        (driver.channel channel).control &&& 0x80#8 = 0 := by
    rw [(masks_of_selected selected.selected).2.2, ← selected.control_eq]
    exact and_placeByte_eq_zero (by omega) _ _
  simp only [pwmUpdateParam, refused_iff, ite_not, ne_eq, pending, Command.effect]
  by_cases accepted : Accepted param
  · by_cases free : (driver.channel channel).control &&& 0x80#8 = 0
    · rw [if_pos accepted, if_pos free, if_pos ⟨accepted, free⟩, written.channel_eq]
    · rw [if_pos accepted, if_neg free, if_neg fun both => free both.2, selected.channel_eq]
  · rw [if_neg accepted, if_neg fun both => accepted both.1, Function.update_eq_self]

theorem channel_bits (driver : Driver) (channel : Fin 6) :
    (pwmUnitEnable (UInt8.ofNat channel) driver).1.channel =
        Function.update driver.channel channel
          { driver.channel channel with control := (driver.channel channel).control ||| 0x08#8 } ∧
      (pwmUnitDisable (UInt8.ofNat channel) driver).1.channel =
        Function.update driver.channel channel
          { driver.channel channel with
            control := (driver.channel channel).control &&& ~~~0x08#8 } ∧
      (pwmInitLevlSetLow (UInt8.ofNat channel) driver).1.channel =
        Function.update driver.channel channel
          { driver.channel channel with
            control := (driver.channel channel).control &&& ~~~0x40#8 } ∧
      (pwmInitLevlSetHigh (UInt8.ofNat channel) driver).1.channel =
        Function.update driver.channel channel
          { driver.channel channel with control := (driver.channel channel).control ||| 0x40#8 } ∧
      (pwmUpdateParamEnable (UInt8.ofNat channel) driver).1.channel =
        Function.update driver.channel channel
          { driver.channel channel with
            control := (driver.channel channel).control ||| 0x80#8 } := by
  have selected := working_select driver channel
  obtain ⟨enable, level, updata⟩ := masks_of_selected selected.selected
  obtain ⟨inside, below⟩ := number_inside channel
  simp only [pwmUnitEnable, pwmUnitDisable, pwmInitLevlSetLow, pwmInitLevlSetHigh,
    pwmUpdateParamEnable, if_neg inside, if_neg below, enable, level, updata]
  exact ⟨(selected.setBits _).channel_eq, (selected.clearBits _).channel_eq,
    (selected.clearBits _).channel_eq, (selected.setBits _).channel_eq,
    (selected.setBits _).channel_eq⟩

theorem channel_pwmCtrl (driver : Driver) {command : Command} {channel : Fin 6}
    (addressed : (Event.ctrl command).channel = UInt8.ofNat channel) :
    (pwmCtrl driver command).1.channel =
      Function.update driver.channel channel (command.effect (driver.channel channel)) := by
  obtain ⟨enabled, disabled, lowered, raised, updated⟩ := channel_bits driver
    channel
  obtain ⟨inside, below⟩ := number_inside channel
  cases command with
  | unitEnable number =>
      simp only [Event.channel] at addressed
      simp [pwmCtrl, addressed, Command.effect, enabled]
  | unitDisable number =>
      simp only [Event.channel] at addressed
      simp only [pwmCtrl, addressed, Command.effect]
      rw [(working_pwmParamClear _ channel).channel_eq, disabled, Function.update_self,
        Function.update_idem]
  | irClear number =>
      simp only [Event.channel] at addressed
      simp only [pwmCtrl, Command.effect]
      by_cases outside : number > 5
      · rw [if_pos outside, if_pos outside, Function.update_eq_self]
      · rw [if_neg outside, if_neg outside]
        exact channel_updateHandler addressed driver 0
  | initParam param => exact channel_initPwmParam addressed true driver
  | deinitParam param => exact channel_initPwmParam addressed false driver
  | setDutyCycle param =>
      simp only [Event.channel] at addressed
      simp only [pwmCtrl, addressed, if_neg below, Command.effect]
      exact (Working.setT driver channel 0 param.dutyCycle1).channel_eq
  | setEndValue param =>
      simp only [Event.channel] at addressed
      simp only [pwmCtrl, addressed, if_neg below, Command.effect]
      exact (Working.setT driver channel 3 param.endValue).channel_eq
  | updateParam param => exact channel_pwmUpdateParam addressed driver
  | updateParamEnable number =>
      simp only [Event.channel] at addressed
      simp [pwmCtrl, addressed, Command.effect, updated]
  | initLevlSetLow number =>
      simp only [Event.channel] at addressed
      simp [pwmCtrl, addressed, Command.effect, lowered]
  | initLevlSetHigh number =>
      simp only [Event.channel] at addressed
      simp [pwmCtrl, addressed, Command.effect, raised]

/-- What an event does to the channel it addresses. -/
def Event.effect (own : Channel) : Event → Channel
  | .ctrl command => command.effect own
  | .taken _ => { own with control := own.control &&& ~~~0x80#8 }
  | .interrupt _ => own

theorem channel_apply (driver : Driver) {channel : Fin 6}
    (addressed : event.channel = UInt8.ofNat channel) :
    (event.apply driver).channel =
      Function.update driver.channel channel (event.effect (driver.channel channel)) := by
  cases event with
  | ctrl command => exact channel_pwmCtrl driver addressed
  | taken number =>
      obtain rfl := number_inj.mp addressed
      have mask : ∀ own : Fin 6, cfgUpdataMask (UInt8.ofNat (own.val % 2)) =
          placeByte (own.val % 2) 0x80#8 := by decide
      simp only [Event.apply, Driver.changeCtrl, mask]
      refine channel_updateCtrl driver number ?_ ?_
      · rw [byteField_and_not_placeByte (by omega), if_pos rfl]
        rfl
      · intro index low different
        rw [byteField_and_not_placeByte (by omega), if_neg different]
  | interrupt number =>
      obtain rfl := number_inj.mp addressed
      have clear : ∀ own : Fin 6, ∀ index < 2,
          byteField index (intStatClear (UInt8.ofNat (own.val % 2))) = 0#8 := by decide
      simp only [Event.apply, Driver.changeCtrl]
      refine channel_updateCtrl driver number ?_ ?_
      · rw [byteField_or, clear number _ (Nat.mod_lt _ two_pos), BitVec.or_zero]
      · intro index low different
        rw [byteField_or, clear number index low, BitVec.or_zero]

theorem exists_channel (inside : number < pwmCount) :
    ∃ channel : Fin 6, number = UInt8.ofNat channel :=
  ⟨⟨number.toNat, UInt8.lt_iff_toNat_lt.mp inside⟩, by simp⟩

theorem targets_select_outside (outside : ¬number < pwmCount) (driver : Driver) :
    Targets (driver.select number) 5 := by
  have large : 6 ≤ number.toNat := by
    simpa [pwmCount, UInt8.lt_iff_toNat_lt] using outside
  have above₂ : ¬number < 2 := by
    rw [UInt8.lt_iff_toNat_lt]
    exact fun below => absurd below (by simp; omega)
  have above₄ : ¬number < 4 := by
    rw [UInt8.lt_iff_toNat_lt]
    exact fun below => absurd below (by simp; omega)
  rw [Driver.select, if_neg above₂, if_neg above₄]
  refine ⟨rfl, iff_of_false ?_ (by decide)⟩
  intro zero
  have wrapped : (256 - 4 + number.toNat) % 256 = 0 := congrArg UInt8.toNat zero
  have bounded := number.toNat_lt
  omega

/-- A command for a number that is none of a channel is refused, except that the disable command
clears T1 to T4 of the last channel. -/
theorem channel_outside (driver : Driver) (outside : ¬event.channel < pwmCount) :
    (event.apply driver).channel =
      match event with
      | .ctrl (.unitDisable _) =>
          Function.update driver.channel 5 { driver.channel 5 with t := fun _ => 0 }
      | _ => driver.channel := by
  have large : 6 ≤ event.channel.toNat := by
    simpa [pwmCount, UInt8.lt_iff_toNat_lt] using outside
  have above : event.channel > pwmChannelNumberMax := UInt8.lt_iff_toNat_lt.mpr large
  have reached : event.channel ≥ pwmCount := UInt8.not_lt.mp outside
  cases event with
  | ctrl command =>
      cases command with
      | unitDisable number =>
          simp only [Event.channel] at above outside
          simp only [Event.apply, pwmCtrl, pwmUnitDisable, if_pos above, pwmParamClear]
          rw [channel_writeAll (targets_select_outside outside driver) fun _ => 0,
            (select_frame driver _).1]
      | irClear number =>
          have beyond : number > 5 := by
            have : 6 ≤ number.toNat % 256 := large
            exact UInt32.lt_iff_toNat_lt.mpr (by simp; omega)
          simp [Event.apply, pwmCtrl, if_pos beyond]
      | initParam param | deinitParam param =>
          simp only [Event.channel] at reached
          simp [Event.apply, pwmCtrl, initPwmParam, if_pos (Or.inl reached)]
      | updateParam param =>
          simp only [Event.channel] at reached
          simp [Event.apply, pwmCtrl, pwmUpdateParam, if_pos (Or.inl reached)]
      | setDutyCycle param | setEndValue param =>
          simp only [Event.channel] at reached
          simp [Event.apply, pwmCtrl, if_pos reached]
      | unitEnable number | initLevlSetLow number | initLevlSetHigh number =>
          simp only [Event.channel] at above
          simp [Event.apply, pwmCtrl, pwmUnitEnable, pwmInitLevlSetLow, pwmInitLevlSetHigh,
            if_pos above]
      | updateParamEnable number =>
          simp only [Event.channel] at reached
          simp [Event.apply, pwmCtrl, pwmUpdateParamEnable, if_pos reached]
  | taken number | interrupt number =>
      exact absurd (UInt8.not_le.mp (number_inside number).2) outside

@[simp]
theorem periClkPwd_write (driver : Driver) (register : Register) (value : BitVec 32) :
    (driver.write register value).periClkPwd = driver.periClkPwd := by
  cases register <;> rfl

@[simp]
theorem periClkPwd_writeCtrl (driver : Driver) (value : BitVec 32) :
    (driver.writeCtrl value).periClkPwd = driver.periClkPwd := periClkPwd_write driver _ value

@[simp]
theorem periClkPwd_writeT (driver : Driver) (index : Fin 4) (value : BitVec 32) :
    (driver.writeT index value).periClkPwd = driver.periClkPwd := by
  unfold Driver.writeT
  split <;> exact periClkPwd_write driver _ value

@[simp]
theorem periClkPwd_select (driver : Driver) (number : UInt8) :
    (driver.select number).periClkPwd = driver.periClkPwd := (select_frame driver number).2

theorem periClkPwd_configure (param : PwmParam) (driver : Driver) :
    (configure param driver).periClkPwd = driver.periClkPwd := by
  simp [configure, setIntEn, setIntHandler, clearIntStatus, writeDuties, setMode]

theorem periClkPwd_apply (driver : Driver)
    (other : ∀ param, event ≠ .ctrl (.initParam param) ∧ event ≠ .ctrl (.deinitParam param)) :
    (event.apply driver).periClkPwd = driver.periClkPwd := by
  cases event with
  | taken number | interrupt number => rfl
  | ctrl command =>
      cases command with
      | initParam param => exact absurd rfl (other param).1
      | deinitParam param => exact absurd rfl (other param).2
      | unitDisable number =>
          simp only [Event.apply, pwmCtrl, pwmParamClear, pwmUnitDisable]
          split <;> simp
      | updateParam param =>
          simp only [Event.apply, pwmCtrl, pwmUpdateParam, writeDuties]
          split
          · rfl
          split <;> simp
      | unitEnable number | updateParamEnable number | initLevlSetLow number
      | initLevlSetHigh number | irClear number | setDutyCycle param | setEndValue param =>
          simp only [Event.apply, pwmCtrl, pwmUnitEnable, pwmUpdateParamEnable, pwmInitLevlSetLow,
            pwmInitLevlSetHigh, pwmIntHandlerClear, pwmSetDutyCycle, pwmSetEndValue, setT]
          split <;> simp

theorem clockBit_apart (own other : Fin 6) :
    ~~~clockBit own &&& clockBit other =
        (if group own = group other then 0#32 else clockBit other) ∧
      (clockBit own &&& clockBit other = 0#32 ↔ group own ≠ group other) := by
  revert own other
  decide

theorem powered_iff {channel : Fin 6} :
    driver.Powered channel ↔ driver.periClkPwd &&& clockBit channel = 0#32 := by
  simp [Driver.Powered, pwdClkBit_eq]

theorem powered_initPwmParam {own : Fin 6} (accepted : Accepted param)
    (addressed : param.channel = UInt8.ofNat own) (enable : Bool) (driver : Driver)
    (channel : Fin 6) :
    (initPwmParam param enable driver).1.Powered channel ↔
      if group own = group channel then enable = true else driver.Powered channel := by
  obtain ⟨kept, apart⟩ := clockBit_apart own channel
  rw [powered_iff, powered_iff, initPwmParam_eq, if_pos accepted,
    (pwmIcuConfiguration_spec (addressed ▸ pwdClkBit_eq own) enable _).2, periClkPwd_configure]
  cases enable with
  | true =>
      rw [if_pos rfl, BitVec.and_assoc, kept]
      split <;> simp
  | false =>
      rw [if_neg Bool.false_ne_true, BitVec.and_or_distrib_right, BitVec.or_eq_zero_iff, apart]
      split <;> simp [*]

theorem group_eq_iff {own channel : Fin 6} :
    group own = group channel ↔ channel = own ∨ channel = partner own := by
  revert own channel
  decide

theorem partner_ne (channel : Fin 6) : partner channel ≠ channel := by
  revert channel
  decide

def alone (start : Driver) (events : List Event) (channel : Fin 6) : Tracked :=
  pwm.run (.start start) (events.filter fun event => event.channel = UInt8.ofNat channel)

/-- Every channel is as if the events addressed to other channels had not happened, and the clock
of every initialised one runs. -/
structure Apart (start : Driver) (events : List Event) (tracked : Tracked) : Prop where
  channel_eq : ∀ channel,
    tracked.driver.channel channel = (alone start events channel).driver.channel channel
  initialised_eq : ∀ channel,
    tracked.initialised channel = (alone start events channel).initialised channel
  powered : ∀ channel, tracked.initialised channel = true → tracked.driver.Powered channel
  alone_powered : ∀ channel, tracked.initialised channel = true →
    (alone start events channel).driver.Powered channel

theorem Apart.separate {start : Driver} {events : List Event} (apart : Apart start events tracked) :
    Separate start events tracked := by
  intro channel
  show tracked.observe channel = (alone start events channel).observe channel
  simp only [Tracked.observe, ← apart.channel_eq, ← apart.initialised_eq]
  by_cases on : tracked.initialised channel = true
  · simp [on, apart.powered channel on, apart.alone_powered channel on]
  · simp only [on]
    rfl

theorem alone_append (start : Driver) (events : List Event) (event : Event) (channel : Fin 6) :
    alone start (events ++ [event]) channel =
      if event.channel = UInt8.ofNat channel then
        (pwm.step (alone start events channel) event).1
      else alone start events channel := by
  rw [alone, List.filter_append, Machine.run_append]
  by_cases addressed : event.channel = UInt8.ofNat channel
  · simp [alone, addressed]
  · simp [alone, addressed]

theorem initialisedAfter_other {channel : Fin 6} (other : event.channel ≠ UInt8.ofNat channel)
    (initialised : Fin 6 → Bool) :
    initialisedAfter initialised event channel = initialised channel := by
  unfold initialisedAfter
  split
  · exact if_neg fun both => other both.2
  · exact if_neg fun both => other both.2
  · rfl

theorem initialisedAfter_congr {initialised initialised' : Fin 6 → Bool} {channel : Fin 6}
    (same : initialised channel = initialised' channel) (event : Event) :
    initialisedAfter initialised event channel = initialisedAfter initialised' event channel := by
  unfold initialisedAfter
  split <;> simp [same]

theorem channel_other (independent : Independent tracked event) {channel : Fin 6}
    (other : event.channel ≠ UInt8.ofNat channel) :
    (event.apply tracked.driver).channel channel = tracked.driver.channel channel := by
  by_cases inside : event.channel < pwmCount
  · obtain ⟨own, addressed⟩ := exists_channel inside
    have different : channel ≠ own := by
      rintro rfl
      exact other addressed
    rw [channel_apply tracked.driver addressed, Function.update_of_ne different]
  · have above : event.channel > pwmChannelNumberMax :=
      UInt8.lt_of_lt_of_le (by decide) (UInt8.not_lt.mp inside)
    rw [channel_outside tracked.driver inside]
    split
    · have zero : (tracked.driver.channel 5).t = fun _ => 0 := funext (independent above)
      rw [← zero, Function.update_eq_self]
    · rfl

/-- A channel that is initialised after an event has its clock running, unless the event stops the
clock of the other channel of the group. -/
theorem powered_step {channel : Fin 6}
    (alive : ∀ param, ∀ own : Fin 6, event = .ctrl (.deinitParam param) → Accepted param →
      param.channel = UInt8.ofNat own → channel = partner own →
        tracked.initialised channel = false)
    (powered : tracked.initialised channel = true → tracked.driver.Powered channel)
    (on : initialisedAfter tracked.initialised event channel = true) :
    (event.apply tracked.driver).Powered channel := by
  by_cases switching :
      ∃ param, event = .ctrl (.initParam param) ∨ event = .ctrl (.deinitParam param)
  · obtain ⟨param, switching⟩ := switching
    by_cases accepted : Accepted param
    · obtain ⟨own, addressed⟩ := exists_channel accepted.1
      rcases switching with rfl | rfl
      · refine (powered_initPwmParam accepted addressed true _ _).mpr ?_
        split
        · rfl
        · rename_i elsewhere
          have different : (Event.ctrl (.initParam param)).channel ≠ UInt8.ofNat channel := by
            intro same
            exact elsewhere (by rw [number_inj.mp (addressed.symm.trans same)])
          rw [initialisedAfter_other different] at on
          exact powered on
      · have different : (Event.ctrl (.deinitParam param)).channel ≠ UInt8.ofNat channel := by
          intro same
          simp [initialisedAfter, accepted, show param.channel = _ from same] at on
        rw [initialisedAfter_other different] at on
        refine (powered_initPwmParam accepted addressed false _ _).mpr ?_
        rw [if_neg]
        · exact powered on
        · rw [group_eq_iff]
          rintro (rfl | shared)
          · exact different addressed
          · exact Bool.false_ne_true ((alive param own rfl accepted addressed shared).symm.trans on)
    · rcases switching with rfl | rfl <;>
      · simp only [initialisedAfter, accepted, false_and, if_false] at on
        simpa only [Event.apply, pwmCtrl, initPwmParam_eq, if_neg accepted] using powered on
  · simp only [not_exists, not_or] at switching
    rw [powered_iff, periClkPwd_apply tracked.driver switching, ← powered_iff]
    refine powered ?_
    unfold initialisedAfter at on
    split at on
    · exact absurd rfl (switching _).1
    · exact absurd rfl (switching _).2
    · exact on

theorem apart_start (driver : Driver) : Apart driver [] (.start driver) where
  channel_eq _ := rfl
  initialised_eq _ := rfl
  powered _ on := absurd on Bool.false_ne_true
  alone_powered _ on := absurd on Bool.false_ne_true

section
variable {start : Driver} {events : List Event} {tracked : Tracked}

theorem Apart.step (apart : Apart start events tracked) (event : Event)
    (independent : Independent tracked event) :
    Apart start (events ++ [event]) (pwm.step tracked event).1 where
  channel_eq channel := by
    rw [alone_append]
    split
    · rename_i addressed
      show (event.apply tracked.driver).channel channel =
        (event.apply (alone start events channel).driver).channel channel
      rw [channel_apply _ addressed, channel_apply _ addressed, Function.update_self,
        Function.update_self, apart.channel_eq]
    · rename_i other
      exact (channel_other independent other).trans (apart.channel_eq channel)
  initialised_eq channel := by
    rw [alone_append]
    split
    · exact initialisedAfter_congr (apart.initialised_eq channel) event
    · rename_i other
      exact (initialisedAfter_other other _).trans (apart.initialised_eq channel)
  powered channel on := by
    refine powered_step ?_ (apart.powered channel) on
    rintro param own rfl accepted addressed rfl
    exact independent own accepted addressed
  alone_powered channel on := by
    have same := apart.initialised_eq channel
    rw [alone_append]
    split
    · rename_i addressed
      refine powered_step ?_ (fun alone_on => apart.alone_powered channel (same.trans alone_on))
        ((initialisedAfter_congr same event).symm.trans on)
      rintro param own rfl - addressed' shared
      obtain rfl := number_inj.mp (addressed'.symm.trans addressed)
      exact absurd shared.symm (partner_ne own)
    · rename_i other
      exact apart.alone_powered channel ((initialisedAfter_other other _).symm.trans on)

theorem Apart.independent_of_separate (apart : Apart start events tracked) {event : Event}
    (separate : Separate start (events ++ [event]) (pwm.step tracked event).1) :
    Independent tracked event := by
  have seen (channel : Fin 6) (other : event.channel ≠ UInt8.ofNat channel) :
      (pwm.step tracked event).1.observe channel = tracked.observe channel := by
    refine (separate channel).trans ?_
    show (alone start (events ++ [event]) channel).observe channel = _
    rw [alone_append, if_neg other]
    exact (apart.separate channel).symm
  unfold Independent
  split
  · rename_i param
    intro own accepted addressed
    have other : (Event.ctrl (.deinitParam param)).channel ≠ UInt8.ofNat (partner own) := by
      intro same
      exact partner_ne own (number_inj.mp (same.symm.trans addressed))
    by_contra on
    rw [Bool.not_eq_false] at on
    have clocks := congrArg Observed.powered (seen (partner own) other)
    have stays : initialisedAfter tracked.initialised (.ctrl (.deinitParam param)) (partner own) =
        true := (initialisedAfter_other other _).trans on
    have stopped : ¬(Event.apply tracked.driver (.ctrl (.deinitParam param))).Powered
        (partner own) := by
      refine (powered_initPwmParam accepted addressed false tracked.driver _).not.mpr ?_
      rw [if_pos (group_eq_iff.mpr (Or.inr rfl))]
      exact Bool.false_ne_true
    have running := apart.powered (partner own) on
    simp [Tracked.observe, pwm, stays, on, stopped, running] at clocks
  · rename_i number
    intro above index
    have outside : ¬(Event.ctrl (.unitDisable number)).channel < pwmCount := by
      intro below
      obtain ⟨own, addressed⟩ := exists_channel below
      exact (number_inside own).1 (addressed ▸ above)
    have other : (Event.ctrl (.unitDisable number)).channel ≠ UInt8.ofNat (5 : Fin 6) := by
      intro same
      exact outside (by rw [same]; decide)
    have duties := congrArg Observed.t (seen 5 other)
    simp only [Tracked.observe, pwm, channel_outside tracked.driver outside,
      Function.update_self] at duties
    rw [← duties]
  · trivial

end

/-- Every channel is determined by the commands addressed to it, as long as no command stops the
clock of an initialised channel and no disable command clears the T registers of the last one. -/
theorem channels_separate_iff (driver : Driver) (events : List Event) :
    (∀ front, front <+: events → Separate driver front (pwm.run (.start driver) front)) ↔
      pwm.Always Independent (.start driver) events :=
  pwm.forall_history_iff_always_of_strong Independent
    (fun inputs _ => Separate driver inputs) (fun inputs _ => Apart driver inputs)
    Apart.separate
    (fun _ apart => ⟨apart.independent_of_separate, fun meets => (apart.step _ meets).separate⟩)
    (fun _ apart meets => apart.step _ meets) (apart_start driver) events

/-- The unit after reset: all clocks are stopped. -/
def reset : Driver where
  currentChannel := 0
  currentGroup := 0
  intHandler _ := 0
  reg _ := 0
  periClkPwd := 0xFFFFFFFF#32
  periClkMux := 0
  pwmClkMux := 0
  interruptEnable := 0

/-- A signal that is high for 500 of 1000 ticks. -/
def halfDuty (channel : UInt8) : PwmParam where
  channel
  mode := 1
  intEn := 0
  clk := 1
  endValue := 1000
  dutyCycle1 := 500
  dutyCycle2 := 0
  dutyCycle3 := 0
  intHandler := 0

/-- Channels 0 and 1 are initialised, and then channel 1 is de-initialised. -/
def sharedClock : List Event :=
  [.ctrl (.initParam (halfDuty 0)), .ctrl (.initParam (halfDuty 1)),
    .ctrl (.deinitParam (halfDuty 1))]

/-- Channel 5 is initialised, and then a channel 6 is disabled. -/
def missingChannel : List Event := [.ctrl (.initParam (halfDuty 5)), .ctrl (.unitDisable 6)]

theorem accepted_halfDuty (channel : Fin 6) : Accepted (halfDuty (UInt8.ofNat channel)) :=
  ⟨UInt8.not_le.mp (number_inside channel).2, by show 500#32 ≤ 1000#32; decide⟩

/-- De-initialising channel 1 stops the clock of channel 0 while that is initialised, and disabling
a channel 6 is refused but clears T1 of channel 5. -/
theorem channels_not_separate :
    ((pwm.run (.start reset) sharedClock).initialised 0 = true ∧
        ¬(pwm.run (.start reset) sharedClock).driver.Powered 0 ∧
        (pwm.run (.start reset) (sharedClock.take 2)).driver.Powered 0 ∧
        ¬Separate reset sharedClock (pwm.run (.start reset) sharedClock)) ∧
      ((pwm.run (.start reset) missingChannel).driver.channel 5).t 0 = 0 ∧
        ((pwm.run (.start reset) (missingChannel.take 1)).driver.channel 5).t 0 = 500 ∧
        ¬Separate reset missingChannel (pwm.run (.start reset) missingChannel) := by
  have accepted₁ := accepted_halfDuty 1
  have first := (apart_start reset).step (.ctrl (.initParam (halfDuty 0))) trivial
  have both := first.step (.ctrl (.initParam (halfDuty 1))) trivial
  have last := (apart_start reset).step (.ctrl (.initParam (halfDuty 5))) trivial
  have duties : ((pwm.run (.start reset) (missingChannel.take 1)).driver.channel 5).t 0 = 500 := by
    have addressed : (halfDuty 5).channel = UInt8.ofNat (5 : Fin 6) := rfl
    have set := channel_initPwmParam addressed true reset
    rw [if_pos (show Accepted (halfDuty 5) from accepted_halfDuty 5)] at set
    exact congrFun (congrArg Channel.t ((congrFun set 5).trans (Function.update_self ..))) 0
  refine ⟨⟨by decide, ?_, ?_, ?_⟩, ?_, duties, ?_⟩
  · have addressed : (halfDuty 1).channel = UInt8.ofNat (1 : Fin 6) := rfl
    exact (powered_initPwmParam accepted₁ addressed false _ 0).not.mpr (by decide)
  · exact both.powered 0 (by decide)
  · intro separate
    exact absurd (both.independent_of_separate separate 1 accepted₁ rfl) (by decide)
  · have outside : ¬(Event.ctrl (.unitDisable 6)).channel < pwmCount := by decide
    have cleared := channel_outside (pwm.run (.start reset) (missingChannel.take 1)).driver outside
    exact congrFun (congrArg Channel.t ((congrFun cleared 5).trans (Function.update_self ..))) 0
  · intro separate
    have zero := last.independent_of_separate separate (by decide) 0
    exact absurd (duties.symm.trans zero) (by decide)

end BdkFreertos.Pwm
