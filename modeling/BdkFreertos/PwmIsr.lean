import BdkFreertos.Pwm
import BdkFreertos.StatusRegister

/-!
# The interrupt of the PWM groups

The interrupt routine reads the control register of a group once, calls the handlers of the channels
whose status bits are set and clears these bits, and at the end writes the word that it read.  The
handlers change the same registers meanwhile.
-/

namespace BdkFreertos.Pwm

open StatusRegister

/-! ### All of `pwm_ctrl` -/

/-- `PWM_GROUP_PWM_GROUP_MODE_MASK | PWM_GROUP_PWM_GROUP_MODE_ENABLE_MASK`. -/
def groupModeMask : BitVec 32 := 1#32 <<< 24 ||| 1#32 <<< 25

/-- `PWM_GROUP_PWM_ENABLE_MASK` of both channels. -/
def bothEnableMask : BitVec 32 := enableMask 0 ||| enableMask 1

/-- The group of a channel number, and the channel within it. -/
def groupOf (number : UInt8) : UInt8 := if number < 2 then 0 else if number < 4 then 1 else 2

def channelOf (number : UInt8) : UInt8 :=
  if number < 2 then number else if number < 4 then number - 2 else number - 4

def pwmGroupEnable (number : UInt8) (driver : Driver) : Driver × Result :=
  if number > pwmChannelNumberMax then
    (driver, .errParam)
  else
    let driver := { driver with currentGroup := groupOf number }
    (driver.writeCtrl (driver.ctrl ||| bothEnableMask), .success)

def pwmGroupModeDisable (number : UInt8) (driver : Driver) : Driver × Result :=
  if number > pwmChannelNumberMax then
    (driver, .errParam)
  else
    let driver := { driver with currentGroup := groupOf number }
    (driver.writeCtrl (driver.ctrl &&& ~~~(bothEnableMask ||| groupModeMask)), .success)

/-- There is no check of the channel before the mode is set. -/
def pwmGroupModeEnable (number : UInt8) (driver : Driver) : Driver × Result :=
  let driver : Driver :=
    if number < 2 then { driver with currentGroup := 0, currentChannel := number }
    else { driver with currentGroup := groupOf number }
  pwmGroupEnable number (driver.writeCtrl (driver.ctrl ||| groupModeMask))

/-- The commands of `pwm_ctrl`. -/
inductive Call
  | single (command : Command)
  | groupEnable (number : UInt32)
  | groupDisable (number : UInt32)
  | capGet (number : UInt8)

/-- `pwm_ctrl`.  Of `pwm_capture_value_get` the selection is kept; it writes no control register. -/
def Call.apply (driver : Driver) : Call → Driver
  | .single command => (pwmCtrl driver command).1
  | .groupEnable number => (pwmGroupModeEnable number.toUInt8 driver).1
  | .groupDisable number => (pwmGroupModeDisable number.toUInt8 driver).1
  | .capGet number => if number ≥ pwmCount then driver else driver.select number

def applyCalls (calls : List Call) (driver : Driver) : Driver := calls.foldl Call.apply driver

/-! ### The interrupt -/

def Driver.groupCtrl (driver : Driver) (group : ℕ) : BitVec 32 :=
  driver.reg (.groupCtrl (UInt8.ofNat group))

section
variable (code : UInt32 → UInt8 → List Call)

/-- A channel of a group in `pwm_isr`; a handler is known by the calls it makes for a channel.  The
loop that clears the status bit is its first round: see `status_cleared_by_write`. -/
def serveChannel (status : BitVec 32) (group i : ℕ) (driver : Driver) : Driver :=
  let number := UInt8.ofNat (i + 2 * group)
  let handler := driver.intHandler number
  if status &&& intStatClear (UInt8.ofNat i) ≠ 0 then
    if handler ≠ 0 then
      (applyCalls (code handler number) driver).write (.groupCtrl (UInt8.ofNat group))
        (intStatClear (UInt8.ofNat i))
    else driver
  else driver

/-- A group in `pwm_isr`. -/
def serveGroup (group : ℕ) (driver : Driver) : Driver :=
  let status := driver.groupCtrl group
  let driver := serveChannel code status group 0 driver
  let driver := serveChannel code status group 1 driver
  driver.write (.groupCtrl (UInt8.ofNat group)) status

/-- The first groups in `pwm_isr`. -/
def served (driver : Driver) : ℕ → Driver
  | 0 => driver
  | group + 1 => serveGroup code group (served driver group)

def pwmIsr (driver : Driver) : Driver := served code driver 3

/-! ### The handlers alone -/

/-- The calls of the handler of a channel, if it is called. -/
def channelCalls (status : BitVec 32) (group i : ℕ) (driver : Driver) : List Call :=
  let number := UInt8.ofNat (i + 2 * group)
  if status &&& intStatClear (UInt8.ofNat i) ≠ 0 ∧ driver.intHandler number ≠ 0 then
    code (driver.intHandler number) number
  else []

/-- The calls of the handlers of a group. -/
def groupCalls (group : ℕ) (driver : Driver) : List Call :=
  let first := channelCalls code (driver.groupCtrl group) group 0 driver
  first ++ channelCalls code (driver.groupCtrl group) group 1 (applyCalls first driver)

/-- What the handlers of the first groups leave. -/
def handled (driver : Driver) : ℕ → Driver
  | 0 => driver
  | group + 1 => applyCalls (groupCalls code group (handled driver group)) (handled driver group)

/-- What the calls of the handlers leave, when nothing else writes a register. -/
def handlersAlone (driver : Driver) : Driver := handled code driver 3

/-- The calls of the handlers of later groups. -/
def laterCalls (driver : Driver) (group : ℕ) : List Call :=
  (List.range' (group + 1) (2 - group)).flatMap fun later =>
    groupCalls code later (handled code driver later)

/-! ### The purpose -/

/-- The mode, enable, interrupt enable, level and update bits of both channels. -/
def configMask : BitVec 32 := 0xDFDF#32

/-- The interrupt keeps what the handlers do to the registers and clears what was pending. -/
structure LosesNothing (driver : Driver) : Prop where
  config : ∀ group < 3, ∀ bit, configMask.getLsbD bit = true →
    ((pwmIsr code driver).groupCtrl group).getLsbD bit =
      ((handlersAlone code driver).groupCtrl group).getLsbD bit
  cleared : ∀ group < 3, ∀ bit, intStatMask.getLsbD bit = true →
    (driver.groupCtrl group).getLsbD bit = true →
      ((pwmIsr code driver).groupCtrl group).getLsbD bit = false

end

/-! ### What a call does to the control registers -/

/-- The changes of a command to the register of its group. -/
def Command.changes (command : Command) : List (Change 32) :=
  let channel := channelOf (Event.ctrl command).channel
  match command with
  | .unitEnable number =>
      if number.toUInt8 > pwmChannelNumberMax then [] else [⟨0, enableMask channel⟩]
  | .unitDisable number =>
      if number.toUInt8 > pwmChannelNumberMax then [] else [⟨enableMask channel, 0⟩]
  | .irClear _ | .updateParam _ => []
  | .initParam param | .deinitParam param =>
      if Accepted param then
        [⟨7#32 <<< modeSetBit channel, param.mode.setWidth 32 <<< modeSetBit channel⟩,
          ⟨0, intStatClear channel⟩,
          ⟨1#32 <<< intEnableBit channel, param.intEn.setWidth 32 <<< intEnableBit channel⟩]
      else []
  | .setDutyCycle param | .setEndValue param =>
      if param.channel ≥ pwmCount then [] else [⟨0, cfgUpdataMask channel⟩]
  | .updateParamEnable number =>
      if number.toUInt8 ≥ pwmCount then [] else [⟨0, cfgUpdataMask channel⟩]
  | .initLevlSetLow number =>
      if number.toUInt8 > pwmChannelNumberMax then [] else [⟨intLevlMask channel, 0⟩]
  | .initLevlSetHigh number =>
      if number.toUInt8 > pwmChannelNumberMax then [] else [⟨0, intLevlMask channel⟩]

/-- The group of a call and its changes to the register. -/
def Call.group : Call → UInt8
  | .single command => groupOf (Event.ctrl command).channel
  | .groupEnable number | .groupDisable number => groupOf number.toUInt8
  | .capGet number => groupOf number

def Call.changes : Call → List (Change 32)
  | .single command => command.changes
  | .groupEnable number =>
      ⟨0, groupModeMask⟩ ::
        if number.toUInt8 > pwmChannelNumberMax then [] else [⟨0, bothEnableMask⟩]
  | .groupDisable number =>
      if number.toUInt8 > pwmChannelNumberMax then [] else [⟨bothEnableMask ||| groupModeMask, 0⟩]
  | .capGet _ => []

def changesOn (group : ℕ) (calls : List Call) : List (Change 32) :=
  calls.flatMap fun call => if call.group = UInt8.ofNat group then call.changes else []

/-- What the handlers of a group do to its register is undone, unless those of a later group write
the bit again. -/
def Kept (code : UInt32 → UInt8 → List Call) (driver : Driver) : Prop :=
  ∀ group < 3, ∀ bit, configMask.getLsbD bit = true →
    ((handled code driver (group + 1)).groupCtrl group).getLsbD bit =
        ((handled code driver group).groupCtrl group).getLsbD bit ∨
      ∃ change ∈ changesOn group (laterCalls code driver group), change.Writes bit

section
variable {base driver : Driver} {group channel : UInt8} {changes : List (Change 32)}

/-- The registers of one group have been changed. -/
def Changed (base : Driver) (group : UInt8) (changes : List (Change 32)) (driver : Driver) : Prop :=
  ∀ g, driver.reg (.groupCtrl g) =
    if group = g then applyAll intStatMask changes (base.reg (.groupCtrl g))
    else base.reg (.groupCtrl g)

/-- Within a function that has selected a group and a channel. -/
structure Changing (base : Driver) (group channel : UInt8) (changes : List (Change 32))
    (driver : Driver) : Prop where
  group_eq : driver.currentGroup = group
  channel_eq : driver.currentChannel = channel
  changed : Changed base group changes driver

theorem changed_nothing (group : UInt8) : Changed driver group [] driver := by
  intro g
  rw [applyAll, List.foldl_nil, ite_self]

theorem changing_select (driver : Driver) (number : UInt8) :
    Changing driver (groupOf number) (channelOf number) [] (driver.select number) := by
  rw [Driver.select, groupOf, channelOf]
  split
  · exact ⟨rfl, rfl, changed_nothing _⟩
  · split
    · exact ⟨rfl, rfl, changed_nothing _⟩
    · exact ⟨rfl, rfl, changed_nothing _⟩

theorem reg_write_groupCtrl (driver : Driver) (group g : UInt8) (value : BitVec 32) :
    (driver.write (.groupCtrl group) value).reg (.groupCtrl g) =
      if group = g then stored intStatMask value (driver.reg (.groupCtrl g))
      else driver.reg (.groupCtrl g) := by
  rw [Driver.write]
  split
  · rename_i same
    rw [same]
    exact Function.update_self _ _ _
  · rename_i other
    exact Function.update_of_ne (fun equal => other (Register.groupCtrl.inj equal).symm) _ _

variable {change : Change 32} (mask word : BitVec 32)

theorem Changed.writeCtrl (changed : Changed base group changes driver)
    (group_eq : driver.currentGroup = group) {value : BitVec 32}
    (value_eq : change.value driver.ctrl = value) :
    Changed base group (changes ++ [change]) (driver.writeCtrl value) := by
  intro g
  rw [Driver.writeCtrl, group_eq, reg_write_groupCtrl, ← value_eq, Driver.ctrl, group_eq]
  split
  · rename_i same
    rw [applyAll_append, changed g, if_pos same, ← same]
    rw [changed group, if_pos rfl]
    rfl
  · rename_i other
    rw [changed g, if_neg other]

theorem Changing.writeCtrl (changing : Changing base group channel changes driver)
    {value : BitVec 32} (value_eq : change.value driver.ctrl = value) :
    Changing base group channel (changes ++ [change]) (driver.writeCtrl value) :=
  ⟨changing.group_eq, changing.channel_eq, changing.changed.writeCtrl changing.group_eq value_eq⟩

theorem reg_writeT_groupCtrl (driver : Driver) (index : Fin 4) (value : BitVec 32) (g : UInt8) :
    (driver.writeT index value).reg (.groupCtrl g) = driver.reg (.groupCtrl g) := by
  rw [Driver.writeT]
  split <;> simp [Driver.write]

theorem Changing.writeT (changing : Changing base group channel changes driver) (index : Fin 4)
    (value : BitVec 32) :
    Changing base group channel changes (driver.writeT index value) := by
  refine ⟨?_, ?_, fun g => ?_⟩
  · rw [← changing.group_eq, Driver.writeT]
    split <;> rfl
  · rw [← changing.channel_eq, Driver.writeT]
    split <;> rfl
  · rw [reg_writeT_groupCtrl, changing.changed g]

theorem Changed.congr (changed : Changed base group changes driver) {driver' : Driver}
    (same : ∀ g, driver'.reg (.groupCtrl g) = driver.reg (.groupCtrl g)) :
    Changed base group changes driver' := fun g => (same g).trans (changed g)

@[simp]
theorem value_set : (⟨0, mask⟩ : Change 32).value word = word ||| mask := by
  show (word &&& ~~~0#32) ||| mask = word ||| mask
  rw [BitVec.not_zero, BitVec.and_allOnes]

@[simp]
theorem value_clear : (⟨mask, 0⟩ : Change 32).value word = word &&& ~~~mask :=
  BitVec.or_zero

theorem changed_select_writeCtrl (driver : Driver) (number : UInt8) (change : UInt8 → Change 32)
    {value : BitVec 32}
    (value_eq : (change (driver.select number).currentChannel).value (driver.select number).ctrl =
      value) :
    Changed driver (groupOf number) [change (channelOf number)]
      ((driver.select number).writeCtrl value) := by
  have changing := changing_select driver number
  rw [changing.channel_eq] at value_eq
  exact (changing.writeCtrl value_eq).changed

theorem changed_setT (driver : Driver) (index : Fin 4) (number : UInt8) (value : BitVec 32) :
    Changed driver (groupOf number) [⟨0, cfgUpdataMask (channelOf number)⟩]
      (setT index number value driver) := by
  have changing := (changing_select driver number).writeT index value
  have written := changing.writeCtrl (value_set (cfgUpdataMask (channelOf number)) _)
  rw [← changing.channel_eq] at written ⊢
  exact written.changed

theorem pwmIcuConfiguration_frame (param : PwmParam) (enable : Bool) (driver : Driver) :
    (pwmIcuConfiguration param enable driver).1.reg = driver.reg ∧
      (pwmIcuConfiguration param enable driver).1.intHandler = driver.intHandler := by
  have clock : (configureClock param driver).reg = driver.reg ∧
      (configureClock param driver).intHandler = driver.intHandler := by
    simp only [configureClock]
    split
    · exact ⟨rfl, rfl⟩
    · split <;> exact ⟨rfl, rfl⟩
  rw [pwmIcuConfiguration]
  split
  · exact ⟨rfl, rfl⟩
  · simp only [enableUnitInt, switchClock, configureClock]
    split <;> split <;> try split
    all_goals first | exact ⟨rfl, rfl⟩ | (split <;> exact ⟨rfl, rfl⟩)

theorem Changing.setMode (changing : Changing base group channel changes driver)
    (param : PwmParam) :
    Changing base group channel
      (changes ++
        [⟨7#32 <<< modeSetBit channel, param.mode.setWidth 32 <<< modeSetBit channel⟩])
      (setMode param driver) := by
  simp only [Pwm.setMode, changing.channel_eq]
  exact changing.writeCtrl rfl

theorem Changing.setIntEn (changing : Changing base group channel changes driver)
    (param : PwmParam) :
    Changing base group channel
      (changes ++
        [⟨1#32 <<< intEnableBit channel, param.intEn.setWidth 32 <<< intEnableBit channel⟩])
      (setIntEn param driver) := by
  simp only [Pwm.setIntEn, changing.channel_eq]
  exact changing.writeCtrl rfl

theorem Changing.clearIntStatus (changing : Changing base group channel changes driver) :
    Changing base group channel (changes ++ [⟨0, intStatClear channel⟩])
      (clearIntStatus driver) := by
  rw [Pwm.clearIntStatus, changing.channel_eq]
  exact changing.writeCtrl (value_set _ _)

theorem Changing.writeDuties (changing : Changing base group channel changes driver)
    (param : PwmParam) : Changing base group channel changes (writeDuties param driver) :=
  (((changing.writeT 0 param.dutyCycle1).writeT 1 param.dutyCycle2).writeT 2
    param.dutyCycle3).writeT 3 param.endValue

theorem Changing.setIntHandler (changing : Changing base group channel changes driver)
    (param : PwmParam) : Changing base group channel changes (setIntHandler param driver) :=
  ⟨changing.group_eq, changing.channel_eq, changing.changed⟩

theorem changing_configure (driver : Driver) (param : PwmParam) :
    Changing driver (groupOf param.channel) (channelOf param.channel)
      [⟨7#32 <<< modeSetBit (channelOf param.channel),
          param.mode.setWidth 32 <<< modeSetBit (channelOf param.channel)⟩,
        ⟨0, intStatClear (channelOf param.channel)⟩,
        ⟨1#32 <<< intEnableBit (channelOf param.channel),
          param.intEn.setWidth 32 <<< intEnableBit (channelOf param.channel)⟩]
      (configure param driver) := by
  have mode := (changing_select driver param.channel).setMode param
  have cleared := (mode.writeDuties param).clearIntStatus
  exact (cleared.setIntHandler param).setIntEn param

theorem changed_initPwmParam (driver : Driver) (param : PwmParam) (enable : Bool) :
    Changed driver (groupOf param.channel) (Command.initParam param).changes
      (initPwmParam param enable driver).1 := by
  rw [Command.changes, initPwmParam_eq]
  split
  · refine (changing_configure driver param).changed.congr fun g => ?_
    rw [(pwmIcuConfiguration_frame param enable _).1]
  · exact changed_nothing _

theorem reg_select (driver : Driver) (number : UInt8) :
    (driver.select number).reg = driver.reg := by
  rw [Driver.select]
  split
  · rfl
  · split <;> rfl

theorem reg_pwmParamClear_groupCtrl (driver : Driver) (number g : UInt8) :
    (pwmParamClear number driver).reg (.groupCtrl g) = driver.reg (.groupCtrl g) := by
  simp [pwmParamClear, reg_writeT_groupCtrl, reg_select]

theorem reg_pwmUpdateParam_groupCtrl (driver : Driver) (param : PwmParam) (g : UInt8) :
    (pwmUpdateParam param driver).1.reg (.groupCtrl g) = driver.reg (.groupCtrl g) := by
  rw [pwmUpdateParam]
  split
  · rfl
  · dsimp only
    split
    · rw [reg_select]
    · simp [writeDuties, reg_writeT_groupCtrl, reg_select]

theorem changed_pwmCtrl (driver : Driver) (command : Command) :
    Changed driver (groupOf (Event.ctrl command).channel) command.changes
      (pwmCtrl driver command).1 := by
  cases command with
  | unitEnable number =>
      rw [Command.changes, pwmCtrl, pwmUnitEnable]
      split
      · exact changed_nothing _
      · exact changed_select_writeCtrl driver _ (fun channel => ⟨0, enableMask channel⟩)
          (value_set _ _)
  | unitDisable number =>
      have disabled : Changed driver (groupOf number.toUInt8) (Command.unitDisable number).changes
          (pwmUnitDisable number.toUInt8 driver).1 := by
        rw [Command.changes, pwmUnitDisable]
        split
        · exact changed_nothing _
        · exact changed_select_writeCtrl driver _ (fun channel => ⟨enableMask channel, 0⟩)
            (value_clear _ _)
      intro g
      rw [pwmCtrl, reg_pwmParamClear_groupCtrl, disabled g]
      rfl
  | irClear number =>
      intro g
      rw [Command.changes, applyAll, List.foldl_nil, ite_self, pwmCtrl]
      split <;> rfl
  | initParam param => exact changed_initPwmParam driver param true
  | deinitParam param => exact changed_initPwmParam driver param false
  | setDutyCycle param =>
      rw [Command.changes, pwmCtrl]
      split
      · exact changed_nothing _
      · exact changed_setT driver 0 param.channel param.dutyCycle1
  | setEndValue param =>
      rw [Command.changes, pwmCtrl]
      split
      · exact changed_nothing _
      · exact changed_setT driver 3 param.channel param.endValue
  | updateParam param =>
      intro g
      rw [Command.changes, applyAll, List.foldl_nil, ite_self]
      exact reg_pwmUpdateParam_groupCtrl driver param g
  | updateParamEnable number =>
      rw [Command.changes, pwmCtrl, pwmUpdateParamEnable]
      split
      · exact changed_nothing _
      · exact changed_select_writeCtrl driver _ (fun channel => ⟨0, cfgUpdataMask channel⟩)
          (value_set _ _)
  | initLevlSetLow number =>
      rw [Command.changes, pwmCtrl, pwmInitLevlSetLow]
      split
      · exact changed_nothing _
      · exact changed_select_writeCtrl driver _ (fun channel => ⟨intLevlMask channel, 0⟩)
          (value_clear _ _)
  | initLevlSetHigh number =>
      rw [Command.changes, pwmCtrl, pwmInitLevlSetHigh]
      split
      · exact changed_nothing _
      · exact changed_select_writeCtrl driver _ (fun channel => ⟨0, intLevlMask channel⟩)
          (value_set _ _)

theorem Changed.chooseGroup (changed : Changed base group changes driver) :
    Changed base group changes { driver with currentGroup := group } :=
  changed

theorem Changed.pwmGroupEnable {number : UInt8}
    (changed : Changed base (groupOf number) changes driver) :
    Changed base (groupOf number)
      (changes ++ if number > pwmChannelNumberMax then [] else [⟨0, bothEnableMask⟩])
      (pwmGroupEnable number driver).1 := by
  rw [Pwm.pwmGroupEnable]
  split
  · rwa [List.append_nil]
  · exact changed.chooseGroup.writeCtrl rfl (value_set _ _)

theorem changed_pwmGroupModeEnable (driver : Driver) (number : UInt8) :
    Changed driver (groupOf number)
      (⟨0, groupModeMask⟩ ::
        if number > pwmChannelNumberMax then [] else [⟨0, bothEnableMask⟩])
      (pwmGroupModeEnable number driver).1 := by
  rw [pwmGroupModeEnable, ← List.singleton_append]
  apply Changed.pwmGroupEnable
  split
  · rename_i low
    have first : groupOf number = 0 := if_pos low
    rw [first]
    exact (changed_nothing 0).writeCtrl rfl (value_set _ _)
  · exact (changed_nothing (groupOf number)).writeCtrl rfl (value_set _ _)

theorem changed_pwmGroupModeDisable (driver : Driver) (number : UInt8) :
    Changed driver (groupOf number)
      (if number > pwmChannelNumberMax then [] else [⟨bothEnableMask ||| groupModeMask, 0⟩])
      (pwmGroupModeDisable number driver).1 := by
  rw [pwmGroupModeDisable]
  split
  · exact changed_nothing _
  · exact (changed_nothing (groupOf number)).chooseGroup.writeCtrl rfl (value_clear _ _)

theorem changed_apply (driver : Driver) (call : Call) :
    Changed driver call.group call.changes (call.apply driver) := by
  cases call with
  | single command => exact changed_pwmCtrl driver command
  | groupEnable number => exact changed_pwmGroupModeEnable driver number.toUInt8
  | groupDisable number => exact changed_pwmGroupModeDisable driver number.toUInt8
  | capGet number =>
      rw [Call.apply, Call.changes]
      split
      · exact changed_nothing _
      · exact (changing_select driver number).changed

end

/-! ### What a call does to the handlers -/

/-- The handlers after a call. -/
def Call.handlers (handlers : UInt8 → UInt32) : Call → UInt8 → UInt32
  | .single (.initParam param) | .single (.deinitParam param) =>
      if Accepted param then Function.update handlers param.channel param.intHandler else handlers
  | .single (.irClear number) =>
      if number > 5 then handlers else Function.update handlers number.toUInt8 0
  | _ => handlers

section
variable (driver : Driver) (number : UInt8)

@[simp]
theorem intHandler_select : (driver.select number).intHandler = driver.intHandler := by
  rw [Driver.select]
  split
  · rfl
  · split <;> rfl

@[simp]
theorem intHandler_write (register : Register) (value : BitVec 32) :
    (driver.write register value).intHandler = driver.intHandler := by
  cases register <;> rfl

@[simp]
theorem intHandler_writeCtrl (value : BitVec 32) :
    (driver.writeCtrl value).intHandler = driver.intHandler :=
  intHandler_write driver _ value

@[simp]
theorem intHandler_writeT (index : Fin 4) (value : BitVec 32) :
    (driver.writeT index value).intHandler = driver.intHandler := by
  rw [Driver.writeT]
  split <;> exact intHandler_write driver _ value

variable (calls : List Call) (param : PwmParam)

theorem intHandler_initPwmParam (enable : Bool) :
    (initPwmParam param enable driver).1.intHandler =
      if Accepted param then Function.update driver.intHandler param.channel param.intHandler
      else driver.intHandler := by
  rw [initPwmParam_eq]
  split
  · rw [(pwmIcuConfiguration_frame param enable _).2]
    simp [configure, setIntEn, setIntHandler, clearIntStatus, writeDuties, setMode]
  · rfl

theorem intHandler_pwmUpdateParam :
    (pwmUpdateParam param driver).1.intHandler = driver.intHandler := by
  rw [pwmUpdateParam]
  split
  · rfl
  · dsimp only
    split <;> simp [writeDuties]

theorem intHandler_pwmCtrl (command : Command) :
    (pwmCtrl driver command).1.intHandler = (Call.single command).handlers driver.intHandler := by
  cases command with
  | unitEnable number =>
      show (pwmUnitEnable number.toUInt8 driver).1.intHandler = driver.intHandler
      rw [pwmUnitEnable]
      split <;> simp
  | unitDisable number =>
      show (pwmParamClear number.toUInt8 (pwmUnitDisable number.toUInt8 driver).1).intHandler =
        driver.intHandler
      simp only [pwmParamClear, intHandler_writeT, intHandler_select]
      rw [pwmUnitDisable]
      split <;> simp
  | irClear number =>
      rw [pwmCtrl, Call.handlers]
      split <;> rfl
  | initParam param => exact intHandler_initPwmParam driver param true
  | deinitParam param => exact intHandler_initPwmParam driver param false
  | setDutyCycle param =>
      show (pwmCtrl driver (.setDutyCycle param)).1.intHandler = driver.intHandler
      rw [pwmCtrl]
      split <;> simp [pwmSetDutyCycle, setT]
  | setEndValue param =>
      show (pwmCtrl driver (.setEndValue param)).1.intHandler = driver.intHandler
      rw [pwmCtrl]
      split <;> simp [pwmSetEndValue, setT]
  | updateParam param => exact intHandler_pwmUpdateParam driver param
  | updateParamEnable number =>
      show (pwmUpdateParamEnable number.toUInt8 driver).1.intHandler = driver.intHandler
      rw [pwmUpdateParamEnable]
      split <;> simp
  | initLevlSetLow number =>
      show (pwmInitLevlSetLow number.toUInt8 driver).1.intHandler = driver.intHandler
      rw [pwmInitLevlSetLow]
      split <;> simp
  | initLevlSetHigh number =>
      show (pwmInitLevlSetHigh number.toUInt8 driver).1.intHandler = driver.intHandler
      rw [pwmInitLevlSetHigh]
      split <;> simp

theorem intHandler_apply (call : Call) :
    (call.apply driver).intHandler = call.handlers driver.intHandler := by
  cases call with
  | single command => exact intHandler_pwmCtrl driver command
  | groupEnable number =>
      show (pwmGroupModeEnable number.toUInt8 driver).1.intHandler = driver.intHandler
      rw [pwmGroupModeEnable, pwmGroupEnable]
      split <;> split <;> simp
  | groupDisable number =>
      show (pwmGroupModeDisable number.toUInt8 driver).1.intHandler = driver.intHandler
      rw [pwmGroupModeDisable]
      split <;> simp
  | capGet number =>
      show (Call.apply driver (.capGet number)).intHandler = driver.intHandler
      rw [Call.apply]
      split <;> simp

theorem intHandler_applyCalls :
    (applyCalls calls driver).intHandler = calls.foldl Call.handlers driver.intHandler := by
  induction calls generalizing driver with
  | nil => rfl
  | cons call calls induction =>
      rw [List.foldl_cons, ← intHandler_apply]
      exact induction (call.apply driver)

theorem groupCtrl_applyCalls (group : ℕ) :
    (applyCalls calls driver).groupCtrl group =
      applyAll intStatMask (changesOn group calls) (driver.groupCtrl group) := by
  induction calls generalizing driver with
  | nil => rfl
  | cons call calls induction =>
      have head := changed_apply driver call (UInt8.ofNat group)
      rw [changesOn, List.flatMap_cons, applyAll_append]
      refine (induction (call.apply driver)).trans (congrArg _ ?_)
      rw [Driver.groupCtrl, head]
      split
      · rfl
      · rfl

end

/-! ### A group in the interrupt -/

variable {other : ℕ}

theorem number_group_inj {group : ℕ} (valid : group < 3) (other_valid : other < 3) :
    UInt8.ofNat group = UInt8.ofNat other ↔ group = other := by
  interval_cases group <;> interval_cases other <;> decide

theorem groupCtrl_write (driver : Driver) {group : ℕ} (valid : group < 3) (other_valid : other < 3)
    (value : BitVec 32) :
    (driver.write (.groupCtrl (UInt8.ofNat group)) value).groupCtrl other =
      if group = other then stored intStatMask value (driver.groupCtrl other)
      else driver.groupCtrl other := by
  rw [Driver.groupCtrl, reg_write_groupCtrl]
  exact if_congr (number_group_inj valid other_valid) rfl rfl

/-- The test of the loop that clears a status bit fails after one write, whatever the handler and
earlier writes left in the register. -/
theorem status_cleared_by_write (driver : Driver) {group i : ℕ} (valid : group < 3)
    (inside : i < 2) :
    (driver.write (.groupCtrl (UInt8.ofNat group)) (intStatClear (UInt8.ofNat i))).groupCtrl
      group &&& intStatClear (UInt8.ofNat i) = 0#32 := by
  rw [groupCtrl_write driver valid valid, if_pos rfl]
  refine stored_and_value ?_ _
  interval_cases i <;> decide

/-- Two drivers with the same handlers whose registers may differ in one group. -/
structure AgreeBut (group : ℕ) (left right : Driver) : Prop where
  intHandler : left.intHandler = right.intHandler
  groupCtrl : ∀ other < 3, group ≠ other → left.groupCtrl other = right.groupCtrl other

section
variable {code : UInt32 → UInt8 → List Call} {group : ℕ} {left right : Driver}

theorem agreeBut_refl (group : ℕ) (driver : Driver) : AgreeBut group driver driver :=
  ⟨rfl, fun _ _ _ => rfl⟩

theorem AgreeBut.applyCalls (agree : AgreeBut group left right) (calls : List Call) :
    AgreeBut group (applyCalls calls left) (applyCalls calls right) where
  intHandler := by rw [intHandler_applyCalls, intHandler_applyCalls, agree.intHandler]
  groupCtrl other valid different := by
    rw [groupCtrl_applyCalls, groupCtrl_applyCalls, agree.groupCtrl other valid different]

theorem AgreeBut.write (agree : AgreeBut group left right) (valid : group < 3)
    (value : BitVec 32) :
    AgreeBut group (left.write (.groupCtrl (UInt8.ofNat group)) value) right where
  intHandler := (intHandler_write left _ value).trans agree.intHandler
  groupCtrl other other_valid different := by
    rw [groupCtrl_write left valid other_valid, if_neg different,
      agree.groupCtrl other other_valid different]

/-- Serving a channel is its calls and perhaps a write that clears the status bit. -/
theorem serveChannel_cases (code : UInt32 → UInt8 → List Call) (status : BitVec 32) (group i : ℕ)
    (driver : Driver) :
    serveChannel code status group i driver =
        applyCalls (channelCalls code status group i driver) driver ∨
      serveChannel code status group i driver =
        (applyCalls (channelCalls code status group i driver) driver).write
          (.groupCtrl (UInt8.ofNat group)) (intStatClear (UInt8.ofNat i)) := by
  simp only [serveChannel, channelCalls]
  by_cases pending : status &&& intStatClear (UInt8.ofNat i) ≠ 0
  · by_cases handler : driver.intHandler (UInt8.ofNat (i + 2 * group)) ≠ 0
    · rw [if_pos pending, if_pos handler, if_pos ⟨pending, handler⟩]
      exact Or.inr rfl
    · rw [if_pos pending, if_neg handler, if_neg fun both => handler both.2]
      exact Or.inl rfl
  · rw [if_neg pending, if_neg fun both => pending both.1]
    exact Or.inl rfl

theorem channelCalls_congr (code : UInt32 → UInt8 → List Call) (group : ℕ)
    (same : left.intHandler = right.intHandler) (status : BitVec 32) (i : ℕ) :
    channelCalls code status group i left = channelCalls code status group i right := by
  rw [channelCalls, channelCalls, same]

theorem AgreeBut.serveChannel (agree : AgreeBut group left right)
    (code : UInt32 → UInt8 → List Call) (valid : group < 3) (status : BitVec 32) (i : ℕ) :
    AgreeBut group (serveChannel code status group i left)
      (Pwm.applyCalls (channelCalls code status group i right) right) := by
  have called := agree.applyCalls (channelCalls code status group i right)
  rw [← channelCalls_congr code group agree.intHandler] at called ⊢
  rcases serveChannel_cases code status group i left with served | served
  · rw [served]
    exact called
  · rw [served]
    exact called.write valid _

theorem groupCalls_congr (handlers : left.intHandler = right.intHandler)
    (status : left.groupCtrl group = right.groupCtrl group) :
    groupCalls code group left = groupCalls code group right := by
  have first := channelCalls_congr code group handlers (right.groupCtrl group) 0
  have after : (applyCalls (channelCalls code (right.groupCtrl group) group 0 right)
      left).intHandler = (applyCalls (channelCalls code (right.groupCtrl group) group 0 right)
      right).intHandler := by
    rw [intHandler_applyCalls, intHandler_applyCalls, handlers]
  rw [groupCalls, groupCalls, status, first, channelCalls_congr code group after]

theorem serveGroup_agreeBut (code : UInt32 → UInt8 → List Call) (valid : group < 3)
    (driver : Driver) :
    AgreeBut group (serveGroup code group driver)
      (applyCalls (groupCalls code group driver) driver) := by
  have first := (agreeBut_refl group driver).serveChannel code valid (driver.groupCtrl group) 0
  have second := first.serveChannel code valid (driver.groupCtrl group) 1
  rw [groupCalls, applyCalls, List.foldl_append]
  exact second.write valid _

variable {bit : ℕ}

theorem groupCtrl_serveGroup (valid : group < 3) (driver : Driver)
    (plain : intStatMask.getLsbD bit = false) :
    ((serveGroup code group driver).groupCtrl group).getLsbD bit =
      (driver.groupCtrl group).getLsbD bit := by
  rw [serveGroup, groupCtrl_write _ valid valid, if_pos rfl, getLsbD_stored plain]

theorem pending_of_serveChannel (valid : group < 3) {status : BitVec 32} {i : ℕ} {driver : Driver}
    (flag : intStatMask.getLsbD bit = true)
    (set : ((serveChannel code status group i driver).groupCtrl group).getLsbD bit = true) :
    (driver.groupCtrl group).getLsbD bit = true := by
  have calls : ((applyCalls (channelCalls code status group i driver) driver).groupCtrl
      group).getLsbD bit = true := by
    rcases serveChannel_cases code status group i driver with served | served
    · rwa [served] at set
    · rw [served, groupCtrl_write _ valid valid, if_pos rfl, getLsbD_stored_status flag,
        Bool.and_eq_true] at set
      exact set.1
  rw [groupCtrl_applyCalls] at calls
  exact status_of_applyAll flag calls

theorem status_serveGroup (code : UInt32 → UInt8 → List Call) (valid : group < 3) (driver : Driver)
    (flag : intStatMask.getLsbD bit = true) :
    ((serveGroup code group driver).groupCtrl group).getLsbD bit = false := by
  rw [serveGroup, groupCtrl_write _ valid valid, if_pos rfl, getLsbD_stored_status flag]
  cases pending : (driver.groupCtrl group).getLsbD bit with
  | true => rw [Bool.not_true, Bool.and_false]
  | false =>
      rw [Bool.not_false, Bool.and_true, Bool.eq_false_iff]
      intro set
      have first := pending_of_serveChannel valid flag (pending_of_serveChannel valid flag set)
      exact Bool.false_ne_true (pending.symm.trans first)

end

/-! ### The interrupt and the handlers alone -/

section
variable (code : UInt32 → UInt8 → List Call) (driver : Driver)

variable {count bit : ℕ}

theorem served_handled (bounded : count ≤ 3) :
    (served code driver count).intHandler = (handled code driver count).intHandler ∧
      ∀ group < 3, count ≤ group →
        (served code driver count).groupCtrl group =
          (handled code driver count).groupCtrl group := by
  induction count with
  | zero => exact ⟨rfl, fun _ _ _ => rfl⟩
  | succ count induction =>
      obtain ⟨handlers, registers⟩ := induction (Nat.le_of_succ_le bounded)
      have agree := serveGroup_agreeBut code bounded (served code driver count)
      rw [groupCalls_congr handlers (registers count bounded (Nat.le_refl count))] at agree
      rw [served, handled]
      refine ⟨?_, fun group valid later => ?_⟩
      · rw [agree.intHandler, intHandler_applyCalls, intHandler_applyCalls, handlers]
      · rw [agree.groupCtrl group valid (Nat.ne_of_lt later), groupCtrl_applyCalls,
          groupCtrl_applyCalls, registers group valid (Nat.le_of_succ_le later)]

theorem groupCtrl_served_succ {group : ℕ} (valid : group < 3) (bounded : count < 3)
    (different : count ≠ group) :
    (served code driver (count + 1)).groupCtrl group =
      applyAll intStatMask (changesOn group (groupCalls code count (handled code driver count)))
        ((served code driver count).groupCtrl group) := by
  obtain ⟨handlers, registers⟩ := served_handled code driver (Nat.le_of_lt bounded)
  have agree := serveGroup_agreeBut code bounded (served code driver count)
  rw [groupCalls_congr handlers (registers count bounded (Nat.le_refl count))] at agree
  rw [served, agree.groupCtrl group valid different, groupCtrl_applyCalls]

theorem groupCtrl_handled_succ (group count : ℕ) :
    (handled code driver (count + 1)).groupCtrl group =
      applyAll intStatMask (changesOn group (groupCalls code count (handled code driver count)))
        ((handled code driver count).groupCtrl group) := by
  rw [handled, groupCtrl_applyCalls]

/-- Over some groups the register of an earlier one is changed by their handlers. -/
theorem groupCtrl_over (state : ℕ → Driver) (group count : ℕ)
    (step : ∀ later < group + 1 + count, group < later →
      (state (later + 1)).groupCtrl group =
        applyAll intStatMask (changesOn group (groupCalls code later (handled code driver later)))
          ((state later).groupCtrl group)) :
    (state (group + 1 + count)).groupCtrl group =
      applyAll intStatMask
        (changesOn group ((List.range' (group + 1) count).flatMap fun later =>
          groupCalls code later (handled code driver later)))
        ((state (group + 1)).groupCtrl group) := by
  induction count with
  | zero => rfl
  | succ count induction =>
      have before := induction fun later bounded =>
        step later (Nat.lt_succ_of_lt bounded)
      have last := step (group + 1 + count) (Nat.lt_succ_self _)
        (Nat.lt_of_lt_of_le (Nat.lt_succ_self group) (Nat.le_add_right _ _))
      rw [List.range'_1_concat, List.flatMap_append, changesOn, List.flatMap_append,
        applyAll_append, List.flatMap_singleton]
      exact last.trans (congrArg _ before)

theorem groupCtrl_pwmIsr {group : ℕ} (valid : group < 3) :
    (pwmIsr code driver).groupCtrl group =
      applyAll intStatMask (changesOn group (laterCalls code driver group))
        ((served code driver (group + 1)).groupCtrl group) := by
  have later := groupCtrl_over code driver (served code driver) group (2 - group)
    fun later bounded after =>
      groupCtrl_served_succ code driver valid (by omega) (Nat.ne_of_gt after)
  rwa [show group + 1 + (2 - group) = 3 by omega] at later

theorem groupCtrl_handlersAlone {group : ℕ} (valid : group < 3) :
    (handlersAlone code driver).groupCtrl group =
      applyAll intStatMask (changesOn group (laterCalls code driver group))
        ((handled code driver (group + 1)).groupCtrl group) := by
  have later := groupCtrl_over code driver (handled code driver) group (2 - group)
    fun later _ _ => groupCtrl_handled_succ code driver group later
  rwa [show group + 1 + (2 - group) = 3 by omega] at later

theorem plain_of_config (config : configMask.getLsbD bit = true) :
    intStatMask.getLsbD bit = false := by
  have apart : (configMask &&& intStatMask).getLsbD bit = false := by
    have none : configMask &&& intStatMask = 0#32 := by decide
    rw [none, BitVec.getLsbD_zero]
  rwa [BitVec.getLsbD_and, config, Bool.true_and] at apart

/-- A bit of a group is as the handlers alone leave it exactly if those of the group have not
changed it or those of a later group write it again. -/
theorem config_eq_iff {group : ℕ} (valid : group < 3) (config : configMask.getLsbD bit = true) :
    ((pwmIsr code driver).groupCtrl group).getLsbD bit =
        ((handlersAlone code driver).groupCtrl group).getLsbD bit ↔
      ((handled code driver (group + 1)).groupCtrl group).getLsbD bit =
          ((handled code driver group).groupCtrl group).getLsbD bit ∨
        ∃ change ∈ changesOn group (laterCalls code driver group), change.Writes bit := by
  have plain := plain_of_config config
  have read : ((served code driver (group + 1)).groupCtrl group).getLsbD bit =
      ((handled code driver group).groupCtrl group).getLsbD bit := by
    rw [served, groupCtrl_serveGroup valid _ plain,
      (served_handled code driver (Nat.le_of_lt valid)).2 group valid (Nat.le_refl group)]
  rw [groupCtrl_pwmIsr code driver valid, groupCtrl_handlersAlone code driver valid,
    getLsbD_applyAll_eq_iff plain, read, eq_comm]

theorem status_pwmIsr {group : ℕ} (valid : group < 3) (flag : intStatMask.getLsbD bit = true) :
    ((pwmIsr code driver).groupCtrl group).getLsbD bit = false := by
  rw [groupCtrl_pwmIsr code driver valid, Bool.eq_false_iff]
  intro set
  have clear := status_serveGroup code valid (served code driver group) flag
  exact Bool.false_ne_true (clear.symm.trans (status_of_applyAll flag set))

theorem isr_loses_nothing_iff : LosesNothing code driver ↔ Kept code driver := by
  constructor
  · intro keeps group valid bit config
    exact (config_eq_iff code driver valid config).mp (keeps.config group valid bit config)
  · intro kept
    refine ⟨fun group valid bit config => ?_, fun group valid bit flag _ => ?_⟩
    · exact (config_eq_iff code driver valid config).mpr (kept group valid bit config)
    · exact status_pwmIsr code driver valid flag

end

/-- Channel 0 is enabled and its interrupt is pending. -/
def pendingDriver : Driver where
  currentChannel := 0
  currentGroup := 0
  intHandler _ := 1
  reg
    | .groupCtrl 0 => enableMask 0 ||| intStatClear 0
    | _ => 0
  periClkPwd := 0
  periClkMux := 0
  pwmClkMux := 0
  interruptEnable := 0

def disableOwn (_ : UInt32) (number : UInt8) : List Call :=
  [.single (.unitDisable number.toUInt32)]

/-- The channel that its handler disables is enabled again. -/
theorem isr_loses_disable : ¬LosesNothing disableOwn pendingDriver := by
  intro keeps
  have enabled := keeps.config 0 (by decide) 3 (by decide)
  revert enabled
  decide

end BdkFreertos.Pwm
