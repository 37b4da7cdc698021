import BdkFreertos.Machine

/-!
# Handing the radio over between Wi-Fi and BLE

BLE takes the radio by `ble_switch_rf_to_ble`, which sends an active MAC to idle and masks its
interrupts, and returns it by `ble_switch_rf_to_wifi`.  When the radio sleeps at that moment the
MAC is restored later, by `ble_used_rf_end`, and BLE may take the radio again before that.
-/

namespace BdkFreertos.BleRf

/-- States of the MAC hardware. -/
inductive HwState
  | idle
  | reserved
  | doze
  | active
  deriving DecidableEq

/-- States of the MAC management task. -/
inductive MmState
  | idle
  | active
  | goingToIdle
  | hostBypassed
  deriving DecidableEq

/-- The hardware that the hand-over acts on. -/
structure Hw where
  /-- `BLE_RF_EN_BIT`: the radio is connected to BLE. -/
  bleRfBit : Bool
  /-- `RF_HOLD_BY_BLE_BIT` of the reasons to keep the radio powered. -/
  rfHoldByBle : Bool
  macState : HwState
  /-- Master enable of the general interrupts of the MAC. -/
  genIntEn : Bool
  /-- Master enable of the transmit and receive interrupts of the MAC. -/
  txRxIntEn : Bool

/-- What the hand-over does outside its own variables. -/
inductive Action
  /-- `CMD_BLE_RF_BIT_SET` and `CMD_BLE_RF_BIT_CLR`. -/
  | bleRfBit (set : Bool)
  /-- `CMD_RF_HOLD_BIT_SET` and `CMD_RF_HOLD_BIT_CLR` for BLE. -/
  | rfHoldBit (set : Bool)
  /-- `nxmac_next_state_setf`, with the wait until the MAC is there. -/
  | nextState (state : HwState)
  /-- `sctrl_modem_core_reset`. -/
  | modemCoreReset
  /-- `ble_switch_clear_mac_interrupts`: mask all interrupts of the MAC and clear pending ones. -/
  | clearMacInterrupts
  /-- `nxmac_enable_master_gen_int_en_setf(1)`. -/
  | enableGenInt
  /-- `nxmac_enable_master_tx_rx_int_en_setf(1)`. -/
  | enableTxRxInt
  /-- `power_save_rf_ps_wkup_semlist_set`. -/
  | wkupSemlistSet
  deriving DecidableEq

def Hw.act (hw : Hw) : Action → Hw
  | .bleRfBit set => { hw with bleRfBit := set }
  | .rfHoldBit set => { hw with rfHoldByBle := set }
  | .nextState state => { hw with macState := state }
  | .clearMacInterrupts => { hw with genIntEn := false, txRxIntEn := false }
  | .enableGenInt => { hw with genIntEn := true }
  | .enableTxRxInt => { hw with txRxIntEn := true }
  | .modemCoreReset | .wkupSemlistSet => hw

/-- The variables of the hand-over, and what it reads of the rest of the program. -/
structure Ble where
  hw : Hw
  /-- `ble_switch_mac_sleeped`. -/
  macSleeped : UInt8
  /-- `ble_is_revert_all`: the MAC is still to be restored. -/
  isRevertAll : UInt8
  /-- `ble_switch_old_state`: the state to restore the MAC to. -/
  oldState : HwState
  /-- `ble_switch_skip_cnt`: hand-overs skipped in a row for a packet being sent. -/
  skipCnt : UInt32
  /-- `power_save_if_rf_sleep`. -/
  rfSleep : Bool
  /-- `ke_state_get(TASK_MM)`. -/
  mmState : MmState
  /-- Everything done outside, each with the hardware it was done to. -/
  log : List (Hw × Action)

def Ble.act (ble : Ble) (action : Action) : Ble :=
  { ble with hw := ble.hw.act action, log := ble.log ++ [(ble.hw, action)] }

/-- The part that `ble_switch_rf_to_wifi` and `ble_used_rf_end` share: bring an idle MAC back to its
old state, unless the management task is not active. -/
def restoreMac (ble : Ble) : Ble :=
  if ble.oldState ≠ .idle ∧ ble.hw.macState = .idle then
    let ble := if ble.mmState = .active then ble.act (.nextState ble.oldState) else ble
    { ble with oldState := .idle }
  else if ble.hw.macState = .active then
    { ble with oldState := .idle }
  else
    ble

/-- Give the radio back. -/
def bleSwitchRfToWifi (ble : Ble) : Ble :=
  if ble.hw.bleRfBit = false then
    ble
  else
    let ble := ble.act (.bleRfBit false)
    let ble := { ble with macSleeped := 0 }
    let ble := ble.act (.rfHoldBit false)
    if ble.rfSleep then
      ble
    else
      let ble := restoreMac ble
      let ble := if ble.rfSleep then ble else ble.act .wkupSemlistSet
      let ble := { ble with isRevertAll := 0 }
      (ble.act .enableGenInt).act .enableTxRxInt

/-- Restore the MAC after the radio was given back in its sleep. -/
def bleUsedRfEnd (ble : Ble) : Ble :=
  if ble.isRevertAll ≠ 0 ∧ ble.macSleeped = 0 then
    let ble := restoreMac ble
    let flag := !ble.rfSleep
    let ble := (ble.act .enableGenInt).act .enableTxRxInt
    let ble := { ble with isRevertAll := 0 }
    if flag then ble.act .wkupSemlistSet else ble
  else
    ble

def maxSkipCnt : UInt32 := 5

/-- Interrupts of the MAC and the PLL, by their numbers in the interrupt controller. -/
def macInterrupts : UInt32 :=
  (1 : UInt32) <<< 18 ||| (1 : UInt32) <<< 17 ||| (1 : UInt32) <<< 19 ||| (1 : UInt32) <<< 20 |||
    (1 : UInt32) <<< 22 ||| (1 : UInt32) <<< 21 ||| (1 : UInt32) <<< 28

/-- What a request for the radio finds: each of these may make it skip the hand-over. -/
structure Found where
  /-- `if_rf_wifi_used`. -/
  rfWifiUsed : UInt32
  /-- `txl_cntrl_pck_get`. -/
  txlCntrlPck : UInt32
  /-- `ps_get_sleep_prevent`. -/
  sleepPrevent : UInt32
  icuStatus : UInt32

/-- The hand-over to BLE, once nothing makes it skip. -/
def take (ble : Ble) : Ble :=
  let ble := { ble with skipCnt := 0 }
  let macCurState := ble.hw.macState
  let ble := ble.act (.rfHoldBit true)
  let ble :=
    if macCurState = .active then
      -- the wait for the idle interrupt, with the resets that may be needed, ends in idle
      let ble := { ble with oldState := macCurState }
      ((ble.act (.nextState .idle)).act .modemCoreReset).act .clearMacInterrupts
    else
      ble
  let ble := ble.act (.bleRfBit true)
  { ble with macSleeped := 1, isRevertAll := 1 }

/-- Take the radio for BLE. -/
def bleSwitchRfToBle (found : Found) (ble : Ble) : Ble :=
  if found.rfWifiUsed ≠ 0 then
    ble
  else if found.txlCntrlPck ≠ 0 ∧ ble.skipCnt < maxSkipCnt then
    { ble with skipCnt := ble.skipCnt + 1 }
  else if found.sleepPrevent &&& 0x35 ≠ 0 then
    ble
  else if found.icuStatus &&& macInterrupts ≠ 0 then
    ble
  else
    take ble

/-- What happens to the hand-over. -/
inductive Event
  /-- `ble_switch_rf_to_ble`. -/
  | switchRfToBle (found : Found)
  /-- `ble_switch_rf_to_wifi`. -/
  | switchRfToWifi
  /-- `ble_used_rf_end`. -/
  | usedRfEnd
  /-- The power save puts the radio to sleep or wakes it. -/
  | rfSleep (sleeps : Bool)
  | mmState (state : MmState)
  /-- Other code sets the state and the interrupts of the MAC. -/
  | mac (state : HwState) (genIntEn txRxIntEn : Bool)

/-- The hand-over with the MAC state found when BLE first took the radio since the last time the
MAC was restored. -/
structure Tracked where
  ble : Ble
  /-- State of the MAC when the radio was first taken. -/
  taken : Option HwState

/-- The program as it starts, with the radio at Wi-Fi. -/
def Tracked.start (macState : HwState) (genIntEn txRxIntEn rfSleep : Bool) (mmState : MmState) :
    Tracked where
  ble :=
    { hw := { bleRfBit := false, rfHoldByBle := false, macState, genIntEn, txRxIntEn }
      macSleeped := 0
      isRevertAll := 0
      oldState := .idle
      skipCnt := 0
      rfSleep
      mmState
      log := [] }
  taken := none

def Event.apply (ble : Ble) : Event → Ble
  | .switchRfToBle found => bleSwitchRfToBle found ble
  | .switchRfToWifi => bleSwitchRfToWifi ble
  | .usedRfEnd => bleUsedRfEnd ble
  | .rfSleep sleeps => { ble with rfSleep := sleeps }
  | .mmState state => { ble with mmState := state }
  | .mac macState genIntEn txRxIntEn =>
      { ble with hw := { ble.hw with macState, genIntEn, txRxIntEn } }

/-- A step clears `ble_is_revert_all`. -/
def Clears (before after : Ble) : Prop :=
  before.isRevertAll ≠ 0 ∧ after.isRevertAll = 0

instance (before after : Ble) : Decidable (Clears before after) :=
  inferInstanceAs (Decidable (_ ∧ _))

/-- The MAC state of the first hand-over, after a step. -/
def takenAfter (before after : Ble) (taken : Option HwState) : Option HwState :=
  if Clears before after then
    none
  else if taken = none ∧ before.hw.bleRfBit = false ∧ after.hw.bleRfBit then
    some before.hw.macState
  else
    taken

/-- The hand-over driven by its events. -/
def bleRf : Machine Tracked Event Unit where
  step tracked event :=
    let after := event.apply tracked.ble
    (⟨after, takenAfter tracked.ble after tracked.taken⟩, ())

/-- Other code leaves the MAC alone from the time BLE takes the radio until the MAC is restored. -/
def Undisturbed (tracked : Tracked) : Event → Prop
  | .mac .. => tracked.ble.isRevertAll = 0
  | _ => True

/-- An action that enables interrupts of the MAC or takes it out of idle. -/
def Wakes (hw : Hw) : Action → Prop
  | .nextState state => hw.macState = .idle ∧ state ≠ .idle
  | .enableGenInt | .enableTxRxInt => True
  | _ => False

/-- Nothing done so far has woken the MAC while the radio was BLE's. -/
def Harmless (ble : Ble) : Prop :=
  ∀ done ∈ ble.log, Wakes done.1 done.2 → done.1.bleRfBit = false

/-- The step restores the MAC if it clears `ble_is_revert_all`. -/
def Restores (tracked : Tracked) (event : Event) : Prop :=
  let after := (bleRf.step tracked event).1.ble
  Clears tracked.ble after →
    after.hw.bleRfBit = false ∧ after.hw.genIntEn ∧ after.hw.txRxIntEn ∧
      (after.mmState = .active → tracked.taken = some .active → after.hw.macState = .active)

variable {ble before : Ble} {taken : Option HwState} {tracked : Tracked}

theorem Harmless.act (harmless : Harmless ble) {action : Action}
    (quiet : Wakes ble.hw action → ble.hw.bleRfBit = false) : Harmless (ble.act action) := by
  intro done member
  rcases List.mem_append.mp member with earlier | last
  · exact harmless done earlier
  · rw [List.mem_singleton] at last
    rw [last]
    exact quiet

theorem Harmless.setRfBit (harmless : Harmless ble) :
    Harmless (ble.act (.bleRfBit true)) := harmless.act False.elim

/-- What the old state says about a MAC which was in a given state when the radio was taken. -/
def Remembers (ble : Ble) : Option HwState → Prop
  | none => ble.oldState = .idle
  | some .active => ble.oldState = .active ∧ ble.hw.macState = .idle
  | some state => ble.oldState = .idle ∧ ble.hw.macState = state

theorem Remembers.congr {after : Ble} (remembers : Remembers before taken)
    (old : after.oldState = before.oldState) (mac : after.hw.macState = before.hw.macState) :
    Remembers after taken := by
  rcases taken with _ | _ | _ | _ | _ <;> simpa only [Remembers, old, mac] using remembers

/-- The flags of the hand-over agree with the radio and with what happened to the MAC. -/
structure Consistent (tracked : Tracked) : Prop where
  sleeped : tracked.ble.macSleeped = 0 ↔ tracked.ble.hw.bleRfBit = false
  first : tracked.ble.isRevertAll = 0 ↔ tracked.taken = none
  revert : tracked.taken = none → tracked.ble.hw.bleRfBit = false
  remembers : Remembers tracked.ble tracked.taken
  harmless : Harmless tracked.ble

theorem consistent_start (macState : HwState) (genIntEn txRxIntEn rfSleep : Bool)
    (mmState : MmState) : Consistent (.start macState genIntEn txRxIntEn rfSleep mmState) where
  sleeped := iff_of_true rfl rfl
  first := iff_of_true rfl rfl
  revert _ := rfl
  remembers := rfl
  harmless := by intro done member; simp [Tracked.start] at member

theorem restoreMac_frame (ble : Ble) :
    (restoreMac ble).hw.bleRfBit = ble.hw.bleRfBit ∧
      (restoreMac ble).macSleeped = ble.macSleeped ∧
      (restoreMac ble).isRevertAll = ble.isRevertAll ∧
      (restoreMac ble).rfSleep = ble.rfSleep ∧ (restoreMac ble).mmState = ble.mmState := by
  unfold restoreMac
  split
  · split <;> simp [Ble.act, Hw.act]
  · split <;> simp

theorem restoreMac_harmless (harmless : Harmless ble) (wifi : ble.hw.bleRfBit = false) :
    Harmless (restoreMac ble) := by
  unfold restoreMac
  split
  · split
    · exact harmless.act fun _ => wifi
    · exact harmless
  · split <;> exact harmless

/-- After the restoration nothing is remembered, and a MAC that was active is active again unless
the management task is not. -/
theorem restoreMac_restores (remembers : Remembers ble taken) :
    (restoreMac ble).oldState = .idle ∧
      (ble.mmState = .active → taken = some .active →
        (restoreMac ble).hw.macState = .active) := by
  rcases taken with _ | _ | _ | _ | _ <;> simp only [Remembers] at remembers
  case none =>
    unfold restoreMac
    split
    · simp
    · split <;> simp [remembers]
  case some.active =>
    obtain ⟨old, idle⟩ := remembers
    have pending : ble.oldState ≠ .idle ∧ ble.hw.macState = .idle := by simp [old, idle]
    rw [restoreMac, if_pos pending]
    refine ⟨rfl, fun active _ => ?_⟩
    simp [active, Ble.act, Hw.act, old]
  all_goals
    unfold restoreMac
    simp [remembers]

theorem takenAfter_clears {after : Ble} (clears : Clears before after) (taken : Option HwState) :
    takenAfter before after taken = none :=
  if_pos clears

/-- A step which neither clears `ble_is_revert_all` nor takes the radio keeps what was found when
the radio was taken. -/
theorem takenAfter_same {after : Ble} (flag : after.isRevertAll = before.isRevertAll)
    (radio : after.hw.bleRfBit → before.hw.bleRfBit) (taken : Option HwState) :
    takenAfter before after taken = taken := by
  have uncleared : ¬Clears before after := by
    rintro ⟨set, cleared⟩
    exact set (flag ▸ cleared)
  have untaken : ¬(taken = none ∧ before.hw.bleRfBit = false ∧ after.hw.bleRfBit) := by
    rintro ⟨-, wifi, took⟩
    simp [radio took] at wifi
  rw [takenAfter, if_neg uncleared, if_neg untaken]

def Tracked.after (tracked : Tracked) (ble : Ble) : Tracked :=
  ⟨ble, takenAfter tracked.ble ble tracked.taken⟩

theorem Consistent.frame (consistent : Consistent tracked)
    (radio : ble.hw.bleRfBit = tracked.ble.hw.bleRfBit)
    (sleeped : ble.macSleeped = tracked.ble.macSleeped)
    (flag : ble.isRevertAll = tracked.ble.isRevertAll) (remembers : Remembers ble tracked.taken)
    (log : ble.log = tracked.ble.log) : Consistent (tracked.after ble) := by
  have kept : (tracked.after ble).taken = tracked.taken :=
    takenAfter_same flag (by rw [radio]; exact id) tracked.taken
  constructor
  · show ble.macSleeped = 0 ↔ ble.hw.bleRfBit = false
    rw [sleeped, radio]
    exact consistent.sleeped
  · show ble.isRevertAll = 0 ↔ _
    rw [kept, flag]
    exact consistent.first
  · rw [kept]
    intro untaken
    exact radio.trans (consistent.revert untaken)
  · rw [kept]
    exact remembers
  · intro done member
    exact consistent.harmless done (log ▸ member)

theorem consistent_giveBack (consistent : Consistent tracked) (wifi : ble.hw.bleRfBit = false)
    (sleeped : ble.macSleeped = 0) (flag : ble.isRevertAll = tracked.ble.isRevertAll)
    (remembers : Remembers ble tracked.taken) (harmless : Harmless ble) :
    Consistent (tracked.after ble) := by
  have kept : (tracked.after ble).taken = tracked.taken :=
    takenAfter_same flag (by simp [wifi]) tracked.taken
  constructor
  · exact iff_of_true sleeped wifi
  · show ble.isRevertAll = 0 ↔ _
    rw [kept, flag]
    exact consistent.first
  · exact fun _ => wifi
  · rw [kept]
    exact remembers
  · exact harmless

theorem consistent_cleared (clears : Clears tracked.ble ble) (wifi : ble.hw.bleRfBit = false)
    (sleeped : ble.macSleeped = 0) (old : ble.oldState = .idle) (harmless : Harmless ble) :
    Consistent (tracked.after ble) := by
  have anew : (tracked.after ble).taken = none := takenAfter_clears clears tracked.taken
  constructor
  · exact iff_of_true sleeped wifi
  · exact iff_of_true clears.2 anew
  · exact fun _ => wifi
  · rw [anew]
    exact old
  · exact harmless

theorem set_of_radio (consistent : Consistent tracked) (radio : tracked.ble.hw.bleRfBit = true) :
    tracked.ble.isRevertAll ≠ 0 := by
  intro zero
  have wifi := consistent.revert (consistent.first.mp zero)
  simp [radio] at wifi

/-- What the two functions do last: the MAC is restored, its interrupts are enabled and
`ble_is_revert_all` is cleared, with the radio at Wi-Fi. -/
theorem restored (set : tracked.ble.isRevertAll ≠ 0) (after : Ble)
    (wifi : before.hw.bleRfBit = false) (sleeped : before.macSleeped = 0)
    (remembers : Remembers before tracked.taken) (harmless : Harmless before)
    (hw_eq : after.hw = ((restoreMac before).hw.act .enableGenInt).act .enableTxRxInt)
    (sleeped_eq : after.macSleeped = (restoreMac before).macSleeped)
    (flag_eq : after.isRevertAll = 0) (old_eq : after.oldState = (restoreMac before).oldState)
    (mm_eq : after.mmState = (restoreMac before).mmState)
    (log : Harmless (restoreMac before) → Harmless after) :
    Consistent (tracked.after after) ∧ after.hw.bleRfBit = false ∧ after.hw.genIntEn ∧
      after.hw.txRxIntEn ∧
      (after.mmState = .active → tracked.taken = some .active → after.hw.macState = .active) := by
  obtain ⟨radio, sleeping, -, -, mm⟩ := restoreMac_frame before
  obtain ⟨old, active⟩ := restoreMac_restores remembers
  have atWifi : after.hw.bleRfBit = false := by
    rw [hw_eq]
    exact radio.trans wifi
  refine ⟨consistent_cleared ⟨set, flag_eq⟩ atWifi ?_ (old_eq.trans old)
    (log (restoreMac_harmless harmless wifi)), atWifi, ?_, ?_, ?_⟩
  · rw [sleeped_eq, sleeping, sleeped]
  · rw [hw_eq]
    rfl
  · rw [hw_eq]
    rfl
  · intro running wasActive
    rw [hw_eq]
    exact active (by rw [← mm, ← mm_eq, running]) wasActive

/-- Consistency after an event, and the restoration if the event clears `ble_is_revert_all`. -/
def Sound (tracked : Tracked) (event : Event) : Prop :=
  Consistent (bleRf.step tracked event).1 ∧ Restores tracked event

theorem Sound.of_set {event : Event} (consistent : Consistent (bleRf.step tracked event).1)
    (set : tracked.ble.isRevertAll ≠ 0 → (event.apply tracked.ble).isRevertAll ≠ 0) :
    Sound tracked event :=
  ⟨consistent, fun clears => absurd clears.2 (set clears.1)⟩

theorem sound_switchRfToWifi (consistent : Consistent tracked) : Sound tracked .switchRfToWifi := by
  by_cases wifi : tracked.ble.hw.bleRfBit = false
  · have unchanged : bleSwitchRfToWifi tracked.ble = tracked.ble := if_pos wifi
    refine .of_set ?_ (by simp [Event.apply, unchanged])
    show Consistent (tracked.after (bleSwitchRfToWifi tracked.ble))
    rw [unchanged]
    exact consistent.frame rfl rfl rfl consistent.remembers rfl
  have radio : tracked.ble.hw.bleRfBit = true := by simpa using wifi
  have set := set_of_radio consistent radio
  -- the state in which the radio is back and nothing else has happened
  let back : Ble := ({ tracked.ble.act (.bleRfBit false) with macSleeped := 0 } : Ble).act
    (.rfHoldBit false)
  have remembers : Remembers back tracked.taken := consistent.remembers.congr rfl rfl
  have harmless : Harmless back := by
    have cleared : Harmless (tracked.ble.act (.bleRfBit false)) :=
      consistent.harmless.act False.elim
    have awake : Harmless { tracked.ble.act (.bleRfBit false) with macSleeped := 0 } := cleared
    exact awake.act False.elim
  by_cases asleep : tracked.ble.rfSleep = true
  · have given : bleSwitchRfToWifi tracked.ble = back := by
      rw [bleSwitchRfToWifi, if_neg wifi]
      exact if_pos asleep
    refine .of_set ?_ (by simp [Event.apply, given, back, Ble.act])
    show Consistent (tracked.after (bleSwitchRfToWifi tracked.ble))
    rw [given]
    exact consistent_giveBack consistent rfl rfl rfl remembers harmless
  · have given : bleSwitchRfToWifi tracked.ble =
        ((({ (if (restoreMac back).rfSleep then restoreMac back
            else (restoreMac back).act .wkupSemlistSet) with isRevertAll := 0 } : Ble).act
          .enableGenInt).act .enableTxRxInt) := by
      rw [bleSwitchRfToWifi, if_neg wifi]
      exact if_neg asleep
    have awake : (restoreMac back).rfSleep = false := by
      rw [(restoreMac_frame back).2.2.2.1]
      exact Bool.eq_false_iff.mpr asleep
    have atWifi : (restoreMac back).hw.bleRfBit = false := (restoreMac_frame back).1
    obtain ⟨kept, result⟩ := restored set (bleSwitchRfToWifi tracked.ble) rfl rfl
      remembers harmless (by simp [given, awake, Ble.act, Hw.act])
      (by simp [given, awake, Ble.act]) (by simp [given, awake, Ble.act])
      (by simp [given, awake, Ble.act]) (by simp [given, awake, Ble.act])
      (by
        intro quiet
        rw [given]
        simp only [awake, Bool.false_eq_true, if_false]
        have woken : Harmless ((restoreMac back).act .wkupSemlistSet) := quiet.act False.elim
        have cleared : Harmless { (restoreMac back).act .wkupSemlistSet with isRevertAll := 0 } :=
          woken
        exact (cleared.act fun _ => atWifi).act fun _ => atWifi)
    exact ⟨kept, fun _ => result⟩

theorem sound_usedRfEnd (consistent : Consistent tracked) : Sound tracked .usedRfEnd := by
  by_cases pending : tracked.ble.isRevertAll ≠ 0 ∧ tracked.ble.macSleeped = 0
  · have wifi := consistent.sleeped.mp pending.2
    have given : bleUsedRfEnd tracked.ble =
        (if (restoreMac tracked.ble).rfSleep = false then
          ({ ((restoreMac tracked.ble).act .enableGenInt).act .enableTxRxInt with
            isRevertAll := 0 } : Ble).act .wkupSemlistSet
        else
          { ((restoreMac tracked.ble).act .enableGenInt).act .enableTxRxInt with
            isRevertAll := 0 }) := by
      rw [bleUsedRfEnd, if_pos pending]
      show (if (!(restoreMac tracked.ble).rfSleep) = true then _ else _) = _
      cases (restoreMac tracked.ble).rfSleep <;> rfl
    have atWifi : (restoreMac tracked.ble).hw.bleRfBit = false :=
      (restoreMac_frame tracked.ble).1.trans wifi
    obtain ⟨kept, result⟩ := restored pending.1 (bleUsedRfEnd tracked.ble) wifi pending.2
      consistent.remembers consistent.harmless
      (by rw [given]; split <;> rfl) (by rw [given]; split <;> rfl)
      (by rw [given]; split <;> rfl) (by rw [given]; split <;> rfl)
      (by rw [given]; split <;> rfl)
      (by
        intro quiet
        have enabled : Harmless (((restoreMac tracked.ble).act .enableGenInt).act
            .enableTxRxInt) :=
          Harmless.act (quiet.act fun _ => atWifi) fun _ => atWifi
        rw [given]
        split
        · exact Harmless.act enabled False.elim
        · exact enabled)
    exact ⟨kept, fun _ => result⟩
  · have unchanged : bleUsedRfEnd tracked.ble = tracked.ble := if_neg pending
    refine .of_set ?_ (by simp [Event.apply, unchanged])
    show Consistent (tracked.after (bleUsedRfEnd tracked.ble))
    rw [unchanged]
    exact consistent.frame rfl rfl rfl consistent.remembers rfl

theorem bleSwitchRfToBle_cases (found : Found) (ble : Ble) :
    (∃ skipCnt, bleSwitchRfToBle found ble = { ble with skipCnt }) ∨
      bleSwitchRfToBle found ble = take ble := by
  unfold bleSwitchRfToBle
  split
  · exact .inl ⟨ble.skipCnt, rfl⟩
  split
  · exact .inl ⟨ble.skipCnt + 1, rfl⟩
  split
  · exact .inl ⟨ble.skipCnt, rfl⟩
  split
  · exact .inl ⟨ble.skipCnt, rfl⟩
  · exact .inr rfl

/-- The program with the radio held for BLE, before its MAC is looked after. -/
def held (ble : Ble) : Ble :=
  ({ ble with skipCnt := 0 } : Ble).act (.rfHoldBit true)

theorem take_of_active (active : ble.hw.macState = .active) :
    take ble =
      { (((({ held ble with oldState := .active } : Ble).act (.nextState .idle)).act
          .modemCoreReset).act .clearMacInterrupts).act (.bleRfBit true) with
        macSleeped := 1, isRevertAll := 1 } := by
  simp [take, held, Ble.act, active]

theorem take_of_inactive (inactive : ble.hw.macState ≠ .active) :
    take ble = { (held ble).act (.bleRfBit true) with macSleeped := 1, isRevertAll := 1 } := by
  simp [take, held, Ble.act, inactive]

theorem take_spec (harmless : Harmless ble) :
    (take ble).hw.bleRfBit = true ∧ (take ble).macSleeped = 1 ∧ (take ble).isRevertAll = 1 ∧
      (ble.hw.macState = .active →
        (take ble).oldState = .active ∧ (take ble).hw.macState = .idle) ∧
      (ble.hw.macState ≠ .active →
        (take ble).oldState = ble.oldState ∧ (take ble).hw.macState = ble.hw.macState) ∧
      Harmless (take ble) := by
  have quiet : Harmless (held ble) := by
    have counted : Harmless { ble with skipCnt := 0 } := harmless
    exact counted.act False.elim
  by_cases active : ble.hw.macState = .active
  · rw [take_of_active active]
    refine ⟨rfl, rfl, rfl, fun _ => ⟨rfl, rfl⟩, fun inactive => absurd active inactive, ?_⟩
    -- an active MAC is not woken by being sent to idle
    have noted : Harmless { held ble with oldState := .active } := quiet
    have sent : Harmless (({ held ble with oldState := .active } : Ble).act (.nextState .idle)) :=
      noted.act fun wakes => absurd rfl wakes.2
    exact ((sent.act False.elim).act False.elim).setRfBit
  · rw [take_of_inactive active]
    exact ⟨rfl, rfl, rfl, fun impossible => absurd impossible active, fun _ => ⟨rfl, rfl⟩,
      quiet.setRfBit⟩

theorem takenAfter_take (consistent : Consistent tracked) (flag : ble.isRevertAll ≠ 0)
    (radio : ble.hw.bleRfBit = true) :
    takenAfter tracked.ble ble tracked.taken = some (tracked.taken.getD tracked.ble.hw.macState) := by
  have uncleared : ¬Clears tracked.ble ble := fun clears => flag clears.2
  rw [takenAfter, if_neg uncleared]
  rcases taken_eq : tracked.taken with _ | state
  · rw [if_pos ⟨rfl, consistent.revert taken_eq, radio⟩]
    rfl
  · rw [if_neg (by simp)]
    rfl

theorem sound_switchRfToBle (consistent : Consistent tracked) (found : Found) :
    Sound tracked (.switchRfToBle found) := by
  rcases bleSwitchRfToBle_cases found tracked.ble with ⟨skipCnt, skipped⟩ | took
  · refine .of_set ?_ (by simp [Event.apply, skipped])
    show Consistent (tracked.after (bleSwitchRfToBle found tracked.ble))
    rw [skipped]
    exact consistent.frame rfl rfl rfl (consistent.remembers.congr rfl rfl) rfl
  · obtain ⟨radio, sleeped, flag, toIdle, left, harmless⟩ := take_spec consistent.harmless
    have set : (take tracked.ble).isRevertAll ≠ 0 := by rw [flag]; decide
    refine .of_set ?_ (by simp [Event.apply, took, flag])
    show Consistent (tracked.after (bleSwitchRfToBle found tracked.ble))
    rw [took]
    have taken := takenAfter_take consistent set radio
    constructor
    · show (take tracked.ble).macSleeped = 0 ↔ (take tracked.ble).hw.bleRfBit = false
      simp [sleeped, radio]
    · show (take tracked.ble).isRevertAll = 0 ↔ takenAfter _ _ _ = none
      simp [set, taken]
    · show takenAfter _ _ _ = none → _
      simp [taken]
    · show Remembers (take tracked.ble) (takenAfter _ _ _)
      rw [taken]
      have remembers := consistent.remembers
      rcases taken_eq : tracked.taken with _ | _ | _ | _ | _ <;>
        simp only [taken_eq, Remembers] at remembers
      case none =>
        -- the first hand-over: the MAC is as the program has left it
        cases state_eq : tracked.ble.hw.macState <;>
          simp_all [Remembers]
      all_goals simp_all [Remembers]
    · exact harmless

theorem sound_step (event : Event) (consistent : Consistent tracked)
    (undisturbed : Undisturbed tracked event) : Sound tracked event := by
  cases event with
  | switchRfToBle found => exact sound_switchRfToBle consistent found
  | switchRfToWifi => exact sound_switchRfToWifi consistent
  | usedRfEnd => exact sound_usedRfEnd consistent
  | rfSleep sleeps | mmState state =>
      exact .of_set (consistent.frame rfl rfl rfl (consistent.remembers.congr rfl rfl) rfl) id
  | mac macState genIntEn txRxIntEn =>
      refine .of_set (consistent.frame rfl rfl rfl ?_ rfl) id
      have untaken := consistent.first.mp undisturbed
      have remembers := consistent.remembers
      rw [untaken] at remembers ⊢
      exact remembers

/-- In every run in which other code leaves the MAC alone while it is to be restored, nothing wakes
the MAC while the radio is BLE's, and every step that clears `ble_is_revert_all` restores it. -/
theorem rf_hand_over_restores (macState : HwState) (genIntEn txRxIntEn rfSleep : Bool)
    (mmState : MmState) (events : List Event)
    (undisturbed : bleRf.Always Undisturbed (.start macState genIntEn txRxIntEn rfSleep mmState)
      events) :
    bleRf.Always Restores (.start macState genIntEn txRxIntEn rfSleep mmState) events ∧
      Harmless (bleRf.run (.start macState genIntEn txRxIntEn rfSleep mmState) events).ble := by
  have start := consistent_start macState genIntEn txRxIntEn rfSleep mmState
  constructor
  · have both := (bleRf.always_iff_always (fun tracked event => Undisturbed tracked event ∧
        Restores tracked event) Undisturbed Consistent
      (fun event consistent => ⟨And.left, fun meets =>
        ⟨meets, (sound_step event consistent meets).2⟩⟩)
      (fun event consistent meets => (sound_step event consistent meets).1) start events).mpr
        undisturbed
    exact ((bleRf.always_and _ _ _ _).mp both).2
  · exact (bleRf.run_invariant Undisturbed Consistent start
      (fun consistent meets => (sound_step _ consistent meets).1) undisturbed).harmless

/-- BLE takes the radio from an active MAC, returns it while the radio sleeps, takes it again and
returns it. -/
theorem rf_hand_over_restores_twice :
    bleRf.Always Restores (.start .active true true false .active)
      [.switchRfToBle ⟨0, 0, 0, 0⟩, .rfSleep true, .switchRfToWifi, .switchRfToBle ⟨0, 0, 0, 0⟩,
        .rfSleep false, .switchRfToWifi] ∧
      Harmless (bleRf.run (.start .active true true false .active)
        [.switchRfToBle ⟨0, 0, 0, 0⟩, .rfSleep true, .switchRfToWifi,
          .switchRfToBle ⟨0, 0, 0, 0⟩, .rfSleep false, .switchRfToWifi]).ble :=
  rf_hand_over_restores .active true true false .active _ (by simp [Machine.Always, Undisturbed])

end BdkFreertos.BleRf
