import BdkFreertos.Machine
import Mathlib.Data.List.Infix

/-!
# Buttons

`button_handler` of `multi_button.c` is given the level of a pin every five milliseconds.  It
debounces the level and tells presses, releases, clicks and long presses by the time between the
changes that are left.
-/

namespace BdkFreertos.MultiButton

def debounceTicks : ℕ := 6

def shortTicks : ℕ := 80

def longTicks : ℕ := 200

/-- `PRESS_EVT`. -/
inductive PressEvt
  | pressDown
  | pressUp
  | pressRepeat
  | singleClick
  | doubleClick
  | longPressStart
  | longPressHold
  | nonePress
  deriving DecidableEq

/-- `BUTTON_S`; the widths of the counters are taken account of where they are raised. -/
structure Button where
  ticks : ℕ
  repeatCnt : ℕ
  event : PressEvt
  state : ℕ
  debounceCnt : ℕ
  activeLevel : Bool
  buttonLevel : Bool

/-- `button_init` at the level of the pin. -/
def buttonInit (activeLevel level : Bool) : Button where
  ticks := 0
  repeatCnt := 0
  event := .nonePress
  state := 0
  debounceCnt := 0
  activeLevel := activeLevel
  buttonLevel := level

/-- The count of the ticks since a press or a release. -/
def countTick (button : Button) : Button :=
  if button.state > 0 then { button with ticks := (button.ticks + 1) % 65536 } else button

/-- The debouncing. -/
def debounce (button : Button) (level : Bool) : Button :=
  if level ≠ button.buttonLevel then
    let debounceCnt := (button.debounceCnt + 1) % 8
    if debounceCnt ≥ debounceTicks then
      { button with buttonLevel := level, debounceCnt := 0 }
    else
      { button with debounceCnt := debounceCnt }
  else
    { button with debounceCnt := 0 }

/-- The state machine, with the events whose callbacks are called. -/
def switchState (button : Button) : Button × List PressEvt :=
  match button.state with
  | 0 =>
      if button.buttonLevel = button.activeLevel then
        ({ button with event := .pressDown, ticks := 0, repeatCnt := 1, state := 1 },
          [.pressDown])
      else ({ button with event := .nonePress }, [])
  | 1 =>
      if button.buttonLevel ≠ button.activeLevel then
        ({ button with event := .pressUp, ticks := 0, state := 2 }, [.pressUp])
      else if button.ticks > longTicks then
        ({ button with event := .longPressStart, state := 5 }, [.longPressStart])
      else (button, [])
  | 2 =>
      if button.buttonLevel = button.activeLevel then
        let repeatCnt := (button.repeatCnt + 1) % 16
        ({ button with event := .pressDown, repeatCnt := repeatCnt, ticks := 0, state := 3 },
          if repeatCnt = 2 then [.pressDown, .doubleClick, .pressRepeat]
          else [.pressDown, .pressRepeat])
      else if button.ticks > shortTicks then
        if button.repeatCnt = 1 then
          ({ button with event := .singleClick, state := 0 }, [.singleClick])
        else if button.repeatCnt = 2 then ({ button with event := .doubleClick, state := 0 }, [])
        else ({ button with state := 0 }, [])
      else (button, [])
  | 3 =>
      if button.buttonLevel ≠ button.activeLevel then
        if button.ticks < shortTicks then
          ({ button with event := .pressUp, ticks := 0, state := 2 }, [.pressUp])
        else ({ button with event := .pressUp, state := 0 }, [.pressUp])
      else (button, [])
  | 5 =>
      if button.buttonLevel = button.activeLevel then
        ({ button with event := .longPressHold }, [.longPressHold])
      else ({ button with event := .pressUp, state := 0 }, [.pressUp])
  | _ => (button, [])

/-- `button_handler` at the level of the pin. -/
def buttonHandler (button : Button) (level : Bool) : Button × List PressEvt :=
  switchState (debounce (countTick button) level)

/-- A button with its pin; the output of a tick is the events it reports. -/
def machine : Machine Button Bool (List PressEvt) where
  step := buttonHandler

/-! ## One tick -/

theorem ready_fields (button : Button) (level : Bool) :
    let ready := debounce (countTick button) level
    ready.state = button.state ∧ ready.ticks = (countTick button).ticks ∧
      ready.activeLevel = button.activeLevel ∧
      ready.buttonLevel = (debounce button level).buttonLevel ∧
      ready.debounceCnt = (debounce button level).debounceCnt ∧
      ready.repeatCnt = button.repeatCnt := by
  unfold debounce countTick
  dsimp only
  split_ifs <;> simp_all

/-- The state machine leaves the debouncing alone. -/
theorem switchState_fields (button : Button) :
    (switchState button).1.activeLevel = button.activeLevel ∧
      (switchState button).1.buttonLevel = button.buttonLevel ∧
      (switchState button).1.debounceCnt = button.debounceCnt := by
  unfold switchState
  dsimp only
  split
  case h_6 => exact ⟨rfl, rfl, rfl⟩
  all_goals split_ifs <;> exact ⟨rfl, rfl, rfl⟩

theorem buttonHandler_fields (button : Button) (level : Bool) :
    (buttonHandler button level).1.activeLevel = button.activeLevel ∧
      (buttonHandler button level).1.buttonLevel = (debounce button level).buttonLevel ∧
      (buttonHandler button level).1.debounceCnt = (debounce button level).debounceCnt := by
  obtain ⟨-, -, active_eq, level_eq, count_eq, -⟩ := ready_fields button level
  obtain ⟨active_kept, level_kept, count_kept⟩ :=
    switchState_fields (debounce (countTick button) level)
  exact ⟨active_kept.trans active_eq, level_kept.trans level_eq, count_kept.trans count_eq⟩

theorem active_after_iff (button : Button) (level : Bool) :
    (buttonHandler button level).1.buttonLevel = button.activeLevel ↔
      (debounce (countTick button) level).buttonLevel =
        (debounce (countTick button) level).activeLevel := by
  rw [(ready_fields button level).2.2.1, buttonHandler, (switchState_fields _).2.1]

/-! ## Debouncing -/

variable {button : Button} {k : ℕ}

/-- A sample at the level of the button, the last of six at the other one, or an earlier one. -/
theorem debounce_cases (few : button.debounceCnt < debounceTicks) (sample : Bool) :
    (sample = button.buttonLevel ∧ debounce button sample = { button with debounceCnt := 0 }) ∨
    (sample = (!button.buttonLevel) ∧ button.debounceCnt + 1 = debounceTicks ∧
      debounce button sample = { button with buttonLevel := sample, debounceCnt := 0 }) ∨
    (sample = (!button.buttonLevel) ∧ button.debounceCnt + 1 < debounceTicks ∧
      debounce button sample = { button with debounceCnt := button.debounceCnt + 1 }) := by
  rw [debounceTicks] at few ⊢
  by_cases same : sample = button.buttonLevel
  · exact .inl ⟨same, if_neg (not_not.mpr same)⟩
  have other : sample = !button.buttonLevel := Bool.eq_not.mpr same
  have count_mod : (button.debounceCnt + 1) % 8 = button.debounceCnt + 1 :=
    Nat.mod_eq_of_lt (by omega)
  rw [debounce, if_pos same]
  dsimp only
  rw [count_mod]
  split
  · rename_i enough
    exact .inr (.inl ⟨other, Nat.le_antisymm few enough, rfl⟩)
  · rename_i short
    exact .inr (.inr ⟨other, Nat.not_le.mp short, rfl⟩)

theorem replicate_suffix_concat {level last : Bool} {count : ℕ} {samples : List Bool} :
    List.replicate (count + 1) level <:+ samples ++ [last] ↔
      level = last ∧ List.replicate count level <:+ samples := by
  rw [List.suffix_concat_iff, List.replicate_succ']
  simp [and_comm]

/-- The counter counts the last samples that differ from the level of the button. -/
structure Counts (samples : List Bool) (level : Bool) (count : ℕ) : Prop where
  seen : List.replicate count (!level) <:+ samples
  most : ¬List.replicate (count + 1) (!level) <:+ samples
  few : count < debounceTicks

theorem counts_none (samples : List Bool) (sample : Bool) :
    Counts (samples ++ [sample]) sample 0 where
  seen := List.nil_suffix
  most := by simp
  few := by decide

theorem counts_run (activeLevel start : Bool) (samples : List Bool) :
    let button := machine.run (buttonInit activeLevel start) samples
    Counts samples button.buttonLevel button.debounceCnt := by
  induction samples using List.reverseRecOn with
  | nil => exact ⟨List.suffix_refl _, by simp, Nat.zero_lt_succ 5⟩
  | append_singleton samples sample induction =>
      intro button
      obtain ⟨seen, most, few⟩ := induction
      generalize before_eq : machine.run (buttonInit activeLevel start) samples = before at *
      obtain ⟨-, level_eq, count_eq⟩ := buttonHandler_fields before sample
      have button_eq : button = (buttonHandler before sample).1 := by
        rw [← before_eq]
        exact Machine.run_append ..
      rw [button_eq, level_eq, count_eq]
      rcases debounce_cases few sample with ⟨same, stays⟩ | ⟨other, -, turns⟩ | ⟨other, short, counted⟩
      · rw [stays, same]
        exact counts_none ..
      · rw [turns]
        exact counts_none ..
      · rw [counted]
        refine ⟨?_, fun longer => most (replicate_suffix_concat.mp longer).2, short⟩
        exact replicate_suffix_concat.mpr ⟨other.symm, seen⟩

/-- The level of a button changes in a tick exactly if the last six samples all differ from it. -/
theorem level_changes_iff (activeLevel start : Bool) (samples : List Bool) (sample : Bool) :
    let button := machine.run (buttonInit activeLevel start) samples
    (machine.run (buttonInit activeLevel start) (samples ++ [sample])).buttonLevel ≠
        button.buttonLevel ↔
      List.replicate debounceTicks (!button.buttonLevel) <:+ samples ++ [sample] := by
  intro button
  obtain ⟨seen, most, few⟩ : Counts samples button.buttonLevel button.debounceCnt :=
    counts_run activeLevel start samples
  have level_eq : (machine.run (buttonInit activeLevel start) (samples ++ [sample])).buttonLevel =
      (debounce button sample).buttonLevel := by
    rw [Machine.run_append]
    exact (buttonHandler_fields button sample).2.1
  rw [level_eq, debounceTicks, replicate_suffix_concat]
  rcases debounce_cases few sample with ⟨same, stays⟩ | ⟨other, full, turns⟩ | ⟨other, short, counted⟩
  · rw [stays, same]
    exact iff_of_false (not_not.mpr rfl) fun both => absurd both.1 (by simp)
  · rw [turns, other]
    rw [Nat.succ.inj full] at seen
    exact iff_of_true (by simp) ⟨rfl, seen⟩
  · rw [counted]
    refine iff_of_false (not_not.mpr rfl) fun both => most (List.IsSuffix.trans ?_ both.2)
    rw [debounceTicks] at short
    refine ⟨List.replicate (4 - button.debounceCnt) (!button.buttonLevel), ?_⟩
    rw [List.replicate_append_replicate]
    congr 1
    omega

/-! ## Presses and releases -/

/-- The states in which a press has been reported and its release has not. -/
def Pressed (button : Button) : Prop :=
  button.state = 1 ∨ button.state = 3 ∨ button.state = 5

instance (button : Button) : Decidable (Pressed button) :=
  inferInstanceAs (Decidable (_ ∨ _))

/-- A state that the switch knows. -/
def Known (button : Button) : Prop :=
  button.state = 0 ∨ button.state = 2 ∨ Pressed button

/-- A tick leaves the button pressed if its level is active, and reports the change. -/
theorem switchState_edges (known : Known button) :
    Known (switchState button).1 ∧
      (Pressed (switchState button).1 ↔ button.buttonLevel = button.activeLevel) ∧
      (switchState button).2.count .pressDown + (if Pressed button then 1 else 0) =
        (switchState button).2.count .pressUp +
          if button.buttonLevel = button.activeLevel then 1 else 0 := by
  unfold switchState
  rcases known with state_eq | state_eq | state_eq | state_eq | state_eq
  all_goals
    simp only [state_eq]
    split_ifs <;> simp_all [Known, Pressed]

theorem buttonHandler_edges (known : Known button) (level : Bool) :
    let after := (buttonHandler button level).1
    let events := (buttonHandler button level).2
    Known after ∧ (Pressed after ↔ after.buttonLevel = after.activeLevel) ∧
      events.count .pressDown + (if Pressed button then 1 else 0) =
        events.count .pressUp + if after.buttonLevel = after.activeLevel then 1 else 0 := by
  intro after events
  obtain ⟨state_eq, -⟩ := ready_fields button level
  have known_ready : Known (debounce (countTick button) level) := by
    simpa only [Known, Pressed, state_eq] using known
  obtain ⟨known_after, pressed, counted⟩ := switchState_edges known_ready
  obtain ⟨active_kept, level_kept, -⟩ := switchState_fields (debounce (countTick button) level)
  rw [← active_kept, ← level_kept] at pressed counted
  simp only [Pressed, state_eq] at counted
  exact ⟨known_after, pressed, counted⟩

/-- The presses reported so far are the releases, and one more while the button is pressed. -/
theorem presses_of_pressed (activeLevel start : Bool) (samples : List Bool) :
    let button := machine.run (buttonInit activeLevel start) samples
    let events := (machine.outputs (buttonInit activeLevel start) samples).flatten
    button.activeLevel = activeLevel ∧ Known button ∧
      events.count .pressDown = events.count .pressUp + if Pressed button then 1 else 0 := by
  induction samples using List.reverseRecOn with
  | nil => exact ⟨rfl, .inl rfl, rfl⟩
  | append_singleton samples sample induction =>
      obtain ⟨active_eq, known, counted⟩ := induction
      obtain ⟨known_after, pressed, step⟩ := buttonHandler_edges known sample
      rw [Machine.run_append, Machine.outputs_append]
      refine ⟨(buttonHandler_fields _ sample).1.trans active_eq, known_after, ?_⟩
      simp only [← pressed] at step
      simp only [Machine.outputs_cons, Machine.outputs_nil, List.flatten_append,
        List.flatten_cons, List.flatten_nil, List.append_nil, List.count_append, counted]
      change _ + (buttonHandler _ sample).2.count .pressDown =
        _ + (buttonHandler _ sample).2.count .pressUp +
          if Pressed (buttonHandler _ sample).1 then 1 else 0
      omega

/-- After any number of ticks as many releases as presses have been reported, or one press more,
and it is one press more exactly if the level is active. -/
theorem presses_match_releases (activeLevel start : Bool) (samples : List Bool) (sample : Bool) :
    let button := machine.run (buttonInit activeLevel start) (samples ++ [sample])
    let events := (machine.outputs (buttonInit activeLevel start) (samples ++ [sample])).flatten
    events.count .pressDown =
      events.count .pressUp + if button.buttonLevel = activeLevel then 1 else 0 := by
  intro button events
  obtain ⟨-, known, -⟩ := presses_of_pressed activeLevel start samples
  obtain ⟨active_eq, -, counted⟩ := presses_of_pressed activeLevel start (samples ++ [sample])
  obtain ⟨-, pressed, -⟩ := buttonHandler_edges known sample
  have button_eq : button =
      (buttonHandler (machine.run (buttonInit activeLevel start) samples) sample).1 :=
    Machine.run_append ..
  rw [← button_eq, show button.activeLevel = activeLevel from active_eq] at pressed
  simpa only [← pressed] using counted

/-! ## Long presses and clicks -/

/-- What the `k`-th tick of a press reports if it is the first one of a row of presses. -/
def holdEvents (k : ℕ) : List PressEvt :=
  if k < longTicks then [] else if k = longTicks then [.longPressStart] else [.longPressHold]

/-- What the `k`-th tick after a short press reports if it was the only one of a row. -/
def clickEvents (k : ℕ) : List PressEvt :=
  if k = shortTicks then [.singleClick] else []

/-- The button is `k` ticks into a press or a pause whose ticks are counted, or past the count. -/
def Counting (counting done limit : ℕ) (button : Button) (k : ℕ) : Prop :=
  button.state = counting ∧ button.ticks = k ∧ k ≤ limit ∨ button.state = done ∧ limit < k

theorem switchState_hold (holding : button.state = 1 ∧ button.ticks = k + 1 ∧ k ≤ longTicks ∨
      button.state = 5 ∧ longTicks < k) (active : button.buttonLevel = button.activeLevel) :
    (switchState button).2 = holdEvents k ∧
      Counting 1 5 longTicks (switchState button).1 (k + 1) := by
  rw [holdEvents]
  rcases holding with ⟨one, count, few⟩ | ⟨five, many⟩
  · rcases few.lt_or_eq with short | full
    · have next : k + 1 ≤ longTicks := short
      simp [switchState, one, active, short, next.not_gt, Counting, count, next]
    · simp [switchState, one, active, full, Counting, count]
  · have past : ¬k < longTicks ∧ k ≠ longTicks := by omega
    have next : longTicks < k + 1 := by omega
    simp [switchState, five, active, past, Counting, next]

theorem switchState_pause (single : button.repeatCnt = 1)
    (pausing : button.state = 2 ∧ button.ticks = k + 1 ∧ k ≤ shortTicks ∨
      button.state = 0 ∧ shortTicks < k) (active : button.buttonLevel ≠ button.activeLevel) :
    (switchState button).2 = clickEvents k ∧
      Counting 2 0 shortTicks (switchState button).1 (k + 1) ∧
      (switchState button).1.repeatCnt = 1 := by
  rw [clickEvents]
  rcases pausing with ⟨two, count, few⟩ | ⟨zero, many⟩
  · rcases few.lt_or_eq with short | full
    · have next : k + 1 ≤ shortTicks := short
      simp [switchState, two, active, short.ne, next.not_gt, Counting, count, single, next]
    · simp [switchState, two, active, full, Counting, count, single]
  · have next : shortTicks < k + 1 := many.trans (Nat.lt_add_one k)
    simp [switchState, zero, active, many.ne', Counting, single, next]

theorem ready_ticks (level : Bool) (running : 0 < button.state) (count : button.ticks = k)
    (few : k < 65535) : (debounce (countTick button) level).ticks = k + 1 := by
  rw [(ready_fields button level).2.1, countTick, if_pos running, count]
  exact Nat.mod_eq_of_lt (Nat.add_lt_of_lt_sub few)

/-- While the level stays active after the first press of a row, nothing is reported for 200 ticks,
the next tick reports a long press, and every later one that it goes on. -/
theorem outputs_of_held {before : Button} {sample : Bool}
    (pressed : (buttonHandler before sample).2 = [.pressDown]) {samples : List Bool}
    (held : machine.Always
      (fun button sample => (buttonHandler button sample).1.buttonLevel = button.activeLevel)
      (buttonHandler before sample).1 samples) :
    machine.outputs (buttonHandler before sample).1 samples =
      (List.range samples.length).map holdEvents := by
  rw [List.range_eq_range']
  refine machine.outputs_eq_map_range' (Counting 1 5 longTicks) _ holdEvents ?_ ?_ held
  · intro button level k holding held
    refine switchState_hold ?_ ((active_after_iff button level).mp held)
    rw [(ready_fields button level).1]
    refine holding.imp_left fun ⟨one, count, few⟩ => ⟨one, ready_ticks level ?_ count ?_, few⟩
    · exact one ▸ Nat.one_pos
    · exact few.trans_lt (by decide)
  · left
    revert pressed
    rw [buttonHandler, switchState]
    split
    case h_6 => simp
    all_goals split_ifs <;> simp
    split <;> simp

theorem outputs_of_held_long :
    let before := machine.run (buttonInit true false) (List.replicate 5 true)
    machine.outputs (buttonHandler before true).1 (List.replicate 202 true) =
      (List.range 202).map holdEvents :=
  outputs_of_held (by decide) (by decide +kernel)

/-- While the level stays inactive after the release of a short press that was the only one of a
row, the eighty-first tick reports a click and no other tick anything. -/
theorem outputs_of_released {before : Button} {sample : Bool}
    (released : (buttonHandler before sample).2 = [.pressUp])
    (short : (buttonHandler before sample).1.state = 2) (single : before.repeatCnt = 1)
    {samples : List Bool}
    (rested : machine.Always
      (fun button sample => (buttonHandler button sample).1.buttonLevel ≠ button.activeLevel)
      (buttonHandler before sample).1 samples) :
    machine.outputs (buttonHandler before sample).1 samples =
      (List.range samples.length).map clickEvents := by
  rw [List.range_eq_range']
  refine machine.outputs_eq_map_range'
    (fun button k => Counting 2 0 shortTicks button k ∧ button.repeatCnt = 1) _ clickEvents
    ?_ ?_ rested
  · intro button level k pausing rested
    refine switchState_pause ?_ ?_ (mt (active_after_iff button level).mpr rested)
    · rw [(ready_fields button level).2.2.2.2.2]
      exact pausing.2
    · rw [(ready_fields button level).1]
      refine pausing.1.imp_left fun ⟨two, count, few⟩ => ⟨two, ready_ticks level ?_ count ?_, few⟩
      · exact two ▸ Nat.two_pos
      · exact few.trans_lt (by decide)
  · rw [← (ready_fields before sample).2.2.2.2.2] at single
    revert released short
    rw [buttonHandler, switchState]
    split
    case h_6 => simp
    all_goals split_ifs <;> simp [Counting, single]

theorem outputs_of_released_click :
    let before : Button := ⟨5, 1, .pressDown, 1, 5, true, true⟩
    machine.outputs (buttonHandler before false).1 (List.replicate 82 false) =
      (List.range 82).map clickEvents :=
  outputs_of_released (by decide) (by decide) (by decide) (by decide +kernel)

end BdkFreertos.MultiButton
