import BdkFreertos.Machine
import Mathlib.Data.UInt

/-!
# Charge regulation in the external software mode

Each check reads the battery voltage and decides on the step of the charge and the current to ask
for.  A reading has to persist before it counts, and all steps share one counter for that.
-/

namespace BdkFreertos.UsbCharge

/-- `CHARGE_STEP`. -/
inductive ChargeStep
  | stop
  | start
  | trickle
  | exterCc
  | interCc
  | interCv
  deriving DecidableEq

/-- The step and the current of `charge_cfg`, and `keep_count`. -/
structure Charger where
  step : ChargeStep
  elect : UInt32
  keepCount : UInt32

/-- What the system control driver is asked for. -/
inductive Request
  /-- `CMD_SCTRL_USB_CHARGE_STOP`. -/
  | stop
  /-- `CMD_SCTRL_USB_CHARGE_START`. -/
  | start (step : ChargeStep) (elect : UInt32)
  deriving DecidableEq

/-- `VBAT_FULL_ADC_THRESHOLD`. -/
abbrev vbatFull : ℤ := 4180

/-- `VBAT_TRICKLE_ADC_THRESHOLD`. -/
abbrev vbatTrickle : ℤ := 3000

/-- `VBAT_RESTART_ADC_THRESHOLD`. -/
abbrev vbatRestart : ℤ := 4130

def usbChargeStart (charger : Charger) (step : ChargeStep) (elect : UInt32) :
    Charger × Option Request :=
  if step = .stop then ({ charger with step }, some .stop)
  else ({ charger with step, elect }, some (.start step elect))

/-- The end of a check: a new step or a new current is asked for. -/
def update (charger : Charger) (step : ChargeStep) (elect : ℤ) (keepCount : UInt32) :
    Charger × Option Request :=
  if step ≠ charger.step ∨ UInt32.ofInt elect ≠ charger.elect then
    usbChargeStart { charger with keepCount := 0 } step (UInt32.ofInt elect)
  else ({ charger with keepCount }, none)

/-- What the two steps of constant current have in common: a reading between two limits has to
persist, one at the upper limit lowers the current at once. -/
def lowered (elect : ℤ) (keepCount : UInt32) (vol lower upper : ℤ) (patience : UInt32)
    (little much : ℤ) : ℤ × UInt32 :=
  if lower ≤ vol then
    if vol < upper then (if keepCount < patience then elect else elect - little, keepCount + 1)
    else (elect - much, keepCount)
  else (elect, 0)

def Charger.current (charger : Charger) : ℤ := charger.elect.toInt32.toInt

/-- `usb_charge_external_sw_check` with the reading of the battery. -/
def usbChargeExternalSwCheck (charger : Charger) (vol : ℤ) : Charger × Option Request :=
  let elect := charger.current
  let keepCount := charger.keepCount
  match charger.step with
  | .start =>
      if vol < vbatTrickle then update charger .trickle elect keepCount
      else if vbatFull ≤ vol then update charger .interCc 250 keepCount
      else update charger .exterCc 750 keepCount
  | .trickle =>
      if vbatTrickle ≤ vol then
        if keepCount < 5 then update charger .trickle elect (keepCount + 1)
        else update charger .exterCc 750 (keepCount + 1)
      else update charger .trickle elect 0
  | .exterCc =>
      let (elect, keepCount) := lowered elect keepCount vol 4250 4290 10 20 100
      if elect < 450 then update charger .interCc 250 keepCount
      else update charger .exterCc elect keepCount
  | .interCc =>
      let (elect, keepCount) := lowered elect keepCount vol 4200 4240 20 10 50
      if elect < 50 then update charger .interCv elect keepCount
      else update charger .interCc elect keepCount
  | .interCv =>
      if vbatFull ≤ vol then
        if keepCount < 300 then update charger .interCv elect (keepCount + 1)
        -- `CFG_FULL_ACTION_STOP` is zero: a full battery is only reported.
        else ({ charger with keepCount := keepCount + 1 }, none)
      else update charger .interCc 250 0
  | .stop =>
      if vol < vbatRestart then
        if keepCount < 3 then update charger .stop elect (keepCount + 1)
        else update charger .start elect (keepCount + 1)
      else update charger .stop elect 0

/-- What happens to the charger. -/
inductive Event
  /-- `USB_PLUG_IN_EVENT`, with what `usb_power_is_pluged` says. -/
  | plugIn (powered : Bool)
  /-- `USB_PLUG_OUT_EVENT`. -/
  | plugOut
  | check (vol : ℤ)
  deriving DecidableEq

/-- `usb_plug_func_handler` once `charge_func_init` is set, and the check of the idle hook. -/
def handle (charger : Charger) : Event → Charger × Option Request
  | .plugIn powered => if powered then usbChargeStart charger .start 0 else (charger, none)
  | .plugOut => (charger, some .stop)
  | .check vol => usbChargeExternalSwCheck charger vol

def machine : Machine Charger Event (Option Request) := ⟨handle⟩

def plugged (keepCount : UInt32) : Charger := ⟨.start, 0, keepCount⟩

/-! ## Safe regulation -/

/-- The current is within the limits of the step. -/
structure Bounded (charger : Charger) : Prop where
  current : 0 ≤ charger.current ∧ charger.current ≤ 750
  exter : charger.step = .exterCc → 450 ≤ charger.current ∧ charger.current ≤ 750
  inter : charger.step = .interCc → 50 ≤ charger.current ∧ charger.current ≤ 250

/-- A check lowers the current at a high reading, and does not begin the step of high current for
a full battery. -/
structure Regulates (vol : ℤ) (before after : Charger) : Prop where
  exterLowers : before.step = .exterCc → 4290 ≤ vol → after.current < before.current
  interLowers : before.step = .interCc → 4240 ≤ vol → after.current < before.current
  entry : vbatFull ≤ vol → after.step = .exterCc → before.step = .exterCc

/-- A check in the step of trickle current does not find a full battery with its patience at an
end. -/
def Careful (charger : Charger) : Event → Prop
  | .check vol => charger.step = .trickle → vbatFull ≤ vol → charger.keepCount < 5
  | _ => True

/-- The checks among the steps of a run regulate. -/
def RegulatingStep (charger : Charger) : Event → Prop
  | .check vol => Regulates vol charger (machine.step charger (.check vol)).1
  | _ => True

instance (charger : Charger) : (event : Event) → Decidable (Careful charger event)
  | .check _ => inferInstanceAs (Decidable (_ → _ → _))
  | .plugIn _ => isTrue trivial
  | .plugOut => isTrue trivial

/-! ## What a check asks for -/

def Asks (charger : Charger) (step : ChargeStep) (elect : ℤ) : Prop :=
  charger.step = step ∧ charger.current = elect

variable {elect : ℤ} {charger : Charger} {step : ChargeStep} (event : Event) (keepCount : UInt32)

theorem current_of_ofInt (nonnegative : 0 ≤ elect) (small : elect ≤ 750) :
    (UInt32.ofInt elect).toInt32.toInt = elect := by
  rw [UInt32.ofInt, UInt32.toInt32_ofNat', Int32.toInt_ofNat_of_lt (by omega)]
  omega

theorem update_asks (charger : Charger) (keepCount : UInt32) (running : step ≠ .stop)
    (nonnegative : 0 ≤ elect) (small : elect ≤ 750) :
    Asks (update charger step elect keepCount).1 step elect := by
  have value := current_of_ofInt nonnegative small
  rw [update]
  split
  · rw [usbChargeStart, if_neg running]
    exact ⟨rfl, value⟩
  · rename_i unchanged
    rw [not_or, not_not, not_not] at unchanged
    obtain ⟨rfl, elect_eq⟩ := unchanged
    exact ⟨rfl, (congrArg (fun word : UInt32 => word.toInt32.toInt) elect_eq).symm.trans value⟩

/-- The current is only lowered, by no more than the greater decrement, and always at the upper
limit. -/
theorem lowered_spec (elect : ℤ) (keepCount : UInt32) (vol lower upper : ℤ) (patience : UInt32)
    {little much : ℤ} (positive : 0 < little) (less : little ≤ much) (ordered : lower ≤ upper) :
    let value := (lowered elect keepCount vol lower upper patience little much).1
    elect - much ≤ value ∧ value ≤ elect ∧ (upper ≤ vol → value = elect - much) := by
  by_cases reached : lower ≤ vol
  · by_cases high : vol < upper
    · simp only [lowered, if_pos reached, if_pos high]
      split <;> omega
    · simp only [lowered, if_pos reached, if_neg high]
      exact ⟨le_rfl, by omega, fun _ => trivial⟩
  · simp only [lowered, if_neg reached]
    omega

/-- The invariant: the limits, and the charge never stops. -/
structure Running (charger : Charger) : Prop extends Bounded charger where
  running : charger.step ≠ .stop

theorem running_of_asks (asks : Asks charger step elect) (running : step ≠ .stop)
    (nonnegative : 0 ≤ elect) (small : elect ≤ 750) (exter : step = .exterCc → 450 ≤ elect)
    (inter : step = .interCc → 50 ≤ elect ∧ elect ≤ 250) : Running charger := by
  obtain ⟨rfl, rfl⟩ := asks
  exact ⟨⟨⟨nonnegative, small⟩, fun same => ⟨exter same, small⟩, inter⟩, running⟩

theorem running_of_ignored (running : Running charger) : Running { charger with keepCount } :=
  ⟨⟨running.current, running.exter, running.inter⟩, running.running⟩

theorem check_start (step : charger.step = .start) (bounded : Running charger) (vol : ℤ) :
    Running (usbChargeExternalSwCheck charger vol).1 ∧
      (vbatFull ≤ vol → (usbChargeExternalSwCheck charger vol).1.step ≠ .exterCc) := by
  obtain ⟨nonnegative, small⟩ := bounded.current
  simp only [usbChargeExternalSwCheck, step]
  split
  · have asks := update_asks charger charger.keepCount (by decide : ChargeStep.trickle ≠ .stop)
      nonnegative small
    exact ⟨running_of_asks asks (by decide) nonnegative small nofun nofun,
      fun _ same => nomatch asks.1.symm.trans same⟩
  · split
    · have asks := update_asks charger charger.keepCount (by decide : ChargeStep.interCc ≠ .stop)
        (by decide : (0 : ℤ) ≤ 250) (by decide)
      exact ⟨running_of_asks asks (by decide) (by decide) (by decide) nofun
        fun _ => ⟨by decide, by decide⟩, fun _ same => nomatch asks.1.symm.trans same⟩
    · rename_i notFull
      have asks := update_asks charger charger.keepCount (by decide : ChargeStep.exterCc ≠ .stop)
        (by decide : (0 : ℤ) ≤ 750) (by decide)
      exact ⟨running_of_asks asks (by decide) (by decide) (by decide) (fun _ => by decide) nofun,
        fun full => absurd full notFull⟩

/-- The step of trickle current is the one that may be left for the step of high current with a
full battery. -/
theorem check_trickle (step : charger.step = .trickle) (bounded : Running charger) (vol : ℤ) :
    Running (usbChargeExternalSwCheck charger vol).1 ∧
      ((usbChargeExternalSwCheck charger vol).1.step = .exterCc ↔
        vbatTrickle ≤ vol ∧ ¬charger.keepCount < 5) := by
  obtain ⟨nonnegative, small⟩ := bounded.current
  have stays (keepCount : UInt32) := update_asks charger keepCount
    (by decide : ChargeStep.trickle ≠ .stop) nonnegative small
  simp only [usbChargeExternalSwCheck, step]
  split
  · rename_i enough
    split
    · rename_i early
      refine ⟨running_of_asks (stays _) (by decide) nonnegative small nofun nofun, ?_⟩
      exact ⟨fun same => (nomatch (stays _).1.symm.trans same),
        fun ⟨_, late⟩ => absurd early late⟩
    · rename_i late
      have asks := update_asks charger (charger.keepCount + 1)
        (by decide : ChargeStep.exterCc ≠ .stop) (by decide : (0 : ℤ) ≤ 750) (by decide)
      exact ⟨running_of_asks asks (by decide) (by decide) (by decide) (fun _ => by decide) nofun,
        fun _ => ⟨enough, late⟩, fun _ => asks.1⟩
  · rename_i low
    refine ⟨running_of_asks (stays _) (by decide) nonnegative small nofun nofun, ?_⟩
    exact ⟨fun same => (nomatch (stays _).1.symm.trans same), fun ⟨enough, _⟩ => absurd enough low⟩

theorem check_exterCc (step : charger.step = .exterCc) (bounded : Running charger) (vol : ℤ) :
    Running (usbChargeExternalSwCheck charger vol).1 ∧
      (4290 ≤ vol → (usbChargeExternalSwCheck charger vol).1.current < charger.current) := by
  obtain ⟨atLeast, atMost⟩ := bounded.exter step
  have spec := lowered_spec charger.current charger.keepCount vol 4250 4290 10
    (by decide : (0 : ℤ) < 20) (by decide : (20 : ℤ) ≤ 100) (by decide)
  simp only [usbChargeExternalSwCheck, step]
  generalize lowered charger.current charger.keepCount vol 4250 4290 10 20 100 = result at spec ⊢
  obtain ⟨elect, keepCount⟩ := result
  obtain ⟨above, below, high⟩ := spec
  simp only at above below high ⊢
  split
  · have asks := update_asks charger keepCount (by decide : ChargeStep.interCc ≠ .stop)
      (by decide : (0 : ℤ) ≤ 250) (by decide)
    refine ⟨running_of_asks asks (by decide) (by decide) (by decide) nofun
      fun _ => ⟨by decide, by decide⟩, fun _ => ?_⟩
    rw [asks.2]
    omega
  · have asks := update_asks charger keepCount (by decide : ChargeStep.exterCc ≠ .stop)
      (by omega : 0 ≤ elect) (by omega)
    refine ⟨running_of_asks asks (by decide) (by omega) (by omega) (fun _ => by omega) nofun,
      fun reached => ?_⟩
    rw [asks.2, high reached]
    omega

theorem check_interCc (step : charger.step = .interCc) (bounded : Running charger) (vol : ℤ) :
    Running (usbChargeExternalSwCheck charger vol).1 ∧
      (4240 ≤ vol → (usbChargeExternalSwCheck charger vol).1.current < charger.current) ∧
      (usbChargeExternalSwCheck charger vol).1.step ≠ .exterCc := by
  obtain ⟨atLeast, atMost⟩ := bounded.inter step
  have spec := lowered_spec charger.current charger.keepCount vol 4200 4240 20
    (by decide : (0 : ℤ) < 10) (by decide : (10 : ℤ) ≤ 50) (by decide)
  simp only [usbChargeExternalSwCheck, step]
  generalize lowered charger.current charger.keepCount vol 4200 4240 20 10 50 = result at spec ⊢
  obtain ⟨elect, keepCount⟩ := result
  obtain ⟨above, below, high⟩ := spec
  simp only at above below high ⊢
  have strictly (reached : 4240 ≤ vol) : elect < charger.current := by
    rw [high reached]
    omega
  split
  · have asks := update_asks charger keepCount (by decide : ChargeStep.interCv ≠ .stop)
      (by omega : 0 ≤ elect) (by omega)
    exact ⟨running_of_asks asks (by decide) (by omega) (by omega) nofun nofun,
      fun reached => asks.2.trans_lt (strictly reached), fun same => nomatch asks.1.symm.trans same⟩
  · have asks := update_asks charger keepCount (by decide : ChargeStep.interCc ≠ .stop)
      (by omega : 0 ≤ elect) (by omega)
    exact ⟨running_of_asks asks (by decide) (by omega) (by omega) nofun
        fun _ => ⟨by omega, by omega⟩,
      fun reached => asks.2.trans_lt (strictly reached), fun same => nomatch asks.1.symm.trans same⟩

theorem check_interCv (step : charger.step = .interCv) (bounded : Running charger) (vol : ℤ) :
    Running (usbChargeExternalSwCheck charger vol).1 ∧
      (usbChargeExternalSwCheck charger vol).1.step ≠ .exterCc := by
  obtain ⟨nonnegative, small⟩ := bounded.current
  simp only [usbChargeExternalSwCheck, step]
  split
  · split
    · have asks := update_asks charger (charger.keepCount + 1)
        (by decide : ChargeStep.interCv ≠ .stop) nonnegative small
      exact ⟨running_of_asks asks (by decide) nonnegative small nofun nofun,
        fun same => nomatch asks.1.symm.trans same⟩
    · have ignored := running_of_ignored (charger.keepCount + 1) bounded
      rw [step] at ignored
      exact ⟨ignored, nofun⟩
  · have asks := update_asks charger 0 (by decide : ChargeStep.interCc ≠ .stop)
      (by decide : (0 : ℤ) ≤ 250) (by decide)
    exact ⟨running_of_asks asks (by decide) (by decide) (by decide) nofun
        fun _ => ⟨by decide, by decide⟩, fun same => nomatch asks.1.symm.trans same⟩

/-! ## Every run -/

theorem running_plugged : Running (plugged keepCount) := by
  have asks : Asks (plugged keepCount) .start 0 := ⟨rfl, rfl⟩
  exact running_of_asks asks nofun le_rfl (by decide) nofun nofun

theorem running_step (bounded : Running charger) : Running (machine.step charger event).1 := by
  cases event with
  | plugIn powered =>
      cases powered with
      | false => exact bounded
      | true => exact running_plugged charger.keepCount
  | plugOut => exact bounded
  | check vol =>
      change Running (usbChargeExternalSwCheck charger vol).1
      cases step : charger.step with
      | stop => exact absurd step bounded.running
      | start => exact (check_start step bounded vol).1
      | trickle => exact (check_trickle step bounded vol).1
      | exterCc => exact (check_exterCc step bounded vol).1
      | interCc => exact (check_interCc step bounded vol).1
      | interCv => exact (check_interCv step bounded vol).1

theorem regulatingStep_iff_careful (bounded : Running charger) :
    RegulatingStep charger event ↔ Careful charger event := by
  cases event with
  | plugIn powered => exact Iff.rfl
  | plugOut => exact Iff.rfl
  | check vol =>
      change Regulates vol charger (usbChargeExternalSwCheck charger vol).1 ↔
        (charger.step = .trickle → vbatFull ≤ vol → charger.keepCount < 5)
      cases step : charger.step with
      | stop => exact absurd step bounded.running
      | start =>
          have entry := (check_start step bounded vol).2
          refine iff_of_true ⟨?_, ?_, fun full same => absurd same (entry full)⟩ nofun
          all_goals
            intro same
            cases step.symm.trans same
      | trickle =>
          have entry := (check_trickle step bounded vol).2
          constructor
          · rintro ⟨-, -, only⟩ - full
            by_contra late
            have enough : vbatTrickle ≤ vol := le_trans (by decide) full
            cases step.symm.trans (only full (entry.mpr ⟨enough, late⟩))
          · intro early
            refine ⟨?_, ?_, fun full same => absurd (early rfl full) (entry.mp same).2⟩
            all_goals
              intro same
              cases step.symm.trans same
      | exterCc =>
          have lowers := (check_exterCc step bounded vol).2
          refine iff_of_true ⟨fun _ => lowers, ?_, fun _ _ => step⟩ nofun
          intro same
          cases step.symm.trans same
      | interCc =>
          obtain ⟨-, lowers, entry⟩ := check_interCc step bounded vol
          refine iff_of_true ⟨?_, fun _ => lowers, fun _ same => absurd same entry⟩ nofun
          intro same
          cases step.symm.trans same
      | interCv =>
          have entry := (check_interCv step bounded vol).2
          refine iff_of_true ⟨?_, ?_, fun _ same => absurd same entry⟩ nofun
          all_goals
            intro same
            cases step.symm.trans same

theorem run_bounded (events : List Event) : Bounded (machine.run (plugged keepCount) events) :=
  (machine.run_invariant_of_step Running (running_plugged keepCount) running_step events).toBounded

/-- The charge is safe throughout a run exactly if no check of it finds a full battery in the step
of trickle current with its patience at an end. -/
theorem charge_safe_iff (keepCount : UInt32) (events : List Event) :
    ((∀ front, front <+: events → Bounded (machine.run (plugged keepCount) front)) ∧
        machine.Always RegulatingStep (plugged keepCount) events) ↔
      machine.Always Careful (plugged keepCount) events := by
  have regulating := machine.always_iff_always RegulatingStep Careful Running
    regulatingStep_iff_careful (fun event bounded _ => running_step event bounded)
    (running_plugged keepCount) events
  exact ⟨fun safe => regulating.mp safe.2,
    fun careful => ⟨fun front _ => run_bounded keepCount front, regulating.mpr careful⟩⟩

/-- A battery that is full at the sixth reading after a deep discharge: the step of high current
begins. -/
theorem charge_not_safe :
    ¬∀ (keepCount : UInt32) (events : List Event),
      (∀ front, front <+: events → Bounded (machine.run (plugged keepCount) front)) ∧
        machine.Always RegulatingStep (plugged keepCount) events := by
  intro every
  obtain ⟨-, -, -, -, -, -, -, regulates, -⟩ := every 0 [.check 2900, .check 3100, .check 3100,
    .check 3100, .check 3100, .check 3100, .check 4200]
  exact absurd (regulates.entry (by decide) (by decide)) (by decide)

end BdkFreertos.UsbCharge
