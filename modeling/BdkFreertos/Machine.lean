import Mathlib.Data.List.Induction

/-!
# Deterministic machines and their finite runs

A machine consumes one input at a time and emits one output for it.  Every interleaving of a
component's events is one input list, so a property of all interleavings is a property of all runs.
The rules below lift a fact about one step to a fact about every run.
-/

namespace BdkFreertos

/-- A total state machine which emits one output for every input. -/
structure Machine (State Input Output : Type*) where
  step : State → Input → State × Output

namespace Machine

variable {State Input Output : Type*} (machine : Machine State Input Output)

/-- The state reached by consuming every input in order. -/
def run (state : State) : List Input → State
  | [] => state
  | input :: inputs => run (machine.step state input).1 inputs

/-- The outputs emitted while consuming every input in order. -/
def outputs (state : State) : List Input → List Output
  | [] => []
  | input :: inputs =>
      (machine.step state input).2 :: outputs (machine.step state input).1 inputs

/-- Every input of a run meets a condition on the state in which it is consumed. -/
def Always (condition : State → Input → Prop) (state : State) : List Input → Prop
  | [] => True
  | input :: inputs =>
      condition state input ∧ Always condition (machine.step state input).1 inputs

instance decidableAlways (condition : State → Input → Prop)
    [∀ state input, Decidable (condition state input)] :
    ∀ state inputs, Decidable (machine.Always condition state inputs)
  | _, [] => isTrue trivial
  | state, input :: inputs =>
      have := decidableAlways condition (machine.step state input).1 inputs
      inferInstanceAs (Decidable (condition state input ∧ _))

section

variable (state : State)
include state

@[simp]
theorem run_nil : machine.run state [] = state := rfl

@[simp]
theorem run_cons (input : Input) (inputs : List Input) :
    machine.run state (input :: inputs) = machine.run (machine.step state input).1 inputs := rfl

@[simp]
theorem outputs_nil : machine.outputs state [] = [] := rfl

@[simp]
theorem outputs_cons (input : Input) (inputs : List Input) :
    machine.outputs state (input :: inputs) =
      (machine.step state input).2 :: machine.outputs (machine.step state input).1 inputs := rfl

theorem run_append (front back : List Input) :
    machine.run state (front ++ back) = machine.run (machine.run state front) back := by
  induction front generalizing state with
  | nil => rfl
  | cons input inputs induction => exact induction (machine.step state input).1

theorem outputs_append (front back : List Input) :
    machine.outputs state (front ++ back) =
      machine.outputs state front ++ machine.outputs (machine.run state front) back := by
  induction front generalizing state with
  | nil => rfl
  | cons input inputs induction => simp [induction]

end

variable {start : State} (condition first second : State → Input → Prop)
  (invariant good : State → Prop) (measure : State → ℕ) (strong : State → Prop)

theorem always_append (state : State) (front back : List Input) :
    machine.Always condition state (front ++ back) ↔
      machine.Always condition state front ∧
        machine.Always condition (machine.run state front) back := by
  induction front generalizing state with
  | nil => simp [Always]
  | cons input inputs induction => simp [Always, induction, and_assoc]

theorem always_and (state : State) (inputs : List Input) :
    machine.Always (fun state input => first state input ∧ second state input) state inputs ↔
      machine.Always first state inputs ∧ machine.Always second state inputs := by
  induction inputs generalizing state with
  | nil => simp [Always]
  | cons input inputs induction => simp only [Always, induction]; tauto

/-- A condition on inputs alone holds throughout a run as soon as it holds of every input. -/
theorem always_of_forall (condition : Input → Prop) {inputs : List Input} (state : State)
    (every : ∀ input ∈ inputs, condition input) :
    machine.Always (fun _ input => condition input) state inputs := by
  induction inputs generalizing state with
  | nil => trivial
  | cons input inputs induction =>
      exact ⟨every input List.mem_cons_self,
        induction _ fun later member => every later (List.mem_cons_of_mem input member)⟩

/-- Steps that count up and whose outputs depend only on the count. -/
theorem outputs_eq_map_range' (counted : State → ℕ → Prop) (condition : State → Input → Prop)
    (output : ℕ → Output) (next : ∀ {state input k}, counted state k → condition state input →
      (machine.step state input).2 = output k ∧ counted (machine.step state input).1 (k + 1))
    {k : ℕ} (initial : counted start k) {inputs : List Input}
    (always : machine.Always condition start inputs) :
    machine.outputs start inputs = (List.range' k inputs.length).map output := by
  induction inputs generalizing start k with
  | nil => rfl
  | cons input inputs induction =>
      obtain ⟨head_eq, counted_next⟩ := next initial always.1
      rw [outputs_cons, head_eq, induction counted_next always.2, List.length_cons,
        List.range'_succ, List.map_cons]

/-- Every output of a run is good exactly if every step of it gives a good output. -/
theorem forall_outputs_iff_always (good : Output → Prop) (start : State) (inputs : List Input) :
    (∀ output ∈ machine.outputs start inputs, good output) ↔
      machine.Always (fun state input => good (machine.step state input).2) start inputs := by
  induction inputs generalizing start with
  | nil => simp [Always]
  | cons input inputs induction => simp [Always, induction]

/-- Two conditions which agree under an invariant that one of them keeps hold throughout the same
runs. -/
theorem always_iff_always (invariant : State → Prop)
    (same : ∀ {state} input, invariant state → (first state input ↔ second state input))
    (preserved : ∀ {state} input, invariant state → second state input →
      invariant (machine.step state input).1) (initial : invariant start) (inputs : List Input) :
    machine.Always first start inputs ↔ machine.Always second start inputs := by
  induction inputs generalizing start with
  | nil => exact Iff.rfl
  | cons input inputs induction =>
      have head := same input initial
      constructor
      · rintro ⟨meets, later⟩
        have kept := preserved input initial (head.mp meets)
        exact ⟨head.mp meets, (induction kept).mp later⟩
      · rintro ⟨meets, later⟩
        exact ⟨head.mpr meets, (induction (preserved input initial meets)).mpr later⟩

/-- A predicate on the inputs, outputs and state so far, kept by every admissible step, holds at
the end of every admissible run. -/
theorem history_induction (history : List Input → List Output → State → Prop)
    (initial : history [] [] start)
    (preserved : ∀ {inputs outputs state input}, history inputs outputs state →
      condition state input →
        history (inputs ++ [input]) (outputs ++ [(machine.step state input).2])
          (machine.step state input).1) {inputs : List Input}
    (admissible : machine.Always condition start inputs) :
    history inputs (machine.outputs start inputs) (machine.run start inputs) := by
  induction inputs using List.reverseRecOn with
  | nil => exact initial
  | append_singleton inputs input induction =>
      obtain ⟨earlier, last⟩ :=
        (machine.always_append condition start inputs [input]).mp admissible
      rw [outputs_append, run_append]
      exact preserved (induction earlier) last.1

/-- An invariant kept by every admissible step holds at the end of every admissible run. -/
theorem run_invariant (initial : invariant start)
    (preserved : ∀ {state input}, invariant state → condition state input →
      invariant (machine.step state input).1) {inputs : List Input}
    (admissible : machine.Always condition start inputs) : invariant (machine.run start inputs) :=
  machine.history_induction condition (fun _ _ state => invariant state) initial
    (fun kept meets => preserved kept meets) admissible

/-- An invariant kept by every step holds of every reachable state. -/
theorem run_invariant_of_step (initial : invariant start)
    (preserved : ∀ {state} input, invariant state → invariant (machine.step state input).1)
    (inputs : List Input) : invariant (machine.run start inputs) :=
  machine.run_invariant (fun _ _ => True) invariant initial
    (fun kept _ => preserved _ kept)
    (machine.always_of_forall (fun _ => True) start fun _ _ => trivial)

/-- What does not hold at the start of a run and holds at its end comes about in one of its steps. -/
theorem exists_step_of_run (holds : State → Prop) (initial : ¬holds start) {inputs : List Input}
    (final : holds (machine.run start inputs)) :
    ∃ front input back, inputs = front ++ input :: back ∧ ¬holds (machine.run start front) ∧
      holds (machine.step (machine.run start front) input).1 := by
  induction inputs using List.reverseRecOn with
  | nil => exact absurd final initial
  | append_singleton front input induction =>
      by_cases earlier : holds (machine.run start front)
      · obtain ⟨front, first, back, rfl, before, after⟩ := induction earlier
        exact ⟨front, first, back ++ [input], by simp, before, after⟩
      · rw [run_append] at final
        exact ⟨front, input, [], rfl, earlier, final⟩

section

variable (smaller : ∀ {state input}, invariant state → condition state input →
    invariant (machine.step state input).1 ∧
      measure (machine.step state input).1 < measure state)
include smaller

/-- When every admissible step makes a measure smaller, an admissible run has no more steps than
the measure of its first state. -/
theorem length_le_measure (initial : invariant start) {inputs : List Input}
    (admissible : machine.Always condition start inputs) : inputs.length ≤ measure start := by
  induction inputs generalizing start with
  | nil => exact Nat.zero_le _
  | cons input inputs induction =>
      obtain ⟨meets, later⟩ := admissible
      obtain ⟨kept, less⟩ := smaller initial meets
      exact Nat.lt_of_le_of_lt (induction kept later) less

/-- When besides a run can go on wherever it has not ended, some admissible run ends. -/
theorem exists_run_of_measure (ended : State → Prop)
    (goes_on : ∀ {state}, invariant state → ¬ended state → ∃ input, condition state input)
    (initial : invariant start) :
    ∃ inputs, machine.Always condition start inputs ∧ ended (machine.run start inputs) := by
  induction bound : measure start using Nat.strongRecOn generalizing start with
  | ind bound induction =>
      by_cases here : ended start
      · exact ⟨[], trivial, here⟩
      · obtain ⟨input, meets⟩ := goes_on initial here
        obtain ⟨kept, less⟩ := smaller initial meets
        obtain ⟨inputs, later, final⟩ := induction _ (bound ▸ less) kept rfl
        exact ⟨input :: inputs, ⟨meets, later⟩, final⟩

end

section

variable (preserved : ∀ {state} input, invariant state → invariant (machine.step state input).1)
include preserved

/-- A run visits good states only exactly if all its steps are admissible, when a strengthening of
goodness is kept by admissible steps and every other step leads from it to a state that is not
good. -/
theorem forall_run_iff_always_of_strong (weaker : ∀ {state}, strong state → good state)
    (exact : ∀ {state} input, invariant state → strong state →
      (good (machine.step state input).1 ↔ condition state input))
    (kept : ∀ {state} input, invariant state → strong state → condition state input →
      strong (machine.step state input).1) (initial : invariant start)
    (strong_initial : strong start) (inputs : List Input) :
    (∀ front, front <+: inputs → good (machine.run start front)) ↔
      machine.Always condition start inputs := by
  induction inputs generalizing start with
  | nil => simp [Always, weaker strong_initial]
  | cons input inputs induction =>
      have step_exact := exact input initial strong_initial
      have step_kept := kept input initial strong_initial
      have run_exact := induction (preserved input initial)
      constructor
      · intro every
        have next : good (machine.step start input).1 :=
          every [input] ⟨inputs, rfl⟩
        have meets := step_exact.mp next
        refine ⟨meets, (run_exact (step_kept meets)).mp ?_⟩
        intro front initialPart
        exact every (input :: front) ((List.prefix_cons_inj input).mpr initialPart)
      · rintro ⟨meets, later⟩ front initialPart
        rcases front with _ | ⟨first, front⟩
        · exact weaker strong_initial
        · obtain ⟨rfl, rest⟩ := List.cons_prefix_cons.mp initialPart
          exact (run_exact (step_kept meets)).mpr later front rest

/-- When a step leads from a good state to a good state exactly if it is admissible, a run visits
good states only exactly if all its steps are admissible. -/
theorem forall_run_iff_always (exact : ∀ {state} input, invariant state → good state →
      (good (machine.step state input).1 ↔ condition state input)) (initial : invariant start)
    (good_initial : good start) (inputs : List Input) :
    (∀ front, front <+: inputs → good (machine.run start front)) ↔
      machine.Always condition start inputs :=
  machine.forall_run_iff_always_of_strong condition invariant good good preserved id exact
    (fun input kept isGood meets => (exact input kept isGood).mpr meets) initial good_initial inputs

end

/-- All runs of a set end in good states exactly if all their steps are admissible, when a
strengthening of goodness is kept by admissible steps and behind every other step the set has a run
that ends in a state that is not good. -/
theorem forall_mem_good_iff_always {runs : Set (List Input)}
    (shorter : ∀ {front input}, front ++ [input] ∈ runs → front ∈ runs)
    (weaker : ∀ {state}, strong state → good state)
    (kept : ∀ {front input}, front ++ [input] ∈ runs → strong (machine.run start front) →
      condition (machine.run start front) input →
        strong (machine.step (machine.run start front) input).1)
    (escapes : ∀ {front input}, front ++ [input] ∈ runs → strong (machine.run start front) →
      ¬condition (machine.run start front) input → ∃ run ∈ runs, ¬good (machine.run start run))
    (initial : strong start) :
    (∀ run ∈ runs, good (machine.run start run)) ↔
      ∀ run ∈ runs, machine.Always condition start run := by
  have strongly {run : List Input} (member : run ∈ runs)
      (admissible : machine.Always condition start run) : strong (machine.run start run) := by
    induction run using List.reverseRecOn with
    | nil => exact initial
    | append_singleton front input induction =>
        obtain ⟨earlier, last, -⟩ :=
          (machine.always_append condition start front [input]).mp admissible
        rw [run_append]
        exact kept member (induction (shorter member) earlier) last
  constructor
  · intro every run member
    induction run using List.reverseRecOn with
    | nil => trivial
    | append_singleton front input induction =>
        have earlier := induction (shorter member)
        refine (machine.always_append condition start front [input]).mpr ⟨earlier, ?_, trivial⟩
        by_contra careless
        obtain ⟨run, run_mem, bad⟩ := escapes member (strongly (shorter member) earlier) careless
        exact bad (every run run_mem)
  · intro every run member
    exact weaker (strongly member (every run member))

/-- Every initial part of a run is a good history exactly if all steps of the run are admissible,
when a strengthening of goodness is kept by admissible steps and every other step leads from it to
a history that is not good. -/
theorem forall_history_iff_always_of_strong (good strong : List Input → List Output → State → Prop)
    (weaker : ∀ {inputs outputs state}, strong inputs outputs state → good inputs outputs state)
    (exact : ∀ {inputs outputs state} input, strong inputs outputs state →
      (good (inputs ++ [input]) (outputs ++ [(machine.step state input).2])
          (machine.step state input).1 ↔
        condition state input))
    (kept : ∀ {inputs outputs state} input, strong inputs outputs state → condition state input →
      strong (inputs ++ [input]) (outputs ++ [(machine.step state input).2])
        (machine.step state input).1) (initial : strong [] [] start) (inputs : List Input) :
    (∀ front, front <+: inputs →
        good front (machine.outputs start front) (machine.run start front)) ↔
      machine.Always condition start inputs := by
  have strongly {front : List Input} (admissible : machine.Always condition start front) :
      strong front (machine.outputs start front) (machine.run start front) :=
    machine.history_induction condition strong initial (fun isStrong meets => kept _ isStrong meets)
      admissible
  constructor
  · intro every
    induction inputs using List.reverseRecOn with
    | nil => trivial
    | append_singleton inputs input induction =>
        have earlier : machine.Always condition start inputs :=
          induction fun front initialPart => every front (initialPart.trans (List.prefix_append _ _))
        have last := every _ (List.prefix_refl _)
        rw [outputs_append, run_append] at last
        exact (machine.always_append condition start inputs [input]).mpr
          ⟨earlier, (exact input (strongly earlier)).mp last, trivial⟩
  · rintro admissible front ⟨back, rfl⟩
    exact weaker (strongly ((machine.always_append condition start front back).mp admissible).1)

/-- When a step leads from a good history to a good one exactly if it is admissible, every initial
part of a run is a good history exactly if all steps of the run are admissible. -/
theorem forall_history_iff_always (good : List Input → List Output → State → Prop)
    (initial : good [] [] start)
    (exact : ∀ {inputs outputs state} input, good inputs outputs state →
      (good (inputs ++ [input]) (outputs ++ [(machine.step state input).2])
          (machine.step state input).1 ↔
        condition state input)) (inputs : List Input) :
    (∀ front, front <+: inputs →
        good front (machine.outputs start front) (machine.run start front)) ↔
      machine.Always condition start inputs :=
  machine.forall_history_iff_always_of_strong condition good good id exact
    (fun input isGood meets => (exact input isGood).mpr meets) initial inputs

section

variable {Input' Output' State' : Type*} (abstract : Machine State' Input' Output')
include abstract

/-- A machine whose every admissible step is matched by a step of another one has its admissible
runs matched: the final states stay related and the outputs agree. -/
theorem run_simulation_of_always (condition : State → Input → Prop)
    (related : State → State' → Prop) (mapInput : Input → Input') (mapOutput : Output → Output')
    (matched : ∀ {state state'} input, related state state' → condition state input →
      related (machine.step state input).1 (abstract.step state' (mapInput input)).1 ∧
        mapOutput (machine.step state input).2 = (abstract.step state' (mapInput input)).2)
    {start' : State'} (initial : related start start') {inputs : List Input}
    (admissible : machine.Always condition start inputs) :
    related (machine.run start inputs) (abstract.run start' (inputs.map mapInput)) ∧
      (machine.outputs start inputs).map mapOutput =
        abstract.outputs start' (inputs.map mapInput) := by
  induction inputs generalizing start start' with
  | nil => exact ⟨initial, rfl⟩
  | cons input inputs induction =>
      obtain ⟨next, output_eq⟩ := matched input initial admissible.1
      obtain ⟨final, outputs_eq⟩ := induction next admissible.2
      refine ⟨final, ?_⟩
      simp [output_eq, outputs_eq]

/-- The same when admissibility is a matter of the inputs alone. -/
theorem run_simulation (condition : Input → Prop) (related : State → State' → Prop)
    (mapInput : Input → Input') (mapOutput : Output → Output')
    (matched : ∀ {state state'} input, related state state' → condition input →
      related (machine.step state input).1 (abstract.step state' (mapInput input)).1 ∧
        mapOutput (machine.step state input).2 = (abstract.step state' (mapInput input)).2)
    {start' : State'} (initial : related start start') {inputs : List Input}
    (admissible : ∀ input ∈ inputs, condition input) :
    related (machine.run start inputs) (abstract.run start' (inputs.map mapInput)) ∧
      (machine.outputs start inputs).map mapOutput =
        abstract.outputs start' (inputs.map mapInput) :=
  machine.run_simulation_of_always abstract (fun _ input => condition input) related mapInput
    mapOutput matched initial (machine.always_of_forall condition start admissible)

/-- The same where the other machine takes a step for some of the inputs only. -/
theorem run_simulation_of_stuttering (condition : State → Input → Prop)
    (related : State → State' → Prop) (mapInput : Input → Option Input')
    (matched : ∀ {state state'} input, related state state' → condition state input →
      related (machine.step state input).1 (abstract.run state' (mapInput input).toList))
    {start' : State'} (initial : related start start') {inputs : List Input}
    (admissible : machine.Always condition start inputs) :
    related (machine.run start inputs) (abstract.run start' (inputs.filterMap mapInput)) := by
  induction inputs generalizing start start' with
  | nil => exact initial
  | cons input inputs induction =>
      have next := matched input initial admissible.1
      have final := induction next admissible.2
      rw [← run_append] at final
      rw [List.filterMap_cons]
      cases taken : mapInput input with
      | none | some step => rwa [taken] at final

end

end Machine
end BdkFreertos
