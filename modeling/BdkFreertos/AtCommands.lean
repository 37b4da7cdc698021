import BdkFreertos.CString
import BdkFreertos.Machine

/-!
# The command table of the AT server

Commands are registered by address in a table of fixed size, found by name and listed by the help
command.  Registration appends behind a count which removal does not lower: removal blanks the slot
of the command instead.  Lookup and listing walk the slots up to the count and dereference each one.
-/

namespace BdkFreertos.AtServer

def atsvrMaxCommands : ℕ := 64

/-- A command record `struct _atsvr_command`; a handler is known by its address. -/
structure AtsvrCommand where
  name : Option CString
  help : Option CString
  function : Option ℕ
  deriving DecidableEq

abbrev CommandRom : Type := ℕ → AtsvrCommand

/-- The table of an environment `_atsvr_env_t`. -/
structure AtsvrEnv where
  /-- Addresses of records, or `NULL`. -/
  commands : List (Option ℕ)
  commands_length : commands.length = atsvrMaxCommands
  numCommands : ℕ
  deriving DecidableEq

/-- Result codes `_atsvr_st`. -/
inductive AtsvrSt
  | ok
  | severeErr
  | error
  | general
  | nnMemoryErr
  deriving DecidableEq

/-- A slot that holds `NULL` has been dereferenced. -/
inductive Fault
  | emptySlot
  deriving DecidableEq

/-- The table of `_atsvr_def_config` before any registration. -/
def atsvrDefConfig : AtsvrEnv where
  commands := List.replicate atsvrMaxCommands none
  commands_length := List.length_replicate
  numCommands := 0

section Table

variable (rom : CommandRom)

def Callable (command : ℕ) : Prop :=
  (rom command).name ≠ none ∧ (rom command).function ≠ none

instance (command : ℕ) : Decidable (Callable rom command) :=
  inferInstanceAs (Decidable (_ ∧ _))

/-- Append a record to the table. -/
def atsvrRegisterCommand (env : AtsvrEnv) (command : ℕ) : AtsvrEnv × AtsvrSt :=
  if Callable rom command then
    if env.numCommands < atsvrMaxCommands then
      if some command ∈ env.commands.take env.numCommands then
        (env, .general)
      else
        ({ commands := env.commands.set env.numCommands (some command)
           commands_length := by rw [List.length_set, env.commands_length]
           numCommands := env.numCommands + 1 }, .ok)
    else
      (env, .error)
  else
    (env, .general)

/-- Blank the first slot that holds a record. -/
def atsvrUnregisterCommand (env : AtsvrEnv) (command : ℕ) : AtsvrEnv × AtsvrSt :=
  if Callable rom command then
    if env.numCommands < atsvrMaxCommands then
      match (env.commands.take env.numCommands).findIdx? (· = some command) with
      | some i =>
          ({ env with
             commands := env.commands.set i none
             commands_length := by rw [List.length_set, env.commands_length] }, .ok)
      | none => (env, .ok)
    else
      (env, .ok)
  else
    (env, .general)

/-- Whether a command's name is the wanted one; a non-zero `len` asks for the first so many bytes
only. -/
def nameMatches (name : CString) (len : ℕ) (cmdName : CString) : Bool :=
  if len ≠ 0 then
    cmdName.strlen ≥ len && cmdName.strncmp name len
  else
    cmdName.strlen = name.strlen && cmdName.strcmp name

/-- The loop of `_atsvr_lookup_at_command` over the slots that are left, with the number of named
commands still to be seen. -/
def lookupLoop (name : CString) (len : ℕ) : ℕ → List (Option ℕ) → Except Fault (Option ℕ)
  | 0, _ => .ok none
  | _ + 1, [] => .ok none
  | _ + 1, none :: _ => .error .emptySlot
  | left + 1, some command :: slots =>
      match (rom command).name with
      | none => lookupLoop name len (left + 1) slots
      | some cmdName =>
          if nameMatches name len cmdName then
            .ok (some command)
          else
            lookupLoop name len left slots

/-- Find a command by name. -/
def atsvrLookupAtCommand (env : AtsvrEnv) (name : CString) (len : ℕ) :
    Except Fault (Option ℕ) :=
  lookupLoop rom name len env.numCommands env.commands

/-- The loop of `_atsvr_help_command`: the name and help text of every line it prints. -/
def helpLoop : ℕ → List (Option ℕ) → Except Fault (List (CString × Option CString))
  | 0, _ => .ok []
  | _ + 1, [] => .ok []
  | _ + 1, none :: _ => .error .emptySlot
  | left + 1, some command :: slots =>
      match (rom command).name with
      | none => helpLoop (left + 1) slots
      | some cmdName => do
          let lines ← helpLoop left slots
          return (cmdName, (rom command).help) :: lines

def atsvrHelpCommand (env : AtsvrEnv) : Except Fault (List (CString × Option CString)) :=
  helpLoop rom env.numCommands env.commands

/-- A call of the registration interface. -/
inductive Request
  | register (command : ℕ)
  | unregister (command : ℕ)
  deriving DecidableEq

/-- The table beside the commands that are registered as its callers see it: those whose
registration was accepted and which were not unregistered since. -/
structure TableState where
  env : AtsvrEnv
  registered : List ℕ

/-- Before any request. -/
def tableInit : TableState where
  env := atsvrDefConfig
  registered := []

/-- The table under requests. -/
def commandTable : Machine TableState Request AtsvrSt where
  step state
    | .register command =>
        let result := atsvrRegisterCommand rom state.env command
        ({ env := result.1
           registered :=
             if result.2 = .ok then state.registered ++ [command] else state.registered },
          result.2)
    | .unregister command =>
        let result := atsvrUnregisterCommand rom state.env command
        ({ env := result.1
           registered :=
             if result.2 = .ok then state.registered.filter (· ≠ command)
             else state.registered },
          result.2)

/-! ## Histories without removal -/

/-- Whether a registered command's name answers a lookup. -/
def answers (name : CString) (len : ℕ) (command : ℕ) : Bool :=
  match (rom command).name with
  | none => false
  | some cmdName => nameMatches name len cmdName

def listed (command : ℕ) : Option (CString × Option CString) :=
  (rom command).name.map fun name => (name, (rom command).help)

/-- Lookup finds registered commands of the wanted name only, finds one when there is one, and
neither lookup nor the listing reads an empty slot. -/
structure Served (state : TableState) : Prop where
  found : ∀ name command, atsvrLookupAtCommand rom state.env name 0 = .ok (some command) →
    command ∈ state.registered ∧ (rom command).name = some name
  missing : ∀ name, atsvrLookupAtCommand rom state.env name 0 = .ok none →
    ∀ command ∈ state.registered, (rom command).name ≠ some name
  lookup_reads : ∀ name len, atsvrLookupAtCommand rom state.env name len ≠ .error .emptySlot
  help_reads : atsvrHelpCommand rom state.env ≠ .error .emptySlot

/-- A request that does not remove a registered command. -/
def Keeps (state : TableState) : Request → Prop
  | .register _ => True
  | .unregister command => command ∉ state.registered

instance (state : TableState) : (request : Request) → Decidable (Keeps state request)
  | .register _ => isTrue trivial
  | .unregister command => inferInstanceAs (Decidable (command ∉ state.registered))

/-- The slots up to the count are the registered commands in order, and all can be called. -/
structure Aligned (state : TableState) : Prop where
  slots : state.env.commands.take state.env.numCommands = state.registered.map some
  count : state.registered.length = state.env.numCommands
  callable : ∀ command ∈ state.registered, Callable rom command

variable {rom}

variable {state : TableState} {slots : List (Option ℕ)} {env : AtsvrEnv} (name : CString)

theorem nameMatches_zero (cmdName : CString) :
    nameMatches name 0 cmdName = true ↔ cmdName = name := by
  simp only [nameMatches, ne_eq, not_true_eq_false, if_false, Bool.and_eq_true,
    decide_eq_true_eq, CString.strcmp_iff]
  constructor
  · exact fun same => same.2
  · rintro rfl
    exact ⟨rfl, rfl⟩

theorem answers_zero (command : ℕ) :
    answers rom name 0 command = true ↔ (rom command).name = some name := by
  rw [answers]
  cases named : (rom command).name with
  | none => simp
  | some cmdName => simp [nameMatches_zero]

theorem lookupLoop_map_some (len : ℕ) (commands : List ℕ) (rest : List (Option ℕ))
    (callable : ∀ command ∈ commands, Callable rom command) :
    lookupLoop rom name len commands.length (commands.map some ++ rest) =
      .ok (commands.find? (answers rom name len)) := by
  induction commands with
  | nil => simp [lookupLoop]
  | cons command commands induction =>
      have remaining := induction fun later member =>
        callable later (List.mem_cons_of_mem command member)
      obtain ⟨cmdName, named⟩ :=
        Option.ne_none_iff_exists'.mp (callable command List.mem_cons_self).1
      simp only [List.length_cons, List.map_cons, List.cons_append, lookupLoop, named,
        List.find?_cons, answers]
      cases nameMatches name len cmdName with
      | true => rfl
      | false => simpa using remaining

theorem helpLoop_map_some (commands : List ℕ) (rest : List (Option ℕ))
    (callable : ∀ command ∈ commands, Callable rom command) :
    helpLoop rom commands.length (commands.map some ++ rest) =
      .ok (commands.filterMap (listed rom)) := by
  induction commands with
  | nil => simp [helpLoop]
  | cons command commands induction =>
      have remaining := induction fun later member =>
        callable later (List.mem_cons_of_mem command member)
      obtain ⟨cmdName, named⟩ :=
        Option.ne_none_iff_exists'.mp (callable command List.mem_cons_self).1
      have line : listed rom command = some (cmdName, (rom command).help) := by
        rw [listed, named, Option.map_some]
      simp only [List.length_cons, List.map_cons, List.cons_append, helpLoop, named, remaining,
        List.filterMap_cons, line]
      rfl

section

variable (aligned : Aligned rom state)
include aligned

theorem Aligned.commands_eq :
    state.env.commands =
      state.registered.map some ++ state.env.commands.drop state.env.numCommands := by
  rw [← aligned.slots, List.take_append_drop]

theorem Aligned.lookup_eq (name : CString) (len : ℕ) :
    atsvrLookupAtCommand rom state.env name len =
      .ok (state.registered.find? (answers rom name len)) := by
  rw [atsvrLookupAtCommand, aligned.commands_eq, ← aligned.count]
  exact lookupLoop_map_some name len state.registered _ aligned.callable

theorem Aligned.help_eq :
    atsvrHelpCommand rom state.env = .ok (state.registered.filterMap (listed rom)) := by
  rw [atsvrHelpCommand, aligned.commands_eq, ← aligned.count]
  exact helpLoop_map_some state.registered _ aligned.callable

theorem Aligned.served :
    Served rom state where
  found := by
    intro name command found
    rw [aligned.lookup_eq name 0] at found
    have first : state.registered.find? (answers rom name 0) = some command := by
      simpa using found
    exact ⟨List.mem_of_find?_eq_some first,
      (answers_zero name command).mp (List.find?_some first)⟩
  missing := by
    intro name missing command registered named
    rw [aligned.lookup_eq name 0] at missing
    have none_answers : state.registered.find? (answers rom name 0) = none := by
      simpa using missing
    exact List.find?_eq_none.mp none_answers command registered
      ((answers_zero name command).mpr named)
  lookup_reads := by
    intro name len
    simp [aligned.lookup_eq name len]
  help_reads := by
    simp [aligned.help_eq]

end

theorem aligned_init : Aligned rom tableInit where
  slots := rfl
  count := rfl
  callable := by simp [tableInit]

theorem aligned_register (aligned : Aligned rom state) (command : ℕ) :
    Aligned rom ((commandTable rom).step state (.register command)).1 := by
  simp only [commandTable, atsvrRegisterCommand]
  split
  next callable =>
      split
      next room =>
          split
          next present => simpa using aligned
          next fresh =>
              simp only [if_true]
              refine ⟨?_, ?_, ?_⟩
              · have slot_exists : state.env.numCommands < state.env.commands.length := by
                  rw [state.env.commands_length]
                  exact room
                simp [List.take_add_one, List.take_set_of_le, aligned.slots, slot_exists]
              · simp [aligned.count]
              · intro later member
                rcases List.mem_append.mp member with earlier | last
                · exact aligned.callable later earlier
                · rw [List.mem_singleton.mp last]
                  exact callable
      next full => simpa using aligned
  next incomplete => simpa using aligned

theorem aligned_unregister (aligned : Aligned rom state) {command : ℕ}
    (absent : command ∉ state.registered) :
    Aligned rom ((commandTable rom).step state (.unregister command)).1 := by
  have not_found : (state.env.commands.take state.env.numCommands).findIdx?
      (· = some command) = none := by
    rw [aligned.slots]
    simp only [List.findIdx?_eq_none_iff, List.mem_map, decide_eq_false_iff_not]
    rintro slot ⟨registered, member, rfl⟩ same
    exact absent (Option.some.inj same ▸ member)
  have unchanged : state.registered.filter (fun other => decide (other ≠ command)) =
      state.registered := by
    rw [List.filter_eq_self]
    intro registered member
    simp only [decide_eq_true_eq]
    rintro rfl
    exact absent member
  simp only [commandTable, atsvrUnregisterCommand, not_found]
  split
  · split <;> simpa only [if_true, unchanged] using aligned
  · simpa using aligned

theorem aligned_step {request : Request} (aligned : Aligned rom state)
    (keeps : Keeps state request) : Aligned rom ((commandTable rom).step state request).1 := by
  cases request with
  | register command => exact aligned_register aligned command
  | unregister command => exact aligned_unregister aligned keeps

theorem aligned_of_keeps {requests : List Request}
    (keeps : (commandTable rom).Always Keeps tableInit requests) :
    Aligned rom ((commandTable rom).run tableInit requests) :=
  (commandTable rom).run_invariant Keeps (Aligned rom) aligned_init
    (fun kept meets => aligned_step kept meets) keeps

/-- In every history in which no registered command is removed, lookup answers for the registered
commands after each request and no empty slot is read. -/
theorem served_of_keeps (rom : CommandRom) {requests : List Request}
    (keeps : (commandTable rom).Always Keeps tableInit requests) {front : List Request}
    (initialPart : front <+: requests) :
    Served rom ((commandTable rom).run tableInit front) := by
  obtain ⟨back, rfl⟩ := initialPart
  exact (aligned_of_keeps (((commandTable rom).always_append Keeps tableInit front back).mp
    keeps).1).served

/-- A name of a demonstration record: `AT` with a further byte. -/
def atName (last : UInt8) (last_ne : last ≠ 0) : CString where
  bytes := [0x41, 0x54, last]
  noNul := by simpa using last_ne.symm

theorem digit_ne_nul : (0x31 : UInt8) ≠ 0 := by decide

/-- Two records with names of their own; every other address has none. -/
def twoCommands : CommandRom
  | 0 => { name := some (atName 0x31 digit_ne_nul), help := none, function := some 0 }
  | 1 => { name := some (atName 0x32 (by decide)), help := none, function := some 1 }
  | _ => { name := none, help := none, function := none }

theorem served_of_keeps_twoCommands :
    Served twoCommands ((commandTable twoCommands).run tableInit
      [.register 0, .register 1, .register 0, .unregister 2]) := by
  have keeps : (commandTable twoCommands).Always Keeps tableInit
      [.register 0, .register 1, .register 0, .unregister 2] := by
    decide
  exact served_of_keeps twoCommands keeps (List.prefix_refl _)

/-- One registration followed by the removal of the same command: the listing and the lookup of
that name dereference the blank slot. -/
theorem removal_reads_empty_slot :
    ¬ ∀ (rom : CommandRom) (requests : List Request),
      Served rom ((commandTable rom).run tableInit requests) := by
  intro served
  have after_removal := served twoCommands [.register 0, .unregister 0]
  have lookup_reads := after_removal.lookup_reads (atName 0x31 (by decide)) 0
  exact lookup_reads (by decide)

/-! ## After a removal -/

/-- A slot below the count is blank and the others below it hold callable commands. -/
structure Blanked (rom : CommandRom) (env : AtsvrEnv) : Prop where
  blank : none ∈ env.commands.take env.numCommands
  callable : ∀ command, some command ∈ env.commands.take env.numCommands →
    Callable rom command

theorem helpLoop_blank {left : ℕ} (blank : none ∈ slots.take left)
    (callable : ∀ command, some command ∈ slots.take left → Callable rom command) :
    helpLoop rom left slots = .error .emptySlot := by
  induction slots generalizing left with
  | nil => simp at blank
  | cons slot slots induction =>
      cases left with
      | zero => simp at blank
      | succ left =>
          rw [List.take_succ_cons] at blank callable
          cases slot with
          | none => rfl
          | some command =>
              obtain ⟨cmdName, named⟩ :=
                Option.ne_none_iff_exists'.mp (callable command List.mem_cons_self).1
              have later_blank : none ∈ slots.take left := by
                simpa using blank
              have later_error := induction later_blank fun later member =>
                callable later (List.mem_cons_of_mem _ member)
              simp only [helpLoop, named, later_error]
              rfl

/-- A registration appends a slot with a callable command, or changes nothing. -/
theorem take_register (rom : CommandRom) (env : AtsvrEnv) (command : ℕ) :
    (atsvrRegisterCommand rom env command).1 = env ∨
      Callable rom command ∧ env.numCommands < atsvrMaxCommands ∧
        (atsvrRegisterCommand rom env command).1.numCommands = env.numCommands + 1 ∧
        (atsvrRegisterCommand rom env command).1.commands.take (env.numCommands + 1) =
          env.commands.take env.numCommands ++ [some command] := by
  rw [atsvrRegisterCommand]
  split
  next callable =>
      split
      next room =>
          split
          next present => exact Or.inl rfl
          next fresh =>
              have slot_exists : env.numCommands < env.commands.length := by
                rw [env.commands_length]
                exact room
              refine Or.inr ⟨callable, room, rfl, ?_⟩
              simp [List.take_add_one, List.take_set_of_le, slot_exists]
      next full => exact Or.inl rfl
  next incomplete => exact Or.inl rfl

theorem blank_set {i : ℕ} (inside : i < slots.length) :
    none ∈ slots.set i none ∧
      ∀ command, some command ∈ slots.set i none → some command ∈ slots := by
  refine ⟨List.mem_set inside none, ?_⟩
  intro command member
  rcases List.mem_or_eq_of_mem_set member with earlier | blank
  · exact earlier
  · exact absurd blank (by simp)

theorem take_unregister (rom : CommandRom) (env : AtsvrEnv) (command : ℕ) :
    (atsvrUnregisterCommand rom env command).1 = env ∨
      (atsvrUnregisterCommand rom env command).1.numCommands = env.numCommands ∧
        ∃ i < (env.commands.take env.numCommands).length,
          (atsvrUnregisterCommand rom env command).1.commands.take env.numCommands =
            (env.commands.take env.numCommands).set i none := by
  rw [atsvrUnregisterCommand]
  split
  next callable =>
      split
      next room =>
          split
          next i found =>
              have inside := (List.findIdx?_eq_some_iff_getElem.mp found).1
              exact Or.inr ⟨rfl, i, inside, List.take_set⟩
          next absent => exact Or.inl rfl
      next full => exact Or.inl rfl
  next incomplete => exact Or.inl rfl

/-- The commands in the slots that are counted can be called. -/
def SlotsCallable (rom : CommandRom) (env : AtsvrEnv) : Prop :=
  ∀ command, some command ∈ env.commands.take env.numCommands → Callable rom command

section

variable (callable : SlotsCallable rom env) (command : ℕ)
include callable

theorem callable_register : SlotsCallable rom (atsvrRegisterCommand rom env command).1 := by
  intro later member
  rcases take_register rom env command with same | ⟨new, -, count_eq, slots_eq⟩
  · rw [same] at member
    exact callable later member
  · rw [count_eq, slots_eq] at member
    rcases List.mem_append.mp member with earlier | last
    · exact callable later earlier
    · rw [Option.some.inj (List.mem_singleton.mp last)]
      exact new

theorem callable_unregister : SlotsCallable rom (atsvrUnregisterCommand rom env command).1 := by
  intro later member
  rcases take_unregister rom env command with same | ⟨count_eq, i, inside, slots_eq⟩
  · rw [same] at member
    exact callable later member
  · rw [count_eq, slots_eq] at member
    exact callable later ((blank_set inside).2 later member)

end

theorem Blanked.register (blanked : Blanked rom env) (command : ℕ) :
    Blanked rom (atsvrRegisterCommand rom env command).1 := by
  refine ⟨?_, callable_register blanked.callable command⟩
  rcases take_register rom env command with same | ⟨-, -, count_eq, slots_eq⟩
  · rw [same]
    exact blanked.blank
  · rw [count_eq, slots_eq]
    exact List.mem_append_left _ blanked.blank

theorem Blanked.unregister (blanked : Blanked rom env) (command : ℕ) :
    Blanked rom (atsvrUnregisterCommand rom env command).1 := by
  refine ⟨?_, callable_unregister blanked.callable command⟩
  rcases take_unregister rom env command with same | ⟨count_eq, i, inside, slots_eq⟩
  · rw [same]
    exact blanked.blank
  · rw [count_eq, slots_eq]
    exact (blank_set inside).1

theorem Aligned.blanked (aligned : Aligned rom state) {command : ℕ}
    (registered : command ∈ state.registered) (room : state.env.numCommands < atsvrMaxCommands) :
    Blanked rom (atsvrUnregisterCommand rom state.env command).1 := by
  have present : some command ∈ state.env.commands.take state.env.numCommands := by
    rw [aligned.slots]
    exact List.mem_map_of_mem registered
  obtain ⟨i, found⟩ : ∃ i, (state.env.commands.take state.env.numCommands).findIdx?
      (· = some command) = some i := by
    refine Option.ne_none_iff_exists'.mp fun absent => ?_
    simpa using List.findIdx?_eq_none_iff.mp absent (some command) present
  have inside := (List.findIdx?_eq_some_iff_getElem.mp found).1
  obtain ⟨blank, no_more⟩ := blank_set inside
  rw [atsvrUnregisterCommand, if_pos (aligned.callable command registered), if_pos room, found]
  refine ⟨?_, ?_⟩
  · dsimp only
    rw [List.take_set]
    exact blank
  · intro later member
    dsimp only at member
    rw [List.take_set] at member
    have kept := no_more later member
    rw [aligned.slots] at kept
    obtain ⟨other, other_registered, same⟩ := List.mem_map.mp kept
    rw [← Option.some.inj same]
    exact aligned.callable other other_registered

/-- Once a registered command has been removed from a table that is not full, the listing
dereferences an empty slot after every further history. -/
theorem help_faults_after_removal {state : TableState} (aligned : Aligned rom state)
    {command : ℕ} (registered : command ∈ state.registered)
    (room : state.env.numCommands < atsvrMaxCommands) (requests : List Request) :
    atsvrHelpCommand rom
        ((commandTable rom).run state (.unregister command :: requests)).env =
      .error .emptySlot := by
  have blanked : Blanked rom
      ((commandTable rom).run state (.unregister command :: requests)).env := by
    rw [Machine.run_cons]
    refine (commandTable rom).run_invariant_of_step (fun later => Blanked rom later.env)
      (aligned.blanked registered room) ?_ requests
    intro later request blanked
    cases request with
    | register other => exact blanked.register other
    | unregister other => exact blanked.unregister other
  exact helpLoop_blank blanked.blank blanked.callable

theorem help_faults_after_registration_and_removal :
    atsvrHelpCommand twoCommands ((commandTable twoCommands).run
      ((commandTable twoCommands).step tableInit (.register 0)).1
        [.unregister 0, .register 1]).env = .error .emptySlot :=
  help_faults_after_removal (aligned_register aligned_init 0) (by decide) (by decide) [.register 1]

end Table
end BdkFreertos.AtServer
