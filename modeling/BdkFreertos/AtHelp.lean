import BdkFreertos.AppendPrint
import BdkFreertos.AtInput
import Mathlib.Data.List.ReduceOption

/-!
# The listing of the help command

`_atsvr_help_command` prints a line for every registered command into an allocated buffer, one
behind the other, and then the reply of success.
-/

namespace BdkFreertos.AtServer

open AppendPrint

/-- `ATSVR_CMD_HELP_BUF_SIZE`. -/
def atsvrCmdHelpBufSize : ℕ := 5 * 1024

def literal (text : String) : List UInt8 :=
  text.toList.map fun letter => UInt8.ofNat letter.toNat

/-- `ATSVR_CMD_RSP_SUCCEED`. -/
def atsvrCmdRspSucceed : List UInt8 := literal "CMDRSP:OK\r\n"

/-- `ATSVR_CMD_RSP_ERROR`. -/
def atsvrCmdRspError : List UInt8 := literal "CMDRSP:ERROR\r\n"

/-- A line of the listing, without a help text when there is none. -/
def helpLine (line : CString × Option CString) : List UInt8 :=
  literal "CMDRSP:cmd:" ++ line.1.bytes ++ literal ",help:" ++
    (line.2.map CString.bytes).getD [] ++ literal "\r\n"

/-- The environment that the command finds behind its arguments. -/
def helpEnv (argc : ℕ) (env : AtsvrEnv) : Option AtsvrEnv :=
  if argc < atsvrMaxArg then some env else none

/-- The texts before the last one and the last one. -/
def helpTexts (rom : CommandRom) (env : Option AtsvrEnv) :
    Except Fault (List (List UInt8) × List UInt8) :=
  match env with
  | some env => do
      let lines ← atsvrHelpCommand rom env
      return (lines.map helpLine, atsvrCmdRspSucceed)
  | none => return ([], atsvrCmdRspError)

/-- What the command prints into the buffer it has allocated. -/
def helpPrint (rom : CommandRom) (env : Option AtsvrEnv) (resultbuf : Memory UInt8) :
    Except Fault Progress := do
  let texts ← helpTexts rom env
  return append atsvrCmdHelpBufSize
    (texts.1.foldl (append atsvrCmdHelpBufSize) (start resultbuf)) texts.2

/-- The command stores into its buffer only, and leaves a string there that ends with a terminator:
all that it prints, cut to the buffer. -/
def HelpContained (rom : CommandRom) (env : Option AtsvrEnv) (resultbuf : Memory UInt8) : Prop :=
  ∃ texts printed, helpTexts rom env = .ok texts ∧ helpPrint rom env resultbuf = .ok printed ∧
    Contained atsvrCmdHelpBufSize printed ∧
      ∃ string : CString,
        string.bytes = (texts.1.flatten ++ texts.2).take (atsvrCmdHelpBufSize - 1) ∧
        printed.buffer.Holds 0 (string.bytes ++ [0])

def listingLength (rom : CommandRom) (commands : List ℕ) : ℕ :=
  ((commands.filterMap (listed rom)).map helpLine).flatten.length

/-! ## Containment -/

theorem zero_not_mem_helpLine (line : CString × Option CString) : 0 ∉ helpLine line := by
  have help : 0 ∉ (line.2.map CString.bytes).getD [] := by
    cases line.2 with
    | none => exact List.not_mem_nil
    | some help => exact help.noNul
  have cmd : 0 ∉ literal "CMDRSP:cmd:" := by decide
  have middle : 0 ∉ literal ",help:" := by decide
  have lineEnd : 0 ∉ literal "\r\n" := by decide
  simp only [helpLine, List.mem_append, not_or]
  exact ⟨⟨⟨⟨cmd, line.1.noNul⟩, middle⟩, help⟩, lineEnd⟩

/-- Printing texts and a short last one stays in the buffer exactly if the texts before the last one
fit. -/
theorem helpContained_iff_of_texts {rom : CommandRom} {env : Option AtsvrEnv}
    {texts : List (List UInt8)} {last : List UInt8}
    (printed : helpTexts rom env = .ok (texts, last)) (brief : last.length < 2 ^ 30)
    (nonempty : last ≠ []) (noNul : ∀ text ∈ texts, 0 ∉ text) (last_noNul : 0 ∉ last)
    (resultbuf : Memory UInt8) :
    HelpContained rom env resultbuf ↔ texts.flatten.length ≤ atsvrCmdHelpBufSize := by
  have buffer : helpPrint rom env resultbuf =
      .ok (append atsvrCmdHelpBufSize
        (texts.foldl (append atsvrCmdHelpBufSize) (start resultbuf)) last) := by
    rw [helpPrint, printed]
    rfl
  have positive : 0 < atsvrCmdHelpBufSize := by decide
  have contained_iff := contained_listing_iff positive (by decide) resultbuf texts brief
  constructor
  · rintro ⟨_, final, -, final_eq, contained, -⟩
    rw [buffer] at final_eq
    obtain rfl := Except.ok.inj final_eq
    exact contained_iff.mp contained
  · intro short
    have fits := fits_listing positive (by decide) resultbuf texts brief short
    have string_noNul : 0 ∉ (texts.flatten ++ last).take (atsvrCmdHelpBufSize - 1) := by
      intro member
      rcases List.mem_append.mp (List.mem_of_mem_take member) with before | at_end
      · obtain ⟨text, text_mem, nul⟩ := List.mem_flatten.mp before
        exact noNul text text_mem nul
      · exact last_noNul at_end
    refine ⟨_, _, printed, buffer, contained_iff.mpr short, ⟨_, string_noNul⟩, rfl, ?_⟩
    exact fits.held (List.append_ne_nil_of_right_ne_nil _ nonempty)

def usedSlots (env : AtsvrEnv) : List (Option ℕ) := env.commands.take env.numCommands

/-- The table after any history: the count fits, and a slot below it is blank or holds a command
that can be called. -/
structure Tabled (rom : CommandRom) (env : AtsvrEnv) : Prop where
  count : env.numCommands ≤ atsvrMaxCommands
  callable : ∀ command, some command ∈ usedSlots env → Callable rom command

theorem tabled_run (rom : CommandRom) (requests : List Request) :
    Tabled rom ((commandTable rom).run tableInit requests).env := by
  refine (commandTable rom).run_invariant_of_step (fun state => Tabled rom state.env) ?_ ?_ requests
  · exact ⟨Nat.zero_le _, fun command member => absurd member List.not_mem_nil⟩
  · intro state request tabled
    cases request with
    | register command =>
        refine ⟨?_, callable_register tabled.callable command⟩
        change (atsvrRegisterCommand rom state.env command).1.numCommands ≤ atsvrMaxCommands
        rcases take_register rom state.env command with same | ⟨-, room, count_eq, -⟩
        · rw [same]
          exact tabled.count
        · rw [count_eq]
          exact room
    | unregister command =>
        refine ⟨?_, callable_unregister tabled.callable command⟩
        change (atsvrUnregisterCommand rom state.env command).1.numCommands ≤ atsvrMaxCommands
        rcases take_unregister rom state.env command with same | ⟨count_eq, -⟩
        · rw [same]
          exact tabled.count
        · rw [count_eq]
          exact tabled.count

theorem map_some_reduceOption {slots : List (Option ℕ)} (filled : none ∉ slots) :
    slots.reduceOption.map some = slots := by
  induction slots with
  | nil => rfl
  | cons slot slots induction =>
      obtain ⟨holds, filled_rest⟩ := List.ne_and_not_mem_of_not_mem_cons filled
      obtain ⟨command, rfl⟩ := Option.ne_none_iff_exists'.mp holds.symm
      rw [List.reduceOption_cons_of_some, List.map_cons, induction filled_rest]

/-- With its environment the command stays in its buffer exactly if it meets no blank slot and the
lines fit. -/
theorem helpContained_iff_of_tabled {rom : CommandRom} {env : AtsvrEnv} (tabled : Tabled rom env)
    (resultbuf : Memory UInt8) :
    HelpContained rom (some env) resultbuf ↔
      none ∉ usedSlots env ∧
        listingLength rom (usedSlots env).reduceOption ≤ atsvrCmdHelpBufSize := by
  by_cases blank : none ∈ usedSlots env
  · refine iff_of_false ?_ fun filled => filled.1 blank
    rintro ⟨texts, -, printed, -⟩
    have faults : atsvrHelpCommand rom env = .error .emptySlot :=
      helpLoop_blank blank tabled.callable
    rw [helpTexts, faults] at printed
    exact nomatch printed
  · have slots_eq := map_some_reduceOption blank
    have count_eq : (usedSlots env).reduceOption.length = env.numCommands := by
      rw [← List.length_map some, slots_eq, usedSlots, List.length_take, env.commands_length,
        Nat.min_eq_left tabled.count]
    have callable : ∀ command ∈ (usedSlots env).reduceOption, Callable rom command := by
      intro command member
      refine tabled.callable command ?_
      rw [← slots_eq]
      exact List.mem_map_of_mem member
    have lines := helpLoop_map_some (usedSlots env).reduceOption
      (env.commands.drop env.numCommands) callable
    rw [slots_eq, count_eq, usedSlots, List.take_append_drop] at lines
    have printed : helpTexts rom (some env) =
        .ok (((usedSlots env).reduceOption.filterMap (listed rom)).map helpLine,
          atsvrCmdRspSucceed) := by
      rw [helpTexts, atsvrHelpCommand, lines]
      rfl
    rw [helpContained_iff_of_texts printed (by decide) (by decide) (fun text member => ?_)
      (by decide) resultbuf]
    · exact (and_iff_right blank).symm
    · obtain ⟨line, -, rfl⟩ := List.mem_map.mp member
      exact zero_not_mem_helpLine line

/-- After any history of registrations and removals the help command stays in its buffer exactly if
no slot of the table was blanked and the lines of its commands fit, or so many arguments are given
that it finds no environment. -/
theorem helpContained_iff (rom : CommandRom) (requests : List Request) (argc : ℕ)
    (resultbuf : Memory UInt8) :
    HelpContained rom (helpEnv argc ((commandTable rom).run tableInit requests).env) resultbuf ↔
      (argc < atsvrMaxArg →
        none ∉ usedSlots ((commandTable rom).run tableInit requests).env ∧
          listingLength rom
              (usedSlots ((commandTable rom).run tableInit requests).env).reduceOption ≤
            atsvrCmdHelpBufSize) := by
  by_cases found : argc < atsvrMaxArg
  · rw [helpEnv, if_pos found, imp_iff_right found]
    exact helpContained_iff_of_tabled (tabled_run rom requests) resultbuf
  · rw [helpEnv, if_neg found]
    refine iff_of_true ?_ fun few => absurd few found
    have printed : helpTexts rom none = .ok ([], atsvrCmdRspError) := rfl
    exact (helpContained_iff_of_texts printed (by decide) (by decide) nofun (by decide)
      resultbuf).mpr (by decide)

/-- A help text of so many bytes. -/
def longText (count : ℕ) : CString where
  bytes := List.replicate count 0x78
  noNul member := absurd (List.eq_of_mem_replicate member) (by decide)

/-- A command with a help text of 5120 bytes, at every address. -/
def longHelp : CommandRom := fun _ =>
  { name := some (atName 0x31 digit_ne_nul), help := some (longText 5120), function := some 0 }

/-- One command with a long help text is enough to print behind the buffer. -/
theorem long_help_overflows :
    ¬HelpContained longHelp
      (helpEnv 1 ((commandTable longHelp).run tableInit [.register 0]).env) fun _ => 0xA5 := by
  intro contained
  have tabled := tabled_run longHelp [.register 0]
  have short := ((helpContained_iff_of_tabled tabled _).mp contained).2
  have cmd_length : (literal "CMDRSP:cmd:").length = 11 := rfl
  have help_length : (longText 5120).bytes.length = 5120 := List.length_replicate
  have registered :
      (usedSlots ((commandTable longHelp).run tableInit [.register 0]).env).reduceOption = [0] := by
    decide
  rw [registered] at short
  simp only [listingLength, listed, longHelp, helpLine, List.filterMap_cons, List.filterMap_nil,
    Option.map_some, Option.getD_some, List.map_cons, List.map_nil, List.flatten_cons,
    List.flatten_nil, List.length_append, help_length, cmd_length, atsvrCmdHelpBufSize] at short
  omega

end BdkFreertos.AtServer
