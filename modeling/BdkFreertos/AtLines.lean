import BdkFreertos.AtReader

/-!
# Lines, chunks and schedules of the AT reader

The reader gives up on a line at the byte that shows it is bad and takes what follows of the line
for a new one, and it goes back to its semaphore when a line fills the buffer although bytes may
still wait in the port.  The results here say for exactly which streams neither can be seen: every
schedule of interrupts gives the same lines and errors, and every bad line gives one error.
-/

namespace BdkFreertos.AtServer

/-! ## Silent streams -/

/-- The start of a line whose head, as far as it has come, is right. -/
def headOk (line : List UInt8) : Prop := line.take 2 <+: [headFirst, headSecond]

/-- A stream that gives no line and no error: line ends, then at most the start of a line that is
neither ended nor too long. -/
def Silent (bytes : List UInt8) : Prop :=
  ∃ ends line, bytes = ends ++ line ∧ (∀ c ∈ ends, isEnd c = true) ∧
    (∀ c ∈ line, isEnd c = false ∧ c ≠ 0) ∧ line.length < atsvrInputBuffMaxSize ∧ headOk line

theorem headOk_nil : headOk [] := by simp [headOk]

variable {line rest : List UInt8} {last : UInt8}

theorem headOk_append (ok : headOk line) (c : UInt8) :
    headOk (line ++ [c]) ↔
      (line.length = 0 → c = headFirst) ∧ (line.length = 1 → c = headSecond) := by
  match line with
  | [] => simp [headOk, List.prefix_iff_eq_take]
  | [a] => simp_all [headOk, List.prefix_iff_eq_take]
  | a :: b :: rest => simp_all [headOk]

theorem lineByte_end {c : UInt8} (ends : isEnd c = true) (line : List UInt8) :
    (lineByte line c).1 = [] := by
  rw [lineByte, if_pos ends]
  split
  · rfl
  · split <;> rfl

theorem lineByte_overruns {c : UInt8} (overruns : Overruns line c) :
    lineByte line c = ([], [.overflow]) := by
  obtain ⟨full, ends, nul⟩ := overruns
  have head_ok : ¬ (line.length = 0 ∧ c ≠ headFirst ∨ line.length = 1 ∧ c ≠ headSecond) := by
    have := full
    simp only [atsvrInputBuffMaxSize] at this
    omega
  rw [lineByte, if_neg (by simp [ends]), if_neg head_ok, if_neg nul, if_pos full]

theorem lineByte_goes_on {c : UInt8} (ends : isEnd c = false) (nul : c ≠ 0)
    (first : line.length = 0 → c = headFirst) (second : line.length = 1 → c = headSecond)
    (room : line.length + 1 < atsvrInputBuffMaxSize) : lineByte line c = (line ++ [c], []) := by
  have head_ok : ¬ (line.length = 0 ∧ c ≠ headFirst ∨ line.length = 1 ∧ c ≠ headSecond) := by
    rintro (⟨empty, wrong⟩ | ⟨one, wrong⟩)
    · exact wrong (first empty)
    · exact wrong (second one)
  rw [lineByte, if_neg (by simp [ends]), if_neg head_ok, if_neg nul, if_neg (by omega)]

/-- Every other byte behind the start of a line gives a line or an error, and the next byte starts
a new line. -/
theorem lineByte_stops {c : UInt8} (started : line ≠ [])
    (stops : ¬ (isEnd c = false ∧ c ≠ 0 ∧ (line.length = 1 → c = headSecond) ∧
      line.length + 1 < atsvrInputBuffMaxSize)) : ∃ output, lineByte line c = ([], [output]) := by
  have nonempty : line.length ≠ 0 := by simpa using started
  rw [lineByte]
  split
  · split
    · exact ⟨_, rfl⟩
    · exact ⟨_, rfl⟩
  · split
    · exact ⟨_, rfl⟩
    · split
      · exact ⟨_, rfl⟩
      · split
        · exact ⟨_, rfl⟩
        next ends head_ok nul room =>
            refine absurd ⟨by simpa using ends, nul, ?_, by omega⟩ stops
            intro one
            by_contra wrong
            exact head_ok (.inr ⟨one, wrong⟩)

theorem readsFrom_nil (line : List UInt8) : readsFrom line [] = [] := rfl

theorem readsFrom_started_iff (started : line ≠ []) (ok : headOk line)
    (room : line.length < atsvrInputBuffMaxSize) (bytes : List UInt8) :
    readsFrom line bytes = [] ↔
      (∀ c ∈ bytes, isEnd c = false ∧ c ≠ 0) ∧
        (line ++ bytes).length < atsvrInputBuffMaxSize ∧ headOk (line ++ bytes) := by
  induction bytes generalizing line with
  | nil => simpa [readsFrom_nil] using ⟨room, ok⟩
  | cons c bytes induction =>
      rw [readsFrom_cons]
      by_cases goes_on : isEnd c = false ∧ c ≠ 0 ∧ (line.length = 1 → c = headSecond) ∧
          line.length + 1 < atsvrInputBuffMaxSize
      · obtain ⟨ends, nul, second, more_room⟩ := goes_on
        have first : line.length = 0 → c = headFirst := by
          intro empty
          exact absurd (List.length_eq_zero_iff.mp empty) started
        rw [lineByte_goes_on ends nul first second more_room]
        have next := induction (by simp : line ++ [c] ≠ [])
          ((headOk_append ok c).mpr ⟨first, second⟩) (by simpa using more_room)
        simpa [ends, nul] using next
      · obtain ⟨output, stopped⟩ := lineByte_stops started goes_on
        rw [stopped]
        simp only [List.cons_append, reduceCtorEq, false_iff]
        rintro ⟨every, short, head⟩
        obtain ⟨ends, nul⟩ := every c List.mem_cons_self
        refine goes_on ⟨ends, nul, ?_, ?_⟩
        · intro one
          obtain ⟨a, rfl⟩ := List.length_eq_one_iff.mp one
          have both : a = headFirst ∧ c = headSecond := by
            simpa [headOk, List.cons_prefix_cons] using head
          exact both.2
        · simp only [List.length_append, List.length_cons] at short
          omega

theorem Silent.cons_end_iff {c : UInt8} (ends : isEnd c = true) (bytes : List UInt8) :
    Silent (c :: bytes) ↔ Silent bytes := by
  constructor
  · rintro ⟨front, line, split, front_ends, line_ok, short, ok⟩
    cases front with
    | nil =>
        rw [List.nil_append] at split
        have first := (line_ok c (split ▸ List.mem_cons_self)).1
        rw [ends] at first
        exact absurd first (by decide)
    | cons e front =>
        obtain ⟨-, rest⟩ := List.cons.inj split
        exact ⟨front, line, rest, fun later member =>
          front_ends later (List.mem_cons_of_mem e member), line_ok, short, ok⟩
  · rintro ⟨front, line, rfl, front_ends, line_ok, short, ok⟩
    refine ⟨c :: front, line, rfl, ?_, line_ok, short, ok⟩
    intro later member
    rcases List.mem_cons.mp member with rfl | member
    · exact ends
    · exact front_ends later member

theorem Silent.cons_not_end_iff {c : UInt8} (ends : isEnd c = false) (bytes : List UInt8) :
    Silent (c :: bytes) ↔ (∀ d ∈ c :: bytes, isEnd d = false ∧ d ≠ 0) ∧
      (c :: bytes).length < atsvrInputBuffMaxSize ∧ headOk (c :: bytes) := by
  constructor
  · rintro ⟨front, line, split, front_ends, line_ok, short, ok⟩
    cases front with
    | nil =>
        rw [List.nil_append] at split
        subst split
        exact ⟨line_ok, short, ok⟩
    | cons e front =>
        obtain ⟨rfl, -⟩ := List.cons.inj split
        have first := front_ends c List.mem_cons_self
        rw [ends] at first
        exact absurd first (by decide)
  · rintro ⟨line_ok, short, ok⟩
    exact ⟨[], c :: bytes, rfl, by simp, line_ok, short, ok⟩

theorem lineByte_nil_end {c : UInt8} (ends : isEnd c = true) : lineByte [] c = ([], []) := by
  simp [lineByte, ends]

theorem lineByte_nil_wrong {c : UInt8} (ends : isEnd c = false) (wrong : c ≠ headFirst) :
    lineByte [] c = ([], [.error]) := by
  simp [lineByte, ends, wrong]

theorem lineByte_nil_first : lineByte [] headFirst = ([headFirst], []) := by decide

theorem readsFrom_nil_iff_silent (bytes : List UInt8) : readsFrom [] bytes = [] ↔ Silent bytes := by
  induction bytes with
  | nil =>
      refine iff_of_true rfl ⟨[], [], rfl, by simp, by simp, by decide, headOk_nil⟩
  | cons c bytes induction =>
      cases ends : isEnd c with
      | true =>
          rw [readsFrom_cons, lineByte_nil_end ends, Silent.cons_end_iff ends]
          exact induction
      | false =>
          rw [readsFrom_cons, Silent.cons_not_end_iff ends]
          by_cases first : c = headFirst
          · subst first
            have started := readsFrom_started_iff (by simp : [headFirst] ≠ [])
              (by simp [headOk, List.cons_prefix_cons]) (by decide) bytes
            have nul : headFirst ≠ 0 := by decide
            rw [lineByte_nil_first]
            simpa [ends, nul] using started
          · rw [lineByte_nil_wrong ends first]
            simp only [List.cons_append, reduceCtorEq, false_iff]
            rintro ⟨-, -, ok⟩
            cases bytes with
            | nil => exact first (by simpa [headOk, List.cons_prefix_cons] using ok)
            | cons d bytes =>
                have both : c = headFirst ∧ d = headSecond := by
                  simpa [headOk, List.cons_prefix_cons] using ok
                exact first both.1

/-! ## Bad lines -/

/-- A line without the right head, or one that does not fit the buffer with its terminator. -/
def BadLine (line : List UInt8) : Prop :=
  ¬ [headFirst, headSecond] <+: line ∨ line.length ≥ atsvrInputBuffMaxSize

/-- A bad line of which nothing is left where the reader gives it up: its wrong head is its last
byte, or the byte that fills the buffer is. -/
def Harmless (line : List UInt8) : Prop :=
  line.length = 1 ∨ (line.length = 2 ∧ line.head? = some headFirst) ∨
    ([headFirst, headSecond] <+: line ∧ line.length = atsvrInputBuffMaxSize ∧
      0 ∉ line.take (atsvrInputBuffMaxSize - 1))

def OneError (outputs : List Output) : Prop := outputs = [.error] ∨ outputs = [.overflow]

theorem readsFrom_rest_iff (rest_ok : ∀ c ∈ rest, isEnd c = false) (last_ends : isEnd last = true) :
    readsFrom [] (rest ++ [last]) = [] ↔ rest = [] := by
  rw [readsFrom_nil_iff_silent]
  cases rest with
  | nil =>
      refine iff_of_true ?_ rfl
      exact ⟨[last], [], by simp, by simpa using last_ends, by simp, by decide, headOk_nil⟩
  | cons c rest =>
      refine iff_of_false ?_ (by simp)
      rw [List.cons_append, Silent.cons_not_end_iff (rest_ok c List.mem_cons_self)]
      rintro ⟨every, -, -⟩
      have not_end := (every last (by simp)).1
      rw [last_ends] at not_end
      exact absurd not_end (by decide)

theorem oneError_cons {output : Output} (error : output = .error ∨ output = .overflow)
    (rest : List Output) : OneError (output :: rest) ↔ rest = [] := by
  rcases error with rfl | rfl <;> simp [OneError]

/-- Reading on in a line with the right head that is too long. -/
theorem oneError_long_iff {body : List UInt8} (started : 2 ≤ line.length)
    (room : line.length < atsvrInputBuffMaxSize) (body_ok : ∀ c ∈ body, isEnd c = false)
    (long : line.length + body.length ≥ atsvrInputBuffMaxSize) (last_ends : isEnd last = true) :
    OneError (readsFrom line (body ++ [last])) ↔
      line.length + body.length = atsvrInputBuffMaxSize ∧
        0 ∉ body.take (atsvrInputBuffMaxSize - 1 - line.length) := by
  induction body generalizing line with
  | nil =>
      rw [List.length_nil] at long
      omega
  | cons c body induction =>
      have ends := body_ok c List.mem_cons_self
      have rest_ok : ∀ d ∈ body, isEnd d = false := fun d member =>
        body_ok d (List.mem_cons_of_mem c member)
      have rest_iff := readsFrom_rest_iff rest_ok last_ends
      have head_ok : ¬ (line.length = 0 ∧ c ≠ headFirst ∨ line.length = 1 ∧ c ≠ headSecond) := by
        omega
      rw [List.length_cons] at long ⊢
      rw [List.cons_append, readsFrom_cons]
      by_cases nul : c = 0
      · have read : lineByte line c = ([], [.error]) := by
          rw [lineByte, if_neg (by simp [ends]), if_neg head_ok, if_pos nul]
        rw [read, List.singleton_append, oneError_cons (.inl rfl), rest_iff]
        by_cases last_byte : line.length + 1 = atsvrInputBuffMaxSize
        · have none_before : atsvrInputBuffMaxSize - 1 - line.length = 0 := by omega
          rw [none_before, List.take_zero, ← List.length_eq_zero_iff]
          simp only [List.not_mem_nil, not_false_eq_true, and_true]
          omega
        · refine iff_of_false ?_ ?_
          · rintro rfl
            rw [List.length_nil] at long
            omega
          · rintro ⟨-, no_nul⟩
            obtain ⟨more, more_eq⟩ : ∃ more, atsvrInputBuffMaxSize - 1 - line.length = more + 1 :=
              ⟨atsvrInputBuffMaxSize - 1 - line.length - 1, by omega⟩
            rw [more_eq, List.take_succ_cons, nul] at no_nul
            exact no_nul List.mem_cons_self
      · by_cases full : line.length + 1 ≥ atsvrInputBuffMaxSize
        · have none_before : atsvrInputBuffMaxSize - 1 - line.length = 0 := by omega
          rw [lineByte_overruns ⟨full, ends, nul⟩, List.singleton_append,
            oneError_cons (.inr rfl), rest_iff, none_before, List.take_zero,
            ← List.length_eq_zero_iff]
          simp only [List.not_mem_nil, not_false_eq_true, and_true]
          omega
        · have read : lineByte line c = (line ++ [c], []) :=
            lineByte_goes_on ends nul (by omega) (by omega) (by omega)
          obtain ⟨more, more_eq⟩ : ∃ more, atsvrInputBuffMaxSize - 1 - line.length = more + 1 :=
            ⟨atsvrInputBuffMaxSize - 1 - line.length - 1, by omega⟩
          have length_next : (line ++ [c]).length = line.length + 1 := by simp
          have next := induction (by omega : 2 ≤ (line ++ [c]).length) (by omega) rest_ok
            (by omega)
          have more_next : atsvrInputBuffMaxSize - 1 - (line ++ [c]).length = more := by omega
          rw [more_next, length_next] at next
          rw [read, List.nil_append, next, more_eq, List.take_succ_cons]
          have length_eq : line.length + 1 + body.length = line.length + (body.length + 1) := by
            omega
          simp [length_eq, Ne.symm nul]

theorem harmless_long_iff
    (long : [headFirst, headSecond].length + rest.length ≥ atsvrInputBuffMaxSize) :
    Harmless (headFirst :: headSecond :: rest) ↔
      [headFirst, headSecond].length + rest.length = atsvrInputBuffMaxSize ∧
        0 ∉ rest.take (atsvrInputBuffMaxSize - 1 - [headFirst, headSecond].length) := by
  have head_no_nul : (0 : UInt8) ≠ headFirst ∧ (0 : UInt8) ≠ headSecond := by decide
  have take_eq : (headFirst :: headSecond :: rest).take (atsvrInputBuffMaxSize - 1) =
      headFirst :: headSecond ::
        rest.take (atsvrInputBuffMaxSize - 1 - [headFirst, headSecond].length) := rfl
  have no_nul_iff : 0 ∉ (headFirst :: headSecond :: rest).take (atsvrInputBuffMaxSize - 1) ↔
      0 ∉ rest.take (atsvrInputBuffMaxSize - 1 - [headFirst, headSecond].length) := by
    rw [take_eq]
    simp [head_no_nul.1, head_no_nul.2]
  have length_eq : (headFirst :: headSecond :: rest).length =
      [headFirst, headSecond].length + rest.length := by
    simp only [List.length_cons, List.length_nil]
    omega
  have more_than_two : 2 < [headFirst, headSecond].length + rest.length := by
    simp only [atsvrInputBuffMaxSize] at long
    omega
  rw [Harmless, no_nul_iff, length_eq]
  constructor
  · rintro (one | ⟨two, -⟩ | ⟨-, exactly, no_nul⟩)
    · omega
    · omega
    · exact ⟨exactly, no_nul⟩
  · rintro ⟨exactly, no_nul⟩
    exact .inr (.inr ⟨⟨rest, rfl⟩, exactly, no_nul⟩)

/-- A bad line gives one error and nothing else exactly when nothing of it is left where the reader
gives it up. -/
theorem oneError_iff_harmless (nonempty : line ≠ []) (line_ok : ∀ c ∈ line, isEnd c = false)
    (bad : BadLine line) (last_ends : isEnd last = true) :
    OneError (readsFrom [] (line ++ [last])) ↔ Harmless line := by
  match line, nonempty with
  | c :: rest, _ =>
      have ends := line_ok c List.mem_cons_self
      have rest_ok : ∀ d ∈ rest, isEnd d = false := fun d member =>
        line_ok d (List.mem_cons_of_mem c member)
      by_cases first : c = headFirst
      · subst first
        match rest with
        | [] =>
            have read : readsFrom [] ([headFirst] ++ [last]) = [.error] := by
              rw [List.singleton_append, readsFrom_cons, lineByte_nil_first, readsFrom_cons]
              simp [lineByte, last_ends, readsFrom_nil]
            exact iff_of_true (.inl read) (.inl rfl)
        | d :: rest =>
            have d_ends := rest_ok d List.mem_cons_self
            have later_ok : ∀ e ∈ rest, isEnd e = false := fun e member =>
              rest_ok e (List.mem_cons_of_mem d member)
            rw [List.cons_append, List.cons_append, readsFrom_cons, lineByte_nil_first,
              readsFrom_cons, List.nil_append]
            by_cases second : d = headSecond
            · subst second
              have long : (headFirst :: headSecond :: rest).length ≥ atsvrInputBuffMaxSize := by
                rcases bad with wrong | long
                · exact absurd ⟨rest, rfl⟩ wrong
                · exact long
              have read : lineByte [headFirst] headSecond = ([headFirst, headSecond], []) := by
                decide
              have long_rest : [headFirst, headSecond].length + rest.length ≥
                  atsvrInputBuffMaxSize := by
                simp only [List.length_cons, List.length_nil] at long ⊢
                omega
              have iff_long := oneError_long_iff (by decide : 2 ≤ [headFirst, headSecond].length)
                (by decide) later_ok long_rest last_ends
              rw [read, List.nil_append, iff_long, harmless_long_iff long_rest]
            · have read : lineByte [headFirst] d = ([], [.error]) := by
                simp [lineByte, d_ends, second]
              rw [read, List.singleton_append, oneError_cons (.inl rfl),
                readsFrom_rest_iff later_ok last_ends, Harmless]
              have no_head : ¬ [headFirst, headSecond] <+: headFirst :: d :: rest := by
                simp [List.cons_prefix_cons, Ne.symm second]
              simp [no_head]
      · rw [List.cons_append, readsFrom_cons, lineByte_nil_wrong ends first,
          List.singleton_append, oneError_cons (.inl rfl), readsFrom_rest_iff rest_ok last_ends,
          Harmless]
        have no_head : ¬ [headFirst, headSecond] <+: c :: rest := by
          simp [List.cons_prefix_cons, Ne.symm first]
        simp [no_head, first]

/-! ## Passes -/

instance (line : List UInt8) (c : UInt8) : Decidable (Overruns line c) :=
  inferInstanceAs (Decidable (_ ∧ _ ∧ _))

/-- The bytes the thread reads for one count of the semaphore. -/
def passBytes (line : List UInt8) : List UInt8 → List UInt8
  | [] => []
  | c :: rest => if Overruns line c then [c] else c :: passBytes (lineByte line c).1 rest

/-- The last byte of a stream fills the buffer that held an unfinished line before. -/
def OverranFrom (line bytes : List UInt8) : Prop :=
  ∃ front c, bytes = front ++ [c] ∧ Overruns (lineReader.run line front) c

theorem OverranFrom.tail {c : UInt8} {bytes : List UInt8} (overran : OverranFrom line (c :: bytes))
    (more : bytes ≠ []) : OverranFrom (lineByte line c).1 bytes := by
  obtain ⟨front, last, split, overruns⟩ := overran
  cases front with
  | nil =>
      rw [List.nil_append] at split
      exact absurd (List.cons.inj split).2 more
  | cons d front =>
      obtain ⟨rfl, rest⟩ := List.cons.inj split
      exact ⟨front, last, rest, overruns⟩

theorem pass_of_overran {front : List UInt8} (overran : OverranFrom line front)
    (back : List UInt8) :
    ∃ middle, front = passBytes line (front ++ back) ++ middle ∧
      lineReader.run line (passBytes line (front ++ back)) = [] ∧
        (middle = [] ∨ OverranFrom [] middle) := by
  induction front generalizing line with
  | nil =>
      obtain ⟨earlier, c, split, -⟩ := overran
      simp at split
  | cons c front induction =>
      rw [List.cons_append, passBytes]
      by_cases overruns : Overruns line c
      · rw [if_pos overruns]
        refine ⟨front, rfl, ?_, ?_⟩
        · simp [lineReader, lineByte_overruns overruns]
        · by_cases more : front = []
          · exact .inl more
          · right
            have later := overran.tail more
            rwa [lineByte_overruns overruns] at later
      · have more : front ≠ [] := by
          rintro rfl
          obtain ⟨earlier, last, split, last_overruns⟩ := overran
          cases earlier with
          | nil =>
              obtain ⟨rfl, -⟩ := List.cons.inj split
              exact overruns last_overruns
          | cons d earlier => simp at split
        obtain ⟨middle, split, reset, later⟩ := induction (overran.tail more)
        rw [if_neg overruns]
        refine ⟨middle, ?_, reset, later⟩
        rw [List.cons_append, ← split]

theorem readsFrom_overran {bytes : List UInt8} (overran : OverranFrom line bytes) :
    readsFrom line bytes ≠ [] := by
  obtain ⟨front, c, rfl, overruns⟩ := overran
  rw [readsFrom_append, readsFrom_cons, lineByte_overruns overruns]
  simp

section Schedules

variable (echoAfter : Bool → List UInt8 → Bool)

/-- Some number of turns takes the thread through a pass and back to its semaphore. -/
def PassesFrom (line : List UInt8) (port : Port) : Prop :=
  ∃ turns, ∃ final, final = (atsvrMsgMain echoAfter).run port (List.replicate turns .turn) ∧
    Quiet final ∧ final.fifo = port.fifo.drop (passBytes line port.fifo).length ∧
    Holds (lineReader.run line (passBytes line port.fifo)) final ∧
    replies ((atsvrMsgMain echoAfter).outputs port (List.replicate turns .turn)).flatten =
      readsFrom line (passBytes line port.fifo)

variable {line : List UInt8} {port : Port} (bytes : List UInt8)

section

variable (holds : Holds line port) (awake : port.phase ≠ .waiting) (no_count : port.atRxSema = 0)
include holds awake no_count

theorem PassesFrom.of_reading (reading : ∀ port' : Port, Holds line port' → port'.phase = .reading →
      port'.atRxSema = 0 → port'.fifo = port.fifo → PassesFrom echoAfter line port') :
    PassesFrom echoAfter line port := by
  cases phase : port.phase with
  | waiting => exact absurd phase awake
  | reading => exact reading port holds phase no_count rfl
  | entering =>
      have turn := msgMainTurn_entering echoAfter phase holds.uartOverflow
      obtain ⟨turns, final, final_eq, quiet, fifo, final_holds, replied⟩ :=
        reading { port with phase := .reading } (holds.congr rfl rfl rfl) rfl no_count rfl
      refine ⟨turns + 1, final, ?_, quiet, fifo, final_holds, ?_⟩
      · rw [List.replicate_succ, Machine.run_cons]
        simpa [atsvrMsgMain, turn] using final_eq
      · rw [List.replicate_succ, Machine.outputs_cons]
        simpa [atsvrMsgMain, turn] using replied

theorem passesFrom_of_awake : PassesFrom echoAfter line port := by
  generalize bytes_eq : port.fifo = bytes
  induction bytes generalizing line port with
  | nil =>
      refine PassesFrom.of_reading echoAfter holds awake no_count ?_
      intro port' holds phase no_count same
      have empty : port'.fifo = [] := same.trans bytes_eq
      have turn := msgMainTurn_empty echoAfter phase empty
      refine ⟨1, { port' with phase := .waiting }, ?_, ⟨rfl, no_count⟩, ?_, ?_, ?_⟩
      · simp [atsvrMsgMain, turn]
      · simp [empty]
      · rw [empty]
        exact holds.congr rfl rfl rfl
      · simp [atsvrMsgMain, turn, empty, passBytes, readsFrom_nil, replies]
  | cons c rest induction =>
      refine PassesFrom.of_reading echoAfter holds awake no_count ?_
      intro port' holds phase no_count same
      have waiting_bytes : port'.fifo = c :: rest := same.trans bytes_eq
      have turn : msgMainTurn echoAfter port' =
          msgMainResult echoAfter (msgGetInputByte { port' with fifo := rest } c).1
            (msgGetInputByte { port' with fifo := rest } c).2.1
            (msgGetInputByte { port' with fifo := rest } c).2.2 := by
        simp [msgMainTurn, phase, waiting_bytes]
      have holds_rest : Holds line { port' with fifo := rest } := holds.congr rfl rfl rfl
      have read := readByte_msgGetInputByte echoAfter holds_rest c
      rw [← turn] at read
      by_cases overruns : Overruns line c
      · refine ⟨1, (msgMainTurn echoAfter port').1, by simp [atsvrMsgMain], ?_, ?_, ?_, ?_⟩
        · exact ⟨read.waiting.mpr overruns, read.sema.trans no_count⟩
        · simp [read.fifo, waiting_bytes, passBytes, overruns]
        · simpa [waiting_bytes, passBytes, overruns, lineReader] using read.holds
        · simp [atsvrMsgMain, read.replied, waiting_bytes, passBytes, overruns, readsFrom_cons,
            readsFrom_nil]
      · have still_awake : (msgMainTurn echoAfter port').1.phase ≠ .waiting := fun waiting =>
          overruns (read.waiting.mp waiting)
        obtain ⟨turns, final, final_eq, quiet, fifo, final_holds, replied⟩ :=
          induction read.holds still_awake (read.sema.trans no_count) read.fifo
        rw [read.fifo] at fifo final_holds replied
        refine ⟨turns + 1, final, ?_, quiet, ?_, ?_, ?_⟩
        · rw [List.replicate_succ, Machine.run_cons]
          exact final_eq
        · simpa [waiting_bytes, passBytes, overruns] using fifo
        · simpa [waiting_bytes, passBytes, overruns, lineReader] using final_holds
        · rw [List.replicate_succ, Machine.outputs_cons, List.flatten_cons, replies_append,
            waiting_bytes, passBytes, if_neg overruns, readsFrom_cons, ← replied]
          exact congrArg (· ++ _) read.replied

end

/-- A chunk for a quiet thread, followed by a pass. -/
theorem exists_chunk_schedule (holds : Holds line port) (quiet : Quiet port)
    (empty : port.fifo = []) (chunk : List UInt8) :
    ∃ events final, final = (atsvrMsgMain echoAfter).run port events ∧
      receivedBytes events = chunk ∧ Quiet final ∧
      final.fifo = chunk.drop (passBytes line chunk).length ∧
      Holds (lineReader.run line (passBytes line chunk)) final ∧
      replies ((atsvrMsgMain echoAfter).outputs port events).flatten =
        readsFrom line (passBytes line chunk) := by
  let woken : Port := { port with fifo := chunk, atRxSema := 0, phase := .entering }
  have woken_holds : Holds line woken := holds.congr rfl rfl rfl
  obtain ⟨turns, final, final_eq, final_quiet, fifo, final_holds, replied⟩ :=
    passesFrom_of_awake echoAfter woken_holds (by simp [woken]) rfl
  have wakes : (atsvrMsgMain echoAfter).run port [.receive chunk, .turn] = woken := by
    simp [atsvrMsgMain, msgMainTurn, quiet.1, quiet.2, empty, atRxSemaMax, woken]
  have silent : ((atsvrMsgMain echoAfter).outputs port [.receive chunk, .turn]).flatten = [] := by
    simp [atsvrMsgMain, msgMainTurn, quiet.1, quiet.2, atRxSemaMax]
  refine ⟨([.receive chunk, .turn] : List ReaderEvent) ++ List.replicate turns .turn, final, ?_, ?_,
    final_quiet, fifo, final_holds, ?_⟩
  · rw [Machine.run_append, wakes]
    exact final_eq
  · simp [receivedBytes]
  · rw [Machine.outputs_append, wakes, List.flatten_append, silent]
    exact replied

/-- When every byte comes on its own, the thread replies what the bytes give one after the
other. -/
theorem exists_bytewise_schedule :
    ∃ events final, final = (atsvrMsgMain echoAfter).run portInit events ∧
      receivedBytes events = bytes ∧ Quiet final ∧ final.fifo = [] ∧
      Holds (lineReader.run [] bytes) final ∧
      replies ((atsvrMsgMain echoAfter).outputs portInit events).flatten = readsFrom [] bytes := by
  induction bytes using List.reverseRecOn with
  | nil => exact ⟨[], portInit, rfl, rfl, ⟨rfl, rfl⟩, rfl, tracks_init.holds, rfl⟩
  | append_singleton bytes c induction =>
      obtain ⟨events, port, port_eq, received, quiet, empty, holds, replied⟩ := induction
      obtain ⟨later, final, final_eq, chunk, final_quiet, fifo, final_holds, later_replied⟩ :=
        exists_chunk_schedule echoAfter holds quiet empty [c]
      have one : passBytes (lineReader.run [] bytes) [c] = [c] := by
        rw [passBytes]
        split <;> rfl
      rw [one] at fifo final_holds later_replied
      refine ⟨events ++ later, final, ?_, ?_, final_quiet, fifo, ?_, ?_⟩
      · rw [Machine.run_append, ← port_eq]
        exact final_eq
      · rw [receivedBytes, List.flatMap_append, ← receivedBytes, ← receivedBytes, received, chunk]
      · rw [Machine.run_append]
        exact final_holds
      · rw [Machine.outputs_append, List.flatten_append, replies_append, replied, ← port_eq,
          later_replied, readsFrom_append]

/-! ## Exactly when -/

/-- All quiet ends of schedules that deliver a stream have replied the same. -/
def ChunkIndependent (bytes : List UInt8) : Prop :=
  ∀ first second, receivedBytes first = bytes → receivedBytes second = bytes →
    Quiet ((atsvrMsgMain echoAfter).run portInit first) →
      Quiet ((atsvrMsgMain echoAfter).run portInit second) →
        replies ((atsvrMsgMain echoAfter).outputs portInit first).flatten =
          replies ((atsvrMsgMain echoAfter).outputs portInit second).flatten

/-- A line of a stream: what stands between two line ends, or before the first. -/
def LineOf (front line : List UInt8) (last : UInt8) (bytes : List UInt8) : Prop :=
  (∃ back, bytes = front ++ (line ++ [last]) ++ back) ∧
    (front = [] ∨ ∃ earlier e, front = earlier ++ [e] ∧ isEnd e = true) ∧
    line ≠ [] ∧ (∀ c ∈ line, isEnd c = false) ∧ isEnd last = true

/-- Every bad line of a stream gives one error and nothing else, read byte by byte. -/
def IsolatesBadLines (bytes : List UInt8) : Prop :=
  ∀ front line last, LineOf front line last bytes → BadLine line →
    ∃ outputs, OneError outputs ∧
      readsFrom [] (front ++ (line ++ [last])) = readsFrom [] front ++ outputs

theorem chunkIndependent_iff :
    ChunkIndependent echoAfter bytes ↔
      ∀ front back, bytes = front ++ back → Overran front → Silent back := by
  constructor
  · intro independent front back split overran
    obtain ⟨slow, slow_final, slow_eq, slow_received, slow_quiet, -, -, slow_replied⟩ :=
      exists_bytewise_schedule echoAfter bytes
    obtain ⟨fast, fast_final, fast_eq, fast_received, fast_quiet, -, -, fast_replied⟩ :=
      exists_chunk_schedule echoAfter tracks_init.holds ⟨rfl, rfl⟩ rfl bytes
    have same := independent fast slow fast_received slow_received (fast_eq ▸ fast_quiet)
      (slow_eq ▸ slow_quiet)
    obtain ⟨middle, front_eq, reset, later⟩ := pass_of_overran overran back
    rw [← split] at front_eq reset
    have bytes_eq : bytes = passBytes [] bytes ++ (middle ++ back) := by
      rw [← List.append_assoc, ← front_eq, split]
    have nothing_later : readsFrom [] (middle ++ back) = [] := by
      rw [slow_replied, fast_replied] at same
      have split_reads := readsFrom_append [] (passBytes [] bytes) (middle ++ back)
      rw [← bytes_eq, ← same, reset] at split_reads
      simpa using split_reads
    rcases later with rfl | later
    · exact (readsFrom_nil_iff_silent back).mp nothing_later
    · rw [readsFrom_append] at nothing_later
      exact absurd (List.append_eq_nil_iff.mp nothing_later).1 (readsFrom_overran later)
  · intro silent
    have replied_eq : ∀ events, receivedBytes events = bytes →
        Quiet ((atsvrMsgMain echoAfter).run portInit events) →
          replies ((atsvrMsgMain echoAfter).outputs portInit events).flatten =
            readsFrom [] bytes := by
      intro events received quiet
      obtain ⟨consumed, tracks⟩ := tracks_run echoAfter events
      have split := tracks.split
      rw [received] at split
      rw [tracks.replied, split, readsFrom_append]
      rcases tracks.idle quiet with empty | overran
      · rw [empty, readsFrom_nil, List.append_nil]
      · have reset : lineReader.run [] consumed = [] := by
          obtain ⟨front, c, rfl, overruns⟩ := overran
          rw [Machine.run_append]
          exact congrArg Prod.fst (lineByte_overruns overruns)
        have nothing := (readsFrom_nil_iff_silent _).mpr (silent _ _ split overran)
        rw [reset, nothing, List.append_nil]
    intro first second first_received second_received first_quiet second_quiet
    rw [replied_eq first first_received first_quiet,
      replied_eq second second_received second_quiet]

theorem isolatesBadLines_iff :
    IsolatesBadLines bytes ↔
      ∀ front line last, LineOf front line last bytes → BadLine line → Harmless line := by
  have one_error_iff : ∀ front line last, LineOf front line last bytes → BadLine line →
      ((∃ outputs, OneError outputs ∧
        readsFrom [] (front ++ (line ++ [last])) = readsFrom [] front ++ outputs) ↔
          Harmless line) := by
    rintro front line last ⟨-, line_start, nonempty, line_ok, last_ends⟩ bad
    have reset : lineReader.run [] front = [] := by
      rcases line_start with rfl | ⟨earlier, e, rfl, ends⟩
      · rfl
      · rw [Machine.run_append]
        exact lineByte_end ends _
    rw [readsFrom_append, reset, ← oneError_iff_harmless nonempty line_ok bad last_ends]
    constructor
    · rintro ⟨outputs, one_error, same⟩
      rw [List.append_cancel_left same]
      exact one_error
    · intro one_error
      exact ⟨_, one_error, rfl⟩
  constructor
  · intro isolates front line last line_of bad
    exact (one_error_iff front line last line_of bad).mp (isolates front line last line_of bad)
  · intro harmless front line last line_of bad
    exact (one_error_iff front line last line_of bad).mpr (harmless front line last line_of bad)

/-- For every stream: all ways to receive it give the same lines and errors and every bad line
gives one error and nothing else, if and only if no bad line goes on behind the byte at which the
reader gives it up and only silent bytes follow a byte that fills the buffer.  For every schedule
the index stays inside the buffer. -/
theorem reader_exact_iff (bytes : List UInt8) :
    ((ChunkIndependent echoAfter bytes ∧ IsolatesBadLines bytes) ↔
      (∀ front back, bytes = front ++ back → Overran front → Silent back) ∧
        ∀ front line last, LineOf front line last bytes → BadLine line → Harmless line) ∧
    ∀ events, receivedBytes events = bytes →
      ((atsvrMsgMain echoAfter).run portInit events).bp < atsvrInputBuffMaxSize := by
  refine ⟨?_, fun events _ => bp_lt_run echoAfter events⟩
  rw [chunkIndependent_iff, isolatesBadLines_iff]

/-- In the line `xAT` the reader gives up at the `x` and hands `AT` to the parser. -/
theorem bad_line_executed :
    ¬ ∀ bytes : List UInt8, ChunkIndependent (fun echo _ => echo) bytes ∧
      IsolatesBadLines bytes := by
  intro holds
  let stream : List UInt8 := [0x78, headFirst, headSecond, atsvrRetChar]
  have isolates := (holds stream).2
  have line_of : LineOf [] [0x78, headFirst, headSecond] atsvrRetChar stream :=
    ⟨⟨[], rfl⟩, .inl rfl, by simp,
      by simp [isEnd, headFirst, headSecond, atsvrRetChar, atsvrEndChar], rfl⟩
  have bad : BadLine [0x78, headFirst, headSecond] := by
    left
    decide
  obtain ⟨outputs, one_error, same⟩ := isolates _ _ _ line_of bad
  have read : readsFrom [] ([] ++ ([0x78, headFirst, headSecond] ++ [atsvrRetChar])) =
      [.error, .line [headFirst, headSecond, 0]] := by decide
  rw [read] at same
  have outputs_eq : outputs = [.error, .line [headFirst, headSecond, 0]] := same.symm
  rw [outputs_eq] at one_error
  simp [OneError] at one_error

end Schedules

end BdkFreertos.AtServer
