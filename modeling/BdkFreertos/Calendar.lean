import BdkFreertos.DoubleRead
import BdkFreertos.FuelLoop
import Mathlib.Data.Nat.ModEq
import Mathlib.Tactic.IntervalCases

/-!
# The calendar clock

The clock counts seconds and ticks of 31.25 microseconds, which are read from two registers while
it goes on.  Instants are counted in ticks.
-/

namespace BdkFreertos.Calendar

def ticksPerSecond : ℕ := 32000

/-- The register `CAL_SECOND_VALUE`. -/
def calSecondValue (instant : ℕ) : UInt32 := .ofNat (instant / ticksPerSecond)

/-- The register `CAL_31_25US_VALUE`. -/
def cal3125UsValue (instant : ℕ) : UInt32 := .ofNat (instant % ticksPerSecond)

def cal3125UsMask : UInt32 := 0x0000FFFF

def cal3125TuVal : UInt32 := 3125

/-- `cal_get_sec_field` at an instant. -/
def calGetSecField (instant : ℕ) : UInt32 := calSecondValue instant

/-- `cal_get_usec_tu_field` at an instant. -/
def calGetUsecTuField (instant : ℕ) : UInt32 := cal3125UsValue instant &&& cal3125UsMask

/-- The variables of `cal_get_time_us` when both fields have been read. -/
structure Poll where
  reads : ℕ
  cntS : UInt32
  preCntS : UInt32
  cntUs : UInt32
  preCntUs : UInt32
  deriving DecidableEq

/-- The `n`-th register is read at the instant `instants n`. -/
def readFields (instants : ℕ → ℕ) (reads : ℕ) (preCntS preCntUs : UInt32) : Poll where
  reads := reads + 2
  cntS := calGetSecField (instants reads)
  preCntS
  cntUs := calGetUsecTuField (instants (reads + 1))
  preCntUs

/-- Both differences are zero. -/
def Poll.same (poll : Poll) : Bool :=
  let diffS := poll.cntS - poll.preCntS
  let diffUs := poll.cntUs - poll.preCntUs
  diffS == 0 && diffUs == 0

def Poll.again (instants : ℕ → ℕ) (poll : Poll) : Poll :=
  readFields instants poll.reads poll.cntS poll.cntUs

def Poll.val (poll : Poll) : UInt32 := poll.cntS * 1000000 + poll.cntUs * cal3125TuVal / 100

/-- The loop of `cal_get_time_us`, which may not end. -/
def pollFields (instants : ℕ → ℕ) (fuel : ℕ) : Option Poll :=
  FuelLoop.loop Poll.same (Poll.again instants) fuel (readFields instants 0 0 0)

def calGetTimeUs (instants : ℕ → ℕ) (fuel : ℕ) : Option UInt32 :=
  (pollFields instants fuel).map Poll.val

/-- A call that returns, and the clock meanwhile. -/
structure Call where
  called : ℕ
  /-- The instants at which registers are read. -/
  instants : ℕ → ℕ
  fuel : ℕ
  /-- The variables when the loop has ended. -/
  poll : Poll
  returned : ℕ
  begins : called ≤ instants 0
  forward : ∀ n, instants n ≤ instants (n + 1)
  /-- The clock stays below one cycle of the second counter from one reading to the next. -/
  slow : ∀ n, instants (n + 1) < instants n + 2 ^ 32 * ticksPerSecond
  polled : pollFields instants fuel = some poll
  ends : instants (poll.reads - 1) ≤ returned

def microseconds (instant : ℕ) : ℕ := instant * 125 / 4

def Call.value (call : Call) : Option UInt32 := calGetTimeUs call.instants call.fuel

def Call.Tells (call : Call) (instant : ℕ) : Prop :=
  call.value.map UInt32.toNat = some (microseconds instant % 2 ^ 32)

/-- The value is that of an instant between the call and the return. -/
def Call.Genuine (call : Call) : Prop :=
  ∃ instant, call.called ≤ instant ∧ instant ≤ call.returned ∧ call.Tells instant

/-- The values of two calls are those of instants of which the second one is not earlier. -/
def Call.Precedes (first second : Call) : Prop :=
  ∃ early late, microseconds early ≤ microseconds late ∧ first.Tells early ∧ second.Tells late

/-- The ticks from an instant whose value is zero, where a cycle of the second counter begins, to
the next one: 36 times `2 ^ 32` microseconds, rounded up. -/
def zeroAgain : ℕ := 4947802325

def beginOfSecond (instant : ℕ) : ℕ := ticksPerSecond * (instant / ticksPerSecond)

/-- The first reading of the seconds falls in second zero of the counter, the first reading of the
ticks is zero, but the call came when this second had begun, and returns within 43 hours. -/
def Call.StartsTorn (call : Call) : Prop :=
  call.instants 0 / ticksPerSecond % 2 ^ 32 = 0 ∧ call.instants 1 % ticksPerSecond = 0 ∧
    beginOfSecond (call.instants 0) < call.called ∧
      call.returned < beginOfSecond (call.instants 0) + zeroAgain

instance (call : Call) : Decidable call.StartsTorn := by
  unfold Call.StartsTorn
  infer_instance

variable (instants : ℕ → ℕ) (start instant : ℕ) (call : Call) (instant' n rounds : ℕ)

theorem calGetSecField_eq_iff :
    calGetSecField instant = calGetSecField instant' ↔
      instant / ticksPerSecond % 2 ^ 32 = instant' / ticksPerSecond % 2 ^ 32 := by
  rw [← UInt32.toNat_inj, calGetSecField, calGetSecField, calSecondValue, calSecondValue,
    UInt32.toNat_ofNat', UInt32.toNat_ofNat']

theorem calGetUsecTuField_toNat : (calGetUsecTuField instant).toNat = instant % ticksPerSecond := by
  have lower : instant % ticksPerSecond < 2 ^ 16 :=
    lt_trans (Nat.mod_lt instant (by decide)) (by decide)
  rw [calGetUsecTuField, cal3125UsValue, cal3125UsMask, UInt32.toNat_and, UInt32.toNat_ofNat',
    Nat.mod_eq_of_lt (lt_trans lower (by decide))]
  exact (Nat.and_two_pow_sub_one_eq_mod _ 16).trans (Nat.mod_eq_of_lt lower)

theorem calGetUsecTuField_eq_iff :
    calGetUsecTuField instant = calGetUsecTuField instant' ↔
      instant % ticksPerSecond = instant' % ticksPerSecond := by
  rw [← UInt32.toNat_inj, calGetUsecTuField_toNat, calGetUsecTuField_toNat]

theorem microseconds_eq :
    microseconds instant =
      instant / ticksPerSecond * 1000000 + instant % ticksPerSecond * 3125 / 100 := by
  rw [microseconds, ticksPerSecond]
  omega

theorem microseconds_mono {instant instant' : ℕ} (earlier : instant ≤ instant') :
    microseconds instant ≤ microseconds instant' :=
  Nat.div_le_div_right (Nat.mul_le_mul_right 125 earlier)

/-- The two fields of one instant encode its microseconds; no product but that of the seconds
overflows. -/
theorem val_toNat {poll : Poll} {instant : ℕ} (cntS_eq : poll.cntS = calGetSecField instant)
    (cntUs_eq : poll.cntUs = calGetUsecTuField instant) :
    poll.val.toNat = microseconds instant % 2 ^ 32 := by
  have ticks : poll.cntUs.toNat = instant % ticksPerSecond := by
    rw [cntUs_eq, calGetUsecTuField_toNat]
  have seconds : poll.cntS.toNat = instant / ticksPerSecond % 2 ^ 32 := by
    rw [cntS_eq]
    exact UInt32.toNat_ofNat'
  have lower : instant % ticksPerSecond * 3125 < 2 ^ 32 :=
    lt_trans (Nat.mul_lt_mul_of_pos_right (Nat.mod_lt instant (by decide)) (by decide)) (by decide)
  rw [microseconds_eq, Poll.val, UInt32.toNat_add, UInt32.toNat_mul, UInt32.toNat_div,
    UInt32.toNat_mul, ticks, seconds]
  change (instant / ticksPerSecond % 2 ^ 32 * 1000000 % 2 ^ 32 +
    instant % ticksPerSecond * 3125 % 2 ^ 32 / 100) % 2 ^ 32 = _
  rw [Nat.mod_eq_of_lt lower]
  exact ((Nat.mod_modEq _ _).trans ((Nat.mod_modEq _ _).mul_right 1000000)).add_right _

/-! ### The rounds of the loop -/

theorem Poll.same_iff (poll : Poll) :
    poll.same = true ↔ poll.cntS = poll.preCntS ∧ poll.cntUs = poll.preCntUs := by
  simp [Poll.same, UInt32.sub_eq_iff_eq_add]

/-- The variables when the given number of rounds have been repeated. -/
def roundOf (instants : ℕ → ℕ) (rounds : ℕ) : Poll :=
  (Poll.again instants)^[rounds] (readFields instants 0 0 0)

theorem roundOf_succ : roundOf instants (rounds + 1) = (roundOf instants rounds).again instants :=
  Function.iterate_succ_apply' _ _ _

theorem roundOf_reads : (roundOf instants rounds).reads = 2 * rounds + 2 := by
  induction rounds with
  | zero => rfl
  | succ rounds induction =>
      rw [roundOf_succ]
      exact congrArg (· + 2) induction

theorem roundOf_cnt :
    (roundOf instants rounds).cntS = calGetSecField (instants (2 * rounds)) ∧
      (roundOf instants rounds).cntUs = calGetUsecTuField (instants (2 * rounds + 1)) := by
  rcases rounds with _ | rounds
  · exact ⟨rfl, rfl⟩
  · have reads := roundOf_reads instants rounds
    rw [roundOf_succ]
    simp only [Poll.again, readFields, reads]
    exact ⟨rfl, rfl⟩

namespace Call

variable (call : Call)

theorem tells_iff (instant : ℕ) :
    call.Tells instant ↔ call.poll.val.toNat = microseconds instant % 2 ^ 32 := by
  rw [Tells, value, calGetTimeUs, call.polled, Option.map_some, Option.map_some, Option.some_inj]

theorem exists_rounds : ∃ rounds, call.poll = roundOf call.instants rounds ∧
    call.poll.same = true ∧ call.instants (2 * rounds + 1) ≤ call.returned := by
  obtain ⟨rounds, poll_eq, ends⟩ := FuelLoop.exists_endsAfter call.polled
  have last := call.ends
  have reads := roundOf_reads call.instants rounds
  refine ⟨rounds, poll_eq, ?_, ?_⟩
  · rw [poll_eq]
    exact ends.ends
  · rw [poll_eq] at last
    rwa [show ((Poll.again call.instants)^[rounds] (readFields call.instants 0 0 0)).reads =
      2 * rounds + 2 from reads] at last

theorem mono : Monotone call.instants := monotone_nat_of_le_succ call.forward

theorem genuine_of_reread {rounds : ℕ} (poll_eq : call.poll = roundOf call.instants (rounds + 1))
    (same : call.poll.same = true) (last : call.instants (2 * (rounds + 1) + 1) ≤ call.returned) :
    call.Genuine := by
  obtain ⟨cntS_eq, cntUs_eq⟩ := roundOf_cnt call.instants (rounds + 1)
  obtain ⟨preS_eq, preUs_eq⟩ := roundOf_cnt call.instants rounds
  rw [Poll.same_iff, poll_eq, cntS_eq, cntUs_eq, roundOf_succ] at same
  obtain ⟨sameS, sameUs⟩ := same
  replace sameS := (calGetSecField_eq_iff _ _).mp (sameS.trans preS_eq)
  replace sameUs := (calGetUsecTuField_eq_iff _ _).mp (sameUs.trans preUs_eq)
  obtain ⟨instant, after, before, upper_eq, low_eq⟩ :=
    DoubleRead.exists_instant (· % 2 ^ 32) (by decide) (call.mono (Nat.le_succ (2 * rounds)))
      (call.mono (Nat.le_succ (2 * rounds + 1))) (call.mono (Nat.le_succ (2 * rounds + 2)))
      sameS.symm sameUs.symm
  refine ⟨instant, ?_, before.trans last, (call.tells_iff instant).mpr (val_toNat ?_ ?_)⟩
  · exact call.begins.trans ((call.mono (Nat.zero_le _)).trans after)
  · rw [poll_eq, cntS_eq]
    exact ((calGetSecField_eq_iff _ _).mpr upper_eq).symm
  · rw [poll_eq, cntUs_eq]
    exact ((calGetUsecTuField_eq_iff _ _).mpr low_eq).symm

theorem first_zero (poll_eq : call.poll = roundOf call.instants 0) (same : call.poll.same = true) :
    call.instants 0 / ticksPerSecond % 2 ^ 32 = 0 ∧ call.instants 1 % ticksPerSecond = 0 := by
  obtain ⟨cntS_eq, cntUs_eq⟩ := roundOf_cnt call.instants 0
  rw [Poll.same_iff, poll_eq, cntS_eq, cntUs_eq] at same
  obtain ⟨sameS, sameUs⟩ := same
  exact ⟨(calGetSecField_eq_iff _ 0).mp sameS, (calGetUsecTuField_eq_iff _ 0).mp sameUs⟩

section

variable (seconds : call.instants 0 / ticksPerSecond % 2 ^ 32 = 0)
  (ticks : call.instants 1 % ticksPerSecond = 0)
include seconds ticks

theorem val_of_first_zero (poll_eq : call.poll = roundOf call.instants 0) :
    call.poll.val.toNat = 0 := by
  obtain ⟨cntS_eq, cntUs_eq⟩ := roundOf_cnt call.instants 0
  have seconds_eq : call.poll.cntS = calGetSecField 0 := by
    rw [poll_eq, cntS_eq]
    exact (calGetSecField_eq_iff _ 0).mpr seconds
  have ticks_eq : call.poll.cntUs = calGetUsecTuField 0 := by
    rw [poll_eq, cntUs_eq]
    exact (calGetUsecTuField_eq_iff _ 0).mpr ticks
  exact val_toNat seconds_eq ticks_eq

theorem rounds_of_first_zero : call.poll = roundOf call.instants 0 := by
  obtain ⟨rounds, poll_eq, ends⟩ := FuelLoop.exists_endsAfter call.polled
  rcases rounds with _ | rounds
  · exact poll_eq
  · have goesOn := ends.first 0 (Nat.succ_pos rounds)
    have same : (roundOf call.instants 0).same = true :=
      (Poll.same_iff _).mpr ⟨(calGetSecField_eq_iff _ 0).mpr seconds,
        (calGetUsecTuField_eq_iff _ 0).mpr ticks⟩
    exact absurd (goesOn.symm.trans same) Bool.false_ne_true

end

end Call

/-- The value of an instant of second zero, or of a later one within 43 hours, is zero only at the
beginning of the second. -/
theorem microseconds_ne_zero (begun passed : ℕ) (zero : begun / ticksPerSecond % 2 ^ 32 = 0)
    (aligned : begun % ticksPerSecond = 0) (passed_pos : 0 < passed) (soon : passed < zeroAgain) :
    microseconds (begun + passed) % 2 ^ 32 ≠ 0 := by
  intro again
  obtain ⟨cycles, begun_eq⟩ : ∃ cycles, begun = 2 ^ 32 * 32000 * cycles :=
    ⟨begun / (2 ^ 32 * 32000), by rw [ticksPerSecond] at zero aligned; omega⟩
  have whole : microseconds (begun + passed) = 2 ^ 32 * (1000000 * cycles) + passed * 125 / 4 := by
    rw [microseconds, begun_eq]
    omega
  have value_eq : microseconds (begun + passed) % 2 ^ 32 = passed * 125 / 4 % 2 ^ 32 := by
    rw [whole, Nat.mul_add_mod]
  obtain ⟨wraps, wraps_eq⟩ : ∃ wraps, passed * 125 / 4 = 2 ^ 32 * wraps :=
    Nat.dvd_of_mod_eq_zero (value_eq.symm.trans again)
  rw [zeroAgain] at soon
  have few : wraps < 36 := by omega
  obtain ⟨rest, rest_lt, ticks_eq⟩ : ∃ rest < 4, passed * 125 = 2 ^ 34 * wraps + rest :=
    ⟨passed * 125 % 4, Nat.mod_lt _ (by decide), by omega⟩
  -- 2 ^ 34 is 59 modulo 125, and no small multiple of that is just below a multiple of 125
  have residue : (59 * wraps + rest) % 125 = 0 := by omega
  have none_small : ∀ wraps < 36, ∀ rest < 4, (59 * wraps + rest) % 125 = 0 → wraps = 0 := by
    decide
  have no_wrap := none_small wraps few rest rest_lt residue
  omega

theorem microseconds_zeroAgain {begun : ℕ} (zero : begun / ticksPerSecond % 2 ^ 32 = 0)
    (aligned : begun % ticksPerSecond = 0) :
    microseconds begun % 2 ^ 32 = 0 ∧ microseconds (begun + zeroAgain) % 2 ^ 32 = 0 := by
  rw [ticksPerSecond] at zero aligned
  rw [microseconds, microseconds, zeroAgain]
  omega

theorem beginOfSecond_div : beginOfSecond instant / ticksPerSecond = instant / ticksPerSecond :=
  Nat.mul_div_cancel_left _ (by decide)

theorem beginOfSecond_mod : beginOfSecond instant % ticksPerSecond = 0 :=
  Nat.mul_mod_right _ _

/-- A first pair of zeros that is not torn is that of the beginning of the second, or of the next
instant that has the value zero. -/
theorem Call.genuine_of_zero (untorn : ¬call.StartsTorn)
    (poll_eq : call.poll = roundOf call.instants 0) (same : call.poll.same = true)
    (last : call.instants 1 ≤ call.returned) : call.Genuine := by
  obtain ⟨seconds, ticks⟩ := call.first_zero poll_eq same
  have val_zero := call.val_of_first_zero seconds ticks poll_eq
  have inSecond : beginOfSecond (call.instants 0) ≤ call.instants 0 := Nat.mul_div_le _ _
  have zeros := microseconds_zeroAgain
    (by rw [beginOfSecond_div]; exact seconds) (beginOfSecond_mod (call.instants 0))
  have begins := call.begins
  by_cases begun : beginOfSecond (call.instants 0) < call.called
  · have late : beginOfSecond (call.instants 0) + zeroAgain ≤ call.returned :=
      not_lt.mp fun soon => untorn ⟨seconds, ticks, begun, soon⟩
    refine ⟨_, ?_, late, (call.tells_iff _).mpr (by rw [val_zero, zeros.2])⟩
    have split := Nat.div_add_mod (call.instants 0) ticksPerSecond
    have lower := Nat.mod_lt (call.instants 0) (y := ticksPerSecond) (by decide)
    rw [beginOfSecond, zeroAgain]
    rw [ticksPerSecond] at *
    omega
  · refine ⟨_, not_lt.mp begun, ?_, (call.tells_iff _).mpr (by rw [val_zero, zeros.1])⟩
    exact inSecond.trans ((call.mono (Nat.zero_le 1)).trans last)

/-- A call returns the value of an instant between its call and its return exactly if its first
pair is not torn. -/
theorem genuine_iff : call.Genuine ↔ ¬call.StartsTorn := by
  constructor
  · rintro ⟨instant, after, before, tells⟩ ⟨seconds, ticks, begun, soon⟩
    have val_eq := (call.tells_iff instant).mp tells
    have val_zero :=
      call.val_of_first_zero seconds ticks (call.rounds_of_first_zero seconds ticks)
    have later : beginOfSecond (call.instants 0) < instant := begun.trans_le after
    refine microseconds_ne_zero (beginOfSecond (call.instants 0))
      (instant - beginOfSecond (call.instants 0)) ?_ (beginOfSecond_mod _) (by omega)
      (by omega) ?_
    · rw [beginOfSecond_div]
      exact seconds
    · rw [Nat.add_sub_cancel' later.le, ← val_eq, val_zero]
  · intro untorn
    obtain ⟨rounds, poll_eq, same, last⟩ := call.exists_rounds
    rcases rounds with _ | rounds
    · exact call.genuine_of_zero untorn poll_eq same last
    · exact call.genuine_of_reread poll_eq same last

theorem Call.Genuine.precedes {first second : Call} (genuine : first.Genuine)
    (genuine' : second.Genuine) (inTurn : first.returned ≤ second.called) :
    first.Precedes second := by
  obtain ⟨early, -, before, tells⟩ := genuine
  obtain ⟨late, after, -, tells'⟩ := genuine'
  exact ⟨early, late, microseconds_mono (before.trans (inTurn.trans after)), tells, tells'⟩

/-- A call returns the value of an instant between its call and its return exactly if its first
pair is not torn, and values of successive such calls do not go back. -/
theorem cal_get_time_us_untorn_iff (first second : Call) :
    (first.Genuine ↔ ¬first.StartsTorn) ∧
      (first.returned ≤ second.called → ¬first.StartsTorn → ¬second.StartsTorn →
        first.Precedes second) := by
  refine ⟨genuine_iff first, fun inTurn untorn untorn' => ?_⟩
  exact ((genuine_iff first).mpr untorn).precedes ((genuine_iff second).mpr untorn') inTurn

/-- A clock that goes on by one tick after the first reading. -/
def oneTick (start : ℕ) : ℕ → ℕ
  | 0 => start
  | _ + 1 => start + 1

theorem oneTick_forward : oneTick start n ≤ oneTick start (n + 1) := by
  cases n <;> simp [oneTick]

theorem oneTick_slow : oneTick start (n + 1) < oneTick start n + 2 ^ 32 * ticksPerSecond := by
  cases n <;> simp [oneTick, ticksPerSecond]

theorem oneTick_le : oneTick start n ≤ start + 1 := by
  cases n <;> simp [oneTick]

/-- A call during which the clock goes on by one tick. -/
def callOf (start rounds : ℕ)
    (polled : pollFields (oneTick start) rounds = some (roundOf (oneTick start) rounds)) :
    Call where
  called := start
  instants := oneTick start
  fuel := rounds
  poll := roundOf (oneTick start) rounds
  returned := start + 1
  begins := Nat.le_refl _
  forward := oneTick_forward start
  slow := oneTick_slow start
  polled := polled
  ends := oneTick_le start _

def tornCall : Call := callOf 31999 0 (by decide)

/-- The clock shows second zero, goes on to second one and shows tick zero: the call returns zero
after the first second. -/
theorem torn_call_returns_zero :
    tornCall.value = some 0 ∧ tornCall.called = 31999 ∧ tornCall.returned = 32000 ∧
      ¬tornCall.Genuine := by
  refine ⟨by decide, rfl, rfl, fun genuine => ?_⟩
  exact (genuine_iff tornCall).mp genuine (by decide)

theorem call_precedes_later_call :
    (callOf 64000 1 (by decide)).Precedes (callOf 96000 1 (by decide)) :=
  (cal_get_time_us_untorn_iff _ _).2 (by decide) (by decide) (by decide)

end BdkFreertos.Calendar
