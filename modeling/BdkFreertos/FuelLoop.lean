import Mathlib.Data.Fintype.Card
import Mathlib.Logic.Function.Iterate

/-!
# Loops that may not end

A loop repeats its body until a test succeeds.  With fuel it is a total function, and the loop ends
exactly if some amount of fuel is enough.  On finitely many states a loop that ends comes to no state
twice, so it takes fewer rounds than there are states.
-/

namespace BdkFreertos.FuelLoop

variable {State : Type*} (done : State → Bool) (body : State → State)

/-- Repeat the body until the test succeeds, as often as there is fuel. -/
def loop : ℕ → State → Option State
  | 0, state => if done state then some state else none
  | fuel + 1, state => if done state then some state else loop fuel (body state)

/-- The loop ends after so many rounds. -/
structure EndsAfter (state : State) (rounds : ℕ) : Prop where
  ends : done (body^[rounds] state) = true
  first : ∀ earlier < rounds, done (body^[earlier] state) = false

variable {done body} {state : State} {rounds : ℕ}

theorem EndsAfter.of_body (goesOn : done state = false)
    (later : EndsAfter done body (body state) rounds) :
    EndsAfter done body state (rounds + 1) := by
  refine ⟨later.ends, fun earlier before => ?_⟩
  rcases earlier with _ | earlier
  · exact goesOn
  · exact later.first earlier (Nat.lt_of_succ_lt_succ before)

theorem exists_endsAfter {fuel : ℕ} {final : State}
    (returned : loop done body fuel state = some final) :
    ∃ rounds, final = body^[rounds] state ∧ EndsAfter done body state rounds := by
  induction fuel generalizing state with
  | zero =>
      simp only [loop] at returned
      split at returned
      · rename_i ended
        obtain rfl := Option.some.inj returned
        exact ⟨0, rfl, ended, nofun⟩
      · exact nomatch returned
  | succ fuel induction =>
      simp only [loop] at returned
      split at returned
      · rename_i ended
        obtain rfl := Option.some.inj returned
        exact ⟨0, rfl, ended, nofun⟩
      · rename_i goesOn
        obtain ⟨rounds, final_eq, later⟩ := induction returned
        exact ⟨rounds + 1, final_eq, .of_body (Bool.eq_false_iff.mpr goesOn) later⟩

theorem exists_loop (ended : done (body^[rounds] state) = true) :
    ∃ last ≤ rounds, EndsAfter done body state last ∧
      loop done body rounds state = some (body^[last] state) := by
  induction rounds generalizing state with
  | zero =>
      refine ⟨0, Nat.le_refl 0, ⟨ended, nofun⟩, ?_⟩
      exact if_pos ended
  | succ rounds induction =>
      cases first : done state with
      | true =>
          refine ⟨0, Nat.zero_le _, ⟨first, nofun⟩, ?_⟩
          exact if_pos first
      | false =>
          obtain ⟨last, bounded, ends, returned⟩ := induction ended
          refine ⟨last + 1, Nat.succ_le_succ bounded, .of_body first ends, ?_⟩
          rw [loop, first, if_neg Bool.false_ne_true, returned]
          rfl

theorem EndsAfter.unique {rounds' : ℕ} (ends : EndsAfter done body state rounds)
    (ends' : EndsAfter done body state rounds') : rounds = rounds' := by
  rcases Nat.lt_trichotomy rounds rounds' with earlier | same | later
  · exact absurd ends.ends (by simp [ends'.first rounds earlier])
  · exact same
  · exact absurd ends'.ends (by simp [ends.first rounds' later])

variable (done body) in
def Returns (state final : State) : Prop := ∃ fuel, loop done body fuel state = some final

theorem returns_of_done (ended : done state = true) : Returns done body state state :=
  ⟨0, if_pos ended⟩

theorem Returns.of_body {final : State} (goesOn : done state = false)
    (later : Returns done body (body state) final) : Returns done body state final := by
  obtain ⟨fuel, returned⟩ := later
  refine ⟨fuel + 1, ?_⟩
  rw [loop, goesOn, if_neg Bool.false_ne_true, returned]

theorem Returns.unique {final final' : State} (returns : Returns done body state final)
    (returns' : Returns done body state final') : final = final' := by
  obtain ⟨_, returned⟩ := returns
  obtain ⟨_, returned'⟩ := returns'
  obtain ⟨rounds, rfl, ends⟩ := exists_endsAfter returned
  obtain ⟨rounds', rfl, ends'⟩ := exists_endsAfter returned'
  rw [ends.unique ends']

/-! ## Finitely many states -/

theorem EndsAfter.loop_eq {fuel : ℕ} (ends : EndsAfter done body state rounds)
    (enough : rounds ≤ fuel) : loop done body fuel state = some (body^[rounds] state) := by
  induction rounds generalizing state fuel with
  | zero =>
      have ended : done state = true := ends.ends
      cases fuel <;> exact if_pos ended
  | succ rounds induction =>
      have goesOn : done state = false := ends.first 0 (Nat.succ_pos rounds)
      cases fuel with
      | zero => exact absurd enough (Nat.not_succ_le_zero rounds)
      | succ fuel =>
          rw [loop, goesOn, if_neg Bool.false_ne_true, Function.iterate_succ_apply]
          refine induction ⟨ends.ends, fun earlier before => ?_⟩ (Nat.le_of_succ_le_succ enough)
          exact ends.first (earlier + 1) (Nat.succ_lt_succ before)

theorem EndsAfter.iterate_ne {earlier later : ℕ} (ends : EndsAfter done body state rounds)
    (before : earlier < later) (bounded : later ≤ rounds) :
    body^[earlier] state ≠ body^[later] state := by
  intro same
  have shifted : body^[rounds - later + earlier] state = body^[rounds] state := by
    rw [Function.iterate_add_apply, same, ← Function.iterate_add_apply,
      Nat.sub_add_cancel bounded]
  have going := ends.first (rounds - later + earlier) (by omega)
  rw [shifted, ends.ends] at going
  exact Bool.noConfusion going

variable {bound : ℕ} (number : State → Fin bound)

theorem lt_of_iterate_ne (injective : Function.Injective number)
    (distinct : ∀ later ≤ rounds, ∀ earlier < later, body^[earlier] state ≠ body^[later] state) :
    rounds < bound := by
  have injects : Function.Injective fun index : Fin (rounds + 1) =>
      number (body^[index.val] state) := by
    intro i j same
    have met : body^[i.val] state = body^[j.val] state := injective same
    rcases Nat.lt_trichotomy i.val j.val with before | equal | behind
    · exact absurd met (distinct j.val (Nat.le_of_lt_succ j.isLt) i.val before)
    · exact Fin.ext equal
    · exact absurd met.symm (distinct i.val (Nat.le_of_lt_succ i.isLt) j.val behind)
  have counted := Fintype.card_le_of_injective _ injects
  rwa [Fintype.card_fin, Fintype.card_fin] at counted

theorem EndsAfter.lt_of_injective (ends : EndsAfter done body state rounds)
    (injective : Function.Injective number) : rounds < bound :=
  lt_of_iterate_ne number injective fun _ bounded _ before => ends.iterate_ne before bounded

end BdkFreertos.FuelLoop
