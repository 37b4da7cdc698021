import Mathlib.Data.List.Basic

/-!
# In-order delivery with retries

Items wait in a queue and the oldest one is offered to a receiver, which accepts or refuses it.  A
refused item stays at the front and is offered again; an accepted one leaves.  The attempts made so
far and the queue that is left then determine each other: an attempt offers the item whose position
is the number of items accepted before it.
-/

namespace BdkFreertos
namespace Delivery

variable {Item : Type*}

def accepted (log : List (Item × Bool)) : List Item :=
  (log.filter fun attempt => attempt.2).map Prod.fst

@[simp]
theorem accepted_append (front back : List (Item × Bool)) :
    accepted (front ++ back) = accepted front ++ accepted back := by
  simp [accepted]

variable {first second : ℕ} (item : Item)

@[simp]
theorem accepted_refusal : accepted [(item, false)] = [] := rfl

@[simp]
theorem accepted_acceptance : accepted [(item, true)] = [item] := rfl

/-- The position, among all queued items, of the item that an attempt offers. -/
def position (log : List (Item × Bool)) (attempt : ℕ) : ℕ :=
  (accepted (log.take attempt)).length

/-- `Sends items log rest`: of `items`, queued in this order, the attempts of `log` have been made
and `rest` is still queued. -/
inductive Sends : List Item → List (Item × Bool) → List Item → Prop
  | start : Sends [] [] []
  /-- An item joins at the back. -/
  | queued {items log rest} (item : Item) (sends : Sends items log rest) :
      Sends (items ++ [item]) log (rest ++ [item])
  /-- The oldest item is refused and stays. -/
  | refused {items log item rest} (sends : Sends items log (item :: rest)) :
      Sends items (log ++ [(item, false)]) (item :: rest)
  /-- The oldest item is accepted and leaves. -/
  | accepted {items log item rest} (sends : Sends items log (item :: rest)) :
      Sends items (log ++ [(item, true)]) rest

namespace Sends

variable {items : List Item} {log : List (Item × Bool)} {rest : List Item}

theorem split (sends : Sends items log rest) : items = Delivery.accepted log ++ rest := by
  induction sends with
  | start => rfl
  | queued item _ induction => rw [induction, List.append_assoc]
  | refused _ induction | accepted _ induction => simpa using induction

variable {attempt : ℕ} {item : Item} {answer : Bool}

/-- When the newest attempt offers the front of the queue, every attempt offers the item at its
position as soon as the earlier ones did. -/
theorem offers_last {oldest : Item} {newest : Bool}
    (parts : items = Delivery.accepted log ++ oldest :: rest)
    (made : (log ++ [(oldest, newest)])[attempt]? = some (item, answer))
    (earlier : log[attempt]? = some (item, answer) → items[position log attempt]? = some item) :
    items[position (log ++ [(oldest, newest)]) attempt]? = some item := by
  rcases Nat.lt_trichotomy attempt log.length with before | last | beyond
  · rw [List.getElem?_append_left before] at made
    rw [position, List.take_append_of_le_length (Nat.le_of_lt before)]
    exact earlier made
  · subst last
    obtain ⟨rfl, rfl⟩ : oldest = item ∧ newest = answer := by simpa using made
    simp [position, parts]
  · have none : (log ++ [(oldest, newest)])[attempt]? = none := by
      rw [List.getElem?_eq_none_iff, List.length_append]
      exact beyond
    simp [none] at made

theorem offers (sends : Sends items log rest) (made : log[attempt]? = some (item, answer)) :
    items[position log attempt]? = some item := by
  induction sends with
  | start => simp at made
  | queued newest _ induction =>
      have found := induction made
      rw [List.getElem?_append_left (List.getElem?_eq_some_iff.mp found).1]
      exact found
  | refused sends induction | accepted sends induction =>
      exact offers_last sends.split made induction

theorem front_of_refused (sends : Sends items log rest) (last : log.getLast? = some (item, false)) :
    rest.head? = some item := by
  induction sends with
  | start => simp at last
  | queued newest _ induction => simp [induction last]
  | refused _ _ => simpa using last
  | accepted _ _ => simp at last

end Sends

theorem position_mono (log : List (Item × Bool)) (le : first ≤ second) :
    position log first ≤ position log second := by
  have taken : log.take first = (log.take second).take first := by
    rw [List.take_take, Nat.min_eq_left le]
  have parts := congrArg Delivery.accepted (List.take_append_drop first (log.take second))
  rw [accepted_append, ← taken] at parts
  rw [position, position, ← parts, List.length_append]
  exact Nat.le_add_right _ _

theorem position_lt_of_accepted {log : List (Item × Bool)} {item : Item}
    (made : log[first]? = some (item, true)) (lt : first < second) :
    position log first < position log second := by
  have next : position log (first + 1) = position log first + 1 := by
    rw [position, List.take_add_one, made]
    simp [position]
  have later : position log (first + 1) ≤ position log second := position_mono log lt
  omega

end Delivery
end BdkFreertos
