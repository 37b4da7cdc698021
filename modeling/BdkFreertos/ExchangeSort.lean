import Mathlib.Order.Lattice
import Mathlib.Data.List.Basic

/-!
# Exchange sort

The sort of two nested loops that compares each place with every later one and exchanges the entries
when the later one has the greater key.  It rearranges the list and leaves the keys descending.
-/

namespace BdkFreertos.ExchangeSort

variable {Entry Key : Type*} [LinearOrder Key] (key : Entry → Key)

/-- Exchange the entries at two places when the second has the greater key. -/
def exchange (first second : ℕ) (entries : List Entry) : List Entry :=
  match entries[first]?, entries[second]? with
  | some before, some after =>
      if key before < key after then (entries.set second before).set first after else entries
  | _, _ => entries

/-- The inner loop: compare a place with so many later ones. -/
def exchangeLoop (first : ℕ) : ℕ → ℕ → List Entry → List Entry
  | 0, _, entries => entries
  | rounds + 1, second, entries =>
      exchangeLoop first rounds (second + 1) (exchange key first second entries)

/-- The outer loop over so many places. -/
def sortLoop : ℕ → ℕ → List Entry → List Entry
  | 0, _, entries => entries
  | rounds + 1, first, entries =>
      sortLoop rounds (first + 1)
        (exchangeLoop key first (entries.length - (first + 1)) (first + 1) entries)

/-- All places but the last are compared with the later ones. -/
def exchangeSort (entries : List Entry) : List Entry :=
  sortLoop key (entries.length - 1) 0 entries

variable {key} {entries : List Entry} {first second : ℕ}

variable {before after : Entry}

theorem exchange_cases (key : Entry → Key) (first_eq : entries[first]? = some before)
    (second_eq : entries[second]? = some after) :
    (key after ≤ key before ∧ exchange key first second entries = entries) ∨
      (key before < key after ∧
        exchange key first second entries = (entries.set second before).set first after) := by
  rw [exchange, first_eq, second_eq]
  rcases lt_or_ge (key before) (key after) with less | not_less
  · exact Or.inr ⟨less, if_pos less⟩
  · exact Or.inl ⟨not_less, if_neg (not_lt.mpr not_less)⟩

theorem exchange_perm (first second : ℕ) (entries : List Entry) :
    (exchange key first second entries).Perm entries := by
  rw [exchange]
  split
  · next before after first_eq second_eq =>
      split
      · obtain ⟨first_lt, rfl⟩ := List.getElem?_eq_some_iff.mp first_eq
        obtain ⟨second_lt, rfl⟩ := List.getElem?_eq_some_iff.mp second_eq
        exact List.set_set_perm second_lt first_lt
      · exact List.Perm.refl entries
  · exact List.Perm.refl entries

theorem exchangeLoop_perm (first rounds second : ℕ) (entries : List Entry) :
    (exchangeLoop key first rounds second entries).Perm entries := by
  induction rounds generalizing second entries with
  | zero => exact List.Perm.refl entries
  | succ rounds induction =>
      exact (induction (second + 1) _).trans (exchange_perm first second entries)

theorem sortLoop_perm (rounds first : ℕ) (entries : List Entry) :
    (sortLoop key rounds first entries).Perm entries := by
  induction rounds generalizing first entries with
  | zero => exact List.Perm.refl entries
  | succ rounds induction =>
      exact (induction (first + 1) _).trans (exchangeLoop_perm first _ _ entries)

theorem exchangeSort_perm (key : Entry → Key) (entries : List Entry) :
    (exchangeSort key entries).Perm entries := sortLoop_perm _ _ entries

/-- The places before one are settled, and its key is not below those of the later places up to
another. -/
structure Settled (key : Entry → Key) (first second : ℕ) (entries : List Entry) : Prop where
  earlier : ∀ {place later before after}, place < first → place < later →
    entries[place]? = some before → entries[later]? = some after → key after ≤ key before
  current : ∀ {later before after}, first < later → later < second →
    entries[first]? = some before → entries[later]? = some after → key after ≤ key before

theorem getElem?_set_set (first_eq : entries[first]? = some before)
    (second_eq : entries[second]? = some after) (place : ℕ) :
    ((entries.set second before).set first after)[place]? =
      if place = first then some after
      else if place = second then some before
      else entries[place]? := by
  obtain ⟨first_lt, -⟩ := List.getElem?_eq_some_iff.mp first_eq
  obtain ⟨second_lt, -⟩ := List.getElem?_eq_some_iff.mp second_eq
  rw [List.getElem?_set, List.getElem?_set, List.length_set, if_pos first_lt, if_pos second_lt]
  simp [eq_comm]

theorem Settled.exchange (settled : Settled key first second entries) (order : first < second)
    (inside : second < entries.length) :
    Settled key first (second + 1) (exchange key first second entries) := by
  have first_eq : entries[first]? = some _ := List.getElem?_eq_getElem (order.trans inside)
  have second_eq : entries[second]? = some _ := List.getElem?_eq_getElem inside
  obtain ⟨not_less, same⟩ | ⟨less, moved⟩ := exchange_cases key first_eq second_eq
  · rw [same]
    refine ⟨settled.earlier, ?_⟩
    intro later before after above below before_eq after_eq
    rcases Nat.lt_or_eq_of_le (Nat.le_of_lt_succ below) with lower | rfl
    · exact settled.current above lower before_eq after_eq
    · rw [first_eq, Option.some.injEq] at before_eq
      rw [second_eq, Option.some.injEq] at after_eq
      rw [← before_eq, ← after_eq]
      exact not_less
  · rw [moved]
    constructor
    · intro place later before after place_lt place_lt_later before_eq after_eq
      rw [getElem?_set_set first_eq second_eq, if_neg (by omega), if_neg (by omega)] at before_eq
      rw [getElem?_set_set first_eq second_eq] at after_eq
      split at after_eq
      · exact settled.earlier place_lt (place_lt.trans order) before_eq (second_eq.trans after_eq)
      · split at after_eq
        · exact settled.earlier place_lt place_lt before_eq (first_eq.trans after_eq)
        · exact settled.earlier place_lt place_lt_later before_eq after_eq
    · intro later before after above below before_eq after_eq
      rw [getElem?_set_set first_eq second_eq, if_pos rfl, Option.some.injEq] at before_eq
      rw [getElem?_set_set first_eq second_eq, if_neg (by omega)] at after_eq
      subst before_eq
      split at after_eq
      · rw [Option.some.injEq] at after_eq
        rw [← after_eq]
        exact less.le
      · exact (settled.current above (by omega) first_eq after_eq).trans less.le

theorem Settled.exchangeLoop (rounds : ℕ) {second : ℕ} (settled : Settled key first second entries)
    (order : first < second) (inside : second + rounds ≤ entries.length) :
    Settled key first (second + rounds) (exchangeLoop key first rounds second entries) := by
  induction rounds generalizing second entries with
  | zero => exact settled
  | succ rounds induction =>
      have length_eq : (ExchangeSort.exchange key first second entries).length = entries.length :=
        (exchange_perm first second entries).length_eq
      have next := induction (settled.exchange order (by omega)) (by omega) (by omega)
      rwa [Nat.add_right_comm, Nat.add_assoc] at next

theorem Settled.succ (settled : Settled key first entries.length entries) :
    Settled key (first + 1) (first + 2) entries := by
  constructor
  · intro place later before after place_lt place_lt_later before_eq after_eq
    rcases Nat.lt_or_eq_of_le (Nat.le_of_lt_succ place_lt) with lower | rfl
    · exact settled.earlier lower place_lt_later before_eq after_eq
    · obtain ⟨later_lt, -⟩ := List.getElem?_eq_some_iff.mp after_eq
      exact settled.current place_lt_later later_lt before_eq after_eq
  · intro later before after above below
    omega

theorem Settled.sortLoop (rounds : ℕ) {first : ℕ} (settled : Settled key first (first + 1) entries)
    (inside : first + rounds < entries.length) :
    Settled key (first + rounds) (first + rounds + 1) (sortLoop key rounds first entries) := by
  induction rounds generalizing first entries with
  | zero => exact settled
  | succ rounds induction =>
      let compared := ExchangeSort.exchangeLoop key first (entries.length - (first + 1))
        (first + 1) entries
      have length_eq : compared.length = entries.length :=
        (exchangeLoop_perm first _ _ entries).length_eq
      have round : Settled key first compared.length compared := by
        have loop := settled.exchangeLoop (entries.length - (first + 1)) (Nat.lt_succ_self first)
          (by omega)
        rw [Nat.add_sub_cancel' (by omega)] at loop
        rw [length_eq]
        exact loop
      have next := induction round.succ (by omega)
      rwa [Nat.add_right_comm, Nat.add_assoc] at next

theorem exchangeSort_pairwise (key : Entry → Key) (entries : List Entry) :
    (exchangeSort key entries).Pairwise fun before after => key after ≤ key before := by
  have length_eq := (exchangeSort_perm key entries).length_eq
  rw [List.pairwise_iff_getElem]
  intro place later place_lt later_lt order
  have start : Settled key 0 (0 + 1) entries :=
    ⟨fun below => absurd below (Nat.not_lt_zero _), fun above below => by omega⟩
  have settled := start.sortLoop (entries.length - 1) (by omega)
  exact settled.earlier (by omega) order (List.getElem?_eq_getElem place_lt)
    (List.getElem?_eq_getElem later_lt)

end BdkFreertos.ExchangeSort
