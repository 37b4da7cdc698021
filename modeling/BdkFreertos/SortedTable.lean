import Mathlib.Data.List.Pairwise
import Mathlib.Data.Nat.Basic

/-!
# Searching sorted tables

The binary search of a table of keys and values, over a window that is halved at each step.
-/

namespace BdkFreertos.SortedTable

variable {Key Value : Type*} [LT Key]

def Sorted (table : List (Key × Value)) : Prop :=
  table.Pairwise fun left right => left.1 < right.1

variable {table : List (Key × Value)} {key : Key} {value : Value} {first past : ℕ}

theorem lt_of_lt (sorted : Sorted table) {left right : ℕ} {leftRow rightRow : Key × Value}
    (left_eq : table[left]? = some leftRow) (right_eq : table[right]? = some rightRow)
    (order : left < right) : leftRow.1 < rightRow.1 := by
  obtain ⟨left_lt, rfl⟩ := List.getElem?_eq_some_iff.mp left_eq
  obtain ⟨right_lt, rfl⟩ := List.getElem?_eq_some_iff.mp right_eq
  exact List.pairwise_iff_getElem.mp sorted left right left_lt right_lt order

variable [DecidableEq Key] [DecidableLT Key]

/-- The value of a key between two places of a table; `past` is behind the last one. -/
def search (table : List (Key × Value)) (key : Key) (first past : ℕ) : Option Value :=
  if first < past then
    let mid := (first + (past - 1)) / 2
    match table[mid]? with
    | none => none
    | some (found, value) =>
        if found = key then some value
        else if found > key then search table key first mid
        else search table key (mid + 1) past
  else none
termination_by past - first

/-- One halving of a window. -/
theorem search_of_row {found : Key} (window : first < past)
    (row : table[(first + (past - 1)) / 2]? = some (found, value)) :
    search table key first past =
      if found = key then some value
      else if found > key then search table key first ((first + (past - 1)) / 2)
      else search table key ((first + (past - 1)) / 2 + 1) past := by
  rw [search, if_pos window]
  simp [row]

theorem search_of_getElem? [Std.Asymm (α := Key) (· < ·)] (sorted : Sorted table) {place : ℕ}
    (held : table[place]? = some (key, value)) (after : first ≤ place) (before : place < past)
    (inside : past ≤ table.length) : search table key first past = some value := by
  have irrefl (key : Key) : ¬key < key := fun less => Std.Asymm.asymm key key less less
  induction first, past using search.induct table key with
  | case1 first past window mid outside =>
      exact absurd (List.getElem?_eq_none_iff.mp outside) (by omega)
  | case2 first past window mid found row =>
      obtain rfl : place = mid := by
        rcases Nat.lt_trichotomy place mid with less | same | more
        · exact absurd (lt_of_lt sorted held row less) (irrefl key)
        · exact same
        · exact absurd (lt_of_lt sorted row held more) (irrefl key)
      rw [search_of_row window row, if_pos rfl]
      exact congrArg (Option.map Prod.snd) (row.symm.trans held)
  | case3 first past window mid found value row other above induction =>
      rw [search_of_row window row, if_neg other, if_pos above]
      -- the row in the middle comes behind the one that is looked for
      refine induction after ?_ (by omega)
      rcases Nat.lt_trichotomy place mid with less | rfl | more
      · exact less
      · exact absurd (congrArg Prod.fst (Option.some.inj (row.symm.trans held))) other
      · exact absurd (lt_of_lt sorted row held more) (Std.Asymm.asymm key found above)
  | case4 first past window mid found value row other below induction =>
      rw [search_of_row window row, if_neg other, if_neg below]
      refine induction ?_ before inside
      rcases Nat.lt_trichotomy place mid with less | rfl | more
      · exact absurd (lt_of_lt sorted held row less) below
      · exact absurd (congrArg Prod.fst (Option.some.inj (row.symm.trans held))) other
      · exact more
  | case5 first past empty => omega

end BdkFreertos.SortedTable
