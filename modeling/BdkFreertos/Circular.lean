import BdkFreertos.Memory

/-!
# Runs of cells that go around a ring

A position may grow without bound; the cell it stands for is the one at its remainder.  A run of
cells then starts at any position and goes around the ring at its end, and a copy in or out of it is
a copy up to the end of the ring and one from its start.  A stream that passes through a ring has
each of its cells at the remainder of its position.
-/

namespace BdkFreertos.Memory

variable {Cell : Type*}

/-- The `count` cells of a ring from a position on. -/
def loadAround (memory : Memory Cell) (size start count : ℕ) : List Cell :=
  (List.range count).map fun index => memory ((start + index) % size)

/-- Copy a list into a ring from a position on, up to the end of the ring and then from its
start. -/
def storeAround (memory : Memory Cell) (size start : ℕ) (cells : List Cell) : Memory Cell :=
  (memory.store (start % size) (cells.take (size - start % size))).store 0
    (cells.drop (size - start % size))

section

variable (memory : Memory Cell) (size start : ℕ)
include memory size start

@[simp]
theorem length_loadAround (count : ℕ) : (memory.loadAround size start count).length = count := by
  simp [loadAround]

@[simp]
theorem loadAround_zero : memory.loadAround size start 0 = [] := rfl

theorem loadAround_add (front back : ℕ) :
    memory.loadAround size start (front + back) =
      memory.loadAround size start front ++ memory.loadAround size (start + front) back := by
  simp only [loadAround, List.range_add, List.map_append, List.map_map]
  congr 2
  funext index
  simp [Nat.add_assoc]

end

variable {start count front size start' : ℕ}

section

variable (memory : Memory Cell)
include memory

theorem take_loadAround (short : front ≤ count) :
    (memory.loadAround size start count).take front = memory.loadAround size start front := by
  obtain ⟨back, rfl⟩ := Nat.exists_eq_add_of_le short
  rw [loadAround_add, List.take_left' (by simp)]

theorem drop_loadAround (short : front ≤ count) :
    (memory.loadAround size start count).drop front =
      memory.loadAround size (start + front) (count - front) := by
  obtain ⟨back, rfl⟩ := Nat.exists_eq_add_of_le short
  rw [loadAround_add, List.drop_left' (by simp), Nat.add_sub_cancel_left]

theorem loadAround_congr (same : start % size = start' % size) (count : ℕ) :
    memory.loadAround size start count = memory.loadAround size start' count := by
  apply List.map_congr_left
  intro index _
  rw [Nat.add_mod, same, ← Nat.add_mod]

theorem loadAround_eq (bounded : count ≤ size) :
    memory.loadAround size start count =
      memory.load (start % size) (min count (size - start % size)) ++
        memory.load 0 (count - min count (size - start % size)) := by
  rcases Nat.eq_zero_or_pos size with rfl | positive
  · obtain rfl : count = 0 := Nat.le_zero.mp bounded
    simp
  have place := Nat.mod_lt start positive
  have split : count = min count (size - start % size) +
      (count - min count (size - start % size)) := by omega
  rw [memory.loadAround_congr (Nat.mod_mod start size).symm]
  nth_rewrite 1 [split]
  rw [loadAround_add]
  congr 1
  · apply List.map_congr_left
    intro index member
    rw [Nat.mod_eq_of_lt]
    have := List.mem_range.mp member
    omega
  · apply List.map_congr_left
    intro index member
    have inside := List.mem_range.mp member
    have position : (start % size + min count (size - start % size) + index) % size = index := by
      rw [show start % size + min count (size - start % size) + index = size + index by omega,
        Nat.add_mod_left, Nat.mod_eq_of_lt (by omega)]
    rw [position, Nat.zero_add]

theorem storeAround_apply {index : ℕ} {cells : List Cell} (bounded : cells.length ≤ size)
    (inside : index < cells.length) :
    memory.storeAround size start cells ((start + index) % size) =
      (cells[index]?).getD (memory ((start + index) % size)) := by
  have place := Nat.mod_lt start (by omega : 0 < size)
  rw [Nat.add_mod, Nat.mod_eq_of_lt (by omega : index < size)]
  rw [storeAround]
  rcases Nat.lt_or_ge (start % size + index) size with before | beyond
  · rw [Nat.mod_eq_of_lt before, store_apply_of_le _ (by rw [List.length_drop]; omega),
      store_apply_add, List.getElem?_take_of_lt (by omega)]
  · have position : (start % size + index) % size = 0 + (start % size + index - size) := by
      rw [Nat.mod_eq_sub_mod beyond, Nat.mod_eq_of_lt (by omega), Nat.zero_add]
    rw [position, store_apply_add, List.getElem?_drop,
      show size - start % size + (start % size + index - size) = index by omega]
    rw [List.getElem?_eq_getElem inside, Option.getD_some, Option.getD_some]

end

theorem storeAround_apply_of_le (memory : Memory Cell) {size start index : ℕ} {cells : List Cell}
    (beyond : cells.length ≤ index) (inside : index < size) :
    memory.storeAround size start cells ((start + index) % size) =
      memory ((start + index) % size) := by
  have place := Nat.mod_lt start (by omega : 0 < size)
  rw [Nat.add_mod, Nat.mod_eq_of_lt inside, storeAround]
  rcases Nat.lt_or_ge (start % size + index) size with before | around
  · rw [Nat.mod_eq_of_lt before, store_apply_of_le _ (by rw [List.length_drop]; omega),
      store_apply_of_le _ (by rw [List.length_take]; omega)]
  · have position : (start % size + index) % size = start % size + index - size := by
      rw [Nat.mod_eq_sub_mod around, Nat.mod_eq_of_lt (by omega)]
    rw [position, store_apply_of_le _ (by rw [List.length_drop]; omega),
      store_apply_of_lt _ _ (by omega)]

theorem loadAround_storeAround (memory : Memory Cell) {size start count : ℕ} {cells : List Cell}
    (room : count + cells.length ≤ size) :
    (memory.storeAround size (start + count) cells).loadAround size start
        (count + cells.length) =
      memory.loadAround size start count ++ cells := by
  rw [loadAround_add]
  congr 1
  · apply List.map_congr_left
    intro index member
    have inside := List.mem_range.mp member
    have kept := @storeAround_apply_of_le _ memory size (start + count) (size - count + index) cells
      (by omega) (by omega)
    rw [show start + count + (size - count + index) = size + (start + index) by omega,
      Nat.add_mod_left] at kept
    exact kept
  · apply List.ext_getElem?
    intro index
    rcases Nat.lt_or_ge index cells.length with inside | outside
    · rw [loadAround, List.getElem?_map, List.getElem?_range inside, Option.map_some,
        storeAround_apply memory (by omega) inside, List.getElem?_eq_getElem inside,
        Option.getD_some]
    · rw [List.getElem?_eq_none (by simpa using outside), List.getElem?_eq_none outside]

theorem store_store_loadAround (target memory : Memory Cell) (bounded : count ≤ size) :
    (target.store 0 (memory.load (start % size) (min count (size - start % size)))).store
        (min count (size - start % size))
        (memory.load 0 (count - min count (size - start % size))) =
      target.store 0 (memory.loadAround size start count) := by
  have adjacent := target.store_store_adjacent 0
    (memory.load (start % size) (min count (size - start % size)))
    (memory.load 0 (count - min count (size - start % size)))
  rw [length_load, Nat.zero_add] at adjacent
  rw [adjacent, loadAround_eq memory bounded]

theorem store_store_storeAround (memory source : Memory Cell) (size start count : ℕ) :
    (memory.store (start % size) (source.load 0 (min count (size - start % size)))).store 0
        (source.load (min count (size - start % size))
          (count - min count (size - start % size))) =
      memory.storeAround size start (source.load 0 count) := by
  rw [storeAround]
  rcases Nat.le_total count (size - start % size) with short | long
  · rw [Nat.min_eq_left short, List.take_of_length_le (by simpa using short),
      List.drop_of_length_le (by simpa using short), Nat.sub_self, load_zero]
  · rw [Nat.min_eq_right long, take_load source long, drop_load source long, Nat.zero_add]

theorem storeAround_congr (memory : Memory Cell) (same : start % size = start' % size)
    (cells : List Cell) :
    memory.storeAround size start cells = memory.storeAround size start' cells := by
  rw [storeAround, storeAround, same]

/-! ## A stream through a ring -/

theorem add_mod_cases {offset : ℕ} (base : ℕ) (bounded : offset ≤ size) :
    base % size + offset < size ∧ (base + offset) % size = base % size + offset ∨
      size ≤ base % size + offset ∧ (base + offset) % size = base % size + offset - size := by
  rcases Nat.eq_zero_or_pos size with rfl | positive
  · exact Or.inr ⟨Nat.zero_le _, by simp⟩
  have place := Nat.mod_lt base positive
  rw [← Nat.mod_add_mod]
  rcases Nat.lt_or_ge (base % size + offset) size with before | around
  · exact Or.inl ⟨before, Nat.mod_eq_of_lt before⟩
  · refine Or.inr ⟨around, ?_⟩
    rw [Nat.mod_eq_sub_mod around, Nat.mod_eq_of_lt (by omega)]

theorem mod_ne_mod {position later : ℕ} (ordered : position < later)
    (near : later < position + size) : position % size ≠ later % size := by
  have next := add_mod_cases position (show later - position ≤ size by omega)
  rw [Nat.add_sub_cancel' (Nat.le_of_lt ordered)] at next
  omega

/-- A ring holds a stream between two positions. -/
def Carries (memory : Memory Cell) (size : ℕ) (stream : List Cell) (first last : ℕ) : Prop :=
  ∀ position, first ≤ position → position < last →
    stream[position]? = some (memory (position % size))

theorem carries_nothing (memory : Memory Cell) (size : ℕ) (stream : List Cell) (first : ℕ) :
    memory.Carries size stream first first := by
  intro position reached before
  omega

namespace Carries

variable {memory : Memory Cell} {size first last : ℕ} {stream : List Cell}

section

variable (carries : memory.Carries size stream first last)
include carries

theorem mono {first' last' : ℕ} (later : first ≤ first') (earlier : last' ≤ last) :
    memory.Carries size stream first' last' :=
  fun position reached before =>
    carries position (Nat.le_trans later reached) (Nat.lt_of_lt_of_le before earlier)

theorem append (more : List Cell) : memory.Carries size (stream ++ more) first last := by
  intro position reached before
  have held := carries position reached before
  have inside := (List.getElem?_eq_some_iff.mp held).1
  rw [List.getElem?_append_left inside, held]

theorem put {cell : Cell} (next : stream[last]? = some cell) (room : last < first + size) :
    (memory.store (last % size) [cell]).Carries size stream first (last + 1) := by
  intro position reached before
  rcases Nat.lt_or_ge position last with earlier | latest
  · have apart := mod_ne_mod earlier (by omega : last < position + size)
    rw [carries position reached earlier]
    rcases Nat.lt_or_gt_of_ne apart with below | above
    · rw [store_apply_of_lt _ _ below]
    · rw [store_apply_of_le _ (by rw [List.length_singleton]; omega)]
  · obtain rfl : position = last := by omega
    have stored := store_apply_add memory (position % size) 0 [cell]
    rw [Nat.add_zero] at stored
    rw [next, stored]
    rfl

theorem take_succ (some_held : first < last) :
    stream.take (first + 1) = stream.take first ++ [memory (first % size)] := by
  rw [List.take_add_one, carries first (Nat.le_refl first) some_held, Option.toList_some]

end

theorem loadAround_eq_drop (carries : memory.Carries size stream first stream.length)
    (bounded : first ≤ stream.length) :
    memory.loadAround size first (stream.length - first) = stream.drop first := by
  apply List.ext_getElem?
  intro index
  rw [List.getElem?_drop]
  rcases Nat.lt_or_ge index (stream.length - first) with inside | outside
  · rw [loadAround, List.getElem?_map, List.getElem?_range inside, Option.map_some,
      carries (first + index) (by omega) (by omega)]
  · rw [List.getElem?_eq_none (by simpa using outside), List.getElem?_eq_none (by omega)]

end Carries

end BdkFreertos.Memory
