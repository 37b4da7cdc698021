import Mathlib.Algebra.Group.Nat.Defs
import Mathlib.Data.List.Basic

/-!
# Addressed memory

A memory is a total assignment of cells to addresses.  `load` copies a run of cells out and `store`
copies a list in; between them they model `memcpy`, buffers reached through a pointer, and a flash
device which behaves as an array of bytes.  Words are four bytes, least significant first.
-/

namespace BdkFreertos

def Memory (Cell : Type*) := ℕ → Cell

namespace Memory

variable {Cell : Type*}

/-- The `count` cells from `start` on. -/
def load (memory : Memory Cell) (start count : ℕ) : List Cell :=
  (List.range count).map fun index => memory (start + index)

/-- Replace the cells from `start` on by a list. -/
def store (memory : Memory Cell) (start : ℕ) (cells : List Cell) : Memory Cell :=
  fun address =>
    if start ≤ address then (cells[address - start]?).getD (memory address) else memory address

@[simp]
theorem length_load (memory : Memory Cell) (start count : ℕ) :
    (memory.load start count).length = count := by
  simp [load]

@[simp]
theorem load_zero (memory : Memory Cell) (start : ℕ) : memory.load start 0 = [] := rfl

theorem getElem?_load (memory : Memory Cell) (start count index : ℕ) :
    (memory.load start count)[index]? =
      if index < count then some (memory (start + index)) else none := by
  by_cases inside : index < count <;> simp [load, inside]

variable {count : ℕ} {memory : Memory Cell} {start : ℕ} {cells : List Cell}
  {front address place : ℕ}

theorem load_eq_load {left right : Memory Cell} {first second : ℕ}
    (agree : ∀ index < count, left (first + index) = right (second + index)) :
    left.load first count = right.load second count := by
  apply List.map_congr_left
  intro index member
  exact agree index (List.mem_range.mp member)

theorem load_apply (loaded : memory.load start count = cells) {index : ℕ} (inside : index < count) :
    cells[index]? = some (memory (start + index)) := by
  rw [← loaded, getElem?_load, if_pos inside]

theorem load_add (memory : Memory Cell) (start front back : ℕ) :
    memory.load start (front + back) =
      memory.load start front ++ memory.load (start + front) back := by
  simp only [load, List.range_add, List.map_append, List.map_map]
  congr 2
  funext index
  simp [Nat.add_assoc]

theorem take_load (memory : Memory Cell) (short : front ≤ count) :
    (memory.load start count).take front = memory.load start front := by
  obtain ⟨back, rfl⟩ := Nat.exists_eq_add_of_le short
  rw [load_add, List.take_left' (by simp)]

theorem drop_load (memory : Memory Cell) (short : front ≤ count) :
    (memory.load start count).drop front = memory.load (start + front) (count - front) := by
  obtain ⟨back, rfl⟩ := Nat.exists_eq_add_of_le short
  rw [load_add, List.drop_left' (by simp), Nat.add_sub_cancel_left]

theorem store_apply_of_lt (memory : Memory Cell) (cells : List Cell) (before : address < start) :
    memory.store start cells address = memory address := by
  simp [store, Nat.not_le.mpr before]

theorem store_apply_of_le (memory : Memory Cell) (beyond : start + cells.length ≤ address) :
    memory.store start cells address = memory address := by
  have absent : cells[address - start]? = none := by
    rw [List.getElem?_eq_none_iff]
    omega
  simp [store, absent]

@[simp]
theorem store_apply_add (memory : Memory Cell) (start index : ℕ) (cells : List Cell) :
    memory.store start cells (start + index) = (cells[index]?).getD (memory (start + index)) := by
  simp [store]

@[simp]
theorem store_nil (memory : Memory Cell) (start : ℕ) : memory.store start [] = memory := by
  funext address
  simp [store]

theorem load_store_self (memory : Memory Cell) (start : ℕ) (cells : List Cell) :
    (memory.store start cells).load start cells.length = cells := by
  apply List.ext_getElem?
  intro index
  rw [getElem?_load]
  split
  · rename_i inside
    simp [inside]
  · rename_i outside
    simp [Nat.not_lt.mp outside]

theorem load_store_of_disjoint (memory : Memory Cell)
    (disjoint : start + count ≤ place ∨ place + cells.length ≤ start) :
    (memory.store place cells).load start count = memory.load start count := by
  apply load_eq_load
  intro index inside
  rcases disjoint with before | beyond
  · exact store_apply_of_lt memory cells (by omega)
  · exact store_apply_of_le memory (by omega)

theorem load_store_singleton (memory : Memory Cell) (place : ℕ) (cell : Cell) :
    (memory.store place [cell]).load place 1 = [cell] :=
  load_store_self memory place [cell]

theorem store_singleton_self (memory : Memory Cell) (place : ℕ) (cell : Cell) :
    memory.store place [cell] place = cell :=
  store_apply_add memory place 0 [cell]

theorem store_singleton_of_ne (memory : Memory Cell) (cell : Cell) (other : address ≠ place) :
    memory.store place [cell] address = memory address := by
  rcases Nat.lt_or_gt_of_ne other with before | beyond
  · exact store_apply_of_lt memory [cell] before
  · exact store_apply_of_le memory beyond

theorem load_store_above (memory : Memory Cell) (cells : List Cell)
    (above : start + count ≤ place) :
    (memory.store place cells).load start count = memory.load start count :=
  load_store_of_disjoint memory (Or.inl above)

/-- A list occupies the cells from `start` on. -/
def Holds (memory : Memory Cell) (start : ℕ) (cells : List Cell) : Prop :=
  memory.load start cells.length = cells

theorem holds_nil (memory : Memory Cell) (start : ℕ) : memory.Holds start [] := rfl

theorem holds_append {memory : Memory Cell} {start : ℕ} {front back : List Cell} :
    memory.Holds start (front ++ back) ↔
      memory.Holds start front ∧ memory.Holds (start + front.length) back := by
  rw [Holds]
  rw [List.length_append, load_add]
  constructor
  · intro loaded
    exact List.append_inj loaded (length_load memory start front.length)
  · rintro ⟨front_eq, back_eq⟩
    rw [front_eq, back_eq]

theorem holds_cons {cell : Cell} :
    memory.Holds start (cell :: cells) ↔ memory start = cell ∧ memory.Holds (start + 1) cells := by
  have split := @holds_append _ memory start [cell] cells
  have first : memory.Holds start [cell] ↔ memory start = cell := by simp [Holds, load]
  rwa [first] at split

theorem holds_load (memory : Memory Cell) (start count : ℕ) :
    memory.Holds start (memory.load start count) := by
  rw [Holds, length_load]

theorem holds_store (memory : Memory Cell) (start : ℕ) (cells : List Cell) :
    (memory.store start cells).Holds start cells :=
  load_store_self memory start cells

namespace Holds

variable {memory : Memory Cell} {start : ℕ} {cells : List Cell}

theorem store_of_disjoint (held : memory.Holds start cells) {place : ℕ} {block : List Cell}
    (disjoint : start + cells.length ≤ place ∨ place + block.length ≤ start) :
    (memory.store place block).Holds start cells :=
  (load_store_of_disjoint memory disjoint).trans held

theorem load_slice (held : memory.Holds start cells) {offset count : ℕ}
    (inside : offset + count ≤ cells.length) :
    memory.load (start + offset) count = (cells.drop offset).take count := by
  have whole : memory.load start cells.length = cells := held
  rw [← whole, drop_load memory (by omega), take_load memory (by omega)]

end Holds

theorem load_store_take (memory : Memory Cell) (start : ℕ) (short : count ≤ cells.length) :
    (memory.store start cells).load start count = cells.take count := by
  have front := (holds_store memory start cells).load_slice (Nat.zero_add count ▸ short)
  simpa using front

theorem store_store_adjacent (memory : Memory Cell) (start : ℕ) (front back : List Cell) :
    (memory.store start front).store (start + front.length) back =
      memory.store start (front ++ back) := by
  funext address
  rcases Nat.lt_or_ge address start with before | beyond
  · rw [store_apply_of_lt _ _ before, store_apply_of_lt _ _ (by omega),
      store_apply_of_lt _ _ before]
  · obtain ⟨index, rfl⟩ := Nat.exists_eq_add_of_le beyond
    rcases Nat.lt_or_ge index front.length with inside | outside
    · rw [store_apply_of_lt _ _ (by omega), store_apply_add, store_apply_add,
        List.getElem?_append_left inside]
    · obtain ⟨later, rfl⟩ := Nat.exists_eq_add_of_le outside
      rw [← Nat.add_assoc, store_apply_add, store_apply_of_le _ (by omega), Nat.add_assoc,
        store_apply_add, List.getElem?_append_right (by omega), Nat.add_sub_cancel_left]

end Memory

theorem toNat_add_of_lt {left right : UInt32} (small : left.toNat + right.toNat < 2 ^ 32) :
    (left + right).toNat = left.toNat + right.toNat :=
  (UInt32.toNat_add left right).trans (Nat.mod_eq_of_lt small)

theorem toNat_ofNat_of_le {count : ℕ} {bound : UInt32} (small : count ≤ bound.toNat) :
    (UInt32.ofNat count).toNat = count :=
  UInt32.toNat_ofNat_of_lt' (Nat.lt_of_le_of_lt small bound.toNat_lt)

/-- The four bytes of a word, least significant first. -/
def wordBytes (word : UInt32) : List UInt8 :=
  [UInt8.ofNat word.toNat, UInt8.ofNat (word.toNat / 2 ^ 8),
    UInt8.ofNat (word.toNat / 2 ^ 16), UInt8.ofNat (word.toNat / 2 ^ 24)]

variable (word : UInt32)

@[simp]
theorem length_wordBytes : (wordBytes word).length = 4 := rfl

/-- The word with the given bytes, least significant first. -/
def wordOfBytes (byte₀ byte₁ byte₂ byte₃ : UInt8) : UInt32 :=
  UInt32.ofNat
    (byte₀.toNat + 2 ^ 8 * byte₁.toNat + 2 ^ 16 * byte₂.toNat + 2 ^ 24 * byte₃.toNat)

theorem wordOfBytes_wordBytes :
    wordOfBytes (UInt8.ofNat word.toNat) (UInt8.ofNat (word.toNat / 2 ^ 8))
      (UInt8.ofNat (word.toNat / 2 ^ 16)) (UInt8.ofNat (word.toNat / 2 ^ 24)) = word := by
  have bound := word.toNat_lt
  apply UInt32.toNat_inj.mp
  simp only [wordOfBytes, UInt8.toNat_ofNat', UInt32.toNat_ofNat']
  omega

namespace Memory

/-- The word stored in the four bytes from `start` on. -/
def loadWord (memory : Memory UInt8) (start : ℕ) : UInt32 :=
  wordOfBytes (memory start) (memory (start + 1)) (memory (start + 2)) (memory (start + 3))

/-- Replace the four bytes from `start` on by a word. -/
def storeWord (memory : Memory UInt8) (start : ℕ) (word : UInt32) : Memory UInt8 :=
  memory.store start (wordBytes word)

variable {start : ℕ} {word : UInt32} {left right : Memory UInt8}

theorem loadWord_of_load {memory : Memory UInt8} (loaded : memory.load start 4 = wordBytes word) :
    memory.loadWord start = word := by
  have cells : ∀ index < 4, (wordBytes word)[index]? = some (memory (start + index)) :=
    fun index inside => load_apply loaded inside
  have byte₀ := cells 0 (by omega)
  have byte₁ := cells 1 (by omega)
  have byte₂ := cells 2 (by omega)
  have byte₃ := cells 3 (by omega)
  simp only [wordBytes, List.getElem?_cons_zero, List.getElem?_cons_succ, Option.some.injEq,
    Nat.add_zero] at byte₀ byte₁ byte₂ byte₃
  rw [loadWord, ← byte₀, ← byte₁, ← byte₂, ← byte₃, wordOfBytes_wordBytes]

theorem Holds.loadWord {memory : Memory UInt8} (held : memory.Holds start (wordBytes word)) :
    memory.loadWord start = word :=
  loadWord_of_load held

@[simp]
theorem loadWord_storeWord_self (memory : Memory UInt8) (start : ℕ) (word : UInt32) :
    (memory.storeWord start word).loadWord start = word :=
  loadWord_of_load (load_store_self memory start (wordBytes word))

theorem loadWord_congr (agree : ∀ index < 4, left (start + index) = right (start + index)) :
    left.loadWord start = right.loadWord start := by
  simp only [loadWord, ← agree 1 (by omega), ← agree 2 (by omega), ← agree 3 (by omega)]
  rw [show left start = right start from agree 0 (by omega)]

theorem loadWord_eq_of_load_eq (same : left.load start 4 = right.load start 4) :
    left.loadWord start = right.loadWord start := by
  apply loadWord_congr
  intro index inside
  have cell := load_apply same inside
  rw [getElem?_load, if_pos inside] at cell
  exact (Option.some.inj cell).symm

theorem loadWord_store_of_disjoint (memory : Memory UInt8) {place : ℕ} {cells : List UInt8}
    (disjoint : start + 4 ≤ place ∨ place + cells.length ≤ start) :
    (memory.store place cells).loadWord start = memory.loadWord start := by
  apply loadWord_congr
  intro index inside
  rcases disjoint with before | beyond
  · exact store_apply_of_lt memory cells (by omega)
  · exact store_apply_of_le memory (by omega)

end Memory
end BdkFreertos
