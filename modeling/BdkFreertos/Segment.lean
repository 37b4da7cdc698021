import BdkFreertos.Memory

/-!
# Segments of a ring

The cells of a ring between a read index and a write index form one run, or two when the write
index lies behind the read index.  Appending at the write index and consuming at the read index
act on the segment as on a list.
-/

namespace BdkFreertos.Memory

variable {Cell : Type*}

/-- The cells from the read index up to the write index, going around the ring once at most. -/
def segment (memory : Memory Cell) (capacity read write : ℕ) : List Cell :=
  if read ≤ write then
    memory.load read (write - read)
  else
    memory.load read (capacity - read) ++ memory.load 0 write

variable {capacity read write count : ℕ} (memory : Memory Cell)

theorem segment_of_le (ordered : read ≤ write) :
    memory.segment capacity read write = memory.load read (write - read) :=
  if_pos ordered

theorem segment_of_lt (behind : write < read) :
    memory.segment capacity read write =
      memory.load read (capacity - read) ++ memory.load 0 write :=
  if_neg (Nat.not_le.mpr behind)

theorem length_segment (capacity read write : ℕ) :
    (memory.segment capacity read write).length =
      if read ≤ write then write - read else capacity - read + write := by
  rw [segment]
  split <;> simp

theorem segment_wrap (positive : 0 < read) (bounded : read ≤ capacity) :
    memory.segment capacity read 0 = memory.segment capacity read capacity := by
  rw [segment_of_lt memory positive, segment_of_le memory bounded]
  simp

theorem segment_store_beyond (capacity : ℕ) {cells : List Cell}
    (room : read ≤ write ∨ write + cells.length ≤ read) :
    (memory.store write cells).segment capacity read write =
      memory.segment capacity read write := by
  rcases Nat.lt_or_ge write read with behind | ordered
  · rw [segment_of_lt _ behind, segment_of_lt _ behind,
      load_store_of_disjoint memory (Or.inr (by omega)),
      load_store_of_disjoint memory (Or.inl (by omega))]
  · rw [segment_of_le _ ordered, segment_of_le _ ordered,
      load_store_of_disjoint memory (Or.inl (by omega))]

theorem segment_extend (capacity : ℕ) (room : read ≤ write ∨ write + count < read) :
    memory.segment capacity read (write + count) =
      memory.segment capacity read write ++ memory.load write count := by
  rcases room with ordered | behind
  · rw [segment_of_le _ (by omega), segment_of_le _ ordered,
      show write + count - read = write - read + count by omega, load_add,
      Nat.add_sub_cancel' ordered]
  · rw [segment_of_lt _ behind, segment_of_lt _ (by omega), load_add, Nat.zero_add,
      List.append_assoc]

theorem segment_extend_around {back : ℕ} (ordered : read ≤ write) (bounded : write ≤ capacity)
    (room : back < read) :
    memory.segment capacity read back =
      memory.segment capacity read write ++
        (memory.load write (capacity - write) ++ memory.load 0 back) := by
  have front := memory.load_add read (write - read) (capacity - write)
  rw [show write - read + (capacity - write) = capacity - read by omega,
    Nat.add_sub_cancel' ordered] at front
  rw [segment_of_lt _ room, segment_of_le _ ordered, front, List.append_assoc]

theorem segment_store (capacity : ℕ) (cells : List Cell)
    (room : read ≤ write ∨ write + cells.length < read) :
    (memory.store write cells).segment capacity read (write + cells.length) =
      memory.segment capacity read write ++ cells := by
  rw [segment_extend _ capacity room, load_store_self,
    segment_store_beyond memory capacity (room.imp_right Nat.le_of_lt)]

theorem segment_store_around (front back : List Cell) (ordered : read ≤ write)
    (bounded : write ≤ capacity) (reaches : front.length = capacity - write)
    (room : back.length < read) :
    ((memory.store write front).store 0 back).segment capacity read back.length =
      memory.segment capacity read write ++ (front ++ back) := by
  rw [segment_extend_around _ ordered bounded room, load_store_self,
    load_store_of_disjoint _ (Or.inr (by omega)), ← reaches, load_store_self]
  rw [segment_of_le _ ordered, segment_of_le _ ordered,
    load_store_of_disjoint _ (Or.inr (by omega)), load_store_of_disjoint _ (Or.inl (by omega))]

theorem segment_advance (memory : Memory Cell) {capacity read write count : ℕ}
    (available : read + count ≤ write ∨ write < read ∧ read + count ≤ capacity) :
    memory.load read count ++ memory.segment capacity (read + count) write =
      memory.segment capacity read write := by
  rcases available with ordered | ⟨behind, bounded⟩
  · rw [segment_of_le _ ordered, segment_of_le _ (by omega),
      show write - read = count + (write - (read + count)) by omega, load_add]
  · rw [segment_of_lt _ behind, segment_of_lt _ (by omega),
      show capacity - read = count + (capacity - (read + count)) by omega, load_add,
      List.append_assoc]

/-- Advancing the read index across the end consumes the run up to the end and one from the
start. -/
theorem segment_advance_around (behind : write < read) (available : count ≤ write) :
    (memory.load read (capacity - read) ++ memory.load 0 count) ++
        memory.segment capacity count write =
      memory.segment capacity read write := by
  rw [segment_of_le _ available, segment_of_lt _ behind, List.append_assoc]
  congr 1
  have split := load_add memory 0 count (write - count)
  rw [Nat.add_sub_cancel' available, Nat.zero_add] at split
  exact split.symm

/-! ## One cell at a time -/

/-- The index after an index, back to zero at the end of the ring. -/
def next (capacity index : ℕ) : ℕ :=
  if index + 1 ≥ capacity then 0 else index + 1

theorem next_lt (positive : 0 < capacity) (index : ℕ) : next capacity index < capacity := by
  rw [next]
  split <;> omega

theorem next_eq_iff_length (read_lt : read < capacity) (write_lt : write < capacity)
    (several : 1 < capacity) :
    next capacity write = read ↔ (memory.segment capacity read write).length + 1 = capacity := by
  rw [length_segment, next]
  split <;> split <;> omega

theorem segment_push (cell : Cell) (read_lt : read < capacity) (write_lt : write < capacity)
    (apart : next capacity write ≠ read) :
    (memory.store write [cell]).segment capacity read (next capacity write) =
      memory.segment capacity read write ++ [cell] := by
  rw [next] at apart ⊢
  split at apart <;> rename_i last
  · obtain rfl : capacity = write + 1 := by omega
    rw [if_pos last, segment_wrap _ (by omega) (by omega)]
    exact memory.segment_store _ [cell] (Or.inl (by omega))
  · rw [if_neg last]
    exact memory.segment_store _ [cell] (by simp only [List.length_singleton]; omega)

theorem segment_pop (read_lt : read < capacity) (write_lt : write < capacity)
    (several : read ≠ write) :
    memory read :: memory.segment capacity (next capacity read) write =
      memory.segment capacity read write := by
  have front := @segment_advance _ memory capacity read write 1 (by omega)
  rw [next]
  split
  · obtain rfl : capacity = read + 1 := by omega
    rw [← front, segment_of_lt memory write_lt, segment_of_le memory (Nat.zero_le write)]
    simp [load]
  · rw [← front]
    simp [load]

end BdkFreertos.Memory
