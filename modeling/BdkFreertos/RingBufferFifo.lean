import BdkFreertos.BoundedFifo
import BdkFreertos.RingBuffer
import BdkFreertos.Segment

/-!
# The audio ring buffer is a bounded FIFO

The abstraction of a ring is its segment between the two points.  Every complete call acts on it as
the corresponding request acts on a queue of `capacity - 4` bytes.
-/

namespace BdkFreertos.RingBuffer

def contents (rb : RbSt) : List UInt8 :=
  rb.address.segment rb.capacity.toNat rb.rp.toNat rb.wp.toNat

/-- The points lie in the ring, and the writer is at least the safe interval short of the reader. -/
structure WellFormed (rb : RbSt) : Prop where
  large : 4 < rb.capacity.toNat
  wp_lt : rb.wp.toNat < rb.capacity.toNat
  rp_le : rb.rp.toNat ≤ rb.capacity.toNat
  ahead : rb.rp.toNat ≤ rb.wp.toNat → rb.wp.toNat + 4 ≤ rb.capacity.toNat + rb.rp.toNat
  behind : rb.wp.toNat < rb.rp.toNat → rb.wp.toNat + 4 ≤ rb.rp.toNat

variable {capacity : UInt32} {rb : RbSt} {size : UInt32} {calls : List Call}
  (destination addr : Memory UInt8) (replies : List Reply) (source : Memory UInt8)

theorem wellFormed_init (large : 4 < capacity) : WellFormed (rbInit addr capacity) := by
  have large : 4 < capacity.toNat := by simpa [UInt32.lt_iff_toNat_lt] using large
  constructor <;> simp [rbInit] <;> omega

theorem contents_init (capacity : UInt32) : contents (rbInit addr capacity) = [] := by
  simp [contents, rbInit, Memory.segment]

theorem toNat_fillSize (wellFormed : WellFormed rb) :
    (rbGetFillSize rb).toNat = (contents rb).length := by
  obtain ⟨large, wp_lt, rp_le, ahead, behind⟩ := wellFormed
  have bound := rb.capacity.toNat_lt
  rw [contents, Memory.length_segment, rbGetFillSize]
  simp only [ge_iff_le, UInt32.le_iff_toNat_le]
  split
  · rename_i ordered
    exact UInt32.toNat_sub_of_le _ _ (UInt32.le_iff_toNat_le.mpr ordered)
  · rw [UInt32.toNat_add, UInt32.toNat_sub_of_le _ _ (UInt32.le_iff_toNat_le.mpr rp_le)]
    omega

theorem toNat_freeSize (wellFormed : WellFormed rb) :
    (rbGetFreeSize rb).toNat =
      if rb.rp.toNat ≤ rb.wp.toNat then rb.capacity.toNat - rb.wp.toNat + rb.rp.toNat - 4
      else rb.rp.toNat - rb.wp.toNat - 4 := by
  obtain ⟨large, wp_lt, rp_le, ahead, behind⟩ := wellFormed
  have bound := rb.capacity.toNat_lt
  have interval : rwpSafeInterval.toNat = 4 := rfl
  by_cases ordered : rb.rp.toNat ≤ rb.wp.toNat
  · have distance : (rb.capacity - rb.wp + rb.rp).toNat =
        rb.capacity.toNat - rb.wp.toNat + rb.rp.toNat := by
      rw [UInt32.toNat_add, UInt32.toNat_sub]
      omega
    have point : rb.wp ≥ rb.rp := UInt32.le_iff_toNat_le.mpr ordered
    simp only [rbGetFreeSize, if_pos point, if_pos ordered, gt_iff_lt, UInt32.lt_iff_toNat_lt]
    split <;> simp only [UInt32.toNat_sub, UInt32.toNat_zero] <;> omega
  · have distance : (rb.rp - rb.wp).toNat = rb.rp.toNat - rb.wp.toNat := by
      rw [UInt32.toNat_sub]
      omega
    have point : ¬rb.wp ≥ rb.rp := fun inside => ordered (UInt32.le_iff_toNat_le.mp inside)
    simp only [rbGetFreeSize, if_neg point, if_neg ordered, gt_iff_lt, UInt32.lt_iff_toNat_lt]
    split <;> simp only [UInt32.toNat_sub, UInt32.toNat_zero] <;> omega

theorem length_contents_add_free (wellFormed : WellFormed rb) :
    (contents rb).length + (rbGetFreeSize rb).toNat = rb.capacity.toNat - 4 := by
  rw [toNat_freeSize wellFormed, contents, Memory.length_segment]
  obtain ⟨large, wp_lt, rp_le, ahead, behind⟩ := wellFormed
  split <;> omega

/-! ## Reading -/

theorem load_rbMemcpy (place start count : UInt32) :
    (rbMemcpy destination place source start count).load place.toNat count.toNat =
      source.load start.toNat count.toNat := by
  have stored := destination.load_store_self place.toNat (source.load start.toNat count.toNat)
  rwa [Memory.length_load] at stored

theorem load_rbMemcpy_rbMemcpy (start first second : UInt32) :
    (rbMemcpy (rbMemcpy destination 0 source start first) first source 0 second).load 0
        (first.toNat + second.toNat) =
      source.load start.toNat first.toNat ++ source.load 0 second.toNat := by
  rw [Memory.load_add, Nat.zero_add, load_rbMemcpy, UInt32.toNat_zero]
  congr 1
  rw [rbMemcpy, Memory.load_store_of_disjoint _ (Or.inl (by omega))]
  exact load_rbMemcpy destination source 0 start first

/-- What `rb_read` can do with a ring. -/
inductive ReadMove (rb : RbSt) (buffer : Memory UInt8) (required : UInt32) :
    RbSt × Memory UInt8 × UInt32 → Prop
  | nothing (nothing_asked : required = 0) : ReadMove rb buffer required (rb, buffer, 0)
  | run (step : UInt32)
      (available : rb.rp.toNat + step.toNat ≤ rb.wp.toNat ∨
        rb.wp.toNat < rb.rp.toNat ∧ rb.rp.toNat + step.toNat ≤ rb.capacity.toNat)
      (complete : step.toNat = required.toNat ∨
        step.toNat ≤ required.toNat ∧ rb.rp.toNat + step.toNat = rb.wp.toNat) :
      ReadMove rb buffer required
        ({ rb with rp := rb.rp + step }, rbMemcpy buffer 0 rb.address rb.rp step, step)
  /-- The rest of the ring is copied and a run from its start. -/
  | around (step returned : UInt32) (behind : rb.wp.toNat < rb.rp.toNat)
      (crosses : rb.capacity.toNat - rb.rp.toNat < required.toNat)
      (available : step.toNat ≤ rb.wp.toNat)
      (returned_eq : returned.toNat = rb.capacity.toNat - rb.rp.toNat + step.toNat)
      (complete : returned.toNat = required.toNat ∨
        returned.toNat ≤ required.toNat ∧ step = rb.wp) :
      ReadMove rb buffer required
        ({ rb with rp := step },
          rbMemcpy (rbMemcpy buffer 0 rb.address rb.rp (rb.capacity - rb.rp))
            (rb.capacity - rb.rp) rb.address 0 step, returned)

theorem rbRead_moves (rp_le : rb.rp.toNat ≤ rb.capacity.toNat) (buffer : Memory UInt8)
    (size count : UInt32) : ReadMove rb buffer (size * count) (rbRead rb buffer size count) := by
  have bound := rb.capacity.toNat_lt
  simp only [rbRead]
  generalize size * count = required
  split
  · rename_i nothing_asked
    exact .nothing nothing_asked
  · split
    · rename_i point
      have ordered := UInt32.le_iff_toNat_le.mp point
      have remain := UInt32.toNat_sub_of_le _ _ point
      split
      · rename_i short
        have short := UInt32.lt_iff_toNat_lt.mp short
        exact .run _ (Or.inl (by omega)) (Or.inr (by omega))
      · rename_i enough
        have enough := UInt32.not_lt.mp enough
        rw [UInt32.le_iff_toNat_le] at enough
        exact .run _ (Or.inl (by omega)) (Or.inl rfl)
    · rename_i point
      have behind := UInt32.lt_iff_toNat_lt.mp (UInt32.not_le.mp point)
      have remain := UInt32.toNat_sub_of_le _ _ (UInt32.le_iff_toNat_le.mpr rp_le)
      split
      · rename_i crosses
        have crosses := UInt32.lt_iff_toNat_lt.mp crosses
        have rest : (required - (rb.capacity - rb.rp)).toNat =
            required.toNat - (rb.capacity.toNat - rb.rp.toNat) := by
          rw [UInt32.toNat_sub, remain]
          have := required.toNat_lt
          omega
        split
        · rename_i short
          have short := UInt32.lt_iff_toNat_lt.mp short
          have returned_eq : (rb.capacity - rb.rp + rb.wp).toNat =
              rb.capacity.toNat - rb.rp.toNat + rb.wp.toNat := by
            rw [UInt32.toNat_add, remain]
            omega
          exact .around _ _ behind (by omega) (Nat.le_refl _) returned_eq
            (Or.inr ⟨by omega, rfl⟩)
        · rename_i enough
          have enough := UInt32.le_iff_toNat_le.mp (UInt32.not_lt.mp enough)
          exact .around _ _ behind (by omega) enough (by omega) (Or.inl rfl)
      · rename_i enough
        have enough := UInt32.le_iff_toNat_le.mp (UInt32.not_lt.mp enough)
        exact .run _ (Or.inr ⟨behind, by omega⟩) (Or.inl rfl)

namespace ReadMove

variable {rb : RbSt} {buffer : Memory UInt8} {required : UInt32}
  {result : RbSt × Memory UInt8 × UInt32}

section

variable (move : ReadMove rb buffer required result)
include move

theorem frame :
    result.1.address = rb.address ∧ result.1.capacity = rb.capacity ∧ result.1.wp = rb.wp := by
  cases move <;> exact ⟨rfl, rfl, rfl⟩

/-- The read point moves forward up to the write point or the end of the ring, or around the end up
to the write point. -/
theorem rp_cases (rp_le : rb.rp.toNat ≤ rb.capacity.toNat) :
    (rb.rp.toNat ≤ result.1.rp.toNat ∧ (result.1.rp.toNat ≤ rb.wp.toNat ∨
        rb.wp.toNat < rb.rp.toNat ∧ result.1.rp.toNat ≤ rb.capacity.toNat)) ∨
      rb.wp.toNat < rb.rp.toNat ∧ result.1.rp.toNat ≤ rb.wp.toNat ∧
        rb.capacity.toNat - rb.rp.toNat < required.toNat := by
  cases move with
  | nothing nothing_asked =>
      dsimp only
      omega
  | run step available complete =>
      have wp_bound := rb.wp.toNat_lt
      have capacity_bound := rb.capacity.toNat_lt
      have moved : (rb.rp + step).toNat = rb.rp.toNat + step.toNat := by
        rw [UInt32.toNat_add]
        omega
      simp only [moved]
      omega
  | around step returned behind crosses available returned_eq complete =>
      exact Or.inr ⟨behind, available, crosses⟩

theorem split (rp_le : rb.rp.toNat ≤ rb.capacity.toNat) :
    contents rb = result.2.1.load 0 result.2.2.toNat ++ contents result.1 := by
  cases move with
  | nothing nothing_asked => simp
  | run step available complete =>
      have wp_bound := rb.wp.toNat_lt
      have capacity_bound := rb.capacity.toNat_lt
      have moved : (rb.rp + step).toNat = rb.rp.toNat + step.toNat := by
        rw [UInt32.toNat_add]
        omega
      have delivered := load_rbMemcpy buffer rb.address 0 rb.rp step
      rw [UInt32.toNat_zero] at delivered
      simp only [contents, moved, delivered]
      exact (Memory.segment_advance rb.address available).symm
  | around step returned behind crosses available returned_eq complete =>
      have remain : (rb.capacity - rb.rp).toNat = rb.capacity.toNat - rb.rp.toNat :=
        UInt32.toNat_sub_of_le _ _ (UInt32.le_iff_toNat_le.mpr rp_le)
      have delivered := load_rbMemcpy_rbMemcpy buffer rb.address rb.rp (rb.capacity - rb.rp) step
      simp only [contents, returned_eq, ← remain, delivered]
      rw [remain]
      exact (Memory.segment_advance_around rb.address behind available).symm

end

theorem complete (move : ReadMove rb buffer required result) :
    result.2.2.toNat = required.toNat ∨
      result.2.2.toNat ≤ required.toNat ∧ contents result.1 = [] := by
  cases move with
  | nothing nothing_asked => exact Or.inl (by rw [nothing_asked])
  | run step available complete =>
      rcases complete with exact_count | ⟨short, reaches⟩
      · exact Or.inl exact_count
      · have wp_bound := rb.wp.toNat_lt
        have moved : (rb.rp + step).toNat = rb.wp.toNat := by
          rw [UInt32.toNat_add]
          omega
        exact Or.inr ⟨short, by simp [contents, moved, Memory.segment]⟩
  | around step returned behind crosses available returned_eq complete =>
      rcases complete with exact_count | ⟨short, rfl⟩
      · exact Or.inl exact_count
      · exact Or.inr ⟨short, by simp [contents, Memory.segment]⟩

end ReadMove

/-- The effect of a read of `count` bytes on a ring. -/
structure Reads (rb : RbSt) (count : ℕ) (result : RbSt × Memory UInt8 × UInt32) : Prop where
  wellFormed : WellFormed result.1
  capacity : result.1.capacity = rb.capacity
  split : contents rb = result.2.1.load 0 result.2.2.toNat ++ contents result.1
  complete : result.2.2.toNat = count ∨ result.2.2.toNat ≤ count ∧ contents result.1 = []

namespace Reads

variable {rb : RbSt} {count : ℕ} {result : RbSt × Memory UInt8 × UInt32}

section

variable (reads : Reads rb count result)
include reads

theorem taken : result.2.1.load 0 result.2.2.toNat = (contents rb).take count := by
  rw [reads.split]
  rcases reads.complete with exact_count | ⟨short, nothing⟩
  · rw [List.take_left' (by simpa using exact_count)]
  · rw [nothing, List.append_nil, List.take_of_length_le (by simpa using short)]

theorem left : contents result.1 = (contents rb).drop count := by
  rw [reads.split]
  rcases reads.complete with exact_count | ⟨short, nothing⟩
  · rw [List.drop_left' (by simpa using exact_count)]
  · rw [nothing, List.append_nil, List.drop_of_length_le (by simpa using short)]

theorem returned : result.2.2.toNat = min count (contents rb).length := by
  simpa using congrArg List.length reads.taken

end

end Reads

theorem rbRead_reads (wellFormed : WellFormed rb) (buffer : Memory UInt8) (size count : UInt32) :
    Reads rb (size * count).toNat (rbRead rb buffer size count) := by
  have move := rbRead_moves wellFormed.rp_le buffer size count
  obtain ⟨-, capacity, wp_eq⟩ := move.frame
  refine ⟨?_, capacity, move.split wellFormed.rp_le, move.complete⟩
  have point := move.rp_cases wellFormed.rp_le
  obtain ⟨large, wp_lt, rp_le, ahead, behind⟩ := wellFormed
  refine ⟨?_, ?_, ?_, ?_, ?_⟩ <;> simp [capacity, wp_eq]
  · exact large
  · exact wp_lt
  · omega
  · omega
  · omega

/-! ## Writing -/

/-- The effect of a write of `block` on a ring. -/
structure Writes (rb : RbSt) (block : List UInt8) (after : RbSt) : Prop where
  wellFormed : WellFormed after
  capacity : after.capacity = rb.capacity
  appended : contents after = contents rb ++ block

/-- A write point at the end of the ring is brought back without losing a byte: the safe interval
keeps the read point off zero there. -/
theorem writes_wrapWp {after : RbSt} {block : List UInt8} (large : 4 < after.capacity.toNat)
    (wp_le : after.wp.toNat ≤ after.capacity.toNat) (rp_le : after.rp.toNat ≤ after.capacity.toNat)
    (ahead : after.rp.toNat ≤ after.wp.toNat →
      after.wp.toNat + 4 ≤ after.capacity.toNat + after.rp.toNat)
    (behind : after.wp.toNat < after.rp.toNat → after.wp.toNat + 4 ≤ after.rp.toNat)
    (capacity : after.capacity = rb.capacity) (appended : contents after = contents rb ++ block) :
    Writes rb block (wrapWp after) := by
  have zero : (0 : UInt32).toNat = 0 := rfl
  rw [wrapWp]
  split
  · rename_i wraps
    have at_end : after.wp.toNat = after.capacity.toNat :=
      Nat.le_antisymm wp_le (UInt32.le_iff_toNat_le.mp wraps.1)
    refine ⟨⟨large, ?_, rp_le, ?_, ?_⟩, capacity, ?_⟩
    · simp only [zero]
      omega
    · simp only [zero]
      omega
    · simp only [zero]
      omega
    · rw [← appended]
      simp only [contents, zero, at_end]
      exact Memory.segment_wrap after.address (by omega) rp_le
  · rename_i stays
    have inside : after.wp.toNat < after.capacity.toNat := by
      by_contra reaches
      apply stays
      refine ⟨UInt32.le_iff_toNat_le.mpr (Nat.not_lt.mp reaches), ?_⟩
      intro rp_zero
      rw [rp_zero, zero] at ahead
      omega
    exact ⟨⟨large, inside, rp_le, ahead, behind⟩, capacity, appended⟩

section

variable (wellFormed : WellFormed rb)
include wellFormed

/-- Storing one run at the write point and moving the point past it. -/
theorem writes_run (buffer : Memory UInt8) (bytes : UInt32)
    (inside : rb.wp.toNat + bytes.toNat ≤ rb.capacity.toNat) (room : rb.rp.toNat ≤ rb.wp.toNat ∧
        rb.wp.toNat + bytes.toNat + 4 ≤ rb.capacity.toNat + rb.rp.toNat ∨
      rb.wp.toNat + bytes.toNat + 4 ≤ rb.rp.toNat) :
    Writes rb (buffer.load 0 bytes.toNat)
      (wrapWp
        { rb with
          address := rbMemcpy rb.address rb.wp buffer 0 bytes
          wp := rb.wp + bytes }) := by
  have bound := rb.capacity.toNat_lt
  have rp_le := wellFormed.rp_le
  have moved : (rb.wp + bytes).toNat = rb.wp.toNat + bytes.toNat := by
    rw [UInt32.toNat_add]
    omega
  apply writes_wrapWp
  · exact wellFormed.large
  · simp only [moved]
    omega
  · exact rp_le
  · simp only [moved]
    omega
  · simp only [moved]
    omega
  · rfl
  · have apart : rb.rp.toNat ≤ rb.wp.toNat ∨
        rb.wp.toNat + (buffer.load 0 bytes.toNat).length < rb.rp.toNat := by
      rw [Memory.length_load]
      omega
    have stored := Memory.segment_store rb.address rb.capacity.toNat _ apart
    rw [Memory.length_load] at stored
    simp only [contents, moved]
    exact stored

theorem writes_around (buffer : Memory UInt8) (bytes : UInt32) (ordered : rb.rp.toNat ≤ rb.wp.toNat)
    (room : rb.wp.toNat + bytes.toNat + 4 ≤ rb.capacity.toNat + rb.rp.toNat)
    (crosses : rb.capacity.toNat < rb.wp.toNat + bytes.toNat) :
    Writes rb (buffer.load 0 bytes.toNat)
      (wrapWp
        { rb with
          address :=
            rbMemcpy (rbMemcpy rb.address rb.wp buffer 0 (rb.capacity - rb.wp)) 0 buffer
              (rb.capacity - rb.wp) (bytes - (rb.capacity - rb.wp))
          wp := bytes - (rb.capacity - rb.wp) }) := by
  have bound := rb.capacity.toNat_lt
  have wp_lt := wellFormed.wp_lt
  have rp_le := wellFormed.rp_le
  have remain : (rb.capacity - rb.wp).toNat = rb.capacity.toNat - rb.wp.toNat :=
    UInt32.toNat_sub_of_le _ _ (UInt32.le_iff_toNat_le.mpr (Nat.le_of_lt wp_lt))
  have moved : (bytes - (rb.capacity - rb.wp)).toNat =
      bytes.toNat - (rb.capacity.toNat - rb.wp.toNat) := by
    rw [UInt32.toNat_sub, remain]
    have := bytes.toNat_lt
    omega
  apply writes_wrapWp
  · exact wellFormed.large
  · simp only [moved]
    omega
  · exact rp_le
  · simp only [moved]
    omega
  · simp only [moved]
    omega
  · rfl
  · have stored := Memory.segment_store_around rb.address
      (buffer.load 0 (rb.capacity.toNat - rb.wp.toNat))
      (buffer.load (rb.capacity.toNat - rb.wp.toNat)
        (bytes.toNat - (rb.capacity.toNat - rb.wp.toNat)))
      ordered (Nat.le_of_lt wp_lt) (Memory.length_load _ _ _)
      (by rw [Memory.length_load]; omega)
    have whole := buffer.load_add 0 (rb.capacity.toNat - rb.wp.toNat)
      (bytes.toNat - (rb.capacity.toNat - rb.wp.toNat))
    rw [Nat.zero_add, show rb.capacity.toNat - rb.wp.toNat +
      (bytes.toNat - (rb.capacity.toNat - rb.wp.toNat)) = bytes.toNat by omega] at whole
    rw [← whole, Memory.length_load] at stored
    simp only [contents, rbMemcpy, moved, remain]
    exact stored

theorem room_around_iff {bytes : UInt32} (representable : bytes.toNat + 4 < 2 ^ 32)
    (point : rb.wp ≥ rb.rp) :
    rb.capacity - rb.wp + rb.rp ≥ bytes + rwpSafeInterval ↔
      bytes.toNat ≤ (rbGetFreeSize rb).toNat := by
  have ordered := UInt32.le_iff_toNat_le.mp point
  have bound := rb.capacity.toNat_lt
  obtain ⟨large, wp_lt, rp_le, ahead, behind⟩ := wellFormed
  have interval : rwpSafeInterval.toNat = 4 := rfl
  have needed : (bytes + rwpSafeInterval).toNat = bytes.toNat + 4 := by
    rw [UInt32.toNat_add, interval]
    omega
  have distance : (rb.capacity - rb.wp + rb.rp).toNat =
      rb.capacity.toNat - rb.wp.toNat + rb.rp.toNat := by
    rw [UInt32.toNat_add, UInt32.toNat_sub]
    omega
  rw [toNat_freeSize ⟨large, wp_lt, rp_le, ahead, behind⟩, if_pos ordered, ge_iff_le,
    UInt32.le_iff_toNat_le]
  omega

theorem room_between_iff {bytes : UInt32} (representable : bytes.toNat + 4 < 2 ^ 32)
    (point : ¬rb.wp ≥ rb.rp) :
    rb.rp - rb.wp ≥ bytes + rwpSafeInterval ↔ bytes.toNat ≤ (rbGetFreeSize rb).toNat := by
  have trailing := UInt32.lt_iff_toNat_lt.mp (UInt32.not_le.mp point)
  have bound := rb.capacity.toNat_lt
  obtain ⟨large, wp_lt, rp_le, ahead, behind⟩ := wellFormed
  have interval : rwpSafeInterval.toNat = 4 := rfl
  have needed : (bytes + rwpSafeInterval).toNat = bytes.toNat + 4 := by
    rw [UInt32.toNat_add, interval]
    omega
  have distance : (rb.rp - rb.wp).toNat = rb.rp.toNat - rb.wp.toNat := by
    rw [UInt32.toNat_sub]
    omega
  rw [toNat_freeSize ⟨large, wp_lt, rp_le, ahead, behind⟩, if_neg (Nat.not_le.mpr trailing),
    ge_iff_le, UInt32.le_iff_toNat_le]
  omega

section

variable {count : UInt32} (buffer : Memory UInt8)
  (representable : (size * count).toNat + 4 < 2 ^ 32)
include buffer representable

/-- `rb_write` appends every byte, exactly when there are some and they fit. -/
theorem rbWrite_writes (positive : 0 < (size * count).toNat)
    (fits : (size * count).toNat ≤ (rbGetFreeSize rb).toNat) :
    Writes rb (buffer.load 0 (size * count).toNat) (rbWrite rb buffer size count).1 ∧
      (rbWrite rb buffer size count).2 = size * count := by
  have bound := rb.capacity.toNat_lt
  have wp_lt := wellFormed.wp_lt
  have rp_le := wellFormed.rp_le
  have free := toNat_freeSize wellFormed
  simp only [rbWrite]
  generalize size * count = bytes at *
  have some_bytes : ¬bytes = 0 := by
    rintro rfl
    exact absurd positive (by decide)
  rw [if_neg some_bytes]
  split
  · rename_i point
    have ordered := UInt32.le_iff_toNat_le.mp point
    rw [if_pos ordered] at free
    have remain : (rb.capacity - rb.wp).toNat = rb.capacity.toNat - rb.wp.toNat :=
      UInt32.toNat_sub_of_le _ _ (UInt32.le_iff_toNat_le.mpr (Nat.le_of_lt wp_lt))
    rw [if_pos ((room_around_iff wellFormed representable point).mpr fits)]
    split
    · rename_i straight
      have straight := UInt32.le_iff_toNat_le.mp straight
      exact ⟨writes_run wellFormed buffer bytes (by omega) (Or.inl (by omega)), rfl⟩
    · rename_i crosses
      have crosses := UInt32.lt_iff_toNat_lt.mp (UInt32.not_le.mp crosses)
      exact ⟨writes_around wellFormed buffer bytes ordered (by omega) (by omega), rfl⟩
  · rename_i point
    have behind := UInt32.lt_iff_toNat_lt.mp (UInt32.not_le.mp point)
    rw [if_neg (Nat.not_le.mpr behind)] at free
    rw [if_pos ((room_between_iff wellFormed representable point).mpr fits)]
    exact ⟨writes_run wellFormed buffer bytes (by omega) (Or.inr (by omega)), rfl⟩

theorem rbWrite_refuses
    (refused : ¬(0 < (size * count).toNat ∧ (size * count).toNat ≤ (rbGetFreeSize rb).toNat)) :
    rbWrite rb buffer size count = (rb, 0) := by
  simp only [rbWrite]
  generalize size * count = bytes at *
  by_cases nothing : bytes = 0
  · rw [if_pos nothing]
  · have positive : 0 < bytes.toNat := by
      rw [Nat.pos_iff_ne_zero]
      exact fun zero => nothing (UInt32.toNat_inj.mp zero)
    rw [not_and] at refused
    rw [if_neg nothing]
    split
    · rename_i point
      rw [if_neg ((room_around_iff wellFormed representable point).not.mpr (refused positive))]
    · rename_i point
      rw [if_neg ((room_between_iff wellFormed representable point).not.mpr (refused positive))]

end

end

/-! ## Refinement -/

/-- The queue request made by a call. -/
def command : Call → BoundedFifo.Command UInt8
  | .read buffer size count => .poll (Call.read buffer size count).bytes
  | .write buffer size count => .offer (buffer.load 0 (Call.write buffer size count).bytes)

/-- The queue answer shown by a reply. -/
def answer : Reply → BoundedFifo.Answer UInt8
  | .read _ delivered => .taken delivered
  | .wrote _ accepted => .accepted accepted

/-- A well-formed ring stands for the queue of its unread bytes. -/
structure Represents {limit : ℕ} (rb : RbSt) (queue : BoundedFifo UInt8 limit) : Prop where
  wellFormed : WellFormed rb
  capacity : rb.capacity.toNat - 4 = limit
  items : contents rb = queue.items

theorem toNat_mul_of_representable {count : UInt32}
    (representable : size.toNat * count.toNat + 4 < 2 ^ 32) :
    (size * count).toNat = size.toNat * count.toNat := by
  rw [UInt32.toNat_mul]
  exact Nat.mod_eq_of_lt (by omega)

/-- Every complete call is matched by one request to the queue. -/
theorem ringBuffer_step_matched {limit : ℕ} {queue : BoundedFifo UInt8 limit} (call : Call)
    (represents : Represents rb queue) (representable : call.Representable) :
    Represents (ringBuffer.step rb call).1
        ((BoundedFifo.machine UInt8 limit).step queue (command call)).1 ∧
      answer (ringBuffer.step rb call).2 =
        ((BoundedFifo.machine UInt8 limit).step queue (command call)).2 := by
  obtain ⟨wellFormed, capacity, items⟩ := represents
  cases call with
  | read buffer size count =>
      have product := toNat_mul_of_representable representable
      have reads := rbRead_reads wellFormed buffer size count
      rw [product] at reads
      refine ⟨⟨reads.wellFormed, ?_, ?_⟩, ?_⟩
      · exact (congrArg (fun word : UInt32 => word.toNat - 4) reads.capacity).trans capacity
      · exact reads.left.trans (congrArg (List.drop _) items)
      · exact congrArg BoundedFifo.Answer.taken (reads.taken.trans (congrArg (List.take _) items))
  | write buffer size count =>
      have product := toNat_mul_of_representable representable
      have room_eq : queue.room = (rbGetFreeSize rb).toNat := by
        have total := length_contents_add_free wellFormed
        rw [BoundedFifo.room, ← items]
        omega
      have width : (size * count).toNat + 4 < 2 ^ 32 := by
        rw [product]
        exact representable
      simp only [ringBuffer, command, BoundedFifo.machine, BoundedFifo.offer, Call.bytes,
        Memory.length_load, room_eq, ← product]
      by_cases accepted : 0 < (size * count).toNat ∧
          (size * count).toNat ≤ (rbGetFreeSize rb).toNat
      · obtain ⟨⟨kept, same, appended⟩, returned⟩ :=
          rbWrite_writes wellFormed buffer width accepted.1 accepted.2
        rw [dif_pos accepted.2, returned]
        refine ⟨⟨kept, by rw [same, capacity], ?_⟩, rfl⟩
        rw [appended, items]
      · rw [rbWrite_refuses wellFormed buffer width accepted]
        by_cases empty : (size * count).toNat = 0
        · rw [dif_pos (by omega)]
          refine ⟨⟨wellFormed, capacity, ?_⟩, ?_⟩
          · simp [items, empty]
          · simp [answer, empty]
        · rw [dif_neg (by omega)]
          exact ⟨⟨wellFormed, capacity, items⟩, rfl⟩

theorem represents_init (large : 4 < capacity) :
    Represents (rbInit addr capacity)
      (BoundedFifo.empty : BoundedFifo UInt8 (capacity.toNat - 4)) :=
  ⟨wellFormed_init addr large, rfl, contents_init addr capacity⟩

theorem acceptedItems_answer :
    BoundedFifo.acceptedItems (replies.map answer) = acceptedBytes replies := by
  induction replies with
  | nil => rfl
  | cons reply replies induction =>
      cases reply <;> simp [answer, BoundedFifo.acceptedItems, acceptedBytes, induction]

theorem takenItems_answer :
    BoundedFifo.takenItems (replies.map answer) = deliveredBytes replies := by
  induction replies with
  | nil => rfl
  | cons reply replies induction =>
      cases reply <;> simp [answer, BoundedFifo.takenItems, deliveredBytes, induction]

section

variable (large : 4 < capacity) (representable : ∀ call ∈ calls, call.Representable)
include large representable

theorem wellFormed_run :
    WellFormed (ringBuffer.run (rbInit addr capacity) calls) ∧
      (ringBuffer.run (rbInit addr capacity) calls).capacity.toNat - 4 = capacity.toNat - 4 := by
  obtain ⟨represents, -⟩ := ringBuffer.run_simulation
    (BoundedFifo.machine UInt8 (capacity.toNat - 4)) Call.Representable Represents command answer
    ringBuffer_step_matched (represents_init addr large) representable
  exact ⟨represents.wellFormed, represents.capacity⟩

theorem accepted_eq_delivered_append :
    acceptedBytes (ringBuffer.outputs (rbInit addr capacity) calls) =
      deliveredBytes (ringBuffer.outputs (rbInit addr capacity) calls) ++
        contents (ringBuffer.run (rbInit addr capacity) calls) := by
  obtain ⟨represents, answers⟩ := ringBuffer.run_simulation
    (BoundedFifo.machine UInt8 (capacity.toNat - 4)) Call.Representable Represents command answer
    ringBuffer_step_matched (represents_init addr large) representable
  rw [← acceptedItems_answer, ← takenItems_answer, answers, represents.items]
  exact BoundedFifo.run_balance BoundedFifo.empty (calls.map command)

end

/-- From `rb_init` on a ring of more than four bytes, whatever complete calls have been made: the
points and sizes stay in range, a write stores everything or nothing, a read returns what there is,
and the bytes accepted so far are those delivered followed by the unread ones. -/
theorem ring_buffer_refines_fifo (addr : Memory UInt8) (capacity : UInt32) (calls : List Call)
    (large : 4 < capacity) (representable : ∀ call ∈ calls, call.Representable) :
    let rb := ringBuffer.run (rbInit addr capacity) calls
    let replies := ringBuffer.outputs (rbInit addr capacity) calls
    let fill := (rbGetFillSize rb).toNat
    let free := (rbGetFreeSize rb).toNat
    (rb.wp < capacity ∧ rb.rp ≤ capacity ∧ fill ≤ capacity.toNat - 4 ∧
        fill + free = capacity.toNat - 4) ∧
      (∀ buffer size count, (Call.write buffer size count).Representable →
        let n := size.toNat * count.toNat
        (0 < n ∧ n ≤ free →
          (rbWrite rb buffer size count).2.toNat = n ∧
            contents (rbWrite rb buffer size count).1 = contents rb ++ buffer.load 0 n) ∧
        (¬(0 < n ∧ n ≤ free) → rbWrite rb buffer size count = (rb, 0))) ∧
      (∀ buffer size count, (Call.read buffer size count).Representable →
        let n := size.toNat * count.toNat
        (rbRead rb buffer size count).2.2.toNat = min n fill ∧
          (rbRead rb buffer size count).2.1.load 0 (min n fill) = (contents rb).take n) ∧
      acceptedBytes replies = deliveredBytes replies ++ contents rb ∧
      (contents rb).length = fill := by
  intro rb replies fill free
  obtain ⟨wellFormed, capacity_sub⟩ := wellFormed_run addr large representable
  have four_lt : 4 < capacity.toNat := UInt32.lt_iff_toNat_lt.mp large
  have capacity_eq : rb.capacity.toNat = capacity.toNat := by
    have := wellFormed.large
    simp only [rb]
    omega
  have fill_eq : fill = (contents rb).length := toNat_fillSize wellFormed
  have total : fill + free = capacity.toNat - 4 := by
    rw [fill_eq, ← capacity_eq]
    exact length_contents_add_free wellFormed
  refine ⟨⟨?_, ?_, by omega, total⟩, ?_, ?_, ?_, fill_eq.symm⟩
  · rw [UInt32.lt_iff_toNat_lt, ← capacity_eq]
    exact wellFormed.wp_lt
  · rw [UInt32.le_iff_toNat_le, ← capacity_eq]
    exact wellFormed.rp_le
  · intro buffer size count width n
    have product : (size * count).toNat = n := toNat_mul_of_representable width
    have width : (size * count).toNat + 4 < 2 ^ 32 := by
      rw [product]
      exact width
    constructor
    · rintro ⟨positive, fits⟩
      rw [← product] at positive fits ⊢
      obtain ⟨writes, returned⟩ := rbWrite_writes wellFormed buffer width positive fits
      exact ⟨by rw [returned], writes.appended⟩
    · intro refused
      rw [← product] at refused
      exact rbWrite_refuses wellFormed buffer width refused
  · intro buffer size count width n
    have product : (size * count).toNat = n := toNat_mul_of_representable width
    have reads := rbRead_reads wellFormed buffer size count
    rw [product] at reads
    have returned : (rbRead rb buffer size count).2.2.toNat = min n fill := by
      rw [fill_eq]
      exact reads.returned
    refine ⟨returned, ?_⟩
    rw [← returned]
    exact reads.taken
  · exact accepted_eq_delivered_append addr large representable

/-- A ring of eight bytes whose last write goes around the end. -/
theorem ring_buffer_refines_fifo_eight :
    let calls : List Call :=
      [.write (fun index => UInt8.ofNat index) 1 4, .read (fun _ => 0) 1 3,
        .write (fun index => UInt8.ofNat (index + 4)) 3 1, .read (fun _ => 0) 2 2,
        .write (fun index => UInt8.ofNat (index + 7)) 1 3]
    acceptedBytes (ringBuffer.outputs (rbInit (fun _ => 0) 8) calls) =
        deliveredBytes (ringBuffer.outputs (rbInit (fun _ => 0) 8) calls) ++
          contents (ringBuffer.run (rbInit (fun _ => 0) 8) calls) ∧
      deliveredBytes (ringBuffer.outputs (rbInit (fun _ => 0) 8) calls) = [0, 1, 2, 3, 4, 5, 6] ∧
      (ringBuffer.run (rbInit (fun _ => 0) 8) calls).wp = 2 := by
  intro calls
  have representable : ∀ call ∈ calls, call.Representable := by
    simp [calls, Call.Representable, Call.bytes, rwpSafeInterval]
  have refines := ring_buffer_refines_fifo (fun _ => 0) 8 calls (by decide) representable
  exact ⟨refines.2.2.2.1, by decide, by decide⟩

end BdkFreertos.RingBuffer
