import Mathlib.Data.List.Nodup

/-!
# Allocation with an account of every handle

An arena hands out one handle for each allocation and remembers which ones were freed.  Reading or
freeing a handle that is not live is recorded as a fault.  `Owned` is the ownership discipline: each
handle ever allocated occurs exactly once among those somebody owns and those already freed, and no
fault has happened.
-/

namespace BdkFreertos

/-- Allocated values, by handle, with the history of frees and faults. -/
structure Arena (Value : Type*) where
  allocated : List Value
  freed : List ℕ
  /-- Handles that were read or freed while not live. -/
  faults : List ℕ

namespace Arena

variable {Value : Type*} {arena : Arena Value} {owners : List ℕ} {handle : ℕ}

def empty : Arena Value := ⟨[], [], []⟩

def Live (arena : Arena Value) (handle : ℕ) : Prop :=
  handle < arena.allocated.length ∧ handle ∉ arena.freed

instance (arena : Arena Value) (handle : ℕ) : Decidable (arena.Live handle) :=
  inferInstanceAs (Decidable (_ ∧ _))

def alloc (arena : Arena Value) (value : Value) : Arena Value × ℕ :=
  ({ arena with allocated := arena.allocated ++ [value] }, arena.allocated.length)

/-- Read the value of a handle. -/
def read (arena : Arena Value) (handle : ℕ) : Arena Value × Option Value :=
  if arena.Live handle then
    (arena, arena.allocated[handle]?)
  else
    ({ arena with faults := arena.faults ++ [handle] }, none)

/-- Free a handle. -/
def free (arena : Arena Value) (handle : ℕ) : Arena Value where
  allocated := arena.allocated
  freed := arena.freed ++ [handle]
  faults := if arena.Live handle then arena.faults else arena.faults ++ [handle]

theorem getElem?_of_read {value : Value} (found : (arena.read handle).2 = some value) :
    arena.allocated[handle]? = some value := by
  rw [read] at found
  split at found
  · exact found
  · contradiction

theorem mem_of_read {value : Value} (found : (arena.read handle).2 = some value) :
    value ∈ arena.allocated := List.mem_of_getElem? (getElem?_of_read found)

/-- Each handle ever allocated is owned or freed, exactly once in all. -/
structure Owned (arena : Arena Value) (owners : List ℕ) : Prop where
  once : ∀ handle, owners.count handle + arena.freed.count handle =
    if handle < arena.allocated.length then 1 else 0
  sound : arena.faults = []

theorem owned_empty : (empty : Arena Value).Owned [] :=
  ⟨fun handle => by simp [empty], rfl⟩

namespace Owned

section

variable (owned : arena.Owned owners)
include owned

theorem congr {other : List ℕ} (same : ∀ handle, other.count handle = owners.count handle) :
    arena.Owned other := by
  refine ⟨?_, owned.sound⟩
  intro handle
  rw [same handle]
  exact owned.once handle

theorem live (member : handle ∈ owners) : arena.Live handle := by
  have account := owned.once handle
  have positive := List.count_pos_iff.mpr member
  split at account
  · refine ⟨‹_›, ?_⟩
    rw [← List.count_eq_zero]
    omega
  · omega

theorem mem_of_live (live : arena.Live handle) : handle ∈ owners := by
  have account := owned.once handle
  rw [if_pos live.1, List.count_eq_zero.mpr live.2] at account
  exact List.count_pos_iff.mp (by omega)

theorem nodup : owners.Nodup := by
  rw [List.nodup_iff_count_le_one]
  intro handle
  have account := owned.once handle
  split at account
  all_goals omega

theorem read_eq (member : handle ∈ owners) : ∃ value, arena.read handle = (arena, some value) := by
  have live := owned.live member
  refine ⟨arena.allocated.get ⟨handle, live.1⟩, ?_⟩
  rw [read, if_pos live, List.getElem?_eq_getElem live.1]
  rfl

theorem alloc (value : Value) : (arena.alloc value).1.Owned ((arena.alloc value).2 :: owners) := by
  refine ⟨?_, owned.sound⟩
  intro handle
  have account := owned.once handle
  simp only [Arena.alloc, List.length_append, List.length_singleton, List.count_cons, beq_iff_eq]
  by_cases fresh : arena.allocated.length = handle
  · subst fresh
    simp only [Nat.lt_irrefl, if_false] at account
    simp only [if_true, Nat.lt_succ_self]
    omega
  · simp only [fresh, if_false]
    split at account
    · rw [if_pos (by omega)]
      omega
    · rw [if_neg (by omega)]
      omega

end

theorem free (owned : arena.Owned (handle :: owners)) : (arena.free handle).Owned owners := by
  have live := owned.live List.mem_cons_self
  constructor
  · intro other
    have account := owned.once other
    refine Eq.trans ?_ account
    simp only [Arena.free, List.count_append, List.count_cons, List.count_nil]
    omega
  · rw [Arena.free, if_pos live]
    exact owned.sound

end Owned
end Arena
end BdkFreertos
