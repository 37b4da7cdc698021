import BdkFreertos.BoundedFifo
import BdkFreertos.Circular

/-!
# The kernel FIFO

`kfifo` keeps two free-running 32-bit counters over a buffer whose size is a power of two.  The
counters wrap at `2 ^ 32`, their remainders modulo the size at the end of the buffer; the bytes
between the two counters are a queue of at most `size` bytes all the same.
-/

namespace BdkFreertos.Kfifo

/-- The record `KFIFO_T`. -/
structure KfifoT where
  /-- Bytes ever put, modulo `2 ^ 32`. -/
  inCount : UInt32
  /-- Bytes ever taken, modulo `2 ^ 32`. -/
  outCount : UInt32
  /-- The size less one. -/
  mask : UInt32
  size : UInt32
  buffer : Memory UInt8

/-- Copy `count` bytes between two buffers, each from its own offset on. -/
def osMemcpy (destination : Memory UInt8) (place : UInt32) (source : Memory UInt8)
    (start count : UInt32) : Memory UInt8 :=
  destination.store place.toNat (source.load start.toNat count.toNat)

/-- Attach an empty FIFO to a buffer, when the record could be allocated.  A size that fails the
assertion leaves the caller in an endless loop. -/
def kfifoInit (allocated : Bool) (buffer : Memory UInt8) (size : UInt32) : Option KfifoT :=
  if size &&& (size - 1) ≠ 0 then
    none
  else if allocated then
    some { inCount := 0, outCount := 0, mask := size - 1, size := size, buffer := buffer }
  else
    none

/-- Copy at most `len` bytes into the FIFO, as many as there is room for; the result carries the
FIFO and the number of bytes copied. -/
def kfifoPut (fifo : KfifoT) (buffer : Memory UInt8) (len : UInt32) : KfifoT × UInt32 :=
  let len := min len (fifo.size - fifo.inCount + fifo.outCount)
  let l := min len (fifo.size - (fifo.inCount &&& (fifo.size - 1)))
  let front := osMemcpy fifo.buffer (fifo.inCount &&& (fifo.size - 1)) buffer 0 l
  ({ fifo with
     buffer := osMemcpy front 0 buffer l (len - l)
     inCount := fifo.inCount + len }, len)

/-- Copy at most `len` bytes out of the FIFO, as many as there are; the result carries the FIFO, the
caller's buffer and the number of bytes copied. -/
def kfifoGet (fifo : KfifoT) (buffer : Memory UInt8) (len : UInt32) :
    KfifoT × Memory UInt8 × UInt32 :=
  let len := min len (fifo.inCount - fifo.outCount)
  let l := min len (fifo.size - (fifo.outCount &&& (fifo.size - 1)))
  let front := osMemcpy buffer 0 fifo.buffer (fifo.outCount &&& (fifo.size - 1)) l
  ({ fifo with outCount := fifo.outCount + len }, osMemcpy front l fifo.buffer 0 (len - l), len)

def kfifoDataSize (fifo : KfifoT) : UInt32 :=
  fifo.inCount - fifo.outCount

def kfifoUnused (fifo : KfifoT) : UInt32 :=
  fifo.mask + 1 - (fifo.inCount - fifo.outCount)

/-- Copy `len` bytes from an offset of the FIFO on to a caller's buffer. -/
def kfifoCopyOut (fifo : KfifoT) (dst : Memory UInt8) (len off : UInt32) : Memory UInt8 :=
  let size := fifo.mask + 1
  let off := off &&& fifo.mask
  let l := min len (size - off)
  osMemcpy (osMemcpy dst 0 fifo.buffer off l) l fifo.buffer 0 (len - l)

/-- Copy at most `len` bytes out of the FIFO and leave them there; the result carries the caller's
buffer and the number of bytes copied. -/
def kfifoOutPeek (fifo : KfifoT) (buffer : Memory UInt8) (len : UInt32) : Memory UInt8 × UInt32 :=
  let l := fifo.inCount - fifo.outCount
  let len := if len > l then l else len
  (kfifoCopyOut fifo buffer len fifo.outCount, len)

/-- One call on a FIFO. -/
inductive Call
  /-- `kfifo_put` from a caller's buffer. -/
  | put (buffer : Memory UInt8) (len : UInt32)
  /-- `kfifo_get` into a caller's buffer. -/
  | get (buffer : Memory UInt8) (len : UInt32)
  /-- `kfifo_out_peek` into a caller's buffer. -/
  | outPeek (buffer : Memory UInt8) (len : UInt32)

/-- What the caller observes: the returned count, as the bytes moved. -/
inductive Reply
  /-- The bytes `kfifo_put` took from the caller's buffer. -/
  | put (accepted : List UInt8)
  /-- The bytes `kfifo_get` left in the caller's buffer. -/
  | got (delivered : List UInt8)
  /-- The bytes `kfifo_out_peek` left in the caller's buffer. -/
  | peeked (shown : List UInt8)

/-- The FIFO driven by its calls. -/
def kfifo : Machine KfifoT Call Reply where
  step fifo
    | .put buffer len =>
        let (after, count) := kfifoPut fifo buffer len
        (after, .put (buffer.load 0 count.toNat))
    | .get buffer len =>
        let (after, delivered, count) := kfifoGet fifo buffer len
        (after, .got (delivered.load 0 count.toNat))
    | .outPeek buffer len =>
        let (shown, count) := kfifoOutPeek fifo buffer len
        (fifo, .peeked (shown.load 0 count.toNat))

/-- The bytes of a run's replies that entered the FIFO, in order. -/
def acceptedBytes : List Reply → List UInt8
  | [] => []
  | .put accepted :: replies => accepted ++ acceptedBytes replies
  | _ :: replies => acceptedBytes replies

/-- The bytes of a run's replies that left the FIFO, in order. -/
def deliveredBytes : List Reply → List UInt8
  | [] => []
  | .got delivered :: replies => delivered ++ deliveredBytes replies
  | _ :: replies => deliveredBytes replies

/-! ## The queue between the counters -/

/-- The bytes between the two counters, oldest first. -/
def contents (fifo : KfifoT) : List UInt8 :=
  fifo.buffer.loadAround fifo.size.toNat fifo.outCount.toNat
    (fifo.inCount - fifo.outCount).toNat

/-- The size is the power of two the FIFO was made with, and the counters are no further apart. -/
structure WellFormed (exponent : ℕ) (fifo : KfifoT) : Prop where
  power : fifo.size.toNat = 2 ^ exponent
  mask : fifo.mask = fifo.size - 1
  bounded : (fifo.inCount - fifo.outCount).toNat ≤ fifo.size.toNat

section Arithmetic

variable {size : UInt32} {exponent : ℕ}

theorem size_dvd (power : size.toNat = 2 ^ exponent) : size.toNat ∣ 2 ^ 32 := by
  have bound := size.toNat_lt
  rw [power] at bound ⊢
  exact Nat.pow_dvd_pow 2 (Nat.le_of_lt ((Nat.pow_lt_pow_iff_right (by omega)).mp bound))

section

variable (power : size.toNat = 2 ^ exponent) (count : UInt32)
include power count

theorem toNat_and_mask : (count &&& (size - 1)).toNat = count.toNat % size.toNat := by
  have positive : 0 < size.toNat := by
    rw [power]
    exact Nat.two_pow_pos exponent
  have less_one : (size - 1).toNat = size.toNat - 1 :=
    UInt32.toNat_sub_of_le _ _ (UInt32.le_iff_toNat_le.mpr positive)
  rw [UInt32.toNat_and, less_one, power, Nat.and_two_pow_sub_one_eq_mod]

theorem toNat_add_mod (step : UInt32) :
    (count + step).toNat % size.toNat = (count.toNat + step.toNat) % size.toNat := by
  rw [UInt32.toNat_add, Nat.mod_mod_of_dvd _ (size_dvd power)]

theorem toNat_front (len : UInt32) :
    (min len (size - (count &&& (size - 1)))).toNat =
      min len.toNat (size.toNat - count.toNat % size.toNat) := by
  have positive : 0 < size.toNat := by
    rw [power]
    exact Nat.two_pow_pos exponent
  have inside := Nat.mod_lt count.toNat positive
  have offset := toNat_and_mask power count
  have rest : (size - (count &&& (size - 1))).toNat =
      size.toNat - count.toNat % size.toNat := by
    rw [UInt32.toNat_sub_of_le _ _ (UInt32.le_iff_toNat_le.mpr (by omega)), offset]
  rw [UInt32.toNat_min, rest]

theorem toNat_rest (len : UInt32) :
    (len - min len (size - (count &&& (size - 1)))).toNat =
      len.toNat - min len.toNat (size.toNat - count.toNat % size.toNat) := by
  have front := toNat_front power count len
  rw [UInt32.toNat_sub_of_le _ _ (UInt32.le_iff_toNat_le.mpr (by omega)), front]

end

end Arithmetic

section Operations

variable {exponent : ℕ} {fifo : KfifoT}

theorem wellFormed_init {allocated : Bool} {buffer : Memory UInt8} {size : UInt32}
    (power : size.toNat = 2 ^ exponent) (made : kfifoInit allocated buffer size = some fifo) :
    WellFormed exponent fifo ∧ fifo.size = size ∧ contents fifo = [] := by
  rw [kfifoInit] at made
  split at made
  · cases made
  · split at made
    · obtain rfl := Option.some.inj made
      exact ⟨⟨power, rfl, by simp⟩, rfl, by simp [contents]⟩
    · cases made

theorem length_contents : (contents fifo).length = (kfifoDataSize fifo).toNat :=
  Memory.length_loadAround _ _ _ _

section

variable (wellFormed : WellFormed exponent fifo)
include wellFormed

theorem toNat_kfifoUnused :
    (kfifoUnused fifo).toNat = fifo.size.toNat - (kfifoDataSize fifo).toNat := by
  have whole : fifo.size - 1 + 1 = fifo.size := UInt32.sub_add_cancel _ _
  rw [kfifoUnused, wellFormed.mask, whole]
  exact UInt32.toNat_sub_of_le _ _ (UInt32.le_iff_toNat_le.mpr wellFormed.bounded)

theorem room_eq_kfifoUnused : fifo.size - fifo.inCount + fifo.outCount = kfifoUnused fifo := by
  rw [kfifoUnused, wellFormed.mask]
  grind

theorem inCount_mod :
    fifo.inCount.toNat % fifo.size.toNat =
      (fifo.outCount.toNat + (kfifoDataSize fifo).toNat) % fifo.size.toNat := by
  have position : fifo.inCount = fifo.outCount + kfifoDataSize fifo := by
    rw [kfifoDataSize]
    grind
  nth_rewrite 1 [position]
  exact toNat_add_mod wellFormed.power fifo.outCount (kfifoDataSize fifo)

theorem dataSize_put {len : UInt32} (fits : len.toNat ≤ (kfifoUnused fifo).toNat) :
    (fifo.inCount + len - fifo.outCount).toNat = (kfifoDataSize fifo).toNat + len.toNat := by
  have room := toNat_kfifoUnused wellFormed
  have bound := fifo.size.toNat_lt
  have bounded : (kfifoDataSize fifo).toNat ≤ fifo.size.toNat := wellFormed.bounded
  have apart : fifo.inCount + len - fifo.outCount = kfifoDataSize fifo + len := by
    rw [kfifoDataSize]
    grind
  rw [apart, toNat_add_of_lt (by omega)]

end

theorem dataSize_get {len : UInt32} (available : len ≤ kfifoDataSize fifo) :
    (fifo.inCount - (fifo.outCount + len)).toNat = (kfifoDataSize fifo).toNat - len.toNat := by
  have apart : fifo.inCount - (fifo.outCount + len) = kfifoDataSize fifo - len := by
    rw [kfifoDataSize]
    grind
  rw [apart, UInt32.toNat_sub_of_le _ _ available]

section

variable (wellFormed : WellFormed exponent fifo) (buffer : Memory UInt8) (len : UInt32)
include wellFormed buffer len

theorem kfifoPut_eq :
    kfifoPut fifo buffer len =
      ({ fifo with
         buffer := fifo.buffer.storeAround fifo.size.toNat fifo.inCount.toNat
           (buffer.load 0 (min len (kfifoUnused fifo)).toNat)
         inCount := fifo.inCount + min len (kfifoUnused fifo) }, min len (kfifoUnused fifo)) := by
  simp only [kfifoPut, osMemcpy, room_eq_kfifoUnused wellFormed, UInt32.toNat_zero,
    toNat_and_mask wellFormed.power, toNat_front wellFormed.power, toNat_rest wellFormed.power]
  rw [Memory.store_store_storeAround]

theorem kfifoGet_eq :
    kfifoGet fifo buffer len =
      ({ fifo with outCount := fifo.outCount + min len (kfifoDataSize fifo) },
        buffer.store 0 (fifo.buffer.loadAround fifo.size.toNat fifo.outCount.toNat
          (min len (kfifoDataSize fifo)).toNat),
        min len (kfifoDataSize fifo)) := by
  have bounded : (min len (kfifoDataSize fifo)).toNat ≤ fifo.size.toNat := by
    rw [UInt32.toNat_min]
    exact Nat.le_trans (Nat.min_le_right _ _) wellFormed.bounded
  rw [← Memory.store_store_loadAround buffer fifo.buffer bounded]
  simp [kfifoGet, osMemcpy, toNat_and_mask wellFormed.power, toNat_front wellFormed.power,
    toNat_rest wellFormed.power, kfifoDataSize]

theorem kfifoOutPeek_eq : kfifoOutPeek fifo buffer len = (kfifoGet fifo buffer len).2 := by
  have whole : fifo.size - 1 + 1 = fifo.size := UInt32.sub_add_cancel _ _
  have count : (if len > fifo.inCount - fifo.outCount then fifo.inCount - fifo.outCount else len) =
      min len (fifo.inCount - fifo.outCount) := by
    have spelled : min len (fifo.inCount - fifo.outCount) =
        if len ≤ fifo.inCount - fifo.outCount then len else fifo.inCount - fifo.outCount := rfl
    rw [spelled]
    split
    · rename_i more
      rw [if_neg (UInt32.not_le.mpr more)]
    · rename_i enough
      rw [if_pos (UInt32.not_lt.mp enough)]
  simp [kfifoOutPeek, kfifoCopyOut, kfifoGet, wellFormed.mask, whole, count]

/-- A put appends as much as there is room for. -/
theorem kfifoPut_puts :
    WellFormed exponent (kfifoPut fifo buffer len).1 ∧
      (kfifoPut fifo buffer len).1.size = fifo.size ∧
      (kfifoPut fifo buffer len).2.toNat = min len.toNat (kfifoUnused fifo).toNat ∧
      contents (kfifoPut fifo buffer len).1 =
        contents fifo ++ buffer.load 0 (min len.toNat (kfifoUnused fifo).toNat) := by
  have count : (min len (kfifoUnused fifo)).toNat = min len.toNat (kfifoUnused fifo).toNat :=
    UInt32.toNat_min _ _
  have fits : (min len (kfifoUnused fifo)).toNat ≤ (kfifoUnused fifo).toNat := by omega
  have apart := dataSize_put wellFormed fits
  have room := toNat_kfifoUnused wellFormed
  have bounded : (kfifoDataSize fifo).toNat ≤ fifo.size.toNat := wellFormed.bounded
  rw [kfifoPut_eq wellFormed]
  refine ⟨⟨wellFormed.power, wellFormed.mask, ?_⟩, rfl, count, ?_⟩
  · simp only [apart]
    omega
  · simp only [contents, apart]
    rw [← count, fifo.buffer.storeAround_congr (inCount_mod wellFormed)]
    have length := buffer.length_load 0 (min len (kfifoUnused fifo)).toNat
    have appended := @Memory.loadAround_storeAround _ fifo.buffer fifo.size.toNat
      fifo.outCount.toNat (kfifoDataSize fifo).toNat
      (buffer.load 0 (min len (kfifoUnused fifo)).toNat) (by omega)
    rw [length] at appended
    exact appended

/-- A get takes as much as there is, from the front. -/
theorem kfifoGet_gets :
    WellFormed exponent (kfifoGet fifo buffer len).1 ∧
      (kfifoGet fifo buffer len).1.size = fifo.size ∧
      (kfifoGet fifo buffer len).2.2.toNat = min len.toNat (kfifoDataSize fifo).toNat ∧
      (kfifoGet fifo buffer len).2.1 = buffer.store 0 ((contents fifo).take len.toNat) ∧
      contents (kfifoGet fifo buffer len).1 = (contents fifo).drop len.toNat := by
  have count : (min len (kfifoDataSize fifo)).toNat =
      min len.toNat (kfifoDataSize fifo).toNat := UInt32.toNat_min _ _
  have available : min len (kfifoDataSize fifo) ≤ kfifoDataSize fifo := by
    rw [UInt32.le_iff_toNat_le]
    omega
  have apart := dataSize_get available
  have bounded : (kfifoDataSize fifo).toNat ≤ fifo.size.toNat := wellFormed.bounded
  have cut : min len.toNat (kfifoDataSize fifo).toNat = min len.toNat (contents fifo).length := by
    rw [length_contents]
  rw [kfifoGet_eq wellFormed]
  refine ⟨⟨wellFormed.power, wellFormed.mask, ?_⟩, rfl, count, ?_, ?_⟩
  · simp only [apart]
    omega
  · have front : (contents fifo).take len.toNat =
        (contents fifo).take (min len (kfifoDataSize fifo)).toNat := by
      rw [count, cut, ← List.take_eq_take_min]
    rw [front, contents, Memory.take_loadAround]
    exact UInt32.le_iff_toNat_le.mp available
  · have back : (contents fifo).drop len.toNat =
        (contents fifo).drop (min len (kfifoDataSize fifo)).toNat := by
      rw [count, cut, ← List.drop_eq_drop_min]
    rw [back]
    simp only [contents, apart]
    rw [fifo.buffer.loadAround_congr (toNat_add_mod wellFormed.power _ _)]
    exact (Memory.drop_loadAround fifo.buffer (UInt32.le_iff_toNat_le.mp available)).symm

end

end Operations

/-! ## Runs -/

/-- A FIFO represents the queue of its contents. -/
structure Represents (exponent : ℕ) {limit : ℕ} (fifo : KfifoT)
    (queue : BoundedFifo UInt8 limit) : Prop where
  wellFormed : WellFormed exponent fifo
  limit_eq : fifo.size.toNat = limit
  items : queue.items = contents fifo

/-- The request a call makes of the queue. -/
def request : Call → BoundedFifo.Request UInt8
  | .put buffer len => .fill (buffer.load 0 len.toNat)
  | .get _ len => .poll len.toNat
  | .outPeek _ len => .peek len.toNat

/-- The response a reply stands for. -/
def response : Reply → BoundedFifo.Response UInt8
  | .put accepted => .filled accepted
  | .got delivered => .taken delivered
  | .peeked shown => .seen shown

theorem filledItems_response (replies : List Reply) :
    BoundedFifo.filledItems (replies.map response) = acceptedBytes replies := by
  induction replies with
  | nil => rfl
  | cons reply replies induction =>
      cases reply <;> simp [response, BoundedFifo.filledItems, acceptedBytes, induction]

theorem polledItems_response (replies : List Reply) :
    BoundedFifo.polledItems (replies.map response) = deliveredBytes replies := by
  induction replies with
  | nil => rfl
  | cons reply replies induction =>
      cases reply <;> simp [response, BoundedFifo.polledItems, deliveredBytes, induction]

theorem load_kfifoGet {exponent : ℕ} {fifo : KfifoT} (wellFormed : WellFormed exponent fifo)
    (buffer : Memory UInt8) (len : UInt32) :
    (kfifoGet fifo buffer len).2.1.load 0 (kfifoGet fifo buffer len).2.2.toNat =
      (contents fifo).take len.toNat := by
  obtain ⟨-, -, count, delivered, -⟩ := kfifoGet_gets wellFormed buffer len
  have length : (kfifoGet fifo buffer len).2.2.toNat =
      ((contents fifo).take len.toNat).length := by
    rw [List.length_take, length_contents, count]
  rw [delivered, length, Memory.load_store_self]

theorem kfifo_step_matched {exponent limit : ℕ} {fifo : KfifoT} {queue : BoundedFifo UInt8 limit}
    (call : Call) (represents : Represents exponent fifo queue) :
    Represents exponent (kfifo.step fifo call).1
        ((BoundedFifo.stream UInt8 limit).step queue (request call)).1 ∧
      response (kfifo.step fifo call).2 =
        ((BoundedFifo.stream UInt8 limit).step queue (request call)).2 := by
  obtain ⟨wellFormed, limit_eq, items⟩ := represents
  cases call with
  | put buffer len =>
      obtain ⟨after, size_eq, count, appended⟩ := kfifoPut_puts wellFormed buffer len
      have room : queue.room = (kfifoUnused fifo).toNat := by
        rw [BoundedFifo.room, items, length_contents, toNat_kfifoUnused wellFormed, limit_eq]
      have block : (buffer.load 0 len.toNat).take queue.room =
          buffer.load 0 (min len.toNat (kfifoUnused fifo).toNat) := by
        rw [room, List.take_eq_take_min, Memory.length_load,
          Memory.take_load buffer (Nat.min_le_right _ _), Nat.min_comm]
      refine ⟨⟨after, ?_, ?_⟩, ?_⟩
      · exact (congrArg UInt32.toNat size_eq).trans limit_eq
      · exact (congrArg₂ List.append items block).trans appended.symm
      · exact congrArg BoundedFifo.Response.filled ((congrArg (buffer.load 0) count).trans block.symm)
  | get buffer len =>
      obtain ⟨after, size_eq, -, -, left⟩ := kfifoGet_gets wellFormed buffer len
      refine ⟨⟨after, ?_, ?_⟩, ?_⟩
      · exact (congrArg UInt32.toNat size_eq).trans limit_eq
      · exact (congrArg (List.drop len.toNat) items).trans left.symm
      · exact congrArg BoundedFifo.Response.taken
          ((load_kfifoGet wellFormed buffer len).trans (congrArg (List.take len.toNat) items).symm)
  | outPeek buffer len =>
      have shown := load_kfifoGet wellFormed buffer len
      rw [← kfifoOutPeek_eq wellFormed] at shown
      exact ⟨⟨wellFormed, limit_eq, items⟩, congrArg BoundedFifo.Response.seen
        (shown.trans (congrArg (List.take len.toNat) items).symm)⟩

/-- From `kfifo_init` on a power of two, whatever calls have been made and however often the
counters have wrapped: they are at most the size apart, the data and the room add up to the size, a
put stores what there is room for, a get takes what there is in order, a peek shows what the next
get takes, and the bytes put so far are those taken followed by the contents. -/
theorem kfifo_refines_fifo {allocated : Bool} {buffer : Memory UInt8} {size : UInt32}
    {exponent : ℕ} {fifo : KfifoT} (power : size.toNat = 2 ^ exponent)
    (made : kfifoInit allocated buffer size = some fifo) (calls : List Call) :
    let state := kfifo.run fifo calls
    let replies := kfifo.outputs fifo calls
    let data := (kfifoDataSize state).toNat
    let unused := (kfifoUnused state).toNat
    ((state.inCount - state.outCount).toNat ≤ size.toNat ∧ data + unused = size.toNat ∧
        (contents state).length = data) ∧
      (∀ source len,
        (kfifoPut state source len).2.toNat = min len.toNat unused ∧
          contents (kfifoPut state source len).1 =
            contents state ++ source.load 0 (min len.toNat unused)) ∧
      (∀ target len,
        (kfifoGet state target len).2.2.toNat = min len.toNat data ∧
          (kfifoGet state target len).2.1 = target.store 0 ((contents state).take len.toNat) ∧
          contents (kfifoGet state target len).1 = (contents state).drop len.toNat) ∧
      (∀ target len, kfifoOutPeek state target len = (kfifoGet state target len).2 ∧
        (kfifo.step state (.outPeek target len)).1 = state) ∧
      acceptedBytes replies = deliveredBytes replies ++ contents state := by
  intro state replies data unused
  obtain ⟨wellFormed, size_eq, nothing⟩ := wellFormed_init power made
  have initial : Represents exponent fifo (BoundedFifo.empty : BoundedFifo UInt8 size.toNat) :=
    ⟨wellFormed, congrArg UInt32.toNat size_eq, nothing.symm⟩
  have every : ∀ call ∈ calls, (fun _ : Call => True) call := fun _ _ => trivial
  obtain ⟨represents, responses⟩ := kfifo.run_simulation (BoundedFifo.stream UInt8 size.toNat)
    (fun _ => True) (Represents exponent) request response
    (fun call related _ => kfifo_step_matched call related) initial every
  have reached : WellFormed exponent state := represents.wellFormed
  have bounded : data ≤ state.size.toNat := reached.bounded
  have room : unused = state.size.toNat - data := toNat_kfifoUnused reached
  have size_kept : state.size.toNat = size.toNat := represents.limit_eq
  refine ⟨⟨?_, by omega, length_contents⟩, ?_, ?_, ?_, ?_⟩
  · rw [← size_kept]
    exact bounded
  · intro source len
    exact (kfifoPut_puts reached source len).2.2
  · intro target len
    exact (kfifoGet_gets reached target len).2.2
  · intro target len
    exact ⟨kfifoOutPeek_eq reached target len, rfl⟩
  · have balance := BoundedFifo.stream_balance
      (BoundedFifo.empty : BoundedFifo UInt8 size.toNat) (calls.map request)
    rw [← responses, filledItems_response, polledItems_response, represents.items] at balance
    exact balance

/-- A FIFO of four bytes whose second put goes around the end. -/
theorem kfifo_refines_fifo_four :
    let fifo : KfifoT :=
      { inCount := 0, outCount := 0, mask := 3, size := 4, buffer := fun _ => 0 }
    let calls : List Call :=
      [.put (fun index => UInt8.ofNat index) 3, .get (fun _ => 0) 2,
        .put (fun index => UInt8.ofNat (index + 3)) 9, .get (fun _ => 0) 3]
    kfifoInit true (fun _ => 0) 4 = some fifo ∧
      acceptedBytes (kfifo.outputs fifo calls) =
        deliveredBytes (kfifo.outputs fifo calls) ++ contents (kfifo.run fifo calls) ∧
      deliveredBytes (kfifo.outputs fifo calls) = [0, 1, 2, 3, 4] ∧
      acceptedBytes (kfifo.outputs fifo calls) = [0, 1, 2, 3, 4, 5] := by
  intro fifo calls
  have made : kfifoInit true (fun _ => 0) 4 = some fifo := rfl
  have refines := @kfifo_refines_fifo true (fun _ => 0) 4 2 fifo rfl made calls
  exact ⟨made, refines.2.2.2.2, by decide, by decide⟩

end BdkFreertos.Kfifo
