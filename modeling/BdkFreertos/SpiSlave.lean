import BdkFreertos.BoundedFifo
import BdkFreertos.Segment
import Mathlib.Data.BitVec

/-!
# The receive ring of the SPI slave

The reception interrupt writes each byte into a ring and, when the ring is full, moves the reader's
index over the oldest byte.  Readers take one byte at a time, each removal with interrupts disabled,
so bytes may be received between any two removals and several calls may take turns.  The ring
behaves as a queue which keeps the newest 511 bytes.
-/

namespace BdkFreertos.SpiSlave

def spiSlaveRxFifoLen : ℕ := 512

/-- The ring `struct spi_rx_fifo`.  Both indices stay below 512, so their width is immaterial. -/
structure SpiRxFifo where
  buffer : Memory UInt8
  putIndex : ℕ
  getIndex : ℕ
  isFull : Bool

/-- A call of `bk_spi_slave_get_rx_data` in its loop. -/
structure ReadCall where
  len : BitVec 32
  size : BitVec 32
  /-- The bytes stored through `rx_buf` so far. -/
  rxBuf : List UInt8
  deriving DecidableEq

/-- The ring and, for each task, its call that is reading it. -/
structure SlaveState where
  rxFifo : SpiRxFifo
  calls : ℕ → Option ReadCall

/-- The ring after `bk_spi_slave_init`. -/
def bkSpiSlaveInit : SlaveState where
  rxFifo :=
    { buffer := fun _ => 0
      putIndex := 0
      getIndex := 0
      isFull := false }
  calls := fun _ => none

def bkSpiSlaveGetRxFifo (rxFifo : SpiRxFifo) : ℕ :=
  if rxFifo.putIndex ≥ rxFifo.getIndex then
    rxFifo.putIndex - rxFifo.getIndex
  else
    spiSlaveRxFifoLen - (rxFifo.getIndex - rxFifo.putIndex)

/-- An index moved on by one, back to zero at the length of the ring. -/
abbrev advance (index : ℕ) : ℕ := Memory.next spiSlaveRxFifoLen index

/-- One byte in the loop of `bk_spi_slave_spi_rx_callback`, with the byte that is overwritten. -/
def insertByte (rxFifo : SpiRxFifo) (ch : UInt8) : SpiRxFifo × Option UInt8 :=
  let written : SpiRxFifo :=
    { rxFifo with
      buffer := rxFifo.buffer.store rxFifo.putIndex [ch]
      putIndex := advance rxFifo.putIndex }
  if written.putIndex = written.getIndex then
    ({ written with
        getIndex := advance written.getIndex
        isFull := true }, some (rxFifo.buffer rxFifo.getIndex))
  else
    (written, none)

/-- The test and the removal in the loop of `bk_spi_slave_get_rx_data`. -/
def removeByte (rxFifo : SpiRxFifo) : Option (UInt8 × SpiRxFifo) :=
  if rxFifo.getIndex = rxFifo.putIndex ∧ rxFifo.isFull = false then
    none
  else
    some (rxFifo.buffer rxFifo.getIndex,
      { rxFifo with
        getIndex := advance rxFifo.getIndex
        isFull := false })

/-- What happens to the ring. -/
inductive Event
  /-- The reception interrupt takes a byte from the device. -/
  | received (ch : UInt8)
  /-- A task calls `bk_spi_slave_get_rx_data`, with or without a buffer. -/
  | getRxData (task : ℕ) (rxBuf : Bool) (len : BitVec 32)
  /-- The call of a task makes one round of its loop. -/
  | round (task : ℕ)
  /-- A call of `bk_spi_slave_get_rx_fifo`. -/
  | getRxFifo
  deriving DecidableEq

/-- What an event gives. -/
inductive Output
  /-- A byte was stored, over this one. -/
  | stored (overwritten : Option UInt8)
  /-- The call of a task took a byte. -/
  | removed (task : ℕ) (ch : UInt8)
  /-- The call of a task returned with these bytes in its buffer. -/
  | returned (task : ℕ) (rxBuf : List UInt8) (result : BitVec 32)
  /-- The number of bytes that `bk_spi_slave_get_rx_fifo` returned. -/
  | rxLength (length : ℕ)
  | nothing
  deriving DecidableEq

/-- A round of the loop of `bk_spi_slave_get_rx_data`: it ends at the requested length or on an
empty ring. -/
def readRound (state : SlaveState) (task : ℕ) (call : ReadCall) : SlaveState × Output :=
  let ends :=
    ({ state with calls := Function.update state.calls task none },
      Output.returned task call.rxBuf (call.len - call.size))
  if call.size = 0 then
    ends
  else
    match removeByte state.rxFifo with
    | none => ends
    | some (ch, rxFifo) =>
        ({ rxFifo
           calls := Function.update state.calls task (some
            { call with
              size := call.size - 1
              rxBuf := call.rxBuf ++ [ch] }) },
          .removed task ch)

/-- The ring with its writer and its readers.  A task that is in a call makes no other one. -/
def machine : Machine SlaveState Event Output where
  step state
    | .received ch =>
        ({ state with rxFifo := (insertByte state.rxFifo ch).1 },
          .stored (insertByte state.rxFifo ch).2)
    | .getRxData task rxBuf len =>
        match state.calls task with
        | some _ => (state, .nothing)
        | none =>
            if rxBuf then
              ({ state with calls := Function.update state.calls task (some ⟨len, len, []⟩) },
                .nothing)
            else
              (state, .returned task [] 0)
    | .round task =>
        match state.calls task with
        | none => (state, .nothing)
        | some call => readRound state task call
    | .getRxFifo => (state, .rxLength (bkSpiSlaveGetRxFifo state.rxFifo))

/-! ## The ring as a queue -/

def unread (rxFifo : SpiRxFifo) : List UInt8 :=
  rxFifo.buffer.segment spiSlaveRxFifoLen rxFifo.getIndex rxFifo.putIndex

/-- Equal indices mean an empty ring: the flag is never up then. -/
structure Valid (rxFifo : SpiRxFifo) : Prop where
  putIndex_lt : rxFifo.putIndex < spiSlaveRxFifoLen
  getIndex_lt : rxFifo.getIndex < spiSlaveRxFifoLen
  isFull_apart : rxFifo.getIndex = rxFifo.putIndex → rxFifo.isFull = false

theorem valid_init : Valid bkSpiSlaveInit.rxFifo where
  putIndex_lt := by decide
  getIndex_lt := by decide
  isFull_apart _ := rfl

theorem advance_lt (index : ℕ) : advance index < spiSlaveRxFifoLen :=
  Memory.next_lt (by decide) index

theorem advance_ne {index : ℕ} (inside : index < spiSlaveRxFifoLen) : advance index ≠ index := by
  intro same
  rw [advance, Memory.next] at same
  rw [spiSlaveRxFifoLen] at inside same
  split at same <;> omega

namespace Valid

variable {rxFifo : SpiRxFifo}

section

variable (valid : Valid rxFifo)
include valid

theorem rx_fifo_eq : bkSpiSlaveGetRxFifo rxFifo = (unread rxFifo).length := by
  have inside := valid.getIndex_lt
  rw [unread, Memory.length_segment, bkSpiSlaveGetRxFifo]
  split
  · rfl
  · simp only [spiSlaveRxFifoLen] at inside ⊢
    omega

theorem meets_iff : advance rxFifo.putIndex = rxFifo.getIndex ↔ (unread rxFifo).length = 511 := by
  have exact := Memory.next_eq_iff_length rxFifo.buffer valid.getIndex_lt valid.putIndex_lt
    (by decide : 1 < spiSlaveRxFifoLen)
  rw [advance, exact, unread, spiSlaveRxFifoLen]
  omega

theorem unread_le : (unread rxFifo).length ≤ 511 := by
  have put := valid.putIndex_lt
  have get := valid.getIndex_lt
  rw [unread, Memory.length_segment]
  simp only [spiSlaveRxFifoLen] at put get ⊢
  split <;> omega

theorem unread_eq_cons (several : rxFifo.getIndex ≠ rxFifo.putIndex) :
    unread rxFifo =
      rxFifo.buffer rxFifo.getIndex ::
        rxFifo.buffer.segment spiSlaveRxFifoLen (advance rxFifo.getIndex) rxFifo.putIndex :=
  (rxFifo.buffer.segment_pop valid.getIndex_lt valid.putIndex_lt several).symm

theorem unread_nil_iff : unread rxFifo = [] ↔ rxFifo.getIndex = rxFifo.putIndex := by
  constructor
  · intro empty
    by_contra several
    rw [valid.unread_eq_cons several] at empty
    exact List.cons_ne_nil _ _ empty
  · intro equal
    rw [unread, equal, Memory.segment_of_le _ (Nat.le_refl _), Nat.sub_self, Memory.load_zero]

theorem insertByte_of_lt (room : (unread rxFifo).length < 511) (ch : UInt8) :
    unread (insertByte rxFifo ch).1 = unread rxFifo ++ [ch] ∧
      (insertByte rxFifo ch).2 = none := by
  have apart : advance rxFifo.putIndex ≠ rxFifo.getIndex := fun meets =>
    Nat.ne_of_lt room (valid.meets_iff.mp meets)
  rw [insertByte, if_neg apart]
  exact ⟨rxFifo.buffer.segment_push ch valid.getIndex_lt valid.putIndex_lt apart, rfl⟩

theorem insertByte_of_full (full : (unread rxFifo).length = 511) (ch : UInt8) :
    unread (insertByte rxFifo ch).1 = (unread rxFifo).tail ++ [ch] ∧
      (insertByte rxFifo ch).2 = (unread rxFifo).head? := by
  have meets := valid.meets_iff.mpr full
  have several : rxFifo.getIndex ≠ rxFifo.putIndex := by
    rw [← meets]
    exact advance_ne valid.putIndex_lt
  have apart : advance rxFifo.putIndex ≠ advance rxFifo.getIndex := by
    rw [meets]
    exact (advance_ne valid.getIndex_lt).symm
  have pushed := rxFifo.buffer.segment_push ch (advance_lt rxFifo.getIndex)
    valid.putIndex_lt apart
  rw [valid.unread_eq_cons several, insertByte, if_pos meets]
  exact ⟨pushed, rfl⟩

theorem insertByte_eq (ch : UInt8) :
    unread (SpiSlave.insertByte rxFifo ch).1 =
        (if (unread rxFifo).length = 511 then (unread rxFifo).tail else unread rxFifo) ++ [ch] ∧
      (SpiSlave.insertByte rxFifo ch).2 =
        if (unread rxFifo).length = 511 then (unread rxFifo).head? else none := by
  by_cases full : (unread rxFifo).length = 511
  · rw [if_pos full, if_pos full]
    exact valid.insertByte_of_full full ch
  · rw [if_neg full, if_neg full]
    exact valid.insertByte_of_lt (Nat.lt_of_le_of_ne valid.unread_le full) ch

theorem removeByte_eq :
    (removeByte rxFifo).map (fun taken => (taken.1, unread taken.2)) =
      match unread rxFifo with
      | [] => none
      | ch :: rest => some (ch, rest) := by
  by_cases equal : rxFifo.getIndex = rxFifo.putIndex
  · rw [valid.unread_nil_iff.mpr equal, removeByte, if_pos ⟨equal, valid.isFull_apart equal⟩]
    rfl
  · rw [valid.unread_eq_cons equal, removeByte, if_neg (fun empty => equal empty.1)]
    rfl

theorem insertByte (ch : UInt8) : Valid (insertByte rxFifo ch).1 := by
  rw [SpiSlave.insertByte]
  split
  next meets =>
    refine ⟨advance_lt _, advance_lt _, fun equal => ?_⟩
    simp only at meets equal
    rw [meets] at equal
    exact absurd equal (advance_ne valid.getIndex_lt)
  next apart =>
    exact ⟨advance_lt _, valid.getIndex_lt, fun equal => absurd equal.symm apart⟩

theorem removeByte {ch : UInt8} {rest : SpiRxFifo} (taken : removeByte rxFifo = some (ch, rest)) :
    Valid rest := by
  rw [SpiSlave.removeByte] at taken
  split at taken
  · cases taken
  · cases taken
    exact ⟨valid.putIndex_lt, advance_lt _, fun _ => rfl⟩

end

end Valid

/-! ## Runs -/

/-- The bytes that a run's events insert. -/
def receivedBytes : List Event → List UInt8
  | [] => []
  | .received ch :: events => ch :: receivedBytes events
  | _ :: events => receivedBytes events

/-- What leaves the ring at an event: a byte that is read, or one that is overwritten. -/
def Output.leaving : Output → List (UInt8 × Bool)
  | .stored (some overwritten) => [(overwritten, false)]
  | .removed _ ch => [(ch, true)]
  | _ => []

/-- A call has stored as many bytes as its count has been lowered. -/
def ReadCall.Counted (call : ReadCall) : Prop :=
  call.size.toNat + call.rxBuf.length = call.len.toNat

/-- The ring is valid and every call counts its bytes. -/
structure Good (state : SlaveState) : Prop where
  valid : Valid state.rxFifo
  counted : ∀ task call, state.calls task = some call → call.Counted

theorem good_init : Good bkSpiSlaveInit := ⟨valid_init, by simp [bkSpiSlaveInit]⟩

variable {call : ReadCall} {state : SlaveState} {rxFifo : SpiRxFifo} {queue : BoundedFifo UInt8 511}
  (task : ℕ) (events : List Event) (front back : List Output)

theorem ReadCall.Counted.result (counted : call.Counted) :
    (call.len - call.size).toNat = call.rxBuf.length := by
  rw [Counted] at counted
  have len_lt := call.len.isLt
  rw [BitVec.toNat_sub]
  omega

theorem toNat_sub_one {size : BitVec 32} (more : size ≠ 0) :
    (size - 1).toNat + 1 = size.toNat := by
  have positive : size.toNat ≠ 0 := fun zero => more (BitVec.eq_of_toNat_eq zero)
  have size_lt := size.isLt
  rw [BitVec.toNat_sub]
  simp only [BitVec.reduceToNat]
  omega

/-- A call that has taken one more byte. -/
def ReadCall.take (call : ReadCall) (ch : UInt8) : ReadCall :=
  { call with
    size := call.size - 1
    rxBuf := call.rxBuf ++ [ch] }

theorem ReadCall.Counted.take (counted : call.Counted) (more : call.size ≠ 0) (ch : UInt8) :
    (call.take ch).Counted := by
  have one := toNat_sub_one more
  simp only [Counted, ReadCall.take, List.length_append, List.length_singleton] at counted ⊢
  omega

/-- What an event can do: insert a byte, begin a call, end one, take a byte for one, or nothing. -/
inductive Effect (state : SlaveState) : Event → SlaveState × Output → Prop
  | received (ch : UInt8) :
      Effect state (.received ch)
        ({ state with rxFifo := (insertByte state.rxFifo ch).1 },
          .stored (insertByte state.rxFifo ch).2)
  | begun (task : ℕ) (len : BitVec 32) (idle : state.calls task = none) :
      Effect state (.getRxData task true len)
        ({ state with calls := Function.update state.calls task (some ⟨len, len, []⟩) }, .nothing)
  | refused (task : ℕ) (len : BitVec 32) (idle : state.calls task = none) :
      Effect state (.getRxData task false len) (state, .returned task [] 0)
  | ended (task : ℕ) (call : ReadCall) (found : state.calls task = some call)
      (reason : call.size = 0 ∨ unread state.rxFifo = []) :
      Effect state (.round task)
        ({ state with calls := Function.update state.calls task none },
          .returned task call.rxBuf (call.len - call.size))
  | taken (task : ℕ) (call : ReadCall) (ch : UInt8) (rxFifo : SpiRxFifo)
      (found : state.calls task = some call) (more : call.size ≠ 0) (valid : Valid rxFifo)
      (oldest : unread state.rxFifo = ch :: unread rxFifo) :
      Effect state (.round task)
        (⟨rxFifo, Function.update state.calls task (some (call.take ch))⟩, .removed task ch)
  | measured : Effect state .getRxFifo (state, .rxLength (bkSpiSlaveGetRxFifo state.rxFifo))
  | ignored (event : Event) (other : ∀ ch, event ≠ .received ch) :
      Effect state event (state, .nothing)

/-- A round ends the call when it has all it wants or the ring is empty, and else takes the oldest
byte. -/
theorem readRound_effect (valid : Valid state.rxFifo) {task : ℕ}
    (found : state.calls task = some call) :
    Effect state (.round task) (readRound state task call) := by
  have oldest := valid.removeByte_eq
  rw [readRound]
  by_cases done : call.size = 0
  · rw [if_pos done]
    exact .ended task call found (Or.inl done)
  rw [if_neg done]
  cases taken : removeByte state.rxFifo with
  | none =>
      rw [taken] at oldest
      cases bytes : unread state.rxFifo with
      | nil => exact .ended task call found (Or.inr bytes)
      | cons ch rest => simp [bytes] at oldest
  | some result =>
      obtain ⟨ch, rxFifo⟩ := result
      rw [taken] at oldest
      cases bytes : unread state.rxFifo with
      | nil => simp [bytes] at oldest
      | cons first rest =>
          simp only [bytes, Option.map_some, Option.some.injEq, Prod.mk.injEq] at oldest
          obtain ⟨rfl, rfl⟩ := oldest
          exact .taken task call ch rxFifo found done (valid.removeByte taken) bytes

theorem step_effect (valid : Valid state.rxFifo) (event : Event) :
    Effect state event (machine.step state event) := by
  cases event with
  | received ch => exact .received ch
  | getRxData task rxBuf len =>
      simp only [machine]
      split
      · exact .ignored _ (by simp)
      next idle =>
        cases rxBuf with
        | false => exact .refused task len idle
        | true => exact .begun task len idle
  | round task =>
      simp only [machine]
      split
      · exact .ignored _ (by simp)
      next call found => exact readRound_effect valid found
  | getRxFifo => exact .measured

theorem Good.setCall (good : Good state) (valid : Valid rxFifo) (task : ℕ) (call : Option ReadCall)
    (counted : ∀ after, call = some after → after.Counted) :
    Good ⟨rxFifo, Function.update state.calls task call⟩ := by
  refine ⟨valid, fun other after found => ?_⟩
  simp only [Function.update_apply] at found
  split at found
  · exact counted after found
  · exact good.counted other after found

theorem good_step (event : Event) (good : Good state) : Good (machine.step state event).1 := by
  have effect := step_effect good.valid event
  generalize machine.step state event = result at effect ⊢
  cases effect with
  | received ch => exact ⟨good.valid.insertByte ch, good.counted⟩
  | begun task len idle =>
      refine good.setCall good.valid task _ fun after same => ?_
      cases same
      rfl
  | refused => exact good
  | ended task call found reason => exact good.setCall good.valid task _ (by simp)
  | taken task call ch rxFifo found more valid oldest =>
      refine good.setCall valid task _ fun after same => ?_
      cases same
      exact (good.counted task call found).take more ch
  | measured => exact good
  | ignored => exact good

theorem good_run : Good (machine.run bkSpiSlaveInit events) :=
  machine.run_invariant_of_step Good good_init (fun event good => good_step event good) events

/-! ## Refinement of the queue that keeps the newest bytes -/

/-- The queue of 511 bytes with its requests and answers. -/
abbrev newestQueue :
    Machine (BoundedFifo UInt8 511) (BoundedFifo.Demand UInt8) (List (UInt8 × Bool)) :=
  BoundedFifo.newest UInt8 511

/-- Events do to the unread bytes what requests do to the queue: the same bytes arrive, leave and
stay. -/
structure Refines (queue : BoundedFifo UInt8 511) (requests : List (BoundedFifo.Demand UInt8))
    (events : List Event) (outputs : List Output) (final : SlaveState) : Prop where
  arrive : BoundedFifo.arrivals requests = receivedBytes events
  leave : (newestQueue.outputs queue requests).flatten = outputs.flatMap Output.leaving
  stay : (newestQueue.run queue requests).items = unread final.rxFifo

theorem insertByte_refines (valid : Valid rxFifo) (same : queue.items = unread rxFifo)
    (ch : UInt8) :
    (newestQueue.step queue (.arrive ch)).2 = (Output.stored (insertByte rxFifo ch).2).leaving ∧
      (queue.arrive ch).items = unread (insertByte rxFifo ch).1 := by
  rcases Nat.lt_or_ge (unread rxFifo).length 511 with room | full
  · obtain ⟨bytes, overwritten⟩ := valid.insertByte_of_lt room ch
    have fits : queue.items.length < 511 := same ▸ room
    rw [bytes, overwritten, BoundedFifo.arrive_of_lt fits, BoundedFifo.leaving_of_lt fits, same]
    exact ⟨rfl, rfl⟩
  · have all : (unread rxFifo).length = 511 := Nat.le_antisymm valid.unread_le full
    obtain ⟨bytes, overwritten⟩ := valid.insertByte_of_full all ch
    have filled : queue.items.length = 511 := same ▸ all
    cases oldest : unread rxFifo with
    | nil => simp [oldest] at all
    | cons first rest =>
        rw [bytes, overwritten, BoundedFifo.arrive_of_full filled (by decide),
          BoundedFifo.leaving_of_full (same.trans oldest) filled, same, oldest]
        exact ⟨rfl, rfl⟩

theorem step_refines (valid : Valid state.rxFifo) (same : queue.items = unread state.rxFifo)
    (event : Event) :
    ∃ requests, Refines queue requests [event] [(machine.step state event).2]
      (machine.step state event).1 := by
  have effect := step_effect valid event
  generalize machine.step state event = result at effect ⊢
  cases effect with
  | received ch =>
      obtain ⟨leave, stay⟩ := insertByte_refines valid same ch
      exact ⟨[.arrive ch], rfl, by simpa using leave, stay⟩
  | begun | refused | ended | measured => exact ⟨[], rfl, rfl, same⟩
  | taken task call ch rxFifo found more valid oldest =>
      rw [oldest] at same
      refine ⟨[.remove], rfl, ?_, ?_⟩ <;>
        simp [BoundedFifo.newest, BoundedFifo.poll, Output.leaving, same]
  | ignored event other =>
      refine ⟨[], ?_, rfl, same⟩
      cases event with
      | received ch => exact absurd rfl (other ch)
      | _ => rfl

theorem receivedBytes_append (front back : List Event) :
    receivedBytes (front ++ back) = receivedBytes front ++ receivedBytes back := by
  induction front with
  | nil => rfl
  | cons event events induction => cases event <;> simp [receivedBytes, induction]

theorem run_refines :
    ∃ requests, Refines BoundedFifo.empty requests events
      (machine.outputs bkSpiSlaveInit events) (machine.run bkSpiSlaveInit events) := by
  induction events using List.reverseRecOn with
  | nil => exact ⟨[], rfl, rfl, rfl⟩
  | append_singleton events event induction =>
      obtain ⟨requests, earlier⟩ := induction
      obtain ⟨more, last⟩ := step_refines (good_run events).valid earlier.stay event
      refine ⟨requests ++ more, ?_, ?_, ?_⟩
      · rw [BoundedFifo.arrivals_append, receivedBytes_append, earlier.arrive, last.arrive]
      · rw [Machine.outputs_append, Machine.outputs_append, List.flatten_append,
          List.flatMap_append, earlier.leave, last.leave]
        rfl
      · rw [Machine.run_append, Machine.run_append, last.stay]
        rfl

/-! ## What a task reads -/

/-- The bytes in the buffers of the calls of a task that have returned. -/
def returnedTo (task : ℕ) : List Output → List UInt8
  | [] => []
  | .returned reader rxBuf _ :: outputs =>
      if reader = task then rxBuf ++ returnedTo task outputs else returnedTo task outputs
  | _ :: outputs => returnedTo task outputs

/-- The bytes that the calls of a task have taken from the ring. -/
def takenBy (task : ℕ) : List Output → List UInt8
  | [] => []
  | .removed reader ch :: outputs =>
      if reader = task then ch :: takenBy task outputs else takenBy task outputs
  | _ :: outputs => takenBy task outputs

/-- The bytes in the buffer of the call a task is in. -/
def inBuffer (state : SlaveState) (task : ℕ) : List UInt8 :=
  match state.calls task with
  | none => []
  | some call => call.rxBuf

theorem step_read (valid : Valid state.rxFifo) (event : Event) (task : ℕ) :
    inBuffer state task ++ takenBy task [(machine.step state event).2] =
      returnedTo task [(machine.step state event).2] ++
        inBuffer (machine.step state event).1 task := by
  have effect := step_effect valid event
  generalize machine.step state event = result at effect ⊢
  cases effect with
  | received => simp [takenBy, returnedTo, inBuffer]
  | begun reader len idle =>
      by_cases own : task = reader
      · subst own
        simp [takenBy, returnedTo, inBuffer, idle]
      · simp [takenBy, returnedTo, inBuffer, own]
  | refused | measured | ignored => simp [takenBy, returnedTo]
  | ended reader call found reason =>
      by_cases own : task = reader
      · subst own
        simp [takenBy, returnedTo, inBuffer, found]
      · simp [takenBy, returnedTo, inBuffer, own, Ne.symm own]
  | taken reader call ch rxFifo found more valid oldest =>
      by_cases own : task = reader
      · subst own
        simp [takenBy, returnedTo, inBuffer, found, ReadCall.take]
      · simp [takenBy, returnedTo, inBuffer, own, Ne.symm own]

theorem takenBy_append :
    takenBy task (front ++ back) = takenBy task front ++ takenBy task back := by
  induction front with
  | nil => rfl
  | cons output outputs induction =>
      cases output <;> simp [takenBy, induction]
      split <;> simp

theorem returnedTo_append :
    returnedTo task (front ++ back) = returnedTo task front ++ returnedTo task back := by
  induction front with
  | nil => rfl
  | cons output outputs induction =>
      cases output <;> simp [returnedTo, induction]
      split <;> simp

theorem run_read (task : ℕ) :
    takenBy task (machine.outputs bkSpiSlaveInit events) =
      returnedTo task (machine.outputs bkSpiSlaveInit events) ++
        inBuffer (machine.run bkSpiSlaveInit events) task := by
  induction events using List.reverseRecOn with
  | nil => rfl
  | append_singleton events event induction =>
      have last := step_read (good_run events).valid event task
      rw [Machine.outputs_append, Machine.run_append, takenBy_append, returnedTo_append, induction,
        List.append_assoc, List.append_assoc]
      exact congrArg _ last

/-- Rounds of a call with nothing in between store the oldest unread bytes, as many as it still
wants and the ring has. -/
theorem rounds_return (good : Good state) {task : ℕ} (found : state.calls task = some call) :
    ∃ rounds result,
      (machine.outputs state (List.replicate rounds (.round task))).getLast? =
          some (.returned task
            (call.rxBuf ++ (unread state.rxFifo).take call.size.toNat) result) ∧
        result.toNat = (call.rxBuf ++ (unread state.rxFifo).take call.size.toNat).length := by
  induction wanted : call.size.toNat generalizing state call with
  | zero =>
      have done : call.size = 0 := BitVec.eq_of_toNat_eq wanted
      refine ⟨1, call.len - call.size, ?_, ?_⟩
      · simp [machine, found, readRound, done]
      · simpa using (good.counted task call found).result
  | succ more induction =>
      have next := good_step (.round task) good
      have effect := step_effect good.valid (.round task)
      generalize result_eq : machine.step state (.round task) = result at next effect
      cases effect with
      | ended _ call' found' reason =>
          obtain rfl : call' = call := Option.some.inj (found'.symm.trans found)
          have empty : unread state.rxFifo = [] := by
            rcases reason with zero | empty
            · simp [zero] at wanted
            · exact empty
          refine ⟨1, call'.len - call'.size, ?_, ?_⟩
          · simp [result_eq, empty]
          · simpa [empty] using (good.counted task call' found).result
      | taken _ call' ch rxFifo found' size_ne valid oldest =>
          obtain rfl : call' = call := Option.some.inj (found'.symm.trans found)
          have smaller : (call'.take ch).size.toNat = more := by
            have one := toNat_sub_one size_ne
            simp only [ReadCall.take]
            omega
          obtain ⟨rounds, final, last, counted⟩ :=
            induction next (Function.update_self ..) smaller
          have bytes : (call'.take ch).rxBuf ++ (unread rxFifo).take more =
              call'.rxBuf ++ (unread state.rxFifo).take (more + 1) := by
            simp [oldest, ReadCall.take]
          refine ⟨rounds + 1, final, ?_, ?_⟩
          · rw [List.replicate_succ, Machine.outputs_cons, result_eq, List.getLast?_cons, last,
              bytes]
            rfl
          · rw [counted, bytes]
      | ignored _ other =>
          have called : (machine.step state (.round task)).2 = .nothing := by rw [result_eq]
          simp only [machine, found, readRound] at called
          split at called
          · cases called
          · split at called <;> cases called

/-- A call with nothing in between returns the oldest unread bytes, as many as it asks for and the
ring has. -/
theorem getRxData_returns (good : Good state) {task : ℕ} (idle : state.calls task = none)
    (len : BitVec 32) :
    ∃ rounds result,
      (machine.outputs state
          (.getRxData task true len :: List.replicate rounds (.round task))).getLast? =
        some (.returned task ((unread state.rxFifo).take len.toNat) result) ∧
      result.toNat = min len.toNat (unread state.rxFifo).length := by
  have begun : machine.step state (.getRxData task true len) =
      ({ state with calls := Function.update state.calls task (some ⟨len, len, []⟩) },
        .nothing) := by
    simp [machine, idle]
  have next := good_step (.getRxData task true len) good
  rw [begun] at next
  obtain ⟨rounds, result, last, counted⟩ := rounds_return next (Function.update_self ..)
  refine ⟨rounds, result, ?_, ?_⟩
  · rw [Machine.outputs_cons, begun, List.getLast?_cons, last]
    rfl
  · rw [counted, List.nil_append, List.length_take]

/-! ## The contract of the ring -/

/-- What the ring promises after a run. -/
structure KeepsNewest (events : List Event) (outputs : List Output) (final : SlaveState) :
    Prop where
  stream : receivedBytes events =
    (outputs.flatMap Output.leaving).map Prod.fst ++ unread final.rxFifo
  delivered : ∀ task, takenBy task outputs = returnedTo task outputs ++ inBuffer final task
  overflow : ∀ ch, (machine.step final (.received ch)).2 =
    .stored (if (unread final.rxFifo).length = 511 then (unread final.rxFifo).head? else none)
  kept : ∀ ch, unread (machine.step final (.received ch)).1.rxFifo =
    (if (unread final.rxFifo).length = 511 then (unread final.rxFifo).tail
      else unread final.rxFifo) ++ [ch]
  bounded : (unread final.rxFifo).length ≤ 511
  /-- `bk_spi_slave_get_rx_fifo` returns the number of unread bytes. -/
  measured : (machine.step final .getRxFifo).2 = .rxLength (unread final.rxFifo).length
  next_read : ∀ task len, final.calls task = none → ∃ rounds result,
    (machine.outputs final
        (.getRxData task true len :: List.replicate rounds (.round task))).getLast? =
      some (.returned task ((unread final.rxFifo).take len.toNat) result) ∧
    result.toNat = min len.toNat (unread final.rxFifo).length

/-- Whatever is received and read in whatever order, the ring keeps the newest bytes. -/
theorem rx_fifo_keeps_newest (events : List Event) :
    KeepsNewest events (machine.outputs bkSpiSlaveInit events)
      (machine.run bkSpiSlaveInit events) := by
  have good := good_run events
  obtain ⟨requests, refines⟩ := run_refines events
  refine ⟨?_, run_read events, fun ch => ?_, fun ch => ?_, good.valid.unread_le, ?_,
    fun task len idle => getRxData_returns good idle len⟩
  · have balance := BoundedFifo.newest_balance (BoundedFifo.empty : BoundedFifo UInt8 511) requests
    rw [refines.arrive, refines.leave, refines.stay] at balance
    exact balance
  · exact congrArg Output.stored (good.valid.insertByte_eq ch).2
  · exact (good.valid.insertByte_eq ch).1
  · exact congrArg Output.rxLength good.valid.rx_fifo_eq

end BdkFreertos.SpiSlave
