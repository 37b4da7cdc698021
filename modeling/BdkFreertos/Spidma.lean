import BdkFreertos.Circular
import BdkFreertos.Machine
import Mathlib.Data.Nat.Init

/-!
# The receive ring of the SPI slave with DMA

The hardware puts the bytes that it receives into a ring.  At an interrupt the driver hands them
over in chunks of at most a node and then sets the read pointer behind them.  Only a timeout hands
over everything, and the chunks of the next interrupt go on from there.
-/

namespace BdkFreertos.Spidma

/-- What is used of `SPIDMA_DESC_ST`. -/
structure SpidmaDesc where
  rxbufLen : ℕ
  nodeLen : ℕ
  /-- `rx_handler` is not `NULL`. -/
  rxHandler : Bool
  /-- A power of two that fits in sixteen bits. -/
  exponent : ∃ k ≤ 15, rxbufLen = 2 ^ k
  divides : nodeLen ∣ rxbufLen

/-- A call of `rx_handler`: where the chunk is in `rxbuf`, and the bytes there. -/
structure Chunk where
  rdaddr : ℕ
  data : List UInt8
  deriving DecidableEq

/-- The ring, what has gone through it and what was handed over. -/
structure Ring where
  /-- The memory from `rxbuf` on, also behind the ring. -/
  rxbuf : Memory UInt8
  /-- Everything that was received; its length is where the hardware writes next. -/
  stream : List UInt8
  /-- Where the read pointer stands in it. -/
  read : ℕ
  /-- `SPI_DMA_REG5_RXBUF_RDPTR`. -/
  readptr : ℕ
  chunks : List Chunk
  /-- The last interrupt was served as a timeout. -/
  timedOut : Bool

/-- After `spidma_open`. -/
def spidmaOpen (rxbuf : Memory UInt8) : Ring where
  rxbuf := rxbuf
  stream := []
  read := 0
  readptr := 0
  chunks := []
  timedOut := false

/-! ### The hardware -/

/-- A byte is received, if the ring is not full. -/
def receiveByte (desc : SpidmaDesc) (ring : Ring) (byte : UInt8) : Ring :=
  if ring.stream.length < ring.read + desc.rxbufLen then
    { ring with
      rxbuf := ring.rxbuf.store (ring.stream.length % desc.rxbufLen) [byte]
      stream := ring.stream ++ [byte] }
  else ring

/-- The bytes between the pointer of the hardware and the read pointer. -/
def valid (ring : Ring) : ℕ := ring.stream.length - ring.read

/-- `SPIDMA_REG5_RXBUF_RDPTR_MASK` and `SPIDMA_REG11_RXBUF_VLDNUM_MASK` are one below. -/
def maskSize : ℕ := 65536

/-- The read pointer moves on to the next place with this remainder. -/
def spidmaConfigSetRxbufReadptr (rdptr : ℕ) (ring : Ring) : Ring :=
  { ring with
    read := ring.read + (rdptr % maskSize + maskSize - ring.readptr) % maskSize
    readptr := rdptr % maskSize }

def spidmaConfigGetRxbufReadptr (ring : Ring) : ℕ := ring.readptr % maskSize

/-! ### The interrupts -/

/-- `copy_len`. -/
def copyLen (desc : SpidmaDesc) (valid : ℕ) : ℕ :=
  if desc.nodeLen < valid then desc.nodeLen else valid

theorem SpidmaDesc.rxbufLen_pos (desc : SpidmaDesc) : 0 < desc.rxbufLen := by
  obtain ⟨k, -, length_eq⟩ := desc.exponent
  rw [length_eq]
  exact Nat.two_pow_pos k

theorem SpidmaDesc.nodeLen_pos (desc : SpidmaDesc) : 0 < desc.nodeLen :=
  Nat.pos_of_dvd_of_pos desc.divides desc.rxbufLen_pos

theorem copyLen_eq_min (desc : SpidmaDesc) (valid : ℕ) :
    copyLen desc valid = min desc.nodeLen valid := by
  rw [copyLen]
  split <;> omega

/-- The loop of `spidma_rx_handler`: the chunks and the position behind them. -/
def cut (desc : SpidmaDesc) (rxbuf : Memory UInt8) (leftLen valid curPosi : ℕ) : List Chunk × ℕ :=
  if leftLen < valid then
    let rdaddr := curPosi &&& (desc.rxbufLen - 1)
    let chunk : Chunk := ⟨rdaddr, rxbuf.load rdaddr (copyLen desc valid)⟩
    let rest := cut desc rxbuf leftLen (valid - copyLen desc valid)
      (curPosi + copyLen desc valid)
    (chunk :: rest.1, rest.2)
  else
    ([], curPosi)
termination_by valid
decreasing_by
  have := desc.nodeLen_pos
  rw [copyLen_eq_min]
  omega

def leftLen (desc : SpidmaDesc) (timeout : Bool) : ℕ := if timeout then 0 else desc.nodeLen

def spidmaRxHandler (desc : SpidmaDesc) (timeout : Bool) (ring : Ring) : Ring :=
  let curPosi := spidmaConfigGetRxbufReadptr ring
  let served := cut desc ring.rxbuf (leftLen desc timeout) (valid ring % maskSize) curPosi
  let ring := { ring with
    chunks := if desc.rxHandler then ring.chunks ++ served.1 else ring.chunks
    timedOut := timeout }
  spidmaConfigSetRxbufReadptr served.2 ring

/-- An interrupt: the bytes that were received since the last one, and the status. -/
structure Interrupt where
  bytes : List UInt8
  spidmaSta : UInt32

/-- `SPIDMA_INTSTA_RXBUF_THRE` and `SPIDMA_INTSTA_RX_TIMEOUT`. -/
def Interrupt.rxbufThre (interrupt : Interrupt) : Bool := interrupt.spidmaSta &&& 1 != 0

def Interrupt.rxTimeout (interrupt : Interrupt) : Bool := interrupt.spidmaSta &&& 2 != 0

/-- What `spidma_isr` calls `spidma_rx_handler` for. -/
def Interrupt.serves (interrupt : Interrupt) : Option Bool :=
  if interrupt.rxbufThre then some false else if interrupt.rxTimeout then some true else none

/-- The receive part of `spidma_isr`. -/
def spidmaIsr (desc : SpidmaDesc) (interrupt : Interrupt) (ring : Ring) : Ring :=
  match interrupt.serves with
  | some timeout => spidmaRxHandler desc timeout ring
  | none => { ring with timedOut := false }

def spidma (desc : SpidmaDesc) : Machine Ring Interrupt Unit where
  step ring interrupt :=
    (spidmaIsr desc interrupt (interrupt.bytes.foldl (receiveByte desc) ring), ())

/-! ### The purpose -/

/-- What was handed over lies in the ring and is what was received up to the read pointer. -/
structure Passes (desc : SpidmaDesc) (ring : Ring) : Prop where
  inside : ∀ chunk ∈ ring.chunks, chunk.rdaddr + chunk.data.length ≤ desc.rxbufLen
  data : ring.chunks.flatMap Chunk.data = ring.stream.take ring.read
  bounded : ring.read ≤ ring.stream.length

/-- And after a timeout it is all that was received. -/
structure Delivers (desc : SpidmaDesc) (ring : Ring) : Prop extends Passes desc ring where
  all : ring.timedOut = true → ring.read = ring.stream.length

/-! ### The condition -/

/-- How far a service gets from a position before a chunk would go around the end of the ring, when
the chunks do not start at nodes. -/
def toEnd (desc : SpidmaDesc) (timeout : Bool) (position : ℕ) : ℕ :=
  let left := desc.rxbufLen - position % desc.rxbufLen
  if timeout then left else left - left % desc.nodeLen + desc.nodeLen

/-- A service has a handler for what it hands over, and starts at a node or does not reach the end
of the ring. -/
def Serviceable (desc : SpidmaDesc) (timeout : Bool) (ring : Ring) : Prop :=
  (desc.rxHandler = true ∨ valid ring ≤ leftLen desc timeout) ∧
    (ring.read % desc.nodeLen = 0 ∨ valid ring ≤ toEnd desc timeout ring.read)

/-- What is served with the bytes that were received is serviceable. -/
def Covered (desc : SpidmaDesc) (ring : Ring) (interrupt : Interrupt) : Prop :=
  ∀ timeout, interrupt.serves = some timeout →
    Serviceable desc timeout (interrupt.bytes.foldl (receiveByte desc) ring)

/-! ### The hardware keeps the stream -/

/-- The ring holds what was received and not yet handed over. -/
structure Holds (desc : SpidmaDesc) (ring : Ring) : Prop where
  readptr : ring.readptr = ring.read % maskSize
  reached : ring.read ≤ ring.stream.length
  room : ring.stream.length ≤ ring.read + desc.rxbufLen
  carries : ring.rxbuf.Carries desc.rxbufLen ring.stream ring.read ring.stream.length

section
variable {desc : SpidmaDesc} {ring : Ring}

theorem holds_spidmaOpen (desc : SpidmaDesc) (rxbuf : Memory UInt8) :
    Holds desc (spidmaOpen rxbuf) :=
  ⟨rfl, Nat.le_refl 0, Nat.zero_le _, Memory.carries_nothing _ _ _ _⟩

theorem Holds.receiveByte (holds : Holds desc ring) (byte : UInt8) :
    Holds desc (receiveByte desc ring byte) := by
  obtain ⟨readptr, reached, room, carries⟩ := holds
  rw [Spidma.receiveByte]
  split
  · rename_i free
    have length_eq : (ring.stream ++ [byte]).length = ring.stream.length + 1 :=
      List.length_append
    refine ⟨readptr, ?_, ?_, ?_⟩
    · dsimp only
      omega
    · dsimp only
      omega
    · dsimp only
      rw [length_eq]
      exact (carries.append [byte]).put List.getElem?_concat_length free
  · exact ⟨readptr, reached, room, carries⟩

theorem Holds.receive (holds : Holds desc ring) (bytes : List UInt8) :
    Holds desc (bytes.foldl (Spidma.receiveByte desc) ring) := by
  induction bytes generalizing ring with
  | nil => exact holds
  | cons byte bytes induction => exact induction (holds.receiveByte byte)

theorem receive_of_room {bytes : List UInt8}
    (room : ring.stream.length + bytes.length ≤ ring.read + desc.rxbufLen) :
    (bytes.foldl (receiveByte desc) ring).stream = ring.stream ++ bytes ∧
      (bytes.foldl (receiveByte desc) ring).read = ring.read := by
  induction bytes generalizing ring with
  | nil => exact ⟨(List.append_nil _).symm, rfl⟩
  | cons byte bytes induction =>
      rw [List.length_cons] at room
      have received : receiveByte desc ring byte =
          { ring with
            rxbuf := ring.rxbuf.store (ring.stream.length % desc.rxbufLen) [byte]
            stream := ring.stream ++ [byte] } := if_pos (by omega)
      have room' : (receiveByte desc ring byte).stream.length + bytes.length ≤
          (receiveByte desc ring byte).read + desc.rxbufLen := by
        rw [received, List.length_append, List.length_singleton]
        dsimp only
        omega
      obtain ⟨stream_eq, read_eq⟩ := induction room'
      rw [List.foldl_cons, stream_eq, read_eq, received]
      exact ⟨List.append_assoc _ _ _, rfl⟩

theorem Passes.receiveByte (passes : Passes desc ring) (byte : UInt8) :
    Passes desc (receiveByte desc ring byte) := by
  obtain ⟨inside, data, bounded⟩ := passes
  rw [Spidma.receiveByte]
  split
  · refine ⟨inside, ?_, ?_⟩
    · dsimp only
      rw [data, List.take_append_of_le_length bounded]
    · dsimp only
      rw [List.length_append]
      omega
  · exact ⟨inside, data, bounded⟩

theorem Passes.receive (passes : Passes desc ring) (bytes : List UInt8) :
    Passes desc (bytes.foldl (Spidma.receiveByte desc) ring) := by
  induction bytes generalizing ring with
  | nil => exact passes
  | cons byte bytes induction => exact induction (passes.receiveByte byte)

end

/-! ### The chunks of a service -/

section
variable (desc : SpidmaDesc) (rxbuf : Memory UInt8)

theorem maskSize_dvd : desc.rxbufLen ∣ maskSize := by
  obtain ⟨k, bounded, length_eq⟩ := desc.exponent
  rw [length_eq]
  exact Nat.pow_dvd_pow 2 (by omega : k ≤ 16)

theorem rxbufLen_lt : desc.rxbufLen < maskSize := by
  obtain ⟨k, bounded, length_eq⟩ := desc.exponent
  rw [length_eq]
  exact Nat.pow_lt_pow_right (by decide) (by omega : k < 16)

theorem rdaddr_eq (curPosi : ℕ) :
    curPosi &&& (desc.rxbufLen - 1) = curPosi % desc.rxbufLen := by
  obtain ⟨k, -, length_eq⟩ := desc.exponent
  rw [length_eq]
  exact Nat.and_two_pow_sub_one_eq_mod curPosi k

/-- The number of bytes that a service takes. -/
structure Takes (leftLen valid curPosi taken : ℕ) : Prop where
  position : (cut desc rxbuf leftLen valid curPosi).2 = curPosi + taken
  le_valid : taken ≤ valid
  left : valid ≤ taken + leftLen
  idle : valid ≤ leftLen → taken = 0
  data : (∀ chunk ∈ (cut desc rxbuf leftLen valid curPosi).1,
      chunk.rdaddr + chunk.data.length ≤ desc.rxbufLen) →
    (cut desc rxbuf leftLen valid curPosi).1.flatMap Chunk.data =
      rxbuf.loadAround desc.rxbufLen curPosi taken

theorem load_eq_loadAround {start count : ℕ}
    (inside : start % desc.rxbufLen + count ≤ desc.rxbufLen) :
    rxbuf.load (start % desc.rxbufLen) count = rxbuf.loadAround desc.rxbufLen start count := by
  rw [Memory.loadAround_eq rxbuf (by omega), Nat.min_eq_left (by omega), Nat.sub_self,
    Memory.load_zero, List.append_nil]

/-- A round of the loop. -/
theorem cut_of_lt {leftLen valid : ℕ} (more : leftLen < valid) (curPosi : ℕ) :
    cut desc rxbuf leftLen valid curPosi =
      (⟨curPosi % desc.rxbufLen,
          rxbuf.load (curPosi % desc.rxbufLen) (copyLen desc valid)⟩ ::
          (cut desc rxbuf leftLen (valid - copyLen desc valid) (curPosi + copyLen desc valid)).1,
        (cut desc rxbuf leftLen (valid - copyLen desc valid) (curPosi + copyLen desc valid)).2) := by
  rw [cut, if_pos more, rdaddr_eq]

theorem cut_of_le {leftLen valid : ℕ} (done : valid ≤ leftLen) (curPosi : ℕ) :
    cut desc rxbuf leftLen valid curPosi = ([], curPosi) := by
  rw [cut, if_neg (Nat.not_lt.mpr done)]

theorem copyLen_pos {valid : ℕ} (positive : 0 < valid) : 0 < copyLen desc valid := by
  have := desc.nodeLen_pos
  rw [copyLen_eq_min]
  omega

theorem exists_takes (leftLen valid curPosi : ℕ) :
    ∃ taken, Takes desc rxbuf leftLen valid curPosi taken := by
  induction valid using Nat.strong_induction_on generalizing curPosi with
  | _ valid induction =>
      rcases Nat.lt_or_ge leftLen valid with more | done
      · have positive := copyLen_pos desc (Nat.zero_lt_of_lt more)
        have copied := copyLen_eq_min desc valid
        obtain ⟨taken, position, le_valid, left, -, data⟩ :=
          induction (valid - copyLen desc valid) (by omega) (curPosi + copyLen desc valid)
        refine ⟨copyLen desc valid + taken, ?_, by omega, by omega, fun done => by omega, ?_⟩
        · rw [cut_of_lt desc rxbuf more, position, Nat.add_assoc]
        · rw [cut_of_lt desc rxbuf more]
          intro inside
          rw [List.forall_mem_cons, Memory.length_load] at inside
          rw [List.flatMap_cons, data inside.2, load_eq_loadAround desc rxbuf inside.1,
            Memory.loadAround_add]
      · refine ⟨0, ?_, Nat.zero_le _, by omega, fun _ => rfl, fun _ => ?_⟩
        · rw [cut_of_le desc rxbuf done, Nat.add_zero]
        · rw [cut_of_le desc rxbuf done]
          rfl

def left (curPosi : ℕ) : ℕ := desc.rxbufLen - curPosi % desc.rxbufLen

theorem left_pos (curPosi : ℕ) : 0 < left desc curPosi :=
  Nat.sub_pos_of_lt (Nat.mod_lt _ desc.rxbufLen_pos)

theorem left_mod_eq_zero_iff (curPosi : ℕ) :
    left desc curPosi % desc.nodeLen = 0 ↔ curPosi % desc.nodeLen = 0 := by
  rw [← Nat.dvd_iff_mod_eq_zero, ← Nat.dvd_iff_mod_eq_zero, left,
    Nat.dvd_sub_iff_right (Nat.le_of_lt (Nat.mod_lt _ desc.rxbufLen_pos)) desc.divides,
    Nat.dvd_mod_iff desc.divides]

theorem left_add {curPosi count : ℕ} (inside : count < left desc curPosi) :
    left desc (curPosi + count) = left desc curPosi - count := by
  rw [left] at inside
  have next : (curPosi + count) % desc.rxbufLen = curPosi % desc.rxbufLen + count := by
    rw [← Nat.mod_add_mod, Nat.mod_eq_of_lt (by omega)]
  rw [left, next, left, Nat.sub_sub]

theorem toEnd_eq (timeout : Bool) (curPosi : ℕ) :
    toEnd desc timeout curPosi =
      if timeout then left desc curPosi
      else left desc curPosi - left desc curPosi % desc.nodeLen + desc.nodeLen := rfl

theorem copyLen_le_left_iff {timeout : Bool} {valid curPosi : ℕ}
    (more : leftLen desc timeout < valid) :
    copyLen desc valid ≤ left desc curPosi ∧
        ((curPosi + copyLen desc valid) % desc.nodeLen = 0 ∨
          valid - copyLen desc valid ≤ toEnd desc timeout (curPosi + copyLen desc valid)) ↔
      curPosi % desc.nodeLen = 0 ∨ valid ≤ toEnd desc timeout curPosi := by
  have node_pos := desc.nodeLen_pos
  have copied := copyLen_eq_min desc valid
  have remainder_le := Nat.mod_le (left desc curPosi) desc.nodeLen
  by_cases aligned : curPosi % desc.nodeLen = 0
  · have node_le : desc.nodeLen ≤ left desc curPosi :=
      Nat.le_of_dvd (left_pos desc curPosi)
        (Nat.dvd_of_mod_eq_zero ((left_mod_eq_zero_iff desc curPosi).mpr aligned))
    refine iff_of_true ⟨by omega, ?_⟩ (Or.inl aligned)
    rcases Nat.le_total desc.nodeLen valid with full | last
    · rw [show copyLen desc valid = desc.nodeLen by omega, Nat.add_mod_right]
      exact Or.inl aligned
    · exact Or.inr (by omega)
  · have unaligned : left desc curPosi % desc.nodeLen ≠ 0 := fun multiple =>
      aligned ((left_mod_eq_zero_iff desc curPosi).mp multiple)
    rw [or_iff_right aligned]
    rcases Nat.lt_or_ge (left desc curPosi) desc.nodeLen with near | far
    · -- the end comes within this chunk, if the chunk is a whole node
      have remainder := Nat.mod_eq_of_lt near
      rw [toEnd_eq desc timeout curPosi, remainder]
      cases timeout with
      | true =>
          rw [if_pos rfl]
          exact ⟨fun fits => by omega, fun fits => ⟨by omega, Or.inr (by omega)⟩⟩
      | false =>
          rw [leftLen, if_neg Bool.false_ne_true] at more
          rw [if_neg Bool.false_ne_true]
          exact ⟨fun fits => by omega, fun fits => by omega⟩
    · have before : desc.nodeLen < left desc curPosi := by
        refine Nat.lt_of_le_of_ne far fun same => unaligned ?_
        rw [← same, Nat.mod_self]
      have next := left_add desc (show copyLen desc valid < left desc curPosi by omega)
      rw [and_iff_right (by omega)]
      rcases Nat.le_total desc.nodeLen valid with full | last
      · have node_eq : copyLen desc valid = desc.nodeLen := by omega
        rw [node_eq] at next ⊢
        have remainder : (left desc curPosi - desc.nodeLen) % desc.nodeLen =
            left desc curPosi % desc.nodeLen := (Nat.mod_eq_sub_mod far).symm
        have remainder_le' := Nat.mod_le (left desc curPosi - desc.nodeLen) desc.nodeLen
        rw [Nat.add_mod_right, or_iff_right aligned, toEnd_eq, toEnd_eq, next, remainder]
        split <;> omega
      · have done : valid - copyLen desc valid = 0 := by omega
        refine iff_of_true (Or.inr (by omega)) ?_
        rw [toEnd_eq]
        split <;> omega

/-- A chunk goes around the end of the ring exactly if the chunks do not start at nodes and the
service reaches the end. -/
theorem cut_inside_iff (timeout : Bool) (valid curPosi : ℕ) :
    (∀ chunk ∈ (cut desc rxbuf (leftLen desc timeout) valid curPosi).1,
        chunk.rdaddr + chunk.data.length ≤ desc.rxbufLen) ↔
      curPosi % desc.nodeLen = 0 ∨ valid ≤ toEnd desc timeout curPosi := by
  induction valid using Nat.strong_induction_on generalizing curPosi with
  | _ valid induction =>
      rcases Nat.lt_or_ge (leftLen desc timeout) valid with more | done
      · have positive := copyLen_pos desc (Nat.zero_lt_of_lt more)
        have place := Nat.mod_lt curPosi desc.rxbufLen_pos
        rw [cut_of_lt desc rxbuf more, List.forall_mem_cons, Memory.length_load,
          induction _ (by omega), ← copyLen_le_left_iff desc more]
        refine and_congr_left fun _ => ?_
        dsimp only [left]
        omega
      · rw [cut_of_le desc rxbuf done]
        refine iff_of_true nofun (Or.inr ?_)
        have remainder_le := Nat.mod_le (left desc curPosi) desc.nodeLen
        rw [leftLen] at done
        rw [toEnd_eq]
        split at done
        · rename_i timeout_eq
          rw [if_pos timeout_eq]
          omega
        · rename_i timeout_eq
          rw [if_neg timeout_eq]
          omega

end

/-! ### A service -/

section
variable {desc : SpidmaDesc} {timeout : Bool} {ring : Ring}

def served (desc : SpidmaDesc) (timeout : Bool) (ring : Ring) : List Chunk × ℕ :=
  cut desc ring.rxbuf (leftLen desc timeout) (valid ring) (ring.read % maskSize)

theorem Holds.valid_lt (holds : Holds desc ring) : valid ring < maskSize := by
  have := holds.room
  have := rxbufLen_lt desc
  rw [valid]
  omega

theorem Holds.spidmaRxHandler_eq (holds : Holds desc ring) (timeout : Bool) :
    spidmaRxHandler desc timeout ring =
      spidmaConfigSetRxbufReadptr (served desc timeout ring).2
        { ring with
          chunks := if desc.rxHandler then ring.chunks ++ (served desc timeout ring).1
            else ring.chunks
          timedOut := timeout } := by
  rw [spidmaRxHandler, spidmaConfigGetRxbufReadptr, holds.readptr, Nat.mod_mod,
    Nat.mod_eq_of_lt holds.valid_lt]
  rfl

theorem spidmaRxHandler_frame (desc : SpidmaDesc) (timeout : Bool) (ring : Ring) :
    (spidmaRxHandler desc timeout ring).stream = ring.stream ∧
      (spidmaRxHandler desc timeout ring).rxbuf = ring.rxbuf ∧
      (spidmaRxHandler desc timeout ring).timedOut = timeout := by
  rw [spidmaRxHandler, spidmaConfigSetRxbufReadptr]
  exact ⟨rfl, rfl, rfl⟩

theorem Holds.exists_taken (holds : Holds desc ring) (timeout : Bool) :
    ∃ taken, Takes desc ring.rxbuf (leftLen desc timeout) (valid ring) (ring.read % maskSize)
        taken ∧
      (spidmaRxHandler desc timeout ring).read = ring.read + taken := by
  obtain ⟨taken, takes⟩ := exists_takes desc ring.rxbuf (leftLen desc timeout) (valid ring)
    (ring.read % maskSize)
  refine ⟨taken, takes, ?_⟩
  have taken_lt := Nat.lt_of_le_of_lt takes.le_valid holds.valid_lt
  rw [holds.spidmaRxHandler_eq, spidmaConfigSetRxbufReadptr]
  dsimp only
  rw [served, takes.position, holds.readptr]
  rw [maskSize] at taken_lt ⊢
  omega

theorem Holds.spidmaRxHandler (holds : Holds desc ring) (timeout : Bool) :
    Holds desc (spidmaRxHandler desc timeout ring) := by
  obtain ⟨taken, takes, read_eq⟩ := holds.exists_taken timeout
  obtain ⟨stream_eq, rxbuf_eq, -⟩ := spidmaRxHandler_frame desc timeout ring
  have le_valid := takes.le_valid
  have reached := holds.reached
  have room := holds.room
  rw [valid] at le_valid
  refine ⟨?_, ?_, ?_, ?_⟩
  · rw [read_eq, holds.spidmaRxHandler_eq, spidmaConfigSetRxbufReadptr]
    dsimp only
    rw [served, takes.position, Nat.mod_add_mod]
  · rw [read_eq, stream_eq]
    omega
  · rw [read_eq, stream_eq]
    omega
  · rw [read_eq, stream_eq, rxbuf_eq]
    exact holds.carries.mono (Nat.le_add_right _ _) (Nat.le_refl _)

def Inside (desc : SpidmaDesc) (timeout : Bool) (ring : Ring) : Prop :=
  ∀ chunk ∈ (served desc timeout ring).1, chunk.rdaddr + chunk.data.length ≤ desc.rxbufLen

theorem inside_iff : Inside desc timeout ring ↔
    ring.read % desc.nodeLen = 0 ∨ valid ring ≤ toEnd desc timeout ring.read := by
  rw [Inside, served, cut_inside_iff, toEnd, toEnd, Nat.mod_mod_of_dvd _ (maskSize_dvd desc),
    Nat.mod_mod_of_dvd _ (Nat.dvd_trans desc.divides (maskSize_dvd desc))]

theorem Holds.flatMap_served (holds : Holds desc ring) {taken : ℕ}
    (takes : Takes desc ring.rxbuf (leftLen desc timeout) (valid ring) (ring.read % maskSize) taken)
    (inside : Inside desc timeout ring) :
    (served desc timeout ring).1.flatMap Chunk.data = (ring.stream.drop ring.read).take taken := by
  have le_valid : taken ≤ ring.stream.length - ring.read := takes.le_valid
  rw [served, takes.data inside,
    Memory.loadAround_congr _ (Nat.mod_mod_of_dvd _ (maskSize_dvd desc)),
    ← holds.carries.loadAround_eq_drop holds.reached, Memory.take_loadAround _ le_valid]

theorem Passes.spidmaRxHandler_iff (passes : Passes desc ring) (holds : Holds desc ring)
    (timeout : Bool) :
    Delivers desc (spidmaRxHandler desc timeout ring) ↔ Serviceable desc timeout ring := by
  obtain ⟨taken, takes, read_eq⟩ := holds.exists_taken timeout
  obtain ⟨stream_eq, -, timedOut_eq⟩ := spidmaRxHandler_frame desc timeout ring
  have chunks_eq : (spidmaRxHandler desc timeout ring).chunks =
      if desc.rxHandler then ring.chunks ++ (served desc timeout ring).1 else ring.chunks := by
    rw [holds.spidmaRxHandler_eq]
    rfl
  have reached := (holds.spidmaRxHandler timeout).reached
  have left := takes.left
  have le_valid := takes.le_valid
  have before := holds.reached
  rw [Serviceable, ← inside_iff]
  constructor
  · rintro ⟨⟨inside, data, -⟩, -⟩
    cases handler : desc.rxHandler with
    | true =>
        rw [chunks_eq, handler, if_pos rfl] at inside
        exact ⟨Or.inl rfl, fun chunk member => inside chunk (List.mem_append_right _ member)⟩
    | false =>
        rw [chunks_eq, handler, if_neg Bool.false_ne_true, passes.data, read_eq, stream_eq] at data
        have length_eq := congrArg List.length data
        rw [List.length_take, List.length_take] at length_eq
        rw [valid] at left le_valid
        have idle : valid ring ≤ leftLen desc timeout := by
          rw [valid]
          omega
        refine ⟨Or.inr idle, ?_⟩
        rw [Inside, served, cut_of_le desc ring.rxbuf idle]
        exact nofun
  · rintro ⟨handled, inside⟩
    have data : (spidmaRxHandler desc timeout ring).chunks.flatMap Chunk.data =
        ring.stream.take (ring.read + taken) := by
      rw [chunks_eq]
      split
      · rw [List.flatMap_append, passes.data, holds.flatMap_served takes inside, List.take_add]
      · rename_i missing
        rw [takes.idle (handled.resolve_left missing), Nat.add_zero, passes.data]
    refine ⟨⟨?_, ?_, reached⟩, ?_⟩
    · rw [chunks_eq]
      split
      · intro chunk member
        rcases List.mem_append.mp member with earlier | later
        · exact passes.inside chunk earlier
        · exact inside chunk later
      · exact passes.inside
    · rw [data, read_eq, stream_eq]
    · rw [timedOut_eq, read_eq, stream_eq]
      rintro rfl
      rw [leftLen, if_pos rfl] at left
      rw [valid] at left le_valid
      omega

end

/-! ### Whole runs -/

section
variable {desc : SpidmaDesc} {ring : Ring}

theorem Holds.step (holds : Holds desc ring) (interrupt : Interrupt) :
    Holds desc ((spidma desc).step ring interrupt).1 := by
  have received := holds.receive interrupt.bytes
  change Holds desc (spidmaIsr desc interrupt
    (interrupt.bytes.foldl (Spidma.receiveByte desc) ring))
  rw [spidmaIsr]
  split
  · exact received.spidmaRxHandler _
  · exact ⟨received.readptr, received.reached, received.room, received.carries⟩

theorem Delivers.step_iff (delivers : Delivers desc ring) (holds : Holds desc ring)
    (interrupt : Interrupt) :
    Delivers desc ((spidma desc).step ring interrupt).1 ↔ Covered desc ring interrupt := by
  have passes := delivers.toPasses.receive interrupt.bytes
  change Delivers desc
    (spidmaIsr desc interrupt (interrupt.bytes.foldl (receiveByte desc) ring)) ↔ _
  rw [spidmaIsr, Covered]
  cases serves : interrupt.serves with
  | some timeout =>
      simp only [Option.some.injEq, forall_eq']
      exact passes.spidmaRxHandler_iff (holds.receive interrupt.bytes) timeout
  | none => exact iff_of_true ⟨⟨passes.inside, passes.data, passes.bounded⟩, nofun⟩ nofun

/-- The interrupts hand over chunks of the ring that make up the stream, after a timeout all of it,
exactly if each service has a handler for what it takes and starts at a node or stays in front of
the end of the ring. -/
theorem ring_delivers_iff (desc : SpidmaDesc) (rxbuf : Memory UInt8)
    (interrupts : List Interrupt) :
    (∀ front, front <+: interrupts → Delivers desc ((spidma desc).run (spidmaOpen rxbuf) front)) ↔
      (spidma desc).Always (Covered desc) (spidmaOpen rxbuf) interrupts :=
  (spidma desc).forall_run_iff_always (Covered desc) (Holds desc) (Delivers desc)
    (fun interrupt holds => holds.step interrupt)
    (fun interrupt holds delivers => delivers.step_iff holds interrupt)
    (holds_spidmaOpen desc rxbuf) ⟨⟨nofun, rfl, Nat.le_refl 0⟩, nofun⟩ interrupts

end

/-- A ring of the smallest size with two nodes. -/
def twoNodes : SpidmaDesc where
  rxbufLen := 1024
  nodeLen := 512
  rxHandler := true
  exponent := ⟨10, by decide, rfl⟩
  divides := ⟨2, rfl⟩

theorem not_delivers_of_full {ring : Ring} (holds : Holds twoNodes ring)
    (delivers : Delivers twoNodes ring) (read_eq : ring.read = 1)
    (length_eq : ring.stream.length = 1) :
    ¬Delivers twoNodes ((spidma twoNodes).step ring ⟨List.replicate 1024 0, 2⟩).1 := by
  rw [delivers.step_iff holds]
  intro covered
  obtain ⟨-, whole⟩ := covered true rfl
  have room : ring.stream.length + (List.replicate 1024 (0 : UInt8)).length ≤
      ring.read + twoNodes.rxbufLen := by
    rw [read_eq, length_eq, List.length_replicate]
    exact Nat.le_refl 1025
  obtain ⟨stream_eq, read_eq'⟩ := receive_of_room room
  rw [valid, stream_eq, read_eq', read_eq, List.length_append, length_eq,
    List.length_replicate] at whole
  exact absurd whole (by decide)

/-- After a timeout with one byte, one with a full ring hands over a chunk of 512 bytes from 513
on. -/
theorem chunk_around_end :
    ¬Delivers twoNodes ((spidma twoNodes).run (spidmaOpen fun _ => 0)
      [⟨[0], 2⟩, ⟨List.replicate 1024 0, 2⟩]) := by
  have holds := holds_spidmaOpen twoNodes fun _ => 0
  have delivers : Delivers twoNodes (spidmaOpen fun _ => 0) := ⟨⟨nofun, rfl, Nat.le_refl 0⟩, nofun⟩
  have first : Delivers twoNodes ((spidma twoNodes).step (spidmaOpen fun _ => 0) ⟨[0], 2⟩).1 :=
    (delivers.step_iff holds _).mpr fun _ _ => ⟨Or.inl rfl, Or.inl rfl⟩
  exact not_delivers_of_full (holds.step _) first (first.all rfl) rfl

end BdkFreertos.Spidma
