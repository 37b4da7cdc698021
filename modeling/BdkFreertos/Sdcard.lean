import BdkFreertos.Machine
import Mathlib.Data.UInt

/-!
# Multi-block sessions of the SD card

A multi-block call leaves its transfer open, and the next one goes on with it when it asks for the
block after the last.  The driver remembers the open transfer in three globals; whether they say what
the card is doing depends on every call before.
-/

namespace BdkFreertos.Sdcard

/-- `SD_OK`. -/
def sdOk : ℕ := 0

/-- `SD_CMD_CRC_FAIL`. -/
def sdCmdCrcFail : ℕ := 1

/-- `SD_DATA_CRC_FAIL`. -/
def sdDataCrcFail : ℕ := 2

/-- `SD_CMD_RSP_TIMEOUT`. -/
def sdCmdRspTimeout : ℕ := 3

/-- `SD_DATA_TIMEOUT`. -/
def sdDataTimeout : ℕ := 4

def sdError : ℕ := 9

inductive Direction
  /-- `SDIO_RD_DATA`. -/
  | read
  /-- `SDIO_WR_DATA`. -/
  | write
  deriving DecidableEq

/-! ## The card -/

inductive Card
  | idle
  /-- A transfer of blocks from a position on: the card sends when the host reads. -/
  | open (direction : Direction) (position : UInt32)
  | single (position : UInt32)
  deriving DecidableEq

/-- What the host does on the bus. -/
inductive Action
  | start
  /-- CMD12, for a transfer of the given direction. -/
  | stop (direction : Direction)
  /-- A data block, and the position the caller has asked for, if it has asked for one more. -/
  | block (direction : Direction) (asked : Option UInt32)
  deriving DecidableEq

/-- An action, with the card in front of it. -/
structure Step where
  card : Card
  action : Action
  deriving DecidableEq

/-- The action is one for what the card is doing. -/
def Step.Proper (step : Step) : Prop :=
  match step.action with
  | .start => step.card = .idle
  | .stop direction => ∃ position, step.card = .open direction position
  | .block direction asked =>
      ∃ position, asked = some position ∧
        (step.card = .open direction position ∨
          direction = .read ∧ step.card = .single position)

/-- The card and what has been done so far. -/
structure Bus where
  card : Card
  steps : List Step
  deriving DecidableEq

/-- The answer to a command.  One that is damaged or missing says nothing about whether the card has
taken the command. -/
inductive Response
  | ok
  | crcFail (taken : Bool)
  | timeout (taken : Bool)
  deriving DecidableEq

/-- The card has taken the command. -/
def Response.taken : Response → Bool
  | .ok => true
  | .crcFail taken | .timeout taken => taken

/-- `sdio_wait_cmd_response`. -/
def Response.err : Response → ℕ
  | .ok => sdOk
  | .crcFail _ => sdCmdCrcFail
  | .timeout _ => sdCmdRspTimeout

/-- CMD12. -/
def Bus.stop (bus : Bus) (direction : Direction) (response : Response) : Bus where
  card := if response.taken then .idle else bus.card
  steps := bus.steps ++ [⟨bus.card, .stop direction⟩]

/-- A command that opens a transfer; a card that is not idle ignores it. -/
def Bus.start (bus : Bus) (target : Card) (response : Response) : Bus where
  card := if response.taken ∧ bus.card = .idle then target else bus.card
  steps := bus.steps ++ [⟨bus.card, .start⟩]

/-- The card after one block. -/
def Card.advance : Card → Card
  | .idle => .idle
  | .open direction position => .open direction (position + 1)
  | .single _ => .idle

/-- A data block. -/
def Bus.block (bus : Bus) (direction : Direction) (asked : Option UInt32) : Bus where
  card := bus.card.advance
  steps := bus.steps ++ [⟨bus.card, .block direction asked⟩]

/-- The block at which a command's argument points, for a card whose addresses are shifted. -/
def cardBlock (addrShiftBit address : UInt32) : UInt32 := (address <<< addrShiftBit) >>> addrShiftBit

/-! ## The driver -/

/-- `SDIO_WR_flag`, `no_need_send_cmd12_flag`, `last_WR_addr`, and the card. -/
structure SdcardState where
  sdioWrFlag : Direction
  noNeedSendCmd12Flag : Bool
  lastWrAddr : UInt32
  card : Card
  deriving DecidableEq

/-- After `sdcard_initialize`. -/
def sdcardInitialize : SdcardState := ⟨.read, true, 0, .idle⟩

/-- What becomes of a block that is read. -/
inductive ReadBlock
  | ok
  | crcFail
  | timeout
  deriving DecidableEq

/-- How the card answers during a multi-block call: to the stop before it, with the status of a write
stop; to the opening command; with the data; and to the stop after an error, with its status. -/
structure Answers (Block : Type) where
  stop : Response
  stopStatusOk : Bool
  opening : Response
  data : ℕ → Block
  final : Response
  finalStatusOk : Bool

def Answers.AllTaken {Block : Type} (answers : Answers Block) : Prop :=
  answers.stop.taken = true ∧ answers.opening.taken = true ∧ answers.final.taken = true

/-- The block which the caller has asked for as its k-th one. -/
def askedBlock (first count : UInt32) (k : ℕ) : Option UInt32 :=
  if k < count.toNat then some (first + UInt32.ofNat k) else none

def sdcardSendReadStop (bus : Bus) (response : Response) : ℕ × Bus :=
  (response.err, bus.stop .read response)

def sdcardSendWriteStop (bus : Bus) (statusOk : Bool) (response : Response) (err : ℕ) : ℕ × Bus :=
  ((if statusOk then sdOk else sdError) + response.err + err, bus.stop .write response)

/-- The loop of `sdcard_rcv_data` for so many more blocks. -/
def rcvLoop (data : ℕ → ReadBlock) (first count : UInt32) : ℕ → ℕ → ℕ → Bus → ℕ × Bus
  | 0, _, ret, bus => (ret, bus)
  | left + 1, k, ret, bus =>
      match data k with
      | .timeout => (sdDataTimeout, bus)
      | .ok =>
          rcvLoop data first count left (k + 1) ret (bus.block .read (askedBlock first count k))
      | .crcFail =>
          rcvLoop data first count left (k + 1) sdDataCrcFail
            (bus.block .read (askedBlock first count k))

/-- `sdcard_rcv_data`; the number of bytes has 32 bits, and the loop ends after a block. -/
def sdcardRcvData (data : ℕ → ReadBlock) (first count : UInt32) (bus : Bus) : ℕ × Bus :=
  let size := count <<< 9
  rcvLoop data first count (max 1 (size.toNat / 512)) 0 sdOk bus

/-- The loop of `sdcard_write_data` for so many more blocks; `data k` is whether block k is
accepted. -/
def writeLoop (data : ℕ → Bool) (first count : UInt32) : ℕ → ℕ → Bus → ℕ × Bus
  | 0, _, bus => (sdOk, bus)
  | left + 1, k, bus =>
      let bus := bus.block .write (askedBlock first count k)
      if data k then writeLoop data first count left (k + 1) bus else (sdError, bus)

def sdcardWriteData (data : ℕ → Bool) (first count : UInt32) (firstDataAfterCmd : Bool) (bus : Bus) :
    ℕ × Bus :=
  if firstDataAfterCmd then
    writeLoop data first count (count - 1).toNat 1
      (bus.block .write (askedBlock first count 0))
  else writeLoop data first count count.toNat 0 bus

/-- `op_flag`. -/
inductive OpFlag
  | continue
  | otherStop
  | stop
  | stopped
  deriving DecidableEq

/-- The tests before a multi-block call of the given direction. -/
def opFlag (state : SdcardState) (direction : Direction) (first : UInt32) : OpFlag :=
  if state.sdioWrFlag ≠ direction then
    .otherStop
  else if state.noNeedSendCmd12Flag then
    .stopped
  else if state.lastWrAddr = first then
    .continue
  else .stop

/-- `sdcard_read_multi_block` up to its data. -/
def beginRead (addrShiftBit : UInt32) (op : OpFlag) (first count : UInt32)
    (answers : Answers ReadBlock) (bus : Bus) : ℕ × Bus :=
  if op = .continue then
    sdcardRcvData answers.data first count bus
  else
    let (ret, bus) :=
      match op with
      | .otherStop => sdcardSendWriteStop bus answers.stopStatusOk answers.stop 0
      | .stop => sdcardSendReadStop bus answers.stop
      | _ => (sdOk, bus)
    let bus := bus.start (.open .read (cardBlock addrShiftBit first)) answers.opening
    let ret := ret + answers.opening.err
    if ret = sdOk then sdcardRcvData answers.data first count bus else (ret, bus)

def sdcardReadMultiBlock (addrShiftBit : UInt32) (state : SdcardState) (first count : UInt32)
    (answers : Answers ReadBlock) : SdcardState × List Step :=
  let (ret, bus) :=
    beginRead addrShiftBit (opFlag state .read first) first count answers ⟨state.card, []⟩
  if ret ≠ sdOk then
    let (_, bus) := sdcardSendReadStop bus answers.final
    (⟨.read, true, first + count, bus.card⟩, bus.steps)
  else (⟨.read, false, first + count, bus.card⟩, bus.steps)

/-- `sdcard_write_multi_block` up to its data. -/
def beginWrite (addrShiftBit : UInt32) (op : OpFlag) (first count : UInt32) (answers : Answers Bool)
    (bus : Bus) : ℕ × Bus :=
  if op = .continue then
    sdcardWriteData answers.data first count false bus
  else
    let (ret, bus) :=
      match op with
      | .otherStop => sdcardSendReadStop bus answers.stop
      | .stop => sdcardSendWriteStop bus answers.stopStatusOk answers.stop 0
      | _ => (sdOk, bus)
    let bus := bus.start (.open .write (cardBlock addrShiftBit first)) answers.opening
    let ret := ret + answers.opening.err
    if ret = sdOk then sdcardWriteData answers.data first count true bus else (ret, bus)

def sdcardWriteMultiBlock (addrShiftBit : UInt32) (state : SdcardState) (first count : UInt32)
    (answers : Answers Bool) : SdcardState × List Step :=
  let (ret, bus) :=
    beginWrite addrShiftBit (opFlag state .write first) first count answers ⟨state.card, []⟩
  if ret ≠ sdOk then
    let (_, bus) := sdcardSendWriteStop bus answers.finalStatusOk answers.final ret
    (⟨.write, true, first + count, bus.card⟩, bus.steps)
  else (⟨.write, false, first + count, bus.card⟩, bus.steps)

/-- A transfer of one block ends by itself. -/
def Card.settle : Card → Card
  | .single _ => .idle
  | card => card

def sdcardReadSingleBlock (addrShiftBit address : UInt32) (response : Response) (data : ReadBlock)
    (bus : Bus) : ℕ × Bus :=
  let bus := bus.start (.single (cardBlock addrShiftBit address)) response
  if response.err ≠ sdOk then
    (response.err, { bus with card := bus.card.settle })
  else
    match data with
    | .timeout => (sdDataTimeout, { bus with card := bus.card.settle })
    | .crcFail => (sdDataCrcFail, bus.block .read (some address))
    | .ok => (sdOk, bus.block .read (some address))

/-- The loop of `sdcard_read` for so many more blocks. -/
def readLoop (addrShiftBit : UInt32) (responses : ℕ → Response) (data : ℕ → ReadBlock) :
    ℕ → ℕ → UInt32 → Bus → Bus
  | 0, _, _, bus => bus
  | left + 1, numb, address, bus =>
      let (result, bus) :=
        sdcardReadSingleBlock addrShiftBit address (responses numb) (data numb) bus
      if result ≠ sdOk then bus
      else readLoop addrShiftBit responses data left (numb + 1) (address + 1) bus

/-- `sdcard_read`, which counts the blocks in eight bits. -/
def sdcardRead (addrShiftBit : UInt32) (state : SdcardState) (address count : UInt32)
    (responses : ℕ → Response) (data : ℕ → ReadBlock) : SdcardState × List Step :=
  let bus := readLoop addrShiftBit responses data count.toUInt8.toNat 0 address ⟨state.card, []⟩
  ({ state with card := bus.card }, bus.steps)

inductive Event
  | read (address count : UInt32) (responses : ℕ → Response) (data : ℕ → ReadBlock)
  | readMultiBlock (first count : UInt32) (answers : Answers ReadBlock)
  | writeMultiBlock (first count : UInt32) (answers : Answers Bool)

def machine (addrShiftBit : UInt32) : Machine SdcardState Event (List Step) where
  step state
    | .read address count responses data =>
        sdcardRead addrShiftBit state address count responses data
    | .readMultiBlock first count answers =>
        sdcardReadMultiBlock addrShiftBit state first count answers
    | .writeMultiBlock first count answers =>
        sdcardWriteMultiBlock addrShiftBit state first count answers

/-! ## The bus -/

def Bus.Proper (bus : Bus) : Prop := ∀ step ∈ bus.steps, step.Proper

theorem proper_append {steps : List Step} {last : Step} (proper : ∀ step ∈ steps, step.Proper)
    (next : last.Proper) : ∀ step ∈ steps ++ [last], step.Proper := by
  intro step member
  rcases List.mem_append.mp member with earlier | latest
  · exact proper step earlier
  · rw [List.mem_singleton.mp latest]
    exact next

namespace Bus

variable {bus : Bus}

variable {direction : Direction} {response : Response}

theorem stop_proper (proper : bus.Proper) {position : UInt32}
    (card : bus.card = .open direction position) (taken : response.taken = true) :
    (bus.stop direction response).Proper ∧ (bus.stop direction response).card = .idle := by
  refine ⟨proper_append proper ⟨position, card⟩, ?_⟩
  simp [Bus.stop, taken]

theorem start_proper (proper : bus.Proper) (card : bus.card = .idle) (target : Card)
    (taken : response.taken = true) :
    (bus.start target response).Proper ∧ (bus.start target response).card = target := by
  refine ⟨proper_append proper card, ?_⟩
  simp [Bus.start, taken, card]

theorem block_proper (proper : bus.Proper) {first count : UInt32} {k : ℕ}
    (card : bus.card = .open direction (first + UInt32.ofNat k)) (within : k < count.toNat) :
    (bus.block direction (askedBlock first count k)).Proper ∧
      (bus.block direction (askedBlock first count k)).card =
        .open direction (first + UInt32.ofNat (k + 1)) := by
  constructor
  · refine proper_append proper ⟨first + UInt32.ofNat k, ?_, Or.inl card⟩
    rw [askedBlock, if_pos within]
  · have next : UInt32.ofNat (k + 1) = UInt32.ofNat k + 1 := UInt32.ofNat_add k 1
    rw [Bus.block, card, next, ← UInt32.add_assoc]
    rfl

end Bus

variable {direction : Direction} {first count : UInt32} {k : ℕ} {bus : Bus} {state : SdcardState}
  {position addrShiftBit : UInt32} {op : OpFlag} {answers : Answers ReadBlock} {address : UInt32}
  (data : ℕ → ReadBlock)

theorem Direction.eq_write (different : direction ≠ .read) : direction = .write := by
  cases direction with
  | read => exact absurd rfl different
  | write => rfl

theorem Direction.eq_read (different : direction ≠ .write) : direction = .read := by
  cases direction with
  | read => rfl
  | write => exact absurd rfl different

/-! ## Moving the data -/

/-- An open transfer, which is behind its last block when there was no error. -/
structure Moved (direction : Direction) (position : UInt32) (result : ℕ × Bus) : Prop where
  proper : result.2.Proper
  card : ∃ reached, result.2.card = .open direction reached ∧
    (result.1 = sdOk → reached = position)

theorem rcvLoop_moved {left : ℕ} (ret : ℕ) (proper : bus.Proper)
    (card : bus.card = .open .read (first + UInt32.ofNat k)) (within : k + left ≤ count.toNat) :
    Moved .read (first + UInt32.ofNat (k + left)) (rcvLoop data first count left k ret bus) := by
  induction left generalizing k ret bus with
  | zero => exact ⟨proper, _, card, fun _ => rfl⟩
  | succ left induction =>
      obtain ⟨nextProper, nextCard⟩ :=
        bus.block_proper proper card (show k < count.toNat by omega)
      have rest (ret : ℕ) := induction ret nextProper nextCard (by omega)
      have position : k + 1 + left = k + (left + 1) := by omega
      rw [rcvLoop]
      split
      · exact ⟨proper, _, card, fun ok => absurd ok (show sdDataTimeout ≠ sdOk by decide)⟩
      · exact position ▸ rest ret
      · exact position ▸ rest sdDataCrcFail

theorem sdcardRcvData_moved (proper : bus.Proper) (card : bus.card = .open .read first)
    (some : 0 < count.toNat) (small : count.toNat < 2 ^ 23) :
    Moved .read (first + count) (sdcardRcvData data first count bus) := by
  have blocks : max 1 ((count <<< 9).toNat / 512) = count.toNat := by
    rw [UInt32.toNat_shiftLeft, Nat.shiftLeft_eq]
    have shift : (9 : UInt32).toNat % 32 = 9 := rfl
    rw [shift]
    omega
  have start : bus.card = .open .read (first + UInt32.ofNat 0) := by
    rw [card]
    simp
  have moved := rcvLoop_moved data sdOk proper start (Nat.le_of_eq (Nat.zero_add count.toNat))
  rw [Nat.zero_add, UInt32.ofNat_toNat] at moved
  rw [sdcardRcvData, blocks]
  exact moved

theorem writeLoop_moved (data : ℕ → Bool) {left : ℕ} (proper : bus.Proper)
    (card : bus.card = .open .write (first + UInt32.ofNat k)) (within : k + left ≤ count.toNat) :
    Moved .write (first + UInt32.ofNat (k + left)) (writeLoop data first count left k bus) := by
  induction left generalizing k bus with
  | zero => exact ⟨proper, _, card, fun _ => rfl⟩
  | succ left induction =>
      obtain ⟨nextProper, nextCard⟩ :=
        bus.block_proper proper card (show k < count.toNat by omega)
      have rest := induction nextProper nextCard (by omega)
      have position : k + 1 + left = k + (left + 1) := by omega
      rw [writeLoop]
      split
      · exact position ▸ rest
      · exact ⟨nextProper, _, nextCard, fun ok => absurd ok (show sdError ≠ sdOk by decide)⟩

/-- A write moves as many blocks as it is asked for; the first one after a command must be one of
them. -/
theorem sdcardWriteData_moved (data : ℕ → Bool) {firstDataAfterCmd : Bool} (proper : bus.Proper)
    (card : bus.card = .open .write first) (some : firstDataAfterCmd = true → count ≠ 0) :
    Moved .write (first + count) (sdcardWriteData data first count firstDataAfterCmd bus) := by
  have start : bus.card = .open .write (first + UInt32.ofNat 0) := by
    rw [card]
    simp
  cases firstDataAfterCmd with
  | false =>
      have moved := writeLoop_moved data proper start (Nat.le_of_eq (Nat.zero_add count.toNat))
      rw [Nat.zero_add, UInt32.ofNat_toNat] at moved
      exact moved
  | true =>
      have positive : 0 < count.toNat := by
        have nonzero := some rfl
        rw [Ne, ← UInt32.toNat_inj, UInt32.toNat_zero] at nonzero
        omega
      have left : (count - 1).toNat = count.toNat - 1 :=
        UInt32.toNat_sub_of_le count 1 (UInt32.le_iff_toNat_le.mpr positive)
      obtain ⟨nextProper, nextCard⟩ := bus.block_proper proper start positive
      have position : 0 + 1 + (count.toNat - 1) = count.toNat := by omega
      have moved := writeLoop_moved data nextProper nextCard (Nat.le_of_eq position)
      rw [position, UInt32.ofNat_toNat] at moved
      rw [sdcardWriteData, if_pos rfl, left]
      exact moved

/-! ## What the globals say -/

/-- The globals say what the card is doing. -/
structure Mirrors (state : SdcardState) : Prop where
  stopped : state.noNeedSendCmd12Flag = true → state.card = .idle
  opened : state.noNeedSendCmd12Flag = false →
    state.card = .open state.sdioWrFlag state.lastWrAddr

theorem mirrors_sdcardInitialize : Mirrors sdcardInitialize :=
  ⟨fun _ => rfl, fun running => absurd running (by decide)⟩

/-- The calls that the globals are made for.  Single blocks are read between the sessions, the
direction changes while a session is open, the card takes the commands of a session, and the blocks
are ones that can be counted and addressed. -/
def Meets (addrShiftBit : UInt32) (state : SdcardState) : Event → Prop
  | .read address count _ _ =>
      (count.toUInt8 ≠ 0 → state.noNeedSendCmd12Flag = true) ∧
        ∀ numb < count.toUInt8.toNat,
          cardBlock addrShiftBit (address + UInt32.ofNat numb) = address + UInt32.ofNat numb
  | .readMultiBlock first count answers =>
      answers.AllTaken ∧ (state.sdioWrFlag = .write → state.noNeedSendCmd12Flag = false) ∧
        0 < count.toNat ∧ count.toNat < 2 ^ 23 ∧
        (opFlag state .read first ≠ .continue → cardBlock addrShiftBit first = first)
  | .writeMultiBlock first count answers =>
      answers.AllTaken ∧ (state.sdioWrFlag = .read → state.noNeedSendCmd12Flag = false) ∧
        (opFlag state .write first ≠ .continue → count ≠ 0 ∧ cardBlock addrShiftBit first = first)

/-- What the tests before a call find, when the globals say what the card is doing and the direction
changes only while a session is open. -/
inductive Found (direction : Direction) (first : UInt32) (card : Card) : OpFlag → Prop
  | continue (at_first : card = .open direction first) : Found direction first card .continue
  | otherStop (other : Direction) (different : other ≠ direction) (position : UInt32)
      (at_other : card = .open other position) : Found direction first card .otherStop
  | stop (position : UInt32) (elsewhere : card = .open direction position) :
      Found direction first card .stop
  | stopped (idle : card = .idle) : Found direction first card .stopped

theorem opFlag_found (mirrors : Mirrors state)
    (changes : state.sdioWrFlag ≠ direction → state.noNeedSendCmd12Flag = false) (first : UInt32) :
    Found direction first state.card (opFlag state direction first) := by
  rw [opFlag]
  split
  next different =>
    exact .otherStop state.sdioWrFlag different state.lastWrAddr (mirrors.opened (changes different))
  next same =>
    rw [not_not] at same
    split
    next stopped => exact .stopped (mirrors.stopped stopped)
    next running =>
      have card := mirrors.opened (Bool.eq_false_iff.mpr running)
      rw [same] at card
      split
      next here => exact .continue (here ▸ card)
      next => exact .stop state.lastWrAddr card

/-- The opening command after the bus has become idle, and the data after it. -/
theorem opened_moved (proper : bus.Proper) (card : bus.card = .idle) {response : Response}
    (taken : response.taken = true) (ret : ℕ) {data : Bus → ℕ × Bus} {last : UInt32}
    (moves : ∀ bus : Bus, bus.Proper → bus.card = .open direction position →
      Moved direction last (data bus)) :
    Moved direction last
      (if ret + response.err = sdOk then data (bus.start (.open direction position) response)
        else (ret + response.err, bus.start (.open direction position) response)) := by
  obtain ⟨startProper, startCard⟩ :=
    bus.start_proper proper card (.open direction position) taken
  split
  · exact moves _ startProper startCard
  next failed => exact ⟨startProper, position, startCard, fun ok => absurd ok failed⟩

theorem beginRead_moved {card : Card} (found : Found .read first card op) (taken : answers.AllTaken)
    (some : 0 < count.toNat) (small : count.toNat < 2 ^ 23)
    (addressed : op ≠ .continue → cardBlock addrShiftBit first = first) :
    Moved .read (first + count) (beginRead addrShiftBit op first count answers ⟨card, []⟩) := by
  have fresh : Bus.Proper ⟨card, []⟩ := by simp [Bus.Proper]
  have moves (bus : Bus) (proper : bus.Proper) (at_first : bus.card = .open .read first) :
      Moved .read (first + count) (sdcardRcvData answers.data first count bus) :=
    sdcardRcvData_moved answers.data proper at_first some small
  rw [beginRead.eq_def]
  cases found with
  | «continue» at_first => exact moves _ fresh at_first
  | otherStop other different position at_other =>
      obtain rfl := Direction.eq_write different
      obtain ⟨stopProper, stopCard⟩ := Bus.stop_proper fresh at_other taken.1
      rw [if_neg (by decide), addressed (by decide)]
      exact opened_moved stopProper stopCard taken.2.1 _ moves
  | stop position elsewhere =>
      obtain ⟨stopProper, stopCard⟩ := Bus.stop_proper fresh elsewhere taken.1
      rw [if_neg (by decide), addressed (by decide)]
      exact opened_moved stopProper stopCard taken.2.1 _ moves
  | stopped idle =>
      rw [if_neg (by decide), addressed (by decide)]
      exact opened_moved fresh idle taken.2.1 _ moves

theorem beginWrite_moved {answers : Answers Bool} {card : Card} (found : Found .write first card op)
    (taken : answers.AllTaken)
    (addressed : op ≠ .continue → count ≠ 0 ∧ cardBlock addrShiftBit first = first) :
    Moved .write (first + count) (beginWrite addrShiftBit op first count answers ⟨card, []⟩) := by
  have fresh : Bus.Proper ⟨card, []⟩ := by simp [Bus.Proper]
  have moves (some : count ≠ 0) (bus : Bus) (proper : bus.Proper)
      (at_first : bus.card = .open .write first) :
      Moved .write (first + count) (sdcardWriteData answers.data first count true bus) :=
    sdcardWriteData_moved answers.data proper at_first fun _ => some
  rw [beginWrite.eq_def]
  cases found with
  | «continue» at_first =>
      rw [if_pos rfl]
      exact sdcardWriteData_moved answers.data fresh at_first fun bad => absurd bad (by decide)
  | otherStop other different position at_other =>
      obtain rfl := Direction.eq_read different
      obtain ⟨some, target⟩ := addressed (by decide)
      obtain ⟨stopProper, stopCard⟩ := Bus.stop_proper fresh at_other taken.1
      rw [if_neg (by decide), target]
      exact opened_moved stopProper stopCard taken.2.1 _ (moves some)
  | stop position elsewhere =>
      obtain ⟨some, target⟩ := addressed (by decide)
      obtain ⟨stopProper, stopCard⟩ := Bus.stop_proper fresh elsewhere taken.1
      rw [if_neg (by decide), target]
      exact opened_moved stopProper stopCard taken.2.1 _ (moves some)
  | stopped idle =>
      obtain ⟨some, target⟩ := addressed (by decide)
      rw [if_neg (by decide), target]
      exact opened_moved fresh idle taken.2.1 _ (moves some)

/-! ## Whole calls -/

/-- After a proper call the globals say again what the card is doing. -/
structure Served (result : SdcardState × List Step) : Prop where
  proper : ∀ step ∈ result.2, step.Proper
  mirrors : Mirrors result.1

/-- A multi-block call ends with a stop after an error and leaves its transfer open otherwise. -/
theorem Moved.served {result : ℕ × Bus} (moved : Moved direction position result) {final : Response}
    (taken : final.taken = true) :
    Served (if result.1 ≠ sdOk then
        (⟨direction, true, position, (result.2.stop direction final).card⟩,
          (result.2.stop direction final).steps)
      else (⟨direction, false, position, result.2.card⟩, result.2.steps)) := by
  obtain ⟨proper, reached, card, behind⟩ := moved
  split
  next failed =>
    obtain ⟨stopProper, stopCard⟩ := result.2.stop_proper proper card taken
    exact ⟨stopProper, fun _ => stopCard, fun running => absurd running (by simp)⟩
  next ok =>
    rw [not_not] at ok
    rw [behind ok] at card
    exact ⟨proper, fun stopped => absurd stopped (by simp), fun _ => card⟩

theorem sdcardReadMultiBlock_served (mirrors : Mirrors state)
    (meets : Meets addrShiftBit state (.readMultiBlock first count answers)) :
    Served (sdcardReadMultiBlock addrShiftBit state first count answers) := by
  obtain ⟨taken, changes, some, small, addressed⟩ := meets
  have found : Found .read first state.card (opFlag state .read first) := by
    apply opFlag_found mirrors
    intro different
    exact changes (Direction.eq_write different)
  exact (beginRead_moved found taken some small addressed).served taken.2.2

theorem sdcardWriteMultiBlock_served (mirrors : Mirrors state) {answers : Answers Bool}
    (meets : Meets addrShiftBit state (.writeMultiBlock first count answers)) :
    Served (sdcardWriteMultiBlock addrShiftBit state first count answers) := by
  obtain ⟨taken, changes, addressed⟩ := meets
  have found : Found .write first state.card (opFlag state .write first) := by
    apply opFlag_found mirrors
    intro different
    exact changes (Direction.eq_read different)
  exact (beginWrite_moved found taken addressed).served taken.2.2

/-- A single block is read from an idle card, which is idle again afterwards. -/
theorem sdcardReadSingleBlock_proper (proper : bus.Proper) (card : bus.card = .idle)
    (addressed : cardBlock addrShiftBit address = address) (response : Response)
    (data : ReadBlock) :
    (sdcardReadSingleBlock addrShiftBit address response data bus).2.Proper ∧
      (sdcardReadSingleBlock addrShiftBit address response data bus).2.card = .idle := by
  have begun : (bus.start (.single address) response).Proper := proper_append proper card
  have settled : (bus.start (.single address) response).card.settle = .idle := by
    rw [Bus.start, card]
    split <;> rfl
  rw [sdcardReadSingleBlock.eq_def, addressed]
  dsimp only
  split
  · exact ⟨begun, settled⟩
  next ok =>
    have taken : response.taken = true := by
      cases response with
      | ok => rfl
      | crcFail => exact absurd (show sdCmdCrcFail ≠ sdOk by decide) ok
      | timeout => exact absurd (show sdCmdRspTimeout ≠ sdOk by decide) ok
    have single : (bus.start (.single address) response).card = .single address :=
      (bus.start_proper proper card (.single address) taken).2
    have moved : ((bus.start (.single address) response).block .read (some address)).Proper ∧
        ((bus.start (.single address) response).block .read (some address)).card = .idle := by
      constructor
      · exact proper_append begun ⟨address, rfl, Or.inr ⟨rfl, single⟩⟩
      · rw [Bus.block, single]
        rfl
    cases data with
    | ok => exact moved
    | crcFail => exact moved
    | timeout => exact ⟨begun, settled⟩

theorem readLoop_proper (responses : ℕ → Response) (data : ℕ → ReadBlock) (left numb : ℕ)
    (proper : bus.Proper) (card : bus.card = .idle) (addressed : ∀ later < left,
      cardBlock addrShiftBit (address + UInt32.ofNat later) = address + UInt32.ofNat later) :
    (readLoop addrShiftBit responses data left numb address bus).Proper ∧
      (readLoop addrShiftBit responses data left numb address bus).card = .idle := by
  induction left generalizing numb address bus with
  | zero => exact ⟨proper, card⟩
  | succ left induction =>
      have here : cardBlock addrShiftBit address = address := by
        simpa using addressed 0 (Nat.succ_pos left)
      have single := sdcardReadSingleBlock_proper proper card here (responses numb) (data numb)
      rw [readLoop]
      generalize sdcardReadSingleBlock addrShiftBit address (responses numb) (data numb) bus =
        result at single
      obtain ⟨ret, next⟩ := result
      dsimp only at single ⊢
      split
      · exact single
      · refine induction (numb + 1) single.1 single.2 fun later inside => ?_
        have shifted : address + 1 + UInt32.ofNat later = address + UInt32.ofNat (later + 1) := by
          rw [UInt32.ofNat_add, UInt32.add_assoc, UInt32.add_comm 1]
          rfl
        rw [shifted]
        exact addressed (later + 1) (by omega)

theorem sdcardRead_served (mirrors : Mirrors state) {responses : ℕ → Response}
    {data : ℕ → ReadBlock} (meets : Meets addrShiftBit state (.read address count responses data)) :
    Served (sdcardRead addrShiftBit state address count responses data) := by
  obtain ⟨closed, addressed⟩ := meets
  have fresh : Bus.Proper ⟨state.card, []⟩ := by simp [Bus.Proper]
  rw [sdcardRead]
  rcases eq_or_ne count.toUInt8 0 with none | some
  · rw [none]
    exact ⟨fresh, mirrors.stopped, mirrors.opened⟩
  · have stopped := closed some
    obtain ⟨proper, card⟩ :=
      readLoop_proper responses data _ 0 fresh (mirrors.stopped stopped) addressed
    exact ⟨proper, fun _ => card, fun running => absurd (stopped.symm.trans running) (by simp)⟩

theorem step_served (mirrors : Mirrors state) (event : Event)
    (meets : Meets addrShiftBit state event) :
    Served ((machine addrShiftBit).step state event) := by
  cases event with
  | read => exact sdcardRead_served mirrors meets
  | readMultiBlock => exact sdcardReadMultiBlock_served mirrors meets
  | writeMultiBlock => exact sdcardWriteMultiBlock_served mirrors meets

/-- When all calls are ones the globals are made for, every block, every opening command and every
stop is for what the card is doing. -/
theorem sessions_proper (addrShiftBit : UInt32) {events : List Event}
    (meets : (machine addrShiftBit).Always (Meets addrShiftBit) sdcardInitialize events) :
    ∀ steps ∈ (machine addrShiftBit).outputs sdcardInitialize events,
      ∀ step ∈ steps, step.Proper := by
  have served := (machine addrShiftBit).history_induction (Meets addrShiftBit)
    (fun _ outputs state => (∀ steps ∈ outputs, ∀ step ∈ steps, step.Proper) ∧ Mirrors state)
    ⟨fun steps member => absurd member List.not_mem_nil, mirrors_sdcardInitialize⟩
    (fun {_ outputs state event} earlier meets => ?_) meets
  · exact served.1
  · have result := step_served earlier.2 event meets
    refine ⟨fun steps member => ?_, result.mirrors⟩
    rcases List.mem_append.mp member with before | last
    · exact earlier.1 steps before
    · rw [List.mem_singleton.mp last]
      exact result.proper

def obliging {Block : Type} (block : Block) : Answers Block :=
  ⟨.ok, true, .ok, fun _ => block, .ok, true⟩

/-- Blocks 5 and 6 are read, block 7 is read further on, and blocks 8 and 9 are written. -/
def readThenWrite : List Event :=
  [.readMultiBlock 5 2 (obliging .ok), .readMultiBlock 7 1 (obliging .ok),
    .writeMultiBlock 8 2 (obliging true)]

theorem sessions_proper_readThenWrite :
    ((machine 9).outputs sdcardInitialize readThenWrite).flatten.Forall Step.Proper := by
  have meets : (machine 9).Always (Meets 9) sdcardInitialize readThenWrite := by
    refine ⟨?_, ?_, ?_, trivial⟩
    · exact ⟨⟨rfl, rfl, rfl⟩, by decide, by decide, by decide, by decide +kernel⟩
    · exact ⟨⟨rfl, rfl, rfl⟩, by decide, by decide, by decide, by decide +kernel⟩
    · exact ⟨⟨rfl, rfl, rfl⟩, by decide +kernel, by decide +kernel⟩
  rw [List.forall_iff_forall_mem]
  intro step member
  obtain ⟨steps, session, inside⟩ := List.mem_flatten.mp member
  exact sessions_proper 9 meets steps session step inside

/-- The first write after the initialization sends a stop to an idle card. -/
theorem first_write_stops_idle_card :
    ¬ ∀ steps ∈ (machine 9).outputs sdcardInitialize [.writeMultiBlock 0 1 (obliging true)],
      ∀ step ∈ steps, step.Proper := by
  intro every
  have stop : ∃ steps ∈ (machine 9).outputs sdcardInitialize
      [.writeMultiBlock 0 1 (obliging true)], (⟨.idle, .stop .read⟩ : Step) ∈ steps := by
    decide +kernel
  obtain ⟨steps, member, done⟩ := stop
  obtain ⟨position, card⟩ := every steps member _ done
  exact absurd card (by simp)

end BdkFreertos.Sdcard
