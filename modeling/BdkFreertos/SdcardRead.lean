import BdkFreertos.Memory
import BdkFreertos.Sdcard

/-!
# What a read of single blocks reports

`sdcard_read` takes a count of 32 bits, counts the blocks it reads in eight, and returns the count
it was given.
-/

namespace BdkFreertos.SdcardRead

open Sdcard

/-- A call of `sdcard_read_single_block`: the block the card is asked for, the place in the caller's
buffer, and the result. -/
structure BlockRead where
  block : UInt32
  place : ℕ
  result : ℕ
  deriving DecidableEq

/-- The bus, the caller's buffer, and the blocks that were read so far. -/
structure Reading where
  bus : Bus
  buffer : Memory UInt8
  reads : List BlockRead

/-- The card: how far its addresses are shifted, what its blocks hold, and how it answers to the
k-th command of a call. -/
structure CardSide where
  addrShiftBit : UInt32
  contents : UInt32 → Memory UInt8
  responses : ℕ → Response
  data : ℕ → ReadBlock

/-- `SD_DEFAULT_BLOCK_SIZE`. -/
def sdDefaultBlockSize : ℕ := 512

def CardSide.block (card : CardSide) (address : UInt32) : UInt32 :=
  cardBlock card.addrShiftBit address

/-- `sdcard_read_single_block`; a block that is damaged or missing does not reach the buffer. -/
def readSingleBlock (card : CardSide) (place numb : ℕ) (address : UInt32) (reading : Reading) :
    ℕ × Reading :=
  let (ret, bus) :=
    sdcardReadSingleBlock card.addrShiftBit address (card.responses numb) (card.data numb)
      reading.bus
  let bytes := (card.contents (card.block address)).load 0 sdDefaultBlockSize
  (ret,
    { bus
      buffer := if ret = sdOk then reading.buffer.store place bytes else reading.buffer
      reads := reading.reads ++ [⟨card.block address, place, ret⟩] })

/-- The loop of `sdcard_read` for so many more blocks. -/
def readBlocks (card : CardSide) : ℕ → ℕ → UInt32 → ℕ → Reading → ℕ × Reading
  | 0, _, _, _, reading => (sdOk, reading)
  | left + 1, numb, address, place, reading =>
      let (result, reading) := readSingleBlock card place numb address reading
      if result ≠ sdOk then (result, reading)
      else readBlocks card left (numb + 1) (address + 1) (place + sdDefaultBlockSize) reading

/-- `sdcard_read` with its buffer and the count it returns. -/
def sdcardRead (card : CardSide) (state : SdcardState) (buffer : Memory UInt8)
    (count opFlag : UInt32) : UInt32 × Reading :=
  let (result, reading) :=
    readBlocks card count.toUInt8.toNat 0 opFlag 0 ⟨⟨state.card, []⟩, buffer, []⟩
  (if result ≠ sdOk then 0 else count, reading)

/-! ## What is meant -/

def request (start : UInt32) (k : ℕ) : ℕ × ℕ × ℕ :=
  (start.toNat + k, sdDefaultBlockSize * k, sdOk)

def BlockRead.view (read : BlockRead) : ℕ × ℕ × ℕ := (read.block.toNat, read.place, read.result)

/-- A count other than zero means that all its blocks were read, in order, each into its slot;
nothing is read after a failure, and then zero is returned. -/
structure ReadsAll (contents : UInt32 → Memory UInt8) (start count : UInt32)
    (outcome : UInt32 × Reading) : Prop where
  whole : outcome.1 ≠ 0 → outcome.1 = count ∧
    outcome.2.reads.map BlockRead.view = (List.range count.toNat).map (request start)
  filled : outcome.1 ≠ 0 → ∀ k < count.toNat,
    outcome.2.buffer.load (sdDefaultBlockSize * k) sdDefaultBlockSize =
      (contents (start + UInt32.ofNat k)).load 0 sdDefaultBlockSize
  failed : ∀ read ∈ outcome.2.reads, read.result ≠ sdOk →
    outcome.1 = 0 ∧ ∀ earlier ∈ outcome.2.reads.dropLast, earlier.result = sdOk

def CardSide.Fails (card : CardSide) (k : ℕ) : Prop :=
  card.responses k ≠ .ok ∨ card.data k ≠ .ok

instance (card : CardSide) (k : ℕ) : Decidable (card.Fails k) :=
  inferInstanceAs (Decidable (_ ∨ _))

def CardSide.Addressable (card : CardSide) (block : ℕ) : Prop :=
  block < 2 ^ (32 - card.addrShiftBit.toNat % 32)

instance (card : CardSide) (block : ℕ) : Decidable (card.Addressable block) :=
  inferInstanceAs (Decidable (_ < _))

/-- One of the blocks that are counted in eight bits cannot be read, or there are no others and all
of them have an address. -/
def Reports (card : CardSide) (start count : UInt32) : Prop :=
  (∃ k < count.toUInt8.toNat, card.Fails k) ∨
    count.toNat < 2 ^ 8 ∧ ∀ k < count.toNat, card.Addressable (start.toNat + k)

/-! ## One block -/

theorem sdcardReadSingleBlock_ok_iff (card : CardSide) (numb : ℕ) (address : UInt32) (bus : Bus) :
    (sdcardReadSingleBlock card.addrShiftBit address (card.responses numb) (card.data numb) bus).1 =
        sdOk ↔
      ¬card.Fails numb := by
  unfold sdcardReadSingleBlock CardSide.Fails
  cases card.responses numb with
  | ok => cases card.data numb <;> simp [Response.err, sdOk, sdDataTimeout, sdDataCrcFail]
  | crcFail taken => simp [Response.err, sdOk, sdCmdCrcFail]
  | timeout taken => simp [Response.err, sdOk, sdCmdRspTimeout]

variable {card : CardSide} {numb : ℕ} {address : UInt32} {place : ℕ} {reading : Reading}

theorem readSingleBlock_ok_iff :
    (readSingleBlock card place numb address reading).1 = sdOk ↔ ¬card.Fails numb :=
  sdcardReadSingleBlock_ok_iff card numb address reading.bus

theorem readSingleBlock_reads :
    (readSingleBlock card place numb address reading).2.reads =
      reading.reads ++ [⟨card.block address, place,
        (readSingleBlock card place numb address reading).1⟩] := rfl

theorem readSingleBlock_buffer (readable : ¬card.Fails numb) :
    (readSingleBlock card place numb address reading).2.buffer =
      reading.buffer.store place
        ((card.contents (card.block address)).load 0 sdDefaultBlockSize) := by
  have ok := (sdcardReadSingleBlock_ok_iff card numb address reading.bus).mpr readable
  exact if_pos ok

/-! ## The loop -/

/-- The read of a block that succeeds, k blocks behind an address. -/
def goodRead (card : CardSide) (address : UInt32) (place k : ℕ) : BlockRead :=
  ⟨card.block (address + UInt32.ofNat k), place + sdDefaultBlockSize * k, sdOk⟩

theorem goodRead_zero : goodRead card address place 0 = ⟨card.block address, place, sdOk⟩ := by
  simp [goodRead]

theorem goodRead_succ (k : ℕ) :
    goodRead card (address + 1) (place + sdDefaultBlockSize) k =
      goodRead card address place (k + 1) := by
  have address_eq : address + 1 + UInt32.ofNat k = address + UInt32.ofNat (k + 1) := by
    rw [UInt32.ofNat_add, UInt32.add_assoc, UInt32.add_comm 1]
    rfl
  have place_eq :
      place + sdDefaultBlockSize + sdDefaultBlockSize * k =
        place + sdDefaultBlockSize * (k + 1) := by
    rw [Nat.mul_succ]
    omega
  rw [goodRead, goodRead, address_eq, place_eq]

theorem range_goodRead (count : ℕ) :
    goodRead card address place 0 ::
        (List.range count).map (goodRead card (address + 1) (place + sdDefaultBlockSize)) =
      (List.range (count + 1)).map (goodRead card address place) := by
  rw [List.range_succ_eq_map, List.map_cons, List.map_map]
  exact congrArg _ (List.map_congr_left fun k _ => goodRead_succ k)

theorem readBlocks_of_readable (left : ℕ) (readable : ∀ k < left, ¬card.Fails (numb + k)) :
    (readBlocks card left numb address place reading).1 = sdOk ∧
      (readBlocks card left numb address place reading).2.reads =
        reading.reads ++ (List.range left).map (goodRead card address place) := by
  induction left generalizing numb address place reading with
  | zero => simp [readBlocks]
  | succ left induction =>
      have first : ¬card.Fails numb := readable 0 (Nat.succ_pos left)
      have result_eq : (readSingleBlock card place numb address reading).1 = sdOk :=
        readSingleBlock_ok_iff.mpr first
      have rest (k : ℕ) (inside : k < left) : ¬card.Fails (numb + 1 + k) := by
        rw [Nat.add_assoc, Nat.add_comm 1]
        exact readable (k + 1) (Nat.succ_lt_succ inside)
      obtain ⟨ok, reads⟩ := @induction (numb + 1) (address + 1) (place + sdDefaultBlockSize)
        (readSingleBlock card place numb address reading).2 rest
      simp only [readBlocks, if_neg (not_not.mpr result_eq)]
      refine ⟨ok, ?_⟩
      rw [reads, readSingleBlock_reads, result_eq, ← goodRead_zero, List.append_assoc,
        List.singleton_append, range_goodRead]

theorem readBlocks_of_fails (left : ℕ) (fails : ∃ k < left, card.Fails (numb + k)) :
    (readBlocks card left numb address place reading).1 ≠ sdOk ∧
      ∃ done last, (readBlocks card left numb address place reading).2.reads =
        reading.reads ++ (List.range done).map (goodRead card address place) ++ [last] := by
  induction left generalizing numb address place reading with
  | zero =>
      obtain ⟨k, inside, -⟩ := fails
      exact absurd inside (Nat.not_lt_zero k)
  | succ left induction =>
      simp only [readBlocks]
      by_cases first : card.Fails numb
      · have result_ne : (readSingleBlock card place numb address reading).1 ≠ sdOk :=
          fun ok => readSingleBlock_ok_iff.mp ok first
        simp only [if_pos result_ne]
        refine ⟨result_ne, 0, ⟨card.block address, place,
          (readSingleBlock card place numb address reading).1⟩, ?_⟩
        rw [readSingleBlock_reads, List.range_zero, List.map_nil, List.append_nil]
      · have result_eq : (readSingleBlock card place numb address reading).1 = sdOk :=
          readSingleBlock_ok_iff.mpr first
        have rest : ∃ k < left, card.Fails (numb + 1 + k) := by
          obtain ⟨k, inside, fails⟩ := fails
          rcases k with _ | k
          · exact absurd fails first
          · refine ⟨k, Nat.lt_of_succ_lt_succ inside, ?_⟩
            rwa [Nat.add_assoc, Nat.add_comm 1]
        obtain ⟨bad, done, last, reads⟩ := @induction (numb + 1) (address + 1)
          (place + sdDefaultBlockSize) (readSingleBlock card place numb address reading).2 rest
        simp only [if_neg (not_not.mpr result_eq)]
        refine ⟨bad, done + 1, last, ?_⟩
        rw [reads, readSingleBlock_reads, result_eq, ← goodRead_zero, List.append_assoc,
          List.append_assoc, List.singleton_append, ← List.cons_append, range_goodRead,
          ← List.append_assoc]

theorem readBlocks_bus (left : ℕ) :
    (readBlocks card left numb address place reading).2.bus =
      readLoop card.addrShiftBit card.responses card.data left numb address reading.bus := by
  induction left generalizing numb address place reading with
  | zero => rfl
  | succ left induction =>
      simp only [readBlocks, readLoop]
      have result_eq : (readSingleBlock card place numb address reading).1 =
          (sdcardReadSingleBlock card.addrShiftBit address (card.responses numb) (card.data numb)
            reading.bus).1 := rfl
      rw [← result_eq]
      by_cases bad : (readSingleBlock card place numb address reading).1 ≠ sdOk
      · rw [if_pos bad, if_pos bad]
        rfl
      · rw [if_neg bad, if_neg bad]
        exact induction

theorem readBlocks_before (left : ℕ) {index : ℕ} (before : index < place) :
    (readBlocks card left numb address place reading).2.buffer index = reading.buffer index := by
  induction left generalizing numb address place reading with
  | zero => rfl
  | succ left induction =>
      simp only [readBlocks]
      by_cases fails : card.Fails numb
      · have bad : (readSingleBlock card place numb address reading).1 ≠ sdOk :=
          fun ok => readSingleBlock_ok_iff.mp ok fails
        rw [if_pos bad]
        exact congrFun (if_neg bad) index
      · have ok : (readSingleBlock card place numb address reading).1 = sdOk :=
          readSingleBlock_ok_iff.mpr fails
        rw [if_neg (not_not.mpr ok), induction (Nat.lt_add_right _ before),
          readSingleBlock_buffer fails]
        exact Memory.store_apply_of_lt _ _ before

theorem readBlocks_filled (left : ℕ) (readable : ∀ k < left, ¬card.Fails (numb + k)) {k : ℕ}
    (inside : k < left) :
    (readBlocks card left numb address place reading).2.buffer.load
        (place + sdDefaultBlockSize * k) sdDefaultBlockSize =
      (card.contents (card.block (address + UInt32.ofNat k))).load 0 sdDefaultBlockSize := by
  induction left generalizing numb address place reading k with
  | zero => exact absurd inside (Nat.not_lt_zero k)
  | succ left induction =>
      have first : ¬card.Fails numb := readable 0 (Nat.succ_pos left)
      have ok : (readSingleBlock card place numb address reading).1 = sdOk :=
        readSingleBlock_ok_iff.mpr first
      have rest (k : ℕ) (inside : k < left) : ¬card.Fails (numb + 1 + k) := by
        rw [Nat.add_assoc, Nat.add_comm 1]
        exact readable (k + 1) (Nat.succ_lt_succ inside)
      simp only [readBlocks, if_neg (not_not.mpr ok)]
      rcases k with _ | k
      · have slot : ∀ index < sdDefaultBlockSize,
            (readBlocks card left (numb + 1) (address + 1) (place + sdDefaultBlockSize)
                (readSingleBlock card place numb address reading).2).2.buffer (place + index) =
              (readSingleBlock card place numb address reading).2.buffer (place + index) :=
          fun index within => readBlocks_before left (Nat.add_lt_add_left within place)
        have stored := Memory.load_store_self reading.buffer place
          ((card.contents (card.block address)).load 0 sdDefaultBlockSize)
        rw [Memory.length_load] at stored
        simp only [Nat.mul_zero, Nat.add_zero]
        rw [Memory.load_eq_load slot, readSingleBlock_buffer first, stored]
        simp
      · have later := @induction (numb + 1) (address + 1) (place + sdDefaultBlockSize)
          (readSingleBlock card place numb address reading).2 rest k (Nat.lt_of_succ_lt_succ inside)
        have goodRead_eq : goodRead card (address + 1) (place + sdDefaultBlockSize) k =
            goodRead card address place (k + 1) := goodRead_succ k
        simp only [goodRead, BlockRead.mk.injEq] at goodRead_eq
        rw [goodRead_eq.1, goodRead_eq.2.1] at later
        exact later

/-! ## Whole calls -/

/-- The block the card is asked for is the one that is meant exactly if the command has room for its
number. -/
theorem toNat_block (card : CardSide) (start : UInt32) (k : ℕ) :
    (card.block (start + UInt32.ofNat k)).toNat =
      (start.toNat + k) % 2 ^ (32 - card.addrShiftBit.toNat % 32) := by
  have shift_lt : card.addrShiftBit.toNat % 32 < 32 := Nat.mod_lt _ (by decide)
  generalize shift_eq : card.addrShiftBit.toNat % 32 = shift at shift_lt
  have split_eq : 2 ^ 32 = 2 ^ (32 - shift) * 2 ^ shift := by
    rw [← Nat.pow_add, Nat.sub_add_cancel (Nat.le_of_lt shift_lt)]
  rw [CardSide.block, cardBlock, UInt32.toNat_shiftRight, UInt32.toNat_shiftLeft, shift_eq,
    Nat.shiftRight_eq_div_pow, Nat.shiftLeft_eq, split_eq, Nat.mul_mod_mul_right,
    Nat.mul_div_cancel _ (Nat.two_pow_pos shift), UInt32.toNat_add, UInt32.toNat_ofNat',
    Nat.add_mod_mod]
  exact Nat.mod_mod_of_dvd _ ⟨2 ^ shift, split_eq⟩

theorem toNat_block_eq_iff (card : CardSide) (start : UInt32) (k : ℕ) :
    (card.block (start + UInt32.ofNat k)).toNat = start.toNat + k ↔
      card.Addressable (start.toNat + k) := by
  rw [toNat_block, CardSide.Addressable]
  constructor
  · intro same
    rw [← same]
    exact Nat.mod_lt _ (Nat.two_pow_pos _)
  · exact Nat.mod_eq_of_lt

theorem block_of_addressable {card : CardSide} {start : UInt32} {k : ℕ}
    (addressable : card.Addressable (start.toNat + k)) :
    card.block (start + UInt32.ofNat k) = start + UInt32.ofNat k := by
  have small : start.toNat + k < 2 ^ 32 :=
    addressable.trans_le (Nat.pow_le_pow_right (by decide) (Nat.sub_le _ _))
  refine UInt32.toNat_inj.mp ?_
  rw [(toNat_block_eq_iff card start k).mpr addressable, UInt32.toNat_add, UInt32.toNat_ofNat',
    Nat.add_mod_mod, Nat.mod_eq_of_lt small]

variable (card : CardSide) (state : SdcardState) (buffer : Memory UInt8) (count opFlag : UInt32)

theorem sdcardRead_of_fails {card : CardSide}
    (fails : ∃ k < count.toUInt8.toNat, card.Fails k) :
    (sdcardRead card state buffer count opFlag).1 = 0 ∧
      ∃ done last, (sdcardRead card state buffer count opFlag).2.reads =
        (List.range done).map (goodRead card opFlag 0) ++ [last] := by
  have counted : ∃ k < count.toUInt8.toNat, card.Fails (0 + k) := by simpa using fails
  obtain ⟨bad, done, last, reads⟩ := @readBlocks_of_fails card 0 opFlag 0
    ⟨⟨state.card, []⟩, buffer, []⟩ count.toUInt8.toNat counted
  refine ⟨if_pos bad, done, last, ?_⟩
  rw [sdcardRead, reads, List.nil_append]

theorem sdcardRead_of_readable {card : CardSide}
    (readable : ∀ k < count.toUInt8.toNat, ¬card.Fails k) :
    (sdcardRead card state buffer count opFlag).1 = count ∧
      (sdcardRead card state buffer count opFlag).2.reads =
        (List.range count.toUInt8.toNat).map (goodRead card opFlag 0) := by
  have counted : ∀ k < count.toUInt8.toNat, ¬card.Fails (0 + k) := by simpa using readable
  obtain ⟨ok, reads⟩ := @readBlocks_of_readable card 0 opFlag 0
    ⟨⟨state.card, []⟩, buffer, []⟩ count.toUInt8.toNat counted
  exact ⟨if_neg (not_not.mpr ok), reads.trans (List.nil_append _)⟩

theorem sdcardRead_filled {card : CardSide}
    (readable : ∀ k < count.toUInt8.toNat, ¬card.Fails k) {k : ℕ}
    (inside : k < count.toUInt8.toNat) :
    (sdcardRead card state buffer count opFlag).2.buffer.load (sdDefaultBlockSize * k)
        sdDefaultBlockSize =
      (card.contents (card.block (opFlag + UInt32.ofNat k))).load 0 sdDefaultBlockSize := by
  have counted : ∀ k < count.toUInt8.toNat, ¬card.Fails (0 + k) := by simpa using readable
  have filled := @readBlocks_filled card 0 opFlag 0 ⟨⟨state.card, []⟩, buffer, []⟩
    count.toUInt8.toNat counted k inside
  rwa [Nat.zero_add] at filled

theorem sdcardRead_bus :
    (sdcardRead card state buffer count opFlag).2.bus.steps =
      (Sdcard.sdcardRead card.addrShiftBit state opFlag count card.responses card.data).2 := by
  simp [sdcardRead, Sdcard.sdcardRead, readBlocks_bus]

/-- A call reports what it has read exactly if one of the blocks it counts in eight bits cannot be
read, or it counts all of them and all have an address. -/
theorem sdcardRead_readsAll_iff :
    ReadsAll card.contents opFlag count (sdcardRead card state buffer count opFlag) ↔
      Reports card opFlag count := by
  by_cases fails : ∃ k < count.toUInt8.toNat, card.Fails k
  · obtain ⟨none, done, last, reads⟩ := sdcardRead_of_fails state buffer count opFlag fails
    refine iff_of_true ⟨fun some => absurd none some, fun some => absurd none some, ?_⟩ (.inl fails)
    rintro read - -
    refine ⟨none, fun earlier member => ?_⟩
    rw [reads, List.dropLast_concat, List.mem_map] at member
    obtain ⟨k, -, rfl⟩ := member
    rfl
  · have readable (k : ℕ) (inside : k < count.toUInt8.toNat) : ¬card.Fails k :=
      fun bad => fails ⟨k, inside, bad⟩
    obtain ⟨returned, reads⟩ := sdcardRead_of_readable state buffer count opFlag readable
    have size_eq : count.toUInt8.toNat = count.toNat % 2 ^ 8 := UInt32.toNat_toUInt8 count
    have views : (sdcardRead card state buffer count opFlag).2.reads.map BlockRead.view =
        (List.range count.toUInt8.toNat).map fun k => (goodRead card opFlag 0 k).view := by
      rw [reads, List.map_map]
      rfl
    constructor
    · intro readsAll
      by_cases none : count = 0
      · subst none
        exact .inr ⟨by decide, fun k inside => absurd inside (Nat.not_lt_zero k)⟩
      · have whole := (readsAll.whole (by rwa [returned])).2
        rw [views] at whole
        have length_eq : count.toUInt8.toNat = count.toNat := by
          simpa using congrArg List.length whole
        refine .inr ⟨by omega, fun k inside => ?_⟩
        rw [length_eq] at whole
        have same := List.map_inj_left.mp whole k (List.mem_range.mpr inside)
        exact (toNat_block_eq_iff card opFlag k).mp (congrArg Prod.fst same)
    · rintro (bad | ⟨small, addressable⟩)
      · exact absurd bad fails
      · have length_eq : count.toUInt8.toNat = count.toNat := by omega
        refine ⟨fun _ => ⟨returned, ?_⟩, fun _ k inside => ?_, fun read member bad => ?_⟩
        · rw [views, length_eq]
          refine List.map_congr_left fun k member => ?_
          have block_eq := (toNat_block_eq_iff card opFlag k).mpr
            (addressable k (List.mem_range.mp member))
          simp [goodRead, BlockRead.view, request, block_eq]
        · rw [← length_eq] at inside
          rw [sdcardRead_filled state buffer count opFlag readable inside]
          rw [block_of_addressable (addressable k (length_eq ▸ inside))]
        · rw [reads, List.mem_map] at member
          obtain ⟨k, -, rfl⟩ := member
          exact absurd rfl bad

/-- 256 blocks: none of them is read, and all are reported. -/
theorem sdcardRead_not_readsAll :
    ¬∀ (card : CardSide) (state : SdcardState) (buffer : Memory UInt8) (count opFlag : UInt32),
      ReadsAll card.contents opFlag count (sdcardRead card state buffer count opFlag) := by
  intro every
  have readsAll := every ⟨9, fun _ _ => 0, fun _ => .ok, fun _ => .ok⟩ sdcardInitialize
    (fun _ => 0) 256 0
  have whole := congrArg List.length (readsAll.whole (by decide)).2
  rw [List.length_map, List.length_map, List.length_range] at whole
  exact absurd whole (by decide)

end BdkFreertos.SdcardRead
