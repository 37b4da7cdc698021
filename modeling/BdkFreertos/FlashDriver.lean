import BdkFreertos.Flash
import Mathlib.Data.UInt

/-!
# The driver of the embedded flash

The controller reads and programs lines of 32 bytes.  Programming clears bits; a line that is only
written in part is filled up with what it holds, or with ones.
-/

namespace BdkFreertos.FlashDriver

/-! ### The chip -/

/-- What is used of `flash_config_t`. -/
structure FlashConfig where
  flashId : UInt32
  flashSize : UInt32

/-- The rows of `flash_config` before the last one. -/
def flashConfig : List FlashConfig :=
  [⟨0x1C7016, 0x400000⟩, ⟨0x1C7015, 0x200000⟩, ⟨0x0B4014, 0x100000⟩, ⟨0x0B4015, 0x200000⟩,
    ⟨0x0B4016, 0x400000⟩, ⟨0x0B4017, 0x800000⟩, ⟨0x0E4016, 0x400000⟩, ⟨0xC84015, 0x200000⟩,
    ⟨0xC84016, 0x400000⟩, ⟨0xEF4016, 0x400000⟩, ⟨0x204016, 0x400000⟩, ⟨0xC22315, 0x200000⟩,
    ⟨0xEB6015, 0x200000⟩]

/-- The last row of `flash_config`. -/
def defaultConfig : FlashConfig := ⟨0x000000, 0x400000⟩

/-- `flash_get_current_flash_config`. -/
def flashCurrentConfig (flashId : UInt32) : FlashConfig :=
  (flashConfig.find? fun config => flashId == config.flashId).getD defaultConfig

/-- What the controller is told to do with a line or a sector. -/
inductive Command
  /-- `FLASH_OPCODE_READ`. -/
  | read (addr : UInt32)
  /-- `FLASH_OPCODE_PP`. -/
  | pp (addr : UInt32)
  /-- `FLASH_OPCODE_SE`. -/
  | se (addr : UInt32)
  deriving DecidableEq

def Command.addr : Command → UInt32
  | .read addr | .pp addr | .se addr => addr

/-- The chip with the commands it has got. -/
structure Chip where
  memory : Flash
  commands : List Command

def Chip.send (chip : Chip) (command : Command) : Chip :=
  { chip with commands := chip.commands ++ [command] }

/-- Program a line. -/
def Chip.programLine (chip : Chip) (addr : UInt32) (line : Memory UInt8) : Chip where
  memory place :=
    if addr.toNat ≤ place ∧ place < addr.toNat + 32 then
      chip.memory place &&& line (place - addr.toNat)
    else chip.memory place
  commands := chip.commands ++ [.pp addr]

/-! ### Reading and writing -/

/-- The bytes of a line that the inner loop takes: to the end of the line, or as many as are
left. -/
def lineCount (address len : UInt32) : ℕ := min (32 - address.toNat % 32) len.toNat

theorem lineCount_pos {address len : UInt32} (more : len ≠ 0) : 0 < lineCount address len := by
  have left : len.toNat ≠ 0 := fun none => more (UInt32.toNat_inj.mp none)
  rw [lineCount]
  omega

theorem lineCount_le (address len : UInt32) : lineCount address len ≤ len.toNat :=
  Nat.min_le_right _ _

theorem toNat_sub_lineCount (address len : UInt32) :
    (len - UInt32.ofNat (lineCount address len)).toNat = len.toNat - lineCount address len := by
  have count_eq := toNat_ofNat_of_le (lineCount_le address len)
  rw [UInt32.toNat_sub_of_le, count_eq]
  rw [UInt32.le_iff_toNat_le, count_eq]
  exact lineCount_le address len

/-- The loop of `flash_read_data`. -/
def readLoop (pos : ℕ) (address addr len : UInt32) (buffer : Memory UInt8) (chip : Chip) :
    Memory UInt8 × Chip :=
  if len = 0 then (buffer, chip)
  else
    let count := lineCount address len
    readLoop (pos + count) (address + .ofNat count) (addr + 32) (len - .ofNat count)
      (buffer.store pos (chip.memory.load (addr.toNat + address.toNat % 32) count))
      (chip.send (.read addr))
termination_by len.toNat
decreasing_by
  have taken : 0 < lineCount address len := lineCount_pos ‹_›
  have bounded := lineCount_le address len
  rw [toNat_sub_lineCount]
  omega

def flashReadData (buffer : Memory UInt8) (address len : UInt32) (chip : Chip) :
    Memory UInt8 × Chip :=
  readLoop 0 address (address &&& ~~~0x1F) len buffer chip

/-- A line that is written up to its end only by less than 32 bytes is read before. -/
def fillUp (addr len : UInt32) (pb : Memory UInt8) (chip : Chip) : Memory UInt8 × Chip :=
  if len < 32 then flashReadData pb addr 32 chip else (pb, chip)

/-- `os_memset(pb, 0xFF, 32)`. -/
def ones (pb : Memory UInt8) : Memory UInt8 := pb.store 0 (List.replicate 32 0xFF)

/-- The loop of `flash_write_data`. -/
def writeLoop (buffer : Memory UInt8) (pos : ℕ) (address addr len : UInt32) (pb : Memory UInt8)
    (chip : Chip) : Chip :=
  if len = 0 then chip
  else
    let filled := fillUp addr len pb chip
    let count := lineCount address len
    let pb := filled.1.store (address.toNat % 32) (buffer.load pos count)
    writeLoop buffer (pos + count) (address + .ofNat count) (addr + 32) (len - .ofNat count)
      (ones pb) (filled.2.programLine addr pb)
termination_by len.toNat
decreasing_by
  have taken : 0 < lineCount address len := lineCount_pos ‹_›
  have bounded := lineCount_le address len
  rw [toNat_sub_lineCount]
  omega

def flashWriteData (flashSize : UInt32) (buffer : Memory UInt8) (address len : UInt32)
    (pb : Memory UInt8) (chip : Chip) : Chip :=
  let addr := address &&& ~~~0x1F
  if addr ≥ flashSize ∨ len > flashSize ∨ addr + len > flashSize then chip
  else
    let head := if address % 32 ≠ 0 then flashReadData pb addr 32 chip else (ones pb, chip)
    writeLoop buffer 0 address addr len head.1 head.2

/-! ### Addresses and lines -/

theorem and_bits (value low count : ℕ) :
    value &&& 2 ^ low * (2 ^ count - 1) = 2 ^ low * (value / 2 ^ low % 2 ^ count) := by
  apply Nat.eq_of_testBit_eq
  intro bit
  rw [Nat.testBit_and, Nat.testBit_two_pow_mul, Nat.testBit_two_pow_mul,
    Nat.testBit_two_pow_sub_one, Nat.testBit_mod_two_pow, Nat.testBit_div_two_pow]
  rcases Nat.lt_or_ge bit low with below | above
  · simp [Nat.not_le.mpr below]
  · rw [Nat.sub_add_cancel above]
    simp [above, Bool.and_comm]

theorem toNat_lineAddr (address : UInt32) :
    (address &&& ~~~0x1F).toNat = 32 * (address.toNat / 32) := by
  have bits := and_bits address.toNat 5 27
  have small : address.toNat / 32 % 2 ^ 27 = address.toNat / 32 :=
    Nat.mod_eq_of_lt (by have := address.toNat_lt; omega)
  rw [UInt32.toNat_and]
  exact bits.trans (congrArg (32 * ·) small)

/-- Where the loops are: `addr` is the line of `address`, and nothing wraps on the way to the
end. -/
structure InLine (address addr len : UInt32) : Prop where
  line : addr.toNat = 32 * (address.toNat / 32)
  fits : address.toNat + len.toNat + 32 ≤ 2 ^ 32

namespace InLine

variable {address addr len : UInt32} (inLine : InLine address addr len)
include inLine

theorem add_mod : addr.toNat + address.toNat % 32 = address.toNat := by
  rw [inLine.line, Nat.div_add_mod]

theorem toNat_address :
    (address + UInt32.ofNat (lineCount address len)).toNat =
      address.toNat + lineCount address len := by
  have count_eq := toNat_ofNat_of_le (lineCount_le address len)
  have bounded := lineCount_le address len
  have fits := inLine.fits
  rw [toNat_add_of_lt, count_eq]
  rw [count_eq]
  omega

theorem next (more : lineCount address len < len.toNat) :
    InLine (address + .ofNat (lineCount address len)) (addr + 32)
      (len - .ofNat (lineCount address len)) := by
  have fits := inLine.fits
  have line := inLine.line
  have whole : lineCount address len = 32 - address.toNat % 32 := by
    rw [lineCount] at more ⊢
    omega
  have addr_eq : (addr + 32).toNat = addr.toNat + 32 := by
    apply toNat_add_of_lt
    change addr.toNat + 32 < _
    omega
  refine ⟨?_, ?_⟩
  · rw [addr_eq, inLine.toNat_address]
    omega
  · rw [inLine.toNat_address, toNat_sub_lineCount]
    omega

theorem next_mod (more : lineCount address len < len.toNat) :
    (address + .ofNat (lineCount address len)).toNat % 32 = 0 := by
  rw [inLine.toNat_address]
  rw [lineCount] at more ⊢
  omega

end InLine

theorem inLine_lineAddr (address len : UInt32) (fits : address.toNat + len.toNat + 32 ≤ 2 ^ 32) :
    InLine address (address &&& ~~~0x1F) len :=
  ⟨toNat_lineAddr address, fits⟩

theorem sub_lineCount_eq_zero_iff (address len : UInt32) :
    len - UInt32.ofNat (lineCount address len) = 0 ↔ lineCount address len = len.toNat := by
  have bounded := lineCount_le address len
  rw [← UInt32.toNat_inj, toNat_sub_lineCount]
  change _ = 0 ↔ _
  omega

/-! ### Reading -/

section
variable {address addr len : UInt32} {pos : ℕ} {buffer : Memory UInt8} {chip : Chip}

theorem readLoop_of_ne_zero (more : len ≠ 0) :
    readLoop pos address addr len buffer chip =
      readLoop (pos + lineCount address len) (address + .ofNat (lineCount address len)) (addr + 32)
        (len - .ofNat (lineCount address len))
        (buffer.store pos
          (chip.memory.load (addr.toNat + address.toNat % 32) (lineCount address len)))
        (chip.send (.read addr)) := by
  rw [readLoop, if_neg more]

theorem readLoop_eq (inLine : InLine address addr len) :
    (readLoop pos address addr len buffer chip).1 =
        buffer.store pos (chip.memory.load address.toNat len.toNat) ∧
      (readLoop pos address addr len buffer chip).2.memory = chip.memory := by
  induction rounds : len.toNat using Nat.strong_induction_on
    generalizing address addr len pos buffer chip with
  | h _ induction =>
      by_cases none : len = 0
      · rw [readLoop, if_pos none, ← rounds, none]
        exact ⟨(buffer.store_nil pos).symm, rfl⟩
      have taken : 0 < lineCount address len := lineCount_pos none
      have bounded := lineCount_le address len
      rw [readLoop_of_ne_zero none, inLine.add_mod, ← rounds]
      by_cases last : lineCount address len = len.toNat
      · rw [readLoop, if_pos ((sub_lineCount_eq_zero_iff address len).mpr last), last]
        exact ⟨rfl, rfl⟩
      · have more : lineCount address len < len.toNat := by omega
        obtain ⟨buffer_eq, memory_eq⟩ :=
          @induction _ (by rw [toNat_sub_lineCount]; omega) _ _ _ (pos + lineCount address len)
            (buffer.store pos (chip.memory.load address.toNat (lineCount address len)))
            (chip.send (.read addr)) (inLine.next more) rfl
        refine ⟨?_, memory_eq⟩
        have split := chip.memory.load_add address.toNat (lineCount address len)
          (len.toNat - lineCount address len)
        rw [Nat.add_sub_cancel' bounded] at split
        have adjacent := buffer.store_store_adjacent pos
          (chip.memory.load address.toNat (lineCount address len))
          (chip.memory.load (address.toNat + lineCount address len)
            (len.toNat - lineCount address len))
        rw [Memory.length_load] at adjacent
        rw [buffer_eq, toNat_sub_lineCount, inLine.toNat_address, split]
        exact adjacent

theorem flashReadData_line (aligned : addr.toNat % 32 = 0) :
    flashReadData buffer addr 32 chip =
      (buffer.store 0 (chip.memory.load addr.toNat 32), chip.send (.read addr)) := by
  have line_eq : addr &&& ~~~0x1F = addr := by
    apply UInt32.toNat_inj.mp
    rw [toNat_lineAddr]
    omega
  have count_eq : lineCount addr 32 = 32 := by
    rw [lineCount, aligned]
    rfl
  rw [flashReadData, line_eq, readLoop_of_ne_zero (by decide), count_eq, aligned, readLoop]
  exact if_pos rfl

end

/-! ### Writing -/

section
variable {address addr len : UInt32} {pos : ℕ} {buffer pb : Memory UInt8} {chip : Chip}

theorem InLine.aligned (inLine : InLine address addr len) : addr.toNat % 32 = 0 := by
  rw [inLine.line]
  exact Nat.mul_mod_right 32 _

def Passive (chip : Chip) (addr : UInt32) (pb : Memory UInt8) (index : ℕ) : Prop :=
  chip.memory (addr.toNat + index) &&& pb index = chip.memory (addr.toNat + index)

theorem passive_load {index : ℕ} (inside : index < 32) (chip' : Chip)
    (same : chip'.memory = chip.memory) :
    Passive chip' addr (pb.store 0 (chip.memory.load addr.toNat 32)) index := by
  have byte_eq := pb.store_apply_add 0 index (chip.memory.load addr.toNat 32)
  rw [Nat.zero_add, Memory.getElem?_load, if_pos inside, Option.getD_some] at byte_eq
  rw [Passive, byte_eq, same, UInt8.and_self]

theorem fillUp_passive (inLine : InLine address addr len)
    (before : ∀ index < address.toNat % 32, Passive chip addr pb index) :
    (fillUp addr len pb chip).2.memory = chip.memory ∧
      ∀ index < 32,
        index < address.toNat % 32 ∨ address.toNat % 32 + lineCount address len ≤ index →
          Passive (fillUp addr len pb chip).2 addr (fillUp addr len pb chip).1 index := by
  rw [fillUp]
  split
  · rw [flashReadData_line inLine.aligned]
    exact ⟨rfl, fun index inside _ => passive_load inside _ rfl⟩
  · rename_i long
    refine ⟨rfl, fun index inside outside => before index ?_⟩
    rw [UInt32.lt_iff_toNat_lt] at long
    change ¬len.toNat < 32 at long
    rw [lineCount] at outside
    omega

/-- Programming a line that is passive but for some bytes writes these. -/
theorem memory_programLine (inLine : InLine address addr len)
    (passive : ∀ index < 32,
      index < address.toNat % 32 ∨ address.toNat % 32 + lineCount address len ≤ index →
        Passive chip addr pb index) (place : ℕ) :
    (chip.programLine addr
        (pb.store (address.toNat % 32) (buffer.load pos (lineCount address len)))).memory place =
      if address.toNat ≤ place ∧ place < address.toNat + lineCount address len then
        chip.memory place &&& buffer (pos + (place - address.toNat))
      else chip.memory place := by
  have add_mod := inLine.add_mod
  have count_le : lineCount address len ≤ 32 - address.toNat % 32 := Nat.min_le_left _ _
  rw [Chip.programLine]
  dsimp only
  by_cases inside : address.toNat ≤ place ∧ place < address.toNat + lineCount address len
  · obtain ⟨index, rfl⟩ := Nat.exists_eq_add_of_le inside.1
    have taken : index < lineCount address len := by omega
    have place_eq : address.toNat + index - addr.toNat = address.toNat % 32 + index := by omega
    rw [if_pos inside, if_pos (by omega), place_eq, Memory.store_apply_add, Memory.getElem?_load,
      if_pos taken, Option.getD_some, Nat.add_sub_cancel_left]
  · rw [if_neg inside]
    split
    · rename_i line
      obtain ⟨index, rfl⟩ := Nat.exists_eq_add_of_le line.1
      have outside : index < address.toNat % 32 ∨
          address.toNat % 32 + lineCount address len ≤ index := by omega
      have kept : pb.store (address.toNat % 32) (buffer.load pos (lineCount address len)) index =
          pb index := by
        rcases outside with before | behind
        · exact Memory.store_apply_of_lt pb _ before
        · exact Memory.store_apply_of_le pb (by rwa [Memory.length_load])
      rw [Nat.add_sub_cancel_left, kept]
      exact passive index (by omega) outside
    · rfl

theorem writeLoop_of_ne_zero (more : len ≠ 0) :
    writeLoop buffer pos address addr len pb chip =
      let filled := fillUp addr len pb chip
      let line :=
        filled.1.store (address.toNat % 32) (buffer.load pos (lineCount address len))
      writeLoop buffer (pos + lineCount address len) (address + .ofNat (lineCount address len))
        (addr + 32) (len - .ofNat (lineCount address len)) (ones line)
        (filled.2.programLine addr line) := by
  rw [writeLoop, if_neg more]

theorem memory_writeLoop (inLine : InLine address addr len)
    (before : ∀ index < address.toNat % 32, Passive chip addr pb index) (place : ℕ) :
    (writeLoop buffer pos address addr len pb chip).memory place =
      if address.toNat ≤ place ∧ place < address.toNat + len.toNat then
        chip.memory place &&& buffer (pos + (place - address.toNat))
      else chip.memory place := by
  induction rounds : len.toNat using Nat.strong_induction_on
    generalizing address addr len pos pb chip with
  | h _ induction =>
      by_cases none : len = 0
      · have length_zero : len.toNat = 0 := by rw [none]; rfl
        rw [writeLoop, if_pos none, if_neg (by omega)]
      have taken : 0 < lineCount address len := lineCount_pos none
      have bounded := lineCount_le address len
      obtain ⟨same, passive⟩ := fillUp_passive inLine before
      have programmed := @memory_programLine _ _ _ pos buffer _ _ inLine passive place
      rw [same] at programmed
      rw [writeLoop_of_ne_zero none, ← rounds]
      dsimp only
      by_cases last : lineCount address len = len.toNat
      · rw [writeLoop, if_pos ((sub_lineCount_eq_zero_iff address len).mpr last), programmed, last]
      · have more : lineCount address len < len.toNat := by omega
        have next_mod := inLine.next_mod more
        rw [induction _ (by rw [toNat_sub_lineCount]; omega) (inLine.next more)
          (by rw [next_mod]; exact fun index negative => absurd negative (Nat.not_lt_zero index))
          rfl, programmed, inLine.toNat_address, toNat_sub_lineCount]
        by_cases early : place < address.toNat + lineCount address len
        · rw [if_neg (by omega)]
          exact if_congr (by omega) rfl rfl
        · have outside : ¬(address.toNat ≤ place ∧
              place < address.toNat + lineCount address len) := fun inside => early inside.2
          have offset_eq : pos + lineCount address len +
              (place - (address.toNat + lineCount address len)) =
                pos + (place - address.toNat) := by omega
          rw [if_neg outside, offset_eq]
          exact if_congr (by omega) rfl rfl

theorem commands_fillUp (inLine : InLine address addr len) (pb : Memory UInt8) (chip : Chip) :
    ∃ fill, (fillUp addr len pb chip).2.commands = chip.commands ++ fill ∧
      ∀ command ∈ fill, command.addr = addr := by
  rw [fillUp]
  split
  · rw [flashReadData_line inLine.aligned]
    exact ⟨[.read addr], rfl, by simp [Command.addr]⟩
  · exact ⟨[], (List.append_nil _).symm, nofun⟩

theorem commands_line (inLine : InLine address addr len) (pb line : Memory UInt8) (chip : Chip) :
    ∃ new, ((fillUp addr len pb chip).2.programLine addr line).commands = chip.commands ++ new ∧
      (∀ command ∈ new, command.addr = addr) ∧ .pp addr ∈ new := by
  obtain ⟨fill, filled, fill_addr⟩ := commands_fillUp inLine pb chip
  refine ⟨fill ++ [.pp addr], ?_, ?_, ?_⟩
  · rw [Chip.programLine, filled, List.append_assoc]
  · intro command member
    rcases List.mem_append.mp member with read | program
    · exact fill_addr command read
    · rw [List.mem_singleton.mp program]
      rfl
  · exact List.mem_append_right _ (List.mem_singleton.mpr rfl)

/-- A write reads and programs lines that begin in front of its end, the first one at its
beginning. -/
theorem commands_writeLoop (inLine : InLine address addr len) :
    ∃ new, (writeLoop buffer pos address addr len pb chip).commands = chip.commands ++ new ∧
      (∀ command ∈ new, command.addr.toNat < address.toNat + len.toNat) ∧
        (len ≠ 0 → .pp addr ∈ new) := by
  induction rounds : len.toNat using Nat.strong_induction_on
    generalizing address addr len pos pb chip with
  | h _ induction =>
      by_cases none : len = 0
      · rw [writeLoop, if_pos none]
        exact ⟨[], (List.append_nil _).symm, nofun, fun some => absurd none some⟩
      have taken : 0 < lineCount address len := lineCount_pos none
      have bounded := lineCount_le address len
      have begins := inLine.add_mod
      rw [writeLoop_of_ne_zero none, ← rounds]
      dsimp only
      generalize (fillUp addr len pb chip).1.store (address.toNat % 32)
        (buffer.load pos (lineCount address len)) = line
      obtain ⟨head, first_line, head_addr, first⟩ := commands_line inLine pb line chip
      have low : ∀ command ∈ head, command.addr.toNat < address.toNat + len.toNat := by
        intro command member
        rw [head_addr command member]
        omega
      by_cases last : lineCount address len = len.toNat
      · rw [writeLoop, if_pos ((sub_lineCount_eq_zero_iff address len).mpr last)]
        exact ⟨head, first_line, low, fun _ => first⟩
      · have more : lineCount address len < len.toNat := by omega
        obtain ⟨new, later, new_low, -⟩ :=
          induction _ (by rw [toNat_sub_lineCount]; omega) (inLine.next more) rfl
        refine ⟨head ++ new, ?_, ?_, fun _ => List.mem_append_left _ first⟩
        · rw [later, first_line, List.append_assoc]
        · intro command member
          rcases List.mem_append.mp member with early | late
          · exact low command early
          · have inside := new_low command late
            rw [inLine.toNat_address, toNat_sub_lineCount] at inside
            omega

end

/-! ### The whole calls -/

theorem flashSize_known (flashId : UInt32) :
    0 < (flashCurrentConfig flashId).flashSize.toNat ∧
      (flashCurrentConfig flashId).flashSize.toNat ≤ 0x800000 ∧
        (flashCurrentConfig flashId).flashSize.toNat % 4096 = 0 := by
  have rows : ∀ config ∈ flashConfig, 0 < config.flashSize.toNat ∧
      config.flashSize.toNat ≤ 0x800000 ∧ config.flashSize.toNat % 4096 = 0 := by
    decide
  rw [flashCurrentConfig]
  cases found : flashConfig.find? fun config => flashId == config.flashId with
  | none => decide
  | some config => exact rows config (List.mem_of_find?_eq_some found)

section
variable {flashSize address len : UInt32} {buffer pb : Memory UInt8} {chip : Chip}

theorem accepted_iff (small : flashSize.toNat ≤ 0x800000) :
    ¬(address &&& ~~~0x1F ≥ flashSize ∨ len > flashSize ∨
        (address &&& ~~~0x1F) + len > flashSize) ↔
      32 * (address.toNat / 32) < flashSize.toNat ∧
        32 * (address.toNat / 32) + len.toNat ≤ flashSize.toNat := by
  rw [not_or, not_or, ge_iff_le, gt_iff_lt, gt_iff_lt, UInt32.le_iff_toNat_le,
    UInt32.lt_iff_toNat_lt, UInt32.lt_iff_toNat_lt, UInt32.toNat_add, toNat_lineAddr]
  constructor
  · rintro ⟨addr_lt, len_le, sum_le⟩
    rw [Nat.mod_eq_of_lt (by omega)] at sum_le
    omega
  · rintro ⟨addr_lt, sum_le⟩
    rw [Nat.mod_eq_of_lt (by omega)]
    omega

theorem flashWriteData_of_rejected (small : flashSize.toNat ≤ 0x800000)
    (rejected : ¬(32 * (address.toNat / 32) < flashSize.toNat ∧
      32 * (address.toNat / 32) + len.toNat ≤ flashSize.toNat)) :
    flashWriteData flashSize buffer address len pb chip = chip := by
  rw [flashWriteData]
  exact if_pos (not_not.mp (mt (accepted_iff small).mp rejected))

theorem flashWriteData_of_accepted (small : flashSize.toNat ≤ 0x800000)
    (accepted : 32 * (address.toNat / 32) < flashSize.toNat ∧
      32 * (address.toNat / 32) + len.toNat ≤ flashSize.toNat) :
    ∃ line head,
      flashWriteData flashSize buffer address len pb chip =
        writeLoop buffer 0 address (address &&& ~~~0x1F) len line
          { chip with commands := chip.commands ++ head } ∧
      (∀ index < address.toNat % 32, Passive chip (address &&& ~~~0x1F) line index) ∧
      ∀ command ∈ head, command = .read (address &&& ~~~0x1F) := by
  have aligned : (address &&& ~~~0x1F).toNat % 32 = 0 := by
    rw [toNat_lineAddr]
    exact Nat.mul_mod_right 32 _
  have unaligned_iff : address % 32 ≠ 0 ↔ address.toNat % 32 ≠ 0 := by
    rw [Ne, ← UInt32.toNat_inj, UInt32.toNat_mod]
    exact Iff.rfl
  rw [flashWriteData]
  dsimp only
  rw [if_neg ((accepted_iff small).mpr accepted), flashReadData_line aligned]
  by_cases unaligned : address % 32 ≠ 0
  · rw [if_pos unaligned]
    exact ⟨_, [.read (address &&& ~~~0x1F)], rfl,
      fun index inside => passive_load (Nat.lt_trans inside (Nat.mod_lt _ (by decide))) chip rfl,
      fun command member => List.mem_singleton.mp member⟩
  · rw [if_neg unaligned]
    refine ⟨ones pb, [], ?_, fun index inside => ?_, nofun⟩
    · rw [List.append_nil]
    · rw [not_not.mp (mt unaligned_iff.mpr unaligned)] at inside
      exact absurd inside (Nat.not_lt_zero index)

theorem memory_flashWriteData (small : flashSize.toNat ≤ 0x800000)
    (inside : address.toNat + len.toNat ≤ flashSize.toNat) (place : ℕ) :
    (flashWriteData flashSize buffer address len pb chip).memory place =
      if address.toNat ≤ place ∧ place < address.toNat + len.toNat then
        chip.memory place &&& buffer (place - address.toNat)
      else chip.memory place := by
  by_cases accepted : 32 * (address.toNat / 32) < flashSize.toNat ∧
      32 * (address.toNat / 32) + len.toNat ≤ flashSize.toNat
  · obtain ⟨line, head, written, passive, -⟩ :=
      @flashWriteData_of_accepted _ _ _ buffer pb chip small accepted
    have programmed := @memory_writeLoop _ _ _ 0 buffer line
      { chip with commands := chip.commands ++ head }
      (inLine_lineAddr address len (by omega)) passive place
    rwa [Nat.zero_add, ← written] at programmed
  · rw [flashWriteData_of_rejected small accepted, if_neg (by omega)]

/-- What a write should do to the chip. -/
structure ByteExact (before after : Flash) (buffer : Memory UInt8) (address len : ℕ) : Prop where
  written : ∀ place, address ≤ place → place < address + len →
    after place = before place &&& buffer (place - address)
  kept : ∀ place, ¬(address ≤ place ∧ place < address + len) → after place = before place

/-- A write inside the flash is exact, and when its range was erased a read returns the buffer. -/
theorem flash_write_data_exact (flashId : UInt32) (buffer pb out : Memory UInt8)
    (address len : UInt32) (chip : Chip)
    (inside : address.toNat + len.toNat ≤ (flashCurrentConfig flashId).flashSize.toNat) :
    let written :=
      flashWriteData (flashCurrentConfig flashId).flashSize buffer address len pb chip
    ByteExact chip.memory written.memory buffer address.toNat len.toNat ∧
      ((∀ place, address.toNat ≤ place → place < address.toNat + len.toNat →
          chip.memory place = 0xFF) →
        (flashReadData out address len written).1.load 0 len.toNat = buffer.load 0 len.toNat) := by
  intro written
  have small := (flashSize_known flashId).2.1
  have memory_eq := @memory_flashWriteData _ _ _ buffer pb chip small inside
  have exact : ByteExact chip.memory written.memory buffer address.toNat len.toNat :=
    ⟨fun place after before => (memory_eq place).trans (if_pos ⟨after, before⟩),
      fun place outside => (memory_eq place).trans (if_neg outside)⟩
  refine ⟨exact, fun erased => ?_⟩
  have read := (@readLoop_eq _ _ _ 0 out written
    (inLine_lineAddr address len (by omega))).1
  have loaded := Memory.load_store_self out 0 (written.memory.load address.toNat len.toNat)
  rw [Memory.length_load] at loaded
  rw [flashReadData, read, loaded]
  apply Memory.load_eq_load
  intro index within
  rw [exact.written _ (Nat.le_add_right _ _) (by omega), erased _ (Nat.le_add_right _ _) (by omega),
    Nat.add_sub_cancel_left, Nat.zero_add]
  exact UInt8.neg_one_and

/-- Four bytes over the end of the first line. -/
theorem write_across_lines_exact :
    let written := flashWriteData (flashCurrentConfig 0x0B4015).flashSize
      (fun index => .ofNat index) 30 4 (fun _ => 0) ⟨fun _ => 0xFF, []⟩
    ByteExact (fun _ => 0xFF) written.memory (fun index => .ofNat index) 30 4 ∧
      (flashReadData (fun _ => 0) 30 4 written).1.load 0 4 = [0, 1, 2, 3] := by
  have exact := flash_write_data_exact 0x0B4015 (fun index => .ofNat index) (fun _ => 0)
    (fun _ => 0) 30 4 ⟨fun _ => 0xFF, []⟩ (by decide)
  exact ⟨exact.1, exact.2 fun _ _ _ => rfl⟩

/-! ### The check of the range -/

/-- No line at or behind the end is touched, and a range that is not inside is rejected. -/
structure RangeChecked (flashSize : UInt32) (address len : ℕ) (commands : List Command) :
    Prop where
  lines : ∀ command ∈ commands, command.addr < flashSize
  rejects : ∀ place, address ≤ place → place < address + len → ¬place < flashSize.toNat →
    ∀ addr, .pp addr ∉ commands

/-- A range that is accepted without being inside is programmed. -/
theorem not_rangeChecked (small : flashSize.toNat ≤ 0x800000) (memory : Flash)
    (accepted : 32 * (address.toNat / 32) < flashSize.toNat ∧
      32 * (address.toNat / 32) + len.toNat ≤ flashSize.toNat)
    (some : len ≠ 0) (outside : flashSize.toNat < address.toNat + len.toNat) :
    ¬RangeChecked flashSize address.toNat len.toNat
      (flashWriteData flashSize buffer address len pb ⟨memory, []⟩).commands := by
  obtain ⟨line, head, written, -, -⟩ :=
    @flashWriteData_of_accepted _ _ _ buffer pb ⟨memory, []⟩ small accepted
  obtain ⟨new, commands_eq, -, first⟩ := @commands_writeLoop _ _ _ 0 buffer line
    { memory := memory, commands := [] ++ head }
    (inLine_lineAddr address len (by omega))
  have positive : len.toNat ≠ 0 := fun none => some (UInt32.toNat_inj.mp none)
  rw [written, commands_eq]
  intro checked
  exact checked.rejects (address.toNat + len.toNat - 1) (by omega) (by omega) (by omega) _
    (List.mem_append_right _ (first some))

/-- The check is sound exactly if nothing is to be written, the range is inside, or it is not
inside even from the beginning of the first line on. -/
theorem flash_write_checked_iff (flashId : UInt32) (buffer pb : Memory UInt8)
    (address len : UInt32) (memory : Flash) :
    let flashSize := (flashCurrentConfig flashId).flashSize
    RangeChecked flashSize address.toNat len.toNat
        (flashWriteData flashSize buffer address len pb ⟨memory, []⟩).commands ↔
      len = 0 ∨ address.toNat + len.toNat ≤ flashSize.toNat ∨
        flashSize.toNat < 32 * (address.toNat / 32) + len.toNat := by
  intro flashSize
  obtain ⟨-, small, whole⟩ : 0 < flashSize.toNat ∧ flashSize.toNat ≤ 0x800000 ∧
      flashSize.toNat % 4096 = 0 := flashSize_known flashId
  have length_zero : len = 0 ↔ len.toNat = 0 := UInt32.toNat_inj.symm
  by_cases accepted : 32 * (address.toNat / 32) < flashSize.toNat ∧
      32 * (address.toNat / 32) + len.toNat ≤ flashSize.toNat
  · obtain ⟨line, head, written, -, head_eq⟩ :=
      @flashWriteData_of_accepted _ _ _ buffer pb ⟨memory, []⟩ small accepted
    obtain ⟨new, commands_eq, low, -⟩ := @commands_writeLoop _ _ _ 0 buffer line
      { memory := memory, commands := [] ++ head }
      (inLine_lineAddr address len (by omega))
    have head_low : ∀ command ∈ head, command.addr.toNat = 32 * (address.toNat / 32) := by
      intro command member
      rw [head_eq command member]
      exact toNat_lineAddr address
    constructor
    · intro checked
      by_contra careless
      rw [not_or, not_or, not_le] at careless
      exact not_rangeChecked small memory accepted careless.1 careless.2.1 checked
    · intro careful
      rw [written, commands_eq, List.nil_append]
      rw [length_zero] at careful
      refine ⟨fun command member => ?_, fun place after before outside => absurd ?_ outside⟩
      · rw [UInt32.lt_iff_toNat_lt]
        rcases List.mem_append.mp member with early | late
        · rw [head_low command early]
          exact accepted.1
        · have inside := low command late
          omega
      · omega
  · rw [flashWriteData_of_rejected small accepted]
    refine iff_of_true ⟨nofun, fun _ _ _ _ _ => List.not_mem_nil⟩ ?_
    rw [length_zero]
    omega

/-- A line that begins 31 bytes in front of the end of the flash is accepted. -/
theorem write_over_end_accepted :
    ¬RangeChecked (flashCurrentConfig 0x0B4015).flashSize 0x1FFFE1 32
      (flashWriteData (flashCurrentConfig 0x0B4015).flashSize (fun _ => 0) 0x1FFFE1 32 (fun _ => 0)
        ⟨fun _ => 0xFF, []⟩).commands :=
  @not_rangeChecked (flashCurrentConfig 0x0B4015).flashSize 0x1FFFE1 32 _ _ (by decide) _
    (by decide) (by decide) (by decide)

end

end BdkFreertos.FlashDriver
