import BdkFreertos.FlashDriver

/-!
# Erasing partitions

`bk_flash_erase` erases the sectors of a partition one after the other.  The driver cuts an address
down to 24 bits and refuses sectors behind the end of the flash.
-/

namespace BdkFreertos.FlashErase

open FlashDriver

/-! ### The calls -/

/-- `bk_partition_t`. -/
inductive BkPartition
  | bootloader
  | application
  | ota
  | rfFirmware
  | netParam
  | usrConfig

/-- `bk7231_partitions`; there is no row for the last partition. -/
def bk7231Partitions (soc : SocName) : BkPartition → Flash.LogicPartition
  | .bootloader => ⟨0x00000000, 0x0F000⟩
  | .application => ⟨0x11000, 0x143000⟩
  | .ota => ⟨0x132000, 0xAE000⟩
  | .rfFirmware => ⟨0x1e0000, 0x1000⟩
  | .netParam => Flash.netParamPartition soc
  | .usrConfig => ⟨0, 0⟩

/-- `flash_erase_sector`. -/
def flashEraseSector (flashSize : UInt32) (chip : Chip) (address : UInt32) : Chip :=
  let eraseAddr := address &&& 0xFFF000
  if eraseAddr ≥ flashSize then chip
  else
    { memory := chip.memory.eraseSector address
      commands := chip.commands ++ [.se eraseAddr] }

/-- `bk_flash_erase`. -/
def bkFlashErase (flashSize : UInt32) (partition : Flash.LogicPartition) (offset size : UInt32)
    (chip : Chip) : Chip :=
  let startSector := (offset >>> 12).toNat
  let endSector := ((offset + size - 1) >>> 12).toNat
  (List.range' startSector (endSector + 1 - startSector)).foldl
    (fun chip sector =>
      flashEraseSector flashSize chip (partition.partitionStartAddr + (UInt32.ofNat sector <<< 12)))
    chip

/-! ### The purpose -/

def Meets (start count sector : ℕ) : Prop :=
  ∃ place, start ≤ place ∧ place < start + count ∧ place / 4096 = sector

def erased (chip : Chip) : List ℕ :=
  chip.commands.map fun command => command.addr.toNat / 4096

open Classical in
/-- The sectors of the flash that meet a range are erased, each once, and nothing else. -/
structure ErasesExactly (flashSize : UInt32) (start count : ℕ) (before : Flash) (after : Chip) :
    Prop where
  once : (erased after).Nodup
  sectors : ∀ sector,
    sector ∈ erased after ↔ 4096 * sector < flashSize.toNat ∧ Meets start count sector
  memory : ∀ place < flashSize.toNat,
    after.memory place = if Meets start count (place / 4096) then 0xFF else before place

/-! ### The sectors of a call -/

section
variable {flashSize : UInt32} {chip : Chip}

variable (address : UInt32)

theorem toNat_eraseAddr : (address &&& 0xFFF000).toNat = 4096 * (address.toNat / 4096 % 4096) := by
  rw [UInt32.toNat_and]
  exact and_bits address.toNat 12 12

/-- The sector that an address belongs to, after it has been cut down. -/
def sectorOf (address : UInt32) : ℕ := address.toNat / 4096 % 4096

theorem flashEraseSector_of_outside {address : UInt32}
    (outside : ¬4096 * sectorOf address < flashSize.toNat) :
    flashEraseSector flashSize chip address = chip := by
  rw [flashEraseSector]
  refine if_pos ?_
  rw [ge_iff_le, UInt32.le_iff_toNat_le, toNat_eraseAddr]
  exact Nat.not_lt.mp outside

theorem flashEraseSector_eq {address : UInt32}
    (inside : 4096 * sectorOf address < flashSize.toNat) :
    flashEraseSector flashSize chip address =
      { memory := chip.memory.eraseSector address
        commands := chip.commands ++ [.se (address &&& 0xFFF000)] } := by
  refine if_neg ?_
  rw [ge_iff_le, UInt32.le_iff_toNat_le, toNat_eraseAddr, Nat.not_le]
  exact inside

theorem flashEraseSector_of_inside {address : UInt32}
    (inside : 4096 * sectorOf address < flashSize.toNat) :
    erased (flashEraseSector flashSize chip address) =
        erased chip ++ [sectorOf address] ∧
      ∀ place, (flashEraseSector flashSize chip address).memory place =
        if place / 4096 = sectorOf address then 0xFF else chip.memory place := by
  have addr_eq := toNat_eraseAddr address
  rw [flashEraseSector_eq inside]
  refine ⟨?_, fun place => ?_⟩
  · rw [erased, List.map_append, List.map_singleton, Command.addr, addr_eq,
      Nat.mul_div_cancel_left _ (by decide)]
    rfl
  · refine if_congr ?_ rfl rfl
    rw [addr_eq, sectorOf]
    omega

def targets (flashSize : UInt32) (addresses : List UInt32) : List ℕ :=
  (addresses.map sectorOf).filter fun sector => 4096 * sector < flashSize.toNat

theorem targets_cons (addresses : List UInt32) :
    targets flashSize (address :: addresses) =
      if 4096 * sectorOf address < flashSize.toNat then
        sectorOf address :: targets flashSize addresses
      else targets flashSize addresses := by
  rw [targets, List.map_cons, List.filter_cons]
  exact if_congr decide_eq_true_iff rfl rfl

theorem foldl_flashEraseSector (addresses : List UInt32) :
    erased (addresses.foldl (flashEraseSector flashSize) chip) =
        erased chip ++ targets flashSize addresses ∧
      ∀ place, (addresses.foldl (flashEraseSector flashSize) chip).memory place =
        if place / 4096 ∈ targets flashSize addresses then 0xFF else chip.memory place := by
  induction addresses generalizing chip with
  | nil => exact ⟨(List.append_nil _).symm, fun place => (if_neg List.not_mem_nil).symm⟩
  | cons address addresses induction =>
      rw [List.foldl_cons, targets_cons]
      obtain ⟨erased_eq, memory_eq⟩ := @induction (flashEraseSector flashSize chip address)
      by_cases inside : 4096 * sectorOf address < flashSize.toNat
      · obtain ⟨first_erased, first_memory⟩ := @flashEraseSector_of_inside _ chip _ inside
        rw [if_pos inside]
        refine ⟨?_, fun place => ?_⟩
        · rw [erased_eq, first_erased, List.append_assoc, List.singleton_append]
        · rw [memory_eq place, first_memory place]
          by_cases later : place / 4096 ∈ targets flashSize addresses
          · rw [if_pos later, if_pos (List.mem_cons_of_mem _ later)]
          · rw [if_neg later]
            exact if_congr (by rw [List.mem_cons, or_iff_left later]) rfl rfl
      · rw [flashEraseSector_of_outside inside] at erased_eq memory_eq ⊢
        rw [if_neg inside]
        exact ⟨erased_eq, memory_eq⟩

open Classical in
theorem erasesExactly_foldl_iff {memory : Flash} {addresses : List UInt32} {start count : ℕ} :
    ErasesExactly flashSize start count memory
        (addresses.foldl (flashEraseSector flashSize) ⟨memory, []⟩) ↔
      (targets flashSize addresses).Nodup ∧ ∀ sector, sector ∈ targets flashSize addresses ↔
        4096 * sector < flashSize.toNat ∧ Meets start count sector := by
  obtain ⟨erased_eq, memory_eq⟩ := @foldl_flashEraseSector flashSize ⟨memory, []⟩ addresses
  have erased_eq : erased (addresses.foldl (flashEraseSector flashSize) ⟨memory, []⟩) =
      targets flashSize addresses := erased_eq
  constructor
  · intro exact
    exact ⟨erased_eq ▸ exact.once, erased_eq ▸ exact.sectors⟩
  · rintro ⟨once, sectors⟩
    refine ⟨erased_eq ▸ once, erased_eq ▸ sectors, fun place inside => ?_⟩
    have in_flash : 4096 * (place / 4096) < flashSize.toNat := by omega
    rw [memory_eq place]
    exact if_congr (by rw [sectors, and_iff_right in_flash]) rfl rfl

end

/-! ### The sectors of a partition -/

variable {start sector : ℕ} (soc : SocName)

theorem bk7231Partitions_bounds (partition : BkPartition) :
    (bk7231Partitions soc partition).partitionStartAddr.toNat % 4096 = 0 ∧
      (bk7231Partitions soc partition).partitionStartAddr.toNat +
        (bk7231Partitions soc partition).partitionLength.toNat ≤ 0x200000 := by
  cases soc <;> cases partition <;> decide

theorem meets_iff {count : ℕ} (some : 0 < count) :
    Meets start count sector ↔ start / 4096 ≤ sector ∧ sector ≤ (start + count - 1) / 4096 := by
  constructor
  · rintro ⟨place, after, before, rfl⟩
    omega
  · rintro ⟨after, before⟩
    refine ⟨max start (4096 * sector), ?_, ?_, ?_⟩ <;> omega

theorem not_meets_zero : ¬Meets start 0 sector := by
  rintro ⟨place, after, before, -⟩
  omega

section
variable {flashSize : UInt32} {partition : Flash.LogicPartition} {start count : ℕ}

/-- The addresses that a call erases at. -/
def addresses (partition : Flash.LogicPartition) (offset size : UInt32) : List UInt32 :=
  let startSector := (offset >>> 12).toNat
  let endSector := ((offset + size - 1) >>> 12).toNat
  (List.range' startSector (endSector + 1 - startSector)).map
    fun sector => partition.partitionStartAddr + (UInt32.ofNat sector <<< 12)

theorem bkFlashErase_eq (offset size : UInt32) (chip : Chip) :
    bkFlashErase flashSize partition offset size chip =
      (addresses partition offset size).foldl (flashEraseSector flashSize) chip := by
  rw [addresses, List.foldl_map, bkFlashErase]

theorem sectorOf_row (aligned : partition.partitionStartAddr.toNat % 4096 = 0) (sector : ℕ) :
    sectorOf (partition.partitionStartAddr + (UInt32.ofNat sector <<< 12)) =
      (partition.partitionStartAddr.toNat / 4096 + sector) % 4096 := by
  have shifted : (UInt32.ofNat sector <<< 12).toNat = sector * 4096 % 2 ^ 32 := by
    rw [UInt32.toNat_shiftLeft, UInt32.toNat_ofNat']
    change (sector % 2 ^ 32) <<< 12 % 2 ^ 32 = _
    rw [Nat.shiftLeft_eq]
    omega
  rw [sectorOf, UInt32.toNat_add, shifted]
  omega

/-- The sectors of the flash that a call goes through from its first one to its last one. -/
def sectorsBetween (flashSize partitionStart : UInt32) (first last : ℕ) : List ℕ :=
  ((List.range' first (last + 1 - first)).map fun sector =>
    (partitionStart.toNat / 4096 + sector) % 4096).filter
      fun sector => 4096 * sector < flashSize.toNat

theorem targets_addresses (aligned : partition.partitionStartAddr.toNat % 4096 = 0)
    (offset size : UInt32) :
    targets flashSize (addresses partition offset size) =
      sectorsBetween flashSize partition.partitionStartAddr (offset.toNat / 4096)
        ((offset + size - 1).toNat / 4096) := by
  have sector_eq (value : UInt32) : (value >>> 12).toNat = value.toNat / 4096 := by
    rw [UInt32.toNat_shiftRight]
    exact Nat.shiftRight_eq_div_pow _ 12
  rw [targets, addresses, List.map_map, sector_eq, sector_eq, sectorsBetween]
  congr 1
  exact List.map_congr_left fun sector _ => sectorOf_row aligned sector

variable {partitionStart : UInt32} {first last : ℕ}

theorem mem_sectorsBetween {sector : ℕ} :
    sector ∈ sectorsBetween flashSize partitionStart first last ↔
      4096 * sector < flashSize.toNat ∧ ∃ index, first ≤ index ∧ index ≤ last ∧
        (partitionStart.toNat / 4096 + index) % 4096 = sector := by
  rw [sectorsBetween, List.mem_filter, List.mem_map, decide_eq_true_iff, and_comm]
  refine and_congr_right fun _ => exists_congr fun index => ?_
  rw [List.mem_range'_1, ← and_assoc]
  refine and_congr_left fun _ => ?_
  omega

theorem nodup_sectorsBetween (bounded : partitionStart.toNat / 4096 + last < 4096) :
    (sectorsBetween flashSize partitionStart first last).Nodup := by
  refine List.Nodup.filter _ (List.Nodup.map_on ?_ List.nodup_range')
  intro one one_mem other other_mem same
  rw [List.mem_range'_1] at one_mem other_mem
  omega

end

/-! ### What a call erases -/

section
variable {flashSize : UInt32} {partition : Flash.LogicPartition} {offset size : UInt32}
  {memory : Flash}

theorem erasesExactly_of_ne_zero
    (aligned : partition.partitionStartAddr.toNat % 4096 = 0)
    (bounded : partition.partitionStartAddr.toNat + (offset.toNat + size.toNat) ≤ 0x200000)
    (some : size ≠ 0) :
    ErasesExactly flashSize (partition.partitionStartAddr.toNat + offset.toNat) size.toNat memory
      (bkFlashErase flashSize partition offset size ⟨memory, []⟩) := by
  have some : size.toNat ≠ 0 := fun none => some (UInt32.toNat_inj.mp none)
  have one : (1 : UInt32).toNat = 1 := rfl
  have last_eq : (offset + size - 1).toNat = offset.toNat + size.toNat - 1 := by
    rw [UInt32.toNat_sub, UInt32.toNat_add, one]
    omega
  rw [bkFlashErase_eq, erasesExactly_foldl_iff, targets_addresses aligned, last_eq]
  refine ⟨nodup_sectorsBetween (by omega), fun sector => ?_⟩
  rw [mem_sectorsBetween, meets_iff (by omega)]
  refine and_congr_right fun _ => ?_
  constructor
  · rintro ⟨index, after, before, rfl⟩
    omega
  · rintro ⟨after, before⟩
    exact ⟨sector - partition.partitionStartAddr.toNat / 4096, by omega, by omega, by omega⟩

theorem erasesExactly_zero_iff (aligned : partition.partitionStartAddr.toNat % 4096 = 0)
    {start : ℕ} :
    ErasesExactly flashSize start 0 memory
        (bkFlashErase flashSize partition offset 0 ⟨memory, []⟩) ↔
      ∀ index, offset.toNat / 4096 ≤ index → index ≤ (offset - 1).toNat / 4096 →
        flashSize.toNat ≤
          4096 * ((partition.partitionStartAddr.toNat / 4096 + index) % 4096) := by
  rw [bkFlashErase_eq, erasesExactly_foldl_iff, targets_addresses aligned, UInt32.add_zero]
  constructor
  · rintro ⟨-, sectors⟩ index after before
    by_contra inside
    have gone := mem_sectorsBetween.mpr ⟨Nat.not_le.mp inside, index, after, before, rfl⟩
    exact not_meets_zero ((sectors _).mp gone).2
  · intro outside
    have nothing sector : sector ∉ sectorsBetween flashSize partition.partitionStartAddr
        (offset.toNat / 4096) ((offset - 1).toNat / 4096) := by
      rw [mem_sectorsBetween]
      rintro ⟨inside, index, after, before, rfl⟩
      exact Nat.not_le.mpr inside (outside index after before)
    rw [List.eq_nil_iff_forall_not_mem.mpr nothing]
    exact ⟨List.nodup_nil, fun sector =>
      iff_of_false List.not_mem_nil fun asked => not_meets_zero asked.2⟩

end

/-- `bk_flash_erase` erases the sectors of what is asked for, but for empty calls: those erase the
sector their offset lies in, and the whole flash if the offset is zero. -/
theorem bk_flash_erase_exact_iff (soc : SocName) (flashId : UInt32) (partition : BkPartition)
    (offset size : UInt32) (memory : Flash)
    (inside : offset.toNat + size.toNat ≤ (bk7231Partitions soc partition).partitionLength.toNat) :
    ErasesExactly (flashCurrentConfig flashId).flashSize
        ((bk7231Partitions soc partition).partitionStartAddr.toNat + offset.toNat) size.toNat memory
        (bkFlashErase (flashCurrentConfig flashId).flashSize (bk7231Partitions soc partition)
          offset size ⟨memory, []⟩) ↔
      size ≠ 0 ∨ offset ≠ 0 ∧ (offset.toNat % 4096 = 0 ∨
        (flashCurrentConfig flashId).flashSize.toNat ≤
          4096 * (((bk7231Partitions soc partition).partitionStartAddr.toNat + offset.toNat) /
            4096)) := by
  obtain ⟨aligned, bounded⟩ := bk7231Partitions_bounds soc partition
  obtain ⟨size_pos, -, -⟩ := flashSize_known flashId
  by_cases some : size ≠ 0
  · exact iff_of_true (erasesExactly_of_ne_zero aligned (by omega) some) (Or.inl some)
  · obtain rfl : size = 0 := not_not.mp some
    have one : (1 : UInt32).toNat = 1 := rfl
    have last_eq : (offset - 1).toNat = (2 ^ 32 - 1 + offset.toNat) % 2 ^ 32 := by
      rw [UInt32.toNat_sub, one]
    have offset_zero : offset ≠ 0 ↔ offset.toNat ≠ 0 := not_congr UInt32.toNat_inj.symm
    rw [or_iff_right some, offset_zero]
    refine (erasesExactly_zero_iff aligned).trans ?_
    rw [last_eq]
    constructor
    · intro outside
      have first := outside (offset.toNat / 4096)
      have wrapped := outside
        (4096 - (bk7231Partitions soc partition).partitionStartAddr.toNat / 4096)
      omega
    · rintro ⟨offset_ne, reason⟩ index after before
      omega

theorem erase_inside_net_param_exact :
    ErasesExactly (flashCurrentConfig 0x0B4015).flashSize (0x1E1000 + 16) 32 (fun _ => 0)
      (bkFlashErase (flashCurrentConfig 0x0B4015).flashSize (bk7231Partitions .bk7231 .netParam)
        16 32 ⟨fun _ => 0, []⟩) :=
  (bk_flash_erase_exact_iff .bk7231 0x0B4015 .netParam 16 32 (fun _ => 0) (by decide)).mpr
    (Or.inl (by decide))

/-- An empty erase of the network parameters erases the boot loader. -/
theorem empty_erase_not_exact :
    ¬ErasesExactly (flashCurrentConfig 0x0B4015).flashSize (0x1E1000 + 0) 0 (fun _ => 0)
      (bkFlashErase (flashCurrentConfig 0x0B4015).flashSize (bk7231Partitions .bk7231 .netParam)
        0 0 ⟨fun _ => 0, []⟩) := by
  intro exact
  have outside := (erasesExactly_zero_iff (by decide)).mp exact
  exact absurd (outside (4096 - 0x1E1) (by decide) (by decide)) (by decide)

/-! ### Erasing, writing and reading -/

/-- `bk_flash_write`. -/
def bkFlashWrite (flashSize : UInt32) (partition : Flash.LogicPartition) (offset : UInt32)
    (inBuffer : Memory UInt8) (inBufferLength : UInt32) (pb : Memory UInt8) (chip : Chip) : Chip :=
  flashWriteData flashSize inBuffer (partition.partitionStartAddr + offset) inBufferLength pb chip

/-- `bk_flash_read`. -/
def bkFlashRead (partition : Flash.LogicPartition) (offset : UInt32) (outBuffer : Memory UInt8)
    (inBufferLength : UInt32) (chip : Chip) : Memory UInt8 × Chip :=
  flashReadData outBuffer (partition.partitionStartAddr + offset) inBufferLength chip

theorem memory_foldl_flashEraseSector {flashSize : UInt32} {chip : Chip} {addresses : List UInt32}
    (inside : ∀ address ∈ addresses, 4096 * sectorOf address < flashSize.toNat) :
    (addresses.foldl (flashEraseSector flashSize) chip).memory =
      addresses.foldl Flash.eraseSector chip.memory := by
  induction addresses generalizing chip with
  | nil => rfl
  | cons address addresses ih =>
      rw [List.forall_mem_cons] at inside
      rw [List.foldl_cons, List.foldl_cons, ih inside.2, flashEraseSector_eq inside.1]

section
variable {flashSize : UInt32} {partition : Flash.LogicPartition} {offset size : UInt32}

/-- Inside the flash, the driver erases what `Flash.bkFlashErase` erases. -/
theorem memory_bkFlashErase (aligned : partition.partitionStartAddr.toNat % 4096 = 0)
    (bounded : partition.partitionStartAddr.toNat + (offset.toNat + size.toNat) ≤ 0x200000)
    (in_flash : partition.partitionStartAddr.toNat + (offset.toNat + size.toNat) ≤ flashSize.toNat)
    (some : size ≠ 0) (chip : Chip) :
    (bkFlashErase flashSize partition offset size chip).memory =
      chip.memory.bkFlashErase partition offset size := by
  have some : size.toNat ≠ 0 := fun none => some (UInt32.toNat_inj.mp none)
  have one : (1 : UInt32).toNat = 1 := rfl
  have sector_eq (value : UInt32) : (value >>> 12).toNat = value.toNat / 4096 := by
    rw [UInt32.toNat_shiftRight]
    exact Nat.shiftRight_eq_div_pow _ 12
  have last_eq : (offset + size - 1).toNat = offset.toNat + size.toNat - 1 := by
    rw [UInt32.toNat_sub, UInt32.toNat_add, one]
    omega
  rw [bkFlashErase_eq, memory_foldl_flashEraseSector, addresses, List.foldl_map,
    Flash.bkFlashErase]
  intro address member
  rw [addresses, sector_eq, sector_eq, last_eq] at member
  obtain ⟨sector, range, rfl⟩ := List.mem_map.mp member
  rw [List.mem_range'_1] at range
  rw [sectorOf_row aligned]
  omega

end

/-- An erase and a write of the same part leave the memory that `Flash.bkFlashWrite` describes,
which overwrites what was erased. -/
theorem memory_erase_write (flashId : UInt32) (partition : BkPartition) (offset size : UInt32)
    (memory : Flash) (inBuffer pb : Memory UInt8) (some : size ≠ 0)
    (inside : offset.toNat + size.toNat ≤ (bk7231Partitions soc partition).partitionLength.toNat)
    (in_flash : (bk7231Partitions soc partition).partitionStartAddr.toNat +
      (offset.toNat + size.toNat) ≤ (flashCurrentConfig flashId).flashSize.toNat) :
    let flashSize := (flashCurrentConfig flashId).flashSize
    let row := bk7231Partitions soc partition
    (bkFlashWrite flashSize row offset inBuffer size pb
        (bkFlashErase flashSize row offset size ⟨memory, []⟩)).memory =
      (memory.bkFlashErase row offset size).bkFlashWrite row offset inBuffer size := by
  intro flashSize row
  obtain ⟨aligned, bounded⟩ : row.partitionStartAddr.toNat % 4096 = 0 ∧
      row.partitionStartAddr.toNat + row.partitionLength.toNat ≤ 0x200000 :=
    bk7231Partitions_bounds soc partition
  change _ ≤ row.partitionLength.toNat at inside
  change row.partitionStartAddr.toNat + _ ≤ flashSize.toNat at in_flash
  have start_eq : (row.partitionStartAddr + offset).toNat =
      row.partitionStartAddr.toNat + offset.toNat := by
    rw [UInt32.toNat_add]
    exact Nat.mod_eq_of_lt (by omega)
  have fits : (row.partitionStartAddr + offset).toNat + size.toNat ≤ flashSize.toNat := by
    rw [start_eq]
    omega
  have erased := (@erasesExactly_of_ne_zero flashSize row offset size memory aligned
    (by omega) some).memory
  have erase_eq := memory_bkFlashErase aligned (by omega) in_flash some ⟨memory, []⟩
  funext place
  rw [bkFlashWrite, memory_flashWriteData (flashSize_known flashId).2.1 fits, ← erase_eq,
    Flash.bkFlashWrite, start_eq]
  rcases Nat.lt_or_ge place (row.partitionStartAddr.toNat + offset.toNat) with before | after
  · rw [if_neg (by omega), Memory.store_apply_of_lt _ _ before]
  · obtain ⟨index, rfl⟩ := Nat.exists_eq_add_of_le after
    by_cases within : index < size.toNat
    · have asked : Meets (row.partitionStartAddr.toNat + offset.toNat) size.toNat
          ((row.partitionStartAddr.toNat + offset.toNat + index) / 4096) :=
        ⟨_, by omega, by omega, rfl⟩
      rw [if_pos (by omega), Memory.store_apply_add, Memory.getElem?_load, if_pos within,
        erased _ (by omega), if_pos asked, Nat.add_sub_cancel_left, Nat.zero_add]
      exact UInt8.neg_one_and
    · rw [if_neg (by omega), Memory.store_apply_of_le]
      rw [Memory.length_load]
      omega

open Classical in
/-- What is written to a part of a partition that has been erased is read back, the rest of its
sectors is left erased, and nothing else of the flash has changed. -/
theorem bk_flash_erase_write_read (soc : SocName) (flashId : UInt32) (partition : BkPartition)
    (offset size : UInt32) (memory : Flash) (inBuffer pb outBuffer : Memory UInt8) (some : size ≠ 0)
    (inside : offset.toNat + size.toNat ≤ (bk7231Partitions soc partition).partitionLength.toNat)
    (in_flash : (bk7231Partitions soc partition).partitionStartAddr.toNat +
      (offset.toNat + size.toNat) ≤ (flashCurrentConfig flashId).flashSize.toNat) :
    let flashSize := (flashCurrentConfig flashId).flashSize
    let row := bk7231Partitions soc partition
    let start := row.partitionStartAddr.toNat + offset.toNat
    let written := bkFlashWrite flashSize row offset inBuffer size pb
      (bkFlashErase flashSize row offset size ⟨memory, []⟩)
    (bkFlashRead row offset outBuffer size written).1.load 0 size.toNat =
        inBuffer.load 0 size.toNat ∧
      ∀ place < flashSize.toNat, written.memory place =
        if start ≤ place ∧ place < start + size.toNat then inBuffer (place - start)
        else if Meets start size.toNat (place / 4096) then 0xFF else memory place := by
  intro flashSize row start written
  obtain ⟨aligned, bounded⟩ : row.partitionStartAddr.toNat % 4096 = 0 ∧
      row.partitionStartAddr.toNat + row.partitionLength.toNat ≤ 0x200000 :=
    bk7231Partitions_bounds soc partition
  change _ ≤ row.partitionLength.toNat at inside
  change row.partitionStartAddr.toNat + _ ≤ flashSize.toNat at in_flash
  have start_def : start = row.partitionStartAddr.toNat + offset.toNat := rfl
  have erased := (@erasesExactly_of_ne_zero flashSize row offset size memory aligned
    (by omega) some).memory
  have start_eq : (row.partitionStartAddr + offset).toNat = start := by
    rw [UInt32.toNat_add]
    exact Nat.mod_eq_of_lt (by omega)
  have written_eq := @memory_flashWriteData flashSize (row.partitionStartAddr + offset) size
    inBuffer pb (bkFlashErase flashSize row offset size ⟨memory, []⟩) (flashSize_known flashId).2.1
    (by rw [start_eq]; omega)
  rw [start_eq] at written_eq
  have memory_eq : ∀ place < flashSize.toNat, written.memory place =
      if start ≤ place ∧ place < start + size.toNat then inBuffer (place - start)
      else if Meets start size.toNat (place / 4096) then 0xFF else memory place := by
    intro place in_flash
    refine (written_eq place).trans ?_
    split
    · rename_i asked
      rw [erased place in_flash, if_pos ⟨place, asked.1, asked.2, rfl⟩]
      exact UInt8.neg_one_and
    · exact erased place in_flash
  refine ⟨?_, memory_eq⟩
  have read := (@readLoop_eq _ _ _ 0 outBuffer written
    (inLine_lineAddr (row.partitionStartAddr + offset) size (by omega))).1
  rw [start_eq] at read
  have loaded := Memory.load_store_self outBuffer 0 (written.memory.load start size.toNat)
  rw [Memory.length_load] at loaded
  rw [bkFlashRead, flashReadData, read, loaded]
  apply Memory.load_eq_load
  intro index within
  rw [memory_eq _ (by omega), if_pos (by omega), Nat.add_sub_cancel_left, Nat.zero_add]

theorem bk_flash_erase_write_read_net_param :
    let row := bk7231Partitions .bk7231 .netParam
    let written := bkFlashWrite 0x400000 row 30 (fun index => .ofNat index) 4 (fun _ => 0)
      (bkFlashErase 0x400000 row 30 4 ⟨fun _ => 0, []⟩)
    (bkFlashRead row 30 (fun _ => 0) 4 written).1.load 0 4 = [0, 1, 2, 3] :=
  (bk_flash_erase_write_read .bk7231 0x0B4016 .netParam 30 4 (fun _ => 0) (fun index => .ofNat index)
    (fun _ => 0) (fun _ => 0) (by decide) (by decide) (by decide)).1

end BdkFreertos.FlashErase
