import BdkFreertos.Memory

/-!
# The flash partitions

The embedded flash is an array of bytes, erased by sectors of 4096 bytes and written in place.
`bk_flash_erase` and `bk_flash_write` address it through a table of partitions.
-/

namespace BdkFreertos

/-- The chips the firmware is built for. -/
inductive SocName
  | bk7231
  | bk7231u
  | bk7221u
  | bk7271
  | bk7231n
  deriving DecidableEq

abbrev Flash := Memory UInt8

namespace Flash

/-- A row of the partition table. -/
structure LogicPartition where
  partitionStartAddr : UInt32
  partitionLength : UInt32

/-- The partition that keeps the network parameters. -/
def netParamPartition (soc : SocName) : LogicPartition where
  partitionStartAddr := if soc = .bk7221u then 0x1FF000 else 0x1e1000
  partitionLength := 0x1000

/-- Erase the sector that contains an address. -/
def eraseSector (flash : Flash) (address : UInt32) : Flash :=
  let eraseAddr := (address &&& 0xFFF000).toNat
  fun place => if eraseAddr ≤ place ∧ place < eraseAddr + 4096 then 0xFF else flash place

/-- Erase every sector that meets `size` bytes from `offset` on. -/
def bkFlashErase (flash : Flash) (partition : LogicPartition) (offset size : UInt32) : Flash :=
  let startSector := (offset >>> 12).toNat
  let endSector := ((offset + size - 1) >>> 12).toNat
  (List.range' startSector (endSector + 1 - startSector)).foldl
    (fun flash sector =>
      flash.eraseSector (partition.partitionStartAddr + (UInt32.ofNat sector <<< 12))) flash

/-- Write a buffer into a part of a partition that has been erased. -/
def bkFlashWrite (flash : Flash) (partition : LogicPartition) (offset : UInt32)
    (buffer : Memory UInt8) (length : UInt32) : Flash :=
  flash.store (partition.partitionStartAddr + offset).toNat (buffer.load 0 length.toNat)

/-- Read `count` bytes of the flash device into a buffer. -/
def ddevRead (flash : Flash) (buffer : Memory UInt8) (count address : UInt32) : Memory UInt8 :=
  buffer.store 0 (flash.load address.toNat count.toNat)

end Flash
end BdkFreertos
