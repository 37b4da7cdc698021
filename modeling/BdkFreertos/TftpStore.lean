import BdkFreertos.HttpFlash
import BdkFreertos.MacFrame
import BdkFreertos.Machine

/-!
# Storing the blocks of an image

`store_block` takes the address of the image from the header of the first block, erases a sector when
the running address is at its start, and programs the bytes after the header if the running address
is in the window for images.  The flash driver refuses what is beyond the end of the device.  The
bytes are then read back into a heap block of 1024 bytes, however many they are.
-/

namespace BdkFreertos

namespace Flash

/-- Whether `flash_erase_sector` erases the sector of an address. -/
def eraseAccepted (flashSize address : UInt32) : Bool := (address &&& 0xFFF000) < flashSize

/-- `flash_ctrl` with `CMD_FLASH_ERASE_SECTOR`. -/
def flashEraseSector (flashSize : UInt32) (flash : Flash) (address : UInt32) : Flash :=
  if eraseAccepted flashSize address then flash.eraseSector address else flash

/-- Whether `flash_write` programs so many bytes at an address. -/
def writeAccepted (flashSize address len : UInt32) : Bool :=
  let addr := address &&& ~~~0x1F
  !(addr ≥ flashSize || len > flashSize || addr + len > flashSize)

/-- `flash_write` of so many bytes of a buffer. -/
def flashWrite (flashSize : UInt32) (flash : Flash) (buffer : Memory UInt8) (start : ℕ)
    (len address : UInt32) : Flash :=
  if writeAccepted flashSize address len then
    flash.program address.toNat (buffer.load start len.toNat)
  else flash

end Flash

namespace Tftp

/-- The header of a block, `SEND_PTK_HD`. -/
structure SendPtkHd where
  totalLen : UInt32
  seq : UInt16
  totalSeq : UInt16
  os0ExAddr : UInt32
  osHdAddr : UInt32
  os0FlashAddr : UInt32
  os1FlashAddr : UInt32

/-- `TFTP_PKT_HD_LEN`. -/
def tftpPktHdLen : UInt32 := 24

def tftpAllCrcLen : UInt32 := 4

def os1FlashAddr : UInt32 := 0x8C000

/-- The header at a place of a buffer. -/
def loadSendHd (buffer : Memory UInt8) (src : ℕ) : SendPtkHd where
  totalLen := buffer.loadWord src
  seq := halfOfBytes (buffer (src + 4)) (buffer (src + 5))
  totalSeq := halfOfBytes (buffer (src + 6)) (buffer (src + 7))
  os0ExAddr := buffer.loadWord (src + 8)
  osHdAddr := buffer.loadWord (src + 12)
  os0FlashAddr := buffer.loadWord (src + 16)
  os1FlashAddr := buffer.loadWord (src + 20)

/-- The record `IMG_HEAD` of a complete image, as it is written to the flash device. -/
def imgHeadBytes (sendHd : SendPtkHd) (crc : UInt32) : List UInt8 :=
  wordBytes sendHd.os1FlashAddr ++ (wordBytes sendHd.totalLen ++ (wordBytes sendHd.os0ExAddr ++
    (wordBytes sendHd.os0FlashAddr ++ (wordBytes sendHd.osHdAddr ++ (wordBytes crc ++
      (wordBytes 1 ++ wordBytes 0))))))

/-- What the flash device has done for image data. -/
inductive ImageOp
  | erase (sector : ℕ)
  /-- So many bytes were programmed from an address on. -/
  | program (address count : ℕ)
  deriving DecidableEq

/-- The variables of `store_block` and the flash device. -/
structure Store where
  osDataAddr : UInt32
  tftpCrc : UInt32
  flash : Flash
  /-- What has been done for image data in this transfer, in order. -/
  imageOps : List ImageOp
  /-- Bytes were stored behind a heap block; what the code does from then on is not known. -/
  overrun : Bool

/-- What the code rests on that is not modelled. -/
structure Platform where
  /-- `co_crc32` of so many bytes at a place of a buffer, from a given value on. -/
  coCrc32 : Memory UInt8 → ℕ → UInt32 → UInt32 → UInt32
  flashSize : UInt32

def dataAddr (store : Store) (block : UInt32) (buffer : Memory UInt8) (src : ℕ) : UInt32 :=
  if block ≠ 0 then store.osDataAddr else (loadSendHd buffer src).os1FlashAddr

/-- The erase command of `store_block`. -/
def eraseImage (platform : Platform) (store : Store) : Store :=
  if store.osDataAddr % 0x1000 = 0 then
    { store with
      flash := store.flash.flashEraseSector platform.flashSize store.osDataAddr
      imageOps := store.imageOps ++
        if Flash.eraseAccepted platform.flashSize store.osDataAddr then
          [.erase (store.osDataAddr &&& 0xFFF000).toNat]
        else [] }
  else store

/-- The write of the data of a block. -/
def writeImage (platform : Platform) (store : Store) (buffer : Memory UInt8) (src : ℕ)
    (count : UInt32) : Store :=
  { store with
    flash := store.flash.flashWrite platform.flashSize buffer src count store.osDataAddr
    imageOps := store.imageOps ++
      if Flash.writeAccepted platform.flashSize store.osDataAddr count then
        [.program store.osDataAddr.toNat count.toNat]
      else [] }

/-- The size of `f_data`. -/
def fDataLen : UInt32 := 1024

/-- Read the data of a block back into `f_data`, if it could be allocated. -/
def readBack (store : Store) (allocated : Bool) (count : UInt32) : Store :=
  { store with overrun := store.overrun || (allocated && decide (fDataLen < count)) }

/-- The check of the whole image, which ends with the record of the image in its own sector. -/
def checkImage (platform : Platform) (store : Store) (buffer : Memory UInt8) (src : ℕ)
    (len : UInt32) : Store :=
  let sendHd := loadSendHd buffer src
  if sendHd.seq ≠ sendHd.totalSeq then
    { store with tftpCrc := platform.coCrc32 buffer src len store.tftpCrc }
  else
    let orCrc := buffer.loadWord (src + len.toNat - tftpAllCrcLen.toNat)
    let tftpCrc := platform.coCrc32 buffer src (len - tftpAllCrcLen) store.tftpCrc
    if tftpCrc = orCrc then
      let flash := store.flash.flashEraseSector platform.flashSize sendHd.osHdAddr
      { store with
        tftpCrc := tftpCrc
        flash := flash.flashWrite platform.flashSize
          (Memory.store (fun _ => 0) 0 (imgHeadBytes sendHd orCrc)) 0 32 sendHd.osHdAddr }
    else { store with tftpCrc := tftpCrc }

/-- The first part of `store_block`: the first block gives the address of the image. -/
def openBlock (store : Store) (block : UInt32) (buffer : Memory UInt8) (src : ℕ) : Store :=
  { store with
    osDataAddr := dataAddr store block buffer src
    tftpCrc := if block ≠ 0 then store.tftpCrc else 0 }

/-- The last part of `store_block`, for an address in the window. -/
def storeData (platform : Platform) (store : Store) (buffer : Memory UInt8) (src : ℕ)
    (len : UInt32) (allocated : Bool) : Store :=
  let count := len - tftpPktHdLen
  let store := writeImage platform store buffer (src + tftpPktHdLen.toNat) count
  let store := readBack store allocated count
  let store := checkImage platform store buffer src len
  { store with osDataAddr := store.osDataAddr + count }

/-- `store_block` of `len` bytes at a place of a buffer; `allocated` is the success of `os_malloc`. -/
def storeBlock (platform : Platform) (store : Store) (block : UInt32) (buffer : Memory UInt8)
    (src : ℕ) (len : UInt32) (allocated : Bool) : Store :=
  let store := eraseImage platform (openBlock store block buffer src)
  if store.osDataAddr ≥ 0x200000 ∨ store.osDataAddr < 0x27000 then store
  else storeData platform store buffer src len allocated

/-- A call of `store_block`. -/
structure Call where
  block : UInt32
  buffer : Memory UInt8
  src : ℕ
  len : UInt32
  allocated : Bool

def storeMachine (platform : Platform) : Machine Store Call Unit where
  step store call :=
    (storeBlock platform store call.block call.buffer call.src call.len call.allocated, ())

/-- A transfer begins with whatever the one before has left. -/
def transferStart (osDataAddr tftpCrc : UInt32) (flash : Flash) : Store :=
  ⟨osDataAddr, tftpCrc, flash, [], false⟩

/-! ## Where images go -/

def InWindow (place : ℕ) : Prop := 0x27000 ≤ place ∧ place < 0x200000

instance (place : ℕ) : Decidable (InWindow place) := inferInstanceAs (Decidable (_ ∧ _))

def Erased (imageOps : List ImageOp) (place : ℕ) : Prop :=
  ∃ sector, .erase sector ∈ imageOps ∧ sector ≤ place ∧ place < sector + 0x1000

/-- An operation stays in the window, and what it programs has been erased before. -/
def OpSafe (earlier : List ImageOp) : ImageOp → Prop
  | .erase sector => ∀ place, sector ≤ place → place < sector + 0x1000 → InWindow place
  | .program address count => ∀ place, address ≤ place → place < address + count →
      InWindow place ∧ Erased earlier place

/-- Every operation of a transfer was safe after those before it. -/
def Safe (imageOps : List ImageOp) : Prop :=
  ∀ earlier imageOp, earlier ++ [imageOp] <+: imageOps → OpSafe earlier imageOp

/-- The operations of a transfer were safe, and the memory is intact. -/
def Store.Good (store : Store) : Prop :=
  Safe store.imageOps ∧ store.overrun = false

/-- Data that are read back fit the heap block. -/
def ReadBackFits (store : Store) (call : Call) : Prop :=
  InWindow (dataAddr store call.block call.buffer call.src).toNat → call.allocated = true →
    call.len - tftpPktHdLen ≤ fDataLen

instance (store : Store) (call : Call) : Decidable (ReadBackFits store call) :=
  inferInstanceAs (Decidable (_ → _ → _))

/-- A sector that is going to be erased is in the window; data that are going to be programmed end in
the window, and every sector they reach into, but the one that begins at their address, has been
erased before; and what is read back fits the heap block. -/
def Confined (platform : Platform) (store : Store) (call : Call) : Prop :=
  let address := dataAddr store call.block call.buffer call.src
  let count := call.len - tftpPktHdLen
  (address % 0x1000 = 0 → Flash.eraseAccepted platform.flashSize address = true →
    InWindow (address &&& 0xFFF000).toNat) ∧
  (InWindow address.toNat → Flash.writeAccepted platform.flashSize address count = true →
    0 < count.toNat → address.toNat + count.toNat ≤ 0x200000 ∧
      ∀ sector, sector % 0x1000 = 0 → address.toNat < sector + 0x1000 →
        sector < address.toNat + count.toNat →
          sector = address.toNat ∨ Erased store.imageOps sector) ∧
  ReadBackFits store call

variable {platform : Platform} {store : Store} {imageOps : List ImageOp}

theorem safe_concat_iff {imageOp : ImageOp} :
    Safe (imageOps ++ [imageOp]) ↔ Safe imageOps ∧ OpSafe imageOps imageOp := by
  constructor
  · intro safe
    exact ⟨fun earlier other initial => safe earlier other (initial.trans (List.prefix_append _ _)),
      safe imageOps imageOp (List.prefix_refl _)⟩
  · rintro ⟨safe, last⟩ earlier other initial
    rcases List.prefix_concat_iff.mp initial with same | before
    · obtain ⟨rfl, same_op⟩ := List.append_inj' same rfl
      obtain rfl := List.singleton_inj.mp same_op
      exact last
    · exact safe earlier other before

/-- The erase commands of a call that the driver carries out. -/
def eraseOps (platform : Platform) (address : UInt32) : List ImageOp :=
  if address % 0x1000 = 0 ∧ Flash.eraseAccepted platform.flashSize address = true then
    [.erase (address &&& 0xFFF000).toNat]
  else []

/-- The write commands of a call that the driver carries out. -/
def programOps (platform : Platform) (address count : UInt32) : List ImageOp :=
  if InWindow address.toNat ∧ Flash.writeAccepted platform.flashSize address count = true then
    [.program address.toNat count.toNat]
  else []

variable {address : UInt32} {buffer : Memory UInt8} {src : ℕ} {len count : UInt32}
  {sector place : ℕ} (flashSize : UInt32) (flash : Flash)

theorem inWindow_iff : InWindow address.toNat ↔ ¬ (address ≥ 0x200000 ∨ address < 0x27000) := by
  rw [InWindow, ge_iff_le, UInt32.le_iff_toNat_le, UInt32.lt_iff_toNat_lt]
  have low : (0x27000 : UInt32).toNat = 0x27000 := rfl
  have high : (0x200000 : UInt32).toNat = 0x200000 := rfl
  omega

@[simp]
theorem eraseImage_osDataAddr : (eraseImage platform store).osDataAddr = store.osDataAddr := by
  rw [eraseImage]
  split <;> rfl

@[simp]
theorem checkImage_osDataAddr :
    (checkImage platform store buffer src len).osDataAddr = store.osDataAddr := by
  rw [checkImage]
  dsimp only
  split
  · rfl
  · split <;> rfl

@[simp]
theorem checkImage_imageOps :
    (checkImage platform store buffer src len).imageOps = store.imageOps := by
  rw [checkImage]
  dsimp only
  split
  · rfl
  · split <;> rfl

theorem eraseImage_imageOps : (eraseImage platform store).imageOps =
    store.imageOps ++ eraseOps platform store.osDataAddr := by
  rw [eraseImage, eraseOps]
  split
  · next aligned => simp [aligned]
  · next unaligned => simp [unaligned]

theorem storeData_imageOps (buffer : Memory UInt8) (src : ℕ) (len : UInt32) (allocated : Bool) :
    (storeData platform store buffer src len allocated).imageOps = store.imageOps ++
      if Flash.writeAccepted platform.flashSize store.osDataAddr (len - tftpPktHdLen) then
        [.program store.osDataAddr.toNat (len - tftpPktHdLen).toNat]
      else [] := by
  rw [storeData]
  dsimp only
  rw [checkImage_imageOps, readBack, writeImage]

theorem storeBlock_imageOps (block : UInt32) (buffer : Memory UInt8) (src : ℕ) (len : UInt32)
    (allocated : Bool) :
    (storeBlock platform store block buffer src len allocated).imageOps =
      store.imageOps ++ eraseOps platform (dataAddr store block buffer src) ++
        programOps platform (dataAddr store block buffer src) (len - tftpPktHdLen) := by
  have erased : (eraseImage platform (openBlock store block buffer src)).imageOps =
      store.imageOps ++ eraseOps platform (dataAddr store block buffer src) := eraseImage_imageOps
  have address : (eraseImage platform (openBlock store block buffer src)).osDataAddr =
      dataAddr store block buffer src := eraseImage_osDataAddr
  rw [storeBlock, address, programOps]
  split
  · next outside =>
      rw [erased, if_neg fun both => inWindow_iff.mp both.1 outside, List.append_nil]
  · next inside =>
      rw [storeData_imageOps, erased, address]
      simp [inWindow_iff.mpr inside]

@[simp]
theorem checkImage_overrun :
    (checkImage platform store buffer src len).overrun = store.overrun := by
  rw [checkImage]
  dsimp only
  split
  · rfl
  · split <;> rfl

/-- The memory stays intact exactly if what is read back fits. -/
theorem storeBlock_overrun_iff (intact : store.overrun = false) (call : Call) :
    (storeBlock platform store call.block call.buffer call.src call.len call.allocated).overrun =
        false ↔
      ReadBackFits store call := by
  have address : (eraseImage platform (openBlock store call.block call.buffer call.src)).osDataAddr =
      dataAddr store call.block call.buffer call.src := eraseImage_osDataAddr
  have erased : (eraseImage platform
      (openBlock store call.block call.buffer call.src)).overrun = false := by
    rw [eraseImage]
    split <;> exact intact
  rw [storeBlock, address, ReadBackFits, inWindow_iff]
  split
  · next outside => exact iff_of_true erased fun inside => absurd outside inside
  · next inside =>
      simp only [storeData, checkImage_overrun, readBack, writeImage, erased, Bool.false_or,
        Bool.and_eq_false_iff, decide_eq_false_iff_not, UInt32.not_lt, inside, not_false_iff,
        true_imp_iff]
      cases call.allocated <;> simp

def SectorsAligned (imageOps : List ImageOp) : Prop :=
  ∀ sector, .erase sector ∈ imageOps → sector % 0x1000 = 0

theorem and_mask_mod (address : UInt32) : (address &&& 0xFFF000).toNat % 0x1000 = 0 := by
  have mask : (0xFFF000 : UInt32).toNat % 2 ^ 12 = 0 := by decide
  rw [UInt32.toNat_and, show 0x1000 = 2 ^ 12 by rfl, Nat.and_mod_two_pow, mask, Nat.and_zero]

theorem sectorsAligned_step (aligned : SectorsAligned imageOps) (address count : UInt32) :
    SectorsAligned (imageOps ++ eraseOps platform address ++ programOps platform address count) := by
  intro sector member
  rcases List.mem_append.mp member with earlier | last
  · rcases List.mem_append.mp earlier with before | erased
    · exact aligned sector before
    · rw [eraseOps] at erased
      split at erased
      · obtain rfl := ImageOp.erase.inj (List.mem_singleton.mp erased)
        exact and_mask_mod address
      · contradiction
  · rw [programOps] at last
    split at last
    · nomatch List.mem_singleton.mp last
    · contradiction

theorem eraseOp_safe_iff (aligned : sector % 0x1000 = 0) :
    OpSafe imageOps (.erase sector) ↔ InWindow sector := by
  constructor
  · intro safe
    exact safe sector (Nat.le_refl _) (by omega)
  · intro inside place reached before
    rw [InWindow] at inside ⊢
    omega

theorem mod_sector_iff : address % 0x1000 = 0 ↔ address.toNat % 0x1000 = 0 := by
  have rest : (address % 0x1000).toNat = address.toNat % 0x1000 := rfl
  rw [← rest]
  exact ⟨fun zero => by rw [zero]; rfl, fun zero => UInt32.toNat_inj.mp zero⟩

/-- At the start of a sector in the window the driver erases exactly this sector, if it accepts
data there. -/
theorem eraseOps_eq (aligned : address.toNat % 0x1000 = 0) (inside : InWindow address.toNat)
    (accepted : Flash.writeAccepted platform.flashSize address count = true) :
    eraseOps platform address = [.erase address.toNat] := by
  have sector_mask : (0xFFF000 : UInt32).toNat = (2 ^ 12 - 1) <<< 12 := by decide
  have page_mask : (~~~0x1F : UInt32).toNat = (2 ^ 27 - 1) <<< 5 := by decide
  have small : address.toNat < 2 ^ 24 := Nat.lt_of_lt_of_le inside.2 (by decide)
  have same_sector : address &&& 0xFFF000 = address := Flash.and_mask_eq sector_mask aligned small
  have same_page : address &&& ~~~0x1F = address := by
    refine Flash.and_mask_eq page_mask ?_ (Nat.lt_of_lt_of_le small (by decide))
    omega
  have erased : Flash.eraseAccepted platform.flashSize address = true := by
    rw [Flash.writeAccepted, same_page] at accepted
    rw [Flash.eraseAccepted, same_sector]
    simp only [Bool.not_eq_true', Bool.or_eq_false_iff, decide_eq_false_iff_not, ge_iff_le,
      UInt32.not_le] at accepted
    exact decide_eq_true accepted.1.1
  rw [eraseOps, if_pos ⟨mod_sector_iff.mpr aligned, erased⟩, same_sector]

theorem erased_sector_iff (aligned : SectorsAligned imageOps) (sector_aligned : sector % 0x1000 = 0)
    (reached : sector ≤ place) (before : place < sector + 0x1000) :
    Erased imageOps place ↔ Erased imageOps sector := by
  constructor
  · rintro ⟨other, member, other_reached, other_before⟩
    have other_aligned := aligned other member
    exact ⟨other, member, by omega, by omega⟩
  · rintro ⟨other, member, other_reached, other_before⟩
    have other_aligned := aligned other member
    exact ⟨other, member, by omega, by omega⟩

theorem erased_append_iff (inside : InWindow address.toNat)
    (accepted : Flash.writeAccepted platform.flashSize address count = true)
    (sector_aligned : sector % 0x1000 = 0) :
    Erased (imageOps ++ eraseOps platform address) sector ↔
      sector = address.toNat ∨ Erased imageOps sector := by
  by_cases aligned : address.toNat % 0x1000 = 0
  · rw [eraseOps_eq aligned inside accepted]
    constructor
    · rintro ⟨other, member, reached, before⟩
      rcases List.mem_append.mp member with earlier | last
      · exact Or.inr ⟨other, earlier, reached, before⟩
      · have same := ImageOp.erase.inj (List.mem_singleton.mp last)
        exact Or.inl (by omega)
    · rintro (rfl | ⟨other, member, reached, before⟩)
      · exact ⟨address.toNat, by simp, Nat.le_refl _, by omega⟩
      · exact ⟨other, List.mem_append_left _ member, reached, before⟩
  · have unaligned : address % 0x1000 ≠ 0 := fun zero => aligned (mod_sector_iff.mp zero)
    rw [eraseOps, if_neg fun both => unaligned both.1, List.append_nil]
    exact ⟨Or.inr, fun either => either.resolve_left fun same => aligned (same ▸ sector_aligned)⟩

/-- The data of a block land on erased cells of the window exactly if they end in the window and the
sectors they reach into, but for the one just erased, have been erased before. -/
theorem programOp_safe_iff (aligned : SectorsAligned imageOps) (inside : InWindow address.toNat)
    (accepted : Flash.writeAccepted platform.flashSize address count = true) :
    OpSafe (imageOps ++ eraseOps platform address) (.program address.toNat count.toNat) ↔
      (0 < count.toNat → address.toNat + count.toNat ≤ 0x200000 ∧
        ∀ sector, sector % 0x1000 = 0 → address.toNat < sector + 0x1000 →
          sector < address.toNat + count.toNat →
            sector = address.toNat ∨ Erased imageOps sector) := by
  have both_aligned : SectorsAligned (imageOps ++ eraseOps platform address) := by
    intro sector member
    exact sectorsAligned_step aligned address count sector (List.mem_append_left _ member)
  constructor
  · intro safe positive
    have last := (safe (address.toNat + count.toNat - 1) (by omega) (by omega)).1.2
    refine ⟨by omega, ?_⟩
    intro sector sector_aligned beyond reached
    rw [← erased_append_iff inside accepted sector_aligned]
    have erased := (safe (max sector address.toNat) (by omega) (by omega)).2
    exact (erased_sector_iff both_aligned sector_aligned (by omega) (by omega)).mp erased
  · intro allowed place reached before
    obtain ⟨ends, erased⟩ := allowed (by omega)
    refine ⟨⟨Nat.le_trans inside.1 reached, by omega⟩, ?_⟩
    have sector_aligned : place / 0x1000 * 0x1000 % 0x1000 = 0 := Nat.mul_mod_left _ _
    rw [erased_sector_iff both_aligned sector_aligned (by omega) (by omega),
      erased_append_iff inside accepted sector_aligned]
    exact erased _ sector_aligned (by omega) (by omega)

theorem storeBlock_good_iff (aligned : SectorsAligned store.imageOps) (good : store.Good)
    (call : Call) :
    (storeBlock platform store call.block call.buffer call.src call.len call.allocated).Good ↔
      Confined platform store call := by
  obtain ⟨safe, intact⟩ := good
  rw [Store.Good, storeBlock_overrun_iff intact, storeBlock_imageOps, Confined, ← and_assoc]
  refine and_congr_left fun _ => ?_
  generalize dataAddr store call.block call.buffer call.src = address
  generalize call.len - tftpPktHdLen = count
  have erase_safe : Safe (store.imageOps ++ eraseOps platform address) ↔
      (address % 0x1000 = 0 → Flash.eraseAccepted platform.flashSize address = true →
        InWindow (address &&& 0xFFF000).toNat) := by
    rw [eraseOps]
    split
    · next erases =>
        rw [safe_concat_iff, eraseOp_safe_iff (and_mask_mod address)]
        simp [safe, erases]
    · next refused =>
        rw [List.append_nil]
        exact iff_of_true safe fun zero accepted => absurd ⟨zero, accepted⟩ refused
  rw [← erase_safe, programOps]
  split
  · next programs =>
      rw [safe_concat_iff, programOp_safe_iff aligned programs.1 programs.2]
      simp [programs.1, programs.2]
  · next refused =>
      rw [List.append_nil]
      refine ⟨fun erased => ⟨erased, ?_⟩, fun both => both.1⟩
      exact fun inside accepted => absurd ⟨inside, accepted⟩ refused

/-- In every transfer the operations for image data are safe and the memory stays intact exactly if
every call is confined. -/
theorem image_ops_safe_iff (platform : Platform) (osDataAddr tftpCrc : UInt32) (flash : Flash)
    (calls : List Call) :
    (∀ front, front <+: calls →
        ((storeMachine platform).run (transferStart osDataAddr tftpCrc flash) front).Good) ↔
      (storeMachine platform).Always (Confined platform) (transferStart osDataAddr tftpCrc flash)
        calls := by
  refine (storeMachine platform).forall_run_iff_always (Confined platform)
    (fun store => SectorsAligned store.imageOps) Store.Good ?_
    (fun call aligned good => storeBlock_good_iff aligned good call) ?_ ⟨?_, rfl⟩ calls
  · intro store call aligned
    simp only [storeMachine, storeBlock_imageOps]
    exact sectorsAligned_step aligned _ _
  · exact fun sector member => absurd member List.not_mem_nil
  · intro earlier imageOp initial
    exact absurd (List.prefix_nil.mp initial) (by simp)

/-- The first of two blocks, for a given address, with eight bytes of data. -/
def firstBlock (os1FlashAddr : UInt32) : Call where
  block := 0
  buffer := Memory.store (Memory.store (fun _ => 0) 4 [1, 0, 2, 0]) 20 (wordBytes os1FlashAddr)
  src := 0
  len := 32
  allocated := true

def smallPlatform : Platform := ⟨fun _ _ _ _ => 0, 0x200000⟩

/-- An image for an address inside a sector is programmed without an erase, and an image for address
zero has the first sector of the device erased before it is refused. -/
theorem image_ops_not_safe :
    ¬ Safe ((storeMachine smallPlatform).run (transferStart os1FlashAddr 0 fun _ => 0)
        [firstBlock 0x8C010]).imageOps ∧
      ¬ Safe ((storeMachine smallPlatform).run (transferStart os1FlashAddr 0 fun _ => 0)
        [firstBlock 0]).imageOps := by
  have programmed : ((storeMachine smallPlatform).run (transferStart os1FlashAddr 0 fun _ => 0)
      [firstBlock 0x8C010]).imageOps = [.program 0x8C010 8] := by decide
  have erased : ((storeMachine smallPlatform).run (transferStart os1FlashAddr 0 fun _ => 0)
      [firstBlock 0]).imageOps = [.erase 0] := by decide
  rw [programmed, erased]
  constructor
  · intro safe
    obtain ⟨-, sector, member, -⟩ :=
      safe [] (.program 0x8C010 8) (List.prefix_refl _) 0x8C010 (by decide) (by decide)
    contradiction
  · intro safe
    exact absurd (safe [] (.erase 0) (List.prefix_refl _) 0 (by decide) (by decide)) (by decide)

/-! ## The image in the flash device -/

/-- The flash device holds an image from an address on, the running address is behind it, and the
rest of the sector it is in is erased. -/
structure Image (store : Store) (start : ℕ) (image : List UInt8) : Prop where
  held : store.flash.load start image.length = image
  address : store.osDataAddr.toNat = start + image.length
  erased : store.osDataAddr.toNat % 0x1000 ≠ 0 → ∀ place, store.osDataAddr.toNat ≤ place →
    place < (store.osDataAddr.toNat / 0x1000 + 1) * 0x1000 → store.flash place = 0xFF

/-- The record of the image, if it may be written, keeps away from a stretch of the flash device. -/
def HeadApart (sendHd : SendPtkHd) (start stop : ℕ) : Prop :=
  let sector := (sendHd.osHdAddr &&& 0xFFF000).toNat
  sendHd.seq ≠ sendHd.totalSeq ∨ (stop ≤ sector ∧ stop ≤ sendHd.osHdAddr.toNat) ∨
    (sector + 0x1000 ≤ start ∧ sendHd.osHdAddr.toNat + 32 ≤ start)

instance (sendHd : SendPtkHd) (start stop : ℕ) : Decidable (HeadApart sendHd start stop) :=
  inferInstanceAs (Decidable (_ ∨ (_ ∧ _) ∨ (_ ∧ _)))

/-- A block has a header, its data go to the window and do not run across the end of a sector, and
the record of the image is apart from it. -/
structure Fits (platform : Platform) (store : Store) (start : ℕ) (call : Call) : Prop where
  header : 24 ≤ call.len.toNat
  window : InWindow (dataAddr store call.block call.buffer call.src).toNat
  accepted : Flash.writeAccepted platform.flashSize
    (dataAddr store call.block call.buffer call.src) (call.len - tftpPktHdLen) = true
  sector : (dataAddr store call.block call.buffer call.src).toNat % 0x1000 +
    (call.len.toNat - 24) ≤ 0x1000
  head : HeadApart (loadSendHd call.buffer call.src) start
    (((dataAddr store call.block call.buffer call.src).toNat / 0x1000 + 1) * 0x1000)

instance (platform : Platform) (store : Store) (start : ℕ) (call : Call) :
    Decidable (Fits platform store start call) :=
  decidable_of_iff (_ ∧ _ ∧ _ ∧ _ ∧ _)
    ⟨fun ⟨header, window, accepted, sector, head⟩ => ⟨header, window, accepted, sector, head⟩,
      fun ⟨header, window, accepted, sector, head⟩ => ⟨header, window, accepted, sector, head⟩⟩

theorem flashEraseSector_apart (apart : place < (address &&& 0xFFF000).toNat ∨
      (address &&& 0xFFF000).toNat + 0x1000 ≤ place) :
    flash.flashEraseSector flashSize address place = flash place := by
  rw [Flash.flashEraseSector]
  split
  · exact if_neg (by omega)
  · rfl

theorem flashWrite_apart (buffer : Memory UInt8) (src : ℕ)
    (apart : place < address.toNat ∨ address.toNat + len.toNat ≤ place) :
    flash.flashWrite flashSize buffer src len address place = flash place := by
  rw [Flash.flashWrite]
  split
  · rcases apart with before | beyond
    · exact flash.program_of_lt _ before
    · exact flash.program_of_le (by rw [Memory.length_load]; exact beyond)
  · rfl

theorem checkImage_flash {start stop : ℕ} (len : UInt32)
    (apart : HeadApart (loadSendHd buffer src) start stop) (reached : start ≤ place)
    (before : place < stop) :
    (checkImage platform store buffer src len).flash place = store.flash place := by
  rw [checkImage]
  dsimp only
  split
  · rfl
  · next last =>
      have away := apart.resolve_left (not_not.mpr (not_not.mp last))
      split
      · have written : (32 : UInt32).toNat = 32 := rfl
        refine (flashWrite_apart _ _ _ _ ?_).trans (flashEraseSector_apart _ _ ?_)
        · omega
        · omega
      · rfl

theorem toNat_sub_header (header : 24 ≤ len.toNat) : (len - tftpPktHdLen).toNat = len.toNat - 24 :=
  UInt32.toNat_sub_of_le _ _ (UInt32.le_iff_toNat_le.mpr header)

/-- Away from the record of the image the flash device is as the data leave it. -/
theorem storeData_flash {buffer : Memory UInt8} {src : ℕ} {len : UInt32} {allocated : Bool}
    {start stop place : ℕ} (header : 24 ≤ len.toNat)
    (accepted : Flash.writeAccepted platform.flashSize store.osDataAddr (len - tftpPktHdLen) = true)
    (head : HeadApart (loadSendHd buffer src) start stop) (reached : start ≤ place)
    (before : place < stop) :
    (storeData platform store buffer src len allocated).flash place =
      store.flash.program store.osDataAddr.toNat (buffer.load (src + 24) (len.toNat - 24))
        place := by
  have header_len : tftpPktHdLen.toNat = 24 := rfl
  rw [storeData, checkImage_flash len head reached before]
  simp [readBack, writeImage, Flash.flashWrite, accepted, toNat_sub_header header, header_len]

theorem storeData_osDataAddr {buffer : Memory UInt8} {src : ℕ} {len : UInt32} {allocated : Bool}
    (header : 24 ≤ len.toNat) (window : InWindow store.osDataAddr.toNat)
    (sector : store.osDataAddr.toNat % 0x1000 + (len.toNat - 24) ≤ 0x1000) :
    (storeData platform store buffer src len allocated).osDataAddr.toNat =
      store.osDataAddr.toNat + (len.toNat - 24) := by
  have below := window.2
  have count_eq := toNat_sub_header header
  rw [storeData, checkImage_osDataAddr, readBack, writeImage]
  dsimp only
  rw [toNat_add_of_lt (by omega), count_eq]

namespace Image

variable {start : ℕ} {image : List UInt8}

/-- The erase command leaves the image alone, and the rest of the sector is erased after it. -/
theorem erase (held : Image store start image) (window : InWindow store.osDataAddr.toNat)
    {count : UInt32}
    (accepted : Flash.writeAccepted platform.flashSize store.osDataAddr count = true) :
    (eraseImage platform store).flash.load start image.length = image ∧
      ∀ place, store.osDataAddr.toNat ≤ place →
        place < (store.osDataAddr.toNat / 0x1000 + 1) * 0x1000 →
          (eraseImage platform store).flash place = 0xFF := by
  have address := held.address
  rw [eraseImage]
  split
  · next aligned =>
      have aligned_nat := mod_sector_iff.mp aligned
      have erases : Flash.eraseAccepted platform.flashSize store.osDataAddr = true := by
        have ops := eraseOps_eq aligned_nat window accepted
        rw [eraseOps] at ops
        split at ops
        · next both => exact both.2
        · contradiction
      have sector := store.flash.eraseSector_apply aligned_nat
        (Nat.lt_of_lt_of_le window.2 (by decide))
      simp only [Flash.flashEraseSector, erases, if_true]
      constructor
      · refine Eq.trans (Memory.load_eq_load ?_) held.held
        intro index inside
        rw [sector, if_neg (by omega)]
      · intro place reached before
        rw [sector, if_pos ⟨reached, by omega⟩]
  · next unaligned =>
      exact ⟨held.held, held.erased fun zero => unaligned (mod_sector_iff.mpr zero)⟩

theorem div_sector_eq {address count : ℕ} (fits : address % 0x1000 + count ≤ 0x1000)
    (unaligned : (address + count) % 0x1000 ≠ 0) :
    (address + count) / 0x1000 = address / 0x1000 := by
  omega

variable {buffer : Memory UInt8} {src : ℕ}

/-- The data of a block are programmed behind the image, where the sector is erased. -/
theorem storeData {len : UInt32} {allocated : Bool}
    (kept : store.flash.load start image.length = image)
    (address : store.osDataAddr.toNat = start + image.length)
    (erased : ∀ place, store.osDataAddr.toNat ≤ place →
      place < (store.osDataAddr.toNat / 0x1000 + 1) * 0x1000 → store.flash place = 0xFF)
    (header : 24 ≤ len.toNat) (window : InWindow store.osDataAddr.toNat)
    (accepted : Flash.writeAccepted platform.flashSize store.osDataAddr (len - tftpPktHdLen) = true)
    (sector : store.osDataAddr.toNat % 0x1000 + (len.toNat - 24) ≤ 0x1000)
    (head : HeadApart (loadSendHd buffer src) start
      ((store.osDataAddr.toNat / 0x1000 + 1) * 0x1000)) :
    Image (Tftp.storeData platform store buffer src len allocated) start
      (image ++ buffer.load (src + 24) (len.toNat - 24)) := by
  have data_length : (buffer.load (src + 24) (len.toNat - 24)).length = len.toNat - 24 :=
    Memory.length_load ..
  have flash_eq (place : ℕ) := @storeData_flash platform store buffer src len allocated start
    ((store.osDataAddr.toNat / 0x1000 + 1) * 0x1000) place header accepted head
  have address_eq :=
    @storeData_osDataAddr platform store buffer src len allocated header window sector
  constructor
  · refine Eq.trans (Memory.load_eq_load ?_) (Flash.load_program_append _ kept ?_)
    · intro index inside
      rw [List.length_append, data_length] at inside
      rw [flash_eq _ (by omega) (by omega), address]
    · intro index inside
      exact erased _ (by omega) (by omega)
  · rw [address_eq, address, List.length_append, data_length]
    omega
  · rw [address_eq]
    intro unaligned place reached before
    have same_sector : place < (store.osDataAddr.toNat / 0x1000 + 1) * 0x1000 := by
      rwa [div_sector_eq sector unaligned] at before
    rw [flash_eq place (by omega) same_sector, Flash.program_of_le _ (by rwa [data_length])]
    exact erased place (by omega) same_sector

theorem storeBlock {call : Call}
    (held : Image (openBlock store call.block call.buffer call.src) start image)
    (fits : Fits platform store start call) :
    Image (Tftp.storeBlock platform store call.block call.buffer call.src call.len call.allocated)
      start (image ++ call.buffer.load (call.src + 24) (call.len.toNat - 24)) := by
  obtain ⟨kept, erased⟩ := held.erase fits.window fits.accepted
  have address : (eraseImage platform
      (openBlock store call.block call.buffer call.src)).osDataAddr =
        dataAddr store call.block call.buffer call.src := eraseImage_osDataAddr
  rw [Tftp.storeBlock, address, if_neg (inWindow_iff.mp fits.window)]
  refine storeData kept ?_ ?_ fits.header ?_ ?_ ?_ ?_
  all_goals rw [address]
  exacts [held.address, erased, fits.window, fits.accepted, fits.sector, fits.head]

theorem openFirst (aligned : (loadSendHd buffer src).os1FlashAddr.toNat % 0x1000 = 0) :
    Image (openBlock store 0 buffer src) (loadSendHd buffer src).os1FlashAddr.toNat [] where
  held := rfl
  address := rfl
  erased unaligned := absurd aligned unaligned

theorem openNext {block : UInt32} (held : Image store start image) (later : block ≠ 0) :
    Image (openBlock store block buffer src) start image := by
  have address : (openBlock store block buffer src).osDataAddr = store.osDataAddr := if_pos later
  constructor
  · exact held.held
  · rw [address]
    exact held.address
  · rw [address]
    exact held.erased

end Image

end Tftp
end BdkFreertos
