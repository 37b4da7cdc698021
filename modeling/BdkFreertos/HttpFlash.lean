import BdkFreertos.Flash

/-!
# The writer of the OTA partition

`http_wr_to_flash` gathers bytes in a buffer of 1 KB and hands each full buffer to
`http_flash_wr`, which erases a sector when it comes to its first byte and programs the bytes behind
those before.  Programming a flash device only clears bits.
-/

namespace BdkFreertos

namespace Flash

/-- The partition that takes a new firmware. -/
def otaPartition : LogicPartition where
  partitionStartAddr := 0x132000
  partitionLength := 0xAE000

/-- Program bytes from an address on: each bit that is zero is cleared. -/
def program (flash : Flash) (address : ℕ) (bytes : List UInt8) : Flash :=
  fun place =>
    if address ≤ place then
      match bytes[place - address]? with
      | some byte => flash place &&& byte
      | none => flash place
    else flash place

variable {place : ℕ} (flash : Flash)

theorem program_of_lt {address : ℕ} (bytes : List UInt8) (before : place < address) :
    flash.program address bytes place = flash place := by
  rw [program, if_neg (Nat.not_le.mpr before)]

theorem program_of_le {address : ℕ} {bytes : List UInt8} (beyond : address + bytes.length ≤ place) :
    flash.program address bytes place = flash place := by
  rw [program, if_pos (by omega), List.getElem?_eq_none (by omega)]

theorem load_program (address : ℕ) (bytes : List UInt8)
    (erased : ∀ index < bytes.length, flash (address + index) = 0xFF) :
    (flash.program address bytes).load address bytes.length = bytes := by
  apply List.ext_getElem?
  intro index
  rw [Memory.getElem?_load]
  split
  · rename_i inside
    rw [program, if_pos (Nat.le_add_right address index), Nat.add_sub_cancel_left,
      List.getElem?_eq_getElem inside, erased index inside]
    exact congrArg some UInt8.neg_one_and
  · rename_i outside
    exact (List.getElem?_eq_none (Nat.not_lt.mp outside)).symm

theorem load_program_append {flash : Flash} {start : ℕ} {front : List UInt8} (back : List UInt8)
    (held : flash.load start front.length = front)
    (erased : ∀ index < back.length, flash (start + front.length + index) = 0xFF) :
    (flash.program (start + front.length) back).load start (front ++ back).length =
      front ++ back := by
  rw [List.length_append, Memory.load_add]
  congr 1
  · refine Eq.trans (Memory.load_eq_load ?_) held
    intro index before
    exact program_of_lt _ _ (by omega)
  · exact load_program _ _ _ erased

theorem and_mask_eq {address mask : UInt32} {low width : ℕ}
    (mask_eq : mask.toNat = (2 ^ width - 1) <<< low) (aligned : address.toNat % 2 ^ low = 0)
    (small : address.toNat < 2 ^ (low + width)) : address &&& mask = address := by
  obtain ⟨rest, address_eq⟩ := Nat.dvd_of_mod_eq_zero aligned
  have rest_lt : rest < 2 ^ width := by
    rw [address_eq, Nat.pow_add] at small
    exact Nat.lt_of_mul_lt_mul_left small
  have shifted : address.toNat = rest <<< low := by
    rw [Nat.shiftLeft_eq, address_eq, Nat.mul_comm]
  apply UInt32.toNat_inj.mp
  rw [UInt32.toNat_and, mask_eq, shifted, ← Nat.shiftLeft_and_distrib,
    Nat.and_two_pow_sub_one_eq_mod, Nat.mod_eq_of_lt rest_lt]

theorem eraseSector_apply {address : UInt32} (aligned : address.toNat % 4096 = 0)
    (small : address.toNat < 2 ^ 24) (place : ℕ) :
    flash.eraseSector address place =
      if address.toNat ≤ place ∧ place < address.toNat + 4096 then 0xFF else flash place := by
  have mask_eq : (0xFFF000 : UInt32).toNat = (2 ^ 12 - 1) <<< 12 := by decide
  simp [eraseSector, and_mask_eq mask_eq aligned small]

end Flash

namespace HttpOta

def httpFlashWrBufMax : ℕ := 1024

/-- The record `HTTP_DATA_ST` with the flash device behind it.  The partition is the OTA
partition. -/
structure HttpData where
  httpTotal : UInt32
  doData : Bool
  /-- The bytes gathered in `wr_buf`, `wr_last_len` of them. -/
  wrBuf : List UInt8
  flashAddress : UInt32
  /-- The flash device. -/
  flash : Flash
  /-- What has been handed to the flash device, oldest first. -/
  writes : List (UInt32 × List UInt8)

/-- The record as it is initialised, on a flash device. -/
def bkHttp (flash : Flash) : HttpData where
  httpTotal := 0
  doData := false
  wrBuf := []
  flashAddress := 0
  flash := flash
  writes := []

/-- Write bytes at the current address, if they end before the last byte of the partition. -/
def httpFlashWr (http : HttpData) (src : List UInt8) : HttpData :=
  let flash :=
    if http.flashAddress % 0x1000 = 0 then http.flash.eraseSector http.flashAddress
    else http.flash
  let len := UInt32.ofNat src.length
  if http.flashAddress ≥ Flash.otaPartition.partitionStartAddr ∧
      http.flashAddress + len <
        Flash.otaPartition.partitionStartAddr + Flash.otaPartition.partitionLength then
    { http with
      flash := flash.program http.flashAddress.toNat src
      flashAddress := http.flashAddress + len
      writes := http.writes ++ [(http.flashAddress, src)] }
  else { http with flash := flash }

/-- Start a new image at the start of the partition. -/
def httpFlashInit (http : HttpData) : HttpData :=
  { http with
    wrBuf := []
    flashAddress := Flash.otaPartition.partitionStartAddr }

/-- Release the buffers and clear the record. -/
def httpFlashDeinit (http : HttpData) : HttpData :=
  { http with
    httpTotal := 0
    doData := false
    wrBuf := []
    flashAddress := 0 }

/-- The loop of `http_wr_to_flash` over the bytes that are left of a page. -/
def httpWrLoop : ℕ → HttpData → List UInt8 → HttpData
  | 0, http, _ => http
  | _ + 1, http, [] => http
  | rounds + 1, http, byte :: bytes =>
      let page := byte :: bytes
      let wL := min page.length (httpFlashWrBufMax - http.wrBuf.length)
      let wrBuf := http.wrBuf ++ page.take wL
      let http :=
        if wrBuf.length ≥ httpFlashWrBufMax then { httpFlashWr http wrBuf with wrBuf := [] }
        else { http with wrBuf := wrBuf }
      httpWrLoop rounds http (page.drop wL)

/-- Gather the bytes of a page and write every full buffer; each round takes a byte at least. -/
def httpWrToFlash (http : HttpData) (page : List UInt8) : HttpData :=
  httpWrLoop page.length http page

/-- `http_data_process` with `HTTP_WR_TO_FLASH`. -/
def httpDataProcess (http : HttpData) (buf : List UInt8) : HttpData :=
  httpWrToFlash http buf

/-! ## What has been written -/

/-- Writes that follow one another from an address on. -/
def Contiguous : ℕ → List (UInt32 × List UInt8) → Prop
  | _, [] => True
  | address, (place, bytes) :: writes =>
      place.toNat = address ∧ Contiguous (address + bytes.length) writes

def writtenBytes (writes : List (UInt32 × List UInt8)) : List UInt8 :=
  writes.flatMap Prod.snd

/-- The partition holds a list of bytes from its start on, and each of them has been written once
and in order. -/
structure Stored (http : HttpData) (bytes : List UInt8) : Prop where
  held : http.flash.load Flash.otaPartition.partitionStartAddr.toNat bytes.length = bytes
  contiguous : Contiguous Flash.otaPartition.partitionStartAddr.toNat http.writes
  written : writtenBytes http.writes = bytes

theorem contiguous_append {address : ℕ} {writes : List (UInt32 × List UInt8)} {place : UInt32}
    {bytes : List UInt8} (contiguous : Contiguous address writes)
    (next : place.toNat = address + (writtenBytes writes).length) :
    Contiguous address (writes ++ [(place, bytes)]) := by
  induction writes generalizing address with
  | nil => exact ⟨next, trivial⟩
  | cons write writes induction =>
      obtain ⟨first, rest⟩ := contiguous
      refine ⟨first, induction rest ?_⟩
      rw [next, writtenBytes, List.flatMap_cons, List.length_append, Nat.add_assoc]
      rfl

/-- The bytes handed over since the start of the image: full buffers have been written, the rest is
gathered, and the sector that is being written is erased from the current address on. -/
structure Gathered (http : HttpData) (stored : List UInt8) : Prop where
  kept : Stored http stored
  blocks : stored.length % 1024 = 0
  address : http.flashAddress.toNat =
    Flash.otaPartition.partitionStartAddr.toNat + stored.length
  short : http.wrBuf.length < 1024
  erased : http.flashAddress.toNat % 4096 ≠ 0 → ∀ place, http.flashAddress.toNat ≤ place →
    place < (http.flashAddress.toNat / 4096 + 1) * 4096 → http.flash place = 0xFF

variable {http : HttpData} {stored : List UInt8}

theorem gathered_init (nothing : http.writes = []) :
    Gathered (httpFlashInit http) [] where
  kept :=
    { held := rfl
      contiguous := by rw [httpFlashInit, nothing]; trivial
      written := by rw [httpFlashInit, nothing]; rfl }
  blocks := rfl
  address := rfl
  short := Nat.zero_lt_succ 1023
  erased := fun unaligned =>
    (unaligned (show Flash.otaPartition.partitionStartAddr.toNat % 4096 = 0 by decide)).elim

/-- The flash device when `http_flash_wr` programs it: what has been written is still there, and
the rest of the sector is erased. -/
theorem Gathered.sector (gathered : Gathered http stored) (fits : stored.length < 0xAE000) :
    let flash := if http.flashAddress % 0x1000 = 0 then http.flash.eraseSector http.flashAddress
      else http.flash
    flash.load Flash.otaPartition.partitionStartAddr.toNat stored.length = stored ∧
      ∀ place, http.flashAddress.toNat ≤ place →
        place < (http.flashAddress.toNat / 4096 + 1) * 4096 → flash place = 0xFF := by
  intro flash
  have start : Flash.otaPartition.partitionStartAddr.toNat = 0x132000 := rfl
  have address := gathered.address
  have rest : (http.flashAddress % 0x1000).toNat = http.flashAddress.toNat % 4096 := rfl
  by_cases first : http.flashAddress % 0x1000 = 0
  · have aligned : http.flashAddress.toNat % 4096 = 0 := by
      rw [← rest, first]
      rfl
    have erase := http.flash.eraseSector_apply aligned (by omega)
    simp only [flash, if_pos first]
    constructor
    · refine Eq.trans (Memory.load_eq_load ?_) gathered.kept.held
      intro index inside
      rw [erase, if_neg (by omega)]
    · intro place reached before
      rw [erase, if_pos ⟨reached, by omega⟩]
  · have unaligned : http.flashAddress.toNat % 4096 ≠ 0 := by
      intro zero
      exact first (UInt32.toNat_inj.mp (rest.trans zero))
    simp only [flash, if_neg first]
    exact ⟨gathered.kept.held, gathered.erased unaligned⟩

/-- A write of one buffer at most that ends before the last byte of the partition. -/
theorem Gathered.write {src : List UInt8} (gathered : Gathered http stored)
    (small : src.length ≤ 1024) (fits : stored.length + src.length < 0xAE000) :
    Stored (httpFlashWr http src) (stored ++ src) ∧
      (httpFlashWr http src).flashAddress.toNat =
        Flash.otaPartition.partitionStartAddr.toNat + (stored ++ src).length ∧
      ∀ place, (httpFlashWr http src).flashAddress.toNat ≤ place →
        place < (http.flashAddress.toNat / 4096 + 1) * 4096 →
          (httpFlashWr http src).flash place = 0xFF := by
  obtain ⟨held, erased⟩ := gathered.sector (by omega)
  have address := gathered.address
  have start : Flash.otaPartition.partitionStartAddr.toNat = 0x132000 := rfl
  have blocks := gathered.blocks
  have len_eq : (UInt32.ofNat src.length).toNat = src.length :=
    @toNat_ofNat_of_le src.length 1024 small
  have moved : (http.flashAddress + UInt32.ofNat src.length).toNat =
      http.flashAddress.toNat + src.length := by
    rw [toNat_add_of_lt (by rw [len_eq]; omega), len_eq]
  have inside : http.flashAddress ≥ Flash.otaPartition.partitionStartAddr ∧
      http.flashAddress + UInt32.ofNat src.length <
        Flash.otaPartition.partitionStartAddr + Flash.otaPartition.partitionLength := by
    have ending : (Flash.otaPartition.partitionStartAddr +
        Flash.otaPartition.partitionLength).toNat = 0x132000 + 0xAE000 := rfl
    rw [ge_iff_le, UInt32.le_iff_toNat_le, UInt32.lt_iff_toNat_lt, moved, ending]
    omega
  rw [httpFlashWr, if_pos inside]
  refine ⟨⟨?_, ?_, ?_⟩, ?_, ?_⟩
  · simp only [address]
    refine Flash.load_program_append src held ?_
    intro index before
    exact erased _ (by omega) (by omega)
  · refine contiguous_append gathered.kept.contiguous ?_
    rw [gathered.kept.written]
    exact address
  · rw [writtenBytes, List.flatMap_append]
    exact congrArg₂ (· ++ ·) gathered.kept.written (List.append_nil _)
  · rw [List.length_append, ← Nat.add_assoc, ← address]
    exact moved
  · intro place reached before
    simp only [moved] at reached
    exact (Flash.program_of_le _ reached).trans (erased place (by omega) before)

theorem Gathered.writeBlock {block : List UInt8} (gathered : Gathered http stored)
    (full : block.length = 1024) (fits : stored.length + block.length < 0xAE000) :
    Gathered { httpFlashWr http block with wrBuf := [] } (stored ++ block) := by
  obtain ⟨kept, address, erased⟩ := gathered.write (Nat.le_of_eq full) fits
  have blocks := gathered.blocks
  have before := gathered.address
  have start : Flash.otaPartition.partitionStartAddr.toNat = 0x132000 := rfl
  refine ⟨⟨kept.held, kept.contiguous, kept.written⟩, ?_, address, Nat.zero_lt_succ 1023, ?_⟩
  · rw [List.length_append]
    omega
  · rw [List.length_append] at address
    intro unaligned place reached ahead
    simp only at unaligned reached ahead
    refine erased place reached (Nat.lt_of_lt_of_le ahead ?_)
    rw [address] at unaligned ⊢
    rw [before]
    omega

theorem httpWrLoop_gathers {rounds : ℕ} {page : List UInt8} (gathered : Gathered http stored)
    (enough : page.length ≤ rounds) (fits : (stored ++ http.wrBuf).length + page.length < 0xAE000) :
    ∃ stored', Gathered (httpWrLoop rounds http page) stored' ∧
      stored' ++ (httpWrLoop rounds http page).wrBuf = stored ++ http.wrBuf ++ page := by
  induction rounds generalizing http stored page with
  | zero =>
      obtain rfl : page = [] := List.length_eq_zero_iff.mp (Nat.le_zero.mp enough)
      exact ⟨stored, gathered, (List.append_nil _).symm⟩
  | succ rounds induction =>
      cases page with
      | nil => exact ⟨stored, gathered, (List.append_nil _).symm⟩
      | cons byte bytes =>
          have short := gathered.short
          have blocks := gathered.blocks
          rw [httpWrLoop]
          generalize page_eq : byte :: bytes = page at enough fits ⊢
          have some_left : 0 < page.length := by rw [← page_eq]; exact Nat.zero_lt_succ _
          have buffer : httpFlashWrBufMax = 1024 := rfl
          dsimp only
          generalize taken : min page.length (httpFlashWrBufMax - http.wrBuf.length) = wL
          have taken_length : (page.take wL).length = wL := List.length_take_of_le (by omega)
          have left_length : (page.drop wL).length = page.length - wL := List.length_drop
          rw [List.length_append] at fits
          split
          · rename_i full
            rw [List.length_append, taken_length] at full
            have block_length : (http.wrBuf ++ page.take wL).length = 1024 := by
              rw [List.length_append, taken_length]
              omega
            have written := gathered.writeBlock block_length (by omega)
            obtain ⟨stored', after, all⟩ := @induction _ _ (page.drop wL) written (by omega) (by
              rw [List.append_nil, List.length_append]
              omega)
            refine ⟨stored', after, all.trans ?_⟩
            simp
          · rename_i room
            rw [List.length_append, taken_length] at room
            have kept : Gathered { http with wrBuf := http.wrBuf ++ page.take wL } stored :=
              { kept := ⟨gathered.kept.held, gathered.kept.contiguous, gathered.kept.written⟩
                blocks := blocks
                address := gathered.address
                short := by
                  simp only [List.length_append, taken_length]
                  omega
                erased := gathered.erased }
            obtain ⟨stored', after, all⟩ := @induction _ _ (page.drop wL) kept (by omega) (by
              simp only [List.length_append, taken_length]
              omega)
            refine ⟨stored', after, all.trans ?_⟩
            simp

def HandedOver (http : HttpData) (given : List UInt8) : Prop :=
  ∃ stored, Gathered http stored ∧ stored ++ http.wrBuf = given

namespace HandedOver

variable {http : HttpData} {given : List UInt8}

theorem init (nothing : http.writes = []) : HandedOver (httpFlashInit http) [] :=
  ⟨[], gathered_init nothing, rfl⟩

theorem transfer (handed : HandedOver http given) (httpTotal : UInt32) (doData : Bool) :
    HandedOver { http with httpTotal := httpTotal, doData := doData } given := by
  obtain ⟨stored, gathered, all⟩ := handed
  exact ⟨stored, { gathered with kept := { gathered.kept with } }, all⟩

theorem page (handed : HandedOver http given) {page : List UInt8}
    (fits : (given ++ page).length < 0xAE000) :
    HandedOver (httpWrToFlash http page) (given ++ page) := by
  obtain ⟨stored, gathered, all⟩ := handed
  rw [← all, List.length_append] at fits
  obtain ⟨stored', after, same⟩ := httpWrLoop_gathers gathered (Nat.le_refl page.length) fits
  exact ⟨stored', after, same.trans (by rw [all])⟩

theorem flush (handed : HandedOver http given) (fits : given.length < 0xAE000) :
    Stored (httpFlashDeinit (httpFlashWr http http.wrBuf)) given := by
  obtain ⟨stored, gathered, rfl⟩ := handed
  rw [List.length_append] at fits
  obtain ⟨kept, -, -⟩ := gathered.write (Nat.le_of_lt gathered.short) fits
  exact ⟨kept.held, kept.contiguous, kept.written⟩

end HandedOver

theorem transfer_httpFlashWr (http : HttpData) (src : List UInt8) :
    (httpFlashWr http src).doData = http.doData ∧
      (httpFlashWr http src).httpTotal = http.httpTotal := by
  rw [httpFlashWr]
  split <;> exact ⟨rfl, rfl⟩

theorem transfer_httpWrLoop (rounds : ℕ) (http : HttpData) (page : List UInt8) :
    (httpWrLoop rounds http page).doData = http.doData ∧
      (httpWrLoop rounds http page).httpTotal = http.httpTotal := by
  induction rounds generalizing http page with
  | zero => exact ⟨rfl, rfl⟩
  | succ rounds induction =>
      cases page with
      | nil => exact ⟨rfl, rfl⟩
      | cons byte bytes =>
          rw [httpWrLoop]
          dsimp only
          split
          · exact ⟨(induction _ _).1.trans (transfer_httpFlashWr _ _).1,
              (induction _ _).2.trans (transfer_httpFlashWr _ _).2⟩
          · exact induction _ _

end HttpOta

end BdkFreertos
