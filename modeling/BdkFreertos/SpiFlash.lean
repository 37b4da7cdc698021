import BdkFreertos.Flash
import Mathlib.Data.UInt
import Mathlib.Logic.Function.Basic

/-!
# The external SPI flash

The device programs bytes of one page and erases sectors and blocks, each at its natural alignment.
The driver cuts a write into chunks and an erase into units, counted from the start address.
-/

namespace BdkFreertos.SpiFlash

/-! ## The device -/

def commandAddr (addr : UInt32) : ℕ := addr.toNat % 2 ^ 24

/-- The next address of a page program, which stays inside the page. -/
def nextInPage (addr : ℕ) : ℕ := addr / 256 * 256 + (addr + 1) % 256

def programByte (flash : Flash) (addr : ℕ) (byte : UInt8) : Flash :=
  fun place => if place = addr then flash place &&& byte else flash place

/-- `CMD_PAGE_PROG`. -/
def pageProg (flash : Flash) (addr : ℕ) : List UInt8 → Flash
  | [] => flash
  | byte :: bytes => pageProg (programByte flash addr byte) (nextInPage addr) bytes

/-! ## Writes -/

/-- `spi_flash_program_page`, with the outcome of its allocation. -/
def spiFlashProgramPage (flash : Flash) (addr size : UInt32) (src : Memory UInt8)
    (allocated : Bool) : ℕ × Flash :=
  if 256 < size then (1, flash)
  else if size = 0 then (0, flash)
  else if allocated = false then (1, flash)
  else (0, pageProg flash (commandAddr addr) (src.load 0 size.toNat))

/-- `src + dsize`. -/
def advance (src : Memory UInt8) (dsize : UInt32) : Memory UInt8 :=
  fun index => src (dsize.toNat + index)

/-- `dsize`. -/
def chunkSize (size i : UInt32) : UInt32 := if 256 ≤ size - i then 256 else size - i

variable {size i addr : UInt32} (flash : Flash)

theorem toNat_chunkSize (inside : i < size) :
    (chunkSize size i).toNat = min 256 (size.toNat - i.toNat) := by
  have left_eq : (size - i).toNat = size.toNat - i.toNat :=
    UInt32.toNat_sub_of_le _ _ (UInt32.le_of_lt inside)
  have whole_iff : 256 ≤ size - i ↔ 256 ≤ size.toNat - i.toNat := by
    rw [UInt32.le_iff_toNat_le, left_eq]
    rfl
  unfold chunkSize
  split_ifs with whole
  · exact (Nat.min_eq_left (whole_iff.mp whole)).symm
  · rw [left_eq, Nat.min_eq_right (Nat.le_of_not_le fun le => whole (whole_iff.mpr le))]

theorem toNat_add_chunkSize (inside : i < size) :
    (i + chunkSize size i).toNat = i.toNat + min 256 (size.toNat - i.toNat) := by
  have size_lt := size.toNat_lt
  have i_lt : i.toNat < size.toNat := UInt32.lt_iff_toNat_lt.mp inside
  rw [UInt32.toNat_add, toNat_chunkSize inside]
  exact Nat.mod_eq_of_lt (by omega)

/-- The loop of `spi_flash_write`; `alloc` is the outcome of the allocation for the chunk at `i`. -/
def writeLoop (alloc : ℕ → Bool) (size i addr : UInt32) (src : Memory UInt8) (flash : Flash) :
    ℕ × Flash :=
  if i < size then
    let dsize := chunkSize size i
    let programmed := spiFlashProgramPage flash addr dsize src (alloc i.toNat)
    if programmed.1 ≠ 0 then (1, programmed.2)
    else writeLoop alloc size (i + dsize) (addr + dsize) (advance src dsize) programmed.2
  else (0, flash)
termination_by size.toNat - i.toNat
decreasing_by
  have inside : i < size := by assumption
  have i_lt : i.toNat < size.toNat := UInt32.lt_iff_toNat_lt.mp inside
  rw [toNat_add_chunkSize inside]
  omega

/-- `spi_flash_write`. -/
def spiFlashWrite (alloc : ℕ → Bool) (flash : Flash) (addr size : UInt32)
    (src : Option (Memory UInt8)) : ℕ × Flash :=
  match src with
  | none => (1, flash)
  | some src => if size = 0 then (0, flash) else writeLoop alloc size 0 addr src flash

/-- Every byte of the range is combined with its own byte of the source, and no other changes. -/
def Exact (addr size : ℕ) (src : Memory UInt8) (before after : Flash) : Prop :=
  ∀ place, after place =
    if addr ≤ place ∧ place < addr + size then before place &&& src (place - addr)
    else before place

/-- The write starts at a page or ends in the page where it starts. -/
def Fits (addr size : ℕ) : Prop := addr % 256 = 0 ∨ addr % 256 + size ≤ 256

/-- What is written to the beginning of a page, where a byte 256 places too early arrives, is what
should be written there. -/
def Harmless (addr size : ℕ) (src : Memory UInt8) (flash : Flash) : Prop :=
  ∀ place, addr / 256 ≤ place / 256 → place % 256 < addr % 256 →
    (if place + 256 < addr + size then flash place &&& src (place + 256 - addr)
      else flash place) =
    if addr ≤ place ∧ place < addr + size then flash place &&& src (place - addr)
    else flash place

/-- How far into a chunk the byte for a place of its page is. -/
def wrapped (addr place : ℕ) : ℕ := (place % 256 + 256 - addr % 256) % 256

theorem pageProg_apply (addr : ℕ) {bytes : List UInt8} (short : bytes.length ≤ 256) (place : ℕ) :
    pageProg flash addr bytes place =
      if place / 256 = addr / 256 then
        match bytes[wrapped addr place]? with
        | some byte => flash place &&& byte
        | none => flash place
      else flash place := by
  induction bytes generalizing flash addr with
  | nil => simp [pageProg]
  | cons byte bytes induction =>
      rw [List.length_cons] at short
      have page_eq : nextInPage addr / 256 = addr / 256 := by
        unfold nextInPage
        omega
      rw [pageProg, induction _ _ (by omega), page_eq]
      by_cases here : place = addr
      · subst here
        have last : wrapped (nextInPage place) place = 255 := by
          unfold wrapped nextInPage
          omega
        have first : wrapped place place = 0 := by
          unfold wrapped
          omega
        rw [if_pos rfl, if_pos rfl, last, first, List.getElem?_eq_none (by omega)]
        simp [programByte]
      · simp only [programByte, if_neg here]
        split_ifs with same_page
        · have next : wrapped addr place = wrapped (nextInPage addr) place + 1 := by
            unfold wrapped nextInPage
            omega
          rw [next, List.getElem?_cons_succ]
        · rfl

theorem pageProg_load (addr : ℕ) (src : Memory UInt8) {count : ℕ} (short : count ≤ 256)
    (place : ℕ) :
    pageProg flash addr (src.load 0 count) place =
      if place / 256 = addr / 256 ∧ wrapped addr place < count then
        flash place &&& src (wrapped addr place)
      else flash place := by
  rw [pageProg_apply _ _ (by rwa [Memory.length_load]), Memory.getElem?_load]
  by_cases same_page : place / 256 = addr / 256
  · by_cases early : wrapped addr place < count
    · simp [if_pos same_page, if_pos early, if_pos (And.intro same_page early)]
    · simp [if_neg early, if_neg fun both => early (And.right both)]
  · rw [if_neg same_page, if_neg fun both => same_page both.1]

theorem spiFlashProgramPage_chunk (inside : i < size) (addr_lt : addr.toNat < 2 ^ 24)
    (src : Memory UInt8) :
    spiFlashProgramPage flash addr (chunkSize size i) src true =
      (0, pageProg flash addr.toNat (src.load 0 (min 256 (size.toNat - i.toNat)))) := by
  have i_lt : i.toNat < size.toNat := UInt32.lt_iff_toNat_lt.mp inside
  have size_eq := toNat_chunkSize inside
  have small : ¬256 < chunkSize size i := by
    rw [UInt32.lt_iff_toNat_lt, size_eq]
    exact Nat.not_lt.mpr (Nat.min_le_left ..)
  have filled : chunkSize size i ≠ 0 := by
    intro empty
    rw [empty, UInt32.toNat_zero] at size_eq
    omega
  rw [spiFlashProgramPage, if_neg small, if_neg filled, if_neg (by simp), size_eq, commandAddr,
    Nat.mod_eq_of_lt addr_lt]

/-- The index of the byte that arrives at a place: every page gets the bytes of one chunk. -/
def sourceIndex (addr place : ℕ) : ℕ := 256 * (place / 256 - addr / 256) + wrapped addr place

/-- What so many bytes of the source change. -/
def arrived (addr count : ℕ) (src : Memory UInt8) (flash : Flash) : Flash := fun place =>
  if addr / 256 ≤ place / 256 ∧ sourceIndex addr place < count then
    flash place &&& src (sourceIndex addr place)
  else flash place

theorem arrived_chunk (addr count : ℕ) (src : Memory UInt8) (flash : Flash) :
    arrived (addr + min 256 count) (count - min 256 count)
        (fun index => src (min 256 count + index))
        (pageProg flash addr (src.load 0 (min 256 count))) =
      arrived addr count src flash := by
  funext place
  simp only [arrived, pageProg_load _ _ _ (Nat.min_le_left 256 count)]
  by_cases whole : 256 ≤ count
  · rw [Nat.min_eq_left whole]
    have same : wrapped (addr + 256) place = wrapped addr place := by
      unfold wrapped
      omega
    have wrapped_lt : wrapped addr place < 256 := Nat.mod_lt _ (by decide)
    rcases Nat.lt_trichotomy (place / 256) (addr / 256) with before | here | after
    · rw [if_neg (by omega), if_neg (by omega), if_neg (by omega)]
    · have index_eq : sourceIndex addr place = wrapped addr place := by
        simp [sourceIndex, here]
      rw [if_neg (by omega), if_pos ⟨here, wrapped_lt⟩, index_eq, if_pos ⟨by omega, by omega⟩]
    · have index_eq : sourceIndex addr place = 256 + sourceIndex (addr + 256) place := by
        unfold sourceIndex
        rw [same]
        omega
      have apart : ¬(place / 256 = addr / 256 ∧ wrapped addr place < 256) := by omega
      rw [if_neg apart, index_eq]
      by_cases arrives : sourceIndex (addr + 256) place < count - 256
      · rw [if_pos ⟨by omega, arrives⟩, if_pos ⟨by omega, by omega⟩]
      · rw [if_neg fun both => arrives both.2, if_neg fun both => arrives (by omega)]
  · rw [Nat.min_eq_right (by omega), Nat.sub_self, if_neg (by omega)]
    by_cases here : place / 256 = addr / 256
    · have index_eq : sourceIndex addr place = wrapped addr place := by
        simp [sourceIndex, here]
      rw [index_eq]
      simp [here]
    · have later : ¬(addr / 256 ≤ place / 256 ∧ sourceIndex addr place < count) := by
        unfold sourceIndex
        omega
      rw [if_neg fun both => here both.1, if_neg later]

theorem writeLoop_eq (size i addr : UInt32) (src : Memory UInt8) (flash : Flash)
    (inside : addr.toNat + (size.toNat - i.toNat) ≤ 2 ^ 24) :
    writeLoop (fun _ => true) size i addr src flash =
      (0, arrived addr.toNat (size.toNat - i.toNat) src flash) := by
  induction left : size.toNat - i.toNat using Nat.strong_induction_on
    generalizing i addr src flash with
  | _ left induction =>
      subst left
      rw [writeLoop]
      by_cases more : i < size
      · have i_lt : i.toNat < size.toNat := UInt32.lt_iff_toNat_lt.mp more
        have next_eq := toNat_add_chunkSize more
        have addr_eq : (addr + chunkSize size i).toNat =
            addr.toNat + min 256 (size.toNat - i.toNat) := by
          rw [UInt32.toNat_add, toNat_chunkSize more]
          exact Nat.mod_eq_of_lt (by omega)
        have left_eq : size.toNat - (i + chunkSize size i).toNat =
            size.toNat - i.toNat - min 256 (size.toNat - i.toNat) := by
          rw [next_eq]
          omega
        have addr_lt : addr.toNat < 2 ^ 24 := by omega
        have programmed := spiFlashProgramPage_chunk flash more addr_lt src
        have later := induction _ (by omega) (i + chunkSize size i) (addr + chunkSize size i)
          (advance src (chunkSize size i)) (pageProg flash addr.toNat
            (src.load 0 (min 256 (size.toNat - i.toNat)))) (by omega) left_eq
        rw [if_pos more]
        simp only [programmed, ne_eq, not_true_eq_false, if_false]
        rw [later, addr_eq]
        unfold advance
        rw [toNat_chunkSize more, arrived_chunk]
      · have i_ge : size.toNat ≤ i.toNat := Nat.le_of_not_lt fun lt =>
          more (UInt32.lt_iff_toNat_lt.mpr lt)
        have nothing : arrived addr.toNat (size.toNat - i.toNat) src flash = flash := by
          funext place
          rw [arrived, if_neg (by omega)]
        rw [if_neg more, nothing]

theorem spiFlashWrite_eq (inside : addr.toNat + size.toNat ≤ 2 ^ 24) (src : Memory UInt8)
    (flash : Flash) :
    spiFlashWrite (fun _ => true) flash addr size (some src) =
      (0, arrived addr.toNat size.toNat src flash) := by
  simp only [spiFlashWrite]
  split_ifs with empty
  · have nothing : arrived addr.toNat size.toNat src flash = flash := by
      funext place
      rw [empty, arrived, UInt32.toNat_zero, if_neg (by omega)]
    rw [nothing]
  · exact writeLoop_eq size 0 addr src flash inside

theorem arrived_late {addr place : ℕ} (late : addr % 256 ≤ place % 256) (count : ℕ)
    (src : Memory UInt8) (flash : Flash) :
    arrived addr count src flash place =
      if addr ≤ place ∧ place < addr + count then flash place &&& src (place - addr)
      else flash place := by
  have index_eq (behind : addr / 256 ≤ place / 256) : sourceIndex addr place = place - addr := by
    unfold sourceIndex wrapped
    omega
  unfold arrived
  by_cases behind : addr / 256 ≤ place / 256
  · rw [index_eq behind]
    exact if_congr (by omega) rfl rfl
  · rw [if_neg fun both => behind both.1, if_neg (by omega)]

theorem arrived_early {addr place : ℕ} (early : place % 256 < addr % 256)
    (behind : addr / 256 ≤ place / 256) (count : ℕ) (src : Memory UInt8) (flash : Flash) :
    arrived addr count src flash place =
      if place + 256 < addr + count then flash place &&& src (place + 256 - addr)
      else flash place := by
  have index_eq : sourceIndex addr place = place + 256 - addr := by
    unfold sourceIndex wrapped
    omega
  rw [arrived, index_eq]
  exact if_congr (by omega) rfl rfl

theorem Fits.harmless {addr size : ℕ} (fits : Fits addr size) (src : Memory UInt8)
    (flash : Flash) : Harmless addr size src flash := by
  intro place behind early
  rcases fits with aligned | single
  · omega
  · rw [if_neg (by omega), if_neg (by omega)]

theorem fits_of_harmless {addr size : ℕ}
    (harmless : ∀ src flash, Harmless addr size src flash) : Fits addr size := by
  by_contra crosses
  unfold Fits at crosses
  have cleared := harmless (fun _ => 0) (fun _ => 0xff) (addr / 256 * 256) (by omega) (by omega)
  rw [if_pos (by omega), if_neg (by omega)] at cleared
  exact absurd cleared (show ¬(0xff : UInt8) &&& 0 = 0xff by decide)

theorem exact_iff_harmless (inside : addr.toNat + size.toNat ≤ 2 ^ 24) (src : Memory UInt8)
    (flash : Flash) :
    Exact addr.toNat size.toNat src flash
        (spiFlashWrite (fun _ => true) flash addr size (some src)).2 ↔
      Harmless addr.toNat size.toNat src flash := by
  rw [spiFlashWrite_eq inside]
  constructor
  · intro exact place behind early
    rw [← arrived_early early behind]
    exact exact place
  · intro harmless place
    dsimp only
    by_cases early : place % 256 < addr.toNat % 256
    · by_cases behind : addr.toNat / 256 ≤ place / 256
      · rw [arrived_early early behind]
        exact harmless place behind early
      · rw [arrived, if_neg fun both => behind both.1, if_neg (by omega)]
    · exact arrived_late (Nat.le_of_not_lt early) ..

/-- Whatever is written, the write is exact exactly if it fits its pages; otherwise it is so exactly
for contents with which the bytes that arrive too early make no difference. -/
theorem write_exact_iff (addr size : UInt32) (inside : addr.toNat + size.toNat ≤ 2 ^ 24) :
    ((∀ src flash, Exact addr.toNat size.toNat src flash
        (spiFlashWrite (fun _ => true) flash addr size (some src)).2) ↔
      Fits addr.toNat size.toNat) ∧
    ∀ src flash, Exact addr.toNat size.toNat src flash
        (spiFlashWrite (fun _ => true) flash addr size (some src)).2 ↔
      Fits addr.toNat size.toNat ∨ Harmless addr.toNat size.toNat src flash := by
  simp only [exact_iff_harmless inside]
  exact ⟨⟨fits_of_harmless, fun fits src flash => fits.harmless src flash⟩, fun src flash =>
    (or_iff_right_of_imp fun fits => fits.harmless src flash).symm⟩

/-- Two pages from the start of a page. -/
theorem write_exact_two_pages :
    Fits 4096 512 ∧ ∀ src flash, Exact 4096 512 src flash
      (spiFlashWrite (fun _ => true) flash 4096 512 (some src)).2 :=
  ⟨.inl (by decide), (write_exact_iff 4096 512 (by decide)).1.mpr (.inl (by decide))⟩

/-- Four bytes across the end of a page. -/
theorem write_not_exact :
    ¬∀ (addr size : UInt32) (src : Memory UInt8) (flash : Flash),
      addr.toNat + size.toNat ≤ 2 ^ 24 →
        Exact addr.toNat size.toNat src flash
          (spiFlashWrite (fun _ => true) flash addr size (some src)).2 := by
  intro every
  have exact := every 254 4 (fun _ => 0) (fun _ => 0xff) (by decide)
  have harmless := (exact_iff_harmless (by decide) _ _).mp exact 0 (by decide) (by decide)
  exact absurd harmless (by decide)

/-! ## Erases -/

inductive EraseMode
  /-- `ERASE_MODE_BLOCK_64K`. -/
  | block64k
  /-- `ERASE_MODE_BLOCK_32K`. -/
  | block32k
  /-- `ERASE_MODE_SECTOR`. -/
  | sector
  deriving DecidableEq

def EraseMode.eraseSize : EraseMode → UInt32
  | .block64k => 64 * 1024
  | .block32k => 32 * 1024
  | .sector => 4 * 1024

/-- A call of `spi_flash_earse`, which sends an erase command with three bytes of the address. -/
structure Earse where
  addr : UInt32
  mode : EraseMode
  deriving DecidableEq

/-- The device erases the naturally aligned unit that contains the address. -/
def Earse.erases (earse : Earse) (sector : ℕ) : Prop :=
  4096 * sector / earse.mode.eraseSize.toNat =
    commandAddr earse.addr / earse.mode.eraseSize.toNat

/-- The unit for what is left, by the variable `size` too. -/
def eraseMode (leftSize : ℤ) (size : UInt32) : EraseMode :=
  if leftSize ≤ 4 * 1024 then .sector
  else if size ≤ 32 * 1024 then .block32k
  else .block64k

/-- `size` after an erase: what the unit still had from the address on. -/
def erasedSize (addr eraseSize : UInt32) : UInt32 :=
  if addr &&& (eraseSize - 1) ≠ 0 then eraseSize - (addr &&& (eraseSize - 1)) else eraseSize

theorem toNat_erasedSize (addr : UInt32) (mode : EraseMode) :
    (erasedSize addr mode.eraseSize).toNat =
      mode.eraseSize.toNat - addr.toNat % mode.eraseSize.toNat := by
  have masked : (addr &&& (mode.eraseSize - 1)).toNat = addr.toNat % mode.eraseSize.toNat := by
    rw [UInt32.toNat_and]
    cases mode with
    | block64k => exact Nat.and_two_pow_sub_one_eq_mod _ 16
    | block32k => exact Nat.and_two_pow_sub_one_eq_mod _ 15
    | sector => exact Nat.and_two_pow_sub_one_eq_mod _ 12
  have unit_pos : 0 < mode.eraseSize.toNat := by cases mode <;> decide
  have below := Nat.mod_lt addr.toNat unit_pos
  unfold erasedSize
  split_ifs with unaligned
  · rw [UInt32.toNat_sub_of_le, masked]
    rw [UInt32.le_iff_toNat_le, masked]
    exact Nat.le_of_lt below
  · rw [not_not] at unaligned
    rw [unaligned, UInt32.toNat_zero] at masked
    rw [← masked, Nat.sub_zero]

/-- The loop of `spi_flash_erase`. -/
def eraseLoop (leftSize : ℤ) (size addr : UInt32) : List Earse :=
  if 0 < leftSize then
    let mode := eraseMode leftSize size
    let erased := erasedSize addr mode.eraseSize
    ⟨addr, mode⟩ :: eraseLoop (leftSize - erased.toNat) erased (addr + erased)
  else []
termination_by leftSize.toNat
decreasing_by
  have unit_pos : 0 < (eraseMode leftSize size).eraseSize.toNat := by
    cases eraseMode leftSize size <;> decide
  have below := Nat.mod_lt addr.toNat unit_pos
  rw [toNat_erasedSize]
  omega

/-- `spi_flash_erase`, whose count of what is left is signed. -/
def spiFlashErase (addr size : UInt32) : List Earse := eraseLoop size.toInt32.toInt size addr

def Intersects (addr size sector : ℕ) : Prop :=
  ∃ place, place / 4096 = sector ∧ addr ≤ place ∧ place < addr + size

def Erased (earses : List Earse) (sector : ℕ) : Prop := ∃ earse ∈ earses, earse.erases sector

def ErasesExactly (addr size : ℕ) (earses : List Earse) : Prop :=
  ∀ sector, Erased earses sector ↔ Intersects addr size sector

def blockSize (size : ℕ) : ℕ := if size ≤ 32768 then 32768 else 65536

/-- The range is at most a sector long, or begins in the first sector of a block and ends in the
first or the last sector of one. -/
def ErasesFit (addr size : ℕ) : Prop :=
  size ≤ 4096 ∨
    addr % blockSize size < 4096 ∧
      ((addr % blockSize size + size) % blockSize size ≤ 4096 ∨
        blockSize size - 4096 < (addr % blockSize size + size) % blockSize size)

@[simp]
theorem erased_nil (sector : ℕ) : ¬Erased [] sector := by simp [Erased]

@[simp]
theorem erased_cons (earse : Earse) (earses : List Earse) (sector : ℕ) :
    Erased (earse :: earses) sector ↔ earse.erases sector ∨ Erased earses sector := by
  simp [Erased]

theorem intersects_iff (addr size sector : ℕ) :
    Intersects addr size sector ↔
      0 < size ∧ addr / 4096 ≤ sector ∧ sector ≤ (addr + size - 1) / 4096 := by
  constructor
  · rintro ⟨place, rfl, behind, before⟩
    omega
  · rintro ⟨filled, behind, before⟩
    exact ⟨max addr (4096 * sector), by omega, by omega, by omega⟩

theorem erases_iff (addr_lt : addr.toNat < 2 ^ 24) (mode : EraseMode) (sector : ℕ) :
    Earse.erases ⟨addr, mode⟩ sector ↔
      4096 * sector / mode.eraseSize.toNat = addr.toNat / mode.eraseSize.toNat := by
  rw [Earse.erases, commandAddr, Nat.mod_eq_of_lt addr_lt]

section

variable {leftSize : ℤ} {size addr : UInt32}

theorem eraseLoop_done (done : leftSize ≤ 0) : eraseLoop leftSize size addr = [] := by
  rw [eraseLoop, if_neg (by omega)]

variable {mode : EraseMode} {block count : ℕ}

theorem eraseLoop_more (more : 0 < leftSize) (mode_eq : eraseMode leftSize size = mode) :
    eraseLoop leftSize size addr =
      ⟨addr, mode⟩ :: eraseLoop (leftSize - (erasedSize addr mode.eraseSize).toNat)
        (erasedSize addr mode.eraseSize) (addr + erasedSize addr mode.eraseSize) := by
  subst mode_eq
  rw [eraseLoop, if_pos more]

theorem toNat_add_erasedSize (mode : EraseMode) (addr_lt : addr.toNat < 2 ^ 24) :
    (addr + erasedSize addr mode.eraseSize).toNat =
      addr.toNat / mode.eraseSize.toNat * mode.eraseSize.toNat + mode.eraseSize.toNat := by
  have unit_pos : 0 < mode.eraseSize.toNat := by cases mode <;> decide
  have unit_le : mode.eraseSize.toNat ≤ 65536 := by cases mode <;> decide
  have below := Nat.mod_lt addr.toNat unit_pos
  have split := Nat.div_add_mod' addr.toNat mode.eraseSize.toNat
  rw [UInt32.toNat_add, toNat_erasedSize, Nat.mod_eq_of_lt (by omega)]
  omega

theorem erased_last (more : 0 < leftSize)
    (single : addr.toNat % 4096 + leftSize ≤ 4096) (inside : addr.toNat + leftSize ≤ 2 ^ 24)
    (sector : ℕ) :
    Erased (eraseLoop leftSize size addr) sector ↔
      Intersects addr.toNat leftSize.toNat sector := by
  have size_eq : EraseMode.sector.eraseSize.toNat = 4096 := rfl
  have done : leftSize - (erasedSize addr EraseMode.sector.eraseSize).toNat ≤ 0 := by
    rw [toNat_erasedSize, size_eq]
    omega
  rw [eraseLoop_more more (if_pos (by omega)), eraseLoop_done done, erased_cons,
    erases_iff (by omega), size_eq, intersects_iff]
  simp only [erased_nil, or_false]
  omega

theorem erased_rest (more : 0 < leftSize) (short : leftSize ≤ 4096)
    (inside : addr.toNat + leftSize ≤ 2 ^ 24) (sector : ℕ) :
    Erased (eraseLoop leftSize size addr) sector ↔
      Intersects addr.toNat leftSize.toNat sector := by
  by_cases single : addr.toNat % 4096 + leftSize ≤ 4096
  · exact erased_last more single inside sector
  · have size_eq : EraseMode.sector.eraseSize.toNat = 4096 := rfl
    have addr_lt : addr.toNat < 2 ^ 24 := by omega
    have next_eq := toNat_add_erasedSize .sector addr_lt
    have erased_eq := toNat_erasedSize addr .sector
    rw [size_eq] at next_eq erased_eq
    rw [eraseLoop_more more (if_pos (by omega)), erased_cons, erases_iff addr_lt, size_eq,
      erased_last (by omega) (by omega) (by omega), intersects_iff, intersects_iff, next_eq,
      erased_eq]
    omega

/-- How many sectors a long range that begins with a block has erased, in blocks of a size. -/
def erasedSectors (block count : ℕ) : ℕ :=
  count / block * (block / 4096) +
    if count % block = 0 then 0 else if count % block ≤ 4096 then 1 else block / 4096

theorem erasedSectors_zero (block : ℕ) : erasedSectors block 0 = 0 := by
  simp [erasedSectors]

theorem erasedSectors_short (wide : 4096 < block) (filled : 0 < count) (short : count ≤ 4096) :
    erasedSectors block count = 1 := by
  rw [erasedSectors, Nat.div_eq_of_lt (by omega), Nat.mod_eq_of_lt (by omega),
    if_neg (by omega), if_pos short]
  omega

theorem erasedSectors_long (wide : 4096 < block) (long : 4096 < count) :
    erasedSectors block count = block / 4096 + erasedSectors block (count - block) := by
  by_cases whole : block ≤ count
  · rw [erasedSectors, erasedSectors, ← Nat.mod_eq_sub_mod whole,
      Nat.div_eq_sub_div (by omega) whole, Nat.add_mul, Nat.one_mul]
    omega
  · rw [Nat.sub_eq_zero_of_le (by omega), erasedSectors_zero, erasedSectors,
      Nat.div_eq_of_lt (by omega), Nat.mod_eq_of_lt (by omega), if_neg (by omega),
      if_neg (by omega)]
    omega

/-- What the loop erases from the beginning of a block on. -/
theorem erased_blocks (block : mode ≠ .sector)
    (choice : (if size ≤ 32 * 1024 then EraseMode.block32k else .block64k) = mode)
    (aligned : addr.toNat % mode.eraseSize.toNat = 0) (inside : addr.toNat + leftSize ≤ 2 ^ 24)
    (sector : ℕ) :
    Erased (eraseLoop leftSize size addr) sector ↔
      addr.toNat / 4096 ≤ sector ∧
        sector < addr.toNat / 4096 + erasedSectors mode.eraseSize.toNat leftSize.toNat := by
  have unit : mode.eraseSize.toNat = 32768 ∨ mode.eraseSize.toNat = 65536 := by
    cases mode with
    | sector => exact absurd rfl block
    | block32k => exact .inl rfl
    | block64k => exact .inr rfl
  have wide : 4096 < mode.eraseSize.toNat := by omega
  have in_sectors {place : ℕ} (here : place % mode.eraseSize.toNat = 0) : place % 4096 = 0 := by
    rcases unit with unit | unit <;> rw [unit] at here <;> omega
  induction left : leftSize.toNat using Nat.strong_induction_on
    generalizing leftSize size addr with
  | _ left induction =>
      subst left
      by_cases more : 0 < leftSize
      · by_cases short : leftSize ≤ 4096
        · rw [erased_rest more short inside, intersects_iff,
            erasedSectors_short wide (by omega) (by omega)]
          have starts := in_sectors aligned
          omega
        · have mode_eq : eraseMode leftSize size = mode := by
            rw [eraseMode, if_neg (by omega), choice]
          have addr_lt : addr.toNat < 2 ^ 24 := by omega
          have erased_eq := toNat_erasedSize addr mode
          have next_eq := toNat_add_erasedSize mode addr_lt
          rw [aligned, Nat.sub_zero] at erased_eq
          rw [Nat.div_mul_cancel (Nat.dvd_of_mod_eq_zero aligned)] at next_eq
          have choice' : (if erasedSize addr mode.eraseSize ≤ 32 * 1024 then EraseMode.block32k
              else .block64k) = mode := by
            have whole : erasedSize addr mode.eraseSize = mode.eraseSize :=
              UInt32.toNat_inj.mp erased_eq
            rw [whole]
            cases mode with
            | sector => exact absurd rfl block
            | block32k | block64k => rfl
          have left_eq : (leftSize - mode.eraseSize.toNat).toNat =
              leftSize.toNat - mode.eraseSize.toNat := by omega
          have later : Erased (eraseLoop (leftSize - mode.eraseSize.toNat)
                (erasedSize addr mode.eraseSize) (addr + erasedSize addr mode.eraseSize)) sector ↔
              (addr.toNat + mode.eraseSize.toNat) / 4096 ≤ sector ∧
                sector < (addr.toNat + mode.eraseSize.toNat) / 4096 +
                  erasedSectors mode.eraseSize.toNat
                    (leftSize.toNat - mode.eraseSize.toNat) := by
            rw [← next_eq, ← left_eq]
            exact induction _ (by omega) choice' (by rw [next_eq, Nat.add_mod_right, aligned])
              (by omega) rfl
          have sectors_eq : erasedSectors mode.eraseSize.toNat leftSize.toNat = _ :=
            erasedSectors_long wide (by omega)
          rw [eraseLoop_more more mode_eq, erased_cons, erases_iff addr_lt, erased_eq, later,
            sectors_eq]
          generalize erasedSectors _ _ = rest
          rcases unit with unit | unit <;> rw [unit] at aligned ⊢ <;> omega
      · rw [eraseLoop_done (by omega), Int.toNat_of_nonpos (by omega), erasedSectors_zero]
        simp only [erased_nil, false_iff]
        omega

/-- What a long range that begins in the first sector of a block erases. -/
theorem erased_range (block : mode ≠ .sector)
    (choice : (if size ≤ 32 * 1024 then EraseMode.block32k else .block64k) = mode)
    (long : 4096 < leftSize) (start : addr.toNat % mode.eraseSize.toNat < 4096)
    (inside : addr.toNat + leftSize ≤ 2 ^ 24) (sector : ℕ) :
    Erased (eraseLoop leftSize size addr) sector ↔
      addr.toNat / 4096 ≤ sector ∧
        sector < addr.toNat / 4096 + erasedSectors mode.eraseSize.toNat
          (addr.toNat % mode.eraseSize.toNat + leftSize.toNat) := by
  have unit : mode.eraseSize.toNat = 32768 ∨ mode.eraseSize.toNat = 65536 := by
    cases mode with
    | sector => exact absurd rfl block
    | block32k => exact .inl rfl
    | block64k => exact .inr rfl
  have mode_eq : eraseMode leftSize size = mode := by
    rw [eraseMode, if_neg (by omega), choice]
  have addr_lt : addr.toNat < 2 ^ 24 := by omega
  have erased_eq := toNat_erasedSize addr mode
  have next_eq := toNat_add_erasedSize mode addr_lt
  have choice' : (if erasedSize addr mode.eraseSize ≤ 32 * 1024 then EraseMode.block32k
      else .block64k) = mode := by
    cases mode with
    | sector => exact absurd rfl block
    | block32k =>
        refine if_pos (UInt32.le_iff_toNat_le.mpr ?_)
        rw [erased_eq]
        exact Nat.sub_le ..
    | block64k =>
        refine if_neg fun le => ?_
        have le := UInt32.le_iff_toNat_le.mp le
        change _ ≤ 32768 at le
        change _ = 65536 - addr.toNat % 65536 at erased_eq
        change addr.toNat % 65536 < 4096 at start
        omega
  have sectors_eq : erasedSectors mode.eraseSize.toNat
      (addr.toNat % mode.eraseSize.toNat + leftSize.toNat) = _ :=
    erasedSectors_long (by omega) (by omega)
  have left_eq : (leftSize - (erasedSize addr mode.eraseSize).toNat).toNat =
      addr.toNat % mode.eraseSize.toNat + leftSize.toNat - mode.eraseSize.toNat := by
    rw [erased_eq]
    omega
  have split := Nat.div_add_mod' addr.toNat mode.eraseSize.toNat
  rw [eraseLoop_more (by omega) mode_eq, erased_cons, erases_iff addr_lt,
    erased_blocks block choice' (by rw [next_eq, Nat.add_mod_right, Nat.mul_mod_left])
      (by omega), left_eq, next_eq, sectors_eq]
  generalize erasedSectors _ _ = rest
  rcases unit with unit | unit <;> rw [unit] at start ⊢ <;> omega

end

/-- The blocks end with the range exactly if the range ends in the first or the last sector of
one. -/
theorem erasedSectors_eq_iff {block total : ℕ} (unit : block = 32768 ∨ block = 65536)
    (long : 4096 < total) :
    erasedSectors block total = (total - 1) / 4096 + 1 ↔
      total % block ≤ 4096 ∨ block - 4096 < total % block := by
  unfold erasedSectors
  rcases unit with rfl | rfl <;> split_ifs <;> omega

theorem start_of_exact {mode : EraseMode} (block : mode ≠ .sector)
    (mode_eq : eraseMode size.toInt32.toInt size = mode) (filled : 0 < size.toInt32.toInt)
    (addr_lt : addr.toNat < 2 ^ 24)
    (exact : ErasesExactly addr.toNat size.toNat (spiFlashErase addr size)) :
    addr.toNat % mode.eraseSize.toNat < 4096 := by
  have first : Erased (spiFlashErase addr size)
      (addr.toNat / mode.eraseSize.toNat * mode.eraseSize.toNat / 4096) := by
    rw [spiFlashErase, eraseLoop_more filled mode_eq, erased_cons, erases_iff addr_lt]
    left
    cases mode with
    | sector => exact absurd rfl block
    | block32k =>
        change 4096 * (addr.toNat / 32768 * 32768 / 4096) / 32768 = addr.toNat / 32768
        omega
    | block64k =>
        change 4096 * (addr.toNat / 65536 * 65536 / 4096) / 65536 = addr.toNat / 65536
        omega
  obtain ⟨place, place_eq, behind, -⟩ := (exact _).mp first
  cases mode with
  | sector => exact absurd rfl block
  | block32k =>
      change place / 4096 = addr.toNat / 32768 * 32768 / 4096 at place_eq
      change addr.toNat % 32768 < 4096
      omega
  | block64k =>
      change place / 4096 = addr.toNat / 65536 * 65536 / 4096 at place_eq
      change addr.toNat % 65536 < 4096
      omega

theorem toInt_toInt32 {word : UInt32} (small : word.toNat < 2 ^ 31) :
    word.toInt32.toInt = word.toNat := by
  rw [← @UInt32.ofNat_toNat word, UInt32.toInt32_ofNat', Int32.toInt_ofNat_of_lt small,
    UInt32.ofNat_toNat]

/-- A long range is erased exactly if its ends fit the blocks. -/
theorem erase_exact_iff_of_long (long : 4096 < size.toNat)
    (inside : addr.toNat + size.toNat ≤ 2 ^ 24) :
    ErasesExactly addr.toNat size.toNat (spiFlashErase addr size) ↔
      addr.toNat % blockSize size.toNat < 4096 ∧
        ((addr.toNat % blockSize size.toNat + size.toNat) % blockSize size.toNat ≤ 4096 ∨
          blockSize size.toNat - 4096 <
            (addr.toNat % blockSize size.toNat + size.toNat) % blockSize size.toNat) := by
  have left_eq : size.toInt32.toInt = size.toNat := toInt_toInt32 (by omega)
  obtain ⟨mode, choice⟩ :
      ∃ mode, (if size ≤ 32 * 1024 then EraseMode.block32k else .block64k) = mode := ⟨_, rfl⟩
  have mode_eq : eraseMode size.toInt32.toInt size = mode := by
    rw [eraseMode, left_eq, if_neg (by omega), choice]
  have block : mode ≠ .sector := by
    rw [← choice]
    split_ifs <;> simp
  have unit : mode.eraseSize.toNat = blockSize size.toNat := by
    have small_iff : size ≤ 32 * 1024 ↔ size.toNat ≤ 32768 := UInt32.le_iff_toNat_le
    rw [← choice, blockSize]
    by_cases small : size ≤ 32 * 1024
    · rw [if_pos small, if_pos (small_iff.mp small)]
      rfl
    · rw [if_neg small, if_neg fun le => small (small_iff.mpr le)]
      rfl
  have unit_cases : blockSize size.toNat = 32768 ∨ blockSize size.toNat = 65536 := by
    unfold blockSize
    split_ifs <;> simp
  have erased (start : addr.toNat % blockSize size.toNat < 4096) (sector : ℕ) :
      Erased (spiFlashErase addr size) sector ↔ _ :=
    erased_range block choice (by rw [left_eq]; omega) (unit ▸ start) (by rw [left_eq]; omega)
      sector
  have ends : erasedSectors (blockSize size.toNat)
      (addr.toNat % blockSize size.toNat + size.toNat) = _ ↔ _ :=
    erasedSectors_eq_iff unit_cases (by omega)
  rw [left_eq, Int.toNat_natCast, unit] at erased
  constructor
  · intro exact
    have start : addr.toNat % blockSize size.toNat < 4096 :=
      unit ▸ start_of_exact block mode_eq (by omega) (by omega) exact
    refine ⟨start, ends.mp ?_⟩
    have agree (sector : ℕ) := (erased start sector).symm.trans
      ((exact sector).trans (intersects_iff ..))
    have last := agree ((addr.toNat + size.toNat - 1) / 4096)
    have past := agree ((addr.toNat + size.toNat - 1) / 4096 + 1)
    rcases unit_cases with unit | unit <;> rw [unit] at start last past ⊢ <;> omega
  · rintro ⟨start, fits⟩ sector
    have sectors_eq := ends.mpr fits
    rw [erased start, intersects_iff, sectors_eq]
    rcases unit_cases with unit | unit <;> rw [unit] at start ⊢ <;> omega

/-- Exactly the sectors of a range are erased exactly if its ends fit the blocks. -/
theorem erase_exact_iff (addr size : UInt32) (inside : addr.toNat + size.toNat ≤ 2 ^ 24) :
    ErasesExactly addr.toNat size.toNat (spiFlashErase addr size) ↔
      ErasesFit addr.toNat size.toNat := by
  by_cases short : size.toNat ≤ 4096
  · refine iff_of_true (fun sector => ?_) (.inl short)
    have left_eq : size.toInt32.toInt = size.toNat := toInt_toInt32 (by omega)
    rw [spiFlashErase, left_eq]
    by_cases filled : 0 < size.toNat
    · exact erased_rest (by omega) (by omega) (by omega) sector
    · rw [eraseLoop_done (by omega), intersects_iff]
      simp only [erased_nil, false_iff]
      omega
  · rw [erase_exact_iff_of_long (by omega) inside, ErasesFit, or_iff_right short]

/-- A block of 32 kilobytes from inside its first sector, and a sector of the next. -/
theorem erase_exact_block_and_sector :
    ErasesExactly 0x8100 0x8000 (spiFlashErase 0x8100 0x8000) :=
  (erase_exact_iff 0x8100 0x8000 (by decide)).mpr (.inr (by decide))

/-- For two sectors a whole block is erased. -/
theorem erase_not_exact :
    ¬∀ addr size : UInt32, addr.toNat + size.toNat ≤ 2 ^ 24 →
      ErasesExactly addr.toNat size.toNat (spiFlashErase addr size) := by
  intro every
  have exact := every 0 0x2000 (by decide)
  have fits := (erase_exact_iff_of_long (by decide) (by decide)).mp exact
  exact absurd fits (by decide)

end BdkFreertos.SpiFlash
