import BdkFreertos.Flash
import BdkFreertos.Machine

/-!
# The network-parameter store

One partition of the flash keeps a table of items, each with a type, a length and a value, behind a
header of the same shape.  `save_info_item` rebuilds the whole table in RAM, erases the partition
and writes the table back; `get_info_item` scans it for one type.  A scan that never leaves its
loop is the result `none`.
-/

namespace BdkFreertos.NetParam

open Flash

/-- The magic type of the table header, ASCII `TLV`. -/
def infoTlvHeader : UInt32 := 0x00564c54

/-- The item types `NET_INFO_ITEM`. -/
inductive NetInfoItem
  | autoConnect
  | wifiMode
  | dhcpMode
  | wifiMac
  | ssidKey
  | ipConfig
  | rfCfgTssi
  | rfCfgDist
  | rfCfgMode
  | chargeConfig
  | rfCfgTssiB
  deriving DecidableEq

namespace NetInfoItem

/-- The enumeration's values. -/
def code : NetInfoItem → UInt32
  | autoConnect => 0x11111111
  | wifiMode => 0x22222222
  | dhcpMode => 0x33333333
  | wifiMac => 0x44444444
  | ssidKey => 0x55555555
  | ipConfig => 0x66666666
  | rfCfgTssi => 0x77777777
  | rfCfgDist => 0x88888888
  | rfCfgMode => 0x99999999
  | chargeConfig => 0xaaaaaaaa
  | rfCfgTssiB => 0xbbbbbbbb

/-- The item with a given value, if the enumeration has one. -/
def ofCode (item : UInt32) : Option NetInfoItem :=
  [autoConnect, wifiMode, dhcpMode, wifiMac, ssidKey, ipConfig, rfCfgTssi, rfCfgDist, rfCfgMode,
    chargeConfig, rfCfgTssiB].find? fun known => known.code = item

@[simp]
theorem ofCode_code (item : NetInfoItem) : ofCode item.code = some item := by
  cases item <;> rfl

end NetInfoItem

/-- An item header `INFO_ITEM_ST`, also the table header `TLV_HEADER_ST`. -/
structure InfoItemSt where
  /-- Item type, or the magic of the table header. -/
  type : UInt32
  len : UInt32

def sizeofInfoItemSt : UInt32 := 8

/-- Read an item header from the flash device. -/
def readHead (flash : Flash) (address : UInt32) : InfoItemSt where
  type := flash.loadWord address.toNat
  len := flash.loadWord (address.toNat + 4)

/-- Look for the table: whether it is there, its length with the header, and the buffer that has
received it when one is given. -/
def searchInfoTbl (soc : SocName) (flash : Flash) (buf : Option (Memory UInt8)) :
    Bool × UInt32 × Option (Memory UInt8) :=
  let start := (netParamPartition soc).partitionStartAddr
  let head := readHead flash start
  if head.type = infoTlvHeader then
    let cfgLen := head.len + sizeofInfoItemSt
    (true, cfgLen, buf.map fun buf => flash.ddevRead buf cfgLen start)
  else
    (false, 0, buf)

/-- The scanning loop of `search_info_item`.  The flash does not change while it runs, so a scan of
more rounds than there are addresses repeats one and never ends. -/
def searchInfoItemLoop (flash : Flash) (type endAddr : UInt32) : ℕ → UInt32 → Option UInt32
  | 0, _ => none
  | rounds + 1, addr =>
      if addr < endAddr then
        let head := readHead flash addr
        if type ≠ head.type then
          searchInfoItemLoop flash type endAddr rounds (addr + sizeofInfoItemSt + head.len)
        else
          some addr
      else
        some addr

/-- The address of the first item of a type, or zero. -/
def searchInfoItem (flash : Flash) (type startAddr : UInt32) : Option UInt32 :=
  let head := readHead flash startAddr
  let addr := startAddr + sizeofInfoItemSt
  let endAddr := addr + head.len
  (searchInfoItemLoop flash type endAddr (2 ^ 32 + 1) addr).map fun addr =>
    if addr ≥ endAddr then 0 else addr

/-- Bytes of the charge calibration, `sizeof(chrg)`. -/
def chargeBytes (soc : SocName) : UInt32 :=
  if soc = .bk7221u then 4 else 3

/-- Length of an item with its header; `reserved` bytes round the value up. -/
def infoItemLen (item : UInt32) : UInt32 :=
  match NetInfoItem.ofCode item with
  | some .wifiMac => sizeofInfoItemSt + 6 + 2
  | some .chargeConfig => sizeofInfoItemSt + 4
  | some .ssidKey => sizeofInfoItemSt + 32 + 64
  | some .ipConfig => sizeofInfoItemSt + 16 + 16 + 16
  | _ => sizeofInfoItemSt + 4

/-- The three pointer arguments, each a buffer or `NULL`. -/
structure Pointers where
  ptr0 : Option (Memory UInt8)
  ptr1 : Option (Memory UInt8)
  ptr2 : Option (Memory UInt8)

/-- The switch of `get_info_item`: copy a value of `len` bytes into the caller's buffers. -/
def readValue (flash : Flash) (item len addrStart : UInt32) (pointers : Pointers) :
    UInt32 × Pointers :=
  match NetInfoItem.ofCode item, pointers with
  | some .ssidKey, ⟨some ptr0, some ptr1, ptr2⟩ =>
      (1, ⟨some (flash.ddevRead ptr0 32 addrStart),
        some (flash.ddevRead ptr1 64 (addrStart + 32)), ptr2⟩)
  | some .ssidKey, pointers => (0, pointers)
  | some .ipConfig, ⟨some ptr0, some ptr1, some ptr2⟩ =>
      (1, ⟨some (flash.ddevRead ptr0 16 addrStart),
        some (flash.ddevRead ptr1 16 (addrStart + 16)),
        some (flash.ddevRead ptr2 16 (addrStart + 16 + 16))⟩)
  | some .ipConfig, pointers => (0, pointers)
  | some _, ⟨some ptr0, ptr1, ptr2⟩ =>
      (1, ⟨some (flash.ddevRead ptr0 len addrStart), ptr1, ptr2⟩)
  | some _, pointers => (0, pointers)
  | none, pointers => (0, pointers)

/-- Read an item's value into the caller's buffers; the result carries the return value and the
buffers. -/
def getInfoItem (soc : SocName) (flash : Flash) (item : UInt32) (pointers : Pointers) :
    Option (UInt32 × Pointers) :=
  if (searchInfoTbl soc flash none).1 then
    (searchInfoItem flash item (netParamPartition soc).partitionStartAddr).map fun addrStart =>
      if addrStart = 0 then
        (0, pointers)
      else
        let head := readHead flash addrStart
        readValue flash item head.len (addrStart + sizeofInfoItemSt) pointers
  else
    some (0, pointers)

/-- One call of `save_info_item`. -/
structure SaveCall where
  item : UInt32
  ptr0 : Memory UInt8
  ptr1 : Memory UInt8
  ptr2 : Memory UInt8

/-- Copy an item's value from the caller's buffers to its place in the image of the table. -/
def copyValue (soc : SocName) (call : SaveCall) (image : Memory UInt8) (itemBuf : ℕ) :
    Memory UInt8 :=
  match NetInfoItem.ofCode call.item with
  | some .wifiMac => image.store itemBuf (call.ptr0.load 0 6)
  | some .ssidKey =>
      (image.store itemBuf (call.ptr0.load 0 32)).store (itemBuf + 32) (call.ptr1.load 0 64)
  | some .ipConfig =>
      ((image.store itemBuf (call.ptr0.load 0 16)).store (itemBuf + 16)
        (call.ptr1.load 0 16)).store (itemBuf + 32) (call.ptr2.load 0 16)
  | some .chargeConfig => image.store itemBuf (call.ptr0.load 0 (chargeBytes soc).toNat)
  | _ => image.store itemBuf (call.ptr0.load 0 4)

/-- Where an item goes, the length of the table with it, the length in the header, and the image to
fill in: the three cases of `save_info_item`. -/
structure Placement where
  addrOffset : UInt32
  cfgTblLen : UInt32
  headLen : UInt32
  wrbuf : Memory UInt8

def osZalloc : Memory UInt8 := fun _ => 0

/-- Find the place of an item: in a fresh table, behind the last item, or where it already is. -/
def placeItem (soc : SocName) (flash : Flash) (item : UInt32) : Option Placement :=
  let itemLen := infoItemLen item
  let start := (netParamPartition soc).partitionStartAddr
  let (present, cfgTblLen, _) := searchInfoTbl soc flash none
  if present then
    (searchInfoItem flash item start).map fun found =>
      let addrOffset := if found = 0 then cfgTblLen else found - start
      let cfgTblLen := if found = 0 then cfgTblLen + itemLen else cfgTblLen
      { addrOffset := addrOffset
        cfgTblLen := cfgTblLen
        headLen := cfgTblLen - sizeofInfoItemSt
        wrbuf := (searchInfoTbl soc flash (some osZalloc)).2.2.getD osZalloc }
  else
    some
      { addrOffset := sizeofInfoItemSt
        cfgTblLen := sizeofInfoItemSt + itemLen
        headLen := itemLen
        wrbuf := osZalloc }

/-- Fill in an item and the table header. -/
def fillImage (soc : SocName) (call : SaveCall) (placement : Placement) : Memory UInt8 :=
  let itemHead := placement.addrOffset.toNat
  let image := copyValue soc call placement.wrbuf (itemHead + sizeofInfoItemSt.toNat)
  let image := image.storeWord itemHead call.item
  let image := image.storeWord (itemHead + 4) (infoItemLen call.item - sizeofInfoItemSt)
  image.store 0 (wordBytes infoTlvHeader ++ wordBytes placement.headLen)

/-- Save an item; `allocated` tells whether the image could be allocated.  The result carries the
flash and the return value. -/
def saveInfoItem (soc : SocName) (allocated : Bool) (flash : Flash) (call : SaveCall) :
    Option (Flash × UInt32) :=
  (placeItem soc flash call.item).map fun placement =>
    if allocated then
      let partition := netParamPartition soc
      let image := fillImage soc call placement
      let flash := flash.bkFlashErase partition 0 placement.cfgTblLen
      (flash.bkFlashWrite partition 0 image placement.cfgTblLen, 1)
    else
      (flash, 0)

/-- The store driven by `save_info_item` with allocation succeeding; a call that never returns
leaves the flash as it is and replies `none`. -/
def netParamStore (soc : SocName) : Machine Flash SaveCall (Option UInt32) where
  step flash call :=
    match saveInfoItem soc true flash call with
    | some (after, returned) => (after, some returned)
    | none => (flash, none)

end BdkFreertos.NetParam
