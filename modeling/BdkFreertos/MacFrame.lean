import BdkFreertos.Memory

/-!
# MAC headers

MAC addresses and the header of a management frame, as they lie in memory: packed, with half words
least significant byte first.
-/

namespace BdkFreertos

abbrev MacAddr := Vector UInt8 6

/-- `is_multicast_ether_addr`. -/
def isMulticastEtherAddr (addr : MacAddr) : Bool := addr[0] &&& 0x01 ≠ 0

def halfBytes (half : UInt16) : List UInt8 :=
  [UInt8.ofNat half.toNat, UInt8.ofNat (half.toNat / 2 ^ 8)]

/-- The half word with the given bytes, least significant first. -/
def halfOfBytes (byte₀ byte₁ : UInt8) : UInt16 :=
  UInt16.ofNat (byte₀.toNat + 2 ^ 8 * byte₁.toNat)

/-- `MAC_FCTRL_TYPESUBTYPE_MASK`. -/
def macFctrlTypesubtypeMask : UInt16 := 0x00FC

/-- `MAC_FCTRL_ACTION`. -/
def macFctrlAction : UInt16 := 0x00D0

/-- `struct mac_hdr`, packed. -/
def macHdrBytes (fctl durid : UInt16) (addr1 addr2 addr3 : MacAddr) (seq : UInt16) : List UInt8 :=
  halfBytes fctl ++ (halfBytes durid ++
    (addr1.toList ++ (addr2.toList ++ (addr3.toList ++ halfBytes seq))))

def loadAddr (data : Memory UInt8) (offset : ℕ) : MacAddr :=
  Vector.ofFn fun index => data (offset + index)

theorem loadAddr_of_holds {data : Memory UInt8} {offset : ℕ} {addr : MacAddr}
    (held : data.Holds offset addr.toList) : loadAddr data offset = addr := by
  apply Vector.ext
  intro index inside
  have cell := Memory.load_apply held (show index < addr.toList.length by simpa using inside)
  rw [Vector.getElem?_toList, Vector.getElem?_eq_getElem inside] at cell
  rw [loadAddr, Vector.getElem_ofFn]
  exact (Option.some.inj cell).symm

theorem toList_three (bytes : Vector UInt8 3) :
    bytes.toList = [bytes.getD 0 0, bytes.getD 1 0, bytes.getD 2 0] := by
  obtain ⟨⟨list⟩, size⟩ := bytes
  match list, size with
  | [_, _, _], _ => rfl

end BdkFreertos
