import BdkFreertos.NetParam
import Mathlib.Algebra.BigOperators.Group.Finset.Basic
import Mathlib.Algebra.Order.BigOperators.Group.Finset

/-!
# The network-parameter table is a map

A well-formed table is the encoding of a list of items with distinct types.  A scan finds an item at
the length of the items before it, so each of the three ways of saving an item rewrites the encoding
of the list with that one item replaced or appended, and reading a type depends on its value alone.
-/

namespace BdkFreertos.NetParam

open Flash

/-! ## Encoded tables -/

/-- An item of the table. -/
structure Item where
  type : UInt32
  value : List UInt8

def Item.encode (item : Item) : List UInt8 :=
  (wordBytes item.type ++ wordBytes (UInt32.ofNat item.value.length)) ++ item.value

def encodeItems (items : List Item) : List UInt8 :=
  items.flatMap Item.encode

/-- A table with its header. -/
def encodeTable (items : List Item) : List UInt8 :=
  (wordBytes infoTlvHeader ++ wordBytes (UInt32.ofNat (encodeItems items).length)) ++
    encodeItems items

theorem Item.length_encode (item : Item) : item.encode.length = 8 + item.value.length := by
  simp [Item.encode]
  omega

@[simp]
theorem encodeItems_nil : encodeItems [] = [] := rfl

@[simp]
theorem encodeItems_cons (item : Item) (items : List Item) :
    encodeItems (item :: items) = item.encode ++ encodeItems items := rfl

@[simp]
theorem encodeItems_append (front back : List Item) :
    encodeItems (front ++ back) = encodeItems front ++ encodeItems back := by
  simp [encodeItems]

theorem length_encodeTable (items : List Item) :
    (encodeTable items).length = 8 + (encodeItems items).length := by
  rw [encodeTable, List.length_append, List.length_append, length_wordBytes, length_wordBytes]

variable {item : Item} {soc : SocName} {flash : Flash} {items : List Item} {value : List UInt8}
  {place : UInt32}

/-- The parts of a table around one item. -/
theorem holds_encodeTable {memory : Memory UInt8} {start : ℕ} {front back : List Item} :
    memory.Holds start (encodeTable (front ++ item :: back)) ↔
      memory.Holds start (wordBytes infoTlvHeader ++
        wordBytes (UInt32.ofNat (encodeItems (front ++ item :: back)).length)) ∧
      memory.Holds (start + 8) (encodeItems front) ∧
      memory.Holds (start + 8 + (encodeItems front).length)
        (wordBytes item.type ++ wordBytes (UInt32.ofNat item.value.length)) ∧
      memory.Holds (start + 8 + (encodeItems front).length + 8) item.value ∧
      memory.Holds (start + 8 + (encodeItems front).length + 8 + item.value.length)
        (encodeItems back) := by
  have parts : encodeItems (front ++ item :: back) =
      encodeItems front ++
        ((wordBytes item.type ++ wordBytes (UInt32.ofNat item.value.length)) ++
          (item.value ++ encodeItems back)) := by
    rw [encodeItems_append, encodeItems_cons, Item.encode]
    simp only [List.append_assoc]
  rw [encodeTable, Memory.holds_append]
  nth_rewrite 3 [parts]
  simp only [Memory.holds_append, List.length_append, length_wordBytes, Nat.reduceAdd]

abbrev tableStart (soc : SocName) : UInt32 := (netParamPartition soc).partitionStartAddr

theorem tableStart_bounds (soc : SocName) :
    0 < (tableStart soc).toNat ∧ (tableStart soc).toNat + 0x1000 < 2 ^ 32 := by
  cases soc <;> decide

/-- A well-formed table in the flash. -/
structure Table (soc : SocName) (flash : Flash) (items : List Item) : Prop where
  held : flash.Holds (tableStart soc).toNat (encodeTable items)
  fits : (encodeTable items).length ≤ (netParamPartition soc).partitionLength.toNat
  distinct : (items.map Item.type).Nodup
  sized : ∀ item ∈ items, item.encode.length = (infoItemLen item.type).toNat

/-! ## Scanning -/

theorem readHead_of_holds {flash : Flash} {address type len : UInt32}
    (held : flash.Holds address.toNat (wordBytes type ++ wordBytes len)) :
    readHead flash address = ⟨type, len⟩ := by
  obtain ⟨type_held, len_held⟩ := Memory.holds_append.mp held
  rw [length_wordBytes] at len_held
  rw [readHead, type_held.loadWord, len_held.loadWord]

theorem readHead_of_table (table : Table soc flash items) :
    readHead flash (tableStart soc) = ⟨infoTlvHeader, UInt32.ofNat (encodeItems items).length⟩ :=
  readHead_of_holds (Memory.holds_append.mp table.held).1

theorem holds_items_of_table (table : Table soc flash items) :
    flash.Holds ((tableStart soc).toNat + 8) (encodeItems items) :=
  (Memory.holds_append.mp table.held).2

theorem toNat_next {address : UInt32} {rest : List UInt8} {endAddr : UInt32}
    (reaches : endAddr.toNat = address.toNat + (item.encode ++ rest).length) :
    (address + sizeofInfoItemSt + UInt32.ofNat item.value.length).toNat =
      address.toNat + item.encode.length := by
  have bound := endAddr.toNat_lt
  have size : sizeofInfoItemSt.toNat = 8 := rfl
  rw [List.length_append, item.length_encode] at reaches
  rw [UInt32.toNat_add, UInt32.toNat_add, UInt32.toNat_ofNat', size, item.length_encode]
  omega

/-- The scan passes over every item of another type. -/
theorem searchInfoItemLoop_skip (flash : Flash) (type endAddr : UInt32) (front : List Item)
    (rest : List UInt8) (rounds : ℕ) (address : UInt32)
    (held : flash.Holds address.toNat (encodeItems front ++ rest))
    (reaches : endAddr.toNat = address.toNat + (encodeItems front ++ rest).length)
    (others : ∀ item ∈ front, item.type ≠ type) :
    ∃ behind : UInt32, behind.toNat = address.toNat + (encodeItems front).length ∧
      searchInfoItemLoop flash type endAddr (front.length + rounds) address =
        searchInfoItemLoop flash type endAddr rounds behind := by
  induction front generalizing address with
  | nil => exact ⟨address, by simp, by simp⟩
  | cons item front induction =>
      rw [encodeItems_cons, List.append_assoc] at held reaches
      have head : readHead flash address = ⟨item.type, UInt32.ofNat item.value.length⟩ := by
        rw [Item.encode, List.append_assoc, Memory.holds_append] at held
        exact readHead_of_holds held.1
      have next := toNat_next reaches
      have inside : address < endAddr := by
        rw [UInt32.lt_iff_toNat_lt, reaches, List.length_append, item.length_encode]
        omega
      obtain ⟨behind, behind_eq, skipped⟩ := induction
        (address + sizeofInfoItemSt + UInt32.ofNat item.value.length)
        (by rw [next]; exact (Memory.holds_append.mp held).2)
        (by rw [next, reaches, List.length_append]; omega)
        fun other member => others other (List.mem_cons_of_mem item member)
      refine ⟨behind, ?_, ?_⟩
      · rw [behind_eq, next, encodeItems_cons, List.length_append]
        omega
      · rw [List.length_cons, Nat.add_right_comm, searchInfoItemLoop, if_pos inside, head]
        simp only [ne_eq, (others item List.mem_cons_self).symm, not_false_eq_true, if_true]
        exact skipped

variable {soc : SocName} {flash : Flash} {items front back : List Item} {type : UInt32}

theorem length_le_length_encodeItems (items : List Item) :
    items.length ≤ (encodeItems items).length := by
  induction items with
  | nil => simp
  | cons item items induction =>
      rw [encodeItems_cons, List.length_append, List.length_cons, item.length_encode]
      omega

theorem Table.length_items_le (table : Table soc flash items) :
    8 + (encodeItems items).length ≤ 0x1000 := by
  have fits := table.fits
  rw [length_encodeTable] at fits
  exact fits

theorem Table.toNat_scan (table : Table soc flash items) :
    (tableStart soc + sizeofInfoItemSt).toNat = (tableStart soc).toNat + 8 ∧
      (tableStart soc + sizeofInfoItemSt + UInt32.ofNat (encodeItems items).length).toNat =
        (tableStart soc).toNat + 8 + (encodeItems items).length := by
  have bounds := tableStart_bounds soc
  have fits := table.length_items_le
  have first_eq : (tableStart soc + sizeofInfoItemSt).toNat = (tableStart soc).toNat + 8 := by
    rw [UInt32.toNat_add, show sizeofInfoItemSt.toNat = 8 from rfl]
    omega
  refine ⟨first_eq, ?_⟩
  rw [UInt32.toNat_add, first_eq, UInt32.toNat_ofNat']
  omega

theorem Table.searchInfoItemLoop_eq (table : Table soc flash (front ++ back))
    (others : ∀ item ∈ front, item.type ≠ type) :
    let first := tableStart soc + sizeofInfoItemSt
    let endAddr := first + UInt32.ofNat (encodeItems (front ++ back)).length
    ∃ rounds, ∃ behind : UInt32,
      behind.toNat = (tableStart soc).toNat + 8 + (encodeItems front).length ∧
        searchInfoItemLoop flash type endAddr (2 ^ 32 + 1) first =
          searchInfoItemLoop flash type endAddr (rounds + 1) behind := by
  intro first endAddr
  obtain ⟨first_eq, end_eq⟩ := table.toNat_scan
  have short : front.length ≤ 2 ^ 32 := by
    have fits := table.length_items_le
    have counted := length_le_length_encodeItems front
    rw [encodeItems_append, List.length_append] at fits
    omega
  have rounds_eq : 2 ^ 32 + 1 = front.length + (2 ^ 32 - front.length + 1) := by omega
  have held := holds_items_of_table table
  rw [← first_eq, encodeItems_append] at held
  have reaches : endAddr.toNat =
      first.toNat + (encodeItems front ++ encodeItems back).length := by
    rw [← encodeItems_append, first_eq]
    exact end_eq
  obtain ⟨behind, behind_eq, skipped⟩ := searchInfoItemLoop_skip flash type endAddr front
    (encodeItems back) (2 ^ 32 - front.length + 1) first held reaches others
  refine ⟨2 ^ 32 - front.length, behind, ?_, ?_⟩
  · rw [behind_eq, first_eq]
  · rw [rounds_eq]
    exact skipped

theorem Table.searchInfoItem_absent (table : Table soc flash items)
    (others : ∀ item ∈ items, item.type ≠ type) :
    searchInfoItem flash type (tableStart soc) = some 0 := by
  obtain ⟨-, end_eq⟩ := table.toNat_scan
  rw [← List.append_nil items] at table
  obtain ⟨rounds, behind, behind_eq, scanned⟩ := table.searchInfoItemLoop_eq others
  rw [List.append_nil] at table scanned
  have stops : tableStart soc + sizeofInfoItemSt + UInt32.ofNat (encodeItems items).length ≤
      behind := by
    rw [UInt32.le_iff_toNat_le, end_eq, behind_eq]
  simp only [searchInfoItem, readHead_of_table table]
  rw [scanned, searchInfoItemLoop, if_neg (UInt32.not_lt.mpr stops), Option.map_some,
    if_pos stops]

theorem Table.searchInfoItem_found (table : Table soc flash (front ++ item :: back))
    (others : ∀ other ∈ front, other.type ≠ item.type) :
    ∃ found : UInt32,
      found.toNat = (tableStart soc).toNat + 8 + (encodeItems front).length ∧
        searchInfoItem flash item.type (tableStart soc) = some found := by
  obtain ⟨-, end_eq⟩ := table.toNat_scan
  obtain ⟨rounds, behind, behind_eq, scanned⟩ := table.searchInfoItemLoop_eq others
  have inside : behind <
      tableStart soc + sizeofInfoItemSt +
        UInt32.ofNat (encodeItems (front ++ item :: back)).length := by
    rw [UInt32.lt_iff_toNat_lt, end_eq, behind_eq, encodeItems_append, encodeItems_cons,
      List.length_append, List.length_append, item.length_encode]
    omega
  obtain ⟨-, -, head_held, -, -⟩ := holds_encodeTable.mp table.held
  rw [← behind_eq] at head_held
  refine ⟨behind, behind_eq, ?_⟩
  simp only [searchInfoItem, readHead_of_table table]
  rw [scanned, searchInfoItemLoop, if_pos inside, readHead_of_holds head_held]
  simp only [ne_eq, not_true_eq_false, if_false, Option.map_some]
  rw [if_neg (UInt32.not_le.mpr inside)]

/-! ## Reading -/

def lookup (items : List Item) (type : UInt32) : Option (List UInt8) :=
  (items.find? fun item => item.type = type).map Item.value

/-- What `get_info_item` returns for an item with a given value. -/
def readBack (type : UInt32) (value : List UInt8) (pointers : Pointers) : UInt32 × Pointers :=
  match NetInfoItem.ofCode type, pointers with
  | some .ssidKey, ⟨some ptr0, some ptr1, ptr2⟩ =>
      (1, ⟨some (ptr0.store 0 (value.take 32)), some (ptr1.store 0 ((value.drop 32).take 64)), ptr2⟩)
  | some .ssidKey, pointers => (0, pointers)
  | some .ipConfig, ⟨some ptr0, some ptr1, some ptr2⟩ =>
      (1, ⟨some (ptr0.store 0 (value.take 16)), some (ptr1.store 0 ((value.drop 16).take 16)),
        some (ptr2.store 0 ((value.drop 32).take 16))⟩)
  | some .ipConfig, pointers => (0, pointers)
  | some _, ⟨some ptr0, ptr1, ptr2⟩ => (1, ⟨some (ptr0.store 0 value), ptr1, ptr2⟩)
  | some _, pointers => (0, pointers)
  | none, pointers => (0, pointers)

theorem lookup_eq_none_iff :
    lookup items type = none ↔ ∀ item ∈ items, item.type ≠ type := by
  simp [lookup]

theorem exists_split_of_lookup (found : lookup items type = some value) :
    ∃ front back, items = front ++ ⟨type, value⟩ :: back ∧ ∀ item ∈ front, item.type ≠ type := by
  obtain ⟨item, item_found, rfl⟩ := Option.map_eq_some_iff.mp found
  obtain ⟨matches_type, front, back, rfl, others⟩ := List.find?_eq_some_iff_append.mp item_found
  obtain rfl : item.type = type := by simpa using matches_type
  exact ⟨front, back, rfl, by simpa using others⟩

theorem searchInfoTbl_of_table (table : Table soc flash items) (buf : Option (Memory UInt8)) :
    searchInfoTbl soc flash buf =
      (true, UInt32.ofNat (encodeItems items).length + sizeofInfoItemSt,
        buf.map fun buf => flash.ddevRead buf
          (UInt32.ofNat (encodeItems items).length + sizeofInfoItemSt) (tableStart soc)) := by
  simp [searchInfoTbl, readHead_of_table table]

theorem ddevRead_value (held : flash.Holds place.toNat value) (buffer : Memory UInt8)
    {count offset : UInt32} (inside : offset.toNat + count.toNat ≤ value.length)
    (small : place.toNat + value.length < 2 ^ 32) :
    flash.ddevRead buffer count (place + offset) =
      buffer.store 0 ((value.drop offset.toNat).take count.toNat) := by
  have place_eq : (place + offset).toNat = place.toNat + offset.toNat := by
    rw [UInt32.toNat_add]
    omega
  rw [ddevRead, place_eq, held.load_slice inside]

theorem length_value_of_sized (sized : item.encode.length = (infoItemLen item.type).toNat) :
    (NetInfoItem.ofCode item.type = some .ssidKey → item.value.length = 96) ∧
      (NetInfoItem.ofCode item.type = some .ipConfig → item.value.length = 48) := by
  rw [item.length_encode] at sized
  constructor
  · intro known
    have length : (infoItemLen item.type).toNat = 104 := by
      rw [infoItemLen, known]
      rfl
    omega
  · intro known
    have length : (infoItemLen item.type).toNat = 56 := by
      rw [infoItemLen, known]
      rfl
    omega

/-- The copies of `get_info_item`, made where a value is held. -/
theorem readValue_eq_readBack (held : flash.Holds place.toNat value)
    (small : place.toNat + value.length < 2 ^ 32)
    (lengths : (NetInfoItem.ofCode type = some .ssidKey → value.length = 96) ∧
      (NetInfoItem.ofCode type = some .ipConfig → value.length = 48)) (pointers : Pointers) :
    readValue flash type (UInt32.ofNat value.length) place pointers =
      readBack type value pointers := by
  have whole : ∀ buffer, flash.ddevRead buffer (UInt32.ofNat value.length) place =
      buffer.store 0 value := by
    intro buffer
    have count_eq : (UInt32.ofNat value.length).toNat = value.length := by
      rw [UInt32.toNat_ofNat']
      omega
    rw [ddevRead, count_eq]
    exact congrArg (buffer.store 0) held
  have part : ∀ buffer (count offset : UInt32), offset.toNat + count.toNat ≤ value.length →
      flash.ddevRead buffer count (place + offset) =
        buffer.store 0 ((value.drop offset.toNat).take count.toNat) :=
    fun buffer _ _ inside => ddevRead_value held buffer inside small
  have start : ∀ buffer (count : UInt32), count.toNat ≤ value.length →
      flash.ddevRead buffer count place = buffer.store 0 (value.take count.toNat) := by
    intro buffer count inside
    have read := part buffer count 0 (by simpa using inside)
    simpa using read
  rcases known : NetInfoItem.ofCode type with _ | item
  · simp only [readValue, readBack, known]
  · cases item
    case ssidKey =>
      have length := lengths.1 known
      rcases pointers with ⟨_ | ptr0, _ | ptr1, ptr2⟩ <;> simp only [readValue, readBack, known]
      rw [start _ 32 (by rw [length]; decide), part _ 64 32 (by rw [length]; decide)]
      rfl
    case ipConfig =>
      have length := lengths.2 known
      rcases pointers with ⟨_ | ptr0, _ | ptr1, _ | ptr2⟩ <;>
        simp only [readValue, readBack, known]
      rw [UInt32.add_assoc, start _ 16 (by rw [length]; decide),
        part _ 16 16 (by rw [length]; decide), part _ 16 (16 + 16) (by rw [length]; decide)]
      rfl
    all_goals
      rcases pointers with ⟨_ | ptr0, ptr1, ptr2⟩ <;>
        simp only [readValue, readBack, known, whole]

theorem Table.getInfoItem_found (table : Table soc flash items)
    (found : lookup items type = some value) (pointers : Pointers) :
    getInfoItem soc flash type pointers = some (readBack type value pointers) := by
  obtain ⟨front, back, rfl, others⟩ := exists_split_of_lookup found
  obtain ⟨place, place_eq, scanned⟩ := table.searchInfoItem_found others
  have bounds := tableStart_bounds soc
  have fits := table.length_items_le
  rw [encodeItems_append, encodeItems_cons, List.length_append, List.length_append,
    Item.length_encode] at fits
  obtain ⟨-, -, head_held, value_held, -⟩ := holds_encodeTable.mp table.held
  rw [← place_eq] at head_held value_held
  have head := readHead_of_holds head_held
  have behind_eq : (place + sizeofInfoItemSt).toNat = place.toNat + 8 := by
    rw [UInt32.toNat_add, show sizeofInfoItemSt.toNat = 8 from rfl]
    omega
  rw [← behind_eq] at value_held
  have small : (place + sizeofInfoItemSt).toNat + value.length < 2 ^ 32 := by
    simp only at fits
    omega
  have nonzero : place ≠ 0 := by
    rintro rfl
    simp only [UInt32.toNat_zero] at place_eq
    omega
  have lengths := length_value_of_sized (table.sized ⟨type, value⟩ (by simp))
  simp only [getInfoItem, searchInfoTbl_of_table table, scanned, if_true, Option.map_some,
    if_neg nonzero, head, Option.some.injEq]
  exact readValue_eq_readBack value_held small lengths pointers

theorem Table.getInfoItem_absent (table : Table soc flash items)
    (absent : lookup items type = none) (pointers : Pointers) :
    getInfoItem soc flash type pointers = some (0, pointers) := by
  have scanned := table.searchInfoItem_absent (lookup_eq_none_iff.mp absent)
  simp [getInfoItem, searchInfoTbl_of_table table, scanned]

end BdkFreertos.NetParam
