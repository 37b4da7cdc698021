import BdkFreertos.NetParamTable

/-!
# Saving an item updates the map

Each of the three ways of saving an item fills in the image of the old table with the new item
between the items before it and the items behind it, so the flash ends up with the encoding of the
list in which that one item is replaced or appended.
-/

namespace BdkFreertos.NetParam

open Flash

variable {soc : SocName} {flash : Flash} {items front back : List Item} {type : UInt32}
  {call : SaveCall}

/-! ## The image of the new table -/

/-- The bytes a call copies from the caller's buffers. -/
def savedBytes (soc : SocName) (call : SaveCall) : List UInt8 :=
  match NetInfoItem.ofCode call.item with
  | some .wifiMac => call.ptr0.load 0 6
  | some .ssidKey => call.ptr0.load 0 32 ++ call.ptr1.load 0 64
  | some .ipConfig => (call.ptr0.load 0 16 ++ call.ptr1.load 0 16) ++ call.ptr2.load 0 16
  | some .chargeConfig => call.ptr0.load 0 (chargeBytes soc).toNat
  | _ => call.ptr0.load 0 4

theorem copyValue_eq_store (soc : SocName) (call : SaveCall) (image : Memory UInt8)
    (itemBuf : ℕ) :
    copyValue soc call image itemBuf = image.store itemBuf (savedBytes soc call) := by
  have adjacent : ∀ (front back : List UInt8) (size : ℕ), front.length = size →
      (image.store itemBuf front).store (itemBuf + size) back =
        image.store itemBuf (front ++ back) := by
    rintro front back size rfl
    exact image.store_store_adjacent itemBuf front back
  rcases known : NetInfoItem.ofCode call.item with _ | item
  · simp [copyValue, savedBytes, known]
  · cases item
    case ssidKey =>
      simp only [copyValue, savedBytes, known]
      rw [adjacent _ _ 32 (by simp)]
    case ipConfig =>
      simp only [copyValue, savedBytes, known]
      rw [adjacent _ _ 16 (by simp), adjacent _ _ 32 (by simp)]
    all_goals simp only [copyValue, savedBytes, known]

theorem infoItemLen_bounds (soc : SocName) (call : SaveCall) :
    8 + (savedBytes soc call).length ≤ (infoItemLen call.item).toNat ∧
      (infoItemLen call.item).toNat ≤ 104 := by
  have charge : (chargeBytes soc).toNat ≤ 4 := by
    cases soc <;> decide
  rcases known : NetInfoItem.ofCode call.item with _ | item
  · simp [savedBytes, infoItemLen, known, sizeofInfoItemSt]
  · cases item <;> simp [savedBytes, infoItemLen, known, sizeofInfoItemSt]
    omega

variable {placement : Placement} {value : List UInt8}

/-- A filled-in image holds the table with the new item between the items before it and the items
behind it. -/
theorem fillImage_holds (soc : SocName)
    (place_eq : placement.addrOffset.toNat = 8 + (encodeItems front).length)
    (headLen_eq : placement.headLen = UInt32.ofNat
      ((encodeItems front).length + (infoItemLen call.item).toNat + (encodeItems back).length))
    (front_held : placement.wrbuf.Holds 8 (encodeItems front)) (back_held : placement.wrbuf.Holds
      (8 + (encodeItems front).length + (infoItemLen call.item).toNat) (encodeItems back)) :
    ∃ value, savedBytes soc call <+: value ∧
      8 + value.length = (infoItemLen call.item).toNat ∧
      (fillImage soc call placement).Holds 0
        (encodeTable (front ++ ⟨call.item, value⟩ :: back)) := by
  obtain ⟨saved_le, small⟩ := infoItemLen_bounds soc call
  let place := 8 + (encodeItems front).length
  let copied := placement.wrbuf.store (place + 8) (savedBytes soc call)
  let value := copied.load (place + 8) ((infoItemLen call.item).toNat - 8)
  have value_length : value.length = (infoItemLen call.item).toNat - 8 := copied.length_load _ _
  have len_eq : infoItemLen call.item - sizeofInfoItemSt = UInt32.ofNat value.length := by
    apply UInt32.toNat_inj.mp
    have eight : sizeofInfoItemSt.toNat = 8 := rfl
    have bounded : sizeofInfoItemSt ≤ infoItemLen call.item := by
      rw [UInt32.le_iff_toNat_le, eight]
      omega
    rw [UInt32.toNat_sub_of_le _ _ bounded, UInt32.toNat_ofNat', value_length, eight]
    omega
  have image_eq : fillImage soc call placement =
      (copied.store place (wordBytes call.item ++ wordBytes (UInt32.ofNat value.length))).store 0
        (wordBytes infoTlvHeader ++ wordBytes placement.headLen) := by
    rw [← Memory.store_store_adjacent copied]
    simp only [fillImage, place_eq, len_eq, copyValue_eq_store]
    rfl
  -- The header of the item and the header of the table do not touch any other run.
  have untouched : ∀ {start : ℕ} {cells : List UInt8}, copied.Holds start cells → 8 ≤ start →
      start + cells.length ≤ place ∨ place + 8 ≤ start →
        (fillImage soc call placement).Holds start cells := by
    intro start cells held behind_head apart
    rw [image_eq]
    exact (held.store_of_disjoint (by simpa using apart)).store_of_disjoint
      (Or.inr (by simpa using behind_head))
  refine ⟨value, ?_, by omega, ?_⟩
  · refine List.prefix_iff_eq_take.mpr ?_
    rw [copied.take_load (by omega)]
    exact (Memory.load_store_self _ _ _).symm
  · have total : (encodeItems (front ++ ⟨call.item, value⟩ :: back)).length =
        (encodeItems front).length + (infoItemLen call.item).toNat +
          (encodeItems back).length := by
      rw [encodeItems_append, encodeItems_cons, List.length_append, List.length_append,
        Item.length_encode]
      simp only
      omega
    rw [holds_encodeTable, total, ← headLen_eq, Nat.zero_add]
    refine ⟨?_, ?_, ?_, ?_, ?_⟩
    · rw [image_eq]
      exact Memory.holds_store _ 0 _
    · refine untouched (front_held.store_of_disjoint (Or.inl ?_)) (Nat.le_refl 8) (Or.inl ?_)
      · omega
      · exact Nat.le_refl place
    · rw [image_eq]
      refine (Memory.holds_store _ place _).store_of_disjoint (Or.inr ?_)
      simp [place]
    · exact untouched (copied.holds_load (place + 8) _) (by omega) (Or.inr (Nat.le_refl _))
    · have tail_eq : 8 + (encodeItems front).length + 8 + value.length =
          8 + (encodeItems front).length + (infoItemLen call.item).toNat := by omega
      rw [tail_eq]
      refine untouched (back_held.store_of_disjoint (Or.inr ?_)) (by omega) (Or.inr ?_)
      · omega
      · omega

/-! ## The three ways of saving -/

/-- The layout of a placement: the items before the place of the new item and those behind it. -/
structure Placement.Splits (placement : Placement) (item : UInt32) (front back : List Item) :
    Prop where
  place_eq : placement.addrOffset.toNat = 8 + (encodeItems front).length
  headLen_eq : placement.headLen = UInt32.ofNat
    ((encodeItems front).length + (infoItemLen item).toNat + (encodeItems back).length)
  cfgTblLen_eq : placement.cfgTblLen.toNat =
    8 + ((encodeItems front).length + (infoItemLen item).toNat + (encodeItems back).length)
  front_held : placement.wrbuf.Holds 8 (encodeItems front)
  back_held : placement.wrbuf.Holds
    (8 + (encodeItems front).length + (infoItemLen item).toNat) (encodeItems back)

/-- Saving at a place writes the table with the new item there. -/
theorem saveInfoItem_of_splits (placed : placeItem soc flash call.item = some placement)
    (splits : placement.Splits call.item front back) :
    ∃ value after, savedBytes soc call <+: value ∧
      8 + value.length = (infoItemLen call.item).toNat ∧
      saveInfoItem soc true flash call = some (after, 1) ∧
      after.Holds (tableStart soc).toNat (encodeTable (front ++ ⟨call.item, value⟩ :: back)) := by
  obtain ⟨value, saved, length, held⟩ := fillImage_holds soc splits.place_eq
    splits.headLen_eq splits.front_held splits.back_held
  have total : (encodeTable (front ++ ⟨call.item, value⟩ :: back)).length =
      placement.cfgTblLen.toNat := by
    rw [splits.cfgTblLen_eq, length_encodeTable, encodeItems_append, encodeItems_cons,
      List.length_append, List.length_append, Item.length_encode, length, Nat.add_assoc]
  let erased := flash.bkFlashErase (netParamPartition soc) 0 placement.cfgTblLen
  have written : erased.bkFlashWrite (netParamPartition soc) 0 (fillImage soc call placement)
      placement.cfgTblLen = erased.store (tableStart soc).toNat
        (encodeTable (front ++ ⟨call.item, value⟩ :: back)) := by
    rw [bkFlashWrite, UInt32.add_zero, ← total]
    exact congrArg (erased.store (tableStart soc).toNat) held
  refine ⟨value, erased.store (tableStart soc).toNat _, saved, length, ?_,
    Memory.holds_store _ _ _⟩
  simp only [saveInfoItem, placed, Option.map_some, if_true]
  rw [← written]

theorem placeItem_blank (blank : (readHead flash (tableStart soc)).type ≠ infoTlvHeader)
    (call : SaveCall) :
    ∃ placement, placeItem soc flash call.item = some placement ∧
      placement.Splits call.item [] [] := by
  obtain ⟨-, small⟩ := infoItemLen_bounds soc call
  have missing : searchInfoTbl soc flash none = (false, 0, none) := by
    simp [searchInfoTbl, if_neg blank]
  refine ⟨_, by simp only [placeItem, missing]; rfl, ?_⟩
  constructor
  · rfl
  · simp
  · rw [UInt32.toNat_add, show sizeofInfoItemSt.toNat = 8 from rfl, encodeItems_nil,
      List.length_nil]
    omega
  · exact Memory.holds_nil _ _
  · exact Memory.holds_nil _ _

theorem Table.toNat_cfgTblLen (table : Table soc flash items) :
    (UInt32.ofNat (encodeItems items).length + sizeofInfoItemSt).toNat =
      8 + (encodeItems items).length := by
  have fits := table.length_items_le
  rw [UInt32.toNat_add, UInt32.toNat_ofNat', show sizeofInfoItemSt.toNat = 8 from rfl]
  omega

theorem Table.image_holds (table : Table soc flash items) :
    ((searchInfoTbl soc flash (some osZalloc)).2.2.getD osZalloc).Holds 0 (encodeTable items) := by
  rw [searchInfoTbl_of_table table]
  simp only [Option.map_some, Option.getD_some, ddevRead]
  have read : flash.load (tableStart soc).toNat
      (UInt32.ofNat (encodeItems items).length + sizeofInfoItemSt).toNat = encodeTable items := by
    rw [table.toNat_cfgTblLen, ← length_encodeTable]
    exact table.held
  rw [read]
  exact Memory.holds_store _ _ _

theorem sub_sizeofInfoItemSt {length : UInt32} {rest : ℕ} (length_eq : length.toNat = 8 + rest) :
    length - sizeofInfoItemSt = UInt32.ofNat rest := by
  have eight : sizeofInfoItemSt.toNat = 8 := rfl
  have bound := length.toNat_lt
  apply UInt32.toNat_inj.mp
  rw [UInt32.toNat_sub_of_le _ _ (by rw [UInt32.le_iff_toNat_le]; omega), UInt32.toNat_ofNat']
  omega

theorem Table.placeItem_absent (table : Table soc flash items) {item : UInt32}
    (absent : lookup items item = none)
    (room : 8 + (encodeItems items).length + (infoItemLen item).toNat ≤ 0x1000) :
    ∃ placement, placeItem soc flash item = some placement ∧ placement.Splits item items [] := by
  have scanned := table.searchInfoItem_absent (lookup_eq_none_iff.mp absent)
  have length_eq := table.toNat_cfgTblLen
  have longer_eq : (UInt32.ofNat (encodeItems items).length + sizeofInfoItemSt +
      infoItemLen item).toNat =
        8 + ((encodeItems items).length + (infoItemLen item).toNat + (encodeItems []).length) := by
    rw [UInt32.toNat_add, length_eq, encodeItems_nil, List.length_nil]
    omega
  refine ⟨_, by simp only [placeItem, searchInfoTbl_of_table table, scanned]; rfl, ?_⟩
  constructor
  · exact length_eq
  · exact sub_sizeofInfoItemSt longer_eq
  · exact longer_eq
  · have image := table.image_holds
    rw [searchInfoTbl_of_table table] at image
    exact (Memory.holds_append.mp image).2
  · exact Memory.holds_nil _ _

theorem Table.placeItem_found {item : Item} (table : Table soc flash (front ++ item :: back))
    (others : ∀ other ∈ front, other.type ≠ item.type) :
    ∃ placement, placeItem soc flash item.type = some placement ∧
      placement.Splits item.type front back := by
  obtain ⟨place, place_eq, scanned⟩ := table.searchInfoItem_found others
  have bounds := tableStart_bounds soc
  have nonzero : place ≠ 0 := by
    rintro rfl
    simp only [UInt32.toNat_zero] at place_eq
    omega
  have sized : 8 + item.value.length = (infoItemLen item.type).toNat := by
    rw [← item.length_encode]
    exact table.sized item (by simp)
  have length_eq : (UInt32.ofNat (encodeItems (front ++ item :: back)).length +
      sizeofInfoItemSt).toNat = 8 + ((encodeItems front).length + (infoItemLen item.type).toNat +
        (encodeItems back).length) := by
    rw [table.toNat_cfgTblLen, encodeItems_append, encodeItems_cons, List.length_append,
      List.length_append, item.length_encode, sized, Nat.add_assoc]
  obtain ⟨-, front_held, -, -, back_held⟩ := holds_encodeTable.mp table.image_holds
  let placement : Placement :=
    { addrOffset := place - tableStart soc
      cfgTblLen := UInt32.ofNat (encodeItems (front ++ item :: back)).length + sizeofInfoItemSt
      headLen := UInt32.ofNat (encodeItems (front ++ item :: back)).length + sizeofInfoItemSt -
        sizeofInfoItemSt
      wrbuf := (searchInfoTbl soc flash (some osZalloc)).2.2.getD osZalloc }
  have placed : placeItem soc flash item.type = some placement := by
    simp [placeItem, searchInfoTbl_of_table table, scanned, if_neg nonzero, placement]
  refine ⟨placement, placed, ?_⟩
  constructor
  · have behind_start : tableStart soc ≤ place := by
      rw [UInt32.le_iff_toNat_le]
      omega
    rw [UInt32.toNat_sub_of_le _ _ behind_start, place_eq]
    omega
  · exact sub_sizeofInfoItemSt length_eq
  · exact length_eq
  · exact front_held
  · rw [Nat.add_assoc, sized, Nat.zero_add] at back_held
    exact back_held

/-! ## One call -/

theorem lookup_cons (item : Item) (items : List Item) (type : UInt32) :
    lookup (item :: items) type =
      if type = item.type then some item.value else lookup items type := by
  by_cases same : type = item.type
  · simp [lookup, same]
  · simp [lookup, same, Ne.symm same]

theorem lookup_append (front back : List Item) (type : UInt32) :
    lookup (front ++ back) type = (lookup front type).or (lookup back type) := by
  simp only [lookup, List.find?_append]
  cases front.find? fun item => item.type = type <;> rfl

theorem lookup_insert (others : ∀ item ∈ front, item.type ≠ type) (wanted : UInt32) :
    lookup (front ++ ⟨type, value⟩ :: back) wanted =
      if wanted = type then some value else lookup (front ++ back) wanted := by
  rw [lookup_append, lookup_append, lookup_cons]
  split
  · rename_i same
    rw [same, lookup_eq_none_iff.mpr others, Option.none_or]
  · rfl

/-- The flash represents a list of items, the empty one while there is no table. -/
inductive Represents (soc : SocName) (flash : Flash) : List Item → Prop
  | blank (missing : (readHead flash (tableStart soc)).type ≠ infoTlvHeader) :
      Represents soc flash []
  | present {items : List Item} (table : Table soc flash items) : Represents soc flash items

theorem Represents.getInfoItem_eq (represents : Represents soc flash items) (type : UInt32)
    (pointers : Pointers) :
    getInfoItem soc flash type pointers = some
      (match lookup items type with
        | none => (0, pointers)
        | some value => readBack type value pointers) := by
  cases represents with
  | blank missing => simp [getInfoItem, searchInfoTbl, missing, lookup]
  | present table =>
      rcases found : lookup items type with _ | value
      · exact table.getInfoItem_absent found pointers
      · exact table.getInfoItem_found found pointers

theorem Table.of_written {after : Flash}
    (held : after.Holds (tableStart soc).toNat (encodeTable (front ++ ⟨type, value⟩ :: back)))
    (length : 8 + value.length = (infoItemLen type).toNat)
    (room : 8 + ((encodeItems front).length + (infoItemLen type).toNat +
      (encodeItems back).length) ≤ 0x1000)
    (distinct : (front.map Item.type ++ type :: back.map Item.type).Nodup)
    (front_sized : ∀ item ∈ front, item.encode.length = (infoItemLen item.type).toNat)
    (back_sized : ∀ item ∈ back, item.encode.length = (infoItemLen item.type).toNat) :
    Table soc after (front ++ ⟨type, value⟩ :: back) := by
  refine ⟨held, ?_, by simpa using distinct, ?_⟩
  · rw [length_encodeTable, encodeItems_append, encodeItems_cons, List.length_append,
      List.length_append, Item.length_encode, length, ← Nat.add_assoc (encodeItems front).length]
    exact room
  · intro item member
    rcases List.mem_append.mp member with before | behind
    · exact front_sized item before
    · rcases List.mem_cons.mp behind with rfl | behind
      · rw [Item.length_encode, length]
      · exact back_sized item behind

/-- What one call does to the items the flash represents. -/
theorem Represents.saveInfoItem (represents : Represents soc flash items) (call : SaveCall)
    (room : lookup items call.item = none →
      8 + (encodeItems items).length + (infoItemLen call.item).toNat ≤ 0x1000) :
    ∃ value after newItems, savedBytes soc call <+: value ∧
      NetParam.saveInfoItem soc true flash call = some (after, 1) ∧ Table soc after newItems ∧
      ∀ wanted, lookup newItems wanted =
        if wanted = call.item then some value else lookup items wanted := by
  cases represents with
  | blank missing =>
      obtain ⟨placement, placed, splits⟩ := placeItem_blank missing call
      obtain ⟨value, after, saved, length, returned, held⟩ := saveInfoItem_of_splits placed splits
      have room := room rfl
      refine ⟨value, after, [] ++ ⟨call.item, value⟩ :: [], saved, returned, ?_, ?_⟩
      · exact Table.of_written held length (by simpa using room) (by simp) (by simp) (by simp)
      · exact lookup_insert (by simp)
  | present table =>
      rcases found : lookup items call.item with _ | old
      · obtain ⟨placement, placed, splits⟩ := table.placeItem_absent found (room found)
        obtain ⟨value, after, saved, length, returned, held⟩ := saveInfoItem_of_splits placed splits
        have others := lookup_eq_none_iff.mp found
        have room := room found
        refine ⟨value, after, items ++ ⟨call.item, value⟩ :: [], saved, returned, ?_, ?_⟩
        · refine Table.of_written held length (by simpa [Nat.add_assoc] using room) ?_
            table.sized (by simp)
          rw [List.map_nil, List.nodup_append]
          refine ⟨table.distinct, by simp, ?_⟩
          intro left left_member right right_member same
          obtain ⟨item, member, rfl⟩ := List.mem_map.mp left_member
          exact others item member (same.trans (List.mem_singleton.mp right_member))
        · intro wanted
          rw [lookup_insert others, List.append_nil]
      · obtain ⟨front, back, rfl, others⟩ := exists_split_of_lookup found
        obtain ⟨placement, placed, splits⟩ := table.placeItem_found others
        obtain ⟨value, after, saved, length, returned, held⟩ := saveInfoItem_of_splits placed splits
        have fits := table.length_items_le
        have sized := table.sized ⟨call.item, old⟩ (by simp)
        refine ⟨value, after, front ++ ⟨call.item, value⟩ :: back, saved, returned, ?_, ?_⟩
        · refine Table.of_written held length ?_ (by simpa using table.distinct)
            (fun item member => table.sized item (by simp [member]))
            fun item member => table.sized item (by simp [member])
          rw [encodeItems_append, encodeItems_cons, List.length_append, List.length_append,
            sized] at fits
          rw [Nat.add_assoc (encodeItems front).length]
          exact fits
        · intro wanted
          rw [lookup_insert others, lookup_insert others]
          split
          · rfl
          · rfl

end BdkFreertos.NetParam
