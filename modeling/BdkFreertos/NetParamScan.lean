import BdkFreertos.FuelLoop
import BdkFreertos.NetParamHistory

/-!
# Scanning a damaged network-parameter table

`search_info_item` steps from one item to the next by the lengths it reads, in 32-bit arithmetic and
without a check.  Which flash it reads and whether it ends is decided by where the lengths lead.
-/

namespace BdkFreertos.NetParam

open Flash FuelLoop

/-! ## The items the lengths lead to -/

/-- The first item of the table that starts at `startAddr`. -/
def firstItem (startAddr : UInt32) : UInt32 := startAddr + sizeofInfoItemSt

/-- The end of the table, as `search_info_item` computes it. -/
def tableEnd (flash : Flash) (startAddr : UInt32) : UInt32 :=
  firstItem startAddr + (readHead flash startAddr).len

def nextItem (flash : Flash) (addr : UInt32) : UInt32 :=
  addr + sizeofInfoItemSt + (readHead flash addr).len

/-- The header at an address lies within the length that the table's header declares. -/
def HeaderInside (flash : Flash) (startAddr addr : UInt32) : Prop :=
  startAddr.toNat ≤ addr.toNat ∧
    addr.toNat + 8 ≤ startAddr.toNat + (8 + (readHead flash startAddr).len.toNat)

/-- The stored lengths lead from an address through the table, over items whose headers lie inside
it, to its end or to an item of the type looked for. -/
inductive LengthsLead (flash : Flash) (type startAddr : UInt32) : UInt32 → Prop
  | ended {addr : UInt32} (behind : tableEnd flash startAddr ≤ addr) :
      LengthsLead flash type startAddr addr
  | found {addr : UInt32} (inside : HeaderInside flash startAddr addr)
      (type_eq : (readHead flash addr).type = type) : LengthsLead flash type startAddr addr
  | passed {addr : UInt32} (inside : HeaderInside flash startAddr addr)
      (leads : LengthsLead flash type startAddr (nextItem flash addr)) :
      LengthsLead flash type startAddr addr

/-! ## What the scan reads -/

/-- The item headers that the loop of `search_info_item` reads. -/
def scanReads (flash : Flash) (type endAddr : UInt32) : ℕ → UInt32 → List UInt32
  | 0, _ => []
  | rounds + 1, addr =>
      if addr < endAddr then
        addr :: if type ≠ (readHead flash addr).type then
          scanReads flash type endAddr rounds (addr + sizeofInfoItemSt + (readHead flash addr).len)
        else
          []
      else
        []

/-- The scan for a type ends, and of every header it reads, the table's own among them, all eight
bytes lie within the length that the table's header declares. -/
structure ScanContained (flash : Flash) (type startAddr : UInt32) : Prop where
  ends : ∃ addr, searchInfoItem flash type startAddr = some addr
  inside : ∀ rounds, ∀ addr ∈ startAddr ::
      scanReads flash type (tableEnd flash startAddr) rounds (firstItem startAddr),
    HeaderInside flash startAddr addr

/-! ## The scan as a loop -/

/-- The scan does not pass this address: it is at the end or the item has the type looked for. -/
def stopsAt (flash : Flash) (type endAddr addr : UInt32) : Bool :=
  !(decide (addr < endAddr) && type != (readHead flash addr).type)

variable {endAddr addr : UInt32} {items : List Item}

theorem stopsAt_eq_false_iff {flash : Flash} {type : UInt32} :
    stopsAt flash type endAddr addr = false ↔
      addr < endAddr ∧ type ≠ (readHead flash addr).type := by
  simp [stopsAt]

theorem searchInfoItemLoop_succ (flash : Flash) (type endAddr : UInt32) (rounds : ℕ)
    (addr : UInt32) :
    searchInfoItemLoop flash type endAddr (rounds + 1) addr =
      loop (stopsAt flash type endAddr) (nextItem flash) rounds addr := by
  induction rounds generalizing addr with
  | zero =>
      by_cases inside : addr < endAddr <;>
        by_cases other : type = (readHead flash addr).type <;>
          simp [searchInfoItemLoop, loop, stopsAt, inside, other]
  | succ rounds induction =>
      rw [searchInfoItemLoop, loop]
      by_cases inside : addr < endAddr
      · by_cases other : type = (readHead flash addr).type
        · simp [stopsAt, inside, other]
        · simp only [inside, if_true, ne_eq, other, not_false_eq_true, stopsAt_eq_false_iff.mpr
            ⟨inside, other⟩, Bool.false_eq_true, if_false]
          exact induction _
      · simp [stopsAt, inside]

variable {flash : Flash} {type startAddr : UInt32}

theorem searchInfoItem_eq_some_iff_endsAfter :
    (∃ addr, searchInfoItem flash type startAddr = some addr) ↔
      ∃ rounds, EndsAfter (stopsAt flash type (tableEnd flash startAddr)) (nextItem flash)
        (firstItem startAddr) rounds := by
  constructor
  · rintro ⟨addr, found⟩
    obtain ⟨stopped, scanned, -⟩ := Option.map_eq_some_iff.mp found
    rw [searchInfoItemLoop_succ] at scanned
    obtain ⟨rounds, -, ends⟩ := exists_endsAfter scanned
    exact ⟨rounds, ends⟩
  · rintro ⟨rounds, ends⟩
    have enough : rounds < 2 ^ 32 :=
      ends.lt_of_injective UInt32.toFin fun _ _ => UInt32.toFin_inj.mp
    have scanned := ends.loop_eq (Nat.le_of_lt enough)
    rw [← searchInfoItemLoop_succ] at scanned
    exact ⟨_, Option.map_eq_some_iff.mpr ⟨_, scanned, rfl⟩⟩

/-! ## Containment -/

theorem scanReads_succ_of_lt (inside : addr < endAddr) (rounds : ℕ) :
    scanReads flash type endAddr (rounds + 1) addr =
      addr :: if type ≠ (readHead flash addr).type then
        scanReads flash type endAddr rounds (nextItem flash addr)
      else [] :=
  if_pos inside

theorem mem_scanReads {read : UInt32} {rounds : ℕ}
    (member : read ∈ scanReads flash type endAddr rounds addr) :
    addr < endAddr ∧ (read = addr ∨ type ≠ (readHead flash addr).type ∧
      ∃ earlier, read ∈ scanReads flash type endAddr earlier (nextItem flash addr)) := by
  cases rounds with
  | zero => exact absurd member List.not_mem_nil
  | succ rounds =>
      by_cases inside : addr < endAddr
      · rw [scanReads_succ_of_lt inside, List.mem_cons] at member
        refine ⟨inside, member.imp_right fun later => ?_⟩
        split at later
        · rename_i other
          exact ⟨other, rounds, later⟩
        · exact absurd later List.not_mem_nil
      · rw [scanReads, if_neg inside] at member
        exact absurd member List.not_mem_nil

/-- Where the lengths lead through the table, the scan ends and reads headers inside it only. -/
theorem LengthsLead.contained (leads : LengthsLead flash type startAddr addr) :
    (∃ rounds, EndsAfter (stopsAt flash type (tableEnd flash startAddr)) (nextItem flash) addr
        rounds) ∧
      ∀ rounds, ∀ read ∈ scanReads flash type (tableEnd flash startAddr) rounds addr,
        HeaderInside flash startAddr read := by
  have of_stop {addr : UInt32} (stops : stopsAt flash type (tableEnd flash startAddr) addr = true) :
      ∃ rounds, EndsAfter (stopsAt flash type (tableEnd flash startAddr)) (nextItem flash) addr
        rounds :=
    ⟨0, stops, fun _ before => absurd before (Nat.not_lt_zero _)⟩
  induction leads with
  | @ended addr behind =>
      refine ⟨of_stop (by simp [stopsAt, UInt32.not_lt.mpr behind]), fun rounds read member => ?_⟩
      exact absurd (mem_scanReads member).1 (UInt32.not_lt.mpr behind)
  | @found addr inside type_eq =>
      refine ⟨of_stop (by simp [stopsAt, type_eq]), fun rounds read member => ?_⟩
      obtain ⟨-, rfl | ⟨other, -⟩⟩ := mem_scanReads member
      · exact inside
      · exact absurd type_eq.symm other
  | @passed addr inside _ ih =>
      refine ⟨?_, fun rounds read member => ?_⟩
      · cases stops : stopsAt flash type (tableEnd flash startAddr) addr with
        | true => exact of_stop stops
        | false =>
            obtain ⟨rounds, later⟩ := ih.1
            exact ⟨rounds + 1, later.of_body stops⟩
      · obtain ⟨-, rfl | ⟨-, earlier, later⟩⟩ := mem_scanReads member
        · exact inside
        · exact ih.2 earlier read later

/-- A scan that ends and reads headers inside the table only follows lengths that lead through
it. -/
theorem lengthsLead_of_endsAfter {rounds : ℕ}
    (ends : EndsAfter (stopsAt flash type (tableEnd flash startAddr)) (nextItem flash) addr rounds)
    (inside : ∀ rounds, ∀ read ∈ scanReads flash type (tableEnd flash startAddr) rounds addr,
      HeaderInside flash startAddr read) : LengthsLead flash type startAddr addr := by
  induction rounds generalizing addr with
  | zero =>
      by_cases before_end : addr < tableEnd flash startAddr
      · have first := inside 1 addr
        rw [scanReads_succ_of_lt before_end] at first
        have stops : stopsAt flash type (tableEnd flash startAddr) addr = true := ends.ends
        refine .found (first List.mem_cons_self) ?_
        by_contra other
        rw [stopsAt_eq_false_iff.mpr ⟨before_end, Ne.symm other⟩] at stops
        exact absurd stops Bool.false_ne_true
      · exact .ended (UInt32.not_lt.mp before_end)
  | succ rounds ih =>
      have goesOn : stopsAt flash type (tableEnd flash startAddr) addr = false :=
        ends.first 0 (Nat.succ_pos rounds)
      obtain ⟨before_end, other⟩ := stopsAt_eq_false_iff.mp goesOn
      have reads (rounds : ℕ) : scanReads flash type (tableEnd flash startAddr) (rounds + 1) addr =
          addr :: scanReads flash type (tableEnd flash startAddr) rounds (nextItem flash addr) := by
        rw [scanReads_succ_of_lt before_end, if_pos other]
      refine .passed (inside 1 addr ?_) (ih ⟨ends.ends, ?_⟩ fun rounds read member => ?_)
      · rw [reads]
        exact List.mem_cons_self
      · exact fun earlier before => ends.first (earlier + 1) (Nat.succ_lt_succ before)
      · refine inside (rounds + 1) read ?_
        rw [reads]
        exact List.mem_cons_of_mem addr member

theorem scanContained_iff :
    ScanContained flash type startAddr ↔
      LengthsLead flash type startAddr (firstItem startAddr) := by
  constructor
  · rintro ⟨ends, inside⟩
    obtain ⟨rounds, ends⟩ := searchInfoItem_eq_some_iff_endsAfter.mp ends
    exact lengthsLead_of_endsAfter ends fun rounds read member =>
      inside rounds read (List.mem_cons_of_mem _ member)
  · intro leads
    obtain ⟨ends, inside⟩ := leads.contained
    refine ⟨searchInfoItem_eq_some_iff_endsAfter.mpr ends, fun rounds addr member => ?_⟩
    rcases List.mem_cons.mp member with rfl | read
    · exact ⟨Nat.le_refl _, by omega⟩
    · exact inside rounds addr read

/-- The scan of the partition's table ends and stays within the table's declared length exactly if
the lengths lead from the first item through the table. -/
theorem scanContained_iff_lengthsLead (soc : SocName) (flash : Flash) (type : UInt32) :
    ScanContained flash type (tableStart soc) ↔
      LengthsLead flash type (tableStart soc) (firstItem (tableStart soc)) :=
  scanContained_iff

/-! ## Damaged and undamaged tables -/

theorem not_lengthsLead_of_stays
    (passed : stopsAt flash type (tableEnd flash startAddr) addr = false)
    (stays : nextItem flash addr = addr) : ¬LengthsLead flash type startAddr addr := by
  obtain ⟨before_end, other⟩ := stopsAt_eq_false_iff.mp passed
  intro leads
  induction leads with
  | ended behind => exact UInt32.not_lt.mpr behind before_end
  | found _ type_eq => exact other type_eq.symm
  | passed _ _ ih =>
      rw [stays] at ih
      exact ih passed stays before_end other

/-- A table of two items, the first of which had its length overwritten. -/
def damagedTable : List UInt8 :=
  (wordBytes infoTlvHeader ++ wordBytes 24) ++
    ((wordBytes NetInfoItem.autoConnect.code ++ wordBytes 0xFFFFFFF8) ++ wordBytes 1 ++
      Item.encode ⟨NetInfoItem.wifiMode.code, [1, 0, 0, 0]⟩)

def damagedFlash : Flash :=
  Memory.store (fun _ => 0xFF) (tableStart .bk7231u).toNat damagedTable

/-- The scan of a damaged table for its second item stays at the first for ever. -/
theorem damaged_table_never_ends :
    ¬ScanContained damagedFlash NetInfoItem.wifiMode.code (tableStart .bk7231u) := by
  have held : damagedFlash.Holds (tableStart .bk7231u).toNat damagedTable :=
    Memory.holds_store _ _ _
  obtain ⟨header_held, items_held⟩ := Memory.holds_append.mp held
  rw [List.append_assoc, Memory.holds_append] at items_held
  have header := readHead_of_holds header_held
  have item := @readHead_of_holds _ (firstItem (tableStart .bk7231u)) _ _ items_held.1
  rw [scanContained_iff]
  refine not_lengthsLead_of_stays (stopsAt_eq_false_iff.mpr ?_) ?_
  · rw [tableEnd, header, item]
    decide
  · rw [nextItem, item]
    decide

theorem lengthsLead_of_holds (held : flash.Holds addr.toNat (encodeItems items))
    (reaches : (tableEnd flash startAddr).toNat = addr.toNat + (encodeItems items).length)
    (after : startAddr.toNat ≤ addr.toNat) (end_eq : (tableEnd flash startAddr).toNat =
      startAddr.toNat + (8 + (readHead flash startAddr).len.toNat)) :
    LengthsLead flash type startAddr addr := by
  induction items generalizing addr with
  | nil => exact .ended (UInt32.le_iff_toNat_le.mpr (Nat.le_of_eq reaches))
  | cons item items ih =>
      rw [encodeItems_cons] at held reaches
      have next := toNat_next reaches
      have head : readHead flash addr = ⟨item.type, UInt32.ofNat item.value.length⟩ := by
        rw [Item.encode, List.append_assoc, Memory.holds_append] at held
        exact readHead_of_holds held.1
      have next_eq : nextItem flash addr =
          addr + sizeofInfoItemSt + UInt32.ofNat item.value.length := by
        rw [nextItem, head]
      rw [List.length_append] at reaches
      have long := item.length_encode
      refine .passed ⟨after, by omega⟩ ?_
      rw [next_eq]
      refine ih ?_ (by omega) (by omega)
      rw [next]
      exact (Memory.holds_append.mp held).2

/-- The lengths of a well-formed table lead through it. -/
theorem Table.lengthsLead {soc : SocName} (table : Table soc flash items) (type : UInt32) :
    LengthsLead flash type (tableStart soc) (firstItem (tableStart soc)) := by
  have bounds := tableStart_bounds soc
  have fits := table.length_items_le
  obtain ⟨first_eq, end_eq⟩ := table.toNat_scan
  have head_eq := readHead_of_table table
  have end_eq : (tableEnd flash (tableStart soc)).toNat =
      (tableStart soc).toNat + 8 + (encodeItems items).length := by
    rw [tableEnd, head_eq]
    exact end_eq
  have len_eq : (readHead flash (tableStart soc)).len.toNat = (encodeItems items).length := by
    rw [head_eq]
    exact UInt32.toNat_ofNat_of_lt' (by simp [UInt32.size]; omega)
  refine lengthsLead_of_holds (first_eq ▸ holds_items_of_table table) ?_ ?_ ?_
  · rw [end_eq, firstItem, first_eq]
  · rw [firstItem, first_eq]
    omega
  · rw [end_eq, len_eq, Nat.add_assoc]

/-- From an erased partition, every table that the store has written is scanned to its end, and the
scan stays within it. -/
theorem scanContained_run {soc : SocName} {flash : Flash} {calls : List SaveCall}
    (erased : Erased soc flash)
    (fits : tableBytes calls ≤ (netParamPartition soc).partitionLength.toNat)
    (nonempty : calls ≠ []) (type : UInt32) :
    ScanContained ((netParamStore soc).run flash calls) type (tableStart soc) := by
  obtain ⟨⟨items, stores⟩, -⟩ := exists_stores_run erased fits
  rw [scanContained_iff]
  exact (stores.written nonempty).lengthsLead type

theorem scanContained_run_two_items :
    let call (item : NetInfoItem) : SaveCall := ⟨item.code, UInt8.ofNat, UInt8.ofNat, UInt8.ofNat⟩
    ScanContained ((netParamStore .bk7231).run (fun _ => 0xFF) [call .wifiMode, call .ssidKey])
      NetInfoItem.wifiMac.code (tableStart .bk7231) :=
  scanContained_run (fun _ _ => rfl) (by decide) (List.cons_ne_nil _ _) _

end BdkFreertos.NetParam
