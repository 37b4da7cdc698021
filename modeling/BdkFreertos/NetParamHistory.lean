import BdkFreertos.NetParamMap
import Mathlib.Algebra.GroupWithZero.Nat
import Mathlib.Data.Option.Basic

/-!
# Histories of the network-parameter store

Starting from an erased partition, the items in the flash are at any time the last saved value of
each type saved so far.
-/

namespace BdkFreertos.NetParam

open Flash

variable {soc : SocName} {flash : Flash} {items : List Item} {calls : List SaveCall}
  {call : SaveCall}

def lastSaved (calls : List SaveCall) (type : UInt32) : Option SaveCall :=
  calls.reverse.find? fun call => call.item = type

def tableBytes (calls : List SaveCall) : ℕ :=
  8 + ∑ type ∈ (calls.map SaveCall.item).toFinset, (infoItemLen type).toNat

theorem lastSaved_concat (calls : List SaveCall) (call : SaveCall) (type : UInt32) :
    lastSaved (calls ++ [call]) type =
      if type = call.item then some call else lastSaved calls type := by
  by_cases same : type = call.item
  · simp [lastSaved, same]
  · simp [lastSaved, same, Ne.symm same]

theorem mem_types_of_lastSaved {type : UInt32} (saved : lastSaved calls type ≠ none) :
    type ∈ calls.map SaveCall.item := by
  obtain ⟨call, found⟩ := Option.ne_none_iff_exists'.mp saved
  have member := List.mem_of_find?_eq_some found
  have matched := List.find?_some found
  simp only [decide_eq_true_eq] at matched
  exact List.mem_map.mpr ⟨call, List.mem_reverse.mp member, matched⟩

/-- The items hold the last saved value of each type. -/
structure Stores (soc : SocName) (calls : List SaveCall) (flash : Flash) (items : List Item) :
    Prop where
  represents : Represents soc flash items
  written : calls ≠ [] → Table soc flash items
  values : ∀ type, Option.Rel (fun call value => savedBytes soc call <+: value)
    (lastSaved calls type) (lookup items type)

theorem length_encodeItems_eq_sum (distinct : (items.map Item.type).Nodup)
    (sized : ∀ item ∈ items, item.encode.length = (infoItemLen item.type).toNat) :
    (encodeItems items).length =
      ∑ type ∈ (items.map Item.type).toFinset, (infoItemLen type).toNat := by
  induction items with
  | nil => rfl
  | cons item items induction =>
      rw [List.map_cons, List.nodup_cons] at distinct
      have rest := induction distinct.2 fun later member =>
        sized later (List.mem_cons_of_mem item member)
      rw [encodeItems_cons, List.length_append, sized item List.mem_cons_self, rest,
        List.map_cons, List.toFinset_cons,
        Finset.sum_insert fun member => distinct.1 (List.mem_toFinset.mp member)]

theorem Stores.subset_types (stores : Stores soc calls flash items) :
    (items.map Item.type).toFinset ⊆ (calls.map SaveCall.item).toFinset := by
  intro type member
  rw [List.mem_toFinset] at member ⊢
  obtain ⟨item, item_member, rfl⟩ := List.mem_map.mp member
  apply mem_types_of_lastSaved
  intro unsaved
  have related := stores.values item.type
  rw [unsaved] at related
  rcases found : lookup items item.type with _ | value
  · exact lookup_eq_none_iff.mp found item item_member rfl
  · rw [found] at related
    contradiction

theorem Stores.room (stores : Stores soc calls flash items)
    (fits : tableBytes (calls ++ [call]) ≤ 0x1000) (absent : lookup items call.item = none) :
    8 + (encodeItems items).length + (infoItemLen call.item).toNat ≤ 0x1000 := by
  have sum_eq : (encodeItems items).length =
      ∑ type ∈ (items.map Item.type).toFinset, (infoItemLen type).toNat := by
    cases stores.represents with
    | blank => rfl
    | present table => exact length_encodeItems_eq_sum table.distinct table.sized
  have fresh : call.item ∉ (items.map Item.type).toFinset := by
    intro member
    obtain ⟨item, item_member, same⟩ := List.mem_map.mp (List.mem_toFinset.mp member)
    exact lookup_eq_none_iff.mp absent item item_member same
  have subset : insert call.item (items.map Item.type).toFinset ⊆
      ((calls ++ [call]).map SaveCall.item).toFinset := by
    intro type member
    rcases Finset.mem_insert.mp member with rfl | member
    · simp
    · have earlier := stores.subset_types member
      simp only [List.mem_toFinset] at earlier
      simp [earlier]
  have bound := Finset.sum_le_sum_of_subset subset (f := fun type => (infoItemLen type).toNat)
  rw [Finset.sum_insert fresh, ← sum_eq] at bound
  rw [tableBytes] at fits
  omega

theorem Stores.step (stores : Stores soc calls flash items)
    (fits : tableBytes (calls ++ [call]) ≤ 0x1000) :
    ∃ after newItems, (netParamStore soc).step flash call = (after, some 1) ∧
      Stores soc (calls ++ [call]) after newItems ∧
      ∀ type ≠ call.item, lookup newItems type = lookup items type := by
  obtain ⟨value, after, newItems, saved, returned, table, looked⟩ :=
    stores.represents.saveInfoItem call (stores.room fits)
  refine ⟨after, newItems, ?_, ⟨.present table, fun _ => table, ?_⟩, ?_⟩
  · simp [netParamStore, returned]
  · intro type
    rw [lastSaved_concat, looked]
    split
    · exact .some saved
    · exact stores.values type
  · intro type different
    rw [looked, if_neg different]

theorem tableBytes_le_append (calls later : List SaveCall) :
    tableBytes calls ≤ tableBytes (calls ++ later) := by
  have subset : (calls.map SaveCall.item).toFinset ⊆
      ((calls ++ later).map SaveCall.item).toFinset := by
    rw [List.map_append, List.toFinset_append]
    exact Finset.subset_union_left
  exact Nat.add_le_add_left (Finset.sum_le_sum_of_subset subset) 8

/-- Every byte of the partition reads `0xFF`. -/
def Erased (soc : SocName) (flash : Flash) : Prop :=
  ∀ place < (netParamPartition soc).partitionLength.toNat,
    flash ((tableStart soc).toNat + place) = 0xFF

theorem Erased.missing (erased : Erased soc flash) :
    (readHead flash (tableStart soc)).type ≠ infoTlvHeader := by
  have bytes : ∀ place < 4, flash ((tableStart soc).toNat + place) = 0xFF := by
    intro place inside
    refine erased place (Nat.lt_trans inside ?_)
    show 4 < 0x1000
    decide
  have first : flash (tableStart soc).toNat = 0xFF := bytes 0 (by decide)
  have word : (readHead flash (tableStart soc)).type = wordOfBytes 0xFF 0xFF 0xFF 0xFF := by
    simp only [readHead, Memory.loadWord]
    rw [first, bytes 1 (by decide), bytes 2 (by decide), bytes 3 (by decide)]
  rw [word]
  decide

theorem exists_stores_run (erased : Erased soc flash) (fits : tableBytes calls ≤ 0x1000) :
    (∃ items, Stores soc calls ((netParamStore soc).run flash calls) items) ∧
      ∀ reply ∈ (netParamStore soc).outputs flash calls, reply = some 1 := by
  induction calls using List.reverseRecOn with
  | nil =>
      refine ⟨⟨[], .blank erased.missing, fun nonempty => absurd rfl nonempty, ?_⟩, by simp⟩
      intro type
      exact .none
  | append_singleton calls call induction =>
      obtain ⟨⟨items, stores⟩, replies⟩ :=
        induction (Nat.le_trans (tableBytes_le_append calls [call]) fits)
      obtain ⟨after, newItems, stepped, newStores, -⟩ := stores.step fits
      rw [Machine.run_append, Machine.outputs_append]
      simp only [Machine.run_cons, Machine.run_nil, Machine.outputs_cons, Machine.outputs_nil,
        stepped]
      refine ⟨⟨newItems, newStores⟩, ?_⟩
      intro reply member
      rcases List.mem_append.mp member with earlier | last
      · exact replies reply earlier
      · exact List.mem_singleton.mp last

/-- Bytes of an item's value in each of the caller's buffers. -/
def valueBytes (soc : SocName) : NetInfoItem → ℕ × ℕ × ℕ
  | .wifiMac => (6, 0, 0)
  | .ssidKey => (32, 64, 0)
  | .ipConfig => (16, 16, 16)
  | .chargeConfig => ((chargeBytes soc).toNat, 0, 0)
  | _ => (4, 0, 0)

/-- Reading an item back with `got` as the result: nothing when it was never saved, and otherwise
the bytes of the last call. -/
def ReadsLastSaved (soc : SocName) (item : NetInfoItem) (saved : Option SaveCall)
    (pointers : Pointers) (got : UInt32 × Pointers) : Prop :=
  match saved with
  | none => got = (0, pointers)
  | some call => got.1 = 1 ∧ ∃ got0 got1 got2, got.2 = ⟨some got0, some got1, some got2⟩ ∧
      got0.load 0 (valueBytes soc item).1 = call.ptr0.load 0 (valueBytes soc item).1 ∧
      got1.load 0 (valueBytes soc item).2.1 = call.ptr1.load 0 (valueBytes soc item).2.1 ∧
      got2.load 0 (valueBytes soc item).2.2 = call.ptr2.load 0 (valueBytes soc item).2.2

theorem load_store_front (memory : Memory UInt8) (front rest : List UInt8) {count : ℕ}
    (length : front.length = count) :
    (memory.store 0 (front ++ rest)).load 0 count = front := by
  rw [memory.load_store_take 0 (by simp [length]), List.take_left' length]

theorem readBack_savedBytes {item : NetInfoItem} {value : List UInt8}
    (same : call.item = item.code) (saved : savedBytes soc call <+: value)
    (ptr0 ptr1 ptr2 : Memory UInt8) :
    ReadsLastSaved soc item (some call) ⟨some ptr0, some ptr1, some ptr2⟩
      (readBack item.code value ⟨some ptr0, some ptr1, some ptr2⟩) := by
  obtain ⟨rest, rfl⟩ := saved
  have known : NetInfoItem.ofCode call.item = some item := by
    rw [same, NetInfoItem.ofCode_code]
  have loads : ∀ (buffer : Memory UInt8) {source : Memory UInt8} (count : ℕ),
      (buffer.store 0 (source.load 0 count)).load 0 count = source.load 0 count := by
    intro buffer source count
    have front := load_store_front buffer (source.load 0 count) [] (source.length_load 0 count)
    rwa [List.append_nil] at front
  simp only [ReadsLastSaved, readBack, NetInfoItem.ofCode_code]
  cases item
  case ssidKey =>
    simp only [savedBytes, known, List.append_assoc]
    refine ⟨trivial, _, _, _, rfl, ?_, ?_, rfl⟩
    · rw [List.take_left' (by simp)]
      exact loads ptr0 _
    · rw [List.drop_left' (by simp), List.take_left' (by simp)]
      exact loads ptr1 _
  case ipConfig =>
    simp only [savedBytes, known, List.append_assoc]
    refine ⟨trivial, _, _, _, rfl, ?_, ?_, ?_⟩
    · rw [List.take_left' (by simp)]
      exact loads ptr0 _
    · rw [List.drop_left' (by simp), List.take_left' (by simp)]
      exact loads ptr1 _
    · rw [← List.append_assoc, List.drop_left' (by simp), List.take_left' (by simp)]
      exact loads ptr2 _
  all_goals
    simp only [savedBytes, known]
    refine ⟨trivial, _, _, _, rfl, ?_, rfl, rfl⟩
    exact load_store_front _ _ _ (by simp [valueBytes])

/-- The store is a faithful map.  From an erased partition, in every history of calls whose table
fits, each call returns one; the table is well formed, with the magic header, a header length equal
to the sum of its items' headers and lengths, and each type at most once; every item reads back the
value last saved for it; and a call leaves what every other type reads back. -/
theorem net_param_store_is_map (soc : SocName) (flash : Flash) (calls : List SaveCall)
    (erased : Erased soc flash)
    (fits : tableBytes calls ≤ (netParamPartition soc).partitionLength.toNat) :
    let store := netParamStore soc
    (∀ reply ∈ store.outputs flash calls, reply = some 1) ∧
      (calls ≠ [] → ∃ items, Table soc (store.run flash calls) items ∧
        readHead (store.run flash calls) (tableStart soc) =
          ⟨infoTlvHeader, UInt32.ofNat (items.map fun item => 8 + item.value.length).sum⟩) ∧
      (∀ (item : NetInfoItem) (ptr0 ptr1 ptr2 : Memory UInt8), ∃ got,
        getInfoItem soc (store.run flash calls) item.code ⟨some ptr0, some ptr1, some ptr2⟩ =
            some got ∧
          ReadsLastSaved soc item (lastSaved calls item.code) ⟨some ptr0, some ptr1, some ptr2⟩
            got) ∧
      ∀ earlier call later, calls = earlier ++ call :: later →
        ∀ type ≠ call.item, ∀ pointers,
          getInfoItem soc (store.run flash (earlier ++ [call])) type pointers =
            getInfoItem soc (store.run flash earlier) type pointers := by
  intro store
  have fits : tableBytes calls ≤ 0x1000 := fits
  obtain ⟨⟨items, stores⟩, replies⟩ := exists_stores_run erased fits
  refine ⟨replies, ?_, ?_, ?_⟩
  · intro nonempty
    have table := stores.written nonempty
    refine ⟨items, table, ?_⟩
    rw [readHead_of_table table, encodeItems, List.length_flatMap]
    simp [Item.length_encode]
  · intro item ptr0 ptr1 ptr2
    refine ⟨_, stores.represents.getInfoItem_eq _ _, ?_⟩
    have related := stores.values item.code
    rcases saved : lastSaved calls item.code with _ | call
    all_goals
      rw [saved] at related
      generalize lookup items item.code = found at related ⊢
      cases related
    case none => rfl
    case some value saved_value =>
      have same : call.item = item.code := by simpa using List.find?_some saved
      exact readBack_savedBytes same saved_value ptr0 ptr1 ptr2
  · rintro earlier call later rfl type different pointers
    have fits_call : tableBytes (earlier ++ [call]) ≤ 0x1000 := by
      refine Nat.le_trans (tableBytes_le_append _ later) ?_
      simpa using fits
    have fits_earlier := Nat.le_trans (tableBytes_le_append earlier [call]) fits_call
    obtain ⟨⟨items, stores⟩, -⟩ := exists_stores_run erased fits_earlier
    obtain ⟨after, newItems, stepped, newStores, kept⟩ := stores.step fits_call
    rw [Machine.run_append]
    simp only [Machine.run_cons, Machine.run_nil, store, stepped]
    rw [newStores.represents.getInfoItem_eq, stores.represents.getInfoItem_eq,
      kept type different]

/-- Two items saved on a chip without the larger charge calibration, the first of them twice. -/
theorem net_param_store_is_map_three_calls :
    let soc := SocName.bk7231
    let mode : UInt8 → SaveCall := fun byte =>
      ⟨NetInfoItem.wifiMode.code, fun _ => byte, fun _ => 0, fun _ => 0⟩
    let mac : SaveCall := ⟨NetInfoItem.wifiMac.code, UInt8.ofNat, fun _ => 0, fun _ => 0⟩
    let flash := (netParamStore soc).run (fun _ => 0xFF) [mode 1, mac, mode 2]
    ∃ got, getInfoItem soc flash NetInfoItem.wifiMode.code
        ⟨some fun _ => 0, some fun _ => 0, some fun _ => 0⟩ = some got ∧
      ReadsLastSaved soc .wifiMode (some (mode 2))
        ⟨some fun _ => 0, some fun _ => 0, some fun _ => 0⟩ got := by
  intro soc mode mac flash
  have map := net_param_store_is_map soc (fun _ => 0xFF) [mode 1, mac, mode 2]
    (fun _ _ => rfl) (by decide)
  exact map.2.2.1 .wifiMode (fun _ => 0) (fun _ => 0) (fun _ => 0)

end BdkFreertos.NetParam
