import BdkFreertos.Airkiss

/-!
# A scan-all pass of Airkiss

The selection grows in the front of the array of channels while the rest of the array is still to be
scanned.  It never holds more entries than channels have been left, so an insertion overwrites only
entries whose counters have been read.
-/

namespace BdkFreertos

namespace Memory

theorem load_insert {Cell : Type*} (memory : Memory Cell) (place count : ℕ) (cell : Cell) :
    ((memory.store (place + 1) (memory.load place count)).store place [cell]).load 0
        (place + (1 + count)) =
      memory.load 0 place ++ cell :: memory.load place count := by
  rw [load_add, load_add, Nat.zero_add]
  congr 1
  · rw [load_store_above _ _ (by omega), load_store_above _ _ (by omega)]
  · have moved := memory.load_store_self (place + 1) (memory.load place count)
    rw [length_load] at moved
    rw [load_store_singleton, load_store_of_disjoint _ (Or.inr (by simp)), moved]
    rfl

end Memory

namespace Airkiss

variable {macIeFind : List UInt8 → ℕ → UInt32 → ℕ → Option ℕ}

/-- What the selection records of a channel: its number and its data counter. -/
abbrev Entry := UInt16 × UInt8

def entryOf (param : ChanParam) : Entry := (param.channel, param.dataCnt)

/-- The first `selected_chan_nums` entries. -/
def selection (chans : AirkissChannel) : List Entry :=
  (chans.chan.load 0 chans.selectedChanNums).map entryOf

def Descending (entries : List Entry) : Prop :=
  entries.Pairwise fun front back => back.2 ≤ front.2

variable {entry : Entry} (chans : AirkissChannel)

theorem Descending.insert {front back : List Entry} (descending : Descending (front ++ back))
    (before : ∀ other ∈ front, entry.2 ≤ other.2)
    (behind : ∀ other ∈ back.head?, other.2 < entry.2) : Descending (front ++ entry :: back) := by
  obtain ⟨front_ok, back_ok, across⟩ := List.pairwise_append.mp descending
  have below : ∀ other ∈ back, other.2 ≤ entry.2 := by
    cases back with
    | nil => simp
    | cons first rest =>
        have first_below := UInt8.le_of_lt (behind first rfl)
        have rest_below := (List.pairwise_cons.mp back_ok).1
        intro other member
        rcases List.mem_cons.mp member with rfl | later
        · exact first_below
        · exact UInt8.le_trans (rest_below other later) first_below
  refine List.pairwise_append.mpr ⟨front_ok, List.pairwise_cons.mpr ⟨below, back_ok⟩, ?_⟩
  intro first first_mem second second_mem
  rcases List.mem_cons.mp second_mem with rfl | later
  · exact before first first_mem
  · exact across first first_mem second later

theorem length_selection : (selection chans).length = chans.selectedChanNums := by
  simp [selection]

theorem getElem?_selection (i : ℕ) :
    (selection chans)[i]? =
      if i < chans.selectedChanNums then some (entryOf (chans.chan i)) else none := by
  rw [selection, List.getElem?_map, Memory.getElem?_load]
  split <;> simp

theorem selection_split {i : ℕ} (inside : i ≤ chans.selectedChanNums) :
    selection chans =
      (chans.chan.load 0 i).map entryOf ++
        (chans.chan.load i (chans.selectedChanNums - i)).map entryOf := by
  have parts := chans.chan.load_add 0 i (chans.selectedChanNums - i)
  rw [Nat.add_sub_cancel' inside, Nat.zero_add] at parts
  rw [selection, parts, List.map_append]

/-- `after` is `before` with an entry inserted behind those with as much data. -/
structure Inserted (before after : AirkissChannel) (entry : Entry) : Prop where
  place : ∃ i ≤ before.selectedChanNums,
    selection after =
        (before.chan.load 0 i).map entryOf ++
          entry :: (before.chan.load i (before.selectedChanNums - i)).map entryOf ∧
      (∀ j < i, entry.2 ≤ (before.chan j).dataCnt) ∧
      (i < before.selectedChanNums → (before.chan i).dataCnt < entry.2)
  ahead : ∀ j, before.selectedChanNums < j → after.chan j = before.chan j

theorem Inserted.perm {before after : AirkissChannel} (inserted : Inserted before after entry) :
    (selection after).Perm (entry :: selection before) := by
  obtain ⟨i, inside, eq, -⟩ := inserted.place
  rw [eq, selection_split before inside]
  exact List.perm_middle

theorem Inserted.descending {before after : AirkissChannel} {entry : Entry}
    (inserted : Inserted before after entry) (descending : Descending (selection before)) :
    Descending (selection after) := by
  obtain ⟨i, inside, eq, earlier, later⟩ := inserted.place
  rw [selection_split before inside] at descending
  rw [eq]
  refine descending.insert (fun other member => ?_) (fun other member => ?_)
  · obtain ⟨param, loaded, rfl⟩ := List.mem_map.mp member
    obtain ⟨j, range, rfl⟩ := List.mem_map.mp loaded
    rw [Nat.zero_add]
    exact earlier j (List.mem_range.mp range)
  · rcases Nat.lt_or_ge i before.selectedChanNums with less | all
    · have first : (before.chan.load i (before.selectedChanNums - i)).head? =
          some (before.chan i) := by
        rw [List.head?_eq_getElem?, Memory.getElem?_load, if_pos (by omega), Nat.add_zero]
      rw [List.head?_map, first] at member
      cases member
      exact later less
    · simp [Nat.sub_eq_zero_of_le all] at member

/-- A busy channel that is not selected yet is inserted; the entries behind the selection stay as
they are. -/
theorem airkissAddChannel_busy {chans : AirkissChannel} {channel bcnCnt dataCnt : UInt8}
    (data : minValidDatacntInchan ≤ dataCnt) (bcn : minValidBcncntInchan ≤ bcnCnt)
    (few : chans.selectedChanNums < maxChannels)
    (fresh : ∀ i < chans.selectedChanNums, (chans.chan i).channel.toUInt8 ≠ channel) :
    Inserted chans (airkissAddChannel chans channel bcnCnt dataCnt).1
      (channel.toUInt16, dataCnt) := by
  have small : (chans.selectedChanNums + 1) % 2 ^ 8 = chans.selectedChanNums + 1 :=
    Nat.mod_eq_of_lt (by simp only [maxChannels] at few; omega)
  rw [airkissAddChannel, if_neg (UInt8.not_lt.mpr data), if_neg (UInt8.not_lt.mpr bcn)]
  split
  next i found =>
    obtain ⟨less, range, earlier⟩ := List.find?_range_eq_some.mp found
    have inside := List.mem_range.mp range
    simp only [decide_eq_true_eq, Bool.not_eq_true', decide_eq_false_iff_not] at less earlier
    rw [if_pos (fresh i inside)]
    refine ⟨⟨i, Nat.le_of_lt inside, ?_, fun j before => UInt8.not_lt.mp (earlier j before),
      fun _ => less⟩, fun j beyond => ?_⟩
    · have count : chans.selectedChanNums + 1 = i + (1 + (chans.selectedChanNums - i)) := by omega
      simp only [selection, modifyChan, small]
      rw [count, Memory.load_insert, List.map_append, List.map_cons]
      rfl
    · simp only [modifyChan]
      rw [Memory.store_apply_of_le _ (by simp only [List.length_singleton]; omega),
        Memory.store_apply_of_le _ (by rw [Memory.length_load]; omega)]
  next absent =>
    have earlier := List.find?_range_eq_none.mp absent
    simp only [Bool.not_eq_true', decide_eq_false_iff_not] at earlier
    refine ⟨⟨chans.selectedChanNums, Nat.le_refl _, ?_,
      fun j before => UInt8.not_lt.mp (earlier j before), fun less => absurd less (by omega)⟩,
      fun j beyond => ?_⟩
    · simp only [selection, modifyChan, small]
      rw [Memory.load_add, Memory.load_store_above _ _ (by omega), Nat.zero_add,
        Memory.load_store_singleton, Nat.sub_self, List.map_append]
      rfl
    · simp only [modifyChan]
      exact Memory.store_apply_of_le _ (by simp only [List.length_singleton]; omega)

theorem airkissAddChannel_quiet (channel : UInt8) {bcnCnt dataCnt : UInt8}
    (quiet : ¬ (minValidDatacntInchan ≤ dataCnt ∧ minValidBcncntInchan ≤ bcnCnt)) :
    (airkissAddChannel chans channel bcnCnt dataCnt).1 = chans := by
  rw [airkissAddChannel]
  by_cases data : dataCnt < minValidDatacntInchan
  · rw [if_pos data]
  by_cases bcn : bcnCnt < minValidBcncntInchan
  · rw [if_neg data, if_pos bcn]
  · exact absurd ⟨UInt8.not_lt.mp data, UInt8.not_lt.mp bcn⟩ quiet

/-! ## Counting on one channel -/

/-- The beacons among frames that are long enough, counted in a byte. -/
def beaconCount (frames : List (List UInt8)) : UInt8 :=
  UInt8.ofNat (frames.countP fun frame => airkissMinRxBufSize ≤ frame.length ∧ IsBeacon frame)

/-- The data frames among frames that are long enough, counted in a byte. -/
def dataCount (frames : List (List UInt8)) : UInt8 :=
  UInt8.ofNat (frames.countP fun frame => airkissMinRxBufSize ≤ frame.length ∧ IsData frame)

def Busy (frames : List (List UInt8)) : Prop :=
  minValidDatacntInchan ≤ dataCount frames ∧ minValidBcncntInchan ≤ beaconCount frames

instance (frames : List (List UInt8)) : Decidable (Busy frames) :=
  inferInstanceAs (Decidable (_ ∧ _))

theorem not_isData_of_isBeacon {frame : List UInt8} (beacon : IsBeacon frame) :
    ¬ IsData frame := by
  intro data
  have masks : macFctrlTypesubtypeMask &&& macFctrlTypeMask = macFctrlTypeMask := by decide
  have type : fctl frame &&& macFctrlTypeMask =
      (fctl frame &&& macFctrlTypesubtypeMask) &&& macFctrlTypeMask := by
    rw [UInt16.and_assoc, masks]
  rw [IsData, type] at data
  rcases beacon with beacon | response
  · rw [← beacon] at data
    exact absurd data (by decide)
  · rw [← response] at data
    exact absurd data (by decide)

/-- The counters of a channel after one more frame. -/
theorem received_counts (state : AirkissState) {frames : List (List UInt8)} {channel : UInt16}
    (current : state.chans.chan state.chans.curChanIdx =
      ⟨beaconCount frames, dataCount frames, channel⟩) (frame : List UInt8) :
    ∃ chan, (airkissMonitorCallback macIeFind state frame).1.chans =
        { state.chans with chan } ∧
      chan state.chans.curChanIdx =
        ⟨beaconCount (frames ++ [frame]), dataCount (frames ++ [frame]), channel⟩ ∧
      ∀ j ≠ state.chans.curChanIdx, chan j = state.chans.chan j := by
  rw [airkissMonitorCallback]
  by_cases short : frame.length < airkissMinRxBufSize
  · rw [if_pos short]
    refine ⟨state.chans.chan, rfl, ?_, fun _ _ => rfl⟩
    simp [current, beaconCount, dataCount, Nat.not_le.mpr short]
  have long := Nat.not_lt.mp short
  have filled : frame.length ≠ 0 := by
    simp only [airkissMinRxBufSize] at long
    omega
  rw [if_neg short, airkissCountUsefullPacket, if_neg filled]
  by_cases beacon : IsBeacon frame
  · rw [if_pos beacon]
    refine ⟨_, rfl, ?_, fun j other => Memory.store_singleton_of_ne _ _ other⟩
    rw [Memory.store_singleton_self, current]
    simp [beaconCount, dataCount, long, beacon, not_isData_of_isBeacon beacon]
  rw [if_neg beacon]
  by_cases data : IsData frame
  · rw [if_pos data]
    refine ⟨_, rfl, ?_, fun j other => Memory.store_singleton_of_ne _ _ other⟩
    rw [Memory.store_singleton_self, current]
    simp [beaconCount, dataCount, long, beacon, data]
  · rw [if_neg data]
    refine ⟨state.chans.chan, rfl, ?_, fun _ _ => rfl⟩
    simp [current, beaconCount, dataCount, beacon, data]

/-! ## The pass -/

/-- Channel `k` is being scanned, `frames` have been received there, and `busy` are the entries of
the busy channels before it. -/
structure Scanning (k : ℕ) (frames : List (List UInt8)) (busy : List Entry)
    (chans : AirkissChannel) : Prop where
  mode : chans.mode = .scanAllChan
  cur : chans.curChanIdx = k
  all : chans.allChanNums = maxChannels - 1
  perm : (selection chans).Perm busy
  descending : Descending (selection chans)
  few : busy.length ≤ k
  behind : ∀ entry ∈ busy, entry.1.toNat ≤ k
  current : chans.chan k = ⟨beaconCount frames, dataCount frames, UInt16.ofNat (k + 1)⟩
  ahead : ∀ j, k < j → j < maxChannels - 1 → chans.chan j = ⟨0, 0, UInt16.ofNat (j + 1)⟩

theorem scanning_start : Scanning 0 [] [] airkissSetScanAllChannel.chans where
  mode := rfl
  cur := rfl
  all := rfl
  perm := .nil
  descending := .nil
  few := Nat.le_refl 0
  behind := by simp
  current := rfl
  ahead j _ inside := by simp [airkissSetScanAllChannel, inside]

/-- The entry of a channel that has been scanned, when it is busy. -/
def busyEntry (k : ℕ) (frames : List (List UInt8)) : List Entry :=
  if Busy frames then [(UInt16.ofNat (k + 1), dataCount frames)] else []

namespace Scanning

variable {k : ℕ} {frames : List (List UInt8)} {busy : List Entry} {state : AirkissState}

variable {chans : AirkissChannel}

theorem selected_eq (scanning : Scanning k frames busy chans) :
    chans.selectedChanNums = busy.length := by
  rw [← length_selection, scanning.perm.length_eq]

theorem received (scanning : Scanning k frames busy state.chans) (frame : List UInt8) :
    Scanning k (frames ++ [frame]) busy
      (airkissMonitorCallback macIeFind state frame).1.chans := by
  have current := scanning.current
  rw [← scanning.cur] at current
  obtain ⟨chan, eq, counted, apart⟩ := @received_counts macIeFind state _ _ current frame
  have selected : selection { state.chans with chan } = selection state.chans := by
    have few := scanning.few
    rw [← scanning.selected_eq, ← scanning.cur] at few
    simp only [selection]
    congr 1
    exact Memory.load_eq_load fun j inside => apart _ (by omega)
  rw [eq]
  refine ⟨scanning.mode, scanning.cur, scanning.all, ?_, ?_, scanning.few, scanning.behind, ?_, ?_⟩
  · rw [selected]
    exact scanning.perm
  · rw [selected]
    exact scanning.descending
  · rw [scanning.cur] at counted
    exact counted
  · intro j beyond inside
    have other : j ≠ state.chans.curChanIdx := by
      rw [scanning.cur]
      exact Nat.ne_of_gt beyond
    exact (apart j other).trans (scanning.ahead j beyond inside)

theorem addChannel (scanning : Scanning k frames busy chans) (inside : k < maxChannels - 1) :
    let after := (airkissAddChannel chans (chans.chan k).channel.toUInt8 (chans.chan k).bcnCnt
      (chans.chan k).dataCnt).1
    (selection after).Perm (busy ++ busyEntry k frames) ∧ Descending (selection after) ∧
      ∀ j, k < j → after.chan j = chans.chan j := by
  simp only [maxChannels] at inside
  have few := scanning.few
  rw [← scanning.selected_eq] at few
  have number : (UInt16.ofNat (k + 1)).toUInt8.toUInt16 = UInt16.ofNat (k + 1) := by
    apply UInt16.toNat_inj.mp
    simp
    omega
  rw [scanning.current]
  by_cases isBusy : Busy frames
  · have fresh : ∀ i < chans.selectedChanNums,
        (chans.chan i).channel.toUInt8 ≠ (UInt16.ofNat (k + 1)).toUInt8 := by
      intro i selected same
      have entry : entryOf (chans.chan i) ∈ selection chans := by
        apply List.mem_of_getElem? (i := i)
        rw [getElem?_selection, if_pos selected]
      have before := scanning.behind _ (scanning.perm.mem_iff.mp entry)
      simp only [entryOf] at before
      have numbers := congrArg UInt8.toNat same
      simp at numbers
      omega
    have inserted := @airkissAddChannel_busy chans (UInt16.ofNat (k + 1)).toUInt8
      (beaconCount frames) (dataCount frames) isBusy.1 isBusy.2
      (by simp only [maxChannels]; omega) fresh
    rw [number] at inserted
    refine ⟨?_, inserted.descending scanning.descending, fun j beyond => ?_⟩
    · rw [busyEntry, if_pos isBusy]
      exact (inserted.perm.trans (scanning.perm.cons _)).trans
        (List.perm_append_singleton _ _).symm
    · exact inserted.ahead j (by omega)
  · rw [airkissAddChannel_quiet _ _ isBusy, busyEntry, if_neg isBusy, List.append_nil]
    exact ⟨scanning.perm, scanning.descending, fun _ _ => rfl⟩

theorem switch_next (scanning : Scanning k frames busy state.chans)
    (more : k + 1 < maxChannels - 1) :
    Scanning (k + 1) [] (busy ++ busyEntry k frames)
        (airkissSwitchChannelCallback state).1.chans ∧
      (airkissSwitchChannelCallback state).2.tuned = [k + 2] := by
  have inside := Nat.lt_of_succ_lt more
  obtain ⟨perm, descending, ahead⟩ := scanning.addChannel inside
  have few := scanning.few
  have selected_lt : state.chans.selectedChanNums < maxChannels := by
    rw [scanning.selected_eq]
    simp only [maxChannels] at inside ⊢
    omega
  obtain ⟨same_cur, same_all, same_mode, -, -⟩ := airkissAddChannel_spec selected_lt
    (state.chans.chan k).channel.toUInt8 (state.chans.chan k).bcnCnt (state.chans.chan k).dataCnt
  have next : (k + 1) % 2 ^ 8 = k + 1 :=
    Nat.mod_eq_of_lt (by simp only [maxChannels] at inside; omega)
  have unscanned := (ahead (k + 1) (Nat.lt_succ_self k)).trans
    (scanning.ahead (k + 1) (Nat.lt_succ_self k) more)
  simp only [airkissSwitchChannelCallback, scanning.mode, scanning.cur, same_cur, same_all,
    scanning.all, next, if_neg (Nat.not_le.mpr more)]
  refine ⟨⟨same_mode.trans scanning.mode, rfl, rfl, perm, descending, ?_, ?_, unscanned,
    fun j beyond last => ?_⟩, ?_⟩
  · have one : (busyEntry k frames).length ≤ 1 := by
      rw [busyEntry]
      split <;> simp
    rw [List.length_append]
    omega
  · intro entry member
    rcases List.mem_append.mp member with earlier | new
    · exact Nat.le_succ_of_le (scanning.behind entry earlier)
    · rw [busyEntry] at new
      split at new
      · rw [List.mem_singleton.mp new]
        exact Nat.mod_le _ _
      · cases new
  · exact (ahead j (Nat.lt_of_succ_lt beyond)).trans
      (scanning.ahead j (Nat.lt_of_succ_lt beyond) last)
  · rw [unscanned]
    simp only [maxChannels] at inside
    simp
    omega

/-- The timer ends the pass: the busy channels are selected, or the scan starts again. -/
theorem switch_last (scanning : Scanning 12 frames busy state.chans) :
    (busy ++ busyEntry 12 frames = [] →
        (airkissSwitchChannelCallback state).1 = airkissSetScanAllChannel ∧
        (airkissSwitchChannelCallback state).2.tuned = [1]) ∧
      (busy ++ busyEntry 12 frames ≠ [] →
        (airkissSwitchChannelCallback state).1.chans.mode = .scanSelectedChan ∧
        (airkissSwitchChannelCallback state).1.chans.curChanIdx = 0 ∧
        (selection (airkissSwitchChannelCallback state).1.chans).Perm
          (busy ++ busyEntry 12 frames) ∧
        Descending (selection (airkissSwitchChannelCallback state).1.chans)) := by
  have inside : 12 < maxChannels - 1 := by decide
  obtain ⟨perm, descending, -⟩ := scanning.addChannel inside
  have few := scanning.few
  have selected_lt : state.chans.selectedChanNums < maxChannels := by
    rw [scanning.selected_eq]
    simp only [maxChannels]
    omega
  obtain ⟨same_cur, same_all, -, -, -⟩ := airkissAddChannel_spec selected_lt
    (state.chans.chan 12).channel.toUInt8 (state.chans.chan 12).bcnCnt
    (state.chans.chan 12).dataCnt
  have selected := perm.length_eq
  rw [length_selection] at selected
  have ends : (12 + 1) % 2 ^ 8 ≥ maxChannels - 1 := by decide
  simp only [airkissSwitchChannelCallback, scanning.mode, scanning.cur, same_cur, same_all,
    scanning.all, if_pos ends]
  constructor
  · intro none
    rw [none, List.length_nil] at selected
    rw [if_neg (not_not.mpr selected)]
    exact ⟨rfl, rfl⟩
  · intro several
    have positive : (airkissAddChannel state.chans (state.chans.chan 12).channel.toUInt8
        (state.chans.chan 12).bcnCnt (state.chans.chan 12).dataCnt).1.selectedChanNums ≠ 0 := by
      rw [selected]
      exact fun zero => several (List.eq_nil_of_length_eq_zero zero)
    rw [if_pos positive]
    exact ⟨rfl, rfl, perm, descending⟩

end Scanning

/-- The frames received on one channel and the expiry of the timer there. -/
def dwell (frames : List (List UInt8)) : List Event :=
  frames.map .received ++ [.switchChannel]

/-- The entries of the busy channels among channels that are scanned one after the other. -/
def busyEntries (first : ℕ) : List (List (List UInt8)) → List Entry
  | [] => []
  | frames :: dwells => busyEntry first frames ++ busyEntries (first + 1) dwells

/-- The step that consumes an event begins in a scan-all pass. -/
def InPass (state : AirkissState) (_ : Event) : Prop := state.chans.mode = .scanAllChan

/-- Frames keep the scan on its channel. -/
theorem run_received {k : ℕ} {earlier : List (List UInt8)} {busy : List Entry}
    {state : AirkissState} (scanning : Scanning k earlier busy state.chans)
    (frames : List (List UInt8)) :
    Scanning k (earlier ++ frames) busy
        ((machine macIeFind).run state (frames.map .received)).chans ∧
      ((machine macIeFind).outputs state (frames.map .received)).flatMap Output.tuned = [] ∧
      (machine macIeFind).Always InPass state (frames.map .received) := by
  induction frames generalizing state earlier with
  | nil => exact ⟨by rwa [List.append_nil], rfl, trivial⟩
  | cons frame frames induction =>
      obtain ⟨final, tuned, inPass⟩ := induction (@Scanning.received macIeFind _ _ _ _ scanning frame)
      have quiet : (airkissMonitorCallback macIeFind state frame).2.tuned = [] := by
        rw [airkissMonitorCallback]
        split
        · rfl
        · rw [airkissCountUsefullPacket]
          split
          · rfl
          · split
            · rfl
            · split <;> rfl
      rw [List.append_assoc] at final
      refine ⟨final, ?_, scanning.mode, inPass⟩
      rw [List.map_cons, Machine.outputs_cons, List.flatMap_cons]
      exact (congrArg₂ _ quiet tuned)

/-- A part of a pass that leaves its channels one after the other. -/
theorem run_dwells {k : ℕ} {busy : List Entry} {state : AirkissState}
    (scanning : Scanning k [] busy state.chans) (dwells : List (List (List UInt8)))
    (more : k + dwells.length < maxChannels - 1) :
    Scanning (k + dwells.length) [] (busy ++ busyEntries k dwells)
        ((machine macIeFind).run state (dwells.flatMap dwell)).chans ∧
      ((machine macIeFind).outputs state (dwells.flatMap dwell)).flatMap Output.tuned =
        List.range' (k + 2) dwells.length ∧
      (machine macIeFind).Always InPass state (dwells.flatMap dwell) := by
  induction dwells generalizing k busy state with
  | nil => exact ⟨by simpa [busyEntries] using scanning, rfl, trivial⟩
  | cons frames dwells induction =>
      rw [List.length_cons] at more
      obtain ⟨stay, quiet, staying⟩ := @run_received macIeFind _ _ _ _ scanning frames
      obtain ⟨next, switched⟩ := stay.switch_next (by omega)
      obtain ⟨final, tuned, inPass⟩ := induction next (by omega)
      rw [List.nil_append, List.append_assoc, Nat.add_assoc, Nat.add_comm 1] at final
      simp only [List.flatMap_cons, dwell, List.append_assoc, Machine.run_append,
        Machine.outputs_append, Machine.always_append]
      refine ⟨final, ?_, staying, ⟨stay.mode, trivial⟩, inPass⟩
      rw [List.flatMap_append, quiet, List.nil_append, List.flatMap_append]
      exact congrArg₂ (· ++ ·) ((List.append_nil _).trans switched) tuned

/-- The events of a pass before the expiry that ends it. -/
def scan (dwells : Fin 13 → List (List UInt8)) : List Event :=
  (List.ofFn fun k : Fin 12 => dwells k.castSucc).flatMap dwell ++
    (dwells (Fin.last 12)).map .received

/-- What a pass does before the expiry that ends it and at that expiry. -/
structure PassDone (dwells : Fin 13 → List (List UInt8)) (scanned : AirkissState)
    (outputs : List Output) (ended : AirkissState × Output) : Prop where
  tuned : airkissRestart.2.tuned ++ outputs.flatMap Output.tuned = List.range' 1 13
  inPass : scanned.chans.mode = .scanAllChan
  quiet : busyEntries 0 (List.ofFn dwells) = [] →
    ended.1 = airkissSetScanAllChannel ∧ ended.2.tuned = [1]
  selected : busyEntries 0 (List.ofFn dwells) ≠ [] →
    ended.1.chans.mode = .scanSelectedChan ∧ ended.1.chans.curChanIdx = 0 ∧
      (selection ended.1.chans).Perm (busyEntries 0 (List.ofFn dwells)) ∧
      Descending (selection ended.1.chans)

theorem busyEntries_append (first : ℕ) (front back : List (List (List UInt8))) :
    busyEntries first (front ++ back) =
      busyEntries first front ++ busyEntries (first + front.length) back := by
  induction front generalizing first with
  | nil => rfl
  | cons frames dwells induction =>
      simp only [List.cons_append, busyEntries, induction, List.append_assoc, List.length_cons]
      rw [Nat.add_right_comm, Nat.add_assoc]

end Airkiss
end BdkFreertos
