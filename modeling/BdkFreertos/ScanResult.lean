import BdkFreertos.ExchangeSort
import BdkFreertos.MacFrame
import BdkFreertos.Machine
import Mathlib.Data.List.Nodup

/-!
# The set of scan results

Each indication of the MAC brings a beacon or probe response.  `mhdr_scanu_result_ind` enters it into
the set of results unless the set is full, the channel is not allowed in the country, or the set has
an entry of the BSSID that is at least as good; a result received on the channel it announces takes
the place of one that was not.  At the end of the scan the entries are sorted by their level.
-/

namespace BdkFreertos.ScanResult

/-- `MAX_BSS_LIST`. -/
def maxBssList : ℕ := 32

/-- `MAC_BEACON_VARIABLE_PART_OFT`. -/
def macBeaconVariablePartOft : ℕ := 36

def macEltidSsid : UInt8 := 0

def macEltidDs : UInt8 := 3

def macSsidLen : ℕ := 32

/-- The record `SCAN_IND_T` with the frame that follows it. -/
structure ScanInd where
  length : UInt16
  centerFreq : UInt16
  rssi : Int8
  payload : Memory UInt8

/-- The parts of `wifi_country_t` that bound the channels. -/
structure WifiCountry where
  schan : UInt8
  nchan : UInt8
  /-- Whether `policy` is `WIFI_COUNTRY_POLICY_MANUAL`. -/
  manual : Bool

/-- The record `struct sta_scan_res` with the elements that follow it. -/
structure ScanItem where
  bssid : MacAddr
  ssid : List UInt8
  onChannel : Bool
  channel : UInt8
  beaconInt : UInt16
  caps : UInt16
  level : Int
  security : Int
  tsf : List UInt8
  ies : List UInt8
  deriving DecidableEq

/-- The code the handler calls that is not modelled. -/
structure Library where
  /-- `mac_ie_find`: where the first element with an identifier is, between an address and so many
  bytes further. -/
  macIeFind : Memory UInt8 → ℕ → UInt16 → UInt8 → Option ℕ
  getSecurityTypeFromIe : List UInt8 → UInt16 → Int

/-- The channels of `rw_2ghz_channels` by their centre frequencies. -/
def rw2ghzChannels : List UInt16 :=
  [2412, 2417, 2422, 2427, 2432, 2437, 2442, 2447, 2452, 2457, 2462, 2467, 2472, 2484]

def rwIeee80211GetChanId (freq : UInt16) : UInt8 :=
  match rw2ghzChannels.findIdx? (· = freq) with
  | some index => UInt8.ofNat (index + 1)
  | none => 0

def rwIeee80211IsScanRstInCountrycode (country : WifiCountry) (freq : UInt8) : Bool :=
  let startChan := country.schan.toUInt32
  let endChan := startChan + country.nchan.toUInt32 - 1
  !country.manual || !(freq.toUInt32 < startChan || freq.toUInt32 > endChan)

def ScanInd.bssid (ind : ScanInd) : MacAddr := loadAddr ind.payload 16

/-- `vies_len`: the length of the elements, as an unsigned word. -/
def ScanInd.viesLen (ind : ScanInd) : UInt32 :=
  ind.length.toUInt32 - UInt32.ofNat macBeaconVariablePartOft

/-- The part of the handler that finds the channel of a result and whether it was received on that
channel; `none` when the country does not allow the channel. -/
def findChannel (library : Library) (country : WifiCountry) (ind : ScanInd) :
    Option (UInt8 × Bool) :=
  match library.macIeFind ind.payload macBeaconVariablePartOft ind.viesLen.toUInt16 macEltidDs with
  | some elmtAddr =>
      let chann := ind.payload (elmtAddr + 2)
      if rwIeee80211IsScanRstInCountrycode country chann then
        some (chann, chann = rwIeee80211GetChanId ind.centerFreq)
      else none
  | none => some (rwIeee80211GetChanId ind.centerFreq, false)

/-- The part of the handler that looks for the BSSID in the set: `none` when its entry is to stay,
else the place of the entry to be replaced, if there is one. -/
def checkDuplicate (bssid : MacAddr) (onChannel : Bool) (index : ℕ) (replaceIndex : Option ℕ) :
    List ScanItem → Option (Option ℕ)
  | [] => some replaceIndex
  | item :: rest =>
      if item.bssid = bssid then
        if item.onChannel || !onChannel then none
        else checkDuplicate bssid onChannel (index + 1) (some index) rest
      else checkDuplicate bssid onChannel (index + 1) replaceIndex rest

/-- The part of the handler that fills a new item. -/
def fillItem (library : Library) (ind : ScanInd) (chann : UInt8) (onChannel : Bool) : ScanItem :=
  let ies := ind.payload.load macBeaconVariablePartOft ind.viesLen.toNat
  let caps := halfOfBytes (ind.payload 34) (ind.payload 35)
  { bssid := ind.bssid
    ssid :=
      match library.macIeFind ind.payload macBeaconVariablePartOft ind.viesLen.toUInt16
        macEltidSsid with
      | some elmtAddr =>
          let ssidLen := min (ind.payload (elmtAddr + 1)).toNat macSsidLen
          ind.payload.load (elmtAddr + 2) ssidLen ++ List.replicate (macSsidLen - ssidLen) 0
      | none => List.replicate macSsidLen 0
    onChannel := onChannel
    channel := chann
    beaconInt := halfOfBytes (ind.payload 32) (ind.payload 33)
    caps := caps
    level := ind.rssi.toInt
    security := library.getSecurityTypeFromIe ies caps
    tsf := ind.payload.load 24 8
    ies := ies }

/-- `mhdr_scanu_result_ind` on the entries of the set, with the outcome of its allocation. -/
def mhdrScanuResultInd (library : Library) (country : WifiCountry) (allocated : Bool)
    (ind : ScanInd) (res : List ScanItem) : List ScanItem :=
  if res.length ≥ maxBssList then res
  else
    match findChannel library country ind with
    | none => res
    | some (chann, onChannel) =>
        match checkDuplicate ind.bssid onChannel 0 none res with
        | none => res
        | some replaceIndex =>
            if allocated then
              let item := fillItem library ind chann onChannel
              match replaceIndex with
              | some index => res.set index item
              | none => res ++ [item]
            else res

def sortScanResult (res : List ScanItem) : List ScanItem :=
  ExchangeSort.exchangeSort ScanItem.level res

/-- An indication with what its handling meets. -/
structure Arrival where
  ind : ScanInd
  country : WifiCountry
  /-- Whether the allocation of an item succeeds. -/
  allocated : Bool

/-- The set during a scan. -/
structure Scan where
  res : List ScanItem
  /-- The BSSIDs of the on-channel indications so far. -/
  heard : List MacAddr

/-- Whether a result was received on the channel it announces. -/
def ScanInd.isOnChannel (library : Library) (ind : ScanInd) : Bool :=
  match library.macIeFind ind.payload macBeaconVariablePartOft ind.viesLen.toUInt16 macEltidDs with
  | some elmtAddr => ind.payload (elmtAddr + 2) = rwIeee80211GetChanId ind.centerFreq
  | none => false

/-- The indications of a scan. -/
def machine (library : Library) : Machine Scan Arrival Unit where
  step scan arrival :=
    ({ res := mhdrScanuResultInd library arrival.country arrival.allocated arrival.ind scan.res
       heard :=
        if arrival.ind.isOnChannel library then scan.heard ++ [arrival.ind.bssid]
        else scan.heard }, ())

def scanStart : Scan := ⟨[], []⟩

/-- The set is within its capacity and free of repeated BSSIDs, what was heard on its channel has an
on-channel entry, and sorting gives the same entries by descending level. -/
structure Proper (scan : Scan) : Prop where
  bounded : scan.res.length ≤ maxBssList
  distinct : (scan.res.map ScanItem.bssid).Nodup
  onChannel : ∀ item ∈ scan.res, item.bssid ∈ scan.heard → item.onChannel = true
  permuted : (sortScanResult scan.res).Perm scan.res
  ordered : (sortScanResult scan.res).Pairwise fun before after => after.level ≤ before.level

/-- Whether there is room for a new item in the set and in memory, and the country allows its
channel. -/
def hasRoom (library : Library) (arrival : Arrival) (res : List ScanItem) : Bool :=
  decide (res.length < maxBssList) &&
    ((findChannel library arrival.country arrival.ind).isSome && arrival.allocated)

/-- There is room for an on-channel result of a BSSID whose entry is an off-channel one, and no
off-channel result is entered for a BSSID that was heard on its channel without being entered. -/
def Placed (library : Library) (scan : Scan) (arrival : Arrival) : Prop :=
  if arrival.ind.isOnChannel library then
    (∃ item ∈ scan.res, item.bssid = arrival.ind.bssid ∧ item.onChannel = false) →
      hasRoom library arrival scan.res = true
  else
    hasRoom library arrival scan.res = true →
      arrival.ind.bssid ∉ scan.res.map ScanItem.bssid → arrival.ind.bssid ∉ scan.heard

/-! ## What one indication does -/

variable {bssid : MacAddr} {onChannel : Bool} {res : List ScanItem}

theorem checkDuplicate_eq_none_iff (index : ℕ) (replaceIndex : Option ℕ) :
    checkDuplicate bssid onChannel index replaceIndex res = none ↔
      ∃ item ∈ res, item.bssid = bssid ∧ (item.onChannel = true ∨ onChannel = false) := by
  induction res generalizing index replaceIndex with
  | nil => simp [checkDuplicate]
  | cons item rest induction =>
      rw [checkDuplicate]
      simp only [List.mem_cons, exists_eq_or_imp]
      split
      · next same =>
          split
          · next stays => simpa [same] using Or.inl stays
          · next replaced =>
              rw [induction]
              simp only [Bool.or_eq_true, Bool.not_eq_true'] at replaced
              simp [replaced]
      · next other =>
          rw [induction]
          simp [other]

theorem checkDuplicate_eq_some {index : ℕ} {replaceIndex found : Option ℕ}
    (result : checkDuplicate bssid onChannel index replaceIndex res = some found) :
    (found = replaceIndex ∧ bssid ∉ res.map ScanItem.bssid) ∨
      ∃ place item, found = some (index + place) ∧ res[place]? = some item ∧
        item.bssid = bssid := by
  induction res generalizing index replaceIndex with
  | nil => exact Or.inl ⟨(Option.some.inj result).symm, List.not_mem_nil⟩
  | cons item rest induction =>
      rw [checkDuplicate] at result
      split at result
      · next same =>
          split at result
          · contradiction
          · rcases induction result with
              ⟨found_eq, -⟩ | ⟨place, later, found_eq, at_place, later_eq⟩
            · exact Or.inr ⟨0, item, found_eq, rfl, same⟩
            · exact Or.inr ⟨place + 1, later, by rw [found_eq]; congr 1; omega, at_place, later_eq⟩
      · next other =>
          rcases induction result with
            ⟨found_eq, absent⟩ | ⟨place, later, found_eq, at_place, later_eq⟩
          · refine Or.inl ⟨found_eq, ?_⟩
            rw [List.map_cons, List.mem_cons, not_or]
            exact ⟨fun same => other same.symm, absent⟩
          · exact Or.inr ⟨place + 1, later, by rw [found_eq]; congr 1; omega, at_place, later_eq⟩

/-- What an indication with a channel does to the set. -/
inductive Effect (res : List ScanItem) (bssid : MacAddr) (onChannel room : Bool) :
    List ScanItem → Prop
  /-- There is no room for a new item, in the set or in memory. -/
  | refused (full : room = false) : Effect res bssid onChannel room res
  /-- The BSSID has an entry that is at least as good. -/
  | kept (item : ScanItem) (member : item ∈ res) (same : item.bssid = bssid)
      (good : item.onChannel = true ∨ onChannel = false) : Effect res bssid onChannel room res
  | entered (item : ScanItem) (free : room = true) (absent : bssid ∉ res.map ScanItem.bssid)
      (same : item.bssid = bssid) (same_channel : item.onChannel = onChannel) :
      Effect res bssid onChannel room (res ++ [item])
  | replaced (place : ℕ) (old item : ScanItem) (free : room = true) (new_on : onChannel = true)
      (at_place : res[place]? = some old) (old_same : old.bssid = bssid)
      (old_off : old.onChannel = false) (same : item.bssid = bssid)
      (same_channel : item.onChannel = true) :
      Effect res bssid onChannel room (res.set place item)

variable {library : Library}

theorem isOnChannel_of_findChannel {country : WifiCountry} {ind : ScanInd} {chann : UInt8}
    (found : findChannel library country ind = some (chann, onChannel)) :
    ind.isOnChannel library = onChannel := by
  rw [findChannel] at found
  rw [ScanInd.isOnChannel]
  split at found
  · dsimp only at found
    split at found
    · simp only [Option.some.injEq, Prod.mk.injEq] at found
      exact found.2
    · contradiction
  · simp only [Option.some.injEq, Prod.mk.injEq] at found
    exact found.2

theorem effect_resultInd (library : Library) (arrival : Arrival) (res : List ScanItem) :
    Effect res arrival.ind.bssid (arrival.ind.isOnChannel library) (hasRoom library arrival res)
      (mhdrScanuResultInd library arrival.country arrival.allocated arrival.ind res) := by
  rw [mhdrScanuResultInd]
  split
  · next full => exact .refused (by simp [hasRoom, Nat.not_lt.mpr full])
  · next free =>
      split
      · next barred => exact .refused (by simp [hasRoom, barred])
      · next chann onChannel found =>
          rw [isOnChannel_of_findChannel found]
          split
          · next stays =>
              obtain ⟨item, member, same, good⟩ := (checkDuplicate_eq_none_iff 0 none).mp stays
              exact .kept item member same good
          · next replaceIndex result =>
              split
              · next got =>
                  have room : hasRoom library arrival res = true := by
                    simp [hasRoom, got, found, Nat.not_le.mp free]
                  rcases checkDuplicate_eq_some result with
                    ⟨rfl, absent⟩ | ⟨place, old, rfl, at_place, old_same⟩
                  · exact .entered _ room absent rfl rfl
                  · have worse : ¬ (old.onChannel = true ∨ onChannel = false) := by
                      intro good
                      have stays := (checkDuplicate_eq_none_iff 0 none).mpr
                        ⟨old, List.mem_of_getElem? at_place, old_same, good⟩
                      rw [result] at stays
                      contradiction
                    rw [not_or, Bool.not_eq_true, Bool.not_eq_false] at worse
                    rw [Nat.zero_add]
                    exact .replaced place old _ room worse.2 at_place old_same worse.1 rfl worse.2
              · next failed => exact .refused (by simp [hasRoom, failed])

theorem length_lt_of_hasRoom {arrival : Arrival} (room : hasRoom library arrival res = true) :
    res.length < maxBssList := by
  rw [hasRoom, Bool.and_eq_true] at room
  exact of_decide_eq_true room.1

namespace Effect

variable {room : Bool} {next : List ScanItem}

theorem length_le (effect : Effect res bssid onChannel room next)
    (bounded : res.length ≤ maxBssList) (spare : room = true → res.length < maxBssList) :
    next.length ≤ maxBssList := by
  cases effect with
  | refused _ => exact bounded
  | kept _ _ _ _ => exact bounded
  | entered item free _ _ _ =>
      rw [List.length_append]
      exact spare free
  | replaced place old item _ _ _ _ _ _ _ => rwa [List.length_set]

theorem distinct (effect : Effect res bssid onChannel room next)
    (earlier : (res.map ScanItem.bssid).Nodup) : (next.map ScanItem.bssid).Nodup := by
  cases effect with
  | refused _ => exact earlier
  | kept _ _ _ _ => exact earlier
  | entered item _ absent same _ =>
      rw [List.map_append, List.map_singleton, same, List.nodup_append_comm]
      exact List.nodup_cons.mpr ⟨absent, earlier⟩
  | replaced place old item _ _ at_place old_same _ same _ =>
      obtain ⟨inside, rfl⟩ := List.getElem?_eq_some_iff.mp at_place
      have unchanged : (res.set place item).map ScanItem.bssid = res.map ScanItem.bssid := by
        rw [List.map_set, same, ← old_same, ← List.map_set, List.set_getElem_self]
      rwa [unchanged]

variable {heard : List MacAddr}

/-- After an off-channel result the entries of what was heard on its channel are on-channel ones
unless the result is entered for such a BSSID. -/
theorem heard_iff_of_off (effect : Effect res bssid false room next)
    (earlier : ∀ item ∈ res, item.bssid ∈ heard → item.onChannel = true) :
    (∀ item ∈ next, item.bssid ∈ heard → item.onChannel = true) ↔
      (room = true → bssid ∉ res.map ScanItem.bssid → bssid ∉ heard) := by
  cases effect with
  | refused full => simpa [full] using earlier
  | kept item member same good =>
      have present : bssid ∈ res.map ScanItem.bssid := List.mem_map.mpr ⟨item, member, same⟩
      simpa [present] using earlier
  | entered item free absent same same_channel =>
      simp only [free, true_imp_iff, absent, not_false_eq_true, List.mem_append,
        List.mem_singleton]
      constructor
      · intro every was_heard
        have on := every item (Or.inr rfl) (same ▸ was_heard)
        rw [same_channel] at on
        contradiction
      · rintro unheard other (member | rfl) was_heard
        · exact earlier other member was_heard
        · exact absurd (same ▸ was_heard) unheard
  | replaced place old item free new_on _ _ _ _ _ => contradiction

/-- After an on-channel result they are on-channel ones unless there was no room to replace an
off-channel entry of its BSSID. -/
theorem heard_iff_of_on (effect : Effect res bssid true room next)
    (distinct : (res.map ScanItem.bssid).Nodup)
    (earlier : ∀ item ∈ res, item.bssid ∈ heard → item.onChannel = true) :
    (∀ item ∈ next, item.bssid ∈ heard ++ [bssid] → item.onChannel = true) ↔
      ((∃ item ∈ res, item.bssid = bssid ∧ item.onChannel = false) → room = true) := by
  have next_distinct := effect.distinct distinct
  simp only [List.mem_append, List.mem_singleton]
  cases effect with
  | refused full =>
      simp only [full, Bool.false_eq_true, imp_false]
      constructor
      · rintro every ⟨item, member, same, off⟩
        have on := every item member (Or.inr same)
        rw [off] at on
        contradiction
      · rintro none_off item member (was_heard | same)
        · exact earlier item member was_heard
        · by_contra off
          exact none_off ⟨item, member, same, Bool.not_eq_true _ ▸ off⟩
  | kept item member same good =>
      have only : ∀ other ∈ res, other.bssid = bssid → other = item := fun other other_member
        other_same => List.inj_on_of_nodup_map distinct other_member member
          (other_same.trans same.symm)
      have on : item.onChannel = true := by simpa using good
      constructor
      · rintro - ⟨other, other_member, other_same, off⟩
        rw [only other other_member other_same, on] at off
        contradiction
      · rintro - other other_member (was_heard | other_same)
        · exact earlier other other_member was_heard
        · rw [only other other_member other_same]
          exact on
  | entered item free absent same same_channel =>
      simp only [free, implies_true, iff_true, List.mem_append, List.mem_singleton]
      rintro other (member | rfl) (was_heard | other_same)
      · exact earlier other member was_heard
      · exact absurd (List.mem_map.mpr ⟨other, member, other_same⟩) absent
      · exact same_channel
      · exact same_channel
  | replaced place old item free new_on at_place old_same old_off same same_channel =>
      simp only [free, implies_true, iff_true]
      have entered : item ∈ res.set place item := by
        apply List.mem_set
        exact (List.getElem?_eq_some_iff.mp at_place).1
      rintro other member (was_heard | other_same)
      · rcases List.mem_or_eq_of_mem_set member with old_member | rfl
        · exact earlier other old_member was_heard
        · exact same_channel
      · rw [List.inj_on_of_nodup_map next_distinct member entered (other_same.trans same.symm)]
        exact same_channel

/-- When entries of what was heard on its channel are on-channel ones, they stay so exactly if the
new result is placed. -/
theorem onChannel_iff (effect : Effect res bssid onChannel room next)
    (distinct : (res.map ScanItem.bssid).Nodup)
    (earlier : ∀ item ∈ res, item.bssid ∈ heard → item.onChannel = true) :
    (∀ item ∈ next, item.bssid ∈ (if onChannel then heard ++ [bssid] else heard) →
        item.onChannel = true) ↔
      if onChannel then
        (∃ item ∈ res, item.bssid = bssid ∧ item.onChannel = false) → room = true
      else room = true → bssid ∉ res.map ScanItem.bssid → bssid ∉ heard := by
  cases onChannel with
  | false => exact effect.heard_iff_of_off earlier
  | true => exact effect.heard_iff_of_on distinct earlier

end Effect

/-! ## Every scan -/

theorem proper_step_iff {scan : Scan} (proper : Proper scan) (arrival : Arrival) :
    Proper ((machine library).step scan arrival).1 ↔ Placed library scan arrival := by
  have effect := effect_resultInd library arrival scan.res
  have on_channel := effect.onChannel_iff proper.distinct proper.onChannel
  constructor
  · intro after
    exact on_channel.mp after.onChannel
  · intro placed
    exact
      { bounded := effect.length_le proper.bounded length_lt_of_hasRoom
        distinct := effect.distinct proper.distinct
        onChannel := on_channel.mpr placed
        permuted := ExchangeSort.exchangeSort_perm _ _
        ordered := ExchangeSort.exchangeSort_pairwise _ _ }

/-- The search through the elements of a frame that has one element. -/
def oneElementLibrary : Library where
  macIeFind payload address _ id := if payload address = id then some address else none
  getSecurityTypeFromIe _ _ := 0

/-- A beacon of the BSSID with a given first byte that announces channel 1, received at a given
frequency while every channel is allowed. -/
def beacon (centerFreq : UInt16) (first : ℕ) : Arrival where
  ind :=
    { length := 39
      centerFreq := centerFreq
      rssi := -60
      payload := Memory.store (Memory.store (fun _ => 0) 16 [UInt8.ofNat first])
        macBeaconVariablePartOft [macEltidDs, 1, 1] }
  country := ⟨1, 14, false⟩
  allocated := true

/-- 32 access points are received on channel 2 and then the first of them on channel 1. -/
def crowdedScan : List Arrival := (List.range 32).map (beacon 2417) ++ [beacon 2412 0]

end BdkFreertos.ScanResult
