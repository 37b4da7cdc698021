import BdkFreertos.LinearScan
import BdkFreertos.Msdu

/-!
# Looking up a station by its address

Three functions search the MAC's station table for an address with the same loop.  The one for the
index asks after the loop whether it found anything; the ones for the entry and for the state of its
port take the entry the loop looked at last.
-/

namespace BdkFreertos.Msdu

open LinearScan

def portOpen : UInt8 := 3

/-- The station table with the states of the logical ports. -/
structure StationTables extends MacTables where
  /-- The fields `ctrl_port_state` of `sta_info_tab`. -/
  ctrlPortState : UInt8 → UInt8

/-- `MAC_ADDR_CMP` of a table entry's address. -/
def macAddrCmp (tables : MacTables) (mac : List UInt8) (index : ℕ) : Bool :=
  (tables.staInfoTab (UInt8.ofNat index)).macAddr = mac

/-- The loop of the three functions, with the counter `i` and the pointer `sta_entry` after it. -/
def staLoop (tables : MacTables) (mac : List UInt8) : ℕ × Option ℕ :=
  scan (macAddrCmp tables mac) nxRemoteStaMax 0 none

/-- The entry of a station as a place in the table, or `NULL`. -/
def rwmMgmtStaMac2ptr (tables : MacTables) (mac : List UInt8) : Option UInt8 :=
  (staLoop tables mac).2.map UInt8.ofNat

/-- Whether the port of a station is open. -/
def rwmMgmtStaMac2port (tables : StationTables) (mac : List UInt8) : UInt8 :=
  match (staLoop tables.toMacTables mac).2 with
  | some index => if tables.ctrlPortState (UInt8.ofNat index) = portOpen then 1 else 0
  | none => 0

/-! ## What the lookups should say -/

def HasEntry (tables : MacTables) (mac : List UInt8) : Prop :=
  ∃ index < nxRemoteStaMax, macAddrCmp tables mac index = true

/-- The three lookups of an address agree with the table and with each other. -/
structure LookupsAgree (tables : StationTables) (mac : List UInt8) : Prop where
  port : rwmMgmtStaMac2port tables mac = 1 ↔
    ∃ index < nxRemoteStaMax, macAddrCmp tables.toMacTables mac index = true ∧
      tables.ctrlPortState (UInt8.ofNat index) = portOpen
  ptr : (∃ entry, rwmMgmtStaMac2ptr tables.toMacTables mac = some entry) ↔
    HasEntry tables.toMacTables mac
  idx : rwmMgmtStaMac2idx tables.toMacTables mac ≠ 0xff ↔ HasEntry tables.toMacTables mac
  same : HasEntry tables.toMacTables mac →
    ∃ index < nxRemoteStaMax, macAddrCmp tables.toMacTables mac index = true ∧
      rwmMgmtStaMac2ptr tables.toMacTables mac = some (UInt8.ofNat index) ∧
      rwmMgmtStaMac2idx tables.toMacTables mac = UInt8.ofNat index

/-- The table has an entry with an address, and the first of them has an open port if any has. -/
def FirstDecides (tables : StationTables) (mac : List UInt8) : Prop :=
  ∃ first < nxRemoteStaMax, macAddrCmp tables.toMacTables mac first = true ∧
    (∀ earlier < first, macAddrCmp tables.toMacTables mac earlier = false) ∧
    ∀ other < nxRemoteStaMax, macAddrCmp tables.toMacTables mac other = true →
      tables.ctrlPortState (UInt8.ofNat other) = portOpen →
        tables.ctrlPortState (UInt8.ofNat first) = portOpen

/-! ## The loop -/

section Loop

variable {tables : MacTables} {mac : List UInt8} {first : ℕ}

theorem staLoop_of_first (bounded : first < nxRemoteStaMax)
    (fits : macAddrCmp tables mac first = true)
    (others : ∀ earlier < first, macAddrCmp tables mac earlier = false) :
    staLoop tables mac = (first, some first) := by
  exact scan_of_first (Nat.zero_le first) (by omega) fits (fun earlier _ => others earlier) none

theorem staLoop_of_absent (absent : ¬HasEntry tables mac) :
    staLoop tables mac = (nxRemoteStaMax, some (nxRemoteStaMax - 1)) := by
  refine scan_of_miss (fun entry _ bounded => ?_) none
  exact Bool.eq_false_iff.mpr fun fits => absent ⟨entry, by rw [nxRemoteStaMax]; omega, fits⟩

theorem rwmMgmtStaMac2idx_eq_find (tables : MacTables) (mac : List UInt8) :
    rwmMgmtStaMac2idx tables mac =
      match (List.range nxRemoteStaMax).find? (macAddrCmp tables mac) with
      | some index => UInt8.ofNat index
      | none => 0xff := rfl

theorem rwmMgmtStaMac2idx_eq_staLoop (tables : MacTables) (mac : List UInt8) :
    rwmMgmtStaMac2idx tables mac =
      if (staLoop tables mac).1 < nxRemoteStaMax then UInt8.ofNat (staLoop tables mac).1
      else 0xff := by
  rw [rwmMgmtStaMac2idx_eq_find]
  by_cases present : HasEntry tables mac
  · obtain ⟨first, bounded, fits, others⟩ := exists_first present
    have found : (List.range nxRemoteStaMax).find? (macAddrCmp tables mac) = some first :=
      List.find?_range_eq_some.mpr ⟨fits, List.mem_range.mpr bounded, by simpa using others⟩
    rw [staLoop_of_first bounded fits others, if_pos bounded, found]
  · have missed : (List.range nxRemoteStaMax).find? (macAddrCmp tables mac) = none := by
      rw [List.find?_eq_none]
      exact fun index member fits => present ⟨index, List.mem_range.mp member, fits⟩
    rw [staLoop_of_absent present, if_neg (Nat.lt_irrefl _), missed]

theorem ofNat_ne_invalid {index : ℕ} (bounded : index < nxRemoteStaMax) :
    UInt8.ofNat index ≠ 0xff := by
  intro invalid
  have value := congrArg UInt8.toNat invalid
  rw [nxRemoteStaMax] at bounded
  rw [UInt8.toNat_ofNat', show (0xff : UInt8).toNat = 255 from rfl] at value
  omega

theorem rwmMgmtStaMac2idx_of_first (bounded : first < nxRemoteStaMax)
    (fits : macAddrCmp tables mac first = true)
    (others : ∀ earlier < first, macAddrCmp tables mac earlier = false) :
    rwmMgmtStaMac2idx tables mac = UInt8.ofNat first := by
  rw [rwmMgmtStaMac2idx_eq_staLoop, staLoop_of_first bounded fits others, if_pos bounded]

theorem rwmMgmtStaMac2idx_of_absent (absent : ¬HasEntry tables mac) :
    rwmMgmtStaMac2idx tables mac = 0xff := by
  rw [rwmMgmtStaMac2idx_eq_staLoop, staLoop_of_absent absent, if_neg (Nat.lt_irrefl _)]

theorem rwmMgmtStaMac2idx_ne_iff :
    rwmMgmtStaMac2idx tables mac ≠ 0xff ↔ HasEntry tables mac := by
  constructor
  · intro valid
    by_contra absent
    exact valid (rwmMgmtStaMac2idx_of_absent absent)
  · intro present
    obtain ⟨first, bounded, fits, others⟩ := exists_first present
    rw [rwmMgmtStaMac2idx_of_first bounded fits others]
    exact ofNat_ne_invalid bounded

theorem rwmMgmtStaMac2ptr_of_first (bounded : first < nxRemoteStaMax)
    (fits : macAddrCmp tables mac first = true)
    (others : ∀ earlier < first, macAddrCmp tables mac earlier = false) :
    rwmMgmtStaMac2ptr tables mac = some (UInt8.ofNat first) := by
  rw [rwmMgmtStaMac2ptr, staLoop_of_first bounded fits others, Option.map_some]

theorem rwmMgmtStaMac2ptr_of_absent (absent : ¬HasEntry tables mac) :
    rwmMgmtStaMac2ptr tables mac = some (UInt8.ofNat (nxRemoteStaMax - 1)) := by
  rw [rwmMgmtStaMac2ptr, staLoop_of_absent absent, Option.map_some]

end Loop

/-! ## Agreement -/

variable {tables : StationTables} {mac : List UInt8} {first : ℕ}

theorem rwmMgmtStaMac2port_of_first (bounded : first < nxRemoteStaMax)
    (fits : macAddrCmp tables.toMacTables mac first = true)
    (others : ∀ earlier < first, macAddrCmp tables.toMacTables mac earlier = false) :
    rwmMgmtStaMac2port tables mac = 1 ↔
      tables.ctrlPortState (UInt8.ofNat first) = portOpen := by
  rw [rwmMgmtStaMac2port, staLoop_of_first bounded fits others]
  simp

/-- The lookups agree exactly if the address is in the table and the first of its entries has an
open port if any of them has. -/
theorem lookupsAgree_iff_firstDecides (tables : StationTables) (mac : List UInt8) :
    LookupsAgree tables mac ↔ FirstDecides tables mac := by
  constructor
  · intro agree
    have present : HasEntry tables.toMacTables mac := by
      by_contra absent
      exact absent (agree.ptr.mp ⟨_, rwmMgmtStaMac2ptr_of_absent absent⟩)
    obtain ⟨first, bounded, fits, others⟩ := exists_first present
    refine ⟨first, bounded, fits, others, fun other in_table fits_too opened => ?_⟩
    have reported := agree.port.mpr ⟨other, in_table, fits_too, opened⟩
    exact (rwmMgmtStaMac2port_of_first bounded fits others).mp reported
  · rintro ⟨first, bounded, fits, others, decides⟩
    have present : HasEntry tables.toMacTables mac := ⟨first, bounded, fits⟩
    have pointer := rwmMgmtStaMac2ptr_of_first bounded fits others
    refine ⟨?_, ⟨fun _ => present, fun _ => ⟨_, pointer⟩⟩, rwmMgmtStaMac2idx_ne_iff, fun _ =>
      ⟨first, bounded, fits, pointer, rwmMgmtStaMac2idx_of_first bounded fits others⟩⟩
    rw [rwmMgmtStaMac2port_of_first bounded fits others]
    constructor
    · exact fun opened => ⟨first, bounded, fits, opened⟩
    · rintro ⟨other, in_table, fits_too, opened⟩
      exact decides other in_table fits_too opened

/-- A table of two stations, the second with an open port. -/
def twoStations : StationTables where
  vifInfoTab _ := { type := .ap, active := true, apId := 0, acm := 0 }
  staInfoTab index :=
    { macAddr := [2, 0, 0, 0, 0, index], psState := 0, instNbr := 0, aid := 1, capaFlags := 0 }
  macTid2ac _ := 0
  ctrlPortState index := if index = 1 then portOpen else 0

/-- The port of a station that is not in the table is reported open. -/
theorem absent_station_has_open_port : ¬LookupsAgree twoStations [2, 0, 0, 0, 0, 9] := by
  intro agree
  obtain ⟨index, bounded, fits, -⟩ := agree.port.mp (by decide)
  rw [nxRemoteStaMax] at bounded
  obtain rfl | rfl : index = 0 ∨ index = 1 := by omega
  · exact absurd fits (by decide)
  · exact absurd fits (by decide)

end BdkFreertos.Msdu
