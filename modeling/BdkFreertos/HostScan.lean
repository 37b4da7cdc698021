import BdkFreertos.FuelLoop
import BdkFreertos.Memory
import Mathlib.Data.UInt

/-!
# The scan command of the host

The command ends with a list of elements, each a type, a length and so many bytes.  The walk over
them keeps how much is left and where the next element is, and computes the two separately.
-/

namespace BdkFreertos.HostScan

/-- `STM32_CMD_802_11_SCAN_S`: the size in its header, and the memory from `tlvbuffer` on. -/
structure ScanCommand where
  size : UInt16
  tlvbuffer : Memory UInt8

/-- The offset of `tlvbuffer`: a header of eight bytes, `bsstype` and `bssid`. -/
def tlvbufferOffset : ℕ := 15

/-- `sizeof(MRVL_IE_HDR_S)`. -/
def mrvlIeHdrSize : ℕ := 4

/-- `TLV_TYPE_SSID`. -/
def tlvTypeSsid : ℕ := 0x0000

/-- `TLV_TYPE_CHANLIST`. -/
def tlvTypeChanlist : ℕ := 0x0101

def loadHalf (memory : Memory UInt8) (place : ℕ) : ℕ :=
  (memory place).toNat + 2 ^ 8 * (memory (place + 1)).toNat

/-- `mrvl_ie_ptr->type`. -/
def ScanCommand.type (command : ScanCommand) (pos : ℕ) : ℕ := loadHalf command.tlvbuffer pos

/-- `mrvl_ie_ptr->len`. -/
def ScanCommand.len (command : ScanCommand) (pos : ℕ) : ℕ := loadHalf command.tlvbuffer (pos + 2)

/-! ## The scan request -/

/-- `sizeof(struct scan_start_req)`. -/
def scanStartReqSize : ℕ := 336

/-- The offset of `ssid[ssid_id]`, behind 42 channels of six bytes. -/
def ssidOffset (ssidId : ℕ) : ℕ := 252 + 33 * ssidId

def bssidOffset : ℕ := 318

def addIesOffset : ℕ := 324

def addIeLenOffset : ℕ := 328

def chanCntOffset : ℕ := 331

def ssidCntOffset : ℕ := 332

/-- `freq_2_4_G`. -/
def freq24G : List ℕ :=
  [2412, 2417, 2422, 2427, 2432, 2437, 2442, 2447, 2452, 2457, 2462, 2467, 2472, 2484]

/-- Bytes that are written into the request. -/
structure Write where
  offset : ℕ
  bytes : List UInt8

def Write.Inside (write : Write) : Prop := write.offset + write.bytes.length ≤ scanStartReqSize

instance (write : Write) : Decidable write.Inside := inferInstanceAs (Decidable (_ ≤ _))

def request (writes : List Write) : Memory UInt8 :=
  writes.foldl (fun request write => request.store write.offset write.bytes) fun _ => 0

/-! ## The walk -/

/-- `mrvl_ie_ptr` from `tlvbuffer` on, the other variables of the loop, what has been written and
the elements that were visited. -/
structure Walk where
  pos : ℕ
  ieTotalLen : UInt32
  ssidId : ℕ
  channelId : ℕ
  writes : List Write
  visited : List ℕ

/-- `TLV_TYPE_SSID`. -/
def ssidWrites (command : ScanCommand) (pos ssidId : ℕ) : List Write :=
  [⟨ssidOffset ssidId, [UInt8.ofNat (command.len pos)]⟩,
    ⟨ssidOffset ssidId + 1, command.tlvbuffer.load (pos + mrvlIeHdrSize) (command.len pos)⟩,
    ⟨ssidCntOffset, [UInt8.ofNat (ssidId + 1)]⟩]

/-- One channel: its band, its flags and its frequency. -/
def channelWrites (i : ℕ) : List Write :=
  [⟨6 * i + 2, [0]⟩, ⟨6 * i + 3, [0]⟩,
    ⟨6 * i, [UInt8.ofNat freq24G[i]!, UInt8.ofNat (freq24G[i]! / 2 ^ 8)]⟩]

/-- `TLV_TYPE_CHANLIST`. -/
def chanlistWrites (channelId : ℕ) : List Write :=
  (List.range 14).flatMap channelWrites ++ [⟨chanCntOffset, [UInt8.ofNat (channelId + 14)]⟩]

/-- The body of the loop. -/
def walkStep (command : ScanCommand) (walk : Walk) : Walk :=
  let len := command.len walk.pos
  let type := command.type walk.pos
  let walk :=
    { walk with
      ieTotalLen := walk.ieTotalLen - UInt32.ofNat (len + mrvlIeHdrSize)
      visited := walk.visited ++ [walk.pos] }
  let walk :=
    if type = tlvTypeSsid then
      { walk with
        ssidId := walk.ssidId + 1
        writes := walk.writes ++ ssidWrites command walk.pos walk.ssidId }
    else if type = tlvTypeChanlist then
      { walk with
        channelId := walk.channelId + 14
        writes := walk.writes ++ chanlistWrites walk.channelId }
    else walk
  -- The next element is counted from the start of the area.
  { walk with pos := len + mrvlIeHdrSize }

/-- Before the loop. -/
def walkStart (command : ScanCommand) : Walk where
  pos := 0
  ieTotalLen := command.size.toUInt32 - UInt32.ofNat tlvbufferOffset
  ssidId := 0
  channelId := 0
  writes := []
  visited := []

/-- What is written behind the loop. -/
def lastWrites : List Write :=
  [⟨bssidOffset, List.replicate 6 0xff⟩, ⟨ssidCntOffset, [1]⟩, ⟨ssidOffset 0, [0]⟩,
    ⟨addIesOffset, [0, 0, 0, 0]⟩, ⟨addIeLenOffset, [0, 0]⟩]

/-- The walk of `cmd_conversion_802_11_scan`, with fuel for its loop. -/
def cmdConversion80211Scan (fuel : ℕ) (command : ScanCommand) : Option Walk :=
  (FuelLoop.loop (fun walk => walk.ieTotalLen == 0) (walkStep command) fuel
      (walkStart command)).map fun walk => { walk with writes := walk.writes ++ lastWrites }

/-! ## What is meant -/

def ScanCommand.area (command : ScanCommand) : ℕ := command.size.toNat - tlvbufferOffset

/-- The elements from a position on are well formed, and these are their positions. -/
def ScanCommand.Elements (command : ScanCommand) : ℕ → List ℕ → Prop
  | pos, [] => pos = command.area
  | pos, first :: later =>
      first = pos ∧ command.Elements (pos + mrvlIeHdrSize + command.len pos) later

instance decidableElements (command : ScanCommand) :
    ∀ pos positions, Decidable (command.Elements pos positions)
  | _, [] => inferInstanceAs (Decidable (_ = _))
  | pos, _ :: later =>
      have := decidableElements command (pos + mrvlIeHdrSize + command.len pos) later
      inferInstanceAs (Decidable (_ ∧ _))

/-- A walk visits elements inside the area only, writes inside the request only, and visits
well-formed elements once and in order. -/
structure WalksWell (command : ScanCommand) (final : Walk) : Prop where
  read : ∀ pos ∈ final.visited, pos + mrvlIeHdrSize + command.len pos ≤ command.area
  written : ∀ write ∈ final.writes, write.Inside
  complete : ∀ positions, command.Elements 0 positions → final.visited = positions

/-- Where the n-th element is looked for. -/
def ScanCommand.position (command : ScanCommand) : ℕ → ℕ
  | 0 => 0
  | n + 1 => command.len (command.position n) + mrvlIeHdrSize

/-- The sum of the first positions behind the start. -/
def ScanCommand.total (command : ScanCommand) : ℕ → ℕ
  | 0 => 0
  | n + 1 => command.total n + command.position (n + 1)

/-- How many of the elements before the n-th are network names. -/
def ScanCommand.ssids (command : ScanCommand) : ℕ → ℕ
  | 0 => 0
  | n + 1 =>
      command.ssids n + if command.type (command.position n) = tlvTypeSsid then 1 else 0

/-- The lengths lead to the end of the area over elements inside it, with names that have room in
the request, and no more than two elements are well formed. -/
structure ScanCommand.Consistent (command : ScanCommand) : Prop where
  header : tlvbufferOffset ≤ command.size.toNat
  chain : ∃ count, command.total count % 2 ^ 32 = command.area ∧ ∀ n < count,
    command.position n + command.position (n + 1) ≤ command.area ∧
      (command.type (command.position n) = tlvTypeSsid →
        ssidOffset (command.ssids n) + 1 + command.len (command.position n) ≤ scanStartReqSize)
  few : ∀ positions, command.Elements 0 positions → positions.length ≤ 2

/-! ## The writes of one element -/

theorem ssidWrites_inside_iff (command : ScanCommand) (pos ssidId : ℕ) :
    (∀ write ∈ ssidWrites command pos ssidId, write.Inside) ↔
      ssidOffset ssidId + 1 + command.len pos ≤ scanStartReqSize := by
  have count_inside : ssidCntOffset + 1 ≤ scanStartReqSize := by decide
  simp only [ssidWrites, List.forall_mem_cons, Write.Inside, List.length_singleton,
    Memory.length_load, List.not_mem_nil, false_imp_iff, implies_true, and_true, count_inside]
  omega

theorem chanlistWrites_inside (channelId : ℕ) :
    ∀ write ∈ chanlistWrites channelId, write.Inside := by
  intro write member
  rcases List.mem_append.mp member with channel | count
  · obtain ⟨i, inside, member⟩ := List.mem_flatMap.mp channel
    have inside := List.mem_range.mp inside
    simp only [channelWrites, List.mem_cons, List.not_mem_nil, or_false] at member
    rcases member with rfl | rfl | rfl <;>
      simp only [Write.Inside, scanStartReqSize, List.length_cons, List.length_nil] <;> omega
  · rw [List.mem_singleton.mp count]
    exact (by decide : chanCntOffset + 1 ≤ scanStartReqSize)

theorem lastWrites_inside : ∀ write ∈ lastWrites, write.Inside := by
  decide

/-! ## The walk after so many rounds -/

variable (command : ScanCommand)

def walkAt (n : ℕ) : Walk := (walkStep command)^[n] (walkStart command)

theorem walkAt_succ (n : ℕ) : walkAt command (n + 1) = walkStep command (walkAt command n) :=
  Function.iterate_succ_apply' (walkStep command) n (walkStart command)

theorem walkAt_pos (n : ℕ) : (walkAt command n).pos = command.position n := by
  induction n with
  | zero => rfl
  | succ n induction =>
      rw [walkAt_succ, ScanCommand.position, ← induction]
      rfl

variable {positions : List ℕ} {rounds : ℕ} (walk : Walk)

@[simp]
theorem walkStep_visited : (walkStep command walk).visited = walk.visited ++ [walk.pos] := by
  simp only [walkStep]
  split_ifs <;> rfl

@[simp]
theorem walkStep_ieTotalLen :
    (walkStep command walk).ieTotalLen =
      walk.ieTotalLen - UInt32.ofNat (command.len walk.pos + mrvlIeHdrSize) := by
  simp only [walkStep]
  split_ifs <;> rfl

@[simp]
theorem walkStep_ssidId :
    (walkStep command walk).ssidId =
      walk.ssidId + if command.type walk.pos = tlvTypeSsid then 1 else 0 := by
  simp only [walkStep]
  split_ifs <;> rfl

theorem walkStep_writes_inside_iff :
    (∀ write ∈ (walkStep command walk).writes, write.Inside) ↔
      (∀ write ∈ walk.writes, write.Inside) ∧
        (command.type walk.pos = tlvTypeSsid →
          ssidOffset walk.ssidId + 1 + command.len walk.pos ≤ scanStartReqSize) := by
  have split_append (front back : List Write) :
      (∀ write ∈ front ++ back, write.Inside) ↔
        (∀ write ∈ front, write.Inside) ∧ ∀ write ∈ back, write.Inside := by
    simp only [List.mem_append, or_imp, forall_and]
  simp only [walkStep]
  split_ifs with name channels
  · simp only [split_append, ssidWrites_inside_iff, name, forall_const]
  · simp only [split_append, name, false_imp_iff, and_true]
    exact and_iff_left (chanlistWrites_inside walk.channelId)
  · simp only [name, false_imp_iff, and_true]

theorem walkAt_visited (n : ℕ) :
    (walkAt command n).visited = (List.range n).map command.position := by
  induction n with
  | zero => rfl
  | succ n induction =>
      rw [walkAt_succ, walkStep_visited, induction, walkAt_pos, List.range_succ, List.map_append]
      rfl

theorem walkAt_ssidId (n : ℕ) : (walkAt command n).ssidId = command.ssids n := by
  induction n with
  | zero => rfl
  | succ n induction => rw [walkAt_succ, walkStep_ssidId, induction, walkAt_pos, ScanCommand.ssids]

theorem walkAt_writes_inside_iff (n : ℕ) :
    (∀ write ∈ (walkAt command n).writes, write.Inside) ↔
      ∀ earlier < n, command.type (command.position earlier) = tlvTypeSsid →
        ssidOffset (command.ssids earlier) + 1 + command.len (command.position earlier) ≤
          scanStartReqSize := by
  induction n with
  | zero => simp [walkAt, walkStart]
  | succ n induction =>
      rw [walkAt_succ, walkStep_writes_inside_iff, induction, walkAt_pos, walkAt_ssidId,
        Nat.forall_lt_succ_right]

theorem walkAt_ieTotalLen (n : ℕ) :
    (walkAt command n).ieTotalLen =
      command.size.toUInt32 - UInt32.ofNat (tlvbufferOffset + command.total n) := by
  induction n with
  | zero => rfl
  | succ n induction =>
      rw [walkAt_succ, walkStep_ieTotalLen, induction, walkAt_pos, ScanCommand.total,
        ScanCommand.position, ← Nat.add_assoc, UInt32.ofNat_add (tlvbufferOffset + _)]
      grind

theorem walkAt_done_iff (header : tlvbufferOffset ≤ command.size.toNat) (n : ℕ) :
    ((walkAt command n).ieTotalLen == 0) = true ↔ command.total n % 2 ^ 32 = command.area := by
  have size_lt := command.size.toNat_lt
  rw [beq_iff_eq, walkAt_ieTotalLen, UInt32.sub_eq_iff_eq_add, UInt32.zero_add,
    ← UInt32.toNat_inj, UInt16.toNat_toUInt32, UInt32.toNat_ofNat', ScanCommand.area]
  simp only [tlvbufferOffset] at header ⊢
  omega

theorem walkAt_zero_goes_on (short : command.size.toNat < tlvbufferOffset) :
    ((walkAt command 0).ieTotalLen == 0) = false := by
  have size_lt := command.size.toNat_lt
  rw [beq_eq_false_iff_ne, walkAt_ieTotalLen]
  intro none
  rw [UInt32.sub_eq_iff_eq_add, UInt32.zero_add, ← UInt32.toNat_inj, UInt16.toNat_toUInt32,
    UInt32.toNat_ofNat'] at none
  simp only [ScanCommand.total, tlvbufferOffset] at none short
  omega

/-! ## Well-formed elements -/

theorem few_of_visited (elements : command.Elements 0 positions)
    (visited : (List.range rounds).map command.position = positions) : positions.length ≤ 2 := by
  by_contra many
  have long : 2 < rounds := by
    have length_eq := congrArg List.length visited
    rw [List.length_map, List.length_range] at length_eq
    omega
  have third : positions[2]? = some (command.position 2) := by
    rw [← visited, List.getElem?_map, List.getElem?_range long]
    rfl
  rcases positions with _ | ⟨_, _ | ⟨second, _ | ⟨place, later⟩⟩⟩
  · exact many (Nat.zero_le 2)
  · exact many (by decide : 1 ≤ 2)
  · exact many (by decide : 2 ≤ 2)
  · obtain ⟨-, -, place_eq, -⟩ := elements
    have third : place = command.position 2 := Option.some.inj third
    simp only [place_eq, ScanCommand.position, mrvlIeHdrSize, Nat.zero_add,
      Nat.add_comm 4] at third
    omega

theorem visited_of_few (elements : command.Elements 0 positions) (few : positions.length ≤ 2)
    (ends : command.total rounds % 2 ^ 32 = command.area)
    (first : ∀ earlier < rounds, command.total earlier % 2 ^ 32 ≠ command.area) :
    (List.range rounds).map command.position = positions := by
  have size_lt := command.size.toNat_lt
  have area_lt : command.area < 2 ^ 16 := by
    rw [ScanCommand.area]
    omega
  have rounds_eq {last : ℕ} (reached : command.total last % 2 ^ 32 = command.area)
      (later : ∀ earlier < last, command.total earlier % 2 ^ 32 ≠ command.area) :
      rounds = last := by
    rcases Nat.lt_trichotomy rounds last with before | same | behind
    · exact absurd ends (later rounds before)
    · exact same
    · exact absurd reached (first last behind)
  rcases positions with _ | ⟨start, _ | ⟨second, _ | ⟨place, later⟩⟩⟩
  · have none : 0 = command.area := elements
    obtain rfl := @rounds_eq 0 none nofun
    rfl
  · obtain ⟨rfl, area_eq⟩ := elements
    simp only [ScanCommand.Elements, mrvlIeHdrSize] at area_eq
    obtain rfl : rounds = 1 := by
      refine rounds_eq ?_ fun earlier before => ?_
      · simp only [ScanCommand.total, ScanCommand.position, mrvlIeHdrSize]
        omega
      · obtain rfl : earlier = 0 := Nat.lt_one_iff.mp before
        simp only [ScanCommand.total]
        omega
    rfl
  · obtain ⟨rfl, rfl, area_eq⟩ := elements
    simp only [ScanCommand.Elements, mrvlIeHdrSize, Nat.zero_add, Nat.add_comm 4] at area_eq
    obtain rfl : rounds = 2 := by
      refine rounds_eq ?_ fun earlier before => ?_
      · simp only [ScanCommand.total, ScanCommand.position, mrvlIeHdrSize]
        omega
      · obtain rfl | rfl : earlier = 0 ∨ earlier = 1 := by omega
        · simp only [ScanCommand.total]
          omega
        · simp only [ScanCommand.total, ScanCommand.position, mrvlIeHdrSize]
          omega
    simp [List.range_succ, ScanCommand.position, mrvlIeHdrSize, Nat.add_comm 4]
  · exact absurd few (by simp)

/-! ## Whole commands -/

theorem exists_of_converted {fuel : ℕ} {final : Walk}
    (converted : cmdConversion80211Scan fuel command = some final) :
    ∃ rounds, final =
        { walkAt command rounds with writes := (walkAt command rounds).writes ++ lastWrites } ∧
      ((walkAt command rounds).ieTotalLen == 0) = true ∧
      ∀ earlier < rounds, ((walkAt command earlier).ieTotalLen == 0) = false := by
  obtain ⟨walk, returned, rfl⟩ := Option.map_eq_some_iff.mp converted
  obtain ⟨rounds, rfl, ends⟩ := FuelLoop.exists_endsAfter returned
  exact ⟨rounds, rfl, ends.ends, ends.first⟩

theorem writes_inside_iff (writes : List Write) :
    (∀ write ∈ writes ++ lastWrites, write.Inside) ↔ ∀ write ∈ writes, write.Inside := by
  simp only [List.mem_append, or_imp, forall_and]
  exact and_iff_left lastWrites_inside

theorem read_inside_iff (rounds : ℕ) :
    (∀ pos ∈ (walkAt command rounds).visited,
        pos + mrvlIeHdrSize + command.len pos ≤ command.area) ↔
      ∀ n < rounds, command.position n + command.position (n + 1) ≤ command.area := by
  simp [walkAt_visited, ScanCommand.position, Nat.add_assoc, Nat.add_comm mrvlIeHdrSize]

/-- The conversion of a scan command ends, reads and writes inside its bounds and visits
well-formed elements once and in order exactly if the lengths are consistent. -/
theorem scan_walksWell_iff :
    (∃ fuel final, cmdConversion80211Scan fuel command = some final ∧ WalksWell command final) ↔
      command.Consistent := by
  constructor
  · rintro ⟨fuel, final, converted, walksWell⟩
    obtain ⟨rounds, rfl, ended, -⟩ := exists_of_converted command converted
    have read := (read_inside_iff command rounds).mp walksWell.read
    have written := (walkAt_writes_inside_iff command rounds).mp
      ((writes_inside_iff _).mp walksWell.written)
    have header : tlvbufferOffset ≤ command.size.toNat := by
      by_contra short
      have some_rounds : 0 < rounds := by
        refine Nat.pos_of_ne_zero fun none => ?_
        subst none
        rw [walkAt_zero_goes_on command (Nat.lt_of_not_le short)] at ended
        exact Bool.false_ne_true ended
      have first := read 0 some_rounds
      simp only [ScanCommand.position, mrvlIeHdrSize, ScanCommand.area] at first
      omega
    refine ⟨header, ⟨rounds, (walkAt_done_iff command header rounds).mp ended, fun n before =>
      ⟨read n before, written n before⟩⟩, fun positions elements => ?_⟩
    have visited := walksWell.complete positions elements
    exact few_of_visited command elements ((walkAt_visited command rounds).symm.trans visited)
  · rintro ⟨header, ⟨count, ends, inside⟩, few⟩
    obtain ⟨rounds, bounded, ⟨ended, first⟩, returned⟩ :=
      @FuelLoop.exists_loop Walk (fun walk => walk.ieTotalLen == 0) (walkStep command)
        (walkStart command) count ((walkAt_done_iff command header count).mpr ends)
    refine ⟨count, { walkAt command rounds with
      writes := (walkAt command rounds).writes ++ lastWrites }, ?_, ?_, ?_, ?_⟩
    · rw [cmdConversion80211Scan, returned]
      rfl
    · exact (read_inside_iff command rounds).mpr fun n before =>
        (inside n (before.trans_le bounded)).1
    · exact (writes_inside_iff _).mpr ((walkAt_writes_inside_iff command rounds).mpr
        fun n before => (inside n (before.trans_le bounded)).2)
    · intro positions elements
      refine (walkAt_visited command rounds).trans (visited_of_few command elements
        (few positions elements) ((walkAt_done_iff command header rounds).mp ended)
        fun earlier before reached => ?_)
      have goesOn := first earlier before
      exact Bool.false_ne_true
        (goesOn.symm.trans ((walkAt_done_iff command header earlier).mpr reached))

/-- Three elements without contents. -/
def threeElements : ScanCommand where
  size := 27
  tlvbuffer place := if place % 4 = 0 then 1 else 0

/-- The third of three elements is looked for where the second is. -/
theorem scan_not_walksWell :
    ¬∀ command : ScanCommand, ∃ fuel final,
      cmdConversion80211Scan fuel command = some final ∧ WalksWell command final := by
  intro every
  obtain ⟨fuel, final, converted, walksWell⟩ := every threeElements
  obtain ⟨rounds, rfl, -, -⟩ := exists_of_converted threeElements converted
  have elements : threeElements.Elements 0 [0, 4, 8] := by
    decide +kernel
  have visited := (walkAt_visited threeElements rounds).symm.trans (walksWell.complete _ elements)
  exact absurd (few_of_visited threeElements elements visited) (by decide)

end BdkFreertos.HostScan
