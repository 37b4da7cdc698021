import BdkFreertos.Machine
import BdkFreertos.MacFrame
import Mathlib.Data.List.Nodup
import Mathlib.Data.List.Range

/-!
# The L-SIG monitor

A length heard after an RTS is reported as a data frame of the pair the RTS was for, once a beacon has
told the security of the pair's receiver.  A table entry starts with whatever sequence number its
place of the table held before; the sentinel security keeps it silent until a beacon sets both.
Every entry remembers the number of its creation.
-/

namespace BdkFreertos.LsigMonitor

/-- `MAX_RTS_TBL`. -/
def maxRtsTbl : ℕ := 32

def unknownSecurity : UInt8 := 0xFF

def wlanEncOpen : UInt8 := 0

def wlanEncCcmp : UInt8 := 2

def wlanEncTkip : UInt8 := 3

/-- `struct rts_cts_st`. -/
structure RtsCtsSt where
  ra : MacAddr
  ta : MacAddr
  rssi : Int8
  security : UInt8
  seq : UInt16
  lastLen : BitVec 32
  lastTime : UInt32
  born : ℕ
  deriving DecidableEq

/-- `struct rts_cts_pkt_info`. -/
structure RtsCtsPktInfo where
  ra : MacAddr
  ta : MacAddr
  rssi : Int8
  timeMs : UInt32

/-- What the monitor callback is given, and the entry it is given for. -/
structure Report where
  entry : RtsCtsSt
  data : List UInt8
  len : BitVec 32
  rssi : ℤ

structure State where
  rtsTbl : Memory RtsCtsSt
  lastRts : RtsCtsPktInfo
  rtsTblNum : ℕ
  born : ℕ

def zeroAddr : MacAddr := Vector.replicate 6 0

/-- The static variables as the program starts. -/
def boot : State where
  rtsTbl _ := ⟨zeroAddr, zeroAddr, 0, 0, 0, 0, 0, 0⟩
  lastRts := ⟨zeroAddr, zeroAddr, 0, 0⟩
  rtsTblNum := 0
  born := 0

/-- `lsig_init`; the table keeps its contents. -/
def lsigInit (state : State) : State :=
  { state with lastRts := ⟨zeroAddr, zeroAddr, 0, 0⟩, rtsTblNum := 0 }

/-- `rts_update`. -/
def rtsUpdate (state : State) (data : Memory UInt8) (rssi : Int8) (timeMs : UInt32) : State :=
  { state with lastRts := ⟨loadAddr data 4, loadAddr data 10, -rssi, timeMs⟩ }

/-- What `beacon_update` makes of one entry. -/
def learn (bssid : MacAddr) (security : UInt8) (entry : RtsCtsSt) : RtsCtsSt :=
  if entry.security ≠ unknownSecurity then
    entry
  else if entry.ra = bssid then
    { entry with security := security, seq := 1 }
  else entry

/-- `beacon_update`. -/
def beaconUpdate (state : State) (bssid : MacAddr) (security : UInt8) : State :=
  { state with
    rtsTbl := fun i =>
      if i < state.rtsTblNum then learn bssid security (state.rtsTbl i) else state.rtsTbl i }

/-- The bytes of the cipher's header. -/
def vectorBytes (security : UInt8) : List UInt8 :=
  if security = wlanEncCcmp then
    [0, 0, 0, 0x20]
  else if security = wlanEncTkip then
    [1, (1 ||| 0x20) &&& 0x7F, 0, 0x20]
  else [0, 0, 0, 0]

/-- The part of `data` that `report_lsig` fills. -/
def reportData (entry : RtsCtsSt) : List UInt8 :=
  [(0x88 : UInt8), if entry.security = wlanEncOpen then 0x1 else 0x41, 0x30, 0] ++
    (entry.ra.toList ++ (entry.ta.toList ++ (List.replicate 6 (0xFF : UInt8) ++
      (halfBytes (entry.seq <<< 4) ++ (0 :: 0 :: vectorBytes entry.security)))))

/-- `report_lsig`, at the given time. -/
def reportLsig (len : BitVec 32) (rssi : Int8) (time : UInt32) (entry : RtsCtsSt) :
    RtsCtsSt × List Report :=
  if entry.security = unknownSecurity then
    (entry, [])
  else if len = entry.lastLen ∧ time < entry.lastTime + 2 then
    ({ entry with lastTime := time }, [])
  else if len.toInt < 24 then
    (entry, [])
  else
    ({ entry with seq := entry.seq + 1, lastLen := len, lastTime := time },
      [⟨entry, reportData entry, len, -rssi.toInt⟩])

/-- The table, the reports and `reported` after the loop of `lsig_input`. -/
structure Scanned where
  rtsTbl : Memory RtsCtsSt
  reports : List Report
  reported : ℕ

/-- The loop of `lsig_input` from entry `i` on; `clock i` is the time at which entry `i` is
visited. -/
def scan (lastRts : RtsCtsPktInfo) (rtsMatch : Bool) (len : BitVec 32) (rssi : Int8)
    (clock : ℕ → UInt32) : ℕ → ℕ → Memory RtsCtsSt → Scanned
  | 0, _, rtsTbl => ⟨rtsTbl, [], 0⟩
  | left + 1, i, rtsTbl =>
      let entry := rtsTbl i
      let (reported, reports) := reportLsig len rssi (clock i) entry
      if rtsMatch then
        if lastRts.ra = entry.ra ∧ lastRts.ta = entry.ta then
          ⟨rtsTbl.store i [reported], reports, 1⟩
        else scan lastRts rtsMatch len rssi clock left (i + 1) rtsTbl
      else
        let delta := entry.rssi.toInt - rssi.toInt
        if delta > -5 ∧ delta < 5 then
          let rest :=
            scan lastRts rtsMatch len rssi clock left (i + 1) (rtsTbl.store i [reported])
          ⟨rest.rtsTbl, reports ++ rest.reports, rest.reported + 1⟩
        else scan lastRts rtsMatch len rssi clock left (i + 1) rtsTbl

/-- `rep_index` and `min_time` after so many rounds of the loop that looks for the entry to
replace. -/
def oldest (rtsTbl : Memory RtsCtsSt) : ℕ → ℕ × UInt32
  | 0 => (0, (rtsTbl 0).lastTime)
  | i + 1 =>
      let (repIndex, minTime) := oldest rtsTbl i
      if minTime > (rtsTbl (i + 1)).lastTime then (i + 1, (rtsTbl (i + 1)).lastTime)
      else (repIndex, minTime)

/-- What `lsig_input` makes of the entry it takes for the last RTS. -/
def renew (state : State) (len : BitVec 32) (rssi : Int8) (time : UInt32) (entry : RtsCtsSt) :
    RtsCtsSt :=
  { entry with
    ra := state.lastRts.ra
    ta := state.lastRts.ta
    security := unknownSecurity
    rssi := rssi
    lastTime := time
    lastLen := len
    born := state.born }

/-- The frames reported, the entry created and the entry it replaces. -/
structure Output where
  reports : List Report
  created : Option ℕ
  evicted : Option RtsCtsSt

def Output.silent : Output := ⟨[], none, none⟩

@[simp]
theorem Output.reports_silent : Output.silent.reports = [] := rfl

@[simp]
theorem Output.created_silent : Output.silent.created = none := rfl

def rtsMatches (state : State) (timeMs : UInt32) : Bool := state.lastRts.timeMs + 1 > timeMs

/-- `lsig_input`; `clock i` is the time at which entry `i` is visited, and after the loop the time
is that of the place after the last one. -/
def lsigInput (state : State) (len : BitVec 32) (rssi : Int8) (timeMs : UInt32)
    (clock : ℕ → UInt32) : State × Output :=
  let len := len - 8
  let rtsMatch := rtsMatches state timeMs
  let scanned := scan state.lastRts rtsMatch len rssi clock state.rtsTblNum 0 state.rtsTbl
  let time := clock state.rtsTblNum
  if rtsMatch = false ∨ scanned.reported ≠ 0 then
    ({ state with rtsTbl := scanned.rtsTbl }, ⟨scanned.reports, none, none⟩)
  else if state.rtsTblNum < maxRtsTbl then
    let entry := renew state len rssi time (scanned.rtsTbl state.rtsTblNum)
    ({ state with
        rtsTbl := scanned.rtsTbl.store state.rtsTblNum [entry]
        rtsTblNum := state.rtsTblNum + 1
        born := state.born + 1 },
      ⟨scanned.reports, some state.born, none⟩)
  else
    let repIndex := (oldest scanned.rtsTbl (maxRtsTbl - 1)).1
    let entry := renew state len rssi time (scanned.rtsTbl repIndex)
    ({ state with
        rtsTbl := scanned.rtsTbl.store repIndex [entry]
        born := state.born + 1 },
      ⟨scanned.reports, some state.born, some (scanned.rtsTbl repIndex)⟩)

inductive Event
  | lsigInit
  | rtsUpdate (data : Memory UInt8) (rssi : Int8) (timeMs : UInt32)
  | beaconUpdate (bssid : MacAddr) (security : UInt8)
  | lsigInput (len : BitVec 32) (rssi : Int8) (timeMs : UInt32) (clock : ℕ → UInt32)

def machine : Machine State Event Output where
  step state
    | .lsigInit => (lsigInit state, .silent)
    | .rtsUpdate data rssi timeMs => (rtsUpdate state data rssi timeMs, .silent)
    | .beaconUpdate bssid security => (beaconUpdate state bssid security, .silent)
    | .lsigInput len rssi timeMs clock => lsigInput state len rssi timeMs clock

/-! ## What is observed of the monitor -/

/-- The twelve bits of the sequence number in a frame's header. -/
def Report.sequenceNumber (report : Report) : ℕ :=
  (halfOfBytes (report.data.getD 22 0) (report.data.getD 23 0)).toNat / 2 ^ 4

/-- The sequence numbers of the frames reported for one entry, in order. -/
def numbersOf (reports : List Report) (born : ℕ) : List ℕ :=
  (reports.filter fun report => report.entry.born = born).map Report.sequenceNumber

/-- The numbers 1, 2, 3, … of so many frames, in twelve bits. -/
def countUp (frames : ℕ) : List ℕ :=
  (List.range frames).map fun earlier => (earlier + 1) % 2 ^ 12

def reportsOf (outputs : List Output) : List Report := outputs.flatMap Output.reports

/-- The entry was created, and later a beacon of its receiver told its security. -/
def Learnt (events : List Event) (outputs : List Output) (entry : RtsCtsSt) : Prop :=
  entry.security ≠ unknownSecurity ∧
    ∃ made heard : ℕ, made < heard ∧
      outputs[made]?.bind Output.created = some entry.born ∧
      events[heard]? = some (Event.beaconUpdate entry.ra entry.security)

def State.pairs (state : State) : List (MacAddr × MacAddr) :=
  (state.rtsTbl.load 0 state.rtsTblNum).map fun entry => (entry.ra, entry.ta)

/-! ## One report -/

variable {rtsTbl : Memory RtsCtsSt} (entry : RtsCtsSt)

theorem sequenceNumber_reportData (len : BitVec 32) (rssi : ℤ) :
    Report.sequenceNumber ⟨entry, reportData entry, len, rssi⟩ = entry.seq.toNat % 2 ^ 12 := by
  have placed : (reportData entry).drop 22 =
      halfBytes (entry.seq <<< 4) ++ (0 :: 0 :: vectorBytes entry.security) := by
    have receiver : entry.ra.toList.drop 18 = [] := List.drop_eq_nil_of_le (by simp)
    have transmitter : entry.ta.toList.drop 12 = [] := List.drop_eq_nil_of_le (by simp)
    simp [reportData, List.drop_append, receiver, transmitter]
  have low : (reportData entry).getD 22 0 = UInt8.ofNat (entry.seq <<< 4).toNat := by
    have cell : ((reportData entry).drop 22)[0]? = some (UInt8.ofNat (entry.seq <<< 4).toNat) := by
      rw [placed]
      rfl
    rw [List.getElem?_drop] at cell
    simp [cell]
  have high : (reportData entry).getD 23 0 =
      UInt8.ofNat ((entry.seq <<< 4).toNat / 2 ^ 8) := by
    have cell : ((reportData entry).drop 22)[1]? =
        some (UInt8.ofNat ((entry.seq <<< 4).toNat / 2 ^ 8)) := by
      rw [placed]
      rfl
    rw [List.getElem?_drop] at cell
    simp [cell]
  have shifted : (entry.seq <<< 4).toNat = entry.seq.toNat * 2 ^ 4 % 2 ^ 16 := by
    rw [UInt16.toNat_shiftLeft, Nat.shiftLeft_eq]
    rfl
  simp only [Report.sequenceNumber, low, high, halfOfBytes, UInt8.toNat_ofNat',
    UInt16.toNat_ofNat', shifted]
  omega

/-- What a report leaves as it was: the pair, the security and the creation. -/
structure Kept (old new : RtsCtsSt) : Prop where
  ra : new.ra = old.ra
  ta : new.ta = old.ta
  security : new.security = old.security
  born : new.born = old.born

theorem Kept.refl : Kept entry entry := ⟨rfl, rfl, rfl, rfl⟩

theorem Kept.trans {first second third : RtsCtsSt} (front : Kept first second)
    (back : Kept second third) : Kept first third :=
  ⟨back.ra.trans front.ra, back.ta.trans front.ta, back.security.trans front.security,
    back.born.trans front.born⟩

/-- The outcomes of a report. -/
inductive Reported (entry : RtsCtsSt) : RtsCtsSt × List Report → Prop
  /-- Nothing is sent; at most the time of the entry is new. -/
  | silent (new : RtsCtsSt) (kept : Kept entry new) (seq : new.seq = entry.seq) :
      Reported entry (new, [])
  | sent (new : RtsCtsSt) (kept : Kept entry new) (seq : new.seq = entry.seq + 1)
      (known : entry.security ≠ unknownSecurity) (len : BitVec 32) (rssi : ℤ) :
      Reported entry (new, [⟨entry, reportData entry, len, rssi⟩])

theorem reportLsig_cases (len : BitVec 32) (rssi : Int8) (time : UInt32) (entry : RtsCtsSt) :
    Reported entry (reportLsig len rssi time entry) := by
  rw [reportLsig]
  split
  next => exact .silent entry (.refl entry) rfl
  next known =>
    split
    next => exact .silent _ ⟨rfl, rfl, rfl, rfl⟩ rfl
    next =>
      split
      next => exact .silent entry (.refl entry) rfl
      next =>
        refine .sent _ ?_ ?_ known len _
        · exact ⟨rfl, rfl, rfl, rfl⟩
        · rfl

/-! ## One pass over the table -/

variable {lastRts : RtsCtsPktInfo} {rtsMatch : Bool} {len : BitVec 32} {rssi : Int8}
  {clock : ℕ → UInt32}

theorem scan_reports {left i : ℕ} {report : Report}
    (reported : report ∈ (scan lastRts rtsMatch len rssi clock left i rtsTbl).reports) :
    ∃ k, i ≤ k ∧ k < i + left ∧ report.entry = rtsTbl k ∧
      report.entry.security ≠ unknownSecurity := by
  induction left generalizing i rtsTbl with
  | zero => simp [scan] at reported
  | succ left induction =>
      have outcome := reportLsig_cases len rssi (clock i) (rtsTbl i)
      have visited : ∀ {report}, report ∈ (reportLsig len rssi (clock i) (rtsTbl i)).2 →
          report.entry = rtsTbl i ∧ report.entry.security ≠ unknownSecurity := by
        intro report member
        generalize reportLsig len rssi (clock i) (rtsTbl i) = result at outcome member
        cases outcome with
        | silent => simp at member
        | sent new kept seq known =>
            rw [List.mem_singleton.mp member]
            exact ⟨rfl, known⟩
      have later {next : Memory RtsCtsSt} (same : ∀ k, i < k → next k = rtsTbl k)
          (member : report ∈ (scan lastRts rtsMatch len rssi clock left (i + 1) next).reports) :
          ∃ k, i ≤ k ∧ k < i + (left + 1) ∧ report.entry = rtsTbl k ∧
            report.entry.security ≠ unknownSecurity := by
        obtain ⟨k, above, below, entry_eq, known⟩ := induction member
        exact ⟨k, by omega, by omega, entry_eq.trans (same k above), known⟩
      rw [scan] at reported
      dsimp only at reported
      split at reported
      · split at reported
        · exact ⟨i, Nat.le_refl i, by omega, visited reported⟩
        · exact later (fun _ _ => rfl) reported
      · split at reported
        · rcases List.mem_append.mp reported with here | rest
          · exact ⟨i, Nat.le_refl i, by omega, visited here⟩
          · refine later (fun k above => ?_) rest
            exact Memory.store_singleton_of_ne rtsTbl _ (Nat.ne_of_gt above)
        · exact later (fun _ _ => rfl) reported

theorem kept_store {i : ℕ} {entry : RtsCtsSt} (kept : Kept (rtsTbl i) entry) (k : ℕ) :
    Kept (rtsTbl k) (rtsTbl.store i [entry] k) := by
  rcases eq_or_ne k i with rfl | other
  · rw [Memory.store_singleton_self]
    exact kept
  · rw [Memory.store_singleton_of_ne rtsTbl entry other]
    exact .refl _

theorem reportLsig_kept (time : UInt32) (entry : RtsCtsSt) :
    Kept entry (reportLsig len rssi time entry).1 := by
  have outcome := reportLsig_cases len rssi time entry
  generalize reportLsig len rssi time entry = result at outcome
  cases outcome with
  | silent new kept => exact kept
  | sent new kept => exact kept

theorem scan_kept (left i : ℕ) (rtsTbl : Memory RtsCtsSt) (k : ℕ) :
    Kept (rtsTbl k) ((scan lastRts rtsMatch len rssi clock left i rtsTbl).rtsTbl k) := by
  induction left generalizing i rtsTbl with
  | zero => exact .refl _
  | succ left induction =>
      have visited : Kept (rtsTbl k)
          (rtsTbl.store i [(reportLsig len rssi (clock i) (rtsTbl i)).1] k) :=
        kept_store (reportLsig_kept (clock i) (rtsTbl i)) k
      rw [scan]
      dsimp only
      split
      · split
        · exact visited
        · exact induction (i + 1) rtsTbl
      · split
        · exact visited.trans (induction (i + 1) _)
        · exact induction (i + 1) rtsTbl

theorem scan_match (left i : ℕ) (rtsTbl : Memory RtsCtsSt) :
    scan lastRts true len rssi clock (left + 1) i rtsTbl =
      if lastRts.ra = (rtsTbl i).ra ∧ lastRts.ta = (rtsTbl i).ta then
        ⟨rtsTbl.store i [(reportLsig len rssi (clock i) (rtsTbl i)).1],
          (reportLsig len rssi (clock i) (rtsTbl i)).2, 1⟩
      else scan lastRts true len rssi clock left (i + 1) rtsTbl := rfl

/-- When the pair of the last RTS is looked for and nothing is counted, no entry has the pair and the
table is as it was. -/
theorem scan_absent {left i : ℕ}
    (uncounted : (scan lastRts true len rssi clock left i rtsTbl).reported = 0) :
    (scan lastRts true len rssi clock left i rtsTbl).rtsTbl = rtsTbl ∧
      (scan lastRts true len rssi clock left i rtsTbl).reports = [] ∧
      ∀ k, i ≤ k → k < i + left →
        ¬ (lastRts.ra = (rtsTbl k).ra ∧ lastRts.ta = (rtsTbl k).ta) := by
  induction left generalizing i with
  | zero => exact ⟨rfl, rfl, fun k above below => by omega⟩
  | succ left induction =>
      rw [scan_match] at uncounted ⊢
      split at uncounted
      next => simp at uncounted
      next other =>
        obtain ⟨same, silent, rest⟩ := induction uncounted
        rw [if_neg other]
        refine ⟨same, silent, fun k above below => ?_⟩
        rcases Nat.eq_or_lt_of_le above with rfl | later
        · exact other
        · exact rest k later (by omega)

theorem oldest_spec (rtsTbl : Memory RtsCtsSt) (rounds : ℕ) :
    (oldest rtsTbl rounds).1 ≤ rounds ∧
      (oldest rtsTbl rounds).2 = (rtsTbl (oldest rtsTbl rounds).1).lastTime ∧
      ∀ i ≤ rounds, (oldest rtsTbl rounds).2 ≤ (rtsTbl i).lastTime := by
  induction rounds with
  | zero =>
      refine ⟨Nat.le_refl 0, rfl, fun i small => ?_⟩
      rw [Nat.le_zero.mp small]
      exact UInt32.le_refl _
  | succ rounds induction =>
      obtain ⟨inside, time_eq, least⟩ := induction
      rw [oldest]
      dsimp only
      split
      next earlier =>
        refine ⟨Nat.le_refl _, rfl, fun i small => ?_⟩
        rcases Nat.eq_or_lt_of_le small with rfl | before
        · exact UInt32.le_refl _
        · exact UInt32.le_trans (UInt32.le_of_lt earlier) (least i (by omega))
      next notEarlier =>
        refine ⟨by omega, time_eq, fun i small => ?_⟩
        rcases Nat.eq_or_lt_of_le small with rfl | before
        · exact UInt32.not_lt.mp notEarlier
        · exact least i (by omega)

/-! ## One event -/

/-- The place that is taken for the last RTS and the entry that is put there. -/
structure Taken (state : State) (place rtsTblNum : ℕ) (entry : RtsCtsSt) : Prop where
  absent : ∀ i < state.rtsTblNum,
    ¬ (entry.ra = (state.rtsTbl i).ra ∧ entry.ta = (state.rtsTbl i).ta)
  security : entry.security = unknownSecurity
  born : entry.born = state.born
  place_lt : place < rtsTblNum
  others : ∀ i < rtsTblNum, i ≠ place → i < state.rtsTblNum
  few : rtsTblNum ≤ maxRtsTbl

/-- An entry is only replaced in a full table, and it is one with the least time. -/
def LeastRecent (state : State) (old : RtsCtsSt) : Prop :=
  state.rtsTblNum = maxRtsTbl ∧
    ∃ place < state.rtsTblNum, old = state.rtsTbl place ∧
      ∀ i < state.rtsTblNum, old.lastTime ≤ (state.rtsTbl i).lastTime

/-- What `lsig_input` can do. -/
inductive Effect (state : State) : State × Output → Prop
  | heard (lastRts : RtsCtsPktInfo) (rtsMatch : Bool) (len : BitVec 32) (rssi : Int8)
      (clock : ℕ → UInt32) (scanned : Scanned)
      (visited : scan lastRts rtsMatch len rssi clock state.rtsTblNum 0 state.rtsTbl = scanned) :
      Effect state
        ({ state with rtsTbl := scanned.rtsTbl }, ⟨scanned.reports, none, none⟩)
  | taken (place rtsTblNum : ℕ) (entry : RtsCtsSt) (evicted : Option RtsCtsSt)
      (spot : Taken state place rtsTblNum entry)
      (least : ∀ old, evicted = some old → LeastRecent state old) :
      Effect state
        ({ state with
            rtsTbl := state.rtsTbl.store place [entry]
            rtsTblNum := rtsTblNum
            born := state.born + 1 },
          ⟨[], some state.born, evicted⟩)

theorem lsigInput_cases {state : State} (few : state.rtsTblNum ≤ maxRtsTbl) (len : BitVec 32)
    (rssi : Int8) (timeMs : UInt32) (clock : ℕ → UInt32) :
    Effect state (lsigInput state len rssi timeMs clock) := by
  rw [lsigInput]
  dsimp only
  split
  next => exact .heard state.lastRts _ _ rssi clock _ rfl
  next fresh =>
    rw [not_or, Bool.not_eq_false, not_not] at fresh
    obtain ⟨recent, uncounted⟩ := fresh
    rw [recent] at uncounted ⊢
    obtain ⟨same, silent, absent⟩ := scan_absent uncounted
    rw [same, silent]
    have unheld : ∀ i < state.rtsTblNum, ¬ (state.lastRts.ra = (state.rtsTbl i).ra ∧
        state.lastRts.ta = (state.rtsTbl i).ta) :=
      fun i inside => absent i (Nat.zero_le i) (by omega)
    split
    next room =>
      refine .taken state.rtsTblNum _ _ none ?_ (by simp)
      refine ⟨unheld, rfl, rfl, Nat.lt_succ_self _, fun i inside other => ?_, room⟩
      omega
    next noRoom =>
      have full : state.rtsTblNum = maxRtsTbl := by omega
      obtain ⟨inside, time_eq, least⟩ := oldest_spec state.rtsTbl (maxRtsTbl - 1)
      have place_lt : (oldest state.rtsTbl (maxRtsTbl - 1)).1 < state.rtsTblNum := by
        rw [full]
        simp only [maxRtsTbl] at inside ⊢
        omega
      refine .taken _ state.rtsTblNum _ _ ?_ ?_
      · exact ⟨unheld, rfl, rfl, place_lt, fun i inside _ => inside, few⟩
      rintro old ⟨rfl⟩
      refine ⟨full, _, place_lt, rfl, fun i live => ?_⟩
      rw [← time_eq]
      apply least
      simp only [full, maxRtsTbl] at live ⊢
      omega

/-! ## Sequence numbers -/

theorem numbersOf_append (front back : List Report) (id : ℕ) :
    numbersOf (front ++ back) id = numbersOf front id ++ numbersOf back id := by
  simp [numbersOf]

theorem countUp_succ (frames : ℕ) :
    countUp (frames + 1) = countUp frames ++ [(frames + 1) % 2 ^ 12] := by
  simp [countUp, List.range_succ]

/-- The frames so far and the table belong together: the next frame of every entry that may be
reported carries the number after that of its last one. -/
structure Counting (reports : List Report) (rtsTbl : Memory RtsCtsSt) (rtsTblNum born : ℕ) :
    Prop where
  below : ∀ i < rtsTblNum, (rtsTbl i).born < born
  apart : ∀ i < rtsTblNum, ∀ j < rtsTblNum, (rtsTbl i).born = (rtsTbl j).born → i = j
  fresh : ∀ id, born ≤ id → numbersOf reports id = []
  unheard : ∀ i < rtsTblNum, (rtsTbl i).security = unknownSecurity →
    numbersOf reports (rtsTbl i).born = []
  next : ∀ i < rtsTblNum, (rtsTbl i).security ≠ unknownSecurity →
    (rtsTbl i).seq.toNat % 2 ^ 12 = ((numbersOf reports (rtsTbl i).born).length + 1) % 2 ^ 12
  consecutive : ∀ id, numbersOf reports id = countUp (numbersOf reports id).length

namespace Counting

variable {reports : List Report} {rtsTbl : Memory RtsCtsSt} {rtsTblNum born : ℕ}

variable {entry : RtsCtsSt}

theorem silent (counting : Counting reports rtsTbl rtsTblNum born) {i : ℕ}
    (kept : Kept (rtsTbl i) entry) (seq : entry.seq = (rtsTbl i).seq) :
    Counting reports (rtsTbl.store i [entry]) rtsTblNum born := by
  have every (k : ℕ) : Kept (rtsTbl k) (rtsTbl.store i [entry] k) ∧
      (rtsTbl.store i [entry] k).seq = (rtsTbl k).seq := by
    refine ⟨kept_store kept k, ?_⟩
    rcases eq_or_ne k i with rfl | other
    · rw [Memory.store_singleton_self, seq]
    · rw [Memory.store_singleton_of_ne rtsTbl entry other]
  constructor
  case below => intro k live; rw [(every k).1.born]; exact counting.below k live
  case apart =>
    intro j jLive k kLive
    rw [(every j).1.born, (every k).1.born]
    exact counting.apart j jLive k kLive
  case fresh => exact counting.fresh
  case unheard =>
    intro k live
    rw [(every k).1.born, (every k).1.security]
    exact counting.unheard k live
  case next =>
    intro k live
    rw [(every k).1.born, (every k).1.security, (every k).2]
    exact counting.next k live
  case consecutive => exact counting.consecutive

theorem sent (counting : Counting reports rtsTbl rtsTblNum born) {i : ℕ} (live : i < rtsTblNum)
    {entry : RtsCtsSt} (kept : Kept (rtsTbl i) entry) (seq : entry.seq = (rtsTbl i).seq + 1)
    (known : (rtsTbl i).security ≠ unknownSecurity) (len : BitVec 32) (rssi : ℤ) :
    Counting (reports ++ [⟨rtsTbl i, reportData (rtsTbl i), len, rssi⟩])
      (rtsTbl.store i [entry]) rtsTblNum born := by
  have own : numbersOf [⟨rtsTbl i, reportData (rtsTbl i), len, rssi⟩] (rtsTbl i).born =
      [(rtsTbl i).seq.toNat % 2 ^ 12] := by
    simp [numbersOf, sequenceNumber_reportData]
  have foreign {id : ℕ} (other : id ≠ (rtsTbl i).born) :
      numbersOf [⟨rtsTbl i, reportData (rtsTbl i), len, rssi⟩] id = [] := by
    simp [numbersOf, other.symm]
  have every (k : ℕ) : Kept (rtsTbl k) (rtsTbl.store i [entry] k) := kept_store kept k
  have number := counting.next i live known
  constructor
  case below => intro k kLive; rw [(every k).born]; exact counting.below k kLive
  case apart =>
    intro j jLive k kLive
    rw [(every j).born, (every k).born]
    exact counting.apart j jLive k kLive
  case fresh =>
    intro id above
    have older := counting.below i live
    rw [numbersOf_append, counting.fresh id above, foreign (by omega)]
    rfl
  case unheard =>
    intro k kLive unknown
    rw [(every k).security] at unknown
    have other : (rtsTbl k).born ≠ (rtsTbl i).born := by
      intro same
      rw [counting.apart k kLive i live same] at unknown
      exact known unknown
    rw [(every k).born, numbersOf_append, foreign other, counting.unheard k kLive unknown]
    rfl
  case next =>
    intro k kLive heard
    rw [(every k).security] at heard
    rw [(every k).born, numbersOf_append]
    rcases eq_or_ne k i with rfl | other
    · rw [own, Memory.store_singleton_self, seq, UInt16.toNat_add, List.length_append,
        List.length_singleton, UInt16.toNat_one]
      omega
    · have unlike : (rtsTbl k).born ≠ (rtsTbl i).born :=
        fun same => other (counting.apart k kLive i live same)
      rw [foreign unlike, List.append_nil, Memory.store_singleton_of_ne rtsTbl entry other]
      exact counting.next k kLive heard
  case consecutive =>
    intro id
    rw [numbersOf_append]
    rcases eq_or_ne id (rtsTbl i).born with rfl | other
    · rw [own, List.length_append, List.length_singleton, countUp_succ,
        ← counting.consecutive, number]
    · rw [foreign other, List.append_nil]
      exact counting.consecutive id

section

variable (counting : Counting reports rtsTbl rtsTblNum born)
include counting

theorem report {i : ℕ} (live : i < rtsTblNum) (len : BitVec 32) (rssi : Int8) (time : UInt32) :
    Counting (reports ++ (reportLsig len rssi time (rtsTbl i)).2)
      (rtsTbl.store i [(reportLsig len rssi time (rtsTbl i)).1]) rtsTblNum born := by
  have outcome := reportLsig_cases len rssi time (rtsTbl i)
  generalize reportLsig len rssi time (rtsTbl i) = result at outcome ⊢
  cases outcome with
  | silent new kept seq =>
      rw [List.append_nil]
      exact counting.silent kept seq
  | sent new kept seq known len rssi => exact counting.sent live kept seq known len rssi

theorem scan (left i : ℕ) (inside : i + left ≤ rtsTblNum) :
    Counting (reports ++ (scan lastRts rtsMatch len rssi clock left i rtsTbl).reports)
      (scan lastRts rtsMatch len rssi clock left i rtsTbl).rtsTbl rtsTblNum born := by
  induction left generalizing i rtsTbl reports with
  | zero =>
      rw [LsigMonitor.scan, List.append_nil]
      exact counting
  | succ left induction =>
      have reported := counting.report (show i < rtsTblNum by omega) len rssi (clock i)
      rw [LsigMonitor.scan]
      dsimp only
      split
      · split
        · exact reported
        · exact induction counting (i + 1) (by omega)
      · split
        · rw [← List.append_assoc]
          exact induction reported (i + 1) (by omega)
        · exact induction counting (i + 1) (by omega)

theorem learn (bssid : MacAddr) (security : UInt8) :
    Counting reports
      (fun i => if i < rtsTblNum then learn bssid security (rtsTbl i) else rtsTbl i)
      rtsTblNum born := by
  have same (entry : RtsCtsSt) : (LsigMonitor.learn bssid security entry).born = entry.born := by
    rw [LsigMonitor.learn]
    split
    · rfl
    · split <;> rfl
  constructor
  case below =>
    intro i live
    rw [if_pos live, same]
    exact counting.below i live
  case apart =>
    intro i iLive j jLive
    rw [if_pos iLive, if_pos jLive, same, same]
    exact counting.apart i iLive j jLive
  case fresh => exact counting.fresh
  case unheard =>
    intro i live
    rw [if_pos live, same]
    rw [LsigMonitor.learn]
    split
    next known => exact counting.unheard i live
    next unknown => exact fun _ => counting.unheard i live (not_not.mp unknown)
  case next =>
    intro i live
    rw [if_pos live, same]
    rw [LsigMonitor.learn]
    split
    next known => exact counting.next i live
    next unknown =>
      rw [not_not] at unknown
      split
      next here =>
        intro _
        rw [counting.unheard i live unknown]
        rfl
      next => exact fun known => absurd unknown known
  case consecutive => exact counting.consecutive

end

theorem renew {state : State} (counting : Counting reports state.rtsTbl state.rtsTblNum state.born)
    {place rtsTblNum : ℕ} (spot : Taken state place rtsTblNum entry) :
    Counting reports (state.rtsTbl.store place [entry]) rtsTblNum (state.born + 1) := by
  have placed : state.rtsTbl.store place [entry] place = entry := Memory.store_singleton_self ..
  have kept {i : ℕ} (other : i ≠ place) : state.rtsTbl.store place [entry] i = state.rtsTbl i :=
    Memory.store_singleton_of_ne _ _ other
  constructor
  case below =>
    intro i live
    rcases eq_or_ne i place with rfl | other
    · rw [placed, spot.born]
      exact Nat.lt_succ_self _
    · rw [kept other]
      exact Nat.lt_succ_of_lt (counting.below i (spot.others i live other))
  case apart =>
    intro i iLive j jLive
    rcases eq_or_ne i place with rfl | iOther
    · rcases eq_or_ne j i with rfl | jOther
      · exact fun _ => rfl
      · have older := counting.below j (spot.others j jLive jOther)
        rw [placed, kept jOther, spot.born]
        omega
    · have older := counting.below i (spot.others i iLive iOther)
      rcases eq_or_ne j place with rfl | jOther
      · rw [placed, kept iOther, spot.born]
        omega
      · rw [kept iOther, kept jOther]
        exact counting.apart i (spot.others i iLive iOther) j (spot.others j jLive jOther)
  case fresh => exact fun id above => counting.fresh id (by omega)
  case unheard =>
    intro i live
    rcases eq_or_ne i place with rfl | other
    · rw [placed, spot.born]
      exact fun _ => counting.fresh _ (Nat.le_refl _)
    · rw [kept other]
      exact counting.unheard i (spot.others i live other)
  case next =>
    intro i live
    rcases eq_or_ne i place with rfl | other
    · rw [placed]
      exact fun known => absurd spot.security known
    · rw [kept other]
      exact counting.next i (spot.others i live other)
  case consecutive => exact counting.consecutive

theorem clear (counting : Counting reports rtsTbl rtsTblNum born) :
    Counting reports rtsTbl 0 born where
  below i live := absurd live (Nat.not_lt_zero i)
  apart i live := absurd live (Nat.not_lt_zero i)
  fresh := counting.fresh
  unheard i live := absurd live (Nat.not_lt_zero i)
  next i live := absurd live (Nat.not_lt_zero i)
  consecutive := counting.consecutive

end Counting

/-! ## Whole runs -/

variable {events : List Event} {outputs : List Output} {state : State}

theorem Learnt.append {entry : RtsCtsSt} (learnt : Learnt events outputs entry) (event : Event)
    (output : Output) : Learnt (events ++ [event]) (outputs ++ [output]) entry := by
  obtain ⟨known, made, heard, before, created, beacon⟩ := learnt
  refine ⟨known, made, heard, before, ?_, ?_⟩
  · rcases Nat.lt_or_ge made outputs.length with inside | beyond
    · rw [List.getElem?_append_left inside, created]
    · rw [List.getElem?_eq_none beyond] at created
      exact absurd created (by simp)
  · obtain ⟨inside, -⟩ := List.getElem?_eq_some_iff.mp beacon
    rw [List.getElem?_append_left inside, beacon]

theorem Learnt.of_kept {old new : RtsCtsSt} (learnt : Learnt events outputs old)
    (kept : Kept old new) : Learnt events outputs new := by
  rw [Learnt, kept.security, kept.born, kept.ra]
  exact learnt

/-- What a run has done so far and the table it has led to. -/
structure Tracked (events : List Event) (outputs : List Output) (state : State) : Prop where
  length : outputs.length = events.length
  few : state.rtsTblNum ≤ maxRtsTbl
  distinct : ∀ i < state.rtsTblNum, ∀ j < state.rtsTblNum,
    (state.rtsTbl i).ra = (state.rtsTbl j).ra → (state.rtsTbl i).ta = (state.rtsTbl j).ta → i = j
  counting : Counting (reportsOf outputs) state.rtsTbl state.rtsTblNum state.born
  created : outputs.filterMap Output.created = List.range state.born
  made : ∀ i < state.rtsTblNum,
    ∃ made : ℕ, outputs[made]?.bind Output.created = some (state.rtsTbl i).born
  learnt : ∀ i < state.rtsTblNum, (state.rtsTbl i).security ≠ unknownSecurity →
    Learnt events outputs (state.rtsTbl i)

theorem tracked_boot : Tracked [] [] boot where
  length := rfl
  few := Nat.zero_le _
  distinct i live := absurd live (Nat.not_lt_zero i)
  counting :=
    { below := fun i live => absurd live (Nat.not_lt_zero i)
      apart := fun i live => absurd live (Nat.not_lt_zero i)
      fresh := fun _ _ => rfl
      unheard := fun i live => absurd live (Nat.not_lt_zero i)
      next := fun i live => absurd live (Nat.not_lt_zero i)
      consecutive := fun _ => rfl }
  created := rfl
  made i live := absurd live (Nat.not_lt_zero i)
  learnt i live := absurd live (Nat.not_lt_zero i)

namespace Tracked

section

variable (tracked : Tracked events outputs state)
include tracked

theorem made_append (output : Output) {i : ℕ} (live : i < state.rtsTblNum) :
    ∃ made : ℕ, (outputs ++ [output])[made]?.bind Output.created =
      some (state.rtsTbl i).born := by
  obtain ⟨made, created⟩ := tracked.made i live
  rcases Nat.lt_or_ge made outputs.length with inside | beyond
  · exact ⟨made, by rw [List.getElem?_append_left inside, created]⟩
  · rw [List.getElem?_eq_none beyond] at created
    exact absurd created (by simp)

/-- The state after an event that creates no entry, when every entry of the table is either kept or
told its security by the event. -/
theorem keep (event : Event) {output : Output} (creates : output.created = none)
    {rtsTbl : Memory RtsCtsSt} (lastRts : RtsCtsPktInfo)
    (counting : Counting (reportsOf outputs ++ output.reports) rtsTbl state.rtsTblNum state.born)
    (pairs : ∀ i < state.rtsTblNum, (rtsTbl i).ra = (state.rtsTbl i).ra ∧
      (rtsTbl i).ta = (state.rtsTbl i).ta ∧ (rtsTbl i).born = (state.rtsTbl i).born)
    (security : ∀ i < state.rtsTblNum, (rtsTbl i).security = (state.rtsTbl i).security ∨
      event = .beaconUpdate (rtsTbl i).ra (rtsTbl i).security) :
    Tracked (events ++ [event]) (outputs ++ [output])
      { state with rtsTbl := rtsTbl, lastRts := lastRts } where
  length := by simp [tracked.length]
  few := tracked.few
  distinct := by
    intro i iLive j jLive
    dsimp only
    rw [(pairs i iLive).1, (pairs j jLive).1, (pairs i iLive).2.1, (pairs j jLive).2.1]
    exact tracked.distinct i iLive j jLive
  counting := by
    rw [reportsOf, List.flatMap_append, List.flatMap_singleton]
    exact counting
  created := by
    rw [List.filterMap_append, tracked.created]
    simp [creates]
  made := by
    intro i live
    dsimp only
    rw [(pairs i live).2.2]
    exact tracked.made_append output live
  learnt := by
    intro i live known
    dsimp only at known ⊢
    rcases security i live with same | told
    · have kept : Kept (state.rtsTbl i) (rtsTbl i) :=
        ⟨(pairs i live).1, (pairs i live).2.1, same, (pairs i live).2.2⟩
      rw [same] at known
      exact ((tracked.learnt i live known).append event output).of_kept kept
    · obtain ⟨made, created⟩ := tracked.made i live
      have inside : made < outputs.length := by
        rcases Nat.lt_or_ge made outputs.length with inside | beyond
        · exact inside
        · rw [List.getElem?_eq_none beyond] at created
          exact absurd created (by simp)
      refine ⟨known, made, events.length, by rw [← tracked.length]; exact inside, ?_, ?_⟩
      · rw [List.getElem?_append_left inside, created, (pairs i live).2.2]
      · rw [List.getElem?_append_right (Nat.le_refl _), Nat.sub_self, ← told]
        rfl

theorem create (event : Event) {place rtsTblNum : ℕ} {entry : RtsCtsSt}
    (spot : Taken state place rtsTblNum entry) (evicted : Option RtsCtsSt) :
    Tracked (events ++ [event]) (outputs ++ [⟨[], some state.born, evicted⟩])
      { state with
        rtsTbl := state.rtsTbl.store place [entry]
        rtsTblNum := rtsTblNum
        born := state.born + 1 } := by
  have placed : state.rtsTbl.store place [entry] place = entry := Memory.store_singleton_self ..
  have kept {i : ℕ} (other : i ≠ place) : state.rtsTbl.store place [entry] i = state.rtsTbl i :=
    Memory.store_singleton_of_ne _ _ other
  constructor
  case length => simp [tracked.length]
  case few => exact spot.few
  case distinct =>
    intro i iLive j jLive
    dsimp only
    rcases eq_or_ne i place with rfl | iOther
    · rcases eq_or_ne j i with rfl | jOther
      · exact fun _ _ => rfl
      · rw [placed, kept jOther]
        exact fun ra ta => absurd ⟨ra, ta⟩ (spot.absent j (spot.others j jLive jOther))
    · rcases eq_or_ne j place with rfl | jOther
      · rw [placed, kept iOther]
        exact fun ra ta =>
          absurd ⟨ra.symm, ta.symm⟩ (spot.absent i (spot.others i iLive iOther))
      · rw [kept iOther, kept jOther]
        exact tracked.distinct i (spot.others i iLive iOther) j (spot.others j jLive jOther)
  case counting =>
    rw [reportsOf, List.flatMap_append, List.flatMap_singleton, List.append_nil]
    exact tracked.counting.renew spot
  case created =>
    rw [List.filterMap_append, tracked.created, List.range_succ]
    rfl
  case made =>
    intro i live
    dsimp only
    rcases eq_or_ne i place with rfl | other
    · refine ⟨outputs.length, ?_⟩
      rw [placed, spot.born, List.getElem?_append_right (Nat.le_refl _), Nat.sub_self]
      rfl
    · rw [kept other]
      exact tracked.made_append _ (spot.others i live other)
  case learnt =>
    intro i live
    dsimp only
    rcases eq_or_ne i place with rfl | other
    · rw [placed]
      exact fun known => absurd spot.security known
    · rw [kept other]
      exact fun known => (tracked.learnt i (spot.others i live other) known).append event _

theorem init :
    Tracked (events ++ [.lsigInit]) (outputs ++ [.silent]) (lsigInit state) where
  length := by simp [tracked.length]
  few := Nat.zero_le _
  distinct i live := absurd live (Nat.not_lt_zero i)
  counting := by
    rw [reportsOf, List.flatMap_append, List.flatMap_singleton, Output.reports_silent,
      List.append_nil]
    exact tracked.counting.clear
  created := by
    rw [List.filterMap_append, tracked.created]
    simp [lsigInit]
  made i live := absurd live (Nat.not_lt_zero i)
  learnt i live := absurd live (Nat.not_lt_zero i)

end

theorem step (tracked : Tracked events outputs state) (event : Event) :
    Tracked (events ++ [event]) (outputs ++ [(machine.step state event).2])
      (machine.step state event).1 := by
  cases event with
  | lsigInit => exact tracked.init
  | rtsUpdate data rssi timeMs =>
      apply tracked.keep (.rtsUpdate data rssi timeMs) Output.created_silent
      · rw [Output.reports_silent, List.append_nil]
        exact tracked.counting
      · exact fun i live => ⟨rfl, rfl, rfl⟩
      · exact fun i live => Or.inl rfl
  | beaconUpdate bssid security =>
      apply tracked.keep (.beaconUpdate bssid security) Output.created_silent state.lastRts
      · rw [Output.reports_silent, List.append_nil]
        exact tracked.counting.learn bssid security
      · intro i live
        rw [if_pos live, learn]
        split
        · exact ⟨rfl, rfl, rfl⟩
        · split <;> exact ⟨rfl, rfl, rfl⟩
      · intro i live
        rw [if_pos live, learn]
        split
        next => exact Or.inl rfl
        next =>
          split
          next here => exact Or.inr (by rw [here])
          next => exact Or.inl rfl
  | lsigInput len rssi timeMs clock =>
      have effect := lsigInput_cases tracked.few len rssi timeMs clock
      have same : machine.step state (.lsigInput len rssi timeMs clock) =
          lsigInput state len rssi timeMs clock := rfl
      rw [same]
      generalize lsigInput state len rssi timeMs clock = result at effect ⊢
      cases effect with
      | heard lastRts rtsMatch len rssi clock scanned visited =>
          subst visited
          have kept (k : ℕ) : Kept (state.rtsTbl k)
              ((scan lastRts rtsMatch len rssi clock state.rtsTblNum 0 state.rtsTbl).rtsTbl k) :=
            scan_kept state.rtsTblNum 0 state.rtsTbl k
          apply tracked.keep _ rfl state.lastRts
          · exact tracked.counting.scan state.rtsTblNum 0 (by omega)
          · exact fun i live => ⟨(kept i).ra, (kept i).ta, (kept i).born⟩
          · exact fun i live => Or.inl (kept i).security
      | taken place rtsTblNum entry evicted spot least => exact tracked.create _ spot evicted

end Tracked

/-- What holds of the table and of the frames at any point of a run. -/
structure Monitored (events : List Event) (outputs : List Output) (state : State) : Prop where
  few : state.rtsTblNum ≤ maxRtsTbl
  pairs : state.pairs.Nodup
  created : outputs.filterMap Output.created = List.range state.born
  consecutive : ∀ born, numbersOf (reportsOf outputs) born =
    countUp (numbersOf (reportsOf outputs) born).length
  learnt : ∀ event, ∀ report ∈ (machine.step state event).2.reports,
    Learnt events outputs report.entry
  least : ∀ event old, (machine.step state event).2.evicted = some old → LeastRecent state old

/-- Pairs are distinct, a frame needs a beacon since the creation of its entry, the frames of an entry
are numbered from 1 on, and the least recent entry is replaced. -/
theorem monitor_table (events : List Event) :
    Monitored events (machine.outputs boot events) (machine.run boot events) := by
  have tracked : Tracked events (machine.outputs boot events) (machine.run boot events) :=
    machine.history_induction (fun _ _ => True) Tracked tracked_boot
      (fun tracked _ => tracked.step _)
      (machine.always_of_forall (fun _ => True) boot fun _ _ => trivial)
  generalize machine.outputs boot events = outputs at tracked ⊢
  generalize machine.run boot events = state at tracked ⊢
  constructor
  case few => exact tracked.few
  case pairs =>
    rw [State.pairs, Memory.load, List.map_map]
    refine List.Nodup.map_on ?_ List.nodup_range
    intro i iLive j jLive same
    have pair := Prod.mk.inj same
    simp only [Nat.zero_add] at pair
    exact tracked.distinct i (List.mem_range.mp iLive) j (List.mem_range.mp jLive) pair.1 pair.2
  case created => exact tracked.created
  case consecutive => exact tracked.counting.consecutive
  case learnt =>
    intro event report member
    cases event with
    | lsigInit | rtsUpdate | beaconUpdate => exact absurd member List.not_mem_nil
    | lsigInput len rssi timeMs clock =>
        have effect := lsigInput_cases tracked.few len rssi timeMs clock
        replace member : report ∈ (lsigInput state len rssi timeMs clock).2.reports := member
        generalize lsigInput state len rssi timeMs clock = result at effect member
        cases effect with
        | heard lastRts rtsMatch len rssi clock scanned visited =>
            subst visited
            obtain ⟨k, -, live, entry_eq, known⟩ := scan_reports member
            rw [entry_eq] at known ⊢
            exact tracked.learnt k (by omega) known
        | taken => exact absurd member List.not_mem_nil
  case least =>
    intro event old evicted
    cases event with
    | lsigInit | rtsUpdate | beaconUpdate => exact absurd evicted (by simp [machine, Output.silent])
    | lsigInput len rssi timeMs clock =>
        have effect := lsigInput_cases tracked.few len rssi timeMs clock
        replace evicted : (lsigInput state len rssi timeMs clock).2.evicted = some old := evicted
        generalize lsigInput state len rssi timeMs clock = result at effect evicted
        cases effect with
        | heard => exact absurd evicted (by simp)
        | taken place rtsTblNum entry replaced spot least => exact least old evicted

end BdkFreertos.LsigMonitor
