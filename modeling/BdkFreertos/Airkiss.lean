import BdkFreertos.MacFrame
import BdkFreertos.Machine

/-!
# The channel and address tables of Airkiss

A scan-all pass stays on every channel for a while, counts the frames received there and inserts the
channel, when it is busy enough, into a list which grows in the front of the array of channels that
is still being scanned.  Beacons also enter the transmitter into a table of addresses, keyed by a
check sum of one byte.  Frames, timer expiries, channel locks and lock timeouts may follow each other
in any order.
-/

namespace BdkFreertos.Airkiss

/-- `MAX_CHANNELS`. -/
def maxChannels : ℕ := 14

/-- `MAX_MAC`. -/
def maxMac : ℕ := 50

/-- `AIRKISS_SWITCH_TIMER`, in milliseconds. -/
def airkissSwitchTimer : ℕ := 50

/-- `MIN_SEL_CHAN_TIMER`, in milliseconds. -/
def minSelChanTimer : ℕ := 1000

/-- `MAX_SEL_CHAN_TIMER`, in milliseconds. -/
def maxSelChanTimer : ℕ := 5000

/-- `AIRKISS_MIN_RX_BUF_SIZE`. -/
def airkissMinRxBufSize : ℕ := 24

/-- `MIN_VALID_DATACNT_INCHAN`. -/
def minValidDatacntInchan : UInt8 := 4

/-- `MIN_VALID_BCNCNT_INCHAN`. -/
def minValidBcncntInchan : UInt8 := 1

/-- `MAC_FCTRL_TYPE_MASK`. -/
def macFctrlTypeMask : UInt16 := 0x000C

/-- `MAC_FCTRL_DATA_T`. -/
def macFctrlDataT : UInt16 := 0x0008

/-- `MAC_FCTRL_PROBERSP`. -/
def macFctrlProbersp : UInt16 := 0x0050

/-- `MAC_FCTRL_BEACON`. -/
def macFctrlBeacon : UInt16 := 0x0080

def macBeaconVariablePartOft : ℕ := 36

def macEltidDs : ℕ := 3

def macDsChannelOft : ℕ := 2

/-- `airkiss_mode`. -/
inductive AirkissMode
  | scanAllChan
  | scanSelectedChan
  deriving DecidableEq

/-- `chan_param_t`. -/
structure ChanParam where
  bcnCnt : UInt8
  dataCnt : UInt8
  channel : UInt16
  deriving DecidableEq

/-- `mac_param_t`. -/
structure MacParam where
  frameCnt : UInt8
  macCrc : UInt8
  apSta : UInt8
  channel : UInt16
  deriving DecidableEq

/-- `airkiss_channel_t`.  The index and the numbers are bytes. -/
structure AirkissChannel where
  chan : Memory ChanParam
  curChanIdx : ℕ
  allChanNums : ℕ
  selectedChanNums : ℕ
  mode : AirkissMode

/-- `airkiss_mac_t`.  The number of entries is a byte. -/
structure AirkissMac where
  mac : Memory MacParam
  macCnt : ℕ

/-- The tables `g_chans` and `g_macs`. -/
structure AirkissState where
  chans : AirkissChannel
  macs : AirkissMac

/-- The tables before the first scan. -/
def airkissZero : AirkissState where
  chans :=
    { chan := fun _ => ⟨0, 0, 0⟩
      curChanIdx := 0
      allChanNums := 0
      selectedChanNums := 0
      mode := .scanAllChan }
  macs :=
    { mac := fun _ => ⟨0, 0, 0, 0⟩
      macCnt := 0 }

/-- What a step does besides changing the tables. -/
structure Output where
  /-- Indices used into `g_macs.mac`. -/
  macIndices : List ℕ
  /-- Indices used into `g_chans.chan`. -/
  chanIndices : List ℕ
  tuned : List ℕ
  /-- The next period of the channel timer. -/
  timerCnt : Option ℕ
  deriving DecidableEq

/-- One round of the loop of `calcrc_1byte`. -/
def calcrcRound (crc abyte : UInt8) : UInt8 :=
  if (crc ^^^ abyte) &&& 0x01 ≠ 0 then ((crc ^^^ 0x18) >>> 1) ||| 0x80 else crc >>> 1

def calcrc1Byte (abyte : UInt8) : UInt8 :=
  ((List.range 8).foldl (fun crc round => calcrcRound crc (abyte >>> UInt8.ofNat round)) 0)

def calcrcBytes (bytes : List UInt8) : UInt8 :=
  bytes.foldl (fun crc byte => calcrc1Byte (crc ^^^ byte)) 0

def fctl (frame : List UInt8) : UInt16 := halfOfBytes (frame.getD 0 0) (frame.getD 1 0)

/-- The check sum of the transmitter's address `addr2`. -/
def macCrcOf (frame : List UInt8) : UInt8 := calcrcBytes ((frame.drop 10).take 6)

/-- A beacon or a probe response. -/
def IsBeacon (frame : List UInt8) : Prop :=
  macFctrlBeacon = fctl frame &&& macFctrlTypesubtypeMask ∨
    macFctrlProbersp = fctl frame &&& macFctrlTypesubtypeMask

instance (frame : List UInt8) : Decidable (IsBeacon frame) :=
  inferInstanceAs (Decidable (_ ∨ _))

def IsData (frame : List UInt8) : Prop := macFctrlDataT = fctl frame &&& macFctrlTypeMask

instance (frame : List UInt8) : Decidable (IsData frame) :=
  inferInstanceAs (Decidable (_ = _))

def macIndex (macs : AirkissMac) (macCrc : UInt8) : Option ℕ :=
  (List.range macs.macCnt).find? fun i => (macs.mac i).macCrc = macCrc

/-- Change an entry of the array of channels. -/
def modifyChan (chans : AirkissChannel) (i : ℕ) (change : ChanParam → ChanParam) :
    AirkissChannel :=
  { chans with chan := chans.chan.store i [change (chans.chan i)] }

def airkissSetScanAllChannel : AirkissState where
  chans :=
    { chan := fun i => ⟨0, 0, if i < maxChannels - 1 then UInt16.ofNat (i + 1) else 0⟩
      curChanIdx := 0
      allChanNums := maxChannels - 1
      selectedChanNums := 0
      mode := .scanAllChan }
  macs :=
    { mac := fun _ => ⟨0, 0, 0, 0⟩
      macCnt := 0 }

/-- Indices used by `airkiss_set_scan_all_channel`. -/
def setScanAllIndices : List ℕ := List.range (maxChannels - 1)

def airkissCalcTimeForSelectedChannel (validCnt : UInt8) : ℕ :=
  let timerCnt := validCnt.toNat / minValidDatacntInchan.toNat * minSelChanTimer
  if timerCnt < minSelChanTimer then
    minSelChanTimer
  else if timerCnt > maxSelChanTimer then
    maxSelChanTimer
  else
    timerCnt

/-- `airkiss_add_channel`, with the indices it uses. -/
def airkissAddChannel (chans : AirkissChannel) (channel bcnCnt dataCnt : UInt8) :
    AirkissChannel × List ℕ :=
  let put (param : ChanParam) : ChanParam :=
    { param with
      channel := channel.toUInt16
      dataCnt := dataCnt }
  if dataCnt < minValidDatacntInchan then
    (chans, [])
  else if bcnCnt < minValidBcncntInchan then
    (chans, [])
  else
    match (List.range chans.selectedChanNums).find? fun i => (chans.chan i).dataCnt < dataCnt with
    | some i =>
        if (chans.chan i).channel.toUInt8 ≠ channel then
          let moveCnt := chans.selectedChanNums - i
          let moved : AirkissChannel :=
            { chans with
              chan := chans.chan.store (i + 1) (chans.chan.load i moveCnt)
              selectedChanNums := (chans.selectedChanNums + 1) % 2 ^ 8 }
          (modifyChan moved i put, List.range (i + 1) ++ List.range' i (moveCnt + 1))
        else
          (modifyChan chans i put, List.range (i + 1))
    | none =>
        let i := chans.selectedChanNums
        (modifyChan { chans with selectedChanNums := (i + 1) % 2 ^ 8 } i put, List.range (i + 1))

def airkissSwitchChannelCallback (state : AirkissState) : AirkissState × Output :=
  let curChan := state.chans.chan state.chans.curChanIdx
  let start (next : AirkissState) (used : List ℕ) (timerCnt : ℕ) : AirkissState × Output :=
    (next,
      { macIndices := []
        chanIndices := state.chans.curChanIdx :: (used ++ [next.chans.curChanIdx])
        tuned := [(next.chans.chan next.chans.curChanIdx).channel.toUInt8.toNat]
        timerCnt := some timerCnt })
  match state.chans.mode with
  | .scanAllChan =>
      let added := airkissAddChannel state.chans curChan.channel.toUInt8 curChan.bcnCnt
        curChan.dataCnt
      let next := (added.1.curChanIdx + 1) % 2 ^ 8
      if next ≥ added.1.allChanNums then
        if added.1.selectedChanNums ≠ 0 then
          start
            { state with
              chans :=
                { added.1 with
                  curChanIdx := 0
                  mode := .scanSelectedChan } }
            (added.2 ++ [0]) (airkissCalcTimeForSelectedChannel (added.1.chan 0).dataCnt)
        else
          start airkissSetScanAllChannel (added.2 ++ setScanAllIndices) airkissSwitchTimer
      else
        start { state with chans := { added.1 with curChanIdx := next } } added.2
          airkissSwitchTimer
  | .scanSelectedChan =>
      let next := (state.chans.curChanIdx + 1) % 2 ^ 8
      if next ≥ state.chans.selectedChanNums then
        start airkissSetScanAllChannel (next :: setScanAllIndices) airkissSwitchTimer
      else
        start { state with chans := { state.chans with curChanIdx := next } } [next]
          (airkissCalcTimeForSelectedChannel (state.chans.chan next).dataCnt)

/-- The restart of the scan in `airkiss_main` and in `airkiss_doing_timeout_callback`. -/
def airkissRestart : AirkissState × Output :=
  (airkissSetScanAllChannel,
    { macIndices := []
      chanIndices := setScanAllIndices ++ [0]
      tuned := [(airkissSetScanAllChannel.chans.chan 0).channel.toNat]
      timerCnt := some airkissSwitchTimer })

/-- The result of `airkiss_recv`. -/
inductive AirkissStatus
  | continue
  | channelLocked
  | complete
  deriving DecidableEq

/-- One round of the loop of `process_airkiss` over the address table. -/
def lockRound (macs : AirkissMac) (macCrc : UInt8) (chans : AirkissChannel) (i : ℕ) :
    AirkissChannel :=
  if macCrc = (macs.mac i).macCrc then
    if (chans.chan chans.curChanIdx).channel ≠ (macs.mac i).channel then
      modifyChan chans chans.curChanIdx fun param => { param with channel := (macs.mac i).channel }
    else
      chans
  else
    chans

/-- The channels that the loop of `process_airkiss` tunes to. -/
def lockTuned (macs : AirkissMac) (macCrc : UInt8) (chans : AirkissChannel) : List ℕ → List ℕ
  | [] => []
  | i :: rounds =>
      let next := lockRound macs macCrc chans i
      if macCrc = (macs.mac i).macCrc ∧
          (chans.chan chans.curChanIdx).channel ≠ (macs.mac i).channel then
        (macs.mac i).channel.toNat :: lockTuned macs macCrc next rounds
      else
        lockTuned macs macCrc next rounds

/-- `process_airkiss` on a packet for which `airkiss_recv` gives a status. -/
def processAirkiss (state : AirkissState) (packet : List UInt8) (status : AirkissStatus) :
    AirkissState × Output :=
  let rounds := List.range state.macs.macCnt
  match status with
  | .channelLocked =>
      ({ state with
          chans := rounds.foldl (lockRound state.macs (macCrcOf packet)) state.chans },
        { macIndices := rounds
          chanIndices := [state.chans.curChanIdx]
          tuned := lockTuned state.macs (macCrcOf packet) state.chans rounds
          timerCnt := none })
  | _ => (state, ⟨[], [], [], none⟩)

section Frames

-- `mac_ie_find` is library code: it looks for an element in so many bytes from an offset of a frame
-- on and gives the element's offset.
variable (macIeFind : List UInt8 → ℕ → UInt32 → ℕ → Option ℕ)

/-- The channel in the DS element of a beacon, or 0. -/
def dsChannel (frame : List UInt8) : UInt16 :=
  match macIeFind frame macBeaconVariablePartOft
      (UInt32.ofNat frame.length - UInt32.ofNat macBeaconVariablePartOft) macEltidDs with
  | none => 0
  | some elmt => (frame.getD (elmt + macDsChannelOft) 0).toUInt16

/-- The part of `airkiss_count_usefull_packet` that enters a beacon into the address table. -/
def enterMac (macs : AirkissMac) (frame : List UInt8) : AirkissMac :=
  let channel := dsChannel macIeFind frame
  let learn (param : MacParam) : MacParam :=
    if channel ≠ 0 then { param with channel } else param
  match macIndex macs (macCrcOf frame) with
  | some i => { macs with mac := macs.mac.store i [learn (macs.mac i)] }
  | none =>
      { mac := macs.mac.store macs.macCnt
          [learn { macs.mac macs.macCnt with macCrc := macCrcOf frame }]
        macCnt := (macs.macCnt + 1) % 2 ^ 8 }

/-- Indices that a beacon uses into the address table. -/
def enterMacIndices (macs : AirkissMac) (frame : List UInt8) : List ℕ :=
  match macIndex macs (macCrcOf frame) with
  | some i => List.range (i + 1)
  | none => List.range (macs.macCnt + 1)

def airkissCountUsefullPacket (state : AirkissState) (frame : List UInt8) :
    AirkissState × Output :=
  let cur := state.chans.curChanIdx
  if frame.length = 0 then
    (state, ⟨[], [cur], [], none⟩)
  else if IsBeacon frame then
    ({ chans := modifyChan state.chans cur fun param => { param with bcnCnt := param.bcnCnt + 1 }
       macs := enterMac macIeFind state.macs frame },
      ⟨enterMacIndices state.macs frame, [cur], [], none⟩)
  else if IsData frame then
    ({ state with
        chans := modifyChan state.chans cur fun param =>
          { param with dataCnt := param.dataCnt + 1 } },
      ⟨[], [cur], [], none⟩)
  else
    (state, ⟨[], [cur], [], none⟩)

/-- The table part of `airkiss_monitor_callback`. -/
def airkissMonitorCallback (state : AirkissState) (frame : List UInt8) : AirkissState × Output :=
  if frame.length < airkissMinRxBufSize then
    (state, ⟨[], [], [], none⟩)
  else
    airkissCountUsefullPacket macIeFind state frame

/-- What happens to the tables. -/
inductive Event
  | received (frame : List UInt8)
  /-- The channel timer expires. -/
  | switchChannel
  /-- The main thread processes a packet for which `airkiss_recv` gives a status. -/
  | processed (packet : List UInt8) (status : AirkissStatus)
  /-- The scan is started, or restarted because a lock timed out. -/
  | restarted
  deriving DecidableEq

/-- The tables under frames, timers and locks. -/
def machine : Machine AirkissState Event Output where
  step state
    | .received frame => airkissMonitorCallback macIeFind state frame
    | .switchChannel => airkissSwitchChannelCallback state
    | .processed packet status => processAirkiss state packet status
    | .restarted => airkissRestart

/-! ## Indices -/

variable {macIeFind}

def Output.InBounds (output : Output) : Prop :=
  (∀ i ∈ output.macIndices, i < maxMac) ∧ ∀ i ∈ output.chanIndices, i < maxChannels

instance (output : Output) : Decidable output.InBounds :=
  inferInstanceAs (Decidable (_ ∧ _))

/-- The index of the current channel stays behind the channels selected during a scan-all pass, and
on them afterwards. -/
def IndexOk (chans : AirkissChannel) : Prop :=
  match chans.mode with
  | .scanAllChan => chans.selectedChanNums ≤ chans.curChanIdx ∧ chans.curChanIdx < maxChannels - 1
  | .scanSelectedChan =>
      chans.curChanIdx < chans.selectedChanNums ∧ chans.selectedChanNums < maxChannels

/-- Both tables are within their arrays. -/
structure TablesOk (state : AirkissState) : Prop where
  macCnt_le : state.macs.macCnt ≤ maxMac
  allChanNums_lt : state.chans.allChanNums < maxChannels
  indexOk : IndexOk state.chans

theorem tablesOk_zero : TablesOk airkissZero where
  macCnt_le := by decide
  allChanNums_lt := by decide
  indexOk := ⟨by decide, by decide⟩

theorem tablesOk_setScanAll : TablesOk airkissSetScanAllChannel where
  macCnt_le := by decide
  allChanNums_lt := by decide
  indexOk := ⟨by decide, by decide⟩

variable {chans : AirkissChannel} {state : AirkissState} (macs : AirkissMac) (macCrc : UInt8)

theorem IndexOk.cur_lt (ok : IndexOk chans) : chans.curChanIdx < maxChannels - 1 := by
  rw [IndexOk] at ok
  split at ok
  · exact ok.2
  · simp only [maxChannels] at ok ⊢
    omega

/-- Selecting a channel uses the entries up to the first free one of the selection, and selects one
channel at most. -/
theorem airkissAddChannel_spec (few : chans.selectedChanNums < maxChannels)
    (channel bcnCnt dataCnt : UInt8) :
    (airkissAddChannel chans channel bcnCnt dataCnt).1.curChanIdx = chans.curChanIdx ∧
      (airkissAddChannel chans channel bcnCnt dataCnt).1.allChanNums = chans.allChanNums ∧
      (airkissAddChannel chans channel bcnCnt dataCnt).1.mode = chans.mode ∧
      (airkissAddChannel chans channel bcnCnt dataCnt).1.selectedChanNums ≤
        chans.selectedChanNums + 1 ∧
      ∀ i ∈ (airkissAddChannel chans channel bcnCnt dataCnt).2, i ≤ chans.selectedChanNums := by
  have small : (chans.selectedChanNums + 1) % 2 ^ 8 = chans.selectedChanNums + 1 :=
    Nat.mod_eq_of_lt (by simp only [maxChannels] at few; omega)
  rw [airkissAddChannel]
  split
  · simp
  split
  · simp
  split
  next i found =>
    have inside : i < chans.selectedChanNums :=
      List.mem_range.mp (List.mem_of_find?_eq_some found)
    split
    · simp only [modifyChan, small, List.mem_append, List.mem_range, List.mem_range'_1]
      refine ⟨trivial, trivial, trivial, Nat.le_refl _, fun j used => ?_⟩
      omega
    · simp only [modifyChan, List.mem_range]
      refine ⟨trivial, trivial, trivial, Nat.le_succ _, fun j used => ?_⟩
      omega
  next =>
    simp only [modifyChan, small, List.mem_range]
    exact ⟨trivial, trivial, trivial, Nat.le_refl _, fun j used => Nat.lt_succ_iff.mp used⟩

theorem switchChannel_ok (ok : TablesOk state) :
    TablesOk (airkissSwitchChannelCallback state).1 ∧
      (airkissSwitchChannelCallback state).2.InBounds := by
  obtain ⟨macs, all, index⟩ := ok
  have cur := index.cur_lt
  have scanAll : ∀ i ∈ setScanAllIndices, i < 13 := fun i used => List.mem_range.mp used
  simp only [maxChannels] at all cur
  have small : (state.chans.curChanIdx + 1) % 2 ^ 8 = state.chans.curChanIdx + 1 := by omega
  rw [airkissSwitchChannelCallback]
  rw [IndexOk] at index
  cases mode : state.chans.mode with
  | scanAllChan =>
      simp only [mode, maxChannels] at index
      obtain ⟨same_cur, same_all, same_mode, selected, used⟩ :=
        airkissAddChannel_spec (show state.chans.selectedChanNums < maxChannels by
            simp only [maxChannels]; omega)
          (state.chans.chan state.chans.curChanIdx).channel.toUInt8
          (state.chans.chan state.chans.curChanIdx).bcnCnt
          (state.chans.chan state.chans.curChanIdx).dataCnt
      simp only [same_cur, same_all, small]
      split
      · split
        next some_selected =>
          refine ⟨⟨macs, by simp only [maxChannels]; omega, ?_⟩, ?_⟩
          · simp only [IndexOk, maxChannels]
            omega
          · simp only [Output.InBounds, maxChannels, List.mem_cons, List.mem_append]
            grind
        next =>
          refine ⟨tablesOk_setScanAll, ?_⟩
          simp only [Output.InBounds, maxChannels, List.mem_cons, List.mem_append]
          grind [airkissSetScanAllChannel]
      next more =>
        refine ⟨⟨macs, by simp only [maxChannels]; omega, ?_⟩, ?_⟩
        · simp only [IndexOk, same_mode, mode, maxChannels]
          omega
        · simp only [Output.InBounds, maxChannels, List.mem_cons, List.mem_append]
          grind
  | scanSelectedChan =>
      simp only [mode, maxChannels] at index
      simp only [small]
      split
      · refine ⟨tablesOk_setScanAll, ?_⟩
        simp only [Output.InBounds, maxChannels, List.mem_cons, List.mem_append]
        grind [airkissSetScanAllChannel]
      next more =>
        refine ⟨⟨macs, by simp only [maxChannels]; omega, ?_⟩, ?_⟩
        · simp only [IndexOk, mode, maxChannels]
          omega
        · simp only [Output.InBounds, maxChannels, List.mem_cons, List.mem_append]
          grind

theorem lockRound_index (chans : AirkissChannel) (i : ℕ) :
    (lockRound macs macCrc chans i).curChanIdx = chans.curChanIdx ∧
      (lockRound macs macCrc chans i).allChanNums = chans.allChanNums ∧
      (lockRound macs macCrc chans i).selectedChanNums = chans.selectedChanNums ∧
      (lockRound macs macCrc chans i).mode = chans.mode := by
  rw [lockRound]
  split
  · split <;> exact ⟨rfl, rfl, rfl, rfl⟩
  · exact ⟨rfl, rfl, rfl, rfl⟩

/-- A lock changes no index and no number of entries. -/
theorem lockRounds_index (chans : AirkissChannel) (rounds : List ℕ) :
    (rounds.foldl (lockRound macs macCrc) chans).curChanIdx = chans.curChanIdx ∧
      (rounds.foldl (lockRound macs macCrc) chans).allChanNums = chans.allChanNums ∧
      (rounds.foldl (lockRound macs macCrc) chans).selectedChanNums = chans.selectedChanNums ∧
      (rounds.foldl (lockRound macs macCrc) chans).mode = chans.mode := by
  induction rounds generalizing chans with
  | nil => exact ⟨rfl, rfl, rfl, rfl⟩
  | cons i rounds induction =>
      obtain ⟨cur, all, selected, mode⟩ := lockRound_index macs macCrc chans i
      obtain ⟨cur', all', selected', mode'⟩ := induction (lockRound macs macCrc chans i)
      exact ⟨cur'.trans cur, all'.trans all, selected'.trans selected, mode'.trans mode⟩

theorem processAirkiss_ok (ok : TablesOk state) (packet : List UInt8) (status : AirkissStatus) :
    TablesOk (processAirkiss state packet status).1 ∧
      (processAirkiss state packet status).2.InBounds := by
  have cur := ok.indexOk.cur_lt
  have macs := ok.macCnt_le
  simp only [maxChannels] at cur
  cases status with
  | channelLocked =>
      obtain ⟨same_cur, same_all, same_selected, same_mode⟩ :=
        lockRounds_index state.macs (macCrcOf packet) state.chans (List.range state.macs.macCnt)
      refine ⟨⟨macs, ?_, ?_⟩, fun i used => ?_, fun i used => ?_⟩
      · simp only [processAirkiss, same_all]
        exact ok.allChanNums_lt
      · have index := ok.indexOk
        simp only [IndexOk, processAirkiss, same_cur, same_selected, same_mode] at index ⊢
        exact index
      · exact Nat.lt_of_lt_of_le (List.mem_range.mp used) macs
      · simp only [processAirkiss, List.mem_singleton] at used
        simp only [maxChannels]
        omega
  | «continue» => exact ⟨ok, by simp [processAirkiss, Output.InBounds]⟩
  | complete => exact ⟨ok, by simp [processAirkiss, Output.InBounds]⟩

theorem restart_ok : TablesOk airkissRestart.1 ∧ airkissRestart.2.InBounds :=
  ⟨tablesOk_setScanAll, by decide⟩

/-- A beacon of a transmitter whose check sum is not in the address table finds a free entry. -/
def HasRoom (state : AirkissState) : Event → Prop
  | .received frame =>
      airkissMinRxBufSize ≤ frame.length → IsBeacon frame →
        macIndex state.macs (macCrcOf frame) = none → state.macs.macCnt < maxMac
  | _ => True

theorem received_ok (ok : TablesOk state) (frame : List UInt8) :
    ((airkissMonitorCallback macIeFind state frame).2.InBounds ↔
        HasRoom state (.received frame)) ∧
      (HasRoom state (.received frame) →
        TablesOk (airkissMonitorCallback macIeFind state frame).1) := by
  obtain ⟨macs, all, index⟩ := ok
  have cur := index.cur_lt
  have index_mem : ∀ {i}, macIndex state.macs (macCrcOf frame) = some i →
      i < state.macs.macCnt := fun found =>
    List.mem_range.mp (List.mem_of_find?_eq_some found)
  simp only [maxChannels] at cur
  rw [airkissMonitorCallback, HasRoom]
  split
  next short =>
    refine ⟨?_, fun _ => ⟨macs, all, index⟩⟩
    simp [Output.InBounds, Nat.not_le.mpr short]
  next long =>
    have long := Nat.not_lt.mp long
    have filled : frame.length ≠ 0 := by
      simp only [airkissMinRxBufSize] at long
      omega
    rw [airkissCountUsefullPacket, if_neg filled]
    have cur_ok : ∀ i ∈ [state.chans.curChanIdx], i < maxChannels := by
      simp only [List.mem_singleton, forall_eq, maxChannels]
      omega
    split
    next beacon =>
      cases found : macIndex state.macs (macCrcOf frame) with
      | some i =>
          have inside := index_mem found
          refine ⟨iff_of_true ⟨fun j used => ?_, cur_ok⟩ (by simp),
            fun _ => ⟨by simpa [enterMac, found] using macs, all, index⟩⟩
          simp only [enterMacIndices, found, List.mem_range] at used
          omega
      | none =>
          have used : enterMacIndices state.macs frame = List.range (state.macs.macCnt + 1) := by
            simp [enterMacIndices, found]
          refine ⟨⟨fun every _ _ _ => every.1 _ ?_, fun room => ⟨fun i member => ?_, cur_ok⟩⟩,
            fun room => ⟨?_, all, index⟩⟩
          · rw [used]
            exact List.mem_range.mpr (Nat.lt_succ_self _)
          · have free := room long beacon rfl
            simp only [used, List.mem_range] at member
            omega
          · have free := room long beacon rfl
            have step := Nat.mod_le (state.macs.macCnt + 1) (2 ^ 8)
            simp only [enterMac, found]
            omega
    next other =>
      split
      · refine ⟨?_, fun _ => ⟨macs, all, index⟩⟩
        simp [Output.InBounds, other, maxChannels, Nat.lt_succ_of_lt cur]
      · refine ⟨?_, fun _ => ⟨macs, all, index⟩⟩
        simp [Output.InBounds, other, maxChannels, Nat.lt_succ_of_lt cur]

theorem step_ok (event : Event) (ok : TablesOk state) :
    (((machine macIeFind).step state event).2.InBounds ↔ HasRoom state event) ∧
      (HasRoom state event → TablesOk ((machine macIeFind).step state event).1) := by
  cases event with
  | received frame => exact received_ok ok frame
  | switchChannel =>
      have kept := switchChannel_ok ok
      exact ⟨iff_of_true kept.2 trivial, fun _ => kept.1⟩
  | processed packet status =>
      have kept := processAirkiss_ok ok packet status
      exact ⟨iff_of_true kept.2 trivial, fun _ => kept.1⟩
  | restarted => exact ⟨iff_of_true restart_ok.2 trivial, fun _ => restart_ok.1⟩

/-- Every index of a run lies inside its table exactly if every beacon of a new transmitter finds a
free entry of the address table. -/
theorem indices_in_bounds_iff (macIeFind : List UInt8 → ℕ → UInt32 → ℕ → Option ℕ)
    (events : List Event) :
    (∀ output ∈ (machine macIeFind).outputs airkissZero events, output.InBounds) ↔
      (machine macIeFind).Always HasRoom airkissZero events :=
  ((machine macIeFind).forall_outputs_iff_always Output.InBounds airkissZero events).trans
    ((machine macIeFind).always_iff_always _ HasRoom TablesOk (fun event ok => (step_ok event ok).1)
      (fun event ok => (step_ok event ok).2) tablesOk_zero events)

/-- A beacon of a transmitter whose address ends in a byte. -/
def beaconFrom (last : UInt8) : List UInt8 :=
  [0x80, 0, 0, 0, 0xFF, 0xFF, 0xFF, 0xFF, 0xFF, 0xFF, 0, 0, 0, 0, 0, last,
    0, 0, 0, 0, 0, last, 0, 0]

/-- A scan is started and the beacons of 51 transmitters are received. -/
def crowdedScan : List Event :=
  .restarted :: (List.range 51).map fun last => .received (beaconFrom (UInt8.ofNat last))

/-- The 51st beacon is entered behind the address table. -/
theorem crowded_scan_out_of_bounds :
    ¬ ∀ output ∈ (machine fun _ _ _ _ => none).outputs airkissZero crowdedScan,
      output.InBounds := by
  decide +kernel

end Frames
end BdkFreertos.Airkiss
