import BdkFreertos.McuPs
import BdkFreertos.SdioNodes
import BdkFreertos.SdcardRead

/-!
# The busy count around the calls of the SDIO and SD card drivers

Every call raises the count of busy peripherals first and lowers it before it returns, except on the
paths that leave behind the decrement.
-/

namespace BdkFreertos.BusyCount

open McuPs Sdio Sdcard

/-- `SDIO_SUCCESS`. -/
def sdioSuccess : UInt32 := 0

/-- `SDIO_FAILURE`. -/
def sdioFailure : UInt32 := 0xffffffff

/-- `SDIO_CMD_REG_RX_CALLBACK`. -/
def sdioCmdRegRxCallback : UInt32 := 0xBC

/-- `SDIO_CMD_GET_CNT_FREE_NODE`. -/
def sdioCmdGetCntFreeNode : UInt32 := 0xBE

/-- `SDIO_CMD_CLEAR_TX_VALID`. -/
def sdioCmdClearTxValid : UInt32 := 0xC0

/-- `SDIO_CMD_SET_TX_VALID`. -/
def sdioCmdSetTxValid : UInt32 := 0xC1

/-- `SDIO_CMD_PEEK_H2S_COUNT`. -/
def sdioCmdPeekH2sCount : UInt32 := 0xC2

def sdioCmdPeekS2hCount : UInt32 := 0xC3

/-- What the drivers work on. -/
structure Drivers where
  info : McuPsInfo
  sdio : SdioState
  rxCb : UInt32
  /-- `INTERACTIVE_RX_VALID_BIT`. -/
  txValid : Bool
  sdcard : SdcardState

def Drivers.busyAdd (drivers : Drivers) : Drivers :=
  { drivers with info := periBusyCountAdd drivers.info }

def Drivers.busyDec (drivers : Drivers) : Drivers :=
  { drivers with info := periBusyCountDec drivers.info }

/-- A pointer, and what a driver finds behind it. -/
structure Pointer where
  address : UInt32
  hdr : FrameHdr
  node : SdioNode
  word : UInt32

/-- The outcome of an allocation, and the header that happens to be in the new memory. -/
structure Allocation where
  succeeds : Bool
  hdr : FrameHdr

variable (nodeAddress : ℕ → UInt32)

/-- `sdio_read` with what it returns; `userBuf` is whether there is a buffer. -/
def sdioRead (drivers : Drivers) (userBuf : Bool) (count opFlag : UInt32) : UInt32 × Drivers :=
  let drivers := drivers.busyAdd
  if opFlag = s2hRdSync then
    -- `rd_exit` is behind the decrement.
    if userBuf = false ∨ count = 0 then
      (sdioFailure, drivers)
    else
      match drivers.sdio.txDat with
      | [] => (sdioFailure, drivers.busyDec)
      | node :: rest =>
          let sdio := sdioFreeValidNode { drivers.sdio with txDat := rest } node
          (node.length, { drivers with sdio }.busyDec)
  else if opFlag = h2sRdSync then
    if userBuf = false ∨ count = 0 then
      (sdioFailure, drivers)
    else
      match drivers.sdio.rxDat with
      | [] => (sdioFailure, drivers.busyDec)
      | node :: rest =>
          let sdio := sdioFreeValidNode { drivers.sdio with rxDat := rest } node
          (node.length, { drivers with sdio }.busyDec)
  else if opFlag = h2sRdSpecial then
    match drivers.sdio.rxDat with
    | [] => (sdioFailure, drivers.busyDec)
    | node :: rest =>
        let sdio := { drivers.sdio with rxDat := rest, held := node :: drivers.sdio.held }
        (nodeAddress node.id, { drivers with sdio }.busyDec)
  else (sdioFailure, drivers.busyDec)

/-- The `switch` of `sdio_ctrl`: what is returned, and what is stored behind the pointer. -/
def sdioCtrlCommand (drivers : Drivers) (cmd : UInt32) (param : Pointer) (alloc : Allocation) :
    UInt32 × Option UInt32 × Drivers :=
  if cmd = sdioCmdPushFreeNode then
    let sdio := { drivers.sdio with held := drivers.sdio.held.erase param.node }
    (sdioSuccess, none, { drivers with sdio := sdioFreeValidNode sdio param.node })
  else if cmd = sdioCmdGetFreeNode then
    match sdioAllocValidNode drivers.sdio param.word alloc.succeeds alloc.hdr with
    | (sdio, none) => (0, none, { drivers with sdio })
    | (sdio, some node) =>
        let sdio := { sdio with held := node :: sdio.held }
        (nodeAddress node.id, none, { drivers with sdio })
  else if cmd = sdioCmdRegRxCallback then
    (sdioSuccess, none, { drivers with rxCb := param.address })
  else if cmd = sdioCmdGetCntFreeNode then
    (sdioSuccess, some (UInt32.ofNat drivers.sdio.freeNodes.length), drivers)
  else if cmd = sdioCmdClearTxValid then
    (sdioSuccess, none, { drivers with txValid := false })
  else if cmd = sdioCmdPeekS2hCount then
    (UInt32.ofNat drivers.sdio.txDat.length, none, drivers)
  else if cmd = sdioCmdPeekH2sCount then
    (UInt32.ofNat drivers.sdio.rxDat.length, none, drivers)
  else if cmd = sdioCmdSetTxValid then
    (sdioSuccess, none, { drivers with txValid := true })
  else (sdioSuccess, none, drivers)

def sdioCtrl (drivers : Drivers) (cmd : UInt32) (param : Pointer) (alloc : Allocation) :
    UInt32 × Option UInt32 × Drivers :=
  let (ret, stored, drivers) := sdioCtrlCommand nodeAddress drivers.busyAdd cmd param alloc
  (ret, stored, drivers.busyDec)

/-- The tail of `S2H_WR_SYNC` and `S2H_WR_SPECIAL`: the host is told that there are data. -/
def sendNode (drivers : Drivers) (buffer : Pointer) (alloc : Allocation) : UInt32 × Drivers :=
  let (_, _, drivers) :=
    sdioCtrl nodeAddress drivers sdioCmdSetTxValid { buffer with address := 0 } alloc
  (sdioSuccess, drivers.busyDec)

/-- `sdio_write`; a call without a buffer has no pointer. -/
def sdioWrite (drivers : Drivers) (userBuf : Option Pointer) (count opFlag : UInt32)
    (alloc : Allocation) : UInt32 × Drivers :=
  let drivers := drivers.busyAdd
  match userBuf with
  | none =>
      -- `exit_wr` is behind the decrement.
      if opFlag = s2hWrSync ∨ opFlag = s2hWrSpecial ∨ opFlag = h2sWrSync then
        (sdioFailure, drivers)
      else (sdioFailure, drivers.busyDec)
  | some buffer =>
      if opFlag = s2hWrSync then
        if count = 0 then
          (sdioFailure, drivers)
        else
          match sdioAllocValidNode drivers.sdio count alloc.succeeds buffer.hdr with
          | (sdio, none) => (sdioFailure, { drivers with sdio }.busyDec)
          | (sdio, some node) =>
              let sdio := { sdio with txDat := sdio.txDat ++ [node] }
              sendNode nodeAddress { drivers with sdio } buffer alloc
      else if opFlag = s2hWrSpecial then
        if count = 0 then
          (sdioFailure, drivers)
        else
          let sdio :=
            { drivers.sdio with
              txDat := drivers.sdio.txDat ++ [buffer.node]
              held := drivers.sdio.held.erase buffer.node }
          sendNode nodeAddress { drivers with sdio } buffer alloc
      else if opFlag = h2sWrSync then
        if count = 0 then
          (sdioFailure, drivers)
        else
          match sdioAllocValidNode drivers.sdio count alloc.succeeds buffer.hdr with
          | (sdio, none) => (sdioFailure, { drivers with sdio }.busyDec)
          | (sdio, some node) =>
              let sdio := { sdio with rxDat := sdio.rxDat ++ [node] }
              (sdioSuccess, { drivers with sdio }.busyDec)
      else (sdioFailure, drivers.busyDec)

/-- `sdcard_read`: what it returns and the blocks it has read are in `SdcardRead`. -/
def sdcardRead (drivers : Drivers) (card : SdcardRead.CardSide) (buffer : Memory UInt8)
    (count opFlag : UInt32) : UInt32 × Drivers :=
  let drivers := drivers.busyAdd
  let (count, reading) := SdcardRead.sdcardRead card drivers.sdcard buffer count opFlag
  (count, { drivers with sdcard := { drivers.sdcard with card := reading.bus.card } }.busyDec)

/-- The error of `sdcard_write_multi_block`. -/
def sdcardWriteMultiBlockErr (addrShiftBit : UInt32) (state : SdcardState) (first count : UInt32)
    (answers : Answers Bool) : ℕ :=
  let (ret, bus) :=
    beginWrite addrShiftBit (opFlag state .write first) first count answers ⟨state.card, []⟩
  if ret ≠ sdOk then ret + (sdcardSendWriteStop bus answers.finalStatusOk answers.final ret).1
  else ret

def sdcardWrite (drivers : Drivers) (addrShiftBit count opFlag : UInt32) (answers : Answers Bool) :
    UInt32 × Drivers :=
  let drivers := drivers.busyAdd
  let err := sdcardWriteMultiBlockErr addrShiftBit drivers.sdcard opFlag count answers
  let (sdcard, _) := sdcardWriteMultiBlock addrShiftBit drivers.sdcard opFlag count answers
  (UInt32.ofNat err, { drivers with sdcard }.busyDec)

/-- A call, with how the layers below answer it. -/
inductive Call
  | sdioRead (userBuf : Bool) (count opFlag : UInt32)
  | sdioWrite (userBuf : Option Pointer) (count opFlag : UInt32) (alloc : Allocation)
  | sdioCtrl (cmd : UInt32) (param : Pointer) (alloc : Allocation)
  | sdcardRead (card : SdcardRead.CardSide) (buffer : Memory UInt8) (count opFlag : UInt32)
  | sdcardWrite (addrShiftBit count opFlag : UInt32) (answers : Answers Bool)

/-- The drivers after a call. -/
def perform (drivers : Drivers) : Call → UInt32 × Drivers
  | .sdioRead userBuf count opFlag => sdioRead nodeAddress drivers userBuf count opFlag
  | .sdioWrite userBuf count opFlag alloc =>
      sdioWrite nodeAddress drivers userBuf count opFlag alloc
  | .sdioCtrl cmd param alloc =>
      let (ret, _, drivers) := sdioCtrl nodeAddress drivers cmd param alloc
      (ret, drivers)
  | .sdcardRead card buffer count opFlag => sdcardRead drivers card buffer count opFlag
  | .sdcardWrite addrShiftBit count opFlag answers =>
      sdcardWrite drivers addrShiftBit count opFlag answers

def machine : Machine Drivers Call UInt32 where
  step drivers call := (perform nodeAddress drivers call).swap

/-- A call that `sdio_read` or `sdio_write` refuses for want of a buffer or of bytes. -/
def Refused : Call → Prop
  | .sdioRead userBuf count opFlag =>
      (opFlag = s2hRdSync ∨ opFlag = h2sRdSync) ∧ (userBuf = false ∨ count = 0)
  | .sdioWrite userBuf count opFlag _ =>
      (opFlag = s2hWrSync ∨ opFlag = s2hWrSpecial ∨ opFlag = h2sWrSync) ∧
        (userBuf.isNone = true ∨ count = 0)
  | _ => False

instance : DecidablePred Refused
  | .sdioRead .. => inferInstanceAs (Decidable (_ ∧ _))
  | .sdioWrite .. => inferInstanceAs (Decidable (_ ∧ _))
  | .sdioCtrl .. => isFalse id
  | .sdcardRead .. => isFalse id
  | .sdcardWrite .. => isFalse id

/-! ## The count after one call -/

abbrev Drivers.busy (drivers : Drivers) : Int32 := drivers.info.periBusyCount

variable {after : Drivers} {call : Call} (drivers : Drivers) (buffer : Pointer) (cmd : UInt32)
  (blk512 userBuf : Bool) (param : Pointer) (count : UInt32) (alloc : Allocation)

theorem busy_busyAdd : drivers.busyAdd.busy = drivers.busy + 1 := rfl

theorem busy_returned {drivers : Drivers} (raised : after.busy = drivers.busyAdd.busy) :
    after.busyDec.busy = drivers.busy := by
  change after.busy - 1 = drivers.busy
  rw [raised, busy_busyAdd, Int32.add_sub_cancel]

theorem sdioRead_busy (opFlag : UInt32) :
    (sdioRead nodeAddress drivers userBuf count opFlag).2.busy =
      drivers.busy + if Refused (.sdioRead userBuf count opFlag) then 1 else 0 := by
  simp only [sdioRead, Refused]
  split
  · rename_i toHost
    simp only [toHost, true_or, true_and]
    split
    · rfl
    · rw [Int32.add_zero]
      split <;> exact busy_returned rfl
  · split
    · rename_i fromHost
      simp only [fromHost, or_true, true_and]
      split
      · rfl
      · rw [Int32.add_zero]
        split <;> exact busy_returned rfl
    · rename_i notToHost notFromHost
      simp only [notToHost, notFromHost, or_false, false_and, if_false, Int32.add_zero]
      split
      · split <;> exact busy_returned rfl
      · exact busy_returned rfl

theorem sdioCtrlCommand_busy :
    (sdioCtrlCommand nodeAddress drivers cmd param alloc).2.2.busy = drivers.busy := by
  unfold sdioCtrlCommand
  repeat' split
  all_goals rfl

theorem sdioCtrl_busy : (sdioCtrl nodeAddress drivers cmd param alloc).2.2.busy = drivers.busy := by
  exact busy_returned (sdioCtrlCommand_busy nodeAddress drivers.busyAdd cmd param alloc)

theorem sendNode_busy (raised : after.busy = drivers.busyAdd.busy) (buffer : Pointer)
    (alloc : Allocation) : (sendNode nodeAddress after buffer alloc).2.busy = drivers.busy :=
  busy_returned ((sdioCtrl_busy nodeAddress after sdioCmdSetTxValid { buffer with address := 0 }
    alloc).trans raised)

theorem sdioWrite_busy (userBuf : Option Pointer) (count opFlag : UInt32) (alloc : Allocation) :
    (sdioWrite nodeAddress drivers userBuf count opFlag alloc).2.busy =
      drivers.busy + if Refused (.sdioWrite userBuf count opFlag alloc) then 1 else 0 := by
  cases userBuf with
  | none =>
      simp only [sdioWrite, Refused, Option.isNone_none, true_or, and_true]
      split
      · rfl
      · rw [Int32.add_zero]
        exact busy_returned rfl
  | some buffer =>
      simp only [sdioWrite, Refused, Option.isNone_some, Bool.false_eq_true, false_or]
      by_cases empty : count = 0
      · simp only [empty, if_true, and_true]
        split
        · rename_i toHost
          rw [if_pos (.inl toHost), busy_busyAdd]
        · split
          · rename_i special
            rw [if_pos (.inr (.inl special)), busy_busyAdd]
          · split
            · rename_i fromHost
              rw [if_pos (.inr (.inr fromHost)), busy_busyAdd]
            · rename_i notToHost notSpecial notFromHost
              rw [if_neg fun flagged => flagged.elim notToHost (Or.rec notSpecial notFromHost),
                Int32.add_zero]
              exact busy_returned rfl
      · simp only [empty, if_false, and_false, Int32.add_zero]
        split
        · split
          · exact busy_returned rfl
          · exact sendNode_busy nodeAddress drivers rfl buffer alloc
        · split
          · exact sendNode_busy nodeAddress drivers rfl buffer alloc
          · split
            · split <;> exact busy_returned rfl
            · exact busy_returned rfl

theorem perform_busy (call : Call) :
    (perform nodeAddress drivers call).2.busy = drivers.busy + if Refused call then 1 else 0 := by
  cases call with
  | sdioRead userBuf count opFlag => exact sdioRead_busy nodeAddress drivers userBuf count opFlag
  | sdioWrite userBuf count opFlag alloc =>
      exact sdioWrite_busy nodeAddress drivers userBuf count opFlag alloc
  | sdioCtrl cmd param alloc =>
      have accepted : ¬Refused (.sdioCtrl cmd param alloc) := id
      rw [if_neg accepted, Int32.add_zero]
      exact sdioCtrl_busy nodeAddress drivers cmd param alloc
  | sdcardRead card buffer count opFlag =>
      have accepted : ¬Refused (.sdcardRead card buffer count opFlag) := id
      rw [if_neg accepted, Int32.add_zero]
      exact busy_returned rfl
  | sdcardWrite addrShiftBit count opFlag answers =>
      have accepted : ¬Refused (.sdcardWrite addrShiftBit count opFlag answers) := id
      rw [if_neg accepted, Int32.add_zero]
      exact busy_returned rfl

/-- A call leaves the count as it found it exactly if it is not refused for want of a buffer or of
bytes. -/
theorem busyCount_balanced_iff (drivers : Drivers) (call : Call) :
    (perform nodeAddress drivers call).2.info.periBusyCount = drivers.info.periBusyCount ↔
      ¬Refused call := by
  change (perform nodeAddress drivers call).2.busy = drivers.busy ↔ ¬Refused call
  rw [perform_busy]
  by_cases refused : Refused call
  · rw [if_pos refused, Int32.add_eq_left]
    exact iff_of_false (by decide) (not_not.mpr refused)
  · rw [if_neg refused, Int32.add_zero]
    exact iff_of_true rfl refused

/-- `sdio_read` of nothing. -/
theorem busyCount_not_balanced :
    ¬∀ (nodeAddress : ℕ → UInt32) (drivers : Drivers) (call : Call),
      (perform nodeAddress drivers call).2.info.periBusyCount = drivers.info.periBusyCount := by
  intro every
  have balanced := every (fun _ => 0) ⟨mcuPsInfo, sdioInit, 0, false, sdcardInitialize⟩
    (.sdioRead true 0 s2hRdSync)
  exact absurd balanced (by decide)

/-! ## Runs of calls -/

theorem run_busy (calls : List Call) :
    ((machine nodeAddress).run drivers calls).busy =
      drivers.busy + Int32.ofNat (calls.countP (Refused ·)) := by
  induction calls generalizing drivers with
  | nil => exact (Int32.add_zero _).symm
  | cons call calls induction =>
      have step : ((machine nodeAddress).step drivers call).1.busy =
          drivers.busy + if Refused call then 1 else 0 := perform_busy nodeAddress drivers call
      rw [Machine.run_cons, induction, step, List.countP_cons, Int32.ofNat_add, Int32.add_assoc,
        Int32.add_comm (Int32.ofNat _)]
      congr 2
      by_cases refused : Refused call
      · simp [refused]
      · simp [refused]

/-- After a refused call peripherals stay busy, and the processor does not sleep any more. -/
theorem no_sleep_of_refused {drivers : Drivers} (idle : drivers.busy = 0) {calls : List Call}
    (some_refused : 0 < calls.countP (Refused ·)) (few : calls.countP (Refused ·) < 2 ^ 31)
    (sleepTick : UInt32) :
    let final := (machine nodeAddress).run drivers calls
    final.busy ≠ 0 ∧ mcuPowerSave final.info sleepTick = none := by
  intro final
  have busy : final.busy = Int32.ofNat (calls.countP (Refused ·)) := by
    rw [run_busy nodeAddress drivers calls, idle, Int32.zero_add]
  have not_zero : final.busy ≠ 0 := by
    intro zero
    have counted := congrArg Int32.toInt (zero.symm.trans busy)
    rw [Int32.toInt_ofNat_of_lt few, Int32.toInt_zero] at counted
    omega
  exact ⟨not_zero, if_neg fun awake => not_zero (congrArg Int32.ofUInt32 awake.2.1)⟩

/-- With the power save on the processor would sleep before an empty read, and does not behind it. -/
theorem no_sleep_after_empty_read :
    let drivers : Drivers := ⟨mcuPsInit mcuPsInfo, sdioInit, 0, false, sdcardInitialize⟩
    let final := (machine fun _ => 0).run drivers [.sdioRead true 0 s2hRdSync]
    mcuPowerSave drivers.info 5 ≠ none ∧ final.info.mcuPsOn = 1 ∧ final.busy ≠ 0 ∧
      mcuPowerSave final.info 5 = none :=
  ⟨by decide, by decide, no_sleep_of_refused (fun _ => 0) rfl (by decide) (by decide) 5⟩

/-! ## The nodes

A call moves nodes as in the model of the nodes alone.
-/

@[simp]
theorem sdio_busyAdd : drivers.busyAdd.sdio = drivers.sdio := rfl

@[simp]
theorem sdio_busyDec : drivers.busyDec.sdio = drivers.sdio := rfl

theorem sdioRead_sdio (opFlag : UInt32) :
    (sdioRead nodeAddress drivers userBuf count opFlag).2.sdio =
      Sdio.sdioRead drivers.sdio userBuf count opFlag := by
  unfold sdioRead Sdio.sdioRead
  simp only [sdio_busyAdd]
  by_cases toHost : opFlag = s2hRdSync
  · simp only [if_pos toHost]
    by_cases empty : userBuf = false ∨ count = 0
    · simp [if_pos empty]
    · simp only [if_neg empty]
      cases drivers.sdio.txDat <;> rfl
  · simp only [if_neg toHost]
    by_cases fromHost : opFlag = h2sRdSync
    · simp only [if_pos fromHost]
      by_cases empty : userBuf = false ∨ count = 0
      · simp [if_pos empty]
      · simp only [if_neg empty]
        cases drivers.sdio.rxDat <;> rfl
    · simp only [if_neg fromHost]
      by_cases special : opFlag = h2sRdSpecial
      · simp only [if_pos special]
        cases drivers.sdio.rxDat <;> rfl
      · simp [if_neg special]

theorem sendNode_sdio : (sendNode nodeAddress drivers buffer alloc).2.sdio = drivers.sdio := rfl

theorem sdioWrite_sdio (opFlag : UInt32) (alloc : Allocation) (sync : opFlag ≠ s2hWrSpecial) :
    (sdioWrite nodeAddress drivers (some buffer) count opFlag alloc).2.sdio =
      Sdio.sdioWrite drivers.sdio (.data buffer.hdr) count opFlag alloc.succeeds := by
  unfold sdioWrite Sdio.sdioWrite
  simp only [sdio_busyAdd, if_neg sync]
  by_cases empty : count = 0
  · simp only [if_pos empty]
    split_ifs <;> rfl
  · simp only [if_neg empty]
    by_cases toHost : opFlag = s2hWrSync
    · simp only [if_pos toHost]
      rcases sdioAllocValidNode drivers.sdio count alloc.succeeds buffer.hdr with ⟨sdio, _ | node⟩
      · rfl
      · exact sendNode_sdio ..
    · simp only [if_neg toHost]
      by_cases fromHost : opFlag = h2sWrSync
      · simp only [if_pos fromHost]
        rcases sdioAllocValidNode drivers.sdio count alloc.succeeds buffer.hdr with ⟨sdio, _ | node⟩
        all_goals rfl
      · simp [if_neg fromHost]

theorem sdioWrite_sdio_of_special (held : buffer.node ∈ drivers.sdio.held) :
    (sdioWrite nodeAddress drivers (some buffer) count s2hWrSpecial alloc).2.sdio =
      Sdio.sdioWrite drivers.sdio (.node buffer.node) count s2hWrSpecial alloc.succeeds := by
  unfold sdioWrite Sdio.sdioWrite
  have notSync : s2hWrSpecial ≠ s2hWrSync := by decide
  by_cases empty : count = 0
  · simp [if_pos empty]
  · simp [if_neg notSync, if_neg empty, held, sendNode_sdio]

theorem sdioCtrl_sdio_push (held : param.node ∈ drivers.sdio.held) :
    (sdioCtrl nodeAddress drivers sdioCmdPushFreeNode param alloc).2.2.sdio =
      Sdio.sdioCtrl drivers.sdio sdioCmdPushFreeNode (.node param.node) alloc.succeeds := by
  have accepted : sdioCmdPushFreeNode = sdioCmdPushFreeNode ∧ param.node ∈ drivers.sdio.held :=
    ⟨rfl, held⟩
  rw [Sdio.sdioCtrl, if_pos accepted]
  rfl

theorem sdioCtrl_sdio {cmd : UInt32} (other : cmd ≠ sdioCmdPushFreeNode) (param : Pointer)
    (alloc : Allocation) :
    (sdioCtrl nodeAddress drivers cmd param alloc).2.2.sdio =
      Sdio.sdioCtrl drivers.sdio cmd (.size param.word alloc.hdr) alloc.succeeds := by
  unfold sdioCtrl sdioCtrlCommand Sdio.sdioCtrl
  simp only [if_neg other, sdio_busyAdd]
  by_cases get : cmd = sdioCmdGetFreeNode
  · simp only [if_pos get]
    rcases sdioAllocValidNode drivers.sdio param.word alloc.succeeds alloc.hdr with ⟨sdio, _ | node⟩
    all_goals rfl
  · simp only [if_neg get]
    split_ifs <;> rfl

theorem sdcardRead_sdcard (card : SdcardRead.CardSide) (buffer : Memory UInt8)
    (count opFlag : UInt32) :
    (sdcardRead drivers card buffer count opFlag).2.sdcard =
      (Sdcard.sdcardRead card.addrShiftBit drivers.sdcard opFlag count card.responses
        card.data).1 := by
  change { drivers.sdcard with
    card := (SdcardRead.sdcardRead card drivers.sdcard buffer count opFlag).2.bus.card } = _
  simp [SdcardRead.sdcardRead, Sdcard.sdcardRead, SdcardRead.readBlocks_bus]

/-! ## Runs of calls and the nodes -/

/-- The step that a call is in the model of the nodes. -/
def Call.event : Call → Option Sdio.Event
  | .sdioRead userBuf count opFlag => some (.read userBuf count opFlag)
  | .sdioWrite none count opFlag alloc => some (.write .null count opFlag alloc.succeeds)
  | .sdioWrite (some buffer) count opFlag alloc =>
      let passed : UserBuf :=
        if opFlag = s2hWrSpecial then .node buffer.node else .data buffer.hdr
      some (.write passed count opFlag alloc.succeeds)
  | .sdioCtrl cmd param alloc =>
      let passed : CtrlParam :=
        if cmd = sdioCmdPushFreeNode then .node param.node else .size param.word alloc.hdr
      some (.ctrl cmd passed alloc.succeeds)
  | .sdcardRead .. => none
  | .sdcardWrite .. => none

/-- A user passes the driver no node but one it holds. -/
def PassesHeld (drivers : Drivers) : Call → Prop
  | .sdioWrite (some buffer) _ opFlag _ =>
      opFlag = s2hWrSpecial → buffer.node ∈ drivers.sdio.held
  | .sdioCtrl cmd param _ => cmd = sdioCmdPushFreeNode → param.node ∈ drivers.sdio.held
  | _ => True

theorem perform_sdio (drivers : Drivers) (held : PassesHeld drivers call) :
    (perform nodeAddress drivers call).2.sdio =
      call.event.elim drivers.sdio fun event => (handle blk512 drivers.sdio event).1 := by
  cases call with
  | sdioRead userBuf count opFlag => exact sdioRead_sdio nodeAddress drivers userBuf count opFlag
  | sdioWrite userBuf count opFlag alloc =>
      cases userBuf with
      | none =>
          have kept : (sdioWrite nodeAddress drivers none count opFlag alloc).2.sdio =
              drivers.sdio := by
            unfold sdioWrite
            split_ifs <;> rfl
          refine kept.trans ?_
          simp [Call.event, handle, Sdio.sdioWrite]
      | some buffer =>
          by_cases special : opFlag = s2hWrSpecial
          · subst special
            exact sdioWrite_sdio_of_special nodeAddress drivers buffer count alloc (held rfl)
          · simp only [Call.event, if_neg special]
            exact sdioWrite_sdio nodeAddress drivers buffer count opFlag alloc special
  | sdioCtrl cmd param alloc =>
      by_cases push : cmd = sdioCmdPushFreeNode
      · subst push
        exact sdioCtrl_sdio_push nodeAddress drivers param alloc (held rfl)
      · simp only [Call.event, if_neg push]
        exact sdioCtrl_sdio nodeAddress drivers push param alloc
  | sdcardRead card buffer count opFlag => rfl
  | sdcardWrite addrShiftBit count opFlag answers => rfl

theorem event_keeps (state : SdioState) {event : Sdio.Event} (made : call.event = some event) :
    KeepsNodes state (handle blk512 state event).1 := by
  cases call with
  | sdioRead userBuf count opFlag =>
      cases made
      exact sdioRead_keeps ..
  | sdioWrite userBuf count opFlag alloc =>
      cases userBuf with
      | none =>
          cases made
          exact sdioWrite_keeps state .null count opFlag alloc.succeeds
      | some buffer =>
          cases made
          exact sdioWrite_keeps ..
  | sdioCtrl cmd param alloc =>
      cases made
      exact sdioCtrl_keeps ..
  | sdcardRead => cases made
  | sdcardWrite => cases made

/-- The calls of a run move the nodes as the model of the nodes does, and lose none of them. -/
theorem run_sdio (blk512 : Bool) {drivers : Drivers} (running : drivers.sdio.halted = false)
    {calls : List Call} (held : (machine nodeAddress).Always PassesHeld drivers calls) :
    let after := ((machine nodeAddress).run drivers calls).sdio
    after = (Sdio.machine blk512).run drivers.sdio (calls.filterMap Call.event) ∧
      ∀ id, after.copies id = drivers.sdio.copies id := by
  let related (later : Drivers) (state : SdioState) : Prop :=
    later.sdio = state ∧ state.halted = false ∧ ∀ id, state.copies id = drivers.sdio.copies id
  have final : related ((machine nodeAddress).run drivers calls)
      ((Sdio.machine blk512).run drivers.sdio (calls.filterMap Call.event)) := by
    refine (machine nodeAddress).run_simulation_of_stuttering (Sdio.machine blk512) PassesHeld
      related Call.event ?_ ⟨rfl, running, fun _ => rfl⟩ held
    rintro later state call ⟨rfl, still_running, copies⟩ held
    have step : ((machine nodeAddress).step later call).1.sdio =
        call.event.elim later.sdio fun event => (handle blk512 later.sdio event).1 :=
      perform_sdio nodeAddress blk512 later held
    cases made : call.event with
    | none =>
        rw [made] at step
        exact ⟨step, still_running, copies⟩
    | some event =>
        rw [made] at step
        have keeps : KeepsNodes later.sdio (handle blk512 later.sdio event).1 :=
          event_keeps blk512 later.sdio made
        have nodes_step : (Sdio.machine blk512).run later.sdio (some event).toList =
            (handle blk512 later.sdio event).1 := by
          simp [Sdio.machine, still_running]
        rw [nodes_step]
        exact ⟨step, keeps.links.halted.trans still_running,
          fun id => (keeps.copies id).trans (copies id)⟩
  exact ⟨final.1, fun id => by rw [final.1, final.2.2 id]⟩

theorem run_sdio_fetched_node :
    let drivers : Drivers := ⟨mcuPsInfo, sdioInit, 0, false, sdcardInitialize⟩
    let node : SdioNode := ⟨0, 124, 4, ⟨0, 0⟩⟩
    let buffer : Pointer := ⟨0, ⟨0, 0⟩, node, 4⟩
    let calls : List Call :=
      [.sdioRead true 0 s2hRdSync, .sdioCtrl sdioCmdGetFreeNode buffer ⟨true, ⟨0, 0⟩⟩,
        .sdioWrite (some buffer) 4 s2hWrSpecial ⟨true, ⟨0, 0⟩⟩]
    let after := ((machine fun _ => 0).run drivers calls).sdio
    after = (Sdio.machine true).run drivers.sdio (calls.filterMap Call.event) ∧
      ∀ id, after.copies id = drivers.sdio.copies id :=
  run_sdio (fun _ => 0) true rfl
    ⟨trivial, fun push => absurd push (by decide), fun _ => by decide, trivial⟩

end BdkFreertos.BusyCount
