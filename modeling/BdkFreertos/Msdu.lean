import BdkFreertos.Arena
import BdkFreertos.Machine
import Mathlib.Data.Int.Notation
import Mathlib.Logic.Function.Basic

/-!
# Transmission and the power-save lists of the soft access point

Frames for the MAC travel through the message queue of the core thread, which makes a node of each
one.  A node for a sleeping station of the access point waits in that station's list until a message
of its own, sent when the station wakes up, takes it out again.  The core thread alone puts nodes
into a list and hands them to the MAC; the timer task and the supplicant flush lists, the message
thread of the MAC reports power states, and all of them may run while a handler of the core thread
is under way.
-/

namespace BdkFreertos.Msdu

/-! ## Tables of the MAC -/

/-- `NX_REMOTE_STA_MAX`, the stations a table entry is kept for. -/
def nxRemoteStaMax : ℕ := 2

/-- `NX_VIRT_DEV_MAX`. -/
def nxVirtDevMax : ℕ := 2

/-- `MAX_PS_STA_NUM`, which is `BROADCAST_STA_IDX_MIN`. -/
def maxPsStaNum : ℕ := nxRemoteStaMax

def coreQitemCount : ℕ := 64

def acVi : ℕ := 2

def staQosCapa : UInt32 := 1

def txuCntrlMoreData : UInt32 := 4

/-- Interface types `VIF_*`. -/
inductive VifType
  | sta
  | ibss
  | ap
  | meshPoint
  | unknown
  deriving DecidableEq

/-- An entry of `vif_info_tab`. -/
structure VifInfo where
  type : VifType
  active : Bool
  /-- `u.sta.ap_id`. -/
  apId : UInt8
  /-- `bss_info.edca_param.acm`. -/
  acm : UInt8

/-- An entry of `sta_info_tab`. -/
structure StaInfo where
  macAddr : List UInt8
  psState : UInt8
  instNbr : UInt8
  aid : UInt8
  capaFlags : UInt32

/-- The tables the MAC library keeps, with its map from traffic identifiers to access categories. -/
structure MacTables where
  vifInfoTab : UInt8 → VifInfo
  staInfoTab : UInt8 → StaInfo
  macTid2ac : UInt8 → ℕ

def rwmMgmtVifIdx2ptr (tables : MacTables) (vifIdx : UInt8) : Option VifInfo :=
  if vifIdx.toNat < nxVirtDevMax then some (tables.vifInfoTab vifIdx) else none

def rwmMgmtIsApInface (tables : MacTables) (vifIdx : UInt8) : Bool :=
  (tables.vifInfoTab vifIdx).type = .ap

/-- The index of the station with an address, or `0xff`. -/
def rwmMgmtStaMac2idx (tables : MacTables) (mac : List UInt8) : UInt8 :=
  match (List.range nxRemoteStaMax).find? fun i =>
    (tables.staInfoTab (UInt8.ofNat i)).macAddr = mac with
  | some i => UInt8.ofNat i
  | none => 0xff

/-- The station index for a frame: the access point's for a station interface, the peer's for an
access point, and that of the interface's group traffic where there is none. -/
def rwmMgmtTxGetStaidx (tables : MacTables) (vifIdx : UInt8) (dstmac : List UInt8) : UInt8 :=
  let staid :=
    match rwmMgmtVifIdx2ptr tables vifIdx with
    | none => 0xff
    | some vif =>
        match vif.type with
        | .sta => vif.apId
        | .ap => rwmMgmtStaMac2idx tables dstmac
        | _ => 0xff
  if staid = 0xff then UInt8.ofNat nxRemoteStaMax + vifIdx else staid

def staMgmtIsInPs (tables : MacTables) (staIdx : UInt8) : Bool :=
  (tables.staInfoTab staIdx).psState ≠ 0

/-! ## Nodes and messages -/

/-- An Ethernet frame. -/
structure EthFrame where
  dest : List UInt8
  src : List UInt8
  proto : UInt16
  len : UInt32
  deriving DecidableEq

/-- A node `MSDU_NODE_T`, with the frame it carries; `args` names the control block of a synchronous
sender. -/
structure MsduNode where
  frame : EthFrame
  vifIdx : UInt8
  staIdx : UInt8
  sync : Bool
  args : ℕ
  deriving DecidableEq

/-- A transmit descriptor as given to `txu_cntrl_push`, with the access category. -/
structure TxDesc where
  msduNode : ℕ
  flags : UInt32
  ethDestAddr : List UInt8
  ethSrcAddr : List UInt8
  packetLen : UInt32
  ethertype : UInt16
  tid : UInt8
  vifIdx : UInt8
  staid : UInt8
  /-- Whether the sender is called back on completion. -/
  callback : Bool
  queueIdx : ℕ
  deriving DecidableEq

/-- A request `MM_TIM_UPDATE_REQ`. -/
structure TimUpdate where
  vifIdx : UInt8
  aid : UInt8
  txAvail : Bool
  deriving DecidableEq

/-- A message of the core queue. -/
inductive BusMsg
  /-- A frame of `BMSG_TX_TYPE` or of `BMSG_SKT_TX_TYPE`. -/
  | tx (vifIdx : UInt8) (frame : EthFrame) (sync : Bool) (args : ℕ)
  /-- `BMSG_TXING_TYPE`. -/
  | txing (staIdx : UInt8)
  | other

/-- The lists of the access point, the core queue, and what the MAC has been given. -/
structure TxState where
  tables : MacTables
  /-- `g_ap_ps.active`. -/
  active : Bool
  /-- The list `sta_ps[].txing` of each station. -/
  txing : Fin maxPsStaNum → List ℕ
  /-- Whether the timer `sta_ps[].timer` runs. -/
  timer : Fin maxPsStaNum → Bool
  ioQueue : List BusMsg
  /-- The packet count of the MAC, as far as this code changes it. -/
  pckCnt : ℤ
  /-- The indication updates asked for, oldest first. -/
  timUpdates : List TimUpdate
  heap : Arena MsduNode
  /-- The descriptors given to the MAC, oldest first. -/
  pushed : List TxDesc

/-- The state after `rwm_msdu_init`. -/
def rwmMsduInit (tables : MacTables) : TxState where
  tables := tables
  active := true
  txing := fun _ => []
  timer := fun _ => false
  ioQueue := []
  pckCnt := 0
  timUpdates := []
  heap := .empty
  pushed := []

def slot (staIdx : UInt8) : Option (Fin maxPsStaNum) :=
  if inside : staIdx.toNat < maxPsStaNum then some ⟨staIdx.toNat, inside⟩ else none

namespace TxState

def setTxing (state : TxState) (i : Fin maxPsStaNum) (nodes : List ℕ) : TxState :=
  { state with txing := Function.update state.txing i nodes }

def setTimer (state : TxState) (i : Fin maxPsStaNum) (running : Bool) : TxState :=
  { state with timer := Function.update state.timer i running }

/-- `txl_cntrl_inc_pck_cnt`. -/
def incPckCnt (state : TxState) : TxState :=
  { state with pckCnt := state.pckCnt + 1 }

/-- `txl_cntrl_dec_pck_cnt`. -/
def decPckCnt (state : TxState) : TxState :=
  { state with pckCnt := state.pckCnt - 1 }

/-- Read a node. -/
def readNode (state : TxState) (node : ℕ) : TxState × Option MsduNode :=
  let (heap, value) := state.heap.read node
  ({ state with heap := heap }, value)

end TxState

def rwmNodeFree (state : TxState) (node : ℕ) : TxState :=
  { state with heap := state.heap.free node }

/-! ## The lists -/

/-- Put a node at the end of a station's list. -/
def rwmPushTxingList (state : TxState) (node : ℕ) (staIdx : UInt8) : TxState :=
  match slot staIdx with
  | none => state
  | some i => state.setTxing i (state.txing i ++ [node])

/-- Take the first node out of a station's list. -/
def rwmPopTxingList (state : TxState) (staIdx : UInt8) : TxState × Option ℕ :=
  match slot staIdx with
  | none => (state, none)
  | some i =>
      match state.txing i with
      | [] => (state, none)
      | node :: rest => (state.setTxing i rest, some node)

/-- The number of nodes in a station's list. -/
def rwmTxlingListNodeCount (state : TxState) (staIdx : UInt8) : ℕ :=
  match slot staIdx with
  | none => 0
  | some i => (state.txing i).length

/-- One round of a flush. -/
def flushRound (state : TxState) (staIdx : UInt8) : TxState :=
  match rwmPopTxingList state staIdx with
  | (state, some node) => rwmNodeFree state node
  | (state, none) => state

/-- Rounds of a flush. -/
def flushRounds : ℕ → TxState → UInt8 → TxState
  | 0, state, _ => state
  | rounds + 1, state, staIdx => flushRounds rounds (flushRound state staIdx) staIdx

/-- Free all nodes of a station's list and stop its timer. -/
def rwmFlushTxingList (state : TxState) (staIdx : UInt8) : TxState :=
  match slot staIdx with
  | none => state
  | some i =>
      (flushRounds (rwmTxlingListNodeCount state staIdx) state staIdx).setTimer i false

/-! ## The core queue -/

/-- Push a message unless the queue is full. -/
def pushToQueue (state : TxState) (msg : BusMsg) : TxState :=
  if state.ioQueue.length < coreQitemCount then
    { state with ioQueue := state.ioQueue ++ [msg] }
  else
    state

def bmsgTxingSender (state : TxState) (staIdx : UInt8) : TxState :=
  pushToQueue state (.txing staIdx)

/-- Ask the MAC to set or clear a station's indication; `sent` tells whether the request could be
allocated. -/
def rwMsgSendTimUpdate (sent : Bool) (state : TxState) (staIdx : UInt8) (txAvail : Bool) : TxState :=
  let sta := state.tables.staInfoTab staIdx
  if sent then
    { state with timUpdates := state.timUpdates ++ [⟨sta.instNbr, sta.aid, txAvail⟩] }
  else
    state

/-! ## Other threads -/

/-- Note the new power state of a station. -/
def rwmMsduPsChangeIndHandler (state : TxState) (staIdx psState : UInt8) : TxState :=
  match slot staIdx with
  | none => state
  | some i =>
      if rwmTxlingListNodeCount state staIdx = 0 then
        state
      else if psState = 0 then
        (bmsgTxingSender state staIdx).setTimer i false
      else if psState = 1 then
        state.setTimer i true
      else
        state

/-- What other threads do. -/
inductive Interference
  | tables (tables : MacTables)
  /-- The MAC changes a station's power state. -/
  | powerState (staIdx psState : UInt8)
  /-- The indication `MM_PS_CHANGE_IND` is handled. -/
  | psChangeInd (staIdx psState : UInt8)
  /-- A station's list is flushed, as the station is added or deleted. -/
  | flush (staIdx : UInt8)
  /-- One round of a flush that takes turns with others. -/
  | flushRound (staIdx : UInt8)
  | timeout (staIdx : UInt8)
  | send (msg : BusMsg)

/-- Change the power state of a station in the tables. -/
def MacTables.setPsState (tables : MacTables) (staIdx psState : UInt8) : MacTables :=
  { tables with
    staInfoTab := Function.update tables.staInfoTab staIdx
      { tables.staInfoTab staIdx with psState := psState } }

def rwmMsduApPsTimeout (state : TxState) (staIdx : UInt8) : TxState :=
  rwmFlushTxingList state staIdx

/-- Let another thread run. -/
def interfere (state : TxState) : Interference → TxState
  | .tables tables => { state with tables := tables }
  | .powerState staIdx psState =>
      { state with tables := state.tables.setPsState staIdx psState }
  | .psChangeInd staIdx psState => rwmMsduPsChangeIndHandler state staIdx psState
  | .flush staIdx => rwmFlushTxingList state staIdx
  | .flushRound staIdx => flushRound state staIdx
  | .timeout staIdx =>
      if (slot staIdx).any state.timer then rwmMsduApPsTimeout state staIdx else state
  | .send msg => pushToQueue state msg

def interfereAll (state : TxState) (during : List Interference) : TxState :=
  during.foldl interfere state

/-! ## Handing a node to the MAC -/

/-- What the surroundings of a handler of the core thread decide. -/
structure Outcome where
  copied : Bool
  allocated : Bool
  /-- Whether the descriptor of an access category is in use. -/
  txdescUsed : ℕ → Bool
  /-- Whether an indication update could be allocated. -/
  timSent : Bool
  /-- What other threads do at three points of the handler. -/
  first : List Interference
  second : List Interference
  third : List Interference

def qosNeedEnabled (sta : StaInfo) : Bool :=
  sta.capaFlags &&& staQosCapa ≠ 0

def classify8021d (_ : EthFrame) : UInt8 := 4

/-- The highest access category from the given one down that needs no admission. -/
def admitted (acm : UInt8) : ℕ → Option ℕ
  | 0 => if acm.toNat.testBit 0 then none else some 0
  | i + 1 => if acm.toNat.testBit (i + 1) then admitted acm i else some (i + 1)

/-- The traffic identifier and the access category of a node, unless it is refused. -/
def chooseQueue (tables : MacTables) (node : MsduNode) : Option (UInt8 × ℕ) :=
  match rwmMgmtVifIdx2ptr tables node.vifIdx with
  | none => none
  | some vif =>
      if vif.active ∧ qosNeedEnabled (tables.staInfoTab vif.apId) then
        let tid := classify8021d node.frame
        (admitted vif.acm (tables.macTid2ac tid)).map (Prod.mk tid)
      else
        some (0xFF, acVi)

/-- The descriptor of a node. -/
def MsduNode.txDesc (node : MsduNode) (handle : ℕ) (flag : UInt32) (tid : UInt8) (queueIdx : ℕ) :
    TxDesc where
  msduNode := handle
  flags := flag
  ethDestAddr := node.frame.dest
  ethSrcAddr := node.frame.src
  packetLen := node.frame.len - 14
  ethertype := node.frame.proto
  tid := tid
  vifIdx := node.vifIdx
  staid := node.staIdx
  callback := node.sync
  queueIdx := queueIdx

/-- Hand a node to the MAC, or free it. -/
def rwmTransferNode (outcome : Outcome) (state : TxState) (node : ℕ) (flag : UInt32) : TxState :=
  let (state, value) := state.readNode node
  match value with
  | none => state
  | some msdu =>
      match chooseQueue state.tables msdu with
      | none => (rwmNodeFree state node).decPckCnt
      | some (tid, queueIdx) =>
          if outcome.txdescUsed queueIdx then
            (rwmNodeFree state node).decPckCnt
          else
            { state with pushed := state.pushed ++ [msdu.txDesc node flag tid queueIdx] }

/-- Have the MAC announce traffic for a station whose list is empty, and start the station's timer. -/
def announceTraffic (outcome : Outcome) (state : TxState) (staIdx : UInt8) : TxState :=
  match slot staIdx with
  | none => state
  | some i =>
      if rwmTxlingListNodeCount state staIdx = 0 then
        (rwMsgSendTimUpdate outcome.timSent state staIdx true).setTimer i true
      else
        state

/-- Hand a node to the MAC or put it into the list of its station. -/
def rwmPsTranferNode (outcome : Outcome) (state : TxState) (node : ℕ) : TxState :=
  let (state, value) := state.readNode node
  match value with
  | none => state
  | some msdu =>
      let staIdx := msdu.staIdx
      if rwmMgmtIsApInface state.tables msdu.vifIdx = false then
        rwmTransferNode outcome state.incPckCnt node 0
      else if state.active = false then
        rwmTransferNode outcome state.incPckCnt node 0
      else if (staMgmtIsInPs state.tables staIdx ∨ rwmTxlingListNodeCount state staIdx ≠ 0) ∧
          staIdx.toNat < maxPsStaNum then
        let state := interfereAll state outcome.first
        let state := announceTraffic outcome state staIdx
        let state := interfereAll state outcome.second
        rwmPushTxingList state node staIdx
      else
        let state := interfereAll state outcome.first
        rwmTransferNode outcome state.incPckCnt node 0

/-- Send the first node of a station's list. -/
def rwmMsduSendTxingNode (outcome : Outcome) (state : TxState) (staIdx : UInt8) : TxState :=
  match rwmPopTxingList state staIdx with
  | (state, none) => state
  | (state, some node) =>
      let state := interfereAll state outcome.first
      let nodeLeft := rwmTxlingListNodeCount state staIdx
      let state := interfereAll state outcome.second
      let state := rwmTransferNode outcome state.incPckCnt node txuCntrlMoreData
      let state := interfereAll state outcome.third
      if nodeLeft ≠ 0 ∧ staMgmtIsInPs state.tables staIdx = false then
        bmsgTxingSender state staIdx
      else if nodeLeft = 0 then
        rwMsgSendTimUpdate outcome.timSent state staIdx false
      else
        state

/-- A node that has been submitted, with its station and whether its interface is an access point. -/
structure Submission where
  node : ℕ
  staIdx : UInt8
  toPeer : Bool
  deriving DecidableEq

/-- Make a node of a frame and transfer it. -/
def rwmTransfer (outcome : Outcome) (state : TxState) (vifIdx : UInt8) (frame : EthFrame)
    (sync : Bool) (args : ℕ) : TxState × List Submission :=
  if outcome.allocated then
    let staIdx := rwmMgmtTxGetStaidx state.tables vifIdx frame.dest
    let (heap, node) := state.heap.alloc ⟨frame, vifIdx, staIdx, sync, args⟩
    (rwmPsTranferNode outcome { state with heap := heap } node,
      [⟨node, staIdx, rwmMgmtIsApInface state.tables vifIdx⟩])
  else
    (state.decPckCnt, [])

/-! ## The core thread as a machine -/

/-- Handle a message. -/
def handleMsg (outcome : Outcome) (state : TxState) : BusMsg → TxState × List Submission
  | .tx vifIdx frame sync args =>
      if outcome.copied then rwmTransfer outcome state vifIdx frame sync args else (state, [])
  | .txing staIdx => (rwmMsduSendTxingNode outcome state staIdx, [])
  | .other => (state, [])

/-- What can happen. -/
inductive Event
  | interfere (interference : Interference)
  /-- The core thread handles the next message, if there is one. -/
  | core (outcome : Outcome)

/-- The core thread; each event gives the nodes it submits. -/
def coreThread : Machine TxState Event (List Submission) where
  step state event :=
    match event with
    | .interfere interference => (interfere state interference, [])
    | .core outcome =>
        match state.ioQueue with
        | [] => (state, [])
        | msg :: rest => handleMsg outcome { state with ioQueue := rest } msg

end BdkFreertos.Msdu
