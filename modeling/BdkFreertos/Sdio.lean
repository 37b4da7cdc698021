import BdkFreertos.Machine
import Mathlib.Algebra.Group.Int.Defs
import Mathlib.Algebra.Group.Nat.Defs
import Mathlib.Data.List.Range

/-!
# Nodes of the SDIO link

The driver moves a fixed pool of nodes between a list of free ones and the lists of the two
directions; users hold nodes between their calls, and the handler of received frames passes nodes on
by the type of the frame in them.  `blk512` is the build option `FOR_SDIO_BLK_512`.
-/

namespace BdkFreertos.Sdio

/-- `CELL_COUNT`. -/
def cellCount : ℕ := 64

/-- `BLOCK_LEN`. -/
def blockLen : UInt32 := 512 * 8

/-- `CFG_MSDU_RESV_HEAD_LEN`. -/
def cfgMsduResvHeadLen : UInt32 := 96

/-- `CFG_MSDU_RESV_TAIL_LEN`. -/
def cfgMsduResvTailLen : UInt32 := 16

def mallocMagicLen : UInt32 := 8

/-- `MAX_CONTENT_COUNT`. -/
def maxContentCount : ℕ := 15

/-- `RX_NODE_OK`. -/
def rxNodeOk : UInt16 := 0x1

/-- `TX_NODE_OK`. -/
def txNodeOk : UInt16 := 0x2

/-- `RX_NO_NODE`. -/
def rxNoNode : UInt16 := 0xA

/-- `TX_NO_NODE`. -/
def txNoNode : UInt16 := 0xB

/-- `OPC_WR_REG`. -/
def opcWrReg : UInt8 := 0xC5

/-- `OPC_RD_REG`. -/
def opcRdReg : UInt8 := 0x5C

/-- `OPC_WR_DTCM`. -/
def opcWrDtcm : UInt8 := 0xE3

/-- `OPC_RD_DTCM`. -/
def opcRdDtcm : UInt8 := 0x3E

def h2sRdSync : UInt32 := 1

def h2sWrSync : UInt32 := 2

def s2hRdSync : UInt32 := 3

def s2hWrSync : UInt32 := 4

def h2sRdSpecial : UInt32 := 5

def s2hWrSpecial : UInt32 := 6

/-- `SDIO_CMD_GET_FREE_NODE`. -/
def sdioCmdGetFreeNode : UInt32 := 0xBB

/-- `SDIO_CMD_PUSH_FREE_NODE`. -/
def sdioCmdPushFreeNode : UInt32 := 0xBD

/-- `STM32_FRAME_HDR` as two half words; the second one holds the type and, in the build with
blocks, the sequence number. -/
structure FrameHdr where
  len : UInt16
  typeSeq : UInt16
  deriving DecidableEq

/-- `type`. -/
def FrameHdr.type (blk512 : Bool) (hdr : FrameHdr) : UInt16 :=
  if blk512 then hdr.typeSeq &&& 0xFF else hdr.typeSeq

/-- `seq`. -/
def FrameHdr.seq (hdr : FrameHdr) : UInt8 := UInt8.ofNat (hdr.typeSeq.toNat / 2 ^ 8)

/-- `MVMS_DAT`. -/
def mvmsDat : UInt16 := 0

def mvmsCmd : UInt16 := 1

/-- `SDIO_NODE_T` with a buffer. -/
structure SdioNode where
  id : ℕ
  /-- How many bytes were allocated at `orig_addr`. -/
  size : UInt32
  length : UInt32
  hdr : FrameHdr
  deriving DecidableEq

/-- The fields of `SDIO_CMD_S` and `SDIO_DCMD_S` that decide something. -/
structure SdioDcmd where
  opCode : UInt8
  /-- `len`, or `cmd_len`. -/
  len : UInt8
  dataLen : UInt16
  startLen : UInt16
  seq : UInt8
  totalSize : UInt16
  deriving DecidableEq

/-- `SDIO_S`, the list `inbound_list`, and the nodes held by users. -/
structure SdioState where
  rxStatus : UInt16
  txStatus : UInt16
  tcLen : UInt32
  rcLen : UInt32
  rxSeq : UInt8
  rxLen : UInt32
  txLen : UInt32
  rHdlLen : UInt32
  tHdlLen : UInt32
  txTransactionLen : UInt32
  rxTransactionLen : UInt32
  daHdErr : Bool
  freeNodes : List ℕ
  txDat : List SdioNode
  txingList : List SdioNode
  rxDat : List SdioNode
  rxingList : List SdioNode
  inboundList : List SdioNode
  held : List SdioNode
  /-- An `ASSERT` has failed. -/
  halted : Bool
  deriving DecidableEq

def sdioInit : SdioState where
  rxStatus := 0
  txStatus := 0
  tcLen := 0
  rcLen := 0
  rxSeq := 0
  rxLen := 0
  txLen := 0
  rHdlLen := 0
  tHdlLen := 0
  txTransactionLen := 0
  rxTransactionLen := 0
  daHdErr := false
  freeNodes := List.range cellCount
  txDat := []
  txingList := []
  rxDat := []
  rxingList := []
  inboundList := []
  held := []
  halted := false

/-- A region of memory given to the DMA, relative to the start of the memory it is in. -/
structure Region where
  offset : ℕ
  len : ℕ
  size : ℕ
  deriving DecidableEq

/-- The regions a step gives to the DMA and the indices it uses of `content` and `reg_val`. -/
structure Output where
  dma : List Region
  content : List ℕ
  regVal : List ℕ
  deriving DecidableEq

def Output.silent : Output := ⟨[], [], []⟩

/-- `while(1)`. -/
def halt (state : SdioState) : SdioState × Output := ({ state with halted := true }, .silent)

def sdmaDmaStart (state : SdioState) (region : Region) (output : Output) : SdioState × Output :=
  if region.len = 0 then
    ({ state with halted := true }, output)
  else (state, { output with dma := [region] })

/-- The part of a node's buffer from `addr + offset` on. -/
def SdioNode.region (node : SdioNode) (offset len : UInt32) : Region :=
  ⟨cfgMsduResvHeadLen.toNat + offset.toNat, len.toNat, node.size.toNat⟩

/-- `sdio_alloc_valid_node`, with the outcome of the allocation and the header that happens to be in
the new buffer. -/
def sdioAllocValidNode (state : SdioState) (bufSize : UInt32) (succeeds : Bool) (hdr : FrameHdr) :
    SdioState × Option SdioNode :=
  if bufSize = 0 then
    (state, none)
  else
    match state.freeNodes with
    | [] => (state, none)
    | id :: rest =>
        if succeeds then
          ({ state with freeNodes := rest },
            some ⟨id, cfgMsduResvHeadLen + bufSize + cfgMsduResvTailLen + mallocMagicLen, bufSize,
              hdr⟩)
        else ({ state with freeNodes := rest ++ [id] }, none)

def sdioFreeValidNode (state : SdioState) (node : SdioNode) : SdioState :=
  { state with freeNodes := state.freeNodes ++ [node.id] }

/-! ## Commands of the host -/

def mSize (totalSize : UInt16) : UInt32 :=
  if 1024 < totalSize ∧ totalSize ≤ 1536 then
    1536
  else if 0 < totalSize ∧ totalSize ≤ 512 then
    512
  else if 512 < totalSize ∧ totalSize ≤ 1024 then
    1024
  else 2048

/-- The node of an unfinished command, or a new one. -/
def takeRxing (blk512 : Bool) (state : SdioState) (cmd : SdioDcmd) (succeeds : Bool)
    (hdr : FrameHdr) : SdioState × Option SdioNode :=
  match state.rxingList with
  | node :: rest => ({ state with rxingList := rest }, some node)
  | [] =>
      sdioAllocValidNode state (if blk512 then mSize cmd.totalSize else cmd.dataLen.toUInt32) succeeds
        hdr

/-- The build with blocks gives up a waiting node when the host starts another frame; `count` is how
many nodes were waiting. -/
def renewRxing (state : SdioState) (node : Option SdioNode) (count : ℕ) (cmd : SdioDcmd)
    (succeeds : Bool) (hdr : FrameHdr) : SdioState × Option SdioNode :=
  if state.rxSeq ≠ cmd.seq ∧ count ≠ 0 then
    let freed := node.elim state (sdioFreeValidNode state)
    let (state, node) := sdioAllocValidNode freed (mSize cmd.totalSize) succeeds hdr
    ({ state with rxSeq := cmd.seq }, node)
  else (state, node)

/-- What the build with blocks does about `start_len`. -/
def noteStart (state : SdioState) (cmd : SdioDcmd) : SdioState :=
  let state :=
    if state.rxSeq ≠ cmd.seq ∧ cmd.startLen ≠ 0 then { state with daHdErr := true } else state
  if state.rcLen ≠ cmd.startLen.toUInt32 then
    { state with rcLen := cmd.startLen.toUInt32, rHdlLen := cmd.startLen.toUInt32 }
  else state

/-- `OPC_WR_DTCM` once the node is chosen. -/
def startRx (blk512 : Bool) (state : SdioState) (node : Option SdioNode) (cmd : SdioDcmd) :
    SdioState × Output :=
  match node with
  | none => ({ state with rxStatus := rxNoNode }, .silent)
  | some node =>
      let remain := state.rxLen - state.rHdlLen
      let len := if blk512 then cmd.dataLen.toUInt32 else min blockLen remain
      let state :=
        { state with
          rxStatus := rxNodeOk
          rxTransactionLen := len
          rxingList := state.rxingList ++ [node] }
      sdmaDmaStart state (node.region (if blk512 then state.rcLen else 0) len) .silent

/-- `OPC_WR_DTCM`. -/
def wrDtcm (blk512 : Bool) (state : SdioState) (cmd : SdioDcmd) (succeeds : Bool) (hdr : FrameHdr) :
    SdioState × Output :=
  let state :=
    if blk512 then
      { state with rxLen := cmd.totalSize.toUInt32 }
    else { state with rxLen := cmd.dataLen.toUInt32, rHdlLen := 0 }
  let count := state.rxingList.length
  if blk512 ∧ ¬ count < 2 then
    halt state
  else
    let (state, node) := takeRxing blk512 state cmd succeeds hdr
    if blk512 then
      let (state, node) := renewRxing state node count cmd succeeds hdr
      startRx blk512 (noteStart state cmd) node cmd
    else startRx blk512 state node cmd

/-- `OPC_RD_DTCM` once there is a node. -/
def startTx (blk512 : Bool) (state : SdioState) (node : SdioNode) : SdioState × Output :=
  let remain := state.txLen - state.tHdlLen
  let len := min blockLen remain
  let state :=
    { state with
      txStatus := txNodeOk
      txTransactionLen := len
      txingList := state.txingList ++ [node] }
  sdmaDmaStart state (node.region (if blk512 then state.tcLen else 0) len) .silent

/-- `OPC_RD_DTCM`. -/
def rdDtcm (blk512 : Bool) (state : SdioState) (cmd : SdioDcmd) : SdioState × Output :=
  let state := { state with txLen := cmd.dataLen.toUInt32, tHdlLen := 0 }
  if blk512 ∧ ¬ state.txingList.length < 2 then
    halt state
  else
    match state.txingList with
    | node :: rest => startTx blk512 { state with txingList := rest } node
    | [] =>
        let taken := { state with txDat := state.txDat.tail }
        if blk512 ∧ state.tcLen ≠ 0 then
          halt taken
        else
          match state.txDat with
          | node :: _ => startTx blk512 taken node
          | [] => ({ state with txStatus := txNoNode }, .silent)

/-- `reg_numb`, for the given shift; the difference is negative for the smallest lengths. -/
def regNumb (len : UInt8) (shift : ℕ) : ℕ := (((len.toNat : ℤ) - 4) >>> shift % 2 ^ 8).toNat

/-- `OPC_WR_REG`; what the registers do is not modelled. -/
def wrReg (state : SdioState) (cmd : SdioDcmd) : SdioState × Output :=
  let regs := regNumb cmd.len 3
  (state, ⟨[], (List.range regs).flatMap fun i => [i, i + regs], []⟩)

/-- `OPC_RD_REG`. -/
def rdReg (state : SdioState) (cmd : SdioDcmd) : SdioState × Output :=
  let regs := regNumb cmd.len 2
  sdmaDmaStart state ⟨0, min 64 (regs * 4), 64⟩ ⟨[], List.range regs, List.range regs⟩

def sdioCmdHandler (blk512 : Bool) (state : SdioState) (cmd : SdioDcmd) (succeeds : Bool)
    (hdr : FrameHdr) : SdioState × Output :=
  if cmd.opCode = opcWrDtcm then
    wrDtcm blk512 state cmd succeeds hdr
  else if cmd.opCode = opcRdDtcm then
    rdDtcm blk512 state cmd
  else if cmd.opCode = opcWrReg then
    wrReg state cmd
  else if cmd.opCode = opcRdReg then
    rdReg state cmd
  else (state, .silent)

/-! ## Completions -/

/-- The end of `sdio_tx_cb` for a whole frame. -/
def frameSent (blk512 : Bool) (state : SdioState) (node : SdioNode) : SdioState :=
  let state := sdioFreeValidNode state node
  if state.txLen - state.tHdlLen ≠ 0 then
    { state with halted := true }
  else if blk512 then { state with tcLen := 0 } else state

def sdioTxCb (blk512 : Bool) (state : SdioState) : SdioState :=
  let state :=
    if blk512 then state else { state with tHdlLen := state.tHdlLen + state.txTransactionLen }
  match state.txingList with
  | [] =>
      if state.txStatus = txNoNode then
        { state with txStatus := txNodeOk }
      else { state with halted := true }
  | node :: rest =>
      let state := { state with txingList := rest }
      if blk512 then
        let state :=
          { state with
            tHdlLen := state.tHdlLen + state.txTransactionLen
            tcLen := state.tcLen + state.txTransactionLen }
        if node.length ≤ state.tcLen then
          frameSent blk512 state node
        else { state with txingList := state.txingList ++ [node] }
      else frameSent blk512 state node

/-- The end of `sdio_rx_cb` for a whole frame. -/
def frameReceived (blk512 : Bool) (state : SdioState) (node : SdioNode) : SdioState :=
  let state := { state with rxDat := state.rxDat ++ [node] }
  if state.rxLen - state.rHdlLen ≠ 0 then
    { state with halted := true }
  else if blk512 then { state with rcLen := 0, rHdlLen := 0 } else state

/-- `sdio_rx_cb`, with the header that is in the node's buffer by then. -/
def sdioRxCb (blk512 : Bool) (state : SdioState) (hdr : FrameHdr) : SdioState :=
  let state :=
    if blk512 then state else { state with rHdlLen := state.rHdlLen + state.rxTransactionLen }
  match state.rxingList with
  | [] =>
      if state.rxStatus = rxNoNode ∨ blk512 then
        { state with rxStatus := rxNodeOk }
      else { state with halted := true }
  | node :: rest =>
      let node := { node with hdr := hdr }
      let state := { state with rxingList := rest }
      if blk512 then
        let state :=
          { state with
            rHdlLen := state.rHdlLen + state.rxTransactionLen
            rcLen := state.rcLen + state.rxTransactionLen
            rxSeq := hdr.seq }
        if hdr.len.toUInt32 ≤ state.rcLen then
          if state.daHdErr then
            { sdioFreeValidNode state node with rcLen := 0, rHdlLen := 0, daHdErr := false }
          else frameReceived blk512 state node
        else { state with rxingList := state.rxingList ++ [node] }
      else frameReceived blk512 state node

/-! ## Calls of users -/

/-- `sdio_read`; `userBuf` is whether there is a buffer. -/
def sdioRead (state : SdioState) (userBuf : Bool) (count opFlag : UInt32) : SdioState :=
  if opFlag = s2hRdSync then
    if userBuf = false ∨ count = 0 then
      state
    else
      match state.txDat with
      | [] => state
      | node :: rest => sdioFreeValidNode { state with txDat := rest } node
  else if opFlag = h2sRdSync then
    if userBuf = false ∨ count = 0 then
      state
    else
      match state.rxDat with
      | [] => state
      | node :: rest => sdioFreeValidNode { state with rxDat := rest } node
  else if opFlag = h2sRdSpecial then
    match state.rxDat with
    | [] => state
    | node :: rest => { state with rxDat := rest, held := node :: state.held }
  else state

/-- What a user passes as the buffer of `sdio_write`. -/
inductive UserBuf
  | null
  | data (hdr : FrameHdr)
  | node (node : SdioNode)

/-- `sdio_write`.  A user passes data or a node as the operation expects, and a node only if it holds
it; the call is not made otherwise. -/
def sdioWrite (state : SdioState) (userBuf : UserBuf) (count opFlag : UInt32) (succeeds : Bool) :
    SdioState :=
  if count = 0 then
    state
  else
    match userBuf with
    | .null => state
    | .data hdr =>
        if opFlag = s2hWrSync then
          match sdioAllocValidNode state count succeeds hdr with
          | (state, none) => state
          | (state, some node) => { state with txDat := state.txDat ++ [node] }
        else if opFlag = h2sWrSync then
          match sdioAllocValidNode state count succeeds hdr with
          | (state, none) => state
          | (state, some node) => { state with rxDat := state.rxDat ++ [node] }
        else state
    | .node node =>
        if opFlag = s2hWrSpecial ∧ node ∈ state.held then
          { state with txDat := state.txDat ++ [node], held := state.held.erase node }
        else state

/-- What a user passes as the parameter of `sdio_ctrl`. -/
inductive CtrlParam
  | node (node : SdioNode)
  /-- A size, with the header that happens to be in the new buffer. -/
  | size (size : UInt32) (hdr : FrameHdr)

/-- `sdio_ctrl`.  The other commands leave the nodes as they are. -/
def sdioCtrl (state : SdioState) (cmd : UInt32) (param : CtrlParam) (succeeds : Bool) : SdioState :=
  match param with
  | .node node =>
      if cmd = sdioCmdPushFreeNode ∧ node ∈ state.held then
        sdioFreeValidNode { state with held := state.held.erase node } node
      else state
  | .size size hdr =>
      if cmd = sdioCmdGetFreeNode then
        match sdioAllocValidNode state size succeeds hdr with
        | (state, none) => state
        | (state, some node) => { state with held := node :: state.held }
      else state

/-! ## Received frames -/

def inboundCfm (state : SdioState) : SdioState :=
  match state.inboundList with
  | [] => state
  | node :: rest => sdioFreeValidNode { state with inboundList := rest } node

/-- `rx_dat` after its first nodes were taken. -/
def setRxDat (state : SdioState) (rxDat : List SdioNode) : SdioState := { state with rxDat := rxDat }

/-- `list_add_tail` to `inbound_list`. -/
def addInbound (state : SdioState) (node : SdioNode) : SdioState :=
  { state with inboundList := state.inboundList ++ [node] }

/-- The loop of `sdio_emb_rxed_evt` from a node on, with the nodes after it in `rx_dat`; `full node`
is whether no transmit descriptor is left when the node is handled, and `i` counts data frames. -/
def rxedLoop (blk512 : Bool) (full : SdioNode → Bool) (i : ℕ) (state : SdioState) :
    List SdioNode → SdioState
  | [] => setRxDat state []
  | node :: rest =>
      if node.hdr.type blk512 = mvmsDat then
        let state := addInbound state node
        if full node then
          setRxDat (inboundCfm state) rest
        else if blk512 ∧ i + 1 > 10 then
          setRxDat state rest.tail
        else rxedLoop blk512 full (i + 1) state rest
      else
        let state :=
          if node.hdr.type blk512 = mvmsCmd then sdioFreeValidNode state node else state
        if blk512 ∧ i > 10 then
          setRxDat state rest.tail
        else rxedLoop blk512 full i state rest

def sdioEmbRxedEvt (blk512 : Bool) (full : SdioNode → Bool) (state : SdioState) : SdioState :=
  rxedLoop blk512 full 0 state state.rxDat

/-! ## All events -/

inductive Event
  | command (cmd : SdioDcmd) (succeeds : Bool) (hdr : FrameHdr)
  | txCb
  | rxCb (hdr : FrameHdr)
  | read (userBuf : Bool) (count opFlag : UInt32)
  | write (userBuf : UserBuf) (count opFlag : UInt32) (succeeds : Bool)
  | ctrl (cmd : UInt32) (param : CtrlParam) (succeeds : Bool)
  | inboundCfm
  | rxedEvt (full : SdioNode → Bool)

/-- What an event does while no `ASSERT` has failed. -/
def handle (blk512 : Bool) (state : SdioState) : Event → SdioState × Output
  | .command cmd succeeds hdr => sdioCmdHandler blk512 state cmd succeeds hdr
  | .txCb => (sdioTxCb blk512 state, .silent)
  | .rxCb hdr => (sdioRxCb blk512 state hdr, .silent)
  | .read userBuf count opFlag => (sdioRead state userBuf count opFlag, .silent)
  | .write userBuf count opFlag succeeds =>
      (sdioWrite state userBuf count opFlag succeeds, .silent)
  | .ctrl cmd param succeeds => (sdioCtrl state cmd param succeeds, .silent)
  | .inboundCfm => (inboundCfm state, .silent)
  | .rxedEvt full => (sdioEmbRxedEvt blk512 full state, .silent)

def machine (blk512 : Bool) : Machine SdioState Event Output where
  step state event := if state.halted then (state, .silent) else handle blk512 state event

end BdkFreertos.Sdio
