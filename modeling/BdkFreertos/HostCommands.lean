import BdkFreertos.HostScan
import BdkFreertos.Machine
import BdkFreertos.Sdio

/-!
# Dispatch of the host's commands

A command frame is converted into a kernel message.  The conversion reports success and leaves the
message behind a pointer of its caller, which has no value before.
-/

namespace BdkFreertos.HostCommands

open HostScan

/-! ## Kernel messages -/

inductive KeMsgId
  | mmKeyAddReq
  | apmStartReq
  | meMgmtTxReq
  | meStaAddReq
  | scanuStartReq
  | mmResetReq
  | meConfigReq
  | meChanConfigReq
  | mmStartReq
  | mmAddIfReq
  | smConnectReq
  | meSetControlPortReq
  deriving DecidableEq

inductive KeTask
  | mm
  | apm
  | me
  | scanu
  | sm
  | drv
  | api
  deriving DecidableEq

/-- The parameters that a conversion sets; all others are zero. -/
inductive Param
  | none
  | mmKeyAdd (cipherSuite staIdx keyIdx : ℕ) (keyLength : ℕ) (key : List UInt8)
  | apmStart (rates : List ℕ) (freq : ℕ) (bcnAddr bcnLen timOft timLen bcnInt flags : ℕ)
      (ctrlPortEthertype : ℕ)
  | meMgmtTx (addr hostid len : ℕ)
  | meStaAdd (aid flags : ℕ) (rates : List ℕ) (mcsRate : ℕ)
  | scanuStart (request : Memory UInt8)
  | meChanConfig (chan2G4 : List ℕ)
  | mmStart (parameter uapsdTimeout : ℕ)
  | mmAddIf (ap : Bool)
  | smConnect (ssid bssid : List UInt8) (freq flags ctrlPortEthertype authType : ℕ)
  /-- The host's bytes as they are. -/
  | smConnectRaw (ssid fields : List UInt8) (authType : ℕ)
  | meSetControlPort (staIdx controlPortOpen : ℕ)

structure KeMsg where
  id : KeMsgId
  destId : KeTask
  srcId : KeTask
  param : Param

/-- The options and the constants of the build. -/
structure Build where
  /-- `CFG_REAL_SDIO`. -/
  realSdio : Bool
  /-- `FOR_SDIO_BLK_512`. -/
  blk512 : Bool
  /-- `CFG_WIFI_AP_MODE`. -/
  wifiApMode : Bool
  /-- `CFG_WIFI_WPA`. -/
  wifiWpa : Bool
  /-- `CFG_WIFI_WEP`. -/
  wifiWep : Bool
  /-- The length of `CFG_WEP_KEY`, and what `hexstr2bin` makes of it. -/
  wepKeyLength : ℕ
  wepKey : List UInt8
  /-- `CFG_OOB_CONNECT_SSID`. -/
  oobConnectSsid : List UInt8
  chanConnect : ℕ
  /-- The address and the length of each of the stored frames. -/
  beacon : ℕ × ℕ
  authRsp : ℕ × ℕ
  assocRsp : ℕ × ℕ
  /-- `sizeof(struct sm_connect_req)`. -/
  smConnectReqSize : ℕ

/-! ## Frames -/

/-- A received frame: its header and the memory behind it. -/
structure Frame where
  hdr : Sdio.FrameHdr
  content : Memory UInt8

/-- `scmd_hdr_ptr->command`. -/
def Frame.command (frame : Frame) : ℕ := loadHalf frame.content 0

/-- The scan command in a frame. -/
def Frame.scanCommand (frame : Frame) : ScanCommand where
  size := UInt16.ofNat (loadHalf frame.content 2)
  tlvbuffer index := frame.content (tlvbufferOffset + index)

/-- `STM32_TX_MGMT_S.private`. -/
def Frame.mgmtType (frame : Frame) : ℕ := loadHalf frame.content 8

/-- `STM32_KEY_MATERIAL_S.action`. -/
def Frame.action (frame : Frame) : ℕ := loadHalf frame.content 8

def scmd80211Scan : ℕ := 0x0006

def scmd80211Authenticate : ℕ := 0x0011

def scmd80211Associate : ℕ := 0x0050

def scmd80211KeyMaterial : ℕ := 0x005e

def scmdResetReq : ℕ := 0x00b1

def scmdMeConfigReq : ℕ := 0x00b2

def scmdMeChanConfigReq : ℕ := 0x00b3

def scmdStartReq : ℕ := 0x00b4

def scmdAddIfReq : ℕ := 0x00b5

def scmdSetPortReq : ℕ := 0x00b6

def scmdApmStart : ℕ := 0x00b7

def scmdBcnChange : ℕ := 0x00b8

def scmdMgmtTxReq : ℕ := 0x00b9

def scmdAddStaReq : ℕ := 0x00ba

def scmdAddWepKey : ℕ := 0x00bb

/-! ## What the conversions fill in -/

def cmdConversionAddWepKey (build : Build) : KeMsg :=
  -- `MAC_RSNIE_CIPHER_WEP40`
  ⟨.mmKeyAddReq, .mm, .drv, .mmKeyAdd 0 0xff 0 build.wepKeyLength build.wepKey⟩

/-- `freq_2_4_G[chan_connect - 1]`. -/
def Build.freqConnect (build : Build) : ℕ := freq24G.getD (build.chanConnect - 1) 0

def cmdConversionStartApm (build : Build) : KeMsg :=
  ⟨.apmStartReq, .apm, .drv,
    .apmStart [130, 132, 139, 150] build.freqConnect build.beacon.1 build.beacon.2 56 6 100
      (if build.wifiWpa then 8 else 0) 36488⟩

def cmdConversionMgmtTxReq (build : Build) (frame : Frame) : KeMsg :=
  let (addr, len) :=
    if frame.mgmtType = scmd80211Authenticate then build.authRsp
    else if frame.mgmtType = scmd80211Associate then build.assocRsp
    else (0, 0)
  ⟨.meMgmtTxReq, .me, .drv, .meMgmtTx addr addr len⟩

def cmdConversionAddStaReq : KeMsg :=
  ⟨.meStaAddReq, .me, .drv,
    .meStaAdd 1 0x03 [130, 132, 139, 150, 108, 36, 48, 72, 12, 18, 24, 96] 255⟩

def cmdConversionResetReq : KeMsg := ⟨.mmResetReq, .mm, .api, .none⟩

def cmdConversionMeConfigReq : KeMsg := ⟨.meConfigReq, .me, .api, .none⟩

def cmdConversionMeChanConfigReq : KeMsg := ⟨.meChanConfigReq, .me, .api, .meChanConfig freq24G⟩

def cmdConversionSetPortReq : KeMsg := ⟨.meSetControlPortReq, .me, .api, .meSetControlPort 0 1⟩

def cmdConversionStartReq : KeMsg := ⟨.mmStartReq, .mm, .api, .mmStart 1 300⟩

def cmdConversionAssocReq (build : Build) (frame : Frame) : KeMsg :=
  if build.realSdio then
    ⟨.smConnectReq, .sm, .api,
      .smConnectRaw (frame.content.load 8 33)
        (frame.content.load (8 + 33 + 1) (build.smConnectReqSize - 33))
        (if build.wifiWep then 1 else 0)⟩
  else
    ⟨.smConnectReq, .sm, .api,
      .smConnect (if build.wifiApMode then [] else build.oobConnectSsid) (frame.content.load 8 6)
        build.freqConnect 1 36488 (if build.wifiWep then 1 else 0)⟩

def cmdConversionKeyMaterialReq (build : Build) (frame : Frame) : KeMsg :=
  ⟨.mmKeyAddReq, .mm, .api,
    .mmKeyAdd 1 (if frame.action ≠ 0 then 255 else 0) 0 build.wepKeyLength build.wepKey⟩

def cmdConversionAddIfReq (build : Build) : KeMsg :=
  ⟨.mmAddIfReq, .mm, .api, .mmAddIf build.wifiApMode⟩

/-- `cmd_conversion_802_11_scan`; the loop of the build without a real host may use up its fuel. -/
def cmdConversionScan (build : Build) (frame : Frame) (fuel : ℕ) : Option KeMsg :=
  if build.realSdio then
    some ⟨.scanuStartReq, .scanu, .api,
      .scanuStart (Memory.store (fun _ => 0) 0 (frame.content.load 8 scanStartReqSize))⟩
  else
    (cmdConversion80211Scan fuel frame.scanCommand).map fun walk =>
      ⟨.scanuStartReq, .scanu, .api, .scanuStart (request walk.writes)⟩

/-! ## The dispatch -/

/-- The host interface and the kernel behind it. -/
structure Host where
  rx : List Frame
  /-- Data frames that wait for their confirmation, and those given to the transmit path. -/
  inbound : List Frame
  pushed : List Frame
  released : List Frame
  /-- Where the next message is allocated. -/
  next : ℕ
  /-- The messages that were allocated, with their addresses. -/
  heap : List (ℕ × KeMsg)
  /-- What was given to `ke_msg_send`. -/
  sent : List ℕ
  scanStartFlag : Bool
  seq : UInt32
  scanRespCmdSn : UInt32
  /-- An `ASSERT` has failed, or a loop does not end. -/
  halted : Bool

/-- At start. -/
def Host.init : Host where
  rx := []
  inbound := []
  pushed := []
  released := []
  next := 0
  heap := []
  sent := []
  scanStartFlag := false
  seq := 0
  scanRespCmdSn := 0
  halted := false

/-- What decides about a frame beside its contents: what is in the variable `kmsg` before it is set,
whether memory is left, how long the loop of a scan command may run, whether
`sdio_emb_get_tx_info` succeeds, and whether a descriptor is free. -/
structure Circumstances where
  kmsg : ℕ
  allocated : Bool
  fuel : ℕ
  txInfo : Bool
  descriptor : Bool

inductive Status
  /-- `SDIO_INTF_SUCCESS`. -/
  | success
  /-- `SDIO_INTF_FAILURE`. -/
  | failure
  deriving DecidableEq

/-- What the conversions have in common: a message is allocated and filled, and the caller's pointer
is set. -/
def convert (host : Host) (circumstances : Circumstances) (msg : KeMsg) :
    Option (Status × ℕ × Host) :=
  if circumstances.allocated then
    some (.success, host.next,
      { host with next := host.next + 1, heap := host.heap ++ [(host.next, msg)] })
  else none

/-- The command `SCMD_802_11_SCAN`. -/
def convertScan (build : Build) (host : Host) (frame : Frame) (circumstances : Circumstances) :
    Option (Status × ℕ × Host) :=
  if build.realSdio = true ∨ host.scanStartFlag = false then
    let host := { host with scanStartFlag := true }
    match cmdConversionScan build frame circumstances.fuel with
    | none => none
    | some msg =>
        (convert host circumstances msg).map fun (status, kmsg, host) =>
          (status, kmsg, { host with seq := host.seq + 1, scanRespCmdSn := host.seq + 1 })
  else some (.failure, circumstances.kmsg, host)

/-- `sdio_h2e_msg_conversion`, with what it leaves in the variable of its caller. -/
def sdioH2eMsgConversion (build : Build) (host : Host) (frame : Frame)
    (circumstances : Circumstances) : Option (Status × ℕ × Host) :=
  let convert := convert host circumstances
  let command := frame.command
  if frame.hdr.len ≤ 4 then some (.failure, circumstances.kmsg, host)
  else if command = scmdAddWepKey then convert (cmdConversionAddWepKey build)
  else if command = scmdApmStart then convert (cmdConversionStartApm build)
  -- The conversion of this command is not called.
  else if command = scmdBcnChange then some (.success, circumstances.kmsg, host)
  else if command = scmdMgmtTxReq then convert (cmdConversionMgmtTxReq build frame)
  else if command = scmdAddStaReq then convert cmdConversionAddStaReq
  else if command = scmd80211Scan then convertScan build host frame circumstances
  else if command = scmdResetReq then convert cmdConversionResetReq
  else if command = scmdMeConfigReq then convert cmdConversionMeConfigReq
  else if command = scmdMeChanConfigReq then convert cmdConversionMeChanConfigReq
  else if command = scmdStartReq then convert cmdConversionStartReq
  else if command = scmdAddIfReq then convert (cmdConversionAddIfReq build)
  else if command = scmd80211KeyMaterial then convert (cmdConversionKeyMaterialReq build frame)
  else if command = scmd80211Associate then convert (cmdConversionAssocReq build frame)
  else if command = scmdSetPortReq then convert cmdConversionSetPortReq
  else some (.failure, circumstances.kmsg, host)

/-- `sdio_h2e_kmsg_hdlr`. -/
def sdioH2eKmsgHdlr (host : Host) (kmsg : ℕ) : Host := { host with sent := host.sent ++ [kmsg] }

/-- `sdio_release_one_node`. -/
def sdioReleaseOneNode (host : Host) (frame : Frame) : Host :=
  { host with released := host.released ++ [frame] }

/-- `inbound_cfm`. -/
def inboundCfm (host : Host) : Host :=
  match host.inbound with
  | [] => host
  | frame :: rest => sdioReleaseOneNode { host with inbound := rest } frame

/-- A command frame. -/
def handleCommand (build : Build) (host : Host) (frame : Frame) (circumstances : Circumstances) :
    Host :=
  match sdioH2eMsgConversion build host frame circumstances with
  | none => { host with halted := true }
  | some (.success, kmsg, host) => sdioReleaseOneNode (sdioH2eKmsgHdlr host kmsg) frame
  | some (.failure, _, host) => sdioReleaseOneNode host frame

/-- The body of the loop of `sdio_emb_rxed_evt`, and whether the loop goes on. -/
def handleFrame (build : Build) (host : Host) (frame : Frame) (circumstances : Circumstances) :
    Host × Bool :=
  if frame.hdr.type build.blk512 = Sdio.mvmsDat then
    let host := { host with inbound := host.inbound ++ [frame] }
    if circumstances.txInfo = false then (host, false)
    else if circumstances.descriptor = false then (inboundCfm host, false)
    else ({ host with pushed := host.pushed ++ [frame] }, true)
  else if frame.hdr.type build.blk512 = Sdio.mvmsCmd then
    let host := handleCommand build host frame circumstances
    (host, !host.halted)
  else (host, true)

inductive Input
  | arrive (frame : Frame)
  | handle (circumstances : Circumstances)
  /-- The loop takes a frame and gives it up. -/
  | skip
  /-- `SCANU_START_CFM`. -/
  | scanCfm

def machine (build : Build) : Machine Host Input Unit where
  step host input :=
    if host.halted then (host, ())
    else
      match input, host.rx with
      | .arrive frame, rx => ({ host with rx := rx ++ [frame] }, ())
      | .handle circumstances, frame :: rest =>
          ((handleFrame build { host with rx := rest } frame circumstances).1, ())
      | .skip, _ :: rest => ({ host with rx := rest }, ())
      | .scanCfm, _ => ({ host with scanStartFlag := false }, ())
      | _, [] => (host, ())

/-- `sdio_emb_rxed_evt` with what decides about each of its frames, and its counter. -/
def sdioEmbRxedEvt (build : Build) : List Circumstances → ℕ → Host → Host
  | [], _, host => host
  | circumstances :: later, i, host =>
      match host.rx with
      | [] => host
      | frame :: rest =>
          let (host, goesOn) := handleFrame build { host with rx := rest } frame circumstances
          let i := if build.blk512 ∧ frame.hdr.type build.blk512 = Sdio.mvmsDat then i + 1 else i
          if goesOn = false then host
          -- The next frame has been taken already and is lost.
          else if 10 < i then { host with rx := host.rx.tail }
          else sdioEmbRxedEvt build later i host

/-! ## What is meant -/

/-- What each command asks of the kernel. -/
def requests : List (ℕ × KeMsgId × KeTask) :=
  [(scmd80211Scan, .scanuStartReq, .scanu), (scmd80211Associate, .smConnectReq, .sm),
    (scmd80211KeyMaterial, .mmKeyAddReq, .mm), (scmdResetReq, .mmResetReq, .mm),
    (scmdMeConfigReq, .meConfigReq, .me), (scmdMeChanConfigReq, .meChanConfigReq, .me),
    (scmdStartReq, .mmStartReq, .mm), (scmdAddIfReq, .mmAddIfReq, .mm),
    (scmdSetPortReq, .meSetControlPortReq, .me), (scmdApmStart, .apmStartReq, .apm),
    (scmdMgmtTxReq, .meMgmtTxReq, .me), (scmdAddStaReq, .meStaAddReq, .me),
    (scmdAddWepKey, .mmKeyAddReq, .mm)]

def Answers (frame : Frame) (msg : KeMsg) : Prop :=
  (frame.command, msg.id, msg.destId) ∈ requests

/-- One message was allocated and filled for a frame, and this message was sent once. -/
structure SendsOwn (frame : Frame) (before after : Host) : Prop where
  message : ∃ address msg, after.heap = before.heap ++ [(address, msg)] ∧
    after.sent = before.sent ++ [address] ∧ Answers frame msg ∧
      ∀ earlier ∈ before.heap, earlier.1 ≠ address

/-- The next step handles this frame. -/
structure Handles (host : Host) (input : Input) (frame : Frame) : Prop where
  running : host.halted = false
  taken : ∃ circumstances rest, input = .handle circumstances ∧ host.rx = frame :: rest

variable (build : Build)

/-- A step leaves the kernel's queue as it is, or it handles a command frame and sends the message
that it has made for it. -/
def OwnStep (host : Host) (input : Input) : Prop :=
  let after := ((machine build).step host input).1
  after.sent = host.sent ∨
    ∃ frame, Handles host input frame ∧ frame.hdr.type build.blk512 = Sdio.mvmsCmd ∧
      SendsOwn frame host after

/-- A command frame about a change of the beacon. -/
structure BcnChange (frame : Frame) : Prop where
  type : frame.hdr.type build.blk512 = Sdio.mvmsCmd
  long : 4 < frame.hdr.len
  command : frame.command = scmdBcnChange

def Careful (host : Host) (input : Input) : Prop :=
  ∀ frame, Handles host input frame → ¬BcnChange build frame

def Fresh (host : Host) : Prop := ∀ message ∈ host.heap, message.1 < host.next

/-! ## One conversion -/

variable {build} {host host' : Host} {frame : Frame} {circumstances : Circumstances} {msg : KeMsg}
  {status : Status} {kmsg : ℕ}

/-- A conversion that allocates a message for its frame and returns it. -/
structure Made (host : Host) (frame : Frame) (status : Status) (kmsg : ℕ) (host' : Host) :
    Prop where
  status_eq : status = .success
  kmsg_eq : kmsg = host.next
  sent_eq : host'.sent = host.sent
  halted_eq : host'.halted = host.halted
  next_eq : host'.next = host.next + 1
  frames_eq : host'.rx = host.rx ∧ host'.inbound = host.inbound ∧ host'.released = host.released
  message : ∃ msg, host'.heap = host.heap ++ [(host.next, msg)] ∧ Answers frame msg

theorem made_of_convert (converted : convert host circumstances msg = some (status, kmsg, host'))
    (answers : Answers frame msg) : Made host frame status kmsg host' := by
  rw [convert] at converted
  split_ifs at converted
  cases converted
  exact ⟨rfl, rfl, rfl, rfl, rfl, ⟨rfl, rfl, rfl⟩, msg, rfl, answers⟩

theorem answers_scan {fuel : ℕ} (command : frame.command = scmd80211Scan)
    (filled : cmdConversionScan build frame fuel = some msg) : Answers frame msg := by
  have asked : (scmd80211Scan, KeMsgId.scanuStartReq, KeTask.scanu) ∈ requests := by decide
  rw [Answers, command]
  rw [cmdConversionScan] at filled
  split_ifs at filled
  · cases filled
    exact asked
  · obtain ⟨walk, -, rfl⟩ := Option.map_eq_some_iff.mp filled
    exact asked

theorem answers_assoc (command : frame.command = scmd80211Associate) :
    Answers frame (cmdConversionAssocReq build frame) := by
  have asked : (scmd80211Associate, KeMsgId.smConnectReq, KeTask.sm) ∈ requests := by decide
  rw [Answers, command, cmdConversionAssocReq]
  split_ifs <;> exact asked

/-- A conversion that fails leaves the kernel's messages as they are. -/
structure Refused (host : Host) (status : Status) (host' : Host) : Prop where
  status_eq : status = .failure
  host_eq : host' = host

theorem made_or_refused_of_scan (command : frame.command = scmd80211Scan)
    (converted : convertScan build host frame circumstances = some (status, kmsg, host')) :
    Made host frame status kmsg host' ∨ Refused host status host' := by
  rw [convertScan] at converted
  split_ifs at converted
  · left
    simp only at converted
    split at converted
    · exact nomatch converted
    · rename_i msg filled
      obtain ⟨⟨status, kmsg, next⟩, made, outcome_eq⟩ := Option.map_eq_some_iff.mp converted
      obtain ⟨rfl, rfl, sent_eq, halted_eq, next_eq, frames_eq, message⟩ :=
        made_of_convert made (answers_scan command filled)
      cases outcome_eq
      exact ⟨rfl, rfl, sent_eq, halted_eq, next_eq, frames_eq, message⟩
  · cases converted
    exact .inr ⟨rfl, rfl⟩

/-- What a conversion can do. -/
inductive Converted (host : Host) (frame : Frame) (status : Status) (kmsg : ℕ) (host' : Host) :
    Prop
  | made (made : Made host frame status kmsg host')
  | refused (refused : Refused host status host')
  /-- A change of the beacon. -/
  | unchanged (long : 4 < frame.hdr.len) (command : frame.command = scmdBcnChange)
      (status_eq : status = .success) (host_eq : host' = host)

theorem sdioH2eMsgConversion_converted
    (converted : sdioH2eMsgConversion build host frame circumstances = some (status, kmsg, host')) :
    Converted host frame status kmsg host' := by
  -- Each conversion answers one row of the table.
  have made {command : ℕ} {msg : KeMsg} (row : ℕ) (command_eq : frame.command = command)
      (made : convert host circumstances msg = some (status, kmsg, host'))
      (asked : requests[row]? = some (command, msg.id, msg.destId)) :
      Converted host frame status kmsg host' := by
    refine .made (made_of_convert made ?_)
    rw [Answers, command_eq]
    exact List.mem_of_getElem? asked
  revert converted
  fun_cases sdioH2eMsgConversion build host frame circumstances with
  | case1 | case16 =>
      rintro ⟨⟩
      exact .refused ⟨rfl, rfl⟩
  | case2 _ _ _ addWepKey =>
      exact fun converted => made 12 addWepKey converted rfl
  | case3 _ _ _ _ apmStart =>
      exact fun converted => made 9 apmStart converted rfl
  | case4 _ short _ _ bcnChange =>
      rintro ⟨⟩
      exact .unchanged (UInt16.not_le.mp short) bcnChange rfl rfl
  | case5 _ _ _ _ _ _ mgmtTx =>
      exact fun converted => made 10 mgmtTx converted rfl
  | case6 _ _ _ _ _ _ _ addSta =>
      exact fun converted => made 11 addSta converted rfl
  | case7 _ _ _ _ _ _ _ scan =>
      intro converted
      rcases made_or_refused_of_scan scan converted with made | refused
      · exact .made made
      · exact .refused refused
  | case8 _ _ _ _ _ _ _ _ _ reset =>
      exact fun converted => made 3 reset converted rfl
  | case9 _ _ _ _ _ _ _ _ _ _ meConfig =>
      exact fun converted => made 4 meConfig converted rfl
  | case10 _ _ _ _ _ _ _ _ _ _ _ meChanConfig =>
      exact fun converted => made 5 meChanConfig converted rfl
  | case11 _ _ _ _ _ _ _ _ _ _ _ _ start =>
      exact fun converted => made 6 start converted rfl
  | case12 _ _ _ _ _ _ _ _ _ _ _ _ _ addIf =>
      exact fun converted => made 7 addIf converted rfl
  | case13 _ _ _ _ _ _ _ _ _ _ _ _ _ _ keyMaterial =>
      exact fun converted => made 2 keyMaterial converted rfl
  | case14 _ _ _ _ _ _ _ _ _ _ _ _ _ _ _ associate =>
      exact fun converted => .made (made_of_convert converted (answers_assoc associate))
  | case15 _ _ _ _ _ _ _ _ _ _ _ _ _ _ _ _ setPort =>
      exact fun converted => made 8 setPort converted rfl

theorem conversion_of_bcnChange (changes : BcnChange build frame) :
    sdioH2eMsgConversion build host frame circumstances =
      some (.success, circumstances.kmsg, host) := by
  have command : frame.command = scmdBcnChange := changes.command
  have long : ¬frame.hdr.len ≤ 4 := UInt16.not_le.mpr changes.long
  unfold sdioH2eMsgConversion
  rw [command]
  simp only [long, if_false]
  rfl

/-! ## One frame -/

/-- What the handling of a frame does to the kernel's messages. -/
inductive Handled (build : Build) (host : Host) (frame : Frame) (host' : Host) : Prop
  /-- No message is made and none is sent. -/
  | quiet (heap_eq : host'.heap = host.heap) (sent_eq : host'.sent = host.sent)
      (next_eq : host'.next = host.next) (careful : ¬BcnChange build frame)
  /-- A message is made and sent. -/
  | own (type : frame.hdr.type build.blk512 = Sdio.mvmsCmd) (msg : KeMsg)
      (answers : Answers frame msg) (heap_eq : host'.heap = host.heap ++ [(host.next, msg)])
      (sent_eq : host'.sent = host.sent ++ [host.next]) (next_eq : host'.next = host.next + 1)
      (careful : ¬BcnChange build frame)
  /-- Whatever the variable held is sent. -/
  | stale (changes : BcnChange build frame) (kmsg : ℕ) (heap_eq : host'.heap = host.heap)
      (sent_eq : host'.sent = host.sent ++ [kmsg]) (next_eq : host'.next = host.next)

theorem handled_of_other_type (type : frame.hdr.type build.blk512 ≠ Sdio.mvmsCmd)
    (heap_eq : host'.heap = host.heap) (sent_eq : host'.sent = host.sent)
    (next_eq : host'.next = host.next) : Handled build host frame host' :=
  .quiet heap_eq sent_eq next_eq fun changes => type changes.type

theorem handleCommand_handled (type : frame.hdr.type build.blk512 = Sdio.mvmsCmd) :
    Handled build host frame (handleCommand build host frame circumstances) := by
  rw [handleCommand]
  split
  · rename_i halts
    refine .quiet rfl rfl rfl fun changes => ?_
    rw [conversion_of_bcnChange changes] at halts
    exact nomatch halts
  · rename_i kmsg after converted
    rcases sdioH2eMsgConversion_converted converted with made | refused |
      ⟨long, command, -, host_eq⟩
    · obtain ⟨msg, heap_eq, answers⟩ := made.message
      refine .own type msg answers heap_eq ?_ made.next_eq fun changes => ?_
      · simp [sdioReleaseOneNode, sdioH2eKmsgHdlr, made.sent_eq, made.kmsg_eq]
      · rw [conversion_of_bcnChange changes] at converted
        cases converted
        exact Nat.ne_of_lt (Nat.lt_succ_self host.next) made.next_eq
    · exact nomatch refused.status_eq
    · subst host_eq
      exact .stale ⟨type, long, command⟩ kmsg rfl rfl rfl
  · rename_i kmsg after converted
    rcases sdioH2eMsgConversion_converted converted with made | refused | ⟨-, -, status_eq, -⟩
    · exact nomatch made.status_eq
    · rw [refused.host_eq]
      refine .quiet rfl rfl rfl fun changes => ?_
      rw [conversion_of_bcnChange changes] at converted
      exact nomatch converted
    · exact nomatch status_eq

theorem handleFrame_handled :
    Handled build host frame (handleFrame build host frame circumstances).1 := by
  fun_cases handleFrame build host frame circumstances with
  | case1 data | case3 data =>
      exact handled_of_other_type (by rw [data]; decide) rfl rfl rfl
  | case2 data =>
      refine handled_of_other_type (by rw [data]; decide) ?_ ?_ ?_ <;>
        simp only [inboundCfm] <;> split <;> rfl
  | case4 _ type => exact handleCommand_handled type
  | case5 _ type => exact handled_of_other_type type rfl rfl rfl

/-! ## Runs -/

variable (build) {input : Input}

theorem step_handle (circumstances : Circumstances) {rest : List Frame}
    (running : host.halted = false) (rx_eq : host.rx = frame :: rest) :
    (machine build).step host (.handle circumstances) =
      ((handleFrame build { host with rx := rest } frame circumstances).1, ()) := by
  have goesOn : ¬host.halted = true := Bool.eq_false_iff.mp running
  simp only [machine]
  rw [if_neg goesOn, rx_eq]

theorem step_of_handles (handles : Handles host input frame) :
    Handled build host frame ((machine build).step host input).1 := by
  obtain ⟨running, circumstances, rest, rfl, rx_eq⟩ := handles
  rw [step_handle build circumstances running rx_eq]
  cases @handleFrame_handled build { host with rx := rest } frame circumstances with
  | quiet heap_eq sent_eq next_eq careful => exact .quiet heap_eq sent_eq next_eq careful
  | own type msg answers heap_eq sent_eq next_eq careful =>
      exact .own type msg answers heap_eq sent_eq next_eq careful
  | stale changes kmsg heap_eq sent_eq next_eq => exact .stale changes kmsg heap_eq sent_eq next_eq

theorem step_of_not_handles (idle : ∀ frame, ¬Handles host input frame) :
    ((machine build).step host input).1.heap = host.heap ∧
      ((machine build).step host input).1.sent = host.sent ∧
      ((machine build).step host input).1.next = host.next := by
  simp only [machine]
  split
  · exact ⟨rfl, rfl, rfl⟩
  · rename_i running
    split
    · exact ⟨rfl, rfl, rfl⟩
    · rename_i circumstances frame rest rx_eq
      exact absurd ⟨Bool.eq_false_iff.mpr running, circumstances, rest, rfl, rx_eq⟩ (idle frame)
    · exact ⟨rfl, rfl, rfl⟩
    · exact ⟨rfl, rfl, rfl⟩
    · exact ⟨rfl, rfl, rfl⟩

theorem fresh_of_step (fresh : Fresh host) : Fresh ((machine build).step host input).1 := by
  by_cases handled : ∃ frame, Handles host input frame
  · obtain ⟨frame, handles⟩ := handled
    cases step_of_handles build handles with
    | quiet heap_eq _ next_eq | stale _ _ heap_eq _ next_eq =>
        simpa only [Fresh, heap_eq, next_eq] using fresh
    | own _ msg _ heap_eq _ next_eq =>
        intro message member
        rw [heap_eq] at member
        rw [next_eq]
        rcases List.mem_append.mp member with earlier | new
        · exact (fresh message earlier).trans (Nat.lt_succ_self _)
        · rw [List.mem_singleton.mp new]
          exact Nat.lt_succ_self _
  · obtain ⟨heap_eq, -, next_eq⟩ :=
      step_of_not_handles build (not_exists.mp handled)
    simpa only [Fresh, heap_eq, next_eq] using fresh

theorem ownStep_iff_careful (fresh : Fresh host) :
    OwnStep build host input ↔ Careful build host input := by
  constructor
  · rintro own frame handles changes
    cases step_of_handles build handles with
    | quiet _ _ _ careful | own _ _ _ _ _ _ careful => exact careful changes
    | stale _ kmsg heap_eq sent_eq _ =>
        rcases own with same | ⟨frame, -, -, address, msg, made, -⟩
        · rw [sent_eq] at same
          exact absurd same (by simp)
        · rw [heap_eq] at made
          exact absurd made (by simp)
  · intro careful
    by_cases handled : ∃ frame, Handles host input frame
    · obtain ⟨frame, handles⟩ := handled
      cases step_of_handles build handles with
      | quiet _ sent_eq => exact .inl sent_eq
      | own type msg answers heap_eq sent_eq =>
          exact .inr ⟨frame, handles, type, host.next, msg, heap_eq, sent_eq, answers,
            fun message member => Nat.ne_of_lt (fresh message member)⟩
      | stale changes => exact absurd changes (careful frame handles)
    · exact .inl (step_of_not_handles build (not_exists.mp handled)).2.1

/-- The kernel gets a message of its own for a frame, once, or none at all, exactly if no command
about a change of the beacon is handled. -/
theorem always_ownStep_iff_careful (inputs : List Input) :
    (machine build).Always (OwnStep build) Host.init inputs ↔
      (machine build).Always (Careful build) Host.init inputs :=
  (machine build).always_iff_always _ _ Fresh (fun _ fresh => ownStep_iff_careful build fresh)
    (fun _ fresh _ => fresh_of_step build fresh) (fun _ member => absurd member List.not_mem_nil)
    inputs

/-- A command of five bytes about a change of the beacon. -/
def bcnChangeFrame : Frame where
  hdr := { len := 5, typeSeq := 1 }
  content place := if place = 0 then 0xb8 else 0

/-- A pointer that was never set is sent. -/
theorem not_always_ownStep :
    ¬∀ build inputs, (machine build).Always (OwnStep build) Host.init inputs := by
  intro every
  let build : Build :=
    { realSdio := false, blk512 := false, wifiApMode := false, wifiWpa := false, wifiWep := false
      wepKeyLength := 0, wepKey := [], oobConnectSsid := [], chanConnect := 1, beacon := (0, 0)
      authRsp := (0, 0), assocRsp := (0, 0), smConnectReqSize := 0 }
  let circumstances : Circumstances :=
    { kmsg := 7, allocated := true, fuel := 0, txInfo := true, descriptor := true }
  have changes : BcnChange build bcnChangeFrame := ⟨rfl, by decide, rfl⟩
  obtain ⟨-, own, -⟩ := every build [.arrive bcnChangeFrame, .handle circumstances]
  exact (ownStep_iff_careful build (by simp [Fresh, machine, Host.init])).mp own bcnChangeFrame
    ⟨rfl, circumstances, [], rfl, rfl⟩ changes

variable {build}

/-! ## The loop of the event -/

theorem handleFrame_running (running : host.halted = false) :
    (handleFrame build host frame circumstances).2 = true →
      (handleFrame build host frame circumstances).1.halted = false := by
  fun_cases handleFrame build host frame circumstances with
  | case1 => exact nofun
  | case2 => exact nofun
  | case3 | case5 => exact fun _ => running
  | case4 => exact (Bool.not_eq_true' _).mp

theorem step_skip (running : host.halted = false) :
    ((machine build).step host .skip).1 = { host with rx := host.rx.tail } := by
  have goesOn : ¬host.halted = true := Bool.eq_false_iff.mp running
  simp only [machine]
  rw [if_neg goesOn]
  rcases host with ⟨_ | ⟨frame, rest⟩⟩ <;> rfl

/-- Every execution of the loop, early exits included, is a run of the steps. -/
theorem exists_run_of_sdioEmbRxedEvt (later : List Circumstances) (i : ℕ)
    (running : host.halted = false) :
    ∃ inputs : List Input, (∀ input ∈ inputs, ∀ frame, input ≠ .arrive frame) ∧
      sdioEmbRxedEvt build later i host = (machine build).run host inputs := by
  induction later generalizing i host with
  | nil => exact ⟨[], nofun, rfl⟩
  | cons circumstances later induction =>
      rcases rx_eq : host.rx with _ | ⟨frame, rest⟩
      · refine ⟨[], nofun, ?_⟩
        rw [sdioEmbRxedEvt, rx_eq]
        rfl
      · have handled := step_handle build circumstances running rx_eq
        have still :=
          @handleFrame_running build { host with rx := rest } frame circumstances running
        simp only [sdioEmbRxedEvt, rx_eq]
        generalize handleFrame build { host with rx := rest } frame circumstances = handling
          at handled still ⊢
        generalize (if build.blk512 = true ∧ frame.hdr.type build.blk512 = Sdio.mvmsDat then i + 1
          else i) = count
        obtain ⟨after, goesOn⟩ := handling
        simp only at handled still ⊢
        have lead (inputs : List Input) :
            (machine build).run host (.handle circumstances :: inputs) =
              (machine build).run after inputs := by
          rw [Machine.run_cons, handled]
        split_ifs with stops limit
        · exact ⟨[.handle circumstances], by simp, (lead []).symm⟩
        · refine ⟨[.handle circumstances, .skip], by simp, ?_⟩
          rw [lead, Machine.run_cons, step_skip (still ((Bool.not_eq_false _).mp stops))]
          rfl
        · obtain ⟨inputs, no_arrival, run_eq⟩ :=
            induction count (still ((Bool.not_eq_false _).mp stops))
          refine ⟨.handle circumstances :: inputs, ?_, run_eq.trans (lead inputs).symm⟩
          exact List.forall_mem_cons.mpr ⟨nofun, no_arrival⟩

theorem exists_run_of_sdioEmbRxedEvt_bcnChange :
    let build : Build :=
      { realSdio := false, blk512 := false, wifiApMode := false, wifiWpa := false, wifiWep := false
        wepKeyLength := 0, wepKey := [], oobConnectSsid := [], chanConnect := 1, beacon := (0, 0)
        authRsp := (0, 0), assocRsp := (0, 0), smConnectReqSize := 0 }
    let host := { Host.init with rx := [bcnChangeFrame, bcnChangeFrame] }
    ∃ inputs : List Input, (∀ input ∈ inputs, ∀ frame, input ≠ .arrive frame) ∧
      sdioEmbRxedEvt build [⟨7, true, 0, true, true⟩] 0 host = (machine build).run host inputs :=
  exists_run_of_sdioEmbRxedEvt [⟨7, true, 0, true, true⟩] 0 rfl

/-! ## The nodes that carry the frames -/

/-- The nodes of the link and the frames of the host interface match; `nodes` are those that wait
for the loop, and `free` was free before. -/
structure Carries (holds : Sdio.SdioNode → Frame → Prop) (free : List ℕ) (state : Sdio.SdioState)
    (nodes : List Sdio.SdioNode) (host : Host) : Prop where
  waiting : List.Forall₂ holds nodes host.rx
  inbound : List.Forall₂ holds state.inboundList host.inbound
  released : ∃ done, List.Forall₂ holds done host.released ∧
    state.freeNodes = free ++ done.map Sdio.SdioNode.id

section
variable {holds : Sdio.SdioNode → Frame → Prop} {free : List ℕ} {state : Sdio.SdioState}
  {nodes : List Sdio.SdioNode} {node : Sdio.SdioNode}

/-- A node is freed and its frame is released. -/
theorem Carries.release (carries : Carries holds free state nodes host) (held : holds node frame) :
    Carries holds free (Sdio.sdioFreeValidNode state node) nodes (sdioReleaseOneNode host frame) where
  waiting := carries.waiting
  inbound := carries.inbound
  released := by
    obtain ⟨done, same, free_eq⟩ := carries.released
    refine ⟨done ++ [node], List.rel_append same (.cons held .nil), ?_⟩
    rw [Sdio.sdioFreeValidNode, free_eq, List.map_append, List.append_assoc]
    rfl

theorem Carries.inboundCfm (carries : Carries holds free state nodes host) :
    Carries holds free (Sdio.inboundCfm state) nodes (inboundCfm host) := by
  have inbound := carries.inbound
  rw [Sdio.inboundCfm, HostCommands.inboundCfm]
  cases nodes_eq : state.inboundList with
  | nil =>
      rw [nodes_eq, List.forall₂_nil_left_iff] at inbound
      rw [inbound]
      exact carries
  | cons node rest =>
      rw [nodes_eq] at inbound
      obtain ⟨frame, frames, held, same, frames_eq⟩ := List.forall₂_cons_left_iff.mp inbound
      rw [frames_eq]
      have rest_carries : Carries holds free { state with inboundList := rest } nodes
          { host with inbound := frames } :=
        ⟨carries.waiting, same, carries.released⟩
      exact rest_carries.release held

theorem frames_of_converted
    (converted : sdioH2eMsgConversion build host frame circumstances = some (status, kmsg, host')) :
    host'.rx = host.rx ∧ host'.inbound = host.inbound ∧ host'.released = host.released := by
  rcases sdioH2eMsgConversion_converted converted with made | ⟨-, host_eq⟩ | ⟨-, -, -, host_eq⟩
  · exact made.frames_eq
  · rw [host_eq]
    exact ⟨rfl, rfl, rfl⟩
  · rw [host_eq]
    exact ⟨rfl, rfl, rfl⟩

theorem Carries.handleCommand (carries : Carries holds free state nodes host)
    (held : holds node frame)
    (goesOn : (handleCommand build host frame circumstances).halted = false) :
    Carries holds free (Sdio.sdioFreeValidNode state node) nodes
      (handleCommand build host frame circumstances) := by
  have kept {host' : Host} (frames : host'.rx = host.rx ∧ host'.inbound = host.inbound ∧
      host'.released = host.released) : Carries holds free state nodes host' :=
    ⟨frames.1 ▸ carries.waiting, frames.2.1 ▸ carries.inbound, frames.2.2 ▸ carries.released⟩
  revert goesOn
  rw [HostCommands.handleCommand]
  split
  · exact fun halted => absurd halted.symm Bool.false_ne_true
  · rename_i kmsg after converted
    have after_carries := kept (frames_of_converted converted)
    have sent : Carries holds free state nodes (sdioH2eKmsgHdlr after kmsg) :=
      ⟨after_carries.waiting, after_carries.inbound, after_carries.released⟩
    exact fun _ => sent.release held
  · rename_i converted
    exact fun _ => (kept (frames_of_converted converted)).release held

/-- The two ends of the loop agree on a list of nodes. -/
def CarriesOut (holds : Sdio.SdioNode → Frame → Prop) (free : List ℕ) (state : Sdio.SdioState)
    (host : Host) : Prop :=
  host.halted = false → Carries holds free state state.rxDat host

theorem Carries.ends (carries : Carries holds free state nodes host) :
    CarriesOut holds free (Sdio.setRxDat state nodes) host :=
  fun _ => ⟨carries.waiting, carries.inbound, carries.released⟩

/-- What the loop does to the nodes of the link is what the node model does, if `full` tells which
data frames find no descriptor, and no conversion of a command fails an `ASSERT`. -/
theorem carries_rxedLoop {full : Sdio.SdioNode → Bool} {later : List Circumstances} {i j : ℕ}
    (same_hdr : ∀ node frame, holds node frame → node.hdr = frame.hdr)
    (decided : List.Forall₂ (fun node circumstances =>
      circumstances.txInfo = true ∧ full node = !circumstances.descriptor) nodes later)
    (carries : Carries holds free state nodes host)
    (counted : if build.blk512 then i = j else j = 0) :
    CarriesOut holds free (Sdio.rxedLoop build.blk512 full i state nodes)
      (sdioEmbRxedEvt build later j host) := by
  induction decided generalizing state host i j with
  | nil => exact carries.ends
  | @cons node circumstances nodes later decision decided ih =>
      obtain ⟨frame, frames, held, waiting, rx_eq⟩ :=
        List.forall₂_cons_left_iff.mp carries.waiting
      -- the rest of the loop after this frame
      have goes_on {state : Sdio.SdioState} {host : Host} {i j : ℕ}
          (carries : Carries holds free state nodes host)
          (counted : if build.blk512 then i = j else j = 0) :
          CarriesOut holds free
            (if build.blk512 = true ∧ i > 10 then Sdio.setRxDat state nodes.tail
              else Sdio.rxedLoop build.blk512 full i state nodes)
            (if 10 < j then { host with rx := host.rx.tail }
              else sdioEmbRxedEvt build later j host) := by
        have same_limit : (build.blk512 = true ∧ i > 10) ↔ 10 < j := by
          revert counted
          cases build.blk512 <;> simp <;> omega
        by_cases limit : 10 < j
        · rw [if_pos (same_limit.mpr limit), if_pos limit]
          have rest := List.forall₂_drop 1 carries.waiting
          rw [List.drop_one, List.drop_one] at rest
          exact fun _ => ⟨rest, carries.inbound, carries.released⟩
        · rw [if_neg (mt same_limit.mp limit), if_neg limit]
          exact ih carries counted
      have taken : Carries holds free state nodes { host with rx := frames } :=
        ⟨waiting, carries.inbound, carries.released⟩
      simp only [sdioEmbRxedEvt, rx_eq, Sdio.rxedLoop, same_hdr node frame held]
      by_cases data : frame.hdr.type build.blk512 = Sdio.mvmsDat
      · have added : Carries holds free (Sdio.addInbound state node) nodes
            { host with rx := frames, inbound := host.inbound ++ [frame] } :=
          ⟨waiting, List.rel_append carries.inbound (.cons held .nil), carries.released⟩
        rw [handleFrame, if_pos data, if_pos data, decision.1, decision.2]
        cases free_descriptor : circumstances.descriptor with
        | false =>
            exact added.inboundCfm.ends
        | true =>
            have pushed : Carries holds free (Sdio.addInbound state node) nodes
                { host with
                  rx := frames
                  inbound := host.inbound ++ [frame]
                  pushed := host.pushed ++ [frame] } :=
              ⟨added.waiting, added.inbound, added.released⟩
            refine goes_on pushed ?_
            by_cases blocks : build.blk512 = true
            · rw [if_pos blocks] at counted
              rw [if_pos blocks, if_pos ⟨blocks, data⟩, counted]
            · rw [if_neg blocks] at counted
              rw [if_neg blocks, if_neg fun both => blocks both.1, counted]
      · rw [handleFrame, if_neg data, if_neg data]
        have uncounted : ¬(build.blk512 = true ∧ frame.hdr.type build.blk512 = Sdio.mvmsDat) :=
          fun both => data both.2
        rw [if_neg uncounted]
        by_cases command : frame.hdr.type build.blk512 = Sdio.mvmsCmd
        · rw [if_pos command, if_pos command]
          have served (goesOn : (HostCommands.handleCommand build { host with rx := frames } frame
              circumstances).halted = false) := taken.handleCommand held goesOn
          dsimp only
          generalize HostCommands.handleCommand build { host with rx := frames } frame
            circumstances = after at served ⊢
          by_cases running : after.halted = false
          · have stays : ¬(!after.halted) = false := by rw [running]; decide
            rw [if_neg stays]
            exact goes_on (served running) counted
          · have leaves : (!after.halted) = false := by simpa using running
            rw [if_pos leaves]
            exact fun ends => absurd ends running
        · rw [if_neg command, if_neg command]
          exact goes_on taken counted

end

/-- The loop as it dispatches frames and the loop as it moves nodes are two views of one: each node
ends where its frame does. -/
theorem carries_sdioEmbRxedEvt {holds : Sdio.SdioNode → Frame → Prop} {free : List ℕ}
    {state : Sdio.SdioState} {full : Sdio.SdioNode → Bool} {later : List Circumstances}
    (same_hdr : ∀ node frame, holds node frame → node.hdr = frame.hdr)
    (decided : List.Forall₂ (fun node circumstances =>
      circumstances.txInfo = true ∧ full node = !circumstances.descriptor) state.rxDat later)
    (carries : Carries holds free state state.rxDat host)
    (ends : (sdioEmbRxedEvt build later 0 host).halted = false) :
    Carries holds free (Sdio.sdioEmbRxedEvt build.blk512 full state)
      (Sdio.sdioEmbRxedEvt build.blk512 full state).rxDat (sdioEmbRxedEvt build later 0 host) :=
  carries_rxedLoop same_hdr decided carries (by split_ifs <;> rfl) ends

/-- A data frame that goes to the transmit path, then a command whose node is freed. -/
theorem carries_sdioEmbRxedEvt_two :
    let build : Build :=
      { realSdio := false, blk512 := false, wifiApMode := false, wifiWpa := false, wifiWep := false
        wepKeyLength := 0, wepKey := [], oobConnectSsid := [], chanConnect := 1, beacon := (0, 0)
        authRsp := (0, 0), assocRsp := (0, 0), smConnectReqSize := 0 }
    let dataFrame : Frame := { hdr := { len := 60, typeSeq := 0 }, content := fun _ => 0 }
    let nodes : List Sdio.SdioNode := [⟨5, 1632, 60, dataFrame.hdr⟩, ⟨6, 125, 5, bcnChangeFrame.hdr⟩]
    let state := { Sdio.sdioInit with freeNodes := [7], rxDat := nodes }
    let host := { Host.init with rx := [dataFrame, bcnChangeFrame] }
    let later : List Circumstances := [⟨7, true, 0, true, true⟩, ⟨7, true, 0, true, true⟩]
    Carries (fun node frame => node.hdr = frame.hdr) [7]
      (Sdio.sdioEmbRxedEvt build.blk512 (fun _ => false) state)
      (Sdio.sdioEmbRxedEvt build.blk512 (fun _ => false) state).rxDat
      (sdioEmbRxedEvt build later 0 host) := by
  intro build dataFrame nodes state host later
  refine carries_sdioEmbRxedEvt (fun _ _ same => same) ?_ ⟨?_, .nil, [], .nil, rfl⟩ rfl
  · exact .cons ⟨rfl, rfl⟩ (.cons ⟨rfl, rfl⟩ .nil)
  · exact .cons rfl (.cons rfl .nil)

end BdkFreertos.HostCommands
