import BdkFreertos.BleApp

/-!
# The commands of the BLE application under way

A call of a `bk_ble_` function starts a command by a message to the stack.  The handlers of the
stack's answers go on with whatever command runs.  Besides, notifications, indications, disconnects
and MTU exchanges complete at any time, and so do the commands of the application's timers.
-/

namespace BdkFreertos.BleCommands

open BleConnections
  (BleErr Config ConnParam Conn InitState initingCheckIndex initingParam usedConnHdl
    appBleUpdateParam appBleDisconnect appBleGattMtuChange)
open BleApp

variable (config : Config)

/-! ## The functions for connections -/

/-- `BLE_APP_INITING_INDEX`. -/
def initingIndex (conIdx : UInt8) : UInt8 := conIdx + UInt8.ofNat config.activityMax

def unchecked (op : Op) (alloc : Bool) : List Effect := if alloc then [.sent op] else [.fault]

/-- `appm_create_initing`, for a new activity or one that is used again. -/
def appmCreateIniting (env : Env) (conIdx : UInt8) (param : ConnParam) (reused alloc : Bool) :
    BleErr × Env × List Effect :=
  if config.connectionMax ≤ conIdx.toNat then (.unknowIdx, env, [])
  else if (env.connections conIdx.toNat).initState = .idle then
    let reserve (conn : Conn) : Conn :=
      { conn with
        conhdl := usedConnHdl
        param := initingParam conIdx param
        connOpMask := 1
        initState := if reused ∨ ¬alloc then conn.initState else .creating }
    (.success, env.setConn conIdx.toNat reserve,
      unchecked (if reused then .initEvent conIdx else .createInit conIdx) alloc)
  else (.initState, env, [])

/-- What `appm_start_connecting` and `appm_stop_connencting` have in common. -/
def appmConnecting (env : Env) (conIdx : UInt8) (expected next : InitState) (mask : UInt32)
    (op : Op) (alloc : Bool) : BleErr × Env × List Effect :=
  if config.connectionMax ≤ conIdx.toNat then (.unknowIdx, env, [])
  else if (env.connections conIdx.toNat).initState = expected then
    (.success,
      env.setConn conIdx.toNat fun conn => { conn with connOpMask := mask, initState := next },
      unchecked op alloc)
  else (.initState, env, [])

/-- `appm_start_connecting`. -/
def appmStartConnecting (env : Env) (conIdx : UInt8) (alloc : Bool) : BleErr × Env × List Effect :=
  appmConnecting config env conIdx .created .waitConectting 2 (.startInit conIdx) alloc

/-- `appm_stop_connencting`. -/
def appmStopConnencting (env : Env) (conIdx : UInt8) (alloc : Bool) : BleErr × Env × List Effect :=
  appmConnecting config env conIdx .conectting .stopping 4 (.stopInit conIdx) alloc

/-- What `appm_read_service_data_by_handle_req` and `appc_write_service_data_req` have in common:
whether they succeed, with a message to the profile task when the services of the connection are
known and the handle is one of theirs. -/
def appmServiceReq (conIdx : UInt8) (known : Bool) (op : Op) (alloc : Bool) : Bool × List Effect :=
  if config.connectionMax ≤ conIdx.toNat then (false, [])
  else if known then (true, unchecked op alloc)
  else (false, [])

def appmReadServiceDataByHandleReq (conIdx : UInt8) (known alloc : Bool) : Bool × List Effect :=
  appmServiceReq config conIdx known (.readInfo conIdx) alloc

def appcWriteServiceDataReq (conIdx : UInt8) (known alloc : Bool) : Bool × List Effect :=
  appmServiceReq config conIdx known (.writeInfo conIdx) alloc

/-- What the `bk_ble_` functions for initiated connections and their services have in common:
another error stands for that of the function that they call. -/
def bkBleInitCmd (env : Env) (idx : UInt8) (cmd : BleCmd) (opMask : UInt32)
    (callback : Option Call) (first : Env → Bool × Env × List Effect) :
    BleErr × Env × List Effect :=
  if env.Ready then
    let sent := first (appBleRun env idx cmd opMask callback)
    if sent.1 then (.success, sent.2) else (.initCreate, appBleReset sent.2.1, sent.2.2)
  else (.bleStatus, env, [])

def connMessage (result : BleErr × Option UInt8) (op : UInt8 → Op) : BleErr × List Effect :=
  (result.1, (result.2.map fun kernelIdx => Effect.sent (op kernelIdx)).toList)

section

variable (env : Env) (idx : UInt8) (callback : Option Call) (alloc : Bool)

def bkBleUpdateParam : BleErr × Env × List Effect :=
  bkBleCmd env idx .connUpdateParam 1 callback fun env =>
    connMessage (appBleUpdateParam config env.connections idx alloc) .updateParams

def bkBleDisconnect : BleErr × Env × List Effect :=
  bkBleCmd env idx .connDisConn 4 callback fun env =>
    connMessage (appBleDisconnect config env.connections idx alloc) .disconnect

def bkBleGattMtuChange : BleErr × Env × List Effect :=
  bkBleCmd env idx .connUpdateMtu 2 callback fun env =>
    connMessage (appBleGattMtuChange config env.connections idx alloc) .mtuExch

def bkBleCreateInit (param : ConnParam) (reused : Bool) : BleErr × Env × List Effect :=
  bkBleInitCmd env idx .initCreate 1 callback fun env =>
    let created := appmCreateIniting config env idx param reused alloc
    (created.1 = .success, created.2)

def bkBleInitStartConn : BleErr × Env × List Effect :=
  bkBleInitCmd env idx .initStartConn 2 callback fun env =>
    let started := appmStartConnecting config env idx alloc
    (started.1 = .success, started.2)

def bkBleInitStopConn : BleErr × Env × List Effect :=
  bkBleInitCmd env idx .initStopConn 4 callback fun env =>
    let stopped := appmStopConnencting config env idx alloc
    (stopped.1 = .success, stopped.2)

def bkBleReadServiceDataByHandleReq (known : Bool) : BleErr × Env × List Effect :=
  bkBleInitCmd env idx .initReadChar 16 callback fun env =>
    let asked := appmReadServiceDataByHandleReq config idx known alloc
    (asked.1, env, asked.2)

def bkBleWriteServiceDataReq (known : Bool) : BleErr × Env × List Effect :=
  bkBleInitCmd env idx .initWriteChar 32 callback fun env =>
    let asked := appcWriteServiceDataReq config idx known alloc
    (asked.1, env, asked.2)

end

/-- The functions that start a command. -/
inductive Api
  | actv (function : ActvApi)
  | updateParam
  | disconnect
  | gattMtuChange
  | createInit (param : ConnParam) (reused : Bool)
  | initStartConn
  | initStopConn
  | readServiceDataByHandleReq (known : Bool)
  | writeServiceDataReq (known : Bool)

/-- The command of an advertising or scan function. -/
def actvCmd : ActvApi → BleCmd
  | .advStart => .initAdv
  | .advStop => .deinitAdv
  | .scanStart => .initScan
  | .scanStop => .deinitScan
  | .createAdvertising => .createAdv
  | .startAdvertising => .startAdv
  | .stopAdvertising => .stopAdv
  | .deleteAdvertising => .deleteAdv
  | .setAdvData _ => .setAdvData
  | .setScanRspData _ => .setRspData
  | .createScaning => .createScan
  | .startScaning => .startScan
  | .stopScaning => .stopScan
  | .deleteScaning => .deleteScan

/-- The command of a function. -/
def Api.cmd : Api → BleCmd
  | .actv function => actvCmd function
  | .updateParam => .connUpdateParam
  | .disconnect => .connDisConn
  | .gattMtuChange => .connUpdateMtu
  | .createInit _ _ => .initCreate
  | .initStartConn => .initStartConn
  | .initStopConn => .initStopConn
  | .readServiceDataByHandleReq _ => .initReadChar
  | .writeServiceDataReq _ => .initWriteChar

/-- A call of a function. -/
def Api.call (env : Env) (idx : UInt8) (callback : Option Call) (alloc : Bool) :
    Api → BleErr × Env × List Effect
  | .actv function => function.call config env idx callback alloc
  | .updateParam => bkBleUpdateParam config env idx callback alloc
  | .disconnect => bkBleDisconnect config env idx callback alloc
  | .gattMtuChange => bkBleGattMtuChange config env idx callback alloc
  | .createInit param reused => bkBleCreateInit config env idx callback alloc param reused
  | .initStartConn => bkBleInitStartConn config env idx callback alloc
  | .initStopConn => bkBleInitStopConn config env idx callback alloc
  | .readServiceDataByHandleReq known =>
      bkBleReadServiceDataByHandleReq config env idx callback alloc known
  | .writeServiceDataReq known => bkBleWriteServiceDataReq config env idx callback alloc known

/-! ## The answers -/

/-- How a characteristic can be written, as `sdp_write_value_info_req_handler` finds it. -/
inductive CharProp
  | writeNoResponse
  | write
  | neither
  deriving DecidableEq

/-- What becomes of a message. -/
inductive Answer
  /-- The stack completes a command, or the application gets its own event. -/
  | completed (ok : Bool)
  /-- The profile task does not know the handle. -/
  | unknownHandle
  /-- The profile task knows the handle of a characteristic. -/
  | knownHandle (prop : CharProp)
  deriving DecidableEq

/-- `sdp_read_info_req_handler` for a handle. -/
def sdpReadInfoReqHandler (env : Env) (known alloc : Bool) : Env × List Effect :=
  (env, if known then unchecked .read alloc else [])

def sdpWriteValueInfoReqHandler (env : Env) (conIdx : UInt8) (prop : Option CharProp)
    (alloc : Bool) : Env × List Effect :=
  match prop with
  | some .writeNoResponse => (env, unchecked .writeNoResponse alloc)
  | some .write => (env, unchecked .write alloc)
  | some .neither => appBleNextOperation config env conIdx .attcWrite alloc
  | none => appBleNextOperation config env conIdx .attcWriteUnregister alloc

/-- `sdp_task_gattc_cmp_evt_handler`, by which the completions for the profile task reach
`gattc_cmp_evt_handler`. -/
def sdpTaskGattcCmpEvtHandler (env : Env) (alloc : Bool) (completed : Env × List Effect) :
    Env × List Effect :=
  if alloc then completed else (env, [.fault])

/-- The handling of an answer to a message. -/
def answered (env : Env) (answer : Answer) (alloc : Bool) : Op → Env × List Effect
  | .readInfo _ =>
      match answer with
      | .completed _ => (env, [])
      | .unknownHandle => sdpReadInfoReqHandler env false alloc
      | .knownHandle _ => sdpReadInfoReqHandler env true alloc
  | .writeInfo conIdx =>
      match answer with
      | .completed _ => (env, [])
      | .unknownHandle => sdpWriteValueInfoReqHandler config env conIdx none alloc
      | .knownHandle prop => sdpWriteValueInfoReqHandler config env conIdx (some prop) alloc
  | op =>
      match answer with
      | .completed ok => completed ok op
      | _ => (env, [])
where
  /-- The handling of a completion event. -/
  completed (ok : Bool) : Op → Env × List Effect
    | .createAdv => gapmCmpEvtHandler config env .createAdv 0 ok alloc
    | .createScan => gapmCmpEvtHandler config env .createScan 0 ok alloc
    | .setAdvData _ => gapmCmpEvtHandler config env .setAdvData 0 ok alloc
    | .setScanRspData _ => gapmCmpEvtHandler config env .setScanRspData 0 ok alloc
    | .start _ => gapmCmpEvtHandler config env .start 0 ok alloc
    | .stop _ => gapmCmpEvtHandler config env .stop 0 ok alloc
    | .delete _ => gapmCmpEvtHandler config env .delete 0 ok alloc
    | .createInit conIdx =>
        gapmCmpEvtHandler config env .createInit (initingIndex config conIdx) ok alloc
    | .startInit conIdx =>
        gapmCmpEvtHandler config env .start (initingIndex config conIdx) ok alloc
    | .stopInit conIdx => gapmCmpEvtHandler config env .stop (initingIndex config conIdx) ok alloc
    | .initEvent conIdx => appInitInitEventHandler config env (initingIndex config conIdx) alloc
    | .updateParams _ => paramsUpdated config env ok alloc
    | .disconnect _ => disconnected config env ok alloc
    | .mtuExch _ => mtuExchanged config env ok alloc
    | .read =>
        sdpTaskGattcCmpEvtHandler env alloc (charCompleted config env .initReadChar 16 ok alloc)
    | .write =>
        sdpTaskGattcCmpEvtHandler env alloc (charCompleted config env .initWriteChar 32 ok alloc)
    | .writeNoResponse => sdpTaskGattcCmpEvtHandler env alloc (env, [])
    | .readInfo _ | .writeInfo _ => (env, [])

/-! ## The system -/

/-- Completions that belong to no command of a `bk_ble_` function. -/
inductive Foreign
  /-- `GATTC_INDICATE` and `GATTC_NOTIFY`. -/
  | notified
  | disconnected
  | mtuExchanged
  /-- The answers to what the application's timers send. -/
  | paramsUpdated
  | initingStopped (conidx : UInt8)

/-- The handling of such a completion. -/
def foreign (env : Env) (ok alloc : Bool) : Foreign → Env × List Effect
  | .notified => notified config env ok alloc
  | .disconnected => disconnected config env ok alloc
  | .mtuExchanged => mtuExchanged config env ok alloc
  | .paramsUpdated => paramsUpdated config env ok alloc
  | .initingStopped conidx =>
      -- the timer's handler checks the index before it sends
      if initingCheckIndex config conidx then gapmCmpEvtHandler config env .stop conidx ok alloc
      else (env, [])

/-- Indications of the stack. -/
inductive Indication
  | created (conidx : UInt8) (actvType : ActvType) (gapIdx : UInt8)
  | stopped (conidx : UInt8) (actvType : ActvType) (gapIdx : UInt8)
  | connected (role conidx destIdx : UInt8) (param : ConnParam)
  | disconnected (conidx : UInt8)

/-- The handling of an indication. -/
def indicated (env : Env) : Indication → Env
  | .created conidx actvType gapIdx =>
      gapmActivityCreatedIndHandler config env conidx actvType gapIdx
  | .stopped conidx actvType gapIdx =>
      gapmActivityStoppedIndHandler config env conidx actvType gapIdx
  | .connected role conidx destIdx param =>
      { env with
        connections := (BleConnections.gapcConnectionReqIndHandler config
          ⟨env.connections, env.Running, []⟩ role conidx destIdx param).connections }
  | .disconnected conidx =>
      { env with
        connections := (BleConnections.gapcDisconnectIndHandler config
          ⟨env.connections, env.Running, []⟩ conidx).connections }

/-- A message that is not answered. -/
structure Pending where
  op : Op
  /-- The number of the call whose command was running when the message was sent. -/
  owner : Option ℕ

/-- The application with the messages on their way. -/
structure System where
  env : Env
  calls : ℕ
  current : Call
  /-- The accepted calls whose callbacks have not been invoked. -/
  waiting : List Call
  pending : List Pending
  /-- A message that could not be allocated was written to. -/
  halted : Bool

/-- When the stack is ready for the first command. -/
def System.init : System where
  env := Env.init
  calls := 0
  current := ⟨0, .createAdv, 0⟩
  waiting := []
  pending := []
  halted := false

/-- What happens to the application. -/
inductive Event
  | api (function : Api) (idx : UInt8) (wanted alloc : Bool)
  | answered (position : ℕ) (answer : Answer) (alloc : Bool)
  | foreign (completion : Foreign) (ok alloc : Bool)
  | indicated (indication : Indication)

/-- The calls whose callbacks are invoked. -/
def called (effects : List Effect) : List Call :=
  effects.filterMap fun
    | .callback call _ _ _ => some call
    | _ => none

def System.call (system : System) (function : Api) (idx : UInt8) : Call :=
  ⟨system.calls, function.cmd, idx⟩

/-- A call with its result. -/
def System.result (system : System) (function : Api) (idx : UInt8) (wanted alloc : Bool) :
    BleErr × Env × List Effect :=
  function.call config system.env idx
    (if wanted then some (system.call function idx) else none) alloc

/-- What the application does. -/
def reaction (system : System) : Event → Env × List Effect
  | .api function idx wanted alloc => (system.result config function idx wanted alloc).2
  | .answered position answer alloc =>
      match system.pending[position]? with
      | some pending => answered config system.env answer alloc pending.op
      | none => (system.env, [])
  | .foreign completion ok alloc => foreign config system.env ok alloc completion
  | .indicated indication => (indicated config system.env indication, [])

/-- The command to which the messages belong that a handler sends. -/
def System.running (system : System) : Option ℕ :=
  if system.env.Running then some system.current.number else none

/-- The books after a reaction. -/
def System.react (system : System) (reaction : Env × List Effect) (owner : Option ℕ) : System :=
  { system with
    env := reaction.1
    waiting := system.waiting.filter (· ∉ called reaction.2)
    pending := system.pending ++ (sentOps reaction.2).map fun op => ⟨op, owner⟩
    halted := .fault ∈ reaction.2 }

/-- An event of a system that has not halted. -/
def stepEvent (system : System) (event : Event) : System :=
  let reaction := reaction config system event
  match event with
  | .api function idx wanted alloc =>
      let call := system.call function idx
      let system' :=
        if (system.result config function idx wanted alloc).1 = .success then
          { system with
            current := call
            waiting := if wanted then call :: system.waiting else system.waiting }
        else system
      System.react { system' with calls := system.calls + 1 } reaction (some call.number)
  | .answered position _ _ =>
      System.react { system with pending := system.pending.eraseIdx position } reaction
        system.running
  | .foreign _ _ _ | .indicated _ => system.react reaction system.running

def machine : Machine System Event Unit where
  step system event := (if system.halted then system else stepEvent config system event, ())

/-! ## What the functions do -/

variable {config}

theorem called_append (first second : List Effect) :
    called (first ++ second) = called first ++ called second := by
  simp [called]

theorem called_callback (opCb : Option Call) (cmd : BleCmd) (idx : UInt8) (status : BleErr) :
    called (callback opCb cmd idx status) = opCb.toList := by
  cases opCb <;> rfl

theorem appBleActvCmd_effects (env : Env) (idx : UInt8) (allowed : List ActvState) (op : Op)
    (alloc : Bool) :
    (appBleActvCmd config env idx allowed op alloc).2 = [] ∨
      (appBleActvCmd config env idx allowed op alloc).2 = [.sent op] := by
  unfold appBleActvCmd
  split_ifs <;> simp

/-- A message of a step of a command, or of its clean-up. -/
def IsStep (env : Env) : Op → Prop
  | .setAdvData _ | .setScanRspData _ | .start _ => env.opMask ≠ 0
  | .delete _ => True
  | _ => False

/-- What the next operation can do: the callback is invoked or not, a message is sent or not, and
the application is ready afterwards or the command goes on. -/
structure Outcome (env : Env) (idx : UInt8) (status : BleErr) (result : Env × List Effect) :
    Prop where
  cmd_eq : result.1.cmd = env.cmd
  opMask_eq : result.1.opMask = env.opMask ∨ result.1.opMask = 0
  state : result.1 = appBleReset result.1 ∨
    result.1.appStatus = env.appStatus ∧ (result.1.opCb = env.opCb ∨ result.1.opCb = none)
  effects : ∃ opCb sends, result.2 = callback opCb env.cmd idx status ++ sends ∧
    (opCb = none ∨ opCb = env.opCb ∧ result.1.opCb = none) ∧
    (sends = [] ∨
      ∃ op, sends = [.sent op] ∧ result.1.appStatus = env.appStatus ∧ IsStep env op)

section Next

variable {env : Env} {idx : UInt8} {status : BleErr} {alloc : Bool}

theorem finish_outcome : Outcome env idx status (finish env idx status) :=
  ⟨rfl, .inr rfl, .inl rfl, env.opCb, [], by simp [finish], .inr ⟨rfl, rfl⟩, .inl rfl⟩

theorem initOperation_outcome {step : ℕ → BleErr × List Effect} {created : ActvState}
    {delete : BleErr × List Effect}
    (steps : env.opMask ≠ 0 → ∀ position, (step position).2 = [] ∨
      ∃ op, (step position).2 = [.sent op] ∧ IsStep env op)
    (deletes : delete.2 = [] ∨ ∃ gapIdx, delete.2 = [.sent (.delete gapIdx)]) :
    Outcome env idx status (initOperation env idx status step created delete) := by
  unfold initOperation
  split_ifs with more noCallback failed isCreated
  · refine ⟨rfl, .inl rfl, .inr ⟨rfl, .inl rfl⟩, none, _, rfl, .inl rfl, ?_⟩
    rcases steps more.1 (opIdx env.opMask) with nothing | ⟨op, sends, isStep⟩
    · exact .inl nothing
    · exact .inr ⟨op, sends, rfl, isStep⟩
  · refine ⟨rfl, .inl rfl, .inr ⟨rfl, .inl rfl⟩, env.opCb, _, rfl, .inr ⟨rfl, noCallback⟩, ?_⟩
    exact deletes.imp id fun ⟨gapIdx, sends⟩ => ⟨_, sends, rfl, trivial⟩
  · exact finish_outcome
  · exact finish_outcome
  · refine ⟨rfl, .inr rfl, .inr ⟨rfl, .inr rfl⟩, env.opCb, _, rfl, .inr ⟨rfl, rfl⟩, ?_⟩
    exact deletes.imp id fun ⟨gapIdx, sends⟩ => ⟨_, sends, rfl, trivial⟩
  · exact finish_outcome
  · exact finish_outcome

theorem deinitOperation_outcome {delPos : ℕ} {delete : BleErr × List Effect}
    (deletes : delete.2 = [] ∨ ∃ gapIdx, delete.2 = [.sent (.delete gapIdx)]) :
    Outcome env idx status (deinitOperation env idx status delPos delete) := by
  unfold deinitOperation
  split_ifs with more here
  · refine ⟨rfl, .inl rfl, .inr ⟨rfl, .inl rfl⟩, none, _, rfl, .inl rfl, ?_⟩
    exact deletes.imp id fun ⟨gapIdx, sends⟩ => ⟨_, sends, rfl, trivial⟩
  · exact ⟨rfl, .inl rfl, .inr ⟨rfl, .inl rfl⟩, none, [], rfl, .inl rfl, .inl rfl⟩
  · exact finish_outcome

theorem appBleNextOperation_outcome :
    Outcome env idx status (appBleNextOperation config env idx status alloc) := by
  have deletes (allowed : List ActvState) (gapIdx : UInt8) :
      (appBleActvCmd config env idx allowed (.delete gapIdx) alloc).2 = [] ∨
        ∃ gapIdx', (appBleActvCmd config env idx allowed (.delete gapIdx) alloc).2 =
          [.sent (.delete gapIdx')] :=
    (appBleActvCmd_effects ..).imp id fun sends => ⟨gapIdx, sends⟩
  have steps {op : Op} (isStep : IsStep env op) (allowed : List ActvState) :
      (appBleActvCmd config env idx allowed op alloc).2 = [] ∨
        ∃ op', (appBleActvCmd config env idx allowed op alloc).2 = [.sent op'] ∧
          IsStep env op' :=
    (appBleActvCmd_effects ..).imp id fun sends => ⟨op, sends, isStep⟩
  unfold appBleNextOperation
  split
  · refine initOperation_outcome (fun more position => ?_) (deletes ..)
    unfold initAdvStep
    split
    · exact steps (show IsStep env (.setAdvData _) from more) _
    · exact steps (show IsStep env (.setScanRspData _) from more) _
    · exact steps (show IsStep env (.start _) from more) _
    · exact .inl rfl
  · exact deinitOperation_outcome (deletes ..)
  · refine initOperation_outcome (fun more position => ?_) (deletes ..)
    unfold initScanStep
    split
    · exact steps (show IsStep env (.start _) from more) _
    · exact .inl rfl
  · exact deinitOperation_outcome (deletes ..)
  · exact ⟨rfl, .inl rfl, .inr ⟨rfl, .inl rfl⟩, none, [], rfl, .inl rfl, .inl rfl⟩
  · exact finish_outcome

end Next

variable {status : BleErr} {env' : Env}

section

variable {env : Env} {idx : UInt8} {result : Env × List Effect}
  (outcome : Outcome env idx status result)
include outcome

theorem Outcome.called_cases :
    called result.2 = [] ∨ called result.2 = env.opCb.toList ∧ result.1.opCb = none := by
  obtain ⟨opCb, sends, effects_eq, invoked, sent⟩ := outcome.effects
  have silent : called sends = [] := by
    rcases sent with rfl | ⟨op, rfl, -, -⟩ <;> rfl
  rw [effects_eq, called_append, called_callback, silent, List.append_nil]
  rcases invoked with rfl | ⟨rfl, cleared⟩
  · exact .inl rfl
  · exact .inr ⟨rfl, cleared⟩

theorem Outcome.sent_cases :
    sentOps result.2 = [] ∨
      ∃ op, sentOps result.2 = [op] ∧ result.1.appStatus = env.appStatus ∧ IsStep env op := by
  obtain ⟨opCb, sends, effects_eq, -, sent⟩ := outcome.effects
  rw [effects_eq, sentOps_append, sentOps_callback, List.nil_append]
  rcases sent with rfl | ⟨op, rfl, same, isStep⟩
  · exact .inl rfl
  · exact .inr ⟨op, rfl, same, isStep⟩

end

/-- What a handler changes before the next operation: the command that runs stays the same. -/
structure Kept (env env' : Env) : Prop where
  appStatus : env'.appStatus = env.appStatus
  cmd : env'.cmd = env.cmd
  opCb : env'.opCb = env.opCb
  opMask : env.opMask = 0 → env'.opMask = 0

theorem Kept.refl (env : Env) : Kept env env := ⟨rfl, rfl, rfl, id⟩

section

variable {env : Env} (kept : Kept env env')
include kept

theorem Kept.clear (bits : UInt32) : Kept env (env'.clear bits) :=
  ⟨kept.appStatus, kept.cmd, kept.opCb, fun empty => by
    simp only [Env.clear, kept.opMask empty, UInt32.zero_and]⟩

theorem Kept.setActv (idx : UInt8) (status : ActvState) : Kept env (env'.setActv idx status) :=
  ⟨kept.appStatus, kept.cmd, kept.opCb, kept.opMask⟩

theorem Kept.setConn (slot : ℕ) (change : Conn → Conn) : Kept env (env'.setConn slot change) :=
  ⟨kept.appStatus, kept.cmd, kept.opCb, kept.opMask⟩

end

/-- A handler calls the next operation, or has no effect beside its changes. -/
inductive Passes (config : Config) (env : Env) (idx : UInt8) (status : BleErr) (alloc : Bool) :
    Env × List Effect → Prop
  | silent {env' : Env} (kept : Kept env env') : Passes config env idx status alloc (env', [])
  | next {env' : Env} (kept : Kept env env') :
      Passes config env idx status alloc (appBleNextOperation config env' idx status alloc)

section Handlers

variable {env : Env} {alloc : Bool}

theorem actvCompleted_passes {env' : Env} (kept : Kept env env') (status : BleErr) :
    Passes config env env.idx status alloc (actvCompleted config env env' status alloc) := by
  unfold actvCompleted
  split_ifs
  · exact .silent (.refl env)
  · exact .next kept

variable (conidx : UInt8) (ok : Bool)

theorem initingCompleted_passes (change : Conn → Conn) (cmd : BleCmd) (status : BleErr) :
    Passes config env env.idx status alloc
      (initingCompleted config env conidx change cmd status alloc) := by
  simp only [initingCompleted]
  split_ifs
  · exact .next (((Kept.refl env).setConn ..).clear 1)
  · exact .silent ((Kept.refl env).setConn ..)

theorem actvStarted_kept (env : Env) : Kept env (actvStarted env) := by
  unfold actvStarted
  split_ifs
  · exact ((Kept.refl env).setActv ..).clear 2
  · exact ((Kept.refl env).setActv ..).clear 8
  · exact .refl env

theorem gapmCmpEvtHandler_passes (operation : GapmOperation) (conidx : UInt8) (ok : Bool) :
    Passes config env env.idx (errOf ok) alloc
      (gapmCmpEvtHandler config env operation conidx ok alloc) := by
  have refl := Kept.refl env
  unfold gapmCmpEvtHandler
  by_cases initing : initingCheckIndex config conidx
  · cases operation with
    | createInit | start | stop =>
        simp only [if_pos initing]
        exact initingCompleted_passes ..
    | delete => exact actvCompleted_passes ((refl.setActv ..).clear _) _
    | _ => exact actvCompleted_passes (refl.clear _) _
  · cases operation with
    | createInit =>
        simp only [if_neg initing]
        exact .silent refl
    | start =>
        simp only [if_neg initing]
        refine actvCompleted_passes ?_ _
        split_ifs
        · exact actvStarted_kept env
        · exact refl
    | stop =>
        simp only [if_neg initing]
        exact actvCompleted_passes (refl.clear _) _
    | delete => exact actvCompleted_passes ((refl.setActv ..).clear _) _
    | _ => exact actvCompleted_passes (refl.clear _) _

theorem connCompleted_passes (bits : UInt32) (status : BleErr) :
    Passes config env env.idx status alloc (connCompleted config env bits status alloc) := by
  unfold connCompleted
  split_ifs
  · exact .silent (.refl env)
  · exact .next ((Kept.refl env).setConn ..)

theorem paramsUpdated_passes :
    Passes config env env.idx (errOf ok) alloc (paramsUpdated config env ok alloc) := by
  unfold paramsUpdated
  split_ifs
  · exact connCompleted_passes ..
  · exact .silent (.refl env)

theorem charCompleted_passes (cmd : BleCmd) (bits : UInt32) (ok : Bool) :
    Passes config env env.idx (errOf ok) alloc
      (charCompleted config env cmd bits ok alloc) := by
  unfold charCompleted
  split_ifs
  · exact .next ((Kept.refl env).clear bits)
  · exact .silent (.refl env)

theorem appInitInitEventHandler_passes :
    Passes config env env.idx .success alloc (appInitInitEventHandler config env conidx alloc) := by
  unfold appInitInitEventHandler
  split_ifs
  · exact initingCompleted_passes ..
  · exact .silent (.refl env)

theorem foreign_passes (completion : Foreign) (ok : Bool) :
    Passes config env env.idx (errOf ok) alloc (foreign config env ok alloc completion) := by
  cases completion with
  | notified => exact .next (.refl env)
  | disconnected | mtuExchanged => exact connCompleted_passes ..
  | paramsUpdated => exact paramsUpdated_passes ok
  | initingStopped conidx =>
      simp only [foreign]
      split_ifs
      · exact gapmCmpEvtHandler_passes .stop conidx ok
      · exact .silent (.refl env)

/-- The status that an answer stands for. -/
def answerStatus : Op → Answer → BleErr
  | .initEvent _, _ => .success
  | _, .completed ok => errOf ok
  | _, .unknownHandle => .attcWriteUnregister
  | _, .knownHandle _ => .attcWrite

/-- The messages of the profile task. -/
def IsProfile : Op → Prop
  | .read | .write | .writeNoResponse => True
  | _ => False

theorem completed_passes {op : Op} (notProfile : ¬IsProfile op) :
    Passes config env env.idx (answerStatus op (.completed ok)) alloc
      (answered.completed config env alloc ok op) := by
  cases op with
  | createInit conIdx => exact gapmCmpEvtHandler_passes .createInit _ ok
  | startInit conIdx => exact gapmCmpEvtHandler_passes .start _ ok
  | stopInit conIdx => exact gapmCmpEvtHandler_passes .stop _ ok
  | initEvent conIdx => exact appInitInitEventHandler_passes _
  | updateParams => exact paramsUpdated_passes ok
  | disconnect | mtuExch => exact connCompleted_passes ..
  | readInfo | writeInfo => exact .silent (.refl env)
  | read | write | writeNoResponse => exact absurd trivial notProfile
  | createAdv => exact gapmCmpEvtHandler_passes .createAdv 0 ok
  | createScan => exact gapmCmpEvtHandler_passes .createScan 0 ok
  | setAdvData => exact gapmCmpEvtHandler_passes .setAdvData 0 ok
  | setScanRspData => exact gapmCmpEvtHandler_passes .setScanRspData 0 ok
  | start => exact gapmCmpEvtHandler_passes .start 0 ok
  | stop => exact gapmCmpEvtHandler_passes .stop 0 ok
  | delete => exact gapmCmpEvtHandler_passes .delete 0 ok

theorem sdpTaskGattcCmpEvtHandler_cases {status : BleErr} {completed : Env × List Effect}
    (passes : Passes config env env.idx status alloc completed) :
    Passes config env env.idx status alloc (sdpTaskGattcCmpEvtHandler env alloc completed) ∨
      sdpTaskGattcCmpEvtHandler env alloc completed = (env, [.fault]) := by
  unfold sdpTaskGattcCmpEvtHandler
  split_ifs
  · exact .inl passes
  · exact .inr rfl

/-- An answer passes to the next operation, or is the business of the profile task. -/
theorem answered_cases (config : Config) (env : Env) (answer : Answer) (alloc : Bool) (op : Op) :
    (∃ idx, (idx = env.idx ∨ op = .writeInfo idx) ∧
      Passes config env idx (answerStatus op answer) alloc (answered config env answer alloc op)) ∨
    (answered config env answer alloc op).1 = env ∧
      ((answered config env answer alloc op).2 = [.fault] ∨
        ∃ op', (answered config env answer alloc op).2 = [.sent op'] ∧ IsProfile op') := by
  have profile {op : Op} (isProfile : IsProfile op) :
      unchecked op alloc = [.fault] ∨ ∃ op', unchecked op alloc = [.sent op'] ∧ IsProfile op' := by
    unfold unchecked
    split_ifs
    · exact .inr ⟨op, rfl, isProfile⟩
    · exact .inl rfl
  cases op with
  | readInfo conIdx =>
      cases answer with
      | completed ok | unknownHandle => exact .inl ⟨env.idx, .inl rfl, .silent (.refl env)⟩
      | knownHandle prop => exact .inr ⟨rfl, profile trivial⟩
  | writeInfo conIdx =>
      cases answer with
      | completed ok => exact .inl ⟨env.idx, .inl rfl, .silent (.refl env)⟩
      | unknownHandle => exact .inl ⟨conIdx, .inr rfl, .next (.refl env)⟩
      | knownHandle prop =>
          cases prop with
          | writeNoResponse | write => exact .inr ⟨rfl, profile trivial⟩
          | neither => exact .inl ⟨conIdx, .inr rfl, .next (.refl env)⟩
  | read | write | writeNoResponse =>
      cases answer with
      | completed ok =>
          refine (sdpTaskGattcCmpEvtHandler_cases ?_).imp
            (fun passes => ⟨env.idx, .inl rfl, passes⟩) fun faults => ?_
          · first | exact charCompleted_passes .. | exact .silent (.refl env)
          · exact ⟨congrArg Prod.fst faults, .inl (congrArg Prod.snd faults)⟩
      | _ => exact .inl ⟨env.idx, .inl rfl, .silent (.refl env)⟩
  | _ =>
      refine .inl ⟨env.idx, .inl rfl, ?_⟩
      cases answer with
      | completed ok => exact completed_passes ok id
      | _ => exact .silent (.refl env)

end Handlers

/-- What a call does: it is refused or fails, or starts a command by one message. -/
inductive CallOutcome (cmd : BleCmd) (env : Env) (idx : UInt8) (callback : Option Call) :
    BleErr × Env × List Effect → Prop
  | refused {err : BleErr} (error : err ≠ .success) :
      CallOutcome cmd env idx callback (err, env, [])
  | failed {err : BleErr} {env' : Env} (error : err ≠ .success) (ready : env.Ready) :
      CallOutcome cmd env idx callback (err, appBleReset env', [])
  | accepted {env' : Env} {effects : List Effect} (ready : env.Ready) (running : env'.Running)
      (idx_eq : env'.idx = idx) (cmd_eq : env'.cmd = cmd) (opCb_eq : env'.opCb = callback)
      (effects_eq : effects = [.fault] ∨
        ∃ op, effects = [.sent op] ∧ ∀ conIdx, op = .writeInfo conIdx → conIdx = idx) :
      CallOutcome cmd env idx callback (.success, env', effects)

section Calls

variable {env : Env} {idx : UInt8} {callback : Option Call}

/-- The first message of a command. -/
def FirstMessage (idx : UInt8) (result : BleErr × List Effect) : Prop :=
  if result.1 = .success then
    idx.toNat < 64 ∧
      ∃ op, result.2 = [.sent op] ∧ ∀ conIdx, op = .writeInfo conIdx → conIdx = idx
  else result.2 = []

variable {opMask : UInt32} {first : Env → BleErr × List Effect}

theorem bkBleCmd_outcome {cmd : BleCmd} (sends : ∀ env, FirstMessage idx (first env)) :
    CallOutcome cmd env idx callback (bkBleCmd env idx cmd opMask callback first) := by
  unfold bkBleCmd
  split_ifs with ready
  · have message := sends (appBleRun env idx cmd opMask callback)
    revert message
    dsimp only
    generalize first (appBleRun env idx cmd opMask callback) = result
    obtain ⟨err, effects⟩ := result
    intro message
    by_cases success : err = .success
    · subst success
      obtain ⟨idx_lt, sent⟩ := (if_pos rfl).mp message
      exact .accepted ready (appBleRun_running ..) (appBleRun_idx env idx_lt ..) rfl rfl
        (.inr sent)
    · obtain rfl : effects = [] := by simpa [FirstMessage, success] using message
      rw [if_neg success]
      exact .failed success ready
  · exact .refused (by simp)

theorem bkBleActvCmd_outcome {cmd : BleCmd} (sends : ∀ env, FirstMessage idx (first env)) :
    CallOutcome cmd env idx callback (bkBleActvCmd config env idx cmd opMask callback first) := by
  unfold bkBleActvCmd
  split_ifs
  · exact .refused (by simp)
  · exact bkBleCmd_outcome sends

theorem appBleActvCmd_firstMessage (env : Env) (allowed : List ActvState) {op : Op}
    (noWrite : ∀ conIdx, op ≠ .writeInfo conIdx) (alloc : Bool) :
    FirstMessage idx (appBleActvCmd config env idx allowed op alloc) := by
  have small := config.activity_lt
  unfold appBleActvCmd FirstMessage
  split_ifs with outside
  all_goals simp_all
  omega

theorem connMessage_firstMessage (conns : ℕ → Conn) (kernelIdx : UInt8) {op : UInt8 → Op}
    (noWrite : ∀ kernelIdx conIdx, op kernelIdx ≠ .writeInfo conIdx) (alloc : Bool) :
    FirstMessage idx
      (connMessage (BleConnections.appBleConnCmd config conns idx kernelIdx alloc) op) := by
  have fewer := config.connection_lt
  have small := config.activity_lt
  unfold BleConnections.appBleConnCmd connMessage FirstMessage
  split_ifs with outside
  all_goals simp_all
  omega

/-- The first message of a command for an initiated connection, which may be unchecked. -/
def FirstInitMessage (idx : UInt8) (env : Env) (result : Bool × Env × List Effect) : Prop :=
  Kept env result.2.1 ∧
    if result.1 then
      idx.toNat < 64 ∧ (result.2.2 = [.fault] ∨
        ∃ op, result.2.2 = [.sent op] ∧ ∀ conIdx, op = .writeInfo conIdx → conIdx = idx)
    else result.2.2 = []

theorem unchecked_cases {op : Op} (own : ∀ conIdx, op = .writeInfo conIdx → conIdx = idx)
    (alloc : Bool) :
    unchecked op alloc = [.fault] ∨
      ∃ op', unchecked op alloc = [.sent op'] ∧
        ∀ conIdx, op' = .writeInfo conIdx → conIdx = idx := by
  unfold unchecked
  split_ifs
  · exact .inr ⟨op, rfl, own⟩
  · exact .inl rfl

theorem idx_lt_of_connection (inside : ¬config.connectionMax ≤ idx.toNat) : idx.toNat < 64 := by
  have fewer := config.connection_lt
  have small := config.activity_lt
  omega

theorem bkBleInitCmd_outcome {cmd : BleCmd} {first : Env → Bool × Env × List Effect}
    (sends : ∀ env, FirstInitMessage idx env (first env)) :
    CallOutcome cmd env idx callback (bkBleInitCmd env idx cmd opMask callback first) := by
  unfold bkBleInitCmd
  split_ifs with ready
  · obtain ⟨kept, message⟩ := sends (appBleRun env idx cmd opMask callback)
    revert kept message
    dsimp only
    generalize first (appBleRun env idx cmd opMask callback) = result
    obtain ⟨ok, env', effects⟩ := result
    intro kept message
    cases ok with
    | true =>
        obtain ⟨idx_lt, sent⟩ := message
        refine .accepted ready ?_ ?_ kept.cmd kept.opCb sent
        · exact (running_congr kept.appStatus).mpr (appBleRun_running ..)
        · exact (idx_congr kept.appStatus).trans (appBleRun_idx env idx_lt ..)
    | false =>
        obtain rfl : effects = [] := message
        exact .failed (by simp) ready
  · exact .refused (by simp)

theorem FirstInitMessage.refused (env : Env) : FirstInitMessage idx env (false, env, []) :=
  ⟨.refl env, rfl⟩

theorem FirstInitMessage.sent {env env' : Env} (kept : Kept env env')
    (inside : ¬config.connectionMax ≤ idx.toNat) {op : Op}
    (own : ∀ conIdx, op = .writeInfo conIdx → conIdx = idx) (alloc : Bool) :
    FirstInitMessage idx env (true, env', unchecked op alloc) :=
  ⟨kept, idx_lt_of_connection inside, unchecked_cases own alloc⟩

theorem appmCreateIniting_firstMessage (env : Env) (param : ConnParam) (reused alloc : Bool) :
    FirstInitMessage idx env
      (let created := appmCreateIniting config env idx param reused alloc
      ((created.1 = .success : Bool), created.2)) := by
  have own : ∀ conIdx, (if reused then Op.initEvent idx else .createInit idx) = .writeInfo conIdx →
      conIdx = idx := by
    cases reused <;> simp
  unfold appmCreateIniting
  by_cases outside : config.connectionMax ≤ idx.toNat
  · simp only [if_pos outside]
    exact .refused env
  by_cases here : (env.connections idx.toNat).initState = .idle
  · simp only [if_neg outside, if_pos here]
    exact .sent ((Kept.refl env).setConn ..) outside own alloc
  · simp only [if_neg outside, if_neg here]
    exact .refused env

theorem appmConnecting_firstMessage (env : Env) (expected next : InitState) (mask : UInt32)
    {op : Op} (noWrite : ∀ conIdx, op ≠ .writeInfo conIdx) (alloc : Bool) :
    FirstInitMessage idx env
      (let connecting := appmConnecting config env idx expected next mask op alloc
      ((connecting.1 = .success : Bool), connecting.2)) := by
  have own : ∀ conIdx, op = .writeInfo conIdx → conIdx = idx := fun conIdx write =>
    absurd write (noWrite conIdx)
  unfold appmConnecting
  by_cases outside : config.connectionMax ≤ idx.toNat
  · simp only [if_pos outside]
    exact .refused env
  by_cases here : (env.connections idx.toNat).initState = expected
  · simp only [if_neg outside, if_pos here]
    exact .sent ((Kept.refl env).setConn ..) outside own alloc
  · simp only [if_neg outside, if_neg here]
    exact .refused env

theorem appmServiceReq_firstMessage (env : Env) (known : Bool) {op : Op}
    (own : ∀ conIdx, op = .writeInfo conIdx → conIdx = idx) (alloc : Bool) :
    FirstInitMessage idx env
      (let asked := appmServiceReq config idx known op alloc
      (asked.1, env, asked.2)) := by
  unfold appmServiceReq
  split_ifs with outside
  · exact .refused env
  · exact .sent (.refl env) outside own alloc
  · exact .refused env

theorem actvCall_outcome (function : ActvApi) (alloc : Bool) :
    CallOutcome (actvCmd function) env idx callback
      (function.call config env idx callback alloc) := by
  have sends (allowed : List ActvState) {op : Env → Op}
      (noWrite : ∀ env conIdx, op env ≠ .writeInfo conIdx) (env : Env) :
      FirstMessage idx (appBleActvCmd config env idx allowed (op env) alloc) :=
    appBleActvCmd_firstMessage env allowed (noWrite env) alloc
  unfold ActvApi.call
  cases function with
  | advStart | advStop | scanStart | scanStop =>
      exact bkBleActvCmd_outcome (sends _ (by simp))
  | setAdvData advLen =>
      simp only [bkBleSetAdvData]
      split_ifs
      · exact .refused (by simp)
      · exact bkBleCmd_outcome (sends _ (by simp))
  | setScanRspData scanLen =>
      simp only [bkBleSetScanRspData]
      split_ifs
      · exact .refused (by simp)
      · exact bkBleCmd_outcome (sends _ (by simp))
  | _ => exact bkBleCmd_outcome (sends _ (by simp))

theorem call_outcome (function : Api) (alloc : Bool) :
    CallOutcome function.cmd env idx callback (function.call config env idx callback alloc) := by
  unfold Api.call
  cases function with
  | actv function => exact actvCall_outcome function alloc
  | updateParam | disconnect | gattMtuChange =>
      exact bkBleCmd_outcome fun env => connMessage_firstMessage _ _ (by simp) alloc
  | createInit param reused =>
      exact bkBleInitCmd_outcome fun env => appmCreateIniting_firstMessage env param reused alloc
  | initStartConn | initStopConn =>
      exact bkBleInitCmd_outcome fun env => appmConnecting_firstMessage env _ _ _ (by simp) alloc
  | readServiceDataByHandleReq known | writeServiceDataReq known =>
      exact bkBleInitCmd_outcome fun env => appmServiceReq_firstMessage env known (by simp) alloc

end Calls

/-! ## The connection table of the application -/

section Table

variable {config : Config} {table : BleConnections.Env} {env : Env}

/-- The table is that of the application, and a command runs unless the application is ready. -/
structure Projects (table : BleConnections.Env) (env : Env) : Prop where
  connections_eq : table.connections = env.connections
  running_iff : table.running = true ↔ ¬env.Ready

/-- A function on the table does to it what a function of the application does, with the same
success. -/
structure SameCall (table : BleErr × BleConnections.Env) (running : Bool) (env : Bool × Env)
    (appStatus : UInt8) : Prop where
  success : table.1 = .success ↔ env.1 = true
  connections_eq : table.2.connections = env.2.connections
  running_eq : table.2.running = running
  appStatus_eq : env.2.appStatus = appStatus

theorem appmCreateIniting_same (same : table.connections = env.connections) (conIdx : UInt8)
    (param : ConnParam) (reused : Bool) :
    let made := appmCreateIniting config env conIdx param reused true
    SameCall (BleConnections.appmCreateIniting config table conIdx param reused) table.running
      (made.1 = .success, made.2.1) env.appStatus := by
  simp only [BleConnections.appmCreateIniting, appmCreateIniting, same]
  split_ifs <;> refine ⟨by simp, ?_, rfl, rfl⟩ <;>
    simp_all [BleConnections.Env.note, BleConnections.Env.set, Env.setConn]

theorem appmConnecting_same (same : table.connections = env.connections) (conIdx : UInt8)
    (expected next : InitState) (mask : UInt32) (op : Op) (alloc : Bool) :
    let made := appmConnecting config env conIdx expected next mask op alloc
    SameCall (BleConnections.appmConnecting config table conIdx expected next mask) table.running
      (made.1 = .success, made.2.1) env.appStatus := by
  simp only [BleConnections.appmConnecting, appmConnecting, same]
  split_ifs <;> refine ⟨by simp, ?_, rfl, rfl⟩ <;>
    simp_all [BleConnections.Env.note, BleConnections.Env.set, Env.setConn]

theorem Projects.initCmd (projects : Projects table env)
    {call : BleConnections.Env → BleErr × BleConnections.Env}
    {first : Env → Bool × Env × List Effect}
    (same : ∀ table env, table.connections = env.connections →
      SameCall (call table) table.running ((first env).1, (first env).2.1) env.appStatus)
    (idx : UInt8) (cmd : BleCmd) (opMask : UInt32) (callback : Option Call) :
    Projects (BleConnections.bkBleRun table call)
      (bkBleInitCmd env idx cmd opMask callback first).2.1 := by
  rw [BleConnections.bkBleRun, bkBleInitCmd]
  by_cases ready : env.Ready
  · have idle : ¬table.running = true := fun running => projects.running_iff.mp running ready
    rw [if_neg idle, if_pos ready]
    obtain ⟨success, connections_eq, running_eq, appStatus_eq⟩ :=
      same { table with running := true } (appBleRun env idx cmd opMask callback)
        projects.connections_eq
    dsimp only at success connections_eq running_eq appStatus_eq ⊢
    by_cases sent : (first (appBleRun env idx cmd opMask callback)).1 = true
    · rw [if_neg (not_not.mpr (success.mpr sent)), if_pos sent]
      refine ⟨connections_eq, iff_of_true running_eq ?_⟩
      rw [ready_congr appStatus_eq]
      exact (appBleRun_running env idx cmd opMask callback).not_ready
    · rw [if_pos (mt success.mp sent), if_neg sent]
      exact ⟨connections_eq, iff_of_false Bool.false_ne_true (not_not.mpr (appBleReset_ready _))⟩
  · have busy : table.running = true := projects.running_iff.mpr ready
    rw [if_pos busy, if_neg ready]
    exact projects

/-- The calls that initiate connections do to the table what its own model says. -/
theorem Projects.step (projects : Projects table env) (idx : UInt8) (callback : Option Call)
    (param : ConnParam) (reused alloc : Bool) :
    Projects (BleConnections.step config table (.createInit idx param reused))
        (bkBleCreateInit config env idx callback true param reused).2.1 ∧
      Projects (BleConnections.step config table (.initStartConn idx))
        (bkBleInitStartConn config env idx callback alloc).2.1 ∧
      Projects (BleConnections.step config table (.initStopConn idx))
        (bkBleInitStopConn config env idx callback alloc).2.1 := by
  simp only [BleConnections.step, bkBleCreateInit, bkBleInitStartConn, bkBleInitStopConn]
  refine ⟨?_, ?_, ?_⟩
  · refine projects.initCmd (fun _ _ same => ?_) idx .initCreate 1 callback
    exact appmCreateIniting_same same idx param reused
  · refine projects.initCmd (fun _ _ same => ?_) idx .initStartConn 2 callback
    exact appmConnecting_same same idx _ _ _ _ alloc
  · refine projects.initCmd (fun _ _ same => ?_) idx .initStopConn 4 callback
    exact appmConnecting_same same idx _ _ _ _ alloc

end Table

end BdkFreertos.BleCommands
