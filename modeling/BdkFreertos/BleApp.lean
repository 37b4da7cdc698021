import BdkFreertos.BleConnections

/-!
# The commands of the BLE application

Every command of the application sends one message after another to the stack.  One status byte,
one mask of operations and one callback serve all commands, and the handlers of the stack's
completion events advance whatever command runs.
-/

namespace BdkFreertos.BleApp

open BleConnections

/-- `ble_cmd_t`. -/
inductive BleCmd
  | createAdv
  | setAdvData
  | setRspData
  | startAdv
  | stopAdv
  | deleteAdv
  | initAdv
  | deinitAdv
  | createScan
  | startScan
  | stopScan
  | deleteScan
  | initScan
  | deinitScan
  | connUpdateMtu
  | connUpdateParam
  | connDisConn
  | initCreate
  | initStartConn
  | initStopConn
  | initDisConn
  | initReadChar
  | initWriteChar
  deriving DecidableEq

/-- `actv_state_t`. -/
inductive ActvState
  | idle
  | advCreated
  | advStarted
  | scanCreated
  | scanStarted
  | initCreated
  | perSyncCreated
  deriving DecidableEq

/-- `struct actv_info`. -/
structure Actv where
  actvStatus : ActvState
  gapAdvtIdx : UInt8

/-- A call of one of the `bk_ble_` functions. -/
structure Call where
  number : ℕ
  cmd : BleCmd
  idx : UInt8
  deriving DecidableEq

/-- A message to the stack, or to a task of the application. -/
inductive Op
  | createAdv
  | createScan
  | setAdvData (gapIdx : UInt8)
  | setScanRspData (gapIdx : UInt8)
  | start (gapIdx : UInt8)
  | stop (gapIdx : UInt8)
  | delete (gapIdx : UInt8)
  | createInit (slot : UInt8)
  | startInit (slot : UInt8)
  | stopInit (slot : UInt8)
  /-- `APP_INIT_INIT_EVENT`, by which the application answers itself. -/
  | initEvent (slot : UInt8)
  | updateParams (kernelIdx : UInt8)
  | disconnect (kernelIdx : UInt8)
  | mtuExch (kernelIdx : UInt8)
  /-- `SDP_READ_INFO_REQ` and `SDP_WRITE_VALUE_INFO_REQ`, to the profile task. -/
  | readInfo (slot : UInt8)
  | writeInfo (slot : UInt8)
  /-- The commands of the profile task. -/
  | read
  | write
  | writeNoResponse
  deriving DecidableEq

/-- What a function does beside its result. -/
inductive Effect
  | sent (op : Op)
  /-- The callback of a call is invoked with a command, an index and a status. -/
  | callback (call : Call) (cmd : BleCmd) (cmdIdx : UInt8) (status : BleErr)
  /-- A message that could not be allocated is written to. -/
  | fault
  deriving DecidableEq

/-- `struct app_env_tag`. -/
structure Env where
  appStatus : UInt8
  cmd : BleCmd
  opMask : UInt32
  /-- The call whose callback it is. -/
  opCb : Option Call
  actvs : ℕ → Actv
  connections : ℕ → Conn

/-- When the stack is ready for the first command. -/
def Env.init : Env where
  appStatus := 1
  cmd := .createAdv
  opMask := 0
  opCb := none
  actvs _ := ⟨.idle, 0⟩
  connections := BleConnections.Env.init.connections

/-- `app_ble_env_state_get() == APP_BLE_READY`. -/
def Env.Ready (env : Env) : Prop := env.appStatus &&& 3 = 1

/-- `app_ble_env_state_get() == APP_BLE_CMD_RUNNING`. -/
def Env.Running (env : Env) : Prop := env.appStatus &&& 3 = 2

instance (env : Env) : Decidable env.Ready := inferInstanceAs (Decidable (_ = _))

instance (env : Env) : Decidable env.Running := inferInstanceAs (Decidable (_ = _))

/-- `app_ble_env.app_status >> BLE_APP_IDX_POS`. -/
def Env.idx (env : Env) : UInt8 := env.appStatus >>> 2

/-- Set the status of an activity. -/
def Env.setActv (env : Env) (idx : UInt8) (status : ActvState) : Env :=
  { env with
    actvs := Function.update env.actvs idx.toNat
      { env.actvs idx.toNat with actvStatus := status } }

def Env.clear (env : Env) (bits : UInt32) : Env :=
  { env with opMask := env.opMask &&& ~~~bits }

/-- Change a slot of the connection table. -/
def Env.setConn (env : Env) (slot : ℕ) (change : Conn → Conn) : Env :=
  { env with
    connections := Function.update env.connections slot (change (env.connections slot)) }

def clearConn (bits : UInt32) (conn : Conn) : Conn :=
  { conn with connOpMask := conn.connOpMask &&& ~~~bits }

/-- `app_ble_run`. -/
def appBleRun (env : Env) (idx : UInt8) (cmd : BleCmd) (opMask : UInt32)
    (callback : Option Call) : Env :=
  { env with
    opMask := opMask
    opCb := callback
    cmd := cmd
    appStatus := (idx <<< 2) ||| 2 }

/-- `app_ble_reset`. -/
def appBleReset (env : Env) : Env :=
  { env with opMask := 0, opCb := none, appStatus := 1 }

variable (config : Config)

/-- What the functions that send a command for an activity have in common: the index and the status
of the activity are checked and a message is allocated. -/
def appBleActvCmd (env : Env) (idx : UInt8) (allowed : List ActvState) (op : Op) (alloc : Bool) :
    BleErr × List Effect :=
  if config.activityMax ≤ idx.toNat then (.unknowIdx, [])
  else if (env.actvs idx.toNat).actvStatus ∈ allowed then
    if alloc then (.success, [.sent op]) else (.noMem, [])
  else (.bleStatus, [])

def Env.gapIdx (env : Env) (idx : UInt8) : UInt8 := (env.actvs idx.toNat).gapAdvtIdx

/-- `app_ble_create_advertising`. -/
def appBleCreateAdvertising (env : Env) (idx : UInt8) (alloc : Bool) : BleErr × List Effect :=
  appBleActvCmd config env idx [.idle] .createAdv alloc

/-- `app_ble_start_advertising`. -/
def appBleStartAdvertising (env : Env) (idx : UInt8) (alloc : Bool) : BleErr × List Effect :=
  appBleActvCmd config env idx [.advCreated] (.start (env.gapIdx idx)) alloc

/-- `app_ble_stop_advertising`. -/
def appBleStopAdvertising (env : Env) (idx : UInt8) (alloc : Bool) : BleErr × List Effect :=
  appBleActvCmd config env idx [.advStarted] (.stop (env.gapIdx idx)) alloc

/-- `app_ble_delete_advertising`. -/
def appBleDeleteAdvertising (env : Env) (idx : UInt8) (alloc : Bool) : BleErr × List Effect :=
  appBleActvCmd config env idx [.advCreated] (.delete (env.gapIdx idx)) alloc

/-- `app_ble_set_adv_data`. -/
def appBleSetAdvData (env : Env) (idx : UInt8) (alloc : Bool) : BleErr × List Effect :=
  appBleActvCmd config env idx [.advCreated, .advStarted] (.setAdvData (env.gapIdx idx)) alloc

/-- `app_ble_set_scan_rsp_data`. -/
def appBleSetScanRspData (env : Env) (idx : UInt8) (alloc : Bool) : BleErr × List Effect :=
  appBleActvCmd config env idx [.advCreated, .advStarted] (.setScanRspData (env.gapIdx idx)) alloc

/-- `app_ble_create_scaning`. -/
def appBleCreateScaning (env : Env) (idx : UInt8) (alloc : Bool) : BleErr × List Effect :=
  appBleActvCmd config env idx [.idle] .createScan alloc

/-- `app_ble_start_scaning`. -/
def appBleStartScaning (env : Env) (idx : UInt8) (alloc : Bool) : BleErr × List Effect :=
  appBleActvCmd config env idx [.scanCreated] (.start (env.gapIdx idx)) alloc

/-- `app_ble_stop_scaning`. -/
def appBleStopScaning (env : Env) (idx : UInt8) (alloc : Bool) : BleErr × List Effect :=
  appBleActvCmd config env idx [.scanStarted] (.stop (env.gapIdx idx)) alloc

/-- `app_ble_delete_scaning`. -/
def appBleDeleteScaning (env : Env) (idx : UInt8) (alloc : Bool) : BleErr × List Effect :=
  appBleActvCmd config env idx [.scanCreated] (.delete (env.gapIdx idx)) alloc

def opIdx (opMask : UInt32) : ℕ :=
  ((List.range 32).find? fun idx => (opMask >>> UInt32.ofNat idx) &&& 1 ≠ 0).getD 32

def callback (opCb : Option Call) (cmd : BleCmd) (idx : UInt8) (status : BleErr) : List Effect :=
  opCb.toList.map fun call => .callback call cmd idx status

/-- The end of a command in `app_ble_next_operation`. -/
def finish (env : Env) (idx : UInt8) (status : BleErr) : Env × List Effect :=
  (appBleReset env, callback env.opCb env.cmd idx status)

/-- `BLE_INIT_ADV` and `BLE_INIT_SCAN` in `app_ble_next_operation`: the next step, or the end of the
command with a clean-up after an error. -/
def initOperation (env : Env) (idx : UInt8) (status : BleErr) (step : ℕ → BleErr × List Effect)
    (created : ActvState) (delete : BleErr × List Effect) : Env × List Effect :=
  if env.opMask ≠ 0 ∧ status = .success then (env, (step (opIdx env.opMask)).2)
  else
    let ended := if env.opCb = none then env else { env with opMask := 0, opCb := none }
    let called := callback env.opCb env.cmd idx status
    if status ≠ .success then
      if (env.actvs idx.toNat).actvStatus = created then (ended, called ++ delete.2)
      else (appBleReset ended, called)
    else (appBleReset ended, called)

/-- `BLE_DEINIT_ADV` and `BLE_DEINIT_SCAN` in `app_ble_next_operation`. -/
def deinitOperation (env : Env) (idx : UInt8) (status : BleErr) (delPos : ℕ)
    (delete : BleErr × List Effect) : Env × List Effect :=
  if env.opMask ≠ 0 then (env, if opIdx env.opMask = delPos then delete.2 else [])
  else finish env idx status

/-- The steps of `BLE_INIT_ADV` in `app_ble_next_operation`. -/
def initAdvStep (env : Env) (idx : UInt8) (alloc : Bool) : ℕ → BleErr × List Effect
  | 1 => appBleSetAdvData config env idx alloc
  | 2 => appBleSetScanRspData config env idx alloc
  | 3 => appBleStartAdvertising config env idx alloc
  | _ => (.success, [])

/-- The step of `BLE_INIT_SCAN` in `app_ble_next_operation`. -/
def initScanStep (env : Env) (idx : UInt8) (alloc : Bool) : ℕ → BleErr × List Effect
  | 1 => appBleStartScaning config env idx alloc
  | _ => (.success, [])

/-- `app_ble_next_operation`. -/
def appBleNextOperation (env : Env) (idx : UInt8) (status : BleErr) (alloc : Bool) :
    Env × List Effect :=
  match env.cmd with
  | .initAdv =>
      initOperation env idx status (initAdvStep config env idx alloc) .advCreated
        (appBleDeleteAdvertising config env idx alloc)
  | .deinitAdv =>
      deinitOperation env idx status 5 (appBleDeleteAdvertising config env idx alloc)
  | .initScan =>
      initOperation env idx status (initScanStep config env idx alloc) .scanCreated
        (appBleDeleteScaning config env idx alloc)
  | .deinitScan =>
      deinitOperation env idx status 3 (appBleDeleteScaning config env idx alloc)
  | .initDisConn => (env, [])
  | _ => finish env idx status

/-- The operations that `gapm_cmp_evt_handler` advances a command for. -/
inductive GapmOperation
  | createInit
  | createScan
  | createAdv
  | setAdvData
  | setScanRspData
  | start
  | stop
  | delete
  deriving DecidableEq

def errOf (ok : Bool) : BleErr := if ok then .success else .cmdRun

/-- A completion for an initiating activity: the slot is changed, and the command is advanced if it
is the one for the operation. -/
def initingCompleted (env : Env) (conidx : UInt8) (change : Conn → Conn) (cmd : BleCmd)
    (status : BleErr) (alloc : Bool) : Env × List Effect :=
  let env' := env.setConn (initingGetIndex config conidx) change
  if env.cmd = cmd then appBleNextOperation config (env'.clear 1) env.idx status alloc
  else (env', [])

/-- A completion for an activity. -/
def actvCompleted (env env' : Env) (status : BleErr) (alloc : Bool) : Env × List Effect :=
  if config.activityMax ≤ env.idx.toNat then (env, [])
  else appBleNextOperation config env' env.idx status alloc

/-- The status of an activity that has been started, by the mask. -/
def actvStarted (env : Env) : Env :=
  if env.opMask &&& 2 ≠ 0 then (env.setActv env.idx .scanStarted).clear 2
  else if env.opMask &&& 8 ≠ 0 then (env.setActv env.idx .advStarted).clear 8
  else env

/-- `gapm_cmp_evt_handler` from `GAPM_CREATE_INIT_ACTIVITY` on. -/
def gapmCmpEvtHandler (env : Env) (operation : GapmOperation) (conidx : UInt8) (ok alloc : Bool) :
    Env × List Effect :=
  let status := errOf ok
  match operation with
  | .createInit =>
      if initingCheckIndex config conidx then
        initingCompleted config env conidx
          (fun conn => { clearConn 1 conn with initState := if ok then .created else .idle })
          .initCreate status alloc
      else (env, [])
  | .createScan => actvCompleted config env (env.clear 1) status alloc
  | .createAdv => actvCompleted config env (env.clear 1) status alloc
  | .setAdvData => actvCompleted config env (env.clear 2) status alloc
  | .setScanRspData => actvCompleted config env (env.clear 4) status alloc
  | .start =>
      if initingCheckIndex config conidx then
        initingCompleted config env conidx
          (fun conn => { clearConn 2 conn with initState := if ok then .conectting else .created })
          .initStartConn status alloc
      else actvCompleted config env (if ok then actvStarted env else env) status alloc
  | .stop =>
      if initingCheckIndex config conidx then
        initingCompleted config env conidx
          (fun conn =>
            if env.cmd = .initStopConn ∨ conn.connOpMask &&& 4 ≠ 0 then
              { clearConn 4 conn with initState := .created }
            else conn)
          .initStopConn status alloc
      else actvCompleted config env (env.clear (4 ||| 16)) status alloc
  | .delete =>
      actvCompleted config env ((env.setActv env.idx .idle).clear (8 ||| 32)) status alloc

/-- A completion for a connection, whose slot is that of the command that runs. -/
def connCompleted (env : Env) (bits : UInt32) (status : BleErr) (alloc : Bool) :
    Env × List Effect :=
  if config.connectionMax ≤ env.idx.toNat then (env, [])
  else
    appBleNextOperation config (env.setConn env.idx.toNat (clearConn bits)) env.idx status alloc

/-- `GAPC_UPDATE_PARAMS` in `gapc_cmp_evt_handler`. -/
def paramsUpdated (env : Env) (ok alloc : Bool) : Env × List Effect :=
  if env.appStatus &&& 2 ≠ 0 ∧ (env.connections env.idx.toNat).connOpMask &&& 1 ≠ 0 then
    connCompleted config env 1 (errOf ok) alloc
  else (env, [])

/-- `GAPC_DISCONNECT` in `gapc_cmp_evt_handler`. -/
def disconnected (env : Env) (ok alloc : Bool) : Env × List Effect :=
  connCompleted config env 1 (errOf ok) alloc

/-- `GATTC_MTU_EXCH` in `gattc_cmp_evt_handler`. -/
def mtuExchanged (env : Env) (ok alloc : Bool) : Env × List Effect :=
  connCompleted config env 2 (errOf ok) alloc

/-- `GATTC_READ` and `GATTC_WRITE` in `gattc_cmp_evt_handler`. -/
def charCompleted (env : Env) (cmd : BleCmd) (bits : UInt32) (ok alloc : Bool) :
    Env × List Effect :=
  if env.cmd = cmd then
    appBleNextOperation config (env.clear bits) env.idx (errOf ok) alloc
  else (env, [])

/-- `GATTC_INDICATE` and `GATTC_NOTIFY` in `bk_ble_gattc_cmp_evt_handler`. -/
def notified (env : Env) (ok alloc : Bool) : Env × List Effect :=
  appBleNextOperation config env env.idx (errOf ok) alloc

/-- `app_init_init_event_handler`. -/
def appInitInitEventHandler (env : Env) (conidx : UInt8) (alloc : Bool) : Env × List Effect :=
  if initingCheckIndex config conidx then
    initingCompleted config env conidx
      (fun conn => { clearConn 1 conn with initState := .created }) .initCreate .success alloc
  else (env, [])

/-- The kinds of activities in the stack's indications. -/
inductive ActvType
  | adv
  | scan
  | init
  deriving DecidableEq

/-- `gapm_activity_created_ind_handler`. -/
def gapmActivityCreatedIndHandler (env : Env) (conidx : UInt8) (actvType : ActvType)
    (gapIdx : UInt8) : Env :=
  if initingCheckIndex config conidx ∧ actvType = .init then
    env.setConn env.idx.toNat fun conn => { conn with initState := .created }
  else if config.activityMax ≤ env.idx.toNat then env
  else
    let env' :=
      { env with
        actvs := Function.update env.actvs env.idx.toNat
          { env.actvs env.idx.toNat with gapAdvtIdx := gapIdx } }
    match actvType with
    | .adv => env'.setActv env.idx .advCreated
    | .scan => env'.setActv env.idx .scanCreated
    | .init => env'

/-- `app_ble_find_actv_idx_handle`. -/
def appBleFindActvIdxHandle (env : Env) (gapIdx : UInt8) : ℕ :=
  ((List.range config.activityMax).find? fun idx => (env.actvs idx).gapAdvtIdx = gapIdx).getD
    config.activityMax

/-- `gapm_activity_stopped_ind_handler`. -/
def gapmActivityStoppedIndHandler (env : Env) (conidx : UInt8) (actvType : ActvType)
    (gapIdx : UInt8) : Env :=
  let actvIdx := appBleFindActvIdxHandle config env gapIdx
  if config.activityMax ≤ actvIdx then env
  else
    match actvType with
    | .adv => env.setActv (UInt8.ofNat actvIdx) .advCreated
    | .scan => env.setActv (UInt8.ofNat actvIdx) .scanCreated
    | .init =>
        if initingCheckIndex config conidx then
          env.setConn (initingGetIndex config conidx) fun conn =>
            { conn with initState := .created }
        else env

/-- What the `bk_ble_` functions have in common: the command runs when the application is ready, and
ends at once when its first message is not sent. -/
def bkBleCmd (env : Env) (idx : UInt8) (cmd : BleCmd) (opMask : UInt32) (callback : Option Call)
    (first : Env → BleErr × List Effect) : BleErr × Env × List Effect :=
  if env.Ready then
    let env' := appBleRun env idx cmd opMask callback
    let sent := first env'
    (sent.1, if sent.1 = .success then env' else appBleReset env', sent.2)
  else (.bleStatus, env, [])

/-- The same where the index is checked before the command runs. -/
def bkBleActvCmd (env : Env) (idx : UInt8) (cmd : BleCmd) (opMask : UInt32)
    (callback : Option Call) (first : Env → BleErr × List Effect) : BleErr × Env × List Effect :=
  if env.Ready ∧ config.activityMax ≤ idx.toNat then (.unknowIdx, env, [])
  else bkBleCmd env idx cmd opMask callback first

/-- The advertising and scan functions, those that set data with the length of the data. -/
inductive ActvApi
  | advStart
  | advStop
  | scanStart
  | scanStop
  | createAdvertising
  | startAdvertising
  | stopAdvertising
  | deleteAdvertising
  | setAdvData (advLen : UInt8)
  | setScanRspData (scanLen : UInt8)
  | createScaning
  | startScaning
  | stopScaning
  | deleteScaning

section

variable (env : Env) (idx : UInt8) (callback : Option Call) (alloc : Bool)

/-- `bk_ble_adv_start`. -/
def bkBleAdvStart : BleErr × Env × List Effect :=
  bkBleActvCmd config env idx .initAdv (1 ||| 2 ||| 4 ||| 8) callback fun env =>
    appBleCreateAdvertising config env idx alloc

def bkBleAdvStop : BleErr × Env × List Effect :=
  bkBleActvCmd config env idx .deinitAdv (16 ||| 32) callback fun env =>
    appBleStopAdvertising config env idx alloc

def bkBleScanStart : BleErr × Env × List Effect :=
  bkBleActvCmd config env idx .initScan (1 ||| 2) callback fun env =>
    appBleCreateScaning config env idx alloc

def bkBleScanStop : BleErr × Env × List Effect :=
  bkBleActvCmd config env idx .deinitScan (4 ||| 8) callback fun env =>
    appBleStopScaning config env idx alloc

def bkBleCreateAdvertising : BleErr × Env × List Effect :=
  bkBleCmd env idx .createAdv 1 callback fun env => appBleCreateAdvertising config env idx alloc

def bkBleStartAdvertising : BleErr × Env × List Effect :=
  bkBleCmd env idx .startAdv 8 callback fun env => appBleStartAdvertising config env idx alloc

def bkBleStopAdvertising : BleErr × Env × List Effect :=
  bkBleCmd env idx .stopAdv 16 callback fun env => appBleStopAdvertising config env idx alloc

def bkBleDeleteAdvertising : BleErr × Env × List Effect :=
  bkBleCmd env idx .deleteAdv 32 callback fun env => appBleDeleteAdvertising config env idx alloc

def bkBleSetAdvData (advLen : UInt8) : BleErr × Env × List Effect :=
  if 31 < advLen then (.advData, env, [])
  else bkBleCmd env idx .setAdvData 2 callback fun env => appBleSetAdvData config env idx alloc

def bkBleSetScanRspData (scanLen : UInt8) : BleErr × Env × List Effect :=
  if 31 < scanLen then (.advData, env, [])
  else bkBleCmd env idx .setRspData 4 callback fun env => appBleSetScanRspData config env idx alloc

def bkBleCreateScaning : BleErr × Env × List Effect :=
  bkBleCmd env idx .createScan 1 callback fun env => appBleCreateScaning config env idx alloc

def bkBleStartScaning : BleErr × Env × List Effect :=
  bkBleCmd env idx .startScan 2 callback fun env => appBleStartScaning config env idx alloc

def bkBleStopScaning : BleErr × Env × List Effect :=
  bkBleCmd env idx .stopScan 4 callback fun env => appBleStopScaning config env idx alloc

def bkBleDeleteScaning : BleErr × Env × List Effect :=
  bkBleCmd env idx .deleteScan 8 callback fun env => appBleDeleteScaning config env idx alloc

/-- A call of one of the advertising and scan functions. -/
def ActvApi.call : ActvApi → BleErr × Env × List Effect
  | .advStart => bkBleAdvStart config env idx callback alloc
  | .advStop => bkBleAdvStop config env idx callback alloc
  | .scanStart => bkBleScanStart config env idx callback alloc
  | .scanStop => bkBleScanStop config env idx callback alloc
  | .createAdvertising => bkBleCreateAdvertising config env idx callback alloc
  | .startAdvertising => bkBleStartAdvertising config env idx callback alloc
  | .stopAdvertising => bkBleStopAdvertising config env idx callback alloc
  | .deleteAdvertising => bkBleDeleteAdvertising config env idx callback alloc
  | .setAdvData advLen => bkBleSetAdvData config env idx callback alloc advLen
  | .setScanRspData scanLen => bkBleSetScanRspData config env idx callback alloc scanLen
  | .createScaning => bkBleCreateScaning config env idx callback alloc
  | .startScaning => bkBleStartScaning config env idx callback alloc
  | .stopScaning => bkBleStopScaning config env idx callback alloc
  | .deleteScaning => bkBleDeleteScaning config env idx callback alloc

end

/-- The messages that are sent. -/
def sentOps (effects : List Effect) : List Op :=
  effects.filterMap fun
    | .sent op => some op
    | _ => none

/-! ## What the functions do -/

variable {env' : Env} (env : Env)

theorem appBleRun_running (idx : UInt8) (cmd : BleCmd) (opMask : UInt32) (callback : Option Call) :
    (appBleRun env idx cmd opMask callback).Running := by
  have every : ∀ value < 256, ((UInt8.ofNat value <<< 2) ||| 2) &&& 3 = 2 := by decide +kernel
  have here := every idx.toNat idx.toNat_lt
  rwa [UInt8.ofNat_toNat] at here

theorem appBleRun_idx {idx : UInt8} (idx_lt : idx.toNat < 64) (cmd : BleCmd) (opMask : UInt32)
    (callback : Option Call) : (appBleRun env idx cmd opMask callback).idx = idx := by
  have every : ∀ value < 64, ((UInt8.ofNat value <<< 2) ||| 2) >>> 2 = UInt8.ofNat value := by
    decide
  have here := every idx.toNat idx_lt
  rwa [UInt8.ofNat_toNat] at here

theorem appBleReset_ready : (appBleReset env).Ready :=
  show (1 : UInt8) &&& 3 = 1 by decide

section

variable {env : Env} (same : env'.appStatus = env.appStatus)
include same

theorem running_congr : env'.Running ↔ env.Running := by
  rw [Env.Running, Env.Running, same]

theorem ready_congr : env'.Ready ↔ env.Ready := by
  rw [Env.Ready, Env.Ready, same]

theorem idx_congr : env'.idx = env.idx := by
  rw [Env.idx, Env.idx, same]

end

theorem Env.Running.not_ready {env : Env} (running : env.Running) : ¬env.Ready := by
  intro ready
  rw [Env.Ready, running] at ready
  exact absurd ready (by decide)

@[simp]
theorem setActv_self (idx : UInt8) (status : ActvState) :
    ((env.setActv idx status).actvs idx.toNat) = ⟨status, (env.actvs idx.toNat).gapAdvtIdx⟩ := by
  simp [Env.setActv]

theorem setActv_of_ne {idx : UInt8} (status : ActvState) {slot : ℕ} (other : slot ≠ idx.toNat) :
    (env.setActv idx status).actvs slot = env.actvs slot := by
  simp [Env.setActv, other]

@[simp]
theorem sentOps_append (first second : List Effect) :
    sentOps (first ++ second) = sentOps first ++ sentOps second := by
  simp [sentOps]

@[simp]
theorem sentOps_callback (opCb : Option Call) (cmd : BleCmd) (idx : UInt8) (status : BleErr) :
    sentOps (callback opCb cmd idx status) = [] := by
  cases opCb <;> rfl

variable {config}

theorem sentOps_appBleActvCmd (idx : UInt8) (allowed : List ActvState) (op : Op) (alloc : Bool) :
    sentOps (appBleActvCmd config env idx allowed op alloc).2 =
      if idx.toNat < config.activityMax ∧ (env.actvs idx.toNat).actvStatus ∈ allowed ∧ alloc then
        [op]
      else [] := by
  unfold appBleActvCmd
  split_ifs <;> first | rfl | (exfalso; grind)

theorem appBleActvCmd_success_iff (idx : UInt8) (allowed : List ActvState) (op : Op)
    (alloc : Bool) :
    (appBleActvCmd config env idx allowed op alloc).1 = .success ↔
      sentOps (appBleActvCmd config env idx allowed op alloc).2 ≠ [] := by
  unfold appBleActvCmd
  split_ifs <;> simp [sentOps]

theorem appBleNextOperation_actvs (idx : UInt8) (status : BleErr) (alloc : Bool) :
    (appBleNextOperation config env idx status alloc).1.actvs = env.actvs := by
  unfold appBleNextOperation initOperation deinitOperation finish appBleReset
  split <;> grind

end BdkFreertos.BleApp
