import BdkFreertos.Machine
import Mathlib.Data.List.Basic
import Mathlib.Logic.Function.Basic

/-!
# The connection table of the BLE application

A slot of `app_ble_env.connections` holds the index of a GAP connection, or a mark that says that
the slot is free or that a connection is to be initiated from it.  The handlers of the stack's
connection events and the connection functions of the application use the table.
-/

namespace BdkFreertos.BleConnections

/-- The numbers of activities and connections of a build, as its configuration checks them. -/
structure Config where
  /-- `BLE_ACTIVITY_MAX`. -/
  activityMax : ℕ
  /-- `BLE_CONNECTION_MAX`. -/
  connectionMax : ℕ
  activity_lt : activityMax < 10
  connection_lt : connectionMax < activityMax

/-- `UNKNOW_CONN_HDL`: the slot is free. -/
def unknowConnHdl : UInt16 := 0xFF

/-- `USED_CONN_HDL`: a connection is to be initiated from the slot. -/
def usedConnHdl : UInt16 := 0xFE

/-- `GAP_INVALID_CONIDX`. -/
def gapInvalidConidx : UInt8 := 0xFF

/-- `APP_BLE_MASTER_ROLE`. -/
def masterRole : UInt8 := 0

/-- `ble_err_t`. -/
inductive BleErr
  | success
  | noMem
  | bleStatus
  | unknowIdx
  | initState
  | initCreate
  | advData
  | cmdRun
  | attcWrite
  | attcWriteUnregister
  deriving DecidableEq

/-- `enum app_init_state`. -/
inductive InitState
  | idle
  | creating
  | created
  | waitConectting
  | conectting
  | conected
  | stopping
  deriving DecidableEq

/-- The parameters of a connection. -/
structure ConnParam where
  conInterval : UInt16
  conLatency : UInt16
  supTo : UInt16

/-- `struct conn_info`. -/
structure Conn where
  connOpMask : UInt32
  conhdl : UInt16
  param : ConnParam
  initState : InitState
  role : UInt8

/-- What is done with the table. -/
inductive Access
  | used (index : ℕ)
  /-- A slot that held `before` is given to a connection. -/
  | took (slot : ℕ) (before : UInt16) (conidx : UInt8)
  /-- A slot that held `before` is reserved for a connection to be initiated. -/
  | reserved (slot : ℕ) (before : UInt16)
  /-- A command for a slot that holds `conhdl` is sent to an instance of a task of the stack. -/
  | sent (slot : ℕ) (kernelIdx : UInt8) (conhdl : UInt16)
  deriving DecidableEq

/-- The table, with whether a command runs and what was done. -/
structure Env where
  connections : ℕ → Conn
  /-- `APP_BLE_CMD_RUNNING`. -/
  running : Bool
  log : List Access

/-- After `appm_init`. -/
def Env.init : Env where
  connections _ := ⟨0, unknowConnHdl, ⟨0, 0, 0⟩, .idle, 2⟩
  running := false
  log := []

def Env.set (env : Env) (slot : ℕ) (conn : Conn) : Env :=
  { env with connections := Function.update env.connections slot conn }

def Env.note (env : Env) (access : Access) : Env :=
  { env with log := env.log ++ [access] }

variable (config : Config)

/-- `BLE_APP_INITING_CHECK_INDEX`. -/
def initingCheckIndex (conidx : UInt8) : Prop :=
  config.activityMax ≤ conidx.toNat ∧ conidx.toNat < config.connectionMax + config.activityMax

instance (conidx : UInt8) : Decidable (initingCheckIndex config conidx) :=
  inferInstanceAs (Decidable (_ ∧ _))

/-- `BLE_APP_INITING_GET_INDEX`. -/
def initingGetIndex (conidx : UInt8) : ℕ := conidx.toNat - config.activityMax

def searchConn (connections : ℕ → Conn) (conhdl : UInt16) : Option ℕ :=
  (List.range config.connectionMax).find? fun connIdx => (connections connIdx).conhdl = conhdl

/-- `app_ble_get_idle_conn_idx_handle`. -/
def appBleGetIdleConnIdxHandle (connections : ℕ → Conn) : ℕ :=
  (searchConn config connections unknowConnHdl).getD unknowConnHdl.toNat

/-- `app_ble_find_conn_idx_handle`. -/
def appBleFindConnIdxHandle (connections : ℕ → Conn) (conhdl : UInt16) : ℕ :=
  (searchConn config connections conhdl).getD config.connectionMax

/-- `app_ble_get_connhdl`. -/
def appBleGetConnhdl (connections : ℕ → Conn) (connIdx : ℕ) : UInt8 :=
  (connections connIdx).conhdl.toUInt8

/-- What `app_ble_update_param`, `app_ble_disconnect` and `app_ble_gatt_mtu_change` have in common:
the result, and the task instance to which a command is sent. -/
def appBleConnCmd (connections : ℕ → Conn) (connIdx : UInt8) (kernelIdx : UInt8) (alloc : Bool) :
    BleErr × Option UInt8 :=
  if config.connectionMax ≤ connIdx.toNat then (.unknowIdx, none)
  else if (appBleGetConnhdl connections connIdx.toNat).toUInt16 ≠ unknowConnHdl then
    if alloc then (.success, some kernelIdx) else (.noMem, none)
  else (.bleStatus, none)

/-- `app_ble_update_param`. -/
def appBleUpdateParam (connections : ℕ → Conn) (connIdx : UInt8) (alloc : Bool) :
    BleErr × Option UInt8 :=
  appBleConnCmd config connections connIdx (appBleGetConnhdl connections connIdx.toNat) alloc

/-- `app_ble_disconnect`. -/
def appBleDisconnect (connections : ℕ → Conn) (connIdx : UInt8) (alloc : Bool) :
    BleErr × Option UInt8 :=
  appBleConnCmd config connections connIdx connIdx alloc

/-- `app_ble_gatt_mtu_change`. -/
def appBleGattMtuChange (connections : ℕ → Conn) (connIdx : UInt8) (alloc : Bool) :
    BleErr × Option UInt8 :=
  appBleConnCmd config connections connIdx connIdx alloc

/-- The slot that `gapc_connection_req_ind_handler` chooses for a connection. -/
def slotFor (connections : ℕ → Conn) (role destIdx : UInt8) : ℕ :=
  if role ≠ masterRole then appBleGetIdleConnIdxHandle config connections
  else if initingCheckIndex config destIdx then initingGetIndex config destIdx
  else config.connectionMax

/-- The connection is stored in a slot. -/
def storeConn (env : Env) (connIdx : ℕ) (role conidx : UInt8) (param : ConnParam) : Env :=
  let before := env.connections connIdx
  ((env.note (.used connIdx)).note (.took connIdx before.conhdl conidx)).set connIdx
    { before with conhdl := conidx.toUInt16, param := param, role := role }

/-- `gapc_connection_req_ind_handler`. -/
def gapcConnectionReqIndHandler (env : Env) (role conidx destIdx : UInt8) (param : ConnParam) :
    Env :=
  if conidx = gapInvalidConidx then env
  else
    let connIdx := slotFor config env.connections role destIdx
    let env :=
      if config.connectionMax = connIdx then env else storeConn env connIdx role conidx param
    -- the output of the handle, and `sdp_discover_all_service`
    if role = masterRole then env.note (.used connIdx) else env

def gapcParamUpdatedIndHandler (env : Env) (conidx : UInt8) (param : ConnParam) : Env :=
  let connIdx := appBleFindConnIdxHandle config env.connections conidx.toUInt16
  if config.connectionMax = connIdx then env
  else (env.note (.used connIdx)).set connIdx { env.connections connIdx with param := param }

def gapcDisconnectIndHandler (env : Env) (conidx : UInt8) : Env :=
  let connIdx := appBleFindConnIdxHandle config env.connections conidx.toUInt16
  if config.connectionMax = connIdx then env
  else
    (env.note (.used connIdx)).set connIdx
      { env.connections connIdx with conhdl := unknowConnHdl }

/-- The parameters for a connection to be initiated from a slot: the given ones, or
`APP_CONN_INTV`, `APP_CONN_LATENCY` and `APP_CONN_SUP_TO`, with a different interval for each
slot. -/
def initingParam (conIdx : UInt8) (param : ConnParam) : ConnParam where
  conInterval := (if param.conInterval ≠ 0 then param.conInterval else 30) +
    conIdx.toUInt16 * 3
  conLatency := if param.conLatency ≠ 0 then param.conLatency else 0
  supTo := if param.supTo ≠ 0 then param.supTo else 500

/-- `appm_create_initing`, for a new activity or one that is used again. -/
def appmCreateIniting (env : Env) (conIdx : UInt8) (param : ConnParam) (reused : Bool) :
    BleErr × Env :=
  if config.connectionMax ≤ conIdx.toNat then (.unknowIdx, env)
  else
    let before := env.connections conIdx.toNat
    let env := env.note (.used conIdx.toNat)
    if before.initState = .idle then
      (.success, (env.note (.reserved conIdx.toNat before.conhdl)).set conIdx.toNat
        { before with
          conhdl := usedConnHdl
          param := initingParam conIdx param
          connOpMask := 1
          initState := if reused then .idle else .creating })
    else (.initState, env)

/-- `appm_start_connecting` and `appm_stop_connencting`, which go from one state of the initiating
activity to another. -/
def appmConnecting (env : Env) (conIdx : UInt8) (expected next : InitState) (mask : UInt32) :
    BleErr × Env :=
  if config.connectionMax ≤ conIdx.toNat then (.unknowIdx, env)
  else
    let before := env.connections conIdx.toNat
    let env := env.note (.used conIdx.toNat)
    if before.initState = expected then
      (.success, env.set conIdx.toNat { before with connOpMask := mask, initState := next })
    else (.initState, env)

def appmStartConnecting (env : Env) (conIdx : UInt8) : BleErr × Env :=
  appmConnecting config env conIdx .created .waitConectting 2

def appmStopConnencting (env : Env) (conIdx : UInt8) : BleErr × Env :=
  appmConnecting config env conIdx .conectting .stopping 4

/-- The frame of the `bk_ble_` functions: a command runs when the function that it calls has no
error. -/
def bkBleRun (env : Env) (call : Env → BleErr × Env) : Env :=
  if env.running then env
  else
    let result := call { env with running := true }
    if result.1 ≠ .success then { result.2 with running := false } else result.2

/-- A command for a slot is sent to an instance of a task of the stack. -/
def sendConnCmd (command : (ℕ → Conn) → UInt8 → Bool → BleErr × Option UInt8) (connIdx : UInt8)
    (alloc : Bool) (env : Env) : BleErr × Env :=
  let result := command env.connections connIdx alloc
  match result.2 with
  | none => (result.1, env)
  | some kernelIdx =>
      (result.1, (env.note (.used connIdx.toNat)).note
        (.sent connIdx.toNat kernelIdx (env.connections connIdx.toNat).conhdl))

inductive Event
  | connectionReqInd (role conidx destIdx : UInt8) (param : ConnParam)
  | paramUpdatedInd (conidx : UInt8) (param : ConnParam)
  | disconnectInd (conidx : UInt8)
  /-- `bk_ble_update_param`. -/
  | updateParam (connIdx : UInt8) (alloc : Bool)
  /-- `app_init_con_sdp_end_timer_handler`, which does not go by the state of the application. -/
  | sdpEndTimer (connIdx : UInt8) (alloc : Bool)
  /-- `bk_ble_disconnect`. -/
  | disconnect (connIdx : UInt8) (alloc : Bool)
  /-- `bk_ble_gatt_mtu_change`. -/
  | gattMtuChange (connIdx : UInt8) (alloc : Bool)
  /-- `bk_ble_create_init`. -/
  | createInit (conIdx : UInt8) (param : ConnParam) (reused : Bool)
  /-- `bk_ble_init_start_conn`. -/
  | initStartConn (conIdx : UInt8)
  /-- `bk_ble_init_stop_conn`. -/
  | initStopConn (conIdx : UInt8)
  /-- An event of the stack brings an initiating activity to a new state. -/
  | initing (destIdx : UInt8) (next : InitState)
  | completed

/-- A step of the application. -/
def step (env : Env) : Event → Env
  | .connectionReqInd role conidx destIdx param =>
      gapcConnectionReqIndHandler config env role conidx destIdx param
  | .paramUpdatedInd conidx param => gapcParamUpdatedIndHandler config env conidx param
  | .disconnectInd conidx => gapcDisconnectIndHandler config env conidx
  | .updateParam connIdx alloc =>
      bkBleRun env (sendConnCmd (appBleUpdateParam config) connIdx alloc)
  | .sdpEndTimer connIdx alloc => (sendConnCmd (appBleUpdateParam config) connIdx alloc env).2
  | .disconnect connIdx alloc =>
      bkBleRun env (sendConnCmd (appBleDisconnect config) connIdx alloc)
  | .gattMtuChange connIdx alloc =>
      bkBleRun env (sendConnCmd (appBleGattMtuChange config) connIdx alloc)
  | .createInit conIdx param reused =>
      bkBleRun env fun env => appmCreateIniting config env conIdx param reused
  | .initStartConn conIdx => bkBleRun env fun env => appmStartConnecting config env conIdx
  | .initStopConn conIdx => bkBleRun env fun env => appmStopConnencting config env conIdx
  | .initing destIdx next =>
      if initingCheckIndex config destIdx then
        let slot := initingGetIndex config destIdx
        (env.note (.used slot)).set slot { env.connections slot with initState := next }
      else env
  | .completed => { env with running := false }

def table : Machine Env Event Unit where
  step env event := (step config env event, ())

def Live (conhdl : UInt16) : Prop := conhdl ≠ unknowConnHdl ∧ conhdl ≠ usedConnHdl

instance (conhdl : UInt16) : Decidable (Live conhdl) := inferInstanceAs (Decidable (_ ∧ _))

/-- What may be done with the table. -/
def Access.Right : Access → Prop
  | .used index => index < config.connectionMax
  | .took _ before conidx => ¬Live before ∧ Live conidx.toUInt16
  | .reserved _ before => ¬Live before
  | .sent _ kernelIdx conhdl => kernelIdx.toUInt16 = conhdl

/-- No two slots hold the same connection. -/
def Single (connections : ℕ → Conn) : Prop :=
  ∀ slot < config.connectionMax, ∀ other < config.connectionMax,
    Live (connections slot).conhdl →
      (connections slot).conhdl = (connections other).conhdl → slot = other

/-- The table is used as it should be, and no two slots hold the same connection. -/
structure Good (env : Env) : Prop where
  right : ∀ access ∈ env.log, access.Right config
  single : Single config env.connections

/-- A command for a slot goes to the instance with the number of the slot. -/
def SameNumber (env : Env) (connIdx : UInt8) (alloc : Bool) : Prop :=
  env.running = false → alloc = true → connIdx.toNat < config.connectionMax →
    (env.connections connIdx.toNat).conhdl ≠ unknowConnHdl →
      (env.connections connIdx.toNat).conhdl = connIdx.toUInt16

/-- A connection that no slot holds comes to a free slot, or to the slot that it was initiated from
if that holds no other; a slot is reserved when it holds no connection; commands are for slots that
hold the connection with their own number. -/
def Careful (env : Env) : Event → Prop
  | .connectionReqInd role conidx destIdx _ =>
      conidx ≠ gapInvalidConidx →
        conidx.toUInt16 ≠ usedConnHdl ∧
        (∀ slot < config.connectionMax, (env.connections slot).conhdl ≠ conidx.toUInt16) ∧
        if role = masterRole then
          initingCheckIndex config destIdx ∧
            ¬Live (env.connections (initingGetIndex config destIdx)).conhdl
        else ∃ slot < config.connectionMax, (env.connections slot).conhdl = unknowConnHdl
  | .disconnect connIdx alloc => SameNumber config env connIdx alloc
  | .gattMtuChange connIdx alloc => SameNumber config env connIdx alloc
  | .createInit conIdx _ _ =>
      env.running = false → conIdx.toNat < config.connectionMax →
        (env.connections conIdx.toNat).initState = .idle →
          ¬Live (env.connections conIdx.toNat).conhdl
  | _ => True

section
variable {config} {env next : Env} {connections : ℕ → Conn} {slot : ℕ} {conn : Conn}

variable {conhdl : UInt16} {accesses : List Access} {conidx : UInt8}
  {command : (ℕ → Conn) → UInt8 → Bool → BleErr × Option UInt8}

theorem search_some (found : searchConn config connections conhdl = some slot) :
    slot < config.connectionMax ∧ (connections slot).conhdl = conhdl := by
  have member := List.mem_of_find?_eq_some found
  exact ⟨List.mem_range.mp member, by simpa using List.find?_some found⟩

theorem search_none (found : searchConn config connections conhdl = none) :
    ∀ slot < config.connectionMax, (connections slot).conhdl ≠ conhdl := by
  intro slot inside
  simpa using List.find?_eq_none.mp found slot (List.mem_range.mpr inside)

theorem single_update_live (single : Single config connections)
    (inside : slot < config.connectionMax) (live : Live conn.conhdl) :
    Single config (Function.update connections slot conn) ↔
      ∀ other < config.connectionMax, other ≠ slot →
        (connections other).conhdl ≠ conn.conhdl := by
  constructor
  · intro updated other other_inside ne same
    apply ne
    apply updated other other_inside slot inside
    · rw [Function.update_of_ne ne, same]
      exact live
    · rw [Function.update_of_ne ne, Function.update_self, same]
  · intro others first first_inside second second_inside first_live equal
    by_cases first_eq : first = slot <;> by_cases second_eq : second = slot
    · rw [first_eq, second_eq]
    · rw [first_eq, Function.update_self, Function.update_of_ne second_eq] at equal
      exact absurd equal.symm (others second second_inside second_eq)
    · rw [second_eq, Function.update_self, Function.update_of_ne first_eq] at equal
      exact absurd equal (others first first_inside first_eq)
    · rw [Function.update_of_ne first_eq] at first_live equal
      rw [Function.update_of_ne second_eq] at equal
      exact single first first_inside second second_inside first_live equal

theorem Single.update (single : Single config connections)
    (kept : ¬Live conn.conhdl ∨ conn.conhdl = (connections slot).conhdl) :
    Single config (Function.update connections slot conn) := by
  rcases kept with free | same
  · intro first first_inside second second_inside live equal
    by_cases first_eq : first = slot
    · rw [first_eq, Function.update_self] at live
      exact absurd live free
    · rw [Function.update_of_ne first_eq] at live equal
      by_cases second_eq : second = slot
      · rw [second_eq, Function.update_self] at equal
        exact absurd (equal ▸ live) free
      · rw [Function.update_of_ne second_eq] at equal
        exact single first first_inside second second_inside live equal
  · have conhdl_eq (other : ℕ) :
        (Function.update connections slot conn other).conhdl = (connections other).conhdl := by
      by_cases other_eq : other = slot
      · rw [other_eq, Function.update_self, same]
      · rw [Function.update_of_ne other_eq]
    intro first first_inside second second_inside live equal
    rw [conhdl_eq] at live equal
    rw [conhdl_eq] at equal
    exact single first first_inside second second_inside live equal

def Bytes (connections : ℕ → Conn) : Prop :=
  ∀ slot, (connections slot).conhdl.toUInt8.toUInt16 = (connections slot).conhdl

theorem Bytes.update (bytes : Bytes connections)
    (byte : conn.conhdl.toUInt8.toUInt16 = conn.conhdl) :
    Bytes (Function.update connections slot conn) := by
  intro other
  by_cases other_eq : other = slot
  · rw [other_eq, Function.update_self, byte]
  · rw [Function.update_of_ne other_eq, bytes]

/-- What holds besides the claim. -/
structure Strong (config : Config) (env : Env) : Prop extends Good config env where
  bytes : Bytes env.connections

theorem strong_init : Strong config .init where
  right _ member := absurd member List.not_mem_nil
  single _ _ _ _ live := absurd live (by simp [Env.init, Live])
  bytes _ := rfl

theorem Strong.good_iff (strong : Strong config env) (log_eq : next.log = env.log ++ accesses) :
    Good config next ↔
      (∀ access ∈ accesses, access.Right config) ∧ Single config next.connections := by
  constructor
  · rintro ⟨right, single⟩
    refine ⟨fun access member => right access ?_, single⟩
    rw [log_eq]
    exact List.mem_append_right _ member
  · rintro ⟨right, single⟩
    refine ⟨fun access member => ?_, single⟩
    rw [log_eq] at member
    exact (List.mem_append.mp member).elim (strong.right access) (right access)

theorem live_byte (valid : conidx ≠ gapInvalidConidx) :
    Live conidx.toUInt16 ↔ conidx.toUInt16 ≠ usedConnHdl := by
  refine and_iff_right fun equal => valid ?_
  have : conidx.toUInt16.toUInt8 = unknowConnHdl.toUInt8 := congrArg UInt16.toUInt8 equal
  rwa [UInt8.toUInt8_toUInt16] at this

theorem not_live_unknown : ¬Live unknowConnHdl := fun live => live.1 rfl

theorem not_live_used : ¬Live usedConnHdl := fun live => live.2 rfl

theorem initing_lt {destIdx : UInt8} (initing : initingCheckIndex config destIdx) :
    initingGetIndex config destIdx < config.connectionMax := by
  obtain ⟨enough, inside⟩ := initing
  unfold initingGetIndex
  omega

/-- A connection is given a slot. -/
theorem Strong.took_iff (strong : Strong config env) (inside : slot < config.connectionMax)
    (valid : conidx ≠ gapInvalidConidx)
    (took : .took slot (env.connections slot).conhdl conidx ∈ accesses) (only : ∀ access ∈ accesses,
      access = .used slot ∨ access = .took slot (env.connections slot).conhdl conidx)
    (conhdl_eq : conn.conhdl = conidx.toUInt16) (log_eq : next.log = env.log ++ accesses)
    (connections_eq : next.connections = Function.update env.connections slot conn) :
    Good config next ↔
      conidx.toUInt16 ≠ usedConnHdl ∧
        (∀ other < config.connectionMax, (env.connections other).conhdl ≠ conidx.toUInt16) ∧
        ¬Live (env.connections slot).conhdl := by
  rw [strong.good_iff log_eq, connections_eq, ← live_byte valid]
  constructor
  · rintro ⟨right, single⟩
    obtain ⟨free, live⟩ : ¬Live (env.connections slot).conhdl ∧ Live conidx.toUInt16 :=
      right _ took
    have others := (single_update_live strong.single inside (conhdl_eq ▸ live)).mp single
    refine ⟨live, fun other other_inside equal => ?_, free⟩
    by_cases other_eq : other = slot
    · exact free (other_eq ▸ equal ▸ live)
    · exact others other other_inside other_eq (equal.trans conhdl_eq.symm)
  · rintro ⟨live, others, free⟩
    constructor
    · intro access member
      rcases only access member with rfl | rfl
      · exact inside
      · exact ⟨free, live⟩
    · refine (single_update_live strong.single inside (conhdl_eq ▸ live)).mpr ?_
      intro other other_inside _
      rw [conhdl_eq]
      exact others other other_inside

theorem Strong.not_good_of_used (strong : Strong config env) {index : ℕ}
    (log_eq : next.log = env.log ++ accesses) (member : .used index ∈ accesses)
    (outside : config.connectionMax ≤ index) : ¬Good config next := by
  intro good
  have right : index < config.connectionMax :=
    ((strong.good_iff log_eq).mp good).1 (.used index) member
  omega

theorem storeConn_log (env : Env) (connIdx : ℕ) (role conidx : UInt8) (param : ConnParam) :
    (storeConn env connIdx role conidx param).log = env.log ++
      [Access.used connIdx, .took connIdx (env.connections connIdx).conhdl conidx] :=
  List.append_assoc ..

theorem Strong.connectionReqInd_iff (strong : Strong config env) (role conidx destIdx : UInt8)
    (param : ConnParam) :
    Good config (gapcConnectionReqIndHandler config env role conidx destIdx param) ↔
      Careful config env (.connectionReqInd role conidx destIdx param) := by
  show _ ↔ (_ → _)
  unfold gapcConnectionReqIndHandler
  by_cases valid : conidx = gapInvalidConidx
  · rw [if_pos valid]
    exact iff_of_true strong.toGood fun other => absurd valid other
  rw [if_neg valid, imp_iff_right valid]
  have config_lt := config.connection_lt
  have config_small := config.activity_lt
  by_cases master : role = masterRole
  · subst master
    rw [if_pos rfl, if_pos rfl]
    by_cases initing : initingCheckIndex config destIdx
    · have slot_eq : slotFor config env.connections masterRole destIdx =
          initingGetIndex config destIdx := by
        simp [slotFor, initing]
      have inside := initing_lt initing
      rw [slot_eq, if_neg (Nat.ne_of_gt inside), and_iff_right initing]
      have log_eq : ((storeConn env (initingGetIndex config destIdx) masterRole conidx param).note
          (.used (initingGetIndex config destIdx))).log = env.log ++
            [Access.used (initingGetIndex config destIdx),
              .took (initingGetIndex config destIdx)
                (env.connections (initingGetIndex config destIdx)).conhdl conidx,
              .used (initingGetIndex config destIdx)] := by
        simp [Env.note, storeConn_log]
      refine strong.took_iff inside valid (by simp) ?_ rfl log_eq rfl
      intro access member
      simp only [List.mem_cons, List.not_mem_nil, or_false] at member
      tauto
    · have slot_eq : slotFor config env.connections masterRole destIdx =
          config.connectionMax := by
        simp [slotFor, initing]
      rw [slot_eq, if_pos rfl]
      refine iff_of_false ?_ fun careful => initing careful.2.2.1
      exact strong.not_good_of_used rfl (List.mem_singleton.mpr rfl) (Nat.le_refl _)
  · rw [if_neg master, if_neg master]
    cases found : searchConn config env.connections unknowConnHdl with
    | none =>
        have slot_eq : slotFor config env.connections role destIdx = unknowConnHdl.toNat := by
          simp [slotFor, master, appBleGetIdleConnIdxHandle, found]
        have behind : config.connectionMax < unknowConnHdl.toNat := by
          show _ < 255
          omega
        rw [slot_eq, if_neg (Nat.ne_of_lt behind)]
        refine iff_of_false ?_ ?_
        · exact strong.not_good_of_used (storeConn_log ..) List.mem_cons_self (Nat.le_of_lt behind)
        · rintro ⟨-, -, slot, inside, free⟩
          exact search_none found slot inside free
    | some slot =>
        obtain ⟨inside, free⟩ := search_some found
        have slot_eq : slotFor config env.connections role destIdx = slot := by
          simp [slotFor, master, appBleGetIdleConnIdxHandle, found]
        rw [slot_eq, if_neg (Nat.ne_of_gt inside), strong.took_iff inside valid
          (List.mem_cons_of_mem _ List.mem_cons_self) (fun access member => by simpa using member)
          rfl (storeConn_log ..) rfl, and_congr_right_iff]
        intro _
        refine and_congr_right fun _ => iff_of_true ?_ ⟨slot, inside, free⟩
        rw [free]
        exact not_live_unknown

theorem good_congr {other : Env} (log_eq : next.log = other.log)
    (connections_eq : next.connections = other.connections) :
    Good config next ↔ Good config other :=
  ⟨fun good => ⟨log_eq ▸ good.right, connections_eq ▸ good.single⟩,
    fun good => ⟨log_eq ▸ good.right, connections_eq ▸ good.single⟩⟩

theorem bkBleRun_good (idle : env.running = false) (call : Env → BleErr × Env) :
    Good config (bkBleRun env call) ↔ Good config (call { env with running := true }).2 := by
  rw [bkBleRun, if_neg (by simp [idle])]
  dsimp only
  split
  · exact good_congr rfl rfl
  · rfl

theorem Strong.running (strong : Strong config env) (running : Bool) :
    Strong config { env with running := running } :=
  ⟨⟨strong.right, strong.single⟩, strong.bytes⟩

theorem Strong.used (strong : Strong config env) (inside : slot < config.connectionMax)
    (kept : ¬Live conn.conhdl ∨ conn.conhdl = (env.connections slot).conhdl) :
    Good config ((env.note (.used slot)).set slot conn) := by
  refine (strong.good_iff rfl).mpr ⟨?_, strong.single.update kept⟩
  intro access member
  obtain rfl := List.mem_singleton.mp member
  exact inside

theorem find_lt (found : config.connectionMax ≠ appBleFindConnIdxHandle config connections conhdl) :
    appBleFindConnIdxHandle config connections conhdl < config.connectionMax := by
  unfold appBleFindConnIdxHandle at found ⊢
  cases search_eq : searchConn config connections conhdl with
  | none => exact absurd (by rw [search_eq]; rfl) found
  | some slot => exact (search_some search_eq).1

section

variable (strong : Strong config env)
include strong

/-- A command goes to the right instance for a slot that holds a handle. -/
theorem Strong.sendConnCmd_iff {connIdx kernelIdx : UInt8} {alloc : Bool}
    (command_eq : command env.connections connIdx alloc =
      appBleConnCmd config env.connections connIdx kernelIdx alloc) :
    Good config (sendConnCmd command connIdx alloc env).2 ↔
      (alloc = true → connIdx.toNat < config.connectionMax →
        (env.connections connIdx.toNat).conhdl ≠ unknowConnHdl →
          kernelIdx.toUInt16 = (env.connections connIdx.toNat).conhdl) := by
  rw [sendConnCmd, command_eq, appBleConnCmd, appBleGetConnhdl, strong.bytes connIdx.toNat]
  by_cases outside : config.connectionMax ≤ connIdx.toNat
  · rw [if_pos outside]
    exact iff_of_true strong.toGood fun _ inside => absurd inside (Nat.not_lt.mpr outside)
  rw [if_neg outside]
  by_cases known : (env.connections connIdx.toNat).conhdl ≠ unknowConnHdl
  · rw [if_pos known]
    cases alloc with
    | false => exact iff_of_true strong.toGood fun other => absurd other (by simp)
    | true =>
        have inside := Nat.not_le.mp outside
        have log_eq : ((env.note (.used connIdx.toNat)).note
            (.sent connIdx.toNat kernelIdx (env.connections connIdx.toNat).conhdl)).log =
              env.log ++ [Access.used connIdx.toNat,
                .sent connIdx.toNat kernelIdx (env.connections connIdx.toNat).conhdl] :=
          List.append_assoc ..
        show Good config ((env.note (.used connIdx.toNat)).note _) ↔ _
        rw [strong.good_iff log_eq]
        have single : Single config ((env.note (.used connIdx.toNat)).note
            (.sent connIdx.toNat kernelIdx (env.connections connIdx.toNat).conhdl)).connections :=
          strong.single
        rw [and_iff_left single]
        simp [Access.Right, inside, known]
  · rw [if_neg known]
    exact iff_of_true strong.toGood fun _ _ other => absurd other known

theorem Strong.updateParam (connIdx : UInt8) (alloc : Bool) :
    Good config (sendConnCmd (appBleUpdateParam config) connIdx alloc env).2 :=
  (strong.sendConnCmd_iff rfl).mpr fun _ _ _ => strong.bytes connIdx.toNat

theorem Strong.sameNumber_iff (connIdx : UInt8) (alloc : Bool)
    (command_eq : command env.connections connIdx alloc =
      appBleConnCmd config env.connections connIdx connIdx alloc) :
    Good config (bkBleRun env (sendConnCmd command connIdx alloc)) ↔
      SameNumber config env connIdx alloc := by
  unfold SameNumber
  cases idle : env.running with
  | true =>
      rw [bkBleRun, if_pos idle]
      exact iff_of_true strong.toGood fun other => absurd other (by simp)
  | false =>
      rw [bkBleRun_good idle, imp_iff_right rfl]
      refine ((strong.running true).sendConnCmd_iff command_eq).trans ?_
      simp [eq_comm]

theorem Strong.appmConnecting (conIdx : UInt8) (expected state : InitState) (mask : UInt32) :
    Good config (bkBleRun env fun env =>
      BleConnections.appmConnecting config env conIdx expected state mask) := by
  cases idle : env.running with
  | true =>
      rw [bkBleRun, if_pos idle]
      exact strong.toGood
  | false =>
      rw [bkBleRun_good idle, BleConnections.appmConnecting]
      have running := strong.running true
      by_cases outside : config.connectionMax ≤ conIdx.toNat
      · rw [if_pos outside]
        exact running.toGood
      rw [if_neg outside]
      dsimp only
      have inside := Nat.not_le.mp outside
      split
      · exact running.used inside (Or.inr rfl)
      · refine (running.good_iff rfl).mpr ⟨?_, running.single⟩
        intro access member
        obtain rfl := List.mem_singleton.mp member
        exact inside

theorem Strong.createInit_iff (conIdx : UInt8) (param : ConnParam) (reused : Bool) :
    Good config (bkBleRun env fun env => appmCreateIniting config env conIdx param reused) ↔
      Careful config env (.createInit conIdx param reused) := by
  show _ ↔ (_ → _)
  cases idle : env.running with
  | true =>
      rw [bkBleRun, if_pos idle]
      exact iff_of_true strong.toGood fun other => absurd other (by simp)
  | false =>
      have running := strong.running true
      rw [bkBleRun_good idle, imp_iff_right rfl, appmCreateIniting]
      by_cases outside : config.connectionMax ≤ conIdx.toNat
      · rw [if_pos outside]
        exact iff_of_true running.toGood fun inside => absurd inside (Nat.not_lt.mpr outside)
      have inside := Nat.not_le.mp outside
      rw [if_neg outside, imp_iff_right inside]
      dsimp only
      by_cases free : (env.connections conIdx.toNat).initState = .idle
      · rw [if_pos free, imp_iff_right free]
        have log_eq : env.log ++ [Access.used conIdx.toNat] ++
            [Access.reserved conIdx.toNat (env.connections conIdx.toNat).conhdl] = env.log ++
              [Access.used conIdx.toNat,
                .reserved conIdx.toNat (env.connections conIdx.toNat).conhdl] :=
          List.append_assoc ..
        refine (running.good_iff log_eq).trans ?_
        refine (and_iff_left ?_).trans (by simp [Access.Right, inside])
        exact running.single.update (Or.inl not_live_used)
      · rw [if_neg free]
        refine iff_of_true ((running.good_iff rfl).mpr ⟨?_, running.single⟩) fun other =>
          absurd other free
        intro access member
        obtain rfl := List.mem_singleton.mp member
        exact inside

end

theorem bkBleRun_bytes (bytes : Bytes env.connections) {call : Env → BleErr × Env}
    (kept : Bytes (call { env with running := true }).2.connections) :
    Bytes (bkBleRun env call).connections := by
  unfold bkBleRun
  dsimp only
  split
  · exact bytes
  · split
    · exact kept
    · exact kept

theorem sendConnCmd_connections (command : (ℕ → Conn) → UInt8 → Bool → BleErr × Option UInt8)
    (connIdx : UInt8) (alloc : Bool) (env : Env) :
    (sendConnCmd command connIdx alloc env).2.connections = env.connections := by
  unfold sendConnCmd
  dsimp only
  split <;> rfl

theorem appmConnecting_bytes (bytes : Bytes env.connections) (conIdx : UInt8)
    (expected state : InitState) (mask : UInt32) :
    Bytes (appmConnecting config env conIdx expected state mask).2.connections := by
  unfold appmConnecting
  dsimp only
  split
  · exact bytes
  · split
    · exact bytes.update (bytes _)
    · exact bytes

theorem Bytes.step (bytes : Bytes env.connections) (event : Event) :
    Bytes (BleConnections.step config env event).connections := by
  cases event with
  | connectionReqInd role conidx destIdx param =>
      have stored (slot : ℕ) : Bytes (storeConn env slot role conidx param).connections :=
        bytes.update (congrArg UInt8.toUInt16 (UInt8.toUInt8_toUInt16 conidx))
      show Bytes (gapcConnectionReqIndHandler config env role conidx destIdx param).connections
      unfold gapcConnectionReqIndHandler
      dsimp only
      split
      · exact bytes
      · split
        · split
          · exact bytes
          · exact stored _
        · split
          · exact bytes
          · exact stored _
  | paramUpdatedInd conidx param =>
      show Bytes (gapcParamUpdatedIndHandler config env conidx param).connections
      unfold gapcParamUpdatedIndHandler
      dsimp only
      split
      · exact bytes
      · exact bytes.update (bytes _)
  | disconnectInd conidx =>
      show Bytes (gapcDisconnectIndHandler config env conidx).connections
      unfold gapcDisconnectIndHandler
      dsimp only
      split
      · exact bytes
      · exact bytes.update rfl
  | updateParam connIdx alloc | disconnect connIdx alloc | gattMtuChange connIdx alloc =>
      refine bkBleRun_bytes bytes ?_
      rw [sendConnCmd_connections]
      exact bytes
  | sdpEndTimer connIdx alloc =>
      show Bytes (sendConnCmd _ connIdx alloc env).2.connections
      rw [sendConnCmd_connections]
      exact bytes
  | createInit conIdx param reused =>
      refine bkBleRun_bytes bytes ?_
      unfold appmCreateIniting
      dsimp only
      split
      · exact bytes
      · split
        · exact bytes.update rfl
        · exact bytes
  | initStartConn conIdx | initStopConn conIdx =>
      have running : Bytes ({ env with running := true } : Env).connections := bytes
      exact bkBleRun_bytes bytes (appmConnecting_bytes running conIdx _ _ _)
  | initing destIdx state =>
      rw [BleConnections.step]
      split
      · exact bytes.update (bytes _)
      · exact bytes
  | completed => exact bytes

theorem Strong.step_iff (strong : Strong config env) (event : Event) :
    Good config (step config env event) ↔ Careful config env event := by
  cases event with
  | connectionReqInd role conidx destIdx param =>
      exact strong.connectionReqInd_iff role conidx destIdx param
  | paramUpdatedInd conidx param =>
      refine iff_of_true ?_ trivial
      show Good config (gapcParamUpdatedIndHandler config env conidx param)
      unfold gapcParamUpdatedIndHandler
      dsimp only
      split
      · exact strong.toGood
      · rename_i found
        exact strong.used (find_lt found) (Or.inr rfl)
  | disconnectInd conidx =>
      refine iff_of_true ?_ trivial
      show Good config (gapcDisconnectIndHandler config env conidx)
      unfold gapcDisconnectIndHandler
      dsimp only
      split
      · exact strong.toGood
      · rename_i found
        exact strong.used (find_lt found) (Or.inl not_live_unknown)
  | updateParam connIdx alloc =>
      refine iff_of_true ?_ trivial
      show Good config (bkBleRun env _)
      cases idle : env.running with
      | true =>
          rw [bkBleRun, if_pos idle]
          exact strong.toGood
      | false =>
          rw [bkBleRun_good idle]
          exact (strong.running true).updateParam connIdx alloc
  | sdpEndTimer connIdx alloc => exact iff_of_true (strong.updateParam connIdx alloc) trivial
  | disconnect connIdx alloc | gattMtuChange connIdx alloc =>
      exact strong.sameNumber_iff connIdx alloc rfl
  | createInit conIdx param reused => exact strong.createInit_iff conIdx param reused
  | initStartConn conIdx | initStopConn conIdx =>
      exact iff_of_true (strong.appmConnecting conIdx _ _ _) trivial
  | initing destIdx state =>
      refine iff_of_true ?_ trivial
      show Good config (if _ then _ else _)
      split
      · rename_i initing
        exact strong.used (initing_lt initing) (Or.inr rfl)
      · exact strong.toGood
  | completed => exact iff_of_true (strong.running false).toGood trivial

end

/-- In a run the table is used within its bounds, connections have slots of their own and commands
reach them exactly if the run is careful. -/
theorem connections_good_iff (config : Config) (events : List Event) :
    (∀ front, front <+: events → Good config ((table config).run .init front)) ↔
      (table config).Always (Careful config) .init events :=
  (table config).forall_run_iff_always_of_strong (Careful config) (fun _ => True) (Good config)
    (Strong config) (fun _ _ => trivial) (fun strong => strong.toGood)
    (fun event _ strong => strong.step_iff event)
    (fun event _ strong careful =>
      ⟨(strong.step_iff event).mpr careful, strong.bytes.step event⟩)
    trivial strong_init events

def twoConnections : Config := ⟨3, 2, by decide, by decide⟩

/-- A connection that is initiated from slot 1 is the stack's connection 0, and `bk_ble_disconnect`
for slot 1 goes to connection 1; when both slots are reserved, a slave's connection is stored in
slot 255. -/
theorem connections_not_good :
    ¬Good twoConnections ((table twoConnections).run .init [.createInit 1 ⟨0, 0, 0⟩ false,
      .completed, .connectionReqInd 0 0 4 ⟨24, 0, 500⟩, .disconnect 1 true]) ∧
    ¬Good twoConnections ((table twoConnections).run .init [.createInit 0 ⟨0, 0, 0⟩ false,
      .completed, .createInit 1 ⟨0, 0, 0⟩ false, .completed,
      .connectionReqInd 1 0 0 ⟨24, 0, 500⟩]) := by
  constructor
  · intro good
    have right := good.right (.sent 1 1 0) (by decide)
    exact absurd right (by unfold Access.Right; decide)
  · intro good
    have right := good.right (.used 255) (by decide)
    exact absurd right (by unfold Access.Right; decide)

end BdkFreertos.BleConnections
