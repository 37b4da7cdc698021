import BdkFreertos.Arena
import BdkFreertos.Machine

/-!
# The role launcher

Requests to bring the station or the soft access point up or down are queued by two timers.  The
enter timer takes the latest request of each role and either starts it at once or parks it; the
launch timer looks whether the request in progress is over and starts the parked one.  Both handlers
run in the timer task.  Every other entry point is a callback of the network stack or of the
application, and starting a role runs code that calls such callbacks: `during` lists those of one
handler.
-/

namespace BdkFreertos.RoleLaunch

/-- The two roles. -/
inductive Role
  | sta
  | ap
  deriving DecidableEq

/-- The other role. -/
def Role.other : Role → Role
  | sta => ap
  | ap => sta

/-- The request types `LAUNCH_REQ_*`. -/
inductive LaunchReqType
  | sta
  | ap
  | pureStaScan
  | delifSta
  | delifAp
  deriving DecidableEq

/-- A request `LAUNCH_REQ`, with its network parameters known by a number. -/
structure LaunchReq where
  descr : ℕ
  reqType : LaunchReqType
  deriving DecidableEq

/-- `LAUNCH_TYPE_*`. -/
inductive LaunchType
  | asap
  | reconn
  deriving DecidableEq

/-- A queued request `RL_ENTITY_T`. -/
structure RlEntity where
  launchType : LaunchType
  relaunchLimit : ℕ
  launchCount : ℕ
  rlaunch : LaunchReq
  deriving DecidableEq

/-- Whether a request is to be launched as soon as possible. -/
def RlEntity.isAsap (entity : RlEntity) : Bool :=
  entity.launchType = .asap

def RlEntity.isExhausted (entity : RlEntity) : Bool :=
  entity.relaunchLimit ≠ 0 ∧ entity.relaunchLimit ≤ entity.launchCount

/-- `PRE_ENTITY_*`: the role whose request is looked at first. -/
inductive PreEntity
  | idle
  | sta
  | ap
  deriving DecidableEq

/-- What `rl_launch_sta` and `rl_launch_ap` return. -/
inductive LaunchStatus
  | statusOver
  | statusCont
  deriving DecidableEq

/-! ## Status words -/

/-- `RL_STATUS_PENDING`. -/
def statusPending : UInt32 := 1

/-- `RL_STATUS_DOING`. -/
def statusDoing : UInt32 := 0x02

/-- `RL_STATUS_PAUSE`, also `RL_STATUS_MASK`. -/
def statusPause : UInt32 := 0x80

/-- `RL_PRIV_STATUS_MASK`. -/
def privStatusMask : UInt32 := 0x00FF0000

/-- `RL_PRIV_STATUS_STA_ADV`. -/
def privStatusStaAdv : UInt32 := 0x00010000

/-- `RL_PRIV_STATUS_STA_ADV_RDY`. -/
def privStatusStaAdvRdy : UInt32 := 0x00020000

/-- `RL_ST_STATUS_MASK`. -/
def stStatusMask : UInt32 := 0xFF000000

/-- `RL_ST_STATUS_RESTART_HOLD`, also `RL_STA_STATE_HOLD`. -/
def stStatusRestartHold : UInt32 := 0x01000000

/-- `RL_STA_STATE_MASK`. -/
def staStateMask : UInt32 := 0x03000000

/-- `RL_STATUS_CANCEL`. -/
def statusCancel : UInt32 := 0x8000

/-- `RL_STATUS_MROLE_CHANNEL_SWITCHING`. -/
def channelSwitching : UInt32 := 6

/-- `RL_STATUS_MROLE_CHANNEL_SWITCHED`. -/
def channelSwitched : UInt32 := 7

/-! ## The launcher's data -/

/-- The launcher `RL_T`, with the global flags and sockets beside it and the heap of its requests. -/
structure Launcher where
  /-- Whether `rl_timer` runs. -/
  rlTimer : Bool
  /-- Whether `enter_timer` runs. -/
  enterTimer : Bool
  rlStatus : UInt32
  preEntityType : PreEntity
  preStaCancel : Bool
  preStaStatus : UInt32
  preApCancel : Bool
  preApStatus : UInt32
  jlPreviousSta : Option ℕ
  jlFollowingSta : Option ℕ
  jlPreviousAp : Option ℕ
  jlFollowingAp : Option ℕ
  /-- `g_mrole_csa_flag`. -/
  csaFlag : UInt32
  /-- `g_rl_socket`: the latest request of each role not yet entered. -/
  staSocket : Option LaunchReq
  apSocket : Option LaunchReq
  /-- `g_sta_cache`. -/
  staCache : Option LaunchReq
  heap : Arena RlEntity

/-- The launcher after `rl_init`. -/
def rlInit : Launcher where
  rlTimer := false
  enterTimer := false
  rlStatus := 0
  preEntityType := .idle
  preStaCancel := false
  preStaStatus := 0
  preApCancel := false
  preApStatus := 0
  jlPreviousSta := none
  jlFollowingSta := none
  jlPreviousAp := none
  jlFollowingAp := none
  csaFlag := 0
  staSocket := none
  apSocket := none
  staCache := none
  heap := .empty

namespace Launcher

/-- The request of a role in progress. -/
def previous (launcher : Launcher) : Role → Option ℕ
  | .sta => launcher.jlPreviousSta
  | .ap => launcher.jlPreviousAp

/-- The parked request of a role. -/
def following (launcher : Launcher) : Role → Option ℕ
  | .sta => launcher.jlFollowingSta
  | .ap => launcher.jlFollowingAp

/-- Assign the request in progress. -/
def setPrevious (launcher : Launcher) (entity : Option ℕ) : Role → Launcher
  | .sta => { launcher with jlPreviousSta := entity }
  | .ap => { launcher with jlPreviousAp := entity }

/-- Assign the parked request. -/
def setFollowing (launcher : Launcher) (entity : Option ℕ) : Role → Launcher
  | .sta => { launcher with jlFollowingSta := entity }
  | .ap => { launcher with jlFollowingAp := entity }

/-- Set bits of `rl_status`. -/
def setStatusBits (launcher : Launcher) (bits : UInt32) : Launcher :=
  { launcher with rlStatus := launcher.rlStatus ||| bits }

/-- Clear bits of `rl_status`. -/
def clearStatusBits (launcher : Launcher) (bits : UInt32) : Launcher :=
  { launcher with rlStatus := launcher.rlStatus &&& ~~~bits }

def paused (launcher : Launcher) : Bool :=
  launcher.rlStatus &&& statusPause ≠ 0

def staHold (launcher : Launcher) : Bool :=
  launcher.rlStatus &&& staStateMask = stStatusRestartHold

/-- Whether requests of a role are held back. -/
def hold (launcher : Launcher) : Role → Bool
  | .sta => launcher.staHold
  | .ap => false

/-- Set the cancel flag of a role. -/
def setCancel (launcher : Launcher) : Role → Launcher
  | .sta => { launcher with preStaCancel := true }
  | .ap => { launcher with preApCancel := true }

/-- Note the role that has entered a request first. -/
def tagFrom (launcher : Launcher) (role : Role) : Launcher :=
  { launcher with
    preEntityType :=
      if launcher.preEntityType = .idle then
        match role with
        | .sta => .sta
        | .ap => .ap
      else
        launcher.preEntityType }

/-- Read a queued request. -/
def readEntity (launcher : Launcher) (entity : ℕ) : Launcher × Option RlEntity :=
  let (heap, value) := launcher.heap.read entity
  ({ launcher with heap := heap }, value)

end Launcher

/-- Allocate a queued request. -/
def rlAllocEntity (launcher : Launcher) (param : LaunchReq) : Launcher × ℕ :=
  let (heap, entity) := launcher.heap.alloc
    { launchType := .asap, relaunchLimit := 0, launchCount := 0, rlaunch := param }
  ({ launcher with heap := heap }, entity)

def rlFreeEntity (launcher : Launcher) (entity : ℕ) : Launcher :=
  { launcher with heap := launcher.heap.free entity }

/-! ## Callbacks -/

/-- Note a new status of the station unless it is out of order or cancelled. -/
def rlPreStaSetStatus (launcher : Launcher) (status : UInt32) : Launcher :=
  if status = 2 ∧ launcher.preStaStatus ≠ 1 ∧ launcher.preStaStatus ≠ 3 then
    launcher
  else if status = 2 ∧ launcher.preStaCancel then
    launcher
  else
    { launcher with preStaStatus := status }

def rlPreApSetStatus (launcher : Launcher) (status : UInt32) : Launcher :=
  { launcher with preApStatus := if launcher.preApCancel then status + statusCancel else status }

/-- Note that a channel switch has begun, unless a request is cancelled. -/
def rlSetCsaSwitching (launcher : Launcher) : Launcher :=
  if launcher.preStaCancel ∨ launcher.preApCancel then launcher
  else { launcher with csaFlag := channelSwitching }

/-- Put a station request on the socket and run the enter timer. -/
def rlStaRequestEnterHandle (launcher : Launcher) (param : LaunchReq) : Launcher :=
  { launcher with staSocket := some param, enterTimer := true }

def rlStaRequestEnter (launcher : Launcher) (param : LaunchReq) : Launcher :=
  rlStaRequestEnterHandle (launcher.clearStatusBits (stStatusRestartHold &&& stStatusMask)) param

def rlApRequestEnter (launcher : Launcher) (param : LaunchReq) : Launcher :=
  { launcher with apSocket := some param, enterTimer := true }

/-- Ask again for the cached station request. -/
def rlStaCacheRequestEnter (launcher : Launcher) (monitorMode : Bool) : Launcher :=
  let notReady := launcher.rlStatus &&& privStatusStaAdvRdy = 0
  let adv := launcher.rlStatus &&& privStatusStaAdv ≠ 0
  let reset := launcher.clearStatusBits (privStatusStaAdv &&& privStatusMask)
  let admitted := if monitorMode = false ∧ notReady ∧ launcher.staHold = false
    then launcher.staCache else none
  let launcher :=
    match admitted with
    | some param => rlStaRequestEnterHandle (if adv then reset else launcher) param
    | none => if adv ∧ notReady then rlStaRequestEnter reset ⟨0, .delifSta⟩ else launcher
  { launcher with staCache := none }

/-- The entry points other than the two timer handlers. -/
inductive Callback
  | preStaSetStatus (status : UInt32)
  | preApSetStatus (status : UInt32)
  | preStaSetCancel
  | preStaClearCancel
  | preApSetCancel
  | preApClearCancel
  | initCsaStatus
  | setCsaSwitching
  | setCsaSwitched
  | statusSetPause (enable : Bool)
  | statusSetPrivateState (state : UInt32)
  | statusResetPrivateState (state : UInt32)
  | statusSetStState (state : UInt32)
  | statusResetStState (state : UInt32)
  | staRequestEnter (param : LaunchReq)
  | apRequestEnter (param : LaunchReq)
  | staCacheRequestEnter (monitorMode : Bool)
  | staAdvRegisterCacheStation (param : LaunchReq)

/-- Run a callback. -/
def runCallback (launcher : Launcher) : Callback → Launcher
  | .preStaSetStatus status => rlPreStaSetStatus launcher status
  | .preApSetStatus status => rlPreApSetStatus launcher status
  | .preStaSetCancel => launcher.setCancel .sta
  | .preStaClearCancel => { launcher with preStaCancel := false }
  | .preApSetCancel => launcher.setCancel .ap
  | .preApClearCancel => { launcher with preApCancel := false }
  | .initCsaStatus => { launcher with csaFlag := 0 }
  | .setCsaSwitching => rlSetCsaSwitching launcher
  | .setCsaSwitched => { launcher with csaFlag := channelSwitched }
  | .statusSetPause enable =>
      if enable then launcher.setStatusBits statusPause else launcher.clearStatusBits statusPause
  | .statusSetPrivateState state => launcher.setStatusBits (state &&& privStatusMask)
  | .statusResetPrivateState state => launcher.clearStatusBits (state &&& privStatusMask)
  | .statusSetStState state => launcher.setStatusBits (state &&& stStatusMask)
  | .statusResetStState state => launcher.clearStatusBits (state &&& stStatusMask)
  | .staRequestEnter param => rlStaRequestEnter launcher param
  | .apRequestEnter param => rlApRequestEnter launcher param
  | .staCacheRequestEnter monitorMode => rlStaCacheRequestEnter launcher monitorMode
  | .staAdvRegisterCacheStation param => { launcher with staCache := some param }

/-- Run the callbacks made while a role is started or stopped. -/
def runCallbacks (launcher : Launcher) (during : List Callback) : Launcher :=
  during.foldl runCallback launcher

/-! ## Starting a role -/

/-- The calls that start or stop a role. -/
inductive External
  /-- `bk_wlan_start_sta`. -/
  | startSta (descr : ℕ)
  /-- `demo_scan_app_init`. -/
  | scan
  /-- `bk_wlan_stop(BK_STATION)`. -/
  | stopSta
  /-- `bk_wlan_start_ap`. -/
  | startAp (descr : ℕ)
  /-- `bk_wlan_stop(BK_SOFT_AP)`. -/
  | stopAp
  deriving DecidableEq

/-- Whether a call starts a role. -/
def External.startsRole : External → Bool
  | startSta _ | scan | startAp _ => true
  | stopSta | stopAp => false

def rlPreStaInit (launcher : Launcher) : Launcher :=
  { launcher with preStaCancel := false, preStaStatus := 0 }

def rlPreApInit (launcher : Launcher) : Launcher :=
  { launcher with preApCancel := false, preApStatus := 0 }

/-- Carry out a station request. -/
def rlStaRequestStart (during : List Callback) (launcher : Launcher) (req : LaunchReq) :
    Launcher × List External :=
  match req.reqType with
  | .sta => (runCallbacks (rlPreStaInit launcher) during, [.startSta req.descr])
  | .pureStaScan => (runCallbacks (rlPreStaInit launcher) during, [.scan])
  | .delifSta => (runCallbacks launcher during, [.stopSta])
  | _ => (launcher, [])

/-- Carry out an access-point request. -/
def rlApRequestStart (during : List Callback) (launcher : Launcher) (req : LaunchReq) :
    Launcher × List External :=
  match req.reqType with
  | .ap => (runCallbacks (rlPreApInit launcher) during, [.startAp req.descr])
  | .delifAp => (runCallbacks launcher during, [.stopAp])
  | _ => (launcher, [])

/-- Carry out a request of a role. -/
def requestStart (during : List Callback) (launcher : Launcher) (req : LaunchReq) :
    Role → Launcher × List External
  | .sta => rlStaRequestStart during launcher req
  | .ap => rlApRequestStart during launcher req

def rlStart (launcher : Launcher) : Launcher :=
  { launcher with rlTimer := true }

/-! ## Entering a request -/

/-- Start a request at once or park it; the result carries the return value. -/
def requestEnter (role : Role) (during : List Callback) (launcher : Launcher) (param : LaunchReq) :
    Launcher × List External × ℕ :=
  if launcher.jlPreviousAp = none ∧ launcher.jlPreviousSta = none ∧ launcher.hold role = false then
    let (launcher, entity) := rlAllocEntity launcher param
    let launcher := launcher.setPrevious (some entity) role
    let (launcher, calls) := requestStart during launcher param role
    (launcher.tagFrom role, calls, 1)
  else if launcher.following role = none ∧ launcher.hold role = false then
    let (launcher, entity) := rlAllocEntity launcher param
    let launcher := rlStart (launcher.setFollowing (some entity) role)
    (launcher.tagFrom role, [], 2)
  else
    (rlStart launcher, [], 0)

/-- Enter a station request. -/
def staRequestEnter (during : List Callback) (launcher : Launcher) (param : LaunchReq) :
    Launcher × List External × ℕ :=
  let (launcher, calls, ret) := requestEnter .sta during (launcher.setStatusBits statusDoing) param
  (launcher.clearStatusBits statusDoing, calls, ret)

/-- Enter an access-point request. -/
def apRequestEnter (during : List Callback) (launcher : Launcher) (param : LaunchReq) :
    Launcher × List External × ℕ :=
  requestEnter .ap during launcher param

/-- The station's part of the enter handler. -/
def enterSta (during : List Callback) (launcher : Launcher) :
    Option LaunchReq → Launcher × List External
  | some param =>
      let (launcher, calls, ret) := staRequestEnter during launcher param
      let staCache := if ret ≠ 0 ∧ param.reqType = .sta then some param else launcher.staCache
      ({ launcher with staCache := staCache }, calls)
  | none => (launcher, [])

/-- The access point's part of the enter handler. -/
def enterAp (during : List Callback) (launcher : Launcher) :
    Option LaunchReq → Launcher × List External
  | some param =>
      let (launcher, calls, _) := apRequestEnter during launcher param
      (launcher, calls)
  | none => (launcher, [])

/-- The handler of the enter timer; `allocated` tells whether its buffer could be allocated. -/
def rlEnterHandler (allocated : Bool) (during : List Callback) (launcher : Launcher) :
    Launcher × List External :=
  if allocated then
    let staParam := launcher.staSocket
    let apParam := launcher.apSocket
    let launcher := { launcher with staSocket := none, apSocket := none }
    if launcher.paused then
      (launcher, [])
    else
      let launcher := launcher.setStatusBits statusPending
      let (launcher, staCalls) := enterSta during launcher staParam
      let (launcher, apCalls) := enterAp during launcher apParam
      (launcher.clearStatusBits statusPending, staCalls ++ apCalls)
  else
    (launcher, [])

/-! ## Launching parked requests -/

/-- Whether the station's request in progress may give way. -/
def rlStaMayNextLaunch (launcher : Launcher) : Bool :=
  if launcher.csaFlag = channelSwitching then
    false
  else
    launcher.csaFlag = channelSwitched ∨
      (launcher.preStaCancel = true ∧ (launcher.preStaStatus = 5 ∨ launcher.preStaStatus = 1 ∨
        launcher.preStaStatus = 3 ∨ launcher.preStaStatus = 4)) ∨
      launcher.preStaStatus = 10 ∨ launcher.preStaStatus = 9

/-- Whether the access point's request in progress may give way. -/
def rlApMayNextLaunch (launcher : Launcher) (preCancel : Bool) : Bool :=
  if preCancel = false then
    true
  else if launcher.csaFlag = channelSwitching then
    false
  else
    launcher.preApStatus = 0x14 + statusCancel ∨
      launcher.preApStatus &&& ~~~statusCancel = 0x15

/-- Whether the request in progress of a role may give way. -/
def mayNextLaunch (launcher : Launcher) (preCancel : Bool) : Role → Bool
  | .sta => rlStaMayNextLaunch launcher
  | .ap => rlApMayNextLaunch launcher preCancel

/-- Whether a parked request of a role is started rather than dropped. -/
def mayStart (launcher : Launcher) (role : Role) : Bool :=
  !launcher.paused && !launcher.hold role

/-- Make a queued request the one in progress and carry it out. -/
def startEntity (role : Role) (during : List Callback) (launcher : Launcher) (entity : ℕ) :
    Launcher × List External :=
  let launcher := (launcher.setStatusBits statusDoing).setPrevious (some entity) role
  let (launcher, value) := launcher.readEntity entity
  let launcher :=
    match role with
    | .sta => launcher
    | .ap => rlPreApInit launcher
  let (launcher, calls) :=
    match value with
    | some value => requestStart during launcher value.rlaunch role
    | none => (launcher, [])
  (launcher.clearStatusBits statusDoing, calls)

/-- Cancel the request in progress when a parked one is due, or when it has been launched too often;
the result tells whether it was cancelled. -/
def cancelPrevious (role : Role) (launcher : Launcher) (previous : ℕ) : Launcher × Bool :=
  let (launcher, due) :=
    match launcher.following role with
    | some entity =>
        let (launcher, value) := launcher.readEntity entity
        (launcher, value.any RlEntity.isAsap)
    | none => (launcher, false)
  let launcher := if due then launcher.setCancel role else launcher
  let (launcher, value) := launcher.readEntity previous
  let exhausted := value.any RlEntity.isExhausted
  let launcher := if exhausted then launcher.setCancel role else launcher
  (launcher, due || exhausted)

/-- Launch the parked request of a role that has none in progress. -/
def launchParked (role : Role) (during : List Callback) (launcher : Launcher) :
    Launcher × List External × LaunchStatus :=
  match launcher.following role with
  | none => (launcher, [], .statusOver)
  | some entity =>
      let launcher := launcher.setFollowing none role
      if mayStart launcher role then
        let (launcher, calls) := startEntity role during launcher entity
        (launcher, calls, .statusCont)
      else
        (rlFreeEntity launcher entity, [], .statusOver)

/-- Launch the parked request of a role after the one in progress has been freed. -/
def launchNext (role : Role) (during : List Callback) (launcher : Launcher) :
    Launcher × List External × LaunchStatus :=
  let following := launcher.following role
  let launcher := launcher.setFollowing none role
  if mayStart launcher role then
    match following with
    | some entity =>
        let (launcher, calls) := startEntity role during launcher entity
        (launcher, calls, .statusCont)
    | none =>
        let launcher := (launcher.setStatusBits statusDoing).setPrevious none role
        (launcher.clearStatusBits statusDoing, [], .statusOver)
  else
    match following with
    | some entity => ((rlFreeEntity launcher entity).setPrevious none role, [], .statusOver)
    | none => (launcher.setPrevious none role, [], .statusOver)

/-- Look whether a request of a role can be launched. -/
def launch (role : Role) (during : List Callback) (launcher : Launcher) :
    Launcher × List External × LaunchStatus :=
  match launcher.previous role with
  | none => launchParked role during launcher
  | some previous =>
      let (launcher, cancelled) := cancelPrevious role launcher previous
      if mayNextLaunch launcher cancelled role then
        launchNext role during (rlFreeEntity launcher previous)
      else
        (launcher, [], .statusCont)

def rlLaunchSta : List Callback → Launcher → Launcher × List External × LaunchStatus :=
  launch .sta

def rlLaunchAp : List Callback → Launcher → Launcher × List External × LaunchStatus :=
  launch .ap

def rlRelaunchChance (launcher : Launcher) : Launcher :=
  { launcher with rlTimer := true }

/-- The handler of the launch timer. -/
def rlLaunchHandler (during : List Callback) (launcher : Launcher) : Launcher × List External :=
  match launcher.preEntityType with
  | .ap =>
      let (launcher, apCalls, apRet) := rlLaunchAp during launcher
      if apRet = .statusOver then
        let launcher := { launcher with preEntityType := .sta }
        let (launcher, staCalls, staRet) := rlLaunchSta during launcher
        (if staRet = .statusOver then launcher else rlRelaunchChance launcher, apCalls ++ staCalls)
      else
        (rlRelaunchChance launcher, apCalls)
  | .sta =>
      let (launcher, staCalls, staRet) := rlLaunchSta during launcher
      if staRet = .statusOver then
        let launcher := { launcher with preEntityType := .ap }
        let (launcher, apCalls, apRet) := rlLaunchAp during launcher
        (if apRet = .statusOver then launcher else rlRelaunchChance launcher, staCalls ++ apCalls)
      else
        (rlRelaunchChance launcher, staCalls)
  | .idle => (launcher, [])

/-! ## The launcher as a machine -/

/-- What can happen to the launcher. -/
inductive Event
  | callback (callback : Callback)
  /-- The enter timer expires, if it runs. -/
  | enterTimer (allocated : Bool) (during : List Callback)
  /-- The launch timer expires, if it runs. -/
  | launchTimer (during : List Callback)

/-- The launcher; each event gives the calls that start or stop a role. -/
def roleLauncher : Machine Launcher Event (List External) where
  step launcher event :=
    match event with
    | .callback callback => (runCallback launcher callback, [])
    | .enterTimer allocated during =>
        if launcher.enterTimer then
          rlEnterHandler allocated during { launcher with enterTimer := false }
        else
          (launcher, [])
    | .launchTimer during =>
        if launcher.rlTimer then
          rlLaunchHandler during { launcher with rlTimer := false }
        else
          (launcher, [])

end BdkFreertos.RoleLaunch
