import BdkFreertos.RoleLaunch
import Mathlib.Logic.Function.Basic

/-!
# What the launcher's handlers do to its queue

The queue of the launcher is four slots, two for each role, with a tag, a timer and a heap.
Callbacks do not touch it.  The relations below say what entering and launching a request may do to
it; every event of the launcher is one of them, as long as the slots own their requests.
-/

namespace BdkFreertos.RoleLaunch

/-- The slots, the tag, the launch timer and the heap. -/
structure Core where
  previous : Role → Option ℕ
  following : Role → Option ℕ
  tag : PreEntity
  timer : Bool
  heap : Arena RlEntity

/-- The queue of a launcher. -/
def Launcher.core (launcher : Launcher) : Core where
  previous := launcher.previous
  following := launcher.following
  tag := launcher.preEntityType
  timer := launcher.rlTimer
  heap := launcher.heap

/-- The tag of a role. -/
def PreEntity.ofRole : Role → PreEntity
  | .sta => .sta
  | .ap => .ap

namespace Core

def setPrevious (core : Core) (entity : Option ℕ) (role : Role) : Core :=
  { core with previous := Function.update core.previous role entity }

def setFollowing (core : Core) (entity : Option ℕ) (role : Role) : Core :=
  { core with following := Function.update core.following role entity }

def free (core : Core) (entity : ℕ) : Core :=
  { core with heap := core.heap.free entity }

def tagFrom (core : Core) (role : Role) : Core :=
  { core with tag := if core.tag = .idle then .ofRole role else core.tag }

@[simp]
theorem previous_setPrevious (core : Core) (entity : Option ℕ) (role : Role) :
    (core.setPrevious entity role).previous role = entity := by
  simp [setPrevious]

@[simp]
theorem following_setFollowing (core : Core) (entity : Option ℕ) (role : Role) :
    (core.setFollowing entity role).following role = entity := by
  simp [setFollowing]

/-- The requests the slots refer to. -/
def pointers (core : Core) : List ℕ :=
  (core.previous .sta).toList ++ (core.following .sta).toList ++ (core.previous .ap).toList ++
    (core.following .ap).toList

def Sound (core : Core) : Prop :=
  core.heap.Owned core.pointers

end Core

def RlEntity.ofReq (param : LaunchReq) : RlEntity := ⟨.asap, 0, 0, param⟩

/-- What entering a request may do. -/
inductive Enters (role : Role) (core : Core) : Core → Prop
  /-- It is started at once, as no request is in progress. -/
  | start (param : LaunchReq) (vacant : ∀ role, core.previous role = none) :
      Enters role core
        (({ core with heap := (core.heap.alloc (.ofReq param)).1 }.setPrevious
          (some (core.heap.alloc (.ofReq param)).2) role).tagFrom role)
  | park (param : LaunchReq) (vacant : core.following role = none) :
      Enters role core
        ({ { core with heap := (core.heap.alloc (.ofReq param)).1 }.setFollowing
          (some (core.heap.alloc (.ofReq param)).2) role with timer := true }.tagFrom role)
  | refuse : Enters role core { core with timer := true }

/-- What looking at a role may do, where `startable` tells whether a parked request is started
rather than dropped. -/
inductive Launches (role : Role) (startable : Bool) (core : Core) : Core → LaunchStatus → Prop
  /-- There is no request. -/
  | idle (vacant : core.previous role = none) (empty : core.following role = none) :
      Launches role startable core core .statusOver
  | start {entity : ℕ} (vacant : core.previous role = none)
      (parked : core.following role = some entity) (allowed : startable = true) :
      Launches role startable core ((core.setFollowing none role).setPrevious (some entity) role)
        .statusCont
  | drop {entity : ℕ} (vacant : core.previous role = none)
      (parked : core.following role = some entity) (refused : startable = false) :
      Launches role startable core ((core.setFollowing none role).free entity) .statusOver
  | wait {current : ℕ} (running : core.previous role = some current) :
      Launches role startable core core .statusCont
  | replace {current entity : ℕ} (running : core.previous role = some current)
      (parked : core.following role = some entity) :
      Launches role startable core
        (((core.free current).setFollowing none role).setPrevious (some entity) role) .statusCont
  /-- The request in progress is over and there is no other. -/
  | finish {current : ℕ} (running : core.previous role = some current)
      (empty : core.following role = none) :
      Launches role startable core ((core.free current).setPrevious none role) .statusOver
  /-- The request in progress is over and the parked one is dropped. -/
  | abandon {current entity : ℕ} (running : core.previous role = some current)
      (parked : core.following role = some entity) :
      Launches role startable core
        ((((core.free current).setFollowing none role).free entity).setPrevious none role) .statusOver

/-! ## Callbacks leave the queue -/

variable {role : Role} {entity : ℕ} {value : RlEntity} (during : List Callback)
  (launcher : Launcher) (bits : UInt32) (param : LaunchReq)

@[simp]
theorem core_setStatusBits : (launcher.setStatusBits bits).core = launcher.core := rfl

@[simp]
theorem core_clearStatusBits : (launcher.clearStatusBits bits).core = launcher.core := rfl

@[simp]
theorem core_rlPreStaInit : (rlPreStaInit launcher).core = launcher.core := rfl

@[simp]
theorem core_rlPreApInit : (rlPreApInit launcher).core = launcher.core := rfl

@[simp]
theorem core_setPrevious (entity : Option ℕ) (role : Role) :
    (launcher.setPrevious entity role).core = launcher.core.setPrevious entity role := by
  have slots : (launcher.setPrevious entity role).previous =
      Function.update launcher.previous role entity := by
    funext other
    cases role <;> cases other <;> rfl
  cases role <;> simp only [Launcher.core, Core.setPrevious, ← slots] <;> rfl

@[simp]
theorem core_setFollowing (entity : Option ℕ) (role : Role) :
    (launcher.setFollowing entity role).core = launcher.core.setFollowing entity role := by
  have slots : (launcher.setFollowing entity role).following =
      Function.update launcher.following role entity := by
    funext other
    cases role <;> cases other <;> rfl
  cases role <;> simp only [Launcher.core, Core.setFollowing, ← slots] <;> rfl

@[simp]
theorem core_tagFrom (role : Role) : (launcher.tagFrom role).core = launcher.core.tagFrom role := by
  cases role <;> rfl

@[simp]
theorem core_rlFreeEntity (entity : ℕ) :
    (rlFreeEntity launcher entity).core = launcher.core.free entity := rfl

@[simp]
theorem core_rlStart : (rlStart launcher).core = { launcher.core with timer := true } := rfl

@[simp]
theorem core_runCallback (callback : Callback) :
    (runCallback launcher callback).core = launcher.core := by
  cases callback
  case preStaSetStatus status =>
    simp only [runCallback, rlPreStaSetStatus]
    split_ifs <;> rfl
  case setCsaSwitching =>
    simp only [runCallback, rlSetCsaSwitching]
    split_ifs <;> rfl
  case statusSetPause enable =>
    simp only [runCallback]
    split_ifs <;> rfl
  case staCacheRequestEnter monitorMode =>
    simp only [runCallback, rlStaCacheRequestEnter]
    split <;> split_ifs <;> rfl
  all_goals rfl

@[simp]
theorem core_runCallbacks (during : List Callback) :
    (runCallbacks launcher during).core = launcher.core := by
  induction during generalizing launcher with
  | nil => rfl
  | cons callback during induction =>
      exact (induction (runCallback launcher callback)).trans (core_runCallback launcher callback)

@[simp]
theorem core_requestStart (req : LaunchReq) (role : Role) :
    (requestStart during launcher req role).1.core = launcher.core := by
  cases role
  case sta => rcases type : req.reqType <;> simp [requestStart, rlStaRequestStart, type]
  case ap => rcases type : req.reqType <;> simp [requestStart, rlApRequestStart, type]

/-! ## Entering -/

@[simp]
theorem core_rlAllocEntity :
    (rlAllocEntity launcher param).1.core =
      { launcher.core with heap := (launcher.core.heap.alloc (.ofReq param)).1 } := rfl

theorem enters_requestEnter (role : Role) (during : List Callback) (launcher : Launcher)
    (param : LaunchReq) :
    Enters role launcher.core (requestEnter role during launcher param).1.core := by
  rw [requestEnter]
  split
  · rename_i free
    have vacant : ∀ role, launcher.core.previous role = none := by
      intro role
      cases role
      · exact free.2.1
      · exact free.1
    have enters : Enters role launcher.core _ := .start param vacant
    simp only [core_tagFrom, core_requestStart, core_setPrevious, core_rlAllocEntity]
    exact enters
  · split
    · rename_i free
      have enters : Enters role launcher.core _ := .park param free.1
      simp only [core_tagFrom, core_rlStart, core_setFollowing, core_rlAllocEntity]
      exact enters
    · exact .refuse

/-- The enter handler enters a station request, an access-point request, both or none. -/
inductive EntersInTurn (core : Core) : Core → Prop
  | none : EntersInTurn core core
  | one {role : Role} {after : Core} (enters : Enters role core after) : EntersInTurn core after
  | both {middle after : Core} (sta : Enters .sta core middle) (ap : Enters .ap middle after) :
      EntersInTurn core after

theorem EntersInTurn.preserves {core after : Core} {invariant : Core → Prop}
    (enters : EntersInTurn core after)
    (entry : ∀ {role core after}, Enters role core after → invariant core → invariant after)
    (initially : invariant core) : invariant after := by
  cases enters with
  | none => exact initially
  | one enters => exact entry enters initially
  | both sta ap => exact entry ap (entry sta initially)

theorem enters_enterSta :
    Enters .sta launcher.core (enterSta during launcher (some param)).1.core :=
  enters_requestEnter .sta during (launcher.setStatusBits statusDoing) param

theorem enters_enterAp : Enters .ap launcher.core (enterAp during launcher (some param)).1.core :=
  enters_requestEnter .ap during launcher param

theorem entersInTurn_rlEnterHandler (allocated : Bool) (during : List Callback)
    (launcher : Launcher) :
    EntersInTurn launcher.core (rlEnterHandler allocated during launcher).1.core := by
  rw [rlEnterHandler]
  split
  · simp only
    split
    · exact .none
    · let pending :=
        { launcher with staSocket := none, apSocket := none }.setStatusBits statusPending
      rcases launcher.staSocket with _ | sta
      · rcases launcher.apSocket with _ | ap
        · exact .none
        · exact .one (enters_enterAp during pending ap)
      · rcases launcher.apSocket with _ | ap
        · exact .one (enters_enterSta during pending sta)
        · exact .both (enters_enterSta during pending sta)
            (enters_enterAp during (enterSta during pending (some sta)).1 ap)
  · exact .none

/-! ## Ownership -/

theorem count_pointers_setPrevious (core : Core) (entity : Option ℕ) (role : Role) (handle : ℕ) :
    (core.setPrevious entity role).pointers.count handle + (core.previous role).toList.count handle =
      core.pointers.count handle + entity.toList.count handle := by
  cases role <;> simp [Core.pointers, Core.setPrevious, List.count_append] <;> omega

theorem count_pointers_setFollowing (core : Core) (entity : Option ℕ) (role : Role) (handle : ℕ) :
    (core.setFollowing entity role).pointers.count handle +
        (core.following role).toList.count handle =
      core.pointers.count handle + entity.toList.count handle := by
  cases role <;> simp [Core.pointers, Core.setFollowing, List.count_append] <;> omega

variable {core : Core} {role : Role} {current entity : ℕ}

theorem Core.Sound.freePrevious (sound : core.Sound) (running : core.previous role = some current) :
    ((core.free current).setPrevious none role).Sound := by
  apply Arena.Owned.free
  apply sound.congr
  intro handle
  have account := count_pointers_setPrevious core none role handle
  rw [running] at account
  simp only [Option.toList_some, Option.toList_none, List.count_nil, List.count_singleton] at account
  rw [List.count_cons]
  exact account

theorem Core.Sound.freeFollowing (sound : core.Sound)
    (parked : core.following role = some entity) :
    ((core.setFollowing none role).free entity).Sound := by
  apply Arena.Owned.free
  apply sound.congr
  intro handle
  have account := count_pointers_setFollowing core none role handle
  rw [parked] at account
  simp only [Option.toList_some, Option.toList_none, List.count_nil, List.count_singleton] at account
  rw [List.count_cons]
  exact account

theorem Core.Sound.move (sound : core.Sound) (vacant : core.previous role = none)
    (parked : core.following role = some entity) :
    ((core.setFollowing none role).setPrevious (some entity) role).Sound := by
  apply sound.congr
  intro handle
  have cleared := count_pointers_setFollowing core none role handle
  have filled := count_pointers_setPrevious (core.setFollowing none role) (some entity) role handle
  rw [parked] at cleared
  rw [show (core.setFollowing none role).previous role = none from vacant] at filled
  simp only [Option.toList_none, List.count_nil] at cleared filled
  omega

/-! ## Launching -/

theorem mem_pointers_previous {core : Core} (running : core.previous role = some entity) :
    entity ∈ core.pointers := by
  cases role <;> simp [Core.pointers, running]

theorem mem_pointers_following {core : Core} (parked : core.following role = some entity) :
    entity ∈ core.pointers := by
  cases role <;> simp [Core.pointers, parked]

theorem readEntity_of_read {launcher : Launcher}
    (read : launcher.heap.read entity = (launcher.heap, some value)) :
    launcher.readEntity entity = (launcher, some value) := by
  rw [Launcher.readEntity, read]

theorem readEntity_started {launcher : Launcher} (role : Role)
    (read : launcher.heap.read entity = (launcher.heap, some value)) :
    ((launcher.setStatusBits statusDoing).setPrevious (some entity) role).readEntity entity =
      ((launcher.setStatusBits statusDoing).setPrevious (some entity) role, some value) := by
  apply readEntity_of_read
  cases role <;> exact read

theorem core_startEntity {launcher : Launcher} (role : Role) (during : List Callback)
    (read : launcher.heap.read entity = (launcher.heap, some value)) :
    (startEntity role during launcher entity).1.core =
      launcher.core.setPrevious (some entity) role := by
  simp only [startEntity, readEntity_started role read]
  cases role <;> simp

/-- Every queued request is to be launched as soon as possible and without a limit. -/
def Core.Uniform (core : Core) : Prop :=
  ∀ value ∈ core.heap.allocated, value.launchType = .asap ∧ value.relaunchLimit = 0

/-- A launcher that differs from another one in its cancel flags only. -/
structure Cancels (before after : Launcher) : Prop where
  core : after.core = before.core
  rlStatus : after.rlStatus = before.rlStatus
  csaFlag : after.csaFlag = before.csaFlag

theorem cancels_setCancel (role : Role) (cancel : Bool) :
    Cancels launcher (if cancel then launcher.setCancel role else launcher) := by
  cases cancel <;> cases role <;> exact ⟨rfl, rfl, rfl⟩

theorem Cancels.trans {first second third : Launcher} (front : Cancels first second)
    (back : Cancels second third) : Cancels first third :=
  ⟨back.core.trans front.core, back.rlStatus.trans front.rlStatus,
    back.csaFlag.trans front.csaFlag⟩

theorem Cancels.readEntity {before after : Launcher} (cancels : Cancels before after)
    (read : before.heap.read entity = (before.heap, some value)) :
    after.readEntity entity = (after, some value) := by
  apply readEntity_of_read
  have heap_eq : after.heap = before.heap := congrArg Core.heap cancels.core
  rw [heap_eq, read]

theorem cancelPrevious_spec {launcher : Launcher} (sound : launcher.core.Sound)
    (running : launcher.core.previous role = some current) :
    Cancels launcher (cancelPrevious role launcher current).1 ∧
      (launcher.core.Uniform →
        (cancelPrevious role launcher current).2 = (launcher.core.following role).isSome) := by
  obtain ⟨value, read⟩ := Arena.Owned.read_eq sound (mem_pointers_previous running)
  have unlimited : launcher.core.Uniform → value.isExhausted = false := by
    intro uniform
    have limit := (uniform value (Arena.mem_of_read (congrArg Prod.snd read))).2
    simp [RlEntity.isExhausted, limit]
  have unchanged : Cancels launcher launcher := ⟨rfl, rfl, rfl⟩
  rcases parked : launcher.core.following role with _ | entity
  · have none_parked : launcher.following role = none := parked
    simp only [cancelPrevious, none_parked, Bool.false_eq_true, if_false,
      unchanged.readEntity read, Option.any_some, Bool.false_or]
    exact ⟨cancels_setCancel launcher role value.isExhausted, unlimited⟩
  · have one_parked : launcher.following role = some entity := parked
    obtain ⟨next, next_read⟩ := Arena.Owned.read_eq sound (mem_pointers_following parked)
    have due : launcher.core.Uniform → next.isAsap = true := by
      intro uniform
      have asap := (uniform next (Arena.mem_of_read (congrArg Prod.snd next_read))).1
      simp [RlEntity.isAsap, asap]
    have first := cancels_setCancel launcher role next.isAsap
    simp only [cancelPrevious, one_parked, unchanged.readEntity next_read, Option.any_some,
      first.readEntity read]
    refine ⟨first.trans (cancels_setCancel _ role value.isExhausted), ?_⟩
    intro uniform
    rw [due uniform]
    rfl

theorem mayStart_setFollowing (role : Role) :
    mayStart (launcher.setFollowing none role) role = mayStart launcher role := by
  cases role <;> rfl

theorem launches_launchParked {launcher : Launcher} (sound : launcher.core.Sound) (role : Role)
    (during : List Callback) (vacant : launcher.core.previous role = none) :
    Launches role (mayStart launcher role) launcher.core
      (launchParked role during launcher).1.core (launchParked role during launcher).2.2 := by
  rcases parked : launcher.core.following role with _ | entity
  · have none_parked : launcher.following role = none := parked
    simp only [launchParked, none_parked]
    exact .idle vacant parked
  · have one_parked : launcher.following role = some entity := parked
    simp only [launchParked, one_parked, mayStart_setFollowing]
    split
    · rename_i allowed
      obtain ⟨value, read⟩ := Arena.Owned.read_eq sound (mem_pointers_following parked)
      have read_now : (launcher.setFollowing none role).heap.read entity =
          ((launcher.setFollowing none role).heap, some value) := by
        cases role <;> exact read
      simp only [core_startEntity role during read_now, core_setFollowing]
      exact .start vacant parked allowed
    · rename_i refused
      simp only [core_rlFreeEntity, core_setFollowing]
      exact .drop vacant parked (Bool.not_eq_true _ ▸ refused)

/-- What becomes of the queue once the request in progress has been freed. -/
theorem core_launchNext {launcher : Launcher} (role : Role) (during : List Callback)
    (sound : (launcher.core.setPrevious none role).Sound) :
    (launcher.following role = none ∧
      (launchNext role during launcher).1.core =
        (launcher.core.setFollowing none role).setPrevious none role ∧
      (launchNext role during launcher).2.2 = .statusOver) ∨
    ∃ entity, launcher.following role = some entity ∧
      ((launchNext role during launcher).1.core =
          (launcher.core.setFollowing none role).setPrevious (some entity) role ∧
        (launchNext role during launcher).2.2 = .statusCont ∨
      (launchNext role during launcher).1.core =
          ((launcher.core.setFollowing none role).free entity).setPrevious none role ∧
        (launchNext role during launcher).2.2 = .statusOver) := by
  rcases parked : launcher.following role with _ | entity
  · refine Or.inl ⟨rfl, ?_⟩
    simp only [launchNext, parked]
    split <;> simp
  · refine Or.inr ⟨entity, rfl, ?_⟩
    simp only [launchNext, parked]
    split
    · obtain ⟨value, read⟩ := Arena.Owned.read_eq sound
        (mem_pointers_following (show (launcher.core.setPrevious none role).following role =
          some entity from parked))
      have read_now : (launcher.setFollowing none role).heap.read entity =
          ((launcher.setFollowing none role).heap, some value) := by
        cases role <;> exact read
      simp [core_startEntity role during read_now]
    · simp

theorem setFollowing_of_eq {core : Core} {entity : Option ℕ} (same : core.following role = entity) :
    core.setFollowing entity role = core := by
  rw [Core.setFollowing, ← same, Function.update_eq_self]

theorem launches_launch {launcher : Launcher} (sound : launcher.core.Sound) (role : Role)
    (during : List Callback) :
    Launches role (mayStart launcher role) launcher.core (launch role during launcher).1.core
      (launch role during launcher).2.2 := by
  rcases running : launcher.core.previous role with _ | current
  · have vacant : launcher.previous role = none := running
    simp only [launch, vacant]
    exact launches_launchParked sound role during running
  · have occupied : launcher.previous role = some current := running
    obtain ⟨cancels, -⟩ := cancelPrevious_spec sound running
    simp only [launch, occupied]
    generalize cancelPrevious role launcher current = cancelled at cancels ⊢
    split
    · have freed_core : (rlFreeEntity cancelled.1 current).core = launcher.core.free current := by
        rw [core_rlFreeEntity, cancels.core]
      have freed_sound := sound.freePrevious running
      rw [← freed_core] at freed_sound
      have following_eq : (rlFreeEntity cancelled.1 current).following role =
          launcher.core.following role := congrFun (congrArg Core.following freed_core) role
      rcases core_launchNext role during freed_sound with
        ⟨empty, core_eq, status_eq⟩ | ⟨entity, parked, ⟨core_eq, status_eq⟩ | ⟨core_eq, status_eq⟩⟩
      all_goals rw [core_eq, status_eq, freed_core]
      · have vacant : launcher.core.following role = none := following_eq.symm.trans empty
        rw [setFollowing_of_eq
          (show (launcher.core.free current).following role = none from vacant)]
        exact .finish running vacant
      · exact .replace running (following_eq.symm.trans parked)
      · exact .abandon running (following_eq.symm.trans parked)
    · rw [cancels.core]
      exact .wait running

/-! ## What a launch leaves behind -/

namespace Launches

variable {startable : Bool} {after : Core} {status : LaunchStatus}

section

variable (launches : Launches role startable core after status)
include launches

theorem sound (owned : core.Sound) : after.Sound := by
  cases launches with
  | idle vacant empty => exact owned
  | start vacant parked allowed => exact owned.move vacant parked
  | drop vacant parked refused => exact owned.freeFollowing parked
  | wait running => exact owned
  | replace running parked =>
      have moved := (owned.freePrevious running).move (Core.previous_setPrevious _ none role) parked
      simp only [Core.setPrevious, Core.setFollowing, Function.update_idem] at moved
      exact moved
  | finish running empty => exact owned.freePrevious running
  | abandon running parked =>
      exact (owned.freePrevious running).freeFollowing parked

theorem allocated_eq : after.heap.allocated = core.heap.allocated := by
  cases launches <;> rfl

theorem tag_eq : after.tag = core.tag := by
  cases launches <;> rfl

theorem other_eq {other : Role} (different : other ≠ role) :
    after.previous other = core.previous other ∧ after.following other = core.following other := by
  cases launches <;>
    simp [Core.setPrevious, Core.setFollowing, Core.free, Function.update_of_ne different]

end

theorem vacant_of_over (launches : Launches role startable core after .statusOver) :
    after.previous role = none ∧ after.following role = none := by
  cases launches with
  | idle vacant empty => exact ⟨vacant, empty⟩
  | drop vacant parked refused => exact ⟨vacant, Core.following_setFollowing core none role⟩
  | finish running empty => exact ⟨Core.previous_setPrevious _ none role, empty⟩
  | abandon running parked =>
      exact ⟨Core.previous_setPrevious _ none role, Core.following_setFollowing _ none role⟩

end Launches

/-- What the launch handler may do: the role of the tag comes first, the other role has its turn
when the first is over, and the timer runs again unless both are over. -/
inductive LaunchesInTurn (startable : Role → Bool) (core : Core) : Core → Prop
  | idle (tag : core.tag = .idle) : LaunchesInTurn startable core core
  | first {role : Role} {after : Core} (tag : core.tag = .ofRole role)
      (launches : Launches role (startable role) core after .statusCont) :
      LaunchesInTurn startable core { after with timer := true }
  | second {role : Role} {middle after : Core} {allowed : Bool} (tag : core.tag = .ofRole role)
      (finished : Launches role (startable role) core middle .statusOver)
      (launches : Launches role.other allowed { middle with tag := .ofRole role.other } after
        .statusCont) :
      LaunchesInTurn startable core { after with timer := true }
  | neither {role : Role} {middle after : Core} {allowed : Bool} (tag : core.tag = .ofRole role)
      (finished : Launches role (startable role) core middle .statusOver)
      (launches : Launches role.other allowed { middle with tag := .ofRole role.other } after
        .statusOver) :
      LaunchesInTurn startable core after

/-- Look at one role and, when it is over, at the other one. -/
def launchInTurn (role : Role) (during : List Callback) (launcher : Launcher) :
    Launcher × List External :=
  let (launcher, calls, ret) := launch role during launcher
  if ret = .statusOver then
    let launcher := { launcher with preEntityType := .ofRole role.other }
    let (launcher, otherCalls, otherRet) := launch role.other during launcher
    (if otherRet = .statusOver then launcher else rlRelaunchChance launcher, calls ++ otherCalls)
  else
    (rlRelaunchChance launcher, calls)

theorem rlLaunchHandler_eq (tag : launcher.preEntityType = .ofRole role) :
    rlLaunchHandler during launcher = launchInTurn role during launcher := by
  cases role <;> simp only [rlLaunchHandler, tag, PreEntity.ofRole] <;> rfl

theorem launchesInTurn_launchInTurn {launcher : Launcher} (owned : launcher.core.Sound)
    (during : List Callback) (tag : launcher.preEntityType = .ofRole role) :
    LaunchesInTurn (mayStart launcher) launcher.core
      (launchInTurn role during launcher).1.core := by
  have front := launches_launch owned role during
  simp only [launchInTurn]
  generalize launch role during launcher = result at front ⊢
  obtain ⟨middle, calls, status⟩ := result
  cases status with
  | statusCont => exact .first tag front
  | statusOver =>
      have middle_owned : { middle with preEntityType := .ofRole role.other }.core.Sound :=
        front.sound owned
      have back := launches_launch middle_owned role.other during
      simp only [if_true]
      generalize launch role.other during { middle with preEntityType := .ofRole role.other } =
        result at back ⊢
      obtain ⟨after, otherCalls, status⟩ := result
      cases status with
      | statusCont => exact .second tag front back
      | statusOver => exact .neither tag front back

theorem launchesInTurn_rlLaunchHandler {launcher : Launcher} (owned : launcher.core.Sound)
    (during : List Callback) :
    LaunchesInTurn (mayStart launcher) launcher.core
      (rlLaunchHandler during launcher).1.core := by
  have in_turn : ∀ role, launcher.preEntityType = .ofRole role →
      LaunchesInTurn (mayStart launcher) launcher.core
        (rlLaunchHandler during launcher).1.core := by
    intro role tag
    rw [rlLaunchHandler_eq during launcher tag]
    exact launchesInTurn_launchInTurn owned during tag
  rcases tag : launcher.preEntityType with _ | _ | _
  · rw [rlLaunchHandler, tag]
    exact .idle tag
  · exact in_turn .sta tag
  · exact in_turn .ap tag

/-! ## Events -/

/-- What an event may do to the queue. -/
inductive QueueStep (startable : Role → Bool) (core : Core) : Core → Prop
  | enter {after : Core} (enters : EntersInTurn core after) : QueueStep startable core after
  | launch {after : Core} (armed : core.timer = true)
      (launches : LaunchesInTurn startable { core with timer := false } after) :
      QueueStep startable core after

theorem queueStep_step {launcher : Launcher} (owned : launcher.core.Sound) (event : Event) :
    QueueStep (mayStart launcher) launcher.core (roleLauncher.step launcher event).1.core := by
  cases event with
  | callback callback =>
      simp only [roleLauncher, core_runCallback]
      exact .enter .none
  | enterTimer allocated during =>
      simp only [roleLauncher]
      split
      · exact .enter (entersInTurn_rlEnterHandler allocated during
          { launcher with enterTimer := false })
      · exact .enter .none
  | launchTimer during =>
      simp only [roleLauncher]
      split
      · rename_i armed
        have stopped_owned : { launcher with rlTimer := false }.core.Sound := owned
        exact .launch armed (launchesInTurn_rlLaunchHandler stopped_owned during)
      · exact .enter .none

end BdkFreertos.RoleLaunch
