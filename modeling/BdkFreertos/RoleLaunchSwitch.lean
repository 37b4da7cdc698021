import BdkFreertos.ByteOrder
import BdkFreertos.RoleLaunchInvariants

/-!
# Launching during a channel switch

The test for a channel switch sits in the two predicates that decide whether a request in progress
gives way.  A request that finds its role idle does not come by them: the enter handler starts it at
once, and so does the launch handler when it was parked.
-/

namespace BdkFreertos.RoleLaunch

/-! ## Status words -/

variable {bits mask : UInt32} (during : List Callback) (role : Role) (word : UInt32)
  (launcher : Launcher) (param : LaunchReq)

theorem or_and_of_apart (apart : bits &&& mask = 0) : (word ||| bits) &&& mask = word &&& mask := by
  apply eq_of_bits
  intro bit inside
  have clear : (bits &&& mask).toBitVec.getLsbD bit = false := by
    rw [apart]
    exact BitVec.getLsbD_zero
  simp only [UInt32.toBitVec_and, UInt32.toBitVec_or, BitVec.getLsbD_and, BitVec.getLsbD_or]
    at clear ⊢
  rw [Bool.and_or_distrib_right, clear, Bool.or_false]

theorem andNot_and_of_apart (apart : bits &&& mask = 0) :
    (word &&& ~~~bits) &&& mask = word &&& mask := by
  apply eq_of_bits
  intro bit inside
  have clear : (bits &&& mask).toBitVec.getLsbD bit = false := by
    rw [apart]
    exact BitVec.getLsbD_zero
  simp only [UInt32.toBitVec_and, UInt32.toBitVec_not, BitVec.getLsbD_and, BitVec.getLsbD_not]
    at clear ⊢
  cases set : bits.toBitVec.getLsbD bit with
  | true =>
      rw [set, Bool.true_and] at clear
      rw [clear, Bool.and_false, Bool.and_false]
  | false => simp [inside]

/-- Two launchers that are paused and held back alike. -/
structure SameGates (before after : Launcher) : Prop where
  pause : after.rlStatus &&& statusPause = before.rlStatus &&& statusPause
  staState : after.rlStatus &&& staStateMask = before.rlStatus &&& staStateMask

namespace SameGates

variable {before after : Launcher}

theorem paused_eq (same : SameGates before after) : after.paused = before.paused := by
  rw [Launcher.paused, Launcher.paused, same.pause]

theorem hold_eq (same : SameGates before after) (role : Role) :
    after.hold role = before.hold role := by
  cases role
  · rw [Launcher.hold, Launcher.hold, Launcher.staHold, Launcher.staHold, same.staState]
  · rfl

theorem mayStart_eq (same : SameGates before after) (role : Role) :
    mayStart after role = mayStart before role := by
  rw [mayStart, mayStart, same.paused_eq, same.hold_eq]

theorem setStatusBits (launcher : Launcher) {bits : UInt32} (pause : bits &&& statusPause = 0)
    (staState : bits &&& staStateMask = 0) : SameGates launcher (launcher.setStatusBits bits) :=
  ⟨or_and_of_apart _ pause, or_and_of_apart _ staState⟩

theorem trans {middle : Launcher} (front : SameGates before middle)
    (back : SameGates middle after) : SameGates before after :=
  ⟨back.pause.trans front.pause, back.staState.trans front.staState⟩

end SameGates

/-! ## Requests that start a role -/

/-- Whether a role carries a request of this type out by starting. -/
def LaunchReqType.startsRole : Role → LaunchReqType → Bool
  | .sta, .sta | .sta, .pureStaScan | .ap, .ap => true
  | _, _ => false

def startsAny (calls : List External) : Bool := calls.any External.startsRole

theorem startsAny_append (front back : List External) :
    startsAny (front ++ back) = (startsAny front || startsAny back) := List.any_append

theorem startsAny_requestStart (req : LaunchReq) (role : Role) :
    startsAny (requestStart during launcher req role).2 = req.reqType.startsRole role := by
  cases role
  case sta => rcases type : req.reqType <;> simp only [requestStart, rlStaRequestStart, type] <;> rfl
  case ap => rcases type : req.reqType <;> simp only [requestStart, rlApRequestStart, type] <;> rfl

/-! ## Entering -/

def Core.Vacant (core : Core) : Prop := ∀ role, core.previous role = none

theorem vacant_iff :
    launcher.core.Vacant ↔ launcher.jlPreviousAp = none ∧ launcher.jlPreviousSta = none := by
  constructor
  · intro vacant
    exact ⟨vacant .ap, vacant .sta⟩
  · rintro ⟨ap, sta⟩ role
    cases role
    · exact sta
    · exact ap

theorem startsAny_requestEnter (during : List Callback) (launcher : Launcher) (param : LaunchReq) :
    startsAny (requestEnter role during launcher param).2.1 = true ↔
      launcher.core.Vacant ∧ launcher.hold role = false ∧
        param.reqType.startsRole role = true := by
  rw [vacant_iff, and_assoc]
  rw [requestEnter]
  split
  · rename_i free
    simp [startsAny_requestStart, free]
  · rename_i occupied
    have blocked : ¬(launcher.jlPreviousAp = none ∧ launcher.jlPreviousSta = none ∧
        launcher.hold role = false ∧ param.reqType.startsRole role = true) := by
      rintro ⟨ap, sta, free, -⟩
      exact occupied ⟨ap, sta, free⟩
    simp only [blocked, iff_false]
    split <;> exact Bool.false_ne_true

theorem vacant_requestEnter_iff (during : List Callback) (launcher : Launcher) (param : LaunchReq) :
    (requestEnter role during launcher param).1.core.Vacant ↔
      launcher.core.Vacant ∧ launcher.hold role = true := by
  rw [requestEnter]
  split
  · rename_i free
    simp only [core_tagFrom, core_requestStart, core_setPrevious, free.2.2, Bool.false_eq_true,
      and_false, iff_false]
    intro vacant
    have started := vacant role
    simp [Core.tagFrom] at started
  · rename_i occupied
    have held : launcher.core.Vacant → launcher.hold role = true := by
      intro vacant
      obtain ⟨ap, sta⟩ := (vacant_iff launcher).mp vacant
      by_contra free
      exact occupied ⟨ap, sta, Bool.not_eq_true _ ▸ free⟩
    have same : launcher.core.Vacant ↔ launcher.core.Vacant ∧ launcher.hold role = true :=
      ⟨fun vacant => ⟨vacant, held vacant⟩, And.left⟩
    split
    · simp only [core_tagFrom, core_rlStart, core_setFollowing, core_rlAllocEntity]
      exact same
    · exact same

/-- The request the enter handler takes up first: the station's, unless it is held back. -/
def firstRequest (held : Bool) : Option LaunchReq → Option LaunchReq → Option (Role × LaunchReq)
  | some sta, ap => if held then ap.map (Prod.mk .ap) else some (.sta, sta)
  | none, ap => ap.map (Prod.mk .ap)

/-- The enter handler starts a role at once. -/
def StartsAtOnce (launcher : Launcher) : Prop :=
  launcher.paused = false ∧ launcher.jlPreviousAp = none ∧ launcher.jlPreviousSta = none ∧
    ∃ role param,
      firstRequest launcher.staHold launcher.staSocket launcher.apSocket = some (role, param) ∧
        param.reqType.startsRole role = true

theorem hold_setStatusDoing :
    (launcher.setStatusBits statusDoing).hold .sta = launcher.staHold := by
  have gates : SameGates launcher (launcher.setStatusBits statusDoing) :=
    .setStatusBits launcher (by decide) (by decide)
  exact gates.hold_eq .sta

theorem startsAny_enterSta :
    startsAny (enterSta during launcher (some param)).2 = true ↔
      launcher.core.Vacant ∧ launcher.staHold = false ∧
        param.reqType.startsRole .sta = true := by
  rw [← hold_setStatusDoing]
  exact startsAny_requestEnter .sta during (launcher.setStatusBits statusDoing) param

theorem vacant_enterSta_iff :
    (enterSta during launcher (some param)).1.core.Vacant ↔
      launcher.core.Vacant ∧ launcher.staHold = true := by
  rw [← hold_setStatusDoing]
  exact vacant_requestEnter_iff .sta during (launcher.setStatusBits statusDoing) param

theorem startsAny_enterAp (socket : Option LaunchReq) :
    startsAny (enterAp during launcher socket).2 = true ↔
      launcher.core.Vacant ∧
        ∃ param, socket = some param ∧ param.reqType.startsRole .ap = true := by
  rcases socket with _ | param
  · simp [enterAp, startsAny]
  · have starts := startsAny_requestEnter .ap during launcher param
    simp only [Launcher.hold, true_and] at starts
    simp only [Option.some.injEq, exists_eq_left']
    exact starts

theorem startsAny_enterBoth_iff (sta ap : Option LaunchReq) :
    startsAny ((enterSta during launcher sta).2 ++
        (enterAp during (enterSta during launcher sta).1 ap).2) = true ↔
      launcher.core.Vacant ∧
        ∃ role param, firstRequest launcher.staHold sta ap = some (role, param) ∧
          param.reqType.startsRole role = true := by
  -- Only the access point's request counts when the station has none or is held back.
  have ap_only : (∃ role param, ap.map (Prod.mk Role.ap) = some (role, param) ∧
        param.reqType.startsRole role = true) ↔
      ∃ param, ap = some param ∧ param.reqType.startsRole .ap = true := by
    rcases ap with _ | ap <;> simp
  rw [startsAny_append, Bool.or_eq_true, startsAny_enterAp]
  rcases sta with _ | sta
  · simp only [enterSta, firstRequest, ap_only]
    exact or_iff_right Bool.false_ne_true
  · rw [startsAny_enterSta, vacant_enterSta_iff]
    cases held : launcher.staHold with
    | true =>
        simp [firstRequest]
    | false => simp [firstRequest]

theorem startsAny_rlEnterHandler_iff :
    startsAny (rlEnterHandler true during launcher).2 = true ↔ StartsAtOnce launcher := by
  let emptied := { launcher with staSocket := none, apSocket := none }
  have gates : SameGates emptied (emptied.setStatusBits statusPending) :=
    .setStatusBits emptied (by decide) (by decide)
  have both := startsAny_enterBoth_iff during (emptied.setStatusBits statusPending)
    launcher.staSocket launcher.apSocket
  rw [show (emptied.setStatusBits statusPending).staHold = launcher.staHold from
    gates.hold_eq .sta] at both
  have paused_eq : emptied.paused = launcher.paused := rfl
  cases paused : launcher.paused with
  | true =>
      simp only [rlEnterHandler, if_true, StartsAtOnce, paused, Bool.true_eq_false, false_and,
        iff_false]
      rw [if_pos (paused_eq.trans paused)]
      exact Bool.false_ne_true
  | false =>
      simp only [rlEnterHandler, if_true, StartsAtOnce, paused, true_and]
      rw [if_neg (by rw [paused_eq.trans paused]; exact Bool.false_ne_true), ← and_assoc,
        ← vacant_iff]
      exact both

/-! ## Launching -/

/-- Looking at a role starts its parked request without asking for the channel switch. -/
def StartsParked (launcher : Launcher) (role : Role) : Prop :=
  launcher.previous role = none ∧ mayStart launcher role = true ∧
    ∃ entity value, launcher.following role = some entity ∧
      launcher.heap.allocated[entity]? = some value ∧
        value.rlaunch.reqType.startsRole role = true

/-- Looking at a role during a channel switch finds it over: it has no request to start, or it is an
access point whose request in progress is not to give way to another one. -/
def FindsOver (launcher : Launcher) (role : Role) : Prop :=
  launcher.previous role = none ∧
      (launcher.following role = none ∨ mayStart launcher role = false) ∨
    role = .ap ∧ launcher.previous role ≠ none ∧ launcher.following role = none

/-- What looking at a role amounts to during a channel switch. -/
structure SwitchingLaunch (role : Role) (launcher : Launcher)
    (result : Launcher × List External × LaunchStatus) : Prop where
  starts_iff : startsAny result.2.1 = true ↔ StartsParked launcher role
  over_iff : result.2.2 = .statusOver ↔ FindsOver launcher role
  gates : result.2.2 = .statusOver → SameGates launcher result.1
  csaFlag : result.2.2 = .statusOver → result.1.csaFlag = launcher.csaFlag

theorem startsAny_startEntity {launcher : Launcher} (during : List Callback) {entity : ℕ}
    {value : RlEntity} (read : launcher.heap.read entity = (launcher.heap, some value)) :
    startsAny (startEntity role during launcher entity).2 =
      value.rlaunch.reqType.startsRole role := by
  simp only [startEntity, readEntity_started role read]
  exact startsAny_requestStart _ _ _ role

theorem switchingLaunch_launchParked {launcher : Launcher} (owned : launcher.core.Sound)
    (role : Role) (during : List Callback) (vacant : launcher.previous role = none) :
    SwitchingLaunch role launcher (launchParked role during launcher) := by
  rcases parked : launcher.following role with _ | entity
  · simp only [launchParked, parked]
    constructor
    · simp [startsAny, StartsParked, parked]
    · simp [FindsOver, vacant, parked]
    · exact fun _ => ⟨rfl, rfl⟩
    · exact fun _ => rfl
  · obtain ⟨value, read⟩ := Arena.Owned.read_eq owned (mem_pointers_following parked)
    have read_now : (launcher.setFollowing none role).heap.read entity =
        ((launcher.setFollowing none role).heap, some value) := by
      cases role <;> exact read
    have stored : launcher.heap.allocated[entity]? = some value :=
      Arena.getElem?_of_read (congrArg Prod.snd read)
    simp only [launchParked, parked, mayStart_setFollowing]
    cases allowed : mayStart launcher role with
    | true =>
        simp only [if_true]
        constructor
        · simp [startsAny_startEntity role during read_now, StartsParked, vacant, allowed, parked,
            stored]
        · simp [FindsOver, vacant, allowed, parked]
        · intro is_over
          contradiction
        · intro is_over
          contradiction
    | false =>
        simp only [Bool.false_eq_true, if_false]
        constructor
        · simp [startsAny, StartsParked, allowed]
        · simp [FindsOver, vacant, allowed]
        · intro _
          cases role <;> exact ⟨rfl, rfl⟩
        · intro _
          cases role <;> rfl

theorem mayNextLaunch_of_switching {launcher : Launcher}
    (switching : launcher.csaFlag = channelSwitching) (preCancel : Bool) (role : Role) :
    mayNextLaunch launcher preCancel role = true ↔ role = .ap ∧ preCancel = false := by
  cases role <;> cases preCancel <;>
    simp [mayNextLaunch, rlStaMayNextLaunch, rlApMayNextLaunch, switching]

theorem launchNext_of_empty {launcher : Launcher} {role : Role}
    (empty : launcher.following role = none) :
    (launchNext role during launcher).2 = ([], .statusOver) ∧
      SameGates launcher (launchNext role during launcher).1 ∧
        (launchNext role during launcher).1.csaFlag = launcher.csaFlag := by
  simp only [launchNext, empty]
  split
  · refine ⟨rfl, ?_, ?_⟩
    · have unchanged : ∀ mask, statusDoing &&& mask = 0 →
          ((launcher.rlStatus ||| statusDoing) &&& ~~~statusDoing) &&& mask =
            launcher.rlStatus &&& mask := by
        intro mask apart
        rw [andNot_and_of_apart _ apart, or_and_of_apart _ apart]
      cases role <;> exact ⟨unchanged _ (by decide), unchanged _ (by decide)⟩
    · cases role <;> rfl
  · refine ⟨rfl, ?_, ?_⟩
    · cases role <;> exact ⟨rfl, rfl⟩
    · cases role <;> rfl

theorem switchingLaunch_launch {launcher : Launcher} (owned : launcher.core.Sound)
    (uniform : launcher.core.Uniform) (switching : launcher.csaFlag = channelSwitching)
    (role : Role) (during : List Callback) :
    SwitchingLaunch role launcher (launch role during launcher) := by
  rcases running : launcher.previous role with _ | current
  · simp only [launch, running]
    exact switchingLaunch_launchParked owned role during running
  · obtain ⟨cancels, cancelled_iff⟩ := cancelPrevious_spec owned running
    have cancelled_eq := cancelled_iff uniform
    simp only [launch, running]
    generalize cancelPrevious role launcher current = cancelled at cancels cancelled_eq ⊢
    have still_switching : cancelled.1.csaFlag = channelSwitching :=
      cancels.csaFlag.trans switching
    have not_parked : ¬StartsParked launcher role := by
      rintro ⟨vacant, -⟩
      rw [running] at vacant
      contradiction
    split
    · rename_i next
      obtain ⟨rfl, not_cancelled⟩ := (mayNextLaunch_of_switching still_switching _ _).mp next
      have empty : launcher.following .ap = none := by
        rw [not_cancelled] at cancelled_eq
        exact Option.isNone_iff_eq_none.mp (Option.isSome_eq_false_iff.mp cancelled_eq.symm)
      have freed_empty : (rlFreeEntity cancelled.1 current).following .ap = none :=
        (congrFun (congrArg Core.following cancels.core) .ap).trans empty
      obtain ⟨result_eq, gates, csaFlag_eq⟩ := launchNext_of_empty during freed_empty
      have front : SameGates launcher (rlFreeEntity cancelled.1 current) := by
        constructor <;> rw [rlFreeEntity, cancels.rlStatus]
      constructor
      · rw [result_eq]
        exact iff_of_false Bool.false_ne_true not_parked
      · rw [result_eq]
        exact iff_of_true rfl (Or.inr ⟨rfl, by rw [running]; exact Option.some_ne_none current, empty⟩)
      · exact fun _ => front.trans gates
      · exact fun _ => csaFlag_eq.trans cancels.csaFlag
    · rename_i blocked
      rw [mayNextLaunch_of_switching still_switching, cancelled_eq] at blocked
      constructor
      · exact iff_of_false Bool.false_ne_true not_parked
      · refine iff_of_false (fun is_over => by contradiction) ?_
        rintro (⟨vacant, -⟩ | ⟨rfl, -, empty⟩)
        · rw [running] at vacant
          contradiction
        · exact blocked ⟨rfl, by rw [show launcher.core.following .ap = none from empty]; rfl⟩
      · intro is_over
        contradiction
      · intro is_over
        contradiction

/-- The launch handler starts the parked request of the role of the tag, or of the other role after
that one is over. -/
def StartsInTurn (launcher : Launcher) : Prop :=
  ∃ role, launcher.preEntityType = .ofRole role ∧
    (StartsParked launcher role ∨ FindsOver launcher role ∧ StartsParked launcher role.other)

theorem startsParked_congr {before after : Launcher} {role : Role} (gates : SameGates before after)
    (previous_eq : after.previous role = before.previous role)
    (following_eq : after.following role = before.following role)
    (allocated_eq : after.heap.allocated = before.heap.allocated) :
    StartsParked after role ↔ StartsParked before role := by
  rw [StartsParked, previous_eq, following_eq, allocated_eq, gates.mayStart_eq role]
  exact Iff.rfl

theorem startsAny_launchInTurn_iff {launcher : Launcher} (owned : launcher.core.Sound)
    (uniform : launcher.core.Uniform) (switching : launcher.csaFlag = channelSwitching)
    (during : List Callback) (role : Role) :
    startsAny (launchInTurn role during launcher).2 = true ↔
      StartsParked launcher role ∨
        FindsOver launcher role ∧ StartsParked launcher role.other := by
  have front := switchingLaunch_launch owned uniform switching role during
  have launches := launches_launch owned role during
  simp only [launchInTurn]
  generalize launch role during launcher = result at front launches ⊢
  obtain ⟨middle, calls, status⟩ := result
  cases status with
  | statusCont =>
      have not_over : ¬FindsOver launcher role := by
        intro finished
        have is_over := front.over_iff.mpr finished
        contradiction
      simp [reduceCtorEq, front.starts_iff, not_over]
  | statusOver =>
      have finished : FindsOver launcher role := front.over_iff.mp rfl
      let turned := { middle with preEntityType := .ofRole role.other }
      have turned_owned : turned.core.Sound := launches.sound owned
      have turned_uniform : turned.core.Uniform := by
        intro value member
        exact uniform value (launches.allocated_eq ▸ member)
      have back := switchingLaunch_launch turned_owned turned_uniform
        ((front.csaFlag rfl).trans switching) role.other during
      obtain ⟨previous_eq, following_eq⟩ := launches.other_eq role.other_ne
      have same : StartsParked turned role.other ↔ StartsParked launcher role.other := by
        have gates : SameGates launcher turned :=
          ⟨(front.gates rfl).pause, (front.gates rfl).staState⟩
        exact startsParked_congr gates previous_eq following_eq launches.allocated_eq
      simp only [if_true, startsAny_append, Bool.or_eq_true, finished, true_and]
      exact or_congr front.starts_iff (back.starts_iff.trans same)

theorem startsAny_rlLaunchHandler_iff {launcher : Launcher} (owned : launcher.core.Sound)
    (uniform : launcher.core.Uniform) (switching : launcher.csaFlag = channelSwitching)
    (during : List Callback) :
    startsAny (rlLaunchHandler during launcher).2 = true ↔ StartsInTurn launcher := by
  have in_turn : ∀ {role}, launcher.preEntityType = .ofRole role →
      (startsAny (rlLaunchHandler during launcher).2 = true ↔ StartsInTurn launcher) := by
    intro role tag
    rw [rlLaunchHandler_eq during launcher tag,
      startsAny_launchInTurn_iff owned uniform switching during role]
    constructor
    · intro starts
      exact ⟨role, tag, starts⟩
    · rintro ⟨other, other_tag, starts⟩
      rwa [PreEntity.ofRole_inj (tag.symm.trans other_tag)]
  rcases tag : launcher.preEntityType with _ | _ | _
  · rw [rlLaunchHandler, tag]
    refine iff_of_false Bool.false_ne_true ?_
    rintro ⟨role, role_tag, -⟩
    exact PreEntity.ofRole_ne_idle role (role_tag.symm.trans tag)
  · exact in_turn (show launcher.preEntityType = .ofRole .sta from tag)
  · exact in_turn (show launcher.preEntityType = .ofRole .ap from tag)

/-! ## Every queued request is due -/

theorem Enters.uniform {role : Role} {core after : Core} (enters : Enters role core after)
    (uniform : core.Uniform) : after.Uniform := by
  have alloc_uniform : ∀ param, ∀ value ∈ (core.heap.alloc (.ofReq param)).1.allocated,
      value.launchType = .asap ∧ value.relaunchLimit = 0 := by
    intro param value member
    rcases List.mem_append.mp member with old | new
    · exact uniform value old
    · rw [List.mem_singleton.mp new]
      exact ⟨rfl, rfl⟩
  cases enters with
  | start param vacant | park param vacant => exact alloc_uniform param
  | refuse => exact uniform

theorem LaunchesInTurn.allocated_eq {startable : Role → Bool} {core after : Core}
    (launches : LaunchesInTurn startable core after) :
    after.heap.allocated = core.heap.allocated := by
  cases launches with
  | idle tag => rfl
  | first tag launches => exact launches.allocated_eq
  | second tag finished launches | neither tag finished launches =>
      exact launches.allocated_eq.trans finished.allocated_eq

theorem QueueStep.uniform {startable : Role → Bool} {core after : Core}
    (step : QueueStep startable core after) (uniform : core.Uniform) : after.Uniform := by
  cases step with
  | enter enters => exact enters.preserves Enters.uniform uniform
  | launch armed launches =>
      intro value member
      exact uniform value (launches.allocated_eq ▸ member)

theorem uniform_run (events : List Event) : (roleLauncher.run rlInit events).core.Uniform := by
  have initial : rlInit.core.Uniform := fun value member => absurd member List.not_mem_nil
  exact (core_run_invariant initial QueueStep.uniform events).2

/-! ## Events -/

/-- An event whose handler starts a role without asking for the channel switch. -/
def BypassesSwitch (launcher : Launcher) : Event → Prop
  | .callback _ => False
  | .enterTimer allocated _ =>
      launcher.enterTimer = true ∧ allocated = true ∧ StartsAtOnce launcher
  | .launchTimer _ => launcher.rlTimer = true ∧ StartsInTurn launcher

theorem startsAny_step_iff {launcher : Launcher} (owned : launcher.core.Sound)
    (uniform : launcher.core.Uniform) (switching : launcher.csaFlag = channelSwitching)
    (event : Event) :
    startsAny (roleLauncher.step launcher event).2 = true ↔ BypassesSwitch launcher event := by
  cases event with
  | callback callback => exact iff_of_false Bool.false_ne_true id
  | enterTimer allocated during =>
      simp only [roleLauncher, BypassesSwitch]
      cases armed : launcher.enterTimer with
      | false => simp [startsAny]
      | true =>
          cases allocated with
          | false => simp [rlEnterHandler, startsAny]
          | true =>
              simp only [if_true, true_and]
              exact startsAny_rlEnterHandler_iff during { launcher with enterTimer := false }
  | launchTimer during =>
      simp only [roleLauncher, BypassesSwitch]
      cases armed : launcher.rlTimer with
      | false => simp [startsAny]
      | true =>
          simp only [if_true, true_and]
          have stopped_owned : { launcher with rlTimer := false }.core.Sound := owned
          have stopped_uniform : { launcher with rlTimer := false }.core.Uniform := uniform
          exact startsAny_rlLaunchHandler_iff stopped_owned stopped_uniform switching during

/-- In every reachable state with a channel switch going on, an event starts no role exactly when
its handler does not come by the test for the switch. -/
theorem switching_starts_nothing_iff (events : List Event) (event : Event)
    (switching : (roleLauncher.run rlInit events).csaFlag = channelSwitching) :
    (∀ call ∈ (roleLauncher.step (roleLauncher.run rlInit events) event).2,
      call.startsRole = false) ↔ ¬BypassesSwitch (roleLauncher.run rlInit events) event := by
  rw [← startsAny_step_iff (sound_run events) (uniform_run events) switching event]
  simp [startsAny]

/-- A station request parked behind another one waits for the end of the channel switch. -/
theorem switching_starts_nothing_parked_station :
    let events : List Event :=
      [.callback (.staRequestEnter ⟨1, .sta⟩), .enterTimer true [],
        .callback (.staRequestEnter ⟨2, .sta⟩), .enterTimer true [], .callback .setCsaSwitching]
    (roleLauncher.run rlInit events).csaFlag = channelSwitching ∧
      ∀ call ∈ (roleLauncher.step (roleLauncher.run rlInit events) (.launchTimer [])).2,
        call.startsRole = false := by
  intro events
  have switching : (roleLauncher.run rlInit events).csaFlag = channelSwitching := by decide
  refine ⟨switching, (switching_starts_nothing_iff events (.launchTimer []) switching).mpr ?_⟩
  have running : (roleLauncher.run rlInit events).previous .sta ≠ none := by decide
  rintro ⟨-, role, tag, starts⟩
  cases role with
  | sta =>
      rcases starts with ⟨vacant, -⟩ | ⟨⟨vacant, -⟩ | ⟨access, -⟩, -⟩
      · exact running vacant
      · exact running vacant
      · contradiction
  | ap => exact absurd tag (by decide)

/-- A request that finds the launcher idle is started during a channel switch. -/
theorem starts_during_channel_switch :
    let events : List Event :=
      [.callback .setCsaSwitching, .callback (.staRequestEnter ⟨1, .sta⟩)]
    (roleLauncher.run rlInit events).csaFlag = channelSwitching ∧
      ∃ call ∈ (roleLauncher.step (roleLauncher.run rlInit events) (.enterTimer true [])).2,
        call.startsRole = true := by
  decide

end BdkFreertos.RoleLaunch
