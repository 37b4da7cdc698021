import BdkFreertos.RoleLaunchCore

/-!
# Ownership, progress and exclusivity of launch requests

Three questions about every run of the launcher.  Its requests are owned: each one is in exactly one
slot until it is freed, once.  No parked request is forgotten, as the launch timer runs whenever one
is parked.  Two roles are in progress at once exactly when the launch handler looks first at a role
whose parked request it starts without asking for the other role.
-/

namespace BdkFreertos.RoleLaunch

variable {startable : Role → Bool} {core after : Core} {role : Role}

/-! ## Ownership -/

theorem Core.Sound.enter (owned : core.Sound) (value : RlEntity) {slots : Core}
    (heap_eq : slots.heap = (core.heap.alloc value).1)
    (account : ∀ handle, slots.pointers.count handle =
      core.pointers.count handle + [(core.heap.alloc value).2].count handle) : slots.Sound := by
  have allocated := Arena.Owned.alloc owned value
  rw [Core.Sound, heap_eq]
  apply allocated.congr
  intro handle
  rw [account handle, ← List.count_append]
  exact List.perm_append_comm.count_eq handle

theorem Enters.sound (enters : Enters role core after) (owned : core.Sound) : after.Sound := by
  cases enters with
  | start param vacant =>
      refine owned.enter (.ofReq param) rfl ?_
      intro handle
      have account :=
        count_pointers_setPrevious core (some (core.heap.alloc (.ofReq param)).2) role handle
      rw [vacant role] at account
      exact account
  | park param vacant =>
      refine owned.enter (.ofReq param) rfl ?_
      intro handle
      have account :=
        count_pointers_setFollowing core (some (core.heap.alloc (.ofReq param)).2) role handle
      rw [vacant] at account
      exact account
  | refuse => exact owned

theorem LaunchesInTurn.sound (launches : LaunchesInTurn startable core after)
    (owned : core.Sound) : after.Sound := by
  cases launches with
  | idle tag => exact owned
  | first tag launches => exact launches.sound owned
  | second tag finished launches | neither tag finished launches =>
      have middle_owned := finished.sound owned
      exact launches.sound middle_owned

theorem QueueStep.sound (step : QueueStep startable core after) (owned : core.Sound) :
    after.Sound := by
  cases step with
  | enter enters => exact enters.preserves Enters.sound owned
  | launch armed launches =>
      have stopped_owned : { core with timer := false }.Sound := owned
      exact launches.sound stopped_owned

theorem core_run_invariant {invariant : Core → Prop} (initial : invariant rlInit.core)
    (preserved : ∀ {startable core after}, QueueStep startable core after → invariant core →
      invariant after) (events : List Event) :
    (roleLauncher.run rlInit events).core.Sound ∧
      invariant (roleLauncher.run rlInit events).core := by
  have owned : rlInit.core.Sound := Arena.owned_empty
  refine roleLauncher.run_invariant_of_step
    (fun launcher => launcher.core.Sound ∧ invariant launcher.core) ⟨owned, initial⟩ ?_ events
  intro launcher event kept
  have step := queueStep_step kept.1 event
  exact ⟨step.sound kept.1, preserved step kept.2⟩

theorem sound_run (events : List Event) : (roleLauncher.run rlInit events).core.Sound :=
  (core_run_invariant Arena.owned_empty QueueStep.sound events).1

/-- In every reachable state the slots refer to distinct live requests, each request ever allocated
is in exactly one slot or has been freed exactly once, and no request was read or freed after it had
been freed. -/
theorem requests_owned_once (events : List Event) :
    let launcher := roleLauncher.run rlInit events
    launcher.core.pointers.Nodup ∧
      (∀ entity ∈ launcher.core.pointers, launcher.heap.Live entity) ∧
      (∀ entity < launcher.heap.allocated.length,
        (launcher.core.pointers.count entity = 1 ∧ entity ∉ launcher.heap.freed) ∨
          (entity ∉ launcher.core.pointers ∧ launcher.heap.freed.count entity = 1)) ∧
      launcher.heap.faults = [] := by
  intro launcher
  have owned : launcher.core.Sound := sound_run events
  refine ⟨owned.nodup, fun entity member => owned.live member, ?_, owned.sound⟩
  intro entity allocated
  have account := owned.once entity
  rw [if_pos (show entity < launcher.core.heap.allocated.length from allocated)] at account
  rcases Nat.eq_zero_or_pos (launcher.core.pointers.count entity) with absent | present
  · right
    rw [absent, Nat.zero_add] at account
    exact ⟨List.count_eq_zero.mp absent, account⟩
  · left
    have once : launcher.core.pointers.count entity = 1 := by omega
    have kept : launcher.core.heap.freed.count entity = 0 := by omega
    exact ⟨once, List.count_eq_zero.mp kept⟩

/-! ## Progress -/

/-- The launch timer runs when a request is parked, and the tag names a role by then. -/
structure Core.Awake (core : Core) : Prop where
  armed : ∀ role, core.following role ≠ none → core.timer = true
  tagged : ∀ role, core.following role ≠ none → core.tag ≠ .idle

theorem PreEntity.ofRole_ne_idle (role : Role) : PreEntity.ofRole role ≠ .idle := by
  cases role <;> simp [PreEntity.ofRole]

theorem Core.tagFrom_ne_idle (core : Core) (role : Role) : (core.tagFrom role).tag ≠ .idle := by
  rw [Core.tagFrom]
  split
  · exact PreEntity.ofRole_ne_idle role
  · assumption

theorem Enters.awake (enters : Enters role core after) (awake : core.Awake) : after.Awake := by
  cases enters with
  | start param vacant =>
      constructor
      · intro other parked
        exact awake.armed other parked
      · intro other parked
        exact Core.tagFrom_ne_idle _ role
  | park param vacant =>
      constructor
      · intro other parked
        rfl
      · intro other parked
        exact Core.tagFrom_ne_idle _ role
  | refuse =>
      constructor
      · intro other parked
        rfl
      · intro other parked
        exact awake.tagged other parked

theorem PreEntity.ofRole_inj {role other : Role} (same : PreEntity.ofRole role = .ofRole other) :
    role = other := by
  cases role <;> cases other <;> first | rfl | contradiction

theorem Role.other_ne (role : Role) : role.other ≠ role := by
  cases role <;> simp [Role.other]

theorem Role.eq_or_eq_other (role other : Role) : other = role ∨ other = role.other := by
  cases role <;> cases other <;> decide

theorem LaunchesInTurn.awake (launches : LaunchesInTurn startable core after)
    (tagged : ∀ role, core.following role ≠ none → core.tag ≠ .idle) : after.Awake := by
  cases launches with
  | idle tag =>
      have empty : ∀ role, core.following role = none := by
        intro role
        by_contra parked
        exact tagged role parked tag
      exact ⟨fun role parked => absurd (empty role) parked,
        fun role parked => absurd (empty role) parked⟩
  | first tag launches =>
      constructor
      · intro other parked
        rfl
      · intro other parked
        rw [launches.tag_eq, tag]
        exact PreEntity.ofRole_ne_idle _
  | second tag finished launches =>
      constructor
      · intro other parked
        rfl
      · intro other parked
        rw [launches.tag_eq]
        exact PreEntity.ofRole_ne_idle _
  | @neither role middle after allowed tag finished launches =>
      have empty : ∀ other, after.following other = none := by
        intro other
        rcases Role.eq_or_eq_other role other with rfl | rfl
        · rw [(launches.other_eq other.other_ne.symm).2]
          exact finished.vacant_of_over.2
        · exact launches.vacant_of_over.2
      exact ⟨fun role parked => absurd (empty role) parked,
        fun role parked => absurd (empty role) parked⟩

theorem QueueStep.awake (step : QueueStep startable core after) (awake : core.Awake) :
    after.Awake := by
  cases step with
  | enter enters => exact enters.preserves Enters.awake awake
  | launch armed launches => exact launches.awake awake.tagged

theorem awake_run (events : List Event) : (roleLauncher.run rlInit events).core.Awake := by
  have initial : rlInit.core.Awake := by
    constructor
    · intro role parked
      cases role <;> exact absurd rfl parked
    · intro role parked
      cases role <;> exact absurd rfl parked
  exact (core_run_invariant initial QueueStep.awake events).2

/-- In every reachable state in which a request is parked the launch timer runs. -/
theorem parked_request_has_timer (events : List Event) :
    let launcher := roleLauncher.run rlInit events
    launcher.jlFollowingSta ≠ none ∨ launcher.jlFollowingAp ≠ none → launcher.rlTimer = true := by
  intro launcher parked
  have awake : launcher.core.Awake := awake_run events
  rcases parked with sta | ap
  · exact awake.armed .sta sta
  · exact awake.armed .ap ap

/-- A station request is parked behind the access point's. -/
theorem parked_request_has_timer_station :
    let launcher := roleLauncher.run rlInit
      [.callback (.apRequestEnter ⟨1, .ap⟩), .enterTimer true [],
        .callback (.staRequestEnter ⟨2, .sta⟩), .enterTimer true []]
    launcher.jlFollowingSta ≠ none ∧ launcher.rlTimer = true := by
  have parked : (roleLauncher.run rlInit
      [.callback (.apRequestEnter ⟨1, .ap⟩), .enterTimer true [],
        .callback (.staRequestEnter ⟨2, .sta⟩), .enterTimer true []]).jlFollowingSta ≠ none := by
    decide
  exact ⟨parked, parked_request_has_timer _ (Or.inl parked)⟩

/-! ## Exclusivity -/

def Core.Exclusive (core : Core) : Prop :=
  core.previous .sta = none ∨ core.previous .ap = none

/-- The role of the tag has a parked request to start and none in progress, but the other role has
one in progress. -/
def Core.Overtakes (startable : Role → Bool) (core : Core) (role : Role) : Prop :=
  core.tag = .ofRole role ∧ core.previous role = none ∧ core.following role ≠ none ∧
    startable role = true ∧ core.previous role.other ≠ none

theorem Core.exclusive_iff (core : Core) (role : Role) :
    core.Exclusive ↔ core.previous role = none ∨ core.previous role.other = none := by
  cases role
  · exact Iff.rfl
  · exact or_comm

theorem Core.Exclusive.of_previous_eq (exclusive : core.Exclusive)
    (same : after.previous = core.previous) : after.Exclusive := by
  rw [Core.Exclusive, same]
  exact exclusive

theorem Enters.exclusive (enters : Enters role core after) (exclusive : core.Exclusive) :
    after.Exclusive := by
  cases enters with
  | start param vacant =>
      rw [Core.exclusive_iff _ role]
      right
      simp [Core.tagFrom, Core.setPrevious, Function.update_of_ne role.other_ne, vacant]
  | park param vacant => exact exclusive.of_previous_eq rfl
  | refuse => exact exclusive

theorem not_overtakes_iff (tag : core.tag = .ofRole role) :
    (∀ other, ¬core.Overtakes startable other) ↔ ¬core.Overtakes startable role := by
  constructor
  · intro never
    exact never role
  · intro first other overtakes
    have role_eq := PreEntity.ofRole_inj (tag.symm.trans overtakes.1)
    exact first (role_eq ▸ overtakes)

theorem Launches.exclusive_iff_of_cont
    (launches : Launches role (startable role) core after .statusCont)
    (tag : core.tag = .ofRole role) (exclusive : core.Exclusive) :
    after.Exclusive ↔ ¬core.Overtakes startable role := by
  have other_eq := (launches.other_eq role.other_ne).1
  rw [Core.exclusive_iff _ role] at exclusive ⊢
  rw [other_eq]
  cases launches with
  | start vacant parked allowed =>
      simp [Core.Overtakes, tag, vacant, parked, allowed]
  | wait running =>
      simp only [Core.Overtakes, running, reduceCtorEq, false_and, and_false, not_false_iff,
        iff_true]
      simpa [running] using exclusive
  | replace running parked =>
      simp only [Core.Overtakes, running, reduceCtorEq, false_and, and_false, not_false_iff,
        iff_true]
      right
      simpa [running] using exclusive

theorem Launches.not_overtakes_of_over
    (launches : Launches role (startable role) core after .statusOver) :
    ¬core.Overtakes startable role := by
  rintro ⟨-, vacant, parked, allowed, -⟩
  cases launches with
  | idle vacant empty => exact parked empty
  | drop vacant parked refused => simp [refused] at allowed
  | finish running empty | abandon running parked => simp [running] at vacant

theorem LaunchesInTurn.exclusive_iff (launches : LaunchesInTurn startable core after)
    (exclusive : core.Exclusive) :
    after.Exclusive ↔ ∀ role, ¬core.Overtakes startable role := by
  -- Once the first role is over it has no request in progress, whatever the second one does.
  have over_exclusive : ∀ {role middle after allowed status},
      Launches role (startable role) core middle .statusOver →
      Launches role.other allowed { middle with tag := .ofRole role.other } after status →
      after.Exclusive := by
    intro role middle after allowed status finished launches
    rw [Core.exclusive_iff after role]
    left
    rw [(launches.other_eq role.other_ne.symm).1]
    exact finished.vacant_of_over.1
  cases launches with
  | idle tag =>
      refine iff_of_true exclusive ?_
      rintro role ⟨named, -⟩
      exact PreEntity.ofRole_ne_idle role (named.symm.trans tag)
  | first tag launches =>
      rw [not_overtakes_iff tag]
      exact launches.exclusive_iff_of_cont tag exclusive
  | second tag finished launches =>
      rw [not_overtakes_iff tag]
      have exclusive_after := over_exclusive finished launches
      exact iff_of_true (exclusive_after.of_previous_eq rfl) finished.not_overtakes_of_over
  | neither tag finished launches =>
      rw [not_overtakes_iff tag]
      exact iff_of_true (over_exclusive finished launches) finished.not_overtakes_of_over

/-- The launch handler would start the parked request of a role although the other role has one in
progress. -/
def Overtakes (launcher : Launcher) (role : Role) : Prop :=
  launcher.preEntityType = .ofRole role ∧ launcher.previous role = none ∧
    launcher.following role ≠ none ∧ mayStart launcher role = true ∧
      launcher.previous role.other ≠ none

/-- An event that is not the launch timer of a launcher in which a role overtakes. -/
def Orderly (launcher : Launcher) : Event → Prop
  | .launchTimer _ => launcher.rlTimer = true → ∀ role, ¬Overtakes launcher role
  | _ => True

theorem exclusive_step_iff {launcher : Launcher} (owned : launcher.core.Sound)
    (exclusive : launcher.core.Exclusive) (event : Event) :
    (roleLauncher.step launcher event).1.core.Exclusive ↔ Orderly launcher event := by
  cases event with
  | callback callback =>
      simp only [roleLauncher, core_runCallback, Orderly, iff_true]
      exact exclusive
  | enterTimer allocated during =>
      simp only [roleLauncher, Orderly, iff_true]
      split
      · have enters := entersInTurn_rlEnterHandler allocated during
          { launcher with enterTimer := false }
        exact enters.preserves Enters.exclusive exclusive
      · exact exclusive
  | launchTimer during =>
      simp only [roleLauncher, Orderly]
      split
      · rename_i armed
        have stopped_owned : { launcher with rlTimer := false }.core.Sound := owned
        have launches := launchesInTurn_rlLaunchHandler stopped_owned during
        rw [launches.exclusive_iff exclusive]
        simp only [armed, true_imp_iff]
        exact Iff.rfl
      · rename_i stopped
        exact iff_of_true exclusive fun armed => absurd armed stopped

/-- A run keeps to one role in progress in every state it reaches exactly when no launch timer of it
expires while a role overtakes. -/
theorem exclusive_iff_orderly (events : List Event) :
    (∀ front, front <+: events →
      (roleLauncher.run rlInit front).jlPreviousSta = none ∨
        (roleLauncher.run rlInit front).jlPreviousAp = none) ↔
      roleLauncher.Always Orderly rlInit events := by
  refine roleLauncher.forall_run_iff_always Orderly (fun launcher => launcher.core.Sound)
    (fun launcher => launcher.core.Exclusive) ?_ ?_ ?_ ?_ events
  · intro launcher event owned
    exact (queueStep_step owned event).sound owned
  · intro launcher event owned exclusive
    exact exclusive_step_iff owned exclusive event
  · exact Arena.owned_empty
  · exact Or.inl rfl

/-- The tag stays at the station when both roles are over.  An access-point request started at once
leaves it there, and a parked station request is then started beside it. -/
theorem both_roles_in_progress :
    let launcher := roleLauncher.run rlInit
      [.callback (.staRequestEnter ⟨1, .sta⟩), .enterTimer true [.preStaSetStatus 1],
        .callback (.preStaSetStatus 9), .callback (.apRequestEnter ⟨2, .ap⟩),
        .enterTimer true [], .launchTimer [.preApSetStatus 0x11], .launchTimer [],
        .callback (.apRequestEnter ⟨3, .ap⟩), .enterTimer true [.preApSetStatus 0x11],
        .callback (.staRequestEnter ⟨4, .sta⟩), .enterTimer true [], .launchTimer []]
    launcher.jlPreviousSta ≠ none ∧ launcher.jlPreviousAp ≠ none := by
  decide

end BdkFreertos.RoleLaunch
