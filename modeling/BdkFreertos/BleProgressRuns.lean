import BdkFreertos.BleProgress

/-!
# Runs of the BLE application in which commands go on

A step leads from one good state to the next exactly if it starts a command well or advances the one
that runs.
-/

namespace BdkFreertos.BleProgress

open BleConnections (BleErr Config Conn initingCheckIndex)
open BleApp BleCommands
open BleCallbacks (Strong Unowned)

variable {config : Config}

/-! ## Steps -/

/-- A good state in which the messages of the command that runs are its own. -/
structure Alive (config : Config) (system : System) : Prop where
  strong : Strong system
  own : ∀ pending ∈ system.pending, pending.owner = some system.current.number →
    OwnOp config system.env pending.op
  good : Good config system

section Step

variable {system : System}

variable {env : Env} {idx : UInt8} {alloc ok : Bool} {completion : Foreign} {answer : Answer}
  {position : ℕ} {pending : Pending}

theorem ownOp_congr {env' : Env} (appStatus : env'.appStatus = env.appStatus)
    (cmd : env'.cmd = env.cmd) {op : Op} : OwnOp config env' op ↔ OwnOp config env op := by
  have idx := idx_congr appStatus
  have same_cmd (expected : BleCmd) : env'.cmd = expected ↔ env.cmd = expected := by rw [cmd]
  have same_idx (bound : ℕ) : env'.idx.toNat < bound ↔ env.idx.toNat < bound := by rw [idx]
  cases op with
  | createInit | initEvent | startInit | stopInit => exact and_congr_left fun _ => same_cmd _
  | updateParams | disconnect | mtuExch => exact and_congr (same_cmd _) (same_idx _)
  | readInfo | read | writeInfo | write | writeNoResponse => exact same_cmd _
  | _ => exact same_idx _

/-- The bit that a parameter update waits for stays, if there is one. -/
def KeepsBit (config : Config) (env env' : Env) : Prop :=
  ∀ kernelIdx, OwnOp config env (.updateParams kernelIdx) → Hears env (.updateParams kernelIdx) →
    (env'.connections env.idx.toNat).connOpMask &&& 1 ≠ 0

theorem KeepsBit.hears {env env' : Env} (keeps : KeepsBit config env env')
    (appStatus : env'.appStatus = env.appStatus) {op : Op} (own : OwnOp config env op)
    (hears : Hears env op) : Hears env' op := by
  cases op with
  | updateParams kernelIdx =>
      unfold Hears
      rw [idx_congr appStatus]
      exact keeps kernelIdx own hears
  | _ => exact hears

/-- A step that leaves the command that runs and its message alone. -/
theorem Alive.calm (alive : Alive config system) {after : System} (strong : Strong after)
    (live : after.halted = false) (current_eq : after.current = system.current)
    (same : after.env.Running →
      after.env.appStatus = system.env.appStatus ∧ after.env.cmd = system.env.cmd)
    (bit : after.env.Running → KeepsBit config system.env after.env)
    (keeps : ∀ pending ∈ system.pending, pending.owner = some system.current.number →
      pending ∈ after.pending)
    (fewer : ∀ pending ∈ after.pending, pending.owner = some system.current.number →
      pending ∈ system.pending) : Alive config after := by
  refine ⟨strong, fun pending pending_mem owner => ?_, live, fun running => ?_⟩
  · obtain ⟨-, running, -⟩ := (strong.owned pending pending_mem).resolve_left (by simp [owner])
    obtain ⟨appStatus, cmd⟩ := same running
    rw [current_eq] at owner
    have own := alive.own pending (fewer pending pending_mem owner) owner
    exact (ownOp_congr appStatus cmd).mpr own
  · obtain ⟨appStatus, cmd⟩ := same running
    have before := (running_congr appStatus).mp running
    obtain ⟨pending, pending_mem, owner, heard⟩ := alive.good.waits before
    have own := alive.own pending pending_mem owner
    have hears := (heard_iff before own).mp heard
    refine ⟨pending, keeps pending pending_mem owner, current_eq ▸ owner, ?_⟩
    exact (heard_iff running ((ownOp_congr appStatus cmd).mpr own)).mpr
      ((bit running).hears appStatus own hears)

theorem same_of_passes {status : BleErr} {reaction : Env × List Effect}
    (passes : Passes config env idx status alloc reaction) (running : reaction.1.Running) :
    reaction.1.appStatus = env.appStatus ∧ reaction.1.cmd = env.cmd := by
  cases passes with
  | silent kept => exact ⟨kept.appStatus, kept.cmd⟩
  | @next env' kept =>
      have outcome : Outcome env' idx status (appBleNextOperation config env' idx status alloc) :=
        appBleNextOperation_outcome
      refine ⟨?_, outcome.cmd_eq.trans kept.cmd⟩
      rcases outcome.state with reset | ⟨appStatus, -⟩
      · rw [reset] at running
        exact absurd (appBleReset_ready _) running.not_ready
      · exact appStatus.trans kept.appStatus

theorem appBleNextOperation_connections (env : Env) (idx : UInt8) (status : BleErr)
    (alloc : Bool) :
    (appBleNextOperation config env idx status alloc).1.connections = env.connections := by
  unfold appBleNextOperation initOperation deinitOperation finish appBleReset
  split <;> grind

theorem update_bit (connections : ℕ → Conn) (slot : ℕ) {conn : Conn}
    (keeps : conn.connOpMask &&& 1 = (connections slot).connOpMask &&& 1) (other : ℕ) :
    (Function.update connections slot conn other).connOpMask &&& 1 =
      (connections other).connOpMask &&& 1 := by
  by_cases same : other = slot
  · subst same
    rw [Function.update_self, keeps]
  · rw [Function.update_of_ne same]

theorem indicated_bit (env : Env) (indication : Indication) (slot : ℕ) :
    ((indicated config env indication).connections slot).connOpMask &&& 1 =
      (env.connections slot).connOpMask &&& 1 := by
  cases indication with
  | created conidx actvType gapIdx =>
      simp only [indicated, gapmActivityCreatedIndHandler]
      split_ifs
      · exact update_bit env.connections _ (by rfl) slot
      · rfl
      · cases actvType <;> rfl
  | stopped conidx actvType gapIdx =>
      simp only [indicated, gapmActivityStoppedIndHandler]
      split_ifs
      · rfl
      · cases actvType with
        | adv | scan => rfl
        | init => exact update_bit env.connections _ (by rfl) slot
      · cases actvType <;> rfl
  | connected role conidx destIdx param =>
      simp only [indicated, BleConnections.gapcConnectionReqIndHandler,
        BleConnections.storeConn, BleConnections.Env.note]
      split_ifs <;> first | rfl | exact update_bit env.connections _ (by rfl) slot
  | disconnected conidx =>
      simp only [indicated, BleConnections.gapcDisconnectIndHandler, BleConnections.Env.note]
      split_ifs <;> first | rfl | exact update_bit env.connections _ (by rfl) slot

theorem alive_indicated (alive : Alive config system) (indication : Indication)
    (strong : Strong (stepEvent config system (.indicated indication))) :
    Alive config (stepEvent config system (.indicated indication)) := by
  simp only [stepEvent, reaction, BleCallbacks.react_silent] at strong ⊢
  have kept : Kept system.env (indicated config system.env indication) :=
    BleCallbacks.indicated_kept ..
  refine alive.calm strong rfl rfl (fun _ => ⟨kept.appStatus, kept.cmd⟩) (fun _ _ _ bit => ?_)
    (fun _ member _ => member) fun _ member _ => member
  rw [indicated_bit]
  exact bit

theorem keepsBit_foreign (unheard : BleCallbacks.Unheard config env ok alloc completion) :
    KeepsBit config env (foreign config env ok alloc completion).1 := by
  intro kernelIdx own bit
  obtain ⟨cmd_eq, inside⟩ := own
  replace bit : (env.connections env.idx.toNat).connOpMask &&& 1 ≠ 0 := bit
  have moves : ¬BleCallbacks.Stalls config env (errOf ok) alloc := by
    simp [BleCallbacks.Stalls, cmd_eq]
  cases completion with
  | notified => exact absurd unheard moves
  | disconnected | mtuExchanged =>
      exact absurd unheard (not_or.mpr ⟨Nat.not_le.mpr inside, moves⟩)
  | paramsUpdated =>
      exact absurd unheard (not_or.mpr ⟨Nat.not_le.mpr inside, not_or.mpr ⟨bit, moves⟩⟩)
  | initingStopped conidx =>
      simp only [foreign]
      split_ifs with initing
      · have other : env.cmd ≠ .initStopConn := unheard initing
        simp only [gapmCmpEvtHandler, if_pos initing, initingCompleted, if_neg other]
        refine (update_bit env.connections _ ?_ _).trans_ne bit
        dsimp only
        split_ifs
        · exact (UInt32.and_assoc ..).trans rfl
        · rfl
      · exact bit

theorem running_of_owner {number : ℕ} (owner : system.running = some number) :
    system.env.Running := by
  by_contra resting
  rw [System.running, if_neg resting] at owner
  cases owner

theorem alive_foreign (alive : Alive config system)
    (careful : system.env.Running → BleCallbacks.Unheard config system.env ok alloc completion)
    (strong : Strong (stepEvent config system (.foreign completion ok alloc))) :
    Alive config (stepEvent config system (.foreign completion ok alloc)) := by
  have passes : Passes config system.env system.env.idx (errOf ok) alloc
      (foreign config system.env ok alloc completion) := foreign_passes completion ok
  have before (running : (foreign config system.env ok alloc completion).1.Running) :
      system.env.Running := (running_congr (same_of_passes passes running).1).mp running
  refine alive.calm strong ?_ rfl (same_of_passes passes)
    (fun running => keepsBit_foreign (careful (before running)))
    (fun _ member _ => List.mem_append_left _ member) fun pending member owner => ?_
  · exact decide_eq_false (fault_of_passes passes)
  · rcases List.mem_append.mp member with old | new
    · exact old
    · -- Messages are sent only while no command runs.
      obtain ⟨op, sent, rfl⟩ := List.mem_map.mp new
      have running := running_of_owner owner
      have quiet := (BleCallbacks.quiet_foreign_iff running completion).mpr (careful running)
      have nothing : sentOps (foreign config system.env ok alloc completion).2 = [] := quiet.sent
      simp only [reaction, nothing] at sent
      cases sent

theorem keepsBit_delete (answer : Answer) (alloc : Bool) (gapIdx : UInt8) :
    KeepsBit config env (answered config env answer alloc (.delete gapIdx)).1 := by
  have same : (answered config env answer alloc (.delete gapIdx)).1.connections =
      env.connections := by
    cases answer with
    | completed ok =>
        simp only [answered, answered.completed, gapmCmpEvtHandler, actvCompleted]
        split_ifs
        · rfl
        · exact appBleNextOperation_connections ..
    | _ => rfl
  intro _ _ bit
  rw [same]
  exact bit

/-- An answer to a message that was sent when no command ran. -/
theorem alive_other (alive : Alive config system) (here : system.pending[position]? = some pending)
    (owner : pending.owner = none) {gapIdx : UInt8} (deletes : pending.op = .delete gapIdx)
    (quiet : system.env.Running →
      BleCallbacks.Quiet (answered config system.env answer alloc (.delete gapIdx)))
    (strong : Strong (stepEvent config system (.answered position answer alloc))) :
    Alive config (stepEvent config system (.answered position answer alloc)) := by
  have passes : Passes config system.env system.env.idx (answerStatus (.delete gapIdx) answer) alloc
      (answered config system.env answer alloc (.delete gapIdx)) :=
    BleCallbacks.delete_passes answer gapIdx
  simp only [stepEvent, reaction, here, deletes] at strong ⊢
  refine alive.calm strong (decide_eq_false (fault_of_passes passes)) rfl (same_of_passes passes)
    (fun _ => keepsBit_delete answer alloc gapIdx) (fun other member own => ?_)
    fun other member own => ?_
  · refine List.mem_append_left _ (List.mem_eraseIdx_iff_getElem?.mpr ?_)
    obtain ⟨place, there⟩ := List.mem_iff_getElem?.mp member
    refine ⟨place, fun same => ?_, there⟩
    rw [same, here] at there
    cases there
    rw [owner] at own
    cases own
  · rcases List.mem_append.mp member with old | new
    · exact List.mem_of_mem_eraseIdx old
    · obtain ⟨op, sent, rfl⟩ := List.mem_map.mp new
      rw [(quiet (running_of_owner own)).sent] at sent
      cases sent

theorem good_react_iff (unowned : Unowned system) {reaction : Env × List Effect} :
    Good config (system.react reaction (some system.current.number)) ↔ Lives config reaction := by
  have pending_eq : (system.react reaction (some system.current.number)).pending =
      system.pending ++ (sentOps reaction.2).map fun op => ⟨op, some system.current.number⟩ := rfl
  constructor
  · rintro ⟨live, waits⟩
    refine ⟨of_decide_eq_false live, fun running => ?_⟩
    obtain ⟨pending, member, owner, heard⟩ := waits running
    rw [pending_eq] at member
    rcases List.mem_append.mp member with old | new
    · rw [(unowned pending old).1] at owner
      cases owner
    · obtain ⟨op, sent, rfl⟩ := List.mem_map.mp new
      exact ⟨op, sent, heard⟩
  · rintro ⟨live, waits⟩
    refine ⟨decide_eq_false live, fun running => ?_⟩
    obtain ⟨op, sent, heard⟩ := waits running
    exact ⟨_, List.mem_append_right _ (List.mem_map_of_mem sent), rfl, heard⟩

/-- An answer to the message of the command that runs. -/
theorem answered_alive (alive : Alive config system)
    (here : system.pending[position]? = some pending)
    (owner : pending.owner = some system.current.number) (fits : Fits pending.op answer)
    (strong : Strong (stepEvent config system (.answered position answer alloc))) :
    (Good config (stepEvent config system (.answered position answer alloc)) ↔
        Advances config system.env alloc pending.op answer) ∧
      (Advances config system.env alloc pending.op answer →
        Alive config (stepEvent config system (.answered position answer alloc))) := by
  have unowned := BleCallbacks.unowned_erase alive.strong here owner
  have member := List.mem_of_getElem? here
  obtain ⟨-, running, -⟩ := (alive.strong.owned pending member).resolve_left (by simp [owner])
  have own := alive.own pending member owner
  have hears : Hears system.env pending.op := by
    obtain ⟨other, other_mem, other_owner, heard⟩ := alive.good.waits running
    obtain ⟨place, there⟩ := List.mem_iff_getElem?.mp other_mem
    by_cases same : place = position
    · rw [same, here] at there
      cases there
      exact (heard_iff running own).mp heard
    · have remains : other ∈ system.pending.eraseIdx position :=
        List.mem_eraseIdx_iff_getElem?.mpr ⟨place, same, there⟩
      rw [(unowned other remains).1] at other_owner
      cases other_owner
  obtain ⟨lives, sent⟩ :=
    @answered_own config system.env alloc pending.op running own hears answer fits
  simp only [stepEvent, reaction, here, System.running, if_pos running] at strong ⊢
  have good : Good config (System.react { system with pending := system.pending.eraseIdx position }
      (answered config system.env answer alloc pending.op) (some system.current.number)) ↔ _ :=
    good_react_iff unowned
  refine ⟨good.trans lives, fun advances => ⟨strong, fun other other_mem other_owner => ?_,
    (good.trans lives).mpr advances⟩⟩
  rcases List.mem_append.mp other_mem with old | new
  · rw [(unowned other old).1] at other_owner
    cases other_owner
  · obtain ⟨op, op_mem, rfl⟩ := List.mem_map.mp new
    exact sent op op_mem

/-- A call. -/
theorem called_alive (alive : Alive config system) {function : Api} {wanted : Bool}
    (strong : Strong (stepEvent config system (.api function idx wanted alloc))) :
    (Good config (stepEvent config system (.api function idx wanted alloc)) ↔
        (system.env.Ready → Starts config system.env idx alloc function)) ∧
      ((system.env.Ready → Starts config system.env idx alloc function) →
        Alive config (stepEvent config system (.api function idx wanted alloc))) := by
  have outcome : CallOutcome function.cmd system.env idx
      (if wanted then some (system.call function idx) else none)
      (system.result config function idx wanted alloc) := call_outcome function alloc
  have started (ready : system.env.Ready) :
      Started config (Starts config system.env idx alloc function)
        (system.result config function idx wanted alloc) := started_call ready function
  simp only [stepEvent, reaction] at strong ⊢
  revert outcome started strong
  generalize system.result config function idx wanted alloc = result
  intro strong outcome started
  cases outcome with
  | @refused err error =>
      rw [if_neg error, BleCallbacks.react_silent] at strong ⊢
      have goesOn : Alive config _ := alive.calm strong rfl rfl (fun _ => ⟨rfl, rfl⟩)
        (fun _ _ _ bit => bit) (fun _ member _ => member) fun _ member _ => member
      refine ⟨iff_of_true goesOn.good fun ready => ?_, fun _ => goesOn⟩
      obtain ⟨-, well⟩ := started ready
      exact well
  | @failed err env' error ready =>
      rw [if_neg error, BleCallbacks.react_silent] at strong ⊢
      have resting : ¬(appBleReset env').Running := fun running =>
        running.not_ready (appBleReset_ready env')
      have goesOn : Alive config _ := alive.calm strong rfl rfl
        (fun running => absurd running resting) (fun running => absurd running resting)
        (fun _ member _ => member) fun _ member _ => member
      refine ⟨iff_of_true goesOn.good fun _ => ?_, fun _ => goesOn⟩
      obtain ⟨-, well⟩ := started ready
      exact well
  | @accepted env' effects ready running idx_eq cmd_eq opCb_eq effects_eq =>
      rw [if_pos rfl] at strong ⊢
      have unowned := alive.strong.unowned fun running => running.not_ready ready
      cases started ready with
      | failed error well => exact absurd rfl error
      | faulted missing =>
          refine ⟨iff_of_false (fun good => ?_) fun well => missing (well ready), fun well =>
            absurd (well ready) missing⟩
          exact absurd good.live (by simp [System.react])
      | @sent _ op own hears =>
          have base_unowned : Unowned { system with
              current := system.call function idx
              waiting := if wanted then system.call function idx :: system.waiting
                else system.waiting
              calls := system.calls + 1 } := unowned
          have lives := (lives_sent_iff running own).trans hears
          have good := (@good_react_iff config _ base_unowned (env', [.sent op])).trans lives
          refine ⟨good.trans ⟨fun well _ => well, fun well => well ready⟩, fun well =>
            ⟨strong, fun other other_mem other_owner => ?_, good.mpr (well ready)⟩⟩
          rcases List.mem_append.mp other_mem with old | new
          · rw [(unowned other old).1] at other_owner
            cases other_owner
          · obtain rfl := List.mem_singleton.mp new
            exact own

theorem alive_step (alive : Alive config system) {event : Event}
    (alone : Alone config system event) :
    (Good config (stepEvent config system event) ↔ Moves config system event) ∧
      (Moves config system event → Alive config (stepEvent config system event)) := by
  have live := alive.good.live
  have strong := (BleCallbacks.careful_reports alive.strong live alone.careful).2
  have always (goesOn : Alive config (stepEvent config system event))
      (trivially : Moves config system event) :
      (Good config (stepEvent config system event) ↔ Moves config system event) ∧
        (Moves config system event → Alive config (stepEvent config system event)) :=
    ⟨iff_of_true goesOn.good trivially, fun _ => goesOn⟩
  cases event with
  | api function idx wanted alloc => exact called_alive alive strong
  | indicated indication => exact always (alive_indicated alive indication strong) trivial
  | foreign completion ok alloc =>
      exact always (alive_foreign alive (alone.careful live) strong) trivial
  | answered position answer alloc =>
      cases here : system.pending[position]? with
      | none =>
          have beyond := List.getElem?_eq_none_iff.mp here
          refine always ?_ fun pending member => by simp [here] at member
          simp only [stepEvent, reaction, here, BleCallbacks.react_silent,
            List.eraseIdx_of_length_le beyond] at strong ⊢
          exact alive.calm strong rfl rfl (fun _ => ⟨rfl, rfl⟩) (fun _ _ _ bit => bit)
            (fun _ member _ => member) fun _ member _ => member
      | some pending =>
          have fits := alone.fits position answer alloc rfl pending here
          rcases alive.strong.owned pending (List.mem_of_getElem? here) with
            ⟨owner, gapIdx, deletes⟩ | ⟨owner, -, -⟩
          · have other : ∀ held ∈ system.pending[position]?,
                held.owner ≠ some system.current.number := by
              rintro held member
              rw [here] at member
              cases member
              simp [owner]
            refine always ?_ fun held member own => absurd own (other held member)
            rw [deletes] at fits
            obtain ⟨ok, rfl⟩ := fits
            refine alive_other alive here owner deletes (fun running => ?_) strong
            exact (BleCallbacks.quiet_delete_iff running gapIdx).mpr
              (alone.careful live running pending here owner)
          · obtain ⟨good, goesOn⟩ := answered_alive alive here owner fits strong
            have moves : Moves config system (.answered position answer alloc) ↔
                Advances config system.env alloc pending.op answer := by
              constructor
              · exact fun every => every pending here owner
              · intro advances held member _
                rw [here] at member
                cases member
                exact advances
            exact ⟨good.trans moves.symm, fun every => goesOn (moves.mp every)⟩

end Step

variable {system : System}

theorem alone_answered {position : ℕ} {pending : Pending} {answer : Answer} {alloc : Bool}
    (here : system.pending[position]? = some pending) (owner : pending.owner ≠ none)
    (fits : Fits pending.op answer) : Alone config system (.answered position answer alloc) := by
  have same {held : Pending} (member : held ∈ system.pending[position]?) : held = pending :=
    Option.some.inj (member.symm.trans here)
  constructor
  · rintro _ _ _ ⟨⟩ held member
    rw [same member]
    exact fits
  · cases answer with
    | completed ok =>
        intro _ _ held member unowned
        exact absurd (same member ▸ unowned) owner
    | _ => trivial

theorem alone_other {event : Event} (noAnswer : ¬BleCallbacks.completes event) :
    Alone config system event := by
  cases event with
  | api | indicated => exact ⟨by simp, trivial⟩
  | answered | foreign => exact absurd trivial noAnswer

theorem alive_init : Alive config System.init where
  strong := BleCallbacks.strong_init
  own _ member := absurd member List.not_mem_nil
  good := ⟨rfl, fun running => absurd running (by decide)⟩

/-! ## Runs -/

variable (config)

/-- As long as no other completion is heard, a message of the command that runs waits for an answer
that is heard, in every state of a run, exactly if each step of the run moves commands on. -/
theorem engine_goes_on_iff (events : List Event)
    (alone : (machine config).Always (Alone config) System.init events) :
    (∀ front, front <+: events → Good config ((machine config).run System.init front)) ↔
      (machine config).Always (Moves config) System.init events := by
  have steps := (machine config).always_iff_always
    (fun system event => Alone config system event ∧
      Good config ((machine config).step system event).1)
    (fun system event => Alone config system event ∧ Moves config system event) (Alive config)
    (fun event alive => and_congr_right fun alone => by
      simpa only [machine, alive.good.live, Bool.false_eq_true, if_false] using
        (alive_step alive alone).1)
    (fun event alive meets => by
      simpa only [machine, alive.good.live, Bool.false_eq_true, if_false] using
        (alive_step alive meets.1).2 meets.2)
    alive_init events
  rw [Machine.always_and, Machine.always_and, and_iff_right alone, and_iff_right alone] at steps
  refine Iff.trans ?_ steps
  exact (machine config).forall_run_iff_always _ (fun _ => True) (Good config) (fun _ _ => trivial)
    (fun _ _ _ => Iff.rfl) trivial alive_init.good events

def smallConfig : Config := ⟨3, 1, BleConnections.twoConnections.activity_lt, by decide⟩

/-- Advertising is started. -/
def advStartEvents : List Event :=
  [.api (.actv .advStart) 0 true true, .indicated (.created 0 .adv 0),
    .answered 0 (.completed true) true, .answered 0 (.completed true) true,
    .answered 0 (.completed true) true, .answered 0 (.completed true) true]

theorem engine_goes_on_adv_start :
    ((machine smallConfig).run System.init advStartEvents).env.Ready ∧
      ∀ front, front <+: advStartEvents →
        Good smallConfig ((machine smallConfig).run System.init front) := by
  refine ⟨by decide +kernel, (engine_goes_on_iff smallConfig advStartEvents ?_).mpr ?_⟩
  · exact ⟨alone_other id, alone_other id, alone_answered rfl (by decide) ⟨true, rfl⟩,
      alone_answered rfl (by decide) ⟨true, rfl⟩, alone_answered rfl (by decide) ⟨true, rfl⟩,
      alone_answered rfl (by decide) ⟨true, rfl⟩, trivial⟩
  · refine ⟨fun _ => trivial, trivial, ?_, ?_, ?_, ?_, trivial⟩
    all_goals
      rintro pending ⟨⟩ -
      show ¬Stops smallConfig _ _ _
      decide +kernel

/-- A connection that was accepted never gets the bit that the completion of a parameter update is
tested for. -/
theorem engine_stops_updating :
    ¬∀ (config : Config) (events : List Event),
      (machine config).Always (Alone config) System.init events →
        Good config ((machine config).run System.init events) := by
  intro every
  have good := every smallConfig [.indicated (.connected 1 0 0 ⟨6, 0, 100⟩),
    .api .updateParam 0 true true, .answered 0 (.completed true) true]
    ⟨alone_other id, alone_other id, alone_answered rfl (by decide) ⟨true, rfl⟩, trivial⟩
  obtain ⟨pending, member, -⟩ := good.waits (by decide +kernel)
  exact absurd member List.not_mem_nil

end BdkFreertos.BleProgress
