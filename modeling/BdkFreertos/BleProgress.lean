import BdkFreertos.BleCallbacks

/-!
# Commands of the BLE application that go on

The command that runs waits for the answer to a message of its own.  It stops for ever when the
handling of that answer neither ends it nor sends its next message.
-/

namespace BdkFreertos.BleProgress

open BleConnections
  (BleErr Config ConnParam Conn InitState initingCheckIndex appBleGetConnhdl unknowConnHdl)
open BleApp BleCommands
open BleCallbacks (Sends StepSends stepStates)

variable (config : Config)

/-! ## What is meant -/

/-- What a message can be answered with. -/
def Fits : Op → Answer → Prop
  | .readInfo _, answer | .writeInfo _, answer => ∀ ok, answer ≠ .completed ok
  | .initEvent _, answer => answer = .completed true
  | _, answer => ∃ ok, answer = .completed ok

/-- The completion of a message to the stack goes to the next operation of the command that runs.
A request to the profile task is followed by a message to the stack. -/
def Heard (env : Env) : Op → Prop
  | .readInfo _ | .writeInfo _ => True
  | op => ∀ answer, Fits op answer → ∃ env', Kept env env' ∧
      answered config env answer true op =
        appBleNextOperation config env' env.idx (answerStatus op answer) true

/-- While a command runs, a message of its own is not answered whose completion is heard. -/
structure Good (system : System) : Prop where
  live : system.halted = false
  waits : system.env.Running → ∃ pending ∈ system.pending,
    pending.owner = some system.current.number ∧ Heard config system.env pending.op

/-- Messages get answers of their kinds, and completions that are not the own of the command that
runs are not heard. -/
structure Alone (system : System) (event : Event) : Prop where
  fits : ∀ position answer alloc, event = .answered position answer alloc →
    ∀ pending ∈ system.pending[position]?, Fits pending.op answer
  careful : BleCallbacks.Careful config system event

/-- The next operation stops the command that runs: it neither ends nor sends a message. -/
def Stops (env : Env) (status : BleErr) (alloc : Bool) : Prop :=
  match env.cmd with
  | .initAdv => initStops .advCreated
  | .initScan => initStops .scanCreated
  | .deinitAdv | .deinitScan => env.opMask ≠ 0 ∧ ¬StepSends config env alloc
  | .initDisConn => True
  | _ => False
where
  /-- The same for a command with a clean-up. -/
  initStops (created : ActvState) : Prop :=
    if env.opMask ≠ 0 ∧ status = .success then ¬StepSends config env alloc
    else
      status ≠ .success ∧ (env.actvs env.idx.toNat).actvStatus = created ∧
        ¬Sends config env alloc [created]

instance (env : Env) (alloc : Bool) (states : List ActvState) :
    Decidable (Sends config env alloc states) := inferInstanceAs (Decidable (_ ∧ _ ∧ _))

instance (env : Env) (alloc : Bool) : Decidable (StepSends config env alloc) :=
  inferInstanceAs (Decidable (Sends _ _ _ _))

instance (env : Env) (status : BleErr) (alloc : Bool) (created : ActvState) :
    Decidable (Stops.initStops config env status alloc created) :=
  inferInstanceAs (Decidable (if env.opMask ≠ 0 ∧ status = .success
    then ¬StepSends config env alloc
    else status ≠ .success ∧ (env.actvs env.idx.toNat).actvStatus = created ∧
      ¬Sends config env alloc [created]))

instance (env : Env) (status : BleErr) (alloc : Bool) : Decidable (Stops config env status alloc) :=
  match cmd_eq : env.cmd with
  | .initAdv =>
      decidable_of_iff (Stops.initStops config env status alloc .advCreated)
        (by simp [Stops, cmd_eq])
  | .initScan =>
      decidable_of_iff (Stops.initStops config env status alloc .scanCreated)
        (by simp [Stops, cmd_eq])
  | .deinitAdv | .deinitScan =>
      decidable_of_iff (env.opMask ≠ 0 ∧ ¬StepSends config env alloc) (by simp [Stops, cmd_eq])
  | .initDisConn => isTrue (by simp [Stops, cmd_eq])
  | .createAdv | .setAdvData | .setRspData | .startAdv | .stopAdv | .deleteAdv | .createScan
  | .startScan | .stopScan | .deleteScan | .connUpdateMtu | .connUpdateParam | .connDisConn
  | .initCreate | .initStartConn | .initStopConn | .initReadChar | .initWriteChar =>
      isFalse (by simp [Stops, cmd_eq])

/-- What the completion of a message for an activity changes. -/
def completedEnv (env : Env) (ok : Bool) : Op → Env
  | .createAdv | .createScan => env.clear 1
  | .setAdvData _ => env.clear 2
  | .setScanRspData _ => env.clear 4
  | .start _ => if ok then actvStarted env else env
  | .stop _ => env.clear (4 ||| 16)
  | .delete _ => (env.setActv env.idx .idle).clear (8 ||| 32)
  | _ => env

/-- After an answer to one of its messages the command that runs ends or sends its next one. -/
def Advances (env : Env) (alloc : Bool) (op : Op) (answer : Answer) : Prop :=
  match op, answer with
  | .readInfo _, .knownHandle _ => alloc = true
  | .readInfo _, _ => False
  | .writeInfo _, .knownHandle .write => alloc = true
  | .writeInfo _, .knownHandle .writeNoResponse => False
  | .writeInfo _, _ => True
  | .read, _ | .write, _ => alloc = true
  | .createAdv, .completed ok | .createScan, .completed ok | .setAdvData _, .completed ok
  | .setScanRspData _, .completed ok | .start _, .completed ok | .stop _, .completed ok
  | .delete _, .completed ok => ¬Stops config (completedEnv env ok op) (errOf ok) alloc
  | _, _ => True

/-- The message of a function that starts a command is allocated where this is not checked, and its
completion will be heard. -/
def Starts (env : Env) (idx : UInt8) (alloc : Bool) : Api → Prop
  | .updateParam =>
      idx.toNat < config.connectionMax →
        (appBleGetConnhdl env.connections idx.toNat).toUInt16 ≠ unknowConnHdl → alloc = true →
          (env.connections idx.toNat).connOpMask &&& 1 ≠ 0
  | .createInit _ _ =>
      idx.toNat < config.connectionMax → (env.connections idx.toNat).initState = .idle →
        alloc = true
  | .initStartConn =>
      idx.toNat < config.connectionMax → (env.connections idx.toNat).initState = .created →
        alloc = true
  | .initStopConn =>
      idx.toNat < config.connectionMax → (env.connections idx.toNat).initState = .conectting →
        alloc = true
  | .readServiceDataByHandleReq known | .writeServiceDataReq known =>
      idx.toNat < config.connectionMax → known = true → alloc = true
  | _ => True

/-- Commands start with a message whose completion is heard, and answers advance them. -/
def Moves (system : System) : Event → Prop
  | .api function idx _ alloc => system.env.Ready → Starts config system.env idx alloc function
  | .answered position answer alloc =>
      ∀ pending ∈ system.pending[position]?, pending.owner = some system.current.number →
        Advances config system.env alloc pending.op answer
  | _ => True

/-! ## The next operation -/

def Stuck (reaction : Env × List Effect) : Prop := reaction.1.Running ∧ sentOps reaction.2 = []

variable {config}

section Next

variable {env : Env} {status : BleErr} {alloc : Bool}

theorem not_stuck_of_ready {reaction : Env × List Effect} (ready : reaction.1.Ready) :
    ¬Stuck reaction := fun stuck => stuck.1.not_ready ready

theorem stuck_actvCmd_iff {ended : Env} (running : ended.Running) {before : List Effect}
    (silent : sentOps before = []) {allowed : List ActvState} {op : Op} :
    Stuck (ended, before ++ (appBleActvCmd config env env.idx allowed op alloc).2) ↔
      ¬Sends config env alloc allowed := by
  unfold Stuck Sends
  simp only [sentOps_append, silent, List.nil_append, sentOps_appBleActvCmd, running, true_and]
  split_ifs with sends
  · exact iff_of_false (by simp) (not_not_intro sends)
  · exact iff_of_true rfl sends

variable {created : ActvState} {gapIdx : UInt8}

theorem stuck_initOperation_iff (running : env.Running) {step : ℕ → BleErr × List Effect}
    (steps : ∀ position, Stuck (env, (step position).2) ↔
      ¬Sends config env alloc (stepStates env.cmd position)) :
    Stuck (initOperation env env.idx status step created
        (appBleActvCmd config env env.idx [created] (.delete gapIdx) alloc)) ↔
      Stops.initStops config env status alloc created := by
  have silent : sentOps (callback env.opCb env.cmd env.idx status) = [] := sentOps_callback ..
  unfold initOperation Stops.initStops
  split_ifs with more noCallback failed isCreated failed isCreated
  · exact steps _
  · rw [stuck_actvCmd_iff running silent]
    tauto
  · exact iff_of_false (not_stuck_of_ready (appBleReset_ready _)) (by tauto)
  · exact iff_of_false (not_stuck_of_ready (appBleReset_ready _)) (by tauto)
  · have running' : ({ env with opMask := 0, opCb := none } : Env).Running := running
    rw [stuck_actvCmd_iff running' silent]
    tauto
  · exact iff_of_false (not_stuck_of_ready (appBleReset_ready _)) (by tauto)
  · exact iff_of_false (not_stuck_of_ready (appBleReset_ready _)) (by tauto)

theorem stuck_deinitOperation_iff (running : env.Running) {delPos : ℕ}
    (states : ∀ position,
      stepStates env.cmd position = if position = delPos then [created] else []) :
    Stuck (deinitOperation env env.idx status delPos
        (appBleActvCmd config env env.idx [created] (.delete gapIdx) alloc)) ↔
      env.opMask ≠ 0 ∧ ¬StepSends config env alloc := by
  unfold deinitOperation StepSends
  rw [states]
  split_ifs with more here
  · rw [← List.nil_append (appBleActvCmd config env env.idx _ _ alloc).2,
      stuck_actvCmd_iff running rfl]
    tauto
  · refine iff_of_true ⟨running, rfl⟩ ⟨more, ?_⟩
    simp [Sends]
  · exact iff_of_false (not_stuck_of_ready (appBleReset_ready _)) (by tauto)
  · exact iff_of_false (not_stuck_of_ready (appBleReset_ready _)) (by tauto)

theorem stuck_iff_stops (running : env.Running) :
    Stuck (appBleNextOperation config env env.idx status alloc) ↔
      Stops config env status alloc := by
  have sent {allowed : List ActvState} {op : Op} :
      Stuck (env, (appBleActvCmd config env env.idx allowed op alloc).2) ↔
        ¬Sends config env alloc allowed :=
    stuck_actvCmd_iff running (show sentOps [] = [] from rfl)
  have unsent (cmd : BleCmd) (position : ℕ) (nothing : stepStates cmd position = []) :
      Stuck (env, []) ↔ ¬Sends config env alloc (stepStates cmd position) := by
    refine iff_of_true ⟨running, rfl⟩ ?_
    rw [nothing]
    simp [Sends]
  unfold appBleNextOperation Stops
  cases cmd : env.cmd with
  | initAdv =>
      refine stuck_initOperation_iff running fun position => ?_
      rw [cmd]
      unfold initAdvStep
      split
      · exact sent
      · exact sent
      · exact sent
      · refine unsent _ _ ?_
        unfold stepStates
        split <;> simp_all
  | initScan =>
      refine stuck_initOperation_iff running fun position => ?_
      rw [cmd]
      unfold initScanStep
      split
      · exact sent
      · refine unsent _ _ ?_
        unfold stepStates
        split <;> simp_all
  | deinitAdv | deinitScan =>
      refine stuck_deinitOperation_iff running fun position => ?_
      rw [cmd]
      unfold stepStates
      split <;> simp_all
  | initDisConn => exact iff_of_true ⟨running, rfl⟩ trivial
  | _ => exact iff_of_false (not_stuck_of_ready (appBleReset_ready _)) id

end Next

/-! ## What is heard -/

/-- Messages for an activity. -/
def IsActv : Op → Prop
  | .createAdv | .createScan | .setAdvData _ | .setScanRspData _ | .start _ | .stop _ | .delete _ =>
      True
  | _ => False

/-- A message is one of those of the command that runs. -/
def OwnOp (config : Config) (env : Env) : Op → Prop
  | .createInit slot | .initEvent slot =>
      env.cmd = .initCreate ∧ initingCheckIndex config (initingIndex config slot)
  | .startInit slot =>
      env.cmd = .initStartConn ∧ initingCheckIndex config (initingIndex config slot)
  | .stopInit slot =>
      env.cmd = .initStopConn ∧ initingCheckIndex config (initingIndex config slot)
  | .updateParams _ => env.cmd = .connUpdateParam ∧ env.idx.toNat < config.connectionMax
  | .disconnect _ => env.cmd = .connDisConn ∧ env.idx.toNat < config.connectionMax
  | .mtuExch _ => env.cmd = .connUpdateMtu ∧ env.idx.toNat < config.connectionMax
  | .readInfo _ | .read => env.cmd = .initReadChar
  | .writeInfo _ | .write | .writeNoResponse => env.cmd = .initWriteChar
  | _ => env.idx.toNat < config.activityMax

/-- The own messages whose completions are heard. -/
def Hears (env : Env) : Op → Prop
  | .updateParams _ => (env.connections env.idx.toNat).connOpMask &&& 1 ≠ 0
  | .writeNoResponse => False
  | _ => True

section Heard

variable {env : Env} {alloc : Bool} {op : Op}

theorem initingCheckIndex_zero : ¬initingCheckIndex config 0 := by
  have fewer := config.connection_lt
  rintro ⟨outside, -⟩
  rw [UInt8.toNat_zero] at outside
  omega

theorem completedEnv_kept (env : Env) (ok : Bool) (op : Op) :
    Kept env (completedEnv env ok op) := by
  have refl := Kept.refl env
  cases op with
  | createAdv | createScan | setAdvData | setScanRspData | stop => exact refl.clear _
  | start =>
      cases ok with
      | true => exact actvStarted_kept env
      | false => exact refl
  | delete => exact (refl.setActv ..).clear _
  | _ => exact refl

theorem answered_actv (isActv : IsActv op) (inside : env.idx.toNat < config.activityMax)
    (ok : Bool) :
    answered config env (.completed ok) alloc op =
      appBleNextOperation config (completedEnv env ok op) env.idx (errOf ok) alloc := by
  have inside' : ¬config.activityMax ≤ env.idx.toNat := Nat.not_le.mpr inside
  have handled {env' : Env} : actvCompleted config env env' (errOf ok) alloc =
      appBleNextOperation config env' env.idx (errOf ok) alloc := if_neg inside'
  cases op with
  | createAdv | createScan | setAdvData | setScanRspData | delete => exact handled
  | start | stop =>
      simp only [answered, answered.completed, gapmCmpEvtHandler, if_neg initingCheckIndex_zero]
      exact handled
  | _ => exact absurd isActv id

/-- The commands of several steps. -/
def IsMulti : BleCmd → Prop
  | .initAdv | .deinitAdv | .initScan | .deinitScan | .initDisConn => True
  | _ => False

variable {idx : UInt8} {status : BleErr} {cmd : BleCmd} {bits : UInt32}

theorem appBleNextOperation_single (single : ¬IsMulti env.cmd) :
    appBleNextOperation config env idx status alloc = finish env idx status := by
  unfold appBleNextOperation
  revert single
  cases env.cmd <;> simp [IsMulti]

/-- Messages to the stack that belong to no activity. -/
def IsSingle : Op → Prop
  | .createInit _ | .startInit _ | .stopInit _ | .initEvent _ | .updateParams _ | .disconnect _
  | .mtuExch _ | .read | .write => True
  | _ => False

theorem initingCompleted_own {conidx : UInt8} {change : Conn → Conn} (own : env.cmd = cmd) :
    ∃ env', Kept env env' ∧ initingCompleted config env conidx change cmd status alloc =
      appBleNextOperation config env' env.idx status alloc :=
  ⟨_, ((Kept.refl env).setConn ..).clear 1, if_pos own⟩

theorem connCompleted_own (inside : env.idx.toNat < config.connectionMax) :
    ∃ env', Kept env env' ∧ connCompleted config env bits status alloc =
      appBleNextOperation config env' env.idx status alloc :=
  ⟨_, (Kept.refl env).setConn .., if_neg (Nat.not_le.mpr inside)⟩

theorem charCompleted_own {ok : Bool} (own : env.cmd = cmd) :
    ∃ env', Kept env env' ∧ sdpTaskGattcCmpEvtHandler env true
        (charCompleted config env cmd bits ok true) =
      appBleNextOperation config env' env.idx (errOf ok) true :=
  ⟨_, (Kept.refl env).clear _, (if_pos rfl).trans (if_pos own)⟩

/-- The completion of a message that belongs to no activity goes to the next operation, of a command
of one step. -/
theorem answered_single (running : env.Running) (own : OwnOp config env op) (single : IsSingle op)
    (hears : Hears env op) {answer : Answer} (fits : Fits op answer)
    (arrives : IsProfile op → alloc = true) :
    ¬IsMulti env.cmd ∧ ∃ env', Kept env env' ∧ answered config env answer alloc op =
      appBleNextOperation config env' env.idx (answerStatus op answer) alloc := by
  have simple {cmd : BleCmd} (cmd_eq : env.cmd = cmd) (one : ¬IsMulti cmd) : ¬IsMulti env.cmd :=
    cmd_eq ▸ one
  cases op with
  | createInit slot | startInit slot | stopInit slot =>
      obtain ⟨cmd_eq, initing⟩ := own
      obtain ⟨ok, rfl⟩ := fits
      simp only [answered, answered.completed, gapmCmpEvtHandler, if_pos initing]
      exact ⟨simple cmd_eq id, initingCompleted_own cmd_eq⟩
  | initEvent slot =>
      obtain ⟨cmd_eq, initing⟩ := own
      obtain rfl : answer = .completed true := fits
      simp only [answered, answered.completed, appInitInitEventHandler, if_pos initing]
      exact ⟨simple cmd_eq id, initingCompleted_own cmd_eq⟩
  | updateParams kernelIdx =>
      obtain ⟨cmd_eq, inside⟩ := own
      obtain ⟨ok, rfl⟩ := fits
      have updating : env.appStatus &&& 2 ≠ 0 ∧
          (env.connections env.idx.toNat).connOpMask &&& 1 ≠ 0 :=
        ⟨BleCallbacks.Env.Running.bit running, hears⟩
      simp only [answered, answered.completed, paramsUpdated, if_pos updating]
      exact ⟨simple cmd_eq id, connCompleted_own inside⟩
  | disconnect kernelIdx | mtuExch kernelIdx =>
      obtain ⟨cmd_eq, inside⟩ := own
      obtain ⟨ok, rfl⟩ := fits
      exact ⟨simple cmd_eq id, connCompleted_own inside⟩
  | read | write =>
      obtain ⟨ok, rfl⟩ := fits
      obtain rfl := arrives trivial
      exact ⟨simple own id, charCompleted_own own⟩
  | _ => exact absurd single id

theorem silent_ne_next (running : env.Running) {env' : Env} (kept : Kept env env')
    (single : ¬IsMulti env.cmd) :
    (env, ([] : List Effect)) ≠ appBleNextOperation config env' idx status alloc := by
  rw [appBleNextOperation_single (kept.cmd ▸ single)]
  intro same
  have env_eq : env = appBleReset env' := congrArg Prod.fst same
  exact running.not_ready (env_eq ▸ appBleReset_ready env')

theorem heard_iff (running : env.Running) (own : OwnOp config env op) :
    Heard config env op ↔ Hears env op := by
  by_cases isActv : IsActv op
  · have inside : env.idx.toNat < config.activityMax := by
      cases op <;> first | exact own | exact absurd isActv id
    have heard (answer : Answer) (fits : ∃ ok, answer = .completed ok) :
        ∃ env', Kept env env' ∧ answered config env answer true op =
          appBleNextOperation config env' env.idx (answerStatus op answer) true := by
      obtain ⟨ok, rfl⟩ := fits
      refine ⟨_, completedEnv_kept env ok op, ?_⟩
      rw [answered_actv isActv inside]
      cases op <;> first | rfl | exact absurd isActv id
    cases op <;> first | exact iff_of_true heard trivial | exact absurd isActv id
  · have heard (single : IsSingle op) (hears : Hears env op) (answer : Answer)
        (fits : Fits op answer) : ∃ env', Kept env env' ∧ answered config env answer true op =
          appBleNextOperation config env' env.idx (answerStatus op answer) true :=
      (answered_single running own single hears fits fun _ => rfl).2
    cases op with
    | readInfo | writeInfo => exact Iff.rfl
    | updateParams kernelIdx =>
        refine ⟨fun heard => ?_, heard trivial⟩
        obtain ⟨cmd_eq, -⟩ := own
        by_contra unheard
        obtain ⟨env', kept, same⟩ := heard (.completed true) ⟨true, rfl⟩
        have silent : answered config env (.completed true) true (.updateParams kernelIdx) =
            (env, []) := if_neg fun updating => unheard updating.2
        exact silent_ne_next running kept (cmd_eq ▸ id) (silent.symm.trans same)
    | writeNoResponse =>
        refine iff_of_false (fun heard => ?_) id
        obtain ⟨env', kept, same⟩ := heard (.completed true) ⟨true, rfl⟩
        exact silent_ne_next running kept (own ▸ id) same
    | createInit | startInit | stopInit | initEvent | disconnect | mtuExch | read | write =>
        exact iff_of_true (heard trivial trivial) trivial
    | _ => exact absurd trivial isActv

end Heard

/-! ## Reactions -/

/-- The command that runs ends, or sends a message whose completion is heard. -/
structure Lives (config : Config) (reaction : Env × List Effect) : Prop where
  live : .fault ∉ reaction.2
  waits : reaction.1.Running → ∃ op ∈ sentOps reaction.2, Heard config reaction.1 op

section Reaction

variable {env : Env} {alloc : Bool} {op : Op}

variable {idx : UInt8} {status : BleErr} {env' : Env}

theorem fault_of_passes {reaction : Env × List Effect}
    (passes : Passes config env idx status alloc reaction) : .fault ∉ reaction.2 := by
  cases passes with
  | silent kept => exact List.not_mem_nil
  | @next env' kept =>
      have outcome : Outcome env' idx status (appBleNextOperation config env' idx status alloc) :=
        appBleNextOperation_outcome
      obtain ⟨opCb, sends, effects_eq, -, sent⟩ := outcome.effects
      rw [effects_eq, List.mem_append]
      rintro (invoked | fault)
      · simp [callback] at invoked
      · rcases sent with rfl | ⟨op, rfl, -⟩
        · cases fault
        · simp at fault

theorem ownOp_of_isActv (isActv : IsActv op) (inside : env.idx.toNat < config.activityMax) :
    OwnOp config env op := by
  cases op <;> first | exact inside | exact absurd isActv id

theorem hears_of_isActv (isActv : IsActv op) : Hears env op := by
  cases op <;> first | exact trivial | exact absurd isActv id

theorem isActv_of_isStep (isStep : IsStep env op) : IsActv op := by
  cases op <;> first | exact trivial | exact absurd isStep id

theorem ownOp_of_next (kept : Kept env env') (inside : env.idx.toNat < config.activityMax) (op : Op)
    (sent : op ∈ sentOps (appBleNextOperation config env' idx status alloc).2) :
    IsActv op ∧ OwnOp config (appBleNextOperation config env' idx status alloc).1 op := by
  have outcome : Outcome env' idx status (appBleNextOperation config env' idx status alloc) :=
    appBleNextOperation_outcome
  rcases outcome.sent_cases with nothing | ⟨op', sends, same, isStep⟩
  · rw [nothing] at sent
    cases sent
  · rw [sends] at sent
    obtain rfl := List.mem_singleton.mp sent
    have isActv := isActv_of_isStep isStep
    refine ⟨isActv, ownOp_of_isActv isActv ?_⟩
    rwa [idx_congr same, idx_congr kept.appStatus]

theorem lives_next_iff (running : env.Running) (inside : env.idx.toNat < config.activityMax)
    (kept : Kept env env') (status : BleErr) :
    Lives config (appBleNextOperation config env' env.idx status alloc) ↔
      ¬Stops config env' status alloc := by
  have running' : env'.Running := (running_congr kept.appStatus).mpr running
  have fault := fault_of_passes (Passes.next kept : Passes config env env.idx status alloc _)
  rw [← stuck_iff_stops running', idx_congr kept.appStatus]
  constructor
  · rintro ⟨-, waits⟩ ⟨still, nothing⟩
    obtain ⟨op, sent, -⟩ := waits still
    rw [nothing] at sent
    cases sent
  · refine fun goesOn => ⟨fault, fun still => ?_⟩
    obtain ⟨op, sent⟩ := List.exists_mem_of_ne_nil _ fun nothing => goesOn ⟨still, nothing⟩
    obtain ⟨isActv, own⟩ := ownOp_of_next kept inside op sent
    exact ⟨op, sent, (heard_iff still own).mpr (hears_of_isActv isActv)⟩

theorem lives_finish : Lives config (finish env idx status) :=
  ⟨by simp [finish, callback], fun running => absurd (appBleReset_ready env) running.not_ready⟩

theorem not_lives_fault : ¬Lives config (env, [.fault]) :=
  fun lives => lives.live List.mem_cons_self

theorem not_lives_silent (running : env.Running) : ¬Lives config (env, []) := by
  intro lives
  obtain ⟨op, sent, -⟩ := lives.waits running
  cases sent

theorem lives_sent_iff (running : env.Running) (own : OwnOp config env op) :
    Lives config (env, [.sent op]) ↔ Hears env op := by
  rw [← heard_iff running own]
  constructor
  · intro lives
    obtain ⟨op', sent, heard⟩ := lives.waits running
    rwa [List.mem_singleton.mp sent] at heard
  · exact fun heard => ⟨by simp, fun _ => ⟨op, List.mem_cons_self, heard⟩⟩

theorem lives_unchecked_iff (running : env.Running) (own : OwnOp config env op) (alloc : Bool) :
    Lives config (env, unchecked op alloc) ↔ alloc = true ∧ Hears env op := by
  cases alloc with
  | true => exact (lives_sent_iff running own).trans (and_iff_right rfl).symm
  | false => exact iff_of_false not_lives_fault fun both => Bool.false_ne_true both.1

theorem answered_own (running : env.Running) (own : OwnOp config env op) (hears : Hears env op)
    {answer : Answer} (fits : Fits op answer) :
    (Lives config (answered config env answer alloc op) ↔ Advances config env alloc op answer) ∧
      ∀ op' ∈ sentOps (answered config env answer alloc op).2,
        OwnOp config (answered config env answer alloc op).1 op' := by
  have ends {idx : UInt8} {status : BleErr} {env' : Env} (kept : Kept env env')
      (single : ¬IsMulti env.cmd) :
      Lives config (appBleNextOperation config env' idx status alloc) ∧
        ∀ op' ∈ sentOps (appBleNextOperation config env' idx status alloc).2,
          OwnOp config (appBleNextOperation config env' idx status alloc).1 op' := by
    rw [appBleNextOperation_single (kept.cmd ▸ single)]
    refine ⟨lives_finish, fun op' sent => ?_⟩
    simp [finish] at sent
  have sends {op' : Op} (own' : OwnOp config env op') (op'' : Op)
      (sent : op'' ∈ sentOps (unchecked op' alloc)) : OwnOp config env op'' := by
    cases alloc with
    | true => exact List.mem_singleton.mp sent ▸ own'
    | false => cases sent
  by_cases isActv : IsActv op
  · have inside : env.idx.toNat < config.activityMax := by
      cases op <;> first | exact own | exact absurd isActv id
    have handled (ok : Bool) :
        (Lives config (answered config env (.completed ok) alloc op) ↔
            ¬Stops config (completedEnv env ok op) (errOf ok) alloc) ∧
          ∀ op' ∈ sentOps (answered config env (.completed ok) alloc op).2,
            OwnOp config (answered config env (.completed ok) alloc op).1 op' := by
      have kept := completedEnv_kept env ok op
      rw [answered_actv isActv inside]
      exact ⟨lives_next_iff running inside kept _,
        fun op' sent => (ownOp_of_next kept inside op' sent).2⟩
    cases op with
    | createAdv | createScan | setAdvData | setScanRspData | start | stop | delete =>
        obtain ⟨ok, rfl⟩ := fits
        exact handled ok
    | _ => exact absurd isActv id
  · cases op with
    | createInit | startInit | stopInit | initEvent | updateParams | disconnect | mtuExch =>
        obtain ⟨single, env', kept, next_eq⟩ :=
          answered_single running own trivial hears fits (fun profile => absurd profile id)
        obtain ⟨lives, sent⟩ := ends kept single
        rw [next_eq]
        exact ⟨iff_of_true lives trivial, sent⟩
    | read | write =>
        cases alloc with
        | true =>
            obtain ⟨single, env', kept, next_eq⟩ :=
              answered_single running own trivial hears fits fun _ => rfl
            obtain ⟨lives, sent⟩ := ends kept single
            rw [next_eq]
            exact ⟨iff_of_true lives rfl, sent⟩
        | false =>
            obtain ⟨ok, rfl⟩ := fits
            exact ⟨iff_of_false not_lives_fault Bool.false_ne_true, fun op' sent => by cases sent⟩
    | writeNoResponse => exact absurd hears id
    | readInfo slot =>
        have own_read : OwnOp config env .read := own
        cases answer with
        | completed ok => exact absurd rfl (fits ok)
        | unknownHandle =>
            exact ⟨iff_of_false (not_lives_silent running) id, fun op' sent => by cases sent⟩
        | knownHandle prop =>
            have lives := lives_unchecked_iff running own_read alloc
            exact ⟨lives.trans (and_iff_left trivial), sends own_read⟩
    | writeInfo slot =>
        have own_write : OwnOp config env .write := own
        have single : ¬IsMulti env.cmd := own ▸ id
        cases answer with
        | completed ok => exact absurd rfl (fits ok)
        | unknownHandle =>
            obtain ⟨lives, sent⟩ := ends (.refl env) single
            exact ⟨iff_of_true lives trivial, sent⟩
        | knownHandle prop =>
            cases prop with
            | writeNoResponse =>
                have own_write : OwnOp config env .writeNoResponse := own
                have lives := lives_unchecked_iff running own_write alloc
                exact ⟨lives.trans (and_iff_right_of_imp False.elim), sends own_write⟩
            | write =>
                have lives := lives_unchecked_iff running own_write alloc
                exact ⟨lives.trans (and_iff_left trivial), sends own_write⟩
            | neither =>
                obtain ⟨lives, sent⟩ := ends (.refl env) single
                exact ⟨iff_of_true lives trivial, sent⟩
    | _ => exact absurd trivial isActv

end Reaction

/-! ## Calls -/

/-- What becomes of a call when no command runs. -/
inductive Started (config : Config) (starts : Prop) : BleErr × Env × List Effect → Prop
  | failed {err : BleErr} {env : Env} (error : err ≠ .success) (well : starts) :
      Started config starts (err, env, [])
  | faulted {env : Env} (missing : ¬starts) : Started config starts (.success, env, [.fault])
  | sent {env : Env} {op : Op} (own : OwnOp config env op) (hears : Hears env op ↔ starts) :
      Started config starts (.success, env, [.sent op])

section Calls

variable {env : Env} {idx : UInt8} {callback : Option Call} {alloc : Bool}

variable {cmd : BleCmd} {opMask : UInt32} {starts : Prop} {allowed : List ActvState}

theorem started_bkBleCmd (ready : env.Ready) {first : Env → BleErr × List Effect}
    (started : Started config starts ((first (appBleRun env idx cmd opMask callback)).1,
      appBleRun env idx cmd opMask callback, (first (appBleRun env idx cmd opMask callback)).2)) :
    Started config starts (bkBleCmd env idx cmd opMask callback first) := by
  unfold bkBleCmd
  rw [if_pos ready]
  revert started
  dsimp only
  generalize first (appBleRun env idx cmd opMask callback) = result
  obtain ⟨err, effects⟩ := result
  intro started
  cases started with
  | failed error well =>
      rw [if_neg error]
      exact .failed error well
  | faulted missing => exact .faulted missing
  | sent own hears => exact .sent own hears

section

variable {op : Env → Op} (ready : env.Ready) (isActv : ∀ env, IsActv (op env))
include ready isActv

theorem started_actvCmd :
    Started config True (bkBleCmd env idx cmd opMask callback fun env =>
      appBleActvCmd config env idx allowed (op env) alloc) := by
  have small := config.activity_lt
  refine started_bkBleCmd ready ?_
  unfold appBleActvCmd
  split_ifs with outside
  · exact .failed (by simp) trivial
  · have idx_eq := appBleRun_idx env (by omega : idx.toNat < 64) cmd opMask callback
    have actv := isActv (appBleRun env idx cmd opMask callback)
    refine .sent (ownOp_of_isActv actv ?_) (iff_of_true ?_ trivial)
    · rw [idx_eq]
      exact Nat.lt_of_not_le outside
    · exact hears_of_isActv actv
  · exact .failed (by simp) trivial
  · exact .failed (by simp) trivial

theorem started_bkBleActvCmd :
    Started config True (bkBleActvCmd config env idx cmd opMask callback fun env =>
      appBleActvCmd config env idx allowed (op env) alloc) := by
  unfold bkBleActvCmd
  split_ifs
  · exact .failed (by simp) trivial
  · exact started_actvCmd ready isActv

end

theorem started_actv (ready : env.Ready) (function : ActvApi) :
    Started config True (function.call config env idx callback alloc) := by
  have cmd {cmd : BleCmd} {opMask : UInt32} {allowed : List ActvState} {op : Env → Op}
      (isActv : ∀ env, IsActv (op env)) : Started config True
        (bkBleCmd env idx cmd opMask callback fun env =>
          appBleActvCmd config env idx allowed (op env) alloc) := started_actvCmd ready isActv
  unfold ActvApi.call
  cases function with
  | advStart | advStop | scanStart | scanStop =>
      exact started_bkBleActvCmd ready fun _ => by trivial
  | setAdvData advLen =>
      simp only [bkBleSetAdvData]
      split_ifs
      · exact .failed (by simp) trivial
      · exact cmd fun _ => by trivial
  | setScanRspData scanLen =>
      simp only [bkBleSetScanRspData]
      split_ifs
      · exact .failed (by simp) trivial
      · exact cmd fun _ => by trivial
  | _ => exact cmd fun _ => by trivial

theorem idx_of_connection (inside : idx.toNat < config.connectionMax) :
    (appBleRun env idx cmd opMask callback).idx = idx :=
  appBleRun_idx env (idx_lt_of_connection (Nat.not_le.mpr inside)) ..

/-- A function for a connection. -/
theorem started_connCmd (ready : env.Ready) {kernelIdx : UInt8} {op : UInt8 → Op}
    (refused : (idx.toNat < config.connectionMax →
      (appBleGetConnhdl env.connections idx.toNat).toUInt16 ≠ unknowConnHdl → alloc = false) →
        starts) (own : idx.toNat < config.connectionMax →
      OwnOp config (appBleRun env idx cmd opMask callback) (op kernelIdx))
    (hears : idx.toNat < config.connectionMax →
      (appBleGetConnhdl env.connections idx.toNat).toUInt16 ≠ unknowConnHdl → alloc = true →
        (Hears (appBleRun env idx cmd opMask callback) (op kernelIdx) ↔ starts)) :
    Started config starts (bkBleCmd env idx cmd opMask callback fun env => connMessage
      (BleConnections.appBleConnCmd config env.connections idx kernelIdx alloc) op) := by
  refine started_bkBleCmd ready ?_
  unfold BleConnections.appBleConnCmd connMessage
  split_ifs with outside unknown allocated
  · exact .failed (by simp) (refused fun inside => absurd inside (Nat.not_lt.mpr outside))
  · have inside := Nat.lt_of_not_le outside
    exact .sent (own inside) (hears inside unknown allocated)
  · exact .failed (by simp) (refused fun _ _ => Bool.eq_false_iff.mpr allocated)
  · exact .failed (by simp) (refused fun _ known => absurd known unknown)

theorem started_updateParam (ready : env.Ready) :
    Started config (Starts config env idx alloc .updateParam)
      (bkBleUpdateParam config env idx callback alloc) := by
  refine started_connCmd ready ?_ ?_ ?_
  · intro refused inside known allocated
    exact absurd ((refused inside known).symm.trans allocated) (by simp)
  · intro inside
    refine ⟨rfl, ?_⟩
    rw [idx_of_connection inside]
    exact inside
  · intro inside known allocated
    have here : Hears (appBleRun env idx .connUpdateParam 1 callback)
        (.updateParams (appBleGetConnhdl env.connections idx.toNat)) ↔
          (env.connections idx.toNat).connOpMask &&& 1 ≠ 0 := by
      unfold Hears
      rw [idx_of_connection inside]
      exact Iff.rfl
    refine here.trans ⟨fun bit _ _ _ => bit, fun starts => starts inside known allocated⟩

/-- A function for an initiated connection. -/
theorem started_bkBleInitCmd (ready : env.Ready) {first : Env → Bool × Env × List Effect}
    (started : Started config starts
      (if (first (appBleRun env idx cmd opMask callback)).1 then .success else .initCreate,
        (first (appBleRun env idx cmd opMask callback)).2)) :
    Started config starts (bkBleInitCmd env idx cmd opMask callback first) := by
  unfold bkBleInitCmd
  rw [if_pos ready]
  revert started
  dsimp only
  generalize first (appBleRun env idx cmd opMask callback) = result
  obtain ⟨ok, env', effects⟩ := result
  cases ok with
  | true => exact id
  | false =>
      rintro (⟨error, well⟩ | _ | _)
      exact .failed error well

theorem started_unchecked {op : Op} (own : OwnOp config env op) (hears : Hears env op)
    (needed : starts ↔ alloc = true) :
    Started config starts (.success, env, unchecked op alloc) := by
  cases alloc with
  | true => exact .sent own (iff_of_true hears (needed.mpr rfl))
  | false => exact .faulted fun well => absurd (needed.mp well) (by simp)

theorem initingCheckIndex_initingIndex (inside : idx.toNat < config.connectionMax) :
    initingCheckIndex config (initingIndex config idx) := by
  have fewer := config.connection_lt
  have small := config.activity_lt
  have index_eq : (initingIndex config idx).toNat = idx.toNat + config.activityMax := by
    rw [initingIndex, UInt8.toNat_add, UInt8.toNat_ofNat']
    omega
  refine ⟨?_, ?_⟩ <;> omega

section

variable (ready : env.Ready)
include ready

theorem started_createInit (param : ConnParam) (reused : Bool) :
    Started config (Starts config env idx alloc (.createInit param reused))
      (bkBleCreateInit config env idx callback alloc param reused) := by
  refine started_bkBleInitCmd ready ?_
  unfold appmCreateIniting
  by_cases outside : config.connectionMax ≤ idx.toNat
  · simp only [if_pos outside]
    exact .failed (by simp) fun inside => absurd inside (Nat.not_lt.mpr outside)
  have inside := Nat.lt_of_not_le outside
  have here : (appBleRun env idx .initCreate 1 callback).connections = env.connections := rfl
  by_cases idle : (env.connections idx.toNat).initState = .idle
  · simp only [if_neg outside, here, if_pos idle, decide_true, if_true]
    have initing := initingCheckIndex_initingIndex inside
    refine started_unchecked ?_ ?_
      ⟨fun starts => starts inside idle, fun allocated _ _ => allocated⟩
    · cases reused <;> exact ⟨rfl, initing⟩
    · cases reused <;> exact trivial
  · simp only [if_neg outside, here, if_neg idle]
    exact .failed (by simp) fun _ wanted => absurd wanted idle

/-- The start and the stop of initiating a connection. -/
theorem started_connecting {mask : UInt32} {expected next : InitState} {op : Op}
    (own : idx.toNat < config.connectionMax → ∀ env', env'.cmd = cmd → OwnOp config env' op)
    (hears : ∀ env', Hears env' op) :
    Started config
      (idx.toNat < config.connectionMax → (env.connections idx.toNat).initState = expected →
        alloc = true)
      (bkBleInitCmd env idx cmd opMask callback fun env =>
        let connecting := appmConnecting config env idx expected next mask op alloc
        ((connecting.1 = .success : Bool), connecting.2)) := by
  refine started_bkBleInitCmd ready ?_
  unfold appmConnecting
  by_cases outside : config.connectionMax ≤ idx.toNat
  · simp only [if_pos outside]
    exact .failed (by simp) fun inside => absurd inside (Nat.not_lt.mpr outside)
  have inside := Nat.lt_of_not_le outside
  have here : (appBleRun env idx cmd opMask callback).connections = env.connections := rfl
  by_cases right : (env.connections idx.toNat).initState = expected
  · simp only [if_neg outside, here, if_pos right, decide_true, if_true]
    exact started_unchecked (own inside _ rfl) (hears _)
      ⟨fun starts => starts inside right, fun allocated _ _ => allocated⟩
  · simp only [if_neg outside, here, if_neg right]
    exact .failed (by simp) fun _ wanted => absurd wanted right

theorem started_serviceReq {known : Bool} {op : Op}
    (own : ∀ env', env'.cmd = cmd → OwnOp config env' op) (hears : ∀ env', Hears env' op) :
    Started config (idx.toNat < config.connectionMax → known = true → alloc = true)
      (bkBleInitCmd env idx cmd opMask callback fun env =>
        let asked := appmServiceReq config idx known op alloc
        (asked.1, env, asked.2)) := by
  refine started_bkBleInitCmd ready ?_
  unfold appmServiceReq
  by_cases outside : config.connectionMax ≤ idx.toNat
  · simp only [if_pos outside]
    exact .failed (by simp) fun inside => absurd inside (Nat.not_lt.mpr outside)
  have inside := Nat.lt_of_not_le outside
  cases known with
  | true =>
      simp only [if_neg outside, if_true]
      exact started_unchecked (own _ rfl) (hears _)
        ⟨fun starts => starts inside trivial, fun allocated _ _ => allocated⟩
  | false =>
      simp only [if_neg outside]
      exact .failed (by simp) fun _ wanted => absurd wanted (by simp)

theorem started_call (function : Api) :
    Started config (Starts config env idx alloc function)
      (function.call config env idx callback alloc) := by
  have simple {cmd : BleCmd} {opMask : UInt32} {op : UInt8 → Op}
      (own : idx.toNat < config.connectionMax →
        OwnOp config (appBleRun env idx cmd opMask callback) (op idx))
      (hears : ∀ env, Hears env (op idx)) :
      Started config True (bkBleCmd env idx cmd opMask callback fun env =>
        connMessage (BleConnections.appBleConnCmd config env.connections idx idx alloc) op) :=
    started_connCmd ready (fun _ => trivial) own fun _ _ _ => iff_of_true (hears _) trivial
  have inside_run {cmd : BleCmd} {opMask : UInt32} (inside : idx.toNat < config.connectionMax) :
      (appBleRun env idx cmd opMask callback).idx.toNat < config.connectionMax := by
    rwa [idx_of_connection inside]
  cases function with
  | actv function => exact started_actv ready function
  | updateParam => exact started_updateParam ready
  | disconnect | gattMtuChange =>
      exact simple (fun inside => ⟨rfl, inside_run inside⟩) fun _ => trivial
  | createInit param reused => exact started_createInit ready param reused
  | initStartConn | initStopConn =>
      exact started_connecting ready
        (fun inside _ cmd_eq => ⟨cmd_eq, initingCheckIndex_initingIndex inside⟩) fun _ => trivial
  | readServiceDataByHandleReq known | writeServiceDataReq known =>
      exact started_serviceReq ready (fun _ cmd_eq => cmd_eq) fun _ => trivial

end

end Calls

end BdkFreertos.BleProgress
