import BdkFreertos.BleCommands

/-!
# The callbacks of the BLE application

A call is told the end of its command by its callback.  Handlers of completions go on with whatever
command runs, so that a completion may be taken for that of another message.
-/

namespace BdkFreertos.BleCallbacks

open BleConnections (BleErr Config initingCheckIndex)
open BleApp BleCommands

variable (config : Config)

/-- An answer or a completion that belongs to no command. -/
def completes : Event → Prop
  | .answered _ _ _ | .foreign _ _ _ => True
  | _ => False

/-- An answer to a message of the command that was accepted last. -/
def belongs (system : System) : Event → Prop
  | .answered position _ _ =>
      ∃ pending ∈ system.pending[position]?, pending.owner = some system.current.number
  | _ => False

/-- Nothing is sent, no callback is invoked, and the command that runs does not end. -/
structure Quiet (reaction : Env × List Effect) : Prop where
  called : called reaction.2 = []
  sent : sentOps reaction.2 = []
  running : reaction.1.Running

/-- Every callback is that of an accepted call, which has not been invoked before, and tells it its
own command, its own index and the status of an answer to one of its own messages; other
completions leave the command that runs alone. -/
structure Reports (system : System) (event : Event) : Prop where
  own : ∀ call cmd idx status,
    .callback call cmd idx status ∈ (reaction config system event).2 →
      call ∈ system.waiting ∧ cmd = call.cmd ∧ idx = call.idx ∧
        ∃ position answer alloc, event = .answered position answer alloc ∧
          ∃ pending ∈ system.pending[position]?, pending.owner = some call.number ∧
            status = answerStatus pending.op answer
  once : (called (reaction config system event).2).Nodup
  others : completes event → ¬belongs system event → system.env.Running →
    Quiet (reaction config system event)

/-- The same for the events of an application that has not halted. -/
def Good (system : System) (event : Event) : Prop :=
  system.halted = false → Reports config system event

/-- The states of its activity in which a step of a command is sent. -/
def stepStates : BleCmd → ℕ → List ActvState
  | .initAdv, 1 | .initAdv, 2 => [.advCreated, .advStarted]
  | .initAdv, 3 | .deinitAdv, 5 => [.advCreated]
  | .initScan, 1 | .deinitScan, 3 => [.scanCreated]
  | _, _ => []

/-- A message for an activity is sent in one of some states. -/
def Sends (env : Env) (alloc : Bool) (states : List ActvState) : Prop :=
  env.idx.toNat < config.activityMax ∧ (env.actvs env.idx.toNat).actvStatus ∈ states ∧ alloc = true

def StepSends (env : Env) (alloc : Bool) : Prop :=
  Sends config env alloc (stepStates env.cmd (opIdx env.opMask))

/-- The next operation stalls: no message is sent, no callback is invoked, and the command does not
end. -/
def Stalls (env : Env) (status : BleErr) (alloc : Bool) : Prop :=
  match env.cmd with
  | .initAdv => initStalls .advCreated
  | .initScan => initStalls .scanCreated
  | .deinitAdv | .deinitScan => env.opMask ≠ 0 ∧ ¬StepSends config env alloc
  | .initDisConn => True
  | _ => False
where
  /-- The same for a command with a clean-up. -/
  initStalls (created : ActvState) : Prop :=
    if env.opMask ≠ 0 ∧ status = .success then ¬StepSends config env alloc
    else
      status ≠ .success ∧ (env.actvs env.idx.toNat).actvStatus = created ∧ env.opCb = none ∧
        ¬Sends config env alloc [created]

/-- A completion that belongs to no command is not heard while a command runs. -/
def Unheard (env : Env) (ok alloc : Bool) : Foreign → Prop
  | .notified => Stalls config env (errOf ok) alloc
  | .disconnected | .mtuExchanged =>
      config.connectionMax ≤ env.idx.toNat ∨ Stalls config env (errOf ok) alloc
  | .paramsUpdated =>
      config.connectionMax ≤ env.idx.toNat ∨
        (env.connections env.idx.toNat).connOpMask &&& 1 = 0 ∨ Stalls config env (errOf ok) alloc
  | .initingStopped conidx => initingCheckIndex config conidx → env.cmd ≠ .initStopConn

/-- The completion of a delete command, sent when no command ran, is not heard while one does. -/
def DeleteUnheard (env : Env) (ok alloc : Bool) : Prop :=
  config.activityMax ≤ env.idx.toNat ∨
    Stalls config ((env.setActv env.idx .idle).clear (8 ||| 32)) (errOf ok) alloc

/-- No completion that is not its own is heard while a command runs. -/
def Careful (system : System) : Event → Prop
  | .foreign completion ok alloc =>
      system.halted = false → system.env.Running →
        Unheard config system.env ok alloc completion
  | .answered position (.completed ok) alloc =>
      system.halted = false → system.env.Running →
        ∀ pending ∈ system.pending[position]?, pending.owner = none →
          DeleteUnheard config system.env ok alloc
  | _ => True

variable {config}

section Next

variable {env : Env} {status : BleErr} {alloc : Bool}

theorem not_quiet_of_ready {reaction : Env × List Effect} (ready : reaction.1.Ready) :
    ¬Quiet reaction := fun quiet => quiet.running.not_ready ready

theorem not_quiet_finish : ¬Quiet (finish env env.idx status) :=
  not_quiet_of_ready (appBleReset_ready env)

theorem quiet_actvCmd_iff (running : env.Running) {allowed : List ActvState} {op : Op} :
    Quiet (env, (appBleActvCmd config env env.idx allowed op alloc).2) ↔
      ¬Sends config env alloc allowed := by
  have uncalled : called (appBleActvCmd config env env.idx allowed op alloc).2 = [] := by
    have effects : (appBleActvCmd config env env.idx allowed op alloc).2 = [] ∨ _ :=
      appBleActvCmd_effects env env.idx allowed op alloc
    rcases effects with none | sent
    · rw [none]
      rfl
    · rw [sent]
      rfl
  constructor
  · rintro ⟨-, nothing, -⟩ sends
    unfold Sends at sends
    rw [sentOps_appBleActvCmd, if_pos sends] at nothing
    cases nothing
  · intro stays
    unfold Sends at stays
    refine ⟨uncalled, ?_, running⟩
    rw [sentOps_appBleActvCmd, if_neg stays]

theorem quiet_append_iff {opCb : Option Call} {cmd : BleCmd} {idx : UInt8}
    {effects : List Effect} :
    Quiet (env, callback opCb cmd idx status ++ effects) ↔ opCb = none ∧ Quiet (env, effects) := by
  constructor
  · rintro ⟨nobody, nothing, running⟩
    dsimp only at nobody nothing
    rw [called_append, called_callback, List.append_eq_nil_iff] at nobody
    rw [sentOps_append, sentOps_callback, List.nil_append] at nothing
    exact ⟨by simpa using nobody.1, nobody.2, nothing, running⟩
  · rintro ⟨rfl, quiet⟩
    exact quiet

variable {gapIdx : UInt8}

theorem quiet_initOperation_iff (running : env.Running) {step : ℕ → BleErr × List Effect}
    (steps : ∀ position, Quiet (env, (step position).2) ↔
      ¬Sends config env alloc (stepStates env.cmd position)) {created : ActvState} :
    Quiet (initOperation env env.idx status step created
        (appBleActvCmd config env env.idx [created] (.delete gapIdx) alloc)) ↔
      Stalls.initStalls config env status alloc created := by
  unfold initOperation Stalls.initStalls
  split_ifs with more noCallback failed isCreated failed isCreated
  · exact steps _
  · rw [quiet_append_iff, quiet_actvCmd_iff running]
    tauto
  · exact iff_of_false (not_quiet_of_ready (appBleReset_ready _)) (by tauto)
  · exact iff_of_false (not_quiet_of_ready (appBleReset_ready _)) (by tauto)
  · rw [quiet_append_iff]
    tauto
  · exact iff_of_false (not_quiet_of_ready (appBleReset_ready _)) (by tauto)
  · exact iff_of_false (not_quiet_of_ready (appBleReset_ready _)) (by tauto)

theorem quiet_deinitOperation_iff (running : env.Running) {delPos : ℕ} {created : ActvState}
    (states : ∀ position,
      stepStates env.cmd position = if position = delPos then [created] else []) :
    Quiet (deinitOperation env env.idx status delPos
        (appBleActvCmd config env env.idx [created] (.delete gapIdx) alloc)) ↔
      env.opMask ≠ 0 ∧ ¬StepSends config env alloc := by
  unfold deinitOperation StepSends
  rw [states]
  split_ifs with more here
  · rw [quiet_actvCmd_iff running]
    tauto
  · refine iff_of_true ⟨rfl, rfl, running⟩ ⟨more, ?_⟩
    simp [Sends]
  · exact iff_of_false not_quiet_finish (by tauto)
  · exact iff_of_false not_quiet_finish (by tauto)

theorem quiet_iff_stalls (running : env.Running) :
    Quiet (appBleNextOperation config env env.idx status alloc) ↔
      Stalls config env status alloc := by
  unfold appBleNextOperation Stalls
  have unsent (cmd : BleCmd) (position : ℕ) (nothing : stepStates cmd position = []) :
      Quiet (env, []) ↔ ¬Sends config env alloc (stepStates cmd position) := by
    refine iff_of_true ⟨rfl, rfl, running⟩ ?_
    rw [nothing]
    simp [Sends]
  cases cmd : env.cmd with
  | initAdv =>
      refine quiet_initOperation_iff running fun position => ?_
      rw [cmd]
      unfold initAdvStep
      split
      · exact quiet_actvCmd_iff running
      · exact quiet_actvCmd_iff running
      · exact quiet_actvCmd_iff running
      · refine unsent _ _ ?_
        unfold stepStates
        split <;> simp_all
  | initScan =>
      refine quiet_initOperation_iff running fun position => ?_
      rw [cmd]
      unfold initScanStep
      split
      · exact quiet_actvCmd_iff running
      · refine unsent _ _ ?_
        unfold stepStates
        split <;> simp_all
  | deinitAdv | deinitScan =>
      refine quiet_deinitOperation_iff running fun position => ?_
      rw [cmd]
      unfold stepStates
      split <;> simp_all
  | initDisConn => exact iff_of_true ⟨rfl, rfl, running⟩ trivial
  | _ => exact iff_of_false not_quiet_finish id

end Next

section Heard

variable {env : Env} {ok alloc : Bool}

theorem quiet_next_iff (running : env.Running) {env' : Env} (kept : Kept env env')
    (status : BleErr) :
    Quiet (appBleNextOperation config env' env.idx status alloc) ↔
      Stalls config env' status alloc := by
  have running' : env'.Running := (running_congr kept.appStatus).mpr running
  rw [← idx_congr kept.appStatus]
  exact quiet_iff_stalls running'

theorem Env.Running.bit {env : Env} (running : env.Running) : env.appStatus &&& 2 ≠ 0 := by
  intro clear
  have both : env.appStatus &&& 3 &&& 2 = env.appStatus &&& 2 := by
    rw [UInt8.and_assoc]
    rfl
  rw [running, clear] at both
  exact absurd both (by decide)

theorem quiet_connCompleted_iff (running : env.Running) (bits : UInt32) :
    Quiet (connCompleted config env bits (errOf ok) alloc) ↔
      config.connectionMax ≤ env.idx.toNat ∨ Stalls config env (errOf ok) alloc := by
  unfold connCompleted
  split_ifs with outside
  · exact iff_of_true ⟨rfl, rfl, running⟩ (.inl outside)
  · rw [or_iff_right outside]
    exact quiet_next_iff running ((Kept.refl env).setConn ..) _

theorem quiet_foreign_iff (running : env.Running) (completion : Foreign) :
    Quiet (foreign config env ok alloc completion) ↔ Unheard config env ok alloc completion := by
  cases completion with
  | notified => exact quiet_iff_stalls running
  | disconnected => exact quiet_connCompleted_iff running 1
  | mtuExchanged => exact quiet_connCompleted_iff running 2
  | paramsUpdated =>
      simp only [foreign, paramsUpdated, Unheard]
      split_ifs with updating
      · rw [quiet_connCompleted_iff running 1]
        have masked := updating.2
        tauto
      · refine iff_of_true ⟨rfl, rfl, running⟩ ?_
        by_contra heard
        push Not at heard
        exact updating ⟨Env.Running.bit running, heard.2.1⟩
  | initingStopped conidx =>
      simp only [foreign, Unheard]
      by_cases initing : initingCheckIndex config conidx
      · simp only [if_pos initing, gapmCmpEvtHandler, initingCompleted]
        split_ifs with stopping
        · refine iff_of_false ?_ fun unheard => unheard initing stopping
          simp only [appBleNextOperation, Env.clear, Env.setConn, stopping]
          exact not_quiet_finish
        · exact iff_of_true ⟨rfl, rfl, running⟩ fun _ => stopping
      · simp only [if_neg initing]
        exact iff_of_true ⟨rfl, rfl, running⟩ fun initing' => absurd initing' initing

theorem quiet_delete_iff (running : env.Running) (gapIdx : UInt8) :
    Quiet (answered config env (.completed ok) alloc (.delete gapIdx)) ↔
      DeleteUnheard config env ok alloc := by
  simp only [answered, answered.completed, gapmCmpEvtHandler, actvCompleted, DeleteUnheard]
  split_ifs with outside
  · exact iff_of_true ⟨rfl, rfl, running⟩ (.inl outside)
  · rw [or_iff_right outside]
    exact quiet_next_iff running (((Kept.refl env).setActv ..).clear _) _

end Heard

/-! ## The invariant -/

/-- A command runs for the call that was accepted last. -/
structure Runs (env : Env) (current : Call) (waiting : List Call) : Prop where
  running : env.Running
  cmd : env.cmd = current.cmd
  idx : env.idx = current.idx
  opCb : env.opCb = none ∨ env.opCb = some current ∧ current ∈ waiting

/-- No command runs. -/
structure Rests (env : Env) : Prop where
  ready : env.Ready
  opMask : env.opMask = 0
  opCb : env.opCb = none

/-- A message was sent by the command that runs, or deletes an activity when no command ran. -/
def Owned (env : Env) (current : Call) (pending : Pending) : Prop :=
  pending.owner = none ∧ (∃ gapIdx, pending.op = .delete gapIdx) ∨
    pending.owner = some current.number ∧ env.Running ∧
      ∀ conIdx, pending.op = .writeInfo conIdx → conIdx = current.idx

/-- What every careful step keeps: the command that runs has at most one message on its way. -/
structure Strong (system : System) : Prop where
  state : Runs system.env system.current system.waiting ∨ Rests system.env
  owned : ∀ pending ∈ system.pending, Owned system.env system.current pending
  single : system.pending.countP (·.owner = some system.current.number) ≤ 1

theorem Rests.reset (env : Env) : Rests (appBleReset env) := ⟨appBleReset_ready env, rfl, rfl⟩

theorem Rests.not_running {env : Env} (rests : Rests env) : ¬env.Running :=
  fun running => running.not_ready rests.ready

section React

variable {system : System}

theorem react_silent (system : System) (env : Env) (owner : Option ℕ) :
    system.react (env, []) owner = { system with env := env, halted := false } := by
  simp [System.react, called, sentOps]

variable {env env' : Env} {current : Call} {waiting : List Call} {idx : UInt8} {status : BleErr}
  {alloc : Bool}

theorem state_kept (kept : Kept env env') (state : Runs env current waiting ∨ Rests env) :
    Runs env' current waiting ∨ Rests env' := by
  refine state.imp (fun runs => ⟨?_, kept.cmd.trans runs.cmd, ?_, ?_⟩) fun rests => ⟨?_, ?_, ?_⟩
  · exact (running_congr kept.appStatus).mpr runs.running
  · exact (idx_congr kept.appStatus).trans runs.idx
  · rw [kept.opCb]
    exact runs.opCb
  · exact (ready_congr kept.appStatus).mpr rests.ready
  · exact kept.opMask rests.opMask
  · exact kept.opCb.trans rests.opCb

theorem Strong.kept (strong : Strong system) {after : System}
    (kept : Kept system.env after.env) (current_eq : after.current = system.current)
    (waiting_eq : after.waiting = system.waiting) (pending_eq : after.pending = system.pending) :
    Strong after := by
  refine ⟨?_, fun pending pending_mem => ?_, ?_⟩
  · rw [current_eq, waiting_eq]
    exact state_kept kept strong.state
  · rw [pending_eq] at pending_mem
    rw [current_eq]
    refine (strong.owned pending pending_mem).imp id ?_
    rintro ⟨owner, running, own⟩
    exact ⟨owner, (running_congr kept.appStatus).mpr running, own⟩
  · rw [current_eq, pending_eq]
    exact strong.single

def Unowned (system : System) : Prop :=
  ∀ pending ∈ system.pending, pending.owner = none ∧ ∃ gapIdx, pending.op = .delete gapIdx

theorem Unowned.count (unowned : Unowned system) :
    system.pending.countP (·.owner = some system.current.number) = 0 := by
  refine List.countP_eq_zero.mpr fun pending pending_mem => ?_
  rw [(unowned pending pending_mem).1]
  simp

/-- Messages are sent only while a command runs, and at most one, unless an activity is deleted. -/
theorem Strong.react (unowned : Unowned system) {reaction : Env × List Effect}
    (state' : Runs reaction.1 system.current
        (system.waiting.filter (· ∉ called reaction.2)) ∨ Rests reaction.1)
    (sent : sentOps reaction.2 = [] ∨ ∃ op, sentOps reaction.2 = [op] ∧
      (system.env.Running ∧ reaction.1.Running ∧ (∀ conIdx, op ≠ .writeInfo conIdx) ∨
        ¬system.env.Running ∧ ∃ gapIdx, op = .delete gapIdx)) :
    Strong (system.react reaction system.running) := by
  have old (pending : Pending) (pending_mem : pending ∈ system.pending) :
      Owned reaction.1 system.current pending := .inl (unowned pending pending_mem)
  rcases sent with nothing | ⟨op, sends, sender⟩
  · refine ⟨state', fun pending pending_mem => ?_, ?_⟩
    · simp only [System.react, nothing, List.map_nil, List.append_nil] at pending_mem
      exact old pending pending_mem
    · simp [System.react, nothing, unowned.count]
  · refine ⟨state', fun pending pending_mem => ?_, ?_⟩
    · simp only [System.react, sends, List.map_cons, List.map_nil, List.mem_append,
        List.mem_singleton] at pending_mem
      rcases pending_mem with pending_mem | rfl
      · exact old pending pending_mem
      · rcases sender with ⟨running, running', noWrite⟩ | ⟨resting, deletes⟩
        · refine .inr ⟨?_, running', fun conIdx write => absurd write (noWrite conIdx)⟩
          rw [System.running, if_pos running]
          rfl
        · exact .inl ⟨by simp [System.running, resting], deletes⟩
    · simp only [System.react, sends, List.map_cons, List.map_nil, List.countP_append,
        unowned.count, Nat.zero_add]
      exact List.countP_le_length

theorem state_next (kept : Kept env env') {result : Env × List Effect}
    (outcome : Outcome env' idx status result) (state : Runs env current waiting ∨ Rests env) :
    Runs result.1 current (waiting.filter (· ∉ called result.2)) ∨ Rests result.1 := by
  rcases outcome.state with reset | ⟨same, opCb⟩
  · rw [reset]
    exact .inr (.reset _)
  rw [kept.appStatus] at same
  rw [kept.opCb] at opCb
  refine state.imp (fun runs => ?_) fun rests => ?_
  · refine ⟨?_, ?_, ?_, ?_⟩
    · exact (running_congr same).mpr runs.running
    · rw [outcome.cmd_eq, kept.cmd, runs.cmd]
    · exact (idx_congr same).trans runs.idx
    · rcases opCb with opCb | opCb
      · rcases outcome.called_cases with nobody | ⟨-, cleared⟩
        · simpa [opCb, nobody] using runs.opCb
        · exact .inl cleared
      · exact .inl opCb
  · refine ⟨?_, ?_, ?_⟩
    · exact (ready_congr same).mpr rests.ready
    · rcases outcome.opMask_eq with opMask | opMask
      · rw [opMask, kept.opMask rests.opMask]
      · exact opMask
    · rcases opCb with opCb | opCb
      · rw [opCb, rests.opCb]
      · exact opCb

theorem strong_passes (state : Runs system.env system.current system.waiting ∨ Rests system.env)
    (unowned : Unowned system) {reaction : Env × List Effect}
    (passes : Passes config system.env idx status alloc reaction) :
    Strong (system.react reaction system.running) := by
  cases passes with
  | silent kept =>
      refine Strong.react unowned ?_ (.inl rfl)
      simpa [called] using state_kept kept state
  | @next env' kept =>
      have outcome : Outcome env' idx status (appBleNextOperation config env' idx status alloc) :=
        appBleNextOperation_outcome
      refine Strong.react unowned (state_next kept outcome state) ?_
      refine outcome.sent_cases.imp id ?_
      rintro ⟨op, sends, same, isStep⟩
      refine ⟨op, sends, ?_⟩
      rw [kept.appStatus] at same
      rcases state with runs | rests
      · refine .inl ⟨runs.running, ?_, ?_⟩
        · exact (running_congr same).mpr runs.running
        · rintro conIdx rfl
          exact isStep
      · have empty := kept.opMask rests.opMask
        refine .inr ⟨rests.not_running, ?_⟩
        cases op with
        | delete gapIdx => exact ⟨gapIdx, rfl⟩
        | setAdvData | setScanRspData | start => exact absurd empty isStep
        | _ => exact absurd isStep id

theorem strong_quiet (strong : Strong system) {reaction : Env × List Effect}
    (passes : Passes config system.env idx status alloc reaction) (quiet : Quiet reaction) :
    Strong (system.react reaction system.running) := by
  have state : Runs reaction.1 system.current
      (system.waiting.filter (· ∉ called reaction.2)) ∨ Rests reaction.1 := by
    cases passes with
    | silent kept => simpa [called] using state_kept kept strong.state
    | next kept => exact state_next kept appBleNextOperation_outcome strong.state
  refine ⟨state, fun pending pending_mem => ?_, ?_⟩
  · simp only [System.react, quiet.sent, List.map_nil, List.append_nil] at pending_mem
    refine (strong.owned pending pending_mem).imp id ?_
    rintro ⟨owner, -, own⟩
    exact ⟨owner, quiet.running, own⟩
  · simpa [System.react, quiet.sent] using strong.single

end React

/-! ## The steps -/

section Step

variable {system : System}

variable {position : ℕ} {pending : Pending}

theorem unowned_erase (strong : Strong system) (here : system.pending[position]? = some pending)
    (owner : pending.owner = some system.current.number) :
    Unowned { system with pending := system.pending.eraseIdx position } := by
  obtain ⟨position_lt, here⟩ := List.getElem?_eq_some_iff.mp here
  have split : system.pending =
      system.pending.take position ++ pending :: system.pending.drop (position + 1) := by
    rw [← here, ← List.drop_eq_getElem_cons, List.take_append_drop]
  have single := strong.single
  rw [split, List.countP_append, List.countP_cons_of_pos (by simp [owner])] at single
  intro other other_mem
  dsimp only at other_mem
  have member : other ∈ system.pending := List.mem_of_mem_eraseIdx other_mem
  refine (strong.owned other member).resolve_right ?_
  rintro ⟨own, -, -⟩
  have positive {list : List Pending} (mem : other ∈ list) :
      0 < list.countP (·.owner = some system.current.number) :=
    List.countP_pos_iff.mpr ⟨other, mem, decide_eq_true own⟩
  rw [List.eraseIdx_eq_take_drop_succ, List.mem_append] at other_mem
  rcases other_mem with other_mem | other_mem
  · have earlier := positive other_mem
    omega
  · have later := positive other_mem
    omega

theorem Strong.erase (strong : Strong system) (position : ℕ) :
    Strong { system with pending := system.pending.eraseIdx position } := by
  refine ⟨strong.state, fun pending pending_mem => ?_, ?_⟩
  · exact strong.owned pending (List.mem_of_mem_eraseIdx pending_mem)
  · exact Nat.le_trans (List.Sublist.countP_le (List.eraseIdx_sublist ..)) strong.single

theorem Strong.unowned (strong : Strong system) (resting : ¬system.env.Running) :
    Unowned system := fun pending pending_mem =>
  (strong.owned pending pending_mem).resolve_right fun ⟨_, running, _⟩ => resting running

theorem delete_passes {env : Env} {alloc : Bool} (answer : Answer) (gapIdx : UInt8) :
    Passes config env env.idx (answerStatus (.delete gapIdx) answer) alloc
      (answered config env answer alloc (.delete gapIdx)) := by
  cases answer with
  | completed ok => exact completed_passes ok id
  | _ => exact .silent (.refl env)

theorem strong_own (strong : Strong system) (here : system.pending[position]? = some pending)
    (owner : pending.owner = some system.current.number) (answer : Answer) (alloc : Bool) :
    Strong (System.react { system with pending := system.pending.eraseIdx position }
      (answered config system.env answer alloc pending.op) system.running) := by
  let base : System := { system with pending := system.pending.eraseIdx position }
  have unowned : Unowned base := unowned_erase strong here owner
  have state : Runs base.env base.current base.waiting ∨ Rests base.env := strong.state
  obtain ⟨running, -⟩ : system.env.Running ∧ _ :=
    ((strong.owned pending (List.mem_of_getElem? here)).resolve_left (by simp [owner])).2
  rcases answered_cases config system.env answer alloc pending.op with
    ⟨idx, -, passes⟩ | ⟨env_eq, effects⟩
  · exact strong_passes state unowned passes
  · have nobody : called (answered config system.env answer alloc pending.op).2 = [] := by
      rcases effects with fault | ⟨op, sent, -⟩
      · rw [fault]
        rfl
      · rw [sent]
        rfl
    refine Strong.react unowned ?_ ?_
    · rw [nobody, env_eq]
      simpa using state
    · rcases effects with fault | ⟨op, sent, isProfile⟩
      · exact .inl (by rw [fault]; rfl)
      · refine .inr ⟨op, by rw [sent]; rfl, .inl ⟨running, by rwa [env_eq], ?_⟩⟩
        rintro conIdx rfl
        exact isProfile

theorem strong_other (strong : Strong system) (position : ℕ) {gapIdx : UInt8} (answer : Answer)
    (alloc : Bool)
    (quiet : system.env.Running →
      Quiet (answered config system.env answer alloc (.delete gapIdx))) :
    Strong (System.react { system with pending := system.pending.eraseIdx position }
      (answered config system.env answer alloc (.delete gapIdx)) system.running) := by
  let base : System := { system with pending := system.pending.eraseIdx position }
  have strong' : Strong base := strong.erase position
  have passes : Passes config base.env base.env.idx (answerStatus (.delete gapIdx) answer) alloc
      (answered config base.env answer alloc (.delete gapIdx)) := delete_passes answer gapIdx
  by_cases running : system.env.Running
  · exact strong_quiet strong' passes (quiet running)
  · exact strong_passes strong'.state (strong'.unowned running) passes

theorem strong_foreign (strong : Strong system) (completion : Foreign) (ok alloc : Bool)
    (quiet : system.env.Running → Quiet (foreign config system.env ok alloc completion)) :
    Strong (system.react (foreign config system.env ok alloc completion) system.running) := by
  by_cases running : system.env.Running
  · exact strong_quiet strong (foreign_passes completion ok) (quiet running)
  · exact strong_passes strong.state (strong.unowned running) (foreign_passes completion ok)

theorem indicated_kept (env : Env) (indication : Indication) :
    Kept env (indicated config env indication) := by
  cases indication with
  | created conidx actvType gapIdx =>
      simp only [indicated, gapmActivityCreatedIndHandler]
      split_ifs
      · exact (Kept.refl env).setConn ..
      · exact .refl env
      · cases actvType <;> exact ⟨rfl, rfl, rfl, id⟩
  | stopped conidx actvType gapIdx =>
      simp only [indicated, gapmActivityStoppedIndHandler]
      split_ifs
      · exact .refl env
      · cases actvType <;> exact ⟨rfl, rfl, rfl, id⟩
      · cases actvType <;> exact ⟨rfl, rfl, rfl, id⟩
  | connected | disconnected => exact ⟨rfl, rfl, rfl, id⟩

theorem strong_api (strong : Strong system) (function : Api) (idx : UInt8) (wanted alloc : Bool) :
    Strong (stepEvent config system (.api function idx wanted alloc)) := by
  have outcome : CallOutcome function.cmd system.env idx
      (if wanted then some (system.call function idx) else none)
      (system.result config function idx wanted alloc) := call_outcome function alloc
  simp only [stepEvent, reaction]
  revert outcome
  generalize system.result config function idx wanted alloc = result
  intro outcome
  cases outcome with
  | refused error =>
      rw [if_neg error, react_silent]
      exact strong.kept (.refl _) rfl rfl rfl
  | @failed err env' error ready =>
      have unowned := strong.unowned fun running => running.not_ready ready
      rw [if_neg error, react_silent]
      exact ⟨.inr (.reset env'), fun pending pending_mem => .inl (unowned pending pending_mem),
        strong.single⟩
  | @accepted env' effects ready running idx_eq cmd_eq opCb_eq effects_eq =>
      have unowned := strong.unowned fun running => running.not_ready ready
      have nobody : called effects = [] := by
        rcases effects_eq with rfl | ⟨op, rfl, -⟩ <;> rfl
      rw [if_pos rfl]
      refine ⟨.inl ⟨running, cmd_eq, idx_eq, ?_⟩, fun pending pending_mem => ?_, ?_⟩
      · cases wanted
        · exact .inl opCb_eq
        · exact .inr ⟨opCb_eq, by simp [System.react, nobody]⟩
      · simp only [System.react, List.mem_append, List.mem_map] at pending_mem
        rcases pending_mem with pending_mem | ⟨op, op_mem, rfl⟩
        · exact .inl (unowned pending pending_mem)
        · refine .inr ⟨rfl, running, fun conIdx write => ?_⟩
          rcases effects_eq with rfl | ⟨op', rfl, own⟩
          · cases op_mem
          · obtain rfl : op = op' := by simpa [sentOps] using op_mem
            exact own conIdx write
      · have old :
            system.pending.countP (·.owner = some (system.call function idx).number) = 0 := by
          refine List.countP_eq_zero.mpr fun pending pending_mem => ?_
          rw [(unowned pending pending_mem).1]
          simp
        change (system.pending ++ (sentOps effects).map fun op =>
          Pending.mk op (some (system.call function idx).number)).countP
            (·.owner = some (system.call function idx).number) ≤ 1
        rw [List.countP_append, old, Nat.zero_add]
        refine Nat.le_trans List.countP_le_length ?_
        rcases effects_eq with rfl | ⟨op, rfl, -⟩ <;> simp [sentOps]

end Step

/-! ## What is reported -/

section Reports

variable {system : System}

variable {call : Call} {cmd : BleCmd} {idx : UInt8} {status : BleErr} {event : Event} {alloc : Bool}
  {env : Env}

theorem called_of_mem {effects : List Effect} (invoked : .callback call cmd idx status ∈ effects) :
    call ∈ called effects :=
  List.mem_filterMap.mpr ⟨_, invoked, rfl⟩

theorem reports_of_silent (nobody : called (reaction config system event).2 = [])
    (others : completes event → ¬belongs system event → system.env.Running →
      Quiet (reaction config system event)) : Reports config system event := by
  refine ⟨fun call cmd idx status invoked => ?_, by simp [nobody], others⟩
  have member := called_of_mem invoked
  rw [nobody] at member
  cases member

theorem called_of_rests (rests : Rests system.env) {reaction : Env × List Effect}
    (passes : Passes config system.env idx status alloc reaction) : called reaction.2 = [] := by
  cases passes with
  | silent kept => rfl
  | next kept =>
      rcases appBleNextOperation_outcome.called_cases with nobody | ⟨only, -⟩
      · exact nobody
      · rw [only, kept.opCb, rests.opCb]
        rfl

section

variable {reaction : Env × List Effect} (passes : Passes config env idx status alloc reaction)
include passes

theorem callback_of_passes {cmdIdx : UInt8} {status' : BleErr}
    (invoked : .callback call cmd cmdIdx status' ∈ reaction.2) :
    env.opCb = some call ∧ cmd = env.cmd ∧ cmdIdx = idx ∧ status' = status := by
  cases passes with
  | silent kept => cases invoked
  | @next env' kept =>
      have outcome : Outcome env' idx status (appBleNextOperation config env' idx status alloc) :=
        appBleNextOperation_outcome
      obtain ⟨opCb, sends, effects_eq, opCb_eq, sent⟩ := outcome.effects
      rw [effects_eq, List.mem_append] at invoked
      rcases invoked with invoked | invoked
      · simp only [callback, List.mem_map, Option.mem_toList] at invoked
        obtain ⟨call', held, same⟩ := invoked
        injection same with call_eq cmd_eq idx_eq status_eq
        subst call_eq
        rcases opCb_eq with rfl | ⟨rfl, -⟩
        · cases held
        · exact ⟨kept.opCb ▸ held, cmd_eq.symm.trans kept.cmd, idx_eq.symm, status_eq.symm⟩
      · rcases sent with rfl | ⟨op, rfl, -⟩
        · cases invoked
        · simp at invoked

theorem called_nodup : (called reaction.2).Nodup := by
  cases passes with
  | silent kept => exact List.nodup_nil
  | @next env' kept =>
      have outcome : Outcome env' idx status (appBleNextOperation config env' idx status alloc) :=
        appBleNextOperation_outcome
      rcases outcome.called_cases with nobody | ⟨only, -⟩
      · rw [nobody]
        exact List.nodup_nil
      · rw [only]
        cases env'.opCb <;> simp

end

theorem reports_own (strong : Strong system) {position : ℕ} {pending : Pending}
    (here : system.pending[position]? = some pending)
    (owner : pending.owner = some system.current.number) (answer : Answer) (alloc : Bool) :
    Reports config system (.answered position answer alloc) := by
  obtain ⟨running, own⟩ : system.env.Running ∧ _ :=
    ((strong.owned pending (List.mem_of_getElem? here)).resolve_left (by simp [owner])).2
  have runs := strong.state.resolve_right fun rests => rests.not_running running
  have reaction_eq : reaction config system (.answered position answer alloc) =
      answered config system.env answer alloc pending.op := by
    simp [reaction, here]
  have itself : belongs system (.answered position answer alloc) := ⟨pending, here, owner⟩
  rcases answered_cases config system.env answer alloc pending.op with
    ⟨idx, idx_eq, passes⟩ | ⟨-, effects⟩
  · refine ⟨fun call cmd cmdIdx status invoked => ?_, ?_, fun _ other => absurd itself other⟩
    · rw [reaction_eq] at invoked
      obtain ⟨opCb, rfl, rfl, rfl⟩ := callback_of_passes passes invoked
      obtain ⟨rfl, waiting⟩ : call = system.current ∧ system.current ∈ system.waiting := by
        rcases runs.opCb with none | ⟨some, waiting⟩
        · rw [none] at opCb
          cases opCb
        · rw [some] at opCb
          exact ⟨(Option.some.inj opCb).symm, waiting⟩
      refine ⟨waiting, runs.cmd, ?_, position, answer, alloc, rfl, pending, here, owner, rfl⟩
      rcases idx_eq with rfl | write
      · exact runs.idx
      · exact own cmdIdx write
    · rw [reaction_eq]
      exact called_nodup passes
  · refine reports_of_silent ?_ fun _ other => absurd itself other
    rw [reaction_eq]
    rcases effects with fault | ⟨op, sent, -⟩
    · rw [fault]
      rfl
    · rw [sent]
      rfl

theorem called_api (function : Api) (idx : UInt8) (wanted alloc : Bool) :
    called (reaction config system (.api function idx wanted alloc)).2 = [] := by
  have outcome : CallOutcome function.cmd system.env idx
      (if wanted then some (system.call function idx) else none)
      (system.result config function idx wanted alloc) := call_outcome function alloc
  simp only [reaction]
  revert outcome
  generalize system.result config function idx wanted alloc = result
  intro outcome
  cases outcome with
  | refused => rfl
  | failed => rfl
  | accepted ready running idx_eq cmd_eq opCb_eq effects_eq =>
      rcases effects_eq with rfl | ⟨op, rfl, -⟩ <;> rfl

theorem reports_of_quiet (strong : Strong system)
    (passes : Passes config system.env idx status alloc (reaction config system event))
    (quiet : system.env.Running → Quiet (reaction config system event)) :
    Reports config system event := by
  refine reports_of_silent ?_ fun _ _ running => quiet running
  rcases strong.state with runs | rests
  · exact (quiet runs.running).called
  · exact called_of_rests rests passes

theorem careful_reports (strong : Strong system) (live : system.halted = false)
    (careful : Careful config system event) :
    Reports config system event ∧ Strong (stepEvent config system event) := by
  cases event with
  | api function idx wanted alloc =>
      exact ⟨reports_of_silent (called_api ..) fun completion => absurd completion id,
        strong_api strong function idx wanted alloc⟩
  | indicated indication =>
      refine ⟨reports_of_silent rfl fun completion => absurd completion id, ?_⟩
      simp only [stepEvent, reaction, react_silent]
      exact strong.kept (indicated_kept ..) rfl rfl rfl
  | foreign completion ok alloc =>
      have quiet (running : system.env.Running) :
          Quiet (foreign config system.env ok alloc completion) :=
        (quiet_foreign_iff running completion).mpr (careful live running)
      exact ⟨reports_of_quiet strong (foreign_passes completion ok) quiet,
        strong_foreign strong completion ok alloc quiet⟩
  | answered position answer alloc =>
      cases here : system.pending[position]? with
      | none =>
          have nothing : reaction config system (.answered position answer alloc) =
              (system.env, []) := by
            simp [reaction, here]
          refine ⟨reports_of_silent (by rw [nothing]; rfl) fun _ _ running => ?_, ?_⟩
          · rw [nothing]
            exact ⟨rfl, rfl, running⟩
          · simp only [stepEvent, nothing, react_silent]
            exact (strong.erase position).kept (.refl _) rfl rfl rfl
      | some pending =>
          have reaction_eq : reaction config system (.answered position answer alloc) =
              answered config system.env answer alloc pending.op := by
            simp [reaction, here]
          rcases strong.owned pending (List.mem_of_getElem? here) with
            ⟨owner, gapIdx, deletes⟩ | ⟨owner, -, -⟩
          · rw [deletes] at reaction_eq
            have quiet (running : system.env.Running) :
                Quiet (answered config system.env answer alloc (.delete gapIdx)) := by
              cases answer with
              | completed ok =>
                  exact (quiet_delete_iff running gapIdx).mpr
                    (careful live running pending here owner)
              | _ => exact ⟨rfl, rfl, running⟩
            have passes : Passes config system.env system.env.idx
                (answerStatus (.delete gapIdx) answer) alloc
                (reaction config system (.answered position answer alloc)) := by
              rw [reaction_eq]
              exact delete_passes answer gapIdx
            constructor
            · refine reports_of_quiet strong passes fun running => ?_
              rw [reaction_eq]
              exact quiet running
            · simp only [stepEvent, reaction_eq]
              exact strong_other strong position answer alloc quiet
          · refine ⟨reports_own strong here owner answer alloc, ?_⟩
            simp only [stepEvent, reaction_eq]
            exact strong_own strong here owner answer alloc

theorem careful_of_reports (strong : Strong system) (reports : Reports config system event) :
    Careful config system event := by
  cases event with
  | api | indicated => trivial
  | foreign completion ok alloc =>
      intro live running
      exact (quiet_foreign_iff running completion).mp (reports.others trivial id running)
  | answered position answer alloc =>
      cases answer with
      | completed ok =>
          intro live running pending here owner
          obtain ⟨-, gapIdx, deletes⟩ :=
            (strong.owned pending (List.mem_of_getElem? here)).resolve_right
              (by simp [owner])
          have other : ¬belongs system (.answered position (.completed ok) alloc) := by
            rintro ⟨pending', here', owner'⟩
            rw [Option.mem_def] at here here'
            obtain rfl := Option.some.inj (here.symm.trans here')
            rw [owner] at owner'
            cases owner'
          have quiet := reports.others trivial other running
          rw [Option.mem_def] at here
          simp only [reaction, here, deletes] at quiet
          exact (quiet_delete_iff running gapIdx).mp quiet
      | _ => trivial

end Reports

theorem strong_init : Strong System.init :=
  ⟨.inr ⟨by decide, rfl, rfl⟩, fun _ pending_mem => absurd pending_mem List.not_mem_nil,
    Nat.zero_le 1⟩

/-! ## The callbacks -/

variable (config)

/-- Every callback reports the own command of an accepted call once, and other completions leave the
command that runs alone, exactly if no such completion is heard. -/
theorem callbacks_good_iff (events : List Event) :
    (machine config).Always (Good config) System.init events ↔
      (machine config).Always (Careful config) System.init events := by
  refine (machine config).always_iff_always _ _ Strong ?_ ?_ strong_init events
  · intro system event strong
    constructor
    · intro good
      by_cases live : system.halted = false
      · exact careful_of_reports strong (good live)
      · cases event with
        | api | indicated => trivial
        | foreign => exact fun live' => absurd live' live
        | answered position answer alloc =>
            cases answer with
            | completed ok => exact fun live' => absurd live' live
            | _ => trivial
    · exact fun careful live => (careful_reports strong live careful).1
  · intro system event strong careful
    simp only [machine]
    split_ifs with halted
    · exact strong
    · exact (careful_reports strong (Bool.eq_false_iff.mpr halted) careful).2

/-- A notification is sent while an activity is being created: the call is told that it was. -/
theorem callbacks_not_good :
    ¬∀ (config : Config) (events : List Event),
      (machine config).Always (Good config) System.init events := by
  intro every
  obtain ⟨-, good, -⟩ := every ⟨3, 1, by decide, by decide⟩
    [.api (.actv .createAdvertising) 0 true true, .foreign .notified true true]
  have quiet := (good rfl).others trivial id (by decide)
  exact absurd quiet.called (by decide)

end BdkFreertos.BleCallbacks
