import BdkFreertos.BleApp

/-!
# The activities of the BLE application and of the stack

The application keeps a table of advertising and scanning activities.  The stack knows each of them
by an index of its own, says when one was created or has stopped, and answers every command.
-/

namespace BdkFreertos.BleActivities

open BleConnections (BleErr Config)
open BleApp

/-- What an activity is for. -/
inductive Kind
  | advertising
  | scanning
  deriving DecidableEq

/-- The kind in the stack's indications. -/
def Kind.actvType : Kind → ActvType
  | .advertising => .adv
  | .scanning => .scan

/-- The status for an activity of the stack. -/
def Kind.status : Kind → Bool → ActvState
  | .advertising, false => .advCreated
  | .advertising, true => .advStarted
  | .scanning, false => .scanCreated
  | .scanning, true => .scanStarted

/-- An activity that the stack holds, with the slot for which it was created. -/
structure Held where
  kind : Kind
  started : Bool
  slot : ℕ

/-- A command that the stack has not answered. -/
structure Pending where
  op : Op
  slot : UInt8
  /-- The index of the activity that was created for the command. -/
  created : Option UInt8

/-- The application with the stack, whose activities are those under the indexes in use. -/
structure System where
  env : Env
  pending : List Pending
  stack : UInt8 → Option Held

/-- When the stack is ready for the first command. -/
def System.init : System where
  env := Env.init
  pending := []
  stack _ := none

/-- What happens to the application. -/
inductive Event
  | api (function : ActvApi) (idx : UInt8) (callback : Option Call) (alloc : Bool)
  | created (gapIdx : UInt8)
  /-- An activity stops, because of a command or on its own, and the stack says so. -/
  | stopped (gapIdx : UInt8)
  /-- The stack answers the first command that waits. -/
  | completed (ok alloc : Bool)

/-- The kind of activity that a command creates. -/
def creates : Op → Option Kind
  | .createAdv => some .advertising
  | .createScan => some .scanning
  | _ => none

/-- The operation of a command in its completion event. -/
def gapmOperation : Op → Option GapmOperation
  | .createAdv => some .createAdv
  | .createScan => some .createScan
  | .setAdvData _ => some .setAdvData
  | .setScanRspData _ => some .setScanRspData
  | .start _ => some .start
  | .stop _ => some .stop
  | .delete _ => some .delete
  | _ => none

/-- An answer that the stack can give: an activity is created exactly if the command for it
succeeds, and it does not run after a command that stops it. -/
def answers (stack : UInt8 → Option Held) (pending : Pending) (ok : Bool) : Prop :=
  match pending.op with
  | .createAdv | .createScan => ok = pending.created.isSome
  | .stop gapIdx => ok = true → ∀ held ∈ stack gapIdx, held.started = false
  | _ => True

instance (stack : UInt8 → Option Held) (pending : Pending) (ok : Bool) :
    Decidable (answers stack pending ok) := by
  unfold answers
  split <;> infer_instance

/-- The activities after a successful command. -/
def executed (stack : UInt8 → Option Held) : Op → UInt8 → Option Held
  | .start gapIdx =>
      Function.update stack gapIdx ((stack gapIdx).map fun held => { held with started := true })
  | .delete gapIdx => Function.update stack gapIdx none
  | _ => stack

/-- The commands that a function or a handler has sent wait for their answers. -/
def System.send (system : System) (slot : UInt8) (effects : List Effect) : System :=
  { system with
    pending := system.pending ++ (sentOps effects).map fun op => ⟨op, slot, none⟩ }

variable (config : Config)

/-- The application and the stack; what cannot happen changes nothing. -/
def stepEvent (system : System) : Event → System
  | .api function idx callback alloc =>
      let called := function.call config system.env idx callback alloc
      { system with env := called.2.1 }.send idx called.2.2
  | .created gapIdx =>
      match system.pending with
      | [] => system
      | first :: rest =>
          match creates first.op, first.created, system.stack gapIdx with
          | some kind, none, none =>
              { env := gapmActivityCreatedIndHandler config system.env 0 kind.actvType gapIdx
                pending := { first with created := some gapIdx } :: rest
                stack := Function.update system.stack gapIdx
                  (some ⟨kind, false, first.slot.toNat⟩) }
          | _, _, _ => system
  | .stopped gapIdx =>
      match system.stack gapIdx with
      | some ⟨kind, true, slot⟩ =>
          { system with
            env := gapmActivityStoppedIndHandler config system.env 0 kind.actvType gapIdx
            stack := Function.update system.stack gapIdx (some ⟨kind, false, slot⟩) }
      | _ => system
  | .completed ok alloc =>
      match system.pending with
      | [] => system
      | first :: rest =>
          match gapmOperation first.op with
          | some operation =>
              if answers system.stack first ok then
                let handled := gapmCmpEvtHandler config system.env operation 0 ok alloc
                let stack := if ok then executed system.stack first.op else system.stack
                System.send ⟨handled.1, rest, stack⟩ first.slot handled.2
              else system
          | none => system

def machine : Machine System Event Unit where
  step system event := (stepEvent config system event, ())

/-- The slot of the activity that an event is about. -/
def owner (system : System) : Event → Option ℕ
  | .api _ idx _ _ => some idx.toNat
  | .created _ | .completed _ _ => system.pending.head?.map fun pending => pending.slot.toNat
  | .stopped gapIdx => (system.stack gapIdx).map Held.slot

/-- The slots are idle or describe the activities that the stack holds for them. -/
structure Mirrors (system : System) : Prop where
  idle_iff : ∀ slot < config.activityMax,
    (system.env.actvs slot).actvStatus = .idle ↔
      ∀ gapIdx, ∀ held ∈ system.stack gapIdx, held.slot ≠ slot
  describes : ∀ gapIdx, ∀ held ∈ system.stack gapIdx,
    system.env.actvs held.slot = ⟨held.kind.status held.started, gapIdx⟩

/-- The table mirrors the stack when no command runs, and an event changes the status of the slot of
its own activity only. -/
def Good (system : System) (event : Event) : Prop :=
  let after := stepEvent config system event
  (after.env.Ready → Mirrors config after) ∧
    ∀ slot, owner system event ≠ some slot →
      (after.env.actvs slot).actvStatus = (system.env.actvs slot).actvStatus

/-- No slot before that of an activity that stops has the index of the activity, and the stack does
not refuse to delete an activity. -/
def Careful (system : System) : Event → Prop
  | .stopped gapIdx =>
      ∀ held ∈ system.stack gapIdx, held.started = true →
        ∀ slot < held.slot, (system.env.actvs slot).gapAdvtIdx ≠ gapIdx
  | .completed ok _ =>
      ∀ pending ∈ system.pending.head?, ∀ gapIdx, pending.op = .delete gapIdx → ok = true
  | _ => True

/-! ## The command that runs -/

/-- The commands of the application with their masks while they wait for a command to the stack. -/
inductive Expects (gapIdx : UInt8) : BleCmd → UInt32 → Kind → Op → Prop
  | createAdv : Expects gapIdx .createAdv 1 .advertising .createAdv
  | initAdvCreate : Expects gapIdx .initAdv 15 .advertising .createAdv
  | setAdvData : Expects gapIdx .setAdvData 2 .advertising (.setAdvData gapIdx)
  | initAdvData : Expects gapIdx .initAdv 14 .advertising (.setAdvData gapIdx)
  | setRspData : Expects gapIdx .setRspData 4 .advertising (.setScanRspData gapIdx)
  | initAdvRsp : Expects gapIdx .initAdv 12 .advertising (.setScanRspData gapIdx)
  | startAdv : Expects gapIdx .startAdv 8 .advertising (.start gapIdx)
  | initAdvStart : Expects gapIdx .initAdv 8 .advertising (.start gapIdx)
  | initAdvDelete (opMask : UInt32) : Expects gapIdx .initAdv opMask .advertising (.delete gapIdx)
  | stopAdv : Expects gapIdx .stopAdv 16 .advertising (.stop gapIdx)
  | deinitAdvStop : Expects gapIdx .deinitAdv 48 .advertising (.stop gapIdx)
  | deleteAdv : Expects gapIdx .deleteAdv 32 .advertising (.delete gapIdx)
  | deinitAdvDelete : Expects gapIdx .deinitAdv 32 .advertising (.delete gapIdx)
  | createScan : Expects gapIdx .createScan 1 .scanning .createScan
  | initScanCreate : Expects gapIdx .initScan 3 .scanning .createScan
  | startScan : Expects gapIdx .startScan 2 .scanning (.start gapIdx)
  | initScanStart : Expects gapIdx .initScan 2 .scanning (.start gapIdx)
  | initScanDelete (opMask : UInt32) : Expects gapIdx .initScan opMask .scanning (.delete gapIdx)
  | stopScan : Expects gapIdx .stopScan 4 .scanning (.stop gapIdx)
  | deinitScanStop : Expects gapIdx .deinitScan 12 .scanning (.stop gapIdx)
  | deleteScan : Expects gapIdx .deleteScan 8 .scanning (.delete gapIdx)
  | deinitScanDelete : Expects gapIdx .deinitScan 8 .scanning (.delete gapIdx)

/-- The states in which a slot has a command sent for it. -/
def Allowed (kind : Kind) (status : ActvState) : Op → Prop
  | .createAdv | .createScan => status = .idle
  | .setAdvData _ | .setScanRspData _ => ∃ started, status = kind.status started
  | .stop _ => status = kind.status true
  | _ => status = kind.status false

/-- What a function or a handler leaves behind: it sends no command, or the one that the command
that runs expects next. -/
def Follows (env : Env) (slot : UInt8) (effects : List Effect) : Prop :=
  sentOps effects = [] ∨
    ∃ kind op, sentOps effects = [op] ∧ env.Running ∧ env.idx = slot ∧
      slot.toNat < config.activityMax ∧ Expects (env.gapIdx slot) env.cmd env.opMask kind op ∧
        Allowed kind (env.actvs slot.toNat).actvStatus op

/-- A command waits for its answer. -/
structure Waits (system : System) (pending : Pending) (kind : Kind) (gapIdx : UInt8) : Prop where
  running : system.env.Running
  idx : system.env.idx = pending.slot
  slot_lt : pending.slot.toNat < config.activityMax
  expects : Expects gapIdx system.env.cmd system.env.opMask kind pending.op
  held :
    match pending.op with
    | .createAdv | .createScan =>
        match pending.created with
        | none => (system.env.actvs pending.slot.toNat).actvStatus = .idle
        | some created => system.stack created = some ⟨kind, false, pending.slot.toNat⟩
    | .setAdvData _ | .setScanRspData _ | .stop _ =>
        ∃ started, system.stack gapIdx = some ⟨kind, started, pending.slot.toNat⟩
    | _ => system.stack gapIdx = some ⟨kind, false, pending.slot.toNat⟩

/-- The activities of the stack are those of slots of the table. -/
def Inside (stack : UInt8 → Option Held) : Prop :=
  ∀ gapIdx, ∀ held ∈ stack gapIdx, held.slot < config.activityMax

/-- What every careful step keeps. -/
structure Strong (system : System) : Prop where
  mirrors : Mirrors config system
  inside : Inside config system.stack
  waits : system.pending = [] ∨
    ∃ pending kind gapIdx, system.pending = [pending] ∧ Waits config system pending kind gapIdx

variable {env : Env} {slot : UInt8} {allowed : List ActvState} {op : Op} {alloc : Bool}
  {cmd : BleCmd} {opMask : UInt32} {gapIdx : UInt8} (function : ActvApi) (kind : Kind)

theorem Kind.status_ne_idle (started : Bool) : kind.status started ≠ .idle := by
  cases kind <;> cases started <;> decide

theorem Kind.status_injective {first second : Kind} {started started' : Bool}
    (same : first.status started = second.status started') :
    first = second ∧ started = started' := by
  revert same
  cases first <;> cases started <;> cases second <;> cases started' <;> decide

variable {config}

section Table

variable {system : System}

variable {kind : Kind} {held : Held} {gapIdx : UInt8} {after : System} {actv : Actv}

section

variable (mirrors : Mirrors config system)
include mirrors

theorem Mirrors.stack_eq {slot : ℕ} (slot_lt : slot < config.activityMax) {started : Bool}
    (status : (system.env.actvs slot).actvStatus = kind.status started) :
    system.stack (system.env.actvs slot).gapAdvtIdx = some ⟨kind, started, slot⟩ := by
  have busy : ¬∀ gapIdx, ∀ held ∈ system.stack gapIdx, held.slot ≠ slot := fun free =>
    kind.status_ne_idle started (status ▸ (mirrors.idle_iff slot slot_lt).mpr free)
  push Not at busy
  obtain ⟨gapIdx, held, held_mem, rfl⟩ := busy
  have shown := mirrors.describes gapIdx held held_mem
  rw [shown] at status ⊢
  obtain ⟨rfl, rfl⟩ := Kind.status_injective status
  exact held_mem

theorem Mirrors.slot_ne {first second : UInt8} {held' : Held} (held_mem : held ∈ system.stack first)
    (held'_mem : held' ∈ system.stack second) (other : first ≠ second) :
    held.slot ≠ held'.slot := by
  intro same
  have shown := mirrors.describes first held held_mem
  rw [same, mirrors.describes second held' held'_mem] at shown
  exact other (Actv.mk.inj shown).2.symm

theorem Mirrors.not_idle (held_mem : held ∈ system.stack gapIdx) :
    (system.env.actvs held.slot).actvStatus ≠ .idle := by
  rw [mirrors.describes gapIdx held held_mem]
  exact held.kind.status_ne_idle held.started

theorem Mirrors.congr (actvs_eq : after.env.actvs = system.env.actvs)
    (stack_eq : after.stack = system.stack) : Mirrors config after := by
  constructor
  · rw [actvs_eq, stack_eq]
    exact mirrors.idle_iff
  · rw [actvs_eq, stack_eq]
    exact mirrors.describes

/-- What the stack knows by an index changes together with the slot of that activity alone. -/
theorem Mirrors.update {slot : ℕ}
    (own : ∀ other, ∀ held ∈ system.stack other, held.slot = slot ↔ other = gapIdx)
    {now : Option Held} (idle : now = none → actv.actvStatus = .idle)
    (described : ∀ held ∈ now, held.slot = slot ∧
      actv = ⟨held.kind.status held.started, gapIdx⟩)
    (actvs_eq : after.env.actvs = Function.update system.env.actvs slot actv)
    (stack_eq : after.stack = Function.update system.stack gapIdx now) : Mirrors config after := by
  have old_iff {other : UInt8} (differs : other ≠ gapIdx) (held : Held) :
      held ∈ after.stack other ↔ held ∈ system.stack other := by
    rw [stack_eq, Function.update_of_ne differs]
  have new_iff (held : Held) : held ∈ after.stack gapIdx ↔ held ∈ now := by
    rw [stack_eq, Function.update_self]
  constructor
  · intro place place_lt
    rw [actvs_eq]
    by_cases here : place = slot
    · subst here
      rw [Function.update_self]
      cases now with
      | none =>
          refine iff_of_true (idle rfl) fun other held held_mem => ?_
          by_cases same : other = gapIdx
          · subst same
            cases (new_iff held).mp held_mem
          · exact mt (own other held ((old_iff same held).mp held_mem)).mp same
      | some held =>
          obtain ⟨rfl, rfl⟩ := described held rfl
          refine iff_of_false (held.kind.status_ne_idle held.started) fun free => ?_
          exact free gapIdx held ((new_iff held).mpr rfl) rfl
    · rw [Function.update_of_ne here, mirrors.idle_iff place place_lt]
      constructor
      · intro free other held held_mem
        by_cases same : other = gapIdx
        · subst same
          rw [(described held ((new_iff held).mp held_mem)).1]
          exact Ne.symm here
        · exact free other held ((old_iff same held).mp held_mem)
      · intro free other held held_mem
        by_cases same : other = gapIdx
        · rw [(own other held held_mem).mpr same]
          exact Ne.symm here
        · exact free other held ((old_iff same held).mpr held_mem)
  · intro other held held_mem
    rw [actvs_eq]
    by_cases same : other = gapIdx
    · subst same
      obtain ⟨rfl, rfl⟩ := described held ((new_iff held).mp held_mem)
      exact Function.update_self ..
    · have held_old := (old_iff same held).mp held_mem
      rw [Function.update_of_ne (mt (own other held held_old).mp same)]
      exact mirrors.describes other held held_old

theorem Mirrors.own (held_mem : held ∈ system.stack gapIdx) (other : UInt8) (held' : Held)
    (held'_mem : held' ∈ system.stack other) : held'.slot = held.slot ↔ other = gapIdx := by
  constructor
  · contrapose!
    exact mirrors.slot_ne held'_mem held_mem
  · rintro rfl
    rw [Option.some.inj (held'_mem.symm.trans held_mem)]

/-- An activity starts or stops, and its slot says so. -/
theorem Mirrors.change {before now : Bool} {slot : ℕ}
    (held : system.stack gapIdx = some ⟨kind, before, slot⟩) (actvs_eq : after.env.actvs =
      Function.update system.env.actvs slot ⟨kind.status now, gapIdx⟩)
    (stack_eq : after.stack = Function.update system.stack gapIdx (some ⟨kind, now, slot⟩)) :
    Mirrors config after := by
  refine mirrors.update (mirrors.own held) (fun gone => by cases gone) ?_ actvs_eq stack_eq
  rintro _ ⟨rfl⟩
  exact ⟨rfl, rfl⟩

/-- An activity is created for an idle slot, and the slot says so. -/
theorem Mirrors.add {slot : ℕ} (slot_lt : slot < config.activityMax)
    (idle : (system.env.actvs slot).actvStatus = .idle) (free : system.stack gapIdx = none)
    (actvs_eq : after.env.actvs =
      Function.update system.env.actvs slot ⟨kind.status false, gapIdx⟩)
    (stack_eq : after.stack = Function.update system.stack gapIdx (some ⟨kind, false, slot⟩)) :
    Mirrors config after := by
  have own : ∀ other, ∀ held ∈ system.stack other, held.slot = slot ↔ other = gapIdx := by
    intro other held held_mem
    refine iff_of_false ((mirrors.idle_iff slot slot_lt).mp idle other held held_mem) ?_
    rintro rfl
    rw [free] at held_mem
    cases held_mem
  refine mirrors.update own (fun gone => by cases gone) ?_ actvs_eq stack_eq
  rintro _ ⟨rfl⟩
  exact ⟨rfl, rfl⟩

theorem Mirrors.remove (held_mem : held ∈ system.stack gapIdx) (idle : actv.actvStatus = .idle)
    (actvs_eq : after.env.actvs = Function.update system.env.actvs held.slot actv)
    (stack_eq : after.stack = Function.update system.stack gapIdx none) : Mirrors config after :=
  mirrors.update (mirrors.own held_mem) (fun _ => idle) (fun _ gone => by cases gone) actvs_eq
    stack_eq

end

end Table

/-! ## The functions -/

theorem follows_of_actvCmd (running : env.Running) (idx : env.idx = slot) (kind : Kind)
    (expects : Expects (env.gapIdx slot) env.cmd env.opMask kind op)
    (allows : ∀ status ∈ allowed, Allowed kind status op) :
    Follows config env slot (appBleActvCmd config env slot allowed op alloc).2 := by
  unfold Follows
  rw [sentOps_appBleActvCmd]
  split_ifs with sends
  · exact .inr ⟨kind, op, rfl, running, idx, sends.1, expects, allows _ sends.2.1⟩
  · exact .inl rfl

/-- What a call leaves behind: its first command, and the table as it was. -/
structure Called (config : Config) (env : Env) (slot : UInt8)
    (result : BleErr × Env × List Effect) : Prop where
  follows : Follows config result.2.1 slot result.2.2
  actvs_eq : result.2.1.actvs = env.actvs

section

variable {callback : Option Call} {op : Env → Op}
  (expects : Expects (env.gapIdx slot) cmd opMask kind
    (op (appBleRun env slot cmd opMask callback)))
  (allows : ∀ status ∈ allowed, Allowed kind status (op (appBleRun env slot cmd opMask callback)))
include expects allows

theorem bkBleCmd_called :
    Called config env slot (bkBleCmd env slot cmd opMask callback fun env =>
      appBleActvCmd config env slot allowed (op env) alloc) := by
  have small := config.activity_lt
  unfold bkBleCmd
  split_ifs with ready
  · by_cases sent : sentOps (appBleActvCmd config (appBleRun env slot cmd opMask callback) slot
        allowed (op (appBleRun env slot cmd opMask callback)) alloc).2 = []
    · exact ⟨.inl sent, by dsimp only; split_ifs <;> rfl⟩
    · have success := (appBleActvCmd_success_iff ..).mpr sent
      have slot_lt : slot.toNat < config.activityMax := by
        rw [sentOps_appBleActvCmd] at sent
        by_contra outside
        exact sent (if_neg fun sends => outside sends.1)
      simp only [success, if_true]
      exact ⟨follows_of_actvCmd (appBleRun_running ..) (appBleRun_idx _ (by omega) ..) kind
        expects allows, rfl⟩
  · exact ⟨.inl rfl, rfl⟩

theorem bkBleActvCmd_called :
    Called config env slot (bkBleActvCmd config env slot cmd opMask callback fun env =>
      appBleActvCmd config env slot allowed (op env) alloc) := by
  unfold bkBleActvCmd
  split_ifs with outside
  · exact ⟨.inl rfl, rfl⟩
  · exact bkBleCmd_called kind expects allows

end

theorem call_called (env : Env) (idx : UInt8) (callback : Option Call) (alloc : Bool) :
    Called config env idx (function.call config env idx callback alloc) := by
  unfold ActvApi.call
  cases function with
  | advStart =>
      refine bkBleActvCmd_called .advertising ?_ (by simp [Allowed])
      exact .initAdvCreate
  | advStop =>
      refine bkBleActvCmd_called .advertising ?_ (by simp [Allowed, Kind.status])
      exact .deinitAdvStop
  | scanStart =>
      refine bkBleActvCmd_called .scanning ?_ (by simp [Allowed])
      exact .initScanCreate
  | scanStop =>
      refine bkBleActvCmd_called .scanning ?_ (by simp [Allowed, Kind.status])
      exact .deinitScanStop
  | createAdvertising =>
      refine bkBleCmd_called .advertising ?_ (by simp [Allowed])
      exact .createAdv
  | startAdvertising =>
      refine bkBleCmd_called .advertising ?_ (by simp [Allowed, Kind.status])
      exact .startAdv
  | stopAdvertising =>
      refine bkBleCmd_called .advertising ?_ (by simp [Allowed, Kind.status])
      exact .stopAdv
  | deleteAdvertising =>
      refine bkBleCmd_called .advertising ?_ (by simp [Allowed, Kind.status])
      exact .deleteAdv
  | setAdvData advLen =>
      simp only [bkBleSetAdvData]
      split_ifs
      · exact ⟨.inl rfl, rfl⟩
      · refine bkBleCmd_called .advertising ?_ (by simp [Allowed, Kind.status])
        exact .setAdvData
  | setScanRspData scanLen =>
      simp only [bkBleSetScanRspData]
      split_ifs
      · exact ⟨.inl rfl, rfl⟩
      · refine bkBleCmd_called .advertising ?_ (by simp [Allowed, Kind.status])
        exact .setRspData
  | createScaning =>
      refine bkBleCmd_called .scanning ?_ (by simp [Allowed])
      exact .createScan
  | startScaning =>
      refine bkBleCmd_called .scanning ?_ (by simp [Allowed, Kind.status])
      exact .startScan
  | stopScaning =>
      refine bkBleCmd_called .scanning ?_ (by simp [Allowed, Kind.status])
      exact .stopScan
  | deleteScaning =>
      refine bkBleCmd_called .scanning ?_ (by simp [Allowed, Kind.status])
      exact .deleteScan

theorem call_of_not_ready (busy : ¬env.Ready) (idx : UInt8) (callback : Option Call)
    (alloc : Bool) : (function.call config env idx callback alloc).2 = (env, []) := by
  have plain (cmd : BleCmd) (opMask : UInt32) (first : Env → BleErr × List Effect) :
      (bkBleCmd env idx cmd opMask callback first).2 = (env, []) := by
    rw [bkBleCmd, if_neg busy]
  have checked (cmd : BleCmd) (opMask : UInt32) (first : Env → BleErr × List Effect) :
      (bkBleActvCmd config env idx cmd opMask callback first).2 = (env, []) := by
    rw [bkBleActvCmd, if_neg fun outside => busy outside.1, plain]
  cases function with
  | setAdvData advLen =>
      simp only [ActvApi.call, bkBleSetAdvData]
      split_ifs
      · rfl
      · exact plain ..
  | setScanRspData scanLen =>
      simp only [ActvApi.call, bkBleSetScanRspData]
      split_ifs
      · rfl
      · exact plain ..
  | advStart | advStop | scanStart | scanStop => exact checked ..
  | _ => exact plain ..

/-! ## The completion of a command -/

theorem not_initingCheckIndex_zero : ¬BleConnections.initingCheckIndex config 0 := by
  have fewer := config.connection_lt
  rintro ⟨outside, -⟩
  exact absurd outside (by simpa using Nat.ne_of_gt (Nat.zero_lt_of_lt fewer))

theorem sentOps_of_idle {idx : UInt8} (idle : (env.actvs idx.toNat).actvStatus = .idle)
    (busy : ActvState.idle ∉ allowed) (op : Op) (alloc : Bool) :
    sentOps (appBleActvCmd config env idx allowed op alloc).2 = [] := by
  rw [sentOps_appBleActvCmd, idle]
  exact if_neg fun sends => busy sends.2.1

section Next

variable {env : Env} {slot : UInt8} {status : BleErr} {alloc : Bool}

/-- After the next operation the command that runs waits for its next command, if any. -/
def NextFollows (config : Config) (env : Env) (slot : UInt8) (status : BleErr) (alloc : Bool) :
    Prop :=
  let next := appBleNextOperation config env slot status alloc
  Follows config next.1 slot next.2

theorem next_of_finish
    (single : appBleNextOperation config env slot status alloc = finish env slot status) :
    NextFollows config env slot status alloc := by
  rw [NextFollows, single]
  exact .inl (sentOps_callback ..)

theorem Follows.append (opCb : Option Call) (cmd : BleCmd) {effects : List Effect}
    (follows : Follows config env slot effects) :
    Follows config env slot (callback opCb cmd slot status ++ effects) := by
  rwa [Follows, sentOps_append, sentOps_callback, List.nil_append]

section

variable (running : env.Running) (idx : env.idx = slot)
include running idx

/-- `BLE_INIT_ADV` and `BLE_INIT_SCAN`. -/
theorem initOperation_follows {step : ℕ → BleErr × List Effect} (kind : Kind)
    (deletes : ∀ opMask, Expects (env.gapIdx slot) env.cmd opMask kind (.delete (env.gapIdx slot)))
    (steps : env.opMask ≠ 0 → status = .success →
      Follows config env slot (step (opIdx env.opMask)).2) :
    let next := initOperation env slot status step (kind.status false)
      (appBleActvCmd config env slot [kind.status false] (.delete (env.gapIdx slot)) alloc)
    Follows config next.1 slot next.2 := by
  have allows : ∀ state ∈ [kind.status false],
      Allowed kind state (.delete (env.gapIdx slot)) := by
    simp [Allowed]
  have ended : sentOps (callback env.opCb env.cmd slot status) = [] := sentOps_callback ..
  unfold initOperation
  split_ifs with more
  · exact steps more.1 more.2
  · exact (follows_of_actvCmd running idx kind (deletes _) allows).append ..
  · exact .inl ended
  · exact .inl ended
  · refine Follows.append _ _ ?_
    let cleared : Env := { env with opMask := 0, opCb := none }
    exact follows_of_actvCmd (show cleared.Running from running) idx kind (deletes 0) allows
  · exact .inl ended
  · exact .inl ended

theorem deinitOperation_follows (kind : Kind) {delPos : ℕ} (deletes : env.opMask ≠ 0 →
      Expects (env.gapIdx slot) env.cmd env.opMask kind (.delete (env.gapIdx slot))) :
    let next := deinitOperation env slot status delPos
      (appBleActvCmd config env slot [kind.status false] (.delete (env.gapIdx slot)) alloc)
    Follows config next.1 slot next.2 := by
  unfold deinitOperation finish
  split_ifs with more here
  · exact follows_of_actvCmd running idx kind (deletes more) (by simp [Allowed])
  · exact .inl rfl
  · exact .inl (sentOps_callback ..)

theorem initAdv_next (cmd : env.cmd = .initAdv)
    (mask : env.opMask ∈ [0, 8, 12, 14] ∨ (env.actvs slot.toNat).actvStatus = .idle) :
    NextFollows config env slot status alloc := by
  unfold NextFollows appBleNextOperation
  simp only [cmd]
  refine initOperation_follows running idx .advertising ?_ fun more success => ?_
  · intro opMask
    rw [cmd]
    exact .initAdvDelete opMask
  rcases mask with mask | idle
  · simp only [List.mem_cons, List.not_mem_nil, or_false] at mask
    rcases mask with mask | mask | mask | mask
    · exact absurd mask more
    · rw [mask, show opIdx 8 = 3 by decide]
      refine follows_of_actvCmd running idx .advertising ?_ (by simp [Allowed, Kind.status])
      rw [cmd, mask]
      exact .initAdvStart
    · rw [mask, show opIdx 12 = 2 by decide]
      refine follows_of_actvCmd running idx .advertising ?_ (by simp [Allowed, Kind.status])
      rw [cmd, mask]
      exact .initAdvRsp
    · rw [mask, show opIdx 14 = 1 by decide]
      refine follows_of_actvCmd running idx .advertising ?_ (by simp [Allowed, Kind.status])
      rw [cmd, mask]
      exact .initAdvData
  · left
    unfold initAdvStep
    split
    · exact sentOps_of_idle idle (by decide) ..
    · exact sentOps_of_idle idle (by decide) ..
    · exact sentOps_of_idle idle (by decide) ..
    · rfl

theorem initScan_next (cmd : env.cmd = .initScan)
    (mask : env.opMask ∈ [0, 2] ∨ (env.actvs slot.toNat).actvStatus = .idle) :
    NextFollows config env slot status alloc := by
  unfold NextFollows appBleNextOperation
  simp only [cmd]
  refine initOperation_follows running idx .scanning ?_ fun more success => ?_
  · intro opMask
    rw [cmd]
    exact .initScanDelete opMask
  rcases mask with mask | idle
  · simp only [List.mem_cons, List.not_mem_nil, or_false] at mask
    rcases mask with mask | mask
    · exact absurd mask more
    · rw [mask, show opIdx 2 = 1 by decide]
      refine follows_of_actvCmd running idx .scanning ?_ (by simp [Allowed, Kind.status])
      rw [cmd, mask]
      exact .initScanStart
  · left
    unfold initScanStep
    split
    · exact sentOps_of_idle idle (by decide) ..
    · rfl

theorem deinitAdv_next (cmd : env.cmd = .deinitAdv) (mask : env.opMask = 0 ∨ env.opMask = 32) :
    NextFollows config env slot status alloc := by
  unfold NextFollows appBleNextOperation
  simp only [cmd]
  refine deinitOperation_follows running idx .advertising fun more => ?_
  rw [cmd, mask.resolve_left more]
  exact .deinitAdvDelete

theorem deinitScan_next (cmd : env.cmd = .deinitScan) (mask : env.opMask = 0 ∨ env.opMask = 8) :
    NextFollows config env slot status alloc := by
  unfold NextFollows appBleNextOperation
  simp only [cmd]
  refine deinitOperation_follows running idx .scanning fun more => ?_
  rw [cmd, mask.resolve_left more]
  exact .deinitScanDelete

end

end Next

/-- What a completion changes before the next operation. -/
def completedEnv (env : Env) (ok : Bool) : Op → Env
  | .createAdv | .createScan => env.clear 1
  | .setAdvData _ => env.clear 2
  | .setScanRspData _ => env.clear 4
  | .start _ => if ok then actvStarted env else env
  | .stop _ => env.clear (4 ||| 16)
  | .delete _ => (env.setActv env.idx .idle).clear (8 ||| 32)
  | _ => env

theorem gapmCmpEvtHandler_eq (idx_lt : env.idx.toNat < config.activityMax)
    {operation : GapmOperation} (operation_eq : gapmOperation op = some operation)
    (ok alloc : Bool) :
    gapmCmpEvtHandler config env operation 0 ok alloc =
      appBleNextOperation config (completedEnv env ok op) env.idx (errOf ok) alloc := by
  have inside := Nat.not_le.mpr idx_lt
  cases op <;> cases operation_eq <;>
    simp [gapmCmpEvtHandler, actvCompleted, completedEnv, not_initingCheckIndex_zero, inside]

theorem completedEnv_appStatus (env : Env) (ok : Bool) (op : Op) :
    (completedEnv env ok op).appStatus = env.appStatus := by
  cases op <;> simp [completedEnv, Env.clear, Env.setActv]
  split_ifs
  · unfold actvStarted
    split_ifs <;> rfl
  · rfl

theorem completedEnv_cmd (env : Env) (ok : Bool) (op : Op) :
    (completedEnv env ok op).cmd = env.cmd := by
  cases op <;> simp [completedEnv, Env.clear, Env.setActv]
  split_ifs
  · unfold actvStarted
    split_ifs <;> rfl
  · rfl

theorem actvStarted_of_adv (mask : env.opMask = 8) :
    actvStarted env = (env.setActv env.idx .advStarted).clear 8 := by
  rw [actvStarted, mask, if_neg (by decide), if_pos (by decide)]

theorem actvStarted_of_scan (mask : env.opMask = 2) :
    actvStarted env = (env.setActv env.idx .scanStarted).clear 2 := by
  rw [actvStarted, mask, if_pos (by decide)]

theorem completed_follows (running : env.Running) (idx : env.idx = slot) {kind : Kind}
    (expects : Expects gapIdx env.cmd env.opMask kind op) (ok alloc : Bool) :
    NextFollows config (completedEnv env ok op) slot (errOf ok) alloc := by
  have running' : (completedEnv env ok op).Running := by
    rwa [Env.Running, completedEnv_appStatus]
  have idx' : (completedEnv env ok op).idx = slot := by
    rwa [Env.idx, completedEnv_appStatus]
  have cmd_eq := completedEnv_cmd env ok op
  generalize env_cmd : env.cmd = cmd at expects cmd_eq
  generalize mask_eq : env.opMask = opMask at expects
  cases expects with
  | initAdvCreate | initAdvData | initAdvRsp =>
      refine initAdv_next running' idx' cmd_eq (.inl ?_)
      simp only [completedEnv, Env.clear, mask_eq]
      decide
  | initAdvStart =>
      refine initAdv_next running' idx' cmd_eq (.inl ?_)
      cases ok
      · rw [completedEnv, if_neg (by decide), mask_eq]
        decide
      · rw [completedEnv, if_pos rfl, actvStarted_of_adv mask_eq]
        simp only [Env.clear, Env.setActv, mask_eq]
        decide
  | initAdvDelete =>
      refine initAdv_next running' idx' cmd_eq (.inr ?_)
      simp [completedEnv, Env.clear, Env.setActv, idx]
  | initScanCreate =>
      refine initScan_next running' idx' cmd_eq (.inl ?_)
      simp only [completedEnv, Env.clear, mask_eq]
      decide
  | initScanStart =>
      refine initScan_next running' idx' cmd_eq (.inl ?_)
      cases ok
      · rw [completedEnv, if_neg (by decide), mask_eq]
        decide
      · rw [completedEnv, if_pos rfl, actvStarted_of_scan mask_eq]
        simp only [Env.clear, Env.setActv, mask_eq]
        decide
  | initScanDelete =>
      refine initScan_next running' idx' cmd_eq (.inr ?_)
      simp [completedEnv, Env.clear, Env.setActv, idx]
  | deinitAdvStop =>
      refine deinitAdv_next running' idx' cmd_eq (.inr ?_)
      simp only [completedEnv, Env.clear, mask_eq]
      decide
  | deinitAdvDelete =>
      refine deinitAdv_next running' idx' cmd_eq (.inl ?_)
      simp only [completedEnv, Env.clear, Env.setActv, mask_eq]
      decide
  | deinitScanStop =>
      refine deinitScan_next running' idx' cmd_eq (.inr ?_)
      simp only [completedEnv, Env.clear, mask_eq]
      decide
  | deinitScanDelete =>
      refine deinitScan_next running' idx' cmd_eq (.inl ?_)
      simp only [completedEnv, Env.clear, Env.setActv, mask_eq]
      decide
  | _ => exact next_of_finish (by simp [appBleNextOperation, cmd_eq])

/-- The table after a completion. -/
def completedActvs (env : Env) (kind : Kind) (ok : Bool) : Op → ℕ → Actv
  | .start _ => if ok then (env.setActv env.idx (kind.status true)).actvs else env.actvs
  | .delete _ => (env.setActv env.idx .idle).actvs
  | _ => env.actvs

theorem completedEnv_actvs {kind : Kind} (expects : Expects gapIdx env.cmd env.opMask kind op)
    (ok : Bool) : (completedEnv env ok op).actvs = completedActvs env kind ok op := by
  generalize cmd_eq : env.cmd = cmd at expects
  generalize mask_eq : env.opMask = opMask at expects
  cases expects with
  | startAdv | initAdvStart =>
      cases ok
      · rfl
      · rw [completedEnv, if_pos rfl, actvStarted_of_adv mask_eq]
        rfl
  | startScan | initScanStart =>
      cases ok
      · rfl
      · rw [completedEnv, if_pos rfl, actvStarted_of_scan mask_eq]
        rfl
  | _ => rfl

theorem refused_ready {kind : Kind} (idx : env.idx = slot)
    (expects : Expects gapIdx env.cmd env.opMask kind (.delete gapIdx)) (alloc : Bool) :
    (appBleNextOperation config (completedEnv env false (.delete gapIdx)) slot (errOf false)
      alloc).1.Ready := by
  have idle : ((completedEnv env false (.delete gapIdx)).actvs slot.toNat).actvStatus = .idle := by
    simp [completedEnv, Env.clear, Env.setActv, idx]
  have cmd_eq := completedEnv_cmd env false (.delete gapIdx)
  generalize env_cmd : env.cmd = cmd at expects cmd_eq
  generalize mask_eq : env.opMask = opMask at expects
  cases expects with
  | initAdvDelete | initScanDelete =>
      simp only [appBleNextOperation, cmd_eq, initOperation, idle]
      simp [errOf, appBleReset_ready]
  | deinitAdvDelete | deinitScanDelete =>
      have ended : (completedEnv env false (.delete gapIdx)).opMask = 0 := by
        simp only [completedEnv, Env.clear, Env.setActv, mask_eq]
        decide
      simp only [appBleNextOperation, cmd_eq, deinitOperation, ended]
      exact appBleReset_ready _
  | _ =>
      simp only [appBleNextOperation, cmd_eq]
      exact appBleReset_ready _

/-! ## The steps -/

section Step

variable {system : System}

variable {pending : Pending} {kind : Kind} {gapIdx : UInt8} {stack : UInt8 → Option Held}
  {env : Env} {cmd : BleCmd} {opMask : UInt32} {index : UInt8} {after : System} {ok alloc : Bool}

theorem Waits.not_ready (waits : Waits config system pending kind gapIdx) : ¬system.env.Ready :=
  waits.running.not_ready

theorem Strong.pending_eq (strong : Strong config system) (ready : system.env.Ready) :
    system.pending = [] := by
  rcases strong.waits with empty | ⟨pending, kind, gapIdx, -, waits⟩
  · exact empty
  · exact absurd ready waits.not_ready

theorem Inside.update (inside : Inside config stack) {now : Option Held}
    (now_lt : ∀ held ∈ now, held.slot < config.activityMax) :
    Inside config (Function.update stack gapIdx now) := by
  intro other held held_mem
  by_cases same : other = gapIdx
  · subst same
    rw [Function.update_self] at held_mem
    exact now_lt held held_mem
  · rw [Function.update_of_ne same] at held_mem
    exact inside other held held_mem

theorem strong_send (mirrors : Mirrors config system)
    (inside : Inside config system.stack)
    (empty : system.pending = []) {slot : UInt8} {effects : List Effect}
    (follows : Follows config system.env slot effects) :
    Strong config (system.send slot effects) := by
  refine ⟨mirrors.congr rfl rfl, inside, ?_⟩
  rcases follows with nothing | ⟨kind, op, sends, running, idx, slot_lt, expects, allowed⟩
  · left
    simp [System.send, empty, nothing]
  · right
    refine ⟨⟨op, slot, none⟩, kind, system.env.gapIdx slot, ?_, running, idx, slot_lt, expects, ?_⟩
    · simp [System.send, empty, sends]
    · cases op with
      | createAdv | createScan => exact allowed
      | setAdvData | setScanRspData =>
          obtain ⟨started, status⟩ := allowed
          exact ⟨started, mirrors.stack_eq slot_lt status⟩
      | stop => exact ⟨true, mirrors.stack_eq slot_lt allowed⟩
      | _ => exact mirrors.stack_eq slot_lt allowed

/-- What a careful event does. -/
structure Kept (config : Config) (system after : System) (place : Option ℕ) : Prop where
  strong : Strong config after
  others : ∀ slot, place ≠ some slot → after.env.actvs slot = system.env.actvs slot

theorem Strong.kept (strong : Strong config system) (place : Option ℕ) :
    Kept config system system place :=
  ⟨strong, fun _ _ => rfl⟩

theorem api_kept (strong : Strong config system) (function : ActvApi) (idx : UInt8)
    (callback : Option Call) (alloc : Bool) :
    Kept config system (stepEvent config system (.api function idx callback alloc))
      (some idx.toNat) := by
  by_cases ready : system.env.Ready
  · have called : Called config system.env idx
        (function.call config system.env idx callback alloc) := call_called ..
    let after : System :=
      { system with env := (function.call config system.env idx callback alloc).2.1 }
    have mirrors : Mirrors config after := strong.mirrors.congr called.actvs_eq rfl
    have empty : after.pending = [] := strong.pending_eq ready
    exact ⟨strong_send mirrors strong.inside empty called.follows,
      fun slot _ => congrFun called.actvs_eq slot⟩
  · have same : stepEvent config system (.api function idx callback alloc) = system := by
      simp [stepEvent, call_of_not_ready function ready, System.send, sentOps]
    rw [same]
    exact strong.kept _

theorem gapmActivityCreatedIndHandler_eq (idx_lt : env.idx.toNat < config.activityMax) (kind : Kind)
    (gapIdx : UInt8) :
    gapmActivityCreatedIndHandler config env 0 kind.actvType gapIdx =
      { env with
        actvs := Function.update env.actvs env.idx.toNat ⟨kind.status false, gapIdx⟩ } := by
  rw [gapmActivityCreatedIndHandler, if_neg fun initing => not_initingCheckIndex_zero initing.1,
    if_neg (Nat.not_le.mpr idx_lt)]
  cases kind <;> simp [Kind.actvType, Env.setActv, Kind.status, Env.idx]

theorem creates_eq {made : Kind} {op : Op} (expects : Expects gapIdx cmd opMask kind op)
    (creates_op : creates op = some made) : made = kind := by
  cases expects <;> cases creates_op <;> rfl

theorem created_kept (strong : Strong config system) (gapIdx : UInt8) :
    Kept config system (stepEvent config system (.created gapIdx))
      (owner system (.created gapIdx)) := by
  rcases strong.waits with empty | ⟨pending, kind, index, pending_eq, waits⟩
  · simp only [stepEvent, empty]
    exact strong.kept _
  · simp only [stepEvent, pending_eq]
    split
    · rename_i made makes fresh free
      obtain rfl := creates_eq waits.expects makes
      have idle : (system.env.actvs pending.slot.toNat).actvStatus = .idle := by
        have held := waits.held
        revert makes held
        cases pending.op <;> simp_all [creates]
      have idx_lt : system.env.idx.toNat < config.activityMax := by
        rw [waits.idx]
        exact waits.slot_lt
      rw [gapmActivityCreatedIndHandler_eq idx_lt, waits.idx]
      refine ⟨⟨?_, ?_, ?_⟩, ?_⟩
      · exact strong.mirrors.add waits.slot_lt idle free rfl rfl
      · refine strong.inside.update ?_
        rintro _ ⟨rfl⟩
        exact waits.slot_lt
      · right
        refine ⟨_, made, index, rfl, waits.running, waits.idx, waits.slot_lt, waits.expects, ?_⟩
        revert makes
        cases pending.op <;> simp [creates, Function.update_self]
      · intro slot elsewhere
        simp only [owner, pending_eq, List.head?_cons, Option.map_some] at elsewhere
        have away : slot ≠ pending.slot.toNat := by
          rintro rfl
          exact elsewhere rfl
        exact Function.update_of_ne away ..
    · exact strong.kept _

section

variable {slot : ℕ} (slot_lt : slot < config.activityMax)
  (known : (env.actvs slot).gapAdvtIdx = gapIdx)
include slot_lt known

/-- The search finds the first slot with an index. -/
theorem appBleFindActvIdxHandle_spec :
    appBleFindActvIdxHandle config env gapIdx ≤ slot ∧
      (env.actvs (appBleFindActvIdxHandle config env gapIdx)).gapAdvtIdx = gapIdx ∧
      ∀ earlier < appBleFindActvIdxHandle config env gapIdx,
        (env.actvs earlier).gapAdvtIdx ≠ gapIdx := by
  unfold appBleFindActvIdxHandle
  cases search : (List.range config.activityMax).find? fun idx =>
      (env.actvs idx).gapAdvtIdx = gapIdx with
  | none =>
      have nowhere := List.find?_eq_none.mp search slot (List.mem_range.mpr slot_lt)
      exact absurd known (by simpa using nowhere)
  | some idx =>
      obtain ⟨found, -, earlier⟩ := List.find?_range_eq_some.mp search
      simp only [decide_eq_true_eq, Bool.not_eq_true', decide_eq_false_iff_not] at found earlier
      refine ⟨?_, found, earlier⟩
      by_contra later
      exact earlier slot (Nat.lt_of_not_le later) known

theorem appBleFindActvIdxHandle_eq_iff :
    appBleFindActvIdxHandle config env gapIdx = slot ↔
      ∀ earlier < slot, (env.actvs earlier).gapAdvtIdx ≠ gapIdx := by
  obtain ⟨found_le, found, first⟩ := appBleFindActvIdxHandle_spec slot_lt known
  constructor
  · rintro rfl
    exact first
  · intro none_earlier
    by_contra differs
    exact none_earlier _ (Nat.lt_of_le_of_ne found_le differs) found

end

theorem gapmActivityStoppedIndHandler_eq
    (found_lt : appBleFindActvIdxHandle config env gapIdx < config.activityMax) (kind : Kind) :
    gapmActivityStoppedIndHandler config env 0 kind.actvType gapIdx =
      { env with
        actvs := Function.update env.actvs (appBleFindActvIdxHandle config env gapIdx)
          ⟨kind.status false,
            (env.actvs (appBleFindActvIdxHandle config env gapIdx)).gapAdvtIdx⟩ } := by
  have small := config.activity_lt
  have number : (UInt8.ofNat (appBleFindActvIdxHandle config env gapIdx)).toNat =
      appBleFindActvIdxHandle config env gapIdx :=
    UInt8.toNat_ofNat_of_lt' (by simp [UInt8.size]; omega)
  simp only [gapmActivityStoppedIndHandler, if_neg (Nat.not_le.mpr found_lt)]
  cases kind <;> simp [Kind.actvType, Env.setActv, number, Kind.status]

/-- A command goes on to wait when an activity stops. -/
theorem Waits.stopped (mirrors : Mirrors config system)
    (waits : Waits config system pending kind index) {other : Kind} {slot : ℕ}
    (held : system.stack gapIdx = some ⟨other, true, slot⟩) (env_eq : after.env =
      { system.env with
        actvs := Function.update system.env.actvs slot ⟨other.status false, gapIdx⟩ })
    (stack_eq : after.stack = Function.update system.stack gapIdx (some ⟨other, false, slot⟩)) :
    Waits config after pending kind index := by
  have quiet {index : UInt8} {kind : Kind} {place : ℕ}
      (here : system.stack index = some ⟨kind, false, place⟩) :
      after.stack index = some ⟨kind, false, place⟩ := by
    have differs : index ≠ gapIdx := by
      rintro rfl
      rw [held] at here
      cases here
    rw [stack_eq, Function.update_of_ne differs, here]
  have busy {index : UInt8} {kind : Kind} {place : ℕ}
      (here : ∃ started, system.stack index = some ⟨kind, started, place⟩) :
      ∃ started, after.stack index = some ⟨kind, started, place⟩ := by
    obtain ⟨started, here⟩ := here
    by_cases same : index = gapIdx
    · subst same
      rw [held] at here
      cases here
      exact ⟨false, by rw [stack_eq, Function.update_self]⟩
    · exact ⟨started, by rw [stack_eq, Function.update_of_ne same, here]⟩
  have idle (here : (system.env.actvs pending.slot.toNat).actvStatus = .idle) :
      (after.env.actvs pending.slot.toNat).actvStatus = .idle := by
    have away : pending.slot.toNat ≠ slot := by
      intro same
      rw [same] at here
      exact mirrors.not_idle held here
    rw [env_eq]
    simp [Function.update_of_ne away, here]
  have expected := waits.held
  refine ⟨?_, ?_, waits.slot_lt, ?_, ?_⟩
  · rw [env_eq]
    exact waits.running
  · rw [env_eq]
    exact waits.idx
  · rw [env_eq]
    exact waits.expects
  · revert expected
    cases pending.op with
    | createAdv | createScan =>
        cases pending.created with
        | none => exact idle
        | some created => exact quiet
    | setAdvData | setScanRspData | stop => exact busy
    | _ => exact quiet

theorem stopped_kept (strong : Strong config system) (careful : Careful system (.stopped gapIdx)) :
    Kept config system (stepEvent config system (.stopped gapIdx))
      (owner system (.stopped gapIdx)) := by
  simp only [stepEvent]
  split
  · rename_i kind slot held
    have described := strong.mirrors.describes gapIdx ⟨kind, true, slot⟩ held
    have slot_lt := strong.inside gapIdx ⟨kind, true, slot⟩ held
    have known : (system.env.actvs slot).gapAdvtIdx = gapIdx := by rw [described]
    have first := (appBleFindActvIdxHandle_eq_iff slot_lt known).mpr
      (careful ⟨kind, true, slot⟩ held rfl)
    rw [gapmActivityStoppedIndHandler_eq (first.symm ▸ slot_lt), first, known]
    refine ⟨⟨?_, ?_, ?_⟩, ?_⟩
    · exact strong.mirrors.change held rfl rfl
    · refine strong.inside.update ?_
      rintro _ ⟨rfl⟩
      exact slot_lt
    · refine strong.waits.imp id ?_
      rintro ⟨pending, waiting, index, pending_eq, waits⟩
      exact ⟨pending, waiting, index, pending_eq, waits.stopped strong.mirrors held rfl rfl⟩
    · intro place elsewhere
      simp only [owner, held, Option.map_some] at elsewhere
      have away : place ≠ slot := by
        rintro rfl
        exact elsewhere rfl
      exact Function.update_of_ne away ..
  · exact strong.kept _

theorem Expects.start_eq (expects : Expects index cmd opMask kind (.start gapIdx)) :
    gapIdx = index := by
  cases expects <;> rfl

theorem Expects.delete_eq (expects : Expects index cmd opMask kind (.delete gapIdx)) :
    gapIdx = index := by
  cases expects <;> rfl

/-- What a completion leaves behind mirrors the stack, unless the stack has refused to delete an
activity. -/
theorem completed_mirrors (mirrors : Mirrors config system)
    (waits : Waits config system pending kind index)
    (accepted : pending.op = .delete index → ok = true)
    (actvs_eq : after.env.actvs = completedActvs system.env kind ok pending.op)
    (stack_eq : after.stack = if ok then executed system.stack pending.op else system.stack) :
    Mirrors config after := by
  have expects := waits.expects
  have expected := waits.held
  have idx := waits.idx
  obtain ⟨op, slot, created⟩ := pending
  dsimp only at *
  cases op with
  | start gapIdx =>
      obtain rfl := expects.start_eq
      cases ok with
      | false => exact mirrors.congr actvs_eq stack_eq
      | true =>
          have known := congrArg Actv.gapAdvtIdx (mirrors.describes gapIdx _ expected)
          have started : after.stack =
              Function.update system.stack gapIdx (some ⟨kind, true, slot.toNat⟩) := by
            rw [stack_eq, if_pos rfl, executed, expected]
            rfl
          refine mirrors.change expected ?_ started
          rw [actvs_eq]
          simp [completedActvs, Env.setActv, idx, known]
  | delete gapIdx =>
      obtain rfl := expects.delete_eq
      obtain rfl := accepted rfl
      have cleared : after.env.actvs = Function.update system.env.actvs slot.toNat
          ⟨.idle, (system.env.actvs slot.toNat).gapAdvtIdx⟩ := by
        rw [actvs_eq]
        simp [completedActvs, Env.setActv, idx]
      refine mirrors.remove expected rfl cleared ?_
      rw [stack_eq, if_pos rfl, executed]
  | _ =>
      refine mirrors.congr actvs_eq ?_
      rw [stack_eq, executed]
      · exact ite_self _
      all_goals simp

theorem executed_inside (inside : Inside config stack) (op : Op) :
    Inside config (executed stack op) := by
  cases op with
  | start gapIdx =>
      refine inside.update fun held held_mem => ?_
      obtain ⟨before, before_eq, rfl⟩ := Option.map_eq_some_iff.mp held_mem
      exact inside gapIdx before before_eq
  | delete gapIdx => exact inside.update fun held held_mem => by cases held_mem
  | _ => exact inside

theorem stepEvent_completed (pending_eq : system.pending = [pending])
    (waits : Waits config system pending kind index) (answered : answers system.stack pending ok)
    (alloc : Bool) :
    stepEvent config system (.completed ok alloc) =
      let next := appBleNextOperation config (completedEnv system.env ok pending.op) pending.slot
        (errOf ok) alloc
      System.send ⟨next.1, [], if ok then executed system.stack pending.op else system.stack⟩
        pending.slot next.2 := by
  obtain ⟨operation, operation_eq⟩ : ∃ operation, gapmOperation pending.op = some operation := by
    have expects := waits.expects
    revert expects
    generalize system.env.cmd = cmd, system.env.opMask = opMask, pending.op = op
    rintro ⟨⟩ <;> exact ⟨_, rfl⟩
  have idx_lt : system.env.idx.toNat < config.activityMax := by
    rw [waits.idx]
    exact waits.slot_lt
  simp [stepEvent, pending_eq, operation_eq, if_pos answered,
    gapmCmpEvtHandler_eq idx_lt operation_eq, waits.idx]

theorem completedActvs_of_ne {slot : ℕ} (away : slot ≠ env.idx.toNat) (kind : Kind) (ok : Bool)
    (op : Op) : completedActvs env kind ok op slot = env.actvs slot := by
  cases op with
  | start =>
      cases ok
      · rfl
      · exact setActv_of_ne env _ away
  | delete => exact setActv_of_ne env _ away
  | _ => rfl

section

variable (strong : Strong config system)
include strong

theorem completed_kept (careful : Careful system (.completed ok alloc)) :
    Kept config system (stepEvent config system (.completed ok alloc))
      (owner system (.completed ok alloc)) := by
  rcases strong.waits with empty | ⟨pending, kind, index, pending_eq, waits⟩
  · simp only [stepEvent, empty]
    exact strong.kept _
  by_cases answered : answers system.stack pending ok
  · rw [stepEvent_completed pending_eq waits answered]
    have accepted : pending.op = .delete index → ok = true :=
      careful pending (by rw [pending_eq]; rfl) index
    have actvs_eq : (appBleNextOperation config (completedEnv system.env ok pending.op)
        pending.slot (errOf ok) alloc).1.actvs =
          completedActvs system.env kind ok pending.op := by
      rw [appBleNextOperation_actvs, completedEnv_actvs waits.expects]
    refine ⟨strong_send ?_ ?_ rfl ?_, fun slot elsewhere => ?_⟩
    · exact completed_mirrors strong.mirrors waits accepted actvs_eq rfl
    · dsimp only
      split_ifs
      · exact executed_inside strong.inside _
      · exact strong.inside
    · exact completed_follows waits.running waits.idx waits.expects ok alloc
    · simp only [owner, pending_eq, List.head?_cons, Option.map_some] at elsewhere
      have away : slot ≠ system.env.idx.toNat := by
        rintro rfl
        exact elsewhere (by rw [waits.idx])
      exact (congrFun actvs_eq slot).trans (completedActvs_of_ne away ..)
  · have same : stepEvent config system (.completed ok alloc) = system := by
      simp only [stepEvent, pending_eq, if_neg answered]
      split <;> rfl
    rw [same]
    exact strong.kept _

theorem step_kept {event : Event} (careful : Careful system event) :
    Kept config system (stepEvent config system event) (owner system event) := by
  cases event with
  | api function idx callback alloc => exact api_kept strong function idx callback alloc
  | created gapIdx => exact created_kept strong gapIdx
  | stopped gapIdx => exact stopped_kept strong careful
  | completed ok alloc => exact completed_kept strong careful

/-- An activity that stops changes the status of an idle slot when that comes first with its
index. -/
theorem not_good_stopped (careless : ¬Careful system (.stopped gapIdx)) :
    ¬Good config system (.stopped gapIdx) := by
  simp only [Careful, not_forall] at careless
  obtain ⟨⟨kind, started, slot⟩, held, rfl, earlier, earlier_lt, shared⟩ := careless
  have slot_lt := strong.inside gapIdx _ held
  have described := strong.mirrors.describes gapIdx _ held
  have known : (system.env.actvs slot).gapAdvtIdx = gapIdx := by rw [described]
  obtain ⟨found_le, found_known, -⟩ := appBleFindActvIdxHandle_spec slot_lt known
  have found_lt := Nat.lt_of_le_of_lt found_le slot_lt
  have other : appBleFindActvIdxHandle config system.env gapIdx ≠ slot := fun same =>
    shared ((appBleFindActvIdxHandle_eq_iff slot_lt known).mp same earlier earlier_lt)
  have held_eq : system.stack gapIdx = some ⟨kind, true, slot⟩ := held
  rintro ⟨-, others⟩
  have unchanged := others (appBleFindActvIdxHandle config system.env gapIdx) (by
    simpa [owner, held_eq] using Ne.symm other)
  simp only [stepEvent, held_eq, gapmActivityStoppedIndHandler_eq found_lt,
    Function.update_self] at unchanged
  have here := strong.mirrors.stack_eq found_lt unchanged.symm
  rw [found_known, held_eq] at here
  exact other (by simpa using here.symm)

theorem not_good_completed (careless : ¬Careful system (.completed ok alloc)) :
    ¬Good config system (.completed ok alloc) := by
  simp only [Careful, not_forall] at careless
  obtain ⟨pending, first, gapIdx, deletes, refused⟩ := careless
  obtain rfl : ok = false := by simpa using refused
  rcases strong.waits with empty | ⟨waiting, kind, index, pending_eq, waits⟩
  · rw [empty] at first
    cases first
  rw [pending_eq] at first
  obtain rfl : waiting = pending := Option.some.inj first
  have answered : answers system.stack waiting false := by
    rw [answers, deletes]
    trivial
  have expects := waits.expects
  have expected := waits.held
  rw [deletes] at expects expected
  obtain rfl := expects.delete_eq
  rintro ⟨mirrors, -⟩
  rw [stepEvent_completed pending_eq waits answered, deletes] at mirrors
  have busy := (mirrors (refused_ready waits.idx expects alloc)).not_idle expected
  refine busy ?_
  dsimp only [System.send]
  rw [appBleNextOperation_actvs, completedEnv_actvs expects]
  simp [completedActvs, waits.idx]

theorem good_iff_careful (event : Event) : Good config system event ↔ Careful system event := by
  constructor
  · contrapose
    intro careless
    cases event with
    | api | created => exact absurd trivial careless
    | stopped gapIdx => exact not_good_stopped strong careless
    | completed ok alloc => exact not_good_completed strong careless
  · intro careful
    have kept := step_kept strong careful
    exact ⟨fun _ => kept.strong.mirrors, fun slot elsewhere => by rw [kept.others slot elsewhere]⟩

end

end Step

theorem strong_init : Strong config System.init := by
  refine ⟨⟨fun slot _ => ?_, fun gapIdx held held_mem => ?_⟩, fun gapIdx held held_mem => ?_,
    .inl rfl⟩
  · exact iff_of_true rfl fun gapIdx held held_mem => by cases held_mem
  · cases held_mem
  · cases held_mem

/-! ## The table -/

variable (config)

/-- The table of the application mirrors the activities of the stack whenever no command runs, and
the events of an activity change the status of no other slot, exactly if every activity that stops
is found by its index and no activity is refused to be deleted. -/
theorem activities_good_iff (events : List Event) :
    (machine config).Always (Good config) System.init events ↔
      (machine config).Always Careful System.init events :=
  (machine config).always_iff_always _ _ (Strong config)
    (fun event strong => good_iff_careful strong event)
    (fun _ strong careful => (step_kept strong careful).strong) strong_init events

/-- An activity for the second slot, whose index in the stack is 0, stops on its own: the first slot
is taken for it. -/
theorem activities_not_good :
    ¬∀ (config : Config) (events : List Event),
      (machine config).Always (Good config) System.init events := by
  intro every
  obtain ⟨-, -, -, -, -, ⟨-, others⟩, -⟩ := every ⟨3, 1, by decide, by decide⟩
    [.api .createAdvertising 1 none true, .created 0, .completed true true,
      .api .startAdvertising 1 none true, .completed true true, .stopped 0]
  have unchanged := others 0 (by decide)
  revert unchanged
  decide

end BdkFreertos.BleActivities
