import Mathlib.Data.List.Basic

/-!
# Attributes of the local services

A request of the peer carries an attribute handle.  The profile whose service contains the handle is
looked up in the table of profiles, and the application is given the index of the attribute in it.
-/

namespace BdkFreertos.ProfileTable

/-- A service, `struct bk_ble_env_tag`. -/
structure BkBleEnv where
  startHdl : UInt16
  attDbNb : UInt8
  deriving DecidableEq

/-- A slot, `struct prf_task_env`.  An empty one has no environment. -/
structure PrfTaskEnv where
  env : Option BkBleEnv
  id : UInt16

/-- What goes wrong. -/
inductive Fault
  | emptySlot
  | noSlot
  deriving DecidableEq

def taskBleIdCommon : UInt16 := 120

def gapErrNoError : UInt8 := 0x00

def prfAppError : UInt8 := 0x80

/-- The test of `bk_ble_get_prf_by_handler`. -/
def BkBleEnv.accepts (bleEnv : BkBleEnv) (handler : UInt16) : Bool :=
  bleEnv.startHdl ≤ handler && bleEnv.startHdl.toNat + bleEnv.attDbNb.toNat ≥ handler.toNat

/-- The loop of `bk_ble_get_prf_by_handler`. -/
def scan (handler : UInt16) : List PrfTaskEnv → Except Fault (Option ℕ)
  | [] => .ok none
  | prf :: rest =>
      match prf.env with
      | none => .error .emptySlot
      | some bleEnv =>
          if bleEnv.accepts handler then .ok (some 0)
          else (scan handler rest).map (Option.map (· + 1))

/-- The status, and the slot that `env` points to. -/
def bkBleGetPrfByHandler (table : List PrfTaskEnv) (handler : UInt16) :
    Except Fault (UInt8 × Option ℕ) :=
  (scan handler table).map fun slot =>
    match slot with
    | none => (prfAppError, none)
    | some i => (gapErrNoError, some i)

/-- Read `prf_env->env`, and what it points to. -/
def readEnv (table : List PrfTaskEnv) (prfEnv : Option ℕ) : Except Fault (PrfTaskEnv × BkBleEnv) :=
  match prfEnv.bind (table[·]?) with
  | none => .error .noSlot
  | some prf =>
      match prf.env with
      | none => .error .emptySlot
      | some bleEnv => .ok (prf, bleEnv)

/-- What the application is asked. -/
inductive Request
  | attInfo (connIdx : UInt8) (prfId attIdx : UInt16)
  | read (connIdx : UInt8) (prfId attIdx size : UInt16)
  | write (conidx : UInt8) (prfId attId : UInt16) (length : UInt8) (value : List UInt8)

def Request.prfId : Request → UInt16
  | .attInfo _ prfId _ | .read _ prfId _ _ | .write _ prfId _ _ _ => prfId

def Request.attIdx : Request → UInt16
  | .attInfo _ _ attIdx | .read _ _ attIdx _ | .write _ _ attIdx _ _ => attIdx

/-- What the application fills in. -/
structure Answer where
  length : UInt16
  status : UInt8

/-- What the handlers use besides the table. -/
structure App where
  /-- `app_ble_find_conn_idx_handle`. -/
  findConnIdxHandle : UInt8 → UInt8
  /-- `ble_event_notice`, if it is set. -/
  eventNotice : Option (Request → Answer)
  /-- What the fields hold when nobody has filled them in. -/
  unset : Answer

/-- What the application is asked, and the confirmation for the stack. -/
structure Reply where
  requests : List Request
  handle : UInt16
  status : UInt8
  /-- The confirmation of a write has no length. -/
  length : Option UInt16

/-- Ask the application when the slot was found and the application listens. -/
def App.ask (app : App) (status : UInt8) (request : Request) : List Request × Answer :=
  match app.eventNotice with
  | some notice =>
      if status = gapErrNoError then ([request], notice request) else ([], app.unset)
  | none => ([], app.unset)

/-- The handlers look the handle up and read the environment before they look at the status. -/
def handleReq (table : List PrfTaskEnv) (handle : UInt16)
    (reply : UInt8 → PrfTaskEnv → BkBleEnv → Reply) : Except Fault Reply := do
  let (status, prfEnv) ← bkBleGetPrfByHandler table handle
  let (prf, bleEnv) ← readEnv table prfEnv
  return reply status prf bleEnv

def gattcAttInfoReqIndHandler (app : App) (table : List PrfTaskEnv) (handle : UInt16)
    (conidx : UInt8) : Except Fault Reply :=
  handleReq table handle fun status prf bleEnv =>
    let (requests, attInfo) := app.ask status
      (.attInfo (app.findConnIdxHandle conidx) (prf.id - taskBleIdCommon)
        (handle - bleEnv.startHdl))
    ⟨requests, handle, attInfo.status, some attInfo.length⟩

def bleCharDataLen : UInt16 := 128

def gattcReadReqIndHandler (app : App) (table : List PrfTaskEnv) (handle : UInt16)
    (conidx : UInt8) : Except Fault Reply :=
  handleReq table handle fun status prf bleEnv =>
    let (requests, readReq) := app.ask status
      (.read (app.findConnIdxHandle conidx) (prf.id - taskBleIdCommon) (handle - bleEnv.startHdl)
        bleCharDataLen)
    ⟨requests, handle, status, some readReq.length⟩

/-- The length of the message for the application has eight bits. -/
def gattcWriteReqIndHandler (table : List PrfTaskEnv) (handle : UInt16) (value : List UInt8)
    (conidx : UInt8) : Except Fault Reply :=
  handleReq table handle fun status prf bleEnv =>
    let ind := .write conidx (prf.id - taskBleIdCommon) (handle - bleEnv.startHdl)
      (.ofNat value.length) value
    ⟨if status = gapErrNoError then [ind] else [], handle, status, none⟩

/-! ### The services -/

/-- The handle is one of the attributes of the service. -/
def BkBleEnv.Holds (bleEnv : BkBleEnv) (handle : UInt16) : Prop :=
  bleEnv.startHdl.toNat ≤ handle.toNat ∧
    handle.toNat < bleEnv.startHdl.toNat + bleEnv.attDbNb.toNat

def BkBleEnv.EndsAt (bleEnv : BkBleEnv) (handle : UInt16) : Prop :=
  handle.toNat = bleEnv.startHdl.toNat + bleEnv.attDbNb.toNat

def envAt (table : List PrfTaskEnv) (i : ℕ) : Option BkBleEnv := table[i]?.bind PrfTaskEnv.env

def Contains (table : List PrfTaskEnv) (handle : UInt16) (i : ℕ) : Prop :=
  ∃ bleEnv, envAt table i = some bleEnv ∧ bleEnv.Holds handle

def Disjoint (table : List PrfTaskEnv) : Prop :=
  ∀ handle i j, Contains table handle i → Contains table handle j → i = j

/-- What is claimed of a handler. -/
structure Answers (table : List PrfTaskEnv) (handle : UInt16) (listening : Prop)
    (result : Except Fault Reply) : Prop where
  asks : ∀ (i : ℕ) (prf : PrfTaskEnv) (bleEnv : BkBleEnv), table[i]? = some prf →
    prf.env = some bleEnv → bleEnv.Holds handle → ∃ reply, result = .ok reply ∧
      (listening → ∃ request, reply.requests = [request] ∧
        request.prfId = prf.id - taskBleIdCommon ∧
          request.attIdx.toNat = handle.toNat - bleEnv.startHdl.toNat)
  refuses : (∀ i, ¬Contains table handle i) →
    ∃ reply, result = .ok reply ∧ reply.requests = [] ∧ reply.status ≠ gapErrNoError

/-- What is claimed of a handle. -/
structure Resolves (app : App) (table : List PrfTaskEnv) (handle : UInt16) (value : List UInt8)
    (conidx : UInt8) : Prop where
  found : ∀ i, Contains table handle i →
    bkBleGetPrfByHandler table handle = .ok (gapErrNoError, some i)
  notFound : (∀ i, ¬Contains table handle i) →
    bkBleGetPrfByHandler table handle = .ok (prfAppError, none)
  attInfo : Answers table handle (app.eventNotice.isSome = true)
    (gattcAttInfoReqIndHandler app table handle conidx)
  read : Answers table handle (app.eventNotice.isSome = true)
    (gattcReadReqIndHandler app table handle conidx)
  write : Answers table handle True (gattcWriteReqIndHandler table handle value conidx)

/-- Some service contains the handle, all slots before it are in use, and none of their services
ends at the handle. -/
def Reached (table : List PrfTaskEnv) (handle : UInt16) : Prop :=
  ∃ i, Contains table handle i ∧
    ∀ j < i, ∃ bleEnv, envAt table j = some bleEnv ∧ ¬bleEnv.EndsAt handle

theorem BkBleEnv.accepts_iff (bleEnv : BkBleEnv) (handle : UInt16) :
    bleEnv.accepts handle = true ↔ bleEnv.Holds handle ∨ bleEnv.EndsAt handle := by
  simp only [accepts, Bool.and_eq_true, decide_eq_true_eq, UInt16.le_iff_toNat_le, Holds, EndsAt]
  omega

@[simp]
theorem envAt_cons_succ (prf : PrfTaskEnv) (table : List PrfTaskEnv) (i : ℕ) :
    envAt (prf :: table) (i + 1) = envAt table i := rfl

@[simp]
theorem envAt_cons_zero (prf : PrfTaskEnv) (table : List PrfTaskEnv) :
    envAt (prf :: table) 0 = prf.env := rfl

theorem map_succ_eq_some_iff {ε : Type*} (result : Except ε (Option ℕ)) (i : ℕ) :
    result.map (Option.map (· + 1)) = .ok (some (i + 1)) ↔ result = .ok (some i) := by
  rcases result with fault | _ | slot <;> simp [Except.map]

theorem map_succ_ne_zero {ε : Type*} (result : Except ε (Option ℕ)) :
    result.map (Option.map (· + 1)) ≠ .ok (some 0) := by
  rcases result with fault | _ | slot <;> simp [Except.map]

/-- The scan returns the first slot whose service accepts the handle, when all slots before it are
in use. -/
theorem scan_eq_some_iff (handle : UInt16) (table : List PrfTaskEnv) (i : ℕ) :
    scan handle table = .ok (some i) ↔
      (∃ bleEnv, envAt table i = some bleEnv ∧ bleEnv.accepts handle = true) ∧
        ∀ j < i, ∃ bleEnv, envAt table j = some bleEnv ∧ bleEnv.accepts handle = false := by
  induction table generalizing i with
  | nil => simp [scan, envAt]
  | cons prf table induction =>
      rw [scan]
      rcases env : prf.env with _ | bleEnv
      · cases i with
        | zero => simp [env]
        | succ i =>
            refine iff_of_false (by simp) fun found => ?_
            obtain ⟨bleEnv, first, -⟩ := found.2 0 (Nat.succ_pos i)
            rw [envAt_cons_zero, env] at first
            exact nomatch first
      · cases accepted : bleEnv.accepts handle with
        | true =>
            cases i with
            | zero => simp [env, accepted]
            | succ i =>
                refine iff_of_false (by simp [accepted]) fun found => ?_
                obtain ⟨other, first, passed⟩ := found.2 0 (Nat.succ_pos i)
                rw [envAt_cons_zero, env, Option.some.injEq] at first
                rw [← first, accepted] at passed
                exact nomatch passed
        | false =>
            cases i with
            | zero => simpa [env, accepted] using map_succ_ne_zero (scan handle table)
            | succ i =>
                simp only [accepted, Bool.false_eq_true, if_false, map_succ_eq_some_iff, induction,
                  envAt_cons_succ, Nat.forall_lt_succ_left, envAt_cons_zero, env,
                  Option.some.injEq, exists_eq_left', true_and]

section
variable {table : List PrfTaskEnv} {handle : UInt16} {i : ℕ}

theorem bkBleGetPrfByHandler_eq_iff :
    bkBleGetPrfByHandler table handle = .ok (gapErrNoError, some i) ↔
      scan handle table = .ok (some i) := by
  rw [bkBleGetPrfByHandler]
  rcases scan handle table with fault | _ | slot <;> simp [Except.map, gapErrNoError, prfAppError]

/-- Among disjoint services, the service that contains the handle is found exactly if the slots
before it neither are empty nor end at the handle. -/
theorem found_iff (disjoint : Disjoint table) (contains : Contains table handle i) :
    bkBleGetPrfByHandler table handle = .ok (gapErrNoError, some i) ↔
      ∀ j < i, ∃ bleEnv, envAt table j = some bleEnv ∧ ¬bleEnv.EndsAt handle := by
  obtain ⟨own, own_eq, holds⟩ := contains
  rw [bkBleGetPrfByHandler_eq_iff, scan_eq_some_iff]
  have accepted : ∃ bleEnv, envAt table i = some bleEnv ∧ bleEnv.accepts handle = true :=
    ⟨own, own_eq, (own.accepts_iff handle).mpr (Or.inl holds)⟩
  rw [and_iff_right accepted]
  refine forall₂_congr fun j before => exists_congr fun bleEnv => and_congr_right fun used => ?_
  have foreign : ¬bleEnv.Holds handle := fun also =>
    absurd (disjoint handle i j ⟨own, own_eq, holds⟩ ⟨bleEnv, used, also⟩)
      (Nat.ne_of_gt before)
  rw [← Bool.not_eq_true, bleEnv.accepts_iff handle, or_iff_right foreign]

variable (reply : UInt8 → PrfTaskEnv → BkBleEnv → Reply)

theorem handleReq_notFound
    (notFound : bkBleGetPrfByHandler table handle = .ok (prfAppError, none)) :
    handleReq table handle reply = .error .noSlot := by
  rw [handleReq, notFound]
  rfl

theorem handleReq_found {prf : PrfTaskEnv} {bleEnv : BkBleEnv}
    (found : bkBleGetPrfByHandler table handle = .ok (gapErrNoError, some i))
    (prf_eq : table[i]? = some prf) (env_eq : prf.env = some bleEnv) :
    handleReq table handle reply = .ok (reply gapErrNoError prf bleEnv) := by
  have read : readEnv table (some i) = .ok (prf, bleEnv) := by
    simp [readEnv, prf_eq, env_eq]
  rw [handleReq, found]
  change (do let (prf, bleEnv) ← readEnv table (some i); _) = _
  rw [read]
  rfl

/-- A handler whose request carries the profile and the index of the attribute does as claimed when
its slot is found. -/
theorem answers_of_found {listening : Prop}
    {reply : UInt8 → PrfTaskEnv → BkBleEnv → Reply}
    (disjoint : Disjoint table) (contains : Contains table handle i)
    (found : bkBleGetPrfByHandler table handle = .ok (gapErrNoError, some i))
    (asks : ∀ prf bleEnv, listening → ∃ request,
      (reply gapErrNoError prf bleEnv).requests = [request] ∧
        request.prfId = prf.id - taskBleIdCommon ∧
          request.attIdx = handle - bleEnv.startHdl) :
    Answers table handle listening (handleReq table handle reply) where
  asks := by
    intro slot prf bleEnv prf_eq env_eq holds
    have used : envAt table slot = some bleEnv := Option.bind_eq_some_iff.mpr ⟨prf, prf_eq, env_eq⟩
    obtain rfl := disjoint handle i slot contains ⟨bleEnv, used, holds⟩
    refine ⟨_, handleReq_found reply found prf_eq env_eq, fun listens => ?_⟩
    obtain ⟨request, requests_eq, prfId_eq, attIdx_eq⟩ := asks prf bleEnv listens
    refine ⟨request, requests_eq, prfId_eq, ?_⟩
    rw [attIdx_eq, UInt16.toNat_sub_of_le _ _ (UInt16.le_iff_toNat_le.mpr holds.1)]
  refuses := fun none_contains => absurd contains (none_contains i)

theorem resolves_of_reached (app : App) (value : List UInt8) (conidx : UInt8)
    (disjoint : Disjoint table) (reached : Reached table handle) :
    Resolves app table handle value conidx := by
  obtain ⟨i, contains, before⟩ := reached
  have found := (found_iff disjoint contains).mpr before
  constructor
  · intro slot also
    obtain rfl := disjoint handle i slot contains also
    exact found
  · intro none_contains
    exact absurd contains (none_contains i)
  · refine answers_of_found disjoint contains found fun prf bleEnv listens => ?_
    obtain ⟨notice, notice_eq⟩ := Option.isSome_iff_exists.mp listens
    refine ⟨.attInfo (app.findConnIdxHandle conidx) (prf.id - taskBleIdCommon)
      (handle - bleEnv.startHdl), ?_, rfl, rfl⟩
    simp [App.ask, notice_eq]
  · refine answers_of_found disjoint contains found fun prf bleEnv listens => ?_
    obtain ⟨notice, notice_eq⟩ := Option.isSome_iff_exists.mp listens
    refine ⟨.read (app.findConnIdxHandle conidx) (prf.id - taskBleIdCommon)
      (handle - bleEnv.startHdl) bleCharDataLen, ?_, rfl, rfl⟩
    simp [App.ask, notice_eq]
  · exact answers_of_found disjoint contains found fun prf bleEnv _ => ⟨_, rfl, rfl, rfl⟩

theorem reached_of_resolves {app : App} {value : List UInt8} {conidx : UInt8}
    (disjoint : Disjoint table) (resolves : Resolves app table handle value conidx) :
    Reached table handle := by
  by_cases contained : ∃ i, Contains table handle i
  · obtain ⟨i, contains⟩ := contained
    exact ⟨i, contains, (found_iff disjoint contains).mp (resolves.found i contains)⟩
  · -- The handler of a write stops at the missing slot in place of an error.
    have none_contains := not_exists.mp contained
    obtain ⟨reply, reply_eq, -⟩ := resolves.write.refuses none_contains
    exact nomatch reply_eq.symm.trans (handleReq_notFound _ (resolves.notFound none_contains))

end

/-- Among disjoint services a handle is resolved as claimed exactly if some service contains it and
the slots before that one neither are empty nor end at it. -/
theorem attribute_resolved_iff (app : App) (table : List PrfTaskEnv) (handle : UInt16)
    (value : List UInt8) (conidx : UInt8) (disjoint : Disjoint table) :
    Resolves app table handle value conidx ↔ Reached table handle :=
  ⟨reached_of_resolves disjoint, resolves_of_reached app value conidx disjoint⟩

/-- Two adjacent services, at handles 16 to 18 and 19 to 21. -/
def adjacent : List PrfTaskEnv := [⟨some ⟨16, 3⟩, 121⟩, ⟨some ⟨19, 3⟩, 122⟩]

theorem adjacent_disjoint : Disjoint adjacent := by
  have holds (i : ℕ) (handle : UInt16) (contains : Contains adjacent handle i) :
      (i = 0 ∧ handle.toNat < 19) ∨ (i = 1 ∧ 19 ≤ handle.toNat) := by
    obtain ⟨bleEnv, used, first, last⟩ := contains
    rcases i with _ | _ | i
    · obtain rfl := Option.some.inj used
      exact Or.inl ⟨rfl, last⟩
    · obtain rfl := Option.some.inj used
      exact Or.inr ⟨rfl, first⟩
    · exact nomatch used
  intro handle i j first second
  have := holds i handle first
  have := holds j handle second
  omega

def deaf : App := ⟨id, none, ⟨0, 0⟩⟩

/-- Handle 19, the first of the second service, is taken for one of the first; a handle of no
service stops the handlers. -/
theorem first_handle_of_adjacent_service_lost :
    bkBleGetPrfByHandler adjacent 19 = .ok (gapErrNoError, some 0) ∧
      gattcWriteReqIndHandler adjacent 40 [] 0 = .error .noSlot ∧
        Disjoint adjacent ∧ ¬Resolves deaf adjacent 19 [] 0 := by
  refine ⟨by decide, rfl, adjacent_disjoint, fun resolves => ?_⟩
  have second : Contains adjacent 19 1 := ⟨⟨19, 3⟩, rfl, by decide, by decide⟩
  exact absurd (resolves.found 1 second) (by decide)

theorem last_handle_of_adjacent_service_resolved : Resolves deaf adjacent 21 [7] 0 := by
  refine (attribute_resolved_iff deaf adjacent 21 [7] 0 adjacent_disjoint).mpr
    ⟨1, ⟨⟨19, 3⟩, rfl, by decide, by decide⟩, fun j before => ?_⟩
  obtain rfl := Nat.lt_one_iff.mp before
  exact ⟨⟨16, 3⟩, rfl, by simp [BkBleEnv.EndsAt]⟩

end BdkFreertos.ProfileTable
