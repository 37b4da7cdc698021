import BdkFreertos.CString
import BdkFreertos.Machine
import Mathlib.Algebra.Group.Nat.Even
import Mathlib.Logic.Function.Basic

/-!
# The driver model

`drv_model.c` keeps devices in a table of ten slots and simple devices in one of sixteen.  A device
is found by its name, with a comparison of as many bytes as the wanted name has; a use count decides
which opening and which closing reach the driver.
-/

namespace BdkFreertos.DrvModel

/-- `DRV_FAILURE`. -/
def drvFailure : UInt32 := 0xFFFFFFFB

/-- `DRV_SUCCESS`. -/
def drvSuccess : UInt32 := 0

def ddHandleMagicWord : UInt32 := 0xA5A50000

def ddHandleMagicMask : UInt32 := 0xFFFF0000

def ddHandleIdMask : UInt32 := 0x0000FFFF

def ddHandleUnvalid : UInt32 := 0xFFFFFFFF

def ddIdUnvalid : UInt32 := 0xFFFFFFFF

def ddMaxDev : ℕ := 10

def ddMaxSdev : ℕ := 16

def ddMaxNameLen : ℕ := 16

/-- The enumeration `DD_STATE`. -/
inductive DdState
  | noDevice
  | closed
  | opened
  | broken
  | success
  deriving DecidableEq

abbrev FunctionPointer := ℕ

/-- The record `DD_OPERATIONS`; a driver may leave any of its functions out. -/
structure DdOperations where
  openDev : Option FunctionPointer
  closeDev : Option FunctionPointer
  readDev : Option FunctionPointer
  writeDev : Option FunctionPointer
  controlDev : Option FunctionPointer
  deriving DecidableEq

/-- The record `SDD_OPERATIONS`. -/
structure SddOperations where
  controlDev : Option FunctionPointer
  deriving DecidableEq

/-- The records `DRV_DEV_S` and `DRV_SDEV_S`, which differ in their operations only. -/
structure DrvDev (Operations : Type) where
  /-- The name the slot is registered under, if it is. -/
  name : Option CString
  useCnt : UInt32
  state : DdState
  op : Option Operations

abbrev Table (Operations : Type) := ℕ → DrvDev Operations

/-- The tables as `drv_model_init` leaves them. -/
def emptyTable (Operations : Type) : Table Operations := fun _ =>
  { name := none, useCnt := 0, state := .noDevice, op := none }

/-- Why a call does not return. -/
inductive Halt
  /-- It compares through a null pointer. -/
  | nullName
  | assertion
  deriving DecidableEq

/-! ## Handles -/

def ddevMakeHandle (id : ℕ) : UInt32 :=
  if ddMaxDev ≤ id then ddHandleUnvalid else UInt32.ofNat id + ddHandleMagicWord

def ddevGetIdFromHandle (handle : UInt32) : UInt32 :=
  if handle &&& ddHandleMagicMask ≠ ddHandleMagicWord then ddIdUnvalid
  else handle &&& ddHandleIdMask

/-! ## Looking for a name -/

section Tables

variable {Operations : Type}

/-- What comparing a slot's name with a wanted one finds.  Comparing no bytes looks at neither
name; comparing some bytes of a slot without a name goes through a null pointer. -/
def nameMatches (slot : DrvDev Operations) (devName : CString) : Option Bool :=
  match slot.name with
  | some name => some (name.strncmp devName devName.strlen)
  | none => if devName.strlen = 0 then some true else none

/-- How a loop over a table ends. -/
inductive Search
  | found (index : ℕ)
  | absent
  | nullName
  deriving DecidableEq

/-- The loop that looks for a name, from a slot on. -/
def search (table : Table Operations) (devName : CString) (index : ℕ) : ℕ → Search
  | 0 => .absent
  | remaining + 1 =>
      match nameMatches (table index) devName with
      | none => .nullName
      | some true => .found index
      | some false => search table devName (index + 1) remaining

/-- The loop that looks for a free slot, from a slot on. -/
def freeSlot (table : Table Operations) (index : ℕ) : ℕ → Option ℕ
  | 0 => none
  | remaining + 1 =>
      if (table index).name = none ∧ (table index).state = .noDevice then some index
      else freeSlot table (index + 1) remaining

/-- Enter a device into the first free slot of a table of so many. -/
def registerDev (size : ℕ) (table : Table Operations) (devName : CString)
    (optr : Option Operations) : Except Halt (Table Operations × UInt32) :=
  match optr with
  | none => .ok (table, drvFailure)
  | some op =>
      match freeSlot table 0 size with
      | none => .error .assertion
      | some index =>
          .ok (Function.update table index
            { table index with name := some devName, op := some op, state := .closed }, drvSuccess)

/-- Take the device found under a name out of a table, looking at so many slots. -/
def unregisterDev (slots : ℕ) (table : Table Operations) (devName : CString) :
    Except Halt (Table Operations × UInt32) :=
  if ddMaxNameLen < devName.strlen then
    .ok (table, drvFailure)
  else
    match search table devName 0 slots with
    | .nullName => .error .nullName
    | .absent => .error .assertion
    | .found index =>
        .ok (Function.update table index
          { table index with name := none, op := none, state := .noDevice }, drvSuccess)

end Tables

def ddevRegisterDev (table : Table DdOperations) (devName : CString)
    (optr : Option DdOperations) : Except Halt (Table DdOperations × UInt32) :=
  registerDev ddMaxDev table devName optr

def sddevRegisterDev (table : Table SddOperations) (devName : CString)
    (optr : Option SddOperations) : Except Halt (Table SddOperations × UInt32) :=
  registerDev ddMaxSdev table devName optr

def ddevUnregisterDev (table : Table DdOperations) (devName : CString) :
    Except Halt (Table DdOperations × UInt32) :=
  unregisterDev ddMaxDev table devName

/-- The loop has the bound of the other table. -/
def sddevUnregisterDev (table : Table SddOperations) (devName : CString) :
    Except Halt (Table SddOperations × UInt32) :=
  unregisterDev ddMaxDev table devName

/-! ## Opening, closing and controlling -/

/-- The two functions of a driver that openings and closings may call. -/
inductive Callback
  | openDev
  | closeDev
  deriving DecidableEq

/-- Whether a device's driver has a function. -/
def provides (slot : DrvDev DdOperations) : Callback → Bool
  | .openDev => slot.op.any fun op => op.openDev.isSome
  | .closeDev => slot.op.any fun op => op.closeDev.isSome

/-- What an opening leaves behind. -/
structure Opened where
  table : Table DdOperations
  handle : UInt32
  /-- What has been stored through the status pointer. -/
  status : Option UInt32
  reached : Option ℕ
  /-- The functions of the driver that were called. -/
  called : List (ℕ × Callback)

/-- Open the device of a slot, whose driver answers as told; the result carries the slot, the status
and the functions of the driver that were called. -/
def openSlot (slot : DrvDev DdOperations) (answer : UInt32) :
    Option (DrvDev DdOperations × UInt32 × List Callback) :=
  match slot.state with
  | .opened => some ({ slot with useCnt := slot.useCnt + 1 }, drvFailure, [])
  | .closed =>
      some ({ slot with state := .opened, useCnt := 0 + 1 },
        if provides slot .openDev = true then answer else drvFailure,
        if provides slot .openDev = true then [.openDev] else [])
  -- no handle is made, and the assertion behind the loop fails
  | _ => none

/-- Open the device found under a name.  Whether the status pointer is given, and what the driver's
own function answers, come from outside. -/
def ddevOpen (table : Table DdOperations) (devName : CString) (statusGiven : Bool)
    (answer : UInt32) : Except Halt Opened :=
  if statusGiven = false ∨ ddMaxNameLen < devName.strlen then
    .ok { table := table, handle := ddHandleUnvalid, status := none, reached := none, called := [] }
  else
    match search table devName 0 ddMaxDev with
    | .nullName => .error .nullName
    | .absent => .error .assertion
    | .found index =>
        match openSlot (table index) answer with
        | none => .error .assertion
        | some (slot, status, called) =>
            .ok {
              table := Function.update table index slot
              handle := ddevMakeHandle index
              status := some status
              reached := some index
              called := called.map fun callback => (index, callback) }

/-- Close the device of a slot; the result carries the slot and the functions of the driver that
were called. -/
def closeSlot (slot : DrvDev DdOperations) : DrvDev DdOperations × List Callback :=
  if slot.useCnt - 1 = 0 then
    ({ slot with useCnt := slot.useCnt - 1, state := .closed },
      if provides slot .closeDev = true then [.closeDev] else [])
  else
    ({ slot with useCnt := slot.useCnt - 1 }, [])

/-- Close the device behind a handle; the result carries the table and the functions of the driver
that were called. -/
def ddevClose (table : Table DdOperations) (handle : UInt32) :
    Table DdOperations × UInt32 × List (ℕ × Callback) :=
  let id := ddevGetIdFromHandle handle
  if id = ddIdUnvalid then
    (table, drvFailure, [])
  else
    let (slot, called) := closeSlot (table id.toNat)
    (Function.update table id.toNat slot, drvSuccess,
      called.map fun callback => (id.toNat, callback))

/-- Control the simple device found under a name: the slot reached and the function called. -/
def sddevControl (table : Table SddOperations) (devName : CString) :
    Except Halt (ℕ × Option FunctionPointer) :=
  match search table devName 0 ddMaxSdev with
  | .nullName => .error .nullName
  | .absent => .error .assertion
  | .found index =>
      match (table index).op with
      | none => .error .assertion
      | some op => .ok (index, op.controlDev)

/-! ## Openings and closings of a device pair up -/

/-- A call on the device table. -/
inductive Call
  /-- `ddev_open`. -/
  | openDev (devName : CString) (statusGiven : Bool) (answer : UInt32)
  /-- `ddev_close`. -/
  | closeDev (handle : UInt32)

/-- The device table together with the openings of each device not yet closed. -/
structure Tracked where
  table : Table DdOperations
  opens : ℕ → ℕ

/-- The device table driven by its calls, with the driver functions called as output.  A call that
does not return leaves the table to itself. -/
def devices : Machine Tracked Call (List (ℕ × Callback)) where
  step tracked
    | .openDev devName statusGiven answer =>
        match ddevOpen tracked.table devName statusGiven answer with
        | .error _ => (tracked, [])
        | .ok opened =>
            match opened.reached with
            | none => (⟨opened.table, tracked.opens⟩, opened.called)
            | some index =>
                (⟨opened.table, Function.update tracked.opens index (tracked.opens index + 1)⟩,
                  opened.called)
    | .closeDev handle =>
        let (table, _, called) := ddevClose tracked.table handle
        let id := ddevGetIdFromHandle handle
        if id = ddIdUnvalid then (⟨table, tracked.opens⟩, called)
        else
          (⟨table, Function.update tracked.opens id.toNat (tracked.opens id.toNat - 1)⟩, called)

def callbacksOf (index : ℕ) (outputs : List (List (ℕ × Callback))) : List Callback :=
  (outputs.flatten.filter fun called => called.1 = index).map Prod.snd

def alternating (count : ℕ) : List Callback :=
  (List.range count).map fun turn => if Even turn then .openDev else .closeDev

/-- A table of devices that have been registered and not yet been opened. -/
def Unopened (table : Table DdOperations) : Prop :=
  ∀ index, (table index).useCnt = 0 ∧
    ((table index).state = .noDevice ∨ (table index).state = .closed)

/-- A device is closed only after it has been opened, and has fewer than `2 ^ 32` openings not yet
closed. -/
def Disciplined (tracked : Tracked) : Call → Prop
  | .openDev devName statusGiven answer =>
      ∀ index, (devices.step tracked (.openDev devName statusGiven answer)).1.opens index < 2 ^ 32
  | .closeDev handle =>
      ddevGetIdFromHandle handle ≠ ddIdUnvalid →
        0 < tracked.opens (ddevGetIdFromHandle handle).toNat

/-- A slot agrees with the openings of its device not yet closed. -/
def SlotAgrees (slot : DrvDev DdOperations) (opens : ℕ) : Prop :=
  opens = 0 ∧ slot.useCnt = 0 ∧ (slot.state = .noDevice ∨ slot.state = .closed) ∨
    0 < opens ∧ slot.useCnt.toNat = opens ∧ slot.state = .opened

/-- What one call does to a slot, to the openings of its device and to its driver. -/
inductive SlotChange (slot : DrvDev DdOperations) (opens : ℕ) :
    DrvDev DdOperations → ℕ → List Callback → Prop
  /-- The call reaches another slot, or none. -/
  | none : SlotChange slot opens slot opens []
  /-- The device is open already. -/
  | share (isOpen : slot.state = .opened) :
      SlotChange slot opens { slot with useCnt := slot.useCnt + 1 } (opens + 1) []
  | openDev (isClosed : slot.state = .closed) :
      SlotChange slot opens { slot with state := .opened, useCnt := 0 + 1 } (opens + 1)
        (if provides slot .openDev = true then [.openDev] else [])
  /-- The device stays open for others. -/
  | leave (used : 0 < opens) (shared : slot.useCnt - 1 ≠ 0) :
      SlotChange slot opens { slot with useCnt := slot.useCnt - 1 } (opens - 1) []
  | closeDev (used : 0 < opens) (last : slot.useCnt - 1 = 0) :
      SlotChange slot opens { slot with useCnt := slot.useCnt - 1, state := .closed } (opens - 1)
        (if provides slot .closeDev = true then [.closeDev] else [])

variable {tracked : Tracked} (index : ℕ)

theorem callbacksOf_append (front back : List (List (ℕ × Callback))) :
    callbacksOf index (front ++ back) = callbacksOf index front ++ callbacksOf index back := by
  simp [callbacksOf]

theorem callbacksOf_self (called : List Callback) :
    callbacksOf index [called.map fun callback => (index, callback)] = called := by
  simp [callbacksOf, List.filter_map, Function.comp_def]

theorem callbacksOf_other {index other : ℕ} (different : other ≠ index) (called : List Callback) :
    callbacksOf index [called.map fun callback => (other, callback)] = [] := by
  simp [callbacksOf, List.filter_map, Function.comp_def, different]

theorem slotChange_openSlot {slot after : DrvDev DdOperations} {answer status : UInt32}
    {called : List Callback} (opened : openSlot slot answer = some (after, status, called))
    (opens : ℕ) : SlotChange slot opens after (opens + 1) called := by
  rw [openSlot] at opened
  split at opened
  · rename_i isOpen
    obtain ⟨rfl, -, rfl⟩ := opened
    exact .share isOpen
  · rename_i isClosed
    obtain ⟨rfl, -, rfl⟩ := opened
    exact .openDev isClosed
  · cases opened

theorem slotChange_closeSlot (slot : DrvDev DdOperations) {opens : ℕ} (used : 0 < opens) :
    SlotChange slot opens (closeSlot slot).1 (opens - 1) (closeSlot slot).2 := by
  rw [closeSlot]
  split
  · rename_i last
    exact .closeDev used last
  · rename_i shared
    exact .leave used shared

theorem slotChange_open (tracked : Tracked) (devName : CString) (statusGiven : Bool)
    (answer : UInt32) (index : ℕ) :
    let next := devices.step tracked (.openDev devName statusGiven answer)
    SlotChange (tracked.table index) (tracked.opens index) (next.1.table index)
      (next.1.opens index) (callbacksOf index [next.2]) := by
  simp only [devices, ddevOpen]
  by_cases refused : statusGiven = false ∨ ddMaxNameLen < devName.strlen
  · rw [if_pos refused]
    exact .none
  rw [if_neg refused]
  cases search tracked.table devName 0 ddMaxDev with
  | nullName => exact .none
  | absent => exact .none
  | found reached =>
      cases opened : openSlot (tracked.table reached) answer with
      | none => simp only [opened]; exact .none
      | some result =>
          obtain ⟨after, status, called⟩ := result
          simp only [opened]
          by_cases same : reached = index
          · subst same
            simp only [Function.update_self, callbacksOf_self]
            exact slotChange_openSlot opened _
          · have other : index ≠ reached := fun equal => same equal.symm
            simp only [Function.update_of_ne other, callbacksOf_other same]
            exact .none

theorem slotChange_close {handle : UInt32} (disciplined : Disciplined tracked (.closeDev handle))
    (index : ℕ) : let next := devices.step tracked (.closeDev handle)
    SlotChange (tracked.table index) (tracked.opens index) (next.1.table index)
      (next.1.opens index) (callbacksOf index [next.2]) := by
  simp only [devices, ddevClose]
  by_cases invalid : ddevGetIdFromHandle handle = ddIdUnvalid
  · simp only [if_pos invalid]
    exact .none
  have used := disciplined invalid
  simp only [if_neg invalid]
  generalize (ddevGetIdFromHandle handle).toNat = reached at *
  by_cases same : reached = index
  · subst same
    simp only [Function.update_self, callbacksOf_self]
    exact slotChange_closeSlot _ used
  · have other : index ≠ reached := fun equal => same equal.symm
    simp only [Function.update_of_ne other, callbacksOf_other same]
    exact .none

section Change

variable {slot after : DrvDev DdOperations} {opens left : ℕ} {called : List Callback}

theorem SlotChange.provides_eq (change : SlotChange slot opens after left called) :
    provides after = provides slot := by
  cases change <;> rfl

theorem SlotChange.opens_le (change : SlotChange slot opens after left called) :
    left ≤ opens + 1 := by
  cases change <;> omega

theorem SlotChange.agrees (change : SlotChange slot opens after left called)
    (agrees : SlotAgrees slot opens) (few : left < 2 ^ 32) : SlotAgrees after left := by
  have one : (1 : UInt32).toNat = 1 := rfl
  cases change with
  | none => exact agrees
  | share isOpen =>
      rcases agrees with ⟨-, -, isNoDevice | isClosed⟩ | ⟨-, count, -⟩
      · rw [isNoDevice] at isOpen
        cases isOpen
      · rw [isClosed] at isOpen
        cases isOpen
      · refine Or.inr ⟨Nat.succ_pos opens, ?_, isOpen⟩
        rw [UInt32.toNat_add, count, one, Nat.mod_eq_of_lt few]
  | openDev isClosed =>
      rcases agrees with ⟨none_open, -, -⟩ | ⟨-, -, isOpen⟩
      · refine Or.inr ⟨Nat.succ_pos opens, ?_, rfl⟩
        rw [none_open]
        rfl
      · rw [isClosed] at isOpen
        cases isOpen
  | leave used shared =>
      rcases agrees with ⟨none_open, -, -⟩ | ⟨-, count, isOpen⟩
      · omega
      · have fewer : (slot.useCnt - 1).toNat = opens - 1 := by
          rw [UInt32.toNat_sub_of_le _ _ (UInt32.le_iff_toNat_le.mpr (by omega)), count, one]
        refine Or.inr ⟨?_, fewer, isOpen⟩
        rw [← fewer]
        exact Nat.pos_of_ne_zero fun zero => shared (UInt32.toNat_inj.mp zero)
  | closeDev used last =>
      rcases agrees with ⟨none_open, -, -⟩ | ⟨-, count, isOpen⟩
      · omega
      · have fewer : (slot.useCnt - 1).toNat = opens - 1 := by
          rw [UInt32.toNat_sub_of_le _ _ (UInt32.le_iff_toNat_le.mpr (by omega)), count, one]
        rw [last, UInt32.toNat_zero] at fewer
        exact Or.inl ⟨fewer.symm, last, Or.inr rfl⟩

/-- The calls of a device's driver so far are those of an alternation that the driver has a function
for, and the device is open when the alternation ends in an opening. -/
def Turns (slot : DrvDev DdOperations) (called : List Callback) : Prop :=
  ∃ count, called = (alternating count).filter (provides slot) ∧
    (¬Even count ↔ slot.state = .opened)

variable {count : ℕ}

theorem alternating_succ_of_even (even : Even count) :
    alternating (count + 1) = alternating count ++ [.openDev] := by
  simp [alternating, List.range_succ, even]

theorem alternating_succ_of_odd (odd : ¬Even count) :
    alternating (count + 1) = alternating count ++ [.closeDev] := by
  simp [alternating, List.range_succ, odd]

theorem filter_singleton_provides (slot : DrvDev DdOperations) (callback : Callback) :
    [callback].filter (provides slot) = if provides slot callback = true then [callback] else [] := by
  rw [List.filter_cons, List.filter_nil]

theorem SlotChange.turns (change : SlotChange slot opens after left called)
    (agrees : SlotAgrees slot opens) {earlier : List Callback} (turns : Turns slot earlier) :
    Turns after (earlier ++ called) := by
  obtain ⟨count, earlier_eq, parity⟩ := turns
  cases change with
  | none => exact ⟨count, by rw [List.append_nil, earlier_eq], parity⟩
  | share isOpen | leave used shared =>
      exact ⟨count, by rw [List.append_nil, earlier_eq]; rfl, parity⟩
  | openDev isClosed =>
      have even : Even count := by
        by_contra odd
        rw [parity.mp odd] at isClosed
        cases isClosed
      refine ⟨count + 1, ?_, ?_⟩
      · rw [alternating_succ_of_even even, List.filter_append, earlier_eq]
        exact congrArg _ (filter_singleton_provides slot .openDev).symm
      · simp [Nat.even_add_one, even]
  | closeDev used last =>
      have isOpen : slot.state = .opened := by
        rcases agrees with ⟨none_open, -, -⟩ | ⟨-, -, isOpen⟩
        · omega
        · exact isOpen
      have odd : ¬Even count := parity.mpr isOpen
      refine ⟨count + 1, ?_, ?_⟩
      · rw [alternating_succ_of_odd odd, List.filter_append, earlier_eq]
        exact congrArg _ (filter_singleton_provides slot .closeDev).symm
      · simp [Nat.even_add_one, odd]

end Change

/-- Every disciplined call changes each slot in one of the ways a call can, and keeps the openings
within the counter. -/
theorem slotChange_step {call : Call} (disciplined : Disciplined tracked call) {index : ℕ}
    (few : tracked.opens index < 2 ^ 32) : let next := devices.step tracked call
    SlotChange (tracked.table index) (tracked.opens index) (next.1.table index)
        (next.1.opens index) (callbacksOf index [next.2]) ∧
      next.1.opens index < 2 ^ 32 := by
  intro next
  cases call with
  | openDev devName statusGiven answer =>
      exact ⟨slotChange_open tracked devName statusGiven answer index, disciplined index⟩
  | closeDev handle =>
      have change := slotChange_close disciplined index
      refine ⟨change, ?_⟩
      have shrinks : next.1.opens index ≤ tracked.opens index := by
        simp only [next, devices]
        split
        · exact Nat.le_refl _
        · dsimp only
          by_cases same : index = (ddevGetIdFromHandle handle).toNat
          · rw [same, Function.update_self]
            omega
          · rw [Function.update_of_ne same]
      omega

/-- What holds of a slot and the calls of its driver along a disciplined run. -/
structure Follows (first slot : DrvDev DdOperations) (opens : ℕ) (called : List Callback) :
    Prop where
  same_driver : provides slot = provides first
  few : opens < 2 ^ 32
  agrees : SlotAgrees slot opens
  turns : Turns slot called

theorem follows_run {table : Table DdOperations} (unopened : Unopened table) {calls : List Call}
    (disciplined : devices.Always Disciplined ⟨table, fun _ => 0⟩ calls) (index : ℕ) :
    Follows (table index) ((devices.run ⟨table, fun _ => 0⟩ calls).table index)
      ((devices.run ⟨table, fun _ => 0⟩ calls).opens index)
      (callbacksOf index (devices.outputs ⟨table, fun _ => 0⟩ calls)) := by
  refine devices.history_induction Disciplined (fun _ outputs tracked =>
    Follows (table index) (tracked.table index) (tracked.opens index) (callbacksOf index outputs))
    ?_ ?_ disciplined
  · refine ⟨rfl, Nat.two_pow_pos 32, Or.inl ⟨rfl, unopened index⟩, 0, rfl, ?_⟩
    rcases (unopened index).2 with isNoDevice | isClosed
    · simp [isNoDevice]
    · simp [isClosed]
  · rintro inputs outputs tracked call ⟨same_driver, few, agrees, turns⟩ meets
    obtain ⟨change, still_few⟩ := slotChange_step meets few
    rw [callbacksOf_append]
    exact ⟨change.provides_eq.trans same_driver, still_few, change.agrees agrees still_few,
      change.turns agrees turns⟩

/-- For every sequence of openings and closings in which a device is closed only after it has been
opened and has fewer than `2 ^ 32` openings not yet closed: a device is open exactly when its use
count is positive, and its driver's functions are called in turns, an opening first; a driver that
lacks one of the two functions sees the turns of the other. -/
theorem ddev_open_close_in_turns {table : Table DdOperations} (unopened : Unopened table)
    {calls : List Call} (disciplined : devices.Always Disciplined ⟨table, fun _ => 0⟩ calls)
    (index : ℕ) :
    let after := (devices.run ⟨table, fun _ => 0⟩ calls).table index
    let called := callbacksOf index (devices.outputs ⟨table, fun _ => 0⟩ calls)
    (after.state = .opened ↔ 0 < after.useCnt) ∧
      (∃ count, called = (alternating count).filter (provides (table index))) ∧
      (provides (table index) .openDev = true → provides (table index) .closeDev = true →
        ∃ count, called = alternating count) := by
  intro after called
  obtain ⟨same_driver, few, agrees, count, called_eq, -⟩ := follows_run unopened disciplined index
  rw [same_driver] at called_eq
  refine ⟨?_, ⟨count, called_eq⟩, ?_⟩
  · rw [UInt32.lt_iff_toNat_lt, UInt32.toNat_zero]
    rcases agrees with ⟨-, unused, isNoDevice | isClosed⟩ | ⟨used, counted, isOpen⟩
    · simp [after, isNoDevice, unused]
    · simp [after, isClosed, unused]
    · exact iff_of_true isOpen (counted ▸ used)
  · intro opens closes
    refine ⟨count, called_eq.trans ?_⟩
    apply List.filter_eq_self.mpr
    intro callback _
    cases callback with
    | openDev => exact opens
    | closeDev => exact closes

/-! ### One device -/

/-- The name `i2c`. -/
def i2cName : CString where
  bytes := [105, 50, 99]
  noNul := by simp

/-- A table with one device in its first slot. -/
def oneDevice (op : DdOperations) : Table DdOperations :=
  Function.update (emptyTable DdOperations) 0
    { name := some i2cName, useCnt := 0, state := .closed, op := some op }

def pairedDriver : DdOperations :=
  { openDev := some 1, closeDev := some 2, readDev := none, writeDev := none, controlDev := none }

theorem unopened_oneDevice (op : DdOperations) : Unopened (oneDevice op) := by
  intro index
  by_cases first : index = 0
  · rw [first, oneDevice, Function.update_self]
    exact ⟨rfl, Or.inr rfl⟩
  · rw [oneDevice, Function.update_of_ne first]
    exact ⟨rfl, Or.inl rfl⟩

theorem search_first {Operations : Type} {table : Table Operations} {devName : CString}
    (registered : (table 0).name = some devName) (slots : ℕ) :
    search table devName 0 (slots + 1) = .found 0 := by
  have matches_self : nameMatches (table 0) devName = some true := by
    simp [nameMatches, registered, CString.strncmp]
  rw [search, matches_self]

/-- Opening an open device in the first slot over and over. -/
theorem run_openDev_first (tracked : Tracked) (count : ℕ)
    (registered : (tracked.table 0).name = some i2cName)
    (isOpen : (tracked.table 0).state = .opened) :
    ((devices.run tracked (List.replicate count (.openDev i2cName true 0))).table 0).state =
        .opened ∧
      ((devices.run tracked (List.replicate count (.openDev i2cName true 0))).table 0).useCnt =
        (tracked.table 0).useCnt + UInt32.ofNat count := by
  induction count generalizing tracked with
  | zero => exact ⟨isOpen, (UInt32.add_zero _).symm⟩
  | succ count induction =>
      have found : search tracked.table i2cName 0 ddMaxDev = .found 0 := search_first registered 9
      have short : ¬(true = false ∨ ddMaxNameLen < i2cName.strlen) := by decide
      have shared : openSlot (tracked.table 0) 0 =
          some ({ tracked.table 0 with useCnt := (tracked.table 0).useCnt + 1 }, drvFailure, []) := by
        simp only [openSlot, isOpen]
      have table_eq : (devices.step tracked (.openDev i2cName true 0)).1.table 0 =
          { tracked.table 0 with useCnt := (tracked.table 0).useCnt + 1 } := by
        simp only [devices, ddevOpen, if_neg short, found, shared, Function.update_self]
      rw [List.replicate_succ, Machine.run_cons]
      obtain ⟨still_open, counted⟩ := induction (devices.step tracked (.openDev i2cName true 0)).1
        (by rw [table_eq]; exact registered) (by rw [table_eq]; exact isOpen)
      refine ⟨still_open, ?_⟩
      rw [counted, table_eq, UInt32.ofNat_add, UInt32.add_assoc, UInt32.add_comm 1]
      rfl

def firstHandle : UInt32 := 0xA5A50000

/-- Two openings and two closings of one device call each function of its driver once. -/
theorem ddev_open_close_in_turns_i2c :
    let calls : List Call :=
      [.openDev i2cName true 0, .openDev i2cName true 0, .closeDev firstHandle,
        .closeDev firstHandle]
    let start : Tracked := ⟨oneDevice pairedDriver, fun _ => 0⟩
    devices.Always Disciplined start calls ∧
      (∃ count, callbacksOf 0 (devices.outputs start calls) = alternating count) ∧
      callbacksOf 0 (devices.outputs start calls) = [.openDev, .closeDev] := by
  intro calls start
  have once : ∀ index,
      (devices.step start (.openDev i2cName true 0)).1.opens index ≤ start.opens index + 1 :=
    fun index => (slotChange_open start i2cName true 0 index).opens_le
  have twice : ∀ index,
      (devices.step (devices.step start (.openDev i2cName true 0)).1
        (.openDev i2cName true 0)).1.opens index ≤
          (devices.step start (.openDev i2cName true 0)).1.opens index + 1 :=
    fun index => (slotChange_open _ i2cName true 0 index).opens_le
  have disciplined : devices.Always Disciplined start calls := by
    refine ⟨fun index => ?_, fun index => ?_, fun _ => by decide, fun _ => by decide, trivial⟩
    · have := once index
      simp only [start] at this ⊢
      omega
    · have := once index
      have := twice index
      simp only [start] at *
      omega
  exact ⟨disciplined, (ddev_open_close_in_turns (unopened_oneDevice pairedDriver) disciplined
    0).2.2 rfl rfl, by decide⟩

/-- A driver without a closing function sees two openings in a row, and after `2 ^ 32` openings an
open device has a use count of zero. -/
theorem ddev_open_twice_in_a_row :
    (¬∃ count, callbacksOf 0
        (devices.outputs ⟨oneDevice { pairedDriver with closeDev := none }, fun _ => 0⟩
          [.openDev i2cName true 0, .closeDev firstHandle, .openDev i2cName true 0]) =
        alternating count) ∧
      ((devices.run ⟨oneDevice pairedDriver, fun _ => 0⟩
          (List.replicate (2 ^ 32) (.openDev i2cName true 0))).table 0).state = .opened ∧
      ((devices.run ⟨oneDevice pairedDriver, fun _ => 0⟩
          (List.replicate (2 ^ 32) (.openDev i2cName true 0))).table 0).useCnt = 0 := by
  constructor
  · rintro ⟨count, turns⟩
    have twice : callbacksOf 0
        (devices.outputs ⟨oneDevice { pairedDriver with closeDev := none }, fun _ => 0⟩
          [.openDev i2cName true 0, .closeDev firstHandle, .openDev i2cName true 0]) =
        [.openDev, .openDev] := by decide
    rw [twice] at turns
    obtain rfl : count = 2 := by simpa [alternating] using (congrArg List.length turns).symm
    exact absurd turns (by decide)
  · obtain ⟨isOpen, counted⟩ := run_openDev_first
      (devices.step ⟨oneDevice pairedDriver, fun _ => 0⟩ (.openDev i2cName true 0)).1 (2 ^ 32 - 1)
      rfl rfl
    rw [show (2 ^ 32 : ℕ) = 2 ^ 32 - 1 + 1 by omega, List.replicate_succ, Machine.run_cons]
    exact ⟨isOpen, counted⟩

end BdkFreertos.DrvModel
