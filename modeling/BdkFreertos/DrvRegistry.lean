import BdkFreertos.DrvModel

/-!
# The driver tables as registries of names

What the two tables are for: a registry assigns to each name the device registered under it.  A
table behaves as its registry as long as every look-up meets the slot of its own name before a free
slot and before a longer name that begins with its own, and no name is registered twice.
-/

namespace BdkFreertos.DrvModel

/-! ## Registries -/

abbrev Registry (Operations : Type) := CString → Option Operations

/-- The two registries. -/
structure Registries where
  devs : Registry DdOperations
  sdevs : Registry SddOperations

/-- A call of the driver model. -/
inductive Request
  /-- `ddev_register_dev`. -/
  | registerDev (devName : CString) (optr : Option DdOperations)
  /-- `sddev_register_dev`. -/
  | registerSdev (devName : CString) (optr : Option SddOperations)
  /-- `ddev_unregister_dev`. -/
  | unregisterDev (devName : CString)
  /-- `sddev_unregister_dev`. -/
  | unregisterSdev (devName : CString)
  /-- `ddev_open`. -/
  | openDev (devName : CString) (answer : UInt32)
  /-- `sddev_control`. -/
  | controlSdev (devName : CString)

/-- What comes of a call. -/
inductive Reply
  | registered
  | removed
  | device (op : DdOperations)
  | simple (op : SddOperations)
  /-- The call has failed, by its return code or in an assertion. -/
  | failed
  /-- The call has gone through a null pointer. -/
  | fault
  deriving DecidableEq

/-- Enter a device into a registry. -/
def Registry.register {Operations : Type} (registry : Registry Operations) (devName : CString) :
    Option Operations → Registry Operations × Reply
  | none => (registry, .failed)
  | some op => (Function.update registry devName (some op), .registered)

/-- Take a device out of a registry. -/
def Registry.unregister {Operations : Type} (registry : Registry Operations)
    (devName : CString) : Registry Operations × Reply :=
  match registry devName with
  | none => (registry, .failed)
  | some _ => (Function.update registry devName none, .removed)

/-- The registries as a machine: every call is about the device registered under the whole name. -/
def registries : Machine Registries Request Reply where
  step state
    | .registerDev devName optr =>
        let (devs, reply) := state.devs.register devName optr
        ({ state with devs := devs }, reply)
    | .registerSdev devName optr =>
        let (sdevs, reply) := state.sdevs.register devName optr
        ({ state with sdevs := sdevs }, reply)
    | .unregisterDev devName =>
        let (devs, reply) := state.devs.unregister devName
        ({ state with devs := devs }, reply)
    | .unregisterSdev devName =>
        let (sdevs, reply) := state.sdevs.unregister devName
        ({ state with sdevs := sdevs }, reply)
    | .openDev devName _ => (state, ((state.devs devName).map Reply.device).getD .failed)
    | .controlSdev devName => (state, ((state.sdevs devName).map Reply.simple).getD .failed)

/-- Nothing is registered. -/
def Registries.empty : Registries where
  devs := fun _ => none
  sdevs := fun _ => none

/-! ## The tables under the same calls -/

/-- The two tables. -/
structure Tables where
  drvDevTbl : Table DdOperations
  drvSdevTbl : Table SddOperations

/-- The tables as `drv_model_init` leaves them. -/
def drvModelInit : Tables where
  drvDevTbl := emptyTable DdOperations
  drvSdevTbl := emptyTable SddOperations

/-- What comes of a call that does not return. -/
def Halt.reply : Halt → Reply
  | .nullName => .fault
  | .assertion => .failed

/-- A table and what comes of a call that returns it with a code. -/
def settle {Operations : Type} (table : Table Operations) (success : Reply) :
    Except Halt (Table Operations × UInt32) → Table Operations × Reply
  | .error halt => (table, halt.reply)
  | .ok (after, code) => (after, if code = drvSuccess then success else .failed)

/-- The tables driven by the calls of the driver model. -/
def drvModel : Machine Tables Request Reply where
  step tables
    | .registerDev devName optr =>
        let (table, reply) := settle tables.drvDevTbl .registered
          (ddevRegisterDev tables.drvDevTbl devName optr)
        ({ tables with drvDevTbl := table }, reply)
    | .registerSdev devName optr =>
        let (table, reply) := settle tables.drvSdevTbl .registered
          (sddevRegisterDev tables.drvSdevTbl devName optr)
        ({ tables with drvSdevTbl := table }, reply)
    | .unregisterDev devName =>
        let (table, reply) := settle tables.drvDevTbl .removed
          (ddevUnregisterDev tables.drvDevTbl devName)
        ({ tables with drvDevTbl := table }, reply)
    | .unregisterSdev devName =>
        let (table, reply) := settle tables.drvSdevTbl .removed
          (sddevUnregisterDev tables.drvSdevTbl devName)
        ({ tables with drvSdevTbl := table }, reply)
    | .openDev devName answer =>
        match ddevOpen tables.drvDevTbl devName true answer with
        | .error halt => (tables, halt.reply)
        | .ok opened =>
            let id := ddevGetIdFromHandle opened.handle
            ({ tables with drvDevTbl := opened.table },
              if id = ddIdUnvalid then .failed
              else ((opened.table id.toNat).op.map Reply.device).getD .failed)
    | .controlSdev devName =>
        match sddevControl tables.drvSdevTbl devName with
        | .error halt => (tables, halt.reply)
        | .ok (index, _) =>
            (tables, ((tables.drvSdevTbl index).op.map Reply.simple).getD .failed)

/-! ## Where the look-ups are right -/

section Lookups

variable {Operations : Type}

/-- A slot carries a name that does not begin with the wanted one. -/
def Passes (slot : DrvDev Operations) (devName : CString) : Prop :=
  ∃ name, slot.name = some name ∧ ¬devName.bytes <+: name.bytes

def Unregistered (size : ℕ) (table : Table Operations) (devName : CString) : Prop :=
  ∀ index < size, (table index).name ≠ some devName

/-- Within so many slots of a table, the first slot that is free or begins with the wanted name
carries that name; or there is no such slot, and the name is not registered. -/
def Clear (slots size : ℕ) (table : Table Operations) (devName : CString) : Prop :=
  (∃ index < slots, (table index).name = some devName ∧
      ∀ earlier < index, Passes (table earlier) devName) ∨
    (∀ index < slots, Passes (table index) devName) ∧ Unregistered size table devName

/-- The same for a look-up that refuses long names. -/
def ClearShort (slots size : ℕ) (table : Table Operations) (devName : CString) : Prop :=
  devName.strlen ≤ ddMaxNameLen ∧ Clear slots size table devName ∨
    ddMaxNameLen < devName.strlen ∧ Unregistered size table devName

/-- There is a free slot, and the name is not registered yet. -/
def Fresh (size : ℕ) (table : Table Operations) (devName : CString) : Prop :=
  (∃ index < size, (table index).name = none) ∧ Unregistered size table devName

variable {slot : DrvDev Operations} {devName : CString} {table : Table Operations} {slots index : ℕ}

theorem nameMatches_eq_false_iff : nameMatches slot devName = some false ↔ Passes slot devName := by
  have compared : ∀ name : CString, name.strncmp devName devName.strlen = false ↔
      ¬devName.bytes <+: name.bytes := by
    intro name
    rw [CString.strncmp, CString.strlen, List.take_length, decide_eq_false_iff_not,
      List.prefix_iff_eq_take]
    exact not_congr eq_comm
  rw [nameMatches, Passes]
  cases slot.name with
  | none =>
      dsimp only
      split <;> simp
  | some name => simp [compared]

theorem search_of_passes {start : ℕ}
    (passes : ∀ index < slots, Passes (table (start + index)) devName) (remaining : ℕ) :
    search table devName start (slots + remaining) =
      search table devName (start + slots) remaining := by
  induction slots generalizing start with
  | zero => rw [Nat.zero_add, Nat.add_zero]
  | succ slots induction =>
      have first : nameMatches (table start) devName = some false :=
        nameMatches_eq_false_iff.mpr (passes 0 (Nat.succ_pos slots))
      have rest : ∀ index < slots, Passes (table (start + 1 + index)) devName := by
        intro index inside
        rw [Nat.add_assoc, Nat.add_comm 1]
        exact passes (index + 1) (Nat.succ_lt_succ inside)
      rw [show slots + 1 + remaining = slots + remaining + 1 by omega, search, first]
      dsimp only
      rw [induction rest, Nat.add_assoc, Nat.add_comm 1]

theorem search_found (inside : index < slots) (registered : (table index).name = some devName)
    (passes : ∀ earlier < index, Passes (table earlier) devName) :
    search table devName 0 slots = .found index := by
  have skips : ∀ earlier < index, Passes (table (0 + earlier)) devName := by
    intro earlier before
    rw [Nat.zero_add]
    exact passes earlier before
  have matches_self : nameMatches (table index) devName = some true := by
    simp [nameMatches, registered, CString.strncmp]
  obtain ⟨remaining, rfl⟩ := Nat.exists_eq_add_of_lt inside
  rw [Nat.add_assoc, search_of_passes skips, Nat.zero_add, search, matches_self]

theorem search_absent (passes : ∀ index < slots, Passes (table index) devName) :
    search table devName 0 slots = .absent := by
  have skips : ∀ index < slots, Passes (table (0 + index)) devName := by
    intro index inside
    rw [Nat.zero_add]
    exact passes index inside
  have all := search_of_passes skips 0
  rw [Nat.add_zero] at all
  rw [all, search]

theorem freeSlot_of_free {table : Table Operations} {start remaining : ℕ}
    (free : ∃ index < remaining, (table (start + index)).name = none ∧
      (table (start + index)).state = .noDevice) :
    ∃ found, freeSlot table start remaining = some found ∧ found < start + remaining ∧
      (table found).name = none := by
  induction remaining generalizing start with
  | zero =>
      obtain ⟨index, inside, -⟩ := free
      exact absurd inside (Nat.not_lt_zero index)
  | succ remaining induction =>
      rw [freeSlot]
      by_cases first : (table start).name = none ∧ (table start).state = .noDevice
      · rw [if_pos first]
        exact ⟨start, rfl, by omega, first.1⟩
      · rw [if_neg first]
        obtain ⟨index, inside, is_free⟩ := free
        rcases index with _ | index
        · exact absurd is_free first
        · rw [show start + (index + 1) = start + 1 + index by omega] at is_free
          obtain ⟨found, found_eq, found_lt, found_free⟩ :=
            induction ⟨index, by omega, is_free⟩
          exact ⟨found, found_eq, by omega, found_free⟩

/-! ## A table represents a registry -/

/-- A slot is free, or carries a device of the registry under its name. -/
def SlotRepresents (slot : DrvDev Operations) (registry : Registry Operations) : Prop :=
  slot.name = none ∧ slot.state = .noDevice ∨
    ∃ name op, slot.name = some name ∧ slot.op = some op ∧ registry name = some op ∧
      (slot.state = .closed ∨ slot.state = .opened)

/-- The slots of a table carry the devices of a registry, each of them once. -/
structure Represents (size : ℕ) (table : Table Operations) (registry : Registry Operations) :
    Prop where
  slots : ∀ index < size, SlotRepresents (table index) registry
  complete : ∀ name op, registry name = some op → ∃ index < size, (table index).name = some name
  distinct : ∀ first < size, ∀ second < size, ∀ name, (table first).name = some name →
    (table second).name = some name → first = second

variable {size : ℕ} {table : Table Operations} {registry : Registry Operations}
  {devName : CString} {op : Operations}

theorem represents_empty (size : ℕ) :
    Represents size (emptyTable Operations) (fun _ => none) where
  slots := fun _ _ => Or.inl ⟨rfl, rfl⟩
  complete := by
    intro name op registered
    cases registered
  distinct := by
    intro first _ second _ name registered
    cases registered

theorem Represents.none_of_unregistered (represents : Represents size table registry)
    (unregistered : Unregistered size table devName) : registry devName = none := by
  cases registered : registry devName with
  | none => rfl
  | some op =>
      obtain ⟨index, inside, carries⟩ := represents.complete devName op registered
      exact absurd carries (unregistered index inside)

section

variable (represents : Represents size table registry) (inside : index < size)
include represents inside

theorem Represents.slot_of_name (carries : (table index).name = some devName) :
    ∃ op, (table index).op = some op ∧ registry devName = some op ∧
      ((table index).state = .closed ∨ (table index).state = .opened) := by
  rcases represents.slots index inside with
    ⟨is_free, -⟩ | ⟨name, op, carries', has_op, in_registry, state⟩
  · rw [is_free] at carries
    cases carries
  · obtain rfl : name = devName := Option.some.inj (carries'.symm.trans carries)
    exact ⟨op, has_op, in_registry, state⟩

/-- A device entered into a free slot is entered into the registry. -/
theorem Represents.register (is_free : (table index).name = none)
    (unregistered : Unregistered size table devName) (carries : slot.name = some devName)
    (has_op : slot.op = some op) (is_closed : slot.state = .closed) :
    Represents size (Function.update table index slot)
      (Function.update registry devName (some op)) := by
  have name_eq : ∀ other, (Function.update table index slot other).name =
      if other = index then some devName else (table other).name := by
    intro other
    by_cases same : other = index
    · rw [if_pos same, same, Function.update_self, carries]
    · rw [if_neg same, Function.update_of_ne same]
  constructor
  · intro other other_inside
    by_cases same : other = index
    · rw [same, Function.update_self]
      exact Or.inr ⟨devName, op, carries, has_op, Function.update_self .., Or.inl is_closed⟩
    · rw [Function.update_of_ne same]
      rcases represents.slots other other_inside with free | ⟨name, other_op, named, rest⟩
      · exact Or.inl free
      · have different : name ≠ devName := by
          rintro rfl
          exact unregistered other other_inside named
        refine Or.inr ⟨name, other_op, named, rest.1, ?_, rest.2.2⟩
        rw [Function.update_of_ne different]
        exact rest.2.1
  · intro name other_op registered
    by_cases same : name = devName
    · exact ⟨index, inside, by rw [name_eq, if_pos rfl, same]⟩
    · rw [Function.update_of_ne same] at registered
      obtain ⟨other, other_inside, named⟩ := represents.complete name other_op registered
      refine ⟨other, other_inside, ?_⟩
      have different : other ≠ index := by
        rintro rfl
        rw [is_free] at named
        cases named
      rw [name_eq, if_neg different, named]
  · intro first first_inside second second_inside name first_named second_named
    rw [name_eq] at first_named second_named
    split at first_named <;> split at second_named
    · omega
    · obtain rfl := Option.some.inj first_named
      exact absurd second_named (unregistered second second_inside)
    · obtain rfl := Option.some.inj second_named
      exact absurd first_named (unregistered first first_inside)
    · exact represents.distinct first first_inside second second_inside name first_named
        second_named

theorem Represents.unregister (carries : (table index).name = some devName)
    (is_free : slot.name = none) (no_device : slot.state = .noDevice) :
    Represents size (Function.update table index slot)
      (Function.update registry devName none) := by
  have name_eq : ∀ other, (Function.update table index slot other).name =
      if other = index then none else (table other).name := by
    intro other
    by_cases same : other = index
    · rw [if_pos same, same, Function.update_self, is_free]
    · rw [if_neg same, Function.update_of_ne same]
  constructor
  · intro other other_inside
    by_cases same : other = index
    · rw [same, Function.update_self]
      exact Or.inl ⟨is_free, no_device⟩
    · rw [Function.update_of_ne same]
      rcases represents.slots other other_inside with free | ⟨name, other_op, named, rest⟩
      · exact Or.inl free
      · have different : name ≠ devName := by
          rintro rfl
          exact same (represents.distinct other other_inside index inside name named carries)
        refine Or.inr ⟨name, other_op, named, rest.1, ?_, rest.2.2⟩
        rw [Function.update_of_ne different]
        exact rest.2.1
  · intro name other_op registered
    have different : name ≠ devName := by
      rintro rfl
      rw [Function.update_self] at registered
      cases registered
    rw [Function.update_of_ne different] at registered
    obtain ⟨other, other_inside, named⟩ := represents.complete name other_op registered
    have apart : other ≠ index := by
      rintro rfl
      exact different (Option.some.inj (named.symm.trans carries))
    exact ⟨other, other_inside, by rw [name_eq, if_neg apart, named]⟩
  · intro first first_inside second second_inside name first_named second_named
    rw [name_eq] at first_named second_named
    split at first_named
    · cases first_named
    · split at second_named
      · cases second_named
      · exact represents.distinct first first_inside second second_inside name first_named
          second_named

theorem Represents.update_state (carries : (table index).name = some devName)
    (same_name : slot.name = (table index).name) (same_op : slot.op = (table index).op)
    (is_open : slot.state = .opened) :
    Represents size (Function.update table index slot) registry := by
  have name_eq : ∀ other, (Function.update table index slot other).name = (table other).name := by
    intro other
    by_cases same : other = index
    · rw [same, Function.update_self, same_name]
    · rw [Function.update_of_ne same]
  constructor
  · intro other other_inside
    by_cases same : other = index
    · obtain ⟨op, has_op, in_registry, -⟩ := represents.slot_of_name inside carries
      rw [same, Function.update_self]
      exact Or.inr ⟨devName, op, same_name.trans carries, same_op.trans has_op, in_registry,
        Or.inr is_open⟩
    · rw [Function.update_of_ne same]
      exact represents.slots other other_inside
  · intro name other_op registered
    obtain ⟨other, other_inside, named⟩ := represents.complete name other_op registered
    exact ⟨other, other_inside, by rw [name_eq, named]⟩
  · intro first first_inside second second_inside name first_named second_named
    rw [name_eq] at first_named second_named
    exact represents.distinct first first_inside second second_inside name first_named second_named

end

/-! ## The calls on one table -/

theorem registerDev_matched (represents : Represents size table registry) (optr : Option Operations)
    (fresh : optr.isSome = true → Fresh size table devName) :
    let after := settle table .registered (registerDev size table devName optr)
    Represents size after.1 (registry.register devName optr).1 ∧
      after.2 = (registry.register devName optr).2 := by
  cases optr with
  | none => exact ⟨represents, rfl⟩
  | some op =>
      obtain ⟨⟨index, inside, is_free⟩, unregistered⟩ := fresh rfl
      have no_device : (table index).state = .noDevice := by
        rcases represents.slots index inside with ⟨-, no_device⟩ | ⟨name, _, named, -⟩
        · exact no_device
        · rw [is_free] at named
          cases named
      obtain ⟨found, found_eq, found_lt, found_free⟩ :=
        @freeSlot_of_free _ table 0 size
          ⟨index, inside, by rw [Nat.zero_add]; exact ⟨is_free, no_device⟩⟩
      rw [Nat.zero_add] at found_lt
      simp only [registerDev, found_eq, settle]
      exact ⟨represents.register found_lt found_free unregistered rfl rfl rfl, rfl⟩

theorem unregisterDev_matched (represents : Represents size table registry) (fewer : slots ≤ size)
    (clear : ClearShort slots size table devName) :
    let after := settle table .removed (unregisterDev slots table devName)
    Represents size after.1 (registry.unregister devName).1 ∧
      after.2 = (registry.unregister devName).2 := by
  rcases clear with ⟨short, ⟨index, inside, carries, passes⟩ | ⟨passes, unregistered⟩⟩ |
    ⟨long, unregistered⟩
  · obtain ⟨op, -, in_registry, -⟩ :=
      represents.slot_of_name (Nat.lt_of_lt_of_le inside fewer) carries
    simp only [unregisterDev, if_neg (Nat.not_lt.mpr short), search_found inside carries passes,
      settle, Registry.unregister, in_registry]
    exact ⟨represents.unregister (Nat.lt_of_lt_of_le inside fewer) carries rfl rfl, rfl⟩
  · simp only [unregisterDev, if_neg (Nat.not_lt.mpr short), search_absent passes, settle,
      Registry.unregister, represents.none_of_unregistered unregistered, Halt.reply]
    exact ⟨represents, trivial⟩
  · simp only [unregisterDev, if_pos long, settle, Registry.unregister,
      represents.none_of_unregistered unregistered]
    exact ⟨represents, rfl⟩

end Lookups

theorem ddevGetIdFromHandle_ddevMakeHandle {index : ℕ} (inside : index < ddMaxDev) :
    (ddevGetIdFromHandle (ddevMakeHandle index)).toNat = index ∧
      ddevGetIdFromHandle (ddevMakeHandle index) ≠ ddIdUnvalid := by
  have every : ∀ slot : Fin ddMaxDev, (ddevGetIdFromHandle (ddevMakeHandle slot)).toNat = slot ∧
      ddevGetIdFromHandle (ddevMakeHandle slot) ≠ ddIdUnvalid := by decide
  exact every ⟨index, inside⟩

theorem openSlot_of_registered {slot : DrvDev DdOperations} (answer : UInt32)
    (state : slot.state = .closed ∨ slot.state = .opened) :
    ∃ after status called, openSlot slot answer = some (after, status, called) ∧
      after.name = slot.name ∧ after.op = slot.op ∧ after.state = .opened := by
  rcases state with is_closed | is_open
  · refine ⟨{ slot with state := .opened, useCnt := 0 + 1 },
      if provides slot .openDev = true then answer else drvFailure,
      if provides slot .openDev = true then [.openDev] else [], ?_, rfl, rfl, rfl⟩
    simp [openSlot, is_closed]
  · refine ⟨{ slot with useCnt := slot.useCnt + 1 }, drvFailure, [], ?_, rfl, rfl, is_open⟩
    simp [openSlot, is_open]

/-- What a call has to meet in the tables. -/
def Unobstructed (tables : Tables) : Request → Prop
  | .registerDev devName optr => optr.isSome = true → Fresh ddMaxDev tables.drvDevTbl devName
  | .registerSdev devName optr => optr.isSome = true → Fresh ddMaxSdev tables.drvSdevTbl devName
  | .unregisterDev devName => ClearShort ddMaxDev ddMaxDev tables.drvDevTbl devName
  | .unregisterSdev devName => ClearShort ddMaxDev ddMaxSdev tables.drvSdevTbl devName
  | .openDev devName _ => ClearShort ddMaxDev ddMaxDev tables.drvDevTbl devName
  | .controlSdev devName => Clear ddMaxSdev ddMaxSdev tables.drvSdevTbl devName

/-- The two tables represent the two registries. -/
def TablesRepresent (tables : Tables) (state : Registries) : Prop :=
  Represents ddMaxDev tables.drvDevTbl state.devs ∧
    Represents ddMaxSdev tables.drvSdevTbl state.sdevs

variable {state : Registries} {tables : Tables} {devName : CString}

/-- An opening reaches the device registered under the name. -/
theorem openDev_matched (represent : TablesRepresent tables state) (answer : UInt32)
    (clear : ClearShort ddMaxDev ddMaxDev tables.drvDevTbl devName) :
    TablesRepresent (drvModel.step tables (.openDev devName answer)).1 state ∧
      (drvModel.step tables (.openDev devName answer)).2 =
        ((state.devs devName).map Reply.device).getD .failed := by
  obtain ⟨devs, sdevs⟩ := represent
  rcases clear with ⟨short, ⟨index, inside, carries, passes⟩ | ⟨passes, unregistered⟩⟩ |
    ⟨long, unregistered⟩
  · obtain ⟨op, has_op, in_registry, in_use⟩ := devs.slot_of_name inside carries
    obtain ⟨after, status, called, opened, same_name, same_op, is_open⟩ :=
      openSlot_of_registered answer in_use
    obtain ⟨id_eq, id_valid⟩ := ddevGetIdFromHandle_ddevMakeHandle inside
    have accepted : ¬(true = false ∨ ddMaxNameLen < devName.strlen) := by
      rintro (missing | long)
      · cases missing
      · omega
    simp only [drvModel, ddevOpen, if_neg accepted, search_found inside carries passes, opened,
      if_neg id_valid, id_eq, Function.update_self, same_op, has_op, in_registry]
    exact ⟨⟨devs.update_state inside carries same_name same_op is_open, sdevs⟩, trivial⟩
  · have accepted : ¬(true = false ∨ ddMaxNameLen < devName.strlen) := by
      rintro (missing | long)
      · cases missing
      · omega
    simp only [drvModel, ddevOpen, if_neg accepted, search_absent passes, Halt.reply,
      devs.none_of_unregistered unregistered]
    exact ⟨⟨devs, sdevs⟩, rfl⟩
  · have refused : true = false ∨ ddMaxNameLen < devName.strlen := Or.inr long
    have invalid : ddevGetIdFromHandle ddHandleUnvalid = ddIdUnvalid := by decide
    simp only [drvModel, ddevOpen, if_pos refused, invalid, if_pos,
      devs.none_of_unregistered unregistered]
    exact ⟨⟨devs, sdevs⟩, rfl⟩

theorem controlSdev_matched (represent : TablesRepresent tables state)
    (clear : Clear ddMaxSdev ddMaxSdev tables.drvSdevTbl devName) :
    TablesRepresent (drvModel.step tables (.controlSdev devName)).1 state ∧
      (drvModel.step tables (.controlSdev devName)).2 =
        ((state.sdevs devName).map Reply.simple).getD .failed := by
  obtain ⟨devs, sdevs⟩ := represent
  rcases clear with ⟨index, inside, carries, passes⟩ | ⟨passes, unregistered⟩
  · obtain ⟨op, has_op, in_registry, -⟩ := sdevs.slot_of_name inside carries
    simp only [drvModel, sddevControl, search_found inside carries passes, has_op, in_registry]
    exact ⟨⟨devs, sdevs⟩, trivial⟩
  · simp only [drvModel, sddevControl, search_absent passes, Halt.reply,
      sdevs.none_of_unregistered unregistered]
    exact ⟨⟨devs, sdevs⟩, rfl⟩

theorem drvModel_step_matched (request : Request) (represent : TablesRepresent tables state)
    (unobstructed : Unobstructed tables request) :
    TablesRepresent (drvModel.step tables request).1 (registries.step state request).1 ∧
      (drvModel.step tables request).2 = (registries.step state request).2 := by
  have ⟨devs, sdevs⟩ := represent
  cases request with
  | registerDev devName optr =>
      obtain ⟨after, reply⟩ := registerDev_matched devs optr unobstructed
      exact ⟨⟨after, sdevs⟩, reply⟩
  | registerSdev devName optr =>
      obtain ⟨after, reply⟩ := registerDev_matched sdevs optr unobstructed
      exact ⟨⟨devs, after⟩, reply⟩
  | unregisterDev devName =>
      obtain ⟨after, reply⟩ := unregisterDev_matched devs (Nat.le_refl ddMaxDev) unobstructed
      exact ⟨⟨after, sdevs⟩, reply⟩
  | unregisterSdev devName =>
      have fewer : ddMaxDev ≤ ddMaxSdev := by decide
      obtain ⟨after, reply⟩ := unregisterDev_matched sdevs fewer unobstructed
      exact ⟨⟨devs, after⟩, reply⟩
  | openDev devName answer => exact openDev_matched represent answer unobstructed
  | controlSdev devName => exact controlSdev_matched represent unobstructed

/-- In every run whose calls meet their condition, every call is about the device registered under
its whole name, and the tables hold the registered devices. -/
theorem drv_model_refines_registries {requests : List Request}
    (unobstructed : drvModel.Always Unobstructed drvModelInit requests) :
    drvModel.outputs drvModelInit requests = registries.outputs .empty requests ∧
      TablesRepresent (drvModel.run drvModelInit requests)
        (registries.run .empty requests) := by
  have initial : TablesRepresent drvModelInit .empty :=
    ⟨represents_empty ddMaxDev, represents_empty ddMaxSdev⟩
  obtain ⟨represent, replies⟩ := drvModel.run_simulation_of_always registries Unobstructed
    TablesRepresent id id drvModel_step_matched initial unobstructed
  rw [List.map_id, List.map_id] at replies
  rw [List.map_id] at represent
  exact ⟨replies, represent⟩

/-- Registering a device and opening it. -/
theorem drv_model_refines_registries_i2c :
    drvModel.outputs drvModelInit [.registerDev i2cName (some pairedDriver), .openDev i2cName 0] =
      [.registered, .device pairedDriver] := by
  have unobstructed : drvModel.Always Unobstructed drvModelInit
      [.registerDev i2cName (some pairedDriver), .openDev i2cName 0] := by
    refine ⟨fun _ => ⟨⟨0, by decide, rfl⟩, ?_⟩, Or.inl ⟨by decide, Or.inl ?_⟩, trivial⟩
    · intro index _ registered
      cases registered
    · exact ⟨0, by decide, rfl, fun earlier before => absurd before (Nat.not_lt_zero earlier)⟩
  rw [(drv_model_refines_registries unobstructed).1]
  decide

/-- The name `i2c2`. -/
def i2c2Name : CString where
  bytes := [105, 50, 99, 50]
  noNul := by simp

/-- A name that is not registered reaches the device registered under a longer one; and behind a
slot that has been given up a registered name is not found any more. -/
theorem drv_model_finds_other_device :
    (drvModel.outputs drvModelInit
        [.registerDev i2c2Name (some pairedDriver), .openDev i2cName 0] =
      [.registered, .device pairedDriver] ∧
      registries.outputs .empty
        [.registerDev i2c2Name (some pairedDriver), .openDev i2cName 0] =
      [.registered, .failed]) ∧
    drvModel.outputs drvModelInit
        [.registerSdev i2cName (some ⟨some 1⟩), .registerSdev i2c2Name (some ⟨some 2⟩),
          .unregisterSdev i2cName, .controlSdev i2c2Name] =
      [.registered, .registered, .removed, .fault] ∧
    registries.outputs .empty
        [.registerSdev i2cName (some ⟨some 1⟩), .registerSdev i2c2Name (some ⟨some 2⟩),
          .unregisterSdev i2cName, .controlSdev i2c2Name] =
      [.registered, .registered, .removed, .simple ⟨some 2⟩] := by
  refine ⟨⟨?_, ?_⟩, ?_, ?_⟩
  · decide
  · decide
  · decide
  · decide

end BdkFreertos.DrvModel
