import BdkFreertos.Sdp

/-!
# The tables of a service that was found

A service is reported as an array with one entry for each handle behind that of the service.  The
array is walked twice: the characteristics and descriptors are counted to allocate the two tables,
and then the tables are filled.
-/

namespace BdkFreertos.Sdp

/-- `GATTC_SDP_INC_SVC`, an included service. -/
def gattcSdpIncSvc : UInt8 := 1

/-- `GATTC_SDP_ATT_CHAR`, the declaration of a characteristic. -/
def gattcSdpAttChar : UInt8 := 2

/-- `GATTC_SDP_ATT_DESC`, a descriptor. -/
def gattcSdpAttDesc : UInt8 := 4

/-- `SDP_NB_CHAR_INSTANCES_MAX` and `SDP_NB_DESC_INSTANCES_MAX`. -/
def sdpNbInstancesMax : UInt8 := 20

/-- `ATT_UUID_128_LEN`. -/
def attUuid128Len : ℕ := 16

/-- An entry, `union gattc_sdp_att_info`: the bytes behind the first one are read as the fields of a
declaration or of an attribute. -/
structure AttInfo where
  attType : UInt8
  second : UInt8
  rest : List UInt8

namespace AttInfo

/-- `att_char.prop`. -/
def prop (att : AttInfo) : UInt8 := att.second

/-- `att_char.handle`. -/
def handle (att : AttInfo) : UInt16 :=
  (att.rest.getD 0 0).toUInt16 + 256 * (att.rest.getD 1 0).toUInt16

/-- `att.uuid_len`. -/
def uuidLen (att : AttInfo) : UInt8 := att.second

/-- The bytes of `att.uuid` that are copied. -/
def uuid (att : AttInfo) : List UInt8 := att.rest.take att.uuidLen.toNat

def stops (att : AttInfo) : Bool :=
  att.attType == gattcSdpAttChar || att.attType == gattcSdpIncSvc

end AttInfo

/-- The indication, `struct gattc_sdp_svc_ind`. -/
structure SvcInd where
  uuid : List UInt8
  startHdl : UInt16
  endHdl : UInt16
  info : List AttInfo
  length_eq : info.length = endHdl.toNat - startHdl.toNat

/-- Why the function does not return. -/
inductive Stop
  /-- The rounds that are looked at are not enough. -/
  | outOfFuel
  /-- `info` is read behind its end. -/
  | readsOutside (i : ℕ)
  | storesOutside
  | uuidTooLong
  deriving DecidableEq

namespace SvcInd

variable (ind : SvcInd)

def range : ℕ := ind.endHdl.toNat - ind.startHdl.toNat

/-- Read `info[fnd_att]`. -/
def read (fndAtt : UInt8) : Except Stop AttInfo :=
  match ind.info[fndAtt.toNat]? with
  | some att => .ok att
  | none => .error (.readsOutside fndAtt.toNat)

def inRange (i : ℕ) (att : AttInfo) : Bool :=
  att.handle.toNat ≤ ind.endHdl.toNat && ind.startHdl.toNat + i < att.handle.toNat

/-- The entry declares a characteristic with a value handle in the range. -/
def declares (i : ℕ) (att : AttInfo) : Bool :=
  att.attType == gattcSdpAttChar && ind.inRange i att

end SvcInd

/-- What a pass does at the entries it is interested in. -/
structure Visitor (State : Type) where
  char : UInt8 → AttInfo → State → Except Stop State
  desc : UInt8 → AttInfo → State → Except Stop State
  /-- The walk behind a characteristic has ended. -/
  leave : UInt8 → UInt8 → State → State

namespace SvcInd

variable (ind : SvcInd) {State : Type} (visitor : Visitor State)

/-- The inner loop, from a characteristic to the entry that ends it. -/
def walk : ℕ → UInt8 → State → Except Stop (UInt8 × State)
  | 0, _, _ => .error .outOfFuel
  | fuel + 1, fndAtt, state => do
      let fndAtt := fndAtt + 1
      let att ← ind.read fndAtt
      let state ←
        if att.attType = gattcSdpAttDesc then visitor.desc fndAtt att state else pure state
      if ind.startHdl.toNat + 1 + fndAtt.toNat ≤ ind.endHdl.toNat ∧ att.stops = false then
        walk fuel fndAtt state
      else
        pure (fndAtt - 1, state)

/-- The outer loop.  The loop of `svc_char` is left in its first round. -/
def scan : ℕ → UInt8 → State → Except Stop State
  | 0, _, _ => .error .outOfFuel
  | fuel + 1, fndAtt, state =>
      if fndAtt.toNat < ind.range then do
        let att ← ind.read fndAtt
        if ind.declares fndAtt.toNat att then do
          let state ← visitor.char fndAtt att state
          let (last, state) ← ind.walk visitor fuel fndAtt state
          scan fuel (last + 1) (visitor.leave fndAtt last state)
        else
          scan fuel (fndAtt + 1) state
      else
        pure state

end SvcInd

/-! ### The two passes -/

/-- `svc_char_cnt` and `svc_desc_cnt`. -/
structure Counts where
  svcCharCnt : UInt8
  svcDescCnt : UInt8
  deriving DecidableEq

/-- The first pass counts modulo the sizes. -/
def countPass : Visitor Counts where
  char _ _ counts := .ok { counts with svcCharCnt := (counts.svcCharCnt + 1) % sdpNbInstancesMax }
  desc _ _ counts := .ok { counts with svcDescCnt := (counts.svcDescCnt + 1) % sdpNbInstancesMax }
  leave _ _ counts := counts

/-- The tables as far as they are filled. -/
structure Tables where
  chars : List PrfCharInf
  descs : List PrfCharDescInf

def copyUuid (att : AttInfo) : Except Stop (List UInt8) :=
  if att.uuidLen.toNat ≤ attUuid128Len then .ok att.uuid else .error .uuidTooLong

/-- Store a characteristic. -/
def storeChar (ind : SvcInd) (charsMax : ℕ) (fndAtt : UInt8) (att : AttInfo) (tables : Tables) :
    Except Stop Tables := do
  let valIdx := (att.handle - ind.startHdl - 1).toUInt8
  let val ← ind.read valIdx
  if tables.chars.length < charsMax then do
    let uuid ← copyUuid val
    pure { tables with
      chars := tables.chars ++
        [⟨uuid, ind.startHdl + 1 + fndAtt.toUInt16, att.handle, att.prop, 0⟩] }
  else
    .error .storesOutside

/-- Store a descriptor. -/
def storeDesc (ind : SvcInd) (descsMax : ℕ) (fndAtt : UInt8) (att : AttInfo) (tables : Tables) :
    Except Stop Tables := do
  if tables.descs.length < descsMax then do
    let uuid ← copyUuid att
    pure { tables with
      descs := tables.descs ++
        [⟨uuid, .ofNat (tables.chars.length - 1), ind.startHdl + 1 + fndAtt.toUInt16⟩] }
  else
    .error .storesOutside

/-- The second pass stores.  It stores a descriptor for each round of the loop of `svc_desc` that
meets `svc_char`, which is zero. -/
def fillPass (ind : SvcInd) (charsMax descsMax : ℕ) : Visitor Tables where
  char := storeChar ind charsMax
  desc fndAtt att tables :=
    (List.range ind.range).foldlM (fun tables svcDesc =>
      if svcDesc = 0 then storeDesc ind descsMax fndAtt att tables else pure tables) tables
  leave charIdx fndAtt tables :=
    { tables with
      chars := tables.chars.modify (tables.chars.length - 1) fun char =>
        { char with charEhdlOff := fndAtt - charIdx } }

/-- What the memory and the table of environments decide. -/
structure Memory where
  /-- `kernel_check_malloc`. -/
  checkMalloc : ℕ → Bool
  /-- `sdp_env_init.used_status` is `FREE_STATUS`. -/
  free : ℕ → Bool
  /-- The table of characteristics was allocated, and that of descriptors. -/
  chars : Bool
  descs : Bool

/-- `sdp_service_free_env_find`. -/
def sdpServiceFreeEnvFind (memory : Memory) : Option ℕ :=
  (List.range bleNbProfilesAddMax).find? memory.free

/-- The sizes of `struct prf_char_inf` and of `struct prf_char_desc_inf`. -/
def sizeofPrfCharInf : ℕ := 24

def sizeofPrfCharDescInf : ℕ := 20

/-- `sdp_extract_svc_info`: the environment that is used and its contents, or nothing when there is
no room. -/
def sdpExtractSvcInfo (fuel : ℕ) (ind : SvcInd) (memory : Memory) :
    Except Stop (Option (ℕ × SdpContent)) := do
  let counts ← ind.scan countPass fuel 0 ⟨0, 0⟩
  let mallocSize := sizeofPrfCharInf * counts.svcCharCnt.toNat +
    sizeofPrfCharDescInf * counts.svcDescCnt.toNat
  if memory.checkMalloc mallocSize then
    match sdpServiceFreeEnvFind memory with
    | none => pure none
    | some freeEnvIdx =>
        let charsMax := if memory.chars then counts.svcCharCnt.toNat else 0
        let descsMax := if memory.descs then counts.svcDescCnt.toNat else 0
        let tables ← ind.scan (fillPass ind charsMax descsMax) fuel 0 ⟨[], []⟩
        pure (some (freeEnvIdx,
          ⟨ind.startHdl, ind.endHdl, ind.uuid, tables.chars, tables.descs, 0⟩))
  else
    pure none

/-! ### What the tables should list -/

/-- What a characteristic is stored for. -/
structure Listed where
  uuid : List UInt8
  charHdl : UInt16
  valHdl : UInt16
  prop : UInt8
  deriving DecidableEq

def PrfCharInf.listed (char : PrfCharInf) : Listed :=
  ⟨char.uuid, char.charHdl, char.valHdl, char.prop⟩

namespace SvcInd

variable (ind : SvcInd)

/-- A characteristic with a value handle in the range is declared here. -/
def CharAt (i : ℕ) : Prop := ∃ att, ind.info[i]? = some att ∧ ind.declares i att = true

/-- A characteristic is declared or a service included here. -/
def StopsAt (i : ℕ) : Prop := ∃ att, ind.info[i]? = some att ∧ att.stops = true

def DescAt (i : ℕ) : Prop := ∃ att, ind.info[i]? = some att ∧ att.attType = gattcSdpAttDesc

/-- What comes last before of declarations and included services is a characteristic with a value
handle in the range. -/
def Owned (i : ℕ) : Prop := ∃ c < i, ind.CharAt c ∧ ∀ m < i, c < m → ¬ind.StopsAt m

instance decidableAt (good : AttInfo → Prop) [DecidablePred good] (i : ℕ) :
    Decidable (∃ att, ind.info[i]? = some att ∧ good att) :=
  match here : ind.info[i]? with
  | none => isFalse (by simp)
  | some att => decidable_of_iff (good att) (by simp)

instance (i : ℕ) : Decidable (ind.CharAt i) := ind.decidableAt _ i

instance (i : ℕ) : Decidable (ind.StopsAt i) := ind.decidableAt _ i

instance (i : ℕ) : Decidable (ind.DescAt i) := ind.decidableAt _ i

instance (i : ℕ) : Decidable (ind.Owned i) := by
  unfold Owned
  infer_instance

def valIdx (att : AttInfo) : ℕ := att.handle.toNat - ind.startHdl.toNat - 1

def hdl (i : ℕ) : UInt16 := .ofNat (ind.startHdl.toNat + 1 + i)

/-- The characteristic of an entry. -/
def listedChar (i : ℕ) : Option Listed := do
  let att ← ind.info[i]?
  if ind.declares i att then do
    let val ← ind.info[ind.valIdx att]?
    some ⟨val.uuid, ind.hdl i, att.handle, att.prop⟩
  else none

/-- The characteristics of the entries before a place, by their handles. -/
def listedChars (i : ℕ) : List Listed := (List.range i).filterMap ind.listedChar

/-- The descriptor of an entry, with the index of the last characteristic before. -/
def listedDesc (i : ℕ) : Option PrfCharDescInf := do
  let att ← ind.info[i]?
  if att.attType = gattcSdpAttDesc ∧ ind.Owned i then
    some ⟨att.uuid, .ofNat ((ind.listedChars i).length - 1), ind.hdl i⟩
  else none

def listedDescs (i : ℕ) : List PrfCharDescInf :=
  (List.range i).filterMap ind.listedDesc

end SvcInd

/-! ### The loops -/

namespace SvcInd

variable {ind : SvcInd}

variable {i : ℕ} {att : AttInfo}

theorem read_eq_ok {i : UInt8} : ind.read i = .ok att ↔ ind.info[i.toNat]? = some att := by
  rw [read]
  split
  · rename_i found found_eq
    rw [found_eq, Except.ok.injEq, Option.some.injEq]
  · rename_i none_eq
    rw [none_eq]
    exact iff_of_false nofun nofun

theorem lt_range (here : ind.info[i]? = some att) : i < ind.range := by
  rw [range, ← ind.length_eq]
  exact (List.getElem?_eq_some_iff.mp here).1

theorem exists_att (inside : i < ind.range) : ∃ att, ind.info[i]? = some att := by
  rw [range, ← ind.length_eq] at inside
  exact ⟨_, List.getElem?_eq_getElem inside⟩

theorem at_iff {good : AttInfo → Prop} (here : ind.info[i]? = some att) :
    (∃ other, ind.info[i]? = some other ∧ good other) ↔ good att := by
  rw [here]
  simp

theorem stops_of_declares (declared : ind.declares i att = true) : att.stops = true := by
  rw [declares, Bool.and_eq_true] at declared
  rw [AttInfo.stops, declared.1, Bool.true_or]

theorem CharAt.stopsAt (char : ind.CharAt i) : ind.StopsAt i := by
  obtain ⟨att, here, declared⟩ := char
  exact ⟨att, here, stops_of_declares declared⟩

theorem DescAt.not_stopsAt (desc : ind.DescAt i) : ¬ind.StopsAt i := by
  rintro ⟨att, here, stops⟩
  have type_eq : att.attType = gattcSdpAttDesc := (at_iff here).mp desc
  rw [AttInfo.stops, type_eq] at stops
  exact absurd stops (by decide)

theorem owned_succ_of_char (char : ind.CharAt i) : ind.Owned (i + 1) :=
  ⟨i, Nat.lt_succ_self i, char, fun _ before behind =>
    absurd (Nat.lt_of_lt_of_le behind (Nat.le_of_lt_succ before)) (Nat.lt_irrefl i)⟩

/-- What an entry belongs to, the next one belongs to unless a declaration or an included service
comes between. -/
theorem owned_succ_iff (noChar : ¬ind.CharAt i) :
    ind.Owned (i + 1) ↔ ind.Owned i ∧ ¬ind.StopsAt i := by
  constructor
  · rintro ⟨c, before, char, quiet⟩
    have earlier : c < i := by
      rcases Nat.lt_or_eq_of_le (Nat.le_of_lt_succ before) with earlier | rfl
      · exact earlier
      · exact absurd char noChar
    exact ⟨⟨c, earlier, char, fun m inside => quiet m (Nat.lt_succ_of_lt inside)⟩,
      quiet i (Nat.lt_succ_self i) earlier⟩
  · rintro ⟨⟨c, earlier, char, quiet⟩, goesOn⟩
    refine ⟨c, Nat.lt_succ_of_lt earlier, char, fun m inside behind => ?_⟩
    rcases Nat.lt_or_eq_of_le (Nat.le_of_lt_succ inside) with inside | rfl
    · exact quiet m inside behind
    · exact goesOn

theorem bind_eq_ok {α β : Type} {first : Except Stop α} {next : α → Except Stop β} {result : β} :
    (first >>= next) = .ok result ↔ ∃ value, first = .ok value ∧ next value = .ok result := by
  cases first with
  | error stop => exact iff_of_false nofun nofun
  | ok value => simp [bind, Except.bind]

/-- What a pass keeps: what it has done at the entries before a place. -/
structure Keeps (ind : SvcInd) {State : Type} (visitor : Visitor State) (done : ℕ → State → Prop) :
    Prop where
  char : ∀ {i : UInt8} {att : AttInfo} {state next : State}, ind.info[i.toNat]? = some att →
    ind.declares i.toNat att = true → done i.toNat state → visitor.char i att state = .ok next →
      done (i.toNat + 1) next
  desc : ∀ {i : UInt8} {att : AttInfo} {state next : State}, ind.info[i.toNat]? = some att →
    att.attType = gattcSdpAttDesc → ind.Owned i.toNat → done i.toNat state →
      visitor.desc i att state = .ok next → done (i.toNat + 1) next
  leave : ∀ {i : ℕ} {state : State} (charIdx last : UInt8), done i state →
    done i (visitor.leave charIdx last state)
  skip : ∀ {i : ℕ} {state : State}, ¬ind.CharAt i → ¬(ind.DescAt i ∧ ind.Owned i) →
    done i state → done (i + 1) state

/-- A pass does not fail at the entries it visits. -/
structure Succeeds (ind : SvcInd) {State : Type} (visitor : Visitor State)
    (done : ℕ → State → Prop) : Prop where
  char : ∀ {i : UInt8} {att : AttInfo} {state : State}, ind.info[i.toNat]? = some att →
    ind.declares i.toNat att = true → done i.toNat state →
      ∃ next, visitor.char i att state = .ok next
  desc : ∀ {i : UInt8} {att : AttInfo} {state : State}, ind.info[i.toNat]? = some att →
    att.attType = gattcSdpAttDesc → ind.Owned i.toNat → done i.toNat state →
      ∃ next, visitor.desc i att state = .ok next

section
variable {State : Type} {visitor : Visitor State} {done : ℕ → State → Prop}

variable {i last : UInt8} {state final : State}

theorem toNat_succ (inside : i.toNat < 255) : (i + 1).toNat = i.toNat + 1 := by
  rw [UInt8.toNat_add]
  exact Nat.mod_eq_of_lt (Nat.add_lt_add_right inside 1)

/-- One round of the inner loop: the entry is visited, and the loop goes on or ends there. -/
theorem walk_succ_eq_ok {fuel : ℕ} :
    ind.walk visitor (fuel + 1) i state = .ok (last, final) ↔
      ∃ att next, ind.info[(i + 1).toNat]? = some att ∧
        (if att.attType = gattcSdpAttDesc then visitor.desc (i + 1) att state else .ok state) =
          .ok next ∧
        if (i + 1).toNat < ind.range ∧ att.stops = false then
          ind.walk visitor fuel (i + 1) next = .ok (last, final)
        else last = i ∧ final = next := by
  have goesOn : ind.startHdl.toNat + 1 + (i + 1).toNat ≤ ind.endHdl.toNat ↔
      (i + 1).toNat < ind.range := by
    rw [range]
    omega
  rw [walk, bind_eq_ok]
  simp only [read_eq_ok, exists_and_left]
  refine exists_congr fun att => and_congr_right fun here => ?_
  split <;> rw [bind_eq_ok] <;> refine exists_congr fun next => and_congr_right fun _ => ?_
  all_goals
    simp only [goesOn]
    split
    · exact Iff.rfl
    · rw [UInt8.add_sub_cancel]
      simp [pure, Except.pure, eq_comm]

/-- Behind a place the first declaration or included service comes here. -/
structure EndsAt (ind : SvcInd) (i e : ℕ) : Prop where
  behind : i < e
  stops : ind.StopsAt e
  quiet : ∀ m, i < m → m < e → ¬ind.StopsAt m

theorem StopsAt.lt_range {i : ℕ} (stops : ind.StopsAt i) : i < ind.range := by
  obtain ⟨att, here, -⟩ := stops
  exact SvcInd.lt_range here

theorem Keeps.visit (keeps : Keeps ind visitor done) {att : AttInfo} {next : State}
    (here : ind.info[i.toNat]? = some att) (goesOn : att.stops = false) (owned : ind.Owned i.toNat)
    (before : done i.toNat state)
    (visited : (if att.attType = gattcSdpAttDesc then visitor.desc i att state else .ok state) =
      .ok next) : done (i.toNat + 1) next := by
  split at visited
  · rename_i desc
    exact keeps.desc here desc owned before visited
  · rename_i noDesc
    obtain rfl := Except.ok.inj visited
    refine keeps.skip ?_ ?_ before
    · intro char
      exact absurd ((at_iff here).mp char.stopsAt) (by simp [goesOn])
    · rintro ⟨desc, -⟩
      exact noDesc ((at_iff here).mp desc)

theorem walk_sound (keeps : Keeps ind visitor done) (short : ind.range ≤ 255) {fuel : ℕ}
    (walked : ind.walk visitor fuel i state = .ok (last, final)) (inside : i.toNat < ind.range)
    (owned : ind.Owned (i.toNat + 1)) (before : done (i.toNat + 1) state) :
    ind.EndsAt i.toNat (last + 1).toNat ∧ done (last + 1).toNat final := by
  induction fuel generalizing i state with
  | zero => exact nomatch walked
  | succ fuel induction =>
      obtain ⟨att, next, here, visited, onward⟩ := walk_succ_eq_ok.mp walked
      have succ_eq : (i + 1).toNat = i.toNat + 1 := toNat_succ (by omega)
      rw [← succ_eq] at owned before
      split at onward
      · rename_i further
        have quiet : ¬ind.StopsAt (i + 1).toNat := fun stops =>
          absurd ((at_iff here).mp stops) (by simp [further.2])
        have owned' : ind.Owned ((i + 1).toNat + 1) :=
          (owned_succ_iff fun char => quiet char.stopsAt).mpr ⟨owned, quiet⟩
        have after := keeps.visit here further.2 owned before visited
        obtain ⟨ends, kept⟩ := induction onward further.1 owned' after
        refine ⟨⟨by have := ends.behind; omega, ends.stops, fun m behind inFront => ?_⟩, kept⟩
        rcases Nat.lt_or_eq_of_le behind with later | rfl
        · exact ends.quiet m (by omega) inFront
        · rw [Nat.succ_eq_add_one, ← succ_eq]
          exact quiet
      · rename_i ended
        obtain ⟨rfl, rfl⟩ := onward
        have stops : att.stops = true := by
          by_contra goesOn
          exact ended ⟨lt_range here, Bool.not_eq_true _ ▸ goesOn⟩
        have noDesc : att.attType ≠ gattcSdpAttDesc := fun desc =>
          DescAt.not_stopsAt ⟨att, here, desc⟩ ⟨att, here, stops⟩
        rw [if_neg noDesc] at visited
        obtain rfl := Except.ok.inj visited
        exact ⟨⟨by omega, ⟨att, here, stops⟩, fun m behind inFront => by omega⟩, before⟩

theorem walk_total (keeps : Keeps ind visitor done) (succeeds : Succeeds ind visitor done)
    (short : ind.range ≤ 255) {fuel : ℕ} {e : ℕ} (ends : ind.EndsAt i.toNat e)
    (enough : ind.range ≤ fuel + i.toNat) (owned : ind.Owned (i.toNat + 1))
    (before : done (i.toNat + 1) state) :
    ∃ last final, ind.walk visitor fuel i state = .ok (last, final) := by
  induction fuel generalizing i state with
  | zero =>
      have := ends.behind
      have := ends.stops.lt_range
      omega
  | succ fuel induction =>
      have e_inside := ends.stops.lt_range
      have behind := ends.behind
      have succ_eq : (i + 1).toNat = i.toNat + 1 := toNat_succ (by omega)
      obtain ⟨att, here⟩ : ∃ att, ind.info[(i + 1).toNat]? = some att := exists_att (by omega)
      rw [← succ_eq] at owned before
      simp only [walk_succ_eq_ok]
      cases stops : att.stops with
      | true =>
          have noDesc : att.attType ≠ gattcSdpAttDesc := fun desc =>
            DescAt.not_stopsAt ⟨att, here, desc⟩ ⟨att, here, stops⟩
          refine ⟨i, state, att, state, here, by rw [if_neg noDesc], ?_⟩
          rw [if_neg (by simp [stops])]
          exact ⟨rfl, rfl⟩
      | false =>
          have quiet : ¬ind.StopsAt (i + 1).toNat := fun there =>
            absurd ((at_iff here).mp there) (by simp [stops])
          obtain ⟨next, visited⟩ : ∃ next,
              (if att.attType = gattcSdpAttDesc then visitor.desc (i + 1) att state
                else .ok state) = .ok next := by
            split
            · rename_i desc
              exact succeeds.desc here desc owned before
            · exact ⟨state, rfl⟩
          have owned' : ind.Owned ((i + 1).toNat + 1) :=
            (owned_succ_iff fun char => quiet char.stopsAt).mpr ⟨owned, quiet⟩
          have later : (i + 1).toNat < e := by
            rcases Nat.lt_or_eq_of_le (Nat.succ_le_of_lt behind) with later | rfl
            · omega
            · exact absurd ends.stops (by rw [Nat.succ_eq_add_one, ← succ_eq]; exact quiet)
          obtain ⟨last, final, walked⟩ := induction
            ⟨later, ends.stops, fun m further inFront => ends.quiet m (by omega) inFront⟩ (by omega)
            owned' (keeps.visit here stops owned before visited)
          refine ⟨last, final, att, next, here, visited, ?_⟩
          rw [if_pos ⟨by omega, stops⟩]
          exact walked

/-- One round of the outer loop. -/
theorem scan_succ_eq_ok {fuel : ℕ} :
    ind.scan visitor (fuel + 1) i state = .ok final ↔
      if i.toNat < ind.range then
        ∃ att, ind.info[i.toNat]? = some att ∧
          if ind.declares i.toNat att then
            ∃ next, visitor.char i att state = .ok next ∧
              ∃ last walked, ind.walk visitor fuel i next = .ok (last, walked) ∧
                ind.scan visitor fuel (last + 1) (visitor.leave i last walked) = .ok final
          else ind.scan visitor fuel (i + 1) state = .ok final
      else state = final := by
  rw [scan]
  split
  · rw [bind_eq_ok]
    simp only [read_eq_ok]
    refine exists_congr fun att => and_congr_right fun here => ?_
    split
    · simp [bind_eq_ok]
    · exact Iff.rfl
  · simp [pure, Except.pure]

theorem scan_ne_ok (long : 255 < ind.range) (fuel : ℕ) (i : UInt8) (state final : State) :
    ind.scan visitor fuel i state ≠ .ok final := by
  induction fuel generalizing i state with
  | zero => exact nofun
  | succ fuel induction =>
      intro scanned
      have inside : i.toNat < ind.range := lt_of_le_of_lt (Nat.le_of_lt_succ i.toNat_lt) long
      obtain ⟨att, -, onward⟩ := (if_pos inside ▸ scan_succ_eq_ok.mp scanned :)
      split at onward
      · obtain ⟨next, -, last, walked, -, later⟩ := onward
        exact induction _ _ later
      · exact induction _ _ onward

/-- The outer loop is at the end of a walk or at an entry that belongs to nothing, and an entry that
does not declare a characteristic is skipped. -/
theorem apart_succ {i : ℕ} (noChar : ¬ind.CharAt i) (apart : ind.StopsAt i ∨ ¬ind.Owned i) :
    ¬(ind.DescAt i ∧ ind.Owned i) ∧ ¬ind.Owned (i + 1) := by
  constructor
  · rintro ⟨desc, owned⟩
    exact apart.elim desc.not_stopsAt fun free => free owned
  · rw [owned_succ_iff noChar]
    rintro ⟨owned, goesOn⟩
    exact apart.elim goesOn fun free => free owned

/-- A pass that ends has done what it should, and every characteristic is followed by a declaration
or an included service. -/
theorem scan_sound (keeps : Keeps ind visitor done) (short : ind.range ≤ 255) {fuel : ℕ}
    (scanned : ind.scan visitor fuel i state = .ok final) (inside : i.toNat ≤ ind.range)
    (apart : ind.StopsAt i.toNat ∨ ¬ind.Owned i.toNat) (before : done i.toNat state) :
    done ind.range final ∧ ∀ c, i.toNat ≤ c → ind.CharAt c → ∃ m, c < m ∧ ind.StopsAt m := by
  induction fuel generalizing i state with
  | zero => exact nomatch scanned
  | succ fuel induction =>
      rw [scan_succ_eq_ok] at scanned
      split at scanned
      · rename_i further
        obtain ⟨att, here, onward⟩ := scanned
        split at onward
        · rename_i declared
          obtain ⟨next, stored, last, walked, walked_eq, later⟩ := onward
          obtain ⟨ends, kept⟩ := walk_sound keeps short walked_eq further
            (owned_succ_of_char ⟨att, here, declared⟩) (keeps.char here declared before stored)
          have e_inside := ends.stops.lt_range
          obtain ⟨finished, followed⟩ := induction later (Nat.le_of_lt e_inside) (Or.inl ends.stops)
            (keeps.leave i last kept)
          refine ⟨finished, fun c from_i char => ?_⟩
          by_cases near : c < (last + 1).toNat
          · exact ⟨_, near, ends.stops⟩
          · exact followed c (not_lt.mp near) char
        · rename_i undeclared
          have noChar : ¬ind.CharAt i.toNat := fun char => undeclared ((at_iff here).mp char)
          obtain ⟨unowned, apart'⟩ := apart_succ noChar apart
          have succ_eq : (i + 1).toNat = i.toNat + 1 := toNat_succ (by omega)
          rw [← succ_eq] at apart'
          obtain ⟨finished, followed⟩ := induction onward (by omega) (Or.inr apart')
            (succ_eq ▸ keeps.skip noChar unowned before)
          refine ⟨finished, fun c from_i char => ?_⟩
          rcases Nat.lt_or_eq_of_le from_i with later | rfl
          · exact followed c (by omega) char
          · exact absurd char noChar
      · rename_i ended
        obtain rfl := scanned
        have end_eq : i.toNat = ind.range := by omega
        refine ⟨end_eq ▸ before, fun c from_i char => ?_⟩
        have := char.stopsAt.lt_range
        omega

theorem exists_endsAt {i m : ℕ} (behind : i < m) (stops : ind.StopsAt m) :
    ∃ e, ind.EndsAt i e := by
  induction m using Nat.strong_induction_on with
  | _ m induction =>
      by_cases earlier : ∃ k, i < k ∧ k < m ∧ ind.StopsAt k
      · obtain ⟨k, behind', inFront, stops'⟩ := earlier
        exact induction k inFront behind' stops'
      · exact ⟨m, behind, stops, fun k behind' inFront stops' =>
          earlier ⟨k, behind', inFront, stops'⟩⟩

/-- A pass ends when every characteristic is followed by a declaration or an included service. -/
theorem scan_total (keeps : Keeps ind visitor done) (succeeds : Succeeds ind visitor done)
    (short : ind.range ≤ 255) (followed : ∀ c, ind.CharAt c → ∃ m, c < m ∧ ind.StopsAt m) {fuel : ℕ}
    (enough : ind.range < fuel + i.toNat) (inside : i.toNat ≤ ind.range)
    (apart : ind.StopsAt i.toNat ∨ ¬ind.Owned i.toNat) (before : done i.toNat state) :
    ∃ final, ind.scan visitor fuel i state = .ok final := by
  induction fuel generalizing i state with
  | zero => omega
  | succ fuel induction =>
      simp only [scan_succ_eq_ok]
      by_cases further : i.toNat < ind.range
      · obtain ⟨att, here⟩ := exists_att further
        simp only [if_pos further]
        by_cases declared : ind.declares i.toNat att = true
        · have char : ind.CharAt i.toNat := ⟨att, here, declared⟩
          obtain ⟨next, stored⟩ := succeeds.char here declared before
          obtain ⟨m, behind, stops⟩ := followed _ char
          obtain ⟨e, ends⟩ := exists_endsAt behind stops
          have owned := owned_succ_of_char char
          have kept := keeps.char here declared before stored
          obtain ⟨last, walked, walked_eq⟩ :
              ∃ last walked, ind.walk visitor fuel i next = .ok (last, walked) :=
            walk_total keeps succeeds short ends (by omega) owned kept
          obtain ⟨ends', kept'⟩ := walk_sound keeps short walked_eq further owned kept
          have := ends'.behind
          obtain ⟨final, scanned⟩ := induction (by omega)
            (Nat.le_of_lt ends'.stops.lt_range) (Or.inl ends'.stops) (keeps.leave i last kept')
          refine ⟨final, att, here, ?_⟩
          rw [if_pos declared]
          exact ⟨next, stored, last, walked, walked_eq, scanned⟩
        · have noChar : ¬ind.CharAt i.toNat := fun char => declared ((at_iff here).mp char)
          obtain ⟨unowned, apart'⟩ := apart_succ noChar apart
          have succ_eq : (i + 1).toNat = i.toNat + 1 := toNat_succ (by omega)
          rw [← succ_eq] at apart'
          obtain ⟨final, scanned⟩ := induction (by omega) (by omega) (Or.inr apart')
            (succ_eq ▸ keeps.skip noChar unowned before)
          refine ⟨final, att, here, ?_⟩
          rw [if_neg declared]
          exact scanned
      · exact ⟨state, by rw [if_neg further]⟩

end

end SvcInd

end BdkFreertos.Sdp
