import Mathlib.Data.List.Basic
import Mathlib.Data.Nat.Find

/-!
# The services found on a peer

The services of the peers are kept with tables of their characteristics and descriptors.  A write is
requested by handle; the table of profiles is searched for it when the message is handled.
-/

namespace BdkFreertos.Sdp

/-- A characteristic, `struct prf_char_inf`. -/
structure PrfCharInf where
  uuid : List UInt8
  charHdl : UInt16
  valHdl : UInt16
  prop : UInt8
  charEhdlOff : UInt8
  deriving DecidableEq

/-- A descriptor, `struct prf_char_desc_inf`. -/
structure PrfCharDescInf where
  uuid : List UInt8
  charCode : UInt8
  descHdl : UInt16
  deriving DecidableEq

/-- A service, `struct sdp_content`, with its two tables. -/
structure SdpContent where
  shdl : UInt16
  ehdl : UInt16
  uuid : List UInt8
  charsInf : List PrfCharInf
  descsInf : List PrfCharDescInf
  charIdx : ℕ
  deriving DecidableEq

/-- A profile of a peer, `struct sdp_env_tag`. -/
structure SdpEnvTag where
  conidx : UInt8
  sdpCont : SdpContent

def bleNbProfilesAddMax : ℕ := 20

/-- The profiles and the connections. -/
structure Profiles where
  /-- `BLE_CONNECTION_MAX`. -/
  connectionMax : ℕ
  /-- `app_ble_env.connections[].conhdl`. -/
  conhdl : UInt8 → UInt8
  /-- The task of the connection is in the state `APPC_SERVICE_CONNECTED`. -/
  serviceConnected : UInt8 → Bool
  /-- `sdp_env_init.used_status` is `USED_STATUS`. -/
  used : ℕ → Bool
  /-- `sdp_env_init.sdp_env`. -/
  sdpEnv : ℕ → SdpEnvTag
  /-- `prf_env.prf`: the environment of a client, nothing for other profiles. -/
  prf : List (Option ℕ)

/-- The message `SDP_WRITE_VALUE_INFO_REQ`. -/
structure SdpWriteInfoReq where
  conidx : UInt8
  handle : UInt16
  length : UInt16
  data : List UInt8

def appmErrorState : UInt8 := 0xFF

/-- `sdp_profiles_sdp_db_env`, as the index of the environment. -/
def sdpProfilesSdpDbEnv (profiles : Profiles) (conhdl : UInt8) (handle : UInt16) : Option ℕ :=
  (List.range bleNbProfilesAddMax).find? fun i =>
    profiles.used i && (profiles.sdpEnv i).conidx == conhdl &&
      ((profiles.sdpEnv i).sdpCont.shdl ≤ handle && (profiles.sdpEnv i).sdpCont.ehdl ≥ handle)

/-- The message that is sent, and what is returned. -/
def appcWriteServiceDataReq (profiles : Profiles) (conidx : UInt8) (handle dataLen : UInt16)
    (data : List UInt8) : Option SdpWriteInfoReq × UInt8 :=
  if profiles.connectionMax ≤ conidx.toNat then
    (none, appmErrorState)
  else
    let conhdl := profiles.conhdl conidx
    let sdpDbEnv := sdpProfilesSdpDbEnv profiles conhdl handle
    if profiles.serviceConnected conidx && sdpDbEnv.isSome then
      (some ⟨conhdl, handle, dataLen, data⟩, 0)
    else
      (none, appmErrorState)

/-- What a handle was found to be, with its place in one of the two tables. -/
inductive Match
  | char (j : ℕ)
  | desc (j : ℕ)

/-- The loops of `prf_env_get_from_handle` store the place of either table in `char_idx`. -/
def Match.charIdx : Match → ℕ
  | .char j | .desc j => j

/-- A characteristic has the handle as its declaration or as its value. -/
def PrfCharInf.has (char : PrfCharInf) (handle : UInt16) : Bool :=
  char.charHdl == handle || char.valHdl == handle

/-- The two inner loops of `prf_env_get_from_handle`. -/
def SdpContent.search (sdpCont : SdpContent) (handle : UInt16) : Option Match :=
  match sdpCont.charsInf.findIdx? fun char => char.has handle with
  | some j => some (.char j)
  | none => (sdpCont.descsInf.findIdx? fun desc => desc.descHdl == handle).map .desc

/-- The body of the outer loop for the profile of a slot. -/
def Profiles.searchSlot (profiles : Profiles) (conidx : UInt8) (handle : UInt16) :
    Option ℕ → Option (ℕ × Match)
  | none => none
  | some env =>
      if (profiles.sdpEnv env).conidx = conidx then
        ((profiles.sdpEnv env).sdpCont.search handle).map fun found => (env, found)
      else
        none

/-- The environment that is returned, with what was found in it. -/
def prfEnvGetFromHandle (profiles : Profiles) (conidx : UInt8) (handle : UInt16) :
    Option (ℕ × Match) :=
  profiles.prf.findSome? (profiles.searchSlot conidx handle)

/-- `GATTC_WRITE` and `GATTC_WRITE_NO_RESPONSE`. -/
inductive Operation
  | write
  | writeNoResponse
  deriving DecidableEq

/-- The errors of a write request. -/
inductive WriteError
  | errAttcWrite
  | errAttcWriteUnregister

/-- What the handler of a write request does. -/
inductive Outcome
  /-- `prf_gatt_write` is called. -/
  | gattWrite (conidx : UInt8) (handle : UInt16) (buf : List UInt8) (length : UInt16)
      (operation : Operation)
  /-- `app_ble_next_operation` is called with an error. -/
  | error (error : WriteError)
  /-- The table of characteristics is read behind its end. -/
  | outside

def attCharPropWrNoResp : UInt8 := 0x04

def attCharPropWr : UInt8 := 0x08

/-- How a value with these properties is written. -/
def operationOf (valProp : UInt8) : Option Operation :=
  if valProp &&& attCharPropWrNoResp = attCharPropWrNoResp then some .writeNoResponse
  else if valProp &&& attCharPropWr = attCharPropWr then some .write
  else none

def sdpWriteValueInfoReqHandler (profiles : Profiles) (param : SdpWriteInfoReq) : Outcome :=
  match prfEnvGetFromHandle profiles param.conidx param.handle with
  | none => .error .errAttcWriteUnregister
  | some (env, found) =>
      match (profiles.sdpEnv env).sdpCont.charsInf[found.charIdx]? with
      | none => .outside
      | some char =>
          match operationOf char.prop with
          | none => .error .errAttcWrite
          | some operation =>
              .gattWrite param.conidx char.valHdl param.data param.length operation

/-! ### What a write reaches -/

/-- The profile of a slot belongs to the connection. -/
def Profiles.Client (profiles : Profiles) (conidx : UInt8) (i : ℕ) (sdpCont : SdpContent) : Prop :=
  ∃ env, profiles.prf[i]? = some (some env) ∧ (profiles.sdpEnv env).conidx = conidx ∧
    (profiles.sdpEnv env).sdpCont = sdpCont

/-- What is written goes to the value of the characteristic that has the handle, as its properties
say. -/
def WritesOwn (profiles : Profiles) (param : SdpWriteInfoReq) : Outcome → Prop
  | .gattWrite conidx handle buf length operation =>
      conidx = param.conidx ∧ buf = param.data ∧ length = param.length ∧
        ∃ i sdpCont char, profiles.Client param.conidx i sdpCont ∧ char ∈ sdpCont.charsInf ∧
          (param.handle = char.valHdl ∨ param.handle = char.charHdl) ∧ handle = char.valHdl ∧
            operationOf char.prop = some operation
  | .error _ => True
  | .outside => False

/-- The place of a descriptor is not used in the table of characteristics. -/
def IndexesOwn (profiles : Profiles) (param : SdpWriteInfoReq) : Prop :=
  ∀ env j, prfEnvGetFromHandle profiles param.conidx param.handle ≠ some (env, .desc j)

/-- What is claimed of a write request. -/
def Reaches (profiles : Profiles) (conidx : UInt8) (handle dataLen : UInt16) (data : List UInt8) :
    Prop :=
  ∀ param ∈ (appcWriteServiceDataReq profiles conidx handle dataLen data).1,
    WritesOwn profiles param (sdpWriteValueInfoReqHandler profiles param) ∧
      IndexesOwn profiles param

def SdpContent.HasChar (sdpCont : SdpContent) (handle : UInt16) : Prop :=
  ∃ char ∈ sdpCont.charsInf, char.has handle = true

def SdpContent.HasDesc (sdpCont : SdpContent) (handle : UInt16) : Prop :=
  ∃ desc ∈ sdpCont.descsInf, desc.descHdl = handle

/-- The connection and its services take the request. -/
def Accepted (profiles : Profiles) (conidx : UInt8) (handle : UInt16) : Prop :=
  conidx.toNat < profiles.connectionMax ∧ profiles.serviceConnected conidx = true ∧
    (sdpProfilesSdpDbEnv profiles (profiles.conhdl conidx) handle).isSome = true

/-- A profile of the connection that has the handle for a descriptor only comes behind one that has
it for a characteristic. -/
def NotDescriptor (profiles : Profiles) (conhdl : UInt8) (handle : UInt16) : Prop :=
  ∀ i sdpCont, profiles.Client conhdl i sdpCont → sdpCont.HasDesc handle →
    ¬sdpCont.HasChar handle →
      ∃ k < i, ∃ earlier, profiles.Client conhdl k earlier ∧ earlier.HasChar handle

section
variable {profiles : Profiles} {conidx : UInt8} {handle : UInt16} {sdpCont : SdpContent}

theorem appcWriteServiceDataReq_eq (dataLen : UInt16) (data : List UInt8)
    (param : SdpWriteInfoReq) :
    (appcWriteServiceDataReq profiles conidx handle dataLen data).1 = some param ↔
      Accepted profiles conidx handle ∧
        (⟨profiles.conhdl conidx, handle, dataLen, data⟩ : SdpWriteInfoReq) = param := by
  rw [appcWriteServiceDataReq, Accepted, ← not_le]
  by_cases outside : profiles.connectionMax ≤ conidx.toNat
  · simp [outside]
  · simp only [if_neg outside, Bool.and_eq_true]
    split_ifs with ready <;> simp [ready, outside]

theorem search_char {j : ℕ} (found : sdpCont.search handle = some (.char j)) :
    ∃ char, sdpCont.charsInf[j]? = some char ∧ char.has handle = true := by
  rw [SdpContent.search] at found
  split at found
  · rename_i place place_eq
    obtain rfl : place = j := by simpa using found
    obtain ⟨inside, has, -⟩ := List.findIdx?_eq_some_iff_getElem.mp place_eq
    exact ⟨_, List.getElem?_eq_getElem inside, has⟩
  · simp at found

theorem search_desc {j : ℕ} (found : sdpCont.search handle = some (.desc j)) :
    ¬sdpCont.HasChar handle ∧ sdpCont.HasDesc handle := by
  rw [SdpContent.search] at found
  split at found
  · simp at found
  · rename_i no_char
    refine ⟨?_, ?_⟩
    · rintro ⟨char, member, has⟩
      rw [List.findIdx?_eq_none_iff] at no_char
      exact absurd has (by simp [no_char char member])
    · obtain ⟨place, place_eq, -⟩ := Option.map_eq_some_iff.mp found
      obtain ⟨inside, has, -⟩ := List.findIdx?_eq_some_iff_getElem.mp place_eq
      exact ⟨_, List.getElem_mem inside, by simpa using has⟩

theorem search_ne_none (has : sdpCont.HasChar handle ∨ sdpCont.HasDesc handle) :
    sdpCont.search handle ≠ none := by
  rw [SdpContent.search]
  split
  · simp
  · rename_i no_char
    rw [List.findIdx?_eq_none_iff] at no_char
    rcases has with ⟨char, member, has⟩ | ⟨desc, member, has⟩
    · exact absurd has (by simp [no_char char member])
    · simp only [ne_eq, Option.map_eq_none_iff, List.findIdx?_eq_none_iff, not_forall]
      exact ⟨desc, member, by simp [has]⟩

theorem prfEnvGetFromHandle_eq {env : ℕ} {found : Match}
    (found_eq : prfEnvGetFromHandle profiles conidx handle = some (env, found)) :
    ∃ k, profiles.Client conidx k (profiles.sdpEnv env).sdpCont ∧
      (profiles.sdpEnv env).sdpCont.search handle = some found ∧
        ∀ i < k, ∀ earlier, profiles.Client conidx i earlier → earlier.search handle = none := by
  obtain ⟨front, slot, back, prf_eq, slot_eq, before⟩ := List.findSome?_eq_some_iff.mp found_eq
  rcases slot with _ | own
  · exact nomatch slot_eq
  rw [Profiles.searchSlot] at slot_eq
  split at slot_eq
  · rename_i connected
    obtain ⟨known, known_eq, pair_eq⟩ := Option.map_eq_some_iff.mp slot_eq
    obtain ⟨rfl, rfl⟩ := Prod.mk.inj pair_eq
    refine ⟨front.length, ⟨own, ?_, connected, rfl⟩, known_eq, ?_⟩
    · rw [prf_eq, List.getElem?_append_right (Nat.le_refl _), Nat.sub_self, List.getElem?_cons_zero]
    · rintro i inFront earlier ⟨other, slot_eq, connected, rfl⟩
      rw [prf_eq, List.getElem?_append_left inFront] at slot_eq
      have skipped := before _ (List.mem_of_getElem? slot_eq)
      rw [Profiles.searchSlot, if_pos connected, Option.map_eq_none_iff] at skipped
      exact skipped
  · exact nomatch slot_eq

theorem prfEnvGetFromHandle_ne_none {i : ℕ} (client : profiles.Client conidx i sdpCont)
    (has : sdpCont.HasChar handle ∨ sdpCont.HasDesc handle) :
    prfEnvGetFromHandle profiles conidx handle ≠ none := by
  obtain ⟨env, slot_eq, connected, rfl⟩ := client
  intro nothing
  have skipped := List.findSome?_eq_none_iff.mp nothing _ (List.mem_of_getElem? slot_eq)
  rw [Profiles.searchSlot, if_pos connected, Option.map_eq_none_iff] at skipped
  exact search_ne_none has skipped

theorem Profiles.Client.unique {i : ℕ} {other : SdpContent}
    (client : profiles.Client conidx i sdpCont) (also : profiles.Client conidx i other) :
    sdpCont = other := by
  obtain ⟨env, slot_eq, -, rfl⟩ := client
  obtain ⟨env', slot_eq', -, rfl⟩ := also
  obtain rfl := Option.some.inj (Option.some.inj (slot_eq.symm.trans slot_eq'))
  rfl

/-- The lookup does not match a descriptor exactly if the first profile that knows the handle has it
for a characteristic. -/
theorem indexesOwn_iff (param : SdpWriteInfoReq) :
    IndexesOwn profiles param ↔ NotDescriptor profiles param.conidx param.handle := by
  constructor
  · intro indexesOwn i sdpCont client hasDesc noChar
    obtain ⟨⟨env, found⟩, found_eq⟩ :=
      Option.ne_none_iff_exists'.mp (prfEnvGetFromHandle_ne_none client (Or.inr hasDesc))
    obtain ⟨k, first, search_eq, before⟩ := prfEnvGetFromHandle_eq found_eq
    rcases found with j | j
    · obtain ⟨char, char_eq, has⟩ := search_char search_eq
      have hasChar : (profiles.sdpEnv env).sdpCont.HasChar param.handle :=
        ⟨char, List.mem_of_getElem? char_eq, has⟩
      refine ⟨k, ?_, _, first, hasChar⟩
      by_contra late
      rcases Nat.lt_or_eq_of_le (not_lt.mp late) with earlier | rfl
      · exact search_ne_none (Or.inr hasDesc) (before i earlier sdpCont client)
      · rw [client.unique first] at noChar
        exact noChar hasChar
    · exact absurd found_eq (indexesOwn env j)
  · intro notDescriptor env j found_eq
    obtain ⟨k, first, search_eq, before⟩ := prfEnvGetFromHandle_eq found_eq
    obtain ⟨noChar, hasDesc⟩ := search_desc search_eq
    obtain ⟨i, earlier, sdpCont, client, hasChar⟩ := notDescriptor k _ first hasDesc noChar
    exact search_ne_none (Or.inl hasChar) (before i earlier sdpCont client)

theorem writesOwn_of_indexesOwn {param : SdpWriteInfoReq} (indexesOwn : IndexesOwn profiles param) :
    WritesOwn profiles param (sdpWriteValueInfoReqHandler profiles param) := by
  rw [sdpWriteValueInfoReqHandler]
  rcases found_eq : prfEnvGetFromHandle profiles param.conidx param.handle with _ | ⟨env, found⟩
  · trivial
  obtain ⟨k, first, search_eq, -⟩ := prfEnvGetFromHandle_eq found_eq
  rcases found with j | j
  · obtain ⟨char, char_eq, has⟩ := search_char search_eq
    simp only [Match.charIdx, char_eq]
    rcases operation_eq : operationOf char.prop with _ | operation
    · trivial
    · refine ⟨rfl, rfl, rfl, k, _, char, first, List.mem_of_getElem? char_eq, ?_, rfl,
        operation_eq⟩
      simp only [PrfCharInf.has, Bool.or_eq_true, beq_iff_eq] at has
      exact has.symm.imp Eq.symm Eq.symm
  · exact absurd found_eq (indexesOwn env j)

end

/-- An accepted write request reaches the characteristic that has the handle exactly if the handle
is not found as that of a descriptor. -/
theorem write_reaches_iff (profiles : Profiles) (conidx : UInt8) (handle dataLen : UInt16)
    (data : List UInt8) :
    Reaches profiles conidx handle dataLen data ↔
      (Accepted profiles conidx handle →
        NotDescriptor profiles (profiles.conhdl conidx) handle) := by
  constructor
  · intro reaches accepted
    have param := (appcWriteServiceDataReq_eq dataLen data _).mpr ⟨accepted, rfl⟩
    exact (indexesOwn_iff _).mp (reaches _ param).2
  · intro notDescriptor param param_eq
    obtain ⟨accepted, rfl⟩ := (appcWriteServiceDataReq_eq dataLen data param).mp param_eq
    have indexesOwn : IndexesOwn profiles ⟨profiles.conhdl conidx, handle, dataLen, data⟩ :=
      (indexesOwn_iff _).mpr (notDescriptor accepted)
    exact ⟨writesOwn_of_indexesOwn indexesOwn, indexesOwn⟩

/-- A service with a characteristic at the handles 2 and 3 that may be written, one at 4 and 5 that
may be written, and a descriptor of the second one at 6. -/
def twoChars : SdpContent where
  shdl := 1
  ehdl := 6
  uuid := [0, 0x18]
  charsInf := [⟨[0, 0x2A], 2, 3, attCharPropWr, 1⟩, ⟨[1, 0x2A], 4, 5, attCharPropWr, 2⟩]
  descsInf := [⟨[2, 0x29], 1, 6⟩]
  charIdx := 0

/-- One connection, whose only profile is this service. -/
def oneService : Profiles where
  connectionMax := 1
  conhdl _ := 0
  serviceConnected _ := true
  used i := i == 0
  sdpEnv _ := ⟨0, twoChars⟩
  prf := [none, some 0]

/-- A write to the descriptor of the second characteristic is sent to the value of the first. -/
theorem descriptor_write_reaches_other_char :
    (appcWriteServiceDataReq oneService 0 6 2 [1, 0]).2 = 0 ∧
      sdpWriteValueInfoReqHandler oneService ⟨0, 6, 2, [1, 0]⟩ =
        .gattWrite 0 3 [1, 0] 2 .write ∧
      ¬Reaches oneService 0 6 2 [1, 0] := by
  refine ⟨by decide, rfl, fun reaches => ?_⟩
  exact (reaches ⟨0, 6, 2, [1, 0]⟩ rfl).2 0 0 rfl

end BdkFreertos.Sdp
