import BdkFreertos.DhcpResponse
import BdkFreertos.DhcpSearch

/-!
# What the option parser reads

The loop goes on while bytes are left, but an option is read whole.  Every option but the last one
visited lies inside what was received; a last one that is cut off is read on into what the buffer
still held.  Whether that shows depends on what has been told before.
-/

namespace BdkFreertos.Dhcp

variable {dhcps : Dhcps} {msg other : Memory UInt8} {len : ℕ}

def Alike (bound : ℕ) (left right : Memory UInt8) : Prop :=
  ∀ address < bound, left address = right address

variable {bound start opt rounds last : ℕ} {front : List ℕ}

section

variable (alike : Alike bound msg other)
include alike

theorem Alike.mono {smaller : ℕ} (le : smaller ≤ bound) : Alike smaller msg other :=
  fun address inside => alike address (inside.trans_le le)

theorem Alike.store (start : ℕ) (cells : List UInt8) :
    Alike bound (msg.store start cells) (other.store start cells) := by
  intro address inside
  simp [Memory.store, alike address inside]

theorem Alike.load {count : ℕ} (inside : start + count ≤ bound) :
    msg.load start count = other.load start count :=
  Memory.load_eq_load fun index short => alike (start + index) (by omega)

theorem Alike.loadWord (inside : start + 4 ≤ bound) : msg.loadWord start = other.loadWord start :=
  Memory.loadWord_congr fun index short => alike (start + index) (by omega)

end

/-! ## What an option tells -/

/-- What the loop takes from an option. -/
inductive Told
  | nothing
  | discover
  | request
  | address (value : UInt32)
  deriving DecidableEq

/-- What an option tells. -/
def told (msg : Memory UInt8) (opt : ℕ) : Told :=
  if msg opt = 53 ∧ msg (opt + 1) = 1 then
    if msg (opt + 2) = 1 then .discover else if msg (opt + 2) = 3 then .request else .nothing
  else if msg opt = 50 ∧ msg (opt + 1) = 4 then
    .address (msg.loadWord (opt + 2))
  else
    .nothing

/-- Take note of what an option tells. -/
def hear (ciaddr : UInt32) (parse : Parse) : Told → Parse
  | .nothing => parse
  | .discover => { parse with responseType := some .offer }
  | .request =>
      if ciaddr ≠ 0 then
        { parse with
          needIp := true
          dhcps := parse.dhcps.setClientIp ciaddr
          gotClientIp := true }
      else
        { parse with needIp := true }
  | .address value =>
      { parse with
        dhcps := parse.dhcps.setClientIp value
        gotClientIp := true }

theorem readOption_eq (msg : Memory UInt8) (parse : Parse) (opt : ℕ) :
    readOption msg parse opt =
      decideResponse (chaddr msg) (hear (ciaddr msg) parse (told msg opt)) := by
  rw [readOption]
  congr 1
  by_cases type : msg opt = 53
  · have unnamed : ∀ parse, readRequestedIp msg opt parse = parse := by
      intro parse
      rw [readRequestedIp, type, if_neg (by simp)]
    rw [unnamed, readMessageType, told]
    split_ifs <;> simp_all [hear]
  · have untyped : readMessageType msg opt parse = parse := by
      rw [readMessageType, if_neg (by simp [type])]
    have not_typed : ¬(msg opt = 53 ∧ msg (opt + 1) = 1) := fun both => type both.1
    rw [untyped, readRequestedIp, told, if_neg not_typed]
    split_ifs <;> rfl

theorem isRequest_iff (msg : Memory UInt8) (opt : ℕ) :
    isRequest msg opt = true ↔ told msg opt = .request := by
  simp only [isRequest, told, decide_eq_true_eq]
  constructor
  · rintro ⟨type, single, request⟩
    simp [type, single, request]
  · intro told_eq
    split_ifs at told_eq with typed discover request
    exact ⟨typed.1, typed.2, request⟩

theorem namedAddress_eq (msg : Memory UInt8) (opt : ℕ) :
    namedAddress msg opt = match told msg opt with
      | .request => if ciaddr msg ≠ 0 then some (ciaddr msg) else none
      | .address value => some value
      | _ => none := by
  rcases requests : isRequest msg opt with _ | _
  · have other := (isRequest_iff msg opt).not.mp (by simp [requests])
    simp only [namedAddress, requests, Bool.false_eq_true, false_and, if_false]
    rw [told] at other ⊢
    by_cases type : msg opt = 53
    · split_ifs at other ⊢ <;> simp_all
    · split_ifs <;> simp_all
  · have request := (isRequest_iff msg opt).mp requests
    have untyped : msg opt ≠ 50 := by
      have type : msg opt = 53 := (of_decide_eq_true requests).1
      simp [type]
    simp [namedAddress, requests, request, untyped]

/-! ## The walk -/

theorem optionPlaces_congr (alike : Alike (opt + len) msg other) :
    optionPlaces other rounds len opt = optionPlaces msg rounds len opt := by
  induction rounds generalizing len opt with
  | zero => rfl
  | succ rounds induction =>
      have ended : ∀ memory opt, optionPlaces memory rounds 0 opt = [] := by
        intro memory opt
        cases rounds <;> simp [optionPlaces]
      rw [optionPlaces, optionPlaces]
      by_cases left : 0 < len
      · rw [alike opt (by omega)]
        split
        · simp only [List.cons.injEq, true_and]
          rcases Nat.lt_or_ge 1 len with whole | cut
          · rw [← alike (opt + 1) (by omega)]
            by_cases more : sizeofBootpOption + (msg (opt + 1)).toNat ≤ len
            · exact induction (alike.mono (by omega))
            · rw [Nat.sub_eq_zero_of_le (by omega), ended, ended]
          · -- Only the type was received, and no length leaves anything behind it.
            have none_left : ∀ memory : Memory UInt8,
                len - (sizeofBootpOption + (memory (opt + 1)).toNat) = 0 := by
              intro memory
              rw [sizeofBootpOption]
              omega
            rw [none_left, none_left, ended, ended]
        · rfl
      · rw [if_neg (fun both => left both.1), if_neg (fun both => left both.1)]

def consumed (msg : Memory UInt8) (opt : ℕ) : ℕ :=
  sizeofBootpOption + (msg (opt + 1)).toNat

/-- The options in front of the last one are whole: they fill the bytes in front of it, which lies
in front of the end. -/
theorem optionPlaces_concat (visited : optionPlaces msg rounds len opt = front ++ [last]) :
    (front.map (consumed msg)).sum + opt = last ∧ last < opt + len ∧
      ∀ place ∈ front, place + consumed msg place ≤ last := by
  induction rounds generalizing len opt front with
  | zero => simp [optionPlaces] at visited
  | succ rounds induction =>
      rw [optionPlaces] at visited
      split at visited
      · rename_i goes_on
        cases front with
        | nil =>
            obtain ⟨rfl, -⟩ := List.cons.inj visited
            exact ⟨by simp, by omega, fun _ member => absurd member List.not_mem_nil⟩
        | cons first front =>
            obtain ⟨rfl, rest⟩ := List.cons.inj visited
            obtain ⟨sum_eq, inside, whole⟩ := induction rest
            rw [List.map_cons, List.sum_cons, consumed]
            refine ⟨by omega, by omega, ?_⟩
            intro place member
            rcases List.mem_cons.mp member with rfl | later
            · rw [consumed]
              omega
            · exact whole place later
      · simp at visited

theorem told_congr (alike : Alike bound msg other) (whole : opt + consumed msg opt ≤ bound) :
    told other opt = told msg opt := by
  rw [consumed, sizeofBootpOption] at whole
  have type_eq := alike opt (by omega)
  have length_eq := alike (opt + 1) (by omega)
  rw [told, told, ← type_eq, ← length_eq]
  by_cases typed : msg opt = 53 ∧ msg (opt + 1) = 1
  · have length_toNat : (msg (opt + 1)).toNat = 1 := by simp [typed.2]
    rw [if_pos typed, if_pos typed, alike (opt + 2) (by omega)]
  · rw [if_neg typed, if_neg typed]
    by_cases requested : msg opt = 50 ∧ msg (opt + 1) = 4
    · have length_toNat : (msg (opt + 1)).toNat = 4 := by simp [requested.2]
      rw [if_pos requested, if_pos requested, alike.loadWord (by omega)]
    · rw [if_neg requested, if_neg requested]

/-! ## Options that are cut off -/

/-- A message-type option whose length or value was not received. -/
def TypeCut (msg : Memory UInt8) (len opt : ℕ) : Prop :=
  msg opt = 53 ∧ (opt + 1 = len ∨ opt + 2 = len ∧ msg (opt + 1) = 1)

/-- A requested-address option whose length or value was not received in full. -/
def AddressCut (msg : Memory UInt8) (len opt : ℕ) : Prop :=
  msg opt = 50 ∧ (opt + 1 = len ∨ opt + 2 ≤ len ∧ len < opt + 6 ∧ msg (opt + 1) = 4)

theorem told_congr_of_uncut (alike : Alike len msg other) (inside : opt < len)
    (type_uncut : ¬TypeCut msg len opt) (address_uncut : ¬AddressCut msg len opt) :
    told other opt = told msg opt := by
  have type_eq := alike opt inside
  rw [told, told, ← type_eq]
  by_cases typed : msg opt = 53
  · have lengthy : opt + 1 < len := by
      by_contra short
      exact type_uncut ⟨typed, Or.inl (by omega)⟩
    rw [← alike (opt + 1) lengthy]
    by_cases single : msg (opt + 1) = 1
    · have valued : opt + 2 < len := by
        by_contra short
        exact type_uncut ⟨typed, Or.inr ⟨by omega, single⟩⟩
      rw [alike (opt + 2) valued]
      simp [typed]
    · simp [typed, single]
  · by_cases requested : msg opt = 50
    · have lengthy : opt + 1 < len := by
        by_contra short
        exact address_uncut ⟨requested, Or.inl (by omega)⟩
      rw [← alike (opt + 1) lengthy]
      by_cases four : msg (opt + 1) = 4
      · have valued : opt + 6 ≤ len := by
          by_contra short
          exact address_uncut ⟨requested, Or.inr ⟨by omega, by omega, four⟩⟩
        simp [typed, alike.loadWord (show opt + 2 + 4 ≤ len by omega)]
      · simp [typed, four]
    · simp [typed, requested]

theorem told_of_typeCut (typed : msg opt = 53) :
    told msg opt = .nothing ∨ told msg opt = .discover ∨ told msg opt = .request := by
  rw [told]
  split_ifs with single discover request requested
  · exact Or.inr (Or.inl rfl)
  · exact Or.inr (Or.inr rfl)
  · exact Or.inl rfl
  · simp [typed] at requested
  · exact Or.inl rfl

/-! ## What a call does -/

/-- What a call returns, announces, sends and leaves in the cache. -/
structure Outcome where
  returned : Option Int
  gratuitousArp : Option UInt32
  sent : List (UInt32 × List UInt8)
  cache : List ClientMacCache
  deriving DecidableEq

/-- The outcome of a call with a given result. -/
def Outcome.of (result : Dhcps × Reply) : Outcome where
  returned := result.2.returned
  gratuitousArp := result.2.gratuitousArp
  sent := result.2.packets.map fun packet => (packet.addr, packet.msg.load 0 packet.len)
  cache := result.1.ipMacMapping

def outcome (dhcps : Dhcps) (msg : Memory UInt8) (len : ℕ) : Outcome :=
  .of (processDhcpMessage dhcps msg len)

/-- The end of a call, behind the option loop. -/
def respond (msg : Memory UInt8) (parse : Parse) : Dhcps × Reply :=
  match parse.responseType with
  | none => (parse.dhcps, ⟨some 0, [], none⟩)
  | some type =>
      match makeResponse parse.dhcps msg type with
      | none => (parse.dhcps, ⟨none, [], none⟩)
      | some (dhcps, msg, len) =>
          let (dhcps, packets) := sendResponses dhcps msg len
          (dhcps, ⟨some 0, packets, if type = .ack then some dhcps.myIp else none⟩)

theorem outcome_of_accepts (accepts : acceptsHeader msg len = true) :
    outcome dhcps msg len = .of (respond msg (parseOptions dhcps msg len)) := by
  rw [outcome, processDhcpMessage, if_pos accepts]
  rfl

theorem acceptsHeader_congr (alike : Alike len msg other) :
    acceptsHeader other len = acceptsHeader msg len := by
  by_cases long : sizeofBootpHeader + sizeofBootpOption + 1 ≤ len
  · have above : 3 ≤ len := by
      rw [sizeofBootpHeader] at long
      omega
    rw [acceptsHeader, acceptsHeader]
    apply decide_eq_decide.mpr
    simp [op, htype, hlen, alike 0 (by omega), alike 1 (by omega), alike 2 (by omega)]
  · simp [acceptsHeader, long]

theorem Alike.store_behind (alike : Alike bound msg other) (cells : List UInt8) :
    Alike (bound + cells.length) (msg.store bound cells) (other.store bound cells) := by
  intro address inside
  rcases Nat.lt_or_ge address bound with before | behind
  · exact alike.store bound cells address before
  · obtain ⟨index, rfl⟩ := Nat.exists_eq_add_of_le behind
    have short : index < cells.length := by omega
    simp [short]

/-- The address a response carries, with the state behind its choice. -/
def assign (dhcps : Dhcps) (mac : List UInt8) : ResponseType → Option (Dhcps × UInt32)
  | .offer => nextYiaddr dhcps mac
  | .ack => some (dhcps, dhcps.clientIp)
  | .nak => some (dhcps, 0)

theorem makeResponse_eq (dhcps : Dhcps) (msg : Memory UInt8) (type : ResponseType) :
    makeResponse dhcps msg type = (assign dhcps (chaddr msg) type).map fun assigned =>
      (assigned.1, writeOptions assigned.1 (writeHeader msg assigned.2) type) := by
  cases type <;> rfl

/-- What is sent depends on the bytes of the response. -/
theorem sendResponses_congr (dhcps : Dhcps) {response other_response : Memory UInt8}
    (alike : Alike len response other_response) (header : sizeofBootpHeader ≤ len) :
    (sendResponses dhcps other_response len).1 = (sendResponses dhcps response len).1 ∧
      (sendResponses dhcps other_response len).2.map
          (fun packet => (packet.addr, packet.msg.load 0 packet.len)) =
        (sendResponses dhcps response len).2.map
          (fun packet => (packet.addr, packet.msg.load 0 packet.len)) := by
  have long : 240 ≤ len := header
  have yiaddr_eq : yiaddr other_response = yiaddr response := (alike.loadWord (by omega)).symm
  have bytes_eq : ∀ broadcast, (setBroadcast other_response broadcast).load 0 len =
      (setBroadcast response broadcast).load 0 len := by
    intro broadcast
    rw [setBroadcast, setBroadcast, ← alike 10 (by omega)]
    exact ((alike.store 10 _).load (by omega)).symm
  unfold sendResponses
  simp only [yiaddr_eq]
  split
  · exact ⟨rfl, by simp [bytes_eq]⟩
  · exact ⟨rfl, by simp [bytes_eq]⟩

theorem respond_congr (alike : Alike sizeofBootpHeader msg other) (parse : Parse) :
    Outcome.of (respond other parse) = Outcome.of (respond msg parse) := by
  have chaddr_eq : chaddr other = chaddr msg := (alike.load (by decide)).symm
  rw [respond, respond]
  rcases parse.responseType with _ | type
  · rfl
  · simp only [makeResponse_eq, chaddr_eq]
    rcases assign parse.dhcps (chaddr msg) type with _ | ⟨after, address⟩
    · rfl
    · simp only [Option.map_some, writeOptions_eq]
      have header : Alike sizeofBootpHeader (writeHeader msg address) (writeHeader other address) :=
        ((((alike.store _ _).store _ _).store _ _).store _ _).store _ _
      obtain ⟨after_eq, sent_eq⟩ := sendResponses_congr after
        (header.store_behind (area (responseOptions after type) ++
          if type = .nak then [] else [0xFF])) (Nat.le_add_right _ _)
      simp only [Outcome.of, after_eq, sent_eq]

theorem respond_of_assign {parse : Parse} {type : ResponseType} {after : Dhcps}
    {address : UInt32} (responds : parse.responseType = some type)
    (assigned : assign parse.dhcps (chaddr msg) type = some (after, address)) :
    let response := writeOptions after (writeHeader msg address) type
    let sent := sendResponses after response.1 response.2
    respond msg parse =
      (sent.1, ⟨some 0, sent.2, if type = .ack then some sent.1.myIp else none⟩) := by
  intro response sent
  simp only [respond, responds, makeResponse_eq, assigned, Option.map_some]
  rfl

theorem respond_nak {parse : Parse} (nak : parse.responseType = some .nak) :
    respond msg parse = (parse.dhcps, ⟨some 0, List.replicate 3 ⟨0xffffffff,
      setBroadcast ((writeHeader msg 0).store 240 [53, 1, 6]) true, 243⟩, none⟩) := by
  have unassigned : yiaddr (writeOptions parse.dhcps (writeHeader msg 0) .nak).1 = 0 :=
    (carries_written parse.dhcps msg .nak 0).yiaddr
  have sends : sendResponses parse.dhcps (writeOptions parse.dhcps (writeHeader msg 0) .nak).1 243 =
      (parse.dhcps, List.replicate 3 ⟨0xffffffff,
        setBroadcast ((writeHeader msg 0).store 240 [53, 1, 6]) true, 243⟩) := by
    unfold sendResponses
    simp only [unassigned, ne_eq, not_true_eq_false, if_false]
    rfl
  have responded := @respond_of_assign msg _ _ _ _ nak rfl
  simp only at responded
  have written : (writeOptions parse.dhcps (writeHeader msg 0) .nak).2 = 243 := rfl
  rw [responded, written, sends]
  rfl

theorem respond_nak_congr {first second : Parse} (first_nak : first.responseType = some .nak)
    (second_nak : second.responseType = some .nak)
    (same : first.dhcps.ipMacMapping = second.dhcps.ipMacMapping) :
    Outcome.of (respond msg first) = Outcome.of (respond msg second) := by
  rw [respond_nak first_nak, respond_nak second_nak, Outcome.of, Outcome.of, same]

/-! ## The last option -/

def Hopeless (address : UInt32) : Prop :=
  address = 0 ∨ address = 0xffffffff

def askedBy (msg : Memory UInt8) (places : List ℕ) : List UInt32 :=
  places.filterMap (namedAddress msg)

/-- The last option visited is whole, or it is a message-type option that adds nothing: an earlier
one has made the message a request, and what it may name is no address, the last one asked for
anyway, or as hopeless as all the others. -/
def ReadsReceived (msg : Memory UInt8) (len : ℕ) : Prop :=
  acceptsHeader msg len = true → ∀ front last, options msg len = front ++ [last] →
    ¬AddressCut msg len last ∧
      (TypeCut msg len last → front.any (isRequest msg) = true ∧
        (ciaddr msg = 0 ∨ (askedBy msg front).getLast? = some (ciaddr msg) ∨
          ∀ address ∈ askedBy msg front, Hopeless address))

theorem parseOptions_concat (dhcps : Dhcps) (visited : options msg len = front ++ [last]) :
    parseOptions dhcps msg len = decideResponse (chaddr msg)
      (hear (ciaddr msg) (front.foldl (readOption msg) (.initial dhcps)) (told msg last)) := by
  have visited : optionPlaces msg len (len - sizeofBootpHeader) sizeofBootpHeader =
      front ++ [last] := visited
  rw [parseOptions, optionLoop_eq_foldl, visited, List.foldl_append, List.foldl_cons,
    List.foldl_nil, readOption_eq]

theorem foldl_readOption_congr (alike : Alike sizeofBootpHeader msg other)
    (same : ∀ place ∈ front, told other place = told msg place) (parse : Parse) :
    front.foldl (readOption other) parse = front.foldl (readOption msg) parse := by
  apply List.foldl_ext
  intro parse place member
  have chaddr_eq : chaddr other = chaddr msg := (alike.load (by decide)).symm
  have ciaddr_eq : ciaddr other = ciaddr msg := (alike.loadWord (by decide)).symm
  rw [readOption_eq, readOption_eq, same place member, chaddr_eq, ciaddr_eq]

/-- Once the message is a request, a message-type option adds nothing when it can name nothing
new. -/
theorem decideResponse_hear_type {mac : List UInt8} {parse : Parse} {ciaddr : UInt32}
    {heard : Told} (requested : parse.needIp = true)
    (nothing_new : ciaddr = 0 ∨ parse.dhcps.clientIp = ciaddr ∧ parse.gotClientIp = true)
    (typed : heard = .nothing ∨ heard = .discover ∨ heard = .request) :
    decideResponse mac (hear ciaddr parse heard) = decideResponse mac parse := by
  rcases typed with rfl | rfl | rfl
  · rfl
  · simp [hear, decideResponse, requested]
  · rcases nothing_new with rfl | ⟨rfl, named⟩
    · simp [hear, decideResponse, requested]
    · simp [hear, decideResponse, requested, named, Dhcps.setClientIp]

/-! ## Hopeless addresses -/

theorem Hopeless.not_assignable {address : UInt32} (hopeless : Hopeless address) :
    ¬Assignable dhcps address := by
  intro assignable
  rcases hopeless with rfl | rfl
  · exact assignable.ne_notFound rfl
  · have subnet : (0xffffffff : UInt32) &&& dhcps.netmask = dhcps.myIp &&& dhcps.netmask :=
      of_decide_eq_true assignable.subnet
    apply assignable.not_broadcast
    apply eq_of_bits
    intro bit inside
    have bits := congrArg (fun word : UInt32 => word.toBitVec.getLsbD bit) subnet
    have one : (0xffffffff : UInt32).toBitVec.getLsbD bit = true := by
      interval_cases bit <;> rfl
    simp only [UInt32.toBitVec_and, UInt32.toBitVec_or, UInt32.toBitVec_not, BitVec.getLsbD_and,
      BitVec.getLsbD_or, BitVec.getLsbD_not, one, Bool.true_and, inside, decide_true] at bits ⊢
    rw [bits]
    cases dhcps.myIp.toBitVec.getLsbD bit <;> simp_all

theorem Hopeless.unusable {address : UInt32} (hopeless : Hopeless address) :
    usable dhcps address = false := by
  rw [Bool.eq_false_iff]
  intro valid
  rw [usable, Bool.and_eq_true] at valid
  exact hopeless.not_assignable ((acValidIp_iff valid.1).mp valid.2).1

theorem foldl_ask_hopeless (kept : CacheInvariant dhcps) (mac : List UInt8) {asked : List UInt32}
    (hopeless : ∀ address ∈ asked, Hopeless address) :
    let result := asked.foldl (ask mac) (dhcps, false)
    result.1.ipMacMapping = dhcps.ipMacMapping ∧ result.2 = false := by
  by_cases missing : acLookupMac dhcps mac = clientIpNotFound
  · exact foldl_ask_unusable missing false fun address member => (hopeless address member).unusable
  · have cached := acLookupMac_mem missing
    obtain ⟨mapping, verdict⟩ := foldl_ask_cached kept cached false asked
    refine ⟨mapping, verdict.trans ?_⟩
    rcases judged : lastInSubnet dhcps asked with _ | last
    · rfl
    · rw [lastInSubnet] at judged
      have member := List.mem_of_mem_filter (List.mem_of_getLast? judged)
      simp only [decide_eq_false_iff_not]
      rintro rfl
      exact (hopeless _ member).not_assignable (kept.assignable _ cached)

theorem LoopState.refused (kept : CacheInvariant dhcps) {places : List ℕ} {parse : Parse}
    (state : LoopState msg dhcps places parse) (requested : places.any (isRequest msg) = true)
    (hopeless : ∀ address ∈ askedBy msg places, Hopeless address) :
    parse.responseType = some .nak ∧ parse.dhcps.ipMacMapping = dhcps.ipMacMapping := by
  obtain ⟨mapping, verdict⟩ := foldl_ask_hopeless kept (chaddr msg) hopeless
  obtain ⟨dhcps_eq, gotIp_eq⟩ := Prod.mk.inj state.asked
  have ungranted : parse.gotIp = false := gotIp_eq.trans verdict
  rw [state.requested (state.needIp.trans requested), ungranted, dhcps_eq]
  exact ⟨rfl, mapping⟩

theorem askedBy_concat (msg : Memory UInt8) (front : List ℕ) (last : ℕ) :
    askedBy msg (front ++ [last]) = askedBy msg front ++ (namedAddress msg last).toList := by
  rw [askedBy, List.filterMap_append]
  rfl

theorem ciaddr_mem_askedBy (requested : front.any (isRequest msg) = true)
    (nonzero : ciaddr msg ≠ 0) : ciaddr msg ∈ askedBy msg front := by
  obtain ⟨place, member, request⟩ := List.any_eq_true.mp requested
  refine List.mem_filterMap.mpr ⟨place, member, ?_⟩
  simp [namedAddress, request, nonzero]

theorem namedAddress_of_type (typed : msg opt = 53) {address : UInt32}
    (named : namedAddress msg opt = some address) : address = ciaddr msg ∧ ciaddr msg ≠ 0 := by
  rw [namedAddress_eq] at named
  rcases told_of_typeCut typed with told_eq | told_eq | told_eq <;> rw [told_eq] at named
  · contradiction
  · contradiction
  · simp only at named
    split at named
    · rename_i nonzero
      exact ⟨(Option.some.inj named).symm, nonzero⟩
    · contradiction

theorem askedBy_congr (alike : Alike sizeofBootpHeader msg other)
    (same : ∀ place ∈ front, told other place = told msg place) :
    askedBy other front = askedBy msg front := by
  have ciaddr_eq : ciaddr other = ciaddr msg := (alike.loadWord (by decide)).symm
  apply List.filterMap_congr
  intro place member
  rw [namedAddress_eq, namedAddress_eq, same place member, ciaddr_eq]

theorem any_isRequest_congr (same : ∀ place ∈ front, told other place = told msg place) :
    front.any (isRequest other) = front.any (isRequest msg) := by
  rw [Bool.eq_iff_iff, List.any_eq_true, List.any_eq_true]
  apply exists_congr
  intro place
  apply and_congr_right
  intro member
  rw [isRequest_iff, isRequest_iff, same place member]

/-- A request for hopeless addresses is refused whatever its last message-type option says. -/
theorem parseOptions_refused (kept : CacheInvariant dhcps)
    (visited : options msg len = front ++ [last]) (typed : msg last = 53)
    (requested : front.any (isRequest msg) = true)
    (hopeless : ∀ address ∈ askedBy msg front, Hopeless address) :
    (parseOptions dhcps msg len).responseType = some .nak ∧
      (parseOptions dhcps msg len).dhcps.ipMacMapping = dhcps.ipMacMapping := by
  have state := loopState_parseOptions kept msg len
  rw [visited] at state
  apply state.refused kept
  · rw [List.any_append, requested, Bool.true_or]
  · intro address member
    rw [askedBy_concat, List.mem_append, Option.mem_toList] at member
    rcases member with earlier | named
    · exact hopeless address earlier
    · obtain ⟨rfl, nonzero⟩ := namedAddress_of_type typed named
      exact hopeless _ (ciaddr_mem_askedBy requested nonzero)

theorem outcome_congr (kept : CacheInvariant dhcps) (reads : ReadsReceived msg len)
    (alike : Alike len msg other) : outcome dhcps other len = outcome dhcps msg len := by
  by_cases accepts : acceptsHeader msg len = true
  · have long : sizeofBootpHeader + sizeofBootpOption + 1 ≤ len := (of_decide_eq_true accepts).1
    have header : Alike sizeofBootpHeader msg other := alike.mono (by omega)
    have chaddr_eq : chaddr other = chaddr msg := (header.load (by decide)).symm
    have ciaddr_eq : ciaddr other = ciaddr msg := (header.loadWord (by decide)).symm
    have options_eq : options other len = options msg len :=
      optionPlaces_congr (alike.mono (by omega))
    rw [outcome_of_accepts accepts, outcome_of_accepts ((acceptsHeader_congr alike).trans accepts),
      respond_congr header]
    rcases List.eq_nil_or_concat' (options msg len) with none_visited | ⟨front, last, visited⟩
    · have parsed : ∀ memory, options memory len = [] →
          parseOptions dhcps memory len = .initial dhcps := by
        intro memory visited
        have visited : optionPlaces memory len (len - sizeofBootpHeader) sizeofBootpHeader = [] :=
          visited
        rw [parseOptions, optionLoop_eq_foldl, visited]
        rfl
      rw [parsed msg none_visited, parsed other (options_eq.trans none_visited)]
    · obtain ⟨-, inside, whole⟩ := optionPlaces_concat visited
      have inside : last < len := by omega
      have same : ∀ place ∈ front, told other place = told msg place := fun place member =>
        told_congr (alike.mono inside.le) (whole place member)
      have parsed := parseOptions_concat dhcps visited
      have other_parsed := parseOptions_concat dhcps (options_eq.trans visited)
      rw [foldl_readOption_congr header same, chaddr_eq, ciaddr_eq] at other_parsed
      obtain ⟨address_uncut, type_cut⟩ := reads accepts front last visited
      by_cases cut : TypeCut msg len last
      · obtain ⟨requested, nothing_new⟩ := type_cut cut
        have state := loopState_foldl kept msg front
        have typed : other last = 53 := (alike last inside).symm.trans cut.1
        by_cases hopeless : ∀ address ∈ askedBy msg front, Hopeless address
        · obtain ⟨nak, mapping⟩ := parseOptions_refused kept visited cut.1 requested hopeless
          rw [← askedBy_congr header same] at hopeless
          rw [← any_isRequest_congr same] at requested
          obtain ⟨other_nak, other_mapping⟩ :=
            parseOptions_refused kept (options_eq.trans visited) typed requested hopeless
          exact respond_nak_congr other_nak nak (other_mapping.trans mapping.symm)
        · have quiet : ciaddr msg = 0 ∨
              (front.foldl (readOption msg) (.initial dhcps)).dhcps.clientIp = ciaddr msg ∧
                (front.foldl (readOption msg) (.initial dhcps)).gotClientIp = true := by
            rcases nothing_new with zero | last_asked | all_hopeless
            · exact Or.inl zero
            · obtain ⟨dhcps_eq, -⟩ := Prod.mk.inj state.asked
              refine Or.inr ⟨?_, state.gotClientIp.mpr ?_⟩
              · rw [dhcps_eq, clientIp_foldl_ask]
                exact congrArg (fun asked => Option.getD asked dhcps.clientIp) last_asked
              · intro none_asked
                rw [askedBy, none_asked, List.getLast?_nil] at last_asked
                exact Option.some_ne_none _ last_asked.symm
            · exact absurd all_hopeless hopeless
          have needed := state.needIp.trans requested
          rw [parsed, other_parsed,
            decideResponse_hear_type needed quiet (told_of_typeCut cut.1),
            decideResponse_hear_type needed quiet (told_of_typeCut typed)]
      · rw [parsed, other_parsed, told_congr_of_uncut alike inside cut address_uncut]
  · have refused : acceptsHeader other len = false := by
      rw [acceptsHeader_congr alike]
      exact Bool.eq_false_iff.mpr accepts
    rw [outcome, outcome, processDhcpMessage, processDhcpMessage, if_neg accepts, refused]
    rfl

end BdkFreertos.Dhcp
