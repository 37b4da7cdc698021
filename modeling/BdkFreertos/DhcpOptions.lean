import BdkFreertos.DhcpCache

/-!
# What a message asks for

The option loop visits the options of a message in order.  Each of them may name an address, and
from the first one that does the loop considers the last named address again and again.  Asking
twice for one address is asking once, so the loop amounts to asking for the named addresses in turn.
-/

namespace BdkFreertos.Dhcp

variable {dhcps : Dhcps} {address : UInt32} {mac : List UInt8} {gotIp : Bool}

/-! ## The options of a message -/

/-- The places of the options the loop visits. -/
def optionPlaces (msg : Memory UInt8) : ℕ → ℕ → ℕ → List ℕ
  | 0, _, _ => []
  | rounds + 1, len, opt =>
      if 0 < len ∧ msg opt ≠ 0xFF then
        let consumed := sizeofBootpOption + (msg (opt + 1)).toNat
        opt :: optionPlaces msg rounds (len - consumed) (opt + consumed)
      else
        []

def options (msg : Memory UInt8) (len : ℕ) : List ℕ :=
  optionPlaces msg len (len - sizeofBootpHeader) sizeofBootpHeader

def isRequest (msg : Memory UInt8) (opt : ℕ) : Bool :=
  msg opt = 53 ∧ msg (opt + 1) = 1 ∧ msg (opt + 2) = 3

/-- The address an option names: the client's own, or the requested one. -/
def namedAddress (msg : Memory UInt8) (opt : ℕ) : Option UInt32 :=
  if isRequest msg opt ∧ ciaddr msg ≠ 0 then
    some (ciaddr msg)
  else if msg opt = 50 ∧ msg (opt + 1) = 4 then
    some (msg.loadWord (opt + 2))
  else
    none

def requests (msg : Memory UInt8) (len : ℕ) : Bool :=
  (options msg len).any (isRequest msg)

def askedAddresses (msg : Memory UInt8) (len : ℕ) : List UInt32 :=
  (options msg len).filterMap (namedAddress msg)

theorem optionLoop_eq_foldl (msg : Memory UInt8) (rounds len opt : ℕ) (parse : Parse) :
    optionLoop msg rounds len opt parse =
      (optionPlaces msg rounds len opt).foldl (readOption msg) parse := by
  induction rounds generalizing len opt parse with
  | zero => rfl
  | succ rounds induction =>
      rw [optionLoop, optionPlaces]
      split
      · exact induction _ _ _
      · rfl

/-! ## Asking for an address -/

/-- An address of the subnet that is valid for a client without an entry. -/
def usable (dhcps : Dhcps) (address : UInt32) : Bool :=
  inSubnet dhcps address && acValidIp dhcps (ntohl address)

theorem considerClientIp_cached (kept : CacheInvariant dhcps) {own : UInt32}
    (cached : ⟨mac, own⟩ ∈ dhcps.ipMacMapping) :
    considerClientIp mac dhcps gotIp =
      (dhcps, if inSubnet dhcps dhcps.clientIp then decide (dhcps.clientIp = own) else gotIp) := by
  have found : acLookupMac dhcps mac = own := acLookupMac_of_mem kept cached
  have nonzero : own ≠ clientIpNotFound := (kept.assignable _ cached).ne_notFound
  rw [considerClientIp]
  split
  · rw [found, if_pos nonzero]
    simp [eq_comm]
  · rfl

theorem considerClientIp_unusable (missing : acLookupMac dhcps mac = clientIpNotFound)
    (unusable : usable dhcps dhcps.clientIp = false) :
    considerClientIp mac dhcps gotIp = (dhcps, gotIp) := by
  rw [considerClientIp]
  split
  · rename_i subnet
    rw [usable, subnet, Bool.true_and] at unusable
    rw [if_neg (not_not.mpr missing), unusable]
    rfl
  · rfl

theorem considerClientIp_usable (missing : acLookupMac dhcps mac = clientIpNotFound)
    (valid : usable dhcps dhcps.clientIp = true) :
    considerClientIp mac dhcps gotIp = (acAdd dhcps mac dhcps.clientIp, true) := by
  rw [usable, Bool.and_eq_true] at valid
  rw [considerClientIp, if_pos valid.1, if_neg (not_not.mpr missing), if_pos valid.2]
  rcases room : acNotFull dhcps with _ | _
  · simp [acAdd, room]
  · rfl

/-- Ask for one address; the state carries `got_ip`. -/
def ask (mac : List UInt8) (state : Dhcps × Bool) (address : UInt32) : Dhcps × Bool :=
  considerClientIp mac (state.1.setClientIp address) state.2

theorem keeps_ask (mac : List UInt8) (state : Dhcps × Bool) (address : UInt32) :
    Keeps state.1 (ask mac state address).1 := by
  have assigned : Keeps state.1 (state.1.setClientIp address) := .of_cache_eq rfl rfl rfl
  exact assigned.trans (keeps_considerClientIp mac _ state.2)

theorem keeps_foldl_ask (mac : List UInt8) (state : Dhcps × Bool) (asked : List UInt32) :
    Keeps state.1 (asked.foldl (ask mac) state).1 := by
  induction asked generalizing state with
  | nil => exact .refl state.1
  | cons address asked induction => exact (keeps_ask mac state address).trans (induction _)

theorem clientIp_considerClientIp (mac : List UInt8) (dhcps : Dhcps) (gotIp : Bool) :
    (considerClientIp mac dhcps gotIp).1.clientIp = dhcps.clientIp := by
  rw [considerClientIp, acAdd]
  simp only
  split_ifs <;> rfl

theorem mem_acAdd (room : acNotFull dhcps = true) :
    ⟨mac, address⟩ ∈ (acAdd dhcps mac address).ipMacMapping := by
  rw [acAdd, if_pos room]
  exact List.mem_append_right _ List.mem_cons_self

theorem acAdd_full (full : acNotFull dhcps = false) : acAdd dhcps mac address = dhcps := by
  rw [acAdd, full]
  rfl

theorem CacheInvariant.acAdd_usable (kept : CacheInvariant dhcps)
    (missing : acLookupMac dhcps mac = clientIpNotFound) (valid : usable dhcps address = true) :
    CacheInvariant (Dhcp.acAdd dhcps mac address) := by
  rw [usable, Bool.and_eq_true] at valid
  obtain ⟨assignable, uncached⟩ := (acValidIp_iff valid.1).mp valid.2
  exact kept.acAdd missing assignable uncached

theorem considerClientIp_idempotent (kept : CacheInvariant dhcps) :
    considerClientIp mac (considerClientIp mac dhcps gotIp).1 (considerClientIp mac dhcps gotIp).2 =
      considerClientIp mac dhcps gotIp := by
  by_cases missing : acLookupMac dhcps mac = clientIpNotFound
  · rcases valid : usable dhcps dhcps.clientIp with _ | _
    · rw [considerClientIp_unusable missing valid, considerClientIp_unusable missing valid]
    · rw [considerClientIp_usable missing valid]
      rcases room : acNotFull dhcps with _ | _
      · rw [acAdd_full room, considerClientIp_usable missing valid, acAdd_full room]
      · rw [considerClientIp_cached (kept.acAdd_usable missing valid) (mem_acAdd room)]
        simp [acAdd, room]
  · have cached := acLookupMac_mem missing
    rw [considerClientIp_cached kept cached]
    simp only
    rw [considerClientIp_cached kept cached]
    split <;> rfl

/-! ## The loop asks for the named addresses in turn -/

/-- What the loop has established behind a list of options. -/
structure LoopState (msg : Memory UInt8) (dhcps : Dhcps) (places : List ℕ) (parse : Parse) :
    Prop where
  asked : (parse.dhcps, parse.gotIp) =
    (places.filterMap (namedAddress msg)).foldl (ask (chaddr msg)) (dhcps, false)
  gotClientIp : parse.gotClientIp = true ↔ places.filterMap (namedAddress msg) ≠ []
  needIp : parse.needIp = places.any (isRequest msg)
  requested : parse.needIp = true →
    parse.responseType = some (if parse.gotIp then .ack else .nak)
  unrequested : parse.needIp = false → parse.responseType ≠ some .ack

theorem named_readOption (msg : Memory UInt8) (opt : ℕ) (parse : Parse) :
    let named := readRequestedIp msg opt (readMessageType msg opt parse)
    (named.dhcps = match namedAddress msg opt with
      | some address => parse.dhcps.setClientIp address
      | none => parse.dhcps) ∧
    named.gotIp = parse.gotIp ∧
    (named.gotClientIp = (parse.gotClientIp || (namedAddress msg opt).isSome)) ∧
    (named.needIp = (parse.needIp || isRequest msg opt)) ∧
    (named.responseType = parse.responseType ∨ named.responseType = some .offer) := by
  by_cases type : msg opt = 53
  · have unnamed : ∀ parse, readRequestedIp msg opt parse = parse := by
      intro parse
      rw [readRequestedIp, type, if_neg (by simp)]
    simp only [unnamed, readMessageType, namedAddress, isRequest, type]
    by_cases single : msg (opt + 1) = 1
    · by_cases discover : msg (opt + 2) = 1
      · simp [single, discover]
      · by_cases request : msg (opt + 2) = 3
        · by_cases zero : ciaddr msg = 0 <;> simp [single, request, zero]
        · simp [single, discover, request]
    · simp [single]
  · have untyped : readMessageType msg opt parse = parse := by
      rw [readMessageType, if_neg (by simp [type])]
    simp only [untyped, readRequestedIp, namedAddress, isRequest, type]
    by_cases requested : msg opt = 50 ∧ msg (opt + 1) = 4 <;> simp [requested]

theorem decideResponse_eq (mac : List UInt8) (parse : Parse) :
    let decision := if parse.gotClientIp then considerClientIp mac parse.dhcps parse.gotIp
      else (parse.dhcps, parse.gotIp)
    decideResponse mac parse = { parse with
      dhcps := decision.1
      gotIp := decision.2
      responseType := if parse.needIp then some (if decision.2 then .ack else .nak)
        else parse.responseType } := rfl

theorem considerClientIp_foldl_ask (mac : List UInt8) (gotIp : Bool)
    (kept : CacheInvariant dhcps) {asked : List UInt32} (nonempty : asked ≠ []) :
    let state := asked.foldl (ask mac) (dhcps, gotIp)
    considerClientIp mac state.1 state.2 = state := by
  obtain ⟨front, last, rfl⟩ := (List.eq_nil_or_concat' asked).resolve_left nonempty
  rw [List.foldl_append, List.foldl_cons, List.foldl_nil]
  apply considerClientIp_idempotent
  exact ((keeps_foldl_ask mac (dhcps, gotIp) front).cache kept).congr rfl rfl rfl

theorem LoopState.readOption {msg : Memory UInt8} {places : List ℕ} {parse : Parse}
    (kept : CacheInvariant dhcps) (state : LoopState msg dhcps places parse) (opt : ℕ) :
    LoopState msg dhcps (places ++ [opt]) (readOption msg parse opt) := by
  obtain ⟨dhcps_eq, gotIp_eq, gotClientIp_eq, needIp_eq, response⟩ :=
    named_readOption msg opt parse
  rw [Dhcp.readOption, decideResponse_eq]
  generalize readRequestedIp msg opt (readMessageType msg opt parse) = named at *
  constructor
  · simp only [gotIp_eq, gotClientIp_eq, dhcps_eq]
    rw [List.filterMap_append, List.foldl_append, ← state.asked]
    rcases found : namedAddress msg opt with _ | address
    · have unchanged : [opt].filterMap (namedAddress msg) = [] := by simp [found]
      simp only [unchanged, List.foldl_nil, Option.isSome_none, Bool.or_false]
      split
      · rename_i named_before
        have again := considerClientIp_foldl_ask (chaddr msg) false kept
          (state.gotClientIp.mp named_before)
        rw [← state.asked] at again
        exact again
      · rfl
    · have added : [opt].filterMap (namedAddress msg) = [address] := by simp [found]
      simp only [added, List.foldl_cons, List.foldl_nil, Option.isSome_some, Bool.or_true, if_true]
      rfl
  · rw [List.filterMap_append]
    simp only [gotClientIp_eq, Bool.or_eq_true, state.gotClientIp]
    rcases found : namedAddress msg opt with _ | address <;> simp [found]
  · simp [needIp_eq, state.needIp]
  · intro needed
    exact if_pos needed
  · intro needless
    have needless : named.needIp = false := needless
    simp only [needless, Bool.false_eq_true, if_false]
    rcases response with same | offers
    · rw [same]
      apply state.unrequested
      rw [needIp_eq, Bool.or_eq_false_iff] at needless
      exact needless.1
    · simp [offers]

theorem loopState_foldl (kept : CacheInvariant dhcps) (msg : Memory UInt8) (places : List ℕ) :
    LoopState msg dhcps places (places.foldl (Dhcp.readOption msg) (.initial dhcps)) := by
  induction places using List.reverseRecOn with
  | nil =>
      constructor
      · rfl
      · simp [Parse.initial]
      · rfl
      · intro needed
        contradiction
      · intro _ responds
        contradiction
  | append_singleton places opt induction =>
      rw [List.foldl_append]
      exact induction.readOption kept opt

theorem loopState_parseOptions (kept : CacheInvariant dhcps) (msg : Memory UInt8) (len : ℕ) :
    LoopState msg dhcps (options msg len) (parseOptions dhcps msg len) := by
  rw [parseOptions, optionLoop_eq_foldl]
  exact loopState_foldl kept msg (options msg len)

end BdkFreertos.Dhcp
