import BdkFreertos.DhcpOptions

/-!
# Which address an acknowledgement carries

A request is acknowledged when `got_ip` is set at the end of the option loop, and the
acknowledgement carries the last address asked for.  The two need not agree: the flag keeps the
verdict on an earlier address when the last one lies outside the subnet, and it is never cleared for
a client that finds the cache full.
-/

namespace BdkFreertos.Dhcp

variable {dhcps : Dhcps} {mac : List UInt8}

/-! ## Asking for a list of addresses -/

/-- The address that is or becomes the client's: the cached one, or the first usable one asked for
when there is room to cache it. -/
def ownAddress (dhcps : Dhcps) (mac : List UInt8) (asked : List UInt32) : Option UInt32 :=
  if acLookupMac dhcps mac ≠ clientIpNotFound then
    some (acLookupMac dhcps mac)
  else if acNotFull dhcps then
    asked.find? (usable dhcps)
  else
    none

def lastInSubnet (dhcps : Dhcps) (asked : List UInt32) : Option UInt32 :=
  (asked.filter (inSubnet dhcps)).getLast?

theorem lastInSubnet_concat (dhcps : Dhcps) (front : List UInt32) (last : UInt32) :
    lastInSubnet dhcps (front ++ [last]) =
      if inSubnet dhcps last then some last else lastInSubnet dhcps front := by
  rcases inside : inSubnet dhcps last with _ | _ <;>
    simp [lastInSubnet, List.filter_append, inside]

variable {own : UInt32} {after : Dhcps} {asked : List UInt32} {start count len : ℕ}
  {packet : Packet}

theorem foldl_ask_cached (kept : CacheInvariant dhcps) (cached : ⟨mac, own⟩ ∈ dhcps.ipMacMapping)
    (gotIp : Bool) (asked : List UInt32) : let result := asked.foldl (ask mac) (dhcps, gotIp)
    result.1.ipMacMapping = dhcps.ipMacMapping ∧
      result.2 = match lastInSubnet dhcps asked with
        | none => gotIp
        | some last => decide (last = own) := by
  induction asked using List.reverseRecOn with
  | nil => exact ⟨rfl, rfl⟩
  | append_singleton front last induction =>
      have keeps := keeps_foldl_ask mac (dhcps, gotIp) front
      rw [List.foldl_append, List.foldl_cons, List.foldl_nil]
      generalize front.foldl (ask mac) (dhcps, gotIp) = state at keeps induction ⊢
      obtain ⟨mapping, verdict⟩ := induction
      have state_kept : CacheInvariant (state.1.setClientIp last) :=
        (keeps.cache kept).congr rfl rfl rfl
      rw [ask, considerClientIp_cached state_kept (mapping ▸ cached), lastInSubnet_concat]
      refine ⟨mapping, ?_⟩
      have subnet_eq : inSubnet (state.1.setClientIp last) last = inSubnet dhcps last :=
        inSubnet_congr keeps.netmask keeps.myIp last
      rw [verdict]
      change (if inSubnet (state.1.setClientIp last) last = true then _ else _) = _
      rw [subnet_eq]
      split
      · rfl
      · rfl

theorem usable_congr (mask : after.netmask = dhcps.netmask) (own : after.myIp = dhcps.myIp)
    (mapping : after.ipMacMapping = dhcps.ipMacMapping) : usable after = usable dhcps := by
  funext address
  simp [usable, inSubnet, acValidIp, acLookupIp, mask, own, mapping]

section

variable (missing : acLookupMac dhcps mac = clientIpNotFound)
include missing

theorem ask_missing {state : Dhcps × Bool} (keeps : Keeps dhcps state.1)
    (mapping : state.1.ipMacMapping = dhcps.ipMacMapping) (address : UInt32) :
    ask mac state address = if usable dhcps address
      then (acAdd (state.1.setClientIp address) mac address, true)
      else (state.1.setClientIp address, state.2) := by
  have missing_now : acLookupMac (state.1.setClientIp address) mac = clientIpNotFound := by
    rw [← missing, acLookupMac, acLookupMac, ← mapping]
    rfl
  have usable_eq : usable (state.1.setClientIp address) = usable dhcps :=
    usable_congr keeps.netmask keeps.myIp mapping
  rcases valid : usable dhcps address with _ | _
  · rw [← usable_eq] at valid
    exact considerClientIp_unusable missing_now valid
  · rw [← usable_eq] at valid
    exact considerClientIp_usable missing_now valid

theorem foldl_ask_unusable (gotIp : Bool)
    (unusable : ∀ address ∈ asked, usable dhcps address = false) :
    let result := asked.foldl (ask mac) (dhcps, gotIp)
    result.1.ipMacMapping = dhcps.ipMacMapping ∧ result.2 = gotIp := by
  induction asked using List.reverseRecOn with
  | nil => exact ⟨rfl, rfl⟩
  | append_singleton front last induction =>
      obtain ⟨mapping, verdict⟩ := induction fun address member =>
        unusable address (List.mem_append_left _ member)
      have keeps := keeps_foldl_ask mac (dhcps, gotIp) front
      rw [List.foldl_append, List.foldl_cons, List.foldl_nil, ask_missing missing keeps mapping,
        unusable last (by simp)]
      exact ⟨mapping, verdict⟩

/-- A client without an entry that finds the cache full is granted for good by one usable
address. -/
theorem foldl_ask_full (full : acNotFull dhcps = false) (gotIp : Bool) (asked : List UInt32) :
    let result := asked.foldl (ask mac) (dhcps, gotIp)
    result.1.ipMacMapping = dhcps.ipMacMapping ∧
      result.2 = (gotIp || asked.any (usable dhcps)) := by
  induction asked using List.reverseRecOn with
  | nil => exact ⟨rfl, (Bool.or_false gotIp).symm⟩
  | append_singleton front last induction =>
      obtain ⟨mapping, verdict⟩ := induction
      have keeps := keeps_foldl_ask mac (dhcps, gotIp) front
      rw [List.foldl_append, List.foldl_cons, List.foldl_nil, ask_missing missing keeps mapping,
        List.any_append]
      rcases valid : usable dhcps last with _ | _
      · refine ⟨mapping, ?_⟩
        simp only [Bool.false_eq_true, if_false, verdict]
        simp [valid]
      · have full_now : acNotFull ((front.foldl (ask mac) (dhcps, gotIp)).1.setClientIp last) =
            false := by
          rw [← full, acNotFull, acNotFull, ← mapping]
          rfl
        rw [if_pos rfl, acAdd_full full_now]
        exact ⟨mapping, by simp [valid]⟩

end

theorem lastInSubnet_append_cons (inside : inSubnet dhcps own = true) (front back : List UInt32) :
    lastInSubnet dhcps (front ++ own :: back) = some ((lastInSubnet dhcps back).getD own) := by
  rw [lastInSubnet, List.filter_append, List.filter_cons_of_pos inside, List.getLast?_append,
    List.getLast?_cons]
  rfl

/-- A client without an entry that finds room is recorded with the first usable address and judged
by the last address in the subnet from then on. -/
theorem foldl_ask_room (kept : CacheInvariant dhcps)
    (missing : acLookupMac dhcps mac = clientIpNotFound) (room : acNotFull dhcps = true)
    (first : asked.find? (usable dhcps) = some own) :
    let result := asked.foldl (ask mac) (dhcps, false)
    result.1.ipMacMapping = dhcps.ipMacMapping ++ [⟨mac, own⟩] ∧
      result.2 = decide (lastInSubnet dhcps asked = some own) := by
  obtain ⟨valid, front, back, rfl, unusable⟩ := List.find?_eq_some_iff_append.mp first
  have refused : ∀ address ∈ front, usable dhcps address = false := by simpa using unusable
  obtain ⟨mapping, -⟩ := foldl_ask_unusable missing false refused
  have keeps := keeps_foldl_ask mac (dhcps, false) front
  rw [List.foldl_append, List.foldl_cons]
  generalize front.foldl (ask mac) (dhcps, false) = state at keeps mapping ⊢
  have granted := ask_missing missing keeps mapping own
  have keeps := keeps.trans (keeps_ask mac state own)
  rw [if_pos valid] at granted
  rw [granted] at keeps ⊢
  have added : (acAdd (state.1.setClientIp own) mac own).ipMacMapping =
      dhcps.ipMacMapping ++ [⟨mac, own⟩] := by
    have room_now : acNotFull (state.1.setClientIp own) = true := by
      rw [← room, acNotFull, acNotFull, ← mapping]
      rfl
    rw [acAdd, if_pos room_now, ← mapping]
    rfl
  generalize acAdd (state.1.setClientIp own) mac own = recorded at keeps added ⊢
  have cached : ⟨mac, own⟩ ∈ recorded.ipMacMapping := by
    rw [added]
    exact List.mem_append_right _ List.mem_cons_self
  obtain ⟨mapping_after, verdict⟩ :=
    foldl_ask_cached (keeps.cache kept) cached true back
  refine ⟨mapping_after.trans added, ?_⟩
  have subnet_eq : inSubnet recorded = inSubnet dhcps :=
    funext (inSubnet_congr keeps.netmask keeps.myIp)
  have last_eq : lastInSubnet recorded back = lastInSubnet dhcps back := by
    rw [lastInSubnet, lastInSubnet, subnet_eq]
  rw [usable, Bool.and_eq_true] at valid
  rw [verdict, last_eq, lastInSubnet_append_cons valid.1]
  rcases lastInSubnet dhcps back with _ | last
  · simp
  · simp

theorem foldl_ask_verdict (kept : CacheInvariant dhcps) (mac : List UInt8) (asked : List UInt32) :
    let result := asked.foldl (ask mac) (dhcps, false)
    match ownAddress dhcps mac asked with
    | some own => ⟨mac, own⟩ ∈ result.1.ipMacMapping ∧
        (result.2 = true ↔ lastInSubnet dhcps asked = some own)
    | none => acLookupMac dhcps mac = clientIpNotFound ∧
        result.1.ipMacMapping = dhcps.ipMacMapping ∧ result.2 = asked.any (usable dhcps) := by
  intro result
  by_cases missing : acLookupMac dhcps mac = clientIpNotFound
  · rcases room : acNotFull dhcps with _ | _
    · have own_eq : ownAddress dhcps mac asked = none := by simp [ownAddress, missing, room]
      rw [own_eq]
      exact ⟨missing, foldl_ask_full missing room false asked⟩
    · have own_eq : ownAddress dhcps mac asked = asked.find? (usable dhcps) := by
        simp [ownAddress, missing, room]
      rw [own_eq]
      rcases first : asked.find? (usable dhcps) with _ | own
      · have unusable : ∀ address ∈ asked, usable dhcps address = false := by simpa using first
        obtain ⟨mapping, verdict⟩ := foldl_ask_unusable missing false unusable
        refine ⟨missing, mapping, verdict.trans ?_⟩
        exact (List.any_eq_false.mpr (by simpa using unusable)).symm
      · obtain ⟨mapping, verdict⟩ := foldl_ask_room kept missing room first
        refine ⟨?_, by simp [result, verdict]⟩
        rw [mapping]
        exact List.mem_append_right _ List.mem_cons_self
  · have cached := acLookupMac_mem missing
    have own_eq : ownAddress dhcps mac asked = some (acLookupMac dhcps mac) := by
      simp [ownAddress, missing]
    obtain ⟨mapping, verdict⟩ := foldl_ask_cached kept cached false asked
    rw [own_eq]
    refine ⟨mapping ▸ cached, ?_⟩
    rw [verdict]
    rcases lastInSubnet dhcps asked with _ | last
    · simp
    · simp

theorem clientIp_foldl_ask (mac : List UInt8) (state : Dhcps × Bool) (asked : List UInt32) :
    (asked.foldl (ask mac) state).1.clientIp = asked.getLast?.getD state.1.clientIp := by
  induction asked using List.reverseRecOn with
  | nil => rfl
  | append_singleton front last =>
      rw [List.foldl_append, List.foldl_cons, List.foldl_nil, List.getLast?_concat]
      exact clientIp_considerClientIp mac _ _

/-! ## Packets -/

/-- A packet whose first option says it is an acknowledgement. -/
def Packet.IsAck (packet : Packet) : Prop :=
  packet.msg.load 240 3 = [53, 1, 5]

theorem load_writeOptions (dhcps : Dhcps) (msg : Memory UInt8) (type : ResponseType)
    (header : start + count ≤ 240) :
    (writeOptions dhcps msg type).1.load start count = msg.load start count := by
  unfold writeOptions writeOption
  simp only
  split
  · rw [Memory.load_store_above _ _ header]
  · simp (disch := omega) only [Memory.load_store_above]

theorem load_type_writeOptions (dhcps : Dhcps) (msg : Memory UInt8) (type : ResponseType) :
    (writeOptions dhcps msg type).1.load 240 3 = [53, 1, type.code] := by
  rw [writeOptions, writeOption]
  simp only
  split
  · exact Memory.load_store_self msg 240 [53, 1, type.code]
  · simp (disch := omega) only [Memory.load_store_above]
    exact Memory.load_store_self msg 240 [53, 1, type.code]

theorem load_setBroadcast (msg : Memory UInt8) (broadcast : Bool) (behind : 11 ≤ start) :
    (setBroadcast msg broadcast).load start count = msg.load start count :=
  Memory.load_store_of_disjoint msg (Or.inr behind)

/-- A response to a request, of a type and with an address. -/
structure Carries (request response : Memory UInt8) (type : ResponseType) (address : UInt32) :
    Prop where
  type : response.load 240 3 = [53, 1, type.code]
  yiaddr : yiaddr response = address
  chaddr : chaddr response = chaddr request

theorem carries_written (dhcps : Dhcps) (msg : Memory UInt8) (type : ResponseType)
    (address : UInt32) :
    Carries msg (writeOptions dhcps (writeHeader msg address) type).1 type address := by
  constructor
  · exact load_type_writeOptions dhcps _ type
  · rw [yiaddr, Memory.loadWord_eq_of_load_eq (load_writeOptions dhcps _ type (by omega)),
      writeHeader, Memory.storeWord, Memory.storeWord,
      Memory.loadWord_store_of_disjoint _ (Or.inl (by omega)),
      Memory.loadWord_store_of_disjoint _ (Or.inl (by omega)), Memory.loadWord_storeWord_self]
  · rw [chaddr, load_writeOptions dhcps _ type (by omega), writeHeader]
    simp only [Memory.storeWord]
    repeat rw [Memory.load_store_of_disjoint _ (Or.inr (by simp))]
    rfl

theorem carries_sendResponses {request response : Memory UInt8} {type : ResponseType}
    {address : UInt32} (carries : Carries request response type address)
    (sent : packet ∈ (sendResponses dhcps response len).2) :
    Carries request packet.msg type address := by
  have flagged : ∃ broadcast, packet.msg = setBroadcast response broadcast := by
    unfold sendResponses at sent
    simp only at sent
    split at sent
    · rcases List.mem_cons.mp sent with rfl | sent
      · exact ⟨false, rfl⟩
      · exact ⟨true, by rw [List.eq_of_mem_replicate sent]⟩
    · exact ⟨true, by rw [List.eq_of_mem_replicate sent]⟩
  obtain ⟨broadcast, msg_eq⟩ := flagged
  rw [msg_eq]
  constructor
  · rw [load_setBroadcast _ _ (by omega)]
    exact carries.type
  · rw [← carries.yiaddr]
    exact Memory.loadWord_eq_of_load_eq (load_setBroadcast _ _ (by omega))
  · rw [← carries.chaddr]
    exact load_setBroadcast _ _ (by omega)

theorem mapping_sendResponses (dhcps : Dhcps) (msg : Memory UInt8) (len : ℕ) :
    (sendResponses dhcps msg len).1.ipMacMapping = dhcps.ipMacMapping := by
  unfold sendResponses
  simp only
  split <;> rfl

theorem sendResponses_ne_nil (dhcps : Dhcps) (msg : Memory UInt8) (len : ℕ) :
    (sendResponses dhcps msg len).2 ≠ [] := by
  unfold sendResponses
  simp only
  split <;> simp

/-! ## Acknowledgements -/

/-- Whether a message is acknowledged. -/
def Acknowledged (dhcps : Dhcps) (msg : Memory UInt8) (len : ℕ) : Prop :=
  acceptsHeader msg len = true ∧ requests msg len = true ∧
    ((askedAddresses msg len).foldl (ask (chaddr msg)) (dhcps, false)).2 = true

theorem acknowledged_iff (kept : CacheInvariant dhcps) {msg : Memory UInt8}
    (accepts : acceptsHeader msg len = true) :
    Acknowledged dhcps msg len ↔ (parseOptions dhcps msg len).responseType = some .ack := by
  obtain ⟨asked_eq, -, needIp, requested, unrequested⟩ := loopState_parseOptions kept msg len
  obtain ⟨-, gotIp_eq⟩ := Prod.mk.inj asked_eq
  constructor
  · rintro ⟨-, request, granted⟩
    rw [requested (needIp.trans request), gotIp_eq]
    exact congrArg some (if_pos granted)
  · intro acknowledges
    rcases needed : (parseOptions dhcps msg len).needIp with _ | _
    · exact absurd acknowledges (unrequested needed)
    · refine ⟨accepts, needIp.symm.trans needed, gotIp_eq.symm.trans ?_⟩
      rw [requested needed] at acknowledges
      rcases granted : (parseOptions dhcps msg len).gotIp with _ | _
      · simp [granted] at acknowledges
      · rfl

theorem processDhcpMessage_acknowledged (kept : CacheInvariant dhcps) {msg : Memory UInt8}
    (acknowledged : Acknowledged dhcps msg len) : let after := (processDhcpMessage dhcps msg len).1
    let packets := (processDhcpMessage dhcps msg len).2.packets
    let asked := askedAddresses msg len
    after.ipMacMapping = (asked.foldl (ask (chaddr msg)) (dhcps, false)).1.ipMacMapping ∧
      packets ≠ [] ∧
      ∀ packet ∈ packets, Carries msg packet.msg .ack (asked.getLast?.getD dhcps.clientIp) := by
  intro after packets asked
  have responds := (acknowledged_iff kept acknowledged.1).mp acknowledged
  obtain ⟨asked_eq, -, -, -, -⟩ := loopState_parseOptions kept msg len
  obtain ⟨dhcps_eq, -⟩ := Prod.mk.inj asked_eq
  let parsed := (parseOptions dhcps msg len).dhcps
  let response := writeOptions parsed (writeHeader msg parsed.clientIp) .ack
  have processed : processDhcpMessage dhcps msg len =
      ((sendResponses parsed response.1 response.2).1,
        ⟨some 0, (sendResponses parsed response.1 response.2).2,
          some (sendResponses parsed response.1 response.2).1.myIp⟩) := by
    simp only [processDhcpMessage, acknowledged.1, if_true, responds, makeResponse,
      Option.map_some]
    rfl
  have address_eq : parsed.clientIp = asked.getLast?.getD dhcps.clientIp := by
    rw [← clientIp_foldl_ask (chaddr msg) (dhcps, false)]
    exact congrArg Dhcps.clientIp dhcps_eq
  refine ⟨?_, ?_, ?_⟩
  · simp only [after, processed]
    exact (mapping_sendResponses _ _ _).trans (congrArg Dhcps.ipMacMapping dhcps_eq)
  · simp only [packets, processed]
    exact sendResponses_ne_nil _ _ _
  · intro packet sent
    simp only [packets, processed] at sent
    rw [← address_eq]
    exact carries_sendResponses (carries_written parsed msg .ack parsed.clientIp) sent

theorem processDhcpMessage_unacknowledged (kept : CacheInvariant dhcps) {msg : Memory UInt8}
    (unacknowledged : ¬Acknowledged dhcps msg len) :
    ∀ packet ∈ (processDhcpMessage dhcps msg len).2.packets, ¬packet.IsAck := by
  intro packet sent is_ack
  rw [processDhcpMessage] at sent
  simp only at sent
  split at sent
  · rename_i accepts
    split at sent
    · contradiction
    · rename_i type responds
      split at sent
      · contradiction
      · rename_i after response len made
        obtain ⟨⟨assigned, address⟩, -, written⟩ := Option.map_eq_some_iff.mp made
        obtain ⟨rfl, response_eq⟩ := Prod.mk.inj written
        have carries : Carries msg response type address := by
          rw [← (Prod.mk.inj response_eq).1]
          exact carries_written _ msg type address
        have codes := (carries_sendResponses carries sent).type.symm.trans is_ack
        cases type with
        | offer | nak => simp [ResponseType.code] at codes
        | ack => exact unacknowledged ((acknowledged_iff kept accepts).mpr responds)
  · contradiction

/-- The address of an acknowledgement is assignable and not cached for another client. -/
def SoundAck (after : Dhcps) (packet : Packet) : Prop :=
  Assignable after (yiaddr packet.msg) ∧
    ∀ entry ∈ after.ipMacMapping,
      entry.clientIp = yiaddr packet.msg → entry.clientMac = chaddr packet.msg

/-- A message does not meet the two faults of the flag: when the client has or gets an entry, the
last address asked for is its own whenever the last one in the subnet is; when it finds the cache
full, the last address asked for is usable whenever some is. -/
def FlagAgrees (dhcps : Dhcps) (msg : Memory UInt8) (len : ℕ) : Prop :=
  acceptsHeader msg len = true → requests msg len = true →
    let asked := askedAddresses msg len
    match ownAddress dhcps (chaddr msg) asked with
    | some own => lastInSubnet dhcps asked = some own → asked.getLast? = some own
    | none => asked.any (usable dhcps) = true →
        ∃ last, asked.getLast? = some last ∧ usable dhcps last = true

/-- With an entry for the client, an address is sound exactly when it is the client's own, given
that the last one in the subnet is. -/
theorem soundAck_iff_own (keeps : Keeps dhcps after) (kept : CacheInvariant after)
    {front : List UInt32} {last : UInt32} (cached : ⟨chaddr packet.msg, own⟩ ∈ after.ipMacMapping)
    (carries : yiaddr packet.msg = last)
    (judged : lastInSubnet dhcps (front ++ [last]) = some own) :
    SoundAck after packet ↔ last = own := by
  subst carries
  constructor
  · rintro ⟨assignable, -⟩
    have subnet := assignable.subnet
    rw [inSubnet_congr keeps.netmask keeps.myIp] at subnet
    rw [lastInSubnet_concat, if_pos subnet] at judged
    exact Option.some.inj judged
  · rintro rfl
    refine ⟨kept.assignable _ cached, ?_⟩
    intro entry member same
    rw [List.inj_on_of_nodup_map kept.ips member cached same]

theorem soundAck_iff_usable (keeps : Keeps dhcps after) (kept : CacheInvariant dhcps)
    (mapping : after.ipMacMapping = dhcps.ipMacMapping)
    (missing : acLookupMac dhcps (chaddr packet.msg) = clientIpNotFound) :
    SoundAck after packet ↔ usable dhcps (yiaddr packet.msg) = true := by
  have others := (acLookupMac_eq_notFound_iff kept).mp missing
  rw [SoundAck, mapping, usable, Bool.and_eq_true]
  constructor
  · rintro ⟨assignable, unshared⟩
    have assignable := assignable.congr keeps.netmask.symm keeps.myIp.symm
    refine ⟨assignable.subnet, (acValidIp_iff assignable.subnet).mpr ⟨assignable, ?_⟩⟩
    intro entry member same
    exact others entry member (unshared entry member same)
  · rintro ⟨subnet, valid⟩
    obtain ⟨assignable, uncached⟩ := (acValidIp_iff subnet).mp valid
    refine ⟨assignable.congr keeps.netmask keeps.myIp, ?_⟩
    intro entry member same
    exact absurd same (uncached entry member)

theorem forall_ack_iff {packets : List Packet} {sound : Packet → Prop} {condition : Prop}
    (sends : packets ≠ []) (acks : ∀ packet ∈ packets, packet.IsAck)
    (each : ∀ packet ∈ packets, (sound packet ↔ condition)) :
    (∀ packet ∈ packets, packet.IsAck → sound packet) ↔ condition := by
  constructor
  · intro every
    obtain ⟨packet, sent⟩ := List.exists_mem_of_ne_nil packets sends
    exact (each packet sent).mp (every packet sent (acks packet sent))
  · intro holds packet sent _
    exact (each packet sent).mpr holds

/-- The acknowledgements sent for a message are sound exactly when the flag agrees with the last
address asked for. -/
theorem soundAck_iff_flagAgrees (kept : CacheInvariant dhcps) (msg : Memory UInt8) (len : ℕ) :
    (∀ packet ∈ (processDhcpMessage dhcps msg len).2.packets, packet.IsAck →
      SoundAck (processDhcpMessage dhcps msg len).1 packet) ↔ FlagAgrees dhcps msg len := by
  have verdict := foldl_ask_verdict kept (chaddr msg) (askedAddresses msg len)
  by_cases acknowledged : Acknowledged dhcps msg len
  · obtain ⟨mapping, sends, carries⟩ := processDhcpMessage_acknowledged kept acknowledged
    have keeps := keeps_processDhcpMessage dhcps msg len
    obtain ⟨accepts, request, granted⟩ := acknowledged
    obtain ⟨front, last, asked_eq⟩ :=
      (List.eq_nil_or_concat' (askedAddresses msg len)).resolve_left fun none_asked => by
        simp [none_asked] at granted
    have acks := fun packet sent => (carries packet sent).type
    simp only [FlagAgrees, accepts, request, true_imp_iff]
    rw [asked_eq] at carries
    simp only [List.getLast?_concat, Option.getD_some] at carries
    split at verdict
    · have judged := verdict.2.mp granted
      rw [asked_eq] at judged ⊢
      simp only [judged, true_imp_iff, List.getLast?_concat, Option.some.injEq]
      refine forall_ack_iff sends acks fun packet sent => ?_
      refine soundAck_iff_own keeps (keeps.cache kept) ?_ (carries packet sent).yiaddr judged
      rw [mapping, (carries packet sent).chaddr]
      exact verdict.1
    · obtain ⟨missing, unchanged, some_usable⟩ := verdict
      rw [← some_usable, granted, asked_eq]
      simp only [true_imp_iff, List.getLast?_concat, Option.some.injEq, exists_eq_left']
      refine forall_ack_iff sends acks fun packet sent => ?_
      rw [← (carries packet sent).yiaddr]
      refine soundAck_iff_usable keeps kept (mapping.trans unchanged) ?_
      rw [(carries packet sent).chaddr]
      exact missing
  · constructor
    · intro _ accepts request
      have refused := fun granted => acknowledged ⟨accepts, request, granted⟩
      simp only
      split at verdict
      · intro judged
        exact absurd (verdict.2.mpr judged) refused
      · intro some_usable
        exact absurd (verdict.2.2.trans some_usable) refused
    · intro _ packet sent is_ack
      exact absurd is_ack (processDhcpMessage_unacknowledged kept acknowledged packet sent)

end BdkFreertos.Dhcp
