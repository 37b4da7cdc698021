import BdkFreertos.DhcpServer
import Mathlib.Data.List.Nodup

/-!
# The address cache stays a set of distinct assignments

An entry is added for a hardware address that has none, with an address of the subnet that is
neither reserved nor cached.  This holds for each of the places that add one, so it holds after any
sequence of messages.
-/

namespace BdkFreertos.Dhcp

variable {dhcps : Dhcps} {address : UInt32} {mac : List UInt8}

/-- An address of the subnet other than the server's, the network's and the broadcast address. -/
structure Assignable (dhcps : Dhcps) (address : UInt32) : Prop where
  subnet : inSubnet dhcps address = true
  not_server : address ≠ dhcps.myIp
  not_network : address ≠ dhcps.myIp &&& dhcps.netmask
  not_broadcast : address ≠ dhcps.myIp ||| ~~~dhcps.netmask

variable {after before : Dhcps} (msg : Memory UInt8) (opt : ℕ) (parse : Parse)

theorem inSubnet_congr (mask : after.netmask = dhcps.netmask) (own : after.myIp = dhcps.myIp)
    (address : UInt32) : inSubnet after address = inSubnet dhcps address := by
  rw [inSubnet, inSubnet, mask, own]

theorem Assignable.congr (assignable : Assignable dhcps address)
    (mask : after.netmask = dhcps.netmask) (own : after.myIp = dhcps.myIp) :
    Assignable after address := by
  obtain ⟨subnet, not_server, not_network, not_broadcast⟩ := assignable
  refine ⟨?_, ?_, ?_, ?_⟩
  · rwa [inSubnet_congr mask own]
  · rwa [own]
  · rwa [own, mask]
  · rwa [own, mask]

/-- The cache is a set of distinct assignments of assignable addresses. -/
structure CacheInvariant (dhcps : Dhcps) : Prop where
  size : dhcps.ipMacMapping.length ≤ macIpCacheSize
  macs : (dhcps.ipMacMapping.map ClientMacCache.clientMac).Nodup
  ips : (dhcps.ipMacMapping.map ClientMacCache.clientIp).Nodup
  assignable : ∀ entry ∈ dhcps.ipMacMapping, Assignable dhcps entry.clientIp

/-! ## Lookups -/

theorem Assignable.ne_notFound (assignable : Assignable dhcps address) :
    address ≠ clientIpNotFound := by
  rintro rfl
  have subnet : clientIpNotFound &&& dhcps.netmask = dhcps.myIp &&& dhcps.netmask :=
    of_decide_eq_true assignable.subnet
  apply assignable.not_network
  rw [← subnet]
  simp [clientIpNotFound]

theorem acLookupMac_of_mem (kept : CacheInvariant dhcps) {entry : ClientMacCache}
    (member : entry ∈ dhcps.ipMacMapping) :
    acLookupMac dhcps entry.clientMac = entry.clientIp := by
  rcases found : dhcps.ipMacMapping.find? (fun other => other.clientMac = entry.clientMac) with
    _ | other
  · exact absurd (List.find?_eq_none.mp found entry member) (by simp)
  · have same : other.clientMac = entry.clientMac := by simpa using List.find?_some found
    have equal := List.inj_on_of_nodup_map kept.macs (List.mem_of_find?_eq_some found) member same
    rw [acLookupMac, found, equal]

theorem acLookupMac_eq_notFound_iff (kept : CacheInvariant dhcps) :
    acLookupMac dhcps mac = clientIpNotFound ↔
      ∀ entry ∈ dhcps.ipMacMapping, entry.clientMac ≠ mac := by
  constructor
  · intro missing entry member same
    subst same
    rw [acLookupMac_of_mem kept member] at missing
    exact (kept.assignable entry member).ne_notFound missing
  · intro others
    have absent : (dhcps.ipMacMapping.find? fun entry => entry.clientMac = mac) = none := by
      simpa using others
    rw [acLookupMac, absent]

theorem acLookupMac_mem (found : acLookupMac dhcps mac ≠ clientIpNotFound) :
    ⟨mac, acLookupMac dhcps mac⟩ ∈ dhcps.ipMacMapping := by
  rcases search : dhcps.ipMacMapping.find? (fun entry => entry.clientMac = mac) with _ | entry
  · rw [acLookupMac, search] at found
    exact absurd rfl found
  · have same : entry.clientMac = mac := by simpa using List.find?_some search
    have member := List.mem_of_find?_eq_some search
    rw [acLookupMac, search, ← same]
    exact member

theorem acLookupIp_isNone_iff :
    (acLookupIp dhcps address).isNone = true ↔
      ∀ entry ∈ dhcps.ipMacMapping, entry.clientIp ≠ address := by
  simp [acLookupIp]

theorem acValidIp_iff (subnet : inSubnet dhcps address = true) :
    acValidIp dhcps (ntohl address) = true ↔
      Assignable dhcps address ∧ ∀ entry ∈ dhcps.ipMacMapping, entry.clientIp ≠ address := by
  have ones : (0xffffffff : UInt32) &&& ~~~dhcps.netmask = ~~~dhcps.netmask := by
    have minus_one : (0xffffffff : UInt32) = -1 := rfl
    rw [minus_one, UInt32.neg_one_and]
  rw [acValidIp, ones]
  simp only [ntohl, htonl_inj, htonl_htonl]
  constructor
  · intro valid
    split at valid
    · contradiction
    · rename_i unreserved
      rw [not_or, not_or] at unreserved
      exact ⟨⟨subnet, unreserved.1, unreserved.2.1, unreserved.2.2⟩,
        acLookupIp_isNone_iff.mp valid⟩
  · rintro ⟨assignable, uncached⟩
    rw [if_neg]
    · exact acLookupIp_isNone_iff.mpr uncached
    · rw [not_or, not_or]
      exact ⟨assignable.not_server, assignable.not_network, assignable.not_broadcast⟩

/-! ## Adding an entry -/

theorem CacheInvariant.congr (kept : CacheInvariant dhcps)
    (mapping : after.ipMacMapping = dhcps.ipMacMapping) (mask : after.netmask = dhcps.netmask)
    (own : after.myIp = dhcps.myIp) : CacheInvariant after := by
  obtain ⟨size, macs, ips, assignable⟩ := kept
  refine ⟨by rwa [mapping], by rwa [mapping], by rwa [mapping], ?_⟩
  intro entry member
  rw [mapping] at member
  exact (assignable entry member).congr mask own

theorem CacheInvariant.acAdd (kept : CacheInvariant dhcps)
    (missing : acLookupMac dhcps mac = clientIpNotFound)
    (assignable : Assignable dhcps address)
    (uncached : ∀ entry ∈ dhcps.ipMacMapping, entry.clientIp ≠ address) :
    CacheInvariant (acAdd dhcps mac address) := by
  rcases room : acNotFull dhcps with _ | _
  · rw [Dhcp.acAdd, room]
    exact kept
  · rw [Dhcp.acAdd, room, if_pos rfl]
    have fresh := (acLookupMac_eq_notFound_iff kept).mp missing
    have short : dhcps.ipMacMapping.length < macIpCacheSize := of_decide_eq_true room
    constructor
    · rw [List.length_append, List.length_singleton]
      exact short
    · rw [List.map_append, List.nodup_append]
      refine ⟨kept.macs, List.nodup_singleton _, ?_⟩
      intro left left_member right right_member same
      obtain ⟨entry, member, rfl⟩ := List.mem_map.mp left_member
      exact fresh entry member (same.trans (List.mem_singleton.mp right_member))
    · rw [List.map_append, List.nodup_append]
      refine ⟨kept.ips, List.nodup_singleton _, ?_⟩
      intro left left_member right right_member same
      obtain ⟨entry, member, rfl⟩ := List.mem_map.mp left_member
      exact uncached entry member (same.trans (List.mem_singleton.mp right_member))
    · intro entry member
      rcases List.mem_append.mp member with earlier | last
      · exact (kept.assignable entry earlier).congr rfl rfl
      · rw [List.mem_singleton.mp last]
        exact assignable.congr rfl rfl

/-! ## The three places that add one -/

/-- The settings stay, entries are only added, and the invariant of the cache is kept. -/
structure Keeps (before after : Dhcps) : Prop where
  netmask : after.netmask = before.netmask
  myIp : after.myIp = before.myIp
  entries : before.ipMacMapping <+: after.ipMacMapping
  cache : CacheInvariant before → CacheInvariant after

theorem Keeps.refl (dhcps : Dhcps) : Keeps dhcps dhcps :=
  ⟨rfl, rfl, List.prefix_refl _, id⟩

theorem Keeps.trans {middle : Dhcps} (first : Keeps before middle) (second : Keeps middle after) :
    Keeps before after :=
  ⟨second.netmask.trans first.netmask, second.myIp.trans first.myIp,
    first.entries.trans second.entries, fun kept => second.cache (first.cache kept)⟩

theorem Keeps.of_cache_eq (netmask : after.netmask = before.netmask)
    (myIp : after.myIp = before.myIp) (mapping : after.ipMacMapping = before.ipMacMapping) :
    Keeps before after :=
  ⟨netmask, myIp, mapping ▸ List.prefix_refl _, fun kept => kept.congr mapping netmask myIp⟩

theorem acAdd_settings (dhcps : Dhcps) (mac : List UInt8) (address : UInt32) :
    (acAdd dhcps mac address).netmask = dhcps.netmask ∧
      (acAdd dhcps mac address).myIp = dhcps.myIp ∧
      dhcps.ipMacMapping <+: (acAdd dhcps mac address).ipMacMapping := by
  rw [acAdd]
  split
  · exact ⟨rfl, rfl, List.prefix_append _ _⟩
  · exact ⟨rfl, rfl, List.prefix_refl _⟩

theorem keeps_considerClientIp (mac : List UInt8) (dhcps : Dhcps) (gotIp : Bool) :
    Keeps dhcps (considerClientIp mac dhcps gotIp).1 := by
  rw [considerClientIp]
  split
  · rename_i subnet
    simp only
    split
    · exact .refl dhcps
    · rename_i missing
      rw [not_not] at missing
      split
      · rename_i valid
        obtain ⟨assignable, uncached⟩ := (acValidIp_iff subnet).mp valid
        split
        · obtain ⟨netmask, myIp, entries⟩ := acAdd_settings dhcps mac dhcps.clientIp
          exact ⟨netmask, myIp, entries, fun kept => kept.acAdd missing assignable uncached⟩
        · exact .refl dhcps
      · exact .refl dhcps
  · exact .refl dhcps

theorem inSubnet_nextIp (dhcps : Dhcps) : inSubnet dhcps (htonl (nextIp dhcps)) = true := by
  apply decide_eq_true
  apply eq_of_bits
  intro bit inside
  simp only [nextIp, ntohl, htonl_or, htonl_and, htonl_htonl, UInt32.toBitVec_and,
    UInt32.toBitVec_or, UInt32.toBitVec_not, BitVec.getLsbD_and, BitVec.getLsbD_or,
    BitVec.getLsbD_not]
  cases dhcps.netmask.toBitVec.getLsbD bit <;> simp

theorem inSubnet_moved (dhcps : Dhcps) :
    inSubnet { dhcps with currentIp := nextIp dhcps } (htonl (nextIp dhcps)) = true := by
  rw [inSubnet_congr rfl rfl]
  exact inSubnet_nextIp dhcps

theorem nextYiaddrLoop_valid {rounds : ℕ} {dhcps found : Dhcps}
    (subnet : inSubnet dhcps (htonl dhcps.currentIp) = true)
    (ended : nextYiaddrLoop rounds dhcps = some found) :
    (∃ current, found = { dhcps with currentIp := current } ∧
      inSubnet dhcps (htonl current) = true ∧ acValidIp dhcps current = true) := by
  induction rounds generalizing dhcps with
  | zero => contradiction
  | succ rounds induction =>
      rw [nextYiaddrLoop] at ended
      split at ended
      · rename_i valid
        obtain rfl := Option.some.inj ended
        exact ⟨dhcps.currentIp, rfl, subnet, valid⟩
      · obtain ⟨current, rfl, moved_subnet, valid⟩ := induction (inSubnet_moved dhcps) ended
        refine ⟨current, rfl, ?_, valid⟩
        rwa [inSubnet_congr rfl rfl] at moved_subnet

theorem keeps_nextYiaddr {newIp : UInt32} (chosen : nextYiaddr dhcps mac = some (after, newIp)) :
    Keeps dhcps after := by
  rw [nextYiaddr] at chosen
  generalize 2 ^ 32 + 1 = rounds at chosen
  simp only at chosen
  split at chosen
  · rename_i missing
    obtain ⟨found, ended, result⟩ := Option.map_eq_some_iff.mp chosen
    obtain ⟨rfl, -⟩ := Prod.mk.inj result
    obtain ⟨current, rfl, subnet, valid⟩ := nextYiaddrLoop_valid (inSubnet_moved dhcps) ended
    obtain ⟨netmask, myIp, entries⟩ :=
      acAdd_settings { dhcps with currentIp := current } mac (htonl current)
    refine ⟨netmask, myIp, entries, fun kept => ?_⟩
    have moved : CacheInvariant { dhcps with currentIp := current } := kept.congr rfl rfl rfl
    have subnet : inSubnet { dhcps with currentIp := current } (htonl current) = true := by
      rwa [inSubnet_congr rfl rfl] at subnet ⊢
    have valid : acValidIp { dhcps with currentIp := current } (ntohl (htonl current)) = true := by
      rw [ntohl, htonl_htonl]
      exact valid
    obtain ⟨assignable, uncached⟩ := (acValidIp_iff subnet).mp valid
    exact moved.acAdd missing assignable uncached
  · obtain ⟨rfl, -⟩ := Prod.mk.inj (Option.some.inj chosen)
    exact .refl dhcps

/-! ## Whole messages -/

theorem keeps_readMessageType : Keeps parse.dhcps (readMessageType msg opt parse).dhcps := by
  rw [readMessageType]
  split_ifs <;> exact .of_cache_eq rfl rfl rfl

theorem keeps_readRequestedIp : Keeps parse.dhcps (readRequestedIp msg opt parse).dhcps := by
  rw [readRequestedIp]
  split_ifs <;> exact .of_cache_eq rfl rfl rfl

theorem keeps_decideResponse (mac : List UInt8) (parse : Parse) :
    Keeps parse.dhcps (decideResponse mac parse).dhcps := by
  rw [decideResponse]
  rcases parse.gotClientIp with _ | _
  · exact .refl parse.dhcps
  · exact keeps_considerClientIp mac parse.dhcps parse.gotIp

theorem keeps_readOption (opt : ℕ) : Keeps parse.dhcps (readOption msg parse opt).dhcps :=
  (keeps_readMessageType msg opt parse).trans
    ((keeps_readRequestedIp msg opt _).trans (keeps_decideResponse (chaddr msg) _))

theorem keeps_optionLoop (rounds len opt : ℕ) (parse : Parse) :
    Keeps parse.dhcps (optionLoop msg rounds len opt parse).dhcps := by
  induction rounds generalizing len opt parse with
  | zero => exact .refl parse.dhcps
  | succ rounds induction =>
      rw [optionLoop]
      split
      · exact (keeps_readOption msg parse opt).trans (induction _ _ _)
      · exact .refl parse.dhcps

theorem keeps_makeResponse {msg : Memory UInt8} {type : ResponseType} {response : Memory UInt8 × ℕ}
    (made : makeResponse dhcps msg type = some (after, response)) : Keeps dhcps after := by
  obtain ⟨⟨assigned, newIp⟩, chosen, result⟩ := Option.map_eq_some_iff.mp made
  obtain ⟨rfl, -⟩ := Prod.mk.inj result
  cases type with
  | offer => exact keeps_nextYiaddr chosen
  | ack | nak =>
      obtain ⟨rfl, -⟩ := Prod.mk.inj (Option.some.inj chosen)
      exact .refl dhcps

theorem keeps_sendResponses (dhcps : Dhcps) (msg : Memory UInt8) (len : ℕ) :
    Keeps dhcps (sendResponses dhcps msg len).1 := by
  unfold sendResponses
  simp only
  split
  · exact .of_cache_eq rfl rfl rfl
  · exact .refl dhcps

theorem keeps_processDhcpMessage (dhcps : Dhcps) (msg : Memory UInt8) (len : ℕ) :
    Keeps dhcps (processDhcpMessage dhcps msg len).1 := by
  rw [processDhcpMessage]
  split
  · have parsed : Keeps dhcps (parseOptions dhcps msg len).dhcps :=
      keeps_optionLoop msg _ _ _ (.initial dhcps)
    simp only
    split
    · exact parsed
    · split
      · exact parsed
      · rename_i made
        exact parsed.trans ((keeps_makeResponse made).trans (keeps_sendResponses _ _ _))
  · exact .refl dhcps

theorem keeps_run (dhcps : Dhcps) (messages : List Received) :
    Keeps dhcps (dhcpServer.run ⟨dhcps, true⟩ messages).dhcps := by
  apply dhcpServer.run_invariant_of_step (fun server => Keeps dhcps server.dhcps) (.refl dhcps)
  intro server received keeps
  simp only [dhcpServer]
  split
  · exact keeps.trans (keeps_processDhcpMessage server.dhcps received.msg received.len)
  · exact keeps

theorem cacheInvariant_init (myIp netmask routerIp addressTimeout : UInt32)
    (nackDnsServer : Bool) :
    CacheInvariant (dhcpServerInit myIp netmask routerIp addressTimeout nackDnsServer) :=
  ⟨Nat.zero_le _, .nil, .nil, fun _ member => absurd member List.not_mem_nil⟩

/-- After any sequence of received messages, of any bytes and any length the receive loop admits,
the cache has at most eight entries, with distinct hardware addresses and distinct addresses, each
of them in the subnet and none of them the server's, the network's or the broadcast address. -/
theorem dhcp_cache_invariant (myIp netmask routerIp addressTimeout : UInt32) (nackDnsServer : Bool)
    (messages : List Received) :
    let start := dhcpServerInit myIp netmask routerIp addressTimeout nackDnsServer
    let dhcps := (dhcpServer.run ⟨start, true⟩ messages).dhcps
    (dhcps.netmask = netmask ∧ dhcps.myIp = myIp) ∧
      dhcps.ipMacMapping.length ≤ macIpCacheSize ∧
      (dhcps.ipMacMapping.map ClientMacCache.clientMac).Nodup ∧
      (dhcps.ipMacMapping.map ClientMacCache.clientIp).Nodup ∧
      ∀ entry ∈ dhcps.ipMacMapping,
        entry.clientIp &&& netmask = myIp &&& netmask ∧ entry.clientIp ≠ myIp ∧
          entry.clientIp ≠ myIp &&& netmask ∧ entry.clientIp ≠ myIp ||| ~~~netmask := by
  intro start dhcps
  have keeps : Keeps start dhcps := keeps_run start messages
  have kept : CacheInvariant dhcps := keeps.cache (cacheInvariant_init _ _ _ _ _)
  refine ⟨⟨keeps.netmask, keeps.myIp⟩, kept.size, kept.macs, kept.ips, ?_⟩
  intro entry member
  obtain ⟨subnet, not_server, not_network, not_broadcast⟩ := kept.assignable entry member
  have subnet := of_decide_eq_true subnet
  rw [keeps.netmask, keeps.myIp] at subnet not_network not_broadcast
  rw [keeps.myIp] at not_server
  exact ⟨subnet, not_server, not_network, not_broadcast⟩

end BdkFreertos.Dhcp
