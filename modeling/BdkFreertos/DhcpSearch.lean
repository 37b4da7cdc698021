import BdkFreertos.DhcpAssignment
import BdkFreertos.MaskedCounter

/-!
# The search for an address to offer

The last address taken is a counter whose bits of the network part are those of the server.  Adding
one carries over a bit of the network part that is one and stops at one that is zero, so the search
comes past the addresses that differ from the last one below the lowest such bit, and past no other.
When none of them is free it never ends.
-/

namespace BdkFreertos.Dhcp

open MaskedCounter

variable {dhcps : Dhcps} {address : UInt32} {mac : List UInt8}

/-! ## Addresses as numbers -/

/-- The network part of the server's address, in host order. -/
def networkPart (dhcps : Dhcps) : ℕ :=
  (ntohl (dhcps.myIp &&& dhcps.netmask)).toNat

def hostPart (dhcps : Dhcps) : ℕ :=
  (ntohl (~~~dhcps.netmask)).toNat

/-- An address which differs from the last one taken only below the lowest bit of the network part
that is zero. -/
def Searched (dhcps : Dhcps) (address : UInt32) : Prop :=
  SameAbove (networkPart dhcps) (hostPart dhcps) (ntohl address).toNat dhcps.currentIp.toNat

theorem mod_and_of_lt {value mask width : ℕ} (mask_lt : mask < 2 ^ width) :
    value % 2 ^ width &&& mask = value &&& mask := by
  apply Nat.eq_of_testBit_eq
  intro place
  rw [Nat.testBit_and, Nat.testBit_and, Nat.testBit_mod_two_pow]
  rcases Nat.lt_or_ge place width with inside | outside
  · simp [inside]
  · have above : mask < 2 ^ place := mask_lt.trans_le (Nat.pow_le_pow_right (by omega) outside)
    simp [Nat.testBit_lt_two_pow above]

theorem toNat_nextIp (dhcps : Dhcps) :
    (nextIp dhcps).toNat = next (networkPart dhcps) (hostPart dhcps) dhcps.currentIp.toNat := by
  rw [nextIp, UInt32.toNat_or, UInt32.toNat_and, UInt32.toNat_add, next,
    mod_and_of_lt (UInt32.toNat_lt _)]
  rfl

theorem masked_iff_inSubnet : Masked (networkPart dhcps) (hostPart dhcps) (ntohl address).toNat ↔
    inSubnet dhcps address = true := by
  have words : Masked (networkPart dhcps) (hostPart dhcps) (ntohl address).toNat ↔
      (dhcps.myIp &&& dhcps.netmask) ||| (address &&& ~~~dhcps.netmask) = address := by
    rw [Masked, networkPart, hostPart, ← UInt32.toNat_and, ← UInt32.toNat_or, UInt32.toNat_inj]
    simp [ntohl, ← htonl_and, ← htonl_or, htonl_inj]
  rw [words, inSubnet, decide_eq_true_eq]
  constructor
  · intro same
    rw [← same]
    apply eq_of_bits
    intro bit inside
    simp only [UInt32.toBitVec_and, UInt32.toBitVec_or, UInt32.toBitVec_not, BitVec.getLsbD_and,
      BitVec.getLsbD_or, BitVec.getLsbD_not]
    cases dhcps.netmask.toBitVec.getLsbD bit <;> simp
  · intro same
    rw [← same]
    apply eq_of_bits
    intro bit inside
    simp only [UInt32.toBitVec_and, UInt32.toBitVec_or, UInt32.toBitVec_not, BitVec.getLsbD_and,
      BitVec.getLsbD_or, BitVec.getLsbD_not]
    cases dhcps.netmask.toBitVec.getLsbD bit <;> simp [inside]

theorem masked_currentIp (inside : inSubnet dhcps (htonl dhcps.currentIp) = true) :
    Masked (networkPart dhcps) (hostPart dhcps) dhcps.currentIp.toNat := by
  have masked := masked_iff_inSubnet.mpr inside
  rwa [ntohl, htonl_htonl] at masked

/-! ## The addresses the search comes past -/

def afterRounds (dhcps : Dhcps) (rounds : ℕ) : UInt32 :=
  (fun current => nextIp { dhcps with currentIp := current })^[rounds] dhcps.currentIp

theorem toNat_afterRounds (dhcps : Dhcps) (rounds : ℕ) :
    (afterRounds dhcps rounds).toNat =
      (next (networkPart dhcps) (hostPart dhcps))^[rounds] dhcps.currentIp.toNat := by
  induction rounds with
  | zero => rfl
  | succ rounds induction =>
      rw [Function.iterate_succ_apply', ← induction, afterRounds, Function.iterate_succ_apply']
      exact toNat_nextIp _

theorem nextYiaddrLoop_eq_none_iff (rounds : ℕ) (dhcps : Dhcps) :
    nextYiaddrLoop rounds dhcps = none ↔
      ∀ earlier < rounds, acValidIp dhcps (afterRounds dhcps earlier) = false := by
  induction rounds generalizing dhcps with
  | zero => simp [nextYiaddrLoop]
  | succ rounds induction =>
      rw [nextYiaddrLoop]
      rcases valid : acValidIp dhcps dhcps.currentIp with _ | _
      · rw [if_neg Bool.false_ne_true, induction]
        constructor
        · intro later earlier short
          cases earlier with
          | zero => exact valid
          | succ earlier => exact later earlier (by omega)
        · intro every earlier short
          exact every (earlier + 1) (by omega)
      · rw [if_pos rfl]
        constructor
        · intro ended
          contradiction
        · intro every
          exact absurd (valid.symm.trans (every 0 (by omega))) (by simp)

/-- The search never ends exactly for a client without an entry when none of the addresses it comes
past is usable. -/
theorem nextYiaddr_eq_none_iff (inside : inSubnet dhcps (htonl dhcps.currentIp) = true) :
    nextYiaddr dhcps mac = none ↔
      acLookupMac dhcps mac = clientIpNotFound ∧
        ¬∃ address, usable dhcps address = true ∧ Searched dhcps address := by
  have masked := masked_currentIp inside
  rw [nextYiaddr]
  simp only
  generalize rounds_eq : 2 ^ 32 + 1 = rounds
  by_cases missing : acLookupMac dhcps mac = clientIpNotFound
  · rw [if_pos missing, Option.map_eq_none_iff, nextYiaddrLoop_eq_none_iff]
    have moved_masked := masked_next (networkPart dhcps) (hostPart dhcps) dhcps.currentIp.toNat
    rw [← toNat_nextIp] at moved_masked
    constructor
    · rintro never
      refine ⟨missing, ?_⟩
      rintro ⟨address, valid, searched⟩
      rw [usable, Bool.and_eq_true] at valid
      have ahead := (searched.symm.next masked)
      rw [← toNat_nextIp] at ahead
      obtain ⟨earlier, short, reached⟩ := exists_iterate_next 32 (UInt32.toNat_lt _)
        (UInt32.toNat_lt _) moved_masked (masked_iff_inSubnet.mpr valid.1) ahead
      have met : afterRounds { dhcps with currentIp := nextIp dhcps } earlier = ntohl address := by
        apply UInt32.toNat_inj.mp
        rw [toNat_afterRounds]
        exact reached
      have unmet := never earlier (by omega)
      rw [met] at unmet
      exact absurd (valid.2.symm.trans unmet) (by simp)
    · rintro ⟨-, none_usable⟩ earlier -
      rw [Bool.eq_false_iff]
      intro valid
      obtain ⟨still_masked, same⟩ := iterate_next moved_masked earlier
      have moved_same := (SameAbove.refl _ _ dhcps.currentIp.toNat).next masked
      rw [← toNat_nextIp] at moved_same
      let met := afterRounds { dhcps with currentIp := nextIp dhcps } earlier
      have met_eq := toNat_afterRounds { dhcps with currentIp := nextIp dhcps } earlier
      refine none_usable ⟨htonl met, ?_, ?_⟩
      · rw [usable, Bool.and_eq_true, ntohl, htonl_htonl]
        refine ⟨masked_iff_inSubnet.mp ?_, valid⟩
        rw [ntohl, htonl_htonl, met_eq]
        exact still_masked
      · rw [Searched, ntohl, htonl_htonl, met_eq]
        exact same.trans moved_same
  · simp [missing]

/-! ## What a search finds -/

variable {after : Dhcps} {newIp : UInt32} {bit : ℕ}

theorem nextYiaddr_sound (kept : CacheInvariant dhcps)
    (chosen : nextYiaddr dhcps mac = some (after, newIp)) :
    Assignable dhcps newIp ∧
      ∀ entry ∈ dhcps.ipMacMapping, entry.clientIp = newIp → entry.clientMac = mac := by
  rw [nextYiaddr] at chosen
  generalize 2 ^ 32 + 1 = rounds at chosen
  simp only at chosen
  split at chosen
  · obtain ⟨found, ended, result⟩ := Option.map_eq_some_iff.mp chosen
    obtain ⟨-, rfl⟩ := Prod.mk.inj result
    obtain ⟨current, rfl, subnet, valid⟩ := nextYiaddrLoop_valid (inSubnet_moved dhcps) ended
    have subnet : inSubnet dhcps (htonl current) = true := subnet
    have valid : acValidIp dhcps (ntohl (htonl current)) = true := by
      rw [ntohl, htonl_htonl]
      exact valid
    obtain ⟨assignable, uncached⟩ := (acValidIp_iff subnet).mp valid
    exact ⟨assignable, fun entry member same => absurd same (uncached entry member)⟩
  · rename_i found
    obtain ⟨-, rfl⟩ := Prod.mk.inj (Option.some.inj chosen)
    have cached := acLookupMac_mem found
    refine ⟨kept.assignable _ cached, ?_⟩
    intro entry member same
    rw [List.inj_on_of_nodup_map kept.ips member cached same]

/-- `next_yiaddr` ends, with an address that may be given to the client when one is left. -/
structure FindsAddress (dhcps : Dhcps) (mac : List UInt8) : Prop where
  free : (∃ address, usable dhcps address = true) →
    ∃ after newIp, nextYiaddr dhcps mac = some (after, newIp) ∧ Assignable dhcps newIp ∧
      ∀ entry ∈ dhcps.ipMacMapping, entry.clientIp = newIp → entry.clientMac = mac
  exhausted : (¬∃ address, usable dhcps address = true) →
    ∃ after newIp, nextYiaddr dhcps mac = some (after, newIp)

theorem findsAddress_iff_ends (kept : CacheInvariant dhcps) :
    FindsAddress dhcps mac ↔ nextYiaddr dhcps mac ≠ none := by
  constructor
  · rintro ⟨free, exhausted⟩ never
    by_cases left : ∃ address, usable dhcps address = true
    · obtain ⟨after, newIp, chosen, -⟩ := free left
      exact absurd (never.symm.trans chosen) (by simp)
    · obtain ⟨after, newIp, chosen⟩ := exhausted left
      exact absurd (never.symm.trans chosen) (by simp)
  · intro ends
    obtain ⟨⟨after, newIp⟩, chosen⟩ := Option.ne_none_iff_exists'.mp ends
    exact ⟨fun _ => ⟨after, newIp, chosen, nextYiaddr_sound kept chosen⟩,
      fun _ => ⟨after, newIp, chosen⟩⟩

/-! ## The last address taken lies in the subnet -/

theorem currentIp_considerClientIp (mac : List UInt8) (dhcps : Dhcps) (gotIp : Bool) :
    (considerClientIp mac dhcps gotIp).1.currentIp = dhcps.currentIp := by
  rw [considerClientIp, acAdd]
  simp only
  split_ifs <;> rfl

theorem currentIp_readOption (msg : Memory UInt8) (parse : Parse) (opt : ℕ) :
    (readOption msg parse opt).dhcps.currentIp = parse.dhcps.currentIp := by
  obtain ⟨named_dhcps, -⟩ := named_readOption msg opt parse
  rw [readOption, decideResponse_eq]
  generalize readRequestedIp msg opt (readMessageType msg opt parse) = named at *
  have unmoved : named.dhcps.currentIp = parse.dhcps.currentIp := by
    rw [named_dhcps]
    cases namedAddress msg opt <;> rfl
  simp only
  split
  · rw [currentIp_considerClientIp, unmoved]
  · exact unmoved

theorem currentIp_parseOptions (dhcps : Dhcps) (msg : Memory UInt8) (len : ℕ) :
    (parseOptions dhcps msg len).dhcps.currentIp = dhcps.currentIp := by
  rw [parseOptions, optionLoop_eq_foldl]
  induction optionPlaces msg len (len - sizeofBootpHeader) sizeofBootpHeader using
    List.reverseRecOn with
  | nil => rfl
  | append_singleton places opt induction =>
      rw [List.foldl_append, List.foldl_cons, List.foldl_nil, currentIp_readOption]
      exact induction

def CurrentInSubnet (dhcps : Dhcps) : Prop :=
  inSubnet dhcps (htonl dhcps.currentIp) = true

section

variable (inside : CurrentInSubnet dhcps)
include inside

theorem CurrentInSubnet.of_keeps (keeps : Keeps dhcps after)
    (current : after.currentIp = dhcps.currentIp) : CurrentInSubnet after := by
  rw [CurrentInSubnet, current, inSubnet_congr keeps.netmask keeps.myIp]
  exact inside

theorem CurrentInSubnet.nextYiaddr (chosen : nextYiaddr dhcps mac = some (after, newIp)) :
    CurrentInSubnet after := by
  have keeps := keeps_nextYiaddr chosen
  rw [Dhcp.nextYiaddr] at chosen
  generalize 2 ^ 32 + 1 = rounds at chosen
  simp only at chosen
  split at chosen
  · obtain ⟨found, ended, result⟩ := Option.map_eq_some_iff.mp chosen
    obtain ⟨rfl, -⟩ := Prod.mk.inj result
    obtain ⟨current, rfl, subnet, -⟩ := nextYiaddrLoop_valid (inSubnet_moved dhcps) ended
    rw [CurrentInSubnet, inSubnet_congr keeps.netmask keeps.myIp]
    have taken : (acAdd { dhcps with currentIp := current } mac (htonl current)).currentIp =
        current := by
      rw [acAdd]
      split <;> rfl
    rw [taken]
    exact subnet
  · obtain ⟨rfl, -⟩ := Prod.mk.inj (Option.some.inj chosen)
    exact inside

theorem CurrentInSubnet.makeResponse {msg : Memory UInt8} {type : ResponseType}
    {response : Memory UInt8 × ℕ} (made : makeResponse dhcps msg type = some (after, response)) :
    CurrentInSubnet after := by
  obtain ⟨⟨assigned, newIp⟩, chosen, result⟩ := Option.map_eq_some_iff.mp made
  obtain ⟨rfl, -⟩ := Prod.mk.inj result
  cases type with
  | offer => exact inside.nextYiaddr chosen
  | ack | nak =>
      obtain ⟨rfl, -⟩ := Prod.mk.inj (Option.some.inj chosen)
      exact inside

theorem CurrentInSubnet.sendResponses (msg : Memory UInt8) (len : ℕ) :
    CurrentInSubnet (sendResponses dhcps msg len).1 := by
  unfold Dhcp.sendResponses
  simp only
  split
  · exact inside
  · exact inside

theorem CurrentInSubnet.processDhcpMessage (msg : Memory UInt8) (len : ℕ) :
    CurrentInSubnet (processDhcpMessage dhcps msg len).1 := by
  rw [Dhcp.processDhcpMessage]
  split
  · have parsed : CurrentInSubnet (parseOptions dhcps msg len).dhcps :=
      inside.of_keeps (keeps_optionLoop msg _ _ _ (.initial dhcps))
        (currentIp_parseOptions dhcps msg len)
    simp only
    split
    · exact parsed
    · split
      · exact parsed
      · rename_i made
        exact (parsed.makeResponse made).sendResponses _ _
  · exact inside

end

theorem currentInSubnet_init (myIp netmask routerIp addressTimeout : UInt32)
    (nackDnsServer : Bool) :
    CurrentInSubnet (dhcpServerInit myIp netmask routerIp addressTimeout nackDnsServer) := by
  apply decide_eq_true
  apply eq_of_bits
  intro bit inside
  simp only [dhcpServerInit, ntohl, htonl_or, htonl_and, htonl_htonl, UInt32.toBitVec_and,
    UInt32.toBitVec_or, UInt32.toBitVec_not, BitVec.getLsbD_and, BitVec.getLsbD_or,
    BitVec.getLsbD_not]
  cases netmask.toBitVec.getLsbD bit <;> simp

theorem currentInSubnet_run (inside : CurrentInSubnet dhcps) (messages : List Received) :
    CurrentInSubnet (dhcpServer.run ⟨dhcps, true⟩ messages).dhcps := by
  have initial : (fun server : Server => CurrentInSubnet server.dhcps) ⟨dhcps, true⟩ := inside
  refine dhcpServer.run_invariant_of_step (fun server => CurrentInSubnet server.dhcps) initial ?_
    messages
  intro server received inside
  have handled : CurrentInSubnet (processDhcpMessage server.dhcps received.msg received.len).1 :=
    CurrentInSubnet.processDhcpMessage inside received.msg received.len
  simp only [dhcpServer]
  rcases server.running with _ | _
  · exact inside
  · exact handled

/-! ## Every reachable state -/

/-- In every reachable state, `next_yiaddr` ends, with an address that may be given to the client
when one is left, if and only if the client has an entry or some usable address differs from the
last one taken only below the lowest bit of the network part that is zero. -/
theorem next_yiaddr_finds_iff (myIp netmask routerIp addressTimeout : UInt32)
    (nackDnsServer : Bool) (messages : List Received) (mac : List UInt8) :
    let start := dhcpServerInit myIp netmask routerIp addressTimeout nackDnsServer
    let dhcps := (dhcpServer.run ⟨start, true⟩ messages).dhcps
    FindsAddress dhcps mac ↔
      (∃ entry ∈ dhcps.ipMacMapping, entry.clientMac = mac) ∨
        ∃ address, usable dhcps address = true ∧ Searched dhcps address := by
  intro start dhcps
  have kept : CacheInvariant dhcps :=
    (keeps_run start messages).cache (cacheInvariant_init _ _ _ _ _)
  have inside : CurrentInSubnet dhcps := currentInSubnet_run (currentInSubnet_init _ _ _ _ _) messages
  rw [findsAddress_iff_ends kept, Ne, nextYiaddr_eq_none_iff inside,
    acLookupMac_eq_notFound_iff kept, not_and_or, not_not]
  have known : (∃ entry ∈ dhcps.ipMacMapping, entry.clientMac = mac) ↔
      ¬∀ entry ∈ dhcps.ipMacMapping, entry.clientMac ≠ mac := by simp
  rw [known]

theorem testBit_ntohl (word : UInt32) (inside : bit < 32) :
    (ntohl word).toNat.testBit bit = word.toBitVec.getLsbD (8 * (3 - bit / 8) + bit % 8) := by
  rw [← getLsbD_htonl word inside]
  rfl

theorem testBit_hostPart (dhcps : Dhcps) (inside : bit < 32) :
    (hostPart dhcps).testBit bit = !(ntohl dhcps.netmask).toNat.testBit bit := by
  have opposite : 8 * (3 - bit / 8) + bit % 8 < 32 := by omega
  rw [hostPart, testBit_ntohl _ inside, testBit_ntohl _ inside, UInt32.toBitVec_not,
    BitVec.getLsbD_not]
  simp [opposite]

theorem searched_of_leading_ones (inside : CurrentInSubnet dhcps)
    (leading : ∀ lower bit, lower < bit → bit < 32 →
      (ntohl dhcps.netmask).toNat.testBit lower = true →
        (ntohl dhcps.netmask).toNat.testBit bit = true)
    (subnet : inSubnet dhcps address = true) : Searched dhcps address := by
  rintro bit ⟨lower, below, stops⟩
  have fixed : (hostPart dhcps).testBit bit = false := by
    rcases Nat.lt_or_ge bit 32 with short | long
    · have lower_mask := testBit_hostPart dhcps (below.trans short)
      rw [stops.2] at lower_mask
      rw [testBit_hostPart dhcps short, leading lower bit below short (by simpa using lower_mask)]
      rfl
    · apply Nat.testBit_lt_two_pow
      exact (UInt32.toNat_lt _).trans_le (Nat.pow_le_pow_right (by omega) long)
  rw [(masked_iff_inSubnet.mpr subnet).testBit fixed, (masked_currentIp inside).testBit fixed]

/-- In every reachable state of a server whose mask has its ones in front of its zeros, `next_yiaddr`
ends with an address if and only if the client has an entry or any address of the subnet is
usable. -/
theorem next_yiaddr_finds_of_leading_ones (myIp netmask routerIp addressTimeout : UInt32)
    (nackDnsServer : Bool) (messages : List Received) (mac : List UInt8)
    (leading : ∀ lower bit, lower < bit → bit < 32 →
      (ntohl netmask).toNat.testBit lower = true → (ntohl netmask).toNat.testBit bit = true) :
    let start := dhcpServerInit myIp netmask routerIp addressTimeout nackDnsServer
    let dhcps := (dhcpServer.run ⟨start, true⟩ messages).dhcps
    FindsAddress dhcps mac ↔
      (∃ entry ∈ dhcps.ipMacMapping, entry.clientMac = mac) ∨
        ∃ address, usable dhcps address = true := by
  intro start dhcps
  have keeps : Keeps start dhcps := keeps_run start messages
  have kept : CacheInvariant dhcps := keeps.cache (cacheInvariant_init _ _ _ _ _)
  have inside : CurrentInSubnet dhcps := currentInSubnet_run (currentInSubnet_init _ _ _ _ _) messages
  have netmask_eq : dhcps.netmask = netmask := keeps.netmask
  rw [← netmask_eq] at leading
  rw [findsAddress_iff_ends kept, Ne, nextYiaddr_eq_none_iff inside,
    acLookupMac_eq_notFound_iff kept, not_and_or, not_not]
  have known : (∃ entry ∈ dhcps.ipMacMapping, entry.clientMac = mac) ↔
      ¬∀ entry ∈ dhcps.ipMacMapping, entry.clientMac ≠ mac := by simp
  rw [known]
  refine or_congr_right (exists_congr fun address => and_iff_left_of_imp fun free => ?_)
  exact searched_of_leading_ones inside leading (Bool.and_eq_true_iff.mp free).1

theorem next_yiaddr_finds_of_thirty_ones :
    let start := dhcpServerInit 0x0100a8c0 0xfcffffff 0x0100a8c0 3600 false
    FindsAddress start [0, 0, 0, 0, 0, 2] ↔
      (∃ entry ∈ start.ipMacMapping, entry.clientMac = [0, 0, 0, 0, 0, 2]) ∨
        ∃ address, usable start address = true := by
  have bits : ∀ bit < 32, (ntohl 0xfcffffff).toNat.testBit bit = decide (2 ≤ bit) := by decide
  refine next_yiaddr_finds_of_leading_ones 0x0100a8c0 0xfcffffff 0x0100a8c0 3600 false [] _ ?_
  intro lower bit below short set
  rw [bits lower (by omega), decide_eq_true_iff] at set
  rw [bits bit short, decide_eq_true_iff]
  omega

/-! ## A subnet that is taken -/

theorem nextYiaddr_eq_none_of_closed (missing : acLookupMac dhcps mac = clientIpNotFound)
    (met : List UInt32) (first : nextIp dhcps ∈ met)
    (closed : ∀ current ∈ met, nextIp { dhcps with currentIp := current } ∈ met)
    (invalid : ∀ current ∈ met, acValidIp dhcps current = false) :
    nextYiaddr dhcps mac = none := by
  rw [nextYiaddr]
  simp only
  rw [if_pos missing, Option.map_eq_none_iff, nextYiaddrLoop_eq_none_iff]
  intro earlier _
  apply invalid
  induction earlier with
  | zero => exact first
  | succ earlier induction =>
      rw [afterRounds, Function.iterate_succ_apply']
      exact closed _ (induction (by omega))

/-- The server 192.168.0.1 of a subnet with one more address, which a client has asked for. -/
def smallSubnet : Dhcps :=
  (dhcpServer.run ⟨dhcpServerInit 0x0100a8c0 0xfcffffff 0x0100a8c0 3600 false, true⟩
    [requestOf 1 0x0200a8c0 [53, 1, 3, 0xFF]]).dhcps

/-- The search for an address for a second client never ends. -/
theorem small_subnet_never_ends : ¬FindsAddress smallSubnet [0, 0, 0, 0, 0, 2] := by
  have kept : CacheInvariant smallSubnet :=
    (keeps_run _ _).cache (cacheInvariant_init _ _ _ _ _)
  rw [findsAddress_iff_ends kept, not_not]
  let subnet : List UInt32 := [0xc0a80000, 0xc0a80001, 0xc0a80002, 0xc0a80003]
  have each : ∀ {property : UInt32 → Prop}, property 0xc0a80000 → property 0xc0a80001 →
      property 0xc0a80002 → property 0xc0a80003 → ∀ current ∈ subnet, property current := by
    intro property first second third fourth current member
    simp only [subnet, List.mem_cons, List.not_mem_nil, or_false] at member
    rcases member with rfl | rfl | rfl | rfl <;> assumption
  exact nextYiaddr_eq_none_of_closed (by decide) subnet (by decide)
    (each (by decide) (by decide) (by decide) (by decide))
    (each (by decide) (by decide) (by decide) (by decide))

end BdkFreertos.Dhcp
