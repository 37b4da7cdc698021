import BdkFreertos.DhcpReads
import Mathlib.Data.Finset.Card

/-!
# What the buffer still held shows

A last option that is cut off is completed by what the buffer held.  When it is not one of those
that add nothing, some state of the server gives different outcomes for two completions: a server
with one usable address that a client gets with one completion only, one that takes the message for
a request with one completion only, and one with a full cache that acknowledges the last address
asked for.
-/

namespace BdkFreertos.Dhcp

variable {dhcps : Dhcps} {msg other : Memory UInt8} {len : ℕ}

/-! ## Completions -/

def completed (msg : Memory UInt8) (len : ℕ) (behind : Memory UInt8) : Memory UInt8 :=
  fun address => if address < len then msg address else behind address

theorem alike_completed (msg : Memory UInt8) (len : ℕ) (behind : Memory UInt8) :
    Alike len msg (completed msg len behind) :=
  fun _ inside => (if_pos inside).symm

theorem completed_behind (msg behind : Memory UInt8) {address : ℕ} (beyond : len ≤ address) :
    completed msg len behind address = behind address :=
  if_neg (Nat.not_lt.mpr beyond)

/-- What every completion of a message has in common: the state behind the options in front of the
last one. -/
structure Completes (msg other : Memory UInt8) (len : ℕ) (front : List ℕ) (last : ℕ) : Prop where
  accepts : acceptsHeader other len = true
  chaddr_eq : chaddr other = chaddr msg
  visited : options other len = front ++ [last]
  requested : front.any (isRequest other) = front.any (isRequest msg)
  asked : askedBy other front = askedBy msg front

variable {front : List ℕ} {last : ℕ} {parse : Parse} {address : UInt32}

theorem Alike.completes (alike : Alike len msg other) (accepts : acceptsHeader msg len = true)
    (visited : options msg len = front ++ [last]) : Completes msg other len front last := by
  have long : sizeofBootpHeader + sizeofBootpOption + 1 ≤ len := (of_decide_eq_true accepts).1
  have header : Alike sizeofBootpHeader msg other := alike.mono (by omega)
  have options_eq : options other len = options msg len :=
    optionPlaces_congr (alike.mono (by omega))
  obtain ⟨-, inside, whole⟩ := optionPlaces_concat visited
  have same : ∀ place ∈ front, told other place = told msg place := fun place member =>
    told_congr (alike.mono (by omega)) (whole place member)
  exact ⟨(acceptsHeader_congr alike).trans accepts, (header.load (by decide)).symm,
    options_eq.trans visited, any_isRequest_congr same, askedBy_congr header same⟩

theorem Completes.state (completes : Completes msg other len front last)
    (kept : CacheInvariant dhcps) :
    LoopState other dhcps (front ++ [last]) (parseOptions dhcps other len) := by
  rw [← completes.visited]
  exact loopState_parseOptions kept other len

/-! ## A server with one usable address -/

def twoBits (first second : ℕ) : UInt32 :=
  UInt32.ofBitVec (BitVec.twoPow 32 first ||| BitVec.twoPow 32 second)

theorem getLsbD_twoBits (first second : ℕ) {bit : ℕ} (inside : bit < 32) :
    (twoBits first second).toBitVec.getLsbD bit = decide (first = bit ∨ second = bit) := by
  simp only [twoBits, BitVec.getLsbD_or, BitVec.getLsbD_twoPow, Bool.decide_or]
  grind

/-- A server without clients whose subnet has four addresses: the network's, the server's, the
broadcast address, and one that is usable.  The last address taken is the server's own. -/
def lonelyServer (address host : UInt32) : Dhcps where
  ipMacMapping := []
  netmask := ~~~host
  myIp := address ^^^ host
  clientIp := 0
  currentIp := ntohl (address ^^^ host)
  routerIp := 0
  uaddr := 0
  addressTimeout := 0
  nackDnsServer := false

theorem cacheInvariant_lonelyServer (address host : UInt32) :
    CacheInvariant (lonelyServer address host) :=
  ⟨Nat.zero_le _, .nil, .nil, fun _ member => absurd member List.not_mem_nil⟩

section

variable {address asked : UInt32} {high low : ℕ}

theorem getLsbD_lonelyServer (address : UInt32) (high low : ℕ) {bit : ℕ} (inside : bit < 32) :
    let server := lonelyServer address (twoBits high low)
    let host := decide (high = bit ∨ low = bit)
    let own := address.toBitVec.getLsbD bit
    server.netmask.toBitVec.getLsbD bit = !host ∧
      server.myIp.toBitVec.getLsbD bit = (own ^^ host) ∧
      (server.myIp &&& server.netmask).toBitVec.getLsbD bit = (own && !host) ∧
      (server.myIp ||| ~~~server.netmask).toBitVec.getLsbD bit = (own || host) := by
  intro server host own
  have mask : server.netmask.toBitVec.getLsbD bit = !host := by
    simp only [server, lonelyServer, UInt32.toBitVec_not, BitVec.getLsbD_not, inside, decide_true,
      Bool.true_and, getLsbD_twoBits _ _ inside, host]
  have mine : server.myIp.toBitVec.getLsbD bit = (own ^^ host) := by
    simp only [server, lonelyServer, UInt32.toBitVec_xor, BitVec.getLsbD_xor,
      getLsbD_twoBits _ _ inside, host, own]
  refine ⟨mask, mine, ?_, ?_⟩
  · rw [UInt32.toBitVec_and, BitVec.getLsbD_and, mask, mine]
    cases own <;> cases host <;> rfl
  · rw [UInt32.toBitVec_or, BitVec.getLsbD_or, UInt32.toBitVec_not, BitVec.getLsbD_not, mask, mine]
    simp only [inside, decide_true, Bool.true_and]
    cases own <;> cases host <;> rfl

theorem usable_lonelyServer_iff (asked address host : UInt32) :
    usable (lonelyServer address host) asked = true ↔
      Assignable (lonelyServer address host) asked := by
  rw [usable, Bool.and_eq_true]
  constructor
  · rintro ⟨subnet, valid⟩
    exact ((acValidIp_iff subnet).mp valid).1
  · intro assignable
    exact ⟨assignable.subnet, (acValidIp_iff assignable.subnet).mpr
      ⟨assignable, fun _ member => absurd member List.not_mem_nil⟩⟩

theorem usable_lonelyServer (high_lt : high < 32) (low_lt : low < 32)
    (is_set : address.toBitVec.getLsbD high = true)
    (is_clear : address.toBitVec.getLsbD low = false) :
    usable (lonelyServer address (twoBits high low)) asked = true ↔ asked = address := by
  let server := lonelyServer address (twoBits high low)
  rw [usable_lonelyServer_iff]
  constructor
  · rintro ⟨subnet, not_server, not_network, not_broadcast⟩
    have subnet : asked &&& server.netmask = server.myIp &&& server.netmask :=
      of_decide_eq_true subnet
    have asked_network : ∀ bit < 32, bit ≠ high → bit ≠ low →
        asked.toBitVec.getLsbD bit = address.toBitVec.getLsbD bit := by
      intro bit inside not_high not_low
      obtain ⟨mask, -, network, -⟩ := getLsbD_lonelyServer address high low inside
      have bits : (asked &&& server.netmask).toBitVec.getLsbD bit =
          (server.myIp &&& server.netmask).toBitVec.getLsbD bit := by rw [subnet]
      rw [network, UInt32.toBitVec_and, BitVec.getLsbD_and, mask] at bits
      simpa [not_high.symm, not_low.symm] using bits
    -- An address of the subnet is told by its two host bits.
    have told_by : ∀ word : UInt32,
        (∀ bit < 32, bit ≠ high → bit ≠ low →
          word.toBitVec.getLsbD bit = address.toBitVec.getLsbD bit) →
        asked.toBitVec.getLsbD high = word.toBitVec.getLsbD high →
        asked.toBitVec.getLsbD low = word.toBitVec.getLsbD low → asked = word := by
      intro word network high_eq low_eq
      apply eq_of_bits
      intro bit inside
      by_cases at_high : bit = high
      · rw [at_high, high_eq]
      · by_cases at_low : bit = low
        · rw [at_low, low_eq]
        · rw [asked_network bit inside at_high at_low, network bit inside at_high at_low]
    obtain ⟨-, own_high, network_high, broadcast_high⟩ :=
      getLsbD_lonelyServer address high low high_lt
    obtain ⟨-, own_low, network_low, broadcast_low⟩ :=
      getLsbD_lonelyServer address high low low_lt
    simp only [is_set, true_or, decide_true] at own_high network_high broadcast_high
    simp only [is_clear, or_true, decide_true] at own_low network_low broadcast_low
    rcases asked_high : asked.toBitVec.getLsbD high with _ | _ <;>
      rcases asked_low : asked.toBitVec.getLsbD low with _ | _
    · refine absurd (told_by _ ?_ (asked_high.trans network_high.symm)
        (asked_low.trans network_low.symm)) not_network
      intro bit inside not_high not_low
      rw [(getLsbD_lonelyServer address high low inside).2.2.1]
      simp [not_high.symm, not_low.symm]
    · refine absurd (told_by _ ?_ (asked_high.trans own_high.symm)
        (asked_low.trans own_low.symm)) not_server
      intro bit inside not_high not_low
      rw [(getLsbD_lonelyServer address high low inside).2.1]
      simp [not_high.symm, not_low.symm]
    · exact told_by address (fun _ _ _ _ => rfl) (asked_high.trans is_set.symm)
        (asked_low.trans is_clear.symm)
    · refine absurd (told_by _ ?_ (asked_high.trans broadcast_high.symm)
        (asked_low.trans broadcast_low.symm)) not_broadcast
      intro bit inside not_high not_low
      rw [(getLsbD_lonelyServer address high low inside).2.2.2]
      simp [not_high.symm, not_low.symm]
  · rintro rfl
    obtain ⟨-, own_high, network_high, -⟩ :=
      getLsbD_lonelyServer asked high low high_lt
    obtain ⟨-, -, -, broadcast_low⟩ := getLsbD_lonelyServer asked high low low_lt
    simp only [is_set, true_or, decide_true] at own_high network_high
    simp only [is_clear, or_true, decide_true] at broadcast_low
    have differs : ∀ {word : UInt32} {bit : ℕ},
        word.toBitVec.getLsbD bit ≠ asked.toBitVec.getLsbD bit → asked ≠ word := by
      rintro word bit unlike rfl
      exact unlike rfl
    constructor
    · apply decide_eq_true
      apply eq_of_bits
      intro bit inside
      obtain ⟨mask, -, network, -⟩ := getLsbD_lonelyServer asked high low inside
      rw [network, UInt32.toBitVec_and, BitVec.getLsbD_and, mask]
    · exact @differs _ high (by rw [own_high, is_set]; decide)
    · exact @differs _ high (by rw [network_high, is_set]; decide)
    · exact @differs _ low (by rw [broadcast_low, is_clear]; decide)

/-- A byte with a clear bit below one that is set and one that is clear. -/
structure Lonesome (byte : ℕ) (stop high low : ℕ) : Prop where
  high_lt : high < 8
  low_lt : low < 8
  below_high : stop < high
  below_low : stop < low
  stops : byte.testBit stop = false
  is_set : byte.testBit high = true
  is_clear : byte.testBit low = false

theorem lastByte_testBit (address : UInt32) (bit : ℕ) :
    (address.toNat / 2 ^ 24).testBit bit = address.toBitVec.getLsbD (24 + bit) := by
  rw [← Nat.testBit_add, Nat.add_comm]
  rfl

/-- The search of the lonely server is stopped below its host bits and never comes past its usable
address. -/
theorem nextYiaddr_lonelyServer {stop : ℕ}
    (lonesome : Lonesome (address.toNat / 2 ^ 24) stop high low)
    {after : Dhcps} (keeps : Keeps (lonelyServer address (twoBits (24 + high) (24 + low))) after)
    (mapping : after.ipMacMapping = [])
    (current : after.currentIp = ntohl (address ^^^ twoBits (24 + high) (24 + low)))
    (mac : List UInt8) : nextYiaddr after mac = none := by
  obtain ⟨high_lt, low_lt, below_high, below_low, stops, is_set, is_clear⟩ := lonesome
  rw [lastByte_testBit] at stops is_set is_clear
  have inside : CurrentInSubnet after := by
    rw [CurrentInSubnet, current, ntohl, htonl_htonl, inSubnet_congr keeps.netmask keeps.myIp]
    exact decide_eq_true rfl
  have missing : acLookupMac after mac = clientIpNotFound := by
    rw [acLookupMac, mapping]
    rfl
  rw [nextYiaddr_eq_none_iff inside]
  refine ⟨missing, ?_⟩
  rintro ⟨asked, valid, searched⟩
  rw [usable_congr keeps.netmask keeps.myIp mapping,
    usable_lonelyServer (by omega) (by omega) is_set is_clear] at valid
  subst valid
  have network_lt : ∀ {bit}, bit < 8 → 8 * (3 - bit / 8) + bit % 8 = 24 + bit := by
    intro bit short
    omega
  have same_high := searched high ⟨stop, below_high, ?_, ?_⟩
  · have own_high : (asked ^^^ twoBits (24 + high) (24 + low)).toBitVec.getLsbD (24 + high) =
        (asked.toBitVec.getLsbD (24 + high) ^^ decide (24 + high = 24 + high ∨ _)) :=
      (getLsbD_lonelyServer asked (24 + high) (24 + low) (by omega)).2.1
    rw [current, testBit_ntohl _ (by omega), testBit_ntohl _ (by omega), network_lt high_lt,
      own_high, is_set] at same_high
    simp at same_high
  · obtain ⟨-, -, network, -⟩ := getLsbD_lonelyServer asked (24 + high) (24 + low)
      (show 24 + stop < 32 by omega)
    rw [networkPart, keeps.netmask, keeps.myIp, testBit_ntohl _ (by omega),
      network_lt (by omega), network, stops, Bool.false_and]
  · obtain ⟨mask, -, -, -⟩ := getLsbD_lonelyServer asked (24 + high) (24 + low)
      (show 24 + stop < 32 by omega)
    rw [testBit_hostPart _ (by omega), keeps.netmask, testBit_ntohl _ (by omega),
      network_lt (by omega), mask, Bool.not_not]
    apply decide_eq_false
    omega

end

/-! ## An address that is cut off -/

theorem length_filter_requested (msg : Memory UInt8) (front : List ℕ) :
    6 * (front.filter fun place => msg place = 50 ∧ msg (place + 1) = 4).length ≤
      (front.map (consumed msg)).sum := by
  induction front with
  | nil => exact Nat.le_refl 0
  | cons place front induction =>
      rw [List.map_cons, List.sum_cons, List.filter_cons]
      split
      · rename_i requested
        have four : msg (place + 1) = 4 := (of_decide_eq_true requested).2
        rw [List.length_cons, consumed, four, sizeofBootpOption]
        have toNat_four : (4 : UInt8).toNat = 4 := rfl
        omega
      · omega

theorem askedBy_subset (msg : Memory UInt8) (front : List ℕ) :
    askedBy msg front ⊆ ciaddr msg ::
      (front.filter fun place => msg place = 50 ∧ msg (place + 1) = 4).map
        fun place => msg.loadWord (place + 2) := by
  intro address member
  obtain ⟨place, place_member, named⟩ := List.mem_filterMap.mp member
  rw [namedAddress] at named
  split at named
  · rw [← Option.some.inj named]
    exact List.mem_cons_self
  · split at named
    · rename_i requested
      apply List.mem_cons_of_mem
      rw [← Option.some.inj named]
      exact List.mem_map_of_mem (List.mem_filter.mpr ⟨place_member, decide_eq_true requested⟩)
    · contradiction

/-- The bytes with a clear bit below one that is set and one that is clear. -/
def lonesomeBytes : Finset ℕ :=
  (Finset.range 256).filter fun byte => ∃ stop high low : Fin 8,
    stop < high ∧ stop < low ∧ byte.testBit stop = false ∧ byte.testBit high = true ∧
      byte.testBit low = false

theorem card_lonesomeBytes : lonesomeBytes.card = 240 := by
  have by_stop : lonesomeBytes = (Finset.range 256).filter fun byte => ∃ stop : Fin 8,
      byte.testBit stop = false ∧ (∃ high : Fin 8, stop < high ∧ byte.testBit high = true) ∧
        ∃ low : Fin 8, stop < low ∧ byte.testBit low = false := by
    refine Finset.filter_congr fun byte _ => exists_congr fun stop => ?_
    constructor
    · rintro ⟨high, low, below_high, below_low, stops, is_set, is_clear⟩
      exact ⟨stops, ⟨high, below_high, is_set⟩, low, below_low, is_clear⟩
    · rintro ⟨stops, ⟨high, below_high, is_set⟩, low, below_low, is_clear⟩
      exact ⟨high, low, below_high, below_low, stops, is_set, is_clear⟩
  rw [by_stop]
  decide +kernel

/-- Of the values an address can have in its last byte, one serves the lonely server and has not
been asked for. -/
theorem exists_fresh (short : (front.map (consumed msg)).sum < 784) {value : UInt8 → UInt32}
    (distinct : Function.Injective value) :
    ∃ byte : UInt8, (∃ stop high low, Lonesome byte.toNat stop high low) ∧
      value byte ∉ askedBy msg front := by
  by_contra none_fresh
  push Not at none_fresh
  have all_asked : ∀ byte ∈ lonesomeBytes,
      value (UInt8.ofNat byte) ∈ (askedBy msg front).toFinset := by
    intro byte member
    obtain ⟨small, stop, high, low, below_high, below_low, stops, is_set, is_clear⟩ :=
      Finset.mem_filter.mp member
    have toNat_eq : (UInt8.ofNat byte).toNat = byte :=
      UInt8.toNat_ofNat_of_lt' (Finset.mem_range.mp small)
    apply List.mem_toFinset.mpr
    refine none_fresh _ ⟨stop, high, low, ?_⟩
    rw [toNat_eq]
    exact ⟨high.isLt, low.isLt, below_high, below_low, stops, is_set, is_clear⟩
  have injective : Set.InjOn (fun byte => value (UInt8.ofNat byte)) lonesomeBytes := by
    intro left left_member right right_member same
    have small : ∀ byte ∈ lonesomeBytes, byte < 256 := fun byte member =>
      Finset.mem_range.mp (Finset.mem_filter.mp member).1
    have bytes_eq := congrArg UInt8.toNat (distinct same)
    rwa [UInt8.toNat_ofNat_of_lt' (small left left_member),
      UInt8.toNat_ofNat_of_lt' (small right right_member)] at bytes_eq
  have enough := Finset.card_le_card_of_injOn _ all_asked injective
  have subset : (askedBy msg front).toFinset ⊆ (List.toFinset _) := fun address member =>
    List.mem_toFinset.mpr (askedBy_subset msg front (List.mem_toFinset.mp member))
  have few := (Finset.card_le_card subset).trans (List.toFinset_card_le _)
  have counted := length_filter_requested msg front
  rw [card_lonesomeBytes] at enough
  rw [List.length_cons, List.length_map] at few
  omega

def addressBehind (last : ℕ) (byte : UInt8) : Memory UInt8 :=
  fun address => if address = last + 1 then 4 else if address = last + 5 then byte else 0

theorem told_addressCut (cut : AddressCut msg len last) (inside : last < len) (byte : UInt8) :
    let memory := completed msg len (addressBehind last byte)
    told memory last = .address (memory.loadWord (last + 2)) ∧
      (memory.loadWord (last + 2)).toNat / 2 ^ 24 = byte.toNat := by
  intro memory
  have type_eq : memory last = 50 := (if_pos inside).trans cut.1
  have length_eq : memory (last + 1) = 4 := by
    rcases cut.2 with unknown | ⟨received, -, four⟩
    · exact (completed_behind msg _ (by omega)).trans (by simp [addressBehind])
    · exact (if_pos (by omega)).trans four
  have byte_eq : memory (last + 5) = byte := by
    have beyond : len ≤ last + 5 := by rcases cut.2 with unknown | known <;> omega
    exact (completed_behind msg _ beyond).trans (by simp [addressBehind])
  refine ⟨by simp [told, type_eq, length_eq], ?_⟩
  rw [Memory.loadWord, wordOfBytes]
  have small := (memory (last + 2)).toNat_lt
  have small₁ := (memory (last + 2 + 1)).toNat_lt
  have small₂ := (memory (last + 2 + 2)).toNat_lt
  have small₃ := byte.toNat_lt
  have size : UInt32.size = 2 ^ 32 := rfl
  rw [byte_eq, UInt32.toNat_ofNat_of_lt' (by omega)]
  omega

theorem keeps_respond (msg : Memory UInt8) (parse : Parse) :
    Keeps parse.dhcps (respond msg parse).1 := by
  rw [respond]
  split
  · exact .refl parse.dhcps
  · split
    · exact .refl parse.dhcps
    · rename_i made
      exact (keeps_makeResponse made).trans (keeps_sendResponses _ _ _)

theorem cache_respond_of_none (never : nextYiaddr parse.dhcps (chaddr msg) = none) :
    (respond msg parse).1.ipMacMapping = parse.dhcps.ipMacMapping := by
  rcases responds : parse.responseType with _ | type
  · rw [respond, responds]
  · cases type with
    | offer =>
        rw [respond, responds]
        simp only [makeResponse_eq, assign, never]
        rfl
    | ack =>
        rw [respond_of_assign responds rfl]
        exact mapping_sendResponses _ _ _
    | nak => rw [respond_nak responds]

/-- With an address that is cut off, some state of the server shows what was behind. -/
theorem exists_shown_of_addressCut (admitted : len ≤ serverBufferSize)
    (accepts : acceptsHeader msg len = true) (visited : options msg len = front ++ [last])
    (cut : AddressCut msg len last) :
    ∃ dhcps, CacheInvariant dhcps ∧ ∃ first second, Alike len msg first ∧ Alike len msg second ∧
      (outcome dhcps first len).cache ≠ (outcome dhcps second len).cache := by
  obtain ⟨sum_eq, inside, -⟩ := optionPlaces_concat visited
  have long : sizeofBootpHeader + sizeofBootpOption + 1 ≤ len := (of_decide_eq_true accepts).1
  have inside : last < len := by omega
  let memory := fun byte => completed msg len (addressBehind last byte)
  have alike : ∀ byte, Alike len msg (memory byte) := fun byte => alike_completed msg len _
  have tells := told_addressCut cut inside
  have distinct : Function.Injective fun byte => (memory byte).loadWord (last + 2) := by
    intro left right same
    have left_byte := (tells left).2
    have right_byte := (tells right).2
    apply UInt8.toNat_inj.mp
    rw [← left_byte, ← right_byte]
    exact congrArg (fun word : UInt32 => word.toNat / 2 ^ 24) same
  have short : (front.map (consumed msg)).sum < 784 := by
    rw [serverBufferSize] at admitted
    have header : sizeofBootpHeader = 240 := rfl
    omega
  obtain ⟨byte, ⟨stop, high, low, lonesome⟩, fresh⟩ := exists_fresh short distinct
  let address := (memory byte).loadWord (last + 2)
  let server := lonelyServer address (twoBits (24 + high) (24 + low))
  have kept : CacheInvariant server := cacheInvariant_lonelyServer _ _
  rw [← (tells byte).2] at lonesome
  have usable_iff : ∀ asked, usable server asked = true ↔ asked = address := by
    intro asked
    have lonesome := lonesome
    obtain ⟨high_lt, low_lt, -, -, -, is_set, is_clear⟩ := lonesome
    rw [lastByte_testBit] at is_set is_clear
    exact usable_lonelyServer (by omega) (by omega) is_set is_clear
  have completes := fun byte => (alike byte).completes accepts visited
  have asked_eq : ∀ byte, askedBy (memory byte) (front ++ [last]) =
      askedBy msg front ++ [(memory byte).loadWord (last + 2)] := by
    intro byte
    rw [askedBy_concat, (completes byte).asked, namedAddress_eq, (tells byte).1]
    rfl
  have missing : ∀ mac, acLookupMac server mac = clientIpNotFound := fun _ => rfl
  have unasked : ∀ earlier ∈ askedBy msg front, usable server earlier = false := by
    intro earlier member
    rw [Bool.eq_false_iff, Ne, usable_iff]
    rintro rfl
    exact fresh member
  refine ⟨server, kept, memory byte, memory (byte + 1), alike _, alike _, ?_⟩
  have gets : ⟨chaddr (memory byte), address⟩ ∈ (outcome server (memory byte) len).cache := by
    have state := (completes byte).state kept
    obtain ⟨dhcps_eq, -⟩ := Prod.mk.inj state.asked
    have first : (askedBy (memory byte) (front ++ [last])).find? (usable server) = some address := by
      rw [asked_eq, List.find?_append, List.find?_eq_none.mpr (by simpa using unasked),
        Option.none_or, List.find?_cons_of_pos ((usable_iff address).mpr rfl)]
    obtain ⟨mapping, -⟩ := foldl_ask_room kept (missing (chaddr (memory byte))) rfl first
    have parsed : (parseOptions server (memory byte) len).dhcps.ipMacMapping =
        [⟨chaddr (memory byte), address⟩] := (congrArg Dhcps.ipMacMapping dhcps_eq).trans mapping
    rw [outcome_of_accepts (completes byte).accepts]
    apply (keeps_respond _ _).entries.subset
    rw [parsed]
    exact List.mem_cons_self
  have loses : (outcome server (memory (byte + 1)) len).cache = [] := by
    have state := (completes (byte + 1)).state kept
    obtain ⟨dhcps_eq, -⟩ := Prod.mk.inj state.asked
    have unusable : ∀ asked ∈ askedBy (memory (byte + 1)) (front ++ [last]),
        usable server asked = false := by
      intro asked member
      rw [asked_eq, List.mem_append, List.mem_singleton] at member
      rcases member with earlier | rfl
      · exact unasked asked earlier
      · rw [Bool.eq_false_iff, Ne, usable_iff]
        intro same
        have bytes_eq : byte + 1 = byte := distinct same
        exact absurd bytes_eq (by simp)
    obtain ⟨mapping, -⟩ :=
      foldl_ask_unusable (missing (chaddr (memory (byte + 1)))) false unusable
    have parsed : (parseOptions server (memory (byte + 1)) len).dhcps.ipMacMapping = [] :=
      (congrArg Dhcps.ipMacMapping dhcps_eq).trans mapping
    have never := nextYiaddr_lonelyServer lonesome (keeps_optionLoop _ _ _ _ (.initial server))
      parsed (currentIp_parseOptions server (memory (byte + 1)) len) (chaddr (memory (byte + 1)))
    rw [outcome_of_accepts (completes (byte + 1)).accepts]
    exact (cache_respond_of_none never).trans parsed
  intro same
  rw [same, loses] at gets
  exact List.not_mem_nil gets

/-! ## What the packets show -/

theorem load_eq_of_load_zero {left right : Memory UInt8} {left_len right_len start count : ℕ}
    (same : left.load 0 left_len = right.load 0 right_len) (inside : start + count ≤ left_len) :
    left.load start count = right.load start count := by
  obtain rfl : left_len = right_len := by
    have lengths := congrArg List.length same
    rwa [Memory.length_load, Memory.length_load] at lengths
  apply Memory.load_eq_load
  intro index short
  have cell := Memory.load_apply same (show start + index < left_len by omega)
  rw [Memory.getElem?_load, if_pos (by omega), Nat.zero_add] at cell
  exact (Option.some.inj cell).symm

theorem len_sendResponses {packet : Packet} (sent : packet ∈ (sendResponses dhcps msg len).2) :
    packet.len = len := by
  unfold sendResponses at sent
  simp only at sent
  split at sent
  · rcases List.mem_cons.mp sent with rfl | later
    · rfl
    · rw [List.eq_of_mem_replicate later]
  · rw [List.eq_of_mem_replicate sent]

theorem le_len_writeOptions (dhcps : Dhcps) (msg : Memory UInt8) (type : ResponseType) :
    243 ≤ (writeOptions dhcps msg type).2 := by
  rw [writeOptions_eq]
  cases type <;> simp [responseOptions, area, TypedOption.bytes, sizeofBootpHeader]

/-- The packets sent for a response carry its type and its address. -/
theorem sent_of_respond {type : ResponseType} {after : Dhcps}
    (responds : parse.responseType = some type)
    (assigned : assign parse.dhcps (chaddr msg) type = some (after, address)) :
    (Outcome.of (respond msg parse)).sent ≠ [] ∧
      ∀ entry ∈ (Outcome.of (respond msg parse)).sent, ∃ response len,
        Carries msg response type address ∧ 243 ≤ len ∧ entry.2 = response.load 0 len := by
  rw [respond_of_assign responds assigned, Outcome.of]
  refine ⟨?_, ?_⟩
  · simp [sendResponses_ne_nil]
  · intro entry member
    obtain ⟨packet, sent, rfl⟩ := List.mem_map.mp member
    refine ⟨packet.msg, packet.len, ?_, ?_, rfl⟩
    · exact carries_sendResponses (carries_written after msg type address) sent
    · rw [len_sendResponses sent]
      exact le_len_writeOptions _ _ _

/-- Two outcomes with the same packets carry the same type and address. -/
theorem carries_congr {first_msg second_msg : Memory UInt8} {first second : Parse}
    {first_type second_type : ResponseType} {first_after second_after : Dhcps}
    {first_address second_address : UInt32} (first_responds : first.responseType = some first_type)
    (first_assigned : assign first.dhcps (chaddr first_msg) first_type =
      some (first_after, first_address))
    (second_responds : second.responseType = some second_type)
    (second_assigned : assign second.dhcps (chaddr second_msg) second_type =
      some (second_after, second_address))
    (same : (Outcome.of (respond first_msg first)).sent =
      (Outcome.of (respond second_msg second)).sent) :
    first_type.code = second_type.code ∧ first_address = second_address := by
  obtain ⟨sends, first_each⟩ := sent_of_respond first_responds first_assigned
  obtain ⟨-, second_each⟩ := sent_of_respond second_responds second_assigned
  obtain ⟨entry, member⟩ := List.exists_mem_of_ne_nil _ sends
  obtain ⟨first_response, first_len, first_carries, first_long, first_bytes⟩ :=
    first_each entry member
  rw [same] at member
  obtain ⟨second_response, second_len, second_carries, -, second_bytes⟩ := second_each entry member
  have bytes_eq := first_bytes.symm.trans second_bytes
  constructor
  · have types := load_eq_of_load_zero bytes_eq (show 240 + 3 ≤ first_len from first_long)
    rw [first_carries.type, second_carries.type] at types
    simpa using types
  · have words := Memory.loadWord_eq_of_load_eq
      (load_eq_of_load_zero bytes_eq (show 16 + 4 ≤ first_len by omega))
    exact first_carries.yiaddr.symm.trans (words.trans second_carries.yiaddr)

/-! ## A message type that is cut off -/

def typeBehind (last : ℕ) (value : UInt8) : Memory UInt8 :=
  fun address => if address = last + 1 then 1 else value

theorem told_typeCut (cut : TypeCut msg len last) (inside : last < len) (value : UInt8) :
    told (completed msg len (typeBehind last value)) last =
      if value = 1 then .discover else if value = 3 then .request else .nothing := by
  let memory := completed msg len (typeBehind last value)
  have type_eq : memory last = 53 := (if_pos inside).trans cut.1
  have length_eq : memory (last + 1) = 1 := by
    rcases cut.2 with unknown | ⟨received, single⟩
    · exact (completed_behind msg _ (by omega)).trans (by simp [typeBehind])
    · exact (if_pos (by omega)).trans single
  have value_eq : memory (last + 2) = value := by
    have beyond : len ≤ last + 2 := by rcases cut.2 with unknown | known <;> omega
    exact (completed_behind msg _ beyond).trans (by simp [typeBehind])
  have typed : memory last = 53 ∧ memory (last + 1) = 1 := ⟨type_eq, length_eq⟩
  change told memory last = _
  rw [told, if_pos typed, value_eq]

theorem responseType_of_unrequested (msg : Memory UInt8) (dhcps : Dhcps) (places : List ℕ) :
    let parse := places.foldl (readOption msg) (.initial dhcps)
    parse.needIp = false → parse.responseType = none ∨ parse.responseType = some .offer := by
  induction places using List.reverseRecOn with
  | nil => exact fun _ => Or.inl rfl
  | append_singleton places opt induction =>
      obtain ⟨-, -, -, needIp_eq, response⟩ :=
        named_readOption msg opt (places.foldl (readOption msg) (.initial dhcps))
      rw [List.foldl_append, List.foldl_cons, List.foldl_nil, readOption, decideResponse_eq]
      generalize readRequestedIp msg opt _ = named at needIp_eq response ⊢
      intro after needless
      have needless : named.needIp = false := needless
      simp only [after, needless, Bool.false_eq_true, if_false]
      rcases response with same | offers
      · rw [same]
        rw [needIp_eq, Bool.or_eq_false_iff] at needless
        exact induction needless.1
      · exact Or.inr offers

/-- With a message type that is cut off and no request before, every state of the server shows what
was behind. -/
theorem outcome_ne_of_typeCut (kept : CacheInvariant dhcps) (accepts : acceptsHeader msg len = true)
    (visited : options msg len = front ++ [last]) (cut : TypeCut msg len last)
    (unrequested : front.any (isRequest msg) = false) :
    (outcome dhcps (completed msg len (typeBehind last 0)) len).sent ≠
      (outcome dhcps (completed msg len (typeBehind last 3)) len).sent := by
  have inside : last < len := by
    obtain ⟨-, inside, -⟩ := optionPlaces_concat visited
    have long : sizeofBootpHeader + sizeofBootpOption + 1 ≤ len := (of_decide_eq_true accepts).1
    omega
  let silent := completed msg len (typeBehind last 0)
  let asking := completed msg len (typeBehind last 3)
  have silent_completes := (alike_completed msg len (typeBehind last 0)).completes accepts visited
  have asking_completes := (alike_completed msg len (typeBehind last 3)).completes accepts visited
  have asking_request : isRequest asking last = true :=
    (isRequest_iff asking last).mpr (told_typeCut cut inside 3)
  have silent_nothing : isRequest silent last = false := by
    rw [Bool.eq_false_iff, Ne, isRequest_iff]
    intro request
    exact absurd ((told_typeCut cut inside 0).symm.trans request) (by decide)
  have unneeded : (parseOptions dhcps silent len).needIp = false := by
    have state := (silent_completes.state kept).needIp
    rw [List.any_append, silent_completes.requested, unrequested, Bool.false_or, List.any_cons,
      List.any_nil, Bool.or_false] at state
    exact state.trans silent_nothing
  have needed : (parseOptions dhcps asking len).needIp = true := by
    have state := (asking_completes.state kept).needIp
    rw [List.any_append, List.any_cons, List.any_nil, Bool.or_false] at state
    exact state.trans (Bool.or_eq_true_iff.mpr (Or.inr asking_request))
  have responds := (asking_completes.state kept).requested needed
  have quiet : (parseOptions dhcps silent len).responseType = none ∨
      (parseOptions dhcps silent len).responseType = some .offer := by
    rw [parseOptions, optionLoop_eq_foldl] at unneeded ⊢
    exact responseType_of_unrequested silent dhcps _ unneeded
  have answered : ∃ after address, assign (parseOptions dhcps asking len).dhcps (chaddr asking)
      (if (parseOptions dhcps asking len).gotIp then .ack else .nak) = some (after, address) := by
    split
    · exact ⟨_, _, rfl⟩
    · exact ⟨_, _, rfl⟩
  obtain ⟨after, address, assigned⟩ := answered
  have sends := (sent_of_respond responds assigned).1
  rw [outcome_of_accepts silent_completes.accepts, outcome_of_accepts asking_completes.accepts]
  intro same
  rcases quiet with unanswered | offers
  · have nothing_sent : (Outcome.of (respond silent (parseOptions dhcps silent len))).sent = [] := by
      rw [respond, unanswered]
      rfl
    exact sends (same.symm.trans nothing_sent)
  · rcases search : assign (parseOptions dhcps silent len).dhcps (chaddr silent) .offer with
      _ | ⟨offered, offer⟩
    · have nothing_sent : (Outcome.of (respond silent (parseOptions dhcps silent len))).sent =
          [] := by
        rw [respond, offers]
        simp only [makeResponse_eq, search]
        rfl
      exact sends (same.symm.trans nothing_sent)
    · have codes := (carries_congr offers search responds assigned same).1
      split at codes
      · exact absurd codes (by decide)
      · exact absurd codes (by decide)

/-! ## A server with a full cache -/

/-- A server that gives out all addresses but 0 and the last, with eight clients other than one with
a given first byte, none of them with a given address. -/
def fullServer (firstByte : UInt8) (address : UInt32) : Dhcps where
  ipMacMapping := (List.range 8).map fun client =>
    ⟨[firstByte + 1, 0, 0, 0, 0, UInt8.ofNat client],
      UInt32.ofNat ((if address.toNat < 9 then 9 else 1) + client)⟩
  netmask := 0
  myIp := 0
  clientIp := 0
  currentIp := 0
  routerIp := 0
  uaddr := 0
  addressTimeout := 0
  nackDnsServer := false

section

variable {firstByte : UInt8} {address : UInt32}

theorem toNat_fullServer {client : ℕ} (small : client < 8) :
    (UInt32.ofNat ((if address.toNat < 9 then 9 else 1) + client)).toNat =
      (if address.toNat < 9 then 9 else 1) + client := by
  have size : UInt32.size = 2 ^ 32 := rfl
  apply UInt32.toNat_ofNat_of_lt'
  split <;> omega

theorem mem_fullServer {entry : ClientMacCache}
    (member : entry ∈ (fullServer firstByte address).ipMacMapping) :
    entry.clientMac.head? = some (firstByte + 1) ∧ ¬Hopeless entry.clientIp ∧
      entry.clientIp ≠ address := by
  obtain ⟨client, small, entry_eq⟩ := List.mem_map.mp member
  have number : entry.clientIp.toNat = (if address.toNat < 9 then 9 else 1) + client := by
    rw [← entry_eq]
    exact toNat_fullServer (List.mem_range.mp small)
  have small := List.mem_range.mp small
  refine ⟨by rw [← entry_eq]; rfl, ?_, ?_⟩
  · rintro (same | same)
    · have zero : (0 : UInt32).toNat = 0 := rfl
      rw [same, zero] at number
      split at number <;> omega
    · have last : (0xffffffff : UInt32).toNat = 4294967295 := rfl
      rw [same, last] at number
      split at number <;> omega
  · intro same
    rw [same] at number
    split at number <;> omega

theorem assignable_fullServer {asked : UInt32} (hopeful : ¬Hopeless asked) :
    Assignable (fullServer firstByte address) asked := by
  rw [Hopeless, not_or] at hopeful
  have network : (0 : UInt32) &&& 0 = 0 := by decide
  have broadcast : (0 : UInt32) ||| ~~~0 = 0xffffffff := by decide
  constructor
  · simp [inSubnet, fullServer]
  · exact hopeful.1
  · exact network.symm ▸ hopeful.1
  · exact broadcast.symm ▸ hopeful.2

theorem cacheInvariant_fullServer : CacheInvariant (fullServer firstByte address) := by
  constructor
  · simp [fullServer, macIpCacheSize]
  · rw [fullServer, List.map_map]
    apply List.nodup_range.map_on
    intro left left_small right right_small same
    have left_small := List.mem_range.mp left_small
    have right_small := List.mem_range.mp right_small
    have bytes_eq : UInt8.ofNat left = UInt8.ofNat right := by simpa using same
    have numbers := congrArg UInt8.toNat bytes_eq
    rwa [UInt8.toNat_ofNat_of_lt' (Nat.lt_of_lt_of_le left_small (by decide)),
      UInt8.toNat_ofNat_of_lt' (Nat.lt_of_lt_of_le right_small (by decide))] at numbers
  · rw [fullServer, List.map_map]
    apply List.nodup_range.map_on
    intro left left_small right right_small same
    have numbers := congrArg UInt32.toNat same
    simp only [Function.comp_apply] at numbers
    rw [toNat_fullServer (List.mem_range.mp left_small),
      toNat_fullServer (List.mem_range.mp right_small)] at numbers
    omega
  · intro entry member
    exact assignable_fullServer (mem_fullServer member).2.1

theorem usable_fullServer (hopeful : ¬Hopeless address) :
    usable (fullServer firstByte address) address = true := by
  have assignable : Assignable (fullServer firstByte address) address :=
    assignable_fullServer hopeful
  rw [usable, Bool.and_eq_true]
  exact ⟨assignable.subnet, (acValidIp_iff assignable.subnet).mpr
    ⟨assignable, fun entry member => (mem_fullServer member).2.2⟩⟩

theorem acLookupMac_fullServer {mac : List UInt8} (first : mac.head? = some firstByte) :
    acLookupMac (fullServer firstByte address) mac = clientIpNotFound := by
  rw [acLookupMac_eq_notFound_iff cacheInvariant_fullServer]
  rintro entry member rfl
  have heads := (mem_fullServer member).1.symm.trans first
  exact absurd (Option.some.inj heads) (by simp)

end

/-- A request that has named an address somebody can have is acknowledged by the full server with the
last one named. -/
theorem acknowledged_fullServer (completes : Completes msg other len front last)
    (requested : front.any (isRequest msg) = true) (member : address ∈ askedBy msg front)
    (hopeful : ¬Hopeless address) :
    let parse := parseOptions (fullServer (msg 28) address) other len
    parse.responseType = some .ack ∧
      parse.dhcps.clientIp =
        (askedBy msg front ++ (namedAddress other last).toList).getLast?.getD 0 := by
  intro parse
  have state := completes.state (@cacheInvariant_fullServer (msg 28) address)
  have asked_eq : askedBy other (front ++ [last]) =
      askedBy msg front ++ (namedAddress other last).toList := by
    rw [askedBy_concat, completes.asked]
  have needed : parse.needIp = true := by
    rw [show parse.needIp = _ from state.needIp, List.any_append, completes.requested, requested,
      Bool.true_or]
  have asks : (parse.dhcps, parse.gotIp) =
      (askedBy other (front ++ [last])).foldl (ask (chaddr other))
        (fullServer (msg 28) address, false) := state.asked
  obtain ⟨dhcps_eq, gotIp_eq⟩ := Prod.mk.inj asks
  have missing : acLookupMac (fullServer (msg 28) address) (chaddr other) = clientIpNotFound := by
    rw [completes.chaddr_eq]
    exact acLookupMac_fullServer rfl
  obtain ⟨-, verdict⟩ := foldl_ask_full missing rfl false (askedBy other (front ++ [last]))
  have granted : parse.gotIp = true := by
    rw [gotIp_eq, verdict, asked_eq, Bool.false_or, List.any_eq_true]
    exact ⟨address, List.mem_append_left _ member, usable_fullServer hopeful⟩
  refine ⟨?_, ?_⟩
  · rw [show parse.responseType = _ from state.requested needed]
    exact congrArg some (if_pos granted)
  · rw [dhcps_eq, clientIp_foldl_ask, asked_eq]
    rfl

/-- With a message type that is cut off behind a request, the full server shows what was behind when
the address in the header is not the last one named. -/
theorem outcome_ne_of_typeCut_request (accepts : acceptsHeader msg len = true)
    (visited : options msg len = front ++ [last]) (cut : TypeCut msg len last)
    (requested : front.any (isRequest msg) = true) (nonzero : ciaddr msg ≠ 0)
    (another : (askedBy msg front).getLast? ≠ some (ciaddr msg))
    (member : address ∈ askedBy msg front) (hopeful : ¬Hopeless address) :
    (outcome (fullServer (msg 28) address) (completed msg len (typeBehind last 0)) len).sent ≠
      (outcome (fullServer (msg 28) address) (completed msg len (typeBehind last 3)) len).sent := by
  have long : sizeofBootpHeader + sizeofBootpOption + 1 ≤ len := (of_decide_eq_true accepts).1
  have inside : last < len := by
    obtain ⟨-, inside, -⟩ := optionPlaces_concat visited
    omega
  let asking := completed msg len (typeBehind last 3)
  have silent_completes := (alike_completed msg len (typeBehind last 0)).completes accepts visited
  have asking_completes := (alike_completed msg len (typeBehind last 3)).completes accepts visited
  obtain ⟨silent_ack, silent_address⟩ :=
    acknowledged_fullServer silent_completes requested member hopeful
  obtain ⟨asking_ack, asking_address⟩ :=
    acknowledged_fullServer asking_completes requested member hopeful
  have ciaddr_eq : ciaddr asking = ciaddr msg :=
    ((alike_completed msg len (typeBehind last 3)).loadWord
      (show 12 + 4 ≤ len by rw [sizeofBootpHeader] at long; omega)).symm
  have named : namedAddress asking last = some (ciaddr msg) := by
    have request : told asking last = .request := told_typeCut cut inside 3
    rw [namedAddress_eq, request, ciaddr_eq]
    exact if_pos nonzero
  have unnamed : namedAddress (completed msg len (typeBehind last 0)) last = none := by
    have nothing : told (completed msg len (typeBehind last 0)) last = .nothing :=
      told_typeCut cut inside 0
    rw [namedAddress_eq, nothing]
  rw [unnamed, Option.toList_none, List.append_nil] at silent_address
  rw [named, Option.toList_some, List.getLast?_concat, Option.getD_some] at asking_address
  rw [outcome_of_accepts silent_completes.accepts, outcome_of_accepts asking_completes.accepts]
  intro same
  have addresses := (carries_congr silent_ack rfl asking_ack rfl same).2
  rw [silent_address, asking_address] at addresses
  rcases last_asked : (askedBy msg front).getLast? with _ | final
  · rw [List.getLast?_eq_none_iff] at last_asked
    rw [last_asked] at member
    exact List.not_mem_nil member
  · rw [last_asked] at another addresses
    exact another (congrArg some addresses)

/-! ## Exactly when the received bytes decide -/

/-- For a received message of any bytes and any length the receive loop admits: every state of the
server, with every two contents of the buffer behind what was received, sends the same response and
leaves the same cache, if and only if the last option visited is whole or adds nothing. -/
theorem outcome_decided_by_received_iff (received : Received) :
    (∀ dhcps, CacheInvariant dhcps → ∀ other, Alike received.len received.msg other →
      outcome dhcps other received.len = outcome dhcps received.msg received.len) ↔
      ReadsReceived received.msg received.len := by
  obtain ⟨msg, len, -, admitted⟩ := received
  constructor
  · intro decided accepts front last visited
    have same_sent : ∀ dhcps, CacheInvariant dhcps → ∀ first second,
        (outcome dhcps (completed msg len first) len).sent =
          (outcome dhcps (completed msg len second) len).sent := by
      intro dhcps kept first second
      rw [decided dhcps kept _ (alike_completed msg len first),
        decided dhcps kept _ (alike_completed msg len second)]
    refine ⟨?_, ?_⟩
    · intro cut
      obtain ⟨dhcps, kept, first, second, first_alike, second_alike, shown⟩ :=
        exists_shown_of_addressCut admitted accepts visited cut
      apply shown
      rw [decided dhcps kept first first_alike, decided dhcps kept second second_alike]
    · intro cut
      rcases requested : front.any (isRequest msg) with _ | _
      · exact absurd (same_sent _ (cacheInvariant_init 0 0 0 0 false) _ _)
          (outcome_ne_of_typeCut (cacheInvariant_init 0 0 0 0 false) accepts visited cut requested)
      · refine ⟨rfl, ?_⟩
        by_contra shown
        rw [not_or, not_or] at shown
        obtain ⟨nonzero, another, hopeful⟩ := shown
        push Not at hopeful
        obtain ⟨address, member, hopeful⟩ := hopeful
        exact outcome_ne_of_typeCut_request accepts visited cut requested nonzero another member
          hopeful (same_sent _ cacheInvariant_fullServer _ _)
  · intro reads dhcps kept other alike
    exact outcome_congr kept reads alike

/-- A message whose last byte is the type of the message-type option is taken for a request when the
buffer still holds the rest of one. -/
theorem residue_makes_a_request :
    let received := (requestOf 7 0 [12, 0, 53]).msg
    let residue := received.store 243 [1, 3]
    Alike 243 received residue ∧
      outcome exampleServer received 243 ≠ outcome exampleServer residue 243 := by
  intro received residue
  refine ⟨fun address inside => (Memory.store_apply_of_lt received _ inside).symm, ?_⟩
  intro same
  have counts : (outcome exampleServer received 243).sent.length =
      (outcome exampleServer residue 243).sent.length := by rw [same]
  revert counts
  decide

end BdkFreertos.Dhcp
