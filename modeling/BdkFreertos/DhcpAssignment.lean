import BdkFreertos.DhcpAck

/-!
# Acknowledged addresses over whole runs

An acknowledgement is safe when its address has an entry for its client: entries are never removed
and their addresses are distinct.  The server also acknowledges without an entry, for a client that
finds the cache full, and with an address other than the recorded one.
-/

namespace BdkFreertos.Dhcp

variable {dhcps : Dhcps}

instance (packet : Packet) : Decidable packet.IsAck :=
  inferInstanceAs (Decidable (_ = _))

/-! ## One message -/

/-- In every reachable state and for every received message, the acknowledgements sent carry an
address of the subnet which is not reserved and not cached for another client, if and only if the
flag agrees with the last address asked for. -/
theorem ack_sound_iff_flag_agrees (myIp netmask routerIp addressTimeout : UInt32)
    (nackDnsServer : Bool) (history : List Received) (received : Received) :
    let start := dhcpServerInit myIp netmask routerIp addressTimeout nackDnsServer
    let dhcps := (dhcpServer.run ⟨start, true⟩ history).dhcps
    let after := (processDhcpMessage dhcps received.msg received.len).1
    let reply := (processDhcpMessage dhcps received.msg received.len).2
    (∀ packet ∈ reply.packets, packet.IsAck → SoundAck after packet) ↔
      FlagAgrees dhcps received.msg received.len := by
  intro start dhcps after reply
  have kept : CacheInvariant dhcps :=
    (keeps_run start history).cache (cacheInvariant_init _ _ _ _ _)
  exact soundAck_iff_flagAgrees kept received.msg received.len

/-- A request of a client, with an address in its header and options behind it. -/
def requestOf (client : UInt8) (ciaddr : UInt32) (options : List UInt8) : Received where
  msg :=
    let header : Memory UInt8 := Memory.store (fun _ => 0) 0 [1, 1, 6, 0]
    ((header.storeWord 12 ciaddr).store 28 [0, 0, 0, 0, 0, client]).store 240 options
  len := 272
  admitted := by decide

def exampleServer : Dhcps :=
  dhcpServerInit 0x0100a8c0 0x00ffffff 0x0100a8c0 3600 false

/-- A client that has 192.168.0.5 in its header and asks for 10.0.0.1 in an option is acknowledged
with 10.0.0.1. -/
theorem ack_outside_subnet :
    let received := requestOf 7 0x0500a8c0 [53, 1, 3, 50, 4, 10, 0, 0, 1, 0xFF]
    let result := processDhcpMessage exampleServer received.msg received.len
    ¬∀ packet ∈ result.2.packets, packet.IsAck → SoundAck result.1 packet := by
  intro received result every
  have inside : ∀ packet ∈ result.2.packets, packet.IsAck →
      inSubnet result.1 (yiaddr packet.msg) = true :=
    fun packet sent is_ack => (every packet sent is_ack).1.subnet
  revert inside
  decide

/-! ## Whole runs -/

/-- A message is acknowledged with a recorded address only: when the client has or gets an entry,
the last address asked for is its own whenever the last one in the subnet is; when it finds the
cache full, it asks for no usable address. -/
def RecordsAck (dhcps : Dhcps) (msg : Memory UInt8) (len : ℕ) : Prop :=
  acceptsHeader msg len = true → requests msg len = true →
    let asked := askedAddresses msg len
    match ownAddress dhcps (chaddr msg) asked with
    | some own => lastInSubnet dhcps asked = some own → asked.getLast? = some own
    | none => asked.any (usable dhcps) = false

instance (dhcps : Dhcps) (msg : Memory UInt8) (len : ℕ) : Decidable (RecordsAck dhcps msg len) :=
  match own_eq : ownAddress dhcps (chaddr msg) (askedAddresses msg len) with
  | some own => decidable_of_iff
      (acceptsHeader msg len = true → requests msg len = true →
        lastInSubnet dhcps (askedAddresses msg len) = some own →
          (askedAddresses msg len).getLast? = some own) (by simp [RecordsAck, own_eq])
  | none => decidable_of_iff
      (acceptsHeader msg len = true → requests msg len = true →
        (askedAddresses msg len).any (usable dhcps) = false) (by simp [RecordsAck, own_eq])

theorem mem_cache_of_ack (kept : CacheInvariant dhcps) {msg : Memory UInt8} {len : ℕ}
    (records : RecordsAck dhcps msg len) {packet : Packet}
    (sent : packet ∈ (processDhcpMessage dhcps msg len).2.packets) (is_ack : packet.IsAck) :
    ⟨chaddr packet.msg, yiaddr packet.msg⟩ ∈
      (processDhcpMessage dhcps msg len).1.ipMacMapping := by
  by_cases acknowledged : Acknowledged dhcps msg len
  · obtain ⟨mapping, -, carries⟩ := processDhcpMessage_acknowledged kept acknowledged
    have verdict := foldl_ask_verdict kept (chaddr msg) (askedAddresses msg len)
    have records := records acknowledged.1 acknowledged.2.1
    have carried := carries packet sent
    simp only at records
    rw [carried.chaddr, carried.yiaddr, mapping]
    split at verdict
    · rename_i own own_eq
      obtain ⟨cached, granted⟩ := verdict
      rw [own_eq] at records
      rw [records (granted.mp acknowledged.2.2)]
      exact cached
    · rename_i own_eq
      rw [own_eq] at records
      have granted := verdict.2.2.symm.trans acknowledged.2.2
      simp only [records] at granted
      contradiction
  · exact absurd is_ack (processDhcpMessage_unacknowledged kept acknowledged packet sent)

/-- Every acknowledgement sent so far has an entry. -/
structure Recorded (replies : List Reply) (server : Server) : Prop where
  kept : CacheInvariant server.dhcps
  entries : ∀ packet ∈ replies.flatMap Reply.packets, packet.IsAck →
    ⟨chaddr packet.msg, yiaddr packet.msg⟩ ∈ server.dhcps.ipMacMapping

theorem Recorded.step {replies : List Reply} {server : Server} (recorded : Recorded replies server)
    {received : Received} (records : RecordsAck server.dhcps received.msg received.len) :
    Recorded (replies ++ [(dhcpServer.step server received).2])
      (dhcpServer.step server received).1 := by
  rcases running : server.running with _ | _
  · have idle : dhcpServer.step server received = (server, ⟨none, [], none⟩) := by
      simp [dhcpServer, running]
    rw [idle]
    exact ⟨recorded.kept, by simpa using recorded.entries⟩
  · have keeps := keeps_processDhcpMessage server.dhcps received.msg received.len
    simp only [dhcpServer, running, if_true]
    refine ⟨keeps.cache recorded.kept, ?_⟩
    intro packet member is_ack
    rw [List.flatMap_append, List.mem_append, List.flatMap_singleton] at member
    rcases member with earlier | last
    · exact keeps.entries.subset (recorded.entries packet earlier is_ack)
    · exact mem_cache_of_ack recorded.kept records last is_ack

/-- In every run whose messages are acknowledged with recorded addresses only, no address is
acknowledged to two different hardware addresses. -/
theorem no_double_assignment (myIp netmask routerIp addressTimeout : UInt32) (nackDnsServer : Bool)
    (messages : List Received) :
    let start : Server :=
      ⟨dhcpServerInit myIp netmask routerIp addressTimeout nackDnsServer, true⟩
    let packets := (dhcpServer.outputs start messages).flatMap Reply.packets
    dhcpServer.Always (fun server received => RecordsAck server.dhcps received.msg received.len)
        start messages →
      ∀ first ∈ packets, ∀ second ∈ packets, first.IsAck → second.IsAck →
        yiaddr first.msg = yiaddr second.msg → chaddr first.msg = chaddr second.msg := by
  intro start packets records first first_sent second second_sent first_ack second_ack same
  have recorded : Recorded (dhcpServer.outputs start messages) (dhcpServer.run start messages) :=
    dhcpServer.history_induction _ (fun _ replies server => Recorded replies server)
      ⟨cacheInvariant_init _ _ _ _ _, fun _ member => absurd member List.not_mem_nil⟩
      (fun recorded records => recorded.step records) records
  have first_entry := recorded.entries first first_sent first_ack
  have second_entry := recorded.entries second second_sent second_ack
  exact congrArg ClientMacCache.clientMac
    (List.inj_on_of_nodup_map recorded.kept.ips first_entry second_entry same)

/-- Two clients with addresses of their own. -/
theorem no_double_assignment_two_clients :
    let start : Server := ⟨exampleServer, true⟩
    let messages := [requestOf 1 0x0500a8c0 [53, 1, 3, 0xFF], requestOf 2 0x0600a8c0 [53, 1, 3, 0xFF]]
    let packets := (dhcpServer.outputs start messages).flatMap Reply.packets
    packets.length = 8 ∧
      ∀ first ∈ packets, ∀ second ∈ packets, first.IsAck → second.IsAck →
        yiaddr first.msg = yiaddr second.msg → chaddr first.msg = chaddr second.msg := by
  intro start messages packets
  refine ⟨by decide, ?_⟩
  apply no_double_assignment
  decide

/-- With eight other clients in the cache, two more are acknowledged with one address. -/
theorem double_assignment_when_full :
    let start : Server := ⟨exampleServer, true⟩
    let messages := (List.range 8).map (fun client =>
        requestOf (UInt8.ofNat client) (0x0a00a8c0 + UInt32.ofNat client * 0x01000000)
          [53, 1, 3, 0xFF]) ++
      [requestOf 100 0x3200a8c0 [53, 1, 3, 0xFF], requestOf 101 0x3200a8c0 [53, 1, 3, 0xFF]]
    let packets := (dhcpServer.outputs start messages).flatMap Reply.packets
    ¬∀ first ∈ packets, ∀ second ∈ packets, first.IsAck → second.IsAck →
      yiaddr first.msg = yiaddr second.msg → chaddr first.msg = chaddr second.msg := by
  decide

theorem keeps_run_from (server : Server) (messages : List Received) :
    Keeps server.dhcps (dhcpServer.run server messages).dhcps := by
  apply dhcpServer.run_invariant_of_step (fun later => Keeps server.dhcps later.dhcps) (.refl _)
  intro later received keeps
  simp only [dhcpServer]
  split
  · exact keeps.trans (keeps_processDhcpMessage later.dhcps received.msg received.len)
  · exact keeps

/-- A client with an entry is acknowledged with its address whenever it asks for this one, whatever
has been received in between. -/
theorem lease_is_kept {server : Server} (kept : CacheInvariant server.dhcps) {entry : ClientMacCache}
    (entered : entry ∈ server.dhcps.ipMacMapping) (messages : List Received) {msg : Memory UInt8}
    {len : ℕ} (accepts : acceptsHeader msg len = true) (request : requests msg len = true)
    (client : chaddr msg = entry.clientMac) (asks : askedAddresses msg len = [entry.clientIp]) :
    let packets := (processDhcpMessage (dhcpServer.run server messages).dhcps msg len).2.packets
    packets ≠ [] ∧ ∀ packet ∈ packets, Carries msg packet.msg .ack entry.clientIp := by
  have keeps := keeps_run_from server messages
  generalize (dhcpServer.run server messages).dhcps = dhcps at keeps
  have kept : CacheInvariant dhcps := keeps.cache kept
  have cached : ⟨chaddr msg, entry.clientIp⟩ ∈ dhcps.ipMacMapping := by
    rw [client]
    exact keeps.entries.subset entered
  have last_eq : lastInSubnet dhcps [entry.clientIp] = some entry.clientIp := by
    simp [lastInSubnet, (kept.assignable _ cached).subnet]
  have acknowledged : Acknowledged dhcps msg len := by
    refine ⟨accepts, request, ?_⟩
    rw [asks, (foldl_ask_cached kept cached false _).2, last_eq]
    exact decide_eq_true rfl
  obtain ⟨-, some_packet, carries⟩ := processDhcpMessage_acknowledged kept acknowledged
  rw [asks] at carries
  exact ⟨some_packet, carries⟩

theorem lease_is_kept_two_clients :
    let received := requestOf 1 0x0500a8c0 [53, 1, 3, 0xFF]
    let server := dhcpServer.run ⟨exampleServer, true⟩ [received]
    let dhcps := (dhcpServer.run server [requestOf 2 0x0500a8c0 [53, 1, 3, 0xFF]]).dhcps
    let packets := (processDhcpMessage dhcps received.msg received.len).2.packets
    packets ≠ [] ∧ ∀ packet ∈ packets, Carries received.msg packet.msg .ack 0x0500a8c0 := by
  intro received server
  have kept : CacheInvariant server.dhcps :=
    (keeps_run_from _ [received]).cache (cacheInvariant_init _ _ _ _ _)
  have entered : ⟨[0, 0, 0, 0, 0, 1], 0x0500a8c0⟩ ∈ server.dhcps.ipMacMapping := by decide
  exact lease_is_kept kept entered _ (by decide) (by decide) (by decide) (by decide)

end BdkFreertos.Dhcp
