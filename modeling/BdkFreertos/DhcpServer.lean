import BdkFreertos.ByteOrder
import BdkFreertos.Machine
import BdkFreertos.Memory

/-!
# The DHCP server

The server of the soft access point keeps a cache of at most eight hardware addresses with the
addresses given to them.  `process_dhcp_message` walks the options of a received message, decides on
a response and rebuilds the message in place.  Addresses are stored in network order; the receive
buffer is a memory of which the first `len` bytes were received and the rest is whatever it held.
-/

namespace BdkFreertos.Dhcp

/-- The size of the cache, `MAC_IP_CACHE_SIZE`. -/
def macIpCacheSize : ℕ := 8

/-- The size of the receive buffer, `SERVER_BUFFER_SIZE`. -/
def serverBufferSize : ℕ := 1024

/-- The result of a lookup that fails, `CLIENT_IP_NOT_FOUND`. -/
def clientIpNotFound : UInt32 := 0

/-- An entry of the cache. -/
structure ClientMacCache where
  clientMac : List UInt8
  clientIp : UInt32
  deriving DecidableEq

/-- The server's data, with the two global settings its responses read. -/
structure Dhcps where
  /-- The first `count_clients` entries of the cache. -/
  ipMacMapping : List ClientMacCache
  netmask : UInt32
  myIp : UInt32
  clientIp : UInt32
  /-- The last address taken from the subnet, in host order. -/
  currentIp : UInt32
  routerIp : UInt32
  /-- The address a unicast response goes to. -/
  uaddr : UInt32
  /-- `dhcp_address_timeout`. -/
  addressTimeout : UInt32
  /-- Whether `dhcp_nack_dns_server_handler` is set. -/
  nackDnsServer : Bool

/-! ## The address cache -/

def acNotFull (dhcps : Dhcps) : Bool :=
  dhcps.ipMacMapping.length < macIpCacheSize

/-- Add an entry to the cache unless it is full. -/
def acAdd (dhcps : Dhcps) (chaddr : List UInt8) (clientIp : UInt32) : Dhcps :=
  if acNotFull dhcps then
    { dhcps with ipMacMapping := dhcps.ipMacMapping ++ [⟨chaddr, clientIp⟩] }
  else
    dhcps

/-- The address cached for a hardware address. -/
def acLookupMac (dhcps : Dhcps) (chaddr : List UInt8) : UInt32 :=
  match dhcps.ipMacMapping.find? fun entry => entry.clientMac = chaddr with
  | some entry => entry.clientIp
  | none => clientIpNotFound

def acLookupIp (dhcps : Dhcps) (clientIp : UInt32) : Option (List UInt8) :=
  (dhcps.ipMacMapping.find? fun entry => entry.clientIp = clientIp).map ClientMacCache.clientMac

/-- Whether an address, in host order, is neither reserved nor cached. -/
def acValidIp (dhcps : Dhcps) (requestedIp : UInt32) : Bool :=
  if requestedIp = ntohl dhcps.myIp ∨ requestedIp = ntohl (dhcps.myIp &&& dhcps.netmask) ∨
      requestedIp = ntohl (dhcps.myIp ||| (0xffffffff &&& ~~~dhcps.netmask)) then
    false
  else
    (acLookupIp dhcps (htonl requestedIp)).isNone

/-- The address behind `current_ip` in the subnet. -/
def nextIp (dhcps : Dhcps) : UInt32 :=
  ntohl (dhcps.myIp &&& dhcps.netmask) |||
    ((dhcps.currentIp + 1) &&& ntohl (~~~dhcps.netmask))

/-- The search of `next_yiaddr`.  The cache does not change while it runs, so a search of more
rounds than there are addresses repeats one and never ends. -/
def nextYiaddrLoop : ℕ → Dhcps → Option Dhcps
  | 0, _ => none
  | rounds + 1, dhcps =>
      if acValidIp dhcps dhcps.currentIp then
        some dhcps
      else
        nextYiaddrLoop rounds { dhcps with currentIp := nextIp dhcps }

/-- The address to offer to a client, cached for it when there is room. -/
def nextYiaddr (dhcps : Dhcps) (chaddr : List UInt8) : Option (Dhcps × UInt32) :=
  let newIp := acLookupMac dhcps chaddr
  if newIp = clientIpNotFound then
    (nextYiaddrLoop (2 ^ 32 + 1) { dhcps with currentIp := nextIp dhcps }).map fun dhcps =>
      let newIp := htonl dhcps.currentIp
      (acAdd dhcps chaddr newIp, newIp)
  else
    some (dhcps, newIp)

/-! ## Received messages -/

/-- `sizeof(struct bootp_header)`. -/
def sizeofBootpHeader : ℕ := 240

/-- `sizeof(struct bootp_option)`. -/
def sizeofBootpOption : ℕ := 2

/-- The fields of `struct bootp_header` that are read, from here on. -/
def op (msg : Memory UInt8) : UInt8 := msg 0

def htype (msg : Memory UInt8) : UInt8 := msg 1

def hlen (msg : Memory UInt8) : UInt8 := msg 2

def ciaddr (msg : Memory UInt8) : UInt32 := msg.loadWord 12

def yiaddr (msg : Memory UInt8) : UInt32 := msg.loadWord 16

def chaddr (msg : Memory UInt8) : List UInt8 := msg.load 28 6

/-- The responses the server makes. -/
inductive ResponseType
  | offer
  | ack
  | nak
  deriving DecidableEq

/-- The value of a response in `enum dhcp_message_type`. -/
def ResponseType.code : ResponseType → UInt8
  | offer => 2
  | ack => 5
  | nak => 6

/-- What the options have told so far. -/
structure Parse where
  dhcps : Dhcps
  /-- `none` is `DHCP_NO_RESPONSE`. -/
  responseType : Option ResponseType
  gotIp : Bool
  needIp : Bool
  gotClientIp : Bool

/-- Assign `client_ip`. -/
def Dhcps.setClientIp (dhcps : Dhcps) (clientIp : UInt32) : Dhcps :=
  { dhcps with clientIp := clientIp }

/-- The message-type option. -/
def readMessageType (msg : Memory UInt8) (opt : ℕ) (parse : Parse) : Parse :=
  if msg opt = 53 ∧ msg (opt + 1) = 1 then
    if msg (opt + 2) = 1 then
      { parse with responseType := some .offer }
    else if msg (opt + 2) = 3 then
      if ciaddr msg ≠ 0 then
        { parse with
          needIp := true
          dhcps := parse.dhcps.setClientIp (ciaddr msg)
          gotClientIp := true }
      else
        { parse with needIp := true }
    else
      parse
  else
    parse

/-- The requested-address option. -/
def readRequestedIp (msg : Memory UInt8) (opt : ℕ) (parse : Parse) : Parse :=
  if msg opt = 50 ∧ msg (opt + 1) = 4 then
    { parse with
      dhcps := parse.dhcps.setClientIp (msg.loadWord (opt + 2))
      gotClientIp := true }
  else
    parse

def inSubnet (dhcps : Dhcps) (address : UInt32) : Bool :=
  address &&& dhcps.netmask = dhcps.myIp &&& dhcps.netmask

/-- Decide whether a client may have the address it last asked for; the result carries `got_ip`. -/
def considerClientIp (chaddr : List UInt8) (dhcps : Dhcps) (gotIp : Bool) : Dhcps × Bool :=
  if inSubnet dhcps dhcps.clientIp then
    let newIp := acLookupMac dhcps chaddr
    if newIp ≠ clientIpNotFound then
      (dhcps, newIp = dhcps.clientIp)
    else if acValidIp dhcps (ntohl dhcps.clientIp) then
      (if acNotFull dhcps then acAdd dhcps chaddr dhcps.clientIp else dhcps, true)
    else
      (dhcps, gotIp)
  else
    (dhcps, gotIp)

/-- The end of the body of the option loop. -/
def decideResponse (chaddr : List UInt8) (parse : Parse) : Parse :=
  let (dhcps, gotIp) :=
    if parse.gotClientIp then considerClientIp chaddr parse.dhcps parse.gotIp
    else (parse.dhcps, parse.gotIp)
  { parse with
    dhcps := dhcps
    gotIp := gotIp
    responseType :=
      if parse.needIp then some (if gotIp then .ack else .nak) else parse.responseType }

def readOption (msg : Memory UInt8) (parse : Parse) (opt : ℕ) : Parse :=
  decideResponse (chaddr msg) (readRequestedIp msg opt (readMessageType msg opt parse))

/-- The option loop, with `len` bytes left from `opt` on.  A length that would become negative ends
the loop like zero does; every round takes at least two bytes, so `len` rounds are enough. -/
def optionLoop (msg : Memory UInt8) : ℕ → ℕ → ℕ → Parse → Parse
  | 0, _, _, parse => parse
  | rounds + 1, len, opt, parse =>
      if 0 < len ∧ msg opt ≠ 0xFF then
        let parse := readOption msg parse opt
        let consumed := sizeofBootpOption + (msg (opt + 1)).toNat
        optionLoop msg rounds (len - consumed) (opt + consumed) parse
      else
        parse

/-! ## Responses -/

/-- Write an option with a word as its value. -/
def writeOption (msg : Memory UInt8) (offset : ℕ) (type : UInt8) (value : UInt32) :
    Memory UInt8 :=
  msg.store offset (type :: 4 :: wordBytes value)

def writeHeader (msg : Memory UInt8) (yiaddr : UInt32) : Memory UInt8 :=
  ((((msg.store 0 [2, 1, 6, 0]).storeWord 12 0).storeWord 16 yiaddr).storeWord 20 0).storeWord 24 0

/-- Write the options of a response; the result carries its length. -/
def writeOptions (dhcps : Dhcps) (msg : Memory UInt8) (type : ResponseType) :
    Memory UInt8 × ℕ :=
  let msg := msg.store 240 [53, 1, type.code]
  if type = .nak then
    (msg, 243)
  else
    let msg := writeOption msg 243 1 dhcps.netmask
    let msg := writeOption msg 249 51 (htonl dhcps.addressTimeout)
    let msg := writeOption msg 255 54 dhcps.myIp
    let msg := writeOption msg 261 3 dhcps.routerIp
    let msg := writeOption msg 267 6 (if dhcps.nackDnsServer then dhcps.routerIp else 0)
    (msg.store 273 [0xFF], 274)

/-- Rebuild a message as a response, unless the search for an address never ends. -/
def makeResponse (dhcps : Dhcps) (msg : Memory UInt8) (type : ResponseType) :
    Option (Dhcps × Memory UInt8 × ℕ) :=
  let assigned :=
    match type with
    | .offer => nextYiaddr dhcps (chaddr msg)
    | .ack => some (dhcps, dhcps.clientIp)
    | .nak => some (dhcps, 0)
  assigned.map fun (dhcps, yiaddr) => (dhcps, writeOptions dhcps (writeHeader msg yiaddr) type)

/-- A message handed to `send_response`. -/
structure Packet where
  addr : UInt32
  msg : Memory UInt8
  len : ℕ

/-- What a call of `process_dhcp_message` returns and sends. -/
structure Reply where
  returned : Option Int
  packets : List Packet
  /-- The address announced by `send_gratuitous_arp`. -/
  gratuitousArp : Option UInt32

def setBroadcast (msg : Memory UInt8) (broadcast : Bool) : Memory UInt8 :=
  msg.store 10 [if broadcast then msg 10 ||| 0x80 else msg 10 &&& 0x7f]

/-- Send a response, once to the new address if there is one and three times to all. -/
def sendResponses (dhcps : Dhcps) (msg : Memory UInt8) (len : ℕ) : Dhcps × List Packet :=
  let dstIp := yiaddr msg
  let broadcast := ⟨0xffffffff, setBroadcast msg true, len⟩
  if dstIp ≠ 0 then
    ({ dhcps with uaddr := dstIp },
      ⟨dstIp, setBroadcast msg false, len⟩ :: List.replicate 3 broadcast)
  else
    (dhcps, List.replicate 3 broadcast)

/-- Nothing told yet. -/
def Parse.initial (dhcps : Dhcps) : Parse where
  dhcps := dhcps
  responseType := none
  gotIp := false
  needIp := false
  gotClientIp := false

def parseOptions (dhcps : Dhcps) (msg : Memory UInt8) (len : ℕ) : Parse :=
  optionLoop msg len (len - sizeofBootpHeader) sizeofBootpHeader (.initial dhcps)

/-- Whether the header of a message is accepted. -/
def acceptsHeader (msg : Memory UInt8) (len : ℕ) : Bool :=
  sizeofBootpHeader + sizeofBootpOption + 1 ≤ len ∧ (op msg = 1 ∨ op msg = 2) ∧
    htype msg = 1 ∧ hlen msg = 6

/-- Handle a received message. -/
def processDhcpMessage (dhcps : Dhcps) (msg : Memory UInt8) (len : ℕ) : Dhcps × Reply :=
  if acceptsHeader msg len then
    let parse := parseOptions dhcps msg len
    match parse.responseType with
    | none => (parse.dhcps, ⟨some 0, [], none⟩)
    | some type =>
        match makeResponse parse.dhcps msg type with
        | none => (parse.dhcps, ⟨none, [], none⟩)
        | some (dhcps, msg, len) =>
            let (dhcps, packets) := sendResponses dhcps msg len
            (dhcps, ⟨some 0, packets, if type = .ack then some dhcps.myIp else none⟩)
  else
    (dhcps, ⟨some (-1), [], none⟩)

/-! ## The server -/

/-- The data after `dhcp_server_init`. -/
def dhcpServerInit (myIp netmask routerIp addressTimeout : UInt32) (nackDnsServer : Bool) :
    Dhcps where
  ipMacMapping := []
  netmask := netmask
  myIp := myIp
  clientIp := 0
  currentIp := ntohl (myIp &&& netmask) ||| (99 &&& ntohl (~~~netmask))
  routerIp := routerIp
  uaddr := 0xffffffff
  addressTimeout := addressTimeout
  nackDnsServer := nackDnsServer

/-- The receive buffer after a message has been received. -/
structure Received where
  msg : Memory UInt8
  len : ℕ
  admitted : 0 < len ∧ len ≤ serverBufferSize

/-- The server's task. -/
structure Server where
  dhcps : Dhcps
  running : Bool

/-- The receive loop; a message whose handling never ends is the last one. -/
def dhcpServer : Machine Server Received Reply where
  step server received :=
    if server.running then
      let (dhcps, reply) := processDhcpMessage server.dhcps received.msg received.len
      (⟨dhcps, reply.returned.isSome⟩, reply)
    else
      (server, ⟨none, [], none⟩)

end BdkFreertos.Dhcp
