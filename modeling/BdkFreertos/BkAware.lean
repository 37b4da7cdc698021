import BdkFreertos.MacFrame

/-!
# The frames of BK-AWARE

BK-AWARE carries data of its user in the vendor element of an action frame.
`bk_aware_construct_frame` lays the frame out byte by byte, and `bk_aware_monitor_cb` takes each
received frame apart again and hands the data of those meant for it to the registered callback.
-/

namespace BdkFreertos.BkAware

/-- The record `bk_aware_peer_info_t`. -/
structure PeerInfo where
  peerAddr : MacAddr
  lmk : Vector UInt8 16
  channel : UInt8
  ifidx : UInt8
  encrypt : Bool
  /-- The pointer `priv`. -/
  priv : ℕ
  deriving DecidableEq

/-- The record `bk_aware_env`. -/
structure Env where
  list : List PeerInfo
  localAddr : MacAddr
  oui : Vector UInt8 3
  inited : Bool
  /-- Whether a callback is registered as `recv_cb`. -/
  recvCb : Bool

/-- `bk_aware_is_peer_exist`. -/
def bkAwareIsPeerExist (env : Env) (peerAddr : MacAddr) : Bool :=
  env.list.any fun peer => peer.peerAddr = peerAddr

/-- `WLAN_ACTION_VENDOR_SPECIFIC`. -/
def wlanActionVendorSpecific : UInt8 := 127

def wlanEidVendorSpecific : UInt8 := 221

def bkAwareMaxDataLen : ℕ := 250

/-- `bk_aware_construct_frame`, with the outcome of its allocation and what `bk_rand` gives. -/
def bkAwareConstructFrame (allocated : Bool) (randomValue : UInt32) (env : Env)
    (peerAddr : MacAddr) (data : List UInt8) : Option (List UInt8) :=
  if allocated then
    let addr3 := if isMulticastEtherAddr peerAddr then peerAddr else env.localAddr
    some (macHdrBytes macFctrlAction 0 peerAddr env.localAddr addr3 0 ++
      ([wlanActionVendorSpecific] ++ (env.oui.toList ++ (wordBytes randomValue ++
        ([wlanEidVendorSpecific, UInt8.ofNat (3 + 1 + 1 + data.length)] ++ (env.oui.toList ++
          ([4, 1] ++ data)))))))
  else none

/-- A call of `recv_cb`. -/
structure RecvCall where
  macAddr : MacAddr
  /-- The bytes from `data` on, `data_len` of them. -/
  data : List UInt8
  dataLen : Int
  deriving DecidableEq

/-- `bk_aware_monitor_cb` on the memory from `data` on: the calls of `recv_cb` it makes.  Nothing is
compared with the length of the frame. -/
def bkAwareMonitorCb (env : Env) (data : Memory UInt8) : List RecvCall :=
  let framectrl := halfOfBytes (data 0) (data 1)
  if env.inited = false then []
  else if framectrl &&& macFctrlTypesubtypeMask = macFctrlAction then
    let category := data 24
    let userLen := data 33
    if category ≠ wlanActionVendorSpecific then []
    else if data.load 25 3 ≠ env.oui.toList then []
    else if data 32 ≠ wlanEidVendorSpecific then []
    else if data.load 34 3 ≠ env.oui.toList then []
    else if data 37 ≠ 4 then []
    else if env.recvCb then
      if (bkAwareIsPeerExist env (loadAddr data 10) && loadAddr data 4 = env.localAddr) ||
          isMulticastEtherAddr (loadAddr data 16) then
        [⟨loadAddr data 10, data.load 39 (userLen.toNat - 5), (userLen.toNat : Int) - 5⟩]
      else []
    else []
  else []

theorem load_of_holds_oui {data : Memory UInt8} {offset : ℕ} {oui : Vector UInt8 3}
    (held : data.Holds offset oui.toList) : data.load offset 3 = oui.toList := by
  rw [Memory.Holds, Vector.length_toList] at held
  exact held

/-- The fields of a frame for an address, each at its place in memory. -/
structure Framed (data : Memory UInt8) (env : Env) (peerAddr : MacAddr) (payload : List UInt8) :
    Prop where
  control : halfOfBytes (data 0) (data 1) = macFctrlAction
  addr1 : loadAddr data 4 = peerAddr
  addr2 : loadAddr data 10 = env.localAddr
  addr3 : loadAddr data 16 = if isMulticastEtherAddr peerAddr then peerAddr else env.localAddr
  category : data 24 = wlanActionVendorSpecific
  oui : data.load 25 3 = env.oui.toList
  element : data 32 = wlanEidVendorSpecific
  userLen : data 33 = UInt8.ofNat (5 + payload.length)
  elementOui : data.load 34 3 = env.oui.toList
  type : data 37 = 4
  body : data.Holds 39 payload

theorem framed_of_construct {data : Memory UInt8} {env : Env} {randomValue : UInt32}
    {peerAddr : MacAddr} {payload frame : List UInt8}
    (built : bkAwareConstructFrame true randomValue env peerAddr payload = some frame)
    (held : data.Holds 0 frame) : Framed data env peerAddr payload := by
  rw [bkAwareConstructFrame, if_pos rfl, Option.some.injEq] at built
  subst built
  simp only [macHdrBytes, halfBytes, Memory.holds_append, Memory.holds_cons, List.length_append,
    List.length_cons, List.length_nil, Vector.length_toList, length_wordBytes, Nat.reduceAdd,
    List.cons_append, List.nil_append] at held
  obtain ⟨control_low, control_high, -, -, ⟨addr1, addr2, addr3, -⟩, category, oui, -, element,
    userLen, elementOui, type, -, body⟩ := held
  refine
    { control := ?_
      addr1 := loadAddr_of_holds addr1
      addr2 := loadAddr_of_holds addr2
      addr3 := loadAddr_of_holds addr3
      category := category
      oui := load_of_holds_oui oui
      element := element
      userLen := userLen
      elementOui := load_of_holds_oui elementOui
      type := type
      body := body }
  rw [control_low, control_high]
  decide

/-- The receiver takes a frame for its own address from a sender it knows, and every frame for a
multicast address. -/
theorem Framed.accepted {data : Memory UInt8} {sender receiver : Env} {peerAddr : MacAddr}
    {payload : List UInt8} (framed : Framed data sender peerAddr payload)
    (addressed : (bkAwareIsPeerExist receiver sender.localAddr = true ∧
      receiver.localAddr = peerAddr) ∨ isMulticastEtherAddr peerAddr = true) :
    ((bkAwareIsPeerExist receiver (loadAddr data 10) && loadAddr data 4 = receiver.localAddr) ||
      isMulticastEtherAddr (loadAddr data 16)) = true := by
  rw [framed.addr1, framed.addr2, framed.addr3, Bool.or_eq_true, Bool.and_eq_true,
    decide_eq_true_eq]
  rcases addressed with ⟨known, own⟩ | multicast
  · exact Or.inl ⟨known, own.symm⟩
  · right
    rw [if_pos multicast]
    exact multicast

/-- For every address, random value and payload that BK-AWARE allows, an initialised receiver with
the sender's OUI and a registered callback that owns the destination and knows the sender, or whose
frame is for a multicast address, calls the callback once, with the sender's address and exactly
the payload, whatever stands behind the frame in memory. -/
theorem frame_round_trip (sender receiver : Env) (peerAddr : MacAddr) (randomValue : UInt32)
    (payload : List UInt8) (short : payload.length ≤ bkAwareMaxDataLen)
    (inited : receiver.inited = true) (registered : receiver.recvCb = true)
    (same_oui : receiver.oui = sender.oui)
    (addressed : (bkAwareIsPeerExist receiver sender.localAddr = true ∧
      receiver.localAddr = peerAddr) ∨ isMulticastEtherAddr peerAddr = true) :
    ∃ frame, bkAwareConstructFrame true randomValue sender peerAddr payload = some frame ∧
      ∀ data : Memory UInt8, data.Holds 0 frame →
        bkAwareMonitorCb receiver data = [⟨sender.localAddr, payload, payload.length⟩] := by
  refine ⟨_, rfl, ?_⟩
  intro data held
  have framed := framed_of_construct rfl held
  have accepted := framed.accepted addressed
  -- the length byte counts five bytes of the element's head, and the longest payload just fits
  have userLen : (data 33).toNat = 5 + payload.length := by
    rw [framed.userLen]
    refine UInt8.toNat_ofNat_of_lt' ?_
    rw [bkAwareMaxDataLen] at short
    change 5 + payload.length < 256
    omega
  have action : macFctrlAction &&& macFctrlTypesubtypeMask = macFctrlAction := by decide
  simp only [bkAwareMonitorCb, framed.control, framed.category, framed.oui, framed.element,
    framed.elementOui, framed.type, inited, registered, same_oui, action, accepted, userLen,
    ne_eq, not_true_eq_false, if_true, if_false, Bool.true_eq_false, Nat.add_sub_cancel_left]
  have body : data.load 39 payload.length = payload := framed.body
  rw [body, framed.addr2]
  congr 2
  push_cast
  omega

def cfgBkAwareOui : Vector UInt8 3 := #v[0xC8, 0x47, 0x8C]

/-- A station with a registered callback that knows one other. -/
def pairedStation (localAddr peerAddr : MacAddr) : Env where
  list := [⟨peerAddr, Vector.replicate 16 0, 0, 0, false, 0⟩]
  localAddr := localAddr
  oui := cfgBkAwareOui
  inited := true
  recvCb := true

/-- The longest payload between two stations that know each other. -/
theorem frame_round_trip_longest :
    (List.replicate 250 (7 : UInt8)).length ≤ bkAwareMaxDataLen ∧
      ∃ frame, bkAwareConstructFrame true 5 (pairedStation #v[2, 0, 0, 0, 0, 1]
          #v[2, 0, 0, 0, 0, 2]) #v[2, 0, 0, 0, 0, 2] (List.replicate 250 7) = some frame ∧
        ∀ data : Memory UInt8, data.Holds 0 frame →
          bkAwareMonitorCb (pairedStation #v[2, 0, 0, 0, 0, 2] #v[2, 0, 0, 0, 0, 1]) data =
            [⟨#v[2, 0, 0, 0, 0, 1], List.replicate 250 7,
              (List.replicate 250 (7 : UInt8)).length⟩] := by
  have short : (List.replicate 250 (7 : UInt8)).length ≤ bkAwareMaxDataLen :=
    Nat.le_of_eq List.length_replicate
  exact ⟨short, frame_round_trip (pairedStation #v[2, 0, 0, 0, 0, 1] #v[2, 0, 0, 0, 0, 2])
    (pairedStation #v[2, 0, 0, 0, 0, 2] #v[2, 0, 0, 0, 0, 1]) #v[2, 0, 0, 0, 0, 2] 5
    (List.replicate 250 7) short rfl rfl rfl (Or.inl ⟨by decide, rfl⟩)⟩

end BdkFreertos.BkAware
