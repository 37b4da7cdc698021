import BdkFreertos.Machine
import BdkFreertos.Memory

/-!
# Reading from an OUT endpoint of the USB device controller

`usbd_ep_start_read` arms a non-zero OUT endpoint, takes the packets that have come early and
enables the receive interrupt of the endpoint; from then on `USBD_IRQHandler` takes them.  Both call
the completion callback, which may call `usbd_ep_start_read`.
-/

namespace BdkFreertos.UsbDc

/-- The fields of `g_musb_udc.out_ep[ep_idx]` that are used here. -/
structure OutEp where
  epMps : UInt16
  epEnable : Bool
  xferBuf : ℕ
  xferLen : UInt32
  actualXferLen : UInt32

/-- A call that has not returned. -/
inductive Frame
  /-- `usbd_ep_start_read`, where it reads `RXCSRL`. -/
  | startRead
  /-- The completion callback, called by `USBD_IRQHandler` or by `usbd_ep_start_read`. -/
  | callback (fromIrq : Bool)
  deriving DecidableEq

/-- What the driver does for the application. -/
inductive Action
  /-- A read into the `len` bytes from `data` on is armed. -/
  | armed (data len : ℕ)
  | stored (address : ℕ) (packet : List UInt8)
  /-- The callback is called with a number of bytes, and finds this memory. -/
  | completed (nbytes : ℕ) (memory : Memory UInt8)

/-- An endpoint of the device, with the calls that are under way. -/
structure Device where
  outEp : OutEp
  /-- The packet in the FIFO of the endpoint; `USB_RXCSRL1_RXRDY` is set while there is one. -/
  fifo : Option (List UInt8)
  /-- The bit of the endpoint in `RXIEL`. -/
  rxiel : Bool
  memory : Memory UInt8
  /-- The calls under way, the one that runs first. -/
  stack : List Frame
  /-- What the driver has done, the last action last. -/
  log : List Action
  arrived : List (List UInt8)

/-- An open endpoint without a read. -/
def Device.start (epMps : UInt16) (memory : Memory UInt8) : Device where
  outEp := ⟨epMps, true, 0, 0, 0⟩
  fifo := none
  rxiel := false
  memory := memory
  stack := []
  log := []
  arrived := []

/-- The loop over single bytes of `musb_read_packet`. -/
def readBytes (memory : Memory UInt8) (buffer : ℕ) : List UInt8 → Memory UInt8
  | [] => memory
  | byte :: fifo => readBytes (memory.store buffer [byte]) (buffer + 1) fifo

/-- The loop over words of `musb_read_packet`, and the bytes that are left. -/
def readWords (memory : Memory UInt8) (buffer : ℕ) : List UInt8 → Memory UInt8
  | byte₀ :: byte₁ :: byte₂ :: byte₃ :: fifo =>
      readWords (memory.storeWord buffer (wordOfBytes byte₀ byte₁ byte₂ byte₃)) (buffer + 4) fifo
  | fifo => readBytes memory buffer fifo

/-- `musb_read_packet`, which takes a whole packet. -/
def musbReadPacket (memory : Memory UInt8) (buffer : ℕ) (packet : List UInt8) : Memory UInt8 :=
  if buffer % 4 ≠ 0 then readBytes memory buffer packet else readWords memory buffer packet

/-- The host sends a packet, which the endpoint accepts when the FIFO is empty. -/
def packetIn (device : Device) (packet : List UInt8) : Device :=
  match device.fifo with
  | none => { device with fifo := some packet, arrived := device.arrived ++ [packet] }
  | some _ => device

/-- The packet is read, `RXRDY` cleared and the transfer updated: the same lines in
`usbd_ep_start_read` and `USBD_IRQHandler`. -/
def takePacket (device : Device) (packet : List UInt8) : Device :=
  let readCount := UInt16.ofNat packet.length
  { device with
    memory := musbReadPacket device.memory device.outEp.xferBuf packet
    fifo := none
    outEp :=
      { device.outEp with
        xferBuf := device.outEp.xferBuf + readCount.toNat
        actualXferLen := device.outEp.actualXferLen + readCount.toUInt32
        xferLen := device.outEp.xferLen - readCount.toUInt32 }
    log := device.log ++ [.stored device.outEp.xferBuf packet] }

/-- The test for the end of a transfer, after a packet was taken. -/
def transferOver (device : Device) (packet : List UInt8) : Bool :=
  UInt16.ofNat packet.length < device.outEp.epMps || device.outEp.xferLen == 0

/-- The call of `usbd_event_ep_out_complete_handler`. -/
def outComplete (device : Device) (fromIrq : Bool) : Device :=
  { device with
    stack := .callback fromIrq :: device.stack
    log := device.log ++ [.completed device.outEp.actualXferLen.toNat device.memory] }

/-- `usbd_ep_start_read` up to its loop, for a non-zero endpoint. -/
def usbdEpStartRead (device : Device) (data : Option ℕ) (dataLen : UInt32) : Except ℤ Device :=
  if data = none ∧ dataLen ≠ 0 then .error (-1)
  else if device.outEp.epEnable = false then .error (-2)
  else
    let xferBuf := data.getD 0
    let outEp := { device.outEp with xferBuf := xferBuf, xferLen := dataLen, actualXferLen := 0 }
    if dataLen = 0 then .ok { device with outEp := outEp }
    else
      .ok { device with
        outEp := outEp
        stack := .startRead :: device.stack
        log := device.log ++ [.armed xferBuf dataLen.toNat] }

/-- A round of the loop of `usbd_ep_start_read`, or its end with what follows. -/
def drainStep (device : Device) : Device :=
  match device.stack, device.fifo with
  | .startRead :: stack, none => { device with rxiel := true, stack := stack }
  | .startRead :: _, some packet =>
      let taken := takePacket device packet
      if transferOver taken packet then outComplete taken false else taken
  | _, _ => device

/-- The part of `USBD_IRQHandler` for the endpoint, with its bit in `RXIS`. -/
def usbdIRQHandler (device : Device) (rxis : Bool) : Device :=
  if rxis && device.rxiel then
    match device.fifo with
    | none => device
    | some packet =>
        let taken := takePacket device packet
        if transferOver taken packet then outComplete { taken with rxiel := false } true else taken
  else device

/-- `USBD_IRQHandler` is under way. -/
def Device.InIrq (device : Device) : Prop := .callback true ∈ device.stack

instance (device : Device) : Decidable device.InIrq :=
  inferInstanceAs (Decidable (_ ∈ _))

inductive Event
  | packetIn (packet : List UInt8)
  /-- The application or its callback calls `usbd_ep_start_read`. -/
  | startRead (data : Option ℕ) (dataLen : UInt32)
  /-- The loop of `usbd_ep_start_read` goes on. -/
  | drain
  | callbackReturns
  /-- `USBD_IRQHandler` is called; it does not interrupt itself. -/
  | irq (rxis : Bool)

/-- The endpoint with the host, the application and the interrupt in any order. -/
def endpoint : Machine Device Event Unit where
  step device event :=
    (match event with
      | .packetIn packet => packetIn device packet
      | .startRead data dataLen =>
          if device.stack.head? = some .startRead then device
          else
            match usbdEpStartRead device data dataLen with
            | .error _ => device
            | .ok device => device
      | .drain => drainStep device
      | .callbackReturns =>
          match device.stack with
          | .callback _ :: stack => { device with stack := stack }
          | _ => device
      | .irq rxis => if device.InIrq then device else usbdIRQHandler device rxis, ())

/-- What an OUT endpoint is for: a read is armed, takes packets in order until one is short or the
buffer is full, and completes. -/
inductive Phase
  | idle
  /-- The bytes received so far. -/
  | armed (data len : ℕ) (received : List UInt8)
  /-- The read is to be completed. -/
  | over (data : ℕ) (received : List UInt8)
  deriving DecidableEq

/-- The actions that are right in each phase. -/
def Phase.next (mps : ℕ) : Phase → Action → Option Phase
  | .idle, .armed data len => some (.armed data len [])
  | .armed data len received, .stored address packet =>
      if address = data + received.length ∧ received.length + packet.length ≤ len then
        if packet.length < mps ∨ received.length + packet.length = len then
          some (.over data (received ++ packet))
        else some (.armed data len (received ++ packet))
      else none
  | .over data received, .completed nbytes memory =>
      if nbytes = received.length ∧ memory.load data received.length = received then some .idle
      else none
  | _, _ => none

/-- The phase after everything that the driver has done, if that was right. -/
def Device.phase (device : Device) : Option Phase :=
  device.log.foldlM (Phase.next device.outEp.epMps.toNat) .idle

/-- The packets stored, in the order in which they were. -/
def storedPackets (log : List Action) : List (List UInt8) :=
  log.filterMap fun
    | .stored _ packet => some packet
    | _ => none

/-- Reads take packets and complete as they should, and the packets are stored in the order of their
arrival. -/
structure Good (device : Device) : Prop where
  right : device.phase = some .idle ∨ ∃ data len received,
    device.phase = some (.armed data len received)
  inOrder : device.arrived = storedPackets device.log ++ device.fifo.toList

def Device.Armed (device : Device) : Prop :=
  ∃ data len received, device.phase = some (.armed data len received)

/-- A read is started when none is armed, and a callback returns into the loop of
`usbd_ep_start_read` within the interrupt only, with a read armed. -/
def Careful (device : Device) : Event → Prop
  | .startRead _ _ => device.stack.head? ≠ some .startRead → ¬device.Armed
  | .callbackReturns =>
      ∀ fromIrq stack, device.stack = .callback fromIrq :: .startRead :: stack →
        device.Armed ∧ .callback true ∈ stack
  | _ => True

/-- Packets are not longer than the endpoint allows, and the length of a read is a positive multiple
of that. -/
def Event.Allowed (mps : ℕ) : Event → Prop
  | .packetIn packet => packet.length ≤ mps
  | .startRead data dataLen => data ≠ none ∧ 0 < dataLen.toNat ∧ mps ∣ dataLen.toNat
  | _ => True

/-- What an application does in all runs in which it is used: the host may send any packet at any
time, the driver goes on and the interrupt is taken at any time. -/
structure Application (mps : ℕ) where
  runs : Set (List Event)
  shorter : ∀ {front event}, front ++ [event] ∈ runs → front ∈ runs
  allowed : ∀ {front event}, front ++ [event] ∈ runs → event.Allowed mps
  packetIn : ∀ {run}, run ∈ runs → ∀ packet : List UInt8, packet.length ≤ mps →
    run ++ [.packetIn packet] ∈ runs
  drain : ∀ {run}, run ∈ runs → run ++ [.drain] ∈ runs
  irq : ∀ {run}, run ∈ runs → run ++ [.irq true] ∈ runs

theorem readBytes_eq (memory : Memory UInt8) (buffer : ℕ) (fifo : List UInt8) :
    readBytes memory buffer fifo = memory.store buffer fifo := by
  induction fifo generalizing memory buffer with
  | nil => exact (Memory.store_nil memory buffer).symm
  | cons byte fifo induction =>
      rw [readBytes, induction]
      exact Memory.store_store_adjacent memory buffer [byte] fifo

theorem wordBytes_wordOfBytes (byte₀ byte₁ byte₂ byte₃ : UInt8) :
    wordBytes (wordOfBytes byte₀ byte₁ byte₂ byte₃) = [byte₀, byte₁, byte₂, byte₃] := by
  have bound₀ := byte₀.toNat_lt
  have bound₁ := byte₁.toNat_lt
  have bound₂ := byte₂.toNat_lt
  have bound₃ := byte₃.toNat_lt
  simp only [wordBytes, wordOfBytes, UInt32.toNat_ofNat', List.cons.injEq, and_true]
  refine ⟨?_, ?_, ?_, ?_⟩ <;>
    · apply UInt8.toNat_inj.mp
      simp only [UInt8.toNat_ofNat']
      omega

theorem readWords_eq (memory : Memory UInt8) (buffer : ℕ) (fifo : List UInt8) :
    readWords memory buffer fifo = memory.store buffer fifo := by
  induction memory, buffer, fifo using readWords.induct with
  | case1 memory buffer byte₀ byte₁ byte₂ byte₃ fifo induction =>
      rw [readWords, induction, Memory.storeWord, wordBytes_wordOfBytes]
      exact Memory.store_store_adjacent memory buffer [byte₀, byte₁, byte₂, byte₃] fifo
  | case2 memory buffer fifo few =>
      rw [readWords.eq_2 memory buffer fifo few, readBytes_eq]

theorem musbReadPacket_eq (memory : Memory UInt8) (buffer : ℕ) (packet : List UInt8) :
    musbReadPacket memory buffer packet = memory.store buffer packet := by
  unfold musbReadPacket
  split
  · exact readBytes_eq memory buffer packet
  · exact readWords_eq memory buffer packet

/-- The variables of the endpoint while a read takes packets. -/
structure Held (device : Device) (data len : ℕ) (received : List UInt8) : Prop where
  xferBuf : device.outEp.xferBuf = data + received.length
  xferLen : device.outEp.xferLen.toNat + received.length = len
  actualXferLen : device.outEp.actualXferLen.toNat = received.length
  memory : device.memory.Holds data received

/-- A read that is not over has room for whole packets. -/
structure Unfinished (mps : ℕ) (device : Device) (data len : ℕ) (received : List UInt8) : Prop
    extends Held device data len received where
  room : received.length < len
  len_lt : len < 2 ^ 32
  len_dvd : mps ∣ len
  received_dvd : mps ∣ received.length

section
variable {mps : ℕ} {device : Device} {data len : ℕ} {received packet : List UInt8}

variable {log : List Action} {action : Action} {buffer : Option ℕ} {dataLen : UInt32}
  {stack below : List Frame}

theorem phase_append {phase : Phase} (before : log.foldlM (Phase.next mps) .idle = some phase) :
    (log ++ [action]).foldlM (Phase.next mps) .idle = phase.next mps action := by
  rw [List.foldlM_append, before]
  simp

theorem Unfinished.fits (unfinished : Unfinished mps device data len received)
    (allowed : packet.length ≤ mps) : received.length + packet.length ≤ len := by
  obtain ⟨wholes, len_eq⟩ := unfinished.len_dvd
  obtain ⟨taken, received_eq⟩ := unfinished.received_dvd
  have room := unfinished.room
  rw [len_eq, received_eq] at room ⊢
  have more : taken + 1 ≤ wholes := Nat.lt_of_mul_lt_mul_left room
  calc mps * taken + packet.length ≤ mps * taken + mps := Nat.add_le_add_left allowed _
    _ = mps * (taken + 1) := rfl
    _ ≤ mps * wholes := Nat.mul_le_mul_left mps more

section

variable (unfinished : Unfinished mps device data len received)
  (mps_eq : device.outEp.epMps.toNat = mps) (allowed : packet.length ≤ mps)
include unfinished mps_eq allowed

theorem Unfinished.takePacket :
    Held (UsbDc.takePacket device packet) data len (received ++ packet) := by
  have fits := unfinished.fits allowed
  have count_eq : (UInt16.ofNat packet.length).toNat = packet.length :=
    UInt16.toNat_ofNat_of_lt' (Nat.lt_of_le_of_lt (mps_eq ▸ allowed) device.outEp.epMps.toNat_lt)
  have word_eq : (UInt16.ofNat packet.length).toUInt32.toNat = packet.length := by
    rw [UInt16.toNat_toUInt32, count_eq]
  have xferLen := unfinished.xferLen
  have bound := device.outEp.xferLen.toNat_lt
  constructor
  · show device.outEp.xferBuf + (UInt16.ofNat packet.length).toNat = _
    rw [unfinished.xferBuf, count_eq, List.length_append, Nat.add_assoc]
  · show (device.outEp.xferLen - (UInt16.ofNat packet.length).toUInt32).toNat + _ = len
    have enough : (UInt16.ofNat packet.length).toUInt32 ≤ device.outEp.xferLen := by
      rw [UInt32.le_iff_toNat_le, word_eq]
      omega
    rw [UInt32.toNat_sub_of_le _ _ enough, word_eq, List.length_append]
    omega
  · show (device.outEp.actualXferLen + (UInt16.ofNat packet.length).toUInt32).toNat = _
    have len_lt := unfinished.len_lt
    rw [toNat_add_of_lt] <;> rw [unfinished.actualXferLen, word_eq]
    · exact List.length_append.symm
    · omega
  · show (musbReadPacket device.memory device.outEp.xferBuf packet).Holds data (received ++ packet)
    rw [musbReadPacket_eq, unfinished.xferBuf, Memory.holds_append]
    exact ⟨unfinished.memory.store_of_disjoint (Or.inl (Nat.le_refl _)), Memory.holds_store ..⟩

theorem Unfinished.transferOver_iff :
    transferOver (UsbDc.takePacket device packet) packet = true ↔
      packet.length < mps ∨ received.length + packet.length = len := by
  have count_eq : (UInt16.ofNat packet.length).toNat = packet.length :=
    UInt16.toNat_ofNat_of_lt' (Nat.lt_of_le_of_lt (mps_eq ▸ allowed) device.outEp.epMps.toNat_lt)
  have left_eq := (unfinished.takePacket mps_eq allowed).xferLen
  rw [List.length_append] at left_eq
  rw [transferOver, Bool.or_eq_true, decide_eq_true_iff, beq_iff_eq, UInt16.lt_iff_toNat_lt,
    ← UInt32.toNat_inj, count_eq]
  show packet.length < device.outEp.epMps.toNat ∨ _ = 0 ↔ _
  rw [mps_eq]
  exact or_congr_right (by omega)

end

theorem takePacket_phase (mps_eq : device.outEp.epMps.toNat = mps) {phase : Phase}
    (before : device.phase = some phase) :
    (takePacket device packet).phase =
      phase.next mps (.stored device.outEp.xferBuf packet) := by
  subst mps_eq
  exact phase_append before

/-- `usbd_ep_start_read` calls the callback and is called by it, by the application or by the
interrupt's callback. -/
def Nested : List Frame → Prop
  | [] => True
  | .startRead :: below => below.head? ≠ some .startRead ∧ Nested below
  | .callback fromIrq :: below =>
      (fromIrq = false → below.head? = some .startRead) ∧ Nested below

/-- The endpoint does right and its variables are those of the read. -/
structure Sound (mps : ℕ) (device : Device) : Prop where
  good : Good device
  mps_eq : device.outEp.epMps.toNat = mps
  epEnable : device.outEp.epEnable = true
  allowed : ∀ packet ∈ device.fifo, packet.length ≤ mps
  unfinished : ∀ data len received, device.phase = some (.armed data len received) →
    Unfinished mps device data len received

/-- The loop and the interrupt find a read armed. -/
structure Strong (mps : ℕ) (device : Device) : Prop extends Sound mps device where
  loop : device.stack.head? = some .startRead → device.Armed
  quiet : device.stack.head? ≠ some (.callback false) → device.rxiel = true → device.Armed
  masked : ¬device.InIrq → device.rxiel = true → device.Armed
  enabled : device.Armed → device.stack.head? ≠ some .startRead → device.rxiel = true
  closed : device.stack.head? = some .startRead → ¬device.InIrq → device.rxiel = false
  nested : Nested device.stack

theorem strong_start (epMps : UInt16) (memory : Memory UInt8) :
    Strong epMps.toNat (.start epMps memory) where
  good := ⟨Or.inl rfl, rfl⟩
  mps_eq := rfl
  epEnable := rfl
  allowed _ member := absurd member (by simp [Device.start])
  unfinished _ _ _ armed := absurd (Option.some.inj armed) (by simp)
  loop equal := absurd equal (by simp [Device.start])
  quiet _ enabled := absurd enabled (by simp [Device.start])
  masked _ enabled := absurd enabled (by simp [Device.start])
  enabled := fun ⟨_, _, _, armed⟩ => absurd (Option.some.inj armed) (by simp)
  closed _ _ := rfl
  nested := trivial

theorem not_armed (idle : device.phase = some .idle) : ¬device.Armed := by
  rintro ⟨data, len, received, armed⟩
  exact absurd (idle.symm.trans armed) (by simp)

theorem Unfinished.congr {other : Device} (unfinished : Unfinished mps device data len received)
    (outEp_eq : other.outEp = device.outEp) (memory_eq : other.memory = device.memory) :
    Unfinished mps other data len received :=
  ⟨⟨outEp_eq ▸ unfinished.xferBuf, outEp_eq ▸ unfinished.xferLen,
      outEp_eq ▸ unfinished.actualXferLen, memory_eq ▸ unfinished.memory⟩,
    unfinished.room, unfinished.len_lt, unfinished.len_dvd, unfinished.received_dvd⟩

section

variable (sound : Sound mps device)
include sound

theorem Sound.control (rxiel : Bool) (stack : List Frame) :
    Sound mps { device with rxiel := rxiel, stack := stack } where
  good := ⟨sound.good.right, sound.good.inOrder⟩
  mps_eq := sound.mps_eq
  epEnable := sound.epEnable
  allowed := sound.allowed
  unfinished data len received armed := (sound.unfinished data len received armed).congr rfl rfl

theorem Sound.packetIn (allowed : packet.length ≤ mps) :
    Sound mps (UsbDc.packetIn device packet) := by
  unfold UsbDc.packetIn
  split
  · rename_i empty
    refine { sound with
      good := ⟨sound.good.right, ?_⟩
      allowed := fun other member => Option.mem_some_iff.mp member ▸ allowed
      unfinished := fun data len received armed =>
        (sound.unfinished data len received armed).congr rfl rfl }
    have inOrder := sound.good.inOrder
    rw [empty, Option.toList_none, List.append_nil] at inOrder
    show device.arrived ++ [packet] = storedPackets device.log ++ [packet]
    rw [inOrder]
  · exact sound

theorem Sound.taken (armed : device.Armed) (fifo_eq : device.fifo = some packet)
    (fromIrq rxiel : Bool) :
    (transferOver (takePacket device packet) packet = true ∧
        Sound mps (outComplete { takePacket device packet with rxiel := rxiel } fromIrq) ∧
        (outComplete { takePacket device packet with rxiel := rxiel } fromIrq).phase =
          some .idle) ∨
      (transferOver (takePacket device packet) packet = false ∧
        Sound mps (takePacket device packet) ∧ (takePacket device packet).Armed) := by
  obtain ⟨data, len, received, armed⟩ := armed
  have mps_eq := sound.mps_eq
  have allowed := sound.allowed packet fifo_eq
  have unfinished := sound.unfinished data len received armed
  have held := unfinished.takePacket mps_eq allowed
  have over_iff := unfinished.transferOver_iff mps_eq allowed
  have inOrder : device.arrived = storedPackets (takePacket device packet).log ++ [] := by
    rw [sound.good.inOrder, fifo_eq]
    simp [storedPackets, takePacket]
  have stored : (takePacket device packet).phase =
      Phase.next mps (.armed data len received) (.stored device.outEp.xferBuf packet) :=
    takePacket_phase mps_eq armed
  rw [Phase.next, if_pos ⟨unfinished.xferBuf, unfinished.fits allowed⟩] at stored
  by_cases past : packet.length < mps ∨ received.length + packet.length = len
  · left
    rw [if_pos past] at stored
    have completed : (outComplete { takePacket device packet with rxiel := rxiel } fromIrq).phase =
        some .idle := by
      have right : Phase.next mps (.over data (received ++ packet))
          (.completed (takePacket device packet).outEp.actualXferLen.toNat
            (takePacket device packet).memory) = some .idle :=
        if_pos ⟨held.actualXferLen, held.memory⟩
      rw [← right]
      subst mps_eq
      exact phase_append stored
    refine ⟨over_iff.mpr past, ?_, completed⟩
    constructor
    · refine ⟨Or.inl completed, inOrder.trans ?_⟩
      simp [storedPackets, outComplete, takePacket]
    · exact mps_eq
    · exact sound.epEnable
    · exact fun _ member => absurd member (by simp [outComplete, UsbDc.takePacket])
    · intro data len received armed
      exact absurd ⟨data, len, received, armed⟩ (not_armed completed)
  · right
    rw [if_neg past] at stored
    obtain ⟨long, space⟩ := not_or.mp past
    have whole : packet.length = mps := by omega
    have goesOn : transferOver (takePacket device packet) packet = false :=
      Bool.eq_false_iff.mpr fun isOver => past (over_iff.mp isOver)
    have armed : (takePacket device packet).Armed := ⟨data, len, _, stored⟩
    refine ⟨goesOn, ?_, armed⟩
    constructor
    · exact ⟨Or.inr armed, inOrder⟩
    · exact mps_eq
    · exact sound.epEnable
    · exact fun _ member => absurd member (by simp [UsbDc.takePacket])
    · intro data' len' received' other
      obtain ⟨rfl, rfl, rfl⟩ := Phase.armed.inj (Option.some.inj (stored.symm.trans other))
      refine ⟨held, ?_, unfinished.len_lt, unfinished.len_dvd, ?_⟩
      · have fits := unfinished.fits allowed
        rw [List.length_append]
        omega
      · rw [List.length_append, whole]
        exact (Nat.dvd_add_right unfinished.received_dvd).mpr (Nat.dvd_refl mps)

theorem Sound.empty_over (armed : device.Armed) :
    transferOver (takePacket device []) [] = true := by
  obtain ⟨data, len, received, armed⟩ := armed
  have unfinished := sound.unfinished data len received armed
  have positive : 0 < mps :=
    Nat.pos_of_dvd_of_pos unfinished.len_dvd (Nat.zero_lt_of_lt unfinished.room)
  exact (unfinished.transferOver_iff sound.mps_eq (List.length_nil ▸ Nat.zero_le mps)).mpr
    (Or.inl positive)

end

theorem usbdEpStartRead_allowed (epEnable : device.outEp.epEnable = true)
    (allowed : (Event.startRead buffer dataLen).Allowed mps) :
    ∃ data, usbdEpStartRead device buffer dataLen = .ok { device with
      outEp := { device.outEp with xferBuf := data, xferLen := dataLen, actualXferLen := 0 }
      stack := .startRead :: device.stack
      log := device.log ++ [Action.armed data dataLen.toNat] } := by
  obtain ⟨notNull, positive, -⟩ := allowed
  have nonzero : dataLen ≠ 0 := by
    rintro rfl
    exact absurd positive (by decide)
  exact ⟨buffer.getD 0, by simp [usbdEpStartRead, notNull, epEnable, nonzero]⟩

theorem startRead_wrong (sound : Sound mps device)
    (allowed : (Event.startRead buffer dataLen).Allowed mps) (armed : device.Armed) :
    ∃ next, usbdEpStartRead device buffer dataLen = .ok next ∧ next.phase = none := by
  obtain ⟨data, called⟩ := usbdEpStartRead_allowed sound.epEnable allowed
  obtain ⟨place, len, received, armed⟩ := armed
  exact ⟨_, called, phase_append armed⟩

section

variable (strong : Strong mps device)
include strong

theorem Strong.startRead (allowed : (Event.startRead buffer dataLen).Allowed mps)
    (free : device.stack.head? ≠ some .startRead) (unarmed : ¬device.Armed) :
    ∃ next, usbdEpStartRead device buffer dataLen = .ok next ∧ Strong mps next := by
  obtain ⟨data, called⟩ := usbdEpStartRead_allowed strong.epEnable allowed
  have idle : device.phase = some .idle := strong.good.right.resolve_right unarmed
  let next : Device := { device with
    outEp := { device.outEp with xferBuf := data, xferLen := dataLen, actualXferLen := 0 }
    stack := .startRead :: device.stack
    log := device.log ++ [Action.armed data dataLen.toNat] }
  have phase_eq : next.phase = some (.armed data dataLen.toNat []) := phase_append idle
  have armed : next.Armed := ⟨data, dataLen.toNat, [], phase_eq⟩
  have sound : Sound mps next := by
    constructor
    · refine ⟨Or.inr armed, ?_⟩
      show device.arrived = storedPackets (device.log ++ [Action.armed data dataLen.toNat]) ++ _
      rw [strong.good.inOrder]
      simp [storedPackets]
      rfl
    · exact strong.mps_eq
    · exact strong.epEnable
    · exact strong.allowed
    · intro place len received other
      obtain ⟨rfl, rfl, rfl⟩ := Phase.armed.inj (Option.some.inj (phase_eq.symm.trans other))
      exact ⟨⟨rfl, rfl, rfl, Memory.holds_nil ..⟩, allowed.2.1, dataLen.toNat_lt, allowed.2.2,
        Nat.dvd_zero mps⟩
  exact ⟨next, called, { sound with
    loop := fun _ => armed
    quiet := fun _ _ => armed
    masked := fun _ _ => armed
    enabled := fun _ busy => absurd rfl busy
    closed := fun _ outside => Bool.eq_false_iff.mpr fun enabled =>
      unarmed (strong.masked (fun inside => outside (List.mem_cons_of_mem _ inside)) enabled)
    nested := ⟨free, strong.nested⟩ }⟩

theorem Strong.drain : Strong mps (drainStep device) := by
  unfold drainStep
  split
  · rename_i stack stack_eq fifo_eq
    have armed : device.Armed := strong.loop (by rw [stack_eq]; rfl)
    have nested : Nested (.startRead :: stack) := stack_eq ▸ strong.nested
    exact { strong.control true stack with
      loop := fun again => absurd again nested.1
      quiet := fun _ _ => armed
      masked := fun _ _ => armed
      enabled := fun _ _ => rfl
      closed := fun again => absurd again nested.1
      nested := nested.2 }
  · rename_i stack packet stack_eq fifo_eq
    have busy : device.stack.head? = some .startRead := by rw [stack_eq]; rfl
    rcases strong.taken (strong.loop busy) fifo_eq false device.rxiel with
      ⟨past, sound, idle⟩ | ⟨goesOn, sound, armed⟩
    · rw [if_pos past]
      have outer {frame : Frame} (outside : ¬.callback true ∈ frame :: device.stack) :
          ¬device.InIrq :=
        fun inside => outside (List.mem_cons_of_mem _ inside)
      exact { sound with
        loop := fun again => absurd again (by simp [outComplete])
        quiet := fun other => absurd rfl other
        masked := fun outside enabled =>
          absurd ((strong.closed busy (outer outside)).symm.trans enabled) (by simp)
        enabled := fun armed => absurd armed (not_armed idle)
        closed := fun again => absurd again (by simp [outComplete])
        nested := ⟨fun _ => busy, strong.nested⟩ }
    · rw [if_neg (by simp [goesOn])]
      exact { sound with
        loop := fun _ => armed
        quiet := fun _ _ => armed
        masked := fun _ _ => armed
        enabled := fun _ other => absurd busy other
        closed := strong.closed
        nested := strong.nested }
  · exact strong

theorem Strong.irq (outside : ¬device.InIrq) (rxis : Bool) :
    Strong mps (usbdIRQHandler device rxis) := by
  unfold usbdIRQHandler
  split
  · rename_i asked
    have enabled : device.rxiel = true := (Bool.and_eq_true_iff.mp asked).2
    have free : device.stack.head? ≠ some .startRead := fun loop =>
      absurd ((strong.closed loop outside).symm.trans enabled) (by simp)
    split
    · exact strong
    · rename_i packet fifo_eq
      rcases strong.taken (strong.masked outside enabled) fifo_eq true false with
        ⟨past, sound, idle⟩ | ⟨goesOn, sound, armed⟩
      · rw [if_pos past]
        exact { sound with
          loop := fun again => absurd again (by simp [outComplete])
          quiet := fun _ enabled => absurd enabled (by simp [outComplete])
          masked := fun outside => absurd List.mem_cons_self outside
          enabled := fun armed => absurd armed (not_armed idle)
          closed := fun again => absurd again (by simp [outComplete])
          nested := ⟨fun kind => absurd kind (by simp), strong.nested⟩ }
      · rw [if_neg (by simp [goesOn])]
        exact { sound with
          loop := fun _ => armed
          quiet := fun _ _ => armed
          masked := fun _ _ => armed
          enabled := fun _ _ => enabled
          closed := fun loop => absurd loop free
          nested := strong.nested }
  · exact strong

theorem Strong.callbackReturns {fromIrq : Bool}
    (stack_eq : device.stack = .callback fromIrq :: stack)
    (careful : stack.head? = some .startRead → device.Armed ∧ .callback true ∈ stack) :
    Strong mps { device with stack := stack } := by
  have nested : Nested (.callback fromIrq :: stack) := stack_eq ▸ strong.nested
  have armed (enabled : device.rxiel = true) : device.Armed := by
    cases fromIrq with
    | true => exact strong.quiet (by rw [stack_eq]; simp) enabled
    | false => exact (careful (nested.1 rfl)).1
  exact { strong.control device.rxiel stack with
    loop := fun loop => (careful loop).1
    quiet := fun _ enabled => armed enabled
    masked := fun _ enabled => armed enabled
    enabled := fun armed _ => strong.enabled armed (by rw [stack_eq]; simp)
    closed := fun loop outside => absurd (careful loop).2 outside
    nested := nested.2 }

end

theorem head?_startRead (loop : stack.head? = some .startRead) :
    ∃ below, stack = .startRead :: below := by
  cases stack with
  | nil => exact absurd loop (by simp)
  | cons frame below => exact ⟨below, by rw [Option.some.inj loop]⟩

theorem step_startRead (free : device.stack.head? ≠ some .startRead) (buffer : Option ℕ)
    (dataLen : UInt32) :
    (endpoint.step device (.startRead buffer dataLen)).1 =
      match usbdEpStartRead device buffer dataLen with
      | .error _ => device
      | .ok device => device :=
  if_neg free

theorem step_irq (outside : ¬device.InIrq) (rxis : Bool) :
    (endpoint.step device (.irq rxis)).1 = usbdIRQHandler device rxis :=
  if_neg outside

theorem Strong.step (strong : Strong mps device) {event : Event} (allowed : event.Allowed mps)
    (careful : Careful device event) : Strong mps (endpoint.step device event).1 := by
  cases event with
  | packetIn packet =>
      have sound := strong.toSound.packetIn allowed
      show Strong mps (UsbDc.packetIn device packet)
      unfold UsbDc.packetIn at sound ⊢
      split at sound
      · exact { sound with
          loop := strong.loop
          quiet := strong.quiet
          masked := strong.masked
          enabled := strong.enabled
          closed := strong.closed
          nested := strong.nested }
      · exact strong
  | startRead buffer dataLen =>
      show Strong mps (if _ then _ else _)
      split
      · exact strong
      · rename_i free
        obtain ⟨next, called, kept⟩ := strong.startRead allowed free (careful free)
        rw [called]
        exact kept
  | drain => exact strong.drain
  | callbackReturns =>
      show Strong mps (match device.stack with | .callback _ :: stack => _ | _ => _)
      split
      · rename_i fromIrq stack stack_eq
        refine strong.callbackReturns stack_eq fun loop => ?_
        obtain ⟨below, rfl⟩ := head?_startRead loop
        obtain ⟨armed, inside⟩ := careful fromIrq below stack_eq
        exact ⟨armed, List.mem_cons_of_mem _ inside⟩
      · exact strong
  | irq rxis =>
      show Strong mps (if _ then _ else _)
      split
      · exact strong
      · rename_i outside
        exact strong.irq outside rxis

theorem not_good (wrong : device.phase = none) : ¬Good device := by
  rintro ⟨idle | ⟨data, len, received, armed⟩, -⟩
  · exact absurd (wrong.symm.trans idle) (by simp)
  · exact absurd (wrong.symm.trans armed) (by simp)

theorem foldlM_wrong (wrong : log.foldlM (Phase.next mps) .idle = none) :
    (log ++ [action]).foldlM (Phase.next mps) .idle = none := by
  rw [List.foldlM_append, wrong]
  rfl

theorem drainStep_some (stack_eq : device.stack = .startRead :: below)
    (fifo_eq : device.fifo = some packet) :
    drainStep device =
      if transferOver (takePacket device packet) packet then
        outComplete (takePacket device packet) false
      else takePacket device packet := by
  rw [drainStep, stack_eq, fifo_eq]

theorem usbdIRQHandler_some (enabled : device.rxiel = true) (fifo_eq : device.fifo = some packet) :
    usbdIRQHandler device true =
      if transferOver (takePacket device packet) packet then
        outComplete { takePacket device packet with rxiel := false } true
      else takePacket device packet := by
  rw [usbdIRQHandler, fifo_eq, enabled]
  rfl

theorem takePacket_wrong (idle : device.phase = some .idle) :
    (takePacket device packet).phase = none :=
  phase_append idle

theorem drainStep_wrong (stack_eq : device.stack = .startRead :: below)
    (fifo_eq : device.fifo = some packet) (idle : device.phase = some .idle) :
    (drainStep device).phase = none := by
  rw [drainStep_some stack_eq fifo_eq]
  split
  · exact foldlM_wrong (takePacket_wrong idle)
  · exact takePacket_wrong idle

theorem usbdIRQHandler_wrong (enabled : device.rxiel = true) (fifo_eq : device.fifo = some packet)
    (idle : device.phase = some .idle) : (usbdIRQHandler device true).phase = none := by
  rw [usbdIRQHandler_some enabled fifo_eq]
  split
  · exact foldlM_wrong (takePacket_wrong idle)
  · exact takePacket_wrong idle

theorem packetIn_fifo (device : Device) (packet : List UInt8) :
    ∃ other, (UsbDc.packetIn device packet).fifo = some other ∧
      (device.fifo = none → other = packet) := by
  unfold UsbDc.packetIn
  split
  · exact ⟨packet, rfl, fun _ => rfl⟩
  · rename_i other fifo_eq
    exact ⟨other, fifo_eq, fun empty => absurd (empty.symm.trans fifo_eq) (by simp)⟩

theorem packetIn_control (device : Device) (packet : List UInt8) :
    (UsbDc.packetIn device packet).phase = device.phase ∧
      (UsbDc.packetIn device packet).stack = device.stack ∧
      (UsbDc.packetIn device packet).rxiel = device.rxiel := by
  unfold UsbDc.packetIn
  split <;> exact ⟨rfl, rfl, rfl⟩

end

abbrev reached (epMps : UInt16) (memory : Memory UInt8) (run : List Event) : Device :=
  endpoint.run (.start epMps memory) run

theorem reached_append (epMps : UInt16) (memory : Memory UInt8) (run : List Event) (event : Event) :
    reached epMps memory (run ++ [event]) =
      (endpoint.step (reached epMps memory run) event).1 := by
  rw [reached, endpoint.run_append]
  rfl

namespace Application

variable {epMps : UInt16} {memory : Memory UInt8} (app : Application epMps.toNat)
  {run : List Event}

/-- The host has sent a packet. -/
theorem packet_arrives (memory : Memory UInt8) (member : run ∈ app.runs) :
    ∃ next ∈ app.runs, ∃ packet,
      (reached epMps memory next).fifo = some packet ∧
      ((reached epMps memory run).fifo = none → packet = []) ∧
      (reached epMps memory next).phase =
        (reached epMps memory run).phase ∧
      (reached epMps memory next).stack =
        (reached epMps memory run).stack ∧
      (reached epMps memory next).rxiel =
        (reached epMps memory run).rxiel ∧
      (Sound epMps.toNat (reached epMps memory run) →
        Sound epMps.toNat (reached epMps memory next)) := by
  refine ⟨_, app.packetIn member [] (Nat.zero_le _), ?_⟩
  rw [reached_append]
  obtain ⟨packet, fifo_eq, empty⟩ := packetIn_fifo (reached epMps memory run) []
  obtain ⟨phase_eq, stack_eq, rxiel_eq⟩ :=
    packetIn_control (reached epMps memory run) []
  exact ⟨packet, fifo_eq, empty, phase_eq, stack_eq, rxiel_eq,
    fun sound => sound.packetIn (Nat.zero_le _)⟩

variable {below : List Frame}

theorem loop_wrong (member : run ∈ app.runs)
    (stack_eq : (reached epMps memory run).stack = .startRead :: below)
    (idle : (reached epMps memory run).phase = some .idle) :
    ∃ later ∈ app.runs, ¬Good (reached epMps memory later) := by
  obtain ⟨next, next_mem, packet, fifo_eq, -, phase_eq, next_stack, -⟩ :=
    app.packet_arrives memory member
  refine ⟨_, app.drain next_mem, not_good ?_⟩
  rw [reached_append]
  exact drainStep_wrong (next_stack.trans stack_eq) fifo_eq (phase_eq.trans idle)

theorem irq_wrong (member : run ∈ app.runs)
    (enabled : (reached epMps memory run).rxiel = true)
    (outside : ¬(reached epMps memory run).InIrq)
    (idle : (reached epMps memory run).phase = some .idle) :
    ∃ later ∈ app.runs, ¬Good (reached epMps memory later) := by
  obtain ⟨next, next_mem, packet, fifo_eq, -, phase_eq, next_stack, rxiel_eq, -⟩ :=
    app.packet_arrives memory member
  refine ⟨_, app.irq next_mem, not_good ?_⟩
  rw [reached_append]
  have still_outside : ¬(reached epMps memory next).InIrq := by
    rw [Device.InIrq, next_stack]
    exact outside
  rw [step_irq still_outside]
  exact usbdIRQHandler_wrong (rxiel_eq.trans enabled) fifo_eq (phase_eq.trans idle)

section

variable (member : run ∈ app.runs) (sound : Sound epMps.toNat (reached epMps memory run))
  (armed : (reached epMps memory run).Armed)
  (stack_eq : (reached epMps memory run).stack = .startRead :: below)
  (outside : .callback true ∉ below) (enabled : (reached epMps memory run).rxiel = true)
include member sound armed stack_eq outside enabled

/-- A read is completed by a loop outside the interrupt while the interrupt is enabled. -/
theorem completion_wrong {packet : List UInt8}
    (fifo_eq : (reached epMps memory run).fifo = some packet)
    (past : transferOver (takePacket (reached epMps memory run) packet) packet =
      true) : ∃ later ∈ app.runs, ¬Good (reached epMps memory later) := by
  have next_eq : reached epMps memory (run ++ [Event.drain]) =
      outComplete (takePacket (reached epMps memory run) packet) false := by
    rw [reached_append]
    show drainStep _ = _
    rw [drainStep_some stack_eq fifo_eq, if_pos past]
  rcases sound.taken armed fifo_eq false true with ⟨-, -, idle⟩ | ⟨goesOn, -⟩
  · refine app.irq_wrong (app.drain member) ?_ ?_ ?_ <;> rw [next_eq]
    · exact enabled
    · show Frame.callback true ∉ .callback false :: _
      rw [show (takePacket (reached epMps memory run) packet).stack =
        .startRead :: below from stack_eq]
      simpa using outside
    · exact idle
  · exact absurd (goesOn.symm.trans past) (by simp)

/-- A loop that finds a read armed and the FIFO empty goes wrong outside the interrupt when the
interrupt is enabled. -/
theorem empty_wrong (empty : (reached epMps memory run).fifo = none) :
    ∃ later ∈ app.runs, ¬Good (reached epMps memory later) := by
  obtain ⟨next, next_mem, packet, fifo_eq, short, phase_eq, next_stack, rxiel_eq, kept⟩ :=
    app.packet_arrives memory member
  obtain rfl := short empty
  have next_armed : (reached epMps memory next).Armed := by
    rwa [Device.Armed, phase_eq]
  exact app.completion_wrong next_mem (kept sound) next_armed (next_stack.trans stack_eq) outside
    (rxiel_eq.trans enabled) fifo_eq ((kept sound).empty_over next_armed)

theorem enabled_wrong : ∃ later ∈ app.runs, ¬Good (reached epMps memory later) := by
  cases fifo_eq : (reached epMps memory run).fifo with
  | none => exact app.empty_wrong member sound armed stack_eq outside enabled fifo_eq
  | some packet =>
      rcases sound.taken armed fifo_eq false true with ⟨past, -⟩ | ⟨goesOn, taken, still_armed⟩
      · exact app.completion_wrong member sound armed stack_eq outside enabled fifo_eq past
      · have next_eq : reached epMps memory (run ++ [Event.drain]) =
            takePacket (reached epMps memory run) packet := by
          rw [reached_append]
          show drainStep _ = _
          rw [drainStep_some stack_eq fifo_eq, if_neg (by simp [goesOn])]
        apply app.empty_wrong (app.drain member) (next_eq ▸ taken) (next_eq ▸ still_armed)
          (next_eq ▸ stack_eq) outside (next_eq ▸ enabled)
        rw [next_eq]
        rfl

end

theorem careless_wrong {event : Event} (member : run ++ [event] ∈ app.runs)
    (strong : Strong epMps.toNat (reached epMps memory run))
    (careless : ¬Careful (reached epMps memory run) event) :
    ∃ later ∈ app.runs, ¬Good (reached epMps memory later) := by
  have allowed := app.allowed member
  cases event with
  | packetIn packet | drain | irq rxis => exact absurd trivial careless
  | startRead buffer dataLen =>
      obtain ⟨free, armed⟩ := Classical.not_imp.mp careless
      obtain ⟨next, called, wrong⟩ :=
        startRead_wrong strong.toSound allowed (Classical.not_not.mp armed)
      refine ⟨_, member, not_good ?_⟩
      rw [reached_append]
      rw [step_startRead free, called]
      exact wrong
  | callbackReturns =>
      obtain ⟨fromIrq, below, stack_eq, wrong⟩ : ∃ fromIrq below,
          (reached epMps memory run).stack = .callback fromIrq :: .startRead :: below ∧
            ¬((reached epMps memory run).Armed ∧ .callback true ∈ below) := by
        by_contra none
        refine careless fun fromIrq below stack_eq => ?_
        by_contra wrong
        exact none ⟨fromIrq, below, stack_eq, wrong⟩
      have next_eq : reached epMps memory (run ++ [Event.callbackReturns]) =
          { reached epMps memory run with stack := .startRead :: below } := by
        rw [reached_append]
        show (match (reached epMps memory run).stack with
          | .callback _ :: stack => _ | _ => _ : Device) = _
        rw [stack_eq]
      have sound : Sound epMps.toNat (reached epMps memory (run ++ [Event.callbackReturns])) := by
        rw [next_eq]
        exact strong.control _ _
      by_cases armed : (reached epMps memory run).Armed
      · have enabled := strong.enabled armed (by rw [stack_eq]; simp)
        exact app.enabled_wrong member sound (next_eq ▸ armed) (by rw [next_eq])
          (fun inside => wrong ⟨armed, inside⟩) (next_eq ▸ enabled)
      · have idle : (reached epMps memory run).phase = some .idle :=
          strong.good.right.resolve_right armed
        exact app.loop_wrong member (by rw [next_eq]) (next_eq ▸ idle)

end Application

/-- A run is right when reads are started when none is armed and callbacks return into the loop of
`usbd_ep_start_read` only within the interrupt and with a read armed; and all runs of an application
are right exactly if all of them are such. -/
theorem reads_good_iff (epMps : UInt16) (memory : Memory UInt8) :
    (∀ run : List Event, (∀ event ∈ run, event.Allowed epMps.toNat) →
      endpoint.Always Careful (.start epMps memory) run →
        Good (endpoint.run (.start epMps memory) run)) ∧
      ∀ app : Application epMps.toNat,
        (∀ run ∈ app.runs, Good (endpoint.run (.start epMps memory) run)) ↔
          ∀ run ∈ app.runs, endpoint.Always Careful (.start epMps memory) run := by
  constructor
  · intro run allowed careful
    have strong : Strong epMps.toNat (endpoint.run (.start epMps memory) run) := by
      refine endpoint.run_invariant (fun device event => event.Allowed epMps.toNat ∧
        Careful device event) (Strong epMps.toNat) (strong_start epMps memory)
        (fun strong meets => strong.step meets.1 meets.2) ?_
      exact (endpoint.always_and _ _ _ run).mpr
        ⟨endpoint.always_of_forall _ _ allowed, careful⟩
    exact strong.good
  · intro app
    refine endpoint.forall_mem_good_iff_always Careful Good (Strong epMps.toNat) app.shorter
      (fun strong => strong.good) ?_ app.careless_wrong (strong_start epMps memory)
    intro front event member strong careful
    exact strong.step (app.allowed member) careful

/-- A read that the interrupt completes. -/
theorem read_by_interrupt :
    Good (endpoint.run (.start 64 fun _ => 0) [.startRead (some 4096) 64, .drain, .packetIn [1],
      .irq true, .callbackReturns]) := by
  apply (reads_good_iff 64 fun _ => 0).1
  · simp [Event.Allowed]
  · refine ⟨fun _ => not_armed rfl, trivial, trivial, trivial, ?_, trivial⟩
    intro fromIrq stack stack_eq
    have alone : [Frame.callback true] = .callback fromIrq :: .startRead :: stack := stack_eq
    simp at alone

/-- A short packet completes the read in the loop and the callback does not start another one: the
loop stores a packet that comes then, or enables the interrupt, which stores a packet that comes
later. -/
theorem read_past_completion :
    (∀ event ∈ [Event.packetIn [1], .startRead (some 4096) 64, .drain, .callbackReturns,
        .packetIn [2], .irq true], event.Allowed 64) ∧
      ¬Good (endpoint.run (.start 64 fun _ => 0) [.packetIn [1], .startRead (some 4096) 64, .drain,
        .callbackReturns, .packetIn [2], .drain]) ∧
      ¬Good (endpoint.run (.start 64 fun _ => 0) [.packetIn [1], .startRead (some 4096) 64, .drain,
        .callbackReturns, .drain, .packetIn [2], .irq true]) := by
  refine ⟨by simp [Event.Allowed], ?_, ?_⟩
  · exact not_good (by decide)
  · exact not_good (by decide)

end BdkFreertos.UsbDc
