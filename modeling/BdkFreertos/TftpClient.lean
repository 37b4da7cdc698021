import BdkFreertos.TftpStore

/-!
# The TFTP client of the firmware update

The client asks for a file and stores the DATA packets it gets.  `TftpHandler` remembers the number of
the last block only and ignores a packet that repeats it; any other packet is stored.
-/

namespace BdkFreertos.Tftp

/-- The states `STATE_*`. -/
inductive TftpState
  | rrq
  | data
  | tooLarge
  | badMagic
  | oack
  deriving DecidableEq

/-- `WELL_KNOWN_PORT`. -/
def wellKnownPort : UInt16 := 69

/-- `TIMEOUT_COUNT`. -/
def timeoutCount : ℕ := 10

/-- `TFTP_BLOCK_SIZE`. -/
def tftpBlockSize : UInt16 := 512

/-- `TFTP_SEQUENCE_SIZE`. -/
def tftpSequenceSize : UInt64 := 0x10000

/-- `TFTP_LEN`. -/
def tftpLen : ℕ := 1600

def tftpData : ℕ := 3

def tftpOack : ℕ := 6

/-- A block that was handed to `store_block`. -/
structure Block where
  number : UInt64
  /-- The header that `store_block` finds. -/
  sendHd : SendPtkHd
  payload : List UInt8

/-- The variables of the client. -/
structure Client where
  tftpServerPort : UInt16
  tftpTimeoutCount : ℕ
  tftpBlock : UInt64
  tftpLastBlock : UInt64
  tftpBlockWrap : UInt64
  tftpBlockWrapOffset : UInt64
  tftpState : TftpState
  tftpBlkSize : UInt16
  /-- Whether the thread of the client has not been deleted. -/
  running : Bool
  store : Store
  stored : List Block

/-- A datagram in the receive buffer. -/
structure Packet where
  buffer : Memory UInt8
  len : UInt32
  port : UInt16
  /-- Whether `os_malloc` succeeds while it is handled. -/
  allocated : Bool

/-- What `TftpSend` sends. -/
inductive Reply
  | rrq
  | ack (block : UInt16)
  | tooLarge
  | badMagic
  deriving DecidableEq

def tftpSend (client : Client) : Reply :=
  match client.tftpState with
  | .rrq => .rrq
  | .oack | .data => .ack client.tftpBlock.toUInt16
  | .tooLarge => .tooLarge
  | .badMagic => .badMagic

/-- `ntohs` of the half word at a place of a buffer. -/
def ntohs (buffer : Memory UInt8) (place : ℕ) : ℕ :=
  2 ^ 8 * (buffer place).toNat + (buffer (place + 1)).toNat

def Packet.proto (packet : Packet) : ℕ := ntohs packet.buffer 0

def Packet.block (packet : Packet) : UInt64 := UInt64.ofNat (ntohs packet.buffer 2)

/-- `os_strtoul` to the base 10: blanks, a sign, and digits up to the first other byte. -/
def osStrtoul (bytes : List UInt8) : UInt32 :=
  let bytes := bytes.dropWhile fun byte => byte = 32 ∨ (9 ≤ byte ∧ byte ≤ 13)
  let negative := bytes.head? = some 45
  let bytes := if bytes.head? = some 45 ∨ bytes.head? = some 43 then bytes.tail else bytes
  let digits := bytes.takeWhile fun byte => 48 ≤ byte ∧ byte ≤ 57
  let value := digits.foldl (fun value byte => 10 * value + (byte.toNat - 48)) 0
  if value ≥ 2 ^ 32 then 0xFFFFFFFF
  else if negative then 0 - UInt32.ofNat value else UInt32.ofNat value

/-- The bytes of `"blksize"` with the terminator. -/
def blksizeOption : List UInt8 := [98, 108, 107, 115, 105, 122, 101, 0]

/-- The loop over the options of an OACK packet with so many bytes after its operation. -/
def findBlksize (packet : Packet) (len : UInt32) (tftpBlkSize : UInt16) : UInt16 :=
  match (List.range (len.toNat - 8)).find? fun i => packet.buffer.load (2 + i) 8 = blksizeOption with
  | some i => (osStrtoul (packet.buffer.load (10 + i) (tftpLen - (10 + i)))).toUInt16
  | none => tftpBlkSize

/-- `TftpHandler` for an OACK packet. -/
def receiveOack (client : Client) (packet : Packet) (len : UInt32) : Client × Option Reply :=
  let client :=
    { client with
      tftpState := .oack
      tftpServerPort := packet.port
      tftpBlkSize := findBlksize packet len client.tftpBlkSize }
  (client, tftpSend client)

/-- The last part of `TftpHandler` for a DATA packet with so many bytes of payload. -/
def acceptBlock (platform : Platform) (client : Client) (packet : Packet) (len : UInt32) :
    Client × Option Reply :=
  if client.tftpBlock = client.tftpLastBlock then (client, tftpSend client)
  else
    let client :=
      { client with
        tftpLastBlock := client.tftpBlock
        store := storeBlock platform client.store (client.tftpBlock - 1).toUInt32 packet.buffer 4
          len packet.allocated
        stored := client.stored ++
          [⟨client.tftpBlock, loadSendHd packet.buffer 4, packet.buffer.load 4 len.toNat⟩] }
    ({ client with running := client.running && !(len.toNat < client.tftpBlkSize.toNat) },
      tftpSend client)

/-- The number of a DATA packet and the count of its wraps are noted. -/
def noteBlock (client : Client) (packet : Packet) : Client :=
  let client := { client with tftpBlock := packet.block }
  if packet.block = 0 then
    { client with
      tftpBlockWrap := client.tftpBlockWrap + 1
      tftpBlockWrapOffset :=
        client.tftpBlockWrapOffset + client.tftpBlkSize.toUInt64 * tftpSequenceSize }
  else client

/-- The first DATA packet after a request or an OACK packet. -/
def enterData (client : Client) (port : UInt16) : Client :=
  { client with
    tftpState := .data
    tftpServerPort := port
    tftpLastBlock := 0
    tftpBlockWrap := 0
    tftpBlockWrapOffset := 0 }

/-- `TftpHandler` for a DATA packet with so many bytes of payload. -/
def receiveData (platform : Platform) (client : Client) (packet : Packet) (len : UInt32) :
    Client × Option Reply :=
  let client := noteBlock client packet
  if client.tftpState = .rrq ∨ client.tftpState = .oack then
    let client := enterData client packet.port
    if client.tftpBlock ≠ 1 then (client, none) else acceptBlock platform client packet len
  else acceptBlock platform client packet len

/-- Whether a packet gets past the first tests of `TftpHandler`. -/
def admitted (client : Client) (packet : Packet) : Bool :=
  !(client.tftpState ≠ .rrq ∧ packet.port ≠ client.tftpServerPort) && !(packet.len < 2)

def tftpHandler (platform : Platform) (client : Client) (packet : Packet) :
    Client × Option Reply :=
  if admitted client packet then
    let len := packet.len - 2
    if packet.proto = tftpOack then receiveOack client packet len
    else if packet.proto = tftpData then
      if len < 2 then (client, none) else receiveData platform client packet (len - 2)
    else (client, none)
  else (client, none)

def tftpTimeout (client : Client) : Client × Option Reply :=
  let client := { client with tftpTimeoutCount := client.tftpTimeoutCount + 1 }
  if client.tftpTimeoutCount > timeoutCount then (client, none) else (client, tftpSend client)

/-- `tftp_start` up to the loop of its thread, with `TftpStart`. -/
def tftpStart (client : Client) : Client :=
  { client with
    store := { client.store with tftpCrc := 0, imageOps := [] }
    tftpServerPort := wellKnownPort
    tftpTimeoutCount := 0
    tftpState := .rrq
    tftpBlock := 0
    tftpBlkSize := tftpBlockSize
    running := true
    stored := [] }

inductive Event
  | start
  | packet (packet : Packet)
  | timeout

def machine (platform : Platform) : Machine Client Event (Option Reply) where
  step client
    | .start => (tftpStart client, none)
    | .packet packet =>
        if client.running then tftpHandler platform client packet else (client, none)
    | .timeout => if client.running then tftpTimeout client else (client, none)

/-- The number of the block with a given place, as far as 16 bits tell. -/
def blockNumber (place : ℕ) : UInt64 := UInt64.ofNat ((place + 1) % 2 ^ 16)

/-- Each stored block has the number after the one before, and the first one is block 1. -/
def InOrder (client : Client) : Prop :=
  client.stored.map Block.number = (List.range client.stored.length).map blockNumber

def image (client : Client) : List UInt8 :=
  client.stored.flatMap fun block => block.payload.drop 24

/-- The flash device holds the data of the stored blocks, one behind the other. -/
def ImageHeld (client : Client) : Prop :=
  ∀ first rest, client.stored = first :: rest →
    client.store.flash.load first.sendHd.os1FlashAddr.toNat (image client).length = image client

/-- Whether `TftpHandler` hands a packet to `store_block`. -/
def stores (client : Client) (packet : Packet) : Bool :=
  client.running && admitted client packet && packet.proto = tftpData && !(packet.len - 2 < 2) &&
    if client.tftpState = .rrq ∨ client.tftpState = .oack then packet.block = 1
    else packet.block ≠ client.tftpLastBlock

/-- The call of `store_block` for a packet. -/
def storeCall (packet : Packet) : Call :=
  ⟨(packet.block - 1).toUInt32, packet.buffer, 4, packet.len - 2 - 2, packet.allocated⟩

/-- After the first block the server sends no OACK, a DATA packet that comes when the client is in
the data state repeats the last block or follows it, and what is stored fits the block it is read back
into. -/
def InSequence (client : Client) : Event → Prop
  | .packet packet => client.running = true → admitted client packet = true →
      (packet.proto = tftpOack → client.stored = []) ∧
      (packet.proto = tftpData → ¬ packet.len - 2 < 2 →
        client.tftpState ≠ .rrq → client.tftpState ≠ .oack →
          packet.block = client.tftpLastBlock ∨
            packet.block = blockNumber client.tftpLastBlock.toNat) ∧
      (stores client packet = true → ReadBackFits client.store (storeCall packet))
  | _ => True

/-- Where the image of a transfer begins, if a packet goes to it. -/
def imageStart (client : Client) (packet : Packet) : ℕ :=
  match client.stored with
  | [] => (loadSendHd packet.buffer 4).os1FlashAddr.toNat
  | first :: _ => first.sendHd.os1FlashAddr.toNat

/-- The first block of an image gives it a sector of its own, every block fits behind those before,
and the image ends before the numbers wrap around to block 1. -/
def Writable (platform : Platform) (client : Client) : Event → Prop
  | .packet packet => stores client packet = true →
      Fits platform client.store (imageStart client packet) (storeCall packet) ∧
      (client.stored = [] → imageStart client packet % 0x1000 = 0) ∧
      (client.stored ≠ [] → packet.block ≠ 1)
  | _ => True

instance (client : Client) : ∀ event, Decidable (InSequence client event)
  | .packet packet => inferInstanceAs (Decidable (client.running = true →
      admitted client packet = true → (_ → client.stored = []) ∧ (_ → ¬ _ → _ → _ → _ ∨ _) ∧
        (_ → ReadBackFits _ _)))
  | .start | .timeout => isTrue trivial

instance (platform : Platform) (client : Client) :
    ∀ event, Decidable (Writable platform client event)
  | .packet packet => inferInstanceAs (Decidable (stores client packet = true →
      Fits _ _ _ _ ∧ (client.stored = [] → _) ∧ (client.stored ≠ [] → _)))
  | .start | .timeout => isTrue trivial

/-! ## What one packet does -/

variable {platform : Platform} {client next : Client} {packet : Packet}

def Packet.toBlock (packet : Packet) : Block :=
  ⟨packet.block, loadSendHd packet.buffer 4, packet.buffer.load 4 (packet.len - 2 - 2).toNat⟩

/-- What a packet does to the client. -/
inductive Effect (platform : Platform) (client : Client) (packet : Packet) (next : Client) : Prop
  /-- It is ignored, or acknowledged again. -/
  | kept (state : next.tftpState = client.tftpState)
      (last : next.tftpLastBlock = client.tftpLastBlock) (stored : next.stored = client.stored)
      (store : next.store = client.store)
  | oack (past : client.running = true ∧ admitted client packet = true)
      (proto : packet.proto = tftpOack) (state : next.tftpState = .oack)
      (stored : next.stored = client.stored) (store : next.store = client.store)
  /-- The first DATA packet is not block 1. -/
  | wrongFirst (first : client.tftpState = .rrq ∨ client.tftpState = .oack)
      (state : next.tftpState = .data) (last : next.tftpLastBlock = 0)
      (stored : next.stored = client.stored) (store : next.store = client.store)
  | stored (taken : stores client packet = true)
      (state : next.tftpState ≠ .rrq ∧ next.tftpState ≠ .oack)
      (last : next.tftpLastBlock = packet.block)
      (stored : next.stored = client.stored ++ [packet.toBlock])
      (store : next.store = storeBlock platform client.store (storeCall packet).block
        packet.buffer 4 (packet.len - 2 - 2) packet.allocated)

theorem noteBlock_eq (client : Client) (packet : Packet) :
    (noteBlock client packet).tftpBlock = packet.block ∧
      (noteBlock client packet).tftpState = client.tftpState ∧
      (noteBlock client packet).tftpLastBlock = client.tftpLastBlock ∧
      (noteBlock client packet).stored = client.stored ∧
      (noteBlock client packet).store = client.store := by
  rw [noteBlock]
  dsimp only
  split <;> exact ⟨rfl, rfl, rfl, rfl, rfl⟩

/-- A block that does not repeat the last one is stored. -/
theorem effect_acceptBlock {entered : Client} (taken : stores client packet = true)
    (block_eq : entered.tftpBlock = packet.block) (fresh : packet.block ≠ entered.tftpLastBlock)
    (state : entered.tftpState ≠ .rrq ∧ entered.tftpState ≠ .oack)
    (stored_eq : entered.stored = client.stored) (store_eq : entered.store = client.store) :
    Effect platform client packet
      (acceptBlock platform entered packet (packet.len - 2 - 2)).1 := by
  rw [acceptBlock, block_eq, if_neg fresh]
  refine .stored taken state rfl ?_ ?_
  · dsimp only
    rw [stored_eq]
    rfl
  · dsimp only
    rw [store_eq]
    rfl

section

variable (past : client.running = true ∧ admitted client packet = true)
  (proto : packet.proto = tftpData) (long : ¬ packet.len - 2 < 2)
include past proto long

theorem stores_of_fresh
    (fresh : if client.tftpState = .rrq ∨ client.tftpState = .oack then packet.block = 1
      else packet.block ≠ client.tftpLastBlock) : stores client packet = true := by
  simp only [stores, past.1, past.2, proto, long, Bool.and_true, decide_true, decide_false,
    Bool.not_false, Bool.true_and]
  split at fresh
  · next first => simpa [first] using fresh
  · next later => simpa [later] using fresh

theorem effect_receiveData :
    Effect platform client packet
      (receiveData platform client packet (packet.len - 2 - 2)).1 := by
  rw [receiveData]
  obtain ⟨block_eq, state_eq, last_eq, stored_eq, store_eq⟩ := noteBlock_eq client packet
  generalize noteBlock client packet = noted at block_eq state_eq last_eq stored_eq store_eq ⊢
  dsimp only
  rw [state_eq]
  split
  · next first =>
      have entered_eq : (enterData noted packet.port).tftpBlock = packet.block := block_eq
      rw [entered_eq]
      split
      · exact .wrongFirst first rfl rfl stored_eq store_eq
      · next one =>
          have is_one : packet.block = 1 := not_not.mp one
          have fresh : packet.block ≠ (enterData noted packet.port).tftpLastBlock := by
            rw [is_one]
            exact nofun
          exact effect_acceptBlock (stores_of_fresh past proto long (by rwa [if_pos first]))
            entered_eq fresh ⟨nofun, nofun⟩ stored_eq store_eq
  · next later =>
      by_cases repeated : packet.block = client.tftpLastBlock
      · rw [acceptBlock, if_pos (by rw [block_eq, last_eq, repeated])]
        exact .kept state_eq last_eq stored_eq store_eq
      · refine effect_acceptBlock (stores_of_fresh past proto long (by rwa [if_neg later]))
          block_eq ?_ ?_ stored_eq store_eq
        · rwa [last_eq]
        · rw [state_eq]
          exact not_or.mp later

end

theorem effect_packet (platform : Platform) (client : Client) (packet : Packet) :
    Effect platform client packet ((machine platform).step client (.packet packet)).1 := by
  simp only [machine]
  split
  · next running =>
      rw [tftpHandler]
      split
      · next past =>
          dsimp only
          split
          · next proto => exact .oack ⟨running, past⟩ proto rfl rfl rfl
          · split
            · next proto =>
                split
                · exact .kept rfl rfl rfl rfl
                · next long => exact effect_receiveData ⟨running, past⟩ proto long
            · exact .kept rfl rfl rfl rfl
      · exact .kept rfl rfl rfl rfl
  · exact .kept rfl rfl rfl rfl

/-! ## The order of the blocks -/

/-- The memory is intact, the blocks are in order, none has been stored before the data state, and in
the data state the client remembers the last one. -/
structure Tracks (client : Client) : Prop where
  intact : client.store.overrun = false
  order : InOrder client
  early : client.tftpState = .rrq ∨ client.tftpState = .oack → client.stored = []
  last : client.tftpState ≠ .rrq → client.tftpState ≠ .oack →
    client.tftpLastBlock = UInt64.ofNat (client.stored.length % 2 ^ 16)

theorem blockNumber_mod (place : ℕ) :
    blockNumber (UInt64.ofNat (place % 2 ^ 16)).toNat = blockNumber place := by
  rw [blockNumber, blockNumber]
  congr 1
  rw [UInt64.toNat_ofNat']
  omega

theorem InSequence.readBack (sequence : InSequence client (.packet packet))
    (taken : stores client packet = true) : ReadBackFits client.store (storeCall packet) := by
  have past := taken
  simp only [stores, Bool.and_eq_true] at past
  exact (sequence past.1.1.1.1 past.1.1.1.2).2.2 taken

theorem Tracks.block_eq (tracks : Tracks client) (taken : stores client packet = true)
    (sequence : InSequence client (.packet packet)) :
    packet.block = blockNumber client.stored.length := by
  simp only [stores, Bool.and_eq_true, decide_eq_true_eq, Bool.not_eq_true',
    decide_eq_false_iff_not] at taken
  obtain ⟨⟨⟨⟨running, past⟩, proto⟩, long⟩, fresh⟩ := taken
  split at fresh
  · next first =>
      rw [tracks.early first]
      exact of_decide_eq_true fresh
  · next later =>
      have in_data := not_or.mp later
      have last := tracks.last in_data.1 in_data.2
      have following := ((sequence running past).2.1 proto long in_data.1 in_data.2).resolve_left
        (of_decide_eq_true fresh)
      rw [following, last, blockNumber_mod]

theorem Tracks.receive (tracks : Tracks client) (sequence : InSequence client (.packet packet))
    (effect : Effect platform client packet next) : Tracks next := by
  cases effect with
  | kept state last stored store =>
      constructor
      · exact store ▸ tracks.intact
      · rw [InOrder, stored]
        exact tracks.order
      · rw [state, stored]
        exact tracks.early
      · rw [state, last, stored]
        exact tracks.last
  | oack past proto state stored store =>
      have nothing := (sequence past.1 past.2).1 proto
      constructor
      · exact store ▸ tracks.intact
      · rw [InOrder, stored]
        exact tracks.order
      · exact fun _ => stored.trans nothing
      · exact fun _ other => absurd state other
  | wrongFirst first state last stored store =>
      constructor
      · exact store ▸ tracks.intact
      · rw [InOrder, stored]
        exact tracks.order
      · simp [state]
      · rw [last, stored, tracks.early first]
        exact fun _ _ => rfl
  | stored taken state last stored store =>
      have number := tracks.block_eq taken sequence
      have fits := sequence.readBack taken
      constructor
      · rw [store]
        exact (storeBlock_overrun_iff tracks.intact (storeCall packet)).mpr fits
      · rw [InOrder, stored, List.map_append, List.length_append, List.length_singleton,
          List.range_succ, List.map_append, tracks.order, List.map_singleton, List.map_singleton,
          ← number]
        rfl
      · rintro (rrq | oack)
        · exact absurd rrq state.1
        · exact absurd oack state.2
      · intro _ _
        rw [last, stored, number, List.length_append, List.length_singleton, blockNumber]

theorem tracks_start (intact : client.store.overrun = false) : Tracks (tftpStart client) where
  intact := intact
  order := rfl
  early _ := rfl
  last not_rrq := absurd rfl not_rrq

theorem Tracks.step (tracks : Tracks client) {event : Event} (sequence : InSequence client event) :
    Tracks ((machine platform).step client event).1 := by
  cases event with
  | start => exact tracks_start tracks.intact
  | packet packet => exact tracks.receive sequence (effect_packet platform client packet)
  | timeout =>
      simp only [machine]
      split
      · rw [tftpTimeout]
        dsimp only
        split
        · exact ⟨tracks.intact, tracks.order, tracks.early, tracks.last⟩
        · exact ⟨tracks.intact, tracks.order, tracks.early, tracks.last⟩
      · exact tracks

/-! ## The image -/

/-- The image is in the flash device, and the running address is behind it. -/
def ImageKept (client : Client) : Prop :=
  ∀ first rest, client.stored = first :: rest →
    Image client.store first.sendHd.os1FlashAddr.toNat (image client)

theorem ImageKept.held (kept : ImageKept client) : ImageHeld client := fun first rest stored =>
  (kept first rest stored).held

theorem ImageKept.congr (kept : ImageKept client) (stored : next.stored = client.stored)
    (store : next.store = client.store) : ImageKept next := by
  intro first rest next_stored
  have same : image next = image client := by rw [image, image, stored]
  rw [same, store]
  exact kept first rest (stored.symm.trans next_stored)

theorem storeCall_block_ne (different : packet.block ≠ 1) : (storeCall packet).block ≠ 0 := by
  intro zero
  have small : packet.block.toNat < 2 ^ 16 := by
    have high := (packet.buffer 2).toNat_lt
    have low := (packet.buffer 3).toNat_lt
    have number : packet.block.toNat =
        (2 ^ 8 * (packet.buffer 2).toNat + (packet.buffer 3).toNat) % 2 ^ 64 := by
      rw [Packet.block, UInt64.toNat_ofNat', ntohs]
    omega
  have truncated : (packet.block - 1).toNat % 2 ^ 32 = 0 := by
    have nat_zero := congrArg UInt32.toNat zero
    rwa [storeCall, UInt64.toNat_toUInt32] at nat_zero
  have one : (1 : UInt64).toNat = 1 := rfl
  rw [UInt64.toNat_sub, one] at truncated
  refine different (UInt64.toNat_inj.mp ?_)
  omega

theorem storeCall_block_eq (one : packet.block = 1) : (storeCall packet).block = 0 := by
  rw [storeCall, one]
  rfl

theorem ImageKept.receive (kept : ImageKept client) (tracks : Tracks client)
    (sequence : InSequence client (.packet packet))
    (writable : Writable platform client (.packet packet))
    (effect : Effect platform client packet next) : ImageKept next := by
  cases effect with
  | kept state last stored store | oack past proto state stored store
  | wrongFirst first state last stored store => exact kept.congr stored store
  | stored taken state last stored store =>
      obtain ⟨fits, aligned, no_wrap⟩ := writable taken
      have data_eq : packet.toBlock.payload.drop 24 =
          packet.buffer.load (4 + 24) ((packet.len - 2 - 2).toNat - 24) :=
        Memory.drop_load _ fits.header
      have image_eq : image next = image client ++
          packet.buffer.load (4 + 24) ((packet.len - 2 - 2).toNat - 24) := by
        rw [image, image, stored, List.flatMap_append, List.flatMap_singleton, data_eq]
      intro first rest next_stored
      rw [image_eq, store]
      cases before : client.stored with
      | nil =>
          have one : packet.block = 1 := by
            rw [tracks.block_eq taken sequence, before]
            rfl
          rw [stored, before, List.nil_append] at next_stored
          obtain ⟨rfl, -⟩ := List.cons.inj next_stored
          have empty : image client = [] := by rw [image, before, List.flatMap_nil]
          have start_eq : imageStart client packet =
              (loadSendHd packet.buffer 4).os1FlashAddr.toNat := by rw [imageStart, before]
          rw [start_eq] at fits
          have opened : Image (openBlock client.store (storeCall packet).block packet.buffer 4)
              (loadSendHd packet.buffer 4).os1FlashAddr.toNat (image client) := by
            rw [storeCall_block_eq one, empty]
            exact Image.openFirst (start_eq ▸ aligned before)
          exact opened.storeBlock fits
      | cons head tail =>
          rw [stored, before, List.cons_append] at next_stored
          obtain ⟨rfl, -⟩ := List.cons.inj next_stored
          have start_eq : imageStart client packet = head.sendHd.os1FlashAddr.toNat := by
            rw [imageStart, before]
          rw [start_eq] at fits
          have later := storeCall_block_ne (no_wrap (before ▸ List.cons_ne_nil _ _))
          exact ((kept head tail before).openNext later).storeBlock fits

theorem ImageKept.step (kept : ImageKept client) (tracks : Tracks client) {event : Event}
    (sequence : InSequence client event) (writable : Writable platform client event) :
    ImageKept ((machine platform).step client event).1 := by
  cases event with
  | start => exact fun first rest stored => nomatch stored
  | packet packet =>
      exact kept.receive tracks sequence writable (effect_packet platform client packet)
  | timeout =>
      simp only [machine]
      split
      · rw [tftpTimeout]
        dsimp only
        split
        · exact kept.congr rfl rfl
        · exact kept.congr rfl rfl
      · exact kept

/-- In every run whose packets come in sequence the memory stays intact and the blocks of each
transfer are stored in order, each once, and if they are writable too, the flash device holds their data one
behind the other. -/
theorem blocks_stored_in_order (platform : Platform) (before : Client) (events : List Event)
    (intact : before.store.overrun = false)
    (in_sequence : (machine platform).Always InSequence (tftpStart before) events) :
    let final := (machine platform).run (tftpStart before) events
    final.store.overrun = false ∧ InOrder final ∧
      ((machine platform).Always (Writable platform) (tftpStart before) events →
        ImageHeld final) := by
  have tracks := (machine platform).run_invariant InSequence Tracks (tracks_start intact)
    (fun tracks sequence => tracks.step sequence) in_sequence
  refine ⟨tracks.intact, tracks.order, ?_⟩
  intro writable
  have invariant := (machine platform).run_invariant
    (fun client event => InSequence client event ∧ Writable platform client event)
    (fun client => Tracks client ∧ ImageKept client)
    ⟨tracks_start intact, fun first rest stored => nomatch stored⟩
    (fun kept meets => ⟨kept.1.step meets.1, kept.2.step kept.1 meets.1 meets.2⟩)
    (((machine platform).always_and _ _ _ _).mpr ⟨in_sequence, writable⟩)
  exact invariant.2.held

/-- An OACK packet that agrees on blocks of 32 bytes. -/
def oackPacket : Packet where
  buffer := Memory.store (fun _ => 0) 0 ([0, 6] ++ blksizeOption ++ [51, 50, 0])
  len := 13
  port := 1024
  allocated := true

/-- A DATA packet of an image of nine blocks. -/
def dataPacket (number : UInt8) (data : List UInt8) : Packet where
  buffer := Memory.store (fun _ => 0) 0 ([0, 3, 0, number] ++
    ([0, 0, 0, 0, number, 0, 9, 0] ++ List.replicate 12 0 ++ wordBytes os1FlashAddr) ++ data)
  len := UInt32.ofNat (28 + data.length)
  port := 1024
  allocated := true

/-- The client after start-up. -/
def bootClient : Client where
  tftpServerPort := 0
  tftpTimeoutCount := 0
  tftpBlock := 0
  tftpLastBlock := 0
  tftpBlockWrap := 0
  tftpBlockWrapOffset := 0
  tftpState := .rrq
  tftpBlkSize := tftpBlockSize
  running := false
  store := transferStart os1FlashAddr 0 fun _ => 0
  stored := []

/-- A transfer with a repeated packet and a short last block. -/
def shortTransfer : List Event :=
  [.packet oackPacket, .timeout, .packet (dataPacket 1 [1, 2, 3, 4, 5, 6, 7, 8]),
    .packet (dataPacket 1 [1, 2, 3, 4, 5, 6, 7, 8]),
    .packet (dataPacket 2 [9, 10, 11, 12, 13, 14, 15, 16]), .packet (dataPacket 3 [17])]

theorem blocks_stored_in_order_shortTransfer :
    InOrder ((machine smallPlatform).run (tftpStart bootClient) shortTransfer) ∧
      ImageHeld ((machine smallPlatform).run (tftpStart bootClient) shortTransfer) ∧
      image ((machine smallPlatform).run (tftpStart bootClient) shortTransfer) =
        (List.range 17).map fun place => UInt8.ofNat (place + 1) := by
  have in_sequence : (machine smallPlatform).Always InSequence (tftpStart bootClient)
      shortTransfer := by decide +kernel
  have writable : (machine smallPlatform).Always (Writable smallPlatform) (tftpStart bootClient)
      shortTransfer := by decide +kernel
  obtain ⟨-, order, held⟩ :=
    blocks_stored_in_order smallPlatform bootClient shortTransfer rfl in_sequence
  exact ⟨order, held writable, by decide +kernel⟩

/-- A delayed duplicate of block 1 is stored after block 2, and a transfer whose first packet is not
block 1 starts with the next one that comes. -/
theorem blocks_stored_out_of_order :
    ¬ InOrder ((machine smallPlatform).run (tftpStart bootClient)
        [.packet oackPacket, .packet (dataPacket 1 [1, 2, 3, 4, 5, 6, 7, 8]),
          .packet (dataPacket 2 [9, 10, 11, 12, 13, 14, 15, 16]),
          .packet (dataPacket 1 [1, 2, 3, 4, 5, 6, 7, 8])]) ∧
      ¬ InOrder ((machine smallPlatform).run (tftpStart bootClient)
        [.packet oackPacket, .packet (dataPacket 5 [1]), .packet (dataPacket 5 [1])]) := by
  constructor
  · rw [InOrder]
    decide +kernel
  · rw [InOrder]
    decide +kernel

end BdkFreertos.Tftp
