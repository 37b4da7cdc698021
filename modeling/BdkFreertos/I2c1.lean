import BdkFreertos.FuelLoop

/-!
# The transfers of the first I2C interface

A call puts the address of the device on the bus and waits until the interrupts have done the rest:
the bytes of the register address, behind a repeated start the address once more for a read, and the
data.
-/

namespace BdkFreertos.I2c1

/-- `ADDR_WIDTH_8` and `ADDR_WIDTH_16`. -/
inductive AddrWidth
  | width8
  | width16
  deriving DecidableEq

/-- What is used of `I2C_OP_ST`. -/
structure I2cOp where
  addrWidth : AddrWidth
  salveId : UInt8
  opAddr : UInt16

/-- `I2C1_MSG_ST`; `pData` is the number of bytes it is behind the user buffer. -/
structure I2c1Msg where
  txMode : UInt8
  regAddr : UInt16
  remainNum : UInt16
  pData : ℕ
  salveID : UInt8
  addrFlag : UInt8
  transDone : UInt8
  errorNO : UInt8
  addrWidth : AddrWidth

/-- `REG_I2C1_CONFIG`. -/
structure Config where
  ensmb : Bool
  sta : Bool
  sto : Bool
  ackTx : Bool
  txMode : Bool
  si : Bool
  ackRx : Bool

/-- The driver, the bytes it has put on the bus and those it has stored in the user buffer. -/
structure Interface where
  gi2c1 : I2c1Msg
  config : Config
  bus : List UInt8
  stores : List (UInt8 × ℕ)

/-- The device: whether it acknowledges a byte on the bus, and the bytes that are read from it. -/
structure Device where
  ack : ℕ → Bool
  data : ℕ → UInt8

/-- A call. -/
structure Request where
  op : I2cOp
  userBuf : ℕ → UInt8
  count : UInt32

/-- Write `REG_I2C1_DAT`. -/
def Interface.put (state : Interface) (byte : UInt8) : Interface :=
  { state with bus := state.bus ++ [byte] }

/-- The flags of a transfer that ends. -/
def Interface.finish (state : Interface) (errorNO : UInt8) : Interface :=
  { state with
    gi2c1 := { state.gi2c1 with transDone := 1, errorNO := errorNO }
    config := { state.config with sto := true } }

def Interface.setAddrFlag (state : Interface) (addrFlag : UInt8) : Interface :=
  { state with gi2c1 := { state.gi2c1 with addrFlag := addrFlag } }

/-- The part of `i2c1_isr` for a master that writes. -/
def masterWrite (userBuf : ℕ → UInt8) (state : Interface) : Interface :=
  let msg := state.gi2c1
  if !state.config.ackRx then state.finish 1
  else if msg.addrFlag &&& 0x10 != 0 then
    if msg.remainNum == 0 then state.finish msg.errorNO
    else
      { state.put (userBuf msg.pData) with
        gi2c1 := { msg with pData := msg.pData + 1, remainNum := msg.remainNum - 1 } }
  else if msg.addrFlag &&& 0x08 == 0 then
    match msg.addrWidth with
    | .width8 => (state.put msg.regAddr.toUInt8).setAddrFlag (msg.addrFlag ||| 0x13)
    | .width16 => (state.put (msg.regAddr >>> 8).toUInt8).setAddrFlag (msg.addrFlag ||| 0x08)
  else
    (state.put msg.regAddr.toUInt8).setAddrFlag (msg.addrFlag ||| 0x10)

/-- The part of `i2c1_isr` for a master that reads; `sta` was set when the interrupt came. -/
def masterRead (data : ℕ → UInt8) (sta : Bool) (state : Interface) : Interface :=
  let msg := state.gi2c1
  if msg.addrFlag &&& 0x10 == 0 && !state.config.ackRx then state.finish 1
  else if sta && !state.config.ackRx then state.finish msg.errorNO
  else if msg.addrFlag &&& 0x10 != 0 then
    if sta then { state with config := { state.config with txMode := false, ackTx := true } }
    else
      let stored : Interface :=
        { state with
          gi2c1 := { msg with pData := msg.pData + 1, remainNum := msg.remainNum - 1 }
          config := { state.config with txMode := false }
          stores := state.stores ++ [(data state.stores.length, msg.pData)] }
      if msg.remainNum - 1 == 0 then
        { stored with config := { stored.config with ackTx := false } }.finish msg.errorNO
      else { stored with config := { stored.config with ackTx := true } }
  else if msg.addrFlag &&& 0x08 == 0 then
    match msg.addrWidth with
    | .width8 => (state.put msg.regAddr.toUInt8).setAddrFlag ((msg.addrFlag &&& ~~~0x0B) ||| 0x0A)
    | .width16 =>
        (state.put (msg.regAddr >>> 8).toUInt8).setAddrFlag ((msg.addrFlag &&& ~~~0x0B) ||| 0x08)
  else if msg.addrFlag &&& 0x02 == 0 then
    (state.put msg.regAddr.toUInt8).setAddrFlag ((msg.addrFlag &&& ~~~0x0B) ||| 0x0A)
  else
    { (state.put ((msg.salveID <<< 1) ||| 0x01)).setAddrFlag (msg.addrFlag ||| 0x13) with
      config := { state.config with sta := true } }

/-- `i2c1_isr`. -/
def i2c1Isr (userBuf data : ℕ → UInt8) (state : Interface) : Interface :=
  if !state.config.si then state
  else
    let cleared : Interface :=
      { state with config := { state.config with sta := false, sto := false } }
    let served :=
      if state.gi2c1.txMode &&& 0x01 != 0 then masterWrite userBuf cleared
      else masterRead data state.config.sta cleared
    { served with config := { served.config with si := false } }

/-- The interface has moved a byte: it asks for service with the answer of the device to the last
byte on the bus. -/
def interrupt (device : Device) (state : Interface) : Interface :=
  { state with
    config := { state.config with si := true, ackRx := device.ack (state.bus.length - 1) } }

/-- The address of the device for a write, and that for a read. -/
def I2cOp.writeAddress (op : I2cOp) : UInt8 := (op.salveId &&& 0x7f) <<< 1

def I2cOp.readAddress (op : I2cOp) : UInt8 := (op.salveId <<< 1) ||| 0x01

/-- What a call sets up before it waits. -/
def start (txMode : UInt8) (request : Request) (state : Interface) : Interface where
  gi2c1 :=
    { txMode := txMode
      regAddr := request.op.opAddr
      remainNum := request.count.toUInt16
      pData := 0
      salveID := request.op.salveId
      addrFlag := 0
      transDone := 0
      errorNO := 0
      addrWidth := request.op.addrWidth }
  config := { state.config with txMode := true, ensmb := true, sta := true }
  bus := [request.op.writeAddress]
  stores := []

/-- The test of the loop that waits for `TransDone`. -/
def done (state : Interface) : Bool := state.gi2c1.transDone != 0

def serve (device : Device) (userBuf : ℕ → UInt8) (state : Interface) : Interface :=
  i2c1Isr userBuf device.data (interrupt device state)

/-- What the two calls have in common: the value that is returned, and what was put on the bus and
stored. -/
def transfer (txMode : UInt8) (fuel : ℕ) (device : Device) (request : Request) (state : Interface) :
    Option (UInt8 × Interface) :=
  if done state then some (0, { state with bus := [], stores := [] })
  else
    (FuelLoop.loop done (serve device request.userBuf) fuel (start txMode request state)).map
      fun final =>
        (final.gi2c1.errorNO, { final with gi2c1 := { final.gi2c1 with transDone := 0 } })

def i2c1Read := transfer 0

def i2c1Write := transfer 1

/-! ### The purpose -/

/-- The bytes of the register address. -/
def I2cOp.register (op : I2cOp) : List UInt8 :=
  match op.addrWidth with
  | .width8 => [op.opAddr.toUInt8]
  | .width16 => [(op.opAddr >>> 8).toUInt8, op.opAddr.toUInt8]

/-- The bytes that go over the bus, the first of them at a place, up to one that is not
acknowledged. -/
def untilNack (ack : ℕ → Bool) : ℕ → List UInt8 → List UInt8
  | _, [] => []
  | place, byte :: bytes =>
      byte :: if ack place then untilNack ack (place + 1) bytes else []

def Acked (ack : ℕ → Bool) (place : ℕ) : Prop := ∀ i < place, ack i = true

instance (ack : ℕ → Bool) (place : ℕ) : Decidable (Acked ack place) :=
  inferInstanceAs (Decidable (∀ i < place, ack i = true))

def Request.written (request : Request) (count : ℕ) : List UInt8 :=
  request.op.writeAddress :: (request.op.register ++ (List.range count).map request.userBuf)

def Request.addressed (request : Request) : List UInt8 :=
  request.op.writeAddress :: (request.op.register ++ [request.op.readAddress])

/-- The first bytes from a device and their places in the user buffer. -/
def received (data : ℕ → UInt8) (count : ℕ) : List (UInt8 × ℕ) :=
  (List.range count).map fun i => (data i, i)

/-- A write puts its bytes on the bus, and returns zero only if all of them are acknowledged. -/
structure Sent (device : Device) (request : Request) (ret : UInt8) (bus : List UInt8) : Prop where
  bus : bus = untilNack device.ack 0 (request.written request.count.toNat)
  acked : ret = 0 → Acked device.ack (request.written request.count.toNat).length

def WritesExactly (state : Interface) (device : Device) (request : Request) : Prop :=
  ∃ fuel ret final, i2c1Write fuel device request state = some (ret, final) ∧
    Sent device request ret final.bus

/-- A read stores as many bytes as it should, unless an address is not acknowledged, and returns
zero only if all of them are. -/
structure Stored (device : Device) (request : Request) (ret : UInt8) (bus : List UInt8)
    (stores : List (UInt8 × ℕ)) : Prop where
  stores : stores =
    if Acked device.ack request.addressed.length then
      received device.data request.count.toNat else []
  acked : ret = 0 → bus = request.addressed ∧ Acked device.ack request.addressed.length

def ReadsExactly (state : Interface) (device : Device) (request : Request) : Prop :=
  ∃ fuel ret final, i2c1Read fuel device request state = some (ret, final) ∧
    Stored device request ret final.bus final.stores

/-! ### The condition -/

/-- The count fits in sixteen bits, or the device does not acknowledge one of the bytes that the
rest of it leaves. -/
def WriteFits (state : Interface) (device : Device) (request : Request) : Prop :=
  done state = false ∧ (request.count.toNat < 65536 ∨
    ¬Acked device.ack (request.written (request.count.toNat % 65536)).length)

/-- The device does not acknowledge an address before the repeated start, or it acknowledges them
all and the count is one that sixteen bits can count down. -/
def ReadFits (state : Interface) (device : Device) (request : Request) : Prop :=
  done state = false ∧ (¬Acked device.ack (request.addressed.length - 1) ∨
    Acked device.ack request.addressed.length ∧
      0 < request.count.toNat ∧ request.count.toNat ≤ 65536)

/-! ### What goes over the bus -/

section
variable {ack : ℕ → Bool}

variable {bytes : List UInt8}

theorem untilNack_of_acked {place : ℕ} (acked : ∀ i < bytes.length, ack (place + i) = true)
    (more : List UInt8) :
    untilNack ack place (bytes ++ more) =
      bytes ++ untilNack ack (place + bytes.length) more := by
  induction bytes generalizing place with
  | nil => rfl
  | cons byte bytes induction =>
      have first : ack place = true := acked 0 (Nat.zero_lt_succ _)
      have later : ∀ i < bytes.length, ack (place + 1 + i) = true := by
        intro i inside
        rw [Nat.add_right_comm]
        exact acked (i + 1) (Nat.succ_lt_succ inside)
      rw [List.cons_append, untilNack, if_pos first, induction later, List.length_cons,
        List.cons_append, Nat.add_right_comm, Nat.add_assoc]

theorem untilNack_of_nack {place : ℕ} (nack : ¬∀ i < bytes.length, ack (place + i) = true)
    (more : List UInt8) : untilNack ack place (bytes ++ more) = untilNack ack place bytes := by
  induction bytes generalizing place with
  | nil => exact absurd (fun i inside => absurd inside (Nat.not_lt_zero i)) nack
  | cons byte bytes induction =>
      rw [List.cons_append, untilNack, untilNack]
      split
      · rename_i first
        congr 1
        apply induction
        intro later
        refine nack fun i inside => ?_
        rcases i with _ | i
        · exact first
        · rw [show place + (i + 1) = place + 1 + i by omega]
          exact later i (Nat.lt_of_succ_lt_succ inside)
      · rfl

end

/-! ### The calls -/

section
variable {device : Device} {request : Request} {state last : Interface} {txMode : UInt8}
  (good : UInt8 → List UInt8 → List (UInt8 × ℕ) → Prop)

theorem exists_transfer_iff (idle : done state = false)
    (returns : FuelLoop.Returns done (serve device request.userBuf) (start txMode request state)
      last) :
    (∃ fuel ret final, transfer txMode fuel device request state = some (ret, final) ∧
      good ret final.bus final.stores) ↔ good last.gi2c1.errorNO last.bus last.stores := by
  simp only [transfer, idle, Bool.false_eq_true, if_false, Option.map_eq_some_iff, Prod.mk.injEq]
  constructor
  · rintro ⟨fuel, ret, final, ⟨last', returned, rfl, rfl⟩, isGood⟩
    obtain rfl := returns.unique ⟨fuel, returned⟩
    exact isGood
  · intro isGood
    obtain ⟨fuel, returned⟩ := returns
    exact ⟨fuel, _, _, ⟨last, returned, rfl, rfl⟩, isGood⟩

theorem exists_transfer_iff_of_done (busy : done state = true) :
    (∃ fuel ret final, transfer txMode fuel device request state = some (ret, final) ∧
      good ret final.bus final.stores) ↔ good 0 [] [] := by
  simp only [transfer, busy, if_true, Option.some.injEq, Prod.mk.injEq]
  constructor
  · rintro ⟨fuel, ret, final, ⟨rfl, rfl⟩, isGood⟩
    exact isGood
  · intro isGood
    exact ⟨0, _, _, ⟨rfl, rfl⟩, isGood⟩

end

/-- An address byte is put on the bus, and the flags say which is the next. -/
structure Puts (byte addrFlag : UInt8) (state next : Interface) : Prop where
  bus : next.bus = state.bus ++ [byte]
  msg : next.gi2c1 = { state.gi2c1 with addrFlag := addrFlag }
  stores : next.stores = state.stores

/-! ### Writing -/

def dataLeft (userBuf : ℕ → UInt8) (msg : I2c1Msg) : List UInt8 :=
  (List.range' msg.pData msg.remainNum.toNat).map userBuf

/-- What a write still has to put on the bus. -/
inductive Left (userBuf : ℕ → UInt8) (msg : I2c1Msg) : List UInt8 → Prop
  | data (flag : msg.addrFlag = 0x13 ∨ msg.addrFlag = 0x18) :
      Left userBuf msg (dataLeft userBuf msg)
  | low (flag : msg.addrFlag = 0x08) :
      Left userBuf msg (msg.regAddr.toUInt8 :: dataLeft userBuf msg)
  | register (flag : msg.addrFlag = 0) :
      Left userBuf msg (I2cOp.register ⟨msg.addrWidth, msg.salveID, msg.regAddr⟩ ++
        dataLeft userBuf msg)

theorem addressed_of_flag {flag : UInt8} (addressed : flag = 0x13 ∨ flag = 0x18) :
    (flag &&& 0x10 != 0) = true := by
  rcases addressed with rfl | rfl <;> decide

/-- A write that goes on. -/
structure Writing (userBuf : ℕ → UInt8) (state : Interface) (pending : List UInt8) : Prop where
  txMode : state.gi2c1.txMode = 1
  transDone : state.gi2c1.transDone = 0
  errorNO : state.gi2c1.errorNO = 0
  left : Left userBuf state.gi2c1 pending

section
variable {device : Device} {userBuf : ℕ → UInt8} {state : Interface} {pending : List UInt8}

theorem Writing.serve_of_nack (writing : Writing userBuf state pending)
    (nack : device.ack (state.bus.length - 1) = false) :
    done (serve device userBuf state) = true ∧
      (serve device userBuf state).gi2c1.errorNO = 1 ∧
        (serve device userBuf state).bus = state.bus := by
  simp [serve, interrupt, i2c1Isr, writing.txMode, masterWrite, nack, Interface.finish, done]

theorem Writing.serve_of_nil (writing : Writing userBuf state [])
    (ack : device.ack (state.bus.length - 1) = true) :
    done (serve device userBuf state) = true ∧
      (serve device userBuf state).gi2c1.errorNO = 0 ∧
        (serve device userBuf state).bus = state.bus := by
  obtain ⟨txMode, transDone, errorNO, left⟩ := writing
  generalize nothing : ([] : List UInt8) = pending at left
  cases left with
  | data flag =>
      have none_left : state.gi2c1.remainNum = 0 := by
        have length_eq := congrArg List.length nothing
        rw [dataLeft, List.length_map, List.length_range'] at length_eq
        exact UInt16.toNat_inj.mp length_eq.symm
      simp [serve, interrupt, i2c1Isr, txMode, masterWrite, ack, addressed_of_flag flag, none_left,
        Interface.finish, done, errorNO]
  | low flag => exact nomatch nothing
  | register flag =>
      rw [I2cOp.register] at nothing
      split at nothing <;> exact nomatch nothing

variable {byte : UInt8}

theorem Writing.of_puts {next : Interface} {addrFlag : UInt8}
    (same : state.gi2c1.txMode = 1 ∧ state.gi2c1.transDone = 0 ∧ state.gi2c1.errorNO = 0)
    (puts : Puts byte addrFlag state next)
    (left : Left userBuf { state.gi2c1 with addrFlag := addrFlag } pending) :
    Writing userBuf next pending := by
  constructor <;> rw [puts.msg]
  · exact same.1
  · exact same.2.1
  · exact same.2.2
  · exact left

theorem Writing.serve_of_cons (writing : Writing userBuf state (byte :: pending))
    (ack : device.ack (state.bus.length - 1) = true) :
    (serve device userBuf state).bus = state.bus ++ [byte] ∧
      Writing userBuf (serve device userBuf state) pending := by
  obtain ⟨txMode, transDone, errorNO, left⟩ := writing
  generalize bytes_eq : byte :: pending = bytes at left
  cases left with
  | data flag =>
      have more : state.gi2c1.remainNum ≠ 0 := by
        intro none_left
        rw [dataLeft, none_left] at bytes_eq
        exact nomatch bytes_eq
      have count_eq : state.gi2c1.remainNum.toNat = (state.gi2c1.remainNum - 1).toNat + 1 := by
        have positive : state.gi2c1.remainNum.toNat ≠ 0 := fun zero =>
          more (UInt16.toNat_inj.mp zero)
        have one_le : (1 : UInt16) ≤ state.gi2c1.remainNum := by
          rw [UInt16.le_iff_toNat_le]
          change 1 ≤ _
          omega
        rw [UInt16.toNat_sub_of_le _ _ one_le]
        change _ = _ - 1 + 1
        omega
      rw [dataLeft, count_eq, List.range'_succ, List.map_cons, List.cons.injEq] at bytes_eq
      have msg_eq : (serve device userBuf state).gi2c1 =
          { state.gi2c1 with
            pData := state.gi2c1.pData + 1
            remainNum := state.gi2c1.remainNum - 1 } := by
        simp [serve, interrupt, i2c1Isr, txMode, masterWrite, ack, addressed_of_flag flag, more,
          Interface.put]
      refine ⟨?_, ?_, ?_, ?_, ?_⟩
      · simp [serve, interrupt, i2c1Isr, txMode, masterWrite, ack, addressed_of_flag flag, more,
          Interface.put, bytes_eq.1]
      · rw [msg_eq, txMode]
      · rw [msg_eq, transDone]
      · rw [msg_eq, errorNO]
      · rw [msg_eq, bytes_eq.2]
        exact Left.data flag
  | low flag =>
      obtain ⟨rfl, rfl⟩ := List.cons.inj bytes_eq
      have eight : (0x08 : UInt8) &&& 0x10 = 0 ∧ (0x08 : UInt8) &&& 0x08 ≠ 0 ∧
          (0x08 : UInt8) ||| 0x10 = 0x18 := by decide
      have puts : Puts state.gi2c1.regAddr.toUInt8 0x18 state (serve device userBuf state) := by
        constructor <;>
          simp [serve, interrupt, i2c1Isr, txMode, masterWrite, ack, flag, eight, Interface.put,
            Interface.setAddrFlag]
      exact ⟨puts.bus, .of_puts ⟨txMode, transDone, errorNO⟩ puts (Left.data (Or.inr rfl))⟩
  | register flag =>
      have zero : (0 : UInt8) &&& 0x10 = 0 ∧ (0 : UInt8) &&& 0x08 = 0 ∧
          (0 : UInt8) ||| 0x13 = 0x13 ∧ (0 : UInt8) ||| 0x08 = 0x08 := by decide
      cases width : state.gi2c1.addrWidth with
      | width8 =>
          rw [width] at bytes_eq
          obtain ⟨rfl, rfl⟩ := List.cons.inj bytes_eq
          have puts : Puts state.gi2c1.regAddr.toUInt8 0x13 state (serve device userBuf state) := by
            constructor <;>
              simp [serve, interrupt, i2c1Isr, txMode, masterWrite, ack, flag, width, zero,
                Interface.put, Interface.setAddrFlag]
          exact ⟨puts.bus, .of_puts ⟨txMode, transDone, errorNO⟩ puts (Left.data (Or.inl rfl))⟩
      | width16 =>
          rw [width] at bytes_eq
          obtain ⟨rfl, rfl⟩ := List.cons.inj bytes_eq
          have puts : Puts (state.gi2c1.regAddr >>> 8).toUInt8 0x08 state
              (serve device userBuf state) := by
            constructor <;>
              simp [serve, interrupt, i2c1Isr, txMode, masterWrite, ack, flag, width, zero,
                Interface.put, Interface.setAddrFlag]
          exact ⟨puts.bus, .of_puts ⟨txMode, transDone, errorNO⟩ puts (Left.low rfl)⟩

theorem Writing.not_done (writing : Writing userBuf state pending) : done state = false := by
  rw [done, writing.transDone]
  rfl

theorem forall_lt_succ_iff {ack : ℕ → Bool} (place count : ℕ) :
    (∀ i < count + 1, ack (place + i) = true) ↔
      ack place = true ∧ ∀ i < count, ack (place + 1 + i) = true := by
  constructor
  · intro every
    refine ⟨every 0 (Nat.zero_lt_succ _), fun i inside => ?_⟩
    rw [Nat.add_right_comm]
    exact every (i + 1) (Nat.succ_lt_succ inside)
  · rintro ⟨first, later⟩ i inside
    rcases i with _ | i
    · exact first
    · rw [show place + (i + 1) = place + 1 + i by omega]
      exact later i (Nat.lt_of_succ_lt_succ inside)

/-- A write puts what it still has to put on the bus, up to a byte that is not acknowledged, and
notes an error exactly if there is one. -/
theorem Writing.returns (device : Device) (writing : Writing userBuf state pending)
    {front : List UInt8} {last : UInt8} (bus_eq : state.bus = front ++ [last]) :
    ∃ final, FuelLoop.Returns done (serve device userBuf) state final ∧
      final.bus = front ++ untilNack device.ack front.length (last :: pending) ∧
      (final.gi2c1.errorNO = 0 ↔
        ∀ i < pending.length + 1, device.ack (front.length + i) = true) := by
  have place_eq : state.bus.length - 1 = front.length := by
    rw [bus_eq, List.length_append]
    rfl
  induction pending generalizing state front last with
  | nil =>
      cases ack : device.ack front.length with
      | true =>
          obtain ⟨ends, errorNO, same⟩ := writing.serve_of_nil (place_eq.symm ▸ ack)
          refine ⟨_, .of_body writing.not_done (FuelLoop.returns_of_done ends), ?_, ?_⟩
          · rw [same, bus_eq, untilNack, untilNack, ite_self]
          · refine iff_of_true errorNO fun i inside => ?_
            obtain rfl : i = 0 := Nat.lt_one_iff.mp inside
            exact ack
      | false =>
          obtain ⟨ends, errorNO, same⟩ := writing.serve_of_nack (place_eq.symm ▸ ack)
          refine ⟨_, .of_body writing.not_done (FuelLoop.returns_of_done ends), ?_, ?_⟩
          · rw [same, bus_eq, untilNack, untilNack, ite_self]
          · rw [errorNO]
            refine iff_of_false (by decide) fun every => ?_
            exact Bool.false_ne_true (ack.symm.trans (every 0 Nat.zero_lt_one))
  | cons byte pending induction =>
      rw [List.length_cons, forall_lt_succ_iff, untilNack]
      cases ack : device.ack front.length with
      | true =>
          obtain ⟨next, writing'⟩ := writing.serve_of_cons (place_eq.symm ▸ ack)
          rw [bus_eq] at next
          have length_eq : (front ++ [last]).length = front.length + 1 := List.length_append
          obtain ⟨final, returns, sent, errorNO⟩ := induction writing' next (by
            rw [next, List.length_append]
            rfl)
          refine ⟨final, .of_body writing.not_done returns, ?_, ?_⟩
          · rw [sent, length_eq, if_pos rfl, List.append_assoc, List.singleton_append]
          · rw [errorNO, length_eq, and_iff_right rfl]
      | false =>
          obtain ⟨ends, errorNO, same⟩ := writing.serve_of_nack (place_eq.symm ▸ ack)
          refine ⟨_, .of_body writing.not_done (FuelLoop.returns_of_done ends), ?_, ?_⟩
          · rw [same, bus_eq, if_neg Bool.false_ne_true]
          · rw [errorNO]
            exact iff_of_false (by decide) fun both => Bool.false_ne_true both.1

end

theorem writing_start (request : Request) (state : Interface) :
    Writing request.userBuf (start 1 request state)
      (request.op.register ++
        (List.range (request.count.toNat % 65536)).map request.userBuf) := by
  refine ⟨rfl, rfl, rfl, ?_⟩
  have left : Left request.userBuf (start 1 request state).gi2c1 _ := Left.register rfl
  rw [List.range_eq_range']
  exact left

theorem write_returns (device : Device) (request : Request) (state : Interface) :
    ∃ last, FuelLoop.Returns done (serve device request.userBuf) (start 1 request state) last ∧
      last.bus = untilNack device.ack 0 (request.written (request.count.toNat % 65536)) ∧
      (last.gi2c1.errorNO = 0 ↔
        Acked device.ack (request.written (request.count.toNat % 65536)).length) := by
  have bus_start : (start 1 request state).bus = [] ++ [request.op.writeAddress] := rfl
  obtain ⟨last, returns, bus_eq, errorNO⟩ := (writing_start request state).returns device bus_start
  refine ⟨last, returns, bus_eq, ?_⟩
  simp only [List.length_nil, Nat.zero_add] at errorNO
  exact errorNO

theorem written_eq (request : Request) :
    ∃ more, request.written request.count.toNat =
        request.written (request.count.toNat % 65536) ++ more ∧
      more.length = request.count.toNat - request.count.toNat % 65536 := by
  refine ⟨(List.range' (request.count.toNat % 65536)
    (request.count.toNat - request.count.toNat % 65536)).map request.userBuf, ?_, ?_⟩
  · rw [Request.written, Request.written, List.cons_append, List.append_assoc, ← List.map_append,
      List.range_eq_range', List.range_eq_range']
    have whole := @List.range'_append_1 0 (request.count.toNat % 65536)
      (request.count.toNat - request.count.toNat % 65536)
    rw [Nat.zero_add, Nat.add_sub_cancel' (Nat.mod_le _ _)] at whole
    rw [whole]
  · rw [List.length_map, List.length_range']

/-- A write is exact exactly if it finds no transfer that is done, and its count fits or the device
does not acknowledge a byte of what is left of it. -/
theorem writesExactly_iff (state : Interface) (device : Device) (request : Request) :
    WritesExactly state device request ↔ WriteFits state device request := by
  rw [WriteFits]
  cases busy : done state with
  | true =>
      refine iff_of_false (fun writes => ?_) (fun fits => nomatch fits.1)
      have sent := (exists_transfer_iff_of_done (fun ret bus _ => Sent device request ret bus)
        busy).mp writes
      exact nomatch sent.bus
  | false =>
      obtain ⟨last, returns, bus_eq, errorNO⟩ := write_returns device request state
      obtain ⟨more, whole, length_more⟩ := written_eq request
      rw [and_iff_right rfl, WritesExactly, i2c1Write,
        exists_transfer_iff (fun ret bus _ => Sent device request ret bus) busy returns]
      by_cases acked : Acked device.ack (request.written (request.count.toNat % 65536)).length
      · have acked' : ∀ i < (request.written (request.count.toNat % 65536)).length,
            device.ack (0 + i) = true := fun i inside => (Nat.zero_add i).symm ▸ acked i inside
        have all := untilNack_of_acked acked' []
        have more_sent := untilNack_of_acked acked' more
        rw [List.append_nil, untilNack, List.append_nil] at all
        rw [or_iff_left (not_not_intro acked)]
        constructor
        · rintro ⟨sent, -⟩
          rw [bus_eq, all, whole, more_sent] at sent
          have nothing := List.self_eq_append_right.mp sent
          have short : more.length = 0 := by
            cases more with
            | nil => rfl
            | cons byte bytes => exact nomatch nothing
          omega
        · intro fits
          obtain rfl : more = [] := List.length_eq_zero_iff.mp (by omega)
          rw [List.append_nil] at whole
          refine ⟨?_, fun _ => ?_⟩
          · rw [whole, bus_eq]
          · rw [whole]
            exact acked
      · refine iff_of_true ⟨?_, fun ret => absurd (errorNO.mp ret) acked⟩ (Or.inr acked)
        rw [whole, bus_eq, untilNack_of_nack]
        exact fun every => acked fun i inside => Nat.zero_add i ▸ every i inside

/-! ### Reading -/

/-- A read that has stored some bytes. -/
structure Reading (data : ℕ → UInt8) (stored : ℕ) (remain : UInt16) (state : Interface) : Prop where
  txMode : state.gi2c1.txMode = 0
  transDone : state.gi2c1.transDone = 0
  errorNO : state.gi2c1.errorNO = 0
  remainNum : state.gi2c1.remainNum = remain
  pData : state.gi2c1.pData = stored
  stores : state.stores = received data stored

section
variable {device : Device} {userBuf : ℕ → UInt8} {state : Interface} {stored : ℕ} {remain : UInt16}

theorem Reading.not_done (reading : Reading device.data stored remain state) :
    done state = false := by
  rw [done, reading.transDone]
  rfl

theorem Reading.of_addrFlag (reading : Reading device.data stored remain state) {next : Interface}
    {addrFlag : UInt8} (msg_eq : next.gi2c1 = { state.gi2c1 with addrFlag := addrFlag })
    (stores_eq : next.stores = state.stores) : Reading device.data stored remain next := by
  constructor
  · rw [msg_eq, reading.txMode]
  · rw [msg_eq, reading.transDone]
  · rw [msg_eq, reading.errorNO]
  · rw [msg_eq, reading.remainNum]
  · rw [msg_eq, reading.pData]
  · rw [stores_eq, reading.stores]

theorem received_succ (data : ℕ → UInt8) (count : ℕ) :
    received data (count + 1) = received data count ++ [(data count, count)] := by
  rw [received, List.range_succ, List.map_append]
  rfl

theorem length_received (data : ℕ → UInt8) (count : ℕ) : (received data count).length = count := by
  rw [received, List.length_map, List.length_range]

theorem addressed_flag : (0x1B : UInt8) &&& 0x10 ≠ 0 := by decide

theorem Reading.serve_of_receiving (userBuf : ℕ → UInt8)
    (reading : Reading device.data stored remain state) (flag : state.gi2c1.addrFlag = 0x1B)
    (receiving : state.config.sta = false) :
    (serve device userBuf state).gi2c1 =
        { state.gi2c1 with
          pData := stored + 1
          remainNum := remain - 1
          transDone := if remain - 1 = 0 then 1 else 0 } ∧
      (serve device userBuf state).config.sta = false ∧
      (serve device userBuf state).bus = state.bus ∧
      (serve device userBuf state).stores = received device.data (stored + 1) := by
  obtain ⟨txMode, transDone, errorNO, remainNum, pData, stores⟩ := reading
  rw [received_succ]
  refine ⟨?_, ?_, ?_, ?_⟩ <;>
    by_cases last : remain - 1 = 0 <;>
      simp [serve, interrupt, i2c1Isr, txMode, masterRead, flag, receiving, addressed_flag,
        remainNum, pData, stores, last, Interface.finish, transDone, errorNO, length_received]

/-- A read that receives stores as many bytes as sixteen bits count down. -/
theorem Reading.returns_of_receiving {n : ℕ} (bounded : n ≤ 65535)
    (reading : Reading device.data stored (.ofNat (n + 1)) state)
    (flag : state.gi2c1.addrFlag = 0x1B) (receiving : state.config.sta = false) :
    ∃ final, FuelLoop.Returns done (serve device userBuf) state final ∧
      final.gi2c1.errorNO = 0 ∧ final.bus = state.bus ∧
        final.stores = received device.data (stored + (n + 1)) := by
  induction n generalizing state stored with
  | zero =>
      obtain ⟨msg_eq, -, bus_eq, stores_eq⟩ := reading.serve_of_receiving userBuf flag receiving
      have last : UInt16.ofNat (0 + 1) - 1 = 0 := rfl
      rw [last, if_pos rfl] at msg_eq
      refine ⟨_, .of_body reading.not_done (FuelLoop.returns_of_done ?_), ?_, bus_eq, stores_eq⟩
      · rw [done, msg_eq]
        rfl
      · rw [msg_eq, reading.errorNO]
  | succ n induction =>
      obtain ⟨msg_eq, receiving', bus_eq, stores_eq⟩ :=
        reading.serve_of_receiving userBuf flag receiving
      have next : UInt16.ofNat (n + 1 + 1) - 1 = .ofNat (n + 1) := by
        rw [UInt16.ofNat_add, show UInt16.ofNat 1 = 1 from rfl, UInt16.add_sub_cancel]
      have more : UInt16.ofNat (n + 1) ≠ 0 := by
        intro zero
        have toNat_eq := congrArg UInt16.toNat zero
        rw [UInt16.toNat_ofNat_of_lt' (Nat.lt_succ_of_le bounded)] at toNat_eq
        exact nomatch toNat_eq
      rw [next, if_neg more] at msg_eq
      have reading' : Reading device.data (stored + 1) (.ofNat (n + 1))
          (serve device userBuf state) := by
        refine ⟨?_, ?_, ?_, ?_, ?_, stores_eq⟩ <;> rw [msg_eq]
        · exact reading.txMode
        · exact reading.errorNO
      have flag' : (serve device userBuf state).gi2c1.addrFlag = 0x1B := by
        rw [msg_eq]
        exact flag
      obtain ⟨final, returns, errorNO, bus_final, stores_final⟩ :=
        induction (Nat.le_of_succ_le bounded) reading' flag' receiving'
      refine ⟨final, .of_body reading.not_done returns, errorNO, bus_final.trans bus_eq, ?_⟩
      rw [stores_final, Nat.add_right_comm]
      rfl

def readAddress (msg : I2c1Msg) : UInt8 := (msg.salveID <<< 1) ||| 0x01

/-- The addresses that a read still has to put on the bus. -/
inductive AddressLeft (msg : I2c1Msg) : List UInt8 → Prop
  | again (flag : msg.addrFlag = 0x0A) : AddressLeft msg [readAddress msg]
  | low (flag : msg.addrFlag = 0x08) : AddressLeft msg [msg.regAddr.toUInt8, readAddress msg]
  | register (flag : msg.addrFlag = 0) :
      AddressLeft msg (I2cOp.register ⟨msg.addrWidth, msg.salveID, msg.regAddr⟩ ++
        [readAddress msg])

variable {pending : List UInt8}

theorem AddressLeft.ne_nil {msg : I2c1Msg} (left : AddressLeft msg pending) : pending ≠ [] := by
  cases left with
  | again flag | low flag => exact List.cons_ne_nil _ _
  | register flag => exact List.append_ne_nil_of_right_ne_nil _ (List.cons_ne_nil _ _)

/-- A read that still has to address the device. -/
structure Addressing (data : ℕ → UInt8) (remain : UInt16) (state : Interface)
    (pending : List UInt8) : Prop where
  reading : Reading data 0 remain state
  left : AddressLeft state.gi2c1 pending

/-- A read whose repeated start is on the bus. -/
structure Repeated (data : ℕ → UInt8) (remain : UInt16) (state : Interface) : Prop where
  reading : Reading data 0 remain state
  flag : state.gi2c1.addrFlag = 0x1B
  sta : state.config.sta = true

theorem flag_eq :
    ((0x0A : UInt8) &&& 0x10 = 0 ∧ (0x0A : UInt8) &&& 0x08 ≠ 0 ∧ (0x0A : UInt8) &&& 0x02 ≠ 0 ∧
      (0x0A : UInt8) ||| 0x13 = 0x1B) ∧
    ((0x08 : UInt8) &&& 0x10 = 0 ∧ (0x08 : UInt8) &&& 0x08 ≠ 0 ∧ (0x08 : UInt8) &&& 0x02 = 0 ∧
      ((0x08 : UInt8) &&& ~~~0x0B) ||| 0x0A = 0x0A) ∧
    ((0 : UInt8) &&& 0x10 = 0 ∧ (0 : UInt8) &&& 0x08 = 0 ∧
      ((0 : UInt8) &&& ~~~0x0B) ||| 0x0A = 0x0A ∧ ((0 : UInt8) &&& ~~~0x0B) ||| 0x08 = 0x08) := by
  decide

theorem Addressing.serve_of_nack (addressing : Addressing device.data remain state pending)
    (nack : device.ack (state.bus.length - 1) = false) :
    done (serve device userBuf state) = true ∧
      (serve device userBuf state).gi2c1.errorNO = 1 ∧
        (serve device userBuf state).bus = state.bus ∧
          (serve device userBuf state).stores = [] := by
  obtain ⟨⟨txMode, transDone, errorNO, remainNum, pData, stores⟩, left⟩ := addressing
  obtain ⟨again, low, register⟩ := flag_eq
  rw [received, List.range_zero, List.map_nil] at stores
  cases left with
  | again flag =>
      simp [serve, interrupt, i2c1Isr, txMode, masterRead, nack, flag, again, Interface.finish,
        done, stores]
  | low flag =>
      simp [serve, interrupt, i2c1Isr, txMode, masterRead, nack, flag, low, Interface.finish, done,
        stores]
  | register flag =>
      simp [serve, interrupt, i2c1Isr, txMode, masterRead, nack, flag, register, Interface.finish,
        done, stores]

/-- Behind an acknowledged byte a read goes on with the next one, and behind the last of them it
has started anew. -/
theorem Addressing.serve_of_ack {byte : UInt8} (userBuf : ℕ → UInt8)
    (addressing : Addressing device.data remain state (byte :: pending))
    (ack : device.ack (state.bus.length - 1) = true) :
    (serve device userBuf state).bus = state.bus ++ [byte] ∧
      (pending = [] ∧ Repeated device.data remain (serve device userBuf state) ∨
        Addressing device.data remain (serve device userBuf state) pending) := by
  obtain ⟨reading, left⟩ := addressing
  have txMode := reading.txMode
  obtain ⟨again, low, register⟩ := flag_eq
  generalize bytes_eq : byte :: pending = bytes at left
  cases left with
  | again flag =>
      obtain ⟨rfl, rfl⟩ := List.cons.inj bytes_eq
      have puts : Puts (readAddress state.gi2c1) 0x1B state (serve device userBuf state) := by
        constructor <;>
          simp [serve, interrupt, i2c1Isr, txMode, masterRead, ack, flag, again, Interface.put,
            Interface.setAddrFlag, readAddress]
      refine ⟨puts.bus, Or.inl ⟨rfl, reading.of_addrFlag puts.msg puts.stores, ?_, ?_⟩⟩
      · rw [puts.msg]
      · simp [serve, interrupt, i2c1Isr, txMode, masterRead, ack, flag, again, Interface.put,
          Interface.setAddrFlag]
  | low flag =>
      obtain ⟨rfl, rfl⟩ := List.cons.inj bytes_eq
      have puts : Puts state.gi2c1.regAddr.toUInt8 0x0A state (serve device userBuf state) := by
        constructor <;>
          simp [serve, interrupt, i2c1Isr, txMode, masterRead, ack, flag, low, Interface.put,
            Interface.setAddrFlag]
      refine ⟨puts.bus, Or.inr ⟨reading.of_addrFlag puts.msg puts.stores, ?_⟩⟩
      rw [puts.msg]
      exact AddressLeft.again rfl
  | register flag =>
      cases width : state.gi2c1.addrWidth with
      | width8 =>
          rw [width] at bytes_eq
          obtain ⟨rfl, rfl⟩ := List.cons.inj bytes_eq
          have puts : Puts state.gi2c1.regAddr.toUInt8 0x0A state (serve device userBuf state) := by
            constructor <;>
              simp [serve, interrupt, i2c1Isr, txMode, masterRead, ack, flag, register, width,
                Interface.put, Interface.setAddrFlag]
          refine ⟨puts.bus, Or.inr ⟨reading.of_addrFlag puts.msg puts.stores, ?_⟩⟩
          rw [puts.msg]
          exact AddressLeft.again rfl
      | width16 =>
          rw [width] at bytes_eq
          obtain ⟨rfl, rfl⟩ := List.cons.inj bytes_eq
          have puts : Puts (state.gi2c1.regAddr >>> 8).toUInt8 0x08 state
              (serve device userBuf state) := by
            constructor <;>
              simp [serve, interrupt, i2c1Isr, txMode, masterRead, ack, flag, register, width,
                Interface.put, Interface.setAddrFlag]
          refine ⟨puts.bus, Or.inr ⟨reading.of_addrFlag puts.msg puts.stores, ?_⟩⟩
          rw [puts.msg]
          exact AddressLeft.low rfl

theorem Repeated.serve_of_nack (repeated : Repeated device.data remain state)
    (nack : device.ack (state.bus.length - 1) = false) :
    done (serve device userBuf state) = true ∧
      (serve device userBuf state).gi2c1.errorNO = 0 ∧
        (serve device userBuf state).bus = state.bus ∧
          (serve device userBuf state).stores = [] := by
  obtain ⟨⟨txMode, transDone, errorNO, remainNum, pData, stores⟩, flag, sta⟩ := repeated
  rw [received, List.range_zero, List.map_nil] at stores
  simp [serve, interrupt, i2c1Isr, txMode, masterRead, nack, flag, sta, addressed_flag,
    Interface.finish, done, stores, errorNO]

theorem Repeated.serve_of_ack (userBuf : ℕ → UInt8) (repeated : Repeated device.data remain state)
    (ack : device.ack (state.bus.length - 1) = true) :
    Reading device.data 0 remain (serve device userBuf state) ∧
      (serve device userBuf state).gi2c1.addrFlag = 0x1B ∧
      (serve device userBuf state).config.sta = false ∧
      (serve device userBuf state).bus = state.bus := by
  obtain ⟨reading, flag, sta⟩ := repeated
  have txMode := reading.txMode
  have same : (serve device userBuf state).gi2c1 = state.gi2c1 := by
    simp [serve, interrupt, i2c1Isr, txMode, masterRead, ack, flag, sta, addressed_flag]
  have msg_eq : (serve device userBuf state).gi2c1 = { state.gi2c1 with addrFlag := 0x1B } := by
    rw [same, ← flag]
  refine ⟨reading.of_addrFlag msg_eq ?_, ?_, ?_, ?_⟩
  · simp [serve, interrupt, i2c1Isr, txMode, masterRead, ack, flag, sta, addressed_flag]
  · rw [msg_eq]
  · simp [serve, interrupt, i2c1Isr, txMode, masterRead, ack, flag, sta, addressed_flag]
  · simp [serve, interrupt, i2c1Isr, txMode, masterRead, ack, flag, sta, addressed_flag]

theorem Repeated.returns {n : ℕ} (bounded : n ≤ 65535)
    (repeated : Repeated device.data (.ofNat (n + 1)) state) :
    ∃ final, FuelLoop.Returns done (serve device userBuf) state final ∧
      final.bus = state.bus ∧ final.gi2c1.errorNO = 0 ∧
        final.stores = if device.ack (state.bus.length - 1) = true then
          received device.data (n + 1) else [] := by
  have goesOn := repeated.reading.not_done
  cases ack : device.ack (state.bus.length - 1) with
  | true =>
      obtain ⟨reading, flag, receiving, bus_eq⟩ := repeated.serve_of_ack userBuf ack
      obtain ⟨final, returns, errorNO, bus_final, stores⟩ :=
        reading.returns_of_receiving bounded flag receiving
      refine ⟨final, .of_body goesOn returns, bus_final.trans bus_eq, errorNO, ?_⟩
      rw [stores, Nat.zero_add, if_pos rfl]
  | false =>
      obtain ⟨ends, errorNO, bus_eq, stores⟩ := repeated.serve_of_nack ack
      exact ⟨_, .of_body goesOn (FuelLoop.returns_of_done ends), bus_eq, errorNO, stores⟩

/-- A read puts its addresses on the bus, up to one that is not acknowledged, notes an error if it
is not the last, and otherwise stores what it receives. -/
theorem Addressing.returns {n : ℕ} (bounded : n ≤ 65535) {pending front : List UInt8} {last : UInt8}
    (addressing : Addressing device.data (.ofNat (n + 1)) state pending)
    (bus_eq : state.bus = front ++ [last]) :
    ∃ final, FuelLoop.Returns done (serve device userBuf) state final ∧
      final.bus = front ++ untilNack device.ack front.length (last :: pending) ∧
      (final.gi2c1.errorNO = 0 ↔ ∀ i < pending.length, device.ack (front.length + i) = true) ∧
      final.stores =
        if ∀ i < pending.length + 1, device.ack (front.length + i) = true then
          received device.data (n + 1) else [] := by
  have goesOn := addressing.reading.not_done
  have place_eq : state.bus.length - 1 = front.length := by
    rw [bus_eq, List.length_append]
    rfl
  induction pending generalizing state front last with
  | nil => exact absurd rfl addressing.left.ne_nil
  | cons byte pending induction =>
      simp only [List.length_cons, forall_lt_succ_iff front.length]
      rw [untilNack]
      cases ack : device.ack front.length with
      | true =>
          obtain ⟨next, onward⟩ := addressing.serve_of_ack userBuf (place_eq.symm ▸ ack)
          rw [bus_eq] at next
          have length_eq : (front ++ [last]).length = front.length + 1 := List.length_append
          have place_eq' : (serve device userBuf state).bus.length - 1 = front.length + 1 := by
            rw [next, List.length_append, length_eq]
            rfl
          rcases onward with ⟨rfl, repeated⟩ | addressing'
          · obtain ⟨final, returns, bus_final, errorNO, stores⟩ := repeated.returns bounded
            refine ⟨final, .of_body goesOn returns, ?_, ?_, ?_⟩
            · rw [bus_final, next, if_pos rfl, untilNack, untilNack, ite_self, List.append_assoc]
              rfl
            · exact iff_of_true errorNO ⟨rfl, nofun⟩
            · rw [stores, place_eq']
              simp
          · obtain ⟨final, returns, sent, errorNO, stores⟩ :=
              induction addressing' next addressing'.reading.not_done
                (place_eq'.trans length_eq.symm)
            refine ⟨final, .of_body goesOn returns, ?_, ?_, ?_⟩
            · rw [sent, length_eq, if_pos rfl, List.append_assoc, List.singleton_append]
            · rw [errorNO, length_eq, and_iff_right rfl]
            · rw [stores, length_eq]
              simp
      | false =>
          obtain ⟨ends, errorNO, same, stores⟩ := addressing.serve_of_nack (place_eq.symm ▸ ack)
          refine ⟨_, .of_body goesOn (FuelLoop.returns_of_done ends), ?_, ?_, ?_⟩
          · rw [same, bus_eq, if_neg Bool.false_ne_true]
          · rw [errorNO]
            exact iff_of_false (by decide) fun both => Bool.false_ne_true both.1
          · rw [stores, if_neg fun both => Bool.false_ne_true both.1]

end

/-- The number of bytes that a count of sixteen bits stands for. -/
def countDown (count : ℕ) : ℕ := (count + 65535) % 65536

theorem addressing_start (device : Device) (request : Request) (state : Interface) :
    Addressing device.data (.ofNat (countDown request.count.toNat + 1)) (start 0 request state)
      (request.op.register ++ [request.op.readAddress]) := by
  refine ⟨⟨rfl, rfl, rfl, ?_, rfl, rfl⟩, AddressLeft.register rfl⟩
  apply UInt16.toNat_inj.mp
  rw [UInt16.toNat_ofNat', countDown]
  change request.count.toNat % 65536 = _
  omega

/-- What a read does. -/
theorem read_returns (device : Device) (request : Request) (state : Interface) :
    ∃ last, FuelLoop.Returns done (serve device request.userBuf) (start 0 request state) last ∧
      last.bus = untilNack device.ack 0 request.addressed ∧
      (last.gi2c1.errorNO = 0 ↔ Acked device.ack (request.addressed.length - 1)) ∧
      last.stores =
        if Acked device.ack request.addressed.length then
          received device.data (countDown request.count.toNat + 1) else [] := by
  have bus_start : (start 0 request state).bus = [] ++ [request.op.writeAddress] := rfl
  have bounded : countDown request.count.toNat ≤ 65535 := by
    rw [countDown]
    omega
  obtain ⟨last, returns, bus_eq, errorNO, stores⟩ :=
    (addressing_start device request state).returns bounded bus_start
  simp only [List.length_nil, Nat.zero_add] at errorNO stores
  exact ⟨last, returns, bus_eq, errorNO, stores⟩

/-- A read is exact exactly if it finds no transfer that is done, and the device does not
acknowledge an address before the repeated start, or all of them and the count can be counted
down. -/
theorem readsExactly_iff (state : Interface) (device : Device) (request : Request) :
    ReadsExactly state device request ↔ ReadFits state device request := by
  rw [ReadFits]
  cases busy : done state with
  | true =>
      refine iff_of_false (fun reads => ?_) (fun fits => nomatch fits.1)
      have stored := (exists_transfer_iff_of_done (Stored device request) busy).mp reads
      exact nomatch (stored.acked rfl).1
  | false =>
      obtain ⟨last, returns, bus_eq, errorNO, stores⟩ := read_returns device request state
      rw [and_iff_right rfl, ReadsExactly, i2c1Read,
        exists_transfer_iff (Stored device request) busy returns]
      by_cases acked : Acked device.ack request.addressed.length
      · have acked' : Acked device.ack (request.addressed.length - 1) :=
          fun i inside => acked i (by omega)
        rw [if_pos acked] at stores
        rw [or_iff_right (not_not_intro acked'), and_iff_right acked]
        constructor
        · rintro ⟨stores', -⟩
          rw [if_pos acked, stores] at stores'
          have length_eq := congrArg List.length stores'
          rw [length_received, length_received, countDown] at length_eq
          omega
        · rintro ⟨positive, bounded⟩
          have count_eq : countDown request.count.toNat + 1 = request.count.toNat := by
            rw [countDown]
            omega
          refine ⟨?_, fun _ => ⟨?_, acked⟩⟩
          · rw [if_pos acked, stores, count_eq]
          · have all :=
              untilNack_of_acked (fun i inside => (Nat.zero_add i).symm ▸ acked i inside) []
            rw [List.append_nil, untilNack, List.append_nil] at all
            rw [bus_eq, all]
      · rw [or_iff_left fun both => acked both.1]
        rw [if_neg acked] at stores
        constructor
        · rintro ⟨-, reported⟩ acked'
          exact acked (reported (errorNO.mpr acked')).2
        · intro early
          refine ⟨?_, fun ret => absurd (errorNO.mp ret) early⟩
          rw [if_neg acked, stores]

/-- The two calls do what they should exactly if they fit. -/
theorem transfers_exact_iff (state : Interface) (device : Device) (request : Request) :
    (WritesExactly state device request ↔ WriteFits state device request) ∧
      (ReadsExactly state device request ↔ ReadFits state device request) :=
  ⟨writesExactly_iff state device request, readsExactly_iff state device request⟩

/-- The driver after `i2c1_init`. -/
def i2c1Init : Interface where
  gi2c1 := ⟨0, 0, 0, 0, 0, 0, 0, 0, .width8⟩
  config := ⟨false, false, false, false, false, false, false⟩
  bus := []
  stores := []

/-- A byte is read from a register of a device that answers to its address for a write and to the
register, and no more. -/
def oneByte : Request where
  op := ⟨.width8, 0x50, 0⟩
  userBuf := fun _ => 0
  count := 1

/-- The read returns zero with nothing stored. -/
theorem unanswered_read_returns_zero :
    (i2c1Read 4 ⟨fun place => place < 2, fun _ => 0xff⟩ oneByte i2c1Init).map
        (fun result => (result.1, result.2.stores)) = some (0, []) ∧
      ¬ReadsExactly i2c1Init ⟨fun place => place < 2, fun _ => 0xff⟩ oneByte := by
  refine ⟨rfl, ?_⟩
  rw [readsExactly_iff, ReadFits]
  decide

end BdkFreertos.I2c1
