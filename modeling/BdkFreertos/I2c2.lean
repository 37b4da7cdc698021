import Mathlib.Data.List.Infix
import BdkFreertos.Machine
import BdkFreertos.Memory

/-!
# The transfers of the second I2C interface

The second interface has FIFOs.  It interrupts when as many bytes have come, or as many places are
free, as the interrupt mode of its status register says; `i2c2_isr` goes by the same bits, and by
the low byte of the count that remains.
-/

namespace BdkFreertos.I2c2

/-! ### The interface -/

/-- The bits of `WkMode`. -/
structure WkMode where
  rw : Bool
  ms : Bool
  al : Bool
  ia : Bool
  reserved : BitVec 4
  deriving DecidableEq

/-- What is used of `I2C2_MSG_ST`; places of `pData` are counted from the user buffer on. -/
structure I2c2Msg where
  wkMode : WkMode
  innerAddr : UInt8
  sendAddr : UInt8
  currentNum : UInt32
  allDataNum : UInt32
  addrFlag : UInt8
  transDone : UInt8
  ackCheck : UInt8

/-- `REG_I2C2_STA`. -/
structure Status where
  intMode : BitVec 2
  ack : Bool
  stop : Bool
  sta : Bool

/-- A byte that is put on the bus. -/
inductive Sent
  | address (byte : UInt8)
  | data (byte : UInt8)

/-- The driver and the interface. -/
structure Driver where
  gi2c2 : I2c2Msg
  status : Status
  ensmb : Bool
  /-- What waits to go over the bus. -/
  txFifo : List Sent
  /-- What went over the bus since the call. -/
  wire : List Sent
  /-- The bytes that were stored since the call, with their places in `pData`. -/
  stores : List (UInt8 × ℕ)

/-- An interrupt, with what the interface shows then. -/
structure Interrupt where
  si : Bool
  sclTimeout : Bool
  ack : Bool
  stop : Bool
  addrMatch : Bool
  txMode : Bool
  /-- The number of bytes that are left of those that wait. -/
  left : ℕ
  rxFifo : List UInt8
  /-- What an empty FIFO is read as. -/
  stale : UInt8

def fifoDepth : ℕ := 16

namespace Driver

/-- Write `REG_I2C2_DAT`. -/
def put (st : Driver) (sent : Sent) : Driver :=
  if st.txFifo.length < fifoDepth then { st with txFifo := st.txFifo ++ [sent] } else st

/-- The interface has put on the bus what does not wait any more. -/
def arrive (st : Driver) (interrupt : Interrupt) : Driver :=
  let moved := st.txFifo.length - interrupt.left
  { st with
    wire := st.wire ++ st.txFifo.take moved
    txFifo := st.txFifo.drop moved
    status := { st.status with ack := interrupt.ack, stop := interrupt.stop } }

def setAddrFlag (st : Driver) (addrFlag : UInt8) : Driver :=
  { st with gi2c2 := { st.gi2c2 with addrFlag := addrFlag } }

def setSta (st : Driver) (sta : Bool) : Driver :=
  { st with status := { st.status with sta := sta } }

def setAck (st : Driver) (ack : Bool) : Driver :=
  { st with status := { st.status with ack := ack } }

def setIntMode (st : Driver) (intMode : BitVec 2) : Driver :=
  { st with status := { st.status with intMode := intMode } }

def sendStop (st : Driver) : Driver := { st with status := { st.status with stop := true } }

def transDone (st : Driver) : Driver := { st with gi2c2 := { st.gi2c2 with transDone := 1 } }

/-- `remain_data_cnt`. -/
def remainDataCnt (st : Driver) : UInt8 := (st.gi2c2.allDataNum - st.gi2c2.currentNum).toUInt8

/-- The loop that writes `REG_I2C2_DAT`. -/
def sendData (userBuf : ℕ → UInt8) : ℕ → Driver → Driver
  | 0, st => st
  | count + 1, st =>
      let sent := st.put (.data (userBuf st.gi2c2.currentNum.toNat))
      sendData userBuf count
        { sent with gi2c2 := { st.gi2c2 with currentNum := st.gi2c2.currentNum + 1 } }

/-- The loop that reads `REG_I2C2_DAT`. -/
def storeData (stale : UInt8) : List UInt8 → ℕ → Driver → Driver
  | _, 0, st => st
  | rxFifo, count + 1, st =>
      storeData stale rxFifo.tail count
        { st with
          gi2c2 := { st.gi2c2 with currentNum := st.gi2c2.currentNum + 1 }
          stores := st.stores ++ [(rxFifo.headD stale, st.gi2c2.currentNum.toNat)] }

end Driver

/-- The free places at which a write is interrupted. -/
def fifoEmptyNum (intMode : BitVec 2) : UInt8 :=
  match intMode with
  | 0 => 16
  | 1 => 12
  | 2 => 8
  | 3 => 4

/-- The bytes at which a read is interrupted. -/
def burstNum (intMode : BitVec 2) : UInt8 :=
  match intMode with
  | 0 => 12
  | 1 => 8
  | 2 => 4
  | 3 => 1

/-- `i2c2_send_addr`. -/
def i2c2SendAddr (st : Driver) : Driver :=
  let msg := st.gi2c2
  if msg.wkMode.al = false then
    let txData := (msg.sendAddr <<< 1) &&& ~~~0x01
    let txData := if msg.wkMode = ⟨true, false, false, false, 0⟩ then txData ||| 0x01 else txData
    let st := (st.put (.address txData)).setAddrFlag (msg.addrFlag + 1)
    if msg.wkMode = ⟨false, false, false, false, 0⟩ ∨
        msg.wkMode = ⟨true, false, false, false, 0⟩ then
      st.setAddrFlag (st.gi2c2.addrFlag ||| 0x13)
    else st
  else
    (st.put (.address ((0xF0 : UInt8) ||| ((msg.sendAddr >>> 7) &&& 0x06)))).setAddrFlag
      (msg.addrFlag + 1)

def readMode (allDataNum : UInt32) : BitVec 2 :=
  if allDataNum > 12 then 0 else if allDataNum > 8 then 1 else if allDataNum > 4 then 2 else 3

def writeMode (allDataNum : UInt32) : BitVec 2 := if allDataNum < 4 then 0 else 1

/-- `i2c2_send_start`. -/
def i2c2SendStart (st : Driver) : Driver :=
  if st.gi2c2.wkMode.ms then st
  else
    let intMode :=
      if st.gi2c2.wkMode.rw then readMode st.gi2c2.allDataNum else writeMode st.gi2c2.allDataNum
    let st := i2c2SendAddr st
    (st.setIntMode (st.status.intMode ||| intMode)).setSta true

/-- A call. -/
structure Request where
  opAddr : UInt16
  salveId : UInt8
  count : UInt32

/-- `i2c2_read` and `i2c2_write`, up to the loop that waits. -/
def startTransfer (rw : Bool) (request : Request) (st : Driver) : Driver :=
  i2c2SendStart
    { st with
      gi2c2 :=
        { wkMode := { st.gi2c2.wkMode with rw := rw }
          innerAddr := request.opAddr.toUInt8
          sendAddr := request.salveId
          currentNum := 0
          allDataNum := request.count
          addrFlag := 0
          transDone := 0
          ackCheck := 1 }
      txFifo := []
      wire := []
      stores := [] }

def i2c2Read := startTransfer true

def i2c2Write := startTransfer false

/-- `i2c2_open`. -/
def i2c2Open (st : Driver) : Driver :=
  let opened := if st.ensmb then st.sendStop else st
  { opened with
    ensmb := true
    gi2c2 := { st.gi2c2 with wkMode := ⟨false, false, false, false, 0⟩ } }

/-! ### The interrupt -/

/-- The data of `i2c2_isr` for a master that writes. -/
def sendBurst (userBuf : ℕ → UInt8) (st : Driver) : Driver :=
  let remainDataCnt := st.remainDataCnt
  if remainDataCnt = 0 then st.sendStop.transDone
  else
    let fifoEmptyNum := fifoEmptyNum st.status.intMode
    let dataNum := if remainDataCnt < fifoEmptyNum then remainDataCnt else fifoEmptyNum
    let st := st.sendData userBuf dataNum.toNat
    if remainDataCnt - dataNum < fifoEmptyNum then (st.setSta false).setIntMode 0 else st

/-- The part of `i2c2_isr` for a master that writes. -/
def masterWrite (userBuf : ℕ → UInt8) (st : Driver) : Driver :=
  let msg := st.gi2c2
  if msg.ackCheck ≠ 0 ∧ st.status.ack = false then st.sendStop.transDone
  else if msg.addrFlag &&& 0x10 ≠ 0 then sendBurst userBuf st
  else if msg.wkMode.al then
    if msg.wkMode.ia then
      if msg.addrFlag &&& 0x08 = 0 then
        if msg.addrFlag &&& 0x03 = 0x00 then st
        else if msg.addrFlag &&& 0x03 = 0x01 then
          (st.put (.address msg.sendAddr)).setAddrFlag (msg.addrFlag + 1)
        else (st.put (.address msg.innerAddr)).setAddrFlag (msg.addrFlag ||| 0x1B)
      else st.setAddrFlag (msg.addrFlag ||| 0x13)
    else if msg.addrFlag &&& 0x03 = 0x00 then st
    else if msg.addrFlag &&& 0x03 = 0x01 then
      (st.put (.address msg.sendAddr)).setAddrFlag (msg.addrFlag ||| 0x13)
    else st.setAddrFlag (msg.addrFlag ||| 0x13)
  else if msg.wkMode.ia then
    if msg.addrFlag &&& 0x08 = 0 then
      (st.put (.address msg.innerAddr)).setAddrFlag (msg.addrFlag ||| 0x13)
    else st.setAddrFlag (msg.addrFlag ||| 0x13)
  else st.setAddrFlag (msg.addrFlag ||| 0x13)

/-- The data of `i2c2_isr` for a master that reads. -/
def storeBurst (interrupt : Interrupt) (st : Driver) : Driver :=
  let dataNum := burstNum st.status.intMode
  let remainDataCnt := st.remainDataCnt - dataNum
  let st := st.storeData interrupt.stale interrupt.rxFifo dataNum.toNat
  if remainDataCnt = 0 then ((st.setAck false).setSta false).sendStop.transDone
  else if remainDataCnt < dataNum then (st.setAck true).setIntMode 3
  else st.setAck true

/-- The part of `i2c2_isr` for a master that reads; `sta` was set when the interrupt came. -/
def masterRead (interrupt : Interrupt) (sta : Bool) (st : Driver) : Driver :=
  let msg := st.gi2c2
  if sta ∧ msg.ackCheck ≠ 0 ∧ st.status.ack = false then st.sendStop.transDone
  else if msg.addrFlag &&& 0x10 ≠ 0 then
    if sta then st.setAck true else storeBurst interrupt st
  else if msg.wkMode.al then
    if msg.wkMode.ia then
      if msg.addrFlag &&& 0x08 = 0 then
        if msg.addrFlag &&& 0x03 = 0x00 then st
        else if msg.addrFlag &&& 0x03 = 0x01 then
          (st.put (.address msg.sendAddr)).setAddrFlag (msg.addrFlag + 1)
        else (st.put (.address msg.innerAddr)).setAddrFlag (msg.addrFlag ||| 0x08)
      else if msg.addrFlag &&& 0x03 = 0x02 then
        ((st.setSta true).put (.address (((msg.sendAddr >>> 7) &&& 0x06) ||| 0xF1))).setAddrFlag
          (msg.addrFlag ||| 0x13)
      else st
    else if msg.addrFlag &&& 0x03 = 0x00 then st
    else if msg.addrFlag &&& 0x03 = 0x01 then
      (st.put (.address msg.sendAddr)).setAddrFlag (msg.addrFlag + 1)
    else if msg.addrFlag &&& 0x03 = 0x02 then
      ((st.setSta true).put (.address (((msg.sendAddr >>> 7) &&& 0x06) ||| 0xF1))).setAddrFlag
        (msg.addrFlag ||| 0x13)
    else st
  else if msg.wkMode.ia then
    if msg.addrFlag &&& 0x08 = 0 then
      (st.put (.address msg.innerAddr)).setAddrFlag ((msg.addrFlag &&& ~~~0x0B) ||| 0x0A)
    else
      ((st.setSta true).put (.address ((msg.sendAddr <<< 1) ||| 0x01))).setAddrFlag
        (msg.addrFlag ||| 0x13)
  else st.setAddrFlag (msg.addrFlag ||| 0x13)

/-- The part of `i2c2_isr` for a slave that writes. -/
def slaveWrite (userBuf : ℕ → UInt8) (interrupt : Interrupt) (st : Driver) : Driver :=
  if st.status.stop then st.transDone
  else
    let st := if interrupt.addrMatch then st.setAck true else st
    if interrupt.txMode = false then st
    else if st.status.ack then st.sendData userBuf 1
    else st

/-- The part of `i2c2_isr` for a slave that reads. -/
def slaveRead (interrupt : Interrupt) (st : Driver) : Driver :=
  if st.status.stop then st.transDone
  else if interrupt.addrMatch then st.setAck true
  else
    let dataNum := burstNum st.status.intMode
    let remainDataCnt := st.remainDataCnt - dataNum
    let st := st.storeData interrupt.stale interrupt.rxFifo dataNum.toNat
    if remainDataCnt = 0 then (st.setAck false).transDone
    else if remainDataCnt < dataNum then (st.setAck true).setIntMode 3
    else st.setAck true

/-- `i2c2_isr`. -/
def i2c2Isr (userBuf : ℕ → UInt8) (interrupt : Interrupt) (st : Driver) : Driver :=
  let st := st.arrive interrupt
  if interrupt.si = false then if interrupt.sclTimeout then i2c2Open st else st
  else
    match st.gi2c2.wkMode.ms, st.gi2c2.wkMode.rw with
    | false, false => masterWrite userBuf (st.setSta false)
    | false, true => masterRead interrupt st.status.sta (st.setSta false)
    | true, false => slaveWrite userBuf interrupt st
    | true, true => slaveRead interrupt st

def machine (userBuf : ℕ → UInt8) : Machine Driver Interrupt Unit where
  step st interrupt := (i2c2Isr userBuf interrupt st, ())

/-! ### The purpose -/

/-- An interrupt of a transfer that goes on: a write is interrupted when as many places are free as
its mode says, a read that has its addresses when as many bytes have come.  What has come are the
bytes behind those that were stored. -/
structure Consistent (data : ℕ → UInt8) (st : Driver) (interrupt : Interrupt) : Prop where
  running : st.gi2c2.transDone = 0
  si : interrupt.si = true
  left : interrupt.left ≤ st.txFifo.length
  free : st.gi2c2.wkMode.rw = false →
    (fifoEmptyNum st.status.intMode).toNat + interrupt.left ≤ fifoDepth
  come : st.gi2c2.wkMode.rw = true → st.gi2c2.addrFlag &&& 0x10 ≠ 0 → st.status.sta = false →
    (burstNum st.status.intMode).toNat ≤ interrupt.rxFifo.length
  stream : interrupt.rxFifo =
    (List.range' st.stores.length interrupt.rxFifo.length).map data

def Acknowledged (data : ℕ → UInt8) (st : Driver) (interrupt : Interrupt) : Prop :=
  Consistent data st interrupt ∧ interrupt.ack = true

/-- The data among the bytes of the bus. -/
def dataOf (sent : List Sent) : List UInt8 :=
  sent.filterMap fun
    | .address _ => none
    | .data byte => some byte

/-- Whatever the interrupts, a transfer does a part of its work in order, it ends, and when all its
bytes are acknowledged it ends with all of its work done. -/
structure Exactly {Item : Type*} (userBuf data : ℕ → UInt8) (start : Driver)
    (sofar : Driver → List Item) (goal : List Item) : Prop where
  inside : ∀ interrupts, (machine userBuf).Always (Consistent data) start interrupts →
    sofar ((machine userBuf).run start interrupts) <+: goal
  ends : ∃ bound, ∀ interrupts, (machine userBuf).Always (Consistent data) start interrupts →
    interrupts.length ≤ bound
  whole : ∀ interrupts, (machine userBuf).Always (Acknowledged data) start interrupts →
    ((machine userBuf).run start interrupts).gi2c2.transDone ≠ 0 →
      sofar ((machine userBuf).run start interrupts) = goal

/-- The first bytes of a stream, with their places in `pData`. -/
def received (data : ℕ → UInt8) (count : ℕ) : List (UInt8 × ℕ) :=
  (List.range count).map fun place => (data place, place)

def sent (userBuf : ℕ → UInt8) (count : ℕ) : List UInt8 := (List.range count).map userBuf

def ReadsExactly (userBuf data : ℕ → UInt8) (request : Request) (st : Driver) : Prop :=
  Exactly userBuf data (i2c2Read request st) Driver.stores (received data request.count.toNat)

/-- A write sends exactly the bytes that were asked for. -/
def WritesExactly (userBuf data : ℕ → UInt8) (request : Request) (st : Driver) : Prop :=
  Exactly userBuf data (i2c2Write request st) (fun st => dataOf st.wire)
    (sent userBuf request.count.toNat)

/-! ### Transfers that come to their goal -/

theorem fifoEmptyNum_bounds : ∀ intMode,
    4 ≤ (fifoEmptyNum intMode).toNat ∧ (fifoEmptyNum intMode).toNat ≤ fifoDepth := by
  decide

theorem burstNum_bounds : ∀ intMode,
    1 ≤ (burstNum intMode).toNat ∧ (burstNum intMode).toNat ≤ 12 := by
  decide

theorem exists_acknowledged (data : ℕ → UInt8) {st : Driver} (running : st.gi2c2.transDone = 0) :
    ∃ interrupt, Acknowledged data st interrupt := by
  refine ⟨⟨true, false, true, false, false, false, 0,
    (List.range' st.stores.length fifoDepth).map data, 0⟩,
    ⟨running, rfl, Nat.zero_le _, ?_, ?_, ?_⟩, rfl⟩
  · intro writes
    exact (fifoEmptyNum_bounds _).2
  · intro reads addressed waits
    rw [List.length_map, List.length_range']
    exact (burstNum_bounds _).2.trans (by decide)
  · rw [List.length_map, List.length_range']

/-- A step towards the end: it keeps an invariant, makes a measure smaller, and when all is
acknowledged and it is the last one, the goal is reached. -/
structure Advances {Item : Type*} (invariant : Driver → Prop) (measure : Driver → ℕ)
    (sofar : Driver → List Item) (goal : List Item) (ack : Bool) (st next : Driver) : Prop where
  kept : invariant next
  smaller : measure next < measure st
  whole : ack = true → next.gi2c2.transDone ≠ 0 → sofar next = goal

/-- A transfer whose steps go towards the end does exactly what it should, and some run of it
ends. -/
theorem exactly_of_advances {Item : Type*} {userBuf data : ℕ → UInt8} {start : Driver}
    {sofar : Driver → List Item} {goal : List Item} (invariant : Driver → Prop)
    (measure : Driver → ℕ) (initial : invariant start) (running : start.gi2c2.transDone = 0)
    (inside : ∀ {st}, invariant st → sofar st <+: goal)
    (advances : ∀ {st interrupt}, invariant st → Consistent data st interrupt →
      Advances invariant measure sofar goal interrupt.ack st (i2c2Isr userBuf interrupt st)) :
    Exactly userBuf data start sofar goal ∧
      ∃ interrupts, (machine userBuf).Always (Acknowledged data) start interrupts ∧
        ((machine userBuf).run start interrupts).gi2c2.transDone ≠ 0 := by
  have smaller {st : Driver} {interrupt : Interrupt} (kept : invariant st)
      (meets : Consistent data st interrupt) : invariant (i2c2Isr userBuf interrupt st) ∧
        measure (i2c2Isr userBuf interrupt st) < measure st :=
    ⟨(advances kept meets).kept, (advances kept meets).smaller⟩
  refine ⟨⟨?_, ?_, ?_⟩, ?_⟩
  · intro interrupts consistent
    exact inside ((machine userBuf).run_invariant (Consistent data) invariant initial
      (fun kept meets => (smaller kept meets).1) consistent)
  · refine ⟨measure start, fun interrupts consistent => ?_⟩
    exact (machine userBuf).length_le_measure (Consistent data) invariant measure smaller initial
      consistent
  · intro interrupts acknowledged
    have final := (machine userBuf).run_invariant (Acknowledged data)
      (fun st => invariant st ∧ (st.gi2c2.transDone ≠ 0 → sofar st = goal))
      ⟨initial, fun ended => absurd running ended⟩
      (fun kept meets => ⟨(smaller kept.1 meets.1).1, (advances kept.1 meets.1).whole meets.2⟩)
      acknowledged
    exact final.2
  · refine (machine userBuf).exists_run_of_measure (Acknowledged data) invariant measure
      (fun kept meets => smaller kept meets.1) (fun st => st.gi2c2.transDone ≠ 0) ?_ initial
    intro st kept goesOn
    exact exists_acknowledged data (not_not.mp goesOn)

variable {reached : ℕ} {addrFlag : UInt8} {rank : ℕ}

/-- A transfer that comes to one goal does exactly another one if and only if they are the same. -/
theorem exactly_iff {Item : Type*} {userBuf data : ℕ → UInt8} {start : Driver}
    {sofar : Driver → List Item} {goal : ℕ → List Item} (length_goal : ∀ n, (goal n).length = n)
    (reaches : Exactly userBuf data start sofar (goal reached) ∧
      ∃ interrupts, (machine userBuf).Always (Acknowledged data) start interrupts ∧
        ((machine userBuf).run start interrupts).gi2c2.transDone ≠ 0) (count : ℕ) :
    Exactly userBuf data start sofar (goal count) ↔ reached = count := by
  obtain ⟨does, interrupts, acknowledged, ended⟩ := reaches
  constructor
  · intro exact
    have same := (does.whole interrupts acknowledged ended).symm.trans
      (exact.whole interrupts acknowledged ended)
    rw [← length_goal reached, same, length_goal]
  · rintro rfl
    exact does

/-! ### Addresses -/

@[simp]
theorem dataOf_append (front back : List Sent) :
    dataOf (front ++ back) = dataOf front ++ dataOf back :=
  List.filterMap_append ..

/-- The data of a transfer and its mode stay as they are. -/
structure Frame (st next : Driver) : Prop where
  wkMode : next.gi2c2.wkMode = st.gi2c2.wkMode
  allDataNum : next.gi2c2.allDataNum = st.gi2c2.allDataNum
  currentNum : next.gi2c2.currentNum = st.gi2c2.currentNum
  intMode : next.status.intMode = st.status.intMode
  stores : next.stores = st.stores
  sent : dataOf (next.wire ++ next.txFifo) = dataOf (st.wire ++ st.txFifo)

namespace Frame

variable (st : Driver)

theorem trans {st middle next : Driver} (first : Frame st middle) (second : Frame middle next) :
    Frame st next where
  wkMode := second.wkMode.trans first.wkMode
  allDataNum := second.allDataNum.trans first.allDataNum
  currentNum := second.currentNum.trans first.currentNum
  intMode := second.intMode.trans first.intMode
  stores := second.stores.trans first.stores
  sent := second.sent.trans first.sent

theorem arrive (interrupt : Interrupt) : Frame st (st.arrive interrupt) where
  wkMode := rfl
  allDataNum := rfl
  currentNum := rfl
  intMode := rfl
  stores := rfl
  sent := by
    rw [Driver.arrive, List.append_assoc, List.take_append_drop]

theorem setAddrFlag (addrFlag : UInt8) : Frame st (st.setAddrFlag addrFlag) :=
  ⟨rfl, rfl, rfl, rfl, rfl, rfl⟩

theorem setSta (sta : Bool) : Frame st (st.setSta sta) := ⟨rfl, rfl, rfl, rfl, rfl, rfl⟩

theorem setAck (ack : Bool) : Frame st (st.setAck ack) := ⟨rfl, rfl, rfl, rfl, rfl, rfl⟩

theorem stopped : Frame st st.sendStop.transDone := ⟨rfl, rfl, rfl, rfl, rfl, rfl⟩

theorem put (byte : UInt8) : Frame st (st.put (.address byte)) := by
  rw [Driver.put]
  split
  · refine ⟨rfl, rfl, rfl, rfl, rfl, ?_⟩
    simp only [dataOf_append]
    exact congrArg _ (List.append_nil _)
  · exact ⟨rfl, rfl, rfl, rfl, rfl, rfl⟩

end Frame

/-- How many interrupts it may take until the first data. -/
def addressRank (addrFlag : UInt8) (sta : Bool) : ℕ :=
  if addrFlag = 0x01 then 4 else if addrFlag = 0x02 then 3 else if addrFlag = 0x0A then 2
  else if sta then 1 else 0

theorem addressRank_false_le (addrFlag : UInt8) (sta : Bool) :
    addressRank addrFlag false ≤ addressRank addrFlag sta := by
  cases sta with
  | false => exact Nat.le_refl _
  | true =>
      simp only [addressRank, Bool.false_eq_true, if_true, if_false]
      split_ifs <;> omega

theorem addressRank_lt (addressed : addrFlag &&& 0x10 ≠ 0) :
    addressRank addrFlag false < addressRank addrFlag true := by
  simp only [addressRank, Bool.false_eq_true, if_true, if_false]
  split_ifs with first low inner
  · exact absurd (first ▸ addressed) (by decide)
  · exact absurd (low ▸ addressed) (by decide)
  · exact absurd (inner ▸ addressed) (by decide)
  · exact Nat.zero_lt_one

/-- The address bytes of a transfer, by the flags. -/
inductive AddrPhase (wkMode : WkMode) : UInt8 → Prop
  | first : AddrPhase wkMode 0x01
  | low (al : wkMode.al = true) : AddrPhase wkMode 0x02
  | inner (ia : wkMode.ia = true) (rw : wkMode.rw = true) : AddrPhase wkMode 0x0A
  | addressed : AddrPhase wkMode 0x13
  | innerAddressed : AddrPhase wkMode 0x1B

/-- A step that puts an address byte. -/
structure Addresses (st next : Driver) (rank : ℕ) : Prop where
  frame : Frame st next
  running : next.gi2c2.transDone = st.gi2c2.transDone
  phase : AddrPhase st.gi2c2.wkMode next.gi2c2.addrFlag
  rank : addressRank next.gi2c2.addrFlag next.status.sta < rank

theorem put_gi2c2 (st : Driver) (byte : Sent) : (st.put byte).gi2c2 = st.gi2c2 := by
  rw [Driver.put]
  split <;> rfl

theorem put_status (st : Driver) (byte : Sent) : (st.put byte).status = st.status := by
  rw [Driver.put]
  split <;> rfl

theorem addresses_put {st : Driver} {byte addrFlag : UInt8} {rank : ℕ}
    (phase : AddrPhase st.gi2c2.wkMode addrFlag)
    (smaller : addressRank addrFlag st.status.sta < rank) :
    Addresses st ((st.put (.address byte)).setAddrFlag addrFlag) rank where
  frame := (Frame.put st byte).trans (Frame.setAddrFlag _ addrFlag)
  running := by
    show (st.put (.address byte)).gi2c2.transDone = _
    rw [put_gi2c2]
  phase := phase
  rank := by
    show addressRank addrFlag (st.put (.address byte)).status.sta < rank
    rw [put_status]
    exact smaller

theorem addresses_flag {st : Driver} (phase : AddrPhase st.gi2c2.wkMode addrFlag)
    (smaller : addressRank addrFlag st.status.sta < rank) :
    Addresses st (st.setAddrFlag addrFlag) rank :=
  ⟨Frame.setAddrFlag st addrFlag, rfl, phase, smaller⟩

theorem addresses_restart {st : Driver} {byte : UInt8} (phase : AddrPhase st.gi2c2.wkMode addrFlag)
    (smaller : addressRank addrFlag true < rank) :
    Addresses st (((st.setSta true).put (.address byte)).setAddrFlag addrFlag) rank := by
  obtain ⟨frame, running, phase, rank⟩ :=
    @addresses_put (st.setSta true) byte addrFlag rank phase smaller
  exact ⟨(Frame.setSta st true).trans frame, running, phase, rank⟩

section
variable {st : Driver} {interrupt : Interrupt} {sta : Bool}

theorem masterRead_addresses (reads : st.gi2c2.wkMode.rw = true) (cleared : st.status.sta = false)
    (passes : ¬(sta ∧ st.gi2c2.ackCheck ≠ 0 ∧ st.status.ack = false))
    (phase : AddrPhase st.gi2c2.wkMode st.gi2c2.addrFlag)
    (unaddressed : st.gi2c2.addrFlag &&& 0x10 = 0) :
    Addresses st (masterRead interrupt sta st) (addressRank st.gi2c2.addrFlag false) := by
  generalize flag_eq : st.gi2c2.addrFlag = addrFlag at phase unaddressed
  rw [masterRead, if_neg passes]
  cases phase with
  | first =>
      cases al : st.gi2c2.wkMode.al with
      | true =>
          simp +decide only [flag_eq, if_true, if_false, ite_self]
          refine addresses_put (.low al) ?_
          rw [cleared]
          decide
      | false =>
          cases ia : st.gi2c2.wkMode.ia with
          | true =>
              simp +decide only [flag_eq, if_true, if_false]
              refine addresses_put (.inner ia reads) ?_
              rw [cleared]
              decide
          | false =>
              simp +decide only [flag_eq, if_true, if_false]
              refine addresses_flag .addressed ?_
              rw [cleared]
              decide
  | low al =>
      cases ia : st.gi2c2.wkMode.ia with
      | true =>
          simp +decide only [flag_eq, al, if_true, if_false]
          refine addresses_put (.inner ia reads) ?_
          rw [cleared]
          decide
      | false =>
          simp +decide only [flag_eq, al, if_true, if_false]
          refine addresses_restart .addressed ?_
          decide
  | inner ia =>
      cases al : st.gi2c2.wkMode.al with
      | true | false =>
          simp +decide only [flag_eq, ia, if_true, if_false]
          refine addresses_restart .innerAddressed ?_
          decide
  | addressed | innerAddressed => exact absurd unaddressed (by decide)

theorem masterWrite_addresses {userBuf : ℕ → UInt8} (writes : st.gi2c2.wkMode.rw = false)
    (cleared : st.status.sta = false)
    (passes : ¬(st.gi2c2.ackCheck ≠ 0 ∧ st.status.ack = false))
    (phase : AddrPhase st.gi2c2.wkMode st.gi2c2.addrFlag)
    (unaddressed : st.gi2c2.addrFlag &&& 0x10 = 0) :
    Addresses st (masterWrite userBuf st) (addressRank st.gi2c2.addrFlag false) := by
  generalize flag_eq : st.gi2c2.addrFlag = addrFlag at phase unaddressed
  rw [masterWrite, if_neg passes]
  cases phase with
  | first =>
      cases al : st.gi2c2.wkMode.al with
      | true =>
          cases ia : st.gi2c2.wkMode.ia with
          | true =>
              simp +decide only [flag_eq, if_true, if_false]
              refine addresses_put (.low al) ?_
              rw [cleared]
              decide
          | false =>
              simp +decide only [flag_eq, if_true, if_false]
              refine addresses_put .addressed ?_
              rw [cleared]
              decide
      | false =>
          cases ia : st.gi2c2.wkMode.ia with
          | true =>
              simp +decide only [flag_eq, if_true, if_false]
              refine addresses_put .addressed ?_
              rw [cleared]
              decide
          | false =>
              simp +decide only [flag_eq, if_true, if_false]
              refine addresses_flag .addressed ?_
              rw [cleared]
              decide
  | low al =>
      cases ia : st.gi2c2.wkMode.ia with
      | true =>
          simp +decide only [flag_eq, al, if_true, if_false]
          refine addresses_put .innerAddressed ?_
          rw [cleared]
          decide
      | false =>
          simp +decide only [flag_eq, al, if_true, if_false]
          refine addresses_flag .addressed ?_
          rw [cleared]
          decide
  | inner ia reads => exact absurd (writes.symm.trans reads) (by decide)
  | addressed | innerAddressed => exact absurd unaddressed (by decide)

end

/-! ### Data -/

theorem received_add (data : ℕ → UInt8) (front back : ℕ) :
    received data (front + back) =
      received data front ++ (List.range' front back).map fun place => (data place, place) := by
  rw [received, List.range_eq_range', ← List.range'_append_1, List.map_append, Nat.zero_add,
    ← List.range_eq_range', received]

theorem sent_add (userBuf : ℕ → UInt8) (front back : ℕ) :
    sent userBuf (front + back) = sent userBuf front ++ (List.range' front back).map userBuf := by
  rw [sent, List.range_eq_range', ← List.range'_append_1, List.map_append, Nat.zero_add,
    ← List.range_eq_range', sent]

theorem length_received (data : ℕ → UInt8) (count : ℕ) : (received data count).length = count := by
  rw [received, List.length_map, List.length_range]

theorem length_sent (userBuf : ℕ → UInt8) (count : ℕ) : (sent userBuf count).length = count := by
  rw [sent, List.length_map, List.length_range]

theorem add_ofNat_succ (number : UInt32) (count : ℕ) :
    number + 1 + UInt32.ofNat count = number + UInt32.ofNat (count + 1) := by
  rw [UInt32.ofNat_add, UInt32.add_assoc, UInt32.add_comm 1]
  rfl

section

variable {st : Driver} (count : ℕ) (small : st.gi2c2.currentNum.toNat + count < 2 ^ 32)
include count small

theorem storeData_eq {data : ℕ → UInt8} {stale : UInt8} {rxFifo : List UInt8}
    (stream : rxFifo.take count = (List.range' st.gi2c2.currentNum.toNat count).map data) :
    st.storeData stale rxFifo count =
      { st with
        gi2c2 := { st.gi2c2 with currentNum := st.gi2c2.currentNum + UInt32.ofNat count }
        stores := st.stores ++
          (List.range' st.gi2c2.currentNum.toNat count).map fun place => (data place, place) } := by
  induction count generalizing rxFifo st with
  | zero => simp [Driver.storeData]
  | succ count induction =>
      rw [List.range'_succ, List.map_cons] at stream
      rcases rxFifo with _ | ⟨byte, rxFifo⟩
      · exact nomatch stream
      · obtain ⟨byte_eq, rest⟩ := List.cons_eq_cons.mp stream
        have next_eq : (st.gi2c2.currentNum + 1).toNat = st.gi2c2.currentNum.toNat + 1 :=
          toNat_add_of_lt (show st.gi2c2.currentNum.toNat + 1 < 2 ^ 32 by omega)
        rw [Driver.storeData, induction]
        · simp [byte_eq, next_eq, add_ofNat_succ, List.range'_succ]
        · show (st.gi2c2.currentNum + 1).toNat + count < 2 ^ 32
          omega
        · show rxFifo.take count = (List.range' (st.gi2c2.currentNum + 1).toNat count).map data
          rw [next_eq]
          exact rest

theorem sendData_eq {userBuf : ℕ → UInt8} (room : st.txFifo.length + count ≤ fifoDepth) :
    st.sendData userBuf count =
      { st with
        gi2c2 := { st.gi2c2 with currentNum := st.gi2c2.currentNum + UInt32.ofNat count }
        txFifo := st.txFifo ++
          (List.range' st.gi2c2.currentNum.toNat count).map
            fun place => .data (userBuf place) } := by
  induction count generalizing st with
  | zero => simp [Driver.sendData]
  | succ count induction =>
      have next_eq : (st.gi2c2.currentNum + 1).toNat = st.gi2c2.currentNum.toNat + 1 :=
        toNat_add_of_lt (show st.gi2c2.currentNum.toNat + 1 < 2 ^ 32 by omega)
      have fits : st.txFifo.length < fifoDepth := by omega
      simp only [Driver.sendData, Driver.put, if_pos fits]
      rw [induction]
      · simp [next_eq, add_ofNat_succ, List.range'_succ]
      · show (st.gi2c2.currentNum + 1).toNat + count < 2 ^ 32
        omega
      · show (st.txFifo ++ [_]).length + count ≤ fifoDepth
        rw [List.length_append, List.length_singleton]
        omega

end

theorem toNat_remainDataCnt {st : Driver} (inside : st.gi2c2.currentNum.toNat ≤ reached)
    (same : reached % 256 = st.gi2c2.allDataNum.toNat % 256) :
    st.remainDataCnt.toNat = (reached - st.gi2c2.currentNum.toNat) % 256 := by
  have bound := UInt32.toNat_lt st.gi2c2.currentNum
  rw [Driver.remainDataCnt, UInt32.toNat_toUInt8, UInt32.toNat_sub]
  omega

theorem toNat_add_ofNat {number : UInt32} {count : ℕ} (small : number.toNat + count < 2 ^ 32) :
    (number + UInt32.ofNat count).toNat = number.toNat + count := by
  have count_eq : (UInt32.ofNat count).toNat = count :=
    UInt32.toNat_ofNat_of_lt' (Nat.lt_of_le_of_lt (Nat.le_add_left _ _) small)
  rw [toNat_add_of_lt (by rw [count_eq]; exact small), count_eq]

/-! ### Reading -/

/-- A read that is to end with a number of bytes. -/
structure Reading (data : ℕ → UInt8) (count : UInt32) (reached : ℕ) (st : Driver) : Prop where
  ms : st.gi2c2.wkMode.ms = false
  rw : st.gi2c2.wkMode.rw = true
  allDataNum : st.gi2c2.allDataNum = count
  stores : st.stores = received data st.gi2c2.currentNum.toNat
  inside : st.gi2c2.currentNum.toNat ≤ reached
  phase : AddrPhase st.gi2c2.wkMode st.gi2c2.addrFlag
  burst : st.gi2c2.transDone = 0 →
    st.gi2c2.currentNum.toNat + (burstNum st.status.intMode).toNat ≤ reached ∧
      reached ≤ st.gi2c2.currentNum.toNat + (burstNum st.status.intMode).toNat + 255

/-- How many interrupts may still come. -/
def interruptsLeft (reached : ℕ) (st : Driver) : ℕ :=
  if st.gi2c2.transDone = 0 then
    reached - st.gi2c2.currentNum.toNat + addressRank st.gi2c2.addrFlag st.status.sta + 1
  else 0

section
variable {data : ℕ → UInt8} {count : UInt32} {reached : ℕ} {st next : Driver}

theorem Reading.onStores (reading : Reading data count reached st) :
    st.stores <+: received data reached := by
  obtain ⟨rest, reached_eq⟩ := Nat.exists_eq_add_of_le reading.inside
  rw [reading.stores, reached_eq, received_add]
  exact List.prefix_append _ _

theorem Reading.of_frame (reading : Reading data count reached st) (frame : Frame st next)
    (running : st.gi2c2.transDone = 0) (phase : AddrPhase st.gi2c2.wkMode next.gi2c2.addrFlag) :
    Reading data count reached next where
  ms := by rw [frame.wkMode, reading.ms]
  rw := by rw [frame.wkMode, reading.rw]
  allDataNum := frame.allDataNum.trans reading.allDataNum
  stores := by rw [frame.stores, frame.currentNum, reading.stores]
  inside := by
    rw [frame.currentNum]
    exact reading.inside
  phase := by
    rw [frame.wkMode]
    exact phase
  burst := by
    intro _
    rw [frame.currentNum, frame.intMode]
    exact reading.burst running

section

variable (running : st.gi2c2.transDone = 0)
include running

theorem interruptsLeft_lt_of_done (done : next.gi2c2.transDone ≠ 0) :
    interruptsLeft reached next < interruptsLeft reached st := by
  rw [interruptsLeft, if_neg done, interruptsLeft, if_pos running]
  exact Nat.zero_lt_succ _

theorem interruptsLeft_lt_of_rank (same : next.gi2c2.currentNum = st.gi2c2.currentNum)
    (rank : addressRank next.gi2c2.addrFlag next.status.sta <
      addressRank st.gi2c2.addrFlag st.status.sta) :
    interruptsLeft reached next < interruptsLeft reached st := by
  rw [interruptsLeft, interruptsLeft, if_pos running, same]
  split <;> omega

theorem interruptsLeft_lt_of_data (more : st.gi2c2.currentNum.toNat < next.gi2c2.currentNum.toNat)
    (inside : next.gi2c2.currentNum.toNat ≤ reached)
    (rank : addressRank next.gi2c2.addrFlag next.status.sta ≤
      addressRank st.gi2c2.addrFlag st.status.sta) :
    interruptsLeft reached next < interruptsLeft reached st := by
  rw [interruptsLeft, interruptsLeft, if_pos running]
  split <;> omega

end

variable {invariant : Driver → Prop} {ack : Bool} {interrupt : Interrupt}

theorem advances_of_running {Item : Type*} {sofar : Driver → List Item} {goal : List Item}
    (continues : next.gi2c2.transDone = 0) (kept : invariant next)
    (smaller : interruptsLeft reached next < interruptsLeft reached st) :
    Advances invariant (interruptsLeft reached) sofar goal ack st next :=
  ⟨kept, smaller, fun _ done => absurd continues done⟩

theorem advances_of_stop {Item : Type*} {sofar : Driver → List Item} {goal : List Item}
    (running : st.gi2c2.transDone = 0) (kept : invariant next.sendStop.transDone)
    (whole : ack = true → sofar next.sendStop.transDone = goal) :
    Advances invariant (interruptsLeft reached) sofar goal ack st next.sendStop.transDone :=
  ⟨kept, interruptsLeft_lt_of_done running (show (1 : UInt8) ≠ 0 by decide),
    fun acknowledged _ => whole acknowledged⟩

theorem i2c2Isr_of_master {userBuf : ℕ → UInt8} (si : interrupt.si = true)
    (ms : st.gi2c2.wkMode.ms = false) :
    i2c2Isr userBuf interrupt st =
      if st.gi2c2.wkMode.rw then
        masterRead interrupt st.status.sta ((st.arrive interrupt).setSta false)
      else masterWrite userBuf ((st.arrive interrupt).setSta false) := by
  have arrived_ms : (st.arrive interrupt).gi2c2.wkMode.ms = false := ms
  have arrived_rw : (st.arrive interrupt).gi2c2.wkMode.rw = st.gi2c2.wkMode.rw := rfl
  simp only [i2c2Isr, si, arrived_ms, arrived_rw]
  cases st.gi2c2.wkMode.rw <;> rfl

/-- A burst that has come is stored. -/
structure Stored (reached : ℕ) (st next : Driver) : Prop where
  currentNum : next.gi2c2.currentNum.toNat =
    st.gi2c2.currentNum.toNat + (burstNum st.status.intMode).toNat
  addrFlag : next.gi2c2.addrFlag = st.gi2c2.addrFlag
  sta : next.status.sta = st.status.sta
  done : next.gi2c2.transDone ≠ 0 → next.gi2c2.currentNum.toNat = reached

theorem Reading.stored (reading : Reading data count reached st) (running : st.gi2c2.transDone = 0)
    (cleared : st.status.sta = false)
    (come : (burstNum st.status.intMode).toNat ≤ interrupt.rxFifo.length)
    (stream : interrupt.rxFifo =
      (List.range' st.stores.length interrupt.rxFifo.length).map data)
    (same : reached % 256 = count.toNat % 256) (small : reached < 2 ^ 32) :
    Reading data count reached (storeBurst interrupt st) ∧
      Stored reached st (storeBurst interrupt st) := by
  obtain ⟨fits, ends⟩ := reading.burst running
  obtain ⟨positive, short⟩ := burstNum_bounds st.status.intMode
  have remain : (st.remainDataCnt - burstNum st.status.intMode).toNat =
      reached - (st.gi2c2.currentNum.toNat + (burstNum st.status.intMode).toNat) := by
    rw [UInt8.toNat_sub, toNat_remainDataCnt reading.inside (reading.allDataNum ▸ same)]
    omega
  have burst : interrupt.rxFifo.take (burstNum st.status.intMode).toNat =
      (List.range' st.gi2c2.currentNum.toNat (burstNum st.status.intMode).toNat).map data := by
    rw [stream, ← List.map_take, List.take_range'_of_length_ge come, reading.stores,
      length_received]
  have number : (st.gi2c2.currentNum + UInt32.ofNat (burstNum st.status.intMode).toNat).toNat =
      st.gi2c2.currentNum.toNat + (burstNum st.status.intMode).toNat := toNat_add_ofNat (by omega)
  have outcome (next : Driver)
      (msg : next.gi2c2 =
        { st.gi2c2 with
          currentNum := st.gi2c2.currentNum + UInt32.ofNat (burstNum st.status.intMode).toNat
          transDone := next.gi2c2.transDone })
      (stores : next.stores = st.stores ++
        (List.range' st.gi2c2.currentNum.toNat (burstNum st.status.intMode).toNat).map
          fun place => (data place, place))
      (sta : next.status.sta = false)
      (goesOn : next.gi2c2.transDone = 0 →
        st.gi2c2.currentNum.toNat + (burstNum st.status.intMode).toNat +
          (burstNum next.status.intMode).toNat ≤ reached)
      (done : next.gi2c2.transDone ≠ 0 →
        st.gi2c2.currentNum.toNat + (burstNum st.status.intMode).toNat = reached) :
      Reading data count reached next ∧ Stored reached st next := by
    have currentNum : next.gi2c2.currentNum.toNat =
        st.gi2c2.currentNum.toNat + (burstNum st.status.intMode).toNat := by
      rw [msg]
      exact number
    refine ⟨⟨?_, ?_, ?_, ?_, ?_, ?_, ?_⟩, currentNum, ?_, sta.trans cleared.symm, ?_⟩
    · rw [msg]
      exact reading.ms
    · rw [msg]
      exact reading.rw
    · rw [msg]
      exact reading.allDataNum
    · rw [currentNum, stores, received_add, reading.stores]
    · rw [currentNum]
      exact fits
    · rw [msg]
      exact reading.phase
    · intro running
      rw [currentNum]
      exact ⟨goesOn running, by omega⟩
    · rw [msg]
    · intro ended
      rw [currentNum, done ended]
  rw [storeBurst, storeData_eq _ (by omega) burst]
  split
  · rename_i none_left
    rw [none_left] at remain
    refine outcome _ rfl rfl rfl ?_ fun _ => ?_
    · intro zero
      exact absurd (show (1 : UInt8) = 0 from zero) (by decide)
    rw [UInt8.toNat_zero] at remain
    omega
  split
  · rename_i some_left less
    refine outcome _ rfl rfl cleared (fun _ => ?_) fun done => absurd running done
    have one : (burstNum 3).toNat = 1 := rfl
    have positive : 0 < (st.remainDataCnt - burstNum st.status.intMode).toNat :=
      Nat.pos_of_ne_zero fun zero => some_left (UInt8.toNat_inj.mp zero)
    show _ + (burstNum 3).toNat ≤ reached
    omega
  · rename_i some_left less
    refine outcome _ rfl rfl cleared (fun _ => ?_) fun done => absurd running done
    rw [UInt8.not_lt, UInt8.le_iff_toNat_le] at less
    show _ + (burstNum st.status.intMode).toNat ≤ reached
    omega

/-- Every interrupt of a read brings it closer to its end. -/
theorem Reading.advances {userBuf : ℕ → UInt8} (same : reached % 256 = count.toNat % 256)
    (small : reached < 2 ^ 32) (reading : Reading data count reached st)
    (consistent : Consistent data st interrupt) :
    Advances (Reading data count reached) (interruptsLeft reached) Driver.stores
      (received data reached) interrupt.ack st (i2c2Isr userBuf interrupt st) := by
  have running : st.gi2c2.transDone = 0 := consistent.running
  have frame : Frame st ((st.arrive interrupt).setSta false) :=
    (Frame.arrive st interrupt).trans (Frame.setSta _ false)
  have arrived : Reading data count reached ((st.arrive interrupt).setSta false) :=
    reading.of_frame frame running reading.phase
  rw [i2c2Isr_of_master consistent.si reading.ms, if_pos reading.rw]
  by_cases nack : st.status.sta ∧ st.gi2c2.ackCheck ≠ 0 ∧ interrupt.ack = false
  · have stopped : masterRead interrupt st.status.sta ((st.arrive interrupt).setSta false) =
        ((st.arrive interrupt).setSta false).sendStop.transDone := if_pos nack
    rw [stopped]
    refine advances_of_stop running (arrived.of_frame (Frame.stopped _) running reading.phase) ?_
    intro ack
    exact absurd (ack.symm.trans nack.2.2) (by decide)
  by_cases unaddressed : st.gi2c2.addrFlag &&& 0x10 = 0
  · have addresses := @masterRead_addresses ((st.arrive interrupt).setSta false) interrupt
      st.status.sta arrived.rw rfl nack reading.phase unaddressed
    refine advances_of_running (addresses.running.trans running)
      (arrived.of_frame addresses.frame running addresses.phase)
      (interruptsLeft_lt_of_rank running addresses.frame.currentNum ?_)
    exact addresses.rank.trans_le (addressRank_false_le _ _)
  have data_phase : masterRead interrupt st.status.sta ((st.arrive interrupt).setSta false) =
      if st.status.sta then ((st.arrive interrupt).setSta false).setAck true
      else storeBurst interrupt ((st.arrive interrupt).setSta false) :=
    (if_neg nack).trans (if_pos unaddressed)
  rw [data_phase]
  split
  · rename_i sta
    refine advances_of_running running
      (arrived.of_frame (Frame.setAck _ true) running reading.phase)
      (interruptsLeft_lt_of_rank running rfl ?_)
    show addressRank st.gi2c2.addrFlag false < addressRank st.gi2c2.addrFlag st.status.sta
    rw [sta]
    exact addressRank_lt unaddressed
  · rename_i noSta
    have cleared : st.status.sta = false := Bool.eq_false_iff.mpr noSta
    obtain ⟨kept, stored⟩ := arrived.stored running rfl
      (consistent.come reading.rw unaddressed cleared) consistent.stream same small
    have more := (burstNum_bounds ((st.arrive interrupt).setSta false).status.intMode).1
    refine ⟨kept, interruptsLeft_lt_of_data running ?_ kept.inside ?_, fun _ done => ?_⟩
    · rw [stored.currentNum]
      exact Nat.lt_add_of_pos_right more
    · rw [stored.addrFlag, stored.sta]
      exact addressRank_false_le _ _
    · rw [kept.stores, stored.done done]

end

/-! ### Writing -/

/-- A write that is to end with a number of bytes.  When nothing remains the mode asks for an empty
FIFO. -/
structure Writing (userBuf : ℕ → UInt8) (count : UInt32) (reached : ℕ) (st : Driver) : Prop where
  ms : st.gi2c2.wkMode.ms = false
  rw : st.gi2c2.wkMode.rw = false
  allDataNum : st.gi2c2.allDataNum = count
  bytes : dataOf (st.wire ++ st.txFifo) = sent userBuf st.gi2c2.currentNum.toNat
  inside : st.gi2c2.currentNum.toNat ≤ reached
  phase : AddrPhase st.gi2c2.wkMode st.gi2c2.addrFlag
  empty : st.gi2c2.currentNum.toNat = reached →
    st.gi2c2.currentNum.toNat = 0 ∨ st.status.intMode = 0

theorem dataOf_map_data (userBuf : ℕ → UInt8) (places : List ℕ) :
    dataOf (places.map fun place => .data (userBuf place)) = places.map userBuf := by
  induction places with
  | nil => rfl
  | cons place places induction => exact congrArg (userBuf place :: ·) induction

section
variable {userBuf : ℕ → UInt8} {count : UInt32} {reached : ℕ} {st next : Driver}

section

variable (writing : Writing userBuf count reached st)
include writing

theorem Writing.onBus : dataOf st.wire <+: sent userBuf reached := by
  obtain ⟨rest, reached_eq⟩ := Nat.exists_eq_add_of_le writing.inside
  have sent_eq := writing.bytes
  rw [dataOf_append] at sent_eq
  refine (List.prefix_append _ (dataOf st.txFifo)).trans ?_
  rw [sent_eq, reached_eq, sent_add]
  exact List.prefix_append _ _

theorem Writing.of_frame (frame : Frame st next)
    (phase : AddrPhase st.gi2c2.wkMode next.gi2c2.addrFlag) :
    Writing userBuf count reached next where
  ms := by rw [frame.wkMode, writing.ms]
  rw := by rw [frame.wkMode, writing.rw]
  allDataNum := frame.allDataNum.trans writing.allDataNum
  bytes := by rw [frame.sent, frame.currentNum, writing.bytes]
  inside := by
    rw [frame.currentNum]
    exact writing.inside
  phase := by
    rw [frame.wkMode]
    exact phase
  empty := by
    rw [frame.currentNum, frame.intMode]
    exact writing.empty

theorem Writing.whole (room : (fifoEmptyNum st.status.intMode).toNat + st.txFifo.length ≤ fifoDepth)
    (none_left : st.gi2c2.currentNum.toNat = reached) : dataOf st.wire = sent userBuf reached := by
  have sent_eq := writing.bytes
  rw [none_left] at sent_eq
  rcases writing.empty none_left with zero | mode
  · rw [none_left] at zero
    subst zero
    rw [dataOf_append] at sent_eq
    exact (List.append_eq_nil_iff.mp sent_eq).1
  · have drained : st.txFifo = [] := by
      rw [mode] at room
      have room : 16 + st.txFifo.length ≤ 16 := room
      exact List.length_eq_zero_iff.mp (by omega)
    rw [drained, List.append_nil] at sent_eq
    exact sent_eq

end

/-- A burst that has room is sent. -/
structure BurstSent (st next : Driver) : Prop where
  more : st.gi2c2.currentNum.toNat < next.gi2c2.currentNum.toNat
  addrFlag : next.gi2c2.addrFlag = st.gi2c2.addrFlag
  sta : next.status.sta = false
  running : next.gi2c2.transDone = st.gi2c2.transDone

theorem Writing.burstSent (writing : Writing userBuf count reached st)
    (cleared : st.status.sta = false)
    (room : (fifoEmptyNum st.status.intMode).toNat + st.txFifo.length ≤ fifoDepth)
    (reached_eq : reached = count.toNat % 256) (some_left : st.remainDataCnt ≠ 0) :
    Writing userBuf count reached (sendBurst userBuf st) ∧
      BurstSent st (sendBurst userBuf st) := by
  have small : reached < 256 := reached_eq ▸ Nat.mod_lt _ (by decide)
  have inside := writing.inside
  have remain : st.remainDataCnt.toNat = reached - st.gi2c2.currentNum.toNat := by
    rw [toNat_remainDataCnt inside (by rw [reached_eq, Nat.mod_mod, writing.allDataNum])]
    exact Nat.mod_eq_of_lt (by omega)
  have positive : 0 < st.remainDataCnt.toNat :=
    Nat.pos_of_ne_zero fun zero => some_left (UInt8.toNat_inj.mp zero)
  obtain ⟨four, sixteen⟩ := fifoEmptyNum_bounds st.status.intMode
  rw [sendBurst, if_neg some_left]
  simp only
  generalize dataNum_eq : (if st.remainDataCnt < fifoEmptyNum st.status.intMode then
    st.remainDataCnt else fifoEmptyNum st.status.intMode) = dataNum
  obtain ⟨first, fits, free⟩ : 0 < dataNum.toNat ∧ dataNum.toNat ≤ st.remainDataCnt.toNat ∧
      dataNum.toNat ≤ (fifoEmptyNum st.status.intMode).toNat := by
    rw [← dataNum_eq]
    split
    · rename_i less
      exact ⟨positive, Nat.le_refl _, Nat.le_of_lt (UInt8.lt_iff_toNat_lt.mp less)⟩
    · rename_i more
      exact ⟨by omega, UInt8.le_iff_toNat_le.mp (UInt8.not_lt.mp more), Nat.le_refl _⟩
  have number : (st.gi2c2.currentNum + UInt32.ofNat dataNum.toNat).toNat =
      st.gi2c2.currentNum.toNat + dataNum.toNat := toNat_add_ofNat (by omega)
  have rest : (st.remainDataCnt - dataNum).toNat =
      reached - (st.gi2c2.currentNum.toNat + dataNum.toNat) := by
    rw [UInt8.toNat_sub_of_le _ _ (UInt8.le_iff_toNat_le.mpr fits), remain]
    omega
  rw [sendData_eq _ (by omega) (by omega)]
  have bytes : dataOf (st.wire ++ (st.txFifo ++
      (List.range' st.gi2c2.currentNum.toNat dataNum.toNat).map fun place =>
        .data (userBuf place))) =
      sent userBuf (st.gi2c2.currentNum + UInt32.ofNat dataNum.toNat).toNat := by
    rw [← List.append_assoc, dataOf_append, writing.bytes, dataOf_map_data, number, sent_add]
  have here : (st.gi2c2.currentNum + UInt32.ofNat dataNum.toNat).toNat ≤ reached := by
    rw [number]
    omega
  have more : st.gi2c2.currentNum.toNat <
      (st.gi2c2.currentNum + UInt32.ofNat dataNum.toNat).toNat := by
    rw [number]
    omega
  split
  · refine ⟨⟨writing.ms, writing.rw, writing.allDataNum, bytes, here, writing.phase, ?_⟩,
      more, rfl, rfl, rfl⟩
    exact fun _ => Or.inr rfl
  · rename_i enough
    refine ⟨⟨writing.ms, writing.rw, writing.allDataNum, bytes, here, writing.phase, ?_⟩,
      more, rfl, cleared, rfl⟩
    intro none_left
    have none_left : st.gi2c2.currentNum.toNat + dataNum.toNat = reached :=
      number.symm.trans none_left
    rw [UInt8.not_lt, UInt8.le_iff_toNat_le] at enough
    omega

theorem Writing.advances {data : ℕ → UInt8} {interrupt : Interrupt}
    (reached_eq : reached = count.toNat % 256) (writing : Writing userBuf count reached st)
    (consistent : Consistent data st interrupt) :
    Advances (Writing userBuf count reached) (interruptsLeft reached) (fun st => dataOf st.wire)
      (sent userBuf reached) interrupt.ack st (i2c2Isr userBuf interrupt st) := by
  have running : st.gi2c2.transDone = 0 := consistent.running
  have frame : Frame st ((st.arrive interrupt).setSta false) :=
    (Frame.arrive st interrupt).trans (Frame.setSta _ false)
  have arrived : Writing userBuf count reached ((st.arrive interrupt).setSta false) :=
    writing.of_frame frame writing.phase
  rw [i2c2Isr_of_master consistent.si writing.ms, if_neg (Bool.eq_false_iff.mp writing.rw)]
  by_cases nack : st.gi2c2.ackCheck ≠ 0 ∧ interrupt.ack = false
  · have stopped : masterWrite userBuf ((st.arrive interrupt).setSta false) =
        ((st.arrive interrupt).setSta false).sendStop.transDone := if_pos nack
    rw [stopped]
    refine advances_of_stop running (arrived.of_frame (Frame.stopped _) writing.phase) ?_
    intro ack
    exact absurd (ack.symm.trans nack.2) (by decide)
  by_cases unaddressed : st.gi2c2.addrFlag &&& 0x10 = 0
  · have addresses := @masterWrite_addresses ((st.arrive interrupt).setSta false) userBuf
      arrived.rw rfl nack writing.phase unaddressed
    refine advances_of_running (addresses.running.trans running)
      (arrived.of_frame addresses.frame addresses.phase)
      (interruptsLeft_lt_of_rank running addresses.frame.currentNum ?_)
    exact addresses.rank.trans_le (addressRank_false_le _ _)
  have data_phase : masterWrite userBuf ((st.arrive interrupt).setSta false) =
      sendBurst userBuf ((st.arrive interrupt).setSta false) :=
    (if_neg nack).trans (if_pos unaddressed)
  have room : (fifoEmptyNum st.status.intMode).toNat +
      ((st.arrive interrupt).setSta false).txFifo.length ≤ fifoDepth := by
    have left_eq : ((st.arrive interrupt).setSta false).txFifo.length = interrupt.left :=
      List.length_drop.trans (Nat.sub_sub_self consistent.left)
    rw [left_eq]
    exact consistent.free writing.rw
  rw [data_phase]
  by_cases some_left : ((st.arrive interrupt).setSta false).remainDataCnt = 0
  · have stopped : sendBurst userBuf ((st.arrive interrupt).setSta false) =
        ((st.arrive interrupt).setSta false).sendStop.transDone := if_pos some_left
    have none_left : st.gi2c2.currentNum.toNat = reached := by
      have remain := toNat_remainDataCnt arrived.inside
        (show reached % 256 = st.gi2c2.allDataNum.toNat % 256 by
          rw [reached_eq, Nat.mod_mod, writing.allDataNum])
      rw [some_left] at remain
      have remain : 0 = (reached - st.gi2c2.currentNum.toNat) % 256 := remain
      have inside := writing.inside
      omega
    rw [stopped]
    exact advances_of_stop running (arrived.of_frame (Frame.stopped _) writing.phase)
      fun _ => arrived.whole room none_left
  · obtain ⟨kept, burst⟩ := arrived.burstSent rfl room reached_eq some_left
    refine advances_of_running (burst.running.trans running) kept
      (interruptsLeft_lt_of_data running burst.more kept.inside ?_)
    rw [burst.addrFlag, burst.sta]
    exact addressRank_false_le _ _

end

/-! ### Whole transfers -/

theorem sendAddr_addresses {st : Driver} (none_yet : st.gi2c2.addrFlag = 0) :
    Frame st (i2c2SendAddr st) ∧ (i2c2SendAddr st).gi2c2.transDone = st.gi2c2.transDone ∧
      AddrPhase st.gi2c2.wkMode (i2c2SendAddr st).gi2c2.addrFlag := by
  have first (byte : UInt8) :
      Addresses st ((st.put (.address byte)).setAddrFlag (st.gi2c2.addrFlag + 1)) 5 := by
    rw [none_yet]
    refine addresses_put .first ?_
    cases st.status.sta <;> decide
  rw [i2c2SendAddr]
  split
  · simp only
    split
    · obtain ⟨frame, running, -, -⟩ := first _
      refine ⟨frame.trans (Frame.setAddrFlag _ _), running, ?_⟩
      show AddrPhase _ (st.gi2c2.addrFlag + 1 ||| 0x13)
      rw [none_yet]
      exact .addressed
    · exact ⟨(first _).frame, (first _).running, (first _).phase⟩
  · exact ⟨(first _).frame, (first _).running, (first _).phase⟩

theorem burstNum_or_readMode_le (intMode : BitVec 2) (count : UInt32) :
    (burstNum (intMode ||| readMode count)).toNat ≤ max count.toNat 1 := by
  have shrinks : ∀ before mode : BitVec 2,
      (burstNum (before ||| mode)).toNat ≤ (burstNum mode).toNat := by decide
  refine (shrinks intMode _).trans ?_
  rw [readMode]
  split_ifs with twelve eight four
  · exact (Nat.le_of_lt (UInt32.lt_iff_toNat_lt.mp twelve)).trans (Nat.le_max_left _ _)
  · exact (Nat.le_of_lt (UInt32.lt_iff_toNat_lt.mp eight)).trans (Nat.le_max_left _ _)
  · exact (Nat.le_of_lt (UInt32.lt_iff_toNat_lt.mp four)).trans (Nat.le_max_left _ _)
  · exact Nat.le_max_right _ _

/-- What a call begins with. -/
structure Started (rw : Bool) (request : Request) (mode : BitVec 2) (start : Driver) : Prop where
  ms : start.gi2c2.wkMode.ms = false
  rw : start.gi2c2.wkMode.rw = rw
  allDataNum : start.gi2c2.allDataNum = request.count
  currentNum : start.gi2c2.currentNum = 0
  stores : start.stores = []
  bytes : dataOf (start.wire ++ start.txFifo) = []
  phase : AddrPhase start.gi2c2.wkMode start.gi2c2.addrFlag
  running : start.gi2c2.transDone = 0
  intMode : start.status.intMode = mode

section
variable {request : Request} {st : Driver} (master : st.gi2c2.wkMode.ms = false)
  (userBuf data : ℕ → UInt8)
include master

theorem started (rw : Bool) :
    Started rw request
      (st.status.intMode ||| if rw then readMode request.count else writeMode request.count)
      (startTransfer rw request st) := by
  rw [startTransfer]
  generalize before_eq : ({ st with
      gi2c2 :=
        { wkMode := { st.gi2c2.wkMode with rw := rw }
          innerAddr := request.opAddr.toUInt8
          sendAddr := request.salveId
          currentNum := 0
          allDataNum := request.count
          addrFlag := 0
          transDone := 0
          ackCheck := 1 }
      txFifo := []
      wire := []
      stores := [] } : Driver) = before
  have ms : before.gi2c2.wkMode.ms = false := by
    rw [← before_eq]
    exact master
  obtain ⟨rw_eq, allDataNum, currentNum, none_yet, running, intMode, stores, bytes⟩ :
      before.gi2c2.wkMode.rw = rw ∧ before.gi2c2.allDataNum = request.count ∧
        before.gi2c2.currentNum = 0 ∧ before.gi2c2.addrFlag = 0 ∧ before.gi2c2.transDone = 0 ∧
          before.status.intMode = st.status.intMode ∧ before.stores = [] ∧
            dataOf (before.wire ++ before.txFifo) = [] := by
    rw [← before_eq]
    exact ⟨rfl, rfl, rfl, rfl, rfl, rfl, rfl, rfl⟩
  obtain ⟨frame, same_done, phase⟩ := sendAddr_addresses none_yet
  have start_eq : i2c2SendStart before =
      ((i2c2SendAddr before).setIntMode ((i2c2SendAddr before).status.intMode |||
        if before.gi2c2.wkMode.rw then readMode before.gi2c2.allDataNum
        else writeMode before.gi2c2.allDataNum)).setSta true :=
    if_neg (Bool.eq_false_iff.mp ms)
  rw [start_eq, frame.intMode, rw_eq, allDataNum, intMode]
  refine ⟨?_, ?_, frame.allDataNum.trans allDataNum, frame.currentNum.trans currentNum,
    frame.stores.trans stores, frame.sent.trans bytes, ?_, same_done.trans running, rfl⟩
  · exact (congrArg WkMode.ms frame.wkMode).trans ms
  · exact (congrArg WkMode.rw frame.wkMode).trans rw_eq
  · show AddrPhase (i2c2SendAddr before).gi2c2.wkMode _
    rw [frame.wkMode]
    exact phase

/-- A read ends with the first number of bytes from a burst on whose low byte is that of the
count. -/
theorem readsExactly_iff :
    ReadsExactly userBuf data request st ↔
      0 < request.count.toNat ∧ request.count.toNat ≤
        255 + (burstNum (st.status.intMode ||| readMode request.count)).toNat := by
  have start : Started true request (st.status.intMode ||| readMode request.count)
      (i2c2Read request st) := started master true
  have bounds := burstNum_bounds (st.status.intMode ||| readMode request.count)
  have burst_le := burstNum_or_readMode_le st.status.intMode request.count
  generalize burst_eq : (burstNum (st.status.intMode ||| readMode request.count)).toNat = burst
    at bounds burst_le ⊢
  have initial : Reading data request.count (burst + (request.count.toNat + 256 - burst) % 256)
      (i2c2Read request st) := by
    have zero : (i2c2Read request st).gi2c2.currentNum.toNat = 0 :=
      congrArg UInt32.toNat start.currentNum
    refine ⟨start.ms, start.rw, start.allDataNum, ?_, ?_, start.phase, fun _ => ?_⟩
    · rw [zero]
      exact start.stores
    · rw [zero]
      exact Nat.zero_le _
    · rw [zero, start.intMode, burst_eq]
      omega
  have reaches := @exactly_of_advances _ userBuf data _ _ _ _ _ initial start.running
    Reading.onStores (Reading.advances (by omega) (by omega))
  rw [ReadsExactly, exactly_iff (length_received data) reaches]
  omega

theorem writesExactly_iff :
    WritesExactly userBuf data request st ↔ request.count.toNat ≤ 255 := by
  have start : Started false request (st.status.intMode ||| writeMode request.count)
      (i2c2Write request st) := started master false
  have initial : Writing userBuf request.count (request.count.toNat % 256)
      (i2c2Write request st) := by
    have zero : (i2c2Write request st).gi2c2.currentNum.toNat = 0 :=
      congrArg UInt32.toNat start.currentNum
    refine ⟨start.ms, start.rw, start.allDataNum, ?_, ?_, start.phase, fun _ => Or.inl zero⟩
    · rw [zero]
      exact start.bytes
    · rw [zero]
      exact Nat.zero_le _
  have reaches := @exactly_of_advances _ userBuf data _ _ _ _ _ initial start.running
    Writing.onBus (Writing.advances rfl)
  rw [WritesExactly, exactly_iff (length_sent userBuf) reaches]
  omega

/-- Whatever the bits of the interrupt mode were, a read stores exactly its bytes if and only if
there are some, and no more than one byte can count after the first burst; a write sends exactly its
bytes if and only if one byte can count them. -/
theorem fifo_transfers_exact_iff :
    (ReadsExactly userBuf data request st ↔
      0 < request.count.toNat ∧ request.count.toNat ≤
        255 + (burstNum (st.status.intMode ||| readMode request.count)).toNat) ∧
      (WritesExactly userBuf data request st ↔ request.count.toNat ≤ 255) :=
  ⟨readsExactly_iff master userBuf data, writesExactly_iff master userBuf data⟩

end

/-- A master that no transfer has used. -/
def idleMaster : Driver where
  gi2c2 := ⟨⟨false, false, false, false, 0⟩, 0, 0, 0, 0, 0, 0, 0⟩
  status := ⟨0, false, false, false⟩
  ensmb := true
  txFifo := []
  wire := []
  stores := []

theorem five_bytes_exact :
    ReadsExactly (fun _ => 0) (fun _ => 0) ⟨0, 0x50, 5⟩ idleMaster ∧
      WritesExactly (fun _ => 0) (fun _ => 0) ⟨0, 0x50, 5⟩ idleMaster :=
  have exact_iff := @fifo_transfers_exact_iff ⟨0, 0x50, 5⟩ idleMaster rfl (fun _ => 0) fun _ => 0
  ⟨exact_iff.1.mpr (by decide), exact_iff.2.mpr (by decide)⟩

/-- A read of no bytes stores some, and a write of 256 sends none. -/
theorem byte_count_not_exact :
    ¬ReadsExactly (fun _ => 0) (fun _ => 0) ⟨0, 0x50, 0⟩ idleMaster ∧
      ¬WritesExactly (fun _ => 0) (fun _ => 0) ⟨0, 0x50, 256⟩ idleMaster := by
  constructor
  · rw [@readsExactly_iff ⟨0, 0x50, 0⟩ idleMaster rfl]
    decide
  · rw [@writesExactly_iff ⟨0, 0x50, 256⟩ idleMaster rfl]
    decide

end BdkFreertos.I2c2
