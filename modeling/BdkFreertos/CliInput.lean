import BdkFreertos.CString
import BdkFreertos.Machine
import BdkFreertos.Memory

/-!
# The input line of the CLI

`get_input` gathers a line byte by byte in `inbuf`.  Its index goes on by letters, back by
backspaces, to the end of a name by tab completion, and through the packets of the register
commands.
-/

namespace BdkFreertos.CliInput

/-! ### The line -/

/-- `INBUF_SIZE`. -/
def inbufSize : ℕ := 128

/-- `MAX_COMMANDS`. -/
def maxCommands : ℕ := 128

/-- `RET_CHAR`. -/
def retChar : UInt8 := 0x0a

/-- `END_CHAR`. -/
def endChar : UInt8 := 0x0d

/-- The byte `\t`. -/
def tabChar : UInt8 := 0x09

/-- A packet of a register command that is being received. -/
structure Packet where
  left : ℕ
  len : ℕ

/-- The variables of `get_input` between two calls of `cli_getchar`. -/
structure CliSt where
  inbuf : Memory UInt8
  bp : ℕ
  /-- The packet whose bytes the inner loop waits for. -/
  packet : Option Packet
  /-- The places that have been written in `inbuf`, with their numbers of bytes. -/
  writes : List (ℕ × ℕ)

/-- What `cli_getchar` gives, with what is the case then. -/
structure Arrival where
  answer : Option UInt8
  commands : List CString
  /-- What is left of a line when it has been handled. -/
  handled : Memory UInt8

namespace CliSt

def write (st : CliSt) (place : ℕ) (bytes : List UInt8) : CliSt :=
  { st with
    inbuf := st.inbuf.store place bytes
    writes := st.writes ++ [(place, bytes.length)] }

/-- The names that begin with the line. -/
def matching (st : CliSt) (commands : List CString) : List CString :=
  (commands.take maxCommands).filter fun name =>
    (CString.startingAt (st.inbuf.load 0 st.bp) 0).strncmp name st.bp

/-- The completion of a line.  The rest of the name is copied with a length that is converted from
`int`. -/
def complete (st : CliSt) (fm : CString) : CliSt :=
  let copied : CliSt :=
    { st with
      inbuf := st.inbuf.store st.bp (fm.bytes.drop st.bp)
      writes := st.writes ++ [(st.bp, (UInt32.ofNat fm.strlen - UInt32.ofNat st.bp).toNat)]
      bp := fm.strlen }
  let spaced := { copied.write copied.bp [0x20] with bp := copied.bp + 1 }
  spaced.write spaced.bp [0]

def tabComplete (st : CliSt) (commands : List CString) : CliSt :=
  match st.matching commands with
  | [fm] => if fm.strlen < inbufSize then st.complete fm else st
  | _ => st

def Magic (st : CliSt) : Prop :=
  st.inbuf 0 = 0x01 ∧ st.inbuf 1 = 0xe0 ∧ st.inbuf 2 = 0xfc ∧ st.bp = 3

instance (st : CliSt) : Decidable st.Magic := inferInstanceAs (Decidable (_ ∧ _))

/-- The inner loop, and what follows when it ends. -/
def continuePacket (st : CliSt) (packet : Packet) : CliSt :=
  if packet.left = 0 then
    { st.write 0 (List.replicate packet.len 0) with bp := 0, packet := none }
  else { st with packet := some packet }

/-- The outer loop for a byte. -/
def receive (st : CliSt) (arrival : Arrival) (ch : UInt8) : CliSt :=
  let st := st.write st.bp [ch]
  if ch = 0x01 ∧ st.bp = 0 ∨ ch = 0xe0 ∧ st.bp = 1 ∨ ch = 0xfc ∧ st.bp = 2 then
    { st with bp := st.bp + 1 }
  else if st.Magic then
    let st := { st.write st.bp [ch] with bp := st.bp + 1 }
    if ch.toNat ≥ inbufSize then { st with bp := 0 }
    else st.continuePacket ⟨ch.toNat, (4 + ch).toNat⟩
  else if ch = retChar then st
  else if ch = endChar then { st.write st.bp [0] with bp := 0, inbuf := arrival.handled }
  else if ch = 0x08 ∨ ch = 0x7f then
    if st.bp > 0 then { st with bp := st.bp - 1 } else st
  else if ch = tabChar then (st.write st.bp [0]).tabComplete arrival.commands
  else
    let st := { st with bp := st.bp + 1 }
    if st.bp ≥ inbufSize then { st with bp := 0 } else st

/-- From one call of `cli_getchar` to the next one, in this or a later call of `get_input`. -/
def step (st : CliSt) (arrival : Arrival) : CliSt :=
  match st.packet, arrival.answer with
  | none, none => st
  | none, some ch => st.receive arrival ch
  | some packet, none => st.continuePacket { packet with left := 0 }
  | some packet, some ch =>
      { st.write st.bp [ch] with bp := st.bp + 1 }.continuePacket
        { packet with left := packet.left - 1 }

end CliSt

def getInput : Machine CliSt Arrival Unit where
  step st arrival := (st.step arrival, ())

def emptyLine (inbuf : Memory UInt8) : CliSt := ⟨inbuf, 0, none, []⟩

/-! ### What stays in the buffer -/

/-- Every byte was stored below `INBUF_SIZE`, and the index does not exceed it. -/
def Good (st : CliSt) : Prop :=
  (∀ stored ∈ st.writes, stored.1 + stored.2 ≤ inbufSize) ∧ st.bp ≤ inbufSize

/-- No packet is begun whose bytes fill the buffer without its head, and where a line is completed,
the name is not shorter than the line and leaves room for a space and the end of the string. -/
structure Careful (st : CliSt) (arrival : Arrival) : Prop where
  packet : ∀ ch, st.packet = none → arrival.answer = some ch → st.Magic →
    ch.toNat + 4 ≤ inbufSize ∨ inbufSize ≤ ch.toNat
  completion : ∀ fm, st.packet = none → arrival.answer = some tabChar → ¬st.Magic →
    st.matching arrival.commands = [fm] → fm.strlen < inbufSize →
      st.bp ≤ fm.strlen ∧ fm.strlen + 2 ≤ inbufSize

/-- What is missing of a packet has room behind the index. -/
def Room (bp : ℕ) : Option Packet → Prop
  | none => bp < inbufSize
  | some packet => 0 < packet.left ∧ bp + packet.left ≤ inbufSize ∧ packet.len ≤ inbufSize

structure Bounded (st : CliSt) : Prop where
  stored : ∀ stored ∈ st.writes, stored.1 + stored.2 ≤ inbufSize
  room : Room st.bp st.packet

variable {st : CliSt} {bp : ℕ} {arrival : Arrival}

theorem Bounded.good (bounded : Bounded st) : Good st := by
  refine ⟨bounded.stored, ?_⟩
  have room := bounded.room
  cases packet : st.packet with
  | none =>
      rw [packet] at room
      exact Nat.le_of_lt room
  | some =>
      rw [packet] at room
      exact (Nat.le_add_right _ _).trans room.2.1

namespace CliSt

variable {st : CliSt}

@[simp]
theorem write_bp (st : CliSt) (place : ℕ) (bytes : List UInt8) :
    (st.write place bytes).bp = st.bp := rfl

@[simp]
theorem write_packet (st : CliSt) (place : ℕ) (bytes : List UInt8) :
    (st.write place bytes).packet = st.packet := rfl

theorem matching_write (st : CliSt) (bytes : List UInt8) (commands : List CString) :
    (st.write st.bp bytes).matching commands = st.matching commands := by
  have line : (st.inbuf.store st.bp bytes).load 0 st.bp = st.inbuf.load 0 st.bp :=
    Memory.load_store_above st.inbuf bytes (by omega)
  simp [matching, write, line]

theorem magic_write (st : CliSt) (bytes : List UInt8) :
    (st.write st.bp bytes).Magic ↔ st.Magic := by
  have before {place : ℕ} (below : place < st.bp) :
      st.inbuf.store st.bp bytes place = st.inbuf place :=
    Memory.store_apply_of_lt st.inbuf bytes below
  constructor
  · rintro ⟨first, second, third, three⟩
    have three : st.bp = 3 := three
    refine ⟨?_, ?_, ?_, three⟩
    · exact (before (by omega)).symm.trans first
    · exact (before (by omega)).symm.trans second
    · exact (before (by omega)).symm.trans third
  · rintro ⟨first, second, third, three⟩
    refine ⟨?_, ?_, ?_, three⟩
    · exact (before (by omega)).trans first
    · exact (before (by omega)).trans second
    · exact (before (by omega)).trans third

theorem stored_write (stored : ∀ stored ∈ st.writes, stored.1 + stored.2 ≤ inbufSize) {place : ℕ}
    {bytes : List UInt8} (fits : place + bytes.length ≤ inbufSize) :
    ∀ stored ∈ (st.write place bytes).writes, stored.1 + stored.2 ≤ inbufSize := by
  intro written member
  rcases List.mem_append.mp member with earlier | last
  · exact stored written earlier
  · rw [List.mem_singleton.mp last]
    exact fits

end CliSt

theorem Bounded.write (bounded : Bounded st) {place : ℕ} {bytes : List UInt8}
    (fits : place + bytes.length ≤ inbufSize) : Bounded (st.write place bytes) :=
  ⟨CliSt.stored_write bounded.stored fits, bounded.room⟩

theorem Bounded.moveTo (bounded : Bounded st) (outside : st.packet = none)
    (inside : bp < inbufSize) : Bounded { st with bp := bp } := by
  refine ⟨bounded.stored, ?_⟩
  show Room bp st.packet
  rw [outside]
  exact inside

theorem Bounded.bp_lt (bounded : Bounded st) : st.bp < inbufSize := by
  have room := bounded.room
  cases packet : st.packet with
  | none =>
      rw [packet] at room
      exact room
  | some packet' =>
      rw [packet] at room
      obtain ⟨missing, fits, -⟩ := room
      omega

theorem bounded_continuePacket {packet : Packet}
    (stored : ∀ stored ∈ st.writes, stored.1 + stored.2 ≤ inbufSize)
    (fits : st.bp + packet.left ≤ inbufSize) (short : packet.len ≤ inbufSize) :
    Bounded (st.continuePacket packet) := by
  rw [CliSt.continuePacket]
  split
  · refine ⟨CliSt.stored_write stored (by simpa using short), ?_⟩
    show 0 < inbufSize
    decide
  · rename_i missing
    exact ⟨stored, Nat.pos_of_ne_zero missing, fits, short⟩

theorem toNat_rest {length : ℕ} (longer : bp ≤ length) (short : length < inbufSize) :
    (UInt32.ofNat length - UInt32.ofNat bp).toNat = length - bp := by
  have small : length < 2 ^ 32 := short.trans (by decide)
  have length_eq : (UInt32.ofNat length).toNat = length := UInt32.toNat_ofNat_of_lt' small
  have bp_eq : (UInt32.ofNat bp).toNat = bp :=
    UInt32.toNat_ofNat_of_lt' (longer.trans_lt small)
  have ordered : UInt32.ofNat bp ≤ UInt32.ofNat length := by
    rw [UInt32.le_iff_toNat_le, length_eq, bp_eq]
    exact longer
  rw [UInt32.toNat_sub_of_le _ _ ordered, length_eq, bp_eq]

section

variable (bounded : Bounded st) (outside : st.packet = none)
include bounded outside

theorem bounded_complete {fm : CString} (longer : st.bp ≤ fm.strlen)
    (fits : fm.strlen + 2 ≤ inbufSize) : Bounded (st.complete fm) := by
  have rest := toNat_rest longer (by omega)
  rw [CliSt.complete]
  set copied : CliSt :=
    { st with
      inbuf := st.inbuf.store st.bp (fm.bytes.drop st.bp)
      writes := st.writes ++ [(st.bp, (UInt32.ofNat fm.strlen - UInt32.ofNat st.bp).toNat)]
      bp := fm.strlen } with copied_def
  have copied_bounded : Bounded copied := by
    refine ⟨?_, ?_⟩
    · intro written member
      rcases List.mem_append.mp member with earlier | last
      · exact bounded.stored written earlier
      · rw [List.mem_singleton.mp last, rest]
        show st.bp + (fm.strlen - st.bp) ≤ inbufSize
        omega
    · show Room fm.strlen st.packet
      rw [outside]
      show fm.strlen < inbufSize
      omega
  have spaced_bounded : Bounded { copied.write copied.bp [0x20] with bp := copied.bp + 1 } := by
    refine (copied_bounded.write ?_).moveTo outside ?_
    · show fm.strlen + 1 ≤ inbufSize
      omega
    · show fm.strlen + 1 < inbufSize
      omega
  exact spaced_bounded.write (show fm.strlen + 1 + 1 ≤ inbufSize by omega)

theorem bounded_tabComplete {commands : List CString}
    (careful : ∀ fm, st.matching commands = [fm] → fm.strlen < inbufSize →
      st.bp ≤ fm.strlen ∧ fm.strlen + 2 ≤ inbufSize) : Bounded (st.tabComplete commands) := by
  rw [CliSt.tabComplete]
  split
  · rename_i fm single
    split
    · rename_i short
      obtain ⟨longer, fits⟩ := careful fm single short
      exact bounded_complete bounded outside longer fits
    · exact bounded
  · exact bounded

theorem bounded_receive {ch : UInt8} (answer : arrival.answer = some ch)
    (careful : Careful st arrival) : Bounded (st.receive arrival ch) := by
  have room : st.bp < inbufSize := bounded.bp_lt
  have got : Bounded (st.write st.bp [ch]) := bounded.write room
  have again (byte : UInt8) : Bounded ((st.write st.bp [ch]).write st.bp [byte]) := got.write room
  rw [CliSt.receive]
  simp only
  split
  · rename_i headByte
    have early : st.bp ≤ 2 := by
      rcases headByte with ⟨-, place⟩ | ⟨-, place⟩ | ⟨-, place⟩
      · exact place.le.trans (by omega)
      · exact place.le.trans (by omega)
      · exact place.le
    exact got.moveTo outside (show st.bp + 1 < 128 by omega)
  split
  · rename_i magic
    have magic : st.Magic := (CliSt.magic_write st [ch]).mp magic
    have three : st.bp = 3 := magic.2.2.2
    split
    · exact (again ch).moveTo outside (by decide)
    · rename_i short
      have fits : ch.toNat + 4 ≤ inbufSize :=
        (careful.packet ch outside answer magic).resolve_right short
      refine bounded_continuePacket (again ch).stored ?_ ?_
      · show st.bp + 1 + ch.toNat ≤ inbufSize
        omega
      · have length_eq : (4 + ch).toNat = (4 + ch.toNat) % 256 := UInt8.toNat_add 4 ch
        show (4 + ch).toNat ≤ inbufSize
        rw [length_eq]
        exact (Nat.mod_le _ _).trans ((Nat.add_comm _ _).trans_le fits)
  rename_i noMagic
  have noMagic : ¬st.Magic := mt (CliSt.magic_write st [ch]).mpr noMagic
  split
  · exact got
  split
  · refine ⟨(again 0).stored, ?_⟩
    show Room 0 st.packet
    rw [outside]
    exact Nat.zero_lt_succ _
  split
  · split
    · refine got.moveTo outside ?_
      show st.bp - 1 < inbufSize
      omega
    · exact got
  split
  · rename_i tab
    have line : ((st.write st.bp [ch]).write st.bp [0]).matching arrival.commands =
        st.matching arrival.commands :=
      ((st.write st.bp [ch]).matching_write [0] _).trans (st.matching_write [ch] _)
    refine bounded_tabComplete (again 0) outside fun fm single short => ?_
    exact careful.completion fm outside (answer.trans (congrArg some tab)) noMagic
      (line.symm.trans single) short
  · split
    · exact got.moveTo outside (by decide)
    · rename_i short
      exact got.moveTo outside (Nat.not_le.mp short)

end

theorem bounded_step (bounded : Bounded st) (careful : Careful st arrival) :
    Bounded (st.step arrival) := by
  rw [CliSt.step]
  have room := bounded.room
  cases packet_eq : st.packet with
  | none =>
      cases answer_eq : arrival.answer with
      | none => exact bounded
      | some ch => exact bounded_receive bounded packet_eq answer_eq careful
  | some packet =>
      rw [packet_eq] at room
      obtain ⟨missing, fits, short⟩ := room
      cases answer_eq : arrival.answer with
      | none =>
          refine bounded_continuePacket bounded.stored ?_ short
          show st.bp + 0 ≤ inbufSize
          omega
      | some ch =>
          have got : Bounded (st.write st.bp [ch]) := bounded.write bounded.bp_lt
          refine bounded_continuePacket got.stored ?_ short
          show st.bp + 1 + (packet.left - 1) ≤ inbufSize
          omega

/-- Whatever arrives, `get_input` stays in its buffer as long as no packet with a length byte from
125 to 127 begins, and no line is completed to a name that is shorter than it or of exactly 127
bytes. -/
theorem get_input_stays_in_buffer (inbuf : Memory UInt8) (arrivals : List Arrival)
    (careful : getInput.Always Careful (emptyLine inbuf) arrivals) {front : List Arrival}
    (initialPart : front <+: arrivals) : Good (getInput.run (emptyLine inbuf) front) := by
  obtain ⟨back, rfl⟩ := initialPart
  have admissible := ((getInput.always_append Careful (emptyLine inbuf) front back).mp careful).1
  have initial : Bounded (emptyLine inbuf) := ⟨by simp [emptyLine], show 0 < inbufSize by decide⟩
  exact (getInput.run_invariant Careful Bounded initial
    (fun bounded meets => bounded_step bounded meets) admissible).good

/-- The name `help`. -/
def helpName : CString := ⟨[0x68, 0x65, 0x6c, 0x70], by decide⟩

/-- The letter `h` and a tab, where `help` is registered. -/
def helpArrivals : List Arrival :=
  [some 0x68, some tabChar].map fun answer => ⟨answer, [helpName], fun _ => 0⟩

theorem help_stays_in_buffer : Good (getInput.run (emptyLine fun _ => 0) helpArrivals) := by
  refine get_input_stays_in_buffer (fun _ => 0) helpArrivals ⟨?_, ?_, trivial⟩ (List.prefix_refl _)
  · refine ⟨?_, ?_⟩
    · rintro ch - - ⟨-, -, -, three⟩
      exact absurd three (by decide)
    · rintro fm - letter
      exact absurd letter (by decide)
  · refine ⟨?_, ?_⟩
    · rintro ch - - ⟨-, -, -, three⟩
      exact absurd three (by decide)
    · rintro fm - - - single -
      have matched : [helpName] = [fm] := Eq.trans (by decide) single
      obtain rfl : helpName = fm := List.head_eq_of_cons_eq matched
      decide

/-- A packet whose length byte is 125, of which nothing else arrives. -/
def longPacket : List Arrival :=
  [some 0x01, some 0xe0, some 0xfc, some 0x7d, none].map fun answer => ⟨answer, [], fun _ => 0⟩

/-- The packet is cleared to a byte behind the buffer. -/
theorem long_packet_leaves_buffer :
    ¬∀ front, front <+: longPacket → Good (getInput.run (emptyLine fun _ => 0) front) := by
  intro every
  have cleared : (0, 129) ∈ (getInput.run (emptyLine fun _ => 0) longPacket).writes := by
    decide +kernel
  have inside : 0 + 129 ≤ 128 := (every longPacket (List.prefix_refl _)).1 (0, 129) cleared
  omega

end BdkFreertos.CliInput
