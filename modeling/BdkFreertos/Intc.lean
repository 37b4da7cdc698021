import BdkFreertos.DoublyList
import BdkFreertos.Machine
import Mathlib.Data.Fintype.Card

/-!
# The interrupt service list

`intc_service_register` and `intc_service_change_handler` copy an entry of the table of handlers
with its links before they disable the interrupts, and write the copy back with interrupts
disabled.  Before that point another call may run to completion.
-/

namespace BdkFreertos.Intc

/-- The list headers: that of the list and one in each entry of the table. -/
inductive Node
  /-- `isr_hdr.isr`. -/
  | hdr
  /-- `_isrs[number].list`. -/
  | isr (number : Fin 32)
  deriving DecidableEq

/-- The record `ISR_T`. -/
@[ext]
structure Isr where
  next : Option Node
  prev : Option Node
  isrFunc : UInt32
  pri : UInt8
  intNum : UInt8
  deriving DecidableEq

/-- An entry of `_isrs` before it is used. -/
def Isr.zero : Isr := ⟨none, none, 0, 0, 0⟩

/-- The variables of the interrupt controller, the table `_isrs` field by field. -/
structure Table where
  /-- The links of `isr_hdr` and of the table. -/
  links : Links Node
  isrFunc : Fin 32 → UInt32
  pri : Fin 32 → UInt8
  intNum : Fin 32 → UInt8
  isrsMask : BitVec 32

/-- The variables at reset: `isr_hdr` is linked with itself. -/
def Table.reset : Table where
  links := ⟨fun node => if node = .hdr then some .hdr else none,
    fun node => if node = .hdr then some .hdr else none⟩
  isrFunc _ := 0
  pri _ := 0
  intNum _ := 0
  isrsMask := 0

/-- `_isrs[number]`. -/
def Table.isr (intc : Table) (number : Fin 32) : Isr where
  next := intc.links.next (.isr number)
  prev := intc.links.prev (.isr number)
  isrFunc := intc.isrFunc number
  pri := intc.pri number
  intNum := intc.intNum number

/-- `_isrs[number] = isr`. -/
def Table.setIsr (intc : Table) (number : Fin 32) (isr : Isr) : Table :=
  { intc with
    links := ⟨Function.update intc.links.next (.isr number) isr.next,
      Function.update intc.links.prev (.isr number) isr.prev⟩
    isrFunc := Function.update intc.isrFunc number isr.isrFunc
    pri := Function.update intc.pri number isr.pri
    intNum := Function.update intc.intNum number isr.intNum }

def bit (index : ℕ) : BitVec 32 := 1#32 <<< index

def rounds : ℕ := 33

/-- The loop of `intc_hdl_entry`: the entries whose handlers it calls, with the handlers.  There is
no result when the loop reaches a null link or does not come to an end. -/
def hdlLoop (intc : Table) : ℕ → Option Node → BitVec 32 → Option (List (Fin 32 × UInt32))
  | 0, _, _ => none
  | _ + 1, none, _ => none
  | _ + 1, some .hdr, _ => some []
  | fuel + 1, some (.isr number), status =>
      let i := (intc.intNum number).toNat
      let calls := if bit i &&& status ≠ 0 then [(number, intc.isrFunc number)] else []
      let status := if bit i &&& status ≠ 0 then status &&& ~~~bit i else status
      if status = 0 then some calls
      else (hdlLoop intc fuel (intc.links.next (.isr number)) status).map (calls ++ ·)

def intcHdlEntry (intc : Table) (intStatus : BitVec 32) : Option (List (Fin 32 × UInt32)) :=
  hdlLoop intc rounds (intc.links.next .hdr) (intStatus &&& intc.isrsMask)

/-- Where the loop of `intc_service_register` ends. -/
inductive Found
  /-- At an entry of lower priority, which has a higher number. -/
  | before (number : Fin 32)
  | same
  | behind

/-- The loop of `intc_service_register`, without a result when it does not come to an end. -/
def findPlace (intc : Table) (intPri : UInt8) : ℕ → Option Node → Option Found
  | 0, _ => none
  | _ + 1, none => none
  | _ + 1, some .hdr => some .behind
  | fuel + 1, some (.isr number) =>
      if intPri < intc.pri number then some (.before number)
      else if intPri = intc.pri number then some .same
      else findPlace intc intPri fuel (intc.links.next (.isr number))

/-- The part of `intc_service_register` with interrupts disabled. -/
def registerLocked (intc : Table) (intNum : Fin 32) (intPri : UInt8) (bufEle : Isr) :
    Option Table :=
  let ok (links : Links Node) : Table :=
    { intc with links, isrsMask := intc.isrsMask ||| bit intNum }
  if intc.links.next .hdr = some .hdr then
    some (ok (intc.links.addHead (.isr intNum) .hdr))
  else
    match findPlace intc intPri rounds (intc.links.next .hdr) with
    | none => none
    | some (.before number) => some (ok (intc.links.addTail (.isr intNum) (.isr number)))
    | some .same => some (intc.setIsr intNum bufEle)
    | some .behind => some (ok (intc.links.addTail (.isr intNum) .hdr))

/-- The loop of `intc_service_change_handler`: whether an entry has the priority. -/
def hasPri (intc : Table) (intPri : UInt8) : ℕ → Option Node → Option Bool
  | 0, _ => none
  | _ + 1, none => none
  | _ + 1, some .hdr => some false
  | fuel + 1, some (.isr number) =>
      if intPri = intc.pri number then some true
      else hasPri intc intPri fuel (intc.links.next (.isr number))

/-- The part of `intc_service_change_handler` with interrupts disabled. -/
def changeHandlerLocked (intc : Table) (intNum : Fin 32) (intPri : UInt8) (bufEle : Isr)
    (isr : UInt32) : Option Table :=
  if intc.links.next .hdr = some .hdr then
    some (intc.setIsr intNum bufEle)
  else
    match hasPri intc intPri rounds (intc.links.next .hdr) with
    | none => none
    | some true => some (intc.setIsr intNum { bufEle with isrFunc := isr })
    | some false => some (intc.setIsr intNum bufEle)

/-- Calls of the two functions. -/
inductive Call
  /-- `intc_service_register`. -/
  | serviceRegister (intPri : UInt8) (isr : UInt32)
  /-- `intc_service_change_handler`. -/
  | serviceChangeHandler (isr : UInt32)
  deriving DecidableEq

/-- What a call does next. -/
inductive Place
  /-- `buf_ele = _isrs[int_num]`, field by field. -/
  | copyNext
  | copyPrev
  | copyIsrFunc
  | copyPri
  | copyIntNum
  /-- `cur_ptr->isr_func = isr`. -/
  | writeIsrFunc
  /-- `cur_ptr->int_num = int_num`. -/
  | writeIntNum
  /-- `cur_ptr->pri = int_pri`. -/
  | writePri
  /-- `int_pri = cur_ptr->pri`. -/
  | readPri
  /-- `if (!cur_ptr->isr_func)`. -/
  | testIsrFunc
  /-- From `GLOBAL_INT_DISABLE` to `GLOBAL_INT_RESTORE`. -/
  | locked
  deriving DecidableEq

/-- A call that has not returned, with its local variables. -/
structure Frame where
  intNum : Fin 32
  call : Call
  place : Place
  bufEle : Isr
  /-- `int_pri` of `intc_service_change_handler`. -/
  intPri : UInt8
  deriving DecidableEq

def Frame.enter (intNum : Fin 32) (call : Call) : Frame := ⟨intNum, call, .copyNext, .zero, 0⟩

/-- The next thing a call does: the variables after it, and what is left of the call. -/
def Frame.step (frame : Frame) (intc : Table) : Option (Table × Option Frame) :=
  let entry := intc.isr frame.intNum
  let buf := frame.bufEle
  match frame.place, frame.call with
  | .copyNext, _ =>
      some (intc, some { frame with bufEle := { buf with next := entry.next }, place := .copyPrev })
  | .copyPrev, _ =>
      some (intc,
        some { frame with bufEle := { buf with prev := entry.prev }, place := .copyIsrFunc })
  | .copyIsrFunc, _ =>
      some (intc,
        some { frame with bufEle := { buf with isrFunc := entry.isrFunc }, place := .copyPri })
  | .copyPri, _ =>
      some (intc, some { frame with bufEle := { buf with pri := entry.pri }, place := .copyIntNum })
  | .copyIntNum, .serviceRegister _ _ =>
      some (intc,
        some { frame with bufEle := { buf with intNum := entry.intNum }, place := .writeIsrFunc })
  | .copyIntNum, .serviceChangeHandler _ =>
      some (intc,
        some { frame with bufEle := { buf with intNum := entry.intNum }, place := .readPri })
  | .writeIsrFunc, .serviceRegister _ isr =>
      some ({ intc with isrFunc := Function.update intc.isrFunc frame.intNum isr },
        some { frame with place := .writeIntNum })
  | .writeIntNum, .serviceRegister _ _ =>
      some ({ intc with
          intNum := Function.update intc.intNum frame.intNum (UInt8.ofNat frame.intNum) },
        some { frame with place := .writePri })
  | .writePri, .serviceRegister intPri _ =>
      some ({ intc with pri := Function.update intc.pri frame.intNum intPri },
        some { frame with place := .locked })
  | .locked, .serviceRegister intPri _ =>
      (registerLocked intc frame.intNum intPri buf).map (·, none)
  | .readPri, .serviceChangeHandler _ =>
      some (intc, some { frame with intPri := entry.pri, place := .testIsrFunc })
  | .testIsrFunc, .serviceChangeHandler _ =>
      some (intc, if entry.isrFunc = 0 then none else some { frame with place := .locked })
  | .locked, .serviceChangeHandler isr =>
      (changeHandlerLocked intc frame.intNum frame.intPri buf isr).map (·, none)
  | _, _ => none

/-- What happens. -/
inductive Event
  /-- `intc_service_register` is called. -/
  | serviceRegister (intNum : Fin 32) (isr : UInt32)
  /-- `intc_service_change_handler` is called. -/
  | serviceChangeHandler (intNum : Fin 32) (isr : UInt32)
  /-- The running call does its next step. -/
  | advance

/-- The program, with the handlers that the calls have set. -/
structure Tracked where
  intc : Table
  /-- The calls that have not returned, the running one first. -/
  stack : List Frame
  /-- The handlers as accepted registrations and later changes have set them. -/
  handler : Fin 32 → UInt32

def Tracked.reset : Tracked := ⟨.reset, [], fun _ => 0⟩

/-- The interrupt is set in `isrs_mask`. -/
def Table.Registered (intc : Table) (number : Fin 32) : Prop := intc.isrsMask.getLsbD number = true

instance (intc : Table) (number : Fin 32) : Decidable (intc.Registered number) :=
  inferInstanceAs (Decidable (_ = true))

/-- The handlers after a step of a call: a registration that is accepted brings the handler of its
entry into the list, and a change of a registered interrupt sets its handler. -/
def handlerAfter (frame : Frame) (before after : Table) (handler : Fin 32 → UInt32) :
    Fin 32 → UInt32 :=
  match frame.place, frame.call with
  | .locked, .serviceRegister _ _ =>
      if ¬before.Registered frame.intNum ∧ after.Registered frame.intNum then
        Function.update handler frame.intNum (after.isrFunc frame.intNum)
      else handler
  | .locked, .serviceChangeHandler isr =>
      if before.Registered frame.intNum then Function.update handler frame.intNum isr else handler
  | _, _ => handler

/-- The running call does its next step.  A call that never comes back leaves all as it is. -/
def Tracked.advance (tracked : Tracked) : Tracked :=
  match tracked.stack with
  | [] => tracked
  | frame :: rest =>
      match frame.step tracked.intc with
      | none => tracked
      | some (intc, next) =>
          { intc
            stack := next.toList ++ rest
            handler := handlerAfter frame tracked.intc intc tracked.handler }

/-- The two functions called in any order, at any point of a call that is not locked, where every
interrupt has its own priority for all registrations. -/
def service (priority : Fin 32 → UInt8) : Machine Tracked Event Unit where
  step tracked event :=
    (match event with
      | .serviceRegister intNum isr =>
          { tracked with
            stack := .enter intNum (.serviceRegister (priority intNum) isr) :: tracked.stack }
      | .serviceChangeHandler intNum isr =>
          { tracked with stack := .enter intNum (.serviceChangeHandler isr) :: tracked.stack }
      | .advance => tracked.advance, ())

/-- The list is a ring of entries in the order of their priorities, with the numbers of the
interrupts that are set in `isrs_mask`. -/
structure WellFormed (intc : Table) (order : List (Fin 32)) : Prop where
  ring : intc.links.Ring .hdr (order.map .isr)
  sorted : order.Pairwise fun left right => intc.pri left < intc.pri right
  numbered : ∀ number ∈ order, intc.intNum number = UInt8.ofNat number
  mask : ∀ number, number ∈ order ↔ intc.Registered number

/-- `intc_hdl_entry` calls the handler of every pending masked interrupt once, in increasing
priority order. -/
def Serves (intc : Table) (intStatus : BitVec 32) : Prop :=
  ∃ calls, intcHdlEntry intc intStatus = some calls ∧
    (calls.Pairwise fun left right => intc.pri left.1 < intc.pri right.1) ∧
    ∀ number handler, (number, handler) ∈ calls ↔
      (intStatus &&& intc.isrsMask).getLsbD number = true ∧ handler = intc.isrFunc number

/-- A registration has overwritten the handler of an interrupt and goes on. -/
def Frame.Writes (frame : Frame) (number : Fin 32) : Prop :=
  frame.intNum = number ∧ (∃ intPri isr, frame.call = .serviceRegister intPri isr) ∧
    (frame.place = .writeIntNum ∨ frame.place = .writePri ∨ frame.place = .locked)

def Writing (stack : List Frame) (number : Fin 32) : Prop :=
  ∃ frame ∈ stack, frame.Writes number

/-- The service list is as the accepted registrations and the changes have made it: a rejected
registration has changed nothing of it, nor of an entry that is not in the list. -/
structure Good (tracked : Tracked) : Prop where
  list : ∃ order, WellFormed tracked.intc order
  handler_eq : ∀ number, tracked.intc.Registered number → ¬Writing tracked.stack number →
    tracked.intc.isrFunc number = tracked.handler number
  zero : ∀ number, ¬tracked.intc.Registered number → ¬Writing tracked.stack number →
    tracked.intc.isr number = .zero
  serves : ∀ intStatus, Serves tracked.intc intStatus

/-- A call writes an entry of the list back only with the links that the entry has now, and a
rejected registration that does not interrupt another one of its interrupt only with the handler
that was set last. -/
def Restores (tracked : Tracked) : Event → Prop
  | .advance =>
      ∀ frame rest, tracked.stack = frame :: rest → frame.place = .locked →
        tracked.intc.Registered frame.intNum →
          frame.bufEle.next = tracked.intc.links.next (.isr frame.intNum) ∧
          frame.bufEle.prev = tracked.intc.links.prev (.isr frame.intNum) ∧
          (∀ intPri isr, frame.call = .serviceRegister intPri isr →
            ¬Writing rest frame.intNum →
              frame.bufEle.isrFunc = tracked.handler frame.intNum)
  | _ => True

variable {intc : Table} {order : List (Fin 32)} {first : Node} {rest : List Frame} {number : Fin 32}
  {priority : Fin 32 → UInt8} {stack stack' : List Frame} {entry : Isr} {intc' : Table}
  {handler : Fin 32 → UInt32} {tracked : Tracked} {intNum : Fin 32} (status : BitVec 32)
  (index other : Fin 32)

theorem getLsbD_bit : (bit index).getLsbD other = decide (other = index) := by
  show (BitVec.twoPow 32 index).getLsbD other = _
  rw [BitVec.getLsbD_twoPow, decide_eq_true index.isLt, Bool.true_and]
  exact decide_eq_decide.mpr (by rw [Fin.ext_iff, eq_comm])

theorem bit_and_ne_zero : bit index &&& status ≠ 0 ↔ status.getLsbD index = true := by
  constructor
  · intro nonzero
    by_contra clear
    refine nonzero (BitVec.eq_of_getLsbD_eq fun other inside => ?_)
    have at_other := getLsbD_bit index ⟨other, inside⟩
    rw [BitVec.getLsbD_and, at_other]
    by_cases same : (⟨other, inside⟩ : Fin 32) = index
    · subst same
      simpa using clear
    · simp [same]
  · intro set zero
    have at_index := congrArg (fun word => word.getLsbD index) zero
    simp only [BitVec.getLsbD_and, getLsbD_bit, set] at at_index
    exact absurd at_index (by simp)

theorem getLsbD_clear :
    (status &&& ~~~bit index).getLsbD other = (status.getLsbD other && decide (other ≠ index)) := by
  rw [BitVec.getLsbD_and, BitVec.getLsbD_not, getLsbD_bit]
  simp

theorem getLsbD_or_bit (mask : BitVec 32) (index other : Fin 32) :
    (mask ||| bit index).getLsbD other = true ↔ mask.getLsbD other = true ∨ other = index := by
  rw [BitVec.getLsbD_or, getLsbD_bit, Bool.or_eq_true, decide_eq_true_eq]

theorem WellFormed.length_lt (wellFormed : WellFormed intc order) : order.length < rounds := by
  have nodup : order.Nodup :=
    (List.nodup_cons.mp wellFormed.ring.nodup).2.of_map
  have bounded := nodup.length_le_card
  rw [Fintype.card_fin] at bounded
  exact Nat.lt_succ_of_le bounded

theorem next_eq_of_path {links : Links Node} (path : links.Path first (order.map .isr) .hdr) :
    links.next first =
      match order with
      | [] => some .hdr
      | number :: _ => some (.isr number) := by
  cases order with
  | nil => exact path.1
  | cons number order => exact path.1.1

theorem eq_zero_iff_getLsbD : status = 0 ↔ ∀ index : Fin 32, status.getLsbD index = false := by
  constructor
  · rintro rfl index
    exact BitVec.getLsbD_zero
  · exact fun clear => BitVec.eq_of_getLsbD_eq fun index inside =>
      (clear ⟨index, inside⟩).trans BitVec.getLsbD_zero.symm

/-- The loop of `intc_hdl_entry` calls the pending entries of the rest of the list in order. -/
theorem hdlLoop_eq (path : intc.links.Path first (order.map .isr) .hdr) (nodup : order.Nodup)
    (numbered : ∀ number ∈ order, intc.intNum number = UInt8.ofNat number) {fuel : ℕ}
    (enough : order.length < fuel) (status : BitVec 32) (inside : ∀ index : Fin 32,
      status.getLsbD index = true → index ∈ order) :
    hdlLoop intc fuel (intc.links.next first) status =
      some ((order.filter fun number : Fin 32 => status.getLsbD number).map
        fun number => (number, intc.isrFunc number)) := by
  induction order generalizing first fuel status with
  | nil =>
      obtain ⟨fuel, rfl⟩ := Nat.exists_eq_succ_of_ne_zero (Nat.ne_of_gt enough)
      rw [next_eq_of_path path]
      rfl
  | cons number order induction =>
      obtain ⟨fuel, rfl⟩ := Nat.exists_eq_succ_of_ne_zero (Nat.ne_of_gt (Nat.zero_lt_of_lt enough))
      obtain ⟨fresh, nodup⟩ := List.nodup_cons.mp nodup
      have index_eq : (intc.intNum number).toNat = number.val := by
        rw [numbered number List.mem_cons_self]
        have low : ∀ own : Fin 32, (UInt8.ofNat own.val).toNat = own.val := by decide
        exact low number
      have rest {status' : BitVec 32} (inside' : ∀ index : Fin 32,
          status'.getLsbD index = true → index ∈ order) :=
        induction path.2 nodup (fun other member => numbered other (List.mem_cons_of_mem _ member))
          (Nat.lt_of_succ_lt_succ enough) status' inside'
      have drained {status' : BitVec 32} (zero : status' = 0) :
          (order.filter fun number : Fin 32 => status'.getLsbD number) = [] := by
        rw [List.filter_eq_nil_iff]
        intro other _
        rw [(eq_zero_iff_getLsbD status').mp zero other]
        exact Bool.false_ne_true
      rw [next_eq_of_path path]
      simp only [hdlLoop, index_eq, bit_and_ne_zero]
      by_cases set : status.getLsbD number = true
      · have cleared (other : Fin 32) (member : other ∈ order) :
            (status &&& ~~~bit number).getLsbD other = status.getLsbD other := by
          have different : other ≠ number := fun equal => fresh (equal ▸ member)
          rw [getLsbD_clear, decide_eq_true different, Bool.and_true]
        have same_filter : (order.filter fun other : Fin 32 => status.getLsbD other) =
            order.filter fun other : Fin 32 => (status &&& ~~~bit number).getLsbD other :=
          List.filter_congr fun other member => (cleared other member).symm
        rw [if_pos set, if_pos set, List.filter_cons, if_pos set, same_filter]
        split
        · rename_i zero
          rw [drained zero]
          rfl
        · rw [rest]
          · rfl
          · intro other set_other
            rw [getLsbD_clear, Bool.and_eq_true, decide_eq_true_eq] at set_other
            exact (List.mem_cons.mp (inside other set_other.1)).resolve_left set_other.2
      · rw [if_neg set, if_neg set, List.filter_cons, if_neg set]
        split
        · rename_i zero
          rw [drained zero]
          rfl
        · rw [rest]
          · rfl
          · intro other set_other
            refine (List.mem_cons.mp (inside other set_other)).resolve_left ?_
            rintro rfl
            exact set set_other

theorem WellFormed.serves (wellFormed : WellFormed intc order) (intStatus : BitVec 32) :
    Serves intc intStatus := by
  have nodup : order.Nodup := (List.nodup_cons.mp wellFormed.ring.nodup).2.of_map
  refine ⟨_, hdlLoop_eq wellFormed.ring.path nodup wellFormed.numbered wellFormed.length_lt _ ?_,
    ?_, ?_⟩
  · intro index set
    rw [BitVec.getLsbD_and, Bool.and_eq_true] at set
    exact (wellFormed.mask index).mpr set.2
  · rw [List.pairwise_map]
    exact wellFormed.sorted.filter _
  · intro number handler
    rw [List.mem_map]
    constructor
    · rintro ⟨other, member, equal⟩
      obtain ⟨rfl, rfl⟩ := Prod.mk.inj equal
      exact ⟨(List.mem_filter.mp member).2, rfl⟩
    · rintro ⟨set, rfl⟩
      refine ⟨number, List.mem_filter.mpr ⟨?_, set⟩, rfl⟩
      rw [BitVec.getLsbD_and, Bool.and_eq_true] at set
      exact (wellFormed.mask number).mpr set.2

/-- Where a priority belongs in a list, and that it is free. -/
structure Slot (intc : Table) (intPri : UInt8) (order front back : List (Fin 32)) : Prop where
  order_eq : order = front ++ back
  higher : ∀ number ∈ front, intc.pri number < intPri
  lower : ∀ number ∈ back, intPri < intc.pri number

/-- The list header that a registration adds its entry before. -/
def target (back : List (Fin 32)) : Node := (back.map Node.isr ++ [Node.hdr]).head (by simp)

/-- The loop of the registration stops at the same priority or at the place of its own. -/
theorem findPlace_spec (intPri : UInt8) (path : intc.links.Path first (order.map .isr) .hdr)
    (sorted : order.Pairwise fun left right => intc.pri left < intc.pri right) {fuel : ℕ}
    (enough : order.length < fuel) :
    ((∃ number ∈ order, intc.pri number = intPri) ∧
        findPlace intc intPri fuel (intc.links.next first) = some .same) ∨
      ∃ front back, Slot intc intPri order front back ∧
        findPlace intc intPri fuel (intc.links.next first) =
          some (match back with
            | [] => .behind
            | number :: _ => .before number) := by
  induction order generalizing first fuel with
  | nil =>
      obtain ⟨fuel, rfl⟩ := Nat.exists_eq_succ_of_ne_zero (Nat.ne_of_gt enough)
      refine Or.inr ⟨[], [], ⟨rfl, by simp, by simp⟩, ?_⟩
      rw [next_eq_of_path path]
      rfl
  | cons number order induction =>
      obtain ⟨fuel, rfl⟩ := Nat.exists_eq_succ_of_ne_zero (Nat.ne_of_gt (Nat.zero_lt_of_lt enough))
      obtain ⟨first_lower, sorted⟩ := List.pairwise_cons.mp sorted
      rw [next_eq_of_path path]
      simp only [findPlace]
      by_cases before : intPri < intc.pri number
      · refine Or.inr ⟨[], number :: order, ⟨rfl, by simp, ?_⟩, by rw [if_pos before]⟩
        intro other member
        rcases List.mem_cons.mp member with rfl | member
        · exact before
        · exact UInt8.lt_trans before (first_lower other member)
      rw [if_neg before]
      by_cases same : intPri = intc.pri number
      · exact Or.inl ⟨⟨number, List.mem_cons_self, same.symm⟩, if_pos same⟩
      rw [if_neg same]
      have higher : intc.pri number < intPri :=
        UInt8.lt_of_le_of_ne (UInt8.not_lt.mp before) (Ne.symm same)
      rcases induction path.2 sorted (Nat.lt_of_succ_lt_succ enough) with
        ⟨⟨other, member, equal⟩, found⟩ | ⟨front, back, slot, found⟩
      · exact Or.inl ⟨⟨other, List.mem_cons_of_mem _ member, equal⟩, found⟩
      · refine Or.inr ⟨number :: front, back, ⟨congrArg _ slot.order_eq, ?_, slot.lower⟩, found⟩
        intro other member
        rcases List.mem_cons.mp member with rfl | member
        · exact higher
        · exact slot.higher other member

theorem hasPri_spec {intPri : UInt8} (path : intc.links.Path first (order.map .isr) .hdr) {fuel : ℕ}
    (enough : order.length < fuel) :
    hasPri intc intPri fuel (intc.links.next first) =
      some (decide (∃ number ∈ order, intc.pri number = intPri)) := by
  induction order generalizing first fuel with
  | nil =>
      obtain ⟨fuel, rfl⟩ := Nat.exists_eq_succ_of_ne_zero (Nat.ne_of_gt enough)
      rw [next_eq_of_path path]
      simp [hasPri]
  | cons number order induction =>
      obtain ⟨fuel, rfl⟩ := Nat.exists_eq_succ_of_ne_zero (Nat.ne_of_gt (Nat.zero_lt_of_lt enough))
      rw [next_eq_of_path path]
      simp only [hasPri, induction path.2 (Nat.lt_of_succ_lt_succ enough), List.exists_mem_cons_iff]
      by_cases same : intPri = intc.pri number
      · rw [if_pos same]
        simp [same]
      · rw [if_neg same]
        simp [Ne.symm same]

/-- The table with an entry put in the list. -/
def Table.insert (intc : Table) (intNum : Fin 32) (back : List (Fin 32)) : Table :=
  { intc with
    links := intc.links.addTail (.isr intNum) (target back)
    isrsMask := intc.isrsMask ||| bit intNum }

/-- A registration writes its copy back when its priority is taken, and else puts its entry in the
place of its priority. -/
theorem registerLocked_spec (wellFormed : WellFormed intc order) (intNum : Fin 32) (intPri : UInt8)
    (bufEle : Isr) :
    ((∃ number ∈ order, intc.pri number = intPri) ∧
        registerLocked intc intNum intPri bufEle = some (intc.setIsr intNum bufEle)) ∨
      ∃ front back, Slot intc intPri order front back ∧
        registerLocked intc intNum intPri bufEle = some (intc.insert intNum back) := by
  cases order with
  | nil =>
      have empty : intc.links.next .hdr = some .hdr := next_eq_of_path wellFormed.ring.path
      have empty' : intc.links.prev .hdr = some .hdr := wellFormed.ring.path.2
      refine Or.inr ⟨[], [], ⟨rfl, by simp, by simp⟩, ?_⟩
      simp [registerLocked, empty, Table.insert, target, Links.addHead, Links.addTail, empty']
  | cons first order =>
      have filled : intc.links.next .hdr = some (.isr first) :=
        next_eq_of_path wellFormed.ring.path
      have nonempty : intc.links.next .hdr ≠ some .hdr := by simp [filled]
      simp only [registerLocked, if_neg nonempty]
      rcases findPlace_spec intPri wellFormed.ring.path wellFormed.sorted
        wellFormed.length_lt with ⟨taken, found⟩ | ⟨front, back, slot, found⟩
      · exact Or.inl ⟨taken, by rw [found]⟩
      · refine Or.inr ⟨front, back, slot, ?_⟩
        rw [found]
        cases back <;> rfl

theorem changeHandlerLocked_spec (wellFormed : WellFormed intc order) (intNum : Fin 32)
    (intPri : UInt8) (bufEle : Isr) (isr : UInt32) :
    changeHandlerLocked intc intNum intPri bufEle isr =
      some (intc.setIsr intNum
        (if ∃ number ∈ order, intc.pri number = intPri then { bufEle with isrFunc := isr }
          else bufEle)) := by
  cases order with
  | nil =>
      have empty : intc.links.next .hdr = some .hdr := next_eq_of_path wellFormed.ring.path
      simp [changeHandlerLocked, empty]
  | cons first order =>
      have filled : intc.links.next .hdr = some (.isr first) :=
        next_eq_of_path wellFormed.ring.path
      have nonempty : intc.links.next .hdr ≠ some .hdr := by simp [filled]
      simp only [changeHandlerLocked, if_neg nonempty]
      rw [hasPri_spec wellFormed.ring.path wellFormed.length_lt]
      by_cases taken : ∃ number ∈ first :: order, intc.pri number = intPri
      · rw [if_pos taken, decide_eq_true taken]
      · rw [if_neg taken, decide_eq_false taken]

/-- A registration has written the number of its entry and goes on. -/
def Frame.Numbered (frame : Frame) (number : Fin 32) : Prop :=
  frame.Writes number ∧ frame.place ≠ .writeIntNum

/-- A registration has written the priority of its entry and goes on. -/
def Frame.Ranked (frame : Frame) (number : Fin 32) : Prop :=
  frame.Writes number ∧ frame.place = .locked

/-- The priority has been copied. -/
def Place.copiedPri : Place → Bool
  | .copyNext | .copyPrev | .copyIsrFunc | .copyPri => false
  | _ => true

/-- The number has been copied. -/
def Place.copiedNum : Place → Bool
  | .copyIntNum => false
  | place => place.copiedPri

/-- The fields of an entry that registrations have written. -/
structure Kept (priority : Fin 32 → UInt8) (stack : List Frame) (number : Fin 32)
    (copiedPri copiedNum : Bool) (entry : Isr) : Prop where
  numbered : copiedNum = true → (∃ frame ∈ stack, frame.Numbered number) →
    entry.intNum = UInt8.ofNat number
  ranked : copiedPri = true → (∃ frame ∈ stack, frame.Ranked number) →
    entry.pri = priority number

/-- What a call may rely on when it comes back to a copy it has made. -/
structure Frame.Sound (priority : Fin 32 → UInt8) (intc : Table) (frame : Frame)
    (rest : List Frame) : Prop where
  call_pri : ∀ intPri isr, frame.call = .serviceRegister intPri isr →
    intPri = priority frame.intNum
  unlinked : ¬intc.Registered frame.intNum → frame.bufEle.next = none ∧ frame.bufEle.prev = none
  linked_pri : frame.bufEle.next ≠ none → frame.place.copiedPri = true →
    frame.bufEle.pri = priority frame.intNum
  linked_num : frame.bufEle.next ≠ none → frame.place.copiedNum = true →
    frame.bufEle.intNum = UInt8.ofNat frame.intNum
  linked_read : frame.bufEle.next ≠ none → ∀ isr, frame.call = .serviceChangeHandler isr →
    frame.place = .testIsrFunc ∨ frame.place = .locked → frame.intPri = priority frame.intNum
  kept : Kept priority rest frame.intNum frame.place.copiedPri frame.place.copiedNum frame.bufEle
  zero : ¬intc.Registered frame.intNum → ¬Writing rest frame.intNum → frame.bufEle = .zero
  tested : ∀ isr, frame.call = .serviceChangeHandler isr → frame.place = .locked →
    ¬intc.Registered frame.intNum → Writing rest frame.intNum

/-- All calls of a stack may rely on their copies. -/
def Sounds (priority : Fin 32 → UInt8) (intc : Table) : List Frame → Prop
  | [] => True
  | frame :: rest => frame.Sound priority intc rest ∧ Sounds priority intc rest

/-- What holds besides the claim about the list. -/
structure Strong (priority : Fin 32 → UInt8) (tracked : Tracked) : Prop where
  good : Good tracked
  priority_eq : ∀ number, tracked.intc.Registered number →
    tracked.intc.pri number = priority number
  unlinked : ∀ number, ¬tracked.intc.Registered number →
    tracked.intc.links.next (.isr number) = none ∧ tracked.intc.links.prev (.isr number) = none
  kept : ∀ number, Kept priority tracked.stack number true true (tracked.intc.isr number)
  sounds : Sounds priority tracked.intc tracked.stack

theorem writing_cons {frame : Frame} :
    Writing (frame :: rest) number ↔ frame.Writes number ∨ Writing rest number :=
  List.exists_mem_cons_iff ..

theorem Kept.of_iff {copiedPri copiedNum : Bool}
    (kept : Kept priority stack number copiedPri copiedNum entry)
    (numbered : (∃ frame ∈ stack', frame.Numbered number) → ∃ frame ∈ stack, frame.Numbered number)
    (ranked : (∃ frame ∈ stack', frame.Ranked number) → ∃ frame ∈ stack, frame.Ranked number) :
    Kept priority stack' number copiedPri copiedNum entry :=
  ⟨fun copied some => kept.numbered copied (numbered some),
    fun copied some => kept.ranked copied (ranked some)⟩

theorem Sounds.mono (sounds : Sounds priority intc stack)
    (grows : ∀ number, intc.Registered number → intc'.Registered number) :
    Sounds priority intc' stack := by
  induction stack with
  | nil => trivial
  | cons frame rest induction =>
      obtain ⟨sound, sounds⟩ := sounds
      refine ⟨?_, induction sounds⟩
      exact { sound with
        unlinked := fun outside => sound.unlinked (mt (grows _) outside)
        zero := fun outside => sound.zero (mt (grows _) outside)
        tested := fun isr call place outside => sound.tested isr call place (mt (grows _) outside) }

theorem Strong.restack (strong : Strong priority ⟨intc, stack, handler⟩)
    (writers : ∀ frame number, frame.Writes number → (frame ∈ stack' ↔ frame ∈ stack))
    (sounds : Sounds priority intc stack') : Strong priority ⟨intc, stack', handler⟩ := by
  have same (number : Fin 32) : Writing stack' number ↔ Writing stack number :=
    exists_congr fun frame => and_congr_left (writers frame number)
  constructor
  · constructor
    · exact strong.good.list
    · exact fun number inside free =>
        strong.good.handler_eq number inside (mt (same number).mpr free)
    · exact fun number outside free => strong.good.zero number outside (mt (same number).mpr free)
    · exact strong.good.serves
  · exact strong.priority_eq
  · exact strong.unlinked
  · intro number
    refine (strong.kept number).of_iff ?_ ?_ <;>
    · rintro ⟨frame, member, written⟩
      exact ⟨frame, (writers frame number written.1).mp member, written⟩
  · exact sounds

theorem mem_cons_iff_of_not_writes {frame other : Frame} (idle : ∀ number, ¬frame.Writes number)
    (writes : other.Writes number) : other ∈ frame :: rest ↔ other ∈ rest := by
  rw [List.mem_cons, or_iff_right]
  rintro rfl
  exact idle number writes

theorem Strong.enter (strong : Strong priority tracked) (intNum : Fin 32) (call : Call)
    (call_pri : ∀ intPri isr, call = .serviceRegister intPri isr → intPri = priority intNum) :
    Strong priority { tracked with stack := .enter intNum call :: tracked.stack } := by
  have idle (number : Fin 32) : ¬(Frame.enter intNum call).Writes number := by
    rintro ⟨-, -, place | place | place⟩ <;> exact absurd place (by simp [Frame.enter])
  refine strong.restack (fun other number => mem_cons_iff_of_not_writes idle) ⟨?_, strong.sounds⟩
  exact {
    call_pri
    unlinked := fun _ => ⟨rfl, rfl⟩
    linked_pri := fun linked => absurd rfl linked
    linked_num := fun linked => absurd rfl linked
    linked_read := fun linked => absurd rfl linked
    kept := ⟨fun copied => absurd copied Bool.false_ne_true,
      fun copied => absurd copied Bool.false_ne_true⟩
    zero := fun _ _ => rfl
    tested := fun _ _ place => absurd place (by simp [Frame.enter]) }

section
variable {priority : Fin 32 → UInt8} {intc : Table} {frame frame' : Frame} {rest : List Frame}
  {handler : Fin 32 → UInt32}

section

variable (strong : Strong priority ⟨intc, frame :: rest, handler⟩)
  (idle : ∀ number, ¬frame.Writes number)
include strong idle

theorem Strong.move (idle' : ∀ number, ¬frame'.Writes number)
    (sound : frame'.Sound priority intc rest) : Strong priority ⟨intc, frame' :: rest, handler⟩ :=
  strong.restack
    (fun _ _ writes => (mem_cons_iff_of_not_writes idle' writes).trans
      (mem_cons_iff_of_not_writes idle writes).symm) ⟨sound, strong.sounds.2⟩

theorem Strong.drop : Strong priority ⟨intc, rest, handler⟩ :=
  strong.restack (fun _ _ writes => (mem_cons_iff_of_not_writes idle writes).symm) strong.sounds.2

theorem Strong.entry_zero (outside : ¬intc.Registered frame.intNum)
    (free : ¬Writing rest frame.intNum) : intc.isr frame.intNum = .zero := by
  refine strong.good.zero _ outside ?_
  rw [writing_cons, not_or]
  exact ⟨idle _, free⟩

end

theorem Strong.kept_rest (strong : Strong priority ⟨intc, frame :: rest, handler⟩)
    (number : Fin 32) : Kept priority rest number true true (intc.isr number) := by
  refine (strong.kept number).of_iff ?_ ?_ <;>
  · rintro ⟨other, member, written⟩
    exact ⟨other, List.mem_cons_of_mem _ member, written⟩

theorem Frame.Sound.registered (sound : frame.Sound priority intc rest)
    (linked : frame.bufEle.next ≠ none) : intc.Registered frame.intNum := by
  by_contra outside
  exact linked (sound.unlinked outside).1

/-- A field of the entry is copied that is no priority and no number. -/
theorem Frame.Sound.copyField (sound : frame.Sound priority intc rest) (bufEle : Isr)
    (place : Place)
    (unlinked : ¬intc.Registered frame.intNum → bufEle.next = none ∧ bufEle.prev = none)
    (zero : ¬intc.Registered frame.intNum → ¬Writing rest frame.intNum → bufEle = .zero)
    (copies : place = .copyPrev ∨ place = .copyIsrFunc ∨ place = .copyPri) :
    Frame.Sound priority intc { frame with bufEle, place } rest := by
  have early : place.copiedPri = false ∧ place.copiedNum = false ∧ place ≠ .testIsrFunc ∧
      place ≠ .locked := by
    rcases copies with rfl | rfl | rfl <;> decide
  obtain ⟨noPri, noNum, noTest, noLock⟩ := early
  exact {
    call_pri := sound.call_pri
    unlinked
    linked_pri := fun _ copied => absurd (noPri.symm.trans copied) Bool.false_ne_true
    linked_num := fun _ copied => absurd (noNum.symm.trans copied) Bool.false_ne_true
    linked_read := fun _ _ _ read => absurd read (not_or.mpr ⟨noTest, noLock⟩)
    kept := ⟨fun copied => absurd (noNum.symm.trans copied) Bool.false_ne_true,
      fun copied => absurd (noPri.symm.trans copied) Bool.false_ne_true⟩
    zero
    tested := fun _ _ locked => absurd locked noLock }

theorem not_writes_of_place (intNum : Fin 32) (call : Call) {place : Place} (bufEle : Isr)
    (intPri : UInt8) (early : place ≠ .writeIntNum ∧ place ≠ .writePri ∧ place ≠ .locked)
    (number : Fin 32) : ¬(Frame.mk intNum call place bufEle intPri).Writes number := by
  rintro ⟨-, -, here | here | here⟩
  · exact early.1 here
  · exact early.2.1 here
  · exact early.2.2 here

variable {intNum : Fin 32} {bufEle : Isr} {intPri newPri : UInt8} {place' : Place}

/-- The next field of an entry is copied. -/
theorem Strong.copy {call : Call} {place : Place}
    (strong : Strong priority ⟨intc, ⟨intNum, call, place, bufEle, intPri⟩ :: rest, handler⟩)
    (copying : place = .copyNext ∨ place = .copyPrev ∨ place = .copyIsrFunc ∨
      place = .copyPri ∨ place = .copyIntNum)
    (moved : (Frame.mk intNum call place bufEle intPri).step intc = some (intc, some frame')) :
    Strong priority ⟨intc, frame' :: rest, handler⟩ := by
  have sound := strong.sounds.1
  have early : place ≠ .writeIntNum ∧ place ≠ .writePri ∧ place ≠ .locked := by
    rcases copying with rfl | rfl | rfl | rfl | rfl <;> decide
  have idle := not_writes_of_place intNum call bufEle intPri early
  have entry_zero := strong.entry_zero idle
  have unlinked := strong.unlinked intNum
  have kept := strong.kept_rest intNum
  rcases copying with rfl | rfl | rfl | rfl | rfl
  · obtain rfl : _ = frame' := by simpa [Frame.step] using moved
    refine strong.move idle (not_writes_of_place _ _ _ _ (by decide))
      (sound.copyField _ _ ?_ ?_ (by decide))
    · exact fun outside => ⟨(unlinked outside).1, (sound.unlinked outside).2⟩
    · intro outside free
      rw [show bufEle = .zero from sound.zero outside free, entry_zero outside free]
  · obtain rfl : _ = frame' := by simpa [Frame.step] using moved
    refine strong.move idle (not_writes_of_place _ _ _ _ (by decide))
      (sound.copyField _ _ ?_ ?_ (by decide))
    · exact fun outside => ⟨(sound.unlinked outside).1, (unlinked outside).2⟩
    · intro outside free
      rw [show bufEle = .zero from sound.zero outside free, entry_zero outside free]
  · obtain rfl : _ = frame' := by simpa [Frame.step] using moved
    refine strong.move idle (not_writes_of_place _ _ _ _ (by decide))
      (sound.copyField _ _ sound.unlinked ?_ (by decide))
    intro outside free
    rw [show bufEle = .zero from sound.zero outside free, entry_zero outside free]
  · obtain rfl : _ = frame' := by simpa [Frame.step] using moved
    refine strong.move idle (not_writes_of_place _ _ _ _ (by decide)) ?_
    exact {
      call_pri := sound.call_pri
      unlinked := sound.unlinked
      linked_pri := fun linked _ => strong.priority_eq intNum (sound.registered linked)
      linked_num := fun _ copied => absurd copied Bool.false_ne_true
      linked_read := fun _ _ _ read => absurd read (by simp)
      kept := ⟨fun copied => absurd copied Bool.false_ne_true, fun _ => kept.ranked rfl⟩
      zero := fun outside free => by
        rw [show bufEle = .zero from sound.zero outside free, entry_zero outside free]
      tested := fun _ _ locked => absurd locked (by simp) }
  · have copied {next : Place} (later : next = .writeIsrFunc ∨ next = .readPri) :
        Frame.Sound priority intc
          ⟨intNum, call, next, { bufEle with intNum := intc.intNum intNum }, intPri⟩ rest := by
      have places : next.copiedPri = true ∧ next ≠ .testIsrFunc ∧ next ≠ .locked := by
        rcases later with rfl | rfl <;> decide
      obtain ⟨order, wellFormed⟩ := strong.good.list
      exact {
        call_pri := sound.call_pri
        unlinked := sound.unlinked
        linked_pri := fun linked _ => sound.linked_pri linked rfl
        linked_num := fun linked _ =>
          wellFormed.numbered intNum ((wellFormed.mask intNum).mpr (sound.registered linked))
        linked_read := fun _ _ _ read => absurd read (not_or.mpr places.2)
        kept := ⟨fun _ => kept.numbered rfl, fun _ => sound.kept.ranked rfl⟩
        zero := fun outside free => by
          have entry := entry_zero outside free
          rw [show bufEle = .zero from sound.zero outside free]
          exact congrArg (fun isr : Isr => { Isr.zero with intNum := isr.intNum }) entry
        tested := fun _ _ locked => absurd locked places.2.2 }
    cases call with
    | serviceRegister newPri isr =>
        obtain rfl : _ = frame' := by simpa [Frame.step] using moved
        exact strong.move idle (not_writes_of_place _ _ _ _ (by decide)) (copied (Or.inl rfl))
    | serviceChangeHandler isr =>
        obtain rfl : _ = frame' := by simpa [Frame.step] using moved
        exact strong.move idle (not_writes_of_place _ _ _ _ (by decide)) (copied (Or.inr rfl))

theorem Strong.readPri {isr : UInt32} (strong : Strong priority
      ⟨intc, ⟨intNum, .serviceChangeHandler isr, .readPri, bufEle, intPri⟩ :: rest, handler⟩) :
    Strong priority
      ⟨intc, ⟨intNum, .serviceChangeHandler isr, .testIsrFunc, bufEle, intc.pri intNum⟩ :: rest,
        handler⟩ := by
  have sound := strong.sounds.1
  refine strong.move (not_writes_of_place _ _ _ _ (by decide))
    (not_writes_of_place _ _ _ _ (by decide)) ?_
  exact {
    call_pri := sound.call_pri
    unlinked := sound.unlinked
    linked_pri := sound.linked_pri
    linked_num := sound.linked_num
    linked_read := fun linked _ _ _ => strong.priority_eq intNum (sound.registered linked)
    kept := sound.kept
    zero := sound.zero
    tested := fun _ _ locked => absurd locked (by simp) }

theorem Strong.testIsrFunc {isr : UInt32} (strong : Strong priority
      ⟨intc, ⟨intNum, .serviceChangeHandler isr, .testIsrFunc, bufEle, intPri⟩ :: rest, handler⟩)
    (set : intc.isrFunc intNum ≠ 0) :
    Strong priority
      ⟨intc, ⟨intNum, .serviceChangeHandler isr, .locked, bufEle, intPri⟩ :: rest, handler⟩ := by
  have sound := strong.sounds.1
  have early : Place.testIsrFunc ≠ .writeIntNum ∧ Place.testIsrFunc ≠ .writePri ∧
      Place.testIsrFunc ≠ .locked := by decide
  have idle := not_writes_of_place intNum (.serviceChangeHandler isr) bufEle intPri early
  refine strong.move idle ?_ ?_
  · rintro number ⟨-, ⟨newPri, handler', call⟩, -⟩
    exact absurd call (by simp)
  exact {
    call_pri := sound.call_pri
    unlinked := sound.unlinked
    linked_pri := sound.linked_pri
    linked_num := sound.linked_num
    linked_read := fun linked isr' call _ => sound.linked_read linked isr' call (Or.inl rfl)
    kept := sound.kept
    zero := sound.zero
    tested := fun _ _ _ outside => by
      by_contra free
      exact set (congrArg Isr.isrFunc (strong.entry_zero idle outside free)) }

/-- A registration that has copied its entry goes on. -/
theorem Frame.Sound.next_place {isr : UInt32} {place : Place}
    (sound : Frame.Sound priority intc ⟨intNum, .serviceRegister newPri isr, place, bufEle, intPri⟩
      rest) (copied : place.copiedPri = true ∧ place.copiedNum = true) {intc' : Table}
    (mask_eq : intc'.isrsMask = intc.isrsMask) :
    Frame.Sound priority intc' ⟨intNum, .serviceRegister newPri isr, place', bufEle, intPri⟩
      rest := by
  have same : intc'.Registered intNum ↔ intc.Registered intNum := by
    rw [Table.Registered, mask_eq, Table.Registered]
  exact {
    call_pri := sound.call_pri
    unlinked := fun outside => sound.unlinked (mt same.mpr outside)
    linked_pri := fun linked _ => sound.linked_pri linked copied.1
    linked_num := fun linked _ => sound.linked_num linked copied.2
    linked_read := fun _ _ call => absurd call (by simp)
    kept := ⟨fun _ => sound.kept.numbered copied.2, fun _ => sound.kept.ranked copied.1⟩
    zero := fun outside => sound.zero (mt same.mpr outside)
    tested := fun _ call => absurd call (by simp) }

/-- A registration writes a field of its entry. -/
theorem Strong.write {isr : UInt32} {place : Place} {isrFunc : Fin 32 → UInt32}
    {pri number : Fin 32 → UInt8} (strong : Strong priority
      ⟨intc, ⟨intNum, .serviceRegister newPri isr, place, bufEle, intPri⟩ :: rest, handler⟩)
    (copied : place.copiedPri = true ∧ place.copiedNum = true)
    (writes' : place' = .writeIntNum ∨ place' = .writePri ∨ place' = .locked)
    (other : ∀ index, index ≠ intNum → isrFunc index = intc.isrFunc index ∧
      pri index = intc.pri index ∧ number index = intc.intNum index)
    (own : intc.Registered intNum → pri intNum = intc.pri intNum ∧
      number intNum = intc.intNum intNum)
    (kept : Kept priority (⟨intNum, .serviceRegister newPri isr, place', bufEle, intPri⟩ :: rest)
      intNum true true (Table.isr { intc with isrFunc, pri, intNum := number } intNum)) :
    Strong priority ⟨{ intc with isrFunc, pri, intNum := number },
      ⟨intNum, .serviceRegister newPri isr, place', bufEle, intPri⟩ :: rest, handler⟩ := by
  have fields (index : Fin 32) (inside : intc.Registered index) :
      pri index = intc.pri index ∧ number index = intc.intNum index := by
    by_cases same : index = intNum
    · subst same
      exact own inside
    · exact (other index same).2
  have free {index : Fin 32} (unwritten : ¬Writing
      (⟨intNum, .serviceRegister newPri isr, place', bufEle, intPri⟩ :: rest) index) :
      index ≠ intNum ∧ ¬Writing
        (⟨intNum, .serviceRegister newPri isr, place, bufEle, intPri⟩ :: rest) index := by
    rw [writing_cons, not_or] at unwritten
    have different : index ≠ intNum := by
      rintro rfl
      exact unwritten.1 ⟨rfl, ⟨newPri, isr, rfl⟩, writes'⟩
    refine ⟨different, ?_⟩
    rw [writing_cons, not_or]
    exact ⟨fun writes => different writes.1.symm, unwritten.2⟩
  have list : ∃ order, WellFormed { intc with isrFunc, pri, intNum := number } order := by
    obtain ⟨order, wellFormed⟩ := strong.good.list
    refine ⟨order, wellFormed.ring, ?_, ?_, wellFormed.mask⟩
    · refine wellFormed.sorted.imp_of_mem ?_
      intro left right left_mem right_mem below
      show pri left < pri right
      rw [(fields left ((wellFormed.mask left).mp left_mem)).1,
        (fields right ((wellFormed.mask right).mp right_mem)).1]
      exact below
    · intro index member
      exact (fields index ((wellFormed.mask index).mp member)).2.trans
        (wellFormed.numbered index member)
  constructor
  · constructor
    · exact list
    · intro index inside unwritten
      obtain ⟨different, unwritten⟩ := free unwritten
      exact (other index different).1.trans (strong.good.handler_eq index inside unwritten)
    · intro index outside unwritten
      obtain ⟨different, unwritten⟩ := free unwritten
      obtain ⟨isrFunc_eq, pri_eq, number_eq⟩ := other index different
      rw [← strong.good.zero index outside unwritten]
      simp [Table.isr, isrFunc_eq, pri_eq, number_eq]
    · obtain ⟨order, wellFormed⟩ := list
      exact wellFormed.serves
  · exact fun index inside => (fields index inside).1.trans (strong.priority_eq index inside)
  · exact strong.unlinked
  · intro index
    by_cases same : index = intNum
    · subst same
      exact kept
    · obtain ⟨isrFunc_eq, pri_eq, number_eq⟩ := other index same
      have unchanged : Table.isr { intc with isrFunc, pri, intNum := number } index =
          intc.isr index := by
        simp [Table.isr, isrFunc_eq, pri_eq, number_eq]
      rw [unchanged]
      refine (strong.kept_rest index).of_iff ?_ ?_ <;>
      · rw [List.exists_mem_cons_iff]
        rintro (own | later)
        · exact absurd own.1.1.symm same
        · exact later
  · exact ⟨strong.sounds.1.next_place copied rfl, strong.sounds.2.mono fun _ inside => inside⟩

theorem update_other {value : Type*} (field : Fin 32 → value) {index : Fin 32} (written : value)
    (different : index ≠ intNum) : Function.update field intNum written index = field index :=
  Function.update_of_ne different written field

theorem Strong.writeIsrFunc {isr : UInt32} (strong : Strong priority
      ⟨intc, ⟨intNum, .serviceRegister newPri isr, .writeIsrFunc, bufEle, intPri⟩ :: rest,
        handler⟩) :
    Strong priority ⟨{ intc with isrFunc := Function.update intc.isrFunc intNum isr },
      ⟨intNum, .serviceRegister newPri isr, .writeIntNum, bufEle, intPri⟩ :: rest, handler⟩ := by
  refine strong.write (by decide) (by decide)
    (fun index different => ⟨update_other _ _ different, rfl, rfl⟩) (fun _ => ⟨rfl, rfl⟩) ?_
  have kept := strong.kept_rest intNum
  constructor
  · rintro copied ⟨frame, member, written⟩
    rcases List.mem_cons.mp member with rfl | member
    · exact absurd rfl written.2
    · exact kept.numbered copied ⟨frame, member, written⟩
  · rintro copied ⟨frame, member, written⟩
    rcases List.mem_cons.mp member with rfl | member
    · exact absurd written.2 (by simp)
    · exact kept.ranked copied ⟨frame, member, written⟩

theorem Strong.writeIntNum {isr : UInt32} (strong : Strong priority
      ⟨intc, ⟨intNum, .serviceRegister newPri isr, .writeIntNum, bufEle, intPri⟩ :: rest,
        handler⟩) :
    Strong priority
      ⟨{ intc with intNum := Function.update intc.intNum intNum (UInt8.ofNat intNum) },
        ⟨intNum, .serviceRegister newPri isr, .writePri, bufEle, intPri⟩ :: rest, handler⟩ := by
  have kept := strong.kept_rest intNum
  obtain ⟨order, wellFormed⟩ := strong.good.list
  refine strong.write (by decide) (by decide)
    (fun index different => ⟨rfl, rfl, update_other _ _ different⟩) (fun inside => ⟨rfl, ?_⟩) ?_
  · rw [Function.update_self]
    exact (wellFormed.numbered intNum ((wellFormed.mask intNum).mpr inside)).symm
  · refine ⟨fun _ _ => Function.update_self .., ?_⟩
    rintro copied ⟨frame, member, written⟩
    rcases List.mem_cons.mp member with rfl | member
    · exact absurd written.2 (by simp)
    · exact kept.ranked copied ⟨frame, member, written⟩

theorem Strong.writePri {isr : UInt32} (strong : Strong priority
      ⟨intc, ⟨intNum, .serviceRegister newPri isr, .writePri, bufEle, intPri⟩ :: rest,
        handler⟩) : Strong priority ⟨{ intc with pri := Function.update intc.pri intNum newPri },
      ⟨intNum, .serviceRegister newPri isr, .locked, bufEle, intPri⟩ :: rest, handler⟩ := by
  have own_pri : newPri = priority intNum := strong.sounds.1.call_pri newPri isr rfl
  refine strong.write (by decide) (by decide)
    (fun index different => ⟨rfl, update_other _ _ different, rfl⟩) (fun inside => ⟨?_, rfl⟩) ?_
  · rw [Function.update_self, own_pri]
    exact (strong.priority_eq intNum inside).symm
  · refine ⟨fun copied _ => (strong.kept intNum).numbered copied ?_,
      fun _ _ => (Function.update_self ..).trans own_pri⟩
    exact ⟨_, List.mem_cons_self, ⟨rfl, ⟨newPri, isr, rfl⟩, Or.inr (Or.inl rfl)⟩, by simp⟩

end

theorem links_setIsr (next_eq : entry.next = intc.links.next (.isr intNum))
    (prev_eq : entry.prev = intc.links.prev (.isr intNum)) :
    (intc.setIsr intNum entry).links = intc.links := by
  ext1
  · show Function.update _ _ _ = _
    rw [next_eq, Function.update_eq_self]
  · show Function.update _ _ _ = _
    rw [prev_eq, Function.update_eq_self]

theorem isr_setIsr (intc : Table) (intNum : Fin 32) (entry : Isr) :
    (intc.setIsr intNum entry).isr intNum = entry := by
  simp [Table.isr, Table.setIsr]

theorem isr_setIsr_of_ne (intc : Table) {other : Fin 32} (entry : Isr)
    (different : other ≠ intNum) : (intc.setIsr intNum entry).isr other = intc.isr other := by
  simp [Table.isr, Table.setIsr, different]

section
variable {priority : Fin 32 → UInt8} {intc : Table} {frame : Frame} {rest : List Frame}
  {handler : Fin 32 → UInt32}

variable {index : Fin 32} {back order front : List (Fin 32)} {intNum : Fin 32}

theorem not_writing_of_rest (different : index ≠ frame.intNum) (free : ¬Writing rest index) :
    ¬Writing (frame :: rest) index := by
  rw [writing_cons, not_or]
  exact ⟨fun writes => different writes.1.symm, free⟩

/-- A call writes its entry back, with the links that the entry has, and returns. -/
theorem Strong.writeBack (strong : Strong priority ⟨intc, frame :: rest, handler⟩) {entry : Isr}
    (handler' : Fin 32 → UInt32)
    (next_eq : entry.next = intc.links.next (.isr frame.intNum))
    (prev_eq : entry.prev = intc.links.prev (.isr frame.intNum))
    (fields : intc.Registered frame.intNum → entry.pri = priority frame.intNum ∧
      entry.intNum = UInt8.ofNat frame.intNum)
    (kept : Kept priority rest frame.intNum true true entry)
    (handler_eq : intc.Registered frame.intNum → ¬Writing rest frame.intNum →
      entry.isrFunc = handler' frame.intNum)
    (others : ∀ index, index ≠ frame.intNum → handler' index = handler index)
    (zero : ¬intc.Registered frame.intNum → ¬Writing rest frame.intNum → entry = .zero) :
    Strong priority ⟨intc.setIsr frame.intNum entry, rest, handler'⟩ := by
  have links_eq := links_setIsr next_eq prev_eq
  have pri_eq (index : Fin 32) (inside : intc.Registered index) :
      (intc.setIsr frame.intNum entry).pri index = priority index := by
    by_cases same : index = frame.intNum
    · subst same
      exact (congrArg Isr.pri (isr_setIsr intc _ entry)).trans (fields inside).1
    · exact (congrArg Isr.pri (isr_setIsr_of_ne intc entry same)).trans
        (strong.priority_eq index inside)
  have list : ∃ order, WellFormed (intc.setIsr frame.intNum entry) order := by
    obtain ⟨order, wellFormed⟩ := strong.good.list
    refine ⟨order, links_eq.symm ▸ wellFormed.ring, ?_, ?_, wellFormed.mask⟩
    · refine wellFormed.sorted.imp_of_mem ?_
      intro left right left_mem right_mem below
      have left_in := (wellFormed.mask left).mp left_mem
      have right_in := (wellFormed.mask right).mp right_mem
      rw [pri_eq left left_in, pri_eq right right_in, ← strong.priority_eq left left_in,
        ← strong.priority_eq right right_in]
      exact below
    · intro index member
      by_cases same : index = frame.intNum
      · subst same
        exact (congrArg Isr.intNum (isr_setIsr intc _ entry)).trans
          (fields ((wellFormed.mask _).mp member)).2
      · exact (congrArg Isr.intNum (isr_setIsr_of_ne intc entry same)).trans
          (wellFormed.numbered index member)
  constructor
  · constructor
    · exact list
    · intro index inside free
      by_cases same : index = frame.intNum
      · subst same
        exact (congrArg Isr.isrFunc (isr_setIsr intc _ entry)).trans (handler_eq inside free)
      · exact ((congrArg Isr.isrFunc (isr_setIsr_of_ne intc entry same)).trans
          (strong.good.handler_eq index inside (not_writing_of_rest same free))).trans
            (others index same).symm
    · intro index outside free
      by_cases same : index = frame.intNum
      · subst same
        exact (isr_setIsr intc _ entry).trans (zero outside free)
      · exact (isr_setIsr_of_ne intc entry same).trans
          (strong.good.zero index outside (not_writing_of_rest same free))
    · obtain ⟨order, wellFormed⟩ := list
      exact wellFormed.serves
  · exact pri_eq
  · intro index outside
    rw [links_eq]
    exact strong.unlinked index outside
  · intro index
    by_cases same : index = frame.intNum
    · subst same
      rw [isr_setIsr]
      exact kept
    · rw [isr_setIsr_of_ne intc entry same]
      exact strong.kept_rest index
  · exact strong.sounds.2.mono fun _ inside => inside

theorem registered_insert (intc : Table) (intNum index : Fin 32) (back : List (Fin 32)) :
    (intc.insert intNum back).Registered index ↔ intc.Registered index ∨ index = intNum :=
  getLsbD_or_bit intc.isrsMask intNum index

theorem WellFormed.insert (wellFormed : WellFormed intc order)
    (slot : Slot intc (intc.pri intNum) order front back)
    (number_eq : intc.intNum intNum = UInt8.ofNat intNum) :
    WellFormed (intc.insert intNum back) (front ++ intNum :: back) := by
  have order_eq := slot.order_eq
  subst order_eq
  have fresh : intNum ∉ front ++ back := by
    intro member
    rcases List.mem_append.mp member with member | member
    · exact UInt8.lt_irrefl _ (slot.higher intNum member)
    · exact UInt8.lt_irrefl _ (slot.lower intNum member)
  have ring := wellFormed.ring
  rw [List.map_append] at ring
  constructor
  · have outside : Node.isr intNum ∉ Node.hdr :: (front.map Node.isr ++ back.map Node.isr) := by
      rw [← List.map_append, List.mem_cons, not_or]
      refine ⟨by simp, fun member => fresh ?_⟩
      obtain ⟨index, member, equal⟩ := List.mem_map.mp member
      exact Node.isr.inj equal ▸ member
    rw [List.map_append]
    exact ring.addTail outside
  · show (front ++ intNum :: back).Pairwise fun left right => intc.pri left < intc.pri right
    obtain ⟨sorted_front, sorted_back, across⟩ := List.pairwise_append.mp wellFormed.sorted
    refine List.pairwise_append.mpr ⟨sorted_front, List.pairwise_cons.mpr
      ⟨slot.lower, sorted_back⟩, ?_⟩
    intro left left_mem right right_mem
    rcases List.mem_cons.mp right_mem with rfl | right_mem
    · exact slot.higher left left_mem
    · exact across left left_mem right right_mem
  · intro index member
    rcases List.mem_append.mp member with member | member
    · exact wellFormed.numbered index (List.mem_append_left _ member)
    · rcases List.mem_cons.mp member with rfl | member
      · exact number_eq
      · exact wellFormed.numbered index (List.mem_append_right _ member)
  · intro index
    rw [registered_insert, ← wellFormed.mask index, List.mem_append, List.mem_append, List.mem_cons]
    tauto

/-- The links of an entry outside the list are not changed by an insertion. -/
theorem WellFormed.links_insert (wellFormed : WellFormed intc order) {intPri : UInt8}
    (slot : Slot intc intPri order front back) (different : index ≠ intNum)
    (outside : index ∉ order) :
    (intc.insert intNum back).links.next (.isr index) = intc.links.next (.isr index) ∧
      (intc.insert intNum back).links.prev (.isr index) = intc.links.prev (.isr index) := by
  have ring := wellFormed.ring
  rw [slot.order_eq, List.map_append] at ring
  refine ring.addTail_frame ?_ (by simpa using different)
  rw [← List.map_append, ← slot.order_eq, List.mem_cons, not_or]
  refine ⟨by simp, fun member => outside ?_⟩
  obtain ⟨other, member, equal⟩ := List.mem_map.mp member
  exact Node.isr.inj equal ▸ member

/-- A registration puts its entry in the list and returns. -/
theorem Strong.insert (strong : Strong priority ⟨intc, frame :: rest, handler⟩)
    (handler' : Fin 32 → UInt32) (wellFormed : WellFormed intc order)
    (slot : Slot intc (intc.pri frame.intNum) order front back)
    (number_eq : intc.intNum frame.intNum = UInt8.ofNat frame.intNum)
    (pri_eq : intc.pri frame.intNum = priority frame.intNum)
    (own : handler' frame.intNum = intc.isrFunc frame.intNum)
    (others : ∀ index, index ≠ frame.intNum → handler' index = handler index) :
    Strong priority ⟨intc.insert frame.intNum back, rest, handler'⟩ := by
  have inserted := wellFormed.insert slot number_eq
  have earlier {index : Fin 32} (inside : (intc.insert frame.intNum back).Registered index)
      (different : index ≠ frame.intNum) : intc.Registered index :=
    ((registered_insert intc _ index back).mp inside).resolve_right different
  have later {index : Fin 32} (outside : ¬(intc.insert frame.intNum back).Registered index) :
      ¬intc.Registered index ∧ index ≠ frame.intNum :=
    not_or.mp (mt (registered_insert intc _ index back).mpr outside)
  have links_eq {index : Fin 32} (outside : ¬(intc.insert frame.intNum back).Registered index) :=
    wellFormed.links_insert slot (later outside).2
      (mt (wellFormed.mask index).mp (later outside).1)
  constructor
  · constructor
    · exact ⟨_, inserted⟩
    · intro index inside free
      by_cases same : index = frame.intNum
      · subst same
        exact own.symm
      · exact (strong.good.handler_eq index (earlier inside same)
          (not_writing_of_rest same free)).trans (others index same).symm
    · intro index outside free
      obtain ⟨next_eq, prev_eq⟩ := links_eq outside
      rw [← strong.good.zero index (later outside).1 (not_writing_of_rest (later outside).2 free)]
      exact Isr.ext next_eq prev_eq rfl rfl rfl
    · exact inserted.serves
  · intro index inside
    by_cases same : index = frame.intNum
    · subst same
      exact pri_eq
    · exact strong.priority_eq index (earlier inside same)
  · intro index outside
    obtain ⟨next_eq, prev_eq⟩ := links_eq outside
    rw [next_eq, prev_eq]
    exact strong.unlinked index (later outside).1
  · intro index
    have kept := strong.kept_rest index
    exact ⟨kept.numbered, kept.ranked⟩
  · exact strong.sounds.2.mono fun index inside =>
      (registered_insert intc _ index back).mpr (Or.inl inside)

end

theorem advance_returned {frame : Frame} (rest : List Frame) (handler : Fin 32 → UInt32)
    (returned : frame.step intc = some (intc', none)) :
    Tracked.advance ⟨intc, frame :: rest, handler⟩ =
      ⟨intc', rest, handlerAfter frame intc intc' handler⟩ := by
  simp only [Tracked.advance, returned]
  rfl

theorem advance_moved {frame frame' : Frame} (rest : List Frame) (handler : Fin 32 → UInt32)
    (moved : frame.step intc = some (intc', some frame')) (unlocked : frame.place ≠ .locked) :
    Tracked.advance ⟨intc, frame :: rest, handler⟩ = ⟨intc', frame' :: rest, handler⟩ := by
  have same : handlerAfter frame intc intc' handler = handler := by
    unfold handlerAfter
    split
    · exact absurd (by assumption) unlocked
    · exact absurd (by assumption) unlocked
    · rfl
  simp only [Tracked.advance, moved, same]
  rfl

section
variable {priority : Fin 32 → UInt8} {intc : Table} {rest : List Frame} {handler : Fin 32 → UInt32}
  {intNum : Fin 32} {intPri newPri : UInt8} {isr : UInt32} {bufEle : Isr}

variable {intc' : Table}

theorem step_registerLocked (locked : registerLocked intc intNum newPri bufEle = some intc') :
    (Frame.mk intNum (.serviceRegister newPri isr) .locked bufEle intPri).step intc =
      some (intc', none) := by
  simp [Frame.step, locked]

theorem step_changeHandlerLocked
    (locked : changeHandlerLocked intc intNum intPri bufEle isr = some intc') :
    (Frame.mk intNum (.serviceChangeHandler isr) .locked bufEle intPri).step intc =
      some (intc', none) := by
  simp [Frame.step, locked]

theorem Strong.links_eq {call : Call} (strong : Strong priority
      ⟨intc, ⟨intNum, call, .locked, bufEle, intPri⟩ :: rest, handler⟩)
    (inside : intc.Registered intNum → bufEle.next = intc.links.next (.isr intNum) ∧
      bufEle.prev = intc.links.prev (.isr intNum)) :
    bufEle.next = intc.links.next (.isr intNum) ∧ bufEle.prev = intc.links.prev (.isr intNum) := by
  by_cases registered : intc.Registered intNum
  · exact inside registered
  · obtain ⟨next_eq, prev_eq⟩ := strong.sounds.1.unlinked registered
    obtain ⟨next_eq', prev_eq'⟩ := strong.unlinked intNum registered
    exact ⟨next_eq.trans next_eq'.symm, prev_eq.trans prev_eq'.symm⟩

theorem WellFormed.next_ne_none {order : List (Fin 32)} (wellFormed : WellFormed intc order)
    {index : Fin 32} (inside : intc.Registered index) : intc.links.next (.isr index) ≠ none :=
  wellFormed.ring.path.next_ne_none _ (List.mem_map_of_mem ((wellFormed.mask index).mpr inside))

section

variable
  (strong : Strong priority
    ⟨intc, ⟨intNum, .serviceRegister newPri isr, .locked, bufEle, intPri⟩ :: rest, handler⟩)
include strong

theorem Strong.own_fields :
    newPri = priority intNum ∧ intc.pri intNum = priority intNum ∧
      intc.intNum intNum = UInt8.ofNat intNum := by
  have writes : (Frame.mk intNum (.serviceRegister newPri isr) .locked bufEle intPri).Writes
      intNum := ⟨rfl, ⟨newPri, isr, rfl⟩, Or.inr (Or.inr rfl)⟩
  have kept := strong.kept intNum
  exact ⟨strong.sounds.1.call_pri newPri isr rfl,
    kept.ranked rfl ⟨_, List.mem_cons_self, writes, rfl⟩,
    kept.numbered rfl ⟨_, List.mem_cons_self, writes, by simp⟩⟩

/-- A registration with interrupts disabled: it is rejected and writes its copy back, or it puts in
an entry that was not in the list. -/
theorem Strong.registerLocked_cases :
    registerLocked intc intNum newPri bufEle = some (intc.setIsr intNum bufEle) ∨
      ¬intc.Registered intNum ∧ ∃ order front back, WellFormed intc order ∧
        Slot intc (intc.pri intNum) order front back ∧
        registerLocked intc intNum newPri bufEle = some (intc.insert intNum back) := by
  obtain ⟨newPri_eq, pri_eq, -⟩ := strong.own_fields
  obtain ⟨order, wellFormed⟩ := strong.good.list
  rcases registerLocked_spec wellFormed intNum newPri bufEle with
    ⟨-, rejected⟩ | ⟨front, back, slot, accepted⟩
  · exact Or.inl rejected
  · rw [newPri_eq, ← pri_eq] at slot
    refine Or.inr ⟨?_, order, front, back, wellFormed, slot, accepted⟩
    intro inside
    have member := (wellFormed.mask intNum).mpr inside
    rw [slot.order_eq] at member
    rcases List.mem_append.mp member with member | member
    · exact UInt8.lt_irrefl _ (slot.higher intNum member)
    · exact UInt8.lt_irrefl _ (slot.lower intNum member)

/-- A registration that leaves the entry of the list as it was set last keeps what holds. -/
theorem Strong.registerLocked (restores : Restores
      ⟨intc, ⟨intNum, .serviceRegister newPri isr, .locked, bufEle, intPri⟩ :: rest, handler⟩
      .advance) :
    Strong priority (Tracked.advance
      ⟨intc, ⟨intNum, .serviceRegister newPri isr, .locked, bufEle, intPri⟩ :: rest, handler⟩) := by
  have sound := strong.sounds.1
  have restored := restores _ rest rfl rfl
  obtain ⟨newPri_eq, pri_eq, number_eq⟩ := strong.own_fields
  rcases strong.registerLocked_cases with rejected | ⟨outside, order, front, back, wellFormed,
    slot, accepted⟩
  · obtain ⟨next_eq, prev_eq⟩ := strong.links_eq fun inside =>
      ⟨(restored inside).1, (restored inside).2.1⟩
    have written := strong.writeBack handler next_eq prev_eq ?_ sound.kept
      (fun inside => (restored inside).2.2 newPri isr rfl) (fun _ _ => rfl) sound.zero
    · have unchanged : ¬(¬intc.Registered intNum ∧ (intc.setIsr intNum bufEle).Registered intNum) :=
        fun both => both.1 both.2
      rw [advance_returned rest handler (step_registerLocked rejected)]
      simpa only [handlerAfter, if_neg unchanged] using written
    · intro inside
      obtain ⟨order, wellFormed⟩ := strong.good.list
      have linked : bufEle.next ≠ none := next_eq ▸ wellFormed.next_ne_none inside
      exact ⟨sound.linked_pri linked rfl, sound.linked_num linked rfl⟩
  · have inserted := strong.insert
      (Function.update handler intNum (intc.isrFunc intNum)) wellFormed slot number_eq
      pri_eq (Function.update_self ..) fun index different => Function.update_of_ne different _ _
    have arrived : ¬intc.Registered intNum ∧ (intc.insert intNum back).Registered intNum :=
      ⟨outside, (registered_insert intc intNum intNum back).mpr (Or.inr rfl)⟩
    rw [advance_returned rest handler (step_registerLocked accepted)]
    simp only [handlerAfter, if_pos arrived]
    exact inserted

end

/-- A change that leaves the entry of the list in its place keeps what holds. -/
theorem Strong.changeHandlerLocked (strong : Strong priority
      ⟨intc, ⟨intNum, .serviceChangeHandler isr, .locked, bufEle, intPri⟩ :: rest, handler⟩)
    (restores : Restores
      ⟨intc, ⟨intNum, .serviceChangeHandler isr, .locked, bufEle, intPri⟩ :: rest, handler⟩
      .advance) :
    Strong priority (Tracked.advance
      ⟨intc, ⟨intNum, .serviceChangeHandler isr, .locked, bufEle, intPri⟩ :: rest, handler⟩) := by
  have sound := strong.sounds.1
  have restored := restores _ rest rfl rfl
  obtain ⟨order, wellFormed⟩ := strong.good.list
  obtain ⟨next_eq, prev_eq⟩ := strong.links_eq fun inside =>
    ⟨(restored inside).1, (restored inside).2.1⟩
  have taken (inside : intc.Registered intNum) : ∃ number ∈ order, intc.pri number = intPri := by
    have linked : bufEle.next ≠ none := next_eq ▸ wellFormed.next_ne_none inside
    refine ⟨intNum, (wellFormed.mask intNum).mpr inside, ?_⟩
    exact (strong.priority_eq intNum inside).trans
      (sound.linked_read linked isr rfl (Or.inr rfl)).symm
  have stepped := changeHandlerLocked_spec wellFormed intNum intPri bufEle isr
  rw [advance_returned rest handler (step_changeHandlerLocked stepped)]
  refine strong.writeBack _ ?_ ?_ ?_ ?_ ?_ ?_ ?_
  · split <;> exact next_eq
  · split <;> exact prev_eq
  · intro inside
    have linked : bufEle.next ≠ none := next_eq ▸ wellFormed.next_ne_none inside
    rw [if_pos (taken inside)]
    exact ⟨sound.linked_pri linked rfl, sound.linked_num linked rfl⟩
  · split
    · exact ⟨sound.kept.numbered, sound.kept.ranked⟩
    · exact sound.kept
  · intro inside _
    rw [if_pos (taken inside)]
    simp [handlerAfter, if_pos inside]
  · intro index different
    simp only [handlerAfter]
    split
    · exact Function.update_of_ne different _ _
    · rfl
  · intro outside free
    exact absurd (sound.tested isr rfl rfl outside) free

end

theorem advance_stuck {frame : Frame} (rest : List Frame) (handler : Fin 32 → UInt32)
    (stuck : frame.step intc = none) :
    Tracked.advance ⟨intc, frame :: rest, handler⟩ = ⟨intc, frame :: rest, handler⟩ := by
  simp [Tracked.advance, stuck]

theorem Strong.advance_unlocked {frame : Frame}
    (strong : Strong priority ⟨intc, frame :: rest, handler⟩) (unlocked : frame.place ≠ .locked) :
    Strong priority (Tracked.advance ⟨intc, frame :: rest, handler⟩) := by
  obtain ⟨intNum, call, place, bufEle, intPri⟩ := frame
  have moves {frame' : Frame}
      (moved : (Frame.mk intNum call place bufEle intPri).step intc = some (intc, some frame'))
      (next : Strong priority ⟨intc, frame' :: rest, handler⟩) :
      Strong priority (Tracked.advance
        ⟨intc, ⟨intNum, call, place, bufEle, intPri⟩ :: rest, handler⟩) := by
    rw [advance_moved rest handler moved unlocked]
    exact next
  have stays (stuck : (Frame.mk intNum call place bufEle intPri).step intc = none) :
      Strong priority (Tracked.advance
        ⟨intc, ⟨intNum, call, place, bufEle, intPri⟩ :: rest, handler⟩) := by
    rw [advance_stuck rest handler stuck]
    exact strong
  cases place with
  | copyNext | copyPrev | copyIsrFunc | copyPri =>
      exact moves rfl (strong.copy (by decide) rfl)
  | copyIntNum =>
      cases call with
      | serviceRegister newPri isr | serviceChangeHandler isr =>
          exact moves rfl (strong.copy (by decide) rfl)
  | writeIsrFunc =>
      cases call with
      | serviceRegister newPri isr =>
          rw [advance_moved rest handler rfl unlocked]
          exact strong.writeIsrFunc
      | serviceChangeHandler isr => exact stays rfl
  | writeIntNum =>
      cases call with
      | serviceRegister newPri isr =>
          rw [advance_moved rest handler rfl unlocked]
          exact strong.writeIntNum
      | serviceChangeHandler isr => exact stays rfl
  | writePri =>
      cases call with
      | serviceRegister newPri isr =>
          rw [advance_moved rest handler rfl unlocked]
          exact strong.writePri
      | serviceChangeHandler isr => exact stays rfl
  | readPri =>
      cases call with
      | serviceRegister newPri isr => exact stays rfl
      | serviceChangeHandler isr => exact moves rfl strong.readPri
  | testIsrFunc =>
      cases call with
      | serviceRegister newPri isr => exact stays rfl
      | serviceChangeHandler isr =>
          by_cases none_set : intc.isrFunc intNum = 0
          · rw [advance_returned rest handler
              (show Frame.step _ intc = some (intc, none) by simp [Frame.step, Table.isr, none_set])]
            exact strong.drop (not_writes_of_place _ _ _ _ (by decide))
          · exact moves (by simp [Frame.step, Table.isr, none_set]) (strong.testIsrFunc none_set)
  | locked => exact absurd rfl unlocked

theorem Strong.step {priority : Fin 32 → UInt8} {tracked : Tracked}
    (strong : Strong priority tracked) (event : Event) (restores : Restores tracked event) :
    Strong priority ((service priority).step tracked event).1 := by
  cases event with
  | serviceRegister intNum isr =>
      refine strong.enter intNum _ ?_
      rintro intPri isr' equal
      exact (Call.serviceRegister.inj equal).1.symm
  | serviceChangeHandler intNum isr => exact strong.enter intNum _ (by simp)
  | advance =>
      obtain ⟨intc, stack, handler⟩ := tracked
      cases stack with
      | nil => exact strong
      | cons frame rest =>
          by_cases locked : frame.place = .locked
          · obtain ⟨intNum, call, place, bufEle, intPri⟩ := frame
            obtain rfl : place = .locked := locked
            cases call with
            | serviceRegister newPri isr => exact strong.registerLocked restores
            | serviceChangeHandler isr => exact strong.changeHandlerLocked restores
          · exact strong.advance_unlocked locked

theorem strong_reset (priority : Fin 32 → UInt8) : Strong priority .reset := by
  have outside (number : Fin 32) : ¬Table.reset.Registered number := by
    revert number
    decide
  have wellFormed : WellFormed .reset [] := by
    refine ⟨⟨⟨rfl, rfl⟩, by simp⟩, by simp, by simp, fun number => ?_⟩
    exact iff_of_false (by simp) (outside number)
  constructor
  · constructor
    · exact ⟨[], wellFormed⟩
    · exact fun number inside => absurd inside (outside number)
    · exact fun number _ _ => rfl
    · exact wellFormed.serves
  · exact fun number inside => absurd inside (outside number)
  · exact fun number _ => ⟨rfl, rfl⟩
  · exact fun number => ⟨fun _ some => by simp [Tracked.reset] at some,
      fun _ some => by simp [Tracked.reset] at some⟩
  · trivial

theorem WellFormed.order_unique {order' : List (Fin 32)} (wellFormed : WellFormed intc order)
    (wellFormed' : WellFormed intc' order') (mask_eq : intc'.isrsMask = intc.isrsMask)
    (pri_eq : ∀ index, intc.Registered index → intc'.pri index = intc.pri index) :
    order' = order := by
  have mem_iff (index : Fin 32) : index ∈ order' ↔ index ∈ order := by
    rw [wellFormed'.mask, wellFormed.mask, Table.Registered, Table.Registered, mask_eq]
  have sorted' : order'.Pairwise fun left right => intc.pri left < intc.pri right := by
    refine wellFormed'.sorted.imp_of_mem fun left_mem right_mem below => ?_
    rwa [pri_eq _ ((wellFormed.mask _).mp ((mem_iff _).mp left_mem)),
      pri_eq _ ((wellFormed.mask _).mp ((mem_iff _).mp right_mem))] at below
  have distinct {list : List (Fin 32)}
      (sorted : list.Pairwise fun left right => intc.pri left < intc.pri right) : list.Nodup := by
    refine sorted.imp ?_
    rintro left right below rfl
    exact UInt8.lt_irrefl _ below
  refine ((List.perm_ext_iff_of_nodup (distinct sorted') (distinct wellFormed.sorted)).mpr
    mem_iff).eq_of_pairwise ?_ sorted' wellFormed.sorted
  exact fun left right _ _ below above => absurd (UInt8.lt_trans below above) (UInt8.lt_irrefl _)

section
variable {priority : Fin 32 → UInt8} {intc : Table} {rest : List Frame} {handler : Fin 32 → UInt32}
  {intNum : Fin 32} {intPri newPri : UInt8} {isr : UInt32} {bufEle : Isr}

/-- An entry of the list that is written back with other links breaks the list. -/
theorem Strong.links_of_good {frame : Frame} {rest' : List Frame} {handler' : Fin 32 → UInt32}
    (strong : Strong priority ⟨intc, frame :: rest, handler⟩) (locked : frame.place = .locked)
    {entry : Isr} (next_eq : entry.next = frame.bufEle.next)
    (prev_eq : entry.prev = frame.bufEle.prev) (pri_eq : entry.pri = frame.bufEle.pri)
    (good : Good ⟨intc.setIsr frame.intNum entry, rest', handler'⟩)
    (inside : intc.Registered frame.intNum) :
    frame.bufEle.next = intc.links.next (.isr frame.intNum) ∧
      frame.bufEle.prev = intc.links.prev (.isr frame.intNum) := by
  obtain ⟨order, wellFormed⟩ := strong.good.list
  obtain ⟨order', wellFormed'⟩ := good.list
  have written := isr_setIsr intc frame.intNum entry
  have linked : frame.bufEle.next ≠ none := by
    rw [← next_eq, ← congrArg Isr.next written]
    exact wellFormed'.next_ne_none inside
  have same_order := wellFormed.order_unique wellFormed' rfl ?_
  · subst same_order
    obtain ⟨next_agree, prev_agree⟩ := wellFormed.ring.agree wellFormed'.ring (.isr frame.intNum)
      (List.mem_map_of_mem ((wellFormed.mask _).mpr inside))
    constructor
    · rw [← next_eq, ← next_agree]
      exact (congrArg Isr.next written).symm
    · rw [← prev_eq, ← prev_agree]
      exact (congrArg Isr.prev written).symm
  · intro index registered
    by_cases same : index = frame.intNum
    · subst same
      refine (congrArg Isr.pri written).trans ?_
      rw [pri_eq, strong.sounds.1.linked_pri linked (by rw [locked]; rfl)]
      exact (strong.priority_eq _ inside).symm
    · exact congrArg Isr.pri (isr_setIsr_of_ne intc entry same)

/-- A rejected registration that is good has left its entry as it was set last. -/
theorem Strong.restores_of_register (strong : Strong priority
      ⟨intc, ⟨intNum, .serviceRegister newPri isr, .locked, bufEle, intPri⟩ :: rest, handler⟩)
    (good : Good (Tracked.advance
      ⟨intc, ⟨intNum, .serviceRegister newPri isr, .locked, bufEle, intPri⟩ :: rest, handler⟩)) :
    Restores ⟨intc, ⟨intNum, .serviceRegister newPri isr, .locked, bufEle, intPri⟩ :: rest, handler⟩
      .advance := by
  rintro frame rest' equal - inside
  obtain ⟨rfl, rfl⟩ := List.cons.inj equal
  rcases strong.registerLocked_cases with rejected | ⟨outside, -⟩
  · have unchanged : ¬(¬intc.Registered intNum ∧ (intc.setIsr intNum bufEle).Registered intNum) :=
      fun both => both.1 both.2
    rw [advance_returned _ handler (step_registerLocked rejected)] at good
    simp only [handlerAfter, if_neg unchanged] at good
    obtain ⟨next_eq, prev_eq⟩ := strong.links_of_good rfl rfl rfl rfl good inside
    refine ⟨next_eq, prev_eq, fun _ _ _ free => ?_⟩
    have kept := good.handler_eq intNum inside free
    rw [← kept]
    exact (congrArg Isr.isrFunc (isr_setIsr intc intNum bufEle)).symm
  · exact absurd inside outside

theorem Strong.restores_of_change (strong : Strong priority
      ⟨intc, ⟨intNum, .serviceChangeHandler isr, .locked, bufEle, intPri⟩ :: rest, handler⟩)
    (good : Good (Tracked.advance
      ⟨intc, ⟨intNum, .serviceChangeHandler isr, .locked, bufEle, intPri⟩ :: rest, handler⟩)) :
    Restores ⟨intc, ⟨intNum, .serviceChangeHandler isr, .locked, bufEle, intPri⟩ :: rest, handler⟩
      .advance := by
  rintro frame rest' equal - inside
  obtain ⟨rfl, rfl⟩ := List.cons.inj equal
  obtain ⟨order, wellFormed⟩ := strong.good.list
  have stepped := changeHandlerLocked_spec wellFormed intNum intPri bufEle isr
  rw [advance_returned _ handler (step_changeHandlerLocked stepped)] at good
  obtain ⟨next_eq, prev_eq⟩ := strong.links_of_good rfl (by split <;> rfl) (by split <;> rfl)
    (by split <;> rfl) good inside
  exact ⟨next_eq, prev_eq, fun _ _ call => absurd call (by simp)⟩

end

theorem Strong.restores_of_good (strong : Strong priority tracked) (event : Event)
    (good : Good ((service priority).step tracked event).1) : Restores tracked event := by
  cases event with
  | serviceRegister intNum isr | serviceChangeHandler intNum isr => trivial
  | advance =>
      obtain ⟨intc, stack, handler⟩ := tracked
      rintro frame rest rfl locked
      obtain ⟨intNum, call, place, bufEle, intPri⟩ := frame
      obtain rfl : place = .locked := locked
      cases call with
      | serviceRegister newPri isr =>
          exact strong.restores_of_register good _ rest rfl rfl
      | serviceChangeHandler isr => exact strong.restores_of_change good _ rest rfl rfl

/-- The service list is well formed, matches `isrs_mask`, is not changed by rejected registrations
and serves every interrupt after every initial part of a run, exactly if no call writes an entry of
the list back that has got other links or another handler since the call copied it. -/
theorem service_list_iff (priority : Fin 32 → UInt8) (events : List Event) :
    (∀ front, front <+: events → Good ((service priority).run .reset front)) ↔
      (service priority).Always Restores .reset events :=
  (service priority).forall_run_iff_always_of_strong Restores (fun _ => True) Good
    (Strong priority) (fun _ _ => trivial) Strong.good
    (fun event _ strong => ⟨strong.restores_of_good event, fun restores =>
      (strong.step event restores).good⟩)
    (fun event _ strong restores => strong.step event restores) trivial (strong_reset priority)
    events

def uninterrupted (event : Event) (steps : ℕ) : List Event :=
  event :: List.replicate steps .advance

/-- Interrupt 1 is registered.  A change of its handler is interrupted, before it disables the
interrupts, by the registration of interrupt 2. -/
def neighbourRegistered : List Event :=
  uninterrupted (.serviceRegister 1 11) 9 ++ uninterrupted (.serviceChangeHandler 1 12) 7 ++
    uninterrupted (.serviceRegister 2 21) 9 ++ [.advance]

/-- Interrupt 1 is registered.  A second registration of it is interrupted by a change of its
handler. -/
def changeUndone : List Event :=
  uninterrupted (.serviceRegister 1 11) 9 ++ uninterrupted (.serviceRegister 1 12) 8 ++
    uninterrupted (.serviceChangeHandler 1 13) 8 ++ [.advance]

/-- The interrupted change takes interrupt 2 off the list, so that its handler is not called; and
the second registration, which is rejected, brings the old handler back. -/
theorem service_list_broken :
    ((service fun number => UInt8.ofNat number).run .reset neighbourRegistered).intc.Registered 2 ∧
      intcHdlEntry ((service fun number => UInt8.ofNat number).run .reset
        neighbourRegistered).intc (bit 2) = some [] ∧
      ((service fun number => UInt8.ofNat number).run .reset changeUndone).stack = [] ∧
      ((service fun number => UInt8.ofNat number).run .reset changeUndone).intc.isrFunc 1 = 11 ∧
      ((service fun number => UInt8.ofNat number).run .reset changeUndone).handler 1 = 13 ∧
      ¬Good ((service fun number => UInt8.ofNat number).run .reset neighbourRegistered) ∧
      ¬Good ((service fun number => UInt8.ofNat number).run .reset changeUndone) := by
  have registered : ((service fun number => UInt8.ofNat number).run .reset
      neighbourRegistered).intc.Registered 2 := by decide +kernel
  have served : intcHdlEntry ((service fun number => UInt8.ofNat number).run .reset
      neighbourRegistered).intc (bit 2) = some [] := by decide +kernel
  have returned : ((service fun number => UInt8.ofNat number).run .reset
      changeUndone).stack = [] := by decide +kernel
  have undone : ((service fun number => UInt8.ofNat number).run .reset
      changeUndone).intc.isrFunc 1 = 11 := by decide +kernel
  have changed : ((service fun number => UInt8.ofNat number).run .reset
      changeUndone).handler 1 = 13 := by decide +kernel
  refine ⟨registered, served, returned, undone, changed, ?_, ?_⟩
  · intro good
    obtain ⟨calls, entered, -, exact⟩ := good.serves (bit 2)
    obtain rfl : [] = calls := Option.some.inj (served.symm.trans entered)
    have called := (exact 2 _).mpr ⟨by decide +kernel, rfl⟩
    exact List.not_mem_nil called
  · intro good
    have free : ¬Writing ((service fun number => UInt8.ofNat number).run .reset
        changeUndone).stack 1 := by
      rw [returned]
      rintro ⟨frame, member, -⟩
      exact List.not_mem_nil member
    have equal := good.handler_eq 1 (by decide +kernel) free
    rw [undone, changed] at equal
    exact absurd equal (by decide)

end BdkFreertos.Intc
