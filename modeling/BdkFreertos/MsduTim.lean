import BdkFreertos.MsduOrder

/-!
# The traffic indication of a sleeping station

The access point announces buffered frames in its beacons: a request sets a station's bit when its
first frame is buffered, another clears it when the last one is sent.  Here the handlers run one
after another; what is compared is the bit that was last requested with the list.
-/

namespace BdkFreertos.Msdu

/-! ## Handlers one after another -/

/-- What the surroundings decide about a handler that runs without interruption. -/
structure Decisions where
  copied : Bool
  allocated : Bool
  txdescUsed : ℕ → Bool
  timSent : Bool

/-- The outcome of a handler that nothing interrupts. -/
def Decisions.outcome (decisions : Decisions) : Outcome where
  copied := decisions.copied
  allocated := decisions.allocated
  txdescUsed := decisions.txdescUsed
  timSent := decisions.timSent
  first := []
  second := []
  third := []

/-- What happens at a time. -/
inductive Turn
  /-- A frame is submitted, or another message is sent. -/
  | send (msg : BusMsg)
  /-- The core thread handles the next message: it submits a frame or drains a list. -/
  | core (decisions : Decisions)
  /-- A station falls asleep or wakes up, and this is reported. -/
  | powerChange (staIdx psState : UInt8)
  /-- A list is flushed, as its station is added or deleted. -/
  | flush (staIdx : UInt8)
  | timeout (staIdx : UInt8)

/-- A turn as events of the core thread and the others. -/
def Turn.events : Turn → List Event
  | .send msg => [.interfere (.send msg)]
  | .core decisions => [.core decisions.outcome]
  | .powerChange staIdx psState =>
      [.interfere (.powerState staIdx psState), .interfere (.psChangeInd staIdx psState)]
  | .flush staIdx => [.interfere (.flush staIdx)]
  | .timeout staIdx => [.interfere (.timeout staIdx)]

def handlers : Machine TxState Turn Unit where
  step state turn := (coreThread.run state turn.events, ())

/-! ## The bit -/

/-- The interface and association under which the MAC keeps a station's bit. -/
def timKey (tables : MacTables) (staIdx : UInt8) : UInt8 × UInt8 :=
  ((tables.staInfoTab staIdx).instNbr, (tables.staInfoTab staIdx).aid)

/-- The bit last requested for a station; it is clear before the first request. -/
def timBit (state : TxState) (staIdx : UInt8) : Bool :=
  ((state.timUpdates.filter fun update =>
    (update.vifIdx, update.aid) = timKey state.tables staIdx).getLast?).any TimUpdate.txAvail

/-- A station's bit is set only if frames wait for it, and set if they do while it sleeps. -/
def TimAgrees (state : TxState) : Prop :=
  ∀ staIdx i, slot staIdx = some i →
    (timBit state staIdx = true → state.txing i ≠ []) ∧
      (staMgmtIsInPs state.tables staIdx = true → state.txing i ≠ [] → timBit state staIdx = true)

def TimExact (state : TxState) : Prop :=
  ∀ staIdx i, slot staIdx = some i → (timBit state staIdx = true ↔ state.txing i ≠ [])

theorem TimExact.agrees {state : TxState} (exact : TimExact state) : TimAgrees state :=
  fun staIdx i place => ⟨(exact staIdx i place).mp, fun _ => (exact staIdx i place).mpr⟩

/-- No two stations share a bit. -/
def DistinctKeys (tables : MacTables) : Prop :=
  ∀ first second i j, slot first = some i → slot second = some j →
    timKey tables first = timKey tables second → first = second

def timView (state : TxState) : MacTables × (Fin maxPsStaNum → List ℕ) × List TimUpdate :=
  (state.tables, state.txing, state.timUpdates)

variable {state before after : TxState} {staIdx : UInt8} {i : Fin maxPsStaNum}

theorem timAgrees_congr (same : timView after = timView before) :
    TimAgrees after ↔ TimAgrees before := by
  simp only [timView, Prod.mk.injEq] at same
  simp [TimAgrees, timBit, same]

theorem timExact_congr (same : timView after = timView before) :
    TimExact after ↔ TimExact before := by
  simp only [timView, Prod.mk.injEq] at same
  simp [TimExact, timBit, same]

/-! ## Changes to one list -/

/-- A station's list becomes `nodes`, and `request` tells what was requested for its bit. -/
structure ListChange (before after : TxState) (staIdx : UInt8) (i : Fin maxPsStaNum)
    (nodes : List ℕ) (request : Option Bool) : Prop where
  place : slot staIdx = some i
  tables : after.tables = before.tables
  txing : after.txing = Function.update before.txing i nodes
  timUpdates : after.timUpdates = before.timUpdates ++
    request.toList.map (TimUpdate.mk (before.tables.staInfoTab staIdx).instNbr
      (before.tables.staInfoTab staIdx).aid)

namespace ListChange

variable {nodes : List ℕ} {request : Option Bool}

theorem timBit_self (change : ListChange before after staIdx i nodes request) :
    timBit after staIdx = request.getD (timBit before staIdx) := by
  rw [timBit, change.tables, change.timUpdates]
  cases request with
  | none => simp [timBit]
  | some bit => simp [timKey]

variable {j : Fin maxPsStaNum}

section

variable (change : ListChange before after staIdx i nodes request)
include change

theorem timBit_other (distinct : DistinctKeys before.tables) {other : UInt8}
    (place : slot other = some j) (different : other ≠ staIdx) :
    timBit after other = timBit before other := by
  have keys : timKey before.tables staIdx ≠ timKey before.tables other :=
    fun same => different (distinct staIdx other i j change.place place same).symm
  have unaffected : (after.timUpdates.filter fun update =>
      (update.vifIdx, update.aid) = timKey before.tables other) =
        before.timUpdates.filter fun update =>
          (update.vifIdx, update.aid) = timKey before.tables other := by
    rw [change.timUpdates, List.filter_append]
    cases request with
    | none => simp
    | some bit =>
        have mine : ¬ ((before.tables.staInfoTab staIdx).instNbr,
            (before.tables.staInfoTab staIdx).aid) = timKey before.tables other := keys
        simp [mine]
  rw [timBit, timBit, change.tables, unaffected]

theorem txing_other {other : UInt8} (place : slot other = some j) (different : other ≠ staIdx) :
    after.txing j = before.txing j := by
  have apart : j ≠ i := by
    rintro rfl
    exact different (slot_inj place change.place)
  rw [change.txing, Function.update_of_ne apart]

theorem txing_self : after.txing i = nodes := by
  rw [change.txing, Function.update_self]

theorem agrees_iff (distinct : DistinctKeys before.tables) (exact : TimExact before) :
    TimAgrees after ↔
      (timBit after staIdx = true → nodes ≠ []) ∧
        (staMgmtIsInPs before.tables staIdx = true → nodes ≠ [] → timBit after staIdx = true) := by
  constructor
  · intro agrees
    have own := agrees staIdx i change.place
    rwa [change.txing_self, change.tables] at own
  · intro own other j place
    by_cases same : other = staIdx
    · subst same
      obtain rfl : j = i := Option.some.inj (place.symm.trans change.place)
      rw [change.txing_self, change.tables]
      exact own
    · rw [change.timBit_other distinct place same, change.txing_other place same, change.tables]
      exact exact.agrees other j place

theorem exact_of (distinct : DistinctKeys before.tables) (exact : TimExact before)
    (own : timBit after staIdx = true ↔ nodes ≠ []) : TimExact after := by
  intro other j place
  by_cases same : other = staIdx
  · subst same
    obtain rfl : j = i := Option.some.inj (place.symm.trans change.place)
    rw [change.txing_self]
    exact own
  · rw [change.timBit_other distinct place same, change.txing_other place same]
    exact exact other j place

end

end ListChange

/-! ## What the operations change -/

@[simp]
theorem timView_pushToQueue (state : TxState) (msg : BusMsg) :
    timView (pushToQueue state msg) = timView state := by
  rw [pushToQueue]
  split <;> rfl

@[simp]
theorem timView_setTimer (state : TxState) (i : Fin maxPsStaNum) (running : Bool) :
    timView (state.setTimer i running) = timView state := rfl

@[simp]
theorem timView_rwmTransferNode (outcome : Outcome) (state : TxState) (node : ℕ) (flag : UInt32) :
    timView (rwmTransferNode outcome state node flag) = timView state := by
  obtain ⟨heap, pckCnt, pushed, changes⟩ := rwmTransferNode_changes outcome state node flag
  rw [changes]
  rfl

@[simp]
theorem timView_psChangeInd (state : TxState) (staIdx psState : UInt8) :
    timView (rwmMsduPsChangeIndHandler state staIdx psState) = timView state := by
  rw [rwmMsduPsChangeIndHandler]
  split
  · rfl
  · split_ifs <;> simp [bmsgTxingSender]

theorem interfereAll_nil (state : TxState) : interfereAll state [] = state := rfl

variable {nodes : List ℕ} {submissions : List Submission} {restores : Prop}

section

variable {request : Option Bool} (change : ListChange before after staIdx i nodes request)
include change

theorem ListChange.of_timView {later : TxState} (same : timView later = timView after) :
    ListChange before later staIdx i nodes request := by
  simp only [timView, Prod.mk.injEq] at same
  obtain ⟨tables_eq, txing_eq, updates_eq⟩ := same
  exact
    { place := change.place
      tables := tables_eq.trans change.tables
      txing := txing_eq.trans change.txing
      timUpdates := updates_eq.trans change.timUpdates }

theorem ListChange.of_before {earlier : TxState} (same : timView before = timView earlier) :
    ListChange earlier after staIdx i nodes request := by
  simp only [timView, Prod.mk.injEq] at same
  obtain ⟨tables_eq, txing_eq, updates_eq⟩ := same
  exact
    { place := change.place
      tables := change.tables.trans tables_eq
      txing := by rw [change.txing, txing_eq]
      timUpdates := by rw [change.timUpdates, updates_eq, tables_eq] }

end

theorem ListChange.request (change : ListChange before after staIdx i nodes none)
    (sent bit : Bool) :
    ListChange before (rwMsgSendTimUpdate sent after staIdx bit) staIdx i nodes
      (if sent then some bit else none) := by
  cases sent with
  | false => exact change
  | true =>
      exact
        { place := change.place
          tables := change.tables
          txing := change.txing
          timUpdates := by
            have updates_eq : after.timUpdates = before.timUpdates := by
              simpa using change.timUpdates
            simp [rwMsgSendTimUpdate, updates_eq, change.tables] }

section

variable (place : slot staIdx = some i)
include place

theorem listChange_setTxing (state : TxState) (nodes : List ℕ) :
    ListChange state (state.setTxing i nodes) staIdx i nodes none where
  place := place
  tables := rfl
  txing := rfl
  timUpdates := by simp [TxState.setTxing]

theorem flushRounds_eq (rounds : ℕ) (state : TxState) :
    timView (flushRounds rounds state staIdx) =
      (state.tables, Function.update state.txing i ((state.txing i).drop rounds),
        state.timUpdates) := by
  induction rounds generalizing state with
  | zero => simp [flushRounds, timView]
  | succ rounds induction =>
      rw [flushRounds, induction, flushRound, rwmPopTxingList, place]
      rcases front : state.txing i with _ | ⟨node, rest⟩
      · simp [front]
      · simp [front, rwmNodeFree, TxState.setTxing]

theorem listChange_flush (state : TxState) :
    ListChange state (rwmFlushTxingList state staIdx) staIdx i [] none := by
  refine (listChange_setTxing place state []).of_timView ?_
  rw [rwmFlushTxingList, place]
  simp only [timView_setTimer]
  rw [flushRounds_eq place, rwmTxlingListNodeCount, place]
  simp [TxState.setTxing, timView]

theorem listChange_drain {node : ℕ} {rest : List ℕ}
    (popped : rwmPopTxingList state staIdx = (state.setTxing i rest, some node))
    (decisions : Decisions) :
    ListChange state (rwmMsduSendTxingNode decisions.outcome state staIdx) staIdx i rest
      (if rest = [] ∧ decisions.timSent = true then some false else none) := by
  have left_eq : rwmTxlingListNodeCount (state.setTxing i rest) staIdx = rest.length := by
    rw [rwmTxlingListNodeCount, place]
    simp [TxState.setTxing]
  rw [rwmMsduSendTxingNode, popped]
  simp only [Decisions.outcome, interfereAll_nil, left_eq]
  have change : ListChange state
      (rwmTransferNode decisions.outcome (state.setTxing i rest).incPckCnt node txuCntrlMoreData)
      staIdx i rest none :=
    (listChange_setTxing place state rest).of_timView (timView_rwmTransferNode _ _ _ _)
  cases rest with
  | nil =>
      simp only [List.length_nil, ne_eq, not_true_eq_false, false_and, ↓reduceIte, true_and]
      exact change.request decisions.timSent false
  | cons next rest =>
      simp only [List.length_cons, reduceCtorEq, false_and, ↓reduceIte, Nat.add_eq_zero_iff,
        Nat.one_ne_zero, and_false]
      split
      · exact change.of_timView (timView_pushToQueue _ _)
      · exact change

end

/-- A drain finds the list empty or takes its first node. -/
theorem drain_cases (state : TxState) (decisions : Decisions) (staIdx : UInt8) :
    (rwmTxlingListNodeCount state staIdx = 0 ∧
        rwmMsduSendTxingNode decisions.outcome state staIdx = state) ∨
      ∃ i node rest, slot staIdx = some i ∧ state.txing i = node :: rest ∧
        ListChange state (rwmMsduSendTxingNode decisions.outcome state staIdx) staIdx i rest
          (if rest = [] ∧ decisions.timSent = true then some false else none) := by
  rcases rwmPopTxingList_cases state staIdx with
    ⟨empty, popped⟩ | ⟨i, node, rest, place, front, popped⟩
  · refine Or.inl ⟨empty, ?_⟩
    rw [rwmMsduSendTxingNode, popped]
  · exact Or.inr ⟨i, node, rest, place, front, listChange_drain place popped decisions⟩

/-- A frame for an interface goes into the list of its station. -/
def Buffers (state : TxState) (vifIdx : UInt8) (frame : EthFrame) : Prop :=
  rwmMgmtIsApInface state.tables vifIdx = true ∧
    (staMgmtIsInPs state.tables (rwmMgmtTxGetStaidx state.tables vifIdx frame.dest) = true ∨
      rwmTxlingListNodeCount state (rwmMgmtTxGetStaidx state.tables vifIdx frame.dest) ≠ 0) ∧
    (rwmMgmtTxGetStaidx state.tables vifIdx frame.dest).toNat < maxPsStaNum

theorem listChange_buffer (place : slot staIdx = some i) (state : TxState) (node : ℕ)
    (decisions : Decisions) :
    ListChange state
      (rwmPushTxingList (announceTraffic decisions.outcome state staIdx) node staIdx) staIdx i
      (state.txing i ++ [node])
      (if state.txing i = [] ∧ decisions.timSent = true then some true else none) := by
  have count_eq : rwmTxlingListNodeCount state staIdx = (state.txing i).length := by
    rw [rwmTxlingListNodeCount, place]
  have announced : timView (announceTraffic decisions.outcome state staIdx) =
      timView (rwMsgSendTimUpdate (decide (state.txing i = []) && decisions.timSent) state staIdx
        true) := by
    simp only [announceTraffic, place, count_eq, List.length_eq_zero_iff]
    split
    · next empty => simp [empty, Decisions.outcome]
    · next left => simp [left, rwMsgSendTimUpdate]
  have txing_eq : (announceTraffic decisions.outcome state staIdx).txing = state.txing :=
    txing_eq_of_ledger (ledger_announceTraffic _ _ _)
  rw [rwmPushTxingList, place]
  simp only [txing_eq]
  have pushed := (listChange_setTxing place state (state.txing i ++ [node])).request
    (decide (state.txing i = []) && decisions.timSent) true
  simp only [Bool.and_eq_true, decide_eq_true_eq] at pushed
  refine pushed.of_timView ?_
  simp only [timView, Prod.mk.injEq] at announced
  simp only [timView, TxState.setTxing, announced.1, announced.2.2, txing_eq]
  cases decide (state.txing i = []) && decisions.timSent <;> rfl

/-- Without interruption, a node that can be read goes into its station's list or to the MAC. -/
theorem rwmPsTranferNode_eq {node : ℕ} {msdu : MsduNode}
    (read : state.readNode node = (state, some msdu)) (active : state.active = true)
    (decisions : Decisions) :
    rwmPsTranferNode decisions.outcome state node =
      if rwmMgmtIsApInface state.tables msdu.vifIdx = true ∧
          (staMgmtIsInPs state.tables msdu.staIdx = true ∨
            rwmTxlingListNodeCount state msdu.staIdx ≠ 0) ∧ msdu.staIdx.toNat < maxPsStaNum then
        rwmPushTxingList (announceTraffic decisions.outcome state msdu.staIdx) node msdu.staIdx
      else
        rwmTransferNode decisions.outcome state.incPckCnt node 0 := by
  have first_eq : interfereAll state decisions.outcome.first = state := rfl
  have second_eq : ∀ other : TxState, interfereAll other decisions.outcome.second = other :=
    fun _ => rfl
  simp only [rwmPsTranferNode, read, active, first_eq, second_eq, Bool.true_eq_false, ↓reduceIte]
  cases rwmMgmtIsApInface state.tables msdu.vifIdx <;> simp

theorem readNode_alloc (kept : Kept submissions [] [] state) (msdu : MsduNode) :
    ({ state with heap := (state.heap.alloc msdu).1 } : TxState).readNode (state.heap.alloc msdu).2 =
      ({ state with heap := (state.heap.alloc msdu).1 }, some msdu) := by
  obtain ⟨value, read⟩ := (kept.alloc msdu true).read_hand rfl
  have stored := Arena.getElem?_of_read (congrArg Prod.snd read)
  have value_eq : value = msdu := by simpa [Arena.alloc] using stored.symm
  subst value_eq
  rw [TxState.readNode]
  simp [read]

/-- A frame that is submitted is buffered, with the announcement if it is the first one, or changes
no list and no bit. -/
theorem submit_cases (kept : Kept submissions [] [] state) (decisions : Decisions) (vifIdx : UInt8)
    (frame : EthFrame) (sync : Bool) (args : ℕ) :
    (¬ (decisions.allocated = true ∧ Buffers state vifIdx frame) ∧
        timView (rwmTransfer decisions.outcome state vifIdx frame sync args).1 = timView state) ∨
      ((decisions.allocated = true ∧ Buffers state vifIdx frame) ∧
        ∃ i node, ListChange state (rwmTransfer decisions.outcome state vifIdx frame sync args).1
          (rwmMgmtTxGetStaidx state.tables vifIdx frame.dest) i (state.txing i ++ [node])
          (if state.txing i = [] ∧ decisions.timSent = true then some true else none)) := by
  have allocated_eq : decisions.outcome.allocated = decisions.allocated := rfl
  cases allocated : decisions.allocated with
  | false =>
      refine Or.inl ⟨by simp, ?_⟩
      simp only [rwmTransfer, allocated_eq, allocated, Bool.false_eq_true, ↓reduceIte]
      rfl
  | true =>
      have read := readNode_alloc kept
        ⟨frame, vifIdx, rwmMgmtTxGetStaidx state.tables vifIdx frame.dest, sync, args⟩
      simp only [rwmTransfer, allocated_eq, allocated, ↓reduceIte]
      rw [rwmPsTranferNode_eq read kept.active]
      split
      · next condition =>
          have buffers : Buffers state vifIdx frame := condition
          refine Or.inr ⟨⟨trivial, buffers⟩, ⟨_, buffers.2.2⟩, state.heap.allocated.length, ?_⟩
          exact (listChange_buffer (dif_pos buffers.2.2) _ _ decisions).of_before rfl
      · next condition =>
          have direct : ¬ Buffers state vifIdx frame := condition
          exact Or.inl ⟨fun both => direct both.2, timView_rwmTransferNode _ _ _ _⟩

/-! ## Every run -/

/-- What the turn needs in order to restore the relation: an empty list for a flush or an expiring
timer, and a request that can be allocated for the first frame of a sleeping station and for the
last frame of a list. -/
def Restores (state : TxState) : Turn → Prop
  | .core decisions =>
      match state.ioQueue with
      | .tx vifIdx frame _ _ :: _ =>
          decisions.copied = true → decisions.allocated = true → Buffers state vifIdx frame →
            rwmTxlingListNodeCount state (rwmMgmtTxGetStaidx state.tables vifIdx frame.dest) = 0 →
              decisions.timSent = true
      | .txing staIdx :: _ =>
          rwmTxlingListNodeCount state staIdx = 1 → decisions.timSent = true
      | _ => True
  | .flush staIdx => rwmTxlingListNodeCount state staIdx = 0
  | .timeout staIdx =>
      (slot staIdx).any state.timer = true → rwmTxlingListNodeCount state staIdx = 0
  | _ => True

def Sound (state : TxState) : Prop :=
  (∃ submissions, Kept submissions [] [] state) ∧ DistinctKeys state.tables

/-- What a step from a state with exact bits leads to: a state that agrees exactly if the step
restores the relation, and the bits are then exact again. -/
def Restored (after : TxState) (restores : Prop) : Prop :=
  (TimAgrees after ↔ restores) ∧ (restores → TimExact after)

theorem restored_of_same (exact : TimExact before) (same : timView after = timView before)
    (holds : restores) : Restored after restores :=
  ⟨iff_of_true ((timAgrees_congr same).mpr exact.agrees) holds,
    fun _ => (timExact_congr same).mpr exact⟩

/-- A change to a list whose bit ends up exact or wrong as told. -/
theorem ListChange.restored {request : Option Bool}
    (change : ListChange before after staIdx i nodes request)
    (distinct : DistinctKeys before.tables) (exact : TimExact before)
    (agrees : (timBit after staIdx = true → nodes ≠ []) ∧
      (staMgmtIsInPs before.tables staIdx = true → nodes ≠ [] → timBit after staIdx = true) →
        restores) (own : restores → (timBit after staIdx = true ↔ nodes ≠ [])) :
    Restored after restores := by
  have kept : restores → TimExact after := fun holds => change.exact_of distinct exact (own holds)
  refine ⟨⟨fun after_agrees => agrees ((change.agrees_iff distinct exact).mp after_agrees), ?_⟩,
    kept⟩
  exact fun holds => (kept holds).agrees

theorem restored_submit (kept : Kept submissions [] [] state) (distinct : DistinctKeys state.tables)
    (exact : TimExact state) (decisions : Decisions) (vifIdx : UInt8) (frame : EthFrame)
    (sync : Bool) (args : ℕ) :
    Restored (rwmTransfer decisions.outcome state vifIdx frame sync args).1
      (decisions.allocated = true → Buffers state vifIdx frame →
        rwmTxlingListNodeCount state (rwmMgmtTxGetStaidx state.tables vifIdx frame.dest) = 0 →
          decisions.timSent = true) := by
  rcases submit_cases kept decisions vifIdx frame sync args with
    ⟨direct, same⟩ | ⟨⟨allocated, buffers⟩, i, node, change⟩
  · exact restored_of_same exact same fun allocated buffers =>
      absurd ⟨allocated, buffers⟩ direct
  · have count_eq : rwmTxlingListNodeCount state
        (rwmMgmtTxGetStaidx state.tables vifIdx frame.dest) = (state.txing i).length := by
      rw [rwmTxlingListNodeCount, change.place]
    have bit := exact _ i change.place
    have bit_after := change.timBit_self
    refine change.restored distinct exact ?_ ?_
    · rintro ⟨-, announced⟩ - - none
      have asleep := buffers.2.1.resolve_right (not_not_intro none)
      have empty : state.txing i = [] := by
        rw [count_eq] at none
        exact List.eq_nil_of_length_eq_zero none
      have set := announced asleep (List.append_ne_nil_of_right_ne_nil _ (List.cons_ne_nil _ _))
      rw [bit_after] at set
      by_contra unsent
      rw [if_neg fun both => unsent both.2, Option.getD_none, bit] at set
      exact set empty
    · intro restores
      refine iff_of_true ?_ (List.append_ne_nil_of_right_ne_nil _ (List.cons_ne_nil _ _))
      rw [bit_after]
      by_cases empty : state.txing i = []
      · have sent := restores allocated buffers (by rw [count_eq, empty]; rfl)
        rw [if_pos ⟨empty, sent⟩]
        rfl
      · rw [if_neg fun both => empty both.1, Option.getD_none]
        exact bit.mpr empty

theorem restored_drain (distinct : DistinctKeys state.tables) (exact : TimExact state)
    (decisions : Decisions) (staIdx : UInt8) :
    Restored (rwmMsduSendTxingNode decisions.outcome state staIdx)
      (rwmTxlingListNodeCount state staIdx = 1 → decisions.timSent = true) := by
  rcases drain_cases state decisions staIdx with
    ⟨empty, same⟩ | ⟨i, node, rest, place, front, change⟩
  · rw [same, empty]
    exact restored_of_same exact rfl fun one => absurd one Nat.zero_ne_one
  · have count_eq : rwmTxlingListNodeCount state staIdx = (state.txing i).length := by
      rw [rwmTxlingListNodeCount, place]
    have set : timBit state staIdx = true := (exact staIdx i place).mpr (by simp [front])
    have bit_after := change.timBit_self
    rw [count_eq, front, List.length_cons, Nat.add_eq_right, List.length_eq_zero_iff]
    refine change.restored distinct exact ?_ ?_
    · rintro ⟨clear, -⟩ last
      by_contra unsent
      rw [if_neg fun both => unsent both.2, Option.getD_none, set] at bit_after
      exact clear bit_after last
    · intro restores
      rw [bit_after]
      by_cases last : rest = []
      · rw [if_pos ⟨last, restores last⟩]
        simp [last]
      · rw [if_neg fun both => last both.1, Option.getD_none, set]
        simp [last]

theorem restored_flush (distinct : DistinctKeys state.tables) (exact : TimExact state)
    (staIdx : UInt8) :
    Restored (rwmFlushTxingList state staIdx)
      (rwmTxlingListNodeCount state staIdx = 0) := by
  rcases place : slot staIdx with _ | i
  · have flushed : rwmFlushTxingList state staIdx = state := by
      rw [rwmFlushTxingList, place]
    rw [flushed]
    exact restored_of_same exact rfl (by rw [rwmTxlingListNodeCount, place])
  · have change := listChange_flush place state
    have bit := exact staIdx i place
    have bit_after : timBit (rwmFlushTxingList state staIdx) staIdx = timBit state staIdx :=
      change.timBit_self
    have count_eq : rwmTxlingListNodeCount state staIdx = (state.txing i).length := by
      rw [rwmTxlingListNodeCount, place]
    rw [count_eq, List.length_eq_zero_iff]
    refine change.restored distinct exact ?_ ?_
    · rintro ⟨clear, -⟩
      by_contra left
      exact clear (bit_after.trans (bit.mpr left)) rfl
    · intro empty
      rw [bit_after, bit]
      simp [empty]

/-- A power state does not change under which key the MAC keeps a bit. -/
@[simp]
theorem timKey_setPsState (tables : MacTables) (changed psState : UInt8) :
    timKey (tables.setPsState changed psState) = timKey tables := by
  funext staIdx
  by_cases same : staIdx = changed
  · subst same
    simp [timKey, MacTables.setPsState]
  · simp [timKey, MacTables.setPsState, Function.update_of_ne same]

theorem restored_powerChange (exact : TimExact state) (changed psState : UInt8) :
    Restored (rwmMsduPsChangeIndHandler
      { state with tables := state.tables.setPsState changed psState } changed psState) True := by
  have reported : TimExact (rwmMsduPsChangeIndHandler
      { state with tables := state.tables.setPsState changed psState } changed psState) := by
    rw [timExact_congr (timView_psChangeInd _ changed psState)]
    intro staIdx i place
    simp only [timBit, timKey_setPsState]
    exact exact staIdx i place
  exact ⟨iff_true_intro reported.agrees, fun _ => reported⟩

theorem restored_step (sound : Sound state) (exact : TimExact state) (turn : Turn) :
    Restored (handlers.step state turn).1 (Restores state turn) := by
  obtain ⟨⟨submissions, kept⟩, distinct⟩ := sound
  cases turn with
  | send msg => exact restored_of_same exact (timView_pushToQueue state msg) trivial
  | powerChange staIdx psState => exact restored_powerChange exact staIdx psState
  | flush staIdx => exact restored_flush distinct exact staIdx
  | timeout staIdx =>
      simp only [handlers, Turn.events, Machine.run_cons, Machine.run_nil, coreThread, interfere,
        rwmMsduApPsTimeout, Restores]
      split
      · next running =>
          have flushed := restored_flush distinct exact staIdx
          simp only [running, forall_const]
          exact flushed
      · next stopped => exact restored_of_same exact rfl fun running => absurd running stopped
  | core decisions =>
      simp only [handlers, Turn.events, Machine.run_cons, Machine.run_nil, coreThread, Restores]
      rcases queue : state.ioQueue with _ | ⟨msg, rest⟩
      · exact restored_of_same exact rfl trivial
      · have popped : Kept submissions [] [] { state with ioQueue := rest } :=
          kept.of_ledger_eq rfl
        have popped_exact : TimExact { state with ioQueue := rest } := exact
        cases msg with
        | tx vifIdx frame sync args =>
            have copied_eq : decisions.outcome.copied = decisions.copied := rfl
            simp only [handleMsg, copied_eq]
            cases decisions.copied with
            | true =>
                simp only [↓reduceIte, forall_const]
                exact restored_submit popped distinct popped_exact decisions vifIdx frame sync args
            | false =>
                simp only [Bool.false_eq_true, ↓reduceIte, false_imp_iff]
                exact restored_of_same exact rfl trivial
        | txing staIdx =>
            exact @restored_drain { state with ioQueue := rest } distinct popped_exact decisions
              staIdx
        | other => exact restored_of_same exact rfl trivial

theorem Kept.run (kept : Kept submissions [] [] state) (events : List Event) :
    ∃ later, Kept later [] [] (coreThread.run state events) := by
  induction events generalizing state submissions with
  | nil => exact ⟨submissions, kept⟩
  | cons event events induction => exact induction (kept.step event)

theorem timKey_handleMsg (kept : Kept submissions [] [] state) (decisions : Decisions)
    (msg : BusMsg) :
    timKey (handleMsg decisions.outcome state msg).1.tables = timKey state.tables := by
  cases msg with
  | tx vifIdx frame sync args =>
      simp only [handleMsg]
      split
      · rcases submit_cases kept decisions vifIdx frame sync args with
          ⟨-, same⟩ | ⟨-, i, node, change⟩
        · rw [(Prod.mk.inj same).1]
        · rw [change.tables]
      · rfl
  | txing staIdx =>
      simp only [handleMsg]
      rcases drain_cases state decisions staIdx with ⟨-, same⟩ | ⟨i, node, rest, -, -, change⟩
      · rw [same]
      · rw [change.tables]
  | other => rfl

theorem timKey_flush (state : TxState) (staIdx : UInt8) :
    timKey (rwmFlushTxingList state staIdx).tables = timKey state.tables := by
  rcases place : slot staIdx with _ | i
  · rw [rwmFlushTxingList, place]
  · rw [(listChange_flush place state).tables]

theorem timKey_step (kept : Kept submissions [] [] state) (turn : Turn) :
    timKey (handlers.step state turn).1.tables = timKey state.tables := by
  cases turn with
  | send msg =>
      exact congrArg (fun view => timKey view.1) (timView_pushToQueue state msg)
  | powerChange staIdx psState =>
      have same := timView_psChangeInd
        { state with tables := state.tables.setPsState staIdx psState } staIdx psState
      have keys := congrArg (fun view => timKey view.1) same
      exact keys.trans (timKey_setPsState state.tables staIdx psState)
  | flush staIdx => exact timKey_flush state staIdx
  | timeout staIdx =>
      simp only [handlers, Turn.events, Machine.run_cons, Machine.run_nil, coreThread, interfere,
        rwmMsduApPsTimeout]
      split
      · exact timKey_flush state staIdx
      · rfl
  | core decisions =>
      simp only [handlers, Turn.events, Machine.run_cons, Machine.run_nil, coreThread]
      rcases state.ioQueue with _ | ⟨msg, rest⟩
      · rfl
      · have popped : Kept submissions [] [] { state with ioQueue := rest } :=
          kept.of_ledger_eq rfl
        exact timKey_handleMsg popped decisions msg

theorem Sound.step (sound : Sound state) (turn : Turn) : Sound (handlers.step state turn).1 := by
  obtain ⟨⟨submissions, kept⟩, distinct⟩ := sound
  refine ⟨kept.run turn.events, ?_⟩
  rw [DistinctKeys, timKey_step kept turn]
  exact distinct

/-- In every state that a run of handlers reaches, each station's bit is set only if frames wait for
it and set if they do while it sleeps, if and only if every turn restores the relation: no list is
flushed while frames wait in it, and the requests for the first and the last frame can be
allocated. -/
theorem tim_agrees_iff (tables : MacTables) (distinct : DistinctKeys tables) (turns : List Turn) :
    (∀ front, front <+: turns → TimAgrees (handlers.run (rwmMsduInit tables) front)) ↔
      handlers.Always Restores (rwmMsduInit tables) turns := by
  have initial : Sound (rwmMsduInit tables) := ⟨⟨[], kept_init tables⟩, distinct⟩
  have exact_initial : TimExact (rwmMsduInit tables) := by
    intro staIdx i place
    simp [timBit, rwmMsduInit]
  exact handlers.forall_run_iff_always_of_strong Restores Sound TimAgrees TimExact
    (fun turn sound => sound.step turn) TimExact.agrees
    (fun turn sound exact => (restored_step sound exact turn).1)
    (fun turn sound exact => (restored_step sound exact turn).2) initial exact_initial turns

/-- An access point with stations whose addresses and associations follow their indices. -/
def plainTables : MacTables where
  vifInfoTab := fun _ => ⟨.ap, true, 0, 0⟩
  staInfoTab := fun staIdx => ⟨[staIdx], 0, 0, staIdx + 1, 0⟩
  macTid2ac := fun _ => 0

theorem distinctKeys_plainTables : DistinctKeys plainTables := by
  intro first second _ _ _ _ same
  have aids : first + 1 = second + 1 := congrArg Prod.snd same
  exact (UInt8.add_left_inj 1).mp aids

/-- Everything can be allocated and no descriptor is in use. -/
def Decisions.ample : Decisions where
  copied := true
  allocated := true
  txdescUsed := fun _ => false
  timSent := true

/-- Station 0 falls asleep, a frame is buffered for it, and its timer expires. -/
def bufferedTimeout : List Turn :=
  [.powerChange 0 1, .send (.tx 0 ⟨[0], [9], 0, 60⟩ false 0), .core .ample, .timeout 0]

/-- A run in which the frame is drained instead. -/
theorem tim_agrees_drained :
    (∀ front, front <+: [Turn.powerChange 0 1, .send (.tx 0 ⟨[0], [9], 0, 60⟩ false 0),
        .core .ample, .powerChange 0 0, .core .ample] →
      TimAgrees (handlers.run (rwmMsduInit plainTables) front)) ↔
      handlers.Always Restores (rwmMsduInit plainTables)
        [.powerChange 0 1, .send (.tx 0 ⟨[0], [9], 0, 60⟩ false 0), .core .ample,
          .powerChange 0 0, .core .ample] :=
  tim_agrees_iff plainTables distinctKeys_plainTables _

/-- After the timeout the list is empty and the bit still set. -/
theorem timeout_leaves_bit_set :
    timBit (handlers.run (rwmMsduInit plainTables) bufferedTimeout) 0 = true ∧
      (handlers.run (rwmMsduInit plainTables) bufferedTimeout).txing ⟨0, Nat.two_pos⟩ = [] ∧
      ¬ ∀ front, front <+: bufferedTimeout →
          TimAgrees (handlers.run (rwmMsduInit plainTables) front) := by
  have set : timBit (handlers.run (rwmMsduInit plainTables) bufferedTimeout) 0 = true := by
    decide +kernel
  have empty :
      (handlers.run (rwmMsduInit plainTables) bufferedTimeout).txing ⟨0, Nat.two_pos⟩ = [] := by
    decide +kernel
  refine ⟨set, empty, ?_⟩
  intro every
  exact (every bufferedTimeout (List.prefix_refl _) 0 ⟨0, Nat.two_pos⟩ rfl).1 set empty

end BdkFreertos.Msdu
