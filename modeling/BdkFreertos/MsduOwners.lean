import BdkFreertos.MsduDrain
import Mathlib.Data.List.Perm.Subperm

/-!
# Who owns a node in every interleaving

Between the points of the core thread's handlers a node is in a station's list, with the MAC or in
the hands of a handler.  Steps move nodes from one place to another or free them, whatever the other
threads do in between.
-/

namespace BdkFreertos.Msdu

/-- The node in the hands of a handler. -/
def CorePc.hand : CorePc → List ℕ
  | .idle | .transferred _ _ => []
  | .direct node | .buffering node _ | .announced node _ | .popped _ node | .counted _ node _ =>
      [node]

/-- A node that is going to be buffered has a list to go to. -/
def CorePc.Placed : CorePc → Prop
  | .buffering _ staIdx | .announced _ staIdx => staIdx.toNat < maxPsStaNum
  | _ => True

def owners (hand : List ℕ) (state : TxState) : List ℕ := hand ++ (buffered state ++ handed state)

def BusMsg.Asynchronous (msg : BusMsg) : Prop :=
  ∀ vifIdx frame sync args, msg = .tx vifIdx frame sync args → sync = false

/-- No message in the queue carries a frame of a synchronous sender. -/
def Quiet (state : TxState) : Prop := ∀ msg ∈ state.ioQueue, msg.Asynchronous

/-- Nodes are moved or freed; the descriptors given to the MAC call back for synchronous nodes, and
no synchronous frame is queued. -/
structure Passes (hand hand' : List ℕ) (before after : TxState) : Prop where
  allocated_eq : after.heap.allocated = before.heap.allocated
  freed : before.heap.freed <+: after.heap.freed
  pushed : ∀ desc ∈ after.pushed, desc ∈ before.pushed ∨
    ∃ msdu, before.heap.allocated[desc.msduNode]? = some msdu ∧ desc.callback = msdu.sync
  quiet : Quiet before → Quiet after
  owned : before.heap.Owned (owners hand before) → after.heap.Owned (owners hand' after)

variable {hand hand' hand'' : List ℕ} {state next last : TxState} {node : ℕ}

namespace Passes

theorem trans (first : Passes hand hand' state next) (second : Passes hand' hand'' next last) :
    Passes hand hand'' state last where
  allocated_eq := second.allocated_eq.trans first.allocated_eq
  freed := first.freed.trans second.freed
  pushed desc member := by
    rcases second.pushed desc member with before | callback
    · exact first.pushed desc before
    · rw [first.allocated_eq] at callback
      exact .inr callback
  quiet := second.quiet ∘ first.quiet
  owned := second.owned ∘ first.owned

theorem of_ledger_eq (same : ledger next = ledger state)
    (quiet : Quiet state → Quiet next) :
    Passes hand hand state next := by
  obtain ⟨tables, active, txing, timer, ioQueue, pckCnt, timUpdates, heap, pushed⟩ := next
  simp only [ledger, Prod.mk.injEq] at same
  obtain ⟨-, rfl, rfl, rfl⟩ := same
  exact ⟨rfl, List.prefix_refl _, fun _ => .inl, quiet, id⟩

theorem refl : Passes hand hand state state := of_ledger_eq rfl id

theorem subperm (passes : Passes hand hand' state next)
    (owned : state.heap.Owned (owners hand state)) :
    (owners hand' next).Subperm (owners hand state) := by
  rw [List.subperm_ext_iff]
  intro handle member
  have before := owned.once handle
  have after := (passes.owned owned).once handle
  have freed := passes.freed.sublist.count_le handle
  rw [passes.allocated_eq] at after
  omega

end Passes

/-! ## What the operations do -/

theorem passes_pop {staIdx : UInt8} (popped : rwmPopTxingList state staIdx = (next, some node)) :
    Passes hand (node :: hand) state next := by
  rcases rwmPopTxingList_cases state staIdx with ⟨-, none_left⟩ | ⟨i, first, rest, -, front, taken⟩
  · rw [none_left] at popped
    cases popped
  · rw [taken] at popped
    cases popped
    refine ⟨rfl, List.prefix_refl _, fun _ => .inl, id, fun owned => ?_⟩
    refine owned.congr fun handle => ?_
    have account := count_collect_update state.txing i rest handle
    rw [front] at account
    simp only [owners, TxState.setTxing, buffered, handed, List.cons_append, List.count_cons,
      List.count_append] at account ⊢
    omega

variable {index : ℕ} {desc : TxDesc} {msg : BusMsg} (outcome : Outcome) (decisions : Decisions)
  (staIdx : UInt8) (flag : UInt32)

theorem owners_perm (found : state.pushed[index]? = some desc) :
    (owners hand state).Perm
      (desc.msduNode :: owners hand { state with pushed := state.pushed.eraseIdx index }) := by
  obtain ⟨inside, rfl⟩ := List.getElem?_eq_some_iff.mp found
  have perm := (List.getElem_cons_eraseIdx_perm inside).map TxDesc.msduNode
  rw [List.perm_iff_count]
  intro handle
  have account := perm.count_eq handle
  simp only [List.map_cons, List.count_cons] at account
  simp only [owners, buffered, handed, List.count_cons, List.count_append]
  omega

theorem passes_confirmed (found : state.pushed[index]? = some desc) :
    Passes hand (desc.msduNode :: hand) state
      { state with pushed := state.pushed.eraseIdx index } :=
  ⟨rfl, List.prefix_refl _, fun _ member => .inl (List.mem_of_mem_eraseIdx member), id,
    fun owned => owned.congr fun handle => ((owners_perm found).count_eq handle).symm⟩

theorem passes_free : Passes (node :: hand) hand state (rwmNodeFree state node) :=
  ⟨rfl, List.prefix_append _ _, fun _ => .inl, id, Arena.Owned.free⟩

theorem passes_flushRound : Passes hand hand state (flushRound state staIdx) := by
  rw [flushRound]
  split
  · rename_i taken node popped
    exact (passes_pop popped).trans passes_free
  · rename_i same popped
    rcases rwmPopTxingList_cases state staIdx with ⟨-, none_left⟩ | ⟨i, first, rest, -, -, taken⟩
    · rw [none_left] at popped
      cases popped
      exact .refl
    · rw [taken] at popped
      cases popped

theorem passes_flushRounds (rounds : ℕ) (staIdx : UInt8) :
    Passes hand hand state (flushRounds rounds state staIdx) := by
  induction rounds generalizing state with
  | zero => exact .refl
  | succ rounds induction => exact (passes_flushRound staIdx).trans induction

theorem passes_flush : Passes hand hand state (rwmFlushTxingList state staIdx) := by
  rw [rwmFlushTxingList]
  rcases slot staIdx with _ | i
  · exact .refl
  · exact (passes_flushRounds _ staIdx).trans (.of_ledger_eq rfl id)

theorem passes_pushToQueue (asynchronous : msg.Asynchronous) :
    Passes hand hand state (pushToQueue state msg) := by
  refine .of_ledger_eq (ledger_pushToQueue state msg) fun quiet queued member => ?_
  rw [pushToQueue] at member
  split at member
  · rcases List.mem_append.mp member with before | new
    · exact quiet queued before
    · rw [List.mem_singleton.mp new]
      exact asynchronous
  · exact quiet queued member

theorem asynchronous_txing : (BusMsg.txing staIdx).Asynchronous := nofun

theorem passes_psChangeInd (psState : UInt8) :
    Passes hand hand state (rwmMsduPsChangeIndHandler state staIdx psState) := by
  rw [rwmMsduPsChangeIndHandler]
  split
  · exact .refl
  · split_ifs
    · exact .refl
    · exact (passes_pushToQueue (asynchronous_txing staIdx)).trans (.of_ledger_eq rfl id)
    · exact .of_ledger_eq rfl id
    · exact .refl

theorem passes_interfere (interference : Interference)
    (asynchronous : ∀ msg, interference = .send msg → msg.Asynchronous) :
    Passes hand hand state (interfere state interference) := by
  cases interference with
  | tables tables | powerState staIdx psState => exact .of_ledger_eq rfl id
  | psChangeInd staIdx psState => exact passes_psChangeInd staIdx psState
  | flush staIdx => exact passes_flush staIdx
  | flushRound staIdx => exact passes_flushRound staIdx
  | timeout staIdx =>
      simp only [interfere]
      split
      · exact passes_flush staIdx
      · exact .refl
  | send msg => exact passes_pushToQueue (asynchronous msg rfl)

theorem passes_announceTraffic : Passes hand hand state (announceTraffic outcome state staIdx) := by
  refine .of_ledger_eq (ledger_announceTraffic outcome state staIdx) fun quiet => ?_
  have view := drainView_announceTraffic outcome state staIdx
  simp only [drainView, Prod.mk.injEq] at view
  rw [Quiet, view.2.2]
  exact quiet

theorem passes_timUpdate (sent : Bool) (staIdx : UInt8) (txAvail : Bool) :
    Passes hand hand state (rwMsgSendTimUpdate sent state staIdx txAvail) := by
  cases sent <;> exact .of_ledger_eq rfl id

theorem passes_transferNode :
    Passes (node :: hand) hand state (rwmTransferNode outcome state node flag) := by
  by_cases live : state.heap.Live node
  · obtain ⟨msdu, found⟩ : ∃ msdu, state.heap.allocated[node]? = some msdu :=
      ⟨_, List.getElem?_eq_getElem live.1⟩
    have refused : Passes (node :: hand) hand state (rwmNodeFree state node).decPckCnt :=
      passes_free.trans (.of_ledger_eq rfl id)
    simp only [rwmTransferNode, TxState.readNode, Arena.read, if_pos live, found]
    rcases chooseQueue state.tables msdu with _ | ⟨tid, queueIdx⟩
    · exact refused
    · simp only
      split
      · exact refused
      · refine ⟨rfl, List.prefix_refl _, ?_, id, fun owned => ?_⟩
        · intro desc member
          rcases List.mem_append.mp member with before | new
          · exact .inl before
          · rw [List.mem_singleton.mp new]
            exact .inr ⟨msdu, found, rfl⟩
        · refine owned.congr fun handle => ?_
          simp only [owners, buffered, handed, List.map_append, List.map_cons, List.map_nil,
            MsduNode.txDesc, List.cons_append, List.count_cons, List.count_append, List.count_nil]
          omega
  · -- Nobody reads a node that is not owned.
    have faulty : rwmTransferNode outcome state node flag =
        { state with heap := (state.heap.read node).1 } := by
      simp [rwmTransferNode, TxState.readNode, Arena.read, if_neg live]
    have heap_eq : (state.heap.read node).1 =
        { state.heap with faults := state.heap.faults ++ [node] } := by
      rw [Arena.read, if_neg live]
    rw [faulty, heap_eq]
    exact ⟨rfl, List.prefix_refl _, fun _ => .inl, id,
      fun owned => absurd (owned.live List.mem_cons_self) live⟩

theorem passes_transferCounted :
    Passes [node] [] state (rwmTransferNode outcome state.incPckCnt node flag) :=
  have counted : Passes [node] [node] state state.incPckCnt := .of_ledger_eq rfl id
  counted.trans (passes_transferNode outcome flag)

theorem passes_pushTxingList {staIdx : UInt8} (inside : staIdx.toNat < maxPsStaNum) :
    Passes (node :: hand) hand state (rwmPushTxingList state node staIdx) := by
  have place : slot staIdx = some ⟨staIdx.toNat, inside⟩ := dif_pos inside
  simp only [rwmPushTxingList, place]
  generalize (⟨staIdx.toNat, inside⟩ : Fin maxPsStaNum) = i
  refine ⟨rfl, List.prefix_refl _, fun _ => .inl, id, fun owned => ?_⟩
  refine owned.congr fun handle => ?_
  have account := count_collect_update state.txing i (state.txing i ++ [node]) handle
  simp only [owners, TxState.setTxing, buffered, handed, List.cons_append, List.count_cons,
    List.count_append, List.count_nil] at account ⊢
  omega

/-! ## Steps of the core thread -/

theorem passes_advance (state : TxState) {pc : CorePc} (running : pc ≠ .idle) (placed : pc.Placed) :
    Passes pc.hand (advance decisions state pc).2.hand state (advance decisions state pc).1 ∧
      (advance decisions state pc).2.Placed := by
  cases pc with
  | idle => exact absurd rfl running
  | direct node => exact ⟨passes_transferCounted _ 0, trivial⟩
  | buffering node staIdx => exact ⟨passes_announceTraffic _ staIdx, placed⟩
  | announced node staIdx => exact ⟨passes_pushTxingList placed, trivial⟩
  | popped staIdx node => exact ⟨.refl, trivial⟩
  | counted staIdx node nodeLeft => exact ⟨passes_transferCounted _ txuCntrlMoreData, trivial⟩
  | transferred staIdx nodeLeft =>
      simp only [advance]
      split_ifs
      · exact ⟨passes_pushToQueue (asynchronous_txing staIdx), trivial⟩
      · exact ⟨passes_timUpdate _ staIdx false, trivial⟩
      · exact ⟨.refl, trivial⟩

def TxState.allocate (state : TxState) (msdu : MsduNode) : TxState :=
  { state with heap := (state.heap.alloc msdu).1 }

/-- The node that is made of a frame. -/
def newNode (state : TxState) (vifIdx : UInt8) (frame : EthFrame) (sync : Bool) (args : ℕ) :
    MsduNode :=
  ⟨frame, vifIdx, rwmMgmtTxGetStaidx state.tables vifIdx frame.dest, sync, args⟩

theorem passes_takeMsg_tx_refused {decisions : Decisions}
    (refused : decisions.copied = false ∨ decisions.allocated = false) (vifIdx : UInt8)
    (frame : EthFrame) (sync : Bool) (args : ℕ) :
    Passes [] [] state (takeMsg decisions state (.tx vifIdx frame sync args)).1 ∧
      (takeMsg decisions state (.tx vifIdx frame sync args)).2 = .idle := by
  simp only [takeMsg]
  split_ifs with copied allocated
  · rcases refused with not_copied | not_allocated
    · exact absurd (copied.symm.trans not_copied) (by simp)
    · exact absurd (allocated.symm.trans not_allocated) (by simp)
  · exact ⟨.of_ledger_eq rfl id, rfl⟩
  · exact ⟨.refl, rfl⟩

theorem passes_takeMsg_tx {decisions : Decisions} (copied : decisions.copied = true)
    (allocated : decisions.allocated = true) (vifIdx : UInt8) (frame : EthFrame) (sync : Bool)
    (args : ℕ) {owned : List ℕ} (held : state.heap.Owned owned) :
    let taken := takeMsg decisions state (.tx vifIdx frame sync args)
    Passes [state.heap.allocated.length] taken.2.hand
        (state.allocate (newNode state vifIdx frame sync args)) taken.1 ∧
      taken.2.Placed := by
  obtain ⟨msdu, read⟩ := (held.alloc (newNode state vifIdx frame sync args)).read_eq
    List.mem_cons_self
  have readNode_eq : (state.allocate (newNode state vifIdx frame sync args)).readNode
      state.heap.allocated.length =
        (state.allocate (newNode state vifIdx frame sync args), some msdu) := by
    simp only [TxState.readNode]
    exact congrArg (fun result : Arena MsduNode × Option MsduNode =>
      (({ state with heap := result.1 } : TxState), result.2)) read
  have taken_eq : takeMsg decisions state (.tx vifIdx frame sync args) =
      let fresh := state.allocate (newNode state vifIdx frame sync args)
      if rwmMgmtIsApInface fresh.tables msdu.vifIdx = false ∨ fresh.active = false then
        (rwmTransferNode decisions.outcome fresh.incPckCnt state.heap.allocated.length 0, .idle)
      else if (staMgmtIsInPs fresh.tables msdu.staIdx ∨
          rwmTxlingListNodeCount fresh msdu.staIdx ≠ 0) ∧
          msdu.staIdx.toNat < maxPsStaNum then
        (fresh, .buffering state.heap.allocated.length msdu.staIdx)
      else
        (fresh, .direct state.heap.allocated.length) := by
    simp only [takeMsg, if_pos copied, if_pos allocated]
    have made : TxState.readNode
        { state with heap := (state.heap.alloc (newNode state vifIdx frame sync args)).1 }
        (state.heap.alloc (newNode state vifIdx frame sync args)).2 =
          (state.allocate (newNode state vifIdx frame sync args), some msdu) := readNode_eq
    rw [newNode] at made
    rw [made]
    rfl
  rw [taken_eq]
  dsimp only
  split_ifs with direct buffer
  · exact ⟨passes_transferCounted _ 0, trivial⟩
  · exact ⟨.refl, buffer.2⟩
  · exact ⟨.refl, trivial⟩

/-! ## Steps of all threads -/

/-- Every node has one owner, descriptors call back for synchronous nodes, and no synchronous frame
is queued. -/
structure Nodes (hand : List ℕ) (state : TxState) : Prop where
  owned : state.heap.Owned (owners hand state)
  callbacks : ∀ desc ∈ state.pushed, ∃ msdu, state.heap.allocated[desc.msduNode]? = some msdu ∧
    desc.callback = msdu.sync
  quiet : Quiet state

theorem nodes_init (tables : MacTables) : Nodes [] (rwmMsduInit tables) where
  owned := Arena.owned_empty
  callbacks _ member := absurd member List.not_mem_nil
  quiet _ member := absurd member List.not_mem_nil

theorem Nodes.passes (nodes : Nodes hand state) (passes : Passes hand hand' state next) :
    Nodes hand' next where
  owned := passes.owned nodes.owned
  callbacks desc member := by
    rw [passes.allocated_eq]
    exact (passes.pushed desc member).elim (nodes.callbacks desc) id
  quiet := passes.quiet nodes.quiet

theorem Nodes.allocate (nodes : Nodes [] state) (msdu : MsduNode) :
    Nodes [state.heap.allocated.length] (state.allocate msdu) where
  owned := nodes.owned.alloc msdu
  callbacks desc member := by
    obtain ⟨msdu', found, callback⟩ := nodes.callbacks desc member
    refine ⟨msdu', ?_, callback⟩
    exact (List.getElem?_append_left (List.getElem?_eq_some_iff.mp found).1).trans found
  quiet := nodes.quiet

/-- A step moves or frees nodes, or the core thread makes a node of an asynchronous frame first. -/
inductive Carries (system next : System) : Prop
  | moves (passes : Passes system.pc.hand next.pc.hand system.tx next.tx)
  | makes (msdu : MsduNode) (asynchronous : msdu.sync = false) (idle : system.pc = .idle)
      (passes : Passes [system.tx.heap.allocated.length] next.pc.hand (system.tx.allocate msdu)
        next.tx)

variable {system : System}

theorem carries_takeMsg (asynchronous : msg.Asynchronous) (nodes : Nodes [] state) :
    (Passes [] (takeMsg decisions state msg).2.hand state (takeMsg decisions state msg).1 ∨
      ∃ msdu : MsduNode, msdu.sync = false ∧
        Passes [state.heap.allocated.length] (takeMsg decisions state msg).2.hand
          (state.allocate msdu) (takeMsg decisions state msg).1) ∧
      (takeMsg decisions state msg).2.Placed := by
  cases msg with
  | other => exact ⟨.inl .refl, trivial⟩
  | txing staIdx =>
      simp only [takeMsg]
      split
      · rename_i popped
        rcases rwmPopTxingList_cases state staIdx with
          ⟨-, none_left⟩ | ⟨i, first, rest, -, -, taken⟩
        · rw [none_left] at popped
          cases popped
          exact ⟨.inl .refl, trivial⟩
        · rw [taken] at popped
          cases popped
      · rename_i popped
        exact ⟨.inl (passes_pop popped), trivial⟩
  | tx vifIdx frame sync args =>
      by_cases refused : decisions.copied = false ∨ decisions.allocated = false
      · obtain ⟨passes, idle⟩ := passes_takeMsg_tx_refused refused vifIdx frame sync args
        rw [idle]
        exact ⟨.inl passes, trivial⟩
      · obtain ⟨copied, allocated⟩ := not_or.mp refused
        obtain ⟨passes, placed⟩ := passes_takeMsg_tx (Bool.eq_true_of_not_eq_false copied)
          (Bool.eq_true_of_not_eq_false allocated) vifIdx frame sync args nodes.owned
        exact ⟨.inr ⟨_, asynchronous vifIdx frame sync args rfl, passes⟩, placed⟩

theorem carries_step (nodes : Nodes system.pc.hand system.tx) (placed : system.pc.Placed)
    (action : Action) (asynchronous : ∀ msg, action = .send msg → msg.Asynchronous) :
    Carries system (threads.step system action).1 ∧ (threads.step system action).1.pc.Placed := by
  cases action with
  | powerChange staIdx psState | tables changed => exact ⟨.moves (.of_ledger_eq rfl id), placed⟩
  | indication =>
      simp only [threads]
      split
      · exact ⟨.moves .refl, placed⟩
      · exact ⟨.moves (passes_interfere (.psChangeInd _ _) (by simp)), placed⟩
  | flush staIdx => exact ⟨.moves (passes_interfere (.flush staIdx) (by simp)), placed⟩
  | flushRound staIdx => exact ⟨.moves (passes_interfere (.flushRound staIdx) (by simp)), placed⟩
  | timeout staIdx => exact ⟨.moves (passes_interfere (.timeout staIdx) (by simp)), placed⟩
  | send msg =>
      refine ⟨.moves (passes_interfere (.send msg) ?_), placed⟩
      rintro sent sends
      cases sends
      exact asynchronous msg rfl
  | core decisions =>
      by_cases running : system.pc = .idle
      · rw [running] at nodes
        rcases queue_eq : system.tx.ioQueue with _ | ⟨msg, rest⟩
        · have stays : (threads.step system (.core decisions)).1 = system := by
            simp only [threads, advance, running, queue_eq]
            rw [← running]
          rw [stays]
          exact ⟨.moves .refl, placed⟩
        · have taken : Passes [] [] system.tx { system.tx with ioQueue := rest } := by
            refine .of_ledger_eq rfl fun quiet queued member => ?_
            exact quiet queued (queue_eq ▸ List.mem_cons_of_mem msg member)
          have asynchronous := nodes.quiet msg (queue_eq ▸ List.mem_cons_self)
          obtain ⟨carries, placed⟩ := carries_takeMsg decisions asynchronous (nodes.passes taken)
          simp only [threads, advance, running, queue_eq]
          refine ⟨?_, placed⟩
          rcases carries with passes | ⟨msdu, asynchronous, passes⟩
          · refine .moves ?_
            rw [running]
            exact taken.trans passes
          · refine .makes msdu asynchronous running ?_
            have allocated : Passes [system.tx.heap.allocated.length]
                [system.tx.heap.allocated.length] (system.tx.allocate msdu)
                (TxState.allocate { system.tx with ioQueue := rest } msdu) := by
              refine .of_ledger_eq rfl fun quiet queued member => ?_
              exact quiet queued (queue_eq ▸ List.mem_cons_of_mem msg member)
            exact allocated.trans passes
      · obtain ⟨passes, placed⟩ := passes_advance decisions system.tx running placed
        exact ⟨.moves passes, placed⟩

end BdkFreertos.Msdu
