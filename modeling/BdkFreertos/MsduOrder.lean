import BdkFreertos.Lanes
import BdkFreertos.Msdu

/-!
# No node is lost and none overtakes another

Each submitted node is at any time in one place: a station's list, the hands of the MAC, or freed.
The nodes for one station reach the MAC in the order in which they were submitted, whatever the other
threads do between and during the handlers of the core thread.
-/

namespace BdkFreertos.Msdu

/-! ## What is where -/

def buffered (state : TxState) : List ℕ := collect state.txing

def handed (state : TxState) : List ℕ := state.pushed.map TxDesc.msduNode

/-- The nodes in a station's list. -/
def waiting (state : TxState) (staIdx : UInt8) : List ℕ :=
  match slot staIdx with
  | none => []
  | some i => state.txing i

/-- The nodes submitted for a station of the access point. -/
def submittedTo (staIdx : UInt8) (submissions : List Submission) : List ℕ :=
  (submissions.filter fun submission => submission.toPeer ∧ submission.staIdx = staIdx).map
    Submission.node

variable {submissions : List Submission} {node : ℕ} {first second : UInt8} {state other : TxState}
  {flag : UInt32} {before next : TxState} {event : Event} (outcome : Outcome) (rounds : ℕ)
  (staIdx : UInt8)

theorem mem_submittedTo {staIdx : UInt8} :
    node ∈ submittedTo staIdx submissions ↔ ⟨node, staIdx, true⟩ ∈ submissions := by
  simp only [submittedTo, List.mem_map, List.mem_filter, decide_eq_true_eq]
  constructor
  · rintro ⟨⟨node, staIdx, toPeer⟩, ⟨member, rfl, rfl⟩, rfl⟩
    exact member
  · intro member
    exact ⟨_, ⟨member, rfl, rfl⟩, rfl⟩

theorem submittedTo_append (front back : List Submission) :
    submittedTo staIdx (front ++ back) = submittedTo staIdx front ++ submittedTo staIdx back := by
  simp [submittedTo]

theorem submittedTo_unique (distinct : (submissions.map Submission.node).Nodup)
    (to_first : node ∈ submittedTo first submissions)
    (to_second : node ∈ submittedTo second submissions) : first = second := by
  have same := List.inj_on_of_nodup_map distinct (mem_submittedTo.mp to_first)
    (mem_submittedTo.mp to_second) rfl
  exact congrArg Submission.staIdx same

theorem val_of_slot {staIdx : UInt8} {i : Fin maxPsStaNum} (place : slot staIdx = some i) :
    i.val = staIdx.toNat := by
  rw [slot] at place
  split at place
  · exact (congrArg Fin.val (Option.some.inj place)).symm
  · contradiction

theorem slot_inj {i : Fin maxPsStaNum} (first_slot : slot first = some i)
    (second_slot : slot second = some i) : first = second := by
  apply UInt8.toNat_inj.mp
  rw [← val_of_slot first_slot, ← val_of_slot second_slot]

theorem slot_ofNat : ∀ i : Fin maxPsStaNum, slot (UInt8.ofNat i) = some i := by
  decide

theorem rwmPopTxingList_cases (state : TxState) (staIdx : UInt8) :
    (rwmTxlingListNodeCount state staIdx = 0 ∧ rwmPopTxingList state staIdx = (state, none)) ∨
      ∃ i node rest, slot staIdx = some i ∧ state.txing i = node :: rest ∧
        rwmPopTxingList state staIdx = (state.setTxing i rest, some node) := by
  rcases place : slot staIdx with _ | i
  · refine Or.inl ⟨?_, ?_⟩
    · rw [rwmTxlingListNodeCount, place]
    · rw [rwmPopTxingList, place]
  · rcases front : state.txing i with _ | ⟨node, rest⟩
    · refine Or.inl ⟨?_, ?_⟩
      · rw [rwmTxlingListNodeCount, place]
        simp [front]
      · rw [rwmPopTxingList, place]
        simp [front]
    · refine Or.inr ⟨i, node, rest, rfl, front, ?_⟩
      rw [rwmPopTxingList, place]
      simp [front]

theorem txing_setTxing_tail {i : Fin maxPsStaNum} {rest : List ℕ}
    (front : state.txing i = node :: rest) (j : Fin maxPsStaNum) :
    ((state.setTxing i rest).txing j).Sublist (state.txing j) := by
  by_cases same : j = i
  · subst same
    simp only [TxState.setTxing, Function.update_self, front]
    exact List.sublist_cons_self node rest
  · simp only [TxState.setTxing, Function.update_of_ne same]
    exact List.Sublist.refl _

theorem waiting_setTxing (state : TxState) (i : Fin maxPsStaNum) (nodes : List ℕ)
    (staIdx : UInt8) :
    waiting (state.setTxing i nodes) staIdx =
      if slot staIdx = some i then nodes else waiting state staIdx := by
  rw [waiting, waiting]
  rcases slot staIdx with _ | other
  · rfl
  · simp [TxState.setTxing, Function.update_apply]

/-! ## What leaves the nodes alone -/

/-- What the account of the nodes depends on. -/
def ledger (state : TxState) :
    Bool × Arena MsduNode × (Fin maxPsStaNum → List ℕ) × List TxDesc :=
  (state.active, state.heap, state.txing, state.pushed)

@[simp]
theorem ledger_pushToQueue (state : TxState) (msg : BusMsg) :
    ledger (pushToQueue state msg) = ledger state := by
  rw [pushToQueue]
  split <;> rfl

@[simp]
theorem ledger_setTimer (state : TxState) (i : Fin maxPsStaNum) (running : Bool) :
    ledger (state.setTimer i running) = ledger state := rfl

@[simp]
theorem ledger_incPckCnt (state : TxState) : ledger state.incPckCnt = ledger state := rfl

@[simp]
theorem ledger_timUpdate (sent : Bool) (state : TxState) (staIdx : UInt8) (txAvail : Bool) :
    ledger (rwMsgSendTimUpdate sent state staIdx txAvail) = ledger state := by
  cases sent <;> rfl

@[simp]
theorem ledger_announceTraffic (state : TxState) (staIdx : UInt8) :
    ledger (announceTraffic outcome state staIdx) = ledger state := by
  rw [announceTraffic]
  split
  · rfl
  · split <;> simp

@[simp]
theorem ledger_psChangeInd (state : TxState) (staIdx psState : UInt8) :
    ledger (rwmMsduPsChangeIndHandler state staIdx psState) = ledger state := by
  rw [rwmMsduPsChangeIndHandler]
  split
  · rfl
  · split_ifs <;> simp [bmsgTxingSender]

/-! ## The invariant -/

/-- Every submitted node is owned, and every station's nodes are in order, while the core thread
holds the nodes `taken` from the front of a list or `fresh` from a sender. -/
structure Kept (submissions : List Submission) (taken fresh : List ℕ) (state : TxState) : Prop where
  active : state.active = true
  owned : state.heap.Owned (taken ++ fresh ++ (buffered state ++ handed state))
  numbered : submissions.map Submission.node = List.range state.heap.allocated.length
  ordered : ∀ staIdx, InOrder (submittedTo staIdx submissions) (handed state)
    (waiting state staIdx) taken fresh

variable {submissions : List Submission} {taken fresh : List ℕ} {state : TxState} {node : ℕ}

namespace Kept

section

variable (kept : Kept submissions taken fresh state)
include kept

theorem of_ledger_eq {other : TxState} (same : ledger other = ledger state) :
    Kept submissions taken fresh other := by
  obtain ⟨tables, active, txing, timer, ioQueue, pckCnt, timUpdates, heap, pushed⟩ := other
  simp only [ledger, Prod.mk.injEq] at same
  obtain ⟨rfl, rfl, rfl, rfl⟩ := same
  exact ⟨kept.active, kept.owned, kept.numbered, kept.ordered⟩

theorem distinct : (submissions.map Submission.node).Nodup := by
  rw [kept.numbered]
  exact List.nodup_range

theorem nodup_submittedTo (staIdx : UInt8) : (submittedTo staIdx submissions).Nodup :=
  kept.distinct.sublist (List.filter_sublist.map Submission.node)

theorem waiting_sublist (staIdx : UInt8) :
    (waiting state staIdx).Sublist (submittedTo staIdx submissions) := by
  refine List.Sublist.trans ?_ (kept.ordered staIdx)
  exact (List.sublist_append_right _ _).trans (List.sublist_append_left _ _)

end

theorem setTxing_tail (kept : Kept submissions [] [] state) {staIdx : UInt8}
    {i : Fin maxPsStaNum} {rest : List ℕ} (place : slot staIdx = some i)
    (front : state.txing i = node :: rest) :
    Kept submissions [node] [] (state.setTxing i rest) := by
  have waiting_eq : waiting state staIdx = node :: rest := by
    rw [waiting, place]
    exact front
  refine ⟨kept.active, ?_, kept.numbered, ?_⟩
  · apply kept.owned.congr
    intro handle
    have account := count_collect_update state.txing i rest handle
    rw [front] at account
    simp only [TxState.setTxing, buffered, handed, List.nil_append, List.append_nil,
      List.singleton_append, List.count_cons, List.count_append] at account ⊢
    omega
  · intro other
    rw [waiting_setTxing]
    split
    · rename_i same
      obtain rfl := slot_inj same place
      have ordered := kept.ordered other
      rw [waiting_eq] at ordered
      exact ordered.take
    · rename_i different
      apply (kept.ordered other).takeOther
      intro known
      have here : node ∈ submittedTo staIdx submissions := by
        apply (kept.waiting_sublist staIdx).subset
        rw [waiting_eq]
        exact List.mem_cons_self
      exact different (submittedTo_unique kept.distinct known here ▸ place)

section

variable (kept : Kept submissions taken fresh state)
include kept

theorem flushRound (staIdx : UInt8) : Kept submissions taken fresh (flushRound state staIdx) := by
  rcases rwmPopTxingList_cases state staIdx with ⟨-, popped⟩ | ⟨i, node, rest, -, front, popped⟩
  · rw [Msdu.flushRound, popped]
    exact kept
  · rw [Msdu.flushRound, popped]
    refine ⟨kept.active, ?_, kept.numbered, ?_⟩
    · apply Arena.Owned.free
      apply kept.owned.congr
      intro handle
      have account := count_collect_update state.txing i rest handle
      rw [front] at account
      simp only [TxState.setTxing, rwmNodeFree, buffered, handed, List.count_cons,
        List.count_append] at account ⊢
      omega
    · intro other
      have fewer : (waiting (state.setTxing i rest) other).Sublist (waiting state other) := by
        rw [waiting, waiting]
        rcases slot other with _ | j
        · exact List.Sublist.refl _
        · exact txing_setTxing_tail front j
      exact (kept.ordered other).shrink fewer

theorem flushRounds (rounds : ℕ) (staIdx : UInt8) :
    Kept submissions taken fresh (flushRounds rounds state staIdx) := by
  induction rounds generalizing state with
  | zero => exact kept
  | succ rounds induction => exact induction (kept.flushRound staIdx)

theorem flush (staIdx : UInt8) : Kept submissions taken fresh (rwmFlushTxingList state staIdx) := by
  rw [rwmFlushTxingList]
  rcases slot staIdx with _ | i
  · exact kept
  · exact (kept.flushRounds (rwmTxlingListNodeCount state staIdx) staIdx).of_ledger_eq rfl

theorem interfere (interference : Interference) :
    Kept submissions taken fresh (interfere state interference) := by
  cases interference with
  | tables tables | powerState staIdx psState => exact kept.of_ledger_eq rfl
  | psChangeInd staIdx psState => exact kept.of_ledger_eq (ledger_psChangeInd state staIdx psState)
  | flush staIdx => exact kept.flush staIdx
  | flushRound staIdx => exact kept.flushRound staIdx
  | timeout staIdx =>
      simp only [Msdu.interfere]
      split
      · exact kept.flush staIdx
      · exact kept
  | send msg => exact kept.of_ledger_eq (ledger_pushToQueue state msg)

theorem interfereAll (during : List Interference) :
    Kept submissions taken fresh (interfereAll state during) := by
  induction during generalizing state with
  | nil => exact kept
  | cons interference during induction => exact induction (kept.interfere interference)

end

end Kept

/-! ## Other threads only take nodes out -/

theorem txing_flushRound (state : TxState) (staIdx : UInt8) (i : Fin maxPsStaNum) :
    ((flushRound state staIdx).txing i).Sublist (state.txing i) := by
  rcases rwmPopTxingList_cases state staIdx with ⟨-, popped⟩ | ⟨place, node, rest, -, front, popped⟩
  · rw [flushRound, popped]
  · rw [flushRound, popped]
    exact txing_setTxing_tail front i

theorem txing_flushRounds (state : TxState) (staIdx : UInt8) (i : Fin maxPsStaNum) :
    ((flushRounds rounds state staIdx).txing i).Sublist (state.txing i) := by
  induction rounds generalizing state with
  | zero => exact List.Sublist.refl _
  | succ rounds induction =>
      exact (induction (flushRound state staIdx)).trans (txing_flushRound state staIdx i)

theorem txing_flush (state : TxState) (staIdx : UInt8) (i : Fin maxPsStaNum) :
    ((rwmFlushTxingList state staIdx).txing i).Sublist (state.txing i) := by
  rw [rwmFlushTxingList]
  rcases slot staIdx with _ | place
  · exact List.Sublist.refl _
  · exact txing_flushRounds _ state staIdx i

theorem txing_eq_of_ledger (same : ledger other = ledger state) : other.txing = state.txing :=
  congrArg (fun entries => entries.2.2.1) same

theorem heap_eq_of_ledger (same : ledger other = ledger state) : other.heap = state.heap :=
  congrArg (fun entries => entries.2.1) same

theorem txing_interfere (state : TxState) (interference : Interference) (i : Fin maxPsStaNum) :
    ((interfere state interference).txing i).Sublist (state.txing i) := by
  cases interference with
  | tables tables | powerState staIdx psState => exact List.Sublist.refl _
  | psChangeInd staIdx psState =>
      rw [interfere, txing_eq_of_ledger (ledger_psChangeInd state staIdx psState)]
  | flush staIdx => exact txing_flush state staIdx i
  | flushRound staIdx => exact txing_flushRound state staIdx i
  | timeout staIdx =>
      simp only [interfere]
      split
      · exact txing_flush state staIdx i
      · exact List.Sublist.refl _
  | send msg => rw [interfere, txing_eq_of_ledger (ledger_pushToQueue state msg)]

theorem txing_interfereAll (state : TxState) (during : List Interference) (i : Fin maxPsStaNum) :
    ((interfereAll state during).txing i).Sublist (state.txing i) := by
  induction during generalizing state with
  | nil => exact List.Sublist.refl _
  | cons interference during induction =>
      exact (induction (interfere state interference)).trans (txing_interfere state interference i)

theorem waiting_interfereAll_nil {staIdx : UInt8} (during : List Interference)
    (empty : waiting state staIdx = []) : waiting (interfereAll state during) staIdx = [] := by
  rcases place : slot staIdx with _ | i
  · rw [waiting, place]
  · have fewer := txing_interfereAll state during i
    rw [waiting, place] at empty ⊢
    simp only at empty
    rw [empty] at fewer
    exact List.sublist_nil.mp fewer

/-! ## Handing over -/

namespace Kept

section

variable (kept : Kept submissions taken fresh state) (hand : taken ++ fresh = [node])
include kept hand

theorem read_hand : ∃ msdu, state.heap.read node = (state.heap, some msdu) := by
  apply kept.owned.read_eq
  rw [hand]
  exact List.mem_cons_self

theorem freeHand : Kept submissions [] [] (rwmNodeFree state node).decPckCnt := by
  refine ⟨kept.active, ?_, kept.numbered, fun staIdx => (kept.ordered staIdx).drop⟩
  apply Arena.Owned.free
  have owned := kept.owned
  rw [hand] at owned
  exact owned

theorem deliver (turn : ∀ staIdx, InOrder (submittedTo staIdx submissions) (handed state ++ [node])
      (waiting state staIdx) [] []) {desc : TxDesc} (carries : desc.msduNode = node) :
    Kept submissions [] [] { state with pushed := state.pushed ++ [desc] } := by
  have handed_eq : handed { state with pushed := state.pushed ++ [desc] } =
      handed state ++ [node] := by
    simp [handed, carries]
  refine ⟨kept.active, ?_, kept.numbered, ?_⟩
  · apply kept.owned.congr
    intro handle
    rw [handed_eq, hand]
    simp only [buffered, List.nil_append, List.count_append]
    omega
  · intro staIdx
    rw [handed_eq]
    exact turn staIdx

theorem transferNode
    (turn : ∀ staIdx, InOrder (submittedTo staIdx submissions) (handed state ++ [node])
      (waiting state staIdx) [] []) (outcome : Outcome) (flag : UInt32) :
    Kept submissions [] [] (rwmTransferNode outcome state node flag) := by
  obtain ⟨msdu, read⟩ := kept.read_hand hand
  simp only [rwmTransferNode, TxState.readNode, read]
  rcases chooseQueue state.tables msdu with _ | ⟨tid, queueIdx⟩
  · exact kept.freeHand hand
  · simp only
    split
    · exact kept.freeHand hand
    · exact kept.deliver hand turn rfl

end

theorem pushTxingList (kept : Kept submissions [] [node] state) {staIdx : UInt8}
    (inside : staIdx.toNat < maxPsStaNum) (known : node ∈ submittedTo staIdx submissions) :
    Kept submissions [] [] (rwmPushTxingList state node staIdx) := by
  have place : slot staIdx = some ⟨staIdx.toNat, inside⟩ := dif_pos inside
  generalize (⟨staIdx.toNat, inside⟩ : Fin maxPsStaNum) = i at place
  simp only [rwmPushTxingList, place]
  refine ⟨kept.active, ?_, kept.numbered, ?_⟩
  · apply kept.owned.congr
    intro handle
    have account := count_collect_update state.txing i (state.txing i ++ [node]) handle
    simp only [TxState.setTxing, buffered, handed, List.nil_append, List.count_append]
      at account ⊢
    omega
  · intro other
    rw [waiting_setTxing]
    split
    · rename_i same
      obtain rfl := slot_inj same place
      have joined := (kept.ordered other).join known
      rw [waiting, place] at joined
      exact joined
    · exact (kept.ordered other).drop

end Kept

/-! ## Handlers -/

theorem Kept.not_submitted (kept : Kept submissions taken fresh state) (staIdx : UInt8)
    (toPeer : Bool) : ⟨state.heap.allocated.length, staIdx, toPeer⟩ ∉ submissions := by
  intro member
  have old := List.mem_map_of_mem (f := Submission.node) member
  rw [kept.numbered, List.mem_range] at old
  exact Nat.lt_irrefl _ old

theorem Kept.alloc (kept : Kept submissions [] [] state) (msdu : MsduNode) (toPeer : Bool) :
    Kept (submissions ++ [⟨(state.heap.alloc msdu).2, msdu.staIdx, toPeer⟩]) []
      [(state.heap.alloc msdu).2] { state with heap := (state.heap.alloc msdu).1 } := by
  have fresh_handed : (state.heap.alloc msdu).2 ∉ handed state := by
    intro member
    have live := kept.owned.live (List.mem_append_right _ (List.mem_append_right _ member))
    exact Nat.lt_irrefl _ live.1
  refine ⟨kept.active, kept.owned.alloc msdu, ?_, ?_⟩
  · rw [List.map_append, kept.numbered]
    simp [Arena.alloc, List.range_succ]
  · intro staIdx
    rw [submittedTo_append]
    have ordered := kept.ordered staIdx
    by_cases mine : toPeer = true ∧ msdu.staIdx = staIdx
    · have single : submittedTo staIdx [⟨(state.heap.alloc msdu).2, msdu.staIdx, toPeer⟩] =
          [(state.heap.alloc msdu).2] := by
        simp [submittedTo, mine]
      rw [single]
      exact ordered.submit fresh_handed
    · have none_new : submittedTo staIdx [⟨(state.heap.alloc msdu).2, msdu.staIdx, toPeer⟩] =
          [] := by
        simp [submittedTo, mine]
      rw [none_new, List.append_nil]
      apply ordered.submitOther
      intro known
      exact kept.not_submitted staIdx true (mem_submittedTo.mp known)

theorem waiting_nil_of_count {staIdx : UInt8} (none_left : rwmTxlingListNodeCount state staIdx = 0) :
    waiting state staIdx = [] := by
  rcases place : slot staIdx with _ | i
  · rw [waiting, place]
  · rw [rwmTxlingListNodeCount, place] at none_left
    rw [waiting, place]
    exact List.eq_nil_of_length_eq_zero none_left

theorem Kept.psTranferNode (kept : Kept submissions [] [node] state) (outcome : Outcome)
    {msdu : MsduNode} (read : state.heap.read node = (state.heap, some msdu))
    (peer : ∀ staIdx, node ∈ submittedTo staIdx submissions ↔
      rwmMgmtIsApInface state.tables msdu.vifIdx = true ∧ staIdx = msdu.staIdx) :
    Kept submissions [] [] (rwmPsTranferNode outcome state node) := by
  have readNode_eq : state.readNode node = (state, some msdu) := by
    rw [TxState.readNode, read]
  have active : ¬state.active = false := by
    rw [kept.active]
    simp
  simp only [rwmPsTranferNode, readNode_eq, if_neg active]
  split
  · rename_i not_peer
    have counted := kept.of_ledger_eq (ledger_incPckCnt state)
    refine counted.transferNode rfl ?_ outcome 0
    intro staIdx
    apply (kept.ordered staIdx).deliverFresh
    intro known
    exact absurd ((peer staIdx).mp known).1 (by simp [not_peer])
  · rename_i to_peer
    split
    · rename_i buffer
      have known : node ∈ submittedTo msdu.staIdx submissions :=
        (peer msdu.staIdx).mpr ⟨Bool.not_eq_false _ ▸ to_peer, rfl⟩
      have announced := (kept.interfereAll outcome.first).of_ledger_eq
        (ledger_announceTraffic outcome _ msdu.staIdx)
      exact (announced.interfereAll outcome.second).pushTxingList buffer.2 known
    · rename_i direct
      have empty : waiting state msdu.staIdx = [] := by
        by_cases inside : msdu.staIdx.toNat < maxPsStaNum
        · apply waiting_nil_of_count
          by_contra left
          exact direct ⟨Or.inr left, inside⟩
        · rw [waiting, slot, dif_neg inside]
      have still_empty := waiting_interfereAll_nil outcome.first empty
      have counted := (kept.interfereAll outcome.first).of_ledger_eq (ledger_incPckCnt _)
      refine counted.transferNode rfl ?_ outcome 0
      intro staIdx
      apply (counted.ordered staIdx).deliverFresh
      intro known
      obtain rfl := ((peer staIdx).mp known).2
      exact still_empty

theorem Kept.sendTxingNode (kept : Kept submissions [] [] state) (outcome : Outcome)
    (staIdx : UInt8) : Kept submissions [] [] (rwmMsduSendTxingNode outcome state staIdx) := by
  rcases rwmPopTxingList_cases state staIdx with
    ⟨-, popped⟩ | ⟨i, node, rest, place, front, popped⟩
  · rw [rwmMsduSendTxingNode, popped]
    exact kept
  · rw [rwmMsduSendTxingNode, popped]
    have held := ((kept.setTxing_tail place front).interfereAll outcome.first).interfereAll
      outcome.second
    have counted := held.of_ledger_eq (ledger_incPckCnt _)
    have sent := (counted.transferNode rfl (fun other => (counted.ordered other).deliverTaken)
      outcome txuCntrlMoreData).interfereAll outcome.third
    dsimp only
    split_ifs
    · exact sent.of_ledger_eq (ledger_pushToQueue _ (.txing staIdx))
    · exact sent.of_ledger_eq (ledger_timUpdate outcome.timSent _ staIdx false)
    · exact sent

theorem Kept.transfer (kept : Kept submissions [] [] state) (outcome : Outcome) (vifIdx : UInt8)
    (frame : EthFrame) (sync : Bool) (args : ℕ) :
    Kept (submissions ++ (rwmTransfer outcome state vifIdx frame sync args).2) [] []
      (rwmTransfer outcome state vifIdx frame sync args).1 := by
  rw [rwmTransfer]
  split
  · let msdu : MsduNode :=
      ⟨frame, vifIdx, rwmMgmtTxGetStaidx state.tables vifIdx frame.dest, sync, args⟩
    have held := kept.alloc msdu (rwmMgmtIsApInface state.tables vifIdx)
    obtain ⟨value, read⟩ := held.read_hand rfl
    have value_eq : value = msdu := by
      have stored := Arena.getElem?_of_read (congrArg Prod.snd read)
      simpa [Arena.alloc] using stored.symm
    subst value_eq
    refine held.psTranferNode outcome read ?_
    intro staIdx
    have old := kept.not_submitted staIdx true
    simp only [mem_submittedTo, List.mem_append, List.mem_singleton, Submission.mk.injEq]
    constructor
    · rintro (known | ⟨-, same, to_peer⟩)
      · exact absurd known old
      · exact ⟨to_peer.symm, same⟩
    · rintro ⟨to_peer, same⟩
      exact Or.inr ⟨trivial, same, to_peer.symm⟩
  · simp only [List.append_nil]
    exact kept.of_ledger_eq rfl

theorem Kept.step (kept : Kept submissions [] [] state) (event : Event) :
    Kept (submissions ++ (coreThread.step state event).2) [] []
      (coreThread.step state event).1 := by
  cases event with
  | interfere interference =>
      simp only [coreThread, List.append_nil]
      exact kept.interfere interference
  | core outcome =>
      rcases queue : state.ioQueue with _ | ⟨msg, rest⟩
      · simp only [coreThread, queue, List.append_nil]
        exact kept
      · simp only [coreThread, queue]
        have popped : Kept submissions [] [] { state with ioQueue := rest } :=
          kept.of_ledger_eq rfl
        cases msg with
        | tx vifIdx frame sync args =>
            simp only [handleMsg]
            split
            · exact popped.transfer outcome vifIdx frame sync args
            · rw [List.append_nil]
              exact popped
        | txing staIdx =>
            simp only [handleMsg, List.append_nil]
            exact popped.sendTxingNode outcome staIdx
        | other =>
            simp only [handleMsg, List.append_nil]
            exact popped

theorem kept_init (tables : MacTables) : Kept [] [] [] (rwmMsduInit tables) := by
  refine ⟨rfl, ?_, rfl, ?_⟩
  · exact Arena.owned_empty
  · intro staIdx
    have empty : waiting (rwmMsduInit tables) staIdx = [] := by
      rw [waiting]
      split <;> rfl
    rw [empty]
    exact .nil

theorem kept_run (tables : MacTables) (events : List Event) :
    Kept (coreThread.outputs (rwmMsduInit tables) events).flatten [] []
      (coreThread.run (rwmMsduInit tables) events) := by
  refine coreThread.history_induction (fun _ _ => True)
    (fun _ outputs state => Kept outputs.flatten [] [] state) (kept_init tables) ?_
    (coreThread.always_of_forall (fun _ => True) _ fun _ _ => trivial)
  intro events outputs state event kept _
  rw [List.flatten_append, List.flatten_singleton]
  exact kept.step event

theorem Kept.count_waiting (kept : Kept submissions [] [] state) {staIdx : UInt8}
    (known : node ∈ submittedTo staIdx submissions) :
    (waiting state staIdx).count node = (buffered state).count node := by
  have own_list : ∀ i, node ∈ state.txing i → slot staIdx = some i := by
    intro i member
    have waits : node ∈ waiting state (UInt8.ofNat i) := by
      rw [waiting, slot_ofNat i]
      exact member
    have to_list := (kept.waiting_sublist (UInt8.ofNat i)).subset waits
    rw [submittedTo_unique kept.distinct known to_list]
    exact slot_ofNat i
  have same : node ∈ waiting state staIdx ↔ node ∈ buffered state := by
    rw [buffered, mem_collect]
    constructor
    · intro member
      rcases place : slot staIdx with _ | i
      · simp [waiting, place] at member
      · rw [waiting, place] at member
        exact ⟨i, member⟩
    · rintro ⟨i, member⟩
      rw [waiting, own_list i member]
      exact member
  have waiting_once : (waiting state staIdx).count node ≤ 1 :=
    List.nodup_iff_count_le_one.mp
      ((kept.nodup_submittedTo staIdx).sublist (kept.waiting_sublist staIdx)) node
  have owners_distinct : (buffered state ++ handed state).Nodup := kept.owned.nodup
  have buffered_once : (buffered state).count node ≤ 1 :=
    List.nodup_iff_count_le_one.mp (List.nodup_append.mp owners_distinct).1 node
  rw [← List.count_pos_iff, ← List.count_pos_iff] at same
  omega

/-! ## Why nodes are freed -/

/-- The list of a station is flushed, as a whole or by a round. -/
def Interference.Flushes (interference : Interference) (staIdx : UInt8) : Prop :=
  match interference with
  | .flush other | .flushRound other | .timeout other => other = staIdx
  | _ => False

/-- What other threads do in an event. -/
def Event.during : Event → List Interference
  | .interfere interference => [interference]
  | .core outcome => outcome.first ++ outcome.second ++ outcome.third

/-- A station's list is flushed in an event. -/
def Event.Flushes (event : Event) (staIdx : UInt8) : Prop :=
  ∃ interference ∈ event.during, interference.Flushes staIdx

/-- The node in the hands of the core thread while it handles the next message. -/
def inHand (state : TxState) : Option (ℕ × MsduNode) :=
  match state.ioQueue with
  | .tx vifIdx frame sync args :: _ =>
      some (state.heap.allocated.length,
        ⟨frame, vifIdx, rwmMgmtTxGetStaidx state.tables vifIdx frame.dest, sync, args⟩)
  | .txing staIdx :: _ =>
      (waiting state staIdx).head?.bind fun node =>
        state.heap.allocated[node]?.map (Prod.mk node)
  | _ => none

/-- No access category admits the node, or the descriptor of its category is in use. -/
def Outcome.Refuses (outcome : Outcome) (tables : MacTables) (msdu : MsduNode) : Prop :=
  ∀ tid queueIdx, chooseQueue tables msdu = some (tid, queueIdx) → outcome.txdescUsed queueIdx

/-- The two ways in which an event frees a node: it flushes the list in which the node waits, or the
MAC refuses the node the core thread has in hand, with the tables as other threads have left them by
then. -/
inductive FreedBy (before : TxState) (node : ℕ) : Event → Prop
  | flushed {event : Event} {staIdx : UInt8} (waits : node ∈ waiting before staIdx)
      (flushes : event.Flushes staIdx) : FreedBy before node event
  | refused {outcome : Outcome} {msdu : MsduNode} {earlier : List Interference}
      (held : inHand before = some (node, msdu))
      (isPrefix : earlier <+: outcome.first ++ outcome.second)
      (refuses : outcome.Refuses (interfereAll before earlier).tables msdu) :
      FreedBy before node (.core outcome)

/-- Nodes only leave lists, and those freed on the way were in the list of a station which was
flushed. -/
structure Loses (flushed : UInt8 → Prop) (before after : TxState) : Prop where
  allocated_eq : after.heap.allocated = before.heap.allocated
  waits : ∀ {staIdx node}, node ∈ waiting after staIdx → node ∈ waiting before staIdx
  freed : ∀ node ∈ after.heap.freed,
    node ∈ before.heap.freed ∨ ∃ staIdx, node ∈ waiting before staIdx ∧ flushed staIdx

namespace Loses

variable {flushed : UInt8 → Prop} {next last : TxState}

theorem of_ledger_eq (same : ledger next = ledger state) : Loses flushed state next := by
  obtain ⟨tables, active, txing, timer, ioQueue, pckCnt, timUpdates, heap, pushed⟩ := next
  simp only [ledger, Prod.mk.injEq] at same
  obtain ⟨-, rfl, rfl, -⟩ := same
  exact ⟨rfl, id, fun _ => .inl⟩

theorem trans (first : Loses flushed state next) (second : Loses flushed next last) :
    Loses flushed state last where
  allocated_eq := second.allocated_eq.trans first.allocated_eq
  waits := first.waits ∘ second.waits
  freed node freed := by
    rcases second.freed node freed with between | ⟨staIdx, waits, flushes⟩
    · exact first.freed node between
    · exact .inr ⟨staIdx, first.waits waits, flushes⟩

theorem setTxing {i : Fin maxPsStaNum} {rest : List ℕ} (front : state.txing i = node :: rest) :
    Loses flushed state (state.setTxing i rest) := by
  refine ⟨rfl, ?_, fun _ => .inl⟩
  intro staIdx other waits
  rw [waiting_setTxing] at waits
  split at waits
  · rename_i same
    rw [waiting, same]
    simp [front, waits]
  · exact waits

variable {staIdx : UInt8}

theorem flushRound (flushes : flushed staIdx) : Loses flushed state (flushRound state staIdx) := by
  rcases rwmPopTxingList_cases state staIdx with
    ⟨-, popped⟩ | ⟨i, node, rest, place, front, popped⟩
  · rw [Msdu.flushRound, popped]
    exact of_ledger_eq rfl
  · rw [Msdu.flushRound, popped]
    have shorter : Loses flushed state (state.setTxing i rest) := setTxing front
    refine ⟨rfl, shorter.waits, ?_⟩
    intro other freed
    rcases List.mem_append.mp freed with before | new
    · exact .inl before
    · rw [List.mem_singleton.mp new]
      refine .inr ⟨staIdx, ?_, flushes⟩
      simp [waiting, place, front]

theorem flushRounds (flushes : flushed staIdx) (rounds : ℕ) :
    Loses flushed state (flushRounds rounds state staIdx) := by
  induction rounds generalizing state with
  | zero => exact of_ledger_eq rfl
  | succ rounds induction => exact (flushRound flushes).trans induction

theorem flush (flushes : flushed staIdx) :
    Loses flushed state (rwmFlushTxingList state staIdx) := by
  rw [rwmFlushTxingList]
  rcases slot staIdx with _ | i
  · exact of_ledger_eq rfl
  · exact (flushRounds flushes _).trans (of_ledger_eq rfl)

theorem interfere {interference : Interference}
    (flushes : ∀ staIdx, interference.Flushes staIdx → flushed staIdx) :
    Loses flushed state (interfere state interference) := by
  cases interference with
  | tables tables | powerState staIdx psState => exact of_ledger_eq rfl
  | psChangeInd staIdx psState => exact of_ledger_eq (ledger_psChangeInd state staIdx psState)
  | flush staIdx => exact flush (flushes staIdx rfl)
  | flushRound staIdx => exact flushRound (flushes staIdx rfl)
  | timeout staIdx =>
      simp only [Msdu.interfere]
      split
      · exact flush (flushes staIdx rfl)
      · exact of_ledger_eq rfl
  | send msg => exact of_ledger_eq (ledger_pushToQueue state msg)

theorem interfereAll {during : List Interference}
    (flushes : ∀ interference ∈ during, ∀ staIdx, interference.Flushes staIdx → flushed staIdx) :
    Loses flushed state (interfereAll state during) := by
  induction during generalizing state with
  | nil => exact of_ledger_eq rfl
  | cons interference during induction =>
      exact (interfere (flushes interference List.mem_cons_self)).trans
        (induction fun later member => flushes later (List.mem_cons_of_mem _ member))

end Loses

theorem flushRound_frame (state : TxState) (staIdx : UInt8) :
    (flushRound state staIdx).tables = state.tables ∧
      (flushRound state staIdx).ioQueue = state.ioQueue := by
  rcases rwmPopTxingList_cases state staIdx with ⟨-, popped⟩ | ⟨i, node, rest, -, -, popped⟩
  · rw [flushRound, popped]
    exact ⟨rfl, rfl⟩
  · rw [flushRound, popped]
    exact ⟨rfl, rfl⟩

theorem flushRounds_frame (state : TxState) (staIdx : UInt8) :
    (flushRounds rounds state staIdx).tables = state.tables ∧
      (flushRounds rounds state staIdx).ioQueue = state.ioQueue := by
  induction rounds generalizing state with
  | zero => exact ⟨rfl, rfl⟩
  | succ rounds induction =>
      have round := flushRound_frame state staIdx
      have rest := induction (flushRound state staIdx)
      exact ⟨rest.1.trans round.1, rest.2.trans round.2⟩

theorem flush_frame (state : TxState) (staIdx : UInt8) :
    (rwmFlushTxingList state staIdx).tables = state.tables ∧
      (rwmFlushTxingList state staIdx).ioQueue = state.ioQueue := by
  rw [rwmFlushTxingList]
  rcases slot staIdx with _ | i
  · exact ⟨rfl, rfl⟩
  · exact flushRounds_frame _ state staIdx

theorem timeout_frame (state : TxState) (staIdx : UInt8) :
    (interfere state (.timeout staIdx)).tables = state.tables ∧
      (interfere state (.timeout staIdx)).ioQueue = state.ioQueue := by
  rw [interfere]
  split
  · exact flush_frame state staIdx
  · exact ⟨rfl, rfl⟩

theorem tables_pushToQueue (state : TxState) (msg : BusMsg) :
    (pushToQueue state msg).tables = state.tables := by
  rw [pushToQueue]
  split <;> rfl

theorem tables_psChangeInd (state : TxState) (staIdx psState : UInt8) :
    (rwmMsduPsChangeIndHandler state staIdx psState).tables = state.tables := by
  rw [rwmMsduPsChangeIndHandler]
  split
  · rfl
  · split_ifs
    · rfl
    · exact tables_pushToQueue state (.txing staIdx)
    · rfl
    · rfl

theorem tables_interfere (same : state.tables = other.tables) (interference : Interference) :
    (interfere state interference).tables = (interfere other interference).tables := by
  cases interference with
  | tables tables => rfl
  | powerState staIdx psState => simp [interfere, same]
  | psChangeInd staIdx psState => simp [interfere, tables_psChangeInd, same]
  | flush staIdx => simp [interfere, flush_frame, same]
  | flushRound staIdx => simp [interfere, flushRound_frame, same]
  | timeout staIdx => rw [(timeout_frame state staIdx).1, (timeout_frame other staIdx).1, same]
  | send msg => simp [interfere, tables_pushToQueue, same]

theorem tables_interfereAll (same : state.tables = other.tables) (during : List Interference) :
    (interfereAll state during).tables = (interfereAll other during).tables := by
  induction during generalizing state other with
  | nil => exact same
  | cons interference during induction => exact induction (tables_interfere same interference)

theorem heap_pushTxingList : (rwmPushTxingList state node staIdx).heap = state.heap := by
  rw [rwmPushTxingList]
  split <;> rfl

/-- A transfer frees at most the node itself, and that only when the MAC refuses it. -/
theorem mem_freed_transferNode {outcome : Outcome} {other : ℕ}
    (freed : other ∈ (rwmTransferNode outcome state node flag).heap.freed) :
    other ∈ state.heap.freed ∨ other = node ∧
      ∃ msdu, state.heap.allocated[node]? = some msdu ∧ outcome.Refuses state.tables msdu := by
  simp only [rwmTransferNode, TxState.readNode] at freed
  split at freed
  · rw [Arena.read] at freed
    split at freed <;> exact .inl freed
  · rename_i msdu found
    have content := Arena.getElem?_of_read found
    have freed_eq : (state.heap.read node).1.freed = state.heap.freed := by
      rw [Arena.read]
      split <;> rfl
    have added (refuses : outcome.Refuses state.tables msdu)
        (member : other ∈ (state.heap.read node).1.freed ++ [node]) :
        other ∈ state.heap.freed ∨ other = node ∧
          ∃ msdu, state.heap.allocated[node]? = some msdu ∧ outcome.Refuses state.tables msdu := by
      rw [freed_eq, List.mem_append, List.mem_singleton] at member
      exact member.imp_right fun same => ⟨same, msdu, content, refuses⟩
    split at freed
    · rename_i none_admitted
      refine added ?_ freed
      intro tid queueIdx chosen
      rw [none_admitted] at chosen
      contradiction
    · rename_i tid queueIdx chosen
      split at freed
      · rename_i used
        refine added ?_ freed
        intro otherTid otherIdx also
        rw [chosen] at also
        cases also
        exact used
      · exact .inl (freed_eq ▸ freed)

theorem rwmTransferNode_changes (state : TxState) (node : ℕ) (flag : UInt32) :
    ∃ heap pckCnt pushed, rwmTransferNode outcome state node flag =
      { state with heap := heap, pckCnt := pckCnt, pushed := pushed } := by
  unfold rwmTransferNode
  dsimp only
  split
  · exact ⟨_, _, _, rfl⟩
  · split
    · exact ⟨_, _, _, rfl⟩
    · split
      · exact ⟨_, _, _, rfl⟩
      · exact ⟨_, _, _, rfl⟩

theorem waiting_transferNode (state : TxState) (node : ℕ) (flag : UInt32) (staIdx : UInt8) :
    waiting (rwmTransferNode outcome state node flag) staIdx = waiting state staIdx := by
  obtain ⟨heap, pckCnt, pushed, changes⟩ := rwmTransferNode_changes outcome state node flag
  rw [changes]
  rfl

theorem Loses.freedBy (loses : Loses event.Flushes state next)
    (same : ∀ staIdx, waiting state staIdx = waiting before staIdx)
    (freed : node ∈ next.heap.freed) : node ∈ state.heap.freed ∨ FreedBy before node event := by
  rcases loses.freed node freed with earlier | ⟨staIdx, waits, flushes⟩
  · exact .inl earlier
  · exact .inr (.flushed (same staIdx ▸ waits) flushes)

theorem Loses.interfereAll_of_subset {during : List Interference} (subset : during ⊆ event.during) :
    Loses event.Flushes state (Msdu.interfereAll state during) :=
  .interfereAll fun interference member _ flushes => ⟨interference, subset member, flushes⟩

/-- Where the core thread gives its node to the MAC after other threads have run. -/
theorem freedBy_of_transfer {outcome : Outcome} {earlier : List Interference} {other : ℕ}
    (held : ∀ {msdu}, state.heap.allocated[node]? = some msdu → inHand before = some (node, msdu))
    (isPrefix : earlier <+: outcome.first ++ outcome.second)
    (same : ∀ staIdx, waiting state staIdx = waiting before staIdx)
    (loses : Loses (Event.core outcome).Flushes state next)
    (tables_eq : next.tables = (interfereAll before earlier).tables)
    (freed : other ∈ (rwmTransferNode outcome next.incPckCnt node flag).heap.freed) :
    other ∈ state.heap.freed ∨ FreedBy before other (.core outcome) := by
  rcases mem_freed_transferNode freed with freed | ⟨rfl, msdu, content, refuses⟩
  · exact loses.freedBy same freed
  · have content_before : state.heap.allocated[other]? = some msdu := loses.allocated_eq ▸ content
    refine .inr (.refused (held content_before) isPrefix ?_)
    rw [← tables_eq]
    exact refuses

theorem freedBy_psTranferNode {before : TxState} {outcome : Outcome} {other : ℕ}
    (held : ∀ {msdu}, state.heap.allocated[node]? = some msdu → inHand before = some (node, msdu))
    (same : ∀ staIdx, waiting state staIdx = waiting before staIdx)
    (tables_eq : state.tables = before.tables)
    (freed : other ∈ (rwmPsTranferNode outcome state node).heap.freed) :
    other ∈ state.heap.freed ∨ FreedBy before other (.core outcome) := by
  have first_subset : outcome.first ⊆ (Event.core outcome).during := by
    simp [Event.during]
  have second_subset : outcome.second ⊆ (Event.core outcome).during := by
    simp [Event.during]
  by_cases live : state.heap.Live node
  · have readNode_eq : state.readNode node = (state, state.heap.allocated[node]?) := by
      rw [TxState.readNode, Arena.read, if_pos live]
    simp only [rwmPsTranferNode, readNode_eq] at freed
    split at freed
    · exact .inl freed
    · rename_i msdu content
      have direct : Loses (Event.core outcome).Flushes state state := .of_ledger_eq rfl
      split at freed
      · exact freedBy_of_transfer held List.nil_prefix same direct tables_eq freed
      · split at freed
        · exact freedBy_of_transfer held List.nil_prefix same direct tables_eq freed
        · have first : Loses (Event.core outcome).Flushes state
              (interfereAll state outcome.first) := .interfereAll_of_subset first_subset
          split at freed
          · rw [heap_pushTxingList] at freed
            have announced := first.trans
              (.of_ledger_eq (ledger_announceTraffic outcome _ msdu.staIdx))
            exact (announced.trans (.interfereAll_of_subset second_subset)).freedBy same freed
          · exact freedBy_of_transfer held (List.prefix_append _ _) same
              first (tables_interfereAll tables_eq outcome.first) freed
  · simp only [rwmPsTranferNode, TxState.readNode, Arena.read, if_neg live] at freed
    exact .inl freed

theorem freedBy_sendTxingNode {before : TxState} {outcome : Outcome} {staIdx : UInt8} {other : ℕ}
    (held : ∀ {node rest msdu}, waiting state staIdx = node :: rest →
      state.heap.allocated[node]? = some msdu → inHand before = some (node, msdu))
    (same : ∀ staIdx, waiting state staIdx = waiting before staIdx)
    (tables_eq : state.tables = before.tables)
    (freed : other ∈ (rwmMsduSendTxingNode outcome state staIdx).heap.freed) :
    other ∈ state.heap.freed ∨ FreedBy before other (.core outcome) := by
  have first_subset : outcome.first ⊆ (Event.core outcome).during := by
    simp [Event.during]
  have second_subset : outcome.second ⊆ (Event.core outcome).during := by
    simp [Event.during]
  have third_subset : outcome.third ⊆ (Event.core outcome).during := by
    simp [Event.during]
  rcases rwmPopTxingList_cases state staIdx with
    ⟨-, popped⟩ | ⟨i, node, rest, place, front, popped⟩
  · rw [rwmMsduSendTxingNode, popped] at freed
    exact .inl freed
  · rw [rwmMsduSendTxingNode, popped] at freed
    dsimp only at freed
    have waits : waiting state staIdx = node :: rest := by
      simp [waiting, place, front]
    have given := ((Loses.setTxing front).trans (.interfereAll_of_subset first_subset)).trans
      (.interfereAll_of_subset second_subset)
    have given_tables : (interfereAll (interfereAll (state.setTxing i rest) outcome.first)
        outcome.second).tables = (interfereAll before (outcome.first ++ outcome.second)).tables := by
      have popped_tables : (state.setTxing i rest).tables = before.tables := tables_eq
      rw [interfereAll, interfereAll, ← List.foldl_append]
      exact tables_interfereAll popped_tables _
    generalize interfereAll (interfereAll (state.setTxing i rest) outcome.first) outcome.second =
      next at given given_tables freed
    generalize (interfereAll (state.setTxing i rest) outcome.first) = counted at freed
    have sent : other ∈ (interfereAll
        (rwmTransferNode outcome next.incPckCnt node txuCntrlMoreData) outcome.third).heap.freed := by
      split_ifs at freed
      · exact heap_eq_of_ledger (ledger_pushToQueue _ (.txing staIdx)) ▸ freed
      · exact heap_eq_of_ledger (ledger_timUpdate outcome.timSent _ staIdx false) ▸ freed
      · exact freed
    rcases (Loses.interfereAll_of_subset third_subset).freed other sent with
      freed | ⟨otherIdx, waits, flushes⟩
    · exact freedBy_of_transfer (held waits) (List.prefix_refl _) same given given_tables freed
    · rw [waiting_transferNode] at waits
      exact .inr (.flushed (same otherIdx ▸ given.waits waits) flushes)

theorem freedBy_step (freed : node ∈ (coreThread.step state event).1.heap.freed) :
    node ∈ state.heap.freed ∨ FreedBy state node event := by
  cases event with
  | interfere interference =>
      have loses : Loses (Event.interfere interference).Flushes state
          (interfere state interference) :=
        .interfere fun staIdx flushes => ⟨interference, List.mem_singleton_self _, flushes⟩
      exact loses.freedBy (fun _ => rfl) freed
  | core outcome =>
      rcases queue : state.ioQueue with _ | ⟨msg, rest⟩
      · simp only [coreThread, queue] at freed
        exact .inl freed
      · simp only [coreThread, queue] at freed
        cases msg with
        | tx vifIdx frame sync args =>
            simp only [handleMsg, rwmTransfer] at freed
            split at freed
            · split at freed
              · let msdu : MsduNode :=
                  ⟨frame, vifIdx, rwmMgmtTxGetStaidx state.tables vifIdx frame.dest, sync, args⟩
                let made : TxState :=
                  { state with ioQueue := rest, heap := (state.heap.alloc msdu).1 }
                have held {value : MsduNode}
                    (content : made.heap.allocated[state.heap.allocated.length]? = some value) :
                    inHand state = some (state.heap.allocated.length, value) := by
                  rw [show made.heap.allocated = state.heap.allocated ++ [msdu] from rfl,
                    List.getElem?_concat_length, Option.some.injEq] at content
                  simp [inHand, queue, ← content, msdu]
                exact @freedBy_psTranferNode made _ state outcome _ held (fun _ => rfl) rfl freed
              · exact .inl freed
            · exact .inl freed
        | txing staIdx =>
            simp only [handleMsg] at freed
            have held {first : ℕ} {others : List ℕ} {msdu : MsduNode}
                (waits : waiting state staIdx = first :: others)
                (content : state.heap.allocated[first]? = some msdu) :
                inHand state = some (first, msdu) := by
              simp [inHand, queue, waits, content]
            exact @freedBy_sendTxingNode { state with ioQueue := rest } state outcome staIdx _ held
              (fun _ => rfl) rfl freed
        | other => exact .inl freed

/-- For every station and after every run: the nodes for it have reached the MAC in the order in
which they were submitted, and each of them is in exactly one place, once: the station's list, the
hands of the MAC, or freed.  Every freed node was freed by an event that flushed the list it waited
in or in which the MAC refused it.  No node is touched after it was freed. -/
theorem nodes_kept_in_order (tables : MacTables) (events : List Event) (staIdx : UInt8) :
    let state := coreThread.run (rwmMsduInit tables) events
    let submitted := submittedTo staIdx (coreThread.outputs (rwmMsduInit tables) events).flatten
    submitted.Nodup ∧
      ((handed state).filter (· ∈ submitted)).Sublist submitted ∧
      (∀ node ∈ submitted, (waiting state staIdx).count node + (handed state).count node +
        state.heap.freed.count node = 1) ∧
      (∀ node ∈ state.heap.freed, ∃ front event back, events = front ++ event :: back ∧
        let before := coreThread.run (rwmMsduInit tables) front
        node ∉ before.heap.freed ∧ node ∈ (coreThread.step before event).1.heap.freed ∧
          FreedBy before node event) ∧
      state.heap.faults = [] := by
  intro state submitted
  have kept : Kept _ [] [] state := kept_run tables events
  refine ⟨kept.nodup_submittedTo staIdx, ?_, ?_, ?_, kept.owned.sound⟩
  · have ordered := kept.ordered staIdx
    simp only [InOrder, List.append_nil, List.filter_nil] at ordered
    exact (List.sublist_append_left _ _).trans ordered
  · intro node known
    have allocated : node < state.heap.allocated.length := by
      have numbered := List.mem_map_of_mem (f := Submission.node) (mem_submittedTo.mp known)
      rw [kept.numbered] at numbered
      exact List.mem_range.mp numbered
    have account := kept.owned.once node
    rw [if_pos allocated] at account
    rw [kept.count_waiting known]
    simpa using account
  · intro node freed
    have initially : node ∉ (rwmMsduInit tables).heap.freed := List.not_mem_nil
    obtain ⟨front, event, back, parts, before, after⟩ :=
      coreThread.exists_step_of_run (fun state => node ∈ state.heap.freed) initially freed
    have cause := (freedBy_step after).resolve_left before
    exact ⟨front, event, back, parts, before, after, cause⟩

end BdkFreertos.Msdu
