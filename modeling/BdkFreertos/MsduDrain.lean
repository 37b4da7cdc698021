import BdkFreertos.MsduTim

/-!
# Who empties a station's list

A list is emptied by messages in the core queue, each of which sends one node and asks for the next
one.  The first is sent when the station's waking up is reported.  Pushing a message fails while the
queue is full, and nobody looks at the result.  Here the core thread's handlers are split at every
point where another thread may run, so that every interleaving is a run.
-/

namespace BdkFreertos.Msdu

/-! ## Interleavings -/

/-- Where the core thread is. -/
inductive CorePc
  | idle
  /-- A fresh node is about to be handed to the MAC. -/
  | direct (node : ℕ)
  /-- `rwm_ps_tranfer_node` has decided to buffer a node. -/
  | buffering (node : ℕ) (staIdx : UInt8)
  /-- The traffic is announced and the node not yet in the list. -/
  | announced (node : ℕ) (staIdx : UInt8)
  /-- `rwm_msdu_send_txing_node` has taken a node out. -/
  | popped (staIdx : UInt8) (node : ℕ)
  /-- The nodes left are counted. -/
  | counted (staIdx : UInt8) (node nodeLeft : ℕ)
  | transferred (staIdx : UInt8) (nodeLeft : ℕ)
  deriving DecidableEq

/-- Begin to handle a message, up to the first point where another thread may run. -/
def takeMsg (decisions : Decisions) (state : TxState) : BusMsg → TxState × CorePc
  | .tx vifIdx frame sync args =>
      if decisions.copied then
        if decisions.allocated then
          let staIdx := rwmMgmtTxGetStaidx state.tables vifIdx frame.dest
          let (heap, node) := state.heap.alloc ⟨frame, vifIdx, staIdx, sync, args⟩
          match ({ state with heap := heap } : TxState).readNode node with
          | (state, none) => (state, .idle)
          | (state, some msdu) =>
              if rwmMgmtIsApInface state.tables msdu.vifIdx = false ∨ state.active = false then
                (rwmTransferNode decisions.outcome state.incPckCnt node 0, .idle)
              else if (staMgmtIsInPs state.tables msdu.staIdx ∨
                  rwmTxlingListNodeCount state msdu.staIdx ≠ 0) ∧
                  msdu.staIdx.toNat < maxPsStaNum then
                (state, .buffering node msdu.staIdx)
              else
                (state, .direct node)
        else
          (state.decPckCnt, .idle)
      else
        (state, .idle)
  | .txing staIdx =>
      match rwmPopTxingList state staIdx with
      | (state, none) => (state, .idle)
      | (state, some node) => (state, .popped staIdx node)
  | .other => (state, .idle)

/-- The core thread runs to the next such point. -/
def advance (decisions : Decisions) (state : TxState) : CorePc → TxState × CorePc
  | .idle =>
      match state.ioQueue with
      | [] => (state, .idle)
      | msg :: rest => takeMsg decisions { state with ioQueue := rest } msg
  | .direct node => (rwmTransferNode decisions.outcome state.incPckCnt node 0, .idle)
  | .buffering node staIdx =>
      (announceTraffic decisions.outcome state staIdx, .announced node staIdx)
  | .announced node staIdx => (rwmPushTxingList state node staIdx, .idle)
  | .popped staIdx node => (state, .counted staIdx node (rwmTxlingListNodeCount state staIdx))
  | .counted staIdx node nodeLeft =>
      (rwmTransferNode decisions.outcome state.incPckCnt node txuCntrlMoreData,
        .transferred staIdx nodeLeft)
  | .transferred staIdx nodeLeft =>
      if nodeLeft ≠ 0 ∧ staMgmtIsInPs state.tables staIdx = false then
        (bmsgTxingSender state staIdx, .idle)
      else if nodeLeft = 0 then
        (rwMsgSendTimUpdate decisions.timSent state staIdx false, .idle)
      else
        (state, .idle)

/-- Finish a handler, with what the other threads do at its three points. -/
def finish (decisions : Decisions) (first second third : List Interference) :
    TxState × CorePc → TxState
  | (state, .idle) => state
  | (state, .buffering node staIdx) =>
      let (state, pc) := advance decisions (interfereAll state first) (.buffering node staIdx)
      (advance decisions (interfereAll state second) pc).1
  | (state, .popped staIdx node) =>
      let (state, pc) := advance decisions (interfereAll state first) (.popped staIdx node)
      let (state, pc) := advance decisions (interfereAll state second) pc
      (advance decisions (interfereAll state third) pc).1
  | (state, pc) => (advance decisions (interfereAll state first) pc).1

/-- What the surroundings decide about a handler that others interrupt. -/
def Outcome.decisions (outcome : Outcome) : Decisions where
  copied := outcome.copied
  allocated := outcome.allocated
  txdescUsed := outcome.txdescUsed
  timSent := outcome.timSent

variable {pending : List PsChangeInd} {pc : CorePc} (state : TxState) (outcome : Outcome) (node : ℕ)
  (staIdx : UInt8)

theorem rwmTransferNode_decisions :
    rwmTransferNode outcome.decisions.outcome = rwmTransferNode outcome := rfl

theorem announceTraffic_decisions :
    announceTraffic outcome.decisions.outcome = announceTraffic outcome := rfl

/-- The handler that is cut at its points and the whole one agree: with the same decisions, and the
same interferences at the points, they leave the same state. -/
theorem handleMsg_eq_finish (outcome : Outcome) (state : TxState) (msg : BusMsg) :
    (handleMsg outcome state msg).1 =
      finish outcome.decisions outcome.first outcome.second outcome.third
        (takeMsg outcome.decisions state msg) := by
  have copied_eq : outcome.decisions.copied = outcome.copied := rfl
  have allocated_eq : outcome.decisions.allocated = outcome.allocated := rfl
  have timSent_eq : outcome.decisions.timSent = outcome.timSent := rfl
  cases msg with
  | other => rfl
  | txing staIdx =>
      simp only [handleMsg, rwmMsduSendTxingNode, takeMsg]
      rcases rwmPopTxingList state staIdx with ⟨taken, _ | node⟩
      · rfl
      · simp only [finish, advance, rwmTransferNode_decisions, timSent_eq]
        split_ifs <;> rfl
  | tx vifIdx frame sync args =>
      simp only [handleMsg, rwmTransfer, takeMsg, copied_eq, allocated_eq]
      cases outcome.copied with
      | false => rfl
      | true =>
          cases outcome.allocated with
          | false => rfl
          | true =>
              simp only [↓reduceIte, rwmPsTranferNode]
              rcases TxState.readNode _ _ with ⟨fresh, _ | msdu⟩
              · rfl
              · simp only [rwmTransferNode_decisions]
                by_cases station : rwmMgmtIsApInface fresh.tables msdu.vifIdx = false
                · simp [station, ↓reduceIte, finish]
                by_cases passive : fresh.active = false
                · simp [station, passive, ↓reduceIte, finish]
                have neither := not_or.mpr ⟨station, passive⟩
                by_cases buffer : (staMgmtIsInPs fresh.tables msdu.staIdx = true ∨
                    rwmTxlingListNodeCount fresh msdu.staIdx ≠ 0) ∧
                    msdu.staIdx.toNat < maxPsStaNum
                · simp [if_neg station, if_neg passive, if_neg neither, if_pos buffer, finish,
                  advance, announceTraffic_decisions]
                · simp [if_neg station, if_neg passive, if_neg neither, if_neg buffer, finish,
                  advance, rwmTransferNode_decisions]

/-- A power-state indication `MM_PS_CHANGE_IND`. -/
structure PsChangeInd where
  staIdx : UInt8
  psState : UInt8
  deriving DecidableEq

/-- The transmit side, the core thread's position and the indications not yet handled. -/
structure System where
  tx : TxState
  pc : CorePc
  pending : List PsChangeInd

/-- The system after `rwm_msdu_init`. -/
def systemInit (tables : MacTables) : System where
  tx := rwmMsduInit tables
  pc := .idle
  pending := []

/-- New contents of the MAC's tables, apart from the power states. -/
def MacTables.keepPsStates (tables changed : MacTables) : MacTables :=
  { changed with
    staInfoTab := fun staIdx =>
      { changed.staInfoTab staIdx with psState := (tables.staInfoTab staIdx).psState } }

/-- What a thread does next. -/
inductive Action
  /-- The MAC notes a station's power state and sends the indication. -/
  | powerChange (staIdx psState : UInt8)
  | indication
  /-- The MAC changes anything else in its tables. -/
  | tables (changed : MacTables)
  | flush (staIdx : UInt8)
  | flushRound (staIdx : UInt8)
  | timeout (staIdx : UInt8)
  | send (msg : BusMsg)
  /-- The core thread runs to its next point. -/
  | core (decisions : Decisions)

/-- All threads as a machine. -/
def threads : Machine System Action Unit where
  step system
    | .powerChange staIdx psState =>
        ({ system with
           tx := interfere system.tx (.powerState staIdx psState)
           pending := system.pending ++ [⟨staIdx, psState⟩] }, ())
    | .indication =>
        match system.pending with
        | [] => (system, ())
        | ind :: rest =>
            ({ system with
               tx := interfere system.tx (.psChangeInd ind.staIdx ind.psState)
               pending := rest }, ())
    | .tables changed =>
        ({ system with
           tx := interfere system.tx (.tables (system.tx.tables.keepPsStates changed)) }, ())
    | .flush staIdx => ({ system with tx := interfere system.tx (.flush staIdx) }, ())
    | .flushRound staIdx => ({ system with tx := interfere system.tx (.flushRound staIdx) }, ())
    | .timeout staIdx => ({ system with tx := interfere system.tx (.timeout staIdx) }, ())
    | .send msg => ({ system with tx := interfere system.tx (.send msg) }, ())
    | .core decisions =>
        let (tx, pc) := advance decisions system.tx system.pc
        ({ system with tx := tx, pc := pc }, ())

/-! ## The obligation -/

/-- A station is awake, and everything about its power state has been reported. -/
def Awake (system : System) (staIdx : UInt8) : Prop :=
  staMgmtIsInPs system.tx.tables staIdx = false ∧ ∀ ind ∈ system.pending, ind.staIdx ≠ staIdx

/-- A message asks the core thread to send from a station's list. -/
def Asked (state : TxState) (staIdx : UInt8) : Prop :=
  BusMsg.txing staIdx ∈ state.ioQueue

/-- The handler of such a message runs. -/
def CorePc.Sending (pc : CorePc) (staIdx : UInt8) : Prop :=
  match pc with
  | .popped running _ => running = staIdx
  | .counted running _ _ => running = staIdx
  | .transferred running _ => running = staIdx
  | _ => False

/-- Somebody will empty the list of every station that is awake. -/
def Draining (system : System) : Prop :=
  ∀ staIdx, Awake system staIdx → rwmTxlingListNodeCount system.tx staIdx ≠ 0 →
    Asked system.tx staIdx ∨ system.pc.Sending staIdx

/-- What the step needs: where it has to ask for a list that would otherwise be forgotten, the queue
has room, and no node enters the empty list of a station that has woken up meanwhile. -/
def KeepsAsking (system : System) : Action → Prop
  | .indication =>
      match system.pending with
      | [] => True
      | ind :: rest =>
          ind.psState = 0 → (∀ later ∈ rest, later.staIdx ≠ ind.staIdx) →
            rwmTxlingListNodeCount system.tx ind.staIdx ≠ 0 →
              system.tx.ioQueue.length < coreQitemCount ∨ Asked system.tx ind.staIdx ∨
                system.pc.Sending ind.staIdx
  | .core _ =>
      match system.pc with
      | .announced _ staIdx =>
          staIdx.toNat < maxPsStaNum → Awake system staIdx →
            rwmTxlingListNodeCount system.tx staIdx = 0 → Asked system.tx staIdx
      | .transferred staIdx nodeLeft =>
          nodeLeft ≠ 0 → Awake system staIdx → rwmTxlingListNodeCount system.tx staIdx ≠ 0 →
            system.tx.ioQueue.length < coreQitemCount ∨ Asked system.tx staIdx
      | _ => True
  | _ => True

/-! ## What always holds -/

/-- The latest unhandled indication of a station carries its power state. -/
def Synced (tables : MacTables) (pending : List PsChangeInd) : Prop :=
  ∀ front ind back, pending = front ++ ind :: back →
    (∀ later ∈ back, later.staIdx ≠ ind.staIdx) →
      (tables.staInfoTab ind.staIdx).psState = ind.psState

/-- While the last node of a list is on its way, the list stays empty. -/
def CountedLast (state : TxState) : CorePc → Prop
  | .counted staIdx _ nodeLeft => nodeLeft = 0 → rwmTxlingListNodeCount state staIdx = 0
  | .transferred staIdx nodeLeft => nodeLeft = 0 → rwmTxlingListNodeCount state staIdx = 0
  | _ => True

/-- What holds in every state. -/
structure Coherent (system : System) : Prop where
  synced : Synced system.tx.tables system.pending
  counted : CountedLast system.tx system.pc

theorem synced_tail {tables : MacTables} {ind : PsChangeInd} {rest : List PsChangeInd}
    (synced : Synced tables (ind :: rest)) : Synced tables rest := by
  intro front latest back split none_later
  exact synced (ind :: front) latest back (by rw [split, List.cons_append]) none_later

theorem synced_congr {tables changed : MacTables}
    (same : ∀ staIdx, (changed.staInfoTab staIdx).psState = (tables.staInfoTab staIdx).psState)
    (synced : Synced tables pending) : Synced changed pending := by
  intro front latest back split none_later
  rw [same]
  exact synced front latest back split none_later

@[simp]
theorem psState_setPsState (tables : MacTables) (changed psState staIdx : UInt8) :
    ((tables.setPsState changed psState).staInfoTab staIdx).psState =
      if staIdx = changed then psState else (tables.staInfoTab staIdx).psState := by
  by_cases same : staIdx = changed
  · subst same
    simp [MacTables.setPsState]
  · simp [MacTables.setPsState, same]

theorem synced_powerChange {tables : MacTables} (synced : Synced tables pending)
    (staIdx psState : UInt8) :
    Synced (tables.setPsState staIdx psState) (pending ++ [⟨staIdx, psState⟩]) := by
  intro front latest back split none_later
  rw [psState_setPsState]
  rcases List.eq_nil_or_concat back with rfl | ⟨back, newest, rfl⟩
  · obtain ⟨-, newest_eq⟩ := List.append_inj' split rfl
    obtain rfl := List.singleton_inj.mp newest_eq
    simp
  · rw [List.concat_eq_append, ← List.cons_append, ← List.append_assoc] at split
    obtain ⟨earlier, newest_eq⟩ := List.append_inj' split rfl
    obtain rfl := List.singleton_inj.mp newest_eq
    have different := none_later ⟨staIdx, psState⟩ (by simp)
    rw [if_neg fun same => different same.symm]
    exact synced front latest back earlier fun later member => none_later later (by simp [member])

/-! ## What the operations change -/

def drainView (state : TxState) : MacTables × (Fin maxPsStaNum → List ℕ) × List BusMsg :=
  (state.tables, state.txing, state.ioQueue)

@[simp]
theorem drainView_rwmTransferNode (state : TxState) (node : ℕ) (flag : UInt32) :
    drainView (rwmTransferNode outcome state node flag) = drainView state := by
  obtain ⟨heap, pckCnt, pushed, changes⟩ := rwmTransferNode_changes outcome state node flag
  rw [changes]
  rfl

@[simp]
theorem drainView_timUpdate (sent : Bool) (state : TxState) (staIdx : UInt8) (txAvail : Bool) :
    drainView (rwMsgSendTimUpdate sent state staIdx txAvail) = drainView state := by
  cases sent <;> rfl

@[simp]
theorem drainView_announceTraffic (state : TxState) (staIdx : UInt8) :
    drainView (announceTraffic outcome state staIdx) = drainView state := by
  rw [announceTraffic]
  split
  · rfl
  · split
    · exact drainView_timUpdate outcome.timSent state staIdx true
    · rfl

theorem count_ne_zero_of_sublist {state next : TxState}
    (shorter : ∀ i, (next.txing i).Sublist (state.txing i)) {staIdx : UInt8}
    (left : rwmTxlingListNodeCount next staIdx ≠ 0) : rwmTxlingListNodeCount state staIdx ≠ 0 := by
  unfold rwmTxlingListNodeCount at left ⊢
  rcases place : slot staIdx with _ | i
  · rw [place] at left
    exact left
  · have length_le := (shorter i).length_le
    rw [place] at left
    dsimp only at left ⊢
    omega

theorem count_congr {state next : TxState} (same : next.txing = state.txing) (staIdx : UInt8) :
    rwmTxlingListNodeCount next staIdx = rwmTxlingListNodeCount state staIdx := by
  unfold rwmTxlingListNodeCount
  rw [same]

theorem asked_pushToQueue (msg : BusMsg) (staIdx : UInt8) :
    Asked (pushToQueue state msg) staIdx ↔
      Asked state staIdx ∨ (state.ioQueue.length < coreQitemCount ∧ .txing staIdx = msg) := by
  rw [pushToQueue]
  split
  · next room => simp [Asked, room]
  · next full => simp [Asked, full]

/-! ## Steps -/

variable {system next : System}

section

variable (draining : Draining system)
include draining

/-- Steps after which the same or fewer stations have to be asked for, and those asked for still
are. -/
theorem Draining.of_step
    (owed : ∀ staIdx, Awake next staIdx → rwmTxlingListNodeCount next.tx staIdx ≠ 0 →
      Awake system staIdx ∧ rwmTxlingListNodeCount system.tx staIdx ≠ 0)
    (asks : ∀ staIdx, Awake next staIdx → rwmTxlingListNodeCount next.tx staIdx ≠ 0 →
      Asked system.tx staIdx ∨ system.pc.Sending staIdx →
        Asked next.tx staIdx ∨ next.pc.Sending staIdx) : Draining next := by
  intro staIdx awake left
  obtain ⟨awake_before, left_before⟩ := owed staIdx awake left
  exact asks staIdx awake left (draining staIdx awake_before left_before)

theorem Draining.of_interference (tables_eq : next.tx.tables = system.tx.tables)
    (pending_eq : next.pending = system.pending) (pc_eq : next.pc = system.pc)
    (shorter : ∀ i, (next.tx.txing i).Sublist (system.tx.txing i))
    (asked : ∀ staIdx, Asked system.tx staIdx → Asked next.tx staIdx) : Draining next := by
  apply draining.of_step
  · intro staIdx awake left
    rw [Awake, tables_eq, pending_eq] at awake
    exact ⟨awake, count_ne_zero_of_sublist shorter left⟩
  · rintro staIdx - - (queued | sending)
    · exact Or.inl (asked staIdx queued)
    · rw [pc_eq]
      exact Or.inr sending

theorem Draining.of_flush {freed : TxState}
    (frame : freed.tables = system.tx.tables ∧ freed.ioQueue = system.tx.ioQueue)
    (shorter : ∀ i, (freed.txing i).Sublist (system.tx.txing i)) :
    Draining { system with tx := freed } := by
  refine draining.of_interference frame.1 rfl rfl shorter ?_
  intro staIdx asked
  rw [Asked, frame.2]
  exact asked

theorem Draining.of_view (view : drainView next.tx = drainView system.tx)
    (pending_eq : next.pending = system.pending)
    (pc : ∀ staIdx, system.pc.Sending staIdx → next.pc.Sending staIdx) : Draining next := by
  simp only [drainView, Prod.mk.injEq] at view
  obtain ⟨tables_eq, txing_eq, queue_eq⟩ := view
  apply draining.of_step
  · intro staIdx awake left
    rw [Awake, tables_eq, pending_eq] at awake
    rw [count_congr txing_eq] at left
    exact ⟨awake, left⟩
  · rintro staIdx - - (queued | sending)
    · rw [Asked, queue_eq]
      exact Or.inl queued
    · exact Or.inr (pc staIdx sending)

end

theorem asked_psChangeInd {staIdx : UInt8} (left : rwmTxlingListNodeCount state staIdx ≠ 0)
    (other : UInt8) :
    Asked (rwmMsduPsChangeIndHandler state staIdx 0) other ↔
      Asked state other ∨ (state.ioQueue.length < coreQitemCount ∧ other = staIdx) := by
  have place : ∃ i, slot staIdx = some i := by
    unfold rwmTxlingListNodeCount at left
    rcases place : slot staIdx with _ | i
    · rw [place] at left
      exact absurd rfl left
    · exact ⟨i, rfl⟩
  obtain ⟨i, place⟩ := place
  simp only [rwmMsduPsChangeIndHandler, place, if_neg left, ↓reduceIte]
  have pushed := asked_pushToQueue state (.txing staIdx) other
  rw [BusMsg.txing.injEq] at pushed
  exact pushed

theorem asked_of_psChangeInd (psState : UInt8) {other : UInt8} (queued : Asked state other) :
    Asked (rwmMsduPsChangeIndHandler state staIdx psState) other := by
  unfold rwmMsduPsChangeIndHandler
  split
  · exact queued
  · split
    · exact queued
    · split
      · exact (asked_pushToQueue state (.txing staIdx) other).mpr (Or.inl queued)
      · split <;> exact queued

theorem step_indication_iff (coherent : Coherent system) (draining : Draining system) :
    Draining (threads.step system .indication).1 ↔ KeepsAsking system .indication := by
  rcases pending_eq : system.pending with _ | ⟨ind, rest⟩
  · simp only [threads, KeepsAsking, pending_eq]
    exact iff_true_intro draining
  have synced := coherent.synced
  rw [pending_eq] at synced
  have view := timView_psChangeInd system.tx ind.staIdx ind.psState
  simp only [timView, Prod.mk.injEq] at view
  obtain ⟨tables_eq, txing_eq, -⟩ := view
  simp only [threads, KeepsAsking, pending_eq, interfere]
  constructor
  · intro after off none_later left
    have awake : Awake ⟨rwmMsduPsChangeIndHandler system.tx ind.staIdx ind.psState, system.pc, rest⟩
        ind.staIdx := by
      refine ⟨?_, none_later⟩
      have psState := synced [] ind rest rfl none_later
      rw [off] at psState
      simp [staMgmtIsInPs, tables_eq, psState]
    have asked := after ind.staIdx awake (by rwa [count_congr txing_eq])
    rcases asked with queued | sending
    · rw [off] at queued
      rcases (asked_psChangeInd system.tx left ind.staIdx).mp queued with before | ⟨room, -⟩
      · exact Or.inr (Or.inl before)
      · exact Or.inl room
    · exact Or.inr (Or.inr sending)
  · intro keeps staIdx awake left
    rw [count_congr txing_eq] at left
    rw [Awake, tables_eq] at awake
    obtain ⟨awake_state, none_later⟩ := awake
    by_cases same : staIdx = ind.staIdx
    · subst same
      have psState := synced [] ind rest rfl none_later
      have off : ind.psState = 0 := by
        rw [← psState]
        simpa [staMgmtIsInPs] using awake_state
      rcases keeps off none_later left with room | queued | sending
      · rw [off]
        exact Or.inl ((asked_psChangeInd system.tx left ind.staIdx).mpr (Or.inr ⟨room, rfl⟩))
      · exact Or.inl (asked_of_psChangeInd _ _ _ queued)
      · exact Or.inr sending
    · have awake_before : Awake system staIdx := by
        refine ⟨awake_state, ?_⟩
        rw [pending_eq]
        intro other member
        rcases List.mem_cons.mp member with rfl | member
        · exact fun equal => same equal.symm
        · exact none_later other member
      rcases draining staIdx awake_before left with queued | sending
      · exact Or.inl (asked_of_psChangeInd _ _ _ queued)
      · exact Or.inr sending

/-- A frame that is submitted leaves lists and messages alone until it is buffered. -/
theorem takeMsg_tx (decisions : Decisions) (state : TxState) (vifIdx : UInt8) (frame : EthFrame)
    (sync : Bool) (args : ℕ) :
    drainView (takeMsg decisions state (.tx vifIdx frame sync args)).1 = drainView state ∧
      (∀ staIdx, ¬ (takeMsg decisions state (.tx vifIdx frame sync args)).2.Sending staIdx) ∧
      ∀ later, CountedLast later (takeMsg decisions state (.tx vifIdx frame sync args)).2 := by
  simp only [takeMsg]
  split
  · split
    · generalize read : TxState.readNode _ _ = result
      have view : drainView result.1 = drainView state := by
        rw [← read]
        rfl
      rcases result with ⟨fresh, _ | msdu⟩
      · exact ⟨view, fun _ => id, fun _ => trivial⟩
      · dsimp only
        split
        · exact ⟨(drainView_rwmTransferNode _ _ _ _).trans view, fun _ => id, fun _ => trivial⟩
        · split
          · exact ⟨view, fun _ => id, fun _ => trivial⟩
          · exact ⟨view, fun _ => id, fun _ => trivial⟩
    · exact ⟨rfl, fun _ => id, fun _ => trivial⟩
  · exact ⟨rfl, fun _ => id, fun _ => trivial⟩

/-- Taking a message keeps the obligation: the handler of the message that is gone runs, or its list
is empty. -/
theorem Draining.takeMsg (draining : Draining system) (idle : system.pc = .idle)
    (decisions : Decisions) {msg : BusMsg} {rest : List BusMsg}
    (queue : system.tx.ioQueue = msg :: rest) :
    Draining
      { system with
        tx := (takeMsg decisions { system.tx with ioQueue := rest } msg).1
        pc := (takeMsg decisions { system.tx with ioQueue := rest } msg).2 } := by
  have not_sending : ∀ staIdx, ¬ system.pc.Sending staIdx := by
    intro staIdx
    rw [idle]
    exact id
  have kept : ∀ staIdx, BusMsg.txing staIdx ≠ msg → Asked system.tx staIdx →
      Asked { system.tx with ioQueue := rest } staIdx := by
    intro staIdx different asked
    rw [Asked, queue] at asked
    exact (List.mem_cons.mp asked).resolve_left different
  cases msg with
  | other =>
      apply draining.of_step
      · exact fun staIdx awake left => ⟨awake, left⟩
      · rintro staIdx - - (queued | sending)
        · refine Or.inl (kept staIdx ?_ queued)
          rintro ⟨⟩
        · exact absurd sending (not_sending staIdx)
  | tx vifIdx frame sync args =>
      obtain ⟨view, -, -⟩ := takeMsg_tx decisions { system.tx with ioQueue := rest } vifIdx frame
        sync args
      simp only [drainView, Prod.mk.injEq] at view
      obtain ⟨tables_eq, txing_eq, queue_eq⟩ := view
      apply draining.of_step
      · intro staIdx awake left
        rw [Awake] at awake
        dsimp only at awake left
        rw [tables_eq] at awake
        rw [count_congr txing_eq] at left
        exact ⟨awake, left⟩
      · rintro staIdx - - (queued | sending)
        · refine Or.inl ?_
          rw [Asked]
          dsimp only
          rw [queue_eq]
          refine kept staIdx ?_ queued
          rintro ⟨⟩
        · exact absurd sending (not_sending staIdx)
  | txing running =>
      rcases rwmPopTxingList_cases { system.tx with ioQueue := rest } running with
        ⟨empty, popped⟩ | ⟨i, node, nodes, -, front, popped⟩
      · simp only [Msdu.takeMsg, popped]
        apply draining.of_step
        · exact fun staIdx awake left => ⟨awake, left⟩
        · rintro staIdx - left (queued | sending)
          · refine Or.inl (kept staIdx ?_ queued)
            rintro ⟨⟩
            exact left empty
          · exact absurd sending (not_sending staIdx)
      · simp only [Msdu.takeMsg, popped]
        apply draining.of_step
        · intro staIdx awake left
          exact ⟨awake, count_ne_zero_of_sublist (txing_setTxing_tail front) left⟩
        · rintro staIdx - - (queued | sending)
          · by_cases same : running = staIdx
            · exact Or.inr same
            · exact Or.inl (kept staIdx (fun equal => same (BusMsg.txing.inj equal).symm) queued)
          · exact absurd sending (not_sending staIdx)

theorem count_rwmPushTxingList (other : UInt8) :
    rwmTxlingListNodeCount (rwmPushTxingList state node staIdx) other =
      rwmTxlingListNodeCount state other +
        if staIdx.toNat < maxPsStaNum ∧ other = staIdx then 1 else 0 := by
  by_cases inside : staIdx.toNat < maxPsStaNum
  · have place : slot staIdx = some ⟨staIdx.toNat, inside⟩ := dif_pos inside
    generalize (⟨staIdx.toNat, inside⟩ : Fin maxPsStaNum) = i at place
    simp only [rwmPushTxingList, place, rwmTxlingListNodeCount, inside, true_and]
    by_cases same : other = staIdx
    · subst same
      simp [place, TxState.setTxing]
    · rcases other_place : slot other with _ | j
      · simp [same]
      · have apart : j ≠ i := by
          rintro rfl
          exact same (slot_inj other_place place)
        simp [same, TxState.setTxing, Function.update_of_ne apart]
  · have place : slot staIdx = none := dif_neg inside
    simp [rwmPushTxingList, place, inside, ↓reduceIte]

theorem rwmPushTxingList_frame :
    (rwmPushTxingList state node staIdx).tables = state.tables ∧
      (rwmPushTxingList state node staIdx).ioQueue = state.ioQueue := by
  rw [rwmPushTxingList]
  split <;> exact ⟨rfl, rfl⟩

theorem step_announced_iff (draining : Draining system) {node : ℕ} {staIdx : UInt8}
    (pc_eq : system.pc = .announced node staIdx) :
    Draining { system with tx := rwmPushTxingList system.tx node staIdx, pc := .idle } ↔
      (staIdx.toNat < maxPsStaNum → Awake system staIdx →
        rwmTxlingListNodeCount system.tx staIdx = 0 → Asked system.tx staIdx) := by
  obtain ⟨tables_eq, queue_eq⟩ := rwmPushTxingList_frame system.tx node staIdx
  have awake_iff : ∀ other,
      Awake ⟨rwmPushTxingList system.tx node staIdx, .idle, system.pending⟩ other ↔
        Awake system other := by
    intro other
    simp [Awake, tables_eq]
  have asked_iff : ∀ other, Asked (rwmPushTxingList system.tx node staIdx) other ↔
      Asked system.tx other := by
    intro other
    rw [Asked, Asked, queue_eq]
  constructor
  · intro after inside awake empty
    have left : rwmTxlingListNodeCount (rwmPushTxingList system.tx node staIdx) staIdx ≠ 0 := by
      rw [count_rwmPushTxingList, if_pos ⟨inside, rfl⟩]
      exact Nat.succ_ne_zero _
    exact (asked_iff staIdx).mp ((after staIdx ((awake_iff staIdx).mpr awake) left).resolve_right id)
  · intro keeps other awake left
    rw [awake_iff] at awake
    refine Or.inl ((asked_iff other).mpr ?_)
    by_cases empty : rwmTxlingListNodeCount system.tx other = 0
    · dsimp only at left
      rw [count_rwmPushTxingList, empty, Nat.zero_add] at left
      obtain ⟨inside, rfl⟩ : staIdx.toNat < maxPsStaNum ∧ other = staIdx := by
        by_contra elsewhere
        exact left (if_neg elsewhere)
      exact keeps inside awake empty
    · have asked := draining other awake empty
      rw [pc_eq] at asked
      exact asked.resolve_right id

theorem step_transferred_iff (coherent : Coherent system) (draining : Draining system)
    {staIdx : UInt8} {nodeLeft : ℕ} (pc_eq : system.pc = .transferred staIdx nodeLeft)
    (decisions : Decisions) :
    Draining
        { system with
          tx := (advance decisions system.tx (.transferred staIdx nodeLeft)).1
          pc := (advance decisions system.tx (.transferred staIdx nodeLeft)).2 } ↔
      (nodeLeft ≠ 0 → Awake system staIdx → rwmTxlingListNodeCount system.tx staIdx ≠ 0 →
        system.tx.ioQueue.length < coreQitemCount ∨ Asked system.tx staIdx) := by
  have others : ∀ {later : TxState}, later.tables = system.tx.tables →
      later.txing = system.tx.txing →
      (∀ other, Asked system.tx other → Asked later other) →
      (Awake system staIdx → rwmTxlingListNodeCount system.tx staIdx ≠ 0 → Asked later staIdx) →
        Draining { system with tx := later, pc := .idle } := by
    intro later tables_eq txing_eq asked own other awake left
    simp only [Awake, tables_eq] at awake
    dsimp only at left
    rw [count_congr txing_eq] at left
    by_cases same : other = staIdx
    · subst same
      exact Or.inl (own awake left)
    · have before := draining other awake left
      rw [pc_eq] at before
      exact Or.inl (asked other (before.resolve_right fun equal => same equal.symm))
  have counted := coherent.counted
  rw [pc_eq] at counted
  simp only [advance]
  split
  · next again =>
      have pushed := asked_pushToQueue system.tx (.txing staIdx) staIdx
      simp only [and_true] at pushed
      constructor
      · intro after _ awake left
        have view := timView_pushToQueue system.tx (.txing staIdx)
        simp only [timView, Prod.mk.injEq] at view
        have awake_after :
            Awake ⟨bmsgTxingSender system.tx staIdx, .idle, system.pending⟩ staIdx := by
          simp only [Awake, bmsgTxingSender, view.1]
          exact awake
        have left_after : rwmTxlingListNodeCount (bmsgTxingSender system.tx staIdx) staIdx ≠ 0 := by
          rw [bmsgTxingSender, count_congr view.2.1]
          exact left
        exact (pushed.mp ((after staIdx awake_after left_after).resolve_right id)).symm
      · intro keeps
        have view := timView_pushToQueue system.tx (.txing staIdx)
        simp only [timView, Prod.mk.injEq] at view
        refine others view.1 view.2.1 ?_ ?_
        · exact fun other asked => (asked_pushToQueue system.tx _ other).mpr (Or.inl asked)
        · exact fun awake left => pushed.mpr (keeps again.1 awake left).symm
  · next not_again =>
      split
      · next last =>
          refine iff_of_true ?_ fun some_left => absurd last some_left
          have view := drainView_timUpdate decisions.timSent system.tx staIdx false
          simp only [drainView, Prod.mk.injEq] at view
          refine others view.1 view.2.1 ?_ fun _ left => absurd (counted last) left
          intro other asked
          rw [Asked, view.2.2]
          exact asked
      · next some_left =>
          have asleep : staMgmtIsInPs system.tx.tables staIdx ≠ false :=
            fun awake => not_again ⟨some_left, awake⟩
          refine iff_of_true ?_ fun _ awake => absurd awake.1 asleep
          exact others rfl rfl (fun _ => id) fun awake => absurd awake.1 asleep

/-- From a state that meets the obligation, the next one meets it exactly if the step keeps asking
for the lists. -/
theorem draining_step_iff (coherent : Coherent system) (draining : Draining system)
    (action : Action) :
    Draining (threads.step system action).1 ↔ KeepsAsking system action := by
  cases action with
  | indication => exact step_indication_iff coherent draining
  | powerChange staIdx psState =>
      refine iff_true_intro (draining.of_step ?_ fun _ _ _ asked => asked)
      rintro other ⟨awake, none_pending⟩ left
      have different : other ≠ staIdx := fun same =>
        none_pending ⟨staIdx, psState⟩ (List.mem_append_right _ (List.mem_singleton_self _)) same.symm
      refine ⟨⟨?_, fun ind member => none_pending ind (List.mem_append_left _ member)⟩, left⟩
      simpa [threads, interfere, staMgmtIsInPs, different] using awake
  | tables changed =>
      refine iff_true_intro (draining.of_step ?_ fun _ _ _ asked => asked)
      exact fun staIdx awake left => ⟨awake, left⟩
  | flush staIdx =>
      exact iff_true_intro (draining.of_flush (flush_frame system.tx staIdx)
        (txing_interfere system.tx (.flush staIdx)))
  | flushRound staIdx =>
      exact iff_true_intro (draining.of_flush (flushRound_frame system.tx staIdx)
        (txing_interfere system.tx (.flushRound staIdx)))
  | timeout staIdx =>
      exact iff_true_intro (draining.of_flush (timeout_frame system.tx staIdx)
        (txing_interfere system.tx (.timeout staIdx)))
  | send msg =>
      have view := timView_pushToQueue system.tx msg
      simp only [timView, Prod.mk.injEq] at view
      refine iff_true_intro (draining.of_interference view.1 rfl rfl
        (txing_interfere system.tx (.send msg)) ?_)
      exact fun other asked => (asked_pushToQueue system.tx msg other).mpr (Or.inl asked)
  | core decisions =>
      simp only [threads, KeepsAsking]
      rcases pc_eq : system.pc with _ | node | ⟨node, staIdx⟩ | ⟨node, staIdx⟩ | ⟨staIdx, node⟩ |
        ⟨staIdx, node, nodeLeft⟩ | ⟨staIdx, nodeLeft⟩
      case idle =>
          refine iff_true_intro ?_
          rcases queue : system.tx.ioQueue with _ | ⟨msg, rest⟩
          · simp only [advance, queue]
            rwa [← pc_eq]
          · simp only [advance, queue]
            exact draining.takeMsg pc_eq decisions queue
      case direct | counted =>
          refine iff_true_intro (draining.of_view (drainView_rwmTransferNode _ _ _ _) rfl ?_)
          rw [pc_eq]
          exact fun _ => id
      case buffering =>
          refine iff_true_intro (draining.of_view (drainView_announceTraffic _ _ _) rfl ?_)
          rw [pc_eq]
          exact fun _ => id
      case announced => exact step_announced_iff draining pc_eq
      case popped =>
          refine iff_true_intro (draining.of_view rfl rfl ?_)
          rw [pc_eq]
          exact fun _ => id
      case transferred => exact step_transferred_iff coherent draining pc_eq decisions

theorem CountedLast.of_sublist {state later : TxState} (counted : CountedLast state pc)
    (shorter : ∀ i, (later.txing i).Sublist (state.txing i)) : CountedLast later pc := by
  have empty : ∀ staIdx, rwmTxlingListNodeCount state staIdx = 0 →
      rwmTxlingListNodeCount later staIdx = 0 := by
    intro staIdx none
    by_contra left
    exact count_ne_zero_of_sublist shorter left none
  cases pc with
  | counted staIdx node nodeLeft | transferred staIdx nodeLeft =>
      exact fun last => empty staIdx (counted last)
  | _ => trivial

theorem takeMsg_frame (decisions : Decisions) (state : TxState) (msg : BusMsg) :
    (takeMsg decisions state msg).1.tables = state.tables ∧
      ∀ later, CountedLast later (takeMsg decisions state msg).2 := by
  cases msg with
  | tx vifIdx frame sync args =>
      obtain ⟨view, -, counted⟩ := takeMsg_tx decisions state vifIdx frame sync args
      exact ⟨congrArg Prod.fst view, counted⟩
  | txing staIdx =>
      rcases rwmPopTxingList_cases state staIdx with ⟨-, popped⟩ | ⟨i, node, rest, -, -, popped⟩
      · simp only [takeMsg, popped]
        exact ⟨trivial, fun _ => trivial⟩
      · simp only [takeMsg, popped]
        exact ⟨rfl, fun _ => trivial⟩
  | other => exact ⟨rfl, fun _ => trivial⟩

theorem advance_frame (decisions : Decisions) {state : TxState} (counted : CountedLast state pc) :
    (advance decisions state pc).1.tables = state.tables ∧
      CountedLast (advance decisions state pc).1 (advance decisions state pc).2 := by
  cases pc with
  | idle =>
      simp only [advance]
      rcases state.ioQueue with _ | ⟨msg, rest⟩
      · exact ⟨rfl, trivial⟩
      · have frame := takeMsg_frame decisions { state with ioQueue := rest } msg
        exact ⟨frame.1, frame.2 _⟩
  | direct node =>
      exact ⟨congrArg Prod.fst (drainView_rwmTransferNode _ _ _ _), trivial⟩
  | buffering node staIdx =>
      exact ⟨congrArg Prod.fst (drainView_announceTraffic _ _ _), trivial⟩
  | announced node staIdx => exact ⟨(rwmPushTxingList_frame state node staIdx).1, trivial⟩
  | popped staIdx node => exact ⟨rfl, id⟩
  | counted staIdx node nodeLeft =>
      have view := drainView_rwmTransferNode decisions.outcome state.incPckCnt node
        txuCntrlMoreData
      refine ⟨congrArg Prod.fst view, fun last => ?_⟩
      rw [advance, count_congr (congrArg (fun parts => parts.2.1) view)]
      exact counted last
  | transferred staIdx nodeLeft =>
      simp only [advance]
      split
      · exact ⟨congrArg Prod.fst (timView_pushToQueue state (.txing staIdx)), trivial⟩
      · split
        · exact ⟨congrArg Prod.fst (drainView_timUpdate decisions.timSent state staIdx false),
            trivial⟩
        · exact ⟨rfl, trivial⟩

theorem Coherent.of_interference (coherent : Coherent system)
    (tables_eq : next.tx.tables = system.tx.tables) (pending_eq : next.pending = system.pending)
    (pc_eq : next.pc = system.pc)
    (shorter : ∀ i, (next.tx.txing i).Sublist (system.tx.txing i)) : Coherent next where
  synced := by
    rw [tables_eq, pending_eq]
    exact coherent.synced
  counted := by
    rw [pc_eq]
    exact coherent.counted.of_sublist shorter

theorem Coherent.step (coherent : Coherent system) (action : Action) :
    Coherent (threads.step system action).1 := by
  cases action with
  | powerChange staIdx psState =>
      exact
        { synced := synced_powerChange coherent.synced staIdx psState
          counted := coherent.counted }
  | indication =>
      rcases pending_eq : system.pending with _ | ⟨ind, rest⟩
      · simp only [threads, pending_eq]
        exact coherent
      · have synced := coherent.synced
        rw [pending_eq] at synced
        have view := timView_psChangeInd system.tx ind.staIdx ind.psState
        simp only [timView, Prod.mk.injEq] at view
        simp only [threads, pending_eq, interfere]
        refine { synced := ?_, counted := ?_ }
        · simp only [view.1]
          exact synced_tail synced
        · exact coherent.counted.of_sublist fun i => by rw [view.2.1]
  | tables changed =>
      exact
        { synced := synced_congr (fun _ => rfl) coherent.synced
          counted := coherent.counted }
  | flush staIdx =>
      exact coherent.of_interference (flush_frame system.tx staIdx).1 rfl rfl
        (txing_interfere system.tx (.flush staIdx))
  | flushRound staIdx =>
      exact coherent.of_interference (flushRound_frame system.tx staIdx).1 rfl rfl
        (txing_interfere system.tx (.flushRound staIdx))
  | timeout staIdx =>
      exact coherent.of_interference (timeout_frame system.tx staIdx).1 rfl rfl
        (txing_interfere system.tx (.timeout staIdx))
  | send msg =>
      exact coherent.of_interference (congrArg Prod.fst (timView_pushToQueue system.tx msg)) rfl rfl
        (txing_interfere system.tx (.send msg))
  | core decisions =>
      have frame := advance_frame decisions coherent.counted
      refine { synced := ?_, counted := frame.2 }
      simp only [threads, frame.1]
      exact coherent.synced

/-- Over every interleaving of the threads: in every state reached, the list of every station that
is awake is asked for or being emptied, if and only if no step forgets a list: whenever a message
has to be sent for it, at the report of a wake-up or at the end of its handler, the queue has room,
and no node enters the empty list of a station that woke up after the decision to buffer it. -/
theorem draining_iff (tables : MacTables) (actions : List Action) :
    (∀ front, front <+: actions → Draining (threads.run (systemInit tables) front)) ↔
      threads.Always KeepsAsking (systemInit tables) actions := by
  have initial : Coherent (systemInit tables) :=
    { synced := by
        intro front ind back split
        simp [systemInit] at split
      counted := trivial }
  have empty : ∀ staIdx, rwmTxlingListNodeCount (rwmMsduInit tables) staIdx = 0 := by
    intro staIdx
    rw [rwmTxlingListNodeCount]
    split <;> rfl
  have draining_initial : Draining (systemInit tables) :=
    fun staIdx _ left => absurd (empty staIdx) left
  exact threads.forall_run_iff_always KeepsAsking Coherent Draining
    (fun action coherent => coherent.step action)
    (fun action coherent draining => draining_step_iff coherent draining action) initial
    draining_initial actions

/-- A frame is buffered for station 0 while it sleeps, 64 other messages fill the queue, and the
station wakes up. -/
def wakeUpUnheard : List Action :=
  [Action.powerChange 0 1, .indication, .send (.tx 0 ⟨[0], [9], 0, 60⟩ false 0), .core .ample,
      .core .ample, .core .ample] ++
    List.replicate 64 (Action.send .other) ++ [Action.powerChange 0 0, .indication]

/-- The message asks for some list. -/
def BusMsg.isTxing : BusMsg → Bool
  | .txing _ => true
  | _ => false

/-- The wake-up is reported, the frame waits, and no message asks for the list. -/
theorem wake_up_lost_in_full_queue :
    Awake (threads.run (systemInit plainTables) wakeUpUnheard) 0 ∧
      rwmTxlingListNodeCount (threads.run (systemInit plainTables) wakeUpUnheard).tx 0 = 1 ∧
      (threads.run (systemInit plainTables) wakeUpUnheard).tx.ioQueue.any BusMsg.isTxing = false ∧
      ¬ ∀ front, front <+: wakeUpUnheard → Draining (threads.run (systemInit plainTables) front) := by
  have pending : (threads.run (systemInit plainTables) wakeUpUnheard).pending = [] := by
    decide +kernel
  have awake : Awake (threads.run (systemInit plainTables) wakeUpUnheard) 0 := by
    refine ⟨by decide +kernel, ?_⟩
    rw [pending]
    exact fun ind member => absurd member List.not_mem_nil
  have left : rwmTxlingListNodeCount (threads.run (systemInit plainTables) wakeUpUnheard).tx 0 =
      1 := by
    decide +kernel
  have queue : (threads.run (systemInit plainTables) wakeUpUnheard).tx.ioQueue.any
      BusMsg.isTxing = false := by
    decide +kernel
  have pc : (threads.run (systemInit plainTables) wakeUpUnheard).pc = .idle := by
    decide +kernel
  refine ⟨awake, left, queue, ?_⟩
  intro every
  rcases every wakeUpUnheard (List.prefix_refl _) 0 awake (by rw [left]; exact Nat.one_ne_zero) with
    asked | sending
  · exact absurd rfl (List.any_eq_false.mp queue _ asked)
  · rw [pc] at sending
    exact sending

end BdkFreertos.Msdu
