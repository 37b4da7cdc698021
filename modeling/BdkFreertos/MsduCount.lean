import BdkFreertos.MsduTim

/-!
# The packet count of the MAC

The count is raised before a node is handed over and lowered when it is refused.  It is lowered as
well when no node could be allocated, though nothing has been counted then.
-/

namespace BdkFreertos.Msdu

def tally (state : TxState) : ℤ × List TxDesc := (state.pckCnt, state.pushed)

def surplus (state : TxState) : ℤ := state.pckCnt - state.pushed.length

/-- What is claimed of the count.  The MAC lowers it by one for each frame it confirms. -/
structure Balanced (state : TxState) : Prop where
  counted : state.pckCnt = state.pushed.length
  notBelow : ∀ confirmed : ℕ, confirmed ≤ state.pushed.length → 0 ≤ state.pckCnt - confirmed
  back : state.pckCnt - state.pushed.length = 0

/-- A node is allocated for the frame that comes next. -/
def Allocates (state : TxState) : Event → Prop
  | .interfere _ => True
  | .core outcome =>
      match state.ioQueue with
      | .tx _ _ _ _ :: _ => outcome.copied = true → outcome.allocated = true
      | _ => True

theorem balanced_iff (state : TxState) : Balanced state ↔ surplus state = 0 := by
  rw [surplus]
  constructor
  · exact Balanced.back
  · intro back
    refine ⟨by omega, fun confirmed bounded => ?_, back⟩
    omega

section
variable {state next : TxState}

theorem surplus_congr (same : tally next = tally state) : surplus next = surplus state := by
  obtain ⟨count_eq, pushed_eq⟩ := Prod.mk.inj same
  rw [surplus, surplus, count_eq, pushed_eq]

/-! ### What leaves the count alone -/

theorem tally_pushToQueue (state : TxState) (msg : BusMsg) :
    tally (pushToQueue state msg) = tally state := by
  rw [pushToQueue]
  split <;> rfl

theorem tally_timUpdate (sent : Bool) (state : TxState) (staIdx : UInt8) (txAvail : Bool) :
    tally (rwMsgSendTimUpdate sent state staIdx txAvail) = tally state := by
  cases sent <;> rfl

theorem tally_announceTraffic (outcome : Outcome) (state : TxState) (staIdx : UInt8) :
    tally (announceTraffic outcome state staIdx) = tally state := by
  rw [announceTraffic]
  split
  · rfl
  · split
    · exact tally_timUpdate outcome.timSent state staIdx true
    · rfl

theorem tally_rwmPushTxingList (state : TxState) (node : ℕ) (staIdx : UInt8) :
    tally (rwmPushTxingList state node staIdx) = tally state := by
  rw [rwmPushTxingList]
  split <;> rfl

theorem tally_flushRound (state : TxState) (staIdx : UInt8) :
    tally (flushRound state staIdx) = tally state := by
  rcases rwmPopTxingList_cases state staIdx with ⟨-, popped⟩ | ⟨_, node, rest, -, -, popped⟩
  · rw [flushRound, popped]
  · rw [flushRound, popped]
    rfl

theorem tally_flush (state : TxState) (staIdx : UInt8) :
    tally (rwmFlushTxingList state staIdx) = tally state := by
  have rounds_tally (rounds : ℕ) (state : TxState) :
      tally (flushRounds rounds state staIdx) = tally state := by
    induction rounds generalizing state with
    | zero => rfl
    | succ rounds induction =>
        exact (induction (flushRound state staIdx)).trans (tally_flushRound state staIdx)
  rw [rwmFlushTxingList]
  split
  · rfl
  · exact rounds_tally _ state

theorem tally_psChangeInd (state : TxState) (staIdx psState : UInt8) :
    tally (rwmMsduPsChangeIndHandler state staIdx psState) = tally state := by
  rw [rwmMsduPsChangeIndHandler]
  split
  · rfl
  · split_ifs
    · rfl
    · exact tally_pushToQueue state (.txing staIdx)
    · rfl
    · rfl

theorem tally_interfere (state : TxState) (interference : Interference) :
    tally (interfere state interference) = tally state := by
  cases interference with
  | tables tables => rfl
  | powerState staIdx psState => rfl
  | psChangeInd staIdx psState => exact tally_psChangeInd state staIdx psState
  | flush staIdx => exact tally_flush state staIdx
  | flushRound staIdx => exact tally_flushRound state staIdx
  | timeout staIdx =>
      simp only [interfere]
      split
      · exact tally_flush state staIdx
      · rfl
  | send msg => exact tally_pushToQueue state msg

theorem tally_interfereAll (state : TxState) (during : List Interference) :
    tally (interfereAll state during) = tally state := by
  induction during generalizing state with
  | nil => rfl
  | cons interference during induction =>
      exact (induction (interfere state interference)).trans (tally_interfere state interference)

/-! ### What the handlers count -/

variable {submissions : List Submission} {taken fresh : List ℕ} {node : ℕ}

theorem Kept.surplus_transferCounted (kept : Kept submissions taken fresh state)
    (hand : taken ++ fresh = [node]) (outcome : Outcome) (flag : UInt32) :
    surplus (rwmTransferNode outcome state.incPckCnt node flag) = surplus state := by
  obtain ⟨msdu, read⟩ := (kept.of_ledger_eq (ledger_incPckCnt state)).read_hand hand
  simp only [rwmTransferNode, TxState.readNode, read]
  rcases chooseQueue state.incPckCnt.tables msdu with _ | ⟨tid, queueIdx⟩
  · simp only [surplus, rwmNodeFree, TxState.incPckCnt, TxState.decPckCnt]
    omega
  · simp only
    split
    · simp only [surplus, rwmNodeFree, TxState.incPckCnt, TxState.decPckCnt]
      omega
    · simp only [surplus, TxState.incPckCnt, List.length_append, List.length_singleton]
      omega

theorem Kept.surplus_psTranferNode (kept : Kept submissions [] [node] state) (outcome : Outcome) :
    surplus (rwmPsTranferNode outcome state node) = surplus state := by
  obtain ⟨msdu, read⟩ := kept.read_hand rfl
  have readNode_eq : state.readNode node = (state, some msdu) := by
    rw [TxState.readNode, read]
  have interfered := kept.interfereAll outcome.first
  simp only [rwmPsTranferNode, readNode_eq]
  split_ifs
  · exact kept.surplus_transferCounted rfl outcome 0
  · exact kept.surplus_transferCounted rfl outcome 0
  · apply surplus_congr
    rw [tally_rwmPushTxingList, tally_interfereAll, tally_announceTraffic, tally_interfereAll]
  · rw [interfered.surplus_transferCounted rfl outcome 0]
    exact surplus_congr (tally_interfereAll state outcome.first)

theorem Kept.surplus_sendTxingNode (kept : Kept submissions [] [] state) (outcome : Outcome)
    (staIdx : UInt8) : surplus (rwmMsduSendTxingNode outcome state staIdx) = surplus state := by
  rcases rwmPopTxingList_cases state staIdx with
    ⟨-, popped⟩ | ⟨i, node, rest, place, front, popped⟩
  · rw [rwmMsduSendTxingNode, popped]
  · rw [rwmMsduSendTxingNode, popped]
    have held := ((kept.setTxing_tail place front).interfereAll outcome.first).interfereAll
      outcome.second
    have before : surplus (Msdu.interfereAll
        (Msdu.interfereAll (state.setTxing i rest) outcome.first) outcome.second) =
          surplus state := by
      apply surplus_congr
      rw [tally_interfereAll, tally_interfereAll]
      rfl
    have sent := held.surplus_transferCounted rfl outcome txuCntrlMoreData
    rw [← before, ← sent]
    dsimp only
    split_ifs
    · apply surplus_congr
      rw [bmsgTxingSender, tally_pushToQueue, tally_interfereAll]
    · apply surplus_congr
      rw [tally_timUpdate, tally_interfereAll]
    · exact surplus_congr (tally_interfereAll _ _)

theorem Kept.surplus_transfer (kept : Kept submissions [] [] state) (outcome : Outcome)
    (vifIdx : UInt8) (frame : EthFrame) (sync : Bool) (args : ℕ) :
    surplus (rwmTransfer outcome state vifIdx frame sync args).1 =
      surplus state - if outcome.allocated then 0 else 1 := by
  rw [rwmTransfer]
  split
  · have held := kept.alloc
      ⟨frame, vifIdx, rwmMgmtTxGetStaidx state.tables vifIdx frame.dest, sync, args⟩
      (rwmMgmtIsApInface state.tables vifIdx)
    rw [sub_zero]
    exact held.surplus_psTranferNode outcome
  · simp only [surplus, TxState.decPckCnt]
    omega

end

open Classical in
theorem Kept.surplus_step {submissions : List Submission} {state : TxState}
    (kept : Kept submissions [] [] state) (event : Event) :
    surplus (coreThread.step state event).1 =
      surplus state - if Allocates state event then 0 else 1 := by
  cases event with
  | interfere interference =>
      rw [if_pos (by trivial), sub_zero]
      exact surplus_congr (tally_interfere state interference)
  | core outcome =>
      rcases queue : state.ioQueue with _ | ⟨msg, rest⟩
      · simp [coreThread, queue, Allocates]
      · have popped : Kept submissions [] [] { state with ioQueue := rest } :=
          kept.of_ledger_eq rfl
        simp only [coreThread, queue, Allocates]
        cases msg with
        | tx vifIdx frame sync args =>
            simp only [handleMsg]
            split
            · rename_i copied
              have counted : _ = surplus state - if outcome.allocated then 0 else 1 :=
                popped.surplus_transfer outcome vifIdx frame sync args
              simpa [copied] using counted
            · rename_i not_copied
              simp [not_copied, surplus]
        | txing staIdx =>
            rw [if_pos trivial, sub_zero]
            exact popped.surplus_sendTxingNode outcome staIdx
        | other =>
            rw [if_pos trivial, sub_zero]
            rfl

/-- The count is balanced after every initial part of a run exactly if a node is allocated for every
frame. -/
theorem packet_count_balanced_iff (tables : MacTables) (events : List Event) :
    (∀ front, front <+: events → Balanced (coreThread.run (rwmMsduInit tables) front)) ↔
      coreThread.Always Allocates (rwmMsduInit tables) events := by
  refine coreThread.forall_run_iff_always Allocates
    (fun state => ∃ submissions, Kept submissions [] [] state) Balanced ?_ ?_
    ⟨[], kept_init tables⟩ ((balanced_iff _).mpr rfl) events
  · rintro state event ⟨submissions, kept⟩
    exact ⟨_, kept.step event⟩
  · rintro state event ⟨submissions, kept⟩ balanced
    classical
    rw [balanced_iff, kept.surplus_step event, (balanced_iff state).mp balanced]
    by_cases allocates : Allocates state event <;> simp [allocates]

/-- A frame comes when no node can be allocated. -/
def frameWithoutNode : List Event :=
  [.interfere (.send (.tx 0 ⟨[0], [9], 0, 60⟩ false 0)),
    .core ⟨true, false, fun _ => false, true, [], [], []⟩]

/-- The count is lowered for a frame that it was not raised for. -/
theorem count_lowered_without_node :
    (coreThread.run (rwmMsduInit plainTables) frameWithoutNode).pckCnt = -1 ∧
      (coreThread.run (rwmMsduInit plainTables) frameWithoutNode).pushed = [] ∧
      ¬ ∀ front, front <+: frameWithoutNode →
        Balanced (coreThread.run (rwmMsduInit plainTables) front) := by
  refine ⟨rfl, rfl, fun every => ?_⟩
  exact absurd (every frameWithoutNode (List.prefix_refl _)).counted (by decide)

end BdkFreertos.Msdu
