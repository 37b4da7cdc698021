import BdkFreertos.L2Packet

/-!
# Control blocks and their senders

A frame that may still be transmitted belongs to a sender that has not returned, and no two of them
belong to the same one.  So a callback finds its sender, and the last one is over before the sender
goes on.
-/

namespace BdkFreertos.L2Packet

open HapdIntf (Core Descriptor Processed Front)
open Msdu (System Decisions Action MsduNode)

/-! ## The invariant -/

/-- A node carries a frame of a sender, and points to the sender's control block. -/
def Carried (state : L2) (handle : ℕ) (msdu : MsduNode) : Prop :=
  ∃ frame, state.origin handle = some frame ∧
    frame.payload = some ⟨frame.descriptor.call, frame.buf⟩ ∧
      ∃ sender ∈ state.senders, sender.call = frame.descriptor.call ∧
        sender.cb = UInt32.ofNat msdu.args

/-- The frame of a call was transmitted with a result, and is not transmitted again. -/
def Transmitted (state : L2) (call : ℕ) (result : ℤ) : Prop :=
  call ∉ state.onItsWay ∧ state.OwnStatus call result

/-- A sender that does not wait for its time to be over has the result of its own frame. -/
def Settled (state : L2) (sender : Sender) : Prop :=
  match sender.phase with
  | .waiting => ∀ n, (state.blocks sender.cb).sema = some (n + 1) →
      Transmitted state sender.call (state.blocks sender.cb).result
  | .woken => Transmitted state sender.call (state.blocks sender.cb).result
  | .decided timedOut ret | .closed timedOut ret =>
      timedOut = false → Transmitted state sender.call ret

/-- What holds besides the claim. -/
structure Strong (state : L2) : Prop where
  front : Front state.core
  turns : state.core.handler = .idle ∨ state.threads.pc = .idle
  nodes : Msdu.Nodes state.threads.pc.hand state.threads.tx
  placed : state.threads.pc.Placed
  sends : ∀ descriptor ∈ state.core.waiting, descriptor.sync = true →
    ∃ sender ∈ state.senders, sender.call = descriptor.call ∧ sender.cb = descriptor.args
  carries : ∀ handle ∈ state.owners, ∀ msdu,
    state.threads.tx.heap.allocated[handle]? = some msdu → msdu.sync = true →
      Carried state handle msdu
  once : state.onItsWay.Nodup
  calls : (state.senders.map Sender.call).Nodup
  apart : (state.senders.map Sender.cb).Nodup
  earlier : ∀ sender ∈ state.senders, sender.call < state.core.calls
  settled : ∀ sender ∈ state.senders, Settled state sender
  good : Good state

section

variable {α : Type*} {back front : List α} (fewer : front.Subperm back)
include fewer

theorem subperm_filterMap {β : Type*} (f : α → Option β) :
    (front.filterMap f).Subperm (back.filterMap f) := by
  obtain ⟨part, perm, sublist⟩ := fewer
  exact ⟨part.filterMap f, perm.filterMap f, sublist.filterMap f⟩

theorem nodup_of_subperm (distinct : back.Nodup) : front.Nodup := by
  obtain ⟨part, perm, sublist⟩ := fewer
  exact perm.nodup_iff.mp (distinct.sublist sublist)

end

theorem strong_start (tables : Msdu.MacTables) (blocks : UInt32 → ControlBlock) :
    Strong (.start tables blocks) where
  front := HapdIntf.front_start
  turns := .inl rfl
  nodes := Msdu.nodes_init tables
  placed := trivial
  sends _ member := absurd member List.not_mem_nil
  carries handle member := by
    have live := (Msdu.nodes_init tables).owned.live member
    exact absurd live.1 (Nat.not_lt_zero handle)
  once := List.nodup_nil
  calls := List.nodup_nil
  apart := List.nodup_nil
  earlier _ member := absurd member List.not_mem_nil
  settled _ member := absurd member List.not_mem_nil
  good := ⟨fun _ member => absurd member List.not_mem_nil,
    fun _ _ member => absurd member List.not_mem_nil⟩

section
variable {state next : L2}

variable {handle : ℕ} {msdu : MsduNode} {frame : Processed} {origin : ℕ → Option Processed}
  {descriptor : Descriptor} {first second : Sender} {buf : List UInt8} (call : ℕ) (phase : Phase)

theorem syncCall_eq_some (found : state.threads.tx.heap.allocated[handle]? = some msdu)
    (sync : msdu.sync = true) (origin : state.origin handle = some frame) :
    state.syncCall handle = some frame.descriptor.call := by
  simp [L2.syncCall, found, sync, origin]

theorem mem_onItsWay_of_node (member : handle ∈ state.owners)
    (found : state.threads.tx.heap.allocated[handle]? = some msdu) (sync : msdu.sync = true)
    (origin : state.origin handle = some frame) : frame.descriptor.call ∈ state.onItsWay :=
  List.mem_append_right _
    (List.mem_filterMap.mpr ⟨handle, member, syncCall_eq_some found sync origin⟩)

theorem mem_onItsWay_of_waiting (member : descriptor ∈ state.core.waiting)
    (sync : descriptor.sync = true) : descriptor.call ∈ state.onItsWay :=
  List.mem_append_left _ (List.mem_filterMap.mpr ⟨descriptor, member, if_pos sync⟩)

theorem Transmitted.mono {call : ℕ} {result : ℤ} (transmitted : Transmitted state call result)
    (fewer : call ∈ next.onItsWay → call ∈ state.onItsWay)
    (more : state.callbacks ⊆ next.callbacks) : Transmitted next call result := by
  obtain ⟨past, callback, member, own⟩ := transmitted
  exact ⟨fun again => past (fewer again), callback, more member, own⟩

theorem Settled.mono {sender : Sender} (settled : Settled state sender)
    (block : next.blocks sender.cb = state.blocks sender.cb)
    (fewer : sender.call ∈ next.onItsWay → sender.call ∈ state.onItsWay)
    (more : state.callbacks ⊆ next.callbacks) : Settled next sender := by
  rcases sender with ⟨call, cb, _ | _ | _ | _⟩
  · intro n given
    rw [block] at given ⊢
    exact (settled n given).mono fewer more
  · have settled : Transmitted state call (state.blocks cb).result := settled
    rw [← block] at settled
    exact settled.mono fewer more
  · exact fun own => (settled own).mono fewer more
  · exact fun own => (settled own).mono fewer more

theorem Good.mono (good : Good state) (returned : next.returned = state.returned)
    (callbacks : next.callbacks = state.callbacks) : Good next := by
  refine ⟨callbacks ▸ good.alive, fun call ret member => ?_⟩
  obtain ⟨callback, member, own⟩ := good.own call ret (returned ▸ member)
  exact ⟨callback, callbacks ▸ member, own⟩

/-- Frames are carried on or dropped. -/
theorem Strong.carry (strong : Strong state) {core : Core} {threads : System} (front : Front core)
    (turns : core.handler = .idle ∨ threads.pc = .idle)
    (nodes : Msdu.Nodes threads.pc.hand threads.tx) (placed : threads.pc.Placed)
    (waiting : ∀ descriptor ∈ core.waiting, descriptor.sync = true →
      descriptor ∈ state.core.waiting) (calls_le : state.core.calls ≤ core.calls)
    (fewer : (L2.onItsWay { state with
      core := core, threads := threads, origin := origin }).Subperm state.onItsWay)
    (carries : ∀ handle ∈ Msdu.owners threads.pc.hand threads.tx, ∀ msdu,
      threads.tx.heap.allocated[handle]? = some msdu → msdu.sync = true →
        Carried { state with core := core, threads := threads, origin := origin } handle msdu) :
    Strong { state with core := core, threads := threads, origin := origin } where
  front := front
  turns := turns
  nodes := nodes
  placed := placed
  sends descriptor member sync := strong.sends descriptor (waiting descriptor member sync) sync
  carries := carries
  once := nodup_of_subperm fewer strong.once
  calls := strong.calls
  apart := strong.apart
  earlier sender member := (strong.earlier sender member).trans_le calls_le
  settled sender member :=
    (strong.settled sender member).mono rfl (fun again => fewer.subset again)
      (List.Subset.refl _)
  good := strong.good.mono rfl rfl

theorem Strong.ofCore (strong : Strong state) {core : Core} (front : Front core)
    (turns : core.handler = .idle ∨ state.threads.pc = .idle)
    (fewer : core.waiting.Subperm state.core.waiting)
    (calls_eq : core.calls = state.core.calls) : Strong { state with core := core } :=
  strong.carry front turns strong.nodes strong.placed (fun _ member _ => fewer.subset member)
    calls_eq.ge ((List.subperm_append_right _).mpr (subperm_filterMap fewer _)) strong.carries

theorem syncCall_congr {core : Core} {threads : System}
    (found : threads.tx.heap.allocated[handle]? = state.threads.tx.heap.allocated[handle]?)
    (origin_eq : origin handle = state.origin handle) :
    L2.syncCall { state with core := core, threads := threads, origin := origin } handle =
      state.syncCall handle := by
  simp [L2.syncCall, found, origin_eq]

theorem Strong.older (strong : Strong state) (member : handle ∈ state.owners) :
    handle < state.threads.tx.heap.allocated.length :=
  (strong.nodes.owned.live member).1

/-- Nodes are moved or freed. -/
theorem Strong.ofPasses (strong : Strong state) {threads : System}
    (turns : state.core.handler = .idle ∨ threads.pc = .idle) (placed : threads.pc.Placed)
    (passes : Msdu.Passes state.threads.pc.hand threads.pc.hand state.threads.tx threads.tx)
    (old : ∀ handle < state.threads.tx.heap.allocated.length,
      origin handle = state.origin handle) :
    Strong { state with threads := threads, origin := origin } := by
  have fewer := passes.subperm strong.nodes.owned
  refine strong.carry strong.front turns (strong.nodes.passes passes) placed
    (fun _ member _ => member) (Nat.le_refl _) ?_ ?_
  · have kept := subperm_filterMap fewer
      (L2.syncCall { state with threads := threads, origin := origin })
    have same : state.owners.filterMap
        (L2.syncCall { state with threads := threads, origin := origin }) =
          state.owners.filterMap state.syncCall :=
      List.filterMap_congr fun handle member =>
        syncCall_congr (by rw [passes.allocated_eq]) (old handle (strong.older member))
    exact (List.subperm_append_left _).mpr (same ▸ kept)
  · intro handle member msdu found sync
    rw [passes.allocated_eq] at found
    have before := fewer.subset member
    obtain ⟨frame, origin_eq, own⟩ := strong.carries handle before msdu found sync
    exact ⟨frame, (old handle (strong.older before)).trans origin_eq, own⟩

def syncCallOf (descriptor : Descriptor) : Option ℕ :=
  if descriptor.sync then some descriptor.call else none

/-- A node is made of the next frame, or of a frame from elsewhere. -/
theorem Strong.makes (strong : Strong state) {core : Core} {threads : System}
    (idle : state.threads.pc = .idle) (front : Front core)
    (turns : core.handler = .idle ∨ threads.pc = .idle) (placed : threads.pc.Placed)
    (waiting : core.waiting ⊆ state.core.waiting) (calls_eq : core.calls = state.core.calls)
    (passes : Msdu.Passes [state.threads.tx.heap.allocated.length] threads.pc.hand
      (state.threads.tx.allocate msdu) threads.tx)
    (old : ∀ handle < state.threads.tx.heap.allocated.length, origin handle = state.origin handle)
    {newCall : Option ℕ}
    (newCall_eq : (if msdu.sync then (origin state.threads.tx.heap.allocated.length).map
      fun frame => frame.descriptor.call else none) = newCall)
    (fewer : (core.waiting.filterMap syncCallOf ++ newCall.toList).Subperm
      (state.core.waiting.filterMap syncCallOf)) (carried : msdu.sync = true → Carried
      { state with core := core, threads := threads, origin := origin }
      state.threads.tx.heap.allocated.length msdu) :
    Strong { state with core := core, threads := threads, origin := origin } := by
  have nodes := strong.nodes
  rw [idle] at nodes
  have made := nodes.allocate msdu
  have owners_fewer := passes.subperm made.owned
  have owners_eq : Msdu.owners [state.threads.tx.heap.allocated.length]
      (state.threads.tx.allocate msdu) =
        state.threads.tx.heap.allocated.length :: state.owners := by
    rw [L2.owners, idle]
    rfl
  have allocated : threads.tx.heap.allocated = state.threads.tx.heap.allocated ++ [msdu] :=
    passes.allocated_eq
  have found_old (handle : ℕ) (member : handle ∈ state.owners) :
      threads.tx.heap.allocated[handle]? = state.threads.tx.heap.allocated[handle]? := by
    rw [allocated, List.getElem?_append_left (strong.older member)]
  have found_new :
      threads.tx.heap.allocated[state.threads.tx.heap.allocated.length]? = some msdu := by
    rw [allocated]
    simp
  rw [owners_eq] at owners_fewer
  refine strong.carry front turns (made.passes passes) placed
    (fun _ member _ => waiting member) calls_eq.ge ?_ ?_
  · have kept := subperm_filterMap owners_fewer
      (L2.syncCall { state with core := core, threads := threads, origin := origin })
    have new_eq : L2.syncCall { state with core := core, threads := threads, origin := origin }
        state.threads.tx.heap.allocated.length = newCall := by
      rw [L2.syncCall, found_new]
      exact newCall_eq
    have old_eq : state.owners.filterMap
        (L2.syncCall { state with core := core, threads := threads, origin := origin }) =
          state.owners.filterMap state.syncCall :=
      List.filterMap_congr fun handle member =>
        syncCall_congr (found_old handle member) (old handle (strong.older member))
    have split_eq : (state.threads.tx.heap.allocated.length :: state.owners).filterMap
        (L2.syncCall { state with core := core, threads := threads, origin := origin }) =
          newCall.toList ++ state.owners.filterMap state.syncCall := by
      rw [List.filterMap_cons, new_eq, old_eq]
      cases newCall <;> rfl
    rw [split_eq] at kept
    refine ((List.subperm_append_left _).mpr kept).trans ?_
    rw [← List.append_assoc]
    exact (List.subperm_append_right _).mpr fewer
  · intro handle member node found sync
    rcases List.mem_cons.mp (owners_fewer.subset member) with rfl | before
    · rw [found_new] at found
      cases found
      exact carried sync
    · rw [found_old handle before] at found
      obtain ⟨frame, origin_eq, own⟩ := strong.carries handle before node found sync
      exact ⟨frame, (old handle (strong.older before)).trans origin_eq, own⟩

/-! ## The core thread and the nodes -/

theorem Strong.threads (strong : Strong state) (action : Action)
    (asynchronous : ∀ msg, action = .send msg → msg.Asynchronous)
    (turn : ∀ decisions, action = .core decisions → state.core.handler = .idle) :
    Strong { state with threads := (Msdu.threads.step state.threads action).1 } := by
  obtain ⟨carries, placed⟩ :=
    Msdu.carries_step strong.nodes strong.placed action asynchronous
  have turns : state.core.handler = .idle ∨
      (Msdu.threads.step state.threads action).1.pc = .idle := by
    cases action with
    | core decisions => exact .inl (turn decisions rfl)
    | indication =>
        simp only [Msdu.threads]
        split
        · exact strong.turns
        · exact strong.turns
    | powerChange _ _ | tables _ | flush _ | flushRound _ | timeout _ | send _ =>
        exact strong.turns
  cases carries with
  | moves passes => exact strong.ofPasses turns placed passes fun _ _ => rfl
  | makes msdu async idle passes =>
      have no_call : (if msdu.sync then (state.origin state.threads.tx.heap.allocated.length).map
          fun frame => frame.descriptor.call else none) = none := by
        rw [async]
        rfl
      refine strong.makes idle strong.front turns placed (List.Subset.refl _) rfl passes
        (fun _ _ => rfl) no_call ?_ fun sync => ?_
      · simp only [Option.toList_none, List.append_nil]
        exact .refl _
      · exact absurd (async.symm.trans sync) (by simp)

theorem rwmTransfer_eq {decisions : Decisions} {tx : Msdu.TxState} {pc : Msdu.CorePc}
    (taken : Msdu.takeMsg { decisions with copied := true } state.threads.tx
      (.tx frame.descriptor.vifIndex (ethFrame frame.buf) frame.descriptor.sync
        frame.descriptor.args.toNat) = (tx, pc)) :
    rwmTransfer state decisions frame =
      { state with
        threads := { state.threads with tx := tx, pc := pc }
        origin :=
          Function.update state.origin state.threads.tx.heap.allocated.length (some frame) } := by
  rw [rwmTransfer, taken]

theorem Strong.receive (strong : Strong state) (allocated : Bool) (decisions : Decisions)
    (careful : ∀ descriptor payloadSize, state.core.handler = .peeked descriptor payloadSize →
      descriptor.type = .data → allocated = true) :
    Strong (L2Packet.receive state allocated decisions) := by
  by_cases data : ∃ descriptor payloadSize,
      state.core.handler = .peeked descriptor payloadSize ∧ descriptor.type = .data
  · obtain ⟨descriptor, payloadSize, handler_eq, data⟩ := data
    obtain rfl := careful descriptor payloadSize handler_eq data
    obtain ⟨payload, paired, front, waiting_eq, idle_eq, processed_eq⟩ :=
      strong.front.keRxReceive_data handler_eq data
    have idle : state.threads.pc = .idle :=
      strong.turns.resolve_left (by rw [handler_eq]; exact nofun)
    have receive_eq : L2Packet.receive state true decisions =
        rwmTransfer { state with core := HapdIntf.keRxReceive state.core true } decisions
          ⟨descriptor, some payload, payload.bytes⟩ := by
      simp [L2Packet.receive, processed_eq]
    have calls_eq := HapdIntf.calls_keRxReceive state.core true
    have fewer : (HapdIntf.keRxReceive state.core true).waiting.Subperm state.core.waiting := by
      rw [waiting_eq]
      exact (List.sublist_cons_self _ _).subperm
    have old (handle : ℕ) (before : handle < state.threads.tx.heap.allocated.length) :
        Function.update state.origin state.threads.tx.heap.allocated.length
          (some ⟨descriptor, some payload, payload.bytes⟩) handle = state.origin handle :=
      Function.update_of_ne (Nat.ne_of_lt before) _ _
    rcases taken : Msdu.takeMsg { decisions with copied := true } state.threads.tx
      (.tx descriptor.vifIndex (ethFrame payload.bytes) descriptor.sync descriptor.args.toNat)
      with ⟨tx, pc⟩
    rw [receive_eq, rwmTransfer_eq taken]
    cases made : decisions.allocated with
    | false =>
        have spec := @Msdu.passes_takeMsg_tx_refused state.threads.tx
          { decisions with copied := true } (.inr made) descriptor.vifIndex
          (ethFrame payload.bytes) descriptor.sync descriptor.args.toNat
        rw [taken] at spec
        obtain ⟨passes, rfl⟩ := spec
        have received := strong.ofCore front (.inr idle) fewer calls_eq
        refine received.ofPasses (.inl idle_eq) trivial ?_ old
        show Msdu.Passes state.threads.pc.hand [] state.threads.tx tx
        rw [idle]
        exact passes
    | true =>
        have spec := @Msdu.passes_takeMsg_tx state.threads.tx { decisions with copied := true } rfl
          made descriptor.vifIndex (ethFrame payload.bytes) descriptor.sync descriptor.args.toNat
          _ strong.nodes.owned
        rw [taken] at spec
        obtain ⟨passes, placed⟩ := spec
        have new_eq : (if descriptor.sync then (Function.update state.origin
            state.threads.tx.heap.allocated.length (some ⟨descriptor, some payload, payload.bytes⟩)
            state.threads.tx.heap.allocated.length).map fun frame => frame.descriptor.call
              else none) = syncCallOf descriptor := by
          rw [Function.update_self]
          rfl
        refine strong.makes idle front (.inl idle_eq) placed fewer.subset calls_eq passes old new_eq
          ?_ fun sync => ?_
        · -- The call leaves the front half and comes to the new node.
          have moved : state.core.waiting.filterMap syncCallOf = (syncCallOf descriptor).toList ++
              (HapdIntf.keRxReceive state.core true).waiting.filterMap syncCallOf := by
            rw [waiting_eq, List.filterMap_cons]
            cases syncCallOf descriptor <;> rfl
          rw [moved]
          exact List.perm_append_comm.subperm
        · have member : descriptor ∈ state.core.waiting := waiting_eq ▸ List.mem_cons_self
          obtain ⟨sender, sender_mem, call_eq, cb_eq⟩ := strong.sends descriptor member sync
          refine ⟨⟨descriptor, some payload, payload.bytes⟩, Function.update_self _ _ _, ?_, sender,
            sender_mem, call_eq, ?_⟩
          · rw [← paired sync]
          · rw [cb_eq]
            exact (UInt32.ofNat_toNat ..).symm
  · have managed : ∀ descriptor payloadSize, state.core.handler = .peeked descriptor payloadSize →
        descriptor.type ≠ .data :=
      fun descriptor payloadSize handler_eq type_eq =>
        data ⟨descriptor, payloadSize, handler_eq, type_eq⟩
    obtain ⟨front, fewer, processed_eq⟩ := strong.front.keRxReceive_managed managed allocated
    have receive_eq : L2Packet.receive state allocated decisions =
        { state with core := HapdIntf.keRxReceive state.core allocated } := by
      simp [L2Packet.receive, processed_eq]
    rw [receive_eq]
    refine strong.ofCore front ?_ fewer (HapdIntf.calls_keRxReceive _ _)
    rcases strong.turns with waits | idle
    · rw [HapdIntf.keRxReceive_of_idle waits]
      exact .inl waits
    · exact .inr idle

/-! ## Completions -/

section

variable (strong : Strong state) (first_mem : first ∈ state.senders)
  (second_mem : second ∈ state.senders)
include strong first_mem second_mem

theorem Strong.sender_of_cb (same : first.cb = second.cb) : first = second :=
  List.inj_on_of_nodup_map strong.apart first_mem second_mem same

theorem Strong.sender_of_call (same : first.call = second.call) : first = second :=
  List.inj_on_of_nodup_map strong.calls first_mem second_mem same

end

/-- The callback of a frame finds the sender of the frame. -/
theorem Strong.callback (strong : Strong state) {handle args : ℕ} {frame : Processed}
    {sender : Sender} (origin : state.origin handle = some frame)
    (own : frame.payload = some ⟨frame.descriptor.call, frame.buf⟩)
    (member : sender ∈ state.senders) (call_eq : sender.call = frame.descriptor.call)
    (cb_eq : sender.cb = UInt32.ofNat args) (past : frame.descriptor.call ∉ state.onItsWay)
    (success : Bool) : Strong (ieee80211DataTxCb state handle args success) := by
  have more : state.callbacks ⊆ (ieee80211DataTxCb state handle args success).callbacks :=
    List.subset_append_left _ _
  have transmitted : Transmitted (ieee80211DataTxCb state handle args success) sender.call
      (if success then rwSuccess else rwFailure) := by
    refine ⟨call_eq ▸ past, _, List.mem_append_right _ (List.mem_singleton_self _), frame, origin,
      ?_, rfl⟩
    rw [call_eq]
    exact own
  have block_eq : (ieee80211DataTxCb state handle args success).blocks sender.cb =
      { state.blocks sender.cb with
        result := if success then rwSuccess else rwFailure }.give := by
    rw [cb_eq]
    exact Function.update_self _ _ _
  refine ⟨strong.front, strong.turns, strong.nodes, strong.placed, strong.sends, strong.carries,
    strong.once, strong.calls, strong.apart, strong.earlier, fun other other_mem => ?_, ?_, ?_⟩
  · by_cases same : other.cb = sender.cb
    · obtain rfl := strong.sender_of_cb other_mem member same
      have before := strong.settled other other_mem
      rcases other with ⟨call, cb, _ | _ | _ | _⟩
      · intro n _
        rw [block_eq]
        exact transmitted
      · show Transmitted _ _ _
        rw [block_eq]
        exact transmitted
      · exact fun own => (before own).mono id more
      · exact fun own => (before own).mono id more
    · refine (strong.settled other other_mem).mono ?_ id more
      exact Function.update_of_ne (cb_eq ▸ same) _ _
  · intro callback callback_mem
    rcases List.mem_append.mp callback_mem with before | new
    · exact strong.good.alive callback before
    · rw [List.mem_singleton.mp new]
      simp only [origin, Option.any_some, List.any_eq_true, decide_eq_true_eq]
      exact ⟨sender, member, call_eq⟩
  · intro call ret returned
    obtain ⟨callback, before, own⟩ := strong.good.own call ret returned
    exact ⟨callback, more before, own⟩

theorem Strong.rwmTxConfirm (strong : Strong state) (index : ℕ) (success : Bool) :
    Strong (L2Packet.rwmTxConfirm state index success) := by
  cases found : state.threads.tx.pushed[index]? with
  | none =>
      simp only [L2Packet.rwmTxConfirm, found]
      exact strong
  | some desc =>
      have perm : state.owners.Perm _ := Msdu.owners_perm found
      have member : desc.msduNode ∈ state.owners := perm.mem_iff.mpr List.mem_cons_self
      obtain ⟨msdu, read⟩ := strong.nodes.owned.read_eq member
      have allocated : state.threads.tx.heap.allocated[desc.msduNode]? = some msdu :=
        Arena.getElem?_of_read (congrArg Prod.snd read)
      have freed : Strong { state with
          threads := { state.threads with
            tx := Msdu.rwmNodeFree
              { state.threads.tx with pushed := state.threads.tx.pushed.eraseIdx index }
              desc.msduNode } } :=
        strong.ofPasses strong.turns strong.placed
          ((Msdu.passes_confirmed found).trans Msdu.passes_free) fun _ _ => rfl
      simp only [L2Packet.rwmTxConfirm, found, read]
      split_ifs with callback
      · have sync : msdu.sync = true := by
          obtain ⟨node, node_eq, callback_eq⟩ :=
            strong.nodes.callbacks desc (List.mem_of_getElem? found)
          rw [allocated] at node_eq
          cases node_eq
          exact callback_eq.symm.trans callback
        obtain ⟨frame, origin, own, sender, sender_mem, call_eq, cb_eq⟩ :=
          strong.carries desc.msduNode member msdu allocated sync
        refine freed.callback origin own sender_mem call_eq cb_eq ?_ success
        -- The frame is nowhere else.
        have past := strong.once
        have calls := perm.filterMap state.syncCall
        rw [List.filterMap_cons, syncCall_eq_some allocated sync origin] at calls
        have split := calls.append_left (state.core.waiting.filterMap syncCallOf)
        exact (List.nodup_cons.mp (List.nodup_middle.mp (split.nodup_iff.mp past))).1
      · exact freed

/-! ## Senders -/

theorem sender_spec {call : ℕ} {sender : Sender} (found : state.sender call = some sender) :
    sender ∈ state.senders ∧ sender.call = call :=
  ⟨List.mem_of_find?_eq_some found, by simpa using List.find?_some found⟩

def atPhase (call : ℕ) (phase : Phase) (sender : Sender) : Sender :=
  if sender.call = call then { sender with phase := phase } else sender

theorem atPhase_call (sender : Sender) : (atPhase call phase sender).call = sender.call := by
  rw [atPhase]
  split <;> rfl

theorem atPhase_cb (sender : Sender) : (atPhase call phase sender).cb = sender.cb := by
  rw [atPhase]
  split <;> rfl

theorem Strong.proceed (strong : Strong state) {sender : Sender}
    (member : sender ∈ state.senders) (block : ControlBlock) (phase : Phase)
    (settled : Settled ((state.setBlock sender.cb block).setPhase sender.call phase)
      { sender with phase := phase }) :
    Strong ((state.setBlock sender.cb block).setPhase sender.call phase) := by
  have senders_eq : ((state.setBlock sender.cb block).setPhase sender.call phase).senders =
      state.senders.map (atPhase sender.call phase) := rfl
  have present {other : Sender} (other_mem : other ∈ state.senders) :
      atPhase sender.call phase other ∈
        ((state.setBlock sender.cb block).setPhase sender.call phase).senders :=
    List.mem_map_of_mem other_mem
  constructor
  case front => exact strong.front
  case turns => exact strong.turns
  case nodes => exact strong.nodes
  case placed => exact strong.placed
  case once => exact strong.once
  case good => exact strong.good.mono rfl rfl
  case sends =>
    intro descriptor waiting sync
    obtain ⟨other, other_mem, call_eq, cb_eq⟩ := strong.sends descriptor waiting sync
    exact ⟨_, present other_mem, (atPhase_call ..).trans call_eq, (atPhase_cb ..).trans cb_eq⟩
  case carries =>
    intro handle owned msdu found sync
    obtain ⟨frame, origin, own, other, other_mem, call_eq, cb_eq⟩ :=
      strong.carries handle owned msdu found sync
    exact ⟨frame, origin, own, _, present other_mem, (atPhase_call ..).trans call_eq,
      (atPhase_cb ..).trans cb_eq⟩
  case calls =>
    rw [senders_eq, List.map_map, show Sender.call ∘ atPhase sender.call phase = Sender.call from
      funext fun other => atPhase_call sender.call phase other]
    exact strong.calls
  case apart =>
    rw [senders_eq, List.map_map, show Sender.cb ∘ atPhase sender.call phase = Sender.cb from
      funext fun other => atPhase_cb sender.call phase other]
    exact strong.apart
  case earlier =>
    intro other other_mem
    obtain ⟨before, before_mem, rfl⟩ := List.mem_map.mp other_mem
    exact (atPhase_call sender.call phase before).symm ▸ strong.earlier before before_mem
  case settled =>
    intro other other_mem
    obtain ⟨before, before_mem, rfl⟩ := List.mem_map.mp other_mem
    by_cases same : before.call = sender.call
    · obtain rfl := strong.sender_of_call before_mem member same
      rw [if_pos rfl]
      exact settled
    · rw [if_neg same]
      refine (strong.settled before before_mem).mono ?_ id (List.Subset.refl _)
      refine Function.update_of_ne (fun same_cb => same ?_) _ _
      exact congrArg Sender.call (strong.sender_of_cb before_mem member same_cb)

theorem setBlock_self (state : L2) (cb : UInt32) :
    state.setBlock cb (state.blocks cb) = state := by
  rw [L2.setBlock, Function.update_eq_self]

section

variable (strong : Strong state)
include strong

theorem Strong.getSemaphore (call : ℕ) : Strong (L2Packet.getSemaphore state call) := by
  unfold L2Packet.getSemaphore
  split
  · rename_i own cb found
    obtain ⟨member, rfl⟩ := sender_spec found
    split
    · rename_i n given
      split
      · exact strong
      · refine strong.proceed member _ .woken ?_
        have settled : Transmitted state own (state.blocks cb).result :=
          strong.settled _ member n given
        show Transmitted _ own (Function.update state.blocks cb _ cb).result
        rw [Function.update_self]
        exact settled
    · exact strong
  · exact strong

theorem Strong.timeOut (call : ℕ) : Strong (L2Packet.timeOut state call) := by
  unfold L2Packet.timeOut
  split
  · rename_i own cb found
    obtain ⟨member, rfl⟩ := sender_spec found
    split
    · have decided := strong.proceed member (state.blocks cb) (.decided true kTimeoutErr)
        fun own => absurd own (by simp)
      rwa [setBlock_self] at decided
    · exact strong
  · exact strong

theorem Strong.readResult (call : ℕ) : Strong (L2Packet.readResult state call) := by
  unfold L2Packet.readResult
  split
  · rename_i own cb found
    obtain ⟨member, rfl⟩ := sender_spec found
    have woken : Transmitted state own (state.blocks cb).result := strong.settled _ member
    have decided := strong.proceed member (state.blocks cb)
      (.decided false (state.blocks cb).result) fun _ => woken
    rwa [setBlock_self] at decided
  · exact strong

theorem Strong.deinitSemaphore (call : ℕ) : Strong (L2Packet.deinitSemaphore state call) := by
  unfold L2Packet.deinitSemaphore
  split
  · rename_i own cb timedOut ret found
    obtain ⟨member, rfl⟩ := sender_spec found
    have decided : timedOut = false → Transmitted state own ret := strong.settled _ member
    exact strong.proceed member _ (.closed timedOut ret) decided
  · exact strong

theorem Strong.leave (call : ℕ)
    (careful : ∀ sender ∈ state.sender call, ∀ ret, sender.phase = .closed true ret →
      call ∉ state.onItsWay) : Strong (L2Packet.leave state call) := by
  unfold L2Packet.leave
  split
  · rename_i own cb timedOut ret found
    obtain ⟨member, rfl⟩ := sender_spec found
    have closed : timedOut = false → Transmitted state own ret := strong.settled _ member
    have past : own ∉ state.onItsWay := by
      cases timedOut with
      | true => exact careful _ found ret rfl
      | false => exact (closed rfl).1
    have remains {other : Sender} (other_mem : other ∈ state.senders)
        (waited_for : other.call ∈ state.onItsWay) :
        other ∈ state.senders.filter fun sender => sender.call ≠ own := by
      refine List.mem_filter.mpr ⟨other_mem, decide_eq_true fun same => past ?_⟩
      exact same ▸ waited_for
    have part : (state.senders.filter fun sender => sender.call ≠ own).Sublist state.senders :=
      List.filter_sublist
    constructor
    case front => exact strong.front
    case turns => exact strong.turns
    case nodes => exact strong.nodes
    case placed => exact strong.placed
    case once => exact strong.once
    case sends =>
      intro descriptor waiting sync
      obtain ⟨other, other_mem, call_eq, cb_eq⟩ := strong.sends descriptor waiting sync
      refine ⟨other, remains other_mem ?_, call_eq, cb_eq⟩
      exact call_eq ▸ mem_onItsWay_of_waiting waiting sync
    case carries =>
      intro handle owned msdu found sync
      obtain ⟨frame, origin, matched, other, other_mem, call_eq, cb_eq⟩ :=
        strong.carries handle owned msdu found sync
      refine ⟨frame, origin, matched, other, remains other_mem ?_, call_eq, cb_eq⟩
      exact call_eq ▸ mem_onItsWay_of_node owned found sync origin
    case calls => exact strong.calls.sublist (part.map Sender.call)
    case apart => exact strong.apart.sublist (part.map Sender.cb)
    case earlier => exact fun other other_mem => strong.earlier other (part.subset other_mem)
    case settled =>
      intro other other_mem
      exact (strong.settled other (part.subset other_mem)).mono rfl id (List.Subset.refl _)
    case good =>
      refine ⟨strong.good.alive, fun other ret' returned => ?_⟩
      rcases List.mem_append.mp returned with before | new
      · exact strong.good.own other ret' before
      · cases timedOut with
        | true => exact absurd (List.mem_singleton.mp new) (by simp)
        | false =>
            obtain ⟨rfl, rfl⟩ := Returned.finished.inj (List.mem_singleton.mp new)
            exact (closed rfl).2
  · exact strong

end

/-! ## New calls -/

theorem Strong.lt_of_onItsWay (strong : Strong state) {call : ℕ}
    (waited_for : call ∈ state.onItsWay) : call < state.core.calls := by
  rcases List.mem_append.mp waited_for with waits | carried
  · obtain ⟨descriptor, member, call_eq⟩ := List.mem_filterMap.mp waits
    split at call_eq
    · cases call_eq
      exact strong.front.earlier descriptor member
    · cases call_eq
  · obtain ⟨handle, member, call_eq⟩ := List.mem_filterMap.mp carried
    rw [L2.syncCall] at call_eq
    split at call_eq
    · cases call_eq
    · rename_i msdu found
      split at call_eq
      · rename_i sync
        obtain ⟨frame, origin, -, sender, sender_mem, own, -⟩ :=
          strong.carries handle member msdu found sync
        rw [origin] at call_eq
        cases call_eq
        exact own.symm.trans_lt (strong.earlier sender sender_mem)
      · cases call_eq

theorem Strong.asynchronous (strong : Strong state) (call_eq : descriptor.call = state.core.calls)
    (plain : descriptor.sync = false) (filled : descriptor.type = .data → buf ≠ [])
    (allocated : Bool) :
    Strong { state with
      core := HapdIntf.fsocketSend state.core descriptor buf allocated } := by
  have front := strong.front.fsocketSend call_eq filled
    (fun sync => absurd (plain.symm.trans sync) (by simp)) allocated
  have waiting_eq := HapdIntf.waiting_fsocketSend state.core descriptor buf allocated
  refine strong.carry front ?_ strong.nodes strong.placed (fun other member sync => ?_) ?_ ?_
    strong.carries
  · rw [HapdIntf.handler_fsocketSend]
    exact strong.turns
  · rw [waiting_eq] at member
    rcases List.mem_append.mp member with before | new
    · exact before
    · cases allocated with
      | false => exact absurd new List.not_mem_nil
      | true =>
          rw [List.mem_singleton.mp new] at sync
          exact absurd (plain.symm.trans sync) (by simp)
  · rw [HapdIntf.calls_fsocketSend]
    exact Nat.le_succ _
  · refine (List.subperm_append_right _).mpr ?_
    show (List.filterMap syncCallOf _).Subperm (List.filterMap syncCallOf _)
    have none_new : (if allocated then [descriptor] else []).filterMap syncCallOf = [] := by
      cases allocated with
      | false => rfl
      | true => simp [syncCallOf, plain]
    rw [waiting_eq, List.filterMap_append, none_new, List.append_nil]

theorem Strong.synchronous (strong : Strong state) {vifIndex : UInt8} {cb : UInt32}
    (fresh : cb ∉ state.senders.map Sender.cb) (filled : buf ≠ []) {sema : Option ℕ}
    (empty : ∀ n, sema ≠ some (n + 1)) (allocated : Bool) :
    Strong { state.setBlock cb ⟨-1, sema⟩ with
      core := HapdIntf.fsocketSend state.core ⟨state.core.calls, .data, vifIndex, cb, true⟩ buf
        allocated
      senders := state.senders ++ [⟨state.core.calls, cb, .waiting⟩] } := by
  have front := @Front.fsocketSend state.core ⟨state.core.calls, .data, vifIndex, cb, true⟩
    strong.front rfl buf (fun _ => filled) (fun _ => rfl) allocated
  have waiting_eq := HapdIntf.waiting_fsocketSend state.core
    ⟨state.core.calls, .data, vifIndex, cb, true⟩ buf allocated
  have calls_eq := HapdIntf.calls_fsocketSend state.core
    ⟨state.core.calls, .data, vifIndex, cb, true⟩ buf allocated
  have not_yet : state.core.calls ∉ state.onItsWay :=
    fun waited_for => Nat.lt_irrefl _ (strong.lt_of_onItsWay waited_for)
  generalize core_eq : HapdIntf.fsocketSend state.core
    ⟨state.core.calls, .data, vifIndex, cb, true⟩ buf allocated = core at *
  have onItsWay_perm : (L2.onItsWay { state.setBlock cb ⟨-1, sema⟩ with
      core := core
      senders := state.senders ++ [⟨state.core.calls, cb, .waiting⟩] }).Perm
        ((if allocated then [state.core.calls] else []) ++ state.onItsWay) := by
    show (core.waiting.filterMap syncCallOf ++ _).Perm _
    have new_eq : (if allocated then [(⟨state.core.calls, .data, vifIndex, cb, true⟩ : Descriptor)]
        else []).filterMap syncCallOf = if allocated then [state.core.calls] else [] := by
      cases allocated <;> rfl
    rw [waiting_eq, List.filterMap_append, new_eq, L2.onItsWay, ← List.append_assoc]
    exact List.perm_append_comm.append_right _
  have back {call : ℕ} (earlier : call < state.core.calls)
      (waited_for : call ∈ L2.onItsWay { state.setBlock cb ⟨-1, sema⟩ with
        core := core
        senders := state.senders ++ [⟨state.core.calls, cb, .waiting⟩] }) :
      call ∈ state.onItsWay := by
    rcases List.mem_append.mp (onItsWay_perm.mem_iff.mp waited_for) with new | before
    · cases allocated with
      | false => exact absurd new List.not_mem_nil
      | true => exact absurd (List.mem_singleton.mp new) (Nat.ne_of_lt earlier)
    · exact before
  constructor
  case front => exact front
  case turns =>
    have handler_eq : core.handler = state.core.handler :=
      core_eq ▸ HapdIntf.handler_fsocketSend _ _ _ _
    exact handler_eq ▸ strong.turns
  case nodes => exact strong.nodes
  case placed => exact strong.placed
  case good => exact strong.good.mono rfl rfl
  case once =>
    refine onItsWay_perm.nodup_iff.mpr (List.nodup_append.mpr ⟨?_, strong.once, ?_⟩)
    · cases allocated <;> simp
    · rintro call new _ before rfl
      cases allocated with
      | false => exact absurd new List.not_mem_nil
      | true => exact not_yet (List.mem_singleton.mp new ▸ before)
  case sends =>
    intro descriptor member sync
    replace member : descriptor ∈ core.waiting := member
    rw [waiting_eq] at member
    rcases List.mem_append.mp member with before | new
    · obtain ⟨sender, sender_mem, own⟩ := strong.sends descriptor before sync
      exact ⟨sender, List.mem_append_left _ sender_mem, own⟩
    · cases allocated with
      | false => exact absurd new List.not_mem_nil
      | true =>
          rw [List.mem_singleton.mp new]
          exact ⟨_, List.mem_append_right _ (List.mem_singleton_self _), rfl, rfl⟩
  case carries =>
    intro handle owned msdu found sync
    obtain ⟨frame, origin, own, sender, sender_mem, sender_eq⟩ :=
      strong.carries handle owned msdu found sync
    exact ⟨frame, origin, own, sender, List.mem_append_left _ sender_mem, sender_eq⟩
  case calls =>
    rw [List.map_append]
    refine List.nodup_append.mpr ⟨strong.calls, by simp, ?_⟩
    rintro call before _ new rfl
    obtain ⟨sender, sender_mem, rfl⟩ := List.mem_map.mp before
    exact Nat.ne_of_lt (strong.earlier sender sender_mem) (List.mem_singleton.mp new)
  case apart =>
    rw [List.map_append]
    refine List.nodup_append.mpr ⟨strong.apart, by simp, ?_⟩
    rintro other before _ new rfl
    obtain rfl : other = cb := List.mem_singleton.mp new
    exact fresh before
  case earlier =>
    intro sender member
    show sender.call < core.calls
    rw [calls_eq]
    rcases List.mem_append.mp member with before | new
    · exact Nat.lt_succ_of_lt (strong.earlier sender before)
    · rw [List.mem_singleton.mp new]
      exact Nat.lt_succ_self _
  case settled =>
    intro sender member
    rcases List.mem_append.mp member with before | new
    · refine (strong.settled sender before).mono ?_ (back (strong.earlier sender before))
        (List.Subset.refl _)
      exact Function.update_of_ne (fun same => fresh (List.mem_map.mpr ⟨sender, before, same⟩)) _ _
    · rw [List.mem_singleton.mp new]
      intro n given
      replace given : (Function.update state.blocks cb ⟨-1, sema⟩ cb).sema = some (n + 1) := given
      rw [Function.update_self] at given
      exact absurd given (empty n)

theorem dataBuf_ne_nil (send : Send) : send.dataBuf ≠ [] := by
  simp [Send.dataBuf]

theorem Strong.l2PacketSend (strong : Strong state) (send : Send)
    (fresh : ¬(send.sync = true ∧ send.cb ∈ state.senders.map Sender.cb)) :
    Strong (L2Packet.l2PacketSend state send) := by
  unfold L2Packet.l2PacketSend
  split_ifs with refused sync sync memory
  · refine { strong with good := ⟨strong.good.alive, fun call ret returned => ?_⟩ }
    rcases List.mem_append.mp returned with before | new
    · exact strong.good.own call ret before
    · exact absurd (List.mem_singleton.mp new) (by simp)
  · exact strong
  · rw [sync]
    exact strong.synchronous (fun taken => fresh ⟨sync, taken⟩) (dataBuf_ne_nil send) (by simp)
      send.sent
  · rw [sync]
    exact strong.synchronous (fun taken => fresh ⟨sync, taken⟩) (dataBuf_ne_nil send) (by simp)
      send.sent
  · have plain := Bool.eq_false_of_not_eq_true sync
    rw [plain]
    exact strong.asynchronous rfl rfl (fun _ => dataBuf_ne_nil send) send.sent

/-! ## Runs -/

theorem Strong.step (strong : Strong state) {nxMfp : Bool} (event : Event)
    (careful : Careful state event) : Strong ((machine nxMfp).step state event).1 := by
  cases event with
  | l2PacketSend send =>
      simp only [machine]
      split
      · exact strong
      · rename_i fresh
        exact strong.l2PacketSend send fresh
  | mgmtSend robust vifIndex buf allocated =>
      refine strong.asynchronous rfl rfl (fun data => ?_) allocated
      exact absurd data (by cases robust <;> simp)
  | bmsgSktTxSender index pushed =>
      obtain ⟨front, fewer⟩ := strong.front.bmsgSktTxSender careful
      obtain ⟨-, handler_eq, -, calls_eq, -⟩ :=
        HapdIntf.bmsgSktTxSender_frame state.core index pushed
      exact strong.ofCore front (handler_eq ▸ strong.turns) fewer calls_eq
  | peek =>
      simp only [machine]
      split
      · rename_i idle
        obtain ⟨front, fewer⟩ := strong.front.keRxPeek nxMfp
        exact strong.ofCore front (.inr idle) fewer (HapdIntf.calls_keRxPeek _ _)
      · exact strong
  | receive allocated decisions => exact strong.receive allocated decisions careful
  | mgmtTx allocated =>
      obtain ⟨front, waiting_eq⟩ := strong.front.keRxMgmtTx allocated
      refine strong.ofCore front ?_ (waiting_eq ▸ .refl _) (HapdIntf.calls_keRxMgmtTx _ _)
      rcases strong.turns with waits | idle
      · rw [HapdIntf.keRxMgmtTx_of_idle waits]
        exact .inl waits
      · exact .inr idle
  | threads action =>
      cases action with
      | core decisions =>
          simp only [machine]
          split
          · rename_i waits
            exact strong.threads (.core decisions) nofun fun _ _ => waits
          · exact strong
      | send msg =>
          cases msg with
          | tx vifIdx frame sync args =>
              refine strong.threads (.send (.tx vifIdx frame false 0)) ?_ nofun
              rintro _ ⟨⟩ _ _ _ _ ⟨⟩
              rfl
          | txing staIdx | other => exact strong.threads _ (by rintro _ ⟨⟩; exact nofun) nofun
      | powerChange _ _ | indication | tables _ | flush _ | flushRound _ | timeout _ =>
          exact strong.threads _ nofun nofun
  | rwmTxConfirm index success => exact strong.rwmTxConfirm index success
  | getSemaphore call => exact strong.getSemaphore call
  | timeOut call => exact strong.timeOut call
  | readResult call => exact strong.readResult call
  | deinitSemaphore call => exact strong.deinitSemaphore call
  | leave call => exact strong.leave call careful

end

/-- In every run in which descriptors meet their payloads and no sender returns after a time-out
while its frame may still be transmitted, callbacks find their senders, and senders return the
status of their own frames. -/
theorem control_blocks_good (nxMfp : Bool) (tables : Msdu.MacTables)
    (blocks : UInt32 → ControlBlock) (events : List Event)
    (careful : (machine nxMfp).Always Careful (.start tables blocks) events) :
    ∀ front, front <+: events → Good ((machine nxMfp).run (.start tables blocks) front) := by
  rintro front ⟨back, rfl⟩
  exact ((machine nxMfp).run_invariant Careful Strong (strong_start tables blocks)
    (fun strong meets => strong.step _ meets)
    (((machine nxMfp).always_append Careful _ front back).mp careful).1).good

/-- A station of one access point. -/
def eapolTables : Msdu.MacTables where
  vifInfoTab _ := { type := .sta, active := true, apId := 0, acm := 0 }
  staInfoTab _ := { macAddr := [1, 1, 1, 1, 1, 1], psState := 0, instNbr := 0, aid := 1
                    capaFlags := 0 }
  macTid2ac _ := 0

/-- An EAPOL frame that is sent synchronously, and handed to the MAC. -/
def eapolSubmitted : List Event :=
  [.l2PacketSend
      { vifIndex := 0, dstAddr := fun _ => 1, ownAddr := fun _ => 2, proto := 0x888e, buf := [3]
        sync := true, cb := 64, typeAllocated := true, dataAllocated := true
        semaAllocated := true, sent := true },
    .bmsgSktTxSender 0 true, .peek,
    .receive true ⟨true, true, fun _ => false, true⟩]

/-- The frame is transmitted in time, and its sender says so. -/
def eapolInTime : List Event :=
  eapolSubmitted ++
    [Event.rwmTxConfirm 0 true, .getSemaphore 0, .readResult 0, .deinitSemaphore 0, .leave 0]

theorem control_blocks_good_in_time :
    ((machine true).run (.start eapolTables fun _ => ⟨0, none⟩) eapolInTime).returned =
        [.finished 0 rwSuccess] ∧
      ∀ front, front <+: eapolInTime →
        Good ((machine true).run (.start eapolTables fun _ => ⟨0, none⟩) front) :=
  ⟨by decide +kernel, control_blocks_good true eapolTables _ _ (by decide +kernel)⟩

/-- A frame is transmitted after the five seconds, when its sender has returned. -/
theorem not_always_good :
    ¬∀ nxMfp tables blocks events, Good ((machine nxMfp).run (.start tables blocks) events) := by
  intro every
  have late := every true eapolTables (fun _ => ⟨0, none⟩) (eapolSubmitted ++
    [.timeOut 0, .deinitSemaphore 0, .leave 0, .rwmTxConfirm 0 true])
  exact absurd late.alive (by decide +kernel)

end BdkFreertos.L2Packet
