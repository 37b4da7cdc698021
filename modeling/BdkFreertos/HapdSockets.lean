import BdkFreertos.HapdIntf
import Mathlib.Data.List.Perm.Subperm
import Mathlib.Data.List.Forall2

/-!
# Synchronous frames on the way to the core thread

A frame that is sent synchronously has to meet its own descriptor, which points to the control
block of its sender.  Other frames of a data socket may change places with each other.
-/

namespace BdkFreertos.HapdIntf

def Paired (payload : Payload) (descriptor : Descriptor) : Prop :=
  descriptor.sync = true → payload.call = descriptor.call

def ofSocket (vifIndex : UInt8) (descriptors : List Descriptor) : List Descriptor :=
  descriptors.filter fun descriptor => descriptor.socket = dataGetSocketNum vifIndex

/-- Every data socket has one payload for each descriptor, that of the descriptor itself if it is
synchronous. -/
structure Front (core : Core) : Prop where
  inStep : ∀ vifIndex, List.Forall₂ Paired (core.skTxMsg (dataGetSocketNum vifIndex))
    (ofSocket vifIndex core.waiting)
  filled : ∀ vifIndex, ∀ payload ∈ core.skTxMsg (dataGetSocketNum vifIndex),
    payload.bytes ≠ []
  peeked : ∀ descriptor payloadSize, core.handler = .peeked descriptor payloadSize →
    descriptor.type = .data → payloadSize = peekSize core descriptor
  distinct : (core.waiting.map Descriptor.call).Nodup
  earlier : ∀ descriptor ∈ core.waiting, descriptor.call < core.calls
  data : ∀ descriptor ∈ core.waiting, descriptor.sync = true → descriptor.type = .data

theorem front_start : Front .start where
  inStep _ := .nil
  filled _ _ member := absurd member List.not_mem_nil
  peeked _ _ equal := absurd equal (by simp [Core.start])
  distinct := List.nodup_nil
  earlier _ member := absurd member List.not_mem_nil
  data _ member := absurd member List.not_mem_nil

variable {core next : Core} {descriptor : Descriptor} {descriptors : List Descriptor}

theorem socket_of_data (data : descriptor.type = .data) :
    descriptor.socket = dataGetSocketNum descriptor.vifIndex := by
  rw [Descriptor.socket, data]

theorem socket_of_managed (managed : descriptor.type ≠ .data) (vifIndex : UInt8) :
    descriptor.socket ≠ dataGetSocketNum vifIndex := by
  have vif_lt := descriptor.vifIndex.toNat_lt
  have mgmt_ne : mgmtGetSocketNum descriptor.vifIndex ≠
      dataGetSocketNum vifIndex := by
    simp only [mgmtGetSocketNum, dataGetSocketNum,
      skIntfMgmtSocketNum, skIntfDataSocketNum]
    omega
  cases type_eq : descriptor.type with
  | mgmt | mgmtRobust =>
      rw [Descriptor.socket, type_eq]
      exact mgmt_ne
  | data => exact absurd type_eq managed

theorem ofSocket_append (vifIndex : UInt8) (front back : List Descriptor) :
    ofSocket vifIndex (front ++ back) = ofSocket vifIndex front ++ ofSocket vifIndex back :=
  List.filter_append ..

theorem ofSocket_cons_self {vifIndex : UInt8}
    (own : descriptor.socket = dataGetSocketNum vifIndex) :
    ofSocket vifIndex (descriptor :: descriptors) =
      descriptor :: ofSocket vifIndex descriptors :=
  List.filter_cons_of_pos (by simpa using own)

theorem ofSocket_cons_of_ne {vifIndex : UInt8}
    (foreign : descriptor.socket ≠ dataGetSocketNum vifIndex) :
    ofSocket vifIndex (descriptor :: descriptors) = ofSocket vifIndex descriptors :=
  List.filter_cons_of_neg (by simpa using foreign)

/-- Steps that add no descriptor and no payload. -/
theorem Front.of_fewer (front : Front core)
    (inStep : ∀ vifIndex, List.Forall₂ Paired
      (next.skTxMsg (dataGetSocketNum vifIndex)) (ofSocket vifIndex next.waiting))
    (msgs : ∀ socket, next.skTxMsg socket ⊆ core.skTxMsg socket)
    (peeked : ∀ descriptor payloadSize, next.handler = .peeked descriptor payloadSize →
      descriptor.type = .data → payloadSize = peekSize next descriptor)
    (fewer : next.waiting.Subperm core.waiting) (calls_eq : next.calls = core.calls) :
    Front next where
  inStep := inStep
  filled vifIndex payload member := front.filled vifIndex payload (msgs _ member)
  peeked := peeked
  distinct := by
    obtain ⟨part, perm, sublist⟩ := fewer
    exact (perm.map Descriptor.call).nodup_iff.mp
      (front.distinct.sublist (sublist.map Descriptor.call))
  earlier descriptor member := calls_eq ▸ front.earlier descriptor (fewer.subset member)
  data descriptor member := front.data descriptor (fewer.subset member)

/-- A step that drops a descriptor of a management frame, or none. -/
theorem Front.of_same (front : Front core) (managed : descriptor.type ≠ .data)
    (waiting : next.waiting = core.waiting ∨ core.waiting = descriptor :: next.waiting)
    (own : ∀ socket, descriptor.socket ≠ socket → next.skTxMsg socket = core.skTxMsg socket)
    (fewer : next.skTxMsg descriptor.socket ⊆ core.skTxMsg descriptor.socket)
    (peeked : ∀ descriptor payloadSize, next.handler = .peeked descriptor payloadSize →
      descriptor.type = .data → payloadSize = peekSize next descriptor)
    (calls_eq : next.calls = core.calls) :
    Front next ∧ next.waiting.Subperm core.waiting := by
  have part : next.waiting.Subperm core.waiting := by
    rcases waiting with same | dropped
    · rw [same]
    · rw [dropped]
      exact (List.sublist_cons_self _ _).subperm
  refine ⟨front.of_fewer (fun vifIndex => ?_) (fun socket => ?_) peeked part calls_eq, part⟩
  · have foreign := socket_of_managed managed vifIndex
    have ofSocket_eq : ofSocket vifIndex next.waiting = ofSocket vifIndex core.waiting := by
      rcases waiting with same | dropped
      · rw [same]
      · rw [dropped, ofSocket_cons_of_ne foreign]
    rw [own _ foreign, ofSocket_eq]
    exact front.inStep vifIndex
  · by_cases same : descriptor.socket = socket
    · rw [← same]
      exact fewer
    · rw [own socket same]
      exact List.Subset.refl _

theorem forall₂_paired_of_asynchronous {payloads : List Payload}
    (asynchronous : ∀ descriptor ∈ descriptors, descriptor.sync = false)
    (lengths : payloads.length = descriptors.length) :
    List.Forall₂ Paired payloads descriptors := by
  induction payloads generalizing descriptors with
  | nil =>
      obtain rfl := List.length_eq_zero_iff.mp lengths.symm
      exact .nil
  | cons payload payloads induction =>
      rcases descriptors with _ | ⟨first, later⟩
      · exact absurd lengths (by simp)
      · refine .cons (fun sync => ?_) (induction ?_ (Nat.succ.inj lengths))
        · exact absurd (sync.symm.trans (asynchronous first List.mem_cons_self)) (by simp)
        · exact fun descriptor member => asynchronous descriptor (List.mem_cons_of_mem _ member)

theorem forall₂_paired_overtake {payloads : List Payload}
    {front middle back : List Descriptor}
    (paired : List.Forall₂ Paired payloads (front ++ middle ++ descriptor :: back))
    (asynchronous : ∀ earlier ∈ middle, earlier.sync = false ∧ descriptor.sync = false) :
    List.Forall₂ Paired payloads (front ++ descriptor :: (middle ++ back)) := by
  rcases middle with _ | ⟨first, middle⟩
  · simpa using paired
  · have alone : descriptor.sync = false := (asynchronous first List.mem_cons_self).2
    rw [List.append_assoc, List.append_cons (first :: middle)] at paired
    have before := List.forall₂_take_append payloads front _ paired
    have behind := List.forall₂_drop_append payloads front _ paired
    have moved := List.forall₂_take_append _ (first :: middle ++ [descriptor]) back behind
    have last := List.forall₂_drop_append _ (first :: middle ++ [descriptor]) back behind
    have reordered : List.Forall₂ Paired
        ((payloads.drop front.length).take (first :: middle ++ [descriptor]).length)
        (descriptor :: first :: middle) := by
      refine forall₂_paired_of_asynchronous ?_ (moved.length_eq.trans (by simp))
      refine List.forall_mem_cons.mpr ⟨alone, fun earlier member => ?_⟩
      exact (asynchronous earlier member).1
    have whole := List.rel_append before (List.rel_append reordered last)
    simp only [List.take_append_drop] at whole
    exact whole

theorem Front.next_payload (front : Front core) {payloadSize : ℕ}
    (handler_eq : core.handler = .peeked descriptor payloadSize) (data : descriptor.type = .data) :
    ∃ payload rest, core.skTxMsg descriptor.socket = payload :: rest ∧
      Paired payload descriptor ∧
      List.Forall₂ Paired rest
        (ofSocket descriptor.vifIndex (core.ioQueue ++ core.sending)) := by
  have paired := front.inStep descriptor.vifIndex
  rw [← socket_of_data data, Core.waiting, handler_eq, Handler.waiting,
    List.append_assoc, List.singleton_append, ofSocket_cons_self (socket_of_data data)] at paired
  obtain ⟨payload, rest, own, later, msgs_eq⟩ := List.forall₂_cons_right_iff.mp paired
  exact ⟨payload, rest, msgs_eq, own, later⟩

theorem waiting_fsocketSend (core : Core) (descriptor : Descriptor) (buf : List UInt8)
    (allocated : Bool) :
    (HapdIntf.fsocketSend core descriptor buf allocated).waiting =
      core.waiting ++ if allocated then [descriptor] else [] := by
  cases allocated with
  | false => exact (List.append_nil _).symm
  | true => simp [HapdIntf.fsocketSend, Core.waiting]

theorem Front.fsocketSend (front : Front core) (call_eq : descriptor.call = core.calls)
    {buf : List UInt8} (filled : descriptor.type = .data → buf ≠ [])
    (data : descriptor.sync = true → descriptor.type = .data) (allocated : Bool) :
    Front (HapdIntf.fsocketSend core descriptor buf allocated) := by
  have later (other : Descriptor) (member : other ∈ core.waiting) : other.call < core.calls + 1 :=
    Nat.lt_succ_of_lt (front.earlier other member)
  cases allocated with
  | false =>
      exact ⟨front.inStep, front.filled, front.peeked, front.distinct, later, front.data⟩
  | true =>
      have waiting_eq : (HapdIntf.fsocketSend core descriptor buf true).waiting =
          core.waiting ++ [descriptor] := waiting_fsocketSend core descriptor buf true
      have msgs_eq : (HapdIntf.fsocketSend core descriptor buf true).skTxMsg =
          Function.update core.skTxMsg descriptor.socket
            (core.skTxMsg descriptor.socket ++ [⟨descriptor.call, buf⟩]) := rfl
      constructor
      · intro vifIndex
        rw [msgs_eq, waiting_eq, ofSocket_append]
        by_cases own : descriptor.socket = dataGetSocketNum vifIndex
        · rw [own, Function.update_self, ofSocket_cons_self own]
          exact List.rel_append (front.inStep vifIndex) (.cons (fun _ => rfl) .nil)
        · rw [Function.update_of_ne (Ne.symm own), ofSocket_cons_of_ne own]
          simpa [ofSocket] using front.inStep vifIndex
      · intro vifIndex payload member
        rw [msgs_eq] at member
        by_cases own : descriptor.socket = dataGetSocketNum vifIndex
        · rw [own, Function.update_self] at member
          rcases List.mem_append.mp member with before | new
          · exact front.filled vifIndex payload before
          · rw [List.mem_singleton.mp new]
            exact filled (by_contra fun managed => socket_of_managed managed vifIndex own)
        · rw [Function.update_of_ne (Ne.symm own)] at member
          exact front.filled vifIndex payload member
      · intro taken payloadSize handler_eq taken_data
        have size_eq := front.peeked taken payloadSize handler_eq taken_data
        obtain ⟨payload, rest, taken_eq, -⟩ := front.next_payload handler_eq taken_data
        rw [size_eq, peekSize, peekSize, msgs_eq, taken_eq]
        by_cases same : taken.socket = descriptor.socket
        · rw [same, Function.update_self, ← same, taken_eq]
          rfl
        · rw [Function.update_of_ne same, taken_eq]
      · rw [waiting_eq, List.map_append]
        refine List.nodup_append.mpr ⟨front.distinct, by simp, ?_⟩
        rintro call member other new rfl
        obtain ⟨earlier, earlier_mem, rfl⟩ := List.mem_map.mp member
        have call_lt := front.earlier earlier earlier_mem
        rw [List.mem_singleton.mp new, call_eq] at call_lt
        exact Nat.lt_irrefl _ call_lt
      · intro other member
        rw [waiting_eq] at member
        rcases List.mem_append.mp member with before | new
        · exact later other before
        · rw [List.mem_singleton.mp new, call_eq]
          exact Nat.lt_succ_self _
      · intro other member
        rw [waiting_eq] at member
        rcases List.mem_append.mp member with before | new
        · exact front.data other before
        · rw [List.mem_singleton.mp new]
          exact data

/-- A descriptor comes to the queue. -/
theorem Front.bmsgSktTxSender (front : Front core) {index : ℕ} {pushed : Bool}
    (careful : ∀ descriptor ∈ core.sending[index]?, descriptor.type = .data → pushed = true ∧
      ∀ earlier ∈ core.sending.take index, earlier.socket = descriptor.socket →
        earlier.sync = false ∧ descriptor.sync = false) :
    Front (HapdIntf.bmsgSktTxSender core index pushed) ∧
      (HapdIntf.bmsgSktTxSender core index pushed).waiting.Subperm core.waiting := by
  cases found : core.sending[index]? with
  | none =>
      have same : HapdIntf.bmsgSktTxSender core index pushed = core := by
        rw [HapdIntf.bmsgSktTxSender, found]
      rw [same]
      exact ⟨front, .refl _⟩
  | some descriptor =>
      obtain ⟨waiting_eq, pushed_eq, lost_eq⟩ := waiting_pushed found
      obtain ⟨msgs_eq, handler_eq, -, calls_eq, -⟩ :=
        bmsgSktTxSender_frame core index pushed
      have fewer : (HapdIntf.bmsgSktTxSender core index pushed).waiting.Subperm core.waiting := by
        rw [waiting_eq]
        cases pushed with
        | true =>
            rw [pushed_eq, List.append_assoc (core.handler.waiting ++ core.ioQueue)]
            exact (List.perm_middle.symm.append_left _).subperm
        | false =>
            rw [lost_eq]
            exact ((List.sublist_cons_self _ _).append_left _).subperm
      have peeked : ∀ taken payloadSize,
          (HapdIntf.bmsgSktTxSender core index pushed).handler = .peeked taken payloadSize →
            taken.type = .data → payloadSize =
              peekSize (HapdIntf.bmsgSktTxSender core index pushed) taken := by
        intro taken payloadSize equal taken_data
        rw [handler_eq] at equal
        rw [front.peeked taken payloadSize equal taken_data, peekSize, peekSize,
          msgs_eq]
      have msgs (socket : ℕ) :
          (HapdIntf.bmsgSktTxSender core index pushed).skTxMsg socket ⊆ core.skTxMsg socket := by
        rw [msgs_eq]
        exact List.Subset.refl _
      refine ⟨front.of_fewer (fun vifIndex => ?_) msgs peeked fewer calls_eq, fewer⟩
      have paired := front.inStep vifIndex
      rw [msgs_eq]
      by_cases own : descriptor.socket = dataGetSocketNum vifIndex
      · have data : descriptor.type = .data :=
          by_contra fun managed => socket_of_managed managed vifIndex own
        obtain ⟨rfl, alone⟩ := careful descriptor found data
        simp only [waiting_eq, ofSocket_append, ofSocket_cons_self own] at paired
        simp only [pushed_eq, ofSocket_append, ofSocket_cons_self own]
        refine forall₂_paired_overtake paired fun earlier member => ?_
        obtain ⟨sending, same⟩ := List.mem_filter.mp member
        exact alone earlier sending ((of_decide_eq_true same).trans own.symm)
      · -- Other sockets do not see the descriptor.
        simp only [waiting_eq, ofSocket_append, ofSocket_cons_of_ne own] at paired
        cases pushed with
        | true =>
            simp only [pushed_eq, ofSocket_append, ofSocket_cons_of_ne own]
            rw [← List.append_assoc]
            exact paired
        | false =>
            simp only [lost_eq, ofSocket_append]
            exact paired

theorem Front.keRxPeek (front : Front core) (nxMfp : Bool) :
    Front (HapdIntf.keRxPeek nxMfp core) ∧
      (HapdIntf.keRxPeek nxMfp core).waiting.Subperm core.waiting := by
  unfold HapdIntf.keRxPeek
  split
  · rename_i descriptor rest idle queue_eq
    have waiting_eq : core.waiting = descriptor :: (rest ++ core.sending) := by
      simp [Core.waiting, idle, queue_eq, Handler.waiting]
    have taken (payloadSize : ℕ) : Core.waiting
        { core with ioQueue := rest, handler := .peeked descriptor payloadSize } =
          core.waiting := by
      simp [Core.waiting, idle, queue_eq, Handler.waiting]
    have dropped (managed : descriptor.type ≠ .data) (asserted : Bool) :
        Front { core with ioQueue := rest, asserted := asserted } ∧
          (Core.waiting { core with ioQueue := rest, asserted := asserted }).Subperm
            core.waiting := by
      refine front.of_same managed (.inr ?_) (fun _ _ => rfl) (List.Subset.refl _) ?_ rfl
      · rw [waiting_eq]
        simp [Core.waiting, idle, Handler.waiting]
      · exact fun _ _ equal => absurd (idle.symm.trans equal) (by simp)
    have peeked (managed : descriptor.type ≠ .data) (payloadSize : ℕ) :
        Front { core with ioQueue := rest, handler := .peeked descriptor payloadSize } ∧
          (Core.waiting { core with
            ioQueue := rest, handler := .peeked descriptor payloadSize }).Subperm
              core.waiting := by
      refine front.of_same managed (.inl (taken _)) (fun _ _ => rfl) (List.Subset.refl _) ?_ rfl
      rintro _ _ equal data
      cases equal
      exact absurd data managed
    dsimp only
    split
    · rename_i robust
      split_ifs
      · exact dropped (by simp [robust]) core.asserted
      · exact dropped (by simp [robust]) true
      · exact peeked (by simp [robust]) _
    · rename_i mgmt
      split_ifs
      · exact dropped (by simp [mgmt]) true
      · exact peeked (by simp [mgmt]) _
    · refine ⟨front.of_fewer (fun vifIndex => ?_) (fun _ => List.Subset.refl _) ?_ ?_ rfl, ?_⟩
      · rw [taken]
        exact front.inStep vifIndex
      · rintro _ _ equal -
        cases equal
        rfl
      · rw [taken]
      · rw [taken]
  · exact ⟨front, .refl _⟩

theorem Front.keRxMgmtTx (front : Front core) (allocated : Bool) :
    Front (HapdIntf.keRxMgmtTx core allocated) ∧
      (HapdIntf.keRxMgmtTx core allocated).waiting = core.waiting := by
  unfold HapdIntf.keRxMgmtTx
  split
  · rename_i descriptor payload buf handler_eq
    have idle : Core.waiting { core with handler := .idle } = core.waiting := by
      simp [Core.waiting, handler_eq, Handler.waiting]
    have kept (processed : List Processed) :
        Front { core with handler := .idle, processed := processed } := by
      refine front.of_fewer (fun vifIndex => ?_) (fun _ => List.Subset.refl _) (by simp) ?_ rfl
      · exact (congrArg (ofSocket vifIndex) idle).symm ▸ front.inStep vifIndex
      · exact (congrArg (List.Subperm · core.waiting) idle).mpr (.refl _)
    split
    · exact ⟨kept _, idle⟩
    · exact ⟨kept _, idle⟩
  · exact ⟨front, rfl⟩

theorem handOn_managed (managed : descriptor.type ≠ .data) (payload : Option Payload)
    (buf : List UInt8) :
    handOn core descriptor payload buf =
      { core with handler := .received descriptor payload buf } := by
  cases type_eq : descriptor.type with
  | mgmt | mgmtRobust => rw [handOn, type_eq]
  | data => exact absurd type_eq managed

theorem Front.keRxReceive_managed (front : Front core)
    (managed : ∀ descriptor payloadSize, core.handler = .peeked descriptor payloadSize →
      descriptor.type ≠ .data) (allocated : Bool) :
    Front (HapdIntf.keRxReceive core allocated) ∧
      (HapdIntf.keRxReceive core allocated).waiting.Subperm core.waiting ∧
      (HapdIntf.keRxReceive core allocated).processed = core.processed := by
  cases handler_eq : core.handler with
  | idle | received _ _ _ =>
      have same : HapdIntf.keRxReceive core allocated = core := by
        simp [HapdIntf.keRxReceive, handler_eq]
      rw [same]
      exact ⟨front, .refl _, rfl⟩
  | peeked descriptor payloadSize =>
      have managed := managed descriptor payloadSize handler_eq
      have waiting_eq : core.waiting = descriptor :: (core.ioQueue ++ core.sending) := by
        simp [Core.waiting, handler_eq, Handler.waiting]
      -- The descriptor is dropped, or waits for its message.
      have left (handler : Handler) (gone : handler.waiting = [])
          (skTxMsg : ℕ → List Payload)
          (own : ∀ socket, descriptor.socket ≠ socket → skTxMsg socket = core.skTxMsg socket)
          (fewer : skTxMsg descriptor.socket ⊆ core.skTxMsg descriptor.socket) :
          Front { core with skTxMsg := skTxMsg, handler := handler } ∧
            (Core.waiting { core with skTxMsg := skTxMsg, handler := handler }).Subperm
              core.waiting := by
        refine front.of_same managed (.inr ?_) own fewer ?_ rfl
        · rw [waiting_eq]
          simp [Core.waiting, gone]
        · rintro _ _ rfl
          exact absurd gone (by simp [Handler.waiting])
      simp only [HapdIntf.keRxReceive, handler_eq, handOn_managed managed]
      split_ifs with refused
      · obtain ⟨kept, fewer⟩ := left .idle rfl core.skTxMsg (fun _ _ => rfl)
          (List.Subset.refl _)
        exact ⟨kept, fewer, rfl⟩
      · split
        · obtain ⟨kept, fewer⟩ := left (.received descriptor none []) rfl core.skTxMsg
            (fun _ _ => rfl) (List.Subset.refl _)
          exact ⟨kept, fewer, rfl⟩
        · rename_i payload rest msgs_eq
          split_ifs with empty
          · have same : Core.waiting { core with asserted := true } = core.waiting := rfl
            obtain ⟨kept, fewer⟩ : Front { core with asserted := true } ∧ _ :=
              front.of_same managed (.inl same) (fun _ _ => rfl) (List.Subset.refl _)
                front.peeked rfl
            rw [← handler_eq]
            exact ⟨kept, fewer, rfl⟩
          · have fewer : Function.update core.skTxMsg descriptor.socket rest descriptor.socket ⊆
                core.skTxMsg descriptor.socket := by
              rw [Function.update_self, msgs_eq]
              exact List.subset_cons_self _ _
            obtain ⟨kept, fewer⟩ := left (.received descriptor (some payload) _) rfl
              (Function.update core.skTxMsg descriptor.socket rest)
              (fun _ other => Function.update_of_ne (Ne.symm other) _ _) fewer
            exact ⟨kept, fewer, rfl⟩

/-- The handler receives the payload of a data frame. -/
theorem Front.keRxReceive_data (front : Front core) {payloadSize : ℕ}
    (handler_eq : core.handler = .peeked descriptor payloadSize) (data : descriptor.type = .data) :
    ∃ payload : Payload, Paired payload descriptor ∧
      Front (HapdIntf.keRxReceive core true) ∧
      core.waiting = descriptor :: (HapdIntf.keRxReceive core true).waiting ∧
      (HapdIntf.keRxReceive core true).handler = .idle ∧
      (HapdIntf.keRxReceive core true).processed =
        core.processed ++ [⟨descriptor, some payload, payload.bytes⟩] := by
  obtain ⟨payload, rest, msgs_eq, own, later⟩ := front.next_payload handler_eq data
  have payload_mem : payload ∈ core.skTxMsg descriptor.socket := msgs_eq ▸ List.mem_cons_self
  have size_eq : payloadSize = payload.bytes.length := by
    rw [front.peeked descriptor payloadSize handler_eq data, peekSize, msgs_eq]
  have filled : payload.bytes.length ≠ 0 := by
    rw [socket_of_data data] at payload_mem
    exact fun empty => front.filled _ payload payload_mem (List.length_eq_zero_iff.mp empty)
  have received_eq : HapdIntf.keRxReceive core true =
      { core with
        skTxMsg := Function.update core.skTxMsg descriptor.socket rest
        handler := .idle
        processed := core.processed ++ [⟨descriptor, some payload, payload.bytes⟩] } := by
    simp only [HapdIntf.keRxReceive, handler_eq, msgs_eq, size_eq, Nat.min_self, if_neg filled,
      List.take_length, handOn, data]
    rfl
  have waiting_eq : core.waiting = descriptor :: (HapdIntf.keRxReceive core true).waiting := by
    simp [received_eq, Core.waiting, handler_eq, Handler.waiting]
  refine ⟨payload, own, ?_, waiting_eq, by rw [received_eq], by rw [received_eq]⟩
  refine front.of_fewer (fun vifIndex => ?_) (fun socket => ?_) ?_ ?_ (by rw [received_eq])
  · have left_eq : (HapdIntf.keRxReceive core true).waiting = core.ioQueue ++ core.sending := by
      simp [received_eq, Core.waiting, Handler.waiting]
    have paired := front.inStep vifIndex
    rw [waiting_eq, left_eq] at paired
    rw [left_eq, received_eq]
    dsimp only
    by_cases own : descriptor.socket = dataGetSocketNum vifIndex
    · rw [← own, Function.update_self]
      rw [ofSocket_cons_self own, ← own, msgs_eq] at paired
      exact (List.forall₂_cons.mp paired).2
    · rw [Function.update_of_ne (Ne.symm own)]
      rwa [ofSocket_cons_of_ne own] at paired
  · rw [received_eq]
    dsimp only
    by_cases own : socket = descriptor.socket
    · rw [own, Function.update_self, msgs_eq]
      exact List.subset_cons_self _ _
    · rw [Function.update_of_ne own]
      exact List.Subset.refl _
  · rw [received_eq]
    simp
  · rw [waiting_eq]
    exact (List.sublist_cons_self _ _).subperm

/-! ## Calls -/

theorem calls_fsocketSend (core : Core) (descriptor : Descriptor) (buf : List UInt8)
    (allocated : Bool) :
    (HapdIntf.fsocketSend core descriptor buf allocated).calls = core.calls + 1 := by
  cases allocated <;> rfl

theorem handler_fsocketSend (core : Core) (descriptor : Descriptor) (buf : List UInt8)
    (allocated : Bool) :
    (HapdIntf.fsocketSend core descriptor buf allocated).handler = core.handler := by
  cases allocated <;> rfl

theorem calls_handOn (payload : Option Payload) (buf : List UInt8) :
    (handOn core descriptor payload buf).calls = core.calls := by
  unfold handOn
  split <;> rfl

theorem calls_keRxReceive (core : Core) (allocated : Bool) :
    (keRxReceive core allocated).calls = core.calls := by
  unfold keRxReceive
  split
  · split
    · rfl
    · split
      · exact calls_handOn none []
      · dsimp only
        split
        · rfl
        · exact calls_handOn _ _
  · rfl

theorem calls_keRxMgmtTx (core : Core) (allocated : Bool) :
    (keRxMgmtTx core allocated).calls = core.calls := by
  unfold keRxMgmtTx
  split
  · split <;> rfl
  · rfl

theorem calls_keRxPeek (core : Core) (nxMfp : Bool) :
    (keRxPeek nxMfp core).calls = core.calls := by
  unfold keRxPeek
  split
  · dsimp only
    split
    · split_ifs <;> rfl
    · split_ifs <;> rfl
    · rfl
  · rfl

theorem keRxReceive_of_idle (idle : core.handler = .idle) (allocated : Bool) :
    keRxReceive core allocated = core := by
  simp [keRxReceive, idle]

theorem keRxMgmtTx_of_idle (idle : core.handler = .idle) (allocated : Bool) :
    keRxMgmtTx core allocated = core := by
  simp [keRxMgmtTx, idle]

end BdkFreertos.HapdIntf
