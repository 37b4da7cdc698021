import BdkFreertos.Sdio

/-!
# No node of the SDIO link is lost

Commands, completions and calls move nodes between the lists and keep each in one place.  The handler
of received frames is different: a frame whose type it does not know stays in no list, and so does the
frame the build with blocks fetches after its last one.
-/

namespace BdkFreertos.Sdio

/-! ## Where a node is -/

def tally (nodes : List SdioNode) (id : ℕ) : ℕ := (nodes.map SdioNode.id).count id

def one (node : SdioNode) (id : ℕ) : ℕ := if node.id = id then 1 else 0

@[simp]
theorem tally_nil (id : ℕ) : tally [] id = 0 := rfl

@[simp]
theorem tally_cons (node : SdioNode) (nodes : List SdioNode) (id : ℕ) :
    tally (node :: nodes) id = tally nodes id + one node id := by
  simp [tally, one, List.count_cons]

@[simp]
theorem tally_append (front back : List SdioNode) (id : ℕ) :
    tally (front ++ back) id = tally front id + tally back id := by
  simp [tally]

theorem tally_erase {node : SdioNode} {nodes : List SdioNode} (member : node ∈ nodes) (id : ℕ) :
    tally (nodes.erase node) id + one node id = tally nodes id := by
  have same : tally nodes id = tally (node :: nodes.erase node) id :=
    ((List.perm_cons_erase member).map SdioNode.id).count_eq id
  rw [same, tally_cons]

@[simp]
theorem one_hdr (node : SdioNode) (hdr : FrameHdr) (id : ℕ) :
    one { node with hdr := hdr } id = one node id := rfl

@[simp]
theorem one_self (node : SdioNode) : one node node.id = 1 := if_pos rfl

theorem count_append_id (ids : List ℕ) (node : SdioNode) (id : ℕ) :
    (ids ++ [node.id]).count id = ids.count id + one node id := by
  simp [one, List.count_append, List.count_singleton]

/-- In how many places a node is. -/
def SdioState.copies (state : SdioState) (id : ℕ) : ℕ :=
  state.freeNodes.count id + tally state.txDat id + tally state.txingList id +
    tally state.rxDat id + tally state.rxingList id + tally state.inboundList id +
    tally state.held id

def Conserved (state : SdioState) : Prop :=
  ∀ id, state.copies id = if id < cellCount then 1 else 0

variable {blk512 : Bool} {first second third : SdioState} {serves : Prop} (state : SdioState)
  (cmd : SdioDcmd) (bufSize : UInt32) (rest : List SdioNode) (succeeds : Bool) (hdr : FrameHdr)

@[simp]
theorem copies_sdioFreeValidNode (node : SdioNode) (id : ℕ) :
    (sdioFreeValidNode state node).copies id = state.copies id + one node id := by
  simp only [SdioState.copies, sdioFreeValidNode, count_append_id]
  omega

/-- The outcomes of an allocation. -/
inductive Allocated (state : SdioState) : SdioState × Option SdioNode → Prop
  | failed (freeNodes : List ℕ) (same : ∀ id, freeNodes.count id = state.freeNodes.count id) :
      Allocated state ({ state with freeNodes := freeNodes }, none)
  | taken (freeNodes : List ℕ) (node : SdioNode)
      (less : ∀ id, freeNodes.count id + one node id = state.freeNodes.count id) :
      Allocated state ({ state with freeNodes := freeNodes }, some node)

theorem sdioAllocValidNode_cases :
    Allocated state (sdioAllocValidNode state bufSize succeeds hdr) := by
  rw [sdioAllocValidNode]
  split
  next => exact .failed state.freeNodes fun id => rfl
  next =>
    cases free : state.freeNodes with
    | nil => exact .failed state.freeNodes fun id => rfl
    | cons first rest =>
        dsimp only
        split
        next =>
          refine .taken rest _ fun id => ?_
          simp [free, one, List.count_cons]
        next =>
          refine .failed (rest ++ [first]) fun id => ?_
          simp [free, List.count_cons]

def out (node : Option SdioNode) (id : ℕ) : ℕ := node.elim 0 fun node => one node id

@[simp]
theorem out_none (id : ℕ) : out none id = 0 := rfl

@[simp]
theorem out_some (node : SdioNode) (id : ℕ) : out (some node) id = one node id := rfl

theorem copies_sdioAllocValidNode (id : ℕ) :
    (sdioAllocValidNode state bufSize succeeds hdr).1.copies id +
      out (sdioAllocValidNode state bufSize succeeds hdr).2 id = state.copies id := by
  have allocated := sdioAllocValidNode_cases state bufSize succeeds hdr
  generalize sdioAllocValidNode state bufSize succeeds hdr = result at allocated ⊢
  cases allocated with
  | failed freeNodes same => simp [SdioState.copies, same id]
  | taken freeNodes node less =>
      simp only [SdioState.copies, ← less id, out_some]
      omega

@[simp]
theorem copies_sdmaDmaStart (region : Region) (output : Output) (id : ℕ) :
    (sdmaDmaStart state region output).1.copies id = state.copies id := by
  rw [sdmaDmaStart]
  split <;> rfl

theorem copies_startRx (blk512 : Bool) (state : SdioState) (node : Option SdioNode)
    (cmd : SdioDcmd) (id : ℕ) :
    (startRx blk512 state node cmd).1.copies id = state.copies id + out node id := by
  cases node with
  | none => rfl
  | some node =>
      rw [startRx]
      dsimp only
      rw [copies_sdmaDmaStart]
      simp only [SdioState.copies, tally_append, tally_cons, tally_nil, out_some]
      omega

theorem copies_takeRxing (blk512 : Bool) (state : SdioState) (cmd : SdioDcmd) (succeeds : Bool)
    (hdr : FrameHdr) (id : ℕ) :
    (takeRxing blk512 state cmd succeeds hdr).1.copies id +
      out (takeRxing blk512 state cmd succeeds hdr).2 id = state.copies id := by
  rw [takeRxing]
  cases waiting : state.rxingList with
  | nil => exact copies_sdioAllocValidNode ..
  | cons node rest =>
      simp only [SdioState.copies, waiting, tally_cons, out_some]
      omega

theorem copies_renewRxing (node : Option SdioNode) (count : ℕ) (cmd : SdioDcmd) (succeeds : Bool)
    (hdr : FrameHdr) (id : ℕ) :
    (renewRxing state node count cmd succeeds hdr).1.copies id +
      out (renewRxing state node count cmd succeeds hdr).2 id = state.copies id + out node id := by
  rw [renewRxing]
  split
  next =>
    have freed : (node.elim state (sdioFreeValidNode state)).copies id =
        state.copies id + out node id := by
      cases node with
      | none => rfl
      | some node => exact copies_sdioFreeValidNode state node id
    rw [← freed]
    exact copies_sdioAllocValidNode ..
  next => rfl

@[simp]
theorem copies_noteStart (id : ℕ) : (noteStart state cmd).copies id = state.copies id := by
  rw [noteStart]
  split <;> split <;> rfl

theorem copies_wrDtcm (blk512 : Bool) (state : SdioState) (cmd : SdioDcmd) (succeeds : Bool)
    (hdr : FrameHdr) (id : ℕ) :
    (wrDtcm blk512 state cmd succeeds hdr).1.copies id = state.copies id := by
  rw [wrDtcm]
  generalize started : (if blk512 = true then { state with rxLen := cmd.totalSize.toUInt32 }
    else { state with rxLen := cmd.dataLen.toUInt32, rHdlLen := 0 }) = start
  have same : start.copies id = state.copies id := by
    rw [← started]
    split <;> rfl
  have taken := copies_takeRxing blk512 start cmd succeeds hdr id
  dsimp only
  split
  · exact same
  · split
    · have renewed := copies_renewRxing (takeRxing blk512 start cmd succeeds hdr).1
        (takeRxing blk512 start cmd succeeds hdr).2 start.rxingList.length cmd succeeds hdr id
      rw [copies_startRx, copies_noteStart, renewed, taken, same]
    · rw [copies_startRx, taken, same]

theorem copies_startTx (blk512 : Bool) (state : SdioState) (node : SdioNode) (id : ℕ) :
    (startTx blk512 state node).1.copies id = state.copies id + one node id := by
  rw [startTx]
  dsimp only
  rw [copies_sdmaDmaStart]
  simp only [SdioState.copies, tally_append, tally_cons, tally_nil]
  omega

/-! ## The nodes under way -/

/-- At most one node is under way in each direction, and a transmission that has sent a part of its
node has it waiting. -/
structure Settled (blk512 : Bool) (state : SdioState) : Prop where
  rx : state.rxingList.length ≤ 1
  tx : state.txingList.length ≤ 1
  part : blk512 = true → state.halted = false → state.txingList = [] → state.tcLen = 0

/-- What most steps leave as it was. -/
structure SameLinks (old new : SdioState) : Prop where
  rxingList : new.rxingList = old.rxingList
  txingList : new.txingList = old.txingList
  tcLen : new.tcLen = old.tcLen
  halted : new.halted = old.halted

theorem SameLinks.refl : SameLinks state state := ⟨rfl, rfl, rfl, rfl⟩

theorem SameLinks.trans (front : SameLinks first second) (back : SameLinks second third) :
    SameLinks first third :=
  ⟨back.rxingList.trans front.rxingList, back.txingList.trans front.txingList,
    back.tcLen.trans front.tcLen, back.halted.trans front.halted⟩

theorem Settled.of_same {old new : SdioState} (settled : Settled blk512 old)
    (same : SameLinks old new) : Settled blk512 new := by
  constructor
  · rw [same.rxingList]
    exact settled.rx
  · rw [same.txingList]
    exact settled.tx
  · rw [same.halted, same.txingList, same.tcLen]
    exact settled.part

theorem settled_sdioInit (blk512 : Bool) : Settled blk512 sdioInit :=
  ⟨Nat.zero_le _, Nat.zero_le _, fun _ _ _ => rfl⟩

theorem sameLinks_alloc : SameLinks state (sdioAllocValidNode state bufSize succeeds hdr).1 := by
  have allocated := sdioAllocValidNode_cases state bufSize succeeds hdr
  generalize sdioAllocValidNode state bufSize succeeds hdr = result at allocated ⊢
  cases allocated <;> exact ⟨rfl, rfl, rfl, rfl⟩

theorem sameLinks_free (node : SdioNode) :
    SameLinks state (sdioFreeValidNode state node) := ⟨rfl, rfl, rfl, rfl⟩

theorem sameLinks_renewRxing (node : Option SdioNode) (count : ℕ) (cmd : SdioDcmd) (succeeds : Bool)
    (hdr : FrameHdr) : SameLinks state (renewRxing state node count cmd succeeds hdr).1 := by
  rw [renewRxing]
  split
  next =>
    have freed : SameLinks state (node.elim state (sdioFreeValidNode state)) := by
      cases node with
      | none => exact .refl state
      | some node => exact sameLinks_free state node
    have fresh := sameLinks_alloc (node.elim state (sdioFreeValidNode state)) (mSize cmd.totalSize)
      succeeds hdr
    exact (freed.trans fresh).trans ⟨rfl, rfl, rfl, rfl⟩
  next => exact .refl state

theorem sameLinks_noteStart : SameLinks state (noteStart state cmd) := by
  rw [noteStart]
  split <;> split <;> exact ⟨rfl, rfl, rfl, rfl⟩

theorem takeRxing_links (blk512 : Bool) {state : SdioState} (single : state.rxingList.length ≤ 1)
    (cmd : SdioDcmd) (succeeds : Bool) (hdr : FrameHdr) :
    SameLinks { state with rxingList := [] } (takeRxing blk512 state cmd succeeds hdr).1 := by
  rw [takeRxing]
  cases waiting : state.rxingList with
  | nil =>
      have same := sameLinks_alloc state
        (if blk512 then mSize cmd.totalSize else cmd.dataLen.toUInt32) succeeds hdr
      exact ⟨same.rxingList.trans waiting, same.txingList, same.tcLen, same.halted⟩
  | cons node rest =>
      have last : rest = [] := by
        rw [waiting] at single
        exact List.length_eq_zero_iff.mp (Nat.le_zero.mp (Nat.le_of_succ_le_succ single))
      subst last
      exact ⟨rfl, rfl, rfl, rfl⟩

section

variable {state : SdioState} (settled : Settled blk512 state)
include settled

theorem sdmaDmaStart_settled (region : Region) (output : Output) :
    Settled blk512 (sdmaDmaStart state region output).1 := by
  rw [sdmaDmaStart]
  split
  · exact ⟨settled.rx, settled.tx, fun _ stopped => absurd stopped (by simp)⟩
  · exact settled

theorem settled_startRx (none_waits : state.rxingList = []) (node : Option SdioNode)
    (cmd : SdioDcmd) : Settled blk512 (startRx blk512 state node cmd).1 := by
  cases node with
  | none => exact settled.of_same ⟨rfl, rfl, rfl, rfl⟩
  | some node =>
      rw [startRx]
      apply sdmaDmaStart_settled
      exact ⟨by simp [none_waits], settled.tx, settled.part⟩

theorem settled_wrDtcm (cmd : SdioDcmd) (succeeds : Bool) (hdr : FrameHdr) :
    Settled blk512 (wrDtcm blk512 state cmd succeeds hdr).1 := by
  rw [wrDtcm]
  generalize started : (if blk512 = true then { state with rxLen := cmd.totalSize.toUInt32 }
    else { state with rxLen := cmd.dataLen.toUInt32, rHdlLen := 0 }) = start
  have same : SameLinks state start := by
    rw [← started]
    split <;> exact ⟨rfl, rfl, rfl, rfl⟩
  have begun := settled.of_same same
  have taken := takeRxing_links blk512 begun.rx cmd succeeds hdr
  have emptied : Settled blk512 { start with rxingList := [] } :=
    ⟨Nat.zero_le _, begun.tx, begun.part⟩
  dsimp only
  split
  · exact ⟨begun.rx, begun.tx, fun _ stopped => absurd stopped (by simp [halt])⟩
  · split
    · have renewed := (taken.trans (sameLinks_renewRxing _
        (takeRxing blk512 start cmd succeeds hdr).2 start.rxingList.length cmd succeeds hdr)).trans
        (sameLinks_noteStart _ cmd)
      exact settled_startRx (emptied.of_same renewed) renewed.rxingList _ cmd
    · exact settled_startRx (emptied.of_same taken) taken.rxingList _ cmd

theorem settled_startTx (none_waits : state.txingList = []) (node : SdioNode) :
    Settled blk512 (startTx blk512 state node).1 := by
  rw [startTx]
  apply sdmaDmaStart_settled
  exact ⟨settled.rx, by simp [none_waits], fun _ _ none_left => by simp at none_left⟩

end

theorem rdDtcm_waiting (blk512 : Bool) {state : SdioState} {node : SdioNode}
    (waiting : state.txingList = [node]) (cmd : SdioDcmd) :
    rdDtcm blk512 state cmd =
      startTx blk512 { state with txLen := cmd.dataLen.toUInt32, tHdlLen := 0, txingList := [] }
        node := by
  simp [rdDtcm, waiting]

section

variable {state : SdioState} (settled : Settled blk512 state)
include settled

theorem rdDtcm_fresh (running : state.halted = false) (none_waits : state.txingList = [])
    {node : SdioNode} {rest : List SdioNode} (queued : state.txDat = node :: rest)
    (cmd : SdioDcmd) :
    rdDtcm blk512 state cmd =
      startTx blk512
        { state with txLen := cmd.dataLen.toUInt32, tHdlLen := 0, txDat := rest } node := by
  have start : ¬ (blk512 = true ∧ state.tcLen ≠ 0) :=
    fun bad => bad.2 (settled.part bad.1 running none_waits)
  rw [rdDtcm]
  dsimp only
  rw [if_neg (by simp [none_waits])]
  simp [none_waits, queued, if_neg start]

theorem rdDtcm_none (running : state.halted = false) (none_waits : state.txingList = [])
    (empty : state.txDat = []) (cmd : SdioDcmd) :
    rdDtcm blk512 state cmd =
      ({ state with txLen := cmd.dataLen.toUInt32, tHdlLen := 0, txStatus := txNoNode },
        .silent) := by
  have start : ¬ (blk512 = true ∧ state.tcLen ≠ 0) :=
    fun bad => bad.2 (settled.part bad.1 running none_waits)
  rw [rdDtcm]
  dsimp only
  rw [if_neg (by simp [none_waits])]
  simp [none_waits, empty, if_neg start]

theorem Settled.txing_cases : state.txingList = [] ∨ ∃ node, state.txingList = [node] := by
  have single := settled.tx
  rcases waiting : state.txingList with _ | ⟨node, _ | ⟨other, rest⟩⟩
  · exact Or.inl rfl
  · exact Or.inr ⟨node, rfl⟩
  · simp [waiting] at single

theorem Settled.rxing_cases : state.rxingList = [] ∨ ∃ node, state.rxingList = [node] := by
  have single := settled.rx
  rcases waiting : state.rxingList with _ | ⟨node, _ | ⟨other, rest⟩⟩
  · exact Or.inl rfl
  · exact Or.inr ⟨node, rfl⟩
  · simp [waiting] at single

theorem rdDtcm_links (running : state.halted = false) (cmd : SdioDcmd) :
    Settled blk512 (rdDtcm blk512 state cmd).1 ∧
      ∀ id, (rdDtcm blk512 state cmd).1.copies id = state.copies id := by
  rcases settled.txing_cases with none_waits | ⟨node, waiting⟩
  · rcases queued : state.txDat with _ | ⟨node, rest⟩
    · rw [rdDtcm_none settled running none_waits queued]
      exact ⟨settled.of_same ⟨rfl, rfl, rfl, rfl⟩, fun id => rfl⟩
    · rw [rdDtcm_fresh settled running none_waits queued]
      constructor
      · apply settled_startTx
        · exact settled.of_same ⟨rfl, rfl, rfl, rfl⟩
        · exact none_waits
      · intro id
        rw [copies_startTx]
        simp only [SdioState.copies, queued, tally_cons]
        omega
  · rw [rdDtcm_waiting blk512 waiting]
    constructor
    · rw [startTx]
      apply sdmaDmaStart_settled
      exact ⟨settled.rx, by simp, fun _ _ none_left => by simp at none_left⟩
    · intro id
      rw [copies_startTx]
      simp only [SdioState.copies, waiting, tally_cons]
      omega

end

/-! ## Completions keep the nodes -/

theorem frameSent_links (blk512 : Bool) {state : SdioState} (rx : state.rxingList.length ≤ 1)
    (none_waits : state.txingList = []) (node : SdioNode) :
    Settled blk512 (frameSent blk512 state node) ∧
      ∀ id, (frameSent blk512 state node).copies id = state.copies id + one node id := by
  have copies := copies_sdioFreeValidNode state node
  rw [frameSent]
  generalize freed : sdioFreeValidNode state node = next at copies ⊢
  have links : SameLinks state next := freed ▸ sameLinks_free state node
  have nextRx : next.rxingList.length ≤ 1 := links.rxingList ▸ rx
  have nextTx : next.txingList.length ≤ 1 := by simp [links.txingList, none_waits]
  split
  · exact ⟨⟨nextRx, nextTx, fun _ stopped => by simp at stopped⟩, copies⟩
  · split
    · exact ⟨⟨nextRx, nextTx, fun _ _ _ => rfl⟩, copies⟩
    next not512 => exact ⟨⟨nextRx, nextTx, fun build => absurd build not512⟩, copies⟩

section

variable {state : SdioState} (settled : Settled blk512 state)
include settled

theorem sdioTxCb_links :
    Settled blk512 (sdioTxCb blk512 state) ∧
      ∀ id, (sdioTxCb blk512 state).copies id = state.copies id := by
  rw [sdioTxCb]
  generalize begun : (if blk512 = true then state
    else { state with tHdlLen := state.tHdlLen + state.txTransactionLen }) = start
  have same : SameLinks state start ∧ ∀ id, start.copies id = state.copies id := by
    rw [← begun]
    split <;> exact ⟨⟨rfl, rfl, rfl, rfl⟩, fun id => rfl⟩
  obtain ⟨links, same⟩ := same
  replace settled := settled.of_same links
  simp only [← same]
  rcases settled.txing_cases with none_waits | ⟨node, waiting⟩
  · simp only [none_waits]
    split
    · exact ⟨settled.of_same ⟨rfl, by simp [none_waits], rfl, rfl⟩, fun id => by
        simp [SdioState.copies, none_waits]⟩
    · exact ⟨⟨settled.rx, Nat.zero_le _, fun _ stopped => by simp at stopped⟩, fun id => by
        simp [SdioState.copies, none_waits]⟩
  · have counted (id : ℕ) : start.copies id =
        { start with txingList := [] }.copies id + one node id := by
      simp only [SdioState.copies, waiting, tally_cons]
      omega
    simp only [waiting, counted]
    split
    next build =>
      split
      · apply frameSent_links
        · exact settled.rx
        · rfl
      · exact ⟨⟨settled.rx, by simp, fun _ _ none_left => by simp at none_left⟩, fun id => by
          simp only [SdioState.copies, List.nil_append, tally_cons]; omega⟩
    next not512 =>
      apply frameSent_links
      · exact settled.rx
      · rfl

theorem frameReceived_links (node : SdioNode) :
    Settled blk512 (frameReceived blk512 state node) ∧
      ∀ id, (frameReceived blk512 state node).copies id = state.copies id + one node id := by
  have counted (id : ℕ) :
      { state with rxDat := state.rxDat ++ [node] }.copies id = state.copies id + one node id := by
    simp only [SdioState.copies, tally_append, tally_cons, tally_nil]
    omega
  rw [frameReceived]
  dsimp only
  split
  · exact ⟨⟨settled.rx, settled.tx, fun _ stopped => by simp at stopped⟩, counted⟩
  · split <;> exact ⟨settled.of_same ⟨rfl, rfl, rfl, rfl⟩, counted⟩

theorem sdioRxCb_links (hdr : FrameHdr) :
    Settled blk512 (sdioRxCb blk512 state hdr) ∧
      ∀ id, (sdioRxCb blk512 state hdr).copies id = state.copies id := by
  rw [sdioRxCb]
  generalize begun : (if blk512 = true then state
    else { state with rHdlLen := state.rHdlLen + state.rxTransactionLen }) = start
  have same : SameLinks state start ∧ ∀ id, start.copies id = state.copies id := by
    rw [← begun]
    split <;> exact ⟨⟨rfl, rfl, rfl, rfl⟩, fun id => rfl⟩
  obtain ⟨links, same⟩ := same
  replace settled := settled.of_same links
  simp only [← same]
  rcases settled.rxing_cases with none_waits | ⟨node, waiting⟩
  · simp only [none_waits]
    split
    · exact ⟨settled.of_same ⟨by simp [none_waits], rfl, rfl, rfl⟩, fun id => by
        simp [SdioState.copies, none_waits]⟩
    · exact ⟨⟨Nat.zero_le _, settled.tx, fun _ stopped => by simp at stopped⟩, fun id => by
        simp [SdioState.copies, none_waits]⟩
  · have counted (id : ℕ) : start.copies id =
        { start with rxingList := [] }.copies id + one node id := by
      simp only [SdioState.copies, waiting, tally_cons]
      omega
    simp only [waiting, counted]
    split
    next =>
      split
      · split
        · exact ⟨⟨Nat.zero_le _, settled.tx, settled.part⟩, copies_sdioFreeValidNode _ _⟩
        · apply frameReceived_links
          exact ⟨Nat.zero_le _, settled.tx, settled.part⟩
      · refine ⟨⟨by simp, settled.tx, settled.part⟩, fun id => ?_⟩
        simp only [SdioState.copies, List.nil_append, tally_cons, one_hdr]
        omega
    next =>
      apply frameReceived_links
      exact ⟨Nat.zero_le _, settled.tx, settled.part⟩

end

/-! ## Calls keep the nodes -/

/-- What a call that moves nodes between the other lists keeps. -/
structure KeepsNodes (old new : SdioState) : Prop where
  links : SameLinks old new
  copies : ∀ id, new.copies id = old.copies id

theorem KeepsNodes.refl : KeepsNodes state state := ⟨.refl state, fun _ => rfl⟩

theorem keepsNodes_free {state taken : SdioState} {node : SdioNode} (links : SameLinks state taken)
    (counted : ∀ id, taken.copies id + one node id = state.copies id) :
    KeepsNodes state (sdioFreeValidNode taken node) where
  links := links.trans (sameLinks_free taken node)
  copies id := by rw [copies_sdioFreeValidNode, counted]

theorem sdioRead_keeps (userBuf : Bool) (count opFlag : UInt32) :
    KeepsNodes state (sdioRead state userBuf count opFlag) := by
  rw [sdioRead]
  split
  · split
    · exact .refl state
    · rcases queued : state.txDat with _ | ⟨node, rest⟩
      · exact .refl state
      · refine keepsNodes_free ⟨rfl, rfl, rfl, rfl⟩ fun id => ?_
        simp only [SdioState.copies, queued, tally_cons]
        omega
  split
  · split
    · exact .refl state
    · rcases queued : state.rxDat with _ | ⟨node, rest⟩
      · exact .refl state
      · refine keepsNodes_free ⟨rfl, rfl, rfl, rfl⟩ fun id => ?_
        simp only [SdioState.copies, queued, tally_cons]
        omega
  split
  · rcases queued : state.rxDat with _ | ⟨node, rest⟩
    · exact .refl state
    · refine ⟨⟨rfl, rfl, rfl, rfl⟩, fun id => ?_⟩
      simp only [SdioState.copies, queued, tally_cons]
      omega
  · exact .refl state

/-- An allocated node goes to one of the lists. -/
theorem keepsNodes_alloc (put : SdioState → SdioNode → SdioState)
    (links : ∀ state node, SameLinks state (put state node))
    (counted : ∀ state node id, (put state node).copies id = state.copies id + one node id) :
    KeepsNodes state
      (match sdioAllocValidNode state bufSize succeeds hdr with
        | (state, none) => state
        | (state, some node) => put state node) := by
  have sameLinks := sameLinks_alloc state bufSize succeeds hdr
  have copies := copies_sdioAllocValidNode state bufSize succeeds hdr
  generalize sdioAllocValidNode state bufSize succeeds hdr = result at sameLinks copies ⊢
  obtain ⟨next, _ | node⟩ := result
  · exact ⟨sameLinks, copies⟩
  · exact ⟨sameLinks.trans (links next node), fun id => (counted next node id).trans (copies id)⟩

theorem sdioWrite_keeps (userBuf : UserBuf) (count opFlag : UInt32) (succeeds : Bool) :
    KeepsNodes state (sdioWrite state userBuf count opFlag succeeds) := by
  rw [sdioWrite.eq_def]
  split
  · exact .refl state
  cases userBuf with
  | null => exact .refl state
  | data hdr =>
      dsimp only
      split
      · apply keepsNodes_alloc state count succeeds hdr
          (fun state node => { state with txDat := state.txDat ++ [node] })
        · exact fun _ _ => ⟨rfl, rfl, rfl, rfl⟩
        · intro state node id
          simp only [SdioState.copies, tally_append, tally_cons, tally_nil]
          omega
      split
      · apply keepsNodes_alloc state count succeeds hdr
          (fun state node => { state with rxDat := state.rxDat ++ [node] })
        · exact fun _ _ => ⟨rfl, rfl, rfl, rfl⟩
        · intro state node id
          simp only [SdioState.copies, tally_append, tally_cons, tally_nil]
          omega
      · exact .refl state
  | node node =>
      dsimp only
      split
      next owned =>
        refine ⟨⟨rfl, rfl, rfl, rfl⟩, fun id => ?_⟩
        simp only [SdioState.copies, tally_append, tally_cons, tally_nil,
          ← tally_erase owned.2 id]
        omega
      next => exact .refl state

theorem sdioCtrl_keeps (cmd : UInt32) (param : CtrlParam) (succeeds : Bool) :
    KeepsNodes state (sdioCtrl state cmd param succeeds) := by
  rw [sdioCtrl.eq_def]
  cases param with
  | node node =>
      dsimp only
      split
      next owned =>
        refine keepsNodes_free ⟨rfl, rfl, rfl, rfl⟩ fun id => ?_
        simp only [SdioState.copies, ← tally_erase owned.2 id]
        omega
      next => exact .refl state
  | size size hdr =>
      dsimp only
      split
      · apply keepsNodes_alloc state size succeeds hdr
          (fun state node => { state with held := node :: state.held })
        · exact fun _ _ => ⟨rfl, rfl, rfl, rfl⟩
        · intro state node id
          simp only [SdioState.copies, tally_cons]
          omega
      · exact .refl state

theorem inboundCfm_keeps : KeepsNodes state (inboundCfm state) := by
  rw [inboundCfm]
  rcases queued : state.inboundList with _ | ⟨node, rest⟩
  · exact .refl state
  · refine keepsNodes_free ⟨rfl, rfl, rfl, rfl⟩ fun id => ?_
    simp only [SdioState.copies, queued, tally_cons]
    omega

/-! ## When received frames keep their nodes -/

/-- Every frame handled from here on is a data frame or a command, and no frame is waiting when the
build with blocks has queued its last data frame; `i` counts the data frames before. -/
def Serves (blk512 : Bool) (full : SdioNode → Bool) (i : ℕ) : List SdioNode → Prop
  | [] => True
  | node :: rest =>
      if node.hdr.type blk512 = mvmsDat then
        full node = false →
          if blk512 ∧ i + 1 > 10 then rest = [] else Serves blk512 full (i + 1) rest
      else node.hdr.type blk512 = mvmsCmd ∧ Serves blk512 full i rest

instance decidableServes (blk512 : Bool) (full : SdioNode → Bool) :
    ∀ i nodes, Decidable (Serves blk512 full i nodes)
  | _, [] => isTrue trivial
  | i, node :: rest =>
      have := decidableServes blk512 full (i + 1) rest
      have := decidableServes blk512 full i rest
      inferInstanceAs (Decidable (if node.hdr.type blk512 = mvmsDat then
        full node = false →
          if blk512 ∧ i + 1 > 10 then rest = [] else Serves blk512 full (i + 1) rest
      else node.hdr.type blk512 = mvmsCmd ∧ Serves blk512 full i rest))

/-- A run of the handler keeps the links, makes no copies, and keeps every node exactly if it serves
all frames. -/
structure Handled (before after : SdioState) (serves : Prop) : Prop where
  links : SameLinks before after
  le : ∀ id, after.copies id ≤ before.copies id
  exact : (∀ id, after.copies id = before.copies id) ↔ serves

theorem Handled.of_keeps {before after : SdioState} (keeps : KeepsNodes before after)
    (serve : serves) : Handled before after serves :=
  ⟨keeps.links, fun id => Nat.le_of_eq (keeps.copies id), iff_of_true keeps.copies serve⟩

theorem Handled.after (keeps : KeepsNodes first second) (handled : Handled second third serves) :
    Handled first third serves := by
  refine ⟨keeps.links.trans handled.links, fun id => ?_, ?_⟩
  · rw [← keeps.copies id]
    exact handled.le id
  · rw [← handled.exact]
    exact forall_congr' fun id => by rw [keeps.copies id]

theorem copies_setRxDat_cons (node : SdioNode) (rest : List SdioNode) (id : ℕ) :
    (setRxDat state (node :: rest)).copies id = (setRxDat state rest).copies id + one node id := by
  simp only [SdioState.copies, setRxDat, tally_cons]
  omega

theorem Handled.of_lost {state after : SdioState} {rest : List SdioNode}
    (handled : Handled (setRxDat state rest) after serves) (node : SdioNode) :
    Handled (setRxDat state (node :: rest)) after False := by
  have less := handled.le
  have links : SameLinks (setRxDat state (node :: rest)) (setRxDat state rest) :=
    ⟨rfl, rfl, rfl, rfl⟩
  refine ⟨links.trans handled.links, fun id => ?_, iff_of_false (fun every => ?_) id⟩
  · rw [copies_setRxDat_cons]
    exact Nat.le_add_right_of_le (less id)
  · have same := every node.id
    have dropped := less node.id
    rw [copies_setRxDat_cons, one_self] at same
    omega

theorem handled_stop : Handled (setRxDat state rest) (setRxDat state rest.tail) (rest = []) := by
  cases rest with
  | nil => exact .of_keeps (.refl _) rfl
  | cons node rest =>
      have same : Handled (setRxDat state rest) (setRxDat state rest) True :=
        .of_keeps (.refl _) trivial
      have dropped := same.of_lost node
      simpa using dropped

theorem keeps_addInbound (node : SdioNode) (rest : List SdioNode) :
    KeepsNodes (setRxDat state (node :: rest)) (setRxDat (addInbound state node) rest) := by
  refine ⟨⟨rfl, rfl, rfl, rfl⟩, fun id => ?_⟩
  simp only [SdioState.copies, setRxDat, addInbound, tally_append, tally_cons, tally_nil]
  omega

theorem keeps_release (node : SdioNode) (rest : List SdioNode) :
    KeepsNodes (setRxDat state (node :: rest)) (setRxDat (sdioFreeValidNode state node) rest) := by
  refine ⟨⟨rfl, rfl, rfl, rfl⟩, fun id => ?_⟩
  rw [copies_setRxDat_cons]
  exact copies_sdioFreeValidNode (setRxDat state rest) node id

theorem setRxDat_inboundCfm :
    setRxDat (inboundCfm state) rest = inboundCfm (setRxDat state rest) := by
  have same : (setRxDat state rest).inboundList = state.inboundList := rfl
  rw [inboundCfm, inboundCfm, same]
  cases state.inboundList <;> rfl

/-- One frame after the other: only a frame of an unknown type, or one fetched after the last, is
lost. -/
theorem rxedLoop_handled (blk512 : Bool) (full : SdioNode → Bool) {i : ℕ}
    (few : blk512 = true → i ≤ 10) (state : SdioState) (nodes : List SdioNode) :
    Handled (setRxDat state nodes) (rxedLoop blk512 full i state nodes)
      (Serves blk512 full i nodes) := by
  induction nodes generalizing i state with
  | nil => exact .of_keeps (.refl _) trivial
  | cons node rest induction =>
      rw [rxedLoop, Serves]
      split
      next data =>
        have moved := keeps_addInbound state node rest
        dsimp only
        split
        next noDescriptor =>
          rw [setRxDat_inboundCfm]
          refine .after moved (.of_keeps (inboundCfm_keeps _) ?_)
          exact fun descriptor => absurd (noDescriptor.symm.trans descriptor) (by simp)
        next descriptor =>
          rw [Bool.not_eq_true] at descriptor
          simp only [descriptor, forall_const]
          split
          next last => exact .after moved (handled_stop _ rest)
          next more =>
            refine .after moved (induction ?_ _)
            intro build
            simp only [build, true_and] at more
            omega
      next other =>
        have going : ¬ (blk512 = true ∧ i > 10) := fun bad => by
          have bound := few bad.1
          omega
        dsimp only
        rw [if_neg going]
        split
        next command =>
          simp only [command, true_and]
          exact .after (keeps_release state node rest) (induction few _)
        next unknown =>
          simp only [unknown, false_and]
          exact (induction few state).of_lost node

/-! ## Whole runs -/

/-- Where no node is lost: the handler of received frames finds frames it serves. -/
def Condition (blk512 : Bool) (state : SdioState) : Event → Prop
  | .rxedEvt full => state.halted = false → Serves blk512 full 0 state.rxDat
  | _ => True

theorem sdioCmdHandler_links {state : SdioState} (settled : Settled blk512 state)
    (running : state.halted = false) (cmd : SdioDcmd) (succeeds : Bool) (hdr : FrameHdr) :
    Settled blk512 (sdioCmdHandler blk512 state cmd succeeds hdr).1 ∧
      ∀ id, (sdioCmdHandler blk512 state cmd succeeds hdr).1.copies id = state.copies id := by
  rw [sdioCmdHandler]
  split
  · exact ⟨settled_wrDtcm settled cmd succeeds hdr, copies_wrDtcm blk512 state cmd succeeds hdr⟩
  split
  · exact rdDtcm_links settled running cmd
  split
  · exact ⟨settled, fun _ => rfl⟩
  split
  · exact ⟨sdmaDmaStart_settled settled _ _, copies_sdmaDmaStart _ _ _⟩
  · exact ⟨settled, fun _ => rfl⟩

theorem step_links {state : SdioState} (settled : Settled blk512 state) (event : Event) :
    Settled blk512 ((machine blk512).step state event).1 ∧
      (∀ id, ((machine blk512).step state event).1.copies id ≤ state.copies id) ∧
      ((∀ id, ((machine blk512).step state event).1.copies id = state.copies id) ↔
        Condition blk512 state event) := by
  have keeping {next : SdioState} (result : Settled blk512 next ∧
      ∀ id, next.copies id = state.copies id) {condition : Prop} (meets : condition) :
      Settled blk512 next ∧ (∀ id, next.copies id ≤ state.copies id) ∧
        ((∀ id, next.copies id = state.copies id) ↔ condition) :=
    ⟨result.1, fun id => Nat.le_of_eq (result.2 id), iff_of_true result.2 meets⟩
  have calling {next : SdioState} (keeps : KeepsNodes state next) :
      Settled blk512 next ∧ ∀ id, next.copies id = state.copies id :=
    ⟨settled.of_same keeps.links, keeps.copies⟩
  rcases running : state.halted with _ | _
  · have step : (machine blk512).step state event = handle blk512 state event := by
      simp [machine, running]
    rw [step]
    cases event with
    | command cmd succeeds hdr =>
        exact keeping (sdioCmdHandler_links settled running cmd succeeds hdr) trivial
    | txCb => exact keeping (sdioTxCb_links settled) trivial
    | rxCb hdr => exact keeping (sdioRxCb_links settled hdr) trivial
    | read userBuf count opFlag => exact keeping (calling (sdioRead_keeps ..)) trivial
    | write userBuf count opFlag succeeds => exact keeping (calling (sdioWrite_keeps ..)) trivial
    | ctrl cmd param succeeds => exact keeping (calling (sdioCtrl_keeps ..)) trivial
    | inboundCfm => exact keeping (calling (inboundCfm_keeps state)) trivial
    | rxedEvt full =>
        have handled := rxedLoop_handled blk512 full (fun _ => Nat.zero_le 10) state state.rxDat
        refine ⟨settled.of_same handled.links, handled.le, ?_⟩
        simp only [Condition, running, forall_const]
        exact handled.exact
  · have step : (machine blk512).step state event = (state, .silent) := by
      simp [machine, running]
    rw [step]
    refine keeping ⟨settled, fun _ => rfl⟩ ?_
    cases event <;> simp [Condition, running]

theorem conserved_sdioInit : Conserved sdioInit := by
  intro id
  simp only [SdioState.copies, sdioInit, tally_nil, Nat.add_zero]
  rw [List.nodup_range.count]
  simp

/-- Every node is in one place throughout a run exactly if no step meets a frame that it does not
serve. -/
theorem nodes_conserved_iff (blk512 : Bool) (events : List Event) :
    (∀ front, front <+: events → Conserved ((machine blk512).run sdioInit front)) ↔
      (machine blk512).Always (Condition blk512) sdioInit events := by
  apply (machine blk512).forall_run_iff_always (Condition blk512) (Settled blk512) Conserved
  · exact fun event settled => (step_links settled event).1
  · intro state event settled conserved
    rw [← (step_links settled event).2.2]
    exact forall_congr' fun id => by rw [conserved id]
  · exact settled_sdioInit blk512
  · exact conserved_sdioInit

theorem links_run {state : SdioState} (settled : Settled blk512 state) (events : List Event) :
    Settled blk512 ((machine blk512).run state events) ∧
      ∀ id, ((machine blk512).run state events).copies id ≤ state.copies id := by
  induction events generalizing state with
  | nil => exact ⟨settled, fun _ => Nat.le_refl _⟩
  | cons event events induction =>
      obtain ⟨next, le, -⟩ := step_links settled event
      obtain ⟨later, later_le⟩ := induction next
      exact ⟨later, fun id => (later_le id).trans (le id)⟩

/-- No node is ever in two places, and a node that is lost does not come back. -/
theorem nodes_never_return (blk512 : Bool) (front back : List Event) (id : ℕ) :
    ((machine blk512).run sdioInit (front ++ back)).copies id ≤
        ((machine blk512).run sdioInit front).copies id ∧
      ((machine blk512).run sdioInit front).copies id ≤ 1 := by
  obtain ⟨settled, le⟩ := links_run (settled_sdioInit blk512) front
  rw [Machine.run_append]
  refine ⟨(links_run settled back).2 id, (le id).trans ?_⟩
  rw [conserved_sdioInit id]
  split <;> decide

def eventFrame : List Event :=
  [.command ⟨opcWrDtcm, 0, 64, 0, 0, 64⟩ true ⟨0, 0⟩, .rxCb ⟨64, 3⟩, .rxedEvt fun _ => false]

/-- The node of an event frame is in no place any more. -/
theorem event_frame_loses_node : ¬ Conserved ((machine false).run sdioInit eventFrame) := by
  intro conserved
  have lost : ((machine false).run sdioInit eventFrame).copies 0 = 0 := by decide +kernel
  exact absurd ((conserved 0).symm.trans lost) (by decide)

end BdkFreertos.Sdio
