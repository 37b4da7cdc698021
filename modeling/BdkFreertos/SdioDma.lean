import BdkFreertos.SdioNodes

/-!
# Which commands stay in their buffers

The host says how much it moves, and the driver checks none of it against the buffer.  A command
stays inside the buffers exactly if the host's lengths fit: those of a transfer into what was
allocated for the node, that of a register command into the command buffer.
-/

namespace BdkFreertos.Sdio

def Region.Inside (region : Region) : Prop := region.offset + region.len ≤ region.size

instance decidableInside (region : Region) : Decidable region.Inside :=
  inferInstanceAs (Decidable (region.offset + region.len ≤ region.size))

/-- All regions and indices of a step lie in their buffers. -/
structure Output.InBounds (output : Output) : Prop where
  dma : ∀ region ∈ output.dma, region.Inside
  content : ∀ i ∈ output.content, i < maxContentCount
  regVal : ∀ i ∈ output.regVal, i < 16

/-- So many bytes from an offset on are in the buffer of a node. -/
def FitsNode (node : SdioNode) (offset len : ℕ) : Prop :=
  cfgMsduResvHeadLen.toNat + offset + len ≤ node.size.toNat

def FitsNew (bufSize : UInt32) (offset len : ℕ) : Prop :=
  offset + len ≤ bufSize.toNat + cfgMsduResvTailLen.toNat + mallocMagicLen.toNat

/-- What the host wants to write fits.  A node that an unfinished command has left is used again
whatever its size, unless the build with blocks sees another sequence number. -/
def FitsRx (blk512 : Bool) (state : SdioState) (cmd : SdioDcmd) (succeeds : Bool) : Prop :=
  match state.rxingList with
  | [] =>
      blk512 = true → state.freeNodes ≠ [] → succeeds = true →
        FitsNew (mSize cmd.totalSize) cmd.startLen.toNat cmd.dataLen.toNat
  | node :: _ =>
      if blk512 = false then
        FitsNode node 0 (min blockLen.toNat cmd.dataLen.toNat)
      else if state.rxSeq = cmd.seq then
        FitsNode node cmd.startLen.toNat cmd.dataLen.toNat
      else
        succeeds = true → FitsNew (mSize cmd.totalSize) cmd.startLen.toNat cmd.dataLen.toNat

/-- What the host wants to read is in the node, from where the last part of it ended. -/
def FitsTx (blk512 : Bool) (state : SdioState) (cmd : SdioDcmd) : Prop :=
  match state.txingList with
  | node :: _ =>
      FitsNode node (if blk512 then state.tcLen.toNat else 0)
        (min blockLen.toNat cmd.dataLen.toNat)
  | [] => ∀ node ∈ state.txDat.head?, FitsNode node 0 (min blockLen.toNat cmd.dataLen.toNat)

/-- The lengths in a command fit; a transfer of no data is not started. -/
def FitsCommand (blk512 : Bool) (state : SdioState) (cmd : SdioDcmd) (succeeds : Bool) : Prop :=
  if cmd.opCode = opcWrDtcm then
    cmd.dataLen ≠ 0 → FitsRx blk512 state cmd succeeds
  else if cmd.opCode = opcRdDtcm then
    cmd.dataLen ≠ 0 → FitsTx blk512 state cmd
  else if cmd.opCode = opcWrReg ∨ cmd.opCode = opcRdReg then
    4 ≤ cmd.len.toNat ∧ cmd.len.toNat < 68
  else True

/-- The condition on the host's commands. -/
def Fits (blk512 : Bool) (state : SdioState) : Event → Prop
  | .command cmd succeeds _ => state.halted = false → FitsCommand blk512 state cmd succeeds
  | _ => True

/-! ## Starting a transfer -/

theorem inBounds_silent : Output.silent.InBounds :=
  ⟨by simp [Output.silent], by simp [Output.silent], by simp [Output.silent]⟩

variable {bufSize : UInt32} {blk512 : Bool} (state : SdioState) (cmd : SdioDcmd) (len : UInt16)
  (succeeds : Bool) (hdr : FrameHdr)

theorem inBounds_sdmaDmaStart (region : Region) :
    (sdmaDmaStart state region .silent).2.InBounds ↔ (region.len ≠ 0 → region.Inside) := by
  rw [sdmaDmaStart]
  split
  next none => exact iff_of_true inBounds_silent fun some => absurd none some
  next some =>
    constructor
    · exact fun bounds _ => bounds.dma region (List.mem_singleton_self region)
    · intro inside
      refine ⟨fun other member => ?_, inBounds_silent.content, inBounds_silent.regVal⟩
      rw [List.mem_singleton.mp member]
      exact inside some

theorem toNat_min_blockLen :
    (min blockLen (len.toUInt32 - 0)).toNat = min blockLen.toNat len.toNat := by
  have wide : len.toUInt32.toNat = len.toNat := UInt16.toNat_toUInt32 len
  have least : min blockLen len.toUInt32 =
      if blockLen ≤ len.toUInt32 then blockLen else len.toUInt32 := rfl
  rw [UInt32.sub_zero, least, min_def]
  split
  next below =>
    rw [if_pos]
    exact wide ▸ UInt32.le_iff_toNat_le.mp below
  next above =>
    rw [if_neg, wide]
    exact fun below => above (UInt32.le_iff_toNat_le.mpr (wide ▸ below))

theorem min_blockLen_eq_zero : min blockLen.toNat len.toNat = 0 ↔ len = 0 := by
  have block : blockLen.toNat = 4096 := rfl
  rw [← UInt16.toNat_inj, block, UInt16.toNat_zero]
  omega

/-- The size of the buffer of a new node. -/
theorem alloc_node (positive : bufSize ≠ 0) (succeeds : Bool) (hdr : FrameHdr) :
    (∃ node, (sdioAllocValidNode state bufSize succeeds hdr).2 = some node ∧
        node.size = cfgMsduResvHeadLen + bufSize + cfgMsduResvTailLen + mallocMagicLen ∧
        state.freeNodes ≠ [] ∧ succeeds = true) ∨
      ((sdioAllocValidNode state bufSize succeeds hdr).2 = none ∧
        (state.freeNodes ≠ [] → succeeds = true → False)) := by
  rw [sdioAllocValidNode, if_neg positive]
  cases state.freeNodes with
  | nil => exact Or.inr ⟨rfl, fun some => absurd rfl some⟩
  | cons id rest =>
      cases succeeds with
      | false => exact Or.inr ⟨rfl, fun _ bad => absurd bad (by simp)⟩
      | true => exact Or.inl ⟨_, rfl, rfl, by simp, rfl⟩

theorem size_of_new (small : bufSize.toNat < 2 ^ 16) :
    (cfgMsduResvHeadLen + bufSize + cfgMsduResvTailLen + mallocMagicLen).toNat =
      cfgMsduResvHeadLen.toNat + bufSize.toNat + cfgMsduResvTailLen.toNat +
        mallocMagicLen.toNat := by
  have head : cfgMsduResvHeadLen.toNat = 96 := rfl
  have tail : cfgMsduResvTailLen.toNat = 16 := rfl
  have magic : mallocMagicLen.toNat = 8 := rfl
  simp only [UInt32.toNat_add, head, tail, magic]
  omega

/-! ## Writes of the host -/

theorem inBounds_startRx (blk512 : Bool) (state : SdioState) (node : Option SdioNode)
    (cmd : SdioDcmd) :
    (startRx blk512 state node cmd).2.InBounds ↔
      ∀ target ∈ node,
        (if blk512 then cmd.dataLen.toUInt32
          else min blockLen (state.rxLen - state.rHdlLen)).toNat ≠ 0 →
          FitsNode target (if blk512 then state.rcLen else 0).toNat
            (if blk512 then cmd.dataLen.toUInt32
              else min blockLen (state.rxLen - state.rHdlLen)).toNat := by
  cases node with
  | none => exact iff_of_true inBounds_silent fun target member => absurd member (by simp)
  | some node =>
      rw [startRx]
      dsimp only
      rw [inBounds_sdmaDmaStart]
      simp only [Option.mem_some_iff, forall_eq']
      rfl

theorem noteStart_rcLen : (noteStart state cmd).rcLen = cmd.startLen.toUInt32 := by
  rw [noteStart]
  generalize (if state.rxSeq ≠ cmd.seq ∧ cmd.startLen ≠ 0 then { state with daHdErr := true }
    else state) = marked
  split
  next => rfl
  next same => exact not_not.mp same

theorem inBounds_startRx_blocks (node : Option SdioNode) (cmd : SdioDcmd) :
    (startRx true (noteStart state cmd) node cmd).2.InBounds ↔
      ∀ target ∈ node, cmd.dataLen ≠ 0 →
        FitsNode target cmd.startLen.toNat cmd.dataLen.toNat := by
  have zero : cmd.dataLen.toNat = 0 ↔ cmd.dataLen = 0 := UInt16.toNat_inj (b := 0)
  simp [inBounds_startRx, noteStart_rcLen, zero]

theorem inBounds_startRx_plain {state : SdioState} {cmd : SdioDcmd}
    (rxLen : state.rxLen = cmd.dataLen.toUInt32) (rHdlLen : state.rHdlLen = 0)
    (node : Option SdioNode) :
    (startRx false state node cmd).2.InBounds ↔
      ∀ target ∈ node, cmd.dataLen ≠ 0 →
        FitsNode target 0 (min blockLen.toNat cmd.dataLen.toNat) := by
  rw [inBounds_startRx, rxLen, rHdlLen]
  simp only [Bool.false_eq_true, if_false, toNat_min_blockLen, ne_eq,
    min_blockLen_eq_zero, UInt32.toNat_zero]

theorem fitsNode_new {node : SdioNode} (small : bufSize.toNat < 2 ^ 16)
    (size : node.size = cfgMsduResvHeadLen + bufSize + cfgMsduResvTailLen + mallocMagicLen)
    (offset len : ℕ) : FitsNode node offset len ↔ FitsNew bufSize offset len := by
  rw [FitsNode, FitsNew, size, size_of_new small]
  omega

theorem mSize_small (totalSize : UInt16) :
    mSize totalSize ≠ 0 ∧ (mSize totalSize).toNat < 2 ^ 16 := by
  rw [mSize]
  split
  · decide
  split
  · decide
  split <;> decide

theorem new_node_blocks :
    (∀ target ∈ (sdioAllocValidNode state (mSize cmd.totalSize) succeeds hdr).2, cmd.dataLen ≠ 0 →
        FitsNode target cmd.startLen.toNat cmd.dataLen.toNat) ↔
      (cmd.dataLen ≠ 0 → state.freeNodes ≠ [] → succeeds = true →
        FitsNew (mSize cmd.totalSize) cmd.startLen.toNat cmd.dataLen.toNat) := by
  obtain ⟨positive, small⟩ := mSize_small cmd.totalSize
  rcases alloc_node state positive succeeds hdr with
    ⟨node, given, size, free, success⟩ | ⟨given, failure⟩
  · simp only [given, Option.mem_some_iff, forall_eq', fitsNode_new small size]
    exact ⟨fun fits some _ _ => fits some, fun fits some => fits some free success⟩
  · refine iff_of_true (fun target member => ?_) fun _ free success => (failure free success).elim
    rw [given] at member
    exact absurd member (by simp)

theorem new_node_plain {target : SdioNode}
    (given : target ∈ (sdioAllocValidNode state cmd.dataLen.toUInt32 succeeds hdr).2)
    (some : cmd.dataLen ≠ 0) : FitsNode target 0 (min blockLen.toNat cmd.dataLen.toNat) := by
  have wide : cmd.dataLen.toUInt32.toNat = cmd.dataLen.toNat := UInt16.toNat_toUInt32 _
  have small : cmd.dataLen.toUInt32.toNat < 2 ^ 16 := wide ▸ cmd.dataLen.toNat_lt
  have positive : cmd.dataLen.toUInt32 ≠ 0 := by
    intro none
    apply some
    rw [← UInt16.toNat_inj, ← wide, none]
    rfl
  rcases alloc_node state positive succeeds hdr with ⟨node, found, size, -⟩ | ⟨none, -⟩
  · rw [found, Option.mem_some_iff] at given
    rw [← given, fitsNode_new small size, FitsNew, wide]
    omega
  · rw [none] at given
    exact absurd given (by simp)

theorem alloc_lengths (bufSize : UInt32) (succeeds : Bool) (hdr : FrameHdr) :
    (sdioAllocValidNode state bufSize succeeds hdr).1.rxLen = state.rxLen ∧
      (sdioAllocValidNode state bufSize succeeds hdr).1.rHdlLen = state.rHdlLen := by
  have allocated := sdioAllocValidNode_cases state bufSize succeeds hdr
  generalize sdioAllocValidNode state bufSize succeeds hdr = result at allocated ⊢
  cases allocated <;> exact ⟨rfl, rfl⟩

theorem inBounds_wrDtcm_plain :
    (wrDtcm false state cmd succeeds hdr).2.InBounds ↔
      (cmd.dataLen ≠ 0 → FitsRx false state cmd succeeds) := by
  generalize begun : { state with rxLen := cmd.dataLen.toUInt32, rHdlLen := 0 } = start
  have handled : wrDtcm false state cmd succeeds hdr =
      startRx false (takeRxing false start cmd succeeds hdr).1
        (takeRxing false start cmd succeeds hdr).2 cmd := by
    simp [wrDtcm, begun]
  have rxLen : start.rxLen = cmd.dataLen.toUInt32 := by rw [← begun]
  have rHdlLen : start.rHdlLen = 0 := by rw [← begun]
  have links : start.rxingList = state.rxingList := by rw [← begun]
  rw [handled, FitsRx]
  cases waiting : state.rxingList with
  | cons node rest =>
      have taken : takeRxing false start cmd succeeds hdr =
          ({ start with rxingList := rest }, some node) := by
        simp [takeRxing, links, waiting]
      rw [taken, inBounds_startRx_plain]
      · simp
      · exact rxLen
      · exact rHdlLen
  | nil =>
      have fresh : takeRxing false start cmd succeeds hdr =
          sdioAllocValidNode start cmd.dataLen.toUInt32 succeeds hdr := by
        simp [takeRxing, links, waiting]
      obtain ⟨sameRx, sameHdl⟩ := alloc_lengths start cmd.dataLen.toUInt32 succeeds hdr
      rw [fresh, inBounds_startRx_plain (sameRx.trans rxLen) (sameHdl.trans rHdlLen)]
      refine iff_of_true (fun target given some => ?_) fun _ build => absurd build (by simp)
      exact new_node_plain start cmd succeeds hdr given some

theorem inBounds_wrDtcm_blocks {state : SdioState} (settled : Settled true state) (cmd : SdioDcmd)
    (succeeds : Bool) (hdr : FrameHdr) :
    (wrDtcm true state cmd succeeds hdr).2.InBounds ↔
      (cmd.dataLen ≠ 0 → FitsRx true state cmd succeeds) := by
  generalize begun : { state with rxLen := cmd.totalSize.toUInt32 } = start
  have handled : wrDtcm true state cmd succeeds hdr =
      startRx true
        (noteStart (renewRxing (takeRxing true start cmd succeeds hdr).1
          (takeRxing true start cmd succeeds hdr).2 state.rxingList.length cmd succeeds hdr).1 cmd)
        (renewRxing (takeRxing true start cmd succeeds hdr).1
          (takeRxing true start cmd succeeds hdr).2 state.rxingList.length cmd succeeds hdr).2
        cmd := by
    have few : state.rxingList.length < 2 := Nat.lt_succ_of_le settled.rx
    have links : start.rxingList = state.rxingList := by rw [← begun]
    simp [wrDtcm, begun, links, few]
  rw [handled, inBounds_startRx_blocks, FitsRx]
  rcases settled.rxing_cases with none_waits | ⟨node, waiting⟩
  · have fresh : takeRxing true start cmd succeeds hdr =
        sdioAllocValidNode start (mSize cmd.totalSize) succeeds hdr := by
      simp [takeRxing, ← begun, none_waits]
    have kept : (renewRxing (takeRxing true start cmd succeeds hdr).1
        (takeRxing true start cmd succeeds hdr).2 state.rxingList.length cmd succeeds hdr).2 =
          (takeRxing true start cmd succeeds hdr).2 := by
      rw [renewRxing, if_neg (by simp [none_waits])]
    rw [kept, fresh, new_node_blocks, none_waits, ← begun]
    simp
  · have taken : takeRxing true start cmd succeeds hdr =
        ({ start with rxingList := [] }, some node) := by
      simp [takeRxing, ← begun, waiting]
    rw [taken, waiting, renewRxing]
    dsimp only
    have seq : start.rxSeq = state.rxSeq := by rw [← begun]
    rw [seq]
    rcases eq_or_ne state.rxSeq cmd.seq with same | other
    · simp [same]
    · rw [if_pos ⟨other, by simp⟩, if_neg other]
      dsimp only
      rw [new_node_blocks]
      simp [sdioFreeValidNode]

theorem inBounds_wrDtcm {state : SdioState} (settled : Settled blk512 state) (cmd : SdioDcmd)
    (succeeds : Bool) (hdr : FrameHdr) :
    (wrDtcm blk512 state cmd succeeds hdr).2.InBounds ↔
      (cmd.dataLen ≠ 0 → FitsRx blk512 state cmd succeeds) := by
  cases blk512 with
  | false => exact inBounds_wrDtcm_plain state cmd succeeds hdr
  | true => exact inBounds_wrDtcm_blocks settled cmd succeeds hdr

/-! ## Reads of the host and registers -/

theorem inBounds_startTx (blk512 : Bool) {state : SdioState} {cmd : SdioDcmd}
    (txLen : state.txLen = cmd.dataLen.toUInt32) (tHdlLen : state.tHdlLen = 0) (node : SdioNode) :
    (startTx blk512 state node).2.InBounds ↔
      (cmd.dataLen ≠ 0 → FitsNode node (if blk512 then state.tcLen.toNat else 0)
        (min blockLen.toNat cmd.dataLen.toNat)) := by
  have offset : (if blk512 then state.tcLen else 0).toNat =
      if blk512 then state.tcLen.toNat else 0 := by
    split <;> rfl
  rw [startTx]
  dsimp only
  rw [inBounds_sdmaDmaStart, SdioNode.region]
  dsimp only
  rw [Region.Inside, txLen, tHdlLen, toNat_min_blockLen, offset, Ne, min_blockLen_eq_zero, FitsNode]

theorem inBounds_rdDtcm {state : SdioState} (settled : Settled blk512 state)
    (running : state.halted = false) (cmd : SdioDcmd) :
    (rdDtcm blk512 state cmd).2.InBounds ↔ (cmd.dataLen ≠ 0 → FitsTx blk512 state cmd) := by
  rw [FitsTx]
  rcases settled.txing_cases with none_waits | ⟨node, waiting⟩
  · have start : (if blk512 then state.tcLen.toNat else 0) = 0 := by
      split
      next build => rw [settled.part build running none_waits]; rfl
      next => rfl
    rcases queued : state.txDat with _ | ⟨node, rest⟩
    · rw [rdDtcm_none settled running none_waits queued, none_waits]
      exact iff_of_true inBounds_silent fun _ node member => absurd member (by simp)
    · rw [rdDtcm_fresh settled running none_waits queued, none_waits,
        inBounds_startTx blk512 rfl rfl, start]
      simp
  · rw [rdDtcm_waiting blk512 waiting, waiting, inBounds_startTx blk512 rfl rfl]

theorem regNumb_le_iff (len : UInt8) :
    (regNumb len 3 ≤ 7 ↔ 4 ≤ len.toNat ∧ len.toNat < 68) ∧
      (regNumb len 2 ≤ 15 ↔ 4 ≤ len.toNat ∧ len.toNat < 68) := by
  have bound := len.toNat_lt
  simp only [regNumb, Int.shiftRight_eq_div_pow]
  constructor <;> omega

theorem inBounds_wrReg : (wrReg state cmd).2.InBounds ↔ 4 ≤ cmd.len.toNat ∧ cmd.len.toNat < 68 := by
  rw [← (regNumb_le_iff cmd.len).1, wrReg]
  generalize regNumb cmd.len 3 = regs
  constructor
  · intro bounds
    rcases Nat.eq_zero_or_pos regs with rfl | positive
    · omega
    · have last : regs - 1 + regs < maxContentCount := by
        apply bounds.content
        simp only [List.mem_flatMap, List.mem_range]
        exact ⟨regs - 1, by omega, by simp⟩
      simp only [maxContentCount] at last
      omega
  · intro few
    refine ⟨by simp, fun i used => ?_, by simp⟩
    simp only [List.mem_flatMap, List.mem_range, List.mem_cons, List.not_mem_nil, or_false] at used
    obtain ⟨reg, inside, rfl | rfl⟩ := used <;> simp only [maxContentCount] <;> omega

theorem inBounds_rdReg : (rdReg state cmd).2.InBounds ↔ 4 ≤ cmd.len.toNat ∧ cmd.len.toNat < 68 := by
  rw [← (regNumb_le_iff cmd.len).2, rdReg]
  generalize regNumb cmd.len 2 = regs
  have used : (sdmaDmaStart state ⟨0, min 64 (regs * 4), 64⟩
      ⟨[], List.range regs, List.range regs⟩).2.content = List.range regs := by
    rw [sdmaDmaStart]
    split <;> rfl
  constructor
  · intro bounds
    rcases Nat.eq_zero_or_pos regs with rfl | positive
    · omega
    · have last : regs - 1 < maxContentCount := by
        apply bounds.content
        rw [used, List.mem_range]
        omega
      simp only [maxContentCount] at last
      omega
  · intro few
    have content : ∀ i ∈ List.range regs, i < maxContentCount := by
      intro i member
      have inside := List.mem_range.mp member
      simp only [maxContentCount]
      omega
    have regVal : ∀ i ∈ List.range regs, i < 16 := by
      intro i member
      have inside := List.mem_range.mp member
      omega
    rw [sdmaDmaStart]
    split
    · exact ⟨by simp, content, regVal⟩
    · refine ⟨fun region member => ?_, content, regVal⟩
      rw [List.mem_singleton.mp member, Region.Inside]
      dsimp only
      omega

/-! ## Whole runs -/

theorem inBounds_sdioCmdHandler {state : SdioState} (settled : Settled blk512 state)
    (running : state.halted = false) (cmd : SdioDcmd) (succeeds : Bool) (hdr : FrameHdr) :
    (sdioCmdHandler blk512 state cmd succeeds hdr).2.InBounds ↔
      FitsCommand blk512 state cmd succeeds := by
  rw [sdioCmdHandler, FitsCommand]
  split
  next => exact inBounds_wrDtcm settled cmd succeeds hdr
  split
  next => exact inBounds_rdDtcm settled running cmd
  split
  next write =>
    rw [if_pos (Or.inl write)]
    exact inBounds_wrReg state cmd
  next notWrite =>
    split
    next read =>
      rw [if_pos (Or.inr read)]
      exact inBounds_rdReg state cmd
    next notRead =>
      rw [if_neg (not_or.mpr ⟨notWrite, notRead⟩)]
      exact iff_of_true inBounds_silent trivial

theorem step_inBounds {state : SdioState} (settled : Settled blk512 state) (event : Event) :
    ((machine blk512).step state event).2.InBounds ↔ Fits blk512 state event := by
  rcases running : state.halted with _ | _
  · have step : (machine blk512).step state event = handle blk512 state event := by
      simp [machine, running]
    rw [step]
    cases event with
    | command cmd succeeds hdr =>
        simp only [Fits, running, forall_const]
        exact inBounds_sdioCmdHandler settled running cmd succeeds hdr
    | _ => exact iff_of_true inBounds_silent trivial
  · have step : (machine blk512).step state event = (state, .silent) := by
      simp [machine, running]
    rw [step]
    refine iff_of_true inBounds_silent ?_
    cases event <;> simp [Fits, running]

/-- All regions given to the DMA and all indices of a run lie in their buffers exactly if the
lengths of every command fit. -/
theorem commands_in_bounds_iff (blk512 : Bool) (events : List Event) :
    (∀ output ∈ (machine blk512).outputs sdioInit events, output.InBounds) ↔
      (machine blk512).Always (Fits blk512) sdioInit events := by
  rw [Machine.forall_outputs_iff_always]
  exact (machine blk512).always_iff_always _ (Fits blk512) (Settled blk512)
    (fun event settled => step_inBounds settled event)
    (fun event settled _ => (step_links settled event).1) (settled_sdioInit blk512) events

/-- A write of 64 bytes that the host does not finish, and one of 1024 bytes. -/
def unfinishedWrite : List Event :=
  [.command ⟨opcWrDtcm, 0, 64, 0, 0, 64⟩ true ⟨0, 0⟩,
    .command ⟨opcWrDtcm, 0, 1024, 0, 0, 1024⟩ true ⟨0, 0⟩]

/-- The second write goes past the end of the first one's buffer. -/
theorem unfinished_write_overruns :
    ¬ ∀ output ∈ (machine false).outputs sdioInit unfinishedWrite, output.InBounds := by
  intro every
  have region : ∃ output ∈ (machine false).outputs sdioInit unfinishedWrite,
      (⟨96, 1024, 184⟩ : Region) ∈ output.dma := by
    decide +kernel
  obtain ⟨output, member, given⟩ := region
  exact absurd ((every output member).dma _ given) (by decide)

end BdkFreertos.Sdio
