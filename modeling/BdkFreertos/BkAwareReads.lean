import BdkFreertos.BkAware

/-!
# What the parser of BK-AWARE reads

`bk_aware_monitor_cb` is not told by its own tests where a frame ends.  Its outcome hangs on the
bytes of the frame alone if one of them already stops it, or if the element that it finds lies
inside the frame.
-/

namespace BdkFreertos.BkAware

/-! ### The tests -/

/-- A byte that is compared with a value. -/
structure ByteTest where
  place : ℕ
  mask : UInt8
  value : UInt8

def ByteTest.Passes (test : ByteTest) (data : Memory UInt8) : Prop :=
  data test.place &&& test.mask = test.value

/-- The bytes that `bk_aware_monitor_cb` compares. -/
def byteTests (env : Env) : List ByteTest :=
  [⟨0, 0xFC, 0xD0⟩, ⟨24, 0xFF, wlanActionVendorSpecific⟩,
    ⟨25, 0xFF, env.oui.getD 0 0⟩, ⟨26, 0xFF, env.oui.getD 1 0⟩,
    ⟨27, 0xFF, env.oui.getD 2 0⟩, ⟨32, 0xFF, wlanEidVendorSpecific⟩,
    ⟨34, 0xFF, env.oui.getD 0 0⟩, ⟨35, 0xFF, env.oui.getD 1 0⟩,
    ⟨36, 0xFF, env.oui.getD 2 0⟩, ⟨37, 0xFF, 4⟩]

/-- The frame comes from a peer for this station, or is for everyone. -/
def Addressed (env : Env) (data : Memory UInt8) : Prop :=
  bkAwareIsPeerExist env (loadAddr data 10) = true ∧ loadAddr data 4 = env.localAddr ∨
    isMulticastEtherAddr (loadAddr data 16) = true

/-- The frame passes all tests. -/
structure Taken (env : Env) (data : Memory UInt8) : Prop where
  inited : env.inited = true
  registered : env.recvCb = true
  passes : ∀ test ∈ byteTests env, test.Passes data
  addressed : Addressed env data

def recvCall (data : Memory UInt8) : RecvCall :=
  ⟨loadAddr data 10, data.load 39 ((data 33).toNat - 5), ((data 33).toNat : Int) - 5⟩

theorem and_full (byte : UInt8) : byte &&& 0xFF = byte := UInt8.and_neg_one

theorem isAction_iff (byte₀ byte₁ : UInt8) :
    halfOfBytes byte₀ byte₁ &&& macFctrlTypesubtypeMask = macFctrlAction ↔
      byte₀ &&& 0xFC = 0xD0 := by
  have low : (byte₀.toNat + 2 ^ 8 * byte₁.toNat) % 2 ^ 16 &&& 0xFC = byte₀.toNat &&& 0xFC := by
    have split_mask (value : ℕ) : value &&& 0xFC = value % 2 ^ 8 &&& 0xFC := by
      rw [← Nat.and_two_pow_sub_one_eq_mod, Nat.and_assoc]
      rfl
    have byte_lt : byte₀.toNat < 2 ^ 8 := byte₀.toNat_lt
    rw [split_mask]
    congr 1
    omega
  rw [← UInt16.toNat_inj, ← UInt8.toNat_inj, UInt16.toNat_and, UInt8.toNat_and, halfOfBytes]
  exact Iff.of_eq (congrArg (· = 0xD0) low)

variable {env : Env} {data : Memory UInt8}

theorem load_oui_iff (place : ℕ) :
    data.load place 3 = env.oui.toList ↔
      data place = env.oui.getD 0 0 ∧
        data (place + 1) = env.oui.getD 1 0 ∧
        data (place + 2) = env.oui.getD 2 0 := by
  have load_eq : data.load place 3 = [data place, data (place + 1), data (place + 2)] := rfl
  rw [toList_three, load_eq]
  simp

theorem bkAwareMonitorCb_of_taken (taken : Taken env data) :
    bkAwareMonitorCb env data = [recvCall data] := by
  obtain ⟨inited, registered, passes, addressed⟩ := taken
  simp only [byteTests, ByteTest.Passes, and_full, List.forall_mem_cons, List.not_mem_nil,
    false_implies, implies_true, and_true] at passes
  obtain ⟨action, category, oui, oui₁, oui₂, element, elementOui, elementOui₁, elementOui₂,
    type⟩ := passes
  have accepted : ((bkAwareIsPeerExist env (loadAddr data 10) && loadAddr data 4 = env.localAddr) ||
      isMulticastEtherAddr (loadAddr data 16)) = true := by
    rw [Bool.or_eq_true, Bool.and_eq_true, decide_eq_true_eq]
    exact addressed
  have oui_eq := (load_oui_iff 25).mpr ⟨oui, oui₁, oui₂⟩
  have elementOui_eq := (load_oui_iff 34).mpr ⟨elementOui, elementOui₁, elementOui₂⟩
  simp [bkAwareMonitorCb, (isAction_iff _ _).mpr action, inited, registered, category, oui_eq,
    element, elementOui_eq, type, accepted, recvCall]

section
variable {Item : Type*} {refused : Prop} [Decidable refused] {rest : List Item}

theorem of_refusal_ne_nil (some : (if refused then [] else rest) ≠ []) : ¬refused ∧ rest ≠ [] := by
  split at some
  · exact absurd rfl some
  · rename_i passes
    exact ⟨passes, some⟩

theorem of_acceptance_ne_nil (some : (if refused then rest else []) ≠ []) :
    refused ∧ rest ≠ [] := by
  split at some
  · rename_i passes
    exact ⟨passes, some⟩
  · exact absurd rfl some

end

theorem bkAwareMonitorCb_of_not_taken (rejected : ¬Taken env data) :
    bkAwareMonitorCb env data = [] := by
  by_contra something
  refine rejected ?_
  rw [bkAwareMonitorCb] at something
  obtain ⟨inited, something⟩ := of_refusal_ne_nil something
  obtain ⟨action, something⟩ := of_acceptance_ne_nil something
  obtain ⟨category, something⟩ := of_refusal_ne_nil something
  obtain ⟨oui, something⟩ := of_refusal_ne_nil something
  obtain ⟨element, something⟩ := of_refusal_ne_nil something
  obtain ⟨elementOui, something⟩ := of_refusal_ne_nil something
  obtain ⟨type, something⟩ := of_refusal_ne_nil something
  obtain ⟨registered, something⟩ := of_acceptance_ne_nil something
  obtain ⟨accepted, -⟩ := of_acceptance_ne_nil something
  obtain ⟨oui₀, oui₁, oui₂⟩ := (load_oui_iff 25).mp (not_not.mp oui)
  obtain ⟨elementOui₀, elementOui₁, elementOui₂⟩ := (load_oui_iff 34).mp (not_not.mp elementOui)
  refine ⟨Bool.not_eq_false _ ▸ inited, registered, ?_, ?_⟩
  · simp only [byteTests, ByteTest.Passes, and_full, List.forall_mem_cons, List.not_mem_nil,
      false_implies, implies_true, and_true]
    exact ⟨(isAction_iff _ _).mp action, not_not.mp category, oui₀, oui₁, oui₂,
      not_not.mp element, elementOui₀, elementOui₁, elementOui₂, not_not.mp type⟩
  · rw [Bool.or_eq_true, Bool.and_eq_true, decide_eq_true_eq] at accepted
    exact accepted

/-! ### What a frame decides -/

/-- A byte inside the frame fails its test, or the addresses lie inside it and are others'. -/
def Refused (env : Env) (data : Memory UInt8) (len : ℤ) : Prop :=
  (∃ test ∈ byteTests env, test.place < len ∧ ¬test.Passes data) ∨ 16 < len ∧ ¬Addressed env data

/-- The outcome is the same whatever stands behind the frame, and a payload lies inside it. -/
structure FrameLocal (env : Env) (data : Memory UInt8) (len : ℤ) : Prop where
  depends : ∀ other : Memory UInt8, (∀ place : ℕ, place < len → other place = data place) →
    bkAwareMonitorCb env other = bkAwareMonitorCb env data
  contained : ∀ call ∈ bkAwareMonitorCb env data, 0 ≤ call.dataLen ∧ 39 + call.dataLen ≤ len

section

variable {env : Env} {data other : Memory UInt8} {len : ℤ}

section

variable (agree : ∀ place : ℕ, place < len → other place = data place)
include agree

theorem loadAddr_congr {offset : ℕ} (inside : (offset : ℤ) + 6 ≤ len) :
    loadAddr other offset = loadAddr data offset := by
  apply Vector.ext
  intro index small
  rw [loadAddr, loadAddr, Vector.getElem_ofFn, Vector.getElem_ofFn]
  exact agree _ (by omega)

theorem isMulticast_congr (inside : 16 < len) :
    isMulticastEtherAddr (loadAddr other 16) = isMulticastEtherAddr (loadAddr data 16) := by
  have first : (loadAddr other 16)[0] = (loadAddr data 16)[0] := by
    rw [loadAddr, loadAddr, Vector.getElem_ofFn, Vector.getElem_ofFn]
    exact agree 16 inside
  rw [isMulticastEtherAddr, isMulticastEtherAddr, first]

theorem addressed_congr (inside : 16 < len) : Addressed env other ↔ Addressed env data := by
  rw [Addressed, Addressed, isMulticast_congr agree inside,
    loadAddr_congr agree (show ((10 : ℕ) : ℤ) + 6 ≤ len by omega),
    loadAddr_congr agree (show ((4 : ℕ) : ℤ) + 6 ≤ len by omega)]

theorem not_taken_of_refused (refused : Refused env data len) : ¬Taken env other := by
  rintro ⟨-, -, passes, addressed⟩
  rcases refused with ⟨test, test_mem, inside, fails⟩ | ⟨inside, elsewhere⟩
  · refine fails ?_
    rw [ByteTest.Passes, ← agree test.place inside]
    exact passes test test_mem
  · exact elsewhere ((addressed_congr agree inside).mp addressed)

theorem recvCall_congr (inside : 34 + ((data 33).toNat : ℤ) ≤ len) (more : 39 ≤ len) :
    recvCall other = recvCall data := by
  have userLen := agree 33 (by omega)
  rw [recvCall, recvCall, userLen,
    loadAddr_congr agree (show ((10 : ℕ) : ℤ) + 6 ≤ len by omega)]
  congr 1
  apply Memory.load_eq_load
  intro index small
  exact agree _ (by omega)

theorem taken_congr (more : 39 ≤ len) : Taken env other ↔ Taken env data := by
  have near : ∀ test ∈ byteTests env, test.place < 38 := by
    simp only [byteTests, List.forall_mem_cons, List.not_mem_nil, false_implies, implies_true,
      and_true]
    decide
  have passes_iff : (∀ test ∈ byteTests env, test.Passes other) ↔
      ∀ test ∈ byteTests env, test.Passes data := by
    refine forall₂_congr fun test test_mem => ?_
    have place_lt := near test test_mem
    rw [ByteTest.Passes, ByteTest.Passes, agree test.place (by omega)]
  have addressed_iff := @addressed_congr env data other len agree (by omega)
  exact ⟨fun taken => ⟨taken.1, taken.2, passes_iff.mp taken.3, addressed_iff.mp taken.4⟩,
    fun taken => ⟨taken.1, taken.2, passes_iff.mpr taken.3, addressed_iff.mpr taken.4⟩⟩

end

/-! ### Frames that are cut off -/

def wanted (env : Env) (place : ℕ) : UInt8 :=
  (((byteTests env).find? fun test => test.place = place).map ByteTest.value).getD 1

/-- A frame with what the tests would like to see behind it. -/
def filledUp (env : Env) (data : Memory UInt8) (len : ℤ) : Memory UInt8 :=
  fun place => if place < len then data place else wanted env place

theorem taken_filledUp (inited : env.inited = true) (registered : env.recvCb = true)
    (unrefused : ¬Refused env data len) : Taken env (filledUp env data len) := by
  obtain ⟨passes, addressed⟩ := not_or.mp unrefused
  have agree : ∀ place : ℕ, place < len → filledUp env data len place = data place :=
    fun place inside => if_pos inside
  have wanted_eq : ∀ test ∈ byteTests env, wanted env test.place &&& test.mask = test.value := by
    simp only [byteTests, wanted, List.forall_mem_cons, List.not_mem_nil, false_implies,
      implies_true, and_true]
    simp [and_full]
    decide
  refine ⟨inited, registered, fun test test_mem => ?_, ?_⟩
  · by_cases inside : (test.place : ℤ) < len
    · rw [ByteTest.Passes, agree test.place inside]
      exact not_not.mp fun fails => passes ⟨test, test_mem, inside, fails⟩
    · rw [ByteTest.Passes, filledUp, if_neg inside]
      exact wanted_eq test test_mem
  · by_cases inside : 16 < len
    · refine (addressed_congr agree inside).mpr ?_
      exact not_not.mp fun elsewhere => addressed ⟨inside, elsewhere⟩
    · right
      have first : (loadAddr (filledUp env data len) 16)[0] = 1 := by
        rw [loadAddr, Vector.getElem_ofFn]
        exact if_neg inside
      rw [isMulticastEtherAddr, first]
      decide

/-! ### The condition -/

theorem frameLocal_of_never (never : ∀ other : Memory UInt8,
    (∀ place : ℕ, place < len → other place = data place) → ¬Taken env other) :
    FrameLocal env data len := by
  have nothing := bkAwareMonitorCb_of_not_taken (never data fun _ _ => rfl)
  refine ⟨fun other agree => ?_, fun call call_mem => ?_⟩
  · rw [nothing, bkAwareMonitorCb_of_not_taken (never other agree)]
  · rw [nothing] at call_mem
    exact absurd call_mem List.not_mem_nil

theorem frameLocal_of_inside (positive : 5 ≤ (data 33).toNat)
    (inside : 34 + ((data 33).toNat : ℤ) ≤ len) : FrameLocal env data len := by
  by_cases taken : Taken env data
  · have call_eq := bkAwareMonitorCb_of_taken taken
    refine ⟨fun other agree => ?_, fun call call_mem => ?_⟩
    · rw [call_eq, bkAwareMonitorCb_of_taken ((taken_congr agree (by omega)).mpr taken),
        recvCall_congr agree inside (by omega)]
    · rw [call_eq, List.mem_singleton] at call_mem
      rw [call_mem, recvCall]
      constructor <;> simp only <;> omega
  · exact frameLocal_of_never fun other agree => mt (taken_congr agree (by omega)).mp taken

end

/-- The outcome of `bk_aware_monitor_cb` hangs on the frame alone exactly if it makes no calls at
all, something inside the frame refuses it, or the length of the element counts its head and ends
inside the frame. -/
theorem monitor_frame_local_iff (env : Env) (data : Memory UInt8) (len : Int32) :
    FrameLocal env data len.toInt ↔
      env.inited = false ∨ env.recvCb = false ∨ Refused env data len.toInt ∨
        5 ≤ (data 33).toNat ∧ 34 + ((data 33).toNat : ℤ) ≤ len.toInt := by
  constructor
  · rintro ⟨depends, contained⟩
    by_contra careless
    obtain ⟨inited, registered, unrefused, outside⟩ :
        ¬env.inited = false ∧ ¬env.recvCb = false ∧ ¬Refused env data len.toInt ∧
          ¬(5 ≤ (data 33).toNat ∧ 34 + ((data 33).toNat : ℤ) ≤ len.toInt) := by
      simpa only [not_or] using careless
    -- the filled-up frame is taken, so the frame as it lies in memory must be
    have filled := taken_filledUp (Bool.not_eq_false _ ▸ inited) (Bool.not_eq_false _ ▸ registered)
      unrefused
    have agree : ∀ place : ℕ, place < len.toInt →
        filledUp env data len.toInt place = data place := fun place inside => if_pos inside
    have same := depends _ agree
    have taken : Taken env data := by
      by_contra rejected
      rw [bkAwareMonitorCb_of_taken filled, bkAwareMonitorCb_of_not_taken rejected] at same
      exact List.cons_ne_nil _ _ same
    rw [bkAwareMonitorCb_of_taken taken] at contained
    obtain ⟨positive, ends⟩ : 0 ≤ ((data 33).toNat : ℤ) - 5 ∧
        39 + (((data 33).toNat : ℤ) - 5) ≤ len.toInt := contained _ (List.mem_singleton_self _)
    exact outside (by omega)
  · rintro (uninited | unregistered | refused | ⟨positive, inside⟩)
    · exact frameLocal_of_never
        fun _ _ taken => absurd (uninited.symm.trans taken.inited) (by decide)
    · exact frameLocal_of_never
        fun _ _ taken => absurd (unregistered.symm.trans taken.registered) (by decide)
    · exact frameLocal_of_never fun _ agree => not_taken_of_refused agree refused
    · exact frameLocal_of_inside positive inside

/-- A frame of 39 bytes for everyone whose element has the length zero. -/
def shortElement : Memory UInt8 := fun place =>
  if place = 33 then 0
  else wanted (pairedStation #v[2, 0, 0, 0, 0, 1] #v[2, 0, 0, 0, 0, 2]) place

/-- The callback is called for minus five bytes. -/
theorem short_element_not_local :
    ¬FrameLocal (pairedStation #v[2, 0, 0, 0, 0, 1] #v[2, 0, 0, 0, 0, 2]) shortElement
      (39 : Int32).toInt := by
  intro frame_local
  have called : ∃ call ∈ bkAwareMonitorCb
      (pairedStation #v[2, 0, 0, 0, 0, 1] #v[2, 0, 0, 0, 0, 2]) shortElement,
      call.dataLen = -5 := by decide
  obtain ⟨call, call_mem, length_eq⟩ := called
  have positive := (frame_local.contained call call_mem).1
  omega

end BdkFreertos.BkAware
