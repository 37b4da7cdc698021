import BdkFreertos.Machine
import Mathlib.Data.List.Nodup

/-!
# Who owns a set of scan results

The sets of scan results carry a count of their users.  `sr_get_scan_results` and
`sr_release_scan_results` are guarded sections; the thread of the MAC's messages tests the global
pointer and acts on it in separate steps, and the supplicant keeps its set in a pointer of its own.
The interleavings of these steps are the runs of one machine.
-/

namespace BdkFreertos.ScanOwnership

/-- The sets, numbered in the order of their allocation, and the globals that refer to them. -/
structure Store where
  allocated : ℕ
  freed : List ℕ
  ref : ℕ → UInt16
  scanRstSetPtr : Option ℕ
  resultfulScanCfm : Bool
  sScanResultUploadPtr : Option ℕ
  /-- Whether a field of a null set has been touched. -/
  nullTouched : Bool

/-- `sr_free_all`. -/
def srFreeAll (store : Store) (set : ℕ) : Store :=
  { store with ref := Function.update store.ref set 0, freed := store.freed ++ [set] }

/-- `sr_get_scan_results`. -/
def srGetScanResults (store : Store) : Store × Option ℕ :=
  match store.scanRstSetPtr with
  | none => ({ store with nullTouched := true }, none)
  | some set =>
      ({ store with ref := Function.update store.ref set (store.ref set + 1) }, some set)

/-- `sr_release_scan_results`, with `wpa_clear_scan_results` where the set is freed. -/
def srReleaseScanResults (store : Store) : Option ℕ → Store
  | none => store
  | some set =>
      if store.ref set = 0 then store
      else if store.ref set - 1 ≠ 0 then
        { store with ref := Function.update store.ref set (store.ref set - 1) }
      else
        { srFreeAll store set with
          scanRstSetPtr := none
          resultfulScanCfm := false
          sScanResultUploadPtr := none }

def srFlushScanResults (store : Store) : Option ℕ → Store
  | none => srReleaseScanResults { store with nullTouched := true } none
  | some set =>
      srReleaseScanResults { store with ref := Function.update store.ref set 1 } (some set)

/-- `sr_malloc_shell` and the assignment of its result. -/
def srMallocShell (store : Store) (succeeds : Bool) : Store :=
  if succeeds then
    { store with
      allocated := store.allocated + 1
      ref := Function.update store.ref store.allocated 0
      scanRstSetPtr := some store.allocated }
  else { store with scanRstSetPtr := none }

/-- The global pointer and the flag of a scan with results are cleared. -/
def clearScanRst (store : Store) : Store :=
  { store with scanRstSetPtr := none, resultfulScanCfm := false }

/-- Where the thread of the MAC's messages is in `rwnx_handle_recv_msg`. -/
inductive Kmsg
  | idle
  /-- `SCANU_START_CFM` has found a set. -/
  | completing
  /-- `SCANU_RESULT_IND` has found the set of an earlier scan. -/
  | flushing
  /-- `SCANU_RESULT_IND` is before its second test. -/
  | allocating
  /-- `SM_CONNECT_IND` has found a set. -/
  | connectReleasing
  | connectClearing
  deriving DecidableEq

/-- Where the supplicant is, with the set it has obtained. -/
inductive Wpa
  | idle
  /-- `wpa_get_scan_rst` has copied the results. -/
  | got (set : ℕ)
  /-- `wpa_hostapd_release_scan_rst` has found a set in the supplicant's pointer. -/
  | releasing (set : Option ℕ)
  /-- It has found none there. -/
  | getting
  | releasingCurrent (set : Option ℕ)
  deriving DecidableEq

structure State where
  store : Store
  kmsg : Kmsg
  wpa : Wpa
  /-- The sets that users other than the supplicant have obtained and not released. -/
  users : List ℕ

inductive Event
  | scanuStartCfm
  | scanuResultInd
  | smConnectInd
  /-- The thread of the MAC's messages goes on, with the outcome of an allocation. -/
  | kmsgStep (succeeds : Bool)
  | userGet
  | userRelease (set : ℕ)
  /-- The guarded section of `wpa_get_scan_rst`. -/
  | wpaGetScanRst
  /-- The test of `wpa_hostapd_release_scan_rst`. -/
  | wpaReleaseScanRst
  /-- The test of the supplicant's pointer in `wpa_send_assoc_req`. -/
  | wpaSendAssocReq
  | wpaStep
  deriving DecidableEq

/-- One step of the thread of the MAC's messages. -/
def kmsgStep (state : State) (succeeds : Bool) : State :=
  match state.kmsg with
  | .idle => state
  | .completing =>
      { state with store := { state.store with resultfulScanCfm := true }, kmsg := .idle }
  | .flushing =>
      { state with
        store := clearScanRst (srFlushScanResults state.store state.store.scanRstSetPtr)
        kmsg := .allocating }
  | .allocating =>
      { state with
        store := if state.store.scanRstSetPtr = none then srMallocShell state.store succeeds
          else state.store
        kmsg := .idle }
  | .connectReleasing =>
      { state with
        store := srReleaseScanResults state.store state.store.scanRstSetPtr
        kmsg := .connectClearing }
  | .connectClearing => { state with store := clearScanRst state.store, kmsg := .idle }

/-- `wpa_buffer_scan_results` and the test after it. -/
def wpaGetScanRst (state : State) : State :=
  let (store, ptr) := srGetScanResults state.store
  { state with
    store := { store with sScanResultUploadPtr := ptr }
    wpa := ptr.elim .idle .got }

/-- The set the supplicant has obtained and not released. -/
def Wpa.held : Wpa → Option ℕ
  | .idle | .getting => none
  | .got set => some set
  | .releasing set | .releasingCurrent set => set

/-- The test of `wpa_hostapd_release_scan_rst`. -/
def wpaReleaseScanRst (state : State) : State :=
  if state.store.sScanResultUploadPtr.isSome then
    { state with wpa := .releasing state.wpa.held }
  else { state with wpa := .getting }

/-- One step of the supplicant. -/
def wpaStep (state : State) : State :=
  match state.wpa with
  | .idle => state
  | .got _ => wpaReleaseScanRst state
  | .releasing _ =>
      { state with
        store := { srReleaseScanResults state.store state.store.sScanResultUploadPtr with
          sScanResultUploadPtr := none }
        wpa := .idle }
  | .getting =>
      let (store, rst) := srGetScanResults state.store
      { state with store := store, wpa := .releasingCurrent rst }
  | .releasingCurrent rst =>
      { state with store := srReleaseScanResults state.store rst, wpa := .idle }

def machine : Machine State Event Unit where
  step state
    | .scanuStartCfm =>
        (if state.kmsg = .idle ∧ state.store.scanRstSetPtr.isSome then
          { state with kmsg := .completing } else state, ())
    | .scanuResultInd =>
        (if state.kmsg = .idle then
          if state.store.resultfulScanCfm && state.store.scanRstSetPtr.isSome then
            { state with kmsg := .flushing }
          else { state with kmsg := .allocating }
        else state, ())
    | .smConnectInd =>
        (if state.kmsg = .idle ∧ state.store.scanRstSetPtr.isSome then
          { state with kmsg := .connectReleasing } else state, ())
    | .kmsgStep succeeds => (kmsgStep state succeeds, ())
    | .userGet =>
        let (store, ptr) := srGetScanResults state.store
        ({ state with store := store, users := ptr.toList ++ state.users }, ())
    | .userRelease set =>
        (if set ∈ state.users then
          { state with
            store := srReleaseScanResults state.store (some set)
            users := state.users.erase set }
        else state, ())
    | .wpaGetScanRst => (if state.wpa = .idle then wpaGetScanRst state else state, ())
    | .wpaReleaseScanRst => (if state.wpa = .idle then wpaReleaseScanRst state else state, ())
    | .wpaSendAssocReq =>
        (if state.wpa = .idle ∧ state.store.sScanResultUploadPtr.isSome then
          { state with wpa := .releasing none } else state, ())
    | .wpaStep => (wpaStep state, ())

/-- After start-up. -/
def start : State where
  store :=
    { allocated := 0
      freed := []
      ref := fun _ => 0
      scanRstSetPtr := none
      resultfulScanCfm := false
      sScanResultUploadPtr := none
      nullTouched := false }
  kmsg := .idle
  wpa := .idle
  users := []

/-- The sets that have been obtained and not released, once for each time. -/
def holders (state : State) : List ℕ := state.wpa.held.toList ++ state.users

/-- Whoever has obtained a set may rely on it, no set is freed twice or lost, the global pointer is
not stale, and no null set has been touched. -/
structure Sound (state : State) : Prop where
  held : ∀ set ∈ holders state, set ∉ state.store.freed
  once : state.store.freed.Nodup
  kept : ∀ set < state.store.allocated,
    set ∈ state.store.freed ∨ state.store.scanRstSetPtr = some set ∨ set ∈ holders state
  current : ∀ set, state.store.scanRstSetPtr = some set → set ∉ state.store.freed
  null : state.store.nullTouched = false

/-- There is a current set, and its count of users can grow. -/
def Gettable (store : Store) : Prop :=
  ∃ set, store.scanRstSetPtr = some set ∧ store.ref set ≠ 0xFFFF

instance (store : Store) : Decidable (Gettable store) :=
  decidable_of_iff (store.scanRstSetPtr.any fun set => store.ref set ≠ 0xFFFF)
    (by simp [Gettable, Option.any_eq_true])

def Unheld (state : State) : Prop :=
  ∃ set, state.store.scanRstSetPtr = some set ∧ set ∉ holders state

instance (state : State) : Decidable (Unheld state) :=
  decidable_of_iff (state.store.scanRstSetPtr.any fun set => set ∉ holders state)
    (by simp [Unheld, Option.any_eq_true])

/-- A set is obtained only while there is one, a new scan flushes the set of an earlier one only
while nobody holds it, and a connection finds no set to release. -/
def Respectful (state : State) : Event → Prop
  | .userGet => Gettable state.store
  | .wpaGetScanRst => state.wpa = .idle → Gettable state.store
  | .wpaStep => state.wpa = .getting → Gettable state.store
  | .kmsgStep _ =>
      (state.kmsg = .flushing → Unheld state) ∧
        (state.kmsg = .connectReleasing → state.store.scanRstSetPtr = none)
  | _ => True

instance (state : State) : ∀ event, Decidable (Respectful state event)
  | .userGet => inferInstanceAs (Decidable (Gettable _))
  | .wpaGetScanRst | .wpaStep => inferInstanceAs (Decidable (_ → Gettable _))
  | .kmsgStep _ => inferInstanceAs (Decidable ((_ → Unheld _) ∧ (_ → _)))
  | .scanuStartCfm | .scanuResultInd | .smConnectInd | .userRelease _ | .wpaReleaseScanRst
  | .wpaSendAssocReq => isTrue trivial

/-! ## The count of users -/

variable {store : Store} {held : List ℕ} {set : ℕ}

/-- Only the current set is held, its count is the number of its holders, and every other set has
been freed once. -/
structure Counted (store : Store) (held : List ℕ) : Prop where
  current : ∀ set ∈ held, store.scanRstSetPtr = some set
  count : ∀ set, store.scanRstSetPtr = some set → (store.ref set).toNat = held.length
  live : ∀ set, store.scanRstSetPtr = some set → set ∉ store.freed
  once : store.freed.Nodup
  known : ∀ set, set ∈ store.freed ∨ store.scanRstSetPtr = some set → set < store.allocated
  kept : ∀ set < store.allocated, set ∈ store.freed ∨ store.scanRstSetPtr = some set
  null : store.nullTouched = false

namespace Counted

theorem perm {other : List ℕ} (counted : Counted store held) (same : other.Perm held) :
    Counted store other :=
  { counted with
    current := fun set member => counted.current set (same.mem_iff.mp member)
    count := fun set is_current => (counted.count set is_current).trans same.length_eq.symm }

theorem congr {other : Store} (counted : Counted store held)
    (allocated : other.allocated = store.allocated) (freed : other.freed = store.freed)
    (ref : other.ref = store.ref) (ptr : other.scanRstSetPtr = store.scanRstSetPtr)
    (null : other.nullTouched = store.nullTouched) : Counted other held := by
  constructor
  all_goals simp only [allocated, freed, ref, ptr, null]
  exacts [counted.current, counted.count, counted.live, counted.once, counted.known, counted.kept,
    counted.null]

section

variable (counted : Counted store held) (is_current : store.scanRstSetPtr = some set)
include counted is_current

theorem eq_current : ∀ other ∈ held, other = set := fun other member =>
  Option.some.inj ((counted.current other member).symm.trans is_current)

theorem recount {value : UInt16} {next : List ℕ} (members : ∀ other ∈ next, other = set)
    (length : value.toNat = next.length) :
    Counted { store with ref := Function.update store.ref set value } next :=
  { counted with
    current := fun other member => members other member ▸ is_current
    count := by
      intro other other_current
      obtain rfl : set = other := Option.some.inj (is_current.symm.trans other_current)
      simpa only [Function.update_self] using length }

theorem get (room : store.ref set ≠ 0xFFFF) :
    Counted { store with ref := Function.update store.ref set (store.ref set + 1) }
      (set :: held) := by
  apply counted.recount is_current
  · intro other member
    rcases List.mem_cons.mp member with same | member
    · exact same
    · exact counted.eq_current is_current other member
  · have count := counted.count set is_current
    have below : (store.ref set).toNat ≠ 0xFFFF := fun full => room (UInt16.toNat_inj.mp full)
    have bound := (store.ref set).toNat_lt
    rw [UInt16.toNat_add, UInt16.toNat_one, List.length_cons]
    omega

end

theorem free (counted : Counted store []) (is_current : store.scanRstSetPtr = some set)
    {next : Store} (allocated : next.allocated = store.allocated)
    (freed : next.freed = store.freed ++ [set]) (ptr : next.scanRstSetPtr = none)
    (null : next.nullTouched = store.nullTouched) : Counted next [] where
  current other member := absurd member List.not_mem_nil
  count other other_current := by simp [ptr] at other_current
  live other other_current := by simp [ptr] at other_current
  once := by
    rw [freed]
    exact List.nodup_append.mpr ⟨counted.once, List.nodup_singleton _, fun first member second
      last same => counted.live set is_current (List.mem_singleton.mp last ▸ same ▸ member)⟩
  known := by
    intro other
    rw [freed, ptr, allocated, List.mem_append, List.mem_singleton]
    rintro ((member | rfl) | other_current)
    · exact counted.known other (Or.inl member)
    · exact counted.known other (Or.inr is_current)
    · contradiction
  kept := by
    intro other inside
    rw [allocated] at inside
    rw [freed, List.mem_append, List.mem_singleton]
    rcases counted.kept other inside with member | other_current
    · exact Or.inl (Or.inl member)
    · exact Or.inl (Or.inr (Option.some.inj (other_current.symm.trans is_current)))
  null := null.trans counted.null

/-- A release by a holder.  The supplicant's pointer is cleared only when nobody holds the set any
more. -/
theorem release (counted : Counted store (set :: held)) :
    Counted (srReleaseScanResults store (some set)) held ∧
      ((srReleaseScanResults store (some set)).sScanResultUploadPtr = store.sScanResultUploadPtr ∨
        held = [] ∧ (srReleaseScanResults store (some set)).sScanResultUploadPtr = none) := by
  have is_current := counted.current set List.mem_cons_self
  have count := counted.count set is_current
  rw [List.length_cons] at count
  have positive : store.ref set ≠ 0 := by
    intro zero
    rw [zero, UInt16.toNat_zero] at count
    omega
  have one_le : 1 ≤ store.ref set := by
    rw [UInt16.le_iff_toNat_le, UInt16.toNat_one]
    omega
  have less : (store.ref set - 1).toNat = held.length := by
    rw [UInt16.toNat_sub_of_le _ _ one_le, UInt16.toNat_one]
    omega
  rw [srReleaseScanResults, if_neg positive]
  split
  · refine ⟨counted.recount is_current ?_ less, Or.inl rfl⟩
    exact fun other member => counted.eq_current is_current other (List.mem_cons_of_mem set member)
  · next last =>
      have none_left : held = [] := by
        rw [not_not.mp last, UInt16.toNat_zero] at less
        exact List.length_eq_zero_iff.mp less.symm
      refine ⟨?_, Or.inr ⟨none_left, rfl⟩⟩
      subst none_left
      have unheld : Counted { store with ref := Function.update store.ref set 0 } [] :=
        counted.recount is_current (fun other member => absurd member List.not_mem_nil) rfl
      exact unheld.free is_current rfl rfl rfl rfl

theorem flush (counted : Counted store held) (is_current : store.scanRstSetPtr = some set)
    (unheld : set ∉ held) : Counted (clearScanRst (srFlushScanResults store (some set))) held := by
  obtain rfl : held = [] := by
    rw [List.eq_nil_iff_forall_not_mem]
    intro other member
    exact unheld (counted.eq_current is_current other member ▸ member)
  refine counted.free is_current ?_ ?_ rfl ?_
  all_goals simp [clearScanRst, srFlushScanResults, srReleaseScanResults, srFreeAll]

theorem malloc (counted : Counted store held) (no_current : store.scanRstSetPtr = none)
    (succeeds : Bool) : Counted (srMallocShell store succeeds) held := by
  obtain rfl : held = [] := by
    rw [List.eq_nil_iff_forall_not_mem]
    intro other member
    exact absurd ((counted.current other member).symm.trans no_current) (Option.some_ne_none other)
  cases succeeds with
  | false => exact counted.congr rfl rfl rfl no_current.symm rfl
  | true =>
      exact
        { current := fun other member => absurd member List.not_mem_nil
          count := by
            intro other other_current
            obtain rfl : store.allocated = other := Option.some.inj other_current
            simp [srMallocShell]
          live := by
            intro other other_current member
            obtain rfl : store.allocated = other := Option.some.inj other_current
            exact absurd (counted.known _ (Or.inl member)) (Nat.lt_irrefl _)
          once := counted.once
          known := by
            rintro other (member | other_current)
            · exact Nat.lt_succ_of_lt (counted.known other (Or.inl member))
            · obtain rfl : store.allocated = other := Option.some.inj other_current
              exact Nat.lt_succ_self _
          kept := by
            intro other inside
            rcases Nat.lt_succ_iff_lt_or_eq.mp inside with earlier | rfl
            · rcases counted.kept other earlier with member | other_current
              · exact Or.inl member
              · rw [no_current] at other_current
                contradiction
            · exact Or.inr rfl
          null := counted.null }

end Counted

/-! ## Every interleaving -/

/-- The set in the supplicant's pointer. -/
def Wpa.uploaded : Wpa → Option ℕ
  | .got set => some set
  | .releasing set => set
  | .idle | .getting | .releasingCurrent _ => none

/-- The count is right, and the pointers of the two threads are where they have left them. -/
structure Orderly (state : State) : Prop where
  counted : Counted state.store (holders state)
  uploaded : state.store.sScanResultUploadPtr = state.wpa.uploaded
  cleared : state.kmsg = .connectClearing → state.store.scanRstSetPtr = none

variable {state : State}

theorem Orderly.sound (orderly : Orderly state) : Sound state where
  held set member := orderly.counted.live set (orderly.counted.current set member)
  once := orderly.counted.once
  kept set inside := (orderly.counted.kept set inside).imp id Or.inl
  current := orderly.counted.live
  null := orderly.counted.null

theorem orderly_start : Orderly start where
  counted :=
    { current := fun set member => absurd member List.not_mem_nil
      count := fun set is_current => nomatch is_current
      live := fun set is_current => nomatch is_current
      once := List.nodup_nil
      known := by simp [start]
      kept := fun set inside => absurd inside (Nat.not_lt_zero _)
      null := rfl }
  uploaded := rfl
  cleared _ := rfl

theorem Wpa.uploaded_of_held_none {wpa : Wpa} (none_held : wpa.held = none) :
    wpa.uploaded = none := by
  cases wpa with
  | got set | releasing set => exact none_held
  | _ => rfl

theorem release_scanRstSetPtr (store : Store) (ptr : Option ℕ) :
    (srReleaseScanResults store ptr).scanRstSetPtr = store.scanRstSetPtr ∨
      (srReleaseScanResults store ptr).scanRstSetPtr = none := by
  fun_cases srReleaseScanResults store ptr with
  | case1 | case2 | case3 => exact Or.inl rfl
  | case4 => exact Or.inr rfl

theorem release_eq_none {store : Store} (no_current : store.scanRstSetPtr = none)
    (ptr : Option ℕ) : (srReleaseScanResults store ptr).scanRstSetPtr = none :=
  (release_scanRstSetPtr store ptr).elim (fun same => same.trans no_current) id

theorem get_eq {store : Store} {set : ℕ} (is_current : store.scanRstSetPtr = some set) :
    srGetScanResults store =
      ({ store with ref := Function.update store.ref set (store.ref set + 1) }, some set) := by
  rw [srGetScanResults, is_current]

theorem Orderly.holders_eq_nil (orderly : Orderly state)
    (unheld : ∀ set, state.store.scanRstSetPtr = some set → set ∉ holders state) :
    holders state = [] := by
  rw [List.eq_nil_iff_forall_not_mem]
  intro set member
  exact unheld set (orderly.counted.current set member) member

theorem uploaded_eq_none (none_held : holders state = []) : state.wpa.uploaded = none := by
  apply Wpa.uploaded_of_held_none
  rw [holders, List.append_eq_nil_iff] at none_held
  exact Option.toList_eq_nil_iff.mp none_held.1

namespace Orderly

section

variable (orderly : Orderly state)
include orderly

theorem kmsgStep (succeeds : Bool) (respectful : Respectful state (.kmsgStep succeeds)) :
    Orderly (ScanOwnership.kmsgStep state succeeds) := by
  obtain ⟨unheld, no_set⟩ := respectful
  rw [ScanOwnership.kmsgStep]
  split
  · exact orderly
  · exact ⟨orderly.counted.congr rfl rfl rfl rfl rfl, orderly.uploaded, nofun⟩
  · next at_flush =>
      obtain ⟨set, is_current, not_held⟩ := unheld at_flush
      have none_held := orderly.holders_eq_nil fun other other_current =>
        Option.some.inj (is_current.symm.trans other_current) ▸ not_held
      rw [is_current]
      refine ⟨orderly.counted.flush is_current not_held, ?_, nofun⟩
      refine Eq.trans ?_ (uploaded_eq_none none_held).symm
      simp [clearScanRst, srFlushScanResults, srReleaseScanResults]
  · next at_malloc =>
      split
      · next no_current =>
          refine ⟨orderly.counted.malloc no_current succeeds, Eq.trans ?_ orderly.uploaded, nofun⟩
          cases succeeds <;> rfl
      · exact ⟨orderly.counted, orderly.uploaded, nofun⟩
  · next at_release =>
      have no_current := no_set at_release
      rw [no_current]
      exact ⟨orderly.counted, orderly.uploaded, fun _ => no_current⟩
  · next at_clear =>
      have no_current := orderly.cleared at_clear
      exact ⟨orderly.counted.congr rfl rfl rfl no_current.symm rfl, orderly.uploaded, nofun⟩

theorem userGet (gettable : Gettable state.store) : Orderly (machine.step state .userGet).1 := by
  obtain ⟨set, is_current, room⟩ := gettable
  simp only [machine, get_eq is_current, Option.toList_some]
  exact ⟨(orderly.counted.get is_current room).perm List.perm_middle, orderly.uploaded,
    orderly.cleared⟩

theorem userRelease (set : ℕ) : Orderly (machine.step state (.userRelease set)).1 := by
  simp only [machine]
  split
  · next member =>
      have front : (holders state).Perm (set :: (state.wpa.held.toList ++ state.users.erase set)) :=
        ((List.perm_cons_erase member).append_left _).trans List.perm_middle
      obtain ⟨counted, uploaded⟩ := (orderly.counted.perm front.symm).release
      refine ⟨counted, ?_, fun clearing => release_eq_none (orderly.cleared clearing) _⟩
      rcases uploaded with same | ⟨none_held, cleared⟩
      · exact same.trans orderly.uploaded
      · refine cleared.trans (Wpa.uploaded_of_held_none ?_).symm
        exact Option.toList_eq_nil_iff.mp (List.append_eq_nil_iff.mp none_held).1
  · exact orderly

theorem wpaGetScanRst (idle : state.wpa = .idle) (gettable : Gettable state.store) :
    Orderly (ScanOwnership.wpaGetScanRst state) := by
  obtain ⟨set, is_current, room⟩ := gettable
  have counted := orderly.counted
  rw [holders, idle] at counted
  simp only [ScanOwnership.wpaGetScanRst, get_eq is_current]
  exact ⟨(counted.get is_current room).congr rfl rfl rfl rfl rfl, rfl, orderly.cleared⟩

theorem wpaRelease {rst : Option ℕ} (held : state.wpa.held = rst) {next : Store}
    (next_eq : next = srReleaseScanResults state.store rst ∨
      next = { srReleaseScanResults state.store rst with sScanResultUploadPtr := none })
    (uploaded : next.sScanResultUploadPtr = none) :
    Orderly { state with store := next, wpa := .idle } := by
  have counted : Counted (srReleaseScanResults state.store rst) state.users := by
    have counted := orderly.counted
    rw [holders, held] at counted
    cases rst with
    | none => exact counted
    | some set => exact counted.release.1
  have cleared (clearing : state.kmsg = .connectClearing) :=
    release_eq_none (orderly.cleared clearing) rst
  rcases next_eq with rfl | rfl
  · exact ⟨counted, uploaded, cleared⟩
  · exact ⟨counted.congr rfl rfl rfl rfl rfl, uploaded, cleared⟩

theorem wpaReleaseScanRst (before : state.wpa.held = state.wpa.uploaded) :
    Orderly (ScanOwnership.wpaReleaseScanRst state) := by
  rw [ScanOwnership.wpaReleaseScanRst]
  split
  · exact ⟨orderly.counted, orderly.uploaded.trans before.symm, orderly.cleared⟩
  · next empty =>
      have none_uploaded : state.store.sScanResultUploadPtr = none := by simpa using empty
      have none_held : state.wpa.held = none :=
        before.trans (orderly.uploaded.symm.trans none_uploaded)
      refine ⟨?_, none_uploaded, orderly.cleared⟩
      have counted := orderly.counted
      rw [holders, none_held] at counted
      exact counted

theorem wpaStep (respectful : Respectful state .wpaStep) :
    Orderly (ScanOwnership.wpaStep state) := by
  rw [ScanOwnership.wpaStep]
  split
  · exact orderly
  · next at_got => exact orderly.wpaReleaseScanRst (by rw [at_got]; rfl)
  · next set at_release =>
      have uploaded := orderly.uploaded
      rw [at_release, Wpa.uploaded] at uploaded
      rw [uploaded]
      exact orderly.wpaRelease (by rw [at_release, Wpa.held]) (Or.inr rfl) rfl
  · next at_get =>
      obtain ⟨set, is_current, room⟩ := respectful at_get
      have counted := orderly.counted
      have uploaded := orderly.uploaded
      rw [holders, at_get] at counted
      rw [at_get] at uploaded
      simp only [get_eq is_current]
      exact ⟨counted.get is_current room, uploaded, orderly.cleared⟩
  · next rst at_release =>
      have uploaded := orderly.uploaded
      rw [at_release, Wpa.uploaded] at uploaded
      refine orderly.wpaRelease (by rw [at_release, Wpa.held]) (Or.inl rfl) ?_
      fun_cases srReleaseScanResults state.store rst with
      | case1 | case2 | case3 => exact uploaded
      | case4 => rfl

end

theorem step (orderly : Orderly state) {event : Event} (respectful : Respectful state event) :
    Orderly (machine.step state event).1 := by
  cases event with
  | scanuStartCfm | smConnectInd =>
      simp only [machine]
      split
      · exact ⟨orderly.counted, orderly.uploaded, nofun⟩
      · exact orderly
  | scanuResultInd =>
      simp only [machine]
      split
      · split
        · exact ⟨orderly.counted, orderly.uploaded, nofun⟩
        · exact ⟨orderly.counted, orderly.uploaded, nofun⟩
      · exact orderly
  | kmsgStep succeeds => exact orderly.kmsgStep succeeds respectful
  | userGet => exact orderly.userGet respectful
  | userRelease set => exact orderly.userRelease set
  | wpaGetScanRst =>
      simp only [machine]
      split
      · next idle => exact orderly.wpaGetScanRst idle (respectful idle)
      · exact orderly
  | wpaReleaseScanRst =>
      simp only [machine]
      split
      · next idle => exact orderly.wpaReleaseScanRst (by rw [idle]; rfl)
      · exact orderly
  | wpaSendAssocReq =>
      simp only [machine]
      split
      · next tested =>
          have uploaded := orderly.uploaded
          rw [tested.1, Wpa.uploaded] at uploaded
          rw [uploaded] at tested
          exact absurd tested.2 (by decide)
      · exact orderly
  | wpaStep => exact orderly.wpaStep respectful

end Orderly

/-- In every interleaving of respectful steps all sets are owned as they should be. -/
theorem scan_results_owned (events : List Event)
    (respectful : machine.Always Respectful start events) : Sound (machine.run start events) :=
  (machine.run_invariant Respectful Orderly orderly_start
    (fun orderly meets => orderly.step meets) respectful).sound

/-- A scan whose one result is indicated and which is completed. -/
def oneScan : List Event := [.scanuResultInd, .kmsgStep true, .scanuStartCfm, .kmsgStep true]

/-- Two users and the supplicant in turn, a scan nobody asks for that the next one flushes, and a
connection. -/
def respectfulRun : List Event := List.flatten
  [oneScan,
    [.userGet, .wpaGetScanRst, .userGet, .wpaStep, .userRelease 0, .wpaStep, .userRelease 0],
    oneScan,
    [.scanuResultInd, .kmsgStep true, .kmsgStep true, .wpaReleaseScanRst, .wpaStep, .smConnectInd,
      .wpaStep, .kmsgStep true, .kmsgStep true]]

theorem scan_results_owned_respectfulRun :
    machine.Always Respectful start respectfulRun ∧ Sound (machine.run start respectfulRun) ∧
      (machine.run start respectfulRun).store.freed = [0, 1, 2] := by
  have respectful : machine.Always Respectful start respectfulRun := by decide
  exact ⟨respectful, scan_results_owned respectfulRun respectful, by decide⟩

/-- A set is freed under its user by a new scan, a set is lost to a connection, and a null set is
touched when there is none. -/
theorem scan_results_not_owned :
    ¬ Sound (machine.run start (oneScan.append [.userGet, .scanuResultInd, .kmsgStep true])) ∧
      ¬ Sound (machine.run start (oneScan.append [.smConnectInd, .kmsgStep true, .kmsgStep true])) ∧
        ¬ Sound (machine.run start [.userGet]) := by
  refine ⟨?_, ?_, ?_⟩
  · intro sound
    exact absurd (sound.held 0 (by decide)) (by decide)
  · intro sound
    exact absurd (sound.kept 0 (by decide)) (by decide)
  · intro sound
    exact absurd sound.null (by decide)

end BdkFreertos.ScanOwnership
