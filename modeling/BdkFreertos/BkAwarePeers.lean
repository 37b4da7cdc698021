import BdkFreertos.BkAware
import BdkFreertos.Machine
import Mathlib.Data.List.Nodup

/-!
# The peers of BK-AWARE

The list of peers is guarded by a semaphore.  `bk_aware_add_peer` looks for the address in one
guarded section and puts the peer on the list in another, so other threads may come in between;
deleting, modifying and looking up are one guarded section each.
-/

namespace BdkFreertos.BkAware

/-- The error codes `BK_ERR_BK_AWARE_*` that the functions on the list return, and `BK_OK`. -/
inductive BkErr
  | ok
  | notInit
  | arg
  | noMem
  | notFound
  | exist
  deriving DecidableEq

def bkAwareMaxTotalPeerNum : ℕ := 20

/-- `bk_aware_init` with the address of the station. -/
def bkAwareInit (localAddr : MacAddr) : Env where
  list := []
  localAddr := localAddr
  oui := cfgBkAwareOui
  inited := true
  recvCb := false

/-- `bk_aware_add_peer` up to its second guarded section: the arguments, the look for the address,
and the two allocations, of which the first gives `priv`. -/
def bkAwareAddPeerPrepare (env : Env) (peer : Option PeerInfo) (priv : Option ℕ)
    (peerAllocated : Bool) : Except BkErr PeerInfo :=
  match peer with
  | none => .error .arg
  | some peer =>
      if bkAwareIsPeerExist env peer.peerAddr then .error .exist
      else
        match priv with
        | none => .error .noMem
        | some priv => if peerAllocated then .ok { peer with priv := priv } else .error .noMem

/-- The second guarded section of `bk_aware_add_peer`. -/
def bkAwareAddPeerInsert (env : Env) (peer : PeerInfo) : Env :=
  { env with list := env.list ++ [peer] }

def bkAwareDelPeer (env : Env) (peerAddr : Option MacAddr) : Env × BkErr :=
  match peerAddr with
  | none => (env, .arg)
  | some peerAddr =>
      if env.inited = false then (env, .notInit)
      else if bkAwareIsPeerExist env peerAddr then
        ({ env with list := env.list.eraseP fun peer => peer.peerAddr = peerAddr }, .ok)
      else (env, .notFound)

/-- The loop of `bk_aware_mod_peer`. -/
def modFirst (peerMod : PeerInfo) : List PeerInfo → List PeerInfo
  | [] => []
  | peer :: list =>
      if peer.peerAddr = peerMod.peerAddr then peerMod :: list
      else peer :: modFirst peerMod list

def bkAwareModPeer (env : Env) (peerMod : Option PeerInfo) : Env × BkErr :=
  match peerMod with
  | none => (env, .arg)
  | some peerMod =>
      if env.inited = false then (env, .notInit)
      else ({ env with list := modFirst peerMod env.list }, .ok)

/-- The list, and the peers of the threads that are between the two sections of
`bk_aware_add_peer`. -/
structure Shared where
  env : Env
  preparing : ℕ → Option PeerInfo

/-- What a thread does next. -/
inductive Event
  /-- Enter `bk_aware_add_peer` and run to its second guarded section, with what the allocations
  give. -/
  | addPeerPrepare (thread : ℕ) (peer : Option PeerInfo) (priv : Option ℕ) (peerAllocated : Bool)
  /-- Run the second guarded section and return. -/
  | addPeerInsert (thread : ℕ)
  | delPeer (peerAddr : Option MacAddr)
  | modPeer (peerMod : Option PeerInfo)
  | isPeerExist (peerAddr : MacAddr)

/-- What a call returns. -/
inductive Answer
  | none
  | refused (error : BkErr)
  | added (peerAddr : MacAddr)
  | deleted (peerAddr : MacAddr)
  | modified (peerAddr : MacAddr)
  | isPeerExist (peerAddr : MacAddr) (answer : Bool)
  deriving DecidableEq

/-- The result of a call on an address. -/
def answerOf (done : MacAddr → Answer) (peerAddr : Option MacAddr) : BkErr → Answer
  | .ok => peerAddr.elim .none done
  | error => .refused error

/-- Any interleaving of the guarded sections. -/
def peerMachine : Machine Shared Event Answer where
  step shared
    | .addPeerPrepare thread peer priv peerAllocated =>
        if shared.preparing thread = none then
          match bkAwareAddPeerPrepare shared.env peer priv peerAllocated with
          | .ok peer =>
              ({ shared with preparing := Function.update shared.preparing thread (some peer) },
                .none)
          | .error error => (shared, .refused error)
        else (shared, .none)
    | .addPeerInsert thread =>
        match shared.preparing thread with
        | some peer =>
            ({ env := bkAwareAddPeerInsert shared.env peer
               preparing := Function.update shared.preparing thread none },
              .added peer.peerAddr)
        | none => (shared, .none)
    | .delPeer peerAddr =>
        let (env, result) := bkAwareDelPeer shared.env peerAddr
        ({ shared with env := env }, answerOf .deleted peerAddr result)
    | .modPeer peerMod =>
        let (env, result) := bkAwareModPeer shared.env peerMod
        ({ shared with env := env }, answerOf .modified (peerMod.map PeerInfo.peerAddr) result)
    | .isPeerExist peerAddr =>
        (shared, .isPeerExist peerAddr (bkAwareIsPeerExist shared.env peerAddr))

/-- No thread inside a call. -/
def peerStart (localAddr : MacAddr) : Shared where
  env := bkAwareInit localAddr
  preparing := fun _ => none

/-- Whether an address has been added and not deleted since. -/
def addedSince (peerAddr : MacAddr) (answers : List Answer) : Bool :=
  answers.foldl
    (fun known answer =>
      match answer with
      | .added addr => known || addr = peerAddr
      | .deleted addr => known && addr ≠ peerAddr
      | _ => known) false

/-- The list is the set of the addresses that have been added and not deleted since. -/
structure IsSet (answers : List Answer) (shared : Shared) : Prop where
  distinct : (shared.env.list.map PeerInfo.peerAddr).Nodup
  bounded : shared.env.list.length ≤ bkAwareMaxTotalPeerNum
  deleted : ∀ earlier peerAddr, answers = earlier ++ [.deleted peerAddr] →
    bkAwareIsPeerExist shared.env peerAddr = false
  exact : ∀ peerAddr, bkAwareIsPeerExist shared.env peerAddr = addedSince peerAddr answers

/-- A peer comes onto a list that has room and does not hold its address by then. -/
def InsertsFresh (shared : Shared) : Event → Prop
  | .addPeerInsert thread => ∀ peer, shared.preparing thread = some peer →
      bkAwareIsPeerExist shared.env peer.peerAddr = false ∧
        shared.env.list.length < bkAwareMaxTotalPeerNum
  | _ => True

variable {shared next : Shared} {answers : List Answer} {peerAddr : MacAddr}

def addresses (env : Env) : List MacAddr := env.list.map PeerInfo.peerAddr

theorem isPeerExist_iff {env : Env} :
    bkAwareIsPeerExist env peerAddr = true ↔ peerAddr ∈ addresses env := by
  simp [bkAwareIsPeerExist, addresses]

theorem isPeerExist_congr {env other : Env} (same : addresses other = addresses env) :
    bkAwareIsPeerExist other peerAddr = bkAwareIsPeerExist env peerAddr := by
  rw [Bool.eq_iff_iff, isPeerExist_iff, isPeerExist_iff, same]

theorem map_modFirst (peerMod : PeerInfo) (list : List PeerInfo) :
    (modFirst peerMod list).map PeerInfo.peerAddr = list.map PeerInfo.peerAddr := by
  induction list with
  | nil => rfl
  | cons peer list induction =>
      rw [modFirst]
      split
      · next same => rw [List.map_cons, List.map_cons, same]
      · rw [List.map_cons, List.map_cons, induction]

theorem map_eraseP (list : List PeerInfo) :
    (list.eraseP fun peer => peer.peerAddr = peerAddr).map PeerInfo.peerAddr =
      (list.map PeerInfo.peerAddr).erase peerAddr := by
  induction list with
  | nil => rfl
  | cons peer list induction =>
      rw [List.map_cons]
      by_cases same : peer.peerAddr = peerAddr
      · rw [List.eraseP_cons_of_pos (by simpa using same), same, List.erase_cons_head]
      · rw [List.eraseP_cons_of_neg (by simpa using same), List.map_cons, induction,
          List.erase_cons_tail (by simpa using same)]

theorem addedSince_concat (answer : Answer) :
    addedSince peerAddr (answers ++ [answer]) =
      match answer with
      | .added addr => addedSince peerAddr answers || addr = peerAddr
      | .deleted addr => addedSince peerAddr answers && addr ≠ peerAddr
      | _ => addedSince peerAddr answers := by
  rw [addedSince, List.foldl_concat]
  rfl

theorem IsSet.of_same (kept : IsSet answers shared) {answer : Answer}
    (same : addresses next.env = addresses shared.env)
    (not_added : ∀ addr, answer ≠ .added addr) (not_deleted : ∀ addr, answer ≠ .deleted addr) :
    IsSet (answers ++ [answer]) next where
  distinct := by
    rw [← addresses, same]
    exact kept.distinct
  bounded := by
    rw [← List.length_map PeerInfo.peerAddr, ← addresses, same, addresses, List.length_map]
    exact kept.bounded
  deleted earlier addr split := by
    rw [List.append_inj_right' split rfl |> List.singleton_inj.mp] at not_deleted
    exact absurd rfl (not_deleted addr)
  exact addr := by
    rw [isPeerExist_congr same, kept.exact, addedSince_concat]
    cases answer with
    | added other => exact absurd rfl (not_added other)
    | deleted other => exact absurd rfl (not_deleted other)
    | _ => rfl

theorem isSet_insert_iff (kept : IsSet answers shared) (peer : PeerInfo)
    (env_eq : next.env = bkAwareAddPeerInsert shared.env peer) :
    IsSet (answers ++ [.added peer.peerAddr]) next ↔
      bkAwareIsPeerExist shared.env peer.peerAddr = false ∧
        shared.env.list.length < bkAwareMaxTotalPeerNum := by
  have next_addresses : addresses next.env = addresses shared.env ++ [peer.peerAddr] := by
    rw [env_eq, addresses, bkAwareAddPeerInsert, List.map_append]
    rfl
  have next_length : next.env.list.length = shared.env.list.length + 1 := by
    rw [env_eq, bkAwareAddPeerInsert, List.length_append]
    rfl
  constructor
  · intro after
    have distinct := after.distinct
    rw [← addresses, next_addresses, List.nodup_append] at distinct
    have bounded := after.bounded
    refine ⟨?_, by omega⟩
    rw [Bool.eq_false_iff, ne_eq, isPeerExist_iff]
    intro member
    exact distinct.2.2 _ member _ (List.mem_singleton_self _) rfl
  · rintro ⟨absent, room⟩
    rw [Bool.eq_false_iff, ne_eq, isPeerExist_iff] at absent
    refine ⟨?_, by omega, ?_, ?_⟩
    · rw [← addresses, next_addresses]
      exact List.nodup_append.mpr ⟨kept.distinct, List.nodup_singleton _, fun addr member other
        single => by rw [List.mem_singleton.mp single]; rintro rfl; exact absent member⟩
    · intro earlier addr split
      exact absurd (List.singleton_inj.mp (List.append_inj_right' split rfl)) (by simp)
    · intro addr
      rw [Bool.eq_iff_iff, isPeerExist_iff, next_addresses, List.mem_append, List.mem_singleton,
        addedSince_concat, Bool.or_eq_true, ← kept.exact, isPeerExist_iff, decide_eq_true_eq,
        eq_comm]

theorem IsSet.delete (kept : IsSet answers shared)
    (env_eq : next.env =
      { shared.env with list := shared.env.list.eraseP fun peer => peer.peerAddr = peerAddr }) :
    IsSet (answers ++ [.deleted peerAddr]) next := by
  have distinct : (addresses shared.env).Nodup := kept.distinct
  have next_addresses : addresses next.env = (addresses shared.env).erase peerAddr := by
    rw [env_eq]
    exact map_eraseP shared.env.list
  have member_iff (addr : MacAddr) :
      addr ∈ addresses next.env ↔ addr ≠ peerAddr ∧ addr ∈ addresses shared.env := by
    rw [next_addresses]
    exact distinct.mem_erase_iff
  refine ⟨?_, ?_, ?_, ?_⟩
  · rw [← addresses, next_addresses]
    exact distinct.erase peerAddr
  · rw [env_eq]
    exact Nat.le_trans List.length_eraseP_le kept.bounded
  · intro earlier addr split
    have same := List.singleton_inj.mp (List.append_inj_right' split rfl)
    rw [Answer.deleted.injEq] at same
    rw [Bool.eq_false_iff, ne_eq, isPeerExist_iff, member_iff, same]
    exact fun both => both.1 rfl
  · intro addr
    rw [Bool.eq_iff_iff, isPeerExist_iff, member_iff, addedSince_concat, Bool.and_eq_true,
      ← kept.exact, isPeerExist_iff, decide_eq_true_eq, and_comm, ne_comm]

theorem bkAwareDelPeer_cases (env : Env) (peerAddr : Option MacAddr) :
    (∃ addr, peerAddr = some addr ∧ bkAwareDelPeer env peerAddr =
      ({ env with list := env.list.eraseP fun peer => peer.peerAddr = addr }, .ok)) ∨
    (∃ error, error ≠ .ok ∧ bkAwareDelPeer env peerAddr = (env, error)) := by
  rcases peerAddr with _ | addr
  · exact Or.inr ⟨.arg, by decide, rfl⟩
  · rw [bkAwareDelPeer]
    split
    · exact Or.inr ⟨.notInit, by decide, rfl⟩
    split
    · exact Or.inl ⟨addr, rfl, rfl⟩
    · exact Or.inr ⟨.notFound, by decide, rfl⟩

theorem addresses_bkAwareModPeer (env : Env) (peerMod : Option PeerInfo) :
    addresses (bkAwareModPeer env peerMod).1 = addresses env := by
  rcases peerMod with _ | peerMod
  · rfl
  · rw [bkAwareModPeer]
    split
    · rfl
    · exact map_modFirst peerMod env.list

theorem answerOf_error {error : BkErr} (failed : error ≠ .ok) (done : MacAddr → Answer)
    (addr : Option MacAddr) : answerOf done addr error = .refused error := by
  cases error with
  | ok => exact absurd rfl failed
  | _ => rfl

/-- From a set, exactly the insertion of an address that is there by then, or into a full list,
leads to a list that is no set. -/
theorem isSet_step_iff (kept : IsSet answers shared) (event : Event) :
    IsSet (answers ++ [(peerMachine.step shared event).2]) (peerMachine.step shared event).1 ↔
      InsertsFresh shared event := by
  cases event with
  | addPeerInsert thread =>
      simp only [peerMachine, InsertsFresh]
      cases preparing : shared.preparing thread with
      | none =>
          refine iff_of_true ?_ nofun
          exact kept.of_same rfl (fun _ => nofun) (fun _ => nofun)
      | some peer =>
          rw [isSet_insert_iff kept peer rfl]
          simp
  | addPeerPrepare thread peer priv peerAllocated =>
      refine iff_of_true ?_ trivial
      simp only [peerMachine]
      split
      · split
        · exact kept.of_same rfl (fun _ => nofun) (fun _ => nofun)
        · exact kept.of_same rfl (fun _ => nofun) (fun _ => nofun)
      · exact kept.of_same rfl (fun _ => nofun) (fun _ => nofun)
  | delPeer peerAddr =>
      refine iff_of_true ?_ trivial
      simp only [peerMachine]
      rcases bkAwareDelPeer_cases shared.env peerAddr with
        ⟨addr, rfl, result⟩ | ⟨error, failed, result⟩
      · rw [result]
        exact kept.delete rfl
      · rw [result, answerOf_error failed]
        exact kept.of_same rfl (fun _ => nofun) (fun _ => nofun)
  | modPeer peerMod =>
      refine iff_of_true (kept.of_same (addresses_bkAwareModPeer shared.env peerMod) ?_ ?_) trivial
      all_goals
        intro addr
        simp only [peerMachine]
        cases (bkAwareModPeer shared.env peerMod).2 with
        | ok => cases peerMod <;> exact nofun
        | _ => exact nofun
  | isPeerExist addr =>
      refine iff_of_true ?_ trivial
      exact kept.of_same rfl (fun _ => nofun) (fun _ => nofun)

theorem isSet_start (localAddr : MacAddr) : IsSet [] (peerStart localAddr) where
  distinct := List.nodup_nil
  bounded := Nat.zero_le _
  deleted earlier peerAddr split := absurd split (by simp)
  exact peerAddr := rfl

/-- Over every interleaving of the guarded sections of any number of threads, the list is free of
repetitions and within its capacity, every successful delete makes its address absent and the look-up
answers exactly for the addresses added and not deleted since, in every state reached, if and only if
every insertion finds room on the list and its address not there. -/
theorem peer_list_is_set_iff (localAddr : MacAddr) (events : List Event) :
    (∀ front, front <+: events → IsSet (peerMachine.outputs (peerStart localAddr) front)
      (peerMachine.run (peerStart localAddr) front)) ↔
      peerMachine.Always InsertsFresh (peerStart localAddr) events :=
  peerMachine.forall_history_iff_always InsertsFresh (fun _ => IsSet) (isSet_start localAddr)
    (fun event kept => isSet_step_iff kept event) events

def peerWith (last : UInt8) : PeerInfo :=
  ⟨#v[2, 0, 0, 0, 0, last], Vector.replicate 16 0, 0, 0, false, 0⟩

/-- Two threads add the same peer: both look it up before either inserts it. -/
def addedTwice : List Event :=
  [.addPeerPrepare 0 (some (peerWith 7)) (some 1) true,
    .addPeerPrepare 1 (some (peerWith 7)) (some 2) true, .addPeerInsert 0, .addPeerInsert 1,
    .delPeer (some (peerWith 7).peerAddr), .isPeerExist (peerWith 7).peerAddr]

/-- One thread adds so many peers, one after the other. -/
def addedInTurn (count : ℕ) : List Event :=
  (List.range count).flatMap fun index =>
    [.addPeerPrepare 0 (some (peerWith (UInt8.ofNat index))) (some index) true, .addPeerInsert 0]

/-- The address added by two threads is on the list twice, and still there after a successful
delete; and nothing keeps a twenty-first peer off the list. -/
theorem peer_list_not_a_set :
    (¬ (addresses (peerMachine.run (peerStart (Vector.replicate 6 0))
        (addedTwice.take 4)).env).Nodup) ∧
      (peerMachine.outputs (peerStart (Vector.replicate 6 0)) addedTwice).drop 4 =
        [.deleted (peerWith 7).peerAddr, .isPeerExist (peerWith 7).peerAddr true] ∧
      (peerMachine.run (peerStart (Vector.replicate 6 0)) (addedInTurn 21)).env.list.length = 21 ∧
      ¬ ∀ front, front <+: addedTwice →
        IsSet (peerMachine.outputs (peerStart (Vector.replicate 6 0)) front)
          (peerMachine.run (peerStart (Vector.replicate 6 0)) front) := by
  have repeated : ¬ (addresses (peerMachine.run (peerStart (Vector.replicate 6 0))
      (addedTwice.take 4)).env).Nodup := by decide
  refine ⟨repeated, by decide, by decide, ?_⟩
  intro every
  exact repeated (every (addedTwice.take 4) (List.take_prefix 4 addedTwice)).distinct

end BdkFreertos.BkAware
