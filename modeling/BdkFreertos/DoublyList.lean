import Mathlib.Data.List.Basic
import Mathlib.Logic.Function.Basic
import Mathlib.Tactic.Common

/-!
# Circular doubly linked lists

Nodes carry a link to the next and to the previous one.  The nodes of a list form a ring with its
header.  A ring has one order of its nodes, and a node is added before another one by four writes.
-/

namespace BdkFreertos

variable {α : Type*}

/-- The links of all nodes, where `none` is the null pointer. -/
@[ext]
structure Links (α : Type*) where
  next : α → Option α
  prev : α → Option α

namespace Links

def Joined (links : Links α) (left right : α) : Prop :=
  links.next left = some right ∧ links.prev right = some left

/-- Following the links leads from one node over the nodes of a list to another one. -/
def Path (links : Links α) (first : α) : List α → α → Prop
  | [], last => links.Joined first last
  | node :: nodes, last => links.Joined first node ∧ links.Path node nodes last

/-- The header is on a ring with the nodes of a list. -/
structure Ring (links : Links α) (header : α) (order : List α) : Prop where
  path : links.Path header order header
  nodup : (header :: order).Nodup

theorem path_append (links : Links α) (first middle last : α) (front back : List α) :
    links.Path first (front ++ middle :: back) last ↔
      links.Path first front middle ∧ links.Path middle back last := by
  induction front generalizing first with
  | nil => rfl
  | cons node front induction => simp [Path, induction, and_assoc]

variable {links : Links α} {first last : α} {front back : List α} {links' : Links α}
  {nodes : List α} {header prev next other : α}

section

variable (path : links.Path first nodes last)
include path

/-- A path reads the next links of its nodes but the last and the previous links of its nodes but
the first. -/
theorem Path.frame (next_eq : ∀ node ∈ first :: nodes, links'.next node = links.next node)
    (prev_eq : ∀ node ∈ nodes, links'.prev node = links.prev node)
    (last_eq : links'.prev last = links.prev last) : links'.Path first nodes last := by
  induction nodes generalizing first with
  | nil =>
      rw [Path, Joined] at path ⊢
      rw [next_eq first List.mem_cons_self, last_eq]
      exact path
  | cons node nodes induction =>
      obtain ⟨joined, rest⟩ := path
      refine ⟨?_, induction rest ?_ ?_⟩
      · rw [Joined, next_eq first List.mem_cons_self, prev_eq node List.mem_cons_self]
        exact joined
      · exact fun other member => next_eq other (List.mem_cons_of_mem _ member)
      · exact fun other member => prev_eq other (List.mem_cons_of_mem _ member)

theorem Path.prev_eq :
    links.prev last = some ((first :: nodes).getLast (List.cons_ne_nil _ _)) := by
  induction nodes generalizing first with
  | nil => exact path.2
  | cons node nodes induction =>
      rw [List.getLast_cons_cons]
      exact induction path.2

theorem Path.next_eq : links.next first = some ((nodes ++ [last]).head (by simp)) := by
  cases nodes with
  | nil => exact path.1
  | cons node nodes => exact path.1.1

theorem Path.agree (path' : links'.Path first nodes last) :
    ∀ node ∈ nodes,
      links'.next node = links.next node ∧ links'.prev node = links.prev node := by
  induction nodes generalizing first with
  | nil => exact fun node member => absurd member List.not_mem_nil
  | cons node nodes induction =>
      intro other member
      rcases List.mem_cons.mp member with rfl | member
      · exact ⟨path'.2.next_eq.trans path.2.next_eq.symm, path'.1.2.trans path.1.2.symm⟩
      · exact induction path.2 path'.2 other member

end

theorem Ring.agree {order : List α} (ring : links.Ring header order)
    (ring' : links'.Ring header order) :
    ∀ node ∈ order, links'.next node = links.next node ∧ links'.prev node = links.prev node :=
  ring.path.agree ring'.path

theorem Path.next_ne_none (path : links.Path first nodes last) :
    ∀ node ∈ nodes, links.next node ≠ none := by
  induction nodes generalizing first with
  | nil => exact fun node member => absurd member List.not_mem_nil
  | cons node nodes induction =>
      intro other member
      rcases List.mem_cons.mp member with rfl | member
      · simp [path.2.next_eq]
      · exact induction path.2 other member

variable [DecidableEq α]

/-- `__list_add`. -/
def add (links : Links α) (node prev next : α) : Links α where
  next := Function.update (Function.update links.next node (some next)) prev (some node)
  prev := Function.update (Function.update links.prev next (some node)) node (some prev)

/-- `list_add_head`: add a node after another one.  Nothing is done where a link is null. -/
def addHead (links : Links α) (node head : α) : Links α :=
  match links.next head with
  | some next => links.add node head next
  | none => links

/-- `list_add_tail`: add a node before another one.  Nothing is done where a link is null. -/
def addTail (links : Links α) (node head : α) : Links α :=
  match links.prev head with
  | some prev => links.add node prev head
  | none => links

theorem next_add_of_ne (links : Links α) {node : α} (ne_node : other ≠ node)
    (ne_prev : other ≠ prev) : (links.add node prev next).next other = links.next other :=
  (Function.update_of_ne ne_prev _ _).trans (Function.update_of_ne ne_node _ _)

theorem prev_add_of_ne (links : Links α) {node : α} (ne_node : other ≠ node)
    (ne_next : other ≠ next) : (links.add node prev next).prev other = links.prev other :=
  (Function.update_of_ne ne_node _ _).trans (Function.update_of_ne ne_next _ _)

theorem Path.add {node : α} (path : links.Path first nodes last) (nodup : (first :: nodes).Nodup)
    (fresh : node ∉ first :: nodes) (fresh_last : node ≠ last) (outside : last ∉ nodes)
    (prev_eq : (first :: nodes).getLast (List.cons_ne_nil _ _) = prev) :
    (links.add node prev last).Path first (nodes ++ [node]) last := by
  induction nodes generalizing first with
  | nil =>
      obtain rfl : first = prev := prev_eq
      have ne_first : node ≠ first := by simpa using fresh
      refine ⟨⟨Function.update_self .., Function.update_self ..⟩, ?_, ?_⟩
      · exact (Function.update_of_ne ne_first _ _).trans (Function.update_self ..)
      · exact (Function.update_of_ne fresh_last.symm _ _).trans (Function.update_self ..)
  | cons second nodes induction =>
      rw [List.getLast_cons_cons] at prev_eq
      have prev_mem : prev ∈ second :: nodes := prev_eq ▸ List.getLast_mem _
      obtain ⟨first_fresh, nodup⟩ := List.nodup_cons.mp nodup
      have ne_prev : first ≠ prev := fun equal => first_fresh (equal ▸ prev_mem)
      obtain ⟨ne_first, fresh⟩ := not_or.mp (fun member => fresh (List.mem_cons.mpr member))
      obtain ⟨ne_second, -⟩ := not_or.mp (fun member => fresh (List.mem_cons.mpr member))
      obtain ⟨last_ne, outside⟩ := not_or.mp (fun member => outside (List.mem_cons.mpr member))
      refine ⟨?_, induction path.2 nodup fresh outside prev_eq⟩
      rw [Joined, links.next_add_of_ne (Ne.symm ne_first) ne_prev,
        links.prev_add_of_ne (Ne.symm ne_second) (Ne.symm last_ne)]
      exact path.1

theorem Ring.addTail {node : α} (ring : links.Ring header (front ++ back))
    (fresh : node ∉ header :: (front ++ back)) :
    (links.addTail node ((back ++ [header]).head (by simp))).Ring header
      (front ++ node :: back) where
  path := by
    obtain ⟨header_outside, nodup⟩ := List.nodup_cons.mp ring.nodup
    obtain ⟨nodup_front, nodup_back, apart⟩ := List.nodup_append.mp nodup
    have front_nodup : (header :: front).Nodup :=
      List.nodup_cons.mpr ⟨fun member => header_outside (List.mem_append_left _ member), nodup_front⟩
    have front_fresh : node ∉ header :: front := by
      simp only [List.mem_cons, List.mem_append] at fresh ⊢
      tauto
    cases back with
    | nil =>
        have path : links.Path header front header := by simpa using ring.path
        rw [Links.addTail]
        simp only [List.nil_append, List.head_cons, path.prev_eq]
        exact path.add front_nodup front_fresh (fun equal => fresh (equal ▸ List.mem_cons_self))
          (fun member => header_outside (List.mem_append_left _ member)) rfl
    | cons target back =>
        obtain ⟨path_front, path_back⟩ := (links.path_append _ _ _ _ _).mp ring.path
        rw [Links.addTail]
        simp only [List.cons_append, List.head_cons, path_front.prev_eq]
        have prev_mem := List.getLast_mem (List.cons_ne_nil header front)
        have target_outside : target ∉ front := fun member =>
          apart target member target List.mem_cons_self rfl
        have back_fresh : ∀ other ∈ target :: back, other ≠ node := by
          rintro other member rfl
          exact fresh (List.mem_cons_of_mem _ (List.mem_append_right _ member))
        have front_path := path_front.add front_nodup front_fresh
          (back_fresh target List.mem_cons_self).symm target_outside rfl
        rw [List.append_cons, path_append]
        refine ⟨front_path, path_back.frame ?_ ?_ ?_⟩
        · intro other member
          refine links.next_add_of_ne (back_fresh other member) ?_
          rintro rfl
          rcases List.mem_cons.mp prev_mem with equal | prev_front
          · exact header_outside (List.mem_append_right _ (equal ▸ member))
          · exact apart _ prev_front _ member rfl
        · intro other member
          refine links.prev_add_of_ne (back_fresh other (List.mem_cons_of_mem _ member)) ?_
          rintro rfl
          exact (List.nodup_cons.mp nodup_back).1 member
        · refine links.prev_add_of_ne ?_ ?_
          · rintro rfl
            exact fresh List.mem_cons_self
          · rintro rfl
            exact header_outside (List.mem_append_right _ List.mem_cons_self)
  nodup := by
    have moved : (header :: (front ++ node :: back)).Perm (node :: header :: (front ++ back)) :=
      (List.perm_middle.cons header).trans (List.Perm.swap ..)
    exact moved.nodup_iff.mpr (List.nodup_cons.mpr ⟨fresh, ring.nodup⟩)

/-- Adding a node to a ring changes no links outside the ring. -/
theorem Ring.addTail_frame {node : α} (ring : links.Ring header (front ++ back))
    (outside : other ∉ header :: (front ++ back)) (different : other ≠ node) :
    (links.addTail node ((back ++ [header]).head (by simp))).next other = links.next other ∧
      (links.addTail node ((back ++ [header]).head (by simp))).prev other = links.prev other := by
  have frame {target : α} (path : links.Path header front target) (ne_target : other ≠ target) :
      (links.addTail node target).next other = links.next other ∧
        (links.addTail node target).prev other = links.prev other := by
    have ne_last : other ≠ (header :: front).getLast (List.cons_ne_nil _ _) := by
      rintro equal
      have member := List.getLast_mem (List.cons_ne_nil header front)
      rw [← equal] at member
      exact outside (List.mem_append_left back member)
    rw [Links.addTail]
    simp only [path.prev_eq]
    exact ⟨links.next_add_of_ne different ne_last, links.prev_add_of_ne different ne_target⟩
  cases back with
  | nil =>
      refine frame (by simpa using ring.path) ?_
      rintro rfl
      exact outside List.mem_cons_self
  | cons target back =>
      refine frame ((links.path_append _ _ _ _ _).mp ring.path).1 ?_
      rintro rfl
      exact outside (List.mem_cons_of_mem _ (List.mem_append_right _ List.mem_cons_self))

end Links
end BdkFreertos
