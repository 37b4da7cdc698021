import Mathlib.Algebra.BigOperators.Fin
import Mathlib.Data.List.FinRange

/-!
# Items that pass through one of several lanes

An item is submitted, may wait in a lane, and is delivered or dropped.  `collect` gathers all lanes
into one list, so that an account of the items can be kept by counting.  `InOrder` is the discipline
of one lane: what was delivered, what is held at the front, what waits and what is held at the back
follow one another in the order of submission.
-/

namespace BdkFreertos

variable {Item : Type*}

def collect {n : ℕ} (lanes : Fin n → List Item) : List Item :=
  (List.finRange n).flatMap lanes

theorem mem_collect {n : ℕ} {lanes : Fin n → List Item} {item : Item} :
    item ∈ collect lanes ↔ ∃ lane, item ∈ lanes lane := by
  simp [collect]

variable [DecidableEq Item]

theorem count_collect_update {n : ℕ} (lanes : Fin n → List Item) (lane : Fin n)
    (items : List Item) (item : Item) :
    (collect (Function.update lanes lane items)).count item + (lanes lane).count item =
      (collect lanes).count item + items.count item := by
  have total : ∀ lanes : Fin n → List Item,
      (collect lanes).count item = ∑ other, (lanes other).count item := by
    intro lanes
    rw [collect, List.count_flatMap, Fin.sum_univ_def]
    rfl
  have updated : ∀ other, (Function.update lanes lane items other).count item =
      Function.update (fun other => (lanes other).count item) lane (items.count item) other := by
    intro other
    by_cases same : other = lane
    · subst same
      simp
    · simp [same]
  rw [total, total, Finset.sum_congr rfl fun other _ => updated other,
    Finset.sum_update_of_mem (Finset.mem_univ lane),
    ← Finset.add_sum_erase Finset.univ _ (Finset.mem_univ lane), Finset.sdiff_singleton_eq_erase]
  omega

/-- What was delivered of a lane's items, the item `taken` from its front, what waits, and the item
`fresh` that is about to join come in the order of submission. -/
def InOrder (mine delivered waiting taken fresh : List Item) : Prop :=
  ((delivered ++ taken).filter (· ∈ mine) ++ waiting ++ fresh.filter (· ∈ mine)).Sublist mine

namespace InOrder

variable {mine delivered waiting taken fresh : List Item} {item : Item}

theorem nil : InOrder ([] : List Item) [] [] [] [] := List.Sublist.refl []

theorem submit (ordered : InOrder mine delivered waiting [] [])
    (unknown : item ∉ delivered) : InOrder (mine ++ [item]) delivered waiting [] [item] := by
  have same : delivered.filter (· ∈ mine ++ [item]) = delivered.filter (· ∈ mine) := by
    apply List.filter_congr
    intro other member
    have different : other ≠ item := fun same => unknown (same ▸ member)
    simp [different]
  simp only [InOrder, List.append_nil, List.filter_nil, same] at ordered ⊢
  exact ordered.append (List.filter_sublist)

theorem submitOther (ordered : InOrder mine delivered waiting [] []) (other : item ∉ mine) :
    InOrder mine delivered waiting [] [item] := by
  simpa [InOrder, other] using ordered

theorem shrink {fewer : List Item} (ordered : InOrder mine delivered waiting taken fresh)
    (dropped : fewer.Sublist waiting) : InOrder mine delivered fewer taken fresh := by
  refine List.Sublist.trans ?_ ordered
  exact (List.Sublist.append_left dropped _).append_right _

theorem join (ordered : InOrder mine delivered waiting [] [item]) (known : item ∈ mine) :
    InOrder mine delivered (waiting ++ [item]) [] [] := by
  simpa [InOrder, known] using ordered

theorem drop (ordered : InOrder mine delivered waiting taken fresh) :
    InOrder mine delivered waiting [] [] := by
  refine List.Sublist.trans ?_ ordered
  simp only [List.append_nil, List.filter_nil, List.filter_append, List.append_assoc]
  refine List.Sublist.append_left ?_ _
  refine List.Sublist.trans ?_ (List.sublist_append_right _ _)
  exact List.sublist_append_left _ _

theorem take {rest : List Item} (ordered : InOrder mine delivered (item :: rest) [] []) :
    InOrder mine delivered rest [item] [] := by
  have known : item ∈ mine := by
    apply List.Sublist.subset ordered
    simp
  simpa [InOrder, known] using ordered

theorem takeOther (ordered : InOrder mine delivered waiting [] []) (other : item ∉ mine) :
    InOrder mine delivered waiting [item] [] := by
  simpa [InOrder, other] using ordered

theorem deliverTaken (ordered : InOrder mine delivered waiting [item] []) :
    InOrder mine (delivered ++ [item]) waiting [] [] := by
  simpa [InOrder] using ordered

theorem deliverFresh (ordered : InOrder mine delivered waiting [] [item])
    (alone : item ∈ mine → waiting = []) : InOrder mine (delivered ++ [item]) waiting [] [] := by
  by_cases known : item ∈ mine
  · have empty := alone known
    subst empty
    simpa [InOrder, known] using ordered
  · simpa [InOrder, known] using ordered

end InOrder
end BdkFreertos
