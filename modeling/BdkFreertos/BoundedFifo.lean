import BdkFreertos.Machine

/-!
# Bounded first-in first-out queues

The abstract behaviour of a byte ring: a block is accepted whole or not at all, a request takes as
much as there is, and the bound cannot be exceeded.  Along every run, what has been taken followed
by what is still queued is what has been accepted.
-/

namespace BdkFreertos

/-- A queue of at most `limit` items. -/
structure BoundedFifo (Item : Type*) (limit : ℕ) where
  items : List Item
  bounded : items.length ≤ limit

namespace BoundedFifo

variable {Item : Type*} {limit : ℕ}

/-- A request to the queue. -/
inductive Command (Item : Type*)
  | offer (block : List Item)
  | poll (count : ℕ)

/-- The answer to a request. -/
inductive Answer (Item : Type*)
  | accepted (block : List Item)
  | taken (block : List Item)

/-- The queue with no items. -/
def empty : BoundedFifo Item limit where
  items := []
  bounded := Nat.zero_le limit

def room (queue : BoundedFifo Item limit) : ℕ :=
  limit - queue.items.length

/-- Append a block when it fits. -/
def offer (queue : BoundedFifo Item limit) (block : List Item) :
    BoundedFifo Item limit × Answer Item :=
  if fits : block.length ≤ queue.room then
    ({ items := queue.items ++ block
       bounded := by
        have := queue.bounded
        simp only [room, List.length_append] at fits ⊢
        omega }, .accepted block)
  else
    (queue, .accepted [])

/-- Take items from the front. -/
def poll (queue : BoundedFifo Item limit) (count : ℕ) :
    BoundedFifo Item limit × Answer Item :=
  ({ items := queue.items.drop count
     bounded := by
      have := queue.bounded
      rw [List.length_drop]
      omega }, .taken (queue.items.take count))

/-- The queue as a machine. -/
def machine (Item : Type*) (limit : ℕ) :
    Machine (BoundedFifo Item limit) (Command Item) (Answer Item) where
  step queue
    | .offer block => queue.offer block
    | .poll count => queue.poll count

/-- The items that entered the queue over a run's answers. -/
def acceptedItems : List (Answer Item) → List Item
  | [] => []
  | .accepted block :: answers => block ++ acceptedItems answers
  | .taken _ :: answers => acceptedItems answers

/-- The items that left the queue over a run's answers. -/
def takenItems : List (Answer Item) → List Item
  | [] => []
  | .accepted _ :: answers => takenItems answers
  | .taken block :: answers => block ++ takenItems answers

variable (answer : Answer Item) (queue : BoundedFifo Item limit) (answers : List (Answer Item))

theorem step_balance (command : Command Item) :
    queue.items ++ acceptedItems [((machine Item limit).step queue command).2] =
      takenItems [((machine Item limit).step queue command).2] ++
        ((machine Item limit).step queue command).1.items := by
  cases command with
  | offer block =>
      simp only [machine, offer]
      split <;> simp [acceptedItems, takenItems]
  | poll count => simp [machine, poll, acceptedItems, takenItems]

theorem acceptedItems_cons :
    acceptedItems (answer :: answers) = acceptedItems [answer] ++ acceptedItems answers := by
  cases answer <;> simp [acceptedItems]

theorem takenItems_cons :
    takenItems (answer :: answers) = takenItems [answer] ++ takenItems answers := by
  cases answer <;> simp [takenItems]

/-- Along every run, what was queued followed by what entered is what left followed by what is
still queued. -/
theorem run_balance (commands : List (Command Item)) :
    queue.items ++ acceptedItems ((machine Item limit).outputs queue commands) =
      takenItems ((machine Item limit).outputs queue commands) ++
        ((machine Item limit).run queue commands).items := by
  induction commands generalizing queue with
  | nil => simp [acceptedItems, takenItems]
  | cons command commands induction =>
      rw [Machine.outputs_cons, Machine.run_cons, acceptedItems_cons, takenItems_cons,
        ← List.append_assoc, step_balance, List.append_assoc, induction, List.append_assoc]

/-! ## Queues that take what fits -/

/-- A request to a queue that takes as much of a block as it has room for. -/
inductive Request (Item : Type*)
  /-- Append as much of a block as fits. -/
  | fill (block : List Item)
  | poll (count : ℕ)
  /-- Look at so many items at most. -/
  | peek (count : ℕ)

/-- The answer to such a request. -/
inductive Response (Item : Type*)
  | filled (block : List Item)
  | taken (block : List Item)
  | seen (block : List Item)

/-- Append the front of a block, as much as there is room for. -/
def fill (queue : BoundedFifo Item limit) (block : List Item) : BoundedFifo Item limit where
  items := queue.items ++ block.take queue.room
  bounded := by
    have := queue.bounded
    simp only [room, List.length_append, List.length_take]
    omega

/-- The queue as a machine over these requests. -/
def stream (Item : Type*) (limit : ℕ) :
    Machine (BoundedFifo Item limit) (Request Item) (Response Item) where
  step queue
    | .fill block => (queue.fill block, .filled (block.take queue.room))
    | .poll count => ((queue.poll count).1, .taken (queue.items.take count))
    | .peek count => (queue, .seen (queue.items.take count))

/-- The items that entered the queue over a run's responses. -/
def filledItems : List (Response Item) → List Item
  | [] => []
  | .filled block :: responses => block ++ filledItems responses
  | _ :: responses => filledItems responses

/-- The items that left the queue over a run's responses. -/
def polledItems : List (Response Item) → List Item
  | [] => []
  | .taken block :: responses => block ++ polledItems responses
  | _ :: responses => polledItems responses

/-- Along every run, what was queued followed by what entered is what left followed by what is
still queued. -/
theorem stream_balance (requests : List (Request Item)) :
    queue.items ++ filledItems ((stream Item limit).outputs queue requests) =
      polledItems ((stream Item limit).outputs queue requests) ++
        ((stream Item limit).run queue requests).items := by
  induction requests generalizing queue with
  | nil => simp [filledItems, polledItems]
  | cons request requests induction =>
      rw [Machine.outputs_cons, Machine.run_cons]
      cases request with
      | fill block =>
          have balance := induction (queue.fill block)
          rw [fill, List.append_assoc] at balance
          exact balance
      | poll count =>
          have balance := induction (queue.poll count).1
          have front := congrArg (queue.items.take count ++ ·) balance
          simp only [poll, ← List.append_assoc, List.take_append_drop] at front
          exact front
      | peek count => exact induction queue

/-! ## Queues that keep the newest items -/

/-- A request to a queue which makes room for a new item by dropping its oldest. -/
inductive Demand (Item : Type*)
  | arrive (item : Item)
  | remove

/-- Append an item and keep as many of the newest ones as the limit allows. -/
def arrive (queue : BoundedFifo Item limit) (item : Item) : BoundedFifo Item limit where
  items := (queue.items ++ [item]).drop (queue.items.length + 1 - limit)
  bounded := by
    simp only [List.length_drop, List.length_append, List.length_singleton]
    omega

/-- The queue as a machine over these requests.  Each answer lists the items that leave, marked with
whether a request took them or the limit dropped them. -/
def newest (Item : Type*) (limit : ℕ) :
    Machine (BoundedFifo Item limit) (Demand Item) (List (Item × Bool)) where
  step queue
    | .arrive item =>
        (queue.arrive item,
          ((queue.items ++ [item]).take (queue.items.length + 1 - limit)).map fun gone =>
            (gone, false))
    | .remove => ((queue.poll 1).1, (queue.items.take 1).map fun gone => (gone, true))

/-- The items that arrive over a run's requests. -/
def arrivals : List (Demand Item) → List Item
  | [] => []
  | .arrive item :: demands => item :: arrivals demands
  | .remove :: demands => arrivals demands

theorem arrivals_append (front back : List (Demand Item)) :
    arrivals (front ++ back) = arrivals front ++ arrivals back := by
  induction front with
  | nil => rfl
  | cons demand demands induction => cases demand <;> simp [arrivals, induction]

theorem arrive_of_lt {queue : BoundedFifo Item limit} (room : queue.items.length < limit)
    (item : Item) : (queue.arrive item).items = queue.items ++ [item] := by
  have nothing : queue.items.length + 1 - limit = 0 := Nat.sub_eq_zero_of_le room
  simp [arrive, nothing]

theorem arrive_of_full {queue : BoundedFifo Item limit} (full : queue.items.length = limit)
    (positive : 0 < limit) (item : Item) :
    (queue.arrive item).items = queue.items.tail ++ [item] := by
  have one : queue.items.length + 1 - limit = 1 := by omega
  simp only [arrive, one, List.drop_one]
  exact List.tail_append_of_ne_nil (List.ne_nil_of_length_pos (by omega))

theorem leaving_of_lt {queue : BoundedFifo Item limit} (room : queue.items.length < limit)
    (item : Item) : ((newest Item limit).step queue (.arrive item)).2 = [] := by
  have nothing : queue.items.length + 1 - limit = 0 := Nat.sub_eq_zero_of_le room
  simp [newest, nothing]

theorem leaving_of_full {queue : BoundedFifo Item limit} {oldest : Item} {rest : List Item}
    (items : queue.items = oldest :: rest) (full : queue.items.length = limit) (item : Item) :
    ((newest Item limit).step queue (.arrive item)).2 = [(oldest, false)] := by
  have one : queue.items.length + 1 - limit = 1 := by omega
  simp only [newest, one]
  rw [items]
  rfl

/-- Along every run, what was queued followed by what arrived is what left followed by what is
still queued. -/
theorem newest_balance (demands : List (Demand Item)) :
    queue.items ++ arrivals demands =
      (((newest Item limit).outputs queue demands).flatten).map Prod.fst ++
        ((newest Item limit).run queue demands).items := by
  induction demands generalizing queue with
  | nil => simp [arrivals]
  | cons demand demands induction =>
      rw [Machine.outputs_cons, Machine.run_cons, List.flatten_cons, List.map_append,
        List.append_assoc, ← induction]
      cases demand with
      | arrive item =>
          simp only [newest, arrive, arrivals, List.map_map, Function.comp_def, List.map_id',
            ← List.append_assoc, List.take_append_drop]
          simp
      | remove =>
          simp only [newest, poll, arrivals, List.map_map, Function.comp_def, List.map_id',
            ← List.append_assoc, List.take_append_drop]

end BoundedFifo
end BdkFreertos
