/-!
# Bounded queue

A first-in first-out queue of limited length. `pushMany` admits a batch as a whole or not at all;
`popMany` takes up to a number of the oldest items. `toList` is the content, oldest first.
-/

namespace MetricRelay

/-- Old items are kept oldest first, young ones newest first. -/
structure BoundedQueue (α : Type) where
  capacity : Nat
  old : List α := []
  young : List α := []
  deriving Repr

namespace BoundedQueue

variable {α : Type}

def empty (capacity : Nat) : BoundedQueue α := { capacity }

/-- The content, oldest first. -/
def toList (q : BoundedQueue α) : List α := q.old ++ q.young.reverse

def size (q : BoundedQueue α) : Nat := q.old.length + q.young.length

def isEmpty (q : BoundedQueue α) : Bool := q.size = 0

/-- Whether the batch was admitted, and the queue after it. -/
def pushMany (q : BoundedQueue α) (batch : List α) : Bool × BoundedQueue α :=
  if q.capacity < q.size + batch.length then (false, q)
  else (true, { q with young := batch.reverse ++ q.young })

/-- The `n` oldest items, or all there are, oldest first. -/
def popMany (q : BoundedQueue α) (n : Nat) : List α × BoundedQueue α :=
  if n ≤ q.old.length then (q.old.take n, { q with old := q.old.drop n })
  else (q.toList.take n, { q with old := q.toList.drop n, young := [] })

@[simp] theorem toList_empty (capacity : Nat) : (empty capacity : BoundedQueue α).toList = [] := rfl

@[simp] theorem length_toList (q : BoundedQueue α) : q.toList.length = q.size := by
  simp [toList, size]

theorem toList_pushMany (q : BoundedQueue α) (batch : List α) :
    (q.pushMany batch).2.toList =
      if q.capacity < q.size + batch.length then q.toList else q.toList ++ batch := by
  unfold pushMany
  split <;> simp [toList]

theorem popMany_fst (q : BoundedQueue α) (n : Nat) : (q.popMany n).1 = q.toList.take n := by
  unfold popMany
  split
  · next h => simp [toList, List.take_append_of_le_length h]
  · rfl

theorem toList_popMany (q : BoundedQueue α) (n : Nat) :
    (q.popMany n).2.toList = q.toList.drop n := by
  unfold popMany
  split
  · next h => simp [toList, List.drop_append_of_le_length h]
  · simp [toList]

theorem size_popMany (q : BoundedQueue α) (n : Nat) : (q.popMany n).2.size = q.size - n := by
  rw [← length_toList, toList_popMany, List.length_drop, length_toList]

theorem length_popMany (q : BoundedQueue α) (n : Nat) : (q.popMany n).1.length = min n q.size := by
  rw [popMany_fst, List.length_take, length_toList]

/-- A batch that does not fit leaves the queue as it is. -/
theorem pushMany_of_lt {q : BoundedQueue α} {batch : List α}
    (h : q.capacity < q.size + batch.length) : q.pushMany batch = (false, q) := if_pos h

/-- A batch that fits goes in as a whole, behind all there is. -/
theorem pushMany_of_le {q : BoundedQueue α} {batch : List α}
    (h : q.size + batch.length ≤ q.capacity) :
    ∃ q', q.pushMany batch = (true, q') ∧ q'.toList = q.toList ++ batch ∧
      q'.capacity = q.capacity := by
  refine ⟨{ q with young := batch.reverse ++ q.young }, if_neg (Nat.not_lt.2 h), ?_, rfl⟩
  simp [toList]

theorem pushMany_fst (q : BoundedQueue α) (batch : List α) :
    (q.pushMany batch).1 = false ↔ q.capacity < q.size + batch.length := by
  unfold pushMany
  split
  · next h => exact iff_of_true rfl h
  · next h => exact iff_of_false (by simp) h

@[simp] theorem capacity_pushMany (q : BoundedQueue α) (batch : List α) :
    (q.pushMany batch).2.capacity = q.capacity := by
  unfold pushMany
  split <;> rfl

@[simp] theorem capacity_popMany (q : BoundedQueue α) (n : Nat) :
    (q.popMany n).2.capacity = q.capacity := by
  unfold popMany
  split <;> rfl

end BoundedQueue

end MetricRelay
