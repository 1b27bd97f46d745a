/-!
# Bounded queues

A list that never outgrows its capacity.
-/

namespace QnxVirtio
namespace Foundation

structure BoundedQueue (α : Type) (capacity : Nat) where
  items : List α
  bound : items.length <= capacity

namespace BoundedQueue

variable {α : Type} {capacity : Nat}

def empty (α : Type) (capacity : Nat) : BoundedQueue α capacity where
  items := []
  bound := Nat.zero_le _

/-- Append an element, if there is room. -/
def put (q : BoundedQueue α capacity) (a : α) : Option (BoundedQueue α capacity) :=
  if h : q.items.length < capacity then
    some {
      items := q.items ++ [a]
      bound := by
        rw [List.length_append]
        exact h }
  else none

/-- Remove the oldest element, if there is one. -/
def get : BoundedQueue α capacity -> Option (α × BoundedQueue α capacity)
  | ⟨[], _⟩ => none
  | ⟨a :: items, bound⟩ =>
      some (a, { items := items, bound := Nat.le_of_succ_le bound })

theorem put_of_lt {q : BoundedQueue α capacity} (h : q.items.length < capacity)
    (a : α) : exists q', q.put a = some q' ∧ q'.items = q.items ++ [a] := by
  unfold put
  rw [dif_pos h]
  exact ⟨_, rfl, rfl⟩

theorem put_of_full {q : BoundedQueue α capacity} (h : q.items.length = capacity)
    (a : α) : q.put a = none := by
  unfold put
  rw [dif_neg (Nat.not_lt.mpr (Nat.le_of_eq h.symm))]

theorem get_of_nil {q : BoundedQueue α capacity} (h : q.items = []) :
    q.get = none := by
  rcases q with ⟨items, bound⟩
  cases h
  rfl

theorem get_of_cons {q : BoundedQueue α capacity} {a : α} {rest : List α}
    (h : q.items = a :: rest) : exists q', q.get = some (a, q') ∧ q'.items = rest := by
  rcases q with ⟨items, bound⟩
  cases h
  exact ⟨_, rfl, rfl⟩

end BoundedQueue

end Foundation
end QnxVirtio
