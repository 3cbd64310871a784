import Mathlib.Data.List.Basic
set_option autoImplicit false

/-!
A queue of fixed capacity that refuses what it has no room for.
-/

structure BoundedQueue (α : Type) where
  capacity : Nat
  items : List α
  bounded : items.length ≤ capacity

namespace BoundedQueue

variable {α : Type}

def empty (capacity : Nat) : BoundedQueue α := ⟨capacity,[],Nat.zero_le _⟩

def push (queue : BoundedQueue α) (item : α) : Option (BoundedQueue α) :=
  if h : queue.items.length < queue.capacity then
    some ⟨queue.capacity,queue.items ++ [item],
      by rw [List.length_append,List.length_singleton]; exact h⟩
  else none

def pop (queue : BoundedQueue α) : Option (α × BoundedQueue α) :=
  match queue with
  | ⟨_,[],_⟩ => none
  | ⟨capacity,item :: items,bounded⟩ => some (item,⟨capacity,items,Nat.le_of_succ_le bounded⟩)

@[simp]
theorem empty_items (capacity : Nat) : (empty (α := α) capacity).items = [] := rfl

@[simp]
theorem empty_capacity (capacity : Nat) : (empty (α := α) capacity).capacity = capacity := rfl

theorem push_eq_some {queue after : BoundedQueue α} {item : α} (h : queue.push item = some after) :
    queue.items.length < queue.capacity ∧ after.items = queue.items ++ [item] ∧
      after.capacity = queue.capacity := by
  unfold push at h
  split at h
  · rename_i hroom
    cases h
    exact ⟨hroom,rfl,rfl⟩
  · cases h

theorem push_eq_none {queue : BoundedQueue α} {item : α} :
    queue.push item = none ↔ queue.items.length = queue.capacity := by
  have := queue.bounded
  unfold push
  split <;> simp <;> omega

theorem pop_eq_none {queue : BoundedQueue α} : queue.pop = none ↔ queue.items = [] := by
  obtain ⟨_,items,_⟩ := queue
  cases items <;> simp [pop]

theorem pop_eq_some {queue after : BoundedQueue α} {item : α} (h : queue.pop = some (item,after)) :
    queue.items = item :: after.items ∧ after.capacity = queue.capacity := by
  obtain ⟨_,items,_⟩ := queue
  cases items with
  | nil => cases h
  | cons =>
    cases h
    exact ⟨rfl,rfl⟩

end BoundedQueue
