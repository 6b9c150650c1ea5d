import Orbum.Lib.Processes

/-!
# Blocking queues

`utilities/src/Queues.hpp`: a bounded queue under one mutex. A pop waits until there is an item, a push until there
is room.
-/

namespace Orbum

/-- `MpmcQueue<ItemTy, capacity>`. -/
@[ext]
structure MpmcQueue (ItemTy : Type) (capacity : ℕ) where
  /-- The items, the next one to be popped first. -/
  items : List ItemTy
  /-- The capacity of the backing queue. -/
  bounded : items.length ≤ capacity

namespace MpmcQueue

variable {ItemTy : Type} {capacity : ℕ}

/-- The queue after construction. -/
def empty : MpmcQueue ItemTy capacity := ⟨[], Nat.zero_le _⟩

/-- `is_empty()`. -/
def isEmpty (q : MpmcQueue ItemTy capacity) : Bool := q.items.isEmpty

/-- `pop(item)`. -/
def pop (q : MpmcQueue ItemTy capacity) : Except Refusal (ItemTy × MpmcQueue ItemTy capacity) :=
  match q with
  | ⟨[], _⟩ => .error .blocks
  | ⟨item :: items, h⟩ => .ok (item, ⟨items, Nat.le_of_succ_le h⟩)

/-- `push(item)`. -/
def push (q : MpmcQueue ItemTy capacity) (item : ItemTy) : Except Refusal (MpmcQueue ItemTy capacity) :=
  if h : (q.items ++ [item]).length ≤ capacity then .ok ⟨q.items ++ [item], h⟩ else .error .blocks

variable {q q' : MpmcQueue ItemTy capacity} {item : ItemTy}

@[simp] theorem items_empty : (empty : MpmcQueue ItemTy capacity).items = [] := rfl

theorem isEmpty_iff : q.isEmpty = true ↔ q.items = [] := List.isEmpty_iff

theorem items_of_pop (h : q.pop = .ok (item, q')) : q.items = item :: q'.items := by
  obtain ⟨items, hq⟩ := q
  cases items with
  | nil => cases h
  | cons a items =>
    cases h
    rfl

theorem items_of_push (h : q.push item = .ok q') : q'.items = q.items ++ [item] := by
  unfold push at h
  split_ifs at h
  obtain rfl := Except.ok.inj h
  rfl

/-- A pop goes through unless the queue is empty. -/
theorem pop_of_ne_nil (h : q.items ≠ []) : ∃ item q', q.pop = .ok (item, q') := by
  obtain ⟨items, hq⟩ := q
  cases items with
  | nil => exact absurd rfl h
  | cons a items => exact ⟨_, _, rfl⟩

theorem pop_of_nil (h : q.items = []) : q.pop = .error .blocks := by
  obtain ⟨items, hq⟩ := q
  obtain rfl : items = [] := h
  rfl

/-- A push goes through unless the queue is full. -/
theorem push_of_lt (h : q.items.length < capacity) (item : ItemTy) : ∃ q', q.push item = .ok q' := by
  have hlen : (q.items ++ [item]).length ≤ capacity := by
    rw [List.length_append, List.length_singleton]
    exact h
  exact ⟨_, dif_pos hlen⟩

end MpmcQueue

end Orbum
