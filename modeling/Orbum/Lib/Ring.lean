import Mathlib.Data.Fin.Basic
import Mathlib.Algebra.Group.Fin.Basic
import Mathlib.Tactic.Common

/-!
# Ring buffers

A ring of one slot more than its capacity, with an index of the next slot to be read and one of the next slot to be
written; the ring is empty where they meet. Indices are modulo the size of the ring.

## What is proved

* `items_push`, `items_pop` — the ring is a first in, first out queue of its items.
* `popAll_eq`, `items_pushAll` — the same of pops and pushes in a row.
* `exists_reachable` — any items for which there is room can stand at any place in the ring.
-/

namespace Orbum

/-- A ring buffer. -/
structure Ring (α : Type) (capacity : ℕ) where
  /-- The slots. -/
  slots : Fin (capacity + 1) → α
  /-- The slot to be read next. -/
  readIndex : Fin (capacity + 1)
  /-- The slot to be written next. -/
  writeIndex : Fin (capacity + 1)

namespace Ring

variable {α : Type} {capacity : ℕ}

/-- The empty ring, its slots being what they are. -/
def empty (slots : Fin (capacity + 1) → α) : Ring α capacity := ⟨slots, 0, 0⟩

/-- How many items there are. -/
def readAvailable (q : Ring α capacity) : ℕ := (q.writeIndex - q.readIndex).val

/-- Appends an item, if there is room. -/
def push (q : Ring α capacity) (a : α) : Option (Ring α capacity) :=
  if q.writeIndex + 1 = q.readIndex then none
  else some { q with slots := Function.update q.slots q.writeIndex a, writeIndex := q.writeIndex + 1 }

/-- Takes the first item, if there is one. -/
def pop (q : Ring α capacity) : Option (α × Ring α capacity) :=
  if q.writeIndex = q.readIndex then none
  else some (q.slots q.readIndex, { q with readIndex := q.readIndex + 1 })

/-- The items, the next one to be popped first. -/
def items (q : Ring α capacity) : List α :=
  (List.range q.readAvailable).map fun k => q.slots (q.readIndex + Fin.ofNat (capacity + 1) k)

/-- What is popped, item by item, for as long as there is something. -/
def popAll : ℕ → Ring α capacity → List α
  | 0, _ => []
  | n + 1, q =>
    match q.pop with
    | none => []
    | some (a, q) => a :: popAll n q

/-- Pushes one item after the other, those for which there is room. -/
def pushAll (q : Ring α capacity) (as : List α) : Ring α capacity := as.foldl (fun q a => (q.push a).getD q) q

variable {q q' : Ring α capacity} {a : α}

@[simp] theorem length_items (q : Ring α capacity) : q.items.length = q.readAvailable := by
  rw [items, List.length_map, List.length_range]

theorem readAvailable_le (q : Ring α capacity) : q.readAvailable ≤ capacity :=
  Nat.le_of_lt_succ (q.writeIndex - q.readIndex).isLt

theorem readAvailable_eq_zero_iff : q.readAvailable = 0 ↔ q.writeIndex = q.readIndex := by
  rw [readAvailable, Fin.val_eq_zero_iff, sub_eq_zero]

theorem getElem_items {k : ℕ} (hk : k < q.items.length) :
    q.items[k] = q.slots (q.readIndex + Fin.ofNat (capacity + 1) k) := by
  simp [items]

@[simp] theorem items_empty (slots : Fin (capacity + 1) → α) : (empty slots).items = [] := by
  rw [← List.length_eq_zero_iff, length_items, readAvailable_eq_zero_iff]
  rfl

/-- A slot of the ring, counted from the one to be read. -/
theorem slot_eq_iff (r w : Fin (capacity + 1)) {k : ℕ} (hk : k < capacity + 1) :
    r + Fin.ofNat (capacity + 1) k = w ↔ k = (w - r).val := by
  rw [← eq_sub_iff_add_eq', Fin.ext_iff, Fin.val_ofNat, Nat.mod_eq_of_lt hk]

/-- The ring is full just before the write index comes round to the read index. -/
theorem sub_eq_last_iff (r w : Fin (capacity + 1)) : (w - r).val = capacity ↔ w + 1 = r := by
  have hlast : Fin.last capacity = -1 := by rw [eq_neg_iff_add_eq_zero, Fin.last_add_one]
  have hval : (w - r).val = capacity ↔ w - r = Fin.last capacity := by rw [Fin.ext_iff, Fin.val_last]
  rw [hval, hlast, sub_eq_iff_eq_add, neg_add_eq_sub, eq_sub_iff_add_eq]

/-- There is room for an item unless the ring is full. -/
theorem push_of_lt (h : q.items.length < capacity) (a : α) : ∃ q', q.push a = some q' := by
  rw [length_items, readAvailable] at h
  exact ⟨_, if_neg fun heq => Nat.ne_of_lt h ((sub_eq_last_iff _ _).mpr heq)⟩

theorem val_sub_add_one {r w : Fin (capacity + 1)} (h : w + 1 ≠ r) : (w + 1 - r).val = (w - r).val + 1 := by
  rw [add_sub_right_comm]
  refine Fin.val_add_one_of_lt (Fin.lt_last_iff_ne_last.mpr fun heq => h ?_)
  rw [← sub_eq_last_iff, heq, Fin.val_last]

/-- A push appends the item. -/
theorem items_push (h : q.push a = some q') : q'.items = q.items ++ [a] := by
  unfold push at h
  split_ifs at h with hfull
  obtain rfl := Option.some.inj h
  have hlen : (q.writeIndex + 1 - q.readIndex).val = q.readAvailable + 1 := val_sub_add_one hfull
  rw [items, readAvailable, hlen, List.range_succ, List.map_append, items, List.map_singleton]
  congr 1
  · refine List.map_congr_left fun k hk => Function.update_of_ne ?_ _ _
    have hk := List.mem_range.mp hk
    have hsize : k < capacity + 1 := Nat.lt_of_lt_of_le hk (Nat.le_succ_of_le q.readAvailable_le)
    rw [Ne, slot_eq_iff _ _ hsize]
    exact Nat.ne_of_lt hk
  · rw [(slot_eq_iff _ _ (Nat.lt_succ_of_le q.readAvailable_le)).mpr rfl]
    exact congrArg (fun b => [b]) (Function.update_self q.writeIndex a q.slots)

/-- A pop takes the first item. -/
theorem items_pop (h : q.pop = some (a, q')) : q.items = a :: q'.items := by
  unfold pop at h
  split_ifs at h with hempty
  obtain ⟨rfl, rfl⟩ := Prod.mk.inj (Option.some.inj h)
  have hlen : q.readAvailable = (q.writeIndex - (q.readIndex + 1)).val + 1 := by
    have hone := val_sub_add_one (r := q.readIndex + 1) (w := q.writeIndex) (by simpa using hempty)
    rw [readAvailable, ← hone, add_sub_add_right_eq_sub]
  rw [items, hlen, List.range_succ_eq_map, List.map_cons, List.map_map, items, readAvailable]
  congr 1
  · rw [show Fin.ofNat (capacity + 1) 0 = 0 from rfl, add_zero]
  · refine List.map_congr_left fun k _ => congrArg q.slots ?_
    have hsucc : Fin.ofNat (capacity + 1) (k + 1) = 1 + Fin.ofNat (capacity + 1) k := by
      ext
      simp [Fin.val_add, Nat.add_comm]
    change q.readIndex + Fin.ofNat (capacity + 1) (k + 1) = q.readIndex + 1 + Fin.ofNat (capacity + 1) k
    rw [hsucc, add_assoc]

/-- There is nothing to pop in an empty ring. -/
theorem pop_eq_none_iff : q.pop = none ↔ q.items = [] := by
  rw [← List.length_eq_zero_iff, length_items, readAvailable_eq_zero_iff, pop]
  split_ifs with h
  · exact iff_of_true rfl h
  · exact iff_of_false (by simp) h

/-- The items come out in their order. -/
theorem popAll_eq {n : ℕ} (h : q.items.length ≤ n) : popAll n q = q.items := by
  induction n generalizing q with
  | zero => exact (List.length_eq_zero_iff.mp (Nat.le_zero.mp h)).symm
  | succ n ih =>
    rw [popAll]
    cases hpop : q.pop with
    | none => exact (pop_eq_none_iff.mp hpop).symm
    | some p =>
      have hitems := items_pop hpop
      rw [hitems] at h ⊢
      exact congrArg (p.1 :: ·) (ih (Nat.le_of_succ_le_succ h))

/-- Items for which there is room stand behind those there are. -/
theorem items_pushAll (as : List α) (h : q.items.length + as.length ≤ capacity) :
    (q.pushAll as).items = q.items ++ as ∧ (q.pushAll as).readIndex = q.readIndex := by
  induction as generalizing q with
  | nil => exact ⟨(List.append_nil _).symm, rfl⟩
  | cons a as ih =>
    rw [List.length_cons] at h
    obtain ⟨q', hq'⟩ := push_of_lt (q := q) (by omega) a
    have hitems := items_push hq'
    have hread : q'.readIndex = q.readIndex := by
      unfold push at hq'
      split_ifs at hq'
      rw [← Option.some.inj hq']
    obtain ⟨htail, hreadTail⟩ := ih (q := q') (by rw [hitems, List.length_append, List.length_singleton]; omega)
    rw [pushAll, List.foldl_cons, hq', Option.getD_some]
    exact ⟨htail.trans (by rw [hitems, List.append_assoc, List.singleton_append]), hreadTail.trans hread⟩

/-! ### Rings in use -/

/-- What pushes and pops make of an empty ring. -/
inductive Reachable : Ring α capacity → Prop
  | empty (slots : Fin (capacity + 1) → α) : Reachable (empty slots)
  | push {q q' : Ring α capacity} {a : α} (hq : Reachable q) (h : q.push a = some q') : Reachable q'
  | pop {q q' : Ring α capacity} {a : α} (hq : Reachable q) (h : q.pop = some (a, q')) : Reachable q'

theorem Reachable.getD_push (h : q.Reachable) (a : α) : ((q.push a).getD q).Reachable := by
  cases hpush : q.push a with
  | none => exact h
  | some q' => exact h.push hpush

theorem Reachable.pushAll (h : q.Reachable) (as : List α) : (q.pushAll as).Reachable := by
  induction as generalizing q with
  | nil => exact h
  | cons a as ih => exact ih (h.getD_push a)

/-- The empty ring at any place. -/
theorem exists_reachable_nil [Inhabited α] (hpos : 0 < capacity) (n : ℕ) :
    ∃ q : Ring α capacity, q.Reachable ∧ q.readIndex = Fin.ofNat (capacity + 1) n ∧ q.items = [] := by
  induction n with
  | zero => exact ⟨empty fun _ => default, .empty _, rfl, items_empty _⟩
  | succ n ih =>
    obtain ⟨q, hq, hread, hitems⟩ := ih
    obtain ⟨q₁, h₁⟩ := push_of_lt (q := q) (by rw [hitems]; exact hpos) default
    have hitems₁ := items_push h₁
    cases hpop : q₁.pop with
    | none =>
      rw [pop_eq_none_iff.mp hpop, hitems] at hitems₁
      cases hitems₁
    | some p =>
      obtain ⟨a, q₂⟩ := p
      have hitems₂ := items_pop hpop
      rw [hitems₁, hitems, List.nil_append] at hitems₂
      refine ⟨q₂, (hq.push h₁).pop hpop, ?_, (List.cons.inj hitems₂).2.symm⟩
      unfold push at h₁
      unfold pop at hpop
      split_ifs at h₁ hpop
      obtain rfl := Option.some.inj h₁
      obtain ⟨-, rfl⟩ := Prod.mk.inj (Option.some.inj hpop)
      change q.readIndex + 1 = _
      rw [hread]
      ext
      simp [Fin.val_add]

/-- Any items for which there is room, at any place. -/
theorem exists_reachable [Inhabited α] (as : List α) (hpos : 0 < capacity) (h : as.length ≤ capacity)
    (r : Fin (capacity + 1)) : ∃ q : Ring α capacity, q.Reachable ∧ q.readIndex = r ∧ q.items = as := by
  obtain ⟨q, hq, hread, hitems⟩ := exists_reachable_nil (α := α) hpos r.val
  obtain ⟨hall, hreadAll⟩ := items_pushAll (q := q) as (by rw [hitems, List.length_nil]; omega)
  refine ⟨q.pushAll as, hq.pushAll as, hreadAll.trans (hread.trans ?_), by rw [hall, hitems, List.nil_append]⟩
  ext
  exact Nat.mod_eq_of_lt r.isLt

end Ring

end Orbum
