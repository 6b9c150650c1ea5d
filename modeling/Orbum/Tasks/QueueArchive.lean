import Mathlib.Data.List.GetD
import Orbum.Common.Primitive
import Orbum.Lib.Except
import Orbum.Lib.Ring
import Orbum.Tasks.MpmcQueue

/-!
# Saved queues

`MpmcQueue::save` and `load` of `Queues.hpp`, which go by the memory of the ring that backs the queue. `save` steps over
the ring as if it were an array of bytes, though the step is of items, and past the end of the ring; and it saves as
many bytes as there are items.

## The model

An item is its bytes. A read past the last slot has no result.
-/

namespace Orbum

/-- An item of `size` bytes, `size` being `sizeof(ItemTy)`. -/
abbrev Item (size : ℕ) := Vector Ubyte size

/-- What a queue is saved as. -/
structure QueueArchive where
  /-- `length`. -/
  length : ℕ
  /-- `data`. -/
  data : List Ubyte

namespace Ring

/-! ### The ring backs the queue -/

section Refinement

variable {ItemTy : Type} {capacity : ℕ} {q q' : Ring ItemTy capacity} {item : ItemTy}

/-- The queue that the ring backs. -/
def toMpmcQueue (q : Ring ItemTy capacity) : MpmcQueue ItemTy capacity :=
  ⟨q.items, Nat.le_trans (Nat.le_of_eq q.length_items) q.readAvailable_le⟩

theorem push_toMpmcQueue (h : q.push item = some q') : q.toMpmcQueue.push item = .ok q'.toMpmcQueue := by
  have hitems := items_push h
  have hlen : (q.items ++ [item]).length ≤ capacity := hitems ▸ q'.toMpmcQueue.bounded
  refine (dif_pos hlen).trans (congrArg Except.ok ?_)
  ext1
  exact hitems.symm

theorem pop_toMpmcQueue (h : q.pop = some (item, q')) : q.toMpmcQueue.pop = .ok (item, q'.toMpmcQueue) := by
  have hitems := items_pop h
  have hne : q.toMpmcQueue.items ≠ [] := fun hnil => List.cons_ne_nil _ _ (hitems.symm.trans hnil)
  obtain ⟨item', q₁, hpop⟩ := MpmcQueue.pop_of_ne_nil hne
  obtain ⟨rfl, htail⟩ := List.cons.inj (hitems.symm.trans (MpmcQueue.items_of_pop hpop))
  rw [hpop]
  congr 2
  ext1
  exact htail.symm

end Refinement

/-! ### Save and load -/

variable {size capacity : ℕ}

/-- `*(&queue.front() + offset)`. -/
def afterFront (q : Ring (Item size) capacity) (offset : ℕ) : Except HostError (Item size) :=
  if h : q.readIndex.val + offset < capacity + 1 then .ok (q.slots ⟨q.readIndex.val + offset, h⟩)
  else .error .outOfBounds

/-- `save(archive)`. -/
def save (q : Ring (Item size) capacity) : Except HostError QueueArchive := do
  let vec ← (List.range q.readAvailable).mapM fun i => q.afterFront (i * size)
  -- `saveBinaryValue` is given the number of items for the number of bytes
  return ⟨q.readAvailable, (vec.flatMap Vector.toList).take vec.length⟩

/-- The items `load` reads, of which those bytes are zero that no byte is loaded for. -/
def loaded (size : ℕ) (archive : QueueArchive) : List (Item size) :=
  (List.range archive.length).map fun i =>
    Vector.ofFn fun j : Fin size => (archive.data.take archive.length).getD (i * size + j) 0

/-- `load(archive)`. -/
def load (archive : QueueArchive) (q : Ring (Item size) capacity) : Ring (Item size) capacity :=
  (empty q.slots).pushAll (loaded size archive)

/-- What is saved and loaded into another queue comes out as it would have. -/
def RoundTrip (q fresh : Ring (Item size) capacity) : Prop :=
  ∃ archive, q.save = .ok archive ∧ ∀ n, popAll n (load archive fresh) = popAll n q

variable {q fresh : Ring (Item size) capacity} {archive : QueueArchive}

/-- Rings are popped alike just if they hold the same items. -/
theorem popAll_eq_iff {q q' : Ring (Item size) capacity} : (∀ n, popAll n q = popAll n q') ↔ q.items = q'.items := by
  constructor
  · intro h
    have hq : q.items.length ≤ q.items.length + q'.items.length := Nat.le_add_right ..
    have hq' : q'.items.length ≤ q.items.length + q'.items.length := Nat.le_add_left ..
    exact (popAll_eq hq).symm.trans ((h _).trans (popAll_eq hq'))
  · intro h n
    induction n generalizing q q' with
    | zero => rfl
    | succ n ih =>
      rw [popAll, popAll]
      cases hpop : q.pop with
      | none =>
        rw [pop_eq_none_iff.mpr (h.symm.trans (pop_eq_none_iff.mp hpop))]
      | some p =>
        have hitems := h.symm.trans (items_pop hpop)
        cases hpop' : q'.pop with
        | none =>
          rw [pop_eq_none_iff.mp hpop'] at hitems
          cases hitems
        | some p' =>
          obtain ⟨hhead, htail⟩ := List.cons.inj ((items_pop hpop').symm.trans hitems)
          exact congrArg₂ List.cons hhead.symm (ih htail.symm)

theorem length_loaded (size : ℕ) (archive : QueueArchive) : (loaded size archive).length = archive.length := by
  rw [loaded, List.length_map, List.length_range]

/-- What is loaded is what the queue holds, as far as there is room. -/
theorem items_load (h : archive.length ≤ capacity) (fresh : Ring (Item size) capacity) :
    (load archive fresh).items = loaded size archive := by
  refine (items_pushAll _ ?_).1.trans ?_
  · rw [items_empty, length_loaded, List.length_nil]
    omega
  · rw [items_empty, List.nil_append]

theorem length_of_save (h : q.save = .ok archive) :
    archive.length = q.readAvailable ∧ archive.data.length ≤ q.readAvailable := by
  obtain ⟨vec, hvec, harchive⟩ := bind_eq_ok_iff.mp h
  obtain rfl := Except.ok.inj harchive
  have hlen : vec.length = q.readAvailable := by
    rw [← (mapM_eq_ok_iff.mp hvec).length_eq, List.length_range]
  exact ⟨rfl, by rw [List.length_take, hlen]; exact Nat.min_le_left _ _⟩

/-- The round trip, of the items. -/
theorem roundTrip_iff : RoundTrip q fresh ↔ ∃ archive, q.save = .ok archive ∧ loaded size archive = q.items := by
  refine exists_congr fun archive => and_congr_right fun hsave => ?_
  have hlen : archive.length ≤ capacity := (length_of_save hsave).1 ▸ q.readAvailable_le
  rw [popAll_eq_iff, items_load hlen]

/-! ### Items of a byte -/

/-- An item is read from the ring where it stands, unless that is past the end. -/
theorem afterFront_of_le {i : ℕ} (hi : i < q.items.length) (h : q.readIndex.val + i < capacity + 1) :
    q.afterFront i = .ok q.items[i] := by
  have hindex : (⟨q.readIndex.val + i, h⟩ : Fin (capacity + 1)) = q.readIndex + Fin.ofNat (capacity + 1) i := by
    ext
    simp [Fin.val_add, Nat.mod_eq_of_lt h]
  rw [afterFront, dif_pos h, getElem_items, hindex]

theorem flatMap_toList (items : List (Item 1)) : items.flatMap Vector.toList = items.map (·[0]) := by
  induction items with
  | nil => rfl
  | cons item items ih =>
    have hitem : item.toList = [item[0]] := by
      refine List.ext_getElem (by simp) fun i hi hi' => ?_
      obtain rfl : i = 0 := by simpa using hi'
      simp
    rw [List.flatMap_cons, ih, hitem, List.singleton_append, List.map_cons]

/-- Single bytes that do not wrap round are saved one by one. -/
theorem save_of_le {q : Ring (Item 1) capacity} (h : q.readIndex.val + q.readAvailable ≤ capacity + 1) :
    q.save = .ok ⟨q.readAvailable, q.items.map (·[0])⟩ := by
  have hvec : ((List.range q.readAvailable).mapM fun i => q.afterFront (i * 1)) = .ok q.items := by
    rw [mapM_eq_ok_iff, List.forall₂_iff_get]
    refine ⟨by rw [List.length_range, length_items], fun i hi hi' => ?_⟩
    rw [length_items] at hi'
    have hlt : q.readIndex.val + i < capacity + 1 := by omega
    rw [List.get_eq_getElem, List.get_eq_getElem, List.getElem_range, Nat.mul_one]
    exact afterFront_of_le _ hlt
  rw [save, hvec, ok_bind, flatMap_toList, List.take_of_length_le (by rw [List.length_map]), pure_eq_ok]

theorem loaded_bytes (items : List (Item 1)) : loaded 1 ⟨items.length, items.map (·[0])⟩ = items := by
  refine List.ext_getElem (length_loaded ..) fun i hi hi' => ?_
  ext j hj
  obtain rfl : j = 0 := by omega
  simp [loaded, hi']

/-- A queue of single bytes makes the round trip just if it does not wrap round. -/
theorem roundTrip_byte_iff {q fresh : Ring (Item 1) capacity} :
    RoundTrip q fresh ↔ q.items.length = 0 ∨ q.readIndex.val + q.items.length ≤ capacity + 1 := by
  have hread := q.readIndex.isLt
  rw [roundTrip_iff, length_items]
  constructor
  · rintro ⟨archive, hsave, -⟩
    by_contra hwrap
    simp only [not_or, not_le] at hwrap
    -- the last item is past the end
    obtain ⟨vec, hvec, -⟩ := bind_eq_ok_iff.mp hsave
    obtain ⟨hlen, hget⟩ := List.forall₂_iff_get.mp (mapM_eq_ok_iff.mp hvec)
    rw [List.length_range] at hlen
    have hlast := hget (q.readAvailable - 1) (by rw [List.length_range]; omega) (by omega)
    have hpast : ¬q.readIndex.val + (q.readAvailable - 1) * 1 < capacity + 1 := by omega
    rw [List.get_eq_getElem, List.getElem_range] at hlast
    exact absurd ((dif_neg hpast).symm.trans hlast) (by simp)
  · intro h
    have hle : q.readIndex.val + q.readAvailable ≤ capacity + 1 := by omega
    refine ⟨_, save_of_le hle, ?_⟩
    rw [← length_items, loaded_bytes]

/-! ### Larger items -/

/-- The last byte of the last item is not loaded. -/
theorem not_roundTrip (hsize : 2 ≤ size) {n : ℕ} (hitems : q.items = List.replicate (n + 1) (Vector.replicate size 0xFF)) :
    ¬RoundTrip q fresh := by
  rw [roundTrip_iff]
  rintro ⟨archive, hsave, hloaded⟩
  obtain ⟨hlen, hdata⟩ := length_of_save hsave
  have hcount : q.readAvailable = n + 1 := by rw [← length_items, hitems, List.length_replicate]
  have hn : n < (loaded size archive).length := by rw [length_loaded, hlen, hcount]; exact Nat.lt_succ_self n
  have hlast : (loaded size archive)[n] = Vector.replicate size 0xFF := by
    simp only [hloaded, hitems, List.getElem_replicate]
  have hbyte := congrArg (fun v : Item size => v[size - 1]) hlast
  have hpast : (archive.data.take archive.length).length ≤ n * size + (size - 1) := by
    have hmul := Nat.mul_le_mul_left n hsize
    rw [List.length_take]
    omega
  simp only [loaded, List.getElem_map, List.getElem_range, Vector.getElem_ofFn, Vector.getElem_replicate,
    List.getD_eq_default _ _ hpast] at hbyte
  cases hbyte

/-- Whatever the queue held, what is saved and loaded comes out as it would have if and only if the queue is empty, or
its items are of one byte and do not wrap round in the ring. -/
theorem round_trip_iff (hsize : 0 < size) {r n : ℕ} (hr : r ≤ capacity) (hn : n ≤ capacity)
    (fresh : Ring (Item size) capacity) :
    (∀ q : Ring (Item size) capacity, q.Reachable → q.readIndex.val = r → q.items.length = n → RoundTrip q fresh) ↔
      n = 0 ∨ size = 1 ∧ r + n ≤ capacity + 1 := by
  have hshape (as : List (Item size)) (has : as.length = n) (hpos : 0 < n) :
      ∃ q : Ring (Item size) capacity, q.Reachable ∧ q.readIndex.val = r ∧ q.items = as := by
    obtain ⟨q, hq, hread, hitems⟩ := exists_reachable as (by omega) (by omega) ⟨r, Nat.lt_succ_of_le hr⟩
    exact ⟨q, hq, congrArg Fin.val hread, hitems⟩
  constructor
  · intro h
    by_contra hnot
    simp only [not_or, not_and, not_le] at hnot
    have hpos : 0 < n := Nat.pos_of_ne_zero hnot.1
    obtain ⟨q, hq, hread, hitems⟩ :=
      hshape (List.replicate n (Vector.replicate size 0xFF)) List.length_replicate hpos
    have hlen : q.items.length = n := by rw [hitems, List.length_replicate]
    have htrip := h q hq hread hlen
    rcases Nat.lt_or_ge 1 size with hlarge | hle
    · obtain ⟨m, rfl⟩ := Nat.exists_eq_add_one_of_ne_zero hnot.1
      exact not_roundTrip hlarge hitems htrip
    · obtain rfl : size = 1 := by omega
      rw [roundTrip_byte_iff, hread, hlen] at htrip
      have := hnot.2 rfl
      omega
  · intro h q _ hread hlen
    rcases h with rfl | ⟨rfl, hle⟩
    · have hzero : q.readAvailable = 0 := by rw [← length_items, hlen]
      refine roundTrip_iff.mpr ⟨⟨0, []⟩, ?_, ?_⟩
      · rw [save, hzero]
        rfl
      · exact (List.length_eq_zero_iff.mp hlen).symm
    · rw [roundTrip_byte_iff, hread, hlen]
      exact Or.inr hle

/-- Five bytes up to the last slot of nine, and five that wrap round. -/
theorem round_trip_iff_lastSlot :
    (∀ q : Ring (Item 1) 8, q.Reachable → q.readIndex.val = 4 → q.items.length = 5 →
      RoundTrip q (empty fun _ => Vector.replicate 1 0)) ∧
    ¬∀ q : Ring (Item 1) 8, q.Reachable → q.readIndex.val = 5 → q.items.length = 5 →
      RoundTrip q (empty fun _ => Vector.replicate 1 0) :=
  ⟨(round_trip_iff (by decide) (by decide) (by decide) _).mpr (by decide), fun h =>
    absurd ((round_trip_iff (by decide) (by decide) (by decide) _).mp h) (by decide)⟩

/-- Two bytes of a `DmaFifoQueue` after 1024 others: the second is in the first slot, and is looked for behind the last. -/
theorem wrapped_bytes_lost : ∃ q : Ring (Item 1) 1024, q.Reachable ∧ q.readIndex.val = 1024 ∧
    q.items = [Vector.replicate 1 0xAB, Vector.replicate 1 0xCD] ∧ ∀ fresh, ¬RoundTrip q fresh := by
  have hexists := exists_reachable (α := Item 1) [Vector.replicate 1 0xAB, Vector.replicate 1 0xCD]
    (show 0 < 1024 by decide) (show 2 ≤ 1024 by decide) ⟨1024, by decide⟩
  obtain ⟨q, hq, hread, hitems⟩ := hexists
  refine ⟨q, hq, congrArg Fin.val hread, hitems, fun fresh h => ?_⟩
  rw [roundTrip_byte_iff, hread, hitems] at h
  exact absurd h (by decide)

end Ring

end Orbum
