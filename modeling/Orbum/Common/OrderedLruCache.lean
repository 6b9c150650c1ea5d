import Orbum.Common.Primitive
import Orbum.Lib.Recency
import Orbum.Lib.Run

/-!
# The ordered LRU cache

`OrderedLruCache` of `Caches.hpp` keeps its entries in the order of their last use. An insertion moves all entries one
back. A hit should move those before the entry found; it moves all of these but the last, which is overwritten by the
one before it, and so is lost, while the entry found stays where it is as well.

## The model

The array and its fill count are one list. What has been done to the cache is recorded beside it.
-/

namespace Orbum

open Recency

/-- `std::move_backward(begin + first, begin + last, begin + dLast)`. -/
def moveBackward {α : Type} (first last dLast : ℕ) (es : List α) : List α :=
  es.take (dLast - (last - first)) ++ (es.drop first).take (last - first) ++ es.drop dLast

theorem length_moveBackward {α : Type} {first last dLast : ℕ} {es : List α} (hf : first ≤ last) (hl : last ≤ dLast)
    (hd : dLast ≤ es.length) : (moveBackward first last dLast es).length = es.length := by
  simp only [moveBackward, List.length_append, List.length_take, List.length_drop]
  omega

/-- All but one entry moved one back, and a new one put first. -/
theorem set_moveBackward {α : Type} {n : ℕ} {es : List α} (h : n < es.length) (x : α) :
    (moveBackward 0 n (n + 1) es).set 0 x = x :: (es.take n ++ es.drop (n + 1)) := by
  cases es with
  | nil => cases h
  | cons e es => simp [moveBackward]

/-- `OrderedLruCache<Size, KeyTy, ValueTy>`. -/
structure OrderedLruCache (size : ℕ) (κ ν : Type) where
  /-- The entries in use: key and value. -/
  cache : List (κ × ν)
  /-- The array is never overrun. -/
  length_le : cache.length ≤ size

namespace OrderedLruCache

variable {size : ℕ} {κ ν : Type} [DecidableEq κ]

/-- The empty cache. -/
def new (size : ℕ) (κ ν : Type) : OrderedLruCache size κ ν := ⟨[], Nat.zero_le _⟩

/-- The index of the first entry for `key`, or the number of entries. -/
def position (c : OrderedLruCache size κ ν) (key : κ) : ℕ := c.cache.findIdx (·.1 = key)

/-- Moves the entry at an index to the front. -/
def toFront (c : OrderedLruCache size κ ν) (i : ℕ) (hi : i < c.cache.length) (key : κ) (value : ν) :
    OrderedLruCache size κ ν :=
  if i = 0 then c
  else ⟨(moveBackward 0 (i - 1) i c.cache).set 0 (key, value), by
    rw [List.length_set, length_moveBackward (by omega) (by omega) (by omega)]
    exact c.length_le⟩

/-- `get(key)`, with the cache after it. -/
def get (c : OrderedLruCache size κ ν) (key : κ) : Option ν × OrderedLruCache size κ ν :=
  if h : c.position key < c.cache.length then
    let value := (c.cache.get ⟨c.position key, h⟩).2
    (some value, c.toFront (c.position key) h key value)
  else (none, c)

/-- `insert(key, value)`. -/
def insert (c : OrderedLruCache size κ ν) (key : κ) (value : ν) : OrderedLruCache size κ ν :=
  if h : c.cache.length < size then
    -- the slot behind the entries in use is overwritten
    ⟨(moveBackward 0 c.cache.length (c.cache.length + 1) (c.cache ++ [(key, value)])).set 0 (key, value), by
      rw [List.length_set, length_moveBackward (by omega) (by omega) (by simp), List.length_append]
      exact h⟩
  else
    ⟨(moveBackward 0 (c.cache.length - 1) c.cache.length c.cache).set 0 (key, value), by
      rw [List.length_set, length_moveBackward (by omega) (by omega) (by omega)]
      exact c.length_le⟩

variable {c : OrderedLruCache size κ ν} {key : κ} {value : ν}

/-! ### The entries after an operation -/

omit [DecidableEq κ] in
/-- An insertion puts its entry before the others, and drops the last of a full cache. -/
theorem cache_insert (hsize : 0 < size) : (c.insert key value).cache = (key, value) :: c.cache.take (size - 1) := by
  have hlen := c.length_le
  unfold insert
  split_ifs with hroom
  · dsimp only
    rw [set_moveBackward (by simp), List.take_left, List.drop_eq_nil_of_le (by simp), List.append_nil,
      List.take_of_length_le (by omega)]
  · obtain ⟨n, hn⟩ : ∃ n, c.cache.length = n + 1 := ⟨c.cache.length - 1, by omega⟩
    dsimp only
    rw [hn, Nat.add_sub_cancel, set_moveBackward (by omega), List.drop_eq_nil_of_le (by omega), List.append_nil,
      show size - 1 = n by omega]

omit [DecidableEq κ] in
/-- The entry found is put first, and overwrites the one before it. -/
theorem cache_toFront {i : ℕ} (hi : i + 1 < c.cache.length) :
    (c.toFront (i + 1) hi key value).cache = (key, value) :: (c.cache.take i ++ c.cache.drop (i + 1)) := by
  unfold toFront
  rw [if_neg (Nat.succ_ne_zero i)]
  exact set_moveBackward (Nat.lt_of_succ_lt hi) _

theorem position_lt_iff : c.position key < c.cache.length ↔ key ∈ c.cache.map Prod.fst := by
  rw [position, List.findIdx_lt_length]
  simp [List.mem_map]

/-- The entry found has the key. -/
theorem fst_position (h : c.position key < c.cache.length) : (c.cache.get ⟨c.position key, h⟩).1 = key := by
  exact of_decide_eq_true (@List.findIdx_getElem _ (fun e : κ × ν => decide (e.1 = key)) c.cache h)

theorem get_of_mem (h : c.position key < c.cache.length) :
    c.get key = (some (c.cache.get ⟨c.position key, h⟩).2, c.toFront _ h key (c.cache.get ⟨c.position key, h⟩).2) :=
  dif_pos h

theorem get_of_not_mem (h : key ∉ c.cache.map Prod.fst) : c.get key = (none, c) := dif_neg (mt position_lt_iff.mp h)

/-! ### Runs -/

/-- A cache, with what has been done to it, the last operation first. -/
structure Used (size : ℕ) (κ ν : Type) where
  /-- The cache. -/
  cache : OrderedLruCache size κ ν
  /-- The operations. -/
  ops : List (Op κ ν)

/-- What an operation does. -/
def step : Op κ ν → Used size κ ν → Except HostError (Used size κ ν)
  | .get key, u => .ok ⟨(u.cache.get key).2, .get key :: u.ops⟩
  | .insert key value, u => .ok ⟨u.cache.insert key value, .insert key value :: u.ops⟩

/-- The start of a run. -/
def start (size : ℕ) (κ ν : Type) : Used size κ ν := ⟨new size κ ν, []⟩

/-- The condition on who uses the cache: what is inserted was looked for in vain. -/
def Missed : Op κ ν → Used size κ ν → Prop
  | .get _, _ => True
  | .insert key _, u => (u.cache.get key).1 = none

instance [DecidableEq ν] : ∀ (op : Op κ ν) (u : Used size κ ν), Decidable (Missed op u)
  | .get _, _ => isTrue trivial
  | .insert key _, u => inferInstanceAs (Decidable ((u.cache.get key).1 = none))

/-- The cache is an LRU cache, as far as it has been used. -/
structure Lru (u : Used size κ ν) : Prop where
  /-- No key is there twice. -/
  distinct : (u.cache.cache.map Prod.fst).Nodup
  /-- The keys are those used last, the last used first. -/
  keys : u.cache.cache.map Prod.fst = held size u.ops
  /-- These are found, with the value inserted last. -/
  answers : ∀ key, (u.cache.get key).1 = if key ∈ held size u.ops then inserted key u.ops else none

/-- The condition on an operation: a key that is found was used last. -/
def FoundFirst : Op κ ν → Used size κ ν → Prop
  | .get key, u => (u.cache.get key).1.isSome → (u.cache.cache.map Prod.fst).head? = some key
  | .insert _ _, _ => True

instance : ∀ (op : Op κ ν) (u : Used size κ ν), Decidable (FoundFirst op u)
  | .get key, u => inferInstanceAs (Decidable ((u.cache.get key).1.isSome → (u.cache.cache.map Prod.fst).head? = some key))
  | .insert _ _, _ => isTrue trivial

/-! ### The invariant -/

theorem exists_step (op : Op κ ν) (u : Used size κ ν) : ∃ u', step op u = .ok u' := by
  cases op with
  | get key => exact ⟨_, rfl⟩
  | insert key value => exact ⟨_, rfl⟩

/-- What the cache is, entry by entry. -/
structure Inv (u : Used size κ ν) : Prop where
  /-- The keys. -/
  keys : u.cache.cache.map Prod.fst = held size u.ops
  /-- The values. -/
  values : ∀ e ∈ u.cache.cache, inserted e.1 u.ops = some e.2

variable {u u' : Used size κ ν}

theorem inv_start : Inv (start size κ ν) := ⟨List.take_nil.symm, fun _ h => absurd h List.not_mem_nil⟩

theorem Inv.lru (h : Inv u) : Lru u := by
  refine ⟨h.keys ▸ nodup_held size u.ops, h.keys, fun key => ?_⟩
  rw [← h.keys]
  split_ifs with hmem
  · have hlt := position_lt_iff.mpr hmem
    rw [get_of_mem hlt, ← h.values _ (List.get_mem _ _), fst_position hlt]
  · rw [get_of_not_mem hmem]

/-- A hit behind the first entry leaves its key twice. -/
theorem not_lru_of_hit {i : ℕ} (hi : u.cache.position key = i + 1) (hlt : u.cache.position key < u.cache.cache.length) :
    ¬Lru ⟨(u.cache.get key).2, .get key :: u.ops⟩ := by
  intro h
  have hdistinct := h.distinct
  have hkey := fst_position hlt
  rw [get_of_mem hlt] at hdistinct
  simp only [hi] at hdistinct hkey hlt
  rw [cache_toFront hlt, List.map_cons, List.nodup_cons] at hdistinct
  refine hdistinct.1 (List.mem_map.mpr ⟨u.cache.cache.get ⟨i + 1, hlt⟩, ?_, hkey⟩)
  refine List.mem_append_right _ ?_
  rw [List.drop_eq_getElem_cons hlt]
  exact List.mem_cons_self

/-- A look up. -/
theorem lru_get (h : Inv u) (key : κ) :
    (Lru ⟨(u.cache.get key).2, .get key :: u.ops⟩ ↔ FoundFirst (.get key) u) ∧
      (FoundFirst (.get key) u → Inv ⟨(u.cache.get key).2, .get key :: u.ops⟩) := by
  have hkeep (hinv : Inv ⟨(u.cache.get key).2, .get key :: u.ops⟩) (hfirst : FoundFirst (.get key) u) :
      (Lru ⟨(u.cache.get key).2, .get key :: u.ops⟩ ↔ FoundFirst (.get key) u) ∧
        (FoundFirst (.get key) u → Inv ⟨(u.cache.get key).2, .get key :: u.ops⟩) :=
    ⟨iff_of_true hinv.lru hfirst, fun _ => hinv⟩
  by_cases hmem : key ∈ u.cache.cache.map Prod.fst
  swap
  · refine hkeep ⟨?_, ?_⟩ fun hsome => ?_
    · rw [get_of_not_mem hmem]
      exact h.keys.trans (held_get_of_not_held (h.keys ▸ hmem)).symm
    · rw [get_of_not_mem hmem]
      exact h.values
    · rw [get_of_not_mem hmem] at hsome
      cases hsome
  have hlt := position_lt_iff.mpr hmem
  have hhead : u.cache.position key = 0 ↔ (u.cache.cache.map Prod.fst).head? = some key := by
    rw [position]
    cases hes : u.cache.cache with
    | nil => simp [hes] at hmem
    | cons e es =>
      rw [List.findIdx_cons]
      by_cases he : e.1 = key
      · simp [he]
      · simp [he]
  cases hi : u.cache.position key with
  | zero =>
    have hfirst := hhead.mp hi
    have hsame : (u.cache.get key).2 = u.cache := by
      rw [get_of_mem hlt]
      exact if_pos hi
    refine hkeep ⟨?_, ?_⟩ fun _ => hfirst
    · rw [hsame, held_get_of_head (h.keys ▸ hfirst), h.keys]
    · rw [hsame]
      exact h.values
  | succ i =>
    have hnot : ¬FoundFirst (.get key) u := by
      intro hfirst
      have hzero := hhead.mpr (hfirst (by rw [get_of_mem hlt]; rfl))
      rw [hi] at hzero
      cases hzero
    exact ⟨iff_of_false (not_lru_of_hit hi hlt) hnot, fun hfirst => absurd hfirst hnot⟩

/-- An insertion. -/
theorem inv_insert (h : Inv u) (hmissed : (u.cache.get key).1 = none) (value : ν) :
    Inv ⟨u.cache.insert key value, .insert key value :: u.ops⟩ := by
  have hnot : key ∉ u.cache.cache.map Prod.fst := by
    intro hmem
    rw [get_of_mem (position_lt_iff.mpr hmem)] at hmissed
    cases hmissed
  cases size with
  | zero =>
    have hnil : (u.cache.insert key value).cache = [] :=
      List.eq_nil_of_length_eq_zero (Nat.le_zero.mp (u.cache.insert key value).length_le)
    refine ⟨?_, ?_⟩
    · rw [hnil]
      rfl
    · rw [hnil]
      exact fun _ h => absurd h List.not_mem_nil
  | succ n =>
    rw [h.keys] at hnot
    refine ⟨?_, ?_⟩
    · rw [cache_insert n.succ_pos, held_insert hnot, List.map_cons, List.map_take, h.keys, held, List.take_take,
        Nat.succ_sub_one, Nat.min_eq_left n.le_succ]
    · rw [cache_insert n.succ_pos]
      rintro e he
      rw [inserted]
      rcases List.mem_cons.mp he with rfl | he
      · exact if_pos rfl
      · have hin := List.mem_of_mem_take he
        rw [if_neg, h.values e hin]
        rintro rfl
        exact hnot (h.keys ▸ List.mem_map_of_mem hin)

/-- One operation. -/
theorem lru_step (op : Op κ ν) (h : Inv u) (hmissed : Missed op u) (hs : step op u = .ok u') :
    (Lru u' ↔ FoundFirst op u) ∧ (FoundFirst op u → Inv u') := by
  cases op with
  | get key =>
    obtain rfl := Except.ok.inj hs
    exact lru_get h key
  | insert key value =>
    obtain rfl := Except.ok.inj hs
    have hinv := inv_insert h hmissed value
    exact ⟨iff_of_true hinv.lru trivial, fun _ => hinv⟩

/-- The cache is an LRU cache throughout a run just if each hit is of the key used last. -/
theorem lru_iff {ops : List (Op κ ν)} (h : Run.Always step Missed ops (start size κ ν)) :
    Run.Always step (fun op u => ∀ u', step op u = .ok u' → Lru u') ops (start size κ ν) ↔
      Run.Always step FoundFirst ops (start size κ ν) := by
  obtain ⟨t, ht⟩ := Run.exists_run exists_step ops (start size κ ν)
  refine Run.Always.iff_of_run (fun op u u' hinv hmissed hs => ?_) inv_start h ht
  obtain ⟨hiff, hkeep⟩ := lru_step op hinv hmissed hs
  refine ⟨⟨fun hlru => hiff.mp (hlru u' hs), fun hfirst u'' hs' => ?_⟩, hkeep⟩
  obtain rfl := Except.ok.inj (hs.symm.trans hs')
  exact hiff.mpr hfirst

/-- Two keys, and a hit of the one inserted last. -/
theorem lru_iff_frontHit :
    Run.Always step (fun op u => ∀ u', step op u = .ok u' → Lru u')
      [.get 1, .insert 1 10, .get 2, .insert 2 20, .get (2 : ℕ)] (start 2 ℕ ℕ) :=
  (lru_iff (by decide)).mpr (by decide)

/-- After a hit of the other the key inserted last is not found any more. -/
theorem hit_drops_entry : Run.Always step Missed [.get 1, .insert 1 10, .get 2, .insert 2 20, .get 1] (start 2 ℕ ℕ) ∧
    ¬Run.Always step (fun op u => ∀ u', step op u = .ok u' → Lru u')
      [.get 1, .insert 1 10, .get 2, .insert 2 20, .get 1] (start 2 ℕ ℕ) := by
  refine ⟨by decide, fun h => ?_⟩
  obtain ⟨-, h⟩ := h
  obtain ⟨-, h⟩ := h _ rfl
  obtain ⟨-, h⟩ := h _ rfl
  obtain ⟨-, h⟩ := h _ rfl
  obtain ⟨h, -⟩ := h _ rfl
  have hanswer := (h _ rfl).answers 2
  revert hanswer
  decide

end OrderedLruCache

end Orbum
