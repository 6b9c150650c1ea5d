import Mathlib.Data.Nat.Notation
import Mathlib.Tactic.Common

/-!
# Caches

`TimestampLruCache` of `Caches.hpp`, the cache behind the address translation of the cores. The
array and its fill count are one list, of at most `size` entries. What the users of the cache need
is that it never answers anything but what was inserted: `find` is what it would answer.
-/

namespace Orbum

/-- `TimestampLruCache<Size, KeyTy, ValueTy>`. -/
structure TimestampLruCache (size : ℕ) (κ ν : Type) where
  /-- How often `get` found its key. -/
  totalCacheAccess : ℕ
  /-- The entries in use: key, value and timestamp. -/
  cache : List (κ × ν × ℕ)
  /-- The array is never overrun. -/
  length_le : cache.length ≤ size

namespace TimestampLruCache

variable {size : ℕ} {κ ν : Type} [DecidableEq κ]

/-- The empty cache. -/
def new (size : ℕ) (κ ν : Type) : TimestampLruCache size κ ν := ⟨0, [], Nat.zero_le _⟩

/-- Sets the timestamp of the first entry for `key`. -/
def touch (key : κ) (stamp : ℕ) : List (κ × ν × ℕ) → List (κ × ν × ℕ)
  | [] => []
  | e :: es => if e.1 = key then (e.1, e.2.1, stamp) :: es else e :: touch key stamp es

theorem length_touch (key : κ) (stamp : ℕ) (es : List (κ × ν × ℕ)) : (touch key stamp es).length = es.length := by
  induction es with
  | nil => rfl
  | cons e es ih =>
    simp only [touch]
    split_ifs <;> simp [ih]

/-- The value of the first entry for `key`. -/
def find (c : TimestampLruCache size κ ν) (key : κ) : Option ν := (c.cache.find? (·.1 = key)).map (·.2.1)

/-- `get(key)`, with the cache after it. -/
def get (c : TimestampLruCache size κ ν) (key : κ) : Option ν × TimestampLruCache size κ ν :=
  match c.find key with
  | some v =>
    (some v, ⟨c.totalCacheAccess + 1, touch key (c.totalCacheAccess + 1) c.cache,
      Nat.le_trans (Nat.le_of_eq (length_touch ..)) c.length_le⟩)
  | none => (none, c)

/-- The index of the first entry with the lowest timestamp. -/
def eldest (es : List (κ × ν × ℕ)) : ℕ :=
  (es.map (·.2.2)).idxOf ((es.map (·.2.2)).min?.getD 0)

/-- `insert(key, value)`, over the entry `find_eviction_entry` gives. -/
def insert (c : TimestampLruCache size κ ν) (key : κ) (value : ν) : TimestampLruCache size κ ν :=
  if h : c.cache.length < size then
    ⟨c.totalCacheAccess, c.cache ++ [(key, value, c.totalCacheAccess)], by
      simp only [List.length_append, List.length_singleton]
      omega⟩
  else
    ⟨c.totalCacheAccess, c.cache.set (eldest c.cache) (key, value, c.totalCacheAccess), by
      simpa using c.length_le⟩

@[simp] theorem find_new (key : κ) : (new size κ ν).find key = none := rfl

/-- `get` answers what `find` says. -/
@[simp] theorem get_fst (c : TimestampLruCache size κ ν) (key : κ) : (c.get key).1 = c.find key := by
  unfold get
  cases h : c.find key <;> rfl

theorem get_of_find {c : TimestampLruCache size κ ν} {key : κ} {v : ν} (h : c.find key = some v) :
    c.get key = (some v, (c.get key).2) := Prod.ext ((get_fst c key).trans h) rfl

theorem get_of_find_none {c : TimestampLruCache size κ ν} {key : κ} (h : c.find key = none) : c.get key = (none, c) := by
  unfold get
  rw [h]

theorem find?_touch (key k : κ) (stamp : ℕ) (es : List (κ × ν × ℕ)) :
    ((touch key stamp es).find? (·.1 = k)).map (·.2.1) = (es.find? (·.1 = k)).map (·.2.1) := by
  induction es with
  | nil => rfl
  | cons e es ih =>
    simp only [touch]
    split_ifs with h
    · by_cases hk : e.1 = k <;> simp [hk]
    · by_cases hk : e.1 = k
      · simp [hk]
      · simpa [List.find?_cons, hk] using ih

/-- `get` changes no answer. -/
@[simp] theorem find_get (c : TimestampLruCache size κ ν) (key k : κ) : (c.get key).2.find k = c.find k := by
  unfold get
  cases h : c.find key with
  | none => rfl
  | some v => exact find?_touch ..

omit [DecidableEq κ] in
theorem eldest_lt {es : List (κ × ν × ℕ)} (h : es ≠ []) : eldest es < es.length := by
  obtain ⟨a, ha⟩ : ∃ a, (es.map (·.2.2)).min? = some a := by
    cases hm : (es.map (·.2.2)).min? with
    | none => exact absurd (List.map_eq_nil_iff.mp (List.min?_eq_none_iff.mp hm)) h
    | some a => exact ⟨a, rfl⟩
  have hlt := List.idxOf_lt_length_of_mem (List.min?_mem ha)
  simpa [eldest, ha] using hlt

/-- What was inserted for a key that had no entry. -/
theorem find_insert_self {c : TimestampLruCache size κ ν} (hsize : 0 < size) {key : κ} (h : c.find key = none)
    (value : ν) : (c.insert key value).find key = some value := by
  have hnone : c.cache.find? (·.1 = key) = none := Option.map_eq_none_iff.mp h
  unfold insert find
  split_ifs with hroom
  · simp [List.find?_append, hnone]
  · -- The entry replaced is the only one with the key.
    have hlen := c.length_le
    have hmem : (key, value, c.totalCacheAccess) ∈ c.cache.set (eldest c.cache) (key, value, c.totalCacheAccess) :=
      List.mem_set (eldest_lt (List.ne_nil_of_length_pos (by omega))) _
    obtain ⟨e, he⟩ : ∃ e, (c.cache.set (eldest c.cache) (key, value, c.totalCacheAccess)).find? (·.1 = key) = some e :=
      Option.isSome_iff_exists.mp (List.find?_isSome.mpr ⟨_, hmem, by simp⟩)
    rcases List.mem_or_eq_of_mem_set (List.mem_of_find?_eq_some he) with hold | rfl
    · exact absurd (List.find?_some he) (List.find?_eq_none.mp hnone e hold)
    · rw [he]
      rfl

/-! ### What a cache holds -/

/-- Every entry in use satisfies `P`. -/
def All (P : κ → ν → Prop) (c : TimestampLruCache size κ ν) : Prop := ∀ e ∈ c.cache, P e.1 e.2.1

variable {P : κ → ν → Prop} {c : TimestampLruCache size κ ν}

/-- Every entry in use is found, or another with its key. -/
theorem find_isSome_of_mem {e : κ × ν × ℕ} (h : e ∈ c.cache) : (c.find e.1).isSome := by
  simp only [TimestampLruCache.find, Option.isSome_map, List.find?_isSome]
  exact ⟨e, h, by simp⟩

omit [DecidableEq κ] in
theorem all_new : (new size κ ν).All P := by simp [All, new]

theorem All.find (h : c.All P) {k : κ} {v : ν} (hf : c.find k = some v) : P k v := by
  obtain ⟨e, he, rfl⟩ := Option.map_eq_some_iff.mp hf
  obtain rfl : e.1 = k := by simpa using List.find?_some he
  exact h e (List.mem_of_find?_eq_some he)

theorem mem_touch {key : κ} {stamp : ℕ} {e : κ × ν × ℕ} {es : List (κ × ν × ℕ)} (h : e ∈ touch key stamp es) :
    ∃ e' ∈ es, e.1 = e'.1 ∧ e.2.1 = e'.2.1 := by
  induction es with
  | nil => simp [touch] at h
  | cons d es ih =>
    simp only [touch] at h
    split_ifs at h with hd
    · rcases List.mem_cons.mp h with rfl | h
      · exact ⟨d, List.mem_cons_self, rfl, rfl⟩
      · exact ⟨e, List.mem_cons_of_mem _ h, rfl, rfl⟩
    · rcases List.mem_cons.mp h with rfl | h
      · exact ⟨e, List.mem_cons_self, rfl, rfl⟩
      · obtain ⟨e', he', hk, hv⟩ := ih h
        exact ⟨e', List.mem_cons_of_mem _ he', hk, hv⟩

theorem All.get (h : c.All P) (key : κ) : (c.get key).2.All P := by
  unfold TimestampLruCache.get
  cases c.find key with
  | none => exact h
  | some v =>
    intro e he
    obtain ⟨e', he', hk, hv⟩ := mem_touch he
    rw [hk, hv]
    exact h e' he'

omit [DecidableEq κ] in
theorem All.insert (h : c.All P) {key : κ} {value : ν} (hP : P key value) : (c.insert key value).All P := by
  intro e he
  unfold TimestampLruCache.insert at he
  split_ifs at he
  · rcases List.mem_append.mp he with he | he
    · exact h e he
    · obtain rfl := List.mem_singleton.mp he
      exact hP
  · rcases List.mem_or_eq_of_mem_set he with he | rfl
    · exact h e he
    · exact hP

end TimestampLruCache

end Orbum
