import Orbum.Common.Caches
import Orbum.Common.Primitive
import Orbum.Lib.Recency
import Orbum.Lib.Run

/-!
# Eviction from the timestamp cache

An insertion into a full `TimestampLruCache` overwrites the first entry with the lowest timestamp. The timestamps count
hits only: what is used between two hits has one timestamp, and of these entries the one in the lowest slot goes first.

## The model

The time of the last use of each key is recorded beside the cache. A use is an insertion, or a look up that finds the
key.
-/

namespace Orbum

open Recency

namespace TimestampLruCache

variable {size : ℕ} {κ ν : Type} [DecidableEq κ]

/-- A cache, with the times at which its keys were used last. -/
structure Used (size : ℕ) (κ ν : Type) where
  /-- The cache. -/
  cache : TimestampLruCache size κ ν
  /-- How many uses there have been. -/
  time : ℕ
  /-- The last use of a key. -/
  lastUse : κ → ℕ

namespace Used

/-- A key is used. -/
def use (u : Used size κ ν) (cache : TimestampLruCache size κ ν) (key : κ) : Used size κ ν :=
  ⟨cache, u.time + 1, Function.update u.lastUse key (u.time + 1)⟩

end Used

/-- What an operation does. -/
def step : Op κ ν → Used size κ ν → Except HostError (Used size κ ν)
  | .get key, u => .ok (if (u.cache.get key).1.isSome then u.use (u.cache.get key).2 key else u)
  | .insert key value, u => .ok (u.use (u.cache.insert key value) key)

/-- The start of a run. -/
def start (size : ℕ) (κ ν : Type) : Used size κ ν := ⟨new size κ ν, 0, fun _ => 0⟩

/-- The condition on who uses the cache: what is inserted was looked for in vain. -/
def Missed : Op κ ν → Used size κ ν → Prop
  | .get _, _ => True
  | .insert key _, u => (u.cache.get key).1 = none

instance [DecidableEq ν] : ∀ (op : Op κ ν) (u : Used size κ ν), Decidable (Missed op u)
  | .get _, _ => isTrue trivial
  | .insert key _, u => inferInstanceAs (Decidable ((u.cache.get key).1 = none))

/-- The key was found and is not any more. -/
def Evicted (u u' : Used size κ ν) (key : κ) : Prop := (u.cache.find key).isSome ∧ u'.cache.find key = none

/-- No key that is found was last used before. -/
def Oldest (u : Used size κ ν) (key : κ) : Prop :=
  ∀ key', (u.cache.find key').isSome → u.lastUse key ≤ u.lastUse key'

/-- An insertion into a full cache evicts one key, the one last used first, which is not the one used just before. -/
def EvictsOldest : Op κ ν → Used size κ ν → Used size κ ν → Prop
  | .get _, _, _ => True
  | .insert _ _, u, u' => u.cache.cache.length = size →
      ∃ key, (∀ key', Evicted u u' key' ↔ key' = key) ∧ Oldest u key ∧ u.lastUse key < u.time

/-- The condition on an operation: at an insertion into a full cache, of the entries with the lowest timestamp the first
one was last used first. -/
def TiesInOrder : Op κ ν → Used size κ ν → Prop
  | .get _, _ => True
  | .insert _ _, u => u.cache.cache.length = size → ∀ e, u.cache.cache[eldest u.cache.cache]? = some e →
      ∀ e' ∈ u.cache.cache, e'.2.2 = e.2.2 → u.lastUse e.1 ≤ u.lastUse e'.1

instance : ∀ (op : Op κ ν) (u : Used size κ ν), Decidable (TiesInOrder op u)
  | .get _, _ => isTrue trivial
  | .insert _ _, u =>
    match h : u.cache.cache[eldest u.cache.cache]? with
    | none => isTrue fun _ e he => by simp [h] at he
    | some e => decidable_of_iff
        (u.cache.cache.length = size → ∀ e' ∈ u.cache.cache, e'.2.2 = e.2.2 → u.lastUse e.1 ≤ u.lastUse e'.1)
        (imp_congr_right fun _ => ⟨fun hall e₀ he₀ => Option.some.inj (h.symm.trans he₀) ▸ hall, fun hall => hall e h⟩)

/-! ### Entries -/

variable {c : TimestampLruCache size κ ν} {es : List (κ × ν × ℕ)} {key k : κ} {value : ν} {stamp : ℕ} {e : κ × ν × ℕ}

theorem find_isSome_iff : (c.find key).isSome ↔ key ∈ c.cache.map Prod.fst := by
  rw [find, Option.isSome_map, List.find?_isSome]
  simp

theorem find_eq_none_iff : c.find key = none ↔ key ∉ c.cache.map Prod.fst := by
  rw [← find_isSome_iff, Option.not_isSome_iff_eq_none]

theorem map_fst_touch (key : κ) (stamp : ℕ) (es : List (κ × ν × ℕ)) :
    (touch key stamp es).map Prod.fst = es.map Prod.fst := by
  induction es with
  | nil => rfl
  | cons e es ih =>
    rw [touch]
    split_ifs
    · rfl
    · rw [List.map_cons, List.map_cons, ih]

/-- The entry for the key has the new timestamp, and the others are as they were. -/
theorem eq_or_mem_of_mem_touch (hes : (es.map Prod.fst).Nodup) (h : e ∈ touch key stamp es) :
    e.1 = key ∧ e.2.2 = stamp ∨ e.1 ≠ key ∧ e ∈ es := by
  induction es with
  | nil => cases h
  | cons d es ih =>
    rw [List.map_cons, List.nodup_cons] at hes
    rw [touch] at h
    split_ifs at h with hd
    · rcases List.mem_cons.mp h with rfl | h
      · exact .inl ⟨hd, rfl⟩
      · refine .inr ⟨?_, List.mem_cons_of_mem _ h⟩
        rintro rfl
        exact hes.1 (hd ▸ List.mem_map_of_mem h)
    · rcases List.mem_cons.mp h with rfl | h
      · exact .inr ⟨hd, List.mem_cons_self⟩
      · exact (ih hes.2 h).imp_right (And.imp_right (List.mem_cons_of_mem d))

omit [DecidableEq κ] in
/-- No timestamp is lower. -/
theorem stamp_eldest_le (he : es[eldest es]? = some e) : ∀ e' ∈ es, e.2.2 ≤ e'.2.2 := by
  intro e' he'
  cases hmin : (es.map (·.2.2)).min? with
  | none =>
    obtain rfl := List.map_eq_nil_iff.mp (List.min?_eq_none_iff.mp hmin)
    cases he'
  | some a =>
    have hle := (List.min?_eq_some_iff.mp hmin).2 e'.2.2 (List.mem_map_of_mem he')
    have hidx : (es.map (·.2.2))[(es.map (·.2.2)).idxOf a]? = some a := List.getElem?_idxOf (List.min?_mem hmin)
    rw [eldest, hmin, Option.getD_some] at he
    rw [List.getElem?_map, he] at hidx
    have hstamp : e.2.2 = a := Option.some.inj hidx
    rw [hstamp]
    exact hle

theorem cache_get_of_isSome (h : (c.find key).isSome) :
    (c.get key).2.cache = touch key (c.totalCacheAccess + 1) c.cache ∧
      (c.get key).2.totalCacheAccess = c.totalCacheAccess + 1 := by
  obtain ⟨v, hv⟩ := Option.isSome_iff_exists.mp h
  unfold get
  rw [hv]
  exact ⟨rfl, rfl⟩

omit [DecidableEq κ] in
/-- The entries after an insertion. -/
theorem mem_cache_insert (h : e ∈ (c.insert key value).cache) : e = (key, value, c.totalCacheAccess) ∨ e ∈ c.cache := by
  unfold insert at h
  split_ifs at h
  · exact (List.mem_append.mp h).symm.imp_left List.mem_singleton.mp
  · exact (List.mem_or_eq_of_mem_set h).symm

omit [DecidableEq κ] in
theorem nodup_insert (hc : (c.cache.map Prod.fst).Nodup) (h : key ∉ c.cache.map Prod.fst) :
    ((c.insert key value).cache.map Prod.fst).Nodup := by
  unfold insert
  split_ifs
  · rw [List.map_append, List.nodup_append]
    refine ⟨hc, List.nodup_singleton _, ?_⟩
    rintro k hk k' hk' rfl
    obtain rfl := List.mem_singleton.mp hk'
    exact h hk
  · rw [List.map_set]
    exact hc.set h

omit [DecidableEq κ] in
/-- One key is gone after an insertion into a full cache. -/
theorem evicted_iff (hc : (c.cache.map Prod.fst).Nodup) (h : key ∉ c.cache.map Prod.fst) (hfull : c.cache.length = size)
    (he : c.cache[eldest c.cache]? = some e) :
    k ∈ c.cache.map Prod.fst ∧ k ∉ (c.insert key value).cache.map Prod.fst ↔ k = e.1 := by
  have hroom : ¬c.cache.length < size := by omega
  have hcache : (c.insert key value).cache = c.cache.set (eldest c.cache) (key, value, c.totalCacheAccess) := by
    unfold insert
    rw [dif_neg hroom]
  rw [hcache, List.map_set]
  obtain ⟨hlt, hget⟩ := List.getElem?_eq_some_iff.mp he
  generalize hi : eldest c.cache = i at *
  have hat : (c.cache.map Prod.fst)[i]? = some e.1 := by
    rw [List.getElem?_map, he]
    rfl
  constructor
  · rintro ⟨hmem, hgone⟩
    obtain ⟨j, hj⟩ := List.mem_iff_getElem?.mp hmem
    by_cases hij : i = j
    · subst hij
      exact Option.some.inj (hj.symm.trans hat)
    · refine absurd (List.mem_iff_getElem?.mpr ⟨j, ?_⟩) hgone
      rw [List.getElem?_set_ne hij, hj]
  · rintro rfl
    refine ⟨List.mem_iff_getElem?.mpr ⟨i, hat⟩, fun hmem => ?_⟩
    obtain ⟨j, hj⟩ := List.mem_iff_getElem?.mp hmem
    by_cases hij : i = j
    · subst hij
      rw [List.getElem?_set_self (by simpa using hlt)] at hj
      have hkey : key = e.1 := Option.some.inj hj
      exact h (hkey ▸ List.mem_iff_getElem?.mpr ⟨i, hat⟩)
    · rw [List.getElem?_set_ne hij] at hj
      exact hij ((List.getElem?_inj (by simpa using hlt) hc).mp (hat.trans hj.symm))

/-! ### The invariant -/

/-- How the timestamps go with the uses. -/
structure Inv (u : Used size κ ν) : Prop where
  /-- No key is there twice. -/
  distinct : (u.cache.cache.map Prod.fst).Nodup
  /-- No timestamp is above the count of hits. -/
  stamps : ∀ e ∈ u.cache.cache, e.2.2 ≤ u.cache.totalCacheAccess
  /-- No use is above the count of uses. -/
  uses : ∀ e ∈ u.cache.cache, u.lastUse e.1 ≤ u.time
  /-- A use is of one key. -/
  injective : ∀ e ∈ u.cache.cache, ∀ e' ∈ u.cache.cache, u.lastUse e.1 = u.lastUse e'.1 → e.1 = e'.1
  /-- What was used later has no lower timestamp. -/
  monotone : ∀ e ∈ u.cache.cache, ∀ e' ∈ u.cache.cache, u.lastUse e.1 < u.lastUse e'.1 → e.2.2 ≤ e'.2.2

variable {u u' : Used size κ ν}

omit [DecidableEq κ] in
theorem inv_start : Inv (start size κ ν) :=
  ⟨List.nodup_nil, fun _ h => absurd h List.not_mem_nil, fun _ h => absurd h List.not_mem_nil,
    fun _ h => absurd h List.not_mem_nil, fun _ h => absurd h List.not_mem_nil⟩

/-- A use of a key: its entry has the count of hits for its timestamp, the others are as they were. -/
theorem Inv.use (h : Inv u) {c' : TimestampLruCache size κ ν} (hdistinct : (c'.cache.map Prod.fst).Nodup)
    (htotal : u.cache.totalCacheAccess ≤ c'.totalCacheAccess)
    (hmem : ∀ e ∈ c'.cache, e.1 = key ∧ e.2.2 = c'.totalCacheAccess ∨ e.1 ≠ key ∧ e ∈ u.cache.cache) :
    Inv (u.use c' key) := by
  have hkey : (u.use c' key).lastUse key = u.time + 1 := Function.update_self ..
  have hother {e : κ × ν × ℕ} (hne : e.1 ≠ key) : (u.use c' key).lastUse e.1 = u.lastUse e.1 :=
    Function.update_of_ne hne ..
  refine ⟨hdistinct, fun e he => ?_, fun e he => ?_, fun e he e' he' => ?_, fun e he e' he' => ?_⟩
  · rcases hmem e he with ⟨-, hs⟩ | ⟨-, he⟩
    · exact Nat.le_of_eq hs
    · exact Nat.le_trans (h.stamps e he) htotal
  · rcases hmem e he with ⟨hk, -⟩ | ⟨hne, he⟩
    · rw [hk, hkey]
      exact Nat.le_refl _
    · rw [hother hne]
      exact Nat.le_succ_of_le (h.uses e he)
  · rcases hmem e he with ⟨hk, -⟩ | ⟨hne, he⟩ <;> rcases hmem e' he' with ⟨hk', -⟩ | ⟨hne', he'⟩
    · exact fun _ => hk.trans hk'.symm
    · rw [hk, hkey, hother hne']
      have := h.uses e' he'
      omega
    · rw [hk', hkey, hother hne]
      have := h.uses e he
      omega
    · rw [hother hne, hother hne']
      exact h.injective e he e' he'
  · rcases hmem e he with ⟨hk, hs⟩ | ⟨hne, he⟩ <;> rcases hmem e' he' with ⟨hk', hs'⟩ | ⟨hne', he'⟩
    · exact fun _ => Nat.le_of_eq (hs.trans hs'.symm)
    · rw [hk, hkey, hother hne']
      have := h.uses e' he'
      omega
    · rw [hs']
      exact fun _ => Nat.le_trans (h.stamps e he) htotal
    · rw [hother hne, hother hne']
      exact h.monotone e he e' he'

theorem exists_step (op : Op κ ν) (u : Used size κ ν) : ∃ u', step op u = .ok u' := by
  cases op with
  | get key => exact ⟨_, rfl⟩
  | insert key value => exact ⟨_, rfl⟩

/-- A key that is inserted after a miss is not there. -/
theorem not_mem_of_missed {key : κ} {value : ν} (h : Missed (.insert key value) u) : key ∉ u.cache.cache.map Prod.fst := by
  rw [← find_eq_none_iff, ← get_fst]
  exact h

theorem Inv.step (op : Op κ ν) (h : Inv u) (hmissed : Missed op u) (hs : step op u = .ok u') : Inv u' := by
  cases op with
  | get key =>
    obtain rfl := Except.ok.inj hs
    split_ifs with hsome
    · rw [get_fst] at hsome
      obtain ⟨hcache, htotal⟩ := cache_get_of_isSome hsome
      refine h.use ?_ (by omega) fun e he => ?_
      · rw [hcache, map_fst_touch]
        exact h.distinct
      · rw [hcache] at he
        rw [htotal]
        exact eq_or_mem_of_mem_touch h.distinct he
    · exact h
  | insert key value =>
    obtain rfl := Except.ok.inj hs
    have hnot := not_mem_of_missed hmissed
    have htotal : (u.cache.insert key value).totalCacheAccess = u.cache.totalCacheAccess := by
      unfold insert
      split_ifs <;> rfl
    refine h.use (nodup_insert h.distinct hnot) (Nat.le_of_eq htotal.symm) fun e he => ?_
    rw [htotal]
    rcases mem_cache_insert he with rfl | hold
    · exact .inl ⟨rfl, rfl⟩
    · refine .inr ⟨?_, hold⟩
      rintro rfl
      exact hnot (List.mem_map_of_mem hold)

/-- An insertion evicts the key of the first entry with the lowest timestamp. -/
theorem evictsOldest_iff (hsize : 1 < size) (h : Inv u) (hnot : key ∉ u.cache.cache.map Prod.fst) (value : ν) :
    EvictsOldest (.insert key value) u (u.use (u.cache.insert key value) key) ↔ TiesInOrder (.insert key value) u := by
  refine imp_congr_right fun hfull => ?_
  have hne : u.cache.cache ≠ [] := by
    rintro hnil
    rw [hnil, List.length_nil] at hfull
    omega
  obtain ⟨e, he⟩ : ∃ e, u.cache.cache[eldest u.cache.cache]? = some e := ⟨_, List.getElem?_eq_getElem (eldest_lt hne)⟩
  have hmem : e ∈ u.cache.cache := List.mem_iff_getElem?.mpr ⟨_, he⟩
  have hevicted (k : κ) : Evicted u (u.use (u.cache.insert key value) key) k ↔ k = e.1 := by
    rw [Evicted, find_isSome_iff, find_eq_none_iff]
    exact evicted_iff h.distinct hnot hfull he
  constructor
  · rintro ⟨k, hk, holdest, -⟩ e₀ he₀ e' he' -
    obtain rfl := Option.some.inj (he.symm.trans he₀)
    obtain rfl := (hevicted k).mp ((hk k).mpr rfl)
    exact holdest e'.1 (find_isSome_iff.mpr (List.mem_map_of_mem he'))
  · intro hties
    have holdest (e' : κ × ν × ℕ) (he' : e' ∈ u.cache.cache) : u.lastUse e.1 ≤ u.lastUse e'.1 := by
      rcases Nat.lt_or_ge (u.lastUse e'.1) (u.lastUse e.1) with hlt | hle
      · have hstamp := Nat.le_antisymm (h.monotone e' he' e hmem hlt) (stamp_eldest_le he e' he')
        exact hties e he e' he' hstamp
      · exact hle
    refine ⟨e.1, hevicted, fun k hk => ?_, ?_⟩
    · obtain ⟨e', he', rfl⟩ := List.mem_map.mp (find_isSome_iff.mp hk)
      exact holdest e' he'
    · -- there is another key, and it was used later
      obtain ⟨e', he', hother⟩ : ∃ e' ∈ u.cache.cache, e'.1 ≠ e.1 := by
        by_contra hall
        simp only [not_exists, not_and, not_not] at hall
        have hsub : u.cache.cache.map Prod.fst ⊆ [e.1] := fun k hk => by
          obtain ⟨e', he', rfl⟩ := List.mem_map.mp hk
          exact List.mem_singleton.mpr (hall e' he')
        have hle := h.distinct.length_le_of_subset hsub
        rw [List.length_map, hfull] at hle
        exact absurd hle (Nat.not_le.mpr hsize)
      have hle := holdest e' he'
      have huse := h.uses e' he'
      have hdiff : u.lastUse e.1 ≠ u.lastUse e'.1 := fun heq => hother (h.injective e hmem e' he' heq).symm
      omega

/-- The cache evicts what was used last first throughout a run just if its ties are in order. -/
theorem evicts_oldest_iff (hsize : 1 < size) {ops : List (Op κ ν)} (h : Run.Always step Missed ops (start size κ ν)) :
    Run.Always step (fun op u => ∀ u', step op u = .ok u' → EvictsOldest op u u') ops (start size κ ν) ↔
      Run.Always step TiesInOrder ops (start size κ ν) := by
  obtain ⟨t, ht⟩ := Run.exists_run exists_step ops (start size κ ν)
  refine Run.Always.iff_of_run (fun op u u' hinv hmissed hs => ?_) inv_start h ht
  have hiff : EvictsOldest op u u' ↔ TiesInOrder op u := by
    cases op with
    | get key => exact Iff.rfl
    | insert key value =>
      obtain rfl := Except.ok.inj hs
      exact evictsOldest_iff hsize hinv (not_mem_of_missed hmissed) value
  refine ⟨⟨fun hall => hiff.mp (hall u' hs), fun hties u'' hs' => ?_⟩, fun _ => hinv.step op hmissed hs⟩
  obtain rfl := Except.ok.inj (hs.symm.trans hs')
  exact hiff.mpr hties

/-- A hit between two insertions keeps them apart. -/
theorem evicts_oldest_iff_afterHit :
    Run.Always step (fun op u => ∀ u', step op u = .ok u' → EvictsOldest op u u')
      [.get 1, .insert 1 10, .get 2, .insert 2 20, .get 1, .get 3, .insert 3 30] (start 2 ℕ ℕ) :=
  (evicts_oldest_iff (by decide) (by decide)).mpr (by decide)

/-- The third key takes the place of the first, and the fourth that of the third. -/
theorem newest_evicted :
    Run.Always step Missed [.get 1, .insert 1 10, .get 2, .insert 2 20, .get 3, .insert 3 30, .get 4, .insert 4 40]
        (start 2 ℕ ℕ) ∧
      ¬Run.Always step (fun op u => ∀ u', step op u = .ok u' → EvictsOldest op u u')
        [.get 1, .insert 1 10, .get 2, .insert 2 20, .get 3, .insert 3 30, .get 4, .insert 4 40] (start 2 ℕ ℕ) := by
  refine ⟨by decide, fun h => ?_⟩
  obtain ⟨-, h⟩ := h
  obtain ⟨-, h⟩ := h _ rfl
  obtain ⟨-, h⟩ := h _ rfl
  obtain ⟨-, h⟩ := h _ rfl
  obtain ⟨-, h⟩ := h _ rfl
  obtain ⟨-, h⟩ := h _ rfl
  obtain ⟨-, h⟩ := h _ rfl
  obtain ⟨h, -⟩ := h _ rfl
  obtain ⟨key, hkey, -, hlt⟩ := h _ rfl rfl
  obtain rfl : 3 = key := (hkey 3).mp ⟨rfl, rfl⟩
  revert hlt
  decide

end TimestampLruCache

end Orbum
