import Orbum.Common.Primitive
import Orbum.Lib.Recency
import Orbum.Lib.Run

/-!
# The clock cache

`ClockCache` of `Caches.hpp`. An insertion that finds a free slot writes it and returns, but does not count it. So the
cache stays empty whatever is inserted, and the hand, which the constructor does not set, is never used.

## The model

The hand is the index of its slot. The loops take a bound on their rounds; a cache in use would not reach it, which
`exists_get` and `exists_insert` show.
-/

namespace Orbum

open Recency

/-- `ClockCache<Size, KeyTy, ValueTy>`. -/
structure ClockCache (size : ℕ) (κ ν : Type) where
  /-- `hand_iterator`. -/
  hand : ℕ
  /-- `current_cache_size`. -/
  currentCacheSize : ℕ
  /-- `cache`: key, value and whether it was used recently. -/
  cache : Vector (κ × ν × Bool) size

namespace ClockCache

variable {size : ℕ} {κ ν : Type}

/-- The constructor, with the hand it happens to find. -/
def new (size : ℕ) (κ ν : Type) [Inhabited κ] [Inhabited ν] (hand : ℕ) : ClockCache size κ ν :=
  ⟨hand, 0, Vector.replicate size (default, default, false)⟩

/-- `next_hand()`. -/
def nextHand (c : ClockCache size κ ν) : ClockCache size κ ν :=
  { c with hand := if c.hand + 1 = c.currentCacheSize then 0 else c.hand + 1 }

/-- Writes the slot of the hand. -/
def writeHand (c : ClockCache size κ ν) (h : c.hand < size) (entry : κ × ν × Bool) : ClockCache size κ ν :=
  { c with cache := c.cache.set c.hand entry h }

section Get

variable [DecidableEq κ]

/-- The loop of `get`, from the hand on, back to the slot at `stop`. -/
def search (key : κ) (stop : ℕ) : ℕ → ClockCache size κ ν → Except HostError (Option ν × ClockCache size κ ν)
  | 0, _ => .error .outOfBounds
  | rounds + 1, c =>
    if h : c.hand < size then
      let (entryKey, entryValue, _) := c.cache[c.hand]
      if entryKey = key then .ok (some entryValue, c.writeHand h (entryKey, entryValue, true))
      else if c.nextHand.hand = stop then .ok (none, c.nextHand)
      else search key stop rounds c.nextHand
    else .error .outOfBounds

/-- `get(key)`. -/
def get (c : ClockCache size κ ν) (key : κ) : Except HostError (Option ν × ClockCache size κ ν) :=
  if c.currentCacheSize = 0 then .ok (none, c) else search key c.hand size c

end Get

/-- The loop of `insert`. -/
def evict (key : κ) (value : ν) : ℕ → ClockCache size κ ν → Except HostError (ClockCache size κ ν)
  | 0, _ => .error .outOfBounds
  | rounds + 1, c =>
    if h : c.hand < size then
      let (entryKey, entryValue, entryRecentlyUsed) := c.cache[c.hand]
      if !entryRecentlyUsed then .ok (c.writeHand h (key, value, true))
      else evict key value rounds (c.writeHand h (entryKey, entryValue, false)).nextHand
    else .error .outOfBounds

/-- `insert(key, value)`. -/
def insert (c : ClockCache size κ ν) (key : κ) (value : ν) : Except HostError (ClockCache size κ ν) :=
  if h : c.currentCacheSize < size then .ok { c with cache := c.cache.set c.currentCacheSize (key, value, true) h }
  else evict key value (size + 1) c

/-! ### The loops of a cache in use -/

variable {c : ClockCache size κ ν} {key : κ} {value : ν}

/-- How many slots there are from the hand to the one where the search stops. -/
def toGo (c : ClockCache size κ ν) (stop : ℕ) : ℕ :=
  if c.hand < stop then stop - c.hand else c.currentCacheSize - c.hand + stop

theorem exists_search [DecidableEq κ] {stop rounds : ℕ} (hle : c.currentCacheSize ≤ size) (hhand : c.hand < c.currentCacheSize)
    (hstop : stop < c.currentCacheSize) (hrounds : c.toGo stop ≤ rounds) : ∃ r, search key stop rounds c = .ok r := by
  induction rounds generalizing c with
  | zero =>
    unfold toGo at hrounds
    split_ifs at hrounds <;> omega
  | succ rounds ih =>
    rw [search, dif_pos (Nat.lt_of_lt_of_le hhand hle)]
    dsimp only
    split_ifs with hkey hend
    · exact ⟨_, rfl⟩
    · exact ⟨_, rfl⟩
    · refine ih hle ?_ hstop ?_
      · unfold nextHand
        dsimp only
        split_ifs <;> omega
      · unfold toGo nextHand at *
        dsimp only at *
        split_ifs at * <;> omega

/-- `get` returns. -/
theorem exists_get [DecidableEq κ] (hle : c.currentCacheSize ≤ size) (hhand : c.hand < c.currentCacheSize) (key : κ) :
    ∃ r, c.get key = .ok r := by
  unfold get
  split_ifs
  · exact ⟨_, rfl⟩
  · refine exists_search hle hhand hhand ?_
    rw [toGo, if_neg (Nat.lt_irrefl _)]
    omega

/-- The entries used recently. -/
def recentlyUsed (c : ClockCache size κ ν) : ℕ := c.cache.countP (·.2.2)

theorem exists_evict {rounds : ℕ} (hfull : c.currentCacheSize = size) (hhand : c.hand < size)
    (hrounds : c.recentlyUsed < rounds) : ∃ c', evict key value rounds c = .ok c' := by
  induction rounds generalizing c with
  | zero => cases hrounds
  | succ rounds ih =>
    rw [evict, dif_pos hhand]
    dsimp only
    split_ifs with hflag
    · exact ⟨_, rfl⟩
    · refine ih hfull ?_ ?_
      · unfold nextHand writeHand
        dsimp only
        split_ifs <;> omega
      · -- the flag of the entry at the hand was set, and is clear now
        rw [Bool.not_eq_true', Bool.not_eq_false] at hflag
        have hpos : 0 < c.recentlyUsed := Vector.countP_pos_iff.mpr ⟨_, Vector.getElem_mem hhand, hflag⟩
        have hone : (c.writeHand hhand (c.cache[c.hand].1, c.cache[c.hand].2.1, false)).recentlyUsed =
            c.recentlyUsed - 1 := by
          rw [recentlyUsed, writeHand, Vector.countP_set, if_pos hflag, recentlyUsed]
          simp
        change (c.writeHand hhand (c.cache[c.hand].1, c.cache[c.hand].2.1, false)).recentlyUsed < rounds
        omega

/-- `insert` returns. -/
theorem exists_insert (hle : c.currentCacheSize ≤ size) (hhand : c.hand < size) (key : κ) (value : ν) :
    ∃ c', c.insert key value = .ok c' := by
  unfold insert
  split_ifs
  · exact ⟨_, rfl⟩
  · exact exists_evict (by omega) hhand (Nat.lt_succ_of_le Vector.countP_le_size)

/-! ### Runs -/

variable [DecidableEq κ]

/-- What an operation does. -/
def step : Op κ ν → ClockCache size κ ν → Except HostError (ClockCache size κ ν)
  | .get key, c => do return (← c.get key).2
  | .insert key value, c => c.insert key value

/-- What is inserted is found right after. -/
def ReturnsInserted (c : ClockCache size κ ν) (key : κ) (value : ν) : Prop :=
  ∃ c' c'', c.insert key value = .ok c' ∧ c'.get key = .ok (some value, c'')

theorem get_of_empty (h : c.currentCacheSize = 0) (key : κ) : c.get key = .ok (none, c) := if_pos h

omit [DecidableEq κ] in
/-- An insertion into an empty cache leaves it empty. -/
theorem insert_of_empty (hsize : 0 < size) (h : c.currentCacheSize = 0) (key : κ) (value : ν) :
    ∃ c', c.insert key value = .ok c' ∧ c'.currentCacheSize = 0 := by
  have hroom : c.currentCacheSize < size := by omega
  exact ⟨_, dif_pos hroom, h⟩

theorem step_of_empty (hsize : 0 < size) (h : c.currentCacheSize = 0) (op : Op κ ν) :
    ∃ c', step op c = .ok c' ∧ c'.currentCacheSize = 0 := by
  cases op with
  | get key => exact ⟨c, by rw [step, get_of_empty h, ok_bind, pure_eq_ok], h⟩
  | insert key value => exact insert_of_empty hsize h key value

theorem run_of_empty (hsize : 0 < size) (h : c.currentCacheSize = 0) (ops : List (Op κ ν)) :
    ∃ c', Run.run step ops c = .ok c' ∧ c'.currentCacheSize = 0 := by
  induction ops generalizing c with
  | nil => exact ⟨c, rfl, h⟩
  | cons op ops ih =>
    obtain ⟨c₁, h₁, hempty⟩ := step_of_empty hsize h op
    obtain ⟨c', h', hempty'⟩ := ih hempty
    exact ⟨c', Run.run_cons_ok.mpr ⟨c₁, h₁, h'⟩, hempty'⟩

/-- After no run is anything found that was just inserted. -/
theorem never_returns_inserted [Inhabited κ] [Inhabited ν] (hsize : 0 < size) (hand : ℕ) (ops : List (Op κ ν)) :
    ∃ c, Run.run step ops (new size κ ν hand) = .ok c ∧ ∀ key value, ¬ReturnsInserted c key value := by
  obtain ⟨c, hrun, hempty⟩ := @run_of_empty size κ ν (new size κ ν hand) _ hsize rfl ops
  refine ⟨c, hrun, fun key value => ?_⟩
  rintro ⟨c', c'', hinsert, hget⟩
  obtain ⟨c₁, h₁, hempty₁⟩ := insert_of_empty hsize hempty key value
  obtain rfl := Except.ok.inj (h₁.symm.trans hinsert)
  rw [get_of_empty hempty₁] at hget
  cases hget

/-- Nothing is found in a cache of four. -/
theorem never_returns_inserted_four :
    ∃ c, Run.run step [.insert 1 10, .get 1, .insert 2 20] (new 4 ℕ ℕ 0) = .ok c ∧
      ∀ key value, ¬ReturnsInserted c key value :=
  never_returns_inserted (by decide) 0 _

/-- The first insertion into a cache of one is not found. -/
theorem inserted_not_found : ¬ReturnsInserted (new 1 ℕ ℕ 0) 1 10 := by
  rintro ⟨c', c'', hinsert, hget⟩
  obtain rfl := Except.ok.inj hinsert
  cases hget

end ClockCache

end Orbum
