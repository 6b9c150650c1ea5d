import Mathlib.Data.List.Nodup
import Mathlib.Data.Nat.Notation
import Mathlib.Tactic.Common

/-!
# Recency

What has been done to a cache of `n` entries, from the last operation back, and what this says of the keys: the order of
their last uses, and the value inserted last for each. A use is an insertion, or a look up that finds the key; the `n`
keys used last are those that are found.
-/

namespace Orbum.Recency

variable {κ ν : Type}

/-- An operation of a cache. -/
inductive Op (κ ν : Type) where
  /-- The key is looked up. -/
  | get (key : κ)
  /-- A value is inserted for the key. -/
  | insert (key : κ) (value : ν)
  deriving DecidableEq

variable [DecidableEq κ]

/-- The keys from the last used on, once `key` is used. -/
def use (key : κ) (keys : List κ) : List κ := key :: keys.erase key

/-- The keys from the last used on. -/
def recent (n : ℕ) : List (Op κ ν) → List κ
  | [] => []
  | .get key :: ops => if key ∈ (recent n ops).take n then use key (recent n ops) else recent n ops
  | .insert key _ :: ops => use key (recent n ops)

/-- The keys used last. -/
def held (n : ℕ) (ops : List (Op κ ν)) : List κ := (recent n ops).take n

/-- The value inserted last for a key. -/
def inserted (key : κ) : List (Op κ ν) → Option ν
  | [] => none
  | .get _ :: ops => inserted key ops
  | .insert key' value :: ops => if key' = key then some value else inserted key ops

/-! ### Uses -/

variable {n : ℕ} {key k : κ} {keys : List κ} {ops : List (Op κ ν)} {value : ν}

theorem nodup_use (h : keys.Nodup) : (use key keys).Nodup := List.nodup_cons.mpr ⟨h.not_mem_erase, h.erase key⟩

/-- Using the key used last. -/
theorem use_head (key : κ) (keys : List κ) : use key (key :: keys) = key :: keys := by
  rw [use, List.erase_cons_head]

/-- Taking a key out behind the first does not change these. -/
theorem take_erase (h : key ∉ keys.take (n + 1)) : (keys.erase key).take n = keys.take n := by
  induction n generalizing keys with
  | zero => rw [List.take_zero, List.take_zero]
  | succ n ih =>
    cases keys with
    | nil => rfl
    | cons a keys =>
      rw [List.take_succ_cons, List.mem_cons, not_or] at h
      rw [List.erase_cons_tail (by simpa using Ne.symm h.1), List.take_succ_cons, List.take_succ_cons, ih h.2]

/-- Using a key that is not one of the first pushes the last of these out. -/
theorem take_use (h : key ∉ keys.take (n + 1)) : (use key keys).take (n + 1) = key :: keys.take n := by
  rw [use, List.take_succ_cons, take_erase h]

/-- Every key is there once. -/
theorem nodup_recent (n : ℕ) (ops : List (Op κ ν)) : (recent n ops).Nodup := by
  induction ops with
  | nil => exact List.nodup_nil
  | cons op ops ih =>
    cases op with
    | get key =>
      rw [recent]
      split_ifs
      · exact nodup_use ih
      · exact ih
    | insert key value => exact nodup_use ih

theorem nodup_held (n : ℕ) (ops : List (Op κ ν)) : (held n ops).Nodup := (nodup_recent n ops).sublist (List.take_sublist _ _)

theorem recent_get_of_held (h : key ∈ held n ops) : recent n (.get key :: ops) = use key (recent n ops) := if_pos h

theorem recent_get_of_not_held (h : key ∉ held n ops) : recent n (.get key :: ops) = recent n ops := if_neg h

/-- A look up that finds nothing changes nothing. -/
theorem held_get_of_not_held (h : key ∉ held n ops) : held n (.get key :: ops) = held n ops := by
  rw [held, recent_get_of_not_held h, held]

/-- Nor does one of the key used last. -/
theorem held_get_of_head (h : (held n ops).head? = some key) : held n (.get key :: ops) = held n ops := by
  have hmem : key ∈ held n ops := List.mem_of_mem_head? h
  rw [held, recent_get_of_held hmem]
  rw [held] at h ⊢
  cases n with
  | zero => rfl
  | succ n =>
    cases hkeys : recent (n + 1) ops with
    | nil => simp [hkeys] at h
    | cons a keys =>
      obtain rfl : a = key := by simpa [hkeys] using h
      rw [use_head]

theorem held_insert (h : key ∉ held (n + 1) ops) :
    held (n + 1) (.insert key value :: ops) = key :: (recent (n + 1) ops).take n := take_use h

end Orbum.Recency
