import Mathlib.Data.Nat.Count
import Mathlib.Tactic.Common

/-!
# Cyclic counters

A counter that goes back to zero when it reaches its period. Where it is after some steps, and how often it has come to
a place on the way, depends on the number of steps alone.
-/

namespace Orbum

namespace Cycle

variable {p c n : ℕ}

/-- One step of the counter. -/
def next (p c : ℕ) : ℕ := if c + 1 = p then 0 else c + 1

/-- How many of `n` steps from `c` on end where `hit` holds. -/
def hits (hit : ℕ → Bool) (p c n : ℕ) : ℕ := Nat.count (fun k => hit ((c + k + 1) % p) = true) n

theorem next_eq_mod (h : c < p) : next p c = (c + 1) % p := by
  unfold next
  split_ifs with hc
  · rw [hc, Nat.mod_self]
  · exact (Nat.mod_eq_of_lt (by omega)).symm

theorem next_lt (h : c < p) : next p c < p := by
  rw [next_eq_mod h]
  exact Nat.mod_lt _ (by omega)

@[simp] theorem hits_zero (hit : ℕ → Bool) (p c : ℕ) : hits hit p c 0 = 0 := Nat.count_zero _

theorem hits_succ (hit : ℕ → Bool) (p c n : ℕ) :
    hits hit p c (n + 1) = hits hit p c n + if hit ((c + n + 1) % p) then 1 else 0 := Nat.count_succ _ _

theorem hits_one (hit : ℕ → Bool) (p c : ℕ) : hits hit p c 1 = if hit ((c + 1) % p) then 1 else 0 := by
  rw [hits_succ, hits_zero, Nat.zero_add, Nat.add_zero]

/-- Steps and those after them, which are counted from where the first lead. -/
theorem hits_add (hit : ℕ → Bool) (p c n m : ℕ) :
    hits hit p c (n + m) = hits hit p c n + hits hit p ((c + n) % p) m := by
  have hrest (k : ℕ) : (c + (n + k) + 1) % p = ((c + n) % p + k + 1) % p := by
    rw [Nat.add_assoc ((c + n) % p), Nat.mod_add_mod, Nat.add_assoc, Nat.add_assoc, Nat.add_assoc]
  simp only [hits, Nat.count_add, hrest]

/-- The times the counter has come to zero. -/
theorem hits_zero_eq_div (h : c < p) (n : ℕ) : hits (· == 0) p c n = (c + n) / p := by
  induction n with
  | zero => rw [hits_zero, Nat.add_zero, Nat.div_eq_of_lt h]
  | succ n ih =>
    rw [hits_succ, ih, ← Nat.add_assoc, Nat.succ_div]
    simp only [beq_iff_eq, Nat.dvd_iff_mod_eq_zero]

end Cycle

end Orbum
