import Orbum.Lib.Except

/-!
# Machines

A machine that takes one step after another, each of which may fail. `steps n` makes `n` of them, up to the first that
fails, and `Leads s o` says that the machine comes from `s` to `o`, which may be a state or a failure.

What a machine leads to is put together by `Leads.head` and `Leads.trans`. A machine that leads to a failure, or to a
state that it stays in, leads to no other failure.
-/

namespace Orbum.Machine

variable {σ ε : Type} (step : σ → Except ε σ)

/-- The first steps from a state. -/
def steps : ℕ → σ → Except ε σ
  | 0, s => .ok s
  | n + 1, s => do steps n (← step s)

/-- Some number of steps ends so. -/
def Leads (s : σ) (o : Except ε σ) : Prop := ∃ n, steps step n s = o

variable {step} {s t : σ} {o : Except ε σ} {e e' : ε}

theorem steps_add (m n : ℕ) (s : σ) : steps step (m + n) s = steps step m s >>= steps step n := by
  induction m generalizing s with
  | zero => rw [Nat.zero_add]; rfl
  | succ m ih =>
    rw [Nat.succ_add]
    unfold steps
    cases step s with
    | error e => rfl
    | ok t => exact ih t

/-- A step more ends as the steps before it do if they end in a failure. -/
theorem steps_error_of_le {m n : ℕ} (h : m ≤ n) (hm : steps step m s = .error e) : steps step n s = .error e := by
  obtain ⟨k, rfl⟩ := Nat.exists_eq_add_of_le h
  rw [steps_add, hm, error_bind]

namespace Leads

theorem refl (s : σ) : Leads step s (.ok s) := ⟨0, rfl⟩

theorem head (hs : step s = .ok t) (h : Leads step t o) : Leads step s o := by
  obtain ⟨n, hn⟩ := h
  exact ⟨n + 1, by rw [steps, hs, ok_bind, hn]⟩

theorem single (hs : step s = .ok t) : Leads step s (.ok t) := head hs (refl t)

theorem fail (hs : step s = .error e) : Leads step s (.error e) := ⟨1, by rw [steps, hs, error_bind]⟩

theorem trans (hs : Leads step s (.ok t)) (h : Leads step t o) : Leads step s o := by
  obtain ⟨m, hm⟩ := hs
  obtain ⟨n, hn⟩ := h
  exact ⟨m + n, by rw [steps_add, hm, ok_bind, hn]⟩

/-- There is one failure at most. -/
theorem error_unique (h : Leads step s (.error e)) (h' : Leads step s (.error e')) : e = e' := by
  obtain ⟨m, hm⟩ := h
  obtain ⟨n, hn⟩ := h'
  rcases Nat.le_total m n with hle | hle
  · exact Except.error.inj ((steps_error_of_le hle hm).symm.trans hn)
  · exact Except.error.inj (hm.symm.trans (steps_error_of_le hle hn))

/-- A machine that stays in a state does not fail. -/
theorem not_error_of_stays (ht : step t = .ok t) (h : Leads step s (.ok t)) : ¬Leads step s (.error e) := by
  have hstays (n : ℕ) : steps step n t = .ok t := by
    induction n with
    | zero => rfl
    | succ n ih => rw [steps, ht, ok_bind, ih]
  rintro ⟨n, hn⟩
  obtain ⟨m, hm⟩ := h
  -- All the steps of both, which end in `t` as well as in the failure.
  have hend : steps step (m + n) s = .ok t := by
    rw [steps_add, hm, ok_bind, hstays]
  have hfail := steps_error_of_le (Nat.le_add_left n m) hn
  cases hend.symm.trans hfail

end Leads

end Orbum.Machine
