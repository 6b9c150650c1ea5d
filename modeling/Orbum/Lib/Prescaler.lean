import Mathlib.Tactic.Common

/-!
# Prescaled counters

A counter that counts every `p`-th tick, modulo `m`. What it reads after `n` ticks depends on `n` alone, not on how the
ticks come in; only the remainder `n % p` has to be kept between them.
-/

namespace Orbum

namespace Prescaler

variable (p m n k : ℕ)

/-- The count after `n` ticks. -/
def count : ℕ := n / p % m

/-- One of the `k` ticks after the first `n` takes the count from its maximum to `0`. -/
def Wraps : Prop := ∃ i, n < i ∧ i ≤ n + k ∧ count p m (i - 1) = m - 1 ∧ count p m i = 0

variable {p m n k}

/-- A tick moves the quotient by at most one. -/
theorem succ_div_le (hp : 0 < p) (i : ℕ) : (i + 1) / p ≤ i / p + 1 := by
  have h : (i + 1) / p ≤ (i + p) / p := Nat.div_le_div_right (by omega)
  rwa [Nat.add_div_right i hp] at h

/-- The count wraps where another multiple of `m` is reached. -/
theorem wraps_iff (hp : 0 < p) (hm : 1 < m) : Wraps p m n k ↔ n / p / m < (n + k) / p / m := by
  constructor
  · rintro ⟨i, hi, hik, hmax, hzero⟩
    obtain ⟨j, rfl⟩ : ∃ j, i = j + 1 := ⟨i - 1, by omega⟩
    rw [Nat.add_sub_cancel] at hmax
    have hle := succ_div_le hp j
    have hmono : j / p ≤ (j + 1) / p := Nat.div_le_div_right (by omega)
    have hstep : (j + 1) / p = j / p + 1 := by
      rcases Nat.lt_or_eq_of_le hmono with hlt | heq
      · omega
      · simp only [count, ← heq] at hmax hzero
        omega
    have hnext : (j + 1) / p / m = j / p / m + 1 := by
      simp only [count, hstep] at hzero
      rw [hstep, Nat.succ_div, if_pos (Nat.dvd_of_mod_eq_zero hzero)]
    have hlow : n / p / m ≤ j / p / m := Nat.div_le_div_right (Nat.div_le_div_right (by omega))
    have hhigh : (j + 1) / p / m ≤ (n + k) / p / m := Nat.div_le_div_right (Nat.div_le_div_right hik)
    omega
  · intro h
    -- the first tick with the new quotient
    let q := (n / p / m + 1) * m
    have hq : 0 < q := Nat.mul_pos (Nat.succ_pos _) (by omega)
    have hlt : n / p < q := by
      have := Nat.lt_mul_div_succ (n / p) (Nat.lt_of_succ_lt hm)
      simpa [q, Nat.mul_comm] using this
    have hle : q ≤ (n + k) / p := (Nat.le_div_iff_mul_le (by omega)).mp (Nat.succ_le_of_lt h)
    have hqp : 0 < q * p := Nat.mul_pos hq hp
    refine ⟨q * p, (Nat.div_lt_iff_lt_mul hp).mp hlt, (Nat.le_div_iff_mul_le hp).mp hle, ?_, ?_⟩
    · have hpred : (q * p - 1) / p = q - 1 := by
        rw [Nat.div_eq_iff hp, Nat.sub_mul]
        have : p ≤ q * p := Nat.le_mul_of_pos_left p hq
        omega
      rw [count, hpred]
      have hmul : q - 1 = m - 1 + (n / p / m) * m := by simp only [q, Nat.succ_mul]; omega
      rw [hmul, Nat.add_mul_mod_self_right, Nat.mod_eq_of_lt (by omega)]
    · rw [count, Nat.mul_div_cancel _ hp]
      exact Nat.mul_mod_left _ _

/-- What a count adds to: the ticks of the remainder and those to come. -/
theorem div_add (hp : 0 < p) : (n + k) / p = n / p + (n % p + k) / p := by
  conv_lhs => rw [← Nat.div_add_mod n p, Nat.add_assoc, Nat.mul_add_div hp]

/-- `k` ticks advance the quotient by `k` at most. -/
theorem div_add_le (hp : 0 < p) (hk : 0 < k) : (n + k) / p ≤ n / p + k := by
  rw [div_add hp]
  have hmod := Nat.mod_lt n hp
  have hmul : p + k ≤ p * k + 1 := by
    obtain ⟨p, rfl⟩ := Nat.exists_eq_add_of_lt hp
    obtain ⟨k, rfl⟩ := Nat.exists_eq_add_of_lt hk
    simp only [Nat.zero_add, Nat.succ_mul, Nat.mul_succ]
    omega
  exact Nat.add_le_add_left (Nat.div_le_of_le_mul (by omega)) _

/-- A count that advances by less than its modulus changes. -/
theorem count_ne_of_lt (hup : n / p < (n + k) / p) (hlt : (n + k) / p < n / p + m) : count p m (n + k) ≠ n / p := by
  intro h
  have hdiv := Nat.div_add_mod ((n + k) / p) m
  rw [count] at h
  rcases Nat.eq_zero_or_pos ((n + k) / p / m) with h0 | hpos
  · rw [h0, Nat.mul_zero] at hdiv
    omega
  · have := Nat.le_mul_of_pos_right m hpos
    omega

/-- Reduced by one less than its modulus, a count that has just wrapped is off. -/
theorem mod_pred_ne (hm : 2 < m) (hle : m ≤ n) (hlt : n ≤ 2 * (m - 1)) : n % (m - 1) ≠ n % m := by
  have hmod : n % m = n - m := by rw [Nat.mod_eq_sub_mod hle, Nat.mod_eq_of_lt (by omega)]
  rw [hmod]
  rcases Nat.lt_or_eq_of_le hlt with hlt | rfl
  · rw [Nat.mod_eq_sub_mod (by omega), Nat.mod_eq_of_lt (by omega)]
    omega
  · rw [Nat.mul_mod_left]
    omega

theorem count_eq_of_lt (h : n / p < m) : count p m n = n / p := Nat.mod_eq_of_lt h

/-- A count that stays below `m` does not wrap. -/
theorem not_wraps_of_lt (hp : 0 < p) (hm : 1 < m) (h : (n + k) / p < m) : ¬Wraps p m n k := by
  rw [wraps_iff hp hm, Nat.div_eq_of_lt h]
  exact Nat.not_lt_zero _

/-- The first wrap is where the count reaches `m`. -/
theorem le_of_wraps (hp : 0 < p) (hm : 1 < m) (h : Wraps p m n k) : m ≤ (n + k) / p := by
  by_contra hlt
  exact not_wraps_of_lt hp hm (by omega) h

/-- A count that has reached `m` wrapped on the way. -/
theorem wraps_of_le (hp : 0 < p) (hm : 1 < m) (hn : n / p < m) (h : m ≤ (n + k) / p) : Wraps p m n k := by
  rw [wraps_iff hp hm, Nat.div_eq_of_lt hn]
  exact Nat.div_pos h (by omega)

end Prescaler

end Orbum
