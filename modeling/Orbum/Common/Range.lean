import Orbum.Common.Primitive

/-!
# Signed ranges

The integers that a machine number of some width can be, and the sums and differences that stay among them.
-/

namespace Orbum

/-- A signed number of `w` bits. -/
def InRange (w : ℕ) (k : ℤ) : Prop := -2 ^ (w - 1) ≤ k ∧ k < 2 ^ (w - 1)

instance (w : ℕ) (k : ℤ) : Decidable (InRange w k) := inferInstanceAs (Decidable (_ ∧ _))

theorem inRange_toInt {w : ℕ} (x : BitVec w) : InRange w x.toInt := ⟨x.le_toInt, x.toInt_lt⟩

theorem toInt_add_of_inRange {w : ℕ} {x y : BitVec w} (h : InRange w (x.toInt + y.toInt)) :
    (x + y).toInt = x.toInt + y.toInt := by
  refine BitVec.toInt_add_of_not_saddOverflow ?_
  simp only [BitVec.saddOverflow, Bool.or_eq_true, decide_eq_true_eq, not_or]
  exact ⟨Int.not_le.mpr h.2, Int.not_lt.mpr h.1⟩

theorem toInt_sub_of_inRange {w : ℕ} {x y : BitVec w} (h : InRange w (x.toInt - y.toInt)) :
    (x - y).toInt = x.toInt - y.toInt := by
  refine BitVec.toInt_sub_of_not_ssubOverflow ?_
  simp only [BitVec.ssubOverflow, Bool.or_eq_true, decide_eq_true_eq, not_or]
  exact ⟨Int.not_le.mpr h.2, Int.not_lt.mpr h.1⟩

theorem inRange_mono {v w : ℕ} (h : v ≤ w) {k : ℤ} (hk : InRange v k) : InRange w k := by
  have hp : (2 : ℤ) ^ (v - 1) ≤ 2 ^ (w - 1) := by
    exact_mod_cast Nat.pow_le_pow_right (by decide) (Nat.sub_le_sub_right h 1)
  exact ⟨Int.le_trans (Int.neg_le_neg hp) hk.1, Int.lt_of_lt_of_le hk.2 hp⟩

end Orbum
