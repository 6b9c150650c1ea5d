import Mathlib.Algebra.Group.Int.Defs
import Mathlib.Tactic.Common

/-!
# Signed and unsigned order

Bit vectors as two's complement numbers, and what becomes of their order when they are compared as unsigned ones: it is
kept where the signs are equal, and turned round where they are not.
-/

namespace Orbum

namespace SignedOrder

variable {w : ℕ} {a b : BitVec w}

theorem toInt_lt_iff_of_msb_eq (h : a.msb = b.msb) : a.toInt < b.toInt ↔ a < b := by
  rw [BitVec.toInt_eq_msb_cond, BitVec.toInt_eq_msb_cond, h, BitVec.lt_def]
  split_ifs
  · omega
  · omega

/-- A negative number and one that is not. -/
theorem lt_of_msb (h : a.msb = true) (h' : b.msb = false) : a.toInt < b.toInt ∧ b < a := by
  have ha := a.isLt
  have hneg := h
  have hnonneg := h'
  rw [BitVec.msb_eq_decide, decide_eq_true_iff] at hneg
  rw [BitVec.msb_eq_decide, decide_eq_false_iff_not] at hnonneg
  rw [BitVec.toInt_eq_msb_cond, BitVec.toInt_eq_msb_cond, h, h', if_pos rfl, if_neg Bool.false_ne_true, BitVec.lt_def]
  omega

theorem toInt_lt_iff_of_msb_ne (h : a.msb ≠ b.msb) : a.toInt < b.toInt ↔ b < a := by
  cases ha : a.msb with
  | false =>
    have hb : b.msb = true := by simpa [ha] using h
    obtain ⟨hlt, hlt'⟩ := lt_of_msb hb ha
    rw [BitVec.lt_def] at hlt' ⊢
    omega
  | true =>
    have hb : b.msb = false := by simpa [ha] using h
    obtain ⟨hlt, hlt'⟩ := lt_of_msb ha hb
    exact iff_of_true hlt hlt'

theorem lt_or_lt_of_msb_ne (h : a.msb ≠ b.msb) : a < b ∨ b < a := by
  rw [BitVec.lt_def, BitVec.lt_def]
  have hne : a.toNat ≠ b.toNat := fun heq => h (congrArg BitVec.msb (BitVec.eq_of_toNat_eq heq))
  omega

/-- A choice by the unsigned order is the one by the signed order if and only if the signs are equal, or it is no choice. -/
theorem ite_lt_eq_iff {α : Type*} (x y : α) :
    (if a < b then x else y) = (if a.toInt < b.toInt then x else y) ↔ a.msb = b.msb ∨ x = y := by
  by_cases h : a.msb = b.msb
  · simp only [toInt_lt_iff_of_msb_eq h, h, true_or]
  · simp only [toInt_lt_iff_of_msb_ne h, h, false_or]
    rcases lt_or_lt_of_msb_ne h with hlt | hlt
    · have hnot : ¬b < a := by
        rw [BitVec.lt_def] at hlt ⊢
        omega
      rw [if_pos hlt, if_neg hnot]
    · have hnot : ¬a < b := by
        rw [BitVec.lt_def] at hlt ⊢
        omega
      rw [if_neg hnot, if_pos hlt]
      exact eq_comm

/-- Sign extension keeps the order. -/
theorem toInt_signExtend_lt_iff {v : ℕ} (h : w ≤ v) :
    (a.signExtend v).toInt < (b.signExtend v).toInt ↔ a.toInt < b.toInt := by
  rw [BitVec.toInt_signExtend_of_le h, BitVec.toInt_signExtend_of_le h]

end SignedOrder

end Orbum
