import Mathlib.Algebra.Group.Int.Defs
import Mathlib.Tactic.Common

/-!
# Sign bits and absolute values

How many leading bits of a two's complement number are its sign, and its absolute value, with the greatest number for that
of the least.
-/

namespace Orbum

namespace SignBits

variable {w : ℕ}

/-! ### Leading bits -/

/-- How many of the upper bits of the `i` lower ones are `b`. -/
def leadingBits (b : Bool) (v : BitVec w) (i : ℕ) : ℕ :=
  ((List.range i).takeWhile fun j => v.getLsbD (i - 1 - j) == b).length

/-- How many leading bits are equal to the sign bit. -/
def signBits (v : BitVec w) : ℕ := leadingBits v.msb v w

theorem leadingBits_zero (b : Bool) (v : BitVec w) : leadingBits b v 0 = 0 := rfl

theorem leadingBits_succ (b : Bool) (v : BitVec w) (i : ℕ) :
    leadingBits b v (i + 1) = if v.getLsbD i = b then leadingBits b v i + 1 else 0 := by
  have hshift : (fun j => v.getLsbD (i + 1 - 1 - j) == b) ∘ Nat.succ = fun j => v.getLsbD (i - 1 - j) == b := by
    funext j
    have hj : i + 1 - 1 - (j + 1) = i - 1 - j := by omega
    simp only [Function.comp_apply, Nat.succ_eq_add_one, hj]
  rw [leadingBits, List.range_succ_eq_map, List.takeWhile_cons, List.takeWhile_map, hshift]
  split_ifs with h h' h'
  · rw [List.length_cons, List.length_map, leadingBits]
  · exact absurd (beq_iff_eq.mp h) h'
  · exact absurd (beq_iff_eq.mpr h') h
  · rfl

theorem leadingBits_not (hw : 0 < w) (b : Bool) (v : BitVec w) : leadingBits b (~~~v) w = leadingBits (!b) v w := by
  have hbit : (fun j => (~~~v).getLsbD (w - 1 - j) == b) = fun j => v.getLsbD (w - 1 - j) == !b := by
    funext j
    rw [BitVec.getLsbD_not, decide_eq_true (show w - 1 - j < w by omega), Bool.true_and]
    cases v.getLsbD (w - 1 - j) <;> cases b <;> rfl
  rw [leadingBits, leadingBits, hbit]

/-- They are the leading zeros of the number, or of its complement where it is negative. -/
theorem signBits_eq (hw : 0 < w) (v : BitVec w) : signBits v = leadingBits false (if v.toInt < 0 then ~~~v else v) w := by
  have hmsb : v.toInt < 0 ↔ v.msb = true := by rw [BitVec.msb_eq_toInt, decide_eq_true_iff]
  rw [signBits]
  split_ifs with h
  · rw [leadingBits_not hw, hmsb.mp h, Bool.not_false]
  · rw [Bool.eq_false_iff.mpr (mt hmsb.mpr h)]

theorem leadingBits_zero_of_zero (i : ℕ) : leadingBits false (0 : BitVec w) i = i := by
  induction i with
  | zero => exact leadingBits_zero false 0
  | succ i ih =>
    have hbit : (0 : BitVec w).getLsbD i = false := BitVec.getLsbD_zero
    rw [leadingBits_succ, if_pos hbit, ih]

/-- All bits of 0 are its sign. -/
theorem signBits_zero (hw : 0 < w) : signBits (0 : BitVec w) = w := by
  have hzero : (0 : BitVec w).toInt = 0 := BitVec.toInt_zero
  rw [signBits_eq hw, hzero, if_neg (Int.lt_irrefl 0), leadingBits_zero_of_zero]

/-! ### Absolute values -/

/-- The absolute value, and the greatest number for the least. -/
def saturatedAbs (v : BitVec w) : BitVec w := if v = BitVec.intMin w then BitVec.intMax w else BitVec.ofNat w v.toInt.natAbs

theorem eq_ofNat_natAbs {v : BitVec w} (h : v ≠ BitVec.intMin w) :
    (if v.toInt < 0 then -v else v) = BitVec.ofNat w v.toInt.natAbs := by
  have hofInt (n : ℕ) : BitVec.ofNat w n = BitVec.ofInt w n := (BitVec.ofInt_natCast w n).symm
  split_ifs with hneg
  · rw [hofInt, ← BitVec.ofInt_toInt (x := -v), BitVec.toInt_neg_of_ne_intMin h]
    congr 1
    omega
  · rw [hofInt]
    conv_lhs => rw [← BitVec.ofInt_toInt (x := v)]
    congr 1
    omega

end SignBits

end Orbum
