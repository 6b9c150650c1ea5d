import Mathlib.Algebra.Group.Int.Defs
import Mathlib.Tactic.Common

/-!
# Saturation

The signed or unsigned integer of a width that is closest to a given one.
-/

namespace Orbum

namespace Saturation

/-- `v`, clamped to the signed integers of `m` bits. -/
def saturate (m : ℕ) (v : ℤ) : BitVec m :=
  if (BitVec.intMax m).toInt < v then BitVec.intMax m
  else if v < (BitVec.intMin m).toInt then BitVec.intMin m
  else BitVec.ofInt m v

variable {m : ℕ} {v : ℤ}

theorem saturate_of_lt (h : (BitVec.intMax m).toInt < v) : saturate m v = BitVec.intMax m := if_pos h

theorem saturate_of_gt (h : v < (BitVec.intMin m).toInt) (hle : (BitVec.intMin m).toInt ≤ (BitVec.intMax m).toInt) :
    saturate m v = BitVec.intMin m := by
  rw [saturate, if_neg (Int.not_lt.mpr (Int.le_trans (Int.le_of_lt h) hle)), if_pos h]

theorem saturate_of_mem (h : (BitVec.intMin m).toInt ≤ v) (h' : v ≤ (BitVec.intMax m).toInt) :
    saturate m v = BitVec.ofInt m v := by
  rw [saturate, if_neg (Int.not_lt.mpr h'), if_neg (Int.not_lt.mpr h)]

/-- A clamped integer, read back. -/
theorem toInt_saturate (hm : 0 < m) (v : ℤ) :
    (saturate m v).toInt =
      if (BitVec.intMax m).toInt < v then (BitVec.intMax m).toInt
      else if v < (BitVec.intMin m).toInt then (BitVec.intMin m).toInt
      else v := by
  unfold saturate
  split_ifs with h h'
  · rfl
  · rfl
  · rw [BitVec.toInt_intMax] at h
    rw [BitVec.toInt_intMin_of_pos hm] at h'
    exact BitVec.toInt_ofInt_eq_self hm (by omega) (by omega)

/-- A bit vector is made of the integer it stands for, signed or not. -/
theorem ofInt_toNat (a : BitVec m) : BitVec.ofInt m a.toNat = a := by
  rw [BitVec.ofInt_natCast, BitVec.ofNat_toNat, BitVec.setWidth_eq]

theorem ofInt_sub (v v' : ℤ) : BitVec.ofInt m (v - v') = BitVec.ofInt m v - BitVec.ofInt m v' := by
  rw [Int.sub_eq_add_neg, BitVec.ofInt_add, BitVec.ofInt_neg, BitVec.sub_eq_add_neg]

/-- `v`, clamped to the unsigned integers of `m` bits. -/
def saturateUnsigned (m : ℕ) (v : ℤ) : BitVec m :=
  if ((BitVec.allOnes m).toNat : ℤ) < v then BitVec.allOnes m
  else if v < 0 then 0
  else BitVec.ofInt m v

end Saturation

end Orbum
