import Mathlib.Data.Nat.Notation
import Mathlib.Tactic.Common

/-!
# Little endian bytes

A bit vector as the list of its bytes, the lowest first, and back. `bytes_append` is the rule for wider
values: the bytes of `hi ++ lo` are those of `lo` and then those of `hi`.
-/

namespace Orbum.LittleEndian

variable {w : ℕ}

/-- The `n` lowest bytes. -/
def bytes (n : ℕ) (v : BitVec w) : List (BitVec 8) := (List.range n).map fun i => v.extractLsb' (8 * i) 8

/-- The value with the given bytes. -/
def ofBytes (w : ℕ) : List (BitVec 8) → BitVec w
  | [] => 0
  | b :: bs => b.setWidth w ||| ofBytes w bs <<< 8

@[simp] theorem length_bytes (n : ℕ) (v : BitVec w) : (bytes n v).length = n := by simp [bytes]

theorem bytes_eq_cons (n : ℕ) (v : BitVec w) : bytes (n + 1) v = v.setWidth 8 :: bytes n (v >>> 8) := by
  rw [bytes, List.range_succ_eq_map, List.map_cons, List.map_map]
  congr 1
  · ext i hi
    simp
  · refine List.map_congr_left fun i _ => ?_
    ext j hj
    simp only [Function.comp, BitVec.getElem_extractLsb', BitVec.getLsbD_ushiftRight]
    congr 1
    omega

/-- Reading back what was written. -/
theorem ofBytes_bytes (n : ℕ) (v : BitVec w) (hw : w ≤ 8 * n) : ofBytes w (bytes n v) = v := by
  suffices h : ∀ (n : ℕ) (u : BitVec w) (i : ℕ), i < w →
      (ofBytes w (bytes n u)).getLsbD i = (decide (i < 8 * n) && u.getLsbD i) by
    ext i hi
    rw [← BitVec.getLsbD_eq_getElem, ← BitVec.getLsbD_eq_getElem, h n v i hi]
    simp [show i < 8 * n by omega]
  intro n
  induction n with
  | zero => simp [bytes, ofBytes]
  | succ n ih =>
    intro u i hi
    rw [bytes_eq_cons, ofBytes, BitVec.getLsbD_or, BitVec.getLsbD_shiftLeft, BitVec.getLsbD_setWidth]
    by_cases h8 : i < 8
    · simp [h8, hi, show i < 8 * (n + 1) by omega]
    · rw [ih _ _ (by omega), BitVec.getLsbD_ushiftRight, show 8 + (i - 8) = i by omega,
        BitVec.getLsbD_setWidth]
      by_cases hn : i < 8 * (n + 1)
      · simp [h8, hi, hn, show i - 8 < 8 * n by omega]
      · simp [h8, hi, hn, show ¬i - 8 < 8 * n by omega]

theorem getLsbD_ofBytes (bs : List (BitVec 8)) {i : ℕ} (hi : i < w) :
    (ofBytes w bs).getLsbD i = (bs.getD (i / 8) 0).getLsbD (i % 8) := by
  induction bs generalizing i with
  | nil => simp [ofBytes]
  | cons b bs ih =>
    rw [ofBytes, BitVec.getLsbD_or, BitVec.getLsbD_shiftLeft, BitVec.getLsbD_setWidth]
    by_cases h8 : i < 8
    · simp [h8, hi, Nat.div_eq_of_lt h8, Nat.mod_eq_of_lt h8]
    · rw [ih (by omega), show i / 8 = (i - 8) / 8 + 1 by omega, show i % 8 = (i - 8) % 8 by omega]
      simp [h8, hi, BitVec.getLsbD_of_ge b i (by omega)]

/-- The bytes of a value made of them. -/
theorem extractLsb'_ofBytes (bs : List (BitVec 8)) {j : ℕ} (hj : 8 * j + 8 ≤ w) :
    (ofBytes w bs).extractLsb' (8 * j) 8 = bs.getD j 0 := by
  apply BitVec.eq_of_getLsbD_eq
  intro i hi
  rw [BitVec.getLsbD_extractLsb', getLsbD_ofBytes bs (by omega), decide_eq_true hi, Bool.true_and,
    show (8 * j + i) / 8 = j by omega, show (8 * j + i) % 8 = i by omega]

theorem getElem_bytes {n j : ℕ} (v : BitVec w) (hj : j < (bytes n v).length) :
    (bytes n v)[j] = v.extractLsb' (8 * j) 8 := by
  simp [bytes]

/-- As many bytes as a value has. -/
theorem bytes_ofBytes {n : ℕ} {bs : List (BitVec 8)} (hbs : bs.length = n) (hn : 8 * n ≤ w) : bytes n (ofBytes w bs) = bs := by
  refine List.ext_getElem (by rw [length_bytes, hbs]) fun j hj hj' => ?_
  rw [getElem_bytes, extractLsb'_ofBytes _ (by omega), List.getD_eq_getElem?_getD, List.getElem?_eq_getElem hj',
    Option.getD_some]

/-- The bytes of two values side by side. -/
theorem bytes_append {u : ℕ} (m n : ℕ) (hi : BitVec u) (lo : BitVec (8 * m)) :
    bytes (m + n) (hi ++ lo) = bytes m lo ++ bytes n hi := by
  rw [bytes, List.range_add, List.map_append, List.map_map]
  refine congrArg₂ (· ++ ·) (List.map_congr_left fun i hi' => ?_) (List.map_congr_left fun i _ => ?_)
  · ext j hj
    have : i < m := List.mem_range.mp hi'
    rw [BitVec.getElem_extractLsb', BitVec.getElem_extractLsb', BitVec.getLsbD_append]
    simp [show 8 * i + j < 8 * m by omega]
  · ext j hj
    simp only [Function.comp]
    rw [BitVec.getElem_extractLsb', BitVec.getElem_extractLsb', BitVec.getLsbD_append]
    simp only [show ¬8 * (m + i) + j < 8 * m by omega, show 8 * (m + i) + j - 8 * m = 8 * i + j by omega]
    simp

/-- The bytes of a value, group by group. -/
theorem bytes_mul (n m : ℕ) (v : BitVec w) :
    bytes (n * m) v = (List.range n).flatMap fun k => bytes m (v.extractLsb' (8 * m * k) (8 * m)) := by
  induction n with
  | zero => rw [Nat.zero_mul, bytes, List.range_zero, List.map_nil, List.flatMap_nil]
  | succ n ih =>
    have hgroup : bytes m (v.extractLsb' (8 * m * n) (8 * m)) =
        (List.range m).map fun i => v.extractLsb' (8 * (n * m + i)) 8 := by
      refine List.map_congr_left fun i hi => ?_
      have hlt : i < m := List.mem_range.mp hi
      ext j hj
      simp only [BitVec.getElem_extractLsb', BitVec.getLsbD_extractLsb', decide_eq_true (show 8 * i + j < 8 * m by omega),
        Bool.true_and]
      congr 1
      rw [Nat.mul_add, ← Nat.add_assoc, Nat.mul_assoc, Nat.mul_comm m n]
    rw [List.range_succ, List.flatMap_append, ← ih, List.flatMap_singleton, hgroup, Nat.add_mul, Nat.one_mul, bytes,
      List.range_add, List.map_append, List.map_map]
    rfl

end Orbum.LittleEndian
