import Orbum.Common.Primitive

/-!
# Bitfields

`Common/Types/Bitfield.hpp`: a field of `length` bits from bit `start` on, extracted from and
inserted into a primitive of any width.
-/

namespace Orbum

/-- `struct Bitfield`. -/
structure Bitfield where
  /-- The lowest bit of the field. -/
  start : ℕ
  /-- How many bits the field has. -/
  length : ℕ
  deriving DecidableEq, Repr

namespace Bitfield

variable {w : ℕ} (f g : Bitfield) (v x : BitVec w)

/-- `unshifted_mask<T>()`. -/
def unshiftedMask (w : ℕ) : BitVec w := (1#w <<< f.length) - 1#w

/-- `shifted_mask<T>()`. -/
def shiftedMask (w : ℕ) : BitVec w := f.unshiftedMask w <<< f.start

/-- `extract_from(value)`. -/
def extractFrom : BitVec w := (v &&& f.shiftedMask w) >>> f.start

/-- `insert_into(value, field_value)`. -/
def insertInto : BitVec w := (v &&& ~~~(f.shiftedMask w)) ||| ((x &&& f.unshiftedMask w) <<< f.start)

/-! ### Bit by bit -/

theorem getLsbD_unshiftedMask (i : ℕ) :
    (f.unshiftedMask w).getLsbD i = (decide (i < w) && decide (i < f.length)) := by
  by_cases hi : i < w
  · have hw : (f.unshiftedMask w).toNat = 2 ^ min f.length w - 1 := by
      have h1 : 1 < 2 ^ w := Nat.one_lt_two_pow (by omega)
      simp only [unshiftedMask, BitVec.toNat_sub, BitVec.toNat_shiftLeft, BitVec.toNat_ofNat,
        Nat.mod_eq_of_lt h1, Nat.shiftLeft_eq, Nat.one_mul]
      rcases Nat.lt_or_ge f.length w with hl | hl
      · have h2 : 2 ^ f.length < 2 ^ w := Nat.pow_lt_pow_right (by omega) hl
        have h3 : 0 < 2 ^ f.length := Nat.two_pow_pos _
        rw [Nat.mod_eq_of_lt h2, Nat.min_eq_left (Nat.le_of_lt hl),
          show 2 ^ w - 1 + 2 ^ f.length = 2 ^ f.length - 1 + 2 ^ w by omega, Nat.add_mod_right,
          Nat.mod_eq_of_lt (by omega)]
      · obtain ⟨k, hk⟩ := Nat.pow_dvd_pow 2 hl
        rw [hk, Nat.mul_mod_right, Nat.min_eq_right hl, Nat.add_zero, Nat.mod_eq_of_lt (by omega)]
    rw [BitVec.getLsbD, hw, Nat.testBit_two_pow_sub_one, ← Bool.decide_and, decide_eq_decide]
    omega
  · simp [hi, BitVec.getLsbD_of_ge _ _ (Nat.le_of_not_lt hi)]

theorem getLsbD_shiftedMask (i : ℕ) :
    (f.shiftedMask w).getLsbD i = (decide (i < w) && decide (f.start ≤ i ∧ i < f.start + f.length)) := by
  simp only [shiftedMask, BitVec.getLsbD_shiftLeft, getLsbD_unshiftedMask]
  by_cases h1 : i < w <;> by_cases h2 : f.start ≤ i <;> by_cases h3 : i < f.start + f.length <;>
    simp [h1, h2, h3, Nat.not_lt.mpr] <;> omega

theorem getLsbD_extractFrom (i : ℕ) :
    (f.extractFrom v).getLsbD i = (decide (i < f.length) && v.getLsbD (f.start + i)) := by
  simp only [extractFrom, BitVec.getLsbD_ushiftRight, BitVec.getLsbD_and, getLsbD_shiftedMask]
  by_cases h1 : f.start + i < w
  · by_cases h2 : i < f.length <;> simp [h1, h2]
  · simp [h1, BitVec.getLsbD_of_ge _ _ (Nat.le_of_not_lt h1)]

theorem getLsbD_insertInto (i : ℕ) (hi : i < w) :
    (f.insertInto v x).getLsbD i =
      if f.start ≤ i ∧ i < f.start + f.length then x.getLsbD (i - f.start) else v.getLsbD i := by
  simp only [insertInto, BitVec.getLsbD_or, BitVec.getLsbD_and, BitVec.getLsbD_not,
    getLsbD_shiftedMask, BitVec.getLsbD_shiftLeft, getLsbD_unshiftedMask]
  by_cases h1 : f.start ≤ i <;> by_cases h2 : i < f.start + f.length <;>
    simp [hi, h1, h2] <;> grind

/-! ### Fields of a register -/

/-- Two fields share no bit. -/
def Disjoint : Prop := f.start + f.length ≤ g.start ∨ g.start + g.length ≤ f.start

instance : Decidable (Disjoint f g) := inferInstanceAs (Decidable (_ ∨ _))

theorem extractFrom_insertInto_self (h : f.start + f.length ≤ w) :
    f.extractFrom (f.insertInto v x) = x &&& f.unshiftedMask w := by
  ext i hi
  simp only [← BitVec.getLsbD_eq_getElem, getLsbD_extractFrom, BitVec.getLsbD_and, getLsbD_unshiftedMask]
  by_cases hl : i < f.length
  · rw [getLsbD_insertInto _ _ _ _ (by omega)]
    simp [hi, hl]
  · simp [hl]

theorem extractFrom_insertInto_of_disjoint {f g : Bitfield} (h : Disjoint f g) :
    f.extractFrom (g.insertInto v x) = f.extractFrom v := by
  ext i hi
  simp only [← BitVec.getLsbD_eq_getElem, getLsbD_extractFrom]
  by_cases hl : i < f.length
  · by_cases hw : f.start + i < w
    · rw [getLsbD_insertInto _ _ _ _ hw, if_neg]
      rcases h with h | h <;> omega
    · simp [BitVec.getLsbD_of_ge _ _ (Nat.le_of_not_lt hw)]
  · simp [hl]

theorem insertInto_insertInto (y : BitVec w) : f.insertInto (f.insertInto v x) y = f.insertInto v y := by
  ext i hi
  simp only [← BitVec.getLsbD_eq_getElem]
  rw [getLsbD_insertInto _ _ _ _ hi, getLsbD_insertInto _ _ _ _ hi, getLsbD_insertInto _ _ _ _ hi]
  split_ifs <;> rfl

/-- Writing back what a field holds changes nothing. -/
theorem insertInto_extractFrom : f.insertInto v (f.extractFrom v) = v := by
  ext i hi
  simp only [← BitVec.getLsbD_eq_getElem]
  rw [getLsbD_insertInto _ _ _ _ hi]
  split_ifs with hc
  · rw [getLsbD_extractFrom, show f.start + (i - f.start) = i by omega]
    simp [show i - f.start < f.length by omega]
  · rfl

/-- Extraction as arithmetic. -/
theorem toNat_extractFrom : (f.extractFrom v).toNat = v.toNat / 2 ^ f.start % 2 ^ f.length := by
  apply Nat.eq_of_testBit_eq
  intro i
  have h := getLsbD_extractFrom f v i
  simp only [BitVec.getLsbD] at h
  rw [h, Nat.testBit_mod_two_pow, Nat.testBit_div_two_pow, Nat.add_comm]

/-- Masking as arithmetic. -/
theorem toNat_and_shiftedMask (h : f.start + f.length ≤ w) :
    (v &&& f.shiftedMask w).toNat = v.toNat / 2 ^ f.start % 2 ^ f.length * 2 ^ f.start := by
  have hfield : v &&& f.shiftedMask w = f.extractFrom v <<< f.start := by
    ext i hi
    rw [← BitVec.getLsbD_eq_getElem, ← BitVec.getLsbD_eq_getElem, BitVec.getLsbD_and, getLsbD_shiftedMask,
      BitVec.getLsbD_shiftLeft, getLsbD_extractFrom]
    by_cases hs : i < f.start
    · simp [hs, Nat.not_le.mpr hs]
    · by_cases hl : i < f.start + f.length
      · simp [hi, hs, hl, Nat.le_of_not_lt hs, show i - f.start < f.length by omega,
          show f.start + (i - f.start) = i by omega]
      · simp [hs, hl, show ¬i - f.start < f.length by omega]
  have hlt : v.toNat / 2 ^ f.start % 2 ^ f.length * 2 ^ f.start < 2 ^ w :=
    calc v.toNat / 2 ^ f.start % 2 ^ f.length * 2 ^ f.start
      _ < 2 ^ f.length * 2 ^ f.start :=
        Nat.mul_lt_mul_of_pos_right (Nat.mod_lt _ (Nat.two_pow_pos _)) (Nat.two_pow_pos _)
      _ = 2 ^ (f.start + f.length) := by rw [← Nat.pow_add, Nat.add_comm]
      _ ≤ 2 ^ w := Nat.pow_le_pow_right (by decide) h
  rw [hfield, BitVec.toNat_shiftLeft, toNat_extractFrom, Nat.shiftLeft_eq, Nat.mod_eq_of_lt hlt]

theorem toNat_extractFrom_lt : (f.extractFrom v).toNat < 2 ^ f.length := by
  rw [toNat_extractFrom]
  exact Nat.mod_lt _ (Nat.two_pow_pos _)

/-- What a field holds fits in it. -/
theorem extractFrom_and_unshiftedMask :
    f.extractFrom v &&& f.unshiftedMask w = f.extractFrom v := by
  ext i hi
  simp only [← BitVec.getLsbD_eq_getElem, BitVec.getLsbD_and, getLsbD_unshiftedMask, getLsbD_extractFrom, hi,
    decide_true, Bool.true_and]
  by_cases hl : i < f.length <;> simp [hl]

theorem extractFrom_and : f.extractFrom (v &&& x) = f.extractFrom v &&& f.extractFrom x := by
  ext i hi
  simp only [← BitVec.getLsbD_eq_getElem, BitVec.getLsbD_and, getLsbD_extractFrom]
  by_cases hl : i < f.length <;> simp [hl]

/-- A field of at most `n` bits survives `n` bits of storage. -/
theorem setWidth_setWidth_extractFrom {n : ℕ} (hn : f.length ≤ n) :
    ((f.extractFrom v).setWidth n).setWidth w = f.extractFrom v := by
  ext i hi
  simp only [← BitVec.getLsbD_eq_getElem, BitVec.getLsbD_setWidth, getLsbD_extractFrom, hi, decide_true, Bool.true_and]
  by_cases hl : i < f.length
  · simp [hl, show i < n by omega]
  · simp [hl]

/-! ### Fields of one bit -/

theorem extractFrom_bit_eq_zero_iff (n : ℕ) : extractFrom ⟨n, 1⟩ v = 0 ↔ v.getLsbD n = false := by
  have hbit (i : ℕ) : (extractFrom ⟨n, 1⟩ v).getLsbD i = (decide (i < 1) && v.getLsbD (n + i)) :=
    getLsbD_extractFrom ⟨n, 1⟩ v i
  constructor
  · intro h
    have h0 := hbit 0
    rw [h] at h0
    simpa using h0.symm
  · intro h
    apply BitVec.eq_of_getLsbD_eq
    intro i hi
    rw [hbit]
    cases i with
    | zero => simpa using h
    | succ i => simp

theorem zero_lt_extractFrom_bit_iff (n : ℕ) : 0 < extractFrom ⟨n, 1⟩ v ↔ v.getLsbD n = true := by
  rw [← Bool.not_eq_false, ← extractFrom_bit_eq_zero_iff, BitVec.lt_def, BitVec.toNat_eq]
  exact Nat.pos_iff_ne_zero

theorem ite_extractFrom_bit {α : Type} (n : ℕ) (a b : α) :
    (if extractFrom ⟨n, 1⟩ v = 0 then a else b) = if v.getLsbD n then b else a := by
  rw [if_congr (extractFrom_bit_eq_zero_iff v n) rfl rfl]
  cases v.getLsbD n <;> rfl

/-- A field of one bit gets the lowest bit of the value. -/
theorem getLsbD_insertInto_one (n i : ℕ) (hi : i < w) :
    (insertInto ⟨n, 1⟩ v x).getLsbD i = if i = n then x.getLsbD 0 else v.getLsbD i := by
  rw [getLsbD_insertInto _ _ _ _ hi]
  by_cases h : i = n
  · subst h
    rw [if_pos ⟨Nat.le_refl _, Nat.lt_succ_self _⟩, if_pos rfl, Nat.sub_self]
  · rw [if_neg h, if_neg (by simp only; omega)]

/-- Setting a field of one bit. -/
theorem getLsbD_insertInto_bit (n : ℕ) (i : ℕ) (hi : i < w) :
    (insertInto ⟨n, 1⟩ v 1).getLsbD i = (decide (i = n) || v.getLsbD i) := by
  rw [getLsbD_insertInto_one _ _ _ _ hi]
  by_cases h : i = n
  · rw [if_pos h, decide_eq_true h, Bool.true_or, show (1 : BitVec w) = 1#w from rfl, BitVec.getLsbD_one]
    simp
    omega
  · rw [if_neg h, decide_eq_false h, Bool.false_or]

/-- Forcing the lowest bit to what it is. -/
theorem and_not_one {v : BitVec 32} (h : extractFrom ⟨0, 1⟩ v = 0) : v &&& ~~~1 = v := by
  rw [extractFrom_bit_eq_zero_iff] at h
  apply BitVec.eq_of_getLsbD_eq
  intro i hi
  rw [BitVec.getLsbD_and, BitVec.getLsbD_not, show (1 : BitVec 32) = 1#32 from rfl, BitVec.getLsbD_one]
  by_cases h0 : i = 0
  · rw [h0, h, Bool.false_and]
  · simp [hi, h0]

theorem or_one {v : BitVec 32} (h : extractFrom ⟨0, 1⟩ v ≠ 0) : v ||| 1 = v := by
  rw [Ne, extractFrom_bit_eq_zero_iff, Bool.not_eq_false] at h
  apply BitVec.eq_of_getLsbD_eq
  intro i hi
  rw [BitVec.getLsbD_or, show (1 : BitVec 32) = 1#32 from rfl, BitVec.getLsbD_one]
  by_cases h0 : i = 0
  · rw [h0, h, Bool.true_or]
  · simp [h0]

end Bitfield

end Orbum
