import Orbum.Ee.Core.Interpreter.Transfer
import Orbum.Ee.Core.ParallelMultiply
import Orbum.Lib.Saturation

/-!
# Saturation of HI and LO

`PMFHL.SH` clamps the eight words of `HI` and `LO` to halfwords. `PMFHL.SLW` should put a word of `HI` and one of `LO`
together to a doubleword and clamp that; it clamps the bitwise or of both words, which is never negative.
-/

namespace Orbum

open Lanes Saturation

namespace R5900

variable {σ : Type} (inst : EeCoreInstruction) (d : R5900 σ)

/-! ### Halfwords -/

/-- `saturate_word_to_hword` clamps. -/
theorem saturateWordToHword_eq (value : Uword) : saturateWordToHword value = saturate 16 value.toInt := by
  have hmin : (BitVec.intMin 16).toInt = -0x8000 := rfl
  have hmax : (BitVec.intMax 16).toInt = 0x7FFF := rfl
  unfold saturateWordToHword
  split_ifs with h1 h2
  · exact (saturate_of_lt (hmax ▸ h1)).symm
  · exact (saturate_of_gt (hmin ▸ h2) (by decide)).symm
  · rw [saturate_of_mem (by omega) (by omega)]
    exact (BitVec.signExtend_eq_setWidth_of_le value (by decide)).symm

/-! ### Words -/

/-- The bits of both words as one number. -/
theorem toNat_or_bounds (hi lo : Uword) : hi.toNat ≤ (hi ||| lo).toNat ∧ lo.toNat ≤ (hi ||| lo).toNat := by
  rw [BitVec.toNat_or]
  exact ⟨Nat.left_le_or, Nat.right_le_or⟩

/-- `clamp` of words whose bitwise or is past the greatest word, and of others. -/
theorem toInt_clamp (lo hi : Uword) :
    (clamp lo hi).toInt = if 0x7FFFFFFF < (hi ||| lo).toNat then 0x7FFFFFFF else ((hi ||| lo).toNat : ℤ) := by
  have hlt := (hi ||| lo).isLt
  have hwide : ((hi ||| lo).setWidth 64).toNat = (hi ||| lo).toNat := by
    rw [BitVec.toNat_setWidth, Nat.mod_eq_of_lt (by omega)]
  have hint : ((hi ||| lo).setWidth 64).toInt = (hi ||| lo).toNat := by
    rw [BitVec.toInt_eq_toNat_of_lt (by omega), hwide]
  rw [clamp, BitVec.toInt_signExtend_of_le (by decide), saturateDwordToWord, hint]
  by_cases h : 0x7FFFFFFF < (hi ||| lo).toNat
  · rw [if_pos (by omega), if_pos h]
    decide
  · rw [if_neg (by omega), if_neg (by omega), if_neg h, BitVec.setWidth_setWidth_of_le _ (by decide), BitVec.setWidth_eq,
      BitVec.toInt_eq_toNat_of_lt (by omega)]

/-- Where the clamped or of both words is the clamped doubleword: the upper word is not negative, and it is 0 or the or is
past the greatest word. -/
def ClampRight (lo hi : Uword) : Prop := 0 ≤ hi.toInt ∧ (hi = 0 ∨ 0x7FFFFFFF ≤ (hi ||| lo).toNat)

instance (lo hi : Uword) : Decidable (ClampRight lo hi) := inferInstanceAs (Decidable (_ ∧ _))

theorem clamp_eq_iff (lo hi : Uword) :
    clamp lo hi = (saturate 32 (hi ++ lo).toInt).signExtend 64 ↔ ClampRight lo hi := by
  have hvalue : (hi ++ lo).toInt = 2 ^ 32 * hi.toInt + lo.toNat := by
    rw [BitVec.toInt_append, if_neg (by decide)]
  have hmin : (BitVec.intMin 32).toInt = -0x80000000 := rfl
  have hmax : (BitVec.intMax 32).toInt = 0x7FFFFFFF := rfl
  obtain ⟨hhi, hlo⟩ := toNat_or_bounds hi lo
  have hlt := lo.isLt
  rw [← BitVec.toInt_inj, toInt_clamp, BitVec.toInt_signExtend_of_le (by decide), toInt_saturate (by decide), hmin, hmax,
    hvalue, ClampRight]
  rcases Int.lt_trichotomy hi.toInt 0 with hneg | hzero | hpos
  · -- a negative doubleword, where the or of words is not
    simp only [show ¬0 ≤ hi.toInt by omega, false_and, iff_false]
    intro heq
    split_ifs at heq <;> omega
  · -- the doubleword is the lower word, and so is the or
    have h0 : hi = 0 := BitVec.eq_of_toInt_eq hzero
    subst h0
    simp only [show (0 : Uword).toInt = 0 from rfl, show (0 : Uword) ||| lo = lo from BitVec.zero_or, Int.le_refl, true_or,
      and_self, iff_true]
    split_ifs <;> omega
  · -- the doubleword is past the greatest word, the or perhaps not
    have h0 : hi ≠ 0 := by
      rintro rfl
      exact absurd hpos (by decide)
    simp only [show 0 ≤ hi.toInt by omega, h0, false_or, true_and]
    split_ifs <;> omega

/-! ### The instructions -/

/-- What the two forms of `PMFHL` should write. -/
structure Saturates (inst : EeCoreInstruction) (d : R5900 σ) : Prop where
  /-- Doubleword `k` is the clamped doubleword of words `2k`. -/
  slw : pmfhlSlw inst d = d.writeUqword inst.rd (setLanes
    (fun k => (saturate 32 (lane 32 (2 * k) d.rest.hi ++ lane 32 (2 * k) d.rest.lo).toInt).signExtend 64) 2 0)
  /-- The halfwords are the clamped words of `LO` and `HI`. -/
  sh : pmfhlSh inst d = d.writeUqword inst.rd (setLanes (fun i => saturate 16 (accumulator d i).toInt) 8 0)

theorem pmfhlSh_eq :
    pmfhlSh inst d = d.writeUqword inst.rd (setLanes (fun i => saturate 16 (accumulator d i).toInt) 8 0) := by
  unfold pmfhlSh
  congr 1
  exact setLanes_congr (w := 16) (m := 8) rfl (fun k _ => saturateWordToHword_eq _) _ _

theorem saturates_iff :
    Saturates inst d ↔ inst.rd = 0 ∨ ∀ k < 2, ClampRight (lane 32 (2 * k) d.rest.lo) (lane 32 (2 * k) d.rest.hi) := by
  have hslw : pmfhlSlw inst d = d.writeUqword inst.rd (setLanes
      (fun k => (saturate 32 (lane 32 (2 * k) d.rest.hi ++ lane 32 (2 * k) d.rest.lo).toInt).signExtend 64) 2 0) ↔
      inst.rd = 0 ∨ ∀ k < 2, ClampRight (lane 32 (2 * k) d.rest.lo) (lane 32 (2 * k) d.rest.hi) := by
    rw [pmfhlSlw, EeData.writeUqword_eq_iff, setLanes_eq_iff (w := 64) (m := 2) rfl]
    refine or_congr Iff.rfl (forall₂_congr fun k hk => ?_)
    rw [lane_setLanes _ (by decide), if_pos hk]
    exact clamp_eq_iff _ _
  constructor
  · intro h
    exact hslw.mp h.slw
  · intro h
    exact ⟨hslw.mpr h, pmfhlSh_eq inst d⟩

/-! ### After a parallel multiplication -/

/-- The lower word of a doubleword. -/
theorem lane_two_mul (q : Uqword) (k : ℕ) : lane 32 (2 * k) q = (lane 64 k q).setWidth 32 := by
  apply BitVec.eq_of_getLsbD_eq
  intro i hi
  rw [BitVec.getLsbD_setWidth, getLsbD_lane, getLsbD_lane]
  simp only [hi, decide_true, Bool.true_and, show i < 64 by omega]
  congr 1
  omega

/-- The lower word of a sign extended one. -/
theorem setWidth_signExtend (v : Uword) : (v.signExtend 64).setWidth 32 = v := by
  apply BitVec.eq_of_getLsbD_eq
  intro i hi
  rw [BitVec.getLsbD_setWidth, BitVec.getLsbD_signExtend]
  simp [hi, show i < 64 by omega]

/-- The square of a word. -/
def square (a : Uword) : ℕ := a.toInt.natAbs * a.toInt.natAbs

theorem square_eq (a : Uword) : (square a : ℤ) = a.toInt * a.toInt := Int.natAbs_mul_self

theorem square_le (a : Uword) : square a ≤ 2 ^ 31 * 2 ^ 31 := by
  have h := a.le_toInt
  have h' := a.toInt_lt
  exact Nat.mul_le_mul (by omega) (by omega)

/-- The word `PMFHL.SLW` makes of the square of `a`. -/
def slwSquare (a : Uword) : ℕ :=
  if 0x7FFFFFFF < (square a / 2 ^ 32 ||| square a % 2 ^ 32) then 0x7FFFFFFF
  else square a / 2 ^ 32 ||| square a % 2 ^ 32

/-- A square that is a word is kept. -/
theorem slwSquare_of_lt {a : Uword} (h : square a < 2 ^ 31) : slwSquare a = square a := by
  rw [slwSquare, Nat.div_eq_of_lt (by omega), Nat.mod_eq_of_lt (by omega), Nat.zero_or, if_neg (by omega)]

theorem toInt_clamp_pmultw {k : ℕ} (hk : k < 2) :
    (clamp (lane 32 (2 * k) (pmultw inst d).rest.lo) (lane 32 (2 * k) (pmultw inst d).rest.hi)).toInt =
      slwSquare (read 32 d inst.rs (2 * k)) := by
  obtain ⟨hlo, hhi⟩ := lane_parallelMult .signed inst d hk
  generalize read 32 d inst.rs (2 * k) = a at hlo hhi ⊢
  have hle := square_le a
  have hsq : Widening.signed.value a * Widening.signed.value a = (square a : ℤ) := (square_eq a).symm
  have hnum : (BitVec.ofInt 32 ((square a : ℤ) / 2 ^ 32) ||| BitVec.ofInt 32 (square a : ℤ)).toNat =
      (square a / 2 ^ 32 ||| square a % 2 ^ 32) := by
    have h1 := toNat_ofInt 32 ((square a : ℤ) / 2 ^ 32)
    have h2 := toNat_ofInt 32 (square a : ℤ)
    rw [BitVec.toNat_or, show (BitVec.ofInt 32 ((square a : ℤ) / 2 ^ 32)).toNat = square a / 2 ^ 32 by omega,
      show (BitVec.ofInt 32 (square a : ℤ)).toNat = square a % 2 ^ 32 by omega]
  rw [toInt_clamp, lane_two_mul, lane_two_mul, pmultw, hlo, hhi, hsq, loWord, hiWord, setWidth_signExtend,
    setWidth_signExtend, hnum, slwSquare]
  split_ifs <;> rfl

/-- Where the square of a word is taken for a product with another: it is that product, or past the words and by
coincidence what is made of it is. -/
def SquareRight (a b : Uword) : Prop := a = 0 ∨ b = a ∨ 2 ^ 31 ≤ square a ∧ (slwSquare a : ℤ) = a.toInt * b.toInt

instance (a b : Uword) : Decidable (SquareRight a b) := inferInstanceAs (Decidable (_ ∨ _))

theorem slwSquare_eq_iff {a b : Uword} (h : InRange 32 (a.toInt * b.toInt)) :
    (slwSquare a : ℤ) = a.toInt * b.toInt ↔ SquareRight a b := by
  have hzero : a = 0 ↔ a.toInt = 0 := (BitVec.toInt_inj (y := 0)).symm
  have hsame : b = a ↔ b.toInt = a.toInt := BitVec.toInt_inj.symm
  have hrange : -2 ^ 31 ≤ a.toInt * b.toInt ∧ a.toInt * b.toInt < 2 ^ 31 := h
  rcases Nat.lt_or_ge (square a) (2 ^ 31) with hlt | hge
  · -- the square is a word: it has to be the product
    rw [slwSquare_of_lt hlt, square_eq, SquareRight, hzero, hsame]
    constructor
    · intro heq
      have hfactor : a.toInt * (a.toInt - b.toInt) = 0 := by
        rw [Int.mul_sub]
        omega
      rcases Int.mul_eq_zero.mp hfactor with h0 | h0
      · exact .inl h0
      · exact .inr (.inl (by omega))
    · rintro (h0 | h0 | ⟨hge, -⟩)
      · rw [h0, Int.zero_mul, Int.zero_mul]
      · rw [h0]
      · omega
  · have hne : a ≠ 0 := by
      rintro rfl
      exact absurd hge (by decide)
    have hdiff : b ≠ a := by
      rintro rfl
      have := square_eq b
      omega
    simp only [SquareRight, hne, hdiff, hge, false_or, true_and]

/-- `PMFHL.SLW` clamps the doublewords of `HI` and `LO`, and `PMFHL.SH` their words, if and only if nothing is written or in
both lanes the upper word is not negative, and 0 or the or of both words is past the greatest word. After `PMULTW` of words
whose products are words `PMFHL.SLW` returns these if and only if the squares of `Rs`, which `PMULTW` computes, become
them. -/
theorem saturates_and_products_iff (inst : EeCoreInstruction) (d : R5900 σ) :
    (Saturates inst d ↔
      inst.rd = 0 ∨ ∀ k < 2, ClampRight (lane 32 (2 * k) d.rest.lo) (lane 32 (2 * k) d.rest.hi)) ∧
    ∀ inst' : EeCoreInstruction, inst'.rd ≠ 0 →
      (∀ k < 2, InRange 32 ((read 32 d inst.rs (2 * k)).toInt * (read 32 d inst.rt (2 * k)).toInt)) →
      ((∀ k < 2, lane 64 k ((pmfhlSlw inst' (pmultw inst d)).gpr inst'.rd) =
          BitVec.ofInt 64 ((read 32 d inst.rs (2 * k)).toInt * (read 32 d inst.rt (2 * k)).toInt)) ↔
        ∀ k < 2, SquareRight (read 32 d inst.rs (2 * k)) (read 32 d inst.rt (2 * k))) := by
  refine ⟨saturates_iff inst d, fun inst' hrd hrange => forall₂_congr fun k hk => ?_⟩
  have hvalue : (BitVec.ofInt 64 ((read 32 d inst.rs (2 * k)).toInt * (read 32 d inst.rt (2 * k)).toInt)).toInt =
      (read 32 d inst.rs (2 * k)).toInt * (read 32 d inst.rt (2 * k)).toInt := by
    obtain ⟨hlow, hhigh⟩ := hrange k hk
    exact BitVec.toInt_ofInt_eq_self (by decide) (by omega) (by omega)
  rw [pmfhlSlw, EeData.gpr_writeUqword_self _ hrd, lane_setLanes _ (by decide), if_pos hk,
    ← BitVec.toInt_inj, hvalue, toInt_clamp_pmultw inst d hk, slwSquare_eq_iff (hrange k hk)]

/-- Products of 3 and 3, and of 0 and 5. -/
theorem saturates_and_products_three :
    ∀ k < 2, lane 64 k ((pmfhlSlw ⟨0x1000⟩ (pmultw (σ := Unit) ⟨0x00430000⟩
      ⟨fun r => if r = 2 then 3 else 0x50000000000000003, ⟨0, 0, 0, ()⟩⟩)).gpr 2) =
        BitVec.ofInt 64 (if k = 0 then 9 else 0) := by
  have h := ((saturates_and_products_iff (σ := Unit) ⟨0x00430000⟩
    ⟨fun r => if r = 2 then 3 else 0x50000000000000003, ⟨0, 0, 0, ()⟩⟩).2 ⟨0x1000⟩ (by decide) (by decide)).mpr (by decide)
  intro k hk
  refine (h k hk).trans ?_
  revert k
  decide

/-- `PMFHL.SLW` of -1 gives the greatest word. -/
theorem not_saturates_minus_one :
    ¬Saturates (σ := Unit) ⟨0x1000⟩ ⟨fun _ => 0, ⟨BitVec.allOnes 128, BitVec.allOnes 128, 0, ()⟩⟩ := by
  rw [saturates_iff]
  decide

end R5900

end Orbum
