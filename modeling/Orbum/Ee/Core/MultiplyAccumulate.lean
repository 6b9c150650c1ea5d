import Orbum.Common.Range
import Orbum.Ee.Core.Interpreter.Multiply

/-!
# What the multiplications compute

The exact results are integers: `LO` and `HI` are meant to get the halves of the product, or of its sum with `HI || LO`,
modulo `2 ^ 64`. The results of the instructions are compared with these as integers, so that what is lost, an `|` with
a negative `LO` or a product of words, is a term of a sum.
-/

namespace Orbum

open Lanes

/-! ### Halves of an integer -/

theorem toNat_ofInt (w : ℕ) (x : ℤ) : ((BitVec.ofInt w x).toNat : ℤ) = x % 2 ^ w := by
  have hpos : (0 : ℤ) < 2 ^ w := Int.pow_pos (by decide)
  rw [BitVec.toNat_ofInt, Int.natCast_pow]
  exact Int.toNat_of_nonneg (Int.emod_nonneg x hpos.ne')

theorem ofInt_eq_ofInt_iff {w : ℕ} {x y : ℤ} : BitVec.ofInt w x = BitVec.ofInt w y ↔ x % 2 ^ w = y % 2 ^ w := by
  rw [← toNat_ofInt, ← toNat_ofInt, Int.natCast_inj, BitVec.toNat_inj]

/-- The low word of `x`, as a register holds it. -/
def loWord (x : ℤ) : Udword := (BitVec.ofInt 32 x).signExtend 64

/-- The high word of `x`, as a register holds it. -/
def hiWord (x : ℤ) : Udword := (BitVec.ofInt 32 (x / 2 ^ 32)).signExtend 64

theorem signExtend_inj {a b : Uword} : a.signExtend 64 = b.signExtend 64 ↔ a = b := by
  constructor
  · intro h
    have hint := congrArg BitVec.toInt h
    rwa [BitVec.toInt_signExtend_of_le (by decide), BitVec.toInt_signExtend_of_le (by decide), BitVec.toInt_inj] at hint
  · rintro rfl
    rfl

/-- The halves tell a doubleword. -/
theorem words_eq_iff {x y : ℤ} :
    loWord x = loWord y ∧ hiWord x = hiWord y ↔ x % 2 ^ 64 = y % 2 ^ 64 := by
  simp only [loWord, hiWord, signExtend_inj, ofInt_eq_ofInt_iff]
  omega

namespace R5900

theorem loHalf_ofInt (x : ℤ) : loHalf (BitVec.ofInt 64 x) = BitVec.ofInt 32 x := by
  have h64 := toNat_ofInt 64 x
  have h32 := toNat_ofInt 32 x
  apply BitVec.eq_of_toNat_eq
  rw [loHalf, BitVec.toNat_setWidth]
  omega

theorem hiHalf_ofInt (x : ℤ) : hiHalf (BitVec.ofInt 64 x) = BitVec.ofInt 32 (x / 2 ^ 32) := by
  have h64 := toNat_ofInt 64 x
  have h32 := toNat_ofInt 32 (x / 2 ^ 32)
  apply BitVec.eq_of_toNat_eq
  rw [hiHalf, BitVec.toNat_setWidth, BitVec.toNat_ushiftRight, Nat.shiftRight_eq_div_pow]
  omega

/-- What `withHalves` returns for an integer. -/
theorem withHalves_ofInt (x : ℤ) : withHalves (BitVec.ofInt 64 x) = (BitVec.ofInt 64 x, loWord x, hiWord x) := by
  rw [withHalves, loHalf_ofInt, hiHalf_ofInt]
  rfl

end R5900

/-! ### Operands as integers -/

namespace Widening

/-- The integer that a word is. -/
def value : Widening → Uword → ℤ
  | signed, a => a.toInt
  | unsigned, a => a.toNat

theorem widen_eq (x : Widening) (a : Uword) : x.widen a = BitVec.ofInt 64 (x.value a) := by
  cases x with
  | signed => rfl
  | unsigned => rw [widen, value, BitVec.ofInt_natCast, BitVec.ofNat_toNat]

/-- A product of widened words is exact. -/
theorem widen_mul_widen (x : Widening) (a b : Uword) :
    x.widen a * x.widen b = BitVec.ofInt 64 (x.value a * x.value b) := by
  rw [widen_eq, widen_eq, BitVec.ofInt_mul]

/-- The bit that fills the high word. -/
def fill : Widening → Uword → Bool
  | signed, a => a.msb
  | unsigned, _ => false

theorem getLsbD_widen (x : Widening) (a : Uword) {i : ℕ} (hi : i < 64) :
    (x.widen a).getLsbD i = if i < 32 then a.getLsbD i else x.fill a := by
  cases x with
  | signed => simp only [widen, fill, BitVec.getLsbD_signExtend, hi, decide_true, Bool.true_and]
  | unsigned =>
    simp only [widen, fill, BitVec.getLsbD_setWidth, hi, decide_true, Bool.true_and]
    split_ifs with h32
    · rfl
    · exact BitVec.getLsbD_of_ge a i (Nat.le_of_not_lt h32)

/-- `HI << 32 | LO` of widened words: a negative `LO` sets the high word. -/
theorem widen_or_widen (x : Widening) (c0 c1 : Uword) :
    x.widen c1 <<< 32 ||| x.widen c0 = (if x.fill c0 then BitVec.allOnes 32 else c1) ++ c0 := by
  apply BitVec.eq_of_getLsbD_eq
  intro i hi
  rw [BitVec.getLsbD_append, BitVec.getLsbD_or, BitVec.getLsbD_shiftLeft, getLsbD_widen x c0 hi]
  by_cases h32 : i < 32
  · simp only [h32, decide_true, Bool.not_true, Bool.and_false, Bool.false_and, Bool.false_or, if_true]
  · rw [getLsbD_widen x c1 (show i - 32 < 64 by omega), if_pos (show i - 32 < 32 by omega)]
    cases x.fill c0 with
    | false =>
      simp only [h32, hi, decide_true, decide_false, Bool.not_false, Bool.true_and, Bool.or_false, if_false,
        Bool.false_eq_true]
    | true =>
      rw [if_pos rfl, BitVec.getLsbD_allOnes, decide_eq_true (show i - 32 < 32 by omega)]
      simp only [h32, if_false, Bool.or_true]

/-- `HI || LO`. -/
def concat (c0 c1 : Uword) : ℤ := c1.toNat * 2 ^ 32 + c0.toNat

theorem append_eq (c0 c1 : Uword) : c1 ++ c0 = BitVec.ofInt 64 (concat c0 c1) := by
  have hnat : concat c0 c1 = ((c1 ++ c0).toNat : ℤ) := by
    rw [BitVec.toNat_append, ← Nat.shiftLeft_add_eq_or_of_lt c0.isLt, Nat.shiftLeft_eq, concat]
    omega
  rw [hnat, BitVec.ofInt_natCast, BitVec.ofNat_toNat, BitVec.setWidth_eq]

/-- What a negative `LO` adds to the high word. -/
def spoiled (x : Widening) (c0 c1 : Uword) : ℤ := if x.fill c0 then -1 - c1.toInt else 0

theorem widen_or_widen_eq (x : Widening) (c0 c1 : Uword) :
    x.widen c1 <<< 32 ||| x.widen c0 = BitVec.ofInt 64 (concat c0 c1 + x.spoiled c0 c1 * 2 ^ 32) := by
  rw [widen_or_widen, append_eq, ofInt_eq_ofInt_iff, spoiled]
  split_ifs
  · have hones : (BitVec.allOnes 32).toNat = 2 ^ 32 - 1 := BitVec.toNat_allOnes
    simp only [concat, hones, BitVec.toInt_eq_toNat_cond]
    split_ifs <;> omega
  · rw [Int.zero_mul, Int.add_zero]

/-- `HI` is spoiled unless `LO` is not negative or `HI` is all ones. -/
theorem spoiled_eq_zero_iff (x : Widening) (c0 c1 : Uword) : x.spoiled c0 c1 = 0 ↔ (x.fill c0 → c1 = -1) := by
  have hone : c1 = -1 ↔ c1.toInt = -1 := BitVec.toInt_inj.symm
  rw [spoiled, hone]
  split_ifs with hmsb
  · simp only [hmsb, true_implies]
    omega
  · simp [hmsb]

/-- What of the high word a product of words loses. -/
def lost : Widening → ℤ → ℤ
  | signed, p => (p + 2 ^ 31) / 2 ^ 32
  | unsigned, p => p / 2 ^ 32

theorem value_mul (x : Widening) (a b : Uword) :
    x.value (a * b) = x.value a * x.value b - x.lost (x.value a * x.value b) * 2 ^ 32 := by
  cases x with
  | signed =>
    simp only [value, lost, BitVec.toInt_mul, Int.bmod_def]
    split_ifs <;> omega
  | unsigned =>
    have h : ((a * b).toNat : ℤ) = (a.toNat * b.toNat : ℕ) % 2 ^ 32 := by
      rw [BitVec.toNat_mul]
      omega
    rw [value, value, value, lost, h, Int.natCast_mul]
    omega

/-- What is lost of a signed product is less than half a word. -/
theorem lost_signed_lt (a b : Uword) :
    -2 ^ 31 < signed.lost (a.toInt * b.toInt) ∧ signed.lost (a.toInt * b.toInt) < 2 ^ 31 := by
  have hle := BitVec.le_toInt_mul_toInt (x := a) (y := b)
  have hlt := BitVec.toInt_mul_toInt_le (x := a) (y := b)
  simp only [lost]
  omega

theorem lost_signed_eq_zero_iff (p : ℤ) : signed.lost p = 0 ↔ InRange 32 p := by
  simp only [lost, InRange]
  omega

end Widening

/-! ### Multiply and accumulate -/

/-- The instructions that add a product of words to `HI || LO`, or subtract it. -/
inductive Accumulation where
  /-- `MADD`. -/
  | madd
  /-- `MADDU`. -/
  | maddu
  /-- `PMADDW`. -/
  | pmaddw
  /-- `PMADDUW`. -/
  | pmadduw
  /-- `PMSUBW`. -/
  | pmsubw
  deriving DecidableEq, Repr

namespace Accumulation

open Widening R5900

variable {σ : Type} (inst : EeCoreInstruction) (d : R5900 σ)

/-- The instruction. -/
def run : Accumulation → R5900 σ
  | madd => R5900.madd inst d
  | maddu => R5900.maddu inst d
  | pmaddw => R5900.pmaddw inst d
  | pmadduw => R5900.pmadduw inst d
  | pmsubw => R5900.pmsubw inst d

/-- Whether it works on signed or unsigned words. -/
def widening : Accumulation → Widening
  | madd | pmaddw | pmsubw => .signed
  | maddu | pmadduw => .unsigned

/-- How many lanes it works on. -/
def lanes : Accumulation → ℕ
  | madd | maddu => 1
  | pmaddw | pmadduw | pmsubw => 2

/-- The exact product of the words of lane `k`. -/
def product (op : Accumulation) (k : ℕ) : ℤ :=
  op.widening.value (read 32 d inst.rs (2 * k)) * op.widening.value (read 32 d inst.rt (2 * k))

/-- The exact result of lane `k`. -/
def exact (op : Accumulation) (k : ℕ) : ℤ :=
  match op with
  | pmsubw => concat (lane 32 (2 * k) d.rest.lo) (lane 32 (2 * k) d.rest.hi) - op.product inst d k
  | _ => concat (lane 32 (2 * k) d.rest.lo) (lane 32 (2 * k) d.rest.hi) + op.product inst d k

/-- The law: `LO` and `HI` get the sign extended halves of the exact result, in each lane. -/
structure Law (op : Accumulation) : Prop where
  /-- `LO`. -/
  lo : ∀ k < op.lanes, lane 64 k (op.run inst d).rest.lo = loWord (op.exact inst d k)
  /-- `HI`. -/
  hi : ∀ k < op.lanes, lane 64 k (op.run inst d).rest.hi = hiWord (op.exact inst d k)

/-- When it holds. -/
def Sound : Accumulation → Prop
  | madd =>
    if (lane 32 0 d.rest.lo).msb then Widening.signed.lost (madd.product inst d 0) = -1 - (lane 32 0 d.rest.hi).toInt
    else InRange 32 (madd.product inst d 0)
  | maddu =>
    maddu.product inst d 0 < 2 ^ 32 ∧ maddu.exact inst d 0 % 2 ^ 32 < 2 ^ 31 ∧
      maddu.exact inst d 0 / 2 ^ 32 % 2 ^ 32 < 2 ^ 31
  | pmaddw | pmsubw => ∀ k < 2, (lane 32 (2 * k) d.rest.lo).msb → lane 32 (2 * k) d.rest.hi = -1
  | pmadduw => True

/-- Both leave the same low doublewords in `LO` and `HI`. -/
structure Agree (d₁ d₂ : R5900 σ) : Prop where
  /-- `LO`. -/
  lo : lane 64 0 d₁.rest.lo = lane 64 0 d₂.rest.lo
  /-- `HI`. -/
  hi : lane 64 0 d₁.rest.hi = lane 64 0 d₂.rest.hi

theorem spoiled_lt (x : Widening) (c0 c1 : Uword) : -2 ^ 31 ≤ x.spoiled c0 c1 ∧ x.spoiled c0 c1 < 2 ^ 31 := by
  have hle := c1.le_toInt
  have hlt := c1.toInt_lt
  unfold Widening.spoiled
  split_ifs <;> omega

/-- A result that is off by a multiple of the high word has the right words exactly if it is not off. -/
theorem words_add_eq_iff {x s : ℤ} (hs : -2 ^ 32 < s ∧ s < 2 ^ 32) :
    loWord (x + s * 2 ^ 32) = loWord x ∧ hiWord (x + s * 2 ^ 32) = hiWord x ↔ s = 0 := by
  rw [words_eq_iff]
  omega

/-- What `|` adds to the high word of lane `k`. -/
def spoiledAt (d : R5900 σ) (op : Accumulation) (k : ℕ) : ℤ :=
  op.widening.spoiled (lane 32 (2 * k) d.rest.lo) (lane 32 (2 * k) d.rest.hi)

/-- `PMADDW`, `PMADDUW` and `PMSUBW` are exact but for the `|`. -/
theorem words_parallel (op : Accumulation) (hop : op.lanes = 2) {k : ℕ} (hk : k < 2) :
    lane 64 k (op.run inst d).rest.lo = loWord (op.exact inst d k + op.spoiledAt d k * 2 ^ 32) ∧
      lane 64 k (op.run inst d).rest.hi = hiWord (op.exact inst d k + op.spoiledAt d k * 2 ^ 32) := by
  have hadd (c s p : ℤ) : BitVec.ofInt 64 (c + s) + BitVec.ofInt 64 p = BitVec.ofInt 64 (c + p + s) := by
    rw [← BitVec.ofInt_add]
    congr 1
    omega
  have hsub (c s p : ℤ) : BitVec.ofInt 64 (c + s) - BitVec.ofInt 64 p = BitVec.ofInt 64 (c - p + s) := by
    rw [BitVec.sub_eq_add_neg, ← BitVec.ofInt_neg, ← BitVec.ofInt_add]
    congr 1
    omega
  cases op with
  | madd => cases hop
  | maddu => cases hop
  | pmaddw =>
    simp only [run, R5900.pmaddw, parallelMadd, lane_lo_writeResults hk, lane_hi_writeResults hk, widen_or_widen_eq,
      widen_mul_widen, hadd, withHalves_ofInt]
    exact ⟨rfl, rfl⟩
  | pmadduw =>
    simp only [run, R5900.pmadduw, parallelMadd, lane_lo_writeResults hk, lane_hi_writeResults hk, widen_or_widen_eq,
      widen_mul_widen, hadd, withHalves_ofInt]
    exact ⟨rfl, rfl⟩
  | pmsubw =>
    simp only [run, R5900.pmsubw, parallelMadd, lane_lo_writeResults hk, lane_hi_writeResults hk, widen_or_widen_eq,
      widen_mul_widen, hsub, withHalves_ofInt]
    exact ⟨rfl, rfl⟩

/-- The law, in one lane, for words off by a multiple of the high word. -/
theorem law_parallel_iff (op : Accumulation) (hop : op.lanes = 2) :
    op.Law inst d ↔ ∀ k < 2, op.spoiledAt d k = 0 := by
  have hrange (k : ℕ) : -2 ^ 32 < op.spoiledAt d k ∧ op.spoiledAt d k < 2 ^ 32 := by
    have h := spoiled_lt op.widening (lane 32 (2 * k) d.rest.lo) (lane 32 (2 * k) d.rest.hi)
    unfold spoiledAt
    omega
  constructor
  · intro h k hk
    obtain ⟨hlo, hhi⟩ := words_parallel inst d op hop hk
    exact (words_add_eq_iff (hrange k)).mp ⟨hlo.symm.trans (h.lo k (hop ▸ hk)), hhi.symm.trans (h.hi k (hop ▸ hk))⟩
  · intro h
    have hwords {k : ℕ} (hk : k < op.lanes) := words_parallel inst d op hop (hop ▸ hk)
    refine ⟨fun k hk => ?_, fun k hk => ?_⟩
    · rw [(hwords hk).1, h k (hop ▸ hk), Int.zero_mul, Int.add_zero]
    · rw [(hwords hk).2, h k (hop ▸ hk), Int.zero_mul, Int.add_zero]

/-- `MADD` and `MADDU` lose the high word of the product, too. -/
theorem words_scalar (op : Accumulation) (hop : op.lanes = 1) :
    let r := op.exact inst d 0 + (op.spoiledAt d 0 - op.widening.lost (op.product inst d 0)) * 2 ^ 32
    lane 64 0 (op.run inst d).rest.lo = op.widening.widen (BitVec.ofInt 32 r) ∧
      lane 64 0 (op.run inst d).rest.hi = op.widening.widen (BitVec.ofInt 32 (r / 2 ^ 32)) := by
  have hadd (c s p l : ℤ) : BitVec.ofInt 64 (c + s * 2 ^ 32) + BitVec.ofInt 64 (p - l * 2 ^ 32) =
      BitVec.ofInt 64 (c + p + (s - l) * 2 ^ 32) := by
    rw [← BitVec.ofInt_add]
    congr 1
    omega
  have hlane (q : Uqword) (v : Udword) : lane 64 0 (setLane 0 q v) = v := lane_setLane_self (by decide) q v
  cases op with
  | madd =>
    simp only [run, R5900.madd, scalarMadd, lo_writeResult, hi_writeResult, hlane, widen_or_widen_eq,
      widen_eq signed (_ * _), value_mul, hadd, loHalf_ofInt, hiHalf_ofInt]
    exact ⟨rfl, rfl⟩
  | maddu =>
    simp only [run, R5900.maddu, scalarMadd, lo_writeResult, hi_writeResult, hlane, widen_or_widen_eq,
      widen_eq unsigned (_ * _), value_mul, hadd, loHalf_ofInt, hiHalf_ofInt]
    exact ⟨rfl, rfl⟩
  | pmaddw => cases hop
  | pmadduw => cases hop
  | pmsubw => cases hop

theorem spoiledAt_madd (d : R5900 σ) (op : Accumulation) (k : ℕ) :
    -2 ^ 31 ≤ op.spoiledAt d k ∧ op.spoiledAt d k < 2 ^ 31 := spoiled_lt ..

theorem law_scalar_iff (op : Accumulation) (hop : op.lanes = 1) :
    op.Law inst d ↔ lane 64 0 (op.run inst d).rest.lo = loWord (op.exact inst d 0) ∧
      lane 64 0 (op.run inst d).rest.hi = hiWord (op.exact inst d 0) := by
  constructor
  · intro h
    exact ⟨h.lo 0 (hop ▸ Nat.one_pos), h.hi 0 (hop ▸ Nat.one_pos)⟩
  · rintro ⟨hlo, hhi⟩
    refine ⟨fun k hk => ?_, fun k hk => ?_⟩
    · obtain rfl : k = 0 := by omega
      exact hlo
    · obtain rfl : k = 0 := by omega
      exact hhi

/-- `MADD` is exact if what the `|` adds is what is lost. -/
theorem law_madd_iff : madd.Law inst d ↔ madd.spoiledAt d 0 = signed.lost (madd.product inst d 0) := by
  obtain ⟨hlo, hhi⟩ := words_scalar inst d madd rfl
  have hs := spoiledAt_madd d madd 0
  have hl : -2 ^ 31 < madd.widening.lost (madd.product inst d 0) ∧ madd.widening.lost (madd.product inst d 0) < 2 ^ 31 :=
    lost_signed_lt _ _
  rw [law_scalar_iff inst d madd rfl, hlo, hhi]
  refine (words_add_eq_iff (x := madd.exact inst d 0) (by omega)).trans ?_
  exact Int.sub_eq_zero

/-- A word that is widened one way is what it is the other way only where its sign is clear. -/
theorem widen_unsigned_eq_loWord_iff {x y : ℤ} :
    unsigned.widen (BitVec.ofInt 32 x) = loWord y ↔ x % 2 ^ 32 = y % 2 ^ 32 ∧ y % 2 ^ 32 < 2 ^ 31 := by
  have hx := toNat_ofInt 32 x
  have hy := toNat_ofInt 32 y
  rw [loWord, widen, ← BitVec.toInt_inj, BitVec.toInt_signExtend_of_le (by decide), BitVec.toInt_setWidth,
    BitVec.toInt_eq_toNat_cond, Int.bmod_def]
  split_ifs <;> omega

/-- `MADDU` is exact if the product is a word and neither half of the result is negative as a word. -/
theorem law_maddu_iff : maddu.Law inst d ↔ maddu.Sound inst d := by
  obtain ⟨hlo, hhi⟩ := words_scalar inst d maddu rfl
  have hspoiled : maddu.spoiledAt d 0 = 0 := rfl
  have hp : 0 ≤ maddu.product inst d 0 ∧ maddu.product inst d 0 < 2 ^ 64 := by
    have hlt := Nat.mul_lt_mul'' (read 32 d inst.rs 0).isLt (read 32 d inst.rt 0).isLt
    have heq : maddu.product inst d 0 = ((read 32 d inst.rs 0).toNat * (read 32 d inst.rt 0).toNat : ℕ) :=
      (Int.natCast_mul _ _).symm
    omega
  have hlost : maddu.widening.lost (maddu.product inst d 0) = maddu.product inst d 0 / 2 ^ 32 := rfl
  rw [law_scalar_iff inst d maddu rfl, hlo, hhi]
  change unsigned.widen _ = _ ∧ unsigned.widen _ = loWord _ ↔ _
  rw [widen_unsigned_eq_loWord_iff, widen_unsigned_eq_loWord_iff, Sound, hspoiled, hlost]
  omega

/-- Each instruction. -/
theorem law_iff (op : Accumulation) : op.Law inst d ↔ op.Sound inst d := by
  have hspoiled (op : Accumulation) (k : ℕ) (hop : op.widening = signed) :
      op.spoiledAt d k = if (lane 32 (2 * k) d.rest.lo).msb then -1 - (lane 32 (2 * k) d.rest.hi).toInt else 0 := by
    rw [spoiledAt, hop]
    rfl
  have hzero {op : Accumulation} (hop : op.widening = signed) :
      (∀ k < 2, op.spoiledAt d k = 0) ↔
        ∀ k < 2, (lane 32 (2 * k) d.rest.lo).msb → lane 32 (2 * k) d.rest.hi = -1 := by
    refine forall₂_congr fun k _ => ?_
    rw [spoiledAt, spoiled_eq_zero_iff, hop]
    rfl
  cases op with
  | madd =>
    rw [law_madd_iff inst d, hspoiled madd 0 rfl, Sound]
    split_ifs
    · exact eq_comm
    · rw [← lost_signed_eq_zero_iff]
      exact eq_comm
  | maddu => exact law_maddu_iff inst d
  | pmaddw => exact (law_parallel_iff inst d pmaddw rfl).trans (hzero rfl)
  | pmadduw => exact (law_parallel_iff inst d pmadduw rfl).trans ⟨fun _ => trivial, fun _ _ _ => rfl⟩
  | pmsubw => exact (law_parallel_iff inst d pmsubw rfl).trans (hzero rfl)

/-- `MADD` is `PMADDW` where the product is a word. -/
theorem agree_madd_pmaddw_iff :
    Agree (R5900.madd inst d) (R5900.pmaddw inst d) ↔ InRange 32 (madd.product inst d 0) := by
  obtain ⟨hlo, hhi⟩ := words_scalar inst d madd rfl
  obtain ⟨hlo', hhi'⟩ := words_parallel inst d pmaddw rfl (k := 0) (by decide)
  have hl : -2 ^ 31 < signed.lost (madd.product inst d 0) ∧ signed.lost (madd.product inst d 0) < 2 ^ 31 :=
    lost_signed_lt _ _
  have hsplit : madd.exact inst d 0 + (madd.spoiledAt d 0 - signed.lost (madd.product inst d 0)) * 2 ^ 32 =
      pmaddw.exact inst d 0 + pmaddw.spoiledAt d 0 * 2 ^ 32 + -signed.lost (madd.product inst d 0) * 2 ^ 32 := by
    change madd.exact inst d 0 + _ = madd.exact inst d 0 + madd.spoiledAt d 0 * _ + _
    omega
  have hagree : Agree (R5900.madd inst d) (R5900.pmaddw inst d) ↔
      lane 64 0 (madd.run inst d).rest.lo = lane 64 0 (pmaddw.run inst d).rest.lo ∧
        lane 64 0 (madd.run inst d).rest.hi = lane 64 0 (pmaddw.run inst d).rest.hi :=
    ⟨fun h => ⟨h.lo, h.hi⟩, fun h => ⟨h.1, h.2⟩⟩
  rw [hagree, hlo, hhi, hlo', hhi', ← lost_signed_eq_zero_iff]
  change loWord (_ + (_ - signed.lost _) * _) = _ ∧ hiWord (_ + (_ - signed.lost _) * _) = _ ↔ _
  rw [hsplit, words_add_eq_iff (by omega)]
  exact Int.neg_eq_zero

/-- `MADDU` is `PMADDUW` where it is exact. -/
theorem agree_maddu_pmadduw_iff : Agree (R5900.maddu inst d) (R5900.pmadduw inst d) ↔ maddu.Sound inst d := by
  have hlaw := (law_iff inst d pmadduw).mpr trivial
  have hlo : lane 64 0 (R5900.pmadduw inst d).rest.lo = loWord (maddu.exact inst d 0) := hlaw.lo 0 (by decide)
  have hhi : lane 64 0 (R5900.pmadduw inst d).rest.hi = hiWord (maddu.exact inst d 0) := hlaw.hi 0 (by decide)
  rw [← law_maddu_iff inst d, law_scalar_iff inst d maddu rfl, ← hlo, ← hhi]
  exact ⟨fun h => ⟨h.lo, h.hi⟩, fun h => ⟨h.1, h.2⟩⟩

/-- Whatever is multiplied and accumulated: an instruction leaves the exact result in `LO` and `HI` if and only if it
is `Sound`, and lane 0 of the parallel instruction is the scalar one exactly if the product is a word (`PMADDW`, where
both read a negative `LO` alike) or the scalar one is exact (`PMADDUW`). -/
theorem multiply_accumulate_iff (inst : EeCoreInstruction) (d : R5900 σ) :
    (∀ op : Accumulation, op.Law inst d ↔ op.Sound inst d) ∧
      (Agree (R5900.madd inst d) (R5900.pmaddw inst d) ↔ InRange 32 (madd.product inst d 0)) ∧
      (Agree (R5900.maddu inst d) (R5900.pmadduw inst d) ↔ maddu.Sound inst d) :=
  ⟨law_iff inst d, agree_madd_pmaddw_iff inst d, agree_maddu_pmadduw_iff inst d⟩

/-- `MADD` of zeros to `HI = 0` and the least word in `LO` leaves -1 in `HI`. -/
theorem multiply_accumulate_loses_hi :
    ¬∀ (op : Accumulation) (inst : EeCoreInstruction) (d : R5900 Unit), op.Law inst d := by
  intro h
  exact absurd ((h madd ⟨0x70000000⟩ ⟨fun _ => 0, 0, 0x80000000, 0, ()⟩).hi 0 Nat.one_pos) (by decide)

end Accumulation

end Orbum
