import Mathlib.Algebra.Group.Int.Defs
import Mathlib.Tactic.Common

/-!
# Division of the host

Quotients and remainders of integers of a fixed width, where the host defines them.
-/

namespace Orbum

namespace HostDivision

variable {α : Type} {w : ℕ} {a b : BitVec w}

/-- The quotient is past the greatest signed integer. -/
def Overflows (a b : BitVec w) : Prop := a = BitVec.intMin w ∧ b = -1

instance (a b : BitVec w) : Decidable (Overflows a b) := inferInstanceAs (Decidable (_ ∧ _))

/-- `a / b` and `a % b` of signed integers. -/
def signed (a b : BitVec w) : Option (BitVec w × BitVec w) :=
  if b = 0 ∨ Overflows a b then none else some (a.sdiv b, a.srem b)

/-- `a / b` and `a % b` of unsigned integers. -/
def unsigned (a b : BitVec w) : Option (BitVec w × BitVec w) := if b = 0 then none else some (a / b, a % b)

/-- `q` and `r` are what is meant by the quotient and the remainder of signed integers, the former rounded towards 0. -/
structure Truncated (a b q r : BitVec w) : Prop where
  /-- Together they are `a`. -/
  euclid : a.toInt = q.toInt * b.toInt + r.toInt
  /-- The remainder is smaller than the divisor. -/
  lt : r.toInt.natAbs < b.toInt.natAbs
  /-- It has the sign of `a`. -/
  sign : r.toInt = 0 ∨ 0 < a.toInt ∧ 0 < r.toInt ∨ a.toInt < 0 ∧ r.toInt < 0

/-- The same, with a quotient that wraps where there is none. -/
def SignedQuotient (a b q r : BitVec w) : Prop :=
  if Overflows a b then q = BitVec.intMin w ∧ r = 0 else Truncated a b q r

/-- What is meant by the quotient and the remainder of unsigned integers. -/
def UnsignedQuotient (a b q r : BitVec w) : Prop := a.toNat = q.toNat * b.toNat + r.toNat ∧ r.toNat < b.toNat

theorem truncated_sdiv (hb : b ≠ 0) (h : ¬Overflows a b) : Truncated a b (a.sdiv b) (a.srem b) := by
  have hq : (a.sdiv b).toInt = a.toInt.tdiv b.toInt := BitVec.toInt_sdiv_of_ne_or_ne a b (not_and_or.mp h)
  have hr : (a.srem b).toInt = a.toInt.tmod b.toInt := BitVec.toInt_srem a b
  have hb' : b.toInt ≠ 0 := fun h0 => hb (BitVec.eq_of_toInt_eq (h0.trans BitVec.toInt_zero.symm))
  constructor
  · rw [hq, hr, Int.tdiv_mul_add_tmod]
  · rw [hr, Int.natAbs_tmod]
    exact Nat.mod_lt _ (Int.natAbs_pos.mpr hb')
  · rw [hr]
    rcases Int.lt_trichotomy a.toInt 0 with hneg | hzero | hpos
    · have hle : a.toInt.tmod b.toInt ≤ 0 := by
        have hnonneg := Int.tmod_nonneg (a := -a.toInt) b.toInt (by omega)
        rw [Int.neg_tmod] at hnonneg
        omega
      omega
    · rw [hzero, Int.zero_tmod]
      exact .inl rfl
    · have hle := Int.tmod_nonneg b.toInt (Int.le_of_lt hpos)
      omega

theorem unsignedQuotient_div (hb : b ≠ 0) : UnsignedQuotient a b (a / b) (a % b) := by
  have hpos : 0 < b.toNat := Nat.pos_of_ne_zero fun h0 => hb (BitVec.eq_of_toNat_eq (h0.trans BitVec.toNat_zero.symm))
  rw [UnsignedQuotient, BitVec.toNat_udiv, BitVec.toNat_umod, Nat.mul_comm, Nat.div_add_mod]
  exact ⟨rfl, Nat.mod_lt _ hpos⟩

/-! ### Behind guards -/

/-- A signed division that asks for overflow first, where the quotient wraps, and then for a zero divisor. -/
def signedDivide (a b : BitVec w) (zero : α) (result : BitVec w → BitVec w → α) : Option α :=
  if Overflows a b then some (result (BitVec.intMin w) 0)
  else if b = 0 then some zero
  else (signed a b).map fun v => result v.1 v.2

/-- An unsigned division that asks for a zero divisor. -/
def unsignedDivide (a b : BitVec w) (zero : α) (result : BitVec w → BitVec w → α) : Option α :=
  if b = 0 then some zero else (unsigned a b).map fun v => result v.1 v.2

theorem signedDivide_eq (a b : BitVec w) (zero : α) (result : BitVec w → BitVec w → α) :
    signedDivide a b zero result = some (if Overflows a b then result (BitVec.intMin w) 0 else
      if b = 0 then zero else result (a.sdiv b) (a.srem b)) := by
  unfold signedDivide
  split_ifs with ho hb
  · rfl
  · rfl
  · rw [signed, if_neg (not_or.mpr ⟨hb, ho⟩), Option.map_some]

theorem unsignedDivide_eq (a b : BitVec w) (zero : α) (result : BitVec w → BitVec w → α) :
    unsignedDivide a b zero result = some (if b = 0 then zero else result (a / b) (a % b)) := by
  unfold unsignedDivide
  split_ifs with hb
  · rfl
  · rw [unsigned, if_neg hb, Option.map_some]

/-- The guards keep all that the host does not define away from it, and what it computes is right. -/
theorem signedDivide_spec (a b : BitVec w) (zero : α) (result : BitVec w → BitVec w → α) :
    ∃ v, signedDivide a b zero result = some v ∧ (b ≠ 0 → ∃ q r, SignedQuotient a b q r ∧ v = result q r) := by
  refine ⟨_, signedDivide_eq a b zero result, fun hb => ?_⟩
  by_cases ho : Overflows a b
  · exact ⟨_, _, by rw [SignedQuotient, if_pos ho]; exact ⟨rfl, rfl⟩, if_pos ho⟩
  · exact ⟨_, _, by rw [SignedQuotient, if_neg ho]; exact truncated_sdiv hb ho, by rw [if_neg ho, if_neg hb]⟩

theorem unsignedDivide_spec (a b : BitVec w) (zero : α) (result : BitVec w → BitVec w → α) :
    ∃ v, unsignedDivide a b zero result = some v ∧ (b ≠ 0 → ∃ q r, UnsignedQuotient a b q r ∧ v = result q r) :=
  ⟨_, unsignedDivide_eq a b zero result, fun hb => ⟨_, _, unsignedQuotient_div hb, if_neg hb⟩⟩

end HostDivision

end Orbum
