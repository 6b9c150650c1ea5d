import Orbum.Ee.Core.Interpreter.AddSub
import Orbum.Ee.Core.ParallelCompare
import Orbum.Lib.Saturation

/-!
# Saturating parallel arithmetic

The twelve saturating additions and subtractions write the exact result of each lane, clamped to the range of the lane, and
what the wrapping ones write where there is nothing to clamp.
-/

namespace Orbum

open Lanes Saturation

namespace R5900

variable {σ : Type} {w n m : ℕ}

/-! ### Exact results in the host type -/

/-- There are integers of `w` bits in the wider type, and none is past half its range. -/
theorem two_pow_le (h : w < n) : (2 : ℤ) ^ w ≤ 2 ^ (n - 1) ∧ (2 : ℤ) * 2 ^ (n - 1) = 2 ^ n := by
  obtain ⟨k, rfl⟩ : ∃ k, n = w + k + 1 := ⟨n - w - 1, by omega⟩
  have hpow : 2 ^ w ≤ 2 ^ (w + k) := Nat.pow_le_pow_right (by decide) (Nat.le_add_right w k)
  rw [Nat.add_sub_cancel]
  exact ⟨by exact_mod_cast hpow, by rw [Int.mul_comm, ← Int.pow_succ]⟩

theorem bmod_of_lt (h : w < n) {v : ℤ} (hlo : -2 ^ w ≤ v) (hhi : v < 2 ^ w) : v.bmod (2 ^ n) = v := by
  obtain ⟨hle, heq⟩ := two_pow_le h
  apply Int.bmod_eq_of_le
  · push_cast
    omega
  · push_cast
    omega

theorem toInt_add_signExtend (h : w < n) (a b : BitVec w) :
    (a.signExtend n + b.signExtend n).toInt = a.toInt + b.toInt := by
  have ha := BitVec.two_mul_toInt_lt (x := a)
  have hb := BitVec.two_mul_toInt_lt (x := b)
  have ha' := BitVec.le_two_mul_toInt (x := a)
  have hb' := BitVec.le_two_mul_toInt (x := b)
  rw [BitVec.toInt_add, BitVec.toInt_signExtend_of_le (Nat.le_of_lt h), BitVec.toInt_signExtend_of_le (Nat.le_of_lt h)]
  exact bmod_of_lt h (by omega) (by omega)

theorem toInt_sub_signExtend (h : w < n) (a b : BitVec w) :
    (a.signExtend n - b.signExtend n).toInt = a.toInt - b.toInt := by
  have ha := BitVec.two_mul_toInt_lt (x := a)
  have hb := BitVec.two_mul_toInt_lt (x := b)
  have ha' := BitVec.le_two_mul_toInt (x := a)
  have hb' := BitVec.le_two_mul_toInt (x := b)
  rw [BitVec.toInt_sub, BitVec.toInt_signExtend_of_le (Nat.le_of_lt h), BitVec.toInt_signExtend_of_le (Nat.le_of_lt h)]
  exact bmod_of_lt h (by omega) (by omega)

theorem toNat_setWidth_of_lt (h : w < n) (a : BitVec w) : (a.setWidth n).toNat = a.toNat := by
  rw [BitVec.toNat_setWidth, Nat.mod_eq_of_lt]
  exact Nat.lt_of_lt_of_le a.isLt (Nat.pow_le_pow_right (by decide) (Nat.le_of_lt h))

theorem toNat_add_setWidth (h : w < n) (a b : BitVec w) : (a.setWidth n + b.setWidth n).toNat = a.toNat + b.toNat := by
  have ha := a.isLt
  have hb := b.isLt
  have hpow : 2 ^ (w + 1) ≤ 2 ^ n := Nat.pow_le_pow_right (by decide) h
  rw [Nat.pow_succ] at hpow
  rw [BitVec.toNat_add, toNat_setWidth_of_lt h, toNat_setWidth_of_lt h, Nat.mod_eq_of_lt (by omega)]

theorem toInt_sub_setWidth (h : w < n) (a b : BitVec w) :
    (a.setWidth n - b.setWidth n).toInt = (a.toNat : ℤ) - b.toNat := by
  have ha : (a.toNat : ℤ) < 2 ^ w := by exact_mod_cast a.isLt
  have hb : (b.toNat : ℤ) < 2 ^ w := by exact_mod_cast b.isLt
  rw [BitVec.toInt_sub, BitVec.toInt_eq_toNat_bmod, BitVec.toInt_eq_toNat_bmod, toNat_setWidth_of_lt h,
    toNat_setWidth_of_lt h, Int.sub_bmod_bmod, Int.bmod_sub_bmod]
  exact bmod_of_lt h (by omega) (by omega)

/-! ### Clamping -/

theorem setWidth_eq_ofInt (h : w ≤ n) (value : BitVec n) : value.setWidth w = BitVec.ofInt w value.toInt :=
  (BitVec.signExtend_eq_setWidth_of_le value h).symm

theorem setWidth_clampSigned (h : w ≤ n) (value : BitVec n) :
    (clampSigned w value).setWidth w = saturate w value.toInt := by
  have hback (a : BitVec w) : (a.signExtend n).setWidth w = a := by
    rw [setWidth_eq_ofInt h, BitVec.toInt_signExtend_of_le h, BitVec.ofInt_toInt]
  unfold clampSigned saturate
  split_ifs
  · exact hback _
  · exact hback _
  · exact setWidth_eq_ofInt h value

theorem setWidth_clampMax (h : w < n) (value : BitVec n) :
    (clampMax w value).setWidth w = saturateUnsigned w value.toNat := by
  have hlt : (BitVec.allOnes w).setWidth n < value ↔ ((BitVec.allOnes w).toNat : ℤ) < value.toNat := by
    rw [BitVec.lt_def, toNat_setWidth_of_lt h, Int.ofNat_lt]
  unfold clampMax saturateUnsigned
  by_cases hmax : ((BitVec.allOnes w).toNat : ℤ) < value.toNat
  · rw [if_pos (hlt.mpr hmax), if_pos hmax, BitVec.setWidth_setWidth_of_le _ (Nat.le_of_lt h), BitVec.setWidth_eq]
  · rw [if_neg (mt hlt.mp hmax), if_neg hmax, if_neg (by omega), BitVec.ofInt_natCast, BitVec.ofNat_toNat]

theorem setWidth_clampZero (h : w ≤ n) {value : BitVec n} (hle : value.toInt ≤ (BitVec.allOnes w).toNat) :
    (clampZero value).setWidth w = saturateUnsigned w value.toInt := by
  unfold clampZero saturateUnsigned
  rw [if_neg (Int.not_lt.mpr hle)]
  split_ifs
  · exact BitVec.setWidth_zero w n
  · exact setWidth_eq_ofInt h value

theorem signedLane_add (h : w < n) (a b : BitVec w) : signedLane n (· + ·) a b = saturate w (a.toInt + b.toInt) := by
  rw [signedLane, setWidth_clampSigned (Nat.le_of_lt h), toInt_add_signExtend h]

theorem signedLane_sub (h : w < n) (a b : BitVec w) : signedLane n (· - ·) a b = saturate w (a.toInt - b.toInt) := by
  rw [signedLane, setWidth_clampSigned (Nat.le_of_lt h), toInt_sub_signExtend h]

theorem unsignedAddLane_eq (h : w < n) (a b : BitVec w) :
    unsignedAddLane n a b = saturateUnsigned w (a.toNat + b.toNat) := by
  rw [unsignedAddLane, setWidth_clampMax h, toNat_add_setWidth h, Int.natCast_add]

theorem unsignedSubLane_eq (h : w < n) (a b : BitVec w) :
    unsignedSubLane n a b = saturateUnsigned w (a.toNat - b.toNat) := by
  have ha := a.isLt
  have hmax := BitVec.toNat_allOnes (v := w)
  rw [unsignedSubLane, setWidth_clampZero (Nat.le_of_lt h), toInt_sub_setWidth h]
  rw [toInt_sub_setWidth h]
  omega

/-! ### The instructions -/

variable (inst : EeCoreInstruction) (d : R5900 σ)

/-- `d'` has in each lane of `Rd` the result of `op` on the numbers that lanes stand for, clamped by `sat`, and is otherwise
`d`. Where no result is clamped it is `wrapped`. -/
structure SaturatingLanes (w m : ℕ) (number : BitVec w → ℤ) (sat : ℤ → BitVec w) (op : ℤ → ℤ → ℤ) (d' wrapped : R5900 σ) :
    Prop where
  /-- The lanes. -/
  lanes : LaneWise inst d w m (fun a b => sat (op (number a) (number b))) d'
  /-- The same as without saturation. -/
  unclamped : (∀ k < m, number (sat (op (number (read w d inst.rs k)) (number (read w d inst.rt k)))) =
    op (number (read w d inst.rs k)) (number (read w d inst.rt k))) → d' = wrapped

/-- A lane-wise instruction is what another one is where the lanes are. -/
theorem mapLanes_congr (hm : 128 = w * m) {value value' : BitVec w → BitVec w → BitVec w}
    (h : ∀ k < m, value (read w d inst.rs k) (read w d inst.rt k) = value' (read w d inst.rs k) (read w d inst.rt k)) :
    mapLanes inst d value m = mapLanes inst d value' m := by
  unfold mapLanes
  rw [setLanes_congr hm h]

/-- Instructions that saturate each lane by `sat`, and that let it wrap. -/
theorem saturatingLanes_mapLanes (hm : 128 = w * m) {number : BitVec w → ℤ} {sat : ℤ → BitVec w} {op : ℤ → ℤ → ℤ}
    {value wrap : BitVec w → BitVec w → BitVec w} (hnumber : ∀ a, BitVec.ofInt w (number a) = a)
    (hexact : ∀ v, number (sat v) = v → sat v = BitVec.ofInt w v)
    (hvalue : ∀ a b, value a b = sat (op (number a) (number b)))
    (hwrap : ∀ v v', BitVec.ofInt w (op v v') = wrap (BitVec.ofInt w v) (BitVec.ofInt w v')) :
    SaturatingLanes inst d w m number sat op (mapLanes inst d value m) (mapLanes inst d wrap m) where
  lanes := (laneWise_mapLanes_iff inst d hm _ _).mpr (.inr fun k _ => hvalue _ _)
  unclamped h := by
    refine mapLanes_congr inst d hm fun k hk => ?_
    rw [hvalue, hexact _ (h k hk), hwrap, hnumber, hnumber]

/-- The number without a sign. -/
def natNumber (a : BitVec w) : ℤ := a.toNat

theorem signed_saturatingLanes (hm : 128 = w * m) {op : ℤ → ℤ → ℤ} {value wrap : BitVec w → BitVec w → BitVec w}
    (hvalue : ∀ a b, value a b = saturate w (op a.toInt b.toInt))
    (hwrap : ∀ v v', BitVec.ofInt w (op v v') = wrap (BitVec.ofInt w v) (BitVec.ofInt w v')) :
    SaturatingLanes inst d w m BitVec.toInt (saturate w) op (mapLanes inst d value m) (mapLanes inst d wrap m) := by
  refine saturatingLanes_mapLanes inst d hm (fun _ => BitVec.ofInt_toInt) (fun v h => ?_) hvalue hwrap
  rw [← BitVec.ofInt_toInt (x := saturate w v), h]

theorem unsigned_saturatingLanes (hm : 128 = w * m) {op : ℤ → ℤ → ℤ} {value wrap : BitVec w → BitVec w → BitVec w}
    (hvalue : ∀ a b, value a b = saturateUnsigned w (op (natNumber a) (natNumber b)))
    (hwrap : ∀ v v', BitVec.ofInt w (op v v') = wrap (BitVec.ofInt w v) (BitVec.ofInt w v')) :
    SaturatingLanes inst d w m natNumber (saturateUnsigned w) op (mapLanes inst d value m) (mapLanes inst d wrap m) := by
  refine saturatingLanes_mapLanes inst d hm ofInt_toNat (fun v h => ?_) hvalue hwrap
  rw [← ofInt_toNat (saturateUnsigned w v)]
  exact congrArg (BitVec.ofInt w) h

/-- For all operands, in whatever registers: the signed saturating instructions clamp the exact sum or difference of the
signed lanes, the unsigned ones that of the unsigned lanes, and where nothing is clamped they are the wrapping ones. -/
theorem saturating_arithmetic (inst : EeCoreInstruction) (d : R5900 σ) :
    (SaturatingLanes inst d 8 16 BitVec.toInt (saturate 8) (· + ·) (paddsb inst d) (paddb inst d) ∧
      SaturatingLanes inst d 16 8 BitVec.toInt (saturate 16) (· + ·) (paddsh inst d) (paddh inst d) ∧
      SaturatingLanes inst d 32 4 BitVec.toInt (saturate 32) (· + ·) (paddsw inst d) (paddw inst d)) ∧
    (SaturatingLanes inst d 8 16 BitVec.toInt (saturate 8) (· - ·) (psubsb inst d) (psubb inst d) ∧
      SaturatingLanes inst d 16 8 BitVec.toInt (saturate 16) (· - ·) (psubsh inst d) (psubh inst d) ∧
      SaturatingLanes inst d 32 4 BitVec.toInt (saturate 32) (· - ·) (psubsw inst d) (psubw inst d)) ∧
    (SaturatingLanes inst d 8 16 natNumber (saturateUnsigned 8) (· + ·) (paddub inst d) (paddb inst d) ∧
      SaturatingLanes inst d 16 8 natNumber (saturateUnsigned 16) (· + ·) (padduh inst d) (paddh inst d) ∧
      SaturatingLanes inst d 32 4 natNumber (saturateUnsigned 32) (· + ·) (padduw inst d) (paddw inst d)) ∧
    (SaturatingLanes inst d 8 16 natNumber (saturateUnsigned 8) (· - ·) (psubub inst d) (psubb inst d) ∧
      SaturatingLanes inst d 16 8 natNumber (saturateUnsigned 16) (· - ·) (psubuh inst d) (psubh inst d) ∧
      SaturatingLanes inst d 32 4 natNumber (saturateUnsigned 32) (· - ·) (psubuw inst d) (psubw inst d)) := by
  refine ⟨⟨?_, ?_, ?_⟩, ⟨?_, ?_, ?_⟩, ⟨?_, ?_, ?_⟩, ?_, ?_, ?_⟩
  · exact signed_saturatingLanes inst d rfl (signedLane_add (by decide)) BitVec.ofInt_add
  · exact signed_saturatingLanes inst d rfl (signedLane_add (by decide)) BitVec.ofInt_add
  · exact signed_saturatingLanes inst d rfl (signedLane_add (by decide)) BitVec.ofInt_add
  · exact signed_saturatingLanes inst d rfl (signedLane_sub (by decide)) ofInt_sub
  · exact signed_saturatingLanes inst d rfl (signedLane_sub (by decide)) ofInt_sub
  · exact signed_saturatingLanes inst d rfl (signedLane_sub (by decide)) ofInt_sub
  · exact unsigned_saturatingLanes inst d rfl (unsignedAddLane_eq (by decide)) BitVec.ofInt_add
  · exact unsigned_saturatingLanes inst d rfl (unsignedAddLane_eq (by decide)) BitVec.ofInt_add
  · exact unsigned_saturatingLanes inst d rfl (unsignedAddLane_eq (by decide)) BitVec.ofInt_add
  · exact unsigned_saturatingLanes inst d rfl (unsignedSubLane_eq (by decide)) ofInt_sub
  · exact unsigned_saturatingLanes inst d rfl (unsignedSubLane_eq (by decide)) ofInt_sub
  · exact unsigned_saturatingLanes inst d rfl (unsignedSubLane_eq (by decide)) ofInt_sub

end R5900

end Orbum
