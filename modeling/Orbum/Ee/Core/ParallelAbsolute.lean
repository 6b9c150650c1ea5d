import Orbum.Ee.Core.Interpreter.Parallel
import Orbum.Lib.SignBits

/-!
# Parallel absolute values and leading bits

`PABSH` and `PABSW` should make each lane the absolute value of that of `Rt`, with the greatest number for the least, and
`PLZCW` counts the bits that are the sign. `PABSW` looks for the least number in lane 0 only, and saturates all lanes or
none: in the others `std::abs` is called with a number that has no absolute value.
-/

namespace Orbum

open Lanes SignBits

namespace R5900

variable {σ : Type} {w : ℕ} (inst : EeCoreInstruction) (d : R5900 σ)

/-! ### Lanes -/

/-- All values are computed: all lanes are written. -/
theorem writeLanes_eq_some (r : BitVec 5) {value : ℕ → Option (BitVec w)} {v : ℕ → BitVec w} {m : ℕ}
    (h : ∀ k < m, value k = some (v k)) : writeLanes d r value m = some (d.writeUqword r (setLanes v m (d.gpr r))) := by
  induction m with
  | zero =>
    rw [writeLanes, setLanes]
    by_cases hr : r = 0
    · rw [EeData.writeUqword, if_pos hr]
    · rw [EeData.writeUqword, if_neg hr, Function.update_eq_self]
  | succ m ih =>
    rw [writeLanes, ih fun k hk => h k (Nat.lt_succ_of_lt hk), h m (Nat.lt_succ_self m)]
    exact congrArg some (write_writeUqword_setLanes d m v r)

/-- One of them has no value. -/
theorem writeLanes_eq_none (r : BitVec 5) {value : ℕ → Option (BitVec w)} {m k : ℕ} (hk : k < m) (h : value k = none) :
    writeLanes d r value m = none := by
  induction m with
  | zero => exact absurd hk (Nat.not_lt_zero k)
  | succ m ih =>
    rw [writeLanes]
    rcases Nat.lt_or_eq_of_le (Nat.le_of_lt_succ hk) with hlt | rfl
    · rw [ih hlt]
      rfl
    · rw [h]
      cases writeLanes d r value k <;> rfl

/-- Once all lanes are written nothing of `Rd` is left. -/
theorem writeUqword_setLanes {m : ℕ} (hm : 128 = w * m) (r : BitVec 5) (v : ℕ → BitVec w) :
    d.writeUqword r (setLanes v m (d.gpr r)) = d.writeUqword r (setLanes v m 0) :=
  congrArg (d.writeUqword r) (setLanes_congr hm (fun _ _ => rfl) _ _)

/-! ### Absolute values -/

/-- What `PABSH` and `PABSW` should write. -/
def absolutes (w m : ℕ) : R5900 σ := d.writeUqword inst.rd (setLanes (fun k => saturatedAbs (read w d inst.rt k)) m 0)

theorem stdAbs_eq {value : Uword} (h : value ≠ BitVec.intMin 32) :
    stdAbs value = some (BitVec.ofNat 32 value.toInt.natAbs) := by
  rw [stdAbs, if_neg h, eq_ofNat_natAbs h]

theorem absHword_self (value : Uhword) : absHword value value = some (saturatedAbs value) := by
  unfold absHword saturatedAbs
  split_ifs with h
  · rfl
  · -- a halfword is never the least word
    have hwide : (value.signExtend 32).toInt = value.toInt := BitVec.toInt_signExtend_of_le (by decide)
    have hne : value.signExtend 32 ≠ BitVec.intMin 32 := by
      intro heq
      have hmin : (value.signExtend 32).toInt = -0x80000000 := congrArg BitVec.toInt heq
      have hle := value.le_toInt
      omega
    rw [stdAbs_eq hne, hwide, Option.map_some, BitVec.setWidth_ofNat_of_le (by decide)]

theorem pabsh_eq : pabsh inst d = some (absolutes inst d 16 8) := by
  rw [pabsh, writeLanes_eq_some d inst.rd fun k _ => absHword_self (read 16 d inst.rt k), writeUqword_setLanes d rfl,
    absolutes]

/-- The words whose absolute value, saturated, is the greatest. -/
theorem saturatedAbs_eq_intMax_iff (value : Uword) :
    saturatedAbs value = BitVec.intMax 32 ↔ 0x7FFFFFFF ≤ value.toInt.natAbs := by
  have hle := value.le_toInt
  have hlt := value.toInt_lt
  by_cases h : value = BitVec.intMin 32
  · subst h
    decide
  · have hne : value.toInt ≠ -0x80000000 := fun heq => h (BitVec.eq_of_toInt_eq heq)
    rw [saturatedAbs, if_neg h, ← BitVec.toNat_inj, BitVec.toNat_ofNat, show (BitVec.intMax 32).toNat = 0x7FFFFFFF from rfl,
      Nat.mod_eq_of_lt (by omega)]
    omega

/-- Where `PABSW` is right: no word is the least, or that of lane 0 is and those of the others have the greatest absolute
value too, or are not written. -/
def AbsRight : Prop :=
  (∀ k < 4, read 32 d inst.rt k ≠ BitVec.intMin 32) ∨
    read 32 d inst.rt 0 = BitVec.intMin 32 ∧
      (inst.rd = 0 ∨ ∀ k < 4, 0x7FFFFFFF ≤ (read 32 d inst.rt k).toInt.natAbs)

instance : Decidable (AbsRight inst d) := inferInstanceAs (Decidable (_ ∨ _))

theorem pabsw_eq_iff : pabsw inst d = some (absolutes inst d 32 4) ↔ AbsRight inst d := by
  by_cases hzero : read 32 d inst.rt 0 = BitVec.intMin 32
  · -- all lanes are saturated
    have hall : ∀ k < 4, absWord (read 32 d inst.rt 0) (read 32 d inst.rt k) = some (BitVec.intMax 32) :=
      fun k _ => if_pos hzero
    have hnot : ¬∀ k < 4, read 32 d inst.rt k ≠ BitVec.intMin 32 := fun h => h 0 (by decide) hzero
    rw [pabsw, writeLanes_eq_some d inst.rd hall, Option.some_inj, absolutes, EeData.writeUqword_eq_iff,
      setLanes_eq_iff (w := 32) (m := 4) rfl, AbsRight, or_iff_right hnot, and_iff_right hzero]
    refine or_congr Iff.rfl (forall₂_congr fun k hk => ?_)
    rw [lane_setLanes _ (by decide), if_pos hk, eq_comm, saturatedAbs_eq_intMax_iff]
  · have hright : AbsRight inst d ↔ ∀ k < 4, read 32 d inst.rt k ≠ BitVec.intMin 32 :=
      or_iff_left fun h => hzero h.1
    have habs (k : ℕ) : absWord (read 32 d inst.rt 0) (read 32 d inst.rt k) = stdAbs (read 32 d inst.rt k) :=
      if_neg hzero
    rw [hright]
    constructor
    · intro heq k hk hmin
      have hnone : pabsw inst d = none :=
        writeLanes_eq_none d inst.rd hk ((habs k).trans (if_pos hmin))
      rw [hnone] at heq
      exact absurd heq.symm (Option.some_ne_none _)
    · intro h
      have hall : ∀ k < 4, absWord (read 32 d inst.rt 0) (read 32 d inst.rt k) =
          some (saturatedAbs (read 32 d inst.rt k)) := by
        intro k hk
        rw [habs, stdAbs_eq (h k hk), saturatedAbs, if_neg (h k hk)]
      rw [pabsw, writeLanes_eq_some d inst.rd hall, writeUqword_setLanes d rfl, absolutes]

/-! ### Leading bits -/

theorem and_one_shiftLeft_eq_zero_iff (v : Uword) {i : ℕ} (hi : i < 32) :
    v &&& ((1 : Uword) <<< i) = 0 ↔ v.getLsbD i = false := by
  have hone (j : ℕ) (hj : j < 32) : ((1 : Uword) <<< i).getLsbD j = decide (j = i) := by
    have h1 : (1 : Uword).getLsbD (j - i) = decide (j - i = 0) := by
      rw [show (1 : Uword) = 1#32 from rfl, BitVec.getLsbD_one]
      simp
    rw [BitVec.getLsbD_shiftLeft, h1, decide_eq_true hj, Bool.true_and, ← decide_not, ← Bool.decide_and]
    exact decide_eq_decide.mpr (by omega)
  constructor
  · intro h
    have hbit : (v &&& ((1 : Uword) <<< i)).getLsbD i = false := by
      rw [h]
      exact BitVec.getLsbD_zero
    rwa [BitVec.getLsbD_and, hone i hi, decide_eq_true rfl, Bool.and_true] at hbit
  · intro h
    apply BitVec.eq_of_getLsbD_eq
    intro j hj
    have hzero : (0 : Uword).getLsbD j = false := BitVec.getLsbD_zero
    rw [BitVec.getLsbD_and, hone j hj, hzero]
    by_cases hji : j = i
    · rw [hji, h, Bool.false_and]
    · rw [decide_eq_false hji, Bool.and_false]

theorem leadingZeros_eq (v : Uword) {i : ℕ} (hi : i ≤ 32) : leadingZeros v i = leadingBits false v i := by
  induction i with
  | zero => rfl
  | succ i ih => simp only [leadingZeros, leadingBits_succ, and_one_shiftLeft_eq_zero_iff v hi, ih (Nat.le_of_succ_le hi)]

/-- `count_leading_bits` counts the bits that are the sign. -/
theorem countLeadingBits_eq (value : Uword) : countLeadingBits value = signBits value := by
  by_cases h : value = 0
  · rw [countLeadingBits, if_pos h, h, signBits_zero (by decide)]
  · rw [countLeadingBits, if_neg h, signBits_eq (by decide)]
    exact leadingZeros_eq _ (Nat.le_refl 32)

/-- What `PLZCW` should write: the upper doubleword of `Rd` stays. -/
def signCounts : R5900 σ :=
  d.writeUqword inst.rd (setLanes (fun k => BitVec.ofNat 32 (signBits (read 32 d inst.rs k) - 1)) 2 (d.gpr inst.rd))

theorem signBits_pos {v : Uword} : 0 < signBits v := by
  rw [signBits, leadingBits_succ, if_pos v.msb_eq_getLsbD_last.symm]
  exact Nat.succ_pos _

theorem plzcw_eq : plzcw inst d = signCounts inst d := by
  have hvalue (k : ℕ) : BitVec.ofNat 32 (countLeadingBits (read 32 d inst.rs k)) - 1 =
      BitVec.ofNat 32 (signBits (read 32 d inst.rs k) - 1) := by
    have hpos := signBits_pos (v := read 32 d inst.rs k)
    rw [countLeadingBits_eq]
    refine (BitVec.ofNat_sub_ofNat_of_le _ 1 (by decide) hpos)
  simp only [plzcw, signCounts, hvalue]

/-- For all registers, and whichever of them are one: `PABSH` and `PLZCW` are right, and `PABSW` is if and only if no word
of `Rt` is the least, or that of lane 0 is and the absolute values of the others would saturate too. -/
theorem absolutes_and_signCounts_iff (inst : EeCoreInstruction) (d : R5900 σ) :
    pabsh inst d = some (absolutes inst d 16 8) ∧
    (pabsw inst d = some (absolutes inst d 32 4) ↔ AbsRight inst d) ∧
    plzcw inst d = signCounts inst d ∧ signBits (0 : Uword) - 1 = 31 ∧ signBits (-1 : Uword) - 1 = 31 :=
  ⟨pabsh_eq inst d, pabsw_eq_iff inst d, plzcw_eq inst d, by decide, by decide⟩

/-- The least word in lane 1 only has no absolute value, and in lane 0 only it makes 0 the greatest word. -/
theorem not_absolutes_one_lane :
    pabsw (σ := Unit) ⟨0x00020800⟩ ⟨fun _ => 0x8000000000000000, ⟨0, 0, 0, ()⟩⟩ = none ∧
    pabsw (σ := Unit) ⟨0x00020800⟩ ⟨fun _ => 0x80000000, ⟨0, 0, 0, ()⟩⟩ ≠
      some (absolutes ⟨0x00020800⟩ ⟨fun _ => 0x80000000, ⟨0, 0, 0, ()⟩⟩ 32 4) := by
  constructor
  · exact writeLanes_eq_none _ _ (k := 1) (by decide) (by decide)
  · rw [Ne, pabsw_eq_iff]
    decide

end R5900

end Orbum
