import Mathlib.Tactic.Linarith
import Orbum.Ee.Vu.Branches

/-!
# Branches on the sign of a VI register

`IBGEZ`, `IBGTZ`, `IBLEZ` and `IBLTZ` compare the halfword that `read_uhword` returns, which is unsigned. So they are right
about registers that are not negative, and about no others.
-/

namespace Orbum

theorem signExtend_signExtend_imm (x : BitVec 11) : (x.signExtend 16).signExtend 32 = x.signExtend 32 := by
  apply BitVec.eq_of_toInt_eq
  rw [BitVec.toInt_signExtend_of_le (by decide), BitVec.toInt_signExtend_of_le (by decide),
    BitVec.toInt_signExtend_of_le (by decide)]

/-! ### The four branches -/

namespace VuUnit

variable {σ : Type} (inst : VuInstruction) (u : VuUnit σ)

/-- The target of a branch, the immediate being signed. -/
def signedTarget : Uptr :=
  (u.pc + 8 + 8 * ((VuInstruction.imm11Field.extractFrom inst.value).setWidth 11).signExtend 32) &&& 0x3FFF

/-- The VU with a branch pending. -/
def branchTo (target : Uptr) : VuUnit σ := { u with bdelay := { u.bdelay with currentSlot := 2, branchPc := target } }

/-- The branches on this register go by the sign of `v`. -/
structure SignedBranches (v : ℤ) : Prop where
  /-- `IBGEZ`. -/
  ibgez : u.ibgez inst = .ok (if 0 ≤ v then u.branchTo (signedTarget inst u) else u)
  /-- `IBLTZ`. -/
  ibltz : u.ibltz inst = .ok (if v < 0 then u.branchTo (signedTarget inst u) else u)
  /-- `IBGTZ`. -/
  ibgtz : u.ibgtz inst = .ok (if 0 < v then u.branchTo (signedTarget inst u) else u)
  /-- `IBLEZ`. -/
  iblez : u.iblez inst = .ok (if v ≤ 0 then u.branchTo (signedTarget inst u) else u)

variable {inst u} {i : BitVec 4}

theorem itypeTarget_eq : itypeTarget inst u = signedTarget inst u := by
  have himm : inst.imm11 = ((VuInstruction.imm11Field.extractFrom inst.value).setWidth 11).setWidth 16 := by
    have hlt := VuInstruction.imm11Field.toNat_extractFrom_lt inst.value
    apply BitVec.eq_of_toNat_eq
    rw [VuInstruction.imm11, BitVec.toNat_setWidth, BitVec.toNat_setWidth, BitVec.toNat_setWidth]
    congr 1
    exact (Nat.mod_eq_of_lt hlt).symm
  rw [itypeTarget, signedTarget, himm, extendInteger_setWidth (by decide) (by decide), signExtend_signExtend_imm,
    BitVec.mul_comm]

theorem branchIf_eq (h : u.bdelay.currentSlot = 0) (condition : Prop) [Decidable condition] :
    u.branchIf inst condition = if condition then u.branchTo (signedTarget inst u) else u := by
  have hpending : ¬u.bdelay.isBranchPending := by
    unfold VuBranchDelaySlot.isBranchPending
    omega
  have hset : u.bdelay.setBranchItype u.pc (extendInteger 11 inst.imm11) =
      { u.bdelay with currentSlot := 2, branchPc := signedTarget inst u } := by
    rw [← itypeTarget_eq]
    exact if_neg hpending
  rw [branchIf, hset]
  rfl

theorem toNat_eq_toInt {v : Uhword} (h : 0 ≤ v.toInt) : (v.toNat : ℤ) = v.toInt := by
  have hcond := BitVec.toInt_eq_toNat_cond v
  split_ifs at hcond
  · exact hcond.symm
  · have := v.isLt
    omega

/-- `IBLTZ` is never taken, so that a register of which it is right is not negative. -/
theorem SignedBranches.nonneg (h : SignedBranches inst u (u.vi i).toInt) (hi : viIndex inst.is = .ok i)
    (hpending : u.bdelay.currentSlot = 0) : 0 ≤ (u.vi i).toInt := by
  by_contra hneg
  have hcode : u.ibltz inst = .ok u := by
    have hnot : ¬((u.vi i).toNat : ℤ) < 0 := by omega
    rw [VuUnit.ibltz, hi, ok_bind, branchIf_eq hpending, if_neg hnot]
    rfl
  have hright := h.ibltz
  rw [if_pos (not_le.mp hneg), hcode] at hright
  have hslot : u.bdelay.currentSlot = 2 := congrArg (fun v => v.bdelay.currentSlot) (Except.ok.inj hright)
  omega

/-- The four branches go by the sign of the register just if that is not negative. -/
theorem signedBranches_iff (inst : VuInstruction) (u : VuUnit σ) (hi : viIndex inst.is = .ok i)
    (hpending : u.bdelay.currentSlot = 0) : SignedBranches inst u (u.vi i).toInt ↔ 0 ≤ (u.vi i).toInt := by
  refine ⟨fun h => h.nonneg hi hpending, fun hnonneg => ?_⟩
  have hv := toNat_eq_toInt hnonneg
  refine ⟨?_, ?_, ?_, ?_⟩
  · rw [ibgez, hi, ok_bind, branchIf_eq hpending, hv]
    rfl
  · rw [ibltz, hi, ok_bind, branchIf_eq hpending, hv]
    rfl
  · rw [ibgtz, hi, ok_bind, branchIf_eq hpending, hv]
    rfl
  · rw [iblez, hi, ok_bind, branchIf_eq hpending, hv]
    rfl

/-- A register that holds 5. -/
theorem signedBranches_five :
    SignedBranches ⟨0x0800⟩ ({ initial 0x1000 () with vi := fun i => if i = 1 then 5 else 0 } : VuUnit Unit) 5 :=
  (signedBranches_iff ⟨0x0800⟩ { initial 0x1000 () with vi := fun i => if i = 1 then 5 else 0 } (i := 1) rfl rfl).mpr
    (by decide)

/-- A register that holds -1 is taken to be positive. -/
theorem not_signedBranches : ¬∀ (u : VuUnit Unit) (inst : VuInstruction) (i : BitVec 4), viIndex inst.is = .ok i →
    u.bdelay.currentSlot = 0 → SignedBranches inst u (u.vi i).toInt := by
  intro h
  have hbranches := h { initial 0x1000 () with vi := fun _ => 0xFFFF } ⟨0x0800⟩ 1 rfl rfl
  exact absurd (hbranches.nonneg rfl rfl) (by decide)

end VuUnit

end Orbum
