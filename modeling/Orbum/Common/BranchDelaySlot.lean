import Orbum.Common.Primitive

/-!
# The branch delay slot

`Common/Types/Mips/BranchDelaySlot.hpp` with its one slot: a branch sets `current_slot` to 2 and its
target, and `advance_pc`, called after every instruction, takes it one instruction later.
-/

namespace Orbum

/-- `BranchDelaySlot<1>`. -/
structure BranchDelaySlot where
  /-- How many instructions are left before the branch is taken, its own included. -/
  currentSlot : ℕ
  /-- Where the branch goes. -/
  branchPc : Uptr
  deriving DecidableEq

namespace BranchDelaySlot

/-- `set_branch_direct(address)`. -/
def setBranchDirect (_b : BranchDelaySlot) (address : Uptr) : BranchDelaySlot := ⟨2, address⟩

/-- `set_branch_itype(pc, imm)`. -/
def setBranchItype (_b : BranchDelaySlot) (pc : Uword) (imm : Uhword) : BranchDelaySlot :=
  ⟨2, pc + 4 + (imm.signExtend 32 <<< 2)⟩

/-- `set_branch_jtype(pc, j_region_addr)`. -/
def setBranchJtype (_b : BranchDelaySlot) (pc : Uword) (jRegionAddr : Uptr) : BranchDelaySlot :=
  ⟨2, ((pc + 4) &&& 0xF0000000) ||| (jRegionAddr <<< 2)⟩

/-- `advance_pc(pc)`, with the new program counter. -/
def advancePc (b : BranchDelaySlot) (pc : Uword) : BranchDelaySlot × Uword :=
  if b.currentSlot ≠ 0 then
    if b.currentSlot - 1 = 0 then ({ b with currentSlot := 0 }, b.branchPc)
    else ({ b with currentSlot := b.currentSlot - 1 }, pc + 4)
  else (b, pc + 4)

/-- `stop_branch()`. -/
def stopBranch (b : BranchDelaySlot) : BranchDelaySlot := { b with currentSlot := 0 }

/-- `is_branch_pending()`. -/
def isBranchPending (b : BranchDelaySlot) : Prop := 0 < b.currentSlot

instance (b : BranchDelaySlot) : Decidable b.isBranchPending := inferInstanceAs (Decidable (_ < _))

theorem advancePc_of_not_pending {b : BranchDelaySlot} (h : ¬b.isBranchPending) (pc : Uword) :
    b.advancePc pc = (b, pc + 4) := by
  have : b.currentSlot = 0 := Nat.eq_zero_of_not_pos h
  simp [advancePc, this]

/-- A branch only gets nearer. -/
theorem advancePc_currentSlot_le (b : BranchDelaySlot) (pc : Uword) :
    (b.advancePc pc).1.currentSlot ≤ b.currentSlot - 1 := by
  unfold advancePc
  split_ifs <;> simp only <;> omega

end BranchDelaySlot

end Orbum
