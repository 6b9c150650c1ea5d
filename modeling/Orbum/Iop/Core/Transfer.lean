import Orbum.Iop.Core.Interpreter
import Orbum.Lib.HostDivision

/-!
# HI and LO of the IOP

`MFHI`, `MFLO`, `MTHI` and `MTLO` of `CIopCoreInterpreter_SPECIAL_TRANSFER.cpp`. The moves to `HI` and `LO` take the
register of `Rd`. `DIV` and `DIVU` of `CIopCoreInterpreter_ALU.cpp`.
-/

namespace Orbum

/-- `hi` and `lo` of `IopCoreR3000`, and the rest of the machine. -/
structure IopSpecial (σ : Type) where
  /-- `hi`. -/
  hi : Uword
  /-- `lo`. -/
  lo : Uword
  /-- What the registers are not. -/
  rest : σ

/-- The registers that data instructions work on. -/
abbrev R3000 (σ : Type) := IopData (IopSpecial σ)

namespace R3000

variable {σ : Type} (inst : IopCoreInstruction) (d : R3000 σ)

/-- `MFHI`. -/
def mfhi : R3000 σ := d.writeUword inst.rd d.rest.hi

/-- `MFLO`. -/
def mflo : R3000 σ := d.writeUword inst.rd d.rest.lo

/-- `MTHI`. -/
def mthi : R3000 σ := { d with rest := { d.rest with hi := d.gpr inst.rd } }

/-- `MTLO`. -/
def mtlo : R3000 σ := { d with rest := { d.rest with lo := d.gpr inst.rd } }

/-- Writes the quotient and the remainder. -/
def writeQuotient (quotient remainder : Uword) : R3000 σ :=
  { d with rest := { d.rest with lo := quotient, hi := remainder } }

/-- `DIV`. It is none where the host has no quotient. -/
def div : Option (R3000 σ) := HostDivision.signedDivide (d.gpr inst.rs) (d.gpr inst.rt) d (writeQuotient d)

/-- `DIVU`. -/
def divu : Option (R3000 σ) := HostDivision.unsignedDivide (d.gpr inst.rs) (d.gpr inst.rt) d (writeQuotient d)

/-! ### Saving and restoring -/

/-- `MFHI` and `MFLO`. -/
def save (hi lo : IopCoreInstruction) : R3000 σ := mflo lo (mfhi hi d)

/-- `MTHI` and `MTLO`. -/
def restore (hi lo : IopCoreInstruction) : R3000 σ := mtlo lo (mthi hi d)

variable {d}

/-- What is saved where. -/
theorem gpr_save {hi lo : IopCoreInstruction} (hhi : hi.rd ≠ 0) (hlo : lo.rd ≠ 0) (hne : hi.rd ≠ lo.rd) :
    (save d hi lo).gpr hi.rd = d.rest.hi ∧ (save d hi lo).gpr lo.rd = d.rest.lo := by
  simp only [save, mflo, mfhi, IopData.gpr_writeUword _ _ hlo, IopData.gpr_writeUword _ _ hhi, IopData.rest_writeUword, if_pos,
    if_neg hne, and_self]

/-- What is restored is what the registers of `Rd` hold. -/
theorem restore_eq_iff (hi lo : IopCoreInstruction) (d' : R3000 σ) :
    (restore d' hi lo).rest.hi = d.rest.hi ∧ (restore d' hi lo).rest.lo = d.rest.lo ↔
      d'.gpr hi.rd = d.rest.hi ∧ d'.gpr lo.rd = d.rest.lo :=
  Iff.rfl

end R3000

end Orbum
