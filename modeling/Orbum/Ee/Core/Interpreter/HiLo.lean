import Orbum.Ee.Core.Interpreter.Multiply

/-!
# Division, pipeline 1, and the moves from HI and LO

`DIV` and `DIVU`, and the instructions of pipeline 1 of `CEeCoreInterpreter_INTEGER_MULT_DIV.cpp` and
`CEeCoreInterpreter_INTEGER_MULT_ADD.cpp`, which delegate to those of pipeline 0. `MFHI`, `MFLO`, `MFHI1` and `MFLO1` of
`CEeCoreInterpreter_REG_TRANSFER.cpp`.
-/

namespace Orbum

open Lanes

namespace R5900

variable {σ : Type} (inst : EeCoreInstruction) (d : R5900 σ)

/-! ### Division -/

/-- The quotient and the remainder, for `LO` and `HI`. -/
def writeQuotient (quotient remainder : Uword) : R5900 σ :=
  let d := setLo d (setLane 0 d.rest.lo (quotient.signExtend 64))
  setHi d (setLane 0 d.rest.hi (remainder.signExtend 64))

/-- `DIV`. -/
def div : R5900 σ :=
  let source1 := read 32 d inst.rs 0
  let source2 := read 32 d inst.rt 0
  if source1 = BitVec.intMin 32 ∧ source2 = -1 then writeQuotient d (BitVec.intMin 32) 0
  else if source2 = 0 then d
  else writeQuotient d (source1.sdiv source2) (source1.srem source2)

/-- `DIVU`. -/
def divu : R5900 σ :=
  let source1 := read 32 d inst.rs 0
  let source2 := read 32 d inst.rt 0
  if source2 = 0 then d else writeQuotient d (source1 / source2) (source1 % source2)

/-! ### Pipeline 1 -/

/-- `DIV1`. -/
def div1 : R5900 σ := div inst d

/-- `DIVU1`. -/
def divu1 : R5900 σ := divu inst d

/-- `MULT1`. -/
def mult1 : R5900 σ := mult inst d

/-- `MULTU1`. -/
def multu1 : R5900 σ := multu inst d

/-- `MADD1`. -/
def madd1 : R5900 σ := madd inst d

/-- `MADDU1`. -/
def maddu1 : R5900 σ := maddu inst d

/-! ### Moves -/

/-- A move to `Rd` from doubleword `k`. -/
def moveFrom (source : Special σ → Uqword) (k : ℕ) : R5900 σ := write d inst.rd 0 (lane 64 k (source d.rest))

/-- `MFHI`. -/
def mfhi : R5900 σ := moveFrom inst d Special.hi 0

/-- `MFLO`. -/
def mflo : R5900 σ := moveFrom inst d Special.lo 0

/-- `MFHI1`. -/
def mfhi1 : R5900 σ := moveFrom inst d Special.hi 1

/-- `MFLO1`. -/
def mflo1 : R5900 σ := moveFrom inst d Special.lo 1

@[simp] theorem rest_moveFrom (source : Special σ → Uqword) (k : ℕ) : (moveFrom inst d source k).rest = d.rest :=
  rest_write d _ _ _

/-- The other registers. -/
theorem gpr_moveFrom_of_ne (source : Special σ → Uqword) (k : ℕ) {r : BitVec 5} (hr : r ≠ inst.rd) :
    (moveFrom inst d source k).gpr r = d.gpr r :=
  gpr_write_of_ne d hr _ _

/-- What `Rd` is after a move. -/
theorem gpr_moveFrom (source : Special σ → Uqword) (k : ℕ) (hrd : inst.rd ≠ 0) :
    lane 64 0 ((moveFrom inst d source k).gpr inst.rd) = lane 64 k (source d.rest) := by
  rw [moveFrom, gpr_write d hrd]
  exact lane_setLane_self (by decide) _ _

end R5900

end Orbum
