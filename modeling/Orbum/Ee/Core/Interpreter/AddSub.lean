import Orbum.Ee.Core.Interpreter.Parallel

/-!
# Parallel addition and subtraction

The parallel instructions of `CEeCoreInterpreter_INTEGER_ADD_SUB.cpp` that work on all lanes alike. They read everything
before they write. The saturating ones compute `value[i]` in a host type that is wider than the lane, clamp it there, and
write it cast.
-/

namespace Orbum

namespace R5900

variable {σ : Type} {w : ℕ} (inst : EeCoreInstruction) (d : R5900 σ)

/-! ### Clamping -/

/-- Clamps `value[i]` to `VALUE_SBYTE_MAX` and `VALUE_SBYTE_MIN`, and so for the other widths. -/
def clampSigned (w : ℕ) {n : ℕ} (value : BitVec n) : BitVec n :=
  if (BitVec.intMax w).toInt < value.toInt then (BitVec.intMax w).signExtend n
  else if value.toInt < (BitVec.intMin w).toInt then (BitVec.intMin w).signExtend n
  else value

/-- Clamps an unsigned `value[i]` to `VALUE_UBYTE_MAX`, and so for the other widths. -/
def clampMax (w : ℕ) {n : ℕ} (value : BitVec n) : BitVec n :=
  if (BitVec.allOnes w).setWidth n < value then (BitVec.allOnes w).setWidth n else value

/-- Clamps a signed `value[i]` to 0. -/
def clampZero {n : ℕ} (value : BitVec n) : BitVec n := if value.toInt < 0 then 0 else value

/-- Signed saturation, computed in a host type of `n` bits. -/
def signedLane (n : ℕ) (op : BitVec n → BitVec n → BitVec n) (source1 source2 : BitVec w) : BitVec w :=
  (clampSigned w (op (source1.signExtend n) (source2.signExtend n))).setWidth w

/-- Unsigned saturation of a sum. -/
def unsignedAddLane (n : ℕ) (source1 source2 : BitVec w) : BitVec w :=
  (clampMax w (source1.setWidth n + source2.setWidth n)).setWidth w

/-- Unsigned saturation of a difference. -/
def unsignedSubLane (n : ℕ) (source1 source2 : BitVec w) : BitVec w :=
  (clampZero (source1.setWidth n - source2.setWidth n)).setWidth w

/-! ### Addition -/

/-- `PADDB`. -/
def paddb : R5900 σ := mapLanes (w := 8) inst d (· + ·) 16

/-- `PADDH`. -/
def paddh : R5900 σ := mapLanes (w := 16) inst d (· + ·) 8

/-- `PADDW`. -/
def paddw : R5900 σ := mapLanes (w := 32) inst d (· + ·) 4

/-- `PADDSB`. -/
def paddsb : R5900 σ := mapLanes (w := 8) inst d (signedLane 16 (· + ·)) 16

/-- `PADDSH`. -/
def paddsh : R5900 σ := mapLanes (w := 16) inst d (signedLane 32 (· + ·)) 8

/-- `PADDSW`. -/
def paddsw : R5900 σ := mapLanes (w := 32) inst d (signedLane 64 (· + ·)) 4

/-- `PADDUB`. -/
def paddub : R5900 σ := mapLanes (w := 8) inst d (unsignedAddLane 16) 16

/-- `PADDUH`. -/
def padduh : R5900 σ := mapLanes (w := 16) inst d (unsignedAddLane 32) 8

/-- `PADDUW`. -/
def padduw : R5900 σ := mapLanes (w := 32) inst d (unsignedAddLane 64) 4

/-! ### Subtraction -/

/-- `PSUBB`. -/
def psubb : R5900 σ := mapLanes (w := 8) inst d (· - ·) 16

/-- `PSUBH`. -/
def psubh : R5900 σ := mapLanes (w := 16) inst d (· - ·) 8

/-- `PSUBW`. -/
def psubw : R5900 σ := mapLanes (w := 32) inst d (· - ·) 4

/-- `PSUBSB`. -/
def psubsb : R5900 σ := mapLanes (w := 8) inst d (signedLane 16 (· - ·)) 16

/-- `PSUBSH`. -/
def psubsh : R5900 σ := mapLanes (w := 16) inst d (signedLane 32 (· - ·)) 8

/-- `PSUBSW`. -/
def psubsw : R5900 σ := mapLanes (w := 32) inst d (signedLane 64 (· - ·)) 4

/-- `PSUBUB`. -/
def psubub : R5900 σ := mapLanes (w := 8) inst d (unsignedSubLane 16) 16

/-- `PSUBUH`. -/
def psubuh : R5900 σ := mapLanes (w := 16) inst d (unsignedSubLane 32) 8

/-- `PSUBUW`. -/
def psubuw : R5900 σ := mapLanes (w := 32) inst d (unsignedSubLane 64) 4

end R5900

end Orbum
