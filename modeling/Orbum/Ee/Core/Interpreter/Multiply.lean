import Orbum.Ee.Core.Interpreter.Instruction
import Orbum.Lib.Lanes

/-!
# Multiplication

`MULT`, `MULTU`, `PMULTH`, `PMULTW` and `PMULTUW` of `CEeCoreInterpreter_INTEGER_MULT_DIV.cpp`, and `MADD`, `MADDU`,
`PMADDH`, `PMADDW`, `PMADDUW`, `PMSUBH` and `PMSUBW` of `CEeCoreInterpreter_INTEGER_MULT_ADD.cpp`. They write `LO`, `HI`
and `Rd`, after everything is read. The instructions of pipeline 1 delegate to these, and signed arithmetic wraps.

Each family is one definition, and its members are that definition at their own widening and operation.
-/

namespace Orbum

open Lanes

/-! ### Registers -/

/-- `hi`, `lo` and `sa` of `EeCoreR5900`, and the rest of the machine. -/
structure Special (σ : Type) where
  /-- `hi`. -/
  hi : Uqword
  /-- `lo`. -/
  lo : Uqword
  /-- `sa`. -/
  sa : Uword
  /-- What the registers are not. -/
  rest : σ

/-- The registers that data instructions work on. -/
abbrev R5900 (σ : Type) := EeData (Special σ)

namespace R5900

variable {σ : Type}

/-- `gpr[r].read_uword(k)`, and so for the other widths. -/
def read (w : ℕ) (d : R5900 σ) (r : BitVec 5) (k : ℕ) : BitVec w := lane w k (d.gpr r)

/-- `gpr[r].write_uword(k, value)`, and so for the other widths. -/
def write {w : ℕ} (d : R5900 σ) (r : BitVec 5) (k : ℕ) (value : BitVec w) : R5900 σ :=
  d.writeUqword r (setLane k (d.gpr r) value)

/-- Writes `lo`. -/
@[simps] def setLo (d : R5900 σ) (lo : Uqword) : R5900 σ := { d with rest := { d.rest with lo } }

/-- Writes `hi`. -/
@[simps] def setHi (d : R5900 σ) (hi : Uqword) : R5900 σ := { d with rest := { d.rest with hi } }

@[simp] theorem rest_write {w : ℕ} (d : R5900 σ) (r : BitVec 5) (k : ℕ) (value : BitVec w) :
    (write d r k value).rest = d.rest :=
  d.rest_writeUqword r _

theorem gpr_write {w : ℕ} (d : R5900 σ) {r : BitVec 5} (hr : r ≠ 0) (k : ℕ) (value : BitVec w) :
    (write d r k value).gpr r = setLane k (d.gpr r) value :=
  d.gpr_writeUqword_self hr _

theorem gpr_write_of_ne {w : ℕ} (d : R5900 σ) {r r' : BitVec 5} (hr : r' ≠ r) (k : ℕ) (value : BitVec w) :
    (write d r k value).gpr r' = d.gpr r' :=
  d.gpr_writeUqword_of_ne hr _

end R5900

/-! ### Words -/

/-- How a word becomes a doubleword. -/
inductive Widening where
  /-- `static_cast<sdword>(static_cast<sword>(value))`. -/
  | signed
  /-- `static_cast<udword>(value)`. -/
  | unsigned
  deriving DecidableEq, Repr

/-- The doubleword. -/
def Widening.widen : Widening → Uword → Udword
  | signed, value => value.signExtend 64
  | unsigned, value => value.setWidth 64

namespace R5900

variable {σ : Type} (x : Widening) (inst : EeCoreInstruction) (d : R5900 σ)

/-- `result & 0xFFFFFFFF`, as a word. -/
def loHalf (result : Udword) : Uword := result.setWidth 32

/-- `result >> 32`, as a word. -/
def hiHalf (result : Udword) : Uword := (result >>> 32).setWidth 32

/-- The values for `Rd`, `LO` and `HI`, written to doubleword `k` of each. -/
def writeResult (rd : BitVec 5) (k : ℕ) (value : Udword × Udword × Udword) (d : R5900 σ) : R5900 σ :=
  let d := write d rd k value.1
  let d := setLo d (setLane k d.rest.lo value.2.1)
  setHi d (setLane k d.rest.hi value.2.2)

/-- The values of both lanes. -/
def writeResults (rd : BitVec 5) (value : ℕ → Udword × Udword × Udword) (d : R5900 σ) : R5900 σ :=
  writeResult rd 1 (value 1) (writeResult rd 0 (value 0) d)

/-- A doubleword for `Rd`, with its halves for `LO` and `HI`. -/
def withHalves (result : Udword) : Udword × Udword × Udword :=
  (result, (loHalf result).signExtend 64, (hiHalf result).signExtend 64)

/-- `MULT` and `MULTU`. -/
def scalarMult : R5900 σ :=
  let result := x.widen (read 32 d inst.rs 0) * x.widen (read 32 d inst.rt 0)
  writeResult inst.rd 0 ((loHalf result).signExtend 64, (loHalf result).signExtend 64, (hiHalf result).signExtend 64) d

/-- `MULT`. -/
def mult : R5900 σ := scalarMult .signed inst d

/-- `MULTU`. -/
def multu : R5900 σ := scalarMult .unsigned inst d

/-- `PMULTW` and `PMULTUW`: both operands are words of `Rs`. -/
def parallelMult : R5900 σ :=
  let mult (a b : Uword) := withHalves (x.widen a * x.widen b)
  writeResults inst.rd (fun k => mult (read 32 d inst.rs (2 * k)) (read 32 d inst.rs (2 * k))) d

/-- `PMULTW`. -/
def pmultw : R5900 σ := parallelMult .signed inst d

/-- `PMULTUW`. -/
def pmultuw : R5900 σ := parallelMult .unsigned inst d

/-- `MADD` and `MADDU`: the product is one of words. -/
def scalarMadd : R5900 σ :=
  let product := read 32 d inst.rs 0 * read 32 d inst.rt 0
  let result := (x.widen (lane 32 0 d.rest.hi) <<< 32 ||| x.widen (lane 32 0 d.rest.lo)) + x.widen product
  writeResult inst.rd 0 (x.widen (loHalf result), x.widen (loHalf result), x.widen (hiHalf result)) d

/-- `MADD`. -/
def madd : R5900 σ := scalarMadd .signed inst d

/-- `MADDU`. -/
def maddu : R5900 σ := scalarMadd .unsigned inst d

/-- `PMADDW`, `PMADDUW` and `PMSUBW`. -/
def parallelMadd (op : Udword → Udword → Udword) : R5900 σ :=
  let madd (a b c0 c1 : Uword) := withHalves (op (x.widen c1 <<< 32 ||| x.widen c0) (x.widen a * x.widen b))
  writeResults inst.rd (fun k => madd (read 32 d inst.rs (2 * k)) (read 32 d inst.rt (2 * k))
    (lane 32 (2 * k) d.rest.lo) (lane 32 (2 * k) d.rest.hi)) d

/-- `PMADDW`. -/
def pmaddw : R5900 σ := parallelMadd .signed inst d (· + ·)

/-- `PMADDUW`. -/
def pmadduw : R5900 σ := parallelMadd .unsigned inst d (· + ·)

/-- `PMSUBW`. -/
def pmsubw : R5900 σ := parallelMadd .signed inst d (· - ·)

/-! ### Halfwords -/

/-- The word of `LO` or `HI` that halfword `i` is accumulated to. -/
def accumulator (d : R5900 σ) : ℕ → Uword
  | 0 => lane 32 0 d.rest.lo
  | 1 => lane 32 1 d.rest.lo
  | 2 => lane 32 0 d.rest.hi
  | 3 => lane 32 1 d.rest.hi
  | 4 => lane 32 2 d.rest.lo
  | 5 => lane 32 3 d.rest.lo
  | 6 => lane 32 2 d.rest.hi
  | _ => lane 32 3 d.rest.hi

/-- Four words, written one after the other. -/
def setWords (q : Uqword) (uw0 uw1 uw2 uw3 : Uword) : Uqword :=
  setLane 3 (setLane 2 (setLane 1 (setLane 0 q uw0) uw1) uw2) uw3

/-- `PMULTH`, `PMADDH` and `PMSUBH`, which differ in `value[i]` and in the value of word 3 of `Rd`. -/
def halfwords (op : Uword → Uword → Uword) (last : ℕ) : R5900 σ :=
  let value (i : ℕ) := op (accumulator d i) ((read 16 d inst.rs i).signExtend 32 * (read 16 d inst.rt i).signExtend 32)
  let d := d.writeUqword inst.rd (setWords (d.gpr inst.rd) (value 0) (value 2) (value 4) (value last))
  let d := setLo d (setWords d.rest.lo (value 0) (value 1) (value 4) (value 5))
  setHi d (setWords d.rest.hi (value 2) (value 3) (value 6) (value 7))

/-- `PMULTH`. -/
def pmulth : R5900 σ := halfwords inst d (fun _ product => product) 6

/-- `PMADDH`, which writes `value[5]` to word 3 of `Rd`. -/
def pmaddh : R5900 σ := halfwords inst d (fun c product => product + c) 5

/-- `PMSUBH`, which writes `value[5]` to word 3 of `Rd`. -/
def pmsubh : R5900 σ := halfwords inst d (fun c product => c - product) 5

/-! ### What they write -/

variable {inst d} {rd : BitVec 5} {value : ℕ → Udword × Udword × Udword} {k : ℕ}

@[simp] theorem lo_writeResult (rd : BitVec 5) (k : ℕ) (v : Udword × Udword × Udword) (d : R5900 σ) :
    (writeResult rd k v d).rest.lo = setLane k d.rest.lo v.2.1 := by
  simp [writeResult]

@[simp] theorem hi_writeResult (rd : BitVec 5) (k : ℕ) (v : Udword × Udword × Udword) (d : R5900 σ) :
    (writeResult rd k v d).rest.hi = setLane k d.rest.hi v.2.2 := by
  simp [writeResult]

theorem gpr_writeResult (hrd : rd ≠ 0) (k : ℕ) (v : Udword × Udword × Udword) (d : R5900 σ) :
    (writeResult rd k v d).gpr rd = setLane k (d.gpr rd) v.1 := by
  simp [writeResult, gpr_write _ hrd]

theorem lane_lo_writeResults (hk : k < 2) : lane 64 k (writeResults rd value d).rest.lo = (value k).2.1 := by
  obtain rfl | rfl : k = 0 ∨ k = 1 := by omega
  · simp [writeResults, lane_setLane]
  · simp [writeResults, lane_setLane]

theorem lane_hi_writeResults (hk : k < 2) : lane 64 k (writeResults rd value d).rest.hi = (value k).2.2 := by
  obtain rfl | rfl : k = 0 ∨ k = 1 := by omega
  · simp [writeResults, lane_setLane]
  · simp [writeResults, lane_setLane]

theorem lane_gpr_writeResults (hrd : rd ≠ 0) (hk : k < 2) :
    lane 64 k ((writeResults rd value d).gpr rd) = (value k).1 := by
  obtain rfl | rfl : k = 0 ∨ k = 1 := by omega
  · simp [writeResults, gpr_writeResult hrd, lane_setLane]
  · simp [writeResults, gpr_writeResult hrd, lane_setLane]

/-- The words, once written. -/
theorem lane_setWords (q : Uqword) (uw : ℕ → Uword) (hk : k < 4) :
    lane 32 k (setWords q (uw 0) (uw 1) (uw 2) (uw 3)) = uw k := by
  have hset : setWords q (uw 0) (uw 1) (uw 2) (uw 3) = setLanes uw 4 q := rfl
  rw [hset, lane_setLanes uw (by decide), if_pos hk]

end R5900

end Orbum
