import Orbum.Ee.Core.Interpreter.HiLo

/-!
# Moves to HI and LO, and between both and a register

`MTHI`, `MTLO`, `MTHI1`, `MTLO1`, `PMTHI`, `PMTLO`, `PMTHL_LW` and the five forms of `PMFHL` of
`CEeCoreInterpreter_REG_TRANSFER.cpp`. The moves to one doubleword take the register of `Rd`, the parallel ones that of
`Rs`.
-/

namespace Orbum

open Lanes

namespace R5900

variable {σ : Type} (inst : EeCoreInstruction) (d : R5900 σ)

/-! ### Moves to HI and LO -/

/-- Doubleword `j` of a register goes to doubleword `k` of `HI`. -/
def moveToHi (r : BitVec 5) (j k : ℕ) : R5900 σ := setHi d (setLane k d.rest.hi (read 64 d r j))

/-- Doubleword `j` of a register goes to doubleword `k` of `LO`. -/
def moveToLo (r : BitVec 5) (j k : ℕ) : R5900 σ := setLo d (setLane k d.rest.lo (read 64 d r j))

/-- `MTHI`. -/
def mthi : R5900 σ := moveToHi d inst.rd 0 0

/-- `MTLO`. -/
def mtlo : R5900 σ := moveToLo d inst.rd 0 0

/-- `MTHI1`. -/
def mthi1 : R5900 σ := moveToHi d inst.rd 0 1

/-- `MTLO1`. -/
def mtlo1 : R5900 σ := moveToLo d inst.rd 0 1

/-- `PMTHI`. -/
def pmthi : R5900 σ := moveToHi (moveToHi d inst.rs 0 0) inst.rs 1 1

/-- `PMTLO`. -/
def pmtlo : R5900 σ := moveToLo (moveToLo d inst.rs 0 0) inst.rs 1 1

/-- `PMTHL_LW`. -/
def pmthlLw : R5900 σ :=
  let value (k : ℕ) := read 32 d inst.rs k
  let d := setLo d (setLane 2 (setLane 0 d.rest.lo (value 0)) (value 2))
  setHi d (setLane 2 (setLane 0 d.rest.hi (value 1)) (value 3))

/-! ### PMFHL -/

/-- `saturate_word_to_hword(value)`. -/
def saturateWordToHword (value : Uword) : Uhword :=
  if (0x7FFF : ℤ) < value.toInt then 0x7FFF else if value.toInt < -0x8000 then 0x8000 else value.setWidth 16

/-- `saturate_dword_to_word(value)`. -/
def saturateDwordToWord (value : Udword) : Uword :=
  if (0x7FFFFFFF : ℤ) < value.toInt then 0x7FFFFFFF
  else if value.toInt < -0x80000000 then 0x80000000
  else value.setWidth 32

/-- `PMFHL_LW`. -/
def pmfhlLw : R5900 σ :=
  d.writeUqword inst.rd (setWords (d.gpr inst.rd)
    (lane 32 0 d.rest.lo) (lane 32 0 d.rest.hi) (lane 32 2 d.rest.lo) (lane 32 2 d.rest.hi))

/-- `PMFHL_UW`. -/
def pmfhlUw : R5900 σ :=
  d.writeUqword inst.rd (setWords (d.gpr inst.rd)
    (lane 32 1 d.rest.lo) (lane 32 1 d.rest.hi) (lane 32 3 d.rest.lo) (lane 32 3 d.rest.hi))

/-- `clamp(lo, hi)` of `PMFHL_SLW`, whose `hi | lo` is one of words. -/
def clamp (lo hi : Uword) : Udword := (saturateDwordToWord ((hi ||| lo).setWidth 64)).signExtend 64

/-- `PMFHL_SLW`. -/
def pmfhlSlw : R5900 σ :=
  d.writeUqword inst.rd (setLanes (fun k => clamp (lane 32 (2 * k) d.rest.lo) (lane 32 (2 * k) d.rest.hi)) 2
    (d.gpr inst.rd))

/-- `value[i]` of `PMFHL_LH`. -/
def lhValue (lo hi : Uqword) : ℕ → Uhword
  | 0 => lane 16 0 lo
  | 1 => lane 16 2 lo
  | 2 => lane 16 0 hi
  | 3 => lane 16 2 hi
  | 4 => lane 16 4 lo
  | 5 => lane 16 6 lo
  | 6 => lane 16 4 hi
  | _ => lane 16 6 hi

/-- `PMFHL_LH`. -/
def pmfhlLh : R5900 σ := d.writeUqword inst.rd (setLanes (lhValue d.rest.lo d.rest.hi) 8 (d.gpr inst.rd))

/-- `PMFHL_SH`. -/
def pmfhlSh : R5900 σ :=
  d.writeUqword inst.rd (setLanes (fun i => saturateWordToHword (accumulator d i)) 8 (d.gpr inst.rd))

/-- `PMFHL`. -/
def pmfhl : R5900 σ :=
  match inst.shamt with
  | 0x0 => pmfhlLw inst d
  | 0x1 => pmfhlUw inst d
  | 0x2 => pmfhlSlw inst d
  | 0x3 => pmfhlLh inst d
  | 0x4 => pmfhlSh inst d
  | _ => d

end R5900

end Orbum
