import Orbum.Ee.Core.Interpreter.Multiply

/-!
# Parallel comparison, absolute values and pixel formats

`PCGTB`, `PCGTH`, `PCGTW` and `SLT` of `CEeCoreInterpreter_COMPARE.cpp`, `CEeCoreInterpreter_MIN_MAX.cpp` without the
instructions of the FPU, `PABSH`, `PABSW` and `PLZCW` of `CEeCoreInterpreter_ALU_OTHERS.cpp`, and `PEXT5` and `PPAC5` of
`CEeCoreInterpreter_DFC.cpp`.

The comparisons write each lane before they read the next, the others read everything first.
-/

namespace Orbum

open Lanes

namespace R5900

variable {σ : Type} {w : ℕ} (inst : EeCoreInstruction) (d : R5900 σ)

/-! ### Comparisons -/

/-- `SLT`. -/
def slt : R5900 σ :=
  let result : Udword := if (read 64 d inst.rs 0).toInt < (read 64 d inst.rt 0).toInt then 1 else 0
  write d inst.rd 0 result

/-- A loop that reads lane `i` of `Rs` and of `Rt` and writes that of `Rd`, for the lanes below `m`. -/
def forLanes (result : BitVec w → BitVec w → BitVec w) : ℕ → R5900 σ
  | 0 => d
  | i + 1 =>
    let d := forLanes result i
    write d inst.rd i (result (read w d inst.rs i) (read w d inst.rt i))

/-- `(val_source1 > val_source2) ? 0xFF : 0x00`, of unsigned values, and so for the other widths. -/
def greaterMask (source1 source2 : BitVec w) : BitVec w := if source2 < source1 then BitVec.allOnes w else 0

/-- `PCGTB`. -/
def pcgtb : R5900 σ := forLanes (w := 8) inst d greaterMask 16

/-- `PCGTH`. -/
def pcgth : R5900 σ := forLanes (w := 16) inst d greaterMask 8

/-- `PCGTW`. -/
def pcgtw : R5900 σ := forLanes (w := 32) inst d greaterMask 4

/-! ### Maximum and minimum -/

/-- Lane `i` of `Rd` is made of those of `Rs` and `Rt`, for the lanes below `m`. -/
def mapLanes (value : BitVec w → BitVec w → BitVec w) (m : ℕ) : R5900 σ :=
  d.writeUqword inst.rd (setLanes (fun i => value (read w d inst.rs i) (read w d inst.rt i)) m (d.gpr inst.rd))

/-- `std::max(a, b)`, of unsigned values. -/
def stdMax (a b : BitVec w) : BitVec w := if a < b then b else a

/-- `std::min(a, b)`, of unsigned values. -/
def stdMin (a b : BitVec w) : BitVec w := if b < a then b else a

/-- `PMAXH`. -/
def pmaxh : R5900 σ := mapLanes (w := 16) inst d stdMax 8

/-- `PMAXW`. -/
def pmaxw : R5900 σ := mapLanes (w := 32) inst d stdMax 4

/-- `PMINH`. -/
def pminh : R5900 σ := mapLanes (w := 16) inst d stdMin 8

/-- `PMINW`. -/
def pminw : R5900 σ := mapLanes (w := 32) inst d stdMin 4

/-! ### Absolute values and leading bits -/

/-- `std::abs(value)` of an `int`, which has none for the least. -/
def stdAbs (value : Uword) : Option Uword :=
  if value = BitVec.intMin 32 then none else some (if value.toInt < 0 then -value else value)

/-- Writes the lanes below `m`, each once its value is computed. -/
def writeLanes (r : BitVec 5) (value : ℕ → Option (BitVec w)) : ℕ → Option (R5900 σ)
  | 0 => some d
  | i + 1 => do
    let d ← writeLanes r value i
    let v ← value i
    return write d r i v

/-- `value0 == VALUE_SHWORD_MIN ? VALUE_SHWORD_MAX : std::abs(value1)`, as a halfword. -/
def absHword (value0 value1 : Uhword) : Option Uhword :=
  if value0 = BitVec.intMin 16 then some (BitVec.intMax 16)
  else (stdAbs (value1.signExtend 32)).map (BitVec.setWidth 16)

/-- `value0 == VALUE_SWORD_MIN ? VALUE_SWORD_MAX : std::abs(value1)`. -/
def absWord (value0 value1 : Uword) : Option Uword :=
  if value0 = BitVec.intMin 32 then some (BitVec.intMax 32) else stdAbs value1

/-- `PABSH`. -/
def pabsh : Option (R5900 σ) :=
  let value (i : ℕ) := read 16 d inst.rt i
  writeLanes d inst.rd (fun i => absHword (value i) (value i)) 8

/-- `PABSW`: the word compared is `value0` in all lanes. -/
def pabsw : Option (R5900 σ) :=
  let value (i : ℕ) := read 32 d inst.rt i
  writeLanes d inst.rd (fun i => absWord (value 0) (value i)) 4

/-- The loop of `count_leading_bits`, from bit `i - 1` down to the first that is set. -/
def leadingZeros (conditioned : Uword) : ℕ → ℕ
  | 0 => 0
  | i + 1 => if conditioned &&& ((1 : Uword) <<< i) = 0 then leadingZeros conditioned i + 1 else 0

/-- `count_leading_bits(value)`. -/
def countLeadingBits (value : Uword) : ℕ :=
  if value = 0 then 32
  else
    let conditioned := if value.toInt < 0 then ~~~value else value
    leadingZeros conditioned 32

/-- `PLZCW`. -/
def plzcw : R5900 σ :=
  let value (i : ℕ) : Uword := BitVec.ofNat 32 (countLeadingBits (read 32 d inst.rs i)) - 1
  d.writeUqword inst.rd (setLanes value 2 (d.gpr inst.rd))

/-! ### Pixel formats -/

/-- `unpack(value)` of `PEXT5`. -/
def unpack (value : Uhword) : Uword :=
  let value : Uword := value.setWidth 32
  let temp0 := (value &&& 0x1F) <<< 3
  let temp1 := ((value &&& 0x3E0) >>> 5) <<< 11
  let temp2 := ((value &&& 0x7C00) >>> 10) <<< 19
  let temp3 := ((value &&& 0x8000) >>> 16) <<< 31
  temp3 ||| temp2 ||| temp1 ||| temp0

/-- `PEXT5`. -/
def pext5 : R5900 σ :=
  let value (i : ℕ) := unpack (read 16 d inst.rt (2 * i))
  d.writeUqword inst.rd (setLanes value 4 (d.gpr inst.rd))

/-- `pack(value)` of `PPAC5`. -/
def pack (value : Uword) : Uhword :=
  let temp0 : Uhword := ((value &&& 0xF8) >>> 3).setWidth 16
  let temp1 : Uhword := (((value &&& 0xF800) >>> 11) <<< 5).setWidth 16
  let temp2 : Uhword := (((value &&& 0xF80000) >>> 19) <<< 10).setWidth 16
  let temp3 : Uhword := (((value &&& 0x80000000) >>> 31) <<< 15).setWidth 16
  temp3 ||| temp2 ||| temp1 ||| temp0

/-- `gpr[r].write_uword(offset, value)` with an offset that may be past the end of `w`, which is checked in debug builds
only. A register that is read only is not written at all. -/
def writeUwordAt (r : BitVec 5) (offset : ℕ) (value : Uword) : Except HostError (R5900 σ) :=
  if r = 0 ∨ offset < 4 then .ok (write d r offset value) else .error .outOfBounds

/-- `PPAC5`, whose offsets are those of halfwords. -/
def ppac5 : Except HostError (R5900 σ) := do
  let value (i : ℕ) : Uword := (pack (read 32 d inst.rt i)).setWidth 32
  let d ← writeUwordAt d inst.rd 0 (value 0)
  let d ← writeUwordAt d inst.rd 2 (value 1)
  let d ← writeUwordAt d inst.rd 4 (value 2)
  writeUwordAt d inst.rd 6 (value 3)

/-! ### Registers -/

theorem writeUqword_writeUqword (r : BitVec 5) (value value' : Uqword) :
    (d.writeUqword r value).writeUqword r value' = d.writeUqword r value' := by
  unfold EeData.writeUqword
  split_ifs with h
  · rfl
  · simp only [Function.update_idem]

/-- A lane that the writes so far have left as it was. -/
theorem lane_gpr_writeUqword_setLanes {m : ℕ} (hm : w * m ≤ 128) (v : ℕ → BitVec w) (r r' : BitVec 5) :
    lane w m ((d.writeUqword r (setLanes v m (d.gpr r))).gpr r') = lane w m (d.gpr r') := by
  by_cases hr : r' = r
  · subst hr
    by_cases h0 : r' = 0
    · rw [EeData.writeUqword, if_pos h0]
    · rw [EeData.gpr_writeUqword_self d h0, lane_setLanes v hm, if_neg (Nat.lt_irrefl m)]
  · rw [EeData.gpr_writeUqword_of_ne d hr]

/-- One more lane. -/
theorem write_writeUqword_setLanes (m : ℕ) (v : ℕ → BitVec w) (r : BitVec 5) :
    write (d.writeUqword r (setLanes v m (d.gpr r))) r m (v m) = d.writeUqword r (setLanes v (m + 1) (d.gpr r)) := by
  by_cases hr : r = 0
  · simp only [write, EeData.writeUqword, if_pos hr]
  · rw [write, EeData.gpr_writeUqword_self d hr, writeUqword_writeUqword, setLanes]

/-- As a lane of `Rd` is written only after the same lanes of `Rs` and `Rt` are read, it makes no difference which of the
registers are one. -/
theorem forLanes_eq {m : ℕ} (hm : w * m ≤ 128) (result : BitVec w → BitVec w → BitVec w) :
    forLanes inst d result m = mapLanes inst d result m := by
  induction m with
  | zero =>
    unfold forLanes mapLanes EeData.writeUqword
    split_ifs
    · rfl
    · rw [setLanes, Function.update_eq_self]
  | succ m ih =>
    have hle : w * m ≤ 128 := Nat.le_trans (Nat.mul_le_mul_left w (Nat.le_succ m)) hm
    rw [forLanes, ih hle, mapLanes, read, read, lane_gpr_writeUqword_setLanes d hle, lane_gpr_writeUqword_setLanes d hle]
    exact write_writeUqword_setLanes d m (fun i => result (read w d inst.rs i) (read w d inst.rt i)) inst.rd

end R5900

end Orbum
