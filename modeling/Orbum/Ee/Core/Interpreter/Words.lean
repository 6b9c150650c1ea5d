import Orbum.Ee.Core.Interpreter.Data
import Orbum.Lib.Lanes

/-!
# Instructions whose result is a word

`ADDIU`, `ADDU` and `SUBU` of `CEeCoreInterpreter_INTEGER_ADD_SUB.cpp`, the shifts of words of
`CEeCoreInterpreter_SHIFT.cpp`, `MFC1` of `CEeCoreInterpreter_REG_TRANSFER.cpp`, `CFC1` of
`CEeCoreInterpreter_SPECIAL_TRANSFER.cpp` and `CFC2` of `CEeCoreInterpreter_COP2.cpp`. Signed arithmetic wraps. `CTC1` and
`CTC2`, which write the same control registers, are here as well.
-/

namespace Orbum

namespace EeCoreInstruction

/-- `I`. -/
def iField : Bitfield := ⟨0, 1⟩

/-- `i()`. -/
def i (inst : EeCoreInstruction) : ℕ := (iField.extractFrom inst.value).toNat

end EeCoreInstruction

/-! ### Control registers -/

/-- The registers that `fpu.fcr` and `unit_0.ccr` point to. -/
structure ControlRegisters (σ : Type) where
  /-- `fpu.irr`. -/
  irr : σ → Uword
  /-- `fpu.csr`. -/
  csr : σ → Uword
  /-- `unit_0.vi`. -/
  vi : BitVec 5 → σ → Uhword
  /-- `unit_0.status`. -/
  status : σ → Uword
  /-- `unit_0.mac`. -/
  mac : σ → Uword
  /-- `unit_0.clipping`. -/
  clipping : σ → Uword
  /-- `unit_0.r`. -/
  r : σ → Uword
  /-- `unit_0.i`. -/
  i : σ → Uword
  /-- `unit_0.q`. -/
  q : σ → Uword
  /-- `unit_0.pc`. -/
  pc : σ → Uword
  /-- `unit_0.cmsar`. -/
  cmsar : σ → Uword
  /-- `fbrst`. -/
  fbrst : σ → Uword
  /-- `stat`. -/
  stat : σ → Uword
  /-- `unit_1.cmsar`. -/
  cmsar1 : σ → Uword

namespace ControlRegisters

variable {σ : Type} (C : ControlRegisters σ)

/-- `fcr[k]->read_uword()`, where `fcr[k]` is not null. -/
def fcr (k : BitVec 5) : Option (σ → Uword) :=
  match k.toNat with
  | 0 => some C.irr
  | 31 => some C.csr
  | _ => none

/-- `ccr[k]->read_uword()`, where `ccr[k]` is not null. -/
def ccr (k : BitVec 5) : Option (σ → Uword) :=
  match k.toNat with
  | 16 => some C.status
  | 17 => some C.mac
  | 18 => some C.clipping
  | 20 => some C.r
  | 21 => some C.i
  | 22 => some C.q
  | 26 => some C.pc
  | 27 => some C.cmsar
  | 28 => some C.fbrst
  | 29 => some C.stat
  | 31 => some C.cmsar1
  | n => if n < 16 then some fun rest => (C.vi k rest).setWidth 32 else none

end ControlRegisters

/-- How the registers that `fpu.fcr` and `unit_0.ccr` point to are written. -/
structure ControlWriters (σ : Type) where
  /-- `fcr[k]->write_uword(value)`, where `fcr[k]` is not null. -/
  fcr (k : BitVec 5) (value : Uword) : σ → σ
  /-- `ccr[k]->write_uword(value)`, where `ccr[k]` is not null. -/
  ccr (k : BitVec 5) (value : Uword) : σ → σ

namespace Micro

open Lanes

variable {σ : Type} (M : Machine σ) (C : ControlRegisters σ) (inst : EeCoreInstruction) (d : EeData σ)

/-! ### Arithmetic -/

/-- `ADDIU`. -/
def addiu : Micro σ :=
  done (d.writeUdword inst.rt ((d.readUword inst.rs + inst.imm.signExtend 32).signExtend 64))

/-- `ADDU`. -/
def addu : Micro σ := done (d.writeUdword inst.rd ((d.readUword inst.rs + d.readUword inst.rt).signExtend 64))

/-- `SUBU`. -/
def subu : Micro σ := done (d.writeUdword inst.rd ((d.readUword inst.rs - d.readUword inst.rt).signExtend 64))

/-! ### Shifts -/

/-- A shift of a word. -/
def shift (value : Uword → ℕ → Uword) (shamt : ℕ) : Micro σ :=
  done (d.writeUdword inst.rd ((value (d.readUword inst.rt) shamt).signExtend 64))

/-- `reg_source2.read_ubyte(0) & 0x1F`. -/
def variableShamt : ℕ := ((d.gpr inst.rs).setWidth 8 &&& (0x1F : Ubyte)).toNat

/-- `SLL`. -/
def sll : Micro σ := shift inst d (· <<< ·) inst.shamt

/-- `SLLV`. -/
def sllv : Micro σ := shift inst d (· <<< ·) (variableShamt inst d)

/-- `SRA`. -/
def sra : Micro σ := shift inst d BitVec.sshiftRight inst.shamt

/-- `SRAV`. -/
def srav : Micro σ := shift inst d BitVec.sshiftRight (variableShamt inst d)

/-- `SRL`. -/
def srl : Micro σ := shift inst d (· >>> ·) inst.shamt

/-- `SRLV`. -/
def srlv : Micro σ := shift inst d (· >>> ·) (variableShamt inst d)

/-! ### Moves from coprocessors -/

/-- `read_float() < 0.0`, of the float with these bits: it is neither positive, nor the negative zero, nor a NaN. -/
def FloatNegative (value : Uword) : Prop :=
  value.msb = true ∧ value ≠ 0x80000000 ∧ value.setWidth 31 ≤ (0x7F800000 : BitVec 31)

instance (value : Uword) : Decidable (FloatNegative value) := inferInstanceAs (Decidable (_ ∧ _))

/-- `MFC1`: words 1 to 3 are ones if the float is negative. -/
def mfc1 : Micro σ :=
  let value := M.fpr inst.rd d.rest
  let fill : Uword := if FloatNegative value then 0xFFFFFFFF else 0
  usable .cop1 (done (d.writeUqword inst.rt (setLanes (fun k => if k = 0 then value else fill) 4 (d.gpr inst.rt))))

/-- `reg_dest.write_udword(0, reg_source->read_uword())`. -/
def moveControl (source : Option (σ → Uword)) : Micro σ :=
  match source with
  | none => fail .nullPointer
  | some read => done (d.writeUdword inst.rt ((read d.rest).setWidth 64))

/-- `CFC1`. -/
def cfc1 : Micro σ := usable .cop1 (moveControl inst d (C.fcr inst.rd))

/-- `CFC2`. -/
def cfc2 : Micro σ :=
  usable .cop2
    (if inst.i ≠ 0 then fail (.runtimeError "COP2 (VU0) interlock bit set, but not implemented")
    else moveControl inst d (C.ccr inst.rd))

/-! ### Moves to control registers -/

variable (W : ControlWriters σ)

/-- `reg_dest->write_uword(reg_source.read_uword(0))`. -/
def writeControl (dest : Option (σ → Uword)) (write : Uword → σ → σ) : Micro σ :=
  match dest with
  | none => fail .nullPointer
  | some _ => done { d with rest := write (d.readUword inst.rt) d.rest }

/-- `CTC1`. -/
def ctc1 : Micro σ := usable .cop1 (writeControl inst d (C.fcr inst.rd) (W.fcr inst.rd))

/-- `CTC2`. -/
def ctc2 : Micro σ :=
  usable .cop2
    (if inst.i ≠ 0 then fail (.runtimeError "COP2 (VU0) interlock bit set, but not implemented")
    else writeControl inst d (C.ccr inst.rd) (W.ccr inst.rd))

end Micro

end Orbum
