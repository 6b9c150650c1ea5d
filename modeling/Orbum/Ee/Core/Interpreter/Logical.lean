import Orbum.Ee.Core.Interpreter.Lookup
import Orbum.Ee.Core.Interpreter.Transfer
import Orbum.Ee.Core.Interpreter.Words

/-!
# Logic and comparisons of doublewords

The instructions of `CEeCoreInterpreter_LOGICAL.cpp` and `CEeCoreInterpreter_COMPARE.cpp` that work on doubleword 0 of
the registers, and `LUI` of `CEeCoreInterpreter_LOAD_MEM.cpp`.

`EeCoreFunction.compute` has these and the other instructions of MIPS I that only compute.
-/

namespace Orbum

namespace Micro

variable {σ : Type} (inst : EeCoreInstruction) (d : EeData σ)

/-- A result of `Rs` and `Rt`, for `Rd`. -/
def ofRegisters (op : Udword → Udword → Udword) : Micro σ :=
  done (d.writeUdword inst.rd (op (d.readUdword inst.rs) (d.readUdword inst.rt)))

/-- A result of `Rs` and the immediate value, for `Rt`. -/
def ofImmediate (op : Udword → Uhword → Udword) : Micro σ :=
  done (d.writeUdword inst.rt (op (d.readUdword inst.rs) inst.imm))

/-! ### Logic -/

/-- `AND`. -/
def and : Micro σ := ofRegisters inst d (· &&& ·)

/-- `ANDI`. -/
def andi : Micro σ := ofImmediate inst d fun x imm => x &&& imm.setWidth 64

/-- `NOR`. -/
def nor : Micro σ := ofRegisters inst d fun x y => ~~~(x ||| y)

/-- `OR`. -/
def or : Micro σ := ofRegisters inst d (· ||| ·)

/-- `ORI`. -/
def ori : Micro σ := ofImmediate inst d fun x imm => x ||| imm.setWidth 64

/-- `XOR`. -/
def xor : Micro σ := ofRegisters inst d (· ^^^ ·)

/-- `XORI`. -/
def xori : Micro σ := ofImmediate inst d fun x imm => x ^^^ imm.setWidth 64

/-! ### Comparisons -/

/-- `SLT`. -/
def slt : Micro σ := ofRegisters inst d fun x y => if x.toInt < y.toInt then 1 else 0

/-- `SLTI`. -/
def slti : Micro σ := ofImmediate inst d fun x imm => if x.toInt < (imm.signExtend 64).toInt then 1 else 0

/-- `SLTIU`. -/
def sltiu : Micro σ := ofImmediate inst d fun x imm => if x < imm.signExtend 64 then 1 else 0

/-- `SLTU`. -/
def sltu : Micro σ := ofRegisters inst d fun x y => if x < y then 1 else 0

/-- `LUI`. -/
def lui : Micro σ := ofImmediate inst d fun _ imm => (imm.signExtend 32 <<< 16).signExtend 64

end Micro

/-- The functions of MIPS I that compute on the registers. -/
def EeCoreFunction.compute {σ : Type} (inst : EeCoreInstruction) : EeCoreFunction → Option (R5900 σ → Micro (Special σ))
  | addiu => some (Micro.addiu inst)
  | slti => some (Micro.slti inst)
  | sltiu => some (Micro.sltiu inst)
  | andi => some (Micro.andi inst)
  | ori => some (Micro.ori inst)
  | xori => some (Micro.xori inst)
  | lui => some (Micro.lui inst)
  | sll => some (Micro.sll inst)
  | srl => some (Micro.srl inst)
  | sra => some (Micro.sra inst)
  | sllv => some (Micro.sllv inst)
  | srlv => some (Micro.srlv inst)
  | srav => some (Micro.srav inst)
  | mfhi => some fun d => .done (R5900.mfhi inst d)
  | mthi => some fun d => .done (R5900.mthi inst d)
  | mflo => some fun d => .done (R5900.mflo inst d)
  | mtlo => some fun d => .done (R5900.mtlo inst d)
  | mult => some fun d => .done (R5900.mult inst d)
  | multu => some fun d => .done (R5900.multu inst d)
  | div => some fun d => .done (R5900.div inst d)
  | divu => some fun d => .done (R5900.divu inst d)
  | addu => some (Micro.addu inst)
  | subu => some (Micro.subu inst)
  | and => some (Micro.and inst)
  | or => some (Micro.or inst)
  | xor => some (Micro.xor inst)
  | nor => some (Micro.nor inst)
  | slt => some (Micro.slt inst)
  | sltu => some (Micro.sltu inst)
  | _ => none

end Orbum
