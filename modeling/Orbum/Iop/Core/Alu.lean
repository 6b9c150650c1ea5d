import Orbum.Iop.Core.Lookup
import Orbum.Iop.Core.Transfer

/-!
# The IOP instructions that compute

The instructions of `CIopCoreInterpreter_ALU.cpp` that raise no exception, `LUI` of
`CIopCoreInterpreter_LOAD_STORE_MEM.cpp`, and those of `CIopCoreInterpreter_OTHERS.cpp` that do nothing: the whole of
coprocessor 2, which has no implementation, and the control registers of COP0. Signed arithmetic wraps.

With them every function of `IOP_INSTRUCTION_TABLE` has a definition.
-/

namespace Orbum

namespace R3000

variable {σ : Type} (inst : IopCoreInstruction) (d : R3000 σ)

/-! ### Results for a register -/

/-- A result of `Rs` and `Rt`, for `Rd`. -/
def ofRegisters (op : Uword → Uword → Uword) : R3000 σ := d.writeUword inst.rd (op (d.gpr inst.rs) (d.gpr inst.rt))

/-- A result of `Rs` and the immediate value, for `Rt`. -/
def ofImmediate (op : Uword → Uhword → Uword) : R3000 σ := d.writeUword inst.rt (op (d.gpr inst.rs) inst.imm)

/-- A shift of `Rt`, for `Rd`. -/
def shift (op : Uword → ℕ → Uword) (shamt : ℕ) : R3000 σ := d.writeUword inst.rd (op (d.gpr inst.rt) shamt)

/-- `reg_source2.read_ubyte(0) & 0x1F`. -/
def variableShamt : ℕ := ((d.gpr inst.rs).setWidth 8 &&& (0x1F : Ubyte)).toNat

/-- `ADDIU`. -/
def addiu : R3000 σ := ofImmediate inst d fun x imm => x + imm.signExtend 32

/-- `ADDU`. -/
def addu : R3000 σ := ofRegisters inst d (· + ·)

/-- `SUBU`. -/
def subu : R3000 σ := ofRegisters inst d (· - ·)

/-- `AND`. -/
def and : R3000 σ := ofRegisters inst d (· &&& ·)

/-- `ANDI`. -/
def andi : R3000 σ := ofImmediate inst d fun x imm => x &&& imm.setWidth 32

/-- `NOR`. -/
def nor : R3000 σ := ofRegisters inst d fun x y => ~~~(x ||| y)

/-- `OR`. -/
def or : R3000 σ := ofRegisters inst d (· ||| ·)

/-- `ORI`. -/
def ori : R3000 σ := ofImmediate inst d fun x imm => x ||| imm.setWidth 32

/-- `XOR`. -/
def xor : R3000 σ := ofRegisters inst d (· ^^^ ·)

/-- `XORI`. -/
def xori : R3000 σ := ofImmediate inst d fun x imm => x ^^^ imm.setWidth 32

/-- `SLT`. -/
def slt : R3000 σ := ofRegisters inst d fun x y => if x.toInt < y.toInt then 1 else 0

/-- `SLTI`. -/
def slti : R3000 σ := ofImmediate inst d fun x imm => if x.toInt < (imm.signExtend 32).toInt then 1 else 0

/-- `SLTIU`. -/
def sltiu : R3000 σ := ofImmediate inst d fun x imm => if x < imm.signExtend 32 then 1 else 0

/-- `SLTU`. -/
def sltu : R3000 σ := ofRegisters inst d fun x y => if x < y then 1 else 0

/-- `LUI`. -/
def lui : R3000 σ := ofImmediate inst d fun _ imm => imm.signExtend 32 <<< 16

/-- `SLL`. -/
def sll : R3000 σ := shift inst d (· <<< ·) inst.shamt

/-- `SLLV`. -/
def sllv : R3000 σ := shift inst d (· <<< ·) (variableShamt inst d)

/-- `SRA`. -/
def sra : R3000 σ := shift inst d BitVec.sshiftRight inst.shamt

/-- `SRAV`. -/
def srav : R3000 σ := shift inst d BitVec.sshiftRight (variableShamt inst d)

/-- `SRL`. -/
def srl : R3000 σ := shift inst d (· >>> ·) inst.shamt

/-- `SRLV`. -/
def srlv : R3000 σ := shift inst d (· >>> ·) (variableShamt inst d)

/-! ### Multiplication -/

/-- The halves of a product, for `lo` and `hi`. -/
def writeProduct (result : Udword) : R3000 σ :=
  { d with rest := { d.rest with lo := result.setWidth 32, hi := (result >>> 32).setWidth 32 } }

/-- `MULT`. -/
def mult : R3000 σ := writeProduct d ((d.gpr inst.rs).signExtend 64 * (d.gpr inst.rt).signExtend 64)

/-- `MULTU`. -/
def multu : R3000 σ := writeProduct d ((d.gpr inst.rs).setWidth 64 * (d.gpr inst.rt).setWidth 64)

end R3000

namespace IopCoreFunction

variable {σ : Type}

/-- The functions that compute on the registers. `DIV` and `DIVU` have a quotient where they divide. -/
def compute (inst : IopCoreInstruction) : IopCoreFunction → Option (R3000 σ → R3000 σ)
  | addiu => some (R3000.addiu inst)
  | slti => some (R3000.slti inst)
  | sltiu => some (R3000.sltiu inst)
  | andi => some (R3000.andi inst)
  | ori => some (R3000.ori inst)
  | xori => some (R3000.xori inst)
  | lui => some (R3000.lui inst)
  | sll => some (R3000.sll inst)
  | srl => some (R3000.srl inst)
  | sra => some (R3000.sra inst)
  | sllv => some (R3000.sllv inst)
  | srlv => some (R3000.srlv inst)
  | srav => some (R3000.srav inst)
  | mfhi => some (R3000.mfhi inst)
  | mthi => some (R3000.mthi inst)
  | mflo => some (R3000.mflo inst)
  | mtlo => some (R3000.mtlo inst)
  | mult => some (R3000.mult inst)
  | multu => some (R3000.multu inst)
  | div => some fun d => (R3000.div inst d).getD d
  | divu => some fun d => (R3000.divu inst d).getD d
  | addu => some (R3000.addu inst)
  | subu => some (R3000.subu inst)
  | and => some (R3000.and inst)
  | or => some (R3000.or inst)
  | xor => some (R3000.xor inst)
  | nor => some (R3000.nor inst)
  | slt => some (R3000.slt inst)
  | sltu => some (R3000.sltu inst)
  | lwc2 | swc2 | cfc0 | ctc0 | rtps | nclip | op | dpcs | intpl | mvmva | ncds | cdp | ncdt | nccs | cc | ncs | nct
  | sqr | dcpl | dpct | avsz3 | avsz4 | rtpt | gpf | gpl | mfc2 | cfc2 | mtc2 | ctc2 | instructionUnknown => some id
  | _ => none

/-- The functions that branch, touch COP0, access memory or can raise an exception. -/
def control (M : IopMachine σ) (inst : IopCoreInstruction) : IopCoreFunction → Option (IopOperation σ)
  | j => some (.branch (fun _ => true) none (.jtype inst.addr))
  | jal => some (.branch (fun _ => true) (some 31) (.jtype inst.addr))
  | jr => some (.branch (fun _ => true) none (.direct inst.rs))
  | jalr => some (.branch (fun _ => true) (some inst.rd) (.direct inst.rs))
  | beq => some (IopMachine.compare inst fun x y => decide (x = y))
  | bne => some (IopMachine.compare inst fun x y => decide (x ≠ y))
  | blez => some (IopMachine.compareZero inst (decide <| · ≤ 0) none)
  | bgtz => some (IopMachine.compareZero inst (decide <| 0 < ·) none)
  | bltz => some (IopMachine.compareZero inst (decide <| · < 0) none)
  | bgez => some (IopMachine.compareZero inst (decide <| 0 ≤ ·) none)
  | bltzal => some (IopMachine.compareZero inst (decide <| · < 0) (some 31))
  | bgezal => some (IopMachine.compareZero inst (decide <| 0 ≤ ·) (some 31))
  | syscall => some (.data .syscall)
  | break_ => some (.data .break_)
  | add => some (.data (.add inst))
  | addi => some (.data (.addi inst))
  | sub => some (.data (.sub inst))
  | mfc0 => some (.mfc0 inst.rt inst.rd)
  | mtc0 => some (.mtc0 inst.rt inst.rd)
  | rfe => some .rfe
  | lb => some (.data (.lb M inst))
  | lh => some (.data (.lh M inst))
  | lwl => some (.data (.lwl M inst))
  | lw => some (.data (.lw M inst))
  | lbu => some (.data (.lbu M inst))
  | lhu => some (.data (.lhu M inst))
  | lwr => some (.data (.lwr M inst))
  | sb => some (.data (.sb M inst))
  | sh => some (.data (.sh M inst))
  | swl => some (.data (.swl M inst))
  | sw => some (.data (.sw M inst))
  | swr => some (.data (.swr M inst))
  | _ => none

end IopCoreFunction

end Orbum
