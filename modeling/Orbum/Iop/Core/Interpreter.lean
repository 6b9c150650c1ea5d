import Orbum.Ee.Core.Interpreter.Data
import Orbum.Iop.Core.Exception

/-!
# The IOP core interpreter

`CIopCoreInterpreter::time_step`, the table `IopCoreInstruction::lookup` and the instructions that branch,
touch COP0, access memory or can raise an exception.

## The model

A data instruction is an `IopMicro`: it computes on the registers and the rest of the machine, may ask for a
physical address and may raise an exception. Every caller of `handle_exception` returns right after it, so
an instruction comes to an `IopResult`. The bus and the instructions that only compute (logic, shifts,
unchecked arithmetic, multiplication and the unimplemented coprocessor 2) are the parameter `IopMachine`.
-/

namespace Orbum

/-- `IopCoreInstruction`; both cores extend `MipsInstruction`, whose fields are all that is used. -/
abbrev IopCoreInstruction := EeCoreInstruction

namespace IopData

variable {σ : Type}

/-- `gpr[r].write_uword(value)`; `gpr[0]` is read only. -/
def writeUword (d : IopData σ) (r : BitVec 5) (value : Uword) : IopData σ :=
  if r = 0 then d else { d with gpr := Function.update d.gpr r value }

variable (d : IopData σ) {r r' : BitVec 5} (value : Uword)

@[simp] theorem rest_writeUword : (d.writeUword r value).rest = d.rest := by
  unfold writeUword
  split_ifs <;> rfl

theorem gpr_writeUword (hr : r ≠ 0) (r' : BitVec 5) :
    (d.writeUword r value).gpr r' = if r' = r then value else d.gpr r' := by
  rw [writeUword, if_neg hr]
  exact Function.update_apply ..

theorem gpr_writeUword_of_ne (h : r' ≠ r) : (d.writeUword r value).gpr r' = d.gpr r' := by
  unfold writeUword
  split_ifs
  · rfl
  · exact Function.update_of_ne h ..

theorem writeUword_writeUword (value' : Uword) : (d.writeUword r value').writeUword r value = d.writeUword r value := by
  unfold writeUword
  split_ifs
  · rfl
  · rw [Function.update_idem]

end IopData

/-- The machine around the core. -/
structure IopMachine (σ : Type) where
  /-- `iop.bus.read_*`, of `w` bits. -/
  busRead (w : ℕ) (physicalAddress : Uptr) : σ → Except HostError (BitVec w × σ)
  /-- `iop.bus.write_*`, of `w` bits. -/
  busWrite (w : ℕ) (physicalAddress : Uptr) (value : BitVec w) : σ → Except HostError σ
  /-- The remaining rows of `lookup()`. -/
  other : IopCoreInstruction → Option (IopData σ → Except HostError (IopData σ))

/-- What an instruction comes to. -/
inductive IopResult (σ : Type) where
  /-- It returns. -/
  | value (s : IopCore σ)
  /-- It calls `handle_exception(e)` in state `s` and returns. -/
  | exception (e : IopCoreException) (s : IopCore σ)

/-- The state after an instruction, the exception handled. -/
def IopResult.handled {σ : Type} : IopResult σ → Except HostError (IopCore σ)
  | value s => .ok s
  | exception e s => s.handleException e

/-! ### Data instructions -/

/-- What a data instruction does. -/
inductive IopMicro (σ : Type) where
  /-- It returns, the data being `data` from now on. -/
  | done (data : IopData σ)
  /-- It throws. -/
  | fail (e : HostError)
  /-- It calls `handle_exception(e)` and returns. -/
  | raise (e : IopCoreException)
  /-- It needs a physical address, and returns without one. -/
  | translate (virtualAddress : Uptr) (rwAccess : MmuRwAccess) (next : Uptr → IopMicro σ)
  /-- The data is `data` from now on. -/
  | write (data : IopData σ) (next : IopMicro σ)

namespace IopMicro

variable {σ : Type}

/-- Runs an instruction. -/
def run : IopMicro σ → IopCore σ → Except HostError (IopResult σ)
  | done data, s => .ok (.value (s.setData data))
  | fail e, _ => .error e
  | raise e, s => .ok (.exception e s)
  | translate virtualAddress rwAccess next, s => do
    match ← s.translateAddressData virtualAddress rwAccess with
    | (some physicalAddress, s) => (next physicalAddress).run s
    | (none, s) => return .value s
  | write data next, s => next.run (s.setData data)

/-- What may throw. -/
def ofExcept {α : Type} (x : Except HostError α) (next : α → IopMicro σ) : IopMicro σ :=
  match x with
  | .error e => fail e
  | .ok a => next a

variable (M : IopMachine σ) (inst : IopCoreInstruction) (d : IopData σ)

/-- A read of the bus. -/
def busRead (w : ℕ) (physicalAddress : Uptr) (next : BitVec w → IopData σ → IopMicro σ) : IopMicro σ :=
  ofExcept (M.busRead w physicalAddress d.rest) fun (value, rest) =>
    write { d with rest } (next value { d with rest })

/-- A write to the bus, the last thing an instruction does. -/
def busWrite (w : ℕ) (physicalAddress : Uptr) (value : BitVec w) : IopMicro σ :=
  ofExcept (M.busWrite w physicalAddress value d.rest) fun rest => done { d with rest }

/-- `SYSCALL`. -/
def syscall (_d : IopData σ) : IopMicro σ := raise .exSystemcall

/-- `BREAK`. -/
def break_ (_d : IopData σ) : IopMicro σ := raise .exBreak

/-- An instruction that raises the overflow exception if `x` and `y` overflow, and writes `result` otherwise. -/
def checked (x y : ℤ) (reg : BitVec 5) (result : Uword) : IopMicro σ :=
  if Micro.TestOverOrUnderflow 32 x y then raise .exOverflow else done (d.writeUword reg result)

/-- `ADD`. -/
def add : IopMicro σ :=
  checked d (d.gpr inst.rs).toInt (d.gpr inst.rt).toInt inst.rd (d.gpr inst.rs + d.gpr inst.rt)

/-- `ADDI`. -/
def addi : IopMicro σ :=
  checked d (d.gpr inst.rs).toInt inst.imm.toInt inst.rt (d.gpr inst.rs + inst.imm.signExtend 32)

/-- `SUB`: the check is on the operands as for `ADD`. -/
def sub : IopMicro σ :=
  checked d (d.gpr inst.rs).toInt (d.gpr inst.rt).toInt inst.rd (d.gpr inst.rs - d.gpr inst.rt)

/-- The virtual address of a load or store. -/
def virtualAddress : Uptr := d.gpr inst.rs + inst.imm.signExtend 32

/-- A load of `w` bits. -/
def load (w : ℕ) (extend : BitVec w → Uword) : IopMicro σ :=
  translate (virtualAddress inst d) .read fun physicalAddress =>
    busRead M d w physicalAddress fun value d => done (d.writeUword inst.rt (extend value))

/-- `LB`. -/
def lb : IopMicro σ := load M inst d 8 (·.signExtend 32)

/-- `LBU`. -/
def lbu : IopMicro σ := load M inst d 8 (·.setWidth 32)

/-- `LH`. -/
def lh : IopMicro σ := load M inst d 16 (·.signExtend 32)

/-- `LHU`. -/
def lhu : IopMicro σ := load M inst d 16 (·.setWidth 32)

/-- `LW`. -/
def lw : IopMicro σ := load M inst d 32 id

/-- A load of the part of a word that is on one side of the address; `merge` gets the shift, the register and the
word. -/
def loadPart (merge : ℕ → Uword → Uword → Uword) : IopMicro σ :=
  let address := virtualAddress inst d
  let shift := ((address &&& 3) <<< 3).toNat
  translate (address &&& 0xFFFFFFFC) .read fun physicalAddress =>
    busRead M d 32 physicalAddress fun value d => done (d.writeUword inst.rt (merge shift (d.gpr inst.rt) value))

/-- `LWL`. -/
def lwl : IopMicro σ := loadPart M inst d fun shift reg value =>
  (reg &&& (0x00FFFFFF >>> shift)) ||| (value <<< (24 - shift))

/-- `LWR`. -/
def lwr : IopMicro σ := loadPart M inst d fun shift reg value =>
  (reg &&& (0xFFFFFF00 <<< (24 - shift))) ||| (value >>> shift)

/-- A store of `w` bits. -/
def store (w : ℕ) (value : BitVec w) : IopMicro σ :=
  translate (virtualAddress inst d) .write fun physicalAddress => busWrite M d w physicalAddress value

/-- `SB`. -/
def sb : IopMicro σ := store M inst d 8 ((d.gpr inst.rt).setWidth 8)

/-- `SH`. -/
def sh : IopMicro σ := store M inst d 16 ((d.gpr inst.rt).setWidth 16)

/-- `SW`. -/
def sw : IopMicro σ := store M inst d 32 (d.gpr inst.rt)

/-- A store to the part of a word that is on one side of the address: the word is read, and the address is
translated again for the write. -/
def storePart (merge : ℕ → Uword → Uword → Uword) : IopMicro σ :=
  let address := virtualAddress inst d
  let shift := ((address &&& 3) <<< 3).toNat
  translate (address &&& 0xFFFFFFFC) .read fun physicalAddress =>
    busRead M d 32 physicalAddress fun value d =>
      translate (address &&& 0xFFFFFFFC) .write fun physicalAddress =>
        busWrite M d 32 physicalAddress (merge shift (d.gpr inst.rt) value)

/-- `SWL`. -/
def swl : IopMicro σ := storePart M inst d fun shift reg value =>
  (reg >>> (24 - shift)) ||| (value &&& (0xFFFFFF00 <<< shift))

/-- `SWR`. -/
def swr : IopMicro σ := storePart M inst d fun shift reg value =>
  (reg <<< shift) ||| (value &&& (0x00FFFFFF >>> (24 - shift)))

end IopMicro

/-! ### Instructions -/

/-- What an instruction is. -/
inductive IopOperation (σ : Type) where
  /-- A data instruction. -/
  | data (m : IopData σ → IopMicro σ)
  /-- A branch or jump: its condition, the register of its return address, and where it goes. -/
  | branch (taken : IopData σ → Bool) (link : Option (BitVec 5)) (target : BranchTarget)
  /-- `MFC0`. -/
  | mfc0 (rt rd : BitVec 5)
  /-- `MTC0`. -/
  | mtc0 (rt rd : BitVec 5)
  /-- `RFE`. -/
  | rfe

namespace IopCore

variable {σ : Type}

/-- A branch. -/
def branch (taken : IopData σ → Bool) (link : Option (BitVec 5)) (target : BranchTarget) (s : IopCore σ) : IopCore σ :=
  if taken s.data then
    let data := match link with
      | none => s.data
      | some r => s.data.writeUword r (s.pc + 4 * 2)
    let bdelay := match target with
      | .itype imm => s.bdelay.setBranchItype s.pc imm
      | .jtype addr => s.bdelay.setBranchJtype s.pc addr
      | .direct rs => s.bdelay.setBranchDirect (data.gpr rs)
    (s.setData data).setBdelay bdelay
  else s

/-- `if (!handle_cop0_usable()) return;` before the rest of an instruction. -/
def whenCop0Usable (s : IopCore σ) (k : Except HostError (IopCore σ)) : Except HostError (IopResult σ) :=
  if s.cop0.isUsable then do return .value (← k)
  else .ok (.exception .exCoprocessorUnusable
    (s.setCop0 { s.cop0 with cause := s.cop0.cause.insertField EeCoreCop0Cause.ce 0 }))

/-- `MFC0`. -/
def mfc0 (rt rd : BitVec 5) (s : IopCore σ) : Except HostError (IopResult σ) :=
  s.whenCop0Usable do
    let (value, cop0) ← s.cop0.readRegister rd
    return (s.setCop0 cop0).setData (s.data.writeUword rt value)

/-- `MTC0`. -/
def mtc0 (rt rd : BitVec 5) (s : IopCore σ) : Except HostError (IopResult σ) :=
  s.whenCop0Usable do return s.setCop0 (← s.cop0.writeRegister rd (s.data.gpr rt))

/-- `RFE`. -/
def rfe (s : IopCore σ) : Except HostError (IopCore σ) := do
  let status ← s.cop0.status.popExceptionStack
  return (s.setCop0 { s.cop0 with status, cause := s.cop0.cause.clearAllIrq }).flush

end IopCore

/-- Runs an instruction. -/
def IopOperation.run {σ : Type} : IopOperation σ → IopCore σ → Except HostError (IopResult σ)
  | data m, s => (m s.data).run s
  | branch taken link target, s => .ok (.value (s.branch taken link target))
  | mfc0 rt rd, s => s.mfc0 rt rd
  | mtc0 rt rd, s => s.mtc0 rt rd
  | rfe, s => do return .value (← s.rfe)

namespace IopMachine

variable {σ : Type} (M : IopMachine σ) (inst : IopCoreInstruction)

/-- A branch on two registers. -/
def compare (rel : Uword → Uword → Bool) : IopOperation σ :=
  .branch (fun d => rel (d.gpr inst.rt) (d.gpr inst.rs)) none (.itype inst.imm)

/-- A branch on one register and zero. -/
def compareZero (test : ℤ → Bool) (link : Option (BitVec 5)) : IopOperation σ :=
  .branch (fun d => test (d.gpr inst.rs).toInt) link (.itype inst.imm)

/-- The instructions of `lookup()` that are not left to `IopMachine.other`. -/
def modelled : Option (IopOperation σ) :=
  match inst.opcode with
  | 0 =>
    match inst.funct with
    | 8 => some (.branch (fun _ => true) none (.direct inst.rs))
    | 9 => some (.branch (fun _ => true) (some inst.rd) (.direct inst.rs))
    | 12 => some (.data .syscall)
    | 13 => some (.data .break_)
    | 32 => some (.data (.add inst))
    | 34 => some (.data (.sub inst))
    | _ => none
  | 1 =>
    match inst.rt.toNat with
    | 0 => some (compareZero inst (decide <| · < 0) none)
    | 1 => some (compareZero inst (decide <| 0 ≤ ·) none)
    | 15 => some (compareZero inst (decide <| · < 0) (some 31))
    | 16 => some (compareZero inst (decide <| 0 ≤ ·) (some 31))
    | _ => none
  | 2 => some (.branch (fun _ => true) none (.jtype inst.addr))
  | 3 => some (.branch (fun _ => true) (some 31) (.jtype inst.addr))
  | 4 => some (compare inst fun x y => decide (x = y))
  | 5 => some (compare inst fun x y => decide (x ≠ y))
  | 6 => some (compareZero inst (decide <| · ≤ 0) none)
  | 7 => some (compareZero inst (decide <| 0 < ·) none)
  | 8 => some (.data (.addi inst))
  | 16 =>
    match inst.rs.toNat with
    | 0 => some (.mfc0 inst.rt inst.rd)
    | 4 => some (.mtc0 inst.rt inst.rd)
    | 16 => some .rfe
    | _ => none
  | 32 => some (.data (.lb M inst))
  | 33 => some (.data (.lh M inst))
  | 34 => some (.data (.lwl M inst))
  | 35 => some (.data (.lw M inst))
  | 36 => some (.data (.lbu M inst))
  | 37 => some (.data (.lhu M inst))
  | 38 => some (.data (.lwr M inst))
  | 40 => some (.data (.sb M inst))
  | 41 => some (.data (.sh M inst))
  | 42 => some (.data (.swl M inst))
  | 43 => some (.data (.sw M inst))
  | 46 => some (.data (.swr M inst))
  | _ => none

/-- `get_info()`, with the function at its index. -/
def lookup : Except HostError (IopOperation σ) :=
  match M.modelled inst with
  | some op => .ok op
  | none =>
    match M.other inst with
    | some f => .ok (.data fun d => .ofExcept (f d) .done)
    | none => .error (.runtimeError "Could not determine instruction")

end IopMachine

/-! ### One step -/

namespace IopCore

variable {σ : Type}

/-- `Cause` with its lines merged, as a read leaves it. -/
def mergeCause (s : IopCore σ) : IopCore σ :=
  s.setCop0 { s.cop0 with cause := (s.cop0.cause.extractField EeCoreCop0Cause.ip).2 }

/-- An enabled line is set. -/
def InterruptPending (s : IopCore σ) : Prop :=
  (s.cop0.cause.extractField EeCoreCop0Cause.ip).1 &&& s.cop0.status.extractField IopCoreCop0Status.im ≠ 0

instance (s : IopCore σ) : Decidable s.InterruptPending := inferInstanceAs (Decidable (_ ≠ _))

/-- `handle_interrupt_check()`. -/
def handleInterruptCheck (s : IopCore σ) : Except HostError (IopCore σ) :=
  if s.cop0.status.interruptsMasked then .ok s
  else if s.InterruptPending then s.mergeCause.handleException .exInterrupt
  else .ok s.mergeCause

/-- The fetch: an address that does not translate unwraps the empty `optional`. -/
def fetch (M : IopMachine σ) (s : IopCore σ) : Except HostError (IopCoreInstruction × IopCore σ) := do
  match ← s.translateAddressInst s.pc with
  | (some physicalAddress, s) => do
    let (rawInst, rest) ← M.busRead 32 physicalAddress s.data.rest
    return (⟨rawInst⟩, s.setData { s.data with rest })
  | (none, _) => .error .badOptionalAccess

/-- `bdelay.advance_pc(pc)`. -/
def advancePc (s : IopCore σ) : IopCore σ :=
  (s.setBdelay (s.bdelay.advancePc s.pc).1).setPc (s.bdelay.advancePc s.pc).2

/-- `time_step(ticks_available)`. -/
def timeStep (M : IopMachine σ) (s : IopCore σ) : Except HostError (IopCore σ) := do
  let s ← s.handleInterruptCheck
  let (inst, s) ← s.fetch M
  let op ← M.lookup inst
  let s ← (← op.run s).handled
  return s.advancePc

end IopCore

end Orbum
