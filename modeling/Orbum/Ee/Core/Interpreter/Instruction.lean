import Orbum.Ee.Core.Interpreter.SystemControl

/-!
# Instructions of the EE core

`EeCoreInstruction` and what the functions of `CEeCoreInterpreter_*.cpp` have in common.

## The model

An instruction is of one of three kinds. A data instruction computes on the registers and the rest of the
machine, and all it has to do with the core is to ask for a coprocessor, to translate an address and to
raise an exception: it is a `Micro`, which `Micro.run` interprets. A branch is a record of what the
branches of the source differ in. The third kind is system control.

The bus, the FPU registers and the instructions that raise no exception but that of an unusable
coprocessor (shifts, logic, multiplication, MMI, FPU and VU0 arithmetic) are the parameter `Machine`.
-/

namespace Orbum

/-- `EeCoreInstruction`. -/
structure EeCoreInstruction where
  /-- The raw instruction. -/
  value : Uword

namespace EeCoreInstruction

/-- `OPCODE`. -/
def opcodeField : Bitfield := ⟨26, 6⟩
/-- `RS`. -/
def rsField : Bitfield := ⟨21, 5⟩
/-- `RT`. -/
def rtField : Bitfield := ⟨16, 5⟩
/-- `RD`. -/
def rdField : Bitfield := ⟨11, 5⟩
/-- `SHAMT`. -/
def shamtField : Bitfield := ⟨6, 5⟩
/-- `FUNCT`. -/
def functField : Bitfield := ⟨0, 6⟩
/-- `IMM`. -/
def immField : Bitfield := ⟨0, 16⟩
/-- `ADDR`. -/
def addrField : Bitfield := ⟨0, 26⟩

/-- `opcode()`. -/
def opcode (inst : EeCoreInstruction) : ℕ := (opcodeField.extractFrom inst.value).toNat

/-- `funct()`. -/
def funct (inst : EeCoreInstruction) : ℕ := (functField.extractFrom inst.value).toNat

/-- `rs()`. -/
def rs (inst : EeCoreInstruction) : BitVec 5 := (rsField.extractFrom inst.value).setWidth 5

/-- `rt()`. -/
def rt (inst : EeCoreInstruction) : BitVec 5 := (rtField.extractFrom inst.value).setWidth 5

/-- `rd()`. -/
def rd (inst : EeCoreInstruction) : BitVec 5 := (rdField.extractFrom inst.value).setWidth 5

/-- `shamt()`. -/
def shamt (inst : EeCoreInstruction) : ℕ := (shamtField.extractFrom inst.value).toNat

/-- `s_imm()`, before it is sign extended. -/
def imm (inst : EeCoreInstruction) : Uhword := (immField.extractFrom inst.value).setWidth 16

/-- `addr()`. -/
def addr (inst : EeCoreInstruction) : Uptr := addrField.extractFrom inst.value

end EeCoreInstruction

/-! ### Registers -/

namespace EeData

variable {σ : Type}

/-- `gpr[r].read_uword(0)`. -/
def readUword (d : EeData σ) (r : BitVec 5) : Uword := (d.gpr r).setWidth 32

/-- `gpr[r].read_udword(0)`. -/
def readUdword (d : EeData σ) (r : BitVec 5) : Udword := (d.gpr r).setWidth 64

/-- `gpr[r].write_uqword(value)`; `gpr[0]` is read only. -/
def writeUqword (d : EeData σ) (r : BitVec 5) (value : Uqword) : EeData σ :=
  if r = 0 then d else { d with gpr := Function.update d.gpr r value }

/-- `gpr[r].write_udword(0, value)`. -/
def writeUdword (d : EeData σ) (r : BitVec 5) (value : Udword) : EeData σ :=
  d.writeUqword r ((d.gpr r).extractLsb' 64 64 ++ value)

theorem gpr_writeUqword_self (d : EeData σ) {r : BitVec 5} (hr : r ≠ 0) (value : Uqword) :
    (d.writeUqword r value).gpr r = value := by
  rw [writeUqword, if_neg hr]
  exact Function.update_self _ _ _

theorem gpr_writeUqword_of_ne (d : EeData σ) {r r' : BitVec 5} (h : r' ≠ r) (value : Uqword) :
    (d.writeUqword r value).gpr r' = d.gpr r' := by
  unfold writeUqword
  split_ifs
  · rfl
  · exact Function.update_of_ne h _ _

@[simp] theorem rest_writeUqword (d : EeData σ) (r : BitVec 5) (value : Uqword) :
    (d.writeUqword r value).rest = d.rest := by
  unfold writeUqword
  split_ifs <;> rfl

/-- Two writes to a register agree if they write the same, or to register 0. -/
theorem writeUqword_eq_iff (d : EeData σ) (r : BitVec 5) (value value' : Uqword) :
    d.writeUqword r value = d.writeUqword r value' ↔ r = 0 ∨ value = value' := by
  by_cases hr : r = 0
  · simp only [writeUqword, hr, if_true, true_or]
  · simp only [hr, false_or]
    constructor
    · intro h
      rw [← gpr_writeUqword_self d hr value, h, gpr_writeUqword_self d hr]
    · rintro rfl
      rfl

theorem gpr_writeUdword_of_ne (d : EeData σ) {r r' : BitVec 5} (h : r' ≠ r) (value : Udword) :
    (d.writeUdword r value).gpr r' = d.gpr r' :=
  d.gpr_writeUqword_of_ne h _

@[simp] theorem rest_writeUdword (d : EeData σ) (r : BitVec 5) (value : Udword) :
    (d.writeUdword r value).rest = d.rest :=
  d.rest_writeUqword r _

theorem readUdword_writeUdword (d : EeData σ) {r : BitVec 5} (hr : r ≠ 0) (value : Udword) :
    (d.writeUdword r value).readUdword r = value := by
  simp only [readUdword, writeUdword, writeUqword, if_neg hr, Function.update_self]
  exact BitVec.setWidth_append_eq_right

/-- A second write leaves nothing of the first. -/
theorem writeUdword_writeUdword (d : EeData σ) (r : BitVec 5) (value value' : Udword) :
    (d.writeUdword r value).writeUdword r value' = d.writeUdword r value' := by
  unfold writeUdword writeUqword
  by_cases h : r = 0
  · simp only [if_pos h]
  · have hhigh : ((d.gpr r).extractLsb' 64 64 ++ value : Uqword).extractLsb' 64 64 = (d.gpr r).extractLsb' 64 64 :=
      BitVec.extractLsb'_append_eq_left
    simp only [if_neg h, Function.update_self, Function.update_idem, hhigh]

end EeData

/-! ### The machine around the core -/

/-- An instruction that computes on data alone, behind a check of its coprocessor. -/
structure OtherInstruction (σ : Type) where
  /-- The coprocessor it needs. -/
  usable : Option EeCore.Coprocessor
  /-- What it computes. -/
  body : EeData σ → Except HostError (EeData σ)

/-- The machine around the core. -/
structure Machine (σ : Type) where
  /-- `ee.bus.read_*`, of `w` bits. -/
  busRead (w : ℕ) (physicalAddress : Uptr) : σ → Except HostError (BitVec w × σ)
  /-- `ee.bus.write_*`, of `w` bits. -/
  busWrite (w : ℕ) (physicalAddress : Uptr) (value : BitVec w) : σ → Except HostError σ
  /-- `fpu.fpr[r].read_uword()`. -/
  fpr (r : BitVec 5) : σ → Uword
  /-- `fpu.fpr[r].write_uword(value)`. -/
  setFpr (r : BitVec 5) (value : Uword) : σ → σ
  /-- `unit_0.vf[r].write_uqword(value)`. -/
  setVf (r : BitVec 5) (value : Uqword) : σ → σ
  /-- `fpu.csr.extract_field(C)`. -/
  csrC : σ → Uword
  /-- The remaining rows of `lookup()`. -/
  other : EeCoreInstruction → Option (OtherInstruction σ)
  /-- `get_info()->cpi`. -/
  cpi : EeCoreInstruction → Uword

/-! ### Data instructions -/

/-- What a data instruction does. -/
inductive Micro (σ : Type) where
  /-- It returns, the data being `data` from now on. -/
  | done (data : EeData σ)
  /-- It throws. -/
  | fail (e : HostError)
  /-- It calls `handle_exception(e)` and returns. -/
  | raise (e : EeCoreException)
  /-- It needs a coprocessor. -/
  | usable (cop : EeCore.Coprocessor) (next : Micro σ)
  /-- It needs a physical address. -/
  | translate (virtualAddress : Uptr) (rwAccess : MmuRwAccess) (next : Uptr → Micro σ)
  /-- The data is `data` from now on. -/
  | write (data : EeData σ) (next : Micro σ)

namespace Micro

variable {σ : Type}

/-- Runs an instruction. -/
def run : Micro σ → EeCore σ → Except HostError (Result σ Unit)
  | done data, s => .ok (.value () (s.setData data))
  | fail e, _ => .error e
  | raise e, s => .ok (.exception e s)
  | usable cop next, s =>
    match s.handleCopUsable cop with
    | .value _ s => next.run s
    | .exception e s => .ok (.exception e s)
  | translate virtualAddress rwAccess next, s =>
    match s.translateAddressData virtualAddress rwAccess with
    | .value physicalAddress s => (next physicalAddress).run s
    | .exception e s => .ok (.exception e s)
  | write data next, s => next.run (s.setData data)

/-- What may throw. -/
def ofExcept {α : Type} (x : Except HostError α) (next : α → Micro σ) : Micro σ :=
  match x with
  | .error e => fail e
  | .ok a => next a

/-- A read of the bus. -/
def busRead (M : Machine σ) (w : ℕ) (physicalAddress : Uptr) (d : EeData σ)
    (next : BitVec w → EeData σ → Micro σ) : Micro σ :=
  ofExcept (M.busRead w physicalAddress d.rest) fun (value, rest) =>
    write { d with rest } (next value { d with rest })

/-- A write to the bus, the last thing an instruction does. -/
def busWrite (M : Machine σ) (w : ℕ) (physicalAddress : Uptr) (value : BitVec w) (d : EeData σ) : Micro σ :=
  ofExcept (M.busWrite w physicalAddress value d.rest) fun rest => done { d with rest }

/-- An instruction of `Machine.other`. -/
def ofOther (o : OtherInstruction σ) (d : EeData σ) : Micro σ :=
  match o.usable with
  | none => ofExcept (o.body d) done
  | some cop => usable cop (ofExcept (o.body d) done)

end Micro

/-! ### Branches -/

/-- Where a branch goes. -/
inductive BranchTarget where
  /-- `set_branch_itype(pc, imm)`. -/
  | itype (imm : Uhword)
  /-- `set_branch_jtype(pc, addr)`. -/
  | jtype (addr : Uptr)
  /-- `set_branch_direct(gpr[rs].read_uword(0))`. -/
  | direct (rs : BitVec 5)

/-- A branch or jump. -/
structure Branch (σ : Type) where
  /-- The coprocessor it needs. -/
  usable : Option EeCore.Coprocessor
  /-- The registers it reads. -/
  sources : List (BitVec 5)
  /-- Its condition. -/
  taken : EeData σ → Prop
  [decTaken : DecidablePred taken]
  /-- Not taken, it skips the delay slot. -/
  likely : Bool
  /-- The register the return address goes to. -/
  link : Option (BitVec 5)
  /-- Where it goes. -/
  target : BranchTarget
  /-- The condition reads no other register. -/
  taken_congr : ∀ d d' : EeData σ, d'.rest = d.rest → (∀ r ∈ sources, d'.gpr r = d.gpr r) → (taken d' ↔ taken d)
  /-- Nor does the target. -/
  direct_mem : ∀ rs, target = .direct rs → rs ∈ sources

namespace Branch

variable {σ : Type}

instance (b : Branch σ) : DecidablePred b.taken := b.decTaken

/-- The data once linked. -/
def linked (b : Branch σ) (pc : Uword) (d : EeData σ) : EeData σ :=
  match b.link with
  | none => d
  -- `SIZE_MIPS_INSTRUCTION` is a `size_t`, so that the sum has 64 bits
  | some r => d.writeUdword r (pc.setWidth 64 + 4 * 2)

/-- The delay slot of a taken branch, the data being linked. -/
def setBranch (b : Branch σ) (pc : Uword) (bdelay : BranchDelaySlot) (d : EeData σ) : BranchDelaySlot :=
  match b.target with
  | .itype imm => bdelay.setBranchItype pc imm
  | .jtype addr => bdelay.setBranchJtype pc addr
  | .direct rs => bdelay.setBranchDirect (d.readUword rs)

/-- A link branch whose source register is its own link register. -/
def SelfLinking (b : Branch σ) : Prop := ∃ r, b.link = some r ∧ r ∈ b.sources

theorem setBranch_currentSlot (b : Branch σ) (pc : Uword) (bdelay : BranchDelaySlot) (d : EeData σ) :
    (b.setBranch pc bdelay d).currentSlot = 2 := by
  unfold setBranch
  split <;> rfl

theorem setBranch_congr (b : Branch σ) (pc : Uword) (bdelay bdelay' : BranchDelaySlot) (d : EeData σ) :
    b.setBranch pc bdelay d = b.setBranch pc bdelay' d := by
  unfold setBranch
  split <;> rfl

@[simp] theorem rest_linked (b : Branch σ) (pc : Uword) (d : EeData σ) : (b.linked pc d).rest = d.rest := by
  unfold linked
  split
  · rfl
  · exact d.rest_writeUdword _ _

/-- Linking twice is linking once. -/
theorem linked_linked (b : Branch σ) (pc : Uword) (d : EeData σ) : b.linked pc (b.linked pc d) = b.linked pc d := by
  unfold linked
  split
  · rfl
  · exact d.writeUdword_writeUdword _ _ _

/-- A branch that is not self linking does not see that it has linked. -/
theorem taken_linked_iff {b : Branch σ} (h : ¬b.SelfLinking) (pc : Uword) (d : EeData σ) :
    b.taken (b.linked pc d) ↔ b.taken d := by
  refine b.taken_congr d _ (b.rest_linked pc d) fun r hr => ?_
  unfold linked
  split
  · rfl
  · rename_i r' hr'
    refine d.gpr_writeUdword_of_ne ?_ _
    rintro rfl
    exact h ⟨r, hr', hr⟩

end Branch

namespace EeCore

variable {σ : Type}

/-- Writes the delay slot. -/
@[simps] def setBdelay (s : EeCore σ) (bdelay : BranchDelaySlot) : EeCore σ := { s with bdelay }

/-- `bdelay.advance_pc(pc)`. -/
def advancePc (s : EeCore σ) : EeCore σ := (s.setBdelay (s.bdelay.advancePc s.pc).1).setPc (s.bdelay.advancePc s.pc).2

end EeCore

/-- The branch itself. -/
def Branch.branch {σ : Type} (b : Branch σ) (s : EeCore σ) : EeCore σ :=
  if b.taken s.data then
    let d := b.linked s.pc s.data
    (s.setData d).setBdelay (b.setBranch s.pc s.bdelay d)
  else if b.likely then s.advancePc
  else s

/-- Runs a branch. -/
def Branch.run {σ : Type} (b : Branch σ) (s : EeCore σ) : Except HostError (Result σ Unit) :=
  match b.usable with
  | none => .ok (.value () (b.branch s))
  | some cop =>
    match s.handleCopUsable cop with
    | .value _ s => .ok (.value () (b.branch s))
    | .exception e s => .ok (.exception e s)

/-! ### System control -/

/-- The system control instructions. -/
inductive SystemOp where
  /-- `MFC0`. -/
  | mfc0 (rt rd : BitVec 5)
  /-- `MTC0`. -/
  | mtc0 (rt rd : BitVec 5)
  /-- `TLBR`. -/
  | tlbr
  /-- `TLBWI`. -/
  | tlbwi
  /-- `TLBWR`. -/
  | tlbwr
  /-- `TLBP`. -/
  | tlbp
  /-- `ERET`. -/
  | eret
  /-- `EI`. -/
  | ei
  /-- `DI`. -/
  | di

/-- Runs a system control instruction. -/
def SystemOp.run {σ : Type} : SystemOp → EeCore σ → Except HostError (Result σ Unit)
  | mfc0 rt rd, s => s.mfc0 rd fun value d => d.writeUdword rt (value.setWidth 64)
  | mtc0 rt rd, s => s.mtc0 rd (s.data.readUword rt)
  | tlbr, s => s.tlbr
  | tlbwi, s => s.tlbwi
  | tlbwr, s => s.tlbwr
  | tlbp, s => s.tlbp
  | eret, s => s.eret
  | ei, s => s.ei
  | di, s => s.di

/-- What an instruction is. -/
inductive Operation (σ : Type) where
  /-- A data instruction. -/
  | data (m : EeData σ → Micro σ)
  /-- A branch. -/
  | branch (b : Branch σ)
  /-- System control. -/
  | system (op : SystemOp)

/-- Runs an instruction. -/
def Operation.run {σ : Type} : Operation σ → EeCore σ → Except HostError (Result σ Unit)
  | data m, s => (m s.data).run s
  | branch b, s => b.run s
  | system op, s => op.run s

end Orbum
