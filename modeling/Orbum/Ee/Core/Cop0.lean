import Orbum.Common.Bitfield
import Mathlib.Data.List.FinRange
import Mathlib.Logic.Function.Basic

/-!
# COP0 of the EE core

`Resources/Ee/Core/EeCoreCop0.hpp` and `EeCoreCop0Registers.cpp`: the system control coprocessor.
`Status` keeps three values it derives from its bits at every write, `Cause` keeps its interrupt
lines apart and merges them into the register when it is read, and `Compare` is meant to clear the
timer's line when it is written.

## The model

Registers whose only use is to be read and written by index (`Wired`, `Config`, `BadPAddr`, `Bpc`,
`Pccr`, `TagLo`, `TagHi` and the reserved ones) are one function of the index. A write that throws
keeps nothing, as the run ends there.
-/

namespace Orbum

/-- `MipsCoprocessor0::OperatingContext`. -/
inductive OperatingContext where
  /-- User mode. -/
  | user
  /-- Supervisor mode. -/
  | supervisor
  /-- Kernel mode. -/
  | kernel
  deriving DecidableEq, Repr

/-! ### Status -/

/-- `EeCoreCop0Register_Status`. -/
structure EeCoreCop0Status where
  /-- The register. -/
  w : Uword
  /-- The CPU takes no interrupts. -/
  interruptsMasked : Bool
  /-- The CPU operating context. -/
  operatingContext : OperatingContext
  /-- The `Count` register raises interrupts. -/
  countInterruptsEnabled : Bool
  deriving DecidableEq

namespace EeCoreCop0Status

/-- `IE`. -/
def ie : Bitfield := ⟨0, 1⟩
/-- `EXL`. -/
def exl : Bitfield := ⟨1, 1⟩
/-- `ERL`. -/
def erl : Bitfield := ⟨2, 1⟩
/-- `KSU`. -/
def ksu : Bitfield := ⟨3, 2⟩
/-- `IM`. -/
def im : Bitfield := ⟨8, 8⟩
/-- `EIE`. -/
def eie : Bitfield := ⟨16, 1⟩
/-- `EDI`. -/
def edi : Bitfield := ⟨17, 1⟩
/-- `BEV`. -/
def bev : Bitfield := ⟨22, 1⟩
/-- `DEV`. -/
def dev : Bitfield := ⟨23, 1⟩
/-- `CU`. -/
def cu : Bitfield := ⟨28, 4⟩

/-- The register after construction: `BEV` and `ERL` set. -/
def initial : EeCoreCop0Status := ⟨0x00400004, true, .kernel, false⟩

/-- `extract_field(field)`. -/
def extractField (s : EeCoreCop0Status) (f : Bitfield) : Uword := f.extractFrom s.w

/-- What `handle_interrupts_masked_update` computes. -/
def maskedOf (w : Uword) : Bool :=
  !(erl.extractFrom w == 0 && exl.extractFrom w == 0 && decide (0 < ie.extractFrom w) &&
    decide (0 < eie.extractFrom w))

/-- What `handle_operating_context_update` computes. -/
def contextOf (w : Uword) : Except HostError OperatingContext :=
  if ksu.extractFrom w = 2 ∧ erl.extractFrom w = 0 ∧ exl.extractFrom w = 0 then .ok .user
  else if ksu.extractFrom w = 0 ∨ erl.extractFrom w = 1 ∨ exl.extractFrom w = 1 then .ok .kernel
  else if ksu.extractFrom w = 1 ∧ erl.extractFrom w = 0 ∧ exl.extractFrom w = 0 then .ok .supervisor
  else .error (.runtimeError "EE COP0 could not determine CPU operating context! Please debug.")

/-- What `handle_count_interrupt_state_update` computes; `0x8000` is bit `IM[7]`. -/
def countEnabledOf (w : Uword) : Bool := !maskedOf w && w &&& 0x8000 != 0

/-- `write_uword(value)`. -/
def writeUword (_s : EeCoreCop0Status) (value : Uword) : Except HostError EeCoreCop0Status := do
  let context ← contextOf value
  return ⟨value, maskedOf value, context, countEnabledOf value⟩

/-- `insert_field(field, value)`. -/
def insertField (s : EeCoreCop0Status) (f : Bitfield) (value : Uword) : Except HostError EeCoreCop0Status :=
  s.writeUword (f.insertInto s.w value)

/-- The derived values agree with the register. -/
structure Synced (s : EeCoreCop0Status) : Prop where
  /-- `interrupts_masked` is up to date. -/
  masked : s.interruptsMasked = maskedOf s.w
  /-- `operating_context` is up to date. -/
  context : contextOf s.w = .ok s.operatingContext
  /-- `count_interrupts_enabled` is up to date. -/
  countEnabled : s.countInterruptsEnabled = countEnabledOf s.w

theorem synced_initial : initial.Synced := ⟨by decide, by rfl, by decide⟩

theorem writeUword_eq_ok_iff {s s' : EeCoreCop0Status} {value : Uword} : s.writeUword value = .ok s' ↔
    ∃ context, contextOf value = .ok context ∧ s' = ⟨value, maskedOf value, context, countEnabledOf value⟩ := by
  unfold writeUword
  cases hc : contextOf value with
  | error e => simp [bind, Except.bind]
  | ok context => simp [bind, Except.bind, pure, Except.pure, eq_comm]

/-- Every write leaves the register in step with its derived values. -/
theorem synced_of_writeUword {s s' : EeCoreCop0Status} {value : Uword} (h : s.writeUword value = .ok s') :
    s'.Synced ∧ s'.w = value := by
  obtain ⟨context, hc, rfl⟩ := writeUword_eq_ok_iff.mp h
  exact ⟨⟨rfl, hc, rfl⟩, rfl⟩

/-- A write of the value of a register in step gives that register. -/
theorem writeUword_of_synced {s t : EeCoreCop0Status} (h : t.Synced) : s.writeUword t.w = .ok t :=
  writeUword_eq_ok_iff.mpr ⟨t.operatingContext, h.context, by
    obtain ⟨w, masked, context, count⟩ := t
    simp only [mk.injEq, true_and]
    exact ⟨h.masked, h.countEnabled⟩⟩

end EeCoreCop0Status

/-! ### Cause -/

/-- Lines can be written as literals. -/
instance neZeroLines : NeZero 8 := ⟨by decide⟩

/-- `EeCoreCop0Register_Cause`. -/
structure EeCoreCop0Cause where
  /-- The register. -/
  w : Uword
  /-- `irq_lines`. -/
  irqLines : Fin 8 → Bool

namespace EeCoreCop0Cause

/-- `EXCCODE`. -/
def exccode : Bitfield := ⟨2, 5⟩
/-- `IP`. -/
def ip : Bitfield := ⟨8, 8⟩
/-- `EXC2`. -/
def exc2 : Bitfield := ⟨16, 3⟩
/-- `CE`. -/
def ce : Bitfield := ⟨28, 2⟩
/-- `BD2`. -/
def bd2 : Bitfield := ⟨30, 1⟩
/-- `BD`. -/
def bd : Bitfield := ⟨31, 1⟩

/-- The register after construction. -/
def initial : EeCoreCop0Cause := ⟨0, fun _ => false⟩

/-- `clear_all_irq()`. -/
def clearAllIrq (c : EeCoreCop0Cause) : EeCoreCop0Cause := { c with irqLines := fun _ => false }

/-- `set_irq_line(irq)`. -/
def setIrqLine (c : EeCoreCop0Cause) (irq : ℕ) : Except HostError EeCoreCop0Cause :=
  if h : irq < 8 then .ok { c with irqLines := Function.update c.irqLines ⟨irq, h⟩ true } else .error .outOfBounds

/-- `clear_irq_line(irq)`. -/
def clearIrqLine (c : EeCoreCop0Cause) (irq : ℕ) : Except HostError EeCoreCop0Cause :=
  if h : irq < 8 then .ok { c with irqLines := Function.update c.irqLines ⟨irq, h⟩ false } else .error .outOfBounds

/-- The loop of `read_uword` over the lines. -/
def lines (c : EeCoreCop0Cause) : Uword :=
  (List.finRange 8).foldl (fun v i => if c.irqLines i then v ||| (1#32 <<< i.val) else v) 0

/-- The value `read_uword` returns and stores back. -/
def merged (c : EeCoreCop0Cause) : Uword := ip.insertInto c.w c.lines

/-- `read_uword()`, with the register after it. -/
def readUword (c : EeCoreCop0Cause) : Uword × EeCoreCop0Cause := (c.merged, { c with w := c.merged })

/-- `extract_field(field)`, with the register after it. -/
def extractField (c : EeCoreCop0Cause) (f : Bitfield) : Uword × EeCoreCop0Cause :=
  (f.extractFrom c.merged, { c with w := c.merged })

/-- `insert_field(field, value)`. -/
def insertField (c : EeCoreCop0Cause) (f : Bitfield) (value : Uword) : EeCoreCop0Cause :=
  { c with w := f.insertInto c.merged value }

end EeCoreCop0Cause

/-! ### The register file -/

/-- `EeCoreCop0`. -/
structure EeCoreCop0 where
  /-- r0. -/
  index : Uword
  /-- r1. -/
  random : Uword
  /-- r2. -/
  entrylo0 : Uword
  /-- r3. -/
  entrylo1 : Uword
  /-- r4. -/
  context : Uword
  /-- r5. -/
  pagemask : Uword
  /-- r8. -/
  badvaddr : Uword
  /-- r9. -/
  count : Uword
  /-- r10. -/
  entryhi : Uword
  /-- r11. -/
  compare : Uword
  /-- r12. -/
  status : EeCoreCop0Status
  /-- r13. -/
  cause : EeCoreCop0Cause
  /-- r14. -/
  epc : Uword
  /-- r15, read only. -/
  prid : Uword
  /-- r30. -/
  errorepc : Uword
  /-- The registers that are only read and written by index. -/
  other : BitVec 5 → Uword

namespace EeCoreCop0

/-- `EeCoreCop0Register_Index::INDEX`. -/
def indexField : Bitfield := ⟨0, 6⟩
/-- `EeCoreCop0Register_Index::P`. -/
def indexP : Bitfield := ⟨31, 1⟩
/-- `EeCoreCop0Register_Random::RANDOM`. -/
def randomField : Bitfield := ⟨0, 6⟩
/-- `EeCoreCop0Register_EntryLo0::G`, and of `EntryLo1`. -/
def entryLoG : Bitfield := ⟨0, 1⟩
/-- `EeCoreCop0Register_EntryLo0::V`, and of `EntryLo1`. -/
def entryLoV : Bitfield := ⟨1, 1⟩
/-- `EeCoreCop0Register_EntryLo0::D`, and of `EntryLo1`. -/
def entryLoD : Bitfield := ⟨2, 1⟩
/-- `EeCoreCop0Register_EntryLo0::C`, and of `EntryLo1`. -/
def entryLoC : Bitfield := ⟨3, 3⟩
/-- `EeCoreCop0Register_EntryLo0::PFN`, and of `EntryLo1`. -/
def entryLoPfn : Bitfield := ⟨6, 20⟩
/-- `EeCoreCop0Register_EntryLo0::S`. -/
def entryLoS : Bitfield := ⟨31, 1⟩
/-- `EeCoreCop0Register_System::BADVPN2`. -/
def contextBadvpn2 : Bitfield := ⟨4, 19⟩
/-- `EeCoreCop0Register_PageMask::MASK`. -/
def pagemaskMask : Bitfield := ⟨13, 12⟩
/-- `EeCoreCop0Register_EntryHi::ASID`. -/
def entryhiAsid : Bitfield := ⟨0, 8⟩
/-- `EeCoreCop0Register_EntryHi::VPN2`. -/
def entryhiVpn2 : Bitfield := ⟨13, 19⟩

/-- The registers after construction. -/
def initial : EeCoreCop0 where
  index := 0
  random := 47
  entrylo0 := 0
  entrylo1 := 0
  context := 0
  pagemask := 0
  badvaddr := 0
  count := 0
  entryhi := 0
  compare := 0
  status := .initial
  cause := .initial
  epc := 0
  prid := 0x00002E20
  errorepc := 0
  other := fun r => if r = 16 then 0x00000440 else 0

/-- `EeCoreCop0Register_Compare::write_uword(value)`: the value is not stored. -/
def writeCompare (c : EeCoreCop0) (_value : Uword) : Except HostError EeCoreCop0 := do
  let cause ← c.cause.clearIrqLine 8
  return { c with cause }

/-- `registers[r]->read_uword()`, with the registers after it. -/
def readRegister (c : EeCoreCop0) (r : BitVec 5) : Uword × EeCoreCop0 :=
  match r.toNat with
  | 0 => (c.index, c)
  | 1 => (c.random, c)
  | 2 => (c.entrylo0, c)
  | 3 => (c.entrylo1, c)
  | 4 => (c.context, c)
  | 5 => (c.pagemask, c)
  | 8 => (c.badvaddr, c)
  | 9 => (c.count, c)
  | 10 => (c.entryhi, c)
  | 11 => (c.compare, c)
  | 12 => (c.status.w, c)
  | 13 => (c.cause.readUword.1, { c with cause := c.cause.readUword.2 })
  | 14 => (c.epc, c)
  | 15 => (c.prid, c)
  | 30 => (c.errorepc, c)
  | _ => (c.other r, c)

/-- `registers[r]->write_uword(value)`. -/
def writeRegister (c : EeCoreCop0) (r : BitVec 5) (value : Uword) : Except HostError EeCoreCop0 :=
  match r.toNat with
  | 0 => .ok { c with index := value }
  | 1 => .ok { c with random := value }
  | 2 => .ok { c with entrylo0 := value }
  | 3 => .ok { c with entrylo1 := value }
  | 4 => .ok { c with context := value }
  | 5 => .ok { c with pagemask := value }
  | 8 => .ok { c with badvaddr := value }
  | 9 => .ok { c with count := value }
  | 10 => .ok { c with entryhi := value }
  | 11 => c.writeCompare value
  | 12 => do return { c with status := ← c.status.writeUword value }
  | 13 => .ok { c with cause := { c.cause with w := value } }
  | 14 => .ok { c with epc := value }
  | 15 => .ok c
  | 30 => .ok { c with errorepc := value }
  | _ => .ok { c with other := Function.update c.other r value }

/-- `is_usable()`. -/
def isUsable (c : EeCoreCop0) : Bool :=
  if c.status.operatingContext = .kernel then true
  else decide (0 < c.status.extractField EeCoreCop0Status.cu &&& 0x1)

end EeCoreCop0

end Orbum
