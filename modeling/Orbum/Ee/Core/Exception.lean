import Orbum.Common.BranchDelaySlot
import Orbum.Common.Caches
import Orbum.Ee.Core.Cop0
import Orbum.Ee.Core.Tlb
import Orbum.Lib.Except
import Mathlib.Tactic.Simps.Basic

/-!
# Exceptions of the EE core

The state of the core (`Resources/Ee/Core/REeCore.hpp` and the two translation caches of `CEeCore`)
and `CEeCore::handle_exception`.

## The model

The state is what the control flow and the address translation work on; everything else an
instruction can touch (`HI`, `LO`, `SA`, the FPU, VU0, memory and devices) is the type `σ`.

Every caller of `handle_exception` returns right after it. So a function that may raise an exception
returns a `Result`: a value, or the exception with the state in which `handle_exception` is called.
-/

namespace Orbum

/-- `EeCoreException`. -/
inductive EeCoreException where
  /-- `EX_INTERRUPT`. -/
  | exInterrupt
  /-- `EX_TLB_MODIFIED`. -/
  | exTlbModified
  /-- `EX_TLB_REFILL_INVALID_INSTRUCTION_FETCH_LOAD`. -/
  | exTlbRefillInvalidInstructionFetchLoad
  /-- `EX_TLB_REFILL_INVALID_STORE`. -/
  | exTlbRefillInvalidStore
  /-- `EX_ADDRESS_ERROR_INSTRUCTION_FETCH_LOAD`. -/
  | exAddressErrorInstructionFetchLoad
  /-- `EX_ADDRESS_ERROR_STORE`. -/
  | exAddressErrorStore
  /-- `EX_BUS_ERROR_INSTRUCTION_FETCH`. -/
  | exBusErrorInstructionFetch
  /-- `EX_BUS_ERROR_LOAD_STORE`. -/
  | exBusErrorLoadStore
  /-- `EX_SYSTEMCALL`. -/
  | exSystemcall
  /-- `EX_BREAK`. -/
  | exBreak
  /-- `EX_RESERVED_INSTRUCTION`. -/
  | exReservedInstruction
  /-- `EX_COPROCESSOR_UNUSABLE`. -/
  | exCoprocessorUnusable
  /-- `EX_OVERFLOW`. -/
  | exOverflow
  /-- `EX_TRAP`. -/
  | exTrap
  /-- `EX_RESET`. -/
  | exReset
  /-- `EX_NMI`. -/
  | exNmi
  /-- `EX_PERFORMANCE_COUNTER`. -/
  | exPerformanceCounter
  /-- `EX_DEBUG`. -/
  | exDebug
  deriving DecidableEq

/-- The number of an exception; level 2 starts at 100. -/
def EeCoreException.code : EeCoreException → ℕ
  | exInterrupt => 0
  | exTlbModified => 1
  | exTlbRefillInvalidInstructionFetchLoad => 2
  | exTlbRefillInvalidStore => 3
  | exAddressErrorInstructionFetchLoad => 4
  | exAddressErrorStore => 5
  | exBusErrorInstructionFetch => 6
  | exBusErrorLoadStore => 7
  | exSystemcall => 8
  | exBreak => 9
  | exReservedInstruction => 10
  | exCoprocessorUnusable => 11
  | exOverflow => 12
  | exTrap => 13
  | exReset => 100
  | exNmi => 101
  | exPerformanceCounter => 102
  | exDebug => 104

/-- `is_level2` of `handle_exception`. -/
def EeCoreException.IsLevel2 (e : EeCoreException) : Prop := 100 ≤ e.code

instance (e : EeCoreException) : Decidable e.IsLevel2 := inferInstanceAs (Decidable (_ ≤ _))

/-! ### The state of the core -/

/-- The translation cache of the cores. -/
abbrev CacheTy := TimestampLruCache 6 Uptr Uptr

/-- What data instructions work on. -/
structure EeData (σ : Type) where
  /-- `r5900.gpr`. -/
  gpr : BitVec 5 → Uqword
  /-- The rest of the machine. -/
  rest : σ

/-- The EE core. -/
structure EeCore (σ : Type) where
  /-- `r5900.pc`. -/
  pc : Uword
  /-- `r5900.bdelay`. -/
  bdelay : BranchDelaySlot
  /-- The registers and the rest of the machine. -/
  data : EeData σ
  /-- `cop0`. -/
  cop0 : EeCoreCop0
  /-- `tlb`. -/
  tlb : EeCoreTlb
  /-- `translation_cache_data`. -/
  translationCacheData : CacheTy
  /-- `translation_cache_inst`. -/
  translationCacheInst : CacheTy

namespace EeCore

variable {σ : Type}

/-- Writes the program counter. -/
@[simps] def setPc (s : EeCore σ) (pc : Uword) : EeCore σ := { s with pc }

/-- Writes COP0. -/
@[simps] def setCop0 (s : EeCore σ) (cop0 : EeCoreCop0) : EeCore σ := { s with cop0 }

/-- Writes the registers and the rest of the machine. -/
@[simps] def setData (s : EeCore σ) (data : EeData σ) : EeCore σ := { s with data }

/-- Writes `Status`. -/
@[simps!] def setStatus (s : EeCore σ) (status : EeCoreCop0Status) : EeCore σ :=
  s.setCop0 { s.cop0 with status }

/-- Both caches flushed. -/
@[simps] def flush (s : EeCore σ) : EeCore σ :=
  { s with translationCacheData := .new .., translationCacheInst := .new .. }

/-! ### `handle_exception` -/

/-- The lambda `set_error_address`. -/
def setErrorAddress (level2 : Bool) (s : EeCore σ) : EeCore σ :=
  let pending := s.bdelay.isBranchPending
  let pcAddress := if pending then s.pc - 4 else s.pc
  let field := if level2 then EeCoreCop0Cause.bd2 else EeCoreCop0Cause.bd
  { s with
    cop0 := { s.cop0 with
      epc := if level2 then s.cop0.epc else pcAddress
      errorepc := if level2 then pcAddress else s.cop0.errorepc
      cause := s.cop0.cause.insertField field (if pending then 1 else 0) }
    bdelay := if pending then s.bdelay.stopBranch else s.bdelay }

/-- The vector base, from `DEV` and `BEV`. -/
def exceptionVectorBase (status : EeCoreCop0Status) : Uptr :=
  if status.extractField EeCoreCop0Status.dev ≠ 0 ∨ status.extractField EeCoreCop0Status.bev ≠ 0 then 0xBFC00200
  else 0x80000000

/-- The vector offset, from the exception and from `EXL` before it. -/
def exceptionVectorOffset (e : EeCoreException) (exl : Prop) [Decidable exl] : Uptr :=
  if exl then 0x180
  else match e with
    | .exTlbRefillInvalidInstructionFetchLoad | .exTlbRefillInvalidStore => 0x0
    | .exInterrupt => 0x200
    | .exPerformanceCounter => 0x80
    | .exDebug => 0x100
    | _ => 0x180

/-- The error level and the code of an exception, `status` being the `Status` written. -/
def setErrorLevel (e : EeCoreException) (status : EeCoreCop0Status) (s : EeCore σ) : EeCore σ :=
  let exccode := BitVec.ofNat 32 (if e.IsLevel2 then e.code - 100 else e.code)
  let field := if e.IsLevel2 then EeCoreCop0Cause.exc2 else EeCoreCop0Cause.exccode
  s.setCop0 { s.cop0 with status, cause := s.cop0.cause.insertField field exccode }

/-- Where an exception goes: the vector, less the 4 that `advance_pc` adds for all but an interrupt. -/
def vectorPc (e : EeCoreException) (status : EeCoreCop0Status) : Uword :=
  let vector := exceptionVectorBase status + exceptionVectorOffset e (status.extractField EeCoreCop0Status.exl ≠ 0)
  if e = .exInterrupt then vector else vector - 4

/-- `handle_exception(exception)`. -/
def handleException (e : EeCoreException) (s : EeCore σ) : Except HostError (EeCore σ) := do
  let status ← s.cop0.status.insertField EeCoreCop0Status.erl (if e.IsLevel2 then 1 else 0)
  let s := s.setErrorLevel e status
  if e = .exReset ∨ e = .exNmi then
    return (s.setErrorAddress e.IsLevel2).setPc 0xBFC00000
  else if status.extractField EeCoreCop0Status.exl ≠ 0 then
    return (s.setPc (vectorPc e status)).flush
  else
    let s := s.setErrorAddress e.IsLevel2
    let status' ← status.insertField EeCoreCop0Status.exl 1
    return ((s.setStatus status').setPc (vectorPc e status)).flush

end EeCore

/-- What a function that may raise an exception comes to. -/
inductive Result (σ α : Type) where
  /-- It returns a value. -/
  | value (a : α) (s : EeCore σ)
  /-- It calls `handle_exception(e)` in state `s` and returns without a value. -/
  | exception (e : EeCoreException) (s : EeCore σ)

namespace Result

variable {σ α β : Type}

/-- The rest of a function after a value; after an exception it returns. -/
def bind (r : Result σ α) (f : α → EeCore σ → Result σ β) : Result σ β :=
  match r with
  | value a s => f a s
  | exception e s => exception e s

/-- The result with the exception handled: the value, if any, and the state left. -/
def handled (r : Result σ α) : Except HostError (Option α × EeCore σ) :=
  match r with
  | value a s => .ok (some a, s)
  | exception e s => do return (none, ← s.handleException e)

/-- The state of a result, before any exception is handled. -/
def state (r : Result σ α) : EeCore σ :=
  match r with
  | value _ s => s
  | exception _ s => s

/-- What the caller sees of a result. -/
def answer (r : Result σ α) : Except EeCoreException α :=
  match r with
  | value a _ => .ok a
  | exception e _ => .error e

end Result

/-! ### What `handle_exception` does -/

namespace EeCoreCop0Status

/-- The fields a change of `ERL` or `EXL` leaves alone. -/
theorem extractFrom_insertInto_erl {f : Bitfield} (h : f.Disjoint erl) (w x : Uword) :
    f.extractFrom (erl.insertInto w x) = f.extractFrom w := Bitfield.extractFrom_insertInto_of_disjoint _ _ h

theorem extractFrom_insertInto_exl {f : Bitfield} (h : f.Disjoint exl) (w x : Uword) :
    f.extractFrom (exl.insertInto w x) = f.extractFrom w := Bitfield.extractFrom_insertInto_of_disjoint _ _ h

theorem erl_insertInto_zero (w : Uword) : erl.extractFrom (erl.insertInto w 0) = 0 := by
  rw [Bitfield.extractFrom_insertInto_self _ _ _ (by decide)]
  decide

theorem exl_insertInto_one (w : Uword) : exl.extractFrom (exl.insertInto w 1) = 1 := by
  rw [Bitfield.extractFrom_insertInto_self _ _ _ (by decide)]
  decide

/-- A field of one bit is 0 or 1. -/
theorem extractFrom_bit {f : Bitfield} (h : f.length = 1) (w : Uword) : f.extractFrom w = 0 ∨ f.extractFrom w = 1 := by
  have hlt := f.toNat_extractFrom_lt w
  rw [h] at hlt
  rcases (by omega : (f.extractFrom w).toNat = 0 ∨ (f.extractFrom w).toNat = 1) with h0 | h1
  · exact .inl (BitVec.eq_of_toNat_eq h0)
  · exact .inr (BitVec.eq_of_toNat_eq h1)

theorem extractFrom_ksu (w : Uword) :
    ksu.extractFrom w = 0 ∨ ksu.extractFrom w = 1 ∨ ksu.extractFrom w = 2 ∨ ksu.extractFrom w = 3 := by
  have hlt := ksu.toNat_extractFrom_lt w
  have hlt : (ksu.extractFrom w).toNat < 4 := hlt
  rcases (by omega : (ksu.extractFrom w).toNat = 0 ∨ (ksu.extractFrom w).toNat = 1 ∨
    (ksu.extractFrom w).toNat = 2 ∨ (ksu.extractFrom w).toNat = 3) with h | h | h | h
  · exact .inl (BitVec.eq_of_toNat_eq h)
  · exact .inr (.inl (BitVec.eq_of_toNat_eq h))
  · exact .inr (.inr (.inl (BitVec.eq_of_toNat_eq h)))
  · exact .inr (.inr (.inr (BitVec.eq_of_toNat_eq h)))

/-- Setting `EXL` or `ERL` puts the CPU in kernel mode. -/
theorem contextOf_of_exl {w : Uword} (h : exl.extractFrom w = 1) : contextOf w = .ok .kernel := by
  simp [contextOf, h]

/-- Clearing `ERL` throws exactly for `KSU = 3` without `EXL`. -/
theorem contextOf_insertInto_erl (w : Uword) :
    (∃ context, contextOf (erl.insertInto w 0) = .ok context) ↔ ¬(exl.extractFrom w = 0 ∧ ksu.extractFrom w = 3) := by
  simp only [contextOf, erl_insertInto_zero, extractFrom_insertInto_erl (f := ksu) (by decide),
    extractFrom_insertInto_erl (f := exl) (by decide)]
  rcases extractFrom_bit (f := exl) rfl w with he | he <;>
    rcases extractFrom_ksu w with hk | hk | hk | hk <;> simp [he, hk]

/-- `insert_field(EXL, 1)` never throws. -/
theorem insertField_exl_one (s : EeCoreCop0Status) :
    ∃ s', s.insertField exl 1 = .ok s' ∧ s'.w = exl.insertInto s.w 1 ∧ s'.Synced := by
  have h := writeUword_eq_ok_iff (s := s).mpr ⟨_, contextOf_of_exl (exl_insertInto_one s.w), rfl⟩
  exact ⟨_, h, rfl, (synced_of_writeUword h).1⟩

/-- `insert_field(ERL, 0)` throws exactly for `KSU = 3` without `EXL`. -/
theorem insertField_erl_zero (s : EeCoreCop0Status) :
    (∃ s', s.insertField erl 0 = .ok s') ↔ ¬(s.extractField exl = 0 ∧ s.extractField ksu = 3) := by
  rw [extractField, extractField, ← contextOf_insertInto_erl]
  constructor
  · rintro ⟨s', hs'⟩
    obtain ⟨context, hc, -⟩ := writeUword_eq_ok_iff.mp hs'
    exact ⟨context, hc⟩
  · rintro ⟨context, hc⟩
    exact ⟨_, writeUword_eq_ok_iff.mpr ⟨context, hc, rfl⟩⟩

end EeCoreCop0Status

namespace EeCore

variable {σ : Type}

/-- The ways through `handle_exception`. -/
theorem handleException_cases {e : EeCoreException} {s s' : EeCore σ} (h : s.handleException e = .ok s') :
    ∃ status, s.cop0.status.insertField EeCoreCop0Status.erl (if e.IsLevel2 then 1 else 0) = .ok status ∧
      (((e = .exReset ∨ e = .exNmi) ∧
          s' = ((s.setErrorLevel e status).setErrorAddress e.IsLevel2).setPc 0xBFC00000) ∨
        (¬(e = .exReset ∨ e = .exNmi) ∧ status.extractField EeCoreCop0Status.exl ≠ 0 ∧
          s' = ((s.setErrorLevel e status).setPc (vectorPc e status)).flush) ∨
        (¬(e = .exReset ∨ e = .exNmi) ∧ status.extractField EeCoreCop0Status.exl = 0 ∧
          ∃ status', status.insertField EeCoreCop0Status.exl 1 = .ok status' ∧
            s' = ((((s.setErrorLevel e status).setErrorAddress e.IsLevel2).setStatus status').setPc
              (vectorPc e status)).flush)) := by
  obtain ⟨status, hst, h⟩ := bind_eq_ok_iff.mp h
  refine ⟨status, hst, ?_⟩
  split_ifs at h with hreset hexl
  · exact .inl ⟨hreset, (Except.ok.inj h).symm⟩
  · exact .inr (.inl ⟨hreset, hexl, (Except.ok.inj h).symm⟩)
  · obtain ⟨status', hst', h⟩ := bind_eq_ok_iff.mp h
    exact .inr (.inr ⟨hreset, not_not.mp hexl, status', hst', (Except.ok.inj h).symm⟩)

end EeCore

end Orbum
