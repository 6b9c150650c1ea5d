import Orbum.Common.BranchDelaySlot
import Orbum.Common.Caches
import Orbum.Ee.Core.Mmu
import Orbum.Iop.Core.Cop0
import Mathlib.Tactic.Simps.Basic

/-!
# Exceptions and addresses of the IOP core

`CIopCore::handle_exception` and the address translation of `CIopCore`. The IOP has no TLB: addresses are
translated by segment, and in user mode not at all.

## The model

The state is what control flow and translation work on; the rest of the machine (`HI`, `LO`, memory and
devices) is the type `σ`. A store to the cached segments with the cache isolated is not translated, and the
instruction then returns without an exception.
-/

namespace Orbum

/-- `IopCoreException`. -/
inductive IopCoreException where
  /-- `EX_INTERRUPT`. -/
  | exInterrupt
  /-- `EX_TLB_MODIFIED`. -/
  | exTlbModified
  /-- `EX_TLB_REFILL_INSTRUCTION_FETCH_LOAD`. -/
  | exTlbRefillInstructionFetchLoad
  /-- `EX_TLB_REFILL_STORE`. -/
  | exTlbRefillStore
  /-- `EX_ADDRESS_ERROR_INSTRUCTION_FETCH_LOAD`. -/
  | exAddressErrorInstructionFetchLoad
  /-- `EX_ADDRESS_ERROR_STORE`. -/
  | exAddressErrorStore
  /-- `EX_BUS_ERROR_INSTRUCTION_FETCH`. -/
  | exBusErrorInstructionFetch
  /-- `EX_BUS_ERROR_LOAD_STORE`. -/
  | exBusErrorLoadStore
  /-- `EX_SYSTEMCALL`. -/
  | exSystemcall
  /-- `EX_BREAK`. -/
  | exBreak
  /-- `EX_RESERVED_INSTRUCTION`. -/
  | exReservedInstruction
  /-- `EX_COPROCESSOR_UNUSABLE`. -/
  | exCoprocessorUnusable
  /-- `EX_OVERFLOW`. -/
  | exOverflow
  /-- `EX_RESET`. -/
  | exReset
  deriving DecidableEq

/-- The number of an exception. -/
def IopCoreException.code : IopCoreException → Uword
  | exInterrupt => 0
  | exTlbModified => 1
  | exTlbRefillInstructionFetchLoad => 2
  | exTlbRefillStore => 3
  | exAddressErrorInstructionFetchLoad => 4
  | exAddressErrorStore => 5
  | exBusErrorInstructionFetch => 6
  | exBusErrorLoadStore => 7
  | exSystemcall => 8
  | exBreak => 9
  | exReservedInstruction => 10
  | exCoprocessorUnusable => 11
  | exOverflow => 12
  | exReset => 13

/-! ### The state of the core -/

/-- What data instructions work on. -/
structure IopData (σ : Type) where
  /-- `r3000.gpr`. -/
  gpr : BitVec 5 → Uword
  /-- The rest of the machine. -/
  rest : σ

/-- The IOP core. -/
structure IopCore (σ : Type) where
  /-- `r3000.pc`. -/
  pc : Uword
  /-- `r3000.bdelay`. -/
  bdelay : BranchDelaySlot
  /-- The registers and the rest of the machine. -/
  data : IopData σ
  /-- `cop0`. -/
  cop0 : IopCoreCop0
  /-- `translation_cache_data`. -/
  translationCacheData : CacheTy
  /-- `translation_cache_inst`. -/
  translationCacheInst : CacheTy

namespace IopCore

variable {σ : Type}

/-- Writes the program counter. -/
@[simps] def setPc (s : IopCore σ) (pc : Uword) : IopCore σ := { s with pc }

/-- Writes the delay slot. -/
@[simps] def setBdelay (s : IopCore σ) (bdelay : BranchDelaySlot) : IopCore σ := { s with bdelay }

/-- Writes the registers and the rest of the machine. -/
@[simps] def setData (s : IopCore σ) (data : IopData σ) : IopCore σ := { s with data }

/-- Writes COP0. -/
@[simps] def setCop0 (s : IopCore σ) (cop0 : IopCoreCop0) : IopCore σ := { s with cop0 }

/-- Both caches flushed. -/
@[simps] def flush (s : IopCore σ) : IopCore σ :=
  { s with translationCacheData := .new .., translationCacheInst := .new .. }

/-! ### `handle_exception` -/

/-- `EPC` and `Cause.BD`, and the branch stopped. -/
def setErrorAddress (s : IopCore σ) : IopCore σ :=
  if s.bdelay.isBranchPending then
    { s with
      cop0 := { s.cop0 with epc := s.pc - 4, cause := s.cop0.cause.insertField EeCoreCop0Cause.bd 1 }
      bdelay := s.bdelay.stopBranch }
  else { s with cop0 := { s.cop0 with epc := s.pc, cause := s.cop0.cause.insertField EeCoreCop0Cause.bd 0 } }

/-- `ex_vector_offset`. -/
def exceptionVectorOffset : IopCoreException → Uptr
  | .exTlbRefillInstructionFetchLoad | .exTlbRefillStore => 0x0
  | _ => 0x80

/-- The vector base, from `BEV`. -/
def exceptionVectorBase (status : IopCoreCop0Status) : Uptr :=
  if status.extractField IopCoreCop0Status.bev = 1 then 0xBFC00100 else 0x80000000

/-- The vector. -/
def vector (e : IopCoreException) (status : IopCoreCop0Status) : Uptr :=
  exceptionVectorBase status + exceptionVectorOffset e

/-- `handle_exception(exception)`. -/
def handleException (e : IopCoreException) (s : IopCore σ) : Except HostError (IopCore σ) :=
  if e = .exReset then .error (.runtimeError "IOP reset exception not implemented.")
  else do
    let s := s.setCop0 { s.cop0 with cause := s.cop0.cause.insertField EeCoreCop0Cause.exccode e.code }
    let s := s.setErrorAddress
    let pc := vector e s.cop0.status
    let status ← s.cop0.status.pushExceptionStack
    let s := s.setCop0 { s.cop0 with status }
    return (s.setPc (if e ≠ .exInterrupt then pc - 4 else pc)).flush

/-! ### Address translation -/

/-- `translate_address_fallback(virtual_address, rw_access)`. -/
def translateAddressFallback (c : IopCoreCop0) (virtualAddress : Uptr) (rwAccess : MmuRwAccess) :
    Except HostError (Option Uptr) :=
  let failed : Except HostError (Option Uptr) :=
    .error (.runtimeError "IOPCore MMU: VA or COP0 was not in kernel context (not implemented). Needs debugging!")
  if c.status.operatingContext = .kernel then
    if 0x80000000 ≤ virtualAddress ∧ virtualAddress ≤ 0x9FFFFFFF then .ok (some (virtualAddress - 0x80000000))
    else if 0xA0000000 ≤ virtualAddress ∧ virtualAddress ≤ 0xBFFFFFFF then .ok (some (virtualAddress - 0xA0000000))
    else if 0xFFC00000 ≤ virtualAddress then .ok (some virtualAddress)
    else if virtualAddress ≤ 0x001FFFFF then
      if c.status.extractField IopCoreCop0Status.isc ≠ 0 ∧ rwAccess = .write then .ok none
      else .ok (some virtualAddress)
    else failed
  else failed

/-- The cache for an access. -/
def translationCache (s : IopCore σ) : MmuIdAccess → CacheTy
  | .instruction => s.translationCacheInst
  | .data => s.translationCacheData

/-- Writes a cache. -/
def setTranslationCache (s : IopCore σ) (id : MmuIdAccess) (cache : CacheTy) : IopCore σ :=
  match id with
  | .instruction => { s with translationCacheInst := cache }
  | .data => { s with translationCacheData := cache }

/-- `TranslationCache::lookup(virtual_address, rw_access)` with `handle_fallback`. -/
def lookup (id : MmuIdAccess) (virtualAddress : Uptr) (rwAccess : MmuRwAccess) (s : IopCore σ) :
    Except HostError (Option Uptr × IopCore σ) :=
  let key := EeCore.cacheKey virtualAddress
  let offset := virtualAddress &&& EeCore.cacheMask
  match (s.translationCache id).get key with
  | (some result, cache) => .ok (some (result ||| offset), s.setTranslationCache id cache)
  | (none, cache) => do
    match ← translateAddressFallback s.cop0 key rwAccess with
    | some result => return (some (result ||| offset), s.setTranslationCache id (cache.insert key result))
    | none => return (none, s.setTranslationCache id cache)

/-- `translate_address_data(virtual_address, rw_access)`. -/
def translateAddressData (virtualAddress : Uptr) (rwAccess : MmuRwAccess) (s : IopCore σ) :
    Except HostError (Option Uptr × IopCore σ) :=
  if rwAccess = .write ∧ s.cop0.status.extractField IopCoreCop0Status.isc ≠ 0 then do
    return (← translateAddressFallback s.cop0 virtualAddress rwAccess, s)
  else s.lookup .data virtualAddress rwAccess

/-- `translate_address_inst(virtual_address)`. -/
def translateAddressInst (virtualAddress : Uptr) (s : IopCore σ) : Except HostError (Option Uptr × IopCore σ) :=
  s.lookup .instruction virtualAddress .read

end IopCore

end Orbum
