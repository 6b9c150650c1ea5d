import Orbum.Ee.Core.Cop0

/-!
# COP0 of the IOP core

`Resources/Iop/Core/IopCoreCop0.hpp` and `IopCoreCop0Registers.cpp`. `Status` holds a stack of three pairs of a
mode bit KU and an interrupt enable bit IE: the current one, the previous and the oldest. An exception
pushes, `RFE` pops.

## The model

`Cause` works as that of the EE core does. Registers whose only use is to be read and written by index are
one function of the index; no pointer is set beyond `ERREG`.
-/

namespace Orbum

/-! ### Status -/

/-- `IopCoreCop0Register_Status`. -/
structure IopCoreCop0Status where
  /-- The register. -/
  w : Uword
  /-- The CPU takes no interrupts. -/
  interruptsMasked : Bool
  /-- The CPU operating context. -/
  operatingContext : OperatingContext
  deriving DecidableEq

namespace IopCoreCop0Status

/-- `IEC`. -/
def iec : Bitfield := ⟨0, 1⟩
/-- `KUC`. -/
def kuc : Bitfield := ⟨1, 1⟩
/-- `IM`. -/
def im : Bitfield := ⟨8, 8⟩
/-- `ISC`. -/
def isc : Bitfield := ⟨16, 1⟩
/-- `BEV`. -/
def bev : Bitfield := ⟨22, 1⟩
/-- `CU`. -/
def cu : Bitfield := ⟨28, 4⟩

/-- The register after construction: `BEV` set. -/
def initial : IopCoreCop0Status := ⟨0x00400000, true, .kernel⟩

/-- `extract_field(field)`. -/
def extractField (s : IopCoreCop0Status) (f : Bitfield) : Uword := f.extractFrom s.w

/-- What `handle_interrupts_masked_update` computes. -/
def maskedOf (w : Uword) : Bool := !decide (0 < iec.extractFrom w)

/-- What `handle_operating_context_update` computes. -/
def contextOf (w : Uword) : Except HostError OperatingContext :=
  if kuc.extractFrom w = 1 then .ok .user
  else if kuc.extractFrom w = 0 then .ok .kernel
  else .error (.runtimeError "IOP COP0 could not determine CPU operating context! Please debug.")

/-- `write_uword(value)`. -/
def writeUword (_s : IopCoreCop0Status) (value : Uword) : Except HostError IopCoreCop0Status := do
  let context ← contextOf value
  return ⟨value, maskedOf value, context⟩

/-- `push_exception_stack()`. -/
def pushExceptionStack (s : IopCoreCop0Status) : Except HostError IopCoreCop0Status :=
  s.writeUword ((s.w &&& ~~~(0x3F : Uword)) ||| ((s.w &&& (0xF : Uword)) <<< 2))

/-- `pop_exception_stack()`. -/
def popExceptionStack (s : IopCoreCop0Status) : Except HostError IopCoreCop0Status :=
  s.writeUword ((s.w &&& ~~~(0xF : Uword)) ||| ((s.w &&& (0x3C : Uword)) >>> 2))

/-- The derived values agree with the register. -/
structure Synced (s : IopCoreCop0Status) : Prop where
  /-- `interrupts_masked` is up to date. -/
  masked : s.interruptsMasked = maskedOf s.w
  /-- `operating_context` is up to date. -/
  context : contextOf s.w = .ok s.operatingContext

theorem synced_initial : initial.Synced := ⟨by decide, by rfl⟩

/-- KUc is one bit, so the context is always determined. -/
theorem contextOf_eq (w : Uword) : contextOf w = .ok (if w.getLsbD 1 then .user else .kernel) := by
  have h0 := Bitfield.extractFrom_bit_eq_zero_iff w 1
  have hpos := Bitfield.toNat_extractFrom_lt kuc w
  unfold contextOf
  cases hb : w.getLsbD 1 with
  | false =>
    have hz : kuc.extractFrom w = 0 := h0.mpr hb
    rw [hz]
    rfl
  | true =>
    have hne : kuc.extractFrom w ≠ 0 := fun h => by
      rw [h0.mp h] at hb
      cases hb
    have h1 : kuc.extractFrom w = 1 := by
      have hlt : (kuc.extractFrom w).toNat < 2 := hpos
      bv_omega
    rw [h1]
    rfl

/-- A write never fails, and leaves the register in step. -/
theorem writeUword_eq (s : IopCoreCop0Status) (value : Uword) :
    ∃ s', s.writeUword value = .ok s' ∧ s'.Synced ∧ s'.w = value := by
  refine ⟨⟨value, maskedOf value, _⟩, ?_, ⟨rfl, contextOf_eq value⟩, rfl⟩
  unfold writeUword
  rw [contextOf_eq]
  rfl

/-! ### The stack -/

/-- The pair of KU and IE at a level, 0 for the current one. -/
def pair (w : Uword) (level : ℕ) : Bool × Bool := (w.getLsbD (2 * level + 1), w.getLsbD (2 * level))

/-- The bits above the stack. -/
def AboveStack (w w' : Uword) : Prop := ∀ i, 6 ≤ i → w'.getLsbD i = w.getLsbD i

/-- The pairs after an exception. -/
structure Pushed (w w' : Uword) : Prop where
  /-- Kernel mode, interrupts disabled. -/
  current : pair w' 0 = (false, false)
  /-- The pair that was current. -/
  previous : pair w' 1 = pair w 0
  /-- The pair that was previous. -/
  oldest : pair w' 2 = pair w 1
  /-- The other bits are as before. -/
  above : AboveStack w w'

/-- The pairs after `RFE`. -/
structure Popped (w w' : Uword) : Prop where
  /-- The pair that was previous. -/
  current : pair w' 0 = pair w 1
  /-- The pair that was oldest. -/
  previous : pair w' 1 = pair w 2
  /-- It stays. -/
  oldest : pair w' 2 = pair w 2
  /-- The other bits are as before. -/
  above : AboveStack w w'

theorem getLsbD_push (w : Uword) (i : ℕ) (hi : i < 32) :
    ((w &&& ~~~(0x3F : Uword)) ||| ((w &&& (0xF : Uword)) <<< 2)).getLsbD i =
      if i < 2 then false else if i < 6 then w.getLsbD (i - 2) else w.getLsbD i := by
  have h6 (i : ℕ) : (0x3F : Uword).getLsbD i = (decide (i < 32) && decide (i < 6)) :=
    Bitfield.getLsbD_unshiftedMask ⟨0, 6⟩ i
  have h4 (i : ℕ) : (0xF : Uword).getLsbD i = (decide (i < 32) && decide (i < 4)) :=
    Bitfield.getLsbD_unshiftedMask ⟨0, 4⟩ i
  simp only [BitVec.getLsbD_or, BitVec.getLsbD_and, BitVec.getLsbD_not, BitVec.getLsbD_shiftLeft, h6, h4]
  by_cases h2 : i < 2
  · simp [hi, h2, show i < 6 by omega]
  · by_cases h : i < 6
    · simp [hi, h2, h, show i - 2 < 4 by omega, show i - 2 < 32 by omega]
    · simp [hi, h2, h, show ¬i - 2 < 4 by omega]

theorem getLsbD_pop (w : Uword) (i : ℕ) (hi : i < 32) :
    ((w &&& ~~~(0xF : Uword)) ||| ((w &&& (0x3C : Uword)) >>> 2)).getLsbD i =
      if i < 4 then w.getLsbD (i + 2) else w.getLsbD i := by
  have h4 (i : ℕ) : (0xF : Uword).getLsbD i = (decide (i < 32) && decide (i < 4)) :=
    Bitfield.getLsbD_unshiftedMask ⟨0, 4⟩ i
  have hc (i : ℕ) : (0x3C : Uword).getLsbD i = (decide (i < 32) && decide (2 ≤ i ∧ i < 2 + 4)) :=
    Bitfield.getLsbD_shiftedMask ⟨2, 4⟩ i
  simp only [BitVec.getLsbD_or, BitVec.getLsbD_and, BitVec.getLsbD_not, BitVec.getLsbD_ushiftRight, h4, hc]
  by_cases h : i < 4
  · simp [hi, h, Nat.add_comm 2 i, show i + 2 < 32 by omega, show i + 2 < 6 by omega]
  · simp [hi, h, show ¬2 + i < 6 by omega]

theorem pushExceptionStack_eq (s : IopCoreCop0Status) :
    ∃ s', s.pushExceptionStack = .ok s' ∧ s'.Synced ∧ Pushed s.w s'.w := by
  obtain ⟨s', h, hs', hw⟩ := s.writeUword_eq ((s.w &&& ~~~(0x3F : Uword)) ||| ((s.w &&& (0xF : Uword)) <<< 2))
  refine ⟨s', h, hs', ?_⟩
  have hbit (i : ℕ) (hi : i < 32) := getLsbD_push s.w i hi
  rw [← hw] at hbit
  refine ⟨Prod.ext (hbit 1 (by decide)) (hbit 0 (by decide)), Prod.ext (hbit 3 (by decide)) (hbit 2 (by decide)),
    Prod.ext (hbit 5 (by decide)) (hbit 4 (by decide)), fun i hi => ?_⟩
  by_cases h32 : i < 32
  · rw [hbit i h32, if_neg (by omega), if_neg (by omega)]
  · rw [BitVec.getLsbD_of_ge _ _ (by omega), BitVec.getLsbD_of_ge _ _ (by omega)]

theorem popExceptionStack_eq (s : IopCoreCop0Status) :
    ∃ s', s.popExceptionStack = .ok s' ∧ s'.Synced ∧ Popped s.w s'.w := by
  obtain ⟨s', h, hs', hw⟩ := s.writeUword_eq ((s.w &&& ~~~(0xF : Uword)) ||| ((s.w &&& (0x3C : Uword)) >>> 2))
  refine ⟨s', h, hs', ?_⟩
  have hbit (i : ℕ) (hi : i < 32) := getLsbD_pop s.w i hi
  rw [← hw] at hbit
  refine ⟨Prod.ext (hbit 1 (by decide)) (hbit 0 (by decide)), Prod.ext (hbit 3 (by decide)) (hbit 2 (by decide)),
    Prod.ext (hbit 5 (by decide)) (hbit 4 (by decide)), fun i hi => ?_⟩
  by_cases h32 : i < 32
  · rw [hbit i h32, if_neg (by omega)]
  · rw [BitVec.getLsbD_of_ge _ _ (by omega), BitVec.getLsbD_of_ge _ _ (by omega)]

end IopCoreCop0Status

/-! ### The register file -/

/-- `IopCoreCop0Register_Cause`, with the fields of the EE's. -/
abbrev IopCoreCop0Cause := EeCoreCop0Cause

/-- `IopCoreCop0`. -/
structure IopCoreCop0 where
  /-- r12. -/
  status : IopCoreCop0Status
  /-- r13. -/
  cause : IopCoreCop0Cause
  /-- r14. -/
  epc : Uword
  /-- The registers that are only read and written by index. -/
  other : BitVec 5 → Uword

namespace IopCoreCop0

/-- The registers after construction; r15 is `PRId`. -/
def initial : IopCoreCop0 := ⟨.initial, .initial, 0, fun r => if r = 15 then 0x1F else 0⟩

/-- `registers[r]->read_uword()`, with the registers after it. -/
def readRegister (c : IopCoreCop0) (r : BitVec 5) : Except HostError (Uword × IopCoreCop0) :=
  match r.toNat with
  | 12 => .ok (c.status.w, c)
  | 13 => .ok (c.cause.readUword.1, { c with cause := c.cause.readUword.2 })
  | 14 => .ok (c.epc, c)
  | n => if n ≤ 16 then .ok (c.other r, c) else .error .nullPointer

/-- `registers[r]->write_uword(value)`; `PRId` is read only. -/
def writeRegister (c : IopCoreCop0) (r : BitVec 5) (value : Uword) : Except HostError IopCoreCop0 :=
  match r.toNat with
  | 12 => do return { c with status := ← c.status.writeUword value }
  | 13 => .ok { c with cause := { c.cause with w := value } }
  | 14 => .ok { c with epc := value }
  | 15 => .ok c
  | n => if n ≤ 16 then .ok { c with other := Function.update c.other r value } else .error .nullPointer

/-- `is_usable()`. -/
def isUsable (c : IopCoreCop0) : Bool :=
  decide (0 < c.status.extractField IopCoreCop0Status.cu &&& 0x1) || decide (c.status.operatingContext = .kernel)

end IopCoreCop0

end Orbum
