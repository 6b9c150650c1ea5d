import Orbum.Common.WordRegister
import Orbum.Ee.Core.Timer
import Orbum.Iop.Core.Cop0
import Orbum.Lib.Latch

/-!
# The INTC of the IOP

`IopIntcRegisters.cpp` and `CIopIntc.cpp`. Devices set bits of I_STAT and the IOP clears them by writing zeros; what I_MASK
and I_CTRL let through is line 2 of the core from the next tick of the controller. A read of I_CTRL clears it, which is
how the IOP disables its interrupts, and `RFE` clears the lines of the core.

## The model

An operation is one step of a device, of the IOP or of the controller, in any order. A register has its side effects for
a word; a narrower write of the bus replaces the bytes that it is for.

## What is proved

`iopInterrupts_run`: what has been done to the registers decides line 2, whatever the order. It is set just if the last
tick or `RFE` was a tick, and a raised bit that was not acknowledged, a mask and I_CTRL asked for an interrupt then.
-/

namespace Orbum

/-- A word that is not zero has a bit that is set. -/
theorem ne_zero_iff_exists_bit (w : Uword) : w ≠ 0 ↔ ∃ i, w.getLsbD i = true := by
  rw [← not_iff_not, not_not, not_exists]
  constructor
  · rintro rfl i
    rw [show (0 : Uword) = 0#32 from rfl, BitVec.getLsbD_zero]
    exact Bool.false_ne_true
  · intro h
    refine BitVec.eq_of_getLsbD_eq fun i _ => ?_
    rw [show (0 : Uword) = 0#32 from rfl, BitVec.getLsbD_zero]
    exact Bool.eq_false_iff.mpr (h i)

namespace BusAccess

/-- The access writes bit `i`. -/
def Covers (i : ℕ) : BusAccess → Prop
  | ubyte offset _ => 8 * offset ≤ i ∧ i < 8 * offset + 8
  | uhword offset _ => 16 * (offset / 2) ≤ i ∧ i < 16 * (offset / 2) + 16
  | uword _ => True

instance Covers.decidable (i : ℕ) : (a : BusAccess) → Decidable (a.Covers i)
  | ubyte _ _ => inferInstanceAs (Decidable (_ ∧ _))
  | uhword _ _ => inferInstanceAs (Decidable (_ ∧ _))
  | uword _ => inferInstanceAs (Decidable True)

/-- What an access writes to bit `i`. -/
def bit (i : ℕ) (a : BusAccess) : Option Bool := if a.Covers i then some ((a.merge 0).getLsbD i) else none

theorem getLsbD_merge (w : Uword) (a : BusAccess) (i : ℕ) : (a.merge w).getLsbD i = (a.bit i).getD (w.getLsbD i) := by
  by_cases hi : i < 32
  · cases a with
    | ubyte offset value =>
      simp only [bit, merge, Covers, Lanes.getLsbD_setLane _ _ _ _ hi]
      split_ifs <;> rfl
    | uhword offset value =>
      simp only [bit, merge, Covers, Lanes.getLsbD_setLane _ _ _ _ hi]
      split_ifs <;> rfl
    | uword value => rfl
  · rw [bit, BitVec.getLsbD_of_ge _ _ (by omega), BitVec.getLsbD_of_ge _ _ (by omega), BitVec.getLsbD_of_ge _ _ (by omega)]
    split_ifs <;> rfl

end BusAccess

/-! ### The registers -/

/-- `RIopIntc`. -/
structure IopIntc where
  /-- I_CTRL. -/
  ctrl : Uword
  /-- I_MASK. -/
  mask : Uword
  /-- I_STAT. -/
  stat : Uword
  deriving DecidableEq

/-- An access of the IOP bus to the registers that changes one of them. -/
inductive IopIntcAccess where
  /-- `IopIntcRegister_Ctrl::byte_bus_read_uword`. -/
  | readCtrl
  /-- A write to I_CTRL. -/
  | writeCtrl (a : BusAccess)
  /-- A write to I_MASK. -/
  | writeMask (a : BusAccess)
  /-- A write to I_STAT. -/
  | writeStat (a : BusAccess)

namespace IopIntc

variable (r : IopIntc)

/-- What an access does; `IopIntcRegister_Stat::byte_bus_write_uword` is an AND. -/
def access : IopIntcAccess → IopIntc
  | .readCtrl => { r with ctrl := 0 }
  | .writeCtrl a => { r with ctrl := a.merge r.ctrl }
  | .writeMask a => { r with mask := a.merge r.mask }
  | .writeStat a => { r with stat := a.busWrite id (r.stat &&& ·) r.stat }

/-- `stat.insert_field(IRQ_KEYS[irq], 1)`. -/
def raise (irq : Fin 26) : IopIntc := { r with stat := Bitfield.insertInto ⟨irq, 1⟩ r.stat 1 }

/-- `interrupt` of `CIopIntc::time_step`. -/
def Interrupt : Prop := 0 < r.ctrl ∧ r.stat &&& r.mask ≠ 0

instance : Decidable r.Interrupt := inferInstanceAs (Decidable (_ ∧ _))

theorem interrupt_iff : r.Interrupt ↔
    (∃ i, r.ctrl.getLsbD i = true) ∧ ∃ i, r.stat.getLsbD i = true ∧ r.mask.getLsbD i = true := by
  have hctrl : 0 < r.ctrl ↔ r.ctrl ≠ 0 := BitVec.pos_iff_ne_zero r.ctrl
  rw [Interrupt, hctrl, ne_zero_iff_exists_bit, ne_zero_iff_exists_bit]
  simp only [BitVec.getLsbD_and, Bool.and_eq_true]

end IopIntc

/-- The registers, and `Cause` of the IOP core. -/
structure IopInterrupts where
  /-- The registers. -/
  intc : IopIntc
  /-- `Cause`. -/
  cause : IopCoreCop0Cause

/-- One step of a device, of the IOP or of the controller. -/
inductive IopInterruptOp where
  /-- A device raises its bit of I_STAT. -/
  | raise (irq : Fin 26)
  /-- An access of the IOP to the registers. -/
  | access (a : IopIntcAccess)
  /-- `MTC0` to `Cause`. -/
  | writeCause (value : Uword)
  /-- `cause.insert_field(field, value)` of an exception. -/
  | insertCause (field : Bitfield) (value : Uword)
  /-- A read of `Cause`, which is written back. -/
  | readCause
  /-- What `RFE` does to `Cause`. -/
  | rfe
  /-- A tick of `CIopIntc`. -/
  | tick

namespace IopInterrupts

variable (s : IopInterrupts)

/-- `CIopIntc::time_step(ticks_available)`. -/
def timeStep : Except HostError IopInterrupts :=
  if s.intc.Interrupt then do return { s with cause := ← s.cause.setIrqLine 2 }
  else do return { s with cause := ← s.cause.clearIrqLine 2 }

/-- Bit `i` of `IP`, as `Cause` reads. -/
def Ip (i : Fin 8) : Prop := (EeCoreCop0Cause.ip.extractFrom s.cause.merged).getLsbD i = true

theorem ip_iff (i : Fin 8) : s.Ip i ↔ s.cause.irqLines i = true := by
  rw [Ip, EeCoreCop0Cause.getLsbD_ip_merged]

theorem timeStep_eq : s.timeStep = .ok { s with
    cause := { s.cause with irqLines := Function.update s.cause.irqLines 2 (decide s.intc.Interrupt) } } := by
  unfold timeStep
  split_ifs with h
  · rw [decide_eq_true h]
    rfl
  · rw [decide_eq_false h]
    rfl

end IopInterrupts

namespace IopInterruptOp

/-- What a step does. -/
def step : IopInterruptOp → IopInterrupts → Except HostError IopInterrupts
  | raise irq, s => .ok { s with intc := s.intc.raise irq }
  | access a, s => .ok { s with intc := s.intc.access a }
  | writeCause value, s => .ok { s with cause := { s.cause with w := value } }
  | insertCause field value, s => .ok { s with cause := s.cause.insertField field value }
  | readCause, s => .ok { s with cause := s.cause.readUword.2 }
  | rfe, s => .ok { s with cause := s.cause.clearAllIrq }
  | tick, s => s.timeStep

/-! ### What has been done -/

/-- What a step writes to bit `i` of I_CTRL. -/
def ctrlBit (i : ℕ) : IopInterruptOp → Option Bool
  | access .readCtrl => some false
  | access (.writeCtrl a) => a.bit i
  | _ => none

/-- What a step writes to bit `i` of I_MASK. -/
def maskBit (i : ℕ) : IopInterruptOp → Option Bool
  | access (.writeMask a) => a.bit i
  | _ => none

/-- What a step writes to bit `i` of I_STAT: only a narrow write sets it other than a device. -/
def statBit (i : ℕ) : IopInterruptOp → Option Bool
  | raise irq => if i = irq then some true else none
  | access (.writeStat a) =>
    if a.narrow then a.bit i else if (a.merge 0).getLsbD i then none else some false
  | _ => none

/-- After some steps the registers ask for an interrupt. -/
def Asks (r : IopIntc) (ops : List IopInterruptOp) : Prop :=
  (∃ i, Latch.last (ctrlBit i) (r.ctrl.getLsbD i) ops = true) ∧
    ∃ i, Latch.last (statBit i) (r.stat.getLsbD i) ops = true ∧ Latch.last (maskBit i) (r.mask.getLsbD i) ops = true

/-- The step writes line 2. -/
def Drives (op : IopInterruptOp) : Prop := op = tick ∨ op = rfe

variable {op : IopInterruptOp} {s s' : IopInterrupts}

theorem ctrl_of_step (i : ℕ) (h : step op s = .ok s') :
    s'.intc.ctrl.getLsbD i = (op.ctrlBit i).getD (s.intc.ctrl.getLsbD i) := by
  cases op with
  | access a =>
    obtain rfl := Except.ok.inj h
    cases a with
    | readCtrl => exact BitVec.getLsbD_zero
    | writeCtrl a => exact BusAccess.getLsbD_merge s.intc.ctrl a i
    | writeMask a => rfl
    | writeStat a => rfl
  | tick =>
    rw [step, IopInterrupts.timeStep_eq] at h
    obtain rfl := Except.ok.inj h
    rfl
  | _ =>
    obtain rfl := Except.ok.inj h
    rfl

theorem mask_of_step (i : ℕ) (h : step op s = .ok s') :
    s'.intc.mask.getLsbD i = (op.maskBit i).getD (s.intc.mask.getLsbD i) := by
  cases op with
  | access a =>
    obtain rfl := Except.ok.inj h
    cases a with
    | readCtrl => rfl
    | writeCtrl a => rfl
    | writeMask a => exact BusAccess.getLsbD_merge s.intc.mask a i
    | writeStat a => rfl
  | tick =>
    rw [step, IopInterrupts.timeStep_eq] at h
    obtain rfl := Except.ok.inj h
    rfl
  | _ =>
    obtain rfl := Except.ok.inj h
    rfl

theorem stat_of_step (i : ℕ) (h : step op s = .ok s') :
    s'.intc.stat.getLsbD i = (op.statBit i).getD (s.intc.stat.getLsbD i) := by
  cases op with
  | raise irq =>
    obtain rfl := Except.ok.inj h
    change (Bitfield.insertInto ⟨irq, 1⟩ s.intc.stat 1).getLsbD i = _
    by_cases hi : i < 32
    · rw [Bitfield.getLsbD_insertInto_bit _ _ _ hi, statBit]
      split_ifs with heq <;> simp [heq]
    · have hne : i ≠ irq := by omega
      rw [BitVec.getLsbD_of_ge _ _ (by omega), statBit, if_neg hne, Option.getD_none,
        BitVec.getLsbD_of_ge _ _ (by omega)]
  | access a =>
    obtain rfl := Except.ok.inj h
    cases a with
    | readCtrl => rfl
    | writeCtrl a => rfl
    | writeMask a => rfl
    | writeStat a =>
      cases a with
      | ubyte offset value => exact BusAccess.getLsbD_merge s.intc.stat (.ubyte offset value) i
      | uhword offset value => exact BusAccess.getLsbD_merge s.intc.stat (.uhword offset value) i
      | uword value =>
        change (s.intc.stat &&& value).getLsbD i = (if value.getLsbD i then none else some false).getD _
        rw [BitVec.getLsbD_and]
        cases value.getLsbD i <;> simp
  | tick =>
    rw [step, IopInterrupts.timeStep_eq] at h
    obtain rfl := Except.ok.inj h
    rfl
  | _ =>
    obtain rfl := Except.ok.inj h
    rfl

/-- Only a tick and `RFE` write the lines. -/
theorem irqLines_of_step (hop : ¬op.Drives) (h : step op s = .ok s') : s'.cause.irqLines = s.cause.irqLines := by
  cases op with
  | rfe => exact absurd (.inr rfl) hop
  | tick => exact absurd (.inl rfl) hop
  | _ =>
    obtain rfl := Except.ok.inj h
    rfl

/-- No step fails. -/
theorem exists_step (op : IopInterruptOp) (s : IopInterrupts) : ∃ s', step op s = .ok s' := by
  cases op with
  | tick => exact ⟨_, s.timeStep_eq⟩
  | _ => exact ⟨_, rfl⟩

/-! ### Runs -/

theorem exists_run (ops : List IopInterruptOp) (s : IopInterrupts) : ∃ t, Run.run step ops s = .ok t := by
  induction ops generalizing s with
  | nil => exact ⟨s, rfl⟩
  | cons op ops ih =>
    obtain ⟨s', hs'⟩ := exists_step op s
    obtain ⟨t, ht⟩ := ih s'
    exact ⟨t, Run.run_cons_ok.mpr ⟨s', hs', ht⟩⟩

theorem irqLines_of_run {ops : List IopInterruptOp} (hops : ∀ op ∈ ops, ¬op.Drives) {t : IopInterrupts}
    (h : Run.run step ops s = .ok t) : t.cause.irqLines = s.cause.irqLines := by
  induction ops generalizing s with
  | nil =>
    obtain rfl := Except.ok.inj h
    rfl
  | cons op ops ih =>
    obtain ⟨s', hs', h⟩ := Run.run_cons_ok.mp h
    rw [ih (fun o ho => hops o (List.mem_cons_of_mem op ho)) h, irqLines_of_step (hops op List.mem_cons_self) hs']

theorem interrupt_of_run {ops : List IopInterruptOp} {t : IopInterrupts} (h : Run.run step ops s = .ok t) :
    t.intc.Interrupt ↔ Asks s.intc ops := by
  have hctrl (i : ℕ) := Latch.last_run (·.intc.ctrl.getLsbD i) h fun _ _ _ => ctrl_of_step i
  have hstat (i : ℕ) := Latch.last_run (·.intc.stat.getLsbD i) h fun _ _ _ => stat_of_step i
  have hmask (i : ℕ) := Latch.last_run (·.intc.mask.getLsbD i) h fun _ _ _ => mask_of_step i
  rw [IopIntc.interrupt_iff, Asks]
  simp only [hctrl, hstat, hmask]

/-- Line 2 after the last step that writes it. -/
theorem ip_of_run {before after : List IopInterruptOp} {op : IopInterruptOp} (hop : op.Drives)
    (hafter : ∀ o ∈ after, ¬o.Drives) {t : IopInterrupts} (h : Run.run step (before ++ op :: after) s = .ok t) :
    t.Ip 2 ↔ op = tick ∧ Asks s.intc before := by
  obtain ⟨s₁, hbefore, h⟩ := Run.run_append.mp h
  obtain ⟨s₂, hop', h⟩ := Run.run_cons_ok.mp h
  rw [IopInterrupts.ip_iff, irqLines_of_run hafter h, ← interrupt_of_run hbefore]
  obtain rfl | rfl := hop
  · rw [step, IopInterrupts.timeStep_eq] at hop'
    obtain rfl := Except.ok.inj hop'
    have hline : Function.update s₁.cause.irqLines 2 (decide s₁.intc.Interrupt) 2 = decide s₁.intc.Interrupt :=
      Function.update_self ..
    dsimp only
    rw [hline, decide_eq_true_eq]
    exact (and_iff_right rfl).symm
  · obtain rfl := Except.ok.inj hop'
    exact iff_of_false Bool.false_ne_true fun hno => nomatch hno.1

end IopInterruptOp

open IopInterruptOp

/-- After any steps of the devices, the IOP and the controller, in any order, I_STAT is what was raised and not
acknowledged since. Line 2 is as at the start until a tick or an `RFE` writes it; after the last of these it is set if
that was a tick at which the registers asked for an interrupt. -/
theorem iopInterrupts_run (ops : List IopInterruptOp) (s : IopInterrupts) : ∃ t, Run.run step ops s = .ok t ∧
    (∀ i, t.intc.stat.getLsbD i = Latch.last (statBit i) (s.intc.stat.getLsbD i) ops) ∧
    ((∀ op ∈ ops, ¬op.Drives) → (t.Ip 2 ↔ s.Ip 2)) ∧
    ∀ before op after, ops = before ++ op :: after → op.Drives → (∀ o ∈ after, ¬o.Drives) →
      (t.Ip 2 ↔ op = .tick ∧ Asks s.intc before) := by
  obtain ⟨t, h⟩ := exists_run ops s
  refine ⟨t, h, fun i => Latch.last_run (·.intc.stat.getLsbD i) h fun _ _ _ => stat_of_step i, fun hops => ?_, ?_⟩
  · rw [IopInterrupts.ip_iff, IopInterrupts.ip_iff, irqLines_of_run hops h]
  · rintro before op after rfl hop hafter
    exact ip_of_run hop hafter h

/-- A section that the IOP runs with its interrupts disabled, between a read of I_CTRL and the write that restores it;
nothing in it sets a bit of I_CTRL. No tick sets line 2 in it, and the tick after it lets through all that was raised in
it and not acknowledged. -/
theorem interrupts_suspended {body : List IopInterruptOp} (hbody : ∀ op ∈ body, ∀ i, op.ctrlBit i ≠ some true)
    (s : IopInterrupts) :
    (∀ before after t, body = before ++ after → (∃ op ∈ before, op.Drives) →
      Run.run step (.access .readCtrl :: before) s = .ok t → ¬t.Ip 2) ∧
    ∀ t, Run.run step
      (.access .readCtrl :: body ++ [.access (.writeCtrl (.uword s.intc.ctrl)), .tick]) s = .ok t →
      (t.Ip 2 ↔ (∃ i, s.intc.ctrl.getLsbD i = true) ∧
        ∃ i, Latch.last (statBit i) (s.intc.stat.getLsbD i) body = true ∧
          Latch.last (maskBit i) (s.intc.mask.getLsbD i) body = true) := by
  constructor
  · rintro before after t rfl hdrives hrun hip
    obtain ⟨early, op, late, rfl, hop, hlate⟩ := Latch.exists_last hdrives
    rw [← List.cons_append] at hrun
    obtain ⟨-, ⟨i, hctrl⟩, -⟩ := (ip_of_run hop hlate hrun).mp hip
    -- I_CTRL was cleared by the read, and no bit of it has been set since.
    have hclear : Latch.last (ctrlBit i) (s.intc.ctrl.getLsbD i) (.access .readCtrl :: early) = false := by
      rw [Latch.last_cons]
      refine Latch.last_eq_init fun o ho => ?_
      cases htouch : o.ctrlBit i with
      | none => rfl
      | some value => exact Bool.eq_false_iff.mpr fun hset => hbody o (by simp [ho]) i (hset ▸ htouch)
    rw [hclear] at hctrl
    cases hctrl
  · intro t hrun
    have hsplit : (.access .readCtrl :: body ++ [.access (.writeCtrl (.uword s.intc.ctrl)), .tick] :
        List IopInterruptOp) = (.access .readCtrl :: body ++ [.access (.writeCtrl (.uword s.intc.ctrl))]) ++ .tick :: [] := by
      simp
    rw [hsplit] at hrun
    rw [ip_of_run (.inl rfl) (by simp) hrun, and_iff_right rfl, Asks]
    have hctrl (i : ℕ) : Latch.last (ctrlBit i) (s.intc.ctrl.getLsbD i)
        (.access .readCtrl :: body ++ [.access (.writeCtrl (.uword s.intc.ctrl))]) = s.intc.ctrl.getLsbD i :=
      Latch.last_eq_of_touch rfl (by simp)
    have hstat (i : ℕ) : Latch.last (statBit i) (s.intc.stat.getLsbD i)
        (.access .readCtrl :: body ++ [.access (.writeCtrl (.uword s.intc.ctrl))]) =
          Latch.last (statBit i) (s.intc.stat.getLsbD i) body := Latch.last_append
    have hmask (i : ℕ) : Latch.last (maskBit i) (s.intc.mask.getLsbD i)
        (.access .readCtrl :: body ++ [.access (.writeCtrl (.uword s.intc.ctrl))]) =
          Latch.last (maskBit i) (s.intc.mask.getLsbD i) body := Latch.last_append
    simp only [hctrl, hstat, hmask]

/-- The CD drive raises its bit while the IOP has read I_CTRL, which it reads once more. -/
theorem interrupts_suspended_cdrom : ∃ t, Run.run step
    [.access .readCtrl, .tick, .raise 2, .access .readCtrl, .tick, .access (.writeCtrl (.uword 1)), .tick]
      ⟨⟨1, 4, 0⟩, .initial⟩ = .ok t ∧ t.Ip 2 := by
  have hbody : ∀ op ∈ [IopInterruptOp.tick, .raise 2, .access .readCtrl, .tick], ∀ i, op.ctrlBit i ≠ some true := by
    simp [ctrlBit]
  obtain ⟨t, ht⟩ := exists_run
    [.access .readCtrl, .tick, .raise 2, .access .readCtrl, .tick, .access (.writeCtrl (.uword 1)), .tick]
    ⟨⟨1, 4, 0⟩, .initial⟩
  exact ⟨t, ht, ((interrupts_suspended hbody ⟨⟨1, 4, 0⟩, .initial⟩).2 t ht).mpr ⟨⟨0, rfl⟩, 2, rfl, rfl⟩⟩

end Orbum
