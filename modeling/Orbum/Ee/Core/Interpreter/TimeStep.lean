import Orbum.Ee.Core.Interpreter.Data
import Orbum.Ee.Core.Timer

/-!
# One step of the EE core interpreter

`CEeCoreInterpreter::time_step` with the checks of `CEeCore` around the instruction, and the table
`EeCoreInstruction::lookup`.

The lemmas after the definitions say what a step is made of: the interrupt check, the fetch and the
instruction, with all the state that the stages before the exception handling leave alone.
-/

namespace Orbum

/-- The instructions of `lookup()` that are not left to `Machine.other`. Opcode 62 is listed as `SQC2`, but its
index is that of `LQC2`. -/
def Machine.modelled {σ : Type} (M : Machine σ) (inst : EeCoreInstruction) : Option (Operation σ) :=
  match inst.opcode with
  | 0 =>
    match inst.funct with
    | 8 => some (.branch (.jr inst))
    | 9 => some (.branch (.jalr inst))
    | 12 => some (.data .syscall)
    | 13 => some (.data .break_)
    | 32 => some (.data (.add inst))
    | 34 => some (.data (.sub inst))
    | 44 => some (.data (.dadd inst))
    | 46 => some (.data (.dsub inst))
    | 48 => some (.data (.tge inst))
    | 49 => some (.data (.tgeu inst))
    | 50 => some (.data (.tlt inst))
    | 51 => some (.data (.tltu inst))
    | 52 => some (.data (.teq inst))
    | 54 => some (.data (.tne inst))
    | _ => none
  | 1 =>
    match inst.rt.toNat with
    | 0 => some (.branch (.bltz inst false none))
    | 1 => some (.branch (.bgez inst false none))
    | 2 => some (.branch (.bltz inst true none))
    | 3 => some (.branch (.bgez inst true none))
    | 8 => some (.data (.tgei inst))
    | 9 => some (.data (.tgeiu inst))
    | 10 => some (.data (.tlti inst))
    | 11 => some (.data (.tltiu inst))
    | 12 => some (.data (.teqi inst))
    | 14 => some (.data (.tnei inst))
    | 16 => some (.branch (.bltz inst false (some 31)))
    | 17 => some (.branch (.bgez inst false (some 31)))
    | 18 => some (.branch (.bltz inst true (some 31)))
    | 19 => some (.branch (.bgez inst true (some 31)))
    | _ => none
  | 2 => some (.branch (.j inst))
  | 3 => some (.branch (.jal inst))
  | 4 => some (.branch (.beq inst false))
  | 5 => some (.branch (.bne inst false))
  | 6 => some (.branch (.blez inst false))
  | 7 => some (.branch (.bgtz inst false))
  | 8 => some (.data (.addi inst))
  | 16 =>
    match inst.rs.toNat with
    | 0 => some (.system (.mfc0 inst.rt inst.rd))
    | 4 => some (.system (.mtc0 inst.rt inst.rd))
    | 8 =>
      match inst.rt.toNat with
      | 0 => some (.data (.bc0 "BC0F"))
      | 1 => some (.data (.bc0 "BC0T"))
      | 2 => some (.data (.bc0 "BC0FL"))
      | 3 => some (.data (.bc0 "BC0TL"))
      | _ => none
    | 16 =>
      match inst.funct with
      | 1 => some (.system .tlbr)
      | 2 => some (.system .tlbwi)
      | 6 => some (.system .tlbwr)
      | 8 => some (.system .tlbp)
      | 24 => some (.system .eret)
      | 56 => some (.system .ei)
      | 57 => some (.system .di)
      | _ => none
    | _ => none
  | 17 =>
    match inst.rs.toNat, inst.rt.toNat with
    | 8, 0 => some (.branch (.bc1 M inst 0 false))
    | 8, 1 => some (.branch (.bc1 M inst 1 false))
    | 8, 2 => some (.branch (.bc1 M inst 0 true))
    | 8, 3 => some (.branch (.bc1 M inst 1 true))
    | _, _ => none
  | 20 => some (.branch (.beq inst true))
  | 21 => some (.branch (.bne inst true))
  | 22 => some (.branch (.blez inst true))
  | 23 => some (.branch (.bgtz inst true))
  | 24 => some (.data (.daddi inst))
  | 26 => some (.data (.ldl M inst))
  | 27 => some (.data (.ldr M inst))
  | 30 => some (.data (.lq M inst))
  | 31 => some (.data (.sq M inst))
  | 32 => some (.data (.lb M inst))
  | 33 => some (.data (.lh M inst))
  | 34 => some (.data (.lwl M inst))
  | 35 => some (.data (.lw M inst))
  | 36 => some (.data (.lbu M inst))
  | 37 => some (.data (.lhu M inst))
  | 38 => some (.data (.lwr M inst))
  | 39 => some (.data (.lwu M inst))
  | 40 => some (.data (.sb M inst))
  | 41 => some (.data (.sh M inst))
  | 42 => some (.data (.swl M inst))
  | 43 => some (.data (.sw M inst))
  | 44 => some (.data (.sdl M inst))
  | 45 => some (.data (.sdr M inst))
  | 46 => some (.data (.swr M inst))
  | 49 => some (.data (.lwc1 M inst))
  | 54 => some (.data (.lqc2 M inst))
  | 55 => some (.data (.ld M inst))
  | 57 => some (.data (.swc1 M inst))
  | 62 => some (.data (.lqc2 M inst))
  | 63 => some (.data (.sd M inst))
  | _ => none

/-- `get_info()`, with the function at its index. -/
def Machine.lookup {σ : Type} (M : Machine σ) (inst : EeCoreInstruction) : Except HostError (Operation σ) :=
  match M.modelled inst with
  | some op => .ok op
  | none =>
    match M.other inst with
    | some o => .ok (.data (.ofOther o))
    | none => .error (.runtimeError "Could not determine instruction")

namespace EeCore

variable {σ : Type}

/-- `Cause` with its lines merged, as a read leaves it. -/
def mergeCause (s : EeCore σ) : EeCore σ :=
  s.setCop0 { s.cop0 with cause := (s.cop0.cause.extractField EeCoreCop0Cause.ip).2 }

/-- An enabled line is set. -/
def InterruptPending (s : EeCore σ) : Prop :=
  (s.cop0.cause.extractField EeCoreCop0Cause.ip).1 &&& s.cop0.status.extractField EeCoreCop0Status.im ≠ 0

instance (s : EeCore σ) : Decidable s.InterruptPending := inferInstanceAs (Decidable (_ ≠ _))

/-- `handle_interrupt_check()`. -/
def handleInterruptCheck (s : EeCore σ) : Except HostError (EeCore σ) :=
  if s.cop0.status.interruptsMasked then .ok s
  else if s.InterruptPending then s.mergeCause.handleException .exInterrupt
  else .ok s.mergeCause

/-- The check at the start of a step, made every 16 ticks. -/
def check (ticksAvailable : ℕ) (s : EeCore σ) : Except HostError (EeCore σ) :=
  if ticksAvailable % 16 = 0 then s.handleInterruptCheck else .ok s

/-- The fetch: a fault is handled, and then the empty `optional` is unwrapped. -/
def fetch (M : Machine σ) (s : EeCore σ) : Except HostError (EeCoreInstruction × EeCore σ) :=
  match s.translateAddressInst s.pc with
  | .value physicalAddress s => do
    let (rawInst, rest) ← M.busRead 32 physicalAddress s.data.rest
    return (⟨rawInst⟩, s.setData { s.data with rest })
  | .exception e s => do
    let _ ← s.handleException e
    .error .badOptionalAccess

/-- The count update at the end of a step, made every 16 ticks. -/
def countUpdate (M : Machine σ) (ticksAvailable : ℕ) (inst : EeCoreInstruction) (s : EeCore σ) :
    Except HostError (EeCore σ) :=
  if ticksAvailable % 16 = 0 then do return s.setCop0 (← s.cop0.handleCountUpdate (M.cpi inst * 16)) else .ok s

/-- `time_step(ticks_available)`. -/
def timeStep (M : Machine σ) (ticksAvailable : ℕ) (s : EeCore σ) : Except HostError (EeCore σ) := do
  let s ← s.check ticksAvailable
  let (inst, s) ← s.fetch M
  let op ← M.lookup inst
  let (_, s) ← (← op.run s).handled
  s.advancePc.countUpdate M ticksAvailable inst

/-! ### Stages -/

/-- A step that returns, stage by stage. -/
theorem timeStep_eq_ok_iff {M : Machine σ} {ticks : ℕ} {s s' : EeCore σ} : s.timeStep M ticks = .ok s' ↔
    ∃ sc, s.check ticks = .ok sc ∧ ∃ inst s₀, sc.fetch M = .ok (inst, s₀) ∧ ∃ op, M.lookup inst = .ok op ∧
      ∃ r, op.run s₀ = .ok r ∧ ∃ v s₁, r.handled = .ok (v, s₁) ∧ s₁.advancePc.countUpdate M ticks inst = .ok s' := by
  unfold timeStep
  simp only [bind_eq_ok_iff, Prod.exists]

/-- The count update never throws, and touches only `Count` and `Cause`. -/
theorem countUpdate_eq (M : Machine σ) (ticks : ℕ) (inst : EeCoreInstruction) (s : EeCore σ) :
    ∃ count cause, s.countUpdate M ticks inst = .ok (s.setCop0 { s.cop0 with count, cause }) := by
  unfold countUpdate
  by_cases ht : ticks % 16 = 0
  · have hstep := TimerOp.step_countUpdate (M.cpi inst * 16) s.cop0
    simp only [TimerOp.step] at hstep
    simp only [ht, if_true, hstep]
    exact ⟨_, _, rfl⟩
  · simp only [ht, if_false]
    exact ⟨s.cop0.count, s.cop0.cause, rfl⟩

end EeCore

/-! ### What an instruction leaves alone until it raises an exception -/

namespace EeCore

variable {σ : Type}

/-- `Status` and the delay slot are as before. -/
structure Unmoved (s s' : EeCore σ) : Prop where
  /-- `Status`. -/
  status : s'.cop0.status = s.cop0.status
  /-- The delay slot. -/
  bdelay : s'.bdelay = s.bdelay

theorem Unmoved.refl (s : EeCore σ) : Unmoved s s := ⟨rfl, rfl⟩

theorem Unmoved.trans {s s' s'' : EeCore σ} (h : Unmoved s s') (h' : Unmoved s' s'') : Unmoved s s'' :=
  ⟨h'.status.trans h.status, h'.bdelay.trans h.bdelay⟩

theorem unmoved_setTranslationCache (s : EeCore σ) (id : MmuIdAccess) (cache : CacheTy) :
    Unmoved s (s.setTranslationCache id cache) := by cases id <;> exact ⟨rfl, rfl⟩

/-- A lookup, whether it translates or faults. -/
theorem unmoved_of_lookup (s : EeCore σ) (id : MmuIdAccess) (va : Uptr) (rwAccess : MmuRwAccess) :
    Unmoved s (s.lookup id va rwAccess).state := by
  rcases lookup_cases s id va rwAccess with ⟨pa, cache, h⟩ | ⟨e, -, h⟩
  · rw [h]
    exact unmoved_setTranslationCache s id cache
  · rw [h]
    exact ⟨rfl, rfl⟩

/-- The check of a coprocessor. -/
theorem handleCopUsable_cases (cop : Coprocessor) (s : EeCore σ) :
    (isUsable s.cop0 cop = true ∧ s.handleCopUsable cop = .value () s) ∨
      (isUsable s.cop0 cop = false ∧ ∃ s', s.handleCopUsable cop = .exception .exCoprocessorUnusable s' ∧
        Unmoved s s') := by
  unfold handleCopUsable
  cases h : isUsable s.cop0 cop with
  | true => exact .inl ⟨rfl, by simp⟩
  | false =>
    have hne : ¬false = true := by simp
    rw [if_neg hne]
    exact .inr ⟨rfl, _, rfl, ⟨rfl, rfl⟩⟩

end EeCore

/-- A data instruction moves neither `Status` nor the delay slot. -/
theorem Micro.unmoved_of_run {σ : Type} {m : Micro σ} {s : EeCore σ} {r : Result σ Unit} (h : m.run s = .ok r) :
    s.Unmoved r.state := by
  induction m generalizing s with
  | done data => exact Except.ok.inj h ▸ ⟨rfl, rfl⟩
  | fail e => cases h
  | raise e => exact Except.ok.inj h ▸ .refl s
  | usable cop next ih =>
    rcases EeCore.handleCopUsable_cases cop s with ⟨-, hu⟩ | ⟨-, s', hu, hs'⟩
    · simp only [run, hu] at h
      exact ih h
    · simp only [run, hu] at h
      exact Except.ok.inj h ▸ hs'
  | translate va rwAccess next ih =>
    have hun := EeCore.unmoved_of_lookup s .data va rwAccess
    cases hl : s.translateAddressData va rwAccess with
    | value pa s' =>
      simp only [run, hl] at h
      rw [show s.lookup .data va rwAccess = _ from hl] at hun
      exact hun.trans (ih pa h)
    | exception e' s' =>
      simp only [run, hl] at h
      rw [show s.lookup .data va rwAccess = _ from hl] at hun
      exact Except.ok.inj h ▸ hun
  | write data next ih => exact (⟨rfl, rfl⟩ : EeCore.Unmoved s (s.setData data)).trans (ih h)

theorem EeCore.unmoved_of_whenCop0Usable {σ : Type} {s s₁ : EeCore σ} {e : EeCoreException}
    {k : EeCore σ → Except HostError (EeCore σ)} (h : s.whenCop0Usable k = .ok (.exception e s₁)) : s.Unmoved s₁ := by
  unfold whenCop0Usable at h
  rcases handleCopUsable_cases .cop0 s with ⟨-, hu⟩ | ⟨-, s', hu, hs'⟩
  · simp only [hu] at h
    obtain ⟨t, -, h⟩ := bind_eq_ok_iff.mp h
    simp at h
  · simp only [hu, Except.ok.injEq, Result.exception.injEq] at h
    exact h.2 ▸ hs'

/-- Neither `ERET` nor `DI` nor `EI` raises an exception, and the others only for COP0. -/
theorem SystemOp.unmoved_of_run {σ : Type} {op : SystemOp} {s s₁ : EeCore σ} {e : EeCoreException}
    (h : op.run s = .ok (.exception e s₁)) : s.Unmoved s₁ := by
  have heie (value : Uword) : s.setEie value ≠ .ok (.exception e s₁) := by
    intro h
    unfold EeCore.setEie at h
    split_ifs at h
    · obtain ⟨status, -, h⟩ := bind_eq_ok_iff.mp h
      simp at h
    · simp at h
  cases op with
  | mfc0 rt rd => exact EeCore.unmoved_of_whenCop0Usable h
  | mtc0 rt rd => exact EeCore.unmoved_of_whenCop0Usable h
  | tlbr => exact EeCore.unmoved_of_whenCop0Usable h
  | tlbwi => exact EeCore.unmoved_of_whenCop0Usable h
  | tlbwr => exact EeCore.unmoved_of_whenCop0Usable h
  | tlbp => exact EeCore.unmoved_of_whenCop0Usable h
  | eret =>
    obtain ⟨status, -, h⟩ := bind_eq_ok_iff.mp h
    simp at h
  | ei => exact absurd h (heie 1)
  | di => exact absurd h (heie 0)

/-- No instruction moves `Status` or the delay slot before it raises an exception. -/
theorem Operation.unmoved_of_run {σ : Type} {op : Operation σ} {s s₁ : EeCore σ} {e : EeCoreException}
    (h : op.run s = .ok (.exception e s₁)) : s.Unmoved s₁ := by
  cases op with
  | data m => exact Micro.unmoved_of_run h
  | branch b =>
    simp only [run, Branch.run] at h
    cases hb : b.usable with
    | none => simp [hb] at h
    | some cop =>
      rcases EeCore.handleCopUsable_cases cop s with ⟨-, hu⟩ | ⟨-, s', hu, hs'⟩
      · simp [hb, hu] at h
      · simp only [hb, hu, Except.ok.injEq, Result.exception.injEq] at h
        exact h.2 ▸ hs'
  | system op => exact SystemOp.unmoved_of_run h

end Orbum
