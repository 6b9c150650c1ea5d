import Orbum.Iop.Core.Interpreter
import Orbum.Lib.Run

/-!
# Exceptions and returns of the IOP core

An exception, whether an interrupt before an instruction or raised by the instruction itself, ends with the
core at the vector, no branch pending, and `EPC` at the instruction or at the branch before it. `RFE` undoes
what the matching exception did to KUc and IEc, as long as no more than two exceptions are open: the third
level of the stack keeps its content when it is popped.

## The model

`IopStatusOp` is what happens to the core between guest writes to `Status`: exceptions, `RFE`s, and anything
that leaves `Status` alone. A ghost list beside the state holds the pair each open exception has saved.
-/

namespace Orbum

namespace IopCore

variable {σ : Type}

open IopCoreCop0Status

/-! ### Entry -/

/-- What `handle_exception(e)` does to the core. -/
structure Handled (e : IopCoreException) (s s' : IopCore σ) : Prop where
  /-- The vector, less what `advance_pc` adds for all but an interrupt. -/
  pc : s'.pc = if e ≠ .exInterrupt then vector e s.cop0.status - 4 else vector e s.cop0.status
  /-- No branch is pending. -/
  stopped : ¬s'.bdelay.isBranchPending
  /-- The instruction, or the branch before it. -/
  epc : s'.cop0.epc = if s.bdelay.isBranchPending then s.pc - 4 else s.pc
  /-- Whether it was in a delay slot. -/
  bd : EeCoreCop0Cause.bd.extractFrom s'.cop0.cause.merged = if s.bdelay.isBranchPending then 1 else 0
  /-- The stack is pushed, and the caches of `Status` follow. -/
  status : s'.cop0.status.Synced ∧ Pushed s.cop0.status.w s'.cop0.status.w

theorem bd_merged_insertField (c : IopCoreCop0Cause) (x : Uword) :
    EeCoreCop0Cause.bd.extractFrom (c.insertField EeCoreCop0Cause.bd x).merged = x &&& 1 := by
  unfold EeCoreCop0Cause.insertField EeCoreCop0Cause.merged
  rw [Bitfield.extractFrom_insertInto_of_disjoint _ _ (by decide),
    Bitfield.extractFrom_insertInto_self _ _ _ (by decide)]
  rfl

/-- `handle_exception` returns for every exception but `EX_RESET`. -/
theorem handleException_eq {e : IopCoreException} (he : e ≠ .exReset) (s : IopCore σ) :
    ∃ s', s.handleException e = .ok s' ∧ Handled e s s' := by
  obtain ⟨status, hpush, hsync, hpushed⟩ := s.cop0.status.pushExceptionStack_eq
  unfold handleException setErrorAddress
  rw [if_neg he]
  by_cases hb : s.bdelay.isBranchPending
  · simp only [setCop0_bdelay, setCop0_cop0, hb, if_true, hpush, ok_bind]
    refine ⟨_, rfl, rfl, Nat.lt_irrefl 0, (if_pos hb).symm, ?_, hsync, hpushed⟩
    rw [if_pos hb]
    exact bd_merged_insertField _ 1
  · simp only [setCop0_bdelay, setCop0_cop0, hb, if_false, hpush, ok_bind]
    refine ⟨_, rfl, rfl, hb, (if_neg hb).symm, ?_, hsync, hpushed⟩
    rw [if_neg hb]
    exact bd_merged_insertField _ 0

theorem handled_of_handleException {e : IopCoreException} {s s' : IopCore σ} (h : s.handleException e = .ok s') :
    Handled e s s' := by
  have he : e ≠ .exReset := by
    rintro rfl
    cases h
  obtain ⟨s₁, h₁, hs₁⟩ := handleException_eq he s
  obtain rfl := Except.ok.inj (h.symm.trans h₁)
  exact hs₁

/-- The core at the vector of an exception that the instruction at `s.pc` was interrupted by or raised. -/
structure AtVector (e : IopCoreException) (s s' : IopCore σ) : Prop where
  /-- The next instruction is fetched at the vector. -/
  pc : s'.pc = vector e s.cop0.status
  /-- No branch is pending. -/
  stopped : ¬s'.bdelay.isBranchPending
  /-- `EPC` is the instruction, or the branch before it. -/
  epc : s'.cop0.epc = if s.bdelay.isBranchPending then s.pc - 4 else s.pc
  /-- `BD` says which. -/
  bd : EeCoreCop0Cause.bd.extractFrom s'.cop0.cause.merged = if s.bdelay.isBranchPending then 1 else 0

/-- An interrupt is taken before the instruction. -/
theorem atVector_of_interrupt {s : IopCore σ} (hm : s.cop0.status.interruptsMasked = false) (hp : s.InterruptPending) :
    ∃ s', s.handleInterruptCheck = .ok s' ∧ AtVector .exInterrupt s s' := by
  obtain ⟨s', hs', h⟩ := handleException_eq (e := .exInterrupt) (by decide) s.mergeCause
  refine ⟨s', ?_, h.pc, h.stopped, h.epc, h.bd⟩
  unfold handleInterruptCheck
  rw [if_neg (by rw [hm]; decide), if_pos hp, hs']

/-! ### What an instruction leaves alone until it raises an exception -/

/-- The program counter, the delay slot and `Status` are as before. -/
structure Unmoved (s s' : IopCore σ) : Prop where
  /-- The program counter. -/
  pc : s'.pc = s.pc
  /-- The delay slot. -/
  bdelay : s'.bdelay = s.bdelay
  /-- `Status`. -/
  status : s'.cop0.status = s.cop0.status

theorem Unmoved.refl (s : IopCore σ) : Unmoved s s := ⟨rfl, rfl, rfl⟩

theorem Unmoved.trans {s s' s'' : IopCore σ} (h : Unmoved s s') (h' : Unmoved s' s'') : Unmoved s s'' :=
  ⟨h'.pc.trans h.pc, h'.bdelay.trans h.bdelay, h'.status.trans h.status⟩

theorem unmoved_setTranslationCache (s : IopCore σ) (id : MmuIdAccess) (cache : CacheTy) :
    Unmoved s (s.setTranslationCache id cache) := by cases id <;> exact ⟨rfl, rfl, rfl⟩

theorem unmoved_lookup (s : IopCore σ) (id : MmuIdAccess) (va : Uptr) (rwAccess : MmuRwAccess) :
    Ensures (fun r => Unmoved s r.2) (s.lookup id va rwAccess) := by
  unfold lookup
  dsimp only
  split
  · exact .ok (unmoved_setTranslationCache s id _)
  · refine (Ensures.trivial _).bind fun result _ => ?_
    cases result with
    | none => exact .ok (unmoved_setTranslationCache s id _)
    | some pa => exact .ok (unmoved_setTranslationCache s id _)

theorem unmoved_translateAddressData (s : IopCore σ) (va : Uptr) (rwAccess : MmuRwAccess) :
    Ensures (fun r => Unmoved s r.2) (s.translateAddressData va rwAccess) := by
  unfold translateAddressData
  split_ifs
  · exact (Ensures.trivial _).bind fun _ _ => .ok (.refl s)
  · exact unmoved_lookup s .data va rwAccess

theorem unmoved_fetch (M : IopMachine σ) (s : IopCore σ) : Ensures (fun r => Unmoved s r.2) (s.fetch M) := by
  refine (unmoved_lookup s .instruction s.pc .read).bind fun r hr => ?_
  obtain ⟨_ | pa, t⟩ := r
  · exact .error _
  · exact (Ensures.trivial _).bind fun _ _ => .ok (hr.trans ⟨rfl, rfl, rfl⟩)

/-- The state an instruction leaves, before any exception is handled. -/
def resultState : IopResult σ → IopCore σ
  | .value s => s
  | .exception _ s => s

/-- An instruction can raise it: it is neither an interrupt nor a reset. -/
def Internal (e : IopCoreException) : Prop := e ≠ .exInterrupt ∧ e ≠ .exReset

instance (e : IopCoreException) : Decidable (Internal e) := inferInstanceAs (Decidable (_ ∧ _))

/-- The exception of a result, if any, is one that an instruction can raise. -/
def ResultInternal : IopResult σ → Prop
  | .value _ => True
  | .exception e _ => Internal e

end IopCore

open IopCore

variable {σ : Type}

/-- What a data instruction can raise. -/
def IopMicro.Raisable : IopMicro σ → Prop
  | done _ | fail _ => True
  | raise e => Internal e
  | translate _ _ next => ∀ pa, (next pa).Raisable
  | write _ next => next.Raisable

theorem IopMicro.run_unmoved (m : IopMicro σ) (hm : m.Raisable) (s : IopCore σ) :
    Ensures (fun r => Unmoved s (resultState r) ∧ ResultInternal r) (m.run s) := by
  induction m generalizing s with
  | done data => exact .ok ⟨⟨rfl, rfl, rfl⟩, trivial⟩
  | fail e => exact .error e
  | raise e => exact .ok ⟨.refl s, hm⟩
  | translate va rwAccess next ih =>
    rw [run]
    refine (unmoved_translateAddressData s va rwAccess).bind fun r hr => ?_
    obtain ⟨_ | pa, t⟩ := r
    · exact .ok ⟨hr, trivial⟩
    · exact (ih pa (hm pa) t).mono fun r' h => ⟨hr.trans h.1, h.2⟩
  | write data next ih =>
    have hs : Unmoved s (s.setData data) := ⟨rfl, rfl, rfl⟩
    exact (ih hm (s.setData data)).mono fun r' h => ⟨hs.trans h.1, h.2⟩

theorem IopMicro.raisable_ofExcept {α : Type} (x : Except HostError α) {next : α → IopMicro σ}
    (h : ∀ a, (next a).Raisable) : (ofExcept x next).Raisable := by
  cases x with
  | error e => exact trivial
  | ok a => exact h a

section

variable (M : IopMachine σ) (inst : IopCoreInstruction) (d : IopData σ)

theorem IopMicro.raisable_checked (x y : ℤ) (reg : BitVec 5) (result : Uword) : (checked d x y reg result).Raisable := by
  unfold checked
  split_ifs
  · exact show Internal _ by decide
  · exact trivial

theorem IopMicro.raisable_load (w : ℕ) (extend : BitVec w → Uword) : (load M inst d w extend).Raisable :=
  fun _ => raisable_ofExcept _ fun _ => trivial

theorem IopMicro.raisable_loadPart (merge : ℕ → Uword → Uword → Uword) : (loadPart M inst d merge).Raisable :=
  fun _ => raisable_ofExcept _ fun _ => trivial

theorem IopMicro.raisable_store (w : ℕ) (value : BitVec w) : (store M inst d w value).Raisable :=
  fun _ => raisable_ofExcept _ fun _ => trivial

theorem IopMicro.raisable_storePart (merge : ℕ → Uword → Uword → Uword) : (storePart M inst d merge).Raisable :=
  fun _ => raisable_ofExcept _ fun _ _ => raisable_ofExcept _ fun _ => trivial

end

/-- What an instruction of the table can raise. -/
def IopOperation.Raisable : IopOperation σ → Prop
  | data m => ∀ d, (m d).Raisable
  | _ => True

theorem IopMachine.raisable_of_modelled (M : IopMachine σ) (inst : IopCoreInstruction) :
    ∀ op ∈ M.modelled inst, op.Raisable := by
  have hnone : ∀ op ∈ (none : Option (IopOperation σ)), op.Raisable := fun _ h => nomatch h
  have hsome {op : IopOperation σ} (h : op.Raisable) : ∀ op' ∈ some op, op'.Raisable := by
    intro op' hop'
    obtain rfl := Option.some.inj hop'
    exact h
  have hdata {m : IopData σ → IopMicro σ} (h : ∀ d, (m d).Raisable) : ∀ op ∈ some (IopOperation.data m), op.Raisable :=
    hsome h
  unfold modelled
  split
  · split
    · exact hsome trivial
    · exact hsome trivial
    · exact hdata fun _ => show Internal _ by decide
    · exact hdata fun _ => show Internal _ by decide
    · exact hdata fun d => IopMicro.raisable_checked d _ _ _ _
    · exact hdata fun d => IopMicro.raisable_checked d _ _ _ _
    · exact hnone
  · split <;> first | exact hnone | exact hsome trivial
  · exact hsome trivial
  · exact hsome trivial
  · exact hsome trivial
  · exact hsome trivial
  · exact hsome trivial
  · exact hsome trivial
  · exact hdata fun d => IopMicro.raisable_checked d _ _ _ _
  · split <;> first | exact hnone | exact hsome trivial
  · exact hdata fun d => IopMicro.raisable_load M inst d _ _
  · exact hdata fun d => IopMicro.raisable_load M inst d _ _
  · exact hdata fun d => IopMicro.raisable_loadPart M inst d _
  · exact hdata fun d => IopMicro.raisable_load M inst d _ _
  · exact hdata fun d => IopMicro.raisable_load M inst d _ _
  · exact hdata fun d => IopMicro.raisable_load M inst d _ _
  · exact hdata fun d => IopMicro.raisable_loadPart M inst d _
  · exact hdata fun d => IopMicro.raisable_store M inst d _ _
  · exact hdata fun d => IopMicro.raisable_store M inst d _ _
  · exact hdata fun d => IopMicro.raisable_storePart M inst d _
  · exact hdata fun d => IopMicro.raisable_store M inst d _ _
  · exact hdata fun d => IopMicro.raisable_storePart M inst d _
  · exact hnone

/-- Instructions raise only what they can raise. -/
theorem IopMachine.raisable_of_lookup {M : IopMachine σ} {inst : IopCoreInstruction} {op : IopOperation σ}
    (h : M.lookup inst = .ok op) : op.Raisable := by
  have hmod := M.raisable_of_modelled inst
  unfold lookup at h
  cases hm : M.modelled inst with
  | some op' =>
    rw [hm] at h hmod
    obtain rfl := Except.ok.inj h
    exact hmod op' rfl
  | none =>
    rw [hm] at h
    cases ho : M.other inst with
    | none =>
      rw [ho] at h
      cases h
    | some f =>
      rw [ho] at h
      obtain rfl := Except.ok.inj h
      exact fun d => IopMicro.raisable_ofExcept _ fun _ => trivial

theorem IopCore.unmoved_whenCop0Usable (s : IopCore σ) (k : Except HostError (IopCore σ)) {e : IopCoreException}
    {t : IopCore σ} (h : s.whenCop0Usable k = .ok (.exception e t)) : Unmoved s t ∧ Internal e := by
  unfold whenCop0Usable at h
  split_ifs at h
  · obtain ⟨s', -, h⟩ := bind_eq_ok_iff.mp h
    cases h
  · cases h
    exact ⟨⟨rfl, rfl, rfl⟩, by decide⟩

/-- An instruction that raises an exception has not moved the program counter, the delay slot or `Status`. -/
theorem IopOperation.unmoved_of_run {op : IopOperation σ} (hop : op.Raisable) {s t : IopCore σ} {e : IopCoreException}
    (h : op.run s = .ok (.exception e t)) : Unmoved s t ∧ Internal e := by
  cases op with
  | data m => exact (m s.data).run_unmoved (hop s.data) s _ h
  | branch taken link target => cases h
  | mfc0 rt rd => exact s.unmoved_whenCop0Usable _ h
  | mtc0 rt rd => exact s.unmoved_whenCop0Usable _ h
  | rfe =>
    obtain ⟨s', -, h⟩ := bind_eq_ok_iff.mp h
    cases h

namespace IopCore

/-- An exception of the instruction takes the step to the vector. -/
theorem atVector_of_instruction {M : IopMachine σ} {s sc s₀ t : IopCore σ} {inst : IopCoreInstruction}
    {op : IopOperation σ} {e : IopCoreException} (hcheck : s.handleInterruptCheck = .ok sc)
    (hfetch : sc.fetch M = .ok (inst, s₀)) (hop : M.lookup inst = .ok op) (hrun : op.run s₀ = .ok (.exception e t)) :
    ∃ s', s.timeStep M = .ok s' ∧ AtVector e s₀ s' := by
  obtain ⟨hun, he⟩ := IopOperation.unmoved_of_run (IopMachine.raisable_of_lookup hop) hrun
  obtain ⟨s₁, hs₁, h⟩ := handleException_eq he.2 t
  have hadv : s₁.bdelay.advancePc s₁.pc = (s₁.bdelay, s₁.pc + 4) :=
    BranchDelaySlot.advancePc_of_not_pending h.stopped s₁.pc
  refine ⟨s₁.advancePc, ?_, ?_, ?_, ?_, ?_⟩
  · simp only [timeStep, hcheck, hfetch, hop, hrun, IopResult.handled, hs₁, ok_bind, pure_eq_ok]
  · rw [advancePc, setPc_pc, hadv, h.pc, if_pos he.1, hun.status]
    exact BitVec.sub_add_cancel _ _
  · rw [advancePc, setPc_bdelay, setBdelay_bdelay, hadv]
    exact h.stopped
  · rw [← hun.bdelay, ← hun.pc]
    exact h.epc
  · rw [← hun.bdelay]
    exact h.bd

/-! ### Where a branch is pending -/

/-- After the check for interrupts a branch is pending only if it was. -/
theorem currentSlot_of_handleInterruptCheck {s sc : IopCore σ} (h : s.handleInterruptCheck = .ok sc) :
    sc.bdelay = s.bdelay ∨ ¬sc.bdelay.isBranchPending := by
  unfold handleInterruptCheck at h
  split_ifs at h
  · obtain rfl := Except.ok.inj h
    exact .inl rfl
  · exact .inr (handled_of_handleException h).stopped
  · obtain rfl := Except.ok.inj h
    exact .inl rfl

theorem bdelay_of_whenCop0Usable {s t : IopCore σ} {k : Except HostError (IopCore σ)}
    (hk : ∀ t, k = .ok t → t.bdelay = s.bdelay) (h : s.whenCop0Usable k = .ok (.value t)) : t.bdelay = s.bdelay := by
  unfold whenCop0Usable at h
  split_ifs at h
  · obtain ⟨t', ht, h⟩ := bind_eq_ok_iff.mp h
    cases h
    exact hk t ht
  · cases h

/-- Only branches make a branch pending. -/
theorem bdelay_of_run {op : IopOperation σ} (hop : op.Raisable) {s t : IopCore σ} (h : op.run s = .ok (.value t)) :
    t.bdelay = s.bdelay ∨ t.pc = s.pc ∧ t.bdelay.currentSlot = 2 ∧
      ∃ taken link target, op = .branch taken link target ∧ taken s.data = true := by
  cases op with
  | data m => exact .inl ((m s.data).run_unmoved (hop s.data) s _ h).1.bdelay
  | branch taken link target =>
    cases h
    unfold IopCore.branch
    split_ifs with htaken
    · exact .inr ⟨rfl, by cases target <;> rfl, taken, link, target, rfl, htaken⟩
    · exact .inl rfl
  | mfc0 rt rd =>
    refine .inl (bdelay_of_whenCop0Usable (fun t ht => ?_) h)
    obtain ⟨⟨value, cop0⟩, -, ht⟩ := bind_eq_ok_iff.mp ht
    obtain rfl := Except.ok.inj ht
    rfl
  | mtc0 rt rd =>
    refine .inl (bdelay_of_whenCop0Usable (fun t ht => ?_) h)
    obtain ⟨cop0, -, ht⟩ := bind_eq_ok_iff.mp ht
    obtain rfl := Except.ok.inj ht
    rfl
  | rfe =>
    obtain ⟨t', ht, h⟩ := bind_eq_ok_iff.mp h
    obtain ⟨status, -, ht⟩ := bind_eq_ok_iff.mp ht
    obtain rfl := Except.ok.inj ht
    cases h
    exact .inl rfl

/-- A step that returns has checked for an interrupt, fetched an instruction, run it and handled its exception. -/
theorem timeStep_eq_ok_iff {M : IopMachine σ} {s s' : IopCore σ} : s.timeStep M = .ok s' ↔
    ∃ sc, s.handleInterruptCheck = .ok sc ∧ ∃ inst s₀, sc.fetch M = .ok (inst, s₀) ∧ ∃ op, M.lookup inst = .ok op ∧
      ∃ r, op.run s₀ = .ok r ∧ ∃ t, r.handled = .ok t ∧ t.advancePc = s' := by
  unfold timeStep
  simp only [bind_eq_ok_iff, Prod.exists, pure_eq_ok, Except.ok.injEq]

/-- A branch was taken by the instruction before the program counter. -/
def BranchBefore (M : IopMachine σ) (s s' : IopCore σ) : Prop :=
  ∃ sc inst s₀ taken link target, s.handleInterruptCheck = .ok sc ∧ sc.fetch M = .ok (inst, s₀) ∧
    M.lookup inst = .ok (.branch taken link target) ∧ taken s₀.data = true ∧ s₀.pc = s'.pc - 4

/-- A branch that is taken is pending after its step. -/
theorem pending_of_branchBefore {M : IopMachine σ} {s s' : IopCore σ} (hbefore : BranchBefore M s s')
    (h : s.timeStep M = .ok s') : s'.bdelay.isBranchPending := by
  obtain ⟨sc, inst, s₀, taken, link, target, hcheck, hfetch, hop, htaken, -⟩ := hbefore
  have hslot : (s₀.branch taken link target).bdelay.currentSlot = 2 := by
    unfold IopCore.branch
    rw [if_pos htaken]
    cases target <;> rfl
  have hstep : s.timeStep M = .ok (s₀.branch taken link target).advancePc :=
    timeStep_eq_ok_iff.mpr ⟨sc, hcheck, inst, s₀, hfetch, _, hop, _, rfl, _, rfl, rfl⟩
  obtain rfl := Except.ok.inj (hstep.symm.trans h)
  rw [IopCore.advancePc, BranchDelaySlot.advancePc, hslot]
  exact Nat.one_pos

/-- A branch pending after a step is the instruction of the step, the one before the program counter. -/
theorem branchBefore_of_pending {M : IopMachine σ} {s s' : IopCore σ} (hs : s.bdelay.currentSlot ≤ 1)
    (h : s.timeStep M = .ok s') :
    s'.bdelay.currentSlot ≤ 1 ∧ (s'.bdelay.isBranchPending → BranchBefore M s s') := by
  obtain ⟨sc, hcheck, inst, s₀, hfetch, op, hop, r, hr, t, ht, rfl⟩ := timeStep_eq_ok_iff.mp h
  have hle : t.advancePc.bdelay.currentSlot ≤ t.bdelay.currentSlot - 1 :=
    BranchDelaySlot.advancePc_currentSlot_le t.bdelay t.pc
  have hs₀ : s₀.bdelay.currentSlot ≤ 1 := by
    rw [(unmoved_fetch M sc _ hfetch).bdelay]
    rcases currentSlot_of_handleInterruptCheck hcheck with hb | hb
    · exact hb ▸ hs
    · exact (Nat.le_of_not_lt hb).trans (Nat.zero_le 1)
  -- Where no branch has just been taken, the one that was pending is taken now.
  have hnone (hle' : t.bdelay.currentSlot ≤ 1) : t.advancePc.bdelay.currentSlot ≤ 1 ∧
      (t.advancePc.bdelay.isBranchPending → BranchBefore M s t.advancePc) :=
    ⟨by omega, fun hpending => absurd hpending (Nat.not_lt.mpr (by omega))⟩
  cases r with
  | value t' =>
    obtain rfl := Except.ok.inj ht
    rcases bdelay_of_run (IopMachine.raisable_of_lookup hop) hr with hb | ⟨hpc, hslot, taken, link, target, rfl, htaken⟩
    · exact hnone (hb ▸ hs₀)
    · refine ⟨by omega, fun _ => ⟨sc, inst, s₀, taken, link, target, hcheck, hfetch, hop, htaken, ?_⟩⟩
      have hadv : (t'.bdelay.advancePc t'.pc).2 = t'.pc + 4 := by simp [BranchDelaySlot.advancePc, hslot]
      rw [IopCore.advancePc, setPc_pc, hadv, hpc]
      exact (BitVec.add_sub_cancel _ _).symm
  | exception e t' => exact hnone ((Nat.le_of_not_lt (handled_of_handleException ht).stopped).trans (Nat.zero_le 1))

end IopCore

/-! ### Return -/

/-- What happens to the core between guest writes to `Status`. -/
inductive IopStatusOp (σ : Type) where
  /-- `handle_exception(e)`. -/
  | exception (e : IopCoreException)
  /-- `RFE`. -/
  | rfe
  /-- Anything else; the core is `s` then. -/
  | other (s : IopCore σ)

/-- The core, with the pairs that the open exceptions have saved, the last one first. -/
structure IopNested (σ : Type) where
  /-- The core. -/
  core : IopCore σ
  /-- The pairs. -/
  saved : List (Bool × Bool)

namespace IopStatusOp

open IopCoreCop0Status IopCore

/-- What an operation does. -/
def step : IopStatusOp σ → IopNested σ → Except HostError (IopNested σ)
  | exception e, n => do return ⟨← n.core.handleException e, pair n.core.cop0.status.w 0 :: n.saved⟩
  | rfe, n => do return ⟨← n.core.rfe, n.saved.tail⟩
  | other s, n => .ok ⟨s, n.saved⟩

/-- The operation is no write to `Status` of its own. -/
def Quiet : IopStatusOp σ → IopNested σ → Prop
  | other s, n => s.cop0.status = n.core.cop0.status
  | _, _ => True

/-- No more than two exceptions are open, and an `RFE` has one to return from. -/
def Nests : IopStatusOp σ → IopNested σ → Prop
  | exception _, n => n.saved.length ≤ 1
  | rfe, n => n.saved ≠ []
  | other _, _ => True

/-- The operation is well nested, to a depth of two, and no write to `Status` of its own. -/
def WellNested (op : IopStatusOp σ) (n : IopNested σ) : Prop := Quiet op n ∧ Nests op n

/-- What is promised of the core as an operation leaves it, `w` being `Status` before the first one. -/
structure Meets (w : Uword) (op : IopStatusOp σ) (n : IopNested σ) : Prop where
  /-- The caches of `Status` agree with it, before and after. -/
  synced : n.core.cop0.status.Synced ∧ ∀ n', step op n = .ok n' → n'.core.cop0.status.Synced
  /-- The bits above the stack are those of the start, before and after. -/
  above : AboveStack w n.core.cop0.status.w ∧ ∀ n', step op n = .ok n' → AboveStack w n'.core.cop0.status.w
  /-- `RFE` restores the pair the matching exception has saved. -/
  restores : op = rfe → ∃ n' p saved, step op n = .ok n' ∧ n.saved = p :: saved ∧ n'.saved = saved ∧
    pair n'.core.cop0.status.w 0 = p

/-- The saved pairs are on the stack. -/
structure OnStack (w : Uword) (n : IopNested σ) : Prop where
  /-- The caches of `Status` agree with it. -/
  synced : n.core.cop0.status.Synced
  /-- The bits above the stack are those of the start. -/
  above : AboveStack w n.core.cop0.status.w
  /-- At most two exceptions are open. -/
  depth : n.saved.length ≤ 2
  /-- The pair saved last is the previous one, that before it the oldest. -/
  saved : ∀ i (h : i < n.saved.length), pair n.core.cop0.status.w (i + 1) = n.saved.get ⟨i, h⟩

theorem onStack_start {s : IopCore σ} (hs : s.cop0.status.Synced) : OnStack s.cop0.status.w ⟨s, []⟩ :=
  ⟨hs, fun _ _ => rfl, Nat.zero_le 2, fun i h => absurd h (Nat.not_lt_zero i)⟩

theorem AboveStack.trans {w w' w'' : Uword} (h : AboveStack w w') (h' : AboveStack w' w'') : AboveStack w w'' :=
  fun i hi => (h' i hi).trans (h i hi)

/-- `RFE` never fails. -/
theorem rfe_eq (s : IopCore σ) :
    ∃ s', s.rfe = .ok s' ∧ s'.cop0.status.Synced ∧ Popped s.cop0.status.w s'.cop0.status.w := by
  obtain ⟨status, h, hsync, hpop⟩ := s.cop0.status.popExceptionStack_eq
  have hrfe : s.rfe = .ok (s.setCop0 { s.cop0 with status, cause := s.cop0.cause.clearAllIrq }).flush := by
    rw [IopCore.rfe, h, ok_bind, pure_eq_ok]
  exact ⟨_, hrfe, hsync, hpop⟩

theorem onStack_exception {w : Uword} {n n' : IopNested σ} {e : IopCoreException} (hn : OnStack w n)
    (hd : n.saved.length ≤ 1) (h : step (exception e) n = .ok n') : OnStack w n' := by
  obtain ⟨s, hs, h⟩ := bind_eq_ok_iff.mp h
  obtain rfl := Except.ok.inj h
  obtain ⟨hsync, hpush⟩ := (handled_of_handleException hs).status
  refine ⟨hsync, AboveStack.trans hn.above hpush.above, Nat.succ_le_succ hd, fun i hi => ?_⟩
  match i with
  | 0 => exact hpush.previous
  | 1 => exact hpush.oldest.trans (hn.saved 0 (Nat.lt_of_succ_lt_succ hi))
  | i + 2 =>
    simp only [List.length_cons] at hi
    omega

theorem synced_step {op : IopStatusOp σ} {n n' : IopNested σ} (hn : n.core.cop0.status.Synced) (hop : Quiet op n)
    (h : step op n = .ok n') : n'.core.cop0.status.Synced := by
  cases op with
  | exception e =>
    obtain ⟨s, hs, h⟩ := bind_eq_ok_iff.mp h
    obtain rfl := Except.ok.inj h
    exact (handled_of_handleException hs).status.1
  | rfe =>
    obtain ⟨s, hs, h⟩ := bind_eq_ok_iff.mp h
    obtain rfl := Except.ok.inj h
    obtain ⟨s', hs', hsync, -⟩ := rfe_eq n.core
    obtain rfl := Except.ok.inj (hs.symm.trans hs')
    exact hsync
  | other s =>
    obtain rfl := Except.ok.inj h
    have hs : s.cop0.status = n.core.cop0.status := hop
    exact hs ▸ hn

/-- The oldest pair stays on the stack, so two `RFE`s in a row find what two exceptions have saved. -/
theorem onStack_rfe {w : Uword} {n : IopNested σ} (hn : OnStack w n) (hd : n.saved ≠ []) :
    ∃ n' p saved, step rfe n = .ok n' ∧ OnStack w n' ∧ n.saved = p :: saved ∧ n'.saved = saved ∧
      pair n'.core.cop0.status.w 0 = p := by
  obtain ⟨core, saved⟩ := n
  obtain ⟨s, hs, hsync, hpop⟩ := rfe_eq core
  have hstep : step rfe ⟨core, saved⟩ = .ok ⟨s, saved.tail⟩ := by simp only [step, hs, ok_bind, pure_eq_ok]
  cases saved with
  | nil => exact absurd rfl hd
  | cons p saved =>
    have hdepth : saved.length + 1 ≤ 2 := hn.depth
    refine ⟨_, p, saved, hstep, ⟨hsync, AboveStack.trans hn.above hpop.above, ?_, fun i hi => ?_⟩, rfl, rfl, ?_⟩
    · exact show saved.length ≤ 2 by omega
    · have hi' : i < saved.length := hi
      obtain rfl : i = 0 := by omega
      exact hpop.previous.trans (hn.saved 1 (Nat.succ_lt_succ hi'))
    · exact hpop.current.trans (hn.saved 0 (Nat.succ_pos _))

theorem onStack_step {w : Uword} {op : IopStatusOp σ} {n n' : IopNested σ} (hn : OnStack w n) (hop : WellNested op n)
    (h : step op n = .ok n') : OnStack w n' := by
  cases op with
  | exception e => exact onStack_exception hn hop.2 h
  | rfe =>
    obtain ⟨n₁, -, -, h₁, hn₁, -⟩ := onStack_rfe hn hop.2
    obtain rfl := Except.ok.inj (h.symm.trans h₁)
    exact hn₁
  | other s =>
    obtain rfl := Except.ok.inj h
    have hs : s.cop0.status = n.core.cop0.status := hop.1
    exact ⟨hs ▸ hn.synced, hs ▸ hn.above, hn.depth, hs ▸ hn.saved⟩

theorem meets_of_onStack {w : Uword} {op : IopStatusOp σ} {n : IopNested σ} (hn : OnStack w n) (hop : WellNested op n) :
    Meets w op n := by
  refine ⟨⟨hn.synced, fun n' h => (onStack_step hn hop h).synced⟩,
    ⟨hn.above, fun n' h => (onStack_step hn hop h).above⟩, ?_⟩
  rintro rfl
  obtain ⟨n', p, saved, h, -, hsaved⟩ := onStack_rfe hn hop.2
  exact ⟨n', p, saved, h, hsaved⟩

/-- Every well-nested run keeps the promise. -/
theorem always_meets {s : IopCore σ} (hs : s.cop0.status.Synced) {ops : List (IopStatusOp σ)}
    (h : Run.Always step WellNested ops ⟨s, []⟩) : Run.Always step (Meets s.cop0.status.w) ops ⟨s, []⟩ :=
  h.invariant (fun _ _ _ => onStack_step) (fun _ _ => meets_of_onStack) (onStack_start hs)

end IopStatusOp

/-! ### The interpreter makes these operations -/

namespace IopCore

open IopStatusOp

/-- `MTC0` is about to write `Status`. -/
def WritesStatus (M : IopMachine σ) (s : IopCore σ) : Prop :=
  ∃ sc inst s₀ rt, s.handleInterruptCheck = .ok sc ∧ sc.fetch M = .ok (inst, s₀) ∧ M.lookup inst = .ok (.mtc0 rt 12)

/-- From `s` the core gets to `s'` by operations that are no writes to `Status` of their own. -/
def QuietlyTo (s s' : IopCore σ) : Prop :=
  ∀ saved, ∃ ops saved', Run.run step ops ⟨s, saved⟩ = .ok ⟨s', saved'⟩ ∧ Run.Always step Quiet ops ⟨s, saved⟩

theorem QuietlyTo.trans {s s' s'' : IopCore σ} (h : QuietlyTo s s') (h' : QuietlyTo s' s'') : QuietlyTo s s'' := by
  intro saved
  obtain ⟨ops, saved', hrun, halways⟩ := h saved
  obtain ⟨ops', saved'', hrun', halways'⟩ := h' saved'
  refine ⟨ops ++ ops', saved'', Run.run_append.mpr ⟨_, hrun, hrun'⟩, halways.append fun t ht => ?_⟩
  obtain rfl := Except.ok.inj (hrun.symm.trans ht)
  exact halways'

theorem quietlyTo_of_step {s s' : IopCore σ} (op : IopStatusOp σ)
    (h : ∀ saved, ∃ saved', step op ⟨s, saved⟩ = .ok ⟨s', saved'⟩ ∧ Quiet op ⟨s, saved⟩) : QuietlyTo s s' := by
  intro saved
  obtain ⟨saved', hstep, hquiet⟩ := h saved
  exact ⟨[op], saved', Run.run_cons_ok.mpr ⟨_, hstep, rfl⟩, hquiet, fun _ _ => trivial⟩

theorem quietlyTo_of_status_eq {s s' : IopCore σ} (h : s'.cop0.status = s.cop0.status) : QuietlyTo s s' :=
  quietlyTo_of_step (.other s') fun saved => ⟨saved, rfl, h⟩

theorem quietlyTo_of_handleException {s s' : IopCore σ} {e : IopCoreException} (h : s.handleException e = .ok s') :
    QuietlyTo s s' := by
  refine quietlyTo_of_step (exception e) fun saved => ⟨IopCoreCop0Status.pair s.cop0.status.w 0 :: saved, ?_, trivial⟩
  simp only [step, h, ok_bind, pure_eq_ok]

theorem quietlyTo_of_rfe {s s' : IopCore σ} (h : s.rfe = .ok s') : QuietlyTo s s' := by
  refine quietlyTo_of_step .rfe fun saved => ⟨saved.tail, ?_, trivial⟩
  simp only [step, h, ok_bind, pure_eq_ok]

theorem quietlyTo_of_handled {s s' : IopCore σ} {r : IopResult σ} (hr : Unmoved s (resultState r))
    (h : r.handled = .ok s') : QuietlyTo s s' := by
  cases r with
  | value t =>
    obtain rfl := Except.ok.inj h
    exact quietlyTo_of_status_eq hr.status
  | exception e t => exact (quietlyTo_of_status_eq hr.status).trans (quietlyTo_of_handleException h)

theorem quietlyTo_of_handleInterruptCheck {s s' : IopCore σ} (h : s.handleInterruptCheck = .ok s') : QuietlyTo s s' := by
  unfold handleInterruptCheck at h
  split_ifs at h
  · obtain rfl := Except.ok.inj h
    exact quietlyTo_of_status_eq rfl
  · have hm : QuietlyTo s s.mergeCause := quietlyTo_of_status_eq rfl
    exact hm.trans (quietlyTo_of_handleException h)
  · obtain rfl := Except.ok.inj h
    exact quietlyTo_of_status_eq rfl

theorem status_readRegister {c c' : IopCoreCop0} {r : BitVec 5} {value : Uword}
    (h : c.readRegister r = .ok (value, c')) : c'.status = c.status := by
  unfold IopCoreCop0.readRegister at h
  split at h
  · cases h
    rfl
  · cases h
    rfl
  · cases h
    rfl
  · split_ifs at h
    cases h
    rfl

theorem status_writeRegister {c c' : IopCoreCop0} {r : BitVec 5} {value : Uword} (hr : r ≠ 12)
    (h : c.writeRegister r value = .ok c') : c'.status = c.status := by
  have hr' : r.toNat ≠ 12 := fun hr' => hr (BitVec.eq_of_toNat_eq hr')
  unfold IopCoreCop0.writeRegister at h
  split at h
  · exact absurd ‹_› hr'
  · cases h
    rfl
  · cases h
    rfl
  · cases h
    rfl
  · split_ifs at h
    cases h
    rfl

/-- What an instruction of COP0 does, whether it is usable or not. -/
theorem quietlyTo_of_whenCop0Usable {s s' : IopCore σ} {k : Except HostError (IopCore σ)} {r : IopResult σ}
    (hk : ∀ t, k = .ok t → t.cop0.status = s.cop0.status) (hr : s.whenCop0Usable k = .ok r)
    (h : r.handled = .ok s') : QuietlyTo s s' := by
  cases r with
  | value t =>
    unfold whenCop0Usable at hr
    split_ifs at hr
    · obtain ⟨t', ht, hr⟩ := bind_eq_ok_iff.mp hr
      obtain rfl := Except.ok.inj h
      cases hr
      exact quietlyTo_of_status_eq (hk t ht)
    · cases hr
  | exception e t =>
    have hr := (s.unmoved_whenCop0Usable k hr).1
    exact (quietlyTo_of_status_eq hr.status).trans (quietlyTo_of_handleException h)

theorem quietlyTo_of_run {op : IopOperation σ} (hop : op.Raisable) (hw : ∀ rt, op ≠ .mtc0 rt 12) {s s' : IopCore σ}
    {r : IopResult σ} (hr : op.run s = .ok r) (h : r.handled = .ok s') : QuietlyTo s s' := by
  cases op with
  | data m => exact quietlyTo_of_handled ((m s.data).run_unmoved (hop s.data) s r hr).1 h
  | branch taken link target =>
    cases hr
    obtain rfl := Except.ok.inj h
    unfold IopCore.branch
    split_ifs
    · exact quietlyTo_of_status_eq rfl
    · exact quietlyTo_of_status_eq rfl
  | mfc0 rt rd =>
    refine quietlyTo_of_whenCop0Usable (fun t ht => ?_) hr h
    obtain ⟨⟨value, cop0⟩, hread, ht⟩ := bind_eq_ok_iff.mp ht
    obtain rfl := Except.ok.inj ht
    exact status_readRegister hread
  | mtc0 rt rd =>
    have hrd : rd ≠ 12 := by
      rintro rfl
      exact hw rt rfl
    refine quietlyTo_of_whenCop0Usable (fun t ht => ?_) hr h
    obtain ⟨cop0, hwrite, ht⟩ := bind_eq_ok_iff.mp ht
    obtain rfl := Except.ok.inj ht
    exact status_writeRegister hrd hwrite
  | rfe =>
    obtain ⟨t, ht, hr⟩ := bind_eq_ok_iff.mp hr
    cases hr
    obtain rfl := Except.ok.inj h
    exact quietlyTo_of_rfe ht

theorem synced_of_quietlyTo {s s' : IopCore σ} (h : QuietlyTo s s') (hs : s.cop0.status.Synced) :
    s'.cop0.status.Synced := by
  obtain ⟨ops, saved, hrun, hquiet⟩ := h []
  exact Run.Always.invariant_run (I := fun n => n.core.cop0.status.Synced) (fun _ _ _ => synced_step) hs hquiet hrun

/-- Every step of the interpreter that writes `Status` by no `MTC0` is a run of these operations. -/
theorem quietlyTo_of_timeStep {M : IopMachine σ} {s s' : IopCore σ} (hw : ¬WritesStatus M s)
    (h : s.timeStep M = .ok s') : QuietlyTo s s' := by
  obtain ⟨sc, hcheck, inst, s₀, hfetch, op, hop, r, hr, t, ht, rfl⟩ := timeStep_eq_ok_iff.mp h
  have hne (rt : BitVec 5) : op ≠ .mtc0 rt 12 := by
    rintro rfl
    exact hw ⟨sc, inst, s₀, rt, hcheck, hfetch, hop⟩
  have hrun : QuietlyTo s₀ t := quietlyTo_of_run (IopMachine.raisable_of_lookup hop) hne hr ht
  have hfetched : QuietlyTo sc s₀ := quietlyTo_of_status_eq (unmoved_fetch M sc _ hfetch).status
  have hadvanced : QuietlyTo t t.advancePc := quietlyTo_of_status_eq rfl
  exact (((quietlyTo_of_handleInterruptCheck hcheck).trans hfetched).trans hrun).trans hadvanced

theorem synced_of_mtc0 {s s' : IopCore σ} {rt : BitVec 5} {r : IopResult σ} (hr : s.mtc0 rt 12 = .ok r)
    (h : r.handled = .ok s') : s'.cop0.status.Synced := by
  cases r with
  | value t =>
    unfold mtc0 whenCop0Usable at hr
    split_ifs at hr
    · obtain ⟨t', ht, hr⟩ := bind_eq_ok_iff.mp hr
      obtain ⟨cop0, hwrite, ht⟩ := bind_eq_ok_iff.mp ht
      obtain ⟨status, hstatus, hwrite⟩ := bind_eq_ok_iff.mp hwrite
      obtain ⟨status', hstatus', hsync, -⟩ := s.cop0.status.writeUword_eq (s.data.gpr rt)
      obtain rfl := Except.ok.inj (hstatus.symm.trans hstatus')
      cases hwrite
      cases ht
      cases hr
      obtain rfl := Except.ok.inj h
      exact hsync
    · cases hr
  | exception e t => exact (handled_of_handleException h).status.1

/-- The caches of `Status` agree with it after every step of the interpreter. -/
theorem synced_timeStep {M : IopMachine σ} {s s' : IopCore σ} (hs : s.cop0.status.Synced)
    (h : s.timeStep M = .ok s') : s'.cop0.status.Synced := by
  by_cases hw : WritesStatus M s
  · obtain ⟨sc, inst, s₀, rt, hcheck, hfetch, hop⟩ := hw
    simp only [timeStep, hcheck, hfetch, hop, ok_bind, IopOperation.run] at h
    obtain ⟨r, hr, h⟩ := bind_eq_ok_iff.mp h
    obtain ⟨t, ht, h⟩ := bind_eq_ok_iff.mp h
    obtain rfl := Except.ok.inj h
    have hsync : t.cop0.status.Synced := synced_of_mtc0 hr ht
    exact hsync
  · exact synced_of_quietlyTo (quietlyTo_of_timeStep hw h) hs

/-- A step that fetches an `RFE` is the operation. -/
theorem timeStep_of_rfe {M : IopMachine σ} {s sc s₀ : IopCore σ} {inst : IopCoreInstruction}
    (hcheck : s.handleInterruptCheck = .ok sc) (hfetch : sc.fetch M = .ok (inst, s₀)) (hop : M.lookup inst = .ok .rfe) :
    ∃ t, s₀.rfe = .ok t ∧ s.timeStep M = .ok t.advancePc := by
  obtain ⟨t, ht, -⟩ := IopStatusOp.rfe_eq s₀
  have hrun : IopOperation.rfe.run s₀ = .ok (.value t) := by rw [IopOperation.run, ht, ok_bind, pure_eq_ok]
  exact ⟨t, ht, timeStep_eq_ok_iff.mpr ⟨sc, hcheck, inst, s₀, hfetch, _, hop, _, hrun, t, rfl, rfl⟩⟩

/-! ### Exceptions and returns -/

/-- Exceptions lead to the vector, and well-nested returns restore what the exceptions have saved. -/
theorem exceptions_and_returns (M : IopMachine σ) :
    (∀ s : IopCore σ, s.cop0.status.interruptsMasked = false → s.InterruptPending →
      ∃ s', s.handleInterruptCheck = .ok s' ∧ AtVector .exInterrupt s s') ∧
    (∀ (s sc s₀ t : IopCore σ) (inst : IopCoreInstruction) (op : IopOperation σ) (e : IopCoreException),
      s.handleInterruptCheck = .ok sc → sc.fetch M = .ok (inst, s₀) → M.lookup inst = .ok op →
      op.run s₀ = .ok (.exception e t) → ∃ s', s.timeStep M = .ok s' ∧ AtVector e s₀ s') ∧
    (∀ s s' : IopCore σ, s.bdelay.currentSlot ≤ 1 → s.timeStep M = .ok s' →
      s'.bdelay.currentSlot ≤ 1 ∧ (s'.bdelay.isBranchPending ↔ BranchBefore M s s')) ∧
    (∀ (s sc s₀ : IopCore σ) (inst : IopCoreInstruction), s.handleInterruptCheck = .ok sc →
      sc.fetch M = .ok (inst, s₀) → M.lookup inst = .ok .rfe → ∃ t, s₀.rfe = .ok t ∧ s.timeStep M = .ok t.advancePc) ∧
    (∀ s s' : IopCore σ, ¬WritesStatus M s → s.timeStep M = .ok s' → QuietlyTo s s') ∧
    (∀ s s' : IopCore σ, s.cop0.status.Synced → s.timeStep M = .ok s' → s'.cop0.status.Synced) ∧
    ∀ s : IopCore σ, s.cop0.status.Synced → ∀ ops, Run.Always step WellNested ops ⟨s, []⟩ →
      Run.Always step (Meets s.cop0.status.w) ops ⟨s, []⟩ :=
  ⟨fun _ => atVector_of_interrupt, fun _ _ _ _ _ _ _ => atVector_of_instruction,
    fun _ _ hs h => ⟨(branchBefore_of_pending hs h).1, (branchBefore_of_pending hs h).2, (pending_of_branchBefore · h)⟩,
    fun _ _ _ _ => timeStep_of_rfe, fun _ _ => quietlyTo_of_timeStep, fun _ _ => synced_timeStep,
    fun _ hs _ => always_meets hs⟩

/-- A machine whose memory is one word throughout. -/
def filledMachine (word : Uword) : IopMachine Unit where
  busRead w _ _ := .ok (word.setWidth w, ())
  busWrite _ _ _ _ := .ok ()
  other _ := none

/-- A core in kernel mode in the delay slot of a branch, interrupt line 2 set, with the `Status` given. -/
def inKernel (w : Uword) : IopCore Unit where
  pc := 0x80001000
  bdelay := ⟨1, 0x80002000⟩
  data := ⟨fun _ => 0, ()⟩
  cop0 :=
    { IopCoreCop0.initial with
      status := ⟨w, IopCoreCop0Status.maskedOf w, .kernel⟩
      cause := ⟨0, fun line => line = 2⟩ }
  translationCacheData := .new ..
  translationCacheInst := .new ..

/-- The core after the fetch of its instruction. -/
def inKernelFetched (w : Uword) : IopCore Unit :=
  (inKernel w).setTranslationCache .instruction ((TimestampLruCache.new ..).insert 0x80001000 0x1000)

/-- The interrupt is taken when enabled; else `SYSCALL` in the delay slot is, and `RFE` returns from it. -/
theorem exceptions_and_returns_syscall :
    (∃ s', (inKernel 0x401).handleInterruptCheck = .ok s' ∧ AtVector .exInterrupt (inKernel 0x401) s') ∧
    (∃ s', (inKernel 0).timeStep (filledMachine 0x0000000C) = .ok s' ∧ AtVector .exSystemcall (inKernelFetched 0) s' ∧
      s'.bdelay.currentSlot ≤ 1 ∧ QuietlyTo (inKernel 0) s' ∧ s'.cop0.status.Synced) ∧
    (∃ t, (inKernelFetched 0).rfe = .ok t ∧ (inKernel 0).timeStep (filledMachine 0x42000010) = .ok t.advancePc) ∧
    Run.Always step (Meets 0) [exception .exSystemcall, .rfe] ⟨inKernel 0, []⟩ := by
  obtain ⟨hinterrupt, hinstruction, hbranch, -, hquiet, hsynced, hruns⟩ := exceptions_and_returns (filledMachine 0x0000000C)
  obtain ⟨-, -, -, hrfe, -⟩ := exceptions_and_returns (filledMachine 0x42000010)
  have hsync : (inKernel 0).cop0.status.Synced := ⟨by decide, rfl⟩
  have hfetch : (inKernel 0).fetch (filledMachine 0x0000000C) = .ok (⟨0x0000000C⟩, inKernelFetched 0) := rfl
  have hop : (filledMachine 0x0000000C).lookup ⟨0x0000000C⟩ = .ok (.data .syscall) := rfl
  have hw : ¬WritesStatus (filledMachine 0x0000000C) (inKernel 0) := by
    rintro ⟨sc, inst, s₀, rt, hsc, hinst, hmtc0⟩
    obtain rfl := Except.ok.inj (hsc.symm.trans rfl)
    obtain ⟨rfl, rfl⟩ := Prod.mk.inj (Except.ok.inj (hinst.symm.trans hfetch))
    cases hop.symm.trans hmtc0
  obtain ⟨s', hs', hvector⟩ := hinstruction (inKernel 0) _ _ _ _ _ .exSystemcall rfl hfetch hop rfl
  refine ⟨hinterrupt _ (by decide) (by decide), ⟨s', hs', hvector, (hbranch _ _ (by decide) hs').1, hquiet _ _ hw hs',
    hsynced _ _ hsync hs'⟩, hrfe _ _ _ ⟨0x42000010⟩ rfl rfl rfl, hruns _ hsync _ ?_⟩
  refine ⟨⟨trivial, Nat.zero_le 1⟩, fun n hn => ⟨⟨trivial, ?_⟩, fun _ _ => trivial⟩⟩
  obtain ⟨s, -, hn⟩ := bind_eq_ok_iff.mp hn
  obtain rfl := Except.ok.inj hn
  exact List.cons_ne_nil _ _

end IopCore

end Orbum
