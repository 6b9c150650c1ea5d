import Orbum.Ee.Core.Interpreter.TimeStep

/-!
# Precise exceptions

Where the program counter is after a step that raised a level 1 exception.

`handle_exception` sets the program counter 4 before the vector and leaves the rest to `advance_pc`, which
adds 4 unless a branch is pending. It stops a pending branch, but only together with writing `EPC`: with
`EXL` set it does neither, and the branch is taken in place of the exception. Two more ways do not get
to the vector: a fault of the fetch itself, whose empty `optional` is unwrapped, and a `Status` that has no
operating context once `ERL` is cleared.
-/

namespace Orbum

/-- What makes `advance_pc` arrive at the vector with no branch left. -/
theorem BranchDelaySlot.advancePc_arrives_iff (b : BranchDelaySlot) {pc vector : Uword} (hpc : pc + 4 = vector) :
    ((b.advancePc pc).2 = vector ∧ ¬(b.advancePc pc).1.isBranchPending) ↔
      (b.isBranchPending → b = ⟨1, vector⟩) := by
  obtain ⟨slot, target⟩ := b
  unfold advancePc isBranchPending
  match slot with
  | 0 => simpa using hpc
  | 1 => simp
  | n + 2 => simp

namespace EeCore

variable {σ : Type}

/-- The exception vector, from the exception and the `Status` before it. -/
def vector (e : EeCoreException) (status : EeCoreCop0Status) : Uptr :=
  exceptionVectorBase status + exceptionVectorOffset e (status.extractField EeCoreCop0Status.exl ≠ 0)

/-- `ERL` has no part in the vector. -/
theorem vector_insertField_erl {e : EeCoreException} {status status' : EeCoreCop0Status} {value : Uword}
    (h : status.insertField EeCoreCop0Status.erl value = .ok status') :
    vector e status' = vector e status ∧
      status'.extractField EeCoreCop0Status.exl = status.extractField EeCoreCop0Status.exl := by
  have hw := (EeCoreCop0Status.synced_of_writeUword h).2
  have hdev : status'.extractField EeCoreCop0Status.dev = status.extractField EeCoreCop0Status.dev := by
    rw [EeCoreCop0Status.extractField, hw]
    exact EeCoreCop0Status.extractFrom_insertInto_erl (by decide) _ _
  have hbev : status'.extractField EeCoreCop0Status.bev = status.extractField EeCoreCop0Status.bev := by
    rw [EeCoreCop0Status.extractField, hw]
    exact EeCoreCop0Status.extractFrom_insertInto_erl (by decide) _ _
  have hexl : status'.extractField EeCoreCop0Status.exl = status.extractField EeCoreCop0Status.exl := by
    rw [EeCoreCop0Status.extractField, hw]
    exact EeCoreCop0Status.extractFrom_insertInto_erl (by decide) _ _
  refine ⟨?_, hexl⟩
  simp only [vector, exceptionVectorBase, hdev, hbev, hexl]

theorem setErrorAddress_not_pending (level2 : Bool) (s : EeCore σ) :
    ¬(s.setErrorAddress level2).bdelay.isBranchPending := by
  unfold setErrorAddress
  simp only
  split_ifs with hp
  · exact Nat.lt_irrefl 0
  · exact hp

/-- `handle_exception` throws for a level 1 exception exactly for `KSU = 3` without `EXL`. -/
theorem handleException_returns_iff {e : EeCoreException} (hlevel : ¬e.IsLevel2) (s : EeCore σ) :
    (∃ s', s.handleException e = .ok s') ↔
      ¬(s.cop0.status.extractField EeCoreCop0Status.exl = 0 ∧ s.cop0.status.extractField EeCoreCop0Status.ksu = 3) := by
  rw [← EeCoreCop0Status.insertField_erl_zero]
  constructor
  · rintro ⟨s', h⟩
    obtain ⟨status, hst, -⟩ := handleException_cases h
    rw [if_neg hlevel] at hst
    exact ⟨status, hst⟩
  · rintro ⟨status, hst⟩
    unfold handleException
    simp only [if_neg hlevel, hst, ok_bind]
    split_ifs
    · exact ⟨_, rfl⟩
    · exact ⟨_, rfl⟩
    · obtain ⟨status', hst', -⟩ := status.insertField_exl_one
      rw [hst']
      exact ⟨_, rfl⟩

/-- The program counter and the delay slot that `handle_exception` leaves. -/
theorem handleException_leaves {e : EeCoreException} {s s' : EeCore σ} (h : s.handleException e = .ok s')
    (hlevel : ¬e.IsLevel2) (hint : e ≠ .exInterrupt) :
    s'.pc + 4 = vector e s.cop0.status ∧
      if s.cop0.status.extractField EeCoreCop0Status.exl ≠ 0 then s'.bdelay = s.bdelay
      else ¬s'.bdelay.isBranchPending := by
  obtain ⟨status, hst, hcases⟩ := handleException_cases h
  obtain ⟨hvector, hexl⟩ := vector_insertField_erl (e := e) hst
  have hpc : vectorPc e status + 4 = vector e s.cop0.status := by
    rw [← hvector, vectorPc, if_neg hint]
    exact BitVec.sub_add_cancel _ _
  rw [← hexl]
  rcases hcases with ⟨hreset, -⟩ | ⟨-, hset, rfl⟩ | ⟨-, hclear, status', -, rfl⟩
  · exact absurd (by rcases hreset with rfl | rfl <;> decide) hlevel
  · rw [if_pos hset]
    exact ⟨hpc, rfl⟩
  · rw [if_neg (not_not.mpr hclear)]
    exact ⟨hpc, setErrorAddress_not_pending (decide e.IsLevel2) (s.setErrorLevel e status)⟩

/-- A step of `s` raises `e`, in state `s₀`: in the fetch, or in the instruction fetched. -/
inductive Raises (M : Machine σ) (ticks : ℕ) (s : EeCore σ) (e : EeCoreException) (s₀ : EeCore σ) : Bool → Prop
  /-- `translate_address_inst` faults. -/
  | fetch {s₁ : EeCore σ} : s.check ticks = .ok s₀ → s₀.translateAddressInst s₀.pc = .exception e s₁ →
      Raises M ticks s e s₀ true
  /-- The instruction calls `handle_exception`. -/
  | instruction {sc s₁ : EeCore σ} {inst : EeCoreInstruction} {op : Operation σ} : s.check ticks = .ok sc →
      sc.fetch M = .ok (inst, s₀) → M.lookup inst = .ok op → op.run s₀ = .ok (.exception e s₁) →
      Raises M ticks s e s₀ false

/-- A faulting fetch ends the step with an error. -/
theorem fetch_ne_ok {M : Machine σ} {s s₁ : EeCore σ} {e : EeCoreException}
    (h : s.translateAddressInst s.pc = .exception e s₁) (p : EeCoreInstruction × EeCore σ) : s.fetch M ≠ .ok p := by
  intro hok
  unfold fetch at hok
  rw [h] at hok
  obtain ⟨t, -, hok⟩ := bind_eq_ok_iff.mp hok
  cases hok

/-- After an instruction raised an exception the step is its handling, `advance_pc` and the count update. -/
theorem timeStep_of_exception {M : Machine σ} {ticks : ℕ} {s sc s₀ s₁ : EeCore σ} {inst : EeCoreInstruction}
    {op : Operation σ} {e : EeCoreException} (hcheck : s.check ticks = .ok sc) (hfetch : sc.fetch M = .ok (inst, s₀))
    (hop : M.lookup inst = .ok op) (hrun : op.run s₀ = .ok (.exception e s₁)) (P : Uword → BranchDelaySlot → Prop) :
    (∃ s', s.timeStep M ticks = .ok s' ∧ P s'.pc s'.bdelay) ↔
      ∃ s₂, s₁.handleException e = .ok s₂ ∧ P s₂.advancePc.pc s₂.advancePc.bdelay := by
  simp only [timeStep, hcheck, hfetch, hop, hrun, ok_bind, Result.handled]
  constructor
  · rintro ⟨s', hs', hP⟩
    obtain ⟨⟨v, s₂⟩, hs₂, hs'⟩ := bind_eq_ok_iff.mp hs'
    obtain ⟨s₃, hs₃, hs₂⟩ := bind_eq_ok_iff.mp hs₂
    obtain ⟨rfl, rfl⟩ := Prod.mk.inj (Except.ok.inj hs₂)
    obtain ⟨count, cause, hcount⟩ := countUpdate_eq M ticks inst s₃.advancePc
    obtain rfl := Except.ok.inj (hcount.symm.trans hs')
    exact ⟨s₃, hs₃, hP⟩
  · rintro ⟨s₂, hs₂, hP⟩
    obtain ⟨count, cause, hcount⟩ := countUpdate_eq M ticks inst s₂.advancePc
    refine ⟨s₂.advancePc.setCop0 { s₂.advancePc.cop0 with count, cause }, ?_, hP⟩
    simp only [hs₂, ok_bind, pure_eq_ok]
    exact hcount

/-- In every state, for every instruction: a step that raises a level 1 exception ends at the vector with no branch
pending, if and only if the exception is not one of the fetch, `Status` has an operating context without `ERL`,
and with `EXL` set before it no branch was pending (or the branch went to the vector itself). -/
theorem precise_exceptions_iff {M : Machine σ} {ticks : ℕ} {s s₀ : EeCore σ} {e : EeCoreException} {inFetch : Bool}
    (h : Raises M ticks s e s₀ inFetch) (hlevel : ¬e.IsLevel2) (hint : e ≠ .exInterrupt) :
    (∃ s', s.timeStep M ticks = .ok s' ∧ s'.pc = vector e s₀.cop0.status ∧ ¬s'.bdelay.isBranchPending) ↔
      inFetch = false ∧
        ¬(s₀.cop0.status.extractField EeCoreCop0Status.exl = 0 ∧ s₀.cop0.status.extractField EeCoreCop0Status.ksu = 3) ∧
        (s₀.cop0.status.extractField EeCoreCop0Status.exl ≠ 0 → s₀.bdelay.isBranchPending →
          s₀.bdelay = ⟨1, vector e s₀.cop0.status⟩) := by
  cases h with
  | fetch hcheck hfault =>
    simp only [reduceCtorEq, false_and, iff_false, not_exists, not_and]
    intro s' hs'
    obtain ⟨sc, hsc, inst, s₁, hfetch, -⟩ := timeStep_eq_ok_iff.mp hs'
    obtain rfl := Except.ok.inj (hcheck.symm.trans hsc)
    exact absurd hfetch (fetch_ne_ok hfault _)
  | instruction hcheck hfetch hop hrun =>
    rename_i sc s₁ inst op
    have hun := Operation.unmoved_of_run hrun
    rw [timeStep_of_exception hcheck hfetch hop hrun
      (fun pc bdelay => pc = vector e s₀.cop0.status ∧ ¬bdelay.isBranchPending)]
    rw [← hun.status, ← hun.bdelay, ← handleException_returns_iff hlevel s₁]
    simp only [true_and]
    -- Where the handling returns, it decides how `advance_pc` goes on.
    have hstep (s₂ : EeCore σ) (hs₂ : s₁.handleException e = .ok s₂) :
        (s₂.advancePc.pc = vector e s₁.cop0.status ∧ ¬s₂.advancePc.bdelay.isBranchPending) ↔
          (s₁.cop0.status.extractField EeCoreCop0Status.exl ≠ 0 → s₁.bdelay.isBranchPending →
            s₁.bdelay = ⟨1, vector e s₁.cop0.status⟩) := by
      obtain ⟨hpc, hbdelay⟩ := handleException_leaves hs₂ hlevel hint
      refine (s₂.bdelay.advancePc_arrives_iff hpc).trans ?_
      by_cases hexl : s₁.cop0.status.extractField EeCoreCop0Status.exl ≠ 0
      · rw [if_pos hexl] at hbdelay
        rw [hbdelay]
        exact ⟨fun h _ => h, fun h => h hexl⟩
      · rw [if_neg hexl] at hbdelay
        exact ⟨fun _ h => absurd h hexl, fun _ h => absurd h hbdelay⟩
    constructor
    · rintro ⟨s₂, hs₂, harrives⟩
      exact ⟨⟨s₂, hs₂⟩, (hstep s₂ hs₂).mp harrives⟩
    · rintro ⟨⟨s₂, hs₂⟩, hcond⟩
      exact ⟨s₂, hs₂, (hstep s₂ hs₂).mpr hcond⟩

/-! ### `SYSCALL` in kernel mode -/

/-- A machine whose memory is `SYSCALL` throughout. -/
def syscallMachine : Machine Unit where
  busRead w _ _ := .ok (BitVec.ofNat w 0x0000000C, ())
  busWrite _ _ _ _ := .ok ()
  fpr _ _ := 0
  setFpr _ _ _ := ()
  setVf _ _ _ := ()
  csrC _ := 0
  other _ := none
  cpi _ := 9

/-- A core in kernel mode at `0x80001000`, with the `Status` and the delay slot given. -/
def inKernel (w : Uword) (bdelay : BranchDelaySlot) : EeCore Unit where
  pc := 0x80001000
  bdelay := bdelay
  data := ⟨fun _ => 0, ()⟩
  cop0 := { EeCoreCop0.initial with status := ⟨w, true, .kernel, false⟩ }
  tlb := fun _ => firstPages
  translationCacheData := .new ..
  translationCacheInst := .new ..

/-- A core in kernel mode after the fetch of its instruction. -/
def inKernelFetched (w : Uword) (bdelay : BranchDelaySlot) : EeCore Unit :=
  (inKernel w bdelay).setTranslationCache .instruction ((TimestampLruCache.new ..).insert 0x80001000 0x1000)

theorem raises_syscall (w : Uword) (bdelay : BranchDelaySlot) :
    Raises syscallMachine 1 (inKernel w bdelay) .exSystemcall (inKernelFetched w bdelay) false := by
  have htranslate : (inKernel w bdelay).translateAddressInst 0x80001000 = .value 0x1000 (inKernelFetched w bdelay) := rfl
  have hfetch : (inKernel w bdelay).fetch syscallMachine = .ok (⟨0x0000000C⟩, inKernelFetched w bdelay) := by
    unfold fetch
    rw [show (inKernel w bdelay).pc = 0x80001000 from rfl, htranslate]
    rfl
  have hop : syscallMachine.lookup ⟨0x0000000C⟩ = .ok (.data .syscall) := rfl
  exact .instruction rfl hfetch hop rfl

/-- `SYSCALL` in the delay slot of a branch to `0x80002000` with `EXL` set: the step ends at the target of the
branch, not at the vector. -/
theorem exception_in_delay_slot_lost :
    Raises syscallMachine 1 (inKernel 2 ⟨1, 0x80002000⟩) .exSystemcall (inKernelFetched 2 ⟨1, 0x80002000⟩) false ∧
      ∃ s', (inKernel 2 ⟨1, 0x80002000⟩).timeStep syscallMachine 1 = .ok s' ∧ s'.pc = 0x80002000 ∧
        vector .exSystemcall (inKernelFetched 2 ⟨1, 0x80002000⟩).cop0.status = 0x80000180 :=
  ⟨raises_syscall _ _, _, rfl, by decide, by decide⟩

/-- The same `SYSCALL` with `EXL` clear. -/
theorem precise_exceptions_iff_syscall :
    ∃ s', (inKernel 0 ⟨1, 0x80002000⟩).timeStep syscallMachine 1 = .ok s' ∧
      s'.pc = vector .exSystemcall (inKernelFetched 0 ⟨1, 0x80002000⟩).cop0.status ∧ ¬s'.bdelay.isBranchPending :=
  (precise_exceptions_iff (raises_syscall 0 ⟨1, 0x80002000⟩) (by decide) (by decide)).mpr
    ⟨rfl, by decide, fun h => absurd rfl h⟩

/-! ### A fault of the fetch -/

/-- `s'` has entered the handler of `e`, which the fetch raised in `s₀`: the next fetch is at the vector, COP0 tells
the address and the cause, and nothing but COP0 and the program counter has changed. -/
structure TakesFetchFault (e : EeCoreException) (s₀ s' : EeCore σ) : Prop where
  /-- The program counter. -/
  pc : s'.pc = vector e s₀.cop0.status
  /-- No branch takes it away from there. -/
  notPending : ¬s'.bdelay.isBranchPending
  /-- Where to return to, unless an exception is already being handled. -/
  epc : s₀.cop0.status.extractField EeCoreCop0Status.exl = 0 →
    s'.cop0.epc = if s₀.bdelay.isBranchPending then s₀.pc - 4 else s₀.pc
  /-- The faulting address. -/
  badvaddr : s'.cop0.badvaddr = s₀.pc
  /-- The code of the exception. -/
  exccode : EeCoreCop0Cause.exccode.extractFrom s'.cop0.cause.merged = BitVec.ofNat 32 e.code
  /-- The exception level. -/
  exl : s'.cop0.status.extractField EeCoreCop0Status.exl = 1
  /-- The general registers, the memory and the devices. -/
  data : s'.data = s₀.data
  /-- The TLB. -/
  tlb : s'.tlb = s₀.tlb

/-- A step whose fetch faults handles the exception and then throws. -/
theorem timeStep_of_fetch_fault {M : Machine σ} {ticks : ℕ} {s s₀ s₁ : EeCore σ} {e : EeCoreException}
    (hcheck : s.check ticks = .ok s₀) (hfault : s₀.translateAddressInst s₀.pc = .exception e s₁) :
    s.timeStep M ticks = s₁.handleException e >>= fun _ => .error .badOptionalAccess := by
  simp only [timeStep, hcheck, ok_bind, fetch, hfault]
  cases s₁.handleException e <;> rfl

/-- Whatever the fault of the fetch, the step enters no handler. -/
theorem fetch_fault_aborts {M : Machine σ} {ticks : ℕ} {s s₀ s₁ : EeCore σ} {e : EeCoreException}
    (hcheck : s.check ticks = .ok s₀) (hfault : s₀.translateAddressInst s₀.pc = .exception e s₁) :
    ¬∃ s', s.timeStep M ticks = .ok s' ∧ TakesFetchFault e s₀ s' := by
  rintro ⟨s', hs', -⟩
  rw [timeStep_of_fetch_fault hcheck hfault] at hs'
  obtain ⟨s₂, -, hs₂⟩ := bind_eq_ok_iff.mp hs'
  cases hs₂

/-- A core in user mode whose program counter is in the kernel's segment. -/
def userAtKernelAddress : EeCore Unit where
  pc := 0x80001000
  bdelay := ⟨0, 0⟩
  data := ⟨fun _ => 0, ()⟩
  cop0 := { EeCoreCop0.initial with status := ⟨0x10, true, .user, false⟩ }
  tlb := fun _ => firstPages
  translationCacheData := .new ..
  translationCacheInst := .new ..

/-- A jump of a user program into the kernel's segment ends the run. -/
theorem fetch_fault_not_taken :
    ¬∀ (s s₀ s₁ : EeCore Unit) (e : EeCoreException), s.check 1 = .ok s₀ →
      s₀.translateAddressInst s₀.pc = .exception e s₁ →
      ∃ s', s.timeStep syscallMachine 1 = .ok s' ∧ TakesFetchFault e s₀ s' := by
  intro h
  obtain ⟨s', hs', -⟩ := h userAtKernelAddress userAtKernelAddress _ _ rfl rfl
  cases hs'

/-- The same jump. -/
theorem fetch_fault_aborts_user :
    ¬∃ s', userAtKernelAddress.timeStep syscallMachine 1 = .ok s' ∧
      TakesFetchFault .exAddressErrorInstructionFetchLoad userAtKernelAddress s' := by
  have hfault : userAtKernelAddress.translateAddressInst userAtKernelAddress.pc =
      .exception .exAddressErrorInstructionFetchLoad (userAtKernelAddress.mmuError 0x80001000) := rfl
  exact fetch_fault_aborts rfl hfault

end EeCore

end Orbum
