import Orbum.Ee.Core.Agree
import Orbum.Ee.Core.PreciseExceptions
import Orbum.Ee.Core.TranslationTransparency

/-!
# Transparency of interrupts

An interrupt taken between two instructions, answered by a handler that is only `ERET`. The core comes back with
everything as it was but `Cause`, `EPC`, `Count` and the translation caches: `EPC` is where it was interrupted,
`ERET` clears every interrupt line, and the step of the handler may count. Between a branch and its delay slot it
comes back at the branch, and running that again makes the branch pending again.

From there the run goes on as the uninterrupted one would, as long as no instruction reads one of the three
registers where they differ, the interrupt checks decide alike, and the translation caches do not show.
-/

namespace Orbum

namespace EeCore

variable {σ : Type}

/-! ### Into the handler and out of it -/

/-- `ERET`. -/
def eretInst : EeCoreInstruction := ⟨0x42000018⟩

/-- Where the interrupt handler starts, as a physical address. -/
def handlerAddress (status : EeCoreCop0Status) : Uptr :=
  vector .exInterrupt status &&& 0x1FFFFFFF

/-- What an interrupt writes to `EPC`. -/
def resumePc (s : EeCore σ) : Uword := if s.bdelay.isBranchPending then s.pc - 4 else s.pc

/-- The delay slot an interrupt leaves. -/
def resumeBdelay (s : EeCore σ) : BranchDelaySlot :=
  if s.bdelay.isBranchPending then s.bdelay.stopBranch else s.bdelay

/-- The core at the start of the handler. -/
def entered (s : EeCore σ) (status : EeCoreCop0Status) (cause : EeCoreCop0Cause) : EeCore σ :=
  ((((s.setBdelay s.resumeBdelay).setHidden cause s.resumePc s.cop0.count).setStatus status).setPc
    (vector .exInterrupt s.cop0.status)).flush

/-- The core back from the handler. -/
def returned (s : EeCore σ) (cause : EeCoreCop0Cause) (count : Uword) : EeCore σ :=
  (((s.setBdelay s.resumeBdelay).setPc s.resumePc).setHidden cause s.resumePc count).flush

/-- `Status` is in step with its derived values, and neither `EXL` nor `ERL` is set. -/
structure Interruptible (status : EeCoreCop0Status) : Prop where
  /-- The derived values are up to date. -/
  synced : status.Synced
  /-- `EXL`. -/
  exl : status.extractField EeCoreCop0Status.exl = 0
  /-- `ERL`. -/
  erl : status.extractField EeCoreCop0Status.erl = 0

/-- Writing back the value of a field gives the same register. -/
theorem insertField_same {status : EeCoreCop0Status} (h : status.Synced) {f : Bitfield}
    (hf : status.extractField f = 0) : status.insertField f 0 = .ok status := by
  have hw : f.insertInto status.w 0 = status.w := by
    rw [← hf]
    exact f.insertInto_extractFrom status.w
  rw [EeCoreCop0Status.insertField, hw]
  exact EeCoreCop0Status.writeUword_of_synced h

theorem handleException_interrupt {s : EeCore σ} (h : Interruptible s.cop0.status) :
    ∃ status cause, s.cop0.status.insertField EeCoreCop0Status.exl 1 = .ok status ∧
      s.handleException .exInterrupt = .ok (s.entered status cause) := by
  obtain ⟨status, hst, -⟩ := s.cop0.status.insertField_exl_one
  refine ⟨status, ((s.setErrorLevel .exInterrupt s.cop0.status).setErrorAddress false).cop0.cause, hst, ?_⟩
  have herl : s.cop0.status.insertField EeCoreCop0Status.erl (if EeCoreException.exInterrupt.IsLevel2 then 1 else 0) =
      .ok s.cop0.status := insertField_same h.synced h.erl
  have hreset : ¬(EeCoreException.exInterrupt = .exReset ∨ EeCoreException.exInterrupt = .exNmi) := by decide
  unfold handleException
  simp only [herl, ok_bind, if_neg hreset, h.exl, ne_eq, not_true, if_false, hst]
  rfl

/-- `ERET` takes back the `EXL` that an interrupt set. -/
theorem eret_of_entered {s : EeCore σ} {status : EeCoreCop0Status} (h : Interruptible status)
    (hs : s.cop0.status.w = EeCoreCop0Status.exl.insertInto status.w 1) :
    s.eret = .ok (.value () (((s.setPc (s.cop0.epc - 4)).setCop0
      { s.cop0 with status, cause := s.cop0.cause.clearAllIrq }).flush)) := by
  have herl : s.cop0.status.extractField EeCoreCop0Status.erl = 0 := by
    rw [EeCoreCop0Status.extractField, hs,
      EeCoreCop0Status.extractFrom_insertInto_exl (f := EeCoreCop0Status.erl) (by decide)]
    exact h.erl
  have hexl : s.cop0.status.insertField EeCoreCop0Status.exl 0 = .ok status := by
    have hw : EeCoreCop0Status.exl.insertInto s.cop0.status.w 0 = EeCoreCop0Status.exl.insertInto status.w 0 := by
      rw [hs, Bitfield.insertInto_insertInto]
    rw [EeCoreCop0Status.insertField, hw]
    exact insertField_same h.synced h.exl
  unfold eret
  simp only [herl, BitVec.lt_irrefl, if_false, hexl, ok_bind]
  rfl

/-- A fetch of an unmapped or mapped word with the instruction cache flushed. -/
theorem fetch_flushed {M : Machine σ} {s : EeCore σ} {inst : EeCoreInstruction} {pa : Uptr}
    (hcache : s.translationCacheInst = .new ..) (hwalk : walk s.cop0 s.tlb s.pc .read = .ok pa)
    (hbus : M.busRead 32 pa s.data.rest = .ok (inst.value, s.data.rest)) :
    ∃ cache, s.fetch M = .ok (inst, s.setTranslationCache .instruction cache) := by
  have hmiss : (s.translationCache .instruction).find (cacheKey s.pc) = none := by
    change s.translationCacheInst.find (cacheKey s.pc) = none
    rw [hcache]
    rfl
  have hanswer := lookup_answer_of_miss .read hmiss
  rw [hwalk] at hanswer
  have hlookup := lookup_of_miss .read hmiss
  unfold fetch translateAddressInst
  cases hw : walk s.cop0 s.tlb (cacheKey s.pc) .read with
  | error e =>
    rw [hlookup, hw] at hanswer
    cases hanswer
  | ok page =>
    rw [hw] at hlookup
    rw [hlookup] at hanswer ⊢
    obtain rfl := Except.ok.inj hanswer
    refine ⟨(s.translationCache .instruction).insert (cacheKey s.pc) page, ?_⟩
    change (M.busRead 32 _ s.data.rest >>= _) = _
    rw [hbus]
    rfl

theorem vector_interrupt {status : EeCoreCop0Status} (h : status.extractField EeCoreCop0Status.exl = 0) :
    vector .exInterrupt status = 0x80000200 ∨ vector .exInterrupt status = 0xBFC00400 := by
  unfold vector exceptionVectorBase
  simp only [h]
  split_ifs
  · exact .inr rfl
  · exact .inl rfl

/-- In kernel mode the interrupt vector is unmapped. -/
theorem walk_vector {c : EeCoreCop0} {status : EeCoreCop0Status} (hkernel : c.status.operatingContext = .kernel)
    (hexl : status.extractField EeCoreCop0Status.exl = 0) (tlb : EeCoreTlb) :
    walk c tlb (vector .exInterrupt status) .read = .ok (handlerAddress status) := by
  rw [handlerAddress]
  rcases vector_interrupt hexl with hv | hv <;> rw [hv] <;> simp [walk, InSegment, unmapped, hkernel]

theorem resumeBdelay_not_pending (s : EeCore σ) : ¬s.resumeBdelay.isBranchPending := by
  unfold resumeBdelay
  split_ifs with hp
  · exact Nat.lt_irrefl 0
  · exact hp

theorem advancePc_of_not_pending {s : EeCore σ} (h : ¬s.bdelay.isBranchPending) : s.advancePc = s.setPc (s.pc + 4) := by
  unfold advancePc
  rw [BranchDelaySlot.advancePc_of_not_pending h]
  rfl

/-- An interrupt and the step of its handler. -/
theorem interrupt_returns {M : Machine σ} {s : EeCore σ} (h : Interruptible s.cop0.status)
    (hbus : M.busRead 32 (handlerAddress s.cop0.status) s.data.rest = .ok (eretInst.value, s.data.rest)) (ticks : ℕ) :
    ∃ cause count, (s.handleException .exInterrupt >>= timeStep M ticks) = .ok (s.returned cause count) ∧
      (ticks % 16 ≠ 0 → ∀ i, cause.irqLines i = false) := by
  obtain ⟨status, cause, hst, hentered⟩ := handleException_interrupt h
  obtain ⟨hsync, hw⟩ := EeCoreCop0Status.synced_of_writeUword hst
  have hexl : EeCoreCop0Status.exl.extractFrom status.w = 1 := by
    rw [hw]
    exact EeCoreCop0Status.exl_insertInto_one _
  have hkernel : status.operatingContext = .kernel :=
    Except.ok.inj (hsync.context.symm.trans (EeCoreCop0Status.contextOf_of_exl hexl))
  have hmasked : status.interruptsMasked = true := by
    rw [hsync.masked, EeCoreCop0Status.maskedOf, hexl]
    simp
  have hcheck : (s.entered status cause).check ticks = .ok (s.entered status cause) := by
    have hm : (s.entered status cause).cop0.status.interruptsMasked = true := hmasked
    simp [check, handleInterruptCheck, hm]
  obtain ⟨cache, hfetch⟩ := fetch_flushed (s := s.entered status cause) rfl (walk_vector hkernel h.exl s.tlb) hbus
  have hop : M.lookup eretInst = .ok (.system .eret) := rfl
  have hrun := eret_of_entered (s := (s.entered status cause).setTranslationCache .instruction cache) h hw
  -- `ERET` leaves the program counter 4 before the address it returns to, and `advance_pc` adds them.
  have hadvance : (((((s.entered status cause).setTranslationCache .instruction cache).setPc (s.resumePc - 4)).setCop0
      { ((s.entered status cause).setTranslationCache .instruction cache).cop0 with
        status := s.cop0.status, cause := cause.clearAllIrq }).flush).advancePc =
      s.returned cause.clearAllIrq s.cop0.count := by
    rw [advancePc_of_not_pending (by exact s.resumeBdelay_not_pending)]
    have hpc : s.resumePc - 4 + 4 = s.resumePc := BitVec.sub_add_cancel _ _
    simp only [flush_pc, setCop0_pc, setPc_pc, hpc]
    rfl
  have hstep : (s.entered status cause).timeStep M ticks =
      (s.returned cause.clearAllIrq s.cop0.count).countUpdate M ticks eretInst := by
    simp only [timeStep, hcheck, hfetch, hop, ok_bind, Operation.run, SystemOp.run, hrun, Result.handled]
    exact congrArg (countUpdate M ticks eretInst) hadvance
  rw [hentered, ok_bind, hstep]
  by_cases ht : ticks % 16 = 0
  · obtain ⟨count, cause', hcount⟩ := countUpdate_eq M ticks eretInst (s.returned cause.clearAllIrq s.cop0.count)
    exact ⟨cause', count, hcount, fun h => absurd ht h⟩
  · refine ⟨cause.clearAllIrq, s.cop0.count, ?_, fun _ _ => rfl⟩
    simp [countUpdate, ht]

/-! ### Pending branches -/

/-- The program counter and the delay slot are as before. -/
def SamePlace (s t : EeCore σ) : Prop := t.pc = s.pc ∧ t.bdelay = s.bdelay

theorem samePlace_of_whenCop0Usable {s : EeCore σ} {k : EeCore σ → Except HostError (EeCore σ)} {r : Result σ Unit}
    (hk : ∀ t, k s = .ok t → SamePlace s t) (h : s.whenCop0Usable k = .ok r) : SamePlace s r.state := by
  cases r with
  | value u t => exact hk t (of_whenCop0Usable h)
  | exception e t =>
    unfold whenCop0Usable handleCopUsable at h
    split_ifs at h
    · obtain ⟨t', -, h⟩ := bind_eq_ok_iff.mp h
      cases h
    · exact (Result.exception.inj (Except.ok.inj h)).2 ▸ ⟨rfl, rfl⟩

theorem samePlace_of_setEie {s : EeCore σ} {value : Uword} {r : Result σ Unit} (h : s.setEie value = .ok r) :
    SamePlace s r.state := by
  unfold setEie at h
  split_ifs at h
  · obtain ⟨status, -, h⟩ := bind_eq_ok_iff.mp h
    exact Except.ok.inj h ▸ ⟨rfl, rfl⟩
  · exact Except.ok.inj h ▸ ⟨rfl, rfl⟩

theorem samePlace_of_writeTlbEntry {s t : EeCore σ} {index : Uword} (h : s.writeTlbEntry index = .ok t) :
    SamePlace s t := by
  obtain ⟨entry, -, h⟩ := bind_eq_ok_iff.mp h
  obtain ⟨tlb, -, h⟩ := bind_eq_ok_iff.mp h
  exact Except.ok.inj h ▸ ⟨rfl, rfl⟩

/-- System control but `ERET` leaves the program counter and the delay slot alone. -/
theorem samePlace_of_systemRun {op : SystemOp} {s : EeCore σ} {r : Result σ Unit} (hop : op ≠ .eret)
    (h : op.run s = .ok r) : SamePlace s r.state := by
  cases op with
  | mfc0 rt rd =>
    refine samePlace_of_whenCop0Usable (fun t ht => ?_) h
    exact Except.ok.inj ht ▸ ⟨rfl, rfl⟩
  | mtc0 rt rd =>
    refine samePlace_of_whenCop0Usable (fun t ht => ?_) h
    obtain ⟨cop0, -, ht⟩ := bind_eq_ok_iff.mp ht
    exact Except.ok.inj ht ▸ ⟨rfl, rfl⟩
  | tlbr =>
    refine samePlace_of_whenCop0Usable (fun t ht => ?_) h
    obtain ⟨entry, -, ht⟩ := bind_eq_ok_iff.mp ht
    exact Except.ok.inj ht ▸ ⟨rfl, rfl⟩
  | tlbwi =>
    refine samePlace_of_whenCop0Usable (fun t ht => ?_) h
    exact samePlace_of_writeTlbEntry ht
  | tlbwr =>
    refine samePlace_of_whenCop0Usable (fun t ht => ?_) h
    exact samePlace_of_writeTlbEntry ht
  | tlbp =>
    refine samePlace_of_whenCop0Usable (fun t ht => ?_) h
    cases hp : probe s.cop0 s.tlb with
    | none =>
      rw [hp] at ht
      exact Except.ok.inj ht ▸ ⟨rfl, rfl⟩
    | some value =>
      rw [hp] at ht
      exact Except.ok.inj ht ▸ ⟨rfl, rfl⟩
  | eret => exact absurd rfl hop
  | ei => exact samePlace_of_setEie h
  | di => exact samePlace_of_setEie h

/-- System control leaves the delay slot alone. -/
theorem bdelay_of_systemRun {op : SystemOp} {s : EeCore σ} {r : Result σ Unit} (h : op.run s = .ok r) :
    r.state.bdelay = s.bdelay := by
  by_cases hop : op = .eret
  · subst hop
    obtain ⟨status, -, h⟩ := bind_eq_ok_iff.mp h
    exact Except.ok.inj h ▸ rfl
  · exact (samePlace_of_systemRun hop h).2

/-- `handle_exception` leaves the delay slot alone or stops the branch. -/
theorem currentSlot_of_handleException {e : EeCoreException} {s s' : EeCore σ} (h : s.handleException e = .ok s') :
    s'.bdelay.currentSlot ≤ s.bdelay.currentSlot := by
  have haddress (level2 : Bool) (status : EeCoreCop0Status) :
      ((s.setErrorLevel e status).setErrorAddress level2).bdelay.currentSlot ≤ s.bdelay.currentSlot := by
    unfold setErrorAddress
    simp only
    split_ifs
    · exact Nat.zero_le _
    · exact Nat.le_refl _
  obtain ⟨status, -, ⟨-, rfl⟩ | ⟨-, -, rfl⟩ | ⟨-, -, status', -, rfl⟩⟩ := handleException_cases h
  · exact haddress (decide e.IsLevel2) status
  · exact Nat.le_refl _
  · exact haddress (decide e.IsLevel2) status

theorem currentSlot_of_handled {r : Result σ Unit} {v : Option Unit} {s : EeCore σ} (h : r.handled = .ok (v, s)) :
    s.bdelay.currentSlot ≤ r.state.bdelay.currentSlot := by
  cases r with
  | value u t =>
    obtain ⟨-, rfl⟩ := Prod.mk.inj (Except.ok.inj h)
    exact Nat.le_refl _
  | exception e t =>
    obtain ⟨t', ht', h⟩ := bind_eq_ok_iff.mp h
    obtain ⟨-, rfl⟩ := Prod.mk.inj (Except.ok.inj h)
    exact currentSlot_of_handleException ht'

/-- The core after a taken branch, before `advance_pc`. -/
def branched (b : Branch σ) (s : EeCore σ) : EeCore σ :=
  (s.setData (b.linked s.pc s.data)).setBdelay (b.setBranch s.pc s.bdelay (b.linked s.pc s.data))

/-- A branch that runs is taken, in the state given. -/
structure Takes (b : Branch σ) (s : EeCore σ) : Prop where
  /-- Its coprocessor is usable. -/
  usable : ∀ cop, b.usable = some cop → isUsable s.cop0 cop = true
  /-- Its condition holds. -/
  taken : b.taken s.data

theorem branch_of_taken {b : Branch σ} {s : EeCore σ} (h : b.taken s.data) : b.branch s = branched b s := by
  unfold Branch.branch
  rw [if_pos h]
  rfl

/-- A branch that finds its coprocessor usable. -/
theorem run_of_usable {b : Branch σ} {s : EeCore σ} (h : ∀ cop, b.usable = some cop → isUsable s.cop0 cop = true) :
    b.run s = .ok (.value () (b.branch s)) := by
  unfold Branch.run
  cases hb : b.usable with
  | none => rfl
  | some cop =>
    rcases handleCopUsable_cases cop s with ⟨-, hu⟩ | ⟨hn, -⟩
    · simp only [hu]
    · rw [h cop hb] at hn
      cases hn

theorem run_of_takes {b : Branch σ} {s : EeCore σ} (h : Takes b s) : b.run s = .ok (.value () (branched b s)) := by
  rw [run_of_usable h.usable, branch_of_taken h.taken]

/-- Only a taken branch sets the delay slot. -/
theorem currentSlot_le_or_takes {op : Operation σ} {s s₁ : EeCore σ} {r : Result σ Unit} {v : Option Unit}
    (hrun : op.run s = .ok r) (hr : r.handled = .ok (v, s₁)) :
    s₁.bdelay.currentSlot ≤ s.bdelay.currentSlot ∨ ∃ b, op = .branch b ∧ Takes b s ∧ s₁ = branched b s := by
  have hle := currentSlot_of_handled hr
  cases op with
  | data m => exact .inl ((Micro.unmoved_of_run hrun).bdelay ▸ hle)
  | system sys => exact .inl (bdelay_of_systemRun hrun ▸ hle)
  | branch b =>
    by_cases ht : Takes b s
    · have hb : b.run s = .ok r := hrun
      rw [run_of_takes ht] at hb
      obtain rfl := Except.ok.inj hb
      obtain ⟨-, rfl⟩ := Prod.mk.inj (Except.ok.inj hr)
      exact .inr ⟨b, rfl, ht, rfl⟩
    · refine .inl (Nat.le_trans hle ?_)
      have hbranch (hn : ¬b.taken s.data) : (b.branch s).bdelay.currentSlot ≤ s.bdelay.currentSlot := by
        unfold Branch.branch
        rw [if_neg hn]
        split_ifs
        · exact Nat.le_trans (s.bdelay.advancePc_currentSlot_le s.pc) (Nat.sub_le _ _)
        · exact Nat.le_refl _
      simp only [Operation.run, Branch.run] at hrun
      cases hb : b.usable with
      | none =>
        simp only [hb] at hrun
        obtain rfl := Except.ok.inj hrun
        exact hbranch fun htaken => ht ⟨by simp [hb], htaken⟩
      | some cop =>
        rcases handleCopUsable_cases cop s with ⟨hu', hu⟩ | ⟨-, s', hu, hs'⟩
        · simp only [hb, hu] at hrun
          obtain rfl := Except.ok.inj hrun
          exact hbranch fun htaken => ht ⟨by simpa [hb] using hu', htaken⟩
        · simp only [hb, hu] at hrun
          obtain rfl := Except.ok.inj hrun
          exact Nat.le_of_eq (congrArg _ hs'.bdelay)

/-- What a fetch that returns has done. -/
theorem fetch_cases {M : Machine σ} {s s₀ : EeCore σ} {inst : EeCoreInstruction} (h : s.fetch M = .ok (inst, s₀)) :
    ∃ pa cache rest, (s.translateAddressInst s.pc).answer = .ok pa ∧
      M.busRead 32 pa s.data.rest = .ok (inst.value, rest) ∧
      s₀ = (s.setTranslationCache .instruction cache).setData { s.data with rest } := by
  unfold fetch at h
  rcases lookup_cases s .instruction s.pc .read with ⟨pa, cache, hl⟩ | ⟨e, -, hl⟩
  · have hl : s.translateAddressInst s.pc = .value pa (s.setTranslationCache .instruction cache) := hl
    rw [hl] at h ⊢
    obtain ⟨⟨word, rest⟩, hbus, h⟩ := bind_eq_ok_iff.mp h
    obtain ⟨rfl, rfl⟩ := Prod.mk.inj (Except.ok.inj h)
    exact ⟨pa, cache, rest, rfl, hbus, rfl⟩
  · have hl : s.translateAddressInst s.pc = .exception e (s.mmuError (cacheKey s.pc)) := hl
    rw [hl] at h
    obtain ⟨t, -, h⟩ := bind_eq_ok_iff.mp h
    cases h

/-- The instruction a step fetches can be fetched again, and run again if it is a branch: the fetch is not
answered from a stale cache and has no side effect, and the branch is not self linking. -/
def Repeatable (M : Machine σ) (ticks : ℕ) (u : EeCore σ) : Prop :=
  ∀ sc inst u₀, u.check ticks = .ok sc → sc.fetch M = .ok (inst, u₀) →
    (MmuOp.inst sc.pc).Transparent sc ∧ u₀.data = sc.data ∧ ∀ b, M.lookup inst = .ok (.branch b) → ¬b.SelfLinking

/-- `s` is a state between two instructions: if a branch is pending in it, the step that led here has set it. -/
def BetweenInstructions (M : Machine σ) (s : EeCore σ) : Prop :=
  s.bdelay.isBranchPending → ∃ ticks u, u.bdelay.currentSlot ≤ 1 ∧ u.timeStep M ticks = .ok s ∧ Repeatable M ticks u

/-- The branch pending in `s`: the one that `inst` is, taken in `w`. -/
structure PendingFrom (M : Machine σ) (s w : EeCore σ) (inst : EeCoreInstruction) (b : Branch σ) : Prop where
  /-- `inst` is the branch. -/
  lookup : M.lookup inst = .ok (.branch b)
  /-- It can be run again. -/
  not_selfLinking : ¬b.SelfLinking
  /-- It is taken. -/
  takes : Takes b w
  /-- It can be fetched again. -/
  fetch : ∃ pa, walk w.cop0 w.tlb w.pc .read = .ok pa ∧ M.busRead 32 pa w.data.rest = .ok (inst.value, w.data.rest)
  /-- It has led to `s`. -/
  agree : Agree (branched b w).advancePc.flush s.flush

theorem pending_cases {M : Machine σ} {s : EeCore σ} (h : BetweenInstructions M s) (hp : s.bdelay.isBranchPending) :
    ∃ w inst b, PendingFrom M s w inst b := by
  obtain ⟨ticks, u, hslot, hstep, hrepeat⟩ := h hp
  obtain ⟨sc, hcheck, inst, w, hfetch, op, hop, r, hrun, v, s₁, hr, hcount⟩ := timeStep_eq_ok_iff.mp hstep
  obtain ⟨s', hcount', hagree⟩ := countUpdate_cases M ticks inst s₁.advancePc
  obtain rfl := Except.ok.inj (hcount'.symm.trans hcount)
  obtain ⟨htransparent, hdata, hself⟩ := hrepeat sc inst w hcheck hfetch
  obtain ⟨pa, cache, rest, hanswer, hbus, rfl⟩ := fetch_cases hfetch
  have hsc : sc.bdelay.currentSlot ≤ 1 := by
    obtain ⟨u', hu', ⟨-, hi⟩ | ⟨-, hn⟩⟩ := check_cases ticks u
    · rw [hi] at hcheck
      exact Nat.le_trans (currentSlot_of_handleException hcheck) (hu'.bdelay ▸ hslot)
    · rw [hn] at hcheck
      obtain rfl := Except.ok.inj hcheck
      exact hu'.bdelay ▸ hslot
  -- `advance_pc` takes a branch that is one instruction away, so the pending one is new.
  rcases currentSlot_le_or_takes hrun hr with hle | ⟨b, rfl, htakes, rfl⟩
  · have hle' : s₁.bdelay.currentSlot ≤ 1 := Nat.le_trans hle hsc
    have hadvance : s₁.advancePc.bdelay.currentSlot ≤ s₁.bdelay.currentSlot - 1 :=
      s₁.bdelay.advancePc_currentSlot_le s₁.pc
    have hp : 0 < s₁.advancePc.bdelay.currentSlot := hagree.bdelay ▸ hp
    omega
  · have hrest : rest = sc.data.rest := congrArg EeData.rest hdata
    have hwalk : walk sc.cop0 sc.tlb sc.pc .read = .ok pa := by
      rw [← translateAddressFallback_answer, ← hanswer]
      exact htransparent.symm
    exact ⟨_, inst, b, hop, hself b hop, htakes, ⟨pa, hwalk, by rw [hrest] at hbus ⊢; exact hbus⟩, hagree.flush⟩

theorem agree_branched {s t : EeCore σ} (b : Branch σ) (h : Agree s t) : Agree (branched b s) (branched b t) := by
  unfold branched
  rw [h.data, h.pc, h.bdelay]
  exact (h.setData _).setBdelay _

theorem not_interruptPending_of_clear {s : EeCore σ} (h : ∀ i, s.cop0.cause.irqLines i = false) :
    ¬s.InterruptPending := by
  unfold InterruptPending
  rw [not_not]
  refine BitVec.eq_of_getLsbD_eq fun i hi => ?_
  change _ = (0#32).getLsbD i
  rw [BitVec.getLsbD_and, BitVec.getLsbD_zero]
  by_cases h8 : i < 8
  · have hline := s.cop0.cause.getLsbD_ip_merged ⟨i, h8⟩
    rw [h] at hline
    have hline : (s.cop0.cause.extractField EeCoreCop0Cause.ip).1.getLsbD i = false := hline
    rw [hline, Bool.false_and]
  · have hzero : (s.cop0.cause.extractField EeCoreCop0Cause.ip).1.getLsbD i = false := by
      change (EeCoreCop0Cause.ip.extractFrom s.cop0.cause.merged).getLsbD i = false
      rw [Bitfield.getLsbD_extractFrom]
      simp [EeCoreCop0Cause.ip, h8]
    rw [hzero, Bool.false_and]

/-- Back from the handler at the branch, the next step makes it pending again. -/
theorem branch_again {M : Machine σ} {s w : EeCore σ} {inst : EeCoreInstruction} {b : Branch σ}
    (hp : s.bdelay.isBranchPending) (h : PendingFrom M s w inst b) {cause : EeCoreCop0Cause} {count : Uword} {ticks : ℕ}
    (hcheck : ¬Interrupted ticks (s.returned cause count)) :
    ∃ t, (s.returned cause count).timeStep M ticks = .ok t ∧ Agree s.flush t.flush := by
  obtain ⟨pa, hwalk, hbus⟩ := h.fetch
  have hpc : s.resumePc = w.pc := by
    rw [resumePc, if_pos hp, show s.pc = _ from h.agree.pc]
    have hslot := b.setBranch_currentSlot w.pc w.bdelay (b.linked w.pc w.data)
    have hadvance : (branched b w).advancePc.pc = w.pc + 4 := by
      simp [advancePc, branched, BranchDelaySlot.advancePc, hslot]
    exact hadvance ▸ BitVec.add_sub_cancel _ _
  -- `y` is the core at the branch, up to what the interrupt has changed.
  obtain ⟨y, hy⟩ : ∃ y, y = ((w.setData (b.linked w.pc w.data)).setBdelay s.resumeBdelay).flush := ⟨_, rfl⟩
  have hyt : Agree y (s.returned cause count) := by
    have hset := (h.agree.setBdelay s.resumeBdelay).setPc s.resumePc
    refine Agree.trans ?_ (hset.trans ⟨cause, s.resumePc, count, rfl⟩)
    rw [hy, hpc]
    exact .refl _
  obtain ⟨t₂, ht₂, ⟨hi, -⟩ | ⟨-, hchecked⟩⟩ := check_cases ticks (s.returned cause count)
  · exact absurd hi hcheck
  have hyt₂ : Agree y t₂ := hyt.trans ht₂
  have hpc₂ : t₂.pc = w.pc := hyt₂.pc.trans (by rw [hy]; rfl)
  have hdata₂ : t₂.data = b.linked w.pc w.data := hyt₂.data.trans (by rw [hy]; rfl)
  obtain ⟨cache, hfetch⟩ : ∃ cache, t₂.fetch M = .ok (inst, t₂.setTranslationCache .instruction cache) := by
    have hcache : t₂.translationCacheInst = .new .. :=
      (hyt₂.translationCache .instruction).trans (by rw [hy]; rfl)
    have hwalk₂ : walk t₂.cop0 t₂.tlb t₂.pc .read = .ok pa := by
      rw [hyt₂.walk, hpc₂, hy]
      exact hwalk
    refine fetch_flushed hcache hwalk₂ ?_
    rw [hdata₂, b.rest_linked]
    exact hbus
  have htakes : Takes b (t₂.setTranslationCache .instruction cache) := by
    refine ⟨fun cop hcop => ?_, ?_⟩
    · rw [← h.takes.usable cop hcop]
      exact (hyt₂.isUsable cop).trans (by rw [hy]; rfl)
    · change b.taken t₂.data
      rw [hdata₂]
      exact (Branch.taken_linked_iff h.not_selfLinking w.pc w.data).mpr h.takes.taken
  obtain ⟨t, hcount, ht⟩ :=
    countUpdate_cases M ticks inst (branched b (t₂.setTranslationCache .instruction cache)).advancePc
  refine ⟨t, ?_, ?_⟩
  · unfold timeStep
    simp only [hchecked, hfetch, h.lookup, ok_bind, Operation.run, run_of_takes htakes, Result.handled]
    exact hcount
  · have hagain : (branched b (y.setTranslationCache .instruction cache)).flush = (branched b w).flush := by
      rw [hy]
      change (setBdelay _ (b.setBranch w.pc s.resumeBdelay (b.linked w.pc (b.linked w.pc w.data)))).flush = _
      change ((w.setData (b.linked w.pc (b.linked w.pc w.data))).setBdelay _).flush = _
      rw [b.linked_linked, b.setBranch_congr w.pc s.resumeBdelay w.bdelay]
      rfl
    have hst := ((agree_branched b (hyt₂.setTranslationCache .instruction cache)).advancePc).flush
    rw [show (branched b (y.setTranslationCache .instruction cache)).advancePc.flush = (branched b w).advancePc.flush
      from congrArg advancePc hagain] at hst
    exact h.agree.symm.trans (hst.trans ht.flush)

/-! ### The interrupted run and the other one -/

/-- The same core up to `Cause`, `EPC`, `Count` and the translation caches. -/
def Same (s t : EeCore σ) : Prop := Agree s.flush t.flush

/-- The translation caches do not show in a step. -/
def CacheTransparent (M : Machine σ) (ticks : ℕ) (s : EeCore σ) : Prop :=
  ExceptRel (fun s' t' => s'.flush = t'.flush) (s.timeStep M ticks) (s.flush.timeStep M ticks)

/-- What two steps from the same core need to lead to the same core. -/
structure Comparable (M : Machine σ) (m n : ℕ) (s t : EeCore σ) : Prop where
  /-- The caches of the one do not show. -/
  left : CacheTransparent M m s
  /-- Nor those of the other. -/
  right : CacheTransparent M n t
  /-- The interrupt checks decide alike. -/
  interrupts : Interrupted m s ↔ Interrupted n t
  /-- The instruction reads `Cause`, `EPC` and `Count` only where they are the same. -/
  reads : ReadsAlike M m n s.flush t.flush

/-- The core behind an interrupt and its handler, and behind the branch that was pending, run again. -/
def afterInterrupt (M : Machine σ) (ticks ticks' : ℕ) (s : EeCore σ) : Except HostError (EeCore σ) := do
  let t ← (← s.handleException .exInterrupt).timeStep M ticks
  if s.bdelay.isBranchPending then t.timeStep M ticks' else return t

theorem same_timeStep {M : Machine σ} {m n : ℕ} {s t : EeCore σ} (h : Same s t) (hc : Comparable M m n s t) :
    ExceptRel Same (s.timeStep M m) (t.timeStep M n) := by
  have hflushed := agree_timeStep M h (m := m) (n := n) hc.interrupts hc.reads
  have hleft := hc.left
  have hright := hc.right
  unfold CacheTransparent at hleft hright
  generalize s.timeStep M m = x at hleft ⊢
  generalize t.timeStep M n = y at hright ⊢
  generalize s.flush.timeStep M m = x' at hleft hflushed
  generalize t.flush.timeStep M n = y' at hright hflushed
  cases hflushed with
  | error e =>
    cases hleft
    cases hright
    exact .error e
  | ok hst =>
    cases hleft with
    | ok hs =>
      cases hright with
      | ok ht => exact .ok (by rw [Same, hs, ht]; exact hst.flush)

/-- An interrupt taken between two instructions is transparent: the handler, only `ERET`, comes back to the same core
(behind the branch that was pending, if there was one), with `Status` restored, and from there every run is in
lockstep with the uninterrupted one while the steps of the two are comparable. -/
theorem interrupt_transparent {M : Machine σ} {s : EeCore σ} (h : Interruptible s.cop0.status)
    (hbetween : BetweenInstructions M s)
    (hbus : M.busRead 32 (handlerAddress s.cop0.status) s.data.rest = .ok (eretInst.value, s.data.rest))
    {ticks ticks' : ℕ} (hticks : ¬(ticks % 16 = 0 ∧ ticks' % 16 = 0)) :
    ∃ t, s.afterInterrupt M ticks ticks' = .ok t ∧ Same s t ∧ t.cop0.status = s.cop0.status ∧
      ∀ ops, Run.Both (timeStep M) (Comparable M) ops s t → Run.Lockstep (timeStep M) Same ops s t := by
  have hsame : ∃ t, s.afterInterrupt M ticks ticks' = .ok t ∧ Same s t := by
    obtain ⟨cause, count, hreturned, hclear⟩ := interrupt_returns (M := M) h hbus ticks
    obtain ⟨s', hs', hreturned⟩ := bind_eq_ok_iff.mp hreturned
    unfold afterInterrupt
    simp only [hs', hreturned, ok_bind]
    by_cases hp : s.bdelay.isBranchPending
    · rw [if_pos hp]
      obtain ⟨w, inst, b, hfrom⟩ := pending_cases hbetween hp
      refine branch_again hp hfrom fun hi => ?_
      have ht : ticks % 16 ≠ 0 := fun ht => hticks ⟨ht, hi.1⟩
      exact not_interruptPending_of_clear (s := s.returned cause count) (hclear ht) hi.2.2
    · rw [if_neg hp]
      refine ⟨_, rfl, cause, s.resumePc, count, ?_⟩
      simp only [returned, resumePc, resumeBdelay, if_neg hp]
      rfl
  obtain ⟨t, ht, hst⟩ := hsame
  exact ⟨t, ht, hst, hst.status, fun ops hboth =>
    Run.lockstep_of_both (fun m n s t hst hc => same_timeStep hst hc) hst hboth⟩

/-! ### A branch and a read of `EPC` -/

/-- A machine whose memory is `word` throughout, but for the `ERET` at the interrupt vector. -/
def handlerMachine (word : Uword) : Machine Unit :=
  { syscallMachine with
    busRead := fun w pa _ => .ok (BitVec.setWidth w (if pa = 0x200 then eretInst.value else word), ()) }

/-- A core in kernel mode at `0x80001000`, with interrupts enabled and line 2 raised. -/
def interruptedCore : EeCore Unit :=
  { inKernel 0 ⟨0, 0⟩ with
    cop0 := { EeCoreCop0.initial with
      status := ⟨0x00010401, false, .kernel, false⟩
      cause := ⟨0, fun i => decide (i = 2)⟩ } }

/-- After an interrupt `MFC0 $1, EPC` gives another value than without it; and the line that has caused the interrupt,
which the uninterrupted run sees at its next check, is cleared. -/
theorem interrupt_seen_in_epc :
    ∃ s' t t', interruptedCore.timeStep (handlerMachine 0x40017000) 1 = .ok s' ∧
      interruptedCore.afterInterrupt (handlerMachine 0x40017000) 1 1 = .ok t ∧
      t.timeStep (handlerMachine 0x40017000) 1 = .ok t' ∧ s'.data.gpr 1 = 0 ∧ t'.data.gpr 1 = 0x80001000 ∧
      interruptedCore.InterruptPending ∧ ¬t.InterruptPending :=
  ⟨_, _, _, rfl, rfl, rfl, by decide, by decide, by decide, by decide⟩

/-- The core behind `BEQ $0, $0, 0` at `0x80001000`, before its delay slot. -/
def branchedCore : EeCore Unit :=
  { interruptedCore with
    pc := 0x80001004
    bdelay := ⟨1, 0x80001004⟩
    translationCacheInst := (TimestampLruCache.new ..).insert 0x80001000 0x1000 }

/-- An interrupt between that branch and its delay slot. -/
theorem interrupt_transparent_branch :
    ∃ t, branchedCore.afterInterrupt (handlerMachine 0x10000000) 16 13 = .ok t ∧ Same branchedCore t ∧
      t.cop0.status = branchedCore.cop0.status ∧
      ∀ ops, Run.Both (timeStep (handlerMachine 0x10000000)) (Comparable (handlerMachine 0x10000000)) ops branchedCore t →
        Run.Lockstep (timeStep (handlerMachine 0x10000000)) Same ops branchedCore t := by
  refine interrupt_transparent ⟨⟨by decide, rfl, by decide⟩, by decide, by decide⟩ ?_ rfl (by decide)
  intro _
  refine ⟨1, interruptedCore, by decide, rfl, ?_⟩
  intro sc inst u₀ hsc hfetch
  obtain rfl := Except.ok.inj hsc
  obtain ⟨rfl, rfl⟩ := Prod.mk.inj (Except.ok.inj hfetch)
  refine ⟨rfl, rfl, ?_⟩
  intro b hb
  obtain rfl := Operation.branch.inj (Except.ok.inj hb)
  rintro ⟨r, hr, -⟩
  cases hr

end EeCore

end Orbum
