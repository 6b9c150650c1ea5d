import Orbum.Ee.Core.Interpreter.TimeStep

/-!
# States that differ in `Cause`, `EPC` and `Count`

Two states agree if they are equal up to these three registers. Every stage of a step takes states that agree to
states that agree, as long as the interrupt check decides alike and the instruction does not read one of the
three where they differ: only `MFC0` reads them, and `ERET` reads `EPC`.
-/

namespace Orbum

namespace EeCore

variable {σ α : Type}

/-- Writes `Cause`, `EPC` and `Count`. -/
def setHidden (s : EeCore σ) (cause : EeCoreCop0Cause) (epc count : Uword) : EeCore σ :=
  s.setCop0 { s.cop0 with cause, epc, count }

/-- `t` is `s` up to `Cause`, `EPC` and `Count`. -/
def Agree (s t : EeCore σ) : Prop := ∃ cause epc count, t = s.setHidden cause epc count

namespace Agree

variable {s t u : EeCore σ}

theorem refl (s : EeCore σ) : Agree s s := ⟨s.cop0.cause, s.cop0.epc, s.cop0.count, rfl⟩

theorem symm (h : Agree s t) : Agree t s := by
  obtain ⟨cause, epc, count, rfl⟩ := h
  exact ⟨s.cop0.cause, s.cop0.epc, s.cop0.count, rfl⟩

theorem trans (h : Agree s t) (h' : Agree t u) : Agree s u := by
  obtain ⟨cause, epc, count, rfl⟩ := h
  obtain ⟨cause', epc', count', rfl⟩ := h'
  exact ⟨cause', epc', count', rfl⟩

theorem status (h : Agree s t) : t.cop0.status = s.cop0.status := by
  obtain ⟨cause, epc, count, rfl⟩ := h
  rfl

theorem pc (h : Agree s t) : t.pc = s.pc := by
  obtain ⟨cause, epc, count, rfl⟩ := h
  rfl

theorem bdelay (h : Agree s t) : t.bdelay = s.bdelay := by
  obtain ⟨cause, epc, count, rfl⟩ := h
  rfl

theorem data (h : Agree s t) : t.data = s.data := by
  obtain ⟨cause, epc, count, rfl⟩ := h
  rfl

theorem setPc (h : Agree s t) (pc : Uword) : Agree (s.setPc pc) (t.setPc pc) := by
  obtain ⟨cause, epc, count, rfl⟩ := h
  exact ⟨cause, epc, count, rfl⟩

theorem setBdelay (h : Agree s t) (bdelay : BranchDelaySlot) : Agree (s.setBdelay bdelay) (t.setBdelay bdelay) := by
  obtain ⟨cause, epc, count, rfl⟩ := h
  exact ⟨cause, epc, count, rfl⟩

theorem setData (h : Agree s t) (data : EeData σ) : Agree (s.setData data) (t.setData data) := by
  obtain ⟨cause, epc, count, rfl⟩ := h
  exact ⟨cause, epc, count, rfl⟩

theorem setStatus (h : Agree s t) (status : EeCoreCop0Status) : Agree (s.setStatus status) (t.setStatus status) := by
  obtain ⟨cause, epc, count, rfl⟩ := h
  exact ⟨cause, epc, count, rfl⟩

theorem flush (h : Agree s t) : Agree s.flush t.flush := by
  obtain ⟨cause, epc, count, rfl⟩ := h
  exact ⟨cause, epc, count, rfl⟩

theorem advancePc (h : Agree s t) : Agree s.advancePc t.advancePc := by
  obtain ⟨cause, epc, count, rfl⟩ := h
  exact ⟨cause, epc, count, rfl⟩

theorem setTranslationCache (h : Agree s t) (id : MmuIdAccess) (cache : CacheTy) :
    Agree (s.setTranslationCache id cache) (t.setTranslationCache id cache) := by
  obtain ⟨cause, epc, count, rfl⟩ := h
  cases id <;> exact ⟨cause, epc, count, rfl⟩

theorem translationCache (h : Agree s t) (id : MmuIdAccess) : t.translationCache id = s.translationCache id := by
  obtain ⟨cause, epc, count, rfl⟩ := h
  cases id <;> rfl

theorem walk (h : Agree s t) (va : Uptr) (rwAccess : MmuRwAccess) :
    Orbum.walk t.cop0 t.tlb va rwAccess = Orbum.walk s.cop0 s.tlb va rwAccess := by
  obtain ⟨cause, epc, count, rfl⟩ := h
  rfl

theorem isUsable (h : Agree s t) (cop : Coprocessor) : EeCore.isUsable t.cop0 cop = EeCore.isUsable s.cop0 cop := by
  obtain ⟨cause, epc, count, rfl⟩ := h
  cases cop <;> rfl

end Agree

/-! ### Results -/

/-- Both return the same value, or raise the same exception, in states that agree. -/
inductive ResultAgree : Result σ α → Result σ α → Prop where
  /-- Both return. -/
  | value (a : α) {s t : EeCore σ} : Agree s t → ResultAgree (.value a s) (.value a t)
  /-- Both raise. -/
  | exception (e : EeCoreException) {s t : EeCore σ} : Agree s t → ResultAgree (.exception e s) (.exception e t)

variable {s t : EeCore σ}

theorem agree_setErrorAddress (h : Agree s t) (level2 : Bool) :
    Agree (s.setErrorAddress level2) (t.setErrorAddress level2) := by
  obtain ⟨cause, epc, count, rfl⟩ := h
  refine ⟨((s.setHidden cause epc count).setErrorAddress level2).cop0.cause,
    ((s.setHidden cause epc count).setErrorAddress level2).cop0.epc, count, rfl⟩

theorem agree_setErrorLevel (h : Agree s t) (e : EeCoreException) (status : EeCoreCop0Status) :
    Agree (s.setErrorLevel e status) (t.setErrorLevel e status) := by
  obtain ⟨cause, epc, count, rfl⟩ := h
  exact ⟨((s.setHidden cause epc count).setErrorLevel e status).cop0.cause, epc, count, rfl⟩

theorem agree_handleException (h : Agree s t) (e : EeCoreException) :
    ExceptRel Agree (s.handleException e) (t.handleException e) := by
  unfold handleException
  rw [h.status]
  cases s.cop0.status.insertField EeCoreCop0Status.erl (if e.IsLevel2 then 1 else 0) with
  | error err => exact .error err
  | ok status =>
    have hlevel := agree_setErrorLevel h e status
    have haddress := agree_setErrorAddress hlevel e.IsLevel2
    simp only [ok_bind]
    split_ifs
    · exact .ok (haddress.setPc _)
    · exact .ok (hlevel.setPc _).flush
    · cases status.insertField EeCoreCop0Status.exl 1 with
      | error err => exact .error err
      | ok status' => exact .ok ((haddress.setStatus status').setPc _).flush

theorem agree_handled {r q : Result σ α} (h : ResultAgree r q) :
    ExceptRel (fun p p' => p'.1 = p.1 ∧ Agree p.2 p'.2) r.handled q.handled := by
  cases h with
  | value a hst => exact .ok ⟨rfl, hst⟩
  | exception e hst => exact (agree_handleException hst e).bind fun _ _ hab => .ok ⟨rfl, hab⟩

theorem agree_mmuError (h : Agree s t) (address : Uptr) : Agree (s.mmuError address) (t.mmuError address) := by
  obtain ⟨cause, epc, count, rfl⟩ := h
  exact ⟨cause, epc, count, rfl⟩

theorem agree_lookup (h : Agree s t) (id : MmuIdAccess) (va : Uptr) (rwAccess : MmuRwAccess) :
    ResultAgree (s.lookup id va rwAccess) (t.lookup id va rwAccess) := by
  have hcache := h.translationCache id
  cases hc : (s.translationCache id).find (cacheKey va) with
  | some pa =>
    rw [lookup_of_hit rwAccess hc, lookup_of_hit rwAccess (hcache ▸ hc), hcache]
    exact .value _ (h.setTranslationCache id _)
  | none =>
    rw [lookup_of_miss rwAccess hc, lookup_of_miss rwAccess (hcache ▸ hc), hcache, h.walk]
    cases Orbum.walk s.cop0 s.tlb (cacheKey va) rwAccess with
    | ok pa => exact .value _ (h.setTranslationCache id _)
    | error e => exact .exception e (agree_mmuError h _)

theorem agree_handleCopUsable (h : Agree s t) (cop : Coprocessor) :
    ResultAgree (s.handleCopUsable cop) (t.handleCopUsable cop) := by
  unfold handleCopUsable
  rw [h.isUsable]
  split_ifs
  · exact .value () h
  · obtain ⟨cause, epc, count, rfl⟩ := h
    exact .exception _ ⟨cause.insertField EeCoreCop0Cause.ce cop.number, epc, count, rfl⟩

/-! ### Instructions -/

theorem agree_microRun (m : Micro σ) (h : Agree s t) : ExceptRel ResultAgree (m.run s) (m.run t) := by
  induction m generalizing s t with
  | done data => exact .ok (.value () (h.setData data))
  | fail e => exact .error e
  | raise e => exact .ok (.exception e h)
  | usable cop next ih =>
    have hu := agree_handleCopUsable h cop
    simp only [Micro.run]
    generalize s.handleCopUsable cop = r at hu ⊢
    generalize t.handleCopUsable cop = q at hu ⊢
    cases hu with
    | value _ h' => exact ih h'
    | exception e h' => exact .ok (.exception e h')
  | translate va rwAccess next ih =>
    have hl : ResultAgree (s.translateAddressData va rwAccess) (t.translateAddressData va rwAccess) :=
      agree_lookup h .data va rwAccess
    simp only [Micro.run]
    generalize s.translateAddressData va rwAccess = r at hl ⊢
    generalize t.translateAddressData va rwAccess = q at hl ⊢
    cases hl with
    | value pa h' => exact ih pa h'
    | exception e h' => exact .ok (.exception e h')
  | write data next ih => exact ih (h.setData data)

theorem agree_branch (b : Branch σ) (h : Agree s t) : Agree (b.branch s) (b.branch t) := by
  unfold Branch.branch
  rw [h.data, h.pc, h.bdelay]
  split_ifs
  · exact (h.setData _).setBdelay _
  · exact h.advancePc
  · exact h

theorem agree_branchRun (b : Branch σ) (h : Agree s t) : ExceptRel ResultAgree (b.run s) (b.run t) := by
  unfold Branch.run
  cases b.usable with
  | none => exact .ok (.value () (agree_branch b h))
  | some cop =>
    have hu := agree_handleCopUsable h cop
    simp only
    generalize s.handleCopUsable cop = r at hu ⊢
    generalize t.handleCopUsable cop = q at hu ⊢
    cases hu with
    | value _ h' => exact .ok (.value () (agree_branch b h'))
    | exception e h' => exact .ok (.exception e h')

theorem agree_whenCop0Usable {k : EeCore σ → Except HostError (EeCore σ)} (h : Agree s t)
    (hk : ExceptRel Agree (k s) (k t)) : ExceptRel ResultAgree (s.whenCop0Usable k) (t.whenCop0Usable k) := by
  have hu := agree_handleCopUsable h .cop0
  unfold whenCop0Usable
  rcases handleCopUsable_cases .cop0 s with ⟨-, hs⟩ | ⟨-, s', hs, -⟩
  · rcases handleCopUsable_cases .cop0 t with ⟨-, ht⟩ | ⟨-, t', ht, -⟩
    · rw [hs, ht]
      exact hk.bind fun _ _ hab => .ok (.value () hab)
    · rw [hs, ht] at hu
      cases hu
  · rcases handleCopUsable_cases .cop0 t with ⟨-, ht⟩ | ⟨-, t', ht, -⟩
    · rw [hs, ht] at hu
      cases hu
    · rw [hs, ht] at hu ⊢
      cases hu with
      | exception e h' => exact .ok (.exception _ h')

end EeCore

/-- The instruction reads `Cause`, `EPC` and `Count` only where they are the same. -/
def SystemOp.ReadsAlike {σ : Type} (op : SystemOp) (s t : EeCore σ) : Prop :=
  match op with
  | mfc0 _ rd => (t.cop0.readRegister rd).1 = (s.cop0.readRegister rd).1
  | eret => s.cop0.status.extractField EeCoreCop0Status.erl = 0 → t.cop0.epc = s.cop0.epc
  | _ => True

namespace EeCore

variable {σ : Type} {s t : EeCore σ}

/-- A read of a register changes nothing but `Cause`. -/
theorem agree_readRegister (s : EeCore σ) (rd : BitVec 5) : Agree s (s.setCop0 (s.cop0.readRegister rd).2) := by
  unfold EeCoreCop0.readRegister
  split <;> exact ⟨_, _, _, rfl⟩

theorem agree_mfc0 (h : Agree s t) (rd : BitVec 5) (write : Uword → EeData σ → EeData σ)
    (hread : (t.cop0.readRegister rd).1 = (s.cop0.readRegister rd).1) :
    ExceptRel ResultAgree (s.mfc0 rd write) (t.mfc0 rd write) := by
  have hregs := (agree_readRegister s rd).symm.trans (h.trans (agree_readRegister t rd))
  have hwritten : Agree
      ((s.setCop0 (s.cop0.readRegister rd).2).setData (write (s.cop0.readRegister rd).1 s.data))
      ((t.setCop0 (t.cop0.readRegister rd).2).setData (write (t.cop0.readRegister rd).1 t.data)) := by
    rw [hread, h.data]
    exact hregs.setData _
  exact agree_whenCop0Usable h (.ok hwritten)

theorem agree_writeRegister (h : Agree s t) (rd : BitVec 5) (value : Uword) :
    ExceptRel (fun c c' => Agree (s.setCop0 c) (t.setCop0 c')) (s.cop0.writeRegister rd value)
      (t.cop0.writeRegister rd value) := by
  obtain ⟨cause, epc, count, rfl⟩ := h
  unfold EeCoreCop0.writeRegister
  split
  case h_10 => exact .error HostError.outOfBounds
  case h_11 =>
    change ExceptRel _ (s.cop0.status.writeUword value >>= _) (s.cop0.status.writeUword value >>= _)
    cases s.cop0.status.writeUword value with
    | error e => exact .error e
    | ok status => exact .ok ⟨cause, epc, count, rfl⟩
  all_goals exact .ok ⟨_, _, _, rfl⟩

theorem agree_setEie (h : Agree s t) (value : Uword) : ExceptRel ResultAgree (s.setEie value) (t.setEie value) := by
  unfold setEie
  rw [h.status]
  split_ifs
  · cases s.cop0.status.insertField EeCoreCop0Status.eie value with
    | error e => exact .error e
    | ok status => exact .ok (.value () (h.setStatus status))
  · exact .ok (.value () h)

theorem agree_writeTlbEntry (h : Agree s t) (index : Uword) :
    ExceptRel Agree (s.writeTlbEntry index) (t.writeTlbEntry index) := by
  obtain ⟨cause, epc, count, rfl⟩ := h
  unfold writeTlbEntry
  change ExceptRel _ (tlbEntryOf s.cop0 >>= _) (tlbEntryOf s.cop0 >>= _)
  cases tlbEntryOf s.cop0 with
  | error e => exact .error e
  | ok entry =>
    simp only [ok_bind]
    change ExceptRel _ (s.tlb.setTlbEntryAt entry index.toNat >>= _) (s.tlb.setTlbEntryAt entry index.toNat >>= _)
    cases s.tlb.setTlbEntryAt entry index.toNat with
    | error e => exact .error e
    | ok tlb => exact .ok ⟨cause, epc, count, rfl⟩

theorem agree_eret (h : Agree s t)
    (hread : s.cop0.status.extractField EeCoreCop0Status.erl = 0 → t.cop0.epc = s.cop0.epc) :
    ExceptRel ResultAgree s.eret t.eret := by
  have haddress : (if 0 < s.cop0.status.extractField EeCoreCop0Status.erl then t.cop0.errorepc else t.cop0.epc) =
      if 0 < s.cop0.status.extractField EeCoreCop0Status.erl then s.cop0.errorepc else s.cop0.epc := by
    rcases EeCoreCop0Status.extractFrom_bit (f := EeCoreCop0Status.erl) rfl s.cop0.status.w with h0 | h1
    · have h0 : s.cop0.status.extractField EeCoreCop0Status.erl = 0 := h0
      rw [h0, if_neg (by decide), if_neg (by decide), hread h0]
    · have h1 : s.cop0.status.extractField EeCoreCop0Status.erl = 1 := h1
      rw [h1, if_pos (by decide), if_pos (by decide)]
      obtain ⟨cause, epc, count, rfl⟩ := h
      rfl
  unfold eret
  simp only [h.status, haddress]
  cases s.cop0.status.insertField
      (if 0 < s.cop0.status.extractField EeCoreCop0Status.erl then EeCoreCop0Status.erl else EeCoreCop0Status.exl) 0 with
  | error e => exact .error e
  | ok status =>
    obtain ⟨cause, epc, count, rfl⟩ := h
    exact .ok (.value () ⟨cause.clearAllIrq, epc, count, rfl⟩)

theorem agree_systemRun (op : SystemOp) (h : Agree s t) (hread : op.ReadsAlike s t) :
    ExceptRel ResultAgree (op.run s) (op.run t) := by
  cases op with
  | mfc0 rt rd => exact agree_mfc0 h rd (fun value d => d.writeUdword rt (value.setWidth 64)) hread
  | mtc0 rt rd =>
    simp only [SystemOp.run, h.data]
    refine agree_whenCop0Usable h ?_
    exact (agree_writeRegister h rd _).bind fun _ _ hc => .ok hc
  | tlbr =>
    refine agree_whenCop0Usable h ?_
    obtain ⟨cause, epc, count, rfl⟩ := h
    refine ExceptRel.bind (R := Eq) (.refl (fun _ => rfl) _) ?_
    rintro entry _ rfl
    exact .ok ⟨cause, epc, count, rfl⟩
  | tlbwi =>
    have hindex : t.cop0.index = s.cop0.index := by
      obtain ⟨cause, epc, count, rfl⟩ := h
      rfl
    refine agree_whenCop0Usable h ?_
    rw [hindex]
    exact agree_writeTlbEntry h _
  | tlbwr =>
    have hrandom : t.cop0.random = s.cop0.random := by
      obtain ⟨cause, epc, count, rfl⟩ := h
      rfl
    refine agree_whenCop0Usable h ?_
    rw [hrandom]
    exact agree_writeTlbEntry h _
  | tlbp =>
    have hprobe : probe t.cop0 t.tlb = probe s.cop0 s.tlb := by
      obtain ⟨cause, epc, count, rfl⟩ := h
      rfl
    refine agree_whenCop0Usable h ?_
    rw [hprobe]
    obtain ⟨cause, epc, count, rfl⟩ := h
    cases probe s.cop0 s.tlb with
    | none => exact .ok ⟨cause, epc, count, rfl⟩
    | some value => exact .ok ⟨cause, epc, count, rfl⟩
  | eret => exact agree_eret h hread
  | ei => exact agree_setEie h 1
  | di => exact agree_setEie h 0


/-! ### Steps -/

theorem agree_operationRun (op : Operation σ) (h : Agree s t)
    (hread : ∀ sys, op = .system sys → sys.ReadsAlike s t) : ExceptRel ResultAgree (op.run s) (op.run t) := by
  cases op with
  | data m =>
    simp only [Operation.run, h.data]
    exact agree_microRun (m s.data) h
  | branch b => exact agree_branchRun b h
  | system sys => exact agree_systemRun sys h (hread sys rfl)

/-- The check at the start of a step takes an interrupt. -/
def Interrupted (ticksAvailable : ℕ) (s : EeCore σ) : Prop :=
  ticksAvailable % 16 = 0 ∧ s.cop0.status.interruptsMasked = false ∧ s.InterruptPending

/-- What the check does. -/
theorem check_cases (ticks : ℕ) (s : EeCore σ) : ∃ s', Agree s s' ∧
    ((Interrupted ticks s ∧ s.check ticks = s'.handleException .exInterrupt) ∨
      (¬Interrupted ticks s ∧ s.check ticks = .ok s')) := by
  have hmerge : Agree s s.mergeCause := ⟨_, _, _, rfl⟩
  unfold check handleInterruptCheck Interrupted
  by_cases ht : ticks % 16 = 0
  · by_cases hm : s.cop0.status.interruptsMasked = true
    · exact ⟨s, .refl s, .inr ⟨by simp [hm], by simp [ht, hm]⟩⟩
    · have hm : s.cop0.status.interruptsMasked = false := by simpa using hm
      refine ⟨s.mergeCause, hmerge, ?_⟩
      by_cases hip : s.InterruptPending
      · exact .inl ⟨⟨ht, hm, hip⟩, by simp [ht, hm, hip]⟩
      · exact .inr ⟨fun h => hip h.2.2, by simp [ht, hm, hip]⟩
  · exact ⟨s, .refl s, .inr ⟨fun h => ht h.1, by simp [ht]⟩⟩

theorem agree_check (h : Agree s t) {m n : ℕ} (hint : Interrupted m s ↔ Interrupted n t) :
    ExceptRel Agree (s.check m) (t.check n) := by
  obtain ⟨s', hs', hs⟩ := check_cases m s
  obtain ⟨t', ht', ht⟩ := check_cases n t
  have hst : Agree s' t' := hs'.symm.trans (h.trans ht')
  rcases hs with ⟨hi, hs⟩ | ⟨hi, hs⟩ <;> rcases ht with ⟨hj, ht⟩ | ⟨hj, ht⟩
  · rw [hs, ht]
    exact agree_handleException hst .exInterrupt
  · exact absurd (hint.mp hi) hj
  · exact absurd (hint.mpr hj) hi
  · rw [hs, ht]
    exact .ok hst

theorem agree_fetch (M : Machine σ) (h : Agree s t) :
    ExceptRel (fun p q => q.1 = p.1 ∧ Agree p.2 q.2) (s.fetch M) (t.fetch M) := by
  have hl : ResultAgree (s.translateAddressInst s.pc) (t.translateAddressInst s.pc) :=
    agree_lookup h .instruction s.pc .read
  unfold fetch
  rw [h.pc]
  generalize s.translateAddressInst s.pc = r at hl ⊢
  generalize t.translateAddressInst s.pc = q at hl ⊢
  cases hl with
  | @value pa s' t' h' =>
    simp only [h'.data]
    cases M.busRead 32 pa s'.data.rest with
    | error e => exact .error e
    | ok p => exact .ok ⟨rfl, h'.setData _⟩
  | exception e h' => exact (agree_handleException h' e).bind fun _ _ _ => .error _

theorem countUpdate_cases (M : Machine σ) (ticks : ℕ) (inst : EeCoreInstruction) (s : EeCore σ) :
    ∃ s', s.countUpdate M ticks inst = .ok s' ∧ Agree s s' := by
  obtain ⟨count, cause, h⟩ := countUpdate_eq M ticks inst s
  exact ⟨_, h, cause, s.cop0.epc, count, rfl⟩

theorem agree_countUpdate (M : Machine σ) (m n : ℕ) (inst : EeCoreInstruction) (h : Agree s t) :
    ExceptRel Agree (s.countUpdate M m inst) (t.countUpdate M n inst) := by
  obtain ⟨s', hs, hs'⟩ := countUpdate_cases M m inst s
  obtain ⟨t', ht, ht'⟩ := countUpdate_cases M n inst t
  rw [hs, ht]
  exact .ok (hs'.symm.trans (h.trans ht'))

/-- The instructions that two steps run read `Cause`, `EPC` and `Count` only where they are the same. -/
def ReadsAlike (M : Machine σ) (m n : ℕ) (s t : EeCore σ) : Prop :=
  ∀ sc tc inst s₀ t₀ op, s.check m = .ok sc → t.check n = .ok tc → sc.fetch M = .ok (inst, s₀) →
    tc.fetch M = .ok (inst, t₀) → M.lookup inst = .ok (.system op) → op.ReadsAlike s₀ t₀

/-- One step. -/
theorem agree_timeStep (M : Machine σ) (h : Agree s t) {m n : ℕ} (hint : Interrupted m s ↔ Interrupted n t)
    (hread : ReadsAlike M m n s t) : ExceptRel Agree (s.timeStep M m) (t.timeStep M n) := by
  unfold timeStep
  have hcheck := agree_check h hint
  generalize hsc : s.check m = x at hcheck ⊢
  generalize htc : t.check n = y at hcheck ⊢
  cases hcheck with
  | error e => exact .error e
  | @ok sc tc hc =>
    have hfetch := agree_fetch M hc
    simp only [ok_bind]
    generalize hsf : sc.fetch M = x at hfetch ⊢
    generalize htf : tc.fetch M = y at hfetch ⊢
    cases hfetch with
    | error e => exact .error e
    | @ok p q hpq =>
      obtain ⟨inst, s₀⟩ := p
      obtain ⟨inst', t₀⟩ := q
      obtain ⟨rfl, h₀⟩ := hpq
      simp only [ok_bind]
      cases hop : M.lookup inst' with
      | error e => exact .error e
      | ok op =>
        have hsys : ∀ sys, op = .system sys → sys.ReadsAlike s₀ t₀ := by
          rintro sys rfl
          exact hread sc tc inst' s₀ t₀ sys hsc htc hsf htf hop
        simp only [ok_bind]
        refine (agree_operationRun op h₀ hsys).bind fun r q hrq => ?_
        refine (agree_handled hrq).bind fun p p' hp => ?_
        exact agree_countUpdate M m n inst' hp.2.advancePc

end EeCore

end Orbum
