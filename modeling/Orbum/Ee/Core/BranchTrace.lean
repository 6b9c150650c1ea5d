import Orbum.Ee.Core.InterruptTransparency

/-!
# The trace of a branch

Which instructions the EE core executes after a branch or jump: the one in its delay slot, and then the one at its
target or the next one. A likely branch that is not taken advances the program counter by itself, and so the
instruction in its delay slot is never fetched.

A branch that links writes the return address where it sets the delay slot up. The conditional ones do so only if they
are taken. The return address has 64 bits: behind the last two words of the address space it is not the program counter
of the instruction there.
-/

namespace Orbum

/-! ### Targets and links -/

/-- `d'` is `d` with `value` in the low doubleword of the register `link`; register 0 stays as it is. -/
structure Links {σ : Type} (link : Option (BitVec 5)) (value : Udword) (d d' : EeData σ) : Prop where
  /-- The link register. -/
  register : ∀ r, link = some r → r ≠ 0 → d'.readUdword r = value
  /-- The other registers. -/
  others : ∀ r, link ≠ some r ∨ r = 0 → d'.gpr r = d.gpr r
  /-- The rest of the machine. -/
  rest : d'.rest = d.rest

namespace Branch

variable {σ : Type}

/-- Where a branch at `pc` goes if it is taken. -/
def destination (b : Branch σ) (pc : Uword) (d : EeData σ) : Uptr :=
  match b.target with
  | .itype imm => pc + 4 + 4 * imm.signExtend 32
  | .jtype addr => ((pc + 4) &&& 0xF0000000) ||| (addr <<< 2)
  | .direct rs => d.readUword rs

/-- It jumps to the register that it links. -/
def JumpsToLink (b : Branch σ) : Prop := ∃ r, b.target = .direct r ∧ b.link = some r

theorem links_linked (b : Branch σ) (pc : Uword) (d : EeData σ) :
    Links b.link (pc.setWidth 64 + 8) d (b.linked pc d) := by
  unfold linked
  cases hlink : b.link with
  | none => exact ⟨nofun, fun _ _ => rfl, rfl⟩
  | some r =>
    refine ⟨fun r' hr' hne => ?_, fun r' hr' => ?_, d.rest_writeUdword _ _⟩
    · obtain rfl := Option.some.inj hr'
      exact d.readUdword_writeUdword hne _
    · by_cases hr : r' = r
      · subst hr
        have hzero : r' = 0 := hr'.resolve_left fun h => h rfl
        have hkeep (value : Udword) : d.writeUdword r' value = d := by
          rw [EeData.writeUdword, EeData.writeUqword, if_pos hzero]
        exact congrArg (fun d' : EeData σ => d'.gpr r') (hkeep _)
      · exact d.gpr_writeUdword_of_ne hr _

/-- The delay slot that a taken branch sets up; it reads the register it jumps to after it has linked. -/
theorem setBranch_linked {b : Branch σ} (h : ¬b.JumpsToLink) (pc : Uword) (bdelay : BranchDelaySlot) (d : EeData σ) :
    b.setBranch pc bdelay (b.linked pc d) = ⟨2, b.destination pc d⟩ := by
  unfold setBranch destination
  cases htarget : b.target with
  | itype imm =>
    have hshift : imm.signExtend 32 <<< 2 = 4 * imm.signExtend 32 := by
      rw [BitVec.shiftLeft_eq_mul_twoPow, BitVec.mul_comm]
      rfl
    exact congrArg (fun offset => BranchDelaySlot.mk 2 (pc + 4 + offset)) hshift
  | jtype addr => rfl
  | direct rs =>
    have hread : (b.linked pc d).gpr rs = d.gpr rs := by
      refine (b.links_linked pc d).others rs (.inl fun hlink => h ⟨rs, htarget, hlink⟩)
    simp only [BranchDelaySlot.setBranchDirect, EeData.readUword, hread]

end Branch

namespace EeCore

variable {σ : Type}

/-! ### One step without an interrupt -/

/-- A step of `s` takes no interrupt and fetches `inst`, which runs in the core `s₀`. -/
structure Starts (M : Machine σ) (ticks : ℕ) (s : EeCore σ) (inst : EeCoreInstruction) (s₀ : EeCore σ) : Prop where
  /-- No interrupt is taken. -/
  notInterrupted : ¬Interrupted ticks s
  /-- The instruction is fetched. -/
  fetched : ∃ sc, s.check ticks = .ok sc ∧ sc.fetch M = .ok (inst, s₀)

/-- What comes before an instruction moves neither the program counter nor the delay slot nor a register. -/
theorem Starts.unmoved {M : Machine σ} {ticks : ℕ} {s s₀ : EeCore σ} {inst : EeCoreInstruction}
    (h : Starts M ticks s inst s₀) : s₀.pc = s.pc ∧ s₀.bdelay = s.bdelay ∧ s₀.data.gpr = s.data.gpr := by
  obtain ⟨hnot, sc, hcheck, hfetch⟩ := h
  obtain ⟨s', hagree, ⟨hint, -⟩ | ⟨-, hcheck'⟩⟩ := check_cases ticks s
  · exact absurd hint hnot
  · obtain rfl := Except.ok.inj (hcheck.symm.trans hcheck')
    obtain ⟨pa, cache, rest, -, -, rfl⟩ := fetch_cases hfetch
    refine ⟨hagree.pc, hagree.bdelay, ?_⟩
    rw [← hagree.data]
    rfl

/-- A step whose instruction returns. -/
theorem Starts.timeStep {M : Machine σ} {ticks : ℕ} {s s₀ s₁ : EeCore σ} {inst : EeCoreInstruction} {op : Operation σ}
    (h : Starts M ticks s inst s₀) (hlookup : M.lookup inst = .ok op) (hrun : op.run s₀ = .ok (.value () s₁)) :
    ∃ s', s.timeStep M ticks = .ok s' ∧ s'.pc = s₁.advancePc.pc ∧ s'.bdelay = s₁.advancePc.bdelay ∧
      s'.data = s₁.data := by
  obtain ⟨-, sc, hcheck, hfetch⟩ := h
  obtain ⟨count, cause, hcount⟩ := countUpdate_eq M ticks inst s₁.advancePc
  refine ⟨s₁.advancePc.setCop0 { s₁.advancePc.cop0 with count, cause }, ?_, rfl, rfl, rfl⟩
  exact timeStep_eq_ok_iff.mpr ⟨sc, hcheck, inst, s₀, hfetch, op, hlookup, _, hrun, some (), s₁, rfl, hcount⟩

end EeCore

/-! ### Instructions that do not branch -/

theorem EeCore.pc_of_translate {σ : Type} {s t : EeCore σ} {va pa : Uptr} {rwAccess : MmuRwAccess}
    (h : s.translateAddressData va rwAccess = .value pa t) : t.pc = s.pc := by
  unfold translateAddressData at h
  rcases lookup_cases s .data va rwAccess with ⟨pa', cache, hl⟩ | ⟨e, -, hl⟩
  · rw [hl] at h
    exact (Result.value.inj h).2 ▸ rfl
  · rw [hl] at h
    cases h

/-- A data instruction keeps the program counter. -/
theorem Micro.pc_of_run {σ : Type} {m : Micro σ} {s s' : EeCore σ} (h : m.run s = .ok (.value () s')) :
    s'.pc = s.pc := by
  induction m generalizing s with
  | done data => exact (Result.value.inj (Except.ok.inj h)).2 ▸ rfl
  | fail e => cases h
  | raise e => cases h
  | usable cop next ih =>
    rcases EeCore.handleCopUsable_cases cop s with ⟨-, hu⟩ | ⟨-, t, hu, -⟩
    · simp only [run, hu] at h
      exact ih h
    · simp only [run, hu] at h
      cases h
  | translate va rwAccess next ih =>
    cases hl : s.translateAddressData va rwAccess with
    | value pa t =>
      simp only [run, hl] at h
      exact (ih pa h).trans (EeCore.pc_of_translate hl)
    | exception e t =>
      simp only [run, hl] at h
      cases h
  | write data next ih =>
    have hpc := ih (show next.run (s.setData data) = .ok (.value () s') from h)
    exact hpc

namespace Operation

variable {σ : Type}

/-- It neither branches nor returns from an exception. -/
def Sequential : Operation σ → Prop
  | .data _ => True
  | .branch _ => False
  | .system op => op ≠ .eret

/-- An instruction that does not branch moves neither the program counter nor the delay slot. -/
theorem samePlace_of_sequential {op : Operation σ} {s s' : EeCore σ} (hop : op.Sequential)
    (h : op.run s = .ok (.value () s')) : s.SamePlace s' := by
  cases op with
  | data m => exact ⟨Micro.pc_of_run h, (Micro.unmoved_of_run h).bdelay⟩
  | branch b => exact hop.elim
  | system op => exact EeCore.samePlace_of_systemRun hop h

end Operation

namespace EeCore

variable {σ : Type}

/-- The instruction after a branch: no interrupt is taken before it, it does not branch, and it does not fault. -/
def SlotRuns (M : Machine σ) (ticks : ℕ) (s : EeCore σ) : Prop :=
  ∃ inst s₀ op s', Starts M ticks s inst s₀ ∧ M.lookup inst = .ok op ∧ op.Sequential ∧ op.run s₀ = .ok (.value () s')

/-- It goes on where the delay slot says. -/
theorem SlotRuns.timeStep {M : Machine σ} {ticks : ℕ} {s : EeCore σ} (h : SlotRuns M ticks s) :
    ∃ s', s.timeStep M ticks = .ok s' ∧ s'.pc = (s.bdelay.advancePc s.pc).2 ∧
      s'.bdelay = (s.bdelay.advancePc s.pc).1 := by
  obtain ⟨inst, s₀, op, s₁, hstarts, hlookup, hop, hrun⟩ := h
  obtain ⟨s', hs', hpc, hbdelay, -⟩ := hstarts.timeStep hlookup hrun
  obtain ⟨hpc₀, hbdelay₀, -⟩ := hstarts.unmoved
  obtain ⟨hpc₁, hbdelay₁⟩ := Operation.samePlace_of_sequential hop hrun
  refine ⟨s', hs', hpc.trans ?_, hbdelay.trans ?_⟩
  · rw [← hpc₀, ← hbdelay₀, ← hpc₁, ← hbdelay₁]
    rfl
  · rw [← hpc₀, ← hbdelay₀, ← hpc₁, ← hbdelay₁]
    rfl

/-! ### The trace -/

/-- What the core executes from the branch `b` on, which `s` fetches and `s₀` runs: the program counters of the steps, the
registers after the first, and that no branch is left pending. -/
inductive BranchTrace (M : Machine σ) (ticks ticks' : ℕ) (b : Branch σ) (s s₀ : EeCore σ) : Prop
  /-- The branch, its delay slot and its target. -/
  | taken {s₁ s₂ : EeCore σ} (htaken : b.taken s₀.data) (hfirst : s.timeStep M ticks = .ok s₁)
      (hslot : s₁.pc = s.pc + 4) (hlink : Links b.link (s.pc.setWidth 64 + 8) s₀.data s₁.data)
      (hsecond : s₁.timeStep M ticks' = .ok s₂) (htarget : s₂.pc = b.destination s.pc s₀.data)
      (hpending : ¬s₂.bdelay.isBranchPending)
  /-- The branch, its delay slot and the next instruction. -/
  | notTaken {s₁ s₂ : EeCore σ} (hnot : ¬b.taken s₀.data) (hlikely : b.likely = false)
      (hfirst : s.timeStep M ticks = .ok s₁) (hslot : s₁.pc = s.pc + 4) (hdata : s₁.data = s₀.data)
      (hsecond : s₁.timeStep M ticks' = .ok s₂) (hnext : s₂.pc = s.pc + 8) (hpending : ¬s₂.bdelay.isBranchPending)
  /-- The branch and the instruction after its delay slot. -/
  | skipped {s₁ : EeCore σ} (hnot : ¬b.taken s₀.data) (hlikely : b.likely = true)
      (hfirst : s.timeStep M ticks = .ok s₁) (hnext : s₁.pc = s.pc + 8) (hdata : s₁.data = s₀.data)
      (hpending : ¬s₁.bdelay.isBranchPending)

/-- From every state with no branch pending, for every branch with a usable coprocessor that does not jump to its own link
register, followed by an instruction that does not branch or fault, and with no interrupt between: the core executes the
branch, its delay slot and the target if it is taken, and the next instruction if not, without the delay slot if it is
likely. It links if it is taken. -/
theorem branch_trace {M : Machine σ} {ticks ticks' : ℕ} {s s₀ : EeCore σ} {inst : EeCoreInstruction} {b : Branch σ}
    (hpending : ¬s.bdelay.isBranchPending) (hstarts : Starts M ticks s inst s₀)
    (hlookup : M.lookup inst = .ok (.branch b)) (husable : ∀ cop, b.usable = some cop → isUsable s₀.cop0 cop = true)
    (hjump : ¬b.JumpsToLink)
    (hslot : ∀ s₁, s.timeStep M ticks = .ok s₁ → s₁.pc = s.pc + 4 → SlotRuns M ticks' s₁) :
    BranchTrace M ticks ticks' b s s₀ := by
  obtain ⟨hpc, hbdelay, -⟩ := hstarts.unmoved
  obtain ⟨s₁, hs₁, hpc₁, hbdelay₁, hdata₁⟩ := hstarts.timeStep hlookup (run_of_usable husable)
  have hnone : ¬s₀.bdelay.isBranchPending := hbdelay ▸ hpending
  by_cases htaken : b.taken s₀.data
  · -- The delay slot counts two instructions down.
    have hbranch := branch_of_taken htaken
    have hset : (branched b s₀).bdelay = ⟨2, b.destination s.pc s₀.data⟩ := by
      rw [← hpc]
      exact Branch.setBranch_linked hjump s₀.pc s₀.bdelay s₀.data
    rw [hbranch, advancePc, hset] at hpc₁ hbdelay₁
    have hfour : s₁.pc = s.pc + 4 := by rw [hpc₁, ← hpc]; rfl
    obtain ⟨s₂, hs₂, hpc₂, hbdelay₂⟩ := (hslot s₁ hs₁ hfour).timeStep
    rw [hbdelay₁] at hpc₂ hbdelay₂
    refine .taken htaken hs₁ hfour ?_ hs₂ hpc₂ ?_
    · rw [hdata₁, hbranch, ← hpc]
      exact b.links_linked s₀.pc s₀.data
    · rw [hbdelay₂]
      exact Nat.lt_irrefl 0
  · cases hlikely : b.likely with
    | false =>
      have hbranch : b.branch s₀ = s₀ := by
        unfold Branch.branch
        rw [if_neg htaken, hlikely]
        rfl
      rw [hbranch, advancePc_of_not_pending hnone] at hpc₁ hbdelay₁
      rw [hbranch] at hdata₁
      have hfour : s₁.pc = s.pc + 4 := by rw [hpc₁, ← hpc]; rfl
      have hnone₁ : ¬s₁.bdelay.isBranchPending := by rw [hbdelay₁]; exact hnone
      obtain ⟨s₂, hs₂, hpc₂, hbdelay₂⟩ := (hslot s₁ hs₁ hfour).timeStep
      rw [BranchDelaySlot.advancePc_of_not_pending hnone₁] at hpc₂ hbdelay₂
      refine .notTaken htaken hlikely hs₁ hfour hdata₁ hs₂ ?_ ?_
      · rw [hpc₂, hfour, BitVec.add_assoc]
        rfl
      · rw [hbdelay₂]
        exact hnone₁
    | true =>
      -- The branch advances once by itself, and the step once more.
      have hbranch : b.branch s₀ = s₀.setPc (s₀.pc + 4) := by
        unfold Branch.branch
        rw [if_neg htaken, hlikely, advancePc_of_not_pending hnone]
        rfl
      have hnone' : ¬(s₀.setPc (s₀.pc + 4)).bdelay.isBranchPending := hnone
      rw [hbranch, advancePc_of_not_pending hnone'] at hpc₁ hbdelay₁
      rw [hbranch] at hdata₁
      refine .skipped htaken hlikely hs₁ ?_ hdata₁ ?_
      · rw [hpc₁, setPc_pc, setPc_pc, BitVec.add_assoc, hpc]
        rfl
      · rw [hbdelay₁]
        exact hnone

/-! ### Branches at `0x80001000` -/

/-- A machine with `branch` at physical address `0x1000` and `slot` elsewhere. -/
def branchMachine (branch slot : Uword) : Machine Unit :=
  { syscallMachine with busRead := fun w pa _ => .ok (BitVec.setWidth w (if pa = 0x1000 then branch else slot), ()) }

/-- A core in kernel mode at `0x80001000`, with `value` in `gpr[1]` and `gpr[31]`. -/
def branchingCore (value : Uqword) : EeCore Unit :=
  { inKernel 0 ⟨0, 0⟩ with data := ⟨fun r => if r = 1 ∨ r = 31 then value else 0, ()⟩ }

/-- That core after the fetch of the branch. -/
def branchingCoreFetched (value : Uqword) : EeCore Unit :=
  (branchingCore value).setTranslationCache .instruction ((TimestampLruCache.new ..).insert 0x80001000 0x1000)

theorem starts_branchingCore (branch slot : Uword) (value : Uqword) :
    Starts (branchMachine branch slot) 1 (branchingCore value) ⟨branch⟩ (branchingCoreFetched value) := by
  have htranslate : (branchingCore value).translateAddressInst 0x80001000 = .value 0x1000 (branchingCoreFetched value) :=
    rfl
  refine ⟨fun h => absurd h.1 (by decide), branchingCore value, rfl, ?_⟩
  unfold fetch
  rw [show (branchingCore value).pc = 0x80001000 from rfl, htranslate]
  exact congrArg (fun word => Except.ok (EeCoreInstruction.mk word, branchingCoreFetched value))
    (BitVec.setWidth_eq branch)

/-- `BLTZAL $31, 4` with a negative value in `$31`, and `ADDI $0, $0, 0`. -/
theorem branch_trace_bltzal :
    BranchTrace (branchMachine 0x07F00004 0x20000000) 1 1 (.bltz ⟨0x07F00004⟩ false (some 31))
      (branchingCore 0xFFFFFFFF80000000) (branchingCoreFetched 0xFFFFFFFF80000000) := by
  refine branch_trace (by decide) (starts_branchingCore _ _ _) rfl nofun ?_ ?_
  · rintro ⟨r, hr, -⟩
    cases hr
  · intro s₁ hs₁ _
    obtain rfl := Except.ok.inj hs₁
    exact ⟨⟨0x20000000⟩, _, _, _, ⟨fun h => absurd h.1 (by decide), _, rfl, rfl⟩, rfl, trivial, rfl⟩

/-- `BGEZAL $1, 4` of a negative value does not link; `JALR $0, $1` has no register to link; `BC1T 4` without
coprocessor 1 goes to the exception vector; and an `ERET` behind `BNE $0, $0, 4` goes to `EPC`. -/
theorem not_linked_bgezal :
    (∃ s₁, (branchingCore 0xFFFFFFFF80000000).timeStep (branchMachine 0x04310004 0x20000000) 1 = .ok s₁ ∧
      (branchMachine 0x04310004 0x20000000).lookup ⟨0x04310004⟩ =
        .ok (.branch (.bgez ⟨0x04310004⟩ false (some 31))) ∧
      s₁.data.readUdword 31 = 0xFFFFFFFF80000000 ∧ s₁.data.readUdword 31 ≠ 0x80001008) ∧
    (∃ s₁, (branchingCore 0).timeStep (branchMachine 0x00200009 0x20000000) 1 = .ok s₁ ∧
      (branchMachine 0x00200009 0x20000000).lookup ⟨0x00200009⟩ = .ok (.branch (.jalr ⟨0x00200009⟩)) ∧
      s₁.data.readUdword 0 ≠ 0x80001008) ∧
    (∃ s₁, (branchingCore 0).timeStep (branchMachine 0x45010004 0x20000000) 1 = .ok s₁ ∧
      (branchMachine 0x45010004 0x20000000).lookup ⟨0x45010004⟩ =
        .ok (.branch (.bc1 (branchMachine 0x45010004 0x20000000) ⟨0x45010004⟩ 1 false)) ∧ s₁.pc ≠ 0x80001004) ∧
    ∃ s₁ s₂, (branchingCore 0).timeStep (branchMachine 0x14000004 0x42000018) 1 = .ok s₁ ∧
      s₁.timeStep (branchMachine 0x14000004 0x42000018) 1 = .ok s₂ ∧
      (branchMachine 0x14000004 0x42000018).lookup ⟨0x14000004⟩ = .ok (.branch (.bne ⟨0x14000004⟩ false)) ∧
      (branchMachine 0x14000004 0x42000018).lookup ⟨0x42000018⟩ = .ok (.system .eret) ∧ s₂.pc ≠ 0x80001008 :=
  ⟨⟨_, rfl, rfl, by decide, by decide⟩, ⟨_, rfl, rfl, by decide⟩, ⟨_, rfl, rfl, by decide⟩,
    ⟨_, _, rfl, rfl, rfl, rfl, by decide⟩⟩

end EeCore

end Orbum
