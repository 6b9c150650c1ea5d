import Mathlib.Logic.Relation
import Orbum.Common.SizedRegister
import Orbum.Ee.Core.Interpreter.Multiply
import Orbum.Ee.Core.Interpreter.Words
import Orbum.Ee.Vu.DataMemory
import Orbum.Iop.Core.Interpreter
import Orbum.Lib.Run

/-!
# Constant registers

The register files of the EE core, the IOP core and the VUs, as their constructors leave them: `gpr[0]` of both cores and
`vi[0]` of both VUs are read only, and `vf[0]` is a register like any other.

## The model

The storage of a register is private, so that an instruction is whatever comes to calls of the registers, with the values
from wherever it has them: that is a field of `RegisterInstruction`. The rest of the machine is a parameter.

## What is proved

`constantRegisters_never`: in every run the registers that are read only read as 0 throughout, and `vf[0]` does not read as
(0, 0, 0, 1.0) throughout.
-/

namespace Orbum

/-- The registers. -/
inductive RegisterName where
  /-- `r.ee.core.r5900.gpr[r]`. -/
  | eeGpr (r : BitVec 5)
  /-- `r.iop.core.r3000.gpr[r]`. -/
  | iopGpr (r : BitVec 5)
  /-- `vf[r]` of a VU. -/
  | vf (k : VuId) (r : BitVec 5)
  /-- `vi[i]` of a VU. -/
  | vi (k : VuId) (i : BitVec 4)
  deriving DecidableEq

namespace RegisterName

/-- How many bits a register has. -/
abbrev width : RegisterName → ℕ
  | eeGpr _ | vf _ _ => 128
  | iopGpr _ => 32
  | vi _ _ => 16

/-- What a register is constructed with for `read_only`. -/
def readOnly : RegisterName → Bool
  | eeGpr r | iopGpr r => r = 0
  | vf _ _ => false
  | vi _ i => i = 0

end RegisterName

/-- The registers with what they hold. -/
abbrev RegisterFiles := (r : RegisterName) → SizedRegister r.width

namespace RegisterFiles

/-- `EeCoreR5900()`, `IopCoreR3000()` and `VuUnit_Base(core_id)`. -/
def constructed : RegisterFiles := fun r => .new 0 r.readOnly

/-- A call of a register. -/
def call (f : RegisterFiles) (r : RegisterName) (c : RegisterCall r.width) : Except HostError RegisterFiles := do
  let register ← (f r).apply c
  return Function.update f r register

/-- Calls one after the other. -/
def Calls : RegisterFiles → RegisterFiles → Prop := Relation.ReflTransGen fun f f' => ∃ r c, f.call r c = .ok f'

end RegisterFiles

/-- An instruction: what it does to the rest of the machine and to the registers. -/
structure RegisterInstruction (σ : Type) where
  /-- What it comes to. -/
  run : σ → RegisterFiles → Except HostError (σ × RegisterFiles)
  /-- It changes the registers by calls only. -/
  calls : ∀ s f, Ensures (fun t => f.Calls t.2) (run s f)

namespace RegisterInstruction

variable {σ : Type}

/-- One instruction of a run. -/
def step (i : RegisterInstruction σ) (t : σ × RegisterFiles) : Except HostError (σ × RegisterFiles) := i.run t.1 t.2

/-- The registers have a property in every state of a run from the constructed state. -/
def Throughout (P : RegisterFiles → Prop) (instructions : List (RegisterInstruction σ)) (s : σ) : Prop :=
  ∀ done t, done <+: instructions → Run.run step done (s, .constructed) = .ok t → P t.2

end RegisterInstruction

namespace RegisterFiles

/-- The registers that always read as 0. -/
structure ZeroRegisters (f : RegisterFiles) : Prop where
  eeGpr : (f (.eeGpr 0)).read = 0
  iopGpr : (f (.iopGpr 0)).read = 0
  vi : ∀ k, (f (.vi k 0)).read = 0

/-- The registers that should be constant. -/
structure ConstantRegisters (f : RegisterFiles) : Prop where
  zero : f.ZeroRegisters
  /-- (0, 0, 0, 1.0). -/
  vf : ∀ k, (f (.vf k 0)).read = Uqword.ofWords 0 0 0 0x3F800000

/-! ### What calls keep -/

variable {f f' : RegisterFiles}

theorem keeps_of_call {r : RegisterName} {c : RegisterCall r.width} (h : f.call r c = .ok f') (r' : RegisterName) :
    (f r').Keeps (f' r') := by
  obtain ⟨register, happly, hcall⟩ := bind_eq_ok_iff.mp h
  obtain rfl := Except.ok.inj hcall
  by_cases hr : r' = r
  · subst hr
    rw [Function.update_self]
    exact SizedRegister.apply_keeps happly
  · rw [Function.update_of_ne hr]
    exact .refl _

theorem keeps_of_calls (h : f.Calls f') (r : RegisterName) : (f r).Keeps (f' r) := by
  induction h with
  | refl => exact .refl _
  | tail _ hcall ih =>
    obtain ⟨r', c, hcall⟩ := hcall
    exact ih.trans (keeps_of_call hcall r)

theorem ensures_call (f : RegisterFiles) (r : RegisterName) (c : RegisterCall r.width) : Ensures f.Calls (f.call r c) :=
  fun _ h => .single ⟨r, c, h⟩

theorem apply_of_call {r : RegisterName} {c : RegisterCall r.width} (h : f.call r c = .ok f') : (f r).apply c = .ok (f' r) := by
  obtain ⟨register, happly, hcall⟩ := bind_eq_ok_iff.mp h
  obtain rfl := Except.ok.inj hcall
  rw [Function.update_self, happly]

theorem call_of_ne {r r' : RegisterName} {c : RegisterCall r.width} (h : f.call r c = .ok f') (hr : r' ≠ r) :
    f' r' = f r' := by
  obtain ⟨register, -, hcall⟩ := bind_eq_ok_iff.mp h
  obtain rfl := Except.ok.inj hcall
  exact Function.update_of_ne hr _ _

/-! ### The registers as the instructions have them -/

/-- The registers are read only that were constructed so. -/
def AsConstructed (f : RegisterFiles) : Prop := ∀ r : RegisterName, (f r).readOnly = r.readOnly

theorem AsConstructed.of_calls (h : f.AsConstructed) (hcalls : f.Calls f') : f'.AsConstructed :=
  fun r => (keeps_of_calls hcalls r).readOnly.trans (h r)

/-- The register of a call that writes it whole. -/
theorem read_of_call_write {r : RegisterName} {value : BitVec r.width} (hf : f.AsConstructed)
    (h : f.call r (.write value) = .ok f') : (f' r).read = if r.readOnly then (f r).read else value := by
  rw [← Except.ok.inj (apply_of_call h), SizedRegister.read_write, hf]

/-- The register of a call that writes a part of it. -/
theorem read_of_call_writeLane {r : RegisterName} {w k : ℕ} {value : BitVec w} (hf : f.AsConstructed)
    (h : f.call r (.writeLane w k value) = .ok f') :
    (f' r).read = if r.readOnly then (f r).read else Lanes.setLane k (f r).read value := by
  rw [SizedRegister.read_of_writeLane (apply_of_call h), hf]

variable {σ : Type} {r : BitVec 5}

/-- A write of the EE core to a part of `gpr[r]`. -/
theorem gpr_write {d : R5900 σ} {w k : ℕ} {value : BitVec w} (hf : f.AsConstructed)
    (hd : ∀ r, d.gpr r = (f (.eeGpr r)).read) (h : f.call (.eeGpr r) (.writeLane w k value) = .ok f') (r' : BitVec 5) :
    (R5900.write d r k value).gpr r' = (f' (.eeGpr r')).read := by
  by_cases hr : r' = r
  · subst hr
    rw [read_of_call_writeLane hf h, ← hd, RegisterName.readOnly]
    by_cases h0 : r' = 0
    · rw [if_pos (decide_eq_true h0), R5900.write, EeData.writeUqword, if_pos h0]
    · rw [if_neg (by simpa using h0), R5900.gpr_write d h0]
  · rw [R5900.gpr_write_of_ne d hr, hd, call_of_ne h (fun heq => hr (RegisterName.eeGpr.inj heq))]

/-- A write of the IOP core. -/
theorem iopGpr_write {d : IopData σ} {value : Uword} (hf : f.AsConstructed) (hd : ∀ r, d.gpr r = (f (.iopGpr r)).read)
    (h : f.call (.iopGpr r) (.write value) = .ok f') (r' : BitVec 5) :
    (d.writeUword r value).gpr r' = (f' (.iopGpr r')).read := by
  by_cases hr : r' = r
  · subst hr
    rw [read_of_call_write hf h, ← hd, RegisterName.readOnly]
    by_cases h0 : r' = 0
    · rw [if_pos (decide_eq_true h0), IopData.writeUword, if_pos h0]
    · rw [if_neg (by simpa using h0), IopData.gpr_writeUword d value h0, if_pos rfl]
  · rw [IopData.gpr_writeUword_of_ne d value hr, hd, call_of_ne h (fun heq => hr (RegisterName.iopGpr.inj heq))]

variable {k : VuId} {u u' : VuUnit σ}

/-- A write of a VU to `vi[i]`. -/
theorem vi_write {i : BitVec 4} {value : Uhword} (hf : f.AsConstructed) (hu : ∀ i, u.vi i = (f (.vi k i)).read)
    (h : f.call (.vi k i) (.write value) = .ok f') (i' : BitVec 4) :
    (u.writeUhword i value).vi i' = (f' (.vi k i')).read := by
  by_cases hi : i' = i
  · subst hi
    rw [read_of_call_write hf h, ← hu, RegisterName.readOnly]
    by_cases h0 : i' = 0
    · rw [if_pos (decide_eq_true h0), VuUnit.writeUhword, if_pos h0]
    · rw [if_neg (by simpa using h0), VuUnit.vi_writeUhword_self h0]
  · rw [VuUnit.vi_writeUhword_of_ne hi, hu, call_of_ne h (fun heq => hi (RegisterName.vi.inj heq).2)]

/-- A write of a VU to a word of `vf[r]`. -/
theorem vf_write {offset : ℕ} {value : Uword} (hf : f.AsConstructed) (hu : ∀ r, u.vf r = (f (.vf k r)).read)
    (hwrite : u.writeUword r offset value = .ok u') (h : f.call (.vf k r) (.writeLane 32 offset value) = .ok f')
    (r' : BitVec 5) : u'.vf r' = (f' (.vf k r')).read := by
  rw [VuUnit.writeUword] at hwrite
  split_ifs at hwrite
  obtain rfl := Except.ok.inj hwrite
  by_cases hr : r' = r
  · subst hr
    rw [read_of_call_writeLane hf h, ← hu]
    exact Function.update_self _ _ _
  · rw [call_of_ne h (fun heq => hr (RegisterName.vf.inj heq).2), ← hu]
    exact Function.update_of_ne hr _ _

end RegisterFiles

/-! ### Ways to the registers of the VUs -/

/-- What is used of the rest of the machine. -/
structure RegisterPaths (σ : Type) where
  /-- `handle_cop2_usable()`. -/
  handleCop2Usable : σ → Bool × σ
  /-- The quadword at a virtual address, if it is translated. -/
  readUqword : Uptr → σ → Except HostError (Option Uqword × σ)
  /-- `unit_0.ccr[i]->write_uword(value)` where it is no VI register. -/
  writeControl : BitVec 5 → Uword → σ → Except HostError σ
  /-- `unit_0.bus.write_uword(context, address, value)` where no register of VU1's VF and VI is mapped. -/
  writeUword : Uhword → Uword → σ → Except HostError σ

namespace RegisterPaths

open RegisterFiles

variable {σ : Type} (P : RegisterPaths σ) (inst : EeCoreInstruction) (s : σ) (f : RegisterFiles)

/-- What `QMTC2` and `CTC2` do first. -/
def interlocked (k : σ → Except HostError (σ × RegisterFiles)) : Except HostError (σ × RegisterFiles) :=
  if (P.handleCop2Usable s).1 = false then .ok ((P.handleCop2Usable s).2, f)
  else if inst.i ≠ 0 then .error (.runtimeError "COP2 (VU0) interlock bit set, but not implemented")
  else k (P.handleCop2Usable s).2

/-- `QMTC2`. -/
def qmtc2 : Except HostError (σ × RegisterFiles) :=
  P.interlocked inst s f fun s => do
    let low ← (f (.eeGpr inst.rt)).readLane 64 0
    let f ← f.call (.vf .vu0 inst.rd) (.writeLane 64 0 low)
    let high ← (f (.eeGpr inst.rt)).readLane 64 1
    let f ← f.call (.vf .vu0 inst.rd) (.writeLane 64 1 high)
    return (s, f)

/-- `LQC2`. -/
def lqc2 : Except HostError (σ × RegisterFiles) :=
  if (P.handleCop2Usable s).1 = false then .ok ((P.handleCop2Usable s).2, f)
  else do
    let base ← (f (.eeGpr inst.rs)).readLane 32 0
    let value ← P.readUqword (base + inst.imm.signExtend 32) (P.handleCop2Usable s).2
    let f ← value.1.elim (.ok f) fun value => f.call (.vf .vu0 inst.rt) (.write value)
    return (value.2, f)

/-- `CTC2`. -/
def ctc2 : Except HostError (σ × RegisterFiles) :=
  P.interlocked inst s f fun s => do
    let value ← (f (.eeGpr inst.rt)).readLane 32 0
    if inst.rd.toNat < 16 then
      let f ← f.call (.vi .vu0 (inst.rd.setWidth 4)) (.write (value.setWidth 16))
      return (s, f)
    else
      let s ← P.writeControl inst.rd value s
      return (s, f)

/-- `unit_0.bus.write_uword(context, address, value)`. -/
def busWriteUword (address : Uhword) (value : Uword) : Except HostError (σ × RegisterFiles) :=
  if 0x4000 ≤ address.toNat ∧ address.toNat < 0x4200 then do
    let f ← f.call (.vf .vu1 (BitVec.ofNat 5 ((address.toNat - 0x4000) / 16)))
      (.writeLane 32 ((address.toNat - 0x4000) % 16 / 4) value)
    return (s, f)
  else if 0x4200 ≤ address.toNat ∧ address.toNat < 0x4300 then do
    let f ← f.call (.vi .vu1 (BitVec.ofNat 4 ((address.toNat - 0x4200) / 16))) (.write (value.setWidth 16))
    return (s, f)
  else do
    let s ← P.writeUword address value s
    return (s, f)

variable {P inst s f}

theorem ensures_interlocked {k : σ → Except HostError (σ × RegisterFiles)}
    (hk : ∀ s, Ensures (fun t => f.Calls t.2) (k s)) : Ensures (fun t => f.Calls t.2) (P.interlocked inst s f k) := by
  unfold interlocked
  split_ifs
  · exact .ok .refl
  · exact .error _
  · exact hk _

theorem ensures_qmtc2 : Ensures (fun t => f.Calls t.2) (P.qmtc2 inst s f) := by
  refine ensures_interlocked fun s => (Ensures.trivial _).bind fun low _ => (ensures_call _ _ _).bind fun f₁ h₁ => ?_
  exact (Ensures.trivial _).bind fun high _ => (ensures_call _ _ _).bind fun f₂ h₂ => .ok (h₁.trans h₂)

theorem ensures_lqc2 : Ensures (fun t => f.Calls t.2) (P.lqc2 inst s f) := by
  unfold lqc2
  split_ifs
  · exact .ok .refl
  · refine (Ensures.trivial _).bind fun base _ => (Ensures.trivial _).bind fun value _ => ?_
    have hwrite : Ensures f.Calls (value.1.elim (.ok f) fun value => f.call (.vf .vu0 inst.rt) (.write value)) := by
      cases value.1 with
      | none => exact .ok .refl
      | some value => exact ensures_call _ _ _
    exact hwrite.bind fun f' h => .ok h

theorem ensures_ctc2 : Ensures (fun t => f.Calls t.2) (P.ctc2 inst s f) := by
  refine ensures_interlocked fun s => (Ensures.trivial _).bind fun value _ => ?_
  split_ifs
  · exact (ensures_call _ _ _).bind fun f' h => .ok h
  · exact (Ensures.trivial _).bind fun s _ => .ok .refl

theorem ensures_busWriteUword {address : Uhword} {value : Uword} :
    Ensures (fun t => f.Calls t.2) (P.busWriteUword s f address value) := by
  unfold busWriteUword
  split_ifs
  · exact (ensures_call _ _ _).bind fun f' h => .ok h
  · exact (ensures_call _ _ _).bind fun f' h => .ok h
  · exact (Ensures.trivial _).bind fun s _ => .ok .refl

end RegisterPaths

namespace RegisterInstruction

variable {σ : Type}

/-- `QMTC2`. -/
def qmtc2 (P : RegisterPaths σ) (inst : EeCoreInstruction) : RegisterInstruction σ :=
  ⟨P.qmtc2 inst, fun _ _ => RegisterPaths.ensures_qmtc2⟩

/-- `LQC2`. -/
def lqc2 (P : RegisterPaths σ) (inst : EeCoreInstruction) : RegisterInstruction σ :=
  ⟨P.lqc2 inst, fun _ _ => RegisterPaths.ensures_lqc2⟩

/-- `CTC2`. -/
def ctc2 (P : RegisterPaths σ) (inst : EeCoreInstruction) : RegisterInstruction σ :=
  ⟨P.ctc2 inst, fun _ _ => RegisterPaths.ensures_ctc2⟩

/-- The store of a word on the bus of VU0. -/
def busWriteUword (P : RegisterPaths σ) (address : Uhword) (value : Uword) : RegisterInstruction σ :=
  ⟨fun s f => P.busWriteUword s f address value, fun _ _ => RegisterPaths.ensures_busWriteUword⟩

/-- A run, by one instruction after the other. -/
theorem keeps_of_run {instructions : List (RegisterInstruction σ)} {t t' : σ × RegisterFiles}
    (h : Run.run step instructions t = .ok t') (r : RegisterName) : (t.2 r).Keeps (t'.2 r) := by
  induction instructions generalizing t with
  | nil =>
    obtain rfl := Except.ok.inj h
    exact .refl _
  | cons i instructions ih =>
    obtain ⟨u, hstep, hrun⟩ := Run.run_cons_ok.mp h
    exact (RegisterFiles.keeps_of_calls (i.calls t.1 t.2 u hstep) r).trans (ih hrun)

/-- `QMTC2` writes any register of VU0's VF, `vf[0]` as well. -/
theorem vf_of_qmtc2 {P : RegisterPaths σ} {inst : EeCoreInstruction} {s : σ} {f : RegisterFiles} {t : σ × RegisterFiles}
    (hf : f.AsConstructed) (husable : (P.handleCop2Usable s).1 = true) (h : (qmtc2 P inst).run s f = .ok t) :
    (t.2 (.vf .vu0 inst.rd)).read = (f (.eeGpr inst.rt)).read := by
  change P.qmtc2 inst s f = .ok t at h
  rw [RegisterPaths.qmtc2, RegisterPaths.interlocked, if_neg (by rw [husable]; decide)] at h
  split_ifs at h
  obtain ⟨low, hlow, h⟩ := bind_eq_ok_iff.mp h
  obtain ⟨f₁, hf₁, h⟩ := bind_eq_ok_iff.mp h
  obtain ⟨high, hhigh, h⟩ := bind_eq_ok_iff.mp h
  obtain ⟨f₂, hf₂, h⟩ := bind_eq_ok_iff.mp h
  obtain rfl := Except.ok.inj h
  have hsource : f₁ (.eeGpr inst.rt) = f (.eeGpr inst.rt) := RegisterFiles.call_of_ne hf₁ (by simp)
  have hlow' : Lanes.lane 64 0 (f (.eeGpr inst.rt)).read = low := by
    rw [SizedRegister.readLane, if_pos (show 64 * (0 + 1) ≤ 128 by decide)] at hlow
    exact Except.ok.inj hlow
  have hhigh' : Lanes.lane 64 1 (f₁ (.eeGpr inst.rt)).read = high := by
    rw [SizedRegister.readLane, if_pos (show 64 * (1 + 1) ≤ 128 by decide)] at hhigh
    exact Except.ok.inj hhigh
  have hfirst := RegisterFiles.read_of_call_writeLane hf hf₁
  have hsecond := RegisterFiles.read_of_call_writeLane (hf.of_calls (RegisterFiles.ensures_call _ _ _ f₁ hf₁)) hf₂
  rw [RegisterName.readOnly, if_neg Bool.false_ne_true] at hfirst hsecond
  rw [hfirst] at hsecond
  rw [hsecond]
  refine Lanes.eq_of_lanes (w := 64) (m := 2) rfl fun k hk => ?_
  have hk' : k = 0 ∨ k = 1 := by omega
  rcases hk' with rfl | rfl
  · rw [Lanes.lane_setLane_of_ne (by decide), Lanes.lane_setLane_self (by decide), hlow']
  · rw [Lanes.lane_setLane_self (by decide), ← hhigh', hsource]

/-- A register that is read only reads as 0 in every state of every run. -/
theorem read_eq_zero {r : RegisterName} (hr : r.readOnly = true) {instructions : List (RegisterInstruction σ)} {s : σ}
    {t : σ × RegisterFiles} (h : Run.run step instructions (s, .constructed) = .ok t) : (t.2 r).read = 0 :=
  (keeps_of_run h r).read hr rfl

theorem throughout_zeroRegisters (instructions : List (RegisterInstruction σ)) (s : σ) :
    Throughout RegisterFiles.ZeroRegisters instructions s :=
  fun _ _ _ h => ⟨read_eq_zero rfl h, read_eq_zero rfl h, fun _ => read_eq_zero rfl h⟩

/-- `vf[0]` is constructed as 0. -/
theorem not_constantRegisters_constructed : ¬RegisterFiles.constructed.ConstantRegisters := by
  intro h
  have hword : (0 : Uqword) = Uqword.ofWords 0 0 0 0x3F800000 := h.vf .vu0
  exact absurd hword (by decide)

/-- In no run do the registers that should be constant read as they should throughout, but for those that are 0. -/
theorem constantRegisters_never (instructions : List (RegisterInstruction σ)) (s : σ) :
    Throughout RegisterFiles.ZeroRegisters instructions s ∧ ¬Throughout RegisterFiles.ConstantRegisters instructions s :=
  ⟨throughout_zeroRegisters instructions s,
    fun h => not_constantRegisters_constructed (h [] (s, .constructed) List.nil_prefix rfl)⟩

/-- The run of no instruction. -/
theorem not_throughout_nil : ¬Throughout RegisterFiles.ConstantRegisters ([] : List (RegisterInstruction Unit)) () :=
  fun h => not_constantRegisters_constructed (h [] ((), .constructed) List.nil_prefix rfl)

end RegisterInstruction

end Orbum
