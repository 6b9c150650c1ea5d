import Orbum.Common.Range
import Orbum.Iop.Core.Interpreter

/-!
# Trapping arithmetic

`ADD`, `ADDI`, `SUB` of both cores and `DADD`, `DADDI`, `DSUB` of the EE core raise an exception instead of a result
that does not fit. All of them ask `test_over_or_underflow_32` or `test_over_or_underflow_64`, which test the sum of
the operands; so do the subtractions.
-/

namespace Orbum

/-! ### The range test -/

/-- The range test is one of the sum. -/
theorem testOverOrUnderflow_iff {w : ℕ} {x y : ℤ} (hy : InRange w y) :
    Micro.TestOverOrUnderflow w x y ↔ ¬InRange w (x + y) := by
  have hp : (0 : ℤ) < 2 ^ (w - 1) := Int.pow_pos (by decide)
  simp only [Micro.TestOverOrUnderflow, InRange] at *
  omega

/-- Of a sum and a difference at most one leaves the range. -/
theorem inRange_add_iff_inRange_sub_iff {w : ℕ} {x y : ℤ} (hx : InRange w x) (hy : InRange w y) :
    (InRange w (x + y) ↔ InRange w (x - y)) ↔ InRange w (x + y) ∧ InRange w (x - y) := by
  simp only [InRange] at *
  omega

/-- A sum with a sign extended immediate. -/
theorem toInt_add_signExtend {v w : ℕ} {x : BitVec w} (imm : BitVec v) (hw : v ≤ w)
    (h : InRange w (x.toInt + imm.toInt)) : (x + imm.signExtend w).toInt = x.toInt + imm.toInt := by
  have himm : (imm.signExtend w).toInt = imm.toInt := BitVec.toInt_signExtend_of_le hw
  rw [← himm] at h ⊢
  exact toInt_add_of_inRange h

/-! ### The law -/

/-- One addition or subtraction. -/
structure Trapping where
  /-- Its width. -/
  w : ℕ
  /-- The first operand. -/
  x : ℤ
  /-- The second operand. -/
  y : ℤ
  /-- The operands are subtracted. -/
  subtracts : Bool
  /-- The register of the result. -/
  dest : BitVec 5

namespace Trapping

/-- The exact result. -/
def exact (a : Trapping) : ℤ := if a.subtracts then a.x - a.y else a.x + a.y

/-- A subtraction whose sum, too, is in range, as its difference is. -/
def Sound (a : Trapping) : Prop := a.subtracts → InRange a.w (a.x + a.y) ∧ InRange a.w (a.x - a.y)

/-- Both operands are numbers of its width. -/
structure Fits (a : Trapping) : Prop where
  /-- The first. -/
  x : InRange a.w a.x
  /-- The second. -/
  y : InRange a.w a.y

/-- The range test stands for the exact result exactly if the law is meant to hold. -/
theorem sound_iff {a : Trapping} (h : a.Fits) : a.Sound ↔ (InRange a.w (a.x + a.y) ↔ InRange a.w a.exact) := by
  unfold Sound exact
  cases a.subtracts with
  | false => simp
  | true => simpa using (inRange_add_iff_inRange_sub_iff h.x h.y).symm

/-- The law: the exception is raised if and only if the exact result is out of range; what is left after it is
unchanged, and without it the result is the exact one. -/
structure Law (a : Trapping) (raised unchanged result : Prop) : Prop where
  /-- When it is raised. -/
  raised_iff : raised ↔ ¬InRange a.w a.exact
  /-- What is left after it. -/
  unchanged : unchanged
  /-- What is left without it. -/
  result : InRange a.w a.exact → result

/-- An instruction that tests the sum follows the law exactly if it is `Sound`. -/
theorem law_iff {a : Trapping} (ha : a.Fits) {raised unchanged result : Prop}
    (hraised : raised ↔ ¬InRange a.w (a.x + a.y)) (hunchanged : unchanged)
    (hresult : InRange a.w (a.x + a.y) → InRange a.w a.exact → result) : a.Law raised unchanged result ↔ a.Sound := by
  rw [sound_iff ha]
  constructor
  · intro h
    exact not_iff_not.mp (hraised.symm.trans h.raised_iff)
  · intro hiff
    exact ⟨hraised.trans (not_congr hiff), hunchanged, fun hin => hresult (hiff.mpr hin) hin⟩

end Trapping

/-! ### The EE core -/

namespace EeCore

variable {σ : Type}

theorem handleException_data {e : EeCoreException} {s s' : EeCore σ} (h : s.handleException e = .ok s') :
    s'.data = s.data := by
  obtain ⟨status, -, ⟨-, rfl⟩ | ⟨-, -, rfl⟩ | ⟨-, -, status', -, rfl⟩⟩ := handleException_cases h
  · rfl
  · rfl
  · rfl

/-- The law for an instruction of the EE core: after the exception the registers are as before, and without it the low
doubleword of the destination is the exact result. `gpr[0]` is read only. -/
def TrapsExactly (a : Trapping) (m : EeData σ → Micro σ) (s : EeCore σ) : Prop :=
  a.Law (∃ t, (m s.data).run s = .ok (.exception .exOverflow t))
    (∀ t t', (m s.data).run s = .ok (.exception .exOverflow t) → t.handleException .exOverflow = .ok t' →
      t'.data = s.data)
    (∃ t, (m s.data).run s = .ok (.value () t) ∧ (a.dest ≠ 0 → (t.data.readUdword a.dest).toInt = a.exact))

theorem trapsExactly_checked_iff {a : Trapping} (ha : a.Fits) {m : EeData σ → Micro σ} {s : EeCore σ} {result : Udword}
    (hm : m s.data = Micro.checked s.data a.w a.x a.y a.dest result)
    (hresult : InRange a.w a.exact → result.toInt = a.exact) : TrapsExactly a m s ↔ a.Sound := by
  have hrun : (m s.data).run s = if InRange a.w (a.x + a.y) then
      .ok (.value () (s.setData (s.data.writeUdword a.dest result))) else .ok (.exception .exOverflow s) := by
    simp only [hm, Micro.checked, testOverOrUnderflow_iff ha.y]
    by_cases hin : InRange a.w (a.x + a.y)
    · simp [hin, Micro.run]
    · simp [hin, Micro.run]
  refine Trapping.law_iff ha ?_ (fun t t' ht ht' => ?_) (fun hsum hin => ?_)
  · rw [hrun]
    split_ifs with hin <;> simp [hin]
  · rw [handleException_data ht']
    rw [hrun] at ht
    split at ht
    · cases ht
    · obtain ⟨-, rfl⟩ := Result.exception.inj (Except.ok.inj ht)
      rfl
  · rw [hrun, if_pos hsum]
    refine ⟨_, rfl, fun hr => ?_⟩
    rw [setData_data, EeData.readUdword_writeUdword _ hr, hresult hin]

end EeCore

/-- The trapping instructions of the EE core. -/
inductive EeTrapping where
  /-- `ADD`. -/
  | add
  /-- `ADDI`. -/
  | addi
  /-- `DADD`. -/
  | dadd
  /-- `DADDI`. -/
  | daddi
  /-- `SUB`. -/
  | sub
  /-- `DSUB`. -/
  | dsub

namespace EeTrapping

variable {σ : Type} (inst : EeCoreInstruction) (d : EeData σ)

/-- The instruction. -/
def micro (d : EeData σ) : EeTrapping → Micro σ
  | add => Micro.add inst d
  | addi => Micro.addi inst d
  | dadd => Micro.dadd inst d
  | daddi => Micro.daddi inst d
  | sub => Micro.sub inst d
  | dsub => Micro.dsub inst d

/-- What it is meant to compute. -/
def trapping : EeTrapping → Trapping
  | add => ⟨32, (d.readUword inst.rs).toInt, (d.readUword inst.rt).toInt, false, inst.rd⟩
  | addi => ⟨32, (d.readUword inst.rs).toInt, inst.imm.toInt, false, inst.rt⟩
  | dadd => ⟨64, (d.readUdword inst.rs).toInt, (d.readUdword inst.rt).toInt, false, inst.rd⟩
  | daddi => ⟨64, (d.readUdword inst.rs).toInt, inst.imm.toInt, false, inst.rt⟩
  | sub => ⟨32, (d.readUword inst.rs).toInt, (d.readUword inst.rt).toInt, true, inst.rd⟩
  | dsub => ⟨64, (d.readUdword inst.rs).toInt, (d.readUdword inst.rt).toInt, true, inst.rd⟩

theorem fits (op : EeTrapping) : (op.trapping inst d).Fits := by
  cases op with
  | add => exact ⟨inRange_toInt _, inRange_toInt _⟩
  | addi => exact ⟨inRange_toInt _, inRange_mono (show 16 ≤ 32 by decide) (inRange_toInt inst.imm)⟩
  | dadd => exact ⟨inRange_toInt _, inRange_toInt _⟩
  | daddi => exact ⟨inRange_toInt _, inRange_mono (show 16 ≤ 64 by decide) (inRange_toInt inst.imm)⟩
  | sub => exact ⟨inRange_toInt _, inRange_toInt _⟩
  | dsub => exact ⟨inRange_toInt _, inRange_toInt _⟩

/-- An instruction of the EE core follows the law exactly if it is no subtraction whose sum or difference is out of
range. -/
theorem trapsExactly_iff (op : EeTrapping) (s : EeCore σ) :
    EeCore.TrapsExactly (op.trapping inst s.data) (fun d => op.micro inst d) s ↔ (op.trapping inst s.data).Sound := by
  have hext (x : Uword) : (x.signExtend 64).toInt = x.toInt := BitVec.toInt_signExtend_of_le (by decide)
  have hfits := op.fits inst s.data
  cases op with
  | add =>
    refine EeCore.trapsExactly_checked_iff hfits rfl fun hin => ?_
    rw [hext]
    exact toInt_add_of_inRange hin
  | addi =>
    refine EeCore.trapsExactly_checked_iff hfits rfl fun hin => ?_
    rw [hext]
    exact toInt_add_signExtend inst.imm (by decide) hin
  | dadd =>
    refine EeCore.trapsExactly_checked_iff hfits rfl fun hin => ?_
    exact toInt_add_of_inRange hin
  | daddi =>
    refine EeCore.trapsExactly_checked_iff hfits rfl fun hin => ?_
    exact toInt_add_signExtend inst.imm (by decide) hin
  | sub =>
    refine EeCore.trapsExactly_checked_iff hfits rfl fun hin => ?_
    rw [hext]
    exact toInt_sub_of_inRange hin
  | dsub =>
    refine EeCore.trapsExactly_checked_iff hfits rfl fun hin => ?_
    exact toInt_sub_of_inRange hin

end EeTrapping

/-! ### The IOP core -/

namespace IopCore

variable {σ : Type}

theorem handleException_data {e : IopCoreException} {s s' : IopCore σ} (h : s.handleException e = .ok s') :
    s'.data = s.data := by
  unfold handleException at h
  split_ifs at h
  all_goals
    obtain ⟨status, -, h⟩ := bind_eq_ok_iff.mp h
    obtain rfl := Except.ok.inj h
    simp only [flush_data, setPc_data, setCop0_data, setErrorAddress]
    split_ifs <;> rfl

/-- The law for an instruction of the IOP core, whose registers are words. -/
def TrapsExactly (a : Trapping) (m : IopData σ → IopMicro σ) (s : IopCore σ) : Prop :=
  a.Law (∃ t, (m s.data).run s = .ok (.exception .exOverflow t))
    (∀ t t', (m s.data).run s = .ok (.exception .exOverflow t) → t.handleException .exOverflow = .ok t' →
      t'.data = s.data)
    (∃ t, (m s.data).run s = .ok (.value t) ∧ (a.dest ≠ 0 → (t.data.gpr a.dest).toInt = a.exact))

theorem trapsExactly_checked_iff {a : Trapping} (ha : a.Fits) (hw : a.w = 32) {m : IopData σ → IopMicro σ}
    {s : IopCore σ} {result : Uword} (hm : m s.data = IopMicro.checked s.data a.x a.y a.dest result)
    (hresult : InRange a.w a.exact → result.toInt = a.exact) : TrapsExactly a m s ↔ a.Sound := by
  have hrun : (m s.data).run s = if InRange a.w (a.x + a.y) then
      .ok (.value (s.setData (s.data.writeUword a.dest result))) else .ok (.exception .exOverflow s) := by
    simp only [hm, IopMicro.checked, ← hw, testOverOrUnderflow_iff ha.y]
    by_cases hin : InRange a.w (a.x + a.y)
    · simp [hin, IopMicro.run]
    · simp [hin, IopMicro.run]
  refine Trapping.law_iff ha ?_ (fun t t' ht ht' => ?_) (fun hsum hin => ?_)
  · rw [hrun]
    split_ifs with hin <;> simp [hin]
  · rw [handleException_data ht']
    rw [hrun] at ht
    split at ht
    · cases ht
    · obtain ⟨-, rfl⟩ := IopResult.exception.inj (Except.ok.inj ht)
      rfl
  · rw [hrun, if_pos hsum]
    refine ⟨_, rfl, fun hr => ?_⟩
    rw [setData_data, IopData.writeUword, if_neg hr]
    simp only [Function.update_self, hresult hin]

end IopCore

/-- The trapping instructions of the IOP core. -/
inductive IopTrapping where
  /-- `ADD`. -/
  | add
  /-- `ADDI`. -/
  | addi
  /-- `SUB`. -/
  | sub

namespace IopTrapping

variable {σ : Type} (inst : IopCoreInstruction) (d : IopData σ)

/-- The instruction. -/
def micro (d : IopData σ) : IopTrapping → IopMicro σ
  | add => IopMicro.add inst d
  | addi => IopMicro.addi inst d
  | sub => IopMicro.sub inst d

/-- What it is meant to compute. -/
def trapping : IopTrapping → Trapping
  | add => ⟨32, (d.gpr inst.rs).toInt, (d.gpr inst.rt).toInt, false, inst.rd⟩
  | addi => ⟨32, (d.gpr inst.rs).toInt, inst.imm.toInt, false, inst.rt⟩
  | sub => ⟨32, (d.gpr inst.rs).toInt, (d.gpr inst.rt).toInt, true, inst.rd⟩

theorem trapsExactly_iff (op : IopTrapping) (s : IopCore σ) :
    IopCore.TrapsExactly (op.trapping inst s.data) (fun d => op.micro inst d) s ↔ (op.trapping inst s.data).Sound := by
  cases op with
  | add =>
    refine IopCore.trapsExactly_checked_iff ⟨inRange_toInt _, inRange_toInt _⟩ rfl rfl fun hin => ?_
    exact toInt_add_of_inRange hin
  | addi =>
    refine IopCore.trapsExactly_checked_iff
      ⟨inRange_toInt _, inRange_mono (show 16 ≤ 32 by decide) (inRange_toInt inst.imm)⟩ rfl rfl fun hin => ?_
    exact toInt_add_signExtend inst.imm (by decide) hin
  | sub =>
    refine IopCore.trapsExactly_checked_iff ⟨inRange_toInt _, inRange_toInt _⟩ rfl rfl fun hin => ?_
    exact toInt_sub_of_inRange hin

end IopTrapping

/-! ### Both cores -/

/-- An instruction of either core, with any registers: it overflows exactly when the exact result is out of range, with
the registers left alone, and gives the exact result otherwise, if and only if it is no subtraction or neither the sum
nor the difference of its operands is out of range. -/
theorem trapping_arithmetic_iff {σ τ : Type} :
    (∀ (op : EeTrapping) (inst : EeCoreInstruction) (s : EeCore σ),
      EeCore.TrapsExactly (op.trapping inst s.data) (fun d => op.micro inst d) s ↔
        (op.trapping inst s.data).Sound) ∧
    ∀ (op : IopTrapping) (inst : IopCoreInstruction) (s : IopCore τ),
      IopCore.TrapsExactly (op.trapping inst s.data) (fun d => op.micro inst d) s ↔
        (op.trapping inst s.data).Sound :=
  ⟨fun op inst s => op.trapsExactly_iff inst s, fun op inst s => op.trapsExactly_iff inst s⟩

/-- A core with the least word in register 8 and 1 in register 9. -/
def leastAndOne : EeCore Unit where
  pc := 0x1000
  bdelay := ⟨0, 0⟩
  data := ⟨fun r => if r = 8 then 0x80000000 else if r = 9 then 1 else 0, ()⟩
  cop0 := .initial
  tlb := fun _ => EeCore.firstPages
  translationCacheData := .new ..
  translationCacheInst := .new ..

/-- `SUB` of these registers, whose difference is out of range, writes its low word. -/
theorem trapping_arithmetic_misses_difference :
    ¬∀ (op : EeTrapping) (inst : EeCoreInstruction) (s : EeCore Unit),
      EeCore.TrapsExactly (op.trapping inst s.data) (fun d => op.micro inst d) s := by
  intro h
  obtain ⟨t, ht⟩ := (h .sub ⟨0x01095022⟩ leastAndOne).raised_iff.mpr (by decide)
  cases ht

end Orbum
