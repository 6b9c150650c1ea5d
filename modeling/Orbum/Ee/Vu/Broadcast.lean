import Orbum.Ee.Vu.FloatUnit

/-!
# VU instructions that take one field for all

`ADDbc`, `SUBbc`, `MULbc`, `MSUBbc`, `MAXbc`, `MINIbc` and `OPMSUB` of
`Controller/Ee/Vpu/Vu/Interpreter/CVuInterpreter_FLOAT.cpp`, with `to_ps2_float` of `Utilities/Utilities.cpp`. They hold
references to their registers and read a source again for every field, when the destination has some fields written.

## The model

A float is its word. What the host does with floats is a parameter.

## What is proved

`operandsFirst_iff`: which instruction words make the result that of the operands before the instruction, whatever the
float operations are.
-/

namespace Orbum

/-- What the host computes of floats. -/
structure FloatOps where
  /-- `a + b`. -/
  add : Uword → Uword → Uword
  /-- `a - b`. -/
  sub : Uword → Uword → Uword
  /-- `a * b`. -/
  mul : Uword → Uword → Uword
  /-- `std::max(a, b)`. -/
  max : Uword → Uword → Uword
  /-- `std::min(a, b)`. -/
  min : Uword → Uword → Uword

/-! ### `to_ps2_float` -/

namespace Ps2Float

/-- `FMAX_POS`. -/
def fmaxPos : Uword := 0x7F7FFFFF
/-- `FMAX_NEG`. -/
def fmaxNeg : Uword := 0xFF7FFFFF
/-- `ZERO_POS`. -/
def zeroPos : Uword := 0x00000000
/-- `ZERO_NEG`. -/
def zeroNeg : Uword := 0x80000000

/-- The bits of the exponent. -/
def exponent (value : Uword) : Uword := Bitfield.extractFrom ⟨23, 8⟩ value

/-- The bits of the fraction. -/
def fraction (value : Uword) : Uword := Bitfield.extractFrom ⟨0, 23⟩ value

/-- `value < 0.0f`, which neither a zero nor what is not a number is. -/
def isNegative (value : Uword) : Bool :=
  Bitfield.extractFrom ⟨31, 1⟩ value = 1 ∧ ¬(exponent value = 0 ∧ fraction value = 0) ∧
    ¬(exponent value = 255 ∧ fraction value ≠ 0)

end Ps2Float

open Ps2Float in
/-- `to_ps2_float(value, flags)`, with the flags. -/
def toPs2Float (value : Uword) : Uword × FpuFlags :=
  if exponent value = 255 then
    (if isNegative value then fmaxNeg else fmaxPos, ⟨false, isNegative value, false, true⟩)
  else if exponent value = 0 then
    if fraction value = 0 then (value, ⟨true, isNegative value, false, false⟩)
    else (if isNegative value then zeroNeg else zeroPos, ⟨false, isNegative value, true, false⟩)
  else (value, ⟨false, isNegative value, false, false⟩)

/-! ### Instructions -/

namespace VuFloatUnit

variable {σ : Type}

/-- `read_float(field)` of a VF register. -/
def readFloat (u : VuFloatUnit σ) (r : BitVec 5) (field : VuField) : Uword := (u.vf r).uw field.index

/-- `write_float(field, value)` of a VF register. -/
def writeFloat (u : VuFloatUnit σ) (r : BitVec 5) (field : VuField) (value : Uword) : VuFloatUnit σ :=
  { u with vf := Function.update u.vf r (Lanes.setLane field.index (u.vf r) value) }

/-- `to_ps2_float(value, flags)`, and `unit->mac.update_vector_field(field, flags)`. -/
def updateMac (value : Uword) (field : VuField) (flags : VuFlags) : Uword × VuFlags :=
  ((toPs2Float value).1, flags.updateVectorField field (toPs2Float value).2)

/-- `write_float(field, result)` of a VF register, with the flags that there are then. -/
def writeResult (u : VuFloatUnit σ) (r : BitVec 5) (field : VuField) (result : Uword × VuFlags) : VuFloatUnit σ :=
  { u.writeFloat r field result.1 with flags := result.2 }

section

variable (compute : VuField → Uword → Uword → Uword → VuFlags → Uword × VuFlags) (skip : VuField → VuFlags → VuFlags)
  (bc : VuField) (inst : VuInstruction)

/-- A round of the loop of the instructions that take the field `bc` of `VF[ft]`: `compute` is what is done for a field
that is selected, with that field of `VF[fs]`, the one of `VF[ft]` and that of `ACC`, and `skip` for one that is not. -/
def broadcastStep (u : VuFloatUnit σ) (field : VuField) : VuFloatUnit σ :=
  if inst.testDestField field then
    u.writeResult inst.fd field
      (compute field (u.readFloat inst.fs field) (u.readFloat inst.ft bc) (u.acc.uw field.index) u.flags)
  else { u with flags := skip field u.flags }

/-- The loop. -/
def broadcast (u : VuFloatUnit σ) : VuFloatUnit σ := VuField.vectorFields.foldl (broadcastStep compute skip bc inst) u

end

variable (F : FloatOps) (bc : VuField) (inst : VuInstruction) (u : VuFloatUnit σ)

/-- `ADDbc`. -/
def addbc : VuFloatUnit σ :=
  broadcast (fun field a b _ flags => updateMac (F.add a b) field flags)
    (fun field flags => flags.clearVectorField field) bc inst u

/-- `SUBbc`. -/
def subbc : VuFloatUnit σ :=
  broadcast (fun field a b _ flags => updateMac (F.sub a b) field flags)
    (fun field flags => flags.clearVectorField field) bc inst u

/-- `MULbc`. -/
def mulbc : VuFloatUnit σ :=
  broadcast (fun field a b _ flags => updateMac (F.mul a b) field flags)
    (fun field flags => flags.clearVectorField field) bc inst u

/-- `MSUBbc`. -/
def msubbc : VuFloatUnit σ :=
  broadcast
    (fun field a b c flags =>
      updateMac (F.sub c (updateMac (F.mul a b) field flags).1) field (updateMac (F.mul a b) field flags).2)
    (fun field flags => flags.clearVectorField field) bc inst u

/-- `MAXbc`. -/
def maxbc : VuFloatUnit σ := broadcast (fun _ a b _ flags => (F.max a b, flags)) (fun _ flags => flags) bc inst u

/-- `MINIbc`. -/
def minibc : VuFloatUnit σ := broadcast (fun _ a b _ flags => (F.min a b, flags)) (fun _ flags => flags) bc inst u

/-- `fd.write_float(field, to_ps2_float(acc.read_float(field) - fs.read_float(s) * ft.read_float(t), flags))` and
`unit->mac.update_vector_field(field, flags)`. -/
def opmsubField (field s t : VuField) : VuFloatUnit σ :=
  u.writeResult inst.fd field (updateMac
    (F.sub (u.acc.uw field.index) (F.mul (u.readFloat inst.fs s) (u.readFloat inst.ft t))) field u.flags)

/-- `OPMSUB`. -/
def opmsub : VuFloatUnit σ :=
  let u := u.opmsubField F inst .x .y .z
  let u := u.opmsubField F inst .y .z .x
  let u := u.opmsubField F inst .z .x .y
  { u with flags := u.flags.clearVectorField .w }

end VuFloatUnit

/-- The operation of an instruction that takes one field for all. -/
inductive VuBcOp where
  | addbc | subbc | mulbc | msubbc | maxbc | minibc
  deriving DecidableEq

/-- The instructions. -/
inductive VuFloatInst where
  /-- One that takes the field `field` for all. -/
  | bc (op : VuBcOp) (field : VuField)
  /-- `OPMSUB`. -/
  | opmsub
  deriving DecidableEq

namespace VuBcOp

/-- The operation on the operands. -/
def value (F : FloatOps) (a b c : Uword) : VuBcOp → Uword
  | addbc => (toPs2Float (F.add a b)).1
  | subbc => (toPs2Float (F.sub a b)).1
  | mulbc => (toPs2Float (F.mul a b)).1
  | msubbc => (toPs2Float (F.sub c (toPs2Float (F.mul a b)).1)).1
  | maxbc => F.max a b
  | minibc => F.min a b

end VuBcOp

/-- The operation of `OPMSUB`. -/
def opmsubValue (F : FloatOps) (a b c : Uword) : Uword := (toPs2Float (F.sub c (F.mul a b))).1

namespace VuFloatInst

variable {σ : Type}

/-- The function of the interpreter. -/
def run (k : VuFloatInst) (F : FloatOps) (inst : VuInstruction) (u : VuFloatUnit σ) : VuFloatUnit σ :=
  match k with
  | bc .addbc field => u.addbc F field inst
  | bc .subbc field => u.subbc F field inst
  | bc .mulbc field => u.mulbc F field inst
  | bc .msubbc field => u.msubbc F field inst
  | bc .maxbc field => u.maxbc F field inst
  | bc .minibc field => u.minibc F field inst
  | opmsub => u.opmsub F inst

/-- What a field of `VF[fd]` should get: the operation on the operands before the instruction. There is none of `OPMSUB`
for w. -/
def target (k : VuFloatInst) (F : FloatOps) (inst : VuInstruction) (u : VuFloatUnit σ) (f : VuField) : Uword :=
  match k, f with
  | bc op field, f => op.value F (u.readFloat inst.fs f) (u.readFloat inst.ft field) (u.acc.uw f.index)
  | opmsub, .x => opmsubValue F (u.readFloat inst.fs .y) (u.readFloat inst.ft .z) (u.acc.uw 0)
  | opmsub, .y => opmsubValue F (u.readFloat inst.fs .z) (u.readFloat inst.ft .x) (u.acc.uw 1)
  | opmsub, .z => opmsubValue F (u.readFloat inst.fs .x) (u.readFloat inst.ft .y) (u.acc.uw 2)
  | opmsub, .w => u.readFloat inst.fd .w

/-- The fields that are selected get the operation on the operands before the instruction, and nothing else is written
to the VF registers. -/
def Right (k : VuFloatInst) (F : FloatOps) (inst : VuInstruction) (u : VuFloatUnit σ) : Prop :=
  ∃ q : Uqword, (k.run F inst u).vf = Function.update u.vf inst.fd q ∧
    ∀ f : VuField, q.uw f.index = if inst.testDestField f then k.target F inst u f else u.readFloat inst.fd f

/-- The instruction words whose operands are read before they are written. -/
def Meets (k : VuFloatInst) (inst : VuInstruction) : Prop :=
  match k with
  | bc _ field => inst.fd = inst.ft → inst.testDestField field = true →
      ∀ f, inst.testDestField f = true → f.index ≤ field.index
  | opmsub => (∀ f, f ≠ .w → inst.testDestField f = true) ∧ inst.fd ≠ inst.fs ∧ inst.fd ≠ inst.ft

end VuFloatInst

/-! ### Fields written -/

namespace VuFloatUnit

variable {σ : Type} {u : VuFloatUnit σ} {r : BitVec 5} {field : VuField} {v : Uword}

theorem readFloat_writeFloat (r' : BitVec 5) (f : VuField) :
    (u.writeFloat r field v).readFloat r' f = if r' = r ∧ f = field then v else u.readFloat r' f := by
  simp only [readFloat, writeFloat]
  by_cases hr : r' = r
  · subst hr
    rw [Function.update_self]
    by_cases hf : f = field
    · subst hf
      rw [if_pos ⟨rfl, rfl⟩]
      exact Lanes.lane_setLane_self (by have := f.index_lt; omega) _ _
    · rw [if_neg fun h => hf h.2]
      exact Lanes.lane_setLane_of_ne (fun h => hf (VuField.index_inj h)) _ _
  · rw [if_neg fun h => hr h.1, Function.update_of_ne hr]

@[simp] theorem readFloat_flags (u : VuFloatUnit σ) (flags : VuFlags) (r : BitVec 5) (f : VuField) :
    readFloat { u with flags := flags } r f = u.readFloat r f := rfl

theorem readFloat_writeResult (u : VuFloatUnit σ) (result : Uword × VuFlags) (r' : BitVec 5) (f : VuField) :
    (u.writeResult r field result).readFloat r' f = if r' = r ∧ f = field then result.1 else u.readFloat r' f :=
  readFloat_writeFloat r' f

theorem vf_writeResult_of_ne (u : VuFloatUnit σ) (result : Uword × VuFlags) {r' : BitVec 5} (h : r' ≠ r) :
    (u.writeResult r field result).vf r' = u.vf r' := Function.update_of_ne h _ _

@[simp] theorem acc_writeResult (u : VuFloatUnit σ) (result : Uword × VuFlags) :
    (u.writeResult r field result).acc = u.acc := rfl

/-! ### The loop -/

section Loop

variable {compute : VuField → Uword → Uword → Uword → VuFlags → Uword × VuFlags} {skip : VuField → VuFlags → VuFlags}
  {bc : VuField} {inst : VuInstruction} {value : Uword → Uword → Uword → Uword}
  (hvalue : ∀ field a b c flags, (compute field a b c flags).1 = value a b c)

theorem acc_broadcastStep (u : VuFloatUnit σ) (field : VuField) :
    (broadcastStep compute skip bc inst u field).acc = u.acc := by
  unfold broadcastStep
  split_ifs <;> rfl

include hvalue in
/-- One field, that the step writes from its own operands and that of `VF[ft]`. -/
theorem readFloat_broadcastStep (u : VuFloatUnit σ) (field : VuField) (r : BitVec 5) (f : VuField) :
    (broadcastStep compute skip bc inst u field).readFloat r f =
      if (r = inst.fd ∧ f = field) ∧ inst.testDestField field = true then
        value (u.readFloat inst.fs field) (u.readFloat inst.ft bc) (u.acc.uw field.index)
      else u.readFloat r f := by
  unfold broadcastStep
  by_cases hsel : inst.testDestField field = true
  · rw [if_pos hsel, readFloat_writeResult, hvalue, if_congr (and_iff_left hsel) rfl rfl]
  · rw [if_neg hsel, if_neg fun h => hsel h.2, readFloat_flags]

theorem vf_broadcastStep_of_ne (u : VuFloatUnit σ) (field : VuField) {r : BitVec 5} (h : r ≠ inst.fd) :
    (broadcastStep compute skip bc inst u field).vf r = u.vf r := by
  unfold broadcastStep
  split_ifs
  · exact vf_writeResult_of_ne u _ h
  · rfl

include hvalue in
/-- As long as the field `bc` of `VF[ft]` is not written before the last field that is selected, all of them get the
operation with what it holds at first. -/
theorem broadcast_loop (fields : List VuField) (hsorted : fields.Pairwise fun f g => f.index < g.index)
    (hkeep : inst.fd = inst.ft → bc ∈ fields → inst.testDestField bc = true →
      ∀ f ∈ fields, inst.testDestField f = true → f.index ≤ bc.index)
    {b : Uword} (u : VuFloatUnit σ) (hb : (∃ f ∈ fields, inst.testDestField f = true) → u.readFloat inst.ft bc = b)
    (f : VuField) :
    (fields.foldl (broadcastStep compute skip bc inst) u).readFloat inst.fd f =
      if f ∈ fields ∧ inst.testDestField f = true then value (u.readFloat inst.fs f) b (u.acc.uw f.index)
      else u.readFloat inst.fd f := by
  induction fields generalizing u with
  | nil => rw [if_neg fun h => List.not_mem_nil h.1]; rfl
  | cons g fields ih =>
    obtain ⟨hlt, hsorted⟩ := List.pairwise_cons.mp hsorted
    have hread (r : BitVec 5) (f : VuField) : (broadcastStep compute skip bc inst u g).readFloat r f = _ :=
      readFloat_broadcastStep hvalue u g r f
    have hne {f : VuField} (hf : f ∈ fields) : f ≠ g := by
      rintro rfl
      exact Nat.lt_irrefl _ (hlt f hf)
    -- What `VF[ft]` has in the field `bc` is still to be read, so that the step has not written it.
    have hb' : (∃ f ∈ fields, inst.testDestField f = true) →
        (broadcastStep compute skip bc inst u g).readFloat inst.ft bc = b := by
      rintro ⟨f, hf, hsel⟩
      rw [hread, if_neg ?_]
      · exact hb ⟨f, List.mem_cons_of_mem _ hf, hsel⟩
      · rintro ⟨⟨hft, rfl⟩, hbc⟩
        exact Nat.not_le.mpr (hlt f hf) (hkeep hft.symm List.mem_cons_self hbc f (List.mem_cons_of_mem _ hf) hsel)
    rw [List.foldl_cons, ih hsorted (fun hft hbc hsel f hf => hkeep hft (List.mem_cons_of_mem _ hbc) hsel f
      (List.mem_cons_of_mem _ hf)) _ hb', acc_broadcastStep]
    by_cases hf : f ∈ fields ∧ inst.testDestField f = true
    · rw [if_pos hf, if_pos ⟨List.mem_cons_of_mem _ hf.1, hf.2⟩, hread, if_neg fun h => hne hf.1 h.1.2]
    · rw [if_neg hf, hread]
      by_cases hg : f = g ∧ inst.testDestField g = true
      · obtain ⟨rfl, hg⟩ := hg
        rw [if_pos ⟨⟨rfl, rfl⟩, hg⟩, if_pos ⟨List.mem_cons_self, hg⟩, hb ⟨f, List.mem_cons_self, hg⟩]
      · rw [if_neg fun h => hg ⟨h.1.2, h.2⟩, if_neg ?_]
        rintro ⟨hmem, hsel⟩
        rcases List.mem_cons.mp hmem with rfl | hmem
        · exact hg ⟨rfl, hsel⟩
        · exact hf ⟨hmem, hsel⟩

/-- The other VF registers. -/
theorem vf_broadcast_of_ne (u : VuFloatUnit σ) {r : BitVec 5} (h : r ≠ inst.fd) :
    (u.broadcast compute skip bc inst).vf r = u.vf r := by
  have hfold (fields : List VuField) (u : VuFloatUnit σ) :
      (fields.foldl (broadcastStep compute skip bc inst) u).vf r = u.vf r := by
    induction fields generalizing u with
    | nil => rfl
    | cons f fields ih => rw [List.foldl_cons, ih, vf_broadcastStep_of_ne u f h]
  exact hfold VuField.vectorFields u

end Loop

/-! ### The flags -/

section Flags

variable {compute : VuField → Uword → Uword → Uword → VuFlags → Uword × VuFlags} {skip : VuField → VuFlags → VuFlags}
  {bc : VuField} {inst : VuInstruction}
  (hcompute : ∀ field a b c s, ∃ flags, (compute field a b c s).2 = s.updateVectorField field flags)
  (hskip : ∀ field s, skip field s = s.clearVectorField field)

include hcompute hskip in
theorem flags_broadcastStep (bc : VuField) (inst : VuInstruction) (u : VuFloatUnit σ) (field : VuField) :
    ∃ r : Option FpuFlags, r.isSome = inst.testDestField field ∧
      (broadcastStep compute skip bc inst u field).flags =
        r.elim (u.flags.clearVectorField field) (u.flags.updateVectorField field) := by
  unfold broadcastStep
  split_ifs with hsel
  · obtain ⟨flags, hflags⟩ := hcompute field (u.readFloat inst.fs field) (u.readFloat inst.ft bc) (u.acc.uw field.index)
      u.flags
    exact ⟨some flags, hsel.symm, hflags⟩
  · exact ⟨none, ((Bool.not_eq_true _).mp hsel).symm, hskip field u.flags⟩

include hcompute hskip in
/-- A loop that updates `MAC` once for each field that is selected, and clears the others, is an FMAC instruction. -/
theorem exists_fmac_run (u : VuFloatUnit σ) :
    ∃ m : Fmac, m.order = VuField.vectorFields ∧ (∀ f, (m.result f).isSome = inst.testDestField f) ∧
      (u.broadcast compute skip bc inst).flags = m.run u.flags := by
  have hloop (fields : List VuField) (hnodup : fields.Nodup) (u : VuFloatUnit σ) :
      ∃ result : VuField → Option FpuFlags, (∀ f ∈ fields, (result f).isSome = inst.testDestField f) ∧
        (fields.foldl (broadcastStep compute skip bc inst) u).flags =
          fields.foldl (fun s field => (result field).elim (s.clearVectorField field) (s.updateVectorField field))
            u.flags := by
    induction fields generalizing u with
    | nil => exact ⟨fun _ => none, fun f hf => absurd hf List.not_mem_nil, rfl⟩
    | cons g fields ih =>
      obtain ⟨hg, hnodup⟩ := List.nodup_cons.mp hnodup
      obtain ⟨result, hresult, hflags⟩ := ih hnodup (broadcastStep compute skip bc inst u g)
      obtain ⟨r, hr, hstep⟩ := flags_broadcastStep hcompute hskip bc inst u g
      have hrest {f : VuField} (hf : f ∈ fields) : Function.update result g r f = result f := by
        refine Function.update_of_ne ?_ _ _
        rintro rfl
        exact hg hf
      refine ⟨Function.update result g r, fun f hf => ?_, ?_⟩
      · rcases List.mem_cons.mp hf with rfl | hf
        · rw [Function.update_self, hr]
        · rw [hrest hf, hresult f hf]
      · rw [List.foldl_cons, List.foldl_cons, hflags, Function.update_self, hstep]
        exact List.foldl_ext _ _ _ fun s f hf => by rw [hrest hf]
  obtain ⟨result, hresult, hflags⟩ := hloop VuField.vectorFields (by decide) u
  exact ⟨⟨VuField.vectorFields, .refl _, result⟩, rfl, fun f => hresult f f.mem_vectorFields, hflags⟩

end Flags

end VuFloatUnit

namespace VuField

theorem pairwise_vectorFields : vectorFields.Pairwise fun f g => f.index < g.index := by
  decide

/-- The fields up to one of them, and those after it. -/
theorem exists_split (bc : VuField) : ∃ before rest, vectorFields = before ++ rest ∧
    (∀ f, f ∈ before ↔ f.index ≤ bc.index) ∧ ∀ f, f ∈ rest ↔ bc.index < f.index := by
  refine ⟨vectorFields.filter fun f => f.index ≤ bc.index, vectorFields.filter fun f => bc.index < f.index, ?_,
    fun f => ?_, fun f => ?_⟩
  · cases bc <;> rfl
  · rw [List.mem_filter, decide_eq_true_iff, and_iff_right (mem_vectorFields f)]
  · rw [List.mem_filter, decide_eq_true_iff, and_iff_right (mem_vectorFields f)]

end VuField

namespace VuFloatInst

variable {σ : Type} {k : VuFloatInst} {F : FloatOps} {inst : VuInstruction} {u : VuFloatUnit σ} {op : VuBcOp}
  {field : VuField}

/-- The functions differ in what they do for a field alone. -/
theorem run_bc (op : VuBcOp) (field : VuField) (F : FloatOps) (inst : VuInstruction) (u : VuFloatUnit σ) :
    ∃ compute skip, run (bc op field) F inst u = u.broadcast compute skip field inst ∧
      ∀ g a b c flags, (compute g a b c flags).1 = op.value F a b c := by
  cases op <;> simp only [run] <;> exact ⟨_, _, rfl, fun _ _ _ _ _ => rfl⟩

/-- `ADDbc`, `SUBbc` and `MULbc` leave the flags of an FMAC instruction that comes to w last. -/
theorem flags_run_bc (hop : op = .addbc ∨ op = .subbc ∨ op = .mulbc) (field : VuField) (F : FloatOps)
    (inst : VuInstruction) (u : VuFloatUnit σ) :
    ∃ m : Fmac, m.order = VuField.vectorFields ∧ (∀ f, (m.result f).isSome = inst.testDestField f) ∧
      (run (bc op field) F inst u).flags = m.run u.flags := by
  rcases hop with rfl | rfl | rfl
  · exact VuFloatUnit.exists_fmac_run (fun _ _ _ _ _ => ⟨_, rfl⟩) (fun _ _ => rfl) u
  · exact VuFloatUnit.exists_fmac_run (fun _ _ _ _ _ => ⟨_, rfl⟩) (fun _ _ => rfl) u
  · exact VuFloatUnit.exists_fmac_run (fun _ _ _ _ _ => ⟨_, rfl⟩) (fun _ _ => rfl) u

/-- So a program of such instructions leaves the flags as a list of FMAC instructions does. -/
theorem flags_run_bcs (F : FloatOps) (program : List (VuFloatInst × VuInstruction))
    (hprogram : ∀ p ∈ program, ∃ op field, (op = .addbc ∨ op = .subbc ∨ op = .mulbc) ∧ p.1 = bc op field)
    (u : VuFloatUnit σ) :
    ∃ ops : List Fmac, ops.length = program.length ∧
      (program.foldl (fun u p => run p.1 F p.2 u) u).flags = u.flags.after ops := by
  induction program generalizing u with
  | nil => exact ⟨[], rfl, rfl⟩
  | cons p program ih =>
    obtain ⟨op, field, hop, hp⟩ := hprogram p List.mem_cons_self
    obtain ⟨m, -, -, hm⟩ := flags_run_bc hop field F p.2 u
    obtain ⟨ops, hlength, hops⟩ := ih (fun p hp => hprogram p (List.mem_cons_of_mem _ hp)) (run p.1 F p.2 u)
    refine ⟨m :: ops, congrArg _ hlength, ?_⟩
    rw [List.foldl_cons, hops, hp, hm]
    rfl

/-- An instruction that writes no other register is right if the fields are. -/
theorem right_iff_of_frame (h : ∀ r, r ≠ inst.fd → (k.run F inst u).vf r = u.vf r) :
    k.Right F inst u ↔ ∀ f, (k.run F inst u).readFloat inst.fd f =
      if inst.testDestField f then k.target F inst u f else u.readFloat inst.fd f := by
  constructor
  · rintro ⟨q, hq, hright⟩ f
    rw [← hright f, VuFloatUnit.readFloat, hq, Function.update_self]
  · intro hright
    refine ⟨(k.run F inst u).vf inst.fd, funext fun r => ?_, hright⟩
    by_cases hr : r = inst.fd
    · rw [hr, Function.update_self]
    · rw [Function.update_of_ne hr, h r hr]

theorem bc_right_iff :
    (bc op field).Right F inst u ↔ ∀ f, ((bc op field).run F inst u).readFloat inst.fd f =
      if inst.testDestField f then op.value F (u.readFloat inst.fs f) (u.readFloat inst.ft field) (u.acc.uw f.index)
      else u.readFloat inst.fd f := by
  obtain ⟨compute, skip, hrun, -⟩ := run_bc op field F inst u
  exact right_iff_of_frame fun r hr => hrun ▸ VuFloatUnit.vf_broadcast_of_ne u hr

theorem bc_right_of_meets (h : (bc op field).Meets inst) (F : FloatOps) : (bc op field).Right F inst u := by
  obtain ⟨compute, skip, hrun, hvalue⟩ := run_bc op field F inst u
  rw [bc_right_iff, hrun]
  intro f
  refine (VuFloatUnit.broadcast_loop hvalue VuField.vectorFields VuField.pairwise_vectorFields
    (fun hft _ hsel f _ => h hft hsel f) u (fun _ => rfl) f).trans ?_
  rw [if_congr (and_iff_right f.mem_vectorFields) rfl rfl]

/-- The field `field` of `VF[ft]` has been written when a later field is computed. -/
theorem readFloat_run_bc (op : VuBcOp) (F : FloatOps) (u : VuFloatUnit σ) (hft : inst.fd = inst.ft)
    (hfield : inst.testDestField field = true) {f : VuField} (hf : inst.testDestField f = true)
    (hlt : field.index < f.index) : ∃ a c, ((bc op field).run F inst u).readFloat inst.fd f =
      op.value F a (op.value F (u.readFloat inst.fs field) (u.readFloat inst.ft field) (u.acc.uw field.index)) c := by
  obtain ⟨compute, skip, hrun, hvalue⟩ := run_bc op field F inst u
  obtain ⟨before, rest, hfields, hbefore, hrest⟩ := VuField.exists_split field
  have hsorted := List.pairwise_append.mp (hfields ▸ VuField.pairwise_vectorFields)
  -- Up to the field itself, and the fields after it from there.
  have hfirst : (before.foldl (VuFloatUnit.broadcastStep compute skip field inst) u).readFloat inst.fd field = _ :=
    VuFloatUnit.broadcast_loop hvalue before hsorted.1 (fun _ _ _ g hg _ => (hbefore g).mp hg) u (fun _ => rfl) field
  rw [if_pos ⟨(hbefore field).mpr (Nat.le_refl _), hfield⟩] at hfirst
  have hsecond (t : VuFloatUnit σ) :
      (rest.foldl (VuFloatUnit.broadcastStep compute skip field inst) t).readFloat inst.fd f = _ :=
    VuFloatUnit.broadcast_loop hvalue rest hsorted.2.1
      (fun _ hmem => absurd ((hrest field).mp hmem) (Nat.lt_irrefl _)) t (fun _ => rfl) f
  rw [hrun, VuFloatUnit.broadcast, hfields, List.foldl_append, hsecond, if_pos ⟨(hrest f).mpr hlt, hf⟩, ← hft,
    hfirst, hft]
  exact ⟨_, _, rfl⟩

end VuFloatInst

/-! ### Operations that tell operands apart -/

/-- Two floats that `to_ps2_float` keeps, and neither of which is a given word. -/
theorem exists_kept (v : Uword) :
    ∃ v₁ v₂, v₁ ≠ v ∧ v₂ ≠ v ∧ v₁ ≠ v₂ ∧ (toPs2Float v₁).1 = v₁ ∧ (toPs2Float v₂).1 = v₂ := by
  by_cases h1 : v = 0x3F800000
  · subst h1
    exact ⟨0x40000000, 0x40400000, by decide, by decide, by decide, by decide, by decide⟩
  by_cases h2 : v = 0x40000000
  · subst h2
    exact ⟨0x3F800000, 0x40400000, by decide, by decide, by decide, by decide, by decide⟩
  exact ⟨0x3F800000, 0x40000000, Ne.symm h1, Ne.symm h2, by decide, by decide, by decide⟩

/-- A result for each operand, all of them kept, that is no given word, and that tells that word from the others. -/
theorem exists_pick (v : Uword) :
    ∃ pick : Uword → Uword, (∀ x, (toPs2Float (pick x)).1 = pick x) ∧ (∀ x, pick x ≠ v) ∧
      ∀ x, x ≠ v → pick x ≠ pick v := by
  obtain ⟨v₁, v₂, hv₁, hv₂, hne, h₁, h₂⟩ := exists_kept v
  refine ⟨fun x => if x = v then v₁ else v₂, fun x => ?_, fun x => ?_, fun x hx => ?_⟩
  · dsimp only
    split_ifs
    · exact h₁
    · exact h₂
  · dsimp only
    split_ifs
    · exact hv₁
    · exact hv₂
  · dsimp only
    rw [if_neg hx, if_pos rfl]
    exact Ne.symm hne

/-- Every operation can be any function of the operands from VF registers whose results `to_ps2_float` keeps. -/
theorem VuBcOp.exists_value_eq (op : VuBcOp) (pick : Uword → Uword → Uword)
    (hkept : ∀ a b, (toPs2Float (pick a b)).1 = pick a b) : ∃ F, ∀ a b c, op.value F a b c = pick a b := by
  cases op with
  | msubbc =>
    -- The difference gives back the product.
    refine ⟨⟨pick, fun _ b => b, pick, pick, pick⟩, fun a b c => ?_⟩
    rw [value, hkept, hkept]
  | addbc | subbc | mulbc => exact ⟨⟨pick, pick, pick, pick, pick⟩, fun a b _ => hkept a b⟩
  | maxbc | minibc => exact ⟨⟨pick, pick, pick, pick, pick⟩, fun _ _ _ => rfl⟩

theorem exists_opmsubValue_eq (pick : Uword → Uword → Uword) (hkept : ∀ a b, (toPs2Float (pick a b)).1 = pick a b) :
    ∃ F, ∀ a b c, opmsubValue F a b c = pick a b :=
  ⟨⟨pick, fun _ b => b, pick, pick, pick⟩, fun a b _ => hkept a b⟩

/-! ### `OPMSUB` -/

namespace VuFloatUnit

variable {σ : Type} {F : FloatOps} {inst : VuInstruction} {u : VuFloatUnit σ}

@[simp] theorem acc_opmsubField (field s t : VuField) : (u.opmsubField F inst field s t).acc = u.acc :=
  acc_writeResult u _

theorem readFloat_opmsubField (field s t : VuField) (r : BitVec 5) (f : VuField) :
    (u.opmsubField F inst field s t).readFloat r f =
      if r = inst.fd ∧ f = field then
        opmsubValue F (u.readFloat inst.fs s) (u.readFloat inst.ft t) (u.acc.uw field.index)
      else u.readFloat r f := readFloat_writeResult u _ r f

theorem readFloat_opmsub (r : BitVec 5) (f : VuField) :
    (u.opmsub F inst).readFloat r f =
      (((u.opmsubField F inst .x .y .z).opmsubField F inst .y .z .x).opmsubField F inst .z .x .y).readFloat r f :=
  readFloat_flags _ _ r f

theorem readFloat_opmsub_x :
    (u.opmsub F inst).readFloat inst.fd .x =
      opmsubValue F (u.readFloat inst.fs .y) (u.readFloat inst.ft .z) (u.acc.uw 0) := by
  simp [readFloat_opmsub, readFloat_opmsubField, VuField.index]

/-- x of `VF[ft]` has been written if that is the destination. -/
theorem readFloat_opmsub_y :
    (u.opmsub F inst).readFloat inst.fd .y =
      opmsubValue F (u.readFloat inst.fs .z)
        (if inst.ft = inst.fd then opmsubValue F (u.readFloat inst.fs .y) (u.readFloat inst.ft .z) (u.acc.uw 0)
          else u.readFloat inst.ft .x) (u.acc.uw 1) := by
  simp [readFloat_opmsub, readFloat_opmsubField, VuField.index]

/-- And so have been x of `VF[fs]` and y of `VF[ft]`. -/
theorem readFloat_opmsub_z :
    (u.opmsub F inst).readFloat inst.fd .z =
      opmsubValue F
        (if inst.fs = inst.fd then opmsubValue F (u.readFloat inst.fs .y) (u.readFloat inst.ft .z) (u.acc.uw 0)
          else u.readFloat inst.fs .x)
        (if inst.ft = inst.fd then (u.opmsub F inst).readFloat inst.fd .y else u.readFloat inst.ft .y)
        (u.acc.uw 2) := by
  simp [readFloat_opmsub, readFloat_opmsubField, VuField.index]

theorem readFloat_opmsub_w (r : BitVec 5) : (u.opmsub F inst).readFloat r .w = u.readFloat r .w := by
  simp [readFloat_opmsub, readFloat_opmsubField]

theorem vf_opmsubField_of_ne {r : BitVec 5} (h : r ≠ inst.fd) (field s t : VuField) :
    (u.opmsubField F inst field s t).vf r = u.vf r := vf_writeResult_of_ne u _ h

theorem vf_opmsub_of_ne {r : BitVec 5} (h : r ≠ inst.fd) : (u.opmsub F inst).vf r = u.vf r := by
  have hflags (u : VuFloatUnit σ) (flags : VuFlags) : ({ u with flags := flags } : VuFloatUnit σ).vf r = u.vf r := rfl
  refine (hflags _ _).trans ?_
  rw [vf_opmsubField_of_ne h, vf_opmsubField_of_ne h, vf_opmsubField_of_ne h]

end VuFloatUnit

namespace VuFloatInst

variable {σ : Type} {F : FloatOps} {inst : VuInstruction} {u : VuFloatUnit σ} {op : VuBcOp} {field : VuField}

theorem bc_meets_of_right (h : ∀ F, (bc op field).Right F inst u) : (bc op field).Meets inst := by
  intro hft hfield f hf
  by_contra hlt
  obtain ⟨pick, hkept, hother, hpick⟩ := exists_pick (u.readFloat inst.ft field)
  obtain ⟨F, hF⟩ := op.exists_value_eq (fun _ b => pick b) fun _ b => hkept b
  have hright := bc_right_iff.mp (h F) f
  obtain ⟨a, c, hrun⟩ := readFloat_run_bc op F u hft hfield hf (Nat.not_le.mp hlt)
  rw [hrun, if_pos hf, hF, hF, hF] at hright
  exact hpick _ (hother _) hright

theorem opmsub_right_iff :
    opmsub.Right F inst u ↔ ∀ f, (u.opmsub F inst).readFloat inst.fd f =
      if inst.testDestField f then opmsub.target F inst u f else u.readFloat inst.fd f :=
  right_iff_of_frame fun _ hr => VuFloatUnit.vf_opmsub_of_ne hr

theorem opmsub_right_of_meets (h : opmsub.Meets inst) (F : FloatOps) : opmsub.Right F inst u := by
  obtain ⟨hselected, hfs, hft⟩ := h
  refine opmsub_right_iff.mpr fun f => ?_
  cases f with
  | x => rw [if_pos (hselected .x (by decide)), VuFloatUnit.readFloat_opmsub_x]; rfl
  | y => rw [if_pos (hselected .y (by decide)), VuFloatUnit.readFloat_opmsub_y, if_neg (Ne.symm hft)]; rfl
  | z =>
    rw [if_pos (hselected .z (by decide)), VuFloatUnit.readFloat_opmsub_z, if_neg (Ne.symm hfs), if_neg (Ne.symm hft)]
    rfl
  | w =>
    rw [VuFloatUnit.readFloat_opmsub_w]
    split_ifs
    · rfl
    · rfl

/-- x, y and z are written whether they are selected or not. -/
theorem selected_of_opmsub_right (h : ∀ F, opmsub.Right F inst u) {f : VuField} (hf : f ≠ .w) :
    inst.testDestField f = true := by
  by_contra hsel
  obtain ⟨pick, hkept, hother, -⟩ := exists_pick (u.readFloat inst.fd f)
  obtain ⟨F, hF⟩ := exists_opmsubValue_eq (fun _ b => pick b) fun _ b => hkept b
  have hright := opmsub_right_iff.mp (h F) f
  rw [if_neg hsel] at hright
  cases f with
  | x => exact hother _ ((hF _ _ _).symm.trans (VuFloatUnit.readFloat_opmsub_x.symm.trans hright))
  | y => exact hother _ ((hF _ _ _).symm.trans (VuFloatUnit.readFloat_opmsub_y.symm.trans hright))
  | z => exact hother _ ((hF _ _ _).symm.trans (VuFloatUnit.readFloat_opmsub_z.symm.trans hright))
  | w => exact hf rfl

/-- The product for y takes x of `VF[ft]` when it has been written. -/
theorem fd_ne_ft_of_opmsub_right (h : ∀ F, opmsub.Right F inst u) : inst.fd ≠ inst.ft := by
  intro hft
  obtain ⟨pick, hkept, hother, hpick⟩ := exists_pick (u.readFloat inst.ft .x)
  obtain ⟨F, hF⟩ := exists_opmsubValue_eq (fun _ b => pick b) fun _ b => hkept b
  have hright := opmsub_right_iff.mp (h F) .y
  rw [if_pos (selected_of_opmsub_right h (by decide)), VuFloatUnit.readFloat_opmsub_y, if_pos hft.symm, target, hF, hF,
    hF] at hright
  exact hpick _ (hother _) hright

/-- The product for z takes x of `VF[fs]` when it has been written. -/
theorem fd_ne_fs_of_opmsub_right (h : ∀ F, opmsub.Right F inst u) : inst.fd ≠ inst.fs := by
  intro hfs
  obtain ⟨pick, hkept, hother, hpick⟩ := exists_pick (u.readFloat inst.fs .x)
  obtain ⟨F, hF⟩ := exists_opmsubValue_eq (fun a _ => pick a) fun a _ => hkept a
  have hright := opmsub_right_iff.mp (h F) .z
  rw [if_pos (selected_of_opmsub_right h (by decide)), VuFloatUnit.readFloat_opmsub_z, if_pos hfs.symm, target, hF, hF,
    hF] at hright
  exact hpick _ (hother _) hright

/-- The sum is what it is when the first operand is 1 and the second 1 or 2. -/
def sumsOfOne : FloatOps where
  add := fun _ b => if b = 0x3F800000 then 0x40000000 else 0x40400000
  sub := fun a _ => a
  mul := fun a _ => a
  max := fun a _ => a
  min := fun a _ => a

/-- VF registers that hold nothing but the float 1. -/
def floatOnes : VuFloatUnit Unit :=
  ⟨{ VuUnit.initial 0 () with vf := fun _ => .ofWords 0x3F800000 0x3F800000 0x3F800000 0x3F800000 }, 0, 0, ⟨0, 0⟩⟩

/-- `ADDx.xy VF01, VF02, VF01x` adds 2 to y. -/
theorem not_right_addbc : ¬(bc .addbc .x).Right sumsOfOne ⟨0x4B811040⟩ floatOnes := by
  intro h
  have hvalue (a b c : Uword) :
      VuBcOp.addbc.value sumsOfOne a b c = (toPs2Float (if b = 0x3F800000 then 0x40000000 else 0x40400000)).1 := rfl
  have hright := bc_right_iff.mp h .y
  obtain ⟨a, c, hrun⟩ := readFloat_run_bc .addbc sumsOfOne floatOnes
    (show VuInstruction.fd ⟨0x4B811040⟩ = VuInstruction.ft ⟨0x4B811040⟩ by decide)
    (show VuInstruction.testDestField _ .x = true by decide) (show VuInstruction.testDestField _ .y = true by decide)
    (by decide)
  rw [hrun, if_pos (by decide), hvalue, hvalue, hvalue] at hright
  exact absurd hright (by decide)

/-- Which instruction words have their operands read first, whatever the float operations are. -/
theorem operandsFirst_iff (k : VuFloatInst) (inst : VuInstruction) (u : VuFloatUnit σ) :
    (∀ F, k.Right F inst u) ↔ k.Meets inst := by
  cases k with
  | bc op field => exact ⟨bc_meets_of_right, bc_right_of_meets⟩
  | opmsub =>
    constructor
    · exact fun h => ⟨fun f hf => selected_of_opmsub_right h hf, fd_ne_fs_of_opmsub_right h, fd_ne_ft_of_opmsub_right h⟩
    · exact opmsub_right_of_meets

end VuFloatInst

end Orbum
