import Orbum.Ee.Vu.FloatUnit
import Orbum.Lib.Run

/-!
# The random number of a VU

`RINIT`, `RGET`, `RNEXT` and `RXOR` of `Controller/Ee/Vpu/Vu/Interpreter/CVuInterpreter_OTHER.cpp`. `R` is a float whose
mantissa is a shift register of 23 bits.

## What is proved

`randomRight_iff`: when a run that begins with `RINIT` is right. `RNEXT` names a register to write and does not, and
`RXOR` takes `VF[ft]` where `RINIT` takes `VF[fs]`. What it says of `R` alone, `RNEXT` always does.
-/

namespace Orbum

namespace VuInstruction

/-- `FSF`. -/
def fsfField : Bitfield := ⟨21, 2⟩

/-- `fsf()`. -/
def fsf (inst : VuInstruction) : Ubyte := (fsfField.extractFrom inst.value).setWidth 8

theorem fsf_lt (inst : VuInstruction) : inst.fsf.toNat < 4 := by
  have hlt := Bitfield.toNat_extractFrom_lt fsfField inst.value
  have hle : (fsfField.extractFrom inst.value).toNat < 4 := hlt
  rw [fsf, BitVec.toNat_setWidth]
  omega

end VuInstruction

namespace VuFloatUnit

variable {σ : Type} (inst : VuInstruction) (u : VuFloatUnit σ)

/-- `append`, the sign and the exponent of a float from 1 to 2. -/
def append : Uword := 0b001111111#32 <<< 23

/-- `RINIT`. -/
def rinit : Except HostError (VuFloatUnit σ) := do
  let v ← u.readUword inst.fs inst.fsf.toNat
  return { u with r := (v &&& 0x7FFFFF) ||| append }

/-- `RGET`. -/
def rget : Except HostError (VuFloatUnit σ) := do
  let v ← u.toVuUnit.writeFields (fun _ => u.r) inst
  return { u with toVuUnit := v }

/-- `R` one step of the register later. -/
def advanceR (r : Uword) : Uword :=
  ((r <<< 1 ^^^ ((r >>> 4 &&& 1) ^^^ (r >>> 22 &&& 1))) &&& 0x7FFFFF) ||| append

/-- `RNEXT`. -/
def rnext (_inst : VuInstruction) (u : VuFloatUnit σ) : Except HostError (VuFloatUnit σ) :=
  .ok { u with r := advanceR u.r }

/-- `RXOR`. -/
def rxor : Except HostError (VuFloatUnit σ) := do
  let v ← u.readUword inst.ft inst.fsf.toNat
  return { u with r := u.r ^^^ (v &&& 0x7FFFFF) }

end VuFloatUnit

/-- The instructions of the random number. -/
inductive VuRandom where
  | rinit | rget | rnext | rxor
  deriving DecidableEq

/-- An instruction with its word. -/
structure RandomOp where
  /-- Which one it is. -/
  kind : VuRandom
  /-- Its word. -/
  inst : VuInstruction

namespace RandomOp

variable {σ : Type}

/-- The function of the interpreter. -/
def step (op : RandomOp) (u : VuFloatUnit σ) : Except HostError (VuFloatUnit σ) :=
  match op.kind with
  | .rinit => u.rinit op.inst
  | .rget => u.rget op.inst
  | .rnext => u.rnext op.inst
  | .rxor => u.rxor op.inst

/-- The mantissa of a float. -/
def mantissa (v : Uword) : BitVec 23 := v.setWidth 23

/-- What `RNEXT` does to the mantissa. -/
def advance (m : BitVec 23) : BitVec 23 := m <<< 1 ||| ((m >>> 4 ^^^ m >>> 22) &&& 1)

/-- Bits 31 to 23 are those of a float from 1 to 2. -/
def Tagged (v : Uword) : Prop := v >>> 23 = 0x7F

instance (v : Uword) : Decidable (Tagged v) := inferInstanceAs (Decidable (_ = _))

/-- The operation does what it should. -/
def Right (op : RandomOp) (u : VuFloatUnit σ) : Prop :=
  ∃ t, op.step u = .ok t ∧ Tagged t.r ∧
    match op.kind with
    | .rinit | .rget => True
    | .rnext =>
      mantissa t.r = advance (mantissa u.r) ∧ VuFloatUnit.rget op.inst { u with r := t.r } = .ok t
    | .rxor => mantissa t.r = mantissa u.r ^^^ mantissa ((u.vf op.inst.fs).uw op.inst.fsf.toNat)

/-- The word is the random number that follows, bit by bit. -/
def Follows (r v : Uword) : Prop :=
  Tagged v ∧ (∀ i < 22, v.getLsbD (i + 1) = r.getLsbD i) ∧ v.getLsbD 0 = (r.getLsbD 4 ^^ r.getLsbD 22)

/-- The registers happen to hold what the operation should have written or read. -/
def Meets (op : RandomOp) (u : VuFloatUnit σ) : Prop :=
  match op.kind with
  | .rinit | .rget => True
  | .rnext => ∀ f, op.inst.testDestField f = true → Follows u.r ((u.vf op.inst.ft).uw f.index)
  | .rxor =>
    mantissa ((u.vf op.inst.ft).uw op.inst.fsf.toNat) = mantissa ((u.vf op.inst.fs).uw op.inst.fsf.toNat)

/-! ### The mantissa -/

theorem getLsbD_advance (m : BitVec 23) {i : ℕ} (hi : i < 23) :
    (advance m).getLsbD i = if i = 0 then m.getLsbD 4 ^^ m.getLsbD 22 else m.getLsbD (i - 1) := by
  rw [advance, BitVec.getLsbD_or, BitVec.getLsbD_shiftLeft, BitVec.getLsbD_and, BitVec.getLsbD_xor,
    BitVec.getLsbD_ushiftRight, BitVec.getLsbD_ushiftRight, show (1 : BitVec 23) = 1#23 from rfl, BitVec.getLsbD_one]
  by_cases h : i = 0
  · subst h
    simp [-BitVec.getLsbD_eq_getElem]
  · simp [h, hi, -BitVec.getLsbD_eq_getElem, show ¬i < 1 by omega]

/-- The first 22 bits are moved up, and the last can be told from the one that they leave. -/
theorem advance_injective : Function.Injective advance := by
  intro m n h
  have hbit {i : ℕ} (hi : i < 23) : (advance m).getLsbD i = (advance n).getLsbD i := by
    rw [h]
  have hlow {i : ℕ} (hi : i < 22) : m.getLsbD i = n.getLsbD i := by
    have hmoved := hbit (Nat.succ_lt_succ hi)
    rwa [getLsbD_advance m (Nat.succ_lt_succ hi), getLsbD_advance n (Nat.succ_lt_succ hi), if_neg (Nat.succ_ne_zero i),
      if_neg (Nat.succ_ne_zero i), Nat.succ_sub_one] at hmoved
  have hhigh : m.getLsbD 22 = n.getLsbD 22 := by
    have hleft := hbit (i := 0) (by decide)
    rw [getLsbD_advance m (by decide), getLsbD_advance n (by decide), if_pos rfl, if_pos rfl,
      hlow (i := 4) (by decide)] at hleft
    exact Bool.xor_right_inj.mp hleft
  apply BitVec.eq_of_getLsbD_eq
  intro i hi
  rcases Nat.lt_succ_iff_lt_or_eq.mp hi with hi | rfl
  · exact hlow hi
  · exact hhigh

theorem advance_ne_zero {m : BitVec 23} (h : m ≠ 0) : advance m ≠ 0 := fun hzero =>
  h (advance_injective (hzero.trans (show (0 : BitVec 23) = advance 0 by decide)))

/-! ### The exponent -/

theorem mantissa_mask (v : Uword) : mantissa (v &&& 0x7FFFFF) = mantissa v := by
  rw [mantissa, BitVec.setWidth_and, show (0x7FFFFF : Uword).setWidth 23 = BitVec.allOnes 23 by decide,
    BitVec.and_allOnes]
  rfl

theorem mantissa_tag (v : Uword) : mantissa (v ||| VuFloatUnit.append) = mantissa v := by
  rw [mantissa, BitVec.setWidth_or, show VuFloatUnit.append.setWidth 23 = 0#23 by decide, BitVec.or_zero]
  rfl

theorem mask_shift (v : Uword) : (v &&& 0x7FFFFF) >>> 23 = 0 := by
  rw [BitVec.ushiftRight_and_distrib, show (0x7FFFFF : Uword) >>> 23 = 0#32 by decide, BitVec.and_zero]
  rfl

theorem tagged_tag (v : Uword) : Tagged ((v &&& 0x7FFFFF) ||| VuFloatUnit.append) := by
  rw [Tagged, BitVec.ushiftRight_or_distrib, mask_shift]
  decide

theorem tagged_xor {r : Uword} (h : Tagged r) (v : Uword) : Tagged (r ^^^ (v &&& 0x7FFFFF)) := by
  rw [Tagged, BitVec.ushiftRight_xor_distrib, mask_shift, h]
  rfl

/-- A word is what its first 9 bits and its mantissa are. -/
theorem eq_of_mantissa {v w : Uword} (hv : Tagged v) (hw : Tagged w) (h : mantissa v = mantissa w) : v = w := by
  apply BitVec.eq_of_getLsbD_eq
  intro i hi
  by_cases hlow : i < 23
  · have hbit := congrArg (fun m => m.getLsbD i) h
    simpa [mantissa, hlow, -BitVec.getLsbD_eq_getElem] using hbit
  · have hbit := congrArg (fun t => t.getLsbD (i - 23)) (hv.trans hw.symm)
    simpa [show 23 + (i - 23) = i by omega, -BitVec.getLsbD_eq_getElem] using hbit

theorem tagged_advanceR (r : Uword) : Tagged (VuFloatUnit.advanceR r) := tagged_tag _

theorem mantissa_advanceR (r : Uword) : mantissa (VuFloatUnit.advanceR r) = advance (mantissa r) := by
  rw [VuFloatUnit.advanceR, mantissa_tag, mantissa_mask]
  apply BitVec.eq_of_getLsbD_eq
  intro i hi
  rw [getLsbD_advance _ hi, mantissa, BitVec.getLsbD_setWidth, BitVec.getLsbD_xor, BitVec.getLsbD_shiftLeft,
    BitVec.getLsbD_xor, BitVec.getLsbD_and, BitVec.getLsbD_and, BitVec.getLsbD_ushiftRight, BitVec.getLsbD_ushiftRight,
    show (1 : Uword) = 1#32 from rfl, BitVec.getLsbD_one]
  by_cases h : i = 0
  · subst h
    simp [mantissa, -BitVec.getLsbD_eq_getElem]
  · simp [mantissa, h, hi, -BitVec.getLsbD_eq_getElem, show ¬i < 1 by omega, show i < 32 by omega,
      show i - 1 < 23 by omega]

/-- The random number that follows is the one that `RNEXT` comes to. -/
theorem follows_iff {r v : Uword} : Follows r v ↔ v = VuFloatUnit.advanceR r := by
  have hmantissa (w : Uword) {i : ℕ} (hi : i < 23) : (mantissa w).getLsbD i = w.getLsbD i := by
    rw [mantissa, BitVec.getLsbD_setWidth, decide_eq_true hi, Bool.true_and]
  constructor
  · rintro ⟨htag, hlow, hzero⟩
    refine eq_of_mantissa htag (tagged_advanceR r) ?_
    rw [mantissa_advanceR]
    apply BitVec.eq_of_getLsbD_eq
    intro i hi
    rw [getLsbD_advance _ hi, hmantissa v hi]
    cases i with
    | zero => rw [if_pos rfl, hzero, hmantissa r (by decide), hmantissa r (by decide)]
    | succ i => rw [if_neg (Nat.succ_ne_zero i), Nat.succ_sub_one, hlow i (by omega), hmantissa r (by omega)]
  · rintro rfl
    have hbit {i : ℕ} (hi : i < 23) : (VuFloatUnit.advanceR r).getLsbD i = (advance (mantissa r)).getLsbD i := by
      rw [← mantissa_advanceR, hmantissa _ hi]
    refine ⟨tagged_advanceR r, fun i hi => ?_, ?_⟩
    · rw [hbit (by omega), getLsbD_advance _ (by omega), if_neg (Nat.succ_ne_zero i), Nat.succ_sub_one,
        hmantissa r (by omega)]
    · rw [hbit (by decide), getLsbD_advance _ (by decide), if_pos rfl, hmantissa r (by decide), hmantissa r (by decide)]

/-! ### Operations -/

variable {inst : VuInstruction} {u t : VuFloatUnit σ}

theorem rinit_eq (inst : VuInstruction) (u : VuFloatUnit σ) :
    u.rinit inst =
      .ok { u with r := ((u.vf inst.fs).uw inst.fsf.toNat &&& 0x7FFFFF) ||| VuFloatUnit.append } := by
  rw [VuFloatUnit.rinit, VuUnit.readUword, if_pos inst.fsf_lt]
  rfl

theorem rxor_eq (inst : VuInstruction) (u : VuFloatUnit σ) :
    u.rxor inst = .ok { u with r := u.r ^^^ ((u.vf inst.ft).uw inst.fsf.toNat &&& 0x7FFFFF) } := by
  rw [VuFloatUnit.rxor, VuUnit.readUword, if_pos inst.fsf_lt]
  rfl

theorem rget_eq (inst : VuInstruction) (u : VuFloatUnit σ) :
    ∃ q, u.rget inst = .ok { u with vf := Function.update u.vf inst.ft q } ∧
      ∀ f : VuField, q.uw f.index = if inst.testDestField f then u.r else (u.vf inst.ft).uw f.index := by
  obtain ⟨q, hrun, hq⟩ := VuUnit.writeFields_eq (fun _ => u.r) inst u.toVuUnit
  refine ⟨q, ?_, hq⟩
  rw [VuFloatUnit.rget, hrun]
  rfl

/-- `RGET` changes nothing if and only if the fields that are selected hold `R`. -/
theorem rget_eq_self_iff :
    u.rget inst = .ok u ↔ ∀ f, inst.testDestField f = true → (u.vf inst.ft).uw f.index = u.r := by
  obtain ⟨q, hrun, hq⟩ := rget_eq inst u
  rw [hrun]
  constructor
  · intro h f hf
    have hvf : (Function.update u.vf inst.ft q) inst.ft = u.vf inst.ft :=
      congrArg (fun t : VuFloatUnit σ => t.vf inst.ft) (Except.ok.inj h)
    rw [Function.update_self] at hvf
    rw [← hvf, hq f, if_pos hf]
  · intro h
    have hsame : q = u.vf inst.ft := VuUnit.eq_of_fields fun f => by
      rw [hq f]
      split_ifs with hf
      · exact (h f hf).symm
      · rfl
    rw [hsame, Function.update_eq_self]

theorem tagged_step (op : RandomOp) (hu : Tagged u.r) (h : op.step u = .ok t) : Tagged t.r := by
  obtain ⟨kind, inst⟩ := op
  cases kind with
  | rinit =>
    obtain rfl := Except.ok.inj ((rinit_eq inst u).symm.trans h)
    exact tagged_tag _
  | rget =>
    obtain ⟨q, hrun, -⟩ := rget_eq inst u
    obtain rfl := Except.ok.inj (hrun.symm.trans h)
    exact hu
  | rnext =>
    obtain rfl := Except.ok.inj h
    exact tagged_advanceR u.r
  | rxor =>
    obtain rfl := Except.ok.inj ((rxor_eq inst u).symm.trans h)
    exact tagged_xor hu _

theorem rinit_right (inst : VuInstruction) (u : VuFloatUnit σ) : (⟨.rinit, inst⟩ : RandomOp).Right u :=
  ⟨_, rinit_eq inst u, tagged_tag _, trivial⟩

theorem rget_right (hu : Tagged u.r) : (⟨.rget, inst⟩ : RandomOp).Right u := by
  obtain ⟨q, hrun, -⟩ := rget_eq inst u
  exact ⟨_, hrun, hu, trivial⟩

/-- `RNEXT` writes no register, so that the fields have to hold the number already. -/
theorem rnext_right_iff : (⟨.rnext, inst⟩ : RandomOp).Right u ↔ (⟨.rnext, inst⟩ : RandomOp).Meets u := by
  have hget : VuFloatUnit.rget inst { u with r := VuFloatUnit.advanceR u.r } = .ok _ ↔ _ := rget_eq_self_iff
  constructor
  · rintro ⟨t, ht, -, -, hright⟩ f hf
    obtain rfl := Except.ok.inj ht
    exact follows_iff.mpr (hget.mp hright f hf)
  · intro h
    exact ⟨_, rfl, tagged_advanceR u.r, mantissa_advanceR u.r, hget.mpr fun f hf => follows_iff.mp (h f hf)⟩

/-- `RXOR` is right if the register that it takes agrees with the one that it should take. -/
theorem rxor_right_iff (hu : Tagged u.r) :
    (⟨.rxor, inst⟩ : RandomOp).Right u ↔ (⟨.rxor, inst⟩ : RandomOp).Meets u := by
  have hmantissa (v : Uword) : mantissa (u.r ^^^ (v &&& 0x7FFFFF)) = mantissa u.r ^^^ mantissa v := by
    rw [← mantissa_mask v]
    exact BitVec.setWidth_xor
  constructor
  · rintro ⟨t, ht, -, hright⟩
    obtain rfl := Except.ok.inj ((rxor_eq inst u).symm.trans ht)
    exact (BitVec.xor_right_inj _).mp ((hmantissa _).symm.trans hright)
  · intro h
    exact ⟨_, rxor_eq inst u, tagged_xor hu _, (hmantissa _).trans (congrArg _ h)⟩

theorem right_iff (op : RandomOp) (u : VuFloatUnit σ) (hu : Tagged u.r) : op.Right u ↔ op.Meets u := by
  obtain ⟨kind, inst⟩ := op
  cases kind with
  | rinit => exact iff_of_true (rinit_right inst u) trivial
  | rget => exact iff_of_true (rget_right hu) trivial
  | rnext => exact rnext_right_iff
  | rxor => exact rxor_right_iff hu

/-- The register steps as a map should that forgets nothing, and every operation of the run is right. -/
def RunRight (first : VuInstruction) (ops : List RandomOp) (u : VuFloatUnit σ) : Prop :=
  Function.Injective advance ∧ (∀ m, m ≠ 0 → advance m ≠ 0) ∧ Run.Always step Right (⟨.rinit, first⟩ :: ops) u

/-- `RNEXT.x VF01` once `R` is 1.0, in registers that are 0. -/
theorem not_runRight_rnext :
    ¬RunRight ⟨0⟩ [⟨.rnext, ⟨0x81010000⟩⟩] (⟨.initial 0 (), 0, 0, ⟨0, 0⟩⟩ : VuFloatUnit Unit) := by
  rintro ⟨-, -, -, h⟩
  have hright := (h _ (rinit_eq _ _)).1
  have htagged : Tagged 0 := (rnext_right_iff.mp hright .x (by decide)).1
  exact absurd htagged (by decide)

/-- Which runs that begin with `RINIT` are right. -/
theorem randomRight_iff (first : VuInstruction) (ops : List RandomOp) (u : VuFloatUnit σ) :
    RunRight first ops u ↔ Run.Always step Meets (⟨.rinit, first⟩ :: ops) u := by
  have hrest (t : VuFloatUnit σ) (ht : Tagged t.r) : Run.Always step Right ops t ↔ Run.Always step Meets ops t :=
    Run.always_iff_of_keeps (I := fun t : VuFloatUnit σ => Tagged t.r)
      (fun op _ _ ht _ h => tagged_step op ht h) right_iff ht
  have htagged {t : VuFloatUnit σ} (h : (⟨.rinit, first⟩ : RandomOp).step u = .ok t) : Tagged t.r := by
    obtain rfl := Except.ok.inj ((rinit_eq first u).symm.trans h)
    exact tagged_tag _
  constructor
  · rintro ⟨-, -, -, h⟩
    exact ⟨trivial, fun t ht => (hrest t (htagged ht)).mp (h t ht)⟩
  · rintro ⟨-, h⟩
    exact ⟨advance_injective, fun _ => advance_ne_zero, rinit_right first u,
      fun t ht => (hrest t (htagged ht)).mpr (h t ht)⟩

end RandomOp

end Orbum
