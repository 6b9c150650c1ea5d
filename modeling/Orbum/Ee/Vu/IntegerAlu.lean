import Orbum.Ee.Core.Interpreter.Instruction
import Orbum.Ee.Vu.Branches

/-!
# Integer arithmetic of the VUs

`Controller/Ee/Vpu/Vu/Interpreter/CVuInterpreter_INTEGER.cpp`, in micro mode and, for VU0, behind the instructions of
`CEeCoreInterpreter_COP2.cpp` that hand over to it.

`id()` returns `fs()`, so that what should go to `VI[id]` goes to `VI[is]`. The instructions with an immediate write
`VI[it]` and are right.
-/

namespace Orbum

namespace VuUnit

variable {σ : Type}

/-- What the instructions on two registers have in common. -/
def registerOp (op : Uhword → Uhword → Uhword) (inst : VuInstruction) (u : VuUnit σ) : Except HostError (VuUnit σ) := do
  let is ← viIndex inst.is
  let it ← viIndex inst.it
  let id ← viIndex inst.id
  return u.writeUhword id (op (u.vi is) (u.vi it))

/-- What the instructions on a register and an immediate have in common. -/
def immediateOp (op : VuInstruction → Uhword → Uhword) (inst : VuInstruction) (u : VuUnit σ) :
    Except HostError (VuUnit σ) := do
  let is ← viIndex inst.is
  let it ← viIndex inst.it
  return u.writeUhword it (op inst (u.vi is))

/-- `IADD`. -/
def iadd : VuInstruction → VuUnit σ → Except HostError (VuUnit σ) := registerOp fun a b => a + b

/-- `IADDI`. -/
def iaddi : VuInstruction → VuUnit σ → Except HostError (VuUnit σ) :=
  immediateOp fun inst a => a + extendInteger 5 (inst.imm5.setWidth 16)

/-- `IADDIU`. -/
def iaddiu : VuInstruction → VuUnit σ → Except HostError (VuUnit σ) := immediateOp fun inst a => a + inst.imm15

/-- `IAND`. -/
def iand : VuInstruction → VuUnit σ → Except HostError (VuUnit σ) := registerOp fun a b => a &&& b

/-- `IOR`. -/
def ior : VuInstruction → VuUnit σ → Except HostError (VuUnit σ) := registerOp fun a b => a ||| b

/-- `ISUB`. -/
def isub : VuInstruction → VuUnit σ → Except HostError (VuUnit σ) := registerOp fun a b => a - b

/-- `ISUBIU`. -/
def isubiu : VuInstruction → VuUnit σ → Except HostError (VuUnit σ) := immediateOp fun inst a => a - inst.imm15

end VuUnit

namespace EeCore

variable {σ : Type}

/-- What the instructions of the EE core that hand over to VU0 have in common. -/
def macroMode (micro : VuInstruction → VuUnit σ → Except HostError (VuUnit σ)) (inst : EeCoreInstruction)
    (s : EeCore (VuUnit σ)) : Except HostError (Result (VuUnit σ) Unit) :=
  if isUsable s.cop0 .cop2 then do
    let rest ← micro ⟨inst.value⟩ s.data.rest
    return .value () (s.setData { s.data with rest })
  else .ok (s.handleCopUsable .cop2)

/-- `VIADD`. -/
def viadd : EeCoreInstruction → EeCore (VuUnit σ) → Except HostError (Result (VuUnit σ) Unit) := macroMode VuUnit.iadd

/-- `VIADDI`. -/
def viaddi : EeCoreInstruction → EeCore (VuUnit σ) → Except HostError (Result (VuUnit σ) Unit) := macroMode VuUnit.iaddi

/-- `VIAND`. -/
def viand : EeCoreInstruction → EeCore (VuUnit σ) → Except HostError (Result (VuUnit σ) Unit) := macroMode VuUnit.iand

/-- `VIOR`. -/
def vior : EeCoreInstruction → EeCore (VuUnit σ) → Except HostError (Result (VuUnit σ) Unit) := macroMode VuUnit.ior

/-- `VISUB`. -/
def visub : EeCoreInstruction → EeCore (VuUnit σ) → Except HostError (Result (VuUnit σ) Unit) := macroMode VuUnit.isub

end EeCore

/-! ### What the instructions should do -/

/-- The instructions that write `VI[id]`. -/
inductive VuRegisterOp where
  | iadd | isub | iand | ior
  deriving DecidableEq

/-- The instructions that write `VI[it]`. -/
inductive VuImmediateOp where
  | iaddi | iaddiu | isubiu
  deriving DecidableEq

namespace VuRegisterOp

variable {σ : Type}

/-- In micro mode. -/
def micro : VuRegisterOp → VuInstruction → VuUnit σ → Except HostError (VuUnit σ)
  | iadd => VuUnit.iadd
  | isub => VuUnit.isub
  | iand => VuUnit.iand
  | ior => VuUnit.ior

/-- In macro mode. -/
def ee : VuRegisterOp → EeCoreInstruction → EeCore (VuUnit σ) → Except HostError (Result (VuUnit σ) Unit)
  | iadd => EeCore.viadd
  | isub => EeCore.visub
  | iand => EeCore.viand
  | ior => EeCore.vior

/-- The operation. -/
def op : VuRegisterOp → Uhword → Uhword → Uhword
  | iadd => fun a b => a + b
  | isub => fun a b => a - b
  | iand => fun a b => a &&& b
  | ior => fun a b => a ||| b

end VuRegisterOp

namespace VuImmediateOp

variable {σ : Type}

/-- In micro mode. -/
def micro : VuImmediateOp → VuInstruction → VuUnit σ → Except HostError (VuUnit σ)
  | iaddi => VuUnit.iaddi
  | iaddiu => VuUnit.iaddiu
  | isubiu => VuUnit.isubiu

/-- The operation on the register, with five bits of the instruction or fifteen. -/
def op (k : VuImmediateOp) (inst : VuInstruction) (a : Uhword) : Uhword :=
  let imm5 : BitVec 5 := inst.fd
  let imm15 : BitVec 15 :=
    (VuInstruction.destField.extractFrom inst.value).setWidth 4 ++ (VuInstruction.imm11Field.extractFrom inst.value).setWidth 11
  match k with
  | iaddi => a + imm5.signExtend 16
  | iaddiu => a + imm15.setWidth 16
  | isubiu => a - imm15.setWidth 16

end VuImmediateOp

namespace VuUnit

variable {σ : Type}

/-- The VU after a write of what `op` makes of `VI[is]` and `VI[it]` to the register that a field names. All three are VI
registers, and `VI[0]` is kept. -/
def Writes (op : Uhword → Uhword → Uhword) (field : BitVec 5) (inst : VuInstruction) (u v : VuUnit σ) : Prop :=
  ∃ is it d, viIndex inst.is = .ok is ∧ viIndex inst.it = .ok it ∧ viIndex field = .ok d ∧
    v = u.writeUhword d (op (u.vi is) (u.vi it)) ∧ v.vi 0 = u.vi 0

/-- Register `i` holds this value, or no write changes it. -/
def Holds (u : VuUnit σ) (i : BitVec 4) (value : Uhword) : Prop := i = 0 ∨ u.vi i = value

variable {u : VuUnit σ} {i j : BitVec 4} {value : Uhword}

theorem writeUhword_eq_self_iff : u.writeUhword i value = u ↔ u.Holds i value := by
  unfold writeUhword Holds
  by_cases hi : i = 0
  · simp [hi]
  · rw [if_neg hi, or_iff_right hi]
    constructor
    · intro h
      have hvi := congrArg (fun v => v.vi i) h
      exact hvi.symm.trans (Function.update_self _ _ _)
    · intro h
      rw [← h, Function.update_eq_self]

/-- Writes to two registers agree just if they are one, or neither write changes anything. -/
theorem writeUhword_eq_writeUhword_iff :
    u.writeUhword i value = u.writeUhword j value ↔ i = j ∨ u.Holds i value ∧ u.Holds j value := by
  rw [← writeUhword_eq_self_iff, ← writeUhword_eq_self_iff]
  constructor
  · intro h
    by_cases hij : i = j
    · exact .inl hij
    · have hi : u.writeUhword i value = u := by
        rw [writeUhword_eq_self_iff]
        by_cases hi : i = 0
        · exact .inl hi
        · right
          have hkept : (u.writeUhword j value).vi i = u.vi i := vi_writeUhword_of_ne hij
          rw [← hkept, ← h, vi_writeUhword_self hi]
      exact .inr ⟨hi, h.symm.trans hi⟩
  · rintro (rfl | ⟨hi, hj⟩)
    · rfl
    · rw [hi, hj]

theorem vi_zero_writeUhword : (u.writeUhword i value).vi 0 = u.vi 0 := by
  by_cases hi : i = 0
  · rw [hi, writeUhword_zero]
  · exact vi_writeUhword_of_ne (Ne.symm hi)

end VuUnit

/-- All fields name VI registers, and it makes no difference that `VI[is]` is written for `VI[id]`. -/
def VuRegisterOp.Meets {σ : Type} (k : VuRegisterOp) (inst : VuInstruction) (u : VuUnit σ) : Prop :=
  inst.is.toNat < 16 ∧ inst.it.toNat < 16 ∧ inst.fd.toNat < 16 ∧
    (inst.fd = inst.is ∨
      u.Holds (inst.is.setWidth 4) (k.op (u.vi (inst.is.setWidth 4)) (u.vi (inst.it.setWidth 4))) ∧
        u.Holds (inst.fd.setWidth 4) (k.op (u.vi (inst.is.setWidth 4)) (u.vi (inst.it.setWidth 4))))

namespace VuUnit

variable {σ : Type}

/-- An instruction in micro mode writes to a register what it should. -/
def RightMicro (micro : VuInstruction → VuUnit σ → Except HostError (VuUnit σ)) (op : Uhword → Uhword → Uhword)
    (field : BitVec 5) (inst : VuInstruction) (u : VuUnit σ) : Prop :=
  ∃ v, micro inst u = .ok v ∧ Writes op field inst u v

/-- An instruction of the EE core, where VU0 is usable. -/
def RightMacro (ee : EeCoreInstruction → EeCore (VuUnit σ) → Except HostError (Result (VuUnit σ) Unit))
    (op : Uhword → Uhword → Uhword) (field : BitVec 5) (inst : VuInstruction) (s : EeCore (VuUnit σ)) : Prop :=
  EeCore.isUsable s.cop0 .cop2 = true →
    ∃ v, ee ⟨inst.value⟩ s = .ok (.value () (s.setData { s.data with rest := v })) ∧ Writes op field inst s.data.rest v

/-! ### Each instruction -/

variable {inst : VuInstruction} {u : VuUnit σ}

theorem rightMacro_iff {micro : VuInstruction → VuUnit σ → Except HostError (VuUnit σ)} {op : Uhword → Uhword → Uhword}
    {field : BitVec 5} {s : EeCore (VuUnit σ)} :
    RightMacro (EeCore.macroMode micro) op field inst s ↔
      (EeCore.isUsable s.cop0 .cop2 = true → RightMicro micro op field inst s.data.rest) := by
  refine forall_congr' fun hu => exists_congr fun v => and_congr_left fun _ => ?_
  rw [EeCore.macroMode, if_pos hu, bind_eq_ok_iff]
  constructor
  · rintro ⟨v', hv', h⟩
    have hrest := congrArg (fun r : Result (VuUnit σ) Unit => r.state.data.rest) (Except.ok.inj h)
    exact hv'.trans (congrArg _ hrest)
  · intro hv
    exact ⟨v, hv, rfl⟩

theorem registerOp_eq (op : Uhword → Uhword → Uhword) {is it : BitVec 4} (his : viIndex inst.is = .ok is)
    (hit : viIndex inst.it = .ok it) : registerOp op inst u = .ok (u.writeUhword is (op (u.vi is) (u.vi it))) := by
  have hid : viIndex inst.id = .ok is := his
  rw [registerOp, his, ok_bind, hit, ok_bind, hid]
  rfl

theorem immediateOp_eq (op : VuInstruction → Uhword → Uhword) {is it : BitVec 4} (his : viIndex inst.is = .ok is)
    (hit : viIndex inst.it = .ok it) : immediateOp op inst u = .ok (u.writeUhword it (op inst (u.vi is))) := by
  rw [immediateOp, his, ok_bind, hit]
  rfl

theorem registerOp_iff (k : VuRegisterOp) : RightMicro k.micro k.op inst.fd inst u ↔ k.Meets inst u := by
  have hmicro : k.micro inst u = registerOp k.op inst u := by
    cases k <;> rfl
  constructor
  · rintro ⟨v, hv, is, it, d, his, hit, hd, hwrites, -⟩
    rw [hmicro, registerOp_eq k.op his hit, hwrites] at hv
    have hwhere := writeUhword_eq_writeUhword_iff.mp (Except.ok.inj hv)
    obtain ⟨his', rfl⟩ := viIndex_eq_ok_iff.mp his
    obtain ⟨hit', rfl⟩ := viIndex_eq_ok_iff.mp hit
    obtain ⟨hd', rfl⟩ := viIndex_eq_ok_iff.mp hd
    refine ⟨his', hit', hd', hwhere.imp_left fun hsame => ?_⟩
    rw [← hsame] at hd
    exact viIndex_inj hd his
  · rintro ⟨his, hit, hd, hwhere⟩
    refine ⟨_, hmicro.trans (registerOp_eq k.op (viIndex_of_lt his) (viIndex_of_lt hit)), _, _, _, viIndex_of_lt his,
      viIndex_of_lt hit, viIndex_of_lt hd, writeUhword_eq_writeUhword_iff.mpr ?_, vi_zero_writeUhword⟩
    exact hwhere.imp_left fun hsame => congrArg (BitVec.setWidth 4) hsame.symm

theorem imm5_eq : extendInteger 5 (inst.imm5.setWidth 16) = inst.fd.signExtend 16 := by
  have himm : inst.imm5.setWidth 16 = inst.fd.setWidth 16 := by
    have hlt : (VuInstruction.fdField.extractFrom inst.value).toNat < 2 ^ 5 := VuInstruction.fdField.toNat_extractFrom_lt _
    apply BitVec.eq_of_toNat_eq
    simp only [VuInstruction.imm5, VuInstruction.fd, BitVec.toNat_setWidth]
    omega
  rw [himm, extendInteger_setWidth (by decide) (by decide)]

theorem imm15_eq : inst.imm15 =
    ((VuInstruction.destField.extractFrom inst.value).setWidth 4 ++
      (VuInstruction.imm11Field.extractFrom inst.value).setWidth 11 : BitVec 15).setWidth 16 := by
  apply BitVec.eq_of_getLsbD_eq
  intro i hi
  rw [VuInstruction.imm15, BitVec.getLsbD_setWidth, BitVec.getLsbD_setWidth, BitVec.getLsbD_append, BitVec.getLsbD_or,
    BitVec.getLsbD_shiftLeft, Bitfield.getLsbD_extractFrom, Bitfield.getLsbD_extractFrom, BitVec.getLsbD_setWidth,
    BitVec.getLsbD_setWidth, Bitfield.getLsbD_extractFrom, Bitfield.getLsbD_extractFrom]
  simp only [VuInstruction.destField, VuInstruction.imm11Field]
  by_cases hlow : i < 11
  · simp [hlow, hi, show i < 32 by omega]
  · by_cases hhigh : i < 15
    · simp [hlow, hi, show i < 32 by omega, show i - 11 < 4 by omega]
    · simp [hlow, show ¬i - 11 < 4 by omega]

theorem immediateOp_iff (k : VuImmediateOp) :
    RightMicro k.micro (fun a _ => k.op inst a) inst.it inst u ↔ inst.is.toNat < 16 ∧ inst.it.toNat < 16 := by
  constructor
  · rintro ⟨v, -, is, it, d, his, hit, -⟩
    exact ⟨(viIndex_eq_ok_iff.mp his).1, (viIndex_eq_ok_iff.mp hit).1⟩
  · rintro ⟨his, hit⟩
    have hmicro : k.micro inst u = .ok (u.writeUhword (inst.it.setWidth 4) (k.op inst (u.vi (inst.is.setWidth 4)))) := by
      have heq (op : VuInstruction → Uhword → Uhword) := immediateOp_eq (u := u) op (viIndex_of_lt his) (viIndex_of_lt hit)
      cases k with
      | iaddi =>
        rw [VuImmediateOp.op, ← imm5_eq]
        exact heq fun inst a => a + extendInteger 5 (inst.imm5.setWidth 16)
      | iaddiu =>
        rw [VuImmediateOp.op, ← imm15_eq]
        exact heq fun inst a => a + inst.imm15
      | isubiu =>
        rw [VuImmediateOp.op, ← imm15_eq]
        exact heq fun inst a => a - inst.imm15
    exact ⟨_, hmicro, _, _, _, viIndex_of_lt his, viIndex_of_lt hit, viIndex_of_lt hit, rfl, vi_zero_writeUhword⟩

/-- The instructions on two registers are right just if `VI[is]` may be written for `VI[id]`, in micro mode and in macro
mode, and those with an immediate wherever there are the registers. -/
theorem integerAlu_iff (inst : VuInstruction) (u : VuUnit σ) (s : EeCore (VuUnit σ)) :
    (∀ k : VuRegisterOp, (RightMicro k.micro k.op inst.fd inst u ↔ k.Meets inst u) ∧
      (RightMacro k.ee k.op inst.fd inst s ↔ (EeCore.isUsable s.cop0 .cop2 = true → k.Meets inst s.data.rest))) ∧
    (∀ k : VuImmediateOp,
      RightMicro k.micro (fun a _ => k.op inst a) inst.it inst u ↔ inst.is.toNat < 16 ∧ inst.it.toNat < 16) ∧
    (RightMacro EeCore.viaddi (fun a _ => VuImmediateOp.iaddi.op inst a) inst.it inst s ↔
      (EeCore.isUsable s.cop0 .cop2 = true → inst.is.toNat < 16 ∧ inst.it.toNat < 16)) := by
  refine ⟨fun k => ⟨registerOp_iff k, ?_⟩, immediateOp_iff, ?_⟩
  · have hee : (k.ee : EeCoreInstruction → EeCore (VuUnit σ) → _) = EeCore.macroMode k.micro := by
      cases k <;> rfl
    rw [hee, rightMacro_iff]
    exact forall_congr' fun _ => registerOp_iff k
  · rw [EeCore.viaddi, rightMacro_iff]
    exact forall_congr' fun _ => immediateOp_iff .iaddi

/-- `IADD` of `VI01`, which is 1, to itself with `VI02` as its destination writes `VI01`. -/
theorem not_rightMicro_iadd :
    ¬∀ (inst : VuInstruction) (u : VuUnit Unit), RightMicro iadd (fun a b => a + b) inst.fd inst u := by
  intro h
  have hmeets : VuRegisterOp.iadd.Meets ⟨0x10880⟩ { initial 0x1000 () with vi := fun _ => 1 } :=
    (registerOp_iff .iadd).mp (h ⟨0x10880⟩ { initial 0x1000 () with vi := fun _ => 1 })
  obtain ⟨-, -, -, hsame | ⟨hzero | hholds, -⟩⟩ := hmeets
  · exact absurd hsame (by decide)
  · exact absurd hzero (by decide)
  · exact absurd hholds (by decide)

end VuUnit

end Orbum
