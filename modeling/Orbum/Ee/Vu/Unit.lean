import Orbum.Common.ArrayByteMemory
import Orbum.Common.Bitfield
import Orbum.Lib.Except
import Orbum.Lib.Lanes

/-!
# The VUs

`Resources/Ee/Vpu/Vu` and `Controller/Ee/Vpu/Vu/VuBranchDelaySlot.hpp`: the instructions, the registers and the program
counter of a VU, with the bus that its loads and stores go through.

## The model

The register fields of an instruction are five bits wide. There are 32 VF registers and 16 VI registers, so that a field
may name no VI register, and the array is indexed past its end then. `vi[0]` is read only.

A bus has the data memory at some of its addresses. What else it has is a parameter.
-/

namespace Orbum

/-- `VuVectorField::Field`. -/
inductive VuField where
  /-- `X`. -/
  | x
  /-- `Y`. -/
  | y
  /-- `Z`. -/
  | z
  /-- `W`. -/
  | w
  deriving DecidableEq

namespace VuField

/-- The value of the enumerator. -/
def index : VuField → ℕ
  | x => 0
  | y => 1
  | z => 2
  | w => 3

/-- `VECTOR_FIELDS`. -/
def vectorFields : List VuField := [x, y, z, w]

theorem mem_vectorFields (f : VuField) : f ∈ vectorFields := by
  cases f <;> decide

theorem index_lt (f : VuField) : f.index < 4 := by
  cases f <;> decide

theorem index_inj {f g : VuField} (h : f.index = g.index) : f = g := by
  cases f <;> cases g <;> first | rfl | exact absurd h (by decide)

end VuField

/-- `VuInstruction`. -/
structure VuInstruction where
  /-- The raw instruction. -/
  value : Uword

namespace VuInstruction

/-- `DEST`. -/
def destField : Bitfield := ⟨21, 4⟩
/-- `FT`. -/
def ftField : Bitfield := ⟨16, 5⟩
/-- `FS`. -/
def fsField : Bitfield := ⟨11, 5⟩
/-- `FD`. -/
def fdField : Bitfield := ⟨6, 5⟩
/-- `IMM11`. -/
def imm11Field : Bitfield := ⟨0, 11⟩

/-- `X`, `Y`, `Z` and `W`. -/
def fieldBit : VuField → Bitfield
  | .x => ⟨24, 1⟩
  | .y => ⟨23, 1⟩
  | .z => ⟨22, 1⟩
  | .w => ⟨21, 1⟩

variable (inst : VuInstruction)

/-- `dest()`. -/
def dest : Ubyte := (destField.extractFrom inst.value).setWidth 8

/-- `ft()`. -/
def ft : BitVec 5 := (ftField.extractFrom inst.value).setWidth 5

/-- `it()`. -/
def it : BitVec 5 := inst.ft

/-- `fs()`. -/
def fs : BitVec 5 := (fsField.extractFrom inst.value).setWidth 5

/-- `is()`. -/
def is : BitVec 5 := inst.fs

/-- `fd()`. -/
def fd : BitVec 5 := (fdField.extractFrom inst.value).setWidth 5

/-- `id()`, which returns `fs()`. -/
def id : BitVec 5 := inst.fs

/-- `imm5()`. -/
def imm5 : Ubyte := (fdField.extractFrom inst.value).setWidth 8

/-- `imm11()`. -/
def imm11 : Uhword := (imm11Field.extractFrom inst.value).setWidth 16

/-- `imm15()`. -/
def imm15 : Uhword := (imm11Field.extractFrom inst.value ||| destField.extractFrom inst.value <<< 11).setWidth 16

/-- `test_dest_field(field)`. -/
def testDestField (field : VuField) : Bool := 0 < (fieldBit field).extractFrom inst.value

end VuInstruction

/-! ### Branches -/

/-- `VuBranchDelaySlot<1>`. -/
structure VuBranchDelaySlot where
  /-- `current_slot`. -/
  currentSlot : ℕ
  /-- `branch_pc`. -/
  branchPc : Uptr
  /-- `second_branch_pc`. -/
  secondBranchPc : Uptr
  /-- `second_branch_pending`. -/
  secondBranchPending : Bool

namespace VuBranchDelaySlot

variable (b : VuBranchDelaySlot)

/-- `is_branch_pending()`. -/
def isBranchPending : Prop := 0 < b.currentSlot

instance : Decidable b.isBranchPending := inferInstanceAs (Decidable (_ < _))

/-- `get_branch_pc()`. -/
def getBranchPc : Uptr := b.branchPc

/-- What the two functions that set a branch have in common. -/
def setBranch (target : Uptr) : VuBranchDelaySlot :=
  if b.isBranchPending then { b with secondBranchPending := true, secondBranchPc := target }
  else { b with currentSlot := 2, branchPc := target }

/-- `set_branch_itype(pc, imm)`. -/
def setBranchItype (pc : Uword) (imm : Uhword) : VuBranchDelaySlot :=
  b.setBranch ((pc + 8 + imm.signExtend 32 * 8) &&& 0x3FFF)

/-- `set_branch_jtype(pc, jump_to)`. -/
def setBranchJtype (jumpTo : Uptr) : VuBranchDelaySlot := b.setBranch ((jumpTo * 8) &&& 0x3FFF)

/-- `advance_pc(pc)`, with the new program counter. -/
def advancePc (pc : Uword) : VuBranchDelaySlot × Uword :=
  if b.currentSlot ≠ 0 then
    if b.currentSlot - 1 = 0 then
      if b.secondBranchPending then
        ({ b with secondBranchPending := false, branchPc := b.secondBranchPc, currentSlot := 1 }, b.branchPc)
      else ({ b with currentSlot := 0 }, b.branchPc)
    else ({ b with currentSlot := b.currentSlot - 1 }, pc + 8)
  else (b, pc + 8)

end VuBranchDelaySlot

/-! ### Units -/

/-- `ByteBus<uhword>` of a VU. -/
structure VuBus (σ : Type) where
  /-- Where in the data memory an address is, if it is mapped to it. -/
  dataOffset : Uhword → Option ℕ
  /-- A read of what else is mapped. -/
  readRest : σ → Uhword → Except HostError Uqword
  /-- A write to it. -/
  writeRest : σ → Uhword → Uword → Except HostError σ

/-- `VuUnit_Base`. -/
structure VuUnit (σ : Type) where
  /-- `vf`. -/
  vf : BitVec 5 → Uqword
  /-- `vi`. -/
  vi : BitVec 4 → Uhword
  /-- `p`. -/
  p : Uword
  /-- `pc`. -/
  pc : Uword
  /-- `bdelay`. -/
  bdelay : VuBranchDelaySlot
  /-- `memory_mem`. -/
  memoryMem : ArrayByteMemory
  /-- What else the bus has. -/
  rest : σ

namespace VuUnit

variable {σ : Type} (u : VuUnit σ)

/-- `VuUnit_Base(core_id)` with a data memory of this size. -/
def initial (size : ℕ) (rest : σ) : VuUnit σ :=
  ⟨fun _ => 0, fun _ => 0, 0, 0, ⟨0, 0, 0, false⟩, .new size 0 false, rest⟩

/-- The index of `vi[i]`. -/
def viIndex (i : BitVec 5) : Except HostError (BitVec 4) :=
  if i.toNat < 16 then .ok (i.setWidth 4) else .error .outOfBounds

/-- `vi[i].write_uhword(value)`. -/
def writeUhword (i : BitVec 4) (value : Uhword) : VuUnit σ :=
  if i = 0 then u else { u with vi := Function.update u.vi i value }

/-- `vf[r].read_uword(offset)`. -/
def readUword (r : BitVec 5) (offset : ℕ) : Except HostError Uword :=
  if offset < 4 then .ok ((u.vf r).uw offset) else .error .outOfBounds

/-- `vf[r].write_uword(offset, value)`. -/
def writeUword (r : BitVec 5) (offset : ℕ) (value : Uword) : Except HostError (VuUnit σ) :=
  if offset < 4 then .ok { u with vf := Function.update u.vf r (Lanes.setLane offset (u.vf r) value) }
  else .error .outOfBounds

/-- `if (inst.test_dest_field(field)) reg_dest.write_uword(field, value)` for every field. -/
def writeFields (value : VuField → Uword) (inst : VuInstruction) (u : VuUnit σ) : Except HostError (VuUnit σ) :=
  VuField.vectorFields.foldlM
    (fun u field => if inst.testDestField field then u.writeUword inst.ft field.index (value field) else .ok u) u

/-- `bdelay.advance_pc(pc)`. -/
def advancePc : VuUnit σ := { u with bdelay := (u.bdelay.advancePc u.pc).1, pc := (u.bdelay.advancePc u.pc).2 }

/-- `bus.read_uqword(context, address)`. -/
def busReadUqword (bus : VuBus σ) (address : Uword) : Except HostError Uqword :=
  (bus.dataOffset (address.setWidth 16)).elim (bus.readRest u.rest (address.setWidth 16)) (u.memoryMem.read 128)

/-- `bus.write_uword(context, address, value)`. -/
def busWriteUword (bus : VuBus σ) (address value : Uword) : Except HostError (VuUnit σ) :=
  (bus.dataOffset (address.setWidth 16)).elim
    (do
      let rest ← bus.writeRest u.rest (address.setWidth 16) value
      return { u with rest })
    fun offset => do
      let memoryMem ← u.memoryMem.write 32 offset value
      return { u with memoryMem }

/-! ### Registers -/

variable {u} {i : BitVec 4} {value : Uhword}

theorem viIndex_of_lt {i : BitVec 5} (h : i.toNat < 16) : viIndex i = .ok (i.setWidth 4) := if_pos h

theorem viIndex_of_not_lt {i : BitVec 5} (h : ¬i.toNat < 16) : viIndex i = .error .outOfBounds := if_neg h

theorem viIndex_eq_ok_iff {i : BitVec 5} {j : BitVec 4} : viIndex i = .ok j ↔ i.toNat < 16 ∧ i.setWidth 4 = j := by
  unfold viIndex
  split_ifs with h
  · simp [h]
  · simp [h]

theorem viIndex_inj {i i' : BitVec 5} {j : BitVec 4} (h : viIndex i = .ok j) (h' : viIndex i' = .ok j) : i = i' := by
  obtain ⟨hi, hj⟩ := viIndex_eq_ok_iff.mp h
  obtain ⟨hi', hj'⟩ := viIndex_eq_ok_iff.mp h'
  have hwidth := congrArg BitVec.toNat (hj.trans hj'.symm)
  rw [BitVec.toNat_setWidth, BitVec.toNat_setWidth, Nat.mod_eq_of_lt hi, Nat.mod_eq_of_lt hi'] at hwidth
  exact BitVec.eq_of_toNat_eq hwidth

@[simp] theorem writeUhword_zero (value : Uhword) : u.writeUhword 0 value = u := if_pos rfl

theorem vi_writeUhword_self (h : i ≠ 0) : (u.writeUhword i value).vi i = value := by
  rw [writeUhword, if_neg h]
  exact Function.update_self _ _ _

theorem vi_writeUhword_of_ne {j : BitVec 4} (h : j ≠ i) : (u.writeUhword i value).vi j = u.vi j := by
  unfold writeUhword
  split_ifs
  · rfl
  · exact Function.update_of_ne h _ _

@[simp] theorem vf_writeUhword : (u.writeUhword i value).vf = u.vf := by
  unfold writeUhword
  split_ifs <;> rfl

@[simp] theorem pc_writeUhword : (u.writeUhword i value).pc = u.pc := by
  unfold writeUhword
  split_ifs <;> rfl

@[simp] theorem bdelay_writeUhword : (u.writeUhword i value).bdelay = u.bdelay := by
  unfold writeUhword
  split_ifs <;> rfl

@[simp] theorem memoryMem_writeUhword : (u.writeUhword i value).memoryMem = u.memoryMem := by
  unfold writeUhword
  split_ifs <;> rfl

/-! ### Loops over the fields -/

/-- A register is what its fields are. -/
theorem eq_of_fields {q q' : Uqword} (h : ∀ f : VuField, q.uw f.index = q'.uw f.index) : q = q' := by
  refine Lanes.eq_of_lanes (w := 32) (m := 4) rfl fun k hk => ?_
  obtain ⟨f, rfl⟩ : ∃ f : VuField, f.index = k := by
    rcases k with _ | _ | _ | _ | k
    · exact ⟨.x, rfl⟩
    · exact ⟨.y, rfl⟩
    · exact ⟨.z, rfl⟩
    · exact ⟨.w, rfl⟩
    · omega
  exact h f

variable {inst : VuInstruction}

/-- A field that is not selected may be left out. -/
theorem mem_cons_and_iff {g : VuField} {fields : List VuField} (hg : ¬inst.testDestField g = true) (f : VuField) :
    f ∈ fields ∧ inst.testDestField f = true ↔ f ∈ g :: fields ∧ inst.testDestField f = true := by
  rw [List.mem_cons]
  constructor
  · exact fun h => ⟨.inr h.1, h.2⟩
  · rintro ⟨rfl | hf, h⟩
    · exact absurd h hg
    · exact ⟨hf, h⟩

theorem writeFields_loop (value : VuField → Uword) (fields : List VuField) :
    ∃ q, fields.foldlM
        (fun u field =>
          if inst.testDestField field then u.writeUword inst.ft field.index (value field) else .ok u) u =
        .ok { u with vf := Function.update u.vf inst.ft q } ∧
      ∀ f : VuField, q.uw f.index =
        if f ∈ fields ∧ inst.testDestField f = true then value f else (u.vf inst.ft).uw f.index := by
  induction fields generalizing u with
  | nil =>
    refine ⟨u.vf inst.ft, ?_, fun f => ?_⟩
    · rw [Function.update_eq_self]
      rfl
    · rw [if_neg fun h => List.not_mem_nil h.1]
  | cons g fields ih =>
    rw [List.foldlM_cons]
    by_cases hg : inst.testDestField g = true
    · obtain ⟨q, hrun, hq⟩ := ih (u := { u with
        vf := Function.update u.vf inst.ft (Lanes.setLane g.index (u.vf inst.ft) (value g)) })
      refine ⟨q, ?_, fun f => ?_⟩
      · rw [if_pos hg, writeUword, if_pos g.index_lt, ok_bind, hrun, Function.update_idem]
      · rw [hq f]
        by_cases hf : f ∈ fields ∧ inst.testDestField f = true
        · rw [if_pos hf, if_pos ⟨List.mem_cons_of_mem _ hf.1, hf.2⟩]
        · rw [if_neg hf]
          dsimp only
          rw [Function.update_self]
          by_cases hfg : f = g
          · subst hfg
            rw [if_pos ⟨List.mem_cons_self, hg⟩]
            exact Lanes.lane_setLane_self (by have := f.index_lt; omega) _ _
          · have hout : ¬(f ∈ g :: fields ∧ inst.testDestField f = true) := fun h =>
              hf ⟨(List.mem_cons.mp h.1).resolve_left hfg, h.2⟩
            rw [if_neg hout]
            exact Lanes.lane_setLane_of_ne (fun h => hfg (VuField.index_inj h)) _ _
    · obtain ⟨q, hrun, hq⟩ := ih (u := u)
      refine ⟨q, ?_, fun f => ?_⟩
      · rw [if_neg hg, ok_bind, hrun]
      · rw [hq f, if_congr (mem_cons_and_iff hg f) rfl rfl]

/-- The fields that are selected have their values. -/
theorem writeFields_eq (value : VuField → Uword) (inst : VuInstruction) (u : VuUnit σ) :
    ∃ q, u.writeFields value inst = .ok { u with vf := Function.update u.vf inst.ft q } ∧
      ∀ f : VuField, q.uw f.index = if inst.testDestField f then value f else (u.vf inst.ft).uw f.index := by
  obtain ⟨q, hrun, hq⟩ := writeFields_loop value VuField.vectorFields
  refine ⟨q, hrun, fun f => ?_⟩
  rw [hq f, if_congr (and_iff_right f.mem_vectorFields) rfl rfl]

end VuUnit

end Orbum
