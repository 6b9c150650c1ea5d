import Orbum.Ee.Vu.Unit

/-!
# The float registers of a VU

`ACC`, `R`, `MAC` and `Status` of `Resources/Ee/Vpu/Vu`, and the flags that an FMAC instruction leaves in the last two.
`Status` has one flag of each kind for all four fields, and a sticky flag beside it. Both are written each time a field
of `MAC` is, the one anew and the other by OR.

## What is proved

`totalFlags_iff`: the flags are the OR of those of the fields after every instruction of a list if and only if the field
that each instruction comes to last has every flag that any of its fields has. The sticky flags need no condition.
-/

namespace Orbum

/-- `FpuFlags`. -/
structure FpuFlags where
  /-- `ZF`. -/
  zf : Bool
  /-- `SF`. -/
  sf : Bool
  /-- `UF`. -/
  uf : Bool
  /-- `OF`. -/
  of : Bool
  deriving DecidableEq

/-- The kinds of flags that `MAC` has for each field. -/
inductive VuFlag where
  | z | s | u | o
  deriving DecidableEq

namespace VuFlag

/-- Where the flag is among those of a field. -/
def index : VuFlag → ℕ
  | z => 0
  | s => 1
  | u => 2
  | o => 3

/-- In the order in which they are written. -/
def all : List VuFlag := [z, s, u, o]

/-- `Z`, `S`, `U` and `O` of `VuUnitRegister_Status`. -/
def status (k : VuFlag) : Bitfield := ⟨k.index, 1⟩

/-- `ZS`, `SS`, `US` and `OS`. -/
def sticky (k : VuFlag) : Bitfield := ⟨k.index + 6, 1⟩

/-- `X_FLAGS`, `Y_FLAGS`, `Z_FLAGS` and `W_FLAGS` of `VuUnitRegister_Mac`. -/
def mac (field : VuField) (k : VuFlag) : Bitfield := ⟨4 * k.index + (3 - field.index), 1⟩

theorem index_lt (k : VuFlag) : k.index < 4 := by
  cases k <;> decide

theorem index_inj {k l : VuFlag} (h : k.index = l.index) : k = l := by
  cases k <;> cases l <;> first | rfl | exact absurd h (by decide)

end VuFlag

namespace FpuFlags

/-- No flag is set. -/
def clear : FpuFlags := ⟨false, false, false, false⟩

/-- The flag of a kind. -/
def get (flags : FpuFlags) : VuFlag → Bool
  | .z => flags.zf
  | .s => flags.sf
  | .u => flags.uf
  | .o => flags.of

/-- `values`. -/
def values (flags : FpuFlags) (k : VuFlag) : Uword := if flags.get k then 1 else 0

end FpuFlags

/-- `mac` and the `status` that it refers to. -/
structure VuFlags where
  /-- `VuUnitRegister_Mac`. -/
  mac : Uword
  /-- `VuUnitRegister_Status`. -/
  status : Uword
  deriving DecidableEq

namespace VuFlags

/-- `set_z_flag_sticky(value)`, `set_s_flag_sticky(value)`, `set_u_flag_sticky(value)` and
`set_o_flag_sticky(value)`. -/
def setFlagSticky (k : VuFlag) (value status : Uword) : Uword :=
  k.status.insertInto (k.sticky.insertInto status (k.sticky.extractFrom status ||| value)) value

variable (s : VuFlags)

/-- `update_vector_field(field, flags)`. -/
def updateVectorField (field : VuField) (flags : FpuFlags) : VuFlags where
  mac := VuFlag.all.foldl (fun mac k => (k.mac field).insertInto mac (flags.values k)) s.mac
  status := VuFlag.all.foldl (fun status k => setFlagSticky k (flags.values k) status) s.status

/-- `clear_vector_field(field)`. -/
def clearVectorField (field : VuField) : VuFlags := s.updateVectorField field .clear

/-- A flag of a field. -/
def macFlag (field : VuField) (k : VuFlag) : Bool := s.mac.getLsbD (k.mac field).start

/-- The flag for all fields. -/
def flag (k : VuFlag) : Bool := s.status.getLsbD k.status.start

/-- The sticky flag. -/
def sticky (k : VuFlag) : Bool := s.status.getLsbD k.sticky.start

end VuFlags

/-- `VuUnit_Base`, with the registers that float instructions have beside `vf`. -/
structure VuFloatUnit (σ : Type) extends VuUnit σ where
  /-- `acc`. -/
  acc : Uqword
  /-- `r`. -/
  r : Uword
  /-- `mac` and `status`. -/
  flags : VuFlags

/-! ### One field -/

namespace VuFlag

variable {field g : VuField} {k l : VuFlag}

theorem mac_start_lt : (k.mac field).start < 32 := by
  have hk := k.index_lt
  simp only [mac]
  omega

/-- No two flags of `MAC` share a bit. -/
theorem mac_start_inj : (l.mac g).start = (k.mac field).start ↔ g = field ∧ l = k := by
  have hg := g.index_lt
  have hfield := field.index_lt
  constructor
  · intro h
    simp only [mac] at h
    exact ⟨VuField.index_inj (by omega), index_inj (by omega)⟩
  · rintro ⟨rfl, rfl⟩
    rfl

end VuFlag

theorem FpuFlags.getLsbD_values (flags : FpuFlags) (k : VuFlag) : (flags.values k).getLsbD 0 = flags.get k := by
  unfold values
  cases flags.get k <;> rfl

namespace VuFlags

variable {s : VuFlags} {field g : VuField} {flags : FpuFlags} {k l : VuFlag}

theorem getLsbD_setFlagSticky (value status : Uword) (i : ℕ) (hi : i < 32) :
    (setFlagSticky k value status).getLsbD i =
      if i = k.index then value.getLsbD 0
      else if i = k.index + 6 then (status.getLsbD i || value.getLsbD 0) else status.getLsbD i := by
  rw [setFlagSticky, VuFlag.status, VuFlag.sticky, Bitfield.getLsbD_insertInto_one _ _ _ _ hi,
    Bitfield.getLsbD_insertInto_one _ _ _ _ hi, BitVec.getLsbD_or, Bitfield.getLsbD_extractFrom]
  refine if_congr Iff.rfl rfl ?_
  split_ifs with h
  · subst h
    rfl
  · rfl

@[simp] theorem flag_updateVectorField : (s.updateVectorField field flags).flag k = flags.get k := by
  simp only [flag, updateVectorField, VuFlag.all, List.foldl_cons, List.foldl_nil, VuFlag.status]
  cases k <;> simp [getLsbD_setFlagSticky, FpuFlags.getLsbD_values, VuFlag.index, -BitVec.getLsbD_eq_getElem]

@[simp] theorem sticky_updateVectorField :
    (s.updateVectorField field flags).sticky k = (s.sticky k || flags.get k) := by
  simp only [sticky, updateVectorField, VuFlag.all, List.foldl_cons, List.foldl_nil, VuFlag.sticky]
  cases k <;> simp [getLsbD_setFlagSticky, FpuFlags.getLsbD_values, VuFlag.index, -BitVec.getLsbD_eq_getElem]

theorem macFlag_updateVectorField :
    (s.updateVectorField field flags).macFlag g k = if g = field then flags.get k else s.macFlag g k := by
  have hwrite (mac : Uword) (l : VuFlag) : ((l.mac field).insertInto mac (flags.values l)).getLsbD (k.mac g).start =
      if g = field ∧ k = l then flags.get l else mac.getLsbD (k.mac g).start := by
    rw [VuFlag.mac, Bitfield.getLsbD_insertInto_one _ _ _ _ VuFlag.mac_start_lt, FpuFlags.getLsbD_values]
    exact if_congr VuFlag.mac_start_inj rfl rfl
  simp only [macFlag, updateVectorField, VuFlag.all, List.foldl_cons, List.foldl_nil, hwrite]
  by_cases h : g = field
  · cases k <;> simp [h]
  · simp [h]

end VuFlags

/-! ### Instructions -/

/-- What an FMAC instruction does to the flags of the fields, and in which order it comes to them. -/
structure Fmac where
  /-- The fields in their order. -/
  order : List VuField
  /-- Each field is come to once. -/
  perm : order.Perm VuField.vectorFields
  /-- The flags that a field is updated with, if it is not cleared. -/
  result : VuField → Option FpuFlags

namespace Fmac

variable (op : Fmac)

/-- The flags of a field after the instruction. -/
def produced (field : VuField) : FpuFlags := (op.result field).getD .clear

/-- The instruction. -/
def run (s : VuFlags) : VuFlags :=
  op.order.foldl (fun s field => (op.result field).elim (s.clearVectorField field) (s.updateVectorField field)) s

/-- The field that is come to last has every flag that any field has. -/
def Meets : Prop :=
  ∀ last ∈ op.order.getLast?, ∀ (k : VuFlag) (field : VuField),
    (op.produced field).get k = true → (op.produced last).get k = true

end Fmac

namespace VuFlags

variable (s : VuFlags)

/-- The flags after a list of instructions. -/
def after (ops : List Fmac) : VuFlags := ops.foldl (fun s op => op.run s) s

/-- After the instructions each flag is the OR of those of the fields, and each sticky flag has gathered all that there
have been. -/
def Right (ops : List Fmac) : Prop :=
  ∀ k : VuFlag, (s.after ops).flag k = VuField.vectorFields.any (fun field => (s.after ops).macFlag field k) ∧
    (s.after ops).sticky k =
      (s.sticky k || ops.any fun op => VuField.vectorFields.any fun field => (op.produced field).get k)

end VuFlags

namespace Fmac

variable {op : Fmac} {s : VuFlags} {k : VuFlag}

theorem run_eq (s : VuFlags) :
    op.run s = op.order.foldl (fun s field => s.updateVectorField field (op.produced field)) s := by
  have hstep (s : VuFlags) (field : VuField) :
      (op.result field).elim (s.clearVectorField field) (s.updateVectorField field) =
        s.updateVectorField field (op.produced field) := by
    unfold produced
    cases op.result field <;> rfl
  simp only [run, hstep]

theorem mem_order (field : VuField) : field ∈ op.order := op.perm.mem_iff.mpr field.mem_vectorFields

/-- A flag is what the last field has left there. -/
theorem flag_run {last : VuField} (h : last ∈ op.order.getLast?) (s : VuFlags) :
    (op.run s).flag k = (op.produced last).get k := by
  obtain ⟨fields, hfields⟩ := List.getLast?_eq_some_iff.mp h
  rw [run_eq, hfields, List.foldl_append, List.foldl_cons, List.foldl_nil, VuFlags.flag_updateVectorField]

theorem sticky_run (s : VuFlags) :
    (op.run s).sticky k = (s.sticky k || VuField.vectorFields.any fun field => (op.produced field).get k) := by
  rw [run_eq, ← op.perm.any_eq]
  generalize op.order = fields
  induction fields generalizing s with
  | nil => rw [List.foldl_nil, List.any_nil, Bool.or_false]
  | cons field fields ih =>
    rw [List.foldl_cons, ih, VuFlags.sticky_updateVectorField, List.any_cons, Bool.or_assoc]

theorem macFlag_run (s : VuFlags) (field : VuField) : (op.run s).macFlag field k = (op.produced field).get k := by
  have hfold (fields : List VuField) (s : VuFlags) :
      (fields.foldl (fun s field => s.updateVectorField field (op.produced field)) s).macFlag field k =
        if field ∈ fields then (op.produced field).get k else s.macFlag field k := by
    induction fields generalizing s with
    | nil => rfl
    | cons g fields ih =>
      rw [List.foldl_cons, ih, VuFlags.macFlag_updateVectorField]
      by_cases hg : field = g
      · subst hg
        simp
      · simp [hg]
  rw [run_eq, hfold, if_pos (mem_order field)]

theorem last_mem_order : ∃ last, last ∈ op.order.getLast? := by
  have hne : op.order ≠ [] := List.ne_nil_of_mem (mem_order .x)
  exact ⟨_, List.getLast?_eq_some_getLast hne⟩

/-- After one more instruction, each flag is the OR of those of the fields if the last field has them all. -/
theorem flag_run_iff (s : VuFlags) :
    (∀ k, (op.run s).flag k = VuField.vectorFields.any fun field => (op.run s).macFlag field k) ↔ op.Meets := by
  obtain ⟨last, hlast⟩ := op.last_mem_order
  constructor
  · intro h last' hlast' k field hfield
    have hk := h k
    rw [flag_run hlast'] at hk
    rw [hk, List.any_eq_true]
    exact ⟨field, field.mem_vectorFields, (macFlag_run s field).trans hfield⟩
  · intro h k
    rw [flag_run hlast, Bool.eq_iff_iff, List.any_eq_true]
    constructor
    · exact fun hk => ⟨last, last.mem_vectorFields, (macFlag_run s last).trans hk⟩
    · rintro ⟨field, -, hfield⟩
      exact h last hlast k field ((macFlag_run s field).symm.trans hfield)

end Fmac

namespace VuFlags

theorem after_concat (s : VuFlags) (ops : List Fmac) (op : Fmac) : s.after (ops ++ [op]) = op.run (s.after ops) := by
  rw [after, List.foldl_append, List.foldl_cons, List.foldl_nil]
  rfl

/-- The sticky flags are right whatever the instructions are. -/
theorem sticky_after (s : VuFlags) (ops : List Fmac) (k : VuFlag) :
    (s.after ops).sticky k =
      (s.sticky k || ops.any fun op => VuField.vectorFields.any fun field => (op.produced field).get k) := by
  induction ops generalizing s with
  | nil => exact (Bool.or_false _).symm
  | cons op ops ih => rw [after, List.foldl_cons, ← after, ih, Fmac.sticky_run, List.any_cons, Bool.or_assoc]

theorem right_concat_iff (s : VuFlags) (ops : List Fmac) (op : Fmac) : s.Right (ops ++ [op]) ↔ op.Meets := by
  rw [← op.flag_run_iff (s.after ops), ← after_concat]
  exact ⟨fun h k => (h k).1, fun h k => ⟨h k, s.sticky_after _ k⟩⟩

/-- A zero in x and nothing in the other fields. -/
def zeroX : Fmac where
  order := VuField.vectorFields
  perm := .refl _
  result := fun field => if field = .x then some ⟨true, false, false, false⟩ else none

theorem not_right_zeroX : ¬(⟨0, 0⟩ : VuFlags).Right [zeroX] := by
  intro h
  exact absurd (h .z).1 (by decide)

/-- After every instruction the flags are right if and only if every instruction meets the condition. -/
theorem totalFlags_iff (s : VuFlags) (ops : List Fmac) :
    (∀ done, done <+: ops → done ≠ [] → s.Right done) ↔ ∀ op ∈ ops, op.Meets := by
  constructor
  · intro h op hop
    obtain ⟨before, rest, rfl⟩ := List.append_of_mem hop
    have hne : before ++ [op] ≠ [] := List.append_ne_nil_of_right_ne_nil _ (List.cons_ne_nil _ _)
    refine (s.right_concat_iff before op).mp (h _ ⟨rest, ?_⟩ hne)
    rw [List.append_assoc, List.singleton_append]
  · intro h done hdone hne
    obtain hnil | ⟨before, op, rfl⟩ := List.eq_nil_or_concat done
    · exact absurd hnil hne
    · rw [List.concat_eq_append] at hdone ⊢
      have hmem := hdone.subset (List.mem_append_right before (List.mem_singleton_self op))
      exact (s.right_concat_iff before op).mpr (h op hmem)

end VuFlags

end Orbum
