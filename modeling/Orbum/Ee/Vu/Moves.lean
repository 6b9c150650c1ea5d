import Orbum.Ee.Vu.Unit
import Orbum.Lib.Except

/-!
# VU register moves

`MOVE`, `MFIR`, `MR32` and `MFP` of `Controller/Ee/Vpu/Vu/Interpreter/CVuInterpreter_TRANSFER.cpp`. The first argument of
`write_uword` is the index of the word and the second its value, and these functions give the value first: they write the
number of a field to the word that the value is the index of.

## What is proved

`movesRight_iff`: which instruction words do what they should whatever the registers hold. A value of 4 or more indexes
past the register.
-/

namespace Orbum

namespace VuUnit

variable {σ : Type}

/-- `if (inst.test_dest_field(field)) reg_dest.write_uword(value, field)` for every field, `value` being read anew each
time. -/
def writeSelected (value : VuField → VuUnit σ → Except HostError Uword) (inst : VuInstruction) (u : VuUnit σ) :
    Except HostError (VuUnit σ) :=
  VuField.vectorFields.foldlM
    (fun u field => if inst.testDestField field then do
        let v ← value field u
        u.writeUword inst.ft v.toNat (BitVec.ofNat 32 field.index)
      else .ok u) u

/-- `MOVE`. -/
def move (inst : VuInstruction) (u : VuUnit σ) : Except HostError (VuUnit σ) :=
  writeSelected (fun field u => u.readUword inst.fs field.index) inst u

/-- `MFIR`. -/
def mfir (inst : VuInstruction) (u : VuUnit σ) : Except HostError (VuUnit σ) := do
  let is ← viIndex inst.is
  writeSelected (fun _ u => .ok ((u.vi is).setWidth 32)) inst u

/-- `reg_dest.write_uword(reg_source.read_uword(source), dest)`. -/
def rotateWord (source dest : VuField) (inst : VuInstruction) (u : VuUnit σ) : Except HostError (VuUnit σ) := do
  let v ← u.readUword inst.fs source.index
  u.writeUword inst.ft v.toNat (BitVec.ofNat 32 dest.index)

/-- `MR32`. -/
def mr32 (inst : VuInstruction) (u : VuUnit σ) : Except HostError (VuUnit σ) := do
  let u ← rotateWord .w .x inst u
  let u ← rotateWord .x .y inst u
  let u ← rotateWord .y .z inst u
  rotateWord .z .w inst u

/-- `MFP`. -/
def mfp (inst : VuInstruction) (u : VuUnit σ) : Except HostError (VuUnit σ) :=
  writeSelected (fun _ u => .ok u.p) inst u

/-! ### What the moves should do -/

/-- The fields of `VF[ft]` that are selected get what `source` has for them, and nothing else is changed. -/
def MovesTo (inst : VuInstruction) (u : VuUnit σ) (source : VuField → Uword) (r : Except HostError (VuUnit σ)) : Prop :=
  ∃ q : Uqword, r = .ok { u with vf := Function.update u.vf inst.ft q } ∧
    ∀ f : VuField, q.uw f.index = if inst.testDestField f then source f else (u.vf inst.ft).uw f.index

end VuUnit

/-- The field that `MR32` should take. -/
def VuField.next : VuField → VuField
  | x => y
  | y => z
  | z => w
  | w => x

/-- The moves. -/
inductive VuMove where
  | move | mfir | mfp | mr32
  deriving DecidableEq

namespace VuMove

variable {σ : Type}

/-- The function of the interpreter. -/
def run : VuMove → VuInstruction → VuUnit σ → Except HostError (VuUnit σ)
  | move => VuUnit.move
  | mfir => VuUnit.mfir
  | mfp => VuUnit.mfp
  | mr32 => VuUnit.mr32

/-- The move does what it should. -/
def Right (k : VuMove) (inst : VuInstruction) (u : VuUnit σ) : Prop :=
  match k with
  | move => u.MovesTo inst (fun f => (u.vf inst.fs).uw f.index) (run move inst u)
  | mfir => ∃ is, VuUnit.viIndex inst.is = .ok is ∧ u.MovesTo inst (fun _ => (u.vi is).setWidth 32) (run mfir inst u)
  | mfp => u.MovesTo inst (fun _ => u.p) (run mfp inst u)
  | mr32 => u.MovesTo inst (fun f => (u.vf inst.fs).uw f.next.index) (run mr32 inst u)

/-- The instruction words of which a move is right. -/
def Meets (k : VuMove) (inst : VuInstruction) : Prop :=
  match k with
  | move | mfp => ∀ f, inst.testDestField f = false
  | mfir => inst.is.toNat < 16 ∧
      ((∀ f, inst.testDestField f = false) ∨ inst.is = 0 ∧ ∀ f, inst.testDestField f = true ↔ f = .x)
  | mr32 => False

end VuMove

/-! ### Values as indices -/

namespace VuUnit

variable {σ : Type} {inst : VuInstruction} {u : VuUnit σ} {value : VuField → VuUnit σ → Except HostError Uword}

theorem writeUword_of_ge {r : BitVec 5} {offset : ℕ} (h : 4 ≤ offset) (v : Uword) :
    u.writeUword r offset v = .error .outOfBounds := if_neg (Nat.not_lt.mpr h)

theorem writeSelected_of_none (h : ∀ f, inst.testDestField f = false) : writeSelected value inst u = .ok u := by
  simp only [writeSelected, VuField.vectorFields, List.foldlM_cons, List.foldlM_nil, h, Bool.false_eq_true, if_false,
    ok_bind, pure_eq_ok]

/-- The first field that is selected indexes past the register if every value is too large. -/
theorem writeSelected_of_ge (hvalue : ∀ f, ∃ v, value f u = .ok v ∧ 4 ≤ v.toNat)
    (h : ∃ f, inst.testDestField f = true) : writeSelected value inst u = .error .outOfBounds := by
  obtain ⟨f, hf⟩ := h
  have hmem := f.mem_vectorFields
  unfold writeSelected
  generalize VuField.vectorFields = fields at hmem ⊢
  induction fields with
  | nil => cases hmem
  | cons g fields ih =>
    rw [List.foldlM_cons]
    by_cases hg : inst.testDestField g = true
    · obtain ⟨v, hv, hge⟩ := hvalue g
      rw [if_pos hg, hv, ok_bind, writeUword_of_ge hge]
      rfl
    · rw [if_neg hg, ok_bind]
      refine ih ((List.mem_cons.mp hmem).resolve_left ?_)
      rintro rfl
      exact hg hf

/-- A move that ends in an error moves nothing. -/
theorem not_movesTo_error {source : VuField → Uword} {e : HostError} : ¬u.MovesTo inst source (.error e) := by
  rintro ⟨q, hq, -⟩
  cases hq

theorem movesTo_self (h : ∀ f, inst.testDestField f = false) (source : VuField → Uword) :
    u.MovesTo inst source (.ok u) := by
  refine ⟨u.vf inst.ft, ?_, fun f => ?_⟩
  · rw [Function.update_eq_self]
  · rw [h f, if_neg Bool.false_ne_true]

/-- Registers that hold nothing but the number 4, and `VI00`. -/
def fours [Inhabited σ] : VuUnit σ :=
  { initial 0 default with vf := fun _ => .ofWords 4 4 4 4, vi := fun i => if i = 0 then 0 else 4, p := 4 }

theorem readUword_fours [Inhabited σ] (r : BitVec 5) (f : VuField) : (fours : VuUnit σ).readUword r f.index = .ok 4 := by
  have hword : (Uqword.ofWords 4 4 4 4).uw f.index = 4 := by
    cases f <;> decide
  rw [readUword, if_pos f.index_lt]
  exact congrArg _ hword

theorem vi_fours_of_ne [Inhabited σ] {i : BitVec 4} (h : i ≠ 0) : (fours : VuUnit σ).vi i = 4 := if_neg h

/-- VF registers that hold nothing but the number 1, and VI registers that are 0. -/
def ones [Inhabited σ] : VuUnit σ := { initial 0 default with vf := fun _ => .ofWords 1 1 1 1 }

theorem uw_ones [Inhabited σ] (r : BitVec 5) (f : VuField) : ((ones : VuUnit σ).vf r).uw f.index = 1 := by
  have hones : (Uqword.ofWords 1 1 1 1).uw f.index = 1 := by
    cases f <;> decide
  exact hones

/-- Writes to the first word leave the others alone. -/
theorem ensures_writeSelected_zero {v : Uword} {f : VuField} (hf : f ≠ .x) {is : BitVec 4} (his : u.vi is = 0)
    (hword : (u.vf inst.ft).uw f.index = v) :
    Ensures (fun t : VuUnit σ => (t.vf inst.ft).uw f.index = v)
      (writeSelected (fun _ u => .ok ((u.vi is).setWidth 32)) inst u) := by
  have hloop := Ensures.foldlM (Q := fun t : VuUnit σ => t.vi is = 0 ∧ (t.vf inst.ft).uw f.index = v)
    (f := fun t g => if inst.testDestField g then do
        let v ← Except.ok ((t.vi is).setWidth 32)
        t.writeUword inst.ft v.toNat (BitVec.ofNat 32 g.index)
      else .ok t) ?_ VuField.vectorFields ⟨his, hword⟩
  · exact hloop.mono fun t ht => ht.2
  · intro t g ⟨hvi, ht⟩
    by_cases hg : inst.testDestField g = true
    · rw [if_pos hg, ok_bind, hvi]
      refine .ok ⟨hvi, ?_⟩
      dsimp only
      rw [Function.update_self]
      refine (Lanes.lane_setLane_of_ne (fun h => hf (VuField.index_inj (g := .x) h)) _ _).trans ht
    · rw [if_neg hg]
      exact .ok ⟨hvi, ht⟩

end VuUnit

namespace VuMove

variable {σ : Type} {inst : VuInstruction}

theorem exists_selected (h : ¬∀ f, inst.testDestField f = false) : ∃ f, inst.testDestField f = true := by
  obtain ⟨f, hf⟩ := not_forall.mp h
  exact ⟨f, (Bool.not_eq_false _).mp hf⟩

theorem move_iff [Inhabited σ] : (∀ u : VuUnit σ, u.vi 0 = 0 → move.Right inst u) ↔ move.Meets inst := by
  constructor
  · intro h
    by_contra hnone
    have hright := h VuUnit.fours rfl
    rw [Right, run, VuUnit.move, VuUnit.writeSelected_of_ge (fun f => ⟨4, VuUnit.readUword_fours _ f, by decide⟩)
      (exists_selected hnone)] at hright
    exact VuUnit.not_movesTo_error hright
  · intro h u _
    rw [Right, run, VuUnit.move, VuUnit.writeSelected_of_none h]
    exact VuUnit.movesTo_self h _

theorem mfp_iff [Inhabited σ] : (∀ u : VuUnit σ, u.vi 0 = 0 → mfp.Right inst u) ↔ mfp.Meets inst := by
  constructor
  · intro h
    by_contra hnone
    have hright := h VuUnit.fours rfl
    rw [Right, run, VuUnit.mfp, VuUnit.writeSelected_of_ge (fun _ => ⟨4, rfl, by decide⟩) (exists_selected hnone)] at hright
    exact VuUnit.not_movesTo_error hright
  · intro h u _
    rw [Right, run, VuUnit.mfp, VuUnit.writeSelected_of_none h]
    exact VuUnit.movesTo_self h _

theorem mr32_iff [Inhabited σ] : (∀ u : VuUnit σ, u.vi 0 = 0 → mr32.Right inst u) ↔ mr32.Meets inst := by
  refine iff_of_false (fun h => ?_) id
  have hright := h VuUnit.fours rfl
  have hfirst : VuUnit.rotateWord .w .x inst (VuUnit.fours : VuUnit σ) = .error .outOfBounds := by
    rw [VuUnit.rotateWord, VuUnit.readUword_fours, ok_bind, VuUnit.writeUword_of_ge (by decide)]
  rw [Right, run, VuUnit.mr32, hfirst] at hright
  exact VuUnit.not_movesTo_error hright

/-- `MFIR` of a VI register that there is. -/
theorem mfir_right_iff {u : VuUnit σ} (hlt : inst.is.toNat < 16) :
    mfir.Right inst u ↔ u.MovesTo inst (fun _ => (u.vi (inst.is.setWidth 4)).setWidth 32)
      (VuUnit.writeSelected (fun _ u => .ok ((u.vi (inst.is.setWidth 4)).setWidth 32)) inst u) := by
  have his := VuUnit.viIndex_of_lt hlt
  have hrun : run mfir inst u = VuUnit.writeSelected (fun _ u => .ok ((u.vi (inst.is.setWidth 4)).setWidth 32)) inst u := by
    rw [run, VuUnit.mfir, his, ok_bind]
  constructor
  · rintro ⟨is, his', hright⟩
    obtain rfl := Except.ok.inj (his.symm.trans his')
    exact hrun ▸ hright
  · exact fun hright => ⟨_, his, hrun ▸ hright⟩

theorem not_mfir_right_fours [Inhabited σ] (hlt : inst.is.toNat < 16) (hsource : inst.is.setWidth 4 ≠ 0)
    (h : ∃ f, inst.testDestField f = true) : ¬mfir.Right inst (VuUnit.fours : VuUnit σ) := by
  have hfour : (((VuUnit.fours : VuUnit σ).vi (inst.is.setWidth 4)).setWidth 32 : Uword) = 4 := by
    rw [VuUnit.vi_fours_of_ne hsource]
    rfl
  rw [mfir_right_iff hlt, VuUnit.writeSelected_of_ge (fun _ => ⟨4, congrArg _ hfour, by decide⟩) h]
  exact VuUnit.not_movesTo_error

/-- `VI00` is not moved to a field but to x. -/
theorem not_mfir_right_ones [Inhabited σ] (hlt : inst.is.toNat < 16) {f : VuField} (hf : inst.testDestField f = true)
    (hne : f ≠ .x) : ¬mfir.Right inst (VuUnit.ones : VuUnit σ) := by
  rw [mfir_right_iff hlt]
  rintro ⟨q, hrun, hq⟩
  have hkept := VuUnit.ensures_writeSelected_zero hne rfl (VuUnit.uw_ones inst.ft f) _ hrun
  have hmoved := hq f
  rw [if_pos hf] at hmoved
  dsimp only at hkept
  rw [Function.update_self, hmoved] at hkept
  have hzero : (0 : Uword) = 1 := hkept
  exact absurd hzero (by decide)

/-- `VI00` is moved to x. -/
theorem mfir_right_of_zero {u : VuUnit σ} (hlt : inst.is.toNat < 16) (hx : ∀ f, inst.testDestField f = true ↔ f = .x)
    (hvi : u.vi (inst.is.setWidth 4) = 0) : mfir.Right inst u := by
  have hselected (f : VuField) (hf : f ≠ .x) : inst.testDestField f = false :=
    (Bool.not_eq_true _).mp (mt (hx f).mp hf)
  have hrun : VuUnit.writeSelected (fun _ u => .ok ((u.vi (inst.is.setWidth 4)).setWidth 32)) inst u =
      .ok { u with vf := Function.update u.vf inst.ft (Lanes.setLane 0 (u.vf inst.ft) (0 : Uword)) } := by
    simp only [VuUnit.writeSelected, VuField.vectorFields, List.foldlM_cons, List.foldlM_nil, (hx .x).mpr rfl,
      hselected .y (by decide), hselected .z (by decide), hselected .w (by decide), if_true, ok_bind, hvi]
    rfl
  rw [mfir_right_iff hlt]
  refine ⟨_, hrun, fun f => ?_⟩
  by_cases hf : f = .x
  · subst hf
    rw [if_pos ((hx .x).mpr rfl), hvi]
    exact Lanes.lane_setLane_self (by decide) _ _
  · rw [hselected f hf, if_neg Bool.false_ne_true]
    exact Lanes.lane_setLane_of_ne (fun h => hf (VuField.index_inj (g := .x) h)) _ _

theorem mfir_iff [Inhabited σ] : (∀ u : VuUnit σ, u.vi 0 = 0 → mfir.Right inst u) ↔ mfir.Meets inst := by
  constructor
  · intro h
    obtain ⟨is, his, -⟩ := h VuUnit.fours rfl
    obtain ⟨hlt, -⟩ := VuUnit.viIndex_eq_ok_iff.mp his
    refine ⟨hlt, or_iff_not_imp_left.mpr fun hnone => ?_⟩
    have hzero : inst.is.setWidth 4 = 0 := by
      by_contra hne
      exact not_mfir_right_fours hlt hne (exists_selected hnone) (h VuUnit.fours rfl)
    have honly (f : VuField) (hf : inst.testDestField f = true) : f = .x := by
      by_contra hne
      exact not_mfir_right_ones hlt hf hne (h VuUnit.ones rfl)
    obtain ⟨f, hf⟩ := exists_selected hnone
    obtain rfl := honly f hf
    refine ⟨?_, fun g => ⟨honly g, fun hg => hg ▸ hf⟩⟩
    exact VuUnit.viIndex_inj ((VuUnit.viIndex_of_lt hlt).trans (congrArg _ hzero)) rfl
  · rintro ⟨hlt, hnone | ⟨hzero, hx⟩⟩ u hu
    · rw [mfir_right_iff hlt, VuUnit.writeSelected_of_none hnone]
      exact VuUnit.movesTo_self hnone _
    · refine mfir_right_of_zero hlt hx ?_
      rw [hzero]
      exact hu

/-- `MOVE.x VF02, VF01` with 4 in the field that is moved. -/
theorem not_right_move : ¬move.Right ⟨0x81020B3C⟩ (VuUnit.fours : VuUnit Unit) := by
  have hselected : VuInstruction.testDestField ⟨0x81020B3C⟩ .x = true := by decide
  rw [Right, run, VuUnit.move, VuUnit.writeSelected_of_ge (fun f => ⟨4, VuUnit.readUword_fours _ f, by decide⟩)
    ⟨.x, hselected⟩]
  exact VuUnit.not_movesTo_error

/-- Of which instruction words a move is right, whatever the registers hold. -/
theorem movesRight_iff [Inhabited σ] (k : VuMove) (inst : VuInstruction) :
    (∀ u : VuUnit σ, u.vi 0 = 0 → k.Right inst u) ↔ k.Meets inst := by
  cases k with
  | move => exact move_iff
  | mfir => exact mfir_iff
  | mfp => exact mfp_iff
  | mr32 => exact mr32_iff

end VuMove

end Orbum
