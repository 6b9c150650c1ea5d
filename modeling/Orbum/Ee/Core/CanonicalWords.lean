import Orbum.Ee.Core.Interpreter.Words
import Orbum.Lib.SignedOrder

/-!
# Canonical words

A word in a register is kept as the doubleword it is sign extended to, so that a comparison of doublewords is one of words.
The arithmetic and the shifts of words keep to that. The moves from coprocessors do not: `MFC0`, `CFC1` and `CFC2` extend by
zeros, and `MFC1` writes the whole register, with ones if the value is negative as a float.
-/

namespace Orbum

open Lanes

variable {σ : Type}

/-- The instructions whose result is a word. -/
inductive WordOp where
  /-- `ADD`. -/
  | add
  /-- `ADDI`. -/
  | addi
  /-- `ADDIU`. -/
  | addiu
  /-- `ADDU`. -/
  | addu
  /-- `SUB`. -/
  | sub
  /-- `SUBU`. -/
  | subu
  /-- `SLL`. -/
  | sll
  /-- `SLLV`. -/
  | sllv
  /-- `SRA`. -/
  | sra
  /-- `SRAV`. -/
  | srav
  /-- `SRL`. -/
  | srl
  /-- `SRLV`. -/
  | srlv
  /-- `MFC0`. -/
  | mfc0
  /-- `MFC1`. -/
  | mfc1
  /-- `CFC1`. -/
  | cfc1
  /-- `CFC2`. -/
  | cfc2
  deriving DecidableEq, Repr

namespace WordOp

variable (M : Machine σ) (C : ControlRegisters σ) (inst : EeCoreInstruction)

/-- The instruction as the interpreter runs it. -/
def operation : WordOp → Operation σ
  | add => .data (Micro.add inst)
  | addi => .data (Micro.addi inst)
  | addiu => .data (Micro.addiu inst)
  | addu => .data (Micro.addu inst)
  | sub => .data (Micro.sub inst)
  | subu => .data (Micro.subu inst)
  | sll => .data (Micro.sll inst)
  | sllv => .data (Micro.sllv inst)
  | sra => .data (Micro.sra inst)
  | srav => .data (Micro.srav inst)
  | srl => .data (Micro.srl inst)
  | srlv => .data (Micro.srlv inst)
  | mfc0 => .system (.mfc0 inst.rt inst.rd)
  | mfc1 => .data (Micro.mfc1 M inst)
  | cfc1 => .data (Micro.cfc1 C inst)
  | cfc2 => .data (Micro.cfc2 C inst)

/-- The destination register. -/
def dest : WordOp → BitVec 5
  | addi | addiu | mfc0 | mfc1 | cfc1 | cfc2 => inst.rt
  | _ => inst.rd

/-- The word that the instruction computes: a number modulo `2 ^ 32`, or what the coprocessor's register holds. -/
def result (s : EeCore σ) : WordOp → Uword
  | add | addu => BitVec.ofInt 32 ((s.data.readUword inst.rs).toInt + (s.data.readUword inst.rt).toInt)
  | addi | addiu => BitVec.ofInt 32 ((s.data.readUword inst.rs).toInt + inst.imm.toInt)
  | sub | subu => BitVec.ofInt 32 ((s.data.readUword inst.rs).toInt - (s.data.readUword inst.rt).toInt)
  | sll => BitVec.ofNat 32 ((s.data.readUword inst.rt).toNat * 2 ^ inst.shamt)
  | sllv => BitVec.ofNat 32 ((s.data.readUword inst.rt).toNat * 2 ^ ((s.data.gpr inst.rs).toNat % 32))
  | sra => BitVec.ofInt 32 ((s.data.readUword inst.rt).toInt / 2 ^ inst.shamt)
  | srav => BitVec.ofInt 32 ((s.data.readUword inst.rt).toInt / 2 ^ ((s.data.gpr inst.rs).toNat % 32))
  | srl => BitVec.ofNat 32 ((s.data.readUword inst.rt).toNat / 2 ^ inst.shamt)
  | srlv => BitVec.ofNat 32 ((s.data.readUword inst.rt).toNat / 2 ^ ((s.data.gpr inst.rs).toNat % 32))
  | mfc0 => (s.cop0.readRegister inst.rd).1
  | mfc1 => M.fpr inst.rd s.data.rest
  | cfc1 => ((C.fcr inst.rd).map fun read => read s.data.rest).getD 0
  | cfc2 => ((C.ccr inst.rd).map fun read => read s.data.rest).getD 0

/-- What the instruction should leave: the low doubleword of its destination is the word sign extended, and the rest is
as it was. -/
def Canonical (op : WordOp) (s s' : EeCore σ) : Prop :=
  s'.data = s.data.writeUdword (op.dest inst) ((op.result M C inst s).signExtend 64)

/-- Where it does: always for the arithmetic and the shifts, and for the moves if register 0 is written, or what they extend
the word by is the sign, and for `MFC1` also what the upper doubleword held. -/
def Extends (op : WordOp) (s : EeCore σ) : Prop :=
  match op with
  | mfc0 | cfc1 | cfc2 => inst.rt = 0 ∨ (op.result M C inst s).msb = false
  | mfc1 =>
    inst.rt = 0 ∨
      if Micro.FloatNegative (M.fpr inst.rd s.data.rest) then
        (s.data.gpr inst.rt).extractLsb' 64 64 = BitVec.allOnes 64
      else (M.fpr inst.rd s.data.rest).msb = false ∧ (s.data.gpr inst.rt).extractLsb' 64 64 = 0
  | _ => True

end WordOp

/-! ### Doublewords -/

/-- The upper word of a sign extended one. -/
theorem lane_one_signExtend (v : Uword) : lane 32 1 (v.signExtend 64) = if v.msb then BitVec.allOnes 32 else 0 := by
  apply BitVec.eq_of_getLsbD_eq
  intro i hi
  rw [getLsbD_lane, BitVec.getLsbD_signExtend, decide_eq_true hi, decide_eq_true (show 32 * 1 + i < 64 by omega),
    if_neg (show ¬32 * 1 + i < 32 by omega), Bool.true_and, Bool.true_and]
  cases v.msb with
  | false => exact BitVec.getLsbD_zero.symm
  | true =>
    rw [if_pos rfl, BitVec.getLsbD_allOnes, decide_eq_true hi]

theorem lane_zero_signExtend (v : Uword) : lane 32 0 (v.signExtend 64) = v := by
  apply BitVec.eq_of_getLsbD_eq
  intro i hi
  rw [getLsbD_lane, BitVec.getLsbD_signExtend, decide_eq_true hi, decide_eq_true (show 32 * 0 + i < 64 by omega),
    if_pos (show 32 * 0 + i < 32 by omega), Nat.mul_zero, Nat.zero_add, Bool.true_and, Bool.true_and]

/-- Extension by zeros is sign extension of what is not negative. -/
theorem setWidth_eq_signExtend_iff (v : Uword) : v.setWidth 64 = v.signExtend 64 ↔ v.msb = false := by
  constructor
  · intro h
    by_contra hmsb
    rw [Bool.not_eq_false] at hmsb
    have hlt := v.isLt
    have hnat : (v.setWidth 64).toNat = v.toNat := by
      rw [BitVec.toNat_setWidth, Nat.mod_eq_of_lt (by omega)]
    have hint := congrArg BitVec.toInt h
    rw [BitVec.toInt_signExtend_of_le (by decide), BitVec.toInt_eq_toNat_of_lt (by omega), hnat] at hint
    rw [BitVec.msb_eq_toInt, decide_eq_true_iff] at hmsb
    omega
  · intro hmsb
    rw [BitVec.signExtend_eq_setWidth_of_msb_false hmsb]

theorem EeData.writeUdword_eq_iff (d : EeData σ) (r : BitVec 5) (value value' : Udword) :
    d.writeUdword r value = d.writeUdword r value' ↔ r = 0 ∨ value = value' := by
  have happend (v : Udword) : ((d.gpr r).extractLsb' 64 64 ++ v).setWidth 64 = v := BitVec.setWidth_append_eq_right
  rw [writeUdword, writeUdword, writeUqword_eq_iff]
  refine or_congr Iff.rfl ⟨fun h => ?_, fun h => h ▸ rfl⟩
  rw [← happend value, h, happend]

/-- The words of a register that a word is filled up with, and those of one that a sign extended word is written to. -/
theorem setLanes_fill_eq_iff (value fill : Uword) (q : Uqword) :
    setLanes (fun k => if k = 0 then value else fill) 4 q = q.extractLsb' 64 64 ++ value.signExtend 64 ↔
      fill = (if value.msb then BitVec.allOnes 32 else 0) ∧ ∀ k < 2, lane 32 k (q.extractLsb' 64 64 : Udword) = fill := by
  rw [setLanes_eq_iff (w := 32) (m := 4) rfl]
  have hlow {k : ℕ} (hk : k < 2) :
      lane 32 k (q.extractLsb' 64 64 ++ value.signExtend 64 : Uqword) = lane 32 k (value.signExtend 64) :=
    lane_append_of_le (by omega) _ _
  have hhigh (k : ℕ) : lane 32 (2 + k) (q.extractLsb' 64 64 ++ value.signExtend 64 : Uqword) =
      lane 32 k (q.extractLsb' 64 64 : Udword) :=
    lane_append_add rfl _ _ k
  constructor
  · intro h
    refine ⟨?_, fun k hk => ?_⟩
    · rw [← lane_one_signExtend, ← hlow (by decide), ← h 1 (by decide), if_neg (by decide)]
    · rw [← hhigh, ← h (2 + k) (by omega), if_neg (by omega)]
  · rintro ⟨hfill, hupper⟩ k hk
    match k, hk with
    | 0, _ => rw [if_pos rfl, hlow (by decide), lane_zero_signExtend]
    | 1, _ => rw [if_neg (by decide), hlow (by decide), lane_one_signExtend, hfill]
    | 2, _ => rw [if_neg (by decide), hhigh 0, hupper 0 (by decide)]
    | 3, _ => rw [if_neg (by decide), hhigh 1, hupper 1 (by decide)]

/-! ### Runs -/

theorem Micro.data_of_done {d : EeData σ} {s s' : EeCore σ} (h : (Micro.done d).run s = .ok (.value () s')) :
    s'.data = d := by
  have hs : s.setData d = s' := by simpa [Micro.run] using h
  rw [← hs]
  rfl

theorem Micro.run_of_usable {cop : EeCore.Coprocessor} {next : Micro σ} {s s' : EeCore σ}
    (h : (Micro.usable cop next).run s = .ok (.value () s')) : next.run s = .ok (.value () s') := by
  unfold Micro.run EeCore.handleCopUsable at h
  split_ifs at h
  · exact h
  · simp at h

theorem Micro.data_of_checked {w : ℕ} {x y : ℤ} {d : EeData σ} {reg : BitVec 5} {result : Udword} {s s' : EeCore σ}
    (h : (Micro.checked d w x y reg result).run s = .ok (.value () s')) : s'.data = d.writeUdword reg result := by
  unfold Micro.checked at h
  split_ifs at h
  · simp [Micro.run] at h
  · exact data_of_done h

theorem Micro.data_of_moveControl {inst : EeCoreInstruction} {d : EeData σ} {source : Option (σ → Uword)} {s s' : EeCore σ}
    (h : (Micro.moveControl inst d source).run s = .ok (.value () s')) :
    s'.data = d.writeUdword inst.rt (((source.map fun read : σ → Uword => read d.rest).getD 0).setWidth 64) := by
  cases source with
  | none => simp [Micro.moveControl, Micro.run] at h
  | some read => exact data_of_done h

theorem EeCore.data_of_mfc0 {rt rd : BitVec 5} {s s' : EeCore σ}
    (h : (SystemOp.mfc0 rt rd).run s = .ok (.value () s')) :
    s'.data = s.data.writeUdword rt ((s.cop0.readRegister rd).1.setWidth 64) := by
  have hs := of_whenCop0Usable (show s.whenCop0Usable _ = _ from h)
  rw [← Except.ok.inj hs]
  rfl

/-! ### Results -/

theorem ofInt_add_toInt (x y : Uword) : BitVec.ofInt 32 (x.toInt + y.toInt) = x + y := by
  rw [BitVec.ofInt_add, BitVec.ofInt_toInt, BitVec.ofInt_toInt]

theorem ofInt_add_imm (x : Uword) (imm : Uhword) : BitVec.ofInt 32 (x.toInt + imm.toInt) = x + imm.signExtend 32 := by
  rw [← BitVec.toInt_signExtend_of_le (x := imm) (show 16 ≤ 32 by decide), ofInt_add_toInt]

theorem ofInt_sub_toInt (x y : Uword) : BitVec.ofInt 32 (x.toInt - y.toInt) = x - y := by
  apply BitVec.eq_of_toInt_eq
  rw [BitVec.toInt_ofInt, BitVec.toInt_sub]

theorem ofNat_shiftLeft (x : Uword) (n : ℕ) : BitVec.ofNat 32 (x.toNat * 2 ^ n) = x <<< n := by
  apply BitVec.eq_of_toNat_eq
  rw [BitVec.toNat_ofNat, BitVec.toNat_shiftLeft, Nat.shiftLeft_eq]

theorem ofNat_ushiftRight (x : Uword) (n : ℕ) : BitVec.ofNat 32 (x.toNat / 2 ^ n) = x >>> n := by
  apply BitVec.eq_of_toNat_eq
  have hlt := x.isLt
  have hle := Nat.div_le_self x.toNat (2 ^ n)
  rw [BitVec.toNat_ofNat, BitVec.toNat_ushiftRight, Nat.shiftRight_eq_div_pow, Nat.mod_eq_of_lt (by omega)]

theorem ofInt_sshiftRight (x : Uword) (n : ℕ) : BitVec.ofInt 32 (x.toInt / 2 ^ n) = x.sshiftRight n := by
  have hshift : x.toInt / 2 ^ n = (x.sshiftRight n).toInt := by
    rw [BitVec.toInt_sshiftRight, Int.shiftRight_eq_div_pow]
    rfl
  rw [hshift, BitVec.ofInt_toInt]

theorem variableShamt_eq (inst : EeCoreInstruction) (d : EeData σ) :
    Micro.variableShamt inst d = (d.gpr inst.rs).toNat % 32 := by
  have hmask : ((d.gpr inst.rs).setWidth 8 &&& (0x1F : Ubyte)).toNat = ((d.gpr inst.rs).setWidth 8).toNat % 2 ^ 5 := by
    rw [BitVec.toNat_and]
    exact Nat.and_two_pow_sub_one_eq_mod _ 5
  rw [Micro.variableShamt, hmask, BitVec.toNat_setWidth]
  omega

namespace WordOp

variable (M : Machine σ) (C : ControlRegisters σ) (inst : EeCoreInstruction) {s s' : EeCore σ}

theorem writeUdword_setWidth_iff {rt : BitVec 5} {v : Uword} (h : s'.data = s.data.writeUdword rt (v.setWidth 64)) :
    s'.data = s.data.writeUdword rt (v.signExtend 64) ↔ rt = 0 ∨ v.msb = false := by
  rw [h, EeData.writeUdword_eq_iff, setWidth_eq_signExtend_iff]

/-- A doubleword with the same two words. -/
theorem lanes_eq_iff (q : Udword) (fill : Uword) : (∀ k < 2, lane 32 k q = fill) ↔ q = fill ++ fill := by
  have hself : lane 32 0 fill = fill := BitVec.extractLsb'_eq_self
  have hupper : lane 32 (1 + 0) (fill ++ fill : Udword) = lane 32 0 fill :=
    lane_append_add (w := 32) (m := 1) (b := 32) rfl fill fill 0
  have hlane : ∀ k < 2, lane 32 k (fill ++ fill : Udword) = fill := by
    intro k hk
    match k, hk with
    | 0, _ => rw [lane_append_of_le (by decide), hself]
    | 1, _ => exact hupper.trans hself
  constructor
  · intro h
    exact eq_of_lanes (w := 32) (m := 2) rfl fun k hk => (h k hk).trans (hlane k hk).symm
  · rintro rfl
    exact hlane

theorem mfc1_iff (h : (Micro.mfc1 M inst s.data).run s = .ok (.value () s')) :
    s'.data = s.data.writeUdword inst.rt ((M.fpr inst.rd s.data.rest).signExtend 64) ↔ mfc1.Extends M C inst s := by
  rw [Micro.data_of_done (Micro.run_of_usable h), EeData.writeUdword, EeData.writeUqword_eq_iff, setLanes_fill_eq_iff,
    lanes_eq_iff, Extends]
  refine or_congr Iff.rfl ?_
  generalize M.fpr inst.rd s.data.rest = value
  generalize (s.data.gpr inst.rt).extractLsb' 64 64 = upper
  by_cases hneg : Micro.FloatNegative value
  · rw [if_pos hneg, if_pos hneg, if_pos hneg.1]
    exact and_iff_right rfl
  · rw [if_neg hneg, if_neg hneg]
    refine and_congr ?_ Iff.rfl
    cases value.msb with
    | false => exact iff_of_true rfl rfl
    | true => exact iff_of_false (by decide) (by decide)

theorem canonical_of_eq {op : WordOp} {v : Uword}
    (h : s'.data = s.data.writeUdword (op.dest inst) (v.signExtend 64)) (hv : op.result M C inst s = v) :
    op.Canonical M C inst s s' := by
  rw [Canonical, hv]
  exact h

/-- An instruction that completes leaves its result sign extended, and nothing else changed, if and only if it extends it
by its sign. -/
theorem canonical_iff (op : WordOp) (h : (op.operation M C inst).run s = .ok (.value () s')) :
    op.Canonical M C inst s s' ↔ op.Extends M C inst s := by
  cases op with
  | add => exact iff_of_true (canonical_of_eq M C inst (Micro.data_of_checked h) (ofInt_add_toInt _ _)) trivial
  | addi => exact iff_of_true (canonical_of_eq M C inst (Micro.data_of_checked h) (ofInt_add_imm _ _)) trivial
  | addiu => exact iff_of_true (canonical_of_eq M C inst (Micro.data_of_done h) (ofInt_add_imm _ _)) trivial
  | addu => exact iff_of_true (canonical_of_eq M C inst (Micro.data_of_done h) (ofInt_add_toInt _ _)) trivial
  | sub => exact iff_of_true (canonical_of_eq M C inst (Micro.data_of_checked h) (ofInt_sub_toInt _ _)) trivial
  | subu => exact iff_of_true (canonical_of_eq M C inst (Micro.data_of_done h) (ofInt_sub_toInt _ _)) trivial
  | sll => exact iff_of_true (canonical_of_eq M C inst (Micro.data_of_done h) (ofNat_shiftLeft _ _)) trivial
  | sra => exact iff_of_true (canonical_of_eq M C inst (Micro.data_of_done h) (ofInt_sshiftRight _ _)) trivial
  | srl => exact iff_of_true (canonical_of_eq M C inst (Micro.data_of_done h) (ofNat_ushiftRight _ _)) trivial
  | sllv =>
    have hv : sllv.result M C inst s = s.data.readUword inst.rt <<< Micro.variableShamt inst s.data := by
      rw [variableShamt_eq]
      exact ofNat_shiftLeft _ _
    exact iff_of_true (canonical_of_eq M C inst (Micro.data_of_done h) hv) trivial
  | srav =>
    have hv : srav.result M C inst s = (s.data.readUword inst.rt).sshiftRight (Micro.variableShamt inst s.data) := by
      rw [variableShamt_eq]
      exact ofInt_sshiftRight _ _
    exact iff_of_true (canonical_of_eq M C inst (Micro.data_of_done h) hv) trivial
  | srlv =>
    have hv : srlv.result M C inst s = s.data.readUword inst.rt >>> Micro.variableShamt inst s.data := by
      rw [variableShamt_eq]
      exact ofNat_ushiftRight _ _
    exact iff_of_true (canonical_of_eq M C inst (Micro.data_of_done h) hv) trivial
  | mfc0 => exact writeUdword_setWidth_iff (EeCore.data_of_mfc0 h)
  | mfc1 => exact mfc1_iff M C inst h
  | cfc1 => exact writeUdword_setWidth_iff (Micro.data_of_moveControl (Micro.run_of_usable h))
  | cfc2 =>
    have hrun := Micro.run_of_usable h
    split_ifs at hrun
    · simp [Micro.run] at hrun
    · exact writeUdword_setWidth_iff (Micro.data_of_moveControl hrun)

/-- Two doublewords compare as two words do. -/
structure ComparesAs (x y : Udword) (a b : Uword) : Prop where
  /-- As signed numbers. -/
  signed : x.toInt < y.toInt ↔ a.toInt < b.toInt
  /-- As unsigned numbers. -/
  unsigned : x < y ↔ a < b
  /-- For equality. -/
  eq : x = y ↔ a = b

theorem comparesAs_signExtend (a b : Uword) : ComparesAs (a.signExtend 64) (b.signExtend 64) a b := by
  have hsigned := SignedOrder.toInt_signExtend_lt_iff (a := a) (b := b) (v := 64) (by decide)
  have hmsb (v : Uword) : (v.signExtend 64).msb = v.msb := by
    rw [BitVec.msb_eq_toInt, BitVec.msb_eq_toInt, BitVec.toInt_signExtend_of_le (by decide)]
  refine ⟨hsigned, ?_, ?_⟩
  · by_cases h : a.msb = b.msb
    · rw [← SignedOrder.toInt_lt_iff_of_msb_eq h,
        ← SignedOrder.toInt_lt_iff_of_msb_eq ((hmsb a).trans (h.trans (hmsb b).symm)), hsigned]
    · have h' : (b.signExtend 64).msb ≠ (a.signExtend 64).msb := by
        rw [hmsb, hmsb]
        exact Ne.symm h
      rw [← SignedOrder.toInt_lt_iff_of_msb_ne h', ← SignedOrder.toInt_lt_iff_of_msb_ne (Ne.symm h),
        SignedOrder.toInt_signExtend_lt_iff (by decide)]
  · constructor
    · intro heq
      rw [← lane_zero_signExtend a, heq, lane_zero_signExtend]
    · rintro rfl
      rfl

theorem readUdword_of_canonical {op : WordOp} (h : op.Canonical M C inst s s') (hdest : op.dest inst ≠ 0) :
    s'.data.readUdword (op.dest inst) = (op.result M C inst s).signExtend 64 := by
  rw [h, EeData.readUdword_writeUdword _ hdest]

/-- An instruction of these that completes leaves the sign extension of its word, and nothing else changed, if and only if
it is one of the arithmetic or of the shifts, or writes register 0, or is a move of a word that it happens to extend by the
sign. Two such results compare as the words do. -/
theorem canonical_words_iff (op : WordOp) (h : (op.operation M C inst).run s = .ok (.value () s')) :
    (op.Canonical M C inst s s' ↔ op.Extends M C inst s) ∧
    ∀ (op₁ : WordOp) (inst₁ : EeCoreInstruction) (t t' : EeCore σ),
      (op₁.operation M C inst₁).run t = .ok (.value () t') → op.Extends M C inst s → op₁.Extends M C inst₁ t →
      op.dest inst ≠ 0 → op₁.dest inst₁ ≠ 0 →
      ComparesAs (s'.data.readUdword (op.dest inst)) (t'.data.readUdword (op₁.dest inst₁))
        (op.result M C inst s) (op₁.result M C inst₁ t) := by
  refine ⟨canonical_iff M C inst op h, fun op₁ inst₁ t t' h₁ hext hext₁ hdest hdest₁ => ?_⟩
  have hcanonical := (canonical_iff M C inst op h).mpr hext
  have hcanonical₁ := (canonical_iff M C inst₁ op₁ h₁).mpr hext₁
  rw [readUdword_of_canonical M C inst hcanonical hdest, readUdword_of_canonical M C inst₁ hcanonical₁ hdest₁]
  exact comparesAs_signExtend _ _

/-! ### Words moved from coprocessors -/

/-- A machine whose FPU registers hold `value`. -/
def fprMachine (value : Uword) : Machine Unit where
  busRead _ _ _ := .ok (0, ())
  busWrite _ _ _ _ := .ok ()
  fpr _ _ := value
  setFpr _ _ _ := ()
  setVf _ _ _ := ()
  csrC _ := 0
  other _ := none
  cpi _ := 9

/-- Control registers that hold `value`. -/
def constantRegisters (value : Uword) : ControlRegisters Unit :=
  ⟨fun _ => value, fun _ => value, fun _ _ => value.setWidth 16, fun _ => value, fun _ => value, fun _ => value,
    fun _ => value, fun _ => value, fun _ => value, fun _ => value, fun _ => value, fun _ => value, fun _ => value,
    fun _ => value⟩

/-- A core in kernel mode with all coprocessors and `value` in `EPC`. -/
def movingCore (value : Uword) : EeCore Unit where
  pc := 0x80001000
  bdelay := ⟨0, 0⟩
  data := ⟨fun _ => 0, ()⟩
  cop0 := { EeCoreCop0.initial with status := ⟨0xF0000000, true, .kernel, false⟩, epc := value }
  tlb := fun _ => EeCore.firstPages
  translationCacheData := .new ..
  translationCacheInst := .new ..

/-- The core with -1 in every register but `$0`. -/
def negativeCore : EeCore Unit :=
  { movingCore 0 with data := ⟨fun r => if r = 0 then 0 else 0xFFFFFFFFFFFFFFFF, ()⟩ }

/-- `ADDU $1, $2, $3` of -1 and -1 leaves -2, and `SRL $1, $3, 1` what is greater. -/
theorem canonical_words_addu :
    ∃ s' t', (addu.operation (fprMachine 0) (constantRegisters 0) ⟨0x00430821⟩).run negativeCore = .ok (.value () s') ∧
      (srl.operation (fprMachine 0) (constantRegisters 0) ⟨0x00030842⟩).run negativeCore = .ok (.value () t') ∧
      addu.Canonical (fprMachine 0) (constantRegisters 0) ⟨0x00430821⟩ negativeCore s' ∧
      ComparesAs (s'.data.readUdword 1) (t'.data.readUdword 1) 0xFFFFFFFE 0x7FFFFFFF :=
  ⟨_, _, rfl, rfl, (canonical_words_iff (fprMachine 0) (constantRegisters 0) ⟨0x00430821⟩ addu rfl).1.mpr trivial,
    (canonical_words_iff (fprMachine 0) (constantRegisters 0) ⟨0x00430821⟩ addu rfl).2 srl ⟨0x00030842⟩ _ _ rfl trivial
      trivial (by decide) (by decide)⟩

/-- An instruction that runs in `movingCore` leaves its result sign extended. -/
def CanonicalInMovingCore (op : WordOp) (inst : Uword) : Prop :=
  ∀ s', (op.operation (fprMachine 0x80000000) (constantRegisters 0x80000000) ⟨inst⟩).run (movingCore 0x80000000) =
      .ok (.value () s') →
    op.Canonical (fprMachine 0x80000000) (constantRegisters 0x80000000) ⟨inst⟩ (movingCore 0x80000000) s'

/-- `MFC0 $1, EPC`, `MFC1 $1, $f0`, `CFC1 $1, $31` and `CFC2 $1, $21` of `0x80000000`, which as a float is the negative
zero. -/
theorem not_canonical_moves :
    ¬CanonicalInMovingCore mfc0 0x40017000 ∧ ¬CanonicalInMovingCore mfc1 0x44010000 ∧
      ¬CanonicalInMovingCore cfc1 0x4441F800 ∧ ¬CanonicalInMovingCore cfc2 0x4841A800 := by
  refine ⟨fun h => absurd ((canonical_iff _ _ _ mfc0 rfl).mp (h _ rfl)) ?_,
    fun h => absurd ((canonical_iff _ _ _ mfc1 rfl).mp (h _ rfl)) ?_,
    fun h => absurd ((canonical_iff _ _ _ cfc1 rfl).mp (h _ rfl)) ?_,
    fun h => absurd ((canonical_iff _ _ _ cfc2 rfl).mp (h _ rfl)) ?_⟩
  · exact not_or.mpr ⟨by decide, by decide⟩
  · exact not_or.mpr ⟨by decide, by decide⟩
  · exact not_or.mpr ⟨by decide, by decide⟩
  · exact not_or.mpr ⟨by decide, by decide⟩

end WordOp

end Orbum
