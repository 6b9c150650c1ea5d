import Orbum.Ee.Core.CanonicalWords
import Orbum.Ee.Core.Interpreter.Dispatch
import Orbum.Ee.Core.Interpreter.Logical
import Orbum.Iop.Core.Dispatch

/-!
# Programs of both cores

The EE runs what the IOP runs: its registers hold the words of the IOP sign extended, and straight-line code of the
instructions that both have goes through the same addresses, the same accesses to the bus and the same exceptions on
both. The functions of the two interpreters are written apart, one on words and one on doublewords.

A program is here the tree of what its instructions ask of the core, one instruction after the other. `Bisimilar` has
two trees ask the same, with registers that correspond whenever they are written.
-/

namespace Orbum

/-! ### Programs -/

/-- A bus. -/
structure Bus (τ : Type) where
  /-- `bus.read_*`, of `w` bits. -/
  read (w : ℕ) (physicalAddress : Uptr) : τ → Except HostError (BitVec w × τ)
  /-- `bus.write_*`, of `w` bits. -/
  write (w : ℕ) (physicalAddress : Uptr) (value : BitVec w) : τ → Except HostError τ

namespace Bus

variable {τ : Type} (B : Bus τ)

/-- An IOP on the bus. -/
def iop (M : IopMachine (IopSpecial τ)) : IopMachine (IopSpecial τ) :=
  { M with
    busRead := fun w physicalAddress s => (B.read w physicalAddress s.rest).map fun p => (p.1, { s with rest := p.2 })
    busWrite := fun w physicalAddress value s =>
      (B.write w physicalAddress value s.rest).map fun rest => { s with rest } }

/-- An EE on the bus. -/
def ee (M : Machine (Special τ)) : Machine (Special τ) :=
  { M with
    busRead := fun w physicalAddress s => (B.read w physicalAddress s.rest).map fun p => (p.1, { s with rest := p.2 })
    busWrite := fun w physicalAddress value s =>
      (B.write w physicalAddress value s.rest).map fun rest => { s with rest } }

end Bus

/-- An instruction, and then more. -/
def IopMicro.andThen {σ : Type} : IopMicro σ → (IopData σ → IopMicro σ) → IopMicro σ
  | done data, k => write data (k data)
  | fail e, _ => fail e
  | raise e, _ => raise e
  | translate virtualAddress rwAccess next, k => translate virtualAddress rwAccess fun pa => (next pa).andThen k
  | write data next, k => write data (next.andThen k)

/-- An instruction, and then more. -/
def Micro.andThen {σ : Type} : Micro σ → (EeData σ → Micro σ) → Micro σ
  | done data, k => write data (k data)
  | fail e, _ => fail e
  | raise e, _ => raise e
  | usable cop next, k => usable cop (next.andThen k)
  | translate virtualAddress rwAccess next, k => translate virtualAddress rwAccess fun pa => (next pa).andThen k
  | write data next, k => write data (next.andThen k)

/-- What a data instruction does. -/
def IopOperation.micro {σ : Type} : IopOperation σ → Option (IopData σ → IopMicro σ)
  | data m => some m
  | _ => none

/-- What a data instruction does. -/
def Operation.micro {σ : Type} : Operation σ → Option (EeData σ → Micro σ)
  | data m => some m
  | _ => none

/-- What the function does with the registers, if it neither branches nor touches COP0. -/
def IopCoreFunction.micro {τ : Type} (M : IopMachine (IopSpecial τ)) (inst : IopCoreInstruction) (f : IopCoreFunction) :
    Option (R3000 τ → IopMicro (IopSpecial τ)) :=
  (f.control M inst).elim ((f.compute inst).map fun g d => .done (g d)) IopOperation.micro

/-- What the function does with the registers, if it is of MIPS I and neither branches nor touches COP0. -/
def EeCoreFunction.micro {τ : Type} (M : Machine (Special τ)) (inst : EeCoreInstruction) (f : EeCoreFunction) :
    Option (R5900 τ → Micro (Special τ)) :=
  (f.control M inst).elim (f.compute inst) Operation.micro

/-- Straight-line code of the IOP, the functions found through its tables. -/
def iopProgram {τ : Type} (M : IopMachine (IopSpecial τ)) : List Uword → R3000 τ → IopMicro (IopSpecial τ)
  | [], d => .done d
  | w :: ws, d =>
    ((IopCoreInstruction.instructionSet.dispatch w).toOption.bind (IopCoreFunction.micro M ⟨w⟩)).elim
      (.fail (.runtimeError "Could not determine instruction")) fun m => (m d).andThen (iopProgram M ws)

/-- Straight-line code of the EE, the functions found through its tables. -/
def eeProgram {τ : Type} (M : Machine (Special τ)) : List Uword → R5900 τ → Micro (Special τ)
  | [], d => .done d
  | w :: ws, d =>
    ((EeCoreInstruction.instructionSet.dispatch w).toOption.bind (EeCoreFunction.micro M ⟨w⟩)).elim
      (.fail (.runtimeError "Could not determine instruction")) fun m => (m d).andThen (eeProgram M ws)

/-! ### Registers that correspond -/

open Lanes

/-- The low doublewords of the EE are the words of the IOP sign extended, and the bus is in one state. -/
structure Corresponds {τ : Type} (d : R3000 τ) (d' : R5900 τ) : Prop where
  /-- The general registers. -/
  gpr : ∀ r, d'.readUdword r = (d.gpr r).signExtend 64
  /-- `hi`. -/
  hi : lane 64 0 d'.rest.hi = d.rest.hi.signExtend 64
  /-- `lo`. -/
  lo : lane 64 0 d'.rest.lo = d.rest.lo.signExtend 64
  /-- The bus. -/
  rest : d'.rest.rest = d.rest.rest

/-- The exceptions that instructions of both raise. -/
inductive SameException : IopCoreException → EeCoreException → Prop where
  | overflow : SameException .exOverflow .exOverflow
  | systemcall : SameException .exSystemcall .exSystemcall
  | break_ : SameException .exBreak .exBreak

/-- Two trees that ask the same of their cores. -/
inductive Bisimilar {τ : Type} : IopMicro (IopSpecial τ) → Micro (Special τ) → Prop where
  | done {d : R3000 τ} {d' : R5900 τ} (h : Corresponds d d') : Bisimilar (.done d) (.done d')
  | fail (e : HostError) : Bisimilar (.fail e) (.fail e)
  | raise {e : IopCoreException} {e' : EeCoreException} (h : SameException e e') : Bisimilar (.raise e) (.raise e')
  | translate (virtualAddress : Uptr) (rwAccess : MmuRwAccess) {next : Uptr → IopMicro (IopSpecial τ)}
      {next' : Uptr → Micro (Special τ)} (h : ∀ physicalAddress, Bisimilar (next physicalAddress) (next' physicalAddress)) :
      Bisimilar (.translate virtualAddress rwAccess next) (.translate virtualAddress rwAccess next')
  | write {d : R3000 τ} {d' : R5900 τ} {next : IopMicro (IopSpecial τ)} {next' : Micro (Special τ)}
      (h : Corresponds d d') (hnext : Bisimilar next next') : Bisimilar (.write d next) (.write d' next')

namespace Bisimilar

variable {τ : Type}

/-- What follows, follows on both. -/
theorem andThen {m : IopMicro (IopSpecial τ)} {m' : Micro (Special τ)} (h : Bisimilar m m')
    {k : R3000 τ → IopMicro (IopSpecial τ)} {k' : R5900 τ → Micro (Special τ)}
    (hk : ∀ d d', Corresponds d d' → Bisimilar (k d) (k' d')) : Bisimilar (m.andThen k) (m'.andThen k') := by
  induction h with
  | done h => exact .write h (hk _ _ h)
  | fail e => exact .fail e
  | raise h => exact .raise h
  | translate va rw _ ih => exact .translate va rw ih
  | write h _ ih => exact .write h ih

end Bisimilar

/-! ### Reading and writing -/

namespace Corresponds

variable {τ : Type} {d : R3000 τ} {d' : R5900 τ}

/-- A word of the EE is that of the IOP. -/
theorem readUword (h : Corresponds d d') (r : BitVec 5) : d'.readUword r = d.gpr r := by
  rw [← lane_zero_signExtend (d.gpr r), ← h.gpr r]
  apply BitVec.eq_of_getLsbD_eq
  intro i hi
  rw [getLsbD_lane, EeData.readUword, EeData.readUdword, BitVec.getLsbD_setWidth, BitVec.getLsbD_setWidth]
  simp [hi, show i < 64 by omega]

/-- A word written to both. -/
theorem write (h : Corresponds d d') (r : BitVec 5) (value : Uword) :
    Corresponds (d.writeUword r value) (d'.writeUdword r (value.signExtend 64)) where
  gpr r' := by
    by_cases hr : r = 0
    · rw [IopData.writeUword, if_pos hr, EeData.writeUdword, EeData.writeUqword, if_pos hr]
      exact h.gpr r'
    · by_cases hr' : r' = r
      · rw [hr', EeData.readUdword_writeUdword _ hr, IopData.gpr_writeUword _ _ hr, if_pos rfl]
      · rw [IopData.gpr_writeUword_of_ne _ _ hr', EeData.readUdword, EeData.gpr_writeUdword_of_ne _ hr']
        exact h.gpr r'
  hi := by rw [EeData.rest_writeUdword, IopData.rest_writeUword, h.hi]
  lo := by rw [EeData.rest_writeUdword, IopData.rest_writeUword, h.lo]
  rest := by rw [EeData.rest_writeUdword, IopData.rest_writeUword, h.rest]

/-- `lo` and `hi` written to both. -/
theorem writeSpecial (h : Corresponds d d') (lo hi : Uword) {rest : Special τ}
    (hlo : lane 64 0 rest.lo = lo.signExtend 64) (hhi : lane 64 0 rest.hi = hi.signExtend 64)
    (hrest : rest.rest = d.rest.rest) :
    Corresponds { d with rest := { d.rest with lo, hi } } { d' with rest } :=
  ⟨h.gpr, hhi, hlo, hrest⟩

/-- The bus in another state. -/
theorem setRest (h : Corresponds d d') (rest : τ) :
    Corresponds { d with rest := { d.rest with rest } } { d' with rest := { d'.rest with rest } } :=
  ⟨h.gpr, h.hi, h.lo, rfl⟩

end Corresponds

namespace Bisimilar

variable {τ : Type} {d : R3000 τ} {d' : R5900 τ} (B : Bus τ) (M : IopMachine (IopSpecial τ)) (M' : Machine (Special τ))

/-- A read of the bus. -/
theorem busRead (h : Corresponds d d') (w : ℕ) (physicalAddress : Uptr) {next : BitVec w → R3000 τ → IopMicro (IopSpecial τ)}
    {next' : BitVec w → R5900 τ → Micro (Special τ)}
    (hnext : ∀ value d d', Corresponds d d' → Bisimilar (next value d) (next' value d')) :
    Bisimilar (IopMicro.busRead (B.iop M) d w physicalAddress next) (Micro.busRead (B.ee M') w physicalAddress d' next') := by
  simp only [IopMicro.busRead, Micro.busRead, Bus.iop, Bus.ee, h.rest]
  cases B.read w physicalAddress d.rest.rest with
  | error e => exact .fail e
  | ok p => exact .write (h.setRest p.2) (hnext _ _ _ (h.setRest p.2))

/-- A write to the bus. -/
theorem busWrite (h : Corresponds d d') (w : ℕ) (physicalAddress : Uptr) (value : BitVec w) :
    Bisimilar (IopMicro.busWrite (B.iop M) d w physicalAddress value) (Micro.busWrite (B.ee M') w physicalAddress value d') := by
  simp only [IopMicro.busWrite, Micro.busWrite, Bus.iop, Bus.ee, h.rest]
  cases B.write w physicalAddress value d.rest.rest with
  | error e => exact .fail e
  | ok rest => exact .done (h.setRest rest)

end Bisimilar

/-! ### Instructions -/

/-- The function of the EE of the same name, for what neither branches nor touches a coprocessor. -/
def IopCoreFunction.counterpart : IopCoreFunction → Option EeCoreFunction
  | addi => some .addi
  | addiu => some .addiu
  | slti => some .slti
  | sltiu => some .sltiu
  | andi => some .andi
  | ori => some .ori
  | xori => some .xori
  | lui => some .lui
  | lb => some .lb
  | lh => some .lh
  | lwl => some .lwl
  | lw => some .lw
  | lbu => some .lbu
  | lhu => some .lhu
  | lwr => some .lwr
  | sb => some .sb
  | sh => some .sh
  | swl => some .swl
  | sw => some .sw
  | swr => some .swr
  | sll => some .sll
  | srl => some .srl
  | sra => some .sra
  | sllv => some .sllv
  | srlv => some .srlv
  | srav => some .srav
  | syscall => some .syscall
  | break_ => some .break_
  | mfhi => some .mfhi
  | mthi => some .mthi
  | mflo => some .mflo
  | mtlo => some .mtlo
  | mult => some .mult
  | multu => some .multu
  | div => some .div
  | divu => some .divu
  | add => some .add
  | addu => some .addu
  | sub => some .sub
  | subu => some .subu
  | and => some .and
  | or => some .or
  | xor => some .xor
  | nor => some .nor
  | slt => some .slt
  | sltu => some .sltu
  | _ => none

section Words

variable {w : ℕ}

/-- What is extended by zeros is not negative. -/
theorem signExtend_setWidth (hw : w < 32) (v : BitVec w) : (v.setWidth 32).signExtend 64 = v.setWidth 64 := by
  have hlt : v.toNat < 2 ^ 31 := Nat.lt_of_lt_of_le v.isLt (Nat.pow_le_pow_right (by decide) (by omega))
  have hmsb : (v.setWidth 32).msb = false := by
    rw [BitVec.msb_eq_decide, BitVec.toNat_setWidth, decide_eq_false_iff_not, Nat.mod_eq_of_lt (by omega)]
    omega
  rw [BitVec.signExtend_eq_setWidth_of_msb_false hmsb]
  apply BitVec.eq_of_toNat_eq
  simp only [BitVec.toNat_setWidth]
  omega

theorem signExtend_signExtend (hw : w ≤ 32) (v : BitVec w) : (v.signExtend 32).signExtend 64 = v.signExtend 64 := by
  apply BitVec.eq_of_toInt_eq
  rw [BitVec.toInt_signExtend_of_le (by decide), BitVec.toInt_signExtend_of_le hw,
    BitVec.toInt_signExtend_of_le (by omega)]

theorem signExtend_nor (x y : Uword) : ~~~(x.signExtend 64 ||| y.signExtend 64) = (~~~(x ||| y)).signExtend 64 := by
  rw [BitVec.signExtend_not (by decide), BitVec.signExtend_or]

theorem signExtend_slt (x y : Uword) : (if (x.signExtend 64).toInt < (y.signExtend 64).toInt then 1 else 0 : Udword) =
    (if x.toInt < y.toInt then 1 else 0 : Uword).signExtend 64 := by
  simp only [(WordOp.comparesAs_signExtend x y).signed]
  split_ifs <;> rfl

theorem signExtend_sltu (x y : Uword) : (if x.signExtend 64 < y.signExtend 64 then 1 else 0 : Udword) =
    (if x < y then 1 else 0 : Uword).signExtend 64 := by
  simp only [(WordOp.comparesAs_signExtend x y).unsigned]
  split_ifs <;> rfl

end Words

namespace Bisimilar

variable {τ : Type} {d : R3000 τ} {d' : R5900 τ} (h : Corresponds d d') (inst : IopCoreInstruction)

include h

/-- A word for a register. -/
theorem ofWord (r : BitVec 5) (value : Uword) :
    Bisimilar (.done (d.writeUword r value)) (.done (d'.writeUdword r (value.signExtend 64))) :=
  .done (h.write r value)

theorem ofRegisters {op : Uword → Uword → Uword} {op' : Udword → Udword → Udword}
    (hop : ∀ x y, op' (x.signExtend 64) (y.signExtend 64) = (op x y).signExtend 64) :
    Bisimilar (.done (R3000.ofRegisters inst d op)) (Micro.ofRegisters inst d' op') := by
  rw [Micro.ofRegisters, h.gpr, h.gpr, hop]
  exact ofWord h ..

theorem ofImmediate {op : Uword → Uhword → Uword} {op' : Udword → Uhword → Udword}
    (hop : ∀ x imm, op' (x.signExtend 64) imm = (op x imm).signExtend 64) :
    Bisimilar (.done (R3000.ofImmediate inst d op)) (Micro.ofImmediate inst d' op') := by
  rw [Micro.ofImmediate, h.gpr, hop]
  exact ofWord h ..

theorem shift (op : Uword → ℕ → Uword) (shamt : ℕ) :
    Bisimilar (.done (R3000.shift inst d op shamt)) (Micro.shift inst d' op shamt) := by
  rw [Micro.shift, h.readUword]
  exact ofWord h ..

theorem variableShamt_eq :  Micro.variableShamt inst d' = R3000.variableShamt inst d := by
  rw [Micro.variableShamt, R3000.variableShamt, ← h.readUword, EeData.readUword, BitVec.setWidth_setWidth_of_le _ (by decide)]

theorem checked (x y : ℤ) (r : BitVec 5) (value : Uword) :
    Bisimilar (IopMicro.checked d x y r value) (Micro.checked d' 32 x y r (value.signExtend 64)) := by
  unfold IopMicro.checked Micro.checked
  by_cases hover : Micro.TestOverOrUnderflow 32 x y
  · rw [if_pos hover, if_pos hover]
    exact .raise .overflow
  · rw [if_neg hover, if_neg hover]
    exact ofWord h ..

theorem variableShift (op : Uword → ℕ → Uword) :
    Bisimilar (.done (R3000.shift inst d op (R3000.variableShamt inst d)))
      (Micro.shift inst d' op (Micro.variableShamt inst d')) := by
  rw [variableShamt_eq h]
  exact shift h inst op _

theorem addiu : Bisimilar (.done (R3000.addiu inst d)) (Micro.addiu inst d') := by
  rw [Micro.addiu, h.readUword]
  exact ofWord h ..

theorem addu : Bisimilar (.done (R3000.addu inst d)) (Micro.addu inst d') := by
  rw [Micro.addu, h.readUword, h.readUword]
  exact ofWord h ..

theorem subu : Bisimilar (.done (R3000.subu inst d)) (Micro.subu inst d') := by
  rw [Micro.subu, h.readUword, h.readUword]
  exact ofWord h ..

theorem add : Bisimilar (IopMicro.add inst d) (Micro.add inst d') := by
  rw [Micro.add, h.readUword, h.readUword]
  exact checked h ..

theorem addi : Bisimilar (IopMicro.addi inst d) (Micro.addi inst d') := by
  rw [Micro.addi, h.readUword]
  exact checked h ..

theorem sub : Bisimilar (IopMicro.sub inst d) (Micro.sub inst d') := by
  rw [Micro.sub, h.readUword, h.readUword]
  exact checked h ..

/-! ### Moves, products and quotients -/

omit h in
/-- Doubleword 0 of a register is written as one of its lanes. -/
theorem write_eq_writeUdword (r : BitVec 5) (value : Udword) : R5900.write d' r 0 value = d'.writeUdword r value := by
  have hself (v : Udword) : lane 64 0 v = v := BitVec.extractLsb'_eq_self
  have hlanes : setLane 0 (d'.gpr r) value = (d'.gpr r).extractLsb' 64 64 ++ value := by
    refine eq_of_lanes (w := 64) (m := 2) rfl fun k hk => ?_
    obtain rfl | rfl : k = 0 ∨ k = 1 := by omega
    · rw [lane_setLane_self (by decide), lane_append_of_le (by decide), hself]
    · rw [lane_setLane_of_ne (by decide), lane_append_add (m := 1) (k := 0) rfl, hself]
      rfl
  rw [R5900.write, hlanes]
  rfl

theorem move (r : BitVec 5) {source : Uqword} {value : Uword} (hsource : lane 64 0 source = value.signExtend 64) :
    Bisimilar (.done (d.writeUword r value)) (.done (R5900.write d' r 0 (lane 64 0 source))) := by
  rw [write_eq_writeUdword, hsource]
  exact ofWord h ..

theorem read_eq (r : BitVec 5) : R5900.read 64 d' r 0 = (d.gpr r).signExtend 64 := by
  rw [← h.gpr r]
  apply BitVec.eq_of_getLsbD_eq
  intro i hi
  rw [R5900.read, getLsbD_lane, EeData.readUdword, BitVec.getLsbD_setWidth]
  simp

theorem read_word_eq (r : BitVec 5) : R5900.read 32 d' r 0 = d.gpr r := by
  rw [← h.readUword r]
  apply BitVec.eq_of_getLsbD_eq
  intro i hi
  rw [R5900.read, getLsbD_lane, EeData.readUword, BitVec.getLsbD_setWidth]
  simp

theorem writeQuotient (q r : Uword) :
    Corresponds (R3000.writeQuotient d q r) (R5900.writeQuotient d' q r) :=
  h.writeSpecial q r (lane_setLane_self (by decide) _ _) (lane_setLane_self (by decide) _ _) h.rest

theorem writeProduct {result : Udword} {rest : Special τ}
    (hlo : lane 64 0 rest.lo = (R5900.loHalf result).signExtend 64)
    (hhi : lane 64 0 rest.hi = (R5900.hiHalf result).signExtend 64) (hrest : rest.rest = d.rest.rest) :
    Corresponds (R3000.writeProduct d result) { d' with rest } :=
  h.writeSpecial _ _ hlo hhi hrest

/-- A product, where no register is written besides `LO` and `HI`. -/
theorem scalarMult (x : Widening) (hrd : inst.rd = 0) :
    Corresponds (R3000.writeProduct d (x.widen (d.gpr inst.rs) * x.widen (d.gpr inst.rt))) (R5900.scalarMult x inst d') := by
  have hwrite (value : Udword) : R5900.write d' inst.rd 0 value = d' := by
    rw [R5900.write, EeData.writeUqword, if_pos hrd]
  rw [R5900.scalarMult, R5900.writeResult, hwrite, read_word_eq h, read_word_eq h]
  exact writeProduct h (lane_setLane_self (by decide) _ _) (lane_setLane_self (by decide) _ _) h.rest

theorem div : Bisimilar (.done ((R3000.div inst d).getD d)) (.done (R5900.div inst d')) := by
  rw [R3000.div, HostDivision.signedDivide_eq, Option.getD_some, R5900.div, read_word_eq h, read_word_eq h]
  refine .done ?_
  by_cases ho : HostDivision.Overflows (d.gpr inst.rs) (d.gpr inst.rt)
  · simp only [if_pos ho]
    rw [if_pos (show _ ∧ _ from ho)]
    exact writeQuotient h _ _
  · simp only [if_neg ho]
    rw [if_neg (show ¬(_ ∧ _) from ho)]
    split_ifs
    · exact h
    · exact writeQuotient h _ _

theorem divu : Bisimilar (.done ((R3000.divu inst d).getD d)) (.done (R5900.divu inst d')) := by
  rw [R3000.divu, HostDivision.unsignedDivide_eq, Option.getD_some, R5900.divu, read_word_eq h, read_word_eq h]
  refine .done ?_
  split_ifs
  · exact h
  · exact writeQuotient h _ _

theorem moveToHi (r : BitVec 5) :
    Bisimilar (.done { d with rest := { d.rest with hi := d.gpr r } }) (.done (R5900.moveToHi d' r 0 0)) := by
  have hhi : lane 64 0 (setLane 0 d'.rest.hi (R5900.read 64 d' r 0)) = (d.gpr r).signExtend 64 := by
    rw [lane_setLane_self (by decide), read_eq h]
  exact .done ⟨h.gpr, hhi, h.lo, h.rest⟩

theorem moveToLo (r : BitVec 5) :
    Bisimilar (.done { d with rest := { d.rest with lo := d.gpr r } }) (.done (R5900.moveToLo d' r 0 0)) := by
  have hlo : lane 64 0 (setLane 0 d'.rest.lo (R5900.read 64 d' r 0)) = (d.gpr r).signExtend 64 := by
    rw [lane_setLane_self (by decide), read_eq h]
  exact .done ⟨h.gpr, h.hi, hlo, h.rest⟩

/-! ### Loads and stores -/

variable (B : Bus τ) (M : IopMachine (IopSpecial τ)) (M' : Machine (Special τ))

theorem virtualAddress_eq : Micro.virtualAddress inst d' = IopMicro.virtualAddress inst d := by
  rw [Micro.virtualAddress, IopMicro.virtualAddress, h.readUword]

theorem load (w : ℕ) {extend : BitVec w → Uword} {extend' : BitVec w → Udword}
    (hextend : ∀ value, extend' value = (extend value).signExtend 64) :
    Bisimilar (IopMicro.load (B.iop M) inst d w extend)
      (Micro.load (B.ee M') inst d' w fun value d => d.writeUdword inst.rt (extend' value)) := by
  rw [IopMicro.load, Micro.load, virtualAddress_eq h]
  refine .translate _ _ fun pa => busRead B M M' h w pa fun value d d' h => ?_
  rw [hextend]
  exact ofWord h ..

theorem loadPart (merge : ℕ → Uword → Uword → Uword) :
    Bisimilar (IopMicro.loadPart (B.iop M) inst d merge) (Micro.loadPart (B.ee M') inst d' 32 3 merge) := by
  rw [IopMicro.loadPart, Micro.loadPart, virtualAddress_eq h]
  refine .translate _ _ fun pa => busRead B M M' h 32 pa fun value d d' h => ?_
  have hreg : (d'.gpr inst.rt).setWidth 32 = d.gpr inst.rt := h.readUword inst.rt
  rw [hreg]
  exact ofWord h ..

theorem store (w : ℕ) {value value' : BitVec w} (hvalue : value' = value) :
    Bisimilar (IopMicro.store (B.iop M) inst d w value) (Micro.store (B.ee M') inst d' w value') := by
  rw [IopMicro.store, Micro.store, virtualAddress_eq h, hvalue]
  exact .translate _ _ fun pa => busWrite B M M' h w pa value

theorem storePart (merge : ℕ → Uword → Uword → Uword) :
    Bisimilar (IopMicro.storePart (B.iop M) inst d merge) (Micro.storePart (B.ee M') inst d' 32 3 merge) := by
  rw [IopMicro.storePart, Micro.storePart, virtualAddress_eq h]
  refine .translate _ _ fun pa => busRead B M M' h 32 pa fun value d d' h => .translate _ _ fun pa => ?_
  have hreg : (d'.gpr inst.rt).setWidth 32 = d.gpr inst.rt := h.readUword inst.rt
  rw [hreg]
  exact busWrite B M M' h 32 pa _

/-- A part of a register. -/
theorem setWidth_gpr {w : ℕ} (hw : w ≤ 32) (r : BitVec 5) : (d'.gpr r).setWidth w = (d.gpr r).setWidth w := by
  rw [← h.readUword r, EeData.readUword, BitVec.setWidth_setWidth_of_le _ hw]

end Bisimilar

/-- `MULT` and `MULTU` of the EE write `Rd` as well. -/
def IopCoreFunction.KeepsRd (inst : IopCoreInstruction) (f : IopCoreFunction) : Prop := f = mult ∨ f = multu → inst.rd = 0

section Instructions

variable {τ : Type} (B : Bus τ) (M : IopMachine (IopSpecial τ)) (M' : Machine (Special τ)) (inst : IopCoreInstruction)

/-- An instruction of both, in registers that correspond. -/
def AgreeOn (f : IopCoreFunction) (g : EeCoreFunction) : Prop :=
  ∃ m ∈ f.micro (B.iop M) inst, ∃ m' ∈ g.micro (B.ee M') inst, ∀ d d', Corresponds d d' → Bisimilar (m d) (m' d')

open Bisimilar in
/-- An instruction of the IOP is that of the EE of the same name. -/
theorem agreeOn_counterpart {f : IopCoreFunction} {g : EeCoreFunction} (hg : f.counterpart = some g)
    (hrd : f.KeepsRd inst) : AgreeOn B M M' inst f g := by
  cases f <;> cases hg
  case addi =>
    exact ⟨_, rfl, _, rfl, fun d d' h => addi h inst⟩
  case addiu =>
    exact ⟨_, rfl, _, rfl, fun d d' h => addiu h inst⟩
  case slti =>
    exact ⟨_, rfl, _, rfl, fun d d' h => ofImmediate h inst fun x imm => by rw [← signExtend_signExtend (w := 16) (by decide), signExtend_slt]⟩
  case sltiu =>
    exact ⟨_, rfl, _, rfl, fun d d' h => ofImmediate h inst fun x imm => by rw [← signExtend_signExtend (w := 16) (by decide), signExtend_sltu]⟩
  case andi =>
    exact ⟨_, rfl, _, rfl, fun d d' h => ofImmediate h inst fun x imm => by rw [BitVec.signExtend_and, signExtend_setWidth (by decide)]⟩
  case ori =>
    exact ⟨_, rfl, _, rfl, fun d d' h => ofImmediate h inst fun x imm => by rw [BitVec.signExtend_or, signExtend_setWidth (by decide)]⟩
  case xori =>
    exact ⟨_, rfl, _, rfl, fun d d' h => ofImmediate h inst fun x imm => by rw [BitVec.signExtend_xor, signExtend_setWidth (by decide)]⟩
  case lui =>
    exact ⟨_, rfl, _, rfl, fun d d' h => ofImmediate h inst fun _ _ => rfl⟩
  case lb =>
    exact ⟨_, rfl, _, rfl, fun d d' h => load h inst B M M' 8 fun v => (signExtend_signExtend (by decide) v).symm⟩
  case lh =>
    exact ⟨_, rfl, _, rfl, fun d d' h => load h inst B M M' 16 fun v => (signExtend_signExtend (by decide) v).symm⟩
  case lwl =>
    exact ⟨_, rfl, _, rfl, fun d d' h => loadPart h inst B M M' _⟩
  case lw =>
    exact ⟨_, rfl, _, rfl, fun d d' h => load h inst B M M' 32 fun _ => rfl⟩
  case lbu =>
    exact ⟨_, rfl, _, rfl, fun d d' h => load h inst B M M' 8 fun v => (signExtend_setWidth (by decide) v).symm⟩
  case lhu =>
    exact ⟨_, rfl, _, rfl, fun d d' h => load h inst B M M' 16 fun v => (signExtend_setWidth (by decide) v).symm⟩
  case lwr =>
    exact ⟨_, rfl, _, rfl, fun d d' h => loadPart h inst B M M' _⟩
  case sb =>
    exact ⟨_, rfl, _, rfl, fun d d' h => store h inst B M M' 8 (setWidth_gpr h (by decide) _)⟩
  case sh =>
    exact ⟨_, rfl, _, rfl, fun d d' h => store h inst B M M' 16 (setWidth_gpr h (by decide) _)⟩
  case swl =>
    exact ⟨_, rfl, _, rfl, fun d d' h => storePart h inst B M M' _⟩
  case sw =>
    exact ⟨_, rfl, _, rfl, fun d d' h => store h inst B M M' 32 (h.readUword _)⟩
  case swr =>
    exact ⟨_, rfl, _, rfl, fun d d' h => storePart h inst B M M' _⟩
  case sll =>
    exact ⟨_, rfl, _, rfl, fun d d' h => shift h inst _ _⟩
  case srl =>
    exact ⟨_, rfl, _, rfl, fun d d' h => shift h inst _ _⟩
  case sra =>
    exact ⟨_, rfl, _, rfl, fun d d' h => shift h inst _ _⟩
  case sllv =>
    exact ⟨_, rfl, _, rfl, fun d d' h => variableShift h inst _⟩
  case srlv =>
    exact ⟨_, rfl, _, rfl, fun d d' h => variableShift h inst _⟩
  case srav =>
    exact ⟨_, rfl, _, rfl, fun d d' h => variableShift h inst _⟩
  case syscall =>
    exact ⟨_, rfl, _, rfl, fun d d' h => .raise .systemcall⟩
  case break_ =>
    exact ⟨_, rfl, _, rfl, fun d d' h => .raise .break_⟩
  case mfhi =>
    exact ⟨_, rfl, _, rfl, fun d d' h => move h _ h.hi⟩
  case mthi =>
    exact ⟨_, rfl, _, rfl, fun d d' h => moveToHi h _⟩
  case mflo =>
    exact ⟨_, rfl, _, rfl, fun d d' h => move h _ h.lo⟩
  case mtlo =>
    exact ⟨_, rfl, _, rfl, fun d d' h => moveToLo h _⟩
  case mult =>
    exact ⟨_, rfl, _, rfl, fun d d' h => .done (scalarMult h inst .signed (hrd (.inl rfl)))⟩
  case multu =>
    exact ⟨_, rfl, _, rfl, fun d d' h => .done (scalarMult h inst .unsigned (hrd (.inr rfl)))⟩
  case div =>
    exact ⟨_, rfl, _, rfl, fun d d' h => div h inst⟩
  case divu =>
    exact ⟨_, rfl, _, rfl, fun d d' h => divu h inst⟩
  case add =>
    exact ⟨_, rfl, _, rfl, fun d d' h => add h inst⟩
  case addu =>
    exact ⟨_, rfl, _, rfl, fun d d' h => addu h inst⟩
  case sub =>
    exact ⟨_, rfl, _, rfl, fun d d' h => sub h inst⟩
  case subu =>
    exact ⟨_, rfl, _, rfl, fun d d' h => subu h inst⟩
  case and =>
    exact ⟨_, rfl, _, rfl, fun d d' h => ofRegisters h inst fun _ _ => BitVec.signExtend_and.symm⟩
  case or =>
    exact ⟨_, rfl, _, rfl, fun d d' h => ofRegisters h inst fun _ _ => BitVec.signExtend_or.symm⟩
  case xor =>
    exact ⟨_, rfl, _, rfl, fun d d' h => ofRegisters h inst fun _ _ => BitVec.signExtend_xor.symm⟩
  case nor =>
    exact ⟨_, rfl, _, rfl, fun d d' h => ofRegisters h inst signExtend_nor⟩
  case slt =>
    exact ⟨_, rfl, _, rfl, fun d d' h => ofRegisters h inst signExtend_slt⟩
  case sltu =>
    exact ⟨_, rfl, _, rfl, fun d d' h => ofRegisters h inst signExtend_sltu⟩

end Instructions

/-! ### Programs that both run -/

/-- The lookup of the EE finds the function of the same name. -/
theorem counterpart_along : ∀ p ∈ IopCoreInstruction.lookupTree.paths, ∀ f ∈ IopCoreInstruction.instructionSet.function p.2,
    ∀ g ∈ f.counterpart, ∃ j ∈ EeCoreInstruction.lookupTree.along p.1, EeCoreInstruction.instructionSet.function j = some g := by
  decide +kernel

theorem dispatch_counterpart {w : Uword} {f : IopCoreFunction} {g : EeCoreFunction}
    (hf : IopCoreInstruction.instructionSet.dispatch w = .ok f) (hg : f.counterpart = some g) :
    EeCoreInstruction.instructionSet.dispatch w = .ok g := by
  obtain ⟨i, hi, hfun⟩ := InstructionSet.dispatch_eq_ok_iff.mp hf
  obtain ⟨p, hp, hfollows⟩ := SwitchTree.exists_path hi
  obtain ⟨j, hj, hj'⟩ := counterpart_along (p, i) hp f hfun g hg
  exact InstructionSet.dispatch_eq_ok_iff.mpr ⟨j, SwitchTree.eval_of_along hfollows hj, hj'⟩

/-- A word of an instruction that both cores have and that leaves `Rd` alone where the IOP does. -/
def CommonWord (w : Uword) : Prop :=
  ∃ f, IopCoreInstruction.instructionSet.dispatch w = .ok f ∧ f.counterpart.isSome ∧ f.KeepsRd ⟨w⟩

/-- On one bus, straight-line code of instructions that both have is bisimilar on both, each core finding the functions
through its own tables. -/
theorem programs_bisimilar {τ : Type} (B : Bus τ) (M : IopMachine (IopSpecial τ)) (M' : Machine (Special τ))
    {ws : List Uword} (hws : ∀ w ∈ ws, CommonWord w) {d : R3000 τ} {d' : R5900 τ} (h : Corresponds d d') :
    Bisimilar (iopProgram (B.iop M) ws d) (eeProgram (B.ee M') ws d') := by
  induction ws generalizing d d' with
  | nil => exact .done h
  | cons w ws ih =>
    obtain ⟨f, hf, hsome, hrd⟩ := hws w List.mem_cons_self
    obtain ⟨g, hg⟩ := Option.isSome_iff_exists.mp hsome
    obtain ⟨m, hm, m', hm', hagree⟩ := agreeOn_counterpart B M M' ⟨w⟩ hg hrd
    rw [iopProgram, eeProgram, hf, dispatch_counterpart hf hg]
    simp only [Except.toOption, Option.bind_some]
    rw [show f.micro (B.iop M) ⟨w⟩ = some m from hm, show g.micro (B.ee M') ⟨w⟩ = some m' from hm']
    exact (hagree d d' h).andThen fun _ _ h' => ih (fun v hv => hws v (List.mem_cons_of_mem w hv)) h'

/-- `ADDIU $2, $2, 1`, `MULT $2, $3` and `LW $4, 0($2)` on a bus of zeros. -/
theorem programs_bisimilar_load :
    let B : Bus Unit := ⟨fun _ _ s => .ok (0, s), fun _ _ _ s => .ok s⟩
    let M : IopMachine (IopSpecial Unit) := ⟨fun _ _ s => .ok (0, s), fun _ _ _ s => .ok s, fun _ => none⟩
    let M' : Machine (Special Unit) :=
      ⟨fun _ _ s => .ok (0, s), fun _ _ _ s => .ok s, fun _ _ => 0, fun _ _ s => s, fun _ _ s => s, fun _ => 0, fun _ => none,
        fun _ => 9⟩
    Bisimilar (iopProgram (B.iop M) [0x24420001, 0x00430018, 0x8C440000] ⟨fun _ => 0, ⟨0, 0, ()⟩⟩)
      (eeProgram (B.ee M') [0x24420001, 0x00430018, 0x8C440000] ⟨fun _ => 0, ⟨0, 0, 0, ()⟩⟩) := by
  refine programs_bisimilar _ _ _ ?_ ⟨fun _ => rfl, by decide, by decide, rfl⟩
  simp only [List.forall_mem_cons, List.not_mem_nil, false_implies, implies_true, and_true]
  exact ⟨⟨.addiu, by decide +kernel, rfl, fun h => by simp at h⟩, ⟨.mult, by decide +kernel, rfl, fun _ => by decide +kernel⟩,
    ⟨.lw, by decide +kernel, rfl, fun h => by simp at h⟩⟩

end Orbum
