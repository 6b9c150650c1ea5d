import Orbum.Ee.Core.Interpreter.Instruction

/-!
# Data instructions that can raise an exception

`CEeCoreInterpreter_BREAK_TRAP.cpp`, the checked arithmetic of `CEeCoreInterpreter_INTEGER_ADD_SUB.cpp`,
`CEeCoreInterpreter_LOAD_MEM.cpp` and `CEeCoreInterpreter_STORE_MEM.cpp`.

Each family is one definition, and its members are that definition at their own widths, conditions and
shifts.
-/

namespace Orbum

namespace Micro

variable {σ : Type} (M : Machine σ) (inst : EeCoreInstruction) (d : EeData σ)

/-! ### Break and trap -/

/-- `SYSCALL`. -/
def syscall (_d : EeData σ) : Micro σ := raise .exSystemcall

/-- `BREAK`. -/
def break_ (_d : EeData σ) : Micro σ := raise .exBreak

/-- A trap on the condition given. -/
def trap (cond : Prop) [Decidable cond] : Micro σ := if cond then raise .exTrap else done d

/-- `s_imm()` as a doubleword. -/
def immUdword : Udword := inst.imm.signExtend 64

/-- `TEQ`. -/
def teq : Micro σ := trap d (d.readUdword inst.rs = d.readUdword inst.rt)

/-- `TEQI`. -/
def teqi : Micro σ := trap d (d.readUdword inst.rs = immUdword inst)

/-- `TGE`. -/
def tge : Micro σ := trap d ((d.readUdword inst.rt).toInt ≤ (d.readUdword inst.rs).toInt)

/-- `TGEI`. -/
def tgei : Micro σ := trap d ((immUdword inst).toInt ≤ (d.readUdword inst.rs).toInt)

/-- `TGEIU`. -/
def tgeiu : Micro σ := trap d (immUdword inst ≤ d.readUdword inst.rs)

/-- `TGEU`. -/
def tgeu : Micro σ := trap d (d.readUdword inst.rt ≤ d.readUdword inst.rs)

/-- `TLT`. -/
def tlt : Micro σ := trap d ((d.readUdword inst.rs).toInt < (d.readUdword inst.rt).toInt)

/-- `TLTI`. -/
def tlti : Micro σ := trap d ((d.readUdword inst.rs).toInt < (immUdword inst).toInt)

/-- `TLTIU`. -/
def tltiu : Micro σ := trap d (d.readUdword inst.rs < immUdword inst)

/-- `TLTU`. -/
def tltu : Micro σ := trap d (d.readUdword inst.rs < d.readUdword inst.rt)

/-- `TNE`. -/
def tne : Micro σ := trap d (d.readUdword inst.rs ≠ d.readUdword inst.rt)

/-- `TNEI`. -/
def tnei : Micro σ := trap d (d.readUdword inst.rs ≠ immUdword inst)

/-! ### Checked arithmetic -/

/-- `test_over_or_underflow_32` and `test_over_or_underflow_64`. The differences of the limits and `x` are in
range where they are computed. -/
def TestOverOrUnderflow (w : ℕ) (x y : ℤ) : Prop :=
  (0 < x ∧ 2 ^ (w - 1) - 1 - x < y) ∨ (x < 0 ∧ y < -2 ^ (w - 1) - x)

instance (w : ℕ) (x y : ℤ) : Decidable (TestOverOrUnderflow w x y) := inferInstanceAs (Decidable (_ ∨ _))

/-- An instruction that raises the overflow exception if `x` and `y` overflow, and writes `result` otherwise. -/
def checked (w : ℕ) (x y : ℤ) (reg : BitVec 5) (result : Udword) : Micro σ :=
  if TestOverOrUnderflow w x y then raise .exOverflow else done (d.writeUdword reg result)

/-- `ADD`. -/
def add : Micro σ :=
  let x := d.readUword inst.rs
  let y := d.readUword inst.rt
  checked d 32 x.toInt y.toInt inst.rd ((x + y).signExtend 64)

/-- `ADDI`. -/
def addi : Micro σ :=
  let x := d.readUword inst.rs
  checked d 32 x.toInt inst.imm.toInt inst.rt ((x + inst.imm.signExtend 32).signExtend 64)

/-- `DADD`. -/
def dadd : Micro σ :=
  let x := d.readUdword inst.rs
  let y := d.readUdword inst.rt
  checked d 64 x.toInt y.toInt inst.rd (x + y)

/-- `DADDI`. -/
def daddi : Micro σ :=
  let x := d.readUdword inst.rs
  checked d 64 x.toInt inst.imm.toInt inst.rt (x + immUdword inst)

/-- `SUB`: the check is on the operands as for `ADD`. -/
def sub : Micro σ :=
  let x := d.readUword inst.rs
  let y := d.readUword inst.rt
  checked d 32 x.toInt y.toInt inst.rd ((x - y).signExtend 64)

/-- `DSUB`: the check is on the operands as for `DADD`. -/
def dsub : Micro σ :=
  let x := d.readUdword inst.rs
  let y := d.readUdword inst.rt
  checked d 64 x.toInt y.toInt inst.rd (x - y)

/-! ### Loads -/

/-- The virtual address of a load or store. -/
def virtualAddress : Uptr := d.readUword inst.rs + inst.imm.signExtend 32

/-- A load of `w` bits. -/
def load (w : ℕ) (write : BitVec w → EeData σ → EeData σ) : Micro σ :=
  translate (virtualAddress inst d) .read fun physicalAddress =>
    busRead M w physicalAddress d fun value d => done (write value d)

/-- `LB`. -/
def lb : Micro σ := load M inst d 8 fun value d => d.writeUdword inst.rt (value.signExtend 64)

/-- `LBU`. -/
def lbu : Micro σ := load M inst d 8 fun value d => d.writeUdword inst.rt (value.setWidth 64)

/-- `LH`. -/
def lh : Micro σ := load M inst d 16 fun value d => d.writeUdword inst.rt (value.signExtend 64)

/-- `LHU`. -/
def lhu : Micro σ := load M inst d 16 fun value d => d.writeUdword inst.rt (value.setWidth 64)

/-- `LW`. -/
def lw : Micro σ := load M inst d 32 fun value d => d.writeUdword inst.rt (value.signExtend 64)

/-- `LWU`. -/
def lwu : Micro σ := load M inst d 32 fun value d => d.writeUdword inst.rt (value.setWidth 64)

/-- `LD`. -/
def ld : Micro σ := load M inst d 64 fun value d => d.writeUdword inst.rt value

/-- `LQ`. -/
def lq : Micro σ := load M inst d 128 fun value d => d.writeUqword inst.rt value

/-- `LWC1`. -/
def lwc1 : Micro σ :=
  usable .cop1 (load M inst d 32 fun value d => { d with rest := M.setFpr inst.rt value d.rest })

/-- `LQC2`. -/
def lqc2 : Micro σ :=
  usable .cop2 (load M inst d 128 fun value d => { d with rest := M.setVf inst.rt value d.rest })

/-- A load of the part of an aligned unit that is on one side of the address; `merge` gets the shift, the
register and the unit. -/
def loadPart (w : ℕ) (alignment : Uptr) (merge : ℕ → BitVec w → BitVec w → BitVec w) : Micro σ :=
  let address := virtualAddress inst d
  let shift := ((address &&& alignment) <<< 3).toNat
  translate (address &&& ~~~alignment) .read fun physicalAddress =>
    busRead M w physicalAddress d fun value d =>
      done (d.writeUdword inst.rt ((merge shift ((d.gpr inst.rt).setWidth w) value).signExtend 64))

/-- `LDL`. -/
def ldl : Micro σ := loadPart M inst d 64 7 fun shift reg value =>
  (reg &&& (0x00FFFFFFFFFFFFFF >>> shift)) ||| (value <<< (56 - shift))

/-- `LDR`. -/
def ldr : Micro σ := loadPart M inst d 64 7 fun shift reg value =>
  (reg &&& (0xFFFFFFFFFFFFFF00 <<< (56 - shift))) ||| (value >>> shift)

/-- `LWL`. -/
def lwl : Micro σ := loadPart M inst d 32 3 fun shift reg value =>
  (reg &&& (0x00FFFFFF >>> shift)) ||| (value <<< (24 - shift))

/-- `LWR`. -/
def lwr : Micro σ := loadPart M inst d 32 3 fun shift reg value =>
  (reg &&& (0xFFFFFF00 <<< (24 - shift))) ||| (value >>> shift)

/-! ### Stores -/

/-- A store of `w` bits. -/
def store (w : ℕ) (value : BitVec w) : Micro σ :=
  translate (virtualAddress inst d) .write fun physicalAddress => busWrite M w physicalAddress value d

/-- `SB`. -/
def sb : Micro σ := store M inst d 8 ((d.gpr inst.rt).setWidth 8)

/-- `SH`. -/
def sh : Micro σ := store M inst d 16 ((d.gpr inst.rt).setWidth 16)

/-- `SW`. -/
def sw : Micro σ := store M inst d 32 (d.readUword inst.rt)

/-- `SD`. -/
def sd : Micro σ := store M inst d 64 (d.readUdword inst.rt)

/-- `SQ`. -/
def sq : Micro σ := store M inst d 128 (d.gpr inst.rt)

/-- `SWC1`. -/
def swc1 : Micro σ := usable .cop1 (store M inst d 32 (M.fpr inst.rt d.rest))

/-- A store to the part of an aligned unit that is on one side of the address: the unit is read, and the
address is translated again for the write. -/
def storePart (w : ℕ) (alignment : Uptr) (merge : ℕ → BitVec w → BitVec w → BitVec w) : Micro σ :=
  let address := virtualAddress inst d
  let shift := ((address &&& alignment) <<< 3).toNat
  translate (address &&& ~~~alignment) .read fun physicalAddress =>
    busRead M w physicalAddress d fun value d =>
      translate (address &&& ~~~alignment) .write fun physicalAddress =>
        busWrite M w physicalAddress (merge shift ((d.gpr inst.rt).setWidth w) value) d

/-- `SDL`. -/
def sdl : Micro σ := storePart M inst d 64 7 fun shift reg value =>
  (reg >>> (56 - shift)) ||| (value &&& (0xFFFFFFFFFFFFFF00 <<< shift))

/-- `SDR`. -/
def sdr : Micro σ := storePart M inst d 64 7 fun shift reg value =>
  (reg <<< shift) ||| (value &&& (0x00FFFFFFFFFFFFFF >>> (56 - shift)))

/-- `SWL`. -/
def swl : Micro σ := storePart M inst d 32 3 fun shift reg value =>
  (reg >>> (24 - shift)) ||| (value &&& (0xFFFFFF00 <<< shift))

/-- `SWR`. -/
def swr : Micro σ := storePart M inst d 32 3 fun shift reg value =>
  (reg <<< shift) ||| (value &&& (0x00FFFFFF >>> (24 - shift)))

/-- `BC0F` and its siblings. -/
def bc0 (name : String) (_d : EeData σ) : Micro σ :=
  usable .cop0 (fail (.runtimeError (name ++ ": Not implemented.")))

end Micro

/-! ### Branches -/

namespace Branch

variable {σ : Type} (M : Machine σ) (inst : EeCoreInstruction)

/-- A conditional branch. -/
def cond (sources : List (BitVec 5)) (taken : EeData σ → Prop) [DecidablePred taken] (likely : Bool)
    (link : Option (BitVec 5))
    (taken_congr : ∀ d d' : EeData σ, d'.rest = d.rest → (∀ r ∈ sources, d'.gpr r = d.gpr r) → (taken d' ↔ taken d)) :
    Branch σ :=
  { usable := none, sources, taken, likely, link, target := .itype inst.imm, taken_congr, direct_mem := by simp }

/-- A branch on two registers. -/
def compare (rel : Udword → Udword → Prop) [DecidableRel rel] (likely : Bool) : Branch σ :=
  cond inst [inst.rt, inst.rs] (fun d => rel (d.readUdword inst.rt) (d.readUdword inst.rs)) likely none
    fun d d' _ h => by simp [EeData.readUdword, h]

/-- A branch on one register and zero. -/
def compareZero (test : ℤ → Prop) [DecidablePred test] (likely : Bool) (link : Option (BitVec 5)) : Branch σ :=
  cond inst [inst.rs] (fun d => test (d.readUdword inst.rs).toInt) likely link
    fun d d' _ h => by simp [EeData.readUdword, h]

/-- `BEQ`, and `BEQL` if `likely`. -/
def beq (likely : Bool) : Branch σ := compare inst (fun x y => x = y) likely

/-- `BNE`, and `BNEL` if `likely`. -/
def bne (likely : Bool) : Branch σ := compare inst (fun x y => x ≠ y) likely

/-- `BGEZ`; `BGEZL` if `likely`, `BGEZAL` and `BGEZALL` with a `link`. -/
def bgez (likely : Bool) (link : Option (BitVec 5)) : Branch σ := compareZero inst (fun x => 0 ≤ x) likely link

/-- `BLTZ`; `BLTZL` if `likely`, `BLTZAL` and `BLTZALL` with a `link`. -/
def bltz (likely : Bool) (link : Option (BitVec 5)) : Branch σ := compareZero inst (fun x => x < 0) likely link

/-- `BGTZ`, and `BGTZL` if `likely`. -/
def bgtz (likely : Bool) : Branch σ := compareZero inst (fun x => 0 < x) likely none

/-- `BLEZ`, and `BLEZL` if `likely`. -/
def blez (likely : Bool) : Branch σ := compareZero inst (fun x => x ≤ 0) likely none

/-- `BC1F` and `BC1FL` for `flag = 0`, `BC1T` and `BC1TL` for `flag = 1`. -/
def bc1 (flag : Uword) (likely : Bool) : Branch σ :=
  { cond inst [] (fun d => M.csrC d.rest = flag) likely none fun d d' h _ => by rw [h] with usable := some .cop1 }

/-- A jump. -/
def jump (sources : List (BitVec 5)) (link : Option (BitVec 5)) (target : BranchTarget)
    (direct_mem : ∀ rs, target = .direct rs → rs ∈ sources) : Branch σ :=
  { usable := none, sources, taken := fun _ => True, likely := false, link, target,
    taken_congr := fun _ _ _ _ => Iff.rfl, direct_mem }

/-- `J`. -/
def j : Branch σ := jump [] none (.jtype inst.addr) (by simp)

/-- `JAL`. -/
def jal : Branch σ := jump [] (some 31) (.jtype inst.addr) (by simp)

/-- `JR`. -/
def jr : Branch σ := jump [inst.rs] none (.direct inst.rs) (by simp)

/-- `JALR`: it links before it reads the source register. -/
def jalr : Branch σ := jump [inst.rs] (some inst.rd) (.direct inst.rs) (by simp)

end Branch

end Orbum
