import Mathlib.Logic.Function.Iterate
import Orbum.Ee.Vu.Unit
import Orbum.Lib.Except

/-!
# VU branches

The branches and jumps of `Controller/Ee/Vpu/Vu/Interpreter/CVuInterpreter_OTHER.cpp`, and where a sequence of steps goes.
A branch in the delay slot of another one is kept as the second branch.

## What is proved

`branches_in_delaySlots`: a branch is taken after the next instruction, whatever that is, and a link register is written
with the instruction after the next one.
-/

namespace Orbum

/-- `extend_integer<shword, U, N>(source)`, `source` being as wide as the result. -/
def extendInteger (n : ℕ) (source : Uhword) : Uhword :=
  let valueMask : Uhword := (1 <<< (n - 1)) - 1
  let nonValueMask : Uhword := BitVec.allOnes 16 ^^^ valueMask
  let sign := (source >>> (n - 1)) &&& 1
  let value := source &&& valueMask
  if sign = 0 then value else nonValueMask ||| value

theorem and_one_eq_zero_iff (v : Uhword) : v &&& 1 = 0 ↔ v.getLsbD 0 = false := by
  rw [BitVec.eq_of_getLsbD_eq_iff]
  constructor
  · intro h
    have h0 := h 0 (by decide)
    simpa using h0
  · intro h i hi
    rw [BitVec.getLsbD_and]
    by_cases hi0 : i = 0
    · rw [hi0, h]
      rfl
    · have hone : (1 : Uhword).getLsbD i = false := by simp [BitVec.getLsbD_one, hi0]
      rw [hone]
      simp

/-- `extend_integer` extends the sign. -/
theorem extendInteger_setWidth {n : ℕ} (hn : 0 < n) (hn' : n ≤ 16) (x : BitVec n) :
    extendInteger n (x.setWidth 16) = x.signExtend 16 := by
  have hmask (i : ℕ) (hi : i < 16) : ((1 <<< (n - 1)) - 1 : Uhword).getLsbD i = decide (i < n - 1) := by
    have hfield := Bitfield.getLsbD_unshiftedMask (w := 16) ⟨0, n - 1⟩ i
    rw [decide_eq_true hi, Bool.true_and] at hfield
    exact hfield
  have hsign : (x.setWidth 16 >>> (n - 1)) &&& 1 = 0 ↔ x.msb = false := by
    rw [and_one_eq_zero_iff, BitVec.getLsbD_ushiftRight, Nat.add_zero, BitVec.getLsbD_setWidth, BitVec.msb_eq_getLsbD_last,
      decide_eq_true (by omega : n - 1 < 16), Bool.true_and]
  have hlast : x.msb = x.getLsbD (n - 1) := BitVec.msb_eq_getLsbD_last x
  dsimp only [extendInteger]
  apply BitVec.eq_of_getLsbD_eq
  intro i hi
  have hvalue : ((x.setWidth 16) &&& ((1 <<< (n - 1)) - 1 : Uhword)).getLsbD i =
      (x.getLsbD i && decide (i < n - 1)) := by
    rw [BitVec.getLsbD_and, hmask i hi, BitVec.getLsbD_setWidth, decide_eq_true hi, Bool.true_and]
  rw [BitVec.getLsbD_signExtend, decide_eq_true hi, Bool.true_and]
  cases hmsb : x.msb with
  | false =>
    rw [if_pos (hsign.mpr hmsb), hvalue]
    rw [hmsb] at hlast
    split_ifs with hin
    · by_cases hlt : i < n - 1
      · simp [hlt]
      · obtain rfl : i = n - 1 := by omega
        simp [← hlast]
    · rw [decide_eq_false (by omega), Bool.and_false]
  | true =>
    have hne : ¬(x.setWidth 16 >>> (n - 1)) &&& 1 = 0 := by
      rw [hsign, hmsb]
      decide
    rw [if_neg hne, BitVec.getLsbD_or, hvalue, BitVec.getLsbD_xor, hmask i hi, BitVec.getLsbD_allOnes, decide_eq_true hi]
    rw [hmsb] at hlast
    split_ifs with hin
    · by_cases hlt : i < n - 1
      · simp [hlt]
      · obtain rfl : i = n - 1 := by omega
        simp [← hlast]
    · rw [decide_eq_false (by omega)]
      rfl

namespace VuUnit

variable {σ : Type} (inst : VuInstruction) (u : VuUnit σ)

/-- `set_branch_itype(pc, offset_by)` with the offset of the instruction, behind `condition`. -/
def branchIf (condition : Prop) [Decidable condition] : VuUnit σ :=
  if condition then { u with bdelay := u.bdelay.setBranchItype u.pc (extendInteger 11 inst.imm11) } else u

/-- `IBEQ`. -/
def ibeq : Except HostError (VuUnit σ) := do
  let is ← viIndex inst.is
  let it ← viIndex inst.it
  return u.branchIf inst (u.vi is = u.vi it)

/-- `IBGEZ`, where the halfword that is compared is unsigned. -/
def ibgez : Except HostError (VuUnit σ) := do
  let is ← viIndex inst.is
  return u.branchIf inst (((u.vi is).toNat : ℤ) ≥ 0)

/-- `IBGTZ`, in the same way. -/
def ibgtz : Except HostError (VuUnit σ) := do
  let is ← viIndex inst.is
  return u.branchIf inst (((u.vi is).toNat : ℤ) > 0)

/-- `IBLEZ`, in the same way. -/
def iblez : Except HostError (VuUnit σ) := do
  let is ← viIndex inst.is
  return u.branchIf inst (((u.vi is).toNat : ℤ) ≤ 0)

/-- `IBLTZ`, in the same way. -/
def ibltz : Except HostError (VuUnit σ) := do
  let is ← viIndex inst.is
  return u.branchIf inst (((u.vi is).toNat : ℤ) < 0)

/-- `IBNE`. -/
def ibne : Except HostError (VuUnit σ) := do
  let is ← viIndex inst.is
  let it ← viIndex inst.it
  return u.branchIf inst (u.vi is ≠ u.vi it)

/-- `B`. -/
def b : VuUnit σ := { u with bdelay := u.bdelay.setBranchItype u.pc (extendInteger 11 inst.imm11) }

/-- What `BAL` and `JALR` write to their link register. -/
def linkValue : Uhword :=
  if u.bdelay.isBranchPending then ((u.bdelay.getBranchPc + 8) / 8).setWidth 16 else ((u.pc + 2 * 8) / 8).setWidth 16

/-- `BAL`. -/
def bal : Except HostError (VuUnit σ) := do
  let it ← viIndex inst.it
  return (u.writeUhword it u.linkValue).b inst

/-- `JR`. -/
def jr : Except HostError (VuUnit σ) := do
  let is ← viIndex inst.is
  return { u with bdelay := u.bdelay.setBranchJtype ((u.vi is).setWidth 32) }

/-- `JALR`, where the link register is written before the target is read. -/
def jalr : Except HostError (VuUnit σ) := do
  let is ← viIndex inst.is
  let it ← viIndex inst.it
  let linked := u.writeUhword it u.linkValue
  return { linked with bdelay := linked.bdelay.setBranchJtype ((linked.vi is).setWidth 32) }

/-! ### Steps -/

/-- An instruction that goes from `u` to `v`, with the target of its branch if it sets one. -/
inductive Executes (u v : VuUnit σ) : Option Uptr → Prop
  /-- None is set. -/
  | none (hpc : v.pc = u.pc) (hb : v.bdelay = u.bdelay) : Executes u v none
  /-- `set_branch_itype`. -/
  | itype (imm : Uhword) (hpc : v.pc = u.pc) (hb : v.bdelay = u.bdelay.setBranchItype u.pc imm) :
      Executes u v (some ((u.pc + 8 + imm.signExtend 32 * 8) &&& 0x3FFF))
  /-- `set_branch_jtype`. -/
  | jtype (jumpTo : Uptr) (hpc : v.pc = u.pc) (hb : v.bdelay = u.bdelay.setBranchJtype jumpTo) :
      Executes u v (some ((jumpTo * 8) &&& 0x3FFF))

/-- Steps of a VU: an instruction is executed and the program counter is advanced. -/
structure Steps (units executed : ℕ → VuUnit σ) : Prop where
  /-- The instruction of step `n`. -/
  executes : ∀ n, ∃ target, Executes (units n) (executed n) target
  /-- The next state. -/
  advance : ∀ n, units (n + 1) = (executed n).advancePc
  /-- No branch is pending at first. -/
  currentSlot : (units 0).bdelay.currentSlot = 0
  /-- Nor is a second one. -/
  secondBranchPending : (units 0).bdelay.secondBranchPending = false

/-- The target of a branch on the program counter. -/
def itypeTarget : Uptr := (u.pc + 8 + (extendInteger 11 inst.imm11).signExtend 32 * 8) &&& 0x3FFF

/-- The target of a jump to what a register has. -/
def jtypeTarget (i : BitVec 4) : Uptr := ((u.vi i).setWidth 32 * 8) &&& 0x3FFF

/-- The link register, which is `vi[it]`, is written with the instruction after the one at `pc`, and with nothing else. -/
def Links (v : VuUnit σ) (pc : Uword) : Prop :=
  ∃ it, viIndex inst.it = .ok it ∧ v.vi = (u.writeUhword it (((pc + 8) / 8).setWidth 16)).vi

/-- What the branches of these steps come to. -/
structure DelaySlots (units executed : ℕ → VuUnit σ) : Prop where
  /-- The first program counter. -/
  first : (units 1).pc = (units 0).pc + 8
  /-- The later ones. -/
  later : ∀ n target, Executes (units n) (executed n) target →
    (units (n + 2)).pc = target.getD ((units (n + 1)).pc + 8)
  /-- `B`. -/
  b : ∀ n inst, executed n = (units n).b inst → (units (n + 2)).pc = itypeTarget inst (units n)
  /-- `JR`. -/
  jr : ∀ n inst, (units n).jr inst = .ok (executed n) →
    ∃ is, viIndex inst.is = .ok is ∧ (units (n + 2)).pc = (units n).jtypeTarget is
  /-- `BAL`. -/
  bal : ∀ n inst, (units n).bal inst = .ok (executed n) →
    (units (n + 2)).pc = itypeTarget inst (units n) ∧ Links inst (units n) (executed n) (units (n + 1)).pc
  /-- `JALR`. -/
  jalr : ∀ n inst, (units n).jalr inst = .ok (executed n) → inst.it ≠ inst.is →
    (∃ is, viIndex inst.is = .ok is ∧ (units (n + 2)).pc = (units n).jtypeTarget is) ∧
      Links inst (units n) (executed n) (units (n + 1)).pc

variable {inst u} {v : VuUnit σ}

theorem executes_b : Executes u (u.b inst) (some (itypeTarget inst u)) := .itype _ rfl rfl

theorem executes_jr (h : u.jr inst = .ok v) :
    ∃ is, viIndex inst.is = .ok is ∧ Executes u v (some (u.jtypeTarget is)) := by
  obtain ⟨is, his, h⟩ := bind_eq_ok_iff.mp h
  obtain rfl := Except.ok.inj h
  exact ⟨is, his, .jtype _ rfl rfl⟩

theorem executes_bal (h : u.bal inst = .ok v) : Executes u v (some (itypeTarget inst u)) := by
  obtain ⟨it, -, h⟩ := bind_eq_ok_iff.mp h
  obtain rfl := Except.ok.inj h
  refine .itype _ pc_writeUhword ?_
  rw [b, bdelay_writeUhword, pc_writeUhword]

/-- The target of `JALR` is what it finds in the register, if it does not link to that one. -/
theorem executes_jalr (h : u.jalr inst = .ok v) (hne : inst.it ≠ inst.is) :
    ∃ is, viIndex inst.is = .ok is ∧ Executes u v (some (u.jtypeTarget is)) := by
  obtain ⟨is, his, h⟩ := bind_eq_ok_iff.mp h
  obtain ⟨it, hit, h⟩ := bind_eq_ok_iff.mp h
  obtain rfl := Except.ok.inj h
  refine ⟨is, his, ?_⟩
  have hindex : is ≠ it := by
    rintro rfl
    exact hne (viIndex_inj hit his)
  have hvi : (u.writeUhword it u.linkValue).vi is = u.vi is := vi_writeUhword_of_ne hindex
  rw [jtypeTarget, ← hvi]
  exact .jtype _ pc_writeUhword (congrArg (VuBranchDelaySlot.setBranchJtype · _) bdelay_writeUhword)

/-! ### The branch that is due -/

/-- Between two steps the branch that the last one has set is due, and no other is pending. -/
def Due (b : VuBranchDelaySlot) (due : Option Uptr) : Prop :=
  b.secondBranchPending = false ∧ due.elim (b.currentSlot = 0) fun target => b.currentSlot = 1 ∧ b.branchPc = target

variable {due target : Option Uptr}

theorem Due.isBranchPending_iff {b : VuBranchDelaySlot} (h : Due b due) : b.isBranchPending ↔ due.isSome := by
  unfold VuBranchDelaySlot.isBranchPending
  cases due with
  | none =>
    have hslot : b.currentSlot = 0 := h.2
    simp [hslot]
  | some d =>
    have hslot : b.currentSlot = 1 := h.2.1
    simp [hslot]

/-- An instruction sets a branch or leaves the branches alone. -/
theorem Executes.bdelay_eq (h : Executes u v target) :
    v.pc = u.pc ∧ v.bdelay = target.elim u.bdelay u.bdelay.setBranch := by
  cases h with
  | none hpc hb => exact ⟨hpc, hb⟩
  | itype imm hpc hb => exact ⟨hpc, hb⟩
  | jtype jumpTo hpc hb => exact ⟨hpc, hb⟩

/-- One step: the branch that was due is taken, and the one that is set is due next. -/
theorem Due.advancePc (h : Due u.bdelay due) (hexec : Executes u v target) :
    v.advancePc.pc = due.getD (u.pc + 8) ∧ Due v.advancePc.bdelay target := by
  obtain ⟨hpc, hb⟩ := hexec.bdelay_eq
  have hpending := h.isBranchPending_iff
  obtain ⟨hsecond, hdue⟩ := h
  rw [VuUnit.advancePc, hpc, hb]
  cases due with
  | none =>
    have hslot : u.bdelay.currentSlot = 0 := hdue
    cases target with
    | none =>
      have hadvance : u.bdelay.advancePc u.pc = (u.bdelay, u.pc + 8) := if_neg (not_not.mpr hslot)
      rw [Option.elim_none, hadvance]
      exact ⟨rfl, hsecond, hslot⟩
    | some t =>
      rw [Option.elim_some, VuBranchDelaySlot.setBranch, if_neg (mt hpending.mp Bool.false_ne_true)]
      exact ⟨rfl, hsecond, rfl, rfl⟩
  | some d =>
    obtain ⟨hslot, hbranch⟩ := hdue
    cases target with
    | none =>
      have hadvance : u.bdelay.advancePc u.pc = ({ u.bdelay with currentSlot := 0 }, d) := by
        simp [VuBranchDelaySlot.advancePc, hslot, hbranch, hsecond]
      rw [Option.elim_none, hadvance]
      exact ⟨rfl, hsecond, rfl⟩
    | some t =>
      -- the second branch takes the place of the first
      have hadvance : (u.bdelay.setBranch t).advancePc u.pc = (⟨1, t, t, false⟩, d) := by
        simp [VuBranchDelaySlot.setBranch, hpending, VuBranchDelaySlot.advancePc, hslot, hbranch]
      rw [Option.elim_some, hadvance]
      exact ⟨rfl, rfl, rfl, rfl⟩

/-- The link value is the instruction behind the next one. -/
theorem Due.linkValue_eq (h : Due u.bdelay due) : u.linkValue = ((due.getD (u.pc + 8) + 8) / 8).setWidth 16 := by
  have hpending := h.isBranchPending_iff
  rw [linkValue]
  cases due with
  | none =>
    rw [if_neg (mt hpending.mp Bool.false_ne_true), Option.getD_none, BitVec.add_assoc]
    rfl
  | some d =>
    have hbranch : u.bdelay.branchPc = d := h.2.2
    rw [if_pos (hpending.mpr rfl), VuBranchDelaySlot.getBranchPc, hbranch, Option.getD_some]

theorem links_bal (h : u.bal inst = .ok v) (hdue : Due u.bdelay due) : Links inst u v (due.getD (u.pc + 8)) := by
  obtain ⟨it, hit, h⟩ := bind_eq_ok_iff.mp h
  obtain rfl := Except.ok.inj h
  exact ⟨it, hit, by rw [← hdue.linkValue_eq]; rfl⟩

theorem links_jalr (h : u.jalr inst = .ok v) (hdue : Due u.bdelay due) : Links inst u v (due.getD (u.pc + 8)) := by
  obtain ⟨is, -, h⟩ := bind_eq_ok_iff.mp h
  obtain ⟨it, hit, h⟩ := bind_eq_ok_iff.mp h
  obtain rfl := Except.ok.inj h
  exact ⟨it, hit, by rw [← hdue.linkValue_eq]⟩

/-! ### Sequences of steps -/

variable {units executed : ℕ → VuUnit σ}

theorem Steps.due_none (h : Steps units executed) : Due (units 0).bdelay none := ⟨h.secondBranchPending, h.currentSlot⟩

/-- Before every step some branch is due, or none. -/
theorem Steps.exists_due (h : Steps units executed) (n : ℕ) : ∃ due, Due (units n).bdelay due := by
  induction n with
  | zero => exact ⟨none, h.due_none⟩
  | succ n ih =>
    obtain ⟨due, hdue⟩ := ih
    obtain ⟨target, htarget⟩ := h.executes n
    rw [h.advance n]
    exact ⟨target, (hdue.advancePc htarget).2⟩

/-- The next program counter is that of the branch that is due. -/
theorem Steps.pc_succ (h : Steps units executed) {n : ℕ} (hdue : Due (units n).bdelay due) :
    (units (n + 1)).pc = due.getD ((units n).pc + 8) := by
  obtain ⟨target, htarget⟩ := h.executes n
  rw [h.advance n]
  exact (hdue.advancePc htarget).1

/-- A branch is taken after the instruction in its delay slot. -/
theorem Steps.pc_add_two (h : Steps units executed) {n : ℕ} (htarget : Executes (units n) (executed n) target) :
    (units (n + 2)).pc = target.getD ((units (n + 1)).pc + 8) := by
  obtain ⟨due, hdue⟩ := h.exists_due n
  have hnext : Due (units (n + 1)).bdelay target := by
    rw [h.advance n]
    exact (hdue.advancePc htarget).2
  exact h.pc_succ hnext

/-- Over any steps, with branches in delay slots of branches: where they go, and what they link to. -/
theorem branches_in_delaySlots (units executed : ℕ → VuUnit σ) (h : Steps units executed) : DelaySlots units executed where
  first := h.pc_succ h.due_none
  later := fun _ _ htarget => h.pc_add_two htarget
  b := by
    intro n inst hb
    have hexec : Executes (units n) (executed n) (some (itypeTarget inst (units n))) := by
      rw [hb]
      exact executes_b
    exact h.pc_add_two hexec
  jr := by
    intro n inst hjr
    obtain ⟨is, his, hexec⟩ := executes_jr hjr
    exact ⟨is, his, h.pc_add_two hexec⟩
  bal := by
    intro n inst hbal
    obtain ⟨due, hdue⟩ := h.exists_due n
    rw [h.pc_succ hdue]
    exact ⟨h.pc_add_two (executes_bal hbal), links_bal hbal hdue⟩
  jalr := by
    intro n inst hjalr hne
    obtain ⟨due, hdue⟩ := h.exists_due n
    obtain ⟨is, his, hexec⟩ := executes_jalr hjalr hne
    rw [h.pc_succ hdue]
    exact ⟨⟨is, his, h.pc_add_two hexec⟩, links_jalr hjalr hdue⟩

/-- A branch in every step. -/
theorem branches_in_delaySlots_everywhere :
    DelaySlots (fun n => (fun u : VuUnit Unit => (u.b ⟨0⟩).advancePc)^[n] (initial 0x1000 ()))
      fun n => ((fun u : VuUnit Unit => (u.b ⟨0⟩).advancePc)^[n] (initial 0x1000 ())).b ⟨0⟩ :=
  branches_in_delaySlots _ _
    { executes := fun _ => ⟨_, .itype _ rfl rfl⟩
      advance := fun n => Function.iterate_succ_apply' _ n _
      currentSlot := rfl
      secondBranchPending := rfl }

end VuUnit

end Orbum
