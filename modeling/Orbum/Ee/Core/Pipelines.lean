import Orbum.Ee.Core.Interpreter.HiLo

/-!
# The two multiply and divide pipelines

`HI` and `LO` hold two accumulators: doubleword 0 is meant for pipeline 0, and doubleword 1 (`HI1` and `LO1`) for
pipeline 1. The instructions of pipeline 1 delegate to those of pipeline 0, so they work on doubleword 0, too.

## The model

An instruction is run with the operands it finds, whatever they are. What pipeline 1 should do is what its twin of
pipeline 0 does with the accumulators exchanged.
-/

namespace Orbum

open Lanes

/-- The scalar multiplications and divisions. -/
inductive MultDiv where
  /-- `DIV`. -/
  | div
  /-- `DIVU`. -/
  | divu
  /-- `MULT`. -/
  | mult
  /-- `MULTU`. -/
  | multu
  /-- `MADD`. -/
  | madd
  /-- `MADDU`. -/
  | maddu
  /-- `DIV1`. -/
  | div1
  /-- `DIVU1`. -/
  | divu1
  /-- `MULT1`. -/
  | mult1
  /-- `MULTU1`. -/
  | multu1
  /-- `MADD1`. -/
  | madd1
  /-- `MADDU1`. -/
  | maddu1
  deriving DecidableEq, Repr

namespace MultDiv

/-- Whether it is an instruction of pipeline 1. -/
def isPipeline1 : MultDiv → Bool
  | div | divu | mult | multu | madd | maddu => false
  | div1 | divu1 | mult1 | multu1 | madd1 | maddu1 => true

/-- The instruction of pipeline 0 that does the same. -/
def twin : MultDiv → MultDiv
  | div | div1 => div
  | divu | divu1 => divu
  | mult | mult1 => mult
  | multu | multu1 => multu
  | madd | madd1 => madd
  | maddu | maddu1 => maddu

variable {σ : Type}

/-- Runs the instruction. -/
def run : MultDiv → EeCoreInstruction → R5900 σ → R5900 σ
  | div => R5900.div
  | divu => R5900.divu
  | mult => R5900.mult
  | multu => R5900.multu
  | madd => R5900.madd
  | maddu => R5900.maddu
  | div1 => R5900.div1
  | divu1 => R5900.divu1
  | mult1 => R5900.mult1
  | multu1 => R5900.multu1
  | madd1 => R5900.madd1
  | maddu1 => R5900.maddu1

/-- An instruction of pipeline 1 delegates to its twin. -/
theorem run_twin (op : MultDiv) : op.twin.run (σ := σ) = op.run := by
  cases op <;> rfl

end MultDiv

namespace Pipelines

variable {σ : Type}

/-- An instruction with the registers it finds its operands in. -/
structure Issue where
  /-- What it does. -/
  op : MultDiv
  /-- Its fields. -/
  inst : EeCoreInstruction
  /-- The general registers. -/
  gpr : BitVec 5 → Uqword

namespace Issue

/-- What becomes of `HI` and `LO`. -/
def step (i : Issue) (x : Special σ) : Special σ := (i.op.run i.inst ⟨i.gpr, x⟩).rest

/-- The same operands for the twin. -/
def twin (i : Issue) : Issue := { i with op := i.op.twin }

/-- A division by zero. -/
def DividesByZero (i : Issue) : Prop :=
  match i.op with
  | .div | .divu | .div1 | .divu1 => lane 32 0 (i.gpr i.inst.rt) = 0
  | .mult | .multu | .madd | .maddu | .mult1 | .multu1 | .madd1 | .maddu1 => False

end Issue

/-- What becomes of `HI` and `LO` in a sequence. -/
def run (s : List Issue) (x : Special σ) : Special σ := s.foldl (fun x i => i.step x) x

/-- The instructions of pipeline 0. -/
def pipeline0 (s : List Issue) : List Issue := s.filter fun i => !i.op.isPipeline1

/-- The instructions of pipeline 1. -/
def pipeline1 (s : List Issue) : List Issue := s.filter fun i => i.op.isPipeline1

/-! ### Instructions run one after the other -/

/-- Runs instructions, each with the registers that those before it leave. -/
def exec (s : List (MultDiv × EeCoreInstruction)) (d : R5900 σ) : R5900 σ := s.foldl (fun d p => p.1.run p.2 d) d

/-- The same instructions, with the registers they find. -/
def issued : List (MultDiv × EeCoreInstruction) → R5900 σ → List Issue
  | [], _ => []
  | (op, inst) :: s, d => ⟨op, inst, d.gpr⟩ :: issued s (op.run inst d)

theorem rest_exec (s : List (MultDiv × EeCoreInstruction)) (d : R5900 σ) : (exec s d).rest = run (issued s d) d.rest := by
  induction s generalizing d with
  | nil => rfl
  | cons p s ih => exact ih (p.1.run p.2 d)

/-! ### The law -/

/-- The doublewords of a register exchanged. -/
def exchange (q : Uqword) : Uqword := setLane 1 (setLane 0 q (lane 64 1 q)) (lane 64 0 q)

/-- The accumulators exchanged. -/
def exchanged (x : Special σ) : Special σ := { x with hi := exchange x.hi, lo := exchange x.lo }

/-- The two moves put the same into a register. -/
def SameRead (move : EeCoreInstruction → R5900 σ → R5900 σ) (x : Special σ)
    (move' : EeCoreInstruction → R5900 σ → R5900 σ) (x' : Special σ) : Prop :=
  ∀ inst gpr, (move inst ⟨gpr, x⟩).gpr = (move' inst ⟨gpr, x'⟩).gpr

/-- Each accumulator is as the instructions of its pipeline make it. -/
structure Isolated (s : List Issue) (x : Special σ) : Prop where
  /-- `MFHI` reads what pipeline 0 alone produces. -/
  hi : SameRead R5900.mfhi (run s x) R5900.mfhi (run (pipeline0 s) x)
  /-- `MFLO` reads what pipeline 0 alone produces. -/
  lo : SameRead R5900.mflo (run s x) R5900.mflo (run (pipeline0 s) x)
  /-- `MFHI1` reads what pipeline 1 alone produces. -/
  hi1 : SameRead R5900.mfhi1 (run s x) R5900.mfhi1 (run (pipeline1 s) x)
  /-- `MFLO1` reads what pipeline 1 alone produces. -/
  lo1 : SameRead R5900.mflo1 (run s x) R5900.mflo1 (run (pipeline1 s) x)
  /-- Pipeline 1 produces in `HI1` what its twins produce in `HI`. -/
  writesHi1 : SameRead R5900.mfhi1 (run (pipeline1 s) x) R5900.mfhi (run ((pipeline1 s).map Issue.twin) (exchanged x))
  /-- Pipeline 1 produces in `LO1` what its twins produce in `LO`. -/
  writesLo1 : SameRead R5900.mflo1 (run (pipeline1 s) x) R5900.mflo (run ((pipeline1 s).map Issue.twin) (exchanged x))

theorem sameRead_iff {source source' : Special σ → Uqword} {k k' : ℕ} {x x' : Special σ} :
    SameRead (R5900.moveFrom · · source k) x (R5900.moveFrom · · source' k') x' ↔
      lane 64 k (source x) = lane 64 k' (source' x') := by
  constructor
  · intro h
    -- a move to register 1
    have hrd : (⟨0x800⟩ : EeCoreInstruction).rd ≠ 0 := by decide
    have hmove := congrFun (h ⟨0x800⟩ fun _ => 0) (EeCoreInstruction.rd ⟨0x800⟩)
    have hl := R5900.gpr_moveFrom ⟨0x800⟩ ⟨fun _ => 0, x⟩ source k hrd
    have hr := R5900.gpr_moveFrom ⟨0x800⟩ ⟨fun _ => 0, x'⟩ source' k' hrd
    exact hl.symm.trans ((congrArg (lane 64 0) hmove).trans hr)
  · intro h inst gpr
    simp only [R5900.moveFrom, R5900.write, EeData.writeUqword, h]
    split_ifs <;> rfl

/-! ### What an instruction does -/

/-- A word, sign extended or zero extended. -/
def Extended (v : Udword) : Prop := ∃ (x : Widening) (a : Uword), v = x.widen a

/-- `2 ^ 32` is no extended word. -/
theorem not_extended : ¬Extended 0x100000000 := by
  rintro ⟨x, a, h⟩
  cases x with
  | signed =>
    have hint := congrArg BitVec.toInt h
    have hle := a.le_toInt
    have hlt := a.toInt_lt
    rw [Widening.widen, BitVec.toInt_signExtend_of_le (by decide)] at hint
    change 4294967296 = a.toInt at hint
    omega
  | unsigned =>
    have hnat := congrArg BitVec.toNat h
    have hlt := a.isLt
    rw [Widening.widen, BitVec.toNat_setWidth] at hnat
    change 4294967296 = a.toNat % 2 ^ 64 at hnat
    omega

/-- What an instruction writes: the low doublewords, with extended words. -/
def Writes (x x' : Special σ) : Prop :=
  ∃ hi lo : Udword, Extended hi ∧ Extended lo ∧ x' = { x with hi := setLane 0 x.hi hi, lo := setLane 0 x.lo lo }

theorem writes_writeQuotient (gpr : BitVec 5 → Uqword) (x : Special σ) (q r : Uword) :
    Writes x (R5900.writeQuotient ⟨gpr, x⟩ q r).rest :=
  ⟨_, _, ⟨.signed, r, rfl⟩, ⟨.signed, q, rfl⟩, rfl⟩

theorem writes_writeResult {v : Udword × Udword × Udword} (hlo : Extended v.2.1) (hhi : Extended v.2.2)
    (gpr : BitVec 5 → Uqword) (x : Special σ) (rd : BitVec 5) : Writes x (R5900.writeResult rd 0 v ⟨gpr, x⟩).rest := by
  refine ⟨v.2.2, v.2.1, hhi, hlo, ?_⟩
  simp only [R5900.writeResult, R5900.setHi, R5900.setLo, R5900.rest_write]

/-- A division by zero does nothing. -/
theorem step_of_dividesByZero {i : Issue} (h : i.DividesByZero) (x : Special σ) : i.step x = x := by
  have hdiv (hzero : R5900.read 32 (⟨i.gpr, x⟩ : R5900 σ) i.inst.rt 0 = 0) : (R5900.div i.inst ⟨i.gpr, x⟩).rest = x := by
    have hminus : R5900.read 32 (⟨i.gpr, x⟩ : R5900 σ) i.inst.rt 0 ≠ -1 := by
      rw [hzero]
      decide
    rw [R5900.div, if_neg fun h => hminus h.2, if_pos hzero]
  have hdivu (hzero : R5900.read 32 (⟨i.gpr, x⟩ : R5900 σ) i.inst.rt 0 = 0) :
      (R5900.divu i.inst ⟨i.gpr, x⟩).rest = x := by
    rw [R5900.divu, if_pos hzero]
  obtain ⟨op, inst, gpr⟩ := i
  cases op with
  | div | div1 => exact hdiv h
  | divu | divu1 => exact hdivu h
  | mult | multu | madd | maddu | mult1 | multu1 | madd1 | maddu1 => cases h

/-- Any other instruction writes the low doublewords. -/
theorem writes_step {i : Issue} (h : ¬i.DividesByZero) (x : Special σ) : Writes x (i.step x) := by
  have hdiv (hzero : R5900.read 32 (⟨i.gpr, x⟩ : R5900 σ) i.inst.rt 0 ≠ 0) :
      Writes x (R5900.div i.inst ⟨i.gpr, x⟩).rest := by
    rw [R5900.div]
    by_cases hmin : R5900.read 32 (⟨i.gpr, x⟩ : R5900 σ) i.inst.rs 0 = BitVec.intMin 32 ∧
        R5900.read 32 (⟨i.gpr, x⟩ : R5900 σ) i.inst.rt 0 = -1
    · rw [if_pos hmin]
      exact writes_writeQuotient _ _ _ _
    · rw [if_neg hmin, if_neg hzero]
      exact writes_writeQuotient _ _ _ _
  have hdivu (hzero : R5900.read 32 (⟨i.gpr, x⟩ : R5900 σ) i.inst.rt 0 ≠ 0) :
      Writes x (R5900.divu i.inst ⟨i.gpr, x⟩).rest := by
    rw [R5900.divu, if_neg hzero]
    exact writes_writeQuotient _ _ _ _
  have hmult (w : Widening) : Writes x (R5900.scalarMult w i.inst ⟨i.gpr, x⟩).rest :=
    writes_writeResult ⟨.signed, _, rfl⟩ ⟨.signed, _, rfl⟩ _ _ _
  have hmadd (w : Widening) : Writes x (R5900.scalarMadd w i.inst ⟨i.gpr, x⟩).rest :=
    writes_writeResult ⟨w, _, rfl⟩ ⟨w, _, rfl⟩ _ _ _
  obtain ⟨op, inst, gpr⟩ := i
  cases op with
  | div | div1 => exact hdiv h
  | divu | divu1 => exact hdivu h
  | mult | mult1 => exact hmult .signed
  | multu | multu1 => exact hmult .unsigned
  | madd | madd1 => exact hmadd .signed
  | maddu | maddu1 => exact hmadd .unsigned

/-- No instruction touches the high doublewords. -/
theorem lane_one_step (i : Issue) (x : Special σ) :
    lane 64 1 (i.step x).hi = lane 64 1 x.hi ∧ lane 64 1 (i.step x).lo = lane 64 1 x.lo := by
  by_cases h : i.DividesByZero
  · rw [step_of_dividesByZero h]
    exact ⟨rfl, rfl⟩
  · obtain ⟨hi, lo, -, -, hstep⟩ := writes_step h x
    rw [hstep]
    exact ⟨lane_setLane_of_ne (by decide) _ _, lane_setLane_of_ne (by decide) _ _⟩

/-! ### Sequences -/

theorem run_cons (i : Issue) (s : List Issue) (x : Special σ) : run (i :: s) x = run s (i.step x) := rfl

theorem lane_one_run (s : List Issue) (x : Special σ) :
    lane 64 1 (run s x).hi = lane 64 1 x.hi ∧ lane 64 1 (run s x).lo = lane 64 1 x.lo := by
  induction s generalizing x with
  | nil => exact ⟨rfl, rfl⟩
  | cons i s ih =>
    obtain ⟨hhi, hlo⟩ := ih (i.step x)
    obtain ⟨hhi', hlo'⟩ := lane_one_step i x
    exact ⟨hhi.trans hhi', hlo.trans hlo'⟩

/-- Divisions by zero do nothing, one after the other. -/
theorem run_of_dividesByZero {s : List Issue} (h : ∀ i ∈ s, i.DividesByZero) (x : Special σ) : run s x = x := by
  induction s with
  | nil => rfl
  | cons i s ih =>
    rw [run_cons, step_of_dividesByZero (h i List.mem_cons_self)]
    exact ih fun j hj => h j (List.mem_cons_of_mem i hj)

/-- Nor do they make a difference to what the other pipeline does. -/
theorem run_pipeline0 {s : List Issue} (h : ∀ i ∈ s, i.op.isPipeline1 → i.DividesByZero) (x : Special σ) :
    run (pipeline0 s) x = run s x := by
  induction s generalizing x with
  | nil => rfl
  | cons i s ih =>
    have hs := ih fun j hj => h j (List.mem_cons_of_mem i hj)
    by_cases hone : i.op.isPipeline1
    · rw [run_cons, step_of_dividesByZero (h i List.mem_cons_self hone), pipeline0, List.filter_cons_of_neg (by simp [hone])]
      exact hs x
    · rw [pipeline0, List.filter_cons_of_pos (by simp [hone]), run_cons, run_cons]
      exact hs (i.step x)

/-- Once an instruction has written `HI`, it holds an extended word. -/
theorem extended_run {s : List Issue} {x : Special σ}
    (h : Extended (lane 64 0 x.hi) ∨ ∃ i ∈ s, ¬i.DividesByZero) : Extended (lane 64 0 (run s x).hi) := by
  induction s generalizing x with
  | nil =>
    rcases h with h | ⟨i, hi, -⟩
    · exact h
    · cases hi
  | cons i s ih =>
    rw [run_cons]
    by_cases hzero : i.DividesByZero
    · rw [step_of_dividesByZero hzero]
      refine ih (h.imp_right ?_)
      rintro ⟨j, hj, hnot⟩
      rcases List.mem_cons.mp hj with rfl | hj
      · exact absurd hzero hnot
      · exact ⟨j, hj, hnot⟩
    · obtain ⟨hi, lo, hext, -, hstep⟩ := writes_step hzero x
      refine ih (Or.inl ?_)
      rw [hstep]
      change Extended (lane 64 0 (setLane 0 x.hi hi))
      rwa [lane_setLane_self (by decide)]

theorem twin_dividesByZero (i : Issue) : i.twin.DividesByZero ↔ i.DividesByZero := by
  obtain ⟨op, inst, gpr⟩ := i
  cases op <;> exact Iff.rfl

theorem lane_zero_exchange (q : Uqword) : lane 64 0 (exchange q) = lane 64 1 q := by
  rw [exchange, lane_setLane_of_ne (by decide)]
  exact lane_setLane_self (by decide) _ _

/-- Whatever the accumulators hold, the pipelines are isolated in a sequence if and only if those of its instructions that
are of pipeline 1 all divide by zero. -/
theorem isolated_iff [Inhabited σ] (s : List Issue) :
    (∀ x : Special σ, Isolated s x) ↔ ∀ i ∈ s, i.op.isPipeline1 → i.DividesByZero := by
  constructor
  · intro h i hi hone
    by_contra hzero
    -- `HI1` holds no extended word
    let x : Special σ := ⟨0x00000001000000000000000000000000, 0, 0, default⟩
    have hlane : lane 64 1 (0x00000001000000000000000000000000 : Uqword) = 0x100000000 := by decide
    have hread := sameRead_iff.mp (h x).writesHi1
    have hkept : lane 64 1 (run (pipeline1 s) x).hi = 0x100000000 := (lane_one_run (pipeline1 s) x).1.trans hlane
    have hmem : i.twin ∈ (pipeline1 s).map Issue.twin := List.mem_map_of_mem (List.mem_filter.mpr ⟨hi, hone⟩)
    have hext : Extended (lane 64 0 (run ((pipeline1 s).map Issue.twin) (exchanged x)).hi) :=
      extended_run (Or.inr ⟨i.twin, hmem, fun htwin => hzero ((twin_dividesByZero i).mp htwin)⟩)
    rw [← hread, hkept] at hext
    exact not_extended hext
  · intro h x
    have hzero : ∀ i ∈ pipeline1 s, i.DividesByZero := fun i hi =>
      h i (List.mem_filter.mp hi).1 (List.mem_filter.mp hi).2
    have htwins : ∀ i ∈ (pipeline1 s).map Issue.twin, i.DividesByZero := fun i hi => by
      obtain ⟨j, hj, rfl⟩ := List.mem_map.mp hi
      exact (twin_dividesByZero j).mpr (hzero j hj)
    obtain ⟨hhi, hlo⟩ := lane_one_run s x
    refine ⟨sameRead_iff.mpr ?_, sameRead_iff.mpr ?_, sameRead_iff.mpr ?_, sameRead_iff.mpr ?_, sameRead_iff.mpr ?_,
      sameRead_iff.mpr ?_⟩
    · rw [run_pipeline0 h]
    · rw [run_pipeline0 h]
    · rw [run_of_dividesByZero hzero, hhi]
    · rw [run_of_dividesByZero hzero, hlo]
    · rw [run_of_dividesByZero hzero, run_of_dividesByZero htwins]
      exact (lane_zero_exchange x.hi).symm
    · rw [run_of_dividesByZero hzero, run_of_dividesByZero htwins]
      exact (lane_zero_exchange x.lo).symm

/-- `MULT1` of 1 and 1 is read by `MFLO`. -/
theorem pipeline1_writes_lo : ¬∀ (s : List Issue) (x : Special Unit), Isolated s x := by
  intro h
  have hlo := sameRead_iff.mp (h [⟨.mult1, ⟨0x70000018⟩, fun _ => 1⟩] ⟨0, 0, 0, ()⟩).lo
  exact absurd hlo (by decide)

end Pipelines

end Orbum
