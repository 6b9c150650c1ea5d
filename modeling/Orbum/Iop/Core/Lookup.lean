import Orbum.Common.InstructionTable
import Orbum.Iop.Core.Interpreter

/-!
# Instruction lookup of the IOP core

`IOP_CORE_INSTRUCTION_TABLE` and `IopCoreInstruction::lookup` of `IopCoreInstruction.cpp`, and the table
`IOP_INSTRUCTION_TABLE` of the functions of `CIopCoreInterpreter`.

The two tables and the switches fit together: every function but `INSTRUCTION_UNKNOWN` runs for the words of one pattern,
and no table is indexed past its end.
-/

namespace Orbum

/-- The functions of `CIopCoreInterpreter` that run instructions. -/
inductive IopCoreFunction where
  | instructionUnknown | j | jal | beq | bne | blez | bgtz | addi | addiu | slti | sltiu | andi | ori | xori | lui
  | lb | lh | lwl | lw | lbu | lhu | lwr | sb | sh | swl | sw | swr | lwc2 | swc2 | sll | srl | sra | sllv | srlv
  | srav | jr | jalr | syscall | break_ | mfhi | mthi | mflo | mtlo | mult | multu | div | divu | add | addu | sub
  | subu | and | or | xor | nor | slt | sltu | bltz | bgez | bltzal | bgezal | mfc0 | cfc0 | mtc0 | ctc0 | rfe | rtps
  | nclip | op | dpcs | intpl | mvmva | ncds | cdp | ncdt | nccs | cc | ncs | nct | sqr | dcpl | dpct | avsz3 | avsz4
  | rtpt | gpf | gpl | mfc2 | cfc2 | mtc2 | ctc2
  deriving DecidableEq

namespace IopCoreInstruction

open EeCoreInstruction SwitchTree

/-- `CPI_R3000_DEFAULT`. -/
def cpiR3000Default : ℕ := 9

/-- `CPI_R3000_BRANCH`. -/
def cpiR3000Branch : ℕ := 11

/-- `CPI_R3000_MULTIPLY`. -/
def cpiR3000Multiply : ℕ := 16

/-- `CPI_R3000_DIVIDE`. -/
def cpiR3000Divide : ℕ := 112

/-- `CPI_R3000_STORE`. -/
def cpiR3000Store : ℕ := 14

/-- `CPI_R3000_LOAD`. -/
def cpiR3000Load : ℕ := 14

/-- `CPI_COP_DEFAULT`. -/
def cpiCopDefault : ℕ := 11

/-- `IOP_CORE_INSTRUCTION_TABLE`. -/
def rows : List MipsInstructionInfo :=
  [⟨"SLL", 29, cpiR3000Default⟩, ⟨"SRL", 30, cpiR3000Default⟩, ⟨"SRA", 31, cpiR3000Default⟩,
   ⟨"SLLV", 32, cpiR3000Default⟩, ⟨"SRLV", 33, cpiR3000Default⟩, ⟨"SRAV", 34, cpiR3000Default⟩,
   ⟨"JR", 35, cpiR3000Branch⟩, ⟨"JALR", 36, cpiR3000Branch⟩, ⟨"SYSCALL", 37, cpiR3000Default⟩,
   ⟨"BREAK", 38, cpiR3000Default⟩, ⟨"MFHI", 39, cpiR3000Default⟩, ⟨"MTHI", 40, cpiR3000Default⟩,
   ⟨"MFLO", 41, cpiR3000Default⟩, ⟨"MTLO", 42, cpiR3000Default⟩, ⟨"MULT", 43, cpiR3000Multiply⟩,
   ⟨"MULTU", 44, cpiR3000Multiply⟩, ⟨"DIV", 45, cpiR3000Divide⟩, ⟨"DIVU", 46, cpiR3000Divide⟩,
   ⟨"ADD", 47, cpiR3000Default⟩, ⟨"ADDU", 48, cpiR3000Default⟩, ⟨"SUB", 49, cpiR3000Default⟩,
   ⟨"SUBU", 50, cpiR3000Default⟩, ⟨"AND", 51, cpiR3000Default⟩, ⟨"OR", 52, cpiR3000Default⟩,
   ⟨"XOR", 53, cpiR3000Default⟩, ⟨"NOR", 54, cpiR3000Default⟩, ⟨"SLT", 55, cpiR3000Default⟩,
   ⟨"SLTU", 56, cpiR3000Default⟩, ⟨"BLTZ", 57, cpiR3000Branch⟩, ⟨"BGEZ", 58, cpiR3000Branch⟩,
   ⟨"BLTZAL", 59, cpiR3000Branch⟩, ⟨"BGEZAL", 60, cpiR3000Branch⟩, ⟨"MFC0", 61, cpiCopDefault⟩,
   ⟨"CFC0", 62, cpiCopDefault⟩, ⟨"MTC0", 63, cpiCopDefault⟩, ⟨"CTC0", 64, cpiCopDefault⟩, ⟨"RFE", 65, cpiCopDefault⟩,
   ⟨"MFC2", 87, cpiCopDefault⟩, ⟨"CFC2", 88, cpiCopDefault⟩, ⟨"MTC2", 89, cpiCopDefault⟩, ⟨"CTC2", 90, cpiCopDefault⟩,
   ⟨"RTPS", 66, cpiCopDefault⟩, ⟨"NCLIP", 67, cpiCopDefault⟩, ⟨"OP", 68, cpiCopDefault⟩, ⟨"DPCS", 69, cpiCopDefault⟩,
   ⟨"INTPL", 70, cpiCopDefault⟩, ⟨"MVMVA", 71, cpiCopDefault⟩, ⟨"NCDS", 72, cpiCopDefault⟩,
   ⟨"CDP", 73, cpiCopDefault⟩, ⟨"NCDT", 74, cpiCopDefault⟩, ⟨"NCCS", 75, cpiCopDefault⟩, ⟨"CC", 76, cpiCopDefault⟩,
   ⟨"NCS", 77, cpiCopDefault⟩, ⟨"NCT", 78, cpiCopDefault⟩, ⟨"SQR", 79, cpiCopDefault⟩, ⟨"DCPL", 80, cpiCopDefault⟩,
   ⟨"DPCT", 81, cpiCopDefault⟩, ⟨"AVSZ3", 82, cpiCopDefault⟩, ⟨"AVSZ4", 83, cpiCopDefault⟩,
   ⟨"RTPT", 84, cpiCopDefault⟩, ⟨"GPF", 85, cpiCopDefault⟩, ⟨"GPL", 86, cpiCopDefault⟩, ⟨"J", 1, cpiR3000Branch⟩,
   ⟨"JAL", 2, cpiR3000Branch⟩, ⟨"BEQ", 3, cpiR3000Branch⟩, ⟨"BNE", 4, cpiR3000Branch⟩, ⟨"BLEZ", 5, cpiR3000Branch⟩,
   ⟨"BGTZ", 6, cpiR3000Branch⟩, ⟨"ADDI", 7, cpiR3000Default⟩, ⟨"ADDIU", 8, cpiR3000Default⟩,
   ⟨"SLTI", 9, cpiR3000Default⟩, ⟨"SLTIU", 10, cpiR3000Default⟩, ⟨"ANDI", 11, cpiR3000Default⟩,
   ⟨"ORI", 12, cpiR3000Default⟩, ⟨"XORI", 13, cpiR3000Default⟩, ⟨"LUI", 14, cpiR3000Default⟩,
   ⟨"LB", 15, cpiR3000Load⟩, ⟨"LH", 16, cpiR3000Load⟩, ⟨"LWL", 17, cpiR3000Load⟩, ⟨"LW", 18, cpiR3000Load⟩,
   ⟨"LBU", 19, cpiR3000Load⟩, ⟨"LHU", 20, cpiR3000Load⟩, ⟨"LWR", 21, cpiR3000Load⟩, ⟨"SB", 22, cpiR3000Store⟩,
   ⟨"SH", 23, cpiR3000Store⟩, ⟨"SWL", 24, cpiR3000Store⟩, ⟨"SW", 25, cpiR3000Store⟩, ⟨"SWR", 26, cpiR3000Store⟩,
   ⟨"LWC2", 27, cpiR3000Load⟩, ⟨"SWC2", 28, cpiR3000Store⟩]

/-! ### `lookup()` -/

/-- Opcode 0. -/
def special : SwitchTree Bitfield ℕ :=
  switch functField (rets [(0, 0), (2, 1), (3, 2), (4, 3), (6, 4), (7, 5), (8, 6), (9, 7), (12, 8), (13, 9), (16, 10), (17, 11), (18, 12),
    (19, 13), (24, 14), (25, 15), (26, 16), (27, 17), (32, 18), (33, 19), (34, 20), (35, 21), (36, 22), (37, 23),
    (38, 24), (39, 25), (42, 26), (43, 27)])

/-- Opcode 1. -/
def regimm : SwitchTree Bitfield ℕ := switch rtField (rets [(0, 28), (1, 29), (15, 30), (16, 31)])

/-- Opcode 16. -/
def cop0 : SwitchTree Bitfield ℕ := switch rsField (rets [(0, 32), (2, 33), (4, 34), (6, 35), (16, 36)])

/-- Opcode 18. -/
def cop2 : SwitchTree Bitfield ℕ :=
  switch functField <|
    (0, switch rsField (rets [(0, 37), (2, 38), (4, 39), (6, 40)])) ::
    rets [(1, 41), (6, 42), (12, 43), (16, 44), (17, 45), (18, 46), (19, 47), (20, 48), (21, 49), (27, 50), (28, 51),
      (30, 52), (32, 53), (40, 54), (41, 55), (42, 56), (45, 57), (46, 58), (48, 59), (61, 60), (62, 61)]

/-- The body of `lookup()`. -/
def lookupTree : SwitchTree Bitfield ℕ :=
  switch opcodeField <|
    (0, special) :: (1, regimm) :: (16, cop0) :: (18, cop2) ::
    rets [(2, 62), (3, 63), (4, 64), (5, 65), (6, 66), (7, 67), (8, 68), (9, 69), (10, 70), (11, 71), (12, 72), (13, 73),
      (14, 74), (15, 75), (32, 76), (33, 77), (34, 78), (35, 79), (36, 80), (37, 81), (38, 82), (40, 83), (41, 84),
      (42, 85), (43, 86), (46, 87), (50, 88), (58, 89)]

/-- `IOP_INSTRUCTION_TABLE`. -/
def functions : List IopCoreFunction :=
  [.instructionUnknown, .j, .jal, .beq, .bne, .blez, .bgtz, .addi, .addiu, .slti, .sltiu, .andi, .ori, .xori, .lui,
   .lb, .lh, .lwl, .lw, .lbu, .lhu, .lwr, .sb, .sh, .swl, .sw, .swr, .lwc2, .swc2, .sll, .srl, .sra, .sllv, .srlv,
   .srav, .jr, .jalr, .syscall, .break_, .mfhi, .mthi, .mflo, .mtlo, .mult, .multu, .div, .divu, .add, .addu, .sub,
   .subu, .and, .or, .xor, .nor, .slt, .sltu, .bltz, .bgez, .bltzal, .bgezal, .mfc0, .cfc0, .mtc0, .ctc0, .rfe, .rtps,
   .nclip, .op, .dpcs, .intpl, .mvmva, .ncds, .cdp, .ncdt, .nccs, .cc, .ncs, .nct, .sqr, .dcpl, .dpct, .avsz3, .avsz4,
   .rtpt, .gpf, .gpl, .mfc2, .cfc2, .mtc2, .ctc2]

/-- The tables of the IOP core. -/
def instructionSet : InstructionSet IopCoreFunction where
  lookupTree
  rows
  functions
  separated := separated_of_distinct (by decide +kernel)
  fits := by decide +kernel
  returns := by decide +kernel
  implIndex_lt := by decide +kernel

/-! ### One pattern for each function -/

theorem ctorIdx_lt (f : IopCoreFunction) : f.ctorIdx < 91 := by
  cases f <;> decide

/-- The functions are in the order of their type. -/
theorem functions_getElem?_iff (f : IopCoreFunction) (j : ℕ) : functions[j]? = some f ↔ j = f.ctorIdx := by
  have horder : functions.map IopCoreFunction.ctorIdx = List.range 91 := by decide +kernel
  have hinj : Function.Injective IopCoreFunction.ctorIdx := Function.LeftInverse.injective IopCoreFunction.ofNat_ctorIdx
  have hlt := ctorIdx_lt f
  rw [getElem?_eq_some_iff_map hinj, horder, List.getElem?_eq_some_iff]
  simp only [List.getElem_range, List.length_range]
  grind

theorem implIndex_nodup : (rows.map MipsInstructionInfo.implIndex).Nodup := by decide +kernel

/-- No row has index 0, and every other index has one. -/
theorem mem_implIndex_iff {k : ℕ} (hk : k < 91) : k ∈ rows.map MipsInstructionInfo.implIndex ↔ k ≠ 0 := by
  revert k
  decide +kernel

/-- `INSTRUCTION_UNKNOWN` never runs, and every other function of the table runs for the words that match one pattern, of
which there are some. A word without a function is one that `lookup()` throws for. -/
theorem iop_dispatch_patterns :
    (∀ w, instructionSet.dispatch w ≠ .ok .instructionUnknown) ∧
      (∀ f ≠ IopCoreFunction.instructionUnknown,
        ∃ p : Pattern, p.Matches p.value ∧ ∀ w, instructionSet.dispatch w = .ok f ↔ p.Matches w) ∧
      ∀ w e, instructionSet.dispatch w = .error e → e = .runtimeError "Could not determine instruction" := by
  refine ⟨InstructionSet.dispatch_ne fun info hinfo hget => ?_, fun f hf => ?_, fun w e he => (InstructionSet.dispatch_eq_error he).2⟩
  · have hzero := (functions_getElem?_iff _ _).mp hget
    exact (mem_implIndex_iff (k := info.implIndex) (by rw [hzero]; exact ctorIdx_lt _)).mp (List.mem_map_of_mem hinfo) hzero
  · have hne : f.ctorIdx ≠ 0 := fun h0 => hf <| by
      have hunknown := (functions_getElem?_iff .instructionUnknown 0).mpr rfl
      rw [← h0, (functions_getElem?_iff f _).mpr rfl] at hunknown
      exact Option.some.inj hunknown
    obtain ⟨i, hi, hrow⟩ := InstructionSet.exists_row (S := instructionSet) implIndex_nodup
      ((mem_implIndex_iff (ctorIdx_lt f)).mpr hne) (functions_getElem?_iff f)
    exact InstructionSet.exists_pattern_dispatch hi hrow

end IopCoreInstruction

end Orbum
