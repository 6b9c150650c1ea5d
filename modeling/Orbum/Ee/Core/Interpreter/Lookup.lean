import Orbum.Common.InstructionTable
import Orbum.Ee.Core.Interpreter.Instruction

/-!
# Instruction lookup of the EE core

`EE_CORE_INSTRUCTION_TABLE` and `EeCoreInstruction::lookup` of `EeCoreInstruction.cpp`, and the table
`EECORE_INSTRUCTION_TABLE` of the functions of `CEeCoreInterpreter`.

Every function runs for the words of one pattern, except that the place of `SQC2` in the table of functions is taken by
`LQC2`.
-/

namespace Orbum

/-- The functions of `CEeCoreInterpreter` that run instructions. -/
inductive EeCoreFunction where
  | instructionUnknown | j | jal | beq | bne | blez | bgtz | addi | addiu | slti | sltiu | andi | ori | xori | lui
  | beql | bnel | blezl | bgtzl | daddi | daddiu | ldl | ldr | lq | sq | lb | lh | lwl | lw | lbu | lhu | lwr | lwu
  | sb | sh | swl | sw | sdl | sdr | swr | cache | lwc1 | pref | lqc2 | ld | swc1 | sqc2 | sd | sll | srl | sra | sllv
  | srlv | srav | jr | jalr | movz | movn | syscall | break_ | syncStype | mfhi | mthi | mflo | mtlo | dsllv | dsrlv
  | dsrav | mult | multu | div | divu | add | addu | sub | subu | and | or | xor | nor | mfsa | mtsa | slt | sltu
  | dadd | daddu | dsub | dsubu | tge | tgeu | tlt | tltu | teq | tne | dsll | dsrl | dsra | dsll32 | dsrl32 | dsra32
  | bltz | bgez | bltzl | bgezl | tgei | tgeiu | tlti | tltiu | teqi | tnei | bltzal | bgezal | bltzall | bgezall
  | mtsab | mtsah | madd | maddu | plzcw | mfhi1 | mthi1 | mflo1 | mtlo1 | mult1 | multu1 | div1 | divu1 | madd1
  | maddu1 | pmfhl | pmthl_lw | psllh | psrlh | psrah | psllw | psrlw | psraw | paddw | psubw | pcgtw | pmaxw | paddh
  | psubh | pcgth | pmaxh | paddb | psubb | pcgtb | paddsw | psubsw | pextlw | ppacw | paddsh | psubsh | pextlh
  | ppach | paddsb | psubsb | pextlb | ppacb | pext5 | ppac5 | pabsw | pceqw | pminw | padsbh | pabsh | pceqh | pminh
  | pceqb | padduw | psubuw | pextuw | padduh | psubuh | pextuh | paddub | psubub | pextub | qfsrv | pmaddw | psllvw
  | psrlvw | pmsubw | pmfhi | pmflo | pinth | pmultw | pdivw | pcpyld | pmaddh | phmadh | pand | pxor | pmsubh
  | phmsbh | pexeh | prevh | pmulth | pdivbw | pexew | prot3w | pmadduw | psravw | pmthi | pmtlo | pinteh | pmultuw
  | pdivuw | pcpyud | por | pnor | pexch | pcpyh | pexcw | mfc0 | mtc0 | bc0f | bc0t | bc0fl | bc0tl | tlbr | tlbwi
  | tlbwr | tlbp | eret | ei | di | mfc1 | cfc1 | mtc1 | ctc1 | bc1f | bc1t | bc1fl | bc1tl | add_s | sub_s | mul_s
  | div_s | sqrt_s | abs_s | mov_s | neg_s | rsqrt_s | adda_s | suba_s | mula_s | madd_s | msub_s | madda_s | msuba_s
  | cvt_w_s | max_s | min_s | c_f_s | c_eq_s | c_lt_s | c_le_s | cvt_s_w | qmfc2 | cfc2 | qmtc2 | ctc2 | bc2f | bc2t
  | bc2fl | bc2tl | vaddbc_0 | vaddbc_1 | vaddbc_2 | vaddbc_3 | vsubbc_0 | vsubbc_1 | vsubbc_2 | vsubbc_3 | vmaddbc_0
  | vmaddbc_1 | vmaddbc_2 | vmaddbc_3 | vmsubbc_0 | vmsubbc_1 | vmsubbc_2 | vmsubbc_3 | vmaxbc_0 | vmaxbc_1 | vmaxbc_2
  | vmaxbc_3 | vminibc_0 | vminibc_1 | vminibc_2 | vminibc_3 | vmulbc_0 | vmulbc_1 | vmulbc_2 | vmulbc_3 | vmulq
  | vmaxi | vmuli | vminii | vaddq | vmaddq | vaddi | vmaddi | vsubq | vmsubq | vsubi | vmsubi | vadd | vmadd | vmul
  | vmax | vsub | vmsub | vopmsub | vmini | viadd | visub | viaddi | viand | vior | vcallms | vcallmsr | vaddabc_0
  | vsubabc_0 | vmaddabc_0 | vmsubabc_0 | vitof0 | vftoi0 | vmulabc_0 | vmulaq | vaddaq | vsubaq | vadda | vsuba
  | vmove | vlqi | vdiv | vmtir | vrnext | vaddabc_1 | vsubabc_1 | vmaddabc_1 | vmsubabc_1 | vitof4 | vftoi4
  | vmulabc_1 | vabs | vmaddaq | vmsubaq | vmadda | vmsuba | vmr32 | vsqi | vsqrt | vmfir | vrget | vaddabc_2
  | vsubabc_2 | vmaddabc_2 | vmsubabc_2 | vitof12 | vftoi12 | vmulabc_2 | vmulai | vaddai | vsubai | vmula | vopmula
  | vlqd | vrsqrt | vilwr | vrinit | vaddabc_3 | vsubabc_3 | vmaddabc_3 | vmsubabc_3 | vitof15 | vftoi15 | vmulabc_3
  | vclip | vmaddai | vmsubai | vnop | vsqd | vwaitq | viswr | vrxor
  deriving DecidableEq

namespace EeCoreInstruction

open SwitchTree

/-- `DEST`. -/
def destField : Bitfield := ⟨21, 4⟩

/-- `CO`. -/
def coField : Bitfield := ⟨25, 1⟩

/-- `CPI_R5900_DEFAULT`. -/
def cpiR5900Default : ℕ := 9

/-- `CPI_R5900_BRANCH`. -/
def cpiR5900Branch : ℕ := 11

/-- `CPI_R5900_MULTIPLY`. -/
def cpiR5900Multiply : ℕ := 16

/-- `CPI_R5900_DIVIDE`. -/
def cpiR5900Divide : ℕ := 112

/-- `CPI_R5900_STORE`. -/
def cpiR5900Store : ℕ := 14

/-- `CPI_R5900_LOAD`. -/
def cpiR5900Load : ℕ := 14

/-- `CPI_MMI_DEFAULT`. -/
def cpiMmiDefault : ℕ := 14

/-- `CPI_COP_DEFAULT`. -/
def cpiCopDefault : ℕ := 11

/-- `CPI_COP_BRANCH_DELAY`. -/
def cpiCopBranchDelay : ℕ := 10

/-- `CPI_COP_BRANCH_DELAY_LIKELY`. -/
def cpiCopBranchDelayLikely : ℕ := 10

/-- `EE_CORE_INSTRUCTION_TABLE`. -/
def rows : List MipsInstructionInfo :=
  [⟨"SLL", 48, cpiR5900Default⟩, ⟨"SRL", 49, cpiR5900Default⟩, ⟨"SRA", 50, cpiR5900Default⟩,
   ⟨"SLLV", 51, cpiR5900Default⟩, ⟨"SRLV", 52, cpiR5900Default⟩, ⟨"SRAV", 53, cpiR5900Default⟩,
   ⟨"JR", 54, cpiR5900Branch⟩, ⟨"JALR", 55, cpiR5900Branch⟩, ⟨"MOVZ", 56, cpiR5900Default⟩,
   ⟨"MOVN", 57, cpiR5900Default⟩, ⟨"SYSCALL", 58, cpiR5900Default⟩, ⟨"BREAK", 59, cpiR5900Default⟩,
   ⟨"SYNC", 60, cpiR5900Default⟩, ⟨"MFHI", 61, cpiR5900Default⟩, ⟨"MTHI", 62, cpiR5900Default⟩,
   ⟨"MFLO", 63, cpiR5900Default⟩, ⟨"MTLO", 64, cpiR5900Default⟩, ⟨"DSLLV", 65, cpiR5900Default⟩,
   ⟨"DSRLV", 66, cpiR5900Default⟩, ⟨"DSRAV", 67, cpiR5900Default⟩, ⟨"MULT", 68, cpiR5900Multiply⟩,
   ⟨"MULTU", 69, cpiR5900Multiply⟩, ⟨"DIV", 70, cpiR5900Divide⟩, ⟨"DIVU", 71, cpiR5900Divide⟩,
   ⟨"ADD", 72, cpiR5900Default⟩, ⟨"ADDU", 73, cpiR5900Default⟩, ⟨"SUB", 74, cpiR5900Default⟩,
   ⟨"SUBU", 75, cpiR5900Default⟩, ⟨"AND", 76, cpiR5900Default⟩, ⟨"OR", 77, cpiR5900Default⟩,
   ⟨"XOR", 78, cpiR5900Default⟩, ⟨"NOR", 79, cpiR5900Default⟩, ⟨"MFSA", 80, cpiR5900Default⟩,
   ⟨"MTSA", 81, cpiR5900Default⟩, ⟨"SLT", 82, cpiR5900Default⟩, ⟨"SLTU", 83, cpiR5900Default⟩,
   ⟨"DADD", 84, cpiR5900Default⟩, ⟨"DADDU", 85, cpiR5900Default⟩, ⟨"DSUB", 86, cpiR5900Default⟩,
   ⟨"DSUBU", 87, cpiR5900Default⟩, ⟨"TGE", 88, cpiR5900Branch⟩, ⟨"TGEU", 89, cpiR5900Branch⟩,
   ⟨"TLT", 90, cpiR5900Branch⟩, ⟨"TLTU", 91, cpiR5900Branch⟩, ⟨"TEQ", 92, cpiR5900Branch⟩,
   ⟨"TNE", 93, cpiR5900Branch⟩, ⟨"DSLL", 94, cpiR5900Default⟩, ⟨"DSRL", 95, cpiR5900Default⟩,
   ⟨"DSRA", 96, cpiR5900Default⟩, ⟨"DSLL32", 97, cpiR5900Default⟩, ⟨"DSRL32", 98, cpiR5900Default⟩,
   ⟨"DSRA32", 99, cpiR5900Default⟩, ⟨"BLTZ", 100, cpiR5900Branch⟩, ⟨"BGEZ", 101, cpiR5900Branch⟩,
   ⟨"BLTZL", 102, cpiR5900Branch⟩, ⟨"BGEZL", 103, cpiR5900Branch⟩, ⟨"TGEI", 104, cpiR5900Branch⟩,
   ⟨"TGEIU", 105, cpiR5900Branch⟩, ⟨"TLTI", 106, cpiR5900Branch⟩, ⟨"TLTIU", 107, cpiR5900Branch⟩,
   ⟨"TEQI", 108, cpiR5900Branch⟩, ⟨"TNEI", 109, cpiR5900Branch⟩, ⟨"BLTZAL", 110, cpiR5900Branch⟩,
   ⟨"TGEZAL", 111, cpiR5900Branch⟩, ⟨"BLTZALL", 112, cpiR5900Branch⟩, ⟨"BGEZALL", 113, cpiR5900Branch⟩,
   ⟨"MTSAB", 114, cpiR5900Branch⟩, ⟨"MTSAH", 115, cpiR5900Branch⟩, ⟨"PADDW", 137, cpiMmiDefault⟩,
   ⟨"PSUBW", 138, cpiMmiDefault⟩, ⟨"PCGTW", 139, cpiMmiDefault⟩, ⟨"PMAXW", 140, cpiMmiDefault⟩,
   ⟨"PADDH", 141, cpiMmiDefault⟩, ⟨"PSUBH", 142, cpiMmiDefault⟩, ⟨"PCGTH", 143, cpiMmiDefault⟩,
   ⟨"PMAXH", 144, cpiMmiDefault⟩, ⟨"PADDB", 145, cpiMmiDefault⟩, ⟨"PSUBB", 146, cpiMmiDefault⟩,
   ⟨"PCGTB", 147, cpiMmiDefault⟩, ⟨"PADDSW", 148, cpiMmiDefault⟩, ⟨"PSUBSW", 149, cpiMmiDefault⟩,
   ⟨"PEXTLW", 150, cpiMmiDefault⟩, ⟨"PPACW", 151, cpiMmiDefault⟩, ⟨"PADDSH", 152, cpiMmiDefault⟩,
   ⟨"PSUBSH", 153, cpiMmiDefault⟩, ⟨"PEXTLH", 154, cpiMmiDefault⟩, ⟨"PPACH", 155, cpiMmiDefault⟩,
   ⟨"PADDSB", 156, cpiMmiDefault⟩, ⟨"PSUBSB", 157, cpiMmiDefault⟩, ⟨"PEXTLB", 158, cpiMmiDefault⟩,
   ⟨"PPACB", 159, cpiMmiDefault⟩, ⟨"PEXT5", 160, cpiMmiDefault⟩, ⟨"PPAC5", 161, cpiMmiDefault⟩,
   ⟨"PABSW", 162, cpiMmiDefault⟩, ⟨"PCEQW", 163, cpiMmiDefault⟩, ⟨"PMINW", 164, cpiMmiDefault⟩,
   ⟨"PADSBH", 165, cpiMmiDefault⟩, ⟨"PABSH", 166, cpiMmiDefault⟩, ⟨"PCEQH", 167, cpiMmiDefault⟩,
   ⟨"PMINH", 168, cpiMmiDefault⟩, ⟨"PCEQB", 169, cpiMmiDefault⟩, ⟨"PADDUW", 170, cpiMmiDefault⟩,
   ⟨"PSUBUW", 171, cpiMmiDefault⟩, ⟨"PEXTUW", 172, cpiMmiDefault⟩, ⟨"PADDUH", 173, cpiMmiDefault⟩,
   ⟨"PSUBUH", 174, cpiMmiDefault⟩, ⟨"PEXTUH", 175, cpiMmiDefault⟩, ⟨"PADDUB", 176, cpiMmiDefault⟩,
   ⟨"PSUBUB", 177, cpiMmiDefault⟩, ⟨"PEXTUB", 178, cpiMmiDefault⟩, ⟨"QFSRV", 179, cpiMmiDefault⟩,
   ⟨"PMADDW", 180, cpiMmiDefault⟩, ⟨"PSLLVW", 181, cpiMmiDefault⟩, ⟨"PSRLVW", 182, cpiMmiDefault⟩,
   ⟨"PMSUBW", 183, cpiMmiDefault⟩, ⟨"PMFHI", 184, cpiMmiDefault⟩, ⟨"PMFLO", 185, cpiMmiDefault⟩,
   ⟨"PINTH", 186, cpiMmiDefault⟩, ⟨"PMULTW", 187, cpiMmiDefault⟩, ⟨"PDIVW", 188, cpiMmiDefault⟩,
   ⟨"PCPYLD", 189, cpiMmiDefault⟩, ⟨"PMADDH", 190, cpiMmiDefault⟩, ⟨"PHMADH", 191, cpiMmiDefault⟩,
   ⟨"PAND", 192, cpiMmiDefault⟩, ⟨"PXOR", 193, cpiMmiDefault⟩, ⟨"PMSUBH", 194, cpiMmiDefault⟩,
   ⟨"PHMSBH", 195, cpiMmiDefault⟩, ⟨"PEXEH", 196, cpiMmiDefault⟩, ⟨"PREVH", 197, cpiMmiDefault⟩,
   ⟨"PMULTH", 198, cpiMmiDefault⟩, ⟨"PDIVBW", 199, cpiMmiDefault⟩, ⟨"PEXEW", 200, cpiMmiDefault⟩,
   ⟨"PROT3W", 201, cpiMmiDefault⟩, ⟨"PMADDUW", 202, cpiMmiDefault⟩, ⟨"PSRAVW", 203, cpiMmiDefault⟩,
   ⟨"PMTHI", 204, cpiMmiDefault⟩, ⟨"PMTLO", 205, cpiMmiDefault⟩, ⟨"PINTEH", 206, cpiMmiDefault⟩,
   ⟨"PMULTUW", 207, cpiMmiDefault⟩, ⟨"PDIVUW", 208, cpiMmiDefault⟩, ⟨"PCPYUD", 209, cpiMmiDefault⟩,
   ⟨"POR", 210, cpiMmiDefault⟩, ⟨"PNOR", 211, cpiMmiDefault⟩, ⟨"PEXCH", 212, cpiMmiDefault⟩,
   ⟨"PCPYH", 213, cpiMmiDefault⟩, ⟨"PEXCW", 214, cpiMmiDefault⟩, ⟨"MADD", 116, cpiMmiDefault⟩,
   ⟨"MADDU", 117, cpiMmiDefault⟩, ⟨"PLZCW", 118, cpiMmiDefault⟩, ⟨"MFHI1", 119, cpiR5900Default⟩,
   ⟨"MTHI1", 120, cpiR5900Default⟩, ⟨"MFLO1", 121, cpiR5900Default⟩, ⟨"MTLO1", 122, cpiR5900Default⟩,
   ⟨"MULT1", 123, cpiR5900Multiply⟩, ⟨"MULTU1", 124, cpiR5900Multiply⟩, ⟨"DIV1", 125, cpiR5900Divide⟩,
   ⟨"DIVU1", 126, cpiR5900Divide⟩, ⟨"MADD1", 127, cpiMmiDefault⟩, ⟨"MADDU1", 128, cpiMmiDefault⟩,
   ⟨"PMFHL", 129, cpiMmiDefault⟩, ⟨"PMTHL", 130, cpiMmiDefault⟩, ⟨"PSLLH", 131, cpiMmiDefault⟩,
   ⟨"PSRLH", 132, cpiMmiDefault⟩, ⟨"PSRAH", 133, cpiMmiDefault⟩, ⟨"PSLLW", 134, cpiMmiDefault⟩,
   ⟨"PSRLW", 135, cpiMmiDefault⟩, ⟨"PSRAW", 136, cpiMmiDefault⟩, ⟨"BC0F", 217, cpiCopBranchDelay⟩,
   ⟨"BC0T", 218, cpiCopBranchDelay⟩, ⟨"BC0FL", 219, cpiCopBranchDelayLikely⟩, ⟨"BC0TL", 220, cpiCopBranchDelayLikely⟩,
   ⟨"TLBR", 221, cpiCopDefault⟩, ⟨"TLBWI", 222, cpiCopDefault⟩, ⟨"TLBWR", 223, cpiCopDefault⟩,
   ⟨"TLBP", 224, cpiCopDefault⟩, ⟨"ERET", 225, cpiCopDefault⟩, ⟨"EI", 226, cpiCopDefault⟩, ⟨"DI", 227, cpiCopDefault⟩,
   ⟨"MFC0", 215, cpiCopDefault⟩, ⟨"MTC0", 216, cpiCopDefault⟩, ⟨"BC1F", 232, cpiCopDefault⟩,
   ⟨"BC1T", 233, cpiCopBranchDelay⟩, ⟨"BC1FL", 234, cpiCopBranchDelay⟩, ⟨"BC1TL", 235, cpiCopBranchDelayLikely⟩,
   ⟨"ADD_S", 236, cpiCopDefault⟩, ⟨"SUB_S", 237, cpiCopDefault⟩, ⟨"MUL_S", 238, cpiCopDefault⟩,
   ⟨"DIV_S", 239, cpiCopDefault⟩, ⟨"SQRT_S", 240, cpiCopDefault⟩, ⟨"ABS_S", 241, cpiCopDefault⟩,
   ⟨"MOV_S", 242, cpiCopDefault⟩, ⟨"NEG_S", 243, cpiCopDefault⟩, ⟨"RSQRT_S", 244, cpiCopDefault⟩,
   ⟨"ADDA_S", 245, cpiCopDefault⟩, ⟨"SUBA_S", 246, cpiCopDefault⟩, ⟨"MULA_S", 247, cpiCopDefault⟩,
   ⟨"MADD_S", 248, cpiCopDefault⟩, ⟨"MSUB_S", 249, cpiCopDefault⟩, ⟨"MADDA_S", 250, cpiCopDefault⟩,
   ⟨"MSUBA_S", 251, cpiCopDefault⟩, ⟨"CVTW_S", 252, cpiCopDefault⟩, ⟨"MAX_S", 253, cpiCopDefault⟩,
   ⟨"MIN_S", 254, cpiCopDefault⟩, ⟨"C.F_S", 255, cpiCopDefault⟩, ⟨"C.EQ_S", 256, cpiCopDefault⟩,
   ⟨"C.LT_S", 257, cpiCopDefault⟩, ⟨"C.LE_S", 258, cpiCopDefault⟩, ⟨"CVTS_S", 259, cpiCopDefault⟩,
   ⟨"MFC1", 228, cpiCopDefault⟩, ⟨"CFC1", 229, cpiCopDefault⟩, ⟨"MTC1", 230, cpiCopDefault⟩,
   ⟨"CTC1", 231, cpiCopDefault⟩, ⟨"BC2F", 264, cpiCopDefault⟩, ⟨"BC2T", 265, cpiCopDefault⟩,
   ⟨"BC2FL", 266, cpiCopDefault⟩, ⟨"BC2TL", 267, cpiCopDefault⟩, ⟨"QMFC2", 260, cpiCopDefault⟩,
   ⟨"CFC2", 261, cpiCopDefault⟩, ⟨"QMTC2", 262, cpiCopDefault⟩, ⟨"CTC2", 263, cpiCopDefault⟩,
   ⟨"VADDAbc.0", 323, cpiCopDefault⟩, ⟨"VSUBAbc.0", 324, cpiCopDefault⟩, ⟨"VMADDAbc.0", 325, cpiCopDefault⟩,
   ⟨"VMSUBAbc.0", 326, cpiCopDefault⟩, ⟨"VITOF0", 327, cpiCopDefault⟩, ⟨"VFTOI0", 328, cpiCopDefault⟩,
   ⟨"VMULAbc.0", 329, cpiCopDefault⟩, ⟨"VMULAq", 330, cpiCopDefault⟩, ⟨"VADDAq", 331, cpiCopDefault⟩,
   ⟨"VSUBAq", 332, cpiCopDefault⟩, ⟨"VADDA", 333, cpiCopDefault⟩, ⟨"VSUBA", 334, cpiCopDefault⟩,
   ⟨"VMOVE", 335, cpiCopDefault⟩, ⟨"VLQI", 336, cpiCopDefault⟩, ⟨"VDIV", 337, cpiCopDefault⟩,
   ⟨"VMTIR", 338, cpiCopDefault⟩, ⟨"VRNEXT", 339, cpiCopDefault⟩, ⟨"VADDAbc.1", 340, cpiCopDefault⟩,
   ⟨"VSUBAbc.1", 341, cpiCopDefault⟩, ⟨"VMADDAbc.1", 342, cpiCopDefault⟩, ⟨"VMSUBAbc.1", 343, cpiCopDefault⟩,
   ⟨"VITOF4", 344, cpiCopDefault⟩, ⟨"VFTIO4", 345, cpiCopDefault⟩, ⟨"VMULAbc.1", 346, cpiCopDefault⟩,
   ⟨"VABS", 347, cpiCopDefault⟩, ⟨"VMADDAq", 348, cpiCopDefault⟩, ⟨"VMSUBAq", 349, cpiCopDefault⟩,
   ⟨"VMADDA", 350, cpiCopDefault⟩, ⟨"VMSUBA", 351, cpiCopDefault⟩, ⟨"VMR32", 352, cpiCopDefault⟩,
   ⟨"VSQI", 353, cpiCopDefault⟩, ⟨"VSQRT", 354, cpiCopDefault⟩, ⟨"VMFIR", 355, cpiCopDefault⟩,
   ⟨"VRGET", 356, cpiCopDefault⟩, ⟨"VADDAbc.2", 357, cpiCopDefault⟩, ⟨"VSUBAbc.2", 358, cpiCopDefault⟩,
   ⟨"VMADDAbc.2", 359, cpiCopDefault⟩, ⟨"VMSUBAbc.2", 360, cpiCopDefault⟩, ⟨"VITOF12", 361, cpiCopDefault⟩,
   ⟨"VFTIO12", 362, cpiCopDefault⟩, ⟨"VMULAbc.2", 363, cpiCopDefault⟩, ⟨"VMULAi", 364, cpiCopDefault⟩,
   ⟨"VADDAi", 365, cpiCopDefault⟩, ⟨"VSUBAi", 366, cpiCopDefault⟩, ⟨"VMULA", 367, cpiCopDefault⟩,
   ⟨"VOPMULA", 368, cpiCopDefault⟩, ⟨"VLQD", 369, cpiCopDefault⟩, ⟨"VRSQRT", 370, cpiCopDefault⟩,
   ⟨"VILWR", 371, cpiCopDefault⟩, ⟨"VRINIT", 372, cpiCopDefault⟩, ⟨"VADDAbc.3", 373, cpiCopDefault⟩,
   ⟨"VSUBAbc.3", 374, cpiCopDefault⟩, ⟨"VMADDAbc.3", 375, cpiCopDefault⟩, ⟨"VMSUBAbc.3", 376, cpiCopDefault⟩,
   ⟨"VITOF15", 377, cpiCopDefault⟩, ⟨"VFTIO15", 378, cpiCopDefault⟩, ⟨"VMULAbc.3", 379, cpiCopDefault⟩,
   ⟨"VCLIP", 380, cpiCopDefault⟩, ⟨"VMADDAi", 381, cpiCopDefault⟩, ⟨"VMSUBAi", 382, cpiCopDefault⟩,
   ⟨"VNOP", 383, cpiCopDefault⟩, ⟨"VSQD", 384, cpiCopDefault⟩, ⟨"VWAITQ", 385, cpiCopDefault⟩,
   ⟨"VISWR", 386, cpiCopDefault⟩, ⟨"VRXOR", 387, cpiCopDefault⟩, ⟨"VADDbc.0", 268, cpiCopDefault⟩,
   ⟨"VADDbc.1", 269, cpiCopDefault⟩, ⟨"VADDbc.2", 270, cpiCopDefault⟩, ⟨"VADDbc.3", 271, cpiCopDefault⟩,
   ⟨"VSUBbc.0", 272, cpiCopDefault⟩, ⟨"VSUBbc.1", 273, cpiCopDefault⟩, ⟨"VSUBbc.2", 274, cpiCopDefault⟩,
   ⟨"VSUBbc.3", 275, cpiCopDefault⟩, ⟨"VMADDbc.0", 276, cpiCopDefault⟩, ⟨"VMADDbc.1", 277, cpiCopDefault⟩,
   ⟨"VMADDbc.2", 278, cpiCopDefault⟩, ⟨"VMADDbc.3", 279, cpiCopDefault⟩, ⟨"VMSUBbc.0", 280, cpiCopDefault⟩,
   ⟨"VMSUBbc.1", 281, cpiCopDefault⟩, ⟨"VMSUBbc.2", 282, cpiCopDefault⟩, ⟨"VMSUBbc.3", 283, cpiCopDefault⟩,
   ⟨"VMAXbc.0", 284, cpiCopDefault⟩, ⟨"VMAXbc.1", 285, cpiCopDefault⟩, ⟨"VMAXbc.2", 286, cpiCopDefault⟩,
   ⟨"VMAXbc.3", 287, cpiCopDefault⟩, ⟨"VMINIbc.0", 288, cpiCopDefault⟩, ⟨"VMINIbc.1", 289, cpiCopDefault⟩,
   ⟨"VMINIbc.2", 290, cpiCopDefault⟩, ⟨"VMINIbc.3", 291, cpiCopDefault⟩, ⟨"VMULbc.0", 292, cpiCopDefault⟩,
   ⟨"VMULbc.1", 293, cpiCopDefault⟩, ⟨"VMULbc.2", 294, cpiCopDefault⟩, ⟨"VMULbc.3", 295, cpiCopDefault⟩,
   ⟨"VMULq", 296, cpiCopDefault⟩, ⟨"VMAXi", 297, cpiCopDefault⟩, ⟨"VMULi", 298, cpiCopDefault⟩,
   ⟨"VMINIi", 299, cpiCopDefault⟩, ⟨"VADDq", 300, cpiCopDefault⟩, ⟨"VMADDq", 301, cpiCopDefault⟩,
   ⟨"VADDi", 302, cpiCopDefault⟩, ⟨"VMADDi", 303, cpiCopDefault⟩, ⟨"VSUBq", 304, cpiCopDefault⟩,
   ⟨"VMSUBq", 305, cpiCopDefault⟩, ⟨"VSUBi", 306, cpiCopDefault⟩, ⟨"VMSUBi", 307, cpiCopDefault⟩,
   ⟨"VADD", 308, cpiCopDefault⟩, ⟨"VMADD", 309, cpiCopDefault⟩, ⟨"VMUL", 310, cpiCopDefault⟩,
   ⟨"VMAX", 311, cpiCopDefault⟩, ⟨"VSUB", 312, cpiCopDefault⟩, ⟨"VMSUB", 313, cpiCopDefault⟩,
   ⟨"VOPMSUB", 314, cpiCopDefault⟩, ⟨"VMINI", 315, cpiCopDefault⟩, ⟨"VIADD", 316, cpiCopDefault⟩,
   ⟨"VISUB", 317, cpiCopDefault⟩, ⟨"VIADDI", 318, cpiCopDefault⟩, ⟨"VIAND", 319, cpiCopDefault⟩,
   ⟨"VIOR", 320, cpiCopDefault⟩, ⟨"VCALLMS", 321, cpiCopDefault⟩, ⟨"VCALLMSR", 322, cpiCopDefault⟩,
   ⟨"J", 1, cpiR5900Branch⟩, ⟨"JAL", 2, cpiR5900Branch⟩, ⟨"BEQ", 3, cpiR5900Branch⟩, ⟨"BNE", 4, cpiR5900Branch⟩,
   ⟨"BLEZ", 5, cpiR5900Branch⟩, ⟨"BGTZ", 6, cpiR5900Branch⟩, ⟨"ADDI", 7, cpiR5900Default⟩,
   ⟨"ADDIU", 8, cpiR5900Default⟩, ⟨"SLTI", 9, cpiR5900Default⟩, ⟨"SLTIU", 10, cpiR5900Default⟩,
   ⟨"ANDI", 11, cpiR5900Default⟩, ⟨"ORI", 12, cpiR5900Default⟩, ⟨"XORI", 13, cpiR5900Default⟩,
   ⟨"LUI", 14, cpiR5900Default⟩, ⟨"BEQL", 15, cpiR5900Branch⟩, ⟨"BNEL", 16, cpiR5900Branch⟩,
   ⟨"BLEZL", 17, cpiR5900Branch⟩, ⟨"BGTZL", 18, cpiR5900Branch⟩, ⟨"DADDI", 19, cpiR5900Default⟩,
   ⟨"DADDIU", 20, cpiR5900Default⟩, ⟨"LDL", 21, cpiR5900Load⟩, ⟨"LDR", 22, cpiR5900Load⟩, ⟨"LQ", 23, cpiR5900Load⟩,
   ⟨"SQ", 24, cpiR5900Store⟩, ⟨"LB", 25, cpiR5900Load⟩, ⟨"LH", 26, cpiR5900Load⟩, ⟨"LWL", 27, cpiR5900Load⟩,
   ⟨"LW", 28, cpiR5900Load⟩, ⟨"LBU", 29, cpiR5900Load⟩, ⟨"LHU", 30, cpiR5900Load⟩, ⟨"LWR", 31, cpiR5900Load⟩,
   ⟨"LWU", 32, cpiR5900Load⟩, ⟨"SB", 33, cpiR5900Store⟩, ⟨"SH", 34, cpiR5900Store⟩, ⟨"SWL", 35, cpiR5900Store⟩,
   ⟨"SW", 36, cpiR5900Store⟩, ⟨"SDL", 37, cpiR5900Store⟩, ⟨"SDR", 38, cpiR5900Store⟩, ⟨"SWR", 39, cpiR5900Store⟩,
   ⟨"CACHE", 40, cpiR5900Default⟩, ⟨"LWC1", 41, cpiR5900Load⟩, ⟨"PREF", 42, cpiR5900Default⟩,
   ⟨"LQC2", 43, cpiR5900Load⟩, ⟨"LD", 44, cpiR5900Load⟩, ⟨"SWC1", 45, cpiR5900Store⟩, ⟨"SQC2", 46, cpiR5900Store⟩,
   ⟨"SD", 47, cpiR5900Store⟩]

/-! ### `lookup()` -/

/-- Opcode 0. -/
def special : SwitchTree Bitfield ℕ :=
  switch functField (rets [(0, 0), (2, 1), (3, 2), (4, 3), (6, 4), (7, 5), (8, 6), (9, 7), (10, 8), (11, 9), (12, 10), (13, 11), (15, 12),
    (16, 13), (17, 14), (18, 15), (19, 16), (20, 17), (22, 18), (23, 19), (24, 20), (25, 21), (26, 22), (27, 23),
    (32, 24), (33, 25), (34, 26), (35, 27), (36, 28), (37, 29), (38, 30), (39, 31), (40, 32), (41, 33), (42, 34),
    (43, 35), (44, 36), (45, 37), (46, 38), (47, 39), (48, 40), (49, 41), (50, 42), (51, 43), (52, 44), (54, 45),
    (56, 46), (58, 47), (59, 48), (60, 49), (62, 50), (63, 51)])

/-- Opcode 1. -/
def regimm : SwitchTree Bitfield ℕ :=
  switch rtField (rets [(0, 52), (1, 53), (2, 54), (3, 55), (8, 56), (9, 57), (10, 58), (11, 59), (12, 60), (14, 61), (16, 62),
    (17, 63), (18, 64), (19, 65), (24, 66), (25, 67)])

/-- Function 8 of opcode 28. -/
def mmi0 : SwitchTree Bitfield ℕ :=
  switch shamtField (rets [(0, 68), (1, 69), (2, 70), (3, 71), (4, 72), (5, 73), (6, 74), (7, 75), (8, 76), (9, 77), (10, 78), (16, 79),
    (17, 80), (18, 81), (19, 82), (20, 83), (21, 84), (22, 85), (23, 86), (24, 87), (25, 88), (26, 89), (27, 90),
    (30, 91), (31, 92)])

/-- Function 40. -/
def mmi1 : SwitchTree Bitfield ℕ :=
  switch shamtField (rets [(1, 93), (2, 94), (3, 95), (4, 96), (5, 97), (6, 98), (7, 99), (10, 100), (16, 101), (17, 102), (18, 103),
    (20, 104), (21, 105), (22, 106), (24, 107), (25, 108), (26, 109), (27, 110)])

/-- Function 9. -/
def mmi2 : SwitchTree Bitfield ℕ :=
  switch shamtField (rets [(0, 111), (2, 112), (3, 113), (4, 114), (8, 115), (9, 116), (10, 117), (12, 118), (13, 119), (14, 120),
    (16, 121), (17, 122), (18, 123), (19, 124), (20, 125), (21, 126), (26, 127), (27, 128), (28, 129), (29, 130),
    (30, 131), (31, 132)])

/-- Function 41. -/
def mmi3 : SwitchTree Bitfield ℕ :=
  switch shamtField (rets [(0, 133), (3, 134), (8, 135), (9, 136), (10, 137), (12, 138), (13, 139), (14, 140), (18, 141), (19, 142),
    (26, 143), (27, 144), (30, 145)])

/-- Opcode 28. -/
def mmi : SwitchTree Bitfield ℕ :=
  switch functField <|
    (8, mmi0) :: (40, mmi1) :: (9, mmi2) :: (41, mmi3) ::
    rets [(0, 146), (1, 147), (4, 148), (16, 149), (17, 150), (18, 151), (19, 152), (24, 153), (25, 154), (26, 155),
      (27, 156), (32, 157), (33, 158), (48, 159), (49, 160), (52, 161), (54, 162), (55, 163), (60, 164), (62, 165),
      (63, 166)]

/-- Opcode 16. -/
def cop0 : SwitchTree Bitfield ℕ :=
  switch rsField <|
    (8, switch rtField (rets [(0, 167), (1, 168), (2, 169), (3, 170)])) ::
    (16, switch functField (rets [(1, 171), (2, 172), (6, 173), (8, 174), (24, 175), (56, 176), (57, 177)])) ::
    rets [(0, 178), (4, 179)]

/-- Opcode 17. -/
def cop1 : SwitchTree Bitfield ℕ :=
  switch rsField <|
    (8, switch rtField (rets [(0, 180), (1, 181), (2, 182), (3, 183)])) ::
    (16, switch functField (rets [(0, 184), (1, 185), (2, 186), (3, 187), (4, 188), (5, 189), (6, 190), (7, 191), (21, 192), (23, 193), (24, 194),
      (25, 195), (27, 196), (28, 197), (29, 198), (30, 199), (35, 200), (39, 201), (40, 202), (47, 203), (49, 204),
      (51, 205), (53, 206)])) ::
    (20, switch functField (rets [(32, 207)])) ::
    rets [(0, 208), (2, 209), (4, 210), (6, 211)]

/-- Opcode 18 without `CO`. -/
def cop2Transfer : SwitchTree Bitfield ℕ :=
  switch destField <|
    (8, switch rtField (rets [(0, 212), (1, 213), (2, 214), (3, 215)])) ::
    rets [(1, 216), (2, 217), (5, 218), (6, 219)]

/-- Opcode 18 with `CO`. -/
def cop2Operation : SwitchTree Bitfield ℕ :=
  switch functField <|
    (60, switch shamtField (rets [(0, 220), (1, 221), (2, 222), (3, 223), (4, 224), (5, 225), (6, 226), (7, 227), (8, 228), (9, 229), (10, 230),
      (11, 231), (12, 232), (13, 233), (14, 234), (15, 235), (16, 236)])) ::
    (61, switch shamtField (rets [(0, 237), (1, 238), (2, 239), (3, 240), (4, 241), (5, 242), (6, 243), (7, 244), (8, 245), (9, 246), (10, 247),
      (11, 248), (12, 249), (13, 250), (14, 251), (15, 252), (16, 253)])) ::
    (62, switch shamtField (rets [(0, 254), (1, 255), (2, 256), (3, 257), (4, 258), (5, 259), (6, 260), (7, 261), (8, 262), (9, 263), (10, 264),
      (11, 265), (13, 266), (14, 267), (15, 268), (16, 269)])) ::
    (63, switch shamtField (rets [(0, 270), (1, 271), (2, 272), (3, 273), (4, 274), (5, 275), (6, 276), (7, 277), (8, 278), (9, 279), (11, 280),
      (13, 281), (14, 282), (15, 283), (16, 284)])) ::
    rets [(0, 285), (1, 286), (2, 287), (3, 288), (4, 289), (5, 290), (6, 291), (7, 292), (8, 293), (9, 294), (10, 295),
      (11, 296), (12, 297), (13, 298), (14, 299), (15, 300), (16, 301), (17, 302), (18, 303), (19, 304), (20, 305),
      (21, 306), (22, 307), (23, 308), (24, 309), (25, 310), (26, 311), (27, 312), (28, 313), (29, 314), (30, 315),
      (31, 316), (32, 317), (33, 318), (34, 319), (35, 320), (36, 321), (37, 322), (38, 323), (39, 324), (40, 325),
      (41, 326), (42, 327), (43, 328), (44, 329), (45, 330), (46, 331), (47, 332), (48, 333), (49, 334), (50, 335),
      (52, 336), (53, 337), (56, 338), (57, 339)]

/-- Opcode 18. -/
def cop2 : SwitchTree Bitfield ℕ := switch coField [(0, cop2Transfer), (1, cop2Operation)]

/-- The body of `lookup()`. -/
def lookupTree : SwitchTree Bitfield ℕ :=
  switch opcodeField <|
    (0, special) :: (1, regimm) :: (28, mmi) :: (16, cop0) :: (17, cop1) :: (18, cop2) ::
    rets [(2, 340), (3, 341), (4, 342), (5, 343), (6, 344), (7, 345), (8, 346), (9, 347), (10, 348), (11, 349), (12, 350),
      (13, 351), (14, 352), (15, 353), (20, 354), (21, 355), (22, 356), (23, 357), (24, 358), (25, 359), (26, 360),
      (27, 361), (30, 362), (31, 363), (32, 364), (33, 365), (34, 366), (35, 367), (36, 368), (37, 369), (38, 370),
      (39, 371), (40, 372), (41, 373), (42, 374), (43, 375), (44, 376), (45, 377), (46, 378), (47, 379), (49, 380),
      (51, 381), (54, 382), (55, 383), (57, 384), (62, 385), (63, 386)]

/-- `EECORE_INSTRUCTION_TABLE`. -/
def functions : List EeCoreFunction :=
  [.instructionUnknown, .j, .jal, .beq, .bne, .blez, .bgtz, .addi, .addiu, .slti, .sltiu, .andi, .ori, .xori, .lui,
   .beql, .bnel, .blezl, .bgtzl, .daddi, .daddiu, .ldl, .ldr, .lq, .sq, .lb, .lh, .lwl, .lw, .lbu, .lhu, .lwr, .lwu,
   .sb, .sh, .swl, .sw, .sdl, .sdr, .swr, .cache, .lwc1, .pref, .lqc2, .ld, .swc1, .lqc2, .sd, .sll, .srl, .sra,
   .sllv, .srlv, .srav, .jr, .jalr, .movz, .movn, .syscall, .break_, .syncStype, .mfhi, .mthi, .mflo, .mtlo, .dsllv,
   .dsrlv, .dsrav, .mult, .multu, .div, .divu, .add, .addu, .sub, .subu, .and, .or, .xor, .nor, .mfsa, .mtsa, .slt,
   .sltu, .dadd, .daddu, .dsub, .dsubu, .tge, .tgeu, .tlt, .tltu, .teq, .tne, .dsll, .dsrl, .dsra, .dsll32, .dsrl32,
   .dsra32, .bltz, .bgez, .bltzl, .bgezl, .tgei, .tgeiu, .tlti, .tltiu, .teqi, .tnei, .bltzal, .bgezal, .bltzall,
   .bgezall, .mtsab, .mtsah, .madd, .maddu, .plzcw, .mfhi1, .mthi1, .mflo1, .mtlo1, .mult1, .multu1, .div1, .divu1,
   .madd1, .maddu1, .pmfhl, .pmthl_lw, .psllh, .psrlh, .psrah, .psllw, .psrlw, .psraw, .paddw, .psubw, .pcgtw, .pmaxw,
   .paddh, .psubh, .pcgth, .pmaxh, .paddb, .psubb, .pcgtb, .paddsw, .psubsw, .pextlw, .ppacw, .paddsh, .psubsh,
   .pextlh, .ppach, .paddsb, .psubsb, .pextlb, .ppacb, .pext5, .ppac5, .pabsw, .pceqw, .pminw, .padsbh, .pabsh,
   .pceqh, .pminh, .pceqb, .padduw, .psubuw, .pextuw, .padduh, .psubuh, .pextuh, .paddub, .psubub, .pextub, .qfsrv,
   .pmaddw, .psllvw, .psrlvw, .pmsubw, .pmfhi, .pmflo, .pinth, .pmultw, .pdivw, .pcpyld, .pmaddh, .phmadh, .pand,
   .pxor, .pmsubh, .phmsbh, .pexeh, .prevh, .pmulth, .pdivbw, .pexew, .prot3w, .pmadduw, .psravw, .pmthi, .pmtlo,
   .pinteh, .pmultuw, .pdivuw, .pcpyud, .por, .pnor, .pexch, .pcpyh, .pexcw, .mfc0, .mtc0, .bc0f, .bc0t, .bc0fl,
   .bc0tl, .tlbr, .tlbwi, .tlbwr, .tlbp, .eret, .ei, .di, .mfc1, .cfc1, .mtc1, .ctc1, .bc1f, .bc1t, .bc1fl, .bc1tl,
   .add_s, .sub_s, .mul_s, .div_s, .sqrt_s, .abs_s, .mov_s, .neg_s, .rsqrt_s, .adda_s, .suba_s, .mula_s, .madd_s,
   .msub_s, .madda_s, .msuba_s, .cvt_w_s, .max_s, .min_s, .c_f_s, .c_eq_s, .c_lt_s, .c_le_s, .cvt_s_w, .qmfc2, .cfc2,
   .qmtc2, .ctc2, .bc2f, .bc2t, .bc2fl, .bc2tl, .vaddbc_0, .vaddbc_1, .vaddbc_2, .vaddbc_3, .vsubbc_0, .vsubbc_1,
   .vsubbc_2, .vsubbc_3, .vmaddbc_0, .vmaddbc_1, .vmaddbc_2, .vmaddbc_3, .vmsubbc_0, .vmsubbc_1, .vmsubbc_2,
   .vmsubbc_3, .vmaxbc_0, .vmaxbc_1, .vmaxbc_2, .vmaxbc_3, .vminibc_0, .vminibc_1, .vminibc_2, .vminibc_3, .vmulbc_0,
   .vmulbc_1, .vmulbc_2, .vmulbc_3, .vmulq, .vmaxi, .vmuli, .vminii, .vaddq, .vmaddq, .vaddi, .vmaddi, .vsubq,
   .vmsubq, .vsubi, .vmsubi, .vadd, .vmadd, .vmul, .vmax, .vsub, .vmsub, .vopmsub, .vmini, .viadd, .visub, .viaddi,
   .viand, .vior, .vcallms, .vcallmsr, .vaddabc_0, .vsubabc_0, .vmaddabc_0, .vmsubabc_0, .vitof0, .vftoi0, .vmulabc_0,
   .vmulaq, .vaddaq, .vsubaq, .vadda, .vsuba, .vmove, .vlqi, .vdiv, .vmtir, .vrnext, .vaddabc_1, .vsubabc_1,
   .vmaddabc_1, .vmsubabc_1, .vitof4, .vftoi4, .vmulabc_1, .vabs, .vmaddaq, .vmsubaq, .vmadda, .vmsuba, .vmr32, .vsqi,
   .vsqrt, .vmfir, .vrget, .vaddabc_2, .vsubabc_2, .vmaddabc_2, .vmsubabc_2, .vitof12, .vftoi12, .vmulabc_2, .vmulai,
   .vaddai, .vsubai, .vmula, .vopmula, .vlqd, .vrsqrt, .vilwr, .vrinit, .vaddabc_3, .vsubabc_3, .vmaddabc_3,
   .vmsubabc_3, .vitof15, .vftoi15, .vmulabc_3, .vclip, .vmaddai, .vmsubai, .vnop, .vsqd, .vwaitq, .viswr, .vrxor]

/-- The tables of the EE core. -/
def instructionSet : InstructionSet EeCoreFunction where
  lookupTree
  rows
  functions
  separated := separated_of_distinct (by decide +kernel)
  fits := by decide +kernel
  returns := by decide +kernel
  implIndex_lt := by decide +kernel

/-! ### What the tables say -/

/-- What is found by going through the tables once. -/
structure Tables where
  /-- The index of a row in the table of functions. -/
  implIndexAt : ℕ → ℕ
  /-- The rows have these indices. -/
  implIndex : rows.map MipsInstructionInfo.implIndex = (List.range 387).map implIndexAt
  /-- They are in runs. -/
  runs : (List.range 387).map implIndexAt =
    List.range' 48 68 ++ List.range' 137 78 ++ List.range' 116 21 ++ List.range' 217 11 ++
      List.range' 215 2 ++ List.range' 232 28 ++ List.range' 228 4 ++ List.range' 264 4 ++
      List.range' 260 4 ++ List.range' 323 65 ++ List.range' 268 55 ++ List.range' 1 47
  /-- The functions are in the order of their type, but for `LQC2` in the place of `SQC2`. -/
  functions : functions.map EeCoreFunction.ctorIdx = (List.range 388).set 46 43
  /-- The functions by their number. -/
  ofNat : ∀ j < 388, (EeCoreFunction.ofNat j).ctorIdx = j
  /-- Where the rows of `LQC2` and `SQC2` are returned. -/
  quadwords : ([(opcodeField, 54)], 382) ∈ lookupTree.paths ∧ ([(opcodeField, 62)], 385) ∈ lookupTree.paths

/-- The tables, entry by entry. -/
def tables : Tables where
  implIndexAt i :=
    if i < 68 then i + 48 else if i < 146 then i + 69 else if i < 167 then i - 30 else if i < 178 then i + 50
    else if i < 180 then i + 37 else if i < 208 then i + 52 else if i < 212 then i + 20 else if i < 216 then i + 52
    else if i < 220 then i + 44 else if i < 285 then i + 103 else if i < 340 then i - 17 else i - 339
  implIndex := by decide +kernel
  runs := by decide +kernel
  functions := by decide +kernel
  ofNat := by decide +kernel
  quadwords := by decide +kernel

theorem length_rows : rows.length = 387 := by
  have h := congrArg List.length tables.implIndex
  rwa [List.length_map, List.length_map, List.length_range] at h

theorem implIndex_getElem {i : ℕ} (hi : i < rows.length) : rows[i].implIndex = tables.implIndexAt i := by
  have h := congrArg (·[i]?) tables.implIndex
  rw [List.getElem?_map, List.getElem?_map, List.getElem?_eq_getElem hi,
    List.getElem?_eq_getElem (by rwa [List.length_range, ← length_rows]), List.getElem_range] at h
  exact Option.some.inj h

theorem implIndex_nodup : (rows.map MipsInstructionInfo.implIndex).Nodup := by
  rw [tables.implIndex, tables.runs]
  repeat' apply List.Nodup.append
  all_goals first
    | exact List.nodup_range'
    | intro k
      simp only [List.mem_append, List.mem_range'_1]
      omega

/-- No row has index 0, and every other index has one. -/
theorem mem_implIndex_iff (k : ℕ) : k ∈ rows.map MipsInstructionInfo.implIndex ↔ 0 < k ∧ k < 388 := by
  rw [tables.implIndex, tables.runs]
  simp only [List.mem_append, List.mem_range'_1]
  omega

/-! ### One pattern for each function -/

theorem ctorIdx_lt (f : EeCoreFunction) : f.ctorIdx < 388 := by
  cases f <;> decide

/-- Where a function is in the table. -/
theorem functions_getElem?_iff (f : EeCoreFunction) (j : ℕ) :
    functions[j]? = some f ↔ if j = 46 then f = .lqc2 else j = f.ctorIdx := by
  have hinj : Function.Injective EeCoreFunction.ctorIdx := Function.LeftInverse.injective EeCoreFunction.ofNat_ctorIdx
  have hlt := ctorIdx_lt f
  rw [getElem?_eq_some_iff_map hinj, tables.functions, List.getElem?_set]
  by_cases h : j = 46
  · subst h
    simp only [List.length_range, if_true, if_pos (by decide : 46 < 388), Option.some.injEq]
    exact ⟨fun h => hinj h.symm, fun h => by rw [h]; rfl⟩
  · rw [if_neg (fun h' => h h'.symm), if_neg h, List.getElem?_eq_some_iff]
    simp only [List.getElem_range, List.length_range]
    grind

/-- The function of a row. -/
def functionAt (i : ℕ) : Option EeCoreFunction :=
  if 387 ≤ i then none else if tables.implIndexAt i = 46 then some .lqc2 else some (.ofNat (tables.implIndexAt i))

theorem function_eq (i : ℕ) : instructionSet.function i = functionAt i := by
  have hlen := length_rows
  rw [functionAt, InstructionSet.function, show instructionSet.rows = rows from rfl,
    show instructionSet.functions = functions from rfl]
  by_cases hi : 387 ≤ i
  · rw [List.getElem?_eq_none (by omega), if_pos hi]
    rfl
  · have hrow := implIndex_getElem (i := i) (by omega)
    have hlt : tables.implIndexAt i < 388 := by
      rw [← hrow]
      exact ((mem_implIndex_iff _).mp (List.mem_map_of_mem (List.getElem_mem _))).2
    rw [List.getElem?_eq_getElem (by omega), Option.bind_some, hrow, if_neg hi]
    split_ifs with h46
    · exact (functions_getElem?_iff _ _).mpr (by rw [if_pos h46])
    · refine (functions_getElem?_iff _ _).mpr ?_
      rw [if_neg h46, tables.ofNat _ hlt]

theorem function_eq_some_lqc2_iff {i : ℕ} (hi : i < rows.length) :
    instructionSet.function i = some .lqc2 ↔ i = 382 ∨ i = 385 := by
  have hlen := length_rows
  have hinj {j : ℕ} (hj : j < rows.length) (h : tables.implIndexAt i = tables.implIndexAt j) : i = j := by
    rw [← implIndex_getElem hi, ← implIndex_getElem hj] at h
    exact (implIndex_nodup.of_map _).getElem_inj_iff.mp
      (List.inj_on_of_nodup_map implIndex_nodup (List.getElem_mem hi) (List.getElem_mem hj) h)
  rw [InstructionSet.function, show instructionSet.rows = rows from rfl, List.getElem?_eq_getElem hi, Option.bind_some,
    show instructionSet.functions = functions from rfl, functions_getElem?_iff, implIndex_getElem hi]
  constructor
  · intro h
    by_cases h46 : tables.implIndexAt i = 46
    · exact .inr (hinj (by rw [hlen]; decide) (h46.trans (by decide)))
    · rw [if_neg h46] at h
      exact .inl (hinj (by rw [hlen]; decide) (h.trans (by decide)))
  · rintro (rfl | rfl)
    · decide
    · decide

/-- `LQC2` runs for its own opcode and for that of `SQC2`. -/
theorem dispatch_eq_lqc2_iff (inst : EeCoreInstruction) :
    instructionSet.dispatch inst.value = .ok .lqc2 ↔ inst.opcode = 54 ∨ inst.opcode = 62 := by
  have hload : instructionSet.index inst.value = some 382 ↔ inst.opcode = 54 := by
    rw [InstructionSet.index_eq_some_iff (S := instructionSet) tables.quadwords.1]
    simp [SwitchTree.Follows, SwitchTree.fields, opcode]
  have hstore : instructionSet.index inst.value = some 385 ↔ inst.opcode = 62 := by
    rw [InstructionSet.index_eq_some_iff (S := instructionSet) tables.quadwords.2]
    simp [SwitchTree.Follows, SwitchTree.fields, opcode]
  rw [← hload, ← hstore, InstructionSet.dispatch_eq_ok_iff]
  constructor
  · rintro ⟨i, hi, hf⟩
    obtain rfl | rfl := (function_eq_some_lqc2_iff (InstructionSet.lt_of_index hi)).mp hf
    · exact .inl hi
    · exact .inr hi
  · rintro (h | h)
    · exact ⟨382, h, (function_eq_some_lqc2_iff (by rw [length_rows]; decide)).mpr (.inl rfl)⟩
    · exact ⟨385, h, (function_eq_some_lqc2_iff (by rw [length_rows]; decide)).mpr (.inr rfl)⟩

/-- `INSTRUCTION_UNKNOWN` and `SQC2` never run, `LQC2` runs for opcodes 54 and 62, and every other function runs for the
words that match one pattern, of which there are some. A word without a function is one that `lookup()` throws for. -/
theorem ee_dispatch_patterns :
    (∀ w, instructionSet.dispatch w ≠ .ok .instructionUnknown) ∧ (∀ w, instructionSet.dispatch w ≠ .ok .sqc2) ∧
      (∀ inst : EeCoreInstruction,
        instructionSet.dispatch inst.value = .ok .lqc2 ↔ inst.opcode = 54 ∨ inst.opcode = 62) ∧
      (∀ f : EeCoreFunction, f ≠ .instructionUnknown → f ≠ .sqc2 → f ≠ .lqc2 →
        ∃ p : Pattern, p.Matches p.value ∧ ∀ w, instructionSet.dispatch w = .ok f ↔ p.Matches w) ∧
      ∀ w e, instructionSet.dispatch w = .error e → e = .runtimeError "Could not determine instruction" := by
  have hinj : Function.Injective EeCoreFunction.ctorIdx := Function.LeftInverse.injective EeCoreFunction.ofNat_ctorIdx
  refine ⟨InstructionSet.dispatch_ne fun info hinfo hget => ?_, InstructionSet.dispatch_ne fun info hinfo hget => ?_,
    dispatch_eq_lqc2_iff, fun f hunknown hstore hload => ?_, fun w e he => (InstructionSet.dispatch_eq_error he).2⟩
  · have hpos := (mem_implIndex_iff _).mp (List.mem_map_of_mem hinfo)
    have hidx := (functions_getElem?_iff _ _).mp hget
    split_ifs at hidx
    rw [hidx] at hpos
    exact absurd hpos.1 (by decide)
  · have hidx := (functions_getElem?_iff _ _).mp hget
    split_ifs at hidx with h46
    exact h46 hidx
  · have hpos : 0 < f.ctorIdx := Nat.pos_of_ne_zero fun h0 => hunknown (hinj h0)
    have hne : f.ctorIdx ≠ 46 := fun h46 => hstore (hinj h46)
    obtain ⟨i, hi, hrow⟩ := InstructionSet.exists_row (S := instructionSet) (k := f.ctorIdx) implIndex_nodup
      ((mem_implIndex_iff _).mpr ⟨hpos, ctorIdx_lt f⟩) fun j => by
        rw [show instructionSet.functions = functions from rfl, functions_getElem?_iff]
        by_cases h46 : j = 46
        · rw [if_pos h46, h46]
          exact iff_of_false hload hne.symm
        · rw [if_neg h46]
    exact InstructionSet.exists_pattern_dispatch hi hrow

end EeCoreInstruction

end Orbum
