import Orbum.Ee.Core.Interpreter.Lookup
import Orbum.Iop.Core.Lookup

/-!
# Instructions of both cores

`EeCoreInstruction::lookup` and `IopCoreInstruction::lookup` are written apart. The EE runs the instructions of MIPS I too,
so that for a word of such an instruction the two have to agree: they return rows with one mnemonic and one `cpi`. They
do for all that the IOP has but those of `ownMnemonics`.
-/

namespace Orbum

namespace IopCoreInstruction

open SwitchTree EeCoreInstruction

/-- `RS` is `CO` and `DEST`, as coprocessor 2 of the EE has it. -/
def withHalves (p : List (Bitfield × ℕ)) : List (Bitfield × ℕ) :=
  p ++ (p.lookup rsField).elim [] fun n => [(coField, n / 16), (destField, n % 16)]

/-- The row of the EE has the same mnemonic. -/
def SameMnemonic (info : MipsInstructionInfo) (j : ℕ) : Prop :=
  (EeCoreInstruction.rows[j]?.map MipsInstructionInfo.mnemonic) = some info.mnemonic

instance (info : MipsInstructionInfo) (j : ℕ) : Decidable (SameMnemonic info j) := inferInstanceAs (Decidable (_ = _))

/-- The EE has no such row for the words of the path. -/
def Own (p : List (Bitfield × ℕ)) (info : MipsInstructionInfo) : Prop :=
  ∀ j ∈ EeCoreInstruction.lookupTree.reach (withHalves p), ¬SameMnemonic info j

instance (p : List (Bitfield × ℕ)) (info : MipsInstructionInfo) : Decidable (Own p info) :=
  inferInstanceAs (Decidable (∀ j ∈ _, _))

/-- The EE has such a row for the words of the path. -/
def Shared (p : List (Bitfield × ℕ)) (info : MipsInstructionInfo) : Prop :=
  ∃ j ∈ EeCoreInstruction.lookupTree.along (withHalves p), ∃ info' ∈ EeCoreInstruction.rows[j]?,
    info'.mnemonic = info.mnemonic ∧ info'.cpi = info.cpi

instance (p : List (Bitfield × ℕ)) (info : MipsInstructionInfo) : Decidable (Shared p info) :=
  inferInstanceAs (Decidable (∃ j ∈ _, _))

/-- The instructions of the IOP that are not of the EE: the coprocessors differ, and `BLTZAL` and `BGEZAL` are not where
the EE has `BLTZAL` and `TGEZAL`. All the others are of both. -/
def ownMnemonics : { own : List String // ∀ p ∈ lookupTree.paths, ∀ info ∈ rows[p.2]?,
    if info.mnemonic ∈ own then Own p.1 info else Shared p.1 info } where
  val :=
    ["BLTZAL", "BGEZAL", "CFC0", "CTC0", "RFE", "MFC2", "MTC2", "RTPS", "NCLIP", "OP", "DPCS", "INTPL", "MVMVA", "NCDS",
     "CDP", "NCDT", "NCCS", "CC", "NCS", "NCT", "SQR", "DCPL", "DPCT", "AVSZ3", "AVSZ4", "RTPT", "GPF", "GPL", "LWC2",
     "SWC2"]
  property := by decide +kernel

/-- `CO` and `DEST` are halves of `RS`. -/
theorem fields_halves (w : Uword) :
    fields w coField = fields w rsField / 16 ∧ fields w destField = fields w rsField % 16 := by
  simp only [fields, Bitfield.toNat_extractFrom, coField, destField, rsField]
  omega

/-- A word on the path is on what the path says of its halves. -/
theorem follows_withHalves {p : List (Bitfield × ℕ)} {w : Uword} (hf : Follows (fields w) p) :
    Follows (fields w) (withHalves p) := by
  intro c hc
  rw [withHalves, List.mem_append] at hc
  obtain hc | hc := hc
  · exact hf c hc
  · cases hn : p.lookup rsField with
    | none =>
      rw [hn] at hc
      cases hc
    | some n =>
      obtain ⟨hco, hdest⟩ := fields_halves w
      rw [hf.eq_of_lookup hn] at hco hdest
      rw [hn, Option.elim_some, List.mem_cons, List.mem_singleton] at hc
      obtain rfl | rfl := hc
      · exact hco
      · exact hdest

/-- A word that the IOP has an instruction for is one of the EE with the same mnemonic and `cpi`, unless the instruction
is one of the IOP alone, where the EE has either another one or none. -/
theorem lookups_agree {w : Uword} {info : MipsInstructionInfo} (h : instructionSet.lookup w = .ok info) :
    (info.mnemonic ∉ ownMnemonics.val → ∃ info', EeCoreInstruction.instructionSet.lookup w = .ok info' ∧
      info'.mnemonic = info.mnemonic ∧ info'.cpi = info.cpi) ∧
    (info.mnemonic ∈ ownMnemonics.val → ∀ info', EeCoreInstruction.instructionSet.lookup w = .ok info' →
      info'.mnemonic ≠ info.mnemonic) := by
  obtain ⟨i, hi, hinfo⟩ := InstructionSet.lookup_eq_ok_iff.mp h
  obtain ⟨p, hp, hf⟩ := exists_path hi
  have hrow := ownMnemonics.property (p, i) hp info hinfo
  have hf := follows_withHalves hf
  constructor
  · intro hmem
    rw [if_neg hmem] at hrow
    obtain ⟨j, hj, info', hinfo', heq⟩ := hrow
    exact ⟨info', InstructionSet.lookup_eq_ok_iff.mpr ⟨j, eval_of_along hf hj, hinfo'⟩, heq⟩
  · intro hmem info' h' heq
    rw [if_pos hmem] at hrow
    obtain ⟨j, hj, hinfo'⟩ := InstructionSet.lookup_eq_ok_iff.mp h'
    refine hrow j (mem_reach_of_eval hf hj) ?_
    rw [SameMnemonic, show EeCoreInstruction.rows[j]? = some info' from hinfo', ← heq]
    rfl

/-- `ADDIU` on both. -/
theorem lookups_agree_addiu : ∃ info',
    EeCoreInstruction.instructionSet.lookup 0x24420001 = .ok info' ∧ info'.mnemonic = "ADDIU" ∧ info'.cpi = 9 := by
  have h : instructionSet.lookup 0x24420001 = .ok ⟨"ADDIU", 8, 9⟩ := by decide +kernel
  exact (lookups_agree h).1 (by decide +kernel)

end IopCoreInstruction

end Orbum
