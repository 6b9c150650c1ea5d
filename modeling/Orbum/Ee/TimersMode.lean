import Orbum.Common.Bitfield

/-!
# The mode registers of the EE timers

`EeTimersUnitRegister_Mode` of `EeTimersUnitRegisters.cpp`: the fields that configure a timer, and two flags that a
write of 1 clears.

A write from the EE merges the flags into the old value of the register instead of the written one, so the configuration
stays what it is. Over a run of writes a guest can clear flags and nothing else.
-/

namespace Orbum

/-- `EeTimersUnitRegister_Mode`. -/
structure EeTimersUnitRegisterMode where
  /-- The register itself. -/
  value : Uword
  /-- The timer is to be reset. -/
  writeLatch : Bool
  deriving DecidableEq

namespace EeTimersUnitRegisterMode

/-- `CLKS`. -/
def clks : Bitfield := ⟨0, 2⟩

/-- `GATE`. -/
def gate : Bitfield := ⟨2, 1⟩

/-- `GATS`. -/
def gats : Bitfield := ⟨3, 1⟩

/-- `GATM`. -/
def gatm : Bitfield := ⟨4, 2⟩

/-- `ZRET`. -/
def zret : Bitfield := ⟨6, 1⟩

/-- `CUE`. -/
def cue : Bitfield := ⟨7, 1⟩

/-- `CMPE`. -/
def cmpe : Bitfield := ⟨8, 1⟩

/-- `OVFE`. -/
def ovfe : Bitfield := ⟨9, 1⟩

/-- `EQUF`. -/
def equf : Bitfield := ⟨10, 1⟩

/-- `OVFF`. -/
def ovff : Bitfield := ⟨11, 1⟩

/-- The fields a write replaces. -/
def configuration : List Bitfield := [clks, gate, gats, gatm, zret, cue, cmpe, ovfe]

/-- The flags a write of 1 clears. -/
def flags : List Bitfield := [equf, ovff]

/-- `byte_bus_write_uword(context, offset, value)`. -/
def busWriteUword (m : EeTimersUnitRegisterMode) (context : BusContext) (value : Uword) : EeTimersUnitRegisterMode :=
  let temp :=
    if context = .ee then
      let regValue := m.value
      (regValue &&& 0xFFFFF3FF) ||| ((regValue &&& 0xC00) &&& ~~~(value &&& 0xC00))
    else value
  { value := temp, writeLatch := true }

variable (m : EeTimersUnitRegisterMode) (v : Uword)

/-! ### One write -/

/-- A write from the EE clears the flags that are written as 1, and keeps every other bit. -/
theorem getLsbD_busWriteUword (i : ℕ) :
    (m.busWriteUword .ee v).value.getLsbD i =
      (m.value.getLsbD i && !(decide (i = 10 ∨ i = 11) && v.getLsbD i)) := by
  by_cases hi : i < 32
  · have hkeep : ∀ i < 32, (0xFFFFF3FF : Uword).getLsbD i = !decide (i = 10 ∨ i = 11) := by decide
    have hflags : ∀ i < 32, (0xC00 : Uword).getLsbD i = decide (i = 10 ∨ i = 11) := by decide
    simp only [busWriteUword, if_true, BitVec.getLsbD_or, BitVec.getLsbD_and, BitVec.getLsbD_not, hkeep i hi, hflags i hi]
    cases m.value.getLsbD i <;> cases decide (i = 10 ∨ i = 11) <;> simp [hi]
  · simp [BitVec.getLsbD_of_ge _ i (Nat.le_of_not_lt hi)]

/-- The fields the write should replace are kept. -/
theorem extractFrom_configuration {f : Bitfield} (hf : f ∈ configuration) :
    f.extractFrom (m.busWriteUword .ee v).value = f.extractFrom m.value := by
  have hend : f.start + f.length ≤ 10 := by
    revert f
    decide
  apply BitVec.eq_of_getLsbD_eq
  intro i _
  rw [Bitfield.getLsbD_extractFrom, Bitfield.getLsbD_extractFrom, getLsbD_busWriteUword]
  by_cases hi : i < f.length
  · have hne : ¬(f.start + i = 10 ∨ f.start + i = 11) := by omega
    simp [hne]
  · simp [hi]

theorem extractFrom_bit_eq_one_iff (n : ℕ) : Bitfield.extractFrom ⟨n, 1⟩ v = 1 ↔ v.getLsbD n = true := by
  rw [← Bitfield.zero_lt_extractFrom_bit_iff]
  have hlt : (Bitfield.extractFrom ⟨n, 1⟩ v).toNat < 2 ^ 1 := Bitfield.toNat_extractFrom_lt ⟨n, 1⟩ v
  rw [← BitVec.toNat_inj, BitVec.lt_def, show (0 : Uword).toNat = 0 from rfl, show (1 : Uword).toNat = 1 from rfl]
  omega

/-- The flags are cleared by a 1 and kept by a 0. -/
theorem extractFrom_flags {f : Bitfield} (hf : f ∈ flags) :
    f.extractFrom (m.busWriteUword .ee v).value = if f.extractFrom v = 1 then 0 else f.extractFrom m.value := by
  obtain ⟨n, rfl, hn⟩ : ∃ n, f = ⟨n, 1⟩ ∧ (n = 10 ∨ n = 11) := by
    simp only [flags, List.mem_cons, List.not_mem_nil, or_false] at hf
    rcases hf with rfl | rfl
    · exact ⟨10, rfl, .inl rfl⟩
    · exact ⟨11, rfl, .inr rfl⟩
  simp only [extractFrom_bit_eq_one_iff]
  split_ifs with hv
  · rw [Bitfield.extractFrom_bit_eq_zero_iff, getLsbD_busWriteUword]
    simp [hn, hv]
  · apply BitVec.eq_of_getLsbD_eq
    intro i _
    rw [Bitfield.getLsbD_extractFrom, Bitfield.getLsbD_extractFrom, getLsbD_busWriteUword]
    rcases Nat.eq_zero_or_pos i with rfl | hi
    · simp [hn, hv]
    · simp [Nat.not_lt.mpr hi]

/-- What a write should do: the configuration is replaced, the flags written as 1 are cleared and the others kept. -/
def Reconfigures : Prop :=
  (∀ f ∈ configuration, f.extractFrom (m.busWriteUword .ee v).value = f.extractFrom v) ∧
    ∀ f ∈ flags, f.extractFrom (m.busWriteUword .ee v).value =
      if f.extractFrom v = 1 then 0 else f.extractFrom m.value

instance : Decidable (Reconfigures m v) := inferInstanceAs (Decidable (_ ∧ _))

/-- A write does what it should if and only if it asks for the configuration the timer already has. -/
theorem reconfigures_iff (m : EeTimersUnitRegisterMode) (v : Uword) :
    Reconfigures m v ↔ ∀ f ∈ configuration, f.extractFrom v = f.extractFrom m.value := by
  constructor
  · rintro ⟨hconf, -⟩ f hf
    rw [← hconf f hf, extractFrom_configuration m v hf]
  · intro h
    exact ⟨fun f hf => (extractFrom_configuration m v hf).trans (h f hf).symm, fun f hf => extractFrom_flags m v hf⟩

/-- A timer that is stopped cannot be started: a write of 0x80 leaves `CUE` clear. -/
theorem not_reconfigures_start : ¬Reconfigures ⟨0, false⟩ 0x80 := by decide

/-! ### Runs of writes -/

/-- Whatever the EE writes, a timer keeps the configuration it has. -/
theorem configuration_run (vs : List Uword) {f : Bitfield} (hf : f ∈ configuration) :
    f.extractFrom (vs.foldl (fun m v => m.busWriteUword .ee v) m).value = f.extractFrom m.value := by
  induction vs generalizing m with
  | nil => rfl
  | cons v vs ih => rw [List.foldl_cons, ih, extractFrom_configuration m v hf]

end EeTimersUnitRegisterMode

end Orbum
