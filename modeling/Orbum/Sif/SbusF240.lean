import Orbum.Common.Primitive
import Orbum.Lib.Lanes

/-!
# The SBUS F240 register

`Resources/SbusRegisters.cpp`: reads of SBUS_F240 set bits that are not stored, and writes set, clear and toggle bits by
the bus they come from. There is a function for halfwords and one for words each.

The halfword functions know the bus of the IOP only. On that of the EE a halfword is the storage itself.
-/

namespace Orbum

/-- `SbusRegister_F240`. -/
structure SbusRegisterF240 where
  /-- The storage. -/
  w : Uword
  deriving DecidableEq

namespace SbusRegisterF240

variable (r : SbusRegisterF240)

/-- `read_uhword(offset)`, `offset` in halfwords. -/
def readUhword (offset : ℕ) : Uhword := Lanes.lane 16 offset r.w

/-- `write_uhword(offset, value)`, `offset` in halfwords. -/
def writeUhword (offset : ℕ) (value : Uhword) : SbusRegisterF240 := ⟨Lanes.setLane offset r.w value⟩

/-- `offset / NUMBER_BYTES_IN_HWORD`. -/
def hwordIndex (offset : ℕ) : ℕ := offset / 2

/-- `byte_bus_read_uhword(context, offset)`. -/
def byteBusReadUhword (context : BusContext) (offset : ℕ) : Uhword :=
  if context = .iop ∧ offset = 0 then r.readUhword 0 ||| 0x2 else r.readUhword (hwordIndex offset)

/-- `byte_bus_read_uword(context, offset)`. -/
def byteBusReadUword (context : BusContext) : Uword :=
  if context = .ee then r.w ||| 0xF0000102 else if context = .iop then r.w ||| 0xF0000002 else r.w

/-- What a write of the IOP makes of a value of the register. The functions for the two widths differ in the width
alone. -/
def iopWrite {n : ℕ} (old value : BitVec n) : BitVec n :=
  let temp := value &&& 0xF0
  let old := if value &&& 0x20 ≠ 0 ∨ value &&& 0x80 ≠ 0 then old &&& ~~~0xF000 else old
  let old := if value &&& 0x20 ≠ 0 ∨ value &&& 0x80 ≠ 0 then old ||| 0x2000 else old
  if old &&& temp ≠ 0 then old &&& ~~~temp else old ||| temp

/-- `byte_bus_write_uhword(context, offset, value)`. -/
def byteBusWriteUhword (context : BusContext) (offset : ℕ) (value : Uhword) : SbusRegisterF240 :=
  if context = .iop ∧ offset = 0 then r.writeUhword 0 (iopWrite (r.readUhword 0) value)
  else r.writeUhword (hwordIndex offset) value

/-- `byte_bus_write_uword(context, offset, value)`. -/
def byteBusWriteUword (context : BusContext) (value : Uword) : SbusRegisterF240 :=
  if context = .ee then ⟨(r.w &&& 0xFFFFFEFF) ||| (value &&& 0x100)⟩
  else if context = .iop then ⟨iopWrite r.w value⟩
  else ⟨value⟩

/-! ### One width and the other -/

/-- What a halfword access at offset 0 should have to do with a word access. -/
structure WidthsAgree (context : BusContext) (value : Uword) : Prop where
  /-- It reads the low half of the word. -/
  read : r.byteBusReadUhword context 0 = Lanes.lane 16 0 (r.byteBusReadUword context)
  /-- It leaves the low half that the word leaves. -/
  write : Lanes.lane 16 0 (r.byteBusWriteUhword context 0 (Lanes.lane 16 0 value)).w =
    Lanes.lane 16 0 (r.byteBusWriteUword context value).w
  /-- It keeps the upper half. -/
  upper : Lanes.lane 16 1 (r.byteBusWriteUhword context 0 (Lanes.lane 16 0 value)).w = Lanes.lane 16 1 r.w

/-- The bits that a read of the EE sets are there, and the write changes no bit of the low half but bit 8. -/
def EeAgrees (value : Uword) : Prop := r.w &&& 0x102 = 0x102 ∧ (r.w ^^^ value) &&& 0xFEFF = 0

instance (value : Uword) : Decidable (r.EeAgrees value) := inferInstanceAs (Decidable (_ ∧ _))

variable {r}

/-- Words with the same upper half. -/
theorem lane_zero_eq_iff {u v : Uword} (h : Lanes.lane 16 1 u = Lanes.lane 16 1 v) :
    Lanes.lane 16 0 u = Lanes.lane 16 0 v ↔ u = v := by
  refine ⟨fun h0 => Lanes.eq_of_lanes (w := 16) (m := 2) rfl fun k hk => ?_, fun huv => huv ▸ rfl⟩
  obtain rfl | rfl : k = 0 ∨ k = 1 := by omega
  · exact h0
  · exact h

theorem lane_one_and (v : Uword) {m : Uword} (hm : Lanes.lane 16 1 m = 0) : Lanes.lane 16 1 (v &&& m) = 0 := by
  rw [Lanes.lane_and, hm]
  exact BitVec.and_zero

/-- Bits of the low half are tested alike in both widths. -/
theorem and_eq_zero_iff_lane (v : Uword) {m : Uword} (hm : Lanes.lane 16 1 m = 0) :
    v &&& m = 0 ↔ Lanes.lane 16 0 v &&& Lanes.lane 16 0 m = 0 := by
  rw [← Lanes.lane_and, ← Lanes.lane_zero 16 0, lane_zero_eq_iff]
  rw [lane_one_and v hm, Lanes.lane_zero]

theorem lane_zero_iopWrite (old value : Uword) :
    Lanes.lane 16 0 (iopWrite old value) = iopWrite (Lanes.lane 16 0 old) (Lanes.lane 16 0 value) := by
  have h20 : value &&& 0x20 = 0 ↔ Lanes.lane 16 0 value &&& 0x20 = 0 := and_eq_zero_iff_lane value (by decide)
  have h80 : value &&& 0x80 = 0 ↔ Lanes.lane 16 0 value &&& 0x80 = 0 := and_eq_zero_iff_lane value (by decide)
  have htemp : Lanes.lane 16 0 (value &&& 0xF0) = Lanes.lane 16 0 value &&& 0xF0 := Lanes.lane_and ..
  have hupper : Lanes.lane 16 1 (value &&& 0xF0) = 0 := lane_one_and value (by decide)
  have htest (old : Uword) :
      old &&& (value &&& 0xF0) = 0 ↔ Lanes.lane 16 0 old &&& (Lanes.lane 16 0 value &&& 0xF0) = 0 := by
    rw [and_eq_zero_iff_lane old hupper, htemp]
  have hset : Lanes.lane 16 0 (old &&& ~~~0xF000 ||| 0x2000) = Lanes.lane 16 0 old &&& ~~~0xF000 ||| 0x2000 := by
    rw [Lanes.lane_or, Lanes.lane_and]
    rfl
  have hclear (old : Uword) : Lanes.lane 16 0 (old &&& ~~~(value &&& 0xF0)) =
      Lanes.lane 16 0 old &&& ~~~(Lanes.lane 16 0 value &&& 0xF0) := by
    rw [Lanes.lane_and, Lanes.lane_not (by decide), htemp]
  unfold iopWrite
  simp only [ne_eq, ← h20, ← h80]
  by_cases hstart : ¬value &&& 0x20 = 0 ∨ ¬value &&& 0x80 = 0
  · simp only [hstart, if_true, ← hset, ← htest]
    split_ifs
    · rw [Lanes.lane_or, htemp]
    · exact hclear _
  · simp only [hstart, if_false, ← htest]
    split_ifs
    · rw [Lanes.lane_or, htemp]
    · exact hclear _

/-- Where the bits of a mask are set. -/
theorem or_eq_self_iff {n : ℕ} (v m : BitVec n) : v = v ||| m ↔ v &&& m = m := by
  rw [BitVec.eq_of_getLsbD_eq_iff, BitVec.eq_of_getLsbD_eq_iff]
  refine forall₂_congr fun i _ => ?_
  rw [BitVec.getLsbD_or, BitVec.getLsbD_and]
  cases v.getLsbD i <;> cases m.getLsbD i <;> decide

/-- A merge of two values is the second where the first agrees with it under the mask. -/
theorem eq_merge_iff {n : ℕ} (old v m : BitVec n) : v = (old &&& m) ||| (v &&& ~~~m) ↔ (old ^^^ v) &&& m = 0 := by
  rw [BitVec.eq_of_getLsbD_eq_iff, BitVec.eq_of_getLsbD_eq_iff]
  refine forall₂_congr fun i hi => ?_
  rw [BitVec.getLsbD_or, BitVec.getLsbD_and, BitVec.getLsbD_and, BitVec.getLsbD_not, BitVec.getLsbD_and,
    BitVec.getLsbD_xor, show (0 : BitVec n).getLsbD i = false from BitVec.getLsbD_zero, decide_eq_true hi]
  cases old.getLsbD i <;> cases v.getLsbD i <;> cases m.getLsbD i <;> decide

theorem read_ee_iff : r.byteBusReadUhword .ee 0 = Lanes.lane 16 0 (r.byteBusReadUword .ee) ↔ r.w &&& 0x102 = 0x102 := by
  have hword : Lanes.lane 16 0 (r.byteBusReadUword .ee) = Lanes.lane 16 0 r.w ||| 0x102 := Lanes.lane_or ..
  have hhword : r.byteBusReadUhword .ee 0 = Lanes.lane 16 0 r.w := rfl
  rw [hword, hhword, or_eq_self_iff, ← lane_zero_eq_iff (lane_one_and r.w (by decide)), Lanes.lane_and]
  rfl

theorem lane_byteBusWriteUhword (context : BusContext) (value : Uhword) :
    Lanes.lane 16 0 (r.byteBusWriteUhword context 0 value).w =
        (if context = .iop then iopWrite (r.readUhword 0) value else value) ∧
      Lanes.lane 16 1 (r.byteBusWriteUhword context 0 value).w = Lanes.lane 16 1 r.w := by
  have hwrite : r.byteBusWriteUhword context 0 value =
      r.writeUhword 0 (if context = .iop then iopWrite (r.readUhword 0) value else value) := by
    unfold byteBusWriteUhword
    by_cases hc : context = .iop
    · rw [if_pos ⟨hc, rfl⟩, if_pos hc]
    · rw [if_neg fun h => hc h.1, if_neg hc]
      rfl
  rw [hwrite]
  exact ⟨Lanes.lane_setLane_self (by decide) _ _, Lanes.lane_setLane_of_ne (by decide) _ _⟩

theorem write_ee_iff (value : Uword) :
    Lanes.lane 16 0 value = Lanes.lane 16 0 (r.byteBusWriteUword .ee value).w ↔ (r.w ^^^ value) &&& 0xFEFF = 0 := by
  have hword : Lanes.lane 16 0 (r.byteBusWriteUword .ee value).w =
      (Lanes.lane 16 0 r.w &&& 0xFEFF) ||| (Lanes.lane 16 0 value &&& ~~~0xFEFF) := by
    rw [byteBusWriteUword, if_pos rfl, Lanes.lane_or, Lanes.lane_and, Lanes.lane_and]
    rfl
  have hxor : Lanes.lane 16 0 (r.w ^^^ value) = Lanes.lane 16 0 r.w ^^^ Lanes.lane 16 0 value := BitVec.extractLsb'_xor
  rw [hword, eq_merge_iff, and_eq_zero_iff_lane (m := 0xFEFF) _ (by decide), hxor]
  rfl

theorem widthsAgree_ee_iff (r : SbusRegisterF240) (value : Uword) : r.WidthsAgree .ee value ↔ r.EeAgrees value := by
  obtain ⟨hlow, hupper⟩ := lane_byteBusWriteUhword (r := r) .ee (Lanes.lane 16 0 value)
  rw [EeAgrees, ← read_ee_iff, ← write_ee_iff]
  exact ⟨fun h => ⟨h.read, hlow.symm.trans h.write⟩, fun h => ⟨h.1, hlow.trans h.2, hupper⟩⟩

/-- The widths agree on the bus of the IOP, and on that of the EE just where there is nothing to set and to keep. -/
theorem widthsAgree_iff (r : SbusRegisterF240) (context : BusContext) (value : Uword) :
    r.WidthsAgree context value ↔ (context = .ee → r.EeAgrees value) := by
  obtain ⟨hlow, hupper⟩ := lane_byteBusWriteUhword (r := r) context (Lanes.lane 16 0 value)
  cases context with
  | ee =>
    rw [widthsAgree_ee_iff]
    exact ⟨fun h _ => h, fun h => h rfl⟩
  | iop =>
    have hread : Lanes.lane 16 0 (r.byteBusReadUword .iop) = Lanes.lane 16 0 r.w ||| 0x2 := Lanes.lane_or ..
    refine iff_of_true ⟨hread.symm, ?_, hupper⟩ fun h => absurd h (by decide)
    exact hlow.trans (lane_zero_iopWrite r.w value).symm
  | vu => exact iff_of_true ⟨rfl, hlow, hupper⟩ fun h => absurd h (by decide)

/-- A read of a word by the EE sets bits 1 and 8 of a register that is 0, and a read of a halfword does not. -/
theorem zero_not_widthsAgree :
    ¬∀ (r : SbusRegisterF240) (context : BusContext) (value : Uword), r.WidthsAgree context value := by
  intro h
  exact absurd ((widthsAgree_ee_iff ⟨0⟩ 0).mp (h ⟨0⟩ .ee 0)) (by decide)

end SbusRegisterF240

end Orbum
