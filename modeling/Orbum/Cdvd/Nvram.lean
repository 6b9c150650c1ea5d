import Mathlib.Logic.Function.Basic
import Orbum.Common.Primitive

/-!
# The NVRAM of the CDVD

`Resources/Cdvd/CdvdNvrams.cpp`: a memory of halfwords with three config areas, which are read and written block by block,
and five further fields. What is accessed next is kept in the access parameters.

## The model

A call is a function of the NVRAM, with what it returns or throws beside the NVRAM that it leaves. The block index is
set to 0 and counted up only.
-/

namespace Orbum

/-- The memory of an `ArrayHwordMemory` that is not read only. -/
abbrev HwordMemory := ℕ → Uhword

namespace HwordMemory

/-- `read(offset, buffer, length)`: the buffer. -/
def read (m : HwordMemory) (offset length : ℕ) : List Uhword := (List.range length).map fun i => m (offset + i)

/-- `write(offset, buffer, length)`. -/
def write (m : HwordMemory) (offset : ℕ) : List Uhword → HwordMemory
  | [] => m
  | value :: buffer => write (Function.update m offset value) (offset + 1) buffer

end HwordMemory

/-- `CdvdNvram_000`. -/
structure CdvdNvram where
  /-- `memory`. -/
  memory : HwordMemory
  /-- `access_read_write`: 0 to read, 1 to write. -/
  accessReadWrite : ℤ
  /-- `access_area_index`. -/
  accessAreaIndex : ℤ
  /-- `access_max_block_index`. -/
  accessMaxBlockIndex : ℤ
  /-- `access_block_index`. -/
  accessBlockIndex : ℕ

namespace CdvdNvram

variable (s : CdvdNvram)

/-- `set_access_params(read_write, area_index, max_block_index, block_index)`. -/
def setAccessParams (readWrite areaIndex maxBlockIndex : ℤ) (blockIndex : ℕ) : CdvdNvram :=
  ⟨s.memory, readWrite, areaIndex, maxBlockIndex, blockIndex⟩

/-- The test that the block is past the area. -/
def pastArea : Prop :=
  s.accessAreaIndex = 0 ∧ 4 ≤ s.accessBlockIndex ∨ s.accessAreaIndex = 1 ∧ 2 ≤ s.accessBlockIndex ∨
    s.accessAreaIndex = 2 ∧ 7 ≤ s.accessBlockIndex

instance : Decidable s.pastArea := inferInstanceAs (Decidable (_ ∨ _))

/-- Where the block starts, if the area is one. -/
def blockOffset : Option ℕ :=
  if s.accessAreaIndex = 0 then some (0x280 / 2 + s.accessBlockIndex * 8)
  else if s.accessAreaIndex = 1 then some (0x300 / 2 + s.accessBlockIndex * 8)
  else if s.accessAreaIndex = 2 then some (0x200 / 2 + s.accessBlockIndex * 8)
  else none

/-- `read_config_block(buffer)`. -/
def readConfigBlock : Except HostError (List Uhword) × CdvdNvram :=
  if s.accessReadWrite = 0 then
    if s.pastArea then (.ok (List.replicate 8 0), s)
    else if s.accessMaxBlockIndex ≤ s.accessBlockIndex then
      (.error (.runtimeError
        "CDVD read config block was outside of max block parameter set... What is meant to happen?"), s)
    else
      s.blockOffset.elim
        (.error (.runtimeError "CDVD read config block tried to read from invalid config area. Please fix."), s)
        fun offset => (.ok (s.memory.read offset 8), { s with accessBlockIndex := s.accessBlockIndex + 1 })
  else (.error (.runtimeError "CDVD read config block was not in read mode... What is meant to happen?"), s)

/-- `write_config_block(buffer)`. -/
def writeConfigBlock (buffer : List Uhword) : Except HostError Unit × CdvdNvram :=
  if s.accessReadWrite = 1 then
    if s.pastArea then
      (.error (.runtimeError "CDVD read config block was outside of bounds... What is meant to happen?"), s)
    else if s.accessMaxBlockIndex ≤ s.accessBlockIndex then
      (.error (.runtimeError
        "CDVD read config block was outside of max block parameter set... What is meant to happen?"), s)
    else
      s.blockOffset.elim
        (.error (.runtimeError "CDVD read config block tried to read from invalid config area. Please fix."), s)
        fun offset =>
          (.ok (), { s with memory := s.memory.write offset buffer, accessBlockIndex := s.accessBlockIndex + 1 })
  else (.error (.runtimeError "CDVD read config block was not in write mode... What is meant to happen?"), s)

/-- `read_console_id(buffer)`. -/
def readConsoleId : List Uhword := s.memory.read (0x1C8 / 2) 4

/-- `read_ilink_id(buffer)`. -/
def readIlinkId : List Uhword := s.memory.read (0x1C0 / 2) 4

/-- `read_model_number(buffer)`. -/
def readModelNumber : List Uhword := s.memory.read (0x1A0 / 2) 4

/-- `read_region_params(buffer)`. -/
def readRegionParams : List Uhword := s.memory.read (0x180 / 2) 4

/-- `read_mac(buffer)`. -/
def readMac : List Uhword := s.memory.read (0x198 / 2) 4

end CdvdNvram

/-! ### Reading what was written -/

namespace HwordMemory

variable {m m' : HwordMemory} {offset : ℕ}

/-- The halfwords before and behind the buffer. -/
theorem write_of_apart (buffer : List Uhword) {k : ℕ} (hk : k < offset ∨ offset + buffer.length ≤ k) :
    m.write offset buffer k = m k := by
  induction buffer generalizing m offset with
  | nil => rfl
  | cons value buffer ih =>
    rw [List.length_cons] at hk
    rw [write, ih (by omega), Function.update_of_ne (by omega)]

theorem read_write (buffer : List Uhword) : (m.write offset buffer).read offset buffer.length = buffer := by
  induction buffer generalizing m offset with
  | nil => rfl
  | cons value buffer ih =>
    have htail : (m.write offset (value :: buffer)).read offset (buffer.length + 1) =
        m.write offset (value :: buffer) offset :: (m.write offset (value :: buffer)).read (offset + 1) buffer.length := by
      rw [read, List.range_succ_eq_map, List.map_cons, List.map_map, read]
      congr 1
      refine List.map_congr_left fun i _ => ?_
      rw [Function.comp, Nat.succ_eq_add_one, Nat.add_comm i 1, Nat.add_assoc]
    rw [List.length_cons, htail, write, ih, write_of_apart buffer (.inl (Nat.lt_succ_self offset)),
      Function.update_self]

theorem read_congr {length : ℕ} (h : ∀ k, offset ≤ k → k < offset + length → m k = m' k) :
    m.read offset length = m'.read offset length := by
  refine List.map_congr_left fun i hi => h _ (Nat.le_add_right ..) ?_
  have := List.mem_range.mp hi
  omega

end HwordMemory

end Orbum
