import Orbum.Common.Primitive
import Orbum.Lib.LittleEndian

/-!
# Array backed memory

`Common/Types/Memory/ArrayByteMemory.hpp`, as a release build has it: the offset of an access is checked against
`size` in debug builds only, and there for the first byte alone. The functions of one kind differ in the width `w`
of what they read or write, in bits.
-/

namespace Orbum

open LittleEndian

/-- `ArrayByteMemory`. -/
structure ArrayByteMemory where
  /-- `size`. -/
  size : ℕ
  /-- `memory`. -/
  memory : List Ubyte
  /-- `read_only`. -/
  readOnly : Bool
  /-- The array has as many bytes as the memory. -/
  length_memory : memory.length = size

namespace ArrayByteMemory

/-- The constructor `ArrayByteMemory(size, initial_value, read_only)`. -/
def new (size : ℕ) (initialValue : Ubyte) (readOnly : Bool) : ArrayByteMemory :=
  ⟨size, List.replicate size initialValue, readOnly, List.length_replicate⟩

variable (m : ArrayByteMemory)

/-- The `n` bytes from `offset` on. -/
def bytesAt (offset n : ℕ) : List Ubyte := (m.memory.drop offset).take n

/-- `read_ubyte(offset)` to `read_uqword(offset)`. -/
def read (w offset : ℕ) : Except HostError (BitVec w) :=
  if offset + w / 8 ≤ m.memory.length then .ok (ofBytes w (m.bytesAt offset (w / 8))) else .error .outOfBounds

/-- The memory with the bytes from `offset` on replaced. -/
def store (offset : ℕ) (bs : List Ubyte) (h : offset + bs.length ≤ m.memory.length) : ArrayByteMemory :=
  { m with
    memory := m.memory.take offset ++ (bs ++ m.memory.drop (offset + bs.length))
    length_memory := by
      rw [← m.length_memory, List.length_append, List.length_append, List.length_take, List.length_drop]
      omega }

/-- `write_ubyte(offset, value)` to `write_uqword(offset, value)`. -/
def write (w offset : ℕ) (value : BitVec w) : Except HostError ArrayByteMemory :=
  if m.readOnly then .ok m
  else if h : offset + (bytes (w / 8) value).length ≤ m.memory.length then
    .ok (m.store offset (bytes (w / 8) value) h)
  else .error .outOfBounds

variable {m}

/-- The bytes written, where there are any. -/
theorem bytesAt_store {offset : ℕ} {bs : List Ubyte} (h : offset + bs.length ≤ m.memory.length) :
    (m.store offset bs h).bytesAt offset bs.length = bs := by
  have htake : (m.memory.take offset).length = offset := by
    rw [List.length_take]
    omega
  rw [bytesAt, store, List.drop_left' htake, List.take_left' rfl]

/-- The other bytes. -/
theorem getElem?_store {offset i : ℕ} {bs : List Ubyte} (h : offset + bs.length ≤ m.memory.length)
    (hi : i < offset ∨ offset + bs.length ≤ i) : (m.store offset bs h).memory[i]? = m.memory[i]? := by
  have htake : (m.memory.take offset).length = offset := by
    rw [List.length_take]
    omega
  rw [store]
  rcases hi with hi | hi
  · rw [List.getElem?_append_left (by omega), List.getElem?_take_of_lt hi]
  · rw [List.getElem?_append_right (by omega), List.getElem?_append_right (by omega), List.getElem?_drop]
    congr 1
    omega

theorem bytesAt_store_of_apart {offset k n : ℕ} {bs : List Ubyte} (h : offset + bs.length ≤ m.memory.length)
    (hapart : k + n ≤ offset ∨ offset + bs.length ≤ k) : (m.store offset bs h).bytesAt k n = m.bytesAt k n := by
  refine List.ext_getElem? fun i => ?_
  rw [bytesAt, bytesAt, List.getElem?_take, List.getElem?_take]
  split_ifs with hi
  · rw [List.getElem?_drop, List.getElem?_drop]
    exact getElem?_store h (by omega)
  · rfl

variable {m' : ArrayByteMemory} {w offset : ℕ} {value : BitVec w}

/-- A write that returns. -/
theorem write_cases (h : m.write w offset value = .ok m') : (m.readOnly = true ∧ m' = m) ∨
    ∃ hin : offset + (bytes (w / 8) value).length ≤ m.memory.length, m' = m.store offset (bytes (w / 8) value) hin := by
  rw [write] at h
  split_ifs at h with hreadOnly hin
  · exact .inl ⟨hreadOnly, (Except.ok.inj h).symm⟩
  · exact .inr ⟨hin, (Except.ok.inj h).symm⟩

/-- What was written is read back. -/
theorem read_of_write (hreadOnly : m.readOnly = false) (hw : 8 ∣ w) (h : m.write w offset value = .ok m') :
    m'.read w offset = .ok value := by
  obtain ⟨htrue, -⟩ | ⟨hin, rfl⟩ := write_cases h
  · exact absurd (htrue.symm.trans hreadOnly) (by decide)
  · have hlength : (m.store offset (bytes (w / 8) value) hin).memory.length = m.memory.length :=
      (length_memory _).trans m.length_memory.symm
    have hbytes := bytesAt_store hin
    rw [length_bytes] at hin hbytes
    rw [read, hlength, if_pos hin, hbytes, ofBytes_bytes _ _ (by omega)]

/-- A read of other bytes. -/
theorem read_of_write_of_apart {v k : ℕ} (h : m.write w offset value = .ok m')
    (hapart : k + v / 8 ≤ offset ∨ offset + w / 8 ≤ k) : m'.read v k = m.read v k := by
  obtain ⟨-, rfl⟩ | ⟨hin, rfl⟩ := write_cases h
  · rfl
  · have hlength : (m.store offset (bytes (w / 8) value) hin).memory.length = m.memory.length :=
      (length_memory _).trans m.length_memory.symm
    rw [read, read, hlength, bytesAt_store_of_apart hin (by rw [length_bytes]; exact hapart)]

end ArrayByteMemory

end Orbum
