import Orbum.Common.Primitive
import Orbum.Lib.Except

/-!
# DMA FIFO queues

`Common/Types/FifoQueue/DmaFifoQueue.hpp` over a single producer, single consumer queue of 1024 bytes. A read
or a write of several bytes goes byte by byte, and throws in the middle where the queue runs empty or full.
-/

namespace Orbum

/-- `DmaFifoQueue<>`. -/
@[ext]
structure DmaFifoQueue where
  /-- The bytes in the queue, the next one to be read first. -/
  bytes : List Ubyte
  /-- The capacity of the backing queue. -/
  bounded : bytes.length ≤ 1024

namespace DmaFifoQueue

variable (q : DmaFifoQueue)

/-- The queue after `initialize()`. -/
def empty : DmaFifoQueue := ⟨[], by decide⟩

/-- `read_ubyte()`. -/
def readUbyte : Except HostError (Ubyte × DmaFifoQueue) :=
  match q with
  | ⟨[], _⟩ => .error (.runtimeError "Could not pop from DMA fifo queue.")
  | ⟨b :: bs, h⟩ => .ok (b, ⟨bs, Nat.le_of_succ_le h⟩)

/-- `write_ubyte(data)`. -/
def writeUbyte (data : Ubyte) : Except HostError DmaFifoQueue :=
  if h : (q.bytes ++ [data]).length ≤ 1024 then .ok ⟨q.bytes ++ [data], h⟩
  else .error (.runtimeError "Could not push to DMA fifo queue.")

/-- `read(buffer, length)`: the bytes read. -/
def read : ℕ → DmaFifoQueue → Except HostError (List Ubyte × DmaFifoQueue)
  | 0, q => .ok ([], q)
  | n + 1, q => do
    let (b, q) ← q.readUbyte
    let (bs, q) ← read n q
    return (b :: bs, q)

/-- `write(buffer, length)`. -/
def write : List Ubyte → DmaFifoQueue → Except HostError DmaFifoQueue
  | [], q => .ok q
  | b :: bs, q => do write bs (← q.writeUbyte b)

/-- `has_read_available(n_bytes)`. -/
def hasReadAvailable (nBytes : ℕ) : Bool := nBytes ≤ q.bytes.length

/-- `has_write_available(n_bytes)`. -/
def hasWriteAvailable (nBytes : ℕ) : Bool := nBytes ≤ 1024 - q.bytes.length

/-- `is_empty()`. -/
def isEmpty : Bool := !q.hasReadAvailable 1

/-- The queue without its first `n` bytes. -/
def drop (n : ℕ) : DmaFifoQueue := ⟨q.bytes.drop n, Nat.le_trans (by simp) q.bounded⟩

/-! ### Reading and writing -/

variable {q}

@[simp] theorem bytes_drop (n : ℕ) : (q.drop n).bytes = q.bytes.drop n := rfl

theorem hasReadAvailable_iff {n : ℕ} : q.hasReadAvailable n = true ↔ n ≤ q.bytes.length := decide_eq_true_iff

theorem hasWriteAvailable_iff {n : ℕ} : q.hasWriteAvailable n = true ↔ q.bytes.length + n ≤ 1024 := by
  have := q.bounded
  simp only [hasWriteAvailable, decide_eq_true_eq]
  omega

theorem isEmpty_iff : q.isEmpty = true ↔ q.bytes = [] := by
  rw [isEmpty, Bool.not_eq_true', ← Bool.not_eq_true, hasReadAvailable_iff, ← List.length_eq_zero_iff]
  omega

theorem readUbyte_of_cons {b : Ubyte} {bs : List Ubyte} (h : q.bytes = b :: bs) :
    ∃ q', q.readUbyte = .ok (b, q') ∧ q'.bytes = bs := by
  obtain ⟨bytes, hq⟩ := q
  obtain rfl : bytes = b :: bs := h
  exact ⟨_, rfl, rfl⟩

theorem writeUbyte_of_lt (h : q.bytes.length < 1024) (data : Ubyte) :
    ∃ q', q.writeUbyte data = .ok q' ∧ q'.bytes = q.bytes ++ [data] := by
  have hlen : (q.bytes ++ [data]).length ≤ 1024 := by
    rw [List.length_append, List.length_singleton]
    exact h
  exact ⟨_, dif_pos hlen, rfl⟩

/-- A read that was checked returns the first bytes. -/
theorem read_eq {n : ℕ} (h : n ≤ q.bytes.length) : q.read n = .ok (q.bytes.take n, q.drop n) := by
  induction n generalizing q with
  | zero => rfl
  | succ n ih =>
    obtain ⟨bs, hbs⟩ := q
    cases bs with
    | nil => simp at h
    | cons b bs =>
      have hn : n ≤ bs.length := by simpa using h
      simp only [read, readUbyte, ok_bind, ih (q := ⟨bs, _⟩) hn]
      rfl

/-- A write that was checked appends the bytes. -/
theorem write_eq {bs : List Ubyte} (h : (q.bytes ++ bs).length ≤ 1024) : q.write bs = .ok ⟨q.bytes ++ bs, h⟩ := by
  induction bs generalizing q with
  | nil =>
    rw [write]
    congr 1
    ext1
    simp
  | cons b bs ih =>
    have hb : (q.bytes ++ [b]).length ≤ 1024 := by
      simp only [List.length_append, List.length_cons, List.length_nil] at h ⊢
      omega
    rw [write, writeUbyte, dif_pos hb, ok_bind, ih (by simpa using h)]
    congr 1
    ext1
    simp

theorem le_of_read {q' : DmaFifoQueue} {n : ℕ} {bs : List Ubyte} (h : q.read n = .ok (bs, q')) : n ≤ q.bytes.length := by
  induction n generalizing q q' bs with
  | zero => exact Nat.zero_le _
  | succ n ih =>
    obtain ⟨⟨b, q₁⟩, hb, h⟩ := bind_eq_ok_iff.mp h
    obtain ⟨⟨bs₁, q₂⟩, hbs, -⟩ := bind_eq_ok_iff.mp h
    obtain ⟨bytes, hq⟩ := q
    cases bytes with
    | nil => cases hb
    | cons b' bytes =>
      obtain ⟨rfl, rfl⟩ := Prod.mk.inj (Except.ok.inj hb)
      exact Nat.succ_le_succ (ih hbs)

/-- What was read stood before what is left. -/
theorem bytes_of_read {q' : DmaFifoQueue} {n : ℕ} {bs : List Ubyte} (h : q.read n = .ok (bs, q')) :
    q.bytes = bs ++ q'.bytes ∧ bs.length = n := by
  have hle := le_of_read h
  rw [read_eq hle] at h
  obtain ⟨rfl, rfl⟩ := Prod.mk.inj (Except.ok.inj h)
  exact ⟨(List.take_append_drop n q.bytes).symm, List.length_take_of_le hle⟩

theorem bytes_of_readUbyte {q' : DmaFifoQueue} {b : Ubyte} (h : q.readUbyte = .ok (b, q')) :
    q.bytes = b :: q'.bytes := by
  obtain ⟨bytes, hq⟩ := q
  cases bytes with
  | nil => cases h
  | cons b' bytes =>
    obtain ⟨rfl, rfl⟩ := Prod.mk.inj (Except.ok.inj h)
    rfl

theorem bytes_of_writeUbyte {q' : DmaFifoQueue} {data : Ubyte} (h : q.writeUbyte data = .ok q') :
    q'.bytes = q.bytes ++ [data] := by
  unfold writeUbyte at h
  split_ifs at h
  rw [← Except.ok.inj h]

/-- What was written stands behind what was there. -/
theorem bytes_of_write {q' : DmaFifoQueue} {bs : List Ubyte} (h : q.write bs = .ok q') : q'.bytes = q.bytes ++ bs := by
  induction bs generalizing q with
  | nil =>
    rw [List.append_nil, ← Except.ok.inj h]
  | cons b bs ih =>
    obtain ⟨q₁, h₁, h⟩ := bind_eq_ok_iff.mp h
    rw [ih h, bytes_of_writeUbyte h₁, List.append_assoc, List.singleton_append]

end DmaFifoQueue

end Orbum
