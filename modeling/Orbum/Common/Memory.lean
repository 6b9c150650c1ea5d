import Orbum.Common.Primitive
import Orbum.Lib.Except
import Orbum.Lib.LittleEndian

/-!
# Memory behind a bus

What the DMA controllers see of a bus: the bytes of the memories mapped in it (main memory, scratchpad),
and where there are any. An access outside of them dereferences the null object of its page.
-/

namespace Orbum

open LittleEndian

/-- The memory mapped in a bus. -/
structure Memory where
  /-- The addresses that belong to a memory. -/
  mapped : Uptr → Bool
  /-- Their bytes. -/
  byte : Uptr → Ubyte

namespace Memory

variable (m : Memory)

/-- All of the `n` bytes from `address` on belong to a memory. -/
def isMapped (address : Uptr) (n : ℕ) : Bool := (List.range n).all fun i => m.mapped (address + BitVec.ofNat 32 i)

/-- The `n` bytes from `address` on. -/
def read (address : Uptr) (n : ℕ) : Except HostError (List Ubyte) :=
  if m.isMapped address n then .ok ((List.range n).map fun i => m.byte (address + BitVec.ofNat 32 i))
  else .error .nullPointer

/-- The memory with the bytes from `address` on replaced. -/
def store (address : Uptr) (bs : List Ubyte) : Memory :=
  { m with byte := fun x => if h : (x - address).toNat < bs.length then bs.get ⟨_, h⟩ else m.byte x }

/-- Writes bytes from `address` on. -/
def write (address : Uptr) (bs : List Ubyte) : Except HostError Memory :=
  if m.isMapped address bs.length then .ok (m.store address bs) else .error .nullPointer

/-- `bus.read_uword(address)`. -/
def readUword (address : Uptr) : Except HostError Uword := do return ofBytes 32 (← m.read address 4)

/-- `bus.write_uword(address, value)`. -/
def writeUword (address : Uptr) (value : Uword) : Except HostError Memory := m.write address (bytes 4 value)

/-- `bus.read_uqword(address)`. -/
def readUqword (address : Uptr) : Except HostError Uqword := do return ofBytes 128 (← m.read address 16)

/-- `bus.write_uqword(address, value)`. -/
def writeUqword (address : Uptr) (value : Uqword) : Except HostError Memory := m.write address (bytes 16 value)

/-! ### Reading back -/

variable {m}

@[simp] theorem isMapped_store (a : Uptr) (bs : List Ubyte) (b : Uptr) (n : ℕ) :
    (m.store a bs).isMapped b n = m.isMapped b n := rfl

theorem byte_store_of_lt {a : Uptr} {bs : List Ubyte} {i : ℕ} (hi : i < bs.length) (hn : bs.length ≤ 2 ^ 32) :
    (m.store a bs).byte (a + BitVec.ofNat 32 i) = bs.get ⟨i, hi⟩ := by
  have hx : (a + BitVec.ofNat 32 i - a).toNat = i := by
    rw [show a + BitVec.ofNat 32 i - a = BitVec.ofNat 32 i by bv_omega, BitVec.toNat_ofNat,
      Nat.mod_eq_of_lt (by omega)]
  simp only [store, hx, hi, dif_pos]

theorem byte_store_of_apart {a x : Uptr} {bs : List Ubyte} (h : ∀ i < bs.length, a + BitVec.ofNat 32 i ≠ x) :
    (m.store a bs).byte x = m.byte x := by
  rw [store]
  refine dif_neg fun hx => h _ hx ?_
  rw [BitVec.ofNat_toNat, BitVec.setWidth_eq]
  bv_omega

theorem read_store_self {a : Uptr} {bs : List Ubyte} (h : m.isMapped a bs.length) (hn : bs.length ≤ 2 ^ 32) :
    (m.store a bs).read a bs.length = .ok bs := by
  rw [read, isMapped_store, if_pos h]
  congr 1
  refine List.ext_get (by simp) fun i h1 h2 => ?_
  simpa using byte_store_of_lt (m := m) (a := a) h2 hn

theorem write_eq_ok_iff {a : Uptr} {bs : List Ubyte} {m' : Memory} :
    m.write a bs = .ok m' ↔ m.isMapped a bs.length = true ∧ m' = m.store a bs := by
  rw [write]
  split_ifs with h
  · simp [h, eq_comm]
  · simp [h]

/-- What was written is read back. -/
theorem read_of_write {m' : Memory} {a : Uptr} {bs : List Ubyte} (h : m.write a bs = .ok m')
    (hn : bs.length ≤ 2 ^ 32) : m'.read a bs.length = .ok bs := by
  obtain ⟨hmapped, rfl⟩ := write_eq_ok_iff.mp h
  exact read_store_self hmapped hn

theorem readUword_of_writeUword {m' : Memory} {a : Uptr} {w : Uword} (h : m.writeUword a w = .ok m') :
    m'.readUword a = .ok w := by
  have hread := read_of_write h (by rw [length_bytes]; decide)
  rw [length_bytes] at hread
  rw [readUword, hread, ok_bind, ofBytes_bytes 4 _ (by decide), pure_eq_ok]

theorem readUqword_of_writeUqword {m' : Memory} {a : Uptr} {q : Uqword} (h : m.writeUqword a q = .ok m') :
    m'.readUqword a = .ok q := by
  have hread := read_of_write h (by rw [length_bytes]; decide)
  rw [length_bytes] at hread
  rw [readUqword, hread, ok_bind, ofBytes_bytes 16 _ (by decide), pure_eq_ok]

end Memory

end Orbum
