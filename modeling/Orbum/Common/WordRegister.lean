import Orbum.Common.Bitfield
import Orbum.Common.Primitive
import Orbum.Lib.Lanes

/-!
# Word registers behind a bus

`WordRegister::byte_bus_write_*` and `SizedWordRegister`: a byte and a halfword go to the storage of the register, a word
goes to the virtual `write_uword`, where a class derived from it has its side effects.
-/

namespace Orbum

/-- A write of the bus to a word register, `offset` bytes into it. -/
inductive BusAccess where
  /-- `byte_bus_write_ubyte(context, offset, value)`. -/
  | ubyte (offset : Fin 4) (value : Ubyte)
  /-- `byte_bus_write_uhword(context, offset, value)`. -/
  | uhword (offset : Fin 4) (value : Uhword)
  /-- `byte_bus_write_uword(context, offset, value)`. -/
  | uword (value : Uword)
  deriving DecidableEq

namespace BusAccess

/-- The access is narrower than the register. -/
def narrow : BusAccess → Bool
  | ubyte _ _ | uhword _ _ => true
  | uword _ => false

/-- The register `w` with the bytes written: `b[offset]` or `h[offset / 2]` replaced, or all of them. -/
def merge (w : Uword) : BusAccess → Uword
  | ubyte offset value => Lanes.setLane offset w value
  | uhword offset value => Lanes.setLane (offset / 2) w value
  | uword value => value

variable {σ : Type}

/-- A write of the bus to the register `w`, `store` being that to its storage and `write` that of a word. -/
def busWrite (store write : Uword → σ) (w : Uword) (a : BusAccess) : σ :=
  if a.narrow then store (a.merge w) else write (a.merge w)

/-- The width does not matter just if a narrow access has the effect of a word. -/
theorem busWrite_eq_iff {store write : Uword → σ} {w : Uword} {a : BusAccess} :
    a.busWrite store write w = write (a.merge w) ↔ (a.narrow = true → store (a.merge w) = write (a.merge w)) := by
  unfold busWrite
  split_ifs with h
  · simp only [h, true_imp_iff]
  · simp only [h, IsEmpty.forall_iff, Bool.false_eq_true]

end BusAccess

/-! ### Bits that are set and cleared -/

/-- Setting a bit leaves a word alone just if the bit is set. -/
theorem or_twoPow_eq_self_iff {n : ℕ} (hn : n < 32) (w : Uword) : w ||| BitVec.twoPow 32 n = w ↔ w.getLsbD n = true := by
  constructor
  · intro h
    rw [← h, BitVec.getLsbD_or, BitVec.getLsbD_twoPow]
    simp [hn]
  · intro h
    apply BitVec.eq_of_getLsbD_eq
    intro i hi
    rw [BitVec.getLsbD_or, BitVec.getLsbD_twoPow]
    by_cases hin : n = i
    · subst hin
      simp [h]
    · simp [hin]

/-- Clearing a bit leaves a word alone just if the bit is clear. -/
theorem and_not_twoPow_eq_self_iff {n : ℕ} (hn : n < 32) (w : Uword) :
    w &&& ~~~BitVec.twoPow 32 n = w ↔ w.getLsbD n = false := by
  constructor
  · intro h
    rw [← h, BitVec.getLsbD_and, BitVec.getLsbD_not, BitVec.getLsbD_twoPow]
    simp [hn]
  · intro h
    apply BitVec.eq_of_getLsbD_eq
    intro i hi
    rw [BitVec.getLsbD_and, BitVec.getLsbD_not, BitVec.getLsbD_twoPow]
    by_cases hin : n = i
    · subst hin
      simp [h]
    · simp [hin, hi]

end Orbum
