import Orbum.Common.Primitive
import Orbum.Lib.Except
import Orbum.Lib.Lanes

/-!
# Sized registers

`SizedHwordRegister`, `SizedWordRegister` and `SizedQwordRegister` of `Common/Types/Register`, as a release build has them:
one class for each number of bits, with the parts that its union has as lanes. The storage is private, so that these are
all the ways to change a register; what a bus does to one ends in them.

## What is proved

`apply_keeps`: no call changes the initial value or whether the register is read only, and one that is read only keeps its
initial value.
-/

namespace Orbum

/-- `SizedHwordRegister`, `SizedWordRegister` and `SizedQwordRegister`. -/
structure SizedRegister (n : ℕ) where
  /-- The storage. -/
  storage : BitVec n
  /-- `initial_value`. -/
  initialValue : BitVec n
  /-- `read_only`. -/
  readOnly : Bool

/-- A call that may write a register. -/
inductive RegisterCall (n : ℕ) where
  /-- `initialize()`. -/
  | initialise
  /-- The write of the whole register. -/
  | write (value : BitVec n)
  /-- `write_ubyte(offset, value)` and so on up to `write_udword(offset, value)`. -/
  | writeLane (w offset : ℕ) (value : BitVec w)

namespace SizedRegister

variable {n : ℕ}

/-- The constructor. -/
def new (initialValue : BitVec n) (readOnly : Bool) : SizedRegister n := ⟨initialValue, initialValue, readOnly⟩

variable (r : SizedRegister n)

/-- The read of the whole register. -/
def read : BitVec n := r.storage

/-- `read_ubyte(offset)` and so on up to `read_udword(offset)`. -/
def readLane (w offset : ℕ) : Except HostError (BitVec w) :=
  if w * (offset + 1) ≤ n then .ok (Lanes.lane w offset r.storage) else .error .outOfBounds

/-- `initialize()`. -/
def initialise : SizedRegister n := { r with storage := r.initialValue }

/-- The write of the whole register. -/
def write (value : BitVec n) : SizedRegister n := if r.readOnly then r else { r with storage := value }

/-- `write_ubyte(offset, value)` and so on up to `write_udword(offset, value)`. -/
def writeLane (w offset : ℕ) (value : BitVec w) : Except HostError (SizedRegister n) :=
  if r.readOnly then .ok r
  else if w * (offset + 1) ≤ n then .ok { r with storage := Lanes.setLane offset r.storage value }
  else .error .outOfBounds

/-- What a call does. -/
def apply : RegisterCall n → Except HostError (SizedRegister n)
  | .initialise => .ok r.initialise
  | .write value => .ok (r.write value)
  | .writeLane w offset value => r.writeLane w offset value

/-- What no call changes of a register. -/
structure Keeps (r r' : SizedRegister n) : Prop where
  initialValue : r'.initialValue = r.initialValue
  readOnly : r'.readOnly = r.readOnly
  read : r.readOnly = true → r.read = r.initialValue → r'.read = r.initialValue

variable {r} {r' r'' : SizedRegister n}

theorem Keeps.refl (r : SizedRegister n) : r.Keeps r := ⟨rfl, rfl, fun _ h => h⟩

theorem Keeps.trans (h : r.Keeps r') (h' : r'.Keeps r'') : r.Keeps r'' := by
  refine ⟨h'.initialValue.trans h.initialValue, h'.readOnly.trans h.readOnly, fun hreadOnly hread => ?_⟩
  rw [← h.initialValue]
  exact h'.read (h.readOnly.trans hreadOnly) ((h.read hreadOnly hread).trans h.initialValue.symm)

/-- A write that is discarded if the register is read only. -/
theorem keeps_storage (h : ¬r.readOnly = true) (value : BitVec n) : r.Keeps { r with storage := value } :=
  ⟨rfl, rfl, fun hreadOnly => absurd hreadOnly h⟩

/-- One call. -/
theorem apply_keeps {c : RegisterCall n} (h : r.apply c = .ok r') : r.Keeps r' := by
  cases c with
  | initialise =>
    obtain rfl := Except.ok.inj h
    exact ⟨rfl, rfl, fun _ _ => rfl⟩
  | write value =>
    obtain rfl := Except.ok.inj h
    unfold write
    split_ifs with hreadOnly
    · exact .refl r
    · exact keeps_storage hreadOnly value
  | writeLane w offset value =>
    rw [apply, writeLane] at h
    split_ifs at h with hreadOnly hin
    · obtain rfl := Except.ok.inj h
      exact .refl r
    · obtain rfl := Except.ok.inj h
      exact keeps_storage hreadOnly _

theorem read_write (r : SizedRegister n) (value : BitVec n) :
    (r.write value).read = if r.readOnly then r.read else value := by
  unfold write
  split_ifs <;> rfl

theorem read_of_writeLane {w offset : ℕ} {value : BitVec w} (h : r.writeLane w offset value = .ok r') :
    r'.read = if r.readOnly then r.read else Lanes.setLane offset r.read value := by
  unfold writeLane at h
  split_ifs at h with hreadOnly hin
  · obtain rfl := Except.ok.inj h
    rw [if_pos hreadOnly]
  · obtain rfl := Except.ok.inj h
    rw [if_neg hreadOnly]
    rfl

end SizedRegister

end Orbum
