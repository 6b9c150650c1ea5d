import Mathlib.Algebra.Group.Int.Defs
import Mathlib.Algebra.GroupWithZero.Nat
import Mathlib.Tactic.Common

/-!
# Primitive types

The unsigned primitives of `Common/Types/Primitive.hpp` are bit vectors of their width, and the
ways a host function can fail to return are the constructors of `HostError`.
-/

namespace Orbum

/-- `ubyte`. -/
abbrev Ubyte := BitVec 8

/-- `uhword`. -/
abbrev Uhword := BitVec 16

/-- `uword`. -/
abbrev Uword := BitVec 32

/-- `udword`. -/
abbrev Udword := BitVec 64

/-- `uqword`: word `k` is bits `32k..32k+31`. -/
abbrev Uqword := BitVec 128

/-- `uptr`, an address of the guest. -/
abbrev Uptr := Uword

/-- `BusContext`. -/
inductive BusContext where
  /-- `Ee`. -/
  | ee
  /-- `Iop`. -/
  | iop
  /-- `Vu`. -/
  | vu
  deriving DecidableEq, Repr

/-- `ControllerEvent::Type`. -/
inductive ControllerEventType where
  | time | hBlank | vBlank
  deriving DecidableEq

/-- How a function of the emulator ends when it does not return. -/
inductive HostError where
  /-- A `std::runtime_error` with its message. -/
  | runtimeError (what : String)
  /-- `std::bad_optional_access`: `.value()` of an empty optional. -/
  | badOptionalAccess
  /-- An array indexed past its end. -/
  | outOfBounds
  /-- A null pointer dereferenced. -/
  | nullPointer
  deriving DecidableEq, Repr

/-- How a function ends when it does not return, if it may also come to what is undefined. -/
inductive HostFault where
  /-- It throws. -/
  | throws (e : HostError)
  /-- A signed operation overflows. -/
  | undefined
  deriving DecidableEq, Repr

/-- Words of a quadword, `uw[k]`. -/
def Uqword.uw (q : Uqword) (k : ℕ) : Uword := q.extractLsb' (32 * k) 32

/-- `uqword(uw0, uw1, uw2, uw3)`. -/
def Uqword.ofWords (uw0 uw1 uw2 uw3 : Uword) : Uqword := uw3 ++ (uw2 ++ (uw1 ++ uw0))

end Orbum
