import Orbum.Ee.Core.Interpreter.Multiply
import Orbum.Lib.Shuffle

/-!
# Reordering

The instructions of `CEeCoreInterpreter_REORDERING.cpp` that work on elements. They read `value0`, `value1` and so on before
they write them to the elements of `Rd` in that order, so that each is a table of what is read.
-/

namespace Orbum

open Shuffle

namespace R5900

variable {σ : Type} (inst : EeCoreInstruction) (d : R5900 σ)

/-- The register an element is read from. -/
inductive Operand where
  /-- `Rs`. -/
  | rs
  /-- `Rt`. -/
  | rt
  deriving DecidableEq, Repr

/-- `gpr[inst.rs()]` or `gpr[inst.rt()]`. -/
def operand : Operand → Uqword
  | .rs => d.gpr inst.rs
  | .rt => d.gpr inst.rt

/-- Reads the elements of the table, and writes them. -/
def reorder (w : ℕ) (elements : Table Operand) : R5900 σ :=
  d.writeUqword inst.rd (shuffle w elements (operand inst d) (d.gpr inst.rd))

namespace Elements

open Operand

/-- Of `PCPYUD`. -/
def pcpyud : Table Operand := [(rs, 1), (rt, 1)]

/-- Of `PEXCH`. -/
def pexch : Table Operand := [(rt, 0), (rt, 2), (rt, 1), (rt, 3), (rt, 4), (rt, 6), (rt, 5), (rt, 7)]

/-- Of `PEXCW`. -/
def pexcw : Table Operand := [(rt, 0), (rt, 2), (rt, 1), (rt, 3)]

/-- Of `PEXEH`. -/
def pexeh : Table Operand := [(rt, 2), (rt, 1), (rt, 0), (rt, 3), (rt, 6), (rt, 5), (rt, 4), (rt, 7)]

/-- Of `PEXEW`. -/
def pexew : Table Operand := [(rt, 2), (rt, 1), (rt, 0), (rt, 3)]

/-- Of `PEXTLB`. -/
def pextlb : Table Operand :=
  [(rt, 0), (rs, 0), (rt, 1), (rs, 1), (rt, 2), (rs, 2), (rt, 3), (rs, 3), (rt, 4), (rs, 4), (rt, 5), (rs, 5), (rt, 6),
    (rs, 6), (rt, 7), (rs, 7)]

/-- Of `PEXTLH`. -/
def pextlh : Table Operand := [(rt, 0), (rs, 0), (rt, 1), (rs, 1), (rt, 2), (rs, 2), (rt, 3), (rs, 3)]

/-- Of `PEXTLW`. -/
def pextlw : Table Operand := [(rt, 0), (rs, 0), (rt, 1), (rs, 1)]

/-- Of `PEXTUB`. -/
def pextub : Table Operand :=
  [(rt, 8), (rs, 8), (rt, 9), (rs, 9), (rt, 10), (rs, 10), (rt, 11), (rs, 11), (rt, 12), (rs, 12), (rt, 13), (rs, 13),
    (rt, 14), (rs, 14), (rt, 15), (rs, 15)]

/-- Of `PEXTUH`. -/
def pextuh : Table Operand := [(rt, 4), (rs, 4), (rt, 5), (rs, 5), (rt, 6), (rs, 6), (rt, 7), (rs, 7)]

/-- Of `PEXTUW`. -/
def pextuw : Table Operand := [(rt, 2), (rs, 2), (rt, 3), (rs, 3)]

/-- Of `PINTEH`. -/
def pinteh : Table Operand := [(rt, 0), (rs, 0), (rt, 2), (rs, 2), (rt, 4), (rs, 4), (rt, 6), (rs, 6)]

/-- Of `PINTH`. -/
def pinth : Table Operand := [(rt, 0), (rs, 4), (rt, 1), (rs, 5), (rt, 2), (rs, 6), (rt, 3), (rs, 7)]

/-- Of `PPACB`. -/
def ppacb : Table Operand :=
  [(rt, 0), (rt, 2), (rt, 4), (rt, 6), (rt, 8), (rt, 10), (rt, 12), (rt, 14), (rs, 0), (rs, 2), (rs, 4), (rs, 6), (rs, 8),
    (rs, 10), (rs, 12), (rs, 14)]

/-- Of `PPACH`. -/
def ppach : Table Operand := [(rt, 0), (rt, 2), (rt, 4), (rt, 6), (rs, 0), (rs, 2), (rs, 4), (rs, 6)]

/-- Of `PPACW`. -/
def ppacw : Table Operand := [(rt, 0), (rt, 2), (rs, 0), (rs, 2)]

/-- Of `PREVH`. -/
def prevh : Table Operand := [(rt, 3), (rt, 2), (rt, 1), (rt, 0), (rt, 7), (rt, 6), (rt, 5), (rt, 4)]

/-- Of `PROT3W`. -/
def prot3w : Table Operand := [(rt, 1), (rt, 2), (rt, 0), (rt, 3)]

end Elements

/-- `PCPYUD`. -/
def pcpyud : R5900 σ := reorder inst d 64 Elements.pcpyud

/-- `PEXCH`. -/
def pexch : R5900 σ := reorder inst d 16 Elements.pexch

/-- `PEXCW`. -/
def pexcw : R5900 σ := reorder inst d 32 Elements.pexcw

/-- `PEXEH`. -/
def pexeh : R5900 σ := reorder inst d 16 Elements.pexeh

/-- `PEXEW`. -/
def pexew : R5900 σ := reorder inst d 32 Elements.pexew

/-- `PEXTLB`. -/
def pextlb : R5900 σ := reorder inst d 8 Elements.pextlb

/-- `PEXTLH`. -/
def pextlh : R5900 σ := reorder inst d 16 Elements.pextlh

/-- `PEXTLW`. -/
def pextlw : R5900 σ := reorder inst d 32 Elements.pextlw

/-- `PEXTUB`. -/
def pextub : R5900 σ := reorder inst d 8 Elements.pextub

/-- `PEXTUH`. -/
def pextuh : R5900 σ := reorder inst d 16 Elements.pextuh

/-- `PEXTUW`. -/
def pextuw : R5900 σ := reorder inst d 32 Elements.pextuw

/-- `PINTEH`. -/
def pinteh : R5900 σ := reorder inst d 16 Elements.pinteh

/-- `PINTH`. -/
def pinth : R5900 σ := reorder inst d 16 Elements.pinth

/-- `PPACB`. -/
def ppacb : R5900 σ := reorder inst d 8 Elements.ppacb

/-- `PPACH`. -/
def ppach : R5900 σ := reorder inst d 16 Elements.ppach

/-- `PPACW`. -/
def ppacw : R5900 σ := reorder inst d 32 Elements.ppacw

/-- `PREVH`. -/
def prevh : R5900 σ := reorder inst d 16 Elements.prevh

/-- `PROT3W`. -/
def prot3w : R5900 σ := reorder inst d 32 Elements.prot3w

end R5900

end Orbum
