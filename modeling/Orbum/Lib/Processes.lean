import Orbum.Lib.Run
import Mathlib.Algebra.BigOperators.Group.Finset.Basic
import Mathlib.Data.Fintype.BigOperators

/-!
# Processes that take turns

A system of finitely many processes and shared state moves when one of them does. A move that its process has to
wait for is not made: `step` refuses it.

What the processes have between them is a sum over them; a move of one of them changes one summand.
-/

namespace Orbum

/-- Why a move is not made. -/
inductive Refusal where
  /-- The process waits. -/
  | blocks
  /-- The process ends with an exception. -/
  | throws
  deriving DecidableEq

namespace Run

variable {σ α ε : Type}

/-- The move can be made. -/
def Enabled (step : α → σ → Except ε σ) (a : α) (s : σ) : Prop := ∃ s', step a s = .ok s'

end Run

section

variable {ι β M : Type} [Fintype ι] [DecidableEq ι] [AddCommMonoid M]

/-- One process changes its part of the sum. -/
theorem sum_update_add (w : ι → β) (i : ι) (x : β) (f : β → M) :
    ∑ j, f (Function.update w i x j) + f (w i) = ∑ j, f (w j) + f x := by
  have hrest : ∑ j ∈ Finset.univ.erase i, f (Function.update w i x j) = ∑ j ∈ Finset.univ.erase i, f (w j) :=
    Finset.sum_congr rfl fun j hj => by rw [Function.update_of_ne (Finset.ne_of_mem_erase hj)]
  rw [← Finset.sum_erase_add _ _ (Finset.mem_univ i), ← Finset.sum_erase_add _ _ (Finset.mem_univ i), hrest,
    Function.update_self]
  exact add_right_comm _ _ _

end

end Orbum
