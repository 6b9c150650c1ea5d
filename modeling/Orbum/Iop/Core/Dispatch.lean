import Orbum.Iop.Core.Alu

/-!
# The IOP interpreter and its tables

`IopMachine.modelled` has the instructions that the interpreter needs to know of, by their opcodes. Here it is the
functions that the source finds through `IopCoreInstruction::lookup()` and `IOP_INSTRUCTION_TABLE`, and the machine whose
remaining rows are the functions that compute has no others.
-/

namespace Orbum

namespace IopCoreFunction

variable {σ : Type} (M : IopMachine σ) (inst : IopCoreInstruction)

/-- The function branches, touches COP0, accesses memory or can raise an exception. -/
def isControl : IopCoreFunction → Bool
  | j | jal | jr | jalr | beq | bne | blez | bgtz | bltz | bgez | bltzal | bgezal | syscall | break_ | add | addi | sub
  | mfc0 | mtc0 | rfe | lb | lh | lwl | lw | lbu | lhu | lwr | sb | sh | swl | sw | swr => true
  | _ => false

theorem control_eq_none {f : IopCoreFunction} (h : f.isControl = false) : f.control M inst = none := by
  cases f <;> first | rfl | cases h

/-- A function is for one of the two. -/
theorem control_eq_none_iff (M : IopMachine (IopSpecial σ)) (f : IopCoreFunction) :
    f.control M inst = none ↔ (f.compute inst : Option (R3000 σ → R3000 σ)).isSome := by
  cases f <;> simp [control, compute]

end IopCoreFunction

namespace IopCoreInstruction

open EeCoreInstruction SwitchTree

variable {σ : Type}

/-- What `lookup()` and the tables find are the instructions of the interpreter. -/
theorem modelled_eq (M : IopMachine σ) (inst : IopCoreInstruction) :
    M.modelled inst = (instructionSet.dispatch inst.value).toOption.bind (IopCoreFunction.control M inst) := by
  rw [InstructionSet.toOption_dispatch]
  have hnone : ∀ f : IopCoreFunction, f.isControl = false → f.control M inst = none :=
    fun f => IopCoreFunction.control_eq_none M inst
  unfold IopMachine.modelled
  split
  case h_1 h =>
    have hidx : instructionSet.index inst.value = special.eval (fields inst.value) :=
      eval_switch_of_lookup (k := opcodeField) h rfl
    rw [hidx]
    split
    case h_7 =>
      have hk : inst.funct ∉ [8, 9, 12, 13, 32, 34] := by
        simp only [List.mem_cons, List.not_mem_nil, or_false, not_or]
        repeat' apply And.intro
        all_goals assumption
      exact (InstructionSet.switch_bind_eq_none hnone _ hk (by decide +kernel)).symm
    all_goals
      rename_i hf
      have hrow : special.eval (fields inst.value) = _ := eval_switch_of_lookup (k := functField) hf rfl
      rw [hrow]
      rfl
  case h_2 h =>
    have hidx : instructionSet.index inst.value = regimm.eval (fields inst.value) :=
      eval_switch_of_lookup (k := opcodeField) h rfl
    rw [hidx, show inst.rt.toNat = _ from toNat_setWidth_extractFrom (f := rtField) (by decide) inst.value]
    split
    case h_5 =>
      have hk : fields inst.value rtField ∉ [0, 1, 15, 16] := by
        simp only [List.mem_cons, List.not_mem_nil, or_false, not_or]
        repeat' apply And.intro
        all_goals assumption
      exact (InstructionSet.switch_bind_eq_none hnone _ hk (by decide +kernel)).symm
    all_goals
      rename_i hf
      have hrow : regimm.eval (fields inst.value) = _ := eval_switch_of_lookup (k := rtField) hf rfl
      rw [hrow]
      rfl
  case h_10 h =>
    have hidx : instructionSet.index inst.value = cop0.eval (fields inst.value) :=
      eval_switch_of_lookup (k := opcodeField) h rfl
    rw [hidx, show inst.rs.toNat = _ from toNat_setWidth_extractFrom (f := rsField) (by decide) inst.value]
    split
    case h_4 =>
      have hk : fields inst.value rsField ∉ [0, 4, 16] := by
        simp only [List.mem_cons, List.not_mem_nil, or_false, not_or]
        repeat' apply And.intro
        all_goals assumption
      exact (InstructionSet.switch_bind_eq_none hnone _ hk (by decide +kernel)).symm
    all_goals
      rename_i hf
      have hrow : cop0.eval (fields inst.value) = _ := eval_switch_of_lookup (k := rsField) hf rfl
      rw [hrow]
      rfl
  case h_23 =>
    have hk : inst.opcode ∉ [0, 1, 2, 3, 4, 5, 6, 7, 8, 16, 32, 33, 34, 35, 36, 37, 38, 40, 41, 42, 43, 46] := by
        simp only [List.mem_cons, List.not_mem_nil, or_false, not_or]
        repeat' apply And.intro
        all_goals assumption
    exact (InstructionSet.switch_bind_eq_none hnone _ hk (by decide +kernel)).symm
  all_goals
    rename_i h
    have hidx : instructionSet.index inst.value = _ := eval_switch_of_lookup (k := opcodeField) h rfl
    rw [hidx]
    rfl

/-! ### The whole table -/

/-- The machine whose remaining rows are the functions that compute. -/
def machine (M : IopMachine (IopSpecial σ)) : IopMachine (IopSpecial σ) :=
  { M with other := fun inst => (instructionSet.dispatch inst.value).toOption.bind fun f =>
      (f.compute inst).map fun g d => .ok (g d) }

/-- What the function at `get_info()->impl_index` does. -/
def operation (M : IopMachine (IopSpecial σ)) (inst : IopCoreInstruction) (f : IopCoreFunction) : IopOperation (IopSpecial σ) :=
  (f.control M inst).getD (.data fun d => .done ((f.compute inst).getD id d))

theorem control_machine (M : IopMachine (IopSpecial σ)) (inst : IopCoreInstruction) (f : IopCoreFunction) :
    f.control (machine M) inst = f.control M inst := by
  cases f <;> rfl

/-- With them the lookup of the interpreter is that of the tables. -/
theorem lookup_machine (M : IopMachine (IopSpecial σ)) (inst : IopCoreInstruction) :
    (machine M).lookup inst = (instructionSet.dispatch inst.value).map (operation M inst) := by
  have hmodelled := modelled_eq (machine M) inst
  have hother : (machine M).other inst = (instructionSet.dispatch inst.value).toOption.bind fun f =>
      (f.compute inst).map fun g d => .ok (g d) := rfl
  rw [IopMachine.lookup]
  cases hd : instructionSet.dispatch inst.value with
  | error e =>
    rw [hd] at hmodelled hother
    rw [hmodelled, hother, (InstructionSet.dispatch_eq_error hd).2]
    rfl
  | ok f =>
    rw [hd] at hmodelled hother
    rw [hmodelled, hother]
    simp only [Except.toOption, Option.bind_some, control_machine, Except.map, operation]
    cases hc : f.control M inst with
    | some op => rfl
    | none =>
      obtain ⟨g, hg⟩ := Option.isSome_iff_exists.mp ((IopCoreFunction.control_eq_none_iff inst M f).mp hc)
      rw [hg]
      rfl

/-- A step of the interpreter runs the function that the tables have for the word it fetches. -/
theorem timeStep_dispatch (M : IopMachine (IopSpecial σ)) (s : IopCore (IopSpecial σ)) :
    s.timeStep (machine M) = do
      let s ← s.handleInterruptCheck
      let p ← s.fetch M
      let f ← instructionSet.dispatch p.1.value
      let s ← (← (operation M p.1 f).run p.2).handled
      return s.advancePc := by
  unfold IopCore.timeStep
  refine bind_congr fun sc => ?_
  refine bind_congr fun p => ?_
  change ((machine M).lookup p.1 >>= _) = _
  rw [lookup_machine]
  cases instructionSet.dispatch p.1.value <;> rfl

end IopCoreInstruction

end Orbum
