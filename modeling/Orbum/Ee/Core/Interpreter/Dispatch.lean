import Orbum.Ee.Core.Interpreter.Lookup
import Orbum.Ee.Core.Interpreter.TimeStep

/-!
# The EE interpreter and its tables

`Machine.modelled` has the instructions that the interpreter needs to know of, by their opcodes. Here it is the functions
that the source finds through `EeCoreInstruction::lookup()` and `EECORE_INSTRUCTION_TABLE`; the remaining functions of the
table may be any.
-/

namespace Orbum

namespace EeCoreFunction

variable {σ : Type} (M : Machine σ) (inst : EeCoreInstruction)

/-- The functions that branch, touch COP0, access memory or can raise an exception. -/
def control : EeCoreFunction → Option (Operation σ)
  | jr => some (.branch (.jr inst))
  | jalr => some (.branch (.jalr inst))
  | syscall => some (.data .syscall)
  | break_ => some (.data .break_)
  | add => some (.data (.add inst))
  | sub => some (.data (.sub inst))
  | dadd => some (.data (.dadd inst))
  | dsub => some (.data (.dsub inst))
  | tge => some (.data (.tge inst))
  | tgeu => some (.data (.tgeu inst))
  | tlt => some (.data (.tlt inst))
  | tltu => some (.data (.tltu inst))
  | teq => some (.data (.teq inst))
  | tne => some (.data (.tne inst))
  | bltz => some (.branch (.bltz inst false none))
  | bgez => some (.branch (.bgez inst false none))
  | bltzl => some (.branch (.bltz inst true none))
  | bgezl => some (.branch (.bgez inst true none))
  | tgei => some (.data (.tgei inst))
  | tgeiu => some (.data (.tgeiu inst))
  | tlti => some (.data (.tlti inst))
  | tltiu => some (.data (.tltiu inst))
  | teqi => some (.data (.teqi inst))
  | tnei => some (.data (.tnei inst))
  | bltzal => some (.branch (.bltz inst false (some 31)))
  | bgezal => some (.branch (.bgez inst false (some 31)))
  | bltzall => some (.branch (.bltz inst true (some 31)))
  | bgezall => some (.branch (.bgez inst true (some 31)))
  | j => some (.branch (.j inst))
  | jal => some (.branch (.jal inst))
  | beq => some (.branch (.beq inst false))
  | bne => some (.branch (.bne inst false))
  | blez => some (.branch (.blez inst false))
  | bgtz => some (.branch (.bgtz inst false))
  | addi => some (.data (.addi inst))
  | mfc0 => some (.system (.mfc0 inst.rt inst.rd))
  | mtc0 => some (.system (.mtc0 inst.rt inst.rd))
  | bc0f => some (.data (.bc0 "BC0F"))
  | bc0t => some (.data (.bc0 "BC0T"))
  | bc0fl => some (.data (.bc0 "BC0FL"))
  | bc0tl => some (.data (.bc0 "BC0TL"))
  | tlbr => some (.system .tlbr)
  | tlbwi => some (.system .tlbwi)
  | tlbwr => some (.system .tlbwr)
  | tlbp => some (.system .tlbp)
  | eret => some (.system .eret)
  | ei => some (.system .ei)
  | di => some (.system .di)
  | bc1f => some (.branch (.bc1 M inst 0 false))
  | bc1t => some (.branch (.bc1 M inst 1 false))
  | bc1fl => some (.branch (.bc1 M inst 0 true))
  | bc1tl => some (.branch (.bc1 M inst 1 true))
  | beql => some (.branch (.beq inst true))
  | bnel => some (.branch (.bne inst true))
  | blezl => some (.branch (.blez inst true))
  | bgtzl => some (.branch (.bgtz inst true))
  | daddi => some (.data (.daddi inst))
  | ldl => some (.data (.ldl M inst))
  | ldr => some (.data (.ldr M inst))
  | lq => some (.data (.lq M inst))
  | sq => some (.data (.sq M inst))
  | lb => some (.data (.lb M inst))
  | lh => some (.data (.lh M inst))
  | lwl => some (.data (.lwl M inst))
  | lw => some (.data (.lw M inst))
  | lbu => some (.data (.lbu M inst))
  | lhu => some (.data (.lhu M inst))
  | lwr => some (.data (.lwr M inst))
  | lwu => some (.data (.lwu M inst))
  | sb => some (.data (.sb M inst))
  | sh => some (.data (.sh M inst))
  | swl => some (.data (.swl M inst))
  | sw => some (.data (.sw M inst))
  | sdl => some (.data (.sdl M inst))
  | sdr => some (.data (.sdr M inst))
  | swr => some (.data (.swr M inst))
  | lwc1 => some (.data (.lwc1 M inst))
  | lqc2 => some (.data (.lqc2 M inst))
  | ld => some (.data (.ld M inst))
  | swc1 => some (.data (.swc1 M inst))
  | sd => some (.data (.sd M inst))
  | _ => none

/-- The function branches, touches COP0, accesses memory or can raise an exception. -/
def isControl : EeCoreFunction → Bool
  | jr | jalr | syscall | break_ | add | sub | dadd | dsub | tge | tgeu | tlt | tltu | teq | tne | bltz | bgez
  | bltzl | bgezl | tgei | tgeiu | tlti | tltiu | teqi | tnei | bltzal | bgezal | bltzall | bgezall | j | jal
  | beq | bne | blez | bgtz | addi | mfc0 | mtc0 | bc0f | bc0t | bc0fl | bc0tl | tlbr | tlbwi | tlbwr | tlbp
  | eret | ei | di | bc1f | bc1t | bc1fl | bc1tl | beql | bnel | blezl | bgtzl | daddi | ldl | ldr | lq | sq
  | lb | lh | lwl | lw | lbu | lhu | lwr | lwu | sb | sh | swl | sw | sdl | sdr | swr | lwc1 | lqc2 | ld | swc1
  | sd => true
  | _ => false

theorem control_eq_none {f : EeCoreFunction} (h : f.isControl = false) : f.control M inst = none := by
  cases f <;> first | rfl | cases h

end EeCoreFunction

namespace EeCoreInstruction

open SwitchTree

variable {σ : Type}

/-- What `lookup()` and the tables find are the instructions of the interpreter. -/
theorem modelled_eq (M : Machine σ) (inst : EeCoreInstruction) :
    M.modelled inst = (instructionSet.dispatch inst.value).toOption.bind (EeCoreFunction.control M inst) := by
  rw [InstructionSet.toOption_dispatch, funext function_eq]
  have hnone : ∀ f : EeCoreFunction, f.isControl = false → f.control M inst = none :=
    fun f => EeCoreFunction.control_eq_none M inst
  unfold Machine.modelled
  split
  case h_1 h =>
    have hidx : instructionSet.index inst.value = special.eval (fields inst.value) :=
      eval_switch_of_lookup (k := opcodeField) h rfl
    rw [hidx]
    split
    case h_15 =>
      have hk : inst.funct ∉ [8, 9, 12, 13, 32, 34, 44, 46, 48, 49, 50, 51, 52, 54] := by
        simp only [List.mem_cons, List.not_mem_nil, or_false, not_or]
        repeat' apply And.intro
        all_goals assumption
      exact (InstructionSet.switch_bind_eq_none hnone _ hk (by decide +kernel)).symm
    all_goals
      rename_i hf
      have hrow : special.eval (fields inst.value) = _ := eval_switch_of_lookup (k := functField) hf rfl
      rw [hrow]
      rfl
  case h_2 h =>
    have hidx : instructionSet.index inst.value = regimm.eval (fields inst.value) :=
      eval_switch_of_lookup (k := opcodeField) h rfl
    rw [hidx, show inst.rt.toNat = _ from toNat_setWidth_extractFrom (f := rtField) (by decide) inst.value]
    split
    case h_15 =>
      have hk : fields inst.value rtField ∉ [0, 1, 2, 3, 8, 9, 10, 11, 12, 14, 16, 17, 18, 19] := by
        simp only [List.mem_cons, List.not_mem_nil, or_false, not_or]
        repeat' apply And.intro
        all_goals assumption
      exact (InstructionSet.switch_bind_eq_none hnone _ hk (by decide +kernel)).symm
    all_goals
      rename_i hf
      have hrow : regimm.eval (fields inst.value) = _ := eval_switch_of_lookup (k := rtField) hf rfl
      rw [hrow]
      rfl
  case h_10 h =>
    have hidx : instructionSet.index inst.value = cop0.eval (fields inst.value) :=
      eval_switch_of_lookup (k := opcodeField) h rfl
    rw [hidx, show inst.rs.toNat = _ from toNat_setWidth_extractFrom (f := rsField) (by decide) inst.value,
      show inst.rt.toNat = _ from toNat_setWidth_extractFrom (f := rtField) (by decide) inst.value]
    split
    case h_3 hs =>
      have hinner : cop0.eval (fields inst.value) = _ := eval_switch_of_lookup (k := rsField) hs rfl
      rw [hinner]
      split
      case h_5 =>
        have hk : fields inst.value rtField ∉ [0, 1, 2, 3] := by
          simp only [List.mem_cons, List.not_mem_nil, or_false, not_or]
          repeat' apply And.intro
          all_goals assumption
        exact (InstructionSet.switch_bind_eq_none hnone _ hk (by decide +kernel)).symm
      all_goals
        rename_i ht
        rw [eval_switch_of_lookup (k := rtField) ht rfl]
        rfl
    case h_4 hs =>
      have hinner : cop0.eval (fields inst.value) = _ := eval_switch_of_lookup (k := rsField) hs rfl
      rw [hinner]
      split
      case h_8 =>
        have hk : inst.funct ∉ [1, 2, 6, 8, 24, 56, 57] := by
          simp only [List.mem_cons, List.not_mem_nil, or_false, not_or]
          repeat' apply And.intro
          all_goals assumption
        exact (InstructionSet.switch_bind_eq_none hnone _ hk (by decide +kernel)).symm
      all_goals
        rename_i hf
        rw [eval_switch_of_lookup (k := functField) hf rfl]
        rfl
    case h_5 =>
      have hk : fields inst.value rsField ∉ [0, 4, 8, 16] := by
        simp only [List.mem_cons, List.not_mem_nil, or_false, not_or]
        repeat' apply And.intro
        all_goals assumption
      exact (InstructionSet.switch_bind_eq_none hnone _ hk (by decide +kernel)).symm
    all_goals
      rename_i hs
      have hrow : cop0.eval (fields inst.value) = _ := eval_switch_of_lookup (k := rsField) hs rfl
      rw [hrow]
      rfl
  case h_11 h =>
    have hidx : instructionSet.index inst.value = cop1.eval (fields inst.value) :=
      eval_switch_of_lookup (k := opcodeField) h rfl
    rw [hidx, show inst.rs.toNat = _ from toNat_setWidth_extractFrom (f := rsField) (by decide) inst.value,
      show inst.rt.toNat = _ from toNat_setWidth_extractFrom (f := rtField) (by decide) inst.value]
    split
    case h_5 h0 h1 h2 h3 =>
      by_cases hs : fields inst.value rsField = 8
      · have hinner : cop1.eval (fields inst.value) = _ := eval_switch_of_lookup (k := rsField) hs rfl
        have hk : fields inst.value rtField ∉ [0, 1, 2, 3] := by
          simp only [List.mem_cons, List.not_mem_nil, or_false, not_or]
          exact ⟨h0 hs, h1 hs, h2 hs, h3 hs⟩
        rw [hinner]
        exact (InstructionSet.switch_bind_eq_none hnone _ hk (by decide +kernel)).symm
      · have hk : fields inst.value rsField ∉ [8] := by rwa [List.mem_singleton]
        exact (InstructionSet.switch_bind_eq_none hnone _ hk (by decide +kernel)).symm
    all_goals
      rename_i hs ht
      have hinner : cop1.eval (fields inst.value) = _ := eval_switch_of_lookup (k := rsField) hs rfl
      rw [hinner, eval_switch_of_lookup (k := rtField) ht rfl]
      rfl
  case h_42 =>
    have hk : inst.opcode ∉ [0, 1, 2, 3, 4, 5, 6, 7, 8, 16, 17, 20, 21, 22, 23, 24, 26, 27, 30, 31, 32, 33, 34, 35, 36, 37,
        38, 39, 40, 41, 42, 43, 44, 45, 46, 49, 54, 55, 57, 62, 63] := by
      simp only [List.mem_cons, List.not_mem_nil, or_false, not_or]
      repeat' apply And.intro
      all_goals assumption
    exact (InstructionSet.switch_bind_eq_none hnone _ hk (by decide +kernel)).symm
  all_goals
    rename_i h
    have hidx : instructionSet.index inst.value = _ := eval_switch_of_lookup (k := opcodeField) h rfl
    rw [hidx]
    rfl

/-! ### The whole table -/

/-- The machine whose remaining rows are the other functions of the table, with the `cpi` of the table. -/
def machine (M : Machine σ) (others : EeCoreFunction → EeCoreInstruction → OtherInstruction σ) : Machine σ :=
  { M with
    other := fun inst => (instructionSet.dispatch inst.value).toOption.map (others · inst)
    cpi := fun inst => (instructionSet.lookup inst.value).toOption.elim 0 fun info => BitVec.ofNat 32 info.cpi }

/-- What the function at `get_info()->impl_index` does. -/
def operation (M : Machine σ) (others : EeCoreFunction → EeCoreInstruction → OtherInstruction σ)
    (inst : EeCoreInstruction) (f : EeCoreFunction) : Operation σ :=
  (f.control M inst).getD (.data (.ofOther (others f inst)))

theorem control_machine (M : Machine σ) (others : EeCoreFunction → EeCoreInstruction → OtherInstruction σ)
    (inst : EeCoreInstruction) (f : EeCoreFunction) : f.control (machine M others) inst = f.control M inst := rfl

/-- With them the lookup of the interpreter is that of the tables. -/
theorem lookup_machine (M : Machine σ) (others : EeCoreFunction → EeCoreInstruction → OtherInstruction σ)
    (inst : EeCoreInstruction) :
    (machine M others).lookup inst = (instructionSet.dispatch inst.value).map (operation M others inst) := by
  have hmodelled := modelled_eq (machine M others) inst
  have hother : (machine M others).other inst = (instructionSet.dispatch inst.value).toOption.map (others · inst) := rfl
  rw [Machine.lookup]
  cases hd : instructionSet.dispatch inst.value with
  | error e =>
    rw [hd] at hmodelled hother
    rw [hmodelled, hother, (InstructionSet.dispatch_eq_error hd).2]
    rfl
  | ok f =>
    rw [hd] at hmodelled hother
    rw [hmodelled, hother]
    simp only [Except.toOption, Option.bind_some, Option.map_some, control_machine, Except.map, operation]
    cases f.control M inst <;> rfl

/-- A step of the interpreter runs the function that the tables have for the word it fetches. -/
theorem timeStep_machine (M : Machine σ) (others : EeCoreFunction → EeCoreInstruction → OtherInstruction σ)
    (ticks : ℕ) (s : EeCore σ) :
    s.timeStep (machine M others) ticks = (do
      let s ← s.check ticks
      let p ← s.fetch M
      let f ← instructionSet.dispatch p.1.value
      let q ← (← (operation M others p.1 f).run p.2).handled
      q.2.advancePc.countUpdate (machine M others) ticks p.1) := by
  unfold EeCore.timeStep
  refine bind_congr fun sc => ?_
  change (sc.fetch M >>= _) = _
  refine bind_congr fun p => ?_
  change ((machine M others).lookup p.1 >>= _) = _
  rw [lookup_machine]
  cases instructionSet.dispatch p.1.value <;> rfl

end EeCoreInstruction

end Orbum
