import Mathlib.Data.List.Induction
import Orbum.Common.DmaFifoQueue
import Orbum.Common.InstructionTable
import Orbum.Lib.Latch
import Orbum.Lib.LittleEndian

/-!
# The VIF

`CVif.cpp`, `VifcodeInstruction.cpp` and `VifUnitRegisters.cpp`. At a tick each of the two units that is not stalled
takes a quadword from its queue and decodes the four words as VIFcodes, as long as NUM is zero, which no VIFcode
changes.

## The model

The peripheral side of the queue is `push`, whether it is the DMAC or the EE that writes. The units have the registers
that a VIFcode reads or writes; the warnings of the codes that only VIF1 has are left out.

## What is proved

* `vif_run`: whatever the interleaving, each unit has executed the quadwords pushed into its queue from the first on,
  every one of their words as a VIFcode, and the registers are those that this makes them.
* `vif_drains`: ticks take whatever is queued, if all of it is VIFcodes.
-/

namespace Orbum

/-! ### VIFcodes -/

/-- The functions of `CVif` that run VIFcodes. -/
inductive VifcodeFunction where
  | instructionUnsupported | nop | stcycl | offset | base | itop | stmod | mskpath3 | mark | flushe | flush | flusha
  | mscal | mscalf | mscnt | stmask | strow | stcol | mpg | direct | directhl | unpack
  deriving DecidableEq

namespace VifcodeInstruction

open SwitchTree

/-- `CMDHI`. -/
def cmdhi : Bitfield := ⟨29, 2⟩

/-- `CMDLO`. -/
def cmdlo : Bitfield := ⟨24, 5⟩

/-- `imm()`. -/
def imm (value : Uword) : Uhword := (Bitfield.extractFrom ⟨0, 16⟩ value).setWidth 16

/-- `VIFCODE_INSTRUCTION_TABLE`. -/
def rows : List MipsInstructionInfo :=
  [⟨"NOP", 1, 1⟩, ⟨"STCYCL", 2, 1⟩, ⟨"OFFSET", 3, 1⟩, ⟨"BASE", 4, 1⟩, ⟨"ITOP", 5, 1⟩, ⟨"STMOD", 6, 1⟩,
   ⟨"MSKPATH3", 7, 1⟩, ⟨"MARK", 8, 1⟩, ⟨"FLUSHE", 9, 1⟩, ⟨"FLUSH", 10, 1⟩, ⟨"FLUSHA", 11, 1⟩, ⟨"MSCAL", 12, 1⟩,
   ⟨"MSCALF", 13, 1⟩, ⟨"MSCNT", 14, 1⟩, ⟨"STMASK", 15, 2⟩, ⟨"STROW", 16, 5⟩, ⟨"STCOL", 17, 5⟩, ⟨"MPG", 18, 10⟩,
   ⟨"DIRECT", 19, 10⟩, ⟨"DIRECTHL", 20, 10⟩, ⟨"UNPACK", 21, 100⟩]

/-- The body of `lookup()`. -/
def lookupTree : SwitchTree Bitfield ℕ :=
  switch cmdhi
    [(0, switch cmdlo (rets [(0, 0), (1, 1), (2, 2), (3, 3), (4, 4), (5, 5), (6, 6), (7, 7), (16, 8), (17, 9), (19, 10),
      (20, 11), (21, 12), (23, 13)])),
     (1, switch cmdlo (rets [(0, 14), (16, 15), (17, 16)])),
     (2, switch cmdlo (rets [(10, 17), (16, 18), (17, 19)])),
     (3, ret 20)]

/-- `INSTRUCTION_TABLE`, up to the first element that is null. -/
def functions : List VifcodeFunction :=
  [.instructionUnsupported, .nop, .stcycl, .offset, .base, .itop, .stmod, .mskpath3, .mark, .flushe, .flush, .flusha,
   .mscal, .mscalf, .mscnt, .stmask, .strow, .stcol, .mpg, .direct, .directhl, .unpack]

/-- The tables of the VIF. -/
def instructionSet : InstructionSet VifcodeFunction where
  lookupTree
  rows
  functions
  separated := separated_of_distinct (by decide +kernel)
  fits := by decide +kernel
  returns := by decide +kernel
  implIndex_lt := by decide +kernel

/-- `INSTRUCTION_UNSUPPORTED` never runs. -/
theorem dispatch_ne_unsupported (data : Uword) : instructionSet.dispatch data ≠ .ok .instructionUnsupported := by
  refine InstructionSet.dispatch_ne ?_ data
  decide

end VifcodeInstruction

/-! ### The units -/

/-- The registers of `VifUnit_Base` that a VIFcode reads or writes. -/
structure VifRegisters where
  /-- `cycle`. -/
  cycle : Uword
  /-- `mode`. -/
  mode : Uword
  /-- `itops`. -/
  itops : Uword
  /-- `base`. -/
  base : Uword
  /-- `ofst`. -/
  ofst : Uword
  /-- `tops`. -/
  tops : Uword
  /-- `mark`. -/
  mark : Uword
  /-- `num`. -/
  num : Uword
  /-- `stat`. -/
  stat : Uword
  deriving DecidableEq

/-- `VifUnit_Vif0` and `VifUnit_Vif1`, by their `core_id`. -/
inductive VifId where
  /-- `unit_0`. -/
  | vif0
  /-- `unit_1`. -/
  | vif1
  deriving DecidableEq

/-- `VifUnit_Base`. -/
structure VifUnit where
  /-- `dma_fifo_queue`. -/
  dmaFifoQueue : DmaFifoQueue
  /-- The registers. -/
  registers : VifRegisters

namespace VifRegisters

/-- `VifUnitRegister_Mode::MOD`. -/
def mod : Bitfield := ⟨0, 2⟩

/-- `VifUnitRegister_Itops::ITOPS`. -/
def itopsField : Bitfield := ⟨0, 10⟩

/-- `VifUnitRegister_Base::BASE`. -/
def baseField : Bitfield := ⟨0, 10⟩

/-- `VifUnitRegister_Ofst::OFFSET`. -/
def offset : Bitfield := ⟨0, 10⟩

/-- `VifUnitRegister_Mark::MARK`. -/
def markField : Bitfield := ⟨0, 16⟩

/-- `VifUnitRegister_Num::NUM`. -/
def numField : Bitfield := ⟨0, 8⟩

/-- `VifUnitRegister_Stat::DBF`. -/
def dbf : Bitfield := ⟨7, 1⟩

/-- `VSS`, `VFS`, `VIS`, `INT`, `ER0` and `ER1` of `VifUnitRegister_Stat`. -/
def stalls : List Bitfield := [⟨8, 1⟩, ⟨9, 1⟩, ⟨10, 1⟩, ⟨11, 1⟩, ⟨12, 1⟩, ⟨13, 1⟩]

variable (r : VifRegisters)

/-- `stat.is_stalled()`. -/
def isStalled : Bool := stalls.any fun f => f.extractFrom r.stat != 0

end VifRegisters

open VifcodeInstruction VifRegisters

/-- What the function does for a unit; the result of `CVif::f(unit, inst)` with the raw value `data` of `inst`. -/
def VifcodeFunction.run (f : VifcodeFunction) (coreId : VifId) (data : Uword) (r : VifRegisters) :
    Except HostError VifRegisters :=
  let immediate : Uword := (imm data).setWidth 32
  match f with
  | instructionUnsupported => .error (.runtimeError "VIFcode CMD field was invalid! Please fix.")
  | stcycl => .ok { r with cycle := immediate }
  | offset =>
    if coreId ≠ .vif1 then .ok r
    else .ok { r with
      stat := dbf.insertInto r.stat 0, ofst := VifRegisters.offset.insertInto r.ofst immediate, tops := r.base }
  | base => if coreId ≠ .vif1 then .ok r else .ok { r with base := baseField.insertInto r.base immediate }
  | itop => .ok { r with itops := itopsField.insertInto r.itops immediate }
  | stmod => .ok { r with mode := mod.insertInto r.mode immediate }
  | mark => .ok { r with mark := markField.insertInto r.mark immediate }
  | nop | mskpath3 | flushe | flush | flusha | mscal | mscalf | mscnt | stmask | strow | stcol | mpg | direct | directhl
  | unpack => .ok r

/-- One word of a packet. -/
def VifRegisters.process (coreId : VifId) (data : Uword) (r : VifRegisters) : Except HostError VifRegisters :=
  if numField.extractFrom r.num ≠ 0 then .ok r
  else do (← instructionSet.dispatch data).run coreId data r

/-- What is decoded of a packet, `uw[0]` first. -/
def Uqword.vifcodes (packet : Uqword) : List Uword := [packet.uw 0, packet.uw 1, packet.uw 2, packet.uw 3]

/-- The round of `CVif::time_step` for a unit. -/
def VifUnit.timeStep (coreId : VifId) (u : VifUnit) : Except HostError VifUnit :=
  if u.registers.isStalled then .ok u
  else if !u.dmaFifoQueue.hasReadAvailable 16 then .ok u
  else do
    let r ← u.dmaFifoQueue.read 16
    let registers ← Run.run (process coreId) (Uqword.vifcodes (LittleEndian.ofBytes 128 r.1)) u.registers
    return ⟨r.2, registers⟩

/-- One step of the VIF or of what fills its queues. -/
inductive VifOp where
  /-- `CVif::time_step`. -/
  | tick
  /-- `dma_fifo_queue->write(buffer, length)` for the queue of a unit. -/
  | push (coreId : VifId) (bytes : List Ubyte)
  deriving DecidableEq

namespace VifOp

/-- What a step does. -/
def step : VifOp → (VifId → VifUnit) → Except HostError (VifId → VifUnit)
  | tick, units => do
    let unit0 ← (units .vif0).timeStep .vif0
    let unit1 ← (units .vif1).timeStep .vif1
    return fun coreId => if coreId = .vif0 then unit0 else unit1
  | push coreId bytes, units => do
    let dmaFifoQueue ← (units coreId).dmaFifoQueue.write bytes
    return Function.update units coreId { units coreId with dmaFifoQueue }

/-- The bytes pushed into the queue of a unit. -/
def pushed (coreId : VifId) : VifOp → List Ubyte
  | tick => []
  | push coreId' bytes => if coreId' = coreId then bytes else []

end VifOp

/-! ### A stream of words -/

namespace VifRegisters

/-- What a word does where it is decoded. -/
def decode (coreId : VifId) (data : Uword) (r : VifRegisters) : Except HostError VifRegisters := do
  (← instructionSet.dispatch data).run coreId data r

/-- The unit decodes what it gets. -/
structure Ready (r : VifRegisters) : Prop where
  /-- It does not wait for the data of a VIFcode. -/
  num : numField.extractFrom r.num = 0
  /-- It is not stalled. -/
  running : r.isStalled = false

/-- The value that a word has for a register if it is the VIFcode of the function `f`. -/
def immediateOf (f : VifcodeFunction) (data : Uword) : Option Uword :=
  if (instructionSet.dispatch data).toOption = some f then some ((imm data).setWidth 32) else none

/-- The same for a VIFcode that only VIF1 has. -/
def immediateOfVif1 (coreId : VifId) (f : VifcodeFunction) (data : Uword) : Option Uword :=
  if coreId = .vif1 then immediateOf f data else none

/-- The registers after a stream of words, every one of them a VIFcode. -/
structure Executed (coreId : VifId) (words : List Uword) (r r' : VifRegisters) : Prop where
  /-- Each word has a function. -/
  codes : ∀ data ∈ words, ∃ f, instructionSet.dispatch data = .ok f
  /-- The last `STCYCL`. -/
  cycle : r'.cycle = Latch.last (immediateOf .stcycl) r.cycle words
  /-- The last `STMOD`. -/
  mode : r'.mode = mod.insertInto r.mode (Latch.last (immediateOf .stmod) (mod.extractFrom r.mode) words)
  /-- The last `ITOP`. -/
  itops : r'.itops =
    itopsField.insertInto r.itops (Latch.last (immediateOf .itop) (itopsField.extractFrom r.itops) words)
  /-- The last `MARK`. -/
  mark : r'.mark = markField.insertInto r.mark (Latch.last (immediateOf .mark) (markField.extractFrom r.mark) words)
  /-- The last `BASE`. -/
  base : r'.base = baseField.insertInto r.base
    (Latch.last (immediateOfVif1 coreId .base) (baseField.extractFrom r.base) words)
  /-- The last `OFFSET`. -/
  ofst : r'.ofst = offset.insertInto r.ofst
    (Latch.last (immediateOfVif1 coreId .offset) (offset.extractFrom r.ofst) words)
  /-- What BASE was at the last `OFFSET`. -/
  tops : ∀ before data after, words = before ++ data :: after → immediateOfVif1 coreId .offset data ≠ none →
    (∀ data' ∈ after, immediateOfVif1 coreId .offset data' = none) → r'.tops = baseField.insertInto r.base
      (Latch.last (immediateOfVif1 coreId .base) (baseField.extractFrom r.base) before)
  /-- Nothing is left to wait for, and nothing stalls the unit. -/
  ready : Ready r'

variable {coreId : VifId} {data : Uword} {r r' : VifRegisters} {words : List Uword}

/-- What one word does. -/
structure Decoded (coreId : VifId) (data : Uword) (r r' : VifRegisters) : Prop where
  /-- It has a function. -/
  code : ∃ f, instructionSet.dispatch data = .ok f
  /-- `STCYCL`. -/
  cycle : r'.cycle = (immediateOf .stcycl data).getD r.cycle
  /-- `STMOD`. -/
  mode : r'.mode = (immediateOf .stmod data).elim r.mode (mod.insertInto r.mode)
  /-- `ITOP`. -/
  itops : r'.itops = (immediateOf .itop data).elim r.itops (itopsField.insertInto r.itops)
  /-- `MARK`. -/
  mark : r'.mark = (immediateOf .mark data).elim r.mark (markField.insertInto r.mark)
  /-- `BASE`. -/
  base : r'.base = (immediateOfVif1 coreId .base data).elim r.base (baseField.insertInto r.base)
  /-- `OFFSET`. -/
  ofst : r'.ofst = (immediateOfVif1 coreId .offset data).elim r.ofst (offset.insertInto r.ofst)
  /-- `OFFSET` copies BASE. -/
  tops : r'.tops = (immediateOfVif1 coreId .offset data).elim r.tops fun _ => r.base
  /-- No VIFcode writes NUM. -/
  num : r'.num = r.num
  /-- None writes STAT but for `OFFSET`, which clears DBF. -/
  stat : r'.stat = r.stat ∨ r'.stat = dbf.insertInto r.stat 0

/-- What a word has for a register, by its function. -/
theorem immediateOf_of_dispatch {f : VifcodeFunction} (h : instructionSet.dispatch data = .ok f) (g : VifcodeFunction) :
    immediateOf g data = if f = g then some ((imm data).setWidth 32) else none := by
  rw [immediateOf, h]
  simp only [Except.toOption, Option.some.injEq]

theorem decoded_of_decode (h : decode coreId data r = .ok r') : Decoded coreId data r r' := by
  obtain ⟨f, hf, hrun⟩ := bind_eq_ok_iff.mp h
  have himm := immediateOf_of_dispatch hf
  have hvif1 (g : VifcodeFunction) : immediateOfVif1 coreId g data =
      if coreId = .vif1 then if f = g then some ((imm data).setWidth 32) else none else none := by
    rw [immediateOfVif1, himm]
  cases f with
  | instructionUnsupported => cases hrun
  | offset =>
    by_cases hcore : coreId = .vif1
    · subst hcore
      obtain rfl := Except.ok.inj hrun
      constructor <;> simp [himm, hvif1, hf]
    · rw [VifcodeFunction.run, if_pos hcore] at hrun
      obtain rfl := Except.ok.inj hrun
      constructor <;> simp [himm, hvif1, hcore, hf]
  | base =>
    by_cases hcore : coreId = .vif1
    · subst hcore
      obtain rfl := Except.ok.inj hrun
      constructor <;> simp [himm, hvif1, hf]
    · rw [VifcodeFunction.run, if_pos hcore] at hrun
      obtain rfl := Except.ok.inj hrun
      constructor <;> simp [himm, hvif1, hcore, hf]
  | _ =>
    obtain rfl := Except.ok.inj hrun
    constructor <;> simp [himm, hvif1, hf]

/-- A register that one VIFcode writes a field of. -/
theorem field_run {touch : Uword → Option Uword} {f : Bitfield} {get : VifRegisters → Uword}
    (hstep : ∀ data r r', decode coreId data r = .ok r' → get r' = (touch data).elim (get r) (f.insertInto (get r)))
    (h : Run.run (decode coreId) words r = .ok r') :
    get r' = f.insertInto (get r) (Latch.last touch (f.extractFrom (get r)) words) := by
  induction words using List.reverseRecOn generalizing r' with
  | nil =>
    obtain rfl := Except.ok.inj h
    exact (Bitfield.insertInto_extractFrom ..).symm
  | append_singleton words data ih =>
    obtain ⟨r₁, hrun, hlast⟩ := Run.run_append.mp h
    obtain ⟨r₂, hdata, hnil⟩ := Run.run_cons_ok.mp hlast
    obtain rfl := Except.ok.inj hnil
    rw [hstep data r₁ r₂ hdata, ih hrun, Latch.last_append, Latch.last_cons, Latch.last_nil]
    cases touch data with
    | none => rfl
    | some value => exact Bitfield.insertInto_insertInto ..

/-- Where no `OFFSET` comes TOPS stays. -/
theorem tops_run (h : Run.run (decode coreId) words r = .ok r')
    (hnone : ∀ data ∈ words, immediateOfVif1 coreId .offset data = none) : r'.tops = r.tops := by
  induction words generalizing r with
  | nil =>
    obtain rfl := Except.ok.inj h
    rfl
  | cons data words ih =>
    obtain ⟨r₁, hdata, h⟩ := Run.run_cons_ok.mp h
    rw [ih h fun d hd => hnone d (List.mem_cons_of_mem data hd), (decoded_of_decode hdata).tops,
      hnone data List.mem_cons_self]
    rfl

/-- No VIFcode stalls the unit. -/
theorem isStalled_of_stat (h : r'.stat = r.stat ∨ r'.stat = dbf.insertInto r.stat 0) : r'.isStalled = r.isStalled := by
  unfold isStalled
  obtain h | h := h
  · rw [h]
  · rw [h]
    have hdisjoint : ∀ f ∈ stalls, Bitfield.Disjoint f dbf := by decide
    have hkeeps (f : Bitfield) (hf : f ∈ stalls) : f.extractFrom (dbf.insertInto r.stat 0) = f.extractFrom r.stat :=
      Bitfield.extractFrom_insertInto_of_disjoint _ _ (hdisjoint f hf)
    rw [Bool.eq_iff_iff, List.any_eq_true, List.any_eq_true]
    exact exists_congr fun f => and_congr_right fun hf => by rw [hkeeps f hf]

theorem ready_of_decoded (h : Decoded coreId data r r') (hr : Ready r) : Ready r' where
  num := by rw [h.num, hr.num]
  running := by rw [isStalled_of_stat h.stat, hr.running]

/-- A unit that is ready decodes all that it gets. -/
theorem run_process (words : List Uword) (hr : Ready r) :
    Run.run (process coreId) words r = Run.run (decode coreId) words r := by
  induction words generalizing r with
  | nil => rfl
  | cons data words ih =>
    have hfirst : process coreId data r = decode coreId data r := by
      rw [process, if_neg (not_not.mpr hr.num)]
      rfl
    rw [Run.run, Run.run, hfirst]
    cases h : decode coreId data r with
    | error e => rfl
    | ok r₁ => exact ih (ready_of_decoded (decoded_of_decode h) hr)

theorem ready_run (hr : Ready r) (h : Run.run (decode coreId) words r = .ok r') :
    (∀ data ∈ words, ∃ f, instructionSet.dispatch data = .ok f) ∧ Ready r' := by
  induction words generalizing r with
  | nil =>
    obtain rfl := Except.ok.inj h
    exact ⟨by simp, hr⟩
  | cons data words ih =>
    obtain ⟨r₁, hdata, h⟩ := Run.run_cons_ok.mp h
    have hdec := decoded_of_decode hdata
    obtain ⟨hcodes, hready⟩ := ih (ready_of_decoded hdec hr) h
    exact ⟨List.forall_mem_cons.mpr ⟨hdec.code, hcodes⟩, hready⟩

/-- A unit that is ready runs VIFcodes. -/
theorem exists_run_process (hr : Ready r) (hcodes : ∀ data ∈ words, ∃ f, instructionSet.dispatch data = .ok f) :
    ∃ r', Run.run (process coreId) words r = .ok r' := by
  rw [run_process words hr]
  have hdecode (data : Uword) (hdata : data ∈ words) (r : VifRegisters) : ∃ r', decode coreId data r = .ok r' := by
    obtain ⟨f, hf⟩ := hcodes data hdata
    rw [decode, hf, ok_bind]
    have hne : f ≠ .instructionUnsupported := fun h => dispatch_ne_unsupported data (h ▸ hf)
    cases f with
    | instructionUnsupported => exact absurd rfl hne
    | offset | base =>
      rw [VifcodeFunction.run]
      split_ifs <;> exact ⟨_, rfl⟩
    | _ => exact ⟨_, rfl⟩
  clear hr hcodes
  induction words generalizing r with
  | nil => exact ⟨r, rfl⟩
  | cons data words ih =>
    obtain ⟨r₁, hr₁⟩ := hdecode data List.mem_cons_self r
    obtain ⟨r', hr'⟩ := ih (r := r₁) fun d hd => hdecode d (List.mem_cons_of_mem data hd)
    exact ⟨r', Run.run_cons_ok.mpr ⟨r₁, hr₁, hr'⟩⟩

/-- The registers after a stream of words. -/
theorem executed_run (hr : Ready r) (h : Run.run (process coreId) words r = .ok r') : Executed coreId words r r' := by
  rw [run_process words hr] at h
  obtain ⟨hcodes, hready⟩ := ready_run hr h
  constructor
  · exact hcodes
  · exact Latch.last_run (·.cycle) h fun data r r' h => (decoded_of_decode h).cycle
  · exact field_run (fun data r r' h => (decoded_of_decode h).mode) h
  · exact field_run (fun data r r' h => (decoded_of_decode h).itops) h
  · exact field_run (fun data r r' h => (decoded_of_decode h).mark) h
  · exact field_run (fun data r r' h => (decoded_of_decode h).base) h
  · exact field_run (fun data r r' h => (decoded_of_decode h).ofst) h
  · rintro before data after rfl hdata hafter
    obtain ⟨r₁, hbefore, h⟩ := Run.run_append.mp h
    obtain ⟨r₂, hcode, h⟩ := Run.run_cons_ok.mp h
    obtain ⟨value, hvalue⟩ := Option.ne_none_iff_exists'.mp hdata
    rw [tops_run h hafter, (decoded_of_decode hcode).tops, hvalue, Option.elim_some]
    exact field_run (fun data r r' h => (decoded_of_decode h).base) hbefore
  · exact hready

end VifRegisters

/-! ### Runs -/

/-- A unit has taken packets from its queue since `u`, while `bytes` were pushed. -/
def VifUnit.Fed (coreId : VifId) (u u' : VifUnit) (bytes : List Ubyte) (packets : List Uqword) : Prop :=
  u.dmaFifoQueue.bytes ++ bytes = packets.flatMap (LittleEndian.bytes 16) ++ u'.dmaFifoQueue.bytes ∧
    Run.run (process coreId) (packets.flatMap Uqword.vifcodes) u.registers = .ok u'.registers

namespace VifUnit

variable {coreId : VifId} {u u' u'' : VifUnit}

theorem Fed.refl (u : VifUnit) : Fed coreId u u [] [] := ⟨List.append_nil _, rfl⟩

theorem Fed.trans {bytes bytes' : List Ubyte} {packets packets' : List Uqword} (h : Fed coreId u u' bytes packets)
    (h' : Fed coreId u' u'' bytes' packets') : Fed coreId u u'' (bytes ++ bytes') (packets ++ packets') := by
  refine ⟨?_, ?_⟩
  · rw [← List.append_assoc, h.1, List.append_assoc, h'.1, List.flatMap_append, List.append_assoc]
  · rw [List.flatMap_append, Run.run_append]
    exact ⟨_, h.2, h'.2⟩

/-- A tick takes nothing, or one packet. -/
theorem fed_timeStep (h : u.timeStep coreId = .ok u') : ∃ packets, packets.length ≤ 1 ∧ Fed coreId u u' [] packets := by
  unfold timeStep at h
  split_ifs at h
  · obtain rfl := Except.ok.inj h
    exact ⟨[], by simp, .refl u⟩
  · obtain rfl := Except.ok.inj h
    exact ⟨[], by simp, .refl u⟩
  · obtain ⟨⟨bytes, queue⟩, hread, h⟩ := bind_eq_ok_iff.mp h
    obtain ⟨registers, hrun, h⟩ := bind_eq_ok_iff.mp h
    obtain rfl := Except.ok.inj h
    obtain ⟨hbytes, hlength⟩ := DmaFifoQueue.bytes_of_read hread
    refine ⟨[LittleEndian.ofBytes 128 bytes], Nat.le_refl _, ?_, ?_⟩
    · rw [List.append_nil, hbytes, List.flatMap_singleton, LittleEndian.bytes_ofBytes hlength (Nat.le_refl _)]
    · rw [List.flatMap_singleton]
      exact hrun

/-- What is left in the queue is what was not taken. -/
theorem Fed.bytes_eq {packets packets' : List Uqword} {rest : List Ubyte} (h : Fed coreId u u' [] packets)
    (hbytes : u.dmaFifoQueue.bytes = (packets ++ packets').flatMap (LittleEndian.bytes 16) ++ rest) :
    u'.dmaFifoQueue.bytes = packets'.flatMap (LittleEndian.bytes 16) ++ rest := by
  have h := h.1
  rw [List.append_nil, hbytes, List.flatMap_append, List.append_assoc] at h
  exact (List.append_cancel_left h).symm

theorem Fed.ready {bytes : List Ubyte} {packets : List Uqword} (h : Fed coreId u u' bytes packets)
    (hready : Ready u.registers) : Ready u'.registers :=
  (executed_run hready h.2).ready

/-- A tick takes the next packet, if it consists of VIFcodes. -/
theorem timeStep_of_codes {packets : List Uqword} {rest : List Ubyte} (hready : Ready u.registers)
    (hbytes : u.dmaFifoQueue.bytes = packets.flatMap (LittleEndian.bytes 16) ++ rest) (hrest : rest.length < 16)
    (hcodes : ∀ data ∈ packets.flatMap Uqword.vifcodes, ∃ f, instructionSet.dispatch data = .ok f) :
    ∃ u', u.timeStep coreId = .ok u' ∧ Fed coreId u u' [] (packets.take 1) := by
  cases packets with
  | nil =>
    refine ⟨u, ?_, .refl u⟩
    have havailable : ¬u.dmaFifoQueue.hasReadAvailable 16 := by
      rw [DmaFifoQueue.hasReadAvailable_iff, hbytes]
      simpa using hrest
    rw [timeStep, hready.running, if_neg Bool.false_ne_true, if_pos (by simpa using havailable)]
  | cons packet packets =>
    have hlength : 16 ≤ u.dmaFifoQueue.bytes.length := by
      rw [hbytes, List.flatMap_cons, List.length_append, List.length_append, LittleEndian.length_bytes]
      omega
    have htake : u.dmaFifoQueue.bytes.take 16 = LittleEndian.bytes 16 packet := by
      rw [hbytes, List.flatMap_cons, List.append_assoc, List.take_left' (LittleEndian.length_bytes 16 packet)]
    obtain ⟨registers, hrun⟩ := exists_run_process hready fun data hdata =>
      hcodes data (List.mem_flatMap.mpr ⟨packet, List.mem_cons_self, hdata⟩)
    refine ⟨⟨u.dmaFifoQueue.drop 16, registers⟩, ?_, ?_, ?_⟩
    · have havailable := DmaFifoQueue.hasReadAvailable_iff.mpr hlength
      rw [timeStep, hready.running, if_neg Bool.false_ne_true, if_neg (by simpa using havailable),
        DmaFifoQueue.read_eq hlength, ok_bind, htake, LittleEndian.ofBytes_bytes 16 packet (Nat.le_refl _), hrun]
      rfl
    · rw [List.append_nil, List.take_succ_cons, List.take_zero, List.flatMap_singleton, ← htake,
        DmaFifoQueue.bytes_drop, List.take_append_drop]
    · rw [List.take_succ_cons, List.take_zero, List.flatMap_singleton]
      exact hrun

end VifUnit

namespace VifOp

variable {units units' : VifId → VifUnit}

/-- What ticks take, if it consists of VIFcodes. -/
theorem exists_run_ticks (packets : VifId → List Uqword) (rest : VifId → List Ubyte)
    (hready : ∀ coreId, Ready (units coreId).registers)
    (hbytes : ∀ coreId,
      (units coreId).dmaFifoQueue.bytes = (packets coreId).flatMap (LittleEndian.bytes 16) ++ rest coreId)
    (hrest : ∀ coreId, (rest coreId).length < 16)
    (hcodes : ∀ coreId, ∀ data ∈ (packets coreId).flatMap Uqword.vifcodes, ∃ f, instructionSet.dispatch data = .ok f)
    (n : ℕ) :
    ∃ units', Run.run step (List.replicate n tick) units = .ok units' ∧
      ∀ coreId, VifUnit.Fed coreId (units coreId) (units' coreId) [] ((packets coreId).take n) := by
  induction n generalizing units packets with
  | zero => exact ⟨units, rfl, fun coreId => .refl _⟩
  | succ n ih =>
    obtain ⟨unit0, h0, hfed0⟩ := VifUnit.timeStep_of_codes (hready .vif0) (hbytes .vif0) (hrest .vif0) (hcodes .vif0)
    obtain ⟨unit1, h1, hfed1⟩ := VifUnit.timeStep_of_codes (hready .vif1) (hbytes .vif1) (hrest .vif1) (hcodes .vif1)
    obtain ⟨units₁, hunits₁⟩ : ∃ units₁ : VifId → VifUnit,
        units₁ = fun coreId => if coreId = .vif0 then unit0 else unit1 :=
      ⟨_, rfl⟩
    have hfirst : tick.step units = .ok units₁ := by
      rw [step, h0, ok_bind, h1, ok_bind, hunits₁]
      rfl
    have hfed₁ (coreId : VifId) : VifUnit.Fed coreId (units coreId) (units₁ coreId) [] ((packets coreId).take 1) := by
      rw [hunits₁]
      cases coreId with
      | vif0 => exact hfed0
      | vif1 => exact hfed1
    -- what is left after the first tick
    obtain ⟨units', hrun, hfed⟩ := ih (fun coreId => (packets coreId).drop 1)
      (fun coreId => (hfed₁ coreId).ready (hready coreId))
      (fun coreId => (hfed₁ coreId).bytes_eq (by rw [List.take_append_drop, hbytes]))
      (fun coreId data hdata => hcodes coreId data
        (List.mem_flatMap.mpr ((List.mem_flatMap.mp hdata).imp fun _ h => h.imp_left List.mem_of_mem_drop)))
    refine ⟨units', Run.run_cons_ok.mpr ⟨units₁, hfirst, hrun⟩, fun coreId => ?_⟩
    rw [Nat.add_comm, List.take_add]
    exact (hfed₁ coreId).trans (hfed coreId)

/-- One step, for each unit. -/
theorem fed_step {op : VifOp} (h : op.step units = .ok units') (coreId : VifId) :
    ∃ packets, packets.length ≤ [op].count tick ∧
      VifUnit.Fed coreId (units coreId) (units' coreId) (op.pushed coreId) packets := by
  cases op with
  | tick =>
    obtain ⟨unit0, h0, h⟩ := bind_eq_ok_iff.mp h
    obtain ⟨unit1, h1, h⟩ := bind_eq_ok_iff.mp h
    obtain rfl := Except.ok.inj h
    have hfed : ∃ packets, packets.length ≤ 1 ∧
        VifUnit.Fed coreId (units coreId) (if coreId = .vif0 then unit0 else unit1) [] packets := by
      cases coreId with
      | vif0 => exact VifUnit.fed_timeStep h0
      | vif1 => exact VifUnit.fed_timeStep h1
    simpa [pushed] using hfed
  | push coreId' bytes =>
    obtain ⟨queue, hwrite, h⟩ := bind_eq_ok_iff.mp h
    obtain rfl := Except.ok.inj h
    refine ⟨[], Nat.zero_le _, ?_⟩
    by_cases hid : coreId' = coreId
    · subst hid
      rw [Function.update_self, pushed, if_pos rfl]
      refine ⟨?_, rfl⟩
      rw [List.flatMap_nil, List.nil_append]
      exact (DmaFifoQueue.bytes_of_write hwrite).symm
    · rw [Function.update_of_ne (Ne.symm hid), pushed, if_neg hid]
      exact .refl _

/-- A run, for each unit. -/
theorem fed_run {ops : List VifOp} (h : Run.run step ops units = .ok units') (coreId : VifId) :
    ∃ packets, packets.length ≤ ops.count tick ∧
      VifUnit.Fed coreId (units coreId) (units' coreId) (ops.flatMap (pushed coreId)) packets := by
  induction ops generalizing units with
  | nil =>
    obtain rfl := Except.ok.inj h
    exact ⟨[], Nat.zero_le _, .refl _⟩
  | cons op ops ih =>
    obtain ⟨units₁, hop, h⟩ := Run.run_cons_ok.mp h
    obtain ⟨packets₁, hlen₁, hfed₁⟩ := fed_step hop coreId
    obtain ⟨packets, hlen, hfed⟩ := ih h
    refine ⟨packets₁ ++ packets, ?_, ?_⟩
    · have hcount : (op :: ops).count tick = [op].count tick + ops.count tick := by
        rw [← List.count_append, List.singleton_append]
      rw [List.length_append, hcount]
      exact Nat.add_le_add hlen₁ hlen
    · rw [List.flatMap_cons]
      exact hfed₁.trans hfed

end VifOp

/-- `OFFSET`, `BASE`, `MARK` and `ITOP`. -/
def exampleCodes : Uqword := 0x04000021070000770300015502000321#128

/-- Registers at boot. -/
def VifRegisters.boot : VifRegisters := ⟨0, 0, 0, 0, 0, 0, 0, 0, 0⟩

theorem VifRegisters.boot_ready : Ready boot := ⟨by decide, by decide⟩

theorem exampleCodes_codes : ∀ data ∈ Uqword.vifcodes exampleCodes, ∃ f, instructionSet.dispatch data = .ok f := by
  refine List.forall_mem_cons.mpr ⟨⟨.offset, rfl⟩, List.forall_mem_cons.mpr ⟨⟨.base, rfl⟩,
    List.forall_mem_cons.mpr ⟨⟨.mark, rfl⟩, List.forall_mem_cons.mpr ⟨⟨.itop, rfl⟩, by simp⟩⟩⟩⟩

/-- Whatever the steps, a unit that was ready has executed the quadwords that came into its queue, from the first on. -/
theorem vif_run {ops : List VifOp} {units units' : VifId → VifUnit} (h : Run.run VifOp.step ops units = .ok units')
    (coreId : VifId) (hready : Ready (units coreId).registers) :
    ∃ packets : List Uqword, packets.length ≤ ops.count .tick ∧
      (units coreId).dmaFifoQueue.bytes ++ ops.flatMap (VifOp.pushed coreId) =
        packets.flatMap (LittleEndian.bytes 16) ++ (units' coreId).dmaFifoQueue.bytes ∧
      Executed coreId (packets.flatMap Uqword.vifcodes) (units coreId).registers (units' coreId).registers := by
  obtain ⟨packets, hlength, hfed⟩ := VifOp.fed_run h coreId
  exact ⟨packets, hlength, hfed.1, executed_run hready hfed.2⟩

/-- A packet that comes to VIF1, and a tick. -/
theorem vif_run_codes :
    ∃ units', Run.run VifOp.step [.push .vif1 (LittleEndian.bytes 16 exampleCodes), .tick] (fun _ => ⟨.empty, .boot⟩) =
        .ok units' ∧
      ∃ packets : List Uqword, packets.length ≤ 1 ∧
        LittleEndian.bytes 16 exampleCodes =
          packets.flatMap (LittleEndian.bytes 16) ++ (units' .vif1).dmaFifoQueue.bytes ∧
        Executed .vif1 (packets.flatMap Uqword.vifcodes) .boot (units' .vif1).registers := by
  obtain ⟨units', hrun, -⟩ := @VifOp.exists_run_ticks
    (Function.update (fun _ => ⟨.empty, .boot⟩) .vif1 ⟨⟨LittleEndian.bytes 16 exampleCodes, by simp⟩, .boot⟩)
    (Function.update (fun _ => []) .vif1 [exampleCodes]) (fun _ => [])
    (by rintro (_ | _) <;> exact VifRegisters.boot_ready) (by rintro (_ | _) <;> rfl) (by simp)
    (by
      rintro (_ | _)
      · simp
      · exact exampleCodes_codes) 1
  have hrun : Run.run VifOp.step [.push .vif1 (LittleEndian.bytes 16 exampleCodes), .tick]
      (fun _ => ⟨.empty, .boot⟩) = .ok units' := by
    refine Run.run_cons_ok.mpr ⟨_, ?_, hrun⟩
    rw [VifOp.step, DmaFifoQueue.write_eq (by simp [DmaFifoQueue.empty]), ok_bind]
    rfl
  exact ⟨units', hrun, vif_run hrun .vif1 VifRegisters.boot_ready⟩

/-- Where the quadwords in the queues consist of VIFcodes, ticks execute them all and leave the bytes that make none. -/
theorem vif_drains (packets : VifId → List Uqword) (rest : VifId → List Ubyte) {units : VifId → VifUnit}
    (hready : ∀ coreId, Ready (units coreId).registers)
    (hbytes : ∀ coreId,
      (units coreId).dmaFifoQueue.bytes = (packets coreId).flatMap (LittleEndian.bytes 16) ++ rest coreId)
    (hrest : ∀ coreId, (rest coreId).length < 16)
    (hcodes : ∀ coreId, ∀ data ∈ (packets coreId).flatMap Uqword.vifcodes, ∃ f, instructionSet.dispatch data = .ok f)
    {n : ℕ} (hn : ∀ coreId, (packets coreId).length ≤ n) :
    ∃ units', Run.run VifOp.step (List.replicate n .tick) units = .ok units' ∧
      ∀ coreId, (units' coreId).dmaFifoQueue.bytes = rest coreId ∧
        Executed coreId ((packets coreId).flatMap Uqword.vifcodes) (units coreId).registers
          (units' coreId).registers := by
  obtain ⟨units', hrun, hfed⟩ := VifOp.exists_run_ticks packets rest hready hbytes hrest hcodes n
  refine ⟨units', hrun, fun coreId => ?_⟩
  have hfed := hfed coreId
  rw [List.take_of_length_le (hn coreId)] at hfed
  refine ⟨?_, executed_run (hready coreId) hfed.2⟩
  have hleft : (units' coreId).dmaFifoQueue.bytes = List.flatMap (LittleEndian.bytes 16) [] ++ rest coreId :=
    hfed.bytes_eq (by rw [List.append_nil, hbytes])
  exact hleft

/-- The same packet in both queues, and a byte behind it. -/
theorem vif_drains_codes :
    ∃ units', Run.run VifOp.step [.tick, .tick] (fun _ =>
        ⟨⟨LittleEndian.bytes 16 exampleCodes ++ [0x55], by simp⟩, .boot⟩) = .ok units' ∧
      ∀ coreId, (units' coreId).dmaFifoQueue.bytes = [0x55] ∧
        Executed coreId (Uqword.vifcodes exampleCodes) .boot (units' coreId).registers :=
  vif_drains (fun _ => [exampleCodes]) (fun _ => [0x55]) (n := 2) (fun _ => VifRegisters.boot_ready) (fun _ => rfl)
    (fun _ => by simp) (fun _ => exampleCodes_codes) (fun _ => by simp)

end Orbum
