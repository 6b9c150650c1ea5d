import Orbum.Iop.Core.Dispatch
import Orbum.Iop.Core.ExceptionEntry
import Orbum.Iop.Intc

/-!
# From a device to the handler of the IOP

The IOP core with the registers of the INTC on its bus, the controller and the devices, one step after another in any
order.

## The model

The devices behind the other addresses are a parameter, and between the steps of the core they may do anything. Beside
the registers the bus keeps the accesses that have changed one, as a ghost.

## What is proved

The system refines the model of the INTC alone (`refined_run`): what the core does in a step, whatever it executes, is
some accesses to the registers and to `Cause`. So an interrupt is taken by the step after a tick that found one raised,
and by no other (`iopSystem_run`).
-/

namespace Orbum

/-! ### The bus -/

/-- What the IOP bus has mapped. -/
structure IopBus (δ : Type) where
  /-- The registers of the INTC. -/
  intc : IopIntc
  /-- Everything else. -/
  devices : δ
  /-- The accesses that have changed a register, the first one first. -/
  accesses : List IopIntcAccess

/-- What the other objects on the bus do with accesses of `w` bits. -/
structure IopDevices (δ : Type) where
  /-- A read. -/
  read (w : ℕ) (physicalAddress : Uptr) : δ → Except HostError (BitVec w × δ)
  /-- A write. -/
  write (w : ℕ) (physicalAddress : Uptr) (value : BitVec w) : δ → Except HostError δ

namespace IopIntc

/-- The addresses of I_STAT, I_MASK and I_CTRL, one after the other. -/
def Maps (physicalAddress : Uptr) : Prop := 0x1F801070 ≤ physicalAddress ∧ physicalAddress < 0x1F80107C

instance (physicalAddress : Uptr) : Decidable (Maps physicalAddress) := inferInstanceAs (Decidable (_ ∧ _))

/-- The register at an address. -/
def registerAt (r : IopIntc) (physicalAddress : Uptr) : Uword :=
  if physicalAddress < 0x1F801074 then r.stat else if physicalAddress < 0x1F801078 then r.mask else r.ctrl

/-- `physical_address - base_address`. -/
def offset (physicalAddress : Uptr) : Fin 4 := ⟨physicalAddress.toNat % 4, Nat.mod_lt _ (by decide)⟩

/-- A write of `w` bits to the register at an address. -/
def writeAccess (w : ℕ) (physicalAddress : Uptr) (value : BitVec w) : IopIntcAccess :=
  let a : BusAccess :=
    if w = 8 then .ubyte (offset physicalAddress) (value.setWidth 8)
    else if w = 16 then .uhword (offset physicalAddress) (value.setWidth 16)
    else .uword (value.setWidth 32)
  if physicalAddress < 0x1F801074 then .writeStat a
  else if physicalAddress < 0x1F801078 then .writeMask a else .writeCtrl a

end IopIntc

namespace IopBus

variable {δ : Type}

/-- An access that changes a register. -/
def access (b : IopBus δ) (a : IopIntcAccess) : IopBus δ :=
  { b with intc := b.intc.access a, accesses := b.accesses ++ [a] }

/-- `iop.bus.read_*(context, physical_address)`. -/
def read (D : IopDevices δ) (w : ℕ) (physicalAddress : Uptr) (b : IopBus δ) :
    Except HostError (BitVec w × IopBus δ) :=
  if IopIntc.Maps physicalAddress then
    .ok (Lanes.lane w (IopIntc.offset physicalAddress / (w / 8)) (b.intc.registerAt physicalAddress),
      if 0x1F801078 ≤ physicalAddress ∧ w = 32 then b.access .readCtrl else b)
  else do
    let r ← D.read w physicalAddress b.devices
    return (r.1, { b with devices := r.2 })

/-- `iop.bus.write_*(context, physical_address, value)`. -/
def write (D : IopDevices δ) (w : ℕ) (physicalAddress : Uptr) (value : BitVec w) (b : IopBus δ) :
    Except HostError (IopBus δ) :=
  if IopIntc.Maps physicalAddress then .ok (b.access (IopIntc.writeAccess w physicalAddress value))
  else do return { b with devices := ← D.write w physicalAddress value b.devices }

/-- The accesses that take one state of the bus to another. -/
def Reaches (b b' : IopBus δ) : Prop :=
  ∃ accesses : List IopIntcAccess, b'.accesses = b.accesses ++ accesses ∧ b'.intc = accesses.foldl IopIntc.access b.intc

variable {b b' b'' : IopBus δ}

theorem Reaches.refl (b : IopBus δ) : Reaches b b := ⟨[], (List.append_nil _).symm, rfl⟩

theorem Reaches.of_eq (h : b' = b) : Reaches b b' := h ▸ .refl b

theorem Reaches.trans (h : Reaches b b') (h' : Reaches b' b'') : Reaches b b'' := by
  obtain ⟨l, hlog, hintc⟩ := h
  obtain ⟨l', hlog', hintc'⟩ := h'
  exact ⟨l ++ l', by rw [hlog', hlog, List.append_assoc], by rw [hintc', hintc, List.foldl_append]⟩

theorem reaches_access (b : IopBus δ) (a : IopIntcAccess) : Reaches b (b.access a) := ⟨[a], rfl, rfl⟩

theorem reaches_read (D : IopDevices δ) (w : ℕ) (pa : Uptr) (b : IopBus δ) :
    Ensures (fun r => Reaches b r.2) (read D w pa b) := by
  unfold read
  split_ifs
  · exact .ok (reaches_access b .readCtrl)
  · exact .ok (.refl b)
  · exact (Ensures.trivial _).bind fun r _ => .ok ⟨[], (List.append_nil _).symm, rfl⟩

theorem reaches_write (D : IopDevices δ) (w : ℕ) (pa : Uptr) (value : BitVec w) (b : IopBus δ) :
    Ensures (Reaches b) (write D w pa value b) := by
  unfold write
  split_ifs
  · exact .ok (reaches_access b _)
  · exact (Ensures.trivial _).bind fun r _ => .ok ⟨[], (List.append_nil _).symm, rfl⟩

end IopBus

/-! ### The system -/

/-- The IOP core, with HI, LO and the bus. -/
abbrev IopSystem (δ : Type) := IopCore (IopSpecial (IopBus δ))

/-- The accesses of the core. -/
def IopDevices.busMachine {δ : Type} (D : IopDevices δ) : IopMachine (IopSpecial (IopBus δ)) where
  busRead w pa special := do
    let r ← IopBus.read D w pa special.rest
    return (r.1, { special with rest := r.2 })
  busWrite w pa value special := do return { special with rest := ← IopBus.write D w pa value special.rest }
  other _ := none

/-- The machine of the core: every function of `IOP_INSTRUCTION_TABLE`, on the bus. -/
def IopDevices.machine {δ : Type} (D : IopDevices δ) : IopMachine (IopSpecial (IopBus δ)) :=
  IopCoreInstruction.machine D.busMachine

/-- One step of the system. -/
inductive IopSystemOp (δ : Type) where
  /-- `CIopCoreInterpreter::time_step`. -/
  | coreStep
  /-- `CIopIntc::time_step`. -/
  | intcTick
  /-- A device raises its bit of I_STAT. -/
  | raise (irq : Fin 26)
  /-- Anything else that the devices do. -/
  | devices (f : δ → δ)

namespace IopSystem

variable {δ : Type} (s : IopSystem δ)

/-- The bus. -/
def bus : IopBus δ := s.data.rest.rest

/-- What the model of the INTC has of the system. -/
def interrupts : IopInterrupts := ⟨s.bus.intc, s.cop0.cause⟩

/-- Writes the bus. -/
def setBus (bus : IopBus δ) : IopSystem δ := s.setData { s.data with rest := { s.data.rest with rest := bus } }

/-- The core takes interrupts from line 2. -/
def Enabled : Prop := s.cop0.status.interruptsMasked = false ∧ s.cop0.status.w.getLsbD 10 = true

end IopSystem

namespace IopSystemOp

variable {δ : Type} (D : IopDevices δ)

/-- What a step does. -/
def step : IopSystemOp δ → IopSystem δ → Except HostError (IopSystem δ)
  | coreStep, s => s.timeStep D.machine
  | intcTick, s => do
    let interrupts ← s.interrupts.timeStep
    return s.setCop0 { s.cop0 with cause := interrupts.cause }
  | raise irq, s => .ok (s.setBus { s.bus with intc := s.bus.intc.raise irq })
  | devices f, s => .ok (s.setBus { s.bus with devices := f s.bus.devices })

/-- The step as the model of the INTC has it, if it is not one of the core. -/
def event : IopSystemOp δ → Option IopInterruptOp
  | intcTick => some .tick
  | raise irq => some (.raise irq)
  | _ => none

end IopSystemOp

namespace IopInterruptOp

/-- The operation is not one of the core. -/
def ofDevice : IopInterruptOp → Bool
  | raise _ | tick => true
  | _ => false

/-- The operation is one of the core, and only where `P` holds an `RFE`. -/
def OfCore (P : Prop) : IopInterruptOp → Prop
  | raise _ | tick => False
  | rfe => P
  | _ => True

theorem ofDevice_of_ofCore {P : Prop} {op : IopInterruptOp} (h : op.OfCore P) : op.ofDevice = false := by
  cases op with
  | raise irq => exact h.elim
  | tick => exact h.elim
  | _ => rfl

/-- The access to the registers, if the operation is one. -/
def accessOf : IopInterruptOp → Option IopIntcAccess
  | access a => some a
  | _ => none

theorem run_access (accesses : List IopIntcAccess) (s : IopInterrupts) :
    Run.run step (accesses.map access) s = .ok { s with intc := accesses.foldl IopIntc.access s.intc } := by
  induction accesses generalizing s with
  | nil => rfl
  | cons a accesses ih => exact ih _

end IopInterruptOp

/-! ### Refinement -/

namespace IopSystem

open IopCore

variable {δ : Type} {s s' s'' : IopSystem δ}

/-- The next step of the core executes an `RFE`. -/
def ExecutesRfe (D : IopDevices δ) (s : IopSystem δ) : Prop :=
  ∃ sc inst s₀, s.handleInterruptCheck = .ok sc ∧ sc.fetch D.machine = .ok (inst, s₀) ∧
    D.machine.lookup inst = .ok .rfe

/-- What the model of the INTC has for a step of the system from `s` to `s'`. -/
structure Block (D : IopDevices δ) (op : IopSystemOp δ) (s s' : IopSystem δ) (block : List IopInterruptOp) : Prop where
  /-- The tick or the raised bit, if that is what the step is. -/
  event : block.filter IopInterruptOp.ofDevice = op.event.toList
  /-- The accesses that the step has made. -/
  accesses : s'.bus.accesses = s.bus.accesses ++ block.filterMap IopInterruptOp.accessOf
  /-- An `RFE` only if the step is one of the core that executes it. -/
  rfe : .rfe ∈ block → op = .coreStep ∧ s.ExecutesRfe D

/-- What the model of the INTC has for the steps of a run, one after the other. -/
inductive History (D : IopDevices δ) : List (IopSystemOp δ) → IopSystem δ → IopSystem δ → List IopInterruptOp → Prop where
  /-- No steps. -/
  | nil (s : IopSystem δ) : History D [] s s []
  /-- One step, and the others. -/
  | cons {op : IopSystemOp δ} {ops : List (IopSystemOp δ)} {s s' t : IopSystem δ} {block rest : List IopInterruptOp} :
    op.step D s = .ok s' → Block D op s s' block → History D ops s' t rest → History D (op :: ops) s t (block ++ rest)

/-- Operations of the model of the INTC do to the registers and to `Cause` what takes `s` to `s'`, and no others. -/
structure Explains (history : List IopInterruptOp) (s s' : IopSystem δ) : Prop where
  /-- What they do. -/
  run : Run.run IopInterruptOp.step history s.interrupts = .ok s'.interrupts
  /-- The accesses among them. -/
  accesses : s'.bus.accesses = s.bus.accesses ++ history.filterMap IopInterruptOp.accessOf

theorem Explains.refl (s : IopSystem δ) : Explains [] s s := ⟨rfl, (List.append_nil _).symm⟩

theorem Explains.trans {history history' : List IopInterruptOp} (h : Explains history s s')
    (h' : Explains history' s' s'') : Explains (history ++ history') s s'' := by
  refine ⟨Run.run_append.mpr ⟨_, h.run, h'.run⟩, ?_⟩
  rw [h'.accesses, h.accesses, List.filterMap_append, List.append_assoc]

/-- What the core does: operations of its own, and an `RFE` only where `P` holds. -/
def Acts (P : Prop) (s s' : IopSystem δ) : Prop :=
  ∃ history, (∀ op ∈ history, IopInterruptOp.OfCore P op) ∧ Explains history s s'

variable {P : Prop}

theorem Acts.refl (s : IopSystem δ) : Acts P s s := ⟨[], by simp, .refl s⟩

theorem Acts.trans (h : Acts P s s') (h' : Acts P s' s'') : Acts P s s'' := by
  obtain ⟨history, hown, hexp⟩ := h
  obtain ⟨history', hown', hexp'⟩ := h'
  refine ⟨history ++ history', fun op hop => ?_, hexp.trans hexp'⟩
  exact (List.mem_append.mp hop).elim (hown op) (hown' op)

/-- Where nothing happens to the bus and `Cause`. -/
theorem Acts.of_eq (hbus : s'.bus = s.bus) (hcause : s'.cop0.cause = s.cop0.cause) : Acts P s s' := by
  refine ⟨[], by simp, ?_, ?_⟩
  · rw [interrupts, interrupts, hbus, hcause]
    rfl
  · rw [hbus]
    exact (List.append_nil _).symm

theorem Acts.of_bus (hbus : s.bus.Reaches s'.bus) (hcause : s'.cop0.cause = s.cop0.cause) :
    Acts P s s' := by
  obtain ⟨accesses, hlog, hintc⟩ := hbus
  refine ⟨accesses.map .access, by simp [IopInterruptOp.OfCore], ?_, ?_⟩
  · rw [IopInterruptOp.run_access, interrupts, interrupts, hintc, hcause]
  · rw [hlog, List.filterMap_map]
    congr 1
    exact (List.filterMap_some).symm

/-- One operation on `Cause`. -/
theorem Acts.of_cause (op : IopInterruptOp) (hop : op.OfCore P) (haccess : op.accessOf = none)
    (hstep : op.step s.interrupts = .ok ⟨s.bus.intc, s'.cop0.cause⟩) (hbus : s'.bus = s.bus) : Acts P s s' := by
  refine ⟨[op], by simpa using hop, Run.run_cons_ok.mpr ⟨_, hstep, ?_⟩, ?_⟩
  · rw [interrupts, hbus]
    rfl
  · rw [hbus, List.filterMap_cons_none haccess]
    exact (List.append_nil _).symm

/-- A translation changes the caches only. -/
theorem keeps_lookup (s : IopSystem δ) (id : MmuIdAccess) (va : Uptr) (rwAccess : MmuRwAccess) :
    Ensures (fun r => r.2.data = s.data ∧ r.2.cop0 = s.cop0) (s.lookup id va rwAccess) := by
  have hcache (cache : CacheTy) :
      (s.setTranslationCache id cache).data = s.data ∧ (s.setTranslationCache id cache).cop0 = s.cop0 := by
    cases id <;> exact ⟨rfl, rfl⟩
  unfold IopCore.lookup
  dsimp only
  split
  · exact .ok (hcache _)
  · refine (Ensures.trivial _).bind fun result _ => ?_
    cases result with
    | none => exact .ok (hcache _)
    | some pa => exact .ok (hcache _)

theorem keeps_translateAddressData (s : IopSystem δ) (va : Uptr) (rwAccess : MmuRwAccess) :
    Ensures (fun r => r.2.data = s.data ∧ r.2.cop0 = s.cop0) (s.translateAddressData va rwAccess) := by
  unfold translateAddressData
  split_ifs
  · exact (Ensures.trivial _).bind fun _ _ => .ok ⟨rfl, rfl⟩
  · exact keeps_lookup s .data va rwAccess

/-- Where nothing happens to the data and COP0. -/
theorem Acts.of_keeps (h : s'.data = s.data ∧ s'.cop0 = s.cop0) : Acts P s s' :=
  .of_eq (by rw [bus, bus, h.1]) (by rw [h.2])

/-- An exception writes `EXCCODE` and `BD`. -/
theorem acts_handleException (e : IopCoreException) (s : IopSystem δ) :
    Ensures (Acts P s) (s.handleException e) := by
  unfold handleException
  by_cases he : e = .exReset
  · rw [if_pos he]
    exact .error _
  · rw [if_neg he]
    let s₁ := s.setCop0 { s.cop0 with cause := s.cop0.cause.insertField EeCoreCop0Cause.exccode e.code }
    have hcode : Acts P s s₁ := .of_cause (.insertCause EeCoreCop0Cause.exccode e.code) trivial rfl rfl rfl
    have hbd : Acts P s₁ s₁.setErrorAddress := by
      unfold setErrorAddress
      split_ifs
      · exact .of_cause (.insertCause EeCoreCop0Cause.bd 1) trivial rfl rfl rfl
      · exact .of_cause (.insertCause EeCoreCop0Cause.bd 0) trivial rfl rfl rfl
    exact (Ensures.trivial _).bind fun status _ => .ok ((hcode.trans hbd).trans (.of_eq rfl rfl))

theorem acts_mergeCause (s : IopSystem δ) : Acts P s s.mergeCause :=
  .of_cause .readCause trivial rfl rfl rfl

theorem acts_handleInterruptCheck (s : IopSystem δ) : Ensures (Acts P s) s.handleInterruptCheck := by
  unfold handleInterruptCheck
  split_ifs
  · exact .ok (.refl s)
  · exact (acts_handleException _ _).mono fun _ h => (acts_mergeCause s).trans h
  · exact .ok (acts_mergeCause s)

end IopSystem

/-! ### Instructions -/

/-- The accesses of the core go to the bus. -/
structure IopMachine.OnBus {δ : Type} (M : IopMachine (IopSpecial (IopBus δ))) : Prop where
  /-- A read. -/
  read : ∀ w pa special, Ensures (fun r => special.rest.Reaches r.2.rest) (M.busRead w pa special)
  /-- A write. -/
  write : ∀ w pa value special, Ensures (fun r => special.rest.Reaches r.rest) (M.busWrite w pa value special)

namespace IopMicro

open IopSystem IopCore

variable {δ : Type}

/-- A data instruction changes the bus by accesses only. -/
def OnBus : IopMicro (IopSpecial (IopBus δ)) → IopBus δ → Prop
  | done data, b => b.Reaches data.rest.rest
  | fail _, _ | raise _, _ => True
  | translate _ _ next, b => ∀ pa, (next pa).OnBus b
  | write data next, b => b.Reaches data.rest.rest ∧ next.OnBus data.rest.rest

theorem acts_run (m : IopMicro (IopSpecial (IopBus δ))) (s : IopSystem δ) (hm : m.OnBus s.bus) :
    Ensures (fun r => Acts P s (resultState r)) (m.run s) := by
  induction m generalizing s with
  | done data => exact .ok (.of_bus hm rfl)
  | fail e => exact .error e
  | raise e => exact .ok (.refl s)
  | translate va rwAccess next ih =>
    rw [run]
    refine (keeps_translateAddressData s va rwAccess).bind fun r hr => ?_
    obtain ⟨_ | pa, t⟩ := r
    · exact .ok (.of_keeps hr)
    · have hbus : bus t = bus s := congrArg (·.rest.rest) hr.1
      exact (ih pa t (hbus ▸ hm pa)).mono fun r' h => (Acts.of_keeps hr).trans h
  | write data next ih =>
    have hs : Acts P s (s.setData data) := .of_bus hm.1 rfl
    exact (ih (s.setData data) hm.2).mono fun r' h => hs.trans h

theorem onBus_ofExcept {α : Type} {P : α → Prop} {x : Except HostError α} (hx : Ensures P x)
    {next : α → IopMicro (IopSpecial (IopBus δ))} {b : IopBus δ} (h : ∀ a, P a → (next a).OnBus b) :
    (ofExcept x next).OnBus b := by
  cases x with
  | error e => exact trivial
  | ok a => exact h a (hx a rfl)

variable {M : IopMachine (IopSpecial (IopBus δ))} (hM : M.OnBus) (inst : IopCoreInstruction)
  (d : IopData (IopSpecial (IopBus δ)))

theorem onBus_checked (x y : ℤ) (reg : BitVec 5) (result : Uword) : (checked d x y reg result).OnBus d.rest.rest := by
  unfold checked
  split_ifs
  · exact trivial
  · rw [OnBus, IopData.rest_writeUword]
    exact .refl _

include hM

theorem onBus_busRead (w : ℕ) (pa : Uptr) {next : BitVec w → IopData (IopSpecial (IopBus δ)) → IopMicro _}
    (h : ∀ value d, (next value d).OnBus d.rest.rest) : (busRead M d w pa next).OnBus d.rest.rest :=
  onBus_ofExcept (hM.read w pa d.rest) fun r hr => ⟨hr, h r.1 { d with rest := r.2 }⟩

theorem onBus_busWrite (w : ℕ) (pa : Uptr) (value : BitVec w) : (busWrite M d w pa value).OnBus d.rest.rest :=
  onBus_ofExcept (hM.write w pa value d.rest) fun _ hr => hr

theorem onBus_load (w : ℕ) (extend : BitVec w → Uword) : (load M inst d w extend).OnBus d.rest.rest := by
  intro pa
  refine onBus_busRead hM d w pa fun value d => ?_
  rw [OnBus, IopData.rest_writeUword]
  exact .refl _

theorem onBus_loadPart (merge : ℕ → Uword → Uword → Uword) : (loadPart M inst d merge).OnBus d.rest.rest := by
  intro pa
  refine onBus_busRead hM d 32 pa fun value d => ?_
  rw [OnBus, IopData.rest_writeUword]
  exact .refl _

theorem onBus_store (w : ℕ) (value : BitVec w) : (store M inst d w value).OnBus d.rest.rest :=
  fun pa => onBus_busWrite hM d w pa value

theorem onBus_storePart (merge : ℕ → Uword → Uword → Uword) : (storePart M inst d merge).OnBus d.rest.rest :=
  fun pa => onBus_busRead hM d 32 pa fun _ d pa => onBus_busWrite hM d 32 pa _

end IopMicro

namespace IopSystem

open IopCore

variable {δ : Type} {M : IopMachine (IopSpecial (IopBus δ))}

/-- The data instructions of the table go to the bus. -/
def OperationOnBus : IopOperation (IopSpecial (IopBus δ)) → Prop
  | .data m => ∀ d, (m d).OnBus d.rest.rest
  | _ => True

/-- The functions that compute leave the bus alone. -/
theorem rest_compute (inst : IopCoreInstruction) (f : IopCoreFunction) (d : R3000 (IopBus δ)) :
    ((f.compute inst).getD id d).rest.rest = d.rest.rest := by
  have hwrite (r : BitVec 5) (value : Uword) : (d.writeUword r value).rest.rest = d.rest.rest := by
    rw [IopData.rest_writeUword]
  cases f
  case div =>
    change ((R3000.div inst d).getD d).rest.rest = d.rest.rest
    rw [R3000.div, HostDivision.signedDivide_eq]
    split_ifs <;> rfl
  case divu =>
    change ((R3000.divu inst d).getD d).rest.rest = d.rest.rest
    rw [R3000.divu, HostDivision.unsignedDivide_eq]
    split_ifs <;> rfl
  all_goals first | rfl | exact hwrite _ _

theorem onBus_operation (hM : M.OnBus) (inst : IopCoreInstruction) (f : IopCoreFunction) :
    OperationOnBus (IopCoreInstruction.operation M inst f) := by
  cases f
  case lb | lbu | lh | lhu | lw => exact fun d => IopMicro.onBus_load hM inst d _ _
  case lwl | lwr => exact fun d => IopMicro.onBus_loadPart hM inst d _
  case sb | sh | sw => exact fun d => IopMicro.onBus_store hM inst d _ _
  case swl | swr => exact fun d => IopMicro.onBus_storePart hM inst d _
  case add | addi | sub => exact fun d => IopMicro.onBus_checked d _ _ _ _
  case syscall | break_ => exact fun _ => trivial
  case j | jal | jr | jalr | beq | bne | blez | bgtz | bltz | bgez | bltzal | bgezal | mfc0 | mtc0 | rfe => exact trivial
  all_goals exact fun d => IopBus.Reaches.of_eq (rest_compute inst _ d)

variable {s : IopSystem δ}

theorem acts_whenCop0Usable {k : Except HostError (IopSystem δ)} (hk : Ensures (Acts P s) k) :
    Ensures (fun r => Acts P s (resultState r)) (s.whenCop0Usable k) := by
  unfold whenCop0Usable
  split_ifs
  · exact hk.bind fun t ht => .ok ht
  · exact .ok (.of_cause (.insertCause EeCoreCop0Cause.ce 0) trivial rfl rfl rfl)

theorem acts_mfc0 (rt rd : BitVec 5) : Ensures (fun r => Acts P s (resultState r)) (s.mfc0 rt rd) := by
  refine acts_whenCop0Usable ?_
  have hread : Ensures (fun r => Acts P s (s.setCop0 r.2)) (s.cop0.readRegister rd) := by
    unfold IopCoreCop0.readRegister
    split
    · exact .ok (.refl s)
    · exact .ok (.of_cause .readCause trivial rfl rfl rfl)
    · exact .ok (.refl s)
    · split_ifs
      · exact .ok (.refl s)
      · exact .error _
  refine hread.bind fun r hr => .ok (hr.trans (.of_eq ?_ rfl))
  exact congrArg IopSpecial.rest (IopData.rest_writeUword ..)

theorem acts_mtc0 (rt rd : BitVec 5) : Ensures (fun r => Acts P s (resultState r)) (s.mtc0 rt rd) := by
  refine acts_whenCop0Usable ?_
  have hwrite (value : Uword) : Ensures (fun c => Acts P s (s.setCop0 c)) (s.cop0.writeRegister rd value) := by
    unfold IopCoreCop0.writeRegister
    split
    · exact (Ensures.trivial _).bind fun _ _ => .ok (.of_eq rfl rfl)
    · exact .ok (.of_cause (.writeCause value) trivial rfl rfl rfl)
    · exact .ok (.of_eq rfl rfl)
    · exact .ok (.refl s)
    · split_ifs
      · exact .ok (.of_eq rfl rfl)
      · exact .error _
  exact (hwrite _).bind fun c hc => .ok hc

theorem acts_operation {op : IopOperation (IopSpecial (IopBus δ))} (hop : OperationOnBus op) (hrfe : op = .rfe → P) :
    Ensures (fun r => Acts P s (resultState r)) (op.run s) := by
  cases op with
  | data m => exact (m s.data).acts_run s (hop s.data)
  | branch taken link target =>
    refine .ok ?_
    change Acts P s (s.branch taken link target)
    unfold IopCore.branch
    split_ifs
    · cases link with
      | none => exact .of_eq rfl rfl
      | some r => exact .of_eq (congrArg IopSpecial.rest (IopData.rest_writeUword ..)) rfl
    · exact .refl s
  | mfc0 rt rd => exact acts_mfc0 rt rd
  | mtc0 rt rd => exact acts_mtc0 rt rd
  | rfe =>
    refine Ensures.bind (P := Acts P s) ?_ fun t ht => .ok ht
    exact (Ensures.trivial _).bind fun status _ => .ok (.of_cause .rfe (hrfe rfl) rfl rfl rfl)

theorem acts_handled {r : IopResult (IopSpecial (IopBus δ))} (hr : Acts P s (resultState r)) :
    Ensures (Acts P s) r.handled := by
  cases r with
  | value t => exact .ok hr
  | exception e t => exact (acts_handleException e t).mono fun _ h => hr.trans h

/-- The fetch reads the bus. -/
theorem acts_fetch (hM : M.OnBus) (s : IopSystem δ) : Ensures (fun r => Acts P s r.2) (s.fetch M) := by
  refine (keeps_lookup s .instruction s.pc .read).bind fun r hr => ?_
  obtain ⟨_ | pa, t⟩ := r
  · exact .error _
  · refine (hM.read 32 pa t.data.rest).bind fun r' hr' => ?_
    exact .ok ((Acts.of_keeps hr).trans (.of_bus hr' rfl))

theorem onBus_busMachine (D : IopDevices δ) : D.busMachine.OnBus where
  read w pa special := (IopBus.reaches_read D w pa special.rest).bind fun _ hr => .ok hr
  write w pa value special := (IopBus.reaches_write D w pa value special.rest).bind fun _ hr => .ok hr

/-- A step of the core, whatever it executes. -/
theorem acts_timeStep (D : IopDevices δ) (s : IopSystem δ) :
    Ensures (Acts (s.ExecutesRfe D) s) (s.timeStep D.machine) := by
  intro s' hs'
  obtain ⟨sc, hcheck, inst, s₀, hfetch, op, hop, r, hr, t, ht, rfl⟩ := timeStep_eq_ok_iff.mp hs'
  have hrfe : op = .rfe → s.ExecutesRfe D := fun h => ⟨sc, inst, s₀, hcheck, hfetch, h ▸ hop⟩
  have hbus := onBus_busMachine D
  have hchecked := acts_handleInterruptCheck (P := s.ExecutesRfe D) s sc hcheck
  have hfetched := acts_fetch (P := s.ExecutesRfe D) (M := D.machine) ⟨hbus.read, hbus.write⟩ sc _ hfetch
  rw [IopDevices.machine, IopCoreInstruction.lookup_machine] at hop
  have honBus : OperationOnBus op := by
    cases hd : IopCoreInstruction.instructionSet.dispatch inst.value with
    | error e =>
      rw [hd] at hop
      cases hop
    | ok f =>
      rw [hd] at hop
      obtain rfl := Except.ok.inj hop
      exact onBus_operation hbus inst f
  have hrun := acts_handled (acts_operation honBus hrfe r hr) t ht
  exact ((hchecked.trans hfetched).trans hrun).trans (.of_eq rfl rfl)

/-! ### Runs -/

/-- A step of the system is what the model of the INTC has for it. -/
theorem exists_block (D : IopDevices δ) {op : IopSystemOp δ} {s' : IopSystem δ} (h : op.step D s = .ok s') :
    ∃ block, Block D op s s' block ∧ Run.run IopInterruptOp.step block s.interrupts = .ok s'.interrupts := by
  cases op with
  | coreStep =>
    obtain ⟨block, hown, hexp⟩ := acts_timeStep D s s' h
    refine ⟨block, ⟨?_, hexp.accesses, fun h => ⟨rfl, hown .rfe h⟩⟩, hexp.run⟩
    exact List.filter_eq_nil_iff.mpr fun o ho => by simp [IopInterruptOp.ofDevice_of_ofCore (hown o ho)]
  | intcTick =>
    obtain ⟨interrupts, htick, h⟩ := bind_eq_ok_iff.mp h
    obtain rfl := Except.ok.inj h
    refine ⟨[.tick], ⟨rfl, (List.append_nil _).symm, by simp⟩, Run.run_cons_ok.mpr ⟨_, htick, ?_⟩⟩
    rw [IopInterrupts.timeStep_eq] at htick
    obtain rfl := Except.ok.inj htick
    rfl
  | raise irq =>
    obtain rfl := Except.ok.inj h
    exact ⟨[.raise irq], ⟨rfl, (List.append_nil _).symm, by simp⟩, rfl⟩
  | devices f =>
    obtain rfl := Except.ok.inj h
    exact ⟨[], ⟨rfl, (List.append_nil _).symm, by simp⟩, rfl⟩

/-- The system refines the model of the INTC. -/
theorem exists_history (D : IopDevices δ) {ops : List (IopSystemOp δ)} {t : IopSystem δ}
    (h : Run.run (IopSystemOp.step D) ops s = .ok t) :
    ∃ history, History D ops s t history ∧ Run.run IopInterruptOp.step history s.interrupts = .ok t.interrupts := by
  induction ops generalizing s with
  | nil =>
    obtain rfl := Except.ok.inj h
    exact ⟨[], .nil s, rfl⟩
  | cons op ops ih =>
    obtain ⟨s', hs', h⟩ := Run.run_cons_ok.mp h
    obtain ⟨block, hblock, hfirst⟩ := exists_block D hs'
    obtain ⟨history, hhistory, hrest⟩ := ih h
    exact ⟨block ++ history, .cons hs' hblock hhistory, Run.run_append.mpr ⟨_, hfirst, hrest⟩⟩

/-- The ticks and the raised bits of a history are those of the steps. -/
theorem History.filter_ofDevice {D : IopDevices δ} {ops : List (IopSystemOp δ)} {history : List IopInterruptOp}
    {s t : IopSystem δ} (h : History D ops s t history) :
    history.filter IopInterruptOp.ofDevice = ops.filterMap IopSystemOp.event := by
  induction h with
  | nil s => rfl
  | @cons op ops s s' t block rest hstep hblock hrest ih =>
    rw [List.filter_append, hblock.event, ih]
    cases he : op.event with
    | none => rw [List.filterMap_cons_none he, Option.toList_none, List.nil_append]
    | some o => rw [List.filterMap_cons_some he, Option.toList_some, List.singleton_append]

/-- Its accesses are those that the steps have made. -/
theorem History.accesses_eq {D : IopDevices δ} {ops : List (IopSystemOp δ)} {history : List IopInterruptOp}
    {s t : IopSystem δ} (h : History D ops s t history) :
    t.bus.accesses = s.bus.accesses ++ history.filterMap IopInterruptOp.accessOf := by
  induction h with
  | nil s => exact (List.append_nil _).symm
  | cons hstep hblock hrest ih => rw [ih, hblock.accesses, List.filterMap_append, List.append_assoc]

/-- An `RFE` in it is executed by one of them. -/
theorem History.exists_executesRfe {D : IopDevices δ} {ops : List (IopSystemOp δ)} {history : List IopInterruptOp}
    {s t : IopSystem δ} (h : History D ops s t history) (hrfe : .rfe ∈ history) : ∃ before after s',
      ops = before ++ .coreStep :: after ∧ Run.run (IopSystemOp.step D) before s = .ok s' ∧ s'.ExecutesRfe D := by
  induction h with
  | nil s => cases hrfe
  | @cons op ops s s' t block rest hstep hblock hrest ih =>
    rcases List.mem_append.mp hrfe with hrfe | hrfe
    · obtain ⟨rfl, hexec⟩ := hblock.rfe hrfe
      exact ⟨[], ops, s, rfl, rfl, hexec⟩
    · obtain ⟨before, after, s₁, rfl, hrun, hexec⟩ := ih hrfe
      exact ⟨op :: before, after, s₁, rfl, Run.run_cons_ok.mpr ⟨s', hstep, hrun⟩, hexec⟩

/-- Where no step accesses a register or executes an `RFE`, the last tick is the last step that writes line 2, and only
what devices have raised counts before it. -/
theorem History.exists_tick {D : IopDevices δ} {ops : List (IopSystemOp δ)} {history : List IopInterruptOp}
    {s t : IopSystem δ} (h : History D ops s t history) (raised : List IopInterruptOp)
    (hevents : ops.filterMap IopSystemOp.event = raised ++ [.tick]) (haccesses : t.bus.accesses = s.bus.accesses)
    (hrfe : .rfe ∉ history) : ∃ before after, history = before ++ .tick :: after ∧ (∀ o ∈ after, ¬o.Drives) ∧
      before.filter IopInterruptOp.ofDevice = raised ∧ ∀ o ∈ before, o.accessOf = none := by
  have hnone : ∀ o ∈ history, o.accessOf = none :=
    List.filterMap_eq_nil_iff.mp (List.append_right_eq_self.mp (h.accesses_eq.symm.trans haccesses))
  have hfilter : history.filter IopInterruptOp.ofDevice = raised ++ [.tick] := h.filter_ofDevice.trans hevents
  obtain ⟨before, rest, rfl, hbefore, hrest⟩ := List.filter_eq_append_iff.mp hfilter
  obtain ⟨early, after, rfl, hearly, -, hafter⟩ := List.filter_eq_cons_iff.mp hrest
  refine ⟨before ++ early, after, (List.append_assoc ..).symm, ?_, ?_, fun o ho => hnone o ?_⟩
  · rintro o ho (rfl | rfl)
    · exact absurd rfl (List.filter_eq_nil_iff.mp hafter _ ho)
    · exact hrfe (by simp [ho])
  · rw [List.filter_append, hbefore, List.filter_eq_nil_iff.mpr hearly, List.append_nil]
  · rcases List.mem_append.mp ho with ho | ho <;> simp [ho]

/-! ### Taking an interrupt -/

/-- Only line 2 is in use. -/
theorem lines_of_run {history : List IopInterruptOp} {x y : IopInterrupts}
    (h : Run.run IopInterruptOp.step history x = .ok y) (hx : ∀ i, i ≠ 2 → x.cause.irqLines i = false) :
    ∀ i, i ≠ 2 → y.cause.irqLines i = false := by
  induction history generalizing x with
  | nil =>
    obtain rfl := Except.ok.inj h
    exact hx
  | cons op history ih =>
    obtain ⟨x', hx', h⟩ := Run.run_cons_ok.mp h
    refine ih h fun i hi => ?_
    by_cases hop : op.Drives
    · obtain rfl | rfl := hop
      · rw [IopInterruptOp.step, IopInterrupts.timeStep_eq] at hx'
        obtain rfl := Except.ok.inj hx'
        exact (Function.update_of_ne hi ..).trans (hx i hi)
      · obtain rfl := Except.ok.inj hx'
        rfl
    · rw [IopInterruptOp.irqLines_of_step hop hx', hx i hi]

/-- With only line 2 in use, an enabled line is set if it is that one. -/
theorem interruptPending_iff {t : IopSystem δ} (ht : ∀ i, i ≠ 2 → t.interrupts.cause.irqLines i = false) :
    t.InterruptPending ↔ t.interrupts.Ip 2 ∧ t.cop0.status.w.getLsbD 10 = true := by
  have hbit (i : ℕ) : ((t.cop0.cause.extractField EeCoreCop0Cause.ip).1 &&&
      t.cop0.status.extractField IopCoreCop0Status.im).getLsbD i = true ↔
        ∃ hi : i < 8, t.cop0.cause.irqLines ⟨i, hi⟩ = true ∧ t.cop0.status.w.getLsbD (8 + i) = true := by
    rw [BitVec.getLsbD_and, IopCoreCop0Status.extractField, Bitfield.getLsbD_extractFrom, IopCoreCop0Status.im]
    by_cases hi : i < 8
    · have hip := EeCoreCop0Cause.getLsbD_ip_merged t.cop0.cause ⟨i, hi⟩
      rw [show (t.cop0.cause.extractField EeCoreCop0Cause.ip).1 = EeCoreCop0Cause.ip.extractFrom t.cop0.cause.merged from rfl,
        hip]
      simp [hi]
    · simp [hi]
  rw [InterruptPending, ne_zero_iff_exists_bit, IopInterrupts.ip_iff]
  constructor
  · rintro ⟨i, hset⟩
    obtain ⟨hi, hline, hmask⟩ := (hbit i).mp hset
    by_cases h2 : (⟨i, hi⟩ : Fin 8) = 2
    · obtain rfl : i = 2 := congrArg Fin.val h2
      exact ⟨hline, hmask⟩
    · rw [show t.cop0.cause.irqLines ⟨i, hi⟩ = false from ht _ h2] at hline
      cases hline
  · rintro ⟨hline, hmask⟩
    exact ⟨2, (hbit 2).mpr ⟨by decide, hline, hmask⟩⟩

theorem handleInterruptCheck_of_enabled {t : IopSystem δ} (ht : ∀ i, i ≠ 2 → t.interrupts.cause.irqLines i = false) :
    ∃ c, t.handleInterruptCheck = .ok c ∧ (t.Enabled ∧ t.interrupts.Ip 2 → AtVector .exInterrupt t c) ∧
      (¬(t.Enabled ∧ t.interrupts.Ip 2) → c = t ∨ c = t.mergeCause) := by
  have hpending := interruptPending_iff ht
  by_cases hm : t.cop0.status.interruptsMasked = true
  · refine ⟨t, if_pos hm, fun h => ?_, fun _ => .inl rfl⟩
    rw [h.1.1] at hm
    cases hm
  · have hm' : t.cop0.status.interruptsMasked = false := Bool.eq_false_iff.mpr hm
    by_cases hp : t.InterruptPending
    · obtain ⟨c, hc, hvector⟩ := atVector_of_interrupt hm' hp
      obtain ⟨hip, hmask⟩ := hpending.mp hp
      exact ⟨c, hc, fun _ => hvector, fun hno => absurd ⟨⟨hm', hmask⟩, hip⟩ hno⟩
    · refine ⟨t.mergeCause, ?_, fun h => absurd (hpending.mpr ⟨h.2, h.1.2⟩) hp, fun _ => .inr rfl⟩
      unfold handleInterruptCheck
      rw [if_neg hm, if_neg hp]

end IopSystem

open IopSystem IopCore in
/-- In any order of the steps of the core, the ticks of the INTC, the bits that devices raise and whatever else they do,
what the steps have done to the registers and to the lines decides whether the next step of the core goes to the handler
of interrupts. It does so just if the core takes interrupts, the last of the ticks and `RFE`s was a tick, and the
registers asked for an interrupt then. -/
theorem iopSystem_run {δ : Type} (D : IopDevices δ) {ops : List (IopSystemOp δ)} {s t : IopSystem δ}
    (hlines : ∀ i, i ≠ 2 → ¬s.interrupts.Ip i) (h : Run.run (IopSystemOp.step D) ops s = .ok t) :
    ∃ history, History D ops s t history ∧
      ∀ before op after, history = before ++ op :: after → op.Drives → (∀ o ∈ after, ¬o.Drives) →
        let taken := t.Enabled ∧ op = .tick ∧ IopInterruptOp.Asks s.bus.intc before
        ∃ c, t.handleInterruptCheck = .ok c ∧ (taken → AtVector .exInterrupt t c) ∧
          (¬taken → c = t ∨ c = t.mergeCause) := by
  obtain ⟨history, hhistory, hrun⟩ := exists_history D h
  refine ⟨history, hhistory, ?_⟩
  rintro before op after rfl hop hafter taken
  have ht : ∀ i, i ≠ 2 → t.interrupts.cause.irqLines i = false := lines_of_run hrun fun i hi => by
    simpa [IopInterrupts.ip_iff] using hlines i hi
  have htaken : taken ↔ t.Enabled ∧ t.interrupts.Ip 2 := and_congr_right fun _ =>
    (IopInterruptOp.ip_of_run hop hafter hrun).symm
  rw [htaken]
  exact handleInterruptCheck_of_enabled ht

/-- Devices that read as zero. -/
def IopDevices.zero : IopDevices Unit := ⟨fun _ _ _ => .ok (0, ()), fun _ _ _ _ => .ok ()⟩

/-- A core that takes interrupts from line 2, and the bit of the CD drive unmasked. -/
def IopSystem.waiting : IopSystem Unit :=
  ⟨0x80000000, ⟨0, 0⟩, ⟨fun _ => 0, ⟨0, 0, ⟨⟨1, 4, 0⟩, (), []⟩⟩⟩, ⟨⟨0x401, false, .kernel⟩, .initial, 0, fun _ => 0⟩,
    .new .., .new ..⟩

/-- It has executed the word at its program counter, which is zero, and a tick has found the bit of the CD drive. -/
def IopSystem.found : IopSystem Unit :=
  { IopSystem.waiting.setBus ⟨⟨1, 4, 4⟩, (), []⟩ with
    pc := 0x80000004
    cop0 := { IopSystem.waiting.cop0 with cause := ⟨0, Function.update (fun _ => false) 2 true⟩ }
    translationCacheInst := (TimestampLruCache.new ..).insert 0x80000000 0 }

/-- The CD drive raises its bit, a tick after the next step of the core finds it, and the step after that takes the
interrupt. -/
theorem iopSystem_run_cdrom :
    Run.run (IopSystemOp.step .zero) [.raise 2, .coreStep, .devices id, .intcTick] IopSystem.waiting = .ok IopSystem.found ∧
      ∃ c, IopSystem.found.handleInterruptCheck = .ok c ∧ IopCore.AtVector .exInterrupt IopSystem.found c := by
  have hlines : ∀ i, i ≠ 2 → ¬IopSystem.waiting.interrupts.Ip i := fun i _ => by
    rw [IopInterrupts.ip_iff]
    exact Bool.false_ne_true
  have hrun : Run.run (IopSystemOp.step .zero) [.raise 2, .coreStep, .devices id, .intcTick] IopSystem.waiting =
      .ok IopSystem.found := rfl
  obtain ⟨history, hhistory, hdecides⟩ := iopSystem_run .zero hlines hrun
  have hrfe : .rfe ∉ history := by
    intro hmem
    obtain ⟨before, after, s, hops, hbefore, sc, inst, s₀, hcheck, hfetch, hop⟩ := hhistory.exists_executesRfe hmem
    -- The step of the core is the second one, and the word it executes is zero.
    obtain _ | ⟨o, _ | ⟨o', before⟩⟩ := before
    · cases hops
    · cases hops
      obtain rfl := Except.ok.inj hbefore
      obtain rfl := Except.ok.inj hcheck
      obtain ⟨rfl, -⟩ := Prod.mk.inj (Except.ok.inj hfetch)
      exact nomatch hop
    · simp [List.cons_eq_append_iff] at hops
  obtain ⟨before, after, rfl, hafter, hraised, hnone⟩ := hhistory.exists_tick [.raise 2] rfl rfl hrfe
  have hquiet (o : IopInterruptOp) (ho : o ∈ before) (hdevice : o.ofDevice = false) :
      o.statBit 2 = none ∧ o.maskBit 2 = none ∧ o.ctrlBit 0 = none := by
    cases o with
    | access a => exact nomatch hnone _ ho
    | raise irq => exact nomatch hdevice
    | _ => exact ⟨rfl, rfl, rfl⟩
  have hasks : IopInterruptOp.Asks IopSystem.waiting.bus.intc before := by
    refine ⟨⟨0, ?_⟩, 2, ?_, ?_⟩
    · rw [← Latch.last_filter fun o ho hd => (hquiet o ho hd).2.2, hraised]
      rfl
    · rw [← Latch.last_filter fun o ho hd => (hquiet o ho hd).1, hraised]
      rfl
    · rw [← Latch.last_filter fun o ho hd => (hquiet o ho hd).2.1, hraised]
      rfl
  obtain ⟨c, hc, htaken, -⟩ := hdecides before .tick after rfl (.inl rfl) hafter
  exact ⟨hrun, c, hc, htaken ⟨⟨rfl, rfl⟩, rfl, hasks⟩⟩

end Orbum
