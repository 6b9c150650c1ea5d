import Orbum.Ee.Core.Interpreter.Words
import Orbum.Ee.Dmac.Pointers
import Orbum.Iop.Core.Interpreter

/-!
# Pointers the guest selects

`RResources.cpp` fills the tables of register pointers with gaps: `fcr` has two entries, `ccr` lacks five, the table of the
COP0 of the IOP ends at `ERREG`, and no channel of the EE DMAC has all of its pointers. The entry is chosen by a field of
an instruction or by what the guest has programmed, and nothing checks the choice.

## The model

An operation is an instruction that moves from or to a control register, a turn of a DMA channel, or anything else that
leaves the pointers of the channels alone: writes of the guest to registers and memory, the peripherals at the other
end of the FIFOs, the rest of the machine. `exists_turns_of_timeStep` shows that a tick of the DMAC is a run.
-/

namespace Orbum

/-! ### Moves from and to control registers -/

/-- The instructions that select a control register. -/
inductive ControlMove where
  /-- `CFC1`. -/
  | cfc1
  /-- `CTC1`. -/
  | ctc1
  /-- `CFC2`. -/
  | cfc2
  /-- `CTC2`. -/
  | ctc2
  deriving DecidableEq

namespace ControlMove

variable {σ : Type} (C : ControlRegisters σ) (W : ControlWriters σ)

/-- The instruction. -/
def micro (m : ControlMove) (inst : EeCoreInstruction) (d : EeData σ) : Micro σ :=
  match m with
  | cfc1 => .cfc1 C inst d
  | ctc1 => .ctc1 C inst d W
  | cfc2 => .cfc2 C inst d
  | ctc2 => .ctc2 C inst d W

/-- The coprocessor whose register it moves. -/
def cop : ControlMove → EeCore.Coprocessor
  | cfc1 | ctc1 => .cop1
  | cfc2 | ctc2 => .cop2

/-- The register is one that exists. -/
def Selects (m : ControlMove) (inst : EeCoreInstruction) : Prop :=
  match m.cop with
  | .cop1 => inst.rd.toNat ∈ [0, 31]
  | _ => inst.i = 0 → inst.rd.toNat ∉ [19, 23, 24, 25, 30]

end ControlMove

/-! ### Operations -/

/-- The cores and the DMA controller of the EE. -/
structure PointerState (σ τ : Type) where
  /-- The EE core. -/
  ee : EeCore σ
  /-- The IOP core. -/
  iop : IopCore τ
  /-- The DMA controller of the EE. -/
  dmac : EeDmac

namespace PointerState

variable {σ τ : Type}

/-- The pointers of the channels are those `initialise_ee_dmac` has set. -/
def Initialised (s : PointerState σ τ) : Prop := ∀ i, (s.dmac.channels i).Initialised i

/-- What can follow a pointer that the guest selects, and anything else. -/
inductive Op (σ τ : Type) where
  /-- A move from or to a control register of the EE. -/
  | control (m : ControlMove) (inst : EeCoreInstruction)
  /-- `MFC0` of the IOP. -/
  | mfc0 (inst : IopCoreInstruction)
  /-- `MTC0` of the IOP. -/
  | mtc0 (inst : IopCoreInstruction)
  /-- The turn of a channel. -/
  | turn (i : Fin 10)
  /-- Any other step. -/
  | other (f : PointerState σ τ → PointerState σ τ)
    (keeps : ∀ s i, EeDmacChannel.SamePointers (s.dmac.channels i) ((f s).dmac.channels i))

variable (C : ControlRegisters σ) (W : ControlWriters σ)

/-- A turn of a channel, if transfers are enabled. -/
def giveTurn (i : Fin 10) (s : PointerState σ τ) : Except HostError (PointerState σ τ) :=
  if EeDmacCtrl.dmae.extractFrom s.dmac.ctrl = 0 then .ok s else do return { s with dmac := ← s.dmac.giveTurn i }

/-- One operation. -/
def step : Op σ τ → PointerState σ τ → Except HostError (PointerState σ τ)
  | .control m inst, s => do
    let (_, ee) ← (← (m.micro C W inst s.ee.data).run s.ee).handled
    return { s with ee }
  | .mfc0 inst, s => do return { s with iop := ← (← s.iop.mfc0 inst.rt inst.rd).handled }
  | .mtc0 inst, s => do return { s with iop := ← (← s.iop.mtc0 inst.rt inst.rd).handled }
  | .turn i, s => s.giveTurn i
  | .other f _, s => .ok (f s)

/-- No null pointer is followed. -/
def NullSafe : Op σ τ → PointerState σ τ → Prop
  | .control m inst, s => (m.micro C W inst s.ee.data).run s.ee ≠ .error .nullPointer
  | .mfc0 inst, s => s.iop.mfc0 inst.rt inst.rd ≠ .error .nullPointer
  | .mtc0 inst, s => s.iop.mtc0 inst.rt inst.rd ≠ .error .nullPointer
  | .turn i, s => EeDmacCtrl.dmae.extractFrom s.dmac.ctrl ≠ 0 → (s.dmac.turn i).PointersSet
  | .other _ _, _ => True

/-- What the guest selects is there, where the coprocessor is usable or transfers are enabled. -/
def Supported : Op σ τ → PointerState σ τ → Prop
  | .control m inst, s => EeCore.isUsable s.ee.cop0 m.cop → m.Selects inst
  | .mfc0 inst, s | .mtc0 inst, s => s.iop.cop0.isUsable → inst.rd.toNat ≤ 16
  | .turn i, s => EeDmacCtrl.dmae.extractFrom s.dmac.ctrl ≠ 0 → (s.dmac.turn i).Supported
  | .other _ _, _ => True

/-! ### One operation -/

theorem run_usable_eq_error_iff {s : EeCore σ} {cop : EeCore.Coprocessor} {next : Micro σ} {e : HostError} :
    (Micro.usable cop next).run s = .error e ↔ EeCore.isUsable s.cop0 cop = true ∧ next.run s = .error e := by
  rw [Micro.run, EeCore.handleCopUsable]
  by_cases hu : EeCore.isUsable s.cop0 cop
  · simp only [hu, if_true, true_and]
  · simp only [hu, if_false, false_and, Bool.false_eq_true, reduceCtorEq]

theorem fcr_eq_none_iff (k : BitVec 5) : C.fcr k = none ↔ k.toNat ∉ [0, 31] := by
  unfold ControlRegisters.fcr
  split
  · simp [*]
  · simp [*]
  · simp only [List.mem_cons, List.not_mem_nil, true_iff]
    grind

theorem ccr_eq_none_iff (k : BitVec 5) : C.ccr k = none ↔ k.toNat ∈ [19, 23, 24, 25, 30] := by
  have hlt := k.isLt
  unfold ControlRegisters.ccr
  split
  case h_12 =>
    simp only [List.mem_cons, List.not_mem_nil]
    grind
  all_goals simp [*]

theorem moveControl_eq_nullPointer_iff {inst : EeCoreInstruction} {d : EeData σ} {s : EeCore σ}
    {source : Option (σ → Uword)} :
    (Micro.moveControl inst d source).run s = .error .nullPointer ↔ source = none := by
  cases source with
  | none => simp [Micro.moveControl, Micro.run]
  | some read => simp [Micro.moveControl, Micro.run]

theorem writeControl_eq_nullPointer_iff {inst : EeCoreInstruction} {d : EeData σ} {s : EeCore σ}
    {dest : Option (σ → Uword)} {write : Uword → σ → σ} :
    (Micro.writeControl inst d dest write).run s = .error .nullPointer ↔ dest = none := by
  cases dest with
  | none => simp [Micro.writeControl, Micro.run]
  | some read => simp [Micro.writeControl, Micro.run]

/-- What an instruction that checks the interlock bit does. -/
theorem interlocked_eq_nullPointer_iff {inst : EeCoreInstruction} {m : Micro σ} {s : EeCore σ} {what : String} :
    (if inst.i ≠ 0 then .fail (.runtimeError what) else m : Micro σ).run s = .error .nullPointer ↔
      inst.i = 0 ∧ m.run s = .error .nullPointer := by
  by_cases hi : inst.i = 0
  · simp [hi]
  · simp [hi, Micro.run]

/-- A move from or to a control register follows a null pointer where the coprocessor is usable and there is no such
register. -/
theorem control_eq_nullPointer_iff (m : ControlMove) (inst : EeCoreInstruction) (d : EeData σ) (s : EeCore σ) :
    (m.micro C W inst d).run s = .error .nullPointer ↔ EeCore.isUsable s.cop0 m.cop = true ∧ ¬m.Selects inst := by
  have hccr (inst : EeCoreInstruction) : ¬(inst.i = 0 → inst.rd.toNat ∉ [19, 23, 24, 25, 30]) ↔
      inst.i = 0 ∧ inst.rd.toNat ∈ [19, 23, 24, 25, 30] := by rw [Classical.not_imp, not_not]
  cases m with
  | cfc1 =>
    refine run_usable_eq_error_iff.trans (and_congr_right fun _ => ?_)
    exact moveControl_eq_nullPointer_iff.trans (fcr_eq_none_iff C inst.rd)
  | ctc1 =>
    refine run_usable_eq_error_iff.trans (and_congr_right fun _ => ?_)
    exact writeControl_eq_nullPointer_iff.trans (fcr_eq_none_iff C inst.rd)
  | cfc2 =>
    refine run_usable_eq_error_iff.trans (and_congr_right fun _ => interlocked_eq_nullPointer_iff.trans ?_)
    rw [moveControl_eq_nullPointer_iff, ccr_eq_none_iff]
    exact (hccr inst).symm
  | ctc2 =>
    refine run_usable_eq_error_iff.trans (and_congr_right fun _ => interlocked_eq_nullPointer_iff.trans ?_)
    rw [writeControl_eq_nullPointer_iff, ccr_eq_none_iff]
    exact (hccr inst).symm

/-- The registers of the COP0 of the IOP. -/
theorem readRegister_eq_nullPointer_iff (c : IopCoreCop0) (r : BitVec 5) :
    c.readRegister r = .error .nullPointer ↔ ¬r.toNat ≤ 16 := by
  unfold IopCoreCop0.readRegister
  split
  · simp [*]
  · simp [*]
  · simp [*]
  · split_ifs with h <;> simp [h]

theorem writeRegister_eq_nullPointer_iff (c : IopCoreCop0) (r : BitVec 5) (value : Uword) :
    c.writeRegister r value = .error .nullPointer ↔ ¬r.toNat ≤ 16 := by
  unfold IopCoreCop0.writeRegister
  split
  · obtain ⟨status, hstatus, -⟩ := c.status.writeUword_eq value
    simp [*]
  · simp [*]
  · simp [*]
  · simp [*]
  · split_ifs with h <;> simp [h]

/-- An instruction that needs COP0 follows a null pointer where it is usable and its body does. -/
theorem whenCop0Usable_eq_nullPointer_iff {s : IopCore τ} {k : Except HostError (IopCore τ)} :
    s.whenCop0Usable k = .error .nullPointer ↔ s.cop0.isUsable = true ∧ k = .error .nullPointer := by
  unfold IopCore.whenCop0Usable
  by_cases hu : s.cop0.isUsable
  · simp only [hu, if_true, true_and, bind_eq_error_iff]
    constructor
    · rintro (h | ⟨t, -, h⟩)
      · exact h
      · cases h
    · exact .inl
  · simp [hu]

theorem mfc0_eq_nullPointer_iff (s : IopCore τ) (rt rd : BitVec 5) :
    s.mfc0 rt rd = .error .nullPointer ↔ s.cop0.isUsable = true ∧ ¬rd.toNat ≤ 16 := by
  rw [IopCore.mfc0, whenCop0Usable_eq_nullPointer_iff, bind_eq_error_iff, readRegister_eq_nullPointer_iff]
  simp

theorem mtc0_eq_nullPointer_iff (s : IopCore τ) (rt rd : BitVec 5) :
    s.mtc0 rt rd = .error .nullPointer ↔ s.cop0.isUsable = true ∧ ¬rd.toNat ≤ 16 := by
  rw [IopCore.mtc0, whenCop0Usable_eq_nullPointer_iff, bind_eq_error_iff, writeRegister_eq_nullPointer_iff]
  simp

/-- One operation. -/
theorem nullSafe_iff {s : PointerState σ τ} (hs : s.Initialised) (op : Op σ τ) :
    NullSafe C W op s ↔ Supported op s := by
  cases op with
  | control m inst =>
    rw [NullSafe, Supported, Ne, control_eq_nullPointer_iff, not_and, not_not]
  | mfc0 inst => rw [NullSafe, Supported, Ne, mfc0_eq_nullPointer_iff, not_and, not_not]
  | mtc0 inst => rw [NullSafe, Supported, Ne, mtc0_eq_nullPointer_iff, not_and, not_not]
  | turn i =>
    have hid : (s.dmac.turn i).channelId = i := (hs i).channelId
    have hi : EeDmacChannel.Initialised (s.dmac.turn i).channelId (s.dmac.turn i).toEeDmacChannel := by
      rw [hid]
      exact hs i
    exact imp_congr_right fun _ => EeDmacTurn.pointersSet_iff hi
  | other f keeps => exact Iff.rfl

/-- No operation changes a pointer of a channel. -/
theorem initialised_step {s s' : PointerState σ τ} (hs : s.Initialised) {op : Op σ τ} (h : step C W op s = .ok s') :
    s'.Initialised := by
  cases op with
  | control m inst =>
    obtain ⟨r, -, h⟩ := bind_eq_ok_iff.mp h
    obtain ⟨p, -, h⟩ := bind_eq_ok_iff.mp h
    obtain rfl := Except.ok.inj h
    exact hs
  | mfc0 inst =>
    obtain ⟨r, -, h⟩ := bind_eq_ok_iff.mp h
    obtain ⟨iop, -, h⟩ := bind_eq_ok_iff.mp h
    obtain rfl := Except.ok.inj h
    exact hs
  | mtc0 inst =>
    obtain ⟨r, -, h⟩ := bind_eq_ok_iff.mp h
    obtain ⟨iop, -, h⟩ := bind_eq_ok_iff.mp h
    obtain rfl := Except.ok.inj h
    exact hs
  | turn i =>
    change s.giveTurn i = .ok s' at h
    unfold giveTurn at h
    split_ifs at h
    · obtain rfl := Except.ok.inj h
      exact hs
    · obtain ⟨d, hd, h⟩ := bind_eq_ok_iff.mp h
      obtain rfl := Except.ok.inj h
      obtain ⟨t, ht, hd⟩ := bind_eq_ok_iff.mp hd
      obtain rfl := Except.ok.inj hd
      intro j
      by_cases hj : j = i
      · subst hj
        rw [EeDmac.channels_setTurn_self]
        exact (hs j).of_same (EeDmacTurn.keeps_channelTurn _ t ht)
      · rw [EeDmac.channels_setTurn_of_ne hj]
        exact hs j
  | other f keeps =>
    obtain rfl := Except.ok.inj h
    exact fun i => (hs i).of_same (keeps s i)

theorem run_turns {l : List (Fin 10)} {s : PointerState σ τ} {d : EeDmac}
    (hdmae : EeDmacCtrl.dmae.extractFrom s.dmac.ctrl ≠ 0) (h : l.foldlM EeDmac.giveTurn s.dmac = .ok d) :
    Run.run (step C W) (l.map .turn) s = .ok { s with dmac := d } := by
  induction l generalizing s with
  | nil =>
    obtain rfl := Except.ok.inj h
    rfl
  | cons i l ih =>
    rw [List.foldlM_cons] at h
    obtain ⟨d₁, hd₁, h⟩ := bind_eq_ok_iff.mp h
    have hctrl := (EeDmac.frame_giveTurn s.dmac i d₁ hd₁).ctrl
    have hturn : step C W (.turn i) s = .ok { s with dmac := d₁ } := by
      change s.giveTurn i = _
      rw [giveTurn, if_neg hdmae, hd₁]
      rfl
    exact Run.run_cons_ok.mpr ⟨_, hturn, ih (s := { s with dmac := d₁ }) (by rwa [hctrl]) h⟩

/-- A tick of the DMAC is a run of its turns. -/
theorem exists_turns_of_timeStep {s : PointerState σ τ} {d' : EeDmac}
    (hdmae : EeDmacCtrl.dmae.extractFrom s.dmac.ctrl ≠ 0) (h : s.dmac.timeStep = .ok d') :
    ∃ d, Run.run (step C W) ((List.finRange 10).map .turn) s = .ok { s with dmac := d } ∧
      d.handleInterruptCheck = .ok d' := by
  rw [EeDmac.timeStep, if_neg hdmae] at h
  obtain ⟨d, hd, hcheck⟩ := bind_eq_ok_iff.mp h
  exact ⟨d, run_turns C W hdmae hd, hcheck⟩

/-- **A turn fails at just those of its pointers that are not set, and in a run from where the pointers are set up no null
pointer is followed just if every operation asks for what is there.** -/
theorem guest_pointers_iff :
    (∀ t : EeDmacTurn, t.Follows t.pointers t.channelTurn) ∧
      ∀ (ops : List (Op σ τ)) (s : PointerState σ τ), s.Initialised →
        (Run.Always (step C W) (NullSafe C W) ops s ↔ Run.Always (step C W) Supported ops s) := by
  refine ⟨EeDmacTurn.follows_channelTurn, fun ops s hs => ?_⟩
  exact Run.always_iff_of_keeps (fun _ _ _ hI _ => initialised_step C W hI) (fun op _ hI => nullSafe_iff C W hI op) hs

/-! ### Choices that are not there -/

/-- The guest writes CHCR of channel `i`. -/
def Op.writeChcr (i : Fin 10) (value : Uword) : Op σ τ :=
  .other (fun s => { s with dmac := s.dmac.setTurn i ((s.dmac.turn i).writeChcr value) }) fun s j => by
    by_cases hj : j = i
    · subst hj
      rw [EeDmac.channels_setTurn_self]
      exact EeDmacTurn.keeps_writeChcr (s.dmac.turn j) value
    · rw [EeDmac.channels_setTurn_of_ne hj]
      exact .refl _

/-- Channel `id` as the emulator starts it. -/
def startChannel (id : Fin 10) : EeDmacChannel where
  channelId := id
  dmaFifoQueue := if EeDmacChannel.initialised id .dmaFifoQueue then some .empty else none
  madr := 0
  qwc := 0
  chcr := ⟨0, false, false, false, false, .blank⟩
  tadr := if EeDmacChannel.initialised id .tadr then some 0 else none
  asr := if EeDmacChannel.initialised id (.asr 0) then some (.replicate 2 0) else none
  sadr := if EeDmacChannel.initialised id .sadr then some 0 else none

/-- Both cores in kernel mode, all coprocessors usable, and transfers enabled. -/
def startState : PointerState Unit Unit where
  ee :=
    { pc := 0x80001000
      bdelay := ⟨0, 0⟩
      data := ⟨fun _ => 0, ()⟩
      cop0 := { EeCoreCop0.initial with status := ⟨0xF0000000, true, .kernel, false⟩ }
      tlb := fun _ => EeCore.firstPages
      translationCacheData := .new ..
      translationCacheInst := .new .. }
  iop :=
    { pc := 0x80001000
      bdelay := ⟨0, 0⟩
      data := ⟨fun _ => 0, ()⟩
      cop0 := .initial
      translationCacheData := .new ..
      translationCacheInst := .new .. }
  dmac :=
    { ctrl := 1
      stat := 0
      stadr := 0
      sbusF240 := 0
      memory := ⟨fun _ => true, fun _ => 0⟩
      channels := startChannel
      cause := .initial }

theorem initialised_startState : startState.Initialised := by
  intro i
  refine ⟨rfl, fun p => ?_⟩
  cases p with
  | tadr =>
    revert i
    decide
  | asr n =>
    have hset : (startChannel i).asr.isSome = decide (i.val ∈ [0, 1, 2]) := by
      revert i
      decide
    exact congrArg (decide (n < 2) && ·) hset
  | sadr =>
    revert i
    decide
  | dmaFifoQueue =>
    revert i
    decide

/-- Control registers that hold nothing. -/
def zeroRegisters : ControlRegisters Unit :=
  ⟨fun _ => 0, fun _ => 0, fun _ _ => 0, fun _ => 0, fun _ => 0, fun _ => 0, fun _ => 0, fun _ => 0, fun _ => 0, fun _ => 0,
    fun _ => 0, fun _ => 0, fun _ => 0, fun _ => 0⟩

/-- Their writes. -/
def zeroWriters : ControlWriters Unit := ⟨fun _ _ => id, fun _ _ => id⟩

/-- No null pointer is followed from `startState` on. -/
def SafeFromStart (ops : List (Op Unit Unit)) : Prop :=
  Run.Always (step zeroRegisters zeroWriters) (NullSafe zeroRegisters zeroWriters) ops startState

/-- `CFC2 $1, $21`, `MFC0 $1, Status` of the IOP, and channel 0 started in chain mode, which reads a tag. -/
theorem guest_pointers_iff_chain :
    SafeFromStart [.control .cfc2 ⟨0x4841A800⟩, .mfc0 ⟨0x40016000⟩, .writeChcr 0 0x105, .turn 0, .turn 0] := by
  refine ((guest_pointers_iff zeroRegisters zeroWriters).2 _ _ initialised_startState).mpr ?_
  refine ⟨fun _ _ => by decide, fun s₁ h₁ => ?_⟩
  obtain rfl := Except.ok.inj h₁
  refine ⟨fun _ => by decide, fun s₂ h₂ => ?_⟩
  obtain rfl := Except.ok.inj h₂
  refine ⟨trivial, fun s₃ h₃ => ?_⟩
  obtain rfl := Except.ok.inj h₃
  refine ⟨fun _ => EeDmacTurn.supported_of_stack (by decide) (by decide), fun s₄ h₄ => ⟨fun _ => ?_, fun _ _ => trivial⟩⟩
  obtain rfl := Except.ok.inj h₄
  exact EeDmacTurn.supported_of_stack (by decide) (by decide)

/-- `CFC1 $1, $1`, `CTC2 $1, $19`, `MTC0 $1, $17` of the IOP, and fromSPR started as a source chain. -/
theorem not_safeFromStart :
    ¬SafeFromStart [.control .cfc1 ⟨0x44410800⟩] ∧ ¬SafeFromStart [.control .ctc2 ⟨0x48C19800⟩] ∧
      ¬SafeFromStart [.mtc0 ⟨0x40818800⟩] ∧ ¬SafeFromStart [.writeChcr 8 0x105, .turn 8, .turn 8] := by
  refine ⟨fun h => h.1 rfl, fun h => h.1 rfl, fun h => h.1 rfl, fun h => ?_⟩
  have hset := ((h.2 _ rfl).2 _ rfl).1 (by decide) .tadr (by decide)
  exact absurd hset (by decide)

end PointerState

end Orbum
