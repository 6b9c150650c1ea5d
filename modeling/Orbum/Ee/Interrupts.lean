import Orbum.Ee.Core.Timer
import Orbum.Ee.Dmac.Frame
import Orbum.Lib.Run

/-!
# Interrupts of the EE

What reaches the two interrupt lines of the EE core: the status and mask registers of the INTC
(`EeIntcRegisters.cpp`, `CEeIntc.cpp`) on line 2 and those of the DMAC on line 3.

A tick of the DMAC returns early while D_CTRL disables transfers, and then leaves line 3 as it was.

## The model

An operation of `EeInterruptOp` is one step of a device, the guest or a controller. `others` stands for
everything else done to the DMAC between its ticks: guest writes to its other registers, and the
peripherals at its FIFOs.
-/

namespace Orbum

/-! ### The registers -/

/-- The bits of D_STAT that ask for an interrupt. -/
inductive EeDmacSource where
  /-- `CIS0` to `CIS9`. -/
  | cis (channel : Fin 10)
  /-- `SIS`. -/
  | sis
  /-- `MEIS`. -/
  | meis
  /-- `BEIS`. -/
  | beis

/-- The bit of a source; its mask bit is 16 above. -/
def EeDmacSource.bit : EeDmacSource → ℕ
  | cis channel => channel
  | sis => 13
  | meis => 14
  | beis => 15

theorem EeDmacSource.bit_lt (source : EeDmacSource) : source.bit < 10 ∨ 13 ≤ source.bit ∧ source.bit < 16 := by
  cases source with
  | cis channel => exact .inl channel.isLt
  | sis => decide
  | meis => decide
  | beis => decide

/-- `EeDmacRegister_Stat::byte_bus_write_uword`, from the EE: status bits are cleared by a 1, mask bits reversed. -/
def EeDmacStat.busWrite (stat value : Uword) : Uword :=
  let clrBits := (stat &&& 0xFFFF) &&& ~~~(value &&& 0xFFFF)
  let revBits := (stat &&& 0xFFFF0000) ^^^ (value &&& 0xFFFF0000)
  revBits ||| clrBits

/-- `EeIntcRegister_Stat::byte_bus_write_uword`, from the EE. -/
def EeIntcStat.busWrite (stat value : Uword) : Uword := stat &&& ~~~value

/-- `EeIntcRegister_Stat::IRQ_KEYS[irq]`. -/
def EeIntcStat.irqKey (irq : Fin 15) : Bitfield := ⟨irq, 1⟩

/-- `EeIntcRegister_Mask::byte_bus_write_uword`, from the EE. -/
def EeIntcMask.busWrite (mask value : Uword) : Uword := mask ^^^ value

/-- The interrupt controllers of the EE, with `Cause` in the DMAC. -/
structure EeInterrupts where
  /-- INTC STAT. -/
  intcStat : Uword
  /-- INTC MASK. -/
  intcMask : Uword
  /-- The DMAC. -/
  dmac : EeDmac

/-- Everything of the DMAC but D_CTRL, D_STAT and `Cause`. -/
structure EeDmacRest where
  /-- `D_STADR`. -/
  stadr : Uword
  /-- `SBUS_F240`. -/
  sbusF240 : Uword
  /-- The memory behind the EE bus. -/
  memory : Memory
  /-- The channels. -/
  channels : Fin 10 → EeDmacChannel

/-- One step of a device, the guest or a controller. -/
inductive EeInterruptOp where
  /-- A device raises its bit of INTC STAT. -/
  | raiseIntc (irq : Fin 15)
  /-- A bit of D_STAT is raised. -/
  | raiseDmac (source : EeDmacSource)
  /-- A guest write to INTC STAT. -/
  | writeIntcStat (value : Uword)
  /-- A guest write to INTC MASK. -/
  | writeIntcMask (value : Uword)
  /-- A guest write to D_STAT. -/
  | writeDmacStat (value : Uword)
  /-- A guest write to D_CTRL. -/
  | writeDmacCtrl (value : Uword)
  /-- `MTC0` to `Cause`. -/
  | writeCause (value : Uword)
  /-- `cause.insert_field(field, value)` of an exception. -/
  | insertCause (field : Bitfield) (value : Uword)
  /-- A read of `Cause`, which is written back. -/
  | readCause
  /-- What `ERET` does to `Cause`. -/
  | eret
  /-- A tick of `CEeIntc`. -/
  | intcTick
  /-- A tick of `CEeDmac`. -/
  | dmacTick
  /-- The rest of the DMAC changes. -/
  | others (rest : EeDmacRest)

namespace EeInterrupts

variable (s : EeInterrupts)

/-- Writes `Cause`. -/
def setCause (cause : EeCoreCop0Cause) : EeInterrupts := { s with dmac := { s.dmac with cause } }

/-- Writes D_STAT. -/
def setDmacStat (stat : Uword) : EeInterrupts := { s with dmac := { s.dmac with stat } }

/-- `CEeIntc::time_step(ticks_available)`. -/
def intcTimeStep : Except HostError EeInterrupts :=
  if s.intcStat &&& s.intcMask ≠ 0 then do return s.setCause (← s.dmac.cause.setIrqLine 2)
  else do return s.setCause (← s.dmac.cause.clearIrqLine 2)

/-- Bit `i` of `IP`, as `Cause` reads. -/
def Ip (i : Fin 8) : Prop := (EeCoreCop0Cause.ip.extractFrom s.dmac.cause.merged).getLsbD i = true

/-- The condition for line 3: a status bit and its mask bit, or a bus error. -/
def DmacCondition : Prop :=
  ∃ source : EeDmacSource, s.dmac.stat.getLsbD source.bit ∧ (source = .beis ∨ s.dmac.stat.getLsbD (16 + source.bit))

/-- The bits of D_STAT that stand for no source are clear, as after construction. -/
def Reserved : Prop := ∀ i, 10 ≤ i → i < 13 → s.dmac.stat.getLsbD i = false

end EeInterrupts

namespace EeInterruptOp

open EeInterrupts

/-- What a step does. -/
def step : EeInterruptOp → EeInterrupts → Except HostError EeInterrupts
  | raiseIntc irq, s => .ok { s with intcStat := (EeIntcStat.irqKey irq).insertInto s.intcStat 1 }
  | raiseDmac source, s => .ok (s.setDmacStat (Bitfield.insertInto ⟨source.bit, 1⟩ s.dmac.stat 1))
  | writeIntcStat value, s => .ok { s with intcStat := EeIntcStat.busWrite s.intcStat value }
  | writeIntcMask value, s => .ok { s with intcMask := EeIntcMask.busWrite s.intcMask value }
  | writeDmacStat value, s => .ok (s.setDmacStat (EeDmacStat.busWrite s.dmac.stat value))
  | writeDmacCtrl value, s => .ok { s with dmac := { s.dmac with ctrl := value } }
  | writeCause value, s => .ok (s.setCause { s.dmac.cause with w := value })
  | insertCause field value, s => .ok (s.setCause (s.dmac.cause.insertField field value))
  | readCause, s => .ok (s.setCause s.dmac.cause.readUword.2)
  | eret, s => .ok (s.setCause s.dmac.cause.clearAllIrq)
  | intcTick, s => s.intcTimeStep
  | dmacTick, s => do return { s with dmac := ← s.dmac.timeStep }
  | others rest, s => .ok { s with dmac := {
      s.dmac with stadr := rest.stadr, sbusF240 := rest.sbusF240, memory := rest.memory, channels := rest.channels } }

/-- The step writes a 1 to bit `i` of INTC STAT. -/
def ClearsIntc (i : ℕ) : EeInterruptOp → Prop
  | writeIntcStat value => value.getLsbD i = true
  | _ => False

/-- The step writes a 1 to bit `i` of D_STAT. -/
def ClearsDmac (i : ℕ) : EeInterruptOp → Prop
  | writeDmacStat value => value.getLsbD i = true
  | _ => False

/-- The step writes `Cause` or updates a field of it. -/
def TouchesCause : EeInterruptOp → Prop
  | writeCause _ | insertCause _ _ | readCause => True
  | _ => False

/-- A tick of each controller, in either order. -/
def Ticks (s t : EeInterrupts) : Prop :=
  Run.run step [intcTick, dmacTick] s = .ok t ∨ Run.run step [dmacTick, intcTick] s = .ok t

/-- The interrupt fan-in at a step. -/
structure Meets (op : EeInterruptOp) (s : EeInterrupts) : Prop where
  /-- After a tick of each controller both lines follow their registers. -/
  ticks : ∀ t, Ticks s t → (t.Ip 2 ↔ t.intcStat &&& t.intcMask ≠ 0) ∧ (t.Ip 3 ↔ t.DmacCondition)
  /-- A bit of INTC STAT stays set until a 1 is written to it. -/
  intcKept : ∀ s', step op s = .ok s' → ∀ i, s.intcStat.getLsbD i → ¬op.ClearsIntc i → s'.intcStat.getLsbD i
  /-- A status bit of D_STAT stays set until a 1 is written to it. -/
  dmacKept : ∀ s', step op s = .ok s' → ∀ i, i < 16 → s.dmac.stat.getLsbD i → ¬op.ClearsDmac i → s'.dmac.stat.getLsbD i
  /-- No access to `Cause` changes a line. -/
  lines : op.TouchesCause → ∀ s', step op s = .ok s' → ∀ i, s'.Ip i ↔ s.Ip i

/-- Where the code meets it: transfers are enabled, or line 3 agrees with D_STAT already. -/
def Sound (_ : EeInterruptOp) (s : EeInterrupts) : Prop :=
  EeDmacCtrl.dmae.extractFrom s.dmac.ctrl ≠ 0 ∨ (s.Ip 3 ↔ s.DmacCondition)

end EeInterruptOp

/-! ### Bits -/

theorem EeDmacStat.getLsbD_busWrite (stat value : Uword) (i : ℕ) : (busWrite stat value).getLsbD i =
    if i < 16 then stat.getLsbD i && !value.getLsbD i else stat.getLsbD i ^^ value.getLsbD i := by
  have hlow (i : ℕ) : (0xFFFF : Uword).getLsbD i = (decide (i < 32) && decide (i < 16)) :=
    Bitfield.getLsbD_unshiftedMask ⟨0, 16⟩ i
  have hhigh (i : ℕ) : (0xFFFF0000 : Uword).getLsbD i = (decide (i < 32) && decide (16 ≤ i ∧ i < 16 + 16)) :=
    Bitfield.getLsbD_shiftedMask ⟨16, 16⟩ i
  simp only [busWrite, BitVec.getLsbD_or, BitVec.getLsbD_and, BitVec.getLsbD_xor, BitVec.getLsbD_not, hlow, hhigh]
  by_cases hi : i < 32
  · by_cases h16 : i < 16
    · simp [hi, h16, Nat.not_le.mpr h16]
    · simp [hi, h16, Nat.not_lt.mp h16]
  · simp [hi, show ¬i < 16 by omega, BitVec.getLsbD_of_ge _ _ (Nat.not_lt.mp hi)]

theorem EeDmacStat.isInterruptPending_iff (stat : Uword) :
    isInterruptPending stat ↔ (∃ i, i < 16 ∧ stat.getLsbD i ∧ stat.getLsbD (16 + i)) ∨ stat.getLsbD 15 := by
  have hbit (i : ℕ) : ((stat &&& 0xFFFF) &&& ((stat &&& 0xFFFF0000) >>> 16)).getLsbD i =
      (decide (i < 16) && (stat.getLsbD i && stat.getLsbD (16 + i))) := by
    have hlow := Bitfield.getLsbD_extractFrom ⟨0, 16⟩ stat i
    have hhigh := Bitfield.getLsbD_extractFrom ⟨16, 16⟩ stat i
    rw [Nat.zero_add] at hlow
    rw [BitVec.getLsbD_and]
    refine (congrArg₂ (· && ·) hlow hhigh).trans ?_
    cases decide (i < 16) <;> simp
  have hmask : (stat &&& 0xFFFF) &&& ((stat &&& 0xFFFF0000) >>> 16) ≠ 0 ↔
      ∃ i, i < 16 ∧ stat.getLsbD i ∧ stat.getLsbD (16 + i) := by
    constructor
    · intro h
      by_contra hno
      push Not at hno
      refine h (BitVec.eq_of_getLsbD_eq fun i _ => ?_)
      rw [hbit, show (0 : Uword) = 0#32 from rfl, BitVec.getLsbD_zero]
      by_cases hi : i < 16
      · cases hs : stat.getLsbD i
        · simp
        · simp [hno i hi hs]
      · simp [hi]
    · rintro ⟨i, hi, hs, hm⟩ h
      have h0 := hbit i
      rw [h, show (0 : Uword) = 0#32 from rfl, BitVec.getLsbD_zero, hs, hm] at h0
      simp [hi] at h0
  have hbeis : 0 < beis.extractFrom stat ↔ stat.getLsbD 15 := Bitfield.zero_lt_extractFrom_bit_iff stat 15
  simp only [isInterruptPending, decide_eq_true_eq, hmask, hbeis]

namespace EeInterrupts

variable (s : EeInterrupts)

theorem ip_iff (i : Fin 8) : s.Ip i ↔ s.dmac.cause.irqLines i = true := by
  unfold Ip
  rw [EeCoreCop0Cause.getLsbD_ip_merged]

/-- The test of the source looks at the reserved bits too, which are clear. -/
theorem isInterruptPending_iff_dmacCondition (hs : s.Reserved) :
    EeDmacStat.isInterruptPending s.dmac.stat ↔ s.DmacCondition := by
  rw [EeDmacStat.isInterruptPending_iff]
  constructor
  · rintro (⟨i, hi, hstat, hmask⟩ | hb)
    · by_cases h10 : i < 10
      · exact ⟨.cis ⟨i, h10⟩, hstat, .inr hmask⟩
      · by_cases h13 : i < 13
        · rw [hs i (by omega) h13] at hstat
          cases hstat
        · obtain rfl | rfl | rfl : i = 13 ∨ i = 14 ∨ i = 15 := by omega
          · exact ⟨.sis, hstat, .inr hmask⟩
          · exact ⟨.meis, hstat, .inr hmask⟩
          · exact ⟨.beis, hstat, .inl rfl⟩
    · exact ⟨.beis, hb, .inl rfl⟩
  · rintro ⟨source, hstat, rfl | hmask⟩
    · exact .inr hstat
    · refine .inl ⟨source.bit, ?_, hstat, hmask⟩
      cases source with
      | cis channel => exact Nat.lt_trans channel.isLt (by decide)
      | sis => decide
      | meis => decide
      | beis => decide

/-! ### Ticks -/

theorem intcTimeStep_eq : s.intcTimeStep =
    .ok (s.setCause (s.dmac.cause.withLine 2 (decide (s.intcStat &&& s.intcMask ≠ 0)))) := by
  unfold intcTimeStep
  split_ifs with h
  · rw [decide_eq_true h]
    rfl
  · rw [decide_eq_false h]
    rfl

theorem reserved_of_raisesStat {s t : EeInterrupts} (hs : s.Reserved) (h : RaisesStat s.dmac.stat t.dmac.stat) :
    t.Reserved := by
  intro i h10 h13
  rw [h.others i h10 (by omega)]
  exact hs i h10 h13

end EeInterrupts

namespace EeInterruptOp

open EeInterrupts

/-- What a tick of each controller leaves, in either order. -/
structure Ticked (s t : EeInterrupts) : Prop where
  /-- INTC STAT and MASK are as before. -/
  intc : t.intcStat = s.intcStat ∧ t.intcMask = s.intcMask
  /-- Bits of D_STAT have been raised, none while transfers are disabled. -/
  stat : RaisesStat s.dmac.stat t.dmac.stat ∧ (EeDmacCtrl.dmae.extractFrom s.dmac.ctrl = 0 → t.dmac.stat = s.dmac.stat)
  /-- Line 2 follows the INTC. -/
  line2 : t.Ip 2 ↔ s.intcStat &&& s.intcMask ≠ 0
  /-- Line 3 follows D_STAT if transfers are enabled. -/
  line3 : t.Ip 3 ↔ if EeDmacCtrl.dmae.extractFrom s.dmac.ctrl = 0 then s.Ip 3
    else EeDmacStat.isInterruptPending t.dmac.stat = true

theorem ticked_of_ticks {s t : EeInterrupts} (h : Ticks s t) : Ticked s t := by
  rcases h with h | h
  · obtain ⟨s₁, h1, h⟩ := Run.run_cons_ok.mp h
    obtain ⟨s₂, h2, h⟩ := Run.run_cons_ok.mp h
    obtain rfl := Except.ok.inj h
    rw [step, intcTimeStep_eq] at h1
    obtain rfl := Except.ok.inj h1
    obtain ⟨d, hd, h2⟩ := bind_eq_ok_iff.mp h2
    obtain rfl := Except.ok.inj h2
    have ht := EeDmac.ticked_timeStep _ d hd
    refine ⟨⟨rfl, rfl⟩, ⟨ht.stat, fun h0 => by rw [ht.idle h0]; rfl⟩, ?_, ?_⟩
    · rw [ip_iff, ht.line_of_ne (by decide)]
      exact (iff_of_eq (congrArg (· = true) (s.dmac.cause.withLine_self 2 _))).trans decide_eq_true_iff
    · rw [ip_iff, ip_iff, ht.line3]
      have h3 : (s.dmac.cause.withLine 2 (decide (s.intcStat &&& s.intcMask ≠ 0))).irqLines 3 = s.dmac.cause.irqLines 3 :=
        s.dmac.cause.withLine_of_ne (by decide) _
      simp only [setCause, h3]
      split_ifs <;> rfl
  · obtain ⟨s₁, h1, h⟩ := Run.run_cons_ok.mp h
    obtain ⟨s₂, h2, h⟩ := Run.run_cons_ok.mp h
    obtain rfl := Except.ok.inj h
    obtain ⟨d, hd, h1⟩ := bind_eq_ok_iff.mp h1
    obtain rfl := Except.ok.inj h1
    have ht := EeDmac.ticked_timeStep _ d hd
    rw [step, intcTimeStep_eq] at h2
    obtain rfl := Except.ok.inj h2
    refine ⟨⟨rfl, rfl⟩, ⟨ht.stat, fun h0 => congrArg (·.stat) (ht.idle h0)⟩, ?_, ?_⟩
    · rw [ip_iff]
      exact (iff_of_eq (congrArg (· = true) (d.cause.withLine_self 2 _))).trans decide_eq_true_iff
    · have h3 : (d.cause.withLine 2 (decide (s.intcStat &&& s.intcMask ≠ 0))).irqLines 3 = d.cause.irqLines 3 :=
        d.cause.withLine_of_ne (by decide) _
      rw [ip_iff, ip_iff]
      simp only [setCause, h3, ht.line3]
      split_ifs <;> rfl

/-- While transfers are disabled the ticks happen. -/
theorem exists_ticks {s : EeInterrupts} (h : EeDmacCtrl.dmae.extractFrom s.dmac.ctrl = 0) : ∃ t, Ticks s t := by
  have hdmac : step dmacTick s = .ok s := by
    simp only [step, EeDmac.timeStep, if_pos h]
    rfl
  have hintc : step intcTick s = .ok _ := s.intcTimeStep_eq
  exact ⟨_, .inr (Run.run_cons_ok.mpr ⟨s, hdmac, Run.run_cons_ok.mpr ⟨_, hintc, rfl⟩⟩)⟩

/-- Both lines follow their registers after the ticks exactly where the state is sound. -/
theorem ticks_iff_sound (op : EeInterruptOp) {s : EeInterrupts} (hs : s.Reserved) :
    (∀ t, Ticks s t → (t.Ip 2 ↔ t.intcStat &&& t.intcMask ≠ 0) ∧ (t.Ip 3 ↔ t.DmacCondition)) ↔ Sound op s := by
  have hline2 {t : EeInterrupts} (ht : Ticked s t) : t.Ip 2 ↔ t.intcStat &&& t.intcMask ≠ 0 := by
    rw [ht.intc.1, ht.intc.2]
    exact ht.line2
  by_cases hd : EeDmacCtrl.dmae.extractFrom s.dmac.ctrl = 0
  · have hstale {t : EeInterrupts} (ht : Ticked s t) : (t.Ip 3 ↔ s.Ip 3) ∧ (t.DmacCondition ↔ s.DmacCondition) := by
      refine ⟨by rw [ht.line3, if_pos hd], ?_⟩
      unfold DmacCondition
      rw [ht.stat.2 hd]
    simp only [Sound, hd, ne_eq, not_true, false_or]
    constructor
    · intro h
      obtain ⟨t, ht⟩ := exists_ticks hd
      obtain ⟨h3, hc⟩ := hstale (ticked_of_ticks ht)
      rw [← h3, ← hc]
      exact (h t ht).2
    · intro h t ht
      obtain ⟨h3, hc⟩ := hstale (ticked_of_ticks ht)
      exact ⟨hline2 (ticked_of_ticks ht), by rw [h3, hc, h]⟩
  · refine iff_of_true (fun t ht => ?_) (.inl hd)
    have htick := ticked_of_ticks ht
    refine ⟨hline2 htick, ?_⟩
    rw [htick.line3, if_neg hd]
    exact isInterruptPending_iff_dmacCondition t (reserved_of_raisesStat hs htick.stat.1)

/-! ### Steps -/

/-- What a step does to the two status registers. -/
structure Kept (op : EeInterruptOp) (s s' : EeInterrupts) : Prop where
  /-- A bit of INTC STAT stays set until a 1 is written to it. -/
  intc : ∀ i, s.intcStat.getLsbD i → ¬op.ClearsIntc i → s'.intcStat.getLsbD i
  /-- A status bit of D_STAT stays set until a 1 is written to it. -/
  dmac : ∀ i, i < 16 → s.dmac.stat.getLsbD i → ¬op.ClearsDmac i → s'.dmac.stat.getLsbD i
  /-- The reserved bits of D_STAT stay clear. -/
  reserved : s.Reserved → s'.Reserved

theorem Kept.of_eq {op : EeInterruptOp} {s s' : EeInterrupts} (hi : s'.intcStat = s.intcStat)
    (hd : s'.dmac.stat = s.dmac.stat) : Kept op s s' := by
  refine ⟨fun i h _ => by rwa [hi], fun i _ h _ => by rwa [hd], fun h i h10 h13 => ?_⟩
  rw [hd]
  exact h i h10 h13

theorem kept_step {op : EeInterruptOp} {s s' : EeInterrupts} (h : step op s = .ok s') : Kept op s s' := by
  cases op with
  | raiseIntc irq =>
    obtain rfl := Except.ok.inj h
    refine ⟨fun i hi _ => ?_, fun i _ hi _ => hi, fun hr => hr⟩
    rw [EeIntcStat.irqKey, Bitfield.getLsbD_insertInto_bit _ _ _ (BitVec.lt_of_getLsbD hi), hi, Bool.or_true]
  | raiseDmac source =>
    obtain rfl := Except.ok.inj h
    refine ⟨fun i hi _ => hi, fun i _ hi _ => ?_, fun hr i h10 h13 => ?_⟩
    · simp only [setDmacStat]
      rw [Bitfield.getLsbD_insertInto_bit _ _ _ (BitVec.lt_of_getLsbD hi), hi, Bool.or_true]
    · have hne : i ≠ source.bit := by
        have := source.bit_lt
        omega
      simp only [setDmacStat]
      rw [Bitfield.getLsbD_insertInto_bit _ _ _ (by omega), hr i h10 h13, decide_eq_false hne, Bool.or_self]
  | writeIntcStat value =>
    obtain rfl := Except.ok.inj h
    refine ⟨fun i hi hc => ?_, fun i _ hi _ => hi, fun hr => hr⟩
    simp only [ClearsIntc, Bool.not_eq_true] at hc
    simp only [EeIntcStat.busWrite, BitVec.getLsbD_and, BitVec.getLsbD_not, hi, hc, BitVec.lt_of_getLsbD hi]
    rfl
  | writeDmacStat value =>
    obtain rfl := Except.ok.inj h
    refine ⟨fun i hi _ => hi, fun i h16 hi hc => ?_, fun hr i h10 h13 => ?_⟩
    · simp only [ClearsDmac, Bool.not_eq_true] at hc
      simp only [setDmacStat]
      rw [EeDmacStat.getLsbD_busWrite, if_pos h16, hi, hc]
      rfl
    · simp only [setDmacStat]
      rw [EeDmacStat.getLsbD_busWrite, if_pos (by omega), hr i h10 h13]
      rfl
  | dmacTick =>
    obtain ⟨d, hd, h⟩ := bind_eq_ok_iff.mp h
    obtain rfl := Except.ok.inj h
    have ht := EeDmac.ticked_timeStep _ d hd
    exact ⟨fun i hi _ => hi, fun i _ hi _ => ht.stat.kept i hi, fun hr => reserved_of_raisesStat hr ht.stat⟩
  | intcTick =>
    rw [step, intcTimeStep_eq] at h
    obtain rfl := Except.ok.inj h
    exact .of_eq rfl rfl
  | writeIntcMask value | writeDmacCtrl value | writeCause value | readCause | eret | others rest =>
    obtain rfl := Except.ok.inj h
    exact .of_eq rfl rfl
  | insertCause field value =>
    obtain rfl := Except.ok.inj h
    exact .of_eq rfl rfl

/-- No access to `Cause` changes a line. -/
theorem ip_of_touchesCause {op : EeInterruptOp} (hop : op.TouchesCause) {s s' : EeInterrupts} (h : step op s = .ok s')
    (i : Fin 8) : s'.Ip i ↔ s.Ip i := by
  rw [ip_iff, ip_iff]
  cases op with
  | writeCause value | readCause =>
    obtain rfl := Except.ok.inj h
    rfl
  | insertCause field value =>
    obtain rfl := Except.ok.inj h
    rfl
  | _ => exact hop.elim

theorem meets_iff_sound (op : EeInterruptOp) {s : EeInterrupts} (hs : s.Reserved) : op.Meets s ↔ op.Sound s := by
  rw [← ticks_iff_sound op hs]
  constructor
  · exact fun h => h.ticks
  · exact fun h => ⟨h, fun s' hs' => (kept_step hs').intc, fun s' hs' => (kept_step hs').dmac,
      fun hop s' hs' => ip_of_touchesCause hop hs'⟩

end EeInterruptOp

/-- In every run of the devices, the guest and the two controllers the interrupt fan-in is met at every step if and only
if at every step transfers are enabled or line 3 agrees with D_STAT already. -/
theorem interrupt_fanIn_iff (ops : List EeInterruptOp) {s : EeInterrupts} (hs : s.Reserved) :
    Run.Always EeInterruptOp.step EeInterruptOp.Meets ops s ↔ Run.Always EeInterruptOp.step EeInterruptOp.Sound ops s :=
  Run.always_iff (Q := fun _ _ => True) (I := EeInterrupts.Reserved)
    (fun _ _ _ hr _ h => (EeInterruptOp.kept_step h).reserved hr) (fun op _ hr => EeInterruptOp.meets_iff_sound op hr)
    hs (Run.always_of_forall (fun _ _ => trivial) ops s)

/-- The registers after construction. -/
def EeInterrupts.initial : EeInterrupts where
  intcStat := 0
  intcMask := 0
  dmac :=
    { ctrl := 0
      stat := 0
      stadr := 0
      sbusF240 := 0
      memory := ⟨fun _ => true, fun _ => 0⟩
      channels := fun channelId => ⟨channelId, none, 0, 0, ⟨0, false, false, false, false, .blank⟩, none, none, none⟩
      cause := .initial }

theorem EeInterrupts.reserved_initial : initial.Reserved := fun _ _ _ => BitVec.getLsbD_zero

theorem EeInterrupts.not_ip_initial (i : Fin 8) : ¬initial.Ip i := by
  rw [ip_iff]
  exact Bool.false_ne_true

/-- A channel interrupt unmasked, raised and seen, with transfers enabled first. -/
theorem interrupt_fanIn_iff_enabled :
    Run.Always EeInterruptOp.step EeInterruptOp.Meets
      [.writeDmacCtrl 1, .writeDmacStat 0x00010000, .raiseDmac (.cis 0), .dmacTick] EeInterrupts.initial := by
  refine (interrupt_fanIn_iff _ EeInterrupts.reserved_initial).mpr ⟨.inr ?_, fun s₁ h1 => ?_⟩
  · refine iff_of_false (EeInterrupts.not_ip_initial 3) fun h => ?_
    rw [← EeInterrupts.isInterruptPending_iff_dmacCondition _ EeInterrupts.reserved_initial] at h
    exact absurd h (by decide)
  · obtain rfl := Except.ok.inj h1
    refine ⟨.inl (by decide), fun s₂ h2 => ?_⟩
    obtain rfl := Except.ok.inj h2
    refine ⟨.inl (by decide), fun s₃ h3 => ?_⟩
    obtain rfl := Except.ok.inj h3
    exact ⟨.inl (by decide), fun _ _ => trivial⟩

/-- The same without enabling transfers: after the ticks line 3 is clear and the condition holds. -/
theorem interrupt_lost_while_disabled :
    ¬Run.Always EeInterruptOp.step EeInterruptOp.Meets
      [.writeDmacStat 0x00010000, .raiseDmac (.cis 0), .intcTick] EeInterrupts.initial := by
  intro h
  obtain ⟨-, h3⟩ := ((h.2 _ rfl).2 _ rfl).1.ticks _ (.inl rfl)
  exact EeInterrupts.not_ip_initial 3 (h3.mpr ⟨.cis 0, rfl, .inr rfl⟩)

end Orbum
