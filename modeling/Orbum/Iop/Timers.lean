import Mathlib.Data.List.FinRange
import Orbum.Common.Bitfield
import Orbum.Common.TimersCount
import Orbum.Lib.Cycle
import Orbum.Lib.Except
import Orbum.Lib.Run

/-!
# The IOP timers

`CIopTimers.cpp`, with the registers of `IopTimersUnitRegisters.cpp` and the units of `IopTimersUnits.cpp`: three timers
that count to 16 bits and three that count to 32. A tick of a clock goes round the six, resets those whose mode has been
written and increments those that count this clock. A timer interrupts where its count passes the maximum or comes to
COMPARE; the count then returns to zero, in which of the two cases depends on the mode.

The prescalers, the gate, the one-shot and the toggle mode are not there: a tick throws where it needs one. A timer
programmed to do without them (`Programmed`) is a cyclic counter. That the increment reduces the count by its maximum
does not show in it, since where the count passes its maximum it is set to zero right after.

## The model

What a tick writes of the INTC is I_STAT.
-/

namespace Orbum

/-! ### The registers -/

/-- `IopTimersUnitRegister_Mode`. -/
structure IopTimersUnitRegisterMode where
  /-- The register itself. -/
  value : Uword
  /-- `write_latch`: the timer is to be reset. -/
  writeLatch : Bool
  deriving DecidableEq

namespace IopTimersUnitRegisterMode

/-- `SYNC_ENABLE`. -/
def syncEnable : Bitfield := ⟨0, 1⟩

/-- `RESET_MODE`. -/
def resetMode : Bitfield := ⟨3, 1⟩

/-- `IRQ_ON_TARGET`. -/
def irqOnTarget : Bitfield := ⟨4, 1⟩

/-- `IRQ_ON_OF`. -/
def irqOnOf : Bitfield := ⟨5, 1⟩

/-- `IRQ_REPEAT`. -/
def irqRepeat : Bitfield := ⟨6, 1⟩

/-- `IRQ_TOGGLE`. -/
def irqToggle : Bitfield := ⟨7, 1⟩

/-- `EVENT_SRC`. -/
def eventSrc : Bitfield := ⟨8, 1⟩

/-- `PRESCALE0`. -/
def prescale0 : Bitfield := ⟨9, 1⟩

/-- `IRQ_REQUEST`. -/
def irqRequest : Bitfield := ⟨10, 1⟩

/-- `REACH_TARGET`. -/
def reachTarget : Bitfield := ⟨11, 1⟩

/-- `REACH_OF`. -/
def reachOf : Bitfield := ⟨12, 1⟩

/-- `PRESCALE1`. -/
def prescale1 : Bitfield := ⟨13, 2⟩

/-- The fields that a tick reads. -/
def configuration : List Bitfield :=
  [syncEnable, resetMode, irqOnTarget, irqOnOf, irqRepeat, irqToggle, eventSrc, prescale0, prescale1]

/-- The fields that a tick writes. -/
def flags : List Bitfield := [irqRequest, reachTarget, reachOf]

variable (m : IopTimersUnitRegisterMode)

/-- `extract_field(field)`. -/
def extractField (f : Bitfield) : Uword := f.extractFrom m.value

/-- `insert_field(field, value)`. -/
def insertField (f : Bitfield) (value : Uword) : IopTimersUnitRegisterMode := { m with value := f.insertInto m.value value }

/-- `byte_bus_write_uword(context, offset, value)`. -/
def busWriteUword (_m : IopTimersUnitRegisterMode) (value : Uword) : IopTimersUnitRegisterMode := ⟨value, true⟩

/-- `byte_bus_write_uhword(context, offset, value)`. -/
def busWriteUhword (offset : ℕ) (value : Uhword) : Except HostError IopTimersUnitRegisterMode :=
  if offset ≠ 0 then .error (.runtimeError "Iop timers write hword offset not 0.")
  else .ok ⟨Bitfield.insertInto ⟨0, 16⟩ m.value (value.setWidth 32), true⟩

/-- `is_enabled()`. -/
def isEnabled : Bool := 0 < m.extractField irqOnOf || 0 < m.extractField irqOnTarget

/-- `get_properties(unit_id)`: the prescale and the clock. -/
def properties (unitId : Fin 6) : Except HostError (BitVec 32 × ControllerEventType) :=
  if unitId.val < 3 then
    if 0 < m.extractField prescale0 then
      .error (.runtimeError "IOP Timers calculate_prescale_and_set_event() not fully implemented [0].")
    else if m.extractField eventSrc = 0 then .ok (1, .time)
    else .ok (1, .hBlank)
  else if 0 < m.extractField prescale1 then
    .error (.runtimeError "IOP Timers calculate_prescale_and_set_event() not fully implemented [1].")
  else if m.extractField eventSrc = 0 then .ok (1, .time)
  else .error (.runtimeError "IOP Timers calculate_prescale_and_set_event() not fully implemented [2].")

end IopTimersUnitRegisterMode

/-- `is_32b_count_mode(unit_id)`. -/
def is32bCountMode (unitId : Fin 6) : Bool := 3 ≤ unitId.val

/-- `IopTimersUnit_Base` but for `unit_id`. -/
structure IopTimersUnit where
  /-- `count`. -/
  count : TimersUnitRegisterCount
  /-- `mode`. -/
  mode : IopTimersUnitRegisterMode
  /-- `compare`. -/
  compare : Uword
  deriving DecidableEq

namespace IopTimersUnit

open IopTimersUnitRegisterMode

variable (u : IopTimersUnit)

/-- Writes the count. -/
def setCount (count : Uword) : IopTimersUnit := { u with count := { u.count with count } }

/-- The reset procedures, for a timer whose mode has been written. -/
def settle (prescale : BitVec 32) : IopTimersUnit :=
  if u.mode.writeLatch then
    { u with count := u.count.resetPrescale prescale, mode := { u.mode with writeLatch := false } }
  else u

/-- `handle_timer_overflow(unit)`. -/
def handleTimerOverflow : Bool × IopTimersUnit :=
  let r := u.count.isOverflowedAndReset
  let u := { u with count := r.2 }
  if r.1 then
    let u := if u.mode.extractField resetMode = 0 then u.setCount 0 else u
    (true, { u with mode := u.mode.insertField reachOf 1 })
  else (false, u)

/-- `handle_timer_target(unit)`. -/
def handleTimerTarget : Bool × IopTimersUnit :=
  if u.count.count = u.compare then
    let u := if 0 < u.mode.extractField resetMode then u.setCount 0 else u
    (true, { u with mode := u.mode.insertField reachTarget 1 })
  else (false, u)

/-- `handle_timer_interrupt(unit, has_overflowed, has_reached_target)`, with whether the bit of I_STAT is set. -/
def handleTimerInterrupt (hasOverflowed hasReachedTarget : Bool) : Except HostError (Bool × IopTimersUnit) :=
  if (u.mode.extractField irqOnTarget ≠ 0 ∧ hasReachedTarget) ∨ (u.mode.extractField irqOnOf ≠ 0 ∧ hasOverflowed) then
    if u.mode.extractField irqRepeat ≠ 0 then
      if u.mode.extractField irqToggle ≠ 0 then .error (.runtimeError "IOP Timers int toggle mode not implemented.")
      else
        let mode := u.mode.insertField irqRequest 0
        .ok (mode.extractField irqRequest = 0, { u with mode })
    else .error (.runtimeError "IOP Timers int oneshot mode not implemented.")
  else .ok (false, u)

/-- An increment of the count and what follows from it. -/
def increment (unitId : Fin 6) : Except HostFault (Bool × IopTimersUnit) :=
  (IopTimersUnitRegisterCount.increment (is32bCountMode unitId) u.count 1).elim (.error .undefined) fun count =>
    let overflow := { u with count }.handleTimerOverflow
    let target := overflow.2.handleTimerTarget
    (target.2.handleTimerInterrupt overflow.1 target.1).mapError .throws

/-- The body of the loop of `tick_timer` but for I_STAT: whether its bit is set. -/
def tick (unitId : Fin 6) (type : ControllerEventType) : Except HostFault (Bool × IopTimersUnit) := do
  let p ← (u.mode.properties unitId).mapError .throws
  let u := u.settle p.1
  if !u.mode.isEnabled || type ≠ p.2 then .ok (false, u)
  else if 0 < u.mode.extractField syncEnable then
    .error (.throws (.runtimeError "IOP Timers sync mode (gate) = 1, but not implemented."))
  else u.increment unitId

end IopTimersUnit

/-- `IopIntcRegister_Stat::TMR_KEYS[id]`. -/
def IopIntcStat.tmrKey (unitId : Fin 6) : Bitfield := ⟨if unitId.val < 3 then 4 + unitId else 11 + unitId, 1⟩

/-- The timers of `RIopTimers`, with I_STAT of the INTC. -/
structure IopTimers where
  /-- `units`. -/
  units : Fin 6 → IopTimersUnit
  /-- I_STAT. -/
  intcStat : Uword

namespace IopTimers

variable (t : IopTimers)

/-- One round of the loop of `tick_timer`, with the bit of I_STAT set. -/
def tickUnit (type : ControllerEventType) (i : Fin 6) : Except HostFault IopTimers := do
  let r ← (t.units i).tick i type
  return { units := Function.update t.units i r.2
           intcStat := if r.1 then (IopIntcStat.tmrKey i).insertInto t.intcStat 1 else t.intcStat }

/-- `tick_timer(ce_type)`. -/
def tickTimer (type : ControllerEventType) : Except HostFault IopTimers :=
  (List.finRange 6).foldlM (fun t i => t.tickUnit type i) t

end IopTimers

/-! ### One increment -/

namespace TimersUnitRegisterCount

variable {c : TimersUnitRegisterCount}

/-- An increment by one of a register that counts every tick. -/
theorem incrementBy_one {w : ℕ} (max : BitVec w) (ht : c.prescaleTarget = 1) (hc : c.prescaleCount = 0) :
    incrementBy max c 1 = some
      (if max < c.count.setWidth w + 1 then
        { c with count := ((c.count.setWidth w + 1) % max).setWidth 32, isOverflowed := true }
      else { c with count := (c.count.setWidth w + 1).setWidth 32 }) := by
  obtain ⟨count, isOverflowed, target, rest⟩ := c
  obtain rfl : target = 1 := ht
  obtain rfl : rest = 0 := hc
  have hloop := prescale_eq (t := 1) (x := 1) (by decide) (by decide) (count.setWidth w)
    (show (1 : BitVec 32).toNat / (1 : BitVec 32).toNat < 2 by decide)
  have hone : ((1 : BitVec 32).toNat / (1 : BitVec 32).toNat) = 1 := by decide
  rw [hone, show BitVec.ofNat 32 ((1 : BitVec 32).toNat % (1 : BitVec 32).toNat) = 0 by decide,
    show BitVec.ofNat w 1 = 1 from rfl] at hloop
  have hstart : incrementBy max ⟨count, isOverflowed, 1, 0⟩ 1 =
      (prescale 1 2 (count.setWidth w) 1).map fun r =>
        if max < r.1 then ⟨(r.1 % max).setWidth 32, true, 1, r.2⟩ else ⟨r.1.setWidth 32, isOverflowed, 1, r.2⟩ := rfl
  rw [hstart, hloop]
  rfl

/-- The value that the count does not pass, by the mode the register was made with. -/
def maximum (isUsing32bMode : Bool) : ℕ := if isUsing32bMode then 0xFFFFFFFF else 0xFFFF

/-- An increment by one takes a count at its maximum past it, to 1. -/
theorem increment_one (isUsing32bMode : Bool) (ht : c.prescaleTarget = 1) (hc : c.prescaleCount = 0)
    (hle : c.count.toNat ≤ maximum isUsing32bMode) :
    IopTimersUnitRegisterCount.increment isUsing32bMode c 1 = some
      (if c.count.toNat = maximum isUsing32bMode then { c with count := 1, isOverflowed := true }
      else { c with count := c.count + 1 }) := by
  unfold maximum at hle ⊢
  cases isUsing32bMode with
  | false =>
    rw [if_neg Bool.false_ne_true] at hle ⊢
    have hstep : IopTimersUnitRegisterCount.increment false c 1 = incrementBy (0xFFFF : BitVec 32) c 1 := rfl
    rw [hstep, incrementBy_one _ ht hc, BitVec.setWidth_eq]
    by_cases hmax : c.count.toNat = 0xFFFF
    · have hcount : c.count = 0xFFFF := BitVec.eq_of_toNat_eq hmax
      rw [if_pos hmax, hcount]
      rfl
    · have hno : ¬(0xFFFF : BitVec 32) < c.count + 1 := by bv_omega
      rw [if_neg hmax, if_neg hno, BitVec.setWidth_eq]
  | true =>
    rw [if_pos rfl] at hle ⊢
    have hstep : IopTimersUnitRegisterCount.increment true c 1 = incrementBy (0xFFFFFFFF : BitVec 64) c 1 := rfl
    rw [hstep, incrementBy_one _ ht hc]
    by_cases hmax : c.count.toNat = 0xFFFFFFFF
    · have hcount : c.count = 0xFFFFFFFF := BitVec.eq_of_toNat_eq hmax
      rw [if_pos hmax, hcount]
      rfl
    · have hno : ¬(0xFFFFFFFF : BitVec 64) < c.count.setWidth 64 + 1 := by bv_omega
      have hcount : (c.count.setWidth 64 + 1).setWidth 32 = c.count + 1 := by bv_omega
      rw [if_neg hmax, if_neg hno, hcount]

end TimersUnitRegisterCount

/-! ### A tick of a timer -/

namespace IopTimersUnitRegisterMode

variable {m m' m'' : IopTimersUnitRegisterMode}

/-- The fields that a tick reads are as before. -/
def Keeps (m m' : IopTimersUnitRegisterMode) : Prop := ∀ f ∈ configuration, m'.extractField f = m.extractField f

theorem Keeps.refl (m : IopTimersUnitRegisterMode) : m.Keeps m := fun _ _ => rfl

theorem Keeps.trans (h : m.Keeps m') (h' : m'.Keeps m'') : m.Keeps m'' := fun f hf => (h' f hf).trans (h f hf)

theorem keeps_insertField {g : Bitfield} (hg : g ∈ flags) (m : IopTimersUnitRegisterMode) (value : Uword) :
    m.Keeps (m.insertField g value) := by
  intro f hf
  have hdisjoint : ∀ f ∈ configuration, ∀ g ∈ flags, Bitfield.Disjoint f g := by decide
  exact Bitfield.extractFrom_insertInto_of_disjoint _ _ (hdisjoint f hf g hg)

theorem Keeps.isEnabled (h : m.Keeps m') : m'.isEnabled = m.isEnabled := by
  rw [IopTimersUnitRegisterMode.isEnabled, h irqOnOf (by decide), h irqOnTarget (by decide)]
  rfl

theorem Keeps.properties (h : m.Keeps m') (unitId : Fin 6) : m'.properties unitId = m.properties unitId := by
  rw [IopTimersUnitRegisterMode.properties, h prescale0 (by decide), h prescale1 (by decide), h eventSrc (by decide)]
  rfl

end IopTimersUnitRegisterMode

namespace IopTimersUnit

open IopTimersUnitRegisterMode

variable {u u' : IopTimersUnit} {unitId : Fin 6}

/-- The value that the count does not pass. -/
def maximum (unitId : Fin 6) : ℕ := TimersUnitRegisterCount.maximum (is32bCountMode unitId)

/-- Where the next tick that is counted starts from. -/
def phase (u : IopTimersUnit) : ℕ := if u.mode.writeLatch then 0 else u.count.count.toNat

/-- Where the count returns to zero. -/
def period (unitId : Fin 6) (u : IopTimersUnit) : ℕ :=
  if u.mode.extractField resetMode = 0 then maximum unitId + 1 else u.compare.toNat

/-- The timer counts ticks of this clock. -/
def counts (unitId : Fin 6) (u : IopTimersUnit) (type : ControllerEventType) : Bool :=
  u.mode.isEnabled && decide (u.mode.properties unitId = .ok (1, type))

/-- The timer interrupts where the count comes to this value. -/
def fires (u : IopTimersUnit) (value : ℕ) : Bool :=
  if u.mode.extractField resetMode = 0 then
    (u.mode.extractField irqOnOf ≠ 0 ∧ value = 0) ∨ (u.mode.extractField irqOnTarget ≠ 0 ∧ value = u.compare.toNat)
  else u.mode.extractField irqOnTarget ≠ 0 ∧ value = 0

/-- The timer is programmed to do what is there. -/
structure Programmed (unitId : Fin 6) (u : IopTimersUnit) : Prop where
  /-- It has a clock, without a prescaler. -/
  source : ∃ type, u.mode.properties unitId = .ok (1, type)
  /-- It is not gated, if it is enabled. -/
  gate : u.mode.isEnabled = true → u.mode.extractField syncEnable = 0
  /-- Its interrupts repeat. -/
  repeats : u.mode.isEnabled = true → u.mode.extractField irqRepeat ≠ 0
  /-- They do not toggle. -/
  level : u.mode.isEnabled = true → u.mode.extractField irqToggle = 0
  /-- No overflow is left to be seen. -/
  flag : u.count.isOverflowed = false
  /-- Every tick is counted, if the mode has not just been written. -/
  single : u.mode.writeLatch = false → u.count.prescaleTarget = 1 ∧ u.count.prescaleCount = 0
  /-- If the count returns to zero at COMPARE, it can get there. -/
  target : u.mode.extractField resetMode ≠ 0 → u.compare.toNat ≤ maximum unitId
  /-- It does get there. -/
  phase_lt : u.phase < u.period unitId

/-- What happens to a timer apart from its count, which comes to a value. -/
structure Advanced (u u' : IopTimersUnit) (value : Uword) : Prop where
  /-- The count, its prescaler and the flag. -/
  count : u'.count = { u.count with count := value }
  /-- The configuration stays. -/
  keeps : u.mode.Keeps u'.mode
  /-- So does the latch. -/
  latch : u'.mode.writeLatch = u.mode.writeLatch
  /-- And COMPARE. -/
  compare : u'.compare = u.compare

theorem handleTimerOverflow_of_not (h : u.count.isOverflowed = false) : u.handleTimerOverflow = (false, u) := by
  obtain ⟨⟨count, isOverflowed, target, rest⟩, mode, compare⟩ := u
  obtain rfl : isOverflowed = false := h
  rfl

/-- Past the maximum a count that returns to zero there does so. -/
theorem handleTimerOverflow_of_overflowed (h : u.count.isOverflowed = true) (hr : u.mode.extractField resetMode = 0) :
    u.handleTimerOverflow =
      (true, { u with
        count := { u.count with count := 0, isOverflowed := false }
        mode := u.mode.insertField reachOf 1 }) := by
  obtain ⟨⟨count, isOverflowed, target, rest⟩, mode, compare⟩ := u
  obtain rfl : isOverflowed = true := h
  simp only [handleTimerOverflow, TimersUnitRegisterCount.isOverflowedAndReset]
  rw [if_pos hr]
  rfl

theorem handleTimerTarget_spec (u : IopTimersUnit) :
    u.handleTimerTarget.1 = decide (u.count.count = u.compare) ∧
      Advanced u u.handleTimerTarget.2
        (if u.count.count = u.compare ∧ u.mode.extractField resetMode ≠ 0 then 0 else u.count.count) := by
  have hpos : 0 < u.mode.extractField resetMode ↔ u.mode.extractField resetMode ≠ 0 := by bv_omega
  unfold handleTimerTarget
  by_cases ht : u.count.count = u.compare
  · rw [if_pos ht, decide_eq_true ht]
    refine ⟨rfl, ?_⟩
    by_cases hr : u.mode.extractField resetMode ≠ 0
    · simp only [if_pos (hpos.mpr hr), if_pos (And.intro ht hr)]
      exact ⟨rfl, keeps_insertField (by decide) _ _, rfl, rfl⟩
    · simp only [if_neg (mt hpos.mp hr), if_neg (fun h : _ ∧ _ => hr h.2)]
      exact ⟨rfl, keeps_insertField (by decide) _ _, rfl, rfl⟩
  · rw [if_neg ht, decide_eq_false ht, if_neg (fun h => ht h.1)]
    exact ⟨rfl, rfl, .refl _, rfl, rfl⟩

/-- A repeated interrupt that does not toggle is always passed on. -/
theorem handleTimerInterrupt_spec (hrep : u.mode.extractField irqRepeat ≠ 0) (hlevel : u.mode.extractField irqToggle = 0)
    (hasOverflowed hasReachedTarget : Bool) :
    ∃ u', u.handleTimerInterrupt hasOverflowed hasReachedTarget =
        .ok (decide ((u.mode.extractField irqOnTarget ≠ 0 ∧ hasReachedTarget) ∨
          (u.mode.extractField irqOnOf ≠ 0 ∧ hasOverflowed)), u') ∧ Advanced u u' u.count.count := by
  unfold handleTimerInterrupt
  by_cases hasked : (u.mode.extractField irqOnTarget ≠ 0 ∧ hasReachedTarget) ∨
      (u.mode.extractField irqOnOf ≠ 0 ∧ hasOverflowed)
  · have hlow : (u.mode.insertField irqRequest 0).extractField irqRequest = 0 := by
      rw [extractField, insertField, Bitfield.extractFrom_insertInto_self _ _ _ (by decide)]
      exact BitVec.zero_and
    refine ⟨{ u with mode := u.mode.insertField irqRequest 0 }, ?_, rfl, keeps_insertField (by decide) _ _, rfl, rfl⟩
    rw [if_pos hasked, if_pos hrep, if_neg (not_not.mpr hlevel), decide_eq_true hasked]
    exact congrArg (fun b => Except.ok (b, _)) (decide_eq_true hlow)
  · exact ⟨u, by rw [if_neg hasked, decide_eq_false hasked], rfl, .refl _, rfl, rfl⟩

theorem Advanced.trans {u'' : IopTimersUnit} {v w : Uword} (h : Advanced u u' v) (h' : Advanced u' u'' w) :
    Advanced u u'' w :=
  ⟨by rw [h'.count, h.count], h.keeps.trans h'.keeps, h'.latch.trans h.latch, h'.compare.trans h.compare⟩

/-- What follows from a count that has just been advanced and, if it passed its maximum, set to zero. -/
theorem finish_spec (hrep : u.mode.extractField irqRepeat ≠ 0) (hlevel : u.mode.extractField irqToggle = 0)
    (hasOverflowed : Bool) :
    ∃ u', u.handleTimerTarget.2.handleTimerInterrupt hasOverflowed u.handleTimerTarget.1 =
        .ok (decide ((u.mode.extractField irqOnTarget ≠ 0 ∧ u.count.count = u.compare) ∨
          (u.mode.extractField irqOnOf ≠ 0 ∧ hasOverflowed)), u') ∧
      Advanced u u' (if u.count.count = u.compare ∧ u.mode.extractField resetMode ≠ 0 then 0 else u.count.count) := by
  obtain ⟨hreached, hadv⟩ := u.handleTimerTarget_spec
  have hkeeps := hadv.keeps
  obtain ⟨u', hok, hadv'⟩ := handleTimerInterrupt_spec (u := u.handleTimerTarget.2)
    (by rw [hkeeps irqRepeat (by decide)]; exact hrep) (by rw [hkeeps irqToggle (by decide)]; exact hlevel)
    hasOverflowed u.handleTimerTarget.1
  refine ⟨u', ?_, ?_⟩
  · rw [hok, hkeeps irqOnTarget (by decide), hkeeps irqOnOf (by decide), hreached]
    simp only [decide_eq_true_eq]
  · have := hadv.trans hadv'
    rwa [hadv.count] at this

/-- A counted tick by what its increment and the test for the overflow leave. -/
theorem increment_of {count : TimersUnitRegisterCount} {u₁ : IopTimersUnit} {hasOverflowed : Bool} (value : Uword)
    (hrep : u.mode.extractField irqRepeat ≠ 0) (hlevel : u.mode.extractField irqToggle = 0)
    (hinc : IopTimersUnitRegisterCount.increment (is32bCountMode unitId) u.count 1 = some count)
    (hover : { u with count }.handleTimerOverflow = (hasOverflowed, u₁)) (hadv : Advanced u u₁ value) :
    ∃ u', u.increment unitId =
        .ok (decide ((u.mode.extractField irqOnTarget ≠ 0 ∧ value = u.compare) ∨
          (u.mode.extractField irqOnOf ≠ 0 ∧ hasOverflowed)), u') ∧
      Advanced u u' (if value = u.compare ∧ u.mode.extractField resetMode ≠ 0 then 0 else value) := by
  obtain ⟨hcount, hkeeps, hlatch, hcompare⟩ := hadv
  obtain ⟨u', hok, hadv'⟩ := finish_spec (u := u₁) (by rw [hkeeps irqRepeat (by decide)]; exact hrep)
    (by rw [hkeeps irqToggle (by decide)]; exact hlevel) hasOverflowed
  rw [hkeeps irqOnTarget (by decide), hkeeps irqOnOf (by decide), hcompare, hcount] at hok
  rw [hkeeps resetMode (by decide), hcompare, hcount] at hadv'
  refine ⟨u', ?_, Advanced.trans ⟨hcount, hkeeps, hlatch, hcompare⟩ hadv'⟩
  rw [IopTimersUnit.increment, hinc, Option.elim_some, hover]
  dsimp only
  rw [hok]
  rfl

theorem increment_one (ht : u.count.prescaleTarget = 1) (hc : u.count.prescaleCount = 0)
    (hle : u.count.count.toNat ≤ maximum unitId) :
    IopTimersUnitRegisterCount.increment (is32bCountMode unitId) u.count 1 = some
      (if u.count.count.toNat = maximum unitId then { u.count with count := 1, isOverflowed := true }
      else { u.count with count := u.count.count + 1 }) :=
  TimersUnitRegisterCount.increment_one _ ht hc hle

/-- A counted tick takes the count one step around, and interrupts where it comes to. -/
theorem Programmed.increment (h : Programmed unitId u) (he : u.mode.isEnabled = true) (hl : u.mode.writeLatch = false) :
    ∃ u', u.increment unitId = .ok (u.fires (Cycle.next (u.period unitId) u.phase), u') ∧
      Advanced u u' (BitVec.ofNat 32 (Cycle.next (u.period unitId) u.phase)) := by
  obtain ⟨htarget, hrest⟩ := h.single hl
  have hphase : u.phase = u.count.count.toNat := if_neg (by rw [hl]; exact Bool.false_ne_true)
  have hlt := h.phase_lt
  have hmax : maximum unitId ≤ 0xFFFFFFFF := by
    unfold maximum TimersUnitRegisterCount.maximum
    split_ifs <;> decide
  have hcompare := u.compare.isLt
  rw [hphase] at hlt ⊢
  by_cases hr : u.mode.extractField resetMode = 0
  · rw [period, if_pos hr] at hlt ⊢
    have hinc := increment_one htarget hrest (Nat.le_of_lt_succ hlt)
    by_cases htop : u.count.count.toNat = maximum unitId
    · -- past the maximum, and back to zero
      rw [if_pos htop] at hinc
      have hdown : ({ u.count with count := 0, isOverflowed := false } : TimersUnitRegisterCount) =
          { u.count with count := 0 } := congrArg (fun b => { u.count with count := 0, isOverflowed := b }) h.flag.symm
      obtain ⟨u', hok, hadv⟩ := increment_of 0 (h.repeats he) (h.level he) hinc
        (handleTimerOverflow_of_overflowed rfl hr) ⟨hdown, keeps_insertField (by decide) _ _, rfl, rfl⟩
      have hnext : Cycle.next (maximum unitId + 1) u.count.count.toNat = 0 := if_pos (congrArg (· + 1) htop)
      rw [if_neg (fun hno => hno.2 hr)] at hadv
      refine ⟨u', ?_, by rw [hnext]; exact hadv⟩
      rw [hok, hnext, fires, if_pos hr]
      have heq : (0 : Uword) = u.compare ↔ 0 = u.compare.toNat := by bv_omega
      simp only [heq, and_true, or_comm]
    · rw [if_neg htop] at hinc
      obtain ⟨u', hok, hadv⟩ := increment_of (u.count.count + 1) (h.repeats he) (h.level he) hinc
        (handleTimerOverflow_of_not h.flag) ⟨rfl, .refl _, rfl, rfl⟩
      have hnext : Cycle.next (maximum unitId + 1) u.count.count.toNat = u.count.count.toNat + 1 := if_neg (by omega)
      have hvalue : BitVec.ofNat 32 (u.count.count.toNat + 1) = u.count.count + 1 := by bv_omega
      rw [if_neg (fun hno => hno.2 hr)] at hadv
      refine ⟨u', ?_, by rw [hnext, hvalue]; exact hadv⟩
      rw [hok, hnext, fires, if_pos hr]
      have heq : u.count.count + 1 = u.compare ↔ u.count.count.toNat + 1 = u.compare.toNat := by bv_omega
      simp only [heq, Nat.succ_ne_zero, and_false, false_or, Bool.false_eq_true, or_false]
  · rw [period, if_neg hr] at hlt ⊢
    have hle := h.target hr
    have hinc := increment_one htarget hrest (Nat.le_of_lt (hlt.trans_le hle))
    have htop : u.count.count.toNat ≠ maximum unitId := by omega
    rw [if_neg htop] at hinc
    obtain ⟨u', hok, hadv⟩ := increment_of (u.count.count + 1) (h.repeats he) (h.level he) hinc
      (handleTimerOverflow_of_not h.flag) ⟨rfl, .refl _, rfl, rfl⟩
    have heq : u.count.count + 1 = u.compare ↔ u.count.count.toNat + 1 = u.compare.toNat := by bv_omega
    refine ⟨u', ?_, ?_⟩
    · rw [hok, fires, if_neg hr, Cycle.next]
      simp only [heq, Bool.false_eq_true, and_false, or_false]
      split_ifs with hend <;> simp [hend]
    · have hvalue : BitVec.ofNat 32 (u.count.count.toNat + 1) = u.count.count + 1 := by bv_omega
      rw [Cycle.next]
      by_cases hend : u.count.count.toNat + 1 = u.compare.toNat
      · rw [if_pos ⟨heq.mpr hend, hr⟩] at hadv
        rwa [if_pos hend]
      · rw [if_neg (fun hno => hend (heq.mp hno.1))] at hadv
        rwa [if_neg hend, hvalue]

/-- Where a tick leaves a timer. -/
structure Ticked (unitId : Fin 6) (type : ControllerEventType) (u u' : IopTimersUnit) : Prop where
  /-- A tick that is counted takes it one step around. -/
  phase : u'.phase = if u.counts unitId type then Cycle.next (u.period unitId) u.phase else u.phase
  /-- The configuration stays. -/
  keeps : u.mode.Keeps u'.mode
  /-- So does COMPARE. -/
  compare : u'.compare = u.compare
  /-- The timer is programmed still. -/
  programmed : Programmed unitId u'

/-- A unit with the same configuration and COMPARE. -/
structure Same (unitId : Fin 6) (u u' : IopTimersUnit) : Prop where
  /-- It counts the same clock. -/
  counts : u'.counts unitId = u.counts unitId
  /-- It returns to zero at the same value. -/
  period : u'.period unitId = u.period unitId
  /-- It interrupts at the same values. -/
  fires : u'.fires = u.fires

theorem Same.of_keeps (hk : u.mode.Keeps u'.mode) (hc : u'.compare = u.compare) : Same unitId u u' := by
  refine ⟨funext fun type => ?_, ?_, funext fun value => ?_⟩
  · rw [IopTimersUnit.counts, hk.isEnabled, hk.properties]
    rfl
  · rw [IopTimersUnit.period, hk resetMode (by decide), hc]
    rfl
  · rw [IopTimersUnit.fires, hk resetMode (by decide), hk irqOnOf (by decide), hk irqOnTarget (by decide), hc]
    rfl

/-- What makes a timer programmed carries over to another count. -/
theorem Programmed.of_keeps (h : Programmed unitId u) (hk : u.mode.Keeps u'.mode) (hc : u'.compare = u.compare)
    (hflag : u'.count.isOverflowed = false)
    (hsingle : u'.mode.writeLatch = false → u'.count.prescaleTarget = 1 ∧ u'.count.prescaleCount = 0)
    (hphase : u'.phase < u.period unitId) : Programmed unitId u' where
  source := by
    obtain ⟨type, htype⟩ := h.source
    exact ⟨type, (hk.properties unitId).trans htype⟩
  gate he := (hk syncEnable (by decide)).trans (h.gate (hk.isEnabled ▸ he))
  repeats he := by
    rw [hk irqRepeat (by decide)]
    exact h.repeats (hk.isEnabled ▸ he)
  level he := (hk irqToggle (by decide)).trans (h.level (hk.isEnabled ▸ he))
  flag := hflag
  single := hsingle
  target := by
    rw [hk resetMode (by decide), hc]
    exact h.target
  phase_lt := by
    rw [(Same.of_keeps hk hc).period]
    exact hphase

/-- The reset procedures make the phase the count. -/
theorem Programmed.settle (h : Programmed unitId u) :
    Programmed unitId (u.settle 1) ∧ (u.settle 1).mode.writeLatch = false ∧ (u.settle 1).phase = u.phase ∧
      u.mode.Keeps (u.settle 1).mode ∧ (u.settle 1).compare = u.compare := by
  cases hl : u.mode.writeLatch with
  | false =>
    have hsettle : u.settle 1 = u := if_neg (by rw [hl]; exact Bool.false_ne_true)
    rw [hsettle]
    exact ⟨h, hl, rfl, .refl _, rfl⟩
  | true =>
    have hsettle : u.settle 1 =
        { u with count := u.count.resetPrescale 1, mode := { u.mode with writeLatch := false } } := if_pos hl
    have hphase : u.phase = 0 := if_pos hl
    have hlt := h.phase_lt
    rw [hphase] at hlt
    rw [hsettle, hphase]
    exact ⟨h.of_keeps (fun _ _ => rfl) rfl h.flag (fun _ => ⟨rfl, rfl⟩) hlt, rfl, rfl, fun _ _ => rfl, rfl⟩

/-- A tick of a programmed timer does not throw. -/
theorem Programmed.tick (h : Programmed unitId u) (type : ControllerEventType) :
    ∃ u', u.tick unitId type =
        .ok (u.counts unitId type && u.fires (Cycle.next (u.period unitId) u.phase), u') ∧ Ticked unitId type u u' := by
  obtain ⟨source, hsource⟩ := h.source
  obtain ⟨hs, hl, hphase, hk, hc⟩ := h.settle
  have hsame : Same unitId u (u.settle 1) := .of_keeps hk hc
  have htick : u.tick unitId type =
      if !(u.settle 1).mode.isEnabled || type ≠ source then .ok (false, u.settle 1)
      else if 0 < (u.settle 1).mode.extractField syncEnable then
        .error (.throws (.runtimeError "IOP Timers sync mode (gate) = 1, but not implemented."))
      else (u.settle 1).increment unitId := by
    rw [IopTimersUnit.tick, hsource]
    rfl
  have hcounts : u.counts unitId type = !(!(u.settle 1).mode.isEnabled || decide (type ≠ source)) := by
    rw [IopTimersUnit.counts, hsource, hk.isEnabled]
    by_cases ht : type = source
    · simp [ht]
    · simp [ht, Ne.symm ht]
  cases hcase : u.counts unitId type with
  | false =>
    rw [hcase, Bool.false_eq, Bool.not_eq_false'] at hcounts
    rw [if_pos hcounts] at htick
    refine ⟨u.settle 1, by rw [htick, Bool.false_and], ?_, hk, hc, hs⟩
    rw [hcase, if_neg Bool.false_ne_true, hphase]
  | true =>
    rw [hcase, Bool.true_eq, Bool.not_eq_true'] at hcounts
    have he : (u.settle 1).mode.isEnabled = true := by simpa using (Bool.or_eq_false_iff.mp hcounts).1
    have hgate : ¬0 < (u.settle 1).mode.extractField syncEnable := by
      rw [hs.gate he]
      decide
    obtain ⟨u', hok, hadv⟩ := hs.increment he hl
    rw [hphase, hsame.period] at hok hadv
    rw [hcounts, if_neg Bool.false_ne_true, if_neg hgate, hok, hsame.fires] at htick
    have hlt := Cycle.next_lt h.phase_lt
    have hperiod : u.period unitId ≤ 2 ^ 32 := by
      unfold period maximum TimersUnitRegisterCount.maximum
      have := u.compare.isLt
      split_ifs <;> omega
    have hnext : u'.phase = Cycle.next (u.period unitId) u.phase := by
      rw [phase, hadv.latch, hl, if_neg Bool.false_ne_true, hadv.count, BitVec.toNat_ofNat, Nat.mod_eq_of_lt (by omega)]
    have hk' := hk.trans hadv.keeps
    have hc' := hadv.compare.trans hc
    refine ⟨u', by rw [htick, Bool.true_and], ?_, hk', hc', h.of_keeps hk' hc' ?_ ?_ (by rwa [hnext])⟩
    · rw [hcase, if_pos rfl, hnext]
    · rw [hadv.count]
      exact hs.flag
    · intro _
      rw [hadv.count]
      exact hs.single hl

end IopTimersUnit

/-! ### A tick of all of them -/

namespace IopTimers

open IopTimersUnit

/-- A tick of this clock makes the timer set its bit of I_STAT. -/
def raises (t : IopTimers) (type : ControllerEventType) (i : Fin 6) : Bool :=
  ((t.units i).tick i type).toOption.elim false Prod.fst

theorem raises_eq {t : IopTimers} {i : Fin 6} (h : Programmed i (t.units i)) (type : ControllerEventType) :
    t.raises type i = ((t.units i).counts i type &&
      (t.units i).fires (Cycle.next ((t.units i).period i) (t.units i).phase)) := by
  obtain ⟨u', hok, -⟩ := h.tick type
  rw [raises, hok]
  rfl

/-- What rounds of the loop do, for timers that have not been reached before. -/
theorem foldlM_tickUnit (type : ControllerEventType) {l : List (Fin 6)} (hl : l.Nodup) {t : IopTimers}
    (h : ∀ i ∈ l, Programmed i (t.units i)) :
    ∃ t', l.foldlM (fun t i => t.tickUnit type i) t = .ok t' ∧
      (∀ i ∈ l, Ticked i type (t.units i) (t'.units i)) ∧ (∀ i ∉ l, t'.units i = t.units i) ∧
      ∀ k < 32, t'.intcStat.getLsbD k ↔
        t.intcStat.getLsbD k ∨ ∃ i ∈ l, k = (IopIntcStat.tmrKey i).start ∧ t.raises type i := by
  induction l generalizing t with
  | nil => exact ⟨t, rfl, by simp, by simp, by simp⟩
  | cons i l ih =>
    obtain ⟨hi, hl⟩ := List.nodup_cons.mp hl
    obtain ⟨u', hok, hticked⟩ := (h i List.mem_cons_self).tick type
    rw [← raises_eq (h i List.mem_cons_self)] at hok
    let t₁ : IopTimers :=
      { units := Function.update t.units i u'
        intcStat := if t.raises type i then (IopIntcStat.tmrKey i).insertInto t.intcStat 1 else t.intcStat }
    have hstep : t.tickUnit type i = .ok t₁ := by
      rw [tickUnit, hok]
      rfl
    have hother {j : Fin 6} (hj : j ≠ i) : t₁.units j = t.units j := Function.update_of_ne hj _ _
    have hne {j : Fin 6} (hj : j ∈ l) : j ≠ i := fun h => hi (h ▸ hj)
    obtain ⟨t', hrun, hin, hout, hbits⟩ := ih hl (t := t₁) fun j hj => by
      rw [hother (hne hj)]
      exact h j (List.mem_cons_of_mem _ hj)
    refine ⟨t', ?_, ?_, ?_, ?_⟩
    · rw [List.foldlM_cons, hstep, ok_bind, hrun]
    · intro j hj
      obtain rfl | hj := List.mem_cons.mp hj
      · rw [hout j hi, show t₁.units j = u' from Function.update_self _ _ _]
        exact hticked
      · rw [← hother (hne hj)]
        exact hin j hj
    · intro j hj
      rw [List.mem_cons, not_or] at hj
      rw [hout j hj.2, hother hj.1]
    · intro k hk
      have hrest : (∃ j ∈ l, k = (IopIntcStat.tmrKey j).start ∧ t₁.raises type j) ↔
          ∃ j ∈ l, k = (IopIntcStat.tmrKey j).start ∧ t.raises type j := by
        refine exists_congr fun j => and_congr_right fun hj => ?_
        rw [raises, raises, hother (hne hj)]
      have hbit : t₁.intcStat.getLsbD k ↔
          t.intcStat.getLsbD k ∨ (k = (IopIntcStat.tmrKey i).start ∧ t.raises type i) := by
        change (if t.raises type i then (IopIntcStat.tmrKey i).insertInto t.intcStat 1 else t.intcStat).getLsbD k ↔ _
        cases t.raises type i with
        | false => simp
        | true =>
          rw [if_pos rfl, IopIntcStat.tmrKey, Bitfield.getLsbD_insertInto_bit _ _ _ hk, Bool.or_eq_true,
            decide_eq_true_eq, and_iff_left rfl, or_comm]
      rw [hbits k hk, hrest, hbit, List.exists_mem_cons_iff, or_assoc]

/-- A tick of a clock takes each of the timers that count it one step around. -/
theorem tickTimer_spec {t : IopTimers} (h : ∀ i, Programmed i (t.units i)) (type : ControllerEventType) :
    ∃ t', t.tickTimer type = .ok t' ∧ (∀ i, Ticked i type (t.units i) (t'.units i)) ∧
      ∀ k < 32, t'.intcStat.getLsbD k ↔
        t.intcStat.getLsbD k ∨ ∃ i, k = (IopIntcStat.tmrKey i).start ∧ t.raises type i := by
  obtain ⟨t', hok, hticked, -, hbits⟩ := foldlM_tickUnit type (List.nodup_finRange 6) fun i _ => h i
  refine ⟨t', hok, fun i => hticked i (List.mem_finRange i), fun k hk => ?_⟩
  simp only [hbits k hk, List.mem_finRange, true_and]

end IopTimers

/-! ### Runs -/

/-- A tick of a clock, or a write of the IOP to I_STAT, which keeps the bits that are written as 1. -/
inductive IopTimersOp where
  /-- `tick_timer(ce_type)`. -/
  | tick (type : ControllerEventType)
  /-- `IopIntcRegister_Stat::byte_bus_write_uword`. -/
  | acknowledge (value : Uword)

/-- The timers, and how often each has set its bit of I_STAT. -/
structure IopTimersTrace where
  /-- The timers. -/
  timers : IopTimers
  /-- The interrupts of each. -/
  interrupts : Fin 6 → ℕ

namespace IopTimersOp

open IopTimersUnit

/-- One operation. -/
def step : IopTimersOp → IopTimersTrace → Except HostFault IopTimersTrace
  | tick type, s => do
    let timers ← s.timers.tickTimer type
    return { timers, interrupts := fun i => s.interrupts i + if s.timers.raises type i then 1 else 0 }
  | acknowledge value, s =>
    .ok { s with timers := { s.timers with intcStat := s.timers.intcStat &&& value } }

/-- The operation is a tick that the timer counts. -/
def countedBy (unitId : Fin 6) (u : IopTimersUnit) : IopTimersOp → Bool
  | tick type => u.counts unitId type
  | acknowledge _ => false

/-- Where ticks leave programmed timers that started at `s`, by how many each of them has counted. -/
structure Reached (s s' : IopTimersTrace) (n : Fin 6 → ℕ) : Prop where
  /-- The counts. -/
  phase : ∀ i, (s'.timers.units i).phase = ((s.timers.units i).phase + n i) % (s.timers.units i).period i
  /-- The interrupts. -/
  interrupts : ∀ i, s'.interrupts i = s.interrupts i +
    Cycle.hits (s.timers.units i).fires ((s.timers.units i).period i) (s.timers.units i).phase (n i)
  /-- The timers are programmed as before. -/
  programmed : ∀ i, Programmed i (s'.timers.units i)
  /-- They are the same but for the counts. -/
  same : ∀ i, Same i (s.timers.units i) (s'.timers.units i)

theorem Reached.refl {s : IopTimersTrace} (h : ∀ i, Programmed i (s.timers.units i)) : Reached s s fun _ => 0 where
  phase i := (Nat.mod_eq_of_lt (h i).phase_lt).symm
  interrupts _ := rfl
  programmed := h
  same _ := ⟨rfl, rfl, rfl⟩

theorem Reached.trans {s s' s'' : IopTimersTrace} {n m : Fin 6 → ℕ} (h : Reached s s' n) (h' : Reached s' s'' m) :
    Reached s s'' fun i => n i + m i where
  phase i := by
    rw [h'.phase, (h.same i).period, h.phase, Nat.mod_add_mod, Nat.add_assoc]
  interrupts i := by
    rw [h'.interrupts, (h.same i).period, (h.same i).fires, h.phase, h.interrupts, Cycle.hits_add, Nat.add_assoc]
  programmed := h'.programmed
  same i := ⟨(h'.same i).counts.trans (h.same i).counts, (h'.same i).period.trans (h.same i).period,
    (h'.same i).fires.trans (h.same i).fires⟩

/-- I_STAT does not matter. -/
theorem Reached.congr {s s' s'' : IopTimersTrace} {n : Fin 6 → ℕ} (h : Reached s s' n)
    (hunits : s''.timers.units = s'.timers.units) (hinterrupts : s''.interrupts = s'.interrupts) : Reached s s'' n where
  phase i := hunits ▸ h.phase i
  interrupts i := hinterrupts ▸ h.interrupts i
  programmed i := hunits ▸ h.programmed i
  same i := hunits ▸ h.same i

/-- One operation on programmed timers. -/
theorem reached_step {s : IopTimersTrace} (h : ∀ i, Programmed i (s.timers.units i)) (op : IopTimersOp) :
    ∃ s', step op s = .ok s' ∧ Reached s s' fun i => if op.countedBy i (s.timers.units i) then 1 else 0 := by
  cases op with
  | acknowledge value =>
    exact ⟨_, rfl, fun i => (Nat.mod_eq_of_lt (h i).phase_lt).symm, fun _ => rfl, h, fun _ => ⟨rfl, rfl, rfl⟩⟩
  | tick type =>
    obtain ⟨t', hok, hticked, -⟩ := IopTimers.tickTimer_spec h type
    have hstep : step (tick type) s =
        .ok ⟨t', fun i => s.interrupts i + if s.timers.raises type i then 1 else 0⟩ := by
      rw [step, hok, ok_bind, pure_eq_ok]
    refine ⟨_, hstep, ?_, ?_, fun i => (hticked i).programmed,
      fun i => .of_keeps (hticked i).keeps (hticked i).compare⟩
    · intro i
      rw [(hticked i).phase, countedBy]
      cases (s.timers.units i).counts i type with
      | false => exact (Nat.mod_eq_of_lt (h i).phase_lt).symm
      | true => exact Cycle.next_eq_mod (h i).phase_lt
    · intro i
      dsimp only
      rw [IopTimers.raises_eq (h i), countedBy, Cycle.next_eq_mod (h i).phase_lt]
      cases (s.timers.units i).counts i type with
      | false => rfl
      | true => rw [Bool.true_and, if_pos rfl, Cycle.hits_one]

/-- How many of the operations are ticks that the timer counts. -/
def counted (unitId : Fin 6) (u : IopTimersUnit) (ops : List IopTimersOp) : ℕ := ops.countP (countedBy unitId u)

theorem counted_congr {u u' : IopTimersUnit} {unitId : Fin 6} (h : Same unitId u u') (ops : List IopTimersOp) :
    counted unitId u' ops = counted unitId u ops := by
  have hsame : countedBy unitId u' = countedBy unitId u := by
    funext op
    cases op with
    | tick type => exact congrFun h.counts type
    | acknowledge value => rfl
  rw [counted, counted, hsame]

theorem reached_run (ops : List IopTimersOp) {s : IopTimersTrace} (h : ∀ i, Programmed i (s.timers.units i)) :
    ∃ s', Run.run step ops s = .ok s' ∧ Reached s s' fun i => counted i (s.timers.units i) ops := by
  induction ops generalizing s with
  | nil => exact ⟨s, rfl, .refl h⟩
  | cons op ops ih =>
    obtain ⟨s₁, hstep, hfirst⟩ := reached_step h op
    obtain ⟨s', hrun, hrest⟩ := ih hfirst.programmed
    refine ⟨s', Run.run_cons_ok.mpr ⟨s₁, hstep, hrun⟩, ?_⟩
    have hsum (i : Fin 6) : counted i (s.timers.units i) (op :: ops) =
        (if op.countedBy i (s.timers.units i) then 1 else 0) + counted i (s₁.timers.units i) ops := by
      rw [counted_congr (hfirst.same i), counted, counted, List.countP_cons, Nat.add_comm]
    simp only [hsum]
    exact hfirst.trans hrest

end IopTimersOp

open IopTimersUnit IopTimersUnitRegisterMode

/-- A timer whose COMPARE and mode the IOP has just written, for what is there. -/
theorem IopTimersUnit.programmed_busWriteUword {unitId : Fin 6} {u : IopTimersUnit} {value : Uword}
    {type : ControllerEventType} (hflag : u.count.isOverflowed = false)
    (hsource : (u.mode.busWriteUword value).properties unitId = .ok (1, type)) (hgate : syncEnable.extractFrom value = 0)
    (hrepeat : irqRepeat.extractFrom value ≠ 0) (htoggle : irqToggle.extractFrom value = 0)
    (htarget : resetMode.extractFrom value ≠ 0 → 0 < u.compare.toNat ∧ u.compare.toNat ≤ maximum unitId) :
    Programmed unitId { u with mode := u.mode.busWriteUword value } where
  source := ⟨type, hsource⟩
  gate _ := hgate
  repeats _ := hrepeat
  level _ := htoggle
  flag := hflag
  single h := absurd h (by simp [busWriteUword])
  target hr := (htarget hr).2
  phase_lt := by
    rw [phase, if_pos (show (u.mode.busWriteUword value).writeLatch = true from rfl), period]
    split_ifs with hr
    · exact Nat.succ_pos _
    · exact (htarget hr).1

/-- Programmed timers never throw, whatever the order of the clocks. Each is as far around its period as the ticks that
it has counted, and has interrupted at each value on the way that it is to interrupt at: if that is where it returns to
zero, once for each time around. -/
theorem iopTimers_run (ops : List IopTimersOp) {s : IopTimersTrace} (h : ∀ i, Programmed i (s.timers.units i)) :
    ∃ s', Run.run IopTimersOp.step ops s = .ok s' ∧ ∀ i,
      let u := s.timers.units i
      let n := IopTimersOp.counted i u ops
      (s'.timers.units i).phase = (u.phase + n) % u.period i ∧
        s'.interrupts i = s.interrupts i + Cycle.hits u.fires (u.period i) u.phase n ∧
        (u.fires = (· == 0) → s'.interrupts i = s.interrupts i + (u.phase + n) / u.period i) := by
  obtain ⟨s', hrun, hreached⟩ := IopTimersOp.reached_run ops h
  refine ⟨s', hrun, fun i => ⟨hreached.phase i, hreached.interrupts i, fun hfires => ?_⟩⟩
  rw [hreached.interrupts, hfires, Cycle.hits_zero_eq_div (h i).phase_lt]

/-- The timers after construction, with COMPARE and the mode written: to repeat at COMPARE, the first three by HBlanks. -/
def IopTimers.repeating (compare : Uword) : IopTimersTrace where
  timers := {
    units := fun i =>
      { count := ⟨0, false, 1, 0⟩
        mode := (⟨0, false⟩ : IopTimersUnitRegisterMode).busWriteUword (if i.val < 3 then 0x158 else 0x58)
        compare }
    intcStat := 0 }
  interrupts _ := 0

theorem IopTimers.programmed_repeating {compare : Uword} (hpos : 0 < compare.toNat) (hle : compare.toNat ≤ 0xFFFF)
    (i : Fin 6) : Programmed i ((repeating compare).timers.units i) := by
  have hsource : ∀ i : Fin 6, ((⟨0, false⟩ : IopTimersUnitRegisterMode).busWriteUword
      (if i.val < 3 then 0x158 else 0x58)).properties i = .ok (1, if i.val < 3 then .hBlank else .time) := by decide
  have hvalue : ∀ i : Fin 6, syncEnable.extractFrom (if i.val < 3 then (0x158 : Uword) else 0x58) = 0 ∧
      irqRepeat.extractFrom (if i.val < 3 then (0x158 : Uword) else 0x58) ≠ 0 ∧
      irqToggle.extractFrom (if i.val < 3 then (0x158 : Uword) else 0x58) = 0 := by decide
  obtain ⟨hgate, hrepeat, htoggle⟩ := hvalue i
  have hmax : 0xFFFF ≤ maximum i := by
    unfold maximum TimersUnitRegisterCount.maximum
    split_ifs <;> decide
  exact programmed_busWriteUword (u := ⟨⟨0, false, 1, 0⟩, ⟨0, false⟩, compare⟩) rfl (hsource i) hgate hrepeat htoggle
    fun _ => ⟨hpos, hle.trans hmax⟩

/-- Five HBlanks among ticks of the bus clock, for timers that repeat at 2. -/
theorem iopTimers_run_repeating : ∃ s', Run.run IopTimersOp.step
    [.tick .hBlank, .tick .time, .tick .hBlank, .acknowledge 0, .tick .hBlank, .tick .hBlank, .tick .time, .tick .hBlank]
      (IopTimers.repeating 2) = .ok s' ∧ (s'.timers.units 0).phase = 1 ∧ s'.interrupts 0 = 2 := by
  obtain ⟨s', hrun, hall⟩ := iopTimers_run
    [.tick .hBlank, .tick .time, .tick .hBlank, .acknowledge 0, .tick .hBlank, .tick .hBlank, .tick .time, .tick .hBlank]
    (IopTimers.programmed_repeating (show 0 < (2 : Uword).toNat by decide) (by decide))
  obtain ⟨hphase, hhits, -⟩ := hall 0
  exact ⟨s', hrun, hphase.trans (by decide), hhits.trans (by decide)⟩

end Orbum
