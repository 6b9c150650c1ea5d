import Mathlib.Data.List.FinRange
import Orbum.Common.TimersCount
import Orbum.Ee.TimersMode
import Orbum.Lib.Except

/-!
# Ticks of the EE timers

`CEeTimers.cpp`: a tick of a clock goes round the four timers, resets those whose mode has been written, and increments
those that count this clock; each of these is then asked for interrupts and may return to zero.

## The model

What a tick reads of the INTC is I_STAT, of a timer its unit without the hold register, which no tick reads.
-/

namespace Orbum

namespace EeTimersUnitRegisterMode

variable (m : EeTimersUnitRegisterMode)

/-- `get_properties()`: the prescale and the clock. The two bits of `CLKS` leave nothing to throw. -/
def properties : BitVec 32 × ControllerEventType :=
  let source := clks.extractFrom m.value
  if source = 0 then (1, .time)
  else if source = 1 then (16, .time)
  else if source = 2 then (256, .time)
  else (1, .hBlank)

/-- `is_gate_hblnk_special()`. -/
def isGateHblnkSpecial : Bool := clks.extractFrom m.value = 3 ∧ gats.extractFrom m.value = 0

end EeTimersUnitRegisterMode

/-- `EeTimersUnit`. -/
structure EeTimersUnit where
  /-- `count`. -/
  count : TimersUnitRegisterCount
  /-- `mode`. -/
  mode : EeTimersUnitRegisterMode
  /-- `compare`. -/
  compare : Uword
  deriving DecidableEq

/-- `EeIntcRegister_Stat::TIM_KEYS[id]`. -/
def EeIntcStat.tim (id : Fin 4) : Bitfield := ⟨9 + id, 1⟩

namespace EeTimersUnit

open EeTimersUnitRegisterMode

variable (u : EeTimersUnit)

/-- The reset procedures, for a timer whose mode has been written. -/
def settle : EeTimersUnit :=
  if u.mode.writeLatch then
    { u with count := u.count.resetPrescale u.mode.properties.1, mode := { u.mode with writeLatch := false } }
  else u

/-- The test for the compare interrupt. -/
def compareInterrupt : Bool := cmpe.extractFrom u.mode.value ≠ 0 ∧ u.count.count = u.compare

/-- The test for the overflow interrupt. -/
def overflowInterrupt : Bool := ovfe.extractFrom u.mode.value ≠ 0 ∧ u.count.isOverflowedAndReset.1

/-- `handle_timer_interrupt(unit)`, which takes the overflow flag down if it is asked for, but for I_STAT. -/
def handleTimerInterrupt : EeTimersUnit :=
  if ovfe.extractFrom u.mode.value ≠ 0 then { u with count := u.count.isOverflowedAndReset.2 } else u

/-- `handle_timer_zret(unit)`. -/
def handleTimerZret : EeTimersUnit :=
  if zret.extractFrom u.mode.value ≠ 0 ∧ u.count.count = u.compare then { u with count := { u.count with count := 0 } }
  else u

/-- The timer counts ticks of this clock. -/
def counts (type : ControllerEventType) : Bool := cue.extractFrom u.mode.value ≠ 0 ∧ type = u.mode.properties.2

/-- The timer is gated, and not in the case that counts all the same. -/
def gated : Bool := 0 < gate.extractFrom u.mode.value ∧ !u.mode.isGateHblnkSpecial

/-- The body of the loop of `tick_timer` but for I_STAT: whether there is an interrupt. -/
def tick (type : ControllerEventType) : Except HostFault (Bool × EeTimersUnit) :=
  let u := u.settle
  if !u.counts type then .ok (false, u)
  else if u.gated then .error (.throws (.runtimeError "EE Timers gated mode not fully implemented."))
  else
    (EeTimersUnitRegisterCount.increment u.count 1).elim (.error .undefined) fun count =>
      let u := { u with count }
      .ok (u.compareInterrupt || u.overflowInterrupt, u.handleTimerInterrupt.handleTimerZret)

end EeTimersUnit

/-- The timers of `REeTimers`, with I_STAT of the INTC. -/
structure EeTimers where
  /-- `units`. -/
  units : Fin 4 → EeTimersUnit
  /-- I_STAT. -/
  intcStat : Uword

namespace EeTimers

variable (t : EeTimers)

/-- One round of the loop of `tick_timer`, with the interrupt asserted. -/
def tickUnit (type : ControllerEventType) (i : Fin 4) : Except HostFault EeTimers := do
  let r ← (t.units i).tick type
  return { units := Function.update t.units i r.2
           intcStat := if r.1 then (EeIntcStat.tim i).insertInto t.intcStat 1 else t.intcStat }

/-- `tick_timer(ce_type)`. -/
def tickTimer (type : ControllerEventType) : Except HostFault EeTimers :=
  (List.finRange 4).foldlM (fun t i => t.tickUnit type i) t

end EeTimers

/-! ### One increment -/

namespace TimersUnitRegisterCount

variable {c : TimersUnitRegisterCount}

/-- The ticks not counted yet are fewer than one count takes. -/
def Prescaled (c : TimersUnitRegisterCount) : Prop :=
  1 ≤ c.prescaleTarget.toInt ∧ c.prescaleCount.toNat < c.prescaleTarget.toNat

/-- The next tick moves the count. -/
def moves (c : TimersUnitRegisterCount) : Bool := c.prescaleCount.toNat + 1 = c.prescaleTarget.toNat

/-- The register after a tick that moves the count. -/
def counted (c : TimersUnitRegisterCount) : TimersUnitRegisterCount :=
  if 0xFFFF < c.count + 1 then { c with count := (c.count + 1) % 0xFFFF, isOverflowed := true, prescaleCount := 0 }
  else { c with count := c.count + 1, prescaleCount := 0 }

/-- The register after one tick. -/
def ticked (c : TimersUnitRegisterCount) : TimersUnitRegisterCount :=
  if c.moves then c.counted else { c with prescaleCount := c.prescaleCount + 1 }

theorem Prescaled.resetPrescale (c : TimersUnitRegisterCount) {p : BitVec 32} (hp : 1 ≤ p.toInt) :
    (c.resetPrescale p).Prescaled := ⟨hp, (toNat_of_pos hp).1⟩

/-- One tick never leaves the range of an `int`. -/
theorem Prescaled.increment_one (h : c.Prescaled) : EeTimersUnitRegisterCount.increment c 1 = some c.ticked := by
  obtain ⟨hp, hlt⟩ := h
  obtain ⟨hpos, hint⟩ := toNat_of_pos hp
  have hone : ((1 : Uhword).setWidth 32 : BitVec 32) = 1 := by decide
  have hov : c.prescaleCount.saddOverflow 1 = false := by
    simp only [BitVec.saddOverflow, toInt_of_lt (hlt.trans hint), show (1 : BitVec 32).toInt = 1 by decide,
      Bool.or_eq_false_iff, decide_eq_false_iff_not]
    omega
  have hadd : (c.prescaleCount + 1).toNat = c.prescaleCount.toNat + 1 := by
    rw [BitVec.toNat_add, show (1 : BitVec 32).toNat = 1 from rfl]
    omega
  have hsle : c.prescaleTarget.sle (c.prescaleCount + 1) = c.moves := by
    simp only [BitVec.sle, toInt_of_lt hint, toInt_of_lt (show (c.prescaleCount + 1).toNat < 2 ^ 31 by omega), hadd,
      Int.ofNat_le, moves, decide_eq_decide]
    omega
  rw [EeTimersUnitRegisterCount.increment, hone, incrementBy, hov, if_neg Bool.false_ne_true]
  dsimp only
  rw [hsle, ticked]
  cases hm : c.moves with
  | false => rfl
  | true =>
    have hfull : (c.prescaleCount + 1).toNat = c.prescaleTarget.toNat := hadd.trans (of_decide_eq_true hm)
    rw [if_pos rfl, if_pos rfl, prescale_eq hp (by omega) _ (Nat.lt_succ_of_le (Nat.div_le_self _ _)), hfull,
      Nat.div_self hpos, Nat.mod_self, counted, Option.map_some, BitVec.setWidth_eq]
    dsimp only
    rw [show c.count + BitVec.ofNat 32 1 = c.count + 1 from rfl]
    split_ifs
    · rw [BitVec.setWidth_eq]
      rfl
    · rw [BitVec.setWidth_eq]
      rfl

end TimersUnitRegisterCount

end Orbum
