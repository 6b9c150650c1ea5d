import Orbum.Ee.TimersTick
import Orbum.Lib.Run

/-!
# Interrupts of the EE timers

A timer is meant to interrupt when a tick takes its count to COMPARE, or past its maximum. It is asked at every tick that
it counts, though: while the prescaler holds the count at COMPARE each tick interrupts once more.

## The model

Between ticks anything may happen that leaves the timer alone. A tick interrupts if the bit of the timer in I_STAT,
acknowledged before, is set after it.
-/

namespace Orbum

namespace TimersUnitRegisterCount

variable {c : TimersUnitRegisterCount}

/-! ### What an increment does to the count -/

theorem count_counted_of_lt (h : c.count.toNat < 0xFFFF) :
    c.counted.count = c.count + 1 ∧ c.counted.isOverflowed = c.isOverflowed := by
  have hno : ¬(0xFFFF : Uword) < c.count + 1 := by bv_omega
  rw [counted, if_neg hno]
  exact ⟨rfl, rfl⟩

theorem count_counted_of_ge (h : 0xFFFF ≤ c.count.toNat) (hne : c.count ≠ 0xFFFFFFFF) :
    c.counted.count < c.count ∧ c.counted.isOverflowed = true := by
  have hadd : (c.count + 1).toNat = c.count.toNat + 1 := by bv_omega
  have hover : (0xFFFF : Uword) < c.count + 1 := by
    rw [BitVec.lt_def, hadd]
    exact Nat.lt_succ_of_le h
  rw [counted, if_pos hover]
  refine ⟨?_, rfl⟩
  rw [BitVec.lt_def, BitVec.toNat_umod, hadd]
  exact (Nat.mod_lt _ (by decide)).trans_le h

theorem count_counted_of_eq (h : c.count = 0xFFFFFFFF) :
    c.counted.count = 0 ∧ c.counted.isOverflowed = c.isOverflowed := by
  have hno : ¬(0xFFFF : Uword) < c.count + 1 := by
    rw [h]
    decide
  rw [counted, if_neg hno, h]
  exact ⟨rfl, rfl⟩

theorem prescaleTarget_ticked (c : TimersUnitRegisterCount) : c.ticked.prescaleTarget = c.prescaleTarget := by
  rw [ticked, counted]
  split_ifs <;> rfl

theorem count_ticked_le (h : c.count.toNat ≤ 0xFFFF) : c.ticked.count.toNat ≤ 0xFFFF := by
  rw [ticked]
  split_ifs
  · rcases Nat.lt_or_eq_of_le h with hlt | heq
    · rw [(count_counted_of_lt hlt).1]
      bv_omega
    · have hmax : c.count ≠ 0xFFFFFFFF := by bv_omega
      exact (Nat.le_of_lt (count_counted_of_ge heq.ge hmax).1).trans h
  · exact h

theorem Prescaled.ticked (h : c.Prescaled) : c.ticked.Prescaled := by
  obtain ⟨hp, hlt⟩ := h
  have hpos := (toNat_of_pos hp).1
  rw [TimersUnitRegisterCount.ticked]
  split_ifs with hm
  · rw [counted]
    split_ifs
    · exact ⟨hp, hpos⟩
    · exact ⟨hp, hpos⟩
  · have hne : c.prescaleCount.toNat + 1 ≠ c.prescaleTarget.toNat := fun heq => hm (decide_eq_true heq)
    refine ⟨hp, ?_⟩
    change (c.prescaleCount + 1).toNat < c.prescaleTarget.toNat
    rw [BitVec.toNat_add, show (1 : BitVec 32).toNat = 1 from rfl]
    omega

end TimersUnitRegisterCount

namespace EeTimersUnit

open EeTimersUnitRegisterMode TimersUnitRegisterCount

variable {u : EeTimersUnit} {type : ControllerEventType}

/-! ### A tick of one timer -/

/-- The timer is not gated, and its prescaler is in order or to be reset. -/
structure Sound (u : EeTimersUnit) : Prop where
  /-- `GATE`. -/
  gate : gate.extractFrom u.mode.value = 0
  /-- The prescaler. -/
  prescaled : u.mode.writeLatch = true ∨ u.count.Prescaled

/-- The timer with its count incremented. -/
def incremented (u : EeTimersUnit) : EeTimersUnit := { u with count := u.count.ticked }

/-- A tick that the timer counts raises its interrupt. -/
def raises (u : EeTimersUnit) : Bool := u.incremented.compareInterrupt || u.incremented.overflowInterrupt

theorem one_le_properties (m : EeTimersUnitRegisterMode) : 1 ≤ m.properties.1.toInt := by
  rw [properties]
  split_ifs <;> decide

theorem Sound.settle (h : u.Sound) : u.settle.Sound ∧ u.settle.count.Prescaled := by
  rw [EeTimersUnit.settle]
  split_ifs with hlatch
  · have hreset := Prescaled.resetPrescale u.count (one_le_properties u.mode)
    exact ⟨⟨h.gate, .inr hreset⟩, hreset⟩
  · have hcount := h.prescaled.resolve_left hlatch
    exact ⟨⟨h.gate, .inr hcount⟩, hcount⟩

/-- What a tick does. -/
theorem Sound.tick_eq (h : u.Sound) (type : ControllerEventType) : u.tick type = .ok
    (if u.settle.counts type then
      (u.settle.raises, u.settle.incremented.handleTimerInterrupt.handleTimerZret)
    else (false, u.settle)) := by
  obtain ⟨hsound, hcount⟩ := h.settle
  have hgated : u.settle.gated = false := by
    rw [gated, hsound.gate]
    rfl
  rw [tick]
  dsimp only
  cases hc : u.settle.counts type with
  | false => rfl
  | true =>
    rw [hgated, hcount.increment_one]
    rfl

/-- A timer stays in order. -/
theorem Sound.tick (h : u.Sound) {r : Bool × EeTimersUnit} (hr : u.tick type = .ok r) : r.2.Sound := by
  obtain ⟨hsound, hcount⟩ := h.settle
  rw [h.tick_eq type] at hr
  obtain rfl := Except.ok.inj hr
  split_ifs
  · have hinc : u.settle.incremented.Sound := ⟨hsound.gate, .inr hcount.ticked⟩
    have hint : u.settle.incremented.handleTimerInterrupt.Sound := by
      rw [handleTimerInterrupt]
      split_ifs
      · exact ⟨hinc.gate, hinc.prescaled⟩
      · exact hinc
    dsimp only
    rw [handleTimerZret]
    split_ifs
    · exact ⟨hint.gate, hint.prescaled⟩
    · exact hint
  · exact hsound

/-! ### When a tick should interrupt -/

/-- The increment of a tick takes the count to COMPARE, or wraps it. -/
def Event (type : ControllerEventType) (u : EeTimersUnit) : Prop :=
  u.settle.counts type = true ∧ ∃ c, EeTimersUnitRegisterCount.increment u.settle.count 1 = some c ∧
    (cmpe.extractFrom u.settle.mode.value ≠ 0 ∧ c.count ≠ u.settle.count.count ∧ c.count = u.settle.compare ∨
      ovfe.extractFrom u.settle.mode.value ≠ 0 ∧ c.count < u.settle.count.count)

/-- What the increment of a counted tick does is an event. -/
def Due (u : EeTimersUnit) : Prop :=
  cmpe.extractFrom u.mode.value ≠ 0 ∧ u.count.ticked.count ≠ u.count.count ∧ u.count.ticked.count = u.compare ∨
    ovfe.extractFrom u.mode.value ≠ 0 ∧ u.count.ticked.count < u.count.count

/-- Nothing is left for the tests to find that was there before the increment: neither a count at COMPARE while the
prescaler holds it, nor an overflow flag left over, unless the tick interrupts anyway. A wrap of all 32 bits sets no
flag. -/
def Fresh (u : EeTimersUnit) : Prop :=
  if u.count.moves then
    (ovfe.extractFrom u.mode.value ≠ 0 → u.count.isOverflowed = true → u.count.count.toNat < 0xFFFF →
      cmpe.extractFrom u.mode.value ≠ 0 ∧ u.count.count + 1 = u.compare) ∧
    (ovfe.extractFrom u.mode.value ≠ 0 → u.count.count = 0xFFFFFFFF →
      u.count.isOverflowed = true ∨ cmpe.extractFrom u.mode.value ≠ 0 ∧ u.compare = 0)
  else
    ¬(cmpe.extractFrom u.mode.value ≠ 0 ∧ u.count.count = u.compare) ∧
      ¬(ovfe.extractFrom u.mode.value ≠ 0 ∧ u.count.isOverflowed = true)

instance (u : EeTimersUnit) : Decidable u.Fresh := by
  unfold Fresh
  infer_instance

theorem raises_iff : u.raises = true ↔
    cmpe.extractFrom u.mode.value ≠ 0 ∧ u.count.ticked.count = u.compare ∨
      ovfe.extractFrom u.mode.value ≠ 0 ∧ u.count.ticked.isOverflowed = true := by
  rw [raises, Bool.or_eq_true, compareInterrupt, overflowInterrupt, decide_eq_true_eq, decide_eq_true_eq]
  rfl

/-- The interrupt goes with the event exactly where nothing is left over. -/
theorem raises_iff_iff_fresh : (u.raises = true ↔ u.Due) ↔ u.Fresh := by
  rw [raises_iff, Due, Fresh, ticked]
  cases hm : u.count.moves with
  | false =>
    rw [if_neg Bool.false_ne_true, if_neg Bool.false_ne_true]
    have hirrefl : ¬u.count.count < u.count.count := BitVec.lt_irrefl _
    dsimp only
    grind
  | true =>
    rw [if_pos rfl, if_pos rfl]
    by_cases hlt : u.count.count.toNat < 0xFFFF
    · obtain ⟨hcount, hflag⟩ := count_counted_of_lt hlt
      have hmove : u.count.count + 1 ≠ u.count.count := by bv_omega
      have hup : ¬u.count.count + 1 < u.count.count := by bv_omega
      have hmax : u.count.count ≠ 0xFFFFFFFF := by bv_omega
      rw [hcount, hflag]
      grind
    · by_cases hmax : u.count.count = 0xFFFFFFFF
      · obtain ⟨hcount, hflag⟩ := count_counted_of_eq hmax
        have hdown : (0 : Uword) < u.count.count := by
          rw [hmax]
          decide
        have hmove : (0 : Uword) ≠ u.count.count := (BitVec.ne_of_lt hdown)
        rw [hcount, hflag, eq_comm (a := (0 : Uword)) (b := u.compare)]
        grind
      · obtain ⟨hdown, hflag⟩ := count_counted_of_ge (Nat.le_of_not_lt hlt) hmax
        have hmove : u.count.counted.count ≠ u.count.count := BitVec.ne_of_lt hdown
        rw [hflag]
        grind

/-! ### Timers for which nothing is ever left over -/

theorem handleTimerInterrupt_eq (u : EeTimersUnit) : ∃ flag,
    u.handleTimerInterrupt = { u with count := { u.count with isOverflowed := flag } } ∧
      (ovfe.extractFrom u.mode.value ≠ 0 → flag = false) := by
  rw [handleTimerInterrupt]
  split_ifs with hon
  · exact ⟨false, rfl, fun _ => rfl⟩
  · exact ⟨u.count.isOverflowed, rfl, fun h => absurd h hon⟩

/-- The count is one of 16 bits with every wrap reported, and moves at each tick, or is never compared, or returns to zero
where it meets COMPARE. -/
structure Plain (u : EeTimersUnit) : Prop where
  /-- The timer has been reset. -/
  settled : u.mode.writeLatch = false
  /-- The count. -/
  count : u.count.count.toNat ≤ 0xFFFF
  /-- No wrap is left to report. -/
  flag : ovfe.extractFrom u.mode.value ≠ 0 → u.count.isOverflowed = false
  /-- The prescaler does not hold a match. -/
  compare : u.count.prescaleTarget = 1 ∨ cmpe.extractFrom u.mode.value = 0 ∨
    zret.extractFrom u.mode.value ≠ 0 ∧ u.compare ≠ 0 ∧ u.count.count ≠ u.compare

theorem Plain.settle_eq (h : u.Plain) : u.settle = u := by
  rw [settle, h.settled, if_neg Bool.false_ne_true]

theorem Plain.fresh (h : u.Plain) (hcount : u.count.Prescaled) : u.Fresh := by
  have hmax : u.count.count ≠ 0xFFFFFFFF := by
    intro heq
    have hle := h.count
    rw [heq] at hle
    exact absurd hle (by decide)
  have hmoves : u.count.prescaleTarget = 1 → u.count.moves = true := by
    intro hone
    have hlt := hcount.2
    rw [hone, show (1 : BitVec 32).toNat = 1 from rfl] at hlt
    rw [moves, hone, show (1 : BitVec 32).toNat = 1 from rfl, decide_eq_true_eq]
    omega
  have hflag := h.flag
  have hcompare := h.compare
  rw [Fresh]
  grind

theorem Plain.tick (h : u.Plain) (hsound : u.Sound) {r : Bool × EeTimersUnit} (hr : u.tick type = .ok r) : r.2.Plain := by
  rw [hsound.tick_eq type, h.settle_eq] at hr
  obtain rfl := Except.ok.inj hr
  split_ifs
  · obtain ⟨flag, hint, hflag⟩ := u.incremented.handleTimerInterrupt_eq
    rw [hint]
    have htarget : u.count.prescaleTarget = 1 → u.count.ticked.prescaleTarget = 1 :=
      (prescaleTarget_ticked u.count).trans
    rw [handleTimerZret]
    split_ifs with hzret
    · refine ⟨h.settled, Nat.zero_le _, hflag, ?_⟩
      rcases h.compare with hone | hcmpe | ⟨hon, hne, -⟩
      · exact .inl (htarget hone)
      · exact .inr (.inl hcmpe)
      · exact .inr (.inr ⟨hon, hne, hne.symm⟩)
    · refine ⟨h.settled, count_ticked_le h.count, hflag, ?_⟩
      rcases h.compare with hone | hcmpe | ⟨hon, hne, -⟩
      · exact .inl (htarget hone)
      · exact .inr (.inl hcmpe)
      · exact .inr (.inr ⟨hon, hne, fun heq => hzret ⟨hon, heq⟩⟩)
  · exact h

end EeTimersUnit

namespace EeTimers

open EeTimersUnit

variable {t t' : EeTimers} {type : ControllerEventType} {i j : Fin 4}

/-! ### A tick of all timers -/

/-- The bit of a timer in I_STAT. -/
def interrupted (t : EeTimers) (i : Fin 4) : Bool := t.intcStat.getLsbD (9 + i)

/-- The timer as the tick leaves it, and its bit set if the tick interrupts. -/
def TickedUnit (type : ControllerEventType) (t t' : EeTimers) (i : Fin 4) : Prop :=
  ∃ r, (t.units i).tick type = .ok r ∧ t'.units i = r.2 ∧ t'.interrupted i = (t.interrupted i || r.1)

theorem interrupted_tickUnit (h : t.tickUnit type j = .ok t') (hne : i ≠ j) :
    t'.units i = t.units i ∧ t'.interrupted i = t.interrupted i := by
  obtain ⟨r, -, h⟩ := bind_eq_ok_iff.mp h
  obtain rfl := Except.ok.inj h
  refine ⟨Function.update_of_ne hne _ _, ?_⟩
  rw [interrupted, interrupted]
  dsimp only
  split_ifs
  · have hbit : 9 + i.val ≠ 9 + j.val := fun heq => hne (Fin.ext (Nat.add_left_cancel heq))
    rw [EeIntcStat.tim, Bitfield.getLsbD_insertInto_bit _ _ _ (by omega), decide_eq_false hbit, Bool.false_or]
  · rfl

theorem tickedUnit_tickUnit (h : t.tickUnit type i = .ok t') : TickedUnit type t t' i := by
  obtain ⟨r, hr, h⟩ := bind_eq_ok_iff.mp h
  obtain rfl := Except.ok.inj h
  refine ⟨r, hr, Function.update_self _ _ _, ?_⟩
  rw [interrupted, interrupted]
  dsimp only
  cases r.1 with
  | false => exact (Bool.or_false _).symm
  | true =>
    rw [if_pos rfl, EeIntcStat.tim, Bitfield.getLsbD_insertInto_bit _ _ _ (by omega), decide_eq_true rfl, Bool.true_or,
      Bool.or_true]

/-- Rounds of the loop for each timer at most once. -/
theorem tickedUnit_rounds {l : List (Fin 4)} (hl : l.Nodup)
    (h : l.foldlM (fun t i => t.tickUnit type i) t = .ok t') :
    (∀ i ∈ l, TickedUnit type t t' i) ∧ ∀ i ∉ l, t'.units i = t.units i ∧ t'.interrupted i = t.interrupted i := by
  induction l generalizing t with
  | nil =>
    obtain rfl := Except.ok.inj h
    exact ⟨fun i hi => absurd hi List.not_mem_nil, fun _ _ => ⟨rfl, rfl⟩⟩
  | cons k l ih =>
    rw [List.foldlM_cons] at h
    obtain ⟨t₁, h₁, h⟩ := bind_eq_ok_iff.mp h
    obtain ⟨hk, hl⟩ := List.nodup_cons.mp hl
    obtain ⟨hin, hout⟩ := ih hl h
    refine ⟨fun i hi => ?_, fun i hi => ?_⟩
    · rcases List.mem_cons.mp hi with rfl | hi
      · obtain ⟨r, hr, hunit, hbit⟩ := tickedUnit_tickUnit h₁
        obtain ⟨hunit', hbit'⟩ := hout i hk
        exact ⟨r, hr, hunit'.trans hunit, hbit'.trans hbit⟩
      · have hne : i ≠ k := fun heq => hk (heq ▸ hi)
        obtain ⟨hunit, hbit⟩ := interrupted_tickUnit h₁ hne
        obtain ⟨r, hr, hunit', hbit'⟩ := hin i hi
        exact ⟨r, hunit ▸ hr, hunit', hbit ▸ hbit'⟩
    · obtain ⟨hne, hi⟩ := not_or.mp (mt List.mem_cons.mpr hi)
      obtain ⟨hunit, hbit⟩ := interrupted_tickUnit h₁ hne
      obtain ⟨hunit', hbit'⟩ := hout i hi
      exact ⟨hunit'.trans hunit, hbit'.trans hbit⟩

theorem tickedUnit_tickTimer (h : t.tickTimer type = .ok t') (i : Fin 4) : TickedUnit type t t' i :=
  (tickedUnit_rounds (List.nodup_finRange 4) h).1 i (List.mem_finRange i)

/-- A tick returns if each timer does. -/
theorem exists_rounds {l : List (Fin 4)} (hl : l.Nodup) (h : ∀ i ∈ l, ∃ r, (t.units i).tick type = .ok r) :
    ∃ t', l.foldlM (fun t i => t.tickUnit type i) t = .ok t' := by
  induction l generalizing t with
  | nil => exact ⟨t, rfl⟩
  | cons k l ih =>
    obtain ⟨hk, hl⟩ := List.nodup_cons.mp hl
    obtain ⟨r, hr⟩ := h k (.head _)
    obtain ⟨t₁, h₁⟩ : ∃ t₁, t.tickUnit type k = .ok t₁ := ⟨_, bind_eq_ok_iff.mpr ⟨r, hr, rfl⟩⟩
    obtain ⟨t', h'⟩ := ih hl fun i hi => by
      rw [(interrupted_tickUnit h₁ fun heq => hk (heq ▸ hi)).1]
      exact h i (.tail _ hi)
    exact ⟨t', by rw [List.foldlM_cons, h₁, ok_bind, h']⟩

theorem exists_tickTimer (h : ∀ i, (t.units i).Sound) (type : ControllerEventType) : ∃ t', t.tickTimer type = .ok t' :=
  exists_rounds (List.nodup_finRange 4) fun i _ => ⟨_, (h i).tick_eq type⟩

theorem sound_tickTimer (hsound : (t.units i).Sound) (h : t.tickTimer type = .ok t') : (t'.units i).Sound := by
  obtain ⟨r, hr, hunit, -⟩ := tickedUnit_tickTimer h i
  rw [hunit]
  exact hsound.tick hr

/-! ### Runs -/

/-- `EeIntcRegister_Stat::byte_bus_write_uword` of the EE. -/
def writeStat (t : EeTimers) (value : Uword) : EeTimers := { t with intcStat := t.intcStat &&& ~~~value }

/-- The guest acknowledges the interrupt of a timer. -/
def acknowledge (t : EeTimers) (i : Fin 4) : EeTimers := t.writeStat (1 <<< (9 + i.val))

/-- A move of a run. -/
inductive Move where
  /-- A tick of a clock. -/
  | tick (type : ControllerEventType)
  /-- Anything else. -/
  | rest (f : EeTimers → EeTimers)

/-- A move: anything else leaves timer `i` alone. -/
def step (i : Fin 4) : Move → EeTimers → Except HostFault EeTimers
  | .tick type, t => t.tickTimer type
  | .rest f, t => .ok { f t with units := Function.update (f t).units i (t.units i) }

/-- A tick sets the acknowledged bit of the timer if and only if its increment takes the count to COMPARE or wraps it. -/
def OncePerEvent (i : Fin 4) : Move → EeTimers → Prop
  | .tick type, t =>
    ∀ t', (t.acknowledge i).tickTimer type = .ok t' → (t'.interrupted i = true ↔ Event type (t.units i))
  | .rest _, _ => True

/-- Where the timer counts the tick, nothing is left over. -/
def Clear (i : Fin 4) : Move → EeTimers → Prop
  | .tick type, t => (t.units i).settle.counts type = true → (t.units i).settle.Fresh
  | .rest _, _ => True

instance decidableClear (i : Fin 4) : ∀ (m : Move) (t : EeTimers), Decidable (Clear i m t)
  | .tick _, _ => inferInstanceAs (Decidable (_ → _))
  | .rest _, _ => isTrue trivial

theorem interrupted_acknowledge (t : EeTimers) (i : Fin 4) : (t.acknowledge i).interrupted i = false := by
  have hbit : (1 <<< (9 + i.val) : Uword).getLsbD (9 + i.val) = true := by
    revert i
    decide
  rw [interrupted, acknowledge, writeStat, BitVec.getLsbD_and, BitVec.getLsbD_not, hbit, Bool.not_true, Bool.and_false,
    Bool.and_false]

theorem interrupted_tickTimer_acknowledge (hsound : (t.units i).Sound)
    (h : (t.acknowledge i).tickTimer type = .ok t') :
    t'.interrupted i = ((t.units i).settle.counts type && (t.units i).settle.raises) := by
  obtain ⟨r, hr, -, hbit⟩ := tickedUnit_tickTimer h i
  rw [interrupted_acknowledge, Bool.false_or] at hbit
  rw [hbit]
  have heq := (hsound.tick_eq type).symm.trans hr
  obtain rfl := Except.ok.inj heq
  cases (t.units i).settle.counts type with
  | false => rfl
  | true => rfl

theorem event_iff (hsound : (t.units i).Sound) :
    Event type (t.units i) ↔ (t.units i).settle.counts type = true ∧ (t.units i).settle.Due := by
  rw [Event, hsound.settle.2.increment_one]
  refine and_congr_right fun _ => ⟨?_, fun h => ⟨_, rfl, h⟩⟩
  rintro ⟨c, hc, h⟩
  obtain rfl := Option.some.inj hc
  exact h

/-- A tick does what it should if nothing is left over. -/
theorem oncePerEvent_of_clear {m : Move} (hsound : (t.units i).Sound) (h : Clear i m t) : OncePerEvent i m t := by
  cases m with
  | rest f => trivial
  | tick type =>
    intro t' ht'
    rw [interrupted_tickTimer_acknowledge hsound ht', event_iff hsound, Bool.and_eq_true]
    exact and_congr_right fun hcounts => raises_iff_iff_fresh.mpr (h hcounts)

/-- A tick that returns and does what it should finds nothing left over. -/
theorem clear_of_oncePerEvent {m : Move} (hsound : (t.units i).Sound) (hstep : step i m t = .ok t')
    (h : OncePerEvent i m t) : Clear i m t := by
  cases m with
  | rest f => trivial
  | tick type =>
    intro hcounts
    obtain ⟨u, hu⟩ : ∃ u, (t.acknowledge i).tickTimer type = .ok u :=
      exists_rounds (List.nodup_finRange 4) fun j _ => by
        obtain ⟨r, hr, -⟩ := tickedUnit_tickTimer hstep j
        exact ⟨r, hr⟩
    have hiff := h u hu
    rw [interrupted_tickTimer_acknowledge hsound hu, event_iff hsound, Bool.and_eq_true, and_congr_right_iff] at hiff
    exact raises_iff_iff_fresh.mp (hiff hcounts)

theorem units_rest {f : EeTimers → EeTimers} (h : step i (.rest f) t = .ok t') : t'.units i = t.units i := by
  rw [← Except.ok.inj h]
  exact Function.update_self _ _ _

/-- The timer stays in order. -/
theorem sound_step {m : Move} (hsound : (t.units i).Sound) (h : step i m t = .ok t') : (t'.units i).Sound := by
  cases m with
  | rest f =>
    rw [units_rest h]
    exact hsound
  | tick type => exact sound_tickTimer hsound h

/-- A timer that is not gated interrupts once per event over every run at each of whose ticks nothing is left over, and
over no other that fails nowhere. -/
theorem interrupts_once_iff (t : EeTimers) (i : Fin 4) (hsound : (t.units i).Sound) (ms : List Move) :
    (Run.Always (step i) (Clear i) ms t → Run.Always (step i) (OncePerEvent i) ms t) ∧
      ((∃ t', Run.run (step i) ms t = .ok t') →
        (Run.Always (step i) (OncePerEvent i) ms t ↔ Run.Always (step i) (Clear i) ms t)) := by
  constructor
  · intro h
    exact Run.Always.invariant (I := fun t => (t.units i).Sound) (fun _ _ _ hs _ hstep => sound_step hs hstep)
      (fun _ _ hs hclear => oncePerEvent_of_clear hs hclear) hsound h
  · rintro ⟨t', ht'⟩
    refine Run.always_iff_of_run (I := fun t => (t.units i).Sound) (fun m s s' hs hstep => ⟨⟨?_, ?_⟩, ?_⟩) hsound ht'
    · exact clear_of_oncePerEvent hs hstep
    · exact oncePerEvent_of_clear hs
    · exact fun _ => sound_step hs hstep

/-- A timer that compares while a prescaler holds the count: MODE 0x181 counts every 16th tick. -/
def sixteen : EeTimers where
  units i := if i.val = 0 then ⟨⟨0, false, 16, 15⟩, ⟨0x181, false⟩, 1⟩ else ⟨⟨0, false, 1, 0⟩, ⟨0, false⟩, 0⟩
  intcStat := 0

theorem sound_sixteen (i : Fin 4) : (sixteen.units i).Sound := by
  refine ⟨?_, .inr ⟨?_, ?_⟩⟩
  · revert i
    decide
  · revert i
    decide
  · revert i
    decide

/-- The tick that takes the count to 1 interrupts, and so does the next. -/
theorem sixteen_interrupts_twice :
    ¬∀ (t : EeTimers) (i : Fin 4), (t.units i).Sound → ∀ ms, Run.Always (step i) (OncePerEvent i) ms t := by
  intro hall
  obtain ⟨t₁, h₁⟩ := exists_tickTimer sound_sixteen .time
  have hsound (i : Fin 4) : (t₁.units i).Sound := sound_tickTimer (sound_sixteen i) h₁
  obtain ⟨t₂, h₂⟩ := exists_tickTimer hsound .time
  have hunit : t₁.units 0 = ⟨⟨1, false, 16, 0⟩, ⟨0x181, false⟩, 1⟩ := by
    obtain ⟨r, hr, hunit, -⟩ := tickedUnit_tickTimer h₁ 0
    have htick : (sixteen.units 0).tick .time = .ok (true, ⟨⟨1, false, 16, 0⟩, ⟨0x181, false⟩, 1⟩) := by decide
    rw [hunit, ← Except.ok.inj (htick.symm.trans hr)]
  obtain ⟨-, hrest⟩ := hall sixteen 0 (sound_sixteen 0) [.tick .time, .tick .time]
  have hclear : Clear 0 (.tick .time) t₁ := clear_of_oncePerEvent (hsound 0) h₂ (hrest t₁ h₁).1
  rw [Clear, hunit] at hclear
  exact absurd (hclear (by decide)) (by decide)

/-- A timer that counts every tick of the bus clock and compares with 3. -/
def third : EeTimers where
  units i := if i.val = 0 then ⟨⟨0, false, 1, 0⟩, ⟨0x180, false⟩, 3⟩ else ⟨⟨0, false, 1, 0⟩, ⟨0, false⟩, 0⟩
  intcStat := 0

theorem sound_third (i : Fin 4) : (third.units i).Sound := by
  refine ⟨?_, .inr ⟨?_, ?_⟩⟩
  · revert i
    decide
  · revert i
    decide
  · revert i
    decide

/-- Of five ticks the third interrupts, and no other. -/
theorem interrupts_once_iff_third : Run.Always (step 0) (OncePerEvent 0) (.replicate 5 (.tick .time)) third :=
  (interrupts_once_iff third 0 (sound_third 0) (.replicate 5 (.tick .time))).1 (by decide +kernel)

/-- Over any run at all, a plain timer interrupts once per event. -/
theorem interrupts_once_of_plain (hsound : (t.units i).Sound) (hplain : (t.units i).Plain) (ms : List Move) :
    Run.Always (step i) (OncePerEvent i) ms t := by
  have hstep (m : Move) (s s' : EeTimers) (hs : (s.units i).Sound ∧ (s.units i).Plain) (h : step i m s = .ok s') :
      (s'.units i).Sound ∧ (s'.units i).Plain := by
    refine ⟨sound_step hs.1 h, ?_⟩
    cases m with
    | rest f =>
      rw [units_rest h]
      exact hs.2
    | tick type =>
      obtain ⟨r, hr, hunit, -⟩ := tickedUnit_tickTimer h i
      rw [hunit]
      exact hs.2.tick hs.1 hr
  have hclear (m : Move) (s : EeTimers) (hs : (s.units i).Sound ∧ (s.units i).Plain) : OncePerEvent i m s := by
    refine oncePerEvent_of_clear hs.1 ?_
    cases m with
    | rest f => trivial
    | tick type =>
      intro _
      rw [hs.2.settle_eq]
      exact hs.2.fresh (hs.1.prescaled.resolve_left (by rw [hs.2.settled]; decide))
  exact Run.Always.invariant (Q := fun _ _ => True) (fun m s s' hs _ => hstep m s s' hs) (fun m s hs _ => hclear m s hs)
    ⟨hsound, hplain⟩ (Run.always_of_forall (fun _ _ => trivial) ms t)

end EeTimers

end Orbum
