import Orbum.Gs.Crtc
import Orbum.Iop.Timers

/-!
# From the CRTC to the interrupts of the IOP timers

The CRTC queues an HBlank event for the IOP timers at the end of each line, which their controller handles at some later
time, among ticks of the IOP bus clock. In whatever order this happens, a timer that counts HBlanks is where the lines
that have ended put it, less those whose event is still queued: none is lost and none is counted twice.

## The model

A step is one tick of the CRTC, one event that the controller of the IOP timers takes from its queue, one tick of the
bus clock, or a write of the IOP to I_STAT. Of the events in the queue only those for the IOP timers are kept, by their
amount; of the INTCs I_STAT.
-/

namespace Orbum

/-- `EeIntcRegister_Stat::VBON`. -/
def EeIntcStat.vbon : Bitfield := ⟨2, 1⟩

/-- `EeIntcRegister_Stat::VBOF`. -/
def EeIntcStat.vbof : Bitfield := ⟨3, 1⟩

/-- `IopIntcRegister_Stat::VBLANK`. -/
def IopIntcStat.vblank : Bitfield := ⟨0, 1⟩

/-- `IopIntcRegister_Stat::EVBLANK`. -/
def IopIntcStat.evblank : Bitfield := ⟨11, 1⟩

/-- The CRTC, the IOP timers and what is between them. -/
structure VideoTimers where
  /-- The CRTC. -/
  crtc : Crtc
  /-- I_STAT of the EE. -/
  eeStat : Uword
  /-- The amounts of the HBlank events queued for the IOP timers. -/
  hBlanks : List ℕ
  /-- The IOP timers, with I_STAT of the IOP. -/
  iop : IopTimersTrace

/-- A step of one of them, or of the IOP. -/
inductive VideoTimersOp where
  /-- A tick of the CRTC. -/
  | crtcTick
  /-- `CIopTimers::handle_event` for the first HBlank event queued. -/
  | hBlankEvent
  /-- A tick of the IOP bus clock. -/
  | busTick
  /-- A write of the IOP to I_STAT. -/
  | acknowledge (value : Uword)
  deriving DecidableEq

namespace VideoTimers

/-- Writes I_STAT of the IOP. -/
def setIopStat (s : VideoTimers) (intcStat : Uword) : VideoTimers :=
  { s with iop := { s.iop with timers := { s.iop.timers with intcStat } } }

/-- What the CRTC sends arrives. -/
def receive (s : VideoTimers) : CrtcSignal → VideoTimers
  | .hBlank => { s with hBlanks := s.hBlanks ++ [1] }
  | .vBlankEnd =>
    { s with eeStat := EeIntcStat.vbof.insertInto s.eeStat 1 }.setIopStat
      (IopIntcStat.evblank.insertInto s.iop.timers.intcStat 1)
  | .vBlankStart =>
    { s with eeStat := EeIntcStat.vbon.insertInto s.eeStat 1 }.setIopStat
      (IopIntcStat.vblank.insertInto s.iop.timers.intcStat 1)

/-- Operations of the IOP timers. -/
def runIop (s : VideoTimers) (ops : List IopTimersOp) : Except HostFault VideoTimers := do
  let iop ← Run.run IopTimersOp.step ops s.iop
  return { s with iop }

end VideoTimers

namespace VideoTimersOp

/-- One step. -/
def step : VideoTimersOp → VideoTimers → Except HostFault VideoTimers
  | crtcTick, s => .ok (s.crtc.timeStep.1.foldl VideoTimers.receive { s with crtc := s.crtc.timeStep.2 })
  | hBlankEvent, s =>
    { s with hBlanks := s.hBlanks.tail }.runIop (List.replicate (s.hBlanks.headD 0) (.tick .hBlank))
  | busTick, s => s.runIop [.tick .time]
  | acknowledge value, s => s.runIop [.acknowledge value]

end VideoTimersOp

/-! ### One step -/

namespace VideoTimers

open IopTimersUnit IopTimersOp

/-- How many ticks a timer has counted. -/
def ticksOf (unitId : Fin 6) (u : IopTimersUnit) (hBlanks busTicks : ℕ) : ℕ :=
  if u.counts unitId .hBlank then hBlanks else if u.counts unitId .time then busTicks else 0

/-- Where a run from `s` has got after `n` ticks of the CRTC and `b` of the bus clock. -/
structure Reached (s s' : VideoTimers) (n b : ℕ) : Prop where
  /-- The beam. -/
  crtc : s'.crtc = Crtc.beam n
  /-- Each event is one HBlank. -/
  single : ∀ amount ∈ s'.hBlanks, amount = 1
  /-- No event is queued that no line has sent. -/
  queued : s'.hBlanks.length ≤ Crtc.lines n
  /-- The timers have counted the others. -/
  iop : IopTimersOp.Reached s.iop s'.iop fun i =>
    ticksOf i (s.iop.timers.units i) (Crtc.lines n - s'.hBlanks.length) b

variable {s s' : VideoTimers} {n b : ℕ}

/-- What a list of signals does. -/
theorem foldl_receive (sent : List CrtcSignal) (s : VideoTimers) :
    (sent.foldl receive s).crtc = s.crtc ∧
      (sent.foldl receive s).hBlanks = s.hBlanks ++ List.replicate (sent.count .hBlank) 1 ∧
      (sent.foldl receive s).iop.timers.units = s.iop.timers.units ∧
      (sent.foldl receive s).iop.interrupts = s.iop.interrupts := by
  induction sent generalizing s with
  | nil => simp
  | cons x sent ih =>
    obtain ⟨hcrtc, hevents, hunits, hinterrupts⟩ := ih (s.receive x)
    rw [List.foldl_cons, hcrtc, hevents, hunits, hinterrupts]
    cases x with
    | hBlank =>
      refine ⟨rfl, ?_, rfl, rfl⟩
      rw [List.count_cons_self, List.replicate_succ]
      simp [receive]
    | vBlankEnd => exact ⟨rfl, by rw [List.count_cons_of_ne (by decide)]; rfl, rfl, rfl⟩
    | vBlankStart => exact ⟨rfl, by rw [List.count_cons_of_ne (by decide)]; rfl, rfl, rfl⟩

/-- A tick of the CRTC queues what it counts. -/
theorem Reached.crtcTick (h : Reached s s' n b) :
    Reached s (s'.crtc.timeStep.1.foldl receive { s' with crtc := s'.crtc.timeStep.2 }) (n + 1) b := by
  have hmono : Crtc.lines n ≤ Crtc.lines (n + 1) := by
    unfold Crtc.lines
    omega
  obtain ⟨hcrtc, hevents, hunits, hinterrupts⟩ :=
    foldl_receive s'.crtc.timeStep.1 { s' with crtc := s'.crtc.timeStep.2 }
  rw [h.crtc, Crtc.timeStep_beam] at hcrtc hevents hunits hinterrupts ⊢
  rw [(Crtc.sentAt_eq n).1] at hevents
  have hqueued := h.queued
  refine ⟨hcrtc, ?_, ?_, ?_⟩
  · rw [hevents]
    intro amount hamount
    rw [List.mem_append] at hamount
    exact hamount.elim (h.single amount) List.eq_of_mem_replicate
  · rw [hevents, List.length_append, List.length_replicate]
    dsimp only
    omega
  · have hrest : Crtc.lines (n + 1) - (s'.hBlanks ++ List.replicate (Crtc.lines (n + 1) - Crtc.lines n) 1).length =
        Crtc.lines n - s'.hBlanks.length := by
      rw [List.length_append, List.length_replicate]
      omega
    rw [hevents, hrest]
    exact h.iop.congr hunits hinterrupts

/-- Operations of the IOP timers that take `hBlanks` from the queue. -/
theorem Reached.runIop (h : Reached s s' n b) (ops : List IopTimersOp) {rest : List ℕ} {b' : ℕ}
    (hrest : ∀ amount ∈ rest, amount = 1) (hle : rest.length ≤ s'.hBlanks.length)
    (hcount : ∀ i, ticksOf i (s.iop.timers.units i) (Crtc.lines n - s'.hBlanks.length) b +
      counted i (s.iop.timers.units i) ops = ticksOf i (s.iop.timers.units i) (Crtc.lines n - rest.length) b') :
    ∃ t, { s' with hBlanks := rest }.runIop ops = .ok t ∧ Reached s t n b' := by
  obtain ⟨iop, hrun, hiop⟩ := reached_run ops h.iop.programmed
  refine ⟨{ s' with hBlanks := rest, iop }, by rw [VideoTimers.runIop, hrun]; rfl, h.crtc, hrest,
    hle.trans h.queued, ?_⟩
  have hsame (i : Fin 6) : counted i (s'.iop.timers.units i) ops = counted i (s.iop.timers.units i) ops :=
    counted_congr (h.iop.same i) ops
  simp only [hsame] at hiop
  simp only [← hcount]
  exact h.iop.trans hiop

theorem ticksOf_add_hBlank (unitId : Fin 6) (u : IopTimersUnit) (h b : ℕ) :
    ticksOf unitId u h b + counted unitId u [.tick .hBlank] = ticksOf unitId u (h + 1) b := by
  rw [ticksOf, ticksOf, counted, List.countP_singleton, countedBy]
  cases hh : u.counts unitId .hBlank with
  | true => rfl
  | false => rfl

/-- A timer that counts the bus clock does not count HBlanks. -/
theorem not_counts_hBlank {unitId : Fin 6} {u : IopTimersUnit} (h : u.counts unitId .time = true) :
    u.counts unitId .hBlank = false := by
  rw [counts, Bool.and_eq_true, decide_eq_true_eq] at h
  rw [counts, h.2]
  simp

theorem ticksOf_add_time (unitId : Fin 6) (u : IopTimersUnit) (h b : ℕ) :
    ticksOf unitId u h b + counted unitId u [.tick .time] = ticksOf unitId u h (b + 1) := by
  rw [ticksOf, ticksOf, counted, List.countP_singleton, countedBy]
  cases ht : u.counts unitId .time with
  | true =>
    rw [not_counts_hBlank ht]
    rfl
  | false => rfl

/-- One step, by how many ticks of the CRTC and of the bus clock it is. -/
theorem Reached.step (h : Reached s s' n b) (op : VideoTimersOp) :
    ∃ t, op.step s' = .ok t ∧
      Reached s t (n + if op = .crtcTick then 1 else 0) (b + if op = .busTick then 1 else 0) := by
  cases op with
  | crtcTick => exact ⟨_, rfl, h.crtcTick⟩
  | hBlankEvent =>
    cases hq : s'.hBlanks with
    | nil =>
      have hstep : VideoTimersOp.hBlankEvent.step s' = { s' with hBlanks := [] }.runIop [] := by
        rw [VideoTimersOp.step, hq]
        rfl
      rw [hstep]
      exact h.runIop [] (by simp) (by simp) fun i => by rw [hq]; rfl
    | cons amount rest =>
      have hsingle := h.single
      have hqueued := h.queued
      rw [hq, List.length_cons] at hqueued
      rw [hq] at hsingle
      have hstep : VideoTimersOp.hBlankEvent.step s' = { s' with hBlanks := rest }.runIop [.tick .hBlank] := by
        rw [VideoTimersOp.step, hq, List.headD_cons, hsingle amount List.mem_cons_self]
        rfl
      rw [hstep]
      refine h.runIop _ (fun a ha => hsingle a (List.mem_cons_of_mem _ ha)) (by rw [hq]; simp) fun i => ?_
      rw [hq, List.length_cons, ticksOf_add_hBlank, show Crtc.lines n - (rest.length + 1) + 1 =
        Crtc.lines n - rest.length by omega]
      rfl
  | busTick => exact h.runIop _ h.single le_rfl fun i => ticksOf_add_time _ _ _ _
  | acknowledge value => exact h.runIop _ h.single le_rfl fun i => rfl

theorem Reached.run (ops : List VideoTimersOp) (h : Reached s s' n b) :
    ∃ t, Run.run VideoTimersOp.step ops s' = .ok t ∧
      Reached s t (n + ops.count .crtcTick) (b + ops.count .busTick) := by
  induction ops generalizing s' n b with
  | nil => exact ⟨s', rfl, h⟩
  | cons op ops ih =>
    obtain ⟨s₁, hstep, hfirst⟩ := h.step op
    obtain ⟨t, hrun, hrest⟩ := ih hfirst
    refine ⟨t, Run.run_cons_ok.mpr ⟨s₁, hstep, hrun⟩, ?_⟩
    have hsum (op' : VideoTimersOp) : (op :: ops).count op' = (if op = op' then 1 else 0) + ops.count op' := by
      rw [List.count_cons, Nat.add_comm]
      simp only [beq_iff_eq]
    rw [hsum, hsum, ← Nat.add_assoc, ← Nat.add_assoc]
    exact hrest

/-- The CRTC before its first step, nothing queued and programmed timers. -/
structure Ready (s : VideoTimers) : Prop where
  /-- The beam has not moved. -/
  crtc : s.crtc = Crtc.initial
  /-- No event is queued. -/
  hBlanks : s.hBlanks = []
  /-- The timers are programmed. -/
  programmed : ∀ i, Programmed i (s.iop.timers.units i)

theorem Ready.reached (h : Ready s) : Reached s s 0 0 where
  crtc := h.crtc.trans Crtc.beam_zero.symm
  single := by
    rw [h.hBlanks]
    simp
  queued := by
    rw [h.hBlanks]
    exact Nat.zero_le _
  iop := by
    have hzero (i : Fin 6) : ticksOf i (s.iop.timers.units i) (Crtc.lines 0 - s.hBlanks.length) 0 = 0 := by
      rw [ticksOf, show Crtc.lines 0 = 0 from rfl, Nat.zero_sub]
      split_ifs <;> rfl
    simp only [hzero]
    exact .refl h.programmed

/-- In every interleaving no step throws, and a timer that counts HBlanks is where the lines that have ended have put it,
less those whose event is still queued. If it interrupts where its count returns to zero, it has done so each time the
lines have filled its period. -/
theorem hBlank_timer (ops : List VideoTimersOp) (h : Ready s) :
    ∃ t, Run.run VideoTimersOp.step ops s = .ok t ∧ t.hBlanks.length ≤ Crtc.lines (ops.count .crtcTick) ∧
      ∀ i, (s.iop.timers.units i).counts i .hBlank = true →
        let u := s.iop.timers.units i
        let seen := u.phase + (Crtc.lines (ops.count .crtcTick) - t.hBlanks.length)
        (t.iop.timers.units i).phase = seen % u.period i ∧
          (u.fires = (· == 0) → t.iop.interrupts i = s.iop.interrupts i + seen / u.period i) := by
  obtain ⟨t, hrun, hreached⟩ := h.reached.run ops
  rw [Nat.zero_add, Nat.zero_add] at hreached
  refine ⟨t, hrun, hreached.queued, fun i hi => ?_⟩
  have hphase := hreached.iop.phase i
  have hinterrupts := hreached.iop.interrupts i
  rw [ticksOf, if_pos hi] at hphase hinterrupts
  refine ⟨hphase, fun hfires => ?_⟩
  rw [hinterrupts, hfires, Cycle.hits_zero_eq_div (h.programmed i).phase_lt]

/-- One line, its event, and timers that repeat at 262 lines. -/
theorem hBlank_timer_line : ∃ t, Run.run VideoTimersOp.step (List.replicate 640 .crtcTick ++ [.busTick, .hBlankEvent])
    ⟨.initial, 0, [], IopTimers.repeating 262⟩ = .ok t ∧ t.hBlanks.length ≤ 1 ∧
      (t.iop.timers.units 0).phase = (1 - t.hBlanks.length) % 262 := by
  have hready : Ready ⟨.initial, 0, [], IopTimers.repeating 262⟩ :=
    ⟨rfl, rfl, IopTimers.programmed_repeating (by decide) (by decide)⟩
  have hcount : (List.replicate 640 VideoTimersOp.crtcTick ++ [VideoTimersOp.busTick, .hBlankEvent]).count
      VideoTimersOp.crtcTick = 640 := by
    rw [List.count_append, List.count_replicate_self]
    rfl
  obtain ⟨t, hrun, hle, hall⟩ := hBlank_timer
    (List.replicate 640 .crtcTick ++ [.busTick, .hBlankEvent]) hready
  have hphase := (hall 0 (by decide)).1
  rw [hcount] at hle hphase
  have hstart : ((IopTimers.repeating 262).timers.units 0).phase = 0 := by decide
  have hperiod : ((IopTimers.repeating 262).timers.units 0).period 0 = 262 := by decide
  rw [hstart, hperiod, Nat.zero_add, show Crtc.lines 640 = 1 by decide] at hphase
  exact ⟨t, hrun, hle, hphase⟩

end VideoTimers

end Orbum
