import Orbum.Iop.Dmac.Delivery

/-!
# Interrupts of the IOP DMAC

A channel that completes sets its bit of `TCI`, and the master interrupt if any channel with a set bit of `TCM` has its
bit of `TCI` set. The IOP acknowledges by writing `ICR0` and `ICR1`, which clears the bits of `TCI` that are written as
1; the write keeps the master interrupt, and nothing else clears it.

## The model

Channels complete and the IOP writes in any order, and between that anything may happen that leaves `ICR0` and `ICR1`
alone. `exists_moves_of_timeStep` shows that the ticks of the DMAC are made of such moves.
-/

namespace Orbum

namespace IopDmac

/-! ### Bus writes -/

/-- What `byte_bus_write_uword(context, offset, value)` writes to `ICR0`, and to `ICR1`. -/
def acknowledge (context : BusContext) (icr value : Uword) : Uword :=
  if context = .iop then ((icr &&& 0xFF000000) ||| (value &&& 0xFFFFFF)) &&& ~~~(value &&& 0x7F000000) else value

variable (s : IopDmac)

/-- The IOP writes `ICR0`. -/
def writeIcr0 (value : Uword) : IopDmac := { s with icr0 := acknowledge .iop s.icr0 value }

/-- The IOP writes `ICR1`. -/
def writeIcr1 (value : Uword) : IopDmac := { s with icr1 := acknowledge .iop s.icr1 value }

/-- Bit `j` of `TCI`, of which `ICR0` has seven and `ICR1` as many. -/
def tci (j : ℕ) : Bool := if j < 7 then s.icr0.getLsbD (24 + j) else s.icr1.getLsbD (24 + j % 7)

/-- The master interrupt bit. -/
def masterInterrupted : Bool := s.icr0.getLsbD 31

/-- The bits of `TCI` that are written as 1 are cleared. -/
theorem getLsbD_acknowledge (icr value : Uword) {i : ℕ} (hlow : 24 ≤ i) (hhigh : i < 31) :
    (acknowledge .iop icr value).getLsbD i = (icr.getLsbD i && !value.getLsbD i) := by
  have hmask : ∀ i < 31, 24 ≤ i → (0xFF000000 : Uword).getLsbD i = true ∧ (0xFFFFFF : Uword).getLsbD i = false ∧
      (0x7F000000 : Uword).getLsbD i = true := by decide
  obtain ⟨h1, h2, h3⟩ := hmask i hhigh hlow
  simp only [acknowledge, if_true, BitVec.getLsbD_and, BitVec.getLsbD_or, BitVec.getLsbD_not, h1, h2, h3, Bool.and_true,
    Bool.and_false, Bool.or_false, show i < 32 by omega, decide_true, Bool.true_and]

/-- The master interrupt bit is kept. -/
theorem getLsbD_acknowledge_master (icr value : Uword) : (acknowledge .iop icr value).getLsbD 31 = icr.getLsbD 31 := by
  have hmask : (0xFF000000 : Uword).getLsbD 31 = true ∧ (0xFFFFFF : Uword).getLsbD 31 = false ∧
      (0x7F000000 : Uword).getLsbD 31 = false := by decide
  obtain ⟨h1, h2, h3⟩ := hmask
  simp only [acknowledge, if_true, BitVec.getLsbD_and, BitVec.getLsbD_or, BitVec.getLsbD_not, h1, h2, h3, Bool.and_true,
    Bool.and_false, Bool.or_false, Nat.reduceLT, decide_true, Bool.not_false]

/-- The registers as they are at first. -/
def reset : IopDmac := { s with icr0 := 0, icr1 := 0 }

namespace Interrupts

/-! ### Runs -/

/-- What can happen. -/
inductive Move where
  /-- A channel completes. -/
  | complete (k : Fin 13)
  /-- The IOP writes `ICR0`. -/
  | icr0 (value : Uword)
  /-- The IOP writes `ICR1`. -/
  | icr1 (value : Uword)
  /-- Anything else. -/
  | rest (f : IopDmac → IopDmac)

namespace Move

/-- What a move does. -/
def step (s : IopDmac) : Move → IopDmac
  | complete k => s.setStateSuspended k
  | icr0 value => s.writeIcr0 value
  | icr1 value => s.writeIcr1 value
  | rest f => { f s with icr0 := s.icr0, icr1 := s.icr1 }

/-- No channel completes. -/
def Quiet : Move → Prop
  | complete _ => False
  | icr0 _ | icr1 _ | rest _ => True

/-- The move raises no interrupt: if it is the completion of a channel, then, the flag of that channel being set, no channel
has both bits set while interrupts are enabled, nor is there an error. -/
def RaisesNone (s : IopDmac) : Move → Prop
  | complete k => (s.setChannelTci k 1).interruptPending = false
  | icr0 _ | icr1 _ | rest _ => True

end Move

/-- A run. -/
def run (ms : List Move) (s : IopDmac) : IopDmac := ms.foldl Move.step s

/-- No move of the run raises an interrupt. -/
def NoneRaised : List Move → IopDmac → Prop
  | [], _ => True
  | m :: ms, s => m.RaisesNone s ∧ NoneRaised ms (m.step s)

/-- What the IOP can rely on when it acknowledges. -/
structure Acknowledged : Prop where
  /-- A write of `ICR0` clears the flags that are written as 1, and no other. -/
  icr0 : ∀ value, ∀ j < 14, (s.writeIcr0 value).tci j = (s.tci j && !(decide (j < 7) && value.getLsbD (24 + j)))
  /-- So does a write of `ICR1`. -/
  icr1 : ∀ value, ∀ j < 14, (s.writeIcr1 value).tci j = (s.tci j && !(decide (7 ≤ j) && value.getLsbD (24 + j % 7)))
  /-- Once nothing is pending, the master interrupt is clear until a channel completes. -/
  master : ∀ ms ms', (∀ m ∈ ms ++ ms', m.Quiet) → (run ms s).interruptPending = false →
    (run (ms ++ ms') s).masterInterrupted = false

variable {s}

theorem writeIcr0_tci (value : Uword) {j : ℕ} :
    (s.writeIcr0 value).tci j = (s.tci j && !(decide (j < 7) && value.getLsbD (24 + j))) := by
  unfold tci writeIcr0
  split_ifs with h
  · rw [getLsbD_acknowledge _ _ (by omega) (by omega), decide_eq_true h, Bool.true_and]
  · rw [decide_eq_false h, Bool.false_and, Bool.not_false, Bool.and_true]

theorem writeIcr1_tci (value : Uword) {j : ℕ} :
    (s.writeIcr1 value).tci j = (s.tci j && !(decide (7 ≤ j) && value.getLsbD (24 + j % 7))) := by
  unfold tci writeIcr1
  split_ifs with h
  · rw [decide_eq_false (by omega), Bool.false_and, Bool.not_false, Bool.and_true]
  · rw [getLsbD_acknowledge _ _ (by omega) (by omega), decide_eq_true (by omega), Bool.true_and]

/-! ### The master interrupt -/

theorem interruptPending_congr {s s' : IopDmac} (h0 : s'.icr0 = s.icr0) (h1 : s'.icr1 = s.icr1) :
    s'.interruptPending = s.interruptPending := by
  rw [interruptPending, interruptPending, h0, h1]

theorem masterInterrupted_setChannelTci (s : IopDmac) (k : Fin 13) (value : Uword) :
    (s.setChannelTci k value).masterInterrupted = s.masterInterrupted := by
  unfold setChannelTci masterInterrupted
  split_ifs with hk
  · exact (Bitfield.getLsbD_insertInto _ _ _ _ (by decide)).trans (if_neg (by simp only; omega))
  · rfl

/-- A channel that completes sets the master interrupt if an interrupt is pending then. -/
theorem masterInterrupted_setStateSuspended (s : IopDmac) (k : Fin 13) :
    (s.setStateSuspended k).masterInterrupted = (s.masterInterrupted || (s.setChannelTci k 1).interruptPending) := by
  have hpending :
      ((s.writeChcr k (IopDmacChcr.start.insertInto (s.channels k).chcr.w 0)).setChannelTci k 1).interruptPending =
      (s.setChannelTci k 1).interruptPending := by
    refine interruptPending_congr ?_ ?_ <;>
    · unfold setChannelTci
      split_ifs <;> rfl
  rw [setStateSuspended, handleInterruptCheck, hpending]
  split_ifs with h
  · rw [h, Bool.or_true]
    exact (Bitfield.getLsbD_insertInto_bit _ 31 31 (by decide)).trans (by simp)
  · rw [Bool.not_eq_true] at h
    rw [h, Bool.or_false, masterInterrupted_setChannelTci]
    rfl

/-- Nothing clears the master interrupt, and only a completion sets it. -/
theorem masterInterrupted_step (s : IopDmac) (m : Move) :
    (s.masterInterrupted = true → (m.step s).masterInterrupted = true) ∧
      (m.RaisesNone s → (m.step s).masterInterrupted = s.masterInterrupted) := by
  cases m with
  | complete k =>
    rw [Move.step, masterInterrupted_setStateSuspended]
    refine ⟨fun h => by rw [h, Bool.true_or], fun h => ?_⟩
    rw [show (s.setChannelTci k 1).interruptPending = false from h, Bool.or_false]
  | icr0 value =>
    have h : (s.writeIcr0 value).masterInterrupted = s.masterInterrupted := getLsbD_acknowledge_master _ _
    exact ⟨fun hs => h.trans hs, fun _ => h⟩
  | icr1 value => exact ⟨id, fun _ => rfl⟩
  | rest f => exact ⟨id, fun _ => rfl⟩

theorem raisesNone_of_quiet {m : Move} (h : m.Quiet) (s : IopDmac) : m.RaisesNone s := by
  cases m with
  | complete k => cases h
  | icr0 value => trivial
  | icr1 value => trivial
  | rest f => trivial

theorem masterInterrupted_run {ms : List Move} (h : s.masterInterrupted = true) : (run ms s).masterInterrupted = true := by
  induction ms generalizing s with
  | nil => exact h
  | cons m ms ih => exact ih ((masterInterrupted_step s m).1 h)

theorem masterInterrupted_run_of_quiet {ms : List Move} (h : ∀ m ∈ ms, m.Quiet) :
    (run ms s).masterInterrupted = s.masterInterrupted := by
  induction ms generalizing s with
  | nil => rfl
  | cons m ms ih =>
    have hm := raisesNone_of_quiet (h m List.mem_cons_self) s
    exact (ih fun m' hm' => h m' (List.mem_cons_of_mem m hm')).trans ((masterInterrupted_step s m).2 hm)

/-- Where a run leaves the master interrupt clear, no move has raised an interrupt. -/
theorem noneRaised_iff {ms : List Move} (h : s.masterInterrupted = false) :
    NoneRaised ms s ↔ (run ms s).masterInterrupted = false := by
  induction ms generalizing s with
  | nil => exact iff_of_true trivial h
  | cons m ms ih =>
    by_cases hm : m.RaisesNone s
    · exact (and_iff_right hm).trans (ih (((masterInterrupted_step s m).2 hm).trans h))
    · refine iff_of_false (fun hnone => hm hnone.1) ?_
      have hset : (m.step s).masterInterrupted = true := by
        cases m with
        | complete k =>
          rw [Move.RaisesNone, Bool.not_eq_false] at hm
          rw [Move.step, masterInterrupted_setStateSuspended, hm, Bool.or_true]
        | icr0 value => exact absurd trivial hm
        | icr1 value => exact absurd trivial hm
        | rest f => exact absurd trivial hm
      rw [Bool.not_eq_false]
      exact @masterInterrupted_run (m.step s) ms hset

/-- All flags written as 1, and the masks as 0. -/
theorem acknowledge_all (icr : Uword) : acknowledge .iop icr 0x7F000000 = icr &&& 0x80000000 := by
  have hlow : (0x7F000000 : Uword) &&& 0xFFFFFF = 0#32 := by decide
  have hflags : (0xFF000000 : Uword) &&& ~~~(0x7F000000 &&& 0x7F000000) = 0x80000000 := by decide
  rw [acknowledge, if_pos rfl, hlow, BitVec.or_zero, BitVec.and_assoc, hflags]

/-- Then no interrupt is pending. -/
theorem interruptPending_acknowledged (s : IopDmac) :
    (run [.icr0 0x7F000000, .icr1 0x7F000000] s).interruptPending = false := by
  have hcomplete (icr : Uword) : transferComplete (icr &&& 0x80000000) = false := by
    have hmask : (0x80000000 : Uword) &&& 0x7F0000 = 0#32 := by decide
    rw [transferComplete, BitVec.and_assoc, hmask, BitVec.and_zero, BitVec.zero_ushiftRight, BitVec.zero_and]
    rfl
  have herror : error.extractFrom (s.icr0 &&& 0x80000000) = 0 := by
    rw [error, Bitfield.extractFrom_bit_eq_zero_iff, BitVec.getLsbD_and]
    exact Bool.and_false _
  have hpending : interruptPending { s with icr0 := s.icr0 &&& 0x80000000, icr1 := s.icr1 &&& 0x80000000 } = false := by
    simp only [interruptPending, hcomplete, herror, ne_eq, not_true_eq_false, Bool.false_eq_true, false_and, or_self,
      decide_false]
  rw [← hpending]
  exact interruptPending_congr (acknowledge_all _) (acknowledge_all _)

/-- After any run, acknowledgement works as it should if and only if no completion has raised an interrupt so far. -/
theorem acknowledged_iff (s : IopDmac) (ms : List Move) :
    Acknowledged (run ms s.reset) ↔ NoneRaised ms s.reset := by
  have hreset : s.reset.masterInterrupted = false := BitVec.getLsbD_zero
  rw [noneRaised_iff hreset]
  constructor
  · intro h
    have hquiet : ∀ m ∈ [Move.icr0 0x7F000000, .icr1 0x7F000000] ++ [], m.Quiet := by
      simp [Move.Quiet]
    rw [← masterInterrupted_run_of_quiet hquiet]
    exact h.master _ _ hquiet (interruptPending_acknowledged _)
  · intro h
    refine ⟨fun value j _ => writeIcr0_tci value, fun value j _ => writeIcr1_tci value, fun ms₁ ms₂ hquiet _ => ?_⟩
    rw [masterInterrupted_run_of_quiet hquiet]
    exact h

/-- Channel 0 completes with its interrupt enabled, and the IOP clears both registers. -/
theorem master_stays_set : ¬∀ ms, Acknowledged (run ms quiet.reset) := by
  intro h
  have hquiet : ∀ m ∈ [Move.icr0 0x7F000000, .icr1 0x7F000000] ++ [], m.Quiet := by simp [Move.Quiet]
  have hmaster := (h [.icr0 0x00810000, .complete 0]).master _ _ hquiet (interruptPending_acknowledged _)
  exact absurd hmaster (by decide)

/-! ### Ticks are runs -/

/-- The turn leaves ICR0 and ICR1 alone, or completes the channel. -/
def Turned (k : Fin 13) (s s' : IopDmac) : Prop :=
  s' = s.setStateSuspended k ∨ s'.icr0 = s.icr0 ∧ s'.icr1 = s.icr1

theorem icr_setFifo (s : IopDmac) (f : IopFifo) (q : DmaFifoQueue) :
    (s.setFifo f q).icr0 = s.icr0 ∧ (s.setFifo f q).icr1 = s.icr1 := by cases f <;> exact ⟨rfl, rfl⟩

theorem turned_dataMoved {k : Fin 13} {s s' : IopDmac} (h : DataMoved s k s') : Turned k s s' := by
  cases h with
  | starved => exact .inr ⟨rfl, rfl⟩
  | blocked => exact .inr ⟨rfl, rfl⟩
  | received => exact .inr (icr_setFifo _ _ _)
  | sent => exact .inr (icr_setFifo _ _ _)

theorem turned_finish (s : IopDmac) (k : Fin 13) : Turned k s (s.finish k) := by
  unfold finish
  split_ifs
  · exact .inr ⟨rfl, rfl⟩
  · exact .inl rfl

theorem icr_tagRead {k : Fin 13} {s : IopDmac} {r : Bool × IopDmac} (h : TagRead s k r) :
    r.2.icr0 = s.icr0 ∧ r.2.icr1 = s.icr1 := by
  cases h with
  | waits => exact ⟨rfl, rfl⟩
  | source => exact icr_setFifo s _ _
  | dest => exact icr_setFifo s _ _

theorem turned_turn (s : IopDmac) (k : Fin 13) : Ensures (Turned k s) (s.turn k) := by
  refine ensures_turn s k (fun _ => .inr ⟨rfl, rfl⟩) fun _ _ s' h => ?_
  cases h with
  | startNormal => exact .inr ⟨rfl, rfl⟩
  | startChain => exact .inr ⟨rfl, rfl⟩
  | data _ _ hdata => exact turned_dataMoved hdata
  | ends => exact turned_finish s k
  | tag _ _ _ htag =>
    refine .inr ?_
    split
    · exact icr_tagRead htag
    · exact icr_tagRead htag

/-- A turn is a move. -/
theorem exists_move_of_turn {k : Fin 13} {s' : IopDmac} (h : s.turn k = .ok s') : ∃ m : Move, m.step s = s' := by
  rcases turned_turn s k s' h with rfl | ⟨h0, h1⟩
  · exact ⟨.complete k, rfl⟩
  · refine ⟨.rest fun _ => s', ?_⟩
    rw [Move.step, ← h0, ← h1]

/-- A tick is a run. -/
theorem exists_moves_of_timeStep {s' : IopDmac} (h : s.timeStep = .ok s') : ∃ ms, run ms s = s' := by
  have hloop (ks : List (Fin 13)) : ∀ t, ks.foldlM turn t = .ok s' → ∃ ms, run ms t = s' := by
    induction ks with
    | nil => exact fun t ht => ⟨[], Except.ok.inj ht⟩
    | cons k ks ih =>
      intro t ht
      rw [List.foldlM_cons] at ht
      obtain ⟨u, hu, hrest⟩ := bind_eq_ok_iff.mp ht
      obtain ⟨m, rfl⟩ := exists_move_of_turn hu
      obtain ⟨ms, hms⟩ := ih _ hrest
      exact ⟨m :: ms, hms⟩
  unfold timeStep at h
  split_ifs at h
  · exact ⟨[], Except.ok.inj h⟩
  · exact hloop _ s h

end Interrupts

end IopDmac

end Orbum
