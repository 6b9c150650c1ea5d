import Orbum.Ee.Dmac.ChainProgress
import Orbum.Lib.Progress
import Orbum.Sif.Packets

/-!
# Progress on the SIF

Both controllers work through a chain, on one queue. While neither is switched off, a round in which each has a tick
moves a symbol, unless the queue holds up both: then one of the chains has ended, as is seen for each direction of the
queue from how much it holds.
-/

namespace Orbum.Sif

open EeDmacChcr EeDmacCtrl

/-! ### What a side can do -/

/-- A side of the SIF. -/
inductive Side where
  /-- The EE. -/
  | ee
  /-- The IOP. -/
  | iop

/-- Whose tick a move is. -/
def Move.side : Move → Option Side
  | .eeTick => some .ee
  | .iopTick => some .iop
  | .memories _ _ => none

/-- The EE starts, or its chain has not ended and the queue has what it takes. -/
def EeCan (i : Fin 10) (k : Fin 13) (s : Sif) : Prop :=
  (s.ee.channels i).chcr.dmaStarted = false ∨
    ¬(s.ee.turn i).ChainEnded ∧ (s.ee.channels i).chcr.direction.ready (s.iop.fifo (dmaFifoQueue k)) 16 = true

/-- The IOP starts, or its chain has not ended and the queue has what it takes. -/
def IopCan (k : Fin 13) (s : Sif) : Prop :=
  (s.iop.channels k).chcr.dmaStarted = false ∨ ¬s.iop.ChainEnded k ∧
    (s.iop.channels k).chcr.direction.ready (s.iop.fifo (dmaFifoQueue k)) (IopDmac.need (s.iop.channels k)) = true

/-- A side can do something. -/
def Side.can (i : Fin 10) (k : Fin 13) (s : Sif) : Side → Prop
  | .ee => EeCan i k s
  | .iop => IopCan k s

/-- Nothing but the queue holds the two channels up. -/
structure Goes (i : Fin 10) (k : Fin 13) (s : Sif) : Prop where
  /-- The DMAC of the EE is enabled. -/
  eeEnabled : dmae.extractFrom s.ee.ctrl ≠ 0
  /-- The channel of the EE is not the drain of the stall control. -/
  notDrain : i.val ≠ stdMap (std.extractFrom s.ee.ctrl).toNat
  /-- It is started, if its chain has not ended. -/
  eeStarted : str.extractFrom (s.ee.channels i).chcr.w ≠ 0 ∨ (s.ee.turn i).ChainEnded
  /-- The DMAC of the IOP is enabled. -/
  iopEnabled : s.iop.gctrl ≠ 0
  /-- The channel of the IOP is enabled. -/
  channelEnabled : s.iop.isChannelEnabled k = true
  /-- It is started, if its chain has not ended. -/
  iopStarted : (s.iop.channels k).chcr.started = true ∨ s.iop.ChainEnded k

/-- The transfers that have been started. -/
def transfers (i : Fin 10) (k : Fin 13) (s : Sif) : ℕ :=
  (s.ee.channels i).chcr.dmaStarted.toNat + (s.iop.channels k).chcr.dmaStarted.toNat

variable {i : Fin 10} {k : Fin 13} {s s' : Sif}

theorem transfers_le (i : Fin 10) (k : Fin 13) (s : Sif) : transfers i k s ≤ 2 :=
  Nat.add_le_add (Bool.toNat_le _) (Bool.toNat_le _)

theorem chainEnded_ee (h : s'.ee.channels i = s.ee.channels i) :
    (s'.ee.turn i).ChainEnded ↔ (s.ee.turn i).ChainEnded := by
  have hturn : (s'.ee.turn i).toEeDmacChannel = (s.ee.turn i).toEeDmacChannel := h
  rw [EeDmacTurn.ChainEnded, EeDmacTurn.ChainEnded, EeDmacTurn.chainExit, EeDmacTurn.chainExit, hturn]

theorem chainEnded_iop (h : s'.iop.channels k = s.iop.channels k) (hiqe : s'.iop.channelIqe k = s.iop.channelIqe k) :
    s'.iop.ChainEnded k ↔ s.iop.ChainEnded k := by
  rw [IopDmac.ChainEnded, IopDmac.ChainEnded, h, hiqe]

theorem eeCan_congr (h : s'.ee.channels i = s.ee.channels i)
    (hqueue : s'.iop.fifo (dmaFifoQueue k) = s.iop.fifo (dmaFifoQueue k)) : EeCan i k s' ↔ EeCan i k s := by
  rw [EeCan, EeCan, chainEnded_ee h, h, hqueue]

theorem iopCan_congr (h : s'.iop.channels k = s.iop.channels k) (hiqe : s'.iop.channelIqe k = s.iop.channelIqe k)
    (hqueue : s'.iop.fifo (dmaFifoQueue k) = s.iop.fifo (dmaFifoQueue k)) : IopCan k s' ↔ IopCan k s := by
  rw [IopCan, IopCan, chainEnded_iop h hiqe, h, hqueue]

theorem Apart.can (h : Apart i k s s') (side : Side) : side.can i k s' ↔ side.can i k s := by
  cases side with
  | ee => exact eeCan_congr h.eeChannel h.queue
  | iop => exact iopCan_congr h.iopChannel h.channelIqe h.queue

theorem Apart.transfers (h : Apart i k s s') : transfers i k s' = transfers i k s := by
  rw [Sif.transfers, Sif.transfers, h.eeChannel, h.iopChannel]

/-- Once its chain has ended, the EE can do nothing. -/
theorem not_eeCan_of_ended (h : (s.ee.turn i).ChainEnded) : ¬EeCan i k s := by
  rintro (hnot | ⟨hgo, -⟩)
  · exact absurd (hnot.symm.trans h.1) (by decide)
  · exact hgo h

/-- Nor can it while the queue does not have what it takes. -/
theorem not_eeCan_of_not_ready (hon : (s.ee.channels i).chcr.dmaStarted = true)
    (hready : (s.ee.channels i).chcr.direction.ready (s.iop.fifo (dmaFifoQueue k)) 16 = false) : ¬EeCan i k s := by
  rintro (hnot | ⟨-, hcan⟩)
  · exact absurd (hnot.symm.trans hon) (by decide)
  · exact absurd (hready.symm.trans hcan) (by decide)

/-- Once its chain has ended, the IOP can do nothing. -/
theorem not_iopCan_of_ended (h : s.iop.ChainEnded k) : ¬IopCan k s := by
  rintro (hnot | ⟨hgo, -⟩)
  · exact absurd (hnot.symm.trans h.1) (by decide)
  · exact hgo h

/-- Nor can it while the queue does not have what it takes. -/
theorem not_iopCan_of_not_ready (hon : (s.iop.channels k).chcr.dmaStarted = true)
    (hready : (s.iop.channels k).chcr.direction.ready (s.iop.fifo (dmaFifoQueue k)) (IopDmac.need (s.iop.channels k)) =
      false) : ¬IopCan k s := by
  rintro (hnot | ⟨-, hcan⟩)
  · exact absurd (hnot.symm.trans hon) (by decide)
  · exact absurd (hready.symm.trans hcan) (by decide)

/-- If the controllers stay as they are, the channels have to go on. -/
theorem Goes.of_sameControl (h : Goes i k s) (hsame : SameControl k s s')
    (hee : str.extractFrom (s'.ee.channels i).chcr.w ≠ 0 ∨ (s'.ee.turn i).ChainEnded)
    (hiop : (s'.iop.channels k).chcr.started = true ∨ s'.iop.ChainEnded k) : Goes i k s' where
  eeEnabled := by
    rw [hsame.ctrl]
    exact h.eeEnabled
  notDrain := by
    rw [hsame.ctrl]
    exact h.notDrain
  eeStarted := hee
  iopEnabled := by
    rw [hsame.enabled.1]
    exact h.iopEnabled
  channelEnabled := by
    rw [IopDmac.isChannelEnabled, hsame.enabled.2.1, hsame.enabled.2.2]
    exact h.channelEnabled
  iopStarted := hiop

theorem Goes.apart (h : Goes i k s) (hapart : Apart i k s s') : Goes i k s' := by
  refine h.of_sameControl hapart.toSameControl ?_ ?_
  · rw [chainEnded_ee hapart.eeChannel, hapart.eeChannel]
    exact h.eeStarted
  · rw [chainEnded_iop hapart.iopChannel hapart.channelIqe, hapart.iopChannel]
    exact h.iopStarted

/-- Both channels work through a chain, and each symbol that one of them moves is recorded. -/
structure Notes.Chains {Λ : Type} (notes : Notes Λ) (I : Sif → Λ → Prop) (size : Λ → ℕ) : Prop extends notes.Keeps I where
  /-- What a turn of the channel of the EE does. -/
  eeStep : ∀ s log, I s log → Goes notes.eeChannel notes.iopChannel s →
    Ensures (EeDmacTurn.ChainStep (s.ee.turn notes.eeChannel) (s.iop.fifo (dmaFifoQueue notes.iopChannel)))
      (s.ee.turn notes.eeChannel).channelTurn
  /-- What a turn of the channel of the IOP does. -/
  iopStep : ∀ s log, I s log → Goes notes.eeChannel notes.iopChannel s →
    Ensures (IopDmac.ChainStep notes.iopChannel s.iop) (s.iop.turn notes.iopChannel)
  /-- What a turn of the channel of the EE adds to the record. -/
  eeSize : ∀ s s' log, I s log → s.eeTurn notes.eeChannel = .ok s' →
    size (notes.ee s s' log) = size log + if Moved (dmaFifoQueue notes.iopChannel) s s' then 1 else 0
  /-- What a turn of the channel of the IOP adds to the record. -/
  iopSize : ∀ s s' log, I s log → s.iopTurn notes.iopChannel = .ok s' →
    size (notes.iop s s' log) = size log + if Moved (dmaFifoQueue notes.iopChannel) s s' then 1 else 0

/-- The turn of a side, from `n` to `n'` symbols in the record. -/
inductive Acts (i : Fin 10) (k : Fin 13) (side : Side) (s s' : Sif) (n n' : ℕ) : Prop where
  /-- It does something. -/
  | does : side.can i k s → n + transfers i k s < n' + transfers i k s' → Acts i k side s s' n n'
  /-- It can do nothing. -/
  | rests : ¬side.can i k s → (∀ side' : Side, side'.can i k s' ↔ side'.can i k s) →
      n' + transfers i k s' = n + transfers i k s → Acts i k side s s' n n'

section Turns

variable {Λ : Type} {notes : Notes Λ} {I : Sif → Λ → Prop} {size : Λ → ℕ} {log : Λ}

theorem Notes.Chains.eeTurn (h : notes.Chains I size) (hI : I s log) (hgoes : Goes notes.eeChannel notes.iopChannel s)
    (hturn : s.eeTurn notes.eeChannel = .ok s') :
    Goes notes.eeChannel notes.iopChannel s' ∧
      Acts notes.eeChannel notes.iopChannel .ee s s' (size log) (size (notes.ee s s' log)) := by
  have hlink := h.linked s log hI
  have hsame := sameControl_eeTurn (k := notes.iopChannel) s notes.eeChannel s' hturn
  obtain ⟨t, ht, hchannel, -, hiop, hqueue⟩ := eeTurn_ok hturn hlink
  have hiopChannel : s'.iop.channels notes.iopChannel = s.iop.channels notes.iopChannel := congrFun hiop _
  have hstarted : (s'.iop.channels notes.iopChannel).chcr.started = true ∨ s'.iop.ChainEnded notes.iopChannel := by
    rw [chainEnded_iop hiopChannel hsame.channelIqe, hiopChannel]
    exact hgoes.iopStarted
  have hflags : (s'.ee.channels notes.eeChannel).chcr = t.chcr := congrArg _ hchannel
  have hended : (s'.ee.turn notes.eeChannel).ChainEnded ↔ t.ChainEnded := by
    have hturn : (s'.ee.turn notes.eeChannel).toEeDmacChannel = t.toEeDmacChannel := hchannel
    rw [EeDmacTurn.ChainEnded, EeDmacTurn.ChainEnded, EeDmacTurn.chainExit, EeDmacTurn.chainExit, hturn]
  have hsize := h.eeSize s s' log hI hturn
  -- a turn that moves nothing leaves the queue as it is
  have hfifo (h : t.dmaFifoQueue = (s.ee.turn notes.eeChannel).dmaFifoQueue) :
      s'.iop.fifo (dmaFifoQueue notes.iopChannel) = s.iop.fifo (dmaFifoQueue notes.iopChannel) :=
    hqueue _ (h.trans hlink.queue)
  cases h.eeStep s log hI hgoes t ht with
  | starts hnot heq =>
    subst heq
    rw [if_neg (not_moved (hfifo rfl))] at hsize
    refine ⟨hgoes.of_sameControl hsame (.imp ?_ ?_ hgoes.eeStarted) hstarted, .does (.inl hnot) ?_⟩
    · rw [hflags]
      exact id
    · exact fun hend => absurd (hnot.symm.trans hend.1) (by decide)
    · have hnot : (s.ee.channels notes.eeChannel).chcr.dmaStarted = false := hnot
      rw [hsize, transfers, transfers, hflags, hiopChannel, hnot]
      change size log + (0 + _) < size log + 0 + (1 + _)
      omega
  | ended hend hend' hq =>
    have hfifo := hfifo hq
    rw [if_neg (not_moved hfifo)] at hsize
    have hflag : (s.ee.channels notes.eeChannel).chcr.dmaStarted = true := hend.1
    have hnot : ¬EeCan notes.eeChannel notes.iopChannel s := not_eeCan_of_ended hend
    have hnot' : ¬EeCan notes.eeChannel notes.iopChannel s' := not_eeCan_of_ended (hended.mpr hend')
    refine ⟨hgoes.of_sameControl hsame (.inr (hended.mpr hend')) hstarted, .rests hnot (fun side => ?_) ?_⟩
    · cases side with
      | ee => exact iff_of_false hnot' hnot
      | iop => exact iopCan_congr hiopChannel hsame.channelIqe hfifo
    · rw [hsize, transfers, transfers, hflags, hend'.1, hflag, hiopChannel]
      rfl
  | waits hon hgo hready heq =>
    subst heq
    have hapart : Apart notes.eeChannel notes.iopChannel s s' := ⟨hsame, hchannel, hiopChannel, hfifo rfl⟩
    rw [if_neg (not_moved (hfifo rfl))] at hsize
    refine ⟨hgoes.apart hapart, .rests (not_eeCan_of_not_ready hon hready) hapart.can ?_⟩
    rw [hsize, hapart.transfers]
    rfl
  | @moves queue' hon hgo hready hstart hq hlength =>
    have hmoved : Moved (dmaFifoQueue notes.iopChannel) s s' := by
      rw [Moved, hqueue _ hq]
      exact hlength
    rw [if_pos hmoved] at hsize
    have hstr := hgoes.eeStarted.resolve_right hgo
    refine ⟨hgoes.of_sameControl hsame (.inl ?_) hstarted, .does (.inr ⟨hgo, hready⟩) ?_⟩
    · rw [hflags, hstart.str]
      exact hstr
    · have hflag : t.chcr.dmaStarted = (s.ee.channels notes.eeChannel).chcr.dmaStarted := hstart.dmaStarted
      rw [hsize, transfers, transfers, hflags, hflag, hiopChannel]
      omega

theorem Notes.Chains.iopTurn (h : notes.Chains I size) (hI : I s log) (hgoes : Goes notes.eeChannel notes.iopChannel s)
    (hturn : s.iopTurn notes.iopChannel = .ok s') :
    Goes notes.eeChannel notes.iopChannel s' ∧
      Acts notes.eeChannel notes.iopChannel .iop s s' (size log) (size (notes.iop s s' log)) := by
  have hlink := h.linked s log hI
  have hsame := sameControl_iopTurn (k := notes.iopChannel) s notes.iopChannel s' hturn
  obtain ⟨ht, hchannel⟩ := iopTurn_ok hturn hlink
  have hflags : (s'.ee.channels notes.eeChannel).chcr = (s.ee.channels notes.eeChannel).chcr := by rw [hchannel]
  have hended : (s'.ee.turn notes.eeChannel).ChainEnded ↔ (s.ee.turn notes.eeChannel).ChainEnded := by
    have hturn : (s'.ee.turn notes.eeChannel).toEeDmacChannel =
        { s.ee.channels notes.eeChannel with dmaFifoQueue := some (s'.iop.fifo (dmaFifoQueue notes.iopChannel)) } := hchannel
    rw [EeDmacTurn.ChainEnded, EeDmacTurn.ChainEnded, EeDmacTurn.chainExit, EeDmacTurn.chainExit, hturn]
    rfl
  have heeStarted : EeDmacChcr.str.extractFrom (s'.ee.channels notes.eeChannel).chcr.w ≠ 0 ∨
      (s'.ee.turn notes.eeChannel).ChainEnded := by
    rw [hflags, hended]
    exact hgoes.eeStarted
  -- a turn that moves nothing leaves the channel of the EE as it is
  have hee (hfifo : s'.iop.fifo (dmaFifoQueue notes.iopChannel) = s.iop.fifo (dmaFifoQueue notes.iopChannel)) :
      s'.ee.channels notes.eeChannel = s.ee.channels notes.eeChannel := by
    rw [hchannel, hfifo, ← hlink.queue]
  have hsize := h.iopSize s s' log hI hturn
  cases h.iopStep s log hI hgoes _ ht with
  | starts hnot heq =>
    have hfifo : s'.iop.fifo (dmaFifoQueue notes.iopChannel) = s.iop.fifo (dmaFifoQueue notes.iopChannel) := by
      rw [heq]
      exact IopDmac.fifo_setChannel ..
    have hchcr : (s'.iop.channels notes.iopChannel).chcr =
        { (s.iop.channels notes.iopChannel).chcr with dmaStarted := true } := by
      rw [heq, IopDmac.startTransfer, IopDmac.setChannel_channels, Function.update_self]
    rw [if_neg (not_moved hfifo)] at hsize
    refine ⟨hgoes.of_sameControl hsame heeStarted (.imp ?_ ?_ hgoes.iopStarted), .does (.inl hnot) ?_⟩
    · rw [hchcr]
      exact id
    · exact fun hend => absurd (hnot.symm.trans hend.1) (by decide)
    · rw [hsize, transfers, transfers, hflags, hchcr, hnot]
      change size log + (_ + 0) < size log + 0 + (_ + 1)
      omega
  | ended hend hend' hfifo =>
    rw [if_neg (not_moved hfifo)] at hsize
    have hnot : ¬IopCan notes.iopChannel s := not_iopCan_of_ended hend
    have hnot' : ¬IopCan notes.iopChannel s' := not_iopCan_of_ended hend'
    refine ⟨hgoes.of_sameControl hsame heeStarted (.inr hend'), .rests hnot (fun side => ?_) ?_⟩
    · cases side with
      | ee => exact eeCan_congr (hee hfifo) hfifo
      | iop => exact iff_of_false hnot' hnot
    · rw [hsize, transfers, transfers, hflags, hend'.1, hend.1]
      rfl
  | waits hon hgo hready heq =>
    have hfifo : s'.iop.fifo (dmaFifoQueue notes.iopChannel) = s.iop.fifo (dmaFifoQueue notes.iopChannel) := by rw [heq]
    have hapart : Apart notes.eeChannel notes.iopChannel s s' := ⟨hsame, hee hfifo, by rw [heq], hfifo⟩
    rw [if_neg (not_moved hfifo)] at hsize
    refine ⟨hgoes.apart hapart, .rests (not_iopCan_of_not_ready hon hready) hapart.can ?_⟩
    rw [hsize, hapart.transfers]
    rfl
  | moves hon hgo hready hw hon' hlength =>
    have hmoved : Moved (dmaFifoQueue notes.iopChannel) s s' := hlength
    rw [if_pos hmoved] at hsize
    have hstarted := hgoes.iopStarted.resolve_right hgo
    refine ⟨hgoes.of_sameControl hsame heeStarted (.inl ?_), .does (.inr ⟨hgo, hready⟩) ?_⟩
    · rw [IopDmacChcr.started, hw]
      exact hstarted
    · rw [hsize, transfers, transfers, hflags, hon, hon']
      omega

end Turns

/-! ### Rounds of ticks -/

namespace Watched

variable {Λ : Type} {notes : Notes Λ} {I : Sif → Λ → Prop} {size : Λ → ℕ} {w w' : Watched Λ}

/-- The side can do something. -/
def can (notes : Notes Λ) (side : Side) (w : Watched Λ) : Prop := side.can notes.eeChannel notes.iopChannel w.toSif

/-- What has been done: the symbols in the record, and the transfers started. -/
def done (notes : Notes Λ) (size : Λ → ℕ) (w : Watched Λ) : ℕ :=
  size w.log + transfers notes.eeChannel notes.iopChannel w.toSif

/-- What holds of a run in which nothing but the queue holds the channels up. -/
def Going (notes : Notes Λ) (I : Sif → Λ → Prop) (w : Watched Λ) : Prop :=
  I w.toSif w.log ∧ Goes notes.eeChannel notes.iopChannel w.toSif

theorem rests_of_apart (size : Λ → ℕ) (w w' : Watched Λ) (h : Apart notes.eeChannel notes.iopChannel w.toSif w'.toSif)
    (hlog : w'.log = w.log) : Progress.Rests (can notes) (done notes size) [none] w w' where
  counted := by rw [done, done, h.transfers, hlog]
  able := h.can
  cannot _ hk := nomatch List.mem_singleton.mp hk

theorem of_acts {side : Side}
    (h : Acts notes.eeChannel notes.iopChannel side w.toSif w'.toSif (size w.log) (size w'.log)) :
    Progress.Does (can notes) (done notes size) w w' ∨ Progress.Rests (can notes) (done notes size) [some side] w w' := by
  cases h with
  | does hcan hlt => exact .inl ⟨⟨side, hcan⟩, hlt⟩
  | rests hcannot hable hcounted =>
    refine .inr ⟨hcounted, hable, fun k hk => ?_⟩
    obtain rfl := Option.some.inj (List.mem_singleton.mp hk)
    exact hcannot

/-- A turn of a channel: the one of the SIF acts, and the others leave all of it alone. -/
theorem of_turn {side : Side} {own : Prop} [Decidable own] {s : Sif} {log : Λ} (hw : Going notes I w)
    (hI : I s (if own then log else w.log))
    (hown : own → Goes notes.eeChannel notes.iopChannel s ∧
      Acts notes.eeChannel notes.iopChannel side w.toSif s (size w.log) (size log))
    (hother : ¬own → Apart notes.eeChannel notes.iopChannel w.toSif s) :
    Going notes I ⟨s, if own then log else w.log⟩ ∧
      (Progress.Does (can notes) (done notes size) w ⟨s, if own then log else w.log⟩ ∨
        Progress.Rests (can notes) (done notes size) [if own then some side else none] w
          ⟨s, if own then log else w.log⟩) := by
  by_cases h : own
  · obtain ⟨hgoes, hacts⟩ := hown h
    rw [if_pos h] at hI
    rw [if_pos h, if_pos h]
    exact ⟨⟨hI, hgoes⟩, of_acts hacts⟩
  · have hapart := hother h
    rw [if_neg h] at hI
    rw [if_neg h, if_neg h]
    exact ⟨⟨hI, hw.2.apart hapart⟩, .inr (rests_of_apart size w ⟨s, w.log⟩ hapart rfl)⟩

/-- The turns of the channels of the EE. -/
theorem rules_eeTurn (h : notes.Chains I size) :
    Progress.Rules (fun i w => eeTurn notes w i) (fun i => if i = notes.eeChannel then some Side.ee else none)
      (Going notes I) (can notes) (done notes size) := by
  have hturn (i : Fin 10) (w w' : Watched Λ) (hw : Going notes I w) (hstep : eeTurn notes w i = .ok w') :
      Going notes I w' ∧ (Progress.Does (can notes) (done notes size) w w' ∨
        Progress.Rests (can notes) (done notes size) [if i = notes.eeChannel then some Side.ee else none] w w') := by
    have hI := keeps_eeTurn h.toKeeps w i hw.1 w' hstep
    obtain ⟨s, hs, hstep⟩ := bind_eq_ok_iff.mp hstep
    obtain rfl := Except.ok.inj hstep
    refine of_turn hw hI (fun hi => ?_) fun hi => apart_eeTurn hi (h.linked _ _ hw.1) s hs
    subst hi
    exact h.eeTurn hw.1 hw.2 hs
  exact ⟨fun i w w' hw hstep => (hturn i w w' hw hstep).1, fun i w w' hw hstep => (hturn i w w' hw hstep).2⟩

/-- The turns of the channels of the IOP. -/
theorem rules_iopTurn (h : notes.Chains I size) :
    Progress.Rules (fun k w => iopTurn notes w k) (fun k => if k = notes.iopChannel then some Side.iop else none)
      (Going notes I) (can notes) (done notes size) := by
  have hturn (k : Fin 13) (w w' : Watched Λ) (hw : Going notes I w) (hstep : iopTurn notes w k = .ok w') :
      Going notes I w' ∧ (Progress.Does (can notes) (done notes size) w w' ∨
        Progress.Rests (can notes) (done notes size) [if k = notes.iopChannel then some Side.iop else none] w w') := by
    have hI := keeps_iopTurn h.toKeeps w k hw.1 w' hstep
    obtain ⟨s, hs, hstep⟩ := bind_eq_ok_iff.mp hstep
    obtain rfl := Except.ok.inj hstep
    refine of_turn hw hI (fun hk => ?_) fun hk => apart_iopTurn hk (h.linked _ _ hw.1) s hs
    subst hk
    exact h.iopTurn hw.1 hw.2 hs
  exact ⟨fun k w w' hw hstep => (hturn k w w' hw hstep).1, fun k w w' hw hstep => (hturn k w w' hw hstep).2⟩

/-- A tick gives every channel its turn. -/
theorem run_eq_foldlM {ι : Type} (turn : Watched Λ → ι → Except HostError (Watched Λ)) (l : List ι) (w : Watched Λ) :
    Run.run (fun i w => turn w i) l w = l.foldlM turn w := by
  induction l generalizing w with
  | nil => rfl
  | cons i l ih =>
    rw [List.foldlM_cons, Run.run]
    exact congrArg _ (funext ih)

/-- The moves. -/
theorem rules_step (h : notes.Chains I size) :
    Progress.Rules (step notes) Move.side (Going notes I) (can notes) (done notes size) := by
  have hturn (m : Move) (w w' : Watched Λ) (hw : Going notes I w) (hstep : step notes m w = .ok w') :
      Going notes I w' ∧ (Progress.Does (can notes) (done notes size) w w' ∨
        Progress.Rests (can notes) (done notes size) [m.side] w w') := by
    cases m with
    | eeTick =>
      change w.eeTick notes = .ok w' at hstep
      rw [eeTick, if_neg hw.2.eeEnabled] at hstep
      obtain ⟨w₁, hturns, hstep⟩ := bind_eq_ok_iff.mp hstep
      rw [EeDmac.handleInterruptCheck_eq] at hstep
      obtain rfl := Except.ok.inj hstep
      rw [← run_eq_foldlM] at hturns
      have hgoing := Run.invariant_run (rules_eeTurn h).keeps hw hturns
      have hapart := apart_cause w₁.toSif notes.eeChannel notes.iopChannel
        (w₁.ee.cause.withLine 3 (EeDmacStat.isInterruptPending w₁.ee.stat))
      have hcause := rests_of_apart size w₁
        { w₁ with ee := { w₁.ee with cause := w₁.ee.cause.withLine 3 (EeDmacStat.isInterruptPending w₁.ee.stat) } }
        hapart rfl
      refine ⟨⟨h.apart _ _ _ hapart hgoing.1, hgoing.2.apart hapart⟩, ?_⟩
      rcases (rules_eeTurn h).run hw hturns with hdoes | hrests
      · exact .inl (hdoes.trans (.inr hcause))
      · refine .inr ((hrests.trans hcause).sub fun side hside => ?_)
        obtain rfl : side = .ee := Option.some.inj (List.mem_singleton.mp hside)
        exact List.mem_append_left _ (List.mem_map.mpr ⟨notes.eeChannel, List.mem_finRange _, if_pos rfl⟩)
    | iopTick =>
      change w.iopTick notes = .ok w' at hstep
      rw [iopTick, if_neg hw.2.iopEnabled, ← run_eq_foldlM] at hstep
      refine ⟨Run.invariant_run (rules_iopTurn h).keeps hw hstep, ?_⟩
      refine ((rules_iopTurn h).run hw hstep).imp id fun hrests => hrests.sub fun side hside => ?_
      obtain rfl : side = .iop := Option.some.inj (List.mem_singleton.mp hside)
      exact List.mem_map.mpr ⟨notes.iopChannel, List.mem_finRange _, if_pos rfl⟩
    | memories ee iop =>
      obtain rfl := Except.ok.inj hstep
      have hapart := apart_memories w.toSif notes.eeChannel notes.iopChannel ee iop
      exact ⟨⟨h.apart _ _ _ hapart hw.1, hw.2.apart hapart⟩, .inr (rests_of_apart size w
        { w with ee := { w.ee with memory := ee }, iop := { w.iop with memory := iop } } hapart rfl)⟩
  exact ⟨fun m w w' hw hstep => (hturn m w w' hw hstep).1, fun m w w' hw hstep => (hturn m w w' hw hstep).2⟩

/-- In every round in which both controllers have a tick a symbol is moved or a transfer started, until neither can do
anything more. -/
theorem rounds (h : notes.Chains I size) {rounds : List (List Move)} (hw : Going notes I w)
    (hfair : ∀ as ∈ rounds, Move.eeTick ∈ as ∧ Move.iopTick ∈ as) (hrun : Run.run (step notes) rounds.flatten w = .ok w') :
    rounds.length ≤ size w'.log + 2 ∨ ∀ side, ¬can notes side w' := by
  have hagents : ∀ as ∈ rounds, ∀ side, some side ∈ as.map Move.side := by
    intro as has side
    cases side with
    | ee => exact List.mem_map.mpr ⟨.eeTick, (hfair as has).1, rfl⟩
    | iop => exact List.mem_map.mpr ⟨.iopTick, (hfair as has).2, rfl⟩
  refine ((rules_step h).rounds hw hagents hrun).imp (fun hle => ?_) id
  have hmost := transfers_le notes.eeChannel notes.iopChannel w'.toSif
  rw [done, done] at hle
  omega

end Watched

end Orbum.Sif
