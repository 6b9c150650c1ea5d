import Orbum.Iop.Dmac.ChainTurn

/-!
# Whether a turn of a chain moves something

A turn of a channel in chain mode starts the transfer, or the chain has ended, or else it moves a tag or a word if the
queue has what it takes, and nothing if not. `ChainTurn` says what is moved; here is when.
-/

namespace Orbum

open LittleEndian

namespace IopDmac

/-- The last tag ends the transfer, and its data has been moved. -/
def ChainEnded (s : IopDmac) (k : Fin 13) : Prop :=
  (s.channels k).chcr.dmaStarted = true ∧ (s.channels k).transferLength = 0 ∧
    ((s.channelIqe k > 0 ∧ (s.channels k).chcr.dmaTag.irq) ∨ (s.channels k).chcr.dmaTag.ert)

instance (s : IopDmac) (k : Fin 13) : Decidable (s.ChainEnded k) := inferInstanceAs (Decidable (_ ∧ _ ∧ _))

/-- The bytes that are next: a word of the data, or else a tag. -/
def need (c : IopDmacChannel) : ℕ := if 0 < c.transferLength then 4 else 16

/-- What a turn of a chain does. -/
inductive ChainStep (k : Fin 13) (s s' : IopDmac) : Prop where
  /-- It starts the transfer. -/
  | starts : (s.channels k).chcr.dmaStarted = false → s' = s.startTransfer k 0 → ChainStep k s s'
  /-- The chain has ended. -/
  | ended : s.ChainEnded k → s'.ChainEnded k → s'.fifo (dmaFifoQueue k) = s.fifo (dmaFifoQueue k) → ChainStep k s s'
  /-- The queue has not what it takes. -/
  | waits : (s.channels k).chcr.dmaStarted = true → ¬s.ChainEnded k →
      (s.channels k).chcr.direction.ready (s.fifo (dmaFifoQueue k)) (need (s.channels k)) = false → s' = s →
      ChainStep k s s'
  /-- It moves a tag or a word. -/
  | moves : (s.channels k).chcr.dmaStarted = true → ¬s.ChainEnded k →
      (s.channels k).chcr.direction.ready (s.fifo (dmaFifoQueue k)) (need (s.channels k)) = true →
      (s'.channels k).chcr.w = (s.channels k).chcr.w → (s'.channels k).chcr.dmaStarted = true →
      (s'.fifo (dmaFifoQueue k)).bytes.length ≠ (s.fifo (dmaFifoQueue k)).bytes.length → ChainStep k s s'

variable {s s' : IopDmac} {k l : Fin 13}

/-! ### The interrupts of the channels -/

theorem channelIqe_finish (s : IopDmac) (l k : Fin 13) : (s.finish l).channelIqe k = s.channelIqe k := by
  have htci (s : IopDmac) : (s.setChannelTci l 1).channelIqe k = s.channelIqe k := by
    unfold setChannelTci channelIqe
    split_ifs
    · rfl
    · refine Bitfield.extractFrom_insertInto_of_disjoint _ _ ?_
      revert k l
      decide
  have hcheck (s : IopDmac) : s.handleInterruptCheck.channelIqe k = s.channelIqe k := by
    unfold handleInterruptCheck
    split_ifs <;> rfl
  unfold finish
  split_ifs
  · rfl
  · exact (hcheck _).trans (htci _)

/-- No turn changes for which channels a tag ends the transfer with an interrupt. -/
theorem channelIqe_turn (s : IopDmac) (l k : Fin 13) : Ensures (fun s' => s'.channelIqe k = s.channelIqe k) (s.turn l) := by
  have hmoved {s' : IopDmac} (h : s'.icr1 = s.icr1) : s'.channelIqe k = s.channelIqe k := by
    rw [channelIqe, channelIqe, h]
  have hfifo (s : IopDmac) (f : IopFifo) (q : DmaFifoQueue) : (s.setFifo f q).icr1 = s.icr1 := by cases f <;> rfl
  refine ensures_turn s l (fun _ => rfl) fun _ _ s' h => ?_
  cases h with
  | startNormal => rfl
  | startChain => rfl
  | data _ _ hdata =>
    cases hdata with
    | starved => rfl
    | blocked => rfl
    | received => exact hmoved (hfifo ..)
    | sent => exact hmoved (hfifo ..)
  | ends => exact channelIqe_finish s l k
  | tag _ _ _ htag =>
    cases htag with
    | waits => rfl
    | source => exact hmoved (hfifo ..)
    | dest => exact hmoved (hfifo ..)

/-! ### A turn -/

end IopDmac

end Orbum
