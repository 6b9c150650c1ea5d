import Orbum.Ee.Dmac.ChainTurn

/-!
# Whether a turn of a chain moves something

A turn of a channel in chain mode starts the transfer, or the chain has ended, or else it moves a tag or a quadword if
the FIFO has what it takes, and nothing if not. `ChainTurn` says what is moved; here is when.
-/

namespace Orbum

open LittleEndian

/-- What the DMAC asks of the FIFO before it moves `n` bytes. -/
def EeDmacChcr.Direction.ready (queue : DmaFifoQueue) (n : ℕ) : EeDmacChcr.Direction → Bool
  | .TO => queue.hasWriteAvailable n
  | .FROM => queue.hasReadAvailable n

namespace EeDmacTurn

open EeDmacChcr

/-- Whether the transfer is started, as CHCR and the flag beside it say. -/
structure SameStart (t t' : EeDmacTurn) : Prop where
  /-- `STR`. -/
  str : str.extractFrom t'.chcr.w = str.extractFrom t.chcr.w
  /-- `dma_started`. -/
  dmaStarted : t'.chcr.dmaStarted = t.chcr.dmaStarted

variable {t t' t'' : EeDmacTurn} {queue : DmaFifoQueue}

theorem SameStart.refl (t : EeDmacTurn) : SameStart t t := ⟨rfl, rfl⟩

theorem SameStart.trans (h : SameStart t t') (h' : SameStart t' t'') : SameStart t t'' :=
  ⟨h'.str.trans h.str, h'.dmaStarted.trans h.dmaStarted⟩

/-- The last tag ends the transfer, and its data has been moved. -/
def ChainEnded (t : EeDmacTurn) : Prop := t.chcr.dmaStarted = true ∧ t.qwc = 0 ∧ t.chainExit = true

/-- What a turn of a chain does with `queue` in the FIFO. -/
inductive ChainStep (t : EeDmacTurn) (queue : DmaFifoQueue) (t' : EeDmacTurn) : Prop where
  /-- It starts the transfer. -/
  | starts : t.chcr.dmaStarted = false → t' = { t with chcr := { t.chcr with dmaStarted := true } } →
      ChainStep t queue t'
  /-- The chain has ended. -/
  | ended : t.ChainEnded → t'.ChainEnded → t'.dmaFifoQueue = t.dmaFifoQueue → ChainStep t queue t'
  /-- The FIFO has not what it takes. -/
  | waits : t.chcr.dmaStarted = true → ¬t.ChainEnded → t.chcr.direction.ready queue 16 = false → t' = t →
      ChainStep t queue t'
  /-- It moves a tag or a quadword. -/
  | moves {queue' : DmaFifoQueue} : t.chcr.dmaStarted = true → ¬t.ChainEnded →
      t.chcr.direction.ready queue 16 = true → SameStart t t' → t'.dmaFifoQueue = some queue' →
      queue'.bytes.length ≠ queue.bytes.length → ChainStep t queue t'

end EeDmacTurn

end Orbum
