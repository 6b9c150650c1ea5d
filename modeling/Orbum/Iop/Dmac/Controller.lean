import Orbum.Iop.Dmac.Registers

/-!
# The IOP DMAC

`CIopDmac::time_step`: every channel that is enabled and started gets a turn, in which it moves a word, reads a tag
or ends its transfer. The transfer functions say whether they did something; `time_step` does not look at it.
-/

namespace Orbum

open LittleEndian

namespace IopDmac

variable (s : IopDmac) (k : Fin 13)

/-! ### Helper functions -/

/-- `handle_interrupt_check()`. -/
def handleInterruptCheck : IopDmac :=
  if s.interruptPending then { s with icr0 := masterInterrupt.insertInto s.icr0 1, intcDmac := true } else s

/-- `set_state_suspended(channel)`. -/
def setStateSuspended : IopDmac :=
  ((s.writeChcr k (IopDmacChcr.start.insertInto (s.channels k).chcr.w 0)).setChannelTci k 1).handleInterruptCheck

/-- The channel has moved a word. -/
def advance : IopDmac := s.setChannel k (s.channels k).advance

/-- `transfer_data(channel)`. -/
def transferData : Except HostError IopDmac :=
  match (s.channels k).chcr.direction with
  | .FROM =>
    if ¬(s.fifo (dmaFifoQueue k)).hasReadAvailable 4 then .ok s
    else do
      let (packet, q) ← (s.fifo (dmaFifoQueue k)).read 4
      let memory ← s.memory.writeUword (s.channels k).madr (ofBytes 32 packet)
      let stored := if k = 12 then s.stored ++ packet else s.stored
      return ({ s with memory, stored }.setFifo (dmaFifoQueue k) q).advance k
  | .TO =>
    if ¬(s.fifo (dmaFifoQueue k)).hasWriteAvailable 4 then .ok s
    else do
      let packet ← s.memory.readUword (s.channels k).madr
      let q ← (s.fifo (dmaFifoQueue k)).write (bytes 4 packet)
      let read := if k = 11 then s.read ++ bytes 4 packet else s.read
      return ({ s with read }.setFifo (dmaFifoQueue k) q).advance k

/-- The transfer ends, when the peripheral has received the data. -/
def finish : IopDmac :=
  if (s.channels k).chcr.direction = .TO ∧ ¬(s.fifo (dmaFifoQueue k)).isEmpty then s else s.setStateSuspended k

/-! ### Chain mode -/

/-- `channel.tadr->read_uword()`. -/
def tadr : Except HostError Uword :=
  if IopDmacChannel.hasTadr k then .ok (s.channels k).tadr else .error .nullPointer

/-- The tag is taken on. -/
def setTag (tag : IopDmatag) (transferLength : ℕ) : IopDmac :=
  s.setChannel k { s.channels k with chcr := { (s.channels k).chcr with dmaTag := tag }, transferLength }

/-- `channel.madr->write_uword(channel.chcr->dma_tag.addr())`. -/
def setTagAddr : IopDmac := s.setChannel k { s.channels k with madr := (s.channels k).chcr.dmaTag.addr }

/-- `read_chain_source_tag(channel)`: whether a tag was read. -/
def readChainSourceTag : Except HostError (Bool × IopDmac) := do
  let tadr ← s.tadr k
  let uw0 ← s.memory.readUword tadr
  let uw1 ← s.memory.readUword (tadr + 4)
  let uw2 ← s.memory.readUword (tadr + 8)
  let uw3 ← s.memory.readUword (tadr + 12)
  if IopDmacChcr.ce.extractFrom (s.channels k).chcr.w > 0 then
    if ¬(s.fifo (dmaFifoQueue k)).hasWriteAvailable 16 then return (false, s)
    let q ← (s.fifo (dmaFifoQueue k)).write (bytes 4 uw2 ++ bytes 4 uw3 ++ List.replicate 8 0)
    let s := (s.setFifo (dmaFifoQueue k) q).setTag k ⟨uw0, uw1⟩ (((⟨uw0, uw1⟩ : IopDmatag).length + 3) &&& 0xFFFFC)
    return (true, s.setChannel k { s.channels k with tadr := tadr + 16 })
  throw (.runtimeError "IOP DMAC source chain mode had TTE set to 0 - what is meant to happen?")

/-- `read_chain_dest_tag(channel)`: whether a tag was read. -/
def readChainDestTag : Except HostError (Bool × IopDmac) :=
  if ¬(s.fifo (dmaFifoQueue k)).hasReadAvailable 16 then .ok (false, s)
  else do
    let (packet, q) ← (s.fifo (dmaFifoQueue k)).read 16
    let tag : IopDmatag := ⟨ofBytes 32 (packet.take 4), ofBytes 32 ((packet.drop 4).take 4)⟩
    if IopDmacChcr.ce.extractFrom (s.channels k).chcr.w = 0 then
      throw (.runtimeError "IOP DMAC dest chain mode had TTE set to 0 - what is meant to happen?")
    return (true, (s.setFifo (dmaFifoQueue k) q).setTag k tag tag.length)

/-- The tag, from where the direction of the channel says. -/
def readChainTag : Except HostError (Bool × IopDmac) :=
  match (s.channels k).chcr.direction with
  | .TO => s.readChainSourceTag k
  | .FROM => s.readChainDestTag k

/-! ### Transfers -/

/-- The channel starts, with a length to transfer. -/
def startTransfer (transferLength : ℕ) : IopDmac :=
  s.setChannel k
    { s.channels k with transferLength, chcr := { (s.channels k).chcr with dmaStarted := true } }

/-- `transfer_normal_burst` and `transfer_normal_slice` have the same body, but for what `calculate` is told. -/
def transferNormal (useBlocks : Bool) : Except HostError IopDmac :=
  if ¬(s.channels k).chcr.dmaStarted then
    .ok (s.startTransfer k (IopDmacChannel.calculate useBlocks (s.channels k).bcr))
  else if (s.channels k).transferLength = 0 then .ok (s.finish k)
  else s.transferData k

/-- `transfer_normal_burst(channel)`. -/
def transferNormalBurst : Except HostError IopDmac := s.transferNormal k false

/-- `transfer_normal_slice(channel)`. -/
def transferNormalSlice : Except HostError IopDmac := s.transferNormal k true

/-- `transfer_chain(channel)`. -/
def transferChain : Except HostError IopDmac :=
  if ¬(s.channels k).chcr.dmaStarted then .ok (s.startTransfer k 0)
  else if (s.channels k).transferLength > 0 then s.transferData k
  else if (s.channelIqe k > 0 ∧ (s.channels k).chcr.dmaTag.irq) ∨ (s.channels k).chcr.dmaTag.ert then
    .ok (s.finish k)
  else do
    let (read, s) ← s.readChainTag k
    return if read then s.setTagAddr k else s

/-- What `time_step` does with a channel. -/
def turn : Except HostError IopDmac :=
  if s.isChannelEnabled k ∧ (s.channels k).chcr.started then
    match (s.channels k).chcr.logicalMode with
    | .normalBurst => s.transferNormalBurst k
    | .normalSlice => s.transferNormalSlice k
    | .linkedList => .error (.runtimeError "IOP DMAC linked list mode not implemented.")
    | .chain => s.transferChain k
  else .ok s

/-- `time_step(ticks_available)`. -/
def timeStep : Except HostError IopDmac :=
  if s.gctrl = 0 then .ok s else (List.finRange 13).foldlM turn s

end IopDmac

end Orbum
