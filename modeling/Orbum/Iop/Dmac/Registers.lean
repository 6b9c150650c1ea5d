import Orbum.Common.Memory
import Orbum.Iop.Sio.Registers

/-!
# Registers of the IOP DMAC

`Resources/Iop/Dmac`: the tags, the channel registers and the channels, the common registers with the wrappers that
make one of each pair, and the queues `initialise_iop_dmac` in `RResources.cpp` gives the channels.

## The model

The channels SIF0, SIF1 and SIF2 also write `sbus_f240` and `sbus_f300` when they start, end or move data. Nothing
here reads these, and they are left out.

What channel 11 has read from memory and channel 12 has stored there is recorded beside the registers.
-/

namespace Orbum

/-! ### Tags -/

/-- `IopDmatag`. -/
structure IopDmatag where
  /-- Bits 0-31. -/
  tag0 : Uword
  /-- Bits 32-63. -/
  tag1 : Uword
  deriving DecidableEq

namespace IopDmatag

variable (t : IopDmatag)

/-- The blank tag. -/
def blank : IopDmatag := ⟨0, 0⟩

/-- `addr()`. -/
def addr : Uword := Bitfield.extractFrom ⟨0, 24⟩ t.tag0

/-- `irq()`. -/
def irq : Bool := 0 < Bitfield.extractFrom ⟨30, 1⟩ t.tag0

/-- `ert()`. -/
def ert : Bool := 0 < Bitfield.extractFrom ⟨31, 1⟩ t.tag0

/-- `length()`. -/
def length : ℕ := (Bitfield.extractFrom ⟨0, 24⟩ t.tag1).toNat

end IopDmatag

/-! ### Channel registers -/

/-- `IopDmacChannelRegister_Chcr`. -/
structure IopDmacChcr where
  /-- The register. -/
  w : Uword
  /-- `dma_started`. -/
  dmaStarted : Bool
  /-- `dma_tag`. -/
  dmaTag : IopDmatag
  deriving DecidableEq

namespace IopDmacChcr

/-- `TD`. -/
def td : Bitfield := ⟨0, 1⟩
/-- `MAS`. -/
def mas : Bitfield := ⟨1, 1⟩
/-- `CE`. -/
def ce : Bitfield := ⟨8, 1⟩
/-- `SM`. -/
def sm : Bitfield := ⟨9, 2⟩
/-- `START`. -/
def start : Bitfield := ⟨24, 1⟩

/-- `Direction`, relative to the FIFO. -/
inductive Direction where
  /-- From the FIFO to memory. -/
  | FROM
  /-- From memory to the FIFO. -/
  | TO
  deriving DecidableEq

/-- `LogicalMode`. -/
inductive LogicalMode where
  /-- `NORMAL_BURST`. -/
  | normalBurst
  /-- `NORMAL_SLICE`. -/
  | normalSlice
  /-- `LINKEDLIST`. -/
  | linkedList
  /-- `CHAIN`. -/
  | chain
  deriving DecidableEq

/-- The direction a value of the register gives. -/
def directionOf (w : Uword) : Direction := if td.extractFrom w = 0 then .FROM else .TO

variable (c : IopDmacChcr)

/-- `get_direction()`. -/
def direction : Direction := directionOf c.w

/-- `get_logical_mode()`. -/
def logicalMode : LogicalMode :=
  match (sm.extractFrom c.w).toNat with
  | 0 => .normalBurst
  | 1 => .normalSlice
  | 2 => .linkedList
  | _ => .chain

/-- `extract_field(START) > 0`. -/
def started : Bool := 0 < start.extractFrom c.w

/-- `IopDmacChannelRegister_Chcr::write_uword(value)`: a start clears what the last transfer left. -/
def writeUword (value : Uword) : IopDmacChcr :=
  if start.extractFrom c.w = 0 ∧ start.extractFrom value ≠ 0 then
    { w := value, dmaStarted := false, dmaTag := .blank }
  else { c with w := value }

/-- The channels of the IOP can be written as literals. -/
instance neZeroIopChannels : NeZero 13 := ⟨by decide⟩

/-- The value the register of channel `k` takes: `IopDmacChannelRegister_Chcr_To` and `_From` set the direction. -/
def forced (k : Fin 13) (value : Uword) : Uword :=
  if k = 9 then value ||| 1 else if k = 10 then value &&& ~~~1 else value

end IopDmacChcr

/-- `IopDmacChannel`. -/
structure IopDmacChannel where
  /-- `madr`. -/
  madr : Uword
  /-- `bcr`. -/
  bcr : Uword
  /-- `bcr.transfer_length`. -/
  transferLength : ℕ
  /-- `chcr`. -/
  chcr : IopDmacChcr
  /-- `tadr`, where the channel has one. -/
  tadr : Uword
  deriving DecidableEq

namespace IopDmacChannel

/-- `BS`. -/
def bs : Bitfield := ⟨0, 16⟩
/-- `BA`. -/
def ba : Bitfield := ⟨16, 16⟩

/-- A count of 0 stands for `0x10000`. -/
def orMax (n : Uword) : Uword := if n > 0 then n else 0x10000

/-- `bcr.calculate(use_blocks)`: the transfer length. -/
def calculate (useBlocks : Bool) (bcr : Uword) : ℕ :=
  if useBlocks then (orMax (ba.extractFrom bcr) * orMax (bs.extractFrom bcr)).toNat
  else (orMax (bs.extractFrom bcr)).toNat

/-- The registers after a word has been moved. -/
def advance (c : IopDmacChannel) : IopDmacChannel :=
  { c with
    madr := if IopDmacChcr.mas.extractFrom c.chcr.w = 0 then c.madr + 4 else c.madr - 4
    transferLength := c.transferLength - 1 }

/-- `channels[k].tadr` is not null: `initialise_iop_dmac` sets two of them. -/
def hasTadr (k : Fin 13) : Bool := k = 4 ∨ k = 9

end IopDmacChannel

/-! ### Queues -/

/-- The queues of `RResources` that the IOP DMAC serves. -/
inductive IopFifo where
  /-- `fifo_frommdec`. -/
  | frommdec
  /-- `fifo_tomdec`. -/
  | tomdec
  /-- `fifo_sif2`. -/
  | sif2
  /-- `fifo_cdvd`. -/
  | cdvd
  /-- `fifo_spu2c0`. -/
  | spu2c0
  /-- `fifo_pio`. -/
  | pio
  /-- `fifo_otclear`. -/
  | otclear
  /-- `fifo_spu2c1`. -/
  | spu2c1
  /-- `fifo_dev9`. -/
  | dev9
  /-- `fifo_sif0`. -/
  | sif0
  /-- `fifo_sif1`. -/
  | sif1
  /-- `fifo_fromsio2`. -/
  | fromsio2
  /-- `fifo_tosio2`. -/
  | tosio2
  deriving DecidableEq

/-- `channels[k].dma_fifo_queue`, as `initialise_iop_dmac` sets it. -/
def dmaFifoQueue : Fin 13 → IopFifo
  | 0 => .frommdec
  | 1 => .tomdec
  | 2 => .sif2
  | 3 => .cdvd
  | 4 => .spu2c0
  | 5 => .pio
  | 6 => .otclear
  | 7 => .spu2c1
  | 8 => .dev9
  | 9 => .sif0
  | 10 => .sif1
  | 11 => .fromsio2
  | 12 => .tosio2

/-! ### The controller -/

/-- `RIopDmac`, the memory and the queues its channels work on, and the serial interfaces. -/
structure IopDmac where
  /-- `gctrl`. -/
  gctrl : Uword
  /-- `pcr0`. -/
  pcr0 : Uword
  /-- `pcr1`. -/
  pcr1 : Uword
  /-- `icr0`. -/
  icr0 : Uword
  /-- `icr1`. -/
  icr1 : Uword
  /-- `channels`. -/
  channels : Fin 13 → IopDmacChannel
  /-- The memory of the IOP. -/
  memory : Memory
  /-- The queues, but for those of the SIO2. -/
  others : IopFifo → DmaFifoQueue
  /-- The SIO2 with its queues, and the SIO0. -/
  sio : Sio
  /-- `DMAC` of `intc.stat`. -/
  intcDmac : Bool
  /-- The bytes channel 11 has read from memory. -/
  read : List Ubyte
  /-- The bytes channel 12 has stored to memory. -/
  stored : List Ubyte

namespace IopDmac

variable (s : IopDmac) (k : Fin 13)

/-- Writes the registers of a channel. -/
@[simps] def setChannel (c : IopDmacChannel) : IopDmac := { s with channels := Function.update s.channels k c }

/-- A queue. -/
def fifo : IopFifo → DmaFifoQueue
  | .tosio2 => s.sio.fifoToSio2
  | .fromsio2 => s.sio.fifoFromSio2
  | f => s.others f

/-- Writes a queue. -/
def setFifo (f : IopFifo) (q : DmaFifoQueue) : IopDmac :=
  match f with
  | .tosio2 => { s with sio := { s.sio with fifoToSio2 := q } }
  | .fromsio2 => { s with sio := { s.sio with fifoFromSio2 := q } }
  | f => { s with others := Function.update s.others f q }

/-- `chcr->write_uword(value)`. -/
def writeChcr (value : Uword) : IopDmac :=
  s.setChannel k { s.channels k with chcr := (s.channels k).chcr.writeUword (IopDmacChcr.forced k value) }

/-- `pcrw.is_channel_enabled(channel)`. -/
def isChannelEnabled : Bool :=
  if k.val < 7 then 0 < Bitfield.extractFrom ⟨4 * k.val + 3, 1⟩ s.pcr0
  else 0 < Bitfield.extractFrom ⟨4 * (k.val % 7) + 3, 1⟩ s.pcr1

/-- `icrw.get_channel_iqe(channel)`. -/
def channelIqe : Uword := Bitfield.extractFrom ⟨k.val, 1⟩ s.icr1

/-- `icrw.set_channel_tci(channel, value)`. -/
def setChannelTci (value : Uword) : IopDmac :=
  if k.val < 7 then { s with icr0 := Bitfield.insertInto ⟨24 + k.val, 1⟩ s.icr0 value }
  else { s with icr1 := Bitfield.insertInto ⟨24 + k.val % 7, 1⟩ s.icr1 value }

/-- `MASTER_ENABLE` of `IopDmacRegister_Icr0`. -/
def masterEnable : Bitfield := ⟨23, 1⟩
/-- `ERROR_` of `IopDmacRegister_Icr0`. -/
def error : Bitfield := ⟨15, 1⟩
/-- `MASTER_INTERRUPT` of `IopDmacRegister_Icr0`. -/
def masterInterrupt : Bitfield := ⟨31, 1⟩

/-- A channel with its bit of `TCM` set has that of `TCI` set too. -/
def transferComplete (icr : Uword) : Bool := ((icr &&& 0x7F0000) >>> 16) &&& ((icr &&& 0x7F000000) >>> 24) ≠ 0

/-- The condition of `icrw.is_interrupt_pending_and_set_master()`. -/
def interruptPending : Bool :=
  ((transferComplete s.icr0 ∧ masterEnable.extractFrom s.icr0 ≠ 0) ∨ error.extractFrom s.icr0 ≠ 0) ∨
    (transferComplete s.icr1 ∧ masterEnable.extractFrom s.icr0 ≠ 0)

end IopDmac

end Orbum
