import Orbum.Common.Bitfield
import Orbum.Common.DmaFifoQueue
import Orbum.Lib.Lanes
import Orbum.Lib.LittleEndian
import Mathlib.Algebra.Group.Int.Defs
import Mathlib.Logic.Function.Basic

/-!
# The SPU2

`CSpu2.cpp`: in one tick each of the two cores may move a halfword from its FIFO to the memory of the SPU2, to the
address in TSA or, with auto DMA, to the buffers of the sound channels.

## The model

Of a core there is what its transfers use. An `int` is an integer whose range is checked where an operation may leave it.
-/

namespace Orbum

open LittleEndian

/-! ### Registers -/

/-- `Spu2CoreConstants::Spu2CoreInfo`. -/
structure Spu2CoreInfo where
  /-- `base_tsa_left`. -/
  baseTsaLeft : Uptr
  /-- `base_tsa_right`. -/
  baseTsaRight : Uptr

/-- `Spu2CoreConstants::SPU2_STATIC_INFO`. -/
def spu2StaticInfo (coreId : Fin 2) : Spu2CoreInfo :=
  if coreId.val = 0 then ⟨0x2000, 0x2200⟩ else ⟨0x2400, 0x2600⟩

/-- `Spu2CoreRegister_Attr`. -/
structure Spu2CoreRegisterAttr where
  /-- The register itself. -/
  value : Uhword
  /-- `dma_offset`, a `size_t`. -/
  dmaOffset : BitVec 64

namespace Spu2CoreRegisterAttr

/-- `DMABITS`. -/
def dmaBits : Bitfield := ⟨1, 3⟩

/-- `DMAMODE`. -/
def dmaMode : Bitfield := ⟨4, 2⟩

/-- `byte_bus_write_ubyte(context, offset, value)`, which `HwordRegister` passes on to the storage. -/
def busWriteUbyte (a : Spu2CoreRegisterAttr) (offset : Fin 2) (value : Ubyte) : Spu2CoreRegisterAttr :=
  { a with value := Lanes.setLane offset a.value value }

/-- `byte_bus_write_uhword(context, offset, value)`. -/
def busWriteUhword (a : Spu2CoreRegisterAttr) (context : BusContext) (value : Uhword) : Spu2CoreRegisterAttr :=
  { value, dmaOffset := if context = .iop then 0 else a.dmaOffset }

end Spu2CoreRegisterAttr

/-- `Spu2CoreRegister_Statx::DREQ`. -/
def Spu2CoreRegisterStatx.dreq : Bitfield := ⟨7, 1⟩

namespace Spu2CoreRegisterAdmas

/-- `set_adma_running(running)`. -/
def setAdmaRunning (admas : Uhword) (running : Bool) : Uhword := if running then admas &&& 0x3 else admas ||| ~~~0x3

/-- `is_adma_enabled()`. -/
def isAdmaEnabled (admas : Uhword) (coreId : Fin 2) : Bool := 0 < admas &&& (1 <<< coreId.val)

end Spu2CoreRegisterAdmas

/-- `Spu2Register_Spdif_Irqinfo::IRQ_KEYS[id]`. -/
def Spu2RegisterSpdifIrqinfo.irqKeys (coreId : Fin 2) : Bitfield := ⟨2 + coreId.val, 1⟩

/-- `Spu2Core_Base`. -/
structure Spu2Core where
  /-- `dma_fifo_queue`. -/
  dmaFifoQueue : DmaFifoQueue
  /-- `attr`. -/
  attr : Spu2CoreRegisterAttr
  /-- `admas`. -/
  admas : Uhword
  /-- `statx`. -/
  statx : Uhword
  /-- `irqah`. -/
  irqah : Uhword
  /-- `irqal`. -/
  irqal : Uhword
  /-- `tsah`. -/
  tsah : Uhword
  /-- `tsal`. -/
  tsal : Uhword

/-- `RSpu2`. -/
structure Spu2 where
  /-- `cores`, by `core_id`. -/
  cores : Fin 2 → Spu2Core
  /-- `spdif_irqinfo`. -/
  spdifIrqinfo : Uhword
  /-- `main_memory`, of halfwords. -/
  mainMemory : Uptr → Uhword

/-! ### Auto DMA addresses -/

/-- The `block` of `transfer_data_adma_write`, an `int`. -/
def admaBlock (dmaOffset : BitVec 64) : ℤ := ((dmaOffset / 0x100).setWidth 32).toInt

/-- The address that `transfer_data_adma_write` calculates, if its `int`s stay in range. -/
def admaAddress (coreId : Fin 2) (dmaOffset : BitVec 64) : Option Uptr :=
  let block := admaBlock dmaOffset
  let inLeftBlock : Bool := block.tmod 2 = 0
  let blocks := if inLeftBlock then block.tdiv 2 else block.tdiv 2 + 1
  if blocks * 0x100 < -2 ^ 31 ∨ 2 ^ 31 ≤ blocks * 0x100 then none
  else
    let channelOffset := (dmaOffset - BitVec.ofInt 64 (blocks * 0x100)) % 0x400
    if inLeftBlock then some ((spu2StaticInfo coreId).baseTsaLeft + channelOffset.setWidth 32)
    else some ((spu2StaticInfo coreId).baseTsaRight + channelOffset.setWidth 32)

namespace Spu2

open Spu2CoreRegisterAttr Spu2CoreRegisterAdmas Spu2CoreRegisterStatx Spu2RegisterSpdifIrqinfo

variable (s : Spu2) (c : Fin 2)

/-- The SPU2 with one core replaced. -/
def setCore (core : Spu2Core) : Spu2 := { s with cores := Function.update s.cores c core }

/-- `write_hword_memory(spu2_core, address, value)`. -/
def writeHwordMemory (address : Uptr) (value : Uhword) : Spu2 :=
  let core := s.cores c
  let irqAddr : Uptr := (core.irqah.setWidth 32 <<< 16) ||| core.irqal.setWidth 32
  { s with
    spdifIrqinfo := if irqAddr = address then (irqKeys c).insertInto s.spdifIrqinfo 1 else s.spdifIrqinfo
    mainMemory := Function.update s.mainMemory address value }

/-- `transfer_data_adma_write(spu2_core)`: the number of halfwords moved. -/
def transferDataAdmaWrite : Except HostFault (ℕ × Spu2) :=
  let core := s.cores c
  if !core.dmaFifoQueue.hasReadAvailable 2 then
    .ok (0, s.setCore c
      { core with admas := setAdmaRunning core.admas false, statx := dreq.insertInto core.statx 1 })
  else do
    let r ← (core.dmaFifoQueue.read 2).mapError .throws
    let core : Spu2Core := { core with
      dmaFifoQueue := r.2
      admas := setAdmaRunning core.admas true
      statx := dreq.insertInto core.statx 0 }
    let address ← (admaAddress c core.attr.dmaOffset).elim (.error .undefined) .ok
    let core' : Spu2Core := { core with attr := { core.attr with dmaOffset := core.attr.dmaOffset + 1 } }
    return (1, ((s.setCore c core).writeHwordMemory c address (ofBytes 16 r.1)).setCore c core')

/-- `transfer_data_mdma_write(spu2_core)`: the number of halfwords moved. -/
def transferDataMdmaWrite : Except HostFault (ℕ × Spu2) :=
  let core := s.cores c
  if !core.dmaFifoQueue.hasReadAvailable 2 then
    .ok (0, s.setCore c { core with statx := dreq.insertInto core.statx 1 })
  else do
    let r ← (core.dmaFifoQueue.read 2).mapError .throws
    let core : Spu2Core := { core with dmaFifoQueue := r.2, statx := dreq.insertInto core.statx 0 }
    let tsalAddr : Uptr := (core.tsah.setWidth 32 <<< 16) ||| core.tsal.setWidth 32
    let address : Uptr := ((tsalAddr.setWidth 64 + core.attr.dmaOffset) % 0x100000).setWidth 32
    let core' : Spu2Core := { core with attr := { core.attr with dmaOffset := core.attr.dmaOffset + 1 } }
    return (1, ((s.setCore c core).writeHwordMemory c address (ofBytes 16 r.1)).setCore c core')

/-- `handle_dma_transfer(spu2_core)`: whether there was a transfer. -/
def handleDmaTransfer : Except HostFault (Bool × Spu2) :=
  let core := s.cores c
  let mode := dmaMode.extractFrom core.attr.value
  if 0 < dmaBits.extractFrom core.attr.value then
    .error (.throws (.runtimeError "SPU2 ATTR DMABITS field set to non-zero. What is this for?"))
  else if mode = 0 then
    if isAdmaEnabled core.admas c then do
      let r ← s.transferDataAdmaWrite c
      return (0 < r.1, r.2)
    else .ok (false, s)
  else if mode = 1 then
    if isAdmaEnabled core.admas c then
      .error (.throws (.runtimeError ("SPU2 ADMA read not yet implemented. Look into the ATTR.DMAMODE bits, as this " ++
        "might be incorrectly called.")))
    else .ok (false, s)
  else if mode = 2 then do
    let r ← s.transferDataMdmaWrite c
    return (0 < r.1, r.2)
  else
    .error (.throws (.runtimeError ("SPU2 MDMA read not yet implemented. Look into the ATTR.DMAMODE bits, as this " ++
      "might be incorrectly called.")))

end Spu2

end Orbum
