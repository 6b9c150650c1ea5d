import Mathlib.Tactic.Simps.Basic
import Orbum.Common.Bitfield
import Orbum.Common.DmaFifoQueue

/-!
# Registers of the IOP serial interfaces

`Resources/Iop/Sio0/Sio0Registers.hpp` and `.cpp`, `Resources/Iop/Sio2/Sio2Registers.hpp` and `.cpp` and
`Sio2PortRegisters.hpp`: the SIO0 with its command and response queues, and the SIO2 in front of it with 16 ports.

## The model

The one-bit fields of the SIO0 registers are booleans. What the controllers have sent, received, answered and moved
is recorded beside the registers: the bytes written to the SIO0 and those moved from it since the start, and the
commands taken and responses made since the last reset of the SIO0. No step depends on it.
-/

namespace Orbum

/-! ### SIO0 -/

/-- `Sio0Register_Ctrl`. -/
structure Sio0Ctrl where
  /-- `RESET_IRQ`. -/
  resetIrq : Bool
  /-- `SIO_RESET`. -/
  sioReset : Bool
  /-- `ACK_INT_EN`. -/
  ackIntEn : Bool
  /-- `PORT`. -/
  port : Bool
  deriving DecidableEq

/-- `Sio0Register_Stat`. -/
structure Sio0Stat where
  /-- `TX_RDY1`. -/
  txRdy1 : Bool
  /-- `RX_NONEMPTY`. -/
  rxNonempty : Bool
  /-- `TX_RDY2`. -/
  txRdy2 : Bool
  /-- `DSR`. -/
  dsr : Bool
  /-- `IRQ`. -/
  irq : Bool
  deriving DecidableEq

/-- `RSio0`, with the two queues of `Sio0Register_Data`. -/
structure Sio0 where
  /-- `data.command_queue`. -/
  commandQueue : DmaFifoQueue
  /-- `data.response_queue`. -/
  responseQueue : DmaFifoQueue
  /-- `stat`. -/
  stat : Sio0Stat
  /-- `ctrl`. -/
  ctrl : Sio0Ctrl

namespace Sio0

/-- `Sio0Register_Data::initialize()`. -/
def initializeData (s : Sio0) : Sio0 := { s with commandQueue := .empty, responseQueue := .empty }

/-- `Sio0Register_Data::read_ubyte()`. -/
def readUbyte (s : Sio0) : Except HostError (Ubyte × Sio0) := do
  let (data, responseQueue) ← s.responseQueue.readUbyte
  return (data, { s with responseQueue, stat := { s.stat with rxNonempty := responseQueue.hasReadAvailable 1 } })

/-- `Sio0Register_Data::write_ubyte(data)`. -/
def writeUbyte (s : Sio0) (data : Ubyte) : Except HostError Sio0 := do
  let commandQueue ← s.commandQueue.writeUbyte data
  return { s with
    commandQueue, stat := { s.stat with txRdy1 := commandQueue.hasWriteAvailable 1, txRdy2 := false } }

end Sio0

/-! ### SIO2 -/

/-- `Sio2Register_Ctrl::Direction`. -/
inductive Sio2Direction where
  /-- To the SIO0. -/
  | tx
  /-- From the SIO0. -/
  | rx
  deriving DecidableEq

/-- `Sio2Register_Ctrl`. -/
structure Sio2Ctrl where
  /-- The register. -/
  w : Uword
  /-- `transfer_started`. -/
  transferStarted : Bool
  /-- `transfer_port`. -/
  transferPort : ℕ
  /-- `transfer_port_count`. -/
  transferPortCount : ℕ
  /-- `transfer_direction`. -/
  transferDirection : Sio2Direction
  /-- `write_latch`. -/
  writeLatch : Bool

namespace Sio2Ctrl

/-- `DIRECTION`. -/
def direction : Bitfield := ⟨0, 4⟩

/-- The direction a value of the register asks for. -/
def directionOf (w : Uword) : Except HostError Sio2Direction :=
  match (direction.extractFrom w &&& 0xF).toNat with
  | 0x1 | 0xD => .ok .rx
  | 0xC => .ok .tx
  | _ => .error (.runtimeError "Unknown SIO2 ctrl value")

/-- `get_direction()`. -/
def getDirection (c : Sio2Ctrl) : Except HostError Sio2Direction := directionOf c.w

/-- `byte_bus_write_uword(value)`. -/
def busWriteUword (c : Sio2Ctrl) (value : Uword) : Sio2Ctrl := { c with w := value, writeLatch := true }

end Sio2Ctrl

/-- `Sio2PortRegister_Ctrl3`. -/
structure Sio2PortCtrl3 where
  /-- The register. -/
  w : Uword
  /-- `write_latch`. -/
  writeLatch : Bool
  /-- `port_transfer_started`. -/
  portTransferStarted : Bool

namespace Sio2PortCtrl3

/-- `PADPORT`. -/
def padport : Bitfield := ⟨0, 1⟩
/-- `CMDLEN`. -/
def cmdlen : Bitfield := ⟨8, 9⟩
/-- `BUFSZ`. -/
def bufsz : Bitfield := ⟨18, 9⟩

/-- `byte_bus_write_uword(value)`. -/
def busWriteUword (p : Sio2PortCtrl3) (value : Uword) : Sio2PortCtrl3 := { p with w := value, writeLatch := true }

/-- `extract_field(CMDLEN)`. -/
def cmdLength (p : Sio2PortCtrl3) : ℕ := (cmdlen.extractFrom p.w).toNat

/-- `extract_field(BUFSZ)`. -/
def responseLength (p : Sio2PortCtrl3) : ℕ := (bufsz.extractFrom p.w).toNat

end Sio2PortCtrl3

/-! ### The serial interfaces -/

/-- The SIO0, the SIO2, their FIFO queues and their bits of `IopIntcRegister_Stat`. -/
structure Sio where
  /-- `sio0`. -/
  sio0 : Sio0
  /-- `sio2.ctrl`. -/
  ctrl : Sio2Ctrl
  /-- `sio2.ports[k].ctrl_3`, for `k` below 16. -/
  ports : ℕ → Sio2PortCtrl3
  /-- `fifo_tosio2`. -/
  fifoToSio2 : DmaFifoQueue
  /-- `fifo_fromsio2`. -/
  fifoFromSio2 : DmaFifoQueue
  /-- `SIO0` of `intc.stat`. -/
  intcSio0 : Bool
  /-- `SIO2` of `intc.stat`. -/
  intcSio2 : Bool
  /-- The bytes written to the SIO0. -/
  sent : List Ubyte
  /-- The commands the SIO0 has taken. -/
  received : List Ubyte
  /-- The responses it has made. -/
  responses : List Ubyte
  /-- The bytes moved to `fifo_fromsio2`. -/
  moved : List Ubyte
  /-- How often `SIO2` of `intc.stat` was set. -/
  raised : ℕ

namespace Sio

/-- Writes the SIO0. -/
@[simps] def setSio0 (s : Sio) (sio0 : Sio0) : Sio := { s with sio0 }

/-- Writes `sio2.ctrl`. -/
@[simps] def setCtrl (s : Sio) (ctrl : Sio2Ctrl) : Sio := { s with ctrl }

/-- Writes `sio2.ports[k].ctrl_3`. -/
@[simps] def setPort (s : Sio) (k : ℕ) (port : Sio2PortCtrl3) : Sio := { s with ports := Function.update s.ports k port }

/-- `sio2.ports[k].ctrl_3`. -/
def port (s : Sio) (k : ℕ) : Except HostError Sio2PortCtrl3 :=
  if k < 16 then .ok (s.ports k) else .error .outOfBounds

end Sio

end Orbum
