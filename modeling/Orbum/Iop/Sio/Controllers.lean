import Orbum.Iop.Sio.Registers

/-!
# The controllers of the IOP serial interfaces

`CSio2::time_step` and `CSio0::time_step`. The SIO2 starts a transfer when its `CTRL` has been written, and then
goes through its ports; it asks the SIO0 for a reset before it sends, which the SIO0 makes in its next step.
-/

namespace Orbum

namespace Sio

/-! ### `CSio2` -/

/-- `handle_sio0_reset()`. -/
def handleSio0Reset (s : Sio) : Sio := s.setSio0 { s.sio0 with ctrl := { s.sio0.ctrl with sioReset := true } }

/-- `handle_ctrl_check()`. -/
def handleCtrlCheck (s : Sio) : Except HostError Sio :=
  if s.ctrl.writeLatch ∧ ¬s.ctrl.transferStarted then do
    let transferDirection ← s.ctrl.getDirection
    let s := if transferDirection = .tx then s.handleSio0Reset else s
    return s.setCtrl
      { w := Sio2Ctrl.direction.insertInto s.ctrl.w 0
        transferStarted := true
        transferPort := 0
        transferPortCount := 0
        transferDirection
        writeLatch := false }
  else .ok s

/-- "Finished with this port, move on to next", when sending. -/
def finishPortTx (s : Sio) (length : ℕ) : Sio :=
  if s.ctrl.transferPortCount = length then
    s.setCtrl { s.ctrl with transferPort := s.ctrl.transferPort + 1, transferPortCount := 0 }
  else s

/-- "Finished with this port, move on to next", when receiving. -/
def finishPortRx (s : Sio) (length : ℕ) : Sio :=
  if s.ctrl.transferPortCount = length then
    (s.setPort s.ctrl.transferPort { s.ports s.ctrl.transferPort with portTransferStarted := false }).setCtrl
      { s.ctrl with transferPort := s.ctrl.transferPort + 1, transferPortCount := 0 }
  else s

/-- The pad port of the SIO0, set with the first byte of a port. -/
def setPadPort (s : Sio) (port : Sio2PortCtrl3) : Sio :=
  s.setSio0 { s.sio0 with ctrl := { s.sio0.ctrl with port := decide (Sio2PortCtrl3.padport.extractFrom port.w ≠ 0) } }

/-- A byte goes to the SIO0. -/
def sendByte (s : Sio) : Except HostError Sio := do
  let (data, fifoToSio2) ← s.fifoToSio2.readUbyte
  let sio0 ← s.sio0.writeUbyte data
  return { s with
    sio0, fifoToSio2, sent := s.sent ++ [data]
    ctrl := { s.ctrl with transferPortCount := s.ctrl.transferPortCount + 1 } }

/-- `transfer_data_tx()`. -/
def transferDataTx (s : Sio) : Except HostError Sio := do
  let port ← s.port s.ctrl.transferPort
  if s.ctrl.transferPortCount ≠ port.cmdLength then
    if ¬s.sio0.stat.txRdy1 then return s
    if ¬s.fifoToSio2.hasReadAvailable 1 then return s
    if s.ctrl.transferPortCount = 0 then
      if ¬s.sio0.stat.txRdy2 then return s
      return (← (s.setPadPort port).sendByte).finishPortTx port.cmdLength
    return (← s.sendByte).finishPortTx port.cmdLength
  return s.finishPortTx port.cmdLength

/-- A byte comes from the SIO0. -/
def receiveByte (s : Sio) : Except HostError Sio := do
  let (data, sio0) ← s.sio0.readUbyte
  let fifoFromSio2 ← s.fifoFromSio2.writeUbyte data
  return { s with
    sio0, fifoFromSio2, moved := s.moved ++ [data]
    ctrl := { s.ctrl with transferPortCount := s.ctrl.transferPortCount + 1 } }

/-- `transfer_data_rx()`. -/
def transferDataRx (s : Sio) : Except HostError Sio := do
  let port ← s.port s.ctrl.transferPort
  if s.ctrl.transferPortCount ≠ port.responseLength then
    if ¬s.fifoFromSio2.hasWriteAvailable 1 then return s
    if ¬s.sio0.stat.rxNonempty then return s
    return (← s.receiveByte).finishPortRx port.responseLength
  return s.finishPortRx port.responseLength

/-- "All data sent/received, stop transfering." -/
def stopTransfer (s : Sio) : Sio :=
  if s.ctrl.transferPort = 16 then
    let s := if s.ctrl.transferDirection = .rx then { s with intcSio2 := true, raised := s.raised + 1 } else s
    s.setCtrl { s.ctrl with transferStarted := false }
  else s

/-- `handle_port_trasnfer()` once the transfer of the port has started. -/
def transferData (s : Sio) : Except HostError Sio := do
  match s.ctrl.transferDirection with
  | .tx => return (← s.transferDataTx).stopTransfer
  | .rx => return (← s.transferDataRx).stopTransfer

/-- `handle_port_trasnfer()`. -/
def handlePortTrasnfer (s : Sio) : Except HostError Sio :=
  if ¬s.ctrl.transferStarted then .ok s
  else do
    let port ← s.port s.ctrl.transferPort
    if ¬port.portTransferStarted then
      if ¬port.writeLatch then return s
      (s.setPort s.ctrl.transferPort { port with portTransferStarted := true, writeLatch := false }).transferData
    else s.transferData

/-- `CSio2::time_step(ticks_available)`. -/
def sio2TimeStep (s : Sio) : Except HostError Sio := do (← s.handleCtrlCheck).handlePortTrasnfer

/-! ### `CSio0` -/

/-- `handle_reset_check()`. -/
def handleResetCheck (s : Sio) : Sio :=
  if s.sio0.ctrl.sioReset then
    { s.setSio0 { s.sio0.initializeData with
        ctrl := { s.sio0.ctrl with resetIrq := false, sioReset := false }
        stat := { s.sio0.stat with irq := false, txRdy1 := true } } with
      received := [], responses := [] }
  else s

/-- `handle_irq_check()`. -/
def handleIrqCheck (s : Sio) : Sio :=
  let s := if s.sio0.ctrl.resetIrq then
      s.setSio0 { s.sio0 with
        stat := { s.sio0.stat with irq := false }, ctrl := { s.sio0.ctrl with resetIrq := false } }
    else s
  let s := if s.sio0.ctrl.ackIntEn ∧ s.sio0.stat.dsr then
      s.setSio0 { s.sio0 with stat := { s.sio0.stat with irq := true } }
    else s
  if s.sio0.stat.irq then { s with intcSio0 := true } else s

/-- `handle_transfer()`. -/
def handleTransfer (s : Sio) : Except HostError Sio :=
  if ¬s.sio0.commandQueue.hasReadAvailable 1 then
    .ok (s.setSio0 { s.sio0 with stat := { s.sio0.stat with txRdy2 := true } })
  else if ¬s.sio0.responseQueue.hasWriteAvailable 1 then .ok s
  else do
    let (cmd, commandQueue) ← s.sio0.commandQueue.readUbyte
    let responseQueue ← s.sio0.responseQueue.writeUbyte 0
    return { s.setSio0 { s.sio0 with
        commandQueue, responseQueue, stat := { s.sio0.stat with rxNonempty := true } } with
      received := s.received ++ [cmd], responses := s.responses ++ [0] }

/-- `CSio0::time_step(ticks_available)`. -/
def sio0TimeStep (s : Sio) : Except HostError Sio := s.handleResetCheck.handleIrqCheck.handleTransfer

end Sio

end Orbum
