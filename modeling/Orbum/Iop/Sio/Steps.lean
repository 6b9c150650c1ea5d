import Orbum.Iop.Sio.Controllers

/-!
# Steps of the IOP serial interfaces

What one step of each controller does, case by case. A step of the SIO0 makes the reset it is asked for, keeps up
the interrupt, and answers a command. A step of the SIO2 starts a transfer that is asked for, and then moves a byte,
goes to the next port, or waits.
-/

namespace Orbum

namespace Sio

variable {s s' : Sio}

/-! ### Steps of the SIO0 -/

/-- What a step of the SIO0 leaves alone. -/
structure Sio0Frame (s s' : Sio) : Prop where
  /-- `sio2.ctrl`. -/
  ctrl : s'.ctrl = s.ctrl
  /-- `sio2.ports`. -/
  ports : s'.ports = s.ports
  /-- `fifo_tosio2`. -/
  fifoToSio2 : s'.fifoToSio2 = s.fifoToSio2
  /-- `fifo_fromsio2`. -/
  fifoFromSio2 : s'.fifoFromSio2 = s.fifoFromSio2
  /-- What is sent. -/
  sent : s'.sent = s.sent
  /-- What is moved. -/
  moved : s'.moved = s.moved
  /-- The interrupts of the SIO2. -/
  raised : s'.raised = s.raised ∧ s'.intcSio2 = s.intcSio2

/-- What is left after the irq check is what was there before, but for the interrupt of the SIO0. -/
structure IrqFrame (s s' : Sio) : Prop extends Sio0Frame s s' where
  /-- The queues. -/
  queues : s'.sio0.commandQueue = s.sio0.commandQueue ∧ s'.sio0.responseQueue = s.sio0.responseQueue
  /-- The other bits of `STAT`. -/
  stat : s'.sio0.stat.txRdy1 = s.sio0.stat.txRdy1 ∧ s'.sio0.stat.txRdy2 = s.sio0.stat.txRdy2 ∧
    s'.sio0.stat.rxNonempty = s.sio0.stat.rxNonempty
  /-- `SIO_RESET`. -/
  reset : s'.sio0.ctrl.sioReset = s.sio0.ctrl.sioReset
  /-- The commands and responses. -/
  recorded : s'.received = s.received ∧ s'.responses = s.responses

theorem irqFrame_handleIrqCheck (s : Sio) : IrqFrame s s.handleIrqCheck := by
  unfold handleIrqCheck
  dsimp only
  split_ifs <;> exact ⟨⟨rfl, rfl, rfl, rfl, rfl, rfl, rfl, rfl⟩, ⟨rfl, rfl⟩, ⟨rfl, rfl, rfl⟩, rfl, rfl, rfl⟩

theorem sio0Frame_handleResetCheck (s : Sio) : Sio0Frame s s.handleResetCheck := by
  unfold handleResetCheck
  split_ifs <;> exact ⟨rfl, rfl, rfl, rfl, rfl, rfl, rfl, rfl⟩

theorem reset_handleResetCheck (s : Sio) : s.handleResetCheck.sio0.ctrl.sioReset = false := by
  unfold handleResetCheck
  split_ifs with h
  · rfl
  · exact Bool.eq_false_iff.mpr h

theorem Sio0Frame.trans {s s' s'' : Sio} (h : Sio0Frame s s') (h' : Sio0Frame s' s'') : Sio0Frame s s'' :=
  ⟨h'.ctrl.trans h.ctrl, h'.ports.trans h.ports, h'.fifoToSio2.trans h.fifoToSio2,
    h'.fifoFromSio2.trans h.fifoFromSio2, h'.sent.trans h.sent, h'.moved.trans h.moved,
    h'.raised.1.trans h.raised.1, h'.raised.2.trans h.raised.2⟩

/-- What `handle_transfer()` does. -/
inductive Transfers (s : Sio) : Sio → Prop where
  /-- There is no command. -/
  | ready : s.sio0.commandQueue.bytes = [] →
      Transfers s (s.setSio0 { s.sio0 with stat := { s.sio0.stat with txRdy2 := true } })
  /-- There is no room for a response. -/
  | full : s.sio0.commandQueue.bytes ≠ [] → 1024 ≤ s.sio0.responseQueue.bytes.length → Transfers s s
  /-- A command is answered. -/
  | answer {cmd commandQueue responseQueue} : s.sio0.commandQueue.bytes = cmd :: commandQueue.bytes →
      responseQueue.bytes = s.sio0.responseQueue.bytes ++ [0] → Transfers s
      { s.setSio0 { s.sio0 with commandQueue, responseQueue, stat := { s.sio0.stat with rxNonempty := true } } with
        received := s.received ++ [cmd], responses := s.responses ++ [0] }

theorem handleTransfer_eq (s : Sio) : ∃ s', s.handleTransfer = .ok s' ∧ Transfers s s' := by
  unfold handleTransfer
  by_cases hread : s.sio0.commandQueue.hasReadAvailable 1
  · rw [if_neg (by simp [hread])]
    rw [DmaFifoQueue.hasReadAvailable_iff] at hread
    obtain ⟨cmd, rest, hbytes⟩ := List.exists_cons_of_length_pos hread
    by_cases hwrite : s.sio0.responseQueue.hasWriteAvailable 1
    · rw [if_neg (by simp [hwrite])]
      rw [DmaFifoQueue.hasWriteAvailable_iff] at hwrite
      obtain ⟨commandQueue, hcmd, hrest⟩ := DmaFifoQueue.readUbyte_of_cons hbytes
      obtain ⟨responseQueue, hresponse, hresponses⟩ := DmaFifoQueue.writeUbyte_of_lt hwrite 0
      refine ⟨_, ?_, .answer (hrest ▸ hbytes) hresponses⟩
      simp only [hcmd, hresponse, ok_bind, pure_eq_ok]
    · rw [if_pos (by simp [hwrite])]
      rw [DmaFifoQueue.hasWriteAvailable_iff] at hwrite
      exact ⟨s, rfl, .full (by simp [hbytes]) (by omega)⟩
  · rw [if_pos (by simp [hread])]
    rw [DmaFifoQueue.hasReadAvailable_iff, Nat.not_le, Nat.lt_one_iff, List.length_eq_zero_iff] at hread
    exact ⟨_, rfl, .ready hread⟩

theorem Transfers.frame (h : Transfers s s') : Sio0Frame s s' := by
  cases h <;> exact ⟨rfl, rfl, rfl, rfl, rfl, rfl, rfl, rfl⟩

theorem Transfers.reset (h : Transfers s s') : s'.sio0.ctrl.sioReset = s.sio0.ctrl.sioReset := by cases h <;> rfl

/-- A step of the SIO0: the reset, the interrupt, and the transfer. -/
theorem sio0TimeStep_eq (s : Sio) :
    ∃ q s', s.sio0TimeStep = .ok s' ∧ IrqFrame s.handleResetCheck q ∧ Transfers q s' := by
  obtain ⟨s', hs', htransfer⟩ := handleTransfer_eq s.handleResetCheck.handleIrqCheck
  exact ⟨_, s', hs', irqFrame_handleIrqCheck _, htransfer⟩

theorem sio0TimeStep_frame (h : s.sio0TimeStep = .ok s') : Sio0Frame s s' := by
  obtain ⟨q, t, ht, hirq, htransfer⟩ := sio0TimeStep_eq s
  obtain rfl := Except.ok.inj (ht.symm.trans h)
  exact ((sio0Frame_handleResetCheck s).trans hirq.toSio0Frame).trans htransfer.frame

/-! ### The start of a transfer -/

/-- The next step of the SIO2 starts a transfer. -/
def Starts (s : Sio) : Prop := s.ctrl.writeLatch = true ∧ s.ctrl.transferStarted = false

instance (s : Sio) : Decidable s.Starts := inferInstanceAs (Decidable (_ ∧ _))

/-- `sio2.ctrl` after the start of a transfer. -/
def startCtrl (s : Sio) (transferDirection : Sio2Direction) : Sio2Ctrl where
  w := Sio2Ctrl.direction.insertInto s.ctrl.w 0
  transferStarted := true
  transferPort := 0
  transferPortCount := 0
  transferDirection
  writeLatch := false

theorem handleCtrlCheck_of_not_starts (h : ¬s.Starts) : s.handleCtrlCheck = .ok s := by
  rw [handleCtrlCheck, if_neg]
  simpa only [Starts, Bool.not_eq_true] using h

theorem handleCtrlCheck_of_starts {d : Sio2Direction} (h : s.Starts) (hd : s.ctrl.getDirection = .ok d) :
    s.handleCtrlCheck = .ok ((if d = .tx then s.handleSio0Reset else s).setCtrl (s.startCtrl d)) := by
  rw [handleCtrlCheck, if_pos (by simpa only [Starts, Bool.not_eq_true] using h), hd, ok_bind]
  cases d <;> rfl

/-- The transfer of the port starts, if it has not. -/
theorem handlePortTrasnfer_of_started (hstarted : s.ctrl.transferStarted = true) (hport : s.ctrl.transferPort < 16)
    (hports : (s.ports s.ctrl.transferPort).portTransferStarted = true ∨
      (s.ports s.ctrl.transferPort).writeLatch = true) :
    ∃ p, p.w = (s.ports s.ctrl.transferPort).w ∧ p.portTransferStarted = true ∧
      s.handlePortTrasnfer = (s.setPort s.ctrl.transferPort p).transferData := by
  unfold handlePortTrasnfer
  rw [if_neg (by simp [hstarted]), port, if_pos hport, ok_bind]
  by_cases hp : (s.ports s.ctrl.transferPort).portTransferStarted = true
  · refine ⟨s.ports s.ctrl.transferPort, rfl, hp, ?_⟩
    rw [if_neg (not_not_intro hp), setPort, Function.update_eq_self]
  · have hlatch := hports.resolve_left hp
    refine ⟨{ s.ports s.ctrl.transferPort with portTransferStarted := true, writeLatch := false }, rfl, rfl, ?_⟩
    rw [if_pos hp, if_neg (not_not_intro hlatch)]

/-! ### The end of a port -/

/-- The next port. -/
def nextPort (c : Sio2Ctrl) : Sio2Ctrl := { c with transferPort := c.transferPort + 1, transferPortCount := 0 }

theorem finishPortTx_of_eq {n : ℕ} (h : s.ctrl.transferPortCount = n) :
    s.finishPortTx n = s.setCtrl (nextPort s.ctrl) := if_pos h

theorem finishPortRx_of_eq {n : ℕ} (h : s.ctrl.transferPortCount = n) :
    s.finishPortRx n = (s.setPort s.ctrl.transferPort
      { s.ports s.ctrl.transferPort with portTransferStarted := false }).setCtrl (nextPort s.ctrl) := if_pos h

theorem stopTransfer_of_lt (hport : s.ctrl.transferPort < 16) : s.stopTransfer = s := if_neg (Nat.ne_of_lt hport)

theorem stopTransfer_tx (hport : s.ctrl.transferPort = 16) (hd : s.ctrl.transferDirection = .tx) :
    s.stopTransfer = s.setCtrl { s.ctrl with transferStarted := false } := by
  rw [stopTransfer, if_pos hport, hd, if_neg (by decide)]

theorem stopTransfer_rx (hport : s.ctrl.transferPort = 16) (hd : s.ctrl.transferDirection = .rx) :
    s.stopTransfer = Sio.setCtrl { s with intcSio2 := true, raised := s.raised + 1 }
      { s.ctrl with transferStarted := false } := by
  rw [stopTransfer, if_pos hport, hd, if_pos rfl]

/-! ### A byte to the SIO0 -/

/-- The SIO0 can be sent a byte, and there is one. -/
def TxReady (s : Sio) : Prop :=
  s.sio0.stat.txRdy1 = true ∧ (s.ctrl.transferPortCount = 0 → s.sio0.stat.txRdy2 = true) ∧ s.fifoToSio2.bytes ≠ []

/-- The byte `data` goes to the SIO0. -/
structure Sends (s : Sio) (data : Ubyte) (t : Sio) : Prop where
  /-- One byte more is moved. -/
  ctrl : t.ctrl = { s.ctrl with transferPortCount := s.ctrl.transferPortCount + 1 }
  /-- `sio2.ports`. -/
  ports : t.ports = s.ports
  /-- It is taken from the queue. -/
  fifoToSio2 : s.fifoToSio2.bytes = data :: t.fifoToSio2.bytes
  /-- It is sent. -/
  sent : t.sent = s.sent ++ [data]
  /-- It is a command for the SIO0. -/
  commands : t.sio0.commandQueue.bytes = s.sio0.commandQueue.bytes ++ [data]
  /-- `TX_RDY1` and `TX_RDY2` follow. -/
  ready : t.sio0.stat.txRdy1 = t.sio0.commandQueue.hasWriteAvailable 1 ∧ t.sio0.stat.txRdy2 = false
  /-- The responses. -/
  responses : t.sio0.responseQueue = s.sio0.responseQueue ∧ t.sio0.stat.rxNonempty = s.sio0.stat.rxNonempty
  /-- `SIO_RESET`. -/
  reset : t.sio0.ctrl.sioReset = s.sio0.ctrl.sioReset
  /-- The receiving side. -/
  rest : t.received = s.received ∧ t.responses = s.responses ∧ t.moved = s.moved ∧
    t.fifoFromSio2 = s.fifoFromSio2 ∧ t.raised = s.raised

theorem sendByte_eq (havailable : s.fifoToSio2.bytes ≠ []) (hroom : s.sio0.commandQueue.bytes.length < 1024) :
    ∃ data t, s.sendByte = .ok t ∧ Sends s data t := by
  obtain ⟨data, rest, hbytes⟩ := List.exists_cons_of_ne_nil havailable
  obtain ⟨fifoToSio2, hread, hfifo⟩ := DmaFifoQueue.readUbyte_of_cons hbytes
  obtain ⟨commandQueue, hwrite, hcommands⟩ := DmaFifoQueue.writeUbyte_of_lt hroom data
  refine ⟨data, ?_⟩
  simp only [sendByte, hread, ok_bind, Sio0.writeUbyte, hwrite, pure_eq_ok]
  exact ⟨_, rfl, rfl, rfl, hfifo ▸ hbytes, rfl, hcommands, ⟨rfl, rfl⟩, ⟨rfl, rfl⟩, rfl, rfl, rfl, rfl, rfl, rfl⟩

theorem sends_setPadPort {p : Sio2PortCtrl3} {data : Ubyte} {t : Sio} (h : Sends (s.setPadPort p) data t) :
    Sends s data t :=
  ⟨h.ctrl, h.ports, h.fifoToSio2, h.sent, h.commands, h.ready, h.responses, h.reset, h.rest⟩

/-- What `transfer_data_tx()` does. -/
inductive SendStep (s : Sio) : Sio → Prop where
  /-- It waits for the SIO0. -/
  | wait : s.ctrl.transferPortCount ≠ (s.ports s.ctrl.transferPort).cmdLength → ¬s.TxReady → SendStep s s
  /-- The port has nothing to send. -/
  | skip : s.ctrl.transferPortCount = (s.ports s.ctrl.transferPort).cmdLength →
      SendStep s (s.finishPortTx (s.ports s.ctrl.transferPort).cmdLength)
  /-- It sends a byte. -/
  | send {data t} : s.ctrl.transferPortCount ≠ (s.ports s.ctrl.transferPort).cmdLength → s.TxReady → Sends s data t →
      SendStep s (t.finishPortTx (s.ports s.ctrl.transferPort).cmdLength)

theorem transferDataTx_eq (hport : s.ctrl.transferPort < 16)
    (hroom : s.ctrl.transferPortCount ≠ (s.ports s.ctrl.transferPort).cmdLength → s.TxReady →
      s.sio0.commandQueue.bytes.length < 1024) : ∃ t, s.transferDataTx = .ok t ∧ SendStep s t := by
  unfold transferDataTx
  rw [port, if_pos hport, ok_bind]
  by_cases hleft : s.ctrl.transferPortCount = (s.ports s.ctrl.transferPort).cmdLength
  · rw [if_neg (not_not_intro hleft)]
    exact ⟨_, rfl, .skip hleft⟩
  rw [if_pos hleft]
  by_cases hready1 : s.sio0.stat.txRdy1 = true
  swap
  · rw [if_pos hready1]
    exact ⟨_, rfl, .wait hleft fun h => hready1 h.1⟩
  rw [if_neg (not_not_intro hready1)]
  by_cases havailable : s.fifoToSio2.hasReadAvailable 1 = true
  swap
  · rw [if_pos havailable]
    rw [DmaFifoQueue.hasReadAvailable_iff, Nat.not_le, Nat.lt_one_iff, List.length_eq_zero_iff] at havailable
    exact ⟨_, rfl, .wait hleft fun h => h.2.2 havailable⟩
  rw [if_neg (not_not_intro havailable)]
  have hne : s.fifoToSio2.bytes ≠ [] :=
    List.ne_nil_of_length_pos (DmaFifoQueue.hasReadAvailable_iff.mp havailable)
  by_cases hfirst : s.ctrl.transferPortCount = 0
  · rw [if_pos hfirst]
    by_cases hready2 : s.sio0.stat.txRdy2 = true
    swap
    · rw [if_pos hready2]
      exact ⟨_, rfl, .wait hleft fun h => hready2 (h.2.1 hfirst)⟩
    rw [if_neg (not_not_intro hready2)]
    have hready : s.TxReady := ⟨hready1, fun _ => hready2, hne⟩
    obtain ⟨data, t, ht, hsends⟩ :=
      sendByte_eq (s := s.setPadPort (s.ports s.ctrl.transferPort)) hne (hroom hleft hready)
    rw [ht, ok_bind]
    exact ⟨_, rfl, .send hleft hready (sends_setPadPort hsends)⟩
  · rw [if_neg hfirst]
    have hready : s.TxReady := ⟨hready1, fun h => absurd h hfirst, hne⟩
    obtain ⟨data, t, ht, hsends⟩ := sendByte_eq hne (hroom hleft hready)
    rw [ht, ok_bind]
    exact ⟨_, rfl, .send hleft hready hsends⟩

theorem transferData_tx (hd : s.ctrl.transferDirection = .tx) {t : Sio} (ht : s.transferDataTx = .ok t) :
    s.transferData = .ok t.stopTransfer := by
  rw [transferData, hd, ht]
  rfl

/-! ### A byte from the SIO0 -/

/-- The SIO0 says that it has a byte, and there is room for it. -/
def RxReady (s : Sio) : Prop := s.sio0.stat.rxNonempty = true ∧ s.fifoFromSio2.bytes.length < 1024

/-- The byte `data` comes from the SIO0. -/
structure Receives (s : Sio) (data : Ubyte) (t : Sio) : Prop where
  /-- One byte more is moved. -/
  ctrl : t.ctrl = { s.ctrl with transferPortCount := s.ctrl.transferPortCount + 1 }
  /-- `sio2.ports`. -/
  ports : t.ports = s.ports
  /-- It is a response of the SIO0. -/
  responses : s.sio0.responseQueue.bytes = data :: t.sio0.responseQueue.bytes
  /-- `RX_NONEMPTY` follows. -/
  nonempty : t.sio0.stat.rxNonempty = t.sio0.responseQueue.hasReadAvailable 1
  /-- It is moved. -/
  moved : t.moved = s.moved ++ [data]
  /-- It goes to the queue. -/
  fifoFromSio2 : t.fifoFromSio2.bytes = s.fifoFromSio2.bytes ++ [data]
  /-- The commands. -/
  commands : t.sio0.commandQueue = s.sio0.commandQueue ∧ t.sio0.stat.txRdy1 = s.sio0.stat.txRdy1 ∧
    t.sio0.stat.txRdy2 = s.sio0.stat.txRdy2
  /-- `SIO_RESET`. -/
  reset : t.sio0.ctrl.sioReset = s.sio0.ctrl.sioReset
  /-- The sending side. -/
  rest : t.received = s.received ∧ t.responses = s.responses ∧ t.sent = s.sent ∧
    t.fifoToSio2 = s.fifoToSio2 ∧ t.raised = s.raised

theorem receiveByte_eq (havailable : s.sio0.responseQueue.bytes ≠ []) (hroom : s.fifoFromSio2.bytes.length < 1024) :
    ∃ data t, s.receiveByte = .ok t ∧ Receives s data t := by
  obtain ⟨data, rest, hbytes⟩ := List.exists_cons_of_ne_nil havailable
  obtain ⟨responseQueue, hread, hresponses⟩ := DmaFifoQueue.readUbyte_of_cons hbytes
  obtain ⟨fifoFromSio2, hwrite, hfifo⟩ := DmaFifoQueue.writeUbyte_of_lt hroom data
  refine ⟨data, ?_⟩
  simp only [receiveByte, Sio0.readUbyte, hread, ok_bind, hwrite, pure_eq_ok]
  exact ⟨_, rfl, rfl, rfl, hresponses ▸ hbytes, rfl, rfl, hfifo, ⟨rfl, rfl, rfl⟩, rfl, rfl, rfl, rfl, rfl, rfl⟩

/-- What `transfer_data_rx()` does. -/
inductive ReceiveStep (s : Sio) : Sio → Prop where
  /-- It waits for the SIO0, or for room. -/
  | wait : s.ctrl.transferPortCount ≠ (s.ports s.ctrl.transferPort).responseLength → ¬s.RxReady → ReceiveStep s s
  /-- The port has nothing to receive. -/
  | skip : s.ctrl.transferPortCount = (s.ports s.ctrl.transferPort).responseLength →
      ReceiveStep s (s.finishPortRx (s.ports s.ctrl.transferPort).responseLength)
  /-- It receives a byte. -/
  | receive {data t} : s.ctrl.transferPortCount ≠ (s.ports s.ctrl.transferPort).responseLength → s.RxReady →
      Receives s data t → ReceiveStep s (t.finishPortRx (s.ports s.ctrl.transferPort).responseLength)

theorem transferDataRx_eq (hport : s.ctrl.transferPort < 16)
    (havailable : s.ctrl.transferPortCount ≠ (s.ports s.ctrl.transferPort).responseLength → s.RxReady →
      s.sio0.responseQueue.bytes ≠ []) : ∃ t, s.transferDataRx = .ok t ∧ ReceiveStep s t := by
  unfold transferDataRx
  rw [port, if_pos hport, ok_bind]
  by_cases hleft : s.ctrl.transferPortCount = (s.ports s.ctrl.transferPort).responseLength
  · rw [if_neg (not_not_intro hleft)]
    exact ⟨_, rfl, .skip hleft⟩
  rw [if_pos hleft]
  by_cases hroom : s.fifoFromSio2.hasWriteAvailable 1 = true
  swap
  · rw [if_pos hroom]
    rw [DmaFifoQueue.hasWriteAvailable_iff] at hroom
    exact ⟨_, rfl, .wait hleft fun h => hroom h.2⟩
  rw [if_neg (not_not_intro hroom)]
  by_cases hnonempty : s.sio0.stat.rxNonempty = true
  swap
  · rw [if_pos hnonempty]
    exact ⟨_, rfl, .wait hleft fun h => hnonempty h.1⟩
  rw [if_neg (not_not_intro hnonempty)]
  have hready : s.RxReady := ⟨hnonempty, DmaFifoQueue.hasWriteAvailable_iff.mp hroom⟩
  obtain ⟨data, t, ht, hreceives⟩ := receiveByte_eq (havailable hleft hready) hready.2
  rw [ht, ok_bind]
  exact ⟨_, rfl, .receive hleft hready hreceives⟩

theorem transferData_rx (hd : s.ctrl.transferDirection = .rx) {t : Sio} (ht : s.transferDataRx = .ok t) :
    s.transferData = .ok t.stopTransfer := by
  rw [transferData, hd, ht]
  rfl

end Sio

end Orbum
