import Orbum.Iop.Dmac.Frame
import Orbum.Iop.Sio.Stream

/-!
# The IOP DMAC and the SIO2

Channel 11 is the one to the SIO2 and channel 12 the one from it, but `initialise_iop_dmac` gives `fifo_fromsio2` to
channel 11 and `fifo_tosio2` to channel 12. What channel 11 reads never gets to the SIO2, and what the SIO2 makes
never gets to channel 12.

## The model

The controllers take steps in any order. Between them the IOP starts transfers of the two channels and of the SIO2,
and the rest of the machine does anything to the memory, the other channels and the other queues.

`Delivers` says that the bytes go where they should as far as they have got; `Idle` that a step moves none.
-/

namespace Orbum

open LittleEndian

/-! ### The SIO2 without commands -/

namespace Sio

variable {s c t : Sio}

/-- The next step of the SIO2 moves a response. -/
structure MovesNext (s : Sio) : Prop extends ReceivesNext s where
  /-- A transfer starts or goes on. -/
  going : s.Starts ∨ s.ctrl.transferStarted = true
  /-- So does that of the port. -/
  port : (s.ports s.portIndex).portTransferStarted = true ∨ (s.ports s.portIndex).writeLatch = true

instance (s : Sio) : Decidable s.MovesNext :=
  decidable_of_iff (s.ReceivesNext ∧ (s.Starts ∨ s.ctrl.transferStarted = true) ∧
    ((s.ports s.portIndex).portTransferStarted = true ∨ (s.ports s.portIndex).writeLatch = true))
    ⟨fun ⟨h1, h2, h3⟩ => ⟨h1, h2, h3⟩, fun h => ⟨h.toReceivesNext, h.going, h.port⟩⟩

/-- The bytes that the SIO2 works on. -/
structure SameBytes (s t : Sio) : Prop where
  /-- `fifo_tosio2`. -/
  fifoToSio2 : t.fifoToSio2 = s.fifoToSio2
  /-- `fifo_fromsio2`. -/
  fifoFromSio2 : t.fifoFromSio2 = s.fifoFromSio2
  /-- What is sent. -/
  sent : t.sent = s.sent
  /-- What is moved. -/
  moved : t.moved = s.moved

theorem SameBytes.refl (s : Sio) : SameBytes s s := ⟨rfl, rfl, rfl, rfl⟩

theorem SameBytes.trans (h : SameBytes s c) (h' : SameBytes c t) : SameBytes s t :=
  ⟨h'.fifoToSio2.trans h.fifoToSio2, h'.fifoFromSio2.trans h.fifoFromSio2, h'.sent.trans h.sent,
    h'.moved.trans h.moved⟩

theorem sameBytes_stopTransfer (s : Sio) : SameBytes s s.stopTransfer := by
  unfold stopTransfer
  dsimp only
  split_ifs <;> exact ⟨rfl, rfl, rfl, rfl⟩

theorem sameBytes_finishPortTx (s : Sio) (n : ℕ) : SameBytes s (s.finishPortTx n) := by
  unfold finishPortTx
  split_ifs <;> exact ⟨rfl, rfl, rfl, rfl⟩

theorem sameBytes_finishPortRx (s : Sio) (n : ℕ) : SameBytes s (s.finishPortRx n) := by
  unfold finishPortRx
  split_ifs <;> exact ⟨rfl, rfl, rfl, rfl⟩

/-- What `handle_ctrl_check()` leaves for the ports. -/
structure Entered (s c : Sio) : Prop extends SameBytes s c where
  /-- `transfer_port`. -/
  portIndex : c.ctrl.transferPort = s.portIndex
  /-- `transfer_port_count`. -/
  portCount : c.ctrl.transferPortCount = s.portCount
  /-- `ports`. -/
  ports : c.ports = s.ports
  /-- The SIO0, but for `SIO_RESET`. -/
  sio0 : c.sio0.stat = s.sio0.stat ∧ c.sio0.responseQueue = s.sio0.responseQueue
  /-- A transfer starts or goes on. -/
  started : c.ctrl.transferStarted = true ↔ s.Starts ∨ s.ctrl.transferStarted = true
  /-- The direction. -/
  direction : s.Directed c.ctrl.transferDirection

theorem entered_handleCtrlCheck (h : s.handleCtrlCheck = .ok c) : Entered s c := by
  by_cases hs : s.Starts
  · cases hd : s.ctrl.getDirection with
    | error e =>
      rw [handleCtrlCheck, if_pos (by simpa only [Starts, Bool.not_eq_true] using hs), hd, error_bind] at h
      cases h
    | ok d =>
      rw [handleCtrlCheck_of_starts hs hd] at h
      obtain rfl := Except.ok.inj h
      have hindex : 0 = s.portIndex := (if_pos hs).symm
      have hcount : 0 = s.portCount := (if_pos hs).symm
      have hdirected : s.Directed d := ⟨fun _ => hd, fun hn => absurd hs hn⟩
      cases d <;> exact ⟨⟨rfl, rfl, rfl, rfl⟩, hindex, hcount, rfl, ⟨rfl, rfl⟩, ⟨fun _ => .inl hs, fun _ => rfl⟩,
        hdirected⟩
  · rw [handleCtrlCheck_of_not_starts hs] at h
    obtain rfl := Except.ok.inj h
    exact ⟨.refl s, (if_neg hs).symm, (if_neg hs).symm, rfl, ⟨rfl, rfl⟩, ⟨.inr, fun hgo => hgo.resolve_left hs⟩,
      fun h => absurd h hs, fun _ => rfl⟩

/-- Whether a response is moved can be seen once the transfer has started. -/
theorem Entered.movesNext_iff (h : Entered s c) (hstarted : c.ctrl.transferStarted = true)
    (hp : (c.ports c.ctrl.transferPort).portTransferStarted = true ∨
      (c.ports c.ctrl.transferPort).writeLatch = true) :
    s.MovesNext ↔ c.ctrl.transferDirection = .rx ∧
      c.ctrl.transferPortCount ≠ (c.ports c.ctrl.transferPort).responseLength ∧ c.RxReady := by
  rw [h.ports, h.portIndex] at hp
  rw [RxReady, h.ports, h.portIndex, h.portCount, h.sio0.1, h.fifoFromSio2]
  constructor
  · intro hmoves
    exact ⟨h.direction.unique hmoves.receiving, hmoves.left, hmoves.available, hmoves.room⟩
  · rintro ⟨hd, hleft, havailable, hroom⟩
    exact ⟨⟨hd ▸ h.direction, hleft, hroom, havailable⟩, h.started.mp hstarted, hp⟩

/-- A response taken from an empty queue throws. -/
theorem transferDataRx_error (hport : s.ctrl.transferPort < 16)
    (hleft : s.ctrl.transferPortCount ≠ (s.ports s.ctrl.transferPort).responseLength) (hready : s.RxReady)
    (hempty : s.sio0.responseQueue.bytes = []) : s.transferDataRx ≠ .ok t := by
  have hwrite : s.fifoFromSio2.hasWriteAvailable 1 = true := DmaFifoQueue.hasWriteAvailable_iff.mpr hready.2
  have hread : s.sio0.responseQueue.readUbyte = .error (.runtimeError "Could not pop from DMA fifo queue.") := by
    generalize s.sio0.responseQueue = q at hempty
    obtain ⟨bytes, hq⟩ := q
    obtain rfl : bytes = [] := hempty
    rfl
  unfold transferDataRx
  rw [Sio.port, if_pos hport, ok_bind, if_pos hleft, if_neg (not_not_intro hwrite), if_neg (not_not_intro hready.1),
    receiveByte, Sio0.readUbyte, hread]
  intro h
  cases h

/-- A port that sends has nothing to do without commands. -/
theorem sameBytes_transferData_tx (hlt : s.ctrl.transferPort < 16) (hd : s.ctrl.transferDirection = .tx)
    (hempty : s.fifoToSio2.bytes = []) (h : s.transferData = .ok t) : SameBytes s t := by
  have hidle : ¬s.TxReady := fun hready => hready.2.2 hempty
  obtain ⟨u, hu, hstep⟩ := transferDataTx_eq hlt fun _ hready => absurd hready hidle
  rw [transferData_tx hd hu] at h
  obtain rfl := Except.ok.inj h
  refine SameBytes.trans ?_ (sameBytes_stopTransfer u)
  cases hstep with
  | wait => exact .refl _
  | skip => exact sameBytes_finishPortTx _ _
  | send _ hready _ => exact absurd hready hidle

/-- A port that receives moves a response if one is there, is to come and has room. -/
theorem moved_transferData_rx (hlt : s.ctrl.transferPort < 16) (hd : s.ctrl.transferDirection = .rx)
    (h : s.transferData = .ok t) :
    (¬(s.ctrl.transferPortCount ≠ (s.ports s.ctrl.transferPort).responseLength ∧ s.RxReady) ∧ SameBytes s t) ∨
      ((s.ctrl.transferPortCount ≠ (s.ports s.ctrl.transferPort).responseLength ∧ s.RxReady) ∧
        t.sent = s.sent ∧ t.fifoToSio2 = s.fifoToSio2 ∧ ∃ data, t.moved = s.moved ++ [data]) := by
  rw [transferData, hd] at h
  obtain ⟨u, hu, hut⟩ := bind_eq_ok_iff.mp h
  obtain rfl := Except.ok.inj hut
  obtain ⟨u', hu', hstep⟩ := transferDataRx_eq hlt fun hleft hready hnone =>
    transferDataRx_error hlt hleft hready hnone hu
  obtain rfl := Except.ok.inj (hu.symm.trans hu')
  have hstop := sameBytes_stopTransfer u
  cases hstep with
  | wait hleft hready => exact .inl ⟨fun hmoves => hready hmoves.2, hstop⟩
  | skip hend => exact .inl ⟨fun hmoves => hmoves.1 hend, (sameBytes_finishPortRx _ _).trans hstop⟩
  | receive hleft hready hreceives =>
    have hfinish := (sameBytes_finishPortRx _ _).trans hstop
    obtain ⟨-, -, hsent, hto, -⟩ := hreceives.rest
    exact .inr ⟨⟨hleft, hready⟩, hfinish.sent.trans hsent, hfinish.fifoToSio2.trans hto, _,
      hfinish.moved.trans hreceives.moved⟩

/-- A step of the SIO2 that has no commands sends nothing. It moves a response, or no byte. -/
theorem sio2TimeStep_of_empty (hempty : s.fifoToSio2.bytes = []) (h : s.sio2TimeStep = .ok t) :
    (¬s.MovesNext ∧ SameBytes s t) ∨
      (s.MovesNext ∧ t.sent = s.sent ∧ t.fifoToSio2 = s.fifoToSio2 ∧ ∃ data, t.moved = s.moved ++ [data]) := by
  obtain ⟨c, hc, hport⟩ := bind_eq_ok_iff.mp h
  have he := entered_handleCtrlCheck hc
  have hbytes := he.toSameBytes
  by_cases hstarted : c.ctrl.transferStarted = true
  swap
  · rw [handlePortTrasnfer, if_pos hstarted] at hport
    obtain rfl := Except.ok.inj hport
    exact .inl ⟨fun hmoves => hstarted (he.started.mpr hmoves.going), hbytes⟩
  by_cases hlt : c.ctrl.transferPort < 16
  swap
  · rw [handlePortTrasnfer, if_neg (not_not_intro hstarted), Sio.port, if_neg hlt] at hport
    cases hport
  by_cases hp : (c.ports c.ctrl.transferPort).portTransferStarted = true ∨
      (c.ports c.ctrl.transferPort).writeLatch = true
  swap
  · obtain ⟨hp1, hp2⟩ := not_or.mp hp
    rw [handlePortTrasnfer, if_neg (not_not_intro hstarted), Sio.port, if_pos hlt, ok_bind, if_pos hp1, if_pos hp2]
      at hport
    obtain rfl := Except.ok.inj hport
    rw [he.ports, he.portIndex] at hp
    exact .inl ⟨fun hmoves => hp hmoves.port, hbytes⟩
  obtain ⟨p, hpw, -, heq⟩ := handlePortTrasnfer_of_started hstarted hlt hp
  have hmoves := he.movesNext_iff hstarted hp
  have hset : SameBytes s (c.setPort c.ctrl.transferPort p) := hbytes.trans ⟨rfl, rfl, rfl, rfl⟩
  rw [heq] at hport
  cases hd : c.ctrl.transferDirection with
  | tx =>
    refine .inl ⟨fun h => ?_, hset.trans (sameBytes_transferData_tx hlt hd (hset.fifoToSio2 ▸ hempty) hport)⟩
    cases hd.symm.trans (hmoves.mp h).1
  | rx =>
    have hlength : ((c.setPort c.ctrl.transferPort p).ports c.ctrl.transferPort).responseLength =
        (c.ports c.ctrl.transferPort).responseLength := by
      rw [setPort_ports, Function.update_self, Sio2PortCtrl3.responseLength, hpw]
      rfl
    have hiff : s.MovesNext ↔ _ := hmoves.trans ((and_iff_right hd).trans (by rw [← hlength]))
    rcases moved_transferData_rx (s := c.setPort c.ctrl.transferPort p) hlt hd hport with
      ⟨hnot, hsame⟩ | ⟨hgo, hsent, hto, data, hmoved⟩
    · exact .inl ⟨fun h => hnot (hiff.mp h), hset.trans hsame⟩
    · exact .inr ⟨hiff.mpr hgo, hsent.trans hset.sent, hto.trans hset.fifoToSio2, data,
        hmoved.trans (congrArg (· ++ _) hset.moved)⟩

end Sio

namespace IopDmac

/-! ### Moves -/

/-- Something the rest of the machine does: to the memory, the other channels and their queues, and the common
registers. -/
structure Rest where
  /-- What it does. -/
  apply : IopDmac → IopDmac
  /-- It leaves the serial interfaces alone. -/
  serial : ∀ s, Serial s (apply s)
  /-- It leaves channel 11 alone. -/
  toSio2 : ∀ s, (apply s).channels 11 = s.channels 11
  /-- It leaves channel 12 alone. -/
  fromSio2 : ∀ s, (apply s).channels 12 = s.channels 12

/-- A step of a controller, a start by the IOP, or something else. The IOP uses channel 11 to the SIO2 and channel 12
from it. -/
inductive Move where
  /-- `CIopDmac::time_step`. -/
  | dmac
  /-- `CSio2::time_step`. -/
  | sio2
  /-- `CSio0::time_step`. -/
  | sio0
  /-- The IOP writes the registers of channel 11. -/
  | toSio2 (madr bcr chcr : Uword) (h : IopDmacChcr.directionOf chcr = .TO)
  /-- The IOP writes the registers of channel 12. -/
  | fromSio2 (madr bcr chcr : Uword) (h : IopDmacChcr.directionOf chcr = .FROM)
  /-- The IOP writes `CTRL` of the SIO2. -/
  | ctrl (value : Uword)
  /-- The IOP writes `CTRL3` of a port. -/
  | ctrl3 (port : Fin 16) (value : Uword)
  /-- The rest of the machine does something. -/
  | rest (f : Rest)

/-- The IOP writes the registers of a channel. -/
def writeChannel (s : IopDmac) (k : Fin 13) (madr bcr chcr : Uword) : IopDmac :=
  (s.setChannel k { s.channels k with madr, bcr }).writeChcr k chcr

/-- What a move does. -/
def step : Move → IopDmac → Except HostError IopDmac
  | .dmac, s => s.timeStep
  | .sio2, s => do return { s with sio := ← s.sio.sio2TimeStep }
  | .sio0, s => do return { s with sio := ← s.sio.sio0TimeStep }
  | .toSio2 madr bcr chcr _, s => .ok (s.writeChannel 11 madr bcr chcr)
  | .fromSio2 madr bcr chcr _, s => .ok (s.writeChannel 12 madr bcr chcr)
  | .ctrl value, s => .ok { s with sio := s.sio.setCtrl (s.sio.ctrl.busWriteUword value) }
  | .ctrl3 port value, s => .ok { s with sio := s.sio.setPort port ((s.sio.ports port).busWriteUword value) }
  | .rest f, s => .ok (f.apply s)

/-- Nothing has been moved yet, and what goes on goes the way of the channel. -/
structure Fresh (s : IopDmac) : Prop where
  /-- The queues are empty. -/
  queues : s.sio.fifoToSio2.bytes = [] ∧ s.sio.fifoFromSio2.bytes = []
  /-- The SIO2 has moved nothing. -/
  sio : s.sio.sent = [] ∧ s.sio.moved = []
  /-- The channels have moved nothing. -/
  dmac : s.read = [] ∧ s.stored = []
  /-- Channel 11 goes to the SIO2. -/
  toSio2 : (s.channels 11).chcr.started = true → (s.channels 11).chcr.direction = .TO
  /-- Channel 12 comes from it. -/
  fromSio2 : (s.channels 12).chcr.started = true → (s.channels 12).chcr.direction = .FROM

/-- The bytes go where they should, as far as they have got. -/
structure Delivers (s : IopDmac) : Prop where
  /-- What channel 11 reads the SIO2 sends, or finds in the queue it sends from. -/
  commands : s.read = s.sio.sent ++ s.sio.fifoToSio2.bytes
  /-- What the SIO2 moves channel 12 stores, or finds in the queue it stores from. -/
  responses : s.sio.moved = s.stored ++ (s.fifo (dmaFifoQueue 12)).bytes
  /-- Where all that is read is sent channel 11 has nothing to wait for. -/
  completes : s.read = s.sio.sent → (s.fifo (dmaFifoQueue 11)).isEmpty = true

/-- The next step of the DMAC moves a word of channel 11. -/
structure ReadsNext (s : IopDmac) : Prop where
  /-- The DMAC is on. -/
  gctrl : s.gctrl ≠ 0
  /-- The channel is enabled. -/
  enabled : s.isChannelEnabled 11 = true
  /-- It is started. -/
  started : (s.channels 11).chcr.started = true
  /-- The transfer goes on. -/
  dmaStarted : (s.channels 11).chcr.dmaStarted = true
  /-- It has words left. -/
  left : (s.channels 11).transferLength ≠ 0

/-- The condition on a move: channel 11 and the SIO2 move nothing. -/
def Idle : Move → IopDmac → Prop
  | .dmac, s => ¬s.ReadsNext
  | .sio2, s => ¬s.sio.MovesNext
  | _, _ => True

instance (s : IopDmac) : Decidable s.ReadsNext :=
  decidable_of_iff (s.gctrl ≠ 0 ∧ s.isChannelEnabled 11 = true ∧ (s.channels 11).chcr.started = true ∧
    (s.channels 11).chcr.dmaStarted = true ∧ (s.channels 11).transferLength ≠ 0)
    ⟨fun ⟨h1, h2, h3, h4, h5⟩ => ⟨h1, h2, h3, h4, h5⟩,
      fun h => ⟨h.gctrl, h.enabled, h.started, h.dmaStarted, h.left⟩⟩

instance : ∀ (m : Move) (s : IopDmac), Decidable (Idle m s)
  | .dmac, s => inferInstanceAs (Decidable ¬s.ReadsNext)
  | .sio2, s => inferInstanceAs (Decidable ¬s.sio.MovesNext)
  | .sio0, _ | .toSio2 .., _ | .fromSio2 .., _ | .ctrl _, _ | .ctrl3 .., _ | .rest _, _ => isTrue trivial

/-! ### The two channels -/

variable {s s' : IopDmac}

/-- Channel 12 waits for bytes in the queue to the SIO2. -/
theorem turn_fromSio2 (hempty : s.sio.fifoToSio2.bytes = [])
    (hd : (s.channels 12).chcr.started = true → (s.channels 12).chcr.direction = .FROM) :
    Ensures (Serial s) (s.turn 12) := by
  have hnone {n : ℕ} {packet : List Ubyte} {q : DmaFifoQueue} (hn : n ≠ 0)
      (hread : (s.fifo (dmaFifoQueue 12)).read n = .ok (packet, q)) : False := by
    obtain ⟨hbytes, hlength⟩ := DmaFifoQueue.bytes_of_read hread
    change s.sio.fifoToSio2.bytes = packet ++ q.bytes at hbytes
    rw [hempty] at hbytes
    obtain ⟨rfl, -⟩ := List.append_eq_nil_iff.mp hbytes.symm
    exact absurd hlength.symm hn
  refine ensures_turn s 12 (fun _ => .refl s) fun _ hstarted s' h => ?_
  cases h with
  | startNormal => exact serial_setChannel _ _ _
  | startChain => exact serial_setChannel _ _ _
  | ends => exact serial_finish s 12
  | data _ _ hdata =>
    cases hdata with
    | starved => exact .refl s
    | blocked => exact .refl s
    | received _ hread => exact (hnone (by decide) hread).elim
    | sent hto =>
      rw [hd hstarted] at hto
      cases hto
  | tag _ _ _ htag =>
    cases htag with
    | waits => exact .refl s
    | source hto =>
      rw [hd hstarted] at hto
      cases hto
    | dest _ hread => exact (hnone (by decide) hread).elim

/-- What a turn of channel 11 does while its queue is empty: nothing, or it reads a word that the SIO2 does not get. -/
def TurnToSio2 (s s' : IopDmac) : Prop :=
  (¬s.ReadsNext ∧ Serial s s') ∨
    (s.ReadsNext ∧ s'.sio.sent = s.sio.sent ∧ s'.sio.fifoToSio2 = s.sio.fifoToSio2 ∧
      ∃ packet : Uword, s'.read = s.read ++ bytes 4 packet)

theorem turn_toSio2 (hempty : s.sio.fifoFromSio2.bytes = [])
    (hd : (s.channels 11).chcr.started = true → (s.channels 11).chcr.direction = .TO) (hon : s.gctrl ≠ 0) :
    Ensures (TurnToSio2 s) (s.turn 11) := by
  refine ensures_turn s 11 (fun hoff => ?_) fun henabled hstarted s' h => ?_
  · exact .inl ⟨fun hreads => hoff ⟨hreads.enabled, hreads.started⟩, .refl s⟩
  have hfresh (h : (s.channels 11).chcr.dmaStarted = false) : ¬s.ReadsNext := fun hreads =>
    absurd (h.symm.trans hreads.dmaStarted) (by decide)
  cases h with
  | startNormal _ h => exact .inl ⟨hfresh h, serial_setChannel _ _ _⟩
  | startChain _ h => exact .inl ⟨hfresh h, serial_setChannel _ _ _⟩
  | ends _ hleft => exact .inl ⟨fun hreads => hreads.left hleft, serial_finish s 11⟩
  | data hdma hleft hdata =>
    cases hdata with
    | starved hfrom =>
      rw [hd hstarted] at hfrom
      cases hfrom
    | received hfrom =>
      rw [hd hstarted] at hfrom
      cases hfrom
    | blocked _ hroom =>
      refine absurd (DmaFifoQueue.hasWriteAvailable_iff.mpr ?_) hroom
      change s.sio.fifoFromSio2.bytes.length + 4 ≤ 1024
      rw [hempty]
      decide
    | @sent packet => exact .inr ⟨⟨hon, henabled, hstarted, hdma, Nat.ne_of_gt hleft⟩, rfl, rfl, packet, rfl⟩
  | tag _ _ hleft htag =>
    cases htag with
    | waits => exact .inl ⟨fun hreads => hreads.left hleft, .refl s⟩
    | source _ htadr =>
      -- Channel 11 has no `TADR`.
      have hnone : s.tadr 11 = .error .nullPointer := rfl
      rw [hnone] at htadr
      cases htadr
    | dest hfrom =>
      rw [hd hstarted] at hfrom
      cases hfrom

/-! ### A step of the DMAC -/

theorem finRange_eq : List.finRange 13 = (List.finRange 13).take 11 ++ [11, 12] := by decide

/-- The channels before the two of the SIO2 leave what these work on alone. -/
theorem turns_others (s : IopDmac) : ∀ l : List (Fin 13), (∀ k ∈ l, k ≠ 11 ∧ k ≠ 12) →
    Ensures (fun s' => Serial s s' ∧ s'.channels 11 = s.channels 11 ∧ s'.channels 12 = s.channels 12 ∧
      s'.gctrl = s.gctrl ∧ s'.pcr1 = s.pcr1) (l.foldlM turn s)
  | [], _ => .ok ⟨.refl s, rfl, rfl, rfl, rfl⟩
  | k :: l, hl => by
    obtain ⟨h11, h12⟩ := hl k (List.mem_cons_self ..)
    rw [List.foldlM_cons]
    refine (frame_turn s k).bind fun t ht => ?_
    refine (turns_others t l fun j hj => hl j (List.mem_cons_of_mem _ hj)).mono ?_
    rintro u ⟨hserial, hc11, hc12, hgctrl, hpcr1⟩
    exact ⟨(ht.serial h11 h12).trans hserial, hc11.trans (ht.channels 11 h11.symm),
      hc12.trans (ht.channels 12 h12.symm), hgctrl.trans ht.enabled.1, hpcr1.trans ht.enabled.2.2⟩

/-- `CHCR` says the same, if the transfer goes on. -/
theorem Frame.direction {k : Fin 13} {d : IopDmacChcr.Direction} (h : Frame k s s')
    (hd : (s.channels k).chcr.started = true → (s.channels k).chcr.direction = d)
    (hstarted : (s'.channels k).chcr.started = true) : (s'.channels k).chcr.direction = d := by
  rcases h.chcr with hw | hstop
  · rw [IopDmacChcr.started, hw] at hstarted
    rw [IopDmacChcr.direction, hw]
    exact hd hstarted
  · exact absurd (hstop.symm.trans hstarted) Bool.false_ne_true

/-- A step of the DMAC while nothing has been moved. -/
theorem timeStep_of_fresh (h : Fresh s) (hs' : s.timeStep = .ok s') :
    (¬s.ReadsNext ∧ Fresh s') ∨
      (s.ReadsNext ∧ s'.sio.sent = [] ∧ s'.sio.fifoToSio2.bytes = [] ∧ s'.read ≠ []) := by
  obtain ⟨⟨hto, hfrom⟩, ⟨hsent, hmoved⟩, ⟨hread, hstored⟩, hd11, hd12⟩ := h
  unfold timeStep at hs'
  split at hs'
  · rename_i hoff
    obtain rfl := Except.ok.inj hs'
    exact .inl ⟨fun hreads => hreads.gctrl hoff, ⟨hto, hfrom⟩, ⟨hsent, hmoved⟩, ⟨hread, hstored⟩, hd11, hd12⟩
  rename_i hon
  rw [finRange_eq, List.foldlM_append] at hs'
  obtain ⟨t, ht, hs'⟩ := bind_eq_ok_iff.mp hs'
  obtain ⟨u, hu, hs'⟩ := bind_eq_ok_iff.mp hs'
  obtain ⟨v, hv, hs'⟩ := bind_eq_ok_iff.mp hs'
  obtain rfl := Except.ok.inj hs'
  obtain ⟨hst, hc11, hc12, hgctrl, hpcr1⟩ := turns_others s _ (by decide) t ht
  have hframe11 := frame_turn t 11 u hu
  have hframe12 := frame_turn u 12 v hv
  have hreads : t.ReadsNext ↔ s.ReadsNext := by
    have henabled : t.isChannelEnabled 11 = s.isChannelEnabled 11 := by
      unfold isChannelEnabled
      rw [hpcr1]
      rfl
    constructor
    · rintro ⟨h1, h2, h3, h4, h5⟩
      exact ⟨hgctrl ▸ h1, henabled ▸ h2, hc11 ▸ h3, hc11 ▸ h4, hc11 ▸ h5⟩
    · rintro ⟨h1, h2, h3, h4, h5⟩
      exact ⟨hgctrl ▸ h1, henabled ▸ h2, hc11 ▸ h3, hc11 ▸ h4, hc11 ▸ h5⟩
  have hturn := turn_toSio2 (hst.sio ▸ hfrom) (hc11 ▸ hd11) (hgctrl ▸ hon) u hu
  have hc12' : u.channels 12 = s.channels 12 := (hframe11.channels 12 (by decide)).trans hc12
  have hto' : u.sio.fifoToSio2.bytes = [] := by
    rcases hturn with ⟨-, hserial⟩ | ⟨-, -, hfifo, -⟩
    · rw [hserial.sio, hst.sio, hto]
    · rw [hfifo, hst.sio, hto]
  have huv := turn_fromSio2 hto' (hc12' ▸ hd12) v hv
  rcases hturn with ⟨hidle, htu⟩ | ⟨hgo, hsent', hfifo, packet, hpacket⟩
  · have hsv := (hst.trans htu).trans huv
    refine .inl ⟨fun hr => hidle (hreads.mpr hr), ?_⟩
    exact ⟨by rw [hsv.sio]; exact ⟨hto, hfrom⟩, by rw [hsv.sio]; exact ⟨hsent, hmoved⟩,
      by rw [hsv.read, hsv.stored]; exact ⟨hread, hstored⟩,
      by rw [hframe12.channels 11 (by decide)]; exact hframe11.direction (hc11 ▸ hd11),
      hframe12.direction (hc12' ▸ hd12)⟩
  · refine .inr ⟨hreads.mp hgo, by rw [huv.sio, hsent', hst.sio, hsent], by rw [huv.sio, hto'], ?_⟩
    rw [huv.read, hpacket]
    intro hnil
    have hlen := congrArg List.length (List.append_eq_nil_iff.mp hnil).2
    rw [length_bytes] at hlen
    cases hlen

/-! ### Delivery -/

theorem Fresh.delivers (h : Fresh s) : Delivers s where
  commands := by rw [h.dmac.1, h.sio.1, h.queues.1]; rfl
  responses := by
    change s.sio.moved = s.stored ++ s.sio.fifoToSio2.bytes
    rw [h.sio.2, h.dmac.2, h.queues.1]
    rfl
  completes _ := DmaFifoQueue.isEmpty_iff.mpr h.queues.2

theorem Fresh.setSio (h : Fresh s) {t : Sio} (hbytes : Sio.SameBytes s.sio t) : Fresh { s with sio := t } :=
  ⟨⟨(congrArg _ hbytes.fifoToSio2).trans h.queues.1, (congrArg _ hbytes.fifoFromSio2).trans h.queues.2⟩,
    ⟨hbytes.sent.trans h.sio.1, hbytes.moved.trans h.sio.2⟩, h.dmac, h.toSio2, h.fromSio2⟩

/-- A step of the SIO2 while nothing has been moved. -/
theorem sio2_of_fresh (h : Fresh s) {t : Sio} (ht : s.sio.sio2TimeStep = .ok t) :
    (Delivers { s with sio := t } ↔ ¬s.sio.MovesNext) ∧ (¬s.sio.MovesNext → Fresh { s with sio := t }) := by
  rcases Sio.sio2TimeStep_of_empty h.queues.1 ht with ⟨hidle, hbytes⟩ | ⟨hmoves, -, hfifo, data, hmoved⟩
  · have hfresh := h.setSio hbytes
    exact ⟨iff_of_true hfresh.delivers hidle, fun _ => hfresh⟩
  · refine ⟨iff_of_false (fun hd => ?_) (not_not_intro hmoves), fun hidle => absurd hmoves hidle⟩
    have hresponses : t.moved = s.stored ++ t.fifoToSio2.bytes := hd.responses
    rw [hmoved, h.sio.2, h.dmac.2, hfifo, h.queues.1] at hresponses
    cases hresponses

/-- A step of the DMAC while nothing has been moved. -/
theorem dmac_of_fresh (h : Fresh s) (hs' : s.timeStep = .ok s') :
    (Delivers s' ↔ ¬s.ReadsNext) ∧ (¬s.ReadsNext → Fresh s') := by
  rcases timeStep_of_fresh h hs' with ⟨hidle, hfresh⟩ | ⟨hreads, hsent, hfifo, hread⟩
  · exact ⟨iff_of_true hfresh.delivers hidle, fun _ => hfresh⟩
  · refine ⟨iff_of_false (fun hd => hread ?_) (not_not_intro hreads), fun hidle => absurd hreads hidle⟩
    rw [hd.commands, hsent, hfifo]
    rfl

theorem Fresh.writeToSio2 (h : Fresh s) (madr bcr : Uword) {chcr : Uword}
    (hd : IopDmacChcr.directionOf chcr = .TO) : Fresh (s.writeChannel 11 madr bcr chcr) where
  queues := h.queues
  sio := h.sio
  dmac := h.dmac
  toSio2 _ := by
    unfold writeChannel writeChcr
    rw [setChannel_channels, Function.update_self, IopDmacChcr.direction, writeUword_w]
    exact hd
  fromSio2 := by
    unfold writeChannel writeChcr
    rw [setChannel_channels, Function.update_of_ne (by decide), setChannel_channels,
      Function.update_of_ne (by decide)]
    exact h.fromSio2

theorem Fresh.writeFromSio2 (h : Fresh s) (madr bcr : Uword) {chcr : Uword}
    (hd : IopDmacChcr.directionOf chcr = .FROM) : Fresh (s.writeChannel 12 madr bcr chcr) where
  queues := h.queues
  sio := h.sio
  dmac := h.dmac
  toSio2 := by
    unfold writeChannel writeChcr
    rw [setChannel_channels, Function.update_of_ne (by decide), setChannel_channels,
      Function.update_of_ne (by decide)]
    exact h.toSio2
  fromSio2 _ := by
    unfold writeChannel writeChcr
    rw [setChannel_channels, Function.update_self, IopDmacChcr.direction, writeUword_w]
    exact hd

/-- Moves that keep the serial interfaces and the two channels keep `Fresh`. -/
theorem Fresh.of_serial (h : Fresh s) (hserial : Serial s s') (h11 : s'.channels 11 = s.channels 11)
    (h12 : s'.channels 12 = s.channels 12) : Fresh s' :=
  ⟨hserial.sio ▸ h.queues, hserial.sio ▸ h.sio, hserial.read ▸ hserial.stored ▸ h.dmac, h11 ▸ h.toSio2,
    h12 ▸ h.fromSio2⟩

/-- One move. -/
theorem delivers_step (m : Move) (h : Fresh s) (hs' : step m s = .ok s') :
    (Delivers s' ↔ Idle m s) ∧ (Idle m s → Fresh s') := by
  have hkeep (hfresh : Fresh s') : (Delivers s' ↔ True) ∧ (True → Fresh s') :=
    ⟨iff_of_true hfresh.delivers trivial, fun _ => hfresh⟩
  cases m with
  | dmac => exact dmac_of_fresh h hs'
  | sio2 =>
    obtain ⟨t, ht, hs'⟩ := bind_eq_ok_iff.mp hs'
    obtain rfl := Except.ok.inj hs'
    exact sio2_of_fresh h ht
  | sio0 =>
    obtain ⟨t, ht, hs'⟩ := bind_eq_ok_iff.mp hs'
    obtain rfl := Except.ok.inj hs'
    have hframe := Sio.sio0TimeStep_frame ht
    exact hkeep (h.setSio ⟨hframe.fifoToSio2, hframe.fifoFromSio2, hframe.sent, hframe.moved⟩)
  | toSio2 madr bcr chcr hd =>
    obtain rfl := Except.ok.inj hs'
    exact hkeep (h.writeToSio2 madr bcr hd)
  | fromSio2 madr bcr chcr hd =>
    obtain rfl := Except.ok.inj hs'
    exact hkeep (h.writeFromSio2 madr bcr hd)
  | ctrl value =>
    obtain rfl := Except.ok.inj hs'
    exact hkeep (h.setSio ⟨rfl, rfl, rfl, rfl⟩)
  | ctrl3 port value =>
    obtain rfl := Except.ok.inj hs'
    exact hkeep (h.setSio ⟨rfl, rfl, rfl, rfl⟩)
  | rest f =>
    obtain rfl := Except.ok.inj hs'
    exact hkeep (h.of_serial (f.serial s) (f.toSio2 s) (f.fromSio2 s))

/-- In a run from empty queues the bytes go where they should just as long as none goes anywhere. -/
theorem delivered_iff {s t : IopDmac} (hs : Fresh s) {moves : List Move} (hrun : Run.run step moves s = .ok t) :
    Run.Always step (fun m s => ∀ s', step m s = .ok s' → Delivers s') moves s ↔ Run.Always step Idle moves s := by
  refine Run.always_iff_of_run (fun m s s' h hs' => ?_) hs hrun
  obtain ⟨hiff, hkeep⟩ := delivers_step m h hs'
  refine ⟨⟨fun hall => hiff.mp (hall s' hs'), fun hidle u hu => ?_⟩, hkeep⟩
  obtain rfl := Except.ok.inj (hs'.symm.trans hu)
  exact hiff.mpr hidle

/-- A machine with nothing in its queues, the two channels enabled and `0x42` in every byte of the memory. -/
def quiet : IopDmac where
  gctrl := 1
  pcr0 := 0
  pcr1 := 0x880000
  icr0 := 0
  icr1 := 0
  channels _ :=
    { madr := 0, bcr := 0, transferLength := 0, chcr := { w := 0, dmaStarted := false, dmaTag := .blank }, tadr := 0 }
  memory := { mapped := fun _ => true, byte := fun _ => 0x42 }
  others _ := .empty
  sio :=
    { sio0 :=
        { commandQueue := .empty
          responseQueue := .empty
          stat := { txRdy1 := false, rxNonempty := false, txRdy2 := false, dsr := false, irq := false }
          ctrl := { resetIrq := false, sioReset := false, ackIntEn := false, port := false } }
      ctrl :=
        { w := 0
          transferStarted := false
          transferPort := 0
          transferPortCount := 0
          transferDirection := .rx
          writeLatch := false }
      ports := fun _ => { w := 0, writeLatch := false, portTransferStarted := false }
      fifoToSio2 := .empty
      fifoFromSio2 := .empty
      intcSio0 := false
      intcSio2 := false
      sent := []
      received := []
      responses := []
      moved := []
      raised := 0 }
  intcDmac := false
  read := []
  stored := []

theorem fresh_quiet : Fresh quiet :=
  ⟨⟨rfl, rfl⟩, ⟨rfl, rfl⟩, ⟨rfl, rfl⟩, fun h => absurd h (by decide +kernel), fun _ => by decide +kernel⟩

/-- Channel 11 has started and has not moved its word yet. -/
theorem delivered_iff_quiet :
    Run.Always step (fun m s => ∀ s', step m s = .ok s' → Delivers s')
      [.toSio2 0 1 0x1000001 (by decide), .dmac, .sio2, .sio0] quiet := by
  obtain ⟨t, hrun, -⟩ : ∃ t, Run.run step [.toSio2 0 1 0x1000001 (by decide), .dmac, .sio2, .sio0] quiet = .ok t ∧
    (t.channels 11).chcr.dmaStarted = true := by decide +kernel
  exact (delivered_iff fresh_quiet hrun).mpr (by decide +kernel)

/-- The word is in the queue from the SIO2, where no command is taken from, and channel 11 does not end. -/
theorem word_lost : Fresh quiet ∧
    ∃ s, Run.run step [.toSio2 0 1 0x1000001 (by decide), .dmac, .dmac, .sio2, .sio0, .dmac] quiet = .ok s ∧
      ¬Delivers s ∧ s.read = [0x42, 0x42, 0x42, 0x42] ∧ s.sio.fifoFromSio2.bytes = [0x42, 0x42, 0x42, 0x42] ∧
      (s.channels 11).chcr.started = true := by
  obtain ⟨s, hrun, hread, hsent, hto, hfrom, hstarted⟩ :
      ∃ s, Run.run step [.toSio2 0 1 0x1000001 (by decide), .dmac, .dmac, .sio2, .sio0, .dmac] quiet = .ok s ∧
        s.read = [0x42, 0x42, 0x42, 0x42] ∧ s.sio.sent = [] ∧ s.sio.fifoToSio2.bytes = [] ∧
        s.sio.fifoFromSio2.bytes = [0x42, 0x42, 0x42, 0x42] ∧ (s.channels 11).chcr.started = true := by
    decide +kernel
  refine ⟨fresh_quiet, s, hrun, fun hdelivers => ?_, hread, hfrom, hstarted⟩
  have hcommands := hdelivers.commands
  rw [hread, hsent, hto] at hcommands
  cases hcommands

end IopDmac

end Orbum
