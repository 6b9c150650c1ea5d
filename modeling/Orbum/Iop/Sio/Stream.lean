import Orbum.Iop.Sio.Invariant
import Orbum.Lib.Run

/-!
# The byte stream between SIO2 and SIO0

After a start in the sending direction the SIO2 moves as many bytes as its ports ask for from `fifo_tosio2` to the
SIO0, which answers each; after a start in the receiving direction it moves answers to `fifo_fromsio2`.

Three things go wrong. The start only asks for the reset of the SIO0, so bytes sent before the next step of the SIO0
are thrown away with its queues. The reset leaves `RX_NONEMPTY` as it was, so that an answer may be taken from an
empty queue. And a step of the SIO2 after the last port looks up a port that does not exist.

## The model

The two controllers take steps in any order, and the IOP starts the receiving transfer once the sending one is
done. `Fits` excludes just the steps of the SIO2 at which one of the three happens.
-/

namespace Orbum

namespace Sio

/-! ### Moves -/

/-- A step of a controller, or the IOP writes `CTRL`. -/
inductive Move where
  /-- `CSio2::time_step`. -/
  | sio2
  /-- `CSio0::time_step`. -/
  | sio0
  /-- The IOP writes `CTRL`, to receive. -/
  | startRx (value : Uword)

/-- What a move does. -/
def step : Move → Sio → Except HostError Sio
  | .sio2, s => s.sio2TimeStep
  | .sio0, s => s.sio0TimeStep
  | .startRx value, s => .ok (s.setCtrl (s.ctrl.busWriteUword value))

/-- The sending transfer is done. -/
def TxDone (s : Sio) : Prop :=
  s.ctrl.transferStarted = false ∧ s.ctrl.writeLatch = false ∧ s.ctrl.transferDirection = .tx

/-- The receiving transfer is done. -/
def RxDone (s : Sio) : Prop :=
  s.ctrl.transferStarted = false ∧ s.ctrl.writeLatch = false ∧ s.ctrl.transferDirection = .rx

/-- The index into `ports` in the next step of the SIO2. -/
def portIndex (s : Sio) : ℕ := if s.Starts then 0 else s.ctrl.transferPort

/-- `transfer_port_count` there. -/
def portCount (s : Sio) : ℕ := if s.Starts then 0 else s.ctrl.transferPortCount

/-- The direction there. -/
def Directed (s : Sio) (direction : Sio2Direction) : Prop :=
  (s.Starts → s.ctrl.getDirection = .ok direction) ∧ (¬s.Starts → s.ctrl.transferDirection = direction)

/-- The next step of the SIO2 sends a byte. -/
structure SendsNext (s : Sio) : Prop where
  /-- It is sending. -/
  sending : s.Directed .tx
  /-- The port has a byte left. -/
  left : s.portCount ≠ (s.ports s.portIndex).cmdLength
  /-- The SIO0 is ready, for the first byte of a port doubly so. -/
  ready : s.sio0.stat.txRdy1 = true ∧ (s.portCount = 0 → s.sio0.stat.txRdy2 = true)
  /-- There is a byte. -/
  available : s.fifoToSio2.bytes ≠ []

/-- The next step of the SIO2 receives a byte. -/
structure ReceivesNext (s : Sio) : Prop where
  /-- It is receiving. -/
  receiving : s.Directed .rx
  /-- The port has a byte left. -/
  left : s.portCount ≠ (s.ports s.portIndex).responseLength
  /-- There is room for it. -/
  room : s.fifoFromSio2.bytes.length < 1024
  /-- The SIO0 says that there is one. -/
  available : s.sio0.stat.rxNonempty = true

/-- The condition on a move. The SIO2 does not step between transfers, sends nothing before the SIO0 has made the
reset, and receives nothing while `RX_NONEMPTY` is wrong. The IOP starts to receive when all is sent. -/
def Fits : Move → Sio → Prop
  | .sio2, s => (s.Starts ∨ s.ctrl.transferStarted = true) ∧
    (s.SendsNext → ¬s.Starts ∧ s.sio0.ctrl.sioReset = false) ∧ (s.ReceivesNext → s.sio0.responseQueue.bytes ≠ [])
  | .sio0, _ => True
  | .startRx value, s => TxDone s ∧ Sio2Ctrl.directionOf value = .ok .rx

instance (s : Sio) (d : Sio2Direction) : Decidable (s.Directed d) := inferInstanceAs (Decidable (_ ∧ _))

instance (s : Sio) : Decidable s.SendsNext :=
  decidable_of_iff (s.Directed .tx ∧ s.portCount ≠ (s.ports s.portIndex).cmdLength ∧
    (s.sio0.stat.txRdy1 = true ∧ (s.portCount = 0 → s.sio0.stat.txRdy2 = true)) ∧ s.fifoToSio2.bytes ≠ [])
    ⟨fun ⟨h1, h2, h3, h4⟩ => ⟨h1, h2, h3, h4⟩, fun h => ⟨h.sending, h.left, h.ready, h.available⟩⟩

instance (s : Sio) : Decidable s.ReceivesNext :=
  decidable_of_iff (s.Directed .rx ∧ s.portCount ≠ (s.ports s.portIndex).responseLength ∧
    s.fifoFromSio2.bytes.length < 1024 ∧ s.sio0.stat.rxNonempty = true)
    ⟨fun ⟨h1, h2, h3, h4⟩ => ⟨h1, h2, h3, h4⟩, fun h => ⟨h.receiving, h.left, h.room, h.available⟩⟩

instance (s : Sio) : Decidable s.TxDone := inferInstanceAs (Decidable (_ ∧ _ ∧ _))

instance (s : Sio) : Decidable s.RxDone := inferInstanceAs (Decidable (_ ∧ _ ∧ _))

instance : ∀ (m : Move) (s : Sio), Decidable (Fits m s)
  | .sio2, _ => inferInstanceAs (Decidable ((_ ∨ _) ∧ (_ → _) ∧ (_ → _)))
  | .sio0, _ => isTrue trivial
  | .startRx _, _ => inferInstanceAs (Decidable (_ ∧ _))

variable {s₀ s s' : Sio}

theorem sendsNext_of_starts (h : s.Starts) (hd : s.ctrl.getDirection = .ok .tx) (hleft : 0 ≠ (s.ports 0).cmdLength)
    (hready : s.sio0.stat.txRdy1 = true ∧ s.sio0.stat.txRdy2 = true) (havailable : s.fifoToSio2.bytes ≠ []) :
    s.SendsNext where
  sending := ⟨fun _ => hd, fun hn => absurd h hn⟩
  left := by rwa [portCount, portIndex, if_pos h, if_pos h]
  ready := ⟨hready.1, fun _ => hready.2⟩
  available := havailable

theorem receivesNext_of_starts (h : s.Starts) (hd : s.ctrl.getDirection = .ok .rx)
    (hleft : 0 ≠ (s.ports 0).responseLength) (hready : s.RxReady) : s.ReceivesNext where
  receiving := ⟨fun _ => hd, fun hn => absurd h hn⟩
  left := by rwa [portCount, portIndex, if_pos h, if_pos h]
  room := hready.2
  available := hready.1

theorem sendsNext_of_not_starts (h : ¬s.Starts) (hd : s.ctrl.transferDirection = .tx)
    (hleft : s.ctrl.transferPortCount ≠ (s.ports s.ctrl.transferPort).cmdLength) (hready : s.TxReady) :
    s.SendsNext where
  sending := ⟨fun hs => absurd hs h, fun _ => hd⟩
  left := by rwa [portCount, portIndex, if_neg h, if_neg h]
  ready := by rw [portCount, if_neg h]; exact ⟨hready.1, hready.2.1⟩
  available := hready.2.2

theorem receivesNext_of_not_starts (h : ¬s.Starts) (hd : s.ctrl.transferDirection = .rx)
    (hleft : s.ctrl.transferPortCount ≠ (s.ports s.ctrl.transferPort).responseLength) (hready : s.RxReady) :
    s.ReceivesNext where
  receiving := ⟨fun hs => absurd hs h, fun _ => hd⟩
  left := by rwa [portCount, portIndex, if_neg h, if_neg h]
  room := hready.2
  available := hready.1

theorem Directed.unique {d d' : Sio2Direction} (h : s.Directed d) (h' : s.Directed d') : d = d' := by
  by_cases hs : s.Starts
  · exact Except.ok.inj ((h.1 hs).symm.trans (h'.1 hs))
  · exact (h.2 hs).symm.trans (h'.2 hs)

/-! ### A step keeps the invariant -/

/-- The invariant. -/
structure Inv (s₀ s : Sio) : Prop where
  /-- The bytes. -/
  bytes : Bytes s₀ s
  /-- Where the run is. -/
  phase : Phase s₀ s

theorem Started.inv (h : Started s₀) : Inv s₀ s₀ := by
  obtain ⟨hsent, hmoved, -⟩ := h.fresh
  exact ⟨⟨fun _ => rfl, by rw [hsent, List.nil_append], by rw [hmoved, List.append_nil]⟩, .txPending h.toTxPending⟩

theorem Started.total (h : Started s₀) : s₀.commandTotal ≤ 1024 := h.commands.trans s₀.fifoToSio2.bounded

/-- The SIO2 has something to do. -/
def Goes (s : Sio) : Prop :=
  s.Starts ∨
    (s.ctrl.transferDirection = .tx ∧
      (s.ctrl.transferPortCount = (s.ports s.ctrl.transferPort).cmdLength ∨ s.TxReady)) ∨
    (s.ctrl.transferDirection = .rx ∧
      (s.ctrl.transferPortCount = (s.ports s.ctrl.transferPort).responseLength ∨ s.RxReady))

theorem Tx.not_starts (h : Tx s₀ s) : ¬s.Starts := fun hs => Bool.false_ne_true (h.unlatched.symm.trans hs.1)

theorem Rx.not_starts (h : Rx s₀ s) : ¬s.Starts := fun hs => Bool.false_ne_true (h.unlatched.symm.trans hs.1)

theorem Tx.goes (h : Tx s₀ s) (hgoes : s.Goes) :
    s.ctrl.transferPortCount = (s.ports s.ctrl.transferPort).cmdLength ∨ s.TxReady := by
  rcases hgoes with hs | ⟨-, hgoes⟩ | ⟨hd, -⟩
  · exact absurd hs h.not_starts
  · exact hgoes
  · cases h.direction.symm.trans hd

theorem Rx.goes (h : Rx s₀ s) (hgoes : s.Goes) :
    s.ctrl.transferPortCount = (s.ports s.ctrl.transferPort).responseLength ∨ s.RxReady := by
  rcases hgoes with hs | ⟨hd, -⟩ | ⟨-, hgoes⟩
  · exact absurd hs h.not_starts
  · cases h.direction.symm.trans hd
  · exact hgoes

theorem sio2TimeStep_of_starts {d : Sio2Direction} (h : s.Starts) (hd : s.ctrl.getDirection = .ok d) :
    s.sio2TimeStep = ((if d = .tx then s.handleSio0Reset else s).setCtrl (s.startCtrl d)).handlePortTrasnfer := by
  rw [sio2TimeStep, handleCtrlCheck_of_starts h hd, ok_bind]

theorem sio2TimeStep_of_not_starts (h : ¬s.Starts) : s.sio2TimeStep = s.handlePortTrasnfer := by
  rw [sio2TimeStep, handleCtrlCheck_of_not_starts h, ok_bind]

/-- A step of the SIO2 that fits. -/
theorem Inv.sio2 (hs₀ : Started s₀) (h : Inv s₀ s) (hfit : Fits .sio2 s) :
    ∃ s', s.sio2TimeStep = .ok s' ∧ Advances s₀ s s.Goes s' := by
  obtain ⟨hgoing, hsends, hreceives⟩ := hfit
  obtain ⟨hb, hphase⟩ := h
  cases hphase with
  | txPending h =>
    have hb' : Bytes s₀ (s.handleSio0Reset.setCtrl (s.startCtrl .tx)) := ⟨hb.ports, hb.sent, hb.moved⟩
    rw [sio2TimeStep_of_starts h.starts h.direction, if_pos rfl]
    obtain ⟨s', hs', hadv⟩ := h.start.handlePortTrasnfer hb' h.queues hs₀.total rfl (Nat.zero_lt_succ _)
      fun hleft hready => absurd h.starts
        (hsends (sendsNext_of_starts h.starts h.direction (hb.cmdLength 0 ▸ hleft) ⟨hready.1, hready.2.1 rfl⟩
          hready.2.2)).1
    have hlt := hadv.work_le.trans_lt h.work
    exact ⟨s', hs', hadv.bytes, hadv.phase, hlt.le, fun _ => hlt⟩
  | tx hstarted hport hq h =>
    have hlength := hb.cmdLength s.ctrl.transferPort
    rw [sio2TimeStep_of_not_starts h.not_starts]
    obtain ⟨s', hs', hadv⟩ := h.handlePortTrasnfer hb hq hs₀.total hstarted hport fun hleft hready =>
      (hsends (sendsNext_of_not_starts h.not_starts h.direction (hlength ▸ hleft) hready)).2
    exact ⟨s', hs', hadv.bytes, hadv.phase, hadv.work_le, fun hgoes => hadv.work_lt (hlength ▸ h.goes hgoes)⟩
  | txDone hstopped _ _ h =>
    rcases hgoing with hs | hstarted
    · exact absurd hs h.not_starts
    · exact absurd (hstopped.symm.trans hstarted) Bool.false_ne_true
  | rxPending hlatch hstopped hd hq hsent hports hfresh =>
    have hs : s.Starts := ⟨hlatch, hstopped⟩
    have hrx : Rx s₀ (s.setCtrl (s.startCtrl .rx)) :=
      ⟨hsent, rfl, rfl, congrArg List.length hfresh.1 ▸ Ports.start _ _, fun k _ hk => hports k hk⟩
    rw [sio2TimeStep_of_starts hs hd, if_neg (by decide)]
    obtain ⟨s', hs', hadv⟩ := hrx.handlePortTrasnfer (hb.setCtrl _) (hq.setCtrl _) hs₀.responses rfl
      (Nat.zero_lt_succ _) hfresh.2 fun hleft hready =>
        hreceives (receivesNext_of_starts hs hd (hb.responseLength 0 ▸ hleft) hready)
    have hwork := work_start s₀ hs .rx
    have hlt : work s₀ s' < work s₀ s := by
      have hle := hadv.work_le
      omega
    exact ⟨s', hs', hadv.bytes, hadv.phase, hlt.le, fun _ => hlt⟩
  | rx hstarted hport hq h hraised =>
    have hlength := hb.responseLength s.ctrl.transferPort
    rw [sio2TimeStep_of_not_starts h.not_starts]
    obtain ⟨s', hs', hadv⟩ := h.handlePortTrasnfer hb hq hs₀.responses hstarted hport hraised fun hleft hready =>
      hreceives (receivesNext_of_not_starts h.not_starts h.direction (hlength ▸ hleft) hready)
    exact ⟨s', hs', hadv.bytes, hadv.phase, hadv.work_le, fun hgoes => hadv.work_lt (hlength ▸ h.goes hgoes)⟩
  | rxDone hstopped _ _ h _ =>
    rcases hgoing with hs | hstarted
    · exact absurd hs h.not_starts
    · exact absurd (hstopped.symm.trans hstarted) Bool.false_ne_true

/-- A step of the SIO0. -/
theorem Inv.sio0 (hs₀ : Started s₀) (h : Inv s₀ s) : ∃ s', s.sio0TimeStep = .ok s' ∧ Advances s₀ s s.Busy s' := by
  obtain ⟨q, s', hs', hirq, htransfer⟩ := sio0TimeStep_eq s
  obtain ⟨hle, hlt⟩ := work_sio0 s₀ hirq htransfer
  exact ⟨s', hs', h.bytes.sio0 (((sio0Frame_handleResetCheck s).trans hirq.toSio0Frame).trans htransfer.frame),
    h.phase.sio0 hs₀.responses hirq htransfer, hle, hlt⟩

theorem TxDone.phase (h : TxDone s) (hphase : Phase s₀ s) :
    s.ctrl.transferPort = 16 ∧ Queues s₀ s ∧ Tx s₀ s := by
  obtain ⟨hstopped, hlatch, hd⟩ := h
  cases hphase with
  | txPending h => exact absurd (hlatch.symm.trans h.latched) Bool.false_ne_true
  | tx hstarted _ _ _ => exact absurd (hstopped.symm.trans hstarted) Bool.false_ne_true
  | txDone _ hport hq h => exact ⟨hport, hq, h⟩
  | rxPending hl _ _ _ _ _ _ => exact absurd (hlatch.symm.trans hl) Bool.false_ne_true
  | rx hstarted _ _ _ _ => exact absurd (hstopped.symm.trans hstarted) Bool.false_ne_true
  | rxDone _ _ _ h _ => cases hd.symm.trans h.direction

/-- The IOP starts to receive. -/
theorem Inv.startRx (h : Inv s₀ s) {value : Uword} (hfit : Fits (.startRx value) s) :
    Inv s₀ (s.setCtrl (s.ctrl.busWriteUword value)) := by
  obtain ⟨hdone, hd⟩ := hfit
  obtain ⟨hport, hq, htx⟩ := hdone.phase h.phase
  exact ⟨h.bytes.setCtrl _, .rxPending rfl hdone.1 hd (hq.setCtrl _) (htx.sent.eq_of_last hport)
    (fun k hk => htx.started k (hport ▸ hk)) htx.fresh⟩

/-- A move that fits can be made, and a step of a controller leaves no more to do. -/
theorem Inv.step (hs₀ : Started s₀) (h : Inv s₀ s) {m : Move} (hfit : Fits m s) :
    ∃ s', Sio.step m s = .ok s' ∧ Inv s₀ s' ∧ (m = .sio2 ∨ m = .sio0 → work s₀ s' ≤ work s₀ s) := by
  cases m with
  | sio2 =>
    obtain ⟨s', hs', hadv⟩ := h.sio2 hs₀ hfit
    exact ⟨s', hs', ⟨hadv.bytes, hadv.phase⟩, fun _ => hadv.work_le⟩
  | sio0 =>
    obtain ⟨s', hs', hadv⟩ := h.sio0 hs₀
    exact ⟨s', hs', ⟨hadv.bytes, hadv.phase⟩, fun _ => hadv.work_le⟩
  | startRx value => exact ⟨_, rfl, h.startRx hfit, fun hm => by rcases hm with hm | hm <;> cases hm⟩

/-! ### Progress -/

/-- Before the sending transfer the SIO2 has something to do, whether the step fits or not. -/
theorem TxPending.progress (h : TxPending s) (hb : Bytes s₀ s) :
    ∃ s', s.sio2TimeStep = .ok s' ∧ Sio.work s₀ s' < Sio.work s₀ s := by
  have hb' : Bytes s₀ (s.handleSio0Reset.setCtrl (s.startCtrl .tx)) := ⟨hb.ports, hb.sent, hb.moved⟩
  have htx : Tx s₀ (s.handleSio0Reset.setCtrl (s.startCtrl .tx)) := h.start
  rw [sio2TimeStep_of_starts h.starts h.direction, if_pos rfl]
  obtain ⟨p, t, hpw, hp, ht, hstep⟩ := htx.sendStep hb' rfl (Nat.zero_lt_succ _) fun _ hready => h.ready hready.1
  obtain ⟨hle, -⟩ := hstep.work (htx.setPort hp) (hb'.setPort hpw) rfl (Nat.zero_lt_succ _)
  exact ⟨_, ht, hle.trans_lt h.work⟩

/-- Where the SIO2 waits to send, after the reset, the SIO0 has something to do. -/
theorem Tx.ready_or_busy (hs₀ : Started s₀) (h : Tx s₀ s) (hb : Bytes s₀ s) (hlive : Live s₀ s)
    (hport : s.ctrl.transferPort < 16) (hleft : s.ctrl.transferPortCount ≠ (s₀.ports s.ctrl.transferPort).cmdLength) :
    s.TxReady ∨ s.Busy := by
  have hlt : s.sent.length < s₀.commandTotal := h.sent.lt hport hleft
  have havailable : s.fifoToSio2.bytes ≠ [] := fun hempty => by
    have hcommands := hs₀.commands
    rw [← hb.sent, hempty, List.append_nil] at hcommands
    omega
  by_cases hready : s.sio0.stat.txRdy2 = true
  · exact .inl ⟨hlive.ready hlt, fun _ => hready, havailable⟩
  · by_cases hempty : s.sio0.commandQueue.bytes = []
    · exact .inr (.inr (.inl ⟨hempty, Bool.eq_false_iff.mpr hready⟩))
    · refine .inr (.inr (.inr ⟨hempty, ?_⟩))
      have hlen := congrArg List.length hlive.sent
      have hresponses := congrArg List.length hlive.moved
      have hpos := List.length_pos_of_ne_nil hempty
      have htotal := hs₀.total
      rw [List.length_append] at hlen hresponses
      rw [hlive.answered] at hresponses
      omega

/-- Where there is no response to receive, the SIO0 has something to do; where there is one, the SIO2 can. -/
theorem Rx.ready_or_busy (hs₀ : Started s₀) (hb : Bytes s₀ s) (hlive : Live s₀ s)
    (hsent : s.sent.length = s₀.commandTotal) (hlt : s.moved.length < s₀.responseTotal) :
    (s.RxReady ∧ s.sio0.responseQueue.bytes ≠ []) ∨ s.Busy := by
  by_cases hempty : s.sio0.responseQueue.bytes = []
  · refine .inr (.inr (.inr ⟨fun hnil => ?_, by rw [hempty]; exact Nat.zero_lt_succ _⟩))
    have hlen := congrArg List.length hlive.sent
    have hresponses := congrArg List.length hlive.moved
    have hle := hs₀.responses
    rw [hnil, List.append_nil] at hlen
    rw [hempty, List.append_nil, hlive.answered] at hresponses
    omega
  · refine .inl ⟨⟨hlive.nonempty hempty, ?_⟩, hempty⟩
    have hroom := hs₀.room
    rw [hb.moved, List.length_append]
    omega

/-- A step of a controller that leaves less to do. The first step of the SIO2 may not fit. -/
def Progress (s₀ s : Sio) : Prop :=
  ∃ m, (m = .sio2 ∨ m = .sio0) ∧ (Fits m s ∨ TxPending s) ∧ ∃ s', step m s = .ok s' ∧ work s₀ s' < work s₀ s

theorem Inv.progress_sio0 (hs₀ : Started s₀) (h : Inv s₀ s) (hbusy : s.Busy) : Progress s₀ s := by
  obtain ⟨s', hs', hadv⟩ := h.sio0 hs₀
  exact ⟨.sio0, .inr rfl, .inl trivial, s', hs', hadv.work_lt hbusy⟩

theorem Inv.progress_sio2 (hs₀ : Started s₀) (h : Inv s₀ s) (hfit : Fits .sio2 s) (hgoes : s.Goes) :
    Progress s₀ s := by
  obtain ⟨s', hs', hadv⟩ := h.sio2 hs₀ hfit
  exact ⟨.sio2, .inl rfl, .inl hfit, s', hs', hadv.work_lt hgoes⟩

/-- As long as no transfer is done, a controller makes progress. -/
theorem Inv.progress (hs₀ : Started s₀) (h : Inv s₀ s) (htx : ¬TxDone s) (hrx : ¬RxDone s) : Progress s₀ s := by
  have hb := h.bytes
  have hlive : Queues s₀ s → ¬s.Busy → s.sio0.ctrl.sioReset = false ∧ Live s₀ s := fun hq hidle => by
    have hreset : s.sio0.ctrl.sioReset = false := Bool.eq_false_iff.mpr fun hreset => hidle (.inl hreset)
    exact ⟨hreset, hq.live hreset⟩
  by_cases hbusy : s.Busy
  · exact h.progress_sio0 hs₀ hbusy
  rcases h.phase with htp | ⟨hstarted, hport, hq, ht⟩ | ⟨hstopped, -, -, ht⟩ |
    ⟨hlatch, hstopped, hd, hq, hsent, -, hfresh⟩ | ⟨hstarted, hport, hq, hr, -⟩ | ⟨hstopped, -, -, hr, -⟩
  · obtain ⟨s', hs', hlt⟩ := htp.progress hb
    exact ⟨.sio2, .inl rfl, .inr htp, s', hs', hlt⟩
  · obtain ⟨hreset, hl⟩ := hlive hq hbusy
    refine h.progress_sio2 hs₀ ⟨.inr hstarted, fun _ => ⟨ht.not_starts, hreset⟩, fun hreceives => ?_⟩
      (.inr (.inl ⟨ht.direction, ?_⟩))
    · cases (hreceives.receiving.2 ht.not_starts).symm.trans ht.direction
    · rw [hb.cmdLength]
      by_cases hleft : s.ctrl.transferPortCount = (s₀.ports s.ctrl.transferPort).cmdLength
      · exact .inl hleft
      · exact .inr ((ht.ready_or_busy hs₀ hb hl hport hleft).resolve_right hbusy)
  · exact absurd ⟨hstopped, ht.unlatched, ht.direction⟩ htx
  · obtain ⟨-, hl⟩ := hlive hq hbusy
    have hs : s.Starts := ⟨hlatch, hstopped⟩
    refine h.progress_sio2 hs₀ ⟨.inl hs, fun hsends => ?_, fun hreceives => ?_⟩ (.inl hs)
    · cases Except.ok.inj ((hsends.sending.1 hs).symm.trans hd)
    · have hleft := hreceives.left
      rw [portCount, portIndex, if_pos hs, if_pos hs, hb.responseLength] at hleft
      have hlt : 0 < s₀.responseTotal := (Ports.start (s := s) _ .rx).lt (Nat.zero_lt_succ _) hleft
      have hzero : s.moved.length = 0 := congrArg List.length hfresh.1
      exact ((Rx.ready_or_busy hs₀ hb hl hsent (hzero ▸ hlt)).resolve_right hbusy).2
  · obtain ⟨-, hl⟩ := hlive hq hbusy
    refine h.progress_sio2 hs₀ ⟨.inr hstarted, fun hsends => ?_, fun hreceives => ?_⟩
      (.inr (.inr ⟨hr.direction, ?_⟩))
    · cases (hsends.sending.2 hr.not_starts).symm.trans hr.direction
    · have hleft := hreceives.left
      rw [portCount, portIndex, if_neg hr.not_starts, if_neg hr.not_starts, hb.responseLength] at hleft
      exact ((Rx.ready_or_busy hs₀ hb hl hr.sent (hr.moved.lt hport hleft)).resolve_right hbusy).2
    · rw [hb.responseLength]
      by_cases hleft : s.ctrl.transferPortCount = (s₀.ports s.ctrl.transferPort).responseLength
      · exact .inl hleft
      · exact .inr ((Rx.ready_or_busy hs₀ hb hl hr.sent (hr.moved.lt hport hleft)).resolve_right hbusy).1
  · exact absurd ⟨hstopped, hr.unlatched, hr.direction⟩ hrx

/-! ### The transfers deliver -/

/-- What the transfers have done. -/
structure Delivers (s₀ s : Sio) : Prop where
  /-- What is sent is taken from the queue, in order. -/
  sent : s.sent ++ s.fifoToSio2.bytes = s₀.fifoToSio2.bytes
  /-- None of it is lost: the SIO0 takes it as commands, in order. -/
  taken : s.sent ≠ [] → s.sent = s.received ++ s.sio0.commandQueue.bytes
  /-- Each command has one response. -/
  answered : s.sent ≠ [] → s.responses.length = s.received.length
  /-- The responses are moved, in order. -/
  moved : s.sent ≠ [] → s.responses = s.moved ++ s.sio0.responseQueue.bytes
  /-- Where nothing is sent nothing is moved. -/
  unsent : s.sent = [] → s.moved = []
  /-- What is moved goes to the queue, in order. -/
  queued : s.fifoFromSio2.bytes = s₀.fifoFromSio2.bytes ++ s.moved
  /-- The sending transfer sends what the ports ask for. -/
  txDone : TxDone s → s.sent.length = s₀.commandTotal
  /-- The receiving transfer moves what the ports ask for, and then raises the interrupt, once. -/
  rxDone : RxDone s → s.moved.length = s₀.responseTotal ∧ s.raised = 1 ∧ s.intcSio2 = true
  /-- Before it does not. -/
  quiet : ¬RxDone s → s.raised = 0

theorem Phase.queues (h : Phase s₀ s) (hsent : s.sent ≠ []) : Live s₀ s := by
  have hlive : Queues s₀ s → Live s₀ s := fun hq => hq.live (Bool.eq_false_iff.mpr fun hreset => hsent (hq.pending hreset))
  cases h with
  | txPending h => exact absurd h.fresh.1 hsent
  | tx _ _ hq _ => exact hlive hq
  | txDone _ _ hq _ => exact hlive hq
  | rxPending _ _ _ hq _ _ _ => exact hlive hq
  | rx _ _ hq _ _ => exact hlive hq
  | rxDone _ _ hq _ _ => exact hlive hq

theorem RxDone.phase (h : RxDone s) (hphase : Phase s₀ s) :
    s.ctrl.transferPort = 16 ∧ Rx s₀ s ∧ s.raised = 1 ∧ s.intcSio2 = true := by
  obtain ⟨hstopped, hlatch, hd⟩ := h
  cases hphase with
  | txPending h => exact absurd (hlatch.symm.trans h.latched) Bool.false_ne_true
  | tx hstarted _ _ _ => exact absurd (hstopped.symm.trans hstarted) Bool.false_ne_true
  | txDone _ _ _ h => cases hd.symm.trans h.direction
  | rxPending hl _ _ _ _ _ _ => exact absurd (hlatch.symm.trans hl) Bool.false_ne_true
  | rx hstarted _ _ _ _ => exact absurd (hstopped.symm.trans hstarted) Bool.false_ne_true
  | rxDone _ hport _ h hraised => exact ⟨hport, h, hraised⟩

theorem Phase.quiet (h : Phase s₀ s) (hdone : ¬RxDone s) : s.raised = 0 := by
  cases h with
  | txPending h => exact h.fresh.2.2
  | tx _ _ _ h => exact h.fresh.2
  | txDone _ _ _ h => exact h.fresh.2
  | rxPending _ _ _ _ _ _ h => exact h.2
  | rx _ _ _ _ h => exact h
  | rxDone hstopped _ _ h _ => exact absurd ⟨hstopped, h.unlatched, h.direction⟩ hdone

theorem Inv.delivers (hs₀ : Started s₀) (h : Inv s₀ s) : Delivers s₀ s where
  sent := h.bytes.sent
  taken hsent := (h.phase.queues hsent).sent
  answered hsent := (h.phase.queues hsent).answered
  moved hsent := (h.phase.queues hsent).moved
  unsent := h.phase.moved_eq_nil hs₀.responses
  queued := h.bytes.moved
  txDone hdone := by
    obtain ⟨hport, -, htx⟩ := hdone.phase h.phase
    exact htx.sent.eq_of_last hport
  rxDone hdone := by
    obtain ⟨hport, hrx, hraised⟩ := hdone.phase h.phase
    exact ⟨hrx.moved.eq_of_last hport, hraised⟩
  quiet := h.phase.quiet

/-- A step of the SIO2 that fits uses a port that exists. -/
theorem Inv.portIndex_lt (h : Inv s₀ s) (hfit : Fits .sio2 s) : s.portIndex < 16 := by
  rw [portIndex]
  split_ifs with hs
  · exact Nat.zero_lt_succ _
  have hstarted := hfit.1.resolve_left hs
  cases h.phase with
  | txPending h => exact absurd h.starts hs
  | tx _ hport _ _ => exact hport
  | txDone hstopped _ _ _ => exact absurd (hstopped.symm.trans hstarted) Bool.false_ne_true
  | rxPending hlatch hstopped _ _ _ _ _ => exact absurd ⟨hlatch, hstopped⟩ hs
  | rx _ hport _ _ _ => exact hport
  | rxDone hstopped _ _ _ _ => exact absurd (hstopped.symm.trans hstarted) Bool.false_ne_true

/-- In a run that fits the ports exist, no move throws, the bytes are delivered, and some controller can always make
progress, which none undoes, until the transfer is done. -/
theorem stream_delivered (hs₀ : Started s₀) {moves : List Move} (hfits : Run.Always step Fits moves s₀) :
    Run.Always step (fun m s => (m = .sio2 → s.portIndex < 16) ∧
      ∃ s', step m s = .ok s' ∧ (m = .sio2 ∨ m = .sio0 → work s₀ s' ≤ work s₀ s)) moves s₀ ∧
      ∀ s, Run.run step moves s₀ = .ok s → Delivers s₀ s ∧ (¬TxDone s → ¬RxDone s → Progress s₀ s) := by
  have hstep : ∀ m s s', Inv s₀ s → Fits m s → step m s = .ok s' → Inv s₀ s' := fun m s s' h hfit hs' => by
    obtain ⟨t, ht, hinv, -⟩ := h.step hs₀ hfit
    obtain rfl := Except.ok.inj (hs'.symm.trans ht)
    exact hinv
  constructor
  · refine hfits.invariant hstep (fun m s h hfit => ?_) hs₀.inv
    obtain ⟨s', hs', -, hwork⟩ := h.step hs₀ hfit
    refine ⟨?_, s', hs', hwork⟩
    rintro rfl
    exact h.portIndex_lt hfit
  · intro s hrun
    have hinv := hfits.invariant_run hstep hs₀.inv hrun
    exact ⟨hinv.delivers hs₀, hinv.progress hs₀⟩

/-- The IOP has asked for one byte to be sent by the first port, and for one to be received; `TX_RDY1` and `TX_RDY2`
are as given. -/
def oneByte (ready : Bool) : Sio where
  sio0 :=
    { commandQueue := .empty
      responseQueue := .empty
      stat := { txRdy1 := ready, rxNonempty := false, txRdy2 := ready, dsr := false, irq := false }
      ctrl := { resetIrq := false, sioReset := false, ackIntEn := false, port := false } }
  ctrl :=
    { w := 0xC
      transferStarted := false
      transferPort := 16
      transferPortCount := 0
      transferDirection := .rx
      writeLatch := true }
  ports k := { w := if k = 0 then 0x40100 else 0, writeLatch := true, portTransferStarted := false }
  fifoToSio2 := ⟨[0x42], by decide⟩
  fifoFromSio2 := .empty
  intcSio0 := false
  intcSio2 := false
  sent := []
  received := []
  responses := []
  moved := []
  raised := 0

theorem started_oneByte (ready : Bool) : Started (oneByte ready) where
  latched := rfl
  stopped := rfl
  direction := by cases ready <;> decide +kernel
  ports _ _ := rfl
  ready _ := Nat.zero_lt_succ _
  fresh := ⟨rfl, rfl, rfl⟩
  commands := by cases ready <;> decide +kernel
  responses := by cases ready <;> decide +kernel
  room := by cases ready <;> decide +kernel

/-- The reset made, the byte sent and answered, the other ports skipped, and the same in the other direction. -/
def oneByteMoves : List Move :=
  [.sio2, .sio0, .sio2, .sio0] ++ List.replicate 15 .sio2 ++ .startRx 0xD :: List.replicate 16 .sio2

theorem stream_delivered_oneByte :
    ∃ s, Run.run step oneByteMoves (oneByte false) = .ok s ∧ RxDone s ∧ Delivers (oneByte false) s := by
  have hfits : Run.Always step Fits oneByteMoves (oneByte false) := by decide +kernel
  obtain ⟨s, hrun, hdone⟩ : ∃ s, Run.run step oneByteMoves (oneByte false) = .ok s ∧ RxDone s := by decide +kernel
  exact ⟨s, hrun, hdone, ((stream_delivered (started_oneByte false) hfits).2 s hrun).1⟩

/-- The byte is sent to a SIO0 that is ready from before, and thrown away with its queues. -/
theorem byte_lost : Started (oneByte true) ∧
    ∃ s, Run.run step (.sio2 :: .sio0 :: List.replicate 15 .sio2) (oneByte true) = .ok s ∧ TxDone s ∧
      s.sent = [0x42] ∧ s.received = [] ∧ s.sio0.commandQueue.bytes = [] :=
  ⟨started_oneByte true, by decide +kernel⟩

end Sio

end Orbum
