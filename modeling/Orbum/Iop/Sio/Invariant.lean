import Mathlib.Algebra.Order.BigOperators.Group.Finset
import Orbum.Iop.Sio.Steps

/-!
# The invariant of the IOP serial interfaces

What holds in a sending transfer of the SIO2 and the receiving transfer after it: where every byte has got, how far
the ports are, and that the queues of the SIO0 hold what is sent and answered since its reset.

`work` is what is left to do. No step of a controller adds to it.
-/

namespace Orbum

namespace Sio

/-! ### The transfers -/

/-- The bytes the ports send. -/
def commandTotal (s : Sio) : ℕ := ∑ k ∈ Finset.range 16, (s.ports k).cmdLength

/-- The bytes the ports receive. -/
def responseTotal (s : Sio) : ℕ := ∑ k ∈ Finset.range 16, (s.ports k).responseLength

/-- The SIO2 has yet to see that `CTRL` is written. -/
structure TxPending (s : Sio) : Prop where
  /-- `CTRL` is written. -/
  latched : s.ctrl.writeLatch = true
  /-- No transfer is going on. -/
  stopped : s.ctrl.transferStarted = false
  /-- To send. -/
  direction : s.ctrl.getDirection = .ok .tx
  /-- Every `CTRL3` is written. -/
  ports : ∀ k, k < 16 → (s.ports k).writeLatch = true
  /-- `TX_RDY1` is set only if a command fits. -/
  ready : s.sio0.stat.txRdy1 = true → s.sio0.commandQueue.bytes.length < 1024
  /-- Nothing is recorded yet. -/
  fresh : s.sent = [] ∧ s.moved = [] ∧ s.raised = 0

/-- The IOP has written `CTRL` to send, and all `CTRL3`. -/
structure Started (s : Sio) : Prop extends TxPending s where
  /-- The commands are in the queue. -/
  commands : s.commandTotal ≤ s.fifoToSio2.bytes.length
  /-- No more is received than sent. -/
  responses : s.responseTotal ≤ s.commandTotal
  /-- There is room for what is received. -/
  room : s.fifoFromSio2.bytes.length + s.responseTotal ≤ 1024

/-! ### The invariant -/

/-- The bytes, wherever they have got. -/
structure Bytes (s₀ s : Sio) : Prop where
  /-- `CTRL3` keeps its value. -/
  ports : ∀ k, (s.ports k).w = (s₀.ports k).w
  /-- What is sent is taken from the queue, in order. -/
  sent : s.sent ++ s.fifoToSio2.bytes = s₀.fifoToSio2.bytes
  /-- What is moved goes to the queue, in order. -/
  moved : s.fifoFromSio2.bytes = s₀.fifoFromSio2.bytes ++ s.moved

/-- The queues of the SIO0 since its reset. -/
structure Live (s₀ s : Sio) : Prop where
  /-- What is sent is taken as a command, in order. -/
  sent : s.sent = s.received ++ s.sio0.commandQueue.bytes
  /-- Each command has a response. -/
  answered : s.responses.length = s.received.length
  /-- The responses are moved, in order. -/
  moved : s.responses = s.moved ++ s.sio0.responseQueue.bytes
  /-- Where there is a response `RX_NONEMPTY` says so. -/
  nonempty : s.sio0.responseQueue.bytes ≠ [] → s.sio0.stat.rxNonempty = true
  /-- Where there is a byte to send `TX_RDY1` is set. -/
  ready : s.sent.length < s₀.commandTotal → s.sio0.stat.txRdy1 = true

/-- The reset comes before the first byte. -/
structure Queues (s₀ s : Sio) : Prop where
  /-- Until the reset nothing is sent. -/
  pending : s.sio0.ctrl.sioReset = true → s.sent = []
  /-- The queues since then. -/
  live : s.sio0.ctrl.sioReset = false → Live s₀ s

/-- Of what the ports have to move, as `f` says, `done` bytes are moved: all of the ports before this one, and not
more of this one than it has to. -/
structure Ports (f : ℕ → ℕ) (done : ℕ) (c : Sio2Ctrl) : Prop where
  /-- There are 16 ports. -/
  port : c.transferPort ≤ 16
  /-- What is moved. -/
  done : done = ∑ k ∈ Finset.range c.transferPort, f k + c.transferPortCount
  /-- This port has not moved more than it has to. -/
  count : c.transferPort < 16 → c.transferPortCount ≤ f c.transferPort
  /-- There is no port after the last. -/
  last : c.transferPort = 16 → c.transferPortCount = 0

/-- The SIO2 is sending, or has sent. -/
structure Tx (s₀ s : Sio) : Prop where
  /-- The write of `CTRL` is seen. -/
  unlatched : s.ctrl.writeLatch = false
  /-- To send. -/
  direction : s.ctrl.transferDirection = .tx
  /-- What is sent. -/
  sent : Ports (fun k => (s₀.ports k).cmdLength) s.sent.length s.ctrl
  /-- The ports before this one have started. -/
  started : ∀ k, k < s.ctrl.transferPort → (s.ports k).portTransferStarted = true
  /-- The others have, or can. -/
  ports : ∀ k, k < 16 → (s.ports k).portTransferStarted = true ∨ (s.ports k).writeLatch = true
  /-- Nothing is moved. -/
  fresh : s.moved = [] ∧ s.raised = 0

/-- The SIO2 is receiving, or has received. -/
structure Rx (s₀ s : Sio) : Prop where
  /-- Everything is sent. -/
  sent : s.sent.length = s₀.commandTotal
  /-- The write of `CTRL` is seen. -/
  unlatched : s.ctrl.writeLatch = false
  /-- To receive. -/
  direction : s.ctrl.transferDirection = .rx
  /-- What is moved. -/
  moved : Ports (fun k => (s₀.ports k).responseLength) s.moved.length s.ctrl
  /-- The ports from this one on have started. -/
  ports : ∀ k, s.ctrl.transferPort ≤ k → k < 16 → (s.ports k).portTransferStarted = true

/-- Where the run is. -/
inductive Phase (s₀ s : Sio) : Prop where
  /-- Before the sending transfer. -/
  | txPending : TxPending s → Phase s₀ s
  /-- In the sending transfer. -/
  | tx : s.ctrl.transferStarted = true → s.ctrl.transferPort < 16 → Queues s₀ s → Tx s₀ s → Phase s₀ s
  /-- After it. -/
  | txDone : s.ctrl.transferStarted = false → s.ctrl.transferPort = 16 → Queues s₀ s → Tx s₀ s → Phase s₀ s
  /-- Before the receiving transfer. -/
  | rxPending : s.ctrl.writeLatch = true → s.ctrl.transferStarted = false → s.ctrl.getDirection = .ok .rx →
      Queues s₀ s → s.sent.length = s₀.commandTotal → (∀ k, k < 16 → (s.ports k).portTransferStarted = true) →
      s.moved = [] ∧ s.raised = 0 → Phase s₀ s
  /-- In the receiving transfer. -/
  | rx : s.ctrl.transferStarted = true → s.ctrl.transferPort < 16 → Queues s₀ s → Rx s₀ s → s.raised = 0 → Phase s₀ s
  /-- After it. -/
  | rxDone : s.ctrl.transferStarted = false → s.ctrl.transferPort = 16 → Queues s₀ s → Rx s₀ s →
      s.raised = 1 ∧ s.intcSio2 = true → Phase s₀ s

variable {s₀ s s' : Sio}

/-! ### Counting through the ports -/

section

variable {f : ℕ → ℕ} {done : ℕ} {c : Sio2Ctrl}

theorem Ports.lt (h : Ports f done c) (hport : c.transferPort < 16) (hleft : c.transferPortCount ≠ f c.transferPort) :
    done < ∑ k ∈ Finset.range 16, f k := by
  have hsum : ∑ k ∈ Finset.range (c.transferPort + 1), f k ≤ ∑ k ∈ Finset.range 16, f k :=
    Finset.sum_le_sum_of_subset (Finset.range_mono hport)
  have hcount := h.count hport
  rw [Finset.sum_range_succ] at hsum
  rw [h.done]
  omega

theorem Ports.eq_of_last (h : Ports f done c) (hport : c.transferPort = 16) : done = ∑ k ∈ Finset.range 16, f k := by
  rw [h.done, h.last hport, hport, Nat.add_zero]

/-- A byte of this port is moved. -/
theorem Ports.next (h : Ports f done c) (hport : c.transferPort < 16)
    (hleft : c.transferPortCount ≠ f c.transferPort) :
    Ports f (done + 1) { c with transferPortCount := c.transferPortCount + 1 } where
  port := h.port
  done := by rw [h.done, Nat.add_assoc]
  count _ := Nat.lt_of_le_of_ne (h.count hport) hleft
  last hlast := absurd hlast (Nat.ne_of_lt hport)

/-- This port has moved what it has to. -/
theorem Ports.finish (h : Ports f done c) (hport : c.transferPort < 16)
    (hend : c.transferPortCount = f c.transferPort) : Ports f done (nextPort c) where
  port := hport
  done := by
    rw [h.done, hend]
    exact (Finset.sum_range_succ f _).symm
  count _ := Nat.zero_le _
  last _ := rfl

theorem Ports.le (h : Ports f done c) : done ≤ ∑ k ∈ Finset.range 16, f k := by
  rcases Nat.lt_or_eq_of_le h.port with hport | hport
  · by_cases hend : c.transferPortCount = f c.transferPort
    · rw [(h.finish hport hend).done]
      exact Finset.sum_le_sum_of_subset (Finset.range_mono hport)
    · exact Nat.le_of_lt (h.lt hport hend)
  · exact Nat.le_of_eq (h.eq_of_last hport)

theorem Ports.start (f : ℕ → ℕ) (d : Sio2Direction) : Ports f 0 (s.startCtrl d) :=
  ⟨Nat.zero_le _, rfl, fun _ => Nat.zero_le _, fun _ => rfl⟩

end

/-! ### What is left to do -/

/-- What is left to do, in steps of the two controllers. A byte is sent, taken as a command, and `TX_RDY2` set
again; the start of a transfer leaves 16 ports and a reset. -/
def work (s₀ s : Sio) : ℕ :=
  18 * s.ctrl.writeLatch.toNat + s.ctrl.transferStarted.toNat * (16 - s.ctrl.transferPort) +
    3 * (s₀.commandTotal - s.sent.length) + (s₀.responseTotal - s.moved.length) +
    s.sio0.commandQueue.bytes.length + (!s.sio0.stat.txRdy2).toNat + s.sio0.ctrl.sioReset.toNat

/-- What is left to do for the SIO0. -/
def sio0Work (s : Sio) : ℕ :=
  s.sio0.commandQueue.bytes.length + (!s.sio0.stat.txRdy2).toNat + s.sio0.ctrl.sioReset.toNat

/-- The SIO0 has something to do. -/
def Busy (s : Sio) : Prop :=
  s.sio0.ctrl.sioReset = true ∨ (s.sio0.commandQueue.bytes = [] ∧ s.sio0.stat.txRdy2 = false) ∨
    (s.sio0.commandQueue.bytes ≠ [] ∧ s.sio0.responseQueue.bytes.length < 1024)

theorem work_add_sio0Work (s₀ : Sio) (hframe : Sio0Frame s s') : work s₀ s' + s.sio0Work = work s₀ s + s'.sio0Work := by
  simp only [work, sio0Work, hframe.ctrl, hframe.sent, hframe.moved]
  omega

theorem sio0Work_handleResetCheck (s : Sio) :
    (s.sio0.ctrl.sioReset = true → s.handleResetCheck.sio0Work < s.sio0Work) ∧
      (s.sio0.ctrl.sioReset = false → s.handleResetCheck = s) := by
  constructor
  · intro hreset
    simp only [handleResetCheck, sio0Work, setSio0_sio0, Sio0.initializeData, hreset]
    exact Nat.add_lt_add_of_le_of_lt (Nat.add_le_add_right (Nat.zero_le _) _) Nat.zero_lt_one
  · intro hreset
    rw [handleResetCheck, if_neg (Bool.eq_false_iff.mp hreset)]

theorem Transfers.sio0Work_le (h : Transfers s s') : s'.sio0Work ≤ s.sio0Work := by
  cases h with
  | ready hempty =>
    simp only [sio0Work, setSio0_sio0]
    exact Nat.add_le_add_right (Nat.add_le_add_left (Nat.zero_le _) _) _
  | full => exact le_rfl
  | answer hcommands _ =>
    simp only [sio0Work, setSio0_sio0, hcommands, List.length_cons]
    omega

theorem Transfers.sio0Work_lt (h : Transfers s s') (hreset : s.sio0.ctrl.sioReset = false) (hbusy : s.Busy) :
    s'.sio0Work < s.sio0Work := by
  rw [Busy, hreset] at hbusy
  cases h with
  | ready hempty =>
    rcases hbusy with hbusy | ⟨-, hrdy⟩ | ⟨hne, -⟩
    · cases hbusy
    · simp only [sio0Work, setSio0_sio0, hrdy]
      exact Nat.add_lt_add_right (Nat.lt_succ_self _) _
    · exact absurd hempty hne
  | full hne hfull =>
    rcases hbusy with hbusy | ⟨hempty, -⟩ | ⟨-, hroom⟩
    · cases hbusy
    · exact absurd hempty hne
    · omega
  | answer hcommands _ =>
    simp only [sio0Work, setSio0_sio0, hcommands, List.length_cons]
    omega

theorem IrqFrame.sio0Work (h : IrqFrame s s') : s'.sio0Work = s.sio0Work := by
  simp only [Sio.sio0Work, h.queues.1, h.stat.2.1, h.reset]

theorem IrqFrame.busy (h : IrqFrame s s') : s'.Busy ↔ s.Busy := by
  simp only [Busy, h.reset, h.queues.1, h.queues.2, h.stat.2.1]

/-- A step of the SIO0 leaves less to do where it has something to do, and never more. -/
theorem work_sio0 (s₀ : Sio) {q : Sio} (hframe : IrqFrame s.handleResetCheck q) (htransfer : Transfers q s') :
    work s₀ s' ≤ work s₀ s ∧ (s.Busy → work s₀ s' < work s₀ s) := by
  have hsum := work_add_sio0Work s₀
    (((sio0Frame_handleResetCheck s).trans hframe.toSio0Frame).trans htransfer.frame)
  obtain ⟨hpending, hlive⟩ := sio0Work_handleResetCheck s
  have hle := hframe.sio0Work ▸ htransfer.sio0Work_le
  by_cases hreset : s.sio0.ctrl.sioReset = true
  · have hlt := hle.trans_lt (hpending hreset)
    omega
  · have hreset' := Bool.eq_false_iff.mpr hreset
    rw [hlive hreset'] at hframe hle
    have hlt : s.Busy → s'.sio0Work < s.sio0Work := fun hbusy =>
      hframe.sio0Work ▸ htransfer.sio0Work_lt (hframe.reset.trans hreset') (hframe.busy.mpr hbusy)
    exact ⟨by omega, fun hbusy => by have := hlt hbusy; omega⟩

/-- With the last port the transfer ends. -/
theorem work_nextPort (s₀ : Sio) (hstarted : s.ctrl.transferStarted = true) (hport : s.ctrl.transferPort < 16)
    (started : Bool) :
    work s₀ (s.setCtrl { nextPort s.ctrl with transferStarted := started }) < work s₀ s := by
  simp only [work, nextPort, setCtrl_ctrl, setCtrl_sent, setCtrl_moved, setCtrl_sio0, hstarted, Bool.toNat_true,
    Nat.one_mul]
  cases started <;> simp only [Bool.toNat_false, Bool.toNat_true] <;> omega

theorem work_send {data : Ubyte} {t : Sio} (hsends : Sends s data t) (hlt : s.sent.length < s₀.commandTotal) :
    work s₀ t < work s₀ s := by
  obtain ⟨-, -, hmoved, -, -⟩ := hsends.rest
  simp only [work, hsends.ctrl, hsends.sent, hmoved, hsends.commands, hsends.ready.2, hsends.reset,
    List.length_append, List.length_singleton, Bool.not_false, Bool.toNat_true]
  omega

theorem work_receive {data : Ubyte} {t : Sio} (hreceives : Receives s data t)
    (hlt : s.moved.length < s₀.responseTotal) : work s₀ t < work s₀ s := by
  obtain ⟨-, -, hsent, -, -⟩ := hreceives.rest
  obtain ⟨hcommands, -, hrdy2⟩ := hreceives.commands
  simp only [work, hreceives.ctrl, hsent, hreceives.moved, hcommands, hrdy2, hreceives.reset, List.length_append,
    List.length_singleton]
  omega

theorem work_start (s₀ : Sio) (h : s.Starts) (d : Sio2Direction) :
    work s₀ (s.setCtrl (s.startCtrl d)) + 2 = work s₀ s := by
  simp only [work, setCtrl_ctrl, setCtrl_sent, setCtrl_moved, setCtrl_sio0, startCtrl, h.1, h.2, Bool.toNat_true,
    Bool.toNat_false]
  omega

theorem work_handleSio0Reset (s₀ s : Sio) : work s₀ s.handleSio0Reset ≤ work s₀ s + 1 := by
  simp only [work, handleSio0Reset, setSio0_ctrl, setSio0_sent, setSio0_moved, setSio0_sio0, Bool.toNat_true]
  omega

/-! ### The SIO0 keeps the invariant -/

theorem Bytes.sio0 (h : Bytes s₀ s) (hframe : Sio0Frame s s') : Bytes s₀ s' :=
  ⟨hframe.ports ▸ h.ports, hframe.sent ▸ hframe.fifoToSio2 ▸ h.sent, hframe.fifoFromSio2 ▸ hframe.moved ▸ h.moved⟩

theorem Live.queues (h : Live s₀ s) (hreset : s.sio0.ctrl.sioReset = false) : Queues s₀ s :=
  ⟨fun hpending => absurd (hreset.symm.trans hpending) Bool.false_ne_true, fun _ => h⟩

theorem live_handleResetCheck (h : Queues s₀ s) (hmoved : s.sent = [] → s.moved = []) :
    Live s₀ s.handleResetCheck := by
  unfold handleResetCheck
  split_ifs with hreset
  · have hsent := h.pending hreset
    exact ⟨hsent, rfl, (hmoved hsent).symm.trans (List.append_nil _).symm, fun hne => absurd rfl hne, fun _ => rfl⟩
  · exact h.live (Bool.eq_false_iff.mpr hreset)

theorem Live.irq (h : Live s₀ s) (hframe : IrqFrame s s') : Live s₀ s' := by
  obtain ⟨hcommands, hresponses⟩ := hframe.queues
  obtain ⟨hrdy1, -, hrx⟩ := hframe.stat
  obtain ⟨hreceived, hanswered⟩ := hframe.recorded
  exact ⟨by rw [hframe.sent, hreceived, hcommands, h.sent], by rw [hreceived, hanswered, h.answered],
    by rw [hanswered, hframe.moved, hresponses, h.moved], by rw [hresponses, hrx]; exact h.nonempty,
    by rw [hframe.sent, hrdy1]; exact h.ready⟩

theorem Live.transfers (h : Live s₀ s) (htransfer : Transfers s s') : Live s₀ s' := by
  cases htransfer with
  | ready hempty => exact ⟨h.sent, h.answered, h.moved, h.nonempty, h.ready⟩
  | full => exact h
  | answer hcommands hresponses =>
    refine ⟨?_, ?_, ?_, fun _ => rfl, h.ready⟩
    · exact (h.sent.trans (congrArg _ hcommands)).trans (List.append_cons _ _ _)
    · simp only [List.length_append, List.length_singleton, h.answered]
    · exact (congrArg (· ++ _) h.moved).trans ((List.append_assoc _ _ _).trans (congrArg _ hresponses.symm))

/-- After a step of the SIO0 the queues are those since its reset. -/
theorem Queues.sio0 (h : Queues s₀ s) (hmoved : s.sent = [] → s.moved = []) {q : Sio}
    (hframe : IrqFrame s.handleResetCheck q) (htransfer : Transfers q s') : Queues s₀ s' :=
  (((live_handleResetCheck h hmoved).irq hframe).transfers htransfer).queues
    (htransfer.reset.trans (hframe.reset.trans (reset_handleResetCheck s)))

/-- Before the first byte is sent none is moved. -/
theorem Phase.moved_eq_nil (h : Phase s₀ s) (hresponses : s₀.responseTotal ≤ s₀.commandTotal) (hsent : s.sent = []) :
    s.moved = [] := by
  have hrx : Rx s₀ s → s.moved = [] := fun hrx => by
    have hle : s.moved.length ≤ s₀.responseTotal := hrx.moved.le
    have hzero : s₀.commandTotal = 0 := hrx.sent.symm.trans (by rw [hsent, List.length_nil])
    exact List.length_eq_zero_iff.mp (by omega)
  cases h with
  | txPending h => exact h.fresh.2.1
  | tx _ _ _ h => exact h.fresh.1
  | txDone _ _ _ h => exact h.fresh.1
  | rxPending _ _ _ _ _ _ h => exact h.1
  | rx _ _ _ h _ => exact hrx h
  | rxDone _ _ _ h _ => exact hrx h

theorem Tx.sio0 (h : Tx s₀ s) (hframe : Sio0Frame s s') : Tx s₀ s' where
  unlatched := hframe.ctrl ▸ h.unlatched
  direction := hframe.ctrl ▸ h.direction
  sent := hframe.ctrl ▸ hframe.sent ▸ h.sent
  started := hframe.ctrl ▸ hframe.ports ▸ h.started
  ports := hframe.ports ▸ h.ports
  fresh := hframe.moved ▸ hframe.raised.1 ▸ h.fresh

theorem Rx.sio0 (h : Rx s₀ s) (hframe : Sio0Frame s s') : Rx s₀ s' where
  sent := hframe.sent ▸ h.sent
  unlatched := hframe.ctrl ▸ h.unlatched
  direction := hframe.ctrl ▸ h.direction
  moved := hframe.ctrl ▸ hframe.moved ▸ h.moved
  ports := hframe.ctrl ▸ hframe.ports ▸ h.ports

/-- The queue of commands only gets shorter, and `TX_RDY1` changes with the reset alone. -/
theorem ready_sio0 {q : Sio} (hframe : IrqFrame s.handleResetCheck q) (htransfer : Transfers q s')
    (hready : s.sio0.stat.txRdy1 = true → s.sio0.commandQueue.bytes.length < 1024) :
    s'.sio0.stat.txRdy1 = true → s'.sio0.commandQueue.bytes.length < 1024 := by
  have hq : q.sio0.stat.txRdy1 = true → q.sio0.commandQueue.bytes.length < 1024 := by
    rw [hframe.queues.1, hframe.stat.1, handleResetCheck]
    split_ifs
    · exact fun _ => Nat.zero_lt_succ _
    · exact hready
  cases htransfer with
  | ready => exact hq
  | full => exact hq
  | answer hcommands _ =>
    rw [hcommands, List.length_cons] at hq
    exact fun h => Nat.lt_of_succ_lt (hq h)

/-- A step of the SIO0 keeps the phase. -/
theorem Phase.sio0 (h : Phase s₀ s) (hresponses : s₀.responseTotal ≤ s₀.commandTotal) {q : Sio}
    (hirq : IrqFrame s.handleResetCheck q) (htransfer : Transfers q s') : Phase s₀ s' := by
  have hframe := ((sio0Frame_handleResetCheck s).trans hirq.toSio0Frame).trans htransfer.frame
  have hqueues : Queues s₀ s → Queues s₀ s' := fun hq => hq.sio0 (h.moved_eq_nil hresponses) hirq htransfer
  cases h with
  | txPending h =>
    exact .txPending ⟨hframe.ctrl ▸ h.latched, hframe.ctrl ▸ h.stopped, hframe.ctrl ▸ h.direction,
      hframe.ports ▸ h.ports, ready_sio0 hirq htransfer h.ready,
      hframe.sent ▸ hframe.moved ▸ hframe.raised.1 ▸ h.fresh⟩
  | tx hstarted hport hq h => exact .tx (hframe.ctrl ▸ hstarted) (hframe.ctrl ▸ hport) (hqueues hq) (h.sio0 hframe)
  | txDone hstarted hport hq h =>
    exact .txDone (hframe.ctrl ▸ hstarted) (hframe.ctrl ▸ hport) (hqueues hq) (h.sio0 hframe)
  | rxPending hlatch hstarted hdirection hq hsent hports hfresh =>
    exact .rxPending (hframe.ctrl ▸ hlatch) (hframe.ctrl ▸ hstarted) (hframe.ctrl ▸ hdirection) (hqueues hq)
      (hframe.sent ▸ hsent) (hframe.ports ▸ hports) (hframe.moved ▸ hframe.raised.1 ▸ hfresh)
  | rx hstarted hport hq h hraised =>
    exact .rx (hframe.ctrl ▸ hstarted) (hframe.ctrl ▸ hport) (hqueues hq) (h.sio0 hframe) (hframe.raised.1 ▸ hraised)
  | rxDone hstarted hport hq h hraised =>
    exact .rxDone (hframe.ctrl ▸ hstarted) (hframe.ctrl ▸ hport) (hqueues hq) (h.sio0 hframe)
      ⟨hframe.raised.1.trans hraised.1, hframe.raised.2.trans hraised.2⟩

/-! ### The SIO2 keeps the invariant -/

theorem Bytes.cmdLength (h : Bytes s₀ s) (k : ℕ) : (s.ports k).cmdLength = (s₀.ports k).cmdLength := by
  rw [Sio2PortCtrl3.cmdLength, Sio2PortCtrl3.cmdLength, h.ports]

theorem Bytes.responseLength (h : Bytes s₀ s) (k : ℕ) : (s.ports k).responseLength = (s₀.ports k).responseLength := by
  rw [Sio2PortCtrl3.responseLength, Sio2PortCtrl3.responseLength, h.ports]

theorem Bytes.setCtrl (h : Bytes s₀ s) (c : Sio2Ctrl) : Bytes s₀ (s.setCtrl c) := ⟨h.ports, h.sent, h.moved⟩

theorem Bytes.setPort (h : Bytes s₀ s) {k : ℕ} {p : Sio2PortCtrl3} (hp : p.w = (s.ports k).w) :
    Bytes s₀ (s.setPort k p) := by
  refine ⟨fun i => ?_, h.sent, h.moved⟩
  rw [← h.ports, setPort_ports]
  by_cases hi : i = k
  · rw [hi, Function.update_self, hp]
  · rw [Function.update_of_ne hi]

/-- The invariant of the queues is about the SIO0 and the bytes alone. -/
theorem Queues.of_eq (h : Queues s₀ s) (hsio0 : s'.sio0 = s.sio0) (hsent : s'.sent = s.sent)
    (hreceived : s'.received = s.received) (hresponses : s'.responses = s.responses) (hmoved : s'.moved = s.moved) :
    Queues s₀ s' := by
  refine ⟨fun hreset => ?_, fun hreset => ?_⟩
  · rw [hsio0] at hreset
    rw [hsent, h.pending hreset]
  · rw [hsio0] at hreset
    obtain ⟨h1, h2, h3, h4, h5⟩ := h.live hreset
    exact ⟨by rw [hsent, hreceived, hsio0, h1], by rw [hresponses, hreceived, h2], by rw [hresponses, hmoved, hsio0, h3],
      by rw [hsio0]; exact h4, by rw [hsent, hsio0]; exact h5⟩

theorem Queues.setCtrl (h : Queues s₀ s) (c : Sio2Ctrl) : Queues s₀ (s.setCtrl c) := h.of_eq rfl rfl rfl rfl rfl

theorem Queues.setPort (h : Queues s₀ s) (k : ℕ) (p : Sio2PortCtrl3) : Queues s₀ (s.setPort k p) :=
  h.of_eq rfl rfl rfl rfl rfl

/-- The port has started. -/
theorem Tx.setPort (h : Tx s₀ s) {k : ℕ} {p : Sio2PortCtrl3} (hp : p.portTransferStarted = true) :
    Tx s₀ (s.setPort k p) where
  unlatched := h.unlatched
  direction := h.direction
  sent := h.sent
  started i hi := by
    by_cases hik : i = k
    · rw [hik, setPort_ports, Function.update_self, hp]
    · rw [setPort_ports, Function.update_of_ne hik]
      exact h.started i hi
  ports i hi := by
    by_cases hik : i = k
    · rw [hik, setPort_ports, Function.update_self]
      exact .inl hp
    · rw [setPort_ports, Function.update_of_ne hik]
      exact h.ports i hi
  fresh := h.fresh

theorem Rx.setPort (h : Rx s₀ s) {k : ℕ} {p : Sio2PortCtrl3} (hp : p.portTransferStarted = true) :
    Rx s₀ (s.setPort k p) where
  sent := h.sent
  unlatched := h.unlatched
  direction := h.direction
  moved := h.moved
  ports i hle hi := by
    by_cases hik : i = k
    · rw [hik, setPort_ports, Function.update_self, hp]
    · rw [setPort_ports, Function.update_of_ne hik]
      exact h.ports i hle hi

theorem Live.commands_le (h : Live s₀ s) : s.sio0.commandQueue.bytes.length ≤ s.sent.length := by
  rw [h.sent, List.length_append]
  omega

/-- A byte that is sent is in the queue of the SIO0. -/
theorem Live.send (h : Live s₀ s) {data : Ubyte} {t : Sio} (hsends : Sends s data t)
    (htotal : s₀.commandTotal ≤ 1024) : Live s₀ t := by
  obtain ⟨hreceived, hresponses, hmoved, -, -⟩ := hsends.rest
  have hsent : t.sent = t.received ++ t.sio0.commandQueue.bytes := by
    rw [hsends.sent, h.sent, hreceived, hsends.commands, List.append_assoc]
  refine ⟨hsent, by rw [hresponses, hreceived, h.answered], ?_, ?_, fun hlt => ?_⟩
  · rw [hresponses, hmoved, hsends.responses.1, h.moved]
  · rw [hsends.responses.1, hsends.responses.2]
    exact h.nonempty
  · have hlen := congrArg List.length hsent
    rw [List.length_append] at hlen
    rw [hsends.ready.1, DmaFifoQueue.hasWriteAvailable_iff]
    omega

theorem Live.receive (h : Live s₀ s) {data : Ubyte} {t : Sio} (hreceives : Receives s data t) : Live s₀ t := by
  obtain ⟨hreceived, hresponses, hsent, -, -⟩ := hreceives.rest
  obtain ⟨hcommands, hrdy1, -⟩ := hreceives.commands
  refine ⟨by rw [hsent, hreceived, hcommands, h.sent], by rw [hresponses, hreceived, h.answered], ?_, fun hne => ?_, ?_⟩
  · rw [hresponses, h.moved, hreceives.responses, hreceives.moved, List.append_assoc, List.singleton_append]
  · rw [hreceives.nonempty, DmaFifoQueue.hasReadAvailable_iff]
    exact List.length_pos_of_ne_nil hne
  · rw [hsent, hrdy1]
    exact h.ready

theorem Bytes.send (h : Bytes s₀ s) {data : Ubyte} {t : Sio} (hsends : Sends s data t) : Bytes s₀ t := by
  obtain ⟨-, -, hmoved, hfifo, -⟩ := hsends.rest
  refine ⟨fun k => by rw [hsends.ports, h.ports], ?_, by rw [hfifo, hmoved, h.moved]⟩
  rw [← h.sent, hsends.fifoToSio2, hsends.sent, List.append_assoc, List.singleton_append]

theorem Bytes.receive (h : Bytes s₀ s) {data : Ubyte} {t : Sio} (hreceives : Receives s data t) : Bytes s₀ t := by
  obtain ⟨-, -, hsent, hfifo, -⟩ := hreceives.rest
  refine ⟨fun k => by rw [hreceives.ports, h.ports], by rw [hsent, hfifo, h.sent], ?_⟩
  rw [hreceives.fifoFromSio2, hreceives.moved, h.moved, List.append_assoc]

theorem Tx.send (h : Tx s₀ s) {data : Ubyte} {t : Sio} (hsends : Sends s data t) (hport : s.ctrl.transferPort < 16)
    (hleft : s.ctrl.transferPortCount ≠ (s₀.ports s.ctrl.transferPort).cmdLength) : Tx s₀ t := by
  obtain ⟨-, -, hmoved, -, hraised⟩ := hsends.rest
  have hsent := h.sent.next hport hleft
  exact {
    unlatched := hsends.ctrl ▸ h.unlatched
    direction := hsends.ctrl ▸ h.direction
    sent := by rw [hsends.ctrl, hsends.sent, List.length_append, List.length_singleton]; exact hsent
    started := by rw [hsends.ctrl, hsends.ports]; exact h.started
    ports := hsends.ports ▸ h.ports
    fresh := hmoved ▸ hraised ▸ h.fresh }

theorem Rx.receive (h : Rx s₀ s) {data : Ubyte} {t : Sio} (hreceives : Receives s data t)
    (hport : s.ctrl.transferPort < 16)
    (hleft : s.ctrl.transferPortCount ≠ (s₀.ports s.ctrl.transferPort).responseLength) : Rx s₀ t := by
  obtain ⟨-, -, hsent, -, -⟩ := hreceives.rest
  have hmoved := h.moved.next hport hleft
  exact {
    sent := hsent ▸ h.sent
    unlatched := hreceives.ctrl ▸ h.unlatched
    direction := hreceives.ctrl ▸ h.direction
    moved := by rw [hreceives.ctrl, hreceives.moved, List.length_append, List.length_singleton]; exact hmoved
    ports := by rw [hreceives.ctrl, hreceives.ports]; exact h.ports }

/-! ### The sending transfer -/

/-- A step to `s'` that keeps the invariant and leaves no more to do, and less where `P` holds. -/
structure Advances (s₀ s : Sio) (P : Prop) (s' : Sio) : Prop where
  /-- The bytes. -/
  bytes : Bytes s₀ s'
  /-- Where the run is. -/
  phase : Phase s₀ s'
  /-- Not more to do. -/
  work_le : work s₀ s' ≤ work s₀ s
  /-- Less to do. -/
  work_lt : P → work s₀ s' < work s₀ s

theorem work_finishPortTx (s₀ : Sio) (hstarted : s.ctrl.transferStarted = true)
    (hd : s.ctrl.transferDirection = .tx) (hport : s.ctrl.transferPort < 16) (n : ℕ) :
    work s₀ (s.finishPortTx n).stopTransfer ≤ work s₀ s ∧
      (s.ctrl.transferPortCount = n → work s₀ (s.finishPortTx n).stopTransfer < work s₀ s) := by
  by_cases hend : s.ctrl.transferPortCount = n
  · have hwork : work s₀ (s.finishPortTx n).stopTransfer < work s₀ s := by
      rw [finishPortTx_of_eq hend]
      by_cases hlast : s.ctrl.transferPort + 1 = 16
      · rw [stopTransfer_tx (s := s.setCtrl (nextPort s.ctrl)) hlast hd]
        exact work_nextPort s₀ hstarted hport false
      · have hlt : s.ctrl.transferPort + 1 < 16 := Nat.lt_of_le_of_ne hport hlast
        rw [stopTransfer_of_lt (s := s.setCtrl (nextPort s.ctrl)) hlt]
        exact work_nextPort s₀ hstarted hport s.ctrl.transferStarted
    exact ⟨hwork.le, fun _ => hwork⟩
  · rw [finishPortTx, if_neg hend, stopTransfer_of_lt hport]
    exact ⟨le_rfl, fun h => absurd h hend⟩

/-- The port ends when it has sent what it has to. -/
theorem Tx.finish (h : Tx s₀ s) (hb : Bytes s₀ s) (hq : Queues s₀ s) (hstarted : s.ctrl.transferStarted = true)
    (hport : s.ctrl.transferPort < 16) (hp : (s.ports s.ctrl.transferPort).portTransferStarted = true) :
    Bytes s₀ (s.finishPortTx (s₀.ports s.ctrl.transferPort).cmdLength).stopTransfer ∧
      Phase s₀ (s.finishPortTx (s₀.ports s.ctrl.transferPort).cmdLength).stopTransfer := by
  by_cases hend : s.ctrl.transferPortCount = (s₀.ports s.ctrl.transferPort).cmdLength
  · have hsent := h.sent.finish hport hend
    have hports : ∀ k, k < s.ctrl.transferPort + 1 → (s.ports k).portTransferStarted = true := fun k hk => by
      rcases Nat.lt_or_eq_of_le (Nat.le_of_lt_succ hk) with hk | rfl
      · exact h.started k hk
      · exact hp
    rw [finishPortTx_of_eq hend]
    by_cases hlast : s.ctrl.transferPort + 1 = 16
    · rw [stopTransfer_tx (s := s.setCtrl (nextPort s.ctrl)) hlast h.direction]
      exact ⟨hb.setCtrl _, .txDone rfl hlast (hq.setCtrl _)
        ⟨h.unlatched, h.direction, ⟨hsent.port, hsent.done, hsent.count, hsent.last⟩, hports, h.ports, h.fresh⟩⟩
    · have hlt : s.ctrl.transferPort + 1 < 16 := Nat.lt_of_le_of_ne hport hlast
      rw [stopTransfer_of_lt (s := s.setCtrl (nextPort s.ctrl)) hlt]
      exact ⟨hb.setCtrl _, .tx hstarted hlt (hq.setCtrl _)
        ⟨h.unlatched, h.direction, hsent, hports, h.ports, h.fresh⟩⟩
  · rw [finishPortTx, if_neg hend, stopTransfer_of_lt hport]
    exact ⟨hb, .tx hstarted hport hq h⟩

theorem SendStep.work {t : Sio} (hstep : SendStep s t) (h : Tx s₀ s) (hb : Bytes s₀ s)
    (hstarted : s.ctrl.transferStarted = true) (hport : s.ctrl.transferPort < 16) :
    Sio.work s₀ t.stopTransfer ≤ Sio.work s₀ s ∧
      (s.ctrl.transferPortCount = (s₀.ports s.ctrl.transferPort).cmdLength ∨ s.TxReady →
        Sio.work s₀ t.stopTransfer < Sio.work s₀ s) := by
  rw [← hb.cmdLength]
  cases hstep with
  | wait hleft hready =>
    rw [stopTransfer_of_lt hport]
    exact ⟨le_rfl, fun hgoes => absurd hgoes (not_or_intro hleft hready)⟩
  | skip hend =>
    obtain ⟨hle, hlt⟩ := work_finishPortTx s₀ hstarted h.direction hport _
    exact ⟨hle, fun _ => hlt hend⟩
  | send hleft _ hsends =>
    have hctrl := hsends.ctrl
    have hwork := work_send hsends (h.sent.lt hport (hb.cmdLength _ ▸ hleft))
    obtain ⟨hle, -⟩ := work_finishPortTx s₀ (by rw [hctrl]; exact hstarted)
      (by rw [hctrl]; exact h.direction) (by rw [hctrl]; exact hport) (s.ports s.ctrl.transferPort).cmdLength
    exact ⟨(hle.trans_lt hwork).le, fun _ => hle.trans_lt hwork⟩

/-- A byte is sent after the reset, and is not lost. -/
theorem SendStep.keeps {t : Sio} (hstep : SendStep s t) (h : Tx s₀ s) (hb : Bytes s₀ s) (hq : Queues s₀ s)
    (htotal : s₀.commandTotal ≤ 1024) (hstarted : s.ctrl.transferStarted = true) (hport : s.ctrl.transferPort < 16)
    (hp : (s.ports s.ctrl.transferPort).portTransferStarted = true)
    (hfit : s.ctrl.transferPortCount ≠ (s₀.ports s.ctrl.transferPort).cmdLength → s.TxReady →
      s.sio0.ctrl.sioReset = false) : Bytes s₀ t.stopTransfer ∧ Phase s₀ t.stopTransfer := by
  cases hstep with
  | wait =>
    rw [stopTransfer_of_lt hport]
    exact ⟨hb, .tx hstarted hport hq h⟩
  | skip hend =>
    rw [hb.cmdLength]
    exact h.finish hb hq hstarted hport hp
  | send hleft hready hsends =>
    rw [hb.cmdLength] at hleft ⊢
    have hreset := hfit hleft hready
    have hctrl := hsends.ctrl
    have hq' := ((hq.live hreset).send hsends htotal).queues (hsends.reset.trans hreset)
    have hfinish := (h.send hsends hport hleft).finish (hb.send hsends) hq' (by rw [hctrl]; exact hstarted)
      (by rw [hctrl]; exact hport) (by rw [hctrl, hsends.ports]; exact hp)
    rw [hctrl] at hfinish
    exact hfinish

/-- A step in the sending transfer. -/
theorem Tx.sendStep (h : Tx s₀ s) (hb : Bytes s₀ s) (hstarted : s.ctrl.transferStarted = true)
    (hport : s.ctrl.transferPort < 16)
    (hroom : s.ctrl.transferPortCount ≠ (s₀.ports s.ctrl.transferPort).cmdLength → s.TxReady →
      s.sio0.commandQueue.bytes.length < 1024) :
    ∃ p t, p.w = (s.ports s.ctrl.transferPort).w ∧ p.portTransferStarted = true ∧
      s.handlePortTrasnfer = .ok t.stopTransfer ∧ SendStep (s.setPort s.ctrl.transferPort p) t := by
  obtain ⟨p, hpw, hp, heq⟩ := handlePortTrasnfer_of_started hstarted hport (h.ports _ hport)
  have hlength := (hb.setPort hpw).cmdLength s.ctrl.transferPort
  obtain ⟨t, ht, hstep⟩ := transferDataTx_eq (s := s.setPort s.ctrl.transferPort p) hport
    fun hleft hready => hroom (hlength ▸ hleft) hready
  exact ⟨p, t, hpw, hp, heq.trans (transferData_tx (s := s.setPort _ p) h.direction ht), hstep⟩

/-- A step in the sending transfer that sends nothing before the reset. -/
theorem Tx.handlePortTrasnfer (h : Tx s₀ s) (hb : Bytes s₀ s) (hq : Queues s₀ s) (htotal : s₀.commandTotal ≤ 1024)
    (hstarted : s.ctrl.transferStarted = true) (hport : s.ctrl.transferPort < 16)
    (hfit : s.ctrl.transferPortCount ≠ (s₀.ports s.ctrl.transferPort).cmdLength → s.TxReady →
      s.sio0.ctrl.sioReset = false) :
    ∃ s', s.handlePortTrasnfer = .ok s' ∧
      Advances s₀ s (s.ctrl.transferPortCount = (s₀.ports s.ctrl.transferPort).cmdLength ∨ s.TxReady) s' := by
  obtain ⟨p, t, hpw, hp, ht, hstep⟩ := h.sendStep hb hstarted hport fun hleft hready => by
    have hlt : s.sent.length < s₀.commandTotal := h.sent.lt hport hleft
    exact (hq.live (hfit hleft hready)).commands_le.trans_lt (hlt.trans_le htotal)
  have hp' : ((s.setPort s.ctrl.transferPort p).ports s.ctrl.transferPort).portTransferStarted = true := by
    rw [setPort_ports, Function.update_self, hp]
  obtain ⟨hle, hlt⟩ := hstep.work (h.setPort hp) (hb.setPort hpw) hstarted hport
  obtain ⟨hbytes, hphase⟩ :=
    hstep.keeps (h.setPort hp) (hb.setPort hpw) (hq.setPort _ _) htotal hstarted hport hp' hfit
  exact ⟨_, ht, hbytes, hphase, hle, hlt⟩

/-! ### The receiving transfer -/

/-- The port ends when it has received what it has to. -/
theorem Rx.finish (h : Rx s₀ s) (hb : Bytes s₀ s) (hq : Queues s₀ s) (hstarted : s.ctrl.transferStarted = true)
    (hport : s.ctrl.transferPort < 16) (hraised : s.raised = 0) :
    Advances s₀ s (s.ctrl.transferPortCount = (s₀.ports s.ctrl.transferPort).responseLength)
      (s.finishPortRx (s₀.ports s.ctrl.transferPort).responseLength).stopTransfer := by
  by_cases hend : s.ctrl.transferPortCount = (s₀.ports s.ctrl.transferPort).responseLength
  · have hmoved := h.moved.finish hport hend
    have hports : ∀ k, s.ctrl.transferPort + 1 ≤ k → k < 16 →
        ((s.setPort s.ctrl.transferPort { s.ports s.ctrl.transferPort with portTransferStarted := false }).ports
          k).portTransferStarted = true := fun k hle hk => by
      rw [setPort_ports, Function.update_of_ne (Nat.ne_of_gt hle)]
      exact h.ports k (Nat.le_of_succ_le hle) hk
    have hb' : Bytes s₀ (s.setPort s.ctrl.transferPort
      { s.ports s.ctrl.transferPort with portTransferStarted := false }) := hb.setPort rfl
    rw [finishPortRx_of_eq hend]
    by_cases hlast : s.ctrl.transferPort + 1 = 16
    · rw [stopTransfer_rx (s := Sio.setCtrl _ (nextPort s.ctrl)) hlast h.direction]
      have hwork := work_nextPort s₀ hstarted hport false
      exact ⟨⟨hb'.ports, hb'.sent, hb'.moved⟩, .rxDone rfl hlast (hq.of_eq rfl rfl rfl rfl rfl)
        ⟨h.sent, h.unlatched, h.direction, ⟨hmoved.port, hmoved.done, hmoved.count, hmoved.last⟩, hports⟩
        ⟨congrArg (· + 1) hraised, rfl⟩, hwork.le, fun _ => hwork⟩
    · have hlt : s.ctrl.transferPort + 1 < 16 := Nat.lt_of_le_of_ne hport hlast
      rw [stopTransfer_of_lt (s := Sio.setCtrl _ (nextPort s.ctrl)) hlt]
      have hwork := work_nextPort s₀ hstarted hport s.ctrl.transferStarted
      exact ⟨hb'.setCtrl _, .rx hstarted hlt ((hq.setPort _ _).setCtrl _)
        ⟨h.sent, h.unlatched, h.direction, hmoved, hports⟩ hraised, hwork.le, fun _ => hwork⟩
  · rw [finishPortRx, if_neg hend, stopTransfer_of_lt hport]
    exact ⟨hb, .rx hstarted hport hq h hraised, le_rfl, fun h => absurd h hend⟩

/-- In the receiving transfer, once the port has started. -/
theorem Rx.transferData (h : Rx s₀ s) (hb : Bytes s₀ s) (hq : Queues s₀ s)
    (hresponses : s₀.responseTotal ≤ s₀.commandTotal) (hstarted : s.ctrl.transferStarted = true)
    (hport : s.ctrl.transferPort < 16) (hraised : s.raised = 0)
    (hfit : s.ctrl.transferPortCount ≠ (s₀.ports s.ctrl.transferPort).responseLength → s.RxReady →
      s.sio0.responseQueue.bytes ≠ []) :
    ∃ s', s.transferData = .ok s' ∧
      Advances s₀ s (s.ctrl.transferPortCount = (s₀.ports s.ctrl.transferPort).responseLength ∨ s.RxReady) s' := by
  rw [← hb.responseLength] at hfit
  obtain ⟨t, ht, hstep⟩ := transferDataRx_eq hport hfit
  refine ⟨t.stopTransfer, transferData_rx h.direction ht, ?_⟩
  cases hstep with
  | wait hleft hready =>
    rw [stopTransfer_of_lt hport]
    rw [hb.responseLength] at hleft
    exact ⟨hb, .rx hstarted hport hq h hraised, le_rfl, fun hgoes => absurd hgoes (not_or_intro hleft hready)⟩
  | skip hend =>
    rw [hb.responseLength] at hend ⊢
    obtain ⟨hbytes, hphase, hle, hlt⟩ := h.finish hb hq hstarted hport hraised
    exact ⟨hbytes, hphase, hle, fun _ => hlt hend⟩
  | receive hleft _ hreceives =>
    rw [hb.responseLength] at hleft ⊢
    have hlt : s.moved.length < s₀.responseTotal := h.moved.lt hport hleft
    -- Something is received, so something was sent, which only happens after the reset.
    have hreset : s.sio0.ctrl.sioReset = false := Bool.eq_false_iff.mpr fun hpending => by
      have hsent := h.sent
      rw [hq.pending hpending, List.length_nil] at hsent
      omega
    have hctrl := hreceives.ctrl
    have hq' := ((hq.live hreset).receive hreceives).queues (hreceives.reset.trans hreset)
    have hwork := work_receive hreceives hlt
    have hfinish := (h.receive hreceives hport hleft).finish (hb.receive hreceives) hq'
      (by rw [hctrl]; exact hstarted) (by rw [hctrl]; exact hport) (hreceives.rest.2.2.2.2.trans hraised)
    rw [hctrl] at hfinish
    obtain ⟨hbytes, hphase, hle, -⟩ := hfinish
    exact ⟨hbytes, hphase, (hle.trans_lt hwork).le, fun _ => hle.trans_lt hwork⟩

/-- A step in the receiving transfer that takes no response from an empty queue. -/
theorem Rx.handlePortTrasnfer (h : Rx s₀ s) (hb : Bytes s₀ s) (hq : Queues s₀ s)
    (hresponses : s₀.responseTotal ≤ s₀.commandTotal) (hstarted : s.ctrl.transferStarted = true)
    (hport : s.ctrl.transferPort < 16) (hraised : s.raised = 0)
    (hfit : s.ctrl.transferPortCount ≠ (s₀.ports s.ctrl.transferPort).responseLength → s.RxReady →
      s.sio0.responseQueue.bytes ≠ []) :
    ∃ s', s.handlePortTrasnfer = .ok s' ∧
      Advances s₀ s (s.ctrl.transferPortCount = (s₀.ports s.ctrl.transferPort).responseLength ∨ s.RxReady) s' := by
  obtain ⟨p, hpw, hp, heq⟩ := handlePortTrasnfer_of_started hstarted hport (.inl (h.ports _ le_rfl hport))
  obtain ⟨s', hs', hbytes, hphase, hle, hlt⟩ := (h.setPort hp).transferData (hb.setPort hpw) (hq.setPort _ _)
    hresponses hstarted hport hraised hfit
  exact ⟨s', heq.trans hs', hbytes, hphase, hle, hlt⟩

/-! ### Starting a transfer -/

theorem TxPending.starts (h : TxPending s) : s.Starts := ⟨h.latched, h.stopped⟩

/-- The sending transfer as it starts. -/
theorem TxPending.start (h : TxPending s) : Tx s₀ (s.handleSio0Reset.setCtrl (s.startCtrl .tx)) := by
  obtain ⟨hsent, hmoved, hraised⟩ := h.fresh
  refine ⟨rfl, rfl, ?_, fun k hk => absurd hk (Nat.not_lt_zero k), fun k hk => .inr (h.ports k hk), hmoved, hraised⟩
  have hlength : (s.handleSio0Reset.setCtrl (s.startCtrl .tx)).sent.length = 0 := congrArg List.length hsent
  rw [hlength]
  exact Ports.start _ _

theorem TxPending.queues (h : TxPending s) : Queues s₀ (s.handleSio0Reset.setCtrl (s.startCtrl .tx)) :=
  ⟨fun _ => h.fresh.1, fun hreset => absurd hreset.symm Bool.false_ne_true⟩

theorem TxPending.work (h : TxPending s) :
    Sio.work s₀ (s.handleSio0Reset.setCtrl (s.startCtrl .tx)) < Sio.work s₀ s := by
  have hreset := work_handleSio0Reset s₀ (s.setCtrl (s.startCtrl .tx))
  have hstart := work_start s₀ h.starts .tx
  have hcomm : s.handleSio0Reset.setCtrl (s.startCtrl .tx) = (s.setCtrl (s.startCtrl .tx)).handleSio0Reset := rfl
  rw [hcomm]
  omega

end Sio

end Orbum
