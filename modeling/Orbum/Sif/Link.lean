import Orbum.Ee.Dmac.ChainTurn
import Orbum.Ee.Dmac.Frame
import Orbum.Iop.Dmac.ChainProgress
import Orbum.Lib.Run

/-!
# The SIF

Three queues of `RResources` belong to a channel of the EE DMAC and to one of the IOP DMAC each. They are all that is
between the two controllers.

## The model

Each controller holds the queues of its channels. A turn of a channel leaves these three to the other controller too, as
`withQueuesOf` says. A move is a tick of one of the controllers, or a change of the memories by something else.

What a run is watched for is recorded beside the controllers, turn by turn, as `Notes` says for one channel on each side.
-/

namespace Orbum

/-- The channel of the EE that has the queue too, as `initialise_ee_dmac` sets it. -/
def IopFifo.eeChannel : IopFifo → Option (Fin 10)
  | .sif0 => some 5
  | .sif1 => some 6
  | .sif2 => some 7
  | _ => none

/-- The IOP finds its queues as the EE has left them. -/
def IopDmac.withQueuesOf (s : IopDmac) (d : EeDmac) : IopDmac :=
  { s with others := fun f => (f.eeChannel.bind fun i => (d.channels i).dmaFifoQueue).getD (s.others f) }

/-- The queue of the IOP that a channel of the EE has. -/
def iopQueue (i : Fin 10) : Option IopFifo :=
  if i = 5 then some .sif0 else if i = 6 then some .sif1 else if i = 7 then some .sif2 else none

/-- The EE finds its queues as the IOP has left them. -/
def EeDmac.withQueuesOf (d : EeDmac) (s : IopDmac) : EeDmac :=
  { d with channels := fun i =>
      { d.channels i with dmaFifoQueue := ((iopQueue i).map s.fifo).or (d.channels i).dmaFifoQueue } }

/-- The controllers on the two sides. -/
structure Sif where
  /-- The one of the EE. -/
  ee : EeDmac
  /-- The one of the IOP. -/
  iop : IopDmac

namespace Sif

variable (s : Sif)

/-- A turn of a channel of the EE. -/
def eeTurn (i : Fin 10) : Except HostError Sif := do
  let ee ← s.ee.giveTurn i
  return { ee, iop := s.iop.withQueuesOf ee }

/-- A turn of a channel of the IOP. -/
def iopTurn (k : Fin 13) : Except HostError Sif := do
  let iop ← s.iop.turn k
  return { ee := s.ee.withQueuesOf iop, iop }

/-! ### Runs -/

/-- What is recorded at the turns of one channel on each side, from the controllers before and after the turn. -/
structure Notes (Λ : Type) where
  /-- The channel of the EE. -/
  eeChannel : Fin 10
  /-- The channel of the IOP. -/
  iopChannel : Fin 13
  /-- At a turn of the first. -/
  ee : Sif → Sif → Λ → Λ
  /-- At a turn of the second. -/
  iop : Sif → Sif → Λ → Λ

/-- The controllers with a record. -/
structure Watched (Λ : Type) extends Sif where
  /-- The record. -/
  log : Λ

/-- A move of a run. -/
inductive Move where
  /-- `CEeDmac::time_step`. -/
  | eeTick
  /-- `CIopDmac::time_step`. -/
  | iopTick
  /-- Something else writes to the memories. -/
  | memories (ee iop : Memory)

namespace Watched

variable {Λ : Type} (notes : Notes Λ) (w : Watched Λ)

/-- A turn of a channel of the EE. -/
def eeTurn (i : Fin 10) : Except HostError (Watched Λ) := do
  let s ← w.toSif.eeTurn i
  return { toSif := s, log := if i = notes.eeChannel then notes.ee w.toSif s w.log else w.log }

/-- A turn of a channel of the IOP. -/
def iopTurn (k : Fin 13) : Except HostError (Watched Λ) := do
  let s ← w.toSif.iopTurn k
  return { toSif := s, log := if k = notes.iopChannel then notes.iop w.toSif s w.log else w.log }

/-- A tick of the EE. -/
def eeTick : Except HostError (Watched Λ) :=
  if EeDmacCtrl.dmae.extractFrom w.ee.ctrl = 0 then .ok w
  else do
    let w ← (List.finRange 10).foldlM (eeTurn notes) w
    return { w with ee := ← w.ee.handleInterruptCheck }

/-- A tick of the IOP. -/
def iopTick : Except HostError (Watched Λ) :=
  if w.iop.gctrl = 0 then .ok w else (List.finRange 13).foldlM (iopTurn notes) w

/-- A move. -/
def step : Move → Watched Λ → Except HostError (Watched Λ)
  | .eeTick, w => w.eeTick notes
  | .iopTick, w => w.iopTick notes
  | .memories ee iop, w => .ok { w with ee := { w.ee with memory := ee }, iop := { w.iop with memory := iop } }

/-- A loop of turns, seen from one of the controllers. -/
theorem map_foldlM {ι σ : Type} {f : Watched Λ → σ} {turn : Watched Λ → ι → Except HostError (Watched Λ)}
    {turn' : σ → ι → Except HostError σ} (h : ∀ w i, (turn w i).map f = turn' (f w) i) (l : List ι) (w : Watched Λ) :
    (l.foldlM turn w).map f = l.foldlM turn' (f w) := by
  induction l generalizing w with
  | nil => rfl
  | cons i l ih =>
    rw [List.foldlM_cons, List.foldlM_cons, ← h]
    cases turn w i with
    | error e => rfl
    | ok w' => exact ih w'

/-- A tick of the EE is one of its controller. -/
theorem map_eeTick : (w.eeTick notes).map (fun w : Watched Λ => w.ee) = w.ee.timeStep := by
  have hturn (w : Watched Λ) (i : Fin 10) : (w.eeTurn notes i).map (fun w : Watched Λ => w.ee) = w.ee.giveTurn i := by
    unfold eeTurn Sif.eeTurn
    cases w.ee.giveTurn i <;> rfl
  have hloop := map_foldlM hturn (List.finRange 10) w
  unfold eeTick EeDmac.timeStep
  split_ifs
  · rfl
  · rw [← hloop]
    cases (List.finRange 10).foldlM (eeTurn notes) w with
    | error e => rfl
    | ok w' =>
      change Except.map (fun w : Watched Λ => w.ee) (w'.ee.handleInterruptCheck >>= _) = w'.ee.handleInterruptCheck
      cases w'.ee.handleInterruptCheck <;> rfl

/-- A tick of the IOP is one of its controller. -/
theorem map_iopTick : (w.iopTick notes).map (fun w : Watched Λ => w.iop) = w.iop.timeStep := by
  have hturn (w : Watched Λ) (k : Fin 13) : (w.iopTurn notes k).map (fun w : Watched Λ => w.iop) = w.iop.turn k := by
    unfold iopTurn Sif.iopTurn
    cases w.iop.turn k <;> rfl
  unfold iopTick IopDmac.timeStep
  split_ifs
  · rfl
  · exact map_foldlM hturn (List.finRange 13) w

end Watched

/-! ### One queue -/

/-- The two channels have a queue in common, and find it alike. -/
structure Linked (i : Fin 10) (k : Fin 13) (s : Sif) : Prop where
  /-- The channel of the EE. -/
  channel : (dmaFifoQueue k).eeChannel = some i
  /-- The queue. -/
  queue : (s.ee.channels i).dmaFifoQueue = some (s.iop.fifo (dmaFifoQueue k))

/-- What says which channels are served, and whether a tag of the channel of the IOP ends its transfer. -/
structure SameControl (k : Fin 13) (s s' : Sif) : Prop where
  /-- D_CTRL. -/
  ctrl : s'.ee.ctrl = s.ee.ctrl
  /-- Which channels of the IOP are enabled. -/
  enabled : s'.iop.gctrl = s.iop.gctrl ∧ s'.iop.pcr0 = s.iop.pcr0 ∧ s'.iop.pcr1 = s.iop.pcr1
  /-- `IQE` of the channel. -/
  channelIqe : s'.iop.channelIqe k = s.iop.channelIqe k

/-- What does not concern the two channels and their queue. -/
structure Apart (i : Fin 10) (k : Fin 13) (s s' : Sif) : Prop extends SameControl k s s' where
  /-- The channel of the EE. -/
  eeChannel : s'.ee.channels i = s.ee.channels i
  /-- The channel of the IOP. -/
  iopChannel : s'.iop.channels k = s.iop.channels k
  /-- The queue. -/
  queue : s'.iop.fifo (dmaFifoQueue k) = s.iop.fifo (dmaFifoQueue k)

variable {s s' : Sif} {i j : Fin 10} {k l : Fin 13} {f : IopFifo}

theorem Linked.apart (h : Linked i k s) (h' : Apart i k s s') : Linked i k s' :=
  ⟨h.channel, by rw [h'.eeChannel, h'.queue, h.queue]⟩

theorem fifo_withQueuesOf (hf : f.eeChannel = some i) (s : IopDmac) (d : EeDmac) :
    (s.withQueuesOf d).fifo f = (d.channels i).dmaFifoQueue.getD (s.fifo f) := by
  have hothers : (s.withQueuesOf d).others f = (d.channels i).dmaFifoQueue.getD (s.others f) := by
    change (f.eeChannel.bind _).getD _ = _
    rw [hf]
    rfl
  cases f <;> first | exact hothers | cases hf

theorem iopQueue_eq (hf : f.eeChannel = some i) : iopQueue i = some f := by
  cases f <;> cases hf <;> rfl

theorem channels_withQueuesOf (hf : f.eeChannel = some i) (d : EeDmac) (s : IopDmac) :
    (d.withQueuesOf s).channels i = { d.channels i with dmaFifoQueue := some (s.fifo f) } := by
  rw [EeDmac.withQueuesOf]
  dsimp only
  rw [iopQueue_eq hf]
  rfl

/-- A turn of a channel of the EE that has the queue. -/
theorem eeTurn_ok (h : s.eeTurn i = .ok s') (hlink : Linked i k s) : ∃ t, (s.ee.turn i).channelTurn = .ok t ∧
    s'.ee.channels i = t.toEeDmacChannel ∧ s'.ee.memory = t.memory ∧ s'.iop.channels = s.iop.channels ∧
    ∀ queue, t.dmaFifoQueue = some queue → s'.iop.fifo (dmaFifoQueue k) = queue := by
  obtain ⟨ee, hgive, h⟩ := bind_eq_ok_iff.mp h
  obtain rfl := Except.ok.inj h
  obtain ⟨t, ht, hset⟩ := bind_eq_ok_iff.mp hgive
  obtain rfl := Except.ok.inj hset
  refine ⟨t, ht, EeDmac.channels_setTurn_self .., rfl, rfl, fun queue hqueue => ?_⟩
  rw [fifo_withQueuesOf hlink.channel, EeDmac.channels_setTurn_self, hqueue, Option.getD_some]

/-- A turn of the channel of the IOP that has the queue. -/
theorem iopTurn_ok (h : s.iopTurn k = .ok s') (hlink : Linked i k s) : s.iop.turn k = .ok s'.iop ∧
    s'.ee.channels i = { s.ee.channels i with dmaFifoQueue := some (s'.iop.fifo (dmaFifoQueue k)) } := by
  obtain ⟨iop, hturn, h⟩ := bind_eq_ok_iff.mp h
  obtain rfl := Except.ok.inj h
  exact ⟨hturn, channels_withQueuesOf hlink.channel ..⟩

theorem sameControl_eeTurn (s : Sif) (j : Fin 10) : Ensures (SameControl k s) (s.eeTurn j) := by
  intro s' h
  obtain ⟨ee, hgive, h⟩ := bind_eq_ok_iff.mp h
  obtain rfl := Except.ok.inj h
  exact ⟨(EeDmac.frame_giveTurn s.ee j ee hgive).ctrl, ⟨rfl, rfl, rfl⟩, rfl⟩

theorem sameControl_iopTurn (s : Sif) (l : Fin 13) : Ensures (SameControl k s) (s.iopTurn l) := by
  intro s' h
  obtain ⟨iop, hturn, h⟩ := bind_eq_ok_iff.mp h
  obtain rfl := Except.ok.inj h
  exact ⟨rfl, (IopDmac.frame_turn s.iop l iop hturn).enabled, IopDmac.channelIqe_turn s.iop l k iop hturn⟩

theorem apart_eeTurn (hj : j ≠ i) (hlink : Linked i k s) : Ensures (Apart i k s) (s.eeTurn j) := by
  intro s' h
  have hcontrol := sameControl_eeTurn (k := k) s j s' h
  obtain ⟨ee, hgive, h⟩ := bind_eq_ok_iff.mp h
  obtain rfl := Except.ok.inj h
  obtain ⟨t, -, hset⟩ := bind_eq_ok_iff.mp hgive
  obtain rfl := Except.ok.inj hset
  have hchannel := EeDmac.channels_setTurn_of_ne hj.symm s.ee t
  refine ⟨hcontrol, hchannel, rfl, ?_⟩
  rw [fifo_withQueuesOf hlink.channel, hchannel, hlink.queue, Option.getD_some]

theorem apart_iopTurn (hl : l ≠ k) (hlink : Linked i k s) : Ensures (Apart i k s) (s.iopTurn l) := by
  intro s' h
  have hcontrol := sameControl_iopTurn (k := k) s l s' h
  obtain ⟨iop, hturn, h⟩ := bind_eq_ok_iff.mp h
  obtain rfl := Except.ok.inj h
  have hfifo := IopDmac.fifo_turn (IopDmac.dmaFifoQueue_ne_of_ne hl) iop hturn
  refine ⟨hcontrol, ?_, (IopDmac.frame_turn s.iop l iop hturn).channels k hl.symm, hfifo⟩
  rw [channels_withQueuesOf hlink.channel, hfifo, ← hlink.queue]

/-- The end of a tick of the EE. -/
theorem apart_cause (s : Sif) (i : Fin 10) (k : Fin 13) (cause : EeCoreCop0Cause) :
    Apart i k s { s with ee := { s.ee with cause } } := ⟨⟨rfl, ⟨rfl, rfl, rfl⟩, rfl⟩, rfl, rfl, rfl⟩

/-- Something else writes to the memories. -/
theorem apart_memories (s : Sif) (i : Fin 10) (k : Fin 13) (ee iop : Memory) :
    Apart i k s { s with ee := { s.ee with memory := ee }, iop := { s.iop with memory := iop } } := by
  refine ⟨⟨rfl, ⟨rfl, rfl, rfl⟩, rfl⟩, rfl, rfl, ?_⟩
  cases dmaFifoQueue k <;> rfl

/-! ### Invariants -/

/-- What a turn of each of the two channels keeps, and what depends on these and their queue only. -/
structure Notes.Keeps {Λ : Type} (notes : Notes Λ) (I : Sif → Λ → Prop) : Prop where
  /-- The two channels are linked. -/
  linked : ∀ s log, I s log → Linked notes.eeChannel notes.iopChannel s
  /-- What else there is does not matter. -/
  apart : ∀ s s' log, Apart notes.eeChannel notes.iopChannel s s' → I s log → I s' log
  /-- A turn of the channel of the EE. -/
  ee : ∀ s s' log, s.eeTurn notes.eeChannel = .ok s' → I s log → I s' (notes.ee s s' log)
  /-- A turn of the channel of the IOP. -/
  iop : ∀ s s' log, s.iopTurn notes.iopChannel = .ok s' → I s log → I s' (notes.iop s s' log)

namespace Watched

variable {Λ : Type} {notes : Notes Λ} {I : Sif → Λ → Prop}

theorem keeps_eeTurn (h : notes.Keeps I) (w : Watched Λ) (i : Fin 10) (hw : I w.toSif w.log) :
    Ensures (fun w' => I w'.toSif w'.log) (w.eeTurn notes i) := by
  intro w' h'
  obtain ⟨s, hs, h'⟩ := bind_eq_ok_iff.mp h'
  obtain rfl := Except.ok.inj h'
  dsimp only
  split_ifs with hi
  · exact h.ee _ _ _ (hi ▸ hs) hw
  · exact h.apart _ _ _ (apart_eeTurn hi (h.linked _ _ hw) s hs) hw

theorem keeps_iopTurn (h : notes.Keeps I) (w : Watched Λ) (k : Fin 13) (hw : I w.toSif w.log) :
    Ensures (fun w' => I w'.toSif w'.log) (w.iopTurn notes k) := by
  intro w' h'
  obtain ⟨s, hs, h'⟩ := bind_eq_ok_iff.mp h'
  obtain rfl := Except.ok.inj h'
  dsimp only
  split_ifs with hk
  · exact h.iop _ _ _ (hk ▸ hs) hw
  · exact h.apart _ _ _ (apart_iopTurn hk (h.linked _ _ hw) s hs) hw

end Watched

end Sif

end Orbum
