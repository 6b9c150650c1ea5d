import Orbum.Ee.Dmac.NormalRun
import Orbum.Ee.Vif

/-!
# From memory to VIF1

Channel 1 of the EE DMAC and the unit that its FIFO belongs to, in a normal transfer to VIF1.

## The model

A step is a turn of the channel, the round of `CVif::time_step` for VIF1, or anything else that leaves the channel and
D_CTRL alone. What the DMAC puts into the FIFO is what the unit takes from it.

## What is proved

The two refine the run of the channel alone, the unit being its peripheral (`sends_step`), and so VIF1 executes the
quadwords at MADR in order, those that have been moved and are not in the FIFO, all of them once the transfer has ended
(`vif1_transfer`). Turn by turn, it does end (`vif1_transfer_ends`).
-/

namespace Orbum

open LittleEndian EeDmac EeDmacTurn EeDmacChcr EeDmac.NormalRun

theorem LittleEndian.eq_nil_of_flatMap_bytes {qs : List Uqword} (h : qs.flatMap (bytes 16) = []) : qs = [] := by
  refine List.eq_nil_iff_forall_not_mem.mpr fun q hq => ?_
  have hlength := congrArg List.length (List.flatMap_eq_nil_iff.mp h q hq)
  rw [length_bytes] at hlength
  exact absurd hlength (by decide)

/-- Quadwords that begin some others, byte by byte. -/
theorem LittleEndian.exists_append_of_flatMap_bytes {qs qs' : List Uqword} {rest : List Ubyte}
    (h : qs'.flatMap (bytes 16) = qs.flatMap (bytes 16) ++ rest) :
    ∃ qs'', qs' = qs ++ qs'' ∧ rest = qs''.flatMap (bytes 16) := by
  induction qs generalizing qs' with
  | nil => exact ⟨qs', rfl, h.symm⟩
  | cons q qs ih =>
    cases qs' with
    | nil =>
      have hempty := (List.append_eq_nil_iff.mp h.symm).1
      exact absurd (eq_nil_of_flatMap_bytes hempty) (List.cons_ne_nil q qs)
    | cons q' qs' =>
      rw [List.flatMap_cons, List.flatMap_cons, List.append_assoc] at h
      obtain ⟨hq, hqs⟩ := List.append_inj h (by rw [length_bytes, length_bytes])
      obtain rfl : q' = q := by
        rw [← ofBytes_bytes 16 q' (Nat.le_refl _), hq, ofBytes_bytes 16 q (Nat.le_refl _)]
      obtain ⟨qs'', rfl, hrest⟩ := ih hqs
      exact ⟨qs'', rfl, hrest⟩

namespace EeDmacTurn

variable {t : EeDmacTurn}

/-- A normal transfer to a FIFO leaves memory alone. -/
theorem memory_channelTurn (h8 : t.channelId ≠ 8) (h9 : t.channelId ≠ 9) (hmod : mod.extractFrom t.chcr.w = 0)
    (hforced : t.DirForced) (hto : t.chcr.direction = .TO) :
    Ensures (fun t' => t'.memory = t.memory) t.channelTurn := by
  have hsuspended : t.setStateSuspended.memory = t.memory := by
    obtain ⟨f240, heq⟩ := setStateSuspended_eq hforced
    rw [heq]
  have hsuspend : Ensures (fun t' => t'.memory = t.memory) t.suspendWhenEmpty := by
    unfold suspendWhenEmpty
    split_ifs
    · refine (Ensures.trivial _).bind fun queue _ => ?_
      split_ifs
      · exact .ok rfl
      · exact .ok hsuspended
    · exact .ok hsuspended
  have hdata : Ensures (fun r => r.2.memory = t.memory) t.transferData :=
    (dataMoved_transferData t).mono fun r h => by
      cases h with
      | spr hid => exact absurd hid (not_or.mpr ⟨h8, h9⟩)
      | starved | blocked => rfl
      | received hfrom => exact absurd (hfrom.symm.trans hto) (by decide)
      | sent => rfl
  have hmod' : (mod.extractFrom t.chcr.w).toNat = 0 := by rw [hmod]; rfl
  rw [channelTurn, hmod']
  split_ifs
  · change Ensures _ t.transferNormal
    unfold transferNormal
    split_ifs
    · exact .error _
    · exact .ok rfl
    · exact hsuspend
    · exact .ok rfl
    · refine hdata.bind fun r hr => ?_
      dsimp only
      split_ifs
      · exact .ok hr
      · exact .ok hr
      · exact .ok hr
  · exact .ok rfl

/-- A turn with nothing left to move does not throw. -/
theorem exists_channelTurn_of_qwc (hmod : mod.extractFrom t.chcr.w = 0) (hqueue : t.dmaFifoQueue.isSome)
    (hstarted : t.chcr.dmaStarted = true) (hqwc : t.qwc = 0) : ∃ t', t.channelTurn = .ok t' := by
  obtain ⟨queue, hqueue⟩ := Option.isSome_iff_exists.mp hqueue
  have hmod' : (mod.extractFrom t.chcr.w).toNat = 0 := by rw [hmod]; rfl
  rw [channelTurn, hmod']
  split_ifs
  · change ∃ t', t.transferNormal = .ok t'
    rw [transferNormal, if_neg (by rw [hstarted]; decide), if_pos hqwc, suspendWhenEmpty, hqueue, deref_some, ok_bind]
    split_ifs <;> exact ⟨_, rfl⟩
  · exact ⟨_, rfl⟩

end EeDmacTurn

/-- A quadword that can be read is in memory. -/
theorem isMapped_of_readQwordMemory {m : Memory} {address : Uptr} {spr : Bool} {q : Uqword}
    (h : readQwordMemory m address spr = .ok q) :
    m.isMapped (if spr then 0x70000000 + address else address) 16 = true := by
  have hread {a : Uptr} (ha : m.readUqword a = .ok q) : m.isMapped a 16 = true := by
    obtain ⟨bs, hbs, -⟩ := bind_eq_ok_iff.mp ha
    unfold Memory.read at hbs
    split_ifs at hbs with hmapped
    exact hmapped
  cases spr with
  | false => exact hread h
  | true => exact hread h

/-- Channel VIF1 in its turn, and the registers of the unit. -/
structure Vif1Path where
  /-- The channel, and what the channels share; its FIFO is the queue of the unit. -/
  turn : EeDmacTurn
  /-- The registers of VIF1. -/
  registers : VifRegisters

/-- A step of one of them, or of something else. -/
inductive Vif1PathOp where
  /-- A turn of the channel. -/
  | turn
  /-- The round of `CVif::time_step` for VIF1. -/
  | tick
  /-- Anything else. -/
  | rest (f : EeDmacTurn → EeDmacTurn)

namespace Vif1Path

/-- What a step does. -/
def step : Vif1PathOp → Vif1Path → Except HostError Vif1Path
  | .turn, v => do return { v with turn := ← v.turn.channelTurn }
  | .tick, v => do
    let dmaFifoQueue ← deref v.turn.dmaFifoQueue
    let unit ← VifUnit.timeStep .vif1 ⟨dmaFifoQueue, v.registers⟩
    return ⟨{ v.turn with dmaFifoQueue := some unit.dmaFifoQueue }, unit.registers⟩
  | .rest f, v => .ok { v with turn := keeping f v.turn }

/-- The quadwords are where MADR of `s` says. -/
def Holds (s : EeDmacTurn) (qs : List Uqword) (v : Vif1Path) : Prop :=
  ∀ k q, qs[k]? = some q →
    readQwordMemory v.turn.memory (s.transferAddress + BitVec.ofNat 32 (16 * k)) s.transferSpr = .ok q

/-- A normal transfer of `qs` to VIF1 has just been started, with nothing in the FIFO. -/
structure StartsSending (qs : List Uqword) (v : Vif1Path) : Prop where
  /-- It is a normal transfer, without stall control, -/
  starts : Starts v.turn
  /-- of channel VIF1, -/
  channelId : v.turn.channelId = 1
  /-- to the FIFO. -/
  direction : v.turn.chcr.direction = .TO
  /-- Nothing is in the FIFO. -/
  fifo : v.turn.fifo = []
  /-- The unit decodes what it gets. -/
  ready : VifRegisters.Ready v.registers
  /-- QWC is the number of quadwords. -/
  length : qs.length = v.turn.qwc.toNat

/-- How the transfer of `qs` that was started in `s` stands, `u` being the run of the channel and `packets` what the
unit has executed. -/
structure Sends (s : Vif1Path) (qs : List Uqword) (u : NormalRun) (packets : List Uqword) (v : Vif1Path) : Prop where
  /-- It is the same channel. -/
  turn : u.turn = v.turn
  /-- The transfer is under way, or it has ended. -/
  inv : Inv s.turn u
  /-- The quadwords moved are those in memory. -/
  moved : u.moved.map Moved.passed = (qs.take u.moved.length).map (bytes 16)
  /-- The unit has taken the packets, -/
  taken : u.peripheral = packets.flatMap (bytes 16)
  /-- and executed them. -/
  executed : Run.run (VifRegisters.process .vif1) (packets.flatMap Uqword.vifcodes) s.registers = .ok v.registers
  /-- The FIFO is empty once the transfer has ended. -/
  drained : str.extractFrom v.turn.chcr.w = 0 → v.turn.fifo = []

variable {s v v' : Vif1Path} {qs packets : List Uqword} {u : NormalRun}

theorem StartsSending.sends (h : StartsSending qs s) : Sends s qs (start s.turn) [] s where
  turn := rfl
  inv := h.starts.inv
  moved := rfl
  taken := rfl
  executed := rfl
  drained _ := h.fifo

theorem Sends.direction (hs : StartsSending qs s) (h : Sends s qs u packets v) : v.turn.chcr.direction = .TO := by
  rw [← h.turn, ← hs.direction]
  exact h.inv.mode.direction

/-- The quadword that a turn notes is the next one. -/
theorem Sends.moved_append (hs : StartsSending qs s) (h : Sends s qs u packets v) (hmem : Holds s.turn qs v)
    {t : EeDmacTurn} {served : ℕ} (hinv : Inv s.turn ⟨t, u.moved ++ note u.turn t, u.peripheral, served⟩) :
    (u.moved ++ note u.turn t).map Moved.passed = (qs.take (u.moved ++ note u.turn t).length).map (bytes 16) := by
  by_cases hpassed : passed u.turn t = []
  · rw [note, if_pos hpassed, List.append_nil]
    exact h.moved
  obtain ⟨m, hnote, hm⟩ : ∃ m : Moved, note u.turn t = [m] ∧ m.address = u.turn.transferAddress ∧
      m.spr = u.turn.transferSpr ∧
      m.memory = readQwordMemory v.turn.memory u.turn.transferAddress u.turn.transferSpr := by
    refine ⟨_, by rw [note, if_neg hpassed], rfl, rfl, ?_⟩
    rw [h.turn, if_pos (h.direction hs)]
  obtain ⟨haddress, hspr, hmemory⟩ := hm
  rw [hnote] at hinv ⊢
  have hlast : m.address = s.turn.transferAddress + BitVec.ofNat 32 (16 * u.moved.length) := by
    have haddresses := hinv.addresses
    rw [List.length_append, List.length_singleton, List.range_succ, List.map_append, List.map_append,
      h.inv.addresses] at haddresses
    exact List.singleton_injective (List.append_cancel_left haddresses)
  have hin : m ∈ u.moved ++ [m] := List.mem_append_right _ List.mem_cons_self
  obtain ⟨hlength, hquad⟩ := hinv.inMemory m hin
  -- it is among those to be sent
  have hlt : u.moved.length < qs.length := by
    have hatMost := hinv.stands.atMost
    rw [List.length_append, List.length_singleton, ← hs.length] at hatMost
    omega
  have hq : qs[u.moved.length]? = some qs[u.moved.length] := List.getElem?_eq_getElem hlt
  have hread := hmem _ _ hq
  rw [← hlast, ← hinv.spr m hin, haddress, hspr, ← hmemory, hquad] at hread
  have hbytes : m.passed = bytes 16 qs[u.moved.length] := by
    rw [← Except.ok.inj hread, bytes_ofBytes hlength (Nat.le_refl _)]
  rw [List.map_append, h.moved, List.length_append, List.length_singleton, List.take_add_one, hq, List.map_append,
    List.map_singleton, hbytes]
  rfl

/-- The turn that ends the transfer finds the FIFO empty. -/
theorem Sends.drained_of_turn (hs : StartsSending qs s) (h : Sends s qs u packets v) {t : EeDmacTurn}
    (hturn : u.turn.channelTurn = .ok t) (hoff : str.extractFrom t.chcr.w = 0) : t.fifo = [] := by
  by_cases hstr : str.extractFrom u.turn.chcr.w = 0
  · obtain rfl := Except.ok.inj ((channelTurn_of_idle hstr).symm.trans hturn)
    rw [h.turn] at hstr ⊢
    exact h.drained hstr
  cases normalTurn_channelTurn (h.inv.not8 hs.starts) (h.inv.not9 hs.starts) (h.inv.mod hs.starts) hstr t hturn with
  | start _ ht | wait _ _ ht | stall _ _ _ ht =>
    subst ht
    exact absurd hoff hstr
  | qword _ _ _ _ _ hadv => exact absurd (hadv.chcr ▸ hoff) hstr
  | ends _ hqwc hready ht =>
    obtain ⟨f240, heq⟩ := setStateSuspended_eq (h.inv.mode.dirForced hs.starts.forced)
    rw [EeDmacTurn.Ready, if_pos hqwc, h.turn] at hready
    rw [ht, heq, h.turn]
    exact hready (h.direction hs)

theorem Sends.ofTurn (hs : StartsSending qs s) (h : Sends s qs u packets v) (hmem : Holds s.turn qs v) {t : EeDmacTurn}
    (hturn : v.turn.channelTurn = .ok t) :
    Sends s qs
      { turn := t
        moved := u.moved ++ note u.turn t
        peripheral := u.peripheral
        served := u.served + if str.extractFrom u.turn.chcr.w ≠ 0 ∧ u.turn.Ready then 1 else 0 }
      packets { v with turn := t } := by
  rw [← h.turn] at hturn
  have hclear : Clear .turn u := fun _ _ _ _ _ hid => absurd (hid.symm.trans (h.inv.mode.channelId.trans hs.channelId))
    (by decide)
  have hinv := h.inv.step hs.starts hclear (bind_eq_ok_iff.mpr ⟨t, hturn, rfl⟩)
  exact ⟨rfl, hinv, h.moved_append hs hmem hinv, h.taken, h.executed, h.drained_of_turn hs hturn⟩

theorem Sends.ofTick (hs : StartsSending qs s) (h : Sends s qs u packets v) (hstep : step .tick v = .ok v') :
    ∃ u' packet, Sends s qs u' (packets ++ packet) v' ∧ u'.served = u.served := by
  obtain ⟨queue, hqueue, hstep⟩ := bind_eq_ok_iff.mp hstep
  obtain ⟨unit, hunit, heq⟩ := bind_eq_ok_iff.mp hstep
  obtain rfl := Except.ok.inj heq
  have hqueue := deref_eq_ok_iff.mp hqueue
  obtain ⟨packet, -, hbytes, hrun⟩ := VifUnit.fed_timeStep hunit
  dsimp only at hbytes hrun
  rw [List.append_nil] at hbytes
  -- to the channel the unit is a peripheral that reads the packet
  have hread : queue.read (packet.flatMap (bytes 16)).length = .ok (packet.flatMap (bytes 16), unit.dmaFifoQueue) := by
    rw [DmaFifoQueue.read_eq (by rw [hbytes, List.length_append]; omega), hbytes, List.take_left]
    congr 2
    ext1
    rw [DmaFifoQueue.bytes_drop, hbytes, List.drop_left]
  have hmove : NormalRun.step (.peripheral (packet.flatMap (bytes 16)).length []) u = .ok
      { u with
        turn := { u.turn with dmaFifoQueue := some unit.dmaFifoQueue }
        peripheral := u.peripheral ++ packet.flatMap (bytes 16) } := by
    rw [NormalRun.step, h.turn, hqueue, deref_some, ok_bind, if_pos (h.direction hs), hread, ok_bind]
    rfl
  refine ⟨_, packet, ⟨by rw [h.turn], h.inv.peripheral hmove, h.moved, ?_, ?_, fun hoff => ?_⟩, rfl⟩
  · rw [h.taken, List.flatMap_append]
  · rw [List.flatMap_append]
    exact Run.run_append.mpr ⟨_, h.executed, hrun⟩
  · have hempty := h.drained hoff
    rw [fifo_eq hqueue, hbytes] at hempty
    exact (fifo_eq rfl).trans (List.append_eq_nil_iff.mp hempty).2

/-- One step. -/
theorem sends_step {op : Vif1PathOp} (hs : StartsSending qs s) (h : Sends s qs u packets v) (hmem : Holds s.turn qs v)
    (hstep : step op v = .ok v') : ∃ u' packet, Sends s qs u' (packets ++ packet) v' := by
  cases op with
  | turn =>
    obtain ⟨t, hturn, heq⟩ := bind_eq_ok_iff.mp hstep
    obtain rfl := Except.ok.inj heq
    exact ⟨_, [], (List.append_nil packets).symm ▸ h.ofTurn hs hmem hturn⟩
  | tick =>
    obtain ⟨u', packet, h', -⟩ := h.ofTick hs hstep
    exact ⟨u', packet, h'⟩
  | rest f =>
    obtain rfl := Except.ok.inj hstep
    refine ⟨{ u with turn := keeping f u.turn }, [], ?_⟩
    rw [List.append_nil]
    exact ⟨by rw [h.turn], h.inv.rest rfl, h.moved, h.taken, h.executed, h.drained⟩

/-- A run, as long as memory holds the quadwords. -/
theorem sends_run {ops : List Vif1PathOp} (hs : StartsSending qs s)
    (hmem : Run.Always step (fun _ v => Holds s.turn qs v) ops s) (hrun : Run.run step ops s = .ok v) :
    ∃ u packets, Sends s qs u packets v :=
  Run.Always.invariant_run (I := fun v => ∃ u packets, Sends s qs u packets v)
    (fun _ _ _ ⟨_, _, h⟩ hmem hstep =>
      have ⟨u', _, h'⟩ := sends_step hs h hmem hstep
      ⟨u', _, h'⟩)
    ⟨_, _, hs.sends⟩ hmem hrun

/-- The quadwords moved are those executed and those in the FIFO. -/
theorem Sends.exists_fifo (hs : StartsSending qs s) (h : Sends s qs u packets v) :
    ∃ queued, qs.take u.moved.length = packets ++ queued ∧ v.turn.fifo = queued.flatMap (bytes 16) := by
  have horder := h.inv.order
  rw [InOrder, if_pos hs.direction, hs.fifo, List.nil_append, List.flatMap_def, h.moved, ← List.flatMap_def, h.taken,
    h.turn] at horder
  exact exists_append_of_flatMap_bytes horder

/-- Once the transfer has ended everything is executed. -/
theorem Sends.packets_eq (hs : StartsSending qs s) (h : Sends s qs u packets v)
    (hoff : str.extractFrom v.turn.chcr.w = 0) : packets = qs := by
  obtain ⟨queued, htake, hfifo⟩ := h.exists_fifo hs
  rw [h.drained hoff] at hfifo
  have hqueued : queued = [] := eq_nil_of_flatMap_bytes hfifo.symm
  have hall : u.moved.length = qs.length := by
    rw [← h.turn] at hoff
    rw [hs.length, (h.inv.phase.ended_of_idle hoff).1]
  rw [hqueued, List.append_nil, hall, List.take_length] at htake
  exact htake.symm

/-! ### Turn by turn -/

/-- A turn does not throw. -/
theorem Sends.exists_turn (hs : StartsSending qs s) (h : Sends s qs u packets v) (hmem : Holds s.turn qs v) :
    ∃ t, v.turn.channelTurn = .ok t := by
  have hmapped (htotal : u.turn.qwc.toNat + u.moved.length = s.turn.qwc.toNat)
      (hmadr : u.turn.madr = s.turn.madr + BitVec.ofNat 32 (16 * u.moved.length)) (hqwc : u.turn.qwc ≠ 0) :
      u.turn.memory.isMapped u.turn.busAddress 16 = true := by
    obtain ⟨haddress, hspr⟩ := Inv.address hs.starts htotal hmadr hqwc
    have hpos : 0 < u.turn.qwc.toNat := Nat.pos_of_ne_zero fun h0 => hqwc (BitVec.eq_of_toNat_eq h0)
    have hlt : u.moved.length < qs.length := by
      rw [hs.length]
      omega
    have hread := hmem _ _ (List.getElem?_eq_getElem hlt)
    rw [busAddress, haddress, hspr, h.turn]
    exact isMapped_of_readQwordMemory hread
  rw [← h.turn]
  cases h.inv.phase with
  | fresh _ _ hnone hmadr hqwc =>
    have hne : u.turn.qwc ≠ 0 := hqwc ▸ hs.starts.qwc
    refine exists_channelTurn (h.inv.not8 hs.starts) (h.inv.not9 hs.starts) (h.inv.mod hs.starts) h.inv.queue
      (fun _ => hne) (hmapped ?_ ?_ hne)
    · rw [hnone, hqwc]
      rfl
    · rw [hnone, hmadr]
      simp
  | going _ hstarted htotal hmadr =>
    by_cases hqwc : u.turn.qwc = 0
    · exact exists_channelTurn_of_qwc (h.inv.mod hs.starts) h.inv.queue hstarted hqwc
    · exact exists_channelTurn (h.inv.not8 hs.starts) (h.inv.not9 hs.starts) (h.inv.mod hs.starts) h.inv.queue
        (fun _ => hqwc) (hmapped htotal hmadr hqwc)
  | ended hoff => exact ⟨_, channelTurn_of_idle hoff⟩

/-- A turn that finds the FIFO empty leaves one quadword in it at most. -/
theorem Sends.queued_of_turn (hs : StartsSending qs s) (h : Sends s qs u packets v) (hmem : Holds s.turn qs v)
    (hfifo : v.turn.fifo = []) {t : EeDmacTurn} (hturn : v.turn.channelTurn = .ok t) :
    ∃ queued : List Uqword, queued.length ≤ 1 ∧ (∀ q ∈ queued, q ∈ qs) ∧ t.fifo = queued.flatMap (bytes 16) := by
  have h' := h.ofTurn hs hmem hturn
  obtain ⟨before, hbefore, hempty⟩ := h.exists_fifo hs
  obtain ⟨queued, htake, hqueued⟩ := h'.exists_fifo hs
  have hnote : (note u.turn t).length ≤ 1 := by
    unfold note
    split_ifs <;> simp
  obtain rfl : before = [] := eq_nil_of_flatMap_bytes (hempty.symm.trans hfifo)
  have htaken := congrArg List.length hbefore
  have hlength := congrArg List.length htake
  have hatMost := h'.inv.stands.atMost
  simp only [List.append_nil, List.length_take, List.length_append] at htaken hlength hatMost
  refine ⟨queued, by omega, fun q hq => ?_, hqueued⟩
  exact List.mem_of_mem_take (htake ▸ List.mem_append_right _ hq)

/-- A turn, and a tick of the VIF behind it. -/
theorem Sends.round (hs : StartsSending qs s) (h : Sends s qs u packets v) (hmem : Holds s.turn qs v)
    (hfifo : v.turn.fifo = []) (hcodes : ∀ data ∈ qs.flatMap Uqword.vifcodes, ∃ f,
      VifcodeInstruction.instructionSet.dispatch data = .ok f) :
    ∃ v' u' packets', Run.run step [.turn, .tick] v = .ok v' ∧
      Run.Always step (fun _ w => Holds s.turn qs w) [.turn, .tick] v ∧ Sends s qs u' packets' v' ∧ Holds s.turn qs v' ∧
      v'.turn.fifo = [] ∧
      (str.extractFrom v'.turn.chcr.w = 0 ∨ str.extractFrom v.turn.chcr.w ≠ 0 ∧ u'.served = u.served + 1) := by
  obtain ⟨t, hturn⟩ := h.exists_turn hs hmem
  have h₁ := h.ofTurn hs hmem hturn
  obtain ⟨queued, hone, hmember, hqueued⟩ := h.queued_of_turn hs hmem hfifo hturn
  obtain ⟨queue, hqueue⟩ := Option.isSome_iff_exists.mp h₁.inv.queue
  have hbytes : queue.bytes = queued.flatMap (bytes 16) ++ [] := by
    rw [List.append_nil, ← hqueued, fifo_eq hqueue]
  -- the unit takes it
  have hqueued : ∀ data ∈ queued.flatMap Uqword.vifcodes, ∃ f,
      VifcodeInstruction.instructionSet.dispatch data = .ok f := fun data hdata => by
    obtain ⟨q, hq, hdata⟩ := List.mem_flatMap.mp hdata
    exact hcodes data (List.mem_flatMap.mpr ⟨q, hmember q hq, hdata⟩)
  have hready := (VifRegisters.executed_run hs.ready h.executed).ready
  obtain ⟨unit, hunit, hfed⟩ : ∃ unit, VifUnit.timeStep .vif1 ⟨queue, v.registers⟩ = .ok unit ∧
      VifUnit.Fed .vif1 ⟨queue, v.registers⟩ unit [] (queued.take 1) :=
    VifUnit.timeStep_of_codes hready hbytes (by decide) hqueued
  rw [List.take_of_length_le hone] at hfed
  have hempty : unit.dmaFifoQueue.bytes = List.flatMap (bytes 16) [] ++ [] := hfed.bytes_eq (by
    rw [List.append_nil queued]
    exact hbytes)
  have htick : step .tick { v with turn := t } =
      .ok ⟨{ t with dmaFifoQueue := some unit.dmaFifoQueue }, unit.registers⟩ := by
    rw [step, hqueue, deref_some, ok_bind, hunit, ok_bind]
    rfl
  obtain ⟨u', packet, h', hserved⟩ := h₁.ofTick hs htick
  have hmemory : t.memory = v.turn.memory := by
    rw [← h.turn] at hturn ⊢
    exact memory_channelTurn (h.inv.not8 hs.starts) (h.inv.not9 hs.starts) (h.inv.mod hs.starts)
      (h.inv.mode.dirForced hs.starts.forced) (h.turn ▸ h.direction hs) t hturn
  have hstep : step .turn v = .ok { v with turn := t } := bind_eq_ok_iff.mpr ⟨t, hturn, rfl⟩
  have hrun : Run.run step [.turn, .tick] v = .ok ⟨{ t with dmaFifoQueue := some unit.dmaFifoQueue }, unit.registers⟩ :=
    Run.run_cons_ok.mpr ⟨_, hstep, Run.run_cons_ok.mpr ⟨_, htick, rfl⟩⟩
  have hmem₁ : Holds s.turn qs { v with turn := t } := fun k q hq => by rw [← hmem k q hq, ← hmemory]
  refine ⟨_, u', _, hrun, ⟨hmem, fun w hw => ⟨?_, fun _ _ => trivial⟩⟩, h', hmem₁, (fifo_eq rfl).trans hempty, ?_⟩
  · obtain rfl := Except.ok.inj (hstep.symm.trans hw)
    exact hmem₁
  · by_cases hstr : str.extractFrom v.turn.chcr.w = 0
    · left
      rw [← Except.ok.inj ((channelTurn_of_idle hstr).symm.trans hturn)]
      exact hstr
    · right
      have hready : v.turn.Ready := by
        unfold EeDmacTurn.Ready
        rw [hfifo]
        split_ifs
        · exact fun _ => rfl
        · decide
        · exact absurd (h.direction hs) ‹_›
      refine ⟨hstr, hserved.trans ?_⟩
      rw [h.turn, if_pos ⟨hstr, hready⟩]

/-- Rounds of both. -/
theorem Sends.rounds (hs : StartsSending qs s) (hmem : Holds s.turn qs s)
    (hcodes : ∀ data ∈ qs.flatMap Uqword.vifcodes, ∃ f, VifcodeInstruction.instructionSet.dispatch data = .ok f)
    (n : ℕ) : ∃ v u packets, Run.run step (List.replicate n [.turn, .tick]).flatten s = .ok v ∧
      Run.Always step (fun _ w => Holds s.turn qs w) (List.replicate n [.turn, .tick]).flatten s ∧
      Sends s qs u packets v ∧ Holds s.turn qs v ∧ v.turn.fifo = [] ∧
      (str.extractFrom v.turn.chcr.w = 0 ∨ u.served = n) := by
  induction n with
  | zero => exact ⟨s, _, _, rfl, trivial, hs.sends, hmem, hs.fifo, .inr rfl⟩
  | succ n ih =>
    obtain ⟨v, u, packets, hrun, halways, h, hmem, hfifo, hserved⟩ := ih
    obtain ⟨v', u', packets', hround, halways', h', hmem', hfifo', hserved'⟩ := h.round hs hmem hfifo hcodes
    refine ⟨v', u', packets', ?_, ?_, h', hmem', hfifo', ?_⟩
    · rw [List.replicate_succ', List.flatten_concat]
      exact Run.run_append.mpr ⟨v, hrun, hround⟩
    · rw [List.replicate_succ', List.flatten_concat]
      refine halways.append fun w hw => ?_
      obtain rfl := Except.ok.inj (hrun.symm.trans hw)
      exact halways'
    · obtain hoff | ⟨hstr, hone⟩ := hserved'
      · exact .inl hoff
      · exact .inr (hone.trans (congrArg (· + 1) (hserved.resolve_left hstr)))

end Vif1Path

open Vif1Path

/-- A quadword of `MARK` codes. -/
def exampleMarks : Uqword := 0x07070707070707070707070707070707#128

/-- A channel just started on two quadwords at 0x1000, in a memory full of such codes. -/
def Vif1Path.marks (channelId : Fin 10) : Vif1Path :=
  ⟨{ vif0 0 with channelId, memory := ⟨fun _ => true, fun _ => 7⟩ }, .boot⟩

theorem Vif1Path.marks_starts : StartsSending [exampleMarks, exampleMarks] (marks 1) where
  starts :=
    { not8 := show (1 : Fin 10) ≠ 8 by decide
      not9 := show (1 : Fin 10) ≠ 9 by decide
      queue := rfl
      forced :=
        ⟨fun h => absurd h (show (1 : Fin 10) ≠ 5 by decide), fun h => absurd h (show (1 : Fin 10) ≠ 6 by decide)⟩
      mod := (starts_vif0 0).mod
      str := (starts_vif0 0).str
      fresh := rfl
      qwc := (starts_vif0 0).qwc
      unwrapped := (starts_vif0 0).unwrapped
      std := (starts_vif0 0).std
      sts := (starts_vif0 0).sts }
  channelId := rfl
  direction := show EeDmacChcr.direction ⟨0x101, false, false, false, false, .blank⟩ = .TO by decide
  fifo := rfl
  ready := VifRegisters.boot_ready
  length := rfl

theorem Vif1Path.marks_holds {v : Vif1Path} (h : v.turn.memory = (marks 1).turn.memory) :
    Holds (marks 1).turn [exampleMarks, exampleMarks] v := by
  intro k q hq
  obtain rfl : q = exampleMarks := by simpa using List.mem_of_getElem? hq
  have hread (address : Uptr) : Memory.readUqword ⟨fun _ => true, fun _ => 7⟩ address = .ok exampleMarks := by
    have hmapped : Memory.isMapped ⟨fun _ => true, fun _ => 7⟩ address 16 = true := by simp [Memory.isMapped]
    rw [Memory.readUqword, Memory.read, if_pos hmapped, ok_bind]
    exact congrArg Except.ok (show ofBytes 128 (List.replicate 16 7) = exampleMarks by decide)
  rw [h, readQwordMemory]
  split_ifs
  · exact hread _
  · exact hread _

theorem Vif1Path.marks_codes : ∀ data ∈ [exampleMarks, exampleMarks].flatMap Uqword.vifcodes, ∃ f,
    VifcodeInstruction.instructionSet.dispatch data = .ok f := by
  intro data hdata
  obtain rfl : data = 0x07070707 := by
    have hwords : Uqword.vifcodes exampleMarks = List.replicate 4 0x07070707 := by decide
    simpa [hwords] using hdata
  exact ⟨.mark, rfl⟩

/-- In any order of the turns of the channel, the ticks of the VIF and anything else that leaves the quadwords alone,
VIF1 executes the quadwords at MADR in order. Those moved are the ones executed and the ones in the FIFO, and all of
them have been executed once the transfer has ended. -/
theorem vif1_transfer {ops : List Vif1PathOp} {s v : Vif1Path} {qs : List Uqword} (hs : StartsSending qs s)
    (hmem : Run.Always Vif1Path.step (fun _ w => Holds s.turn qs w) ops s) (h : Run.run Vif1Path.step ops s = .ok v) :
    ∃ executed queued left, qs = executed ++ queued ++ left ∧
      VifRegisters.Executed .vif1 (executed.flatMap Uqword.vifcodes) s.registers v.registers ∧
      v.turn.fifo = queued.flatMap (bytes 16) ∧ (str.extractFrom v.turn.chcr.w = 0 → executed = qs) := by
  obtain ⟨u, packets, h⟩ := sends_run hs hmem h
  obtain ⟨queued, htake, hfifo⟩ := h.exists_fifo hs
  refine ⟨packets, queued, qs.drop u.moved.length, ?_, VifRegisters.executed_run hs.ready h.executed, hfifo,
    h.packets_eq hs⟩
  rw [← htake, List.take_append_drop]

/-- The `MARK` codes are executed. -/
theorem vif1_transfer_marks : ∃ v, Run.run Vif1Path.step (List.replicate 4 [.turn, .tick]).flatten (.marks 1) = .ok v ∧
    VifRegisters.Executed .vif1 ([exampleMarks, exampleMarks].flatMap Uqword.vifcodes) .boot v.registers := by
  obtain ⟨v, u, packets, hrun, hmem, h, -, -, hserved⟩ := Sends.rounds marks_starts (marks_holds rfl) marks_codes 4
  have hoff : str.extractFrom v.turn.chcr.w = 0 := by
    refine hserved.elim id fun hserved => ?_
    rw [← h.turn]
    exact h.inv.stands.stops (hserved ▸ Nat.le_refl 4)
  obtain ⟨executed, -, -, -, hexecuted, -, hall⟩ := vif1_transfer marks_starts hmem hrun
  rw [hall hoff] at hexecuted
  exact ⟨v, hrun, hexecuted⟩

/-- Where the channel and the VIF have their turns one after the other, a transfer of VIFcodes ends, with all of them
executed. -/
theorem vif1_transfer_ends {s : Vif1Path} {qs : List Uqword} (hs : StartsSending qs s) (hmem : Holds s.turn qs s)
    (hcodes : ∀ data ∈ qs.flatMap Uqword.vifcodes, ∃ f, VifcodeInstruction.instructionSet.dispatch data = .ok f) :
    ∃ v, Run.run Vif1Path.step (List.replicate (qs.length + 2) [.turn, .tick]).flatten s = .ok v ∧
      str.extractFrom v.turn.chcr.w = 0 ∧ v.turn.fifo = [] ∧
      VifRegisters.Executed .vif1 (qs.flatMap Uqword.vifcodes) s.registers v.registers := by
  obtain ⟨v, u, packets, hrun, -, h, -, hfifo, hserved⟩ := Sends.rounds hs hmem hcodes (qs.length + 2)
  have hoff : str.extractFrom v.turn.chcr.w = 0 := by
    obtain hoff | hserved := hserved
    · exact hoff
    · rw [← h.turn]
      refine h.inv.stands.stops ?_
      rw [hserved, hs.length]
  refine ⟨v, hrun, hoff, hfifo, ?_⟩
  rw [← h.packets_eq hs hoff]
  exact VifRegisters.executed_run hs.ready h.executed

/-- The transfer of the `MARK` codes ends. -/
theorem vif1_transfer_ends_marks :
    ∃ v, Run.run Vif1Path.step (List.replicate 4 [.turn, .tick]).flatten (.marks 1) = .ok v ∧
      str.extractFrom v.turn.chcr.w = 0 ∧ v.turn.fifo = [] ∧
      VifRegisters.Executed .vif1 ([exampleMarks, exampleMarks].flatMap Uqword.vifcodes) .boot v.registers :=
  vif1_transfer_ends marks_starts (marks_holds rfl) marks_codes

end Orbum
