import Orbum.Iop.Dmac.Controller

/-!
# What a turn of a channel does

`time_step` gives a channel a turn, and the turn does one thing: it starts the transfer, moves a word, reads a tag,
ends the transfer, or waits for the queue. What is said of turns elsewhere is said case by case.
-/

namespace Orbum

open LittleEndian

/-- What the DMAC asks of a queue before it moves `n` bytes. -/
def IopDmacChcr.Direction.ready (queue : DmaFifoQueue) (n : ℕ) : IopDmacChcr.Direction → Bool
  | .TO => queue.hasWriteAvailable n
  | .FROM => queue.hasReadAvailable n

namespace IopDmac

/-- What moving a word does. -/
inductive DataMoved (s : IopDmac) (k : Fin 13) : IopDmac → Prop where
  /-- There is no word in the queue. -/
  | starved (hfrom : (s.channels k).chcr.direction = .FROM)
      (havail : ¬(s.fifo (dmaFifoQueue k)).hasReadAvailable 4 = true) : DataMoved s k s
  /-- The word goes from the queue to the memory. -/
  | received {packet : List Ubyte} {q : DmaFifoQueue} {memory : Memory}
      (hfrom : (s.channels k).chcr.direction = .FROM) (hread : (s.fifo (dmaFifoQueue k)).read 4 = .ok (packet, q))
      (hwrite : s.memory.writeUword (s.channels k).madr (ofBytes 32 packet) = .ok memory) :
      DataMoved s k (({ s with memory, stored := if k = 12 then s.stored ++ packet else s.stored }.setFifo
        (dmaFifoQueue k) q).advance k)
  /-- There is no room for a word in the queue. -/
  | blocked (hto : (s.channels k).chcr.direction = .TO)
      (hroom : ¬(s.fifo (dmaFifoQueue k)).hasWriteAvailable 4 = true) : DataMoved s k s
  /-- The word goes from the memory to the queue. -/
  | sent {packet : Uword} {q : DmaFifoQueue} (hto : (s.channels k).chcr.direction = .TO)
      (hread : s.memory.readUword (s.channels k).madr = .ok packet)
      (hwrite : (s.fifo (dmaFifoQueue k)).write (bytes 4 packet) = .ok q) :
      DataMoved s k (({ s with read := if k = 11 then s.read ++ bytes 4 packet else s.read }.setFifo
        (dmaFifoQueue k) q).advance k)

/-- What reading a tag does. -/
inductive TagRead (s : IopDmac) (k : Fin 13) : Bool × IopDmac → Prop where
  /-- There is no room for the tag in the queue, or no tag. -/
  | waits (hready : (s.channels k).chcr.direction.ready (s.fifo (dmaFifoQueue k)) 16 = false) : TagRead s k (false, s)
  /-- The tag is in the memory, with that of the other side behind it. -/
  | source {tadr uw0 uw1 uw2 uw3 : Uword} {q : DmaFifoQueue} (hto : (s.channels k).chcr.direction = .TO)
      (htadr : s.tadr k = .ok tadr) (h0 : s.memory.readUword tadr = .ok uw0) (h1 : s.memory.readUword (tadr + 4) = .ok uw1)
      (h2 : s.memory.readUword (tadr + 8) = .ok uw2) (h3 : s.memory.readUword (tadr + 12) = .ok uw3)
      (hwrite : (s.fifo (dmaFifoQueue k)).write (bytes 4 uw2 ++ bytes 4 uw3 ++ List.replicate 8 0) = .ok q) :
      TagRead s k (true,
        let t := (s.setFifo (dmaFifoQueue k) q).setTag k ⟨uw0, uw1⟩ (((⟨uw0, uw1⟩ : IopDmatag).length + 3) &&& 0xFFFFC)
        t.setChannel k { t.channels k with tadr := tadr + 16 })
  /-- The tag is in the queue. -/
  | dest {packet : List Ubyte} {q : DmaFifoQueue} (hfrom : (s.channels k).chcr.direction = .FROM)
      (hread : (s.fifo (dmaFifoQueue k)).read 16 = .ok (packet, q)) :
      TagRead s k (true,
        let tag : IopDmatag := ⟨ofBytes 32 (packet.take 4), ofBytes 32 ((packet.drop 4).take 4)⟩
        (s.setFifo (dmaFifoQueue k) q).setTag k tag tag.length)

/-- What the turn of a channel does that is enabled and started. -/
inductive TurnStep (s : IopDmac) (k : Fin 13) : IopDmac → Prop where
  /-- A normal transfer starts. -/
  | startNormal {useBlocks : Bool} (hmode : (s.channels k).chcr.logicalMode = if useBlocks then .normalSlice else .normalBurst)
      (hfresh : (s.channels k).chcr.dmaStarted = false) :
      TurnStep s k (s.startTransfer k (IopDmacChannel.calculate useBlocks (s.channels k).bcr))
  /-- A chain starts. -/
  | startChain (hmode : (s.channels k).chcr.logicalMode = .chain) (hfresh : (s.channels k).chcr.dmaStarted = false) :
      TurnStep s k (s.startTransfer k 0)
  /-- A word is moved. -/
  | data {s' : IopDmac} (hdma : (s.channels k).chcr.dmaStarted = true) (hleft : 0 < (s.channels k).transferLength)
      (hdata : DataMoved s k s') : TurnStep s k s'
  /-- The transfer ends. -/
  | ends (hdma : (s.channels k).chcr.dmaStarted = true) (hleft : (s.channels k).transferLength = 0) :
      TurnStep s k (s.finish k)
  /-- A tag is read. -/
  | tag {r : Bool × IopDmac} (hmode : (s.channels k).chcr.logicalMode = .chain)
      (hdma : (s.channels k).chcr.dmaStarted = true) (hleft : (s.channels k).transferLength = 0)
      (htag : TagRead s k r) : TurnStep s k (if r.1 then r.2.setTagAddr k else r.2)

variable (s : IopDmac) (k : Fin 13)

theorem dataMoved_transferData : Ensures (DataMoved s k) (s.transferData k) := by
  intro s' h
  unfold transferData at h
  cases hdir : (s.channels k).chcr.direction with
  | FROM =>
    rw [hdir] at h
    dsimp only at h
    by_cases havail : (s.fifo (dmaFifoQueue k)).hasReadAvailable 4 = true
    · rw [if_neg (not_not_intro havail)] at h
      obtain ⟨⟨packet, q⟩, hread, h⟩ := bind_eq_ok_iff.mp h
      obtain ⟨memory, hwrite, h⟩ := bind_eq_ok_iff.mp h
      obtain rfl := Except.ok.inj h
      exact .received hdir hread hwrite
    · rw [if_pos havail] at h
      obtain rfl := Except.ok.inj h
      exact .starved hdir havail
  | TO =>
    rw [hdir] at h
    dsimp only at h
    by_cases hroom : (s.fifo (dmaFifoQueue k)).hasWriteAvailable 4 = true
    · rw [if_neg (not_not_intro hroom)] at h
      obtain ⟨packet, hread, h⟩ := bind_eq_ok_iff.mp h
      obtain ⟨q, hwrite, h⟩ := bind_eq_ok_iff.mp h
      obtain rfl := Except.ok.inj h
      exact .sent hdir hread hwrite
    · rw [if_pos hroom] at h
      obtain rfl := Except.ok.inj h
      exact .blocked hdir hroom

theorem tagRead_readChainTag : Ensures (TagRead s k) (s.readChainTag k) := by
  intro r h
  unfold readChainTag at h
  cases hdir : (s.channels k).chcr.direction with
  | FROM =>
    rw [hdir] at h
    change s.readChainDestTag k = .ok r at h
    unfold readChainDestTag at h
    by_cases havail : (s.fifo (dmaFifoQueue k)).hasReadAvailable 16 = true
    · rw [if_neg (not_not_intro havail)] at h
      obtain ⟨⟨packet, q⟩, hread, h⟩ := bind_eq_ok_iff.mp h
      dsimp only at h
      split_ifs at h with hce
      · cases h
      · obtain rfl := Except.ok.inj h
        exact .dest hdir hread
    · rw [if_pos havail] at h
      obtain rfl := Except.ok.inj h
      exact .waits (by rw [hdir]; exact eq_false_of_ne_true havail)
  | TO =>
    rw [hdir] at h
    obtain ⟨tadr, htadr, h⟩ := bind_eq_ok_iff.mp h
    obtain ⟨uw0, h0, h⟩ := bind_eq_ok_iff.mp h
    obtain ⟨uw1, h1, h⟩ := bind_eq_ok_iff.mp h
    obtain ⟨uw2, h2, h⟩ := bind_eq_ok_iff.mp h
    obtain ⟨uw3, h3, h⟩ := bind_eq_ok_iff.mp h
    dsimp only at h
    split_ifs at h with hce hroom
    · obtain ⟨q, hwrite, h⟩ := bind_eq_ok_iff.mp h
      obtain rfl := Except.ok.inj h
      exact .source hdir htadr h0 h1 h2 h3 hwrite
    · obtain rfl := Except.ok.inj h
      exact .waits (by rw [hdir]; exact eq_false_of_ne_true hroom)

theorem turnStep_transferNormal (useBlocks : Bool)
    (hmode : (s.channels k).chcr.logicalMode = if useBlocks then .normalSlice else .normalBurst) :
    Ensures (TurnStep s k) (s.transferNormal k useBlocks) := by
  unfold transferNormal
  split_ifs with hdma hleft
  · exact .ok (.ends hdma hleft)
  · exact (dataMoved_transferData s k).mono fun s' hdata => .data hdma (Nat.pos_of_ne_zero hleft) hdata
  · rw [Bool.not_eq_true] at hdma
    exact .ok (.startNormal hmode hdma)

theorem turnStep_transferChain (hmode : (s.channels k).chcr.logicalMode = .chain) :
    Ensures (TurnStep s k) (s.transferChain k) := by
  unfold transferChain
  split_ifs with hdma hleft hend
  · exact (dataMoved_transferData s k).mono fun s' hdata => .data hdma hleft hdata
  · exact .ok (.ends hdma (Nat.eq_zero_of_not_pos hleft))
  · exact (tagRead_readChainTag s k).bind fun r htag => .ok (.tag hmode hdma (Nat.eq_zero_of_not_pos hleft) htag)
  · rw [Bool.not_eq_true] at hdma
    exact .ok (.startChain hmode hdma)

/-- What holds of a turn: of none, and of each thing that it can do. -/
theorem ensures_turn {P : IopDmac → Prop} (hoff : ¬(s.isChannelEnabled k ∧ (s.channels k).chcr.started) → P s)
    (hon : s.isChannelEnabled k = true → (s.channels k).chcr.started = true → ∀ s', TurnStep s k s' → P s') :
    Ensures P (s.turn k) := by
  have hstep (h : s.isChannelEnabled k ∧ (s.channels k).chcr.started) {x : Except HostError IopDmac}
      (hx : Ensures (TurnStep s k) x) : Ensures P x := hx.mono (hon h.1 h.2)
  unfold turn
  split_ifs with h
  · cases hmode : (s.channels k).chcr.logicalMode with
    | normalBurst => exact hstep h (turnStep_transferNormal s k false hmode)
    | normalSlice => exact hstep h (turnStep_transferNormal s k true hmode)
    | linkedList => exact .error _
    | chain => exact hstep h (turnStep_transferChain s k hmode)
  · exact .ok (hoff h)

end IopDmac

end Orbum
