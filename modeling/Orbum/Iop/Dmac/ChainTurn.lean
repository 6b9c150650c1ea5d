import Orbum.Iop.Dmac.Frame

/-!
# Turns of a chain

What a turn of a channel in chain mode does to its queue and to the memory: it moves a tag, or a word of the data of
the last tag, or nothing.
-/

namespace Orbum

open LittleEndian

namespace IopDmac

variable {s s' s'' : IopDmac} {k : Fin 13} {f g : IopFifo}

/-! ### Queues -/

@[simp] theorem fifo_setFifo_self (s : IopDmac) (f : IopFifo) (q : DmaFifoQueue) : (s.setFifo f q).fifo f = q := by
  cases f <;> rfl

theorem fifo_setFifo_of_ne (h : g ≠ f) (s : IopDmac) (q : DmaFifoQueue) : (s.setFifo f q).fifo g = s.fifo g := by
  have hothers (f : IopFifo) (h : g ≠ f) (q : DmaFifoQueue) :
      IopDmac.fifo { s with others := Function.update s.others f q } g = s.fifo g := by
    cases g <;> first | rfl | exact Function.update_of_ne h _ _
  cases f with
  | tosio2 => cases g <;> first | rfl | exact absurd rfl h
  | fromsio2 => cases g <;> first | rfl | exact absurd rfl h
  | _ => exact hothers _ h q

@[simp] theorem fifo_setChannel (s : IopDmac) (k : Fin 13) (c : IopDmacChannel) :
    (s.setChannel k c).fifo f = s.fifo f := by
  cases f <;> rfl

@[simp] theorem setFifo_memory (s : IopDmac) (f : IopFifo) (q : DmaFifoQueue) : (s.setFifo f q).memory = s.memory := by
  cases f <;> rfl

theorem fifo_setStateSuspended (s : IopDmac) (k : Fin 13) : (s.setStateSuspended k).fifo f = s.fifo f := by
  unfold setStateSuspended handleInterruptCheck setChannelTci
  split_ifs <;> cases f <;> rfl

/-! ### The mode of the channel -/

/-- From the address of a word that is moved to that of the next one. -/
def stride (c : IopDmacChcr) : Uword := if IopDmacChcr.mas.extractFrom c.w = 0 then 4 else -4

theorem madr_advance (c : IopDmacChannel) : c.advance.madr = c.madr + stride c.chcr := by
  unfold IopDmacChannel.advance stride
  split_ifs
  · rfl
  · exact BitVec.sub_eq_add_neg _ _

/-- The two words differ in START only. -/
def ButStart (w w' : Uword) : Prop := ∀ f : Bitfield, f.Disjoint IopDmacChcr.start → f.extractFrom w' = f.extractFrom w

/-- The direction is one that the register of the channel takes. -/
structure DirForced (k : Fin 13) (c : IopDmacChcr) : Prop where
  /-- SIF0. -/
  sif0 : k = 9 → c.direction = .TO
  /-- SIF1. -/
  sif1 : k = 10 → c.direction = .FROM

theorem direction_eq_iff (c : IopDmacChcr) : c.direction = .FROM ↔ IopDmacChcr.td.extractFrom c.w = 0 := by
  rw [IopDmacChcr.direction, IopDmacChcr.directionOf]
  split_ifs with h
  · exact ⟨fun _ => h, fun _ => rfl⟩
  · exact ⟨fun hc => absurd hc (by decide), fun hc => absurd hc h⟩

/-- Forcing the direction that it has. -/
theorem forced_eq {c : IopDmacChcr} (h : DirForced k c) : IopDmacChcr.forced k c.w = c.w := by
  unfold IopDmacChcr.forced
  split_ifs with h9 h10
  · refine Bitfield.or_one fun h0 => ?_
    have hfrom := (direction_eq_iff c).mpr h0
    rw [h.sif0 h9] at hfrom
    cases hfrom
  · exact Bitfield.and_not_one ((direction_eq_iff c).mp (h.sif1 h10))
  · rfl

theorem direction_of_butStart {c c' : IopDmacChcr} (h : ButStart c.w c'.w) : c'.direction = c.direction := by
  have htd := h IopDmacChcr.td (by decide)
  rw [IopDmacChcr.direction, IopDmacChcr.direction, IopDmacChcr.directionOf, IopDmacChcr.directionOf, htd]

/-- A step of a chain that moves nothing. -/
structure Stays (k : Fin 13) (s s' : IopDmac) : Prop where
  /-- The mode. -/
  control : ButStart (s.channels k).chcr.w (s'.channels k).chcr.w
  /-- Whether the transfer has started. -/
  dmaStarted : (s'.channels k).chcr.dmaStarted = (s.channels k).chcr.dmaStarted
  /-- MADR. -/
  madr : (s'.channels k).madr = (s.channels k).madr
  /-- The words left. -/
  transferLength : (s'.channels k).transferLength = (s.channels k).transferLength
  /-- The queue. -/
  queue : s'.fifo (dmaFifoQueue k) = s.fifo (dmaFifoQueue k)

theorem Stays.refl (k : Fin 13) (s : IopDmac) : Stays k s s := ⟨fun _ _ => rfl, rfl, rfl, rfl, rfl⟩

/-- The channel once its transfer has ended: START is clear. -/
theorem channels_setStateSuspended (h : DirForced k (s.channels k).chcr) :
    (s.setStateSuspended k).channels k = { s.channels k with
      chcr := { (s.channels k).chcr with w := IopDmacChcr.start.insertInto (s.channels k).chcr.w 0 } } := by
  generalize hw : IopDmacChcr.start.insertInto (s.channels k).chcr.w 0 = w
  have hbut : ButStart (s.channels k).chcr.w w := by
    subst hw
    exact fun f hf => Bitfield.extractFrom_insertInto_of_disjoint _ _ hf
  have hforced : IopDmacChcr.forced k w = w := by
    have hdir : ({ (s.channels k).chcr with w } : IopDmacChcr).direction = (s.channels k).chcr.direction :=
      direction_of_butStart hbut
    exact forced_eq (c := { (s.channels k).chcr with w })
      ⟨fun h9 => hdir.trans (h.sif0 h9), fun h10 => hdir.trans (h.sif1 h10)⟩
  have hnot : ¬(IopDmacChcr.start.extractFrom (s.channels k).chcr.w = 0 ∧ IopDmacChcr.start.extractFrom w ≠ 0) := by
    rintro ⟨-, h1⟩
    rw [← hw, Bitfield.extractFrom_insertInto_self _ _ _ (by decide)] at h1
    exact h1 BitVec.zero_and
  have hwrite : (s.channels k).chcr.writeUword (IopDmacChcr.forced k w) = { (s.channels k).chcr with w } := by
    rw [hforced, IopDmacChcr.writeUword, if_neg hnot]
  rw [← hwrite, ← hw]
  unfold setStateSuspended handleInterruptCheck setChannelTci
  split_ifs <;> exact Function.update_self _ _ _

theorem stays_setStateSuspended (h : DirForced k (s.channels k).chcr) : Stays k s (s.setStateSuspended k) := by
  have hchannel := channels_setStateSuspended h
  refine ⟨?_, ?_, ?_, ?_, fifo_setStateSuspended s k⟩
  · rw [hchannel]
    exact fun f hf => Bitfield.extractFrom_insertInto_of_disjoint _ _ hf
  · rw [hchannel]
  · rw [hchannel]
  · rw [hchannel]

theorem stays_finish (h : DirForced k (s.channels k).chcr) : Stays k s (s.finish k) := by
  unfold finish
  split_ifs
  · exact .refl k s
  · exact stays_setStateSuspended h

/-! ### A destination chain -/

/-- What a turn of a destination chain does. -/
inductive DestTurn (k : Fin 13) (s s' : IopDmac) : Prop where
  /-- It moves nothing. -/
  | stay : Stays k s s' → DestTurn k s s'
  /-- It starts the transfer. -/
  | start : ButStart (s.channels k).chcr.w (s'.channels k).chcr.w → (s.channels k).chcr.dmaStarted = false →
      (s'.channels k).chcr.dmaStarted = true → (s'.channels k).transferLength = 0 → (s'.channels k).madr = (s.channels k).madr →
      s'.fifo (dmaFifoQueue k) = s.fifo (dmaFifoQueue k) → DestTurn k s s'
  /-- It takes a word. -/
  | word {packet : List Ubyte} : ButStart (s.channels k).chcr.w (s'.channels k).chcr.w →
      (s.channels k).chcr.dmaStarted = true → (s'.channels k).chcr.dmaStarted = true → 0 < (s.channels k).transferLength →
      (s.fifo (dmaFifoQueue k)).bytes = packet ++ (s'.fifo (dmaFifoQueue k)).bytes → packet.length = 4 →
      s.memory.writeUword (s.channels k).madr (ofBytes 32 packet) = .ok s'.memory →
      (s'.channels k).madr = (s.channels k).madr + stride (s.channels k).chcr →
      (s'.channels k).transferLength = (s.channels k).transferLength - 1 → DestTurn k s s'
  /-- It takes a tag. -/
  | tag {packet : List Ubyte} : ButStart (s.channels k).chcr.w (s'.channels k).chcr.w →
      (s.channels k).chcr.dmaStarted = true → (s'.channels k).chcr.dmaStarted = true → (s.channels k).transferLength = 0 →
      (s.fifo (dmaFifoQueue k)).bytes = packet ++ (s'.fifo (dmaFifoQueue k)).bytes → packet.length = 16 →
      (s'.channels k).chcr.dmaTag = ⟨ofBytes 32 (packet.take 4), ofBytes 32 ((packet.drop 4).take 4)⟩ →
      (s'.channels k).madr = (s'.channels k).chcr.dmaTag.addr →
      (s'.channels k).transferLength = (s'.channels k).chcr.dmaTag.length → DestTurn k s s'

theorem channels_moved (s : IopDmac) (k : Fin 13) (f : IopFifo) (q : DmaFifoQueue) :
    ((s.setFifo f q).advance k).channels k = (s.channels k).advance := by
  rw [advance, setChannel_channels, Function.update_self, setFifo_channels]

theorem fifo_moved (s : IopDmac) (k : Fin 13) (f : IopFifo) (q : DmaFifoQueue) :
    ((s.setFifo f q).advance k).fifo f = q := by
  rw [advance, fifo_setChannel, fifo_setFifo_self]

theorem memory_moved (s : IopDmac) (k : Fin 13) (f : IopFifo) (q : DmaFifoQueue) :
    ((s.setFifo f q).advance k).memory = s.memory := by
  rw [advance, setChannel_memory, setFifo_memory]

/-- The word that is moved. -/
theorem destTurn_dataMoved (hfrom : (s.channels k).chcr.direction = .FROM)
    (hstarted : (s.channels k).chcr.dmaStarted = true) (hleft : 0 < (s.channels k).transferLength)
    (h : DataMoved s k s') : DestTurn k s s' := by
  cases h with
  | starved => exact .stay (.refl k s)
  | blocked => exact .stay (.refl k s)
  | received _ hread hwrite =>
    obtain ⟨hbytes, hlength⟩ := DmaFifoQueue.bytes_of_read hread
    refine .word ?_ hstarted ?_ hleft ?_ hlength ?_ ?_ ?_
    · rw [channels_moved]
      exact fun _ _ => rfl
    · rw [channels_moved]
      exact hstarted
    · rw [fifo_moved]
      exact hbytes
    · rw [memory_moved]
      exact hwrite
    · rw [channels_moved]
      exact madr_advance _
    · rw [channels_moved]
      rfl
  | sent hto =>
    rw [hfrom] at hto
    cases hto

/-- The tag that is read. -/
theorem destTurn_tagRead {r : Bool × IopDmac} (hfrom : (s.channels k).chcr.direction = .FROM)
    (hstarted : (s.channels k).chcr.dmaStarted = true) (hleft : (s.channels k).transferLength = 0)
    (h : TagRead s k r) : DestTurn k s (if r.1 then r.2.setTagAddr k else r.2) := by
  cases h with
  | waits => exact .stay (.refl k s)
  | source hto =>
    rw [hfrom] at hto
    cases hto
  | dest _ hread =>
    obtain ⟨hbytes, hlength⟩ := DmaFifoQueue.bytes_of_read hread
    refine .tag ?_ hstarted ?_ hleft ?_ hlength ?_ ?_ ?_ <;>
      simp only [if_true, setTagAddr, setTag, setChannel_channels, Function.update_self, setFifo_channels]
    · exact fun _ _ => rfl
    · exact hstarted
    · rw [hbytes, fifo_setChannel, fifo_setChannel, fifo_setFifo_self]

/-- A turn of a chain from the queue. -/
theorem destTurn_turn (hforced : DirForced k (s.channels k).chcr) (hchain : (s.channels k).chcr.logicalMode = .chain)
    (hfrom : (s.channels k).chcr.direction = .FROM) :
    Ensures (DestTurn k s) (s.turn k) := by
  refine ensures_turn s k (fun _ => .stay (.refl k s)) fun _ _ s' h => ?_
  cases h with
  | @startNormal useBlocks hmode =>
    rw [hchain] at hmode
    cases useBlocks <;> cases hmode
  | startChain _ hfresh =>
    refine .start ?_ hfresh ?_ ?_ ?_ (fifo_setChannel ..) <;>
      simp only [startTransfer, setChannel_channels, Function.update_self]
    exact fun _ _ => rfl
  | data hstarted hleft hdata => exact destTurn_dataMoved hfrom hstarted hleft hdata
  | ends => exact .stay (stays_finish hforced)
  | tag _ hstarted hleft htag => exact destTurn_tagRead hfrom hstarted hleft htag

/-! ### A source chain -/

/-- What a turn of a source chain does. -/
inductive SourceTurn (k : Fin 13) (s s' : IopDmac) : Prop where
  /-- It moves nothing. -/
  | stay : Stays k s s' → SourceTurn k s s'
  /-- It starts the transfer. -/
  | start : ButStart (s.channels k).chcr.w (s'.channels k).chcr.w → (s.channels k).chcr.dmaStarted = false →
      (s'.channels k).chcr.dmaStarted = true → (s'.channels k).transferLength = 0 → (s'.channels k).madr = (s.channels k).madr →
      s'.fifo (dmaFifoQueue k) = s.fifo (dmaFifoQueue k) → SourceTurn k s s'
  /-- It sends a word. -/
  | word {packet : Uword} : ButStart (s.channels k).chcr.w (s'.channels k).chcr.w →
      (s.channels k).chcr.dmaStarted = true → (s'.channels k).chcr.dmaStarted = true → 0 < (s.channels k).transferLength →
      s.memory.readUword (s.channels k).madr = .ok packet →
      (s'.fifo (dmaFifoQueue k)).bytes = (s.fifo (dmaFifoQueue k)).bytes ++ bytes 4 packet →
      (s'.channels k).madr = (s.channels k).madr + stride (s.channels k).chcr →
      (s'.channels k).transferLength = (s.channels k).transferLength - 1 → SourceTurn k s s'
  /-- It sends the tag behind one of its own. -/
  | tag {tadr uw0 uw1 uw2 uw3 : Uword} : ButStart (s.channels k).chcr.w (s'.channels k).chcr.w →
      (s.channels k).chcr.dmaStarted = true → (s'.channels k).chcr.dmaStarted = true → (s.channels k).transferLength = 0 →
      s.tadr k = .ok tadr → s.memory.readUword tadr = .ok uw0 → s.memory.readUword (tadr + 4) = .ok uw1 →
      s.memory.readUword (tadr + 8) = .ok uw2 → s.memory.readUword (tadr + 12) = .ok uw3 →
      (s'.fifo (dmaFifoQueue k)).bytes =
        (s.fifo (dmaFifoQueue k)).bytes ++ (bytes 4 uw2 ++ bytes 4 uw3 ++ List.replicate 8 0) →
      (s'.channels k).madr = (⟨uw0, uw1⟩ : IopDmatag).addr →
      (s'.channels k).transferLength = ((⟨uw0, uw1⟩ : IopDmatag).length + 3) &&& 0xFFFFC → SourceTurn k s s'

/-- The word that is moved. -/
theorem sourceTurn_dataMoved (hto : (s.channels k).chcr.direction = .TO)
    (hstarted : (s.channels k).chcr.dmaStarted = true) (hleft : 0 < (s.channels k).transferLength)
    (h : DataMoved s k s') : SourceTurn k s s' := by
  cases h with
  | starved => exact .stay (.refl k s)
  | blocked => exact .stay (.refl k s)
  | received hfrom =>
    rw [hto] at hfrom
    cases hfrom
  | sent _ hread hwrite =>
    refine .word ?_ hstarted ?_ hleft hread ?_ ?_ ?_
    · rw [channels_moved]
      exact fun _ _ => rfl
    · rw [channels_moved]
      exact hstarted
    · rw [fifo_moved]
      exact DmaFifoQueue.bytes_of_write hwrite
    · rw [channels_moved]
      exact madr_advance _
    · rw [channels_moved]
      rfl

/-- The tag that is read. -/
theorem sourceTurn_tagRead {r : Bool × IopDmac} (hto : (s.channels k).chcr.direction = .TO)
    (hstarted : (s.channels k).chcr.dmaStarted = true) (hleft : (s.channels k).transferLength = 0)
    (h : TagRead s k r) : SourceTurn k s (if r.1 then r.2.setTagAddr k else r.2) := by
  cases h with
  | waits => exact .stay (.refl k s)
  | source _ htadr h0 h1 h2 h3 hwrite =>
    refine .tag ?_ hstarted ?_ hleft htadr h0 h1 h2 h3 ?_ ?_ ?_ <;>
      simp only [if_true, setTagAddr, setTag, setChannel_channels, Function.update_self, setFifo_channels]
    · exact fun _ _ => rfl
    · exact hstarted
    · rw [fifo_setChannel, fifo_setChannel, fifo_setChannel, fifo_setFifo_self]
      exact DmaFifoQueue.bytes_of_write hwrite
  | dest hfrom =>
    rw [hto] at hfrom
    cases hfrom

/-- A turn of a chain to the queue. -/
theorem sourceTurn_turn (hforced : DirForced k (s.channels k).chcr) (hchain : (s.channels k).chcr.logicalMode = .chain)
    (hto : (s.channels k).chcr.direction = .TO) :
    Ensures (SourceTurn k s) (s.turn k) := by
  refine ensures_turn s k (fun _ => .stay (.refl k s)) fun _ _ s' h => ?_
  cases h with
  | @startNormal useBlocks hmode =>
    rw [hchain] at hmode
    cases useBlocks <;> cases hmode
  | startChain _ hfresh =>
    refine .start ?_ hfresh ?_ ?_ ?_ (fifo_setChannel ..) <;>
      simp only [startTransfer, setChannel_channels, Function.update_self]
    exact fun _ _ => rfl
  | data hstarted hleft hdata => exact sourceTurn_dataMoved hto hstarted hleft hdata
  | ends => exact .stay (stays_finish hforced)
  | tag _ hstarted hleft htag => exact sourceTurn_tagRead hto hstarted hleft htag

/-! ### Other channels -/

/-- No two channels have the same queue. -/
theorem dmaFifoQueue_ne_of_ne : ∀ {j k : Fin 13}, j ≠ k → dmaFifoQueue k ≠ dmaFifoQueue j := by decide

theorem fifo_dataMoved (hf : f ≠ dmaFifoQueue k) (h : DataMoved s k s') : s'.fifo f = s.fifo f := by
  have hothers (t : IopDmac) (ht : t.fifo f = s.fifo f) (q : DmaFifoQueue) :
      ((t.setFifo (dmaFifoQueue k) q).advance k).fifo f = s.fifo f := by
    rw [advance, fifo_setChannel, fifo_setFifo_of_ne hf, ht]
  have hmemory (memory : Memory) (stored read : List Ubyte) :
      IopDmac.fifo { s with memory, stored, read } f = s.fifo f := by cases f <;> rfl
  cases h with
  | starved => rfl
  | blocked => rfl
  | received => exact hothers _ (hmemory ..) _
  | sent => exact hothers _ (hmemory ..) _

theorem fifo_finish (s : IopDmac) (k : Fin 13) : (s.finish k).fifo f = s.fifo f := by
  unfold finish
  split_ifs
  · rfl
  · exact fifo_setStateSuspended s k

theorem fifo_tagRead {r : Bool × IopDmac} (hf : f ≠ dmaFifoQueue k) (h : TagRead s k r) : r.2.fifo f = s.fifo f := by
  cases h with
  | waits => rfl
  | source => rw [setTag, fifo_setChannel, fifo_setChannel, fifo_setFifo_of_ne hf]
  | dest => rw [setTag, fifo_setChannel, fifo_setFifo_of_ne hf]

/-- A turn of a channel leaves the queues of the others alone. -/
theorem fifo_turn (hf : f ≠ dmaFifoQueue k) : Ensures (fun s' => s'.fifo f = s.fifo f) (s.turn k) := by
  refine ensures_turn s k (fun _ => rfl) fun _ _ s' h => ?_
  cases h with
  | startNormal => exact fifo_setChannel ..
  | startChain => exact fifo_setChannel ..
  | data _ _ hdata => exact fifo_dataMoved hf hdata
  | ends => exact fifo_finish s k
  | tag _ _ _ htag =>
    split_ifs
    · rw [setTagAddr, fifo_setChannel]
      exact fifo_tagRead hf htag
    · exact fifo_tagRead hf htag

end IopDmac

end Orbum
