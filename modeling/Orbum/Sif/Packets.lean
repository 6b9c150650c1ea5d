import Orbum.Lib.Framing
import Orbum.Sif.Link

/-!
# Packets on the SIF

What the four channels with tags put on the queues and take off them, and the record of it: a block for every tag, with
the data that went with it.
-/

namespace Orbum

open LittleEndian Framing

/-! ### Words of a quadword -/

/-- The words of a quadword. -/
def Uqword.words (q : Uqword) : List Uword := [q.uw 0, q.uw 1, q.uw 2, q.uw 3]

theorem length_words (q : Uqword) : q.words.length = 4 := rfl

theorem bytes_uqword (q : Uqword) : bytes 16 q = q.words.flatMap (bytes 4) := bytes_mul 4 4 q

theorem words_ofWords (uw0 uw1 uw2 uw3 : Uword) : (Uqword.ofWords uw0 uw1 uw2 uw3).words = [uw0, uw1, uw2, uw3] := by
  have h0 : (Uqword.ofWords uw0 uw1 uw2 uw3).uw 0 = uw0 := by
    rw [Uqword.uw, Uqword.ofWords, BitVec.extractLsb'_append_eq_of_add_le (by decide),
      BitVec.extractLsb'_append_eq_of_add_le (by decide), BitVec.extractLsb'_append_eq_of_add_le (by decide)]
    exact BitVec.extractLsb'_eq_self
  have h1 : (Uqword.ofWords uw0 uw1 uw2 uw3).uw 1 = uw1 := by
    rw [Uqword.uw, Uqword.ofWords, BitVec.extractLsb'_append_eq_of_add_le (by decide),
      BitVec.extractLsb'_append_eq_of_add_le (by decide), BitVec.extractLsb'_append_eq_left]
  have h2 : (Uqword.ofWords uw0 uw1 uw2 uw3).uw 2 = uw2 := by
    rw [Uqword.uw, Uqword.ofWords, BitVec.extractLsb'_append_eq_of_add_le (by decide), BitVec.extractLsb'_append_eq_left]
  have h3 : (Uqword.ofWords uw0 uw1 uw2 uw3).uw 3 = uw3 := by
    rw [Uqword.uw, Uqword.ofWords, BitVec.extractLsb'_append_eq_left]
  rw [Uqword.words, h0, h1, h2, h3]

/-- A quadword read as bytes that were written as words. -/
theorem ofBytes_words (uw0 uw1 uw2 uw3 : Uword) :
    ofBytes 128 ([uw0, uw1, uw2, uw3].flatMap (bytes 4)) = Uqword.ofWords uw0 uw1 uw2 uw3 := by
  rw [← words_ofWords, ← bytes_uqword, ofBytes_bytes 16 _ (by decide)]

/-! ### The queue -/

/-- A tag on the queue: the half of a quadword that the tag of the source has for the destination, and zeros. -/
def tagPacket (tag0 tag1 : Uword) : List Ubyte := bytes 4 tag0 ++ bytes 4 tag1 ++ List.replicate 8 0

theorem length_tagPacket (tag0 tag1 : Uword) : (tagPacket tag0 tag1).length = 16 := by
  simp [tagPacket]

/-- Tags and words on the queue. -/
def enc {τ : Type} (packet : τ → List Ubyte) : Framing.Symbol τ Uword → List Ubyte
  | .tag t => packet t
  | .item w => bytes 4 w

/-- The tag on the queue. -/
def IopDmatag.packet (t : IopDmatag) : List Ubyte := tagPacket t.tag0 t.tag1

/-- The tag on the queue. -/
def EeDmatag.packet (t : EeDmatag) : List Ubyte := tagPacket t.tag0 t.tag1

/-- What the EE writes of a tag. -/
theorem bytes_tag (tag0 tag1 : Uword) : bytes 16 (Uqword.ofWords tag0 tag1 0 0) = tagPacket tag0 tag1 := by
  rw [bytes_uqword, words_ofWords]
  simp only [List.flatMap_cons, List.flatMap_nil, List.append_nil, tagPacket, List.append_assoc]
  rfl

/-- The IOP reads a tag back. -/
theorem IopDmatag.ofBytes_packet (t : IopDmatag) :
    (⟨ofBytes 32 (t.packet.take 4), ofBytes 32 ((t.packet.drop 4).take 4)⟩ : IopDmatag) = t := by
  have hfirst : t.packet.take 4 = bytes 4 t.tag0 := by
    rw [packet, tagPacket, List.append_assoc]
    exact List.take_left' (length_bytes 4 _)
  have hsecond : (t.packet.drop 4).take 4 = bytes 4 t.tag1 := by
    rw [packet, tagPacket, List.append_assoc, List.drop_left' (length_bytes 4 _)]
    exact List.take_left' (length_bytes 4 _)
  rw [hfirst, hsecond, ofBytes_bytes 4 _ (by decide), ofBytes_bytes 4 _ (by decide)]

/-- The EE reads a tag back. -/
theorem EeDmatag.ofBytes_packet (t : EeDmatag) : EeDmatag.ofUqword (ofBytes 128 t.packet) = t := by
  have hwords := words_ofWords t.tag0 t.tag1 0 0
  rw [packet, ← bytes_tag, ofBytes_bytes 16 _ (by decide), ofUqword]
  rw [Uqword.words, List.cons.injEq, List.cons.injEq] at hwords
  rw [hwords.1, hwords.2.1]

/-! ### The channels -/

namespace Sif

/-- A channel of the EE that works through a chain. -/
structure EeChain (i : Fin 10) (d : EeDmacChcr.Direction) (c : EeDmacChannel) : Prop where
  /-- Its number. -/
  channelId : c.channelId = i
  /-- Chain mode. -/
  mod : EeDmacChcr.mod.extractFrom c.chcr.w = 1
  /-- The direction. -/
  direction : c.chcr.direction = d

/-- A channel of the IOP that works through a chain. -/
structure IopChain (d : IopDmacChcr.Direction) (c : IopDmacChcr) : Prop where
  /-- Chain mode. -/
  logicalMode : c.logicalMode = .chain
  /-- The direction. -/
  direction : c.direction = d

/-- The words that a channel of the IOP has to move yet of the last tag. -/
def toCome (c : IopDmacChannel) : ℕ := if c.chcr.dmaStarted then c.transferLength else 0

section Chains

variable {i : Fin 10} {d : EeDmacChcr.Direction} {t t' : EeDmacTurn} {k : Fin 13} {d' : IopDmacChcr.Direction}
  {c c' : IopDmacChcr}

theorem EeChain.keeps (h : EeChain i d t.toEeDmacChannel) (hkeeps : EeDmacTurn.KeepsMode t t') :
    EeChain i d t'.toEeDmacChannel where
  channelId := hkeeps.channelId.trans h.channelId
  mod := (hkeeps.control _ (by decide) (by decide) (by decide)).trans h.mod
  direction := hkeeps.direction.trans h.direction

theorem EeChain.dirForced (h : EeChain i d t.toEeDmacChannel) (hd : i = 5 ∧ d = .FROM ∨ i = 6 ∧ d = .TO) :
    t.DirForced := by
  obtain ⟨hid, -, hdir⟩ := h
  rcases hd with ⟨rfl, rfl⟩ | ⟨rfl, rfl⟩
  · exact ⟨fun _ => hdir, fun h6 => absurd (hid.symm.trans h6) (by decide)⟩
  · exact ⟨fun h5 => absurd (hid.symm.trans h5) (by decide), fun _ => hdir⟩

theorem EeChain.channelId_ne (h : EeChain i d t.toEeDmacChannel) {j : Fin 10} (hj : i ≠ j) : t.channelId ≠ j := by
  rw [show t.channelId = i from h.channelId]
  exact hj

theorem IopChain.of_butStart (h : IopChain d' c) (hbut : IopDmac.ButStart c.w c'.w) : IopChain d' c' := by
  refine ⟨?_, (IopDmac.direction_of_butStart hbut).trans h.direction⟩
  rw [IopDmacChcr.logicalMode, hbut _ (by decide)]
  exact h.logicalMode

theorem IopChain.dirForced (h : IopChain d' c) (hd : k = 9 ∧ d' = .TO ∨ k = 10 ∧ d' = .FROM) : IopDmac.DirForced k c := by
  obtain ⟨-, hdir⟩ := h
  rcases hd with ⟨rfl, rfl⟩ | ⟨rfl, rfl⟩
  · exact ⟨fun _ => hdir, fun h10 => absurd h10 (by decide)⟩
  · exact ⟨fun h9 => absurd h9 (by decide), fun _ => hdir⟩

theorem stride_of_butStart (hbut : IopDmac.ButStart c.w c'.w) : IopDmac.stride c' = IopDmac.stride c := by
  rw [IopDmac.stride, IopDmac.stride, hbut _ (by decide)]

end Chains

/-! ### The record -/

/-- The address of the `n`-th word of a block of the IOP. -/
def wordAddress (stride : Uword) (t : IopDmatag) (n : ℕ) : Uptr := t.addr + stride * BitVec.ofNat 32 n

theorem wordAddress_zero (stride : Uword) (t : IopDmatag) : wordAddress stride t 0 = t.addr :=
  (congrArg _ BitVec.mul_zero).trans (BitVec.add_zero _)

theorem wordAddress_succ (stride : Uword) (t : IopDmatag) (n : ℕ) :
    wordAddress stride t (n + 1) = wordAddress stride t n + stride := by
  rw [wordAddress, wordAddress, BitVec.ofNat_add, BitVec.mul_add, BitVec.add_assoc]
  exact congrArg _ (congrArg _ (BitVec.mul_one _))

/-- The blocks that one side has sent, and those that the other has received. -/
structure Transfer (τ α τ' α' : Type) where
  /-- The blocks sent. -/
  sent : List (Block τ α)
  /-- The blocks received. -/
  received : List (Block τ' α')

/-- The tags sent and received, and what has been moved of their data. -/
def Transfer.size {τ α τ' α' : Type} (log : Transfer τ α τ' α') : ℕ :=
  (symbols log.sent).length + (symbols log.received).length

/-- The words of a block, without the addresses they were recorded with. -/
def words {τ : Type} (b : Block τ (Uptr × Uword)) : Block τ Uword := b.expand id fun x => [x.2]

theorem words_addItems {τ : Type} (bs : List (Block τ (Uptr × Uword))) (a : Uptr) (w : Uword) :
    (addItems bs [(a, w)]).map words = addItems (bs.map words) [w] := expand_addItems ..

theorem left_words {τ : Type} {len : τ → ℕ} {bs : List (Block τ (Uptr × Uword))} {n : ℕ}
    (h : left len (symbols bs) = some n) : left len (symbols (bs.map words)) = some n := by
  rw [← Nat.mul_one n]
  exact left_expand (fun _ => rfl) (fun b _ => (Nat.mul_one _).symm) h

/-- Something went on a queue or off it. -/
def Moved (f : IopFifo) (s s' : Sif) : Prop := (s'.iop.fifo f).bytes.length ≠ (s.iop.fifo f).bytes.length

instance (f : IopFifo) (s s' : Sif) : Decidable (Moved f s s') := inferInstanceAs (Decidable (_ ≠ _))

variable {τ α τ' α' : Type} {f : IopFifo} {s s' : Sif} {packet : List Ubyte}

theorem not_moved (h : s'.iop.fifo f = s.iop.fifo f) : ¬Moved f s s' := not_not_intro (by rw [h])

theorem moved_of_sent (h : (s'.iop.fifo f).bytes = (s.iop.fifo f).bytes ++ packet) (hlen : 0 < packet.length) :
    Moved f s s' := by
  rw [Moved, h, List.length_append]
  omega

theorem moved_of_taken (h : (s.iop.fifo f).bytes = packet ++ (s'.iop.fifo f).bytes) (hlen : 0 < packet.length) :
    Moved f s s' := by
  rw [Moved, h, List.length_append]
  omega

end Sif

end Orbum
