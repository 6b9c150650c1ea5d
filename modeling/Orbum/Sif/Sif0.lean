import Orbum.Iop.Dmac.Delivery
import Orbum.Sif.Bounds
import Orbum.Sif.Progress

/-!
# SIF0

Channel 9 of the IOP works through a source chain and sends, before the data of a tag, the tag of the EE that is behind
it. Channel 5 of the EE stores the data where these tags say, in memory or in the scratchpad. The IOP moves words, and
rounds the length of its tags up to quadwords; the EE moves quadwords.
-/

namespace Orbum.Sif.Sif0

open LittleEndian Framing

/-! ### The record -/

/-- The words the IOP has read, each with its address, behind the tags of both sides; and the quadwords the EE has
stored, each with its address and whether that is in the scratchpad. -/
abbrev Log := Transfer (IopDmatag × EeDmatag) (Uptr × Uword) EeDmatag ((Uptr × Bool) × Uqword)

/-- The tags that are next: that of the IOP, and behind it that of the EE. -/
def nextTags (s : IopDmac) : Except HostError (IopDmatag × EeDmatag) := do
  let tadr ← s.tadr 9
  let uw0 ← s.memory.readUword tadr
  let uw1 ← s.memory.readUword (tadr + 4)
  let uw2 ← s.memory.readUword (tadr + 8)
  let uw3 ← s.memory.readUword (tadr + 12)
  return (⟨uw0, uw1⟩, ⟨uw2, uw3⟩)

/-- What a turn of the IOP has sent. -/
def noteSent (s : IopDmac) (sent : List (Block (IopDmatag × EeDmatag) (Uptr × Uword))) :
    List (Block (IopDmatag × EeDmatag) (Uptr × Uword)) :=
  if 0 < (s.channels 9).transferLength then
    addItems sent ((s.memory.readUword (s.channels 9).madr).toOption.toList.map ((s.channels 9).madr, ·))
  else sent ++ (nextTags s).toOption.toList.map fun t => ⟨t, []⟩

/-- Where a quadword is stored for a value of MADR. -/
def location (madr : Uword) : Uptr × Bool :=
  (EeDmacAddr.addr.extractFrom madr &&& 0x1FFFFFF0, 0 < EeDmacAddr.spr.extractFrom madr)

/-- What a turn of the EE has received, as it is in memory after the turn. -/
def noteReceived (d d' : EeDmac) (received : List (Block EeDmatag ((Uptr × Bool) × Uqword))) :
    List (Block EeDmatag ((Uptr × Bool) × Uqword)) :=
  if 0 < (d.channels 5).qwc then
    let l := location (d.channels 5).madr
    addItems received ((readQwordMemory d'.memory l.1 l.2).toOption.toList.map (l, ·))
  else received ++ [⟨(d'.channels 5).chcr.dmaTag, []⟩]

/-- The record of SIF0. -/
def notes : Notes Log where
  eeChannel := 5
  iopChannel := 9
  ee s s' log := if Moved .sif0 s s' then { log with received := noteReceived s.ee s'.ee log.received } else log
  iop s s' log := if Moved .sif0 s s' then { log with sent := noteSent s.iop log.sent } else log

/-- The EE is to receive the tag behind the tag, and the words. -/
def toReceive (b : Block (IopDmatag × EeDmatag) (Uptr × Uword)) : Block EeDmatag Uword :=
  b.expand Prod.snd fun x => [x.2]

/-- The words of the quadwords received. -/
def wordsOf (b : Block EeDmatag ((Uptr × Bool) × Uqword)) : Block EeDmatag Uword := b.expand id fun x => x.2.words

/-- The value of MADR for the `n`-th quadword of a block. -/
def qwordMadr (t : EeDmatag) (n : ℕ) : Uword := t.tag1 + 0x10 * BitVec.ofNat 32 n

/-- The words of the data of a tag, as the IOP rounds them up. -/
def lengthToSend (t : IopDmatag × EeDmatag) : ℕ := (t.1.length + 3) &&& 0xFFFFC

/-- The words of the data of a tag. -/
def lengthToReceive (t : EeDmatag) : ℕ := t.qwc.toNat * 4

/-- QWC is the length for the IOP, rounded up to quadwords. -/
def Announced (sent : List (Block (IopDmatag × EeDmatag) (Uptr × Uword))) : Prop :=
  ∀ b ∈ sent, b.tag.1.length ≤ 0xFFFFC ∧ 4 * b.tag.2.qwc.toNat = (b.tag.1.length + 3) / 4 * 4

/-- In each of `n` rounds a tag, a word or a quadword has been moved, or a transfer started; or else the chain of the IOP
has ended and all of it has been received, or the EE has received the tag that ends its transfer, and the data of it. -/
def Advances (n : ℕ) (w : Watched Log) : Prop :=
  n ≤ w.log.size + 2 ∨ (w.iop.ChainEnded 9 ∧ w.log.received.map wordsOf = w.log.sent.map toReceive) ∨
    (w.ee.turn 5).ChainEnded

/-! ### The framing -/

variable {sent : List (Block (IopDmatag × EeDmatag) (Uptr × Uword))} {received : List (Block EeDmatag Uword)}
  {queue packet : List Ubyte} {m n : ℕ}

/-- The length is rounded up as long as it fits. -/
theorem round_up {n : ℕ} (h : n ≤ 0xFFFFC) : (n + 3) &&& 0xFFFFC = (n + 3) / 4 * 4 := by
  have hmask (mask : ℕ) : (n + 3) &&& (mask <<< 2) = ((n + 3) >>> 2 &&& mask) <<< 2 := by
    refine Nat.eq_of_testBit_eq fun i => ?_
    by_cases hi : 2 ≤ i
    · simp [Nat.testBit_shiftLeft, hi, Nat.add_sub_cancel' hi]
    · simp [Nat.testBit_shiftLeft, hi]
  change (n + 3) &&& ((2 ^ 18 - 1) <<< 2) = _
  rw [hmask, Nat.and_two_pow_sub_one_eq_mod, Nat.shiftRight_eq_div_pow, Nat.shiftLeft_eq, Nat.mod_eq_of_lt (by omega)]

/-- Both sides count the same words. -/
theorem Announced.lengthToSend_eq (h : Announced sent) {b : Block (IopDmatag × EeDmatag) (Uptr × Uword)} (hb : b ∈ sent) :
    lengthToSend b.tag = lengthToReceive b.tag.2 := by
  obtain ⟨hle, hqwc⟩ := h b hb
  rw [lengthToSend, lengthToReceive, round_up hle, ← hqwc, Nat.mul_comm]

theorem Announced.of_addItems {as : List (Uptr × Uword)} (h : Announced (addItems sent as)) : Announced sent :=
  forall_tag_of_addItems
    (P := fun t : IopDmatag × EeDmatag => t.1.length ≤ 0xFFFFC ∧ 4 * t.2.qwc.toNat = (t.1.length + 3) / 4 * 4) h

/-- What the EE has to expect yet. -/
theorem left_toReceive (h : left lengthToSend (symbols sent) = some n) (hann : Announced sent) :
    left lengthToReceive (symbols (sent.map toReceive)) = some n := by
  rw [← Nat.mul_one n]
  refine left_expand (fun _ => rfl) (fun b hb => ?_) h
  rw [Nat.mul_one, hann.lengthToSend_eq hb]

/-- What is on the queue, if the tags are as they should be. -/
def Framed (sent : List (Block (IopDmatag × EeDmatag) (Uptr × Uword))) (received : List (Block EeDmatag Uword))
    (queue : List Ubyte) : Prop :=
  Announced sent → InFlight (enc EeDmatag.packet) (symbols (sent.map toReceive)) (symbols received) queue []

theorem framed_nil : Framed [] [] [] := fun _ => ⟨[], rfl, rfl⟩

/-- The IOP sends a tag. -/
theorem Framed.sendTag (h : Framed sent received queue) (tags : IopDmatag × EeDmatag) :
    Framed (sent ++ [⟨tags, []⟩]) received (queue ++ tagPacket tags.2.tag0 tags.2.tag1) := by
  intro hann
  have hsend := (h fun b hb => hann b (List.mem_append_left _ hb)).send [.tag tags.2]
  rw [List.flatMap_singleton] at hsend
  rw [List.map_append, List.map_singleton, symbols_concat]
  exact hsend

/-- The IOP sends a word. -/
theorem Framed.sendWord (h : Framed sent received queue) (hne : sent ≠ []) (a : Uptr) (w : Uword) :
    Framed (addItems sent [(a, w)]) received (queue ++ bytes 4 w) := by
  intro hann
  have hne' : sent.map toReceive ≠ [] := fun h => hne (List.map_eq_nil_iff.mp h)
  have hsend := (h hann.of_addItems).send [.item w]
  rw [List.flatMap_singleton] at hsend
  have hitems : (addItems sent [(a, w)]).map toReceive = addItems (sent.map toReceive) [w] := expand_addItems ..
  rw [hitems, symbols_addItems hne']
  exact hsend

/-- The EE takes a tag. -/
theorem Framed.takeTag (h : Framed sent received (packet ++ queue)) (hsent : left lengthToSend (symbols sent) = some n)
    (hreceived : left lengthToReceive (symbols received) = some 0) (hlen : packet.length = 16) :
    Framed sent (received ++ [⟨EeDmatag.ofUqword (ofBytes 128 packet), []⟩]) queue := by
  intro hann
  obtain ⟨t, rfl, htaken⟩ := (h hann).takeTag (left_toReceive hsent hann) hreceived
    (fun t => hlen.trans (length_tagPacket _ _).symm) (by rw [hlen]; decide)
  rw [show enc EeDmatag.packet (.tag t) = t.packet from rfl, EeDmatag.ofBytes_packet, symbols_concat]
  exact htaken

/-- The EE takes a quadword. -/
theorem Framed.takeQword (h : Framed sent received (packet ++ queue)) (hsent : left lengthToSend (symbols sent) = some n)
    (hreceived : left lengthToReceive (symbols received) = some m) (hm : 4 ≤ m) (hlen : packet.length = 16) :
    Framed sent (addItems received (Uqword.words (ofBytes 128 packet))) queue := by
  intro hann
  obtain ⟨ws, hws, rfl, htaken⟩ := (h hann).takeItems (w := 4) (by decide) (fun w => length_bytes 4 w)
    (left_toReceive hsent hann) (fun _ => rfl) hreceived hm hlen
  obtain ⟨uw0, uw1, uw2, uw3, rfl⟩ := List.length_eq_four.mp hws
  have hwords : Uqword.words (ofBytes 128 ([uw0, uw1, uw2, uw3].flatMap (enc EeDmatag.packet ∘ .item))) =
      [uw0, uw1, uw2, uw3] := (congrArg _ (ofBytes_words uw0 uw1 uw2 uw3)).trans (words_ofWords _ _ _ _)
  rw [hwords, symbols_addItems (ne_nil_of_left hreceived (by omega))]
  exact htaken

/-! ### The channels -/

/-- Both channels are set up, and nothing has been moved. CE is not asked for: without it the tick of the IOP throws. -/
structure Starts (s : Sif) : Prop where
  /-- The queue. -/
  linked : Linked 5 9 s
  /-- There is nothing on it. -/
  empty : (s.iop.fifo .sif0).bytes = []
  /-- The IOP. -/
  sends : IopChain .TO (s.iop.channels 9).chcr
  /-- It has no data without a tag. -/
  transferLength : (s.iop.channels 9).chcr.dmaStarted = true → (s.iop.channels 9).transferLength = 0
  /-- The EE. -/
  receives : EeChain 5 .FROM (s.ee.channels 5)
  /-- It has no data without a tag. -/
  qwc : (s.ee.channels 5).qwc = 0

variable {s s' : Sif} {log : Log} {c : IopDmacChcr} {t : EeDmacTurn}

/-- The quadwords of the data of a tag. -/
def quadwords (t : EeDmatag) : ℕ := t.qwc.toNat

/-- The invariant of a run, with CHCR of the IOP as it was at the start. -/
structure Inv (c : IopDmacChcr) (s : Sif) (log : Log) : Prop where
  /-- The queue. -/
  linked : Linked 5 9 s
  /-- The IOP. -/
  control : IopDmac.ButStart c.w (s.iop.channels 9).chcr.w
  /-- The EE. -/
  receives : EeChain 5 .FROM (s.ee.channels 5)
  /-- What the IOP has sent. -/
  sent : left lengthToSend (symbols log.sent) = some (toCome (s.iop.channels 9))
  /-- What the EE has received. -/
  received : left quadwords (symbols log.received) = some (s.ee.channels 5).qwc.toNat
  /-- Where the words were, and MADR of the IOP. -/
  read : Placed (fun t => wordAddress (IopDmac.stride c) t.1) id log.sent (s.iop.channels 9).madr
  /-- Where the quadwords are, and MADR of the EE. -/
  stored : Placed qwordMadr location log.received (s.ee.channels 5).madr
  /-- What is on the queue. -/
  framed : Framed log.sent (log.received.map wordsOf) (s.iop.fifo .sif0).bytes

theorem Starts.inv (h : Starts s) : Inv (s.iop.channels 9).chcr s ⟨[], []⟩ where
  linked := h.linked
  control _ _ := rfl
  receives := h.receives
  sent := by
    rw [toCome]
    split_ifs with hstarted
    · rw [h.transferLength hstarted]
      rfl
    · rfl
  received := by
    rw [h.qwc]
    rfl
  read := placed_nil _
  stored := placed_nil _
  framed := by
    rw [h.empty]
    exact framed_nil

theorem qwordMadr_zero (t : EeDmatag) : qwordMadr t 0 = t.tag1 :=
  (congrArg _ BitVec.mul_zero).trans (BitVec.add_zero _)

theorem qwordMadr_succ (t : EeDmatag) (n : ℕ) : qwordMadr t (n + 1) = qwordMadr t n + 0x10 := by
  rw [qwordMadr, qwordMadr, BitVec.ofNat_add, BitVec.mul_add, BitVec.add_assoc]
  exact congrArg _ (congrArg _ (BitVec.mul_one _))

/-- The words of the quadwords received are counted by fours. -/
theorem left_wordsOf {received : List (Block EeDmatag ((Uptr × Bool) × Uqword))} (h : left quadwords (symbols received) = some n) :
    left lengthToReceive (symbols (received.map wordsOf)) = some (n * 4) :=
  left_expand (fun _ => rfl) (fun _ _ => rfl) h

/-! ### Turns -/

theorem notes_iop (s s' : Sif) (log : Log) : notes.iop s s' log =
    if Moved .sif0 s s' then { log with sent := noteSent s.iop log.sent } else log := rfl

/-- After a turn of the IOP, what it has sent and what is on the queue matter. -/
theorem Inv.send (h : Inv c s log) {sent : List (Block (IopDmatag × EeDmatag) (Uptr × Uword))}
    (hchannel : s'.ee.channels 5 = { s.ee.channels 5 with dmaFifoQueue := some (s'.iop.fifo .sif0) })
    (hcontrol : IopDmac.ButStart (s.iop.channels 9).chcr.w (s'.iop.channels 9).chcr.w)
    (hsent : left lengthToSend (symbols sent) = some (toCome (s'.iop.channels 9)))
    (hread : Placed (fun t => wordAddress (IopDmac.stride c) t.1) id sent (s'.iop.channels 9).madr)
    (hframed : Framed sent (log.received.map wordsOf) (s'.iop.fifo .sif0).bytes) : Inv c s' { log with sent } where
  linked := ⟨rfl, by rw [hchannel]; rfl⟩
  control f hf := (hcontrol f hf).trans (h.control f hf)
  receives := by
    rw [hchannel]
    exact ⟨h.receives.channelId, h.receives.mod, h.receives.direction⟩
  sent := hsent
  received := by
    rw [hchannel]
    exact h.received
  read := hread
  stored := by
    rw [hchannel]
    exact h.stored
  framed := hframed

theorem Inv.iopTurn (h : Inv c s log) (hc : IopChain .TO c) (hturn : s.iopTurn 9 = .ok s') :
    Inv c s' (notes.iop s s' log) ∧ (notes.iop s s' log).size = log.size + if Moved .sif0 s s' then 1 else 0 := by
  obtain ⟨ht, hchannel⟩ := iopTurn_ok hturn h.linked
  have hsends := hc.of_butStart h.control
  have hmoves := IopDmac.sourceTurn_turn (hsends.dirForced (by decide)) hsends.logicalMode hsends.direction _ ht
  rw [notes_iop]
  cases hmoves with
  | stay hstays =>
    have hfifo : s'.iop.fifo .sif0 = s.iop.fifo .sif0 := hstays.queue
    rw [if_neg (not_moved hfifo), if_neg (not_moved hfifo)]
    refine ⟨h.send hchannel hstays.control ?_ ?_ ?_, rfl⟩
    · rw [toCome, hstays.dmaStarted, hstays.transferLength]
      exact h.sent
    · rw [hstays.madr]
      exact h.read
    · rw [hfifo]
      exact h.framed
  | start hcontrol hnot hstarted hlength hmadr hqueue =>
    have hfifo : s'.iop.fifo .sif0 = s.iop.fifo .sif0 := hqueue
    rw [if_neg (not_moved hfifo), if_neg (not_moved hfifo)]
    refine ⟨h.send hchannel hcontrol ?_ ?_ ?_, rfl⟩
    · rw [toCome, if_pos hstarted, hlength, h.sent, toCome, hnot]
      rfl
    · rw [hmadr]
      exact h.read
    · rw [hfifo]
      exact h.framed
  | @word packet hcontrol hstarted hstarted' hleft hread hbytes hmadr hlength =>
    have hbytes : (s'.iop.fifo .sif0).bytes = (s.iop.fifo .sif0).bytes ++ bytes 4 packet := hbytes
    have htocome : left lengthToSend (symbols log.sent) = some (s.iop.channels 9).transferLength := by
      rw [h.sent, toCome, if_pos hstarted]
    have hne := ne_nil_of_left htocome hleft
    have hnote : noteSent s.iop log.sent = addItems log.sent [((s.iop.channels 9).madr, packet)] := by
      rw [noteSent, if_pos hleft, hread]
      rfl
    have hmoved : Moved .sif0 s s' := moved_of_sent hbytes (by rw [length_bytes]; decide)
    have hsize : (symbols (addItems log.sent [((s.iop.channels 9).madr, packet)])).length = (symbols log.sent).length + 1 :=
      length_symbols_addItem hne _
    rw [if_pos hmoved, if_pos hmoved, hnote]
    refine ⟨h.send hchannel hcontrol ?_ ?_ ?_, by rw [Transfer.size, Transfer.size, hsize, Nat.add_right_comm]⟩
    · refine left_addItems ?_
      rw [htocome, toCome, if_pos hstarted', hlength, List.length_singleton]
      congr 1
      omega
    · refine h.read.addItem hne (fun t n hn => ?_) _
      rw [hmadr, stride_of_butStart h.control, hn, wordAddress_succ]
    · rw [hbytes]
      exact h.framed.sendWord hne _ _
  | @tag tadr uw0 uw1 uw2 uw3 hcontrol hstarted hstarted' hleft htadr h0 h1 h2 h3 hbytes hmadr hlength =>
    have hbytes : (s'.iop.fifo .sif0).bytes = (s.iop.fifo .sif0).bytes ++ tagPacket uw2 uw3 := hbytes
    have htocome : left lengthToSend (symbols log.sent) = some 0 := by
      rw [h.sent, toCome, if_pos hstarted, hleft]
    have hnote : noteSent s.iop log.sent = log.sent ++ [⟨(⟨uw0, uw1⟩, ⟨uw2, uw3⟩), []⟩] := by
      have htags : nextTags s.iop = .ok (⟨uw0, uw1⟩, ⟨uw2, uw3⟩) := by
        rw [nextTags, htadr, ok_bind, h0, ok_bind, h1, ok_bind, h2, ok_bind, h3]
        rfl
      rw [noteSent, if_neg (by omega), htags]
      rfl
    have hmoved : Moved .sif0 s s' := moved_of_sent hbytes (by rw [length_tagPacket]; decide)
    rw [if_pos hmoved, if_pos hmoved, hnote]
    refine ⟨h.send hchannel hcontrol ?_ ?_ ?_,
      by rw [Transfer.size, Transfer.size, length_symbols_concat, Nat.add_right_comm]⟩
    · rw [left_concat_block, toCome, if_pos hstarted', hlength]
      exact ⟨htocome, Nat.zero_add _⟩
    · exact h.read.concat (hmadr.trans (wordAddress_zero _ _).symm)
    · rw [hbytes]
      exact h.framed.sendTag _

theorem notes_ee (s s' : Sif) (log : Log) : notes.ee s s' log =
    if Moved .sif0 s s' then { log with received := noteReceived s.ee s'.ee log.received } else log := rfl

/-- After a turn of the EE, what it has received and what is on the queue matter. -/
theorem Inv.receive (h : Inv c s log) {received : List (Block EeDmatag ((Uptr × Bool) × Uqword))} {queue : DmaFifoQueue}
    (hchannel : s'.ee.channels 5 = t.toEeDmacChannel) (hiop : s'.iop.channels = s.iop.channels)
    (hfifo : s'.iop.fifo .sif0 = queue) (hkeeps : EeDmacTurn.KeepsMode (s.ee.turn 5) t)
    (hqueue : t.dmaFifoQueue = some queue) (hreceived : left quadwords (symbols received) = some t.qwc.toNat)
    (hstored : Placed qwordMadr location received t.madr)
    (hframed : Framed log.sent (received.map wordsOf) queue.bytes) : Inv c s' { log with received } where
  linked := by
    refine ⟨rfl, ?_⟩
    rw [hchannel]
    exact hqueue.trans (congrArg some hfifo.symm)
  control := by
    rw [hiop]
    exact h.control
  receives := by
    rw [hchannel]
    exact EeChain.keeps h.receives hkeeps
  sent := by
    rw [hiop]
    exact h.sent
  received := by
    rw [hchannel]
    exact hreceived
  read := by
    rw [hiop]
    exact h.read
  stored := by
    rw [hchannel]
    exact hstored
  framed := by
    rw [hfifo]
    exact hframed

theorem Inv.eeTurn (h : Inv c s log) (hturn : s.eeTurn 5 = .ok s') : Inv c s' (notes.ee s s' log) ∧
    (notes.ee s s' log).size = log.size + if Moved .sif0 s s' then 1 else 0 := by
  obtain ⟨t, ht, hchannel, hmemory, hiop, hqueue⟩ := eeTurn_ok hturn h.linked
  have hchain : EeChain 5 .FROM (s.ee.turn 5).toEeDmacChannel := h.receives
  have hmoves := EeDmacTurn.destTurn_channelTurn (hchain.dirForced (by decide)) (hchain.channelId_ne (by decide))
    (hchain.channelId_ne (by decide)) hchain.mod hchain.direction t ht
  have hsame {queue : DmaFifoQueue} (hq : (s.ee.turn 5).dmaFifoQueue = some queue) : s.iop.fifo .sif0 = queue :=
    Option.some.inj (h.linked.queue.symm.trans hq)
  rw [notes_ee]
  cases hmoves with
  | stay hstays =>
    have hq : t.dmaFifoQueue = some (s.iop.fifo .sif0) := hstays.queue.trans h.linked.queue
    have hmoved : ¬Moved .sif0 s s' := not_moved (hqueue _ hq)
    rw [if_neg hmoved, if_neg hmoved]
    refine ⟨h.receive hchannel hiop (hqueue _ hq) hstays.toKeepsMode hq ?_ ?_ h.framed, rfl⟩
    · rw [hstays.qwc]
      exact h.received
    · rw [hstays.madr]
      exact h.stored
  | @data queue queue' packet hkeeps hq hqwc hq' hbytes hlen hwrite hmadr hqwc' =>
    obtain rfl := hsame hq
    have hfifo : s'.iop.fifo .sif0 = queue' := hqueue _ hq'
    have hleft : left quadwords (symbols log.received) = some (s.ee.turn 5).qwc.toNat := h.received
    have hpos : 0 < (s.ee.turn 5).qwc.toNat := by bv_omega
    have hmoved : Moved .sif0 s s' := moved_of_taken (hfifo ▸ hbytes) (by rw [hlen]; decide)
    have hnote : noteReceived s.ee s'.ee log.received =
        addItems log.received [(location (s.ee.channels 5).madr, ofBytes 128 packet)] := by
      have hread : readQwordMemory s'.ee.memory (location (s.ee.channels 5).madr).1 (location (s.ee.channels 5).madr).2 =
          .ok (ofBytes 128 packet) := by
        rw [hmemory]
        exact readQwordMemory_of_write hwrite
      have hleft : 0 < (s.ee.channels 5).qwc := hqwc
      rw [noteReceived, if_pos hleft]
      dsimp only
      rw [hread]
      rfl
    have hsize : (symbols (addItems log.received [(location (s.ee.channels 5).madr, ofBytes 128 packet)])).length =
        (symbols log.received).length + 1 := length_symbols_addItem (ne_nil_of_left hleft hpos) _
    rw [if_pos hmoved, if_pos hmoved, hnote]
    refine ⟨h.receive hchannel hiop hfifo hkeeps hq' ?_ ?_ ?_, by rw [Transfer.size, Transfer.size, hsize, Nat.add_assoc]⟩
    · refine left_addItems ?_
      rw [hleft, hqwc', List.length_singleton]
      congr 1
      bv_omega
    · refine h.stored.addItem (ne_nil_of_left hleft hpos) (fun t n hn => ?_) _
      rw [hmadr, qwordMadr_succ, ← hn]
      rfl
    · have hframed := h.framed
      rw [hbytes] at hframed
      have hitems : (addItems log.received [(location (s.ee.channels 5).madr, ofBytes 128 packet)]).map wordsOf =
          addItems (log.received.map wordsOf) (Uqword.words (ofBytes 128 packet)) := expand_addItems ..
      rw [hitems]
      exact hframed.takeQword h.sent (left_wordsOf hleft) (by omega) hlen
  | @tag queue queue' packet hkeeps hq hqwc hq' hbytes hlen htag hmadr hqwc' =>
    obtain rfl := hsame hq
    have hfifo : s'.iop.fifo .sif0 = queue' := hqueue _ hq'
    have hleft : left quadwords (symbols log.received) = some 0 := by
      refine h.received.trans (congrArg some ?_)
      exact congrArg BitVec.toNat hqwc
    have hmoved : Moved .sif0 s s' := moved_of_taken (hfifo ▸ hbytes) (by rw [hlen]; decide)
    have hnote : noteReceived s.ee s'.ee log.received = log.received ++ [⟨t.chcr.dmaTag, []⟩] := by
      have hnone : ¬0 < (s.ee.channels 5).qwc := by
        rw [show (s.ee.channels 5).qwc = 0 from hqwc]
        decide
      rw [noteReceived, if_neg hnone, hchannel]
    rw [if_pos hmoved, if_pos hmoved, hnote]
    refine ⟨h.receive hchannel hiop hfifo hkeeps hq' ?_ ?_ ?_,
      by rw [Transfer.size, Transfer.size, length_symbols_concat, Nat.add_assoc]⟩
    · rw [left_concat_block, hqwc']
      exact ⟨hleft, Nat.zero_add _⟩
    · exact h.stored.concat (hmadr.trans (qwordMadr_zero _).symm)
    · have hframed := h.framed
      rw [hbytes] at hframed
      rw [List.map_append, List.map_singleton, htag]
      exact hframed.takeTag h.sent (left_wordsOf hleft) hlen

/-- When neither side can do anything, the EE waits for a chain that has ended, or its own has ended. -/
theorem Inv.ended (hc : IopChain .TO c) (h : Inv c s log) (hann : Announced log.sent) (hee : ¬EeCan 5 9 s)
    (hiop : ¬IopCan 9 s) :
    (s.iop.ChainEnded 9 ∧ log.received.map wordsOf = log.sent.map toReceive) ∨ (s.ee.turn 5).ChainEnded := by
  by_cases hended : (s.ee.turn 5).ChainEnded
  · exact .inr hended
  left
  obtain ⟨-, hee⟩ := not_or.mp hee
  obtain ⟨hstarted, hiop⟩ := not_or.mp hiop
  -- the queue holds less than a quadword, so that there is room for a tag
  have hshort : (s.iop.fifo .sif0).bytes.length < 16 := by
    have hstarved : ¬(s.iop.fifo .sif0).hasReadAvailable 16 = true := by
      have hready := fun hready => hee ⟨hended, hready⟩
      rw [h.receives.direction] at hready
      exact hready
    rw [DmaFifoQueue.hasReadAvailable_iff] at hstarved
    omega
  have hneed : IopDmac.need (s.iop.channels 9) ≤ 16 := by
    rw [IopDmac.need]
    split_ifs <;> decide
  have hiopEnded : s.iop.ChainEnded 9 := by
    by_contra hgoes
    refine hiop ⟨hgoes, ?_⟩
    rw [(hc.of_butStart h.control).direction]
    refine DmaFifoQueue.hasWriteAvailable_iff.mpr ?_
    change (s.iop.fifo .sif0).bytes.length + _ ≤ 1024
    omega
  have hsent : left lengthToSend (symbols log.sent) = some 0 := by
    rw [h.sent, toCome, hiopEnded.2.1]
    split_ifs <;> rfl
  refine ⟨hiopEnded, symbols_injective ((h.framed hann).all_received (left_toReceive hsent hann) (left_wordsOf h.received)
    (fun w => length_bytes 4 w) (fun hm => ?_) fun _ t => ?_)⟩
  · omega
  · exact hshort.trans_eq (length_tagPacket _ _).symm

/-- Two tags at 0x1000 in the memory of the IOP: four words at 0x100 for 0x2000 on the other side, where `spr` is the
highest byte, and three words at 0x200 for 0x3000. -/
def twoTags (spr : Ubyte) : Memory where
  mapped _ := true
  byte x :=
    if x = 0x1001 ∨ x = 0x1008 ∨ x = 0x1018 then 1
    else if x = 0x1011 then 2
    else if x = 0x1014 then 3
    else if x = 0x1004 then 4
    else if x = 0x100B then 0x10
    else if x = 0x100D then 0x20
    else if x = 0x101D then 0x30
    else if x = 0x101B then 0x70
    else if x = 0x1013 then 0x80
    else if x = 0x100F then spr
    else if x = 0x100 ∨ x = 0x200 then 0x42
    else 0

/-- The two channels just started, and no others. -/
def started (spr : Ubyte) : Sif where
  ee := {
    ctrl := 1
    stat := 0
    stadr := 0
    sbusF240 := 0
    memory := { mapped := fun _ => true, byte := fun _ => 0 }
    channels i := {
      channelId := i
      dmaFifoQueue := some .empty
      madr := 0
      qwc := 0
      chcr := ⟨if i = 5 then 0x104 else 0, false, false, false, false, .blank⟩
      tadr := none
      asr := none
      sadr := none }
    cause := ⟨0, fun _ => false⟩ }
  iop := {
    IopDmac.quiet with
    pcr1 := 0x800
    memory := twoTags spr
    channels k := {
      madr := 0
      bcr := 0
      transferLength := 0
      chcr := { w := if k = 9 then 0x1000701 else 0, dmaStarted := false, dmaTag := .blank }
      tadr := 0x1000 } }

end Orbum.Sif.Sif0
