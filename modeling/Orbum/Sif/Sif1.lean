import Orbum.Iop.Dmac.Delivery
import Orbum.Sif.Bounds
import Orbum.Sif.Progress

/-!
# SIF1

Channel 6 of the EE works through a source chain and sends, before the data of a tag, the tag of the IOP that is in the
upper half of it. Channel 10 of the IOP stores the data where these tags say. The EE moves quadwords; the IOP moves as
many words as the tag says, not rounded up.
-/

namespace Orbum.Sif.Sif1

open LittleEndian Framing

/-! ### The record -/

/-- The quadwords the EE has read, behind those with the tags, and the words the IOP has stored, each with its address. -/
abbrev Log := Transfer Uqword Uqword IopDmatag (Uptr × Uword)

/-- The quadword that is next. -/
def dataQword (t : EeDmacTurn) : Except HostError Uqword := readQwordMemory t.memory t.transferAddress t.transferSpr

/-- The quadword with the tag that is next. -/
def tagQword (t : EeDmacTurn) : Except HostError Uqword := do
  let tadr ← deref t.tadr
  readQwordMemory t.memory (EeDmacAddr.addr.extractFrom tadr) (0 < EeDmacAddr.spr.extractFrom tadr)

/-- What a turn of the EE has sent. -/
def noteSent (t : EeDmacTurn) (sent : List (Block Uqword Uqword)) : List (Block Uqword Uqword) :=
  if 0 < t.qwc then addItems sent (dataQword t).toOption.toList
  else sent ++ (tagQword t).toOption.toList.map fun q => ⟨q, []⟩

/-- What a turn of the IOP has received, as it is in memory after the turn. -/
def noteReceived (s s' : IopDmac) (received : List (Block IopDmatag (Uptr × Uword))) :
    List (Block IopDmatag (Uptr × Uword)) :=
  if 0 < (s.channels 10).transferLength then
    addItems received ((s'.memory.readUword (s.channels 10).madr).toOption.toList.map ((s.channels 10).madr, ·))
  else received ++ [⟨(s'.channels 10).chcr.dmaTag, []⟩]

/-- The record of SIF1. -/
def notes : Notes Log where
  eeChannel := 6
  iopChannel := 10
  ee s s' log := if Moved .sif1 s s' then { log with sent := noteSent (s.ee.turn 6) log.sent } else log
  iop s s' log := if Moved .sif1 s s' then { log with received := noteReceived s.iop s'.iop log.received } else log

/-- The tag of the IOP in a tag of the EE. -/
def embedded (q : Uqword) : IopDmatag := ⟨q.uw 2, q.uw 3⟩

/-- QWC of a tag of the EE. -/
def qwc (q : Uqword) : ℕ := (EeDmatag.ofUqword q).qwc.toNat

/-- The IOP is to receive the tag in the tag, and as many words of the data as it says. -/
def toReceive (b : Block Uqword Uqword) : Block IopDmatag Uword :=
  ⟨embedded b.tag, (b.items.flatMap Uqword.words).take (embedded b.tag).length⟩

/-- QWC is the length for the IOP, rounded up to quadwords. -/
def Announced (sent : List (Block Uqword Uqword)) : Prop :=
  ∀ b ∈ sent, ((embedded b.tag).length + 3) / 4 = qwc b.tag

/-- The length for the IOP is one of quadwords, if another tag follows. -/
def Rounded (sent : List (Block Uqword Uqword)) : Prop := ∀ b ∈ sent.dropLast, 4 ∣ (embedded b.tag).length

/-- The words that the EE has sent and the IOP does not take. -/
def surplus (sent : List (Block Uqword Uqword)) : ℕ :=
  sent.getLast?.elim 0 fun b => 4 * b.items.length - (embedded b.tag).length

/-- In each of `n` rounds a tag, a quadword or a word has been moved, or a transfer started; or else the chain of the EE
has ended and all of it has been received, or the IOP has received the tag that ends its transfer, and the data of it. -/
def Advances (n : ℕ) (w : Watched Log) : Prop :=
  n ≤ w.log.size + 2 ∨ ((w.ee.turn 6).ChainEnded ∧ w.log.received.map words = w.log.sent.map toReceive) ∨
    w.iop.ChainEnded 10

/-! ### The framing -/

variable {sent : List (Block Uqword Uqword)} {received : List (Block IopDmatag Uword)} {queue packet : List Ubyte}
  {q : Uqword} {n : ℕ}

theorem Announced.of_addItems {qs : List Uqword} (h : Announced (addItems sent qs)) : Announced sent :=
  forall_tag_of_addItems (P := fun q => ((embedded q).length + 3) / 4 = qwc q) h

theorem Rounded.of_addItems {qs : List Uqword} (h : Rounded (addItems sent qs)) : Rounded sent := by
  rcases List.eq_nil_or_concat sent with rfl | ⟨bs, b, rfl⟩
  · exact h
  · rw [List.concat_eq_append, addItems_concat, Rounded, List.dropLast_concat] at h
    rwa [List.concat_eq_append, Rounded, List.dropLast_concat]

theorem Rounded.of_concat {b : Block Uqword Uqword} (h : Rounded (sent ++ [b])) : Rounded sent := by
  rw [Rounded, List.dropLast_concat] at h
  exact fun c hc => h c (List.dropLast_subset _ hc)

/-- The words that the IOP takes of what the EE has still to send. -/
def toSend (sent : List (Block Uqword Uqword)) : ℕ :=
  sent.getLast?.elim 0 fun b => (embedded b.tag).length - 4 * b.items.length

theorem toSend_concat (bs : List (Block Uqword Uqword)) (b : Block Uqword Uqword) :
    toSend (bs ++ [b]) = (embedded b.tag).length - 4 * b.items.length := by
  rw [toSend, List.getLast?_concat, Option.elim_some]

theorem surplus_concat (bs : List (Block Uqword Uqword)) (b : Block Uqword Uqword) :
    surplus (bs ++ [b]) = 4 * b.items.length - (embedded b.tag).length := by
  rw [surplus, List.getLast?_concat, Option.elim_some]

theorem length_toReceive (b : Block Uqword Uqword) :
    (toReceive b).items.length = min (embedded b.tag).length (4 * b.items.length) := by
  rw [toReceive, List.length_take, length_flatMap length_words, Nat.mul_comm]

/-- What the IOP has to expect yet. -/
theorem left_toReceive (h : left qwc (symbols sent) = some n) (hann : Announced sent) :
    left IopDmatag.length (symbols (sent.map toReceive)) = some (toSend sent) := by
  have hwhole (b : Block Uqword Uqword) (hb : b ∈ sent) (hitems : b.items.length = qwc b.tag) :
      (toReceive b).items.length = (toReceive b).tag.length := by
    have hround := hann b hb
    rw [length_toReceive, hitems]
    change min (embedded b.tag).length (4 * qwc b.tag) = (embedded b.tag).length
    omega
  rcases List.eq_nil_or_concat sent with rfl | ⟨bs, b, rfl⟩
  · rfl
  · rw [List.concat_eq_append] at h hwhole ⊢
    rw [List.map_append, List.map_singleton, left_concat_block, toSend_concat, length_toReceive]
    refine ⟨left_map_zero (fun b hb => hwhole b (List.mem_append_left _ hb)) (left_concat_block.mp h).1, ?_⟩
    change min (embedded b.tag).length (4 * b.items.length) + _ = (embedded b.tag).length
    omega

/-- The surplus is less than a quadword. -/
theorem surplus_lt (h : left qwc (symbols sent) = some n) (hann : Announced sent) : surplus sent < 4 := by
  rcases List.eq_nil_or_concat sent with rfl | ⟨bs, b, rfl⟩
  · exact Nat.succ_pos 3
  · rw [List.concat_eq_append] at h hann ⊢
    have hround := hann b List.mem_concat_self
    have hitems := (left_concat_block.mp h).2
    rw [surplus_concat]
    omega

theorem surplus_eq_zero (h : 0 < toSend sent) : surplus sent = 0 := by
  rcases List.eq_nil_or_concat sent with rfl | ⟨bs, b, rfl⟩
  · rfl
  · rw [List.concat_eq_append, toSend_concat] at h
    rw [List.concat_eq_append, surplus_concat]
    omega

/-- What is on the queue, if the tags are as they should be. -/
def Framed (sent : List (Block Uqword Uqword)) (received : List (Block IopDmatag Uword)) (queue : List Ubyte) : Prop :=
  Announced sent → Rounded sent → ∃ padding : List Ubyte, padding.length = 4 * surplus sent ∧
    InFlight (enc IopDmatag.packet) (symbols (sent.map toReceive)) (symbols received) queue padding

theorem framed_nil : Framed [] [] [] := fun _ _ => ⟨[], rfl, [], rfl, rfl⟩

/-- The EE sends a tag. -/
theorem Framed.sendTag (h : Framed sent received queue) (hleft : left qwc (symbols sent) = some 0) (q : Uqword) :
    Framed (sent ++ [⟨q, []⟩]) received (queue ++ bytes 16 (Uqword.ofWords (q.uw 2) (q.uw 3) 0 0)) := by
  intro hann hround
  have hann' : Announced sent := fun b hb => hann b (List.mem_append_left _ hb)
  obtain ⟨padding, hpadding, hflight⟩ := h hann' hround.of_concat
  have hsurplus : surplus sent = 0 := by
    rcases List.eq_nil_or_concat sent with rfl | ⟨bs, b, rfl⟩
    · rfl
    · rw [List.concat_eq_append] at hleft hround hann' ⊢
      have hitems := (left_concat_block.mp hleft).2
      have hlength := hann' b List.mem_concat_self
      rw [Rounded, List.dropLast_concat] at hround
      have hdvd := hround b List.mem_concat_self
      rw [surplus_concat]
      omega
  obtain rfl : padding = [] := List.eq_nil_of_length_eq_zero (by omega)
  refine ⟨[], ?_, ?_⟩
  · rw [surplus_concat, List.length_nil, List.length_nil, Nat.mul_zero, Nat.zero_sub]
  · have htag : (toReceive ⟨q, []⟩).symbols = [.tag (embedded q)] := by
      rw [Block.symbols, toReceive, List.flatMap_nil, List.take_nil]
      rfl
    have hsend := hflight.send [.tag (embedded q)]
    rw [List.flatMap_singleton] at hsend
    rw [List.map_append, List.map_singleton, symbols_concat, htag, bytes_tag]
    exact hsend

theorem symbols_toReceive_addItems (hne : sent ≠ []) (q : Uqword) :
    symbols ((addItems sent [q]).map toReceive) =
      symbols (sent.map toReceive) ++ (q.words.take (toSend sent)).map .item := by
  obtain ⟨bs, b, rfl⟩ := (List.eq_nil_or_concat sent).resolve_left hne
  have hitems : (toReceive ⟨b.tag, b.items ++ [q]⟩).items =
      (toReceive b).items ++ q.words.take ((embedded b.tag).length - 4 * b.items.length) := by
    rw [toReceive, List.flatMap_append, List.flatMap_singleton, List.take_append, length_flatMap length_words, Nat.mul_comm]
    rfl
  rw [List.concat_eq_append, addItems_concat, toSend_concat, List.map_append, List.map_append, List.map_singleton,
    List.map_singleton, symbols_concat, symbols_concat, Block.symbols, Block.symbols, hitems, List.map_append,
    ← List.cons_append, List.append_assoc]
  rfl

theorem surplus_addItems (hne : sent ≠ []) (q : Uqword) : surplus (addItems sent [q]) = surplus sent + (4 - toSend sent) := by
  obtain ⟨bs, b, rfl⟩ := (List.eq_nil_or_concat sent).resolve_left hne
  rw [List.concat_eq_append, addItems_concat, surplus_concat, surplus_concat, toSend_concat, List.length_append,
    List.length_singleton]
  dsimp only
  omega

/-- The EE sends a quadword. -/
theorem Framed.sendData (h : Framed sent received queue) (hleft : left qwc (symbols sent) = some n) (hn : 0 < n)
    (q : Uqword) : Framed (addItems sent [q]) received (queue ++ bytes 16 q) := by
  intro hann hround
  obtain ⟨padding, hpadding, hflight⟩ := h hann.of_addItems hround.of_addItems
  have hne := ne_nil_of_left hleft hn
  -- the words that the IOP takes, and the surplus
  have hbytes : bytes 16 q = ((q.words.take (toSend sent)).map Framing.Symbol.item).flatMap (enc IopDmatag.packet) ++
      (q.words.drop (toSend sent)).flatMap (bytes 4) := by
    rw [List.flatMap_map, bytes_uqword]
    exact (congrArg (List.flatMap (bytes 4)) (List.take_append_drop _ _).symm).trans List.flatMap_append
  have hlength : ((q.words.drop (toSend sent)).flatMap (bytes 4)).length = 4 * (4 - toSend sent) := by
    rw [length_flatMap (length_bytes 4), List.length_drop]
    exact Nat.mul_comm _ _
  refine ⟨padding ++ (q.words.drop (toSend sent)).flatMap (bytes 4), ?_, ?_⟩
  · rw [List.length_append, hlength, hpadding, surplus_addItems hne, Nat.mul_add]
  · rw [symbols_toReceive_addItems hne, hbytes, ← List.append_assoc]
    by_cases hsend : 0 < toSend sent
    · obtain rfl : padding = [] := List.eq_nil_of_length_eq_zero (by rw [hpadding, surplus_eq_zero hsend])
      exact (hflight.send _).pad _
    · rw [show toSend sent = 0 by omega, List.take_zero, List.map_nil, List.append_nil, List.flatMap_nil, List.append_nil]
      exact hflight.pad _

/-- The IOP takes a tag. -/
theorem Framed.takeTag (h : Framed sent received (packet ++ queue)) (hsent : left qwc (symbols sent) = some n)
    (hreceived : left IopDmatag.length (symbols received) = some 0) (hlen : packet.length = 16) :
    Framed sent (received ++ [⟨⟨ofBytes 32 (packet.take 4), ofBytes 32 ((packet.drop 4).take 4)⟩, []⟩]) queue := by
  intro hann hround
  obtain ⟨padding, hpadding, hflight⟩ := h hann hround
  have hsurplus := surplus_lt hsent hann
  obtain ⟨t, rfl, htaken⟩ := hflight.takeTag (left_toReceive hsent hann) hreceived
    (fun t => hlen.trans (length_tagPacket _ _).symm) (by omega)
  refine ⟨padding, hpadding, ?_⟩
  rw [show enc IopDmatag.packet (.tag t) = t.packet from rfl, IopDmatag.ofBytes_packet, symbols_concat]
  exact htaken

/-- The IOP takes a word. -/
theorem Framed.takeWord (h : Framed sent received (packet ++ queue)) (hsent : left qwc (symbols sent) = some n) {m : ℕ}
    (hreceived : left IopDmatag.length (symbols received) = some m) (hm : 0 < m) (hlen : packet.length = 4) :
    Framed sent (addItems received [ofBytes 32 packet]) queue := by
  intro hann hround
  obtain ⟨padding, hpadding, hflight⟩ := h hann hround
  have hnone : 0 < toSend sent → padding = [] := fun hsend =>
    List.eq_nil_of_length_eq_zero (by rw [hpadding, surplus_eq_zero hsend])
  obtain ⟨ws, hws, rfl, htaken⟩ := hflight.takeItems (w := 4) (by decide) (fun w => length_bytes 4 w)
    (left_toReceive hsent hann) hnone hreceived hm hlen
  obtain ⟨w, rfl⟩ := List.length_eq_one_iff.mp hws
  have hne := ne_nil_of_left hreceived hm
  have hword : ofBytes 32 ([w].flatMap (enc IopDmatag.packet ∘ .item)) = w := by
    rw [List.flatMap_singleton]
    exact ofBytes_bytes 4 w (by decide)
  refine ⟨padding, hpadding, ?_⟩
  rw [hword, symbols_addItems hne]
  exact htaken

/-! ### The channels -/

/-- The channel of the EE sends a chain with its tags. -/
structure Sends (c : EeDmacChannel) : Prop extends EeChain 6 .TO c where
  /-- The tags are transferred. -/
  tte : EeDmacChcr.tte.extractFrom c.chcr.w ≠ 0

/-- Both channels are set up, and nothing has been moved. CE is not asked for: without it the tick of the IOP throws. -/
structure Starts (s : Sif) : Prop where
  /-- The queue. -/
  linked : Linked 6 10 s
  /-- There is nothing on it. -/
  empty : (s.iop.fifo .sif1).bytes = []
  /-- The EE. -/
  sends : Sends (s.ee.channels 6)
  /-- It has no data without a tag. -/
  qwc : (s.ee.channels 6).qwc = 0
  /-- The IOP. -/
  receives : IopChain .FROM (s.iop.channels 10).chcr
  /-- It has no data without a tag. -/
  transferLength : (s.iop.channels 10).chcr.dmaStarted = true → (s.iop.channels 10).transferLength = 0

variable {s s' : Sif} {log : Log} {c : IopDmacChcr} {t : EeDmacTurn}

/-- The invariant of a run, with CHCR of the IOP as it was at the start. -/
structure Inv (c : IopDmacChcr) (s : Sif) (log : Log) : Prop where
  /-- The queue. -/
  linked : Linked 6 10 s
  /-- The EE. -/
  sends : Sends (s.ee.channels 6)
  /-- The IOP. -/
  control : IopDmac.ButStart c.w (s.iop.channels 10).chcr.w
  /-- What the EE has sent. -/
  sent : left qwc (symbols log.sent) = some (s.ee.channels 6).qwc.toNat
  /-- What the IOP has received. -/
  received : left IopDmatag.length (symbols log.received) = some (toCome (s.iop.channels 10))
  /-- Where it is, and MADR. -/
  placed : Placed (wordAddress (IopDmac.stride c)) id log.received (s.iop.channels 10).madr
  /-- What is on the queue. -/
  framed : Framed log.sent (log.received.map words) (s.iop.fifo .sif1).bytes

theorem Starts.inv (h : Starts s) : Inv (s.iop.channels 10).chcr s ⟨[], []⟩ where
  linked := h.linked
  sends := h.sends
  control _ _ := rfl
  sent := by
    rw [h.qwc]
    rfl
  received := by
    rw [toCome]
    split_ifs with hstarted
    · rw [h.transferLength hstarted]
      rfl
    · rfl
  placed := placed_nil _
  framed := by
    rw [h.empty]
    exact framed_nil

theorem Sends.keeps {t' : EeDmacTurn} (h : Sends t.toEeDmacChannel) (hkeeps : EeDmacTurn.KeepsMode t t') :
    Sends t'.toEeDmacChannel where
  toEeChain := h.toEeChain.keeps hkeeps
  tte := by
    rw [hkeeps.control _ (by decide) (by decide) (by decide)]
    exact h.tte

/-! ### Turns -/

theorem notes_ee (s s' : Sif) (log : Log) : notes.ee s s' log =
    if Moved .sif1 s s' then { log with sent := noteSent (s.ee.turn 6) log.sent } else log := rfl

/-- After a turn of the EE, what it has sent and what is on the queue matter. -/
theorem Inv.send (h : Inv c s log) {sent : List (Block Uqword Uqword)} {queue : DmaFifoQueue}
    (hchannel : s'.ee.channels 6 = t.toEeDmacChannel) (hiop : s'.iop.channels = s.iop.channels)
    (hfifo : s'.iop.fifo .sif1 = queue) (hkeeps : EeDmacTurn.KeepsMode (s.ee.turn 6) t)
    (hqueue : t.dmaFifoQueue = some queue) (hsent : left qwc (symbols sent) = some t.qwc.toNat)
    (hframed : Framed sent (log.received.map words) queue.bytes) : Inv c s' { log with sent } where
  linked := by
    refine ⟨rfl, ?_⟩
    rw [hchannel]
    exact hqueue.trans (congrArg some hfifo.symm)
  sends := by
    rw [hchannel]
    exact Sends.keeps h.sends hkeeps
  control := by
    rw [hiop]
    exact h.control
  sent := by
    rw [hchannel]
    exact hsent
  received := by
    rw [hiop]
    exact h.received
  placed := by
    rw [hiop]
    exact h.placed
  framed := by
    rw [hfifo]
    exact hframed

theorem Inv.eeTurn (h : Inv c s log) (hturn : s.eeTurn 6 = .ok s') : Inv c s' (notes.ee s s' log) ∧
    (notes.ee s s' log).size = log.size + if Moved .sif1 s s' then 1 else 0 := by
  obtain ⟨t, ht, hchannel, -, hiop, hqueue⟩ := eeTurn_ok hturn h.linked
  have hchain : EeChain 6 .TO (s.ee.turn 6).toEeDmacChannel := h.sends.toEeChain
  have hmoves := EeDmacTurn.sourceTurn_channelTurn (hchain.dirForced (by decide)) (hchain.channelId_ne (by decide))
    (hchain.channelId_ne (by decide)) hchain.mod hchain.direction h.sends.tte t ht
  have hsame {queue : DmaFifoQueue} (hq : (s.ee.turn 6).dmaFifoQueue = some queue) : s.iop.fifo .sif1 = queue :=
    Option.some.inj (h.linked.queue.symm.trans hq)
  rw [notes_ee]
  cases hmoves with
  | stay hstays =>
    have hq : t.dmaFifoQueue = some (s.iop.fifo .sif1) := hstays.queue.trans h.linked.queue
    have hsent : left qwc (symbols log.sent) = some t.qwc.toNat := by
      rw [hstays.qwc]
      exact h.sent
    have hmoved : ¬Moved .sif1 s s' := not_moved (hqueue _ hq)
    rw [if_neg hmoved, if_neg hmoved]
    exact ⟨h.send hchannel hiop (hqueue _ hq) hstays.toKeepsMode hq hsent h.framed, rfl⟩
  | @data queue queue' q hkeeps hq hqwc hread hq' hbytes hqwc' =>
    obtain rfl := hsame hq
    have hfifo : s'.iop.fifo .sif1 = queue' := hqueue _ hq'
    have hleft : left qwc (symbols log.sent) = some (s.ee.turn 6).qwc.toNat := h.sent
    have hpos : 0 < (s.ee.turn 6).qwc.toNat := by bv_omega
    have hmoved : Moved .sif1 s s' := moved_of_sent (hfifo ▸ hbytes) (by rw [length_bytes]; decide)
    have hnote : noteSent (s.ee.turn 6) log.sent = addItems log.sent [q] := by
      rw [noteSent, if_pos hqwc, dataQword, hread]
      rfl
    have hsent : left qwc (symbols (addItems log.sent [q])) = some t.qwc.toNat := by
      refine left_addItems ?_
      rw [hleft, hqwc', List.length_singleton]
      congr 1
      bv_omega
    have hsize : (symbols (addItems log.sent [q])).length = (symbols log.sent).length + 1 :=
      length_symbols_addItem (ne_nil_of_left hleft hpos) q
    rw [if_pos hmoved, if_pos hmoved, hnote]
    refine ⟨h.send hchannel hiop hfifo hkeeps hq' hsent ?_, ?_⟩
    · rw [hbytes]
      exact h.framed.sendData hleft hpos q
    · rw [Transfer.size, Transfer.size, hsize, Nat.add_right_comm]
  | @tag queue queue' tadr q hkeeps hq hqwc htadr hread hq' hbytes hqwc' =>
    obtain rfl := hsame hq
    have hfifo : s'.iop.fifo .sif1 = queue' := hqueue _ hq'
    have hleft : left qwc (symbols log.sent) = some 0 := by
      refine h.sent.trans (congrArg some ?_)
      exact congrArg BitVec.toNat hqwc
    have hmoved : Moved .sif1 s s' := moved_of_sent (hfifo ▸ hbytes) (by rw [length_bytes]; decide)
    have hnote : noteSent (s.ee.turn 6) log.sent = log.sent ++ [⟨q, []⟩] := by
      rw [noteSent, if_neg (by rw [hqwc]; decide), tagQword, htadr, deref_some, ok_bind, hread]
      rfl
    have hsent : left qwc (symbols (log.sent ++ [⟨q, []⟩])) = some t.qwc.toNat := by
      rw [left_concat_block, hqwc']
      exact ⟨hleft, Nat.zero_add _⟩
    rw [if_pos hmoved, if_pos hmoved, hnote]
    refine ⟨h.send hchannel hiop hfifo hkeeps hq' hsent ?_, ?_⟩
    · rw [hbytes]
      exact h.framed.sendTag hleft q
    · rw [Transfer.size, Transfer.size, length_symbols_concat, Nat.add_right_comm]

theorem notes_iop (s s' : Sif) (log : Log) : notes.iop s s' log =
    if Moved .sif1 s s' then { log with received := noteReceived s.iop s'.iop log.received } else log := rfl

/-- After a turn of the IOP, what it has received and what is on the queue matter. -/
theorem Inv.receive (h : Inv c s log) {received : List (Block IopDmatag (Uptr × Uword))}
    (hchannel : s'.ee.channels 6 = { s.ee.channels 6 with dmaFifoQueue := some (s'.iop.fifo .sif1) })
    (hcontrol : IopDmac.ButStart (s.iop.channels 10).chcr.w (s'.iop.channels 10).chcr.w)
    (hreceived : left IopDmatag.length (symbols received) = some (toCome (s'.iop.channels 10)))
    (hplaced : Placed (wordAddress (IopDmac.stride c)) id received (s'.iop.channels 10).madr)
    (hframed : Framed log.sent (received.map words) (s'.iop.fifo .sif1).bytes) :
    Inv c s' { log with received } where
  linked := ⟨rfl, by rw [hchannel]; rfl⟩
  sends := by
    rw [hchannel]
    exact ⟨⟨h.sends.channelId, h.sends.mod, h.sends.direction⟩, h.sends.tte⟩
  control f hf := (hcontrol f hf).trans (h.control f hf)
  sent := by
    rw [hchannel]
    exact h.sent
  received := hreceived
  placed := hplaced
  framed := hframed

theorem Inv.iopTurn (h : Inv c s log) (hc : IopChain .FROM c) (hturn : s.iopTurn 10 = .ok s') :
    Inv c s' (notes.iop s s' log) ∧ (notes.iop s s' log).size = log.size + if Moved .sif1 s s' then 1 else 0 := by
  obtain ⟨ht, hchannel⟩ := iopTurn_ok hturn h.linked
  have hreceives := hc.of_butStart h.control
  have hmoves := IopDmac.destTurn_turn (hreceives.dirForced (by decide)) hreceives.logicalMode hreceives.direction _ ht
  rw [notes_iop]
  cases hmoves with
  | stay hstays =>
    have hfifo : s'.iop.fifo .sif1 = s.iop.fifo .sif1 := hstays.queue
    rw [if_neg (not_moved hfifo), if_neg (not_moved hfifo)]
    refine ⟨h.receive hchannel hstays.control ?_ ?_ ?_, rfl⟩
    · rw [toCome, hstays.dmaStarted, hstays.transferLength]
      exact h.received
    · rw [hstays.madr]
      exact h.placed
    · rw [hfifo]
      exact h.framed
  | start hcontrol hnot hstarted hlength hmadr hqueue =>
    have hfifo : s'.iop.fifo .sif1 = s.iop.fifo .sif1 := hqueue
    rw [if_neg (not_moved hfifo), if_neg (not_moved hfifo)]
    refine ⟨h.receive hchannel hcontrol ?_ ?_ ?_, rfl⟩
    · rw [toCome, if_pos hstarted, hlength, h.received, toCome, hnot]
      rfl
    · rw [hmadr]
      exact h.placed
    · rw [hfifo]
      exact h.framed
  | @word packet hcontrol hstarted hstarted' hleft hbytes hlen hwrite hmadr hlength =>
    have hbytes : (s.iop.fifo .sif1).bytes = packet ++ (s'.iop.fifo .sif1).bytes := hbytes
    have htocome : left IopDmatag.length (symbols log.received) = some (s.iop.channels 10).transferLength := by
      rw [h.received, toCome, if_pos hstarted]
    have hnote : noteReceived s.iop s'.iop log.received =
        addItems log.received [((s.iop.channels 10).madr, ofBytes 32 packet)] := by
      rw [noteReceived, if_pos hleft, Memory.readUword_of_writeUword hwrite]
      rfl
    have hmoved : Moved .sif1 s s' := moved_of_taken hbytes (by rw [hlen]; decide)
    have hsize : (symbols (addItems log.received [((s.iop.channels 10).madr, ofBytes 32 packet)])).length =
        (symbols log.received).length + 1 := length_symbols_addItem (ne_nil_of_left htocome hleft) _
    rw [if_pos hmoved, if_pos hmoved, hnote]
    refine ⟨h.receive hchannel hcontrol ?_ ?_ ?_, by rw [Transfer.size, Transfer.size, hsize, Nat.add_assoc]⟩
    · refine left_addItems ?_
      rw [htocome, toCome, if_pos hstarted', hlength, List.length_singleton]
      congr 1
      omega
    · refine h.placed.addItem (ne_nil_of_left htocome hleft) (fun t n hn => ?_) _
      rw [hmadr, stride_of_butStart h.control, hn, wordAddress_succ]
    · have hframed := h.framed
      rw [hbytes] at hframed
      rw [words_addItems]
      exact hframed.takeWord h.sent (left_words htocome) hleft hlen
  | @tag packet hcontrol hstarted hstarted' hleft hbytes hlen htag hmadr hlength =>
    have hbytes : (s.iop.fifo .sif1).bytes = packet ++ (s'.iop.fifo .sif1).bytes := hbytes
    have htocome : left IopDmatag.length (symbols log.received) = some 0 := by
      rw [h.received, toCome, if_pos hstarted, hleft]
    have hnote : noteReceived s.iop s'.iop log.received = log.received ++ [⟨(s'.iop.channels 10).chcr.dmaTag, []⟩] := by
      rw [noteReceived, if_neg (by omega)]
    have hmoved : Moved .sif1 s s' := moved_of_taken hbytes (by rw [hlen]; decide)
    rw [if_pos hmoved, if_pos hmoved, hnote]
    refine ⟨h.receive hchannel hcontrol ?_ ?_ ?_,
      by rw [Transfer.size, Transfer.size, length_symbols_concat, Nat.add_assoc]⟩
    · rw [left_concat_block, toCome, if_pos hstarted', hlength]
      exact ⟨htocome, Nat.zero_add _⟩
    · exact h.placed.concat (hmadr.trans (wordAddress_zero _ _).symm)
    · have hframed := h.framed
      rw [hbytes] at hframed
      rw [List.map_append, List.map_singleton, htag]
      exact hframed.takeTag h.sent (left_words htocome) hlen

/-- Once the EE has sent the data of its last tag, the IOP takes nothing more of it. -/
theorem toSend_eq_zero (h : left qwc (symbols sent) = some 0) (hann : Announced sent) : toSend sent = 0 := by
  rcases List.eq_nil_or_concat sent with rfl | ⟨bs, b, rfl⟩
  · rfl
  · rw [List.concat_eq_append] at h hann ⊢
    have hround := hann b List.mem_concat_self
    have hitems := (left_concat_block.mp h).2
    rw [toSend_concat]
    omega

/-- When neither side can do anything, the IOP waits for a chain that has ended, or its own has ended. -/
theorem Inv.ended (hc : IopChain .FROM c) (h : Inv c s log) (hann : Announced log.sent) (hround : Rounded log.sent)
    (hee : ¬EeCan 6 10 s) (hiop : ¬IopCan 10 s) :
    ((s.ee.turn 6).ChainEnded ∧ log.received.map words = log.sent.map toReceive) ∨ s.iop.ChainEnded 10 := by
  by_cases hended : s.iop.ChainEnded 10
  · exact .inr hended
  left
  obtain ⟨heeStarted, hee⟩ := not_or.mp hee
  obtain ⟨hiopStarted, hiop⟩ := not_or.mp hiop
  -- the queue holds less than the IOP looks for, so that there is room for a quadword
  have hshort : (s.iop.fifo .sif1).bytes.length < IopDmac.need (s.iop.channels 10) := by
    have hstarved : ¬(s.iop.fifo .sif1).hasReadAvailable (IopDmac.need (s.iop.channels 10)) = true := by
      have hready := fun hready => hiop ⟨hended, hready⟩
      rw [(hc.of_butStart h.control).direction] at hready
      exact hready
    rw [DmaFifoQueue.hasReadAvailable_iff] at hstarved
    omega
  have hneed : IopDmac.need (s.iop.channels 10) ≤ 16 := by
    rw [IopDmac.need]
    split_ifs <;> decide
  have heeEnded : (s.ee.turn 6).ChainEnded := by
    by_contra hgoes
    refine hee ⟨hgoes, ?_⟩
    rw [h.sends.direction]
    refine DmaFifoQueue.hasWriteAvailable_iff.mpr ?_
    change (s.iop.fifo .sif1).bytes.length + 16 ≤ 1024
    omega
  obtain ⟨padding, -, hflight⟩ := h.framed hann hround
  have hsent : left qwc (symbols log.sent) = some 0 := h.sent.trans (congrArg some (congrArg BitVec.toNat heeEnded.2.1))
  have hleft := left_toReceive hsent hann
  rw [toSend_eq_zero hsent hann] at hleft
  have hreceived := left_words h.received
  rw [toCome, if_pos (Bool.eq_true_of_not_eq_false hiopStarted)] at hreceived
  refine ⟨heeEnded, symbols_injective (hflight.all_received hleft hreceived (fun w => length_bytes 4 w) (fun hm => ?_)
    fun hm t => ?_)⟩
  · rw [IopDmac.need, if_pos hm] at hshort
    omega
  · rw [IopDmac.need, if_neg (by omega)] at hshort
    exact hshort.trans_eq (length_tagPacket _ _).symm

/-- Two tags at 0x1000 in the memory of the EE with a quadword each, for `length` words at 0x100 and 0x200. -/
def twoTags (length : Ubyte) : Memory where
  mapped _ := true
  byte x :=
    if x = 0x1000 ∨ x = 0x1009 ∨ x = 0x1020 then 1
    else if x = 0x1003 ∨ x = 0x1023 then 0x10
    else if x = 0x1029 then 2
    else if x = 0x100C ∨ x = 0x102C then length
    else 0

/-- The two channels just started, and no others. -/
def started (length : Ubyte) : Sif where
  ee := {
    ctrl := 1
    stat := 0
    stadr := 0
    sbusF240 := 0
    memory := twoTags length
    channels i := {
      channelId := i
      dmaFifoQueue := some .empty
      madr := 0
      qwc := 0
      chcr := ⟨if i = 6 then 0x145 else 0, false, false, false, false, .blank⟩
      tadr := some 0x1000
      asr := none
      sadr := none }
    cause := ⟨0, fun _ => false⟩ }
  iop := {
    IopDmac.quiet with
    pcr1 := 0x8000
    channels k := {
      madr := 0
      bcr := 0
      transferLength := 0
      chcr := { w := if k = 10 then 0x1000700 else 0, dmaStarted := false, dmaTag := .blank }
      tadr := 0 } }

end Orbum.Sif.Sif1
