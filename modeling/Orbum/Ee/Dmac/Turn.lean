import Orbum.Ee.Dmac.Controller

/-!
# What the parts of a turn do

A turn of a channel moves a quadword, or has the handler of a tag write the registers of the channel. What is said of
turns elsewhere is said case by case of these two.
-/

namespace Orbum

open LittleEndian

namespace EeDmacTurn

/-- What moving a quadword does. -/
inductive DataMoved (t : EeDmacTurn) : ℕ × EeDmacTurn → Prop where
  /-- The quadword goes between memory and scratchpad. -/
  | spr {sadr : Uword} {memory : Memory} (hid : t.channelId = 8 ∨ t.channelId = 9) :
      DataMoved t (1, { t.advance with memory, sadr := some (sadr + 0x10) })
  /-- There is no quadword in the FIFO. -/
  | starved {queue : DmaFifoQueue} (hfrom : t.chcr.direction = .FROM) (hqueue : t.dmaFifoQueue = some queue)
      (havail : queue.hasReadAvailable 16 = false) : DataMoved t (0, t)
  /-- The quadword goes from the FIFO to the memory. -/
  | received {queue queue' : DmaFifoQueue} {packet : List Ubyte} {memory : Memory} (hfrom : t.chcr.direction = .FROM)
      (hqueue : t.dmaFifoQueue = some queue) (hread : queue.read 16 = .ok (packet, queue'))
      (hwrite : writeQwordMemory t.memory t.transferAddress t.transferSpr (ofBytes 128 packet) = .ok memory) :
      DataMoved t (1, { t.advance with memory, dmaFifoQueue := some queue' })
  /-- There is no room for a quadword in the FIFO. -/
  | blocked {queue : DmaFifoQueue} (hto : t.chcr.direction = .TO) (hqueue : t.dmaFifoQueue = some queue)
      (hroom : queue.hasWriteAvailable 16 = false) : DataMoved t (0, t)
  /-- The quadword goes from the memory to the FIFO. -/
  | sent {queue queue' : DmaFifoQueue} {q : Uqword} (hto : t.chcr.direction = .TO) (hqueue : t.dmaFifoQueue = some queue)
      (hread : readQwordMemory t.memory t.transferAddress t.transferSpr = .ok q)
      (hwrite : queue.write (bytes 16 q) = .ok queue') : DataMoved t (1, t.sent queue')

/-- What the handler of a tag of a source chain does. -/
inductive SourceHandled (t : EeDmacTurn) : EeDmacTurn → Prop where
  /-- It writes QWC, MADR and TADR, and may note that the tag is the last. -/
  | registers {madr : Uword} {tadr : Option Uword} {tagExit : Bool} (hid : t.chcr.dmaTag.id.toNat ≠ 4) :
      SourceHandled t { t with qwc := t.chcr.dmaTag.qwc, madr, tadr, chcr := { t.chcr with tagExit } }
  /-- It is REFS, which besides notes that the data is under stall control. -/
  | refs {madr : Uword} {tadr : Option Uword} (hid : t.chcr.dmaTag.id.toNat = 4) :
      SourceHandled t { t with qwc := t.chcr.dmaTag.qwc, madr, tadr, chcr := { t.chcr with tagStall := true } }
  /-- It is CALL, and pushes an address. -/
  | pushes {madr asp : Uword} {tadr : Option Uword} {asr : Option (Vector Uword 2)} (hid : t.chcr.dmaTag.id.toNat ≠ 4) :
      SourceHandled t (insertChcr { t with qwc := t.chcr.dmaTag.qwc, madr, tadr, asr } EeDmacChcr.asp asp)
  /-- It is RET, and pops an address. -/
  | pops {asp r : Uword} {tadr : Option Uword} (hid : t.chcr.dmaTag.id.toNat ≠ 4) :
      SourceHandled t ((insertChcr { t with tadr } EeDmacChcr.asp asp).followTag r)

variable (t : EeDmacTurn)

theorem dataMoved_transferData : Ensures (DataMoved t) t.transferData := by
  intro r h
  unfold transferData at h
  split_ifs at h with hid
  · obtain ⟨sadr, -, h⟩ := bind_eq_ok_iff.mp h
    cases hdir : t.chcr.direction with
    | FROM =>
      rw [hdir] at h
      obtain ⟨packet, -, h⟩ := bind_eq_ok_iff.mp h
      obtain ⟨memory, -, h⟩ := bind_eq_ok_iff.mp h
      obtain rfl := Except.ok.inj h
      exact .spr hid
    | TO =>
      rw [hdir] at h
      obtain ⟨packet, -, h⟩ := bind_eq_ok_iff.mp h
      obtain ⟨memory, -, h⟩ := bind_eq_ok_iff.mp h
      obtain rfl := Except.ok.inj h
      exact .spr hid
  · obtain ⟨queue, hqueue, h⟩ := bind_eq_ok_iff.mp h
    have hqueue := deref_eq_ok_iff.mp hqueue
    cases hdir : t.chcr.direction with
    | FROM =>
      rw [hdir] at h
      dsimp only at h
      cases havail : queue.hasReadAvailable 16 with
      | false =>
        rw [havail, if_pos (by decide)] at h
        obtain rfl := Except.ok.inj h
        exact .starved hdir hqueue havail
      | true =>
        rw [havail, if_neg (by decide)] at h
        obtain ⟨⟨packet, queue'⟩, hread, h⟩ := bind_eq_ok_iff.mp h
        obtain ⟨memory, hwrite, h⟩ := bind_eq_ok_iff.mp h
        obtain rfl := Except.ok.inj h
        exact .received hdir hqueue hread hwrite
    | TO =>
      rw [hdir] at h
      dsimp only at h
      cases hroom : queue.hasWriteAvailable 16 with
      | false =>
        rw [hroom, if_pos (by decide)] at h
        obtain rfl := Except.ok.inj h
        exact .blocked hdir hqueue hroom
      | true =>
        rw [hroom, if_neg (by decide)] at h
        obtain ⟨q, hread, h⟩ := bind_eq_ok_iff.mp h
        obtain ⟨queue', hwrite, h⟩ := bind_eq_ok_iff.mp h
        obtain rfl := Except.ok.inj h
        exact .sent hdir hqueue hread hwrite

theorem sourceHandled_chainSrcRefe (hid : t.chcr.dmaTag.id.toNat ≠ 4) : Ensures (SourceHandled t) t.chainSrcRefe := by
  intro t' h
  obtain ⟨t₁, href, h⟩ := bind_eq_ok_iff.mp h
  obtain ⟨tadr, -, href⟩ := bind_eq_ok_iff.mp href
  obtain rfl := Except.ok.inj href
  obtain rfl := Except.ok.inj h
  exact .registers hid

theorem sourceHandled_chainSrcCall (hid : t.chcr.dmaTag.id.toNat ≠ 4) : Ensures (SourceHandled t) t.chainSrcCall := by
  refine (Ensures.trivial _).bind fun tadr _ => ?_
  dsimp only
  split_ifs
  · exact .ok (.registers hid)
  · exact (Ensures.trivial _).bind fun asr _ => .ok (.pushes hid)
  · exact (Ensures.trivial _).bind fun asr _ => .error _

theorem sourceHandled_chainSrcRet (hid : t.chcr.dmaTag.id.toNat ≠ 4) : Ensures (SourceHandled t) t.chainSrcRet := by
  have htail {u : EeDmacTurn} (hu : ∀ r, SourceHandled t (u.followTag r)) :
      Ensures (SourceHandled t) (do return u.followTag (← deref u.tadr)) :=
    (Ensures.trivial _).bind fun r _ => .ok (hu r)
  unfold chainSrcRet
  dsimp only
  split_ifs
  · exact htail fun _ => .registers hid
  · exact (Ensures.trivial _).bind fun tadr _ => (Ensures.trivial _).bind fun asr _ => htail fun _ => .pops hid
  · exact (Ensures.trivial _).bind fun tadr _ => (Ensures.trivial _).bind fun asr _ => .error _

theorem sourceHandled_srcChainInstruction : Ensures (SourceHandled t) t.srcChainInstruction := by
  unfold srcChainInstruction
  generalize hn : t.chcr.dmaTag.id.toNat = n
  split
  · exact sourceHandled_chainSrcRefe t (by rw [hn]; decide)
  · exact (Ensures.trivial _).bind fun _ _ => .ok (.registers (by rw [hn]; decide))
  · exact (Ensures.trivial _).bind fun _ _ => .ok (.registers (by rw [hn]; decide))
  · exact (Ensures.trivial _).bind fun _ _ => .ok (.registers (by rw [hn]; decide))
  · exact (Ensures.trivial _).bind fun _ _ => .ok (.refs hn)
  · exact sourceHandled_chainSrcCall t (by rw [hn]; decide)
  · exact sourceHandled_chainSrcRet t (by rw [hn]; decide)
  · exact (Ensures.trivial _).bind fun _ _ => .ok (.registers (by rw [hn]; assumption))

end EeDmacTurn

end Orbum
