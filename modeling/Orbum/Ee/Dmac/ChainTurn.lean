import Orbum.Ee.Dmac.SourceTag
import Orbum.Ee.Dmac.Turn

/-!
# Turns of a chain

What a turn of a channel in chain mode does to its FIFO, whatever the tags are: it reads or writes nothing, or a tag,
or a quadword of the data of the last tag. Which of these it is QWC says.
-/

namespace Orbum

open LittleEndian

namespace EeDmacTurn

open EeDmacChcr

/-! ### The mode of the channel -/

/-- The two words differ in the fields that a chain writes only. -/
def ButChain (w w' : Uword) : Prop :=
  ∀ f : Bitfield, f.Disjoint str → f.Disjoint asp → f.Disjoint tag → f.extractFrom w' = f.extractFrom w

theorem ButChain.refl (w : Uword) : ButChain w w := fun _ _ _ _ => rfl

theorem ButChain.trans {w w' w'' : Uword} (h : ButChain w w') (h' : ButChain w' w'') : ButChain w w'' :=
  fun f h1 h2 h3 => (h' f h1 h2 h3).trans (h f h1 h2 h3)

/-- A step of a chain: the mode and the number of the channel stay. -/
structure KeepsMode (t t' : EeDmacTurn) : Prop where
  /-- The number. -/
  channelId : t'.channelId = t.channelId
  /-- The mode. -/
  control : ButChain t.chcr.w t'.chcr.w

variable {t t' t'' : EeDmacTurn}

theorem KeepsMode.refl (t : EeDmacTurn) : KeepsMode t t := ⟨rfl, .refl _⟩

theorem KeepsMode.trans (h : KeepsMode t t') (h' : KeepsMode t' t'') : KeepsMode t t'' :=
  ⟨h'.channelId.trans h.channelId, h.control.trans h'.control⟩

theorem KeepsMode.direction (h : KeepsMode t t') : t'.chcr.direction = t.chcr.direction := by
  rw [EeDmacChcr.direction, EeDmacChcr.direction, h.control dir (by decide) (by decide) (by decide)]

theorem KeepsMode.dirForced (h : KeepsMode t t') (ht : t.DirForced) : t'.DirForced :=
  ⟨fun h5 => h.direction.trans (ht.sif0 (h.channelId ▸ h5)), fun h6 => h.direction.trans (ht.sif1 (h.channelId ▸ h6))⟩

/-- A step that moves nothing. -/
structure Stays (t t' : EeDmacTurn) : Prop extends KeepsMode t t' where
  /-- The FIFO. -/
  queue : t'.dmaFifoQueue = t.dmaFifoQueue
  /-- QWC. -/
  qwc : t'.qwc = t.qwc
  /-- MADR. -/
  madr : t'.madr = t.madr
  /-- The tag. -/
  dmaTag : t'.chcr.dmaTag = t.chcr.dmaTag

theorem Stays.refl (t : EeDmacTurn) : Stays t t := ⟨.refl t, rfl, rfl, rfl, rfl⟩

theorem Stays.trans (h : Stays t t') (h' : Stays t' t'') : Stays t t'' :=
  ⟨h.toKeepsMode.trans h'.toKeepsMode, h'.queue.trans h.queue, h'.qwc.trans h.qwc, h'.madr.trans h.madr,
    h'.dmaTag.trans h.dmaTag⟩

/-- Inserting a field that a chain writes, if it does not start the channel. -/
theorem stays_insertChcr (ht : t.DirForced) {f : Bitfield} {v : Uword} (hf : f = str ∧ v = 0 ∨ f = asp ∨ f = tag) :
    Stays t (t.insertChcr f v) := by
  have hstr : ¬(str.extractFrom t.chcr.w = 0 ∧ str.extractFrom (f.insertInto t.chcr.w v) ≠ 0) := by
    rintro ⟨h0, h1⟩
    rcases hf with ⟨rfl, rfl⟩ | rfl | rfl
    · rw [Bitfield.extractFrom_insertInto_self _ _ _ (by decide)] at h1
      exact h1 BitVec.zero_and
    · exact h1 ((Bitfield.extractFrom_insertInto_of_disjoint _ _ (by decide)).trans h0)
    · exact h1 ((Bitfield.extractFrom_insertInto_of_disjoint _ _ (by decide)).trans h0)
  have hdir : dir.Disjoint f := by rcases hf with ⟨rfl, -⟩ | rfl | rfl <;> decide
  obtain ⟨f240, heq⟩ := insertChcr_eq ht hdir v hstr
  rw [heq]
  refine ⟨⟨rfl, fun g h1 h2 h3 => Bitfield.extractFrom_insertInto_of_disjoint _ _ ?_⟩, rfl, rfl, rfl, rfl⟩
  rcases hf with ⟨rfl, -⟩ | rfl | rfl
  · exact h1
  · exact h2
  · exact h3

theorem stays_noteTag (ht : t.DirForced) : Stays t t.noteTag := by
  have hirq : Stays t { t with chcr := { t.chcr with tagIrq := t.chcr.dmaTag.irq } } :=
    ⟨⟨rfl, .refl _⟩, rfl, rfl, rfl, rfl⟩
  unfold noteTag
  exact hirq.trans (stays_insertChcr (hirq.dirForced ht) (.inr (.inr rfl)))

/-- The end of a transfer. -/
theorem setStateSuspended_eq (ht : t.DirForced) : ∃ f240, t.setStateSuspended =
    { t with
      stat := (EeDmacStat.cis t.channelId).insertInto t.stat 1
      sbusF240 := f240
      chcr := { t.chcr with w := str.insertInto t.chcr.w 0 } } := by
  refine insertChcr_eq (t := { t with stat := (EeDmacStat.cis t.channelId).insertInto t.stat 1 }) ⟨ht.sif0, ht.sif1⟩
    (by decide) 0 ?_
  rintro ⟨-, hset⟩
  rw [Bitfield.extractFrom_insertInto_self _ _ _ (by decide)] at hset
  exact hset BitVec.zero_and

theorem stays_suspendWhenEmpty (ht : t.DirForced) : Ensures (Stays t) t.suspendWhenEmpty := by
  have hcis : Stays t { t with stat := (EeDmacStat.cis t.channelId).insertInto t.stat 1 } :=
    ⟨⟨rfl, .refl _⟩, rfl, rfl, rfl, rfl⟩
  have hstop : Stays t t.setStateSuspended := by
    unfold setStateSuspended
    exact hcis.trans (stays_insertChcr (hcis.dirForced ht) (.inl ⟨rfl, rfl⟩))
  unfold suspendWhenEmpty
  split_ifs
  · refine (Ensures.trivial _).bind fun queue _ => ?_
    split_ifs
    · exact .ok (.refl t)
    · exact .ok hstop
  · exact .ok hstop

/-! ### Handlers -/

/-- What the handler of a tag leaves. -/
structure Handled (t t' : EeDmacTurn) : Prop extends KeepsMode t t' where
  /-- The FIFO. -/
  queue : t'.dmaFifoQueue = t.dmaFifoQueue
  /-- QWC. -/
  qwc : t'.qwc = t.chcr.dmaTag.qwc

theorem handled_srcChainInstruction (ht : t.DirForced) : Ensures (Handled t) t.srcChainInstruction := by
  refine (sourceHandled_srcChainInstruction t).mono fun t' h => ?_
  cases h with
  | registers => exact ⟨⟨rfl, .refl _⟩, rfl, rfl⟩
  | refs => exact ⟨⟨rfl, .refl _⟩, rfl, rfl⟩
  | @pushes madr v tadr asr =>
    have hregisters : KeepsMode t { t with qwc := t.chcr.dmaTag.qwc, madr, tadr, asr } := ⟨rfl, .refl _⟩
    have hpush := stays_insertChcr (v := v) (hregisters.dirForced ht) (.inr (.inl rfl))
    exact ⟨hregisters.trans hpush.toKeepsMode, hpush.queue, hpush.qwc⟩
  | @pops v r tadr =>
    have htadr : Stays t { t with tadr } := ⟨⟨rfl, .refl _⟩, rfl, rfl, rfl, rfl⟩
    have hpop := htadr.trans (stays_insertChcr (v := v) (htadr.dirForced ht) (.inr (.inl rfl)))
    exact ⟨hpop.toKeepsMode.trans ⟨rfl, .refl _⟩, hpop.queue, congrArg EeDmatag.qwc hpop.dmaTag⟩

theorem ofReg_injective : Function.Injective EeDmacLocation.ofReg := by
  intro r r' h
  have haddr := congrArg EeDmacLocation.addr h
  have hspr := congrArg EeDmacLocation.spr h
  simp only [EeDmacLocation.ofReg] at haddr hspr
  apply BitVec.eq_of_getLsbD_eq
  intro i hi
  by_cases h31 : i = 31
  · rw [h31]
    exact hspr
  · have hbit := congrArg (fun v => v.getLsbD i) haddr
    simpa only [BitVec.getLsbD_setWidth, decide_eq_true (show i < 31 by omega), Bool.true_and] using hbit

/-- The tag is MADR. -/
theorem madr_referTag (t : EeDmacTurn) : t.referTag.madr = t.chcr.dmaTag.tag1 :=
  ofReg_injective (ofReg_referTag t)

/-- What the handler of a tag of a destination chain leaves. -/
structure HandledDest (t t' : EeDmacTurn) : Prop extends Handled t t' where
  /-- The tag. -/
  dmaTag : t'.chcr.dmaTag = t.chcr.dmaTag
  /-- MADR. -/
  madr : t'.madr = t.chcr.dmaTag.tag1

theorem handled_dstChainInstruction (t : EeDmacTurn) : Ensures (HandledDest t) t.dstChainInstruction := by
  unfold dstChainInstruction
  split
  · exact .ok ⟨⟨⟨rfl, .refl _⟩, rfl, rfl⟩, rfl, madr_referTag t.setTagStall⟩
  · exact .ok ⟨⟨⟨rfl, .refl _⟩, rfl, rfl⟩, rfl, madr_referTag t⟩
  · exact .ok ⟨⟨⟨rfl, .refl _⟩, rfl, rfl⟩, rfl, madr_referTag t⟩
  · exact .error _

/-! ### A source chain -/

/-- What a turn of a source chain does that sends its tags too. -/
inductive SourceTurn (t t' : EeDmacTurn) : Prop where
  /-- It sends nothing. -/
  | stay : Stays t t' → SourceTurn t t'
  /-- It sends a quadword. -/
  | data {queue queue' : DmaFifoQueue} {q : Uqword} : KeepsMode t t' → t.dmaFifoQueue = some queue → 0 < t.qwc →
      readQwordMemory t.memory t.transferAddress t.transferSpr = .ok q → t'.dmaFifoQueue = some queue' →
      queue'.bytes = queue.bytes ++ bytes 16 q → t'.qwc = t.qwc - 1 → SourceTurn t t'
  /-- It sends a tag. -/
  | tag {queue queue' : DmaFifoQueue} {tadr : Uword} {q : Uqword} : KeepsMode t t' → t.dmaFifoQueue = some queue →
      t.qwc = 0 → t.tadr = some tadr →
      readQwordMemory t.memory (EeDmacAddr.addr.extractFrom tadr) (0 < EeDmacAddr.spr.extractFrom tadr) = .ok q →
      t'.dmaFifoQueue = some queue' → queue'.bytes = queue.bytes ++ bytes 16 (Uqword.ofWords (q.uw 2) (q.uw 3) 0 0) →
      t'.qwc = (EeDmatag.ofUqword q).qwc → SourceTurn t t'

theorem sourceTurn_chainData (hdir : t.chcr.direction = .TO) (h8 : t.channelId ≠ 8) (h9 : t.channelId ≠ 9)
    (hqwc : 0 < t.qwc) : Ensures (SourceTurn t) t.chainData := by
  unfold chainData
  split_ifs with hstall
  · exact .ok (.stay ⟨⟨rfl, .refl _⟩, rfl, rfl, rfl, rfl⟩)
  · refine (dataMoved_transferData t).bind fun r h => ?_
    cases h with
    | spr hid => exact absurd hid (not_or.mpr ⟨h8, h9⟩)
    | starved => exact .ok (.stay (.refl t))
    | received hfrom =>
      rw [hdir] at hfrom
      cases hfrom
    | blocked => exact .ok (.stay (.refl t))
    | @sent queue queue' q _ hqueue hread hwrite =>
      have hoff : (t.sent queue').isSourceStallControlOn = false := isSourceStallControlOn_of_TO hdir
      simp only [Nat.one_ne_zero, if_false, hoff, Bool.false_eq_true, false_and]
      exact .ok (.data ⟨rfl, .refl _⟩ hqueue hqwc hread rfl (DmaFifoQueue.bytes_of_write hwrite) rfl)

/-- The turn that reads a tag. -/
theorem sourceTurn_chainTag (ht : t.DirForced) (hdir : t.chcr.direction = .TO) (htte : tte.extractFrom t.chcr.w ≠ 0)
    (hqwc : t.qwc = 0) : Ensures (SourceTurn t) t.chainTag := by
  intro t' h
  rw [chainTag, hdir] at h
  obtain ⟨⟨read, t₁⟩, hread, h⟩ := bind_eq_ok_iff.mp h
  obtain ⟨tadr, htadr, hread⟩ := bind_eq_ok_iff.mp hread
  obtain ⟨q, hq, hread⟩ := bind_eq_ok_iff.mp hread
  rw [if_pos htte] at hread
  obtain ⟨queue, hqueue, hread⟩ := bind_eq_ok_iff.mp hread
  dsimp only at h
  split_ifs at hread with hroom
  · obtain ⟨rfl, rfl⟩ := Prod.mk.inj (Except.ok.inj hread)
    obtain rfl := Except.ok.inj h
    exact .stay (.refl t)
  · obtain ⟨queue', hwrite, hread⟩ := bind_eq_ok_iff.mp hread
    obtain ⟨rfl, rfl⟩ := Prod.mk.inj (Except.ok.inj hread)
    obtain ⟨t₂, hhandle, h⟩ := bind_eq_ok_iff.mp h
    obtain rfl := Except.ok.inj h
    rw [Bool.not_eq_true', Bool.not_eq_false] at hroom
    have hkeeps : KeepsMode t { t with dmaFifoQueue := some queue', chcr := { t.chcr with dmaTag := .ofUqword q } } :=
      ⟨rfl, .refl _⟩
    have hhandled := handled_srcChainInstruction (hkeeps.dirForced ht) _ hhandle
    have hmode := hkeeps.trans hhandled.toKeepsMode
    have hnote := stays_noteTag (hmode.dirForced ht)
    exact .tag (hmode.trans hnote.toKeepsMode) (deref_eq_ok_iff.mp hqueue) hqwc (deref_eq_ok_iff.mp htadr) hq
      (hnote.queue.trans hhandled.queue) (DmaFifoQueue.bytes_of_write hwrite) (hnote.qwc.trans hhandled.qwc)

/-- A turn of a source chain that sends its tags too. -/
theorem sourceTurn_channelTurn (ht : t.DirForced) (h8 : t.channelId ≠ 8) (h9 : t.channelId ≠ 9)
    (hmod : mod.extractFrom t.chcr.w = 1) (hdir : t.chcr.direction = .TO) (htte : tte.extractFrom t.chcr.w ≠ 0) :
    Ensures (SourceTurn t) t.channelTurn := by
  have hmod' : (mod.extractFrom t.chcr.w).toNat = 1 := by rw [hmod]; rfl
  rw [channelTurn, hmod']
  split_ifs
  · change Ensures (SourceTurn t) t.transferChain
    unfold transferChain
    split_ifs with hstarted hqwc hexit
    · exact .ok (.stay ⟨⟨rfl, .refl _⟩, rfl, rfl, rfl, rfl⟩)
    · exact sourceTurn_chainData hdir h8 h9 hqwc
    · exact (stays_suspendWhenEmpty ht).mono fun _ => .stay
    · exact sourceTurn_chainTag ht hdir htte (by bv_omega)
  · exact .ok (.stay (.refl t))

/-! ### A destination chain -/

/-- What a turn of a destination chain does. -/
inductive DestTurn (t t' : EeDmacTurn) : Prop where
  /-- It takes nothing. -/
  | stay : Stays t t' → DestTurn t t'
  /-- It takes a quadword. -/
  | data {queue queue' : DmaFifoQueue} {packet : List Ubyte} : KeepsMode t t' → t.dmaFifoQueue = some queue →
      0 < t.qwc → t'.dmaFifoQueue = some queue' → queue.bytes = packet ++ queue'.bytes → packet.length = 16 →
      writeQwordMemory t.memory t.transferAddress t.transferSpr (ofBytes 128 packet) = .ok t'.memory →
      t'.madr = t.madr + 0x10 → t'.qwc = t.qwc - 1 → DestTurn t t'
  /-- It takes a tag. -/
  | tag {queue queue' : DmaFifoQueue} {packet : List Ubyte} : KeepsMode t t' → t.dmaFifoQueue = some queue →
      t.qwc = 0 → t'.dmaFifoQueue = some queue' → queue.bytes = packet ++ queue'.bytes → packet.length = 16 →
      t'.chcr.dmaTag = EeDmatag.ofUqword (ofBytes 128 packet) → t'.madr = t'.chcr.dmaTag.tag1 →
      t'.qwc = t'.chcr.dmaTag.qwc → DestTurn t t'

theorem destTurn_chainData (hdir : t.chcr.direction = .FROM) (h8 : t.channelId ≠ 8) (h9 : t.channelId ≠ 9)
    (hqwc : 0 < t.qwc) : Ensures (DestTurn t) t.chainData := by
  have hstall {t' : EeDmacTurn} (h : DestTurn t t') : DestTurn t t'.setDmacStallControlStadr := by
    cases h with
    | stay h => exact .stay ⟨⟨h.channelId, h.control⟩, h.queue, h.qwc, h.madr, h.dmaTag⟩
    | data h hqueue hqwc hqueue' hbytes hlen hwrite hmadr hqwc' =>
      exact .data ⟨h.channelId, h.control⟩ hqueue hqwc hqueue' hbytes hlen hwrite hmadr hqwc'
    | tag h hqueue hqwc hqueue' hbytes hlen htag hmadr hqwc' =>
      exact .tag ⟨h.channelId, h.control⟩ hqueue hqwc hqueue' hbytes hlen htag hmadr hqwc'
  have htransfer : Ensures (fun r => DestTurn t r.2) t.transferData := by
    refine (dataMoved_transferData t).mono fun r h => ?_
    cases h with
    | spr hid => exact absurd hid (not_or.mpr ⟨h8, h9⟩)
    | starved => exact .stay (.refl t)
    | received _ hqueue hread hwrite =>
      obtain ⟨hbytes, hlen⟩ := DmaFifoQueue.bytes_of_read hread
      exact .data ⟨rfl, .refl _⟩ hqueue hqwc rfl hbytes hlen hwrite rfl rfl
    | blocked => exact .stay (.refl t)
    | sent hto =>
      rw [hdir] at hto
      cases hto
  unfold chainData
  split_ifs
  · exact .ok (.stay ⟨⟨rfl, .refl _⟩, rfl, rfl, rfl, rfl⟩)
  · refine htransfer.bind fun r hr => ?_
    dsimp only
    split_ifs
    · exact .ok hr
    · exact .ok (hstall hr)
    · exact .ok hr

/-- The turn that reads a tag. -/
theorem destTurn_chainTag (ht : t.DirForced) (hdir : t.chcr.direction = .FROM) (hqwc : t.qwc = 0) :
    Ensures (DestTurn t) t.chainTag := by
  intro t' h
  rw [chainTag, hdir] at h
  obtain ⟨⟨read, t₁⟩, hread, h⟩ := bind_eq_ok_iff.mp h
  obtain ⟨queue, hqueue, hread⟩ := bind_eq_ok_iff.mp hread
  dsimp only at h
  split_ifs at hread with havail htte
  · obtain ⟨rfl, rfl⟩ := Prod.mk.inj (Except.ok.inj hread)
    obtain rfl := Except.ok.inj h
    exact .stay (.refl t)
  · obtain ⟨_, -, hread⟩ := bind_eq_ok_iff.mp hread
    cases hread
  · obtain ⟨⟨packet, queue'⟩, htake, hread⟩ := bind_eq_ok_iff.mp hread
    obtain ⟨rfl, rfl⟩ := Prod.mk.inj (Except.ok.inj hread)
    obtain ⟨t₂, hhandle, h⟩ := bind_eq_ok_iff.mp h
    obtain rfl := Except.ok.inj h
    rw [Bool.not_eq_true', Bool.not_eq_false] at havail
    obtain ⟨hbytes, hlen⟩ := DmaFifoQueue.bytes_of_read htake
    have hkeeps : KeepsMode t
        { t with dmaFifoQueue := some queue', chcr := { t.chcr with dmaTag := .ofUqword (ofBytes 128 packet) } } :=
      ⟨rfl, .refl _⟩
    have hhandled := handled_dstChainInstruction _ _ hhandle
    have hmode := hkeeps.trans hhandled.toKeepsMode
    have hnote := stays_noteTag (hmode.dirForced ht)
    have htag := hnote.dmaTag.trans hhandled.dmaTag
    refine .tag (hmode.trans hnote.toKeepsMode) (deref_eq_ok_iff.mp hqueue) hqwc (hnote.queue.trans hhandled.queue) hbytes
      hlen htag ?_ ?_
    · rw [hnote.madr, hhandled.madr, htag]
    · rw [hnote.qwc, hhandled.qwc, htag]

/-- A turn of a destination chain. -/
theorem destTurn_channelTurn (ht : t.DirForced) (h8 : t.channelId ≠ 8) (h9 : t.channelId ≠ 9)
    (hmod : mod.extractFrom t.chcr.w = 1) (hdir : t.chcr.direction = .FROM) : Ensures (DestTurn t) t.channelTurn := by
  have hmod' : (mod.extractFrom t.chcr.w).toNat = 1 := by rw [hmod]; rfl
  rw [channelTurn, hmod']
  split_ifs
  · change Ensures (DestTurn t) t.transferChain
    unfold transferChain
    split_ifs with hstarted hqwc hexit
    · exact .ok (.stay ⟨⟨rfl, .refl _⟩, rfl, rfl, rfl, rfl⟩)
    · exact destTurn_chainData hdir h8 h9 hqwc
    · exact (stays_suspendWhenEmpty ht).mono fun _ => .stay
    · exact destTurn_chainTag ht hdir (by bv_omega)
  · exact .ok (.stay (.refl t))

end EeDmacTurn

end Orbum
