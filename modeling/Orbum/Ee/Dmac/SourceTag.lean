import Orbum.Ee.Dmac.Location

/-!
# One tag, one quadword

What a turn of a source chain does: `transfer_chain` where it reads a tag, and where it moves a quadword
from memory to the FIFO.

## The model

`TagMeaning` is what a tag at a location stands for: where its data is, where the next tag is, whether the
transfer ends with it and whether it turns stall control on. `srcMeaning` gives it for the tags that do not
touch the address stack; `AfterTag` says that a turn has put it into the registers.
-/

namespace Orbum

open LittleEndian

/-! ### The control register -/

namespace EeDmacChcr

/-- The two words differ in TAG only. -/
def ButTag (w w' : Uword) : Prop := ∀ f : Bitfield, f.Disjoint tag → f.extractFrom w' = f.extractFrom w

theorem ButTag.trans {w w' w'' : Uword} (h : ButTag w w') (h' : ButTag w' w'') : ButTag w w'' :=
  fun f hf => (h' f hf).trans (h f hf)

theorem direction_eq_FROM_iff (c : EeDmacChcr) : c.direction = .FROM ↔ dir.extractFrom c.w = 0 := by
  rw [direction]
  split_ifs with h
  · exact ⟨fun _ => h, fun _ => rfl⟩
  · exact ⟨fun hc => absurd hc (by decide), fun hc => absurd hc h⟩

theorem direction_eq_TO_iff (c : EeDmacChcr) : c.direction = .TO ↔ dir.extractFrom c.w ≠ 0 := by
  rw [direction]
  split_ifs with h
  · exact ⟨fun hc => absurd hc (by decide), fun hc => absurd h hc⟩
  · exact ⟨fun _ => h, fun _ => rfl⟩

/-- A write that does not start the channel leaves the flags alone. -/
theorem writeUword_eq {c : EeDmacChcr} {value : Uword}
    (h : ¬(str.extractFrom c.w = 0 ∧ str.extractFrom value ≠ 0)) : c.writeUword value = { c with w := value } :=
  if_neg h

end EeDmacChcr

namespace EeDmacTurn

open EeDmacChcr EeDmacLocation

/-- SIF0 goes from its FIFO and SIF1 to it: their registers force DIR at every write. -/
structure DirForced (t : EeDmacTurn) : Prop where
  /-- SIF0. -/
  sif0 : t.channelId = 5 → t.chcr.direction = .FROM
  /-- SIF1. -/
  sif1 : t.channelId = 6 → t.chcr.direction = .TO

/-- Inserting a field of the control register changes that field and, for a SIF channel, SBUS_F240. -/
theorem insertChcr_eq {t : EeDmacTurn} (ht : t.DirForced) {f : Bitfield} (hf : dir.Disjoint f) (v : Uword)
    (hstr : ¬(str.extractFrom t.chcr.w = 0 ∧ str.extractFrom (f.insertInto t.chcr.w v) ≠ 0)) :
    ∃ f240, t.insertChcr f v =
      { t with sbusF240 := f240, chcr := { t.chcr with w := f.insertInto t.chcr.w v } } := by
  have hdir : dir.extractFrom (f.insertInto t.chcr.w v) = dir.extractFrom t.chcr.w :=
    Bitfield.extractFrom_insertInto_of_disjoint _ _ hf
  rw [insertChcr, writeChcr]
  split_ifs with h5 h6 h7
  · have hw := Bitfield.and_not_one (hdir.trans ((direction_eq_FROM_iff _).mp (ht.sif0 h5)))
    rw [writeChcrSif0, hw, writeUword_eq hstr]
    dsimp only
    split_ifs
    · exact ⟨_, rfl⟩
    · exact ⟨_, rfl⟩
  · have hw := Bitfield.or_one (hdir.symm ▸ (direction_eq_TO_iff _).mp (ht.sif1 h6))
    rw [writeChcrSif1, hw, writeUword_eq hstr]
    dsimp only
    split_ifs
    · exact ⟨_, rfl⟩
    · exact ⟨_, rfl⟩
  · rw [writeChcrSif2, writeUword_eq hstr]
    dsimp only
    split_ifs
    · exact ⟨_, rfl⟩
    · exact ⟨_, rfl⟩
    · exact ⟨_, rfl⟩
  · rw [writeUword_eq hstr]
    exact ⟨_, rfl⟩

/-- `noteTag` sets TAG and the IRQ flag. -/
theorem noteTag_eq {t : EeDmacTurn} (ht : t.DirForced) : ∃ f240 w', ButTag t.chcr.w w' ∧
    t.noteTag = { t with sbusF240 := f240, chcr := { t.chcr with w := w', tagIrq := t.chcr.dmaTag.irq } } := by
  have hbut : ButTag t.chcr.w (EeDmacChcr.tag.insertInto t.chcr.w t.chcr.dmaTag.tag) :=
    fun f hf => Bitfield.extractFrom_insertInto_of_disjoint _ _ hf
  obtain ⟨f240, h⟩ := insertChcr_eq (t := { t with chcr := { t.chcr with tagIrq := t.chcr.dmaTag.irq } })
    ⟨ht.sif0, ht.sif1⟩ (f := EeDmacChcr.tag) (by decide) t.chcr.dmaTag.tag
    (by rw [hbut str (by decide)]; exact fun h => h.2 h.1)
  exact ⟨f240, _, hbut, h⟩

end EeDmacTurn

/-! ### What a tag stands for -/

/-- What a tag stands for. -/
structure EeDmacTagMeaning where
  /-- Where its data begins. -/
  data : EeDmacLocation
  /-- Where the next tag is. -/
  next : EeDmacLocation
  /-- The transfer ends with its data. -/
  ends : Bool
  /-- Its data and what follows is subject to stall control. -/
  stalls : Bool

namespace EeDmatag

/-- What a source chain tag at `p` stands for, `asp` being the height of the address stack; `none` where it
pushes or pops an address, or where the next tag would be past the end of the address space. -/
def srcMeaning (asp : Uword) (p : EeDmacLocation) (τ : EeDmatag) : Option EeDmacTagMeaning :=
  match τ.id.toNat with
  | 0 => if p.Within 1 then some ⟨τ.location, p.after 1, true, false⟩ else none
  | 1 => some ⟨p.after 1, p.after (τ.qwc.toNat + 1), false, false⟩
  | 2 => some ⟨p.after 1, τ.location, false, false⟩
  | 3 => if p.Within 1 then some ⟨τ.location, p.after 1, false, false⟩ else none
  | 4 => if p.Within 1 then some ⟨τ.location, p.after 1, false, true⟩ else none
  | 5 => if 2 ≤ asp then some ⟨p.after 1, τ.location, true, false⟩ else none
  | 6 => if asp = 0 then some ⟨p.after 1, p, true, false⟩ else none
  | _ => some ⟨p.after 1, p, true, false⟩

end EeDmatag

namespace EeDmacTurn

open EeDmacChcr EeDmacLocation EeDmatag

variable {t : EeDmacTurn}

theorem ofReg_followTag (t : EeDmacTurn) (r : Uword) : ofReg (t.followTag r).madr = (ofReg r).after 1 := by
  simp only [followTag, ofReg_insertInto_spr, ofReg_insertInto_addr, extractFrom_addr, extractFrom_spr]
  ext1
  · simp only [after]
    bv_omega
  · simp [after]

theorem ofReg_referTag (t : EeDmacTurn) : ofReg t.referTag.madr = t.chcr.dmaTag.location := by
  simp only [referTag, ofReg_insertInto_spr, ofReg_insertInto_addr, setWidth_addr, getLsbD_spr]

theorem ofReg_jumpTag (t : EeDmacTurn) (r : Uword) : ofReg (t.jumpTag r) = t.chcr.dmaTag.location := by
  simp only [jumpTag, ofReg_insertInto_spr, ofReg_insertInto_addr, setWidth_addr, getLsbD_spr]

theorem ofReg_nextTag (r : Uword) (τ : EeDmatag) :
    ofReg (EeDmacAddr.addr.insertInto r (EeDmacAddr.addr.extractFrom r + (τ.qwc + 1) * 0x10)) =
      (ofReg r).after (τ.qwc.toNat + 1) := by
  have hq := τ.qwc_lt
  rw [ofReg_insertInto_addr, extractFrom_addr]
  ext1
  · simp only [after]
    bv_omega
  · rfl

/-- The registers after the handler of a tag that means `e`. -/
structure AfterHandler (t t' : EeDmacTurn) (e : EeDmacTagMeaning) : Prop where
  /-- QWC is the tag's. -/
  qwc : t'.qwc = t.chcr.dmaTag.qwc
  /-- MADR is where the data is. -/
  madr : ofReg t'.madr = e.data
  /-- TADR is where the next tag is. -/
  tadr : ∃ r, t'.tadr = some r ∧ ofReg r = e.next
  /-- The flags the tag sets. -/
  chcr : t'.chcr = { t.chcr with
    tagExit := t.chcr.tagExit || e.ends
    tagStall := t.chcr.tagStall || e.stalls }
  /-- All else stays. -/
  others : t' = { t with qwc := t'.qwc, madr := t'.madr, tadr := t'.tadr, chcr := t'.chcr }

theorem srcChainInstruction_ok {r : Uword} {e : EeDmacTagMeaning} (hr : t.tadr = some r)
    (he : t.chcr.dmaTag.srcMeaning (asp.extractFrom t.chcr.w) (ofReg r) = some e) :
    ∃ t', t.srcChainInstruction = .ok t' ∧ AfterHandler t t' e := by
  rw [srcMeaning] at he
  split at he
  · rename_i hid
    split_ifs at he with hw
    obtain rfl := Option.some.inj he
    have hhandler : t.srcChainInstruction = t.chainSrcRefe := by simp only [srcChainInstruction, hid]
    simp only [hhandler, chainSrcRefe, chainSrcRef, hr, deref_some, ok_bind, pure_eq_ok]
    exact ⟨_, rfl, rfl, ofReg_referTag t, ⟨_, rfl, ofReg_add_qword hw⟩, by simp [setTagExit, referTag], rfl⟩
  · rename_i hid
    obtain rfl := Option.some.inj he
    have hhandler : t.srcChainInstruction = t.chainSrcCnt := by simp only [srcChainInstruction, hid]
    simp only [hhandler, chainSrcCnt, hr, deref_some, ok_bind, pure_eq_ok]
    exact ⟨_, rfl, rfl, ofReg_followTag t r, ⟨_, rfl, ofReg_nextTag r _⟩, by simp [followTag], rfl⟩
  · rename_i hid
    obtain rfl := Option.some.inj he
    have hhandler : t.srcChainInstruction = t.chainSrcNext := by simp only [srcChainInstruction, hid]
    simp only [hhandler, chainSrcNext, hr, deref_some, ok_bind, pure_eq_ok]
    exact ⟨_, rfl, rfl, ofReg_followTag t r, ⟨_, rfl, ofReg_jumpTag t r⟩, by simp [followTag], rfl⟩
  · rename_i hid
    split_ifs at he with hw
    obtain rfl := Option.some.inj he
    have hhandler : t.srcChainInstruction = t.chainSrcRef := by simp only [srcChainInstruction, hid]
    simp only [hhandler, chainSrcRef, hr, deref_some, ok_bind, pure_eq_ok]
    exact ⟨_, rfl, rfl, ofReg_referTag t, ⟨_, rfl, ofReg_add_qword hw⟩, by simp [referTag], rfl⟩
  · rename_i hid
    split_ifs at he with hw
    obtain rfl := Option.some.inj he
    have hr' : t.setTagStall.tadr = some r := hr
    have hhandler : t.srcChainInstruction = t.chainSrcRefs := by simp only [srcChainInstruction, hid]
    simp only [hhandler, chainSrcRefs, chainSrcRef, hr', deref_some, ok_bind, pure_eq_ok]
    exact ⟨_, rfl, rfl, ofReg_referTag t, ⟨_, rfl, ofReg_add_qword hw⟩, by simp [setTagStall, referTag], rfl⟩
  · rename_i hid
    split_ifs at he with hw
    obtain rfl := Option.some.inj he
    have hasp : 2 ≤ asp.extractFrom (t.followTag r).chcr.w := hw
    have hhandler : t.srcChainInstruction = t.chainSrcCall := by simp only [srcChainInstruction, hid]
    simp only [hhandler, chainSrcCall, hr, deref_some, ok_bind, pure_eq_ok, hasp, if_true]
    exact ⟨_, rfl, rfl, ofReg_followTag t r, ⟨_, rfl, ofReg_jumpTag t r⟩, by simp [setTagExit, followTag], rfl⟩
  · rename_i hid
    split_ifs at he with hw
    obtain rfl := Option.some.inj he
    have hr' : t.setTagExit.tadr = some r := hr
    have hhandler : t.srcChainInstruction = t.chainSrcRet := by simp only [srcChainInstruction, hid]
    simp only [hhandler, chainSrcRet, hw, if_true, hr', deref_some, ok_bind, pure_eq_ok]
    exact ⟨_, rfl, rfl, ofReg_followTag t r, ⟨_, hr, rfl⟩, by simp [setTagExit, followTag], rfl⟩
  · obtain rfl := Option.some.inj he
    simp only [srcChainInstruction, chainSrcEnd, hr, deref_some, ok_bind, pure_eq_ok]
    exact ⟨_, rfl, rfl, ofReg_followTag t r, ⟨_, hr, rfl⟩, by simp [setTagExit, followTag], rfl⟩

/-! ### The turn that reads a tag -/

/-- The tag does not end a transfer by an interrupt, TIE being `tie`. -/
def NoIrq (tie : Uword) (τ : EeDmatag) : Prop := tie = 0 ∨ τ.irq = false

/-- What goes into the FIFO with the tag in `q`, when the control register is `w`. -/
def tagBytes (w : Uword) (q : Uqword) : List Ubyte :=
  if tte.extractFrom w ≠ 0 then bytes 16 (Uqword.ofWords (q.uw 2) (q.uw 3) 0 0) else []

/-- The registers after a turn that read the tag in `q`, which means `e`. -/
structure AfterTag (t t' : EeDmacTurn) (q : Uqword) (e : EeDmacTagMeaning) : Prop where
  /-- QWC is the tag's. -/
  qwc : t'.qwc = (ofUqword q).qwc
  /-- MADR is where the data is. -/
  madr : ofReg t'.madr = e.data
  /-- TADR is where the next tag is. -/
  tadr : ∃ r, t'.tadr = some r ∧ ofReg r = e.next
  /-- The control register keeps its fields. -/
  control : ButTag t.chcr.w t'.chcr.w
  /-- The flags. -/
  flags : t'.chcr = { t.chcr with
    w := t'.chcr.w
    tagExit := t.chcr.tagExit || e.ends
    tagStall := t.chcr.tagStall || e.stalls
    tagIrq := (ofUqword q).irq
    dmaTag := ofUqword q }
  /-- All else stays, but for the FIFO and SBUS_F240. -/
  others : t' = { t with
    sbusF240 := t'.sbusF240
    dmaFifoQueue := t'.dmaFifoQueue
    qwc := t'.qwc
    madr := t'.madr
    tadr := t'.tadr
    chcr := t'.chcr }

section

variable {img : EeDmacImage} {r : Uword} {queue : DmaFifoQueue} {q : Uqword} {e : EeDmacTagMeaning}

theorem readQwordMemory_tag (himg : img.Holds t.memory) (hq : img.tagAt (ofReg r) = some q) :
    readQwordMemory t.memory (EeDmacAddr.addr.extractFrom r) (0 < EeDmacAddr.spr.extractFrom r) = .ok q := by
  rw [extractFrom_addr, spr_pos]
  exact himg _ _ _ hq

/-- A turn with the tag in `q` read and, if it is to be, sent. -/
def withTag (t : EeDmacTurn) (q : Uqword) (queue : DmaFifoQueue) : EeDmacTurn :=
  { t with dmaFifoQueue := some queue, chcr := { t.chcr with dmaTag := ofUqword q } }

theorem readChainSourceTag_ok (hr : t.tadr = some r) (hqueue : t.dmaFifoQueue = some queue)
    (himg : img.Holds t.memory) (hq : img.tagAt (ofReg r) = some q)
    (hroom : (queue.bytes ++ tagBytes t.chcr.w q).length ≤ 1024) :
    t.readChainSourceTag = .ok (true, t.withTag q ⟨queue.bytes ++ tagBytes t.chcr.w q, hroom⟩) := by
  simp only [readChainSourceTag, hr, deref_some, ok_bind, readQwordMemory_tag himg hq, hqueue]
  split_ifs with htte hfull
  · rw [tagBytes, if_pos htte, List.length_append, length_bytes] at hroom
    rw [DmaFifoQueue.hasWriteAvailable_iff.mpr hroom] at hfull
    exact absurd hfull (by decide)
  · have hb : tagBytes t.chcr.w q = bytes 16 (Uqword.ofWords (q.uw 2) (q.uw 3) 0 0) := if_pos htte
    rw [DmaFifoQueue.write_eq (by rwa [← hb])]
    simp only [ok_bind, hb, ← hr]
    rfl
  · have hb : tagBytes t.chcr.w q = [] := if_neg htte
    have : (⟨queue.bytes ++ tagBytes t.chcr.w q, hroom⟩ : DmaFifoQueue) = queue := by
      ext1
      simp only [hb, List.append_nil]
    rw [this, withTag, ← hqueue, ← hr]
    rfl

/-- The turn of a source chain that reads a tag, up to the handler of the tag. -/
theorem chainTag_eq (hdir : t.chcr.direction = .TO) (hr : t.tadr = some r) (hqueue : t.dmaFifoQueue = some queue)
    (himg : img.Holds t.memory) (hq : img.tagAt (ofReg r) = some q)
    (hroom : (queue.bytes ++ tagBytes t.chcr.w q).length ≤ 1024) :
    t.chainTag = do
      return (← (t.withTag q ⟨queue.bytes ++ tagBytes t.chcr.w q, hroom⟩).srcChainInstruction).noteTag := by
  simp only [chainTag, hdir, readChainSourceTag_ok hr hqueue himg hq hroom, ok_bind, Bool.not_true, Bool.false_eq_true,
    if_false]

/-- The turn of a source chain that reads a tag which leaves the address stack alone. -/
theorem chainTag_ok (hdir : t.chcr.direction = .TO) (hr : t.tadr = some r) (hqueue : t.dmaFifoQueue = some queue)
    (himg : img.Holds t.memory) (hforced : t.DirForced) (hq : img.tagAt (ofReg r) = some q)
    (he : (ofUqword q).srcMeaning (asp.extractFrom t.chcr.w) (ofReg r) = some e)
    (hroom : (queue.bytes ++ tagBytes t.chcr.w q).length ≤ 1024) :
    ∃ t', t.chainTag = .ok t' ∧ AfterTag t t' q e ∧
      t'.dmaFifoQueue = some ⟨queue.bytes ++ tagBytes t.chcr.w q, hroom⟩ := by
  obtain ⟨t₁, h1, hafter⟩ :=
    srcChainInstruction_ok (t := t.withTag q ⟨queue.bytes ++ tagBytes t.chcr.w q, hroom⟩) hr he
  obtain ⟨f240, w', hbut, h2⟩ := noteTag_eq (t := t₁) (by
    rw [hafter.others, hafter.chcr]
    exact ⟨hforced.sif0, hforced.sif1⟩)
  refine ⟨t₁.noteTag, ?_, ?_, ?_⟩
  · rw [chainTag_eq hdir hr hqueue himg hq hroom, h1]
    rfl
  · have hchcr := hafter.chcr
    have hothers := hafter.others
    rw [h2]
    refine ⟨hafter.qwc, hafter.madr, hafter.tadr, ?_, ?_, ?_⟩
    · rw [hchcr] at hbut
      exact hbut
    · simp only [hchcr, withTag]
    · rw [hothers]
      rfl
  · rw [h2, hafter.others]
    rfl

/-! ### The turn that moves a quadword -/

/-- Only a transfer from a FIFO is a source of stall control. -/
theorem isSourceStallControlOn_of_TO (hdir : t.chcr.direction = .TO) : t.isSourceStallControlOn = false := by
  simp [isSourceStallControlOn, hdir]

/-- Nothing moves while the FIFO is full. -/
theorem chainData_full (hdir : t.chcr.direction = .TO) (h8 : t.channelId ≠ 8) (h9 : t.channelId ≠ 9)
    (hqueue : t.dmaFifoQueue = some queue)
    (hstall : ¬(t.isDrainStallControlOn ∧ t.isDrainStallControlWaiting ∧ t.chcr.tagStall))
    (hfull : ¬queue.bytes.length + 16 ≤ 1024) : t.chainData = .ok t := by
  have hroom : queue.hasWriteAvailable 16 = false := by
    rw [← Bool.not_eq_true, DmaFifoQueue.hasWriteAvailable_iff]
    exact hfull
  simp only [chainData, if_neg hstall, transferData, h8, h9, or_self, if_false, transferDataFifo, hqueue, deref_some,
    ok_bind, hdir, hroom, Bool.not_false, if_true, pure_eq_ok]

/-- The turn of a source chain that moves a quadword. -/
theorem chainData_ok (hdir : t.chcr.direction = .TO) (h8 : t.channelId ≠ 8) (h9 : t.channelId ≠ 9)
    (hqueue : t.dmaFifoQueue = some queue)
    (hstall : ¬(t.isDrainStallControlOn ∧ t.isDrainStallControlWaiting ∧ t.chcr.tagStall))
    (himg : img.Holds t.memory) (hq : img.dataAt (ofReg t.madr) = some q)
    (hroom : (queue.bytes ++ bytes 16 q).length ≤ 1024) :
    t.chainData = .ok (t.sent ⟨queue.bytes ++ bytes 16 q, hroom⟩) := by
  have hread : readQwordMemory t.memory t.transferAddress t.transferSpr = .ok q := by
    rw [transferAddress, transferSpr, extractFrom_addr, spr_pos]
    exact himg _ _ _ hq
  have havail : queue.hasWriteAvailable 16 = true := by
    rw [DmaFifoQueue.hasWriteAvailable_iff]
    simpa using hroom
  have hoff : (t.sent ⟨queue.bytes ++ bytes 16 q, hroom⟩).isSourceStallControlOn = false :=
    isSourceStallControlOn_of_TO hdir
  simp only [chainData, if_neg hstall, transferData, h8, h9, or_self, if_false, transferDataFifo, hqueue, deref_some,
    ok_bind, hdir, havail, Bool.not_true, Bool.false_eq_true, hread, DmaFifoQueue.write_eq hroom, pure_eq_ok,
    Nat.one_ne_zero, hoff, false_and]

end

end EeDmacTurn

end Orbum
