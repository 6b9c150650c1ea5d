import Orbum.Ee.Dmac.SourceTag

/-!
# Source chains

A source chain from its first tag to the one that ends it, and what a turn of its channel makes of it: the turn starts
the transfer, reads a tag, sends a quadword, ends the transfer or waits for the FIFO.

## The model

`SourceChain` says which tags memory holds, each with the quadwords it denotes. `Sends` is a channel in the middle of
a chain, stall control being off, with the quadwords of its last tag that are still to be sent and the tags still to be
read; `Under` keeps of these what is left to send and how many turns that takes. `Goes` and `Stops` are what a turn
comes to.

`D_CTRL.STD = 0` stands for no stall control and yet selects channel 0, so a chain of channel 0 also needs `Drains`:
from its first REFS tag on, its data must lie below `D_STADR`.
-/

namespace Orbum

open LittleEndian

/-! ### Chains -/

/-- A tag of a chain with the data it denotes. -/
structure EeDmacPacket where
  /-- What the tag stands for. -/
  meaning : EeDmacTagMeaning
  /-- The quadwords, first to last. -/
  data : List Uqword

open EeDmacTurn EeDmatag

/-- From `p` on, memory holds a chain of CNT, NEXT, REF and REFS tags and, last, a REFE or an END; TIE is `tie`. -/
inductive EeDmacImage.SourceChain (img : EeDmacImage) (tie : Uword) : EeDmacLocation → List EeDmacPacket → Prop where
  /-- The tag that ends the chain. -/
  | last {p : EeDmacLocation} {q : Uqword} {e : EeDmacTagMeaning} {data : List Uqword} : img.tagAt p = some q →
      (ofUqword q).id ≠ 5 → (ofUqword q).id ≠ 6 → (ofUqword q).srcMeaning 0 p = some e → e.ends = true →
      img.Block e.data data → data.length = (ofUqword q).qwc.toNat → SourceChain img tie p [⟨e, data⟩]
  /-- A tag that goes on to the next. -/
  | tag {p : EeDmacLocation} {q : Uqword} {e : EeDmacTagMeaning} {data : List Uqword} {ks : List EeDmacPacket} :
      img.tagAt p = some q → (ofUqword q).id ≠ 5 → (ofUqword q).id ≠ 6 → (ofUqword q).srcMeaning 0 p = some e →
      e.ends = false → NoIrq tie (ofUqword q) → img.Block e.data data → data.length = (ofUqword q).qwc.toNat →
      SourceChain img tie e.next ks → SourceChain img tie p (⟨e, data⟩ :: ks)

/-- A tag that leaves the address stack alone means the same at any height of it. -/
theorem EeDmatag.srcMeaning_asp {τ : EeDmatag} (h5 : τ.id ≠ 5) (h6 : τ.id ≠ 6) (asp : Uword) (p : EeDmacLocation) :
    τ.srcMeaning asp p = τ.srcMeaning 0 p := by
  have h5 : τ.id.toNat ≠ 5 := fun h => h5 (BitVec.eq_of_toNat_eq h)
  have h6 : τ.id.toNat ≠ 6 := fun h => h6 (BitVec.eq_of_toNat_eq h)
  unfold srcMeaning
  split <;> first | rfl | exact absurd ‹_› h5 | exact absurd ‹_› h6

/-- `n` quadwords from here on lie far enough below `D_STADR` for stall control. -/
def EeDmacLocation.Drained (l : EeDmacLocation) (stadr : Uword) (n : ℕ) : Prop :=
  ∀ j < n, (l.after j).addr.toNat + 8 ≤ stadr.toNat

/-- So does the data of a chain from its first REFS on, `stalls` telling whether there has been one before. -/
def Drains (stadr : Uword) : Bool → List EeDmacPacket → Prop
  | _, [] => True
  | stalls, k :: ks => ((stalls || k.meaning.stalls) = true → k.meaning.data.Drained stadr k.data.length) ∧
      Drains stadr (stalls || k.meaning.stalls) ks

instance (l : EeDmacLocation) (stadr : Uword) (n : ℕ) : Decidable (l.Drained stadr n) :=
  inferInstanceAs (Decidable (∀ j < n, _))

instance Drains.decidable (stadr : Uword) : ∀ (stalls : Bool) (ks : List EeDmacPacket), Decidable (Drains stadr stalls ks)
  | _, [] => isTrue trivial
  | stalls, k :: ks =>
    have := Drains.decidable stadr (stalls || k.meaning.stalls) ks
    inferInstanceAs (Decidable (_ ∧ _))

namespace EeDmacTurn

open EeDmacChcr EeDmacLocation EeDmacCtrl

/-! ### A chain under way -/

/-- A chain under way, of which the quadwords `qs` of the last tag read and the packets `ks` are left. -/
structure Sends (img : EeDmacImage) (t : EeDmacTurn) (qs : List Uqword) (ks : List EeDmacPacket) : Prop where
  /-- It is not the channel from the scratchpad. -/
  not8 : t.channelId ≠ 8
  /-- Nor the one to the scratchpad. -/
  not9 : t.channelId ≠ 9
  /-- The channel has a FIFO. -/
  queue : t.dmaFifoQueue.isSome
  /-- Its register forces the direction it has. -/
  dirForced : t.DirForced
  /-- It is started. -/
  str : str.extractFrom t.chcr.w ≠ 0
  /-- In chain mode. -/
  mod : mod.extractFrom t.chcr.w = 1
  /-- Towards the FIFO. -/
  direction : t.chcr.direction = .TO
  /-- Without the tags. -/
  tte : tte.extractFrom t.chcr.w = 0
  /-- Drain stall control is off. -/
  std : std.extractFrom t.ctrl = 0
  /-- QWC. -/
  qwc : t.qwc.toNat = qs.length
  /-- The quadwords left are at MADR. -/
  block : img.Block (ofReg t.madr) qs
  /-- The packets left are at TADR, unless the last tag ends the transfer. -/
  rest : (t.chcr.tagExit = true ∧ ks = []) ∨ (t.chainExit = false ∧
    ∃ r, t.tadr = some r ∧ img.SourceChain (tie.extractFrom t.chcr.w) (ofReg r) ks)
  /-- Channel 0 has nothing left that stall control holds back. -/
  drains : t.channelId = 0 → (t.chcr.tagStall = true → (ofReg t.madr).Drained t.stadr qs.length) ∧
    Drains t.stadr t.chcr.tagStall ks

/-- How many turns are left that find the FIFO empty, at most. -/
def work (t : EeDmacTurn) (qs : List Uqword) (ks : List EeDmacPacket) : ℕ :=
  (!t.chcr.dmaStarted).toNat + qs.length + (ks.map fun k => 1 + k.data.length).sum + 1

/-- A chain under way with `left` still to send, in at most `n` turns that find the FIFO empty. -/
def Under (img : EeDmacImage) (left : List Uqword) (n : ℕ) (t : EeDmacTurn) : Prop :=
  ∃ qs ks, Sends img t qs ks ∧ qs ++ ks.flatMap EeDmacPacket.data = left ∧ t.work qs ks = n

/-- The turn leaves the transfer under way, having sent some quadwords. -/
structure Goes (img : EeDmacImage) (queue : DmaFifoQueue) (left : List Uqword) (n : ℕ) (t t' : EeDmacTurn) : Prop where
  /-- D_STAT is as before. -/
  stat : t'.stat = t.stat
  /-- What is sent goes from what is left into the FIFO, and a turn that finds the FIFO empty gets on. -/
  under : ∃ sent left' n' queue', left = sent ++ left' ∧ Under img left' n' t' ∧ t'.dmaFifoQueue = some queue' ∧
    queue'.bytes = queue.bytes ++ sent.flatMap (bytes 16) ∧ n' ≤ n ∧ (queue.bytes = [] → n' < n)

/-- The turn ends the transfer, with everything sent and taken. -/
structure Stops (queue : DmaFifoQueue) (left : List Uqword) (t t' : EeDmacTurn) : Prop where
  /-- Nothing is left. -/
  left : left = []
  /-- The FIFO is empty. -/
  empty : queue.bytes = []
  /-- It stays so. -/
  queue : t'.dmaFifoQueue = t.dmaFifoQueue
  /-- `STR` is cleared. -/
  str : EeDmacChcr.str.extractFrom t'.chcr.w = 0
  /-- The bit of the channel is set. -/
  cis : t'.stat = (EeDmacStat.cis t.channelId).insertInto t.stat 1

variable {img : EeDmacImage} {t : EeDmacTurn} {qs left : List Uqword} {ks : List EeDmacPacket} {queue : DmaFifoQueue}
  {n : ℕ}

/-- The turn of a channel in chain mode. -/
theorem Sends.channelTurn_eq (h : Sends img t qs ks) : t.channelTurn = t.transferChain := by
  rw [channelTurn, if_pos h.str, h.mod]
  rfl

/-- Stall control does not hold the channel back. -/
theorem Sends.not_stalled {q : Uqword} (h : Sends img t (q :: qs) ks) :
    ¬(t.isDrainStallControlOn ∧ t.isDrainStallControlWaiting ∧ t.chcr.tagStall) := by
  rintro ⟨hon, hwaiting, hstall⟩
  have hid : t.channelId = 0 := by
    simp only [isDrainStallControlOn, h.std, decide_eq_true_eq] at hon
    exact Fin.ext hon.2
  have hdrained := (h.drains hid).1 hstall 0 (Nat.zero_lt_succ _)
  simp only [isDrainStallControlWaiting, decide_eq_true_eq, extractFrom_addr] at hwaiting
  rw [after_zero] at hdrained
  have := (ofReg t.madr).addr.isLt
  bv_omega

/-- The first turn. -/
theorem Sends.start (h : Sends img t qs ks) (hqueue : t.dmaFifoQueue = some queue) (hs : t.chcr.dmaStarted = false) :
    ∃ t', t.transferChain = .ok t' ∧ Goes img queue (qs ++ ks.flatMap EeDmacPacket.data) (t.work qs ks) t t' := by
  refine ⟨{ t with chcr := { t.chcr with dmaStarted := true } }, ?_, rfl, [], _, _, queue, rfl,
    ⟨qs, ks, ?_, rfl, rfl⟩, hqueue, (List.append_nil _).symm, ?_⟩
  · rw [transferChain, hs]
    rfl
  · exact ⟨h.not8, h.not9, h.queue, ⟨h.dirForced.sif0, h.dirForced.sif1⟩, h.str, h.mod, h.direction, h.tte, h.std,
      h.qwc, h.block, h.rest, h.drains⟩
  · simp only [work, hs, Bool.not_false, Bool.toNat_true, Bool.not_true, Bool.toNat_false]
    omega

/-- A turn that changes nothing, while the FIFO holds something. -/
theorem Sends.wait (h : Sends img t qs ks) (hqueue : t.dmaFifoQueue = some queue) (hne : queue.bytes ≠ []) :
    Goes img queue (qs ++ ks.flatMap EeDmacPacket.data) (t.work qs ks) t t :=
  ⟨rfl, [], _, _, queue, rfl, ⟨qs, ks, h, rfl, rfl⟩, hqueue, (List.append_nil _).symm, Nat.le_refl _,
    fun he => absurd he hne⟩

theorem drained_after {l : EeDmacLocation} {stadr : Uword} (h : l.Drained stadr (n + 1)) :
    (l.after 1).Drained stadr n := by
  intro j hj
  rw [after_after, Nat.add_comm 1]
  exact h (j + 1) (Nat.succ_lt_succ hj)

/-- The turn that sends a quadword, or waits for room. -/
theorem Sends.send {q : Uqword} (h : Sends img t (q :: qs) ks) (himg : img.Holds t.memory)
    (hqueue : t.dmaFifoQueue = some queue) (hs : t.chcr.dmaStarted = true) :
    ∃ t', t.transferChain = .ok t' ∧
      Goes img queue (q :: qs ++ ks.flatMap EeDmacPacket.data) (t.work (q :: qs) ks) t t' := by
  have hqwc : t.qwc.toNat = qs.length + 1 := h.qwc
  have hchain : t.transferChain = t.chainData := by
    rw [transferChain, hs, if_neg (by decide), if_pos (show (0 : Uword) < t.qwc by bv_omega)]
  by_cases hroom : (queue.bytes ++ bytes 16 q).length ≤ 1024
  · refine ⟨_, hchain.trans (chainData_ok h.direction h.not8 h.not9 hqueue h.not_stalled himg h.block.1 hroom), rfl,
      [q], qs ++ ks.flatMap EeDmacPacket.data, t.work qs ks, _, rfl, ⟨qs, ks, ?_, rfl, rfl⟩, rfl, ?_, ?_⟩
    · have hmadr : qs ≠ [] → ofReg (t.madr + 0x10) = (ofReg t.madr).after 1 := fun hne => ofReg_add_qword (h.block.2.1 hne)
      refine ⟨h.not8, h.not9, rfl, ⟨h.dirForced.sif0, h.dirForced.sif1⟩, h.str, h.mod, h.direction, h.tte, h.std,
        ?_, ?_, h.rest, fun hid => ⟨fun hstall => ?_, (h.drains hid).2⟩⟩
      · change (t.qwc - 1).toNat = _
        bv_omega
      · change img.Block (ofReg (t.madr + 0x10)) qs
        cases qs with
        | nil => trivial
        | cons q' qs =>
          rw [hmadr (List.cons_ne_nil _ _)]
          exact h.block.2.2
      · change (ofReg (t.madr + 0x10)).Drained t.stadr qs.length
        cases qs with
        | nil => exact fun j hj => absurd hj (Nat.not_lt_zero j)
        | cons q' qs =>
          rw [hmadr (List.cons_ne_nil _ _)]
          exact drained_after ((h.drains hid).1 hstall)
    · rw [List.flatMap_cons, List.flatMap_nil, List.append_nil]
    · simp only [work, List.length_cons]
      omega
  · rw [List.length_append, length_bytes] at hroom
    refine ⟨t, hchain.trans (chainData_full h.direction h.not8 h.not9 hqueue h.not_stalled hroom), h.wait hqueue ?_⟩
    rintro hempty
    rw [hempty] at hroom
    exact hroom (by decide)

/-- A tag that was read leaves its data to be sent. -/
theorem Sends.afterTag (h : Sends img t [] ks) {t' : EeDmacTurn} {q : Uqword} {e : EeDmacTagMeaning}
    {data : List Uqword} {ks' : List EeDmacPacket} (ht : AfterTag t t' q e) (hqueue : t'.dmaFifoQueue.isSome)
    (hblock : img.Block e.data data) (hlength : data.length = (ofUqword q).qwc.toNat)
    (hrest : (e.ends = true ∧ ks' = []) ∨ (e.ends = false ∧ t.chcr.tagExit = false ∧
      NoIrq (tie.extractFrom t.chcr.w) (ofUqword q) ∧ img.SourceChain (tie.extractFrom t.chcr.w) e.next ks'))
    (hdrains : t.channelId = 0 → Drains t.stadr t.chcr.tagStall (⟨e, data⟩ :: ks')) : Sends img t' data ks' := by
  have hid : t'.channelId = t.channelId := by rw [ht.others]
  have hctrl : t'.ctrl = t.ctrl := by rw [ht.others]
  have hstadr : t'.stadr = t.stadr := by rw [ht.others]
  have hdir : t'.chcr.direction = .TO := by
    rw [direction_eq_TO_iff, ht.control _ (by decide)]
    exact (direction_eq_TO_iff _).mp h.direction
  have htie : tie.extractFrom t'.chcr.w = tie.extractFrom t.chcr.w := ht.control _ (by decide)
  have hexit : t'.chcr.tagExit = (t.chcr.tagExit || e.ends) := by rw [ht.flags]
  have hirq : t'.chcr.tagIrq = (ofUqword q).irq := by rw [ht.flags]
  have hstall : t'.chcr.tagStall = (t.chcr.tagStall || e.stalls) := by rw [ht.flags]
  refine ⟨hid ▸ h.not8, hid ▸ h.not9, hqueue, ⟨fun h5 => ?_, fun _ => hdir⟩, ?_, ?_, hdir, ?_, hctrl ▸ h.std, ?_, ?_, ?_, ?_⟩
  · exact absurd (h.dirForced.sif0 (hid ▸ h5)) (by rw [h.direction]; decide)
  · rw [ht.control _ (by decide)]
    exact h.str
  · rw [ht.control _ (by decide)]
    exact h.mod
  · rw [ht.control _ (by decide)]
    exact h.tte
  · rw [ht.qwc, hlength]
  · rwa [ht.madr]
  · rcases hrest with ⟨hends, hks⟩ | ⟨hends, hnot, hno, hchain⟩
    · exact .inl ⟨by rw [hexit, hends, Bool.or_true], hks⟩
    · obtain ⟨r, hr, hnext⟩ := ht.tadr
      refine .inr ⟨?_, r, hr, by rwa [htie, hnext]⟩
      rw [chainExit, htie, hexit, hirq, hnot, hends]
      rcases hno with h0 | h0
      · rw [h0]
        rfl
      · simp [h0]
  · intro h0
    rw [hstall, hstadr, ht.madr]
    exact hdrains (hid ▸ h0)

/-- The turn that reads a tag. -/
theorem Sends.tag (h : Sends img t [] ks) (himg : img.Holds t.memory) (hqueue : t.dmaFifoQueue = some queue)
    (hs : t.chcr.dmaStarted = true) (hexit : t.chainExit = false) :
    ∃ t', t.transferChain = .ok t' ∧ Goes img queue (ks.flatMap EeDmacPacket.data) (t.work [] ks) t t' := by
  have hqwc : t.qwc = 0 := BitVec.eq_of_toNat_eq h.qwc
  have hchain : t.transferChain = t.chainTag := by
    rw [transferChain, hs, hqwc, hexit]
    rfl
  have hnot : t.chcr.tagExit = false := by
    simp only [chainExit, decide_eq_false_iff_not, not_or, Bool.not_eq_true] at hexit
    exact hexit.2
  obtain ⟨r, hr, hks⟩ : ∃ r, t.tadr = some r ∧ img.SourceChain (EeDmacChcr.tie.extractFrom t.chcr.w) (ofReg r) ks := by
    rcases h.rest with ⟨hends, -⟩ | ⟨-, hks⟩
    · exact absurd (hnot.symm.trans hends) (by decide)
    · exact hks
  -- what every tag does; what differs is what is left behind it
  have hread {q : Uqword} {e : EeDmacTagMeaning} {data : List Uqword} {ks' : List EeDmacPacket}
      (hq : img.tagAt (ofReg r) = some q) (h5 : (ofUqword q).id ≠ 5) (h6 : (ofUqword q).id ≠ 6)
      (he : (ofUqword q).srcMeaning 0 (ofReg r) = some e) (hblock : img.Block e.data data)
      (hlength : data.length = (ofUqword q).qwc.toNat) (hrest : (e.ends = true ∧ ks' = []) ∨ (e.ends = false ∧
        t.chcr.tagExit = false ∧ NoIrq (EeDmacChcr.tie.extractFrom t.chcr.w) (ofUqword q) ∧
        img.SourceChain (EeDmacChcr.tie.extractFrom t.chcr.w) e.next ks'))
      (hdrains : t.channelId = 0 → Drains t.stadr t.chcr.tagStall (⟨e, data⟩ :: ks')) :
      ∃ t', t.chainTag = .ok t' ∧ Goes img queue (data ++ ks'.flatMap EeDmacPacket.data)
        (t.work [] (⟨e, data⟩ :: ks')) t t' := by
    have hbytes : tagBytes t.chcr.w q = [] := if_neg (not_not_intro h.tte)
    have hroom : (queue.bytes ++ tagBytes t.chcr.w q).length ≤ 1024 := by
      rw [hbytes, List.append_nil]
      exact queue.bounded
    obtain ⟨t', h1, hafter, hqueue'⟩ := chainTag_ok h.direction hr hqueue himg h.dirForced hq
      ((srcMeaning_asp h5 h6 _ _).trans he) hroom
    have hstarted : t'.chcr.dmaStarted = t.chcr.dmaStarted := by rw [hafter.flags]
    have hsends := h.afterTag hafter (by rw [hqueue']; rfl) hblock hlength hrest hdrains
    refine ⟨t', h1, by rw [hafter.others], [], _, _, _, rfl, ⟨_, _, hsends, rfl, rfl⟩, hqueue', ?_, ?_⟩
    · exact congrArg (queue.bytes ++ ·) hbytes
    · simp only [work, hstarted, List.length_nil, List.map_cons, List.sum_cons]
      omega
  rw [hchain]
  cases hks with
  | last hq h5 h6 he hends hblock hlength =>
    simpa using hread hq h5 h6 he hblock hlength (.inl ⟨hends, rfl⟩) fun h0 => (h.drains h0).2
  | tag hq h5 h6 he hends hno hblock hlength hnext =>
    simpa using hread hq h5 h6 he hblock hlength (.inr ⟨hends, hnot, hno, hnext⟩) fun h0 => (h.drains h0).2

/-- The turn that ends the transfer, or waits until everything is taken. -/
theorem Sends.stop (h : Sends img t [] ks) (hqueue : t.dmaFifoQueue = some queue) (hs : t.chcr.dmaStarted = true)
    (hexit : t.chainExit = true) :
    ∃ t', t.transferChain = .ok t' ∧ (Goes img queue (ks.flatMap EeDmacPacket.data) (t.work [] ks) t t' ∨
      Stops queue (ks.flatMap EeDmacPacket.data) t t') := by
  have hqwc : t.qwc = 0 := BitVec.eq_of_toNat_eq h.qwc
  have hchain : t.transferChain = t.suspendWhenEmpty := by
    rw [transferChain, hs, hqwc, hexit]
    rfl
  have hks : ks = [] := by
    rcases h.rest with ⟨-, hks⟩ | ⟨hnot, -⟩
    · exact hks
    · exact absurd (hexit.symm.trans hnot) (by decide)
  by_cases hempty : queue.bytes = []
  · obtain ⟨f240, heq⟩ := insertChcr_eq (t := { t with stat := (EeDmacStat.cis t.channelId).insertInto t.stat 1 })
      ⟨h.dirForced.sif0, h.dirForced.sif1⟩ (f := EeDmacChcr.str) (by decide) 0 fun hstr => h.str hstr.1
    refine ⟨t.setStateSuspended, ?_, .inr ⟨?_, hempty, ?_, ?_, ?_⟩⟩
    · rw [hchain, suspendWhenEmpty, if_pos ⟨h.direction, h.not9⟩, hqueue, deref_some, ok_bind,
        DmaFifoQueue.isEmpty_iff.mpr hempty]
      rfl
    · rw [hks, List.flatMap_nil]
    · rw [setStateSuspended, heq]
    · rw [setStateSuspended, heq]
      dsimp only
      rw [Bitfield.extractFrom_insertInto_self _ _ _ (by decide)]
      decide
    · rw [setStateSuspended, heq]
  · have hnot : queue.isEmpty = false := by rwa [← Bool.not_eq_true, DmaFifoQueue.isEmpty_iff]
    refine ⟨t, ?_, .inl (h.wait hqueue hempty)⟩
    rw [hchain, suspendWhenEmpty, if_pos ⟨h.direction, h.not9⟩, hqueue, deref_some, ok_bind, hnot]
    rfl

/-- The peripheral at its end of the FIFO. -/
theorem Under.setQueue (h : Under img left n t) (queue : DmaFifoQueue) :
    Under img left n { t with dmaFifoQueue := some queue } := by
  obtain ⟨qs, ks, h, rfl, rfl⟩ := h
  exact ⟨qs, ks, ⟨h.not8, h.not9, rfl, ⟨h.dirForced.sif0, h.dirForced.sif1⟩, h.str, h.mod, h.direction, h.tte, h.std,
    h.qwc, h.block, h.rest, h.drains⟩, rfl, rfl⟩

/-- What a turn of the channel comes to. -/
theorem Under.turn (h : Under img left n t) (himg : img.Holds t.memory) (hqueue : t.dmaFifoQueue = some queue) :
    ∃ t', t.channelTurn = .ok t' ∧ (Goes img queue left n t t' ∨ Stops queue left t t') := by
  obtain ⟨qs, ks, h, rfl, rfl⟩ := h
  have hgoes {t' : EeDmacTurn} {left : List Uqword} {n : ℕ}
      (h : t.transferChain = .ok t' ∧ Goes img queue left n t t') :
      t.transferChain = .ok t' ∧ (Goes img queue left n t t' ∨ Stops queue left t t') := h.imp_right .inl
  rw [h.channelTurn_eq]
  cases hs : t.chcr.dmaStarted with
  | false => exact (h.start hqueue hs).imp fun _ => hgoes
  | true =>
    cases qs with
    | cons q qs => exact (h.send himg hqueue hs).imp fun _ => hgoes
    | nil =>
      cases hexit : t.chainExit with
      | false => exact (h.tag himg hqueue hs hexit).imp fun _ => hgoes
      | true => exact h.stop hqueue hs hexit

end EeDmacTurn

end Orbum
