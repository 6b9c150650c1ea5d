import Orbum.Ee.Dmac.SourceTag
import Orbum.Ee.Dmac.Turn

/-!
# CALL and RET in source chains

`CHAIN_SRC_CALL` pushes an address on the stack of two ASR registers and jumps, `CHAIN_SRC_RET` pops it.
What is pushed is not the address after the CALL but the one after its target, because TADR has been
overwritten by then; what is popped is the register above the one pushed, of which only the SPR bit reaches
TADR, as its address; MADR is computed after that. A RET two calls deep reads past the two registers.

## The model

`Subroutine` describes a well nested run of tags up to the RET that ends it, as memory holds it: how deep
its own calls nest and how many tags come before the RET. `execTags` executes tags one after another with the
turns of the channel, each tag's data sent in between: `DataPhase` is what happens to the channel
meanwhile, under any schedule of its turns and of the consumer of its FIFO, and `afterData` where it ends.
-/

namespace Orbum.EeDmacTurn

open LittleEndian EeDmacChcr EeDmacLocation EeDmatag

/-! ### The data of a tag -/

/-- The channel once all the data of a tag is sent, and consumed. -/
def afterData (t : EeDmacTurn) : EeDmacTurn :=
  { t with madr := t.madr + t.qwc * 0x10, qwc := 0, dmaFifoQueue := t.dmaFifoQueue.map fun _ => .empty }

/-- Turns that move data, with the FIFO changing hands in between. -/
inductive DataPhase : EeDmacTurn → EeDmacTurn → Prop where
  /-- No more of them. -/
  | done (t : EeDmacTurn) : DataPhase t t
  /-- A turn, while there is data. -/
  | turn {t t' t'' : EeDmacTurn} : 0 < t.qwc → t.chainData = .ok t' → DataPhase t' t'' → DataPhase t t''
  /-- The consumer at its end of the FIFO. -/
  | consumer {t t'' : EeDmacTurn} (queue : DmaFifoQueue) :
      DataPhase { t with dmaFifoQueue := some queue } t'' → DataPhase t t''

/-- What a turn that moves data to the FIFO can do. -/
theorem chainData_cases {t t' : EeDmacTurn} (h : t.chainData = .ok t') (hdir : t.chcr.direction = .TO)
    (h8 : t.channelId ≠ 8) (h9 : t.channelId ≠ 9) :
    t' = t.setDmacStallControlSis ∨ t' = t ∨ ∃ queue, t' = t.sent queue := by
  rw [chainData] at h
  split_ifs at h with hstall
  · exact .inl (Except.ok.inj h).symm
  · obtain ⟨r, hmoved, h⟩ := bind_eq_ok_iff.mp h
    cases dataMoved_transferData t r hmoved with
    | spr hid => exact absurd hid (not_or.mpr ⟨h8, h9⟩)
    | starved => exact .inr (.inl (Except.ok.inj h).symm)
    | received hfrom =>
      rw [hdir] at hfrom
      cases hfrom
    | blocked => exact .inr (.inl (Except.ok.inj h).symm)
    | @sent queue queue' =>
      have hoff : (t.sent queue').isSourceStallControlOn = false := isSourceStallControlOn_of_TO hdir
      simp only [Nat.one_ne_zero, if_false, hoff, Bool.false_eq_true, false_and, pure_eq_ok] at h
      exact .inr (.inr ⟨queue', (Except.ok.inj h).symm⟩)

/-- Whatever the schedule, the channel comes to the same in the end. -/
theorem DataPhase.afterData_eq {t t' : EeDmacTurn} (h : DataPhase t t') (hdir : t.chcr.direction = .TO)
    (h8 : t.channelId ≠ 8) (h9 : t.channelId ≠ 9) (hqueue : t.dmaFifoQueue.isSome) :
    t'.afterData = { t.afterData with stat := t'.stat } := by
  induction h with
  | done t => rfl
  | @turn t t₁ t₂ hqwc hturn _ ih =>
    rcases chainData_cases hturn hdir h8 h9 with rfl | rfl | ⟨queue, rfl⟩
    · exact (ih hdir h8 h9 hqueue).trans rfl
    · exact ih hdir h8 h9 hqueue
    · obtain ⟨old, hold⟩ := Option.isSome_iff_exists.mp hqueue
      rw [ih hdir h8 h9 rfl]
      have hmadr : t.madr + 0x10 + (t.qwc - 1) * 0x10 = t.madr + t.qwc * 0x10 := by
        bv_omega
      simp only [afterData, sent, advance, hold, Option.map_some, hmadr]
  | consumer queue _ ih =>
    obtain ⟨old, hold⟩ := Option.isSome_iff_exists.mp hqueue
    rw [ih hdir h8 h9 rfl]
    simp only [afterData, hold, Option.map_some]

/-- Once all the data is sent and consumed, the channel is what `afterData` says, but for the bits raised in D_STAT. -/
theorem DataPhase.eq_afterData {t t' : EeDmacTurn} (h : DataPhase t t') (hdir : t.chcr.direction = .TO)
    (h8 : t.channelId ≠ 8) (h9 : t.channelId ≠ 9) (hqueue : t.dmaFifoQueue.isSome) (hsent : t'.qwc = 0)
    (hconsumed : t'.dmaFifoQueue = some .empty) : t' = { t.afterData with stat := t'.stat } := by
  have hdone : t'.afterData = t' := by
    have hmadr : t'.madr + 0 * 0x10 = t'.madr := by bv_omega
    rw [afterData, hsent, hmadr, hconsumed, Option.map_some, ← hsent, ← hconsumed]
  rw [← h.afterData_eq hdir h8 h9 hqueue, hdone]

/-! ### Executing tags -/

/-- The next `n` tags, each with its data. -/
def execTags : ℕ → EeDmacTurn → Except HostError EeDmacTurn
  | 0, t => .ok t
  | n + 1, t => do execTags n (← t.transferChain).afterData

theorem execTags_add (m n : ℕ) (t : EeDmacTurn) : execTags (m + n) t = execTags m t >>= execTags n := by
  induction m generalizing t with
  | zero => rw [Nat.zero_add, execTags, ok_bind]
  | succ m ih =>
    rw [Nat.succ_add, execTags, execTags]
    cases t.transferChain with
    | error e => rfl
    | ok t' => exact ih t'.afterData

/-- A well nested run of tags from `p` on: `n` tags, whose calls nest `d` deep, and then the RET at `r`. -/
inductive Subroutine (img : EeDmacImage) (tie : Uword) : ℕ → EeDmacLocation → ℕ → EeDmacLocation → Prop where
  /-- The RET. -/
  | ret {p : EeDmacLocation} {q : Uqword} : img.tagAt p = some q → (ofUqword q).id = 6 → Subroutine img tie 0 p 0 p
  /-- A tag that goes on to the next. -/
  | step {p r : EeDmacLocation} {q : Uqword} {e : EeDmacTagMeaning} {d n : ℕ} : img.tagAt p = some q →
      (ofUqword q).srcMeaning 1 p = some e → e.ends = false → NoIrq tie (ofUqword q) →
      Subroutine img tie d e.next n r → Subroutine img tie d p (n + 1) r
  /-- A CALL, its subroutine, and what follows its data. -/
  | call {p r s : EeDmacLocation} {q : Uqword} {d₁ d₂ m n : ℕ} : img.tagAt p = some q → (ofUqword q).id = 5 →
      NoIrq tie (ofUqword q) → Subroutine img tie d₁ (ofUqword q).location m s →
      Subroutine img tie d₂ (p.after ((ofUqword q).qwc.toNat + 1)) n r →
      Subroutine img tie (max (d₁ + 1) d₂) p (1 + m + 1 + n) r

/-- A channel with an address stack about to read the tag at `p`, with `asp` and `asr` on the stack. -/
structure AtTag (img : EeDmacImage) (tie : Uword) (t : EeDmacTurn) (p : EeDmacLocation) (asp : Uword)
    (asr : Vector Uword 2) : Prop where
  /-- It is VIF0, VIF1 or the GIF. -/
  channelId : t.channelId.val < 3
  /-- The transfer is under way. -/
  started : t.chcr.dmaStarted = true
  /-- It is a source chain. -/
  direction : t.chcr.direction = .TO
  /-- No data is left. -/
  qwc : t.qwc = 0
  /-- The last tag did not end the transfer. -/
  goesOn : t.chainExit = false
  /-- Where the tag is. -/
  tadr : ∃ r, t.tadr = some r ∧ ofReg r = p
  /-- The height of the stack. -/
  asp : EeDmacChcr.asp.extractFrom t.chcr.w = asp
  /-- The stack. -/
  asr : t.asr = some asr
  /-- The FIFO has room for the tag. -/
  queue : ∃ queue, t.dmaFifoQueue = some queue ∧ queue.bytes.length + 16 ≤ 1024
  /-- TIE. -/
  tie : EeDmacChcr.tie.extractFrom t.chcr.w = tie
  /-- The memory. -/
  memory : img.Holds t.memory

section

variable {img : EeDmacImage} {tie : Uword} {t t' : EeDmacTurn} {p r : EeDmacLocation} {k : Uword}
  {v : Vector Uword 2} {q : Uqword} {e : EeDmacTagMeaning} {d n : ℕ}

theorem tagBytes_room (queue : DmaFifoQueue) (w : Uword) (q : Uqword) (h : queue.bytes.length + 16 ≤ 1024) :
    (queue.bytes ++ tagBytes w q).length ≤ 1024 := by
  rw [List.length_append, tagBytes]
  split_ifs
  · rwa [length_bytes]
  · rw [List.length_nil]
    omega

namespace AtTag

theorem dirForced (h : AtTag img tie t p k v) : t.DirForced :=
  ⟨fun h5 => absurd h.channelId (by rw [h5]; decide), fun h6 => absurd h.channelId (by rw [h6]; decide)⟩

theorem transferChain_eq (h : AtTag img tie t p k v) : t.transferChain = t.chainTag := by
  rw [transferChain, h.started, h.qwc, h.goesOn]
  rfl

/-- The next tag read, once the data of this one is gone. -/
theorem of_chcr (h : AtTag img tie t p k v) {asp : Uword} {asr : Vector Uword 2} (hid : t'.channelId = t.channelId)
    (hmem : t'.memory = t.memory) (hbut : ButTag (EeDmacChcr.asp.insertInto t.chcr.w asp) t'.chcr.w)
    (hasp : EeDmacChcr.asp.extractFrom t'.chcr.w = asp)
    (hstarted : t'.chcr.dmaStarted = t.chcr.dmaStarted) (hexit : t'.chcr.tagExit = false)
    (hirq : tie = 0 ∨ t'.chcr.tagIrq = false) (htadr : ∃ reg, t'.tadr = some reg ∧ ofReg reg = r)
    (hasr : t'.asr = some asr) (hqueue : t'.dmaFifoQueue.isSome) : AtTag img tie t'.afterData r asp asr := by
  obtain ⟨queue, hqueue⟩ := Option.isSome_iff_exists.mp hqueue
  have hfield {f : Bitfield} (h1 : f.Disjoint EeDmacChcr.tag) (h2 : f.Disjoint EeDmacChcr.asp) :
      f.extractFrom t'.chcr.w = f.extractFrom t.chcr.w :=
    (hbut f h1).trans (Bitfield.extractFrom_insertInto_of_disjoint _ _ h2)
  have htie : EeDmacChcr.tie.extractFrom t'.chcr.w = tie := (hfield (by decide) (by decide)).trans h.tie
  refine ⟨?_, hstarted.trans h.started, ?_, rfl, ?_, htadr, hasp, hasr, ⟨.empty, ?_, by decide⟩, htie, ?_⟩
  · simpa only [afterData, hid] using h.channelId
  · have hdir := (direction_eq_TO_iff _).mp h.direction
    exact (direction_eq_TO_iff _).mpr (by rwa [← hfield (by decide) (by decide)] at hdir)
  · simp only [chainExit, afterData, hexit, htie]
    rcases hirq with h0 | h0
    · rw [h0]
      rfl
    · simp [h0]
  · simp only [afterData, hqueue, Option.map_some]
  · simpa only [afterData, hmem] using h.memory

/-- The turn at a tag that leaves the address stack alone. -/
theorem step (h : AtTag img tie t p k v) (hq : img.tagAt p = some q)
    (he : (ofUqword q).srcMeaning k p = some e) (hends : e.ends = false) (hirq : NoIrq tie (ofUqword q)) :
    ∃ t', t.transferChain = .ok t' ∧ AtTag img tie t'.afterData e.next k v := by
  obtain ⟨reg, hreg, rfl⟩ := h.tadr
  obtain ⟨queue, hqueue, hroom⟩ := h.queue
  obtain ⟨t', h1, h2, h3⟩ := chainTag_ok h.direction hreg hqueue h.memory h.dirForced hq (h.asp.symm ▸ he)
    (tagBytes_room queue t.chcr.w q hroom)
  have hothers := h2.others
  have hflags := h2.flags
  have hexit : t.chcr.tagExit = false := by
    have := h.goesOn
    simp only [chainExit] at this
    grind
  refine ⟨t', h.transferChain_eq.trans h1, ?_⟩
  refine h.of_chcr (by rw [hothers]) (by rw [hothers]) (fun f hf => ?_) ?_ (by rw [hflags]) (by
    rw [hflags]
    simp [hexit, hends]) ?_ h2.tadr ?_ (by rw [h3]; rfl)
  · rw [h2.control f hf, ← h.asp, Bitfield.insertInto_extractFrom]
  · rw [h2.control _ (by decide), h.asp]
  · rcases hirq with h0 | h0
    · exact .inl h0
    · exact .inr (by rw [hflags]; exact h0)
  · rw [hothers]
    exact h.asr

/-- Changing ASP does not start the channel. -/
theorem insertAsp_eq {u : EeDmacTurn} (hu : u.DirForced) (asp : Uword) : ∃ f240,
    u.insertChcr EeDmacChcr.asp asp =
      { u with sbusF240 := f240, chcr := { u.chcr with w := EeDmacChcr.asp.insertInto u.chcr.w asp } } := by
  refine insertChcr_eq hu (by decide) asp ?_
  rw [Bitfield.extractFrom_insertInto_of_disjoint _ _ (by decide)]
  exact fun h => h.2 h.1

theorem extractFrom_insertInto_asp (w asp : Uword) (h : asp.toNat < 4) :
    EeDmacChcr.asp.extractFrom (EeDmacChcr.asp.insertInto w asp) = asp := by
  rw [Bitfield.extractFrom_insertInto_self _ _ _ (by decide)]
  have : asp = 0 ∨ asp = 1 ∨ asp = 2 ∨ asp = 3 := by bv_omega
  rcases this with rfl | rfl | rfl | rfl <;> rfl

/-- The turn at a CALL with room on the stack: what is pushed is not where the CALL is. -/
theorem call (h : AtTag img tie t p k v) (hq : img.tagAt p = some q) (hid : (ofUqword q).id = 5)
    (hirq : NoIrq tie (ofUqword q)) (hk : k.toNat < 2) : ∃ t' pushed, t.transferChain = .ok t' ∧
      AtTag img tie t'.afterData (ofUqword q).location (k + 1) (v.set k.toNat pushed hk) := by
  obtain ⟨reg, hreg, rfl⟩ := h.tadr
  obtain ⟨queue, hqueue, hroom⟩ := h.queue
  have hasp : (EeDmacChcr.asp.extractFrom t.chcr.w) = k := h.asp
  have hnot : ¬2 ≤ k := by bv_omega
  have hforced := h.dirForced
  have hroom' := tagBytes_room queue t.chcr.w q hroom
  let u := t.withTag q ⟨queue.bytes ++ tagBytes t.chcr.w q, hroom'⟩
  let pushed := EeDmacAddr.spr.insertInto (EeDmacAddr.addr.insertInto (v.get ⟨k.toNat, hk⟩)
    (EeDmacAddr.addr.extractFrom (u.jumpTag reg) + 0x10)) (EeDmacAddr.spr.extractFrom (u.jumpTag reg))
  let u₁ : EeDmacTurn :=
    { u.followTag reg with tadr := some (u.jumpTag reg), asr := some (v.set k.toNat pushed hk) }
  have hcall : u.srcChainInstruction = .ok (u₁.insertChcr EeDmacChcr.asp (k + 1)) := by
    have hu : u.srcChainInstruction = u.chainSrcCall := by
      simp only [srcChainInstruction, show u.chcr.dmaTag.id = 5 from hid]
      rfl
    have hureg : u.tadr = some reg := hreg
    rw [hu, chainSrcCall, hureg, deref_some, ok_bind]
    have hwasp : EeDmacChcr.asp.extractFrom (u.followTag reg).chcr.w = k := h.asp
    simp only [hwasp, if_neg hnot]
    have huasr : (u.followTag reg).asr = some v := h.asr
    simp only [huasr, deref_some, ok_bind, dif_pos hk]
    rfl
  obtain ⟨f₁, h1⟩ := insertAsp_eq (u := u₁) ⟨hforced.sif0, hforced.sif1⟩ (k + 1)
  obtain ⟨f₂, w', hbut, h2⟩ := noteTag_eq (t := u₁.insertChcr EeDmacChcr.asp (k + 1)) (by
    have hdir : (u₁.insertChcr EeDmacChcr.asp (k + 1)).channelId = t.channelId := by rw [h1]; rfl
    exact ⟨fun h5 => absurd h.channelId (by rw [← hdir, h5]; decide),
      fun h6 => absurd h.channelId (by rw [← hdir, h6]; decide)⟩)
  rw [h1] at hbut
  refine ⟨(u₁.insertChcr EeDmacChcr.asp (k + 1)).noteTag, pushed, ?_, ?_⟩
  · rw [h.transferChain_eq, chainTag_eq h.direction hreg hqueue h.memory hq hroom', hcall]
    rfl
  · have hexit : t.chcr.tagExit = false := by
      have := h.goesOn
      simp only [chainExit] at this
      grind
    rw [h2, h1]
    refine h.of_chcr rfl rfl hbut ?_ rfl hexit ?_ ⟨_, rfl, ofReg_jumpTag u reg⟩ rfl rfl
    · exact (hbut _ (by decide)).trans (extractFrom_insertInto_asp _ _ (by bv_omega))
    · rcases hirq with h0 | h0
      · exact .inl h0
      · exact .inr h0

/-- The turn at a RET with one address on the stack: TADR gets the SPR bit of the other one. -/
theorem ret (h : AtTag img tie t p 1 v) (hq : img.tagAt p = some q) (hid : (ofUqword q).id = 6) :
    ∃ t' reg, t.transferChain = .ok t' ∧ t'.tadr = some reg ∧
      ofReg reg = ⟨(BitVec.ofBool (ofReg (v.get 1)).spr).setWidth 31, p.spr⟩ ∧
      EeDmacChcr.asp.extractFrom t'.chcr.w = 0 ∧ t'.qwc = (ofUqword q).qwc ∧ ofReg t'.madr = (ofReg reg).after 1 := by
  obtain ⟨reg, hreg, rfl⟩ := h.tadr
  obtain ⟨queue, hqueue, hroom⟩ := h.queue
  have hforced := h.dirForced
  have hroom' := tagBytes_room queue t.chcr.w q hroom
  let u := t.withTag q ⟨queue.bytes ++ tagBytes t.chcr.w q, hroom'⟩
  let tadr := EeDmacAddr.addr.insertInto (EeDmacAddr.addr.insertInto reg (EeDmacAddr.addr.extractFrom (v.get 1)))
    (EeDmacAddr.spr.extractFrom (v.get 1))
  let u₁ : EeDmacTurn := { u with tadr := some tadr }
  obtain ⟨f₁, h1⟩ := insertAsp_eq (u := u₁) ⟨hforced.sif0, hforced.sif1⟩ (1 - 1)
  have hret : u.srcChainInstruction = .ok ((u₁.insertChcr EeDmacChcr.asp (1 - 1)).followTag tadr) := by
    have hu : u.srcChainInstruction = u.chainSrcRet := by
      simp only [srcChainInstruction, show u.chcr.dmaTag.id = 6 from hid]
      rfl
    have hwasp : EeDmacChcr.asp.extractFrom u.chcr.w = 1 := h.asp
    have hureg : deref u.tadr = .ok reg := congrArg deref hreg
    have huasr : deref u.asr = .ok v := congrArg deref h.asr
    have htadr : deref (u₁.insertChcr EeDmacChcr.asp (1 - 1)).tadr = .ok tadr := by
      rw [h1]
      rfl
    rw [hu, chainSrcRet, hwasp]
    simp only [hureg, huasr, ok_bind]
    rw [if_neg (by decide), dif_pos (by decide), pure_eq_ok, ok_bind]
    exact congrArg (· >>= fun reg => pure ((u₁.insertChcr EeDmacChcr.asp (1 - 1)).followTag reg)) htadr
  obtain ⟨f₂, w', hbut, h2⟩ := noteTag_eq (t := (u₁.insertChcr EeDmacChcr.asp (1 - 1)).followTag tadr) (by
    rw [h1]
    exact ⟨fun h5 => absurd h.channelId (by rw [show t.channelId = 5 from h5]; decide),
      fun h6 => absurd h.channelId (by rw [show t.channelId = 6 from h6]; decide)⟩)
  refine ⟨((u₁.insertChcr EeDmacChcr.asp (1 - 1)).followTag tadr).noteTag, tadr, ?_, ?_, ?_, ?_, ?_, ?_⟩
  · rw [h.transferChain_eq, chainTag_eq h.direction hreg hqueue h.memory hq hroom', hret]
    rfl
  · rw [h2, h1]
    rfl
  · simp only [tadr, ofReg_insertInto_addr, extractFrom_spr]
    ext1
    · ext i hi
      simp
    · rfl
  · have hasp0 : EeDmacChcr.asp.extractFrom (EeDmacChcr.asp.insertInto u₁.chcr.w (1 - 1)) = 0 := by
      rw [extractFrom_insertInto_asp _ _ (by decide)]
      decide
    have hw : EeDmacChcr.asp.extractFrom w' = _ := hbut _ (by decide)
    rw [h1] at hw
    dsimp only [followTag] at hw
    rw [h2, hw, hasp0]
  · rw [h2, h1]
    rfl
  · rw [h2]
    exact ofReg_followTag (u₁.insertChcr EeDmacChcr.asp (1 - 1)) tadr

/-- The turn at a RET with two addresses on the stack. -/
theorem ret_two (h : AtTag img tie t p 2 v) (hq : img.tagAt p = some q) (hid : (ofUqword q).id = 6) :
    t.transferChain = .error .outOfBounds := by
  obtain ⟨reg, hreg, rfl⟩ := h.tadr
  obtain ⟨queue, hqueue, hroom⟩ := h.queue
  have hroom' := tagBytes_room queue t.chcr.w q hroom
  let u := t.withTag q ⟨queue.bytes ++ tagBytes t.chcr.w q, hroom'⟩
  have hu : u.srcChainInstruction = u.chainSrcRet := by
    simp only [srcChainInstruction, show u.chcr.dmaTag.id = 6 from hid]
    rfl
  have hwasp : EeDmacChcr.asp.extractFrom u.chcr.w = 2 := h.asp
  have hureg : deref u.tadr = .ok reg := congrArg deref hreg
  have huasr : deref u.asr = .ok v := congrArg deref h.asr
  have hret : u.chainSrcRet = .error .outOfBounds := by
    rw [chainSrcRet, hwasp]
    simp only [hureg, huasr, ok_bind]
    rw [if_neg (by decide), dif_neg (by decide), error_bind]
  have htag : (t.withTag q ⟨queue.bytes ++ tagBytes t.chcr.w q, hroom'⟩).srcChainInstruction = .error .outOfBounds :=
    hu.trans hret
  rw [h.transferChain_eq, chainTag_eq h.direction hreg hqueue h.memory hq hroom', htag, error_bind]

end AtTag

/-! ### Subroutines -/

theorem srcMeaning_of_goesOn {asp asp' : Uword} {τ : EeDmatag} (he : τ.srcMeaning asp p = some e)
    (hends : e.ends = false) : τ.srcMeaning asp' p = some e := by
  rw [srcMeaning] at he ⊢
  split at he <;> first
    | exact he
    | (split_ifs at he; obtain rfl := Option.some.inj he; cases hends)

/-- A subroutine ends at a RET. -/
theorem Subroutine.tagAt_ret (hs : Subroutine img tie d p n r) : ∃ q, img.tagAt r = some q ∧ (ofUqword q).id = 6 := by
  induction hs with
  | ret hq hid => exact ⟨_, hq, hid⟩
  | step _ _ _ _ _ ih => exact ih
  | call _ _ _ _ _ _ ih => exact ih

/-- Without calls of its own a subroutine comes to its RET with the stack as it was. -/
theorem Subroutine.exec (hs : Subroutine img tie 0 p n r) (h : AtTag img tie t p k v) :
    ∃ t', execTags n t = .ok t' ∧ AtTag img tie t' r k v := by
  generalize hd : 0 = d at hs
  induction hs generalizing t with
  | ret => exact ⟨t, rfl, h⟩
  | step hq he hends hirq _ ih =>
    obtain ⟨t₁, h1, h2⟩ := h.step hq (srcMeaning_of_goesOn he hends) hends hirq
    obtain ⟨t₂, h3, h4⟩ := ih h2 hd
    exact ⟨t₂, by rw [execTags, h1, ok_bind, h3], h4⟩
  | call => omega

/-- With a call of its own, one deep, it does not come to its RET: the inner RET reads past the stack. -/
theorem Subroutine.exec_nested (hs : Subroutine img tie 1 p n r) (h : AtTag img tie t p 1 v) :
    ∃ e, execTags n t = .error e := by
  generalize hd : 1 = d at hs
  induction hs generalizing t v with
  | ret => omega
  | step hq he hends hirq _ ih =>
    obtain ⟨t₁, h1, h2⟩ := h.step hq (srcMeaning_of_goesOn he hends) hends hirq
    obtain ⟨e, h3⟩ := ih h2 hd
    exact ⟨e, by rw [execTags, h1, ok_bind, h3]⟩
  | @call p r s q d₁ d₂ m n hq hid hirq hs₁ _ _ _ =>
    obtain rfl : d₁ = 0 := by omega
    obtain ⟨t₁, pushed, h1, h2⟩ := h.call hq hid hirq (by decide)
    obtain ⟨t₂, h3, h4⟩ := hs₁.exec h2
    obtain ⟨q', hq', hid'⟩ := hs₁.tagAt_ret
    refine ⟨.outOfBounds, ?_⟩
    rw [show 1 + m + 1 + n = m + (n + 1) + 1 by omega, execTags, h1, ok_bind, execTags_add, h3, ok_bind, execTags,
      h4.ret_two hq' hid', error_bind]

/-! ### What a CALL and its RET come to -/

/-- The CALL `call` at `p` returns: after it, the `n` tags of its subroutine and the RET `ret` at `r`, the next
tag is the one that follows the data of the CALL, the stack is as high as before, and MADR and QWC name the
data that follows the RET. -/
def CallReturns (t : EeDmacTurn) (n : ℕ) (p r : EeDmacLocation) (call ret : EeDmatag) : Prop :=
  ∃ t₁ t₂, execTags (n + 1) t = .ok t₁ ∧ t₁.transferChain = .ok t₂ ∧
    (∃ reg, t₂.tadr = some reg ∧ ofReg reg = p.after (call.qwc.toNat + 1)) ∧
    EeDmacChcr.asp.extractFrom t₂.chcr.w = EeDmacChcr.asp.extractFrom t.chcr.w ∧
    t₂.qwc = ret.qwc ∧ ofReg t₂.madr = r.after 1

theorem after_one_inj {l l' : EeDmacLocation} (h : l.after 1 = l'.after 1) : l = l' := by
  simp only [after, EeDmacLocation.mk.injEq, BitVec.add_left_inj] at h
  exact EeDmacLocation.ext h.1 h.2

/-- From an empty stack, without calls in the subroutine. -/
theorem callReturns_iff_of_empty (h : AtTag img tie t p 0 v) (hq : img.tagAt p = some q)
    (hid : (ofUqword q).id = 5) (hirq : NoIrq tie (ofUqword q))
    (hs : Subroutine img tie 0 (ofUqword q).location n r) {qr : Uqword} (hqr : img.tagAt r = some qr) :
    CallReturns t n p r (ofUqword q) (ofUqword qr) ↔
      r = p.after ((ofUqword q).qwc.toNat + 1) ∧ r.addr = (BitVec.ofBool (ofReg (v.get 1)).spr).setWidth 31 := by
  obtain ⟨t₁, pushed, h1, h2⟩ := h.call hq hid hirq (by decide)
  obtain ⟨t₂, h3, h4⟩ := hs.exec h2
  obtain ⟨q', hq', hid'⟩ := hs.tagAt_ret
  obtain rfl := Option.some.inj (hqr.symm.trans hq')
  obtain ⟨t₃, reg, h5, h6, h7, h8, h9, h10⟩ := h4.ret hq' hid'
  have hget : (v.set (BitVec.toNat (0 : Uword)) pushed (by decide)).get 1 = v.get 1 :=
    Vector.getElem_set_ne (by decide) (by decide) (by decide)
  rw [hget] at h7
  have hexec : execTags (n + 1) t = .ok t₂ := by rw [execTags, h1, ok_bind, h3]
  constructor
  · rintro ⟨u₁, u₂, hu1, hu2, ⟨reg', hreg', hloc⟩, -, -, hmadr⟩
    obtain rfl := Except.ok.inj (hexec.symm.trans hu1)
    obtain rfl := Except.ok.inj (h5.symm.trans hu2)
    obtain rfl := Option.some.inj (h6.symm.trans hreg')
    have hr : ofReg reg = r := after_one_inj (h10.symm.trans hmadr)
    exact ⟨hr.symm.trans hloc, by rw [← hr, h7]⟩
  · rintro ⟨hr, haddr⟩
    have hreg : ofReg reg = r := by
      rw [h7]
      ext1
      · exact haddr.symm
      · rfl
    exact ⟨t₂, t₃, hexec, h5, ⟨reg, h6, hreg.trans hr⟩, h8.trans h.asp.symm, h9, by rw [h10, hreg]⟩

/-- A CALL returns exactly in this case: the stack is empty, the subroutine has no calls of its own, its RET
is itself where the CALL should return to, and that is address 0 or 1, as the SPR bit of the second ASR says. -/
theorem callReturns_iff (h : AtTag img tie t p k v) (hq : img.tagAt p = some q) (hid : (ofUqword q).id = 5)
    (hirq : NoIrq tie (ofUqword q)) (hs : Subroutine img tie d (ofUqword q).location n r)
    (hdepth : k.toNat + 1 + d ≤ 2) {qr : Uqword} (hqr : img.tagAt r = some qr) :
    CallReturns t n p r (ofUqword q) (ofUqword qr) ↔
      k = 0 ∧ d = 0 ∧ r = p.after ((ofUqword q).qwc.toNat + 1) ∧
        r.addr = (BitVec.ofBool (ofReg (v.get 1)).spr).setWidth 31 := by
  have hk : k = 0 ∨ k = 1 ∧ d = 0 := by
    rcases Nat.eq_zero_or_pos k.toNat with h0 | h0
    · exact .inl (by bv_omega)
    · exact .inr ⟨by bv_omega, by omega⟩
  rcases hk with rfl | ⟨rfl, rfl⟩
  · rcases Nat.eq_zero_or_pos d with rfl | hd
    · rw [callReturns_iff_of_empty h hq hid hirq hs hqr]
      exact ⟨fun hr => ⟨rfl, rfl, hr⟩, fun hr => hr.2.2⟩
    · obtain rfl : d = 1 := by
        rw [show BitVec.toNat (0 : Uword) = 0 from rfl] at hdepth
        omega
      obtain ⟨t₁, pushed, h1, h2⟩ := h.call hq hid hirq (by decide)
      obtain ⟨e, h3⟩ := hs.exec_nested h2
      refine ⟨fun hret => ?_, fun hr => absurd hr.2.1 (by decide)⟩
      obtain ⟨u₁, u₂, hu, -⟩ := hret
      rw [execTags, h1, ok_bind, h3] at hu
      cases hu
  · obtain ⟨t₁, pushed, h1, h2⟩ := h.call hq hid hirq (by decide)
    obtain ⟨t₂, h3, h4⟩ := hs.exec h2
    obtain ⟨q', hq', hid'⟩ := hs.tagAt_ret
    refine ⟨fun hret => ?_, fun hr => absurd hr.1 (by decide)⟩
    obtain ⟨u₁, u₂, hu1, hu2, -⟩ := hret
    rw [execTags, h1, ok_bind, h3] at hu1
    obtain rfl := Except.ok.inj hu1
    rw [h4.ret_two hq' hid'] at hu2
    cases hu2

end

/-! ### Two subroutines of one tag -/

/-- A CALL without data at `c`, to a RET without data at `s`. -/
def callImage (c s : Uptr) : EeDmacImage := fun address spr =>
  if spr then none
  else if address = c then some (Uqword.ofWords 0x50000000 s 0 0)
  else if address = s then some (Uqword.ofWords 0x60000000 0 0 0)
  else none

/-- A memory with just that. -/
def callMemory (c s : Uptr) : Memory where
  mapped _ := true
  byte x := if x = c + 3 then 0x50 else if x = c + 5 then (s >>> 8).setWidth 8 else if x = s + 3 then 0x60 else 0

/-- A source chain under way. -/
def callChcr : EeDmacChcr := ⟨0x105, true, false, false, false, .blank⟩

/-- VIF1, started on the CALL. -/
def callTurn (c s : Uptr) : EeDmacTurn where
  ctrl := 1
  stat := 0
  stadr := 0
  sbusF240 := 0
  memory := callMemory c s
  channelId := 1
  dmaFifoQueue := some .empty
  madr := 0
  qwc := 0
  chcr := callChcr
  tadr := some c
  asr := some (Vector.replicate 2 0)
  sadr := none

theorem atTag_callTurn {c s : Uptr} (h : (callImage c s).Holds (callMemory c s)) :
    AtTag (callImage c s) 0 (callTurn c s) (ofReg c) 0 (Vector.replicate 2 0) where
  channelId := show (1 : Fin 10).val < 3 by decide
  started := rfl
  direction := show callChcr.direction = .TO by decide
  qwc := rfl
  goesOn := show decide ((0 < EeDmacChcr.tie.extractFrom callChcr.w ∧ callChcr.tagIrq) ∨ callChcr.tagExit) = false by
    decide
  tadr := ⟨c, rfl, rfl⟩
  asp := show EeDmacChcr.asp.extractFrom callChcr.w = 0 by decide
  asr := rfl
  queue := ⟨.empty, rfl, by decide⟩
  tie := show EeDmacChcr.tie.extractFrom callChcr.w = 0 by decide
  memory := h

theorem holds_callImage {c s : Uptr} (hc : (callMemory c s).readUqword c = .ok (Uqword.ofWords 0x50000000 s 0 0))
    (hs : (callMemory c s).readUqword s = .ok (Uqword.ofWords 0x60000000 0 0 0)) :
    (callImage c s).Holds (callMemory c s) := by
  intro address spr q hq
  rw [callImage] at hq
  split_ifs at hq with h1 h2 h3
  · obtain rfl := Option.some.inj hq
    rw [h2, readQwordMemory, if_neg h1, hc]
  · obtain rfl := Option.some.inj hq
    rw [h3, readQwordMemory, if_neg h1, hs]

/-- The CALL at 0x7FFFFFF0 to the RET at 0, where it should return to, does return. -/
theorem callReturns_iff_wrapped : CallReturns (callTurn 0x7FFFFFF0 0) 0 (ofReg 0x7FFFFFF0) (ofReg 0)
    (ofUqword (.ofWords 0x50000000 0 0 0)) (ofUqword (.ofWords 0x60000000 0 0 0)) := by
  have hat := atTag_callTurn (holds_callImage (c := 0x7FFFFFF0) (s := 0) rfl rfl)
  have hcall : (callImage 0x7FFFFFF0 0).tagAt (ofReg 0x7FFFFFF0) = some (.ofWords 0x50000000 0 0 0) := rfl
  have hret : (callImage 0x7FFFFFF0 0).tagAt (ofReg 0) = some (.ofWords 0x60000000 0 0 0) := rfl
  have hs : Subroutine (callImage 0x7FFFFFF0 0) 0 0 (ofReg 0) 0 (ofReg 0) := .ret hret (by decide)
  exact (callReturns_iff hat hcall (by decide) (.inl rfl) hs (by decide) hret).mpr
    ⟨rfl, rfl, by decide, by decide⟩

/-- The CALL at 0x1000 to the RET at 0x2000 does not: TADR is 0 after it. -/
theorem call_does_not_return : ¬CallReturns (callTurn 0x1000 0x2000) 0 (ofReg 0x1000) (ofReg 0x2000)
    (ofUqword (.ofWords 0x50000000 0x2000 0 0)) (ofUqword (.ofWords 0x60000000 0 0 0)) := by
  have hat := atTag_callTurn (holds_callImage (c := 0x1000) (s := 0x2000) rfl rfl)
  have hcall : (callImage 0x1000 0x2000).tagAt (ofReg 0x1000) = some (.ofWords 0x50000000 0x2000 0 0) := rfl
  have hret : (callImage 0x1000 0x2000).tagAt (ofReg 0x2000) = some (.ofWords 0x60000000 0 0 0) := rfl
  have hs : Subroutine (callImage 0x1000 0x2000) 0 0 (ofReg 0x2000) 0 (ofReg 0x2000) := .ret hret (by decide)
  rw [callReturns_iff_of_empty hat hcall (by decide) (.inl rfl) hs hret]
  decide

end Orbum.EeDmacTurn
