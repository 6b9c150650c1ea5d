import Orbum.Ee.Dmac.Turn

/-!
# What a tick of the EE DMAC leaves alone

A turn of a channel raises bits of D_STAT, its own and `SIS`, and never clears one; it leaves D_CTRL
alone. So a tick of the controller touches `Cause` in line 3 only, and there only while D_CTRL enables
transfers.
-/

namespace Orbum

/-! ### Raised bits -/

/-- Bits of `D_STAT` may have been set, of a channel or `SIS`, and no other bit has changed. -/
structure RaisesStat (stat stat' : Uword) : Prop where
  /-- A bit that is set stays set. -/
  kept : ∀ i, stat.getLsbD i → stat'.getLsbD i
  /-- The other bits are as before. -/
  others : ∀ i, 10 ≤ i → i ≠ 13 → stat'.getLsbD i = stat.getLsbD i

namespace RaisesStat

theorem refl (stat : Uword) : RaisesStat stat stat := ⟨fun _ h => h, fun _ _ _ => rfl⟩

theorem trans {a b c : Uword} (h : RaisesStat a b) (h' : RaisesStat b c) : RaisesStat a c :=
  ⟨fun i hi => h'.kept i (h.kept i hi), fun i h10 h13 => (h'.others i h10 h13).trans (h.others i h10 h13)⟩

end RaisesStat

/-- Setting a bit of a channel, or `SIS`. -/
theorem raisesStat_insertInto {n : ℕ} (hn : n < 10 ∨ n = 13) (stat : Uword) :
    RaisesStat stat (Bitfield.insertInto ⟨n, 1⟩ stat 1) := by
  constructor
  · intro i hi
    rw [Bitfield.getLsbD_insertInto_bit _ _ _ (BitVec.lt_of_getLsbD hi), hi, Bool.or_true]
  · intro i h10 h13
    by_cases hi : i < 32
    · rw [Bitfield.getLsbD_insertInto_bit _ _ _ hi, show decide (i = n) = false by simp; omega, Bool.false_or]
    · rw [BitVec.getLsbD_of_ge _ _ (by omega), BitVec.getLsbD_of_ge _ _ (by omega)]

/-- `Cause` with a line set or cleared. -/
def EeCoreCop0Cause.withLine (c : EeCoreCop0Cause) (i : Fin 8) (on : Bool) : EeCoreCop0Cause :=
  { c with irqLines := Function.update c.irqLines i on }

@[simp] theorem EeCoreCop0Cause.withLine_self (c : EeCoreCop0Cause) (i : Fin 8) (on : Bool) :
    (c.withLine i on).irqLines i = on := by
  simp only [withLine, Function.update_self]

theorem EeCoreCop0Cause.withLine_of_ne (c : EeCoreCop0Cause) {i j : Fin 8} (h : j ≠ i) (on : Bool) :
    (c.withLine i on).irqLines j = c.irqLines j := by
  simp only [withLine, Function.update_of_ne h]

namespace EeDmacTurn

/-- D_CTRL is as before, and D_STAT but for bits raised, of the channels only its own; a channel that is no source of
stall control leaves D_STADR alone. -/
structure Frame (t t' : EeDmacTurn) : Prop where
  /-- D_CTRL. -/
  ctrl : t'.ctrl = t.ctrl
  /-- D_STAT. -/
  stat : RaisesStat t.stat t'.stat
  /-- The number of the channel. -/
  channelId : t'.channelId = t.channelId
  /-- The bits of other channels. -/
  own : ∀ i, i ≠ t.channelId.val → i ≠ 13 → t'.stat.getLsbD i = t.stat.getLsbD i
  /-- D_STADR. -/
  stadr : t.channelId.val ≠ EeDmacCtrl.stsMap (EeDmacCtrl.sts.extractFrom t.ctrl).toNat → t'.stadr = t.stadr

variable {t t' t'' : EeDmacTurn}

theorem Frame.of_eq (hc : t'.ctrl = t.ctrl) (hs : t'.stat = t.stat) (hid : t'.channelId = t.channelId)
    (ha : t'.stadr = t.stadr) : Frame t t' :=
  ⟨hc, hs ▸ .refl _, hid, fun _ _ _ => by rw [hs], fun _ => ha⟩

theorem Frame.refl (t : EeDmacTurn) : Frame t t := .of_eq rfl rfl rfl rfl

theorem Frame.trans (h : Frame t t') (h' : Frame t' t'') : Frame t t'' where
  ctrl := h'.ctrl.trans h.ctrl
  stat := h.stat.trans h'.stat
  channelId := h'.channelId.trans h.channelId
  own i hi h13 := (h'.own i (by rwa [h.channelId]) h13).trans (h.own i hi h13)
  stadr hne := (h'.stadr (by rwa [h.channelId, h.ctrl])).trans (h.stadr hne)

/-- A step after steps that kept the frame. -/
theorem Frame.after (h : Frame t t') {x : Except HostError EeDmacTurn} (hx : Ensures (Frame t') x) :
    Ensures (Frame t) x := hx.mono fun _ => h.trans

variable (t)

theorem frame_insertChcr (f : Bitfield) (v : Uword) : Frame t (t.insertChcr f v) := by
  unfold insertChcr writeChcr writeChcrSif0 writeChcrSif1 writeChcrSif2
  dsimp only
  split_ifs <;> exact .of_eq rfl rfl rfl rfl

/-- A write to CHCR in a state that differs from `t` elsewhere. -/
theorem frame_insertChcr_of_eq {t'' : EeDmacTurn} (hc : t''.ctrl = t.ctrl) (hs : t''.stat = t.stat)
    (hid : t''.channelId = t.channelId) (ha : t''.stadr = t.stadr) (f : Bitfield) (v : Uword) :
    Frame t (t''.insertChcr f v) := (Frame.of_eq hc hs hid ha).trans (frame_insertChcr t'' f v)

theorem frame_noteTag : Frame t t.noteTag := by
  unfold noteTag
  refine frame_insertChcr_of_eq t ?_ ?_ ?_ ?_ _ _ <;> rfl

/-! ### Tag handlers -/

theorem frame_srcChainInstruction : Ensures (Frame t) t.srcChainInstruction := by
  refine (sourceHandled_srcChainInstruction t).mono fun t' h => ?_
  cases h with
  | registers => exact .of_eq rfl rfl rfl rfl
  | refs => exact .of_eq rfl rfl rfl rfl
  | pushes => refine frame_insertChcr_of_eq t ?_ ?_ ?_ ?_ _ _ <;> rfl
  | @pops asp r tadr =>
    have hpop : Frame t (insertChcr { t with tadr } EeDmacChcr.asp asp) := by
      refine frame_insertChcr_of_eq t ?_ ?_ ?_ ?_ _ _ <;> rfl
    exact hpop.trans (.of_eq rfl rfl rfl rfl)

theorem frame_dstChainInstruction : Ensures (Frame t) t.dstChainInstruction := by
  unfold dstChainInstruction
  split
  · exact .ok (.of_eq rfl rfl rfl rfl)
  · exact .ok (.of_eq rfl rfl rfl rfl)
  · exact .ok (.of_eq rfl rfl rfl rfl)
  · exact .error _

/-! ### A turn -/

/-- Raising the channel's bit, or `SIS`. -/
theorem frame_raise {n : ℕ} (hn : n = t.channelId.val ∨ n = 13) :
    Frame t { t with stat := Bitfield.insertInto ⟨n, 1⟩ t.stat 1 } where
  ctrl := rfl
  stat := raisesStat_insertInto (hn.imp_left fun h => h ▸ t.channelId.isLt) t.stat
  channelId := rfl
  own i hi h13 := by
    have hne : i ≠ n := by
      rcases hn with rfl | rfl
      · exact hi
      · exact h13
    by_cases h : i < 32
    · rw [Bitfield.getLsbD_insertInto_bit _ _ _ h, decide_eq_false hne, Bool.false_or]
    · rw [BitVec.getLsbD_of_ge _ _ (by omega), BitVec.getLsbD_of_ge _ _ (by omega)]
  stadr _ := rfl

theorem frame_setDmacStallControlSis : Frame t t.setDmacStallControlSis := frame_raise t (.inr rfl)

theorem frame_suspendWhenEmpty : Ensures (Frame t) t.suspendWhenEmpty := by
  have hcis : Frame t { t with stat := (EeDmacStat.cis t.channelId).insertInto t.stat 1 } := frame_raise t (.inl rfl)
  have hsus : Frame t t.setStateSuspended := hcis.trans (frame_insertChcr _ _ _)
  unfold suspendWhenEmpty
  split_ifs
  · refine (Ensures.trivial _).bind fun queue _ => ?_
    split_ifs
    · exact .ok (.refl t)
    · exact .ok hsus
  · exact .ok hsus

theorem frame_transferData : Ensures (fun r => Frame t r.2) t.transferData := by
  refine (dataMoved_transferData t).mono fun r h => ?_
  cases h with
  | spr => exact .of_eq rfl rfl rfl rfl
  | starved => exact .refl t
  | received => exact .of_eq rfl rfl rfl rfl
  | blocked => exact .refl t
  | sent => exact .of_eq rfl rfl rfl rfl

/-- What follows a move of data. -/
theorem frame_afterData (p : EeDmacTurn → Prop) [DecidablePred p] (hp : ∀ t, p t → t.isSourceStallControlOn) :
    Ensures (Frame t) (do
      let (count, t) ← t.transferData
      if count = 0 then return t
      else if p t then return t.setDmacStallControlStadr
      else return t) := by
  refine (frame_transferData t).bind fun r hr => ?_
  dsimp only
  split_ifs with h0 h
  · exact .ok hr
  · refine .ok ⟨hr.ctrl, hr.stat, hr.channelId, hr.own, fun hne => absurd ?_ hne⟩
    have hon := hp _ h
    simp only [isSourceStallControlOn, decide_eq_true_eq] at hon
    rw [← hr.channelId, ← hr.ctrl]
    exact hon.2
  · exact .ok hr

theorem frame_transferNormal : Ensures (Frame t) t.transferNormal := by
  unfold transferNormal
  split_ifs
  · exact .error _
  · exact .ok (.of_eq rfl rfl rfl rfl)
  · exact frame_suspendWhenEmpty t
  · exact .ok (frame_setDmacStallControlSis t)
  · exact frame_afterData t (fun t => t.isSourceStallControlOn) fun _ h => h

theorem frame_chainData : Ensures (Frame t) t.chainData := by
  unfold chainData
  split_ifs
  · exact .ok (frame_setDmacStallControlSis t)
  · exact frame_afterData t (fun t => t.isSourceStallControlOn ∧ t.chcr.tagStall) fun _ h => h.1

theorem frame_readChainSourceTag : Ensures (fun r => Frame t r.2) t.readChainSourceTag := by
  refine (Ensures.trivial _).bind fun tadr _ => (Ensures.trivial _).bind fun tag _ => ?_
  split_ifs
  · refine (Ensures.trivial _).bind fun queue _ => ?_
    split_ifs
    · exact .ok (.refl t)
    · exact (Ensures.trivial _).bind fun queue _ => .ok (.of_eq rfl rfl rfl rfl)
  · exact .ok (.of_eq rfl rfl rfl rfl)

theorem frame_readChainDestTag : Ensures (fun r => Frame t r.2) t.readChainDestTag := by
  refine (Ensures.trivial _).bind fun queue _ => ?_
  split_ifs
  · exact .ok (.refl t)
  · exact (Ensures.trivial _).bind fun packet _ => .error _
  · exact (Ensures.trivial _).bind fun packet _ => .ok (.of_eq rfl rfl rfl rfl)

theorem frame_chainTag : Ensures (Frame t) t.chainTag := by
  unfold chainTag
  split
  · refine (frame_readChainSourceTag t).bind fun r hr => ?_
    dsimp only
    split_ifs
    · exact .ok hr
    · exact (hr.after (frame_srcChainInstruction r.2)).bind fun t' ht' => .ok (ht'.trans (frame_noteTag t'))
  · refine (frame_readChainDestTag t).bind fun r hr => ?_
    dsimp only
    split_ifs
    · exact .ok hr
    · exact (hr.after (frame_dstChainInstruction r.2)).bind fun t' ht' => .ok (ht'.trans (frame_noteTag t'))

theorem frame_transferChain : Ensures (Frame t) t.transferChain := by
  unfold transferChain
  split_ifs
  · exact .ok (.of_eq rfl rfl rfl rfl)
  · exact frame_chainData t
  · exact frame_suspendWhenEmpty t
  · exact frame_chainTag t

/-- A turn leaves D_CTRL alone and only raises bits of D_STAT. -/
theorem frame_channelTurn : Ensures (Frame t) t.channelTurn := by
  unfold channelTurn
  split_ifs
  · split
    · exact frame_transferNormal t
    · exact frame_transferChain t
    · exact .error _
    · exact .error _
  · exact .ok (.refl t)

end EeDmacTurn

/-! ### A tick -/

namespace EeDmac

/-- D_CTRL and `Cause` are as before, and D_STAT but for bits raised. -/
structure Frame (d d' : EeDmac) : Prop where
  /-- D_CTRL. -/
  ctrl : d'.ctrl = d.ctrl
  /-- D_STAT. -/
  stat : RaisesStat d.stat d'.stat
  /-- `Cause`. -/
  cause : d'.cause = d.cause

theorem frame_giveTurn (d : EeDmac) (i : Fin 10) : Ensures (Frame d) (d.giveTurn i) :=
  (EeDmacTurn.frame_channelTurn (d.turn i)).bind fun _ ht => .ok ⟨ht.ctrl, ht.stat, rfl⟩

theorem frame_turns (d : EeDmac) : Ensures (Frame d) ((List.finRange 10).foldlM giveTurn d) :=
  Ensures.foldlM (Q := Frame d)
    (fun b i hb => (frame_giveTurn b i).mono fun _ h =>
      ⟨h.ctrl.trans hb.ctrl, hb.stat.trans h.stat, h.cause.trans hb.cause⟩)
    _ ⟨rfl, .refl _, rfl⟩

/-- What a tick leaves. -/
structure Ticked (d d' : EeDmac) : Prop where
  /-- Nothing happens while transfers are disabled. -/
  idle : EeDmacCtrl.dmae.extractFrom d.ctrl = 0 → d' = d
  /-- Bits of D_STAT have been raised. -/
  stat : RaisesStat d.stat d'.stat
  /-- `Cause` differs in line 3 at most, which follows D_STAT if transfers are enabled. -/
  cause : d'.cause = if EeDmacCtrl.dmae.extractFrom d.ctrl = 0 then d.cause
    else d.cause.withLine 3 (EeDmacStat.isInterruptPending d'.stat)

theorem Ticked.line_of_ne {d d' : EeDmac} (h : Ticked d d') {i : Fin 8} (hi : i ≠ 3) :
    d'.cause.irqLines i = d.cause.irqLines i := by
  rw [h.cause]
  split_ifs
  · rfl
  · exact d.cause.withLine_of_ne hi _

theorem Ticked.line3 {d d' : EeDmac} (h : Ticked d d') : d'.cause.irqLines 3 =
    if EeDmacCtrl.dmae.extractFrom d.ctrl = 0 then d.cause.irqLines 3 else EeDmacStat.isInterruptPending d'.stat := by
  rw [h.cause]
  split_ifs
  · rfl
  · exact d.cause.withLine_self 3 _

theorem handleInterruptCheck_eq (d : EeDmac) :
    d.handleInterruptCheck = .ok { d with cause := d.cause.withLine 3 (EeDmacStat.isInterruptPending d.stat) } := by
  unfold handleInterruptCheck
  split_ifs with h
  · rw [h]
    rfl
  · rw [Bool.not_eq_true] at h
    rw [h]
    rfl

theorem ticked_timeStep (d : EeDmac) : Ensures (Ticked d) d.timeStep := by
  unfold timeStep
  split_ifs with h
  · exact .ok ⟨fun _ => rfl, .refl _, (if_pos h).symm⟩
  · refine (frame_turns d).bind fun d' hd' => ?_
    rw [handleInterruptCheck_eq]
    refine .ok ⟨fun hd => absurd hd h, hd'.stat, ?_⟩
    rw [if_neg h, ← hd'.cause]

/-! ### A tick seen from one channel -/

/-- Every channel has its number. -/
def Numbered (d : EeDmac) : Prop := ∀ i, (d.channels i).channelId = i

/-- What turns of other channels leave of channel `i`. -/
structure Aside (i : Fin 10) (d d' : EeDmac) : Prop where
  /-- Its registers and its FIFO. -/
  channel : d'.channels i = d.channels i
  /-- The numbers. -/
  numbered : d'.Numbered
  /-- D_CTRL. -/
  ctrl : d'.ctrl = d.ctrl
  /-- Its bit of D_STAT. -/
  cis : d'.stat.getLsbD i = d.stat.getLsbD i
  /-- D_STADR, if the channel is the one source of stall control. -/
  stadr : i.val = EeDmacCtrl.stsMap (EeDmacCtrl.sts.extractFrom d.ctrl).toNat → d'.stadr = d.stadr

variable {i j : Fin 10} {d d' d'' : EeDmac}

theorem Aside.refl (hd : d.Numbered) : Aside i d d := ⟨rfl, hd, rfl, rfl, fun _ => rfl⟩

theorem Aside.trans (h : Aside i d d') (h' : Aside i d' d'') : Aside i d d'' where
  channel := h'.channel.trans h.channel
  numbered := h'.numbered
  ctrl := h'.ctrl.trans h.ctrl
  cis := h'.cis.trans h.cis
  stadr hi := (h'.stadr (by rwa [h.ctrl])).trans (h.stadr hi)

@[simp] theorem channels_setTurn_self (d : EeDmac) (i : Fin 10) (t : EeDmacTurn) :
    (d.setTurn i t).channels i = t.toEeDmacChannel := Function.update_self _ _ _

theorem channels_setTurn_of_ne (hj : j ≠ i) (d : EeDmac) (t : EeDmacTurn) :
    (d.setTurn i t).channels j = d.channels j := Function.update_of_ne hj _ _

theorem numbered_setTurn {t : EeDmacTurn} (hd : d.Numbered) (ht : t.channelId = i) : (d.setTurn i t).Numbered := by
  intro j
  by_cases hj : j = i
  · rw [hj, channels_setTurn_self]
    exact ht
  · rw [channels_setTurn_of_ne hj]
    exact hd j

theorem aside_giveTurn (hd : d.Numbered) (hj : j ≠ i) : Ensures (Aside i d) (d.giveTurn j) := by
  refine (EeDmacTurn.frame_channelTurn (d.turn j)).bind fun t ht => .ok ?_
  have hne : i.val ≠ (d.channels j).channelId.val := by
    rw [hd j]
    exact fun h => hj (Fin.ext h.symm)
  refine ⟨channels_setTurn_of_ne hj.symm _ _, numbered_setTurn hd (ht.channelId.trans (hd j)), ht.ctrl,
    ht.own i hne (by omega), fun hi => ht.stadr ?_⟩
  exact fun h => hne (hi.trans h.symm)

theorem aside_turns {l : List (Fin 10)} (hl : ∀ j ∈ l, j ≠ i) (hd : d.Numbered) :
    Ensures (Aside i d) (l.foldlM giveTurn d) := by
  induction l generalizing d with
  | nil => exact .ok (.refl hd)
  | cons j l ih =>
    rw [List.foldlM_cons]
    refine (aside_giveTurn hd (hl j (.head _))).bind fun d' h => ?_
    exact (ih (fun k hk => hl k (.tail _ hk)) h.numbered).mono fun _ h' => h.trans h'

/-- The channels that have their turn before channel `i`. -/
def before (i : Fin 10) : List (Fin 10) := (List.finRange 10).take i

/-- The channels that have their turn after channel `i`. -/
def after (i : Fin 10) : List (Fin 10) := (List.finRange 10).drop (i + 1)

theorem ne_of_mem_before (i : Fin 10) : ∀ j ∈ before i, j ≠ i := by
  revert i
  decide

theorem ne_of_mem_after (i : Fin 10) : ∀ j ∈ after i, j ≠ i := by
  revert i
  decide

/-- A tick with transfers enabled, around the turn of one channel. -/
theorem timeStep_eq (hdmae : EeDmacCtrl.dmae.extractFrom d.ctrl ≠ 0) (i : Fin 10) :
    d.timeStep = (do
      let d ← (before i).foldlM giveTurn d
      let d ← d.giveTurn i
      let d ← (after i).foldlM giveTurn d
      d.handleInterruptCheck) := by
  have hsplit : List.finRange 10 = before i ++ i :: after i := by
    revert i
    decide
  rw [timeStep, if_neg hdmae, hsplit, List.foldlM_append]
  simp only [List.foldlM_cons, bind_assoc]

/-- What a tick that returns has done. -/
theorem timeStep_ok (hdmae : EeDmacCtrl.dmae.extractFrom d.ctrl ≠ 0) (hd : d.Numbered) (h : d.timeStep = .ok d') :
    ∃ d₁ t, (before i).foldlM giveTurn d = .ok d₁ ∧ Aside i d d₁ ∧ (d₁.turn i).channelTurn = .ok t ∧
      Aside i (d₁.setTurn i t) d' := by
  rw [timeStep_eq hdmae i] at h
  obtain ⟨d₁, h1, h⟩ := bind_eq_ok_iff.mp h
  obtain ⟨d₂, hgive, h⟩ := bind_eq_ok_iff.mp h
  obtain ⟨t, ht, hset⟩ := bind_eq_ok_iff.mp hgive
  obtain rfl := Except.ok.inj hset
  obtain ⟨d₃, h3, hcheck⟩ := bind_eq_ok_iff.mp h
  have haside := aside_turns (ne_of_mem_before i) hd _ h1
  have hid := (EeDmacTurn.frame_channelTurn (d₁.turn i) t ht).channelId.trans (haside.numbered i)
  have hrest := aside_turns (ne_of_mem_after i) (numbered_setTurn haside.numbered hid) _ h3
  rw [handleInterruptCheck_eq] at hcheck
  obtain rfl := Except.ok.inj hcheck
  exact ⟨d₁, t, h1, haside, ht, hrest.channel, hrest.numbered, hrest.ctrl, hrest.cis, hrest.stadr⟩

/-- The channel is not started. -/
def Idle (d : EeDmac) (i : Fin 10) : Prop := EeDmacChcr.str.extractFrom (d.channels i).chcr.w = 0

theorem giveTurn_of_idle (h : d.Idle j) : d.giveTurn j = .ok d := by
  have hturn : (d.turn j).channelTurn = .ok (d.turn j) := if_neg (not_not_intro h)
  rw [giveTurn, hturn, ok_bind, setTurn, turn, Function.update_eq_self]
  rfl

theorem turns_of_idle {l : List (Fin 10)} (h : ∀ j ∈ l, d.Idle j) : l.foldlM giveTurn d = .ok d := by
  induction l with
  | nil => rfl
  | cons j l ih => rw [List.foldlM_cons, giveTurn_of_idle (h j (.head _)), ok_bind, ih fun k hk => h k (.tail _ hk)]

/-- A tick while no other channel is started. -/
theorem timeStep_eq_of_idle (hdmae : EeDmacCtrl.dmae.extractFrom d.ctrl ≠ 0) (hidle : ∀ j ≠ i, d.Idle j)
    {t : EeDmacTurn} (ht : (d.turn i).channelTurn = .ok t) : d.timeStep = (d.setTurn i t).handleInterruptCheck := by
  have hafter (j : Fin 10) (hj : j ∈ after i) : (d.setTurn i t).Idle j := by
    rw [Idle, channels_setTurn_of_ne (ne_of_mem_after i j hj)]
    exact hidle j (ne_of_mem_after i j hj)
  rw [timeStep_eq hdmae i, turns_of_idle fun j hj => hidle j (ne_of_mem_before i j hj), ok_bind, giveTurn, ht, ok_bind,
    pure_eq_ok, ok_bind, turns_of_idle hafter, ok_bind]

/-- A tick returns if no other channel is started and the turn of this one returns. -/
theorem timeStep_of_idle (hdmae : EeDmacCtrl.dmae.extractFrom d.ctrl ≠ 0) (hidle : ∀ j ≠ i, d.Idle j) {t : EeDmacTurn}
    (ht : (d.turn i).channelTurn = .ok t) : ∃ d', d.timeStep = .ok d' := by
  rw [timeStep_eq_of_idle hdmae hidle ht, handleInterruptCheck_eq]
  exact ⟨_, rfl⟩

end EeDmac

end Orbum
