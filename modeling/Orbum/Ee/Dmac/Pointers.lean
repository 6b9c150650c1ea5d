import Orbum.Ee.Dmac.StallScope

/-!
# The pointers of a channel

`initialise_ee_dmac` sets the pointers of a channel that stand for something the channel has: no channel has all of
them. Which of them a turn follows is up to the guest, who programs direction, mode and tags. No turn changes a pointer,
so a turn that is asked for something the channel does not have follows a null pointer.
-/

namespace Orbum

/-- The pointers of `EeDmacChannel` that are not set for every channel. -/
inductive EeDmacPointer where
  /-- `tadr`. -/
  | tadr
  /-- `asr[n]`. -/
  | asr (n : ℕ)
  /-- `sadr`. -/
  | sadr
  /-- `dma_fifo_queue`. -/
  | dmaFifoQueue
  deriving DecidableEq

namespace EeDmacChannel

/-- The pointer is there and not null. -/
def isSet (c : EeDmacChannel) : EeDmacPointer → Bool
  | .tadr => c.tadr.isSome
  | .asr n => n < 2 && c.asr.isSome
  | .sadr => c.sadr.isSome
  | .dmaFifoQueue => c.dmaFifoQueue.isSome

/-- What `initialise_ee_dmac` sets for channel `id`. -/
def initialised (id : Fin 10) : EeDmacPointer → Bool
  | .tadr => id.val ∈ [0, 1, 2, 4, 6, 9]
  | .asr n => n < 2 && id.val ∈ [0, 1, 2]
  | .sadr => id.val ∈ [8, 9]
  | .dmaFifoQueue => id.val ∈ [0, 1, 2, 3, 4, 5, 6, 7]

/-- The channel is the one of this number, as `initialise_ee_dmac` has set it up. -/
structure Initialised (id : Fin 10) (c : EeDmacChannel) : Prop where
  /-- Its number. -/
  channelId : c.channelId = id
  /-- Its pointers. -/
  isSet : ∀ p, c.isSet p = initialised id p

/-- Number and pointers are as before, whatever is behind them. -/
structure SamePointers (c c' : EeDmacChannel) : Prop where
  /-- `channel_id`. -/
  channelId : c'.channelId = c.channelId
  /-- `tadr`. -/
  tadr : c'.tadr.isSome = c.tadr.isSome
  /-- `asr`. -/
  asr : c'.asr.isSome = c.asr.isSome
  /-- `sadr`. -/
  sadr : c'.sadr.isSome = c.sadr.isSome
  /-- `dma_fifo_queue`. -/
  dmaFifoQueue : c'.dmaFifoQueue.isSome = c.dmaFifoQueue.isSome

variable {c c' c'' : EeDmacChannel}

theorem SamePointers.refl (c : EeDmacChannel) : SamePointers c c := ⟨rfl, rfl, rfl, rfl, rfl⟩

theorem SamePointers.trans (h : SamePointers c c') (h' : SamePointers c' c'') : SamePointers c c'' :=
  ⟨h'.channelId.trans h.channelId, h'.tadr.trans h.tadr, h'.asr.trans h.asr, h'.sadr.trans h.sadr,
    h'.dmaFifoQueue.trans h.dmaFifoQueue⟩

theorem SamePointers.isSet (h : SamePointers c c') (p : EeDmacPointer) : c'.isSet p = c.isSet p := by
  cases p with
  | tadr => exact h.tadr
  | asr n => exact congrArg (decide (n < 2) && ·) h.asr
  | sadr => exact h.sadr
  | dmaFifoQueue => exact h.dmaFifoQueue

theorem Initialised.of_same {id : Fin 10} (hc : c.Initialised id) (h : SamePointers c c') : c'.Initialised id :=
  ⟨h.channelId.trans hc.channelId, fun p => (h.isSet p).trans (hc.isSet p)⟩

end EeDmacChannel

theorem ensures_deref {α : Type} (o : Option α) : Ensures (fun a => o = some a) (deref o) := fun _ h =>
  deref_eq_ok_iff.mp h

namespace EeDmacTurn

open EeDmacChcr EeDmacAddr EeDmacChannel LittleEndian

variable (t : EeDmacTurn)

/-! ### A turn changes no pointer -/

/-- A step that leaves number and pointers alone. -/
abbrev Keeps (t t' : EeDmacTurn) : Prop := SamePointers t.toEeDmacChannel t'.toEeDmacChannel

theorem keeps_writeChcr (value : Uword) : Keeps t (t.writeChcr value) := by
  unfold writeChcr writeChcrSif0 writeChcrSif1 writeChcrSif2
  dsimp only
  split_ifs <;> exact ⟨rfl, rfl, rfl, rfl, rfl⟩

theorem keeps_insertChcr (f : Bitfield) (v : Uword) : Keeps t (t.insertChcr f v) := keeps_writeChcr t _

theorem keeps_noteTag : Keeps t t.noteTag := by
  have hirq : Keeps t { t with chcr := { t.chcr with tagIrq := t.chcr.dmaTag.irq } } := ⟨rfl, rfl, rfl, rfl, rfl⟩
  exact hirq.trans (keeps_insertChcr _ _ _)

variable {t} in
/-- A handler that only writes TADR, QWC, MADR and the flags. -/
theorem keeps_of_tadr {tadr tadr' : Uword} {madr qwc : Uword} {chcr : EeDmacChcr} (h : t.tadr = some tadr) :
    Keeps t { t with madr, qwc, chcr, tadr := some tadr' } :=
  ⟨rfl, (congrArg Option.isSome h).symm, rfl, rfl, rfl⟩

theorem keeps_chainSrcCall : Ensures (Keeps t) t.chainSrcCall := by
  refine (ensures_deref _).bind fun tadr htadr => ?_
  dsimp only
  split_ifs
  · exact .ok (keeps_of_tadr htadr)
  · refine (ensures_deref _).bind fun asr hasr => .ok (SamePointers.trans ?_ (keeps_insertChcr _ _ _))
    exact ⟨rfl, (congrArg Option.isSome htadr).symm, (congrArg Option.isSome hasr).symm, rfl, rfl⟩
  · exact (ensures_deref _).bind fun _ _ => .error _

theorem keeps_chainSrcRet : Ensures (Keeps t) t.chainSrcRet := by
  have htail {u : EeDmacTurn} (hu : Keeps t u) : Ensures (Keeps t) (do return u.followTag (← deref u.tadr)) :=
    (ensures_deref _).bind fun _ _ => .ok (hu.trans ⟨rfl, rfl, rfl, rfl, rfl⟩)
  unfold chainSrcRet
  dsimp only
  split_ifs
  · exact htail ⟨rfl, rfl, rfl, rfl, rfl⟩
  · refine (ensures_deref _).bind fun tadr htadr => (ensures_deref _).bind fun asr hasr => htail ?_
    exact SamePointers.trans (keeps_of_tadr htadr) (keeps_insertChcr _ _ _)
  · exact (ensures_deref _).bind fun _ _ => (ensures_deref _).bind fun _ _ => .error _

theorem keeps_srcChainInstruction : Ensures (Keeps t) t.srcChainInstruction := by
  unfold srcChainInstruction
  split
  · exact ((ensures_deref _).bind fun _ h => .ok (keeps_of_tadr h)).bind fun _ h => .ok (h.trans ⟨rfl, rfl, rfl, rfl, rfl⟩)
  · exact (ensures_deref _).bind fun _ h => .ok (keeps_of_tadr h)
  · exact (ensures_deref _).bind fun _ h => .ok (keeps_of_tadr h)
  · exact (ensures_deref _).bind fun _ h => .ok (keeps_of_tadr h)
  · exact (ensures_deref _).bind fun _ h => .ok (keeps_of_tadr h)
  · exact keeps_chainSrcCall t
  · exact keeps_chainSrcRet t
  · exact (ensures_deref _).bind fun _ _ => .ok ⟨rfl, rfl, rfl, rfl, rfl⟩

theorem keeps_dstChainInstruction : Ensures (Keeps t) t.dstChainInstruction := by
  unfold dstChainInstruction
  split
  · exact .ok ⟨rfl, rfl, rfl, rfl, rfl⟩
  · exact .ok ⟨rfl, rfl, rfl, rfl, rfl⟩
  · exact .ok ⟨rfl, rfl, rfl, rfl, rfl⟩
  · exact .error _

theorem keeps_transferDataSpr : Ensures (fun r => Keeps t r.2) t.transferDataSpr := by
  refine (ensures_deref _).bind fun sadr hsadr => ?_
  have hset : true = t.sadr.isSome := (congrArg Option.isSome hsadr).symm
  dsimp only
  split
  · exact (Ensures.trivial _).bind fun _ _ => (Ensures.trivial _).bind fun _ _ => .ok ⟨rfl, rfl, rfl, hset, rfl⟩
  · exact (Ensures.trivial _).bind fun _ _ => (Ensures.trivial _).bind fun _ _ => .ok ⟨rfl, rfl, rfl, hset, rfl⟩

theorem keeps_transferDataFifo : Ensures (fun r => Keeps t r.2) t.transferDataFifo := by
  refine (ensures_deref _).bind fun queue hqueue => ?_
  have hset : true = t.dmaFifoQueue.isSome := (congrArg Option.isSome hqueue).symm
  split
  · split_ifs
    · exact .ok (.refl _)
    · exact (Ensures.trivial _).bind fun _ _ => (Ensures.trivial _).bind fun _ _ => .ok ⟨rfl, rfl, rfl, rfl, hset⟩
  · split_ifs
    · exact .ok (.refl _)
    · exact (Ensures.trivial _).bind fun _ _ => (Ensures.trivial _).bind fun _ _ => .ok ⟨rfl, rfl, rfl, rfl, hset⟩

theorem keeps_transferData : Ensures (fun r => Keeps t r.2) t.transferData := by
  unfold transferData
  split_ifs
  · exact keeps_transferDataSpr t
  · exact keeps_transferDataFifo t

/-- What follows a move of data. -/
theorem keeps_afterData (p : EeDmacTurn → Prop) [DecidablePred p] :
    Ensures (Keeps t) (do
      let (count, t) ← t.transferData
      if count = 0 then return t
      else if p t then return t.setDmacStallControlStadr
      else return t) := by
  refine (keeps_transferData t).bind fun r hr => ?_
  dsimp only
  split_ifs
  · exact .ok hr
  · exact .ok hr
  · exact .ok hr

theorem keeps_suspendWhenEmpty : Ensures (Keeps t) t.suspendWhenEmpty := by
  have hcis : Keeps t { t with stat := (EeDmacStat.cis t.channelId).insertInto t.stat 1 } :=
    ⟨rfl, rfl, rfl, rfl, rfl⟩
  have hstop : Keeps t t.setStateSuspended := hcis.trans (keeps_insertChcr _ _ _)
  unfold suspendWhenEmpty
  split_ifs
  · refine (Ensures.trivial _).bind fun queue _ => ?_
    split_ifs
    · exact .ok (.refl _)
    · exact .ok hstop
  · exact .ok hstop

theorem keeps_transferNormal : Ensures (Keeps t) t.transferNormal := by
  unfold transferNormal
  split_ifs
  · exact .error _
  · exact .ok ⟨rfl, rfl, rfl, rfl, rfl⟩
  · exact keeps_suspendWhenEmpty t
  · exact .ok ⟨rfl, rfl, rfl, rfl, rfl⟩
  · exact keeps_afterData t fun t => t.isSourceStallControlOn

theorem keeps_readChainSourceTag : Ensures (fun r => Keeps t r.2) t.readChainSourceTag := by
  refine (Ensures.trivial _).bind fun tadr _ => (Ensures.trivial _).bind fun tag _ => ?_
  split_ifs
  · refine (ensures_deref _).bind fun queue hqueue => ?_
    split_ifs
    · exact .ok (.refl _)
    · exact (Ensures.trivial _).bind fun _ _ => .ok ⟨rfl, rfl, rfl, rfl, (congrArg Option.isSome hqueue).symm⟩
  · exact .ok ⟨rfl, rfl, rfl, rfl, rfl⟩

theorem keeps_readChainDestTag : Ensures (fun r => Keeps t r.2) t.readChainDestTag := by
  refine (ensures_deref _).bind fun queue hqueue => ?_
  split_ifs
  · exact .ok (.refl _)
  · exact (Ensures.trivial _).bind fun _ _ => .error _
  · exact (Ensures.trivial _).bind fun _ _ => .ok ⟨rfl, rfl, rfl, rfl, (congrArg Option.isSome hqueue).symm⟩

theorem keeps_chainTag : Ensures (Keeps t) t.chainTag := by
  unfold chainTag
  split
  · refine (keeps_readChainSourceTag t).bind fun r hr => ?_
    dsimp only
    split_ifs
    · exact .ok hr
    · exact (keeps_srcChainInstruction r.2).bind fun u hu => .ok ((hr.trans hu).trans (keeps_noteTag u))
  · refine (keeps_readChainDestTag t).bind fun r hr => ?_
    dsimp only
    split_ifs
    · exact .ok hr
    · exact (keeps_dstChainInstruction r.2).bind fun u hu => .ok ((hr.trans hu).trans (keeps_noteTag u))

theorem keeps_transferChain : Ensures (Keeps t) t.transferChain := by
  unfold transferChain chainData
  split_ifs
  · exact .ok ⟨rfl, rfl, rfl, rfl, rfl⟩
  · exact .ok ⟨rfl, rfl, rfl, rfl, rfl⟩
  · exact keeps_afterData t fun t => t.isSourceStallControlOn ∧ t.chcr.tagStall
  · exact keeps_suspendWhenEmpty t
  · exact keeps_chainTag t

/-- No turn sets a pointer or clears one. -/
theorem keeps_channelTurn : Ensures (Keeps t) t.channelTurn := by
  unfold channelTurn
  split_ifs
  · split
    · exact keeps_transferNormal t
    · exact keeps_transferChain t
    · exact .error _
    · exact .error _
  · exact .ok (.refl _)

/-! ### What a turn follows -/

/-- What `transfer_data` follows. -/
def transferDataPointers : List EeDmacPointer := if t.channelId = 8 ∨ t.channelId = 9 then [.sadr] else [.dmaFifoQueue]

/-- What the end of a transfer follows. -/
def suspendPointers : List EeDmacPointer := if t.chcr.direction = .TO ∧ t.channelId ≠ 9 then [.dmaFifoQueue] else []

/-- The number of addresses on the stack. -/
def stacked : ℕ := (EeDmacChcr.asp.extractFrom t.chcr.w).toNat

/-- The tag is CALL and there is room on the stack, or it is RET and there is an address on it. -/
def UsesStack (tag : EeDmatag) : Prop := tag.id.toNat = 5 ∧ t.stacked < 2 ∨ tag.id.toNat = 6 ∧ t.stacked ≠ 0

instance (tag : EeDmatag) : Decidable (t.UsesStack tag) := inferInstanceAs (Decidable (_ ∨ _))

/-- What the handler of a source tag follows beyond TADR. -/
def handlerPointers (tag : EeDmatag) : List EeDmacPointer := if t.UsesStack tag then [.asr t.stacked] else []

/-- The quadword TADR names. -/
def sourceTag : Except HostError Uqword := do
  let tadr ← deref t.tadr
  readQwordMemory t.memory (addr.extractFrom tadr) (0 < spr.extractFrom tadr)

/-- The tag in a quadword. -/
def tagOf (q : Uqword) : EeDmatag := ⟨q.uw 0, q.uw 1⟩

/-- What reading a source tag and handling it follows: a tag that is to be sent and for which there is no room is not
handled. -/
def sourceTagPointers : List EeDmacPointer :=
  .tadr :: match t.sourceTag with
    | .error _ => []
    | .ok q =>
      if tte.extractFrom t.chcr.w ≠ 0 then
        .dmaFifoQueue :: if t.dmaFifoQueue.any (·.hasWriteAvailable 16) then t.handlerPointers (tagOf q) else []
      else t.handlerPointers (tagOf q)

/-- What the branch of `transfer_chain` that reads a tag follows. -/
def chainTagPointers : List EeDmacPointer :=
  match t.chcr.direction with
  | .TO => t.sourceTagPointers
  | .FROM => [.dmaFifoQueue]

/-- What `transfer_normal` follows, once started. -/
def normalPointers : List EeDmacPointer :=
  if t.qwc = 0 then t.suspendPointers
  else if t.isDrainStallControlOn ∧ t.isDrainStallControlWaiting then []
  else t.transferDataPointers

/-- What `transfer_chain` follows, once started. -/
def chainPointers : List EeDmacPointer :=
  if 0 < t.qwc then
    if t.isDrainStallControlOn ∧ t.isDrainStallControlWaiting ∧ t.chcr.tagStall then [] else t.transferDataPointers
  else if t.chainExit then t.suspendPointers
  else t.chainTagPointers

/-- The pointers a turn follows, in their order. -/
def pointers : List EeDmacPointer :=
  if str.extractFrom t.chcr.w ≠ 0 ∧ t.chcr.dmaStarted then
    match (mod.extractFrom t.chcr.w).toNat with
    | 0 => t.normalPointers
    | 1 => t.chainPointers
    | _ => []
  else []

/-- The pointers the turn follows are set. -/
def PointersSet : Prop := ∀ p ∈ t.pointers, t.isSet p = true

/-- An error from a pointer, or from an access of the memory outside of what is mapped. -/
def OfPointer (e : HostError) : Prop := e = .nullPointer ∨ e = .outOfBounds

/-- The computation follows just these pointers, and fails at one that is not set. -/
structure Follows {α : Type} (ps : List EeDmacPointer) (x : Except HostError α) : Prop where
  /-- It fails at a pointer that is not set. -/
  unset : (∃ p ∈ ps, t.isSet p = false) → ∃ e, OfPointer e ∧ x = .error e
  /-- It fails at no other. -/
  set : (∀ p ∈ ps, t.isSet p = true) → (∀ a, t.memory.mapped a = true) → Throws (fun e => ¬OfPointer e) x

section Follows

variable {t} {α β : Type} {ps : List EeDmacPointer} {x : Except HostError α}

theorem Follows.bind (hx : t.Follows ps x) {f : α → Except HostError β}
    (hf : ∀ a, x = .ok a → (∀ a, t.memory.mapped a = true) → Throws (fun e => ¬OfPointer e) (f a)) :
    t.Follows ps (x >>= f) where
  unset h := by
    obtain ⟨e, he, rfl⟩ := hx.unset h
    exact ⟨e, he, rfl⟩
  set h hm := (hx.set h hm).bind fun a ha => hf a ha hm

/-- A computation that begins with a pointer and follows no other. -/
theorem follows_deref {o : Option β} {p : EeDmacPointer} (hp : t.isSet p = o.isSome) {f : β → Except HostError α}
    (hf : ∀ b, o = some b → (∀ a, t.memory.mapped a = true) → Throws (fun e => ¬OfPointer e) (f b)) :
    t.Follows [p] (do f (← deref o)) := by
  cases o with
  | none =>
    refine ⟨fun _ => ⟨_, .inl rfl, rfl⟩, fun h => ?_⟩
    rw [Option.isSome_none] at hp
    exact absurd (hp.symm.trans (h p (.head _))) (by decide)
  | some b =>
    refine ⟨fun h => ?_, fun _ hm => hf b rfl hm⟩
    obtain ⟨q, hq, hunset⟩ := h
    obtain rfl := List.mem_singleton.mp hq
    rw [Option.isSome_some] at hp
    exact absurd (hunset.symm.trans hp) (by decide)

/-- A pointer that is set makes no difference. -/
theorem Follows.cons {p : EeDmacPointer} (hp : t.isSet p = true) (h : t.Follows ps x) : t.Follows (p :: ps) x where
  unset := by
    rintro ⟨q, hq, hunset⟩
    rcases List.mem_cons.mp hq with rfl | hq
    · exact absurd (hunset.symm.trans hp) (by decide)
    · exact h.unset ⟨q, hq, hunset⟩
  set hset := h.set fun q hq => hset q (.tail _ hq)

/-- A pointer that is not set ends the computation. -/
theorem follows_of_unset {p : EeDmacPointer} (hp : t.isSet p = false) :
    t.Follows (p :: ps) (.error .nullPointer : Except HostError α) where
  unset _ := ⟨_, .inl rfl, rfl⟩
  set hset := absurd ((hset p (.head _)).symm.trans hp) (by decide)

theorem Follows.of_keeps {u : EeDmacTurn} (hu : Keeps t u) (hmem : u.memory = t.memory) (h : u.Follows ps x) :
    t.Follows ps x where
  unset := fun ⟨p, hp, hunset⟩ => h.unset ⟨p, hp, (hu.isSet p).trans hunset⟩
  set hset hm := h.set (fun p hp => (hu.isSet p).trans (hset p hp)) (by rwa [hmem])

/-- A computation that follows no pointer. -/
theorem follows_nil (h : (∀ a, t.memory.mapped a = true) → Throws (fun e => ¬OfPointer e) x) : t.Follows [] x :=
  ⟨fun ⟨_, hp, _⟩ => absurd hp List.not_mem_nil, fun _ => h⟩

end Follows

theorem throws_deref {α : Type} {E : HostError → Prop} {o : Option α} (h : o.isSome = true) : Throws E (deref o) := by
  obtain ⟨a, rfl⟩ := Option.isSome_iff_exists.mp h
  exact .ok a

theorem isMapped_of_forall {m : Memory} (h : ∀ a, m.mapped a = true) (a : Uptr) (n : ℕ) : m.isMapped a n = true :=
  List.all_eq_true.mpr fun _ _ => h _

theorem throws_readQwordMemory {E : HostError → Prop} {m : Memory} (h : ∀ a, m.mapped a = true) (a : Uptr) (spr : Bool) :
    Throws E (readQwordMemory m a spr) := by
  obtain ⟨q, hq⟩ := exists_readQwordMemory (isMapped_of_forall h (if spr then 0x70000000 + a else a) 16)
  rw [hq]
  exact .ok q

theorem throws_writeQwordMemory {E : HostError → Prop} {m : Memory} (h : ∀ a, m.mapped a = true) (a : Uptr) (spr : Bool)
    (q : Uqword) : Throws E (writeQwordMemory m a spr q) := by
  obtain ⟨m', hm'⟩ := exists_writeQwordMemory (isMapped_of_forall h (if spr then 0x70000000 + a else a) 16) q
  rw [hm']
  exact .ok m'

theorem throws_read {E : HostError → Prop} {q : DmaFifoQueue} {n : ℕ} (h : q.hasReadAvailable n = true) :
    Throws E (q.read n) := by
  rw [DmaFifoQueue.read_eq (DmaFifoQueue.hasReadAvailable_iff.mp h)]
  exact .ok _

theorem throws_write {E : HostError → Prop} {q : DmaFifoQueue} {w : ℕ} (h : q.hasWriteAvailable 16 = true)
    (v : BitVec w) : Throws E (q.write (bytes 16 v)) := by
  have hroom := DmaFifoQueue.hasWriteAvailable_iff.mp h
  rw [DmaFifoQueue.write_eq (by rw [List.length_append, length_bytes]; exact hroom)]
  exact .ok _

theorem follows_transferData : t.Follows t.transferDataPointers t.transferData := by
  unfold transferDataPointers transferData
  split_ifs
  · refine follows_deref rfl fun sadr _ hm => ?_
    dsimp only
    split
    · exact (throws_readQwordMemory hm _ _).bind fun q _ => (throws_writeQwordMemory hm _ _ q).bind fun _ _ => .ok _
    · exact (throws_readQwordMemory hm _ _).bind fun q _ => (throws_writeQwordMemory hm _ _ q).bind fun _ _ => .ok _
  · refine follows_deref rfl fun queue _ hm => ?_
    split
    · cases havail : queue.hasReadAvailable 16 with
      | false => exact .ok _
      | true => exact (throws_read havail).bind fun r _ => (throws_writeQwordMemory hm _ _ _).bind fun _ _ => .ok _
    · cases hroom : queue.hasWriteAvailable 16 with
      | false => exact .ok _
      | true => exact (throws_readQwordMemory hm _ _).bind fun q _ => (throws_write hroom q).bind fun _ _ => .ok _

/-- What follows a move of data follows no pointer. -/
theorem follows_afterData (p : EeDmacTurn → Prop) [DecidablePred p] :
    t.Follows t.transferDataPointers (do
      let (count, t) ← t.transferData
      if count = 0 then return t
      else if p t then return t.setDmacStallControlStadr
      else return t) := by
  refine t.follows_transferData.bind fun r _ _ => ?_
  dsimp only
  split_ifs
  · exact .ok _
  · exact .ok _
  · exact .ok _

theorem follows_suspendWhenEmpty : t.Follows t.suspendPointers t.suspendWhenEmpty := by
  unfold suspendPointers suspendWhenEmpty
  split_ifs
  · refine follows_deref rfl fun queue _ _ => ?_
    split_ifs
    · exact .ok _
    · exact .ok _
  · exact follows_nil fun _ => .ok _

theorem follows_readChainDestTag : t.Follows [.dmaFifoQueue] t.readChainDestTag := by
  refine follows_deref rfl fun queue _ _ => ?_
  cases havail : queue.hasReadAvailable 16 with
  | false => exact .ok _
  | true =>
    refine (throws_read havail).bind fun r _ => ?_
    split_ifs
    · exact .error (by simp [OfPointer])
    · exact .ok _

theorem throws_dstChainInstruction : Throws (fun e => ¬OfPointer e) t.dstChainInstruction := by
  unfold dstChainInstruction
  split
  · exact .ok _
  · exact .ok _
  · exact .ok _
  · exact .error (by simp [OfPointer])

/-! ### The handler of a source tag -/

theorem follows_chainSrcCall {tadr : Uword} (htadr : t.tadr = some tadr) (hid : t.chcr.dmaTag.id.toNat = 5) :
    t.Follows (t.handlerPointers t.chcr.dmaTag) t.chainSrcCall := by
  have hw : (t.followTag tadr).chcr.w = t.chcr.w := rfl
  have hasr : (t.followTag tadr).asr = t.asr := rfl
  unfold handlerPointers chainSrcCall
  rw [htadr, deref_some, ok_bind]
  dsimp only
  rw [hw, hasr]
  by_cases hasp : 2 ≤ EeDmacChcr.asp.extractFrom t.chcr.w
  · have hge : ¬t.stacked < 2 := by
      unfold stacked
      bv_omega
    have hno : ¬t.UsesStack t.chcr.dmaTag := by simp [UsesStack, hid, hge]
    rw [if_neg hno, if_pos hasp]
    exact follows_nil fun _ => .ok _
  · have hlt : (EeDmacChcr.asp.extractFrom t.chcr.w).toNat < 2 := by bv_omega
    have huses : t.UsesStack t.chcr.dmaTag := .inl ⟨hid, hlt⟩
    rw [if_pos huses, if_neg hasp]
    refine follows_deref (by simp [isSet, stacked, hlt]) fun asr _ _ => ?_
    rw [dif_pos hlt]
    exact .ok _

theorem follows_chainSrcRet {tadr : Uword} (htadr : t.tadr = some tadr) (hid : t.chcr.dmaTag.id.toNat = 6) :
    t.Follows (t.handlerPointers t.chcr.dmaTag) t.chainSrcRet := by
  unfold handlerPointers chainSrcRet
  dsimp only
  by_cases hasp : EeDmacChcr.asp.extractFrom t.chcr.w = 0
  · have hexit : t.setTagExit.tadr = some tadr := htadr
    have hno : ¬t.UsesStack t.chcr.dmaTag := by simp [UsesStack, stacked, hid, hasp]
    rw [if_neg hno, if_pos hasp, pure_eq_ok, ok_bind, hexit]
    exact follows_nil fun _ => .ok _
  · have hne : t.stacked ≠ 0 := by
      unfold stacked
      bv_omega
    have huses : t.UsesStack t.chcr.dmaTag := .inr ⟨hid, hne⟩
    rw [if_pos huses, if_neg hasp, htadr, deref_some, ok_bind]
    cases hasr : t.asr with
    | none =>
      refine ⟨fun _ => ⟨_, .inl rfl, rfl⟩, fun h => absurd (h _ (.head _)) ?_⟩
      simp [isSet, hasr]
    | some asr =>
      rw [deref_some, ok_bind]
      by_cases hlt : (EeDmacChcr.asp.extractFrom t.chcr.w).toNat < 2
      · rw [dif_pos hlt, pure_eq_ok, ok_bind]
        refine ⟨fun h => ?_, fun _ _ => ?_⟩
        · obtain ⟨p, hp, hunset⟩ := h
          obtain rfl := List.mem_singleton.mp hp
          simp [isSet, stacked, hasr, hlt] at hunset
        · exact (throws_deref (keeps_insertChcr _ _ _).tadr).bind fun _ _ => .ok _
      · rw [dif_neg hlt]
        refine ⟨fun _ => ⟨_, .inr rfl, rfl⟩, fun h => absurd (h _ (.head _)) ?_⟩
        simp [isSet, stacked, hlt]

theorem follows_srcChainInstruction {tadr : Uword} (htadr : t.tadr = some tadr) :
    t.Follows (t.handlerPointers t.chcr.dmaTag) t.srcChainInstruction := by
  unfold srcChainInstruction
  generalize hid : t.chcr.dmaTag.id.toNat = n
  by_cases h5 : n = 5
  · subst h5
    exact follows_chainSrcCall t htadr hid
  · by_cases h6 : n = 6
    · subst h6
      exact follows_chainSrcRet t htadr hid
    · have hno : ¬t.UsesStack t.chcr.dmaTag := by simp [UsesStack, hid, h5, h6]
      rw [handlerPointers, if_neg hno]
      refine follows_nil fun _ => ?_
      have hset : t.tadr.isSome = true := by rw [htadr]; rfl
      split
      · exact ((throws_deref hset).bind fun _ _ => .ok _).bind fun _ _ => .ok _
      · exact (throws_deref hset).bind fun _ _ => .ok _
      · exact (throws_deref hset).bind fun _ _ => .ok _
      · exact (throws_deref hset).bind fun _ _ => .ok _
      · exact (throws_deref hset).bind fun _ _ => .ok _
      · exact absurd rfl h5
      · exact absurd rfl h6
      · exact (throws_deref hset).bind fun _ _ => .ok _

/-! ### A turn -/

/-- What `transfer_chain` does with a source tag it has read. -/
theorem follows_handled {u : EeDmacTurn} {q : Uqword} {tadr : Uword} (hu : Keeps t u) (hmem : u.memory = t.memory)
    (hw : u.chcr.w = t.chcr.w) (htag : u.chcr.dmaTag = tagOf q) (htadr : u.tadr = some tadr) :
    t.Follows (t.handlerPointers (tagOf q)) (do return (← u.srcChainInstruction).noteTag) := by
  have h := u.follows_srcChainInstruction htadr
  have hpointers : u.handlerPointers u.chcr.dmaTag = t.handlerPointers (tagOf q) := by
    have hstacked : u.stacked = t.stacked := by rw [stacked, hw, stacked]
    have huses : u.UsesStack u.chcr.dmaTag = t.UsesStack (tagOf q) := by rw [UsesStack, UsesStack, hstacked, htag]
    simp only [handlerPointers, huses, hstacked]
  rw [hpointers] at h
  exact (h.of_keeps hu hmem).bind fun _ _ _ => .ok _

theorem follows_sourceChainTag (hdir : t.chcr.direction = .TO) : t.Follows t.sourceTagPointers t.chainTag := by
  unfold sourceTagPointers chainTag readChainSourceTag sourceTag
  rw [hdir]
  dsimp only
  cases htadr : t.tadr with
  | none => exact follows_of_unset (by simp [isSet, htadr])
  | some tadr =>
    refine .cons (by simp [isSet, htadr]) ?_
    rw [deref_some, ok_bind, ok_bind]
    generalize hread : readQwordMemory t.memory _ _ = x
    cases x with
    | error e =>
      refine follows_nil fun hm => ?_
      have hnever : Throws (fun _ => False) (Except.error e : Except HostError Uqword) := hread ▸ throws_readQwordMemory hm _ _
      exact (hnever e rfl).elim
    | ok q =>
      rw [ok_bind]
      dsimp only
      by_cases htte : tte.extractFrom t.chcr.w ≠ 0
      · rw [if_pos htte, if_pos htte]
        cases hqueue : t.dmaFifoQueue with
        | none => exact follows_of_unset (by simp [isSet, hqueue])
        | some queue =>
          refine .cons (by simp [isSet, hqueue]) ?_
          rw [deref_some, ok_bind]
          cases hroom : queue.hasWriteAvailable 16 with
          | false =>
            rw [Option.any_some, hroom, if_neg (by decide), if_pos (by decide)]
            exact follows_nil fun _ => .ok _
          | true =>
            have hlen := DmaFifoQueue.hasWriteAvailable_iff.mp hroom
            have hfits : (queue.bytes ++ bytes 16 (Uqword.ofWords (q.uw 2) (q.uw 3) 0 0)).length ≤ 1024 := by
              rw [List.length_append, length_bytes]
              exact hlen
            have hwrite := DmaFifoQueue.write_eq hfits
            rw [Option.any_some, hroom, if_pos rfl, if_neg (by decide), hwrite, ok_bind, pure_eq_ok, ok_bind]
            refine follows_handled t ⟨rfl, ?_, rfl, rfl, ?_⟩ rfl rfl rfl rfl
            · exact (congrArg Option.isSome htadr).symm
            · exact (congrArg Option.isSome hqueue).symm
      · rw [if_neg htte, if_neg htte]
        exact follows_handled t (keeps_of_tadr htadr) rfl rfl rfl rfl

theorem follows_chainTag : t.Follows t.chainTagPointers t.chainTag := by
  unfold chainTagPointers
  cases hdir : t.chcr.direction with
  | TO => exact follows_sourceChainTag t hdir
  | FROM =>
    unfold chainTag
    rw [hdir]
    refine t.follows_readChainDestTag.bind fun r _ _ => ?_
    dsimp only
    split_ifs
    · exact .ok _
    · exact (throws_dstChainInstruction r.2).bind fun _ _ => .ok _

theorem follows_transferNormal (hstarted : t.chcr.dmaStarted = true) : t.Follows t.normalPointers t.transferNormal := by
  have hgo : ¬(!t.chcr.dmaStarted) = true := by simp [hstarted]
  unfold normalPointers transferNormal
  rw [if_neg hgo]
  split_ifs
  · exact follows_suspendWhenEmpty t
  · exact follows_nil fun _ => .ok _
  · exact follows_afterData t fun t => t.isSourceStallControlOn

theorem follows_transferChain (hstarted : t.chcr.dmaStarted = true) : t.Follows t.chainPointers t.transferChain := by
  have hgo : ¬(!t.chcr.dmaStarted) = true := by simp [hstarted]
  unfold chainPointers transferChain chainData
  rw [if_neg hgo]
  split_ifs
  · exact follows_nil fun _ => .ok _
  · exact follows_afterData t fun t => t.isSourceStallControlOn ∧ t.chcr.tagStall
  · exact follows_suspendWhenEmpty t
  · exact follows_chainTag t

/-- A turn that does not move on follows no pointer. -/
theorem throws_channelTurn_of_not_started (hstarted : t.chcr.dmaStarted = false) :
    Throws (fun e => ¬OfPointer e) t.channelTurn := by
  have hgo : (!t.chcr.dmaStarted) = true := by simp [hstarted]
  unfold channelTurn transferNormal transferChain
  rw [if_pos hgo, if_pos hgo]
  split_ifs
  · split
    · exact .error (by simp [OfPointer])
    · exact .ok _
    · exact .error (by simp [OfPointer])
    · exact .error (by simp [OfPointer])
  · split
    · exact .ok _
    · exact .ok _
    · exact .error (by simp [OfPointer])
    · exact .error (by simp [OfPointer])
  · exact .ok _

/-- A turn follows its pointers and no others: it fails at one that is not set, and at no other. -/
theorem follows_channelTurn : t.Follows t.pointers t.channelTurn := by
  cases hstarted : t.chcr.dmaStarted with
  | false =>
    rw [pointers, hstarted, if_neg fun h => absurd h.2 (by decide)]
    exact follows_nil fun _ => throws_channelTurn_of_not_started t hstarted
  | true =>
    unfold pointers channelTurn
    by_cases hstr : str.extractFrom t.chcr.w ≠ 0
    · rw [if_pos hstr, if_pos ⟨hstr, hstarted⟩]
      rcases (mod.extractFrom t.chcr.w).toNat with _ | _ | _ | n
      · exact follows_transferNormal t hstarted
      · exact follows_transferChain t hstarted
      · exact follows_nil fun _ => .error (by simp [OfPointer])
      · exact follows_nil fun _ => .error (by simp [OfPointer])
    · rw [if_neg hstr, if_neg fun h => hstr h.1]
      exact follows_nil fun _ => .ok _

/-! ### What a channel supports -/

/-- The turn ends a transfer. -/
def EndsTransfer : Prop :=
  str.extractFrom t.chcr.w ≠ 0 ∧ t.chcr.dmaStarted = true ∧ t.qwc = 0 ∧
    (mod.extractFrom t.chcr.w = 0 ∨ mod.extractFrom t.chcr.w = 1 ∧ t.chainExit = true)

instance : Decidable t.EndsTransfer := inferInstanceAs (Decidable (_ ∧ _))

/-- What is asked of the channel is something it has. -/
structure Supported : Prop where
  /-- Only fromSPR has neither a FIFO that takes the data nor an exception made for it. -/
  ends : t.EndsTransfer → t.chcr.direction = .TO → t.channelId ≠ 8
  /-- A tag of a destination chain comes out of a FIFO. -/
  dest : t.TakesTag → t.chcr.direction = .FROM → t.channelId.val < 8
  /-- A tag of a source chain comes from where TADR points to. -/
  source : t.TakesTag → t.chcr.direction = .TO → t.channelId.val ∈ [0, 1, 2, 4, 6, 9]
  /-- A tag that has been read is sent to a FIFO. -/
  sends : t.TakesTag → t.chcr.direction = .TO → ∀ q, t.sourceTag = .ok q → tte.extractFrom t.chcr.w ≠ 0 →
    t.channelId ≠ 9
  /-- The stack of a chain has two places, on the channels that have one. -/
  stack : t.TakesTag → t.chcr.direction = .TO → ∀ q, t.sourceTag = .ok q →
    (tte.extractFrom t.chcr.w ≠ 0 → t.dmaFifoQueue.any (·.hasWriteAvailable 16) = true) → t.UsesStack (tagOf q) →
    t.channelId.val ∈ [0, 1, 2] ∧ t.stacked < 2

section Supported

variable {t}

theorem set_transferData (h : Initialised t.channelId t.toEeDmacChannel) : ∀ p ∈ t.transferDataPointers, t.isSet p = true := by
  have htable : ∀ id : Fin 10, if id = 8 ∨ id = 9 then initialised id .sadr = true
      else initialised id .dmaFifoQueue = true := by decide
  have hid := htable t.channelId
  unfold transferDataPointers
  split_ifs at hid ⊢
  · exact List.forall_mem_singleton.mpr ((h.isSet _).trans hid)
  · exact List.forall_mem_singleton.mpr ((h.isSet _).trans hid)

theorem set_suspend_iff (h : Initialised t.channelId t.toEeDmacChannel) :
    (∀ p ∈ t.suspendPointers, t.isSet p = true) ↔ (t.chcr.direction = .TO → t.channelId ≠ 8) := by
  have htable : ∀ id : Fin 10, id ≠ 9 → (initialised id .dmaFifoQueue = true ↔ id ≠ 8) := by decide
  unfold suspendPointers
  split_ifs with hto
  · rw [List.forall_mem_singleton, h.isSet, htable _ hto.2]
    exact ⟨fun h8 _ => h8, fun h8 => h8 hto.1⟩
  · refine ⟨fun _ hdir h8 => hto ⟨hdir, ?_⟩, fun _ _ hp => absurd hp List.not_mem_nil⟩
    rw [h8]
    decide

theorem set_handler_iff (h : Initialised t.channelId t.toEeDmacChannel) (tag : EeDmatag) :
    (∀ p ∈ t.handlerPointers tag, t.isSet p = true) ↔
      (t.UsesStack tag → t.channelId.val ∈ [0, 1, 2] ∧ t.stacked < 2) := by
  unfold handlerPointers
  split_ifs with huses
  · rw [List.forall_mem_singleton, h.isSet]
    simp only [initialised, Bool.and_eq_true, decide_eq_true_eq]
    exact ⟨fun h _ => h.symm, fun h => (h huses).symm⟩
  · exact ⟨fun _ hu => absurd hu huses, fun _ _ hp => absurd hp List.not_mem_nil⟩

theorem set_sourceTag_iff (h : Initialised t.channelId t.toEeDmacChannel) :
    (∀ p ∈ t.sourceTagPointers, t.isSet p = true) ↔ t.channelId.val ∈ [0, 1, 2, 4, 6, 9] ∧
      ∀ q, t.sourceTag = .ok q → (tte.extractFrom t.chcr.w ≠ 0 → t.channelId ≠ 9) ∧
        ((tte.extractFrom t.chcr.w ≠ 0 → t.dmaFifoQueue.any (·.hasWriteAvailable 16) = true) → t.UsesStack (tagOf q) →
          t.channelId.val ∈ [0, 1, 2] ∧ t.stacked < 2) := by
  have htable : ∀ id : Fin 10, id.val ∈ [0, 1, 2, 4, 6, 9] → (initialised id .dmaFifoQueue = true ↔ id ≠ 9) := by decide
  unfold sourceTagPointers
  rw [List.forall_mem_cons, h.isSet .tadr, initialised, decide_eq_true_eq]
  refine and_congr_right fun hid => ?_
  cases t.sourceTag with
  | error e => exact ⟨fun _ q hq => absurd hq (by simp), fun _ _ hp => absurd hp List.not_mem_nil⟩
  | ok q =>
    simp only [Except.ok.injEq, forall_eq']
    by_cases htte : tte.extractFrom t.chcr.w ≠ 0
    · rw [if_pos htte, List.forall_mem_cons, h.isSet, htable _ hid]
      refine and_congr ⟨fun h9 _ => h9, fun h9 => h9 htte⟩ ?_
      split_ifs with hroom
      · rw [set_handler_iff h]
        exact ⟨fun hstack _ => hstack, fun hstack => hstack fun _ => hroom⟩
      · exact ⟨fun _ hyes => absurd (hyes htte) hroom, fun _ _ hp => absurd hp List.not_mem_nil⟩
    · rw [if_neg htte, set_handler_iff h]
      exact ⟨fun hstack => ⟨fun h0 => absurd h0 htte, fun _ => hstack⟩, fun hstack => hstack.2 fun h0 => absurd h0 htte⟩

theorem supported_of_idle (hends : ¬t.EndsTransfer) (htag : ¬t.TakesTag) : t.Supported :=
  ⟨fun h => absurd h hends, fun h => absurd h htag, fun h => absurd h htag, fun h => absurd h htag, fun h => absurd h htag⟩

theorem supported_iff_of_ends (hends : t.EndsTransfer) (htag : ¬t.TakesTag) :
    t.Supported ↔ (t.chcr.direction = .TO → t.channelId ≠ 8) :=
  ⟨fun h => h.ends hends, fun h => ⟨fun _ => h, fun h => absurd h htag, fun h => absurd h htag, fun h => absurd h htag,
    fun h => absurd h htag⟩⟩

theorem supported_iff_of_takesTag (h : Initialised t.channelId t.toEeDmacChannel) (hends : ¬t.EndsTransfer)
    (htag : t.TakesTag) : (∀ p ∈ t.chainTagPointers, t.isSet p = true) ↔ t.Supported := by
  unfold chainTagPointers
  cases hdir : t.chcr.direction with
  | TO =>
    dsimp only
    rw [set_sourceTag_iff h]
    constructor
    · intro hset
      exact ⟨fun he => absurd he hends, fun _ hfrom => absurd (hdir.symm.trans hfrom) (by decide), fun _ _ => hset.1,
        fun _ _ q hq => (hset.2 q hq).1, fun _ _ q hq => (hset.2 q hq).2⟩
    · intro hs
      exact ⟨hs.source htag hdir, fun q hq => ⟨hs.sends htag hdir q hq, hs.stack htag hdir q hq⟩⟩
  | FROM =>
    have htable : ∀ id : Fin 10, initialised id .dmaFifoQueue = true ↔ id.val < 8 := by decide
    have hno : ¬t.chcr.direction = .TO := fun hto => absurd (hdir.symm.trans hto) (by decide)
    dsimp only
    rw [List.forall_mem_singleton, h.isSet, htable]
    constructor
    · intro hid
      exact ⟨fun he => absurd he hends, fun _ _ => hid, fun _ hto => absurd hto hno, fun _ hto => absurd hto hno,
        fun _ hto => absurd hto hno⟩
    · intro hs
      exact hs.dest htag hdir

/-- The turns that find all their pointers are those that ask for something the channel has. -/
theorem pointersSet_iff (h : Initialised t.channelId t.toEeDmacChannel) : t.PointersSet ↔ t.Supported := by
  have hdata : (∀ p ∈ t.transferDataPointers, t.isSet p = true) ↔ True := iff_true_intro (set_transferData h)
  have hnil : (∀ p ∈ ([] : List EeDmacPointer), t.isSet p = true) ↔ True := iff_true_intro fun _ hp => absurd hp List.not_mem_nil
  unfold PointersSet pointers
  by_cases hgo : str.extractFrom t.chcr.w ≠ 0 ∧ t.chcr.dmaStarted = true
  · rw [if_pos hgo]
    have hmod (k : Uword) : mod.extractFrom t.chcr.w = k ↔ (mod.extractFrom t.chcr.w).toNat = k.toNat :=
      ⟨congrArg _, BitVec.eq_of_toNat_eq⟩
    have hends : t.EndsTransfer ↔ t.qwc = 0 ∧
        ((mod.extractFrom t.chcr.w).toNat = 0 ∨ (mod.extractFrom t.chcr.w).toNat = 1 ∧ t.chainExit = true) := by
      rw [EndsTransfer, hmod, hmod]
      exact ⟨fun h => h.2.2, fun h => ⟨hgo.1, hgo.2, h⟩⟩
    have htag : t.TakesTag ↔ (mod.extractFrom t.chcr.w).toNat = 1 ∧ ¬0 < t.qwc ∧ ¬t.chainExit = true := by
      rw [TakesTag, Going, hmod]
      exact ⟨fun h => ⟨h.1.2.1, h.2⟩, fun h => ⟨⟨hgo.1, h.1, hgo.2⟩, h.2⟩⟩
    generalize (mod.extractFrom t.chcr.w).toNat = n at hends htag ⊢
    rcases n with _ | _ | n
    · have hno : ¬t.TakesTag := fun h => absurd (htag.mp h).1 (by decide)
      show (∀ p ∈ t.normalPointers, t.isSet p = true) ↔ t.Supported
      unfold normalPointers
      split_ifs with hqwc
      · rw [set_suspend_iff h]
        exact (supported_iff_of_ends (hends.mpr ⟨hqwc, .inl rfl⟩) hno).symm
      · exact hnil.trans (iff_true_intro (supported_of_idle (fun he => hqwc (hends.mp he).1) hno)).symm
      · exact hdata.trans (iff_true_intro (supported_of_idle (fun he => hqwc (hends.mp he).1) hno)).symm
    · have hzero : ¬0 < t.qwc → t.qwc = 0 := by bv_omega
      have hidle (hqwc : 0 < t.qwc) : t.Supported := by
        refine supported_of_idle (fun he => ?_) fun ht => (htag.mp ht).2.1 hqwc
        have h0 := (hends.mp he).1
        bv_omega
      show (∀ p ∈ t.chainPointers, t.isSet p = true) ↔ t.Supported
      unfold chainPointers
      split_ifs with hqwc _ hexit
      · exact hnil.trans (iff_true_intro (hidle hqwc)).symm
      · exact hdata.trans (iff_true_intro (hidle hqwc)).symm
      · rw [set_suspend_iff h]
        refine (supported_iff_of_ends (hends.mpr ⟨hzero hqwc, .inr ⟨rfl, hexit⟩⟩) ?_).symm
        exact fun ht => (htag.mp ht).2.2 hexit
      · refine supported_iff_of_takesTag h (fun he => ?_) (htag.mpr ⟨rfl, hqwc, hexit⟩)
        exact (hends.mp he).2.elim (fun h => absurd h (by decide)) fun h => hexit h.2
    · have hno : ¬t.TakesTag := fun h => absurd (htag.mp h).1 (by omega)
      have hnot : ¬t.EndsTransfer := fun h => by
        have := (hends.mp h).2
        omega
      exact hnil.trans (iff_true_intro (supported_of_idle hnot hno)).symm
  · rw [if_neg hgo]
    refine hnil.trans (iff_true_intro (supported_of_idle ?_ ?_)).symm
    · exact fun h => hgo ⟨h.1, h.2.1⟩
    · exact fun h => hgo ⟨h.1.1, h.1.2.2⟩

/-- The channels with a stack have all a chain needs, as long as there is room on the stack. -/
theorem supported_of_stack (hid : t.channelId.val ∈ [0, 1, 2]) (hstacked : t.stacked < 2) : t.Supported := by
  have htable : ∀ id : Fin 10, id.val ∈ [0, 1, 2] → id ≠ 8 ∧ id.val < 8 ∧ id.val ∈ [0, 1, 2, 4, 6, 9] ∧ id ≠ 9 := by
    decide
  obtain ⟨h8, hlt, htadr, h9⟩ := htable t.channelId hid
  exact ⟨fun _ _ => h8, fun _ _ => hlt, fun _ _ => htadr, fun _ _ _ _ _ => h9, fun _ _ _ _ _ _ => ⟨hid, hstacked⟩⟩

end Supported

end EeDmacTurn

end Orbum
