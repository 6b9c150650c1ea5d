import Orbum.Ee.Dmac.Frame
import Orbum.Lib.Run

/-!
# The scope of stall control in a chain

Stall control is meant for the data of REFS and CNTS tags only: `transfer_chain` asks whether the channel is in such a
tag. The flag it asks is set by these tags and cleared by a start of the channel, and no other tag clears it.

## The model

A move is a turn of the channel, a write of its CHCR, or anything else that leaves the flag alone, such as the turns of
the other channels: `exists_moves_of_timeStep` shows that a tick is a run. The tags that turns have read since the last
start are recorded beside the channel. What a turn does with data is said of all turns with the CHCR of the run, whatever
the other registers and memory are.
-/

namespace Orbum

open LittleEndian

namespace EeDmacTurn

open EeDmacChcr EeDmacCtrl

variable {t t' : EeDmacTurn}

/-! ### The flag -/

/-- What a step does to the flag, D_STADR being as before. -/
structure Flagged (b : Bool) (t t' : EeDmacTurn) : Prop where
  /-- The flag is set where it was, or if `b`. -/
  tagStall : t'.chcr.tagStall = (t.chcr.tagStall || b)
  /-- D_STADR. -/
  stadr : t'.stadr = t.stadr

theorem Flagged.of_eq (hflag : t'.chcr.tagStall = t.chcr.tagStall) (hstadr : t'.stadr = t.stadr) : Flagged false t t' :=
  ⟨hflag.trans (Bool.or_false _).symm, hstadr⟩

theorem Flagged.refl (t : EeDmacTurn) : Flagged false t t := .of_eq rfl rfl

theorem Flagged.trans {b : Bool} {t'' : EeDmacTurn} (h : Flagged b t t') (h' : Flagged false t' t'') : Flagged b t t'' :=
  ⟨h'.tagStall.trans ((Bool.or_false _).trans h.tagStall), h'.stadr.trans h.stadr⟩

theorem Flagged.after {b : Bool} {t'' : EeDmacTurn} (h : Flagged false t t') (h' : Flagged b t' t'') : Flagged b t t'' :=
  ⟨h'.tagStall.trans (by rw [h.tagStall, Bool.or_false]), h'.stadr.trans h.stadr⟩

theorem w_writeUword (c : EeDmacChcr) (value : Uword) : (c.writeUword value).w = value := by
  unfold writeUword
  split_ifs <;> rfl

/-- The register is written with a value of the same STR. -/
theorem writeChcr_eq (t : EeDmacTurn) (value : Uword) : ∃ value', str.extractFrom value' = str.extractFrom value ∧
    (t.writeChcr value).chcr = t.chcr.writeUword value' ∧ (t.writeChcr value).stadr = t.stadr := by
  have hstr {value' : Uword} (h : value'.getLsbD 8 = value.getLsbD 8) : str.extractFrom value' = str.extractFrom value := by
    ext i hi
    rw [← BitVec.getLsbD_eq_getElem, ← BitVec.getLsbD_eq_getElem, Bitfield.getLsbD_extractFrom,
      Bitfield.getLsbD_extractFrom]
    by_cases h0 : i = 0
    · simpa [str, h0] using h
    · simp [str, h0]
  have hclear : str.extractFrom (value &&& ~~~1) = str.extractFrom value := hstr (by simp)
  have hset : str.extractFrom (value ||| 1) = str.extractFrom value := hstr (by simp)
  unfold writeChcr writeChcrSif0 writeChcrSif1 writeChcrSif2
  dsimp only
  split_ifs
  · exact ⟨_, hclear, rfl, rfl⟩
  · exact ⟨_, hclear, rfl, rfl⟩
  · exact ⟨_, hset, rfl, rfl⟩
  · exact ⟨_, hset, rfl, rfl⟩
  · exact ⟨_, rfl, rfl, rfl⟩
  · exact ⟨_, rfl, rfl, rfl⟩
  · exact ⟨_, rfl, rfl, rfl⟩
  · exact ⟨_, rfl, rfl, rfl⟩

/-- A write clears the flag if it starts the channel. -/
theorem tagStall_writeChcr (t : EeDmacTurn) (value : Uword) : (t.writeChcr value).chcr.tagStall =
    if str.extractFrom t.chcr.w = 0 ∧ str.extractFrom (t.writeChcr value).chcr.w ≠ 0 then false
    else t.chcr.tagStall := by
  obtain ⟨value', -, hchcr, -⟩ := writeChcr_eq t value
  rw [hchcr, w_writeUword, writeUword]
  split_ifs <;> rfl

/-- Inserting a field does not, unless it sets STR. -/
theorem flagged_insertChcr {f : Bitfield} {v : Uword} (hf : f = str ∧ v = 0 ∨ str.Disjoint f) :
    Flagged false t (t.insertChcr f v) := by
  obtain ⟨value', hstr, hchcr, hstadr⟩ := writeChcr_eq t (f.insertInto t.chcr.w v)
  refine .of_eq ?_ hstadr
  rw [insertChcr, hchcr, writeUword, if_neg]
  rintro ⟨h0, h1⟩
  rw [hstr] at h1
  rcases hf with ⟨rfl, rfl⟩ | hf
  · rw [Bitfield.extractFrom_insertInto_self _ _ _ (by decide)] at h1
    exact h1 BitVec.zero_and
  · exact h1 ((Bitfield.extractFrom_insertInto_of_disjoint _ _ hf).trans h0)

theorem flagged_noteTag (t : EeDmacTurn) : Flagged false t t.noteTag := by
  have hirq : Flagged false t { t with chcr := { t.chcr with tagIrq := t.chcr.dmaTag.irq } } := .of_eq rfl rfl
  exact hirq.trans (flagged_insertChcr (.inr (by decide)))

theorem flagged_suspendWhenEmpty (t : EeDmacTurn) : Ensures (Flagged false t) t.suspendWhenEmpty := by
  have hcis : Flagged false t { t with stat := (EeDmacStat.cis t.channelId).insertInto t.stat 1 } := .of_eq rfl rfl
  have hstop : Flagged false t t.setStateSuspended := hcis.trans (flagged_insertChcr (.inl ⟨rfl, rfl⟩))
  unfold suspendWhenEmpty
  split_ifs
  · refine (Ensures.trivial _).bind fun queue _ => ?_
    split_ifs
    · exact .ok (.refl t)
    · exact .ok hstop
  · exact .ok hstop

/-! ### Handlers -/

/-- Of the tags of a source chain only REFS sets the flag. -/
theorem flagged_srcChainInstruction (t : EeDmacTurn) :
    Ensures (Flagged (t.chcr.dmaTag.id.toNat = 4) t) t.srcChainInstruction := by
  refine (sourceHandled_srcChainInstruction t).mono fun t' h => ?_
  cases h with
  | registers hid =>
    rw [decide_eq_false hid]
    exact .of_eq rfl rfl
  | refs hid =>
    rw [decide_eq_true hid]
    exact ⟨(Bool.or_true _).symm, rfl⟩
  | @pushes madr v tadr asr hid =>
    have hregisters : Flagged false t { t with qwc := t.chcr.dmaTag.qwc, madr, tadr, asr } := .of_eq rfl rfl
    rw [decide_eq_false hid]
    exact hregisters.trans (flagged_insertChcr (.inr (by decide)))
  | @pops v r tadr hid =>
    have hpop : Flagged false t (insertChcr { t with tadr } asp v) :=
      (show Flagged false t { t with tadr } from .of_eq rfl rfl).trans (flagged_insertChcr (.inr (by decide)))
    rw [decide_eq_false hid]
    exact hpop.trans (.of_eq rfl rfl)

/-- Of the tags of a destination chain only CNTS does. -/
theorem flagged_dstChainInstruction (t : EeDmacTurn) :
    Ensures (Flagged (t.chcr.dmaTag.id.toNat = 0) t) t.dstChainInstruction := by
  unfold dstChainInstruction
  generalize t.chcr.dmaTag.id.toNat = n
  split
  · exact .ok ⟨(Bool.or_true _).symm, rfl⟩
  · exact .ok (.of_eq rfl rfl)
  · exact .ok (.of_eq rfl rfl)
  · exact .error _

/-! ### Turns -/

/-- The channel has begun with a chain. -/
def Going (c : EeDmacChcr) : Prop := str.extractFrom c.w ≠ 0 ∧ mod.extractFrom c.w = 1 ∧ c.dmaStarted = true

instance (c : EeDmacChcr) : Decidable (Going c) := inferInstanceAs (Decidable (_ ∧ _))

/-- The turn is for a tag. -/
def TakesTag (t : EeDmacTurn) : Prop := Going t.chcr ∧ ¬0 < t.qwc ∧ ¬t.chainExit = true

instance (t : EeDmacTurn) : Decidable t.TakesTag := inferInstanceAs (Decidable (_ ∧ _))

/-- `read_chain_source_tag` or `read_chain_dest_tag`. -/
def readTag (t : EeDmacTurn) : Except HostError (Bool × EeDmacTurn) :=
  match t.chcr.direction with
  | .TO => t.readChainSourceTag
  | .FROM => t.readChainDestTag

/-- The tag that a turn reads, if it reads one. -/
def tagRead (t : EeDmacTurn) : List (Direction × EeDmatag) :=
  if t.TakesTag then
    match t.readTag with
    | .ok (true, u) => [(t.chcr.direction, u.chcr.dmaTag)]
    | _ => []
  else []

/-- REFS, in a source chain. -/
def isRefs (d : Direction × EeDmatag) : Bool := d.1 = .TO ∧ d.2.id.toNat = 4

/-- CNTS, in a destination chain. -/
def isCnts (d : Direction × EeDmatag) : Bool := d.1 = .FROM ∧ d.2.id.toNat = 0

/-- A tag that sets the flag. -/
def stalls (d : Direction × EeDmatag) : Bool := isRefs d || isCnts d

theorem tagRead_of_not_takesTag (h : ¬t.TakesTag) : t.tagRead = [] := if_neg h

theorem tagRead_of_readTag (h : t.TakesTag) {read : Bool} {u : EeDmacTurn} (hread : t.readTag = .ok (read, u)) :
    t.tagRead = if read then [(t.chcr.direction, u.chcr.dmaTag)] else [] := by
  rw [tagRead, if_pos h, hread]
  cases read <;> rfl

theorem flagged_readChainSourceTag (t : EeDmacTurn) : Ensures (fun r => Flagged false t r.2) t.readChainSourceTag := by
  refine (Ensures.trivial _).bind fun tadr _ => (Ensures.trivial _).bind fun tag _ => ?_
  split_ifs
  · refine (Ensures.trivial _).bind fun queue _ => ?_
    split_ifs
    · exact .ok (.refl t)
    · exact (Ensures.trivial _).bind fun queue _ => .ok (.of_eq rfl rfl)
  · exact .ok (.of_eq rfl rfl)

theorem flagged_readChainDestTag (t : EeDmacTurn) : Ensures (fun r => Flagged false t r.2) t.readChainDestTag := by
  refine (Ensures.trivial _).bind fun queue _ => ?_
  split_ifs
  · exact .ok (.refl t)
  · exact (Ensures.trivial _).bind fun packet _ => .error _
  · exact (Ensures.trivial _).bind fun packet _ => .ok (.of_eq rfl rfl)

/-- The turn that reads a tag. -/
theorem flagged_chainTag (h : t.TakesTag) : Ensures (Flagged (t.tagRead.any stalls) t) t.chainTag := by
  intro t' hs
  rw [chainTag] at hs
  cases hdir : t.chcr.direction with
  | TO =>
    rw [hdir] at hs
    obtain ⟨⟨read, u⟩, hread, hs⟩ := bind_eq_ok_iff.mp hs
    have hu := flagged_readChainSourceTag t _ hread
    rw [tagRead_of_readTag h (by rw [readTag, hdir]; exact hread), hdir]
    cases read with
    | false =>
      obtain rfl := Except.ok.inj hs
      exact hu
    | true =>
      obtain ⟨u', hhandle, hs⟩ := bind_eq_ok_iff.mp hs
      obtain rfl := Except.ok.inj hs
      have hhandled := (flagged_srcChainInstruction u u' hhandle).trans (flagged_noteTag u')
      simpa [stalls, isRefs, isCnts] using hu.after hhandled
  | FROM =>
    rw [hdir] at hs
    obtain ⟨⟨read, u⟩, hread, hs⟩ := bind_eq_ok_iff.mp hs
    have hu := flagged_readChainDestTag t _ hread
    rw [tagRead_of_readTag h (by rw [readTag, hdir]; exact hread), hdir]
    cases read with
    | false =>
      obtain rfl := Except.ok.inj hs
      exact hu
    | true =>
      obtain ⟨u', hhandle, hs⟩ := bind_eq_ok_iff.mp hs
      obtain rfl := Except.ok.inj hs
      have hhandled := (flagged_dstChainInstruction u u' hhandle).trans (flagged_noteTag u')
      simpa [stalls, isRefs, isCnts] using hu.after hhandled

/-- A move of data leaves CHCR and the registers of stall control alone. -/
structure KeepsControl (t t' : EeDmacTurn) : Prop where
  /-- The number of the channel. -/
  channelId : t'.channelId = t.channelId
  /-- CHCR. -/
  chcr : t'.chcr = t.chcr
  /-- D_CTRL. -/
  ctrl : t'.ctrl = t.ctrl
  /-- D_STAT. -/
  stat : t'.stat = t.stat
  /-- D_STADR. -/
  stadr : t'.stadr = t.stadr

theorem keepsControl_transferData (t : EeDmacTurn) : Ensures (fun r => KeepsControl t r.2) t.transferData := by
  refine (dataMoved_transferData t).mono fun r h => ?_
  cases h with
  | spr => exact ⟨rfl, rfl, rfl, rfl, rfl⟩
  | starved => exact ⟨rfl, rfl, rfl, rfl, rfl⟩
  | received => exact ⟨rfl, rfl, rfl, rfl, rfl⟩
  | blocked => exact ⟨rfl, rfl, rfl, rfl, rfl⟩
  | sent => exact ⟨rfl, rfl, rfl, rfl, rfl⟩

theorem KeepsControl.isSourceStallControlOn (h : KeepsControl t t') :
    t'.isSourceStallControlOn = t.isSourceStallControlOn := by
  rw [EeDmacTurn.isSourceStallControlOn, EeDmacTurn.isSourceStallControlOn, h.chcr, h.channelId, h.ctrl]

/-- The turn of a chain that has data to move: what it may change of the registers of stall control. -/
structure DataTurn (t t' : EeDmacTurn) : Prop where
  /-- The flag is as before. -/
  tagStall : t'.chcr.tagStall = t.chcr.tagStall
  /-- D_STAT changes only if the data is held back. -/
  stat : t'.stat ≠ t.stat → t.isDrainStallControlWaiting = true ∧ t.chcr.tagStall = true
  /-- D_STADR changes only if the channel is the source. -/
  stadr : t'.stadr ≠ t.stadr → t.isSourceStallControlOn = true ∧ t.chcr.tagStall = true

theorem dataTurn_chainData (t : EeDmacTurn) : Ensures (DataTurn t) t.chainData := by
  unfold chainData
  split_ifs with hstall
  · exact .ok ⟨rfl, fun _ => hstall.2, fun h => absurd rfl h⟩
  · refine (keepsControl_transferData t).bind fun r hr => ?_
    dsimp only
    split_ifs with hnone hsource
    · exact .ok ⟨congrArg tagStall hr.chcr, fun h => absurd hr.stat h, fun h => absurd hr.stadr h⟩
    · rw [hr.isSourceStallControlOn, hr.chcr] at hsource
      exact .ok ⟨congrArg tagStall hr.chcr, fun h => absurd hr.stat h, fun _ => hsource⟩
    · exact .ok ⟨congrArg tagStall hr.chcr, fun h => absurd hr.stat h, fun h => absurd hr.stadr h⟩

theorem tagStall_transferNormal (t : EeDmacTurn) :
    Ensures (fun t' => t'.chcr.tagStall = t.chcr.tagStall) t.transferNormal := by
  unfold transferNormal
  split_ifs
  · exact .error _
  · exact .ok rfl
  · exact (flagged_suspendWhenEmpty t).mono fun t' h => h.tagStall.trans (Bool.or_false _)
  · exact .ok rfl
  · refine (keepsControl_transferData t).bind fun r hr => ?_
    dsimp only
    split_ifs
    · exact .ok (congrArg tagStall hr.chcr)
    · exact .ok (congrArg tagStall hr.chcr)
    · exact .ok (congrArg tagStall hr.chcr)

/-- What a turn does to the flag. -/
theorem tagStall_channelTurn (t : EeDmacTurn) :
    Ensures (fun t' => t'.chcr.tagStall = (t.chcr.tagStall || t.tagRead.any stalls)) t.channelTurn := by
  have hnone {t' : EeDmacTurn} (h : ¬t.TakesTag) (ht' : t'.chcr.tagStall = t.chcr.tagStall) :
      t'.chcr.tagStall = (t.chcr.tagStall || t.tagRead.any stalls) := by
    rw [ht', tagRead_of_not_takesTag h, List.any_nil, Bool.or_false]
  unfold channelTurn
  split_ifs with hstr
  · split
    · rename_i hmod
      refine (tagStall_transferNormal t).mono fun t' => hnone fun h => ?_
      rw [h.1.2.1] at hmod
      exact absurd hmod (by decide)
    · rename_i hmod
      unfold transferChain
      split_ifs with hstarted hqwc hexit
      · exact .ok (hnone (fun h => by simp [h.1.2.2] at hstarted) rfl)
      · exact (dataTurn_chainData t).mono fun t' h => hnone (fun hat => hat.2.1 hqwc) h.tagStall
      · exact (flagged_suspendWhenEmpty t).mono fun t' h =>
          hnone (fun hat => hat.2.2 hexit) (h.tagStall.trans (Bool.or_false _))
      · have hat : t.TakesTag := ⟨⟨hstr, BitVec.eq_of_toNat_eq hmod, by simpa using hstarted⟩, hqwc, hexit⟩
        exact (flagged_chainTag hat).mono fun t' h => h.tagStall
    · exact .error _
    · exact .error _
  · exact .ok (hnone (fun h => hstr h.1.1) rfl)

/-- D_STADR is changed by a turn with data in hand only. -/
theorem stadr_channelTurn (hmod : mod.extractFrom t.chcr.w = 1) :
    Ensures (fun t' => t'.stadr ≠ t.stadr →
      0 < t.qwc ∧ Going t.chcr ∧ t.isSourceStallControlOn = true ∧ t.chcr.tagStall = true) t.channelTurn := by
  have hmod' : (mod.extractFrom t.chcr.w).toNat = 1 := by rw [hmod]; rfl
  rw [channelTurn, hmod']
  split_ifs with hstr
  · change Ensures _ t.transferChain
    unfold transferChain
    split_ifs with hstarted hqwc hexit
    · exact .ok fun h => absurd rfl h
    · have hgoing : Going t.chcr := ⟨hstr, hmod, by simpa using hstarted⟩
      exact (dataTurn_chainData t).mono fun t' h hne => ⟨hqwc, hgoing, h.stadr hne⟩
    · exact (flagged_suspendWhenEmpty t).mono fun t' h hne => absurd h.stadr hne
    · have hat : t.TakesTag := ⟨⟨hstr, hmod, by simpa using hstarted⟩, hqwc, hexit⟩
      exact (flagged_chainTag hat).mono fun t' h hne => absurd h.stadr hne
  · exact .ok fun h => absurd rfl h

/-! ### Data -/

/-- A turn holds its data back: it would raise SIS, and do nothing else. -/
def Held (t : EeDmacTurn) : Prop :=
  channelTurn { t with stat := 0 } = .ok (setDmacStallControlSis { t with stat := 0 })

theorem channelTurn_of_data (h : Going t.chcr) (hqwc : 0 < t.qwc) : t.channelTurn = t.chainData := by
  have hmod : (mod.extractFrom t.chcr.w).toNat = 1 := by rw [h.2.1]; rfl
  have hchain : t.transferChain = t.chainData := by
    rw [transferChain, if_neg (by rw [h.2.2]; decide), if_pos hqwc]
  rw [← hchain, channelTurn, if_pos h.1, hmod]
  rfl

/-- Data is held back by the comparison if the flag is set. -/
theorem held_iff (h : Going t.chcr) (hqwc : 0 < t.qwc) (hon : t.isDrainStallControlOn = true) :
    Held t ↔ t.isDrainStallControlWaiting = true ∧ t.chcr.tagStall = true := by
  have hturn : channelTurn { t with stat := 0 } = chainData { t with stat := 0 } := channelTurn_of_data h hqwc
  rw [Held, hturn]
  constructor
  · intro hheld
    refine (dataTurn_chainData _ _ hheld).stat ?_
    exact show EeDmacStat.sis.insertInto 0 1 ≠ 0 by decide
  · intro hstall
    exact if_pos ⟨hon, hstall⟩

/-- The channels that D_CTRL may make the drain. -/
theorem exists_std_iff (i : Fin 10) :
    (∃ ctrl : Uword, i.val = stdMap (std.extractFrom ctrl).toNat) ↔ i = 0 ∨ i = 1 ∨ i = 2 ∨ i = 6 := by
  constructor
  · rintro ⟨ctrl, h⟩
    have hmap : ∀ n < 4, ∀ i : Fin 10, i.val = stdMap n → i = 0 ∨ i = 1 ∨ i = 2 ∨ i = 6 := by decide
    exact hmap _ (Bitfield.toNat_extractFrom_lt _ _) i h
  · rintro (rfl | rfl | rfl | rfl)
    · exact ⟨0, by decide⟩
    · exact ⟨0x40, by decide⟩
    · exact ⟨0x80, by decide⟩
    · exact ⟨0xC0, by decide⟩

/-- The channels that it may make the source. -/
theorem exists_sts_iff (i : Fin 10) :
    (∃ ctrl : Uword, i.val = stsMap (sts.extractFrom ctrl).toNat) ↔ i = 0 ∨ i = 3 ∨ i = 5 ∨ i = 8 := by
  constructor
  · rintro ⟨ctrl, h⟩
    have hmap : ∀ n < 4, ∀ i : Fin 10, i.val = stsMap n → i = 0 ∨ i = 3 ∨ i = 5 ∨ i = 8 := by decide
    exact hmap _ (Bitfield.toNat_extractFrom_lt _ _) i h
  · rintro (rfl | rfl | rfl | rfl)
    · exact ⟨0, by decide⟩
    · exact ⟨0x30, by decide⟩
    · exact ⟨0x10, by decide⟩
    · exact ⟨0x20, by decide⟩

/-- A turn of a source of stall control that finds data. -/
theorem exists_advances (h : Going t.chcr) (hdir : t.chcr.direction = .FROM) (hflag : t.chcr.tagStall = true)
    (hid : t.channelId = 0 ∨ t.channelId = 3 ∨ t.channelId = 5 ∨ t.channelId = 8) :
    ∃ u u' : EeDmacTurn, u.channelId = t.channelId ∧ u.chcr = t.chcr ∧ u.channelTurn = .ok u' ∧ u'.stadr ≠ u.stadr := by
  obtain ⟨ctrl, hctrl⟩ := (exists_sts_iff t.channelId).mpr hid
  let m : Memory := ⟨fun _ => true, fun _ => 0⟩
  let u : EeDmacTurn :=
    { t with
      ctrl, stadr := 0, memory := m, dmaFifoQueue := some ⟨List.replicate 16 0, by decide⟩, madr := 0, qwc := 1,
      sadr := some 0 }
  have hmapped (address : Uptr) (n : ℕ) : m.isMapped address n = true := List.all_eq_true.mpr fun _ _ => rfl
  have hmoved : ∃ r, u.transferData = .ok (1, r) ∧ r.madr = 0x10 := by
    have hspr : ∃ r, u.transferDataSpr = .ok (1, r) ∧ r.madr = 0x10 := by
      obtain ⟨q, hq⟩ : ∃ q, readQwordMemory m (0 &&& 0x3FF0) true = .ok q := exists_readQwordMemory (hmapped _ _)
      obtain ⟨m', hm'⟩ : ∃ m', writeQwordMemory m u.transferAddress false q = .ok m' :=
        exists_writeQwordMemory (hmapped _ _) q
      rw [transferDataSpr, show u.sadr = some 0 from rfl, deref_some, ok_bind, show u.chcr.direction = .FROM from hdir]
      dsimp only
      rw [hq, ok_bind, hm', ok_bind]
      exact ⟨_, rfl, rfl⟩
    have hfifo : ∃ r, u.transferDataFifo = .ok (1, r) ∧ r.madr = 0x10 := by
      obtain ⟨m', hm'⟩ : ∃ m', writeQwordMemory m u.transferAddress u.transferSpr _ = .ok m' :=
        exists_writeQwordMemory (hmapped _ _) (ofBytes 128 (List.replicate 16 0))
      rw [transferDataFifo, show u.dmaFifoQueue = some _ from rfl, deref_some, ok_bind,
        show u.chcr.direction = .FROM from hdir]
      dsimp only
      rw [if_neg (by decide), DmaFifoQueue.read_eq (by decide), ok_bind]
      dsimp only
      rw [show List.take 16 (List.replicate 16 (0 : Ubyte)) = List.replicate 16 0 from rfl, hm', ok_bind]
      exact ⟨_, rfl, rfl⟩
    unfold transferData
    split_ifs
    · exact hspr
    · exact hfifo
  obtain ⟨r, hr, hmadr⟩ := hmoved
  have hkeeps := keepsControl_transferData u _ hr
  have hsource : r.isSourceStallControlOn = true ∧ r.chcr.tagStall = true := by
    rw [hkeeps.isSourceStallControlOn, hkeeps.chcr, isSourceStallControlOn, decide_eq_true_eq]
    exact ⟨⟨hdir, hctrl⟩, hflag⟩
  have hdrain : u.isDrainStallControlOn = false := by
    rw [isDrainStallControlOn, decide_eq_false_iff_not, show u.chcr.direction = .FROM from hdir]
    exact fun hto => absurd hto.1 (by decide)
  refine ⟨u, r.setDmacStallControlStadr, rfl, rfl, ?_, ?_⟩
  · rw [channelTurn_of_data (t := u) h (show (0 : Uword) < 1 by decide), chainData, hdrain,
      if_neg (fun hand => absurd hand.1 Bool.false_ne_true), hr, ok_bind]
    dsimp only
    rw [if_neg Nat.one_ne_zero, if_pos hsource, pure_eq_ok]
  · rw [setDmacStallControlStadr, hmadr]
    exact show EeDmacAddr.addr.extractFrom 0x10 ≠ 0 by decide

end EeDmacTurn

/-! ### Runs -/

/-- A channel, and what is recorded of a run. -/
structure StallRun where
  /-- The channel, and what the channels share. -/
  turn : EeDmacTurn
  /-- The tags read since it was started, with the direction of the chain. -/
  tags : List (EeDmacChcr.Direction × EeDmatag)

namespace StallRun

open EeDmac EeDmacChcr EeDmacCtrl EeDmacTurn

/-- A move of a run. -/
inductive Move where
  /-- A turn of the channel. -/
  | turn
  /-- The EE writes CHCR. -/
  | chcr (value : Uword)
  /-- Anything else. -/
  | rest (f : EeDmacTurn → EeDmacTurn)

/-- What `f` does, but to the flag and the number of the channel. -/
def keeping (f : EeDmacTurn → EeDmacTurn) (t : EeDmacTurn) : EeDmacTurn :=
  { f t with channelId := t.channelId, chcr := { (f t).chcr with tagStall := t.chcr.tagStall } }

/-- What a move does. -/
def step : Move → StallRun → Except HostError StallRun
  | .turn, s => do return ⟨← s.turn.channelTurn, s.tags ++ s.turn.tagRead⟩
  | .chcr value, s =>
    let t := s.turn.writeChcr value
    .ok ⟨t, if str.extractFrom s.turn.chcr.w = 0 ∧ str.extractFrom t.chcr.w ≠ 0 then [] else s.tags⟩
  | .rest f, s => .ok ⟨keeping f s.turn, s.tags⟩

/-- The last tag is such a tag. -/
def InTag (p : Direction × EeDmatag → Bool) (s : StallRun) : Prop := ∃ d, s.tags.getLast? = some d ∧ p d = true

/-- Stall control is for the data of REFS and CNTS only. -/
structure InScope (s : StallRun) : Prop where
  /-- A drain holds data back where it waits for D_STADR and is in REFS. -/
  drain : ∀ t : EeDmacTurn, t.channelId = s.turn.channelId → t.chcr = s.turn.chcr → Going t.chcr → 0 < t.qwc →
    t.isDrainStallControlOn = true → (Held t ↔ t.isDrainStallControlWaiting = true ∧ s.InTag isRefs)
  /-- A destination chain changes D_STADR with data of CNTS only. -/
  source : ∀ t t' : EeDmacTurn, t.channelId = s.turn.channelId → t.chcr = s.turn.chcr → mod.extractFrom t.chcr.w = 1 →
    t.chcr.direction = .FROM → t.channelTurn = .ok t' → t'.stadr ≠ t.stadr → 0 < t.qwc ∧ s.InTag isCnts

/-- In a chain that stall control is for, no other tag has been read after REFS or CNTS. -/
structure NoneFollows (s : StallRun) : Prop where
  /-- A source chain of a channel that D_CTRL may make the drain. -/
  drain : Going s.turn.chcr → s.turn.chcr.direction = .TO →
    s.turn.channelId = 0 ∨ s.turn.channelId = 1 ∨ s.turn.channelId = 2 ∨ s.turn.channelId = 6 →
    (∃ d ∈ s.tags, stalls d = true) → s.InTag isRefs
  /-- A destination chain of a channel that it may make the source. -/
  source : Going s.turn.chcr → s.turn.chcr.direction = .FROM →
    s.turn.channelId = 0 ∨ s.turn.channelId = 3 ∨ s.turn.channelId = 5 ∨ s.turn.channelId = 8 →
    (∃ d ∈ s.tags, stalls d = true) → s.InTag isCnts

variable {s s' : StallRun}

/-- The flag says whether a tag has set it since the start. -/
def Inv (s : StallRun) : Prop := s.turn.chcr.tagStall = s.tags.any stalls

/-- Every move keeps it. -/
theorem Inv.step {m : Move} (hinv : Inv s) (hs : StallRun.step m s = .ok s') : Inv s' := by
  cases m with
  | turn =>
    obtain ⟨t, ht, heq⟩ := bind_eq_ok_iff.mp hs
    obtain rfl := Except.ok.inj heq
    rw [Inv, tagStall_channelTurn s.turn t ht, List.any_append, hinv]
  | chcr value =>
    obtain rfl := Except.ok.inj hs
    rw [Inv, tagStall_writeChcr]
    dsimp only
    split_ifs
    · rfl
    · exact hinv
  | rest f =>
    obtain rfl := Except.ok.inj hs
    exact hinv

theorem Inv.exists_iff (hinv : Inv s) : (∃ d ∈ s.tags, stalls d = true) ↔ s.turn.chcr.tagStall = true := by
  rw [hinv, List.any_eq_true]

theorem InTag.exists {p : Direction × EeDmatag → Bool} (hp : ∀ d, p d = true → stalls d = true) (h : s.InTag p) :
    ∃ d ∈ s.tags, stalls d = true := by
  obtain ⟨d, hlast, hd⟩ := h
  exact ⟨d, List.mem_of_getLast? hlast, hp d hd⟩

/-- Whether stall control keeps within its scope, whatever the registers are. -/
theorem inScope_iff (hinv : Inv s) : InScope s ↔ NoneFollows s := by
  have hrefs (d : Direction × EeDmatag) (hd : isRefs d = true) : stalls d = true := by rw [stalls, hd, Bool.true_or]
  constructor
  · intro h
    refine ⟨fun hgoing hdir hid hany => ?_, fun hgoing hdir hid hany => ?_⟩
    · obtain ⟨ctrl, hctrl⟩ := (exists_std_iff s.turn.channelId).mpr hid
      let t : EeDmacTurn := { s.turn with ctrl, stadr := 0, madr := 0, qwc := 1 }
      have hqwc : 0 < t.qwc := show (0 : Uword) < 1 by decide
      have hon : t.isDrainStallControlOn = true := decide_eq_true ⟨hdir, hctrl⟩
      have hwaits : t.isDrainStallControlWaiting = true :=
        decide_eq_true ⟨hdir, show (0 : Uword) < EeDmacAddr.addr.extractFrom 0 + 8 by decide⟩
      have hheld := (held_iff (t := t) hgoing hqwc hon).mpr ⟨hwaits, hinv.exists_iff.mp hany⟩
      exact ((h.drain t rfl rfl hgoing hqwc hon).mp hheld).2
    · obtain ⟨t, t', hid', hchcr, hturn, hne⟩ := exists_advances hgoing hdir (hinv.exists_iff.mp hany) hid
      exact (h.source t t' hid' hchcr (hchcr ▸ hgoing.2.1) (hchcr ▸ hdir) hturn hne).2
  · intro h
    refine ⟨fun t hid hchcr hgoing hqwc hon => ?_, fun t t' hid hchcr hmod hdir hturn hne => ?_⟩
    · rw [held_iff hgoing hqwc hon, hchcr, ← hinv.exists_iff]
      refine and_congr_right fun _ => ⟨fun hany => ?_, InTag.exists hrefs⟩
      obtain ⟨hdir, hselected⟩ := of_decide_eq_true hon
      exact h.drain (hchcr ▸ hgoing) (hchcr ▸ hdir) (hid ▸ (exists_std_iff t.channelId).mp ⟨_, hselected⟩) hany
    · obtain ⟨hqwc, hgoing, hon, hflag⟩ := stadr_channelTurn hmod t' hturn hne
      obtain ⟨-, hselected⟩ := of_decide_eq_true hon
      exact ⟨hqwc, h.source (hchcr ▸ hgoing) (hchcr ▸ hdir) (hid ▸ (exists_sts_iff t.channelId).mp ⟨_, hselected⟩)
        (hinv.exists_iff.mpr (hchcr ▸ hflag))⟩

/-- Over every run, stall control keeps within its scope if and only if no other tag is read after REFS or CNTS. -/
theorem inScope_throughout_iff {t : EeDmacTurn} (h : t.chcr.tagStall = false) (ms : List Move) :
    Run.Always step (fun _ s => InScope s) ms ⟨t, []⟩ ↔ Run.Always step (fun _ s => NoneFollows s) ms ⟨t, []⟩ :=
  Run.always_iff (Q := fun _ _ => True) (fun _ _ _ hinv _ hs => hinv.step hs) (fun _ _ => inScope_iff) h
    (Run.always_of_forall (fun _ _ => trivial) ms _)

/-- VIF1, the drain, started on a REFS tag without data at 0x1000 and a REF tag to a quadword at 0x1010. -/
def refsRef : EeDmacTurn where
  ctrl := 0x41
  stat := 0
  stadr := 0
  sbusF240 := 0
  memory := {
    mapped := fun _ => true
    byte := fun x => if x = 0x1003 then 0x40 else if x = 0x1010 then 1 else if x = 0x1013 then 0x30
      else if x = 0x1015 then 0x20 else 0 }
  channelId := 1
  dmaFifoQueue := some .empty
  madr := 0
  qwc := 0
  chcr := ⟨0x105, false, false, false, false, .blank⟩
  tadr := some 0x1000
  asr := none
  sadr := none

/-- Four turns of it. -/
theorem inScope_throughout_iff_refsRef :
    Run.Always step (fun _ s => InScope s) (.replicate 4 .turn) ⟨refsRef, []⟩ ↔
      Run.Always step (fun _ s => NoneFollows s) (.replicate 4 .turn) ⟨refsRef, []⟩ :=
  inScope_throughout_iff rfl _

/-- The quadword of REF is held back. -/
theorem ref_held : refsRef.chcr.tagStall = false ∧
    ∃ s, Run.run step (.replicate 3 .turn) ⟨refsRef, []⟩ = .ok s ∧ ¬InScope s := by
  have hrun : ∃ s, Run.run step (.replicate 3 .turn) ⟨refsRef, []⟩ = .ok s ∧
      (Going s.turn.chcr ∧ 0 < s.turn.qwc ∧ s.turn.isDrainStallControlOn = true ∧
        s.turn.isDrainStallControlWaiting = true ∧ s.turn.chcr.tagStall = true ∧
        s.tags.getLast?.all (fun d => !isRefs d) = true) := by
    decide +kernel
  obtain ⟨s, hs, hgoing, hqwc, hon, hwaits, hflag, hlast⟩ := hrun
  refine ⟨rfl, s, hs, fun hscope => ?_⟩
  have hheld := (held_iff hgoing hqwc hon).mpr ⟨hwaits, hflag⟩
  obtain ⟨-, d, hd, hrefs⟩ := (hscope.drain s.turn rfl rfl hgoing hqwc hon).mp hheld
  rw [hd, Option.all_some, hrefs] at hlast
  exact absurd hlast (by decide)

/-! ### Ticks are runs -/

/-- A tick is a run. -/
theorem exists_moves_of_timeStep {d d' : EeDmac} {i : Fin 10} (hd : d.Numbered) (h : d.timeStep = .ok d')
    (tags : List (Direction × EeDmatag)) : ∃ ms s', Run.run step ms ⟨d.turn i, tags⟩ = .ok s' ∧ s'.turn = d'.turn i := by
  by_cases hdmae : EeDmacCtrl.dmae.extractFrom d.ctrl = 0
  · rw [timeStep, if_pos hdmae] at h
    obtain rfl := Except.ok.inj h
    exact ⟨[], _, rfl, rfl⟩
  · obtain ⟨d₁, t, -, h₁, hturn, h₂⟩ := timeStep_ok (i := i) hdmae hd h
    have hrest {e e' : EeDmac} (hchannel : e'.channels i = e.channels i) :
        keeping (fun _ => e'.turn i) (e.turn i) = e'.turn i := by
      rw [keeping, EeDmac.turn, EeDmac.turn, hchannel]
    refine ⟨[.rest fun _ => d₁.turn i, .turn, .rest fun _ => d'.turn i],
      ⟨d'.turn i, tags ++ (d₁.turn i).tagRead⟩, ?_, rfl⟩
    refine Run.run_cons_ok.mpr ⟨⟨d₁.turn i, tags⟩, ?_, Run.run_cons_ok.mpr
      ⟨⟨t, tags ++ (d₁.turn i).tagRead⟩, bind_eq_ok_iff.mpr ⟨t, hturn, rfl⟩, Run.run_cons_ok.mpr ⟨_, ?_, rfl⟩⟩⟩
    · rw [step, hrest h₁.channel]
    · have hself : t = (d₁.setTurn i t).turn i := by
        rw [EeDmac.turn, channels_setTurn_self]
        rfl
      rw [step]
      dsimp only
      rw [hself, hrest h₂.channel]

end StallRun

end Orbum
