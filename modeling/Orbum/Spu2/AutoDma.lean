import Orbum.Lib.Run
import Orbum.Spu2.Controller

/-!
# The buffers of SPU2 auto DMA

A core gets the halfwords of its two sound channels in turn, 0x100 for the left one and 0x100 for the right one, and
each channel has two buffers of 0x100 halfwords to fill in turn (`CSpu2.cpp`, "limited to a hword space of 0x100 for
each sound channel, for each buffer (2 total)").

The code takes the offset in the buffers of a channel modulo 0x400, not 0x200, so that of every four rounds it puts the
last two behind the buffers of the channel. It also makes an `int` of the block, which is exact for the first 2^24 of them.

## The model

A run counts, beside the SPU2, the halfwords that each core has moved by auto DMA since its ATTR was written.
-/

namespace Orbum

/-! ### Stripes -/

/-- A sound channel. -/
inductive SoundChannel where
  /-- The left one. -/
  | left
  /-- The right one. -/
  | right
  deriving DecidableEq

/-- The base address of a channel: `base_tsa_left` or `base_tsa_right`. -/
def Spu2CoreInfo.baseTsa (info : Spu2CoreInfo) : SoundChannel → Uptr
  | .left => info.baseTsaLeft
  | .right => info.baseTsaRight

namespace Spu2

/-- An address is in the two buffers of a channel of a core. -/
def InBuffers (c : Fin 2) (ch : SoundChannel) (address : Uptr) : Prop :=
  ((spu2StaticInfo c).baseTsa ch).toNat ≤ address.toNat ∧ address.toNat < ((spu2StaticInfo c).baseTsa ch).toNat + 0x200

/-- The channel that halfword `k` is for. -/
def stripeChannel (k : ℕ) : SoundChannel := if k / 0x100 % 2 = 0 then .left else .right

/-- Where it goes in the two buffers of the channel. -/
def stripeOffset (k : ℕ) : ℕ := 0x100 * (k / 0x200 % 2) + k % 0x100

/-- Halfword `k` is for this address: it is in the buffers of its channel and of no other of either core. -/
structure AdmaPlaced (c : Fin 2) (k : ℕ) (address : Uptr) : Prop where
  /-- The address. -/
  address_eq : address.toNat = ((spu2StaticInfo c).baseTsa (stripeChannel k)).toNat + stripeOffset k
  /-- It is in the buffers of the channel. -/
  inside : InBuffers c (stripeChannel k) address
  /-- It is in no others. -/
  apart : ∀ c' ch, c' ≠ c ∨ ch ≠ stripeChannel k → ¬InBuffers c' ch address

/-- The code finds this address: of four rounds it is one of the first two, and the block, as an `int`, leaves its products
in range and is none of the negative ones of the right channel. -/
def Fits (k : ℕ) : Prop :=
  k / 0x200 % 4 < 2 ∧ (k % 2 ^ 40 < 2 ^ 32 ∨ 2 ^ 40 - 2 ^ 32 ≤ k % 2 ^ 40 ∧ stripeChannel k = .left)

instance (k : ℕ) : Decidable (Fits k) := inferInstanceAs (Decidable (_ ∧ _))

theorem stripeChannel_eq_left {k : ℕ} : stripeChannel k = .left ↔ k / 0x100 % 2 = 0 := by
  rw [stripeChannel]
  split_ifs with h
  · exact iff_of_true rfl h
  · exact iff_of_false (by decide) h

theorem stripeOffset_lt (k : ℕ) : stripeOffset k < 0x200 := by
  unfold stripeOffset
  omega

theorem toNat_baseTsa (c : Fin 2) (ch : SoundChannel) :
    ((spu2StaticInfo c).baseTsa ch).toNat = 0x2000 + 0x400 * c.val + if ch = .left then 0 else 0x200 := by
  revert c
  cases ch <;> decide

/-- No two channels share an address. -/
theorem InBuffers.unique {c c' : Fin 2} {ch ch' : SoundChannel} {address : Uptr} (h : InBuffers c ch address)
    (h' : InBuffers c' ch' address) : c' = c ∧ ch' = ch := by
  rw [InBuffers, toNat_baseTsa] at h h'
  cases ch <;> cases ch' <;> simp only [if_true, if_false, reduceCtorEq] at h h'
  · exact ⟨Fin.ext (by omega), rfl⟩
  · omega
  · omega
  · exact ⟨Fin.ext (by omega), rfl⟩

theorem admaPlaced_iff {c : Fin 2} {k : ℕ} {address : Uptr} :
    AdmaPlaced c k address ↔
      address.toNat = ((spu2StaticInfo c).baseTsa (stripeChannel k)).toNat + stripeOffset k := by
  refine ⟨AdmaPlaced.address_eq, fun h => ?_⟩
  have hlt := stripeOffset_lt k
  have hin : InBuffers c (stripeChannel k) address := ⟨by omega, by omega⟩
  refine ⟨h, hin, fun c' ch hne hin' => ?_⟩
  obtain ⟨rfl, rfl⟩ := hin.unique hin'
  exact hne.elim (fun h => h rfl) fun h => h rfl

/-! ### The address of a transfer -/

/-- The blocks by which the offset of the transfer is ahead of that of its channel. -/
def admaBlocks (n : BitVec 64) : ℤ := if admaBlock n % 2 = 0 then admaBlock n / 2 else (admaBlock n).tdiv 2 + 1

/-- The channel that the block is for. -/
def admaChannel (n : BitVec 64) : SoundChannel := if admaBlock n % 2 = 0 then .left else .right

theorem toNat_sub_ofInt_umod (n : BitVec 64) (z : ℤ) :
    (((n - BitVec.ofInt 64 z) % 0x400).toNat : ℤ) = ((n.toNat : ℤ) - z) % 0x400 := by
  have hn := n.isLt
  have h400 : (0x400 : BitVec 64).toNat = 0x400 := rfl
  rw [BitVec.toNat_umod, BitVec.toNat_sub, BitVec.toNat_ofInt, h400]
  omega

theorem tmod_two (z : ℤ) : z.tmod 2 = 0 ↔ z % 2 = 0 := by
  rw [← Int.dvd_iff_tmod_eq_zero, ← Int.dvd_iff_emod_eq_zero]

theorem toNat_base_add (c : Fin 2) (ch : SoundChannel) (n : BitVec 64) :
    ((spu2StaticInfo c).baseTsa ch + (n % 0x400).setWidth 32).toNat =
      ((spu2StaticInfo c).baseTsa ch).toNat + (n % 0x400).toNat := by
  have hlt : (n % 0x400).toNat < 0x400 := by
    rw [BitVec.toNat_umod]
    exact Nat.mod_lt _ (by decide)
  have hbase : ((spu2StaticInfo c).baseTsa ch).toNat ≤ 0x2600 := by
    revert c
    cases ch <;> decide
  rw [BitVec.toNat_add, BitVec.toNat_setWidth]
  omega

/-- The address of a transfer. -/
theorem admaAddress_eq (c : Fin 2) (n : BitVec 64) :
    admaAddress c n = if admaBlocks n * 0x100 < -2 ^ 31 ∨ 2 ^ 31 ≤ admaBlocks n * 0x100 then none
      else some ((spu2StaticInfo c).baseTsa (admaChannel n) +
        ((n - BitVec.ofInt 64 (admaBlocks n * 0x100)) % 0x400).setWidth 32) := by
  by_cases h : admaBlock n % 2 = 0
  · have hdiv : (admaBlock n).tdiv 2 = admaBlock n / 2 := Int.tdiv_eq_ediv_of_dvd (Int.dvd_of_emod_eq_zero h)
    have hleft := (tmod_two (admaBlock n)).mpr h
    rw [admaBlocks, if_pos h, admaChannel, if_pos h]
    simp only [admaAddress, hleft, hdiv, decide_true, if_true]
    rfl
  · have hright : ¬(admaBlock n).tmod 2 = 0 := mt (tmod_two _).mp h
    rw [admaBlocks, if_neg h, admaChannel, if_neg h]
    simp only [admaAddress, hright, decide_false, if_false, Bool.false_eq_true]
    rfl

theorem exists_ite_some {α : Type} {p : Prop} [Decidable p] {x : α} {P : α → Prop} :
    (∃ a, (if p then none else some x) = some a ∧ P a) ↔ ¬p ∧ P x := by
  split_ifs with h <;> simp [h]

theorem admaBlock_ofNat (k : ℕ) : admaBlock (BitVec.ofNat 64 k) =
    if k / 0x100 % 2 ^ 32 < 2 ^ 31 then ((k / 0x100 % 2 ^ 32 : ℕ) : ℤ) else ((k / 0x100 % 2 ^ 32 : ℕ) : ℤ) - 2 ^ 32 := by
  have h100 : (0x100 : BitVec 64).toNat = 0x100 := rfl
  have hk : k % 2 ^ 64 / 0x100 % 2 ^ 32 = k / 0x100 % 2 ^ 32 := by omega
  rw [admaBlock, BitVec.toInt_eq_toNat_cond, BitVec.toNat_setWidth, BitVec.toNat_udiv, BitVec.toNat_ofNat, h100, hk]
  split_ifs <;> omega

theorem admaBlock_emod_two (k : ℕ) : admaBlock (BitVec.ofNat 64 k) % 2 = 0 ↔ k / 0x100 % 2 = 0 := by
  rw [admaBlock_ofNat]
  split_ifs <;> omega

theorem admaBlock_nonneg (k : ℕ) : 0 ≤ admaBlock (BitVec.ofNat 64 k) ↔ k / 0x100 % 2 ^ 32 < 2 ^ 31 := by
  rw [admaBlock_ofNat]
  split_ifs <;> omega

theorem admaBlocks_ofNat (k : ℕ) :
    admaBlocks (BitVec.ofNat 64 k) = if k / 0x100 % 2 = 0 then admaBlock (BitVec.ofNat 64 k) / 2
      else if k / 0x100 % 2 ^ 32 < 2 ^ 31 then admaBlock (BitVec.ofNat 64 k) / 2 + 1
      else admaBlock (BitVec.ofNat 64 k) / 2 + 2 := by
  simp only [admaBlocks, admaBlock_emod_two, ← admaBlock_nonneg]
  split_ifs with heven hnonneg
  · rfl
  · rw [Int.tdiv_eq_ediv_of_nonneg hnonneg]
  · have hdvd : ¬2 ∣ admaBlock (BitVec.ofNat 64 k) :=
      mt Int.emod_eq_zero_of_dvd (mt (admaBlock_emod_two k).mp heven)
    rw [Int.tdiv_eq_ediv, if_neg (not_or.mpr ⟨hnonneg, hdvd⟩), show Int.sign 2 = 1 from rfl, Int.add_assoc]
    rfl

/-- The offset of the channel goes round four blocks, and is one behind in the right channel once the block is negative. -/
theorem channelOffset_eq (k : ℕ) :
    ((BitVec.ofNat 64 k - BitVec.ofInt 64 (admaBlocks (BitVec.ofNat 64 k) * 0x100)) % 0x400).toNat =
      0x100 * ((if k / 0x100 % 2 = 0 ∨ k / 0x100 % 2 ^ 32 < 2 ^ 31 then k / 0x200 else k / 0x200 + 3) % 4) + k % 0x100 := by
  have hoff := toNat_sub_ofInt_umod (BitVec.ofNat 64 k) (admaBlocks (BitVec.ofNat 64 k) * 0x100)
  have hblock := admaBlock_ofNat k
  have hblocks := admaBlocks_ofNat k
  rw [BitVec.toNat_ofNat] at hoff
  split_ifs at hblock hblocks ⊢ <;> omega

/-- The code finds the address of a halfword just if it fits. -/
theorem exists_admaPlaced_iff (c : Fin 2) (k : ℕ) :
    (∃ address, admaAddress c (BitVec.ofNat 64 k) = some address ∧ AdmaPlaced c k address) ↔ Fits k := by
  have hblock := admaBlock_ofNat k
  have hblocks := admaBlocks_ofNat k
  have hch : admaChannel (BitVec.ofNat 64 k) = stripeChannel k := by
    simp only [admaChannel, stripeChannel, admaBlock_emod_two]
  simp only [admaPlaced_iff]
  rw [admaAddress_eq, exists_ite_some, hch, toNat_base_add, Nat.add_left_cancel_iff, channelOffset_eq, Fits,
    stripeChannel_eq_left, stripeOffset]
  split_ifs at hblock hblocks ⊢ <;> omega

/-! ### What a transfer does -/

variable {s : Spu2} {c : Fin 2}

open Spu2CoreRegisterAttr Spu2CoreRegisterAdmas LittleEndian

/-- The core is about to move a halfword by auto DMA. -/
structure AdmaDue (s : Spu2) (c : Fin 2) : Prop where
  /-- DMABITS is clear. -/
  bits : dmaBits.extractFrom (s.cores c).attr.value = 0
  /-- DMAMODE is an auto DMA write. -/
  mode : dmaMode.extractFrom (s.cores c).attr.value = 0
  /-- Auto DMA is enabled. -/
  enabled : isAdmaEnabled (s.cores c).admas c = true
  /-- There is a halfword to move. -/
  available : (s.cores c).dmaFifoQueue.hasReadAvailable 2 = true

/-- The halfword that is next. -/
def admaData (s : Spu2) (c : Fin 2) : Uhword := ofBytes 16 ((s.cores c).dmaFifoQueue.bytes.take 2)

/-- ATTR after a halfword has been moved. -/
def advance (a : Spu2CoreRegisterAttr) : Spu2CoreRegisterAttr := { a with dmaOffset := a.dmaOffset + 1 }

/-- ATTR of both cores where core `c` has `moved` a halfword or not. -/
def AttrAfter (s : Spu2) (c : Fin 2) (moved : Bool) (s' : Spu2) : Prop :=
  ∀ c', (s'.cores c').attr = if c' = c ∧ moved = true then advance (s.cores c).attr else (s.cores c').attr

theorem attr_setCore (s : Spu2) (c c' : Fin 2) (core : Spu2Core) :
    ((s.setCore c core).cores c').attr = if c' = c then core.attr else (s.cores c').attr := by
  simp only [setCore, Function.update_apply]
  split_ifs <;> rfl

theorem attrAfter_refl (s : Spu2) (c : Fin 2) : AttrAfter s c false s := by
  intro c'
  rw [if_neg fun h => Bool.false_ne_true h.2]

theorem attrAfter_setCore {core : Spu2Core} (h : core.attr = (s.cores c).attr) : AttrAfter s c false (s.setCore c core) := by
  intro c'
  have hmoved : ¬(c' = c ∧ false = true) := fun h => Bool.false_ne_true h.2
  rw [if_neg hmoved, attr_setCore]
  split_ifs with hc
  · rw [h, hc]
  · rfl

theorem attrAfter_writeHwordMemory {core core' : Spu2Core} (h : core'.attr = advance (s.cores c).attr) (address : Uptr)
    (value : Uhword) : AttrAfter s c true (((s.setCore c core).writeHwordMemory c address value).setCore c core') := by
  intro c'
  rw [attr_setCore, h]
  by_cases hc : c' = c
  · rw [if_pos hc, if_pos ⟨hc, rfl⟩]
  · rw [if_neg hc, if_neg fun h => hc h.1]
    exact (attr_setCore s c c' core).trans (if_neg hc)

theorem attrAfter_transferDataAdmaWrite (s : Spu2) (c : Fin 2) :
    Ensures (fun r => AttrAfter s c (0 < r.1) r.2) (s.transferDataAdmaWrite c) := by
  dsimp only [transferDataAdmaWrite]
  split_ifs with h
  · exact .ok (attrAfter_setCore rfl)
  · refine (Ensures.trivial _).bind fun r _ => (Ensures.trivial _).bind fun address _ => .ok ?_
    exact attrAfter_writeHwordMemory rfl address _

theorem attrAfter_transferDataMdmaWrite (s : Spu2) (c : Fin 2) :
    Ensures (fun r => AttrAfter s c (0 < r.1) r.2) (s.transferDataMdmaWrite c) := by
  dsimp only [transferDataMdmaWrite]
  split_ifs with h
  · exact .ok (attrAfter_setCore rfl)
  · exact (Ensures.trivial _).bind fun r _ => .ok (attrAfter_writeHwordMemory rfl _ _)

/-- A transfer counts on if it is made, which is in mode 0 or 2. -/
theorem attrAfter_handleDmaTransfer (s : Spu2) (c : Fin 2) :
    Ensures (fun r => AttrAfter s c r.1 r.2 ∧ (r.1 = true → dmaMode.extractFrom (s.cores c).attr.value = 0 ∨
      dmaMode.extractFrom (s.cores c).attr.value = 2)) (s.handleDmaTransfer c) := by
  dsimp only [handleDmaTransfer]
  split_ifs with hbits h0 hen h1 hen h2
  · exact .error _
  · exact (attrAfter_transferDataAdmaWrite s c).bind fun r hr => .ok ⟨hr, fun _ => .inl h0⟩
  · exact .ok ⟨attrAfter_refl s c, fun h => absurd h Bool.false_ne_true⟩
  · exact .error _
  · exact .ok ⟨attrAfter_refl s c, fun h => absurd h Bool.false_ne_true⟩
  · exact (attrAfter_transferDataMdmaWrite s c).bind fun r hr => .ok ⟨hr, fun _ => .inr h2⟩
  · exact .error _

/-- The SPU2 after a halfword has gone to `address` by auto DMA. -/
def admaWritten (s : Spu2) (c : Fin 2) (address : Uptr) : Spu2 :=
  let core := s.cores c
  let core : Spu2Core := { core with
    dmaFifoQueue := core.dmaFifoQueue.drop 2
    admas := setAdmaRunning core.admas true
    statx := Spu2CoreRegisterStatx.dreq.insertInto core.statx 0 }
  ((s.setCore c core).writeHwordMemory c address (s.admaData c)).setCore c { core with attr := advance core.attr }

theorem AdmaDue.handleDmaTransfer_eq (h : s.AdmaDue c) :
    s.handleDmaTransfer c = (admaAddress c (s.cores c).attr.dmaOffset).elim (.error .undefined)
      fun address => .ok (true, s.admaWritten c address) := by
  have hbits : ¬0 < dmaBits.extractFrom (s.cores c).attr.value := by
    rw [h.bits]
    decide
  have hread := DmaFifoQueue.read_eq (DmaFifoQueue.hasReadAvailable_iff.mp h.available)
  dsimp only [handleDmaTransfer, transferDataAdmaWrite]
  rw [if_neg hbits, if_pos h.mode, if_pos h.enabled, h.available, hread]
  cases admaAddress c (s.cores c).attr.dmaOffset with
  | none => rfl
  | some address => rfl

/-! ### Runs -/

/-- The SPU2, and how many halfwords each core has moved by auto DMA since its ATTR was written. -/
structure AdmaRun where
  /-- The SPU2. -/
  spu2 : Spu2
  /-- The halfwords. -/
  adma : Fin 2 → ℕ

/-- A move of a run. -/
inductive Move where
  /-- `handle_dma_transfer(spu2_core)`. -/
  | dma (c : Fin 2)
  /-- The IOP writes ATTR. -/
  | attr (c : Fin 2) (value : Uhword)
  /-- The IOP writes a byte of ATTR. -/
  | attrByte (c offset : Fin 2) (value : Ubyte)
  /-- Anything else, which is not for ATTR. -/
  | rest (f : Spu2 → Spu2)

/-- ATTR of a core replaced. -/
def setAttr (s : Spu2) (c : Fin 2) (a : Spu2CoreRegisterAttr) : Spu2 := s.setCore c { s.cores c with attr := a }

/-- The SPU2 with ATTR of both cores as in `t`. -/
def withAttrOf (s t : Spu2) : Spu2 := { s with cores := fun c => { s.cores c with attr := (t.cores c).attr } }

/-- One move. -/
def step : Move → AdmaRun → Except HostFault AdmaRun
  | .dma c, r => do
    let t ← r.spu2.handleDmaTransfer c
    let counts : Bool := t.1 && dmaMode.extractFrom (r.spu2.cores c).attr.value = 0
    return { spu2 := t.2, adma := if counts then Function.update r.adma c (r.adma c + 1) else r.adma }
  | .attr c value, r =>
    .ok { spu2 := r.spu2.setAttr c ((r.spu2.cores c).attr.busWriteUhword .iop value), adma := Function.update r.adma c 0 }
  | .attrByte c offset value, r =>
    .ok { spu2 := r.spu2.setAttr c ((r.spu2.cores c).attr.busWriteUbyte offset value), adma := Function.update r.adma c 0 }
  | .rest f, r => .ok { r with spu2 := (f r.spu2).withAttrOf r.spu2 }

/-- What auto DMA should do: the next halfword goes to its address, whatever the memory holds. -/
def WritesPlaced : Move → AdmaRun → Prop
  | .dma c, r => r.spu2.AdmaDue c → ∃ address, AdmaPlaced c (r.adma c) address ∧ ∀ memory, ∃ s',
      { r.spu2 with mainMemory := memory }.handleDmaTransfer c = .ok (true, s') ∧
        s'.mainMemory = Function.update memory address (r.spu2.admaData c)
  | _, _ => True

/-- The next halfword is one for which the code finds the address. -/
def WritesFit : Move → AdmaRun → Prop
  | .dma c, r => r.spu2.AdmaDue c → Fits (r.adma c)
  | _, _ => True

/-- A byte of ATTR is written only where no halfword has been moved since ATTR was written as a whole. -/
def BytesAtZero : Move → AdmaRun → Prop
  | .attrByte c _ _, r => (r.spu2.cores c).attr.dmaOffset = 0
  | _, _ => True

/-- The halfwords are counted in ATTR, save in the mode of manual DMA, where there are none. -/
def Counted (r : AdmaRun) : Prop :=
  ∀ c, if dmaMode.extractFrom (r.spu2.cores c).attr.value = 2 then r.adma c = 0
    else (r.spu2.cores c).attr.dmaOffset = BitVec.ofNat 64 (r.adma c)

variable {r r' : AdmaRun} {m : Move}

theorem attr_setAttr (s : Spu2) (c c' : Fin 2) (a : Spu2CoreRegisterAttr) :
    ((s.setAttr c a).cores c').attr = if c' = c then a else (s.cores c').attr := attr_setCore ..

/-- Where ATTR of a core has been written and counts from zero, the halfwords are counted again. -/
theorem counted_setAttr (h : Counted r) {a : Spu2CoreRegisterAttr} (ha : a.dmaOffset = 0) (c : Fin 2) :
    Counted { spu2 := r.spu2.setAttr c a, adma := Function.update r.adma c 0 } := by
  intro c'
  simp only [attr_setAttr, Function.update_apply]
  by_cases hc : c' = c
  · rw [if_pos hc, if_pos hc, ha]
    split_ifs <;> rfl
  · rw [if_neg hc, if_neg hc]
    exact h c'

/-- A transfer is counted in ATTR, and among those of auto DMA unless it is of the other kind. -/
theorem counted_dma (h : Counted r) (hstep : step (.dma c) r = .ok r') : Counted r' := by
  obtain ⟨t, ht, hr'⟩ := bind_eq_ok_iff.mp hstep
  obtain ⟨hattr, hmode⟩ := attrAfter_handleDmaTransfer r.spu2 c t ht
  rw [← Except.ok.inj hr']
  intro c'
  have hc' := h c'
  by_cases hmoved : c' = c ∧ t.1 = true
  · obtain ⟨rfl, hmoved⟩ := hmoved
    have hadvance : (t.2.cores c').attr = advance (r.spu2.cores c').attr := (hattr c').trans (if_pos ⟨rfl, hmoved⟩)
    simp only [hadvance, advance, hmoved, Bool.true_and, decide_eq_true_eq]
    rcases hmode hmoved with h0 | h2
    · simp only [h0, if_true, Function.update_self, show ¬(0 : Uhword) = 2 by decide, if_false] at hc' ⊢
      rw [hc', BitVec.ofNat_add]
      rfl
    · simp only [h2, if_true, show ¬(2 : Uhword) = 0 by decide, if_false] at hc' ⊢
      exact hc'
  · have hadma : (if (t.1 && decide (dmaMode.extractFrom (r.spu2.cores c).attr.value = 0)) = true then
        Function.update r.adma c (r.adma c + 1) else r.adma) c' = r.adma c' := by
      split_ifs with hcounts
      · have hne : c' ≠ c := fun hc => hmoved ⟨hc, (Bool.and_eq_true_iff.mp hcounts).1⟩
        exact Function.update_of_ne hne _ _
      · rfl
    rw [hattr, if_neg hmoved]
    simp only [hadma]
    exact hc'

theorem counted_step (h : Counted r) (hbytes : BytesAtZero m r) (hstep : step m r = .ok r') : Counted r' := by
  cases m with
  | dma c => exact counted_dma h hstep
  | attr c value =>
    rw [← Except.ok.inj hstep]
    exact counted_setAttr h rfl c
  | attrByte c offset value =>
    rw [← Except.ok.inj hstep]
    have hzero : ((r.spu2.cores c).attr.busWriteUbyte offset value).dmaOffset = 0 := hbytes
    exact counted_setAttr h hzero c
  | rest f =>
    rw [← Except.ok.inj hstep]
    exact h

/-- Where a write shows in every memory. -/
theorem eq_of_update_eq {address address' : Uptr} (value : Uhword)
    (h : ∀ memory : Uptr → Uhword, Function.update memory address value = Function.update memory address' value) :
    address = address' := by
  by_contra hne
  have hat := congrFun (h fun _ => value + 1) address
  rw [Function.update_self, Function.update_of_ne hne] at hat
  bv_omega

theorem mainMemory_admaWritten (s : Spu2) (c : Fin 2) (address : Uptr) :
    (s.admaWritten c address).mainMemory = Function.update s.mainMemory address (s.admaData c) := rfl

/-- A transfer that is due does what it should just if the next halfword fits. -/
theorem writesPlaced_dma_iff
    (h : r.spu2.AdmaDue c → (r.spu2.cores c).attr.dmaOffset = BitVec.ofNat 64 (r.adma c)) :
    WritesPlaced (.dma c) r ↔ WritesFit (.dma c) r := by
  refine forall_congr' fun hdue => ?_
  have hdue' (memory : Uptr → Uhword) : AdmaDue { r.spu2 with mainMemory := memory } c :=
    ⟨hdue.bits, hdue.mode, hdue.enabled, hdue.available⟩
  rw [← exists_admaPlaced_iff c, ← h hdue]
  constructor
  · rintro ⟨address, hplaced, hwrites⟩
    cases haddress : admaAddress c (r.spu2.cores c).attr.dmaOffset with
    | none =>
      obtain ⟨s', hs', -⟩ := hwrites r.spu2.mainMemory
      rw [(hdue' _).handleDmaTransfer_eq, haddress] at hs'
      cases hs'
    | some address' =>
      refine ⟨address', rfl, ?_⟩
      suffices heq : address' = address by rwa [heq]
      refine eq_of_update_eq (r.spu2.admaData c) fun memory => ?_
      obtain ⟨s', hs', hmemory⟩ := hwrites memory
      rw [(hdue' memory).handleDmaTransfer_eq, haddress] at hs'
      obtain ⟨-, rfl⟩ := Prod.mk.inj (Except.ok.inj hs')
      exact hmemory
  · rintro ⟨address, haddress, hplaced⟩
    refine ⟨address, hplaced, fun memory => ?_⟩
    rw [(hdue' memory).handleDmaTransfer_eq, haddress]
    exact ⟨_, rfl, mainMemory_admaWritten _ c address⟩

theorem writesPlaced_iff (h : Counted r) : WritesPlaced m r ↔ WritesFit m r := by
  cases m with
  | dma c =>
    refine writesPlaced_dma_iff fun hdue => ?_
    have hc := h c
    rwa [hdue.mode, if_neg (by decide)] at hc
  | attr c value => rfl
  | attrByte c offset value => rfl
  | rest f => rfl

/-- Over every run that writes no byte of ATTR once halfwords have been moved, auto DMA does what it should just if each
halfword fits. -/
theorem admaWrites_iff (s : Spu2) (hs : ∀ c, (s.cores c).attr.dmaOffset = 0) (ms : List Move)
    (hbytes : Run.Always step BytesAtZero ms ⟨s, fun _ => 0⟩) :
    Run.Always step WritesPlaced ms ⟨s, fun _ => 0⟩ ↔ Run.Always step WritesFit ms ⟨s, fun _ => 0⟩ := by
  have hstart : Counted ⟨s, fun _ => 0⟩ := by
    intro c
    split_ifs
    · rfl
    · exact hs c
  exact Run.always_iff (fun m r r' h hm hstep => counted_step h hm hstep) (fun m r h => writesPlaced_iff h) hstart hbytes

/-- A core in the mode of an auto DMA write, with auto DMA enabled. -/
def streaming : Spu2 where
  cores _ := ⟨.empty, ⟨0, 0⟩, 0x3, 0, 0, 0, 0, 0⟩
  spdifIrqinfo := 0
  mainMemory _ := 0

/-- The IOP DMAC brings a halfword. -/
def refill (s : Spu2) : Spu2 :=
  { s with cores := fun c => { s.cores c with dmaFifoQueue := ⟨[0, 0], by decide⟩ } }

/-- Halfwords that are brought and moved one by one. -/
def rounds (n : ℕ) : List Move := (List.replicate n [.rest refill, .dma 0]).flatten

/-- Core 0 has moved `k` halfwords and goes on. -/
structure Streaming (r : AdmaRun) (k : ℕ) : Prop where
  /-- ATTR has been written as 0. -/
  attr : (r.spu2.cores 0).attr = ⟨0, BitVec.ofNat 64 k⟩
  /-- Auto DMA is enabled. -/
  enabled : isAdmaEnabled (r.spu2.cores 0).admas 0 = true
  /-- What has been moved. -/
  adma : r.adma 0 = k

theorem Streaming.refill {k : ℕ} (h : Streaming r k) :
    ∃ r', step (.rest Spu2.refill) r = .ok r' ∧ Streaming r' k ∧ r'.spu2.AdmaDue 0 := by
  have hvalue : (r.spu2.cores 0).attr.value = 0 := by rw [h.attr]
  refine ⟨_, rfl, ⟨h.attr, h.enabled, h.adma⟩, ?_, ?_, h.enabled, rfl⟩
  · exact (congrArg dmaBits.extractFrom hvalue).trans (by decide)
  · exact (congrArg dmaMode.extractFrom hvalue).trans (by decide)

theorem isAdmaEnabled_setAdmaRunning (admas : Uhword) (c : Fin 2) :
    isAdmaEnabled (setAdmaRunning admas true) c = isAdmaEnabled admas c := by
  have hbit : (0x3 : Uhword) &&& (1 <<< c.val) = 1 <<< c.val := by
    revert c
    decide
  rw [isAdmaEnabled, isAdmaEnabled, setAdmaRunning, if_pos rfl, BitVec.and_assoc, hbit]

theorem attr_admaWritten (s : Spu2) (c : Fin 2) (address : Uptr) :
    ((s.admaWritten c address).cores c).attr = advance (s.cores c).attr := (attr_setCore ..).trans (if_pos rfl)

theorem admas_admaWritten (s : Spu2) (c : Fin 2) (address : Uptr) :
    ((s.admaWritten c address).cores c).admas = setAdmaRunning (s.cores c).admas true := by
  dsimp only [admaWritten, setCore]
  rw [Function.update_self]

theorem Streaming.dma {k : ℕ} (h : Streaming r k) (hdue : r.spu2.AdmaDue 0) (hk : Fits k) :
    ∃ r', step (.dma 0) r = .ok r' ∧ Streaming r' (k + 1) := by
  obtain ⟨address, haddress, -⟩ := (exists_admaPlaced_iff 0 k).mpr hk
  have hstep : r.spu2.handleDmaTransfer 0 = .ok (true, r.spu2.admaWritten 0 address) := by
    rw [hdue.handleDmaTransfer_eq, h.attr, haddress]
    rfl
  have hcounts : (true && decide (dmaMode.extractFrom (r.spu2.cores 0).attr.value = 0)) = true := by
    rw [hdue.mode]
    rfl
  refine ⟨⟨r.spu2.admaWritten 0 address, Function.update r.adma 0 (r.adma 0 + 1)⟩, ?_, ?_, ?_, ?_⟩
  · rw [step, hstep, ok_bind]
    dsimp only
    rw [if_pos hcounts]
    rfl
  · rw [attr_admaWritten, h.attr, advance, BitVec.ofNat_add]
    rfl
  · rw [admas_admaWritten, isAdmaEnabled_setAdmaRunning, h.enabled]
  · dsimp only
    rw [Function.update_self, h.adma]

theorem Streaming.not_always_placed {n k : ℕ} (h : Streaming r k) (hn : k + n = 0x400) :
    ¬Run.Always step WritesPlaced (rounds (n + 1)) r := by
  induction n generalizing k r with
  | zero =>
    obtain ⟨r₁, h₁, hs, hdue⟩ := h.refill
    rintro ⟨-, hall⟩
    have hplaced : WritesPlaced (.dma 0) r₁ := (hall r₁ h₁).1
    have hoffset : (r₁.spu2.cores 0).attr.dmaOffset = BitVec.ofNat 64 (r₁.adma 0) := by rw [hs.attr, hs.adma]
    have hfits := (writesPlaced_dma_iff fun _ => hoffset).mp hplaced hdue
    obtain rfl : k = 0x400 := hn
    rw [hs.adma] at hfits
    exact absurd hfits (by decide)
  | succ n ih =>
    obtain ⟨r₁, h₁, hs, hdue⟩ := h.refill
    have hfits : Fits k := ⟨by omega, .inl (by omega)⟩
    obtain ⟨r₂, h₂, hs₂⟩ := hs.dma hdue hfits
    intro hall
    exact ih hs₂ (by omega) ((hall.2 r₁ h₁).2 r₂ h₂)

/-- Halfword 0x400 goes to the right channel. -/
theorem streaming_not_placed : ¬Run.Always step WritesPlaced (rounds 0x401) ⟨streaming, fun _ => 0⟩ := by
  have hstart : Streaming ⟨streaming, fun _ => 0⟩ 0 := ⟨rfl, by decide, rfl⟩
  exact hstart.not_always_placed (n := 0x400) rfl

theorem Streaming.always_fit {n k : ℕ} (h : Streaming r k) (hn : k + n ≤ 0x400) :
    Run.Always step WritesFit (rounds n) r ∧ Run.Always step BytesAtZero (rounds n) r := by
  induction n generalizing k r with
  | zero => exact ⟨trivial, trivial⟩
  | succ n ih =>
    obtain ⟨r₁, h₁, hs, hdue⟩ := h.refill
    have hfits : Fits k := ⟨by omega, .inl (by omega)⟩
    obtain ⟨r₂, h₂, hs₂⟩ := hs.dma hdue hfits
    obtain ⟨hfit, hbytes⟩ := ih hs₂ (by omega)
    refine ⟨⟨trivial, fun s₁ hs₁ => ?_⟩, ⟨trivial, fun s₁ hs₁ => ?_⟩⟩
    · obtain rfl := Except.ok.inj (h₁.symm.trans hs₁)
      refine ⟨fun _ => hs.adma.symm ▸ hfits, fun s₂ hs₂ => ?_⟩
      obtain rfl := Except.ok.inj (h₂.symm.trans hs₂)
      exact hfit
    · obtain rfl := Except.ok.inj (h₁.symm.trans hs₁)
      refine ⟨trivial, fun s₂ hs₂ => ?_⟩
      obtain rfl := Except.ok.inj (h₂.symm.trans hs₂)
      exact hbytes

/-- The halfwords before go where they should: a buffer of the left channel and one of the right, and both again. -/
theorem admaWrites_iff_streaming : Run.Always step WritesPlaced (rounds 0x400) ⟨streaming, fun _ => 0⟩ := by
  have hstart : Streaming ⟨streaming, fun _ => 0⟩ 0 := ⟨rfl, by decide, rfl⟩
  obtain ⟨hfit, hbytes⟩ := hstart.always_fit (n := 0x400) (by decide)
  exact (admaWrites_iff streaming (fun _ => rfl) (rounds 0x400) hbytes).mpr hfit

end Spu2

end Orbum
