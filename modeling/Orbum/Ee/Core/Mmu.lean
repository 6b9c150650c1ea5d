import Orbum.Ee.Core.Exception

/-!
# The MMU of the EE core

`CEeCore::translate_address_fallback`, the walk over segments and TLB, and the two translation caches
in front of it (`Common/Types/TranslationCache/TranslationCache.hpp`).

The fallback reads COP0 and the TLB and changes nothing unless it fails; `walk` is what it computes
and `mmuError` what the lambda `handle_mmu_error` writes before it hands the exception on.
-/

namespace Orbum

/-- `MmuRwAccess`. -/
inductive MmuRwAccess where
  /-- `READ`. -/
  | read
  /-- `WRITE`. -/
  | write
  deriving DecidableEq

/-- `MmuIdAccess`, which of the two caches is asked. -/
inductive MmuIdAccess where
  /-- `INSTRUCTION`. -/
  | instruction
  /-- `DATA`. -/
  | data
  deriving DecidableEq

/-! ### The walk -/

/-- Stage 1: the address is inside the segments of the operating context. The bounds of supervisor mode are
those of the source, which compares with the wrong ones. -/
def InSegment (context : OperatingContext) (virtualAddress : Uptr) : Prop :=
  match context with
  | .user => virtualAddress ≤ 0x7FFFFFFF
  | .supervisor => (0xC0000000 ≤ virtualAddress ∧ virtualAddress ≤ 0x7FFFFFFF) ∨ virtualAddress ≤ 0xDFFFFFFF
  | .kernel => True

instance (context : OperatingContext) (virtualAddress : Uptr) : Decidable (InSegment context virtualAddress) := by
  cases context <;> unfold InSegment <;> infer_instance

/-- Stage 2, the unmapped segments of kernel mode: kseg0, kseg1, and kuseg with `ERL` set. -/
def unmapped (c : EeCoreCop0) (virtualAddress : Uptr) : Option Uptr :=
  if c.status.operatingContext = .kernel then
    if 0x80000000 ≤ virtualAddress ∧ virtualAddress ≤ 0x9FFFFFFF then some (virtualAddress - 0x80000000)
    else if 0xA0000000 ≤ virtualAddress ∧ virtualAddress ≤ 0xBFFFFFFF then some (virtualAddress - 0xA0000000)
    else if c.status.extractField EeCoreCop0Status.erl = 1 ∧ virtualAddress ≤ 0x7FFFFFFF then some virtualAddress
    else none
  else none

/-- The address error for an access. -/
def addressError : MmuRwAccess → EeCoreException
  | .read => .exAddressErrorInstructionFetchLoad
  | .write => .exAddressErrorStore

/-- The TLB refill or invalid exception for an access. -/
def tlbRefillInvalid : MmuRwAccess → EeCoreException
  | .read => .exTlbRefillInvalidInstructionFetchLoad
  | .write => .exTlbRefillInvalidStore

/-- The entry belongs to the address space `EntryHi` names. -/
def EeCoreTlbEntry.InAddressSpace (e : EeCoreTlbEntry) (c : EeCoreCop0) : Prop :=
  e.g ∨ EeCoreCop0.entryhiAsid.extractFrom c.entryhi = e.asid.setWidth 32

instance (e : EeCoreTlbEntry) (c : EeCoreCop0) : Decidable (e.InAddressSpace c) := inferInstanceAs (Decidable (_ ∨ _))

/-- Stages 3 and 4: the scratchpad, or the page frame joined with the offset. -/
def EeCoreTlbEntry.physicalAddress (e : EeCoreTlbEntry) (virtualAddress : Uptr) : Uptr :=
  if e.s then 0x70000000 + (virtualAddress &&& 0x3FFF)
  else ((e.physicalInfo virtualAddress).pfn <<< 12) ||| (virtualAddress &&& ((e.mask.pagemask <<< 12) ||| 0xFFF))

/-- What `translate_address_fallback` computes, from COP0 and the TLB alone. -/
def walk (c : EeCoreCop0) (tlb : EeCoreTlb) (virtualAddress : Uptr) (rwAccess : MmuRwAccess) :
    Except EeCoreException Uptr :=
  if ¬InSegment c.status.operatingContext virtualAddress then .error (addressError rwAccess)
  else match unmapped c virtualAddress with
    | some physicalAddress => .ok physicalAddress
    | none =>
      match tlb.findTlbEntryIndex virtualAddress with
      | none => .error (tlbRefillInvalid rwAccess)
      | some i =>
        let entry := tlb i
        if ¬entry.InAddressSpace c then .error (tlbRefillInvalid rwAccess)
        else if ¬(entry.physicalInfo virtualAddress).v then .error (tlbRefillInvalid rwAccess)
        else if ¬(entry.physicalInfo virtualAddress).d ∧ rwAccess = .write then .error .exTlbModified
        else .ok (entry.physicalAddress virtualAddress)

/-- What a walk raises. -/
theorem error_of_walk {c : EeCoreCop0} {tlb : EeCoreTlb} {virtualAddress : Uptr} {rwAccess : MmuRwAccess}
    {e : EeCoreException} (h : walk c tlb virtualAddress rwAccess = .error e) :
    e = addressError rwAccess ∨ e = tlbRefillInvalid rwAccess ∨ e = .exTlbModified := by
  unfold walk at h
  by_cases hseg : InSegment c.status.operatingContext virtualAddress
  · rw [if_neg (not_not.mpr hseg)] at h
    cases hu : unmapped c virtualAddress with
    | some physicalAddress =>
      rw [hu] at h
      cases h
    | none =>
      rw [hu] at h
      cases hi : tlb.findTlbEntryIndex virtualAddress with
      | none =>
        rw [hi] at h
        exact .inr (.inl (Except.error.inj h).symm)
      | some i =>
        rw [hi] at h
        simp only at h
        split_ifs at h
        · exact .inr (.inr (Except.error.inj h).symm)
        · exact .inr (.inl (Except.error.inj h).symm)
        · exact .inr (.inl (Except.error.inj h).symm)
  · rw [if_pos hseg] at h
    exact .inl (Except.error.inj h).symm

namespace EeCore

variable {σ : Type}

/-- The COP0 writes of the lambda `handle_mmu_error`; no caller passes it a TLB index. -/
def mmuError (s : EeCore σ) (address : Uptr) : EeCore σ :=
  let high19 : Bitfield := ⟨13, 19⟩
  s.setCop0 { s.cop0 with
    badvaddr := address
    context := EeCoreCop0.contextBadvpn2.insertInto s.cop0.context (high19.extractFrom address)
    entryhi := EeCoreCop0.entryhiVpn2.insertInto s.cop0.entryhi (high19.extractFrom address)
    random := EeCoreCop0.randomField.insertInto s.cop0.random EeCoreTlb.generateNewTlbIndex }

/-- `translate_address_fallback(virtual_address, rw_access)`. -/
def translateAddressFallback (virtualAddress : Uptr) (rwAccess : MmuRwAccess) (s : EeCore σ) : Result σ Uptr :=
  match walk s.cop0 s.tlb virtualAddress rwAccess with
  | .ok physicalAddress => .value physicalAddress s
  | .error e => .exception e (s.mmuError virtualAddress)

/-! ### The translation caches -/

/-- The cache for an access. -/
def translationCache (s : EeCore σ) : MmuIdAccess → CacheTy
  | .instruction => s.translationCacheInst
  | .data => s.translationCacheData

/-- Writes a cache. -/
def setTranslationCache (s : EeCore σ) (id : MmuIdAccess) (cache : CacheTy) : EeCore σ :=
  match id with
  | .instruction => { s with translationCacheInst := cache }
  | .data => { s with translationCacheData := cache }

/-- `CacheMask`: the bits of an address inside a page. -/
def cacheMask : Uptr := 0xFFF

/-- The key of an address: its page. -/
def cacheKey (virtualAddress : Uptr) : Uptr := virtualAddress &&& ~~~cacheMask

/-- `TranslationCache::lookup(virtual_address, rw_access)` with `handle_fallback`. -/
def lookup (id : MmuIdAccess) (virtualAddress : Uptr) (rwAccess : MmuRwAccess) (s : EeCore σ) : Result σ Uptr :=
  let key := cacheKey virtualAddress
  match (s.translationCache id).get key with
  | (some result, cache) => .value (result ||| (virtualAddress &&& cacheMask)) (s.setTranslationCache id cache)
  | (none, cache) =>
    (translateAddressFallback key rwAccess (s.setTranslationCache id cache)).bind fun result s =>
      .value (result ||| (virtualAddress &&& cacheMask))
        (s.setTranslationCache id ((s.translationCache id).insert key result))

/-- `translate_address_data(virtual_address, rw_access)`. -/
def translateAddressData (virtualAddress : Uptr) (rwAccess : MmuRwAccess) (s : EeCore σ) : Result σ Uptr :=
  s.lookup .data virtualAddress rwAccess

/-- `translate_address_inst(virtual_address)`. -/
def translateAddressInst (virtualAddress : Uptr) (s : EeCore σ) : Result σ Uptr :=
  s.lookup .instruction virtualAddress .read

/-! ### Pages -/

theorem getLsbD_cacheMask (i : ℕ) : cacheMask.getLsbD i = (decide (i < 32) && decide (i < 12)) :=
  Bitfield.getLsbD_unshiftedMask ⟨0, 12⟩ i

theorem getLsbD_cacheKey (va : Uptr) (i : ℕ) : (cacheKey va).getLsbD i = (decide (12 ≤ i) && va.getLsbD i) := by
  simp only [cacheKey, BitVec.getLsbD_and, BitVec.getLsbD_not, getLsbD_cacheMask]
  by_cases h : i < 32
  · simp only [h, decide_true, Bool.true_and]
    by_cases h12 : i < 12
    · simp [h12, Nat.not_le.mpr h12]
    · simp [h12, Nat.not_lt.mp h12]
  · simp [BitVec.getLsbD_of_ge va i (by omega)]

theorem toNat_offset (va : Uptr) : (va &&& cacheMask).toNat = va.toNat % 4096 := by
  rw [BitVec.toNat_and]
  exact Nat.and_two_pow_sub_one_eq_mod va.toNat 12

/-- Joining a page and an offset adds them. -/
theorem toNat_or_offset {x : Uptr} (hx : x.toNat % 4096 = 0) (va : Uptr) :
    (x ||| (va &&& cacheMask)).toNat = x.toNat + va.toNat % 4096 := by
  obtain ⟨q, hq⟩ := Nat.dvd_of_mod_eq_zero hx
  rw [BitVec.toNat_or, toNat_offset, hq]
  exact (Nat.two_pow_add_eq_or_of_lt (i := 12) (Nat.mod_lt _ (by decide)) q).symm

theorem cacheKey_or_offset (va : Uptr) : cacheKey va ||| (va &&& cacheMask) = va := by
  ext i hi
  simp only [← BitVec.getLsbD_eq_getElem, BitVec.getLsbD_or, BitVec.getLsbD_and, getLsbD_cacheKey, getLsbD_cacheMask]
  by_cases h12 : i < 12
  · simp [hi, h12]
  · simp [show 12 ≤ i by omega, h12]

theorem toNat_cacheKey (va : Uptr) : (cacheKey va).toNat = va.toNat / 4096 * 4096 := by
  have hmod : (cacheKey va).toNat % 4096 = 0 := by
    refine Nat.eq_of_testBit_eq fun i => ?_
    rw [show 4096 = 2 ^ 12 by rfl, Nat.testBit_mod_two_pow, BitVec.testBit_toNat, getLsbD_cacheKey, Nat.zero_testBit]
    by_cases h12 : i < 12
    · simp [h12, show ¬12 ≤ i by omega]
    · simp [h12]
  have h := congrArg BitVec.toNat (cacheKey_or_offset va)
  rw [toNat_or_offset hmod] at h
  omega

theorem cacheKey_ushiftRight (va : Uptr) {n : ℕ} (hn : 12 ≤ n) : cacheKey va >>> n = va >>> n := by
  ext i hi
  simp only [← BitVec.getLsbD_eq_getElem, BitVec.getLsbD_ushiftRight, getLsbD_cacheKey]
  simp [show 12 ≤ n + i by omega]

/-- The page bits of the comparison masks. -/
theorem cacheKey_and {m : Uptr} (hm : ∀ i, i < 12 → m.getLsbD i = false) (va : Uptr) : cacheKey va &&& m = va &&& m := by
  ext i hi
  simp only [← BitVec.getLsbD_eq_getElem, BitVec.getLsbD_and, getLsbD_cacheKey]
  by_cases h12 : i < 12
  · simp [hm i h12]
  · simp [show 12 ≤ i by omega]

theorem getLsbD_evenoddMask (m : Mask) (i : ℕ) (hi : i < 12) : m.evenoddMask.getLsbD i = false := by
  have h := m.evenodd_eq
  generalize m.evenoddMask = x at h
  unfold evenoddMaskOf at h
  have hlow (n : ℕ) (hn : 12 ≤ n) : (1#32 <<< n).getLsbD i = false := by
    rw [BitVec.getLsbD_shiftLeft]
    simp [show i < n by omega]
  split at h <;> simp only [Option.some.injEq, reduceCtorEq] at h <;> subst h <;> exact hlow _ (by decide)

theorem isMatch_cacheKey (e : EeCoreTlbEntry) (va : Uptr) : e.IsMatch (cacheKey va) ↔ e.IsMatch va := by
  simp only [EeCoreTlbEntry.IsMatch, BitVec.ushiftRight_and_distrib, cacheKey_ushiftRight va (show 12 ≤ 14 by decide),
    cacheKey_ushiftRight va (show 12 ≤ 13 by decide)]

theorem find_cacheKey (tlb : EeCoreTlb) (va : Uptr) : tlb.findTlbEntryIndex (cacheKey va) = tlb.findTlbEntryIndex va := by
  simp only [EeCoreTlb.findTlbEntryIndex, isMatch_cacheKey]

theorem physicalInfo_cacheKey (e : EeCoreTlbEntry) (va : Uptr) : e.physicalInfo (cacheKey va) = e.physicalInfo va := by
  simp only [EeCoreTlbEntry.physicalInfo, cacheKey_and (getLsbD_evenoddMask e.mask) va]

theorem physicalAddress_cacheKey (e : EeCoreTlbEntry) (va : Uptr) :
    e.physicalAddress va = e.physicalAddress (cacheKey va) ||| (va &&& cacheMask) := by
  simp only [EeCoreTlbEntry.physicalAddress, physicalInfo_cacheKey]
  split_ifs
  · have h14 (x : Uptr) : (x &&& 0x3FFF).toNat = x.toNat % 16384 := by
      rw [BitVec.toNat_and]
      exact Nat.and_two_pow_sub_one_eq_mod x.toNat 14
    refine BitVec.eq_of_toNat_eq ?_
    have hk := toNat_cacheKey va
    have hsum (x : Uptr) : (0x70000000 + (x &&& 0x3FFF)).toNat = 0x70000000 + x.toNat % 16384 := by
      have hx := h14 x
      bv_omega
    rw [toNat_or_offset, hsum, hsum]
    · omega
    · rw [hsum]
      omega
  · ext i hi
    simp only [← BitVec.getLsbD_eq_getElem, BitVec.getLsbD_or, BitVec.getLsbD_and, getLsbD_cacheKey, getLsbD_cacheMask,
      BitVec.getLsbD_shiftLeft, show (0xFFF : Uptr) = cacheMask from rfl]
    by_cases h12 : i < 12
    · simp [hi, h12]
    · simp [show 12 ≤ i by omega, h12]

theorem inSegment_cacheKey (context : OperatingContext) (va : Uptr) :
    InSegment context (cacheKey va) ↔ InSegment context va := by
  have hk := toNat_cacheKey va
  cases context <;> simp only [InSegment] <;> bv_omega

theorem unmapped_cacheKey (c : EeCoreCop0) (va : Uptr) :
    unmapped c va = (unmapped c (cacheKey va)).map (· ||| (va &&& cacheMask)) := by
  have hk := toNat_cacheKey va
  have hjoin (base : Uptr) (hb : base.toNat % 4096 = 0) (hle : base ≤ cacheKey va) :
      va - base = (cacheKey va - base) ||| (va &&& cacheMask) := by
    refine BitVec.eq_of_toNat_eq ?_
    have hsub : (cacheKey va - base).toNat = (cacheKey va).toNat - base.toNat := BitVec.toNat_sub_of_le hle
    rw [toNat_or_offset (by rw [hsub]; omega), hsub, BitVec.toNat_sub_of_le (by bv_omega)]
    bv_omega
  have h0 : (0x80000000 ≤ cacheKey va ∧ cacheKey va ≤ 0x9FFFFFFF) ↔ (0x80000000 ≤ va ∧ va ≤ 0x9FFFFFFF) := by bv_omega
  have h1 : (0xA0000000 ≤ cacheKey va ∧ cacheKey va ≤ 0xBFFFFFFF) ↔ (0xA0000000 ≤ va ∧ va ≤ 0xBFFFFFFF) := by bv_omega
  have h2 : cacheKey va ≤ 0x7FFFFFFF ↔ va ≤ 0x7FFFFFFF := by bv_omega
  unfold unmapped
  simp only [h0, h1, h2]
  split_ifs with hc hk0 hk1 hku
  · exact congrArg some (hjoin _ (by decide) (h0.mpr hk0).1)
  · exact congrArg some (hjoin _ (by decide) (h1.mpr hk1).1)
  · exact congrArg some (cacheKey_or_offset va).symm
  · rfl
  · rfl

/-- The walk treats all addresses of a page alike. -/
theorem walk_cacheKey (c : EeCoreCop0) (tlb : EeCoreTlb) (va : Uptr) (rw : MmuRwAccess) :
    walk c tlb va rw = (walk c tlb (cacheKey va) rw).map (· ||| (va &&& cacheMask)) := by
  simp only [walk, inSegment_cacheKey, unmapped_cacheKey c va, find_cacheKey, physicalInfo_cacheKey]
  by_cases hseg : InSegment c.status.operatingContext va
  · simp only [hseg, not_true, if_false]
    cases unmapped c (cacheKey va) with
    | some pa => rfl
    | none =>
      cases tlb.findTlbEntryIndex va with
      | none => rfl
      | some i =>
        simp only [Option.map_none, physicalAddress_cacheKey (tlb i) va]
        split_ifs <;> rfl
  · simp only [hseg, not_false_eq_true, if_true]
    rfl

/-! ### What a lookup does -/

@[simp] theorem setTranslationCache_cop0 (s : EeCore σ) (id : MmuIdAccess) (cache : CacheTy) :
    (s.setTranslationCache id cache).cop0 = s.cop0 := by cases id <;> rfl

@[simp] theorem setTranslationCache_tlb (s : EeCore σ) (id : MmuIdAccess) (cache : CacheTy) :
    (s.setTranslationCache id cache).tlb = s.tlb := by cases id <;> rfl

@[simp] theorem setTranslationCache_self (s : EeCore σ) (id : MmuIdAccess) :
    s.setTranslationCache id (s.translationCache id) = s := by cases id <;> rfl

@[simp] theorem translationCache_set_self (s : EeCore σ) (id : MmuIdAccess) (cache : CacheTy) :
    (s.setTranslationCache id cache).translationCache id = cache := by cases id <;> rfl

theorem translationCache_set_of_ne (s : EeCore σ) {id id' : MmuIdAccess} (h : id' ≠ id) (cache : CacheTy) :
    (s.setTranslationCache id cache).translationCache id' = s.translationCache id' := by
  cases id <;> cases id' <;> first | rfl | exact absurd rfl h

theorem lookup_of_hit {s : EeCore σ} {id : MmuIdAccess} {va pa : Uptr} (rwAccess : MmuRwAccess)
    (h : (s.translationCache id).find (cacheKey va) = some pa) :
    s.lookup id va rwAccess = .value (pa ||| (va &&& cacheMask))
      (s.setTranslationCache id ((s.translationCache id).get (cacheKey va)).2) := by
  simp only [lookup]
  rw [TimestampLruCache.get_of_find h]

theorem lookup_of_miss {s : EeCore σ} {id : MmuIdAccess} {va : Uptr} (rwAccess : MmuRwAccess)
    (h : (s.translationCache id).find (cacheKey va) = none) :
    s.lookup id va rwAccess = match walk s.cop0 s.tlb (cacheKey va) rwAccess with
      | .ok pa => .value (pa ||| (va &&& cacheMask))
        (s.setTranslationCache id ((s.translationCache id).insert (cacheKey va) pa))
      | .error e => .exception e (s.mmuError (cacheKey va)) := by
  simp only [lookup]
  rw [TimestampLruCache.get_of_find_none h]
  simp only [setTranslationCache_self, translateAddressFallback]
  cases walk s.cop0 s.tlb (cacheKey va) rwAccess <;> rfl

/-- A lookup writes its cache, or faults as the walk does. -/
theorem lookup_cases (s : EeCore σ) (id : MmuIdAccess) (va : Uptr) (rwAccess : MmuRwAccess) :
    (∃ pa cache, s.lookup id va rwAccess = .value pa (s.setTranslationCache id cache)) ∨
      ∃ e, walk s.cop0 s.tlb (cacheKey va) rwAccess = .error e ∧
        s.lookup id va rwAccess = .exception e (s.mmuError (cacheKey va)) := by
  cases hc : (s.translationCache id).find (cacheKey va) with
  | some page => exact .inl ⟨_, _, lookup_of_hit rwAccess hc⟩
  | none =>
    rw [lookup_of_miss rwAccess hc]
    cases walk s.cop0 s.tlb (cacheKey va) rwAccess with
    | ok page => exact .inl ⟨_, _, rfl⟩
    | error e => exact .inr ⟨e, rfl, rfl⟩

theorem translateAddressFallback_answer (s : EeCore σ) (va : Uptr) (rwAccess : MmuRwAccess) :
    (s.translateAddressFallback va rwAccess).answer = walk s.cop0 s.tlb va rwAccess := by
  unfold translateAddressFallback
  cases walk s.cop0 s.tlb va rwAccess <;> rfl

/-- On a miss the caller sees what the walk gives. -/
theorem lookup_answer_of_miss {s : EeCore σ} {id : MmuIdAccess} {va : Uptr} (rwAccess : MmuRwAccess)
    (h : (s.translationCache id).find (cacheKey va) = none) :
    (s.lookup id va rwAccess).answer = walk s.cop0 s.tlb va rwAccess := by
  rw [lookup_of_miss rwAccess h, walk_cacheKey s.cop0 s.tlb va]
  cases walk s.cop0 s.tlb (cacheKey va) rwAccess <;> rfl

end EeCore

end Orbum
