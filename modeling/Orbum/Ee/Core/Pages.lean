import Orbum.Ee.Core.TranslationTransparency

/-!
# Translation by pages

All that the translation of data addresses has to do with an address is its page: the physical page is found or
remembered, and the offset is joined to it. `PageAligned` says that the cache remembers pages; every operation keeps it.
-/

namespace Orbum

namespace EeCore

variable {σ : Type}

/-- The physical addresses in the cache are those of pages. -/
def PageAligned (s : EeCore σ) : Prop := s.translationCacheData.All fun _ pa => pa.toNat % 4096 = 0

/-! ### The walk finds pages -/

theorem toNat_mod_page_eq_zero {x : Uptr} (h : ∀ i < 12, x.getLsbD i = false) : x.toNat % 4096 = 0 := by
  refine Nat.eq_of_testBit_eq fun i => ?_
  rw [show 4096 = 2 ^ 12 by rfl, Nat.testBit_mod_two_pow, BitVec.testBit_toNat, Nat.zero_testBit]
  by_cases h12 : i < 12
  · rw [h i h12, Bool.and_false]
  · rw [decide_eq_false h12, Bool.false_and]

theorem unmapped_page {c : EeCoreCop0} {va pa : Uptr} (h : unmapped c (cacheKey va) = some pa) : pa.toNat % 4096 = 0 := by
  have hk := toNat_cacheKey va
  unfold unmapped at h
  split_ifs at h with hc hk0 hk1 hku
  · obtain rfl := Option.some.inj h
    bv_omega
  · obtain rfl := Option.some.inj h
    bv_omega
  · obtain rfl := Option.some.inj h
    omega

theorem physicalAddress_page (e : EeCoreTlbEntry) (va : Uptr) : (e.physicalAddress (cacheKey va)).toNat % 4096 = 0 := by
  unfold EeCoreTlbEntry.physicalAddress
  split_ifs
  · have hk := toNat_cacheKey va
    have hand : (cacheKey va &&& 0x3FFF).toNat = (cacheKey va).toNat % 16384 := by
      rw [BitVec.toNat_and]
      exact Nat.and_two_pow_sub_one_eq_mod _ 14
    bv_omega
  · refine toNat_mod_page_eq_zero fun i hi => ?_
    rw [BitVec.getLsbD_or, BitVec.getLsbD_and, BitVec.getLsbD_shiftLeft, getLsbD_cacheKey]
    simp [hi, Nat.not_le.mpr hi]

theorem walk_page {c : EeCoreCop0} {tlb : EeCoreTlb} {va pa : Uptr} {rwAccess : MmuRwAccess}
    (h : walk c tlb (cacheKey va) rwAccess = .ok pa) : pa.toNat % 4096 = 0 := by
  have hfill := filledBy_of_walk h
  unfold FilledBy at hfill
  cases hu : unmapped c (cacheKey va) with
  | some address =>
    rw [hu] at hfill
    obtain rfl : pa = address := hfill
    exact unmapped_page hu
  | none =>
    rw [hu] at hfill
    obtain ⟨i, -, -, rfl⟩ := hfill
    exact physicalAddress_page (tlb i) va

/-! ### Operations keep it -/

theorem pageAligned_flush (s : EeCore σ) : s.flush.PageAligned := TimestampLruCache.all_new

theorem pageAligned_of_handled {r : Result σ Uptr} {v : Option Uptr} {s' : EeCore σ} (h : r.handled = .ok (v, s'))
    (hr : r.state.PageAligned) : s'.PageAligned := by
  cases r with
  | value a s =>
    obtain ⟨-, rfl⟩ := Prod.mk.inj (Except.ok.inj h)
    exact hr
  | exception e s =>
    obtain ⟨t, ht, h⟩ := bind_eq_ok_iff.mp h
    obtain ⟨-, rfl⟩ := Prod.mk.inj (Except.ok.inj h)
    rcases settled_of_handleException ht with hflush | ⟨-, hcache⟩
    · exact hflush ▸ pageAligned_flush t
    · have hdata : t.translationCacheData = s.translationCacheData := hcache .data
      rw [PageAligned, hdata]
      exact hr

theorem pageAligned_lookup {s : EeCore σ} (hs : s.PageAligned) (id : MmuIdAccess) (va : Uptr) (rwAccess : MmuRwAccess) :
    (s.lookup id va rwAccess).state.PageAligned := by
  have hset {cache : CacheTy} (hcache : id = .data → cache.All fun _ pa => pa.toNat % 4096 = 0) :
      (s.setTranslationCache id cache).PageAligned := by
    cases id with
    | instruction => exact hs
    | data => exact hcache rfl
  cases hc : (s.translationCache id).find (cacheKey va) with
  | some pa =>
    rw [lookup_of_hit rwAccess hc]
    refine hset fun hid => ?_
    subst hid
    exact hs.get _
  | none =>
    rw [lookup_of_miss rwAccess hc]
    cases hw : walk s.cop0 s.tlb (cacheKey va) rwAccess with
    | ok pa =>
      refine hset fun hid => ?_
      subst hid
      exact hs.insert (walk_page hw)
    | error e => exact hs

/-- Whatever reaches the MMU. -/
theorem pageAligned_of_step {op : MmuOp} {s s' : EeCore σ} (hs : s.PageAligned) (h : op.step s = .ok s') :
    s'.PageAligned := by
  cases op with
  | data va rwAccess =>
    obtain ⟨⟨v, t⟩, ht, h⟩ := bind_eq_ok_iff.mp h
    obtain rfl := Except.ok.inj h
    exact pageAligned_of_handled ht (pageAligned_lookup hs .data va rwAccess)
  | inst va =>
    obtain ⟨⟨v, t⟩, ht, h⟩ := bind_eq_ok_iff.mp h
    obtain rfl := Except.ok.inj h
    exact pageAligned_of_handled ht (pageAligned_lookup hs .instruction va .read)
  | _ =>
    rcases settled_of_step h (by simp) (by simp) with hflush | ⟨-, hcache⟩
    · exact hflush ▸ pageAligned_flush s'
    · rw [PageAligned, show s'.translationCacheData = s.translationCacheData from hcache .data]
      exact hs

/-- In every state that a run from empty caches reaches, the cache holds pages. -/
theorem pageAligned_of_run {ops : List MmuOp} {s s' : EeCore σ} (h : Run.run MmuOp.step ops s.flush = .ok s') :
    s'.PageAligned :=
  Run.invariant_run (fun _ _ _ => pageAligned_of_step) (pageAligned_flush s) h

/-! ### What a translation answers -/

/-- All addresses of a page are translated alike. -/
theorem answer_of_page {s : EeCore σ} (hs : s.PageAligned) {va pa : Uptr} {rwAccess : MmuRwAccess}
    (h : (s.translateAddressData va rwAccess).answer = .ok pa) :
    ∃ base : Uptr, base.toNat % 4096 = 0 ∧ ∀ va', cacheKey va' = cacheKey va →
      (s.translateAddressData va' rwAccess).answer = .ok (base ||| (va' &&& cacheMask)) := by
  unfold translateAddressData at h ⊢
  cases hc : (s.translationCache .data).find (cacheKey va) with
  | some base =>
    refine ⟨base, hs.find hc, fun va' hkey => ?_⟩
    rw [lookup_of_hit rwAccess (hkey ▸ hc)]
    rfl
  | none =>
    rw [lookup_of_miss rwAccess hc] at h
    cases hw : walk s.cop0 s.tlb (cacheKey va) rwAccess with
    | ok base =>
      refine ⟨base, walk_page hw, fun va' hkey => ?_⟩
      rw [lookup_of_miss rwAccess (hkey ▸ hc), hkey, hw]
      rfl
    | error e =>
      rw [hw] at h
      cases h

/-- After a translation its page is in the cache, and any access to it is answered. -/
theorem translate_value {s : EeCore σ} {va pa : Uptr} {rwAccess : MmuRwAccess}
    (h : (s.translateAddressData va rwAccess).answer = .ok pa) :
    ∃ s', s.translateAddressData va rwAccess = .value pa s' ∧ s'.data = s.data ∧
      ∀ rwAccess', ∃ s'', s'.translateAddressData va rwAccess' = .value pa s'' ∧ s''.data = s.data := by
  -- A hit, with the cache after it.
  have hhit {t : EeCore σ} {base : Uptr} (hfind : (t.translationCache .data).find (cacheKey va) = some base)
      (rwAccess' : MmuRwAccess) : ∃ cache : CacheTy, t.translateAddressData va rwAccess' =
        .value (base ||| (va &&& cacheMask)) (t.setTranslationCache .data cache) ∧
      cache.find (cacheKey va) = some base :=
    ⟨_, lookup_of_hit rwAccess' hfind, (TimestampLruCache.find_get ..).trans hfind⟩
  have hcached : ∃ base cache, s.translateAddressData va rwAccess =
        .value (base ||| (va &&& cacheMask)) (s.setTranslationCache .data cache) ∧
      cache.find (cacheKey va) = some base := by
    cases hc : (s.translationCache .data).find (cacheKey va) with
    | some base => exact ⟨base, hhit hc rwAccess⟩
    | none =>
      have hmiss := lookup_of_miss rwAccess hc
      unfold translateAddressData at h ⊢
      rw [hmiss] at h ⊢
      cases hw : walk s.cop0 s.tlb (cacheKey va) rwAccess with
      | ok base => exact ⟨base, _, rfl, TimestampLruCache.find_insert_self (by decide) hc base⟩
      | error e =>
        rw [hw] at h
        cases h
  obtain ⟨base, cache, hvalue, hfind⟩ := hcached
  rw [hvalue] at h
  obtain rfl := Except.ok.inj h
  refine ⟨_, hvalue, rfl, fun rwAccess' => ?_⟩
  obtain ⟨cache', hvalue', -⟩ := hhit (t := s.setTranslationCache .data cache) hfind rwAccess'
  exact ⟨_, hvalue', rfl⟩

end EeCore

end Orbum
