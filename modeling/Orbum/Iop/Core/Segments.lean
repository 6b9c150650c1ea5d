import Orbum.Iop.Core.ExceptionEntry

/-!
# Segments of the IOP

The IOP maps its addresses by segment alone, and its caches hold what the segments say, whatever the core has done before:
`Filled` says so, and every event keeps it.
-/

namespace Orbum

open EeCore

namespace IopCore

variable {σ : Type} {s s' : IopCore σ} {va va' pa : Uptr} {rwAccess : MmuRwAccess} {id : MmuIdAccess}

/-- The physical addresses of the segments of kernel mode. -/
def segment (va : Uptr) : Option Uptr :=
  if 0x80000000 ≤ va ∧ va ≤ 0x9FFFFFFF then some (va - 0x80000000)
  else if 0xA0000000 ≤ va ∧ va ≤ 0xBFFFFFFF then some (va - 0xA0000000)
  else if 0xFFC00000 ≤ va then some va
  else if va ≤ 0x001FFFFF then some va
  else none

/-- The cache is isolated. -/
def Isolating (c : IopCoreCop0) : Prop := c.status.extractField IopCoreCop0Status.isc ≠ 0

instance (c : IopCoreCop0) : Decidable (Isolating c) := inferInstanceAs (Decidable (_ ≠ _))

/-- The fallback answers without an address. -/
def Refused (c : IopCoreCop0) (va : Uptr) (rwAccess : MmuRwAccess) : Prop :=
  Isolating c ∧ rwAccess = .write ∧ va ≤ 0x001FFFFF

/-! ### The fallback -/

/-- An address that is found is that of the segment. -/
theorem segment_of_fallback {c : IopCoreCop0} (h : translateAddressFallback c va rwAccess = .ok (some pa)) :
    segment va = some pa := by
  unfold translateAddressFallback at h
  unfold segment
  split_ifs at h with hk h0 h1 h2 h3 h4
  · rw [if_pos h0, Option.some.inj (Except.ok.inj h)]
  · rw [if_neg h0, if_pos h1, Option.some.inj (Except.ok.inj h)]
  · rw [if_neg h0, if_neg h1, if_pos h2, Option.some.inj (Except.ok.inj h)]
  · cases Except.ok.inj h
  · rw [if_neg h0, if_neg h1, if_neg h2, if_pos h3, Option.some.inj (Except.ok.inj h)]

/-- In kernel mode all addresses of the segments are found, but for the refused ones. -/
theorem fallback_of_segment {c : IopCoreCop0} (hk : c.status.operatingContext = .kernel) (h : segment va = some pa)
    (hr : ¬Refused c va rwAccess) : translateAddressFallback c va rwAccess = .ok (some pa) := by
  unfold translateAddressFallback
  unfold segment at h
  rw [if_pos hk]
  split_ifs at h with h0 h1 h2 h3
  · rw [if_pos h0, Option.some.inj h]
  · rw [if_neg h0, if_pos h1, Option.some.inj h]
  · rw [if_neg h0, if_neg h1, if_pos h2, Option.some.inj h]
  · rw [if_neg h0, if_neg h1, if_neg h2, if_pos h3, if_neg fun hi => hr ⟨hi.1, hi.2, h3⟩, Option.some.inj h]

theorem fallback_of_refused {c : IopCoreCop0} (hk : c.status.operatingContext = .kernel) (h : Refused c va rwAccess) :
    translateAddressFallback c va rwAccess = .ok none := by
  obtain ⟨hi, hw, hlow⟩ := h
  unfold translateAddressFallback
  rw [if_pos hk, if_neg (by bv_omega), if_neg (by bv_omega), if_neg (by bv_omega), if_pos hlow, if_pos ⟨hi, hw⟩]

theorem segment_of_refused {c : IopCoreCop0} (h : Refused c va rwAccess) : segment va = some va := by
  obtain ⟨-, -, hlow⟩ := h
  rw [segment, if_neg (by bv_omega), if_neg (by bv_omega), if_neg (by bv_omega), if_pos hlow]

/-- Only refused addresses have no answer. -/
theorem refused_of_fallback {c : IopCoreCop0} (h : translateAddressFallback c va rwAccess = .ok none) :
    c.status.operatingContext = .kernel ∧ Refused c va rwAccess := by
  unfold translateAddressFallback at h
  split_ifs at h with hk h0 h1 h2 h3 h4
  · cases Except.ok.inj h
  · cases Except.ok.inj h
  · cases Except.ok.inj h
  · exact ⟨hk, h4.1, h4.2, h3⟩
  · cases Except.ok.inj h

/-- In user mode there are no answers. -/
theorem kernel_of_fallback {c : IopCoreCop0} {result : Option Uptr}
    (h : translateAddressFallback c va rwAccess = .ok result) : c.status.operatingContext = .kernel := by
  unfold translateAddressFallback at h
  by_contra hk
  rw [if_neg hk] at h
  cases h

/-- Segments are made of pages. -/
theorem segment_cacheKey (va : Uptr) : segment va = (segment (cacheKey va)).map (· ||| (va &&& cacheMask)) := by
  have hk := toNat_cacheKey va
  have hva := va.isLt
  have hjoin {x y : Uptr} (hx : x.toNat % 4096 = 0) (hy : y.toNat = x.toNat + va.toNat % 4096) :
      y = x ||| (va &&& cacheMask) := BitVec.eq_of_toNat_eq (hy.trans (toNat_or_offset hx va).symm)
  have h0 : (0x80000000 ≤ va ∧ va ≤ 0x9FFFFFFF) ↔ 0x80000000 ≤ cacheKey va ∧ cacheKey va ≤ 0x9FFFFFFF := by bv_omega
  have h1 : (0xA0000000 ≤ va ∧ va ≤ 0xBFFFFFFF) ↔ 0xA0000000 ≤ cacheKey va ∧ cacheKey va ≤ 0xBFFFFFFF := by bv_omega
  have h2 : 0xFFC00000 ≤ va ↔ 0xFFC00000 ≤ cacheKey va := by bv_omega
  have h3 : va ≤ 0x001FFFFF ↔ cacheKey va ≤ 0x001FFFFF := by bv_omega
  unfold segment
  simp only [← h0, ← h1, ← h2, ← h3]
  split_ifs with hs0 hs1
  · exact congrArg some (hjoin (by bv_omega) (by bv_omega))
  · exact congrArg some (hjoin (by bv_omega) (by bv_omega))
  · exact congrArg some (cacheKey_or_offset va).symm
  · exact congrArg some (cacheKey_or_offset va).symm
  · rfl

/-- Addresses of one word are as far apart in the memory. -/
theorem segment_word (h : segment va = some pa) (hva : va'.toNat / 4 = va.toNat / 4) :
    ∃ pa', segment va' = some pa' ∧ pa'.toNat + va.toNat = pa.toNat + va'.toNat ∧ pa'.toNat % 4 = va'.toNat % 4 := by
  have hlt := va.isLt
  have hlt' := va'.isLt
  have h0 : (0x80000000 ≤ va' ∧ va' ≤ 0x9FFFFFFF) ↔ 0x80000000 ≤ va ∧ va ≤ 0x9FFFFFFF := by bv_omega
  have h1 : (0xA0000000 ≤ va' ∧ va' ≤ 0xBFFFFFFF) ↔ 0xA0000000 ≤ va ∧ va ≤ 0xBFFFFFFF := by bv_omega
  have h2 : 0xFFC00000 ≤ va' ↔ 0xFFC00000 ≤ va := by bv_omega
  have h3 : va' ≤ 0x001FFFFF ↔ va ≤ 0x001FFFFF := by bv_omega
  unfold segment at h ⊢
  simp only [h0, h1, h2, h3]
  split_ifs at h ⊢ with hs0 hs1
  · obtain rfl := Option.some.inj h
    exact ⟨_, rfl, by bv_omega, by bv_omega⟩
  · obtain rfl := Option.some.inj h
    exact ⟨_, rfl, by bv_omega, by bv_omega⟩
  · obtain rfl := Option.some.inj h
    exact ⟨_, rfl, Nat.add_comm _ _, rfl⟩
  · obtain rfl := Option.some.inj h
    exact ⟨_, rfl, Nat.add_comm _ _, rfl⟩

/-! ### What the caches hold -/

/-- The caches hold what the segments say. -/
def Filled (s : IopCore σ) : Prop := ∀ id, (s.translationCache id).All fun key pa => segment key = some pa

theorem filled_flush (s : IopCore σ) : s.flush.Filled := by
  intro id
  cases id <;> exact TimestampLruCache.all_new

/-- Only the caches matter. -/
theorem Filled.congr (hs : s.Filled) (h : ∀ id, s'.translationCache id = s.translationCache id) : s'.Filled := by
  intro id
  rw [h id]
  exact hs id

theorem Filled.setTranslationCache (hs : s.Filled) {cache : CacheTy} (hc : cache.All fun key pa => segment key = some pa) :
    (s.setTranslationCache id cache).Filled := by
  intro id'
  cases id with
  | instruction =>
    cases id' with
    | instruction => exact hc
    | data => exact hs .data
  | data =>
    cases id' with
    | instruction => exact hs .instruction
    | data => exact hc

/-- A lookup that hits. -/
theorem lookup_of_hit {base : Uptr} (h : (s.translationCache id).find (cacheKey va) = some base) (rwAccess : MmuRwAccess) :
    s.lookup id va rwAccess = .ok (some (base ||| (va &&& cacheMask)),
      s.setTranslationCache id ((s.translationCache id).get (cacheKey va)).2) := by
  rw [lookup, TimestampLruCache.get_of_find h]

/-- A lookup that misses. -/
theorem lookup_of_miss (h : (s.translationCache id).find (cacheKey va) = none) (rwAccess : MmuRwAccess) :
    s.lookup id va rwAccess = translateAddressFallback s.cop0 (cacheKey va) rwAccess >>= fun
      | some result => .ok (some (result ||| (va &&& cacheMask)),
          s.setTranslationCache id ((s.translationCache id).insert (cacheKey va) result))
      | none => .ok (none, s.setTranslationCache id (s.translationCache id)) := by
  rw [lookup, TimestampLruCache.get_of_find_none h]
  rfl

/-- A translation keeps all but the caches. -/
theorem data_lookup (s : IopCore σ) (id : MmuIdAccess) (va : Uptr) (rwAccess : MmuRwAccess) :
    Ensures (fun r => r.2.data = s.data ∧ r.2.cop0 = s.cop0) (s.lookup id va rwAccess) := by
  have hset (cache : CacheTy) : (s.setTranslationCache id cache).data = s.data ∧
      (s.setTranslationCache id cache).cop0 = s.cop0 := by cases id <;> exact ⟨rfl, rfl⟩
  unfold lookup
  dsimp only
  split
  · exact .ok (hset _)
  · refine (Ensures.trivial _).bind fun result _ => ?_
    cases result with
    | none => exact .ok (hset _)
    | some pa => exact .ok (hset _)

theorem data_translateAddressData (s : IopCore σ) (va : Uptr) (rwAccess : MmuRwAccess) :
    Ensures (fun r => r.2.data = s.data ∧ r.2.cop0 = s.cop0) (s.translateAddressData va rwAccess) := by
  unfold translateAddressData
  split_ifs
  · exact (Ensures.trivial _).bind fun _ _ => .ok ⟨rfl, rfl⟩
  · exact data_lookup s .data va rwAccess

theorem translateAddressData_read (s : IopCore σ) (va : Uptr) : s.translateAddressData va .read = s.lookup .data va .read :=
  if_neg nofun

/-- What a lookup does. -/
inductive LookedUp (id : MmuIdAccess) (va : Uptr) (rwAccess : MmuRwAccess) (s : IopCore σ) : Option Uptr × IopCore σ → Prop
  /-- It finds the address of the segment, and its page is in the cache afterwards. -/
  | found {base : Uptr} {cache : CacheTy} : segment (cacheKey va) = some base →
      (cache.All fun key pa => segment key = some pa) → cache.find (cacheKey va) = some base →
      LookedUp id va rwAccess s (some (base ||| (va &&& cacheMask)), s.setTranslationCache id cache)
  /-- The fallback refuses it. -/
  | refused : s.cop0.status.operatingContext = .kernel → Refused s.cop0 (cacheKey va) rwAccess →
      LookedUp id va rwAccess s (none, s.setTranslationCache id (s.translationCache id))

theorem lookedUp (hs : s.Filled) (id : MmuIdAccess) (va : Uptr) (rwAccess : MmuRwAccess) :
    Ensures (LookedUp id va rwAccess s) (s.lookup id va rwAccess) := by
  cases hc : (s.translationCache id).find (cacheKey va) with
  | some base =>
    rw [lookup_of_hit hc]
    exact .ok (.found ((hs id).find hc) ((hs id).get _) ((TimestampLruCache.find_get ..).trans hc))
  | none =>
    rw [lookup_of_miss hc]
    cases hf : translateAddressFallback s.cop0 (cacheKey va) rwAccess with
    | error e => exact .error e
    | ok result =>
      cases result with
      | some base =>
        have hbase := segment_of_fallback hf
        exact .ok (.found hbase ((hs id).insert hbase) (TimestampLruCache.find_insert_self (by decide) hc base))
      | none =>
        obtain ⟨hk, hr⟩ := refused_of_fallback hf
        exact .ok (.refused hk hr)

theorem Filled.lookup (hs : s.Filled) (id : MmuIdAccess) (va : Uptr) (rwAccess : MmuRwAccess) :
    Ensures (fun r => r.2.Filled) (s.lookup id va rwAccess) := by
  refine (lookedUp hs id va rwAccess).mono fun r hr => ?_
  cases hr with
  | found hbase hall hfind => exact hs.setTranslationCache hall
  | refused hk hr => exact hs.setTranslationCache (hs id)

theorem Filled.translateAddressData (hs : s.Filled) (va : Uptr) (rwAccess : MmuRwAccess) :
    Ensures (fun r => r.2.Filled) (s.translateAddressData va rwAccess) := by
  unfold IopCore.translateAddressData
  split_ifs
  · exact (Ensures.trivial _).bind fun _ _ => .ok hs
  · exact hs.lookup .data va rwAccess

theorem fallback_of_segment_none {c : IopCoreCop0} (hk : c.status.operatingContext = .kernel) (h : segment va = none)
    (rwAccess : MmuRwAccess) : translateAddressFallback c va rwAccess =
      .error (.runtimeError "IOPCore MMU: VA or COP0 was not in kernel context (not implemented). Needs debugging!") := by
  unfold segment at h
  unfold translateAddressFallback
  rw [if_pos hk]
  split_ifs at h with h0 h1 h2 h3
  rw [if_neg h0, if_neg h1, if_neg h2, if_neg h3]

/-- In kernel mode nobody sees the caches: a translation answers what the fallback does. -/
theorem translateAddressData_rel (hs : s.Filled) (hk : s.cop0.status.operatingContext = .kernel) (va : Uptr)
    (rwAccess : MmuRwAccess) :
    ExceptRel (fun result r => r.1 = result ∧ r.2.data = s.data ∧ r.2.cop0 = s.cop0 ∧ r.2.Filled)
      (translateAddressFallback s.cop0 va rwAccess) (s.translateAddressData va rwAccess) := by
  unfold translateAddressData
  split_ifs with hw
  · cases translateAddressFallback s.cop0 va rwAccess with
    | error e => exact .error e
    | ok result => exact .ok ⟨rfl, rfl, rfl, hs⟩
  · have hr {va : Uptr} : ¬Refused s.cop0 va rwAccess := fun hr => hw ⟨hr.2.1, hr.1⟩
    cases hc : (s.translationCache .data).find (cacheKey va) with
    | some base =>
      have hva : segment va = some (base ||| (va &&& cacheMask)) := by
        rw [segment_cacheKey, (hs .data).find hc, Option.map_some]
      rw [lookup_of_hit hc, fallback_of_segment hk hva hr]
      exact .ok ⟨rfl, rfl, rfl, hs.setTranslationCache ((hs .data).get _)⟩
    | none =>
      rw [lookup_of_miss hc]
      cases hbase : segment (cacheKey va) with
      | none =>
        have hva : segment va = none := by rw [segment_cacheKey, hbase, Option.map_none]
        rw [fallback_of_segment_none hk hva, fallback_of_segment_none hk hbase]
        exact .error _
      | some base =>
        have hva : segment va = some (base ||| (va &&& cacheMask)) := by rw [segment_cacheKey, hbase, Option.map_some]
        rw [fallback_of_segment hk hva hr, fallback_of_segment hk hbase hr]
        exact .ok ⟨rfl, rfl, rfl, hs.setTranslationCache ((hs .data).insert hbase)⟩

theorem run_translate_of_isolating {σ : Type} {s : IopCore σ} (hi : Isolating s.cop0) (va : Uptr)
    (next : Uptr → IopMicro σ) : (IopMicro.translate va .write next).run s =
      translateAddressFallback s.cop0 va .write >>= fun
        | some pa => (next pa).run s
        | none => .ok (.value s) := by
  rw [IopMicro.run, translateAddressData, if_pos ⟨rfl, hi⟩]
  cases translateAddressFallback s.cop0 va .write with
  | error e => rfl
  | ok result => cases result <;> rfl

/-! ### Events keep it -/

/-- An exception flushes. -/
theorem filled_handleException (s : IopCore σ) (e : IopCoreException) : Ensures Filled (s.handleException e) := by
  unfold IopCore.handleException
  by_cases he : e = .exReset
  · rw [if_pos he]
    exact .error _
  · rw [if_neg he]
    exact (Ensures.trivial _).bind fun status _ => .ok (filled_flush _)

theorem Filled.handled {r : IopResult σ} (hr : (resultState r).Filled) : Ensures Filled r.handled := by
  cases r with
  | value s => exact .ok hr
  | exception e s => exact filled_handleException s e

theorem Filled.whenCop0Usable (hs : s.Filled) {k : Except HostError (IopCore σ)} (hk : Ensures Filled k) :
    Ensures (fun r => (resultState r).Filled) (s.whenCop0Usable k) := by
  unfold IopCore.whenCop0Usable
  split_ifs
  · exact hk.bind fun t ht => .ok ht
  · exact .ok (hs.congr fun id => by cases id <;> rfl)

theorem Filled.branch (hs : s.Filled) (taken : IopData σ → Bool) (link : Option (BitVec 5)) (target : BranchTarget) :
    (s.branch taken link target).Filled := by
  unfold IopCore.branch
  split_ifs
  · exact hs.congr fun id => by cases id <;> rfl
  · exact hs

end IopCore

open IopCore

variable {σ : Type} {s s' : IopCore σ}

theorem IopMicro.run_filled (m : IopMicro σ) (hs : s.Filled) : Ensures (fun r => (resultState r).Filled) (m.run s) := by
  induction m generalizing s with
  | done data => exact .ok (hs.congr fun id => by cases id <;> rfl)
  | fail e => exact .error e
  | raise e => exact .ok hs
  | translate va rwAccess next ih =>
    rw [run]
    refine (hs.translateAddressData va rwAccess).bind fun r hr => ?_
    obtain ⟨_ | pa, t⟩ := r
    · exact .ok hr
    · exact ih pa hr
  | write data next ih => exact ih (hs.congr fun id => by cases id <;> rfl)

theorem IopOperation.run_filled (op : IopOperation σ) (hs : s.Filled) :
    Ensures (fun r => (resultState r).Filled) (op.run s) := by
  cases op with
  | data m => exact (m s.data).run_filled hs
  | branch taken link target => exact .ok (hs.branch taken link target)
  | mfc0 rt rd =>
    exact hs.whenCop0Usable ((Ensures.trivial _).bind fun _ _ => .ok (hs.congr fun id => by cases id <;> rfl))
  | mtc0 rt rd =>
    exact hs.whenCop0Usable ((Ensures.trivial _).bind fun _ _ => .ok (hs.congr fun id => by cases id <;> rfl))
  | rfe => exact Ensures.bind ((Ensures.trivial _).bind fun _ _ => .ok (filled_flush _)) fun t ht => .ok ht

namespace IopCore

/-- Whatever the core does between two instructions. -/
inductive Event (σ : Type) where
  /-- It fetches an instruction. -/
  | fetch (M : IopMachine σ)
  /-- It runs one: a load, a store, `MTC0` or any other, with its exception. -/
  | operation (op : IopOperation σ)
  /-- It checks for interrupts. -/
  | interruptCheck
  /-- It goes on to the next instruction. -/
  | advance
  /-- Anything else: the registers, the program counter, COP0 and the machine are changed. -/
  | other (f : IopCore σ → IopCore σ)

/-- What an event does. -/
def Event.step : Event σ → IopCore σ → Except HostError (IopCore σ)
  | fetch M, s => do return (← s.fetch M).2
  | operation op, s => do (← op.run s).handled
  | interruptCheck, s => s.handleInterruptCheck
  | advance, s => .ok s.advancePc
  | other f, s => .ok { f s with
      translationCacheData := s.translationCacheData, translationCacheInst := s.translationCacheInst }

theorem Filled.fetch (hs : s.Filled) (M : IopMachine σ) : Ensures (fun r => r.2.Filled) (s.fetch M) := by
  refine (hs.lookup .instruction s.pc .read).bind fun r hr => ?_
  obtain ⟨_ | pa, t⟩ := r
  · exact .error _
  · exact (Ensures.trivial _).bind fun _ _ => .ok (hr.congr fun id => by cases id <;> rfl)

theorem Filled.handleInterruptCheck (hs : s.Filled) : Ensures Filled s.handleInterruptCheck := by
  have hmerge : s.mergeCause.Filled := hs.congr fun id => by cases id <;> rfl
  unfold IopCore.handleInterruptCheck
  split_ifs
  · exact .ok hs
  · exact filled_handleException _ _
  · exact .ok hmerge

theorem Filled.step (hs : s.Filled) (ev : Event σ) : Ensures Filled (ev.step s) := by
  cases ev with
  | fetch M => exact (hs.fetch M).bind fun r hr => .ok hr
  | operation op => exact (op.run_filled hs).bind fun r hr => hr.handled
  | interruptCheck => exact hs.handleInterruptCheck
  | advance => exact .ok (hs.congr fun id => by cases id <;> rfl)
  | other f => exact .ok (hs.congr fun id => by cases id <;> rfl)

/-- Whatever the core has done, from caches that were empty. -/
theorem filled_of_run {evs : List (Event σ)} (hs : s.Filled) (h : Run.run Event.step evs s = .ok s') : s'.Filled :=
  Run.invariant_run (fun ev _ t' ht hstep => ht.step ev t' hstep) hs h

end IopCore

end Orbum
