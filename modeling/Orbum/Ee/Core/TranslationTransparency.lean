import Orbum.Ee.Core.Interpreter.SystemControl
import Orbum.Lib.Run

/-!
# Transparency of the translation caches

The caches are keyed on the page alone, while the walk behind them also depends on the access, on the
operating context, on `Status.ERL` and on `EntryHi.ASID`. A hit therefore answers for the access and
the COP0 state of the fill.

What a cached pair remembers is `FilledBy`: the page is unmapped and goes where its segment says, or
a valid TLB entry maps it. It stays true as long as whatever moves a cached page between the
unmapped and the mapped segments also flushes (`Steady`), since every write to the TLB flushes. Given
that, a hit answers what the walk would answer exactly if the page is `Accessible` now.
-/

namespace Orbum

namespace EeCore

variable {σ : Type}

/-! ### What a cached pair remembers -/

/-- `pa` is where the page `key` is, access rights aside. -/
def FilledBy (c : EeCoreCop0) (tlb : EeCoreTlb) (key pa : Uptr) : Prop :=
  match unmapped c key with
  | some address => pa = address
  | none => ∃ i, tlb.findTlbEntryIndex key = some i ∧ ((tlb i).physicalInfo key).v ∧ pa = (tlb i).physicalAddress key

/-- The operating context, the address space and, for a write, the dirty bit allow the access. -/
def Accessible (c : EeCoreCop0) (tlb : EeCoreTlb) (key : Uptr) (rwAccess : MmuRwAccess) : Prop :=
  InSegment c.status.operatingContext key ∧
    (unmapped c key = none → ∀ i, tlb.findTlbEntryIndex key = some i →
      (tlb i).InAddressSpace c ∧ (rwAccess = .write → ((tlb i).physicalInfo key).d))

theorem filledBy_of_walk {c : EeCoreCop0} {tlb : EeCoreTlb} {key pa : Uptr} {rwAccess : MmuRwAccess}
    (h : walk c tlb key rwAccess = .ok pa) : FilledBy c tlb key pa := by
  unfold walk at h
  unfold FilledBy
  split_ifs at h
  cases hu : unmapped c key with
  | some address =>
    simp only [hu, Except.ok.injEq] at h
    exact h.symm
  | none =>
    cases hi : tlb.findTlbEntryIndex key with
    | none => simp [hu, hi] at h
    | some i =>
      simp only [hu, hi] at h
      split_ifs at h with h1 h2 h3
      exact ⟨i, rfl, by simpa using h2, (Except.ok.inj h).symm⟩

theorem FilledBy.unique {c : EeCoreCop0} {tlb : EeCoreTlb} {key pa pa' : Uptr} (h : FilledBy c tlb key pa)
    (h' : FilledBy c tlb key pa') : pa = pa' := by
  unfold FilledBy at h h'
  cases hu : unmapped c key with
  | some address =>
    simp only [hu] at h h'
    rw [h, h']
  | none =>
    simp only [hu] at h h'
    obtain ⟨i, hi, -, rfl⟩ := h
    obtain ⟨j, hj, -, rfl⟩ := h'
    rw [Option.some.inj (hi.symm.trans hj)]

/-- The walk gives what was cached exactly for the accesses allowed now. -/
theorem walk_eq_iff_accessible {c : EeCoreCop0} {tlb : EeCoreTlb} {key pa : Uptr} (h : FilledBy c tlb key pa)
    (rwAccess : MmuRwAccess) : walk c tlb key rwAccess = .ok pa ↔ Accessible c tlb key rwAccess := by
  unfold FilledBy at h
  unfold walk Accessible
  by_cases hseg : InSegment c.status.operatingContext key
  · cases hu : unmapped c key with
    | some address => simp_all
    | none =>
      simp only [hu] at h
      obtain ⟨i, hi, hv, rfl⟩ := h
      simp only [hseg, hi, hv, not_true, if_false, true_and, Option.some.injEq, forall_eq', forall_const]
      by_cases hspace : (tlb i).InAddressSpace c
      · by_cases hd : ((tlb i).physicalInfo key).d <;> by_cases hrw : rwAccess = .write <;> simp [hspace, hd, hrw]
      · simp [hspace]
  · simp [hseg]

/-! ### Runs of the MMU -/

/-- What reaches the MMU. -/
inductive MmuOp where
  /-- `translate_address_data`. -/
  | data (virtualAddress : Uptr) (rwAccess : MmuRwAccess)
  /-- `translate_address_inst`. -/
  | inst (virtualAddress : Uptr)
  /-- `MTC0`. -/
  | mtc0 (rd : BitVec 5) (value : Uword)
  /-- `DI`. -/
  | di
  /-- `EI`. -/
  | ei
  /-- `TLBR`. -/
  | tlbr
  /-- `TLBP`. -/
  | tlbp
  /-- `TLBWI`. -/
  | tlbwi
  /-- `TLBWR`. -/
  | tlbwr
  /-- `ERET`. -/
  | eret
  /-- `handle_exception`. -/
  | exception (e : EeCoreException)

/-- The state an instruction leaves, its exception handled. -/
def finish (r : Except HostError (Result σ Unit)) : Except HostError (EeCore σ) := do
  return (← (← r).handled).2

namespace MmuOp

/-- One operation. -/
def step : MmuOp → EeCore σ → Except HostError (EeCore σ)
  | data va rwAccess, s => do return (← (s.translateAddressData va rwAccess).handled).2
  | inst va, s => do return (← (s.translateAddressInst va).handled).2
  | mtc0 rd value, s => finish (s.mtc0 rd value)
  | di, s => finish s.di
  | ei, s => finish s.ei
  | tlbr, s => finish s.tlbr
  | tlbp, s => finish s.tlbp
  | tlbwi, s => finish s.tlbwi
  | tlbwr, s => finish s.tlbwr
  | eret, s => finish s.eret
  | exception e, s => s.handleException e

/-- The caches do not show: a lookup answers what the fallback would. -/
def Transparent : MmuOp → EeCore σ → Prop
  | data va rwAccess, s => (s.translateAddressData va rwAccess).answer = (s.translateAddressFallback va rwAccess).answer
  | inst va, s => (s.translateAddressInst va).answer = (s.translateAddressFallback va .read).answer
  | _, _ => True

/-- A lookup of a cached page is an access allowed now. -/
def Allowed : MmuOp → EeCore σ → Prop
  | data va rwAccess, s =>
    (s.translationCacheData.find (cacheKey va)).isSome → Accessible s.cop0 s.tlb (cacheKey va) rwAccess
  | inst va, s => (s.translationCacheInst.find (cacheKey va)).isSome → Accessible s.cop0 s.tlb (cacheKey va) .read
  | _, _ => True

/-- The operation moves no page that stays cached between the unmapped and the mapped segments. -/
def Steady (op : MmuOp) (s : EeCore σ) : Prop :=
  ∀ s', op.step s = .ok s' → ∀ id key, ((s'.translationCache id).find key).isSome →
    unmapped s'.cop0 key = unmapped s.cop0 key

end MmuOp

/-! ### The invariant -/

/-- Both caches hold only pairs that are where the walk would find them. -/
def Filled (s : EeCore σ) : Prop := ∀ id, (s.translationCache id).All (FilledBy s.cop0 s.tlb)

theorem filled_flush (s : EeCore σ) : s.flush.Filled := by
  intro id
  cases id <;> exact TimestampLruCache.all_new

/-- In a filled state a lookup is transparent exactly if a hit is an access allowed now. -/
theorem lookup_transparent_iff {s : EeCore σ} (hf : s.Filled) (id : MmuIdAccess) (va : Uptr) (rwAccess : MmuRwAccess) :
    (s.lookup id va rwAccess).answer = (s.translateAddressFallback va rwAccess).answer ↔
      (((s.translationCache id).find (cacheKey va)).isSome → Accessible s.cop0 s.tlb (cacheKey va) rwAccess) := by
  rw [translateAddressFallback_answer]
  cases hc : (s.translationCache id).find (cacheKey va) with
  | none => simp [lookup_answer_of_miss rwAccess hc]
  | some pa =>
    have hfill := (hf id).find hc
    simp only [lookup_of_hit rwAccess hc, Result.answer, Option.isSome_some, forall_const,
      ← walk_eq_iff_accessible hfill rwAccess]
    rw [walk_cacheKey s.cop0 s.tlb va]
    constructor
    · intro h
      cases hw : walk s.cop0 s.tlb (cacheKey va) rwAccess with
      | error e => simp [hw, Except.map] at h
      | ok pa' => rw [(filledBy_of_walk hw).unique hfill]
    · intro h
      rw [h]
      rfl

theorem transparent_iff_allowed {s : EeCore σ} (hf : s.Filled) (op : MmuOp) : op.Transparent s ↔ op.Allowed s := by
  cases op with
  | data va rwAccess => exact lookup_transparent_iff hf .data va rwAccess
  | inst va => exact lookup_transparent_iff hf .instruction va .read
  | _ => exact Iff.rfl

/-! ### Steps keep it -/

/-- What every operation but a lookup does to the TLB and the caches: it flushes, or leaves them alone. -/
def Settled (s s' : EeCore σ) : Prop :=
  s'.flush = s' ∨ (s'.tlb = s.tlb ∧ ∀ id, s'.translationCache id = s.translationCache id)

theorem Settled.refl (s : EeCore σ) : Settled s s := .inr ⟨rfl, fun _ => rfl⟩

theorem settled_of_handleException {e : EeCoreException} {s s' : EeCore σ} (h : s.handleException e = .ok s') :
    Settled s s' := by
  obtain ⟨status, -, ⟨-, rfl⟩ | ⟨-, -, rfl⟩ | ⟨-, -, status', -, rfl⟩⟩ := handleException_cases h
  · exact .inr ⟨rfl, fun id => by cases id <;> rfl⟩
  · exact .inl rfl
  · exact .inl rfl

/-- Exceptions that instructions and accesses raise flush. -/
theorem flush_of_handleException {e : EeCoreException} {s s' : EeCore σ} (h : s.handleException e = .ok s')
    (he : ¬(e = .exReset ∨ e = .exNmi)) : s'.flush = s' := by
  obtain ⟨status, -, ⟨hr, -⟩ | ⟨-, -, rfl⟩ | ⟨-, -, status', -, rfl⟩⟩ := handleException_cases h
  · exact absurd hr he
  · rfl
  · rfl

theorem settled_of_finish {r : Except HostError (Result σ Unit)} {s s' : EeCore σ}
    (hv : ∀ t, r = .ok (.value () t) → Settled s t)
    (he : ∀ e t, r = .ok (.exception e t) → ¬(e = .exReset ∨ e = .exNmi)) (h : finish r = .ok s') : Settled s s' := by
  obtain ⟨q, hq, h⟩ := bind_eq_ok_iff.mp h
  obtain ⟨⟨v, t⟩, ht, h⟩ := bind_eq_ok_iff.mp h
  obtain rfl : t = s' := by simpa using h
  cases q with
  | value u t' =>
    obtain ⟨-, rfl⟩ : some u = v ∧ t' = t := by simpa [Result.handled] using ht
    exact hv t' hq
  | exception e t' =>
    obtain ⟨t'', ht'', h⟩ := bind_eq_ok_iff.mp ht
    obtain ⟨-, rfl⟩ : none = v ∧ t'' = t := by simpa using h
    exact .inl (flush_of_handleException ht'' (he e t' hq))

theorem settled_of_whenCop0Usable {s s' : EeCore σ} {k : EeCore σ → Except HostError (EeCore σ)}
    (hk : ∀ t, k s = .ok t → Settled s t) (h : finish (s.whenCop0Usable k) = .ok s') : Settled s s' := by
  refine settled_of_finish (fun t ht => hk t (of_whenCop0Usable ht)) (fun e t ht => ?_) h
  unfold whenCop0Usable handleCopUsable at ht
  split_ifs at ht
  · obtain ⟨t', -, ht⟩ := bind_eq_ok_iff.mp ht
    simp at ht
  · obtain ⟨rfl, -⟩ : EeCoreException.exCoprocessorUnusable = e ∧ _ = t := by simpa using ht
    decide

theorem settled_of_writeTlbEntry {index : Uword} {s s' : EeCore σ} (h : s.writeTlbEntry index = .ok s') :
    Settled s s' := by
  obtain ⟨entry, -, h⟩ := bind_eq_ok_iff.mp h
  obtain ⟨tlb, -, h⟩ := bind_eq_ok_iff.mp h
  obtain rfl := Except.ok.inj h
  exact .inl rfl

theorem settled_of_setEie {value : Uword} {s s' : EeCore σ} (h : finish (s.setEie value) = .ok s') : Settled s s' := by
  refine settled_of_finish (fun t ht => ?_) (fun e t ht => ?_) h <;> unfold setEie at ht <;> split_ifs at ht
  · obtain ⟨status, -, ht⟩ := bind_eq_ok_iff.mp ht
    obtain rfl : _ = t := by simpa using ht
    exact .inr ⟨rfl, fun id => by cases id <;> rfl⟩
  · obtain rfl : s = t := by simpa using ht
    exact .refl s
  · obtain ⟨status, -, ht⟩ := bind_eq_ok_iff.mp ht
    simp at ht
  · simp at ht

/-- Every operation but a lookup is settled. -/
theorem settled_of_step {op : MmuOp} {s s' : EeCore σ} (h : op.step s = .ok s') (hdata : ∀ va rw, op ≠ .data va rw)
    (hinst : ∀ va, op ≠ .inst va) : Settled s s' := by
  cases op with
  | data va rw => exact absurd rfl (hdata va rw)
  | inst va => exact absurd rfl (hinst va)
  | mtc0 rd value =>
    refine settled_of_whenCop0Usable (fun t ht => ?_) h
    obtain ⟨cop0, -, ht⟩ := bind_eq_ok_iff.mp ht
    obtain rfl := Except.ok.inj ht
    exact .inr ⟨rfl, fun id => by cases id <;> rfl⟩
  | di => exact settled_of_setEie h
  | ei => exact settled_of_setEie h
  | tlbr =>
    refine settled_of_whenCop0Usable (fun t ht => ?_) h
    obtain ⟨entry, -, ht⟩ := bind_eq_ok_iff.mp ht
    obtain rfl := Except.ok.inj ht
    exact .inr ⟨rfl, fun id => by cases id <;> rfl⟩
  | tlbp =>
    simp only [MmuOp.step, tlbp] at h
    refine settled_of_whenCop0Usable (fun t ht => ?_) h
    cases hp : probe s.cop0 s.tlb with
    | none =>
      simp only [hp] at ht
      obtain rfl := Except.ok.inj ht
      exact .refl s
    | some value =>
      simp only [hp] at ht
      obtain rfl := Except.ok.inj ht
      exact .inr ⟨rfl, fun id => by cases id <;> rfl⟩
  | tlbwi =>
    simp only [MmuOp.step, tlbwi] at h
    refine settled_of_whenCop0Usable (fun t ht => ?_) h
    exact settled_of_writeTlbEntry ht
  | tlbwr =>
    simp only [MmuOp.step, tlbwr] at h
    refine settled_of_whenCop0Usable (fun t ht => ?_) h
    exact settled_of_writeTlbEntry ht
  | eret =>
    refine settled_of_finish (fun t ht => ?_) (fun e t ht => ?_) h
    · obtain ⟨status, -, ht⟩ := bind_eq_ok_iff.mp ht
      obtain rfl : _ = t := by simpa using ht
      exact .inl rfl
    · obtain ⟨status, -, ht⟩ := bind_eq_ok_iff.mp ht
      simp at ht
  | exception e => exact settled_of_handleException h

theorem filledBy_congr {c c' : EeCoreCop0} (tlb : EeCoreTlb) {key : Uptr} (h : unmapped c' key = unmapped c key)
    (pa : Uptr) : FilledBy c' tlb key pa ↔ FilledBy c tlb key pa := by
  unfold FilledBy
  rw [h]

/-- A settled operation that moves no cached page keeps the caches filled. -/
theorem filled_of_settled {s s' : EeCore σ} (hs : Settled s s') (hf : s.Filled)
    (hsteady : ∀ id key, ((s'.translationCache id).find key).isSome → unmapped s'.cop0 key = unmapped s.cop0 key) :
    s'.Filled := by
  rcases hs with hflush | ⟨htlb, hcache⟩
  · exact hflush ▸ filled_flush s'
  · intro id e he
    have hkey := hsteady id e.1 (TimestampLruCache.find_isSome_of_mem he)
    rw [hcache id] at he
    rw [htlb, filledBy_congr _ hkey]
    exact hf id e he

theorem filled_of_setTranslationCache {s : EeCore σ} (hf : s.Filled) (id : MmuIdAccess) {cache : CacheTy}
    (hc : cache.All (FilledBy s.cop0 s.tlb)) : (s.setTranslationCache id cache).Filled := by
  intro id'
  rw [setTranslationCache_cop0, setTranslationCache_tlb]
  by_cases hid : id' = id
  · subst hid
    rw [translationCache_set_self]
    exact hc
  · rw [translationCache_set_of_ne s hid]
    exact hf id'

/-- A walk raises no reset and no NMI. -/
theorem not_reset_of_walk {c : EeCoreCop0} {tlb : EeCoreTlb} {va : Uptr} {rwAccess : MmuRwAccess}
    {e : EeCoreException} (h : walk c tlb va rwAccess = .error e) : ¬(e = .exReset ∨ e = .exNmi) := by
  rcases error_of_walk h with rfl | rfl | rfl
  · cases rwAccess <;> decide
  · cases rwAccess <;> decide
  · decide

/-- A lookup keeps the caches filled. -/
theorem filled_of_lookup {id : MmuIdAccess} {va : Uptr} {rwAccess : MmuRwAccess} {s s' : EeCore σ} (hf : s.Filled)
    {v : Option Uptr} (h : (s.lookup id va rwAccess).handled = .ok (v, s')) : s'.Filled := by
  cases hc : (s.translationCache id).find (cacheKey va) with
  | some pa =>
    rw [lookup_of_hit rwAccess hc] at h
    obtain ⟨-, rfl⟩ : _ ∧ _ = s' := by simpa [Result.handled] using h
    exact filled_of_setTranslationCache hf id ((hf id).get _)
  | none =>
    rw [lookup_of_miss rwAccess hc] at h
    cases hw : walk s.cop0 s.tlb (cacheKey va) rwAccess with
    | ok pa =>
      obtain ⟨-, rfl⟩ : _ ∧ _ = s' := by simpa [hw, Result.handled] using h
      exact filled_of_setTranslationCache hf id ((hf id).insert (filledBy_of_walk hw))
    | error e =>
      simp only [hw] at h
      obtain ⟨t, ht, h⟩ := bind_eq_ok_iff.mp h
      obtain ⟨-, rfl⟩ : none = v ∧ t = s' := by simpa using h
      have hflush := flush_of_handleException ht (not_reset_of_walk hw)
      exact hflush ▸ filled_flush t

theorem filled_of_step {op : MmuOp} {s s' : EeCore σ} (hf : s.Filled) (hsteady : op.Steady s)
    (h : op.step s = .ok s') : s'.Filled := by
  cases op with
  | data va rwAccess =>
    obtain ⟨⟨v, t⟩, ht, h⟩ := bind_eq_ok_iff.mp h
    obtain rfl : t = s' := by simpa using h
    exact filled_of_lookup hf ht
  | inst va =>
    obtain ⟨⟨v, t⟩, ht, h⟩ := bind_eq_ok_iff.mp h
    obtain rfl : t = s' := by simpa using h
    exact filled_of_lookup hf ht
  | _ => exact filled_of_settled (settled_of_step h (by simp) (by simp)) hf (hsteady s' h)

/-- In every run from empty caches in which no operation moves a page that stays cached between the unmapped and the
mapped segments, every lookup answers what the fallback would answer then if and only if every lookup of a
cached page is an access that the operating context, the address space and the dirty bit allow then. -/
theorem translation_transparent_iff (ops : List MmuOp) (s : EeCore σ)
    (h : Run.Always MmuOp.step MmuOp.Steady ops s.flush) :
    Run.Always MmuOp.step MmuOp.Transparent ops s.flush ↔ Run.Always MmuOp.step MmuOp.Allowed ops s.flush :=
  Run.always_iff (fun _ _ _ hf hq hs => filled_of_step hf hq hs) (fun op _ hf => transparent_iff_allowed hf op)
    (filled_flush s) h

/-! ### Two runs -/

/-- A core in kernel mode whose TLB maps the first 8 KB for reading only. -/
def readOnlyPage : EeCore Unit where
  pc := 0
  bdelay := ⟨0, 0⟩
  data := ⟨fun _ => 0, ()⟩
  cop0 := { EeCoreCop0.initial with status := ⟨0, true, .kernel, false⟩ }
  tlb := fun _ => { firstPages with even := ⟨0, false, false, true⟩ }
  translationCacheData := .new ..
  translationCacheInst := .new ..

/-- A write to the page after a read of it goes through. -/
theorem translation_not_transparent :
    ¬Run.Always MmuOp.step MmuOp.Transparent [.data 0x10 .read, .data 0x20 .write] readOnlyPage.flush := by
  intro h
  have hw : (Except.ok 0x20 : Except EeCoreException Uptr) = .error .exTlbModified := (h.2 _ rfl).1
  simp at hw

/-- Two reads of the page with a write of `EntryHi` in between. -/
theorem translation_transparent_iff_reads :
    Run.Always MmuOp.step MmuOp.Transparent [.data 0x10 .read, .mtc0 10 0x2000, .data 0x20 .read] readOnlyPage.flush := by
  refine (translation_transparent_iff _ _ ?_).mpr ?_
  · refine ⟨fun t ht id key _ => ?_, fun s₁ h₁ => ?_⟩
    · obtain rfl := Except.ok.inj (show Except.ok _ = Except.ok t from ht)
      rfl
    obtain rfl := Except.ok.inj (show Except.ok _ = Except.ok s₁ from h₁)
    refine ⟨fun t ht id key _ => ?_, fun s₂ h₂ => ?_⟩
    · obtain rfl := Except.ok.inj (show Except.ok _ = Except.ok t from ht)
      rfl
    obtain rfl := Except.ok.inj (show Except.ok _ = Except.ok s₂ from h₂)
    refine ⟨fun t ht id key _ => ?_, fun _ _ => trivial⟩
    obtain rfl := Except.ok.inj (show Except.ok _ = Except.ok t from ht)
    rfl
  · refine ⟨fun _ => ⟨trivial, fun _ _ _ => ⟨.inl rfl, by simp⟩⟩, fun s₁ h₁ => ?_⟩
    obtain rfl := Except.ok.inj (show Except.ok _ = Except.ok s₁ from h₁)
    refine ⟨trivial, fun s₂ h₂ => ?_⟩
    obtain rfl := Except.ok.inj (show Except.ok _ = Except.ok s₂ from h₂)
    exact ⟨fun _ => ⟨trivial, fun _ _ _ => ⟨.inl rfl, by simp⟩⟩, fun _ _ => trivial⟩

end EeCore

end Orbum
