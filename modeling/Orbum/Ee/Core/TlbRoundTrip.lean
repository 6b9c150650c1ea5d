import Orbum.Ee.Core.Interpreter.SystemControl

/-!
# Writing a TLB entry and reading it back

`TLBWI` packs `PageMask`, `EntryHi`, `EntryLo0` and `EntryLo1` into an entry, and `TLBR` at the same index
unpacks it. Every field keeps its width on the way but `C`: it has three bits in the registers and is a
`bool` in the entry, so that `TLBR` gives 1 for every cache mode but 0.
-/

namespace Orbum

namespace EeCore

variable {σ : Type}

/-! ### The fields of `EntryLo` -/

/-- A flag read from a field and written to a field of the same length comes back if the field held 0 or 1. -/
theorem flag_and_unshiftedMask_iff (f : Bitfield) (hf : 0 < f.length) (v : Uword) :
    flag (0 < f.extractFrom v) &&& f.unshiftedMask 32 = f.extractFrom v ↔ (f.extractFrom v).toNat ≤ 1 := by
  have hone : (1 : Uword) &&& f.unshiftedMask 32 = 1 := by
    ext i hi
    simp only [← BitVec.getLsbD_eq_getElem, BitVec.getLsbD_and, Bitfield.getLsbD_unshiftedMask]
    by_cases h0 : i = 0
    · subst h0
      simp [hf]
    · simp [h0]
  by_cases h : 0 < f.extractFrom v
  · have hpos : 0 < (f.extractFrom v).toNat := h
    have hflag : flag (0 < f.extractFrom v) = 1 := if_pos (decide_eq_true h)
    have hval : (1 : Uword).toNat = 1 := rfl
    rw [hflag, hone, BitVec.toNat_eq]
    omega
  · have hzero : f.extractFrom v = 0 := by
      rw [BitVec.toNat_eq]
      exact Nat.eq_zero_of_not_pos h
    simp [flag, hzero]

/-- A field of one bit always comes back. -/
theorem flag_bit (n : ℕ) (v : Uword) :
    flag (0 < Bitfield.extractFrom ⟨n, 1⟩ v) &&& Bitfield.unshiftedMask ⟨n, 1⟩ 32 = Bitfield.extractFrom ⟨n, 1⟩ v :=
  (flag_and_unshiftedMask_iff ⟨n, 1⟩ Nat.one_pos v).mpr
    (Nat.le_of_lt_succ (Bitfield.toNat_extractFrom_lt ⟨n, 1⟩ v))

section Fields

variable (lo : Uword) (info : PhysicalInfo) (g : Bool)

theorem entryLoPfn_entryLoOf : EeCoreCop0.entryLoPfn.extractFrom (entryLoOf lo info g) =
    info.pfn &&& EeCoreCop0.entryLoPfn.unshiftedMask 32 := by
  simp (disch := decide) only [entryLoOf, Bitfield.extractFrom_insertInto_of_disjoint,
    Bitfield.extractFrom_insertInto_self]

theorem entryLoC_entryLoOf : EeCoreCop0.entryLoC.extractFrom (entryLoOf lo info g) =
    flag info.c &&& EeCoreCop0.entryLoC.unshiftedMask 32 := by
  simp (disch := decide) only [entryLoOf, Bitfield.extractFrom_insertInto_of_disjoint,
    Bitfield.extractFrom_insertInto_self]

theorem entryLoD_entryLoOf : EeCoreCop0.entryLoD.extractFrom (entryLoOf lo info g) =
    flag info.d &&& EeCoreCop0.entryLoD.unshiftedMask 32 := by
  simp (disch := decide) only [entryLoOf, Bitfield.extractFrom_insertInto_of_disjoint,
    Bitfield.extractFrom_insertInto_self]

theorem entryLoV_entryLoOf : EeCoreCop0.entryLoV.extractFrom (entryLoOf lo info g) =
    flag info.v &&& EeCoreCop0.entryLoV.unshiftedMask 32 := by
  simp (disch := decide) only [entryLoOf, Bitfield.extractFrom_insertInto_of_disjoint,
    Bitfield.extractFrom_insertInto_self]

theorem entryLoG_entryLoOf : EeCoreCop0.entryLoG.extractFrom (entryLoOf lo info g) =
    flag g &&& EeCoreCop0.entryLoG.unshiftedMask 32 := by
  simp (disch := decide) only [entryLoOf, Bitfield.extractFrom_insertInto_self]

/-- `S` is in `EntryLo0` alone, and no other field of it touches it. -/
theorem entryLoS_entryLoOf (s : Uword) :
    EeCoreCop0.entryLoS.extractFrom (entryLoOf (EeCoreCop0.entryLoS.insertInto lo s) info g) =
      s &&& EeCoreCop0.entryLoS.unshiftedMask 32 := by
  simp (disch := decide) only [entryLoOf, Bitfield.extractFrom_insertInto_of_disjoint,
    Bitfield.extractFrom_insertInto_self]

end Fields

/-! ### The round trip -/

/-- `lo'` has the fields of `lo`, `G` aside. -/
structure EntryLoRestored (lo lo' : Uword) : Prop where
  /-- The physical page. -/
  pfn : EeCoreCop0.entryLoPfn.extractFrom lo' = EeCoreCop0.entryLoPfn.extractFrom lo
  /-- The cache mode. -/
  c : EeCoreCop0.entryLoC.extractFrom lo' = EeCoreCop0.entryLoC.extractFrom lo
  /-- The dirty bit. -/
  d : EeCoreCop0.entryLoD.extractFrom lo' = EeCoreCop0.entryLoD.extractFrom lo
  /-- The valid bit. -/
  v : EeCoreCop0.entryLoV.extractFrom lo' = EeCoreCop0.entryLoV.extractFrom lo

/-- The registers `c'` hold the fields of `c` that an entry has, `G` being that of both halves. -/
structure EntryRestored (c c' : EeCoreCop0) : Prop where
  /-- The page size. -/
  mask : EeCoreCop0.pagemaskMask.extractFrom c'.pagemask = EeCoreCop0.pagemaskMask.extractFrom c.pagemask
  /-- The virtual page pair. -/
  vpn2 : EeCoreCop0.entryhiVpn2.extractFrom c'.entryhi = EeCoreCop0.entryhiVpn2.extractFrom c.entryhi
  /-- The address space. -/
  asid : EeCoreCop0.entryhiAsid.extractFrom c'.entryhi = EeCoreCop0.entryhiAsid.extractFrom c.entryhi
  /-- The scratchpad bit. -/
  s : EeCoreCop0.entryLoS.extractFrom c'.entrylo0 = EeCoreCop0.entryLoS.extractFrom c.entrylo0
  /-- The even page. -/
  entrylo0 : EntryLoRestored c.entrylo0 c'.entrylo0
  /-- The odd page. -/
  entrylo1 : EntryLoRestored c.entrylo1 c'.entrylo1
  /-- The global bit of the even page. -/
  g0 : EeCoreCop0.entryLoG.extractFrom c'.entrylo0 =
    EeCoreCop0.entryLoG.extractFrom c.entrylo0 &&& EeCoreCop0.entryLoG.extractFrom c.entrylo1
  /-- The global bit of the odd page. -/
  g1 : EeCoreCop0.entryLoG.extractFrom c'.entrylo1 =
    EeCoreCop0.entryLoG.extractFrom c.entrylo0 &&& EeCoreCop0.entryLoG.extractFrom c.entrylo1

/-- `TLBWI` writes the entry at `Index` and no other, and `TLBR` at that index restores the registers, whatever they
hold by then. -/
def RoundTrip (s : EeCore σ) : Prop :=
  ∃ s₁, s.tlbwi = .ok (.value () s₁) ∧
    (∀ i : Fin 48, i.val ≠ (EeCoreCop0.indexField.extractFrom s.cop0.index).toNat → s₁.tlb i = s.tlb i) ∧
    ∀ t : EeCore σ, t.tlb = s₁.tlb → isUsable t.cop0 .cop0 →
      EeCoreCop0.indexField.extractFrom t.cop0.index = EeCoreCop0.indexField.extractFrom s.cop0.index →
      ∃ t₁, t.tlbr = .ok (.value () t₁) ∧ t₁.tlb = t.tlb ∧ EntryRestored s.cop0 t₁.cop0

/-- The half of an entry that `TLBWI` makes of one `EntryLo` restores it exactly if `C` is 0 or 1. -/
theorem entryLoRestored_iff {lo lo' : Uword} {info : PhysicalInfo} {g : Bool}
    (hpfn : info.pfn = EeCoreCop0.entryLoPfn.extractFrom lo)
    (hc : info.c = decide (0 < EeCoreCop0.entryLoC.extractFrom lo))
    (hd : info.d = decide (0 < EeCoreCop0.entryLoD.extractFrom lo))
    (hv : info.v = decide (0 < EeCoreCop0.entryLoV.extractFrom lo)) :
    EntryLoRestored lo (entryLoOf lo' info g) ↔ (EeCoreCop0.entryLoC.extractFrom lo).toNat ≤ 1 := by
  have hmode : EeCoreCop0.entryLoC.extractFrom (entryLoOf lo' info g) = EeCoreCop0.entryLoC.extractFrom lo ↔
      (EeCoreCop0.entryLoC.extractFrom lo).toNat ≤ 1 := by
    rw [entryLoC_entryLoOf, hc]
    exact flag_and_unshiftedMask_iff EeCoreCop0.entryLoC (by decide) lo
  rw [← hmode]
  refine ⟨EntryLoRestored.c, fun h => ⟨?_, h, ?_, ?_⟩⟩
  · rw [entryLoPfn_entryLoOf, hpfn, Bitfield.extractFrom_and_unshiftedMask]
  · rw [entryLoD_entryLoOf, hd]
    exact flag_bit 2 lo
  · rw [entryLoV_entryLoOf, hv]
    exact flag_bit 1 lo

theorem pagemask_of_ofPagemask {pagemask : Uword} {mask : Mask} (h : Mask.ofPagemask pagemask = .ok mask) :
    mask.pagemask = pagemask := by
  unfold Mask.ofPagemask at h
  split at h
  · obtain rfl := Except.ok.inj h
    rfl
  · cases h

/-- The entry `TLBR` reads is the one at `Index`. -/
theorem tlbr_eq {t : EeCore σ} {i : Fin 48} (hu : isUsable t.cop0 .cop0)
    (hi : i.val = (EeCoreCop0.indexField.extractFrom t.cop0.index).toNat) :
    ∃ t₁, t.tlbr = .ok (.value () t₁) ∧ t₁.tlb = t.tlb ∧
      t₁.cop0.pagemask = EeCoreCop0.pagemaskMask.insertInto t.cop0.pagemask (t.tlb i).mask.pagemask ∧
      t₁.cop0.entryhi = EeCoreCop0.entryhiVpn2.insertInto
        (EeCoreCop0.entryhiAsid.insertInto t.cop0.entryhi ((t.tlb i).asid.setWidth 32)) (t.tlb i).vpn2 ∧
      t₁.cop0.entrylo0 =
        entryLoOf (EeCoreCop0.entryLoS.insertInto t.cop0.entrylo0 (flag (t.tlb i).s)) (t.tlb i).even (t.tlb i).g ∧
      t₁.cop0.entrylo1 = entryLoOf t.cop0.entrylo1 (t.tlb i).odd (t.tlb i).g := by
  have hat : t.tlb.tlbEntryAt (EeCoreCop0.indexField.extractFrom t.cop0.index).toNat = .ok (t.tlb i) := by
    rw [← hi, EeCoreTlb.tlbEntryAt, dif_pos i.isLt]
  unfold tlbr
  rw [whenCop0Usable_of_usable hu]
  simp only [hat, ok_bind, pure_eq_ok]
  exact ⟨_, rfl, rfl, rfl, rfl, rfl, rfl⟩

/-- Registers read from the entry made of `c` have its fields exactly if both `C` fields are 0 or 1. -/
theorem entryRestored_iff {c c' c₀ : EeCoreCop0} {entry : EeCoreTlbEntry} (h : tlbEntryOf c = .ok entry)
    (hpagemask : c'.pagemask = EeCoreCop0.pagemaskMask.insertInto c₀.pagemask entry.mask.pagemask)
    (hentryhi : c'.entryhi = EeCoreCop0.entryhiVpn2.insertInto
      (EeCoreCop0.entryhiAsid.insertInto c₀.entryhi (entry.asid.setWidth 32)) entry.vpn2)
    (hentrylo0 : c'.entrylo0 =
      entryLoOf (EeCoreCop0.entryLoS.insertInto c₀.entrylo0 (flag entry.s)) entry.even entry.g)
    (hentrylo1 : c'.entrylo1 = entryLoOf c₀.entrylo1 entry.odd entry.g) :
    EntryRestored c c' ↔ (EeCoreCop0.entryLoC.extractFrom c.entrylo0).toNat ≤ 1 ∧
      (EeCoreCop0.entryLoC.extractFrom c.entrylo1).toNat ≤ 1 := by
  obtain ⟨mask, hmask, h⟩ := bind_eq_ok_iff.mp h
  obtain rfl := Except.ok.inj h
  have hlo0 : EntryLoRestored c.entrylo0 c'.entrylo0 ↔ (EeCoreCop0.entryLoC.extractFrom c.entrylo0).toNat ≤ 1 := by
    rw [hentrylo0]
    exact entryLoRestored_iff rfl rfl rfl rfl
  have hlo1 : EntryLoRestored c.entrylo1 c'.entrylo1 ↔ (EeCoreCop0.entryLoC.extractFrom c.entrylo1).toNat ≤ 1 := by
    rw [hentrylo1]
    exact entryLoRestored_iff rfl rfl rfl rfl
  rw [← hlo0, ← hlo1]
  refine ⟨fun h => ⟨h.entrylo0, h.entrylo1⟩, fun h => ⟨?_, ?_, ?_, ?_, h.1, h.2, ?_, ?_⟩⟩
  · rw [hpagemask, Bitfield.extractFrom_insertInto_self _ _ _ (by decide), pagemask_of_ofPagemask hmask,
      Bitfield.extractFrom_and_unshiftedMask]
  · rw [hentryhi, Bitfield.extractFrom_insertInto_self _ _ _ (by decide), Bitfield.extractFrom_and_unshiftedMask]
  · rw [hentryhi, Bitfield.extractFrom_insertInto_of_disjoint _ _ (by decide),
      Bitfield.extractFrom_insertInto_self _ _ _ (by decide), Bitfield.setWidth_setWidth_extractFrom _ _ (by decide),
      Bitfield.extractFrom_and_unshiftedMask]
  · rw [hentrylo0, entryLoS_entryLoOf]
    exact flag_bit 31 c.entrylo0
  · rw [hentrylo0, entryLoG_entryLoOf, ← Bitfield.extractFrom_and]
    exact flag_bit 0 (c.entrylo0 &&& c.entrylo1)
  · rw [hentrylo1, entryLoG_entryLoOf, ← Bitfield.extractFrom_and]
    exact flag_bit 0 (c.entrylo0 &&& c.entrylo1)

/-- With COP0 usable, `Index` below 48 and one of the seven page sizes in `PageMask`: the round trip restores all of
the entry if and only if the `C` fields of both `EntryLo` registers are 0 or 1. -/
theorem tlb_round_trip_iff (s : EeCore σ) (hu : isUsable s.cop0 .cop0)
    (hi : (EeCoreCop0.indexField.extractFrom s.cop0.index).toNat < 48)
    (hm : ∃ mask, Mask.ofPagemask (EeCoreCop0.pagemaskMask.extractFrom s.cop0.pagemask) = .ok mask) :
    RoundTrip s ↔ (EeCoreCop0.entryLoC.extractFrom s.cop0.entrylo0).toNat ≤ 1 ∧
      (EeCoreCop0.entryLoC.extractFrom s.cop0.entrylo1).toNat ≤ 1 := by
  obtain ⟨mask, hmask⟩ := hm
  have hentry : ∃ entry, tlbEntryOf s.cop0 = .ok entry := by
    unfold tlbEntryOf
    rw [hmask]
    exact ⟨_, rfl⟩
  obtain ⟨entry, hentry⟩ := hentry
  obtain ⟨i, hival⟩ : ∃ i : Fin 48, i.val = (EeCoreCop0.indexField.extractFrom s.cop0.index).toNat := ⟨⟨_, hi⟩, rfl⟩
  -- The state after `TLBWI` differs in the entry and in the flushed caches.
  have hwrite : s.tlbwi = .ok (.value () { s with tlb := Function.update s.tlb i entry }.flush) := by
    unfold tlbwi
    rw [whenCop0Usable_of_usable hu]
    simp only [writeTlbEntry, hentry, EeCoreTlb.setTlbEntryAt, ← hival, dif_pos i.isLt, ok_bind, pure_eq_ok]
  have hread {t : EeCore σ} (ht : t.tlb = Function.update s.tlb i entry) (htu : isUsable t.cop0 .cop0)
      (hti : EeCoreCop0.indexField.extractFrom t.cop0.index = EeCoreCop0.indexField.extractFrom s.cop0.index) :
      ∃ t₁, t.tlbr = .ok (.value () t₁) ∧ t₁.tlb = t.tlb ∧
        (EntryRestored s.cop0 t₁.cop0 ↔ (EeCoreCop0.entryLoC.extractFrom s.cop0.entrylo0).toNat ≤ 1 ∧
          (EeCoreCop0.entryLoC.extractFrom s.cop0.entrylo1).toNat ≤ 1) := by
    obtain ⟨t₁, ht₁, htlb, hpagemask, hentryhi, hentrylo0, hentrylo1⟩ := tlbr_eq htu (hival.trans (hti ▸ rfl))
    rw [ht, Function.update_self] at hpagemask hentryhi hentrylo0 hentrylo1
    exact ⟨t₁, ht₁, htlb, entryRestored_iff hentry hpagemask hentryhi hentrylo0 hentrylo1⟩
  constructor
  · rintro ⟨s₁, hs₁, -, hall⟩
    obtain rfl : _ = s₁ := by simpa [hwrite] using hs₁
    obtain ⟨t₁, ht₁, -, hrestored⟩ := hall _ rfl hu rfl
    obtain ⟨t₂, ht₂, -, hiff⟩ := hread (t := { s with tlb := Function.update s.tlb i entry }.flush) rfl hu rfl
    obtain rfl : t₁ = t₂ := by simpa [ht₁] using ht₂
    exact hiff.mp hrestored
  · intro hmode
    refine ⟨_, hwrite, fun j hj => ?_, fun t ht htu hti => ?_⟩
    · have hne : j ≠ i := by
        rintro rfl
        exact hj hival
      exact Function.update_of_ne hne _ _
    · obtain ⟨t₁, ht₁, htlb, hiff⟩ := hread ht htu hti
      exact ⟨t₁, ht₁, htlb, hiff.mpr hmode⟩

/-- A core in kernel mode that is to write the `EntryLo0` given at index 0. -/
def writingEntry (entrylo0 : Uword) : EeCore Unit where
  pc := 0
  bdelay := ⟨0, 0⟩
  data := ⟨fun _ => 0, ()⟩
  cop0 := { EeCoreCop0.initial with entrylo0 }
  tlb := fun _ => firstPages
  translationCacheData := .new ..
  translationCacheInst := .new ..

/-- The cache mode 2 (uncached) of the even page comes back as 1. -/
theorem tlb_round_trip_loses_mode :
    ¬∀ s : EeCore Unit, isUsable s.cop0 .cop0 → (EeCoreCop0.indexField.extractFrom s.cop0.index).toNat < 48 →
      (∃ mask, Mask.ofPagemask (EeCoreCop0.pagemaskMask.extractFrom s.cop0.pagemask) = .ok mask) → RoundTrip s := by
  intro h
  obtain ⟨s₁, hs₁, -, hall⟩ := h (writingEntry 0x10) rfl (by decide) ⟨_, rfl⟩
  obtain rfl := Result.value.inj (Except.ok.inj hs₁) |>.2
  obtain ⟨t₁, ht₁, -, hrestored⟩ := hall _ rfl rfl rfl
  obtain rfl := Result.value.inj (Except.ok.inj ht₁) |>.2
  exact absurd hrestored.entrylo0.c (by decide)

/-- A core that is to write entry 5: two pages of 64 KB at 0x400000 in address space 7, with the cache mode 1. -/
def writingLarge : EeCore Unit :=
  { writingEntry 0x40F with
    cop0 := { EeCoreCop0.initial with
      index := 5, pagemask := 0x1E000, entryhi := 0x00400007, entrylo0 := 0x40F, entrylo1 := 0x80F } }

/-- It comes back. -/
theorem tlb_round_trip_iff_mode : RoundTrip writingLarge :=
  (tlb_round_trip_iff writingLarge rfl (by decide) ⟨_, rfl⟩).mpr ⟨by decide, by decide⟩

end EeCore

end Orbum
