import Orbum.Ee.Core.UnalignedAccess
import Orbum.Iop.Core.Segments

/-!
# Unaligned accesses of the IOP

`LWL`, `LWR`, `SWL` and `SWR` of the IOP merge words as those of the EE core do. A store translates its address twice, and
the page that the first translation has left in the cache is what the second finds, unless the cache is isolated: then the
second refuses what `SW` is refused.
-/

namespace Orbum

open Lanes LittleEndian EeCore

/-! ### The instructions -/

theorem Size.word_shift_eq (x : Uptr) : ((x &&& 3) <<< 3).toNat = 8 * (x.toNat % 4) := Size.word.shift_eq x

namespace IopMicro

variable {σ : Type} (M : IopMachine σ) (inst : IopCoreInstruction) (d : IopData σ)

/-- The loads. -/
def loadSide : Side → IopMicro σ
  | .left => lwl M inst d
  | .right => lwr M inst d

/-- The stores. -/
def storeSide : Side → IopMicro σ
  | .left => swl M inst d
  | .right => swr M inst d

theorem loadSide_eq (side : Side) : loadSide M inst d side = loadPart M inst d side.loadMerge := by
  cases side with
  | left =>
    simp only [loadSide, lwl, Size.word_shiftRight]
    rfl
  | right => rfl

theorem storeSide_eq (side : Side) : storeSide M inst d side = storePart M inst d side.storeMerge := by
  cases side with
  | left => rfl
  | right =>
    simp only [storeSide, swr, Size.word_shiftRight]
    rfl

end IopMicro

/-- The machine with a byte-addressed memory on the bus. -/
def IopMachine.overRam (M : IopMachine Memory) : IopMachine Memory :=
  { M with
    busRead := fun w physicalAddress m => do return (ofBytes w (← m.read physicalAddress (w / 8)), m)
    busWrite := fun w physicalAddress value m => m.write physicalAddress (bytes (w / 8) value) }

namespace IopMicro

variable (M : IopMachine Memory) {d : IopData Memory} {s : IopCore Memory} {word : Uptr}

theorem run_translate {σ : Type} {s t : IopCore σ} {va pa : Uptr} {rwAccess : MmuRwAccess}
    (h : s.translateAddressData va rwAccess = .ok (some pa, t)) (next : Uptr → IopMicro σ) :
    (translate va rwAccess next).run s = (next pa).run t := by
  rw [run, h]
  rfl

/-- A word is read. -/
theorem run_busRead (h : d.rest.isMapped word 4) (next : Uword → IopData Memory → IopMicro Memory) :
    (busRead M.overRam d 32 word next).run s = (next (unitValue d.rest 4 word) d).run (s.setData d) := by
  have hread : d.rest.read word (32 / 8) = .ok ((List.range 4).map fun i => d.rest.byte (word + BitVec.ofNat 32 i)) :=
    if_pos h
  simp only [busRead, IopMachine.overRam, hread]
  rfl

theorem run_busRead_error (h : ¬d.rest.isMapped word 4) (next : Uword → IopData Memory → IopMicro Memory) :
    (busRead M.overRam d 32 word next).run s = .error .nullPointer := by
  have hread : d.rest.read word (32 / 8) = .error .nullPointer := if_neg h
  simp only [busRead, IopMachine.overRam, hread]
  rfl

/-- A word is written. -/
theorem run_busWrite (h : d.rest.isMapped word 4) (value : Uword) :
    (busWrite M.overRam d 32 word value).run s =
      .ok (.value (s.setData { d with rest := d.rest.store word (bytes 4 value) })) := by
  have hwrite : d.rest.write word (bytes (32 / 8) value) = .ok (d.rest.store word (bytes 4 value)) := if_pos h
  simp only [busWrite, IopMachine.overRam, hwrite]
  rfl

end IopMicro

namespace IopCore

/-! ### Translation with the cache not isolated -/

section Translation

variable {σ : Type} {s t : IopCore σ} {va va' pa : Uptr} {rwAccess : MmuRwAccess}

/-- Data of the page can be reached: in kernel mode all, in user mode what is in the cache. -/
def Reaches (va : Uptr) (s : IopCore σ) : Prop :=
  s.cop0.status.operatingContext = .kernel ∨ (s.translationCacheData.find (cacheKey va)).isSome

theorem Reaches.of_cacheKey (h : Reaches va s) (hkey : cacheKey va' = cacheKey va) : Reaches va' s := by
  unfold Reaches
  rw [hkey]
  exact h

/-- What a translation keeps. -/
structure Kept (s t : IopCore σ) : Prop where
  /-- The data. -/
  data : t.data = s.data
  /-- COP0. -/
  cop0 : t.cop0 = s.cop0
  /-- The caches hold what the segments say. -/
  filled : t.Filled
  /-- What could be reached. -/
  reaches : ∀ {va}, Reaches va s → Reaches va t

/-- What can be reached is where the segment says, but for writes with the cache isolated. -/
theorem translateAddressData_of_reaches (rwAccess : MmuRwAccess) (hs : s.Filled) (hr : Reaches va s)
    (h : segment va = some pa) (hi : ¬(rwAccess = .write ∧ Isolating s.cop0)) :
    ∃ t, s.translateAddressData va rwAccess = .ok (some pa, t) ∧ Kept s t := by
  rw [segment_cacheKey] at h
  obtain ⟨base, hbase, rfl⟩ := Option.map_eq_some_iff.mp h
  have hcached : ¬(rwAccess = .write ∧ s.cop0.status.extractField IopCoreCop0Status.isc ≠ 0) := hi
  rw [translateAddressData, if_neg hcached]
  cases hc : (s.translationCache .data).find (cacheKey va) with
  | some base' =>
    obtain rfl := Option.some.inj (((hs .data).find hc).symm.trans hbase)
    refine ⟨_, lookup_of_hit hc rwAccess, rfl, rfl, hs.setTranslationCache ((hs .data).get _), fun {va} hva => ?_⟩
    exact hva.imp id fun hf => (congrArg Option.isSome (TimestampLruCache.find_get ..)).trans hf
  | none =>
    have hk : s.cop0.status.operatingContext = .kernel := hr.resolve_right fun hf => by
      rw [show s.translationCacheData.find (cacheKey va) = none from hc] at hf
      cases hf
    have hr : ¬Refused s.cop0 (cacheKey va) rwAccess := fun hr => hi ⟨hr.2.1, hr.1⟩
    have hfallback := fallback_of_segment hk hbase hr
    refine ⟨s.setTranslationCache .data ((s.translationCache .data).insert (cacheKey va) base), ?_, rfl, rfl,
      hs.setTranslationCache ((hs .data).insert hbase), fun {_} _ => .inl hk⟩
    rw [lookup_of_miss hc, hfallback]
    rfl

/-- What a translation finds can be reached. -/
theorem reaches_of_translate (hs : s.Filled) (hi : ¬Isolating s.cop0)
    (h : s.translateAddressData va rwAccess = .ok (some pa, t)) : segment va = some pa ∧ Reaches va s := by
  rw [translateAddressData, if_neg fun hw => hi hw.2] at h
  constructor
  · have hfound := lookedUp hs .data va rwAccess _ h
    rw [segment_cacheKey]
    generalize hr : ((some pa, t) : Option Uptr × IopCore σ) = r at hfound
    cases hfound with
    | found hbase =>
      rw [hbase, Option.map_some, (Prod.mk.inj hr).1]
    | refused => cases hr
  · cases hc : (s.translationCache .data).find (cacheKey va) with
    | some base => exact .inr (Option.isSome_iff_exists.mpr ⟨base, hc⟩)
    | none =>
      rw [lookup_of_miss hc] at h
      obtain ⟨result, hf, -⟩ := bind_eq_ok_iff.mp h
      exact .inl (kernel_of_fallback hf)

end Translation

/-! ### One instruction -/

/-- The bytes from `a` on are where `τ` says, in memories made of whole words, and the cache is not isolated. The caches
hold what the segments say, as in every run (`filled_of_run`). -/
structure MapsWord (τ : Uptr → Uptr) (a : Uptr) (s : IopCore Memory) : Prop where
  /-- The caches. -/
  filled : s.Filled
  /-- `Status.ISC`. -/
  notIsolating : ¬Isolating s.cop0
  /-- The translation. -/
  translate : ∀ j < 4, ∃ t, s.translateAddressData (a + BitVec.ofNat 32 j) .read = .ok (some (τ (a + BitVec.ofNat 32 j)), t)
  /-- The memory. -/
  mapped : ∀ j < 4, ∀ y : Uptr, y.toNat / 4 = (τ (a + BitVec.ofNat 32 j)).toNat / 4 → s.data.rest.mapped y

section One

variable {τ : Uptr → Uptr} {a : Uptr} {s t : IopCore Memory} (h : MapsWord τ a s)

include h

theorem MapsWord.reached {j : ℕ} (hj : j < 4) :
    segment (a + BitVec.ofNat 32 j) = some (τ (a + BitVec.ofNat 32 j)) ∧ Reaches (a + BitVec.ofNat 32 j) s := by
  obtain ⟨t, ht⟩ := h.translate j hj
  exact reaches_of_translate h.filled h.notIsolating ht

/-- The bytes stay where they are. -/
theorem MapsWord.of_kept {d : IopData Memory} (hkept : Kept s t) (hd : d.rest.mapped = s.data.rest.mapped) :
    MapsWord τ a (t.setData d) := by
  have hi : ¬Isolating (t.setData d).cop0 := by
    rw [setData_cop0, hkept.cop0]
    exact h.notIsolating
  have hfilled : (t.setData d).Filled := hkept.filled.congr fun id => by cases id <;> rfl
  refine ⟨hfilled, hi, fun j hj => ?_, hd ▸ h.mapped⟩
  obtain ⟨hsegment, hr⟩ := h.reached hj
  have hr' : Reaches (a + BitVec.ofNat 32 j) (t.setData d) := hkept.reaches hr
  obtain ⟨t', ht', -⟩ := translateAddressData_of_reaches .read hfilled hr' hsegment nofun
  exact ⟨t', ht'⟩

/-- The word that an instruction accesses. -/
theorem MapsWord.word (side : Side) :
    ∃ word, (segment ((a + BitVec.ofNat 32 (Size.word.offset side)) &&& 0xFFFFFFFC) = some word ∧
      Reaches ((a + BitVec.ofNat 32 (Size.word.offset side)) &&& 0xFFFFFFFC) s) ∧ s.data.rest.isMapped word 4 ∧
      ∀ j < 4, side.Covers 4 ((a + BitVec.ofNat 32 (Size.word.offset side)).toNat % 4) j →
        τ (a + BitVec.ofNat 32 j) =
          word + BitVec.ofNat 32 (side.index 4 ((a + BitVec.ofNat 32 (Size.word.offset side)).toNat % 4) j) := by
  have hoffset : Size.word.offset side < 4 := by cases side <;> decide
  have halign : ((a + BitVec.ofNat 32 (Size.word.offset side)) &&& 0xFFFFFFFC).toNat = _ :=
    Size.word.toNat_and_not_alignment (a + BitVec.ofNat 32 (Size.word.offset side))
  have hcovered {j : ℕ} (hj : j < 4) := toNat_covered .word side a hj
  obtain ⟨hsegment, hr⟩ := h.reached hoffset
  have hmapped := h.mapped _ hoffset
  generalize a + BitVec.ofNat 32 (Size.word.offset side) = x at *
  have hu : (x &&& ~~~Size.word.alignment) = x &&& 0xFFFFFFFC := rfl
  simp only [hu, Size.bytes] at hcovered halign
  generalize x &&& 0xFFFFFFFC = u at *
  obtain ⟨word, hword, hdistance, hword4⟩ := segment_word hsegment (show u.toNat / 4 = x.toNat / 4 by omega)
  have hkey : cacheKey u = cacheKey x := by
    apply BitVec.eq_of_toNat_eq
    rw [toNat_cacheKey, toNat_cacheKey]
    omega
  have hlt := word.isLt
  refine ⟨word, ⟨hword, hr.of_cacheKey hkey⟩, ?_, fun j hj hc => ?_⟩
  · refine List.all_eq_true.mpr fun i hi => hmapped _ ?_
    have hi := List.mem_range.mp hi
    rw [toNat_add_ofNat word (by omega)]
    omega
  · have hva := hcovered hj hc
    have hindex := Side.index_lt (Nat.mod_lt x.toNat (by decide)) hj hc
    obtain ⟨pa, hpa, hpaDistance, -⟩ := segment_word hword (show (a + BitVec.ofNat 32 j).toNat / 4 = u.toNat / 4 by omega)
    rw [Option.some.inj ((h.reached hj).1.symm.trans hpa)]
    apply BitVec.eq_of_toNat_eq
    rw [toNat_add_ofNat word (by omega)]
    omega

/-- No two of the bytes are in one place. -/
theorem MapsWord.injective {i j : ℕ} (hi : i < 4) (hj : j < 4)
    (hτ : τ (a + BitVec.ofNat 32 i) = τ (a + BitVec.ofNat 32 j)) : i = j := by
  have hmod {i : ℕ} (hi : i < 4) : (τ (a + BitVec.ofNat 32 i)).toNat % 4 = (a.toNat + i) % 4 := by
    obtain ⟨pa, hpa, -, hpa4⟩ := segment_word (h.reached hi).1 rfl
    rw [Option.some.inj ((h.reached hi).1.symm.trans hpa), hpa4, toNat_add_ofNat a (by omega)]
    omega
  have hij := (hmod hi).symm.trans ((congrArg (·.toNat % 4) hτ).trans (hmod hj))
  omega

variable (M : IopMachine Memory) {side : Side} {inst : IopCoreInstruction}

/-- A load fills the bytes of the register that it covers. -/
theorem run_loadSide (haddr : IopMicro.virtualAddress inst s.data = a + BitVec.ofNat 32 (Size.word.offset side)) :
    ∃ s', (IopMicro.loadSide M.overRam inst s.data side).run s = .ok (.value s') ∧ MapsWord τ a s' ∧
      ∃ x : Uword, s'.data = s.data.writeUword inst.rt x ∧
        ∀ j < 4, lane 8 j x =
          if side.Covers 4 ((a + BitVec.ofNat 32 (Size.word.offset side)).toNat % 4) j then
            s.data.rest.byte (τ (a + BitVec.ofNat 32 j))
          else lane 8 j (s.data.gpr inst.rt) := by
  obtain ⟨word, ⟨hsegment, hr⟩, hmapped, hcovered⟩ := h.word side
  obtain ⟨t, ht, hkept⟩ := translateAddressData_of_reaches .read h.filled hr hsegment nofun
  have hk := Nat.mod_lt (a + BitVec.ofNat 32 (Size.word.offset side)).toNat (by decide : 4 > 0)
  let x : Uword := side.loadMerge (8 * ((a + BitVec.ofNat 32 (Size.word.offset side)).toNat % 4))
    (s.data.gpr inst.rt) (unitValue s.data.rest 4 word)
  refine ⟨t.setData (s.data.writeUword inst.rt x), ?_, h.of_kept hkept (by rw [IopData.rest_writeUword]), x, rfl,
    fun j hj => lane_loadMerge_unit s.data.rest hk hcovered _ hj⟩
  rw [IopMicro.loadSide_eq, IopMicro.loadPart, haddr, IopMicro.run_translate ht, IopMicro.run_busRead M hmapped,
    Size.word_shift_eq]
  rfl

/-- A store moves the bytes of the register that it covers. -/
theorem run_storeSide (haddr : IopMicro.virtualAddress inst s.data = a + BitVec.ofNat 32 (Size.word.offset side)) :
    ∃ s', (IopMicro.storeSide M.overRam inst s.data side).run s = .ok (.value s') ∧ MapsWord τ a s' ∧
      s'.data.gpr = s.data.gpr ∧
      (∀ j < 4, side.Covers 4 ((a + BitVec.ofNat 32 (Size.word.offset side)).toNat % 4) j →
        s'.data.rest.byte (τ (a + BitVec.ofNat 32 j)) = lane 8 j (s.data.gpr inst.rt)) ∧
      ∀ x, (∀ j < 4, side.Covers 4 ((a + BitVec.ofNat 32 (Size.word.offset side)).toNat % 4) j →
        τ (a + BitVec.ofNat 32 j) ≠ x) → s'.data.rest.byte x = s.data.rest.byte x := by
  obtain ⟨word, ⟨hsegment, hr⟩, hmapped, hcovered⟩ := h.word side
  obtain ⟨t, ht, hkept⟩ := translateAddressData_of_reaches .read h.filled hr hsegment nofun
  -- The second translation finds what the first has found.
  have hi : ¬Isolating (t.setData s.data).cop0 := by
    rw [setData_cop0, hkept.cop0]
    exact h.notIsolating
  obtain ⟨t', ht', hkept'⟩ := translateAddressData_of_reaches (s := t.setData s.data) .write
    (hkept.filled.congr fun id => by cases id <;> rfl) (hkept.reaches hr) hsegment fun hw => hi hw.2
  have hk := Nat.mod_lt (a + BitVec.ofNat 32 (Size.word.offset side)).toNat (by decide : 4 > 0)
  let x : Uword := side.storeMerge (8 * ((a + BitVec.ofNat 32 (Size.word.offset side)).toNat % 4))
    (s.data.gpr inst.rt) (unitValue s.data.rest 4 word)
  have hstored := byte_store_unit s.data.rest hk hcovered (s.data.gpr inst.rt) (by decide)
  refine ⟨t'.setData { s.data with rest := s.data.rest.store word (bytes 4 x) }, ?_,
    (h.of_kept hkept rfl).of_kept hkept' rfl, rfl, hstored⟩
  rw [IopMicro.storeSide_eq, IopMicro.storePart, haddr, IopMicro.run_translate ht, IopMicro.run_busRead M hmapped,
    IopMicro.run_translate ht', IopMicro.run_busWrite M hmapped, Size.word_shift_eq]

end One

/-! ### Two instructions -/

section Two

variable (M : IopMachine Memory) {first second : Side} {τ : Uptr → Uptr} {a : Uptr} {inst inst' : IopCoreInstruction}
  {s : IopCore Memory}

/-- The two loads leave the bytes from `a` on in the register, and nothing else changes; the second runs in any state with
the data that the first has left. -/
def LoadsWord (τ : Uptr → Uptr) (a : Uptr) (first second : Side) (inst inst' : IopCoreInstruction) (s : IopCore Memory) :
    Prop :=
  ∃ s', (IopMicro.loadSide M.overRam inst s.data first).run s = .ok (.value s') ∧ MapsWord τ a s' ∧
    (∀ r ≠ inst.rt, s'.data.gpr r = s.data.gpr r) ∧
    ∀ t, t.data = s'.data → MapsWord τ a t →
      IopMicro.virtualAddress inst' t.data = a + BitVec.ofNat 32 (Size.word.offset second) →
      ∃ t', (IopMicro.loadSide M.overRam inst' t.data second).run t = .ok (.value t') ∧
        t'.data = s.data.writeUword inst.rt
          (ofBytes 32 ((List.range 4).map fun j => s.data.rest.byte (τ (a + BitVec.ofNat 32 j))))

/-- The two stores leave the bytes of the register from `a` on, and nothing else changes. -/
def StoresWord (τ : Uptr → Uptr) (a : Uptr) (first second : Side) (inst inst' : IopCoreInstruction) (s : IopCore Memory) :
    Prop :=
  ∃ s', (IopMicro.storeSide M.overRam inst s.data first).run s = .ok (.value s') ∧ MapsWord τ a s' ∧
    s'.data.gpr = s.data.gpr ∧
    ∀ t, t.data = s'.data → MapsWord τ a t →
      IopMicro.virtualAddress inst' t.data = a + BitVec.ofNat 32 (Size.word.offset second) →
      ∃ t', (IopMicro.storeSide M.overRam inst' t.data second).run t = .ok (.value t') ∧ t'.data.gpr = s.data.gpr ∧
        (∀ j < 4, t'.data.rest.byte (τ (a + BitVec.ofNat 32 j)) = lane 8 j (s.data.gpr inst.rt)) ∧
        ∀ x, (∀ j < 4, τ (a + BitVec.ofNat 32 j) ≠ x) → t'.data.rest.byte x = s.data.rest.byte x

theorem loadsWord (hsides : first ≠ second) (hrt : inst'.rt = inst.rt) (h : MapsWord τ a s)
    (haddr : IopMicro.virtualAddress inst s.data = a + BitVec.ofNat 32 (Size.word.offset first)) :
    LoadsWord M τ a first second inst inst' s := by
  obtain ⟨s', hs', hmaps', x, hx, hlanes⟩ := run_loadSide h M haddr
  refine ⟨s', hs', hmaps', fun r hr => ?_, fun t ht hmaps haddr' => ?_⟩
  · rw [hx, IopData.gpr_writeUword_of_ne _ _ hr]
  obtain ⟨t', ht', -, y, hy, hlanes'⟩ := run_loadSide hmaps M haddr'
  refine ⟨t', ht', ?_⟩
  have hrest : t.data.rest = s.data.rest := by rw [ht, hx, IopData.rest_writeUword]
  rw [hy, ht, hx, hrt, IopData.writeUword_writeUword]
  by_cases hr : inst.rt = 0
  · simp only [IopData.writeUword, if_pos hr]
  -- The register between the two has what the first instruction loaded.
  have hgpr : t.data.gpr inst'.rt = x := by rw [ht, hx, hrt, IopData.gpr_writeUword _ _ hr, if_pos rfl]
  have hyx : y = ofBytes 32 ((List.range 4).map fun j => s.data.rest.byte (τ (a + BitVec.ofNat 32 j))) := by
    refine eq_of_lanes (show 32 = 8 * 4 from rfl) fun j hj => ?_
    rw [hlanes' j hj, lane_ofBytes_map _ hj, hrest]
    by_cases hc : second.Covers 4 ((a + BitVec.ofNat 32 (Size.word.offset second)).toNat % 4) j
    · rw [if_pos hc]
    · rw [if_neg hc, hgpr, hlanes j hj]
      exact if_pos ((covers_or .word hsides a hj).resolve_right hc)
  rw [hyx]

theorem storesWord (hsides : first ≠ second) (hrt : inst'.rt = inst.rt) (h : MapsWord τ a s)
    (haddr : IopMicro.virtualAddress inst s.data = a + BitVec.ofNat 32 (Size.word.offset first)) :
    StoresWord M τ a first second inst inst' s := by
  obtain ⟨s', hs', hmaps', hgpr, hmoved, hkept⟩ := run_storeSide h M haddr
  refine ⟨s', hs', hmaps', hgpr, fun t ht hmaps haddr' => ?_⟩
  obtain ⟨t', ht', -, hgpr', hmoved', hkept'⟩ := run_storeSide hmaps M haddr'
  rw [ht] at hgpr' hmoved' hkept'
  refine ⟨t', ht', hgpr'.trans hgpr, fun j hj => ?_, fun x hx => ?_⟩
  · by_cases hc : second.Covers 4 ((a + BitVec.ofNat 32 (Size.word.offset second)).toNat % 4) j
    · rw [hmoved' j hj hc, hrt, hgpr]
    · rw [hkept' _ fun i hi hci hτ => hc (h.injective hi hj hτ ▸ hci)]
      exact hmoved j hj ((covers_or .word hsides a hj).resolve_right hc)
  · rw [hkept' x fun j hj _ => hx j hj, hkept x fun j hj _ => hx j hj]

end Two

/-! ### With the cache isolated -/

section Isolated

variable (M : IopMachine Memory) {a : Uptr} {s : IopCore Memory}

/-- `SW` to the address returns and changes no byte, whatever the register. -/
def StoresNothing (a : Uptr) (s : IopCore Memory) : Prop :=
  ∀ (inst : IopCoreInstruction) (d : IopData Memory), d.rest = s.data.rest → IopMicro.virtualAddress inst d = a →
    ∃ t, (IopMicro.sw M.overRam inst d).run (s.setData d) = .ok (.value t) ∧ t.data.rest.byte = s.data.rest.byte

theorem byte_store_word (m : Memory) (pa : Uptr) (value : Uword) :
    (m.store pa (bytes 4 value)).byte pa = lane 8 0 value := by
  have hlen : (bytes 4 value).length = 4 := length_bytes 4 value
  have h := Memory.byte_store_of_lt (m := m) (a := pa) (i := 0) (by omega : 0 < (bytes 4 value).length) (by omega)
  rwa [BitVec.add_zero, List.get_eq_getElem, getElem_bytes] at h

/-- A register can have any value beside the one that has the address. -/
theorem exists_register (m : Memory) (a : Uptr) (value : Uword) : ∃ (inst : IopCoreInstruction) (d : IopData Memory),
    d.rest = m ∧ IopMicro.virtualAddress inst d = a ∧ d.gpr inst.rt = value :=
  ⟨⟨0x00220000⟩, ⟨fun r => if r = 1 then a else value, m⟩, rfl, BitVec.add_zero a, rfl⟩

theorem isMapped_of_run_busWrite {d : IopData Memory} {t : IopCore Memory} {pa : Uptr} {value : Uword}
    (h : (IopMicro.busWrite M.overRam d 32 pa value).run s = .ok (.value t)) : d.rest.isMapped pa 4 := by
  by_contra hmapped
  have hwrite : d.rest.write pa (bytes (32 / 8) value) = .error .nullPointer := if_neg hmapped
  simp only [IopMicro.busWrite, IopMachine.overRam, hwrite] at h
  cases h

/-- A store that is let through changes the byte at its address for some register. -/
theorem refused_of_storesNothing (hi : Isolating s.cop0) (h : StoresNothing M a s) :
    s.cop0.status.operatingContext = .kernel ∧ Refused s.cop0 a .write := by
  have hrun (value : Uword) : ∃ d : IopData Memory, d.rest = s.data.rest ∧ ∃ t,
      (IopMicro.translate a .write fun pa => IopMicro.busWrite M.overRam d 32 pa value).run (s.setData d) =
        .ok (.value t) ∧ t.data.rest.byte = s.data.rest.byte := by
    obtain ⟨inst, d, hd, haddr, rfl⟩ := exists_register s.data.rest a value
    obtain ⟨t, ht, hbyte⟩ := h inst d hd haddr
    refine ⟨d, hd, t, ?_, hbyte⟩
    rw [← ht, IopMicro.sw, IopMicro.store, haddr]
  have hfallback (d : IopData Memory) (next : Uptr → IopMicro Memory) :=
    run_translate_of_isolating (s := s.setData d) hi a next
  simp only [setData_cop0] at hfallback
  refine refused_of_fallback ?_
  cases hf : translateAddressFallback s.cop0 a .write with
  | error e =>
    obtain ⟨d, -, t, ht, -⟩ := hrun 0
    rw [hfallback, hf] at ht
    cases ht
  | ok result =>
    cases result with
    | none => rfl
    | some pa =>
      -- The byte there, changed.
      obtain ⟨d, hd, t, ht, hbyte⟩ := hrun (~~~(s.data.rest.byte pa).setWidth 32)
      rw [hfallback, hf] at ht
      replace ht : (IopMicro.busWrite M.overRam d 32 pa _).run (s.setData d) = _ := ht
      have hmapped := isMapped_of_run_busWrite M ht
      rw [IopMicro.run_busWrite M hmapped] at ht
      obtain rfl := IopResult.value.inj (Except.ok.inj ht)
      have hsame := congrArg (BitVec.getLsbD · 0) ((byte_store_word _ _ _).symm.trans (congrFun hbyte pa))
      simp only [getLsbD_lane, BitVec.getLsbD_not, BitVec.getLsbD_setWidth] at hsame
      simp at hsame

/-- What is refused changes nothing. -/
theorem storesNothing_of_refused (hi : Isolating s.cop0) (hk : s.cop0.status.operatingContext = .kernel)
    (hr : Refused s.cop0 a .write) : StoresNothing M a s := by
  intro inst d hd haddr
  refine ⟨s.setData d, ?_, congrArg Memory.byte hd⟩
  rw [IopMicro.sw, IopMicro.store, haddr, run_translate_of_isolating (s := s.setData d) hi, setData_cop0,
    fallback_of_refused hk hr]
  rfl

theorem refused_word {c : IopCoreCop0} (h : Refused c a .write) : Refused c (a &&& 0xFFFFFFFC) .write := by
  obtain ⟨hi, hw, hlow⟩ := h
  have halign : (a &&& 0xFFFFFFFC).toNat = _ := Size.word.toNat_and_not_alignment a
  exact ⟨hi, hw, by bv_omega⟩

/-- An instruction that `SW` would be refused changes nothing. -/
theorem storeSide_of_refused {inst : IopCoreInstruction} (haddr : IopMicro.virtualAddress inst s.data = a)
    (hi : Isolating s.cop0) (hk : s.cop0.status.operatingContext = .kernel) (hr : Refused s.cop0 a .write) (side : Side) :
    Ensures (fun r => (resultState r).data = s.data) ((IopMicro.storeSide M.overRam inst s.data side).run s) := by
  have hword := refused_word hr
  rw [IopMicro.storeSide_eq, IopMicro.storePart, haddr, IopMicro.run]
  refine (data_translateAddressData s _ .read).bind fun r hr => ?_
  obtain ⟨_ | word, t⟩ := r
  · exact .ok hr.1
  · obtain ⟨hdata, hcop0⟩ : t.data = s.data ∧ t.cop0 = s.cop0 := hr
    show Ensures _ ((IopMicro.busRead M.overRam s.data 32 word _).run t)
    by_cases hmapped : s.data.rest.isMapped word 4
    · have hi' : Isolating (t.setData s.data).cop0 := by rwa [setData_cop0, hcop0]
      rw [IopMicro.run_busRead M hmapped, run_translate_of_isolating hi', setData_cop0, hcop0,
        fallback_of_refused hk hword]
      exact .ok rfl
    · rw [IopMicro.run_busRead_error M hmapped]
      exact .error _

/-- It returns, where the word is in memory. -/
theorem storeSide_returns {inst : IopCoreInstruction} (haddr : IopMicro.virtualAddress inst s.data = a) (hs : s.Filled)
    (hi : Isolating s.cop0) (hk : s.cop0.status.operatingContext = .kernel) (hr : Refused s.cop0 a .write)
    (hmapped : s.data.rest.isMapped (a &&& 0xFFFFFFFC) 4) (side : Side) :
    ∃ t, (IopMicro.storeSide M.overRam inst s.data side).run s = .ok (.value t) := by
  have hword := refused_word hr
  obtain ⟨t, ht, hkept⟩ := translateAddressData_of_reaches .read hs (.inl hk) (segment_of_refused hword) nofun
  have hi' : Isolating (t.setData s.data).cop0 := by rwa [setData_cop0, hkept.cop0]
  refine ⟨t.setData s.data, ?_⟩
  rw [IopMicro.storeSide_eq, IopMicro.storePart, haddr, IopMicro.run_translate ht, IopMicro.run_busRead M hmapped,
    run_translate_of_isolating hi', setData_cop0, hkept.cop0, fallback_of_refused hk hword]
  rfl

end Isolated

/-- Two loads give the bytes from `a` on, whatever the register had, and two stores move all bytes of the register there
and nothing else, in either order, when the cache is not isolated. When it is, a store changes nothing where `SW` of any
register changes nothing, and returns if its word is in memory. -/
theorem unaligned_words (M : IopMachine Memory) (a : Uptr) (s : IopCore Memory) :
    (∀ (τ : Uptr → Uptr) (first second : Side) (inst inst' : IopCoreInstruction), first ≠ second → inst'.rt = inst.rt →
      MapsWord τ a s → IopMicro.virtualAddress inst s.data = a + BitVec.ofNat 32 (Size.word.offset first) →
      LoadsWord M τ a first second inst inst' s ∧ StoresWord M τ a first second inst inst' s) ∧
    (s.Filled → Isolating s.cop0 → StoresNothing M a s → ∀ (side : Side) (inst : IopCoreInstruction),
      IopMicro.virtualAddress inst s.data = a →
      (∀ r, (IopMicro.storeSide M.overRam inst s.data side).run s = .ok r → (resultState r).data = s.data) ∧
      (s.data.rest.isMapped (a &&& 0xFFFFFFFC) 4 →
        ∃ t, (IopMicro.storeSide M.overRam inst s.data side).run s = .ok (.value t))) := by
  constructor
  · intro τ first second inst inst' hsides hrt h haddr
    exact ⟨loadsWord M hsides hrt h haddr, storesWord M hsides hrt h haddr⟩
  · intro hs hi hnothing side inst haddr
    obtain ⟨hk, hr⟩ := refused_of_storesNothing M hi hnothing
    exact ⟨storeSide_of_refused M haddr hi hk hr side, fun hmapped => storeSide_returns M haddr hs hi hk hr hmapped side⟩

/-- A machine with nothing but the memory. -/
def iopRamMachine : IopMachine Memory where
  busRead _ _ _ := .error .nullPointer
  busWrite _ _ _ _ := .error .nullPointer
  other _ := none

/-- A core in kernel mode with an address in `gpr[9]` and a word in `gpr[8]`; `status` says whether the cache is isolated. -/
def unalignedIop (status : Uword) (address : Uptr) : IopCore Memory where
  pc := 0x80001000
  bdelay := ⟨0, 0⟩
  data := ⟨fun r => if r = 9 then address else if r = 8 then 0x44332211 else 0, fun _ => true, fun _ => 0⟩
  cop0 := { IopCoreCop0.initial with status := ⟨status, false, .kernel⟩ }
  translationCacheData := .new ..
  translationCacheInst := .new ..

theorem filled_unalignedIop (status : Uword) (address : Uptr) : (unalignedIop status address).Filled :=
  filled_flush (unalignedIop status address)

theorem mapsWord_unalignedIop : MapsWord (· - 0x80000000) 0x80001003 (unalignedIop 0 0x80001003) := by
  refine ⟨filled_unalignedIop 0 0x80001003, by decide, fun j hj => ?_, fun _ _ _ _ => rfl⟩
  have hsegment : segment (0x80001003 + BitVec.ofNat 32 j) = some (0x80001003 + BitVec.ofNat 32 j - 0x80000000) := by
    rw [segment, if_pos ⟨by bv_omega, by bv_omega⟩]
  obtain ⟨t, ht, -⟩ := translateAddressData_of_reaches .read (filled_unalignedIop 0 0x80001003) (.inl rfl) hsegment
    fun hw => absurd hw.1 (by decide)
  exact ⟨t, ht⟩

/-- `SWL` and then `SWR`, and `SWL` with the cache isolated. -/
theorem unaligned_words_swl_swr :
    (∃ s' t', (IopMicro.swl iopRamMachine.overRam ⟨0xA9280003⟩ (unalignedIop 0 0x80001003).data).run
        (unalignedIop 0 0x80001003) = .ok (.value s') ∧
      (IopMicro.swr iopRamMachine.overRam ⟨0xB9280000⟩ s'.data).run s' = .ok (.value t') ∧
      t'.data.rest.byte 0x1003 = 0x11 ∧ t'.data.rest.byte 0x1006 = 0x44 ∧ t'.data.rest.byte 0x1007 = 0) ∧
    ∃ t, (IopMicro.swl iopRamMachine.overRam ⟨0xA9280003⟩ (unalignedIop 0x10000 0x1000).data).run
        (unalignedIop 0x10000 0x1000) = .ok (.value t) ∧ t.data.rest.byte 0x1003 = 0 := by
  constructor
  · obtain ⟨s', hs', hmaps, hgpr, hsecond⟩ := ((unaligned_words iopRamMachine 0x80001003 (unalignedIop 0 0x80001003)).1
      (· - 0x80000000) .left .right ⟨0xA9280003⟩ ⟨0xB9280000⟩ (by decide) (by decide) mapsWord_unalignedIop (by decide)).2
    have haddr : IopMicro.virtualAddress ⟨0xB9280000⟩ s'.data = 0x80001003 + BitVec.ofNat 32 0 := by
      rw [IopMicro.virtualAddress, hgpr]
      rfl
    obtain ⟨t', ht', -, hbytes, hkept⟩ := hsecond s' rfl hmaps haddr
    exact ⟨s', t', hs', ht', hbytes 0 (by decide), hbytes 3 (by decide), hkept 0x1007 (by decide)⟩
  · have hi : Isolating (unalignedIop 0x10000 0x1000).cop0 := by decide
    have hnothing : StoresNothing iopRamMachine 0x1003 (unalignedIop 0x10000 0x1000) :=
      storesNothing_of_refused iopRamMachine hi rfl ⟨hi, rfl, by decide⟩
    obtain ⟨hsame, hreturns⟩ := (unaligned_words iopRamMachine 0x1003 (unalignedIop 0x10000 0x1000)).2
      (filled_unalignedIop 0x10000 0x1000) hi hnothing .left ⟨0xA9280003⟩ (by decide)
    obtain ⟨t, ht⟩ := hreturns (by decide)
    exact ⟨t, ht, congrArg (fun d => d.rest.byte 0x1003) (hsame _ ht)⟩

end IopCore

end Orbum
