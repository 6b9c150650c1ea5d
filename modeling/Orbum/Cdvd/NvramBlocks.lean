import Orbum.Cdvd.Nvram

/-!
# Config blocks of the NVRAM

What is written to a config area is read back, and nothing else changes. A read past the area gives a block of zeros, and
a call that throws leaves the NVRAM alone.
-/

namespace Orbum

namespace CdvdNvram

/-! ### Areas -/

/-- The blocks of an area. -/
def areaBlocks (area : Fin 3) : ℕ := if area.val = 0 then 4 else if area.val = 1 then 2 else 7

/-- Where an area starts. -/
def areaOffset (area : Fin 3) : ℕ := if area.val = 0 then 0x140 else if area.val = 1 then 0x180 else 0x100

/-- The halfwords of an area. -/
def configArea (s : CdvdNvram) (area : Fin 3) : List Uhword := s.memory.read (areaOffset area) (8 * areaBlocks area)

variable {s t u : CdvdNvram} {area : Fin 3}

theorem blockOffset_eq (h : s.accessAreaIndex = area.val) :
    s.blockOffset = some (areaOffset area + s.accessBlockIndex * 8) := by
  unfold blockOffset areaOffset
  rw [h]
  split_ifs <;> first | rfl | omega

theorem pastArea_iff (h : s.accessAreaIndex = area.val) : s.pastArea ↔ areaBlocks area ≤ s.accessBlockIndex := by
  unfold pastArea areaBlocks
  rw [h]
  split_ifs <;> omega

/-- The NVRAM has this area open at block `i`. -/
structure OpenAt (s : CdvdNvram) (readWrite : ℤ) (area : Fin 3) (m : ℤ) (i : ℕ) : Prop where
  /-- The mode. -/
  readWrite_eq : s.accessReadWrite = readWrite
  /-- The area. -/
  area_eq : s.accessAreaIndex = area.val
  /-- The block that must not be reached. -/
  max_eq : s.accessMaxBlockIndex = m
  /-- The next block. -/
  block_eq : s.accessBlockIndex = i

theorem openAt_setAccessParams (s : CdvdNvram) (readWrite : ℤ) (area : Fin 3) (m : ℤ) :
    (s.setAccessParams readWrite area.val m 0).OpenAt readWrite area m 0 := ⟨rfl, rfl, rfl, rfl⟩

variable {m : ℤ} {i : ℕ} {readWrite : ℤ}

theorem OpenAt.not_pastArea (h : s.OpenAt readWrite area m i) (hi : i < areaBlocks area) : ¬s.pastArea := by
  rw [pastArea_iff h.area_eq, h.block_eq]
  omega

theorem OpenAt.not_max_le (h : s.OpenAt readWrite area m i) (hm : i < m) : ¬s.accessMaxBlockIndex ≤ s.accessBlockIndex := by
  rw [h.max_eq, h.block_eq]
  omega

theorem OpenAt.readConfigBlock_eq (h : s.OpenAt 0 area m i) (hm : i < m) (hi : i < areaBlocks area) :
    s.readConfigBlock =
      (.ok (s.memory.read (areaOffset area + i * 8) 8), { s with accessBlockIndex := s.accessBlockIndex + 1 }) := by
  rw [readConfigBlock, if_pos h.readWrite_eq, if_neg (h.not_pastArea hi), if_neg (h.not_max_le hm), blockOffset_eq h.area_eq,
    h.block_eq]
  rfl

theorem OpenAt.writeConfigBlock_eq (h : s.OpenAt 1 area m i) (hm : i < m) (hi : i < areaBlocks area)
    (buffer : List Uhword) :
    s.writeConfigBlock buffer = (.ok (),
      { s with
        memory := s.memory.write (areaOffset area + i * 8) buffer, accessBlockIndex := s.accessBlockIndex + 1 }) := by
  rw [writeConfigBlock, if_pos h.readWrite_eq, if_neg (h.not_pastArea hi), if_neg (h.not_max_le hm), blockOffset_eq h.area_eq,
    h.block_eq]
  rfl

/-! ### Blocks in order -/

/-- These blocks are written one after the other. -/
inductive Writes : List (List Uhword) → CdvdNvram → CdvdNvram → Prop
  /-- None. -/
  | nil (s : CdvdNvram) : Writes [] s s
  /-- The first and the others. -/
  | cons {block : List Uhword} {blocks : List (List Uhword)} {s t u : CdvdNvram}
      (h : s.writeConfigBlock block = (.ok (), t)) (hs : Writes blocks t u) : Writes (block :: blocks) s u

/-- These blocks are read one after the other. -/
inductive Reads : List (List Uhword) → CdvdNvram → CdvdNvram → Prop
  /-- None. -/
  | nil (s : CdvdNvram) : Reads [] s s
  /-- The first and the others. -/
  | cons {block : List Uhword} {blocks : List (List Uhword)} {s t u : CdvdNvram}
      (h : s.readConfigBlock = (.ok block, t)) (hs : Reads blocks t u) : Reads (block :: blocks) s u

variable {blocks : List (List Uhword)}

/-- Blocks are written from the next one on, and only there. -/
theorem OpenAt.exists_writes (h : s.OpenAt 1 area m i) (hlen : ∀ block ∈ blocks, block.length = 8)
    (hm : i + blocks.length ≤ m) (hi : i + blocks.length ≤ areaBlocks area) :
    ∃ t, Writes blocks s t ∧
      (∀ k, k < areaOffset area + i * 8 ∨ areaOffset area + (i + blocks.length) * 8 ≤ k → t.memory k = s.memory k) ∧
      ∀ u : CdvdNvram, u.memory = t.memory → u.OpenAt 0 area m i → ∃ v, Reads blocks u v ∧ v.memory = u.memory := by
  induction blocks generalizing s i with
  | nil => exact ⟨s, .nil s, fun _ _ => rfl, fun u _ _ => ⟨u, .nil u, rfl⟩⟩
  | cons block blocks ih =>
    rw [List.length_cons] at hm hi
    have hblock : block.length = 8 := hlen block List.mem_cons_self
    have hwrite := h.writeConfigBlock_eq (by omega) (by omega) block
    obtain ⟨t, hwrites, hframe, hreads⟩ := ih
      (s := { s with
        memory := s.memory.write (areaOffset area + i * 8) block, accessBlockIndex := s.accessBlockIndex + 1 })
      (i := i + 1) ⟨h.readWrite_eq, h.area_eq, h.max_eq, congrArg (· + 1) h.block_eq⟩
      (fun b hb => hlen b (List.mem_cons_of_mem _ hb)) (by omega) (by omega)
    refine ⟨t, .cons hwrite hwrites, ?_, ?_⟩
    · intro k hk
      rw [List.length_cons] at hk
      rw [hframe k (by omega)]
      have hapart : k < areaOffset area + i * 8 ∨ areaOffset area + i * 8 + block.length ≤ k := by
        rw [hblock]
        omega
      exact HwordMemory.write_of_apart block hapart
    · intro u hu hopen
      have hback : u.memory.read (areaOffset area + i * 8) 8 = block := by
        have hself : (s.memory.write (areaOffset area + i * 8) block).read (areaOffset area + i * 8) block.length = block :=
          HwordMemory.read_write block
        rw [hblock] at hself
        rw [hu]
        exact (HwordMemory.read_congr fun k _ hk => hframe k (.inl (by omega))).trans hself
      have hread := hopen.readConfigBlock_eq (by omega) (by omega)
      rw [hback] at hread
      obtain ⟨v, hv, hmem⟩ := hreads { u with accessBlockIndex := u.accessBlockIndex + 1 } hu
        ⟨hopen.readWrite_eq, hopen.area_eq, hopen.max_eq, congrArg (· + 1) hopen.block_eq⟩
      exact ⟨v, .cons hread hv, hmem⟩

/-- What a write to an area leaves alone. -/
structure Untouched (s u : CdvdNvram) (area : Fin 3) : Prop where
  /-- The console ID. -/
  consoleId : u.readConsoleId = s.readConsoleId
  /-- The iLink ID. -/
  ilinkId : u.readIlinkId = s.readIlinkId
  /-- The model number. -/
  modelNumber : u.readModelNumber = s.readModelNumber
  /-- The region parameters. -/
  regionParams : u.readRegionParams = s.readRegionParams
  /-- The MAC. -/
  mac : u.readMac = s.readMac
  /-- The other areas. -/
  areas : ∀ other, other ≠ area → u.configArea other = s.configArea other

theorem areaOffset_ge (area : Fin 3) : 0x100 ≤ areaOffset area := by
  unfold areaOffset
  split_ifs <;> decide

theorem areas_apart {other : Fin 3} (h : other ≠ area) :
    areaOffset other + 8 * areaBlocks other ≤ areaOffset area ∨ areaOffset area + areaBlocks area * 8 ≤ areaOffset other := by
  revert area other
  decide

theorem untouched_of_frame
    (h : ∀ k, k < areaOffset area ∨ areaOffset area + areaBlocks area * 8 ≤ k → u.memory k = s.memory k) :
    Untouched s u area := by
  have hge := areaOffset_ge area
  have hlow {offset : ℕ} (hoff : offset + 4 ≤ 0x100) : u.memory.read offset 4 = s.memory.read offset 4 :=
    HwordMemory.read_congr fun k _ hk => h k (.inl (by omega))
  refine ⟨hlow (by decide), hlow (by decide), hlow (by decide), hlow (by decide), hlow (by decide), ?_⟩
  intro other hother
  have hapart := areas_apart hother
  exact HwordMemory.read_congr fun k hk hk' => h k (by omega)

/-! ### Calls that throw -/

/-- A read throws in the wrong mode, and inside the area at the maximum or where there is no such area. -/
def ReadThrows (s : CdvdNvram) : Prop :=
  s.accessReadWrite ≠ 0 ∨ ¬s.pastArea ∧ (s.accessMaxBlockIndex ≤ s.accessBlockIndex ∨ s.blockOffset = none)

/-- A write throws in the wrong mode, past the area, at the maximum and where there is no such area. -/
def WriteThrows (s : CdvdNvram) : Prop :=
  s.accessReadWrite ≠ 1 ∨ s.pastArea ∨ s.accessMaxBlockIndex ≤ s.accessBlockIndex ∨ s.blockOffset = none

instance : Decidable s.ReadThrows := inferInstanceAs (Decidable (_ ∨ _))

instance : Decidable s.WriteThrows := inferInstanceAs (Decidable (_ ∨ _))

/-- A call that throws leaves the NVRAM as it was, and it throws just where it is meant to. -/
structure ThrowsClean {α : Type} (s : CdvdNvram) (throws : Prop) (r : Except HostError α × CdvdNvram) : Prop where
  /-- It throws there. -/
  throws_iff : (∃ e, r.1 = .error e) ↔ throws
  /-- Nothing is changed then. -/
  unchanged : throws → r.2 = s

theorem throwsClean_error {α : Type} {throws : Prop} (h : throws) (e : HostError) :
    ThrowsClean s throws ((.error e, s) : Except HostError α × CdvdNvram) :=
  ⟨iff_of_true ⟨e, rfl⟩ h, fun _ => rfl⟩

theorem throwsClean_ok {α : Type} {throws : Prop} (h : ¬throws) (a : α) (t : CdvdNvram) :
    ThrowsClean s throws ((.ok a, t) : Except HostError α × CdvdNvram) := by
  refine ⟨iff_of_false ?_ h, fun hthrows => absurd hthrows h⟩
  rintro ⟨e, he⟩
  cases he

theorem throwsClean_readConfigBlock (s : CdvdNvram) : ThrowsClean s s.ReadThrows s.readConfigBlock := by
  unfold readConfigBlock ReadThrows
  split_ifs with hmode hpast hmax
  · exact throwsClean_ok (fun h => h.elim (fun h => h hmode) fun h => h.1 hpast) _ _
  · exact throwsClean_error (.inr ⟨hpast, .inl hmax⟩) _
  · cases hoff : s.blockOffset with
    | none => exact throwsClean_error (.inr ⟨hpast, .inr rfl⟩) _
    | some offset =>
      refine throwsClean_ok ?_ _ _
      rintro (h | ⟨-, h | h⟩)
      · exact h hmode
      · exact hmax h
      · cases h
  · exact throwsClean_error (.inl hmode) _

theorem throwsClean_writeConfigBlock (s : CdvdNvram) (buffer : List Uhword) :
    ThrowsClean s s.WriteThrows (s.writeConfigBlock buffer) := by
  unfold writeConfigBlock WriteThrows
  split_ifs with hmode hpast hmax
  · exact throwsClean_error (.inr (.inl hpast)) _
  · exact throwsClean_error (.inr (.inr (.inl hmax))) _
  · cases hoff : s.blockOffset with
    | none => exact throwsClean_error (.inr (.inr (.inr rfl))) _
    | some offset =>
      refine throwsClean_ok ?_ _ _
      rintro (h | h | h | h)
      · exact h hmode
      · exact hpast h
      · exact hmax h
      · cases h
  · exact throwsClean_error (.inl hmode) _

theorem readConfigBlock_of_pastArea (hmode : s.accessReadWrite = 0) (h : s.pastArea) :
    s.readConfigBlock = (.ok (List.replicate 8 0), s) := by
  rw [readConfigBlock, if_pos hmode, if_pos h]

/-- Blocks written to an area are read back in order, with all else unchanged. Past an area a read gives zeros and stays
there, and a call that throws changes nothing. -/
theorem config_blocks :
    (∀ (s : CdvdNvram) (area : Fin 3) (m : ℤ) (blocks : List (List Uhword)), (∀ block ∈ blocks, block.length = 8) →
      blocks.length ≤ m → blocks.length ≤ areaBlocks area →
        ∃ t u, Writes blocks (s.setAccessParams 1 area.val m 0) t ∧ Reads blocks (t.setAccessParams 0 area.val m 0) u ∧
          Untouched s t area ∧ Untouched s u area) ∧
      (∀ (s : CdvdNvram) (area : Fin 3), s.accessReadWrite = 0 → s.accessAreaIndex = area.val →
        areaBlocks area ≤ s.accessBlockIndex → s.readConfigBlock = (.ok (List.replicate 8 0), s)) ∧
      (∀ s : CdvdNvram, ThrowsClean s s.ReadThrows s.readConfigBlock) ∧
      ∀ (s : CdvdNvram) (buffer : List Uhword), ThrowsClean s s.WriteThrows (s.writeConfigBlock buffer) := by
  refine ⟨?_, ?_, throwsClean_readConfigBlock, throwsClean_writeConfigBlock⟩
  · intro s area m blocks hlen hm hblocks
    obtain ⟨t, hwrites, hframe, hreads⟩ :=
      (openAt_setAccessParams s 1 area m).exists_writes hlen (by omega) (by omega)
    obtain ⟨u, hu, hmem⟩ := hreads (t.setAccessParams 0 area.val m 0) rfl (openAt_setAccessParams t 0 area m)
    have hout (k : ℕ) (hk : k < areaOffset area ∨ areaOffset area + areaBlocks area * 8 ≤ k) :
        t.memory k = s.memory k := hframe k (by omega)
    refine ⟨t, u, hwrites, hu, untouched_of_frame hout, untouched_of_frame fun k hk => ?_⟩
    rw [hmem]
    exact hout k hk
  · intro s area hmode harea hpast
    exact readConfigBlock_of_pastArea hmode ((pastArea_iff harea).mpr hpast)

/-- Two blocks of area 1. -/
theorem config_blocks_two : ∃ t u : CdvdNvram,
    Writes [.replicate 8 0x1234, .replicate 8 0xABCD] (setAccessParams ⟨fun _ => 0, 0, 0, 0, 0⟩ 1 1 2 0) t ∧
      Reads [.replicate 8 0x1234, .replicate 8 0xABCD] (t.setAccessParams 0 1 2 0) u := by
  obtain ⟨t, u, hwrites, hreads, -⟩ := config_blocks.1 ⟨fun _ => 0, 0, 0, 0, 0⟩ 1 2
    [.replicate 8 0x1234, .replicate 8 0xABCD] (by decide) (by decide) (by decide)
  exact ⟨t, u, hwrites, hreads⟩

end CdvdNvram

end Orbum
