import Orbum.Common.Bitfield
import Mathlib.Data.List.GetD
import Mathlib.Data.List.TakeWhile
import Mathlib.Logic.Function.Iterate

/-!
# The byte bus

`Common/Types/Bus/ByteBus.hpp`: a two level page table (directories, then pages) from guest
addresses of `w` bits to mapped objects. `map` enters an object page by page, at first with pages of
one byte; `optimise` then gives each directory the coarsest page size its mappings allow and keeps
one page of each group.

The object type is a variable, with `size` for `byte_bus_map_size`. A null object pointer is `none`.
`map` returns what it threw beside the bus it leaves behind, since it has already entered pages when
it meets an existing one.
-/

namespace Orbum

/-- `count_trailing_zeros` of `Utilities.cpp`. -/
def countTrailingZeros (value : Uword) : ℕ :=
  if value = 0 then 32 else ((List.range 32).takeWhile fun i => value &&& (1#32 <<< i) = 0).length

namespace ByteBus

/-- `ByteBus::Page`. -/
structure Page (w : ℕ) (α : Type) where
  /-- Where the object starts. -/
  baseAddress : BitVec w
  /-- The object, `none` for a null pointer. -/
  object : Option α

/-- The page a `std::vector<Page>` is filled with. -/
def Page.null {w : ℕ} {α : Type} : Page w α := ⟨0, none⟩

/-- `ByteBus::Directory`. -/
structure Directory (w : ℕ) (α : Type) where
  /-- The address bits that select a page. -/
  pageMask : Bitfield
  /-- The smallest alignment of a mapping seen so far. -/
  optimalAlignment : ℕ
  /-- The pages, none before the first mapping. -/
  pageTable : List (Page w α)

end ByteBus

open ByteBus

/-- `ByteBus<AddressTy>` for addresses of `w` bits. -/
structure ByteBus (w : ℕ) (α : Type) where
  /-- The address bits that select a directory, the uppermost ones. -/
  directoryMask : Bitfield
  /-- The directories. -/
  table : List (Directory w α)

namespace ByteBus

variable {w : ℕ} {α : Type} (size : α → Uword)

/-- The constructor `ByteBus(directory_mask_length)`. -/
def new (w : ℕ) (α : Type) (directoryMaskLength : ℕ) : ByteBus w α where
  directoryMask := ⟨w - directoryMaskLength, directoryMaskLength⟩
  table := List.replicate (2 ^ directoryMaskLength)
    ⟨⟨0, w - directoryMaskLength⟩, w - directoryMaskLength, []⟩

/-- `get_vdn(address)`. -/
def getVdn (bus : ByteBus w α) (address : BitVec w) : ℕ := (bus.directoryMask.extractFrom address).toNat

/-- `std::vector::resize` of a page table. -/
def resize (pages : List (Page w α)) (n : ℕ) : List (Page w α) :=
  pages.take n ++ List.replicate (n - pages.length) Page.null

/-- How the inner loop of `map` leaves a directory. -/
inductive Fill where
  /-- A page was mapped already. -/
  | clash
  /-- The directory ends before the object does. -/
  | more
  /-- The whole object is mapped. -/
  | finished

/-- The inner loop of `map`, on the pages from `page_index` on. -/
def fillPages (page : Page w α) (pageSize maxMapSize : ℕ) :
    List (Page w α) → ℕ → List (Page w α) × ℕ × Fill
  | [], mapSize => ([], mapSize, .more)
  | p :: ps, mapSize =>
    if p.object.isSome then (p :: ps, mapSize, .clash)
    else if maxMapSize ≤ mapSize + pageSize then (page :: ps, mapSize + pageSize, .finished)
    else
      let (ps', mapSize', r) := fillPages page pageSize maxMapSize ps (mapSize + pageSize)
      (page :: ps', mapSize', r)

/-- What `map` does to the directory at hand before its pages: resize it and lower its alignment. -/
def openDirectory (d : Directory w α) (alignment : ℕ) : Directory w α :=
  { d with
    pageTable := resize d.pageTable (2 ^ d.pageMask.length)
    optimalAlignment := min d.optimalAlignment alignment }

/-- The index of the page that holds `address + map_size`; the sum is a 64-bit `size_t`. -/
def pageIndex (d : Directory w α) (address : BitVec w) (mapSize : ℕ) : ℕ :=
  (d.pageMask.extractFrom (BitVec.ofNat 64 (address.toNat + mapSize))).toNat

/-- The outer loop of `map`, on the directories from `directory_index` on. -/
def mapDirectories (address : BitVec w) (object : α) (alignment : ℕ) :
    List (Directory w α) → ℕ → List (Directory w α) × Except HostError Unit
  | [], _ => ([], .error .outOfBounds)
  | d :: ds, mapSize =>
    if alignment < d.pageMask.start then
      (d :: ds, .error (.runtimeError "Alignment was smaller than current page size, resizing unsupported."))
    else
      let d' := openDirectory d alignment
      let index := pageIndex d' address mapSize
      let (pages, mapSize', r) := fillPages ⟨address, some object⟩ (2 ^ d'.pageMask.start)
        (size object).toNat (d'.pageTable.drop index) mapSize
      let d'' := { d' with pageTable := d'.pageTable.take index ++ pages }
      match r with
      | .clash => (d'' :: ds, .error (.runtimeError "There was an existing map in the bus."))
      | .finished => (d'' :: ds, .ok ())
      | .more =>
        let (ds', res) := mapDirectories address object alignment ds mapSize'
        (d'' :: ds', res)

/-- `map(address, object)`: what it threw, and the bus it leaves. -/
def map (bus : ByteBus w α) (address : BitVec w) (object : α) : Except HostError Unit × ByteBus w α :=
  if size object = 0 then
    (.error (.runtimeError "Mapping was a zero-sized object - what are you doing?!"), bus)
  else if bus.table.length ≤ bus.getVdn (address + (size object).setWidth w) then
    (.error (.runtimeError "Mapping was outside of the allowable address range."), bus)
  else
    let vdn := bus.getVdn address
    let (ds, res) := mapDirectories size address object (countTrailingZeros (address.setWidth 32))
      (bus.table.drop vdn) 0
    (res, { bus with table := bus.table.take vdn ++ ds })

/-- `get_page(address)`, `none` where the source would index past a table. -/
def getPage (bus : ByteBus w α) (address : BitVec w) : Option (Page w α) :=
  bus.table[bus.getVdn address]?.bind fun d => d.pageTable[(d.pageMask.extractFrom address).toNat]?

/-- The body of the loop of `optimise`, for a directory of `length` address bits. -/
def optimiseDirectory (length : ℕ) (d : Directory w α) : Directory w α :=
  if d.pageMask.start ≠ d.optimalAlignment then
    { d with
      pageMask := ⟨d.optimalAlignment, length - d.optimalAlignment⟩
      pageTable := (List.range (2 ^ (length - d.optimalAlignment))).map fun i =>
        d.pageTable.getD (i * 2 ^ d.optimalAlignment) Page.null }
  else d

/-- `optimise()`. -/
def optimise (bus : ByteBus w α) : ByteBus w α :=
  { bus with table := bus.table.map (optimiseDirectory (w - bus.directoryMask.length)) }

/-- A sequence of `map` calls, up to the first that throws. -/
def mapAll (bus : ByteBus w α) : List (BitVec w × α) → Except HostError (ByteBus w α)
  | [] => .ok bus
  | (address, object) :: ms =>
    match bus.map size address object with
    | (.error e, _) => .error e
    | (.ok (), bus') => mapAll bus' ms

/-! ### Lookup in a table of directories -/

/-- The page that holds address `k`, the directories having `L` address bits each and pages of one byte. -/
def entry (L : ℕ) (ds : List (Directory w α)) (k : ℕ) : Option (Page w α) :=
  ds[k / 2 ^ L]?.bind fun d => d.pageTable[k % 2 ^ L]?

theorem entry_cons (L : ℕ) (d : Directory w α) (ds : List (Directory w α)) (k : ℕ) :
    entry L (d :: ds) k = if k < 2 ^ L then d.pageTable[k]? else entry L ds (k - 2 ^ L) := by
  have hL := Nat.two_pow_pos L
  unfold entry
  split_ifs with hk
  · simp [Nat.div_eq_of_lt hk, Nat.mod_eq_of_lt hk]
  · obtain ⟨j, rfl⟩ := Nat.exists_eq_add_of_le (Nat.le_of_not_lt hk)
    rw [Nat.add_sub_cancel_left, Nat.add_div_left _ hL, Nat.add_mod_left, List.getElem?_cons_succ]

theorem entry_append_left (L : ℕ) (pre ds : List (Directory w α)) (k : ℕ) (hk : k < pre.length * 2 ^ L) :
    entry L (pre ++ ds) k = entry L pre k := by
  unfold entry
  rw [List.getElem?_append_left (Nat.div_lt_of_lt_mul (by rwa [Nat.mul_comm]))]

theorem entry_append_right (L : ℕ) (pre ds : List (Directory w α)) (k : ℕ) :
    entry L (pre ++ ds) (pre.length * 2 ^ L + k) = entry L ds k := by
  have hL := Nat.two_pow_pos L
  unfold entry
  rw [Nat.add_comm, Nat.add_mul_div_right _ _ hL, Nat.add_mul_mod_self_right,
    List.getElem?_append_right (Nat.le_add_left _ _), Nat.add_sub_cancel]

/-! ### One directory -/

/-- A directory that has not been optimised. -/
structure Directory.Unoptimised (L : ℕ) (d : Directory w α) : Prop where
  /-- Its pages are one byte each. -/
  pageMask : d.pageMask = ⟨0, L⟩
  /-- A page of the optimal size fits in it. -/
  optimalAlignment : d.optimalAlignment ≤ L
  /-- It has all its pages, or none yet. -/
  pageTable : d.pageTable.length = 2 ^ L ∨ d.pageTable = []

/-- `d'` is `d` with its `n` pages from `lo` on set to `page`, which is aligned to `alignment` bits. -/
structure Directory.Enters (L : ℕ) (page : Page w α) (alignment lo n : ℕ) (d d' : Directory w α) : Prop where
  /-- It stays as `map` found it. -/
  unoptimised : d'.Unoptimised L
  /-- The alignment only goes down. -/
  lowered : d'.optimalAlignment ≤ d.optimalAlignment
  /-- The new page is aligned. -/
  aligned : d'.optimalAlignment ≤ alignment
  /-- The pages entered. -/
  entered : ∀ i, lo ≤ i → i < lo + n → d'.pageTable[i]? = some page
  /-- The pages that had an object. -/
  kept : ∀ (i : ℕ) (p : Page w α), d.pageTable[i]? = some p → p.object.isSome → d'.pageTable[i]? = some p

/-- What follows the rest of a directory is the first address of the next one. -/
theorem next_directory (L k : ℕ) : (k + (2 ^ L - k % 2 ^ L)) % 2 ^ L = 0 := by
  have hlt := Nat.mod_lt k (Nat.two_pow_pos L)
  rw [Nat.add_mod, ← Nat.add_mod_mod, Nat.mod_mod, Nat.add_mod_mod, Nat.add_sub_cancel' (Nat.le_of_lt hlt), Nat.mod_self]

theorem length_resize (pages : List (Page w α)) (n : ℕ) : (resize pages n).length = n := by
  simp only [resize, List.length_append, List.length_take, List.length_replicate]
  omega

/-- Resizing to no less keeps every page. -/
theorem getElem?_resize {pages : List (Page w α)} {n i : ℕ} {p : Page w α} (hn : pages.length ≤ n)
    (hi : pages[i]? = some p) : (resize pages n)[i]? = some p := by
  obtain ⟨hlt, -⟩ := List.getElem?_eq_some_iff.mp hi
  rw [resize, List.take_of_length_le hn, List.getElem?_append_left hlt, hi]

theorem pageIndex_eq {L : ℕ} {d : Directory w α} (hd : d.pageMask = ⟨0, L⟩) (hL : L ≤ 64) (address : BitVec w)
    (mapSize : ℕ) : pageIndex d address mapSize = (address.toNat + mapSize) % 2 ^ L := by
  rw [pageIndex, hd, Bitfield.toNat_extractFrom, BitVec.toNat_ofNat]
  simp only [Nat.pow_zero, Nat.div_one]
  exact Nat.mod_mod_of_dvd _ (Nat.pow_dvd_pow 2 hL)

/-- Overwriting the `k` elements from `n` on. -/
theorem getElem?_overwrite {β : Type} (l : List β) (b : β) {n k : ℕ} (h : n + k ≤ l.length) (i : ℕ) :
    (l.take n ++ (List.replicate k b ++ (l.drop n).drop k))[i]? =
      if n ≤ i ∧ i < n + k then some b else l[i]? := by
  have htake : (l.take n).length = n := by
    rw [List.length_take]
    omega
  split_ifs with hi
  · rw [List.getElem?_append_right (by omega), htake, List.getElem?_append_left (by simp; omega),
      List.getElem?_replicate, if_pos (by omega)]
  · rcases Nat.lt_or_ge i n with hlt | hge
    · rw [List.getElem?_append_left (by omega), List.getElem?_take_of_lt hlt]
    · rw [List.getElem?_append_right (by omega), htake, List.getElem?_append_right (by simp; omega),
        List.length_replicate, List.getElem?_drop, List.getElem?_drop, show n + (k + (i - n - k)) = i by omega]

/-- The inner loop: it overwrites pages that had no object, until it meets one that has, the directory
ends or the whole object is mapped. -/
theorem fillPages_spec {page : Page w α} {pageSize maxMapSize : ℕ} {ps ps' : List (Page w α)} {m m' : ℕ} {r : Fill}
    (h : fillPages page pageSize maxMapSize ps m = (ps', m', r)) (hm : m < maxMapSize) :
    ∃ k ≤ ps.length, ps' = List.replicate k page ++ ps.drop k ∧ (∀ p ∈ ps.take k, p.object = none) ∧
      m' = m + k * pageSize ∧
      (r = .clash → m' < maxMapSize ∧ ∃ p, ps[k]? = some p ∧ p.object.isSome) ∧
      (r = .finished → ∃ j, k = j + 1 ∧ m + j * pageSize < maxMapSize ∧ maxMapSize ≤ m') ∧
      (r = .more → k = ps.length ∧ m' < maxMapSize) := by
  induction ps generalizing m ps' with
  | nil =>
    simp only [fillPages, Prod.mk.injEq] at h
    obtain ⟨rfl, rfl, rfl⟩ := h
    exact ⟨0, by simp, by simp, by simp, by simp, by simp, by simp, by simp [hm]⟩
  | cons p ps ih =>
    simp only [fillPages] at h
    split_ifs at h with hp hmax
    · simp only [Prod.mk.injEq] at h
      obtain ⟨rfl, rfl, rfl⟩ := h
      exact ⟨0, by simp, by simp, by simp, by simp, fun _ => ⟨hm, p, rfl, hp⟩, by simp, by simp⟩
    · simp only [Prod.mk.injEq] at h
      obtain ⟨rfl, rfl, rfl⟩ := h
      exact ⟨1, by simp, by simp, by simpa using hp, by simp, by simp, fun _ => ⟨0, rfl, by simpa using hm, hmax⟩,
        by simp⟩
    · simp only [Prod.mk.injEq] at h
      obtain ⟨rfl, rfl, rfl⟩ := h
      obtain ⟨k, hk, hps, hnone, hsize, hclash, hfin, hmore⟩ := ih rfl (by omega)
      refine ⟨k + 1, by simpa using hk, by simp [hps, List.replicate_succ], ?_, ?_, hclash, fun hf => ?_,
        fun hf => ?_⟩
      · simp only [List.take_succ_cons, List.mem_cons, forall_eq_or_imp]
        exact ⟨by simpa using hp, hnone⟩
      · rw [hsize, Nat.succ_mul]
        omega
      · obtain ⟨j, rfl, hlt, hle⟩ := hfin hf
        refine ⟨j + 1, rfl, ?_, hle⟩
        rw [Nat.succ_mul]
        omega
      · obtain ⟨hall, hlt⟩ := hmore hf
        exact ⟨by simp [hall], hlt⟩

/-- The inner loop, with pages of one byte: unless it clashes it overwrites as many pages as the object
still needs and the directory still has, none of which had an object. -/
theorem fillPages_one {page : Page w α} {maxMapSize : ℕ} {ps ps' : List (Page w α)} {m m' : ℕ} {r : Fill}
    (h : fillPages page 1 maxMapSize ps m = (ps', m', r)) (hm : m < maxMapSize) :
    ∃ k ≤ ps.length, ps' = List.replicate k page ++ ps.drop k ∧ (∀ p ∈ ps.take k, p.object = none) ∧
      (r = .finished → m + k = maxMapSize) ∧
      (r = .more → m' = m + k ∧ k = ps.length ∧ m' < maxMapSize) := by
  obtain ⟨k, hk, hps, hnone, hsize, -, hfin, hmore⟩ := fillPages_spec h hm
  refine ⟨k, hk, hps, hnone, fun hf => ?_, fun hf => ?_⟩
  · obtain ⟨j, rfl, hlt, hle⟩ := hfin hf
    omega
  · obtain ⟨hall, hlt⟩ := hmore hf
    exact ⟨by omega, hall, hlt⟩

/-- What `map` makes of one directory. -/
theorem enters_of_fillPages {L : ℕ} {d : Directory w α} (hd : d.Unoptimised L) {page : Page w α}
    {alignment index k : ℕ} {pages : List (Page w α)}
    (hk : k ≤ ((openDirectory d alignment).pageTable.drop index).length)
    (hpages : pages = List.replicate k page ++ ((openDirectory d alignment).pageTable.drop index).drop k)
    (hnone : ∀ p ∈ ((openDirectory d alignment).pageTable.drop index).take k, p.object = none)
    (hindex : index < 2 ^ L) :
    Directory.Enters L page alignment index k d
      ⟨⟨0, L⟩, (openDirectory d alignment).optimalAlignment,
        (openDirectory d alignment).pageTable.take index ++ pages⟩ := by
  have hmask : d.pageMask = ⟨0, L⟩ := hd.pageMask
  have hlen : (openDirectory d alignment).pageTable.length = 2 ^ L := by
    simp only [openDirectory, hmask, length_resize]
  have hold : d.pageTable.length ≤ 2 ^ L := by
    rcases hd.pageTable with h | h
    · exact Nat.le_of_eq h
    · simp [h]
  simp only [List.length_drop, hlen] at hk
  have hget := getElem?_overwrite (openDirectory d alignment).pageTable page (n := index) (k := k) (by omega)
  refine ⟨⟨rfl, ?_, .inl ?_⟩, Nat.min_le_left _ _, Nat.min_le_right _ _, fun i hlo hhi => ?_, fun i p hp hobj => ?_⟩
  · exact Nat.le_trans (Nat.min_le_left _ _) hd.optimalAlignment
  · simp only [hpages, List.length_append, List.length_take, List.length_replicate, List.length_drop, hlen]
    omega
  · rw [hpages, hget, if_pos ⟨hlo, hhi⟩]
  · have hres : (openDirectory d alignment).pageTable[i]? = some p := by
      simp only [openDirectory, hmask]
      exact getElem?_resize hold hp
    rw [hpages, hget, if_neg ?_, hres]
    -- The page had an object, so it is not one of the `k` pages overwritten.
    rintro ⟨hge, hlt⟩
    have hmem : p ∈ ((openDirectory d alignment).pageTable.drop index).take k := by
      refine List.mem_of_getElem? (i := i - index) ?_
      rw [List.getElem?_take_of_lt (by omega), List.getElem?_drop, show index + (i - index) = i by omega, hres]
    simp [hnone p hmem] at hobj

/-! ### All directories -/

/-- `ds'` is `ds` with the `n` addresses from `lo` on mapped to `page`. -/
structure Enters (L : ℕ) (page : Page w α) (alignment lo n : ℕ) (ds ds' : List (Directory w α)) : Prop where
  /-- No directory is added or lost. -/
  length : ds'.length = ds.length
  /-- The directories stay as `map` found them. -/
  unoptimised : ∀ d ∈ ds', d.Unoptimised L
  /-- No alignment goes up. -/
  lowered : ∀ (j : ℕ) d d', ds[j]? = some d → ds'[j]? = some d' → d'.optimalAlignment ≤ d.optimalAlignment
  /-- The new page is aligned in each directory it reaches. -/
  aligned : ∀ k, lo ≤ k → k < lo + n → ∀ d', ds'[k / 2 ^ L]? = some d' → d'.optimalAlignment ≤ alignment
  /-- The addresses mapped. -/
  entered : ∀ k, lo ≤ k → k < lo + n → entry L ds' k = some page
  /-- The addresses that had an object. -/
  kept : ∀ k (p : Page w α), entry L ds k = some p → p.object.isSome → entry L ds' k = some p

/-- Nothing entered. -/
theorem Enters.refl {L alignment lo : ℕ} {page : Page w α} {ds : List (Directory w α)}
    (h : ∀ d ∈ ds, d.Unoptimised L) : Enters L page alignment lo 0 ds ds :=
  ⟨rfl, h, fun _ _ _ h1 h2 => Nat.le_of_eq (by rw [Option.some.inj (h1.symm.trans h2)]), fun _ _ _ => by omega,
    fun _ _ _ => by omega, fun _ _ hp _ => hp⟩

/-- The first directory takes what it has room for, the others the rest. -/
theorem Enters.cons {L alignment lo n : ℕ} {page : Page w α} {d d' : Directory w α} {ds ds' : List (Directory w α)}
    (hlt : lo < 2 ^ L) (hd : Directory.Enters L page alignment lo (min n (2 ^ L - lo)) d d')
    (hds : Enters L page alignment 0 (n - (2 ^ L - lo)) ds ds') :
    Enters L page alignment lo n (d :: ds) (d' :: ds') := by
  have hL := Nat.two_pow_pos L
  refine ⟨by simp [hds.length], ?_, ?_, ?_, ?_, ?_⟩
  · simp only [List.mem_cons, forall_eq_or_imp]
    exact ⟨hd.unoptimised, hds.unoptimised⟩
  · intro j a b ha hb
    cases j with
    | zero =>
      simp only [List.getElem?_cons_zero, Option.some.injEq] at ha hb
      exact ha ▸ hb ▸ hd.lowered
    | succ j => exact hds.lowered j a b ha hb
  · intro k hlo hhi b hb
    rcases Nat.lt_or_ge k (2 ^ L) with hk | hk
    · rw [Nat.div_eq_of_lt hk, List.getElem?_cons_zero, Option.some.injEq] at hb
      exact hb ▸ hd.aligned
    · obtain ⟨j, rfl⟩ := Nat.exists_eq_add_of_le hk
      rw [Nat.add_div_left _ hL, List.getElem?_cons_succ] at hb
      exact hds.aligned j (Nat.zero_le _) (by omega) b hb
  · intro k hlo hhi
    rw [entry_cons]
    split_ifs with hk
    · exact hd.entered k hlo (by omega)
    · exact hds.entered _ (Nat.zero_le _) (by omega)
  · intro k p hp hobj
    rw [entry_cons] at hp ⊢
    split_ifs at hp ⊢ with hk
    · exact hd.kept k p hp hobj
    · exact hds.kept _ p hp hobj

/-- Directories before the first one reached. -/
theorem Enters.append {L alignment lo n : ℕ} {page : Page w α} {pre ds ds' : List (Directory w α)}
    (hpre : ∀ d ∈ pre, d.Unoptimised L) (hds : Enters L page alignment lo n ds ds') :
    Enters L page alignment (pre.length * 2 ^ L + lo) n (pre ++ ds) (pre ++ ds') := by
  have hL := Nat.two_pow_pos L
  refine ⟨by simp [hds.length], ?_, ?_, ?_, ?_, ?_⟩
  · simp only [List.mem_append]
    rintro d (hd | hd)
    · exact hpre d hd
    · exact hds.unoptimised d hd
  · intro j a b ha hb
    rcases Nat.lt_or_ge j pre.length with hj | hj
    · rw [List.getElem?_append_left hj] at ha hb
      exact Nat.le_of_eq (by rw [Option.some.inj (ha.symm.trans hb)])
    · rw [List.getElem?_append_right hj] at ha hb
      exact hds.lowered _ a b ha hb
  · intro k hlo hhi b hb
    obtain ⟨j, rfl⟩ := Nat.exists_eq_add_of_le (show pre.length * 2 ^ L ≤ k by omega)
    rw [Nat.add_comm, Nat.add_mul_div_right _ _ hL, List.getElem?_append_right (Nat.le_add_left _ _),
      Nat.add_sub_cancel] at hb
    exact hds.aligned j (by omega) (by omega) b hb
  · intro k hlo hhi
    obtain ⟨j, rfl⟩ := Nat.exists_eq_add_of_le (show pre.length * 2 ^ L ≤ k by omega)
    rw [entry_append_right]
    exact hds.entered j (by omega) (by omega)
  · intro k p hp hobj
    rcases Nat.lt_or_ge k (pre.length * 2 ^ L) with hk | hk
    · rwa [entry_append_left _ _ _ _ hk] at hp ⊢
    · obtain ⟨j, rfl⟩ := Nat.exists_eq_add_of_le hk
      rw [entry_append_right] at hp ⊢
      exact hds.kept j p hp hobj

/-- The outer loop, when it returns. -/
theorem enters_of_mapDirectories {L : ℕ} (hL : L ≤ 64) {address : BitVec w} {object : α} {alignment : ℕ}
    {ds ds' : List (Directory w α)} {mapSize : ℕ} (hds : ∀ d ∈ ds, d.Unoptimised L)
    (hlt : mapSize < (size object).toNat)
    (h : mapDirectories size address object alignment ds mapSize = (ds', .ok ())) :
    Enters L ⟨address, some object⟩ alignment ((address.toNat + mapSize) % 2 ^ L)
      ((size object).toNat - mapSize) ds ds' := by
  induction ds generalizing mapSize ds' with
  | nil => simp [mapDirectories] at h
  | cons d ds ih =>
    have hd : d.Unoptimised L := hds d List.mem_cons_self
    have hopen : (openDirectory d alignment).pageMask = ⟨0, L⟩ := hd.pageMask
    have hlen : (openDirectory d alignment).pageTable.length = 2 ^ L := by
      simp only [openDirectory, hd.pageMask, length_resize]
    have hidx : (address.toNat + mapSize) % 2 ^ L < 2 ^ L := Nat.mod_lt _ (Nat.two_pow_pos _)
    simp only [mapDirectories, hopen, hd.pageMask, Nat.not_lt_zero, if_false, pageIndex_eq hopen hL,
      Nat.pow_zero] at h
    generalize hfill : fillPages ⟨address, some object⟩ 1 (size object).toNat
      ((openDirectory d alignment).pageTable.drop ((address.toNat + mapSize) % 2 ^ L)) mapSize = out at h
    obtain ⟨pages, mapSize', r⟩ := out
    cases r with
    | clash => simp at h
    | finished =>
      obtain ⟨k, hk, hpages, hnone, hfin, -⟩ := fillPages_one hfill hlt
      have := hfin rfl
      simp only [Prod.mk.injEq, and_true] at h
      subst h
      have hroom : (size object).toNat - mapSize = k := by omega
      simp only [List.length_drop, hlen] at hk
      refine Enters.cons hidx ?_ ?_
      · rw [hroom, Nat.min_eq_left hk]
        exact enters_of_fillPages hd (by simpa [hlen] using hk) hpages hnone hidx
      · rw [hroom, Nat.sub_eq_zero_of_le hk]
        exact Enters.refl fun d hd => hds d (List.mem_cons_of_mem _ hd)
    | more =>
      obtain ⟨k, hk, hpages, hnone, -, hmore⟩ := fillPages_one hfill hlt
      obtain ⟨hm', hkall, hlt'⟩ := hmore rfl
      simp only [Prod.mk.injEq] at h
      obtain ⟨rfl, hrest⟩ := h
      have hk' : k = 2 ^ L - (address.toNat + mapSize) % 2 ^ L := by simp [hkall, hlen]
      have htail := ih (fun d hd => hds d (List.mem_cons_of_mem _ hd)) hlt' (Prod.ext rfl hrest)
      have hnext : (address.toNat + mapSize') % 2 ^ L = 0 := by
        rw [hm', hk', ← Nat.add_assoc, next_directory]
      rw [hnext] at htail
      refine Enters.cons hidx ?_ ?_
      · rw [Nat.min_eq_right (by omega), ← hk']
        exact enters_of_fillPages hd hk hpages hnone hidx
      · rw [← hk', show (size object).toNat - mapSize - k = (size object).toNat - mapSize' by omega]
        exact htail

/-! ### Runs of `map` -/

/-- The trailing zeros of a word divide it. -/
theorem two_pow_countTrailingZeros_dvd (v : Uword) : 2 ^ countTrailingZeros v ∣ v.toNat := by
  unfold countTrailingZeros
  split_ifs with hv
  · simp [hv]
  · have hpre := List.takeWhile_prefix (l := List.range 32) fun i => decide (v &&& (1#32 <<< i) = 0)
    generalize hn : ((List.range 32).takeWhile fun i => v &&& (1#32 <<< i) = 0) = zs at hpre ⊢
    rw [Nat.dvd_iff_mod_eq_zero]
    refine Nat.eq_of_testBit_eq fun i => ?_
    rw [Nat.testBit_mod_two_pow, Nat.zero_testBit]
    by_cases hi : i < zs.length
    · have hi32 : i < 32 := Nat.lt_of_lt_of_le hi (by simpa using hpre.length_le)
      have hmem : i ∈ zs := by
        have hget := hpre.getElem hi
        rw [List.getElem_range] at hget
        exact hget ▸ List.getElem_mem hi
      rw [← hn] at hmem
      have hand : v &&& (1#32 <<< i) = 0 := by simpa using List.mem_takeWhile_imp hmem
      have hbit := congrArg (fun u : Uword => u.getLsbD i) hand
      rw [BitVec.testBit_toNat]
      simpa [hi32, hi] using hbit
    · simp [hi]

theorem countTrailingZeros_le (v : Uword) : countTrailingZeros v ≤ 32 := by
  unfold countTrailingZeros
  split_ifs
  · exact Nat.le_refl _
  · exact Nat.le_trans (List.takeWhile_prefix _).length_le (by simp)

/-- The alignment `map` computes divides an address of any width. -/
theorem alignment_dvd (address : BitVec w) : 2 ^ countTrailingZeros (address.setWidth 32) ∣ address.toNat := by
  have h := two_pow_countTrailingZeros_dvd (address.setWidth 32)
  rw [BitVec.toNat_setWidth] at h
  exact (Nat.dvd_mod_iff (Nat.pow_dvd_pow 2 (countTrailingZeros_le _))).mp h

theorem size_pos {object : α} (h : size object ≠ 0) : 0 < (size object).toNat := by
  rw [Nat.pos_iff_ne_zero, Ne, ← BitVec.toNat_zero, BitVec.toNat_inj]
  exact h

/-- A bus on which exactly the mappings `ms` were made. -/
structure Built (directoryMaskLength : ℕ) (ms : List (BitVec w × α)) (bus : ByteBus w α) : Prop where
  /-- The directory bits are the uppermost ones. -/
  directoryMask : bus.directoryMask = ⟨w - directoryMaskLength, directoryMaskLength⟩
  /-- There is a directory for each value of them. -/
  length : bus.table.length = 2 ^ directoryMaskLength
  /-- No directory was optimised. -/
  unoptimised : ∀ d ∈ bus.table, d.Unoptimised (w - directoryMaskLength)
  /-- Each mapping is aligned in each directory it reaches. -/
  aligned : ∀ a o, (a, o) ∈ ms → ∀ k, a.toNat ≤ k → k < a.toNat + (size o).toNat →
    ∀ d, bus.table[k / 2 ^ (w - directoryMaskLength)]? = some d → 2 ^ d.optimalAlignment ∣ a.toNat
  /-- Each mapping is entered on its whole range. -/
  entered : ∀ a o, (a, o) ∈ ms → ∀ k, a.toNat ≤ k → k < a.toNat + (size o).toNat →
    entry (w - directoryMaskLength) bus.table k = some ⟨a, some o⟩

theorem built_new (directoryMaskLength : ℕ) : Built size directoryMaskLength [] (new w α directoryMaskLength) := by
  refine ⟨rfl, by simp [new], fun d hd => ?_, by simp, by simp⟩
  obtain rfl := List.eq_of_mem_replicate hd
  exact ⟨rfl, Nat.le_refl _, .inr rfl⟩

/-- The uppermost bits of an address. -/
theorem vdn_lt_two_pow {directoryMaskLength : ℕ} (hle : directoryMaskLength ≤ w) (address : BitVec w) :
    address.toNat / 2 ^ (w - directoryMaskLength) < 2 ^ directoryMaskLength := by
  refine Nat.div_lt_of_lt_mul ?_
  rw [← Nat.pow_add, Nat.sub_add_cancel hle]
  exact address.isLt

theorem getVdn_eq {directoryMaskLength : ℕ} {bus : ByteBus w α} (hle : directoryMaskLength ≤ w)
    (hmask : bus.directoryMask = ⟨w - directoryMaskLength, directoryMaskLength⟩) (address : BitVec w) :
    bus.getVdn address = address.toNat / 2 ^ (w - directoryMaskLength) := by
  rw [getVdn, hmask, Bitfield.toNat_extractFrom, Nat.mod_eq_of_lt (vdn_lt_two_pow hle address)]

/-- A `map` that returns adds its mapping and disturbs none. -/
theorem Built.map {directoryMaskLength : ℕ} {ms : List (BitVec w × α)} {bus bus' : ByteBus w α}
    {address : BitVec w} {object : α} (hle : directoryMaskLength ≤ w) (hw : w ≤ 64)
    (hb : Built size directoryMaskLength ms bus) (h : bus.map size address object = (.ok (), bus')) :
    Built size directoryMaskLength ((address, object) :: ms) bus' := by
  simp only [ByteBus.map] at h
  split_ifs at h with hsize hvdn
  · simp at h
  · simp at h
  rw [getVdn_eq hle hb.directoryMask] at h
  generalize hds : mapDirectories size address object (countTrailingZeros (address.setWidth 32))
    (bus.table.drop (address.toNat / 2 ^ (w - directoryMaskLength))) 0 = out at h
  obtain ⟨ds, res⟩ := out
  simp only [Prod.mk.injEq] at h
  obtain ⟨rfl, rfl⟩ := h
  have hpos := size_pos size hsize
  have hstart : address.toNat / 2 ^ (w - directoryMaskLength) < bus.table.length := by
    rw [hb.length]
    exact vdn_lt_two_pow hle address
  have hent := enters_of_mapDirectories size (by omega)
    (fun d hd => hb.unoptimised d (List.mem_of_mem_drop hd)) hpos hds
  have htake : ∀ d ∈ bus.table.take (address.toNat / 2 ^ (w - directoryMaskLength)),
      d.Unoptimised (w - directoryMaskLength) :=
    fun d hd => hb.unoptimised d (List.mem_of_mem_take hd)
  have hent := Enters.append htake hent
  rw [List.take_append_drop, List.length_take, Nat.min_eq_left (Nat.le_of_lt hstart), Nat.add_zero,
    Nat.sub_zero, Nat.mul_comm, Nat.div_add_mod] at hent
  refine ⟨hb.directoryMask, hent.length.trans hb.length, hent.unoptimised, ?_, ?_⟩
  · intro a o hm k hlo hhi d' hd'
    rcases List.mem_cons.mp hm with heq | hm
    · obtain ⟨rfl, rfl⟩ := Prod.mk.inj heq
      exact Nat.dvd_trans (Nat.pow_dvd_pow 2 (hent.aligned k hlo hhi d' hd')) (alignment_dvd a)
    · obtain ⟨d, hd⟩ : ∃ d, bus.table[k / 2 ^ (w - directoryMaskLength)]? = some d := by
        have hk := hb.entered a o hm k hlo hhi
        obtain ⟨d, hd, -⟩ := Option.bind_eq_some_iff.mp hk
        exact ⟨d, hd⟩
      exact Nat.dvd_trans (Nat.pow_dvd_pow 2 (hent.lowered _ d d' hd hd')) (hb.aligned a o hm k hlo hhi d hd)
  · intro a o hm k hlo hhi
    rcases List.mem_cons.mp hm with heq | hm
    · obtain ⟨rfl, rfl⟩ := Prod.mk.inj heq
      exact hent.entered k hlo hhi
    · exact hent.kept k _ (hb.entered a o hm k hlo hhi) rfl

theorem Built.mapAll {directoryMaskLength : ℕ} {done ms : List (BitVec w × α)} {bus bus' : ByteBus w α}
    (hle : directoryMaskLength ≤ w) (hw : w ≤ 64) (hb : Built size directoryMaskLength done bus)
    (h : bus.mapAll size ms = .ok bus') : Built size directoryMaskLength (ms.reverse ++ done) bus' := by
  induction ms generalizing done bus with
  | nil =>
    obtain rfl := Except.ok.inj h
    exact hb
  | cons m ms ih =>
    obtain ⟨a, o⟩ := m
    simp only [ByteBus.mapAll] at h
    split at h
    · simp at h
    · rename_i bus₁ hmap
      have := ih (hb.map size hle hw hmap) h
      simpa using this

/-! ### `optimise` -/

theorem optimiseDirectory_optimiseDirectory (length : ℕ) (d : Directory w α) :
    optimiseDirectory length (optimiseDirectory length d) = optimiseDirectory length d := by
  by_cases h : d.pageMask.start = d.optimalAlignment <;> simp [optimiseDirectory, h]

theorem optimise_optimise (bus : ByteBus w α) : bus.optimise.optimise = bus.optimise := by
  simp [optimise, optimiseDirectory_optimiseDirectory]

/-- Optimising again changes nothing. -/
theorem optimise_iterate (bus : ByteBus w α) (n : ℕ) : optimise^[n + 1] bus = bus.optimise := by
  induction n with
  | zero => rfl
  | succ n ih => rw [Function.iterate_succ_apply', ih, optimise_optimise]

theorem getPage_eq_entry {directoryMaskLength : ℕ} {ms : List (BitVec w × α)} {bus : ByteBus w α}
    (hle : directoryMaskLength ≤ w) (hb : Built size directoryMaskLength ms bus) (x : BitVec w) :
    bus.getPage x = entry (w - directoryMaskLength) bus.table x.toNat := by
  rw [getPage, entry, getVdn_eq hle hb.directoryMask]
  cases hd : bus.table[x.toNat / 2 ^ (w - directoryMaskLength)]? with
  | none => rfl
  | some d =>
    simp only [Option.bind_some]
    rw [(hb.unoptimised d (List.mem_of_getElem? hd)).pageMask, Bitfield.toNat_extractFrom]
    simp

/-- A page of an optimised directory is the one byte page at its first address. -/
theorem getElem?_optimiseDirectory {L : ℕ} {d : Directory w α} (hd : d.Unoptimised L)
    (hfull : d.pageTable.length = 2 ^ L) (x : BitVec w) :
    (optimiseDirectory L d).pageTable[((optimiseDirectory L d).pageMask.extractFrom x).toNat]? =
      d.pageTable[x.toNat % 2 ^ L / 2 ^ d.optimalAlignment * 2 ^ d.optimalAlignment]? := by
  have hopt := hd.optimalAlignment
  have hmul : 2 ^ L = 2 ^ d.optimalAlignment * 2 ^ (L - d.optimalAlignment) := by
    rw [← Nat.pow_add, show d.optimalAlignment + (L - d.optimalAlignment) = L by omega]
  unfold optimiseDirectory
  split_ifs with hne
  · rw [Bitfield.toNat_extractFrom]
    have hlt : x.toNat / 2 ^ d.optimalAlignment % 2 ^ (L - d.optimalAlignment) < 2 ^ (L - d.optimalAlignment) :=
      Nat.mod_lt _ (Nat.two_pow_pos _)
    have hin : x.toNat / 2 ^ d.optimalAlignment % 2 ^ (L - d.optimalAlignment) * 2 ^ d.optimalAlignment <
        d.pageTable.length := by
      rw [hfull, hmul, Nat.mul_comm]
      exact Nat.mul_lt_mul_of_pos_left hlt (Nat.two_pow_pos _)
    simp only [List.getElem?_map, List.getElem?_range hlt, Option.map_some]
    rw [hmul, Nat.mod_mul_right_div_self, List.getElem?_eq_getElem hin, List.getD_eq_getElem _ _ hin]
  · have hzero : d.optimalAlignment = 0 := by simpa [hd.pageMask] using (not_not.mp hne).symm
    rw [hd.pageMask, Bitfield.toNat_extractFrom, hzero]
    simp

/-- Rounding down to a multiple of `2 ^ n` keeps the bits from `n` on. -/
theorem round_div {n L : ℕ} (h : n ≤ L) (x : ℕ) : x / 2 ^ n * 2 ^ n / 2 ^ L = x / 2 ^ L := by
  rw [show 2 ^ L = 2 ^ n * 2 ^ (L - n) by rw [← Nat.pow_add, Nat.add_sub_cancel' h], ← Nat.div_div_eq_div_mul,
    Nat.mul_div_cancel _ (Nat.two_pow_pos n), Nat.div_div_eq_div_mul]

theorem round_mod {n L : ℕ} (h : n ≤ L) (x : ℕ) : x / 2 ^ n * 2 ^ n % 2 ^ L = x % 2 ^ L / 2 ^ n * 2 ^ n := by
  rw [show 2 ^ L = 2 ^ n * 2 ^ (L - n) by rw [← Nat.pow_add, Nat.add_sub_cancel' h], Nat.mod_mul_right_div_self,
    Nat.mul_comm (x / 2 ^ n), Nat.mul_mod_mul_left, Nat.mul_comm]

theorem getPage_optimise {directoryMaskLength : ℕ} {ms : List (BitVec w × α)} {bus : ByteBus w α}
    (hle : directoryMaskLength ≤ w) (hb : Built size directoryMaskLength ms bus) {a : BitVec w} {o : α}
    (hm : (a, o) ∈ ms) {x : BitVec w} (hlo : a.toNat ≤ x.toNat) (hhi : x.toNat < a.toNat + (size o).toNat) :
    bus.optimise.getPage x = some ⟨a, some o⟩ := by
  obtain ⟨d, hd, hpage⟩ := Option.bind_eq_some_iff.mp (hb.entered a o hm _ hlo hhi)
  have hun := hb.unoptimised d (List.mem_of_getElem? hd)
  have hfull : d.pageTable.length = 2 ^ (w - directoryMaskLength) := by
    rcases hun.pageTable with h | h
    · exact h
    · simp [h] at hpage
  have hmask : bus.optimise.directoryMask = ⟨w - directoryMaskLength, directoryMaskLength⟩ := hb.directoryMask
  rw [getPage, getVdn_eq hle hmask]
  simp only [optimise, List.getElem?_map, hd, Option.map_some, Option.bind_some, hb.directoryMask]
  rw [getElem?_optimiseDirectory hun hfull]
  -- Rounding `x` down to a page stays in its directory and in the range of the mapping.
  obtain ⟨q, hq⟩ := hb.aligned a o hm _ hlo hhi d hd
  have hpos := Nat.two_pow_pos d.optimalAlignment
  have hle' : x.toNat / 2 ^ d.optimalAlignment * 2 ^ d.optimalAlignment ≤ x.toNat := Nat.div_mul_le_self _ _
  have hge : a.toNat ≤ x.toNat / 2 ^ d.optimalAlignment * 2 ^ d.optimalAlignment := by
    rw [hq, Nat.mul_comm]
    refine Nat.mul_le_mul_right _ ((Nat.le_div_iff_mul_le hpos).mpr ?_)
    rwa [Nat.mul_comm, ← hq]
  have hround := hb.entered a o hm _ hge (Nat.lt_of_le_of_lt hle' hhi)
  rw [entry, round_div hun.optimalAlignment, hd, Option.bind_some, round_mod hun.optimalAlignment] at hround
  exact hround

/-- `optimise`, any number of times, leaves what `get_page` returns inside the mapped ranges, and the
page is never culled. `w` is the width of an unsigned C++ type; where it makes a mask of `w` bits
(no directory bits, or nothing else), `1 << w` is read as 0. -/
theorem getPage_optimise_iterate {directoryMaskLength : ℕ} {ms : List (BitVec w × α)} {bus : ByteBus w α}
    (hw : w ≤ 64) (hle : directoryMaskLength ≤ w) (h : (new w α directoryMaskLength).mapAll size ms = .ok bus)
    {a : BitVec w} {o : α} (hm : (a, o) ∈ ms) {x : BitVec w} (hlo : a.toNat ≤ x.toNat)
    (hhi : x.toNat < a.toNat + (size o).toNat) (n : ℕ) :
    (optimise^[n] bus).getPage x = bus.getPage x ∧ bus.getPage x = some ⟨a, some o⟩ := by
  have hb := Built.mapAll size hle hw (built_new size directoryMaskLength) h
  have hm' : (a, o) ∈ ms.reverse ++ [] := by simpa using hm
  have hbefore : bus.getPage x = some ⟨a, some o⟩ := by
    rw [getPage_eq_entry size hle hb]
    exact hb.entered a o hm' _ hlo hhi
  refine ⟨?_, hbefore⟩
  cases n with
  | zero => rfl
  | succ n => rw [optimise_iterate, hbefore, getPage_optimise size hle hb hm' hlo hhi]

/-- An object over two directories beside a smaller one. -/
theorem getPage_optimise_iterate_twoObjects :
    ∃ bus, (new 8 Bool 4).mapAll (fun o => if o then 20 else 4) [(0x28, true), (0x3C, false)] = .ok bus ∧
      (optimise^[2] bus).getPage 0x37 = bus.getPage 0x37 ∧ bus.getPage 0x37 = some ⟨0x28, some true⟩ := by
  obtain ⟨bus, h⟩ : ∃ bus, (new 8 Bool 4).mapAll (fun o => if o then 20 else 4)
    [(0x28, true), (0x3C, false)] = .ok bus := ⟨_, rfl⟩
  exact ⟨bus, h, getPage_optimise_iterate _ (by decide) (by decide) h List.mem_cons_self (by decide) (by decide) 2⟩

end ByteBus

end Orbum
