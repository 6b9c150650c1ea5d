import Orbum.Common.ByteBus
import Mathlib.Data.List.Forall2

/-!
# Mapping onto the byte bus

`ByteBus::map` checks each page when it comes to it, and its range check looks at a sum that has
wrapped: what it throws may leave the object entered in part, and an object that runs past the top of
the address space indexes past the directories. This is about every bus that `map` and `optimise` can
make, so directories have pages of any size.

## The model

- `Directory.page d k` is the page of the directory `d` that holds its address `k`.
- `Turn` is what one turn of the outer loop of `map` does to a directory, `Outcome` what the loop does
  to the directories it reaches.
- `AllOrNothing` is the law, `Foreseen` what must be so before the call for it to hold.
-/

namespace Orbum.ByteBus

variable {w : ℕ} {α : Type} (size : α → Uword)

/-! ### One directory -/

/-- The page that holds the address `k` of a directory. -/
def Directory.page (d : Directory w α) (k : ℕ) : Option (Page w α) := d.pageTable[k / 2 ^ d.pageMask.start]?

/-- No object is mapped at the address `k` of a directory. -/
def Directory.Free (d : Directory w α) (k : ℕ) : Prop := ∀ p, d.page k = some p → p.object = none

/-- A directory of `L` address bits. -/
structure Directory.Wf (L : ℕ) (d : Directory w α) : Prop where
  /-- A page fits in it. -/
  start : d.pageMask.start ≤ L
  /-- The other address bits select a page. -/
  length : d.pageMask.length = L - d.pageMask.start
  /-- A page of the optimal size fits in it. -/
  optimalAlignment : d.optimalAlignment ≤ L
  /-- It has all its pages, or none yet. -/
  pageTable : d.pageTable.length = 2 ^ (L - d.pageMask.start) ∨ d.pageTable = []

/-- `d'` has the pages of `d` that have an object. -/
structure Directory.Keeps (L : ℕ) (d d' : Directory w α) : Prop where
  /-- It is a directory still. -/
  wf : d'.Wf L
  /-- The pages with an object. -/
  kept : ∀ k (p : Page w α), d.page k = some p → p.object.isSome → d'.page k = some p

/-- The address bits of a directory are those within a page and those that select one. -/
theorem Directory.Wf.two_pow {L : ℕ} {d : Directory w α} (hd : d.Wf L) :
    2 ^ L = 2 ^ d.pageMask.start * 2 ^ (L - d.pageMask.start) := by
  rw [← Nat.pow_add, Nat.add_sub_cancel' hd.start]

/-- The page an address of any width selects. -/
theorem Directory.Wf.toNat_extractFrom {L n : ℕ} {d : Directory w α} (hd : d.Wf L) (x : BitVec n) :
    (d.pageMask.extractFrom x).toNat = x.toNat % 2 ^ L / 2 ^ d.pageMask.start := by
  rw [Bitfield.toNat_extractFrom, hd.length, ← Nat.mod_mul_right_div_self, ← hd.two_pow]

theorem Directory.not_free {d : Directory w α} {k : ℕ} :
    ¬ d.Free k ↔ ∃ p, d.page k = some p ∧ p.object.isSome := by
  simp [Directory.Free, Option.isSome_iff_ne_none]

section Fill

variable {L : ℕ} {d : Directory w α} (hd : d.Wf L) (alignment : ℕ)
include hd

theorem Directory.Wf.length_openDirectory :
    (openDirectory d alignment).pageTable.length = 2 ^ (L - d.pageMask.start) := by
  simp only [openDirectory, length_resize, hd.length]

/-- Opening a directory keeps its pages. -/
theorem Directory.Wf.page_openDirectory {k : ℕ} {p : Page w α} (hp : d.page k = some p) :
    (openDirectory d alignment).page k = some p := by
  refine getElem?_resize ?_ hp
  rcases hd.pageTable with h | h <;> simp [h, hd.length]

/-- The pages it adds have no object. -/
theorem Directory.Wf.free_of_openDirectory {k : ℕ} (h : (openDirectory d alignment).Free k) : d.Free k :=
  fun p hp => h p (hd.page_openDirectory alignment hp)

theorem Directory.Wf.pageTable_openDirectory (h : d.pageTable ≠ []) :
    (openDirectory d alignment).pageTable = d.pageTable := by
  have hlen := hd.pageTable.resolve_right h
  simp [openDirectory, resize, hd.length, ← hlen]

theorem Directory.Wf.not_free_of_openDirectory {k : ℕ} (h : ¬ (openDirectory d alignment).Free k) : ¬ d.Free k := by
  obtain ⟨p, hp, hobj⟩ := Directory.not_free.mp h
  by_cases hnil : d.pageTable = []
  · -- A directory that has no pages is given null ones.
    simp only [Directory.page, openDirectory, resize, hnil, List.take_nil, List.nil_append] at hp
    obtain rfl := List.eq_of_mem_replicate (List.mem_of_getElem? hp)
    simp [Page.null] at hobj
  · rw [Directory.page, hd.pageTable_openDirectory alignment hnil] at hp
    exact Directory.not_free.mpr ⟨p, hp, hobj⟩

variable {alignment} {page : Page w α} {q : ℕ} {pages : List (Page w α)}

/-- Opening changes nothing where an object is mapped and the alignment is no smaller than any before. -/
theorem Directory.Wf.openDirectory_of_taken {k : ℕ} (htaken : ¬ d.Free k) (hal : d.optimalAlignment ≤ alignment) :
    openDirectory d alignment = d := by
  obtain ⟨p, hp, -⟩ := Directory.not_free.mp htaken
  have hnil : d.pageTable ≠ [] := by
    intro hnil
    simp [Directory.page, hnil] at hp
  have htable := hd.pageTable_openDirectory alignment hnil
  simp only [openDirectory] at htable
  rw [openDirectory, htable, Nat.min_eq_left hal]

/-- The directory with the pages from `q` on that the inner loop left. -/
def refill (d : Directory w α) (alignment q : ℕ) (pages : List (Page w α)) : Directory w α :=
  { openDirectory d alignment with pageTable := (openDirectory d alignment).pageTable.take q ++ pages }

/-- What the inner loop makes of the directory: `k` pages from `q` on are overwritten, and none of them
had an object. -/
theorem Directory.Wf.refill_spec {k : ℕ} (hk : q + k ≤ 2 ^ (L - d.pageMask.start))
    (hpages : pages = List.replicate k page ++ ((openDirectory d alignment).pageTable.drop q).drop k)
    (hfree : ∀ p ∈ ((openDirectory d alignment).pageTable.drop q).take k, p.object = none) :
    d.Keeps L (refill d alignment q pages) ∧
    ∀ a, q * 2 ^ d.pageMask.start ≤ a → a < (q + k) * 2 ^ d.pageMask.start →
      d.Free a ∧ (refill d alignment q pages).page a = some page := by
  have hlen := hd.length_openDirectory alignment
  have hpos := Nat.two_pow_pos d.pageMask.start
  have hget := getElem?_overwrite (openDirectory d alignment).pageTable page (n := q) (k := k) (by omega)
  have hfree' : ∀ i, q ≤ i → i < q + k → ∀ p, (openDirectory d alignment).pageTable[i]? = some p → p.object = none := by
    intro i hlo hhi p hp
    refine hfree p (List.mem_of_getElem? (i := i - q) ?_)
    rw [List.getElem?_take_of_lt (by omega), List.getElem?_drop, show q + (i - q) = i by omega, hp]
  refine ⟨⟨⟨hd.start, hd.length, ?_, .inl ?_⟩, fun a p hp hobj => ?_⟩, fun a hlo hhi => ⟨?_, ?_⟩⟩
  · exact Nat.le_trans (Nat.min_le_left _ _) hd.optimalAlignment
  · simp only [refill, hpages, List.length_append, List.length_take, List.length_replicate, List.length_drop, hlen]
    simp only [openDirectory]
    omega
  · have hopen := hd.page_openDirectory alignment hp
    simp only [Directory.page, refill, hpages, hget]
    rw [if_neg ?_]
    · exact hopen
    · rintro ⟨hge, hlt⟩
      simp [hfree' _ hge hlt p hopen] at hobj
  · refine hd.free_of_openDirectory alignment (hfree' _ ((Nat.le_div_iff_mul_le hpos).mpr hlo) ?_)
    exact (Nat.div_lt_iff_lt_mul hpos).mpr hhi
  · simp only [Directory.page, refill, hpages, hget]
    exact if_pos ⟨(Nat.le_div_iff_mul_le hpos).mpr hlo, (Nat.div_lt_iff_lt_mul hpos).mpr hhi⟩

/-- Where the inner loop stops at a page with an object, the directory is as before if it is the first
page and the alignment is not lowered. -/
theorem Directory.Wf.refill_eq_iff {k : ℕ} (hk : q + k ≤ 2 ^ (L - d.pageMask.start))
    (hpages : pages = List.replicate k page ++ ((openDirectory d alignment).pageTable.drop q).drop k)
    (hfree : ∀ p ∈ ((openDirectory d alignment).pageTable.drop q).take k, p.object = none)
    (hobj : page.object.isSome) (htaken : ¬ d.Free ((q + k) * 2 ^ d.pageMask.start)) :
    refill d alignment q pages = d ↔ ¬ d.Free (q * 2 ^ d.pageMask.start) ∧ d.optimalAlignment ≤ alignment := by
  have hfirst : 0 < k → d.Free (q * 2 ^ d.pageMask.start) ∧
      (refill d alignment q pages).page (q * 2 ^ d.pageMask.start) = some page := fun hk0 =>
    (hd.refill_spec hk hpages hfree).2 _ (Nat.le_refl _)
      (Nat.mul_lt_mul_of_pos_right (by omega) (Nat.two_pow_pos _))
  constructor
  · intro heq
    have hopt : min d.optimalAlignment alignment = d.optimalAlignment := congrArg Directory.optimalAlignment heq
    refine ⟨?_, by omega⟩
    rcases Nat.eq_zero_or_pos k with rfl | hk0
    · exact htaken
    · have hpage := (hfirst hk0).2
      rw [heq] at hpage
      exact Directory.not_free.mpr ⟨page, hpage, hobj⟩
  · rintro ⟨hnot, hal⟩
    obtain rfl : k = 0 := Nat.eq_zero_of_not_pos fun hk0 => hnot (hfirst hk0).1
    have hopen := hd.openDirectory_of_taken hnot hal
    rw [hopen, List.replicate_zero, List.nil_append, List.drop_zero] at hpages
    rw [refill, hopen, hpages, List.take_append_drop]

end Fill

/-- What a turn of the outer loop of `map` does to a directory `d`, with `n` bytes of the object to come
from the address `lo` of the directory on. -/
inductive Turn (L alignment : ℕ) (page : Page w α) (lo n : ℕ) (d d' : Directory w α) : Fill → Prop
  /-- The rest of the object is in the directory. -/
  | finished (fits : lo + n ≤ 2 ^ L)
      (mapped : ∀ k, lo ≤ k → k < lo + n → d.Free k ∧ d'.page k = some page) : Turn L alignment page lo n d d' .finished
  /-- The object takes the rest of the directory. -/
  | more (past : 2 ^ L < lo + n)
      (mapped : ∀ k, lo ≤ k → k < 2 ^ L → d.Free k ∧ d'.page k = some page) : Turn L alignment page lo n d d' .more
  /-- An address is taken. Nothing is changed if it is the first, and the alignment no smaller than what
  the directory has seen. -/
  | clash (k : ℕ) (lower : lo ≤ k) (upper : k < lo + n) (inside : k < 2 ^ L) (taken : ¬ d.Free k)
      (unchanged : d' = d ↔ ¬ d.Free lo ∧ d.optimalAlignment ≤ alignment) : Turn L alignment page lo n d d' .clash

/-- One turn of the outer loop, on the address `lo` of a directory, `m` bytes of the object being mapped. -/
theorem Directory.Wf.turn {L alignment lo m m' maxMapSize : ℕ} {d : Directory w α} (hd : d.Wf L) {address : BitVec w}
    {object : α} {pages : List (Page w α)} {r : Fill} (hlo : lo < 2 ^ L) (hdvd : 2 ^ d.pageMask.start ∣ lo)
    (hm : m < maxMapSize)
    (h : fillPages ⟨address, some object⟩ (2 ^ d.pageMask.start) maxMapSize
      ((openDirectory d alignment).pageTable.drop (lo / 2 ^ d.pageMask.start)) m = (pages, m', r)) :
    d.Keeps L (refill d alignment (lo / 2 ^ d.pageMask.start) pages) ∧
    Turn L alignment ⟨address, some object⟩ lo (maxMapSize - m) d
      (refill d alignment (lo / 2 ^ d.pageMask.start) pages) r ∧
    (r = .more → m' = m + (2 ^ L - lo)) := by
  obtain ⟨q, rfl⟩ := hdvd
  have hpos := Nat.two_pow_pos d.pageMask.start
  have hL := hd.two_pow.trans (Nat.mul_comm _ _)
  have hlen := hd.length_openDirectory alignment
  rw [Nat.mul_div_cancel_left q hpos] at h ⊢
  rw [Nat.mul_comm] at hlo ⊢
  have hq : q < 2 ^ (L - d.pageMask.start) := Nat.lt_of_mul_lt_mul_right (hL ▸ hlo)
  obtain ⟨k, hk, hpages, hnone, hsize, hclash, hfin, hmore⟩ := fillPages_spec h hm
  rw [List.length_drop, hlen] at hk
  obtain ⟨hkeeps, hmapped⟩ := hd.refill_spec (q := q) (by omega) hpages hnone
  rw [Nat.add_mul] at hmapped
  have hroom : q * 2 ^ d.pageMask.start + k * 2 ^ d.pageMask.start ≤ 2 ^ L := by
    rw [hL, ← Nat.add_mul]
    exact Nat.mul_le_mul_right _ (by omega)
  have hfull : r = .more → q * 2 ^ d.pageMask.start + k * 2 ^ d.pageMask.start = 2 ^ L := by
    intro hr
    rw [hL, ← Nat.add_mul, (hmore hr).1, List.length_drop, hlen, Nat.add_sub_cancel' (by omega)]
  refine ⟨hkeeps, ?_, fun hr => by have := hfull hr; omega⟩
  cases r with
  | finished =>
    obtain ⟨-, -, -, hall⟩ := hfin rfl
    exact .finished (by omega) fun a hge hlt => hmapped a hge (by omega)
  | more =>
    have hend := hfull rfl
    obtain ⟨-, hlt⟩ := hmore rfl
    exact .more (by omega) fun a hge hlt' => hmapped a hge (by omega)
  | clash =>
    obtain ⟨hlt, p, hp, hobj⟩ := hclash rfl
    rw [List.getElem?_drop] at hp
    have htaken : ¬ d.Free ((q + k) * 2 ^ d.pageMask.start) := by
      refine hd.not_free_of_openDirectory alignment (Directory.not_free.mpr ⟨p, ?_, hobj⟩)
      rw [Directory.page, show (openDirectory d alignment).pageMask = d.pageMask from rfl,
        Nat.mul_div_cancel _ hpos, hp]
    have hinside : q + k < 2 ^ (L - d.pageMask.start) := hlen ▸ (List.getElem?_eq_some_iff.mp hp).1
    have hunchanged := hd.refill_eq_iff (q := q) (by omega) hpages hnone rfl htaken
    rw [Nat.add_mul] at htaken
    refine .clash _ (Nat.le_add_right _ _) (by omega) ?_ htaken hunchanged
    rw [← Nat.add_mul, hL]
    exact Nat.mul_lt_mul_of_pos_right hinside hpos

/-! ### All directories -/

/-- Each of the `n` addresses from `lo` on is in one of the directories, and `P` holds of it there. -/
def Throughout (L : ℕ) (P : Directory w α → ℕ → Prop) (lo n : ℕ) (ds : List (Directory w α)) : Prop :=
  ∀ k, lo ≤ k → k < lo + n → ∃ d, ds[k / 2 ^ L]? = some d ∧ P d (k % 2 ^ L)

section Throughout

variable {L lo n : ℕ} {P : Directory w α → ℕ → Prop}

theorem not_throughout_nil (hn : 0 < n) : ¬ Throughout L P lo n [] := by
  intro h
  obtain ⟨d, hd, -⟩ := h lo (Nat.le_refl _) (by omega)
  simp at hd

/-- The first directory has some of the addresses, the others the rest. -/
theorem throughout_cons {d : Directory w α} {ds : List (Directory w α)} (hlo : lo < 2 ^ L) :
    Throughout L P lo n (d :: ds) ↔
      (∀ k, lo ≤ k → k < lo + n → k < 2 ^ L → P d k) ∧ Throughout L P 0 (n - (2 ^ L - lo)) ds := by
  have hL := Nat.two_pow_pos L
  constructor
  · refine fun h => ⟨fun k hge hlt hin => ?_, fun k _ hlt => ?_⟩
    · obtain ⟨d', hd', hP⟩ := h k hge hlt
      rw [Nat.div_eq_of_lt hin, List.getElem?_cons_zero] at hd'
      obtain rfl := Option.some.inj hd'
      rwa [Nat.mod_eq_of_lt hin] at hP
    · have := h (2 ^ L + k) (by omega) (by omega)
      rwa [Nat.add_div_left _ hL, List.getElem?_cons_succ, Nat.add_mod_left] at this
  · rintro ⟨hd, hds⟩ k hge hlt
    rcases Nat.lt_or_ge k (2 ^ L) with hin | hout
    · rw [Nat.div_eq_of_lt hin, Nat.mod_eq_of_lt hin]
      exact ⟨d, rfl, hd k hge hlt hin⟩
    · obtain ⟨j, rfl⟩ := Nat.exists_eq_add_of_le hout
      rw [Nat.add_div_left _ hL, List.getElem?_cons_succ, Nat.add_mod_left]
      exact hds j (Nat.zero_le _) (by omega)

/-- The directories before the first address do not matter. -/
theorem throughout_drop {ds : List (Directory w α)} :
    Throughout L P (lo % 2 ^ L) n (ds.drop (lo / 2 ^ L)) ↔ Throughout L P lo n ds := by
  have hL := Nat.two_pow_pos L
  have hlo := Nat.div_add_mod lo (2 ^ L)
  have hshift : ∀ k, (2 ^ L * (lo / 2 ^ L) + k) / 2 ^ L = lo / 2 ^ L + k / 2 ^ L := fun k => by
    rw [Nat.mul_add_div hL]
  constructor
  · intro h k hge hlt
    obtain ⟨j, rfl⟩ := Nat.exists_eq_add_of_le (Nat.le_trans (Nat.mul_div_le lo (2 ^ L)) hge)
    have := h j (by omega) (by omega)
    rwa [List.getElem?_drop, ← hshift, ← Nat.mul_add_mod (2 ^ L) (lo / 2 ^ L) j] at this
  · intro h k hge hlt
    have := h (2 ^ L * (lo / 2 ^ L) + k) (by omega) (by omega)
    rwa [hshift, Nat.mul_add_mod, ← List.getElem?_drop] at this

/-- A single address. -/
theorem throughout_one {ds : List (Directory w α)} :
    Throughout L P lo 1 ds ↔ ∃ d, ds[lo / 2 ^ L]? = some d ∧ P d (lo % 2 ^ L) := by
  refine ⟨fun h => h lo (Nat.le_refl _) (Nat.lt_succ_self _), fun h k hge hlt => ?_⟩
  obtain rfl : k = lo := by omega
  exact h

theorem throughout_one_cons {d : Directory w α} {ds : List (Directory w α)} (hlo : lo < 2 ^ L) :
    Throughout L P lo 1 (d :: ds) ↔ P d lo := by
  rw [throughout_one, Nat.div_eq_of_lt hlo, Nat.mod_eq_of_lt hlo]
  simp

end Throughout

/-- The address `k` of a directory can be mapped at the alignment. -/
def Directory.Open (alignment : ℕ) (d : Directory w α) (k : ℕ) : Prop := d.pageMask.start ≤ alignment ∧ d.Free k

/-- A mapping from the address `k` of a directory on throws there before it changes anything. -/
def Directory.Shut (alignment : ℕ) (d : Directory w α) (k : ℕ) : Prop :=
  alignment < d.pageMask.start ∨ ¬ d.Free k ∧ d.optimalAlignment ≤ alignment

theorem Directory.Shut.not_open {alignment k : ℕ} {d : Directory w α} (h : d.Shut alignment k) :
    ¬ d.Open alignment k := by
  rintro ⟨hstart, hfree⟩
  rcases h with h | ⟨hnot, -⟩
  · exact absurd hstart (Nat.not_le.mpr h)
  · exact hnot hfree

/-- What the outer loop of `map` does to the directories `ds`, with `n` bytes of the object to come from
their address `lo` on. -/
inductive Outcome (L alignment : ℕ) (page : Page w α) (lo n : ℕ) (ds ds' : List (Directory w α)) :
    Except HostError Unit → Prop
  /-- Every address could be mapped, and is. -/
  | maps (opened : Throughout L (Directory.Open alignment) lo n ds)
      (mapped : Throughout L (fun d k => d.page k = some page) lo n ds') :
      Outcome L alignment page lo n ds ds' (.ok ())
  /-- Some address could not, and nothing is changed if the first is shut. -/
  | throws (text : String) (closed : ¬ Throughout L (Directory.Open alignment) lo n ds)
      (unchanged : ds' = ds ↔ Throughout L (Directory.Shut alignment) lo 1 ds) :
      Outcome L alignment page lo n ds ds' (.error (.runtimeError text))
  /-- The object runs past the directories. -/
  | outOfBounds (closed : ¬ Throughout L (Directory.Open alignment) lo n ds)
      (notShut : ¬ Throughout L (Directory.Shut alignment) lo 1 ds) :
      Outcome L alignment page lo n ds ds' (.error .outOfBounds)

theorem Directory.Wf.pageIndex_openDirectory {L : ℕ} {d : Directory w α} (hd : d.Wf L) (hL : L ≤ 64)
    (alignment : ℕ) (address : BitVec w) (mapSize : ℕ) :
    pageIndex (openDirectory d alignment) address mapSize =
      (address.toNat + mapSize) % 2 ^ L / 2 ^ d.pageMask.start := by
  rw [pageIndex, show (openDirectory d alignment).pageMask = d.pageMask from rfl, hd.toNat_extractFrom,
    BitVec.toNat_ofNat, Nat.mod_mod_of_dvd _ (Nat.pow_dvd_pow 2 hL)]

theorem Directory.Wf.keeps_self {L : ℕ} {d : Directory w α} (hd : d.Wf L) : d.Keeps L d := ⟨hd, fun _ _ hp _ => hp⟩

/-- After a directory the object takes the rest of, the others decide. -/
theorem Outcome.cons {L alignment lo n : ℕ} {page : Page w α} {d d' : Directory w α} {ds ds' : List (Directory w α)}
    {res : Except HostError Unit} (hlo : lo < 2 ^ L) (hstart : d.pageMask.start ≤ alignment)
    (hobj : page.object.isSome) (hmapped : ∀ k, lo ≤ k → k < 2 ^ L → d.Free k ∧ d'.page k = some page)
    (h : Outcome L alignment page 0 (n - (2 ^ L - lo)) ds ds' res) :
    Outcome L alignment page lo n (d :: ds) (d' :: ds') res := by
  obtain ⟨hfree, hpage⟩ := hmapped lo (Nat.le_refl _) hlo
  have hshut : ¬ d.Shut alignment lo := fun hs => hs.not_open ⟨hstart, hfree⟩
  have hne : d' ≠ d := by
    rintro rfl
    exact Directory.not_free.mpr ⟨page, hpage, hobj⟩ hfree
  cases h with
  | maps hopened htail =>
    exact .maps ((throughout_cons hlo).mpr ⟨fun k hge _ hin => ⟨hstart, (hmapped k hge hin).1⟩, hopened⟩)
      ((throughout_cons hlo).mpr ⟨fun k hge _ hin => (hmapped k hge hin).2, htail⟩)
  | throws text hclosed _ =>
    refine .throws text (fun h => hclosed ((throughout_cons hlo).mp h).2) (iff_of_false ?_ ?_)
    · exact fun heq => hne (List.cons.inj heq).1
    · exact fun h => hshut ((throughout_one_cons hlo).mp h)
  | outOfBounds hclosed _ =>
    exact .outOfBounds (fun h => hclosed ((throughout_cons hlo).mp h).2) fun h => hshut ((throughout_one_cons hlo).mp h)

/-- The directory at hand throws, before it changes anything or after. -/
theorem Outcome.throws_first {L alignment lo n k : ℕ} {page : Page w α} {d d' : Directory w α}
    {ds : List (Directory w α)} (text : String) (hlo : lo < 2 ^ L) (hge : lo ≤ k) (hlt : k < lo + n) (hin : k < 2 ^ L)
    (hclosed : ¬ d.Open alignment k) (hunchanged : d' = d ↔ d.Shut alignment lo) :
    Outcome L alignment page lo n (d :: ds) (d' :: ds) (.error (.runtimeError text)) := by
  refine .throws text (fun h => hclosed (((throughout_cons hlo).mp h).1 k hge hlt hin)) ?_
  rw [throughout_one_cons hlo, ← hunchanged, List.cons.injEq, eq_self_iff_true, and_true]

/-- The outer loop. -/
theorem outcome_mapDirectories {L alignment mapSize : ℕ} {address : BitVec w} {object : α}
    {ds ds' : List (Directory w α)} {res : Except HostError Unit} (hL : L ≤ 64) (hds : ∀ d ∈ ds, d.Wf L)
    (hm : mapSize < (size object).toNat)
    (hdvd : ∀ s ≤ alignment, s ≤ L → 2 ^ s ∣ (address.toNat + mapSize) % 2 ^ L)
    (h : mapDirectories size address object alignment ds mapSize = (ds', res)) :
    List.Forall₂ (Directory.Keeps L) ds ds' ∧
    Outcome L alignment ⟨address, some object⟩ ((address.toNat + mapSize) % 2 ^ L)
      ((size object).toNat - mapSize) ds ds' res := by
  induction ds generalizing mapSize ds' res with
  | nil =>
    simp only [mapDirectories, Prod.mk.injEq] at h
    obtain ⟨rfl, rfl⟩ := h
    exact ⟨.nil, .outOfBounds (not_throughout_nil (by omega)) (not_throughout_nil Nat.one_pos)⟩
  | cons d ds ih =>
    have hd := hds d List.mem_cons_self
    have hrest := List.forall₂_same.mpr fun d' hd' => (hds d' (List.mem_cons_of_mem _ hd')).keeps_self
    have hlo : (address.toNat + mapSize) % 2 ^ L < 2 ^ L := Nat.mod_lt _ (Nat.two_pow_pos L)
    by_cases hstart : alignment < d.pageMask.start
    · simp only [mapDirectories, if_pos hstart, Prod.mk.injEq] at h
      obtain ⟨rfl, rfl⟩ := h
      refine ⟨.cons hd.keeps_self hrest, .throws_first _ hlo (Nat.le_refl _) (by omega) hlo ?_ ?_⟩
      · exact fun hopen => absurd hopen.1 (Nat.not_le.mpr hstart)
      · exact iff_of_true rfl (.inl hstart)
    have hstart' := Nat.le_of_not_lt hstart
    simp only [mapDirectories, if_neg hstart, hd.pageIndex_openDirectory hL] at h
    generalize hfill : fillPages _ _ _ _ _ = out at h
    obtain ⟨pages, mapSize', r⟩ := out
    obtain ⟨hkeeps, hturn, hmore⟩ := hd.turn hlo (hdvd _ hstart' hd.start) hm hfill
    simp only at h
    cases hturn with
    | finished hfits hmapped =>
      simp only [Prod.mk.injEq] at h
      obtain ⟨rfl, rfl⟩ := h
      refine ⟨.cons hkeeps hrest, .maps ((throughout_cons hlo).mpr ⟨fun k hge hlt _ => ?_, ?_⟩)
        ((throughout_cons hlo).mpr ⟨fun k hge hlt _ => (hmapped k hge hlt).2, ?_⟩)⟩
      · exact ⟨hstart', (hmapped k hge hlt).1⟩
      · exact fun k _ hlt => by omega
      · exact fun k _ hlt => by omega
    | clash k hge hlt hin htaken hunchanged =>
      simp only [Prod.mk.injEq] at h
      obtain ⟨rfl, rfl⟩ := h
      refine ⟨.cons hkeeps hrest, .throws_first _ hlo hge hlt hin (fun hopen => htaken hopen.2) ?_⟩
      rw [Directory.Shut, or_iff_right hstart]
      exact hunchanged
    | more hpast hmapped =>
      have hm' := hmore rfl
      simp only [Prod.mk.injEq] at h
      obtain ⟨rfl, rfl⟩ := h
      have hnext : (address.toNat + mapSize') % 2 ^ L = 0 := by
        rw [hm', ← Nat.add_assoc, next_directory]
      have hlt' : mapSize' < (size object).toNat := by omega
      have htail := ih (fun d' hd' => hds d' (List.mem_cons_of_mem _ hd')) hlt'
        (fun s _ _ => by rw [hnext]; exact Nat.dvd_zero _) rfl
      rw [hnext, show (size object).toNat - mapSize' = (size object).toNat - mapSize -
        (2 ^ L - (address.toNat + mapSize) % 2 ^ L) by omega] at htail
      exact ⟨.cons hkeeps htail.1, .cons hlo hstart' rfl hmapped htail.2⟩

/-! ### Every bus -/

/-- A bus of `directoryMaskLength` directory bits. -/
structure Wf (directoryMaskLength : ℕ) (bus : ByteBus w α) : Prop where
  /-- The directory bits are the uppermost ones. -/
  directoryMask : bus.directoryMask = ⟨w - directoryMaskLength, directoryMaskLength⟩
  /-- There is a directory for each value of them. -/
  length : bus.table.length = 2 ^ directoryMaskLength
  /-- The directories have the other bits. -/
  directories : ∀ d ∈ bus.table, d.Wf (w - directoryMaskLength)

/-- The buses that `map` and `optimise` make of a new one; a `map` may have thrown. -/
inductive Reachable (directoryMaskLength : ℕ) : ByteBus w α → Prop
  /-- The constructor. -/
  | new : Reachable directoryMaskLength (new w α directoryMaskLength)
  /-- A `map` that returns or throws. -/
  | map {bus : ByteBus w α} (h : Reachable directoryMaskLength bus) (address : BitVec w) (object : α)
      (hin : (bus.map size address object).1 ≠ .error .outOfBounds) :
      Reachable directoryMaskLength (bus.map size address object).2
  /-- `optimise`. -/
  | optimise {bus : ByteBus w α} (h : Reachable directoryMaskLength bus) : Reachable directoryMaskLength bus.optimise

section Bus

variable {directoryMaskLength : ℕ} {bus : ByteBus w α}

theorem wf_new : (new w α directoryMaskLength).Wf directoryMaskLength := by
  refine ⟨rfl, by simp [new], fun d hd => ?_⟩
  obtain rfl := List.eq_of_mem_replicate hd
  exact ⟨Nat.zero_le _, rfl, Nat.le_refl _, .inr rfl⟩

theorem Directory.Wf.optimiseDirectory {L : ℕ} {d : Directory w α} (hd : d.Wf L) :
    (optimiseDirectory L d).Wf L := by
  unfold ByteBus.optimiseDirectory
  split_ifs
  · exact ⟨hd.optimalAlignment, rfl, hd.optimalAlignment, .inl (by simp)⟩
  · exact hd

theorem Wf.optimise (hb : bus.Wf directoryMaskLength) :
    bus.optimise.Wf directoryMaskLength := by
  refine ⟨hb.directoryMask, by simp [ByteBus.optimise, hb.length], fun d hd => ?_⟩
  simp only [ByteBus.optimise, hb.directoryMask, List.mem_map] at hd
  obtain ⟨d₀, hd₀, rfl⟩ := hd
  exact (hb.directories d₀ hd₀).optimiseDirectory

/-- Every address has a directory. -/
theorem Wf.vdn_lt (hle : directoryMaskLength ≤ w) (hb : bus.Wf directoryMaskLength) (x : BitVec w) :
    x.toNat / 2 ^ (w - directoryMaskLength) < bus.table.length := by
  rw [hb.length]
  exact vdn_lt_two_pow hle x

theorem Wf.getPage_eq (hle : directoryMaskLength ≤ w) (hb : bus.Wf directoryMaskLength) (x : BitVec w) :
    bus.getPage x = bus.table[x.toNat / 2 ^ (w - directoryMaskLength)]?.bind fun d =>
      d.page (x.toNat % 2 ^ (w - directoryMaskLength)) := by
  rw [getPage, getVdn_eq hle hb.directoryMask]
  cases hd : bus.table[x.toNat / 2 ^ (w - directoryMaskLength)]? with
  | none => rfl
  | some d =>
    have hwf := hb.directories d (List.mem_of_getElem? hd)
    rw [Option.bind_some, Option.bind_some, Directory.page, hwf.toNat_extractFrom]

/-- The directories before the first address stay as they are. -/
theorem Outcome.of_drop {L alignment lo n : ℕ} {page : Page w α} {ds ds' : List (Directory w α)}
    {res : Except HostError Unit} (hlo : lo / 2 ^ L ≤ ds.length)
    (h : Outcome L alignment page (lo % 2 ^ L) n (ds.drop (lo / 2 ^ L)) ds' res) :
    Outcome L alignment page lo n ds (ds.take (lo / 2 ^ L) ++ ds') res := by
  cases h with
  | maps hopened hmapped =>
    refine .maps (throughout_drop.mp hopened) (throughout_drop.mp ?_)
    rwa [List.drop_left' (by rw [List.length_take, Nat.min_eq_left hlo])]
  | throws text hclosed hunchanged =>
    rw [throughout_drop] at hunchanged
    refine .throws text (fun h => hclosed (throughout_drop.mpr h)) (Iff.trans ⟨fun heq => ?_, ?_⟩ hunchanged)
    · exact List.append_cancel_left (heq.trans (List.take_append_drop _ _).symm)
    · rintro rfl
      exact List.take_append_drop _ _
  | outOfBounds hclosed hshut =>
    exact .outOfBounds (fun h => hclosed (throughout_drop.mpr h)) fun h => hshut (throughout_drop.mpr h)

/-- `map` of an object that is not empty. -/
theorem Wf.map_spec (hle : directoryMaskLength ≤ w) (hw : w ≤ 64) (hb : bus.Wf directoryMaskLength)
    (address : BitVec w) {object : α} (hsize : size object ≠ 0) :
    ∃ ds res, bus.map size address object = (res, { bus with table := ds }) ∧
      List.Forall₂ (Directory.Keeps (w - directoryMaskLength)) bus.table ds ∧
      Outcome (w - directoryMaskLength) (countTrailingZeros (address.setWidth 32)) ⟨address, some object⟩
        address.toNat (size object).toNat bus.table ds res := by
  have hrange := Nat.not_le.mpr (hb.vdn_lt hle (address + (size object).setWidth w))
  have hpos := size_pos size hsize
  have hvdn := hb.vdn_lt hle address
  simp only [ByteBus.map, if_neg hsize, if_neg hrange, getVdn_eq hle hb.directoryMask]
  generalize hds : mapDirectories _ _ _ _ _ _ = out
  obtain ⟨ds, res⟩ := out
  obtain ⟨hkeeps, hout⟩ := outcome_mapDirectories size (by omega)
    (fun d hd => hb.directories d (List.mem_of_mem_drop hd)) hpos
    (fun s hs hsL => (Nat.dvd_mod_iff (Nat.pow_dvd_pow 2 hsL)).mpr
      (Nat.dvd_trans (Nat.pow_dvd_pow 2 hs) (alignment_dvd address))) hds
  have hall : List.Forall₂ (Directory.Keeps (w - directoryMaskLength))
      (bus.table.take (address.toNat / 2 ^ (w - directoryMaskLength)) ++
        bus.table.drop (address.toNat / 2 ^ (w - directoryMaskLength)))
      (bus.table.take (address.toNat / 2 ^ (w - directoryMaskLength)) ++ ds) :=
    List.rel_append (List.forall₂_same.mpr fun d hd => (hb.directories d (List.mem_of_mem_take hd)).keeps_self) hkeeps
  rw [List.take_append_drop] at hall
  exact ⟨_, _, rfl, hall, .of_drop (Nat.le_of_lt hvdn) hout⟩

/-- A bus whose directories keep their pages. -/
theorem Wf.of_keeps (hb : bus.Wf directoryMaskLength) {ds : List (Directory w α)}
    (h : List.Forall₂ (Directory.Keeps (w - directoryMaskLength)) bus.table ds) :
    Wf directoryMaskLength { bus with table := ds } := by
  refine ⟨hb.directoryMask, h.length_eq.symm.trans hb.length, fun d hd => ?_⟩
  obtain ⟨i, hi, rfl⟩ := List.mem_iff_getElem.mp hd
  exact (h.get (by rw [h.length_eq]; exact hi) hi).wf

theorem Reachable.wf (hle : directoryMaskLength ≤ w) (hw : w ≤ 64) (h : Reachable size directoryMaskLength bus) :
    bus.Wf directoryMaskLength := by
  induction h with
  | new => exact wf_new
  | map _ address object _ ih =>
    by_cases hsize : size object = 0
    · simpa only [ByteBus.map, if_pos hsize] using ih
    · obtain ⟨ds, res, hmap, hkeeps, -⟩ := ih.map_spec size hle hw address hsize
      rw [hmap]
      exact ih.of_keeps hkeeps
  | optimise _ ih => exact ih.optimise

/-- A page with an object stays where it is. -/
theorem Wf.getPage_of_keeps (hle : directoryMaskLength ≤ w) (hb : bus.Wf directoryMaskLength)
    {ds : List (Directory w α)} (h : List.Forall₂ (Directory.Keeps (w - directoryMaskLength)) bus.table ds)
    {x : BitVec w} {p : Page w α} (hp : bus.getPage x = some p) (hobj : p.object.isSome) :
    getPage { bus with table := ds } x = some p := by
  rw [hb.getPage_eq hle] at hp
  obtain ⟨d, hd, hp⟩ := Option.bind_eq_some_iff.mp hp
  obtain ⟨hi, rfl⟩ := List.getElem?_eq_some_iff.mp hd
  have hi' := h.length_eq ▸ hi
  rw [(hb.of_keeps h).getPage_eq hle, List.getElem?_eq_getElem hi', Option.bind_some]
  exact (h.get hi hi').kept _ p hp hobj

/-! ### All or nothing -/

/-- `map` throws and leaves the bus as it was, or it enters the object on its whole range, which ends
in the address space, and disturbs no other. -/
inductive AllOrNothing (bus : ByteBus w α) (address : BitVec w) (object : α) : Prop
  /-- It throws. -/
  | throws (text : String) (h : bus.map size address object = (.error (.runtimeError text), bus))
  /-- It returns. -/
  | maps (bus' : ByteBus w α) (h : bus.map size address object = (.ok (), bus'))
      (fits : address.toNat + (size object).toNat ≤ 2 ^ w)
      (entered : ∀ x : BitVec w, address.toNat ≤ x.toNat → x.toNat < address.toNat + (size object).toNat →
        bus'.getPage x = some ⟨address, some object⟩)
      (kept : ∀ (x : BitVec w) (p : Page w α), bus.getPage x = some p → p.object.isSome → bus'.getPage x = some p)

/-- What can be told before the call: it will not get halfway. -/
inductive Foreseen (bus : ByteBus w α) (address : BitVec w) (object : α) : Prop
  /-- There is nothing to map. -/
  | empty (h : size object = 0)
  /-- The pages of the first directory are larger than the alignment. -/
  | coarse (d : Directory w α) (hd : bus.table[bus.getVdn address]? = some d)
      (h : countTrailingZeros (address.setWidth 32) < d.pageMask.start)
  /-- The first address is taken, in a directory that has seen an alignment as small. -/
  | taken (d : Directory w α) (p : Page w α) (hd : bus.table[bus.getVdn address]? = some d)
      (hp : bus.getPage address = some p) (hobj : p.object.isSome)
      (h : d.optimalAlignment ≤ countTrailingZeros (address.setWidth 32))
  /-- The range ends in the address space, its addresses are free, and the pages of its directories are no
  larger than the alignment. -/
  | free (fits : address.toNat + (size object).toNat ≤ 2 ^ w)
      (h : ∀ x : BitVec w, address.toNat ≤ x.toNat → x.toNat < address.toNat + (size object).toNat →
        (∀ d, bus.table[bus.getVdn x]? = some d → d.pageMask.start ≤ countTrailingZeros (address.setWidth 32)) ∧
        ∀ p, bus.getPage x = some p → p.object = none)

/-- What holds of each address is what holds throughout the range, if it ends in the address space. -/
theorem Wf.throughout_iff (hle : directoryMaskLength ≤ w) (hb : bus.Wf directoryMaskLength)
    {P : Directory w α → ℕ → Prop} {lo n : ℕ} (hn : 0 < n) :
    Throughout (w - directoryMaskLength) P lo n bus.table ↔ lo + n ≤ 2 ^ w ∧
      ∀ x : BitVec w, lo ≤ x.toNat → x.toNat < lo + n →
        ∃ d, bus.table[bus.getVdn x]? = some d ∧ P d (x.toNat % 2 ^ (w - directoryMaskLength)) := by
  have hspace : 2 ^ w = bus.table.length * 2 ^ (w - directoryMaskLength) := by
    rw [hb.length, ← Nat.pow_add, Nat.add_sub_cancel' hle]
  constructor
  · refine fun h => ⟨?_, fun x hge hlt => ?_⟩
    · obtain ⟨d, hd, -⟩ := h (lo + n - 1) (by omega) (by omega)
      have hlast := (List.getElem?_eq_some_iff.mp hd).1
      rw [Nat.div_lt_iff_lt_mul (Nat.two_pow_pos _), ← hspace] at hlast
      omega
    · rw [getVdn_eq hle hb.directoryMask]
      exact h x.toNat hge hlt
  · rintro ⟨hfits, h⟩ k hge hlt
    have hk : (BitVec.ofNat w k).toNat = k := by
      rw [BitVec.toNat_ofNat, Nat.mod_eq_of_lt (by omega)]
    have := h (BitVec.ofNat w k) (by omega) (by omega)
    rwa [getVdn_eq hle hb.directoryMask, hk] at this

theorem Wf.shut_iff (hle : directoryMaskLength ≤ w) (hb : bus.Wf directoryMaskLength) (address : BitVec w) :
    Throughout (w - directoryMaskLength) (Directory.Shut (countTrailingZeros (address.setWidth 32)))
      address.toNat 1 bus.table ↔
    ∃ d, bus.table[bus.getVdn address]? = some d ∧ (countTrailingZeros (address.setWidth 32) < d.pageMask.start ∨
      (∃ p, bus.getPage address = some p ∧ p.object.isSome) ∧
        d.optimalAlignment ≤ countTrailingZeros (address.setWidth 32)) := by
  rw [throughout_one, getVdn_eq hle hb.directoryMask]
  refine exists_congr fun d => and_congr_right fun hd => ?_
  rw [Directory.Shut, Directory.not_free, hb.getPage_eq hle, hd, Option.bind_some]

theorem Wf.open_iff (hle : directoryMaskLength ≤ w) (hb : bus.Wf directoryMaskLength) {alignment lo n : ℕ}
    (hn : 0 < n) :
    Throughout (w - directoryMaskLength) (Directory.Open alignment) lo n bus.table ↔ lo + n ≤ 2 ^ w ∧
      ∀ x : BitVec w, lo ≤ x.toNat → x.toNat < lo + n →
        (∀ d, bus.table[bus.getVdn x]? = some d → d.pageMask.start ≤ alignment) ∧
        ∀ p, bus.getPage x = some p → p.object = none := by
  rw [hb.throughout_iff hle hn]
  refine and_congr_right fun _ => forall_congr' fun x => imp_congr_right fun _ => imp_congr_right fun _ => ?_
  have hlt := hb.vdn_lt hle x
  rw [getVdn_eq hle hb.directoryMask, hb.getPage_eq hle, List.getElem?_eq_getElem hlt]
  simp [Directory.Open, Directory.Free]

/-- A mapping does not get halfway exactly when it is empty, its first address is shut or its range open. -/
theorem Wf.foreseen_iff (hle : directoryMaskLength ≤ w) (hb : bus.Wf directoryMaskLength) (address : BitVec w)
    (object : α) : Foreseen size bus address object ↔ size object = 0 ∨
      Throughout (w - directoryMaskLength) (Directory.Shut (countTrailingZeros (address.setWidth 32)))
        address.toNat 1 bus.table ∨
      Throughout (w - directoryMaskLength) (Directory.Open (countTrailingZeros (address.setWidth 32)))
        address.toNat (size object).toNat bus.table := by
  by_cases hsize : size object = 0
  · exact iff_of_true (.empty hsize) (.inl hsize)
  have hpos := size_pos size hsize
  rw [hb.shut_iff hle, hb.open_iff hle hpos, or_iff_right hsize]
  constructor
  · rintro (h | ⟨d, hd, h⟩ | ⟨d, p, hd, hp, hobj, h⟩ | ⟨hfits, h⟩)
    · exact absurd h hsize
    · exact .inl ⟨d, hd, .inl h⟩
    · exact .inl ⟨d, hd, .inr ⟨⟨p, hp, hobj⟩, h⟩⟩
    · exact .inr ⟨hfits, h⟩
  · rintro (⟨d, hd, h | ⟨⟨p, hp, hobj⟩, h⟩⟩ | ⟨hfits, h⟩)
    · exact .coarse d hd h
    · exact .taken d p hd hp hobj h
    · exact .free hfits h

/-- The law on a well formed bus. -/
theorem Wf.allOrNothing_iff_foreseen (hle : directoryMaskLength ≤ w) (hw : w ≤ 64)
    (hb : bus.Wf directoryMaskLength) (address : BitVec w) (object : α) :
    AllOrNothing size bus address object ↔ Foreseen size bus address object := by
  rw [hb.foreseen_iff size hle]
  by_cases hsize : size object = 0
  · exact iff_of_true (.throws _ (by rw [ByteBus.map, if_pos hsize])) (.inl hsize)
  have hpos := size_pos size hsize
  obtain ⟨ds, res, hmap, hkeeps, hout⟩ := hb.map_spec size hle hw address hsize
  rw [or_iff_right hsize]
  cases hout with
  | maps hopened hmapped =>
    refine iff_of_true (.maps _ hmap ((hb.throughout_iff hle hpos).mp hopened).1 ?_ ?_) (.inr hopened)
    · intro x hge hlt
      obtain ⟨d, hd, hpage⟩ := (((hb.of_keeps hkeeps).throughout_iff hle hpos).mp hmapped).2 x hge hlt
      rw [(hb.of_keeps hkeeps).getPage_eq hle, ← getVdn_eq hle (hb.of_keeps hkeeps).directoryMask, hd,
        Option.bind_some, hpage]
    · exact fun x p hp hobj => hb.getPage_of_keeps hle hkeeps hp hobj
  | throws text hclosed hunchanged =>
    rw [or_iff_left hclosed, ← hunchanged]
    constructor
    · rintro (⟨text', h⟩ | ⟨bus', h, -⟩)
      · rw [hmap] at h
        exact congrArg ByteBus.table (Prod.mk.inj h).2
      · rw [hmap] at h
        simp at h
    · rintro rfl
      exact .throws text hmap
  | outOfBounds hclosed hshut =>
    refine iff_of_false ?_ (by rintro (h | h) <;> contradiction)
    rintro (⟨text', h⟩ | ⟨bus', h, -⟩) <;> rw [hmap] at h <;> simp at h

/-- `map` is all or nothing on exactly the calls that could be told before not to get halfway, on every bus.
`w` is the width of an unsigned C++ type; where it makes a mask of `w` bits (no directory bits, or nothing
else), `1 << w` is read as 0. -/
theorem allOrNothing_iff (hle : directoryMaskLength ≤ w) (hw : w ≤ 64) (h : Reachable size directoryMaskLength bus)
    (address : BitVec w) (object : α) :
    AllOrNothing size bus address object ↔ Foreseen size bus address object :=
  (h.wf size hle hw).allOrNothing_iff_foreseen size hle hw address object

end Bus

/-- On a new bus nothing is in the way. -/
theorem free_new {directoryMaskLength : ℕ} (x : BitVec w) (alignment : ℕ) :
    (∀ d, (new w α directoryMaskLength).table[(new w α directoryMaskLength).getVdn x]? = some d →
      d.pageMask.start ≤ alignment) ∧
    ∀ p, (new w α directoryMaskLength).getPage x = some p → p.object = none := by
  refine ⟨fun d hd => ?_, fun p hp => ?_⟩
  · obtain rfl := List.eq_of_mem_replicate (List.mem_of_getElem? hd)
    exact Nat.zero_le _
  · obtain ⟨d, hd, hpage⟩ := Option.bind_eq_some_iff.mp hp
    obtain rfl := List.eq_of_mem_replicate (List.mem_of_getElem? hd)
    simp at hpage

/-- An object is entered on a new bus if it ends in the address space. -/
theorem foreseen_new {directoryMaskLength : ℕ} (address : BitVec w) {object : α}
    (h : address.toNat + (size object).toNat ≤ 2 ^ w) :
    Foreseen size (new w α directoryMaskLength) address object :=
  .free h fun x _ _ => free_new x _

theorem map_new {directoryMaskLength : ℕ} (hle : directoryMaskLength ≤ w) (hw : w ≤ 64) (address : BitVec w)
    {object : α} (hsize : size object ≠ 0) (h : address.toNat + (size object).toNat ≤ 2 ^ w) :
    ∃ bus, (new w α directoryMaskLength).map size address object = (.ok (), bus) := by
  have hb : (new w α directoryMaskLength).Wf directoryMaskLength := wf_new
  obtain ⟨ds, res, hmap, -, hout⟩ := hb.map_spec size hle hw address hsize
  have hopen := (hb.open_iff hle (size_pos size hsize)).mpr
    ⟨h, fun x _ _ => free_new x (countTrailingZeros (address.setWidth 32))⟩
  cases hout with
  | maps => exact ⟨_, hmap⟩
  | throws text hclosed => exact absurd hopen hclosed
  | outOfBounds hclosed => exact absurd hopen hclosed

/-- An object over two directories of the bus of a vector unit. -/
theorem allOrNothing_iff_newVu : AllOrNothing (fun _ => 0x200) (new 16 Bool 8) 0x1080 true :=
  (allOrNothing_iff _ (by decide) (by decide) .new _ _).mpr (foreseen_new _ _ (by decide))

/-- An object that runs past the top of the address space is not rejected, and one that meets another is
entered up to there. -/
theorem map_halfway :
    ((new 16 Bool 8).map (fun _ => 16) 0xFFF8 true).1 = .error .outOfBounds ∧
    ¬ AllOrNothing (fun _ => 16) (new 16 Bool 8) 0xFFF8 true ∧
    ¬ AllOrNothing (fun _ => 16) ((new 16 Bool 8).map (fun _ => 16) 0x10 true).2 0x08 false := by
  have htop : ((new 16 Bool 8).map (fun _ => 16) 0xFFF8 true).1 = .error .outOfBounds := by decide +kernel
  refine ⟨htop, ?_, ?_⟩
  · rintro (⟨text, h⟩ | ⟨bus', h, -⟩) <;> rw [h] at htop <;> simp at htop
  · have herror : (((new 16 Bool 8).map (fun _ => 16) 0x10 true).2.map (fun _ => 16) 0x08 false).1 ≠ .ok () := by
      decide +kernel
    have hbefore : (((new 16 Bool 8).map (fun _ => 16) 0x10 true).2.getPage 0x08).bind Page.object = none := by
      decide +kernel
    have hafter : ((((new 16 Bool 8).map (fun _ => 16) 0x10 true).2.map (fun _ => 16) 0x08 false).2.getPage
        0x08).bind Page.object = some false := by
      decide +kernel
    generalize ((new 16 Bool 8).map (fun _ => 16) 0x10 true).2 = bus at herror hbefore hafter ⊢
    rintro (⟨text, h⟩ | ⟨bus', h, -⟩)
    · rw [h, hbefore] at hafter
      simp at hafter
    · rw [h] at herror
      exact herror rfl

end Orbum.ByteBus
