import Mathlib.Data.List.Nodup
import Orbum.Common.Bitfield
import Orbum.Lib.SwitchTree

/-!
# Instruction tables

`MipsInstructionInfo` and the functions `lookup()` of the instruction types, which switch on the fields of the raw
instruction and return a row of a table.

A path through such a function is a `Pattern`: the bits of the fields it looks at, and what they hold. Where the
fields share no bits the instructions of the path are those that match.
-/

namespace Orbum

/-- `MipsInstructionInfo`. -/
structure MipsInstructionInfo where
  /-- `mnemonic`. -/
  mnemonic : String
  /-- `impl_index`. -/
  implIndex : ℕ
  /-- `cpi`. -/
  cpi : ℕ
  deriving DecidableEq

/-- Bits of an instruction and what they hold. -/
structure Pattern where
  /-- The bits. -/
  mask : Uword
  /-- What they hold. -/
  value : Uword
  deriving DecidableEq

/-- The instruction has these bits. -/
def Pattern.Matches (p : Pattern) (w : Uword) : Prop := w &&& p.mask = p.value

instance (p : Pattern) (w : Uword) : Decidable (p.Matches w) := inferInstanceAs (Decidable (_ = _))

namespace SwitchTree

/-- The fields of a raw instruction. -/
def fields (w : Uword) (f : Bitfield) : ℕ := (f.extractFrom w).toNat

/-- A field that is read in fewer bits. -/
theorem toNat_setWidth_extractFrom {f : Bitfield} {n : ℕ} (h : f.length ≤ n) (w : Uword) :
    ((f.extractFrom w).setWidth n).toNat = fields w f := by
  have hlt : w.toNat / 2 ^ f.start % 2 ^ f.length < 2 ^ n :=
    Nat.lt_of_lt_of_le (Nat.mod_lt _ (Nat.two_pow_pos _)) (Nat.pow_le_pow_right (by decide) h)
  rw [BitVec.toNat_setWidth, fields, Bitfield.toNat_extractFrom, Nat.mod_eq_of_lt hlt]

/-- The instructions on a path. -/
def pattern : List (Bitfield × ℕ) → Pattern
  | [] => ⟨0, 0⟩
  | c :: path => ⟨(pattern path).mask ||| c.1.shiftedMask 32, (pattern path).value ||| BitVec.ofNat 32 c.2 <<< c.1.start⟩

/-- Fields of the word that share no bits, each with a value that fits. -/
def Fits : List (Bitfield × ℕ) → Prop
  | [] => True
  | c :: path => c.1.start + c.1.length ≤ 32 ∧ c.2 < 2 ^ c.1.length ∧ (pattern path).mask &&& c.1.shiftedMask 32 = 0 ∧
      Fits path

instance decidableFits : (path : List (Bitfield × ℕ)) → Decidable (Fits path)
  | [] => inferInstanceAs (Decidable True)
  | _ :: path =>
    have := decidableFits path
    inferInstanceAs (Decidable (_ ∧ _ ∧ _ ∧ _))

/-- The value of a field in its place. -/
theorem shiftedMask_and_ofNat {f : Bitfield} {n : ℕ} (hn : n < 2 ^ f.length) :
    (BitVec.ofNat 32 n <<< f.start) &&& f.shiftedMask 32 = BitVec.ofNat 32 n <<< f.start := by
  apply BitVec.eq_of_getLsbD_eq
  intro i hi
  simp only [BitVec.getLsbD_and, Bitfield.getLsbD_shiftedMask, BitVec.getLsbD_shiftLeft, BitVec.getLsbD_ofNat, hi,
    decide_true, Bool.true_and]
  by_cases h : f.start ≤ i ∧ i < f.start + f.length
  · rw [decide_eq_true h, Bool.and_true]
  · by_cases hs : i < f.start
    · simp [hs]
    · have hbit : n.testBit (i - f.start) = false :=
        Nat.testBit_lt_two_pow (Nat.lt_of_lt_of_le hn (Nat.pow_le_pow_right (by decide) (by omega)))
      simp [hbit]

/-- A field holds a value if its bits do. -/
theorem fields_eq_iff {f : Bitfield} {n : ℕ} (hf : f.start + f.length ≤ 32) (hn : n < 2 ^ f.length) (w : Uword) :
    fields w f = n ↔ w &&& f.shiftedMask 32 = BitVec.ofNat 32 n <<< f.start := by
  have hn32 : n < 2 ^ 32 := Nat.lt_of_lt_of_le hn (Nat.pow_le_pow_right (by decide) (by omega))
  have hmul : n * 2 ^ f.start < 2 ^ 32 := by
    calc n * 2 ^ f.start
      _ < 2 ^ f.length * 2 ^ f.start := Nat.mul_lt_mul_of_pos_right hn (Nat.two_pow_pos _)
      _ = 2 ^ (f.start + f.length) := by rw [← Nat.pow_add, Nat.add_comm]
      _ ≤ 2 ^ 32 := Nat.pow_le_pow_right (by decide) hf
  rw [← BitVec.toNat_inj, Bitfield.toNat_and_shiftedMask _ _ hf, BitVec.toNat_shiftLeft, BitVec.toNat_ofNat,
    Nat.mod_eq_of_lt hn32, Nat.shiftLeft_eq, Nat.mod_eq_of_lt hmul, fields, Bitfield.toNat_extractFrom]
  exact (Nat.mul_left_inj (Nat.ne_of_gt (Nat.two_pow_pos _))).symm

/-- What a pattern asks for is within its bits. -/
theorem value_and_mask {path : List (Bitfield × ℕ)} (h : Fits path) :
    (pattern path).value &&& (pattern path).mask = (pattern path).value := by
  induction path with
  | nil => rfl
  | cons c path ih =>
    obtain ⟨-, hn, -, hp⟩ := h
    have hv := ih hp
    have hx := shiftedMask_and_ofNat hn
    apply BitVec.eq_of_getLsbD_eq
    intro i hi
    have hvi := congrArg (BitVec.getLsbD · i) hv
    have hxi := congrArg (BitVec.getLsbD · i) hx
    simp only [BitVec.getLsbD_and] at hvi hxi
    simp only [pattern, BitVec.getLsbD_and, BitVec.getLsbD_or]
    grind

/-- A word has both parts of a pattern. -/
theorem and_or_eq_or_iff {w m v m' v' : Uword} (hv : v &&& m = v) (hv' : v' &&& m' = v') (hd : m &&& m' = 0) :
    w &&& (m ||| m') = v ||| v' ↔ w &&& m = v ∧ w &&& m' = v' := by
  have hbit {a b c : Uword} (h : a &&& b = c) (i : ℕ) : (a.getLsbD i && b.getLsbD i) = c.getLsbD i := by
    rw [← BitVec.getLsbD_and, h]
  have hd0 (i : ℕ) : (m.getLsbD i && m'.getLsbD i) = false := by
    rw [hbit hd i]
    exact BitVec.getLsbD_zero
  constructor
  · intro h
    have hw (i : ℕ) : (w.getLsbD i && (m.getLsbD i || m'.getLsbD i)) = (v.getLsbD i || v'.getLsbD i) := by
      rw [← BitVec.getLsbD_or, ← BitVec.getLsbD_or, hbit h i]
    constructor <;>
    · apply BitVec.eq_of_getLsbD_eq
      intro i _
      have := hw i
      have := hbit hv i
      have := hbit hv' i
      have := hd0 i
      rw [BitVec.getLsbD_and]
      grind
  · rintro ⟨hm, hm'⟩
    rw [BitVec.and_or_distrib_left, hm, hm']

/-- The instructions on a path are those of its pattern. -/
theorem follows_iff_matches {path : List (Bitfield × ℕ)} (h : Fits path) (w : Uword) :
    Follows (fields w) path ↔ (pattern path).Matches w := by
  induction path with
  | nil => simp [pattern, Pattern.Matches]
  | cons c path ih =>
    obtain ⟨hf, hn, hd, hp⟩ := h
    rw [follows_cons, ih hp, fields_eq_iff hf hn, and_comm]
    exact (and_or_eq_or_iff (value_and_mask hp) (shiftedMask_and_ofNat hn) hd).symm

/-- The word of a pattern with nothing in its other bits. -/
theorem matches_value {path : List (Bitfield × ℕ)} (h : Fits path) : (pattern path).Matches (pattern path).value :=
  value_and_mask h

/-- A result that is returned at one place alone is that of the words of one pattern. -/
theorem exists_pattern {α : Type} {t : SwitchTree Bitfield α} (ht : t.Separated) (hfit : ∀ p ∈ t.paths, Fits p.1)
    (hnodup : (t.paths.map Prod.snd).Nodup) {a : α} (ha : a ∈ t.paths.map Prod.snd) :
    ∃ p : Pattern, p.Matches p.value ∧ ∀ w, t.eval (fields w) = some a ↔ p.Matches w := by
  obtain ⟨⟨path, b⟩, hp, hb⟩ := List.mem_map.mp ha
  obtain rfl : b = a := hb
  refine ⟨pattern path, matches_value (hfit _ hp), fun w => ?_⟩
  rw [eval_eq_some_iff_of_unique ht hp, follows_iff_matches (hfit _ hp)]
  intro q hq
  have := List.inj_on_of_nodup_map hnodup hq hp rfl
  exact congrArg Prod.fst this

end SwitchTree

/-! ### Dispatch -/

/-- Where an element of a list is, by a number for each. -/
theorem getElem?_eq_some_iff_map {α : Type} {num : α → ℕ} (hinj : Function.Injective num) (l : List α) (a : α) (j : ℕ) :
    l[j]? = some a ↔ (l.map num)[j]? = some (num a) := by
  rw [List.getElem?_map]
  constructor
  · intro h
    rw [h, Option.map_some]
  · intro h
    obtain ⟨b, hb, hnum⟩ := Option.map_eq_some_iff.mp h
    rw [hb, hinj hnum]

/-- How an interpreter finds the function that runs an instruction, with tables that fit together: `lookup()` returns each
row at one place, and every row has a function. -/
structure InstructionSet (F : Type) where
  /-- `lookup()`, the row it returns the address of. -/
  lookupTree : SwitchTree Bitfield ℕ
  /-- The table of rows. -/
  rows : List MipsInstructionInfo
  /-- The table of functions. -/
  functions : List F
  /-- No case of `lookup()` hides another. -/
  separated : lookupTree.Separated
  /-- The fields it looks at share no bits. -/
  fits : ∀ p ∈ lookupTree.paths, SwitchTree.Fits p.1
  /-- The rows are returned in their order. -/
  returns : lookupTree.paths.map Prod.snd = List.range rows.length
  /-- The indices of the rows are within the table of functions. -/
  implIndex_lt : ∀ info ∈ rows, info.implIndex < functions.length

namespace InstructionSet

variable {F : Type} (S : InstructionSet F)

/-- The row that `lookup()` returns, by its index. -/
def index (w : Uword) : Option ℕ := S.lookupTree.eval (SwitchTree.fields w)

/-- `lookup()`. -/
def lookup (w : Uword) : Except HostError MipsInstructionInfo :=
  (S.index w).elim (.error (.runtimeError "Could not determine instruction")) fun i =>
    S.rows[i]?.elim (.error .outOfBounds) .ok

/-- The function at `get_info()->impl_index`. -/
def dispatch (w : Uword) : Except HostError F := do
  let info ← S.lookup w
  S.functions[info.implIndex]?.elim (.error .outOfBounds) .ok

/-- The function of a row. -/
def function (i : ℕ) : Option F := S.rows[i]?.bind fun info => S.functions[info.implIndex]?

variable {S}

/-- Each row is that of the words of one pattern. -/
theorem exists_pattern {i : ℕ} (hi : i < S.rows.length) :
    ∃ p : Pattern, p.Matches p.value ∧ ∀ w, S.index w = some i ↔ p.Matches w := by
  refine SwitchTree.exists_pattern S.separated S.fits ?_ ?_
  · rw [S.returns]
    exact List.nodup_range
  · rw [S.returns]
    exact List.mem_range.mpr hi

/-- The way to a row says when it is returned. -/
theorem index_eq_some_iff {p : List (Bitfield × ℕ)} {i : ℕ}
    (hp : (p, i) ∈ S.lookupTree.paths) (w : Uword) : S.index w = some i ↔ SwitchTree.Follows (SwitchTree.fields w) p := by
  have hnodup : (S.lookupTree.paths.map Prod.snd).Nodup := by
    rw [S.returns]
    exact List.nodup_range
  refine SwitchTree.eval_eq_some_iff_of_unique S.separated hp fun q hq => ?_
  exact congrArg Prod.fst (List.inj_on_of_nodup_map hnodup hq hp rfl)

theorem lt_of_index {w : Uword} {i : ℕ} (hi : S.index w = some i) : i < S.rows.length := by
  obtain ⟨p, hp, -⟩ := SwitchTree.exists_path hi
  have hmem := List.mem_map_of_mem (f := Prod.snd) hp
  rwa [S.returns, List.mem_range] at hmem

/-- A row has a function. -/
theorem exists_function {i : ℕ} (hi : i < S.rows.length) : ∃ f, S.function i = some f := by
  have hlt := S.implIndex_lt _ (List.getElem_mem hi)
  exact ⟨S.functions[S.rows[i].implIndex], by
    rw [function, List.getElem?_eq_getElem hi, Option.bind_some, List.getElem?_eq_getElem hlt]⟩

/-- What is looked up is the row. -/
theorem lookup_eq_ok_iff {w : Uword} {info : MipsInstructionInfo} :
    S.lookup w = .ok info ↔ ∃ i, S.index w = some i ∧ S.rows[i]? = some info := by
  unfold lookup
  cases S.index w with
  | none => simp
  | some i => cases hr : S.rows[i]? <;> simp [hr]

/-- What runs is the function of the row. -/
theorem dispatch_eq_ok_iff {w : Uword} {f : F} :
    S.dispatch w = .ok f ↔ ∃ i, S.index w = some i ∧ S.function i = some f := by
  unfold dispatch lookup function
  cases S.index w with
  | none => simp [Option.elim, bind, Except.bind]
  | some i =>
    cases hr : S.rows[i]? with
    | none => simp [hr, Option.elim, bind, Except.bind]
    | some info =>
      cases hf : S.functions[info.implIndex]? with
      | none => simp [hr, hf, Option.elim, bind, Except.bind]
      | some g => simp [hr, hf, Option.elim, bind, Except.bind]

theorem toOption_dispatch (w : Uword) : (S.dispatch w).toOption = (S.index w).bind S.function := by
  unfold dispatch lookup function
  cases S.index w with
  | none => rfl
  | some i =>
    cases hr : S.rows[i]? with
    | none => simp [hr, Option.elim, bind, Except.bind, Except.toOption]
    | some info => cases hf : S.functions[info.implIndex]? <;> simp [hr, hf, Option.elim, bind, Except.bind, Except.toOption]

/-- No action comes of a switch on a key that has none of the values below which a function acts. -/
theorem switch_bind_eq_none {β : Type} {acts : F → Bool} {act : F → Option β} (hact : ∀ f, acts f = false → act f = none)
    {g : ℕ → Option F} {read : Bitfield → ℕ} {k : Bitfield} {cases : List (ℕ × SwitchTree Bitfield ℕ)} (values : List ℕ)
    (hk : read k ∉ values) (h : ∀ c ∈ cases, c.1 ∈ values ∨ ∀ p ∈ c.2.paths, (g p.2).all (!acts ·) = true) :
    (((SwitchTree.switch k cases).eval read).bind g).bind act = none := by
  rw [Option.bind_assoc]
  refine SwitchTree.eval_switch_bind_eq_none values hk fun c hc => (h c hc).imp_right fun hall p hp => ?_
  have hp := hall p hp
  cases hf : g p.2 with
  | none => rfl
  | some f =>
    rw [hf, Option.all_some, Bool.not_eq_true'] at hp
    exact hact f hp

/-- No table is indexed past its end: what has no row is what `lookup()` throws for. -/
theorem dispatch_eq_error {w : Uword} {e : HostError} (he : S.dispatch w = .error e) :
    S.index w = none ∧ e = .runtimeError "Could not determine instruction" := by
  cases hi : S.index w with
  | none =>
    rw [dispatch, lookup, hi] at he
    cases he
    exact ⟨rfl, rfl⟩
  | some i =>
    obtain ⟨f, hf⟩ := exists_function (lt_of_index hi)
    rw [dispatch_eq_ok_iff.mpr ⟨i, hi, hf⟩] at he
    cases he

/-- A function that no row has never runs. -/
theorem dispatch_ne {f : F} (hf : ∀ info ∈ S.rows, S.functions[info.implIndex]? ≠ some f) (w : Uword) :
    S.dispatch w ≠ .ok f := by
  intro hw
  obtain ⟨i, -, hif⟩ := dispatch_eq_ok_iff.mp hw
  obtain ⟨info, hinfo, hget⟩ := Option.bind_eq_some_iff.mp hif
  exact hf info (List.mem_of_getElem? hinfo) hget

/-- A function that one row has. -/
theorem exists_row {f : F} {k : ℕ} (hnodup : (S.rows.map MipsInstructionInfo.implIndex).Nodup)
    (hk : k ∈ S.rows.map MipsInstructionInfo.implIndex) (hf : ∀ j, S.functions[j]? = some f ↔ j = k) :
    ∃ i < S.rows.length, ∀ j < S.rows.length, S.function j = some f ↔ j = i := by
  obtain ⟨i, hi, hik⟩ := List.mem_iff_getElem.mp hk
  rw [List.length_map] at hi
  rw [List.getElem_map] at hik
  refine ⟨i, hi, fun j hj => ?_⟩
  rw [function, List.getElem?_eq_getElem hj, Option.bind_some, hf, ← hik]
  constructor
  · intro hji
    have hrow := List.inj_on_of_nodup_map hnodup (List.getElem_mem hj) (List.getElem_mem hi) hji
    exact (hnodup.of_map _).getElem_inj_iff.mp hrow
  · rintro rfl
    rfl

/-- A function of one row runs for the words of one pattern. -/
theorem exists_pattern_dispatch {f : F} {i : ℕ} (hi : i < S.rows.length)
    (hf : ∀ j < S.rows.length, S.function j = some f ↔ j = i) :
    ∃ p : Pattern, p.Matches p.value ∧ ∀ w, S.dispatch w = .ok f ↔ p.Matches w := by
  obtain ⟨p, hp, hw⟩ := exists_pattern hi
  refine ⟨p, hp, fun w => ?_⟩
  rw [← hw w, dispatch_eq_ok_iff]
  constructor
  · rintro ⟨j, hj, hjf⟩
    rwa [(hf j (lt_of_index hj)).mp hjf] at hj
  · intro hwi
    exact ⟨i, hwi, (hf i hi).mpr rfl⟩

end InstructionSet

end Orbum
