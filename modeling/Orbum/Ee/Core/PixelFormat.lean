import Orbum.Ee.Core.Interpreter.Parallel

/-!
# Pixel formats

`PEXT5` makes pixels of 32 bits of those of 16 bits in the even halfwords of `Rt`, and `PPAC5` should make them back.
`PEXT5` shifts the alpha bit out, and `PPAC5` writes its words at the offsets of halfwords, two of which are past the end
of the register.
-/

namespace Orbum

open Lanes

namespace R5900

variable {σ : Type} (inst : EeCoreInstruction) (d : R5900 σ)

/-! ### Pixels -/

/-- A field of `n` bits cut out at `a` and moved to `b`. -/
theorem getLsbD_field {w a n : ℕ} {m : BitVec w} (hmask : ∀ j < w, m.getLsbD j = decide (a ≤ j ∧ j < a + n))
    (han : a + n ≤ w) (v : BitVec w) (b : ℕ) {i : ℕ} (hi : i < w) :
    (((v &&& m) >>> a) <<< b).getLsbD i = (decide (b ≤ i ∧ i < b + n) && v.getLsbD (a + (i - b))) := by
  rw [BitVec.getLsbD_shiftLeft, BitVec.getLsbD_ushiftRight, BitVec.getLsbD_and, decide_eq_true hi, Bool.true_and]
  by_cases hb : b ≤ i ∧ i < b + n
  · rw [hmask _ (by omega), decide_eq_false (by omega), decide_eq_true (by omega), decide_eq_true hb, Bool.not_false,
      Bool.true_and, Bool.true_and, Bool.and_true]
  · rw [decide_eq_false hb, Bool.false_and]
    by_cases hlow : i < b
    · rw [decide_eq_true hlow, Bool.not_true, Bool.false_and]
    · by_cases hhigh : a + (i - b) < w
      · rw [hmask _ hhigh, decide_eq_false (show ¬(a ≤ a + (i - b) ∧ a + (i - b) < a + n) by omega), Bool.and_false,
          Bool.and_false]
      · rw [BitVec.getLsbD_of_ge m _ (by omega), Bool.and_false, Bool.and_false]

/-- The alpha bit of a pixel of 16 bits is shifted out. -/
theorem alpha_unpack (v : Uword) : ((v &&& 0x8000) >>> 16) <<< 31 = 0 := by
  have hmask : ∀ j < 16, (0x8000 : Uword).getLsbD (16 + j) = false := by decide
  apply BitVec.eq_of_getLsbD_eq
  intro i hi
  have hzero : (0 : Uword).getLsbD i = false := BitVec.getLsbD_zero
  rw [hzero, BitVec.getLsbD_shiftLeft, BitVec.getLsbD_ushiftRight, BitVec.getLsbD_and, hmask (i - 31) (by omega),
    Bool.and_false, Bool.and_false]

/-- The bits of a pixel of 32 bits, made of one of 16. -/
theorem getLsbD_unpack (v : Uhword) {j : ℕ} (hj : j < 32) :
    (unpack v).getLsbD j =
      if 3 ≤ j ∧ j < 8 then v.getLsbD (j - 3)
      else if 11 ≤ j ∧ j < 16 then v.getLsbD (j - 6)
      else if 19 ≤ j ∧ j < 24 then v.getLsbD (j - 9)
      else false := by
  have hbit (i : ℕ) : (v.setWidth 32).getLsbD i = v.getLsbD i := by
    rw [BitVec.getLsbD_setWidth]
    rcases Nat.lt_or_ge i 32 with hi | hi
    · rw [decide_eq_true hi, Bool.true_and]
    · rw [BitVec.getLsbD_of_ge v i (by omega), Bool.and_false]
  have hblue := getLsbD_field (a := 0) (n := 5) (m := (0x1F : Uword)) (by decide) (by decide) (v.setWidth 32) 3 hj
  have hgreen := getLsbD_field (a := 5) (n := 5) (m := (0x3E0 : Uword)) (by decide) (by decide) (v.setWidth 32) 11 hj
  have hred := getLsbD_field (a := 10) (n := 5) (m := (0x7C00 : Uword)) (by decide) (by decide) (v.setWidth 32) 19 hj
  have halpha : (((v.setWidth 32 &&& (0x8000 : Uword)) >>> 16) <<< 31).getLsbD j = false := by
    rw [alpha_unpack]
    exact BitVec.getLsbD_zero
  rw [BitVec.ushiftRight_zero] at hblue
  unfold unpack
  rw [BitVec.getLsbD_or, BitVec.getLsbD_or, BitVec.getLsbD_or, halpha, hblue, hgreen, hred, hbit, hbit, hbit,
    Bool.false_or]
  grind

/-- The bits of a pixel of 16 bits, made of one of 32. -/
theorem getLsbD_pack (u : Uword) {i : ℕ} (hi : i < 16) :
    (pack u).getLsbD i =
      if i < 5 then u.getLsbD (i + 3)
      else if i < 10 then u.getLsbD (i + 6)
      else if i < 15 then u.getLsbD (i + 9)
      else u.getLsbD 31 := by
  have hlt : i < 32 := by omega
  have hblue := getLsbD_field (a := 3) (n := 5) (m := (0xF8 : Uword)) (by decide) (by decide) u 0 hlt
  have hgreen := getLsbD_field (a := 11) (n := 5) (m := (0xF800 : Uword)) (by decide) (by decide) u 5 hlt
  have hred := getLsbD_field (a := 19) (n := 5) (m := (0xF80000 : Uword)) (by decide) (by decide) u 10 hlt
  have halpha := getLsbD_field (a := 31) (n := 1) (m := (0x80000000 : Uword)) (by decide) (by decide) u 15 hlt
  rw [BitVec.shiftLeft_zero] at hblue
  unfold pack
  rw [BitVec.getLsbD_or, BitVec.getLsbD_or, BitVec.getLsbD_or, BitVec.getLsbD_setWidth, BitVec.getLsbD_setWidth,
    BitVec.getLsbD_setWidth, BitVec.getLsbD_setWidth, halpha, hblue, hgreen, hred, decide_eq_true hi]
  grind

/-- What `pack` makes of a pixel that was unpacked lacks the alpha bit. -/
theorem getLsbD_pack_unpack (v : Uhword) {i : ℕ} (hi : i < 16) :
    (pack (unpack v)).getLsbD i = (decide (i < 15) && v.getLsbD i) := by
  rw [getLsbD_pack _ hi, getLsbD_unpack v (show i + 3 < 32 by omega), getLsbD_unpack v (show i + 6 < 32 by omega),
    getLsbD_unpack v (show i + 9 < 32 by omega), getLsbD_unpack v (show 31 < 32 by decide)]
  grind

theorem pack_unpack_eq_iff (v : Uhword) : pack (unpack v) = v ↔ v.getLsbD 15 = false := by
  constructor
  · intro h
    rw [← h, getLsbD_pack_unpack v (by decide)]
    rfl
  · intro h
    apply BitVec.eq_of_getLsbD_eq
    intro i hi
    rw [getLsbD_pack_unpack v hi]
    rcases Nat.lt_or_ge i 15 with hlt | hge
    · rw [decide_eq_true hlt, Bool.true_and]
    · rw [show i = 15 by omega, h, Bool.and_false]

/-! ### The instructions -/

/-- `PPAC5` of what `PEXT5` wrote leaves in each word of `Rd` the even halfword of that number of what `PEXT5` read, and
nothing but the two destination registers has changed. -/
def RoundTrips (inst inst' : EeCoreInstruction) (d : R5900 σ) : Prop :=
  ∃ d', ppac5 inst' (pext5 inst d) = .ok d' ∧
    (∀ k < 4, read 32 d' inst'.rd k = (read 16 d inst.rt (2 * k)).setWidth 32) ∧
    (∀ r, r ≠ inst.rd → r ≠ inst'.rd → d'.gpr r = d.gpr r) ∧ d'.rest = d.rest

theorem ppac5_of_zero (h : inst.rd = 0) : ppac5 inst d = .ok d := by
  have hwrite (k : ℕ) (v : Uword) : writeUwordAt d inst.rd k v = .ok d := by
    rw [writeUwordAt, if_pos (.inl h), write, EeData.writeUqword, if_pos h]
  simp only [ppac5, hwrite, bind, Except.bind]

theorem ppac5_of_ne (h : inst.rd ≠ 0) : ppac5 inst d = .error .outOfBounds := by
  have hwrite (d : R5900 σ) {k : ℕ} (hk : k < 4) (v : Uword) : writeUwordAt d inst.rd k v = .ok (write d inst.rd k v) :=
    if_pos (.inr hk)
  have hfail (d : R5900 σ) (v : Uword) : writeUwordAt d inst.rd 4 v = .error .outOfBounds :=
    if_neg (not_or.mpr ⟨h, by decide⟩)
  simp only [ppac5, hwrite _ (show 0 < 4 by decide), hwrite _ (show 2 < 4 by decide), hfail, bind, Except.bind]

/-- Whatever the registers: `PEXT5` and then `PPAC5` of its result are a round trip if and only if the latter writes
register 0, and the even halfwords are what that holds. The conversions themselves are one for the pixels without alpha. -/
theorem roundTrips_iff (inst inst' : EeCoreInstruction) (d : R5900 σ) :
    (RoundTrips inst inst' d ↔
      inst'.rd = 0 ∧ ∀ k < 4, read 32 d 0 k = (read 16 d inst.rt (2 * k)).setWidth 32) ∧
    ∀ v : Uhword, pack (unpack v) = v ↔ v.getLsbD 15 = false := by
  refine ⟨?_, pack_unpack_eq_iff⟩
  have hgpr {r : BitVec 5} (hr : r ≠ inst.rd) : (pext5 inst d).gpr r = d.gpr r := d.gpr_writeUqword_of_ne hr _
  have hzero : (pext5 inst d).gpr 0 = d.gpr 0 := by
    by_cases h : inst.rd = 0
    · rw [pext5, EeData.writeUqword, if_pos h]
    · exact hgpr (Ne.symm h)
  have hread (k : ℕ) : read 32 (pext5 inst d) 0 k = read 32 d 0 k := congrArg (lane 32 k) hzero
  by_cases h : inst'.rd = 0
  · rw [RoundTrips, ppac5_of_zero inst' _ h, h, eq_self, true_and]
    constructor
    · rintro ⟨d', hd', hwords, -, -⟩ k hk
      rw [← hread, Except.ok.inj hd']
      exact hwords k hk
    · intro hwords
      refine ⟨_, rfl, fun k hk => (hread k).trans (hwords k hk), fun r hr _ => hgpr hr, ?_⟩
      exact d.rest_writeUqword _ _
  · refine iff_of_false ?_ fun hright => h hright.1
    rintro ⟨d', hd', -⟩
    rw [ppac5_of_ne inst' _ h] at hd'
    cases hd'

/-- Of 0 in register 1 to register 2 and back to register 3 there is no way. -/
theorem not_roundTrips_zero :
    ¬RoundTrips (σ := Unit) ⟨0x70011788⟩ ⟨0x70021FC8⟩ ⟨fun _ => 0, ⟨0, 0, 0, ()⟩⟩ := by
  rintro ⟨d', hd', -⟩
  rw [ppac5_of_ne _ _ (by decide)] at hd'
  cases hd'

end R5900

end Orbum
