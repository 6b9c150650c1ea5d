import Orbum.Common.Primitive
import Orbum.Lib.Prescaler

/-!
# The count registers of the timers

`EeTimersUnitRegister_Count` and `IopTimersUnitRegister_Count` of `EeTimersUnitRegisters.cpp` and
`IopTimersUnitRegisters.cpp`: a count that is advanced once for each `prescale_target` ticks, and a flag that is set when
it passes its maximum.

The count is reduced by its maximum instead of one more, so from its first wrap on it is ahead of the ticks.

## The model

The `int`s of the prescaler are words read as signed; a function is `none` where a signed operation overflows, which is
undefined, or where the loop never ends. The body that the three increments share has the width of the variable they
count in and the maximum as parameters.
-/

namespace Orbum

open Prescaler

/-- `EeTimersUnitRegister_Count` and `IopTimersUnitRegister_Count`. -/
structure TimersUnitRegisterCount where
  /-- The register itself. -/
  count : Uword
  /-- The overflow flag. -/
  isOverflowed : Bool
  /-- How many ticks one count takes, an `int`. -/
  prescaleTarget : BitVec 32
  /-- The ticks not counted yet, an `int`. -/
  prescaleCount : BitVec 32
  deriving DecidableEq

namespace TimersUnitRegisterCount

/-- `reset_prescale(prescale_target)`. -/
def resetPrescale (c : TimersUnitRegisterCount) (prescaleTarget : BitVec 32) : TimersUnitRegisterCount :=
  { c with count := 0, prescaleTarget, prescaleCount := 0 }

/-- `is_overflowed_and_reset()`. -/
def isOverflowedAndReset (c : TimersUnitRegisterCount) : Bool × TimersUnitRegisterCount :=
  (c.isOverflowed, { c with isOverflowed := false })

/-- `while (prescale_count >= prescale_target)`, with as many rounds at most as there is fuel. -/
def prescale {w : ℕ} (prescaleTarget : BitVec 32) : ℕ → BitVec w → BitVec 32 → Option (BitVec w × BitVec 32)
  | 0, _, _ => none
  | fuel + 1, count, prescaleCount =>
    if prescaleTarget.sle prescaleCount then
      if prescaleCount.ssubOverflow prescaleTarget then none
      else prescale prescaleTarget fuel (count + 1) (prescaleCount - prescaleTarget)
    else some (count, prescaleCount)

/-- The increments: `value` is an `int`, the count is kept in `w` bits, `max` is the value it may not pass. -/
def incrementBy {w : ℕ} (max : BitVec w) (c : TimersUnitRegisterCount) (value : BitVec 32) :
    Option TimersUnitRegisterCount :=
  if c.prescaleCount.saddOverflow value then none
  else
    let prescaleCount := c.prescaleCount + value
    if c.prescaleTarget.sle prescaleCount then
      -- a target of at least 1 is reached at most `prescaleCount` times
      (prescale c.prescaleTarget (prescaleCount.toNat + 1) (c.count.setWidth w) prescaleCount).map fun r =>
        if max < r.1 then
          { c with count := (r.1 % max).setWidth 32, isOverflowed := true, prescaleCount := r.2 }
        else { c with count := r.1.setWidth 32, prescaleCount := r.2 }
    else some { c with prescaleCount }

end TimersUnitRegisterCount

open TimersUnitRegisterCount

/-- `EeTimersUnitRegister_Count::increment(value)`. -/
def EeTimersUnitRegisterCount.increment (c : TimersUnitRegisterCount) (value : Uhword) : Option TimersUnitRegisterCount :=
  incrementBy (0xFFFF : BitVec 32) c (value.setWidth 32)

namespace IopTimersUnitRegisterCount

/-- `increment_16(value)`. -/
def increment16 (c : TimersUnitRegisterCount) (value : Uhword) : Option TimersUnitRegisterCount :=
  incrementBy (0xFFFF : BitVec 32) c (value.setWidth 32)

/-- `increment_32(value)`. -/
def increment32 (c : TimersUnitRegisterCount) (value : Uword) : Option TimersUnitRegisterCount :=
  incrementBy (0xFFFFFFFF : BitVec 64) c value

/-- `IopTimersUnitRegister_Count::increment(value)`, by the mode the register was made with. -/
def increment (isUsing32bMode : Bool) (c : TimersUnitRegisterCount) (value : Uword) : Option TimersUnitRegisterCount :=
  if !isUsing32bMode then increment16 c (value.setWidth 16) else increment32 c value

end IopTimersUnitRegisterCount

namespace TimersUnitRegisterCount

/-! ### One call -/

/-- A word below `2 ^ 31`, as an `int`. -/
theorem toInt_of_lt {x : BitVec 32} (h : x.toNat < 2 ^ 31) : x.toInt = x.toNat :=
  BitVec.toInt_eq_toNat_of_lt (by omega)

/-- An `int` that is positive. -/
theorem toNat_of_pos {p : BitVec 32} (h : 1 ≤ p.toInt) : 0 < p.toNat ∧ p.toNat < 2 ^ 31 := by
  rw [BitVec.toInt_eq_toNat_cond] at h
  have := p.isLt
  split at h <;> omega

/-- The loop divides by the target. -/
theorem prescale_eq {w fuel : ℕ} {t x : BitVec 32} (ht : 1 ≤ t.toInt) (hx : x.toNat < 2 ^ 31) (c : BitVec w)
    (hf : x.toNat / t.toNat < fuel) :
    prescale t fuel c x =
      some (c + BitVec.ofNat w (x.toNat / t.toNat), BitVec.ofNat 32 (x.toNat % t.toNat)) := by
  obtain ⟨hpos, hlt⟩ := toNat_of_pos ht
  induction fuel generalizing c x with
  | zero => exact absurd hf (Nat.not_lt_zero _)
  | succ fuel ih =>
    have hsle : t.sle x = decide (t.toNat ≤ x.toNat) := by
      simp only [BitVec.sle, toInt_of_lt hx, toInt_of_lt hlt, Int.ofNat_le]
    by_cases hle : t.toNat ≤ x.toNat
    · have hov : x.ssubOverflow t = false := by
        simp only [BitVec.ssubOverflow, toInt_of_lt hx, toInt_of_lt hlt, Bool.or_eq_false_iff, decide_eq_false_iff_not]
        omega
      have hsub : (x - t).toNat = x.toNat - t.toNat := BitVec.toNat_sub_of_le (BitVec.le_def.mpr hle)
      have hdiv : x.toNat / t.toNat = (x - t).toNat / t.toNat + 1 := by
        rw [hsub]
        exact Nat.div_eq_sub_div hpos hle
      have hmod : x.toNat % t.toNat = (x - t).toNat % t.toNat := by
        rw [hsub]
        exact Nat.mod_eq_sub_mod hle
      rw [prescale, hsle, if_pos (decide_eq_true hle), hov, if_neg Bool.false_ne_true,
        ih (by omega) _ (by omega), hdiv, hmod]
      congr 2
      rw [BitVec.add_assoc]
      congr 1
      apply BitVec.eq_of_toNat_eq
      simp [Nat.add_comm]
    · rw [prescale, hsle, decide_eq_false hle, if_neg Bool.false_ne_true, Nat.div_eq_of_lt (Nat.lt_of_not_le hle),
        Nat.mod_eq_of_lt (Nat.lt_of_not_le hle), BitVec.ofNat_toNat, BitVec.setWidth_eq]
      simp

/-- The register has counted `n` ticks, none of them past its maximum. -/
structure Tracks (p : BitVec 32) (n : ℕ) (c : TimersUnitRegisterCount) : Prop where
  /-- One count takes `p` ticks. -/
  target : c.prescaleTarget = p
  /-- What is left of the ticks. -/
  rest : c.prescaleCount.toNat = n % p.toNat
  /-- The count. -/
  count : c.count.toNat = n / p.toNat
  /-- It did not wrap. -/
  flag : c.isOverflowed = false

variable {w n : ℕ} {p v : BitVec 32} {max : BitVec w} {c : TimersUnitRegisterCount}

/-- The ticks not counted yet, with those of the call. -/
theorem Tracks.toNat_add (h : Tracks p n c) (hv : n % p.toNat + v.toNat < 2 ^ 31) :
    (c.prescaleCount + v).toNat = n % p.toNat + v.toNat := by
  rw [BitVec.toNat_add, h.rest, Nat.mod_eq_of_lt (by omega)]

/-- A sum that does not fit an `int` is undefined. -/
theorem Tracks.incrementBy_eq_none (h : Tracks p n c) (hp : 1 ≤ p.toInt) (hv : v.toNat < 2 ^ 31)
    (hsum : 2 ^ 31 ≤ n % p.toNat + v.toNat) : incrementBy max c v = none := by
  obtain ⟨hpos, hlt⟩ := toNat_of_pos hp
  have hrest : c.prescaleCount.toNat < 2 ^ 31 := h.rest ▸ Nat.lt_trans (Nat.mod_lt _ hpos) hlt
  have hov : c.prescaleCount.saddOverflow v = true := by
    simp only [BitVec.saddOverflow, toInt_of_lt hrest, toInt_of_lt hv, h.rest, Bool.or_eq_true, decide_eq_true_eq]
    omega
  rw [incrementBy, if_pos hov]

/-- A word that is negative as an `int` is not counted. -/
theorem Tracks.incrementBy_of_neg (h : Tracks p n c) (hp : 1 ≤ p.toInt) (hv : 2 ^ 31 ≤ v.toNat) :
    ∃ c', incrementBy max c v = some c' ∧ c'.count = c.count := by
  obtain ⟨hpos, hlt⟩ := toNat_of_pos hp
  have hmod : n % p.toNat < p.toNat := Nat.mod_lt _ hpos
  have hrest : c.prescaleCount.toInt = (n % p.toNat : ℕ) := by
    rw [← h.rest]
    exact toInt_of_lt (by rw [h.rest]; omega)
  have hneg : v.toInt = (v.toNat : ℤ) - 2 ^ 32 := by
    rw [BitVec.toInt_eq_toNat_cond, if_neg (by omega)]
    rfl
  have hbound := v.isLt
  have hov : c.prescaleCount.saddOverflow v = false := by
    simp only [BitVec.saddOverflow, hrest, hneg, Bool.or_eq_false_iff, decide_eq_false_iff_not]
    omega
  have hsum : (c.prescaleCount + v).toInt = c.prescaleCount.toInt + v.toInt :=
    BitVec.toInt_add_of_not_saddOverflow (by simp [hov])
  have hsle : c.prescaleTarget.sle (c.prescaleCount + v) = false := by
    simp only [BitVec.sle, hsum, hrest, hneg, h.target, toInt_of_lt hlt, decide_eq_false_iff_not]
    omega
  rw [incrementBy, if_neg (by simp [hov])]
  simp only [hsle]
  exact ⟨_, rfl, rfl⟩

/-- What a call does to a register that has not wrapped yet. -/
theorem Tracks.incrementBy_eq (h : Tracks p n c) (hp : 1 ≤ p.toInt) (hw : max.toNat + 2 ^ 31 < 2 ^ w)
    (hm : n / p.toNat ≤ max.toNat) (hsum : n % p.toNat + v.toNat < 2 ^ 31) :
    incrementBy max c v = some
      (if max.toNat < (n + v.toNat) / p.toNat then
        { c with
          count := BitVec.ofNat 32 ((n + v.toNat) / p.toNat % max.toNat)
          isOverflowed := true
          prescaleCount := BitVec.ofNat 32 ((n + v.toNat) % p.toNat) }
      else
        { c with
          count := BitVec.ofNat 32 ((n + v.toNat) / p.toNat)
          prescaleCount := BitVec.ofNat 32 ((n + v.toNat) % p.toNat) }) := by
  obtain ⟨hpos, hlt⟩ := toNat_of_pos hp
  have hadd := h.toNat_add hsum
  have hrest : c.prescaleCount.toNat < 2 ^ 31 := by rw [h.rest]; omega
  have hov : c.prescaleCount.saddOverflow v = false := by
    simp only [BitVec.saddOverflow, toInt_of_lt hrest, toInt_of_lt (show v.toNat < 2 ^ 31 by omega), h.rest,
      Bool.or_eq_false_iff, decide_eq_false_iff_not]
    omega
  have hsle : c.prescaleTarget.sle (c.prescaleCount + v) = decide (p.toNat ≤ n % p.toNat + v.toNat) := by
    simp only [BitVec.sle, h.target, toInt_of_lt hlt, toInt_of_lt (hadd ▸ hsum), hadd, Int.ofNat_le]
  have hdiv : (n + v.toNat) / p.toNat = n / p.toNat + (n % p.toNat + v.toNat) / p.toNat := div_add hpos
  have hmod : (n % p.toNat + v.toNat) % p.toNat = (n + v.toNat) % p.toNat := Nat.mod_add_mod _ _ _
  rw [incrementBy, if_neg (by simp [hov])]
  simp only [hsle, decide_eq_true_eq]
  by_cases hle : p.toNat ≤ n % p.toNat + v.toNat
  · have hself := Nat.div_le_self (n % p.toNat + v.toNat) p.toNat
    have hN : (BitVec.ofNat w ((n + v.toNat) / p.toNat)).toNat = (n + v.toNat) / p.toNat := by
      rw [BitVec.toNat_ofNat, Nat.mod_eq_of_lt (by omega)]
    have hloop : prescale c.prescaleTarget ((c.prescaleCount + v).toNat + 1) (c.count.setWidth w) (c.prescaleCount + v) =
        some (BitVec.ofNat w ((n + v.toNat) / p.toNat), BitVec.ofNat 32 ((n + v.toNat) % p.toNat)) := by
      rw [h.target, prescale_eq hp (hadd ▸ hsum) _ (Nat.lt_succ_of_le (Nat.div_le_self _ _)), hadd, hmod]
      congr 2
      apply BitVec.eq_of_toNat_eq
      rw [hN, BitVec.toNat_add, BitVec.toNat_setWidth, h.count, BitVec.toNat_ofNat, ← Nat.add_mod, hdiv,
        Nat.mod_eq_of_lt (by omega)]
    rw [if_pos hle, hloop, Option.map_some]
    simp only [BitVec.lt_def, hN]
    split
    · congr 2
      apply BitVec.eq_of_toNat_eq
      rw [BitVec.toNat_setWidth, BitVec.toNat_umod, hN, BitVec.toNat_ofNat]
    · congr 2
      apply BitVec.eq_of_toNat_eq
      rw [BitVec.toNat_setWidth, hN, BitVec.toNat_ofNat]
  · -- the target is not reached and the count stays
    have hsame : (n + v.toNat) / p.toNat = n / p.toNat := by
      rw [hdiv, Nat.div_eq_of_lt (Nat.lt_of_not_le hle), Nat.add_zero]
    rw [if_neg hle, if_neg (by omega), hsame, ← h.count, ← hmod, Nat.mod_eq_of_lt (Nat.lt_of_not_le hle), ← hadd]
    simp only [BitVec.ofNat_toNat, BitVec.setWidth_eq]

/-! ### Calls of increment -/

/-- After each call that adds to the first `n` ticks, the register reads the count of a prescaled counter modulo `m`, and
its overflow flag, asked for and reset, says whether the call wrapped it. -/
def Follows {k : ℕ} (increment : TimersUnitRegisterCount → BitVec k → Option TimersUnitRegisterCount) (p m : ℕ) :
    ℕ → List (BitVec k) → TimersUnitRegisterCount → Prop
  | _, [], _ => True
  | n, v :: vs, c => ∃ c', increment c v = some c' ∧ c'.count.toNat = Prescaler.count p m (n + v.toNat) ∧
      (c'.isOverflowedAndReset.1 = true ↔ Wraps p m n v.toNat) ∧
      Follows increment p m (n + v.toNat) vs c'.isOverflowedAndReset.2

/-- The calls an increment of `w` bits gets right: of each value the register takes in `w` bits only, which must make no
difference to the count, the sum with the ticks not counted yet fits an `int`, and the count stays below `2 ^ w`. `n` are
the ticks so far, `n'` those taken in. -/
def InRange {k : ℕ} (p w : ℕ) : ℕ → ℕ → List (BitVec k) → Prop
  | _, _, [] => True
  | n, n', v :: vs => n' % p + v.toNat % 2 ^ w < 2 ^ 31 ∧ (n' + v.toNat % 2 ^ w) / p = (n + v.toNat) / p ∧
      (n + v.toNat) / p < 2 ^ w ∧ InRange p w (n + v.toNat) (n' + v.toNat % 2 ^ w) vs

instance InRange.decidable {k : ℕ} (p w : ℕ) :
    ∀ (n n' : ℕ) (vs : List (BitVec k)), Decidable (InRange p w n n' vs)
  | _, _, [] => isTrue trivial
  | n, n', v :: vs =>
    have := InRange.decidable p w (n + v.toNat) (n' + v.toNat % 2 ^ w) vs
    inferInstanceAs (Decidable (_ ∧ _ ∧ _ ∧ _))

/-- A call that stays below the maximum is counted. -/
theorem Tracks.incrementBy_of_le (h : Tracks p n c) (hp : 1 ≤ p.toInt) (hw : max.toNat + 2 ^ 31 < 2 ^ w)
    (hmax : max.toNat < 2 ^ 32) (hsum : n % p.toNat + v.toNat < 2 ^ 31) (hle : (n + v.toNat) / p.toNat ≤ max.toNat) :
    ∃ c', incrementBy max c v = some c' ∧ Tracks p (n + v.toNat) c' := by
  obtain ⟨hpos, -⟩ := toNat_of_pos hp
  have hn : n / p.toNat ≤ (n + v.toNat) / p.toNat := Nat.div_le_div_right (Nat.le_add_right _ _)
  have heq := h.incrementBy_eq hp hw (Nat.le_trans hn hle) hsum
  rw [if_neg (Nat.not_lt.mpr hle)] at heq
  have hleft : (n + v.toNat) % p.toNat < 2 ^ 32 := Nat.lt_trans (Nat.mod_lt _ hpos) p.isLt
  refine ⟨_, heq, h.target, ?_, ?_, h.flag⟩
  · rw [BitVec.toNat_ofNat, Nat.mod_eq_of_lt hleft]
  · rw [BitVec.toNat_ofNat, Nat.mod_eq_of_lt (Nat.lt_of_le_of_lt hle hmax)]

/-- A call that passes the maximum reduces the count by it. -/
theorem Tracks.incrementBy_of_lt (h : Tracks p n c) (hp : 1 ≤ p.toInt) (hw : max.toNat + 2 ^ 31 < 2 ^ w)
    (hpos : 0 < max.toNat) (hmax : max.toNat < 2 ^ 32) (hn : n / p.toNat ≤ max.toNat)
    (hsum : n % p.toNat + v.toNat < 2 ^ 31) (hlt : max.toNat < (n + v.toNat) / p.toNat) :
    ∃ c', incrementBy max c v = some c' ∧ c'.count.toNat = (n + v.toNat) / p.toNat % max.toNat ∧
      c'.isOverflowed = true := by
  have heq := h.incrementBy_eq hp hw hn hsum
  rw [if_pos hlt] at heq
  refine ⟨_, heq, ?_, rfl⟩
  rw [BitVec.toNat_ofNat, Nat.mod_eq_of_lt (Nat.lt_trans (Nat.mod_lt _ hpos) hmax)]

/-- Asked for its flag, a register that did not wrap stays as it is. -/
theorem Tracks.isOverflowedAndReset_eq (h : Tracks p n c) : c.isOverflowedAndReset = (false, c) := by
  obtain ⟨count, isOverflowed, prescaleTarget, prescaleCount⟩ := c
  obtain rfl : isOverflowed = false := h.flag
  rfl

/-- A flag that is raised stays raised. -/
theorem isOverflowed_incrementBy {c' : TimersUnitRegisterCount} (h : incrementBy max c v = some c')
    (hc : c.isOverflowed = true) : c'.isOverflowed = true := by
  rw [incrementBy] at h
  split at h
  · cases h
  · dsimp only at h
    split at h
    · obtain ⟨r, -, rfl⟩ := Option.map_eq_some_iff.mp h
      split
      · rfl
      · exact hc
    · cases h
      exact hc

section Calls

variable {k m : ℕ} {take : BitVec k → BitVec 32} {vs : List (BitVec k)} {n' : ℕ}

/-- Calls in range are counted. -/
theorem Tracks.follows (hp : 1 ≤ p.toInt) (hw : max.toNat + 2 ^ 31 < 2 ^ w) (hmax : max.toNat + 1 = 2 ^ m) (hm : 1 < m)
    (hm' : m ≤ 32) (htake : ∀ v, (take v).toNat = v.toNat % 2 ^ m) (h : Tracks p n' c) (hr : InRange p.toNat m n n' vs) :
    Follows (fun c v => incrementBy max c (take v)) p.toNat (2 ^ m) n vs c := by
  obtain ⟨hpos, -⟩ := toNat_of_pos hp
  have hone : 2 ^ 1 < 2 ^ m := Nat.pow_lt_pow_right (by omega) hm
  have hfit : 2 ^ m ≤ 2 ^ 32 := Nat.pow_le_pow_right (by omega) hm'
  induction vs generalizing n n' c with
  | nil => trivial
  | cons v vs ih =>
    obtain ⟨hsum, hdiv, hcount, hrest⟩ := hr
    rw [← htake] at hsum hdiv hrest
    obtain ⟨c', hc', h'⟩ := h.incrementBy_of_le hp hw (by omega) hsum (by omega)
    refine ⟨c', hc', ?_, ?_, ?_⟩
    · rw [h'.count, hdiv, count_eq_of_lt hcount]
    · simp only [h'.isOverflowedAndReset_eq, Bool.false_eq_true, false_iff]
      exact not_wraps_of_lt hpos (by omega) hcount
    · rw [h'.isOverflowedAndReset_eq]
      exact ih h' hrest

/-- A call whose sum leaves the `int`s is not counted: it is undefined, or the word is negative. -/
theorem Tracks.not_follows_of_overflow (hp : 1 ≤ p.toInt) (htake : ∀ v, (take v).toNat = v.toNat % 2 ^ m)
    (h : Tracks p n' c) (hn : n' / p.toNat = n / p.toNat) {u : BitVec k}
    (hu : u.toNat < 2 ^ m ∨ (n + u.toNat) / p.toNat < 2 ^ m) (hsum : 2 ^ 31 ≤ n' % p.toNat + (take u).toNat)
    {c' : TimersUnitRegisterCount} (hc : incrementBy max c (take u) = some c') :
    c'.count.toNat ≠ Prescaler.count p.toNat (2 ^ m) (n + u.toNat) := by
  obtain ⟨hpos, hlt⟩ := toNat_of_pos hp
  rcases Nat.lt_or_ge (take u).toNat (2 ^ 31) with hsmall | hneg
  · rw [h.incrementBy_eq_none hp hsmall hsum] at hc
    cases hc
  · obtain ⟨c₁, hc₁, hcount⟩ := h.incrementBy_of_neg hp hneg
    obtain rfl : c' = c₁ := Option.some.inj (hc.symm.trans hc₁)
    rw [hcount, h.count, hn]
    -- the count should advance, by less than its modulus
    have hle : (take u).toNat ≤ u.toNat := htake u ▸ Nat.mod_le _ _
    have hup : n / p.toNat < (n + u.toNat) / p.toNat := by
      have hstep : (n + p.toNat) / p.toNat ≤ (n + u.toNat) / p.toNat := Nat.div_le_div_right (by omega)
      rw [Nat.add_div_right _ hpos] at hstep
      omega
    have hadv := div_add_le (n := n) (k := u.toNat) hpos (by omega)
    rcases hu with hu | hu
    · exact (count_ne_of_lt hup (by omega)).symm
    · rw [count_eq_of_lt hu]
      omega

/-- Only calls in range are counted, if each value is taken in as it is or the ticks never wrap the count. -/
theorem Tracks.inRange (hp : 1 ≤ p.toInt) (hw : max.toNat + 2 ^ 31 < 2 ^ w) (hmax : max.toNat + 1 = 2 ^ m) (hm : 1 < m)
    (hm' : m ≤ 32) (htake : ∀ v, (take v).toNat = v.toNat % 2 ^ m) (h : Tracks p n' c) (hn : n' / p.toNat = n / p.toNat)
    (hlt : n / p.toNat < 2 ^ m)
    (halt : (n' = n ∧ ∀ v ∈ vs, v.toNat < 2 ^ m) ∨ (n + (vs.map BitVec.toNat).sum) / p.toNat < 2 ^ m)
    (hf : Follows (fun c v => incrementBy max c (take v)) p.toNat (2 ^ m) n vs c) : InRange p.toNat m n n' vs := by
  obtain ⟨hpos, -⟩ := toNat_of_pos hp
  have hone : 2 ^ 1 < 2 ^ m := Nat.pow_lt_pow_right (by omega) hm
  have hfit : 2 ^ m ≤ 2 ^ 32 := Nat.pow_le_pow_right (by omega) hm'
  induction vs generalizing n n' c with
  | nil => trivial
  | cons v vs ih =>
    obtain ⟨c', hc', hcount, hflag, hrest⟩ := hf
    -- what the two cases of `halt` say of this call
    have hcall : (n' = n ∧ v.toNat < 2 ^ m) ∨ (n + v.toNat) / p.toNat < 2 ^ m := by
      refine halt.imp (fun hall => ⟨hall.1, hall.2 v List.mem_cons_self⟩) fun hsum => Nat.lt_of_le_of_lt ?_ hsum
      rw [List.map_cons, List.sum_cons]
      exact Nat.div_le_div_right (by omega)
    have hval : v.toNat < 2 ^ m → (take v).toNat = v.toNat := fun hv => by rw [htake, Nat.mod_eq_of_lt hv]
    have hsum : n' % p.toNat + (take v).toNat < 2 ^ 31 := by
      by_contra hge
      exact h.not_follows_of_overflow hp htake hn (hcall.imp And.right id) (by omega) hc' hcount
    rcases Nat.lt_or_ge max.toNat ((n' + (take v).toNat) / p.toNat) with hwrap | hstay
    · -- the register wraps: the ticks do too, and the count is off
      exfalso
      obtain ⟨c₁, hc₁, hread, hraised⟩ := h.incrementBy_of_lt hp hw (by omega) (by omega) (by omega) hsum hwrap
      obtain rfl : c' = c₁ := Option.some.inj (Eq.trans hc'.symm hc₁)
      have hreach : 2 ^ m ≤ (n + v.toNat) / p.toNat := le_of_wraps hpos (by omega) (hflag.mp hraised)
      rcases hcall with ⟨rfl, hv⟩ | hsmall
      · have hv0 : 0 < v.toNat := by
          by_contra h0
          rw [Nat.eq_zero_of_not_pos h0, Nat.add_zero] at hreach
          omega
        have hadd := div_add_le (n := n') hpos hv0
        rw [hread, hval hv, show max.toNat = 2 ^ m - 1 by omega] at hcount
        exact mod_pred_ne (by omega) hreach (by omega) hcount
      · omega
    · obtain ⟨c₁, hc₁, h'⟩ := h.incrementBy_of_le hp hw (by omega) hsum hstay
      obtain rfl : c' = c₁ := Option.some.inj (Eq.trans hc'.symm hc₁)
      rw [h'.isOverflowedAndReset_eq] at hflag hrest
      have hbelow : (n + v.toNat) / p.toNat < 2 ^ m := by
        by_contra hge
        exact absurd (hflag.mpr (wraps_of_le hpos (by omega) hlt (by omega))) Bool.false_ne_true
      have hdiv : (n' + (take v).toNat) / p.toNat = (n + v.toNat) / p.toNat := by
        rwa [h'.count, count_eq_of_lt hbelow] at hcount
      rw [InRange, ← htake]
      refine ⟨hsum, hdiv, hbelow, ih h' hdiv hbelow ?_ hrest⟩
      rcases halt with ⟨rfl, hall⟩ | hsmall
      · exact .inl ⟨by rw [hval (hall v List.mem_cons_self)], fun u hu => hall u (List.mem_cons_of_mem _ hu)⟩
      · rw [List.map_cons, List.sum_cons, ← Nat.add_assoc] at hsmall
        exact .inr hsmall

theorem tracks_resetPrescale (hc : c.isOverflowed = false) : Tracks p 0 (c.resetPrescale p) :=
  ⟨rfl, (Nat.zero_mod _).symm, (Nat.zero_div _).symm, hc⟩

/-- After a reset with the flag clear, calls in range are counted. -/
theorem follows_resetPrescale (hp : 1 ≤ p.toInt) (hw : max.toNat + 2 ^ 31 < 2 ^ w) (hmax : max.toNat + 1 = 2 ^ m)
    (hm : 1 < m) (hm' : m ≤ 32) (htake : ∀ v, (take v).toNat = v.toNat % 2 ^ m)
    (h : (vs = [] ∨ c.isOverflowed = false) ∧ InRange p.toNat m 0 0 vs) :
    Follows (fun c v => incrementBy max c (take v)) p.toNat (2 ^ m) 0 vs (c.resetPrescale p) := by
  obtain ⟨rfl | hc, hr⟩ := h
  · trivial
  · exact (tracks_resetPrescale hc).follows hp hw hmax hm hm' htake hr

/-- A flag left over from before the reset is reported by the first call. -/
theorem not_follows_of_isOverflowed (hp : 1 ≤ p.toInt) (hm : 1 < m) {v : BitVec k} (hv : v.toNat / p.toNat < 2 ^ m)
    (hc : c.isOverflowed = true) :
    ¬Follows (fun c v => incrementBy max c (take v)) p.toNat (2 ^ m) 0 (v :: vs) (c.resetPrescale p) := by
  obtain ⟨hpos, -⟩ := toNat_of_pos hp
  have hone : 2 ^ 1 < 2 ^ m := Nat.pow_lt_pow_right (by omega) hm
  rintro ⟨c', hc', -, hflag, -⟩
  have hreach := le_of_wraps hpos (by omega) (hflag.mp (isOverflowed_incrementBy hc' hc))
  rw [Nat.zero_add] at hreach
  omega

/-- After a reset, only calls in range made with the flag clear are counted. -/
theorem inRange_of_follows (hp : 1 ≤ p.toInt) (hw : max.toNat + 2 ^ 31 < 2 ^ w) (hmax : max.toNat + 1 = 2 ^ m)
    (hm : 1 < m) (hm' : m ≤ 32) (htake : ∀ v, (take v).toNat = v.toNat % 2 ^ m)
    (halt : (∀ v ∈ vs, v.toNat < 2 ^ m) ∨ (vs.map BitVec.toNat).sum / p.toNat < 2 ^ m)
    (hf : Follows (fun c v => incrementBy max c (take v)) p.toNat (2 ^ m) 0 vs (c.resetPrescale p)) :
    (vs = [] ∨ c.isOverflowed = false) ∧ InRange p.toNat m 0 0 vs := by
  cases vs with
  | nil => exact ⟨.inl rfl, trivial⟩
  | cons v vs =>
    have hv : v.toNat / p.toNat < 2 ^ m := by
      rcases halt with hall | hsmall
      · exact Nat.lt_of_le_of_lt (Nat.div_le_self _ _) (hall v List.mem_cons_self)
      · rw [List.map_cons, List.sum_cons] at hsmall
        exact Nat.lt_of_le_of_lt (Nat.div_le_div_right (Nat.le_add_right _ _)) hsmall
    have hc : c.isOverflowed = false := by
      by_contra hstale
      exact not_follows_of_isOverflowed hp hm hv (by simpa using hstale) hf
    refine ⟨.inr hc, (tracks_resetPrescale hc).inRange hp hw hmax hm hm' htake rfl ?_ ?_ hf⟩
    · rw [Nat.zero_div]
      exact Nat.two_pow_pos m
    · rw [Nat.zero_add]
      exact halt.imp (⟨rfl, ·⟩) id

end Calls

/-! ### The three registers -/

theorem toNat_setWidth_uhword (v : Uhword) : (v.setWidth 32).toNat = v.toNat % 2 ^ 16 := by
  rw [BitVec.toNat_setWidth]
  omega

theorem toNat_uword (v : Uword) : v.toNat = v.toNat % 2 ^ 32 := (Nat.mod_eq_of_lt v.isLt).symm

theorem toNat_setWidth_cut (v : Uword) : ((v.setWidth 16).setWidth 32).toNat = v.toNat % 2 ^ 16 := by
  simp only [BitVec.toNat_setWidth]
  omega

/-- After a reset to a prescale of `p`, calls of `increment` make the registers read the ticks divided by `p`, modulo
`2 ^ 16` or `2 ^ 32`, and report each wrap once, if and only if no wrap was left to report, the count never wraps, and no
sum of ticks leaves an `int`. The 16 bit register of the IOP takes its values in 16 bits: larger ones count as long as what
is cut off makes no difference. -/
theorem timersCount_follows_iff (c : TimersUnitRegisterCount) (p : BitVec 32) (hp : 1 ≤ p.toInt) :
    (∀ vs, Follows EeTimersUnitRegisterCount.increment p.toNat (2 ^ 16) 0 vs (c.resetPrescale p) ↔
      (vs = [] ∨ c.isOverflowed = false) ∧ InRange p.toNat 16 0 0 vs) ∧
    (∀ vs, Follows (IopTimersUnitRegisterCount.increment true) p.toNat (2 ^ 32) 0 vs (c.resetPrescale p) ↔
      (vs = [] ∨ c.isOverflowed = false) ∧ InRange p.toNat 32 0 0 vs) ∧
    ∀ vs, ((vs = [] ∨ c.isOverflowed = false) ∧ InRange p.toNat 16 0 0 vs →
        Follows (IopTimersUnitRegisterCount.increment false) p.toNat (2 ^ 16) 0 vs (c.resetPrescale p)) ∧
      ((∀ v ∈ vs, v.toNat < 2 ^ 16) ∨ (vs.map BitVec.toNat).sum / p.toNat < 2 ^ 16 →
        Follows (IopTimersUnitRegisterCount.increment false) p.toNat (2 ^ 16) 0 vs (c.resetPrescale p) →
        (vs = [] ∨ c.isOverflowed = false) ∧ InRange p.toNat 16 0 0 vs) := by
  refine ⟨fun vs => ⟨?_, ?_⟩, fun vs => ⟨?_, ?_⟩, fun vs => ⟨?_, ?_⟩⟩
  · exact inRange_of_follows hp (by decide) (by decide) (by decide) (by decide) toNat_setWidth_uhword (.inl fun v _ => v.isLt)
  · exact follows_resetPrescale hp (by decide) (by decide) (by decide) (by decide) toNat_setWidth_uhword
  · exact inRange_of_follows hp (by decide) (by decide) (by decide) (by decide) toNat_uword (.inl fun v _ => v.isLt)
  · exact follows_resetPrescale hp (by decide) (by decide) (by decide) (by decide) toNat_uword
  · exact follows_resetPrescale hp (by decide) (by decide) (by decide) (by decide) toNat_setWidth_cut
  · exact inRange_of_follows hp (by decide) (by decide) (by decide) (by decide) toNat_setWidth_cut

/-- A prescale of 16 counts the second call of two. -/
theorem timersCount_follows_sixteen :
    Follows EeTimersUnitRegisterCount.increment 16 (2 ^ 16) 0 [10, 30] (resetPrescale ⟨0, false, 1, 0⟩ 16) :=
  ((timersCount_follows_iff ⟨0, false, 1, 0⟩ 16 (by decide)).1 [10, 30]).mpr ⟨.inr rfl, by decide⟩

/-- After `2 ^ 16` ticks the 16 bit registers read 1, and after `2 ^ 32` so does the one of 32 bits. -/
theorem timersCount_not_follows_past_maximum :
    ¬Follows EeTimersUnitRegisterCount.increment 1 (2 ^ 16) 0 [0xFFFF, 1] (resetPrescale ⟨0, false, 1, 0⟩ 1) ∧
    ¬Follows (IopTimersUnitRegisterCount.increment false) 1 (2 ^ 16) 0 [0xFFFF, 1] (resetPrescale ⟨0, false, 1, 0⟩ 1) ∧
    ¬Follows (IopTimersUnitRegisterCount.increment true) 1 (2 ^ 32) 0 [0x7FFFFFFF, 0x7FFFFFFF, 2]
      (resetPrescale ⟨0, false, 1, 0⟩ 1) := by
  refine ⟨fun h => ?_, fun h => ?_, fun h => ?_⟩
  · exact absurd (inRange_of_follows (p := 1) (by decide) (by decide) (by decide) (by decide)
      (by decide) toNat_setWidth_uhword (.inl fun v _ => v.isLt) h).2 (by decide)
  · exact absurd (inRange_of_follows (p := 1) (by decide) (by decide) (by decide) (by decide)
      (by decide) toNat_setWidth_cut (.inl (by simp)) h).2 (by decide)
  · exact absurd (inRange_of_follows (p := 1) (by decide) (by decide) (by decide)
      (by decide) (by decide) toNat_uword (.inl fun v _ => v.isLt) h).2 (by decide)

end TimersUnitRegisterCount

end Orbum
