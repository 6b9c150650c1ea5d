import Orbum.Ee.Core.MultiplyAccumulate

/-!
# Parallel multiplication against the other

`PMULTW` and `PMULTUW` against `MULT` and `MULTU`, and `PMADDH` and `PMSUBH` against `PMULTH`.
-/

namespace Orbum

open Lanes

namespace R5900

variable {σ : Type}

/-! ### Words -/

/-- `d'` has the exact products of the words of `Rs` and `Rt` in `d`, and what the scalar instruction leaves in `LO` and
`HI`. -/
structure MultipliesWords (x : Widening) (inst : EeCoreInstruction) (d d' scalar : R5900 σ) : Prop where
  /-- `Rd`. -/
  rd : inst.rd ≠ 0 → ∀ k < 2, lane 64 k (d'.gpr inst.rd) =
    BitVec.ofInt 64 (x.value (read 32 d inst.rs (2 * k)) * x.value (read 32 d inst.rt (2 * k)))
  /-- `LO`. -/
  lo : ∀ k < 2, lane 64 k d'.rest.lo =
    loWord (x.value (read 32 d inst.rs (2 * k)) * x.value (read 32 d inst.rt (2 * k)))
  /-- `HI`. -/
  hi : ∀ k < 2, lane 64 k d'.rest.hi =
    hiWord (x.value (read 32 d inst.rs (2 * k)) * x.value (read 32 d inst.rt (2 * k)))
  /-- Lane 0. -/
  agrees : Accumulation.Agree d' scalar

/-- `MULT` and `MULTU` are exact. -/
theorem words_scalarMult (x : Widening) (inst : EeCoreInstruction) (d : R5900 σ) :
    lane 64 0 (scalarMult x inst d).rest.lo = loWord (x.value (read 32 d inst.rs 0) * x.value (read 32 d inst.rt 0)) ∧
      lane 64 0 (scalarMult x inst d).rest.hi =
        hiWord (x.value (read 32 d inst.rs 0) * x.value (read 32 d inst.rt 0)) := by
  have hlane (q : Uqword) (v : Udword) : lane 64 0 (setLane 0 q v) = v := lane_setLane_self (by decide) q v
  simp only [scalarMult, lo_writeResult, hi_writeResult, hlane, x.widen_mul_widen, loHalf_ofInt, hiHalf_ofInt]
  exact ⟨rfl, rfl⟩

/-- Equal modulo a doubleword. -/
theorem value_mul_self_iff (x : Widening) (a b : Uword) :
    x.value a * x.value a % 2 ^ 64 = x.value a * x.value b % 2 ^ 64 ↔ a = 0 ∨ b = a := by
  have hrange : (x.value a).natAbs < 2 ^ 32 ∧ (x.value a - x.value b).natAbs < 2 ^ 32 := by
    have ha := a.isLt
    have hb := b.isLt
    have ha' : -2 ^ 31 ≤ a.toInt ∧ a.toInt < 2 ^ 31 := ⟨a.le_toInt, a.toInt_lt⟩
    have hb' : -2 ^ 31 ≤ b.toInt ∧ b.toInt < 2 ^ 31 := ⟨b.le_toInt, b.toInt_lt⟩
    cases x with
    | signed =>
      simp only [Widening.value]
      omega
    | unsigned =>
      simp only [Widening.value]
      omega
  have hinj : x.value b = x.value a ↔ b = a := by
    cases x with
    | signed => exact BitVec.toInt_inj
    | unsigned => exact Int.natCast_inj.trans BitVec.toNat_inj
  have hzero : x.value a = 0 ↔ a = 0 := by
    cases x with
    | signed => exact BitVec.toInt_inj (y := 0)
    | unsigned => exact Int.natCast_eq_zero.trans (BitVec.toNat_inj (y := 0))
  have hlt : (x.value a * (x.value a - x.value b)).natAbs < 2 ^ 64 := by
    rw [Int.natAbs_mul]
    exact Nat.lt_of_lt_of_le (Nat.mul_lt_mul'' hrange.1 hrange.2) (by decide)
  have hprod : x.value a * x.value a = x.value a * x.value b + x.value a * (x.value a - x.value b) := by
    rw [← Int.mul_add]
    congr 1
    omega
  rw [← hzero, ← hinj]
  constructor
  · intro h
    have hmul : x.value a * (x.value a - x.value b) = 0 := by omega
    rcases Int.mul_eq_zero.mp hmul with h | h
    · exact .inl h
    · exact .inr (by omega)
  · rintro (h | h)
    · simp [h]
    · rw [h]

/-- What the parallel instruction leaves in `LO` and `HI`. -/
theorem lane_parallelMult (x : Widening) (inst : EeCoreInstruction) (d : R5900 σ) {k : ℕ} (hk : k < 2) :
    lane 64 k (parallelMult x inst d).rest.lo =
        loWord (x.value (read 32 d inst.rs (2 * k)) * x.value (read 32 d inst.rs (2 * k))) ∧
      lane 64 k (parallelMult x inst d).rest.hi =
        hiWord (x.value (read 32 d inst.rs (2 * k)) * x.value (read 32 d inst.rs (2 * k))) := by
  simp only [parallelMult, lane_lo_writeResults hk, lane_hi_writeResults hk, x.widen_mul_widen, withHalves_ofInt,
    and_self]

/-- The parallel instruction multiplies the words of `Rs` with themselves. -/
theorem multipliesWords_iff (x : Widening) (inst : EeCoreInstruction) (d : R5900 σ) :
    MultipliesWords x inst d (parallelMult x inst d) (scalarMult x inst d) ↔
      ∀ k < 2, read 32 d inst.rs (2 * k) = 0 ∨ read 32 d inst.rt (2 * k) = read 32 d inst.rs (2 * k) := by
  obtain ⟨hlo, hhi⟩ := words_scalarMult x inst d
  have hmul (k : ℕ) := value_mul_self_iff x (read 32 d inst.rs (2 * k)) (read 32 d inst.rt (2 * k))
  have hlane {k : ℕ} (hk : k < 2) := lane_parallelMult x inst d hk
  constructor
  · intro h k hk
    refine (hmul k).mp (words_eq_iff.mp ⟨?_, ?_⟩)
    · exact (hlane hk).1.symm.trans (h.lo k hk)
    · exact (hlane hk).2.symm.trans (h.hi k hk)
  · intro h
    have hwords {k : ℕ} (hk : k < 2) := words_eq_iff.mpr ((hmul k).mpr (h k hk))
    refine ⟨fun hrd k hk => ?_, fun k hk => (hlane hk).1.trans (hwords hk).1,
      fun k hk => (hlane hk).2.trans (hwords hk).2, ?_, ?_⟩
    · simp only [parallelMult, lane_gpr_writeResults hrd hk, x.widen_mul_widen, withHalves_ofInt]
      exact ofInt_eq_ofInt_iff.mpr ((hmul k).mpr (h k hk))
    · exact ((hlane (by decide)).1.trans (hwords (k := 0) (by decide)).1).trans hlo.symm
    · exact ((hlane (by decide)).2.trans (hwords (k := 0) (by decide)).2).trans hhi.symm

/-- Whatever is multiplied: `PMULTW` and `PMULTUW` multiply the words of `Rs` with those of `Rt`, and agree with `MULT`
and `MULTU`, if and only if in each lane the word of `Rs` is 0 or that of `Rt`. -/
theorem parallel_words_iff (inst : EeCoreInstruction) (d : R5900 σ) :
    (MultipliesWords .signed inst d (pmultw inst d) (mult inst d) ↔
      ∀ k < 2, read 32 d inst.rs (2 * k) = 0 ∨ read 32 d inst.rt (2 * k) = read 32 d inst.rs (2 * k)) ∧
    (MultipliesWords .unsigned inst d (pmultuw inst d) (multu inst d) ↔
      ∀ k < 2, read 32 d inst.rs (2 * k) = 0 ∨ read 32 d inst.rt (2 * k) = read 32 d inst.rs (2 * k)) :=
  ⟨multipliesWords_iff .signed inst d, multipliesWords_iff .unsigned inst d⟩

/-- `PMULTW` of 1 and 0 gives 1. -/
theorem parallel_words_squared :
    ¬∀ (inst : EeCoreInstruction) (d : R5900 Unit), MultipliesWords .signed inst d (pmultw inst d) (mult inst d) := by
  intro h
  exact absurd ((h ⟨0x70225309⟩ ⟨fun r => if r = 1 then 1 else 0, 0, 0, 0, ()⟩).lo 0 (by decide)) (by decide)

/-! ### Halfwords -/

section Halfwords

/-- The product of halfwords `i`. -/
def halfwordProduct (inst : EeCoreInstruction) (d : R5900 σ) (i : ℕ) : Uword :=
  (read 16 d inst.rs i).signExtend 32 * (read 16 d inst.rt i).signExtend 32

/-- The halfwords whose products are accumulated to the words of `LO`: 0, 1, 4 and 5. -/
def loIndex (k : ℕ) : ℕ := if k < 2 then k else k + 2

/-- Those of `HI`: 2, 3, 6 and 7. -/
def hiIndex (k : ℕ) : ℕ := loIndex k + 2

variable (op : Uword → Uword → Uword) (last : ℕ) (inst : EeCoreInstruction) (d : R5900 σ) {k : ℕ}

theorem accumulator_lo (hk : k < 4) : accumulator d (loIndex k) = lane 32 k d.rest.lo := by
  obtain rfl | rfl | rfl | rfl : k = 0 ∨ k = 1 ∨ k = 2 ∨ k = 3 := by omega
  all_goals rfl

theorem accumulator_hi (hk : k < 4) : accumulator d (hiIndex k) = lane 32 k d.rest.hi := by
  obtain rfl | rfl | rfl | rfl : k = 0 ∨ k = 1 ∨ k = 2 ∨ k = 3 := by omega
  all_goals rfl

/-- The words of `LO`. -/
theorem lane_lo_halfwords (hk : k < 4) :
    lane 32 k (halfwords inst d op last).rest.lo =
      op (lane 32 k d.rest.lo) (halfwordProduct inst d (loIndex k)) := by
  have hrest : (d.writeUqword inst.rd (setWords (d.gpr inst.rd) (op (accumulator d 0) (halfwordProduct inst d 0))
      (op (accumulator d 2) (halfwordProduct inst d 2)) (op (accumulator d 4) (halfwordProduct inst d 4))
      (op (accumulator d last) (halfwordProduct inst d last)))).rest = d.rest := by
    unfold EeData.writeUqword
    split_ifs <;> rfl
  rw [← accumulator_lo d hk]
  exact (congrArg (fun rest : Special σ => lane 32 k (setWords rest.lo _ _ _ _)) hrest).trans
    (lane_setWords d.rest.lo (fun k => op (accumulator d (loIndex k)) (halfwordProduct inst d (loIndex k))) hk)

/-- The words of `HI`. -/
theorem lane_hi_halfwords (hk : k < 4) :
    lane 32 k (halfwords inst d op last).rest.hi =
      op (lane 32 k d.rest.hi) (halfwordProduct inst d (hiIndex k)) := by
  rw [← accumulator_hi d hk]
  exact lane_setWords _ (fun k => op (accumulator d (hiIndex k)) (halfwordProduct inst d (hiIndex k))) hk

/-- The words of `Rd`. -/
theorem lane_gpr_halfwords (hrd : inst.rd ≠ 0) (hk : k < 4) :
    lane 32 k ((halfwords inst d op last).gpr inst.rd) =
      let i := if k = 3 then last else 2 * k
      op (accumulator d i) (halfwordProduct inst d i) := by
  have hgpr : (halfwords inst d op last).gpr inst.rd = setWords (d.gpr inst.rd)
      (op (accumulator d 0) (halfwordProduct inst d 0)) (op (accumulator d 2) (halfwordProduct inst d 2))
      (op (accumulator d 4) (halfwordProduct inst d 4)) (op (accumulator d last) (halfwordProduct inst d last)) := by
    simp only [halfwords, setHi_gpr, setLo_gpr, EeData.writeUqword, if_neg hrd, Function.update_self]
    rfl
  rw [hgpr]
  exact lane_setWords _ (fun k => op (accumulator d (if k = 3 then last else 2 * k))
    (halfwordProduct inst d (if k = 3 then last else 2 * k))) hk

end Halfwords

/-- `d'` has, for every word that `PMULTH` stores in `d`, that word added to (or subtracted from) the word accumulated
before. -/
structure AccumulatesHalfwords (op : Uword → Uword → Uword) (inst : EeCoreInstruction) (d d' : R5900 σ) : Prop where
  /-- `LO`. -/
  lo : ∀ k < 4, lane 32 k d'.rest.lo = op (lane 32 k d.rest.lo) (lane 32 k (pmulth inst d).rest.lo)
  /-- `HI`. -/
  hi : ∀ k < 4, lane 32 k d'.rest.hi = op (lane 32 k d.rest.hi) (lane 32 k (pmulth inst d).rest.hi)
  /-- `Rd`, at the positions where `PMULTH` stores products 0, 2, 4 and 6. -/
  rd : inst.rd ≠ 0 → ∀ k < 4, lane 32 k (d'.gpr inst.rd) =
    op (accumulator d (2 * k)) (lane 32 k ((pmulth inst d).gpr inst.rd))

/-- What is written as word 3 of `Rd` is product 5, which belongs to `LO`. -/
theorem accumulatesHalfwords_iff (op : Uword → Uword → Uword) (inst : EeCoreInstruction) (d : R5900 σ) :
    AccumulatesHalfwords op inst d (halfwords inst d op 5) ↔ inst.rd = 0 ∨
      op (lane 32 3 d.rest.lo) (halfwordProduct inst d 5) = op (lane 32 2 d.rest.hi) (halfwordProduct inst d 6) := by
  have hlo {k : ℕ} (hk : k < 4) : lane 32 k (pmulth inst d).rest.lo = halfwordProduct inst d (loIndex k) :=
    lane_lo_halfwords _ 6 inst d hk
  have hhi {k : ℕ} (hk : k < 4) : lane 32 k (pmulth inst d).rest.hi = halfwordProduct inst d (hiIndex k) :=
    lane_hi_halfwords _ 6 inst d hk
  have hrd {k : ℕ} (h : inst.rd ≠ 0) (hk : k < 4) :
      lane 32 k ((pmulth inst d).gpr inst.rd) = halfwordProduct inst d (2 * k) := by
    refine (lane_gpr_halfwords _ 6 inst d h hk).trans ?_
    dsimp only
    split_ifs with h3
    · rw [h3]
    · rfl
  constructor
  · intro h
    by_cases hrd0 : inst.rd = 0
    · exact .inl hrd0
    · have hword := h.rd hrd0 3 (by decide)
      rw [lane_gpr_halfwords op 5 inst d hrd0 (by decide), hrd hrd0 (by decide)] at hword
      exact .inr hword
  · intro h
    refine ⟨fun k hk => ?_, fun k hk => ?_, fun hrd0 k hk => ?_⟩
    · rw [lane_lo_halfwords op 5 inst d hk, hlo hk]
    · rw [lane_hi_halfwords op 5 inst d hk, hhi hk]
    · rw [lane_gpr_halfwords op 5 inst d hrd0 hk, hrd hrd0 hk]
      by_cases h3 : k = 3
      · subst h3
        exact h.resolve_left hrd0
      · simp only [if_neg h3]

/-- The registers with nothing accumulated. -/
def cleared (d : R5900 σ) : R5900 σ := setHi (setLo d 0) 0

theorem accumulator_cleared (d : R5900 σ) (i : ℕ) : accumulator (cleared d) i = 0 := by
  unfold accumulator
  split <;> exact lane_zero ..

/-- The operation matters only at the words accumulated before. -/
theorem halfwords_congr {op op' : Uword → Uword → Uword} (inst : EeCoreInstruction) (d : R5900 σ) (last : ℕ)
    (h : ∀ i product, op (accumulator d i) product = op' (accumulator d i) product) :
    halfwords inst d op last = halfwords inst d op' last := by
  simp only [halfwords, h]

theorem pmaddh_cleared_iff (inst : EeCoreInstruction) (d : R5900 σ) :
    pmaddh inst (cleared d) = pmulth inst (cleared d) ↔
      inst.rd = 0 ∨ halfwordProduct inst d 5 = halfwordProduct inst d 6 := by
  have hpmaddh : pmaddh inst (cleared d) = halfwords inst (cleared d) (fun _ product => product) 5 :=
    halfwords_congr inst (cleared d) 5 fun i product => by rw [accumulator_cleared]; exact BitVec.add_zero product
  rw [hpmaddh]
  constructor
  · intro h
    by_cases hrd : inst.rd = 0
    · exact .inl hrd
    · have hword := congrArg (fun d' : R5900 σ => lane 32 3 (d'.gpr inst.rd)) h
      have h5 := lane_gpr_halfwords (fun _ product => product) 5 inst (cleared d) hrd (k := 3) (by decide)
      have h6 := lane_gpr_halfwords (fun _ product => product) 6 inst (cleared d) hrd (k := 3) (by decide)
      exact .inr (h5.symm.trans (hword.trans h6))
  · rintro (hrd | heq)
    · simp only [pmulth, halfwords, EeData.writeUqword, if_pos hrd]
    · have heq' : halfwordProduct inst (cleared d) 5 = halfwordProduct inst (cleared d) 6 := heq
      unfold pmulth halfwords
      simp only [halfwordProduct] at heq'
      simp only [heq']

/-- Whatever is multiplied and accumulated: `PMADDH` and `PMSUBH` leave what `PMULTH` would, added to or subtracted from
the words of `HI` and `LO`, if and only if `Rd` is read only or product 5 with word 3 of `LO` is product 6 with word 2 of
`HI`; with `HI` and `LO` zero, `PMADDH` is `PMULTH` if and only if `Rd` is read only or these products are equal. -/
theorem parallel_halfwords_iff (inst : EeCoreInstruction) (d : R5900 σ) :
    (AccumulatesHalfwords (fun c product => product + c) inst d (pmaddh inst d) ↔ inst.rd = 0 ∨
      halfwordProduct inst d 5 + lane 32 3 d.rest.lo = halfwordProduct inst d 6 + lane 32 2 d.rest.hi) ∧
    (AccumulatesHalfwords (fun c product => c - product) inst d (pmsubh inst d) ↔ inst.rd = 0 ∨
      lane 32 3 d.rest.lo - halfwordProduct inst d 5 = lane 32 2 d.rest.hi - halfwordProduct inst d 6) ∧
    (pmaddh inst (cleared d) = pmulth inst (cleared d) ↔ inst.rd = 0 ∨
      halfwordProduct inst d 5 = halfwordProduct inst d 6) :=
  ⟨accumulatesHalfwords_iff _ inst d, accumulatesHalfwords_iff _ inst d, pmaddh_cleared_iff inst d⟩

/-- Halfwords 5 of value 1, the others 0: word 3 of `Rd` is 1 after `PMADDH` and 0 after `PMULTH`. -/
theorem parallel_halfwords_differ :
    ¬∀ (inst : EeCoreInstruction) (d : R5900 Unit), pmaddh inst (cleared d) = pmulth inst (cleared d) := by
  intro h
  have hgpr := congrArg (fun d' : R5900 Unit => lane 32 3 (d'.gpr 10))
    (h ⟨0x70225409⟩ ⟨fun _ => 0x100000000000000000000, 0, 0, 0, ()⟩)
  exact absurd hgpr (by decide)

end R5900

end Orbum
