import Mathlib.Tactic.Common

/-!
# Lanes of a bit vector

A bit vector read and written in parts of equal width, as a register with several views is.
-/

namespace Orbum

namespace Lanes

variable {n w : ℕ}

/-- Lane `k` of width `w`. -/
def lane (w k : ℕ) (q : BitVec n) : BitVec w := q.extractLsb' (w * k) w

/-- The bits of lane `k`. -/
def mask (n w k : ℕ) : BitVec n := (BitVec.allOnes w).setWidth n <<< (w * k)

/-- Writes lane `k`. -/
def setLane (k : ℕ) (q : BitVec n) (v : BitVec w) : BitVec n := q &&& ~~~mask n w k ||| v.setWidth n <<< (w * k)

theorem getLsbD_lane (k i : ℕ) (q : BitVec n) : (lane w k q).getLsbD i = (decide (i < w) && q.getLsbD (w * k + i)) :=
  BitVec.getLsbD_extractLsb' ..

theorem lane_zero (w k : ℕ) : lane w k (0 : BitVec n) = 0 := by
  apply BitVec.eq_of_getLsbD_eq
  intro i hi
  simp [getLsbD_lane]

theorem lane_and (w k : ℕ) (q q' : BitVec n) : lane w k (q &&& q') = lane w k q &&& lane w k q' := BitVec.extractLsb'_and

theorem lane_or (w k : ℕ) (q q' : BitVec n) : lane w k (q ||| q') = lane w k q ||| lane w k q' := BitVec.extractLsb'_or

theorem lane_not {k : ℕ} (h : w * (k + 1) ≤ n) (q : BitVec n) : lane w k (~~~q) = ~~~lane w k q := by
  apply BitVec.eq_of_getLsbD_eq
  intro i hi
  rw [Nat.mul_succ] at h
  rw [getLsbD_lane, BitVec.getLsbD_not, BitVec.getLsbD_not, getLsbD_lane]
  simp [hi, show w * k + i < n by omega]

/-- The lanes of an appended bit vector, first those of the lower one. -/
theorem lane_append_of_le {a b k : ℕ} (h : w * (k + 1) ≤ b) (hi : BitVec a) (lo : BitVec b) :
    lane w k (hi ++ lo) = lane w k lo := by
  apply BitVec.eq_of_getLsbD_eq
  intro i hlt
  rw [Nat.mul_succ] at h
  rw [getLsbD_lane, getLsbD_lane, BitVec.getLsbD_append, if_pos (by omega)]

theorem lane_append_add {a b m : ℕ} (hb : b = w * m) (hi : BitVec a) (lo : BitVec b) (k : ℕ) :
    lane w (m + k) (hi ++ lo) = lane w k hi := by
  apply BitVec.eq_of_getLsbD_eq
  intro i hlt
  rw [getLsbD_lane, getLsbD_lane, BitVec.getLsbD_append, Nat.mul_add, if_neg (by omega)]
  congr 2
  omega

theorem getLsbD_mask (k i : ℕ) :
    (mask n w k).getLsbD i = (decide (i < n) && decide (w * k ≤ i ∧ i < w * k + w)) := by
  simp only [mask, BitVec.getLsbD_shiftLeft, BitVec.getLsbD_setWidth, BitVec.getLsbD_allOnes]
  by_cases hlow : w * k ≤ i
  · by_cases hhigh : i < w * k + w
    · have hsub : i - w * k < w := by omega
      simp only [hlow, hhigh, hsub, Nat.not_lt.mpr hlow, and_self, decide_true, decide_false, Bool.not_false,
        Bool.and_true]
      grind
    · have hsub : ¬i - w * k < w := by omega
      simp [hhigh, hsub]
  · simp [hlow, Nat.not_le.mp hlow]

theorem getLsbD_setLane (k i : ℕ) (q : BitVec n) (v : BitVec w) (hi : i < n) :
    (setLane k q v).getLsbD i = if w * k ≤ i ∧ i < w * k + w then v.getLsbD (i - w * k) else q.getLsbD i := by
  simp only [setLane, BitVec.getLsbD_or, BitVec.getLsbD_and, BitVec.getLsbD_not, getLsbD_mask,
    BitVec.getLsbD_shiftLeft, BitVec.getLsbD_setWidth]
  split_ifs with h
  · have hsub : i - w * k < n := by omega
    simp [hi, h, hsub, Nat.not_lt.mpr h.1]
  · rcases Nat.lt_or_ge i (w * k) with hlow | hlow
    · simp [hi, hlow, h]
    · have hsub : v.getLsbD (i - w * k) = false := BitVec.getLsbD_of_ge v _ (by omega)
      simp [hi, h, hsub]

/-- The lane written. -/
theorem lane_setLane_self {k : ℕ} (h : w * (k + 1) ≤ n) (q : BitVec n) (v : BitVec w) :
    lane w k (setLane k q v) = v := by
  apply BitVec.eq_of_getLsbD_eq
  intro i hi
  rw [Nat.mul_succ] at h
  rw [getLsbD_lane, getLsbD_setLane _ _ _ _ (by omega), if_pos (by omega), Nat.add_sub_cancel_left]
  simp [hi]

/-- The other lanes. -/
theorem lane_setLane_of_ne {j k : ℕ} (h : j ≠ k) (q : BitVec n) (v : BitVec w) :
    lane w j (setLane k q v) = lane w j q := by
  apply BitVec.eq_of_getLsbD_eq
  intro i hi
  rw [getLsbD_lane, getLsbD_lane]
  by_cases hn : w * j + i < n
  · rw [getLsbD_setLane _ _ _ _ hn, if_neg]
    rcases Nat.lt_or_gt_of_ne h with hlt | hlt
    · have hle := Nat.mul_le_mul_left w (Nat.succ_le_of_lt hlt)
      rw [Nat.mul_succ] at hle
      omega
    · have hle := Nat.mul_le_mul_left w (Nat.succ_le_of_lt hlt)
      rw [Nat.mul_succ] at hle
      omega
  · rw [BitVec.getLsbD_of_ge _ _ (Nat.le_of_not_lt hn), BitVec.getLsbD_of_ge _ _ (Nat.le_of_not_lt hn)]

theorem lane_setLane {j k : ℕ} (h : w * (j + 1) ≤ n) (q : BitVec n) (v : BitVec w) :
    lane w k (setLane j q v) = if k = j then v else lane w k q := by
  split_ifs with hk
  · subst hk
    exact lane_setLane_self h q v
  · exact lane_setLane_of_ne hk q v

/-- Writes the lanes below `m`, one after the other. -/
def setLanes (v : ℕ → BitVec w) : ℕ → BitVec n → BitVec n
  | 0, q => q
  | m + 1, q => setLane m (setLanes v m q) (v m)

theorem lane_setLanes (v : ℕ → BitVec w) {m : ℕ} (h : w * m ≤ n) (q : BitVec n) (k : ℕ) :
    lane w k (setLanes v m q) = if k < m then v k else lane w k q := by
  induction m with
  | zero => rw [setLanes, if_neg (Nat.not_lt_zero k)]
  | succ m ih =>
    have hm : w * m ≤ n := Nat.le_trans (Nat.mul_le_mul_left w (Nat.le_succ m)) h
    rw [setLanes, lane_setLane h, ih hm]
    split_ifs with h1 h2 h3 h4
    · rw [h1]
    · omega
    · rfl
    · omega
    · omega
    · rfl

/-- A bit vector is what its lanes are. -/
theorem eq_of_lanes {m : ℕ} (hn : n = w * m) {q q' : BitVec n} (h : ∀ k < m, lane w k q = lane w k q') : q = q' := by
  apply BitVec.eq_of_getLsbD_eq
  intro i hi
  have hw : 0 < w := by
    rcases Nat.eq_zero_or_pos w with rfl | hpos
    · omega
    · exact hpos
  have hbit : (lane w (i / w) q).getLsbD (i % w) = (lane w (i / w) q').getLsbD (i % w) := by
    rw [h (i / w) (Nat.div_lt_of_lt_mul (hn ▸ hi))]
  simpa only [getLsbD_lane, Nat.mod_lt i hw, Nat.div_add_mod, decide_true, Bool.true_and] using hbit

theorem setLanes_eq_iff {m : ℕ} (hn : n = w * m) (v : ℕ → BitVec w) (q q' : BitVec n) :
    setLanes v m q = q' ↔ ∀ k < m, v k = lane w k q' := by
  have hle := Nat.le_of_eq hn.symm
  constructor
  · rintro rfl k hk
    rw [lane_setLanes _ hle, if_pos hk]
  · intro h
    refine eq_of_lanes hn fun k hk => ?_
    rw [lane_setLanes _ hle, if_pos hk, h k hk]

/-- Once all lanes are written nothing of the old value is left. -/
theorem setLanes_congr {m : ℕ} (hn : n = w * m) {v v' : ℕ → BitVec w} (h : ∀ k < m, v k = v' k) (q q' : BitVec n) :
    setLanes v m q = setLanes v' m q' := by
  rw [setLanes_eq_iff hn]
  intro k hk
  rw [lane_setLanes _ (Nat.le_of_eq hn.symm), if_pos hk, h k hk]

end Lanes

end Orbum
