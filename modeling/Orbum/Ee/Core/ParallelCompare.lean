import Orbum.Ee.Core.Interpreter.Parallel
import Orbum.Lib.SignedOrder

/-!
# Parallel comparison and selection

`PCGTB`, `PCGTH`, `PCGTW`, `PMAXH`, `PMAXW`, `PMINH` and `PMINW` should order the lanes as signed numbers. They order them
as unsigned ones, all in the same way: a comparison and a selection agree with each other, and with `SLT` where the signs
are equal.
-/

namespace Orbum

open Lanes SignedOrder

namespace R5900

variable {σ : Type} {w m : ℕ} (inst : EeCoreInstruction) (d : R5900 σ)

/-! ### What they are meant to do -/

/-- All ones if and only if `a` is greater. -/
def signedGreater (a b : BitVec w) : BitVec w := if b.toInt < a.toInt then BitVec.allOnes w else 0

/-- The greater of both. -/
def signedMax (a b : BitVec w) : BitVec w := if a.toInt < b.toInt then b else a

/-- The smaller of both. -/
def signedMin (a b : BitVec w) : BitVec w := if b.toInt < a.toInt then b else a

/-- `d'` is `d` with the lanes of `Rd` made of those of `Rs` and `Rt`, and nothing else changed. -/
def LaneWise (w m : ℕ) (value : BitVec w → BitVec w → BitVec w) (d' : R5900 σ) : Prop :=
  d' = d.writeUqword inst.rd (setLanes (fun k => value (read w d inst.rs k) (read w d inst.rt k)) m 0)

/-- Where `mask` has ones `a`, elsewhere `b`. -/
def select {n : ℕ} (mask a b : BitVec n) : BitVec n := a &&& mask ||| b &&& ~~~mask

/-- The lanes of `Rs` and `Rt` have the same signs, or nothing is written. -/
def SameSigns (w m : ℕ) : Prop := inst.rd = 0 ∨ ∀ k < m, (read w d inst.rs k).msb = (read w d inst.rt k).msb

/-! ### What they do -/

/-- Where a lane-wise instruction does what another should. -/
theorem laneWise_mapLanes_iff (hm : 128 = w * m) (value value' : BitVec w → BitVec w → BitVec w) :
    LaneWise inst d w m value' (mapLanes inst d value m) ↔
      inst.rd = 0 ∨ ∀ k < m, value (read w d inst.rs k) (read w d inst.rt k) =
        value' (read w d inst.rs k) (read w d inst.rt k) := by
  rw [LaneWise, mapLanes, EeData.writeUqword_eq_iff, setLanes_eq_iff hm]
  refine or_congr Iff.rfl (forall₂_congr fun k hk => ?_)
  rw [lane_setLanes _ (Nat.le_of_eq hm.symm), if_pos hk]

theorem greaterMask_eq_iff (hw : 0 < w) (a b : BitVec w) : greaterMask a b = signedGreater a b ↔ a.msb = b.msb := by
  have hne : BitVec.allOnes w ≠ 0 := by
    intro h
    have hbit := congrArg (fun v : BitVec w => v.getLsbD 0) h
    simp [hw] at hbit
  rw [greaterMask, signedGreater, ite_lt_eq_iff, or_iff_left hne, eq_comm]

theorem stdMax_eq_iff (a b : BitVec w) : stdMax a b = signedMax a b ↔ a.msb = b.msb := by
  rw [stdMax, signedMax, ite_lt_eq_iff]
  exact or_iff_left_of_imp fun h => h ▸ rfl

theorem stdMin_eq_iff (a b : BitVec w) : stdMin a b = signedMin a b ↔ a.msb = b.msb := by
  rw [stdMin, signedMin, ite_lt_eq_iff, @eq_comm _ b.msb]
  exact or_iff_left_of_imp fun h => h ▸ rfl

theorem laneWise_greaterMask_iff (hw : 0 < w) (hm : 128 = w * m) :
    LaneWise inst d w m signedGreater (forLanes (w := w) inst d greaterMask m) ↔ SameSigns inst d w m := by
  rw [forLanes_eq inst d (Nat.le_of_eq hm.symm), laneWise_mapLanes_iff inst d hm]
  exact or_congr Iff.rfl (forall₂_congr fun k _ => greaterMask_eq_iff hw _ _)

theorem laneWise_stdMax_iff (hm : 128 = w * m) :
    LaneWise inst d w m signedMax (mapLanes (w := w) inst d stdMax m) ↔ SameSigns inst d w m := by
  rw [laneWise_mapLanes_iff inst d hm]
  exact or_congr Iff.rfl (forall₂_congr fun k _ => stdMax_eq_iff _ _)

theorem laneWise_stdMin_iff (hm : 128 = w * m) :
    LaneWise inst d w m signedMin (mapLanes (w := w) inst d stdMin m) ↔ SameSigns inst d w m := by
  rw [laneWise_mapLanes_iff inst d hm]
  exact or_congr Iff.rfl (forall₂_congr fun k _ => stdMin_eq_iff _ _)

/-- A lane of `Rd` after a lane-wise instruction. -/
theorem read_mapLanes (hrd : inst.rd ≠ 0) (hm : w * m ≤ 128) (value : BitVec w → BitVec w → BitVec w) {k : ℕ} (hk : k < m) :
    read w (mapLanes inst d value m) inst.rd k = value (read w d inst.rs k) (read w d inst.rt k) := by
  rw [read, mapLanes, EeData.gpr_writeUqword_self d hrd, lane_setLanes _ hm, if_pos hk]

/-! ### Selection by comparison -/

/-- `max` selects from `Rs` where `gt` has ones and from `Rt` elsewhere, and `min` the other way round, whatever registers
the two write. -/
def Selects (gt max min : EeCoreInstruction → R5900 σ → R5900 σ) : Prop :=
  ∀ i j : EeCoreInstruction, i.rs = j.rs → i.rt = j.rt → i.rd ≠ 0 → j.rd ≠ 0 →
    (max i d).gpr i.rd = select ((gt j d).gpr j.rd) (d.gpr i.rs) (d.gpr i.rt) ∧
    (min i d).gpr i.rd = select ((gt j d).gpr j.rd) (d.gpr i.rt) (d.gpr i.rs)

theorem lane_select {n k : ℕ} (h : w * (k + 1) ≤ n) {mask : BitVec n} {p : Prop} [Decidable p]
    (hmask : lane w k mask = if p then BitVec.allOnes w else 0) (a b : BitVec n) :
    lane w k (select mask a b) = if p then lane w k a else lane w k b := by
  rw [select, lane_or, lane_and, lane_and, lane_not h, hmask]
  split_ifs
  · rw [BitVec.and_allOnes, BitVec.not_allOnes, BitVec.and_zero, BitVec.or_zero]
  · simp only [BitVec.ofNat_eq_ofNat, BitVec.not_zero, BitVec.and_zero, BitVec.and_allOnes, BitVec.zero_or]

/-- Of equal lanes it makes no difference which one is taken. -/
theorem stdMax_comm (a b : BitVec w) : stdMax a b = if b < a then a else b := by
  unfold stdMax
  split_ifs with h h'
  · rw [BitVec.lt_def] at h h'
    omega
  · rfl
  · rfl
  · rw [BitVec.lt_def] at *
    exact BitVec.eq_of_toNat_eq (by omega)

theorem selects (hm : 128 = w * m) :
    Selects d (fun j d => forLanes (w := w) j d greaterMask m) (fun i d => mapLanes (w := w) i d stdMax m)
      fun i d => mapLanes (w := w) i d stdMin m := by
  have hle := Nat.le_of_eq hm.symm
  intro i j hrs hrt hi hj
  have hmask {k : ℕ} (hk : k < m) : lane w k ((forLanes (w := w) j d greaterMask m).gpr j.rd) =
      if read w d i.rt k < read w d i.rs k then BitVec.allOnes w else 0 := by
    rw [forLanes_eq j d hle, hrs, hrt]
    exact read_mapLanes j d hj hle greaterMask hk
  have hin {k : ℕ} (hk : k < m) : w * (k + 1) ≤ 128 := Nat.le_trans (Nat.mul_le_mul_left w hk) hle
  constructor
  · refine eq_of_lanes hm fun k hk => ?_
    rw [lane_select (hin hk) (hmask hk)]
    exact (read_mapLanes i d hi hle stdMax hk).trans (stdMax_comm _ _)
  · refine eq_of_lanes hm fun k hk => ?_
    rw [lane_select (hin hk) (hmask hk)]
    exact read_mapLanes i d hi hle stdMin hk

/-! ### Selection by SLT -/

/-- `SLT` of lanes `k` of `Rs` and `Rt`, sign extended to whatever registers, tells which of them is lane `k` of `Rd` after
a maximum and after a minimum. -/
def AgreesWithSlt (w k : ℕ) (dmax dmin : R5900 σ) : Prop :=
  ∀ (j : EeCoreInstruction) (d' : R5900 σ), j.rd ≠ 0 →
    read 64 d' j.rs 0 = (read w d inst.rs k).signExtend 64 → read 64 d' j.rt 0 = (read w d inst.rt k).signExtend 64 →
    (read w dmax inst.rd k = if read 64 (slt j d') j.rd 0 = 1 then read w d inst.rt k else read w d inst.rs k) ∧
      read w dmin inst.rd k = if read 64 (slt j d') j.rd 0 = 1 then read w d inst.rs k else read w d inst.rt k

theorem read_slt_eq_one_iff {j : EeCoreInstruction} (hj : j.rd ≠ 0) :
    read 64 (slt j d) j.rd 0 = 1 ↔ (read 64 d j.rs 0).toInt < (read 64 d j.rt 0).toInt := by
  rw [slt, read, gpr_write d hj, lane_setLane_self (by decide)]
  split_ifs with h
  · exact iff_of_true rfl h
  · exact iff_of_false (by decide) h

theorem signedMin_comm (a b : BitVec w) : signedMin a b = if a.toInt < b.toInt then a else b := by
  unfold signedMin
  split_ifs
  · omega
  · rfl
  · rfl
  · exact BitVec.eq_of_toInt_eq (by omega)

theorem lane_setWidth_dword (a : Udword) : lane 64 0 (a.setWidth 128) = a := by
  apply BitVec.eq_of_getLsbD_eq
  intro i hi
  rw [getLsbD_lane, BitVec.getLsbD_setWidth]
  simp [hi, show i < 128 by omega]

/-- There are registers with any two doublewords, and an `SLT` of them. -/
theorem exists_slt (d : R5900 σ) (a b : Udword) :
    ∃ (j : EeCoreInstruction) (d' : R5900 σ), j.rd ≠ 0 ∧ read 64 d' j.rs 0 = a ∧ read 64 d' j.rt 0 = b :=
  ⟨⟨0x0022182A⟩, { d with gpr := fun r => if r = 1 then a.setWidth 128 else b.setWidth 128 }, by decide,
    lane_setWidth_dword a, lane_setWidth_dword b⟩

theorem agreesWithSlt_iff (hrd : inst.rd ≠ 0) (hw : w ≤ 64) (hm : w * m ≤ 128) {k : ℕ} (hk : k < m) :
    AgreesWithSlt inst d w k (mapLanes (w := w) inst d stdMax m) (mapLanes (w := w) inst d stdMin m) ↔
      (read w d inst.rs k).msb = (read w d inst.rt k).msb := by
  rw [AgreesWithSlt, read_mapLanes inst d hrd hm stdMax hk, read_mapLanes inst d hrd hm stdMin hk]
  generalize read w d inst.rs k = a
  generalize read w d inst.rt k = b
  have horder {j : EeCoreInstruction} {d' : R5900 σ} (hj : j.rd ≠ 0) (ha : read 64 d' j.rs 0 = a.signExtend 64)
      (hb : read 64 d' j.rt 0 = b.signExtend 64) : read 64 (slt j d') j.rd 0 = 1 ↔ a.toInt < b.toInt := by
    rw [read_slt_eq_one_iff d' hj, ha, hb, toInt_signExtend_lt_iff hw]
  constructor
  · intro h
    obtain ⟨j, d', hj, ha, hb⟩ := exists_slt d (a.signExtend 64) (b.signExtend 64)
    have hmax := (h j d' hj ha hb).1
    simp only [horder hj ha hb] at hmax
    exact (stdMax_eq_iff a b).mp hmax
  · intro h j d' hj ha hb
    simp only [horder hj ha hb]
    exact ⟨(stdMax_eq_iff a b).mpr h, ((stdMin_eq_iff a b).mpr h).trans (signedMin_comm a b)⟩

/-- For all operands, in whatever registers: the comparisons and selections order the lanes as signed numbers if and only
if the lanes of `Rs` and `Rt` have equal signs, or nothing is written. They always select by the comparison, and they agree
with `SLT` in the lanes of equal signs only. -/
theorem signed_order_iff (inst : EeCoreInstruction) (d : R5900 σ) :
    (LaneWise inst d 8 16 signedGreater (pcgtb inst d) ↔ SameSigns inst d 8 16) ∧
    (LaneWise inst d 16 8 signedGreater (pcgth inst d) ↔ SameSigns inst d 16 8) ∧
    (LaneWise inst d 32 4 signedGreater (pcgtw inst d) ↔ SameSigns inst d 32 4) ∧
    (LaneWise inst d 16 8 signedMax (pmaxh inst d) ↔ SameSigns inst d 16 8) ∧
    (LaneWise inst d 32 4 signedMax (pmaxw inst d) ↔ SameSigns inst d 32 4) ∧
    (LaneWise inst d 16 8 signedMin (pminh inst d) ↔ SameSigns inst d 16 8) ∧
    (LaneWise inst d 32 4 signedMin (pminw inst d) ↔ SameSigns inst d 32 4) ∧
    Selects d pcgth pmaxh pminh ∧ Selects d pcgtw pmaxw pminw ∧
    (inst.rd ≠ 0 → ∀ k < 8, AgreesWithSlt inst d 16 k (pmaxh inst d) (pminh inst d) ↔
      (read 16 d inst.rs k).msb = (read 16 d inst.rt k).msb) ∧
    (inst.rd ≠ 0 → ∀ k < 4, AgreesWithSlt inst d 32 k (pmaxw inst d) (pminw inst d) ↔
      (read 32 d inst.rs k).msb = (read 32 d inst.rt k).msb) :=
  ⟨laneWise_greaterMask_iff inst d (by decide) rfl, laneWise_greaterMask_iff inst d (by decide) rfl,
    laneWise_greaterMask_iff inst d (by decide) rfl, laneWise_stdMax_iff inst d rfl, laneWise_stdMax_iff inst d rfl,
    laneWise_stdMin_iff inst d rfl, laneWise_stdMin_iff inst d rfl, selects d rfl, selects d rfl,
    fun hrd _ hk => agreesWithSlt_iff inst d hrd (by decide) (by decide) hk,
    fun hrd _ hk => agreesWithSlt_iff inst d hrd (by decide) (by decide) hk⟩

/-- The words 5 and 3. -/
theorem signed_order_five_three :
    AgreesWithSlt (σ := Unit) ⟨0x00430800⟩ ⟨fun r => if r = 2 then 5 else 3, ⟨0, 0, 0, ()⟩⟩ 32 0
      (pmaxw ⟨0x00430800⟩ ⟨fun r => if r = 2 then 5 else 3, ⟨0, 0, 0, ()⟩⟩)
      (pminw ⟨0x00430800⟩ ⟨fun r => if r = 2 then 5 else 3, ⟨0, 0, 0, ()⟩⟩) :=
  ((signed_order_iff (σ := Unit) ⟨0x00430800⟩ ⟨fun r => if r = 2 then 5 else 3, ⟨0, 0, 0, ()⟩⟩).2.2.2.2.2.2.2.2.2.2
    (by decide) 0 (by decide)).mpr (by decide)

/-- With -1 in all lanes of `Rs` and 0 in those of `Rt` none of the instructions orders the lanes. -/
theorem not_signed_order_minus_one :
    let d : R5900 Unit := ⟨fun r => if r = 2 then BitVec.allOnes 128 else 0, ⟨0, 0, 0, ()⟩⟩
    ¬LaneWise ⟨0x00430800⟩ d 8 16 signedGreater (pcgtb ⟨0x00430800⟩ d) ∧
    ¬LaneWise ⟨0x00430800⟩ d 16 8 signedGreater (pcgth ⟨0x00430800⟩ d) ∧
    ¬LaneWise ⟨0x00430800⟩ d 32 4 signedGreater (pcgtw ⟨0x00430800⟩ d) ∧
    ¬LaneWise ⟨0x00430800⟩ d 16 8 signedMax (pmaxh ⟨0x00430800⟩ d) ∧
    ¬LaneWise ⟨0x00430800⟩ d 32 4 signedMax (pmaxw ⟨0x00430800⟩ d) ∧
    ¬LaneWise ⟨0x00430800⟩ d 16 8 signedMin (pminh ⟨0x00430800⟩ d) ∧
    ¬LaneWise ⟨0x00430800⟩ d 32 4 signedMin (pminw ⟨0x00430800⟩ d) := by
  intro d
  have h {w m : ℕ} (hm : 0 < m) (hmsb : (lane w 0 (BitVec.allOnes 128)).msb ≠ (lane w 0 (0 : Uqword)).msb) :
      ¬SameSigns ⟨0x00430800⟩ d w m := by
    rintro (h | h)
    · exact absurd h (by decide)
    · exact hmsb (h 0 hm)
  refine ⟨?_, ?_, ?_, ?_, ?_, ?_, ?_⟩
  · exact mt (laneWise_greaterMask_iff _ d (by decide) rfl).mp (h (by decide) (by decide))
  · exact mt (laneWise_greaterMask_iff _ d (by decide) rfl).mp (h (by decide) (by decide))
  · exact mt (laneWise_greaterMask_iff _ d (by decide) rfl).mp (h (by decide) (by decide))
  · exact mt (laneWise_stdMax_iff _ d rfl).mp (h (by decide) (by decide))
  · exact mt (laneWise_stdMax_iff _ d rfl).mp (h (by decide) (by decide))
  · exact mt (laneWise_stdMin_iff _ d rfl).mp (h (by decide) (by decide))
  · exact mt (laneWise_stdMin_iff _ d rfl).mp (h (by decide) (by decide))

end R5900

end Orbum
