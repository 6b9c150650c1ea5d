import Orbum.Ee.Core.Interpreter.Transfer
import Orbum.Iop.Core.Transfer

/-!
# Saving and restoring HI and LO

A context switch saves `HI` and `LO` in registers and restores them later. The moves back read the register of `Rd`, a
field that is 0 in their encoding, where they should read that of `Rs`; so they restore only what both fields happen to
agree on. The parallel moves read `Rs`, and `PMTHL.LW` and `PMFHL.LW` are inverse to each other.
-/

namespace Orbum

open Lanes

namespace R5900

variable {σ : Type} (inst : EeCoreInstruction) (d : R5900 σ)

/-! ### One move -/

/-- The moves to one doubleword of `HI` and `LO` take the low doubleword of the register of `Rs`, as the parallel moves
do for theirs. -/
structure MovesRs : Prop where
  /-- `MTHI`. -/
  mthi : lane 64 0 (mthi inst d).rest.hi = read 64 d inst.rs 0
  /-- `MTLO`. -/
  mtlo : lane 64 0 (mtlo inst d).rest.lo = read 64 d inst.rs 0
  /-- `MTHI1`. -/
  mthi1 : lane 64 1 (mthi1 inst d).rest.hi = read 64 d inst.rs 0
  /-- `MTLO1`. -/
  mtlo1 : lane 64 1 (mtlo1 inst d).rest.lo = read 64 d inst.rs 0
  /-- `PMTHI`. -/
  pmthi : lane 64 0 (R5900.mthi inst d).rest.hi = lane 64 0 (pmthi inst d).rest.hi
  /-- `PMTLO`. -/
  pmtlo : lane 64 0 (R5900.mtlo inst d).rest.lo = lane 64 0 (pmtlo inst d).rest.lo

theorem lane_hi_moveToHi (r : BitVec 5) (j : ℕ) {k : ℕ} (hk : k < 2) (l : ℕ) :
    lane 64 l (moveToHi d r j k).rest.hi = if l = k then read 64 d r j else lane 64 l d.rest.hi :=
  lane_setLane (by omega) _ _

theorem lane_lo_moveToLo (r : BitVec 5) (j : ℕ) {k : ℕ} (hk : k < 2) (l : ℕ) :
    lane 64 l (moveToLo d r j k).rest.lo = if l = k then read 64 d r j else lane 64 l d.rest.lo :=
  lane_setLane (by omega) _ _

/-- The moves take the register of `Rd`. -/
theorem movesRs_iff : MovesRs inst d ↔ read 64 d inst.rd 0 = read 64 d inst.rs 0 := by
  have hhi : lane 64 0 (pmthi inst d).rest.hi = read 64 d inst.rs 0 := by
    rw [pmthi, lane_hi_moveToHi _ _ _ (by decide), lane_hi_moveToHi _ _ _ (by decide), if_neg (by decide), if_pos rfl]
  have hlo : lane 64 0 (pmtlo inst d).rest.lo = read 64 d inst.rs 0 := by
    rw [pmtlo, lane_lo_moveToLo _ _ _ (by decide), lane_lo_moveToLo _ _ _ (by decide), if_neg (by decide), if_pos rfl]
  have h0 : lane 64 0 (R5900.mthi inst d).rest.hi = read 64 d inst.rd 0 := lane_hi_moveToHi d _ 0 (by decide) 0
  have h1 : lane 64 0 (R5900.mtlo inst d).rest.lo = read 64 d inst.rd 0 := lane_lo_moveToLo d _ 0 (by decide) 0
  have h2 : lane 64 1 (R5900.mthi1 inst d).rest.hi = read 64 d inst.rd 0 := lane_hi_moveToHi d _ 0 (by decide) 1
  have h3 : lane 64 1 (R5900.mtlo1 inst d).rest.lo = read 64 d inst.rd 0 := lane_lo_moveToLo d _ 0 (by decide) 1
  constructor
  · intro h
    exact h0.symm.trans h.mthi
  · intro h
    exact ⟨h0.trans h, h1.trans h, h2.trans h, h3.trans h, (h0.trans h).trans hhi.symm, (h1.trans h).trans hlo.symm⟩

/-! ### Saving and restoring -/

/-- `MFHI`, `MFLO`, `MFHI1` and `MFLO1`. -/
def save (i : Fin 4 → EeCoreInstruction) : R5900 σ := mflo1 (i 3) (mfhi1 (i 2) (mflo (i 1) (mfhi (i 0) d)))

/-- `MTHI`, `MTLO`, `MTHI1` and `MTLO1`. -/
def restore (i : Fin 4 → EeCoreInstruction) : R5900 σ :=
  R5900.mtlo1 (i 3) (R5900.mthi1 (i 2) (R5900.mtlo (i 1) (R5900.mthi (i 0) d)))

/-- The four doublewords, in the order they are saved in. -/
def saved : Fin 4 → Udword
  | 0 => lane 64 0 d.rest.hi
  | 1 => lane 64 0 d.rest.lo
  | 2 => lane 64 1 d.rest.hi
  | 3 => lane 64 1 d.rest.lo

theorem read_moveFrom_self (source : Special σ → Uqword) (k : ℕ) (hrd : inst.rd ≠ 0) :
    read 64 (moveFrom inst d source k) inst.rd 0 = lane 64 k (source d.rest) :=
  gpr_moveFrom inst d source k hrd

theorem read_moveFrom_of_ne (source : Special σ → Uqword) (k : ℕ) {r : BitVec 5} (hr : r ≠ inst.rd) :
    read 64 (moveFrom inst d source k) r 0 = read 64 d r 0 := by
  rw [read, gpr_moveFrom_of_ne inst d source k hr, read]

/-- What the registers hold once all is saved. -/
theorem read_save {i : Fin 4 → EeCoreInstruction} (hzero : ∀ a, (i a).rd ≠ 0)
    (hinj : Function.Injective fun a => (i a).rd) (a : Fin 4) : read 64 (save d i) (i a).rd 0 = saved d a := by
  have hne {a b : Fin 4} (hab : a ≠ b) : (i a).rd ≠ (i b).rd := fun h => hab (hinj h)
  simp only [save, mflo1, mfhi1, mflo, mfhi]
  match a with
  | 0 =>
    rw [read_moveFrom_of_ne _ _ _ _ (hne (by decide)), read_moveFrom_of_ne _ _ _ _ (hne (by decide)),
      read_moveFrom_of_ne _ _ _ _ (hne (by decide)), read_moveFrom_self _ _ _ _ (hzero 0)]
    rfl
  | 1 =>
    rw [read_moveFrom_of_ne _ _ _ _ (hne (by decide)), read_moveFrom_of_ne _ _ _ _ (hne (by decide)),
      read_moveFrom_self _ _ _ _ (hzero 1), rest_moveFrom]
    rfl
  | 2 =>
    rw [read_moveFrom_of_ne _ _ _ _ (hne (by decide)), read_moveFrom_self _ _ _ _ (hzero 2), rest_moveFrom,
      rest_moveFrom]
    rfl
  | 3 =>
    rw [read_moveFrom_self _ _ _ _ (hzero 3), rest_moveFrom, rest_moveFrom, rest_moveFrom]
    rfl

/-- Both doublewords of a register, once written. -/
theorem setLane_setLane_eq_iff (q q' : Uqword) (v0 v1 : Udword) :
    setLane 1 (setLane 0 q v0) v1 = q' ↔ v0 = lane 64 0 q' ∧ v1 = lane 64 1 q' := by
  constructor
  · rintro rfl
    simp [lane_setLane]
  · rintro ⟨rfl, rfl⟩
    refine eq_of_lanes (w := 64) (m := 2) rfl fun k hk => ?_
    obtain rfl | rfl : k = 0 ∨ k = 1 := by omega
    · simp [lane_setLane]
    · simp [lane_setLane]

/-- What is restored is what the registers of `Rd` hold. -/
theorem restore_eq_iff (j : Fin 4 → EeCoreInstruction) (d' : R5900 σ) :
    (restore d' j).rest.hi = d.rest.hi ∧ (restore d' j).rest.lo = d.rest.lo ↔
      ∀ a, read 64 d' (j a).rd 0 = saved d a := by
  have hhi : (restore d' j).rest.hi =
      setLane 1 (setLane 0 d'.rest.hi (read 64 d' (j 0).rd 0)) (read 64 d' (j 2).rd 0) := rfl
  have hlo : (restore d' j).rest.lo =
      setLane 1 (setLane 0 d'.rest.lo (read 64 d' (j 1).rd 0)) (read 64 d' (j 3).rd 0) := rfl
  rw [hhi, hlo, setLane_setLane_eq_iff, setLane_setLane_eq_iff]
  constructor
  · rintro ⟨⟨h0, h2⟩, h1, h3⟩ a
    match a with
    | 0 => exact h0
    | 1 => exact h1
    | 2 => exact h2
    | 3 => exact h3
  · intro h
    exact ⟨⟨h 0, h 2⟩, h 1, h 3⟩

/-! ### The parallel moves -/

/-- `PMTHL.LW` leaves the words of `Rs` where `PMFHL.LW` reads them. -/
theorem lane_pmthlLw :
    lane 32 0 (pmthlLw inst d).rest.lo = read 32 d inst.rs 0 ∧ lane 32 0 (pmthlLw inst d).rest.hi = read 32 d inst.rs 1 ∧
      lane 32 2 (pmthlLw inst d).rest.lo = read 32 d inst.rs 2 ∧
      lane 32 2 (pmthlLw inst d).rest.hi = read 32 d inst.rs 3 := by
  simp [pmthlLw, lane_setLane]

/-- `PMFHL.LW` after `PMTHL.LW` writes the register back. -/
theorem pmfhlLw_pmthlLw (inst' : EeCoreInstruction) :
    pmfhlLw inst' (pmthlLw inst d) = (pmthlLw inst d).writeUqword inst'.rd (d.gpr inst.rs) := by
  obtain ⟨h0, h1, h2, h3⟩ := lane_pmthlLw inst d
  rw [pmfhlLw, h0, h1, h2, h3]
  congr 1
  exact eq_of_lanes (w := 32) (m := 4) rfl fun k hk => lane_setWords _ (read 32 d inst.rs) hk

theorem gpr_pmfhlLw_pmthlLw (inst' : EeCoreInstruction) :
    (pmfhlLw inst' (pmthlLw inst d)).gpr inst'.rd = d.gpr inst.rs ↔ inst'.rd ≠ 0 ∨ d.gpr inst'.rd = d.gpr inst.rs := by
  rw [pmfhlLw_pmthlLw, EeData.writeUqword]
  split_ifs with hrd
  · simp only [hrd, ne_eq, not_true_eq_false, false_or]
    exact Iff.rfl
  · simp only [Function.update_self, ne_eq, hrd, not_false_eq_true, true_or]

/-- Saving and restoring: the moves to one doubleword take the register of `Rs` if and only if those of `Rd` and `Rs`
agree in the low doubleword, and so for the save and restore of all four doublewords, whatever runs in between, and for
the IOP; the parallel moves give the register back unless they are to write register 0. -/
theorem movesRs_and_restore_iff :
    (∀ (inst : EeCoreInstruction) (d : R5900 σ), MovesRs inst d ↔ read 64 d inst.rd 0 = read 64 d inst.rs 0) ∧
    (∀ (i j : Fin 4 → EeCoreInstruction) (d d' : R5900 σ), (∀ a, (i a).rd ≠ 0) →
      (Function.Injective fun a => (i a).rd) → (∀ a, (j a).rs = (i a).rd) →
      (∀ a, d'.gpr (i a).rd = (save d i).gpr (i a).rd) →
      ((restore d' j).rest.hi = d.rest.hi ∧ (restore d' j).rest.lo = d.rest.lo ↔
        ∀ a, read 64 d' (j a).rd 0 = read 64 d' (j a).rs 0)) ∧
    (∀ (inst inst' : EeCoreInstruction) (d : R5900 σ),
      (pmfhlLw inst' (pmthlLw inst d)).gpr inst'.rd = d.gpr inst.rs ↔
        inst'.rd ≠ 0 ∨ d.gpr inst'.rd = d.gpr inst.rs) ∧
    (∀ (inst : IopCoreInstruction) (d : R3000 σ),
      (R3000.mthi inst d).rest.hi = d.gpr inst.rs ∧ (R3000.mtlo inst d).rest.lo = d.gpr inst.rs ↔
        d.gpr inst.rd = d.gpr inst.rs) ∧
    ∀ (hi lo hi' lo' : IopCoreInstruction) (d d' : R3000 σ), hi.rd ≠ 0 → lo.rd ≠ 0 → hi.rd ≠ lo.rd →
      hi'.rs = hi.rd → lo'.rs = lo.rd → d'.gpr hi.rd = (R3000.save d hi lo).gpr hi.rd →
      d'.gpr lo.rd = (R3000.save d hi lo).gpr lo.rd →
      ((R3000.restore d' hi' lo').rest.hi = d.rest.hi ∧ (R3000.restore d' hi' lo').rest.lo = d.rest.lo ↔
        d'.gpr hi'.rd = d'.gpr hi'.rs ∧ d'.gpr lo'.rd = d'.gpr lo'.rs) := by
  refine ⟨movesRs_iff, ?_, fun inst inst' d => gpr_pmfhlLw_pmthlLw inst d inst', ?_, ?_⟩
  · intro i j d d' hzero hinj hrs hkept
    rw [restore_eq_iff]
    refine forall_congr' fun a => ?_
    have hread : read 64 d' (j a).rs 0 = saved d a := by
      rw [hrs, read, hkept]
      exact read_save d hzero hinj a
    rw [hread]
  · intro inst d
    exact and_self_iff
  · intro hi lo hi' lo' d d' hhi hlo hne hrs hrs' hkept hkept'
    obtain ⟨h0, h1⟩ := R3000.gpr_save hhi hlo hne
    rw [R3000.restore_eq_iff, hrs, hrs', hkept, hkept', h0, h1]

/-- `MFHI`, `MFLO`, `MFHI1` and `MFLO1` to registers 8 to 11. -/
def savingEight (a : Fin 4) : EeCoreInstruction := ⟨BitVec.ofNat 32 (0x4010 + 0x800 * a)⟩

/-- The moves back, where the field of `Rd` names the same registers. -/
def restoringEight (a : Fin 4) : EeCoreInstruction := ⟨BitVec.ofNat 32 ((8 + a) * 0x200800)⟩

/-- A thread has been saved, and the next one has written `HI`, `LO` and register 12. -/
def switchedEight : R5900 Unit :=
  { (save ⟨fun _ => 0, ⟨0x50000000000000003, 6, 0, ()⟩⟩ savingEight).writeUqword 12 9 with rest := ⟨7, 8, 0, ()⟩ }

/-- The same on the IOP. -/
def switchedEightIop : R3000 Unit :=
  { R3000.save ⟨fun _ => 0, ⟨5, 6, ()⟩⟩ ⟨0x4010⟩ ⟨0x4812⟩ with rest := ⟨7, 8, ()⟩ }

/-- Saved to registers 8 to 11 and restored from them, `HI` and `LO` are as the first thread has left them. -/
theorem restore_save_eight :
    (restore switchedEight restoringEight).rest.hi = 0x50000000000000003 ∧
      (restore switchedEight restoringEight).rest.lo = 6 ∧
      (R3000.restore switchedEightIop ⟨0x1004000⟩ ⟨0x1204800⟩).rest.hi = 5 ∧
      (R3000.restore switchedEightIop ⟨0x1004000⟩ ⟨0x1204800⟩).rest.lo = 6 := by
  have h := (movesRs_and_restore_iff.2.1 savingEight restoringEight ⟨fun _ => 0, ⟨0x50000000000000003, 6, 0, ()⟩⟩
    switchedEight (by decide) (fun a b hab => by revert a b; decide) (by decide) (by decide)).mpr (by decide)
  have h' := (movesRs_and_restore_iff.2.2.2.2 ⟨0x4010⟩ ⟨0x4812⟩ ⟨0x1004000⟩ ⟨0x1204800⟩ ⟨fun _ => 0, ⟨5, 6, ()⟩⟩
    switchedEightIop (by decide) (by decide) (by decide) (by decide) (by decide) rfl rfl).mpr ⟨by decide, by decide⟩
  exact ⟨h.1, h.2, h'.1, h'.2⟩

/-- `MTHI` from register 8, as it is encoded, clears `HI`. -/
theorem not_movesRs_encoded :
    ¬MovesRs (σ := Unit) ⟨0x01000011⟩ ⟨fun r => if r = 8 then 5 else 0, ⟨0, 0, 0, ()⟩⟩ := by
  rw [movesRs_iff]
  decide

end R5900

end Orbum
