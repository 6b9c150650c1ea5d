import Orbum.Ee.Core.Interpreter.HiLo
import Orbum.Iop.Core.Transfer

/-!
# Integer division

`DIV`, `DIVU`, `PDIVW`, `PDIVUW` and `PDIVBW` of the EE core and `DIV` and `DIVU` of the IOP, with the divisions of the host
where they are made. The guards before them let none through that the host does not define, and `LO` and `HI` are the
quotient and the remainder.
-/

namespace Orbum

open Lanes HostDivision

namespace R5900

variable {σ : Type} (inst : EeCoreInstruction) (d : R5900 σ)

/-! ### The EE core -/

/-- A quotient for each lane of `LO` and a remainder for each of `HI`. -/
def writeQuotients {w : ℕ} (m : ℕ) (v : ℕ → BitVec w × BitVec w) : R5900 σ :=
  let d := setLo d (setLanes (fun k => (v k).1) m d.rest.lo)
  setHi d (setLanes (fun k => (v k).2) m d.rest.hi)

namespace Checked

/-- `DIV`, which is none where the host has no quotient. -/
def div : Option (R5900 σ) := signedDivide (read 32 d inst.rs 0) (read 32 d inst.rt 0) d (writeQuotient d)

/-- `DIVU`. -/
def divu : Option (R5900 σ) := unsignedDivide (read 32 d inst.rs 0) (read 32 d inst.rt 0) d (writeQuotient d)

end Checked

/-- The results of a lane, sign extended. -/
def signExtendBoth (quotient remainder : Uword) : Udword × Udword := (quotient.signExtend 64, remainder.signExtend 64)

/-- `PDIVW` and `PDIVUW`, by what `div` makes of words 0 and 2. -/
def parallelDiv (div : Uword → Uword → Option (Udword × Udword)) : Option (R5900 σ) := do
  let v0 ← div (read 32 d inst.rs 0) (read 32 d inst.rt 0)
  let v1 ← div (read 32 d inst.rs 2) (read 32 d inst.rt 2)
  return writeQuotients d 2 fun | 0 => v0 | _ => v1

/-- `PDIVW`. -/
def pdivw : Option (R5900 σ) := parallelDiv inst d fun a b => signedDivide a b (0, 0) signExtendBoth

/-- `PDIVUW`. -/
def pdivuw : Option (R5900 σ) := parallelDiv inst d fun a b => unsignedDivide a b (0, 0) signExtendBoth

/-- `PDIVBW`. -/
def pdivbw : Option (R5900 σ) := do
  let divisor : Uword := (read 16 d inst.rt 0).signExtend 32
  let div (a : Uword) := signedDivide a divisor (0, 0) Prod.mk
  let v0 ← div (read 32 d inst.rs 0)
  let v1 ← div (read 32 d inst.rs 1)
  let v2 ← div (read 32 d inst.rs 2)
  let v3 ← div (read 32 d inst.rs 3)
  return writeQuotients d 4 fun | 0 => v0 | 1 => v1 | 2 => v2 | _ => v3

/-- The divisions of the host make no difference to `DIV` and `DIVU`. -/
theorem checked_div : Checked.div inst d = some (div inst d) := signedDivide_eq ..

theorem checked_divu : Checked.divu inst d = some (divu inst d) := unsignedDivide_eq ..

variable {inst d}

/-- What is left besides `HI` and `LO`. -/
structure SameBesidesHiLo (d d' : R5900 σ) : Prop where
  /-- The registers. -/
  gpr : d'.gpr = d.gpr
  /-- The shift amount. -/
  sa : d'.rest.sa = d.rest.sa
  /-- What the registers are not. -/
  rest : d'.rest.rest = d.rest.rest

theorem sameBesidesHiLo_writeQuotients {w m : ℕ} (d : R5900 σ) (v : ℕ → BitVec w × BitVec w) :
    SameBesidesHiLo d (writeQuotients d m v) :=
  ⟨rfl, rfl, rfl⟩

theorem lane_writeQuotients {w m k : ℕ} (hm : w * m ≤ 128) (hk : k < m) (d : R5900 σ) (v : ℕ → BitVec w × BitVec w) :
    lane w k (writeQuotients d m v).rest.lo = (v k).1 ∧ lane w k (writeQuotients d m v).rest.hi = (v k).2 := by
  constructor
  · exact (lane_setLanes _ hm _ k).trans (if_pos hk)
  · exact (lane_setLanes _ hm _ k).trans (if_pos hk)

/-- Both lanes of `PDIVW` and `PDIVUW`. -/
theorem parallelDiv_eq {div : Uword → Uword → Option (Udword × Udword)} {value : Uword → Uword → Udword × Udword}
    (h : ∀ a b, div a b = some (value a b)) (inst : EeCoreInstruction) (d : R5900 σ) :
    parallelDiv inst d div = some (writeQuotients d 2 fun k => value (read 32 d inst.rs (2 * k)) (read 32 d inst.rt (2 * k))) := by
  rw [parallelDiv, h, h]
  rfl

/-- What the divisions leave. -/
structure Divides (inst : EeCoreInstruction) (d : R5900 σ) : Prop where
  /-- `DIV`, of words 0. -/
  div : ∃ d', Checked.div inst d = some d' ∧ (read 32 d inst.rt 0 ≠ 0 →
    ∃ q r, SignedQuotient (read 32 d inst.rs 0) (read 32 d inst.rt 0) q r ∧ d' = writeQuotient d q r)
  /-- `DIVU`, of words 0. -/
  divu : ∃ d', Checked.divu inst d = some d' ∧ (read 32 d inst.rt 0 ≠ 0 →
    ∃ q r, UnsignedQuotient (read 32 d inst.rs 0) (read 32 d inst.rt 0) q r ∧ d' = writeQuotient d q r)
  /-- `PDIVW`, of words 0 and of words 2. -/
  pdivw : ∃ d', pdivw inst d = some d' ∧ SameBesidesHiLo d d' ∧ ∀ k < 2, read 32 d inst.rt (2 * k) ≠ 0 →
    ∃ q r, SignedQuotient (read 32 d inst.rs (2 * k)) (read 32 d inst.rt (2 * k)) q r ∧
      lane 64 k d'.rest.lo = q.signExtend 64 ∧ lane 64 k d'.rest.hi = r.signExtend 64
  /-- `PDIVUW`, of words 0 and of words 2. -/
  pdivuw : ∃ d', pdivuw inst d = some d' ∧ SameBesidesHiLo d d' ∧ ∀ k < 2, read 32 d inst.rt (2 * k) ≠ 0 →
    ∃ q r, UnsignedQuotient (read 32 d inst.rs (2 * k)) (read 32 d inst.rt (2 * k)) q r ∧
      lane 64 k d'.rest.lo = q.signExtend 64 ∧ lane 64 k d'.rest.hi = r.signExtend 64
  /-- `PDIVBW`, of all words by one halfword. -/
  pdivbw : ∃ d', pdivbw inst d = some d' ∧ SameBesidesHiLo d d' ∧ ∀ k < 4, read 16 d inst.rt 0 ≠ 0 →
    ∃ q r, SignedQuotient (read 32 d inst.rs k) ((read 16 d inst.rt 0).signExtend 32) q r ∧
      lane 32 k d'.rest.lo = q ∧ lane 32 k d'.rest.hi = r
  /-- Lane 0 of `PDIVW` is `DIV`. -/
  div_pdivw : read 32 d inst.rt 0 ≠ 0 → ∃ d' d'', Checked.div inst d = some d' ∧ R5900.pdivw inst d = some d'' ∧
    lane 64 0 d''.rest.lo = lane 64 0 d'.rest.lo ∧ lane 64 0 d''.rest.hi = lane 64 0 d'.rest.hi
  /-- Lane 0 of `PDIVUW` is `DIVU`. -/
  divu_pdivuw : read 32 d inst.rt 0 ≠ 0 → ∃ d' d'', Checked.divu inst d = some d' ∧ R5900.pdivuw inst d = some d'' ∧
    lane 64 0 d''.rest.lo = lane 64 0 d'.rest.lo ∧ lane 64 0 d''.rest.hi = lane 64 0 d'.rest.hi

variable (inst d)

/-- Both lanes, where each division behind its guards is right. -/
theorem parallelDiv_spec {quotient : Uword → Uword → Uword → Uword → Prop} {div : Uword → Uword → Option (Udword × Udword)}
    (h : ∀ a b, ∃ v, div a b = some v ∧ (b ≠ 0 → ∃ q r, quotient a b q r ∧ v = signExtendBoth q r)) :
    ∃ d', parallelDiv inst d div = some d' ∧ SameBesidesHiLo d d' ∧ ∀ k < 2, read 32 d inst.rt (2 * k) ≠ 0 →
      ∃ q r, quotient (read 32 d inst.rs (2 * k)) (read 32 d inst.rt (2 * k)) q r ∧
        lane 64 k d'.rest.lo = q.signExtend 64 ∧ lane 64 k d'.rest.hi = r.signExtend 64 := by
  choose value hvalue hquotient using h
  refine ⟨_, parallelDiv_eq hvalue inst d, sameBesidesHiLo_writeQuotients d _, fun k hk hb => ?_⟩
  obtain ⟨q, r, hqr, hv⟩ := hquotient (read 32 d inst.rs (2 * k)) _ hb
  obtain ⟨hlo, hhi⟩ := lane_writeQuotients (by decide : 64 * 2 ≤ 128) hk d
    fun k => value (read 32 d inst.rs (2 * k)) (read 32 d inst.rt (2 * k))
  rw [hv] at hlo hhi
  exact ⟨q, r, hqr, hlo, hhi⟩

theorem pdivbw_spec : ∃ d', pdivbw inst d = some d' ∧ SameBesidesHiLo d d' ∧ ∀ k < 4, read 16 d inst.rt 0 ≠ 0 →
    ∃ q r, SignedQuotient (read 32 d inst.rs k) ((read 16 d inst.rt 0).signExtend 32) q r ∧
      lane 32 k d'.rest.lo = q ∧ lane 32 k d'.rest.hi = r := by
  have h (a : Uword) := signedDivide_spec a ((read 16 d inst.rt 0).signExtend 32) (0, 0) Prod.mk
  choose value hvalue hquotient using h
  have heq : pdivbw inst d = some (writeQuotients d 4 fun k => value (read 32 d inst.rs k)) := by
    simp only [pdivbw, hvalue]
    rfl
  refine ⟨_, heq, sameBesidesHiLo_writeQuotients d _, fun k hk hb => ?_⟩
  have hdivisor : (read 16 d inst.rt 0).signExtend 32 ≠ 0 := by
    intro h0
    have hint := congrArg BitVec.toInt h0
    rw [BitVec.toInt_signExtend_of_le (by decide)] at hint
    exact hb (BitVec.eq_of_toInt_eq hint)
  obtain ⟨q, r, hqr, hv⟩ := hquotient (read 32 d inst.rs k) hdivisor
  obtain ⟨hlo, hhi⟩ := lane_writeQuotients (by decide : 32 * 4 ≤ 128) hk d fun k => value (read 32 d inst.rs k)
  rw [hv] at hlo hhi
  exact ⟨q, r, hqr, hlo, hhi⟩

/-- The low doublewords after a scalar division and after lane 0 of a parallel one of the same words. -/
theorem low_writeQuotient (q r : Uword) (v : ℕ → Udword × Udword) (hv : v 0 = signExtendBoth q r) :
    lane 64 0 (writeQuotients d 2 v).rest.lo = lane 64 0 (writeQuotient d q r).rest.lo ∧
      lane 64 0 (writeQuotients d 2 v).rest.hi = lane 64 0 (writeQuotient d q r).rest.hi := by
  obtain ⟨hlo, hhi⟩ := lane_writeQuotients (by decide : 64 * 2 ≤ 128) (by decide : 0 < 2) d v
  rw [hlo, hhi, hv]
  exact ⟨(lane_setLane_self (by decide) _ _).symm, (lane_setLane_self (by decide) _ _).symm⟩

theorem divides : Divides inst d where
  div := signedDivide_spec _ _ d (writeQuotient d)
  divu := unsignedDivide_spec _ _ d (writeQuotient d)
  pdivw := parallelDiv_spec inst d fun a b => signedDivide_spec a b (0, 0) signExtendBoth
  pdivuw := parallelDiv_spec inst d fun a b => unsignedDivide_spec a b (0, 0) signExtendBoth
  pdivbw := pdivbw_spec inst d
  div_pdivw hb := by
    refine ⟨_, _, signedDivide_eq .., parallelDiv_eq (fun _ _ => signedDivide_eq ..) inst d, ?_⟩
    by_cases ho : Overflows (read 32 d inst.rs 0) (read 32 d inst.rt 0)
    · simp only [if_pos ho]
      exact low_writeQuotient d _ _ _ (if_pos ho)
    · simp only [if_neg ho, if_neg hb]
      exact low_writeQuotient d _ _ _ ((if_neg ho).trans (if_neg hb))
  divu_pdivuw hb := by
    refine ⟨_, _, unsignedDivide_eq .., parallelDiv_eq (fun _ _ => unsignedDivide_eq ..) inst d, ?_⟩
    simp only [if_neg hb]
    exact low_writeQuotient d _ _ _ (if_neg hb)

end R5900

/-! ### Both cores -/

namespace R3000

variable {σ : Type}

/-- What the divisions of the IOP leave. -/
structure Divides (inst : IopCoreInstruction) (d : R3000 σ) : Prop where
  /-- `DIV`. -/
  div : ∃ d', div inst d = some d' ∧ (d.gpr inst.rt ≠ 0 →
    ∃ q r, SignedQuotient (d.gpr inst.rs) (d.gpr inst.rt) q r ∧ d' = writeQuotient d q r)
  /-- `DIVU`. -/
  divu : ∃ d', divu inst d = some d' ∧ (d.gpr inst.rt ≠ 0 →
    ∃ q r, UnsignedQuotient (d.gpr inst.rs) (d.gpr inst.rt) q r ∧ d' = writeQuotient d q r)

end R3000

/-- For all operands, in whatever registers: no division is made that the host does not define, and by a divisor that is not
0 all leave the quotient in `LO` and the remainder in `HI`, sign extended to doublewords where they write these. -/
theorem integer_division {σ σ' : Type} (inst : EeCoreInstruction) (d : R5900 σ) (inst' : IopCoreInstruction)
    (d' : R3000 σ') : R5900.Divides inst d ∧ R3000.Divides inst' d' :=
  ⟨R5900.divides inst d, signedDivide_spec _ _ d' (R3000.writeQuotient d'),
    unsignedDivide_spec _ _ d' (R3000.writeQuotient d')⟩

end Orbum
