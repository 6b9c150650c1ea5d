import Orbum.Ee.Core.Interpreter.Multiply

/-!
# The funnel shift

`QFSRV` of `CEeCoreInterpreter_SHIFT.cpp` shifts `Rs || Rt` right by what `MTSAB` or `MTSAH` of
`CEeCoreInterpreter_SPECIAL_TRANSFER.cpp` left in `SA`. It puts the 256 bits together from the four doublewords of the
two registers, the lowest of which ends up highest.
-/

namespace Orbum

open Lanes

namespace R5900

variable {σ : Type} (inst : EeCoreInstruction) (d : R5900 σ)

/-! ### The instructions -/

/-- Writes `sa`. -/
@[simps] def setSa (d : R5900 σ) (sa : Uword) : R5900 σ := { d with rest := { d.rest with sa } }

/-- `MTSAB`. -/
def mtsab : R5900 σ := setSa d (((d.readUword inst.rs &&& 0xF) ^^^ (inst.imm.signExtend 32 &&& 0xF)) * 8)

/-- `MTSAH`. -/
def mtsah : R5900 σ := setSa d (((d.readUword inst.rs &&& 0x7) ^^^ (inst.imm.signExtend 32 &&& 0x7)) * 16)

/-- The `bitset<256>` of `QFSRV` before the shift. -/
def funnelBits : BitVec 256 :=
  let result : BitVec 256 := 0
  let result := (result ||| (read 64 d inst.rt 0).setWidth 256) <<< 64
  let result := (result ||| (read 64 d inst.rt 1).setWidth 256) <<< 64
  let result := (result ||| (read 64 d inst.rs 0).setWidth 256) <<< 64
  result ||| (read 64 d inst.rs 1).setWidth 256

/-- `QFSRV`. -/
def qfsrv : R5900 σ :=
  let result := funnelBits inst d >>> d.rest.sa.toNat
  let value (i : ℕ) : Udword := (result >>> (64 * i)).setWidth 64
  write (write d inst.rd 0 (value 0)) inst.rd 1 (value 1)

/-! ### What they are meant to do -/

/-- The low quadword of `Rs || Rt`, shifted right by `n`. -/
def funnelShift (rs rt : Uqword) (n : ℕ) : Uqword := ((rs ++ rt) >>> n).setWidth 128

/-- The bytes that `MTSAB` encodes. -/
def byteCount : ℕ := (d.readUword inst.rs ^^^ inst.imm.signExtend 32).toNat % 16

/-- The halfwords that `MTSAH` encodes. -/
def halfwordCount : ℕ := (d.readUword inst.rs ^^^ inst.imm.signExtend 32).toNat % 8

/-- `d'` has in `Rd` the funnel shift of `Rs` and `Rt` in `d` by `n` bits. `gpr[0]` is read only. -/
structure FunnelShifts (n : ℕ) (d d' : R5900 σ) : Prop where
  /-- `Rd`. -/
  rd : inst.rd ≠ 0 → d'.gpr inst.rd = funnelShift (d.gpr inst.rs) (d.gpr inst.rt) n
  /-- A shift by nothing. -/
  zero : inst.rd ≠ 0 → n = 0 → d'.gpr inst.rd = d.gpr inst.rt
  /-- A rotation. -/
  rotate : inst.rd ≠ 0 → d.gpr inst.rs = d.gpr inst.rt → d'.gpr inst.rd = (d.gpr inst.rt).rotateRight n

theorem getLsbD_funnelShift (rs rt : Uqword) (n : ℕ) {i : ℕ} (hi : i < 128) :
    (funnelShift rs rt n).getLsbD i =
      if n + i < 128 then rt.getLsbD (n + i) else rs.getLsbD (n + i - 128) := by
  simp only [funnelShift, BitVec.getLsbD_setWidth, BitVec.getLsbD_ushiftRight, BitVec.getLsbD_append, hi, decide_true,
    Bool.true_and]

theorem funnelShift_zero (rs rt : Uqword) : funnelShift rs rt 0 = rt := by
  apply BitVec.eq_of_getLsbD_eq
  intro i hi
  rw [getLsbD_funnelShift rs rt 0 hi, Nat.zero_add, if_pos hi]

theorem funnelShift_self (q : Uqword) {n : ℕ} (hn : n < 128) : funnelShift q q n = q.rotateRight n := by
  apply BitVec.eq_of_getLsbD_eq
  intro i hi
  rw [getLsbD_funnelShift q q n hi, BitVec.getLsbD_rotateRight, Nat.mod_eq_of_lt hn]
  by_cases h : i < 128 - n
  · rw [if_pos (by omega), decide_eq_true h, cond_true]
  · rw [if_neg (by omega), decide_eq_false h, cond_false, decide_eq_true hi, Bool.true_and]
    exact congrArg q.getLsbD (by omega)

/-- The first of these is all of it. -/
theorem funnelShifts_iff {n : ℕ} (hn : n < 128) (d d' : R5900 σ) :
    FunnelShifts inst n d d' ↔
      (inst.rd ≠ 0 → d'.gpr inst.rd = funnelShift (d.gpr inst.rs) (d.gpr inst.rt) n) := by
  constructor
  · exact FunnelShifts.rd
  · intro h
    refine ⟨h, fun hrd hzero => ?_, fun hrd heq => ?_⟩
    · rw [h hrd, hzero, funnelShift_zero]
    · rw [h hrd, heq, funnelShift_self _ hn]

/-! ### What they do -/

theorem and_xor_and (a b m : Uword) : (a &&& m) ^^^ (b &&& m) = (a ^^^ b) &&& m := by
  apply BitVec.eq_of_getLsbD_eq
  intro i hi
  simp only [BitVec.getLsbD_xor, BitVec.getLsbD_and]
  cases a.getLsbD i <;> cases b.getLsbD i <;> cases m.getLsbD i <;> rfl

theorem sa_mtsab : (mtsab inst d).rest.sa.toNat = 8 * byteCount inst d := by
  have hmask : ((d.readUword inst.rs ^^^ inst.imm.signExtend 32) &&& 0xF).toNat = byteCount inst d := by
    rw [BitVec.toNat_and]
    exact Nat.and_two_pow_sub_one_eq_mod _ 4
  have hlt : byteCount inst d < 16 := Nat.mod_lt _ (by decide)
  rw [mtsab, setSa_rest_sa, and_xor_and, BitVec.toNat_mul, hmask]
  change byteCount inst d * 8 % 2 ^ 32 = _
  omega

theorem sa_mtsah : (mtsah inst d).rest.sa.toNat = 16 * halfwordCount inst d := by
  have hmask : ((d.readUword inst.rs ^^^ inst.imm.signExtend 32) &&& 0x7).toNat = halfwordCount inst d := by
    rw [BitVec.toNat_and]
    exact Nat.and_two_pow_sub_one_eq_mod _ 3
  have hlt : halfwordCount inst d < 8 := Nat.mod_lt _ (by decide)
  rw [mtsah, setSa_rest_sa, and_xor_and, BitVec.toNat_mul, hmask]
  change halfwordCount inst d * 16 % 2 ^ 32 = _
  omega

theorem getLsbD_funnelBits {i : ℕ} (hi : i < 256) :
    (funnelBits inst d).getLsbD i =
      if i < 64 then (read 64 d inst.rs 1).getLsbD i
      else if i < 128 then (read 64 d inst.rs 0).getLsbD (i - 64)
      else if i < 192 then (read 64 d inst.rt 1).getLsbD (i - 128)
      else (read 64 d inst.rt 0).getLsbD (i - 192) := by
  have hhigh (v : Udword) (j : ℕ) (hj : 64 ≤ j) : v.getLsbD j = false := BitVec.getLsbD_of_ge v j hj
  simp only [funnelBits, BitVec.getLsbD_or, BitVec.getLsbD_shiftLeft, BitVec.getLsbD_setWidth, hi, Nat.sub_sub,
    decide_true, Bool.true_and]
  by_cases h64 : i < 64
  · simp [h64]
  by_cases h128 : i < 128
  · simp [h64, h128, hhigh _ i (by omega), show i - 64 < 64 by omega, show i - 64 < 256 by omega]
  by_cases h192 : i < 192
  · simp [h64, h128, h192, hhigh _ i (by omega), hhigh _ (i - 64) (by omega), show i - 128 < 64 by omega,
      show i - 64 < 256 by omega, show i - 128 < 256 by omega, show ¬i - 64 < 64 by omega]
  · simp [h64, h128, h192, hhigh _ i (by omega), hhigh _ (i - 64) (by omega), hhigh _ (i - 128) (by omega),
      show i - 64 < 256 by omega, show i - 128 < 256 by omega, show i - 192 < 256 by omega,
      show ¬i - 64 < 64 by omega, show ¬i - 128 < 64 by omega]

/-- `QFSRV` writes the low quadword. -/
theorem gpr_qfsrv (hrd : inst.rd ≠ 0) :
    (qfsrv inst d).gpr inst.rd = (funnelBits inst d >>> d.rest.sa.toNat).setWidth 128 := by
  refine eq_of_lanes (w := 64) (m := 2) rfl fun k hk => ?_
  have hlane : lane 64 k ((funnelBits inst d >>> d.rest.sa.toNat).setWidth 128) =
      (funnelBits inst d >>> d.rest.sa.toNat >>> (64 * k)).setWidth 64 := by
    apply BitVec.eq_of_getLsbD_eq
    intro i hi
    simp only [getLsbD_lane, BitVec.getLsbD_setWidth, BitVec.getLsbD_ushiftRight, hi, show 64 * k + i < 128 by omega,
      decide_true, Bool.true_and]
  simp only [qfsrv, gpr_write _ hrd]
  rw [lane_setLane (by decide), lane_setLane (by decide), hlane]
  obtain rfl | rfl : k = 0 ∨ k = 1 := by omega
  · rfl
  · rfl

/-- The doublewords of `Rs` and `Rt` that the shift by `n` does not tell apart. -/
def SameFunnel (n : ℕ) : Prop :=
  read 64 d inst.rs 0 = read 64 d inst.rt 1 ∧
    ∀ i < 64, n ≤ i ∨ i + 64 < n → (read 64 d inst.rs 1).getLsbD i = (read 64 d inst.rt 0).getLsbD i

/-- `Rs || Rt`, of which `funnelBits` has the doublewords in the opposite order. -/
theorem getLsbD_sources {i : ℕ} (hi : i < 256) :
    (d.gpr inst.rs ++ d.gpr inst.rt).getLsbD i =
      if i < 64 then (read 64 d inst.rt 0).getLsbD i
      else if i < 128 then (read 64 d inst.rt 1).getLsbD (i - 64)
      else if i < 192 then (read 64 d inst.rs 0).getLsbD (i - 128)
      else (read 64 d inst.rs 1).getLsbD (i - 192) := by
  have hlow (r : BitVec 5) {j : ℕ} (hj : j < 64) : (read 64 d r 0).getLsbD j = (d.gpr r).getLsbD j := by
    rw [read, getLsbD_lane, decide_eq_true hj, Nat.mul_zero, Nat.zero_add, Bool.true_and]
  have hhigh (r : BitVec 5) {j : ℕ} (hj : j < 64) : (read 64 d r 1).getLsbD j = (d.gpr r).getLsbD (64 + j) := by
    rw [read, getLsbD_lane, decide_eq_true hj, Nat.mul_one, Bool.true_and]
  rw [BitVec.getLsbD_append]
  by_cases h64 : i < 64
  · rw [if_pos (by omega), if_pos h64, hlow _ h64]
  rw [if_neg h64]
  by_cases h128 : i < 128
  · rw [if_pos h128, if_pos h128, hhigh _ (by omega), Nat.add_sub_cancel' (by omega)]
  rw [if_neg h128, if_neg h128]
  by_cases h192 : i < 192
  · rw [if_pos h192, hlow _ (by omega)]
  · rw [if_neg h192, hhigh _ (by omega)]
    exact congrArg (d.gpr inst.rs).getLsbD (by omega)

theorem funnelBits_iff {n : ℕ} (hn : n < 128) :
    (funnelBits inst d >>> n).setWidth 128 = funnelShift (d.gpr inst.rs) (d.gpr inst.rt) n ↔ SameFunnel inst d n := by
  have hbits : (funnelBits inst d >>> n).setWidth 128 = funnelShift (d.gpr inst.rs) (d.gpr inst.rt) n ↔
      ∀ j, n ≤ j → j < n + 128 → (funnelBits inst d).getLsbD j = (d.gpr inst.rs ++ d.gpr inst.rt).getLsbD j := by
    constructor
    · intro h j hj hlt
      have hbit := congrArg (fun q : Uqword => q.getLsbD (j - n)) h
      simpa only [funnelShift, BitVec.getLsbD_setWidth, BitVec.getLsbD_ushiftRight, show j - n < 128 by omega,
        decide_true, Bool.true_and, show n + (j - n) = j by omega] using hbit
    · intro h
      apply BitVec.eq_of_getLsbD_eq
      intro i hi
      simp only [funnelShift, BitVec.getLsbD_setWidth, BitVec.getLsbD_ushiftRight, hi, decide_true, Bool.true_and]
      exact h (n + i) (by omega) (by omega)
  rw [hbits]
  constructor
  · intro h
    have hj {j : ℕ} (hle : n ≤ j) (hlt : j < n + 128) :=
      (getLsbD_funnelBits inst d (show j < 256 by omega)).symm.trans
        ((h j hle hlt).trans (getLsbD_sources inst d (show j < 256 by omega)))
    refine ⟨BitVec.eq_of_getLsbD_eq fun i hi => ?_, fun i hi hrange => ?_⟩
    · -- Bit `i` of these doublewords is seen at `64 + i` or at `128 + i`.
      by_cases hle : n ≤ 64 + i
      · simpa [show ¬64 + i < 64 by omega, show 64 + i < 128 by omega] using hj hle (by omega)
      · have h128 := hj (j := 128 + i) (by omega) (by omega)
        simpa [show ¬128 + i < 64 by omega, show ¬128 + i < 128 by omega, show 128 + i < 192 by omega] using h128.symm
    · rcases hrange with hle | hlt
      · simpa [hi] using hj hle (by omega)
      · have h192 := hj (j := 192 + i) (by omega) (by omega)
        simpa [show ¬192 + i < 64 by omega, show ¬192 + i < 128 by omega, show ¬192 + i < 192 by omega] using h192.symm
  · rintro ⟨hmid, hend⟩ j hle hlt
    rw [getLsbD_funnelBits inst d (by omega), getLsbD_sources inst d (by omega)]
    split_ifs with h64 h128 h192
    · exact hend j h64 (.inl hle)
    · exact congrArg (fun v : Udword => v.getLsbD (j - 64)) hmid
    · exact congrArg (fun v : Udword => v.getLsbD (j - 128)) hmid.symm
    · exact (hend (j - 192) (by omega) (.inr (by omega))).symm

/-- `QFSRV`, with less than a quadword to shift by. -/
theorem funnelShifts_qfsrv_iff {n : ℕ} (hsa : d.rest.sa.toNat = n) (hn : n < 128) :
    FunnelShifts inst n d (qfsrv inst d) ↔ inst.rd = 0 ∨ SameFunnel inst d n := by
  rw [funnelShifts_iff inst hn]
  by_cases hrd : inst.rd = 0
  · exact iff_of_true (fun h => absurd hrd h) (.inl hrd)
  · rw [gpr_qfsrv inst d hrd, hsa, funnelBits_iff inst d hn, or_iff_right hrd]
    exact forall_prop_of_true hrd

/-- Whatever the registers and the immediate: `MTSAB` or `MTSAH` and then `QFSRV` make the funnel shift of `Rs || Rt` by
the bytes or halfwords encoded if and only if `Rd` is read only, or the low doubleword of `Rs` is the high one of `Rt`
and the high one of `Rs` and the low one of `Rt` agree in the bits that the shift leaves of them. -/
theorem funnel_shift_iff (inst₀ inst : EeCoreInstruction) (d : R5900 σ) :
    (FunnelShifts inst (8 * byteCount inst₀ d) d (qfsrv inst (mtsab inst₀ d)) ↔
      inst.rd = 0 ∨ SameFunnel inst d (8 * byteCount inst₀ d)) ∧
    (FunnelShifts inst (16 * halfwordCount inst₀ d) d (qfsrv inst (mtsah inst₀ d)) ↔
      inst.rd = 0 ∨ SameFunnel inst d (16 * halfwordCount inst₀ d)) := by
  have hbytes : byteCount inst₀ d < 16 := Nat.mod_lt _ (by decide)
  have hhalfwords : halfwordCount inst₀ d < 8 := Nat.mod_lt _ (by decide)
  -- `SA` apart, the registers are the same.
  have hsame {n : ℕ} {d' : R5900 σ} (sa : Uword) :
      FunnelShifts inst n d d' ↔ FunnelShifts inst n (setSa d sa) d' :=
    ⟨fun h => ⟨h.rd, h.zero, h.rotate⟩, fun h => ⟨h.rd, h.zero, h.rotate⟩⟩
  exact ⟨(hsame _).trans (funnelShifts_qfsrv_iff inst _ (sa_mtsab inst₀ d) (by omega)),
    (hsame _).trans (funnelShifts_qfsrv_iff inst _ (sa_mtsah inst₀ d) (by omega))⟩

/-- `MTSAB` of no bytes and `QFSRV` of 0 and 1 give 0, not 1. -/
theorem funnel_shift_swaps :
    ¬∀ (inst₀ inst : EeCoreInstruction) (d : R5900 Unit),
      FunnelShifts inst (8 * byteCount inst₀ d) d (qfsrv inst (mtsab inst₀ d)) := by
  intro h
  exact absurd ((h ⟨0x04180000⟩ ⟨0x700256E8⟩ ⟨fun r => if r = 2 then 1 else 0, 0, 0, 0, ()⟩).zero (by decide) (by decide))
    (by decide)

end R5900

end Orbum
