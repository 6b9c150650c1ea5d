import Orbum.Ee.Core.Cop0
import Orbum.Lib.Run

/-!
# The timer of the EE core

`CEeCore::handle_count_update` and the `Compare` register: the timer interrupt is line 7 of `Cause`,
raised when `Count` reaches `Compare` and cleared by a write to `Compare`.

Two things go wrong. The write to `Compare` neither stores the value nor clears line 7: it indexes
the eight lines with 8. And the comparison is `>=` on the new `Count` alone, so a `Compare` between the
old `Count` and `2^32` is passed unseen by an update that wraps.
-/

namespace Orbum

namespace EeCoreCop0

/-- `CEeCore::handle_count_update(cpi)`. -/
def handleCountUpdate (c : EeCoreCop0) (cpi : Uword) : Except HostError EeCoreCop0 :=
  let c := { c with count := c.count + cpi }
  if c.status.countInterruptsEnabled then
    if c.compare ≤ c.count then do return { c with cause := ← c.cause.setIrqLine 7 } else .ok c
  else .ok c

end EeCoreCop0

namespace EeCoreCop0Cause

theorem getLsbD_foldl_lines (irq : Fin 8 → Bool) (l : List (Fin 8)) (v : Uword) (i : ℕ) (hi : i < 32) :
    (l.foldl (fun v j => if irq j then v ||| (1#32 <<< j.val) else v) v).getLsbD i =
      (v.getLsbD i || l.any fun j => irq j && decide (j.val = i)) := by
  induction l generalizing v with
  | nil => simp
  | cons j l ih =>
    rw [List.foldl_cons, ih, List.any_cons]
    by_cases hj : irq j
    · have hbit : (1#32 <<< j.val).getLsbD i = decide (j.val = i) := by
        rw [BitVec.getLsbD_shiftLeft, BitVec.getLsbD_one]
        simp only [hi, decide_true, Bool.true_and]
        grind
      simp only [hj, if_true, BitVec.getLsbD_or, hbit, Bool.true_and, Bool.or_assoc]
    · simp [hj]

/-- Bit `i` of the merged lines is line `i`. -/
theorem getLsbD_lines (c : EeCoreCop0Cause) (i : Fin 8) : c.lines.getLsbD i = c.irqLines i := by
  rw [lines, getLsbD_foldl_lines _ _ _ _ (by omega), Bool.eq_iff_iff]
  simp [← Fin.ext_iff]

/-- `IP` reads as the lines. -/
theorem getLsbD_ip_merged (c : EeCoreCop0Cause) (i : Fin 8) : (ip.extractFrom c.merged).getLsbD i = c.irqLines i := by
  rw [merged, Bitfield.extractFrom_insertInto_self _ _ _ (by decide), BitVec.getLsbD_and,
    Bitfield.getLsbD_unshiftedMask, getLsbD_lines]
  have hi : i.val < ip.length := i.isLt
  have hi' : i.val < 32 := by omega
  simp [hi, hi']

end EeCoreCop0Cause

/-! ### The interval an update passes -/

/-- `x` lies in the half open cyclic interval `(c, c + n]`. -/
def InCyclic (c n x : Uword) : Prop := (x - c - 1#32).toNat < n.toNat

/-- The update passes `2 ^ 32`. -/
def Wraps (c n : Uword) : Prop := 2 ^ 32 ≤ c.toNat + n.toNat

instance (c n : Uword) : Decidable (Wraps c n) := inferInstanceAs (Decidable (_ ≤ _))

/-- Without a wrap the `>=` of the source sees every `Compare` passed. -/
theorem le_add_of_inCyclic {c n x : Uword} (h : InCyclic c n x) (hw : ¬(Wraps c n ∧ c < x)) : x ≤ c + n := by
  simp only [InCyclic, Wraps, BitVec.lt_def, BitVec.le_def, BitVec.toNat_sub, BitVec.toNat_add,
    BitVec.toNat_ofNat] at *
  have hc := c.isLt
  have hn := n.isLt
  have hx := x.isLt
  omega

/-- With a wrap a `Compare` above the old `Count` is passed and not seen. -/
theorem inCyclic_of_wraps {c n x : Uword} (hw : Wraps c n) (hx : c < x) : InCyclic c n x ∧ ¬x ≤ c + n := by
  simp only [InCyclic, Wraps, BitVec.lt_def, BitVec.le_def, BitVec.toNat_sub, BitVec.toNat_add,
    BitVec.toNat_ofNat] at *
  have hc := c.isLt
  have hn := n.isLt
  have hx := x.isLt
  omega

/-! ### Runs of the timer -/

/-- What reaches the timer. -/
inductive TimerOp where
  /-- `MTC0` to `Compare`. -/
  | mtc0Compare (v : Uword)
  /-- `handle_count_update(cpi)`. -/
  | countUpdate (cpi : Uword)

namespace TimerOp

/-- One operation. -/
def step : TimerOp → EeCoreCop0 → Except HostError EeCoreCop0
  | mtc0Compare v, c => c.writeRegister 11 v
  | countUpdate cpi, c => c.handleCountUpdate cpi

/-- The timer protocol at one operation: a write to `Compare` stores the value, clears line 7 and no other;
an update advances `Count`, and while count interrupts are enabled it sets line 7 if it passes `Compare`. -/
def Meets : TimerOp → EeCoreCop0 → Prop
  | mtc0Compare v, c => ∃ c', step (mtc0Compare v) c = .ok c' ∧ (c'.readRegister 11).1 = v ∧
      (EeCoreCop0Cause.ip.extractFrom (c'.readRegister 13).1).getLsbD 7 = false ∧
      ∀ i, i ≠ 7 → c'.cause.irqLines i = c.cause.irqLines i
  | countUpdate cpi, c => ∃ c', step (countUpdate cpi) c = .ok c' ∧ c'.count = c.count + cpi ∧
      (c.status.countInterruptsEnabled → InCyclic c.count cpi c.compare →
        (EeCoreCop0Cause.ip.extractFrom (c'.readRegister 13).1).getLsbD 7 = true)

/-- Where the code follows the protocol: never at a write to `Compare`; at an update unless it wraps past a
`Compare` above the old `Count` with count interrupts enabled and line 7 still clear. -/
def Sound : TimerOp → EeCoreCop0 → Prop
  | mtc0Compare _, _ => False
  | countUpdate cpi, c =>
    ¬(c.status.countInterruptsEnabled ∧ Wraps c.count cpi ∧ c.count < c.compare ∧ c.cause.irqLines 7 = false)

theorem step_mtc0Compare (v : Uword) (c : EeCoreCop0) : step (mtc0Compare v) c = .error .outOfBounds := rfl

/-- What an update does. -/
theorem step_countUpdate (cpi : Uword) (c : EeCoreCop0) :
    step (countUpdate cpi) c = .ok { c with
      count := c.count + cpi
      cause := if c.status.countInterruptsEnabled ∧ c.compare ≤ c.count + cpi then
        { c.cause with irqLines := Function.update c.cause.irqLines 7 true } else c.cause } := by
  simp only [step, EeCoreCop0.handleCountUpdate]
  split_ifs <;> simp_all [EeCoreCop0Cause.setIrqLine, bind, Except.bind, pure, Except.pure]

theorem meets_iff_sound (op : TimerOp) (c : EeCoreCop0) : op.Meets c ↔ op.Sound c := by
  cases op with
  | mtc0Compare v => simp [Meets, Sound, step_mtc0Compare]
  | countUpdate cpi =>
    have hread (c' : EeCoreCop0) : (EeCoreCop0Cause.ip.extractFrom (c'.readRegister 13).1).getLsbD 7 =
        c'.cause.irqLines 7 := EeCoreCop0Cause.getLsbD_ip_merged c'.cause 7
    simp only [Meets, Sound, step_countUpdate, Except.ok.injEq, exists_eq_left', hread, true_and]
    constructor
    · rintro h ⟨hen, hw, hlt, hclear⟩
      obtain ⟨hin, hnle⟩ := inCyclic_of_wraps hw hlt
      have := h hen hin
      simp [hnle, hclear] at this
    · intro h hen hin
      by_cases hle : c.compare ≤ c.count + cpi
      · simp [hen, hle]
      · have hw : Wraps c.count cpi ∧ c.count < c.compare := by
          by_contra hw
          exact hle (le_add_of_inCyclic hin hw)
        simpa [hle] using fun hclear => h ⟨hen, hw.1, hw.2, hclear⟩

end TimerOp

/-- In every run of `Compare` writes and count updates, from every state of COP0, the timer protocol is kept at
every step if and only if no step writes `Compare` and no enabled update wraps past it with line 7 clear. -/
theorem timer_protocol_iff (ops : List TimerOp) (c : EeCoreCop0) :
    Run.Always TimerOp.step TimerOp.Meets ops c ↔ Run.Always TimerOp.step TimerOp.Sound ops c :=
  Run.always_congr TimerOp.meets_iff_sound ops c

/-- Both ways to break the protocol: a write to `Compare` right after construction does not return, and with
count interrupts enabled an update by 9 from `Count` `2 ^ 32 - 8` passes `Compare` `2 ^ 32 - 1` and leaves
line 7 clear. -/
theorem timer_protocol_broken :
    ¬Run.Always TimerOp.step TimerOp.Meets [.mtc0Compare 1] EeCoreCop0.initial ∧
      ∃ status, EeCoreCop0Status.initial.writeUword 0x00018001 = .ok status ∧
        ¬Run.Always TimerOp.step TimerOp.Meets [.countUpdate 9]
          { EeCoreCop0.initial with status := status, count := 0xFFFFFFF8, compare := 0xFFFFFFFF } := by
  constructor
  · intro h
    exact (TimerOp.meets_iff_sound _ _).mp h.1
  · refine ⟨_, rfl, fun h => ?_⟩
    exact (TimerOp.meets_iff_sound _ _).mp h.1 ⟨by decide, by decide, by decide, rfl⟩

end Orbum
