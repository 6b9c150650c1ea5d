import Orbum.Ee.Core.Interpreter.TimeStep

/-!
# Host indices that the guest chooses

The arrays that COP0 instructions index on the host: the 48 entries of the TLB (`TLBR`, `TLBWI`, `TLBWR`), the two
performance counters of `pcr_registers` (`MFPC`, `MTPC`) and the eight `irq_lines` of `Cause` (a write to `Compare`, the
timer, `INTC` and the DMA controller). None of the indices is checked; an access outside its array is
`HostError.outOfBounds`.

## The model

`MFPC` and `MTPC` are modelled as they stand, though `lookup()` selects neither. `Op.other` is any step that neither indexes
one of the three arrays nor writes `Index` or `Random`, so that between two operations all else may change in any way.
-/

namespace Orbum

/-- `PageMask` holds one of the seven page sizes; `TLBWI` and `TLBWR` throw before they index the TLB otherwise. -/
def EeCoreCop0.ValidPagemask (c : EeCoreCop0) : Prop :=
  (evenoddMaskOf (EeCoreCop0.pagemaskMask.extractFrom c.pagemask)).isSome

/-- `Index` and `Random` are those of `c`. -/
structure EeCoreCop0.KeepsIndices (c' c : EeCoreCop0) : Prop where
  /-- `Index`. -/
  index : c'.index = c.index
  /-- `Random`. -/
  random : c'.random = c.random

/-! ### Performance counters -/

/-- The core with `pcr_registers`. -/
structure PcrCore (σ : Type) where
  /-- The core. -/
  core : EeCore σ
  /-- `pcr_registers`. -/
  pcrRegisters : Fin 2 → Uword

namespace PcrCore

variable {σ : Type}

/-- The index `MFPC` and `MTPC` take from the instruction. -/
def pcrIndex (inst : EeCoreInstruction) : ℕ := inst.funct &&& 0x3E

/-- An instruction that needs COP0, its exception handled. -/
def finish (s : PcrCore σ) (r : Except HostError (Result σ Unit)) : Except HostError (PcrCore σ) := do
  let (_, core) ← (← r).handled
  return { s with core }

/-- `MFPC`. -/
def mfpc (inst : EeCoreInstruction) (s : PcrCore σ) : Except HostError (PcrCore σ) :=
  s.finish (s.core.whenCop0Usable fun core =>
    if h : pcrIndex inst < 2 then
      .ok (core.setData (core.data.writeUdword inst.rt ((s.pcrRegisters ⟨_, h⟩).setWidth 64)))
    else .error .outOfBounds)

/-- `MTPC`. -/
def mtpc (inst : EeCoreInstruction) (s : PcrCore σ) : Except HostError (PcrCore σ) :=
  match s.core.handleCopUsable .cop0 with
  | .value _ core =>
    if h : pcrIndex inst < 2 then
      .ok ⟨core, Function.update s.pcrRegisters ⟨_, h⟩ (core.data.readUword inst.rt)⟩
    else .error .outOfBounds
  | .exception e core => s.finish (.ok (.exception e core))

/-! ### Operations -/

/-- What can index the arrays, and anything else. -/
inductive Op (σ : Type) where
  /-- A system control instruction. -/
  | system (op : SystemOp)
  /-- `MFPC`. -/
  | mfpc (inst : EeCoreInstruction)
  /-- `MTPC`. -/
  | mtpc (inst : EeCoreInstruction)
  /-- `handle_count_update(cpi)`. -/
  | countUpdate (cpi : Uword)
  /-- `CEeIntc::handle_interrupt_check`, with or without an interrupt pending. -/
  | intc (pending : Bool)
  /-- `CEeDmac::handle_interrupt_check`, with or without an interrupt pending. -/
  | dmac (pending : Bool)
  /-- A translation of an address. -/
  | translate (id : MmuIdAccess) (virtualAddress : Uptr) (rwAccess : MmuRwAccess)
  /-- Any other step. -/
  | other (f : PcrCore σ → PcrCore σ) (keeps : ∀ s, (f s).core.cop0.KeepsIndices s.core.cop0)

/-- The update of a line by a controller. -/
def updateLine (line : ℕ) (pending : Bool) (s : PcrCore σ) : Except HostError (PcrCore σ) := do
  let cause ← if pending then s.core.cop0.cause.setIrqLine line else s.core.cop0.cause.clearIrqLine line
  return { s with core := s.core.setCop0 { s.core.cop0 with cause } }

/-- One operation. -/
def Op.step : Op σ → PcrCore σ → Except HostError (PcrCore σ)
  | system op, s => s.finish (op.run s.core)
  | mfpc inst, s => s.mfpc inst
  | mtpc inst, s => s.mtpc inst
  | countUpdate cpi, s => do
    let cop0 ← s.core.cop0.handleCountUpdate cpi
    return { s with core := s.core.setCop0 cop0 }
  | intc pending, s => s.updateLine 2 pending
  | dmac pending, s => s.updateLine 3 pending
  | translate id virtualAddress rwAccess, s => do
    let (_, core) ← (s.core.lookup id virtualAddress rwAccess).handled
    return { s with core }
  | other f _, s => .ok (f s)

/-- No array is accessed outside its bounds. -/
def Op.InBounds (op : Op σ) (s : PcrCore σ) : Prop := op.step s ≠ .error .outOfBounds

/-- The index that the guest chose is one of the array. -/
def Op.Indexes : Op σ → PcrCore σ → Prop
  | system .tlbr, s => (EeCoreCop0.indexField.extractFrom s.core.cop0.index).toNat < 48
  | system .tlbwi, s =>
    s.core.cop0.ValidPagemask → (EeCoreCop0.indexField.extractFrom s.core.cop0.index).toNat < 48
  | system .tlbwr, s =>
    s.core.cop0.ValidPagemask → (EeCoreCop0.randomField.extractFrom s.core.cop0.random).toNat < 48
  | system (.mtc0 _ rd), _ => rd ≠ 11
  | mfpc inst, _ => pcrIndex inst < 2
  | mtpc inst, _ => pcrIndex inst < 2
  | _, _ => True

/-- Where COP0 is usable, the index that the guest chose is one of the array. -/
def Op.Sound (op : Op σ) (s : PcrCore σ) : Prop := EeCore.isUsable s.core.cop0 .cop0 → op.Indexes s

/-! ### What throws for an index -/

end PcrCore

theorem EeCoreCop0Status.contextOf_ne_outOfBounds (w : Uword) : contextOf w ≠ .error .outOfBounds := by
  unfold contextOf
  split_ifs <;> simp

theorem EeCoreCop0Status.writeUword_ne_outOfBounds (s : EeCoreCop0Status) (value : Uword) :
    s.writeUword value ≠ .error .outOfBounds := by
  intro h
  rcases bind_eq_error_iff.mp h with h | ⟨context, -, h⟩
  · exact contextOf_ne_outOfBounds value h
  · cases h

namespace EeCore

variable {σ : Type}

theorem handleException_ne_outOfBounds (e : EeCoreException) (s : EeCore σ) :
    s.handleException e ≠ .error .outOfBounds := by
  intro h
  rcases bind_eq_error_iff.mp h with h | ⟨status, -, h⟩
  · exact EeCoreCop0Status.writeUword_ne_outOfBounds _ _ h
  · split_ifs at h
    · cases h
    · cases h
    · rcases bind_eq_error_iff.mp h with h | ⟨status', -, h⟩
      · exact EeCoreCop0Status.writeUword_ne_outOfBounds _ _ h
      · cases h

theorem handled_ne_outOfBounds {α : Type} (r : Result σ α) : r.handled ≠ .error .outOfBounds := by
  intro h
  cases r with
  | value u s => cases h
  | exception e s =>
    rcases bind_eq_error_iff.mp h with h | ⟨t, -, h⟩
    · exact handleException_ne_outOfBounds e s h
    · cases h

/-- An instruction that needs COP0 throws where it is usable and its body throws. -/
theorem whenCop0Usable_eq_error_iff {s : EeCore σ} {k : EeCore σ → Except HostError (EeCore σ)} {e : HostError} :
    s.whenCop0Usable k = .error e ↔ isUsable s.cop0 .cop0 ∧ k s = .error e := by
  unfold whenCop0Usable handleCopUsable
  by_cases hu : isUsable s.cop0 .cop0
  · simp only [hu, if_true, bind_eq_error_iff, true_and]
    constructor
    · rintro (h | ⟨t, -, h⟩)
      · exact h
      · cases h
    · exact .inl
  · simp [hu]

theorem tlbEntryAt_eq_outOfBounds_iff (tlb : EeCoreTlb) (n : ℕ) :
    tlb.tlbEntryAt n = .error .outOfBounds ↔ ¬n < 48 := by
  unfold EeCoreTlb.tlbEntryAt
  split_ifs with h <;> simp [h]

theorem tlbEntryOf_cases (c : EeCoreCop0) :
    (c.ValidPagemask ∧ ∃ entry, tlbEntryOf c = .ok entry) ∨
      (¬c.ValidPagemask ∧ ∃ what, tlbEntryOf c = .error (.runtimeError what)) := by
  unfold EeCoreCop0.ValidPagemask tlbEntryOf Mask.ofPagemask
  split
  · rename_i h
    exact .inl ⟨by simp [h], _, rfl⟩
  · rename_i h
    exact .inr ⟨by simp [h], _, rfl⟩

/-- The entry is made before the TLB is indexed. -/
theorem writeTlbEntry_eq_outOfBounds_iff (index : Uword) (s : EeCore σ) :
    s.writeTlbEntry index = .error .outOfBounds ↔ s.cop0.ValidPagemask ∧ ¬index.toNat < 48 := by
  unfold writeTlbEntry
  rcases tlbEntryOf_cases s.cop0 with ⟨hvalid, entry, hentry⟩ | ⟨hvalid, what, hentry⟩
  · simp only [hentry, ok_bind, hvalid, true_and, EeCoreTlb.setTlbEntryAt]
    split_ifs with h
    · simp [h]
    · simp [h]
  · simp [hentry, hvalid]

/-- A write to `Compare` clears a line that does not exist. -/
theorem writeCompare_eq (c : EeCoreCop0) (value : Uword) : c.writeCompare value = .error .outOfBounds := rfl

theorem writeRegister_eq_outOfBounds_iff (c : EeCoreCop0) (r : BitVec 5) (value : Uword) :
    c.writeRegister r value = .error .outOfBounds ↔ r = 11 := by
  have hr : r = 11 ↔ r.toNat = 11 := BitVec.toNat_eq
  rw [hr]
  unfold EeCoreCop0.writeRegister
  split
  case h_10 h => simp [h, writeCompare_eq]
  case h_11 h =>
    have hne : ¬r.toNat = 11 := by omega
    simp only [hne, iff_false]
    intro hthrow
    rcases bind_eq_error_iff.mp hthrow with hthrow | ⟨status, -, hthrow⟩
    · exact EeCoreCop0Status.writeUword_ne_outOfBounds _ _ hthrow
    · cases hthrow
  all_goals simp_all

/-- The system control instructions that do not index an array. -/
theorem setEie_ne_outOfBounds (value : Uword) (s : EeCore σ) : s.setEie value ≠ .error .outOfBounds := by
  intro h
  unfold setEie at h
  split_ifs at h
  rcases bind_eq_error_iff.mp h with h | ⟨status, -, h⟩
  · exact EeCoreCop0Status.writeUword_ne_outOfBounds _ _ h
  · cases h

end EeCore

namespace PcrCore

variable {σ : Type}

theorem finish_eq_outOfBounds_iff (s : PcrCore σ) (r : Except HostError (Result σ Unit)) :
    s.finish r = .error .outOfBounds ↔ r = .error .outOfBounds := by
  unfold finish
  rw [bind_eq_error_iff]
  constructor
  · rintro (h | ⟨q, -, h⟩)
    · exact h
    · rcases bind_eq_error_iff.mp h with h | ⟨t, -, h⟩
      · exact absurd h (EeCore.handled_ne_outOfBounds q)
      · cases h
  · exact .inl

/-- A system control instruction indexes an array outside its bounds exactly if COP0 is usable and the index the guest
chose is not one of the array. -/
theorem system_eq_outOfBounds_iff (op : SystemOp) (s : PcrCore σ) :
    (Op.system op).step s = .error .outOfBounds ↔
      EeCore.isUsable s.core.cop0 .cop0 ∧ ¬(Op.system op).Indexes s := by
  rw [Op.step, finish_eq_outOfBounds_iff]
  cases op with
  | mfc0 rt rd =>
    simp only [SystemOp.run, EeCore.mfc0, EeCore.whenCop0Usable_eq_error_iff, Op.Indexes]
    simp
  | mtc0 rt rd =>
    simp only [SystemOp.run, EeCore.mtc0, EeCore.whenCop0Usable_eq_error_iff, Op.Indexes, bind_eq_error_iff,
      EeCore.writeRegister_eq_outOfBounds_iff]
    simp
  | tlbr =>
    simp only [SystemOp.run, EeCore.tlbr, EeCore.whenCop0Usable_eq_error_iff, Op.Indexes, bind_eq_error_iff,
      EeCore.tlbEntryAt_eq_outOfBounds_iff]
    simp
  | tlbwi =>
    simp only [SystemOp.run, EeCore.tlbwi, EeCore.whenCop0Usable_eq_error_iff, Op.Indexes,
      EeCore.writeTlbEntry_eq_outOfBounds_iff]
    simp
  | tlbwr =>
    simp only [SystemOp.run, EeCore.tlbwr, EeCore.whenCop0Usable_eq_error_iff, Op.Indexes,
      EeCore.writeTlbEntry_eq_outOfBounds_iff]
    simp
  | tlbp =>
    simp only [SystemOp.run, EeCore.tlbp, EeCore.whenCop0Usable_eq_error_iff, Op.Indexes]
    cases EeCore.probe s.core.cop0 s.core.tlb <;> simp
  | eret =>
    simp only [SystemOp.run, Op.Indexes, not_true, and_false, iff_false]
    intro h
    rcases bind_eq_error_iff.mp h with h | ⟨status, -, h⟩
    · exact EeCoreCop0Status.writeUword_ne_outOfBounds _ _ h
    · cases h
  | ei =>
    simp only [Op.Indexes, not_true, and_false, iff_false]
    exact EeCore.setEie_ne_outOfBounds 1 s.core
  | di =>
    simp only [Op.Indexes, not_true, and_false, iff_false]
    exact EeCore.setEie_ne_outOfBounds 0 s.core

theorem mfpc_eq_outOfBounds_iff (inst : EeCoreInstruction) (s : PcrCore σ) :
    s.mfpc inst = .error .outOfBounds ↔ EeCore.isUsable s.core.cop0 .cop0 ∧ ¬pcrIndex inst < 2 := by
  rw [mfpc, finish_eq_outOfBounds_iff, EeCore.whenCop0Usable_eq_error_iff]
  split_ifs with h <;> simp [h]

theorem mtpc_eq_outOfBounds_iff (inst : EeCoreInstruction) (s : PcrCore σ) :
    s.mtpc inst = .error .outOfBounds ↔ EeCore.isUsable s.core.cop0 .cop0 ∧ ¬pcrIndex inst < 2 := by
  rcases EeCore.handleCopUsable_cases .cop0 s.core with ⟨hu, h⟩ | ⟨hu, core, h, -⟩
  · simp only [mtpc, h, hu, true_and]
    split_ifs with hlt <;> simp [hlt]
  · simp only [mtpc, h, hu, finish_eq_outOfBounds_iff]
    simp

/-- The timer and the controllers use lines that exist. -/
theorem updateLine_ne_outOfBounds {line : ℕ} (hline : line < 8) (pending : Bool) (s : PcrCore σ) :
    s.updateLine line pending ≠ .error .outOfBounds := by
  simp only [updateLine, EeCoreCop0Cause.setIrqLine, EeCoreCop0Cause.clearIrqLine, dif_pos hline]
  cases pending <;> simp

theorem countUpdate_ne_outOfBounds (cpi : Uword) (s : PcrCore σ) :
    (Op.countUpdate cpi).step s ≠ .error .outOfBounds := by
  have hstep := TimerOp.step_countUpdate cpi s.core.cop0
  simp only [TimerOp.step] at hstep
  simp [Op.step, hstep]

/-- One operation. -/
theorem inBounds_iff (op : Op σ) (s : PcrCore σ) : op.InBounds s ↔ op.Sound s := by
  have hiff : op.step s = .error .outOfBounds ↔ EeCore.isUsable s.core.cop0 .cop0 ∧ ¬op.Indexes s := by
    cases op with
    | system op => exact system_eq_outOfBounds_iff op s
    | mfpc inst => exact mfpc_eq_outOfBounds_iff inst s
    | mtpc inst => exact mtpc_eq_outOfBounds_iff inst s
    | countUpdate cpi => simpa [Op.Indexes] using countUpdate_ne_outOfBounds cpi s
    | intc pending => simpa [Op.Indexes, Op.step] using updateLine_ne_outOfBounds (by decide) pending s
    | dmac pending => simpa [Op.Indexes, Op.step] using updateLine_ne_outOfBounds (by decide) pending s
    | translate id va rwAccess =>
      simp only [Op.step, Op.Indexes, not_true, and_false, iff_false, bind_eq_error_iff]
      rintro (h | ⟨p, -, h⟩)
      · exact EeCore.handled_ne_outOfBounds _ h
      · cases h
    | other f _ => simp [Op.step, Op.Indexes]
  rw [Op.InBounds, Op.Sound, Ne, hiff, not_and, not_not]

/-! ### What the guest has to choose -/

/-- The guest writes only indices of the arrays, to `Index`, `Random` and in `MFPC` and `MTPC`, and never `Compare`. -/
def Op.Chooses : Op σ → PcrCore σ → Prop
  | system (.mtc0 rt rd), s =>
    rd ≠ 11 ∧ (rd = 0 ∨ rd = 1 → (s.core.data.readUword rt).toNat % 64 < 48)
  | mfpc inst, _ => inst.funct < 2
  | mtpc inst, _ => inst.funct < 2
  | _, _ => True

/-- `Index` and `Random` name entries of the TLB. -/
structure IndicesInRange (c : EeCoreCop0) : Prop where
  /-- `Index`. -/
  index : (EeCoreCop0.indexField.extractFrom c.index).toNat < 48
  /-- `Random`. -/
  random : (EeCoreCop0.randomField.extractFrom c.random).toNat < 48

theorem IndicesInRange.keeps {c c' : EeCoreCop0} (h : IndicesInRange c) (hk : c'.KeepsIndices c) : IndicesInRange c' :=
  ⟨hk.index ▸ h.index, hk.random ▸ h.random⟩

theorem keeps_of_handleException {e : EeCoreException} {s s' : EeCore σ} (h : s.handleException e = .ok s') :
    s'.cop0.KeepsIndices s.cop0 := by
  obtain ⟨status, -, ⟨-, rfl⟩ | ⟨-, -, rfl⟩ | ⟨-, -, status', -, rfl⟩⟩ := EeCore.handleException_cases h
  · exact ⟨rfl, rfl⟩
  · exact ⟨rfl, rfl⟩
  · exact ⟨rfl, rfl⟩

theorem inRange_of_handled {α : Type} {r : Result σ α} {v : Option α} {t : EeCore σ} (h : r.handled = .ok (v, t))
    (hr : IndicesInRange r.state.cop0) : IndicesInRange t.cop0 := by
  cases r with
  | value a s =>
    obtain ⟨-, rfl⟩ := Prod.mk.inj (Except.ok.inj h)
    exact hr
  | exception e s =>
    obtain ⟨s', hs', h⟩ := bind_eq_ok_iff.mp h
    obtain ⟨-, rfl⟩ := Prod.mk.inj (Except.ok.inj h)
    exact hr.keeps (keeps_of_handleException hs')

theorem inRange_of_finish {s s' : PcrCore σ} {r : Except HostError (Result σ Unit)} (h : s.finish r = .ok s')
    (hr : ∀ q, r = .ok q → IndicesInRange q.state.cop0) : IndicesInRange s'.core.cop0 := by
  obtain ⟨q, hq, h⟩ := bind_eq_ok_iff.mp h
  obtain ⟨⟨v, t⟩, ht, h⟩ := bind_eq_ok_iff.mp h
  obtain rfl := Except.ok.inj h
  exact inRange_of_handled ht (hr q hq)

theorem inRange_of_whenCop0Usable {s : EeCore σ} {k : EeCore σ → Except HostError (EeCore σ)} {q : Result σ Unit}
    (h : s.whenCop0Usable k = .ok q) (hs : IndicesInRange s.cop0) (hk : ∀ t, k s = .ok t → IndicesInRange t.cop0) :
    IndicesInRange q.state.cop0 := by
  unfold EeCore.whenCop0Usable EeCore.handleCopUsable at h
  split_ifs at h
  · obtain ⟨t, ht, h⟩ := bind_eq_ok_iff.mp h
    obtain rfl := Except.ok.inj h
    exact hk t ht
  · obtain rfl := Except.ok.inj h
    exact hs.keeps ⟨rfl, rfl⟩

/-- What `MTC0` does to the two registers. -/
theorem inRange_of_writeRegister {c c' : EeCoreCop0} {r : BitVec 5} {value : Uword}
    (h : c.writeRegister r value = .ok c') (hc : IndicesInRange c) (hv : r = 0 ∨ r = 1 → value.toNat % 64 < 48) :
    IndicesInRange c' := by
  have hfield (value : Uword) : (EeCoreCop0.indexField.extractFrom value).toNat = value.toNat % 64 := by
    rw [Bitfield.toNat_extractFrom]
    exact congrArg (· % 64) (Nat.div_one _)
  have hzero : r = 0 ↔ r.toNat = 0 := BitVec.toNat_eq
  have hone : r = 1 ↔ r.toNat = 1 := BitVec.toNat_eq
  rw [hzero, hone] at hv
  unfold EeCoreCop0.writeRegister at h
  split at h
  case h_1 heq =>
    obtain rfl := Except.ok.inj h
    exact ⟨(hfield value).trans_lt (hv (.inl heq)), hc.random⟩
  case h_2 heq =>
    obtain rfl := Except.ok.inj h
    exact ⟨hc.index, (hfield value).trans_lt (hv (.inr heq))⟩
  case h_10 => cases h
  case h_11 =>
    obtain ⟨status, -, h⟩ := bind_eq_ok_iff.mp h
    obtain rfl := Except.ok.inj h
    exact hc.keeps ⟨rfl, rfl⟩
  all_goals
    obtain rfl := Except.ok.inj h
    exact hc.keeps ⟨rfl, rfl⟩

/-- What `TLBP` finds is an entry, or leaves 0. -/
theorem toNat_probe_lt {c : EeCoreCop0} {tlb : EeCoreTlb} {value : Uword} (h : EeCore.probe c tlb = some value) :
    value.toNat % 64 < 48 := by
  unfold EeCore.probe at h
  split at h
  · obtain rfl := Option.some.inj h
    decide
  · split_ifs at h
    rename_i i _ _
    obtain rfl := Option.some.inj h
    have hi := i.isLt
    rw [BitVec.toNat_ofNat]
    omega

theorem toNat_insertInto_indexField (v value : Uword) :
    (EeCoreCop0.indexField.extractFrom (EeCoreCop0.indexField.insertInto v value)).toNat = value.toNat % 64 := by
  rw [Bitfield.extractFrom_insertInto_self _ _ _ (by decide), BitVec.toNat_and]
  exact Nat.and_two_pow_sub_one_eq_mod value.toNat 6

theorem inRange_of_system {op : SystemOp} {s : PcrCore σ} {q : Result σ Unit} (h : op.run s.core = .ok q)
    (hs : IndicesInRange s.core.cop0) (hc : (Op.system op).Chooses s) : IndicesInRange q.state.cop0 := by
  have heie (value : Uword) (h : s.core.setEie value = .ok q) : IndicesInRange q.state.cop0 := by
    unfold EeCore.setEie at h
    split_ifs at h
    · obtain ⟨status, -, h⟩ := bind_eq_ok_iff.mp h
      obtain rfl := Except.ok.inj h
      exact hs.keeps ⟨rfl, rfl⟩
    · obtain rfl := Except.ok.inj h
      exact hs
  have hwrite {index : Uword} {t : EeCore σ} (h : s.core.writeTlbEntry index = .ok t) : IndicesInRange t.cop0 := by
    obtain ⟨entry, -, h⟩ := bind_eq_ok_iff.mp h
    obtain ⟨tlb, -, h⟩ := bind_eq_ok_iff.mp h
    obtain rfl := Except.ok.inj h
    exact hs
  cases op with
  | mfc0 rt rd =>
    refine inRange_of_whenCop0Usable h hs fun t ht => ?_
    obtain rfl := Except.ok.inj ht
    refine hs.keeps ?_
    show (s.core.cop0.readRegister rd).2.KeepsIndices s.core.cop0
    unfold EeCoreCop0.readRegister
    split <;> exact ⟨rfl, rfl⟩
  | mtc0 rt rd =>
    refine inRange_of_whenCop0Usable h hs fun t ht => ?_
    obtain ⟨cop0, hcop0, ht⟩ := bind_eq_ok_iff.mp ht
    obtain rfl := Except.ok.inj ht
    exact inRange_of_writeRegister hcop0 hs hc.2
  | tlbr =>
    refine inRange_of_whenCop0Usable h hs fun t ht => ?_
    obtain ⟨entry, -, ht⟩ := bind_eq_ok_iff.mp ht
    obtain rfl := Except.ok.inj ht
    exact hs.keeps ⟨rfl, rfl⟩
  | tlbwi => exact inRange_of_whenCop0Usable h hs fun t ht => hwrite ht
  | tlbwr => exact inRange_of_whenCop0Usable h hs fun t ht => hwrite ht
  | tlbp =>
    refine inRange_of_whenCop0Usable h hs fun t ht => ?_
    cases hp : EeCore.probe s.core.cop0 s.core.tlb with
    | none =>
      rw [hp] at ht
      obtain rfl := Except.ok.inj ht
      exact hs
    | some value =>
      rw [hp] at ht
      obtain rfl := Except.ok.inj ht
      exact ⟨(toNat_insertInto_indexField _ _).trans_lt (toNat_probe_lt hp), hs.random⟩
  | eret =>
    obtain ⟨status, -, h⟩ := bind_eq_ok_iff.mp h
    obtain rfl := Except.ok.inj h
    exact hs.keeps ⟨rfl, rfl⟩
  | ei => exact heie 1 h
  | di => exact heie 0 h

theorem inRange_of_lookup {s : EeCore σ} (id : MmuIdAccess) (va : Uptr) (rwAccess : MmuRwAccess)
    (hs : IndicesInRange s.cop0) : IndicesInRange (s.lookup id va rwAccess).state.cop0 := by
  rcases EeCore.lookup_cases s id va rwAccess with ⟨pa, cache, h⟩ | ⟨e, -, h⟩
  · rw [h, Result.state, EeCore.setTranslationCache_cop0]
    exact hs
  · rw [h]
    -- A fault sets `Random` to `generate_new_tlb_index()`.
    exact ⟨hs.index, (toNat_insertInto_indexField _ _).trans_lt (by decide)⟩

theorem keeps_of_updateLine {line : ℕ} {pending : Bool} {s s' : PcrCore σ} (h : s.updateLine line pending = .ok s') :
    s'.core.cop0.KeepsIndices s.core.cop0 := by
  cases pending with
  | true =>
    obtain ⟨cause, -, h⟩ := bind_eq_ok_iff.mp (show s.core.cop0.cause.setIrqLine line >>= _ = _ from h)
    obtain rfl := Except.ok.inj h
    exact ⟨rfl, rfl⟩
  | false =>
    obtain ⟨cause, -, h⟩ := bind_eq_ok_iff.mp (show s.core.cop0.cause.clearIrqLine line >>= _ = _ from h)
    obtain rfl := Except.ok.inj h
    exact ⟨rfl, rfl⟩

/-- One operation keeps the indices in range, if the guest chooses them so. -/
theorem inRange_of_step {op : Op σ} {s s' : PcrCore σ} (hs : IndicesInRange s.core.cop0) (hc : op.Chooses s)
    (h : op.step s = .ok s') : IndicesInRange s'.core.cop0 := by
  cases op with
  | system op => exact inRange_of_finish h fun q hq => inRange_of_system hq hs hc
  | mfpc inst =>
    refine inRange_of_finish h fun q hq => inRange_of_whenCop0Usable hq hs fun t ht => ?_
    split_ifs at ht
    obtain rfl := Except.ok.inj ht
    exact hs
  | mtpc inst =>
    simp only [Op.step, mtpc] at h
    rcases EeCore.handleCopUsable_cases .cop0 s.core with ⟨-, hu⟩ | ⟨-, core, hu, -⟩
    · rw [hu] at h
      simp only at h
      split_ifs at h
      obtain rfl := Except.ok.inj h
      exact hs
    · have hcore : core.cop0.KeepsIndices s.core.cop0 := by
        unfold EeCore.handleCopUsable at hu
        split_ifs at hu
        obtain ⟨-, rfl⟩ := Result.exception.inj hu
        exact ⟨rfl, rfl⟩
      rw [hu] at h
      refine inRange_of_finish h fun q hq => ?_
      obtain rfl := Except.ok.inj hq
      exact hs.keeps hcore
  | countUpdate cpi =>
    obtain ⟨cop0, hcop0, h⟩ := bind_eq_ok_iff.mp h
    obtain rfl := Except.ok.inj h
    have hstep := TimerOp.step_countUpdate cpi s.core.cop0
    simp only [TimerOp.step] at hstep
    obtain rfl := Except.ok.inj (hstep.symm.trans hcop0)
    exact hs.keeps ⟨rfl, rfl⟩
  | intc pending => exact hs.keeps (keeps_of_updateLine h)
  | dmac pending => exact hs.keeps (keeps_of_updateLine h)
  | translate id va rwAccess =>
    obtain ⟨⟨v, t⟩, ht, h⟩ := bind_eq_ok_iff.mp h
    obtain rfl := Except.ok.inj h
    exact inRange_of_handled ht (inRange_of_lookup id va rwAccess hs)
  | other f keeps =>
    obtain rfl := Except.ok.inj h
    exact hs.keeps (keeps s)

theorem sound_of_chooses {op : Op σ} {s : PcrCore σ} (hs : IndicesInRange s.core.cop0) (hc : op.Chooses s) :
    op.Sound s := by
  intro _
  have hpcr {inst : EeCoreInstruction} (h : inst.funct < 2) : pcrIndex inst < 2 :=
    Nat.lt_of_le_of_lt Nat.and_le_left h
  cases op with
  | system op =>
    cases op with
    | tlbr => exact hs.index
    | tlbwi => exact fun _ => hs.index
    | tlbwr => exact fun _ => hs.random
    | mtc0 rt rd => exact hc.1
    | _ => trivial
  | mfpc inst => exact hpcr hc
  | mtpc inst => exact hpcr hc
  | _ => trivial

/-- In every run, from whatever state: no operation indexes the TLB, the performance counters or the lines of `Cause`
outside their bounds if and only if, wherever COP0 is usable, `TLBR` and `TLBWI` find `Index` below 48 and `TLBWR` finds
`Random` below 48 (the writes with a valid page mask only), `MFPC` and `MTPC` have bits 1 to 5 of the instruction clear, and
`Compare` is not written. From a state with both fields below 48 it is enough that the guest writes only such values to
`Index` and `Random`: nothing else moves them out of range. -/
theorem host_indices_iff (ops : List (Op σ)) (s : PcrCore σ) :
    (Run.Always Op.step Op.InBounds ops s ↔ Run.Always Op.step Op.Sound ops s) ∧
      (IndicesInRange s.core.cop0 → Run.Always Op.step Op.Chooses ops s → Run.Always Op.step Op.InBounds ops s) := by
  have hiff : Run.Always Op.step Op.InBounds ops s ↔ Run.Always Op.step Op.Sound ops s :=
    Run.always_congr inBounds_iff ops s
  refine ⟨hiff, fun hs hc => hiff.mpr ?_⟩
  exact hc.invariant (I := fun s => IndicesInRange s.core.cop0) (fun _ _ _ hs hc h => inRange_of_step hs hc h)
    (fun _ _ hs hc => sound_of_chooses hs hc) hs

/-- The core after a reset, with 48 in register 8 and 40 in register 9. -/
def afterReset : PcrCore Unit where
  core :=
    { pc := 0xBFC00000
      bdelay := ⟨0, 0⟩
      data := ⟨fun r => if r = 8 then 48 else if r = 9 then 40 else 0, ()⟩
      cop0 := .initial
      tlb := fun _ => EeCore.firstPages
      translationCacheData := .new ..
      translationCacheInst := .new .. }
  pcrRegisters := fun _ => 0

/-- `MTC0` of 48 to `Index`, and `TLBR`. -/
theorem host_indices_out_of_bounds :
    ¬∀ (ops : List (Op Unit)) (s : PcrCore Unit), Run.Always Op.step Op.InBounds ops s := by
  intro h
  exact (h [.system (.mtc0 8 0), .system .tlbr] afterReset).2 _ rfl |>.1 rfl

/-- `MTC0` of 40 to `Index`, and `TLBR`. -/
theorem host_indices_iff_after_reset :
    Run.Always Op.step Op.InBounds [.system (.mtc0 9 0), .system .tlbr] afterReset := by
  refine (host_indices_iff _ afterReset).2 ⟨by decide, by decide⟩ ⟨⟨by decide, fun _ => by decide⟩, fun t _ => ?_⟩
  exact ⟨trivial, fun _ _ => trivial⟩

end PcrCore

end Orbum
