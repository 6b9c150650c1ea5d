import Orbum.Common.ChcrClass
import Orbum.Iop.Dmac.Registers

/-!
# Narrow accesses to the CHCR of the IOP DMAC

The classes of `IopDmacChannelRegisters.cpp`, with SBUS_F240. As on the EE, a store of a byte or a halfword does not go
through `write_uword`; nor does it through `byte_bus_write_uword` of SIF1, which forces chain mode.
-/

namespace Orbum

/-- A CHCR of the IOP and SBUS_F240. -/
structure IopChcrPort where
  /-- The register. -/
  chcr : IopDmacChcr
  /-- `sbus_f240`. -/
  sbusF240 : Uword
  deriving DecidableEq

namespace IopChcrPort

open IopDmacChcr

variable (p : IopChcrPort)

/-- `IopDmacChannelRegister_Chcr::write_uword(value)`. -/
def writeChcr (value : Uword) : IopChcrPort := { p with chcr := p.chcr.writeUword value }

/-- `IopDmacChannelRegister_Chcr_To::write_uword(value)`. -/
def writeChcrTo (value : Uword) : IopChcrPort := p.writeChcr (value ||| 1)

/-- `IopDmacChannelRegister_Chcr_From::write_uword(value)`. -/
def writeChcrFrom (value : Uword) : IopChcrPort := p.writeChcr (value &&& ~~~1)

/-- `handle_sbus_update_start()`. -/
def sbusUpdateStart (bits : Uword) : IopChcrPort := { p with sbusF240 := p.sbusF240 ||| bits }

/-- `handle_sbus_update_finish()`. -/
def sbusUpdateFinish (bits : Uword) : IopChcrPort := { p with sbusF240 := p.sbusF240 &&& ~~~bits }

/-- `IopDmacChannelRegister_Chcr_Sif0::write_uword(value)`. -/
def writeChcrSif0 (value : Uword) : IopChcrPort :=
  let p := p.writeChcrTo value
  if 0 < start.extractFrom p.chcr.w ∧ p.chcr.direction = .TO then p.sbusUpdateStart 0x2000 else p

/-- `IopDmacChannelRegister_Chcr_Sif1::write_uword(value)`. -/
def writeChcrSif1 (value : Uword) : IopChcrPort :=
  let p := p.writeChcrFrom value
  if start.extractFrom p.chcr.w = 0 ∧ p.chcr.direction = .FROM then (p.sbusUpdateFinish 0x40).sbusUpdateFinish 0x4000
  else p

/-- `IopDmacChannelRegister_Chcr_Sif2::write_uword(value)`. -/
def writeChcrSif2 (value : Uword) : IopChcrPort :=
  let p := p.writeChcr value
  if 0 < start.extractFrom p.chcr.w ∧ p.chcr.direction = .TO then p.sbusUpdateStart 0x8000
  else if start.extractFrom p.chcr.w = 0 ∧ p.chcr.direction = .FROM then
    (p.sbusUpdateFinish 0x80).sbusUpdateFinish 0x8000
  else p

/-- `chcr->write_uword(value)`, of the class the register of channel `k` has. -/
def writeUword (k : Fin 13) (value : Uword) : IopChcrPort :=
  if k = 2 then p.writeChcrSif2 value
  else if k = 9 then p.writeChcrSif0 value
  else if k = 10 then p.writeChcrSif1 value
  else p.writeChcr value

/-- `byte_bus_write_uword(context, offset, value)`: that of SIF1 forces chain mode. -/
def busWriteUword (k : Fin 13) (context : BusContext) (value : Uword) : IopChcrPort :=
  if k = 10 ∧ context = .iop then p.writeUword k (value ||| 1 <<< 10) else p.writeUword k value

/-- `write_ubyte` and `write_uhword` of the storage, written so that it holds `value`. -/
def store (value : Uword) : IopChcrPort := { p with chcr := { p.chcr with w := value } }

/-- A write of the bus. -/
def busWrite (k : Fin 13) (context : BusContext) (a : BusAccess) : IopChcrPort :=
  a.busWrite p.store (p.busWriteUword k context) p.chcr.w

/-! ### Classes -/

/-- The class of the CHCR of channel `k`. -/
def chcrClass (k : Fin 13) : ChcrClass :=
  if k = 2 then ⟨none, some 15, some (7, 15)⟩
  else if k = 9 then ⟨some true, some 13, none⟩
  else if k = 10 then ⟨some false, none, some (6, 14)⟩
  else .base

theorem wf_chcrClass (k : Fin 13) : (chcrClass k).Wf := by
  unfold chcrClass
  split_ifs
  · exact ⟨fun n h => by simp at h; omega, fun a b h => by simp at h; omega⟩
  · exact ⟨fun n h => by simp at h; omega, fun a b h => by simp at h⟩
  · exact ⟨fun n h => by simp at h, fun a b h => by simp at h; omega⟩
  · exact ⟨fun n h => by simp [ChcrClass.base] at h, fun a b h => by simp [ChcrClass.base] at h⟩

/-- The register written with `value`, and the update of SBUS_F240 a class makes then. -/
def writeClass (cls : ChcrClass) (value : Uword) : IopChcrPort where
  chcr := p.chcr.writeUword value
  sbusF240 := cls.sbusUpdate p.sbusF240 (start.extractFrom value ≠ 0) (value.getLsbD 0)

theorem w_writeUword (c : IopDmacChcr) (value : Uword) : (c.writeUword value).w = value := by
  unfold IopDmacChcr.writeUword
  split_ifs <;> rfl

theorem direction_writeUword (c : IopDmacChcr) (value : Uword) :
    (c.writeUword value).direction = if value.getLsbD 0 then .TO else .FROM := by
  rw [direction, directionOf, td, w_writeUword]
  exact Bitfield.ite_extractFrom_bit value 0 _ _

theorem pos_start_iff (v : Uword) : 0 < start.extractFrom v ↔ ¬start.extractFrom v = 0 := by bv_omega

theorem sbusUpdateStart_eq_class (d : Option Bool) (n : ℕ) (v : Uword) :
    (let p := p.writeChcr v
      if 0 < start.extractFrom p.chcr.w ∧ p.chcr.direction = .TO then p.sbusUpdateStart (BitVec.twoPow 32 n) else p) =
      p.writeClass ⟨d, some n, none⟩ v := by
  simp only [writeChcr, direction_writeUword, w_writeUword, writeClass, ChcrClass.sbusUpdate, pos_start_iff]
  split_ifs with h <;> simp_all <;> rfl

theorem sbusUpdateFinish_eq_class (d : Option Bool) (a b : ℕ) (v : Uword) :
    (let p := p.writeChcr v
      if start.extractFrom p.chcr.w = 0 ∧ p.chcr.direction = .FROM then
        (p.sbusUpdateFinish (BitVec.twoPow 32 a)).sbusUpdateFinish (BitVec.twoPow 32 b)
      else p) =
      p.writeClass ⟨d, none, some (a, b)⟩ v := by
  simp only [writeChcr, direction_writeUword, w_writeUword, writeClass, ChcrClass.sbusUpdate]
  split_ifs with h <;> simp_all <;> rfl

/-- A write of a word is that of the class of the channel, the direction being set. -/
theorem writeUword_eq_class (k : Fin 13) (value : Uword) :
    p.writeUword k value = p.writeClass (chcrClass k) ((chcrClass k).force value) := by
  unfold writeUword chcrClass
  split_ifs
  · unfold writeChcrSif2
    show _ = p.writeClass _ value
    simp only [writeChcr, direction_writeUword, w_writeUword, writeClass, ChcrClass.sbusUpdate, pos_start_iff]
    split_ifs with h <;> simp_all <;> rfl
  · exact p.sbusUpdateStart_eq_class (some true) 13 (value ||| 1)
  · exact p.sbusUpdateFinish_eq_class (some false) 6 14 (value &&& ~~~1)
  · show _ = p.writeClass _ value
    simp only [writeChcr, writeClass, ChcrClass.sbusUpdate]
    split_ifs <;> rfl

/-- The register is that of `IopDmac.writeChcr`. -/
theorem chcr_writeUword (s : IopDmac) (k : Fin 13) (f240 value : Uword) :
    (writeUword ⟨(s.channels k).chcr, f240⟩ k value).chcr = ((s.writeChcr k value).channels k).chcr := by
  have hforce : (chcrClass k).force value = forced k value := by
    unfold chcrClass forced
    split_ifs <;> first | rfl | simp_all
  rw [writeUword_eq_class, hforce, IopDmac.writeChcr, IopDmac.setChannel_channels, Function.update_self]
  rfl

/-! ### Widths -/

/-- The flag and the tag are those of a transfer that has not begun. -/
structure Cleared (c : IopDmacChcr) : Prop where
  /-- `dma_started`. -/
  dmaStarted : c.dmaStarted = false
  /-- `dma_tag`. -/
  dmaTag : c.dmaTag = .blank

/-- A write of `value` changes START from 0 to 1. -/
def Starts (c : IopDmacChcr) (value : Uword) : Prop := start.extractFrom c.w = 0 ∧ start.extractFrom value ≠ 0

/-- A write only writes the register just if there is nothing for a start to clear. -/
theorem writeUword_eq_iff (c : IopDmacChcr) (value value' : Uword) :
    { c with w := value } = c.writeUword value' ↔ value' = value ∧ (Starts c value → Cleared c) := by
  unfold IopDmacChcr.writeUword
  split_ifs with h
  · constructor
    · intro heq
      obtain ⟨hw, h1, h2⟩ := IopDmacChcr.mk.inj heq
      exact ⟨hw.symm, fun _ => ⟨h1, h2⟩⟩
    · rintro ⟨rfl, hcleared⟩
      obtain ⟨h1, h2⟩ := hcleared h
      rw [h1, h2]
  · constructor
    · intro heq
      obtain rfl : value = value' := (IopDmacChcr.mk.inj heq).1
      exact ⟨rfl, fun hstarts => absurd hstarts h⟩
    · rintro ⟨rfl, -⟩
      rfl

/-- A write of `value` to channel `k` has no effect but on the register. -/
structure PlainWrite (k : Fin 13) (context : BusContext) (value : Uword) : Prop where
  /-- The class of the channel has nothing to do. -/
  plain : (chcrClass k).Plain value p.sbusF240 (start.extractFrom value ≠ 0)
  /-- A start has nothing to clear. -/
  cleared : Starts p.chcr value → Cleared p.chcr
  /-- Chain mode is set already where it is forced. -/
  chain : k = 10 → context = .iop → value.getLsbD 10 = true

/-- The value that a word is written with. -/
def chained (k : Fin 13) (context : BusContext) (value : Uword) : Uword :=
  if k = 10 ∧ context = .iop then value ||| BitVec.twoPow 32 10 else value

theorem busWriteUword_eq (k : Fin 13) (context : BusContext) (value : Uword) :
    p.busWriteUword k context value = p.writeUword k (chained k context value) := by
  unfold busWriteUword chained
  split_ifs <;> rfl

/-- Direction and mode are right just if both are left alone. -/
theorem force_chained_eq_iff (cls : ChcrClass) (k : Fin 13) (context : BusContext) (value : Uword) :
    cls.force (chained k context value) = value ↔
      cls.force value = value ∧ (k = 10 → context = .iop → value.getLsbD 10 = true) := by
  unfold chained
  split_ifs with h
  · constructor
    · intro hforce
      have hbit : value.getLsbD 10 = true := by
        rw [← hforce, ChcrClass.getLsbD_force (by decide), BitVec.getLsbD_or, BitVec.getLsbD_twoPow]
        simp
      rw [(or_twoPow_eq_self_iff (by decide) value).mpr hbit] at hforce
      exact ⟨hforce, fun _ _ => hbit⟩
    · rintro ⟨hforce, hbit⟩
      rw [(or_twoPow_eq_self_iff (by decide) value).mpr (hbit h.1 h.2), hforce]
  · exact ⟨fun hforce => ⟨hforce, fun hk hc => absurd ⟨hk, hc⟩ h⟩, And.left⟩

theorem plainWrite_iff (k : Fin 13) (context : BusContext) (value : Uword) : p.PlainWrite k context value ↔
    ((chcrClass k).force (chained k context value) = value ∧ (Starts p.chcr value → Cleared p.chcr)) ∧
      (chcrClass k).sbusUpdate p.sbusF240 (start.extractFrom value ≠ 0) (value.getLsbD 0) = p.sbusF240 := by
  have hplain := ChcrClass.plain_iff (wf_chcrClass k) value p.sbusF240 (start.extractFrom value ≠ 0)
  rw [force_chained_eq_iff]
  constructor
  · intro h
    obtain ⟨hforce, hsbus⟩ := hplain.mp h.plain
    exact ⟨⟨⟨hforce, h.chain⟩, h.cleared⟩, hsbus⟩
  · rintro ⟨⟨⟨hforce, hchain⟩, hcleared⟩, hsbus⟩
    exact ⟨hplain.mpr ⟨hforce, hsbus⟩, hcleared, hchain⟩

/-- The storage of the register can be written in place of the word just where the word has no other effect. -/
theorem store_eq_iff (k : Fin 13) (context : BusContext) (value : Uword) :
    p.store value = p.busWriteUword k context value ↔ p.PlainWrite k context value := by
  rw [busWriteUword_eq, writeUword_eq_class, plainWrite_iff, ← writeUword_eq_iff]
  generalize (chcrClass k).force (chained k context value) = v
  constructor
  · intro h
    have hchcr : { p.chcr with w := value } = p.chcr.writeUword v := congrArg chcr h
    have hsbus := congrArg sbusF240 h
    obtain rfl := ((writeUword_eq_iff _ _ _).mp hchcr).1
    exact ⟨hchcr, hsbus.symm⟩
  · rintro ⟨hchcr, hsbus⟩
    obtain rfl := ((writeUword_eq_iff _ _ _).mp hchcr).1
    unfold store writeClass
    rw [hchcr, hsbus]

/-- The width of a write does not matter just if it is that of a word, or the word would have no other effect. -/
theorem busWrite_eq_iff (k : Fin 13) (context : BusContext) (a : BusAccess) :
    p.busWrite k context a = p.busWriteUword k context (a.merge p.chcr.w) ↔
      (a.narrow = true → p.PlainWrite k context (a.merge p.chcr.w)) := by
  rw [busWrite, BusAccess.busWrite_eq_iff, store_eq_iff]

end IopChcrPort

end Orbum
