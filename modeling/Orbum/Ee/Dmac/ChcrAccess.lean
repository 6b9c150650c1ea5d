import Orbum.Common.ChcrClass
import Orbum.Ee.Dmac.StallScope

/-!
# Narrow accesses to the CHCR of the EE DMAC

A store of a byte or a halfword to a CHCR does not go through `write_uword`, where a start resets the flags, the
direction of SIF0 and SIF1 is set and SBUS_F240 is updated.
-/

namespace Orbum

namespace EeDmacChcr

/-- The class of the CHCR of channel `id`. -/
def chcrClass (id : Fin 10) : ChcrClass :=
  if id = 5 then ⟨some false, none, some (5, 13)⟩
  else if id = 6 then ⟨some true, some 14, none⟩
  else if id = 7 then ⟨none, some 15, some (7, 15)⟩
  else .base

theorem wf_chcrClass (id : Fin 10) : (chcrClass id).Wf := by
  unfold chcrClass
  split_ifs
  · exact ⟨fun n h => by simp at h, fun a b h => by simp at h; omega⟩
  · exact ⟨fun n h => by simp at h; omega, fun a b h => by simp at h⟩
  · exact ⟨fun n h => by simp at h; omega, fun a b h => by simp at h; omega⟩
  · exact ⟨fun n h => by simp [ChcrClass.base] at h, fun a b h => by simp [ChcrClass.base] at h⟩

variable {c : EeDmacChcr}

/-- The flags and the tag are those of a transfer that has not begun. -/
structure Cleared (c : EeDmacChcr) : Prop where
  /-- `dma_started`. -/
  dmaStarted : c.dmaStarted = false
  /-- `tag_exit`. -/
  tagExit : c.tagExit = false
  /-- `tag_stall`. -/
  tagStall : c.tagStall = false
  /-- `tag_irq`. -/
  tagIrq : c.tagIrq = false
  /-- `dma_tag`. -/
  dmaTag : c.dmaTag = .blank

/-- A write of `value` changes STR from 0 to 1. -/
def Starts (c : EeDmacChcr) (value : Uword) : Prop := str.extractFrom c.w = 0 ∧ str.extractFrom value ≠ 0

/-- A write only writes the register just if there is nothing for a start to clear. -/
theorem writeUword_eq_iff (c : EeDmacChcr) (value value' : Uword) :
    { c with w := value } = c.writeUword value' ↔ value' = value ∧ (c.Starts value → c.Cleared) := by
  unfold writeUword
  split_ifs with h
  · constructor
    · intro heq
      obtain ⟨hw, h1, h2, h3, h4, h5⟩ := EeDmacChcr.mk.inj heq
      exact ⟨hw.symm, fun _ => ⟨h1, h2, h3, h4, h5⟩⟩
    · rintro ⟨rfl, hcleared⟩
      obtain ⟨h1, h2, h3, h4, h5⟩ := hcleared h
      rw [h1, h2, h3, h4, h5]
  · constructor
    · intro heq
      obtain rfl : value = value' := (EeDmacChcr.mk.inj heq).1
      exact ⟨rfl, fun hstarts => absurd hstarts h⟩
    · rintro ⟨rfl, -⟩
      rfl

end EeDmacChcr

namespace EeDmacTurn

open EeDmacChcr

variable (t : EeDmacTurn)

/-- `SizedWordRegister::write_ubyte` and `write_uhword`: the storage of CHCR, written so that it holds `value`. -/
def storeChcr (value : Uword) : EeDmacTurn := { t with chcr := { t.chcr with w := value } }

/-- A write of the bus to CHCR. -/
def busWriteChcr (a : BusAccess) : EeDmacTurn := a.busWrite t.storeChcr t.writeChcr t.chcr.w

/-- CHCR written with `value`, and the update of SBUS_F240 a class makes then. -/
def writeClass (cls : ChcrClass) (value : Uword) : EeDmacTurn :=
  { t with
    chcr := t.chcr.writeUword value
    sbusF240 := cls.sbusUpdate t.sbusF240 (str.extractFrom value ≠ 0) (value.getLsbD 0) }

theorem direction_writeUword (value : Uword) :
    (t.chcr.writeUword value).direction = if value.getLsbD 0 then .TO else .FROM := by
  rw [direction, dir, w_writeUword]
  exact Bitfield.ite_extractFrom_bit value 0 _ _

/-- A write of a word is that of the class of the channel, the direction being set. -/
theorem writeChcr_eq_class (value : Uword) :
    t.writeChcr value = t.writeClass (chcrClass t.channelId) ((chcrClass t.channelId).force value) := by
  have hpos (v : Uword) : 0 < str.extractFrom v ↔ ¬str.extractFrom v = 0 := by bv_omega
  unfold writeChcr chcrClass
  split_ifs
  · unfold writeChcrSif0
    show _ = t.writeClass _ (value &&& ~~~1)
    generalize value &&& ~~~1 = v
    simp only [direction_writeUword, w_writeUword, writeClass, ChcrClass.sbusUpdate]
    split_ifs with h <;> simp_all <;> rfl
  · unfold writeChcrSif1
    show _ = t.writeClass _ (value ||| 1)
    generalize value ||| 1 = v
    simp only [direction_writeUword, w_writeUword, writeClass, ChcrClass.sbusUpdate, hpos]
    split_ifs with h <;> simp_all <;> rfl
  · unfold writeChcrSif2
    show _ = t.writeClass _ value
    simp only [direction_writeUword, w_writeUword, writeClass, ChcrClass.sbusUpdate, hpos]
    split_ifs with h <;> simp_all <;> rfl
  · show _ = t.writeClass _ value
    simp only [writeClass, ChcrClass.sbusUpdate]
    split_ifs <;> rfl

/-- A write of `value` has no effect but on the register. -/
structure PlainWrite (value : Uword) : Prop where
  /-- The class of the channel has nothing to do. -/
  plain : (chcrClass t.channelId).Plain value t.sbusF240 (str.extractFrom value ≠ 0)
  /-- A start has nothing to clear. -/
  cleared : t.chcr.Starts value → t.chcr.Cleared

theorem plainWrite_iff (value : Uword) : t.PlainWrite value ↔
    ((chcrClass t.channelId).force value = value ∧
        (chcrClass t.channelId).sbusUpdate t.sbusF240 (str.extractFrom value ≠ 0) (value.getLsbD 0) = t.sbusF240) ∧
      (t.chcr.Starts value → t.chcr.Cleared) := by
  rw [← ChcrClass.plain_iff (wf_chcrClass t.channelId)]
  exact ⟨fun h => ⟨h.plain, h.cleared⟩, fun h => ⟨h.1, h.2⟩⟩

/-- The storage of the register can be written in place of the word just where the word has no other effect. -/
theorem storeChcr_eq_iff (value : Uword) : t.storeChcr value = t.writeChcr value ↔ t.PlainWrite value := by
  rw [writeChcr_eq_class, plainWrite_iff]
  generalize chcrClass t.channelId = cls
  have hfields (v : Uword) : t.storeChcr value = t.writeClass cls v ↔
      { t.chcr with w := value } = t.chcr.writeUword v ∧
        t.sbusF240 = cls.sbusUpdate t.sbusF240 (str.extractFrom v ≠ 0) (v.getLsbD 0) := by
    constructor
    · intro h
      exact ⟨congrArg (fun t => t.chcr) h, congrArg (fun t => t.sbusF240) h⟩
    · rintro ⟨hchcr, hsbus⟩
      unfold storeChcr writeClass
      rw [hchcr, ← hsbus]
  rw [hfields, writeUword_eq_iff]
  constructor
  · rintro ⟨⟨hforce, hcleared⟩, hsbus⟩
    rw [hforce] at hsbus
    exact ⟨⟨hforce, hsbus.symm⟩, hcleared⟩
  · rintro ⟨⟨hforce, hsbus⟩, hcleared⟩
    rw [hforce]
    exact ⟨⟨rfl, hcleared⟩, hsbus.symm⟩

/-- The width of a write does not matter just if it is that of a word, or the word would have no other effect. -/
theorem busWriteChcr_eq_iff (a : BusAccess) : t.busWriteChcr a = t.writeChcr (a.merge t.chcr.w) ↔
    (a.narrow = true → t.PlainWrite (a.merge t.chcr.w)) := by
  rw [busWriteChcr, BusAccess.busWrite_eq_iff, storeChcr_eq_iff]

end EeDmacTurn

end Orbum
