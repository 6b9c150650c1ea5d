import Orbum.Ee.Dmac.ChcrAccess
import Orbum.Iop.Dmac.ChcrAccess
import Orbum.Iop.Dmac.Delivery
import Orbum.Lib.Run

/-!
# The width of accesses to CHCR

Whether a store to the CHCR of a DMA channel has the effect of the word that leaves the untouched bytes as they were. A
narrow store writes the storage of the register alone, so it has where the word would do nothing else: no transfer is
started with flags to clear, the forced bits are right already, and so is SBUS_F240.

## The model

An operation is a write of the bus to the CHCR of a channel of either controller, or anything else.
-/

namespace Orbum

/-- Both DMA controllers, SBUS_F240 among the registers of the one of the EE. -/
structure DmaPair where
  /-- That of the EE. -/
  ee : EeDmac
  /-- That of the IOP. -/
  iop : IopDmac

namespace DmaPair

variable (s : DmaPair)

/-- A CHCR of the IOP with SBUS_F240. -/
def port (k : Fin 13) : IopChcrPort := ⟨(s.iop.channels k).chcr, s.ee.sbusF240⟩

/-- Writes both. -/
def setPort (k : Fin 13) (p : IopChcrPort) : DmaPair where
  ee := { s.ee with sbusF240 := p.sbusF240 }
  iop := s.iop.setChannel k { s.iop.channels k with chcr := p.chcr }

/-- A write to a CHCR, and anything else. -/
inductive Op where
  /-- A write of the bus to CHCR of channel `i` of the EE. -/
  | ee (i : Fin 10) (a : BusAccess)
  /-- A write of the bus to CHCR of channel `k` of the IOP. -/
  | iop (k : Fin 13) (context : BusContext) (a : BusAccess)
  /-- Any other step. -/
  | other (f : DmaPair → Except HostError DmaPair)

/-- One operation. -/
def Op.step : Op → DmaPair → Except HostError DmaPair
  | ee i a, s => .ok { s with ee := s.ee.setTurn i ((s.ee.turn i).busWriteChcr a) }
  | iop k context a, s => .ok (s.setPort k ((s.port k).busWrite k context a))
  | other f, s => f s

/-- The write of the word that leaves the untouched bytes as they were. -/
def Op.word : Op → DmaPair → Op
  | ee i a, s => ee i (.uword (a.merge (s.ee.channels i).chcr.w))
  | iop k context a, s => iop k context (.uword (a.merge (s.iop.channels k).chcr.w))
  | other f, _ => other f

/-- The operation has the effect of the word. -/
def Op.SameAsWord (op : Op) (s : DmaPair) : Prop := op.step s = (op.word s).step s

/-- A narrow write finds nothing that the word would do. -/
def Op.Harmless : Op → DmaPair → Prop
  | ee i a, s => a.narrow = true → (s.ee.turn i).PlainWrite (a.merge (s.ee.channels i).chcr.w)
  | iop k context a, s => a.narrow = true → (s.port k).PlainWrite k context (a.merge (s.iop.channels k).chcr.w)
  | other _, _ => True

theorem setTurn_eq_iff (d : EeDmac) (i : Fin 10) (t t' : EeDmacTurn) : d.setTurn i t = d.setTurn i t' ↔ t = t' := by
  constructor
  · intro h
    have hshared : t.toEeDmacShared = t'.toEeDmacShared := congrArg EeDmac.toEeDmacShared h
    have hchannel : t.toEeDmacChannel = t'.toEeDmacChannel := by
      rw [← d.channels_setTurn_self i t, h, d.channels_setTurn_self]
    obtain ⟨shared, channelId, queue, madr, qwc, chcr, tadr, asr, sadr⟩ := t
    obtain ⟨shared', channelId', queue', madr', qwc', chcr', tadr', asr', sadr'⟩ := t'
    obtain rfl : shared = shared' := hshared
    obtain ⟨rfl, rfl, rfl, rfl, rfl, rfl, rfl, rfl⟩ := EeDmacChannel.mk.inj hchannel
    rfl
  · rintro rfl
    rfl

theorem setPort_eq_iff (k : Fin 13) (p p' : IopChcrPort) : s.setPort k p = s.setPort k p' ↔ p = p' := by
  constructor
  · intro h
    have hf240 : p.sbusF240 = p'.sbusF240 := congrArg (fun s => s.ee.sbusF240) h
    have hchcr := congrArg (fun s => (s.iop.channels k).chcr) h
    simp only [setPort, IopDmac.setChannel_channels, Function.update_self] at hchcr
    obtain ⟨chcr, f240⟩ := p
    obtain ⟨chcr', f240'⟩ := p'
    obtain rfl : chcr = chcr' := hchcr
    obtain rfl : f240 = f240' := hf240
    rfl
  · rintro rfl
    rfl

/-- One operation. -/
theorem Op.sameAsWord_iff (op : Op) (s : DmaPair) : op.SameAsWord s ↔ op.Harmless s := by
  cases op with
  | ee i a =>
    have hstep : (ee i a).SameAsWord s ↔
        (s.ee.turn i).busWriteChcr a = (s.ee.turn i).writeChcr (a.merge (s.ee.channels i).chcr.w) := by
      rw [← setTurn_eq_iff s.ee i]
      constructor
      · intro h
        exact congrArg DmaPair.ee (Except.ok.inj h)
      · intro h
        show Except.ok { s with ee := s.ee.setTurn i ((s.ee.turn i).busWriteChcr a) } = _
        rw [h]
        rfl
    exact hstep.trans (EeDmacTurn.busWriteChcr_eq_iff _ a)
  | iop k context a =>
    have hstep : (iop k context a).SameAsWord s ↔
        (s.port k).busWrite k context a = (s.port k).busWriteUword k context (a.merge (s.iop.channels k).chcr.w) := by
      rw [← setPort_eq_iff s k]
      exact ⟨Except.ok.inj, congrArg Except.ok⟩
    exact hstep.trans (IopChcrPort.busWrite_eq_iff _ k context a)
  | other f => exact iff_of_true rfl trivial

/-- **In every run, every write to a CHCR has the effect of the word that leaves the untouched bytes as they were just if no
narrow write is made where the word would do more than to write the register.** -/
theorem access_width_iff (ops : List Op) (s : DmaPair) :
    Run.Always Op.step Op.SameAsWord ops s ↔ Run.Always Op.step Op.Harmless ops s :=
  Run.always_congr Op.sameAsWord_iff ops s

/-- Every channel has ended a transfer with its last tag. -/
def afterTransfers : DmaPair where
  ee :=
    { ctrl := 1
      stat := 0
      stadr := 0
      sbusF240 := 0
      memory := ⟨fun _ => false, fun _ => 0⟩
      channels := fun id => ⟨id, none, 0, 0, ⟨0, true, true, false, false, .blank⟩, none, none, none⟩
      cause := .initial }
  iop := { IopDmac.quiet with channels := fun _ => ⟨0, 0, 0, ⟨0, true, .blank⟩, 0⟩ }

/-- A write is not that of the word. -/
theorem not_always_of_not_harmless {op : Op} {s : DmaPair} (h : ¬op.Harmless s) :
    ¬Run.Always Op.step Op.SameAsWord [op] s := fun hrun => h ((op.sameAsWord_iff s).mp hrun.1)

/-- STR is set by a byte, which leaves the flags; the direction of SIF1 is cleared by one; START is set by one; and the mode
of SIF1 of the IOP is cleared by a halfword. -/
theorem not_always_sameAsWord :
    ¬Run.Always Op.step Op.SameAsWord [.ee 0 (.ubyte 1 1)] afterTransfers ∧
      ¬Run.Always Op.step Op.SameAsWord [.ee 6 (.ubyte 0 0)] afterTransfers ∧
      ¬Run.Always Op.step Op.SameAsWord [.iop 4 .iop (.ubyte 3 1)] afterTransfers ∧
      ¬Run.Always Op.step Op.SameAsWord [.iop 10 .iop (.uhword 0 0)] afterTransfers := by
  refine ⟨not_always_of_not_harmless fun h => ?_, not_always_of_not_harmless fun h => ?_,
    not_always_of_not_harmless fun h => ?_, not_always_of_not_harmless fun h => ?_⟩
  · exact absurd ((h rfl).cleared ⟨by decide, by decide⟩).tagExit (by decide)
  · exact absurd ((h rfl).plain.direction true rfl) (by decide)
  · exact absurd ((h rfl).cleared ⟨by decide, by decide⟩).dmaStarted (by decide)
  · exact absurd ((h rfl).chain rfl rfl) (by decide)

end DmaPair

end Orbum
