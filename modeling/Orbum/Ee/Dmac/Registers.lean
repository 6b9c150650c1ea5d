import Orbum.Common.Bitfield
import Orbum.Common.DmaFifoQueue
import Orbum.Common.Memory
import Orbum.Ee.Core.Cop0

/-!
# Registers of the EE DMAC

The channel registers of `EeDmacChannelRegisters.cpp`, the tags of `EeDmatag.hpp` and the channels of
`EeDmacChannels.hpp`.

## The model

A channel record holds pointers; one that no channel of that number sets is `none`, and `deref` fails
on it. `EeDmacTurn` is what one channel sees while it has its turn in `time_step`: the registers and the
memory all channels share, and its own.
-/

namespace Orbum

/-- A pointer dereferenced. -/
def deref {α : Type} : Option α → Except HostError α
  | none => .error .nullPointer
  | some a => .ok a

@[simp] theorem deref_some {α : Type} (a : α) : deref (some a) = .ok a := rfl

theorem deref_eq_ok_iff {α : Type} {o : Option α} {a : α} : deref o = .ok a ↔ o = some a := by
  cases o with
  | none => simp [deref]
  | some b => simp [deref]

/-! ### Tags -/

/-- `EeDmatag`. -/
structure EeDmatag where
  /-- Bits 0-31. -/
  tag0 : Uword
  /-- Bits 32-63. -/
  tag1 : Uword
  deriving DecidableEq, Repr

namespace EeDmatag

variable (t : EeDmatag)

/-- The blank tag. -/
def blank : EeDmatag := ⟨0, 0⟩

/-- `qwc()`. -/
def qwc : Uword := Bitfield.extractFrom ⟨0, 16⟩ t.tag0

/-- `tag()`. -/
def tag : Uword := Bitfield.extractFrom ⟨16, 16⟩ t.tag0

/-- `id()`. -/
def id : Uword := Bitfield.extractFrom ⟨28, 3⟩ t.tag0

/-- `irq()`. -/
def irq : Bool := 0 < Bitfield.extractFrom ⟨31, 1⟩ t.tag0

/-- `addr()`. -/
def addr : Uword := Bitfield.extractFrom ⟨0, 31⟩ t.tag1

/-- `spr()`, as the word it is inserted as. -/
def spr : Uword := Bitfield.extractFrom ⟨31, 1⟩ t.tag1

end EeDmatag

/-! ### Channel registers -/

namespace EeDmacAddr

/-- `EeDmacChannelRegister_Addr::ADDR`. -/
def addr : Bitfield := ⟨0, 31⟩
/-- `EeDmacChannelRegister_Addr::SPR`. -/
def spr : Bitfield := ⟨31, 1⟩

end EeDmacAddr

/-- `EeDmacChannelRegister_Chcr`. -/
structure EeDmacChcr where
  /-- The register. -/
  w : Uword
  /-- `dma_started`. -/
  dmaStarted : Bool
  /-- `tag_exit`. -/
  tagExit : Bool
  /-- `tag_stall`. -/
  tagStall : Bool
  /-- `tag_irq`. -/
  tagIrq : Bool
  /-- `dma_tag`. -/
  dmaTag : EeDmatag
  deriving DecidableEq, Repr

namespace EeDmacChcr

/-- `DIR`. -/
def dir : Bitfield := ⟨0, 1⟩
/-- `MOD`. -/
def mod : Bitfield := ⟨2, 2⟩
/-- `ASP`. -/
def asp : Bitfield := ⟨4, 2⟩
/-- `TTE`. -/
def tte : Bitfield := ⟨6, 1⟩
/-- `TIE`. -/
def tie : Bitfield := ⟨7, 1⟩
/-- `STR`. -/
def str : Bitfield := ⟨8, 1⟩
/-- `TAG`. -/
def tag : Bitfield := ⟨16, 16⟩

/-- `Direction`, relative to the FIFO. -/
inductive Direction where
  /-- From the FIFO to memory. -/
  | FROM
  /-- From memory to the FIFO. -/
  | TO
  deriving DecidableEq, Repr

/-- `get_direction()`. -/
def direction (c : EeDmacChcr) : Direction := if dir.extractFrom c.w = 0 then .FROM else .TO

/-- `EeDmacChannelRegister_Chcr::write_uword(value)`: a start clears what the last transfer left. -/
def writeUword (c : EeDmacChcr) (value : Uword) : EeDmacChcr :=
  if str.extractFrom c.w = 0 ∧ str.extractFrom value ≠ 0 then
    { w := value, dmaStarted := false, tagExit := false, tagStall := false, tagIrq := false, dmaTag := .blank }
  else { c with w := value }

end EeDmacChcr

/-! ### Channels -/

/-- The channels of the EE can be written as literals. -/
instance neZeroEeChannels : NeZero 10 := ⟨by decide⟩

/-- `EeDmacChannel`. -/
structure EeDmacChannel where
  /-- `channel_id`. -/
  channelId : Fin 10
  /-- `dma_fifo_queue`, null for the two scratchpad channels. -/
  dmaFifoQueue : Option DmaFifoQueue
  /-- `madr`. -/
  madr : Uword
  /-- `qwc`. -/
  qwc : Uword
  /-- `chcr`. -/
  chcr : EeDmacChcr
  /-- `tadr`, null for channels 3, 5, 7 and 8. -/
  tadr : Option Uword
  /-- `*asr`, null except for channels 0 to 2. -/
  asr : Option (Vector Uword 2)
  /-- `sadr`, null except for channels 8 and 9. -/
  sadr : Option Uword

/-- What the channels share. -/
structure EeDmacShared where
  /-- `D_CTRL`. -/
  ctrl : Uword
  /-- `D_STAT`. -/
  stat : Uword
  /-- `D_STADR`. -/
  stadr : Uword
  /-- `SBUS_F240`. -/
  sbusF240 : Uword
  /-- The memory behind the EE bus. -/
  memory : Memory

/-- A channel in its turn. -/
structure EeDmacTurn extends EeDmacShared, EeDmacChannel

namespace EeDmacTurn

variable (t : EeDmacTurn)

/-- `handle_sbus_update_start()` of SIF1 and SIF2. -/
def sbusUpdateStart (bits : Uword) : EeDmacTurn := { t with sbusF240 := t.sbusF240 ||| bits }

/-- `handle_sbus_update_finish()` of SIF0 and SIF2. -/
def sbusUpdateFinish (bits : Uword) : EeDmacTurn := { t with sbusF240 := t.sbusF240 &&& ~~~bits }

/-- `EeDmacChannelRegister_Chcr_Sif0::write_uword(value)`. -/
def writeChcrSif0 (value : Uword) : EeDmacTurn :=
  let chcr := t.chcr.writeUword (value &&& ~~~1)
  let t := { t with chcr }
  if EeDmacChcr.str.extractFrom chcr.w = 0 ∧ chcr.direction = .FROM then
    (t.sbusUpdateFinish 0x20).sbusUpdateFinish 0x2000
  else t

/-- `EeDmacChannelRegister_Chcr_Sif1::write_uword(value)`. -/
def writeChcrSif1 (value : Uword) : EeDmacTurn :=
  let chcr := t.chcr.writeUword (value ||| 1)
  let t := { t with chcr }
  if 0 < EeDmacChcr.str.extractFrom chcr.w ∧ chcr.direction = .TO then t.sbusUpdateStart 0x4000 else t

/-- `EeDmacChannelRegister_Chcr_Sif2::write_uword(value)`. -/
def writeChcrSif2 (value : Uword) : EeDmacTurn :=
  let chcr := t.chcr.writeUword value
  let t := { t with chcr }
  if 0 < EeDmacChcr.str.extractFrom chcr.w ∧ chcr.direction = .TO then t.sbusUpdateStart 0x8000
  else if EeDmacChcr.str.extractFrom chcr.w = 0 ∧ chcr.direction = .FROM then
    (t.sbusUpdateFinish 0x80).sbusUpdateFinish 0x8000
  else t

/-- `chcr->write_uword(value)`, of the class the channel's register has. -/
def writeChcr (value : Uword) : EeDmacTurn :=
  if t.channelId = 5 then t.writeChcrSif0 value
  else if t.channelId = 6 then t.writeChcrSif1 value
  else if t.channelId = 7 then t.writeChcrSif2 value
  else { t with chcr := t.chcr.writeUword value }

/-- `chcr->insert_field(field, value)`. -/
def insertChcr (field : Bitfield) (value : Uword) : EeDmacTurn := t.writeChcr (field.insertInto t.chcr.w value)

end EeDmacTurn

end Orbum
