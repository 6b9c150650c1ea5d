import Orbum.Ee.Dmac.Chain

/-!
# The EE DMAC

`CEeDmac.cpp`: in one tick every started channel gets one turn, in which it moves a qword, reads a tag or
ends its transfer. What `transfer_normal` and `transfer_chain` return is not used by `time_step` and is left
out.
-/

namespace Orbum

namespace EeDmacCtrl

/-- `DMAE`. -/
def dmae : Bitfield := ⟨0, 1⟩
/-- `STS`. -/
def sts : Bitfield := ⟨4, 2⟩
/-- `STD`. -/
def std : Bitfield := ⟨6, 2⟩

/-- `EeDmacConstants::STS_MAP`. -/
def stsMap (sts : ℕ) : ℕ := [0, 5, 8, 3].getD sts 0

/-- `EeDmacConstants::STD_MAP`. -/
def stdMap (std : ℕ) : ℕ := [0, 1, 2, 6].getD std 0

end EeDmacCtrl

namespace EeDmacStat

/-- `CHANNEL_CIS_KEYS[id]`. -/
def cis (id : Fin 10) : Bitfield := ⟨id, 1⟩
/-- `SIS`. -/
def sis : Bitfield := ⟨13, 1⟩
/-- `BEIS`. -/
def beis : Bitfield := ⟨15, 1⟩

/-- `is_interrupt_pending()`. -/
def isInterruptPending (stat : Uword) : Bool :=
  (stat &&& 0xFFFF) &&& ((stat &&& 0xFFFF0000) >>> 16) ≠ 0 ∨ 0 < beis.extractFrom stat

end EeDmacStat

open LittleEndian

/-- `read_qword_memory(address, spr_access)`. -/
def readQwordMemory (m : Memory) (address : Uptr) (sprAccess : Bool) : Except HostError Uqword :=
  if sprAccess then m.readUqword (0x70000000 + address) else m.readUqword address

/-- `write_qword_memory(address, spr_access, data)`. -/
def writeQwordMemory (m : Memory) (address : Uptr) (sprAccess : Bool) (data : Uqword) : Except HostError Memory :=
  if sprAccess then m.writeUqword (0x70000000 + address) data else m.writeUqword address data

section QwordMemory

variable {m m' : Memory} {address : Uptr} {spr : Bool} {q : Uqword}

/-- A quadword that was written is there. -/
theorem readQwordMemory_of_write (h : writeQwordMemory m address spr q = .ok m') :
    readQwordMemory m' address spr = .ok q := by
  cases spr with
  | false => exact Memory.readUqword_of_writeUqword h
  | true => exact Memory.readUqword_of_writeUqword h

theorem exists_readQwordMemory (h : m.isMapped (if spr then 0x70000000 + address else address) 16 = true) :
    ∃ q, readQwordMemory m address spr = .ok q := by
  have hread {a : Uptr} (ha : m.isMapped a 16 = true) : ∃ q, m.readUqword a = .ok q :=
    ⟨_, bind_eq_ok_iff.mpr ⟨_, if_pos ha, rfl⟩⟩
  cases spr with
  | false => exact hread h
  | true => exact hread h

theorem exists_writeQwordMemory (h : m.isMapped (if spr then 0x70000000 + address else address) 16 = true)
    (q : Uqword) : ∃ m', writeQwordMemory m address spr q = .ok m' := by
  have hwrite {a : Uptr} (ha : m.isMapped a 16 = true) : ∃ m', m.writeUqword a q = .ok m' :=
    ⟨_, if_pos (by rw [length_bytes]; exact ha)⟩
  cases spr with
  | false => exact hwrite h
  | true => exact hwrite h

end QwordMemory

namespace EeDmacTurn

open EeDmacAddr EeDmacChcr EeDmacCtrl

variable (t : EeDmacTurn)

/-! ### Moving data -/

/-- The address MADR names, without the cache mode bits and aligned to qwords. -/
def transferAddress : Uptr := addr.extractFrom t.madr &&& 0x1FFFFFF0

/-- Whether MADR names the scratchpad. -/
def transferSpr : Bool := 0 < spr.extractFrom t.madr

/-- `MADR += 16`, `QWC -= 1`. -/
def advance : EeDmacTurn := { t with madr := t.madr + 0x10, qwc := t.qwc - 1 }

/-- A quadword moved to the FIFO, which leaves `queue`. -/
def sent (queue : DmaFifoQueue) : EeDmacTurn := { t.advance with dmaFifoQueue := some queue }

/-- The part of `transfer_data` for the channels between memory and scratchpad. -/
def transferDataSpr : Except HostError (ℕ × EeDmacTurn) := do
  let sadr ← deref t.sadr
  let sprAddress := sadr &&& 0x3FF0
  let memory ← match t.chcr.direction with
    | .FROM => do writeQwordMemory t.memory t.transferAddress false (← readQwordMemory t.memory sprAddress true)
    | .TO => do writeQwordMemory t.memory sprAddress true (← readQwordMemory t.memory t.transferAddress false)
  return (1, { t.advance with memory, sadr := some (sadr + 0x10) })

/-- The part of `transfer_data` for the channels with a FIFO. -/
def transferDataFifo : Except HostError (ℕ × EeDmacTurn) := do
  let queue ← deref t.dmaFifoQueue
  match t.chcr.direction with
  | .FROM =>
    if !queue.hasReadAvailable 16 then return (0, t)
    else
      let (packet, queue) ← queue.read 16
      let memory ← writeQwordMemory t.memory t.transferAddress t.transferSpr (ofBytes 128 packet)
      return (1, { t.advance with memory, dmaFifoQueue := some queue })
  | .TO =>
    if !queue.hasWriteAvailable 16 then return (0, t)
    else
      let packet ← readQwordMemory t.memory t.transferAddress t.transferSpr
      return (1, t.sent (← queue.write (bytes 16 packet)))

/-- `transfer_data(channel)`: the number of qwords moved. -/
def transferData : Except HostError (ℕ × EeDmacTurn) :=
  if t.channelId = 8 ∨ t.channelId = 9 then t.transferDataSpr else t.transferDataFifo

/-! ### Stall control -/

/-- `is_source_stall_control_on(channel)`. -/
def isSourceStallControlOn : Bool :=
  t.chcr.direction = .FROM ∧ t.channelId.val = stsMap (sts.extractFrom t.ctrl).toNat

/-- `is_drain_stall_control_on(channel)`: `STD = 0` selects channel 0, though it stands for no channel. -/
def isDrainStallControlOn : Bool :=
  t.chcr.direction = .TO ∧ t.channelId.val = stdMap (std.extractFrom t.ctrl).toNat

/-- `is_drain_stall_control_waiting(channel)`. -/
def isDrainStallControlWaiting : Bool :=
  t.chcr.direction = .TO ∧ t.stadr < addr.extractFrom t.madr + 8

/-- `set_dmac_stall_control_stadr(channel)`. -/
def setDmacStallControlStadr : EeDmacTurn := { t with stadr := addr.extractFrom t.madr }

/-- `set_dmac_stall_control_sis()`. -/
def setDmacStallControlSis : EeDmacTurn := { t with stat := EeDmacStat.sis.insertInto t.stat 1 }

/-! ### The end of a transfer -/

/-- `set_state_suspended(channel)`. -/
def setStateSuspended : EeDmacTurn :=
  insertChcr { t with stat := (EeDmacStat.cis t.channelId).insertInto t.stat 1 } str 0

/-- `set_state_suspended(channel)`, once the peripheral has taken all data. -/
def suspendWhenEmpty : Except HostError EeDmacTurn := do
  if t.chcr.direction = .TO ∧ t.channelId ≠ 9 then
    let queue ← deref t.dmaFifoQueue
    if !queue.isEmpty then return t else return t.setStateSuspended
  else return t.setStateSuspended

/-! ### Normal mode -/

/-- `transfer_normal(channel)`. -/
def transferNormal : Except HostError EeDmacTurn :=
  if !t.chcr.dmaStarted then
    if t.qwc = 0 then .error (.runtimeError "EE DMAC failed transfer not implemented.")
    else .ok { t with chcr := { t.chcr with dmaStarted := true } }
  else if t.qwc = 0 then t.suspendWhenEmpty
  else if t.isDrainStallControlOn ∧ t.isDrainStallControlWaiting then .ok t.setDmacStallControlSis
  else do
    let (count, t) ← t.transferData
    if count = 0 then return t
    else if t.isSourceStallControlOn then return t.setDmacStallControlStadr
    else return t

/-! ### Chain mode -/

/-- `read_chain_source_tag(channel)`: whether a tag was read. -/
def readChainSourceTag : Except HostError (Bool × EeDmacTurn) := do
  let tadr ← deref t.tadr
  let tag ← readQwordMemory t.memory (addr.extractFrom tadr) (0 < spr.extractFrom tadr)
  let dmaTag : EeDmatag := ⟨tag.uw 0, tag.uw 1⟩
  if tte.extractFrom t.chcr.w ≠ 0 then
    let queue ← deref t.dmaFifoQueue
    if !queue.hasWriteAvailable 16 then return (false, t)
    else
      let queue ← queue.write (bytes 16 (Uqword.ofWords (tag.uw 2) (tag.uw 3) 0 0))
      return (true, { t with dmaFifoQueue := some queue, chcr := { t.chcr with dmaTag } })
  else return (true, { t with chcr := { t.chcr with dmaTag } })

/-- `read_chain_dest_tag(channel)`: whether a tag was read. -/
def readChainDestTag : Except HostError (Bool × EeDmacTurn) := do
  let queue ← deref t.dmaFifoQueue
  if !queue.hasReadAvailable 16 then return (false, t)
  else
    let (packet, queue) ← queue.read 16
    let tag : Uqword := ofBytes 128 packet
    if 0 < tte.extractFrom t.chcr.w then
      .error (.runtimeError "EE DMAC dest chain mode TTE set but not implemented.")
    else
      return (true, { t with dmaFifoQueue := some queue, chcr := { t.chcr with dmaTag := ⟨tag.uw 0, tag.uw 1⟩ } })

/-- The branch of `transfer_chain` that moves data. -/
def chainData : Except HostError EeDmacTurn :=
  if t.isDrainStallControlOn ∧ t.isDrainStallControlWaiting ∧ t.chcr.tagStall then .ok t.setDmacStallControlSis
  else do
    let (count, t) ← t.transferData
    if count = 0 then return t
    else if t.isSourceStallControlOn ∧ t.chcr.tagStall then return t.setDmacStallControlStadr
    else return t

/-- What `transfer_chain` notes of a tag after its handler. -/
def noteTag : EeDmacTurn :=
  insertChcr { t with chcr := { t.chcr with tagIrq := t.chcr.dmaTag.irq } } EeDmacChcr.tag t.chcr.dmaTag.tag

/-- The branch of `transfer_chain` that reads a tag. -/
def chainTag : Except HostError EeDmacTurn :=
  match t.chcr.direction with
  | .TO => do
    let (read, t) ← t.readChainSourceTag
    if !read then return t else return (← t.srcChainInstruction).noteTag
  | .FROM => do
    let (read, t) ← t.readChainDestTag
    if !read then return t else return (← t.dstChainInstruction).noteTag

/-- Whether the last tag ends the transfer. -/
def chainExit : Bool := (0 < tie.extractFrom t.chcr.w ∧ t.chcr.tagIrq) ∨ t.chcr.tagExit

/-- `transfer_chain(channel)`. -/
def transferChain : Except HostError EeDmacTurn :=
  if !t.chcr.dmaStarted then .ok { t with chcr := { t.chcr with dmaStarted := true } }
  else if 0 < t.qwc then t.chainData
  else if t.chainExit then t.suspendWhenEmpty
  else t.chainTag

/-- The body of the loop of `time_step`. -/
def channelTurn : Except HostError EeDmacTurn :=
  if str.extractFrom t.chcr.w ≠ 0 then
    match (mod.extractFrom t.chcr.w).toNat with
    | 0 => t.transferNormal
    | 1 => t.transferChain
    | 2 => .error (.runtimeError "EE DMAC interleave mode not fully implemented (fix me up).")
    | _ => .error (.runtimeError "Could not determine EE DMAC channel logical mode.")
  else .ok t

end EeDmacTurn

/-! ### The controller -/

/-- `REeDmac`, with the interrupt lines of the EE core. -/
structure EeDmac extends EeDmacShared where
  /-- `channels`. -/
  channels : Fin 10 → EeDmacChannel
  /-- `Cause` of the EE core. -/
  cause : EeCoreCop0Cause

namespace EeDmac

variable (d : EeDmac)

/-- A channel as its turn finds it. -/
def turn (i : Fin 10) : EeDmacTurn := { toEeDmacShared := d.toEeDmacShared, toEeDmacChannel := d.channels i }

/-- What a turn leaves. -/
def setTurn (i : Fin 10) (t : EeDmacTurn) : EeDmac :=
  { d with toEeDmacShared := t.toEeDmacShared, channels := Function.update d.channels i t.toEeDmacChannel }

/-- `handle_interrupt_check()`. -/
def handleInterruptCheck : Except HostError EeDmac :=
  if EeDmacStat.isInterruptPending d.stat then do return { d with cause := ← d.cause.setIrqLine 3 }
  else do return { d with cause := ← d.cause.clearIrqLine 3 }

/-- One round of the loop of `time_step`. -/
def giveTurn (i : Fin 10) : Except HostError EeDmac := do return d.setTurn i (← (d.turn i).channelTurn)

/-- `time_step(ticks_available)`. -/
def timeStep : Except HostError EeDmac :=
  if EeDmacCtrl.dmae.extractFrom d.ctrl = 0 then .ok d
  else do (← (List.finRange 10).foldlM giveTurn d).handleInterruptCheck

end EeDmac

end Orbum
