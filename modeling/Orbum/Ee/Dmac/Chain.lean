import Orbum.Ee.Dmac.Registers

/-!
# Tag handlers of the EE DMAC

`CEeDmac_CHAIN.cpp`. What several handlers begin with is `followTag` (the data follows the tag) or
`referTag` (the tag says where the data is).
-/

namespace Orbum.EeDmacTurn

open EeDmacAddr

variable (t : EeDmacTurn)

/-- QWC from the tag, MADR the qword after TADR. -/
def followTag (tadr : Uword) : EeDmacTurn :=
  { t with
    qwc := t.chcr.dmaTag.qwc
    madr := spr.insertInto (addr.insertInto t.madr (addr.extractFrom tadr + 0x10)) (spr.extractFrom tadr) }

/-- QWC and MADR from the tag. -/
def referTag : EeDmacTurn :=
  { t with
    qwc := t.chcr.dmaTag.qwc
    madr := spr.insertInto (addr.insertInto t.madr t.chcr.dmaTag.addr) t.chcr.dmaTag.spr }

/-- TADR from the tag. -/
def jumpTag (tadr : Uword) : Uword := spr.insertInto (addr.insertInto tadr t.chcr.dmaTag.addr) t.chcr.dmaTag.spr

/-- `tag_exit = true`. -/
def setTagExit : EeDmacTurn := { t with chcr := { t.chcr with tagExit := true } }

/-- `tag_stall = true`. -/
def setTagStall : EeDmacTurn := { t with chcr := { t.chcr with tagStall := true } }

/-- `CHAIN_TAGID_UNKNOWN`. -/
def chainTagidUnknown : Except HostError EeDmacTurn :=
  .error (.runtimeError "EE DMAC chain mode called invalid tag ID")

/-! ### Source chains -/

/-- `CHAIN_SRC_CNT`. -/
def chainSrcCnt : Except HostError EeDmacTurn := do
  let tadr ← deref t.tadr
  let nextTagAddr := addr.extractFrom tadr + (t.chcr.dmaTag.qwc + 1) * 0x10
  return { t.followTag tadr with tadr := some (addr.insertInto tadr nextTagAddr) }

/-- `CHAIN_SRC_NEXT`. -/
def chainSrcNext : Except HostError EeDmacTurn := do
  let tadr ← deref t.tadr
  return { t.followTag tadr with tadr := some (t.jumpTag tadr) }

/-- `CHAIN_SRC_REF`. -/
def chainSrcRef : Except HostError EeDmacTurn := do
  let tadr ← deref t.tadr
  return { t.referTag with tadr := some (tadr + 0x10) }

/-- `CHAIN_SRC_REFS`. -/
def chainSrcRefs : Except HostError EeDmacTurn := t.setTagStall.chainSrcRef

/-- `CHAIN_SRC_REFE`. -/
def chainSrcRefe : Except HostError EeDmacTurn := do return (← t.chainSrcRef).setTagExit

/-- `CHAIN_SRC_CALL`: by the time the stack is pushed, TADR holds the target of the call. -/
def chainSrcCall : Except HostError EeDmacTurn := do
  let tadr ← deref t.tadr
  let t := t.followTag tadr
  let tadr := t.jumpTag tadr
  let t := { t with tadr := some tadr }
  let asp := EeDmacChcr.asp.extractFrom t.chcr.w
  if 2 ≤ asp then return t.setTagExit
  else
    let asr ← deref t.asr
    if h : asp.toNat < 2 then
      let pushed := spr.insertInto (addr.insertInto (asr.get ⟨asp.toNat, h⟩) (addr.extractFrom tadr + 0x10))
        (spr.extractFrom tadr)
      let t := { t with asr := some (asr.set asp.toNat pushed h) }
      return t.insertChcr EeDmacChcr.asp (asp + 1)
    else .error .outOfBounds

/-- `CHAIN_SRC_RET`: the stack is read at ASP itself, and the popped SPR bit goes into ADDR as well. -/
def chainSrcRet : Except HostError EeDmacTurn := do
  let asp := EeDmacChcr.asp.extractFrom t.chcr.w
  let t ←
    if asp = 0 then pure t.setTagExit
    else do
      let tadr ← deref t.tadr
      let asr ← deref t.asr
      if h : asp.toNat < 2 then
        let popped := asr.get ⟨asp.toNat, h⟩
        let tadr := addr.insertInto tadr (addr.extractFrom popped)
        let tadr := addr.insertInto tadr (spr.extractFrom popped)
        pure (insertChcr { t with tadr := some tadr } EeDmacChcr.asp (asp - 1))
      else .error .outOfBounds
  return t.followTag (← deref t.tadr)

/-- `CHAIN_SRC_END`. -/
def chainSrcEnd : Except HostError EeDmacTurn := do return (t.followTag (← deref t.tadr)).setTagExit

/-- `SRC_CHAIN_INSTRUCTION_TABLE`, called for the channel's tag. -/
def srcChainInstruction : Except HostError EeDmacTurn :=
  match t.chcr.dmaTag.id.toNat with
  | 0 => t.chainSrcRefe
  | 1 => t.chainSrcCnt
  | 2 => t.chainSrcNext
  | 3 => t.chainSrcRef
  | 4 => t.chainSrcRefs
  | 5 => t.chainSrcCall
  | 6 => t.chainSrcRet
  | _ => t.chainSrcEnd

/-! ### Destination chains -/

/-- `CHAIN_DST_CNT`. -/
def chainDstCnt : Except HostError EeDmacTurn := .ok t.referTag

/-- `CHAIN_DST_CNTS`. -/
def chainDstCnts : Except HostError EeDmacTurn := .ok t.setTagStall.referTag

/-- `CHAIN_DST_END`. -/
def chainDstEnd : Except HostError EeDmacTurn := .ok t.referTag.setTagExit

/-- `DST_CHAIN_INSTRUCTION_TABLE`, called for the channel's tag. -/
def dstChainInstruction : Except HostError EeDmacTurn :=
  match t.chcr.dmaTag.id.toNat with
  | 0 => t.chainDstCnts
  | 1 => t.chainDstCnt
  | 7 => t.chainDstEnd
  | _ => chainTagidUnknown

end Orbum.EeDmacTurn
