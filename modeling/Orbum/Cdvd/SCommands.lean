import Orbum.Cdvd.Nvram
import Orbum.Cdvd.Rtc
import Orbum.Common.Bitfield
import Orbum.Common.DmaFifoQueue
import Orbum.Lib.LittleEndian

/-!
# S commands of the CDVD

`Controller/Cdvd/CCdvd.cpp` and `Controller/Cdvd/CCdvd_SCMD.cpp` with the registers and queues they work on. The IOP
writes the parameters of a command to `S_DATA_IN` and then the command, and the controller executes it at its next time
step: it takes the parameters and puts the result into `S_DATA_OUT`. Two bits of the ready register tell the IOP that a
command is pending and that there is no result to read.

All of the N commands throw.

## The model

`Cdvd` is the part of `RCdvd` that the S commands have to do with. A function that throws gives no state.
-/

namespace Orbum

/-- `CdvdRegister_Ns_Command`. -/
structure CdvdRegisterNsCommand where
  /-- The command. -/
  value : Ubyte
  /-- `write_latch`. -/
  writeLatch : Bool

/-- `RCdvd`. -/
structure Cdvd where
  /-- `n_command`. -/
  nCommand : CdvdRegisterNsCommand
  /-- `s_command`. -/
  sCommand : CdvdRegisterNsCommand
  /-- `s_rdy_din.ready`. -/
  ready : Ubyte
  /-- `s_rdy_din.data_in`. -/
  dataIn : DmaFifoQueue
  /-- `s_data_out`. -/
  dataOut : DmaFifoQueue
  /-- `nvram`. -/
  nvram : CdvdNvram
  /-- `rtc`. -/
  rtc : CdvdRtc

namespace Cdvd

/-- `READY_EMPTY`. -/
def readyEmpty : Bitfield := ⟨6, 1⟩

/-- `READY_BUSY`. -/
def readyBusy : Bitfield := ⟨7, 1⟩

/-- `RCdvd()`, the NVRAM and the clock being what they are. -/
def initial (nvram : CdvdNvram) (rtc : CdvdRtc) : Cdvd :=
  ⟨⟨0, false⟩, ⟨0, false⟩, 0x40, .empty, .empty, nvram, rtc⟩

variable (s : Cdvd)

/-- `s_rdy_din.read_ubyte()`. -/
def sRdyDinReadUbyte : Ubyte := s.ready

/-- `s_rdy_din.write_ubyte(value)`. -/
def sRdyDinWriteUbyte (value : Ubyte) : Except HostError Cdvd := do
  let dataIn ← s.dataIn.writeUbyte value
  return { s with dataIn }

/-- `s_command.byte_bus_write_ubyte(context, offset, value)`. -/
def sCommandWriteUbyte (value : Ubyte) : Cdvd :=
  { s with sCommand := ⟨value, true⟩, ready := readyBusy.insertInto s.ready 1 }

/-- `s_data_out.read_ubyte()`. -/
def sDataOutReadUbyte : Except HostError (Ubyte × Cdvd) := do
  let r ← s.dataOut.readUbyte
  return (r.1, { s with
    dataOut := r.2, ready := if r.2.isEmpty then readyEmpty.insertInto s.ready 1 else s.ready })

/-- `s_data_out.write_ubyte(data)`. -/
def sDataOutWriteUbyte (data : Ubyte) : Except HostError Cdvd := do
  let dataOut ← s.dataOut.writeUbyte data
  return { s with dataOut, ready := readyEmpty.insertInto s.ready 0 }

/-- `s_data_out.write(buffer, length)`, which is `write_ubyte` for every byte. -/
def sDataOutWrite (s : Cdvd) (buffer : List Ubyte) : Except HostError Cdvd := buffer.foldlM sDataOutWriteUbyte s

/-- The halfwords of a buffer that was filled byte by byte. -/
def hwordsOfBytes (bytes : List Ubyte) : List Uhword :=
  (List.range (bytes.length / 2)).map fun i => LittleEndian.ofBytes 16 ((bytes.drop (2 * i)).take 2)

/-- The bytes of a buffer of halfwords. -/
def bytesOfHwords (buffer : List Uhword) : List Ubyte := buffer.flatMap (LittleEndian.bytes 2)

/-! ### The commands -/

/-- `SCMD_INSTRUCTION_08()`. -/
def scmdInstruction08 : Except HostError Cdvd :=
  s.sDataOutWrite [0, s.rtc.second, s.rtc.minute, s.rtc.hour, 0, s.rtc.day, s.rtc.month, s.rtc.year]

/-- `SCMD_INSTRUCTION_15()`. -/
def scmdInstruction15 : Except HostError Cdvd := s.sDataOutWriteUbyte 0x5

/-- `SCMD_INSTRUCTION_40()`. -/
def scmdInstruction40 : Except HostError Cdvd := do
  let readWrite ← s.dataIn.readUbyte
  let area ← readWrite.2.readUbyte
  let maxBlocks ← area.2.readUbyte
  let nvram := s.nvram.setAccessParams readWrite.1.toNat area.1.toNat maxBlocks.1.toNat 0
  sDataOutWriteUbyte { s with dataIn := maxBlocks.2, nvram } 0

/-- `SCMD_INSTRUCTION_41()`. -/
def scmdInstruction41 : Except HostError Cdvd := do
  let buffer ← s.nvram.readConfigBlock.1
  sDataOutWrite { s with nvram := s.nvram.readConfigBlock.2 } (bytesOfHwords buffer)

/-- `SCMD_INSTRUCTION_42()`. -/
def scmdInstruction42 : Except HostError Cdvd := do
  let r ← s.dataIn.read 16
  let written := s.nvram.writeConfigBlock (hwordsOfBytes r.1)
  let _ ← written.1
  sDataOutWriteUbyte { s with dataIn := r.2, nvram := written.2 } 0

/-- `SCMD_INSTRUCTION_43()`. -/
def scmdInstruction43 : Except HostError Cdvd :=
  sDataOutWriteUbyte { s with nvram := s.nvram.setAccessParams 0 0 0 0 } 0

/-- `SCMD_INSTRUCTION_TABLE[index]()`. -/
def scmdInstruction (index : Ubyte) : Except HostError Cdvd :=
  if index = 0x08 then s.scmdInstruction08
  else if index = 0x15 then s.scmdInstruction15
  else if index = 0x40 then s.scmdInstruction40
  else if index = 0x41 then s.scmdInstruction41
  else if index = 0x42 then s.scmdInstruction42
  else if index = 0x43 then s.scmdInstruction43
  else .error (.runtimeError "CDVD S_CMD unknown instruction called")

/-- `time_step(ticks_available)`. -/
def timeStep : Except HostError Cdvd :=
  if s.nCommand.writeLatch then .error (.runtimeError "CDVD N_CMD unknown instruction called")
  else if s.sCommand.writeLatch then do
    let t ← s.scmdInstruction s.sCommand.value
    return { t with ready := readyBusy.insertInto t.ready 0, sCommand := ⟨t.sCommand.value, false⟩ }
  else .ok s

/-- `handle_rtc_increment(time_us)`. -/
def handleRtcIncrement (timeUs : ℚ≥0) : Cdvd := { s with rtc := s.rtc.increment timeUs }

/-! ### The bits of the ready register -/

/-- A bit of the ready register, as the IOP reads it. -/
def bit (f : Bitfield) : Bool := f.extractFrom s.sRdyDinReadUbyte = 1

variable {s}

theorem extractFrom_insertInto_bit {f : Bitfield} (hf : f.length = 1) (hw : f.start < 8) (v x : Ubyte) :
    f.extractFrom (f.insertInto v x) = x &&& 1 := by
  have hmask : f.unshiftedMask 8 = 1 := by
    unfold Bitfield.unshiftedMask
    rw [hf]
    rfl
  rw [Bitfield.extractFrom_insertInto_self f v x (by omega), hmask]

end Cdvd

/-! ### What the commands are for -/

/-- The implemented commands. -/
inductive SCommand where
  /-- `sceCdReadRTC`. -/
  | readRtc
  /-- `sceCdForbidDVDP`. -/
  | forbidDvdp
  /-- `sceCdOpenConfig`. -/
  | openConfig
  /-- `sceCdReadConfig`. -/
  | readConfig
  /-- `sceCdWriteConfig`. -/
  | writeConfig
  /-- `sceCdCloseConfig`. -/
  | closeConfig
  deriving DecidableEq

namespace SCommand

/-- What the IOP writes to `S_COMMAND`. -/
def code : SCommand → Ubyte
  | readRtc => 0x08
  | forbidDvdp => 0x15
  | openConfig => 0x40
  | readConfig => 0x41
  | writeConfig => 0x42
  | closeConfig => 0x43

/-- The commands. -/
def all : List SCommand := [readRtc, forbidDvdp, openConfig, readConfig, writeConfig, closeConfig]

theorem mem_all (c : SCommand) : c ∈ all := by cases c <;> decide

/-- How many parameter bytes a command has. -/
def paramCount : SCommand → ℕ
  | openConfig => 3
  | writeConfig => 16
  | _ => 0

/-- How many bytes its result has. -/
def resultCount : SCommand → ℕ
  | readRtc => 8
  | readConfig => 16
  | _ => 1

/-- A command on its parameters, with the clock and the NVRAM as they are: its result, and the NVRAM that it leaves. -/
inductive Performs (rtc : CdvdRtc) : SCommand → List Ubyte → CdvdNvram → List Ubyte → CdvdNvram → Prop
  /-- The date and time. -/
  | readRtc (n : CdvdNvram) :
      Performs rtc .readRtc [] n [0, rtc.second, rtc.minute, rtc.hour, 0, rtc.day, rtc.month, rtc.year] n
  /-- A constant. -/
  | forbidDvdp (n : CdvdNvram) : Performs rtc .forbidDvdp [] n [5] n
  /-- An area is opened. -/
  | openConfig (readWrite area maxBlocks : Ubyte) (n : CdvdNvram) :
      Performs rtc .openConfig [readWrite, area, maxBlocks] n [0]
        (n.setAccessParams readWrite.toNat area.toNat maxBlocks.toNat 0)
  /-- The next block of the area is read. -/
  | readConfig {n n' : CdvdNvram} {block : List Uhword} (h : n.readConfigBlock = (.ok block, n')) :
      Performs rtc .readConfig [] n (Cdvd.bytesOfHwords block) n'
  /-- It is written. -/
  | writeConfig {params : List Ubyte} {n n' : CdvdNvram} (hlen : params.length = 16)
      (h : n.writeConfigBlock (Cdvd.hwordsOfBytes params) = (.ok (), n')) : Performs rtc .writeConfig params n [0] n'
  /-- The area is closed. -/
  | closeConfig (n : CdvdNvram) : Performs rtc .closeConfig [] n [0] (n.setAccessParams 0 0 0 0)

end SCommand

end Orbum
