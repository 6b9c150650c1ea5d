import Orbum.Cdvd.NvramBlocks
import Orbum.Cdvd.SCommands

/-!
# The handshake of the S commands

The IOP and the controller take turns in any order. The IOP writes a command when the busy bit is clear and its parameters
are written, and it reads a byte when the empty bit is clear. Every command is then executed once, on the parameters
written for it, and what the IOP reads are the results one after the other.

`S_DATA_OUT` holds 1024 bytes. A result that does not fit makes the time step throw.
-/

namespace Orbum

namespace SCommand

variable {c : SCommand} {rtc : CdvdRtc} {params result : List Ubyte} {n n' : CdvdNvram}

theorem length_of_readConfigBlock {block : List Uhword} (h : n.readConfigBlock = (.ok block, n')) : block.length = 8 := by
  have hblock : n.readConfigBlock.1 = .ok block := congrArg Prod.fst h
  unfold CdvdNvram.readConfigBlock at hblock
  split_ifs at hblock
  · obtain rfl := Except.ok.inj hblock
    exact List.length_replicate
  · cases hoff : n.blockOffset with
    | none =>
      rw [hoff] at hblock
      cases hblock
    | some offset =>
      rw [hoff] at hblock
      obtain rfl := Except.ok.inj hblock
      rw [HwordMemory.read, List.length_map, List.length_range]

theorem length_bytesOfHwords (buffer : List Uhword) : (Cdvd.bytesOfHwords buffer).length = 2 * buffer.length := by
  induction buffer with
  | nil => rfl
  | cons v buffer ih =>
    have hcons : Cdvd.bytesOfHwords (v :: buffer) = LittleEndian.bytes 2 v ++ Cdvd.bytesOfHwords buffer :=
      List.flatMap_cons
    rw [hcons, List.length_append, LittleEndian.length_bytes, ih, List.length_cons]
    omega

theorem Performs.length_result (h : c.Performs rtc params n result n') : result.length = c.resultCount := by
  cases h with
  | readRtc => rfl
  | forbidDvdp => rfl
  | openConfig => rfl
  | readConfig h =>
    rw [length_bytesOfHwords, length_of_readConfigBlock h]
    rfl
  | writeConfig => rfl
  | closeConfig => rfl

/-- The command can be performed whatever the time. -/
def CanPerform (c : SCommand) (params : List Ubyte) (n : CdvdNvram) : Prop :=
  ∀ rtc, ∃ result n', c.Performs rtc params n result n'

theorem exists_ok_of_not_error {α : Type} {x : Except HostError α} (h : ¬∃ e, x = .error e) : ∃ a, x = .ok a := by
  cases x with
  | error e => exact absurd ⟨e, rfl⟩ h
  | ok a => exact ⟨a, rfl⟩

/-- A command with as many parameters as it has, and a block of the config area that it may access. -/
theorem canPerform (hlen : params.length = c.paramCount) (hread : c = .readConfig → ¬n.ReadThrows)
    (hwrite : c = .writeConfig → ¬n.WriteThrows) : c.CanPerform params n := by
  intro rtc
  cases c with
  | readRtc =>
    obtain rfl := List.length_eq_zero_iff.mp hlen
    exact ⟨_, _, .readRtc n⟩
  | forbidDvdp =>
    obtain rfl := List.length_eq_zero_iff.mp hlen
    exact ⟨_, _, .forbidDvdp n⟩
  | openConfig =>
    obtain ⟨readWrite, area, maxBlocks, rfl⟩ := List.length_eq_three.mp hlen
    exact ⟨_, _, .openConfig readWrite area maxBlocks n⟩
  | readConfig =>
    obtain rfl := List.length_eq_zero_iff.mp hlen
    have hthrows := (CdvdNvram.throwsClean_readConfigBlock n).throws_iff
    obtain ⟨block, hblock⟩ := exists_ok_of_not_error (mt hthrows.mp (hread rfl))
    exact ⟨_, _, .readConfig (Prod.ext hblock rfl)⟩
  | writeConfig =>
    have hthrows := (CdvdNvram.throwsClean_writeConfigBlock n (Cdvd.hwordsOfBytes params)).throws_iff
    obtain ⟨u, hu⟩ := exists_ok_of_not_error (mt hthrows.mp (hwrite rfl))
    exact ⟨_, _, .writeConfig hlen (Prod.ext hu rfl)⟩
  | closeConfig =>
    obtain rfl := List.length_eq_zero_iff.mp hlen
    exact ⟨_, _, .closeConfig n⟩

end SCommand

/-! ### One command -/

namespace Cdvd

variable {s t : Cdvd} {bs : List Ubyte}

/-- These bytes are put into `S_DATA_OUT`, and the empty bit is right behind it. -/
structure Pushed (s t : Cdvd) (bs : List Ubyte) : Prop where
  /-- Nothing else is changed. -/
  eq : t = { s with dataOut := t.dataOut, ready := t.ready }
  /-- The bytes stand behind those of before. -/
  bytes : t.dataOut.bytes = s.dataOut.bytes ++ bs
  /-- The busy bit is kept. -/
  busy : t.bit readyBusy = s.bit readyBusy
  /-- The empty bit is right. -/
  empty : t.bit readyEmpty = t.dataOut.isEmpty

theorem bit_insertInto (s : Cdvd) {f : Bitfield} (hf : f.length = 1) (hw : f.start < 8) (x : Ubyte) :
    bit { s with ready := f.insertInto s.ready x } f = decide (x &&& 1 = 1) := by
  unfold bit sRdyDinReadUbyte
  dsimp only
  rw [extractFrom_insertInto_bit hf hw]

theorem bit_insertInto_of_disjoint (s : Cdvd) {f g : Bitfield} (h : f.Disjoint g) (x : Ubyte) :
    bit { s with ready := g.insertInto s.ready x } f = s.bit f := by
  unfold bit sRdyDinReadUbyte
  dsimp only
  rw [Bitfield.extractFrom_insertInto_of_disjoint _ _ h]

theorem isEmpty_eq_false {q : DmaFifoQueue} (h : q.bytes ≠ []) : q.isEmpty = false := by
  rw [← Bool.not_eq_true, DmaFifoQueue.isEmpty_iff]
  exact h

theorem exists_pushed_ubyte (h : s.dataOut.bytes.length < 1024) (data : Ubyte) :
    ∃ t, s.sDataOutWriteUbyte data = .ok t ∧ Pushed s t [data] := by
  obtain ⟨q, hq, hbytes⟩ := DmaFifoQueue.writeUbyte_of_lt h data
  refine ⟨{ s with dataOut := q, ready := readyEmpty.insertInto s.ready 0 }, ?_, rfl, hbytes, ?_, ?_⟩
  · rw [sDataOutWriteUbyte, hq]
    rfl
  · exact bit_insertInto_of_disjoint s (by decide) 0
  · have hne : q.bytes ≠ [] := by
      rw [hbytes]
      exact List.concat_ne_nil data s.dataOut.bytes
    rw [isEmpty_eq_false hne]
    exact bit_insertInto s rfl (by decide) 0

theorem exists_pushed (hempty : s.bit readyEmpty = s.dataOut.isEmpty)
    (h : s.dataOut.bytes.length + bs.length ≤ 1024) : ∃ t, s.sDataOutWrite bs = .ok t ∧ Pushed s t bs := by
  induction bs generalizing s with
  | nil => exact ⟨s, rfl, rfl, (List.append_nil _).symm, rfl, hempty⟩
  | cons b bs ih =>
    rw [List.length_cons] at h
    obtain ⟨t, ht, hpush⟩ := exists_pushed_ubyte (s := s) (by omega) b
    have hlen : t.dataOut.bytes.length + bs.length ≤ 1024 := by
      rw [hpush.bytes, List.length_append, List.length_singleton]
      omega
    obtain ⟨u, hu, hpush'⟩ := ih hpush.empty hlen
    refine ⟨u, ?_, ?_, ?_, hpush'.busy.trans hpush.busy, hpush'.empty⟩
    · rw [sDataOutWrite, List.foldlM_cons, ht]
      exact hu
    · rw [hpush'.eq, hpush.eq]
    · rw [hpush'.bytes, hpush.bytes, List.append_assoc, List.singleton_append]

/-- This byte is taken from `S_DATA_OUT`, and the empty bit is right behind it. -/
structure Popped (s t : Cdvd) (b : Ubyte) : Prop where
  /-- Nothing else is changed. -/
  eq : t = { s with dataOut := t.dataOut, ready := t.ready }
  /-- It was the first one. -/
  bytes : s.dataOut.bytes = b :: t.dataOut.bytes
  /-- The busy bit is kept. -/
  busy : t.bit readyBusy = s.bit readyBusy
  /-- The empty bit is right. -/
  empty : t.bit readyEmpty = t.dataOut.isEmpty

theorem popped_of_read {r : Ubyte × Cdvd} (hempty : s.bit readyEmpty = s.dataOut.isEmpty)
    (h : s.sDataOutReadUbyte = .ok r) : Popped s r.2 r.1 := by
  obtain ⟨r', hr', h⟩ := bind_eq_ok_iff.mp h
  obtain rfl := Except.ok.inj h
  have hbytes := DmaFifoQueue.bytes_of_readUbyte hr'
  refine ⟨rfl, hbytes, ?_, ?_⟩
  · dsimp only
    split_ifs
    · exact bit_insertInto_of_disjoint s (by decide) 1
    · rfl
  · dsimp only
    cases hnext : r'.2.isEmpty with
    | true => exact bit_insertInto s rfl (by decide) 1
    | false =>
      have hne : s.dataOut.bytes ≠ [] := by
        rw [hbytes]
        exact List.cons_ne_nil _ _
      exact hempty.trans (isEmpty_eq_false hne)

/-- A command takes its parameters and puts its result into `S_DATA_OUT`. -/
theorem scmdInstruction_of_performs {c : SCommand} {params rest result : List Ubyte} {n' : CdvdNvram}
    (h : c.Performs s.rtc params s.nvram result n') (hin : s.dataIn.bytes = params ++ rest)
    (hempty : s.bit readyEmpty = s.dataOut.isEmpty) (hfits : s.dataOut.bytes.length + result.length ≤ 1024) :
    ∃ q t, q.bytes = rest ∧ s.scmdInstruction c.code = .ok t ∧
      Pushed { s with dataIn := q, nvram := n' } t result := by
  cases h with
  | readRtc =>
    obtain ⟨t, ht, hpush⟩ := exists_pushed hempty hfits
    exact ⟨s.dataIn, t, hin, ht, hpush⟩
  | forbidDvdp =>
    obtain ⟨t, ht, hpush⟩ := exists_pushed_ubyte (s := s) hfits 5
    exact ⟨s.dataIn, t, hin, ht, hpush⟩
  | openConfig readWrite area maxBlocks =>
    obtain ⟨q₁, h₁, hb₁⟩ := DmaFifoQueue.readUbyte_of_cons hin
    obtain ⟨q₂, h₂, hb₂⟩ := DmaFifoQueue.readUbyte_of_cons hb₁
    obtain ⟨q₃, h₃, hb₃⟩ := DmaFifoQueue.readUbyte_of_cons hb₂
    let nvram := s.nvram.setAccessParams readWrite.toNat area.toNat maxBlocks.toNat 0
    obtain ⟨t, ht, hpush⟩ := exists_pushed_ubyte (s := { s with dataIn := q₃, nvram }) hfits 0
    refine ⟨q₃, t, hb₃, ?_, hpush⟩
    have hcode : s.scmdInstruction SCommand.openConfig.code = s.scmdInstruction40 := rfl
    rw [hcode, scmdInstruction40, h₁, ok_bind, h₂, ok_bind, h₃, ok_bind]
    exact ht
  | readConfig hread =>
    obtain ⟨t, ht, hpush⟩ := exists_pushed (s := { s with nvram := n' }) hempty hfits
    refine ⟨s.dataIn, t, hin, ?_, hpush⟩
    have hcode : s.scmdInstruction SCommand.readConfig.code = s.scmdInstruction41 := rfl
    rw [hcode, scmdInstruction41, hread, ok_bind]
    exact ht
  | writeConfig hlen hwrite =>
    have hread : s.dataIn.read 16 = .ok (params, s.dataIn.drop 16) := by
      rw [DmaFifoQueue.read_eq (by rw [hin, List.length_append]; omega), hin, ← hlen, List.take_left]
    have hrest : (s.dataIn.drop 16).bytes = rest := by
      rw [DmaFifoQueue.bytes_drop, hin, ← hlen, List.drop_left]
    obtain ⟨t, ht, hpush⟩ := exists_pushed_ubyte (s := { s with dataIn := s.dataIn.drop 16, nvram := n' }) hfits 0
    refine ⟨s.dataIn.drop 16, t, hrest, ?_, hpush⟩
    have hcode : s.scmdInstruction SCommand.writeConfig.code = s.scmdInstruction42 := rfl
    rw [hcode, scmdInstruction42, hread, ok_bind]
    dsimp only
    rw [hwrite, ok_bind]
    exact ht
  | closeConfig =>
    obtain ⟨t, ht, hpush⟩ := exists_pushed_ubyte (s := { s with nvram := s.nvram.setAccessParams 0 0 0 0 }) hfits 0
    exact ⟨s.dataIn, t, hin, ht, hpush⟩

/-- The pending command is executed. -/
structure Executed (s t : Cdvd) (rest result : List Ubyte) (n' : CdvdNvram) : Prop where
  /-- What is changed. -/
  eq : t = { s with
    sCommand := ⟨s.sCommand.value, false⟩, ready := t.ready, dataIn := t.dataIn, dataOut := t.dataOut, nvram := n' }
  /-- The parameters are taken. -/
  dataIn : t.dataIn.bytes = rest
  /-- The result is put behind those that are still there. -/
  dataOut : t.dataOut.bytes = s.dataOut.bytes ++ result
  /-- The busy bit is clear. -/
  busy : t.bit readyBusy = false
  /-- The empty bit is right. -/
  empty : t.bit readyEmpty = t.dataOut.isEmpty

theorem timeStep_of_performs {c : SCommand} {params rest result : List Ubyte} {n' : CdvdNvram}
    (hn : s.nCommand.writeLatch = false) (hlatch : s.sCommand.writeLatch = true) (hvalue : s.sCommand.value = c.code)
    (h : c.Performs s.rtc params s.nvram result n') (hin : s.dataIn.bytes = params ++ rest)
    (hempty : s.bit readyEmpty = s.dataOut.isEmpty) (hfits : s.dataOut.bytes.length + result.length ≤ 1024) :
    ∃ t, s.timeStep = .ok t ∧ Executed s t rest result n' := by
  obtain ⟨q, u, hq, hu, hpush⟩ := scmdInstruction_of_performs h hin hempty hfits
  have hcommand : u.sCommand = s.sCommand := by rw [hpush.eq]
  refine ⟨{ u with ready := readyBusy.insertInto u.ready 0, sCommand := ⟨u.sCommand.value, false⟩ }, ?_, ?_, ?_, ?_, ?_, ?_⟩
  · rw [timeStep, if_neg (by rw [hn]; exact Bool.false_ne_true), if_pos hlatch, hvalue, hu]
    rfl
  · dsimp only
    rw [hpush.eq]
  · dsimp only
    rw [hpush.eq]
    exact hq
  · exact hpush.bytes
  · exact bit_insertInto u rfl (by decide) 0
  · exact (bit_insertInto_of_disjoint u (by decide) 0).trans hpush.empty

theorem timeStep_of_idle (hn : s.nCommand.writeLatch = false) (hlatch : s.sCommand.writeLatch = false) :
    s.timeStep = .ok s := by
  rw [timeStep, if_neg (by rw [hn]; exact Bool.false_ne_true), if_neg (by rw [hlatch]; exact Bool.false_ne_true)]

end Cdvd

/-! ### The IOP and the controller -/

/-- What a time step has made of a command. -/
structure SExecution where
  /-- The command. -/
  command : Ubyte
  /-- The bytes taken from `S_DATA_IN`. -/
  params : List Ubyte
  /-- The clock. -/
  rtc : CdvdRtc
  /-- The bytes put into `S_DATA_OUT`. -/
  result : List Ubyte

/-- What has been executed between two states. -/
def Cdvd.execution (s t : Cdvd) : SExecution :=
  ⟨s.sCommand.value, s.dataIn.bytes.take (s.dataIn.bytes.length - t.dataIn.bytes.length), s.rtc,
    t.dataOut.bytes.drop s.dataOut.bytes.length⟩

/-- The CDVD, and what the IOP has written to it and read from it. -/
structure SExchange where
  /-- The CDVD. -/
  cdvd : Cdvd
  /-- The bytes written to `S_DATA_IN` since the last command. -/
  written : List Ubyte
  /-- The commands written, each with the bytes written before it. -/
  issued : List (Ubyte × List Ubyte)
  /-- What the controller has executed. -/
  executed : List SExecution
  /-- The bytes read from `S_DATA_OUT`. -/
  read : List Ubyte

/-- An access of the IOP or a turn of the controller. -/
inductive SMove where
  /-- A byte is written to `S_DATA_IN`. -/
  | param (value : Ubyte)
  /-- A command is written to `S_COMMAND`. -/
  | command (c : SCommand)
  /-- A byte is read from `S_DATA_OUT`. -/
  | readData
  /-- `time_step`. -/
  | timeStep
  /-- `handle_rtc_increment`. -/
  | rtcIncrement (timeUs : ℚ≥0)

namespace SExchange

/-- Before the first access. -/
def start (nvram : CdvdNvram) (rtc : CdvdRtc) : SExchange := ⟨.initial nvram rtc, [], [], [], []⟩

/-- A command is written. -/
def issue (s : SExchange) (c : SCommand) : SExchange := { s with
  cdvd := s.cdvd.sCommandWriteUbyte c.code, written := [], issued := s.issued ++ [(c.code, s.written)] }

/-- The controller has made a time step. -/
def advance (s : SExchange) (cdvd : Cdvd) : SExchange := { s with
  cdvd, executed := s.executed ++ if s.cdvd.sCommand.writeLatch then [s.cdvd.execution cdvd] else [] }

/-- One move. -/
def step (m : SMove) (s : SExchange) : Except HostError SExchange :=
  match m with
  | .param value => do
    let cdvd ← s.cdvd.sRdyDinWriteUbyte value
    return { s with cdvd, written := s.written ++ [value] }
  | .command c => .ok (s.issue c)
  | .readData => do
    let r ← s.cdvd.sDataOutReadUbyte
    return { s with cdvd := r.2, read := s.read ++ [r.1] }
  | .timeStep => do
    let cdvd ← s.cdvd.timeStep
    return s.advance cdvd
  | .rtcIncrement timeUs => .ok { s with cdvd := s.cdvd.handleRtcIncrement timeUs }

/-- The rules that the IOP keeps to: a command is written when the busy bit is clear and its parameters are written, a
block of the config area being there if it accesses one, and a byte is read when the empty bit is clear. -/
def Permitted (m : SMove) (s : SExchange) : Prop :=
  match m with
  | .command c => s.cdvd.bit Cdvd.readyBusy = false ∧ s.written.length = c.paramCount ∧
      (c = .readConfig → ¬s.cdvd.nvram.ReadThrows) ∧ (c = .writeConfig → ¬s.cdvd.nvram.WriteThrows)
  | .readData => s.cdvd.bit Cdvd.readyEmpty = false
  | _ => True

/-- A result that is due fits into `S_DATA_OUT`. -/
def Fits (m : SMove) (s : SExchange) : Prop :=
  m = .timeStep → s.cdvd.sCommand.writeLatch = true →
    ∀ c : SCommand, s.cdvd.sCommand.value = c.code → s.cdvd.dataOut.bytes.length + c.resultCount ≤ 1024

instance decidablePermitted : ∀ (m : SMove) (s : SExchange), Decidable (Permitted m s)
  | .command _, _ => inferInstanceAs (Decidable (_ ∧ _ ∧ _ ∧ _))
  | .readData, _ => inferInstanceAs (Decidable (_ = _))
  | .param _, _ => isTrue trivial
  | .timeStep, _ => isTrue trivial
  | .rtcIncrement _, _ => isTrue trivial

instance decidableFits : ∀ (m : SMove) (s : SExchange), Decidable (Fits m s)
  | .timeStep, s => decidable_of_iff (s.cdvd.sCommand.writeLatch = true →
      ∀ c ∈ SCommand.all, s.cdvd.sCommand.value = c.code → s.cdvd.dataOut.bytes.length + c.resultCount ≤ 1024)
      ⟨fun h _ hlatch c => h hlatch c c.mem_all, fun h hlatch c _ => h rfl hlatch c⟩
  | .command _, _ => isTrue fun h => nomatch h
  | .readData, _ => isTrue fun h => nomatch h
  | .param _, _ => isTrue fun h => nomatch h
  | .rtcIncrement _, _ => isTrue fun h => nomatch h

/-- Each of these executions is that of its command, one after the other. -/
inductive Performed : CdvdNvram → List SExecution → CdvdNvram → Prop
  /-- None. -/
  | nil (n : CdvdNvram) : Performed n [] n
  /-- One more. -/
  | concat {n n' n'' : CdvdNvram} {es : List SExecution} {e : SExecution} {c : SCommand} (hs : Performed n es n')
      (hc : e.command = c.code) (h : c.Performs e.rtc e.params n' e.result n'') : Performed n (es ++ [e]) n''

/-- The handshake has worked up to now. -/
structure InOrder (nvram : CdvdNvram) (s : SExchange) : Prop where
  /-- The busy bit says that a command is pending. -/
  busy : s.cdvd.bit Cdvd.readyBusy = true ↔ s.cdvd.sCommand.writeLatch = true
  /-- The empty bit says that there is nothing to read. -/
  empty : s.cdvd.bit Cdvd.readyEmpty = true ↔ s.cdvd.dataOut.bytes = []
  /-- The commands have been executed on the bytes written for them, but for the pending one. -/
  once : ∃ pending, s.issued = s.executed.map (fun e => (e.command, e.params)) ++ pending ∧
    pending.length = if s.cdvd.sCommand.writeLatch then 1 else 0
  /-- The executions are what the commands are for. -/
  performed : Performed nvram s.executed s.cdvd.nvram
  /-- The results have been read, but for what is still there. -/
  results : s.executed.flatMap SExecution.result = s.read ++ s.cdvd.dataOut.bytes

/-- The move is made, or it is a write to `S_DATA_IN` when this is full. -/
def Served (m : SMove) (s : SExchange) : Prop :=
  (∃ t, step m s = .ok t) ∨ (∃ value, m = .param value) ∧ s.cdvd.dataIn.bytes.length = 1024

/-- What each move keeps. The command that is pending and its parameters stand in the CDVD. -/
structure Invariant (nvram : CdvdNvram) (s : SExchange) : Prop where
  /-- There is no N command. -/
  nLatch : s.cdvd.nCommand.writeLatch = false
  /-- The busy bit is right. -/
  busy : s.cdvd.bit Cdvd.readyBusy = s.cdvd.sCommand.writeLatch
  /-- The empty bit is right. -/
  empty : s.cdvd.bit Cdvd.readyEmpty = s.cdvd.dataOut.isEmpty
  /-- The executions are what the commands are for. -/
  performed : Performed nvram s.executed s.cdvd.nvram
  /-- The results have been read, but for what is still there. -/
  results : s.executed.flatMap SExecution.result = s.read ++ s.cdvd.dataOut.bytes
  /-- No command is pending. -/
  idle : s.cdvd.sCommand.writeLatch = false →
    s.issued = s.executed.map (fun e => (e.command, e.params)) ∧ s.cdvd.dataIn.bytes = s.written
  /-- One is. -/
  pending : s.cdvd.sCommand.writeLatch = true → ∃ (c : SCommand) (params : List Ubyte),
    s.cdvd.sCommand.value = c.code ∧ s.cdvd.dataIn.bytes = params ++ s.written ∧
      s.issued = s.executed.map (fun e => (e.command, e.params)) ++ [(c.code, params)] ∧
        c.CanPerform params s.cdvd.nvram

variable {nvram : CdvdNvram} {rtc : CdvdRtc} {s t : SExchange} {m : SMove}

theorem invariant_start : Invariant nvram (start nvram rtc) where
  nLatch := rfl
  busy := by
    change decide (Cdvd.readyBusy.extractFrom (0x40 : Ubyte) = 1) = false
    decide
  empty := by
    change decide (Cdvd.readyEmpty.extractFrom (0x40 : Ubyte) = 1) = true
    decide
  performed := .nil nvram
  results := rfl
  idle := fun _ => ⟨rfl, rfl⟩
  pending := fun h => absurd h Bool.false_ne_true

theorem Invariant.inOrder (h : Invariant nvram s) : InOrder nvram s where
  busy := by rw [h.busy]
  empty := by rw [h.empty, DmaFifoQueue.isEmpty_iff]
  once := by
    cases hlatch : s.cdvd.sCommand.writeLatch with
    | false => exact ⟨[], (h.idle hlatch).1.trans (List.append_nil _).symm, rfl⟩
    | true =>
      obtain ⟨c, params, -, -, hissued, -⟩ := h.pending hlatch
      exact ⟨_, hissued, rfl⟩
  performed := h.performed
  results := h.results

/-! ### What each move does -/

theorem Invariant.param {value : Ubyte} (h : Invariant nvram s) (hstep : step (.param value) s = .ok t) :
    Invariant nvram t := by
  obtain ⟨cdvd, hcdvd, ht⟩ := bind_eq_ok_iff.mp hstep
  obtain ⟨q, hq, hcdvd⟩ := bind_eq_ok_iff.mp hcdvd
  obtain rfl := Except.ok.inj hcdvd
  obtain rfl := Except.ok.inj ht
  have hbytes := DmaFifoQueue.bytes_of_writeUbyte hq
  refine ⟨h.nLatch, h.busy, h.empty, h.performed, h.results, fun hlatch => ?_, fun hlatch => ?_⟩
  · obtain ⟨hissued, hin⟩ := h.idle hlatch
    exact ⟨hissued, hbytes.trans (congrArg (· ++ [value]) hin)⟩
  · obtain ⟨c, params, hvalue, hin, hissued, hcan⟩ := h.pending hlatch
    exact ⟨c, params, hvalue, hbytes.trans (by rw [hin, List.append_assoc]), hissued, hcan⟩

theorem Invariant.command {c : SCommand} (h : Invariant nvram s) (hpermitted : Permitted (.command c) s)
    (hstep : step (.command c) s = .ok t) : Invariant nvram t := by
  obtain ⟨hbusy, hlen, hread, hwrite⟩ := hpermitted
  obtain ⟨hissued, hin⟩ := h.idle (h.busy.symm.trans hbusy)
  obtain rfl := Except.ok.inj hstep
  refine ⟨h.nLatch, ?_, ?_, h.performed, h.results, fun hlatch => ?_, fun _ => ?_⟩
  · exact Cdvd.bit_insertInto s.cdvd rfl (by decide) 1
  · exact (Cdvd.bit_insertInto_of_disjoint s.cdvd (by decide) 1).trans h.empty
  · cases hlatch
  · refine ⟨c, s.written, rfl, ?_, ?_, SCommand.canPerform hlen hread hwrite⟩
    · exact hin.trans (List.append_nil _).symm
    · exact congrArg (· ++ [(c.code, s.written)]) hissued

theorem Invariant.readData (h : Invariant nvram s) (hstep : step .readData s = .ok t) : Invariant nvram t := by
  obtain ⟨r, hr, ht⟩ := bind_eq_ok_iff.mp hstep
  obtain rfl := Except.ok.inj ht
  have hpop := Cdvd.popped_of_read h.empty hr
  have hcdvd := hpop.eq
  refine ⟨?_, ?_, hpop.empty, ?_, ?_, fun hlatch => ?_, fun hlatch => ?_⟩
  · rw [hcdvd]
    exact h.nLatch
  · rw [hpop.busy, hcdvd]
    exact h.busy
  · rw [hcdvd]
    exact h.performed
  · rw [h.results, hpop.bytes, List.append_assoc, List.singleton_append]
  · rw [hcdvd] at hlatch ⊢
    exact h.idle hlatch
  · rw [hcdvd] at hlatch ⊢
    exact h.pending hlatch

/-- A time step with a command pending that has room for its result. -/
theorem Invariant.exists_executed (h : Invariant nvram s) (hfits : Fits .timeStep s)
    (hlatch : s.cdvd.sCommand.writeLatch = true) : ∃ (c : SCommand) (params result : List Ubyte) (n' : CdvdNvram) (t : Cdvd),
      s.cdvd.sCommand.value = c.code ∧ s.cdvd.dataIn.bytes = params ++ s.written ∧
        s.issued = s.executed.map (fun e => (e.command, e.params)) ++ [(c.code, params)] ∧
          c.Performs s.cdvd.rtc params s.cdvd.nvram result n' ∧ s.cdvd.timeStep = .ok t ∧
            Cdvd.Executed s.cdvd t s.written result n' := by
  obtain ⟨c, params, hvalue, hin, hissued, hcan⟩ := h.pending hlatch
  obtain ⟨result, n', hperforms⟩ := hcan s.cdvd.rtc
  have hroom := hfits rfl hlatch c hvalue
  rw [← hperforms.length_result] at hroom
  obtain ⟨t, ht, hexecuted⟩ := Cdvd.timeStep_of_performs h.nLatch hlatch hvalue hperforms hin h.empty hroom
  exact ⟨c, params, result, n', t, hvalue, hin, hissued, hperforms, ht, hexecuted⟩

theorem Invariant.timeStep (h : Invariant nvram s) (hfits : Fits .timeStep s) (hstep : step .timeStep s = .ok t) :
    Invariant nvram t := by
  obtain ⟨cdvd, hcdvd, ht⟩ := bind_eq_ok_iff.mp hstep
  obtain rfl := Except.ok.inj ht
  cases hlatch : s.cdvd.sCommand.writeLatch with
  | false =>
    rw [Cdvd.timeStep_of_idle h.nLatch hlatch] at hcdvd
    obtain rfl := Except.ok.inj hcdvd
    rw [advance, hlatch, if_neg Bool.false_ne_true, List.append_nil]
    exact h
  | true =>
    obtain ⟨c, params, result, n', u, hvalue, hin, hissued, hperforms, hu, hexecuted⟩ := h.exists_executed hfits hlatch
    obtain rfl := Except.ok.inj (hu.symm.trans hcdvd)
    have hexecution : s.cdvd.execution u = ⟨c.code, params, s.cdvd.rtc, result⟩ := by
      rw [Cdvd.execution, hvalue, hin, hexecuted.dataIn, hexecuted.dataOut, List.length_append, Nat.add_sub_cancel,
        List.take_left, List.drop_left]
    have hu := hexecuted.eq
    have hdone : u.sCommand.writeLatch = false := by rw [hu]
    rw [advance, if_pos hlatch, hexecution]
    refine ⟨?_, hexecuted.busy.trans hdone.symm, hexecuted.empty, ?_, ?_, fun _ => ⟨?_, hexecuted.dataIn⟩, fun hlatch => ?_⟩
    · dsimp only
      rw [hu]
      exact h.nLatch
    · dsimp only
      rw [hu]
      exact .concat h.performed rfl hperforms
    · dsimp only
      rw [List.flatMap_append, h.results, hexecuted.dataOut, List.flatMap_singleton, List.append_assoc]
    · dsimp only
      rw [hissued, List.map_append, List.map_singleton]
    · rw [hdone] at hlatch
      cases hlatch

theorem Invariant.rtcIncrement {timeUs : ℚ≥0} (h : Invariant nvram s) (hstep : step (.rtcIncrement timeUs) s = .ok t) :
    Invariant nvram t := by
  obtain rfl := Except.ok.inj hstep
  exact ⟨h.nLatch, h.busy, h.empty, h.performed, h.results, h.idle, h.pending⟩

theorem Invariant.step (h : Invariant nvram s) (hm : Permitted m s ∧ Fits m s) (hstep : SExchange.step m s = .ok t) :
    Invariant nvram t := by
  cases m with
  | param value => exact h.param hstep
  | command c => exact h.command hm.1 hstep
  | readData => exact h.readData hstep
  | timeStep => exact h.timeStep hm.2 hstep
  | rtcIncrement timeUs => exact h.rtcIncrement hstep

theorem Invariant.served (h : Invariant nvram s) (hm : Permitted m s ∧ Fits m s) : Served m s := by
  cases m with
  | param value =>
    by_cases hroom : s.cdvd.dataIn.bytes.length < 1024
    · obtain ⟨q, hq, -⟩ := DmaFifoQueue.writeUbyte_of_lt hroom value
      have hwrite : s.cdvd.sRdyDinWriteUbyte value = .ok { s.cdvd with dataIn := q } :=
        bind_eq_ok_iff.mpr ⟨q, hq, rfl⟩
      exact .inl ⟨_, bind_eq_ok_iff.mpr ⟨_, hwrite, rfl⟩⟩
    · have := s.cdvd.dataIn.bounded
      exact .inr ⟨⟨value, rfl⟩, by omega⟩
  | command c => exact .inl ⟨_, rfl⟩
  | readData =>
    have hne : s.cdvd.dataOut.bytes ≠ [] := by
      intro hnil
      have hempty : s.cdvd.bit Cdvd.readyEmpty = true := h.inOrder.empty.mpr hnil
      exact Bool.false_ne_true (hm.1.symm.trans hempty)
    obtain ⟨b, bs, hbytes⟩ := List.exists_cons_of_ne_nil hne
    obtain ⟨q, hq, -⟩ := DmaFifoQueue.readUbyte_of_cons hbytes
    have hread : s.cdvd.sDataOutReadUbyte = .ok (b, { s.cdvd with
        dataOut := q, ready := if q.isEmpty then Cdvd.readyEmpty.insertInto s.cdvd.ready 1 else s.cdvd.ready }) :=
      bind_eq_ok_iff.mpr ⟨(b, q), hq, rfl⟩
    exact .inl ⟨_, bind_eq_ok_iff.mpr ⟨_, hread, rfl⟩⟩
  | timeStep =>
    cases hlatch : s.cdvd.sCommand.writeLatch with
    | false => exact .inl ⟨_, bind_eq_ok_iff.mpr ⟨_, Cdvd.timeStep_of_idle h.nLatch hlatch, rfl⟩⟩
    | true =>
      obtain ⟨_, _, _, _, u, _, _, _, _, hu, _⟩ := h.exists_executed hm.2 hlatch
      exact .inl ⟨_, bind_eq_ok_iff.mpr ⟨u, hu, rfl⟩⟩
  | rtcIncrement timeUs => exact .inl ⟨_, rfl⟩

/-- The IOP keeps to its rules over these moves. -/
def AlwaysPermitted (nvram : CdvdNvram) (rtc : CdvdRtc) (moves : List SMove) : Prop :=
  Run.Always SExchange.step Permitted moves (start nvram rtc)

/-- Whenever a result is due there is room for it. -/
def AlwaysFits (nvram : CdvdNvram) (rtc : CdvdRtc) (moves : List SMove) : Prop :=
  Run.Always SExchange.step Fits moves (start nvram rtc)

/-- The handshake works in every state of the run, and every move is served. -/
def Works (nvram : CdvdNvram) (rtc : CdvdRtc) (moves : List SMove) : Prop :=
  Run.Always SExchange.step (fun m s => InOrder nvram s ∧ Served m s) moves (start nvram rtc) ∧
    ∀ t, Run.run SExchange.step moves (start nvram rtc) = .ok t → InOrder nvram t

theorem permitted_forbidDvdp (h : Invariant nvram s) (hlatch : s.cdvd.sCommand.writeLatch = false)
    (hwritten : s.written = []) : Permitted (.command .forbidDvdp) s := by
  refine ⟨h.busy.trans hlatch, ?_, fun hc => absurd hc (by decide), fun hc => absurd hc (by decide)⟩
  rw [hwritten]
  rfl

theorem eq_forbidDvdp {c : SCommand} (h : SCommand.forbidDvdp.code = c.code) : c = .forbidDvdp := by
  cases c <;> first | rfl | exact absurd h (by decide)

/-- If the IOP keeps to its rules and the results that it has not read leave room for those that are due, the handshake
works. -/
theorem works (nvram : CdvdNvram) (rtc : CdvdRtc) (moves : List SMove) (hpermitted : AlwaysPermitted nvram rtc moves)
    (hfits : AlwaysFits nvram rtc moves) : Works nvram rtc moves := by
  have hall := Run.Always.and hpermitted hfits
  have hkeep : ∀ m s t, Invariant nvram s → Permitted m s ∧ Fits m s → SExchange.step m s = .ok t → Invariant nvram t :=
    fun _ _ _ h hm hstep => h.step hm hstep
  constructor
  · exact hall.invariant hkeep (fun _ _ h hm => ⟨h.inOrder, h.served hm⟩) invariant_start
  · exact fun t ht => (Run.Always.invariant_run hkeep invariant_start hall ht).inOrder

/-- Area 0 is opened to be read, the first block is read, and all results are. -/
def readConfigMoves : List SMove :=
  [.param 0, .param 0, .param 1, .command .openConfig, .timeStep, .readData, .command .readConfig, .timeStep] ++
    .replicate 16 .readData

/-- Two commands, the first of them with parameters. -/
theorem works_readConfig : Works ⟨fun _ => 0x42, 0, 0, 0, 0⟩ .initial readConfigMoves := by
  have hpermitted : AlwaysPermitted ⟨fun _ => 0x42, 0, 0, 0, 0⟩ .initial readConfigMoves := by
    unfold AlwaysPermitted
    decide +kernel
  have hfits : AlwaysFits ⟨fun _ => 0x42, 0, 0, 0, 0⟩ .initial readConfigMoves := by
    unfold AlwaysFits
    decide +kernel
  exact works _ _ _ hpermitted hfits

/-! ### Results that are not read -/

/-- `sceCdForbidDVDP` is executed over and over. -/
def forbidDvdpRounds (n : ℕ) : List SMove := (List.replicate n [.command .forbidDvdp, .timeStep]).flatten

theorem forbidDvdpRounds_succ (n : ℕ) :
    forbidDvdpRounds (n + 1) = forbidDvdpRounds n ++ [.command .forbidDvdp, .timeStep] := by
  rw [forbidDvdpRounds, List.replicate_succ', List.flatten_append, List.flatten_singleton, forbidDvdpRounds]

/-- One round more, if there is room. -/
theorem Invariant.exists_round (h : Invariant nvram s) (hpermitted : Permitted (.command .forbidDvdp) s)
    (hroom : s.cdvd.dataOut.bytes.length < 1024) :
    ∃ t u, SExchange.step (.command .forbidDvdp) s = .ok t ∧ SExchange.step .timeStep t = .ok u ∧ Invariant nvram u ∧
      u.cdvd.sCommand.writeLatch = false ∧ u.written = [] ∧
        u.cdvd.dataOut.bytes.length = s.cdvd.dataOut.bytes.length + 1 := by
  have hcommand := h.command hpermitted rfl
  have hfits : Fits .timeStep (s.issue .forbidDvdp) := by
    intro _ _ c hc
    rw [eq_forbidDvdp hc]
    exact hroom
  obtain ⟨c, params, result, n', u, hc, -, -, hperforms, hu, hexecuted⟩ := hcommand.exists_executed hfits rfl
  have hstep : SExchange.step .timeStep (s.issue .forbidDvdp) = .ok ((s.issue .forbidDvdp).advance u) :=
    bind_eq_ok_iff.mpr ⟨u, hu, rfl⟩
  refine ⟨_, _, rfl, hstep, hcommand.timeStep hfits hstep, ?_, rfl, ?_⟩
  · rw [advance, hexecuted.eq]
  · rw [advance, hexecuted.dataOut, List.length_append, hperforms.length_result, eq_forbidDvdp hc]
    rfl

/-- The results of the rounds pile up. -/
theorem exists_rounds (nvram : CdvdNvram) (rtc : CdvdRtc) {n : ℕ} (hn : n ≤ 1024) :
    ∃ s, AlwaysPermitted nvram rtc (forbidDvdpRounds n) ∧ Run.run SExchange.step (forbidDvdpRounds n) (start nvram rtc) = .ok s ∧
      Invariant nvram s ∧ s.cdvd.sCommand.writeLatch = false ∧ s.written = [] ∧ s.cdvd.dataOut.bytes.length = n := by
  induction n with
  | zero => exact ⟨_, trivial, rfl, invariant_start, rfl, rfl, rfl⟩
  | succ n ih =>
    obtain ⟨s, halways, hrun, hs, hlatch, hwritten, hlen⟩ := ih (by omega)
    have hpermitted := permitted_forbidDvdp hs hlatch hwritten
    obtain ⟨t, u, ht, hu, hinv, hlatch', hwritten', hlen'⟩ := hs.exists_round hpermitted (by omega)
    rw [forbidDvdpRounds_succ]
    refine ⟨u, halways.append fun s' hs' => ?_, ?_, hinv, hlatch', hwritten', by rw [hlen', hlen]⟩
    · obtain rfl := Except.ok.inj (hrun.symm.trans hs')
      exact ⟨hpermitted, fun _ _ => ⟨trivial, fun _ _ => trivial⟩⟩
    · exact Run.run_append.mpr ⟨s, hrun, Run.run_cons_ok.mpr ⟨t, ht, Run.run_cons_ok.mpr ⟨u, hu, rfl⟩⟩⟩

/-- A time step with a result due and no room for it. -/
theorem not_served_timeStep (hlatch : s.cdvd.sCommand = ⟨SCommand.forbidDvdp.code, true⟩)
    (hfull : s.cdvd.dataOut.bytes.length = 1024) : ¬Served .timeStep s := by
  rintro (⟨t, ht⟩ | ⟨⟨value, hvalue⟩, -⟩)
  · obtain ⟨cdvd, hcdvd, -⟩ := bind_eq_ok_iff.mp ht
    unfold Cdvd.timeStep at hcdvd
    rw [hlatch] at hcdvd
    split_ifs at hcdvd with hn hs
    · obtain ⟨u, hu, -⟩ := bind_eq_ok_iff.mp hcdvd
      obtain ⟨q, hq, -⟩ := bind_eq_ok_iff.mp (show s.cdvd.scmdInstruction15 = .ok u from hu)
      have hbytes := congrArg List.length (DmaFifoQueue.bytes_of_writeUbyte hq)
      rw [List.length_append, hfull] at hbytes
      have := q.bounded
      rw [hbytes] at this
      exact absurd this (by decide)
    · exact hs rfl
  · cases hvalue

/-- After 1024 results that are not read the next command is not executed. -/
theorem not_works : ¬∀ nvram rtc moves, AlwaysPermitted nvram rtc moves → Works nvram rtc moves := by
  intro h
  obtain ⟨s, halways, hrun, hs, hlatch, hwritten, hlen⟩ := exists_rounds ⟨fun _ => 0, 0, 0, 0, 0⟩ .initial le_rfl
  have hpermitted := permitted_forbidDvdp hs hlatch hwritten
  have hall : AlwaysPermitted ⟨fun _ => 0, 0, 0, 0, 0⟩ .initial (forbidDvdpRounds 1025) := by
    rw [forbidDvdpRounds_succ]
    refine halways.append fun s' hs' => ?_
    obtain rfl := Except.ok.inj (hrun.symm.trans hs')
    exact ⟨hpermitted, fun _ _ => ⟨trivial, fun _ _ => trivial⟩⟩
  have hworks := (h _ _ _ hall).1
  rw [forbidDvdpRounds_succ] at hworks
  have hserved := ((hworks.of_append hrun).2 _ rfl).1.2
  exact not_served_timeStep (s := s.issue .forbidDvdp) rfl hlen hserved

end SExchange

end Orbum
