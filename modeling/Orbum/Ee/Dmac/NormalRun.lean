import Orbum.Ee.Dmac.ChainTurn
import Orbum.Ee.Dmac.Frame
import Orbum.Lib.Run

/-!
# Normal transfers of the EE DMAC

A channel in normal mode moves QWC quadwords between memory at MADR and its FIFO, one in each turn that finds room or
data there, and ends in a turn that finds a FIFO written to empty. No channel is meant to wait for D_STADR while STD is
0, but VIF0 counts as the drain then.

## The model

A move is a turn of the channel, a read or write of its peripheral, or anything else that leaves the channel and D_CTRL
alone, such as the turns of the other channels: `exists_moves_of_timeStep` shows that a tick is a run. The quadwords
that turns move are recorded beside the channel, with what the peripheral has taken or given, and how many turns found
it ready.
-/

namespace Orbum

open LittleEndian

namespace EeDmacTurn

open EeDmacChcr EeDmacCtrl

variable {t t' : EeDmacTurn}

/-! ### Addresses -/

/-- The address is the qword that MADR is in, of 29 bits. -/
theorem toNat_transferAddress (t : EeDmacTurn) : t.transferAddress.toNat = t.madr.toNat / 16 % 2 ^ 25 * 16 := by
  have hmask : (0x1FFFFFF0 : Uptr) = Bitfield.shiftedMask ⟨4, 25⟩ 32 := by decide
  rw [transferAddress, hmask, Bitfield.toNat_and_shiftedMask _ _ (by decide), EeDmacAddr.addr, Bitfield.toNat_extractFrom]
  dsimp only
  omega

/-- Addresses that do not wrap. -/
theorem transferAddress_add {n : ℕ} (hmadr : t'.madr = t.madr + BitVec.ofNat 32 (16 * n))
    (h : t.transferAddress.toNat + 16 * n < 2 ^ 29) :
    t'.transferAddress = t.transferAddress + BitVec.ofNat 32 (16 * n) ∧ t'.transferSpr = t.transferSpr := by
  have haddress := toNat_transferAddress t
  have haddress' := toNat_transferAddress t'
  rw [hmadr, BitVec.toNat_add, BitVec.toNat_ofNat] at haddress'
  constructor
  · apply BitVec.eq_of_toNat_eq
    rw [BitVec.toNat_add, BitVec.toNat_ofNat]
    omega
  · have hspr (u : EeDmacTurn) : u.transferSpr = decide (2 ^ 31 ≤ u.madr.toNat) := by
      rw [transferSpr, decide_eq_decide, BitVec.lt_def, EeDmacAddr.spr, Bitfield.toNat_extractFrom]
      have := u.madr.isLt
      change 0 < u.madr.toNat / 2 ^ 31 % 2 ^ 1 ↔ _
      omega
    rw [hspr, hspr, decide_eq_decide, hmadr, BitVec.toNat_add, BitVec.toNat_ofNat]
    omega

/-! ### Turns -/

/-- The bytes in the FIFO. -/
def fifo (t : EeDmacTurn) : List Ubyte := (t.dmaFifoQueue.map DmaFifoQueue.bytes).getD []

theorem fifo_eq {queue : DmaFifoQueue} (h : t.dmaFifoQueue = some queue) : t.fifo = queue.bytes := by
  rw [fifo, h]
  rfl

/-- The peripheral is ready for the turn: there is room or data for a quadword, and at the end a FIFO written to is
empty. -/
def Ready (t : EeDmacTurn) : Prop :=
  if t.qwc = 0 then t.chcr.direction = .TO → t.fifo = []
  else if t.chcr.direction = .TO then t.fifo.length + 16 ≤ 1024
  else 16 ≤ t.fifo.length

instance (t : EeDmacTurn) : Decidable t.Ready := by
  unfold Ready
  infer_instance

/-- The quadword at MADR goes through the FIFO. -/
def Passes (t t' : EeDmacTurn) (packet : List Ubyte) : Prop :=
  if t.chcr.direction = .TO then
    readQwordMemory t.memory t.transferAddress t.transferSpr = .ok (ofBytes 128 packet) ∧ t'.fifo = t.fifo ++ packet
  else
    readQwordMemory t'.memory t.transferAddress t.transferSpr = .ok (ofBytes 128 packet) ∧ t.fifo = packet ++ t'.fifo

/-- A quadword has been moved. -/
structure Advances (t t' : EeDmacTurn) : Prop where
  /-- The number of the channel. -/
  channelId : t'.channelId = t.channelId
  /-- CHCR. -/
  chcr : t'.chcr = t.chcr
  /-- MADR. -/
  madr : t'.madr = t.madr + 0x10
  /-- QWC. -/
  qwc : t'.qwc = t.qwc - 1
  /-- D_CTRL. -/
  ctrl : t'.ctrl = t.ctrl
  /-- D_STAT. -/
  stat : t'.stat = t.stat
  /-- There is a FIFO. -/
  queue : t'.dmaFifoQueue.isSome

/-- The channel waits for D_STADR. -/
def Waits (t : EeDmacTurn) : Prop := t.isDrainStallControlOn = true ∧ t.isDrainStallControlWaiting = true

instance (t : EeDmacTurn) : Decidable t.Waits := inferInstanceAs (Decidable (_ ∧ _))

/-- What a turn of a normal transfer does. -/
inductive NormalTurn (t t' : EeDmacTurn) : Prop where
  /-- It starts the transfer. -/
  | start : t.chcr.dmaStarted = false → t' = { t with chcr := { t.chcr with dmaStarted := true } } → NormalTurn t t'
  /-- It waits for the peripheral. -/
  | wait : t.chcr.dmaStarted = true → ¬t.Ready → t' = t → NormalTurn t t'
  /-- It waits for D_STADR. -/
  | stall : t.chcr.dmaStarted = true → t.qwc ≠ 0 → t.Waits → t' = t.setDmacStallControlSis → NormalTurn t t'
  /-- It moves a quadword. -/
  | qword {packet : List Ubyte} : t.chcr.dmaStarted = true → t.qwc ≠ 0 → ¬t.Waits → packet.length = 16 →
      Passes t t' packet → Advances t t' → NormalTurn t t'
  /-- It ends the transfer. -/
  | ends : t.chcr.dmaStarted = true → t.qwc = 0 → t.Ready → t' = t.setStateSuspended → NormalTurn t t'

/-- What `transfer_data` does for a channel with a FIFO. -/
theorem transferData_cases (h8 : t.channelId ≠ 8) (h9 : t.channelId ≠ 9) (hqwc : t.qwc ≠ 0) :
    Ensures (fun r => r = (0, t) ∧ ¬t.Ready ∨
      r.1 = 1 ∧ ∃ packet, packet.length = 16 ∧ Passes t r.2 packet ∧ Advances t r.2) t.transferData := by
  have hne (hfrom : t.chcr.direction = .FROM) : ¬t.chcr.direction = .TO := by rw [hfrom]; decide
  refine (dataMoved_transferData t).mono fun r h => ?_
  cases h with
  | spr hid => exact absurd hid (not_or.mpr ⟨h8, h9⟩)
  | starved hfrom hqueue havail =>
    refine .inl ⟨rfl, ?_⟩
    rw [Ready, if_neg hqwc, if_neg (hne hfrom), fifo_eq hqueue, ← DmaFifoQueue.hasReadAvailable_iff, havail]
    decide
  | @received queue queue' packet memory hfrom hqueue hread hwrite =>
    obtain ⟨hbytes, hlength⟩ := DmaFifoQueue.bytes_of_read hread
    refine .inr ⟨rfl, packet, hlength, ?_, ⟨rfl, rfl, rfl, rfl, rfl, rfl, rfl⟩⟩
    rw [Passes, if_neg (hne hfrom), fifo_eq hqueue]
    exact ⟨readQwordMemory_of_write hwrite, hbytes⟩
  | blocked hto hqueue hroom =>
    refine .inl ⟨rfl, ?_⟩
    rw [Ready, if_neg hqwc, if_pos hto, fifo_eq hqueue, ← DmaFifoQueue.hasWriteAvailable_iff, hroom]
    decide
  | @sent queue queue' q hto hqueue hread hwrite =>
    refine .inr ⟨rfl, bytes 16 q, length_bytes 16 q, ?_, ⟨rfl, rfl, rfl, rfl, rfl, rfl, rfl⟩⟩
    rw [Passes, if_pos hto, fifo_eq hqueue, ofBytes_bytes 16 q (by decide)]
    exact ⟨hread, DmaFifoQueue.bytes_of_write hwrite⟩

/-- A turn of a started channel in normal mode. -/
theorem normalTurn_channelTurn (h8 : t.channelId ≠ 8) (h9 : t.channelId ≠ 9) (hmod : mod.extractFrom t.chcr.w = 0)
    (hstr : str.extractFrom t.chcr.w ≠ 0) : Ensures (NormalTurn t) t.channelTurn := by
  have hmod' : (mod.extractFrom t.chcr.w).toNat = 0 := by rw [hmod]; rfl
  rw [channelTurn, if_pos hstr, hmod']
  change Ensures (NormalTurn t) t.transferNormal
  unfold transferNormal
  split_ifs with hfresh hzero hqwc hstall
  · exact .error _
  · exact .ok (.start (by simpa using hfresh) rfl)
  · have hstarted : t.chcr.dmaStarted = true := by simpa using hfresh
    intro t' h
    rw [suspendWhenEmpty] at h
    split_ifs at h with hto
    · obtain ⟨queue, hqueue, h⟩ := bind_eq_ok_iff.mp h
      have hqueue := deref_eq_ok_iff.mp hqueue
      by_cases hempty : queue.isEmpty = true
      · rw [hempty, if_neg (by decide)] at h
        refine .ends hstarted hqwc ?_ (Except.ok.inj h).symm
        rw [Ready, if_pos hqwc, fifo_eq hqueue]
        exact fun _ => DmaFifoQueue.isEmpty_iff.mp hempty
      · rw [Bool.not_eq_true] at hempty
        rw [hempty, if_pos (by decide)] at h
        refine .wait hstarted ?_ (Except.ok.inj h).symm
        rw [Ready, if_pos hqwc, fifo_eq hqueue, ← DmaFifoQueue.isEmpty_iff, hempty]
        exact fun hready => Bool.false_ne_true (hready hto.1)
    · refine .ends hstarted hqwc ?_ (Except.ok.inj h).symm
      rw [Ready, if_pos hqwc]
      exact fun hdir => absurd ⟨hdir, h9⟩ hto
  · exact .ok (.stall (by simpa using hfresh) hqwc hstall rfl)
  · have hstarted : t.chcr.dmaStarted = true := by simpa using hfresh
    refine (transferData_cases h8 h9 hqwc).bind fun r hr => ?_
    rcases hr with ⟨rfl, hready⟩ | ⟨hone, packet, hlength, hpasses, hadv⟩
    · exact .ok (.wait hstarted hready rfl)
    · dsimp only
      rw [hone, if_neg Nat.one_ne_zero]
      split_ifs
      · exact .ok (.qword hstarted hqwc hstall hlength hpasses
          ⟨hadv.channelId, hadv.chcr, hadv.madr, hadv.qwc, hadv.ctrl, hadv.stat, hadv.queue⟩)
      · exact .ok (.qword hstarted hqwc hstall hlength hpasses hadv)

/-- The address of the quadword at MADR on the bus. -/
def busAddress (t : EeDmacTurn) : Uptr := if t.transferSpr then 0x70000000 + t.transferAddress else t.transferAddress

/-- Moving a quadword throws only where MADR is outside of memory. -/
theorem exists_transferDataFifo {queue : DmaFifoQueue} (hqueue : t.dmaFifoQueue = some queue)
    (hmapped : t.memory.isMapped t.busAddress 16 = true) : ∃ r, t.transferDataFifo = .ok r := by
  rw [transferDataFifo, hqueue, deref_some, ok_bind]
  cases t.chcr.direction with
  | FROM =>
    dsimp only
    by_cases havail : queue.hasReadAvailable 16 = true
    · obtain ⟨m, hm⟩ := exists_writeQwordMemory hmapped (ofBytes 128 (queue.bytes.take 16))
      rw [havail, if_neg (by decide), DmaFifoQueue.read_eq (DmaFifoQueue.hasReadAvailable_iff.mp havail), ok_bind]
      dsimp only
      rw [hm, ok_bind]
      exact ⟨_, rfl⟩
    · rw [Bool.not_eq_true] at havail
      rw [havail, if_pos (by decide)]
      exact ⟨_, rfl⟩
  | TO =>
    dsimp only
    by_cases hroom : queue.hasWriteAvailable 16 = true
    · obtain ⟨q, hq⟩ := exists_readQwordMemory hmapped
      have hlength : (queue.bytes ++ bytes 16 q).length ≤ 1024 := by
        rw [List.length_append, length_bytes]
        exact DmaFifoQueue.hasWriteAvailable_iff.mp hroom
      rw [hroom, if_neg (by decide), hq, ok_bind, DmaFifoQueue.write_eq hlength, ok_bind]
      exact ⟨_, rfl⟩
    · rw [Bool.not_eq_true] at hroom
      rw [hroom, if_pos (by decide)]
      exact ⟨_, rfl⟩

/-- A turn throws only where MADR is outside of memory. -/
theorem exists_channelTurn (h8 : t.channelId ≠ 8) (h9 : t.channelId ≠ 9) (hmod : mod.extractFrom t.chcr.w = 0)
    (hqueue : t.dmaFifoQueue.isSome) (hqwc : t.chcr.dmaStarted = false → t.qwc ≠ 0)
    (hmapped : t.memory.isMapped t.busAddress 16 = true) : ∃ t', t.channelTurn = .ok t' := by
  obtain ⟨queue, hqueue⟩ := Option.isSome_iff_exists.mp hqueue
  have hsuspend : ∃ t', t.suspendWhenEmpty = .ok t' := by
    rw [suspendWhenEmpty, hqueue, deref_some, ok_bind]
    split_ifs <;> exact ⟨_, rfl⟩
  have hnormal : ∃ t', t.transferNormal = .ok t' := by
    unfold transferNormal
    split_ifs with hfresh hzero
    · exact absurd hzero (hqwc (by simpa using hfresh))
    · exact ⟨_, rfl⟩
    · exact hsuspend
    · exact ⟨_, rfl⟩
    · obtain ⟨r, hr⟩ := exists_transferDataFifo hqueue hmapped
      rw [transferData, if_neg (not_or.mpr ⟨h8, h9⟩), hr, ok_bind]
      dsimp only
      split_ifs <;> exact ⟨_, rfl⟩
  have hmod' : (mod.extractFrom t.chcr.w).toNat = 0 := by rw [hmod]; rfl
  rw [channelTurn, hmod']
  split_ifs
  · exact hnormal
  · exact ⟨_, rfl⟩

/-- A channel that is not started has no turn. -/
theorem channelTurn_of_idle (h : str.extractFrom t.chcr.w = 0) : t.channelTurn = .ok t := if_neg (not_not_intro h)

/-- The turn of a channel that waits for D_STADR. -/
theorem channelTurn_of_waits (hmod : mod.extractFrom t.chcr.w = 0) (hstr : str.extractFrom t.chcr.w ≠ 0)
    (hstarted : t.chcr.dmaStarted = true) (hqwc : t.qwc ≠ 0) (hwaits : t.Waits) :
    t.channelTurn = .ok t.setDmacStallControlSis := by
  have hmod' : (mod.extractFrom t.chcr.w).toNat = 0 := by rw [hmod]; rfl
  have hnormal : t.transferNormal = .ok t.setDmacStallControlSis := by
    rw [transferNormal, if_neg (by rw [hstarted]; decide), if_neg hqwc]
    exact if_pos hwaits
  rw [channelTurn, if_pos hstr, hmod', ← hnormal]
  rfl

/-- With STD = 0, VIF0 is taken for the drain. -/
theorem waits_iff (hstd : std.extractFrom t.ctrl = 0) :
    t.Waits ↔ t.channelId = 0 ∧ t.chcr.direction = .TO ∧ t.stadr < EeDmacAddr.addr.extractFrom t.madr + 8 := by
  have hmap : stdMap (std.extractFrom t.ctrl).toNat = 0 := by rw [hstd]; rfl
  rw [Waits, isDrainStallControlOn, isDrainStallControlWaiting, decide_eq_true_eq, decide_eq_true_eq, hmap,
    show (0 : ℕ) = (0 : Fin 10).val from rfl, Fin.val_inj]
  constructor
  · rintro ⟨⟨hdir, hid⟩, -, hpast⟩
    exact ⟨hid, hdir, hpast⟩
  · rintro ⟨hid, hdir, hpast⟩
    exact ⟨⟨hdir, hid⟩, hdir, hpast⟩

end EeDmacTurn

namespace EeDmac

open EeDmacTurn EeDmacChcr EeDmacCtrl

/-! ### Runs -/

/-- A quadword that a turn has moved. -/
structure Moved where
  /-- Its address. -/
  address : Uptr
  /-- Whether it is in the scratchpad. -/
  spr : Bool
  /-- The bytes that went through the FIFO. -/
  passed : List Ubyte
  /-- The quadword in memory, as it is when it is read or once it is written. -/
  memory : Except HostError Uqword

/-- A channel, and what is recorded of a run. -/
structure NormalRun where
  /-- The channel, and what the channels share. -/
  turn : EeDmacTurn
  /-- The quadwords moved. -/
  moved : List Moved
  /-- The bytes that the peripheral has taken or given. -/
  peripheral : List Ubyte
  /-- The turns of the started channel that found the peripheral ready. -/
  served : ℕ

namespace NormalRun

/-- A move of a run. -/
inductive Move where
  /-- A turn of the channel. -/
  | turn
  /-- The peripheral reads `n` bytes, or writes `bs`, as the direction says. -/
  | peripheral (n : ℕ) (bs : List Ubyte)
  /-- Anything else. -/
  | rest (f : EeDmacTurn → EeDmacTurn)

/-- The bytes that a turn has put into the FIFO, or taken from it. -/
def passed (t t' : EeDmacTurn) : List Ubyte :=
  if t.chcr.direction = .TO then t'.fifo.drop t.fifo.length else t.fifo.take (t.fifo.length - t'.fifo.length)

/-- The quadword that a turn has moved, if it has moved one. -/
def note (t t' : EeDmacTurn) : List Moved :=
  if passed t t' = [] then []
  else
    [{ address := t.transferAddress
       spr := t.transferSpr
       passed := passed t t'
       memory :=
        if t.chcr.direction = .TO then readQwordMemory t.memory t.transferAddress t.transferSpr
        else readQwordMemory t'.memory t.transferAddress t.transferSpr }]

/-- What `f` does, but to the channel and to D_CTRL. -/
def keeping (f : EeDmacTurn → EeDmacTurn) (t : EeDmacTurn) : EeDmacTurn :=
  { f t with toEeDmacChannel := t.toEeDmacChannel, ctrl := t.ctrl }

/-- What a move does. -/
def step : Move → NormalRun → Except HostError NormalRun
  | .turn, u => do
    let t ← u.turn.channelTurn
    return {
      turn := t
      moved := u.moved ++ note u.turn t
      peripheral := u.peripheral
      served := u.served + if str.extractFrom u.turn.chcr.w ≠ 0 ∧ u.turn.Ready then 1 else 0 }
  | .peripheral n bs, u => do
    let queue ← deref u.turn.dmaFifoQueue
    if u.turn.chcr.direction = .TO then
      let (taken, queue) ← queue.read n
      return { u with turn := { u.turn with dmaFifoQueue := some queue }, peripheral := u.peripheral ++ taken }
    else
      let queue ← queue.write bs
      return { u with turn := { u.turn with dmaFifoQueue := some queue }, peripheral := u.peripheral ++ bs }
  | .rest f, u => .ok { u with turn := keeping f u.turn }

/-- The start of a run. -/
def start (t : EeDmacTurn) : NormalRun := ⟨t, [], [], 0⟩

/-- A normal transfer of a channel with a FIFO has just been started, with stall control off. -/
structure Starts (s : EeDmacTurn) : Prop where
  /-- It is not the channel from the scratchpad, -/
  not8 : s.channelId ≠ 8
  /-- nor the one to it. -/
  not9 : s.channelId ≠ 9
  /-- The FIFO. -/
  queue : s.dmaFifoQueue.isSome
  /-- The direction is one that the register of the channel takes. -/
  forced : s.DirForced
  /-- The mode. -/
  mod : mod.extractFrom s.chcr.w = 0
  /-- `STR`. -/
  str : str.extractFrom s.chcr.w ≠ 0
  /-- As a write of CHCR leaves it. -/
  fresh : s.chcr.dmaStarted = false
  /-- There is something to move. -/
  qwc : s.qwc ≠ 0
  /-- The addresses do not wrap. -/
  unwrapped : s.transferAddress.toNat + 16 * s.qwc.toNat ≤ 2 ^ 29
  /-- No channel is the drain of stall control. -/
  std : std.extractFrom s.ctrl = 0
  /-- No channel is the source. -/
  sts : sts.extractFrom s.ctrl = 0

/-- What has gone through the FIFO has done so in order. -/
def InOrder (s : EeDmacTurn) (u : NormalRun) : Prop :=
  if s.chcr.direction = .TO then s.fifo ++ u.moved.flatMap Moved.passed = u.peripheral ++ u.turn.fifo
  else s.fifo ++ u.peripheral = u.moved.flatMap Moved.passed ++ u.turn.fifo

/-- The flag of the channel in D_STAT. -/
def cis (t : EeDmacTurn) : Bool := t.stat.getLsbD t.channelId

/-- What has been moved. -/
structure Moves (s : EeDmacTurn) (u : NormalRun) : Prop where
  /-- The quadwords at MADR, in order, -/
  addresses : u.moved.map Moved.address =
    (List.range u.moved.length).map fun k => s.transferAddress + BitVec.ofNat 32 (16 * k)
  /-- in memory or in the scratchpad, as MADR says. -/
  spr : ∀ m ∈ u.moved, m.spr = s.transferSpr
  /-- What went through the FIFO is the quadword in memory. -/
  inMemory : ∀ m ∈ u.moved, m.passed.length = 16 ∧ m.memory = .ok (ofBytes 128 m.passed)
  /-- In order. -/
  order : InOrder s u

/-- How a transfer that was started in `s` stands. -/
structure Stands (s : EeDmacTurn) (u : NormalRun) : Prop extends Moves s u where
  /-- No more than QWC quadwords are moved. -/
  atMost : u.moved.length ≤ s.qwc.toNat
  /-- Once the transfer has ended, so many have been moved; QWC is 0 then and MADR past them. -/
  ended : str.extractFrom u.turn.chcr.w = 0 → u.moved.length = s.qwc.toNat ∧ u.turn.qwc = 0 ∧
    u.turn.madr = s.madr + BitVec.ofNat 32 (16 * s.qwc.toNat)
  /-- It has ended once enough turns have found the peripheral ready. -/
  stops : s.qwc.toNat + 2 ≤ u.served → str.extractFrom u.turn.chcr.w = 0

/-- What a turn does. -/
structure Turns (s : EeDmacTurn) (u : NormalRun) : Prop where
  /-- It moves a quadword if one is left and the peripheral is ready. -/
  moves : ∀ u', step .turn u = .ok u' → str.extractFrom u.turn.chcr.w ≠ 0 → u.turn.chcr.dmaStarted = true →
    u.turn.qwc ≠ 0 → u.turn.Ready → u'.moved.length = u.moved.length + 1
  /-- If it ends the transfer it sets the flag, -/
  raises : ∀ u', step .turn u = .ok u' → str.extractFrom u.turn.chcr.w ≠ 0 → str.extractFrom u'.turn.chcr.w = 0 →
    cis u'.turn = true
  /-- and otherwise it does not; all has been moved then, and nothing is left in a FIFO written to. -/
  interrupts : ∀ u', step .turn u = .ok u' → cis u'.turn ≠ cis u.turn → str.extractFrom u'.turn.chcr.w = 0 ∧
    u'.moved.length = s.qwc.toNat ∧ (s.chcr.direction = .TO → u.turn.fifo = [] ∧ u'.turn.fifo = [])
  /-- It does not throw where there is memory. -/
  returns : u.turn.memory.isMapped u.turn.busAddress 16 = true → ∃ u', step .turn u = .ok u'

/-- At each move the transfer stands as it is meant to, and a turn does what it is meant to. -/
def Delivers (s : EeDmacTurn) (m : Move) (u : NormalRun) : Prop := Stands s u ∧ (m = .turn → Turns s u)

/-- No turn finds VIF0 with a quadword to send, room for it, and D_STADR not past it. -/
def Clear (m : Move) (u : NormalRun) : Prop :=
  m = .turn → str.extractFrom u.turn.chcr.w ≠ 0 → u.turn.chcr.dmaStarted = true → u.turn.qwc ≠ 0 → u.turn.Ready →
    u.turn.channelId = 0 → u.turn.chcr.direction = .TO → EeDmacAddr.addr.extractFrom u.turn.madr + 8 ≤ u.turn.stadr

variable {s t t' : EeDmacTurn} {u u' : NormalRun} {n : ℕ}

/-! ### What a move records -/

theorem note_of_fifo_eq (h : t'.fifo = t.fifo) : note t t' = [] := by
  have hpassed : passed t t' = [] := by
    rw [passed, h, Nat.sub_self, List.drop_length, List.take_zero, ite_self]
  rw [note, if_pos hpassed]

theorem note_of_passes {packet : List Ubyte} (hlen : packet.length = 16) (h : Passes t t' packet) :
    note t t' = [⟨t.transferAddress, t.transferSpr, packet, .ok (ofBytes 128 packet)⟩] := by
  have hne : packet ≠ [] := by
    rintro rfl
    cases hlen
  unfold Passes at h
  unfold note passed
  by_cases hdir : t.chcr.direction = .TO
  · rw [if_pos hdir] at h
    have hpassed : t'.fifo.drop t.fifo.length = packet := by rw [h.2, List.drop_left]
    rw [if_pos hdir, if_pos hdir, hpassed, if_neg hne, h.1]
  · rw [if_neg hdir] at h
    have hpassed : t.fifo.take (t.fifo.length - t'.fifo.length) = packet := by
      rw [h.2, List.length_append, Nat.add_sub_cancel, List.take_left]
    rw [if_neg hdir, if_neg hdir, hpassed, if_neg hne, h.1]

/-! ### The invariant -/

/-- Where a transfer is. -/
inductive Phase (s : EeDmacTurn) (u : NormalRun) : Prop where
  /-- It waits for its first turn. -/
  | fresh : str.extractFrom u.turn.chcr.w ≠ 0 → u.turn.chcr.dmaStarted = false → u.moved = [] →
      u.turn.madr = s.madr → u.turn.qwc = s.qwc → u.served = 0 → Phase s u
  /-- It moves quadwords. -/
  | going : str.extractFrom u.turn.chcr.w ≠ 0 → u.turn.chcr.dmaStarted = true →
      u.turn.qwc.toNat + u.moved.length = s.qwc.toNat →
      u.turn.madr = s.madr + BitVec.ofNat 32 (16 * u.moved.length) → u.served ≤ u.moved.length + 1 → Phase s u
  /-- It has ended. -/
  | ended : str.extractFrom u.turn.chcr.w = 0 → u.moved.length = s.qwc.toNat → u.turn.qwc = 0 →
      u.turn.madr = s.madr + BitVec.ofNat 32 (16 * s.qwc.toNat) → Phase s u

theorem Phase.going_of_started (h : Phase s u) (hstr : str.extractFrom u.turn.chcr.w ≠ 0)
    (hdma : u.turn.chcr.dmaStarted = true) : u.turn.qwc.toNat + u.moved.length = s.qwc.toNat ∧
      u.turn.madr = s.madr + BitVec.ofNat 32 (16 * u.moved.length) ∧ u.served ≤ u.moved.length + 1 := by
  cases h with
  | fresh _ hfresh => exact absurd (hfresh.symm.trans hdma) Bool.false_ne_true
  | going _ _ htotal hmadr hserved => exact ⟨htotal, hmadr, hserved⟩
  | ended hoff => exact absurd hoff hstr

theorem Phase.fresh_of_not_started (h : Phase s u) (hstr : str.extractFrom u.turn.chcr.w ≠ 0)
    (hfresh : u.turn.chcr.dmaStarted = false) :
    u.moved = [] ∧ u.turn.madr = s.madr ∧ u.turn.qwc = s.qwc ∧ u.served = 0 := by
  cases h with
  | fresh _ _ hmoved hmadr hqwc hserved => exact ⟨hmoved, hmadr, hqwc, hserved⟩
  | going _ hdma => exact absurd (hfresh.symm.trans hdma) Bool.false_ne_true
  | ended hoff => exact absurd hoff hstr

theorem Phase.ended_of_idle (h : Phase s u) (hstr : str.extractFrom u.turn.chcr.w = 0) :
    u.moved.length = s.qwc.toNat ∧ u.turn.qwc = 0 ∧ u.turn.madr = s.madr + BitVec.ofNat 32 (16 * s.qwc.toNat) := by
  cases h with
  | fresh hon => exact absurd hstr hon
  | going hon => exact absurd hstr hon
  | ended _ hmoved hqwc hmadr => exact ⟨hmoved, hqwc, hmadr⟩

/-- The transfer is under way, or it has ended. -/
structure Inv (s : EeDmacTurn) (u : NormalRun) : Prop extends Moves s u where
  /-- The number and the mode of the channel are as they were. -/
  mode : KeepsMode s u.turn
  /-- There is a FIFO. -/
  queue : u.turn.dmaFifoQueue.isSome
  /-- D_CTRL is as it was. -/
  ctrl : u.turn.ctrl = s.ctrl
  /-- Where it is. -/
  phase : Phase s u

theorem Starts.inv (h : Starts s) : Inv s (start s) where
  addresses := rfl
  spr _ hm := nomatch hm
  inMemory _ hm := nomatch hm
  order := by
    unfold InOrder
    split_ifs
    · exact List.append_nil _
    · exact List.append_nil _
  mode := .refl s
  queue := h.queue
  ctrl := rfl
  phase := .fresh h.str h.fresh rfl rfl rfl rfl

theorem Inv.mod (h : Starts s) (hinv : Inv s u) : EeDmacChcr.mod.extractFrom u.turn.chcr.w = 0 :=
  (hinv.mode.control EeDmacChcr.mod (by decide) (by decide) (by decide)).trans h.mod

theorem Inv.not8 (h : Starts s) (hinv : Inv s u) : u.turn.channelId ≠ 8 := hinv.mode.channelId ▸ h.not8

theorem Inv.not9 (h : Starts s) (hinv : Inv s u) : u.turn.channelId ≠ 9 := hinv.mode.channelId ▸ h.not9

theorem Inv.waits_iff (h : Starts s) (hinv : Inv s u) : u.turn.Waits ↔ u.turn.channelId = 0 ∧
    u.turn.chcr.direction = .TO ∧ u.turn.stadr < EeDmacAddr.addr.extractFrom u.turn.madr + 8 :=
  EeDmacTurn.waits_iff (hinv.ctrl ▸ h.std)

/-- The order is kept where nothing goes through the FIFO. -/
theorem InOrder.congr (h : InOrder s u) (hmoved : u'.moved = u.moved) (hperipheral : u'.peripheral = u.peripheral)
    (hfifo : u'.turn.fifo = u.turn.fifo) : InOrder s u' := by
  rw [InOrder, hmoved, hperipheral, hfifo]
  exact h

/-- A quadword that a turn moves goes through the FIFO in order. -/
theorem InOrder.qword {packet : List Ubyte} {m : Moved} (h : InOrder s u)
    (hdir : u.turn.chcr.direction = s.chcr.direction) (hpasses : Passes u.turn t packet) (hm : m.passed = packet)
    (served : ℕ) : InOrder s ⟨t, u.moved ++ [m], u.peripheral, served⟩ := by
  unfold Passes at hpasses
  rw [hdir] at hpasses
  unfold InOrder at h ⊢
  rw [List.flatMap_append, List.flatMap_singleton, hm]
  split_ifs at h hpasses ⊢
  · rw [hpasses.2, ← List.append_assoc, h, List.append_assoc]
  · rw [h, hpasses.2, List.append_assoc]

/-! ### A turn -/

/-- Whether a turn is counted. -/
theorem served_le (t : EeDmacTurn) (n : ℕ) :
    (n + if str.extractFrom t.chcr.w ≠ 0 ∧ t.Ready then 1 else 0) ≤ n + 1 := by
  split_ifs <;> omega

/-- A turn that moves nothing. -/
theorem Inv.quiet {served : ℕ} (hinv : Inv s u) (hmode : KeepsMode s t) (hqueue : t.dmaFifoQueue = u.turn.dmaFifoQueue)
    (hctrl : t.ctrl = u.turn.ctrl) (hphase : Phase s ⟨t, u.moved, u.peripheral, served⟩) :
    Inv s ⟨t, u.moved ++ note u.turn t, u.peripheral, served⟩ := by
  have hfifo : t.fifo = u.turn.fifo := by rw [fifo, hqueue, fifo]
  rw [note_of_fifo_eq hfifo, List.append_nil]
  exact ⟨⟨hinv.addresses, hinv.spr, hinv.inMemory, hinv.order.congr rfl rfl hfifo⟩, hmode, hqueue ▸ hinv.queue,
    hctrl.trans hinv.ctrl, hphase⟩

/-- What is left fits, so that the next address does not wrap. -/
theorem Inv.address (h : Starts s) (hgoing : u.turn.qwc.toNat + u.moved.length = s.qwc.toNat)
    (hmadr : u.turn.madr = s.madr + BitVec.ofNat 32 (16 * u.moved.length)) (hqwc : u.turn.qwc ≠ 0) :
    u.turn.transferAddress = s.transferAddress + BitVec.ofNat 32 (16 * u.moved.length) ∧
      u.turn.transferSpr = s.transferSpr := by
  have hpos : 0 < u.turn.qwc.toNat := Nat.pos_of_ne_zero fun h0 => hqwc (BitVec.eq_of_toNat_eq h0)
  have hfits := h.unwrapped
  exact transferAddress_add hmadr (by omega)

/-- A turn that moves a quadword. -/
theorem Inv.qword {packet : List Ubyte} {served : ℕ} (h : Starts s) (hinv : Inv s u)
    (hstr : str.extractFrom u.turn.chcr.w ≠ 0) (hstarted : u.turn.chcr.dmaStarted = true) (hqwc : u.turn.qwc ≠ 0)
    (hlen : packet.length = 16) (hpasses : Passes u.turn t packet) (hadv : Advances u.turn t)
    (hserved : served ≤ u.served + 1) : Inv s ⟨t, u.moved ++ note u.turn t, u.peripheral, served⟩ := by
  rw [note_of_passes hlen hpasses]
  obtain ⟨htotal, hmadr, hturns⟩ := hinv.phase.going_of_started hstr hstarted
  obtain ⟨haddress, hspr⟩ := Inv.address h htotal hmadr hqwc
  have hkeeps : KeepsMode u.turn t := ⟨hadv.channelId, hadv.chcr ▸ .refl _⟩
  have hphase : Phase s ⟨t, u.moved ++ [⟨u.turn.transferAddress, u.turn.transferSpr, packet, .ok (ofBytes 128 packet)⟩],
      u.peripheral, served⟩ := by
    refine .going ?_ ?_ ?_ ?_ ?_
    · rw [hadv.chcr]
      exact hstr
    · rw [hadv.chcr]
      exact hstarted
    · rw [hadv.qwc, List.length_append, List.length_singleton]
      have hpos : u.turn.qwc.toNat ≠ 0 := fun h0 => hqwc (BitVec.eq_of_toNat_eq h0)
      bv_omega
    · rw [hadv.madr, hmadr, List.length_append, List.length_singleton, Nat.mul_add, BitVec.ofNat_add, BitVec.add_assoc]
      rfl
    · rw [List.length_append, List.length_singleton]
      exact hserved.trans (by omega)
  exact ⟨⟨Run.map_concat_eq_range hinv.addresses haddress,
    List.forall_mem_append.mpr ⟨hinv.spr, List.forall_mem_singleton.mpr hspr⟩,
    List.forall_mem_append.mpr ⟨hinv.inMemory, List.forall_mem_singleton.mpr ⟨hlen, rfl⟩⟩,
    hinv.order.qword hinv.mode.direction hpasses rfl _⟩, hinv.mode.trans hkeeps, hadv.queue, hadv.ctrl.trans hinv.ctrl,
    hphase⟩

/-- The turn that ends the transfer. -/
theorem Inv.ends {served : ℕ} (h : Starts s) (hinv : Inv s u) (hstr : str.extractFrom u.turn.chcr.w ≠ 0)
    (hstarted : u.turn.chcr.dmaStarted = true) (hqwc : u.turn.qwc = 0) :
    Inv s ⟨u.turn.setStateSuspended, u.moved ++ note u.turn u.turn.setStateSuspended, u.peripheral, served⟩ := by
  obtain ⟨f240, heq⟩ := setStateSuspended_eq (hinv.mode.dirForced h.forced)
  have hkeeps : KeepsMode u.turn u.turn.setStateSuspended := by
    rw [heq]
    exact ⟨rfl, fun f h1 _ _ => Bitfield.extractFrom_insertInto_of_disjoint _ _ h1⟩
  obtain ⟨htotal, hmadr, -⟩ := hinv.phase.going_of_started hstr hstarted
  have hall : u.moved.length = s.qwc.toNat := by
    rw [hqwc] at htotal
    exact (Nat.zero_add _).symm.trans htotal
  refine hinv.quiet (hinv.mode.trans hkeeps) (by rw [heq]) (by rw [heq]) (.ended ?_ hall ?_ ?_)
  · rw [heq]
    exact (Bitfield.extractFrom_insertInto_self _ _ _ (by decide)).trans BitVec.zero_and
  · rw [heq]
    exact hqwc
  · rw [heq, ← hall]
    exact hmadr

/-- A turn that is not held back keeps the invariant. -/
theorem Inv.turn (h : Starts s) (hinv : Inv s u) (hclear : Clear .turn u) (hs : step .turn u = .ok u') : Inv s u' := by
  obtain ⟨t, hturn, heq⟩ := bind_eq_ok_iff.mp hs
  obtain rfl := Except.ok.inj heq
  have hle := served_le u.turn u.served
  by_cases hstr : str.extractFrom u.turn.chcr.w = 0
  · -- the transfer has ended
    obtain rfl := Except.ok.inj ((channelTurn_of_idle hstr).symm.trans hturn)
    obtain ⟨hmoved, hqwc, hmadr⟩ := hinv.phase.ended_of_idle hstr
    exact hinv.quiet hinv.mode rfl rfl (.ended hstr hmoved hqwc hmadr)
  cases normalTurn_channelTurn (hinv.not8 h) (hinv.not9 h) (hinv.mod h) hstr t hturn with
  | start hfresh ht =>
    subst ht
    obtain ⟨hmoved, hmadr, hqwc, hserved⟩ := hinv.phase.fresh_of_not_started hstr hfresh
    refine hinv.quiet ⟨hinv.mode.channelId, hinv.mode.control⟩ rfl rfl (.going hstr rfl ?_ ?_ ?_)
    · rw [hmoved, List.length_nil, Nat.add_zero]
      exact congrArg BitVec.toNat hqwc
    · rw [hmoved]
      exact hmadr.trans (by simp)
    · rw [hmoved, List.length_nil]
      exact hle.trans (by omega)
  | wait _ hready ht =>
    subst ht
    rw [if_neg (fun hon => hready hon.2), Nat.add_zero]
    exact hinv.quiet hinv.mode rfl rfl hinv.phase
  | stall hstarted hqwc hwaits ht =>
    subst ht
    have hready : ¬u.turn.Ready := by
      intro hready
      obtain ⟨hid, hdir, hpast⟩ := (hinv.waits_iff h).mp hwaits
      exact absurd (hclear rfl hstr hstarted hqwc hready hid hdir) (by rw [BitVec.not_le]; exact hpast)
    obtain ⟨htotal, hmadr, hserved⟩ := hinv.phase.going_of_started hstr hstarted
    rw [if_neg (fun hon => hready hon.2), Nat.add_zero]
    exact hinv.quiet ⟨hinv.mode.channelId, hinv.mode.control⟩ rfl rfl (.going hstr hstarted htotal hmadr hserved)
  | qword hstarted hqwc _ hlen hpasses hadv => exact hinv.qword h hstr hstarted hqwc hlen hpasses hadv hle
  | ends hstarted hqwc _ ht =>
    subst ht
    exact hinv.ends h hstr hstarted hqwc

/-! ### Other moves -/

theorem Phase.congr (h : Phase s u) (hchcr : u'.turn.chcr = u.turn.chcr) (hmadr : u'.turn.madr = u.turn.madr)
    (hqwc : u'.turn.qwc = u.turn.qwc) (hmoved : u'.moved = u.moved) (hserved : u'.served = u.served) : Phase s u' := by
  cases h with
  | fresh hon hfresh hnone hmadr' hqwc' hzero =>
    exact .fresh (hchcr ▸ hon) (hchcr ▸ hfresh) (hmoved.trans hnone) (hmadr.trans hmadr') (hqwc.trans hqwc')
      (hserved.trans hzero)
  | going hon hdma htotal hmadr' hle =>
    exact .going (hchcr ▸ hon) (hchcr ▸ hdma) (hmoved ▸ hqwc ▸ htotal) (hmoved ▸ hmadr.trans hmadr')
      (hmoved ▸ hserved ▸ hle)
  | ended hoff hall hqwc' hmadr' =>
    exact .ended (hchcr ▸ hoff) (hmoved ▸ hall) (hqwc.trans hqwc') (hmadr.trans hmadr')

/-- The peripheral keeps the invariant. -/
theorem Inv.peripheral {bs : List Ubyte} (hinv : Inv s u) (hs : step (.peripheral n bs) u = .ok u') : Inv s u' := by
  obtain ⟨queue, hqueue, hs⟩ := bind_eq_ok_iff.mp hs
  have hfifo := fifo_eq (deref_eq_ok_iff.mp hqueue)
  have horder := hinv.order
  unfold InOrder at horder
  split_ifs at hs with hdir
  · rw [if_pos (hinv.mode.direction.symm.trans hdir), hfifo] at horder
    obtain ⟨⟨taken, queue'⟩, hread, heq⟩ := bind_eq_ok_iff.mp hs
    obtain rfl := Except.ok.inj heq
    refine ⟨⟨hinv.addresses, hinv.spr, hinv.inMemory, ?_⟩, ⟨hinv.mode.channelId, hinv.mode.control⟩, rfl, hinv.ctrl,
      hinv.phase.congr rfl rfl rfl rfl rfl⟩
    rw [InOrder, if_pos (hinv.mode.direction.symm.trans hdir)]
    dsimp only
    rw [horder, (DmaFifoQueue.bytes_of_read hread).1, List.append_assoc]
    rfl
  · rw [if_neg (hinv.mode.direction ▸ hdir), hfifo] at horder
    obtain ⟨queue', hwrite, heq⟩ := bind_eq_ok_iff.mp hs
    obtain rfl := Except.ok.inj heq
    refine ⟨⟨hinv.addresses, hinv.spr, hinv.inMemory, ?_⟩, ⟨hinv.mode.channelId, hinv.mode.control⟩, rfl, hinv.ctrl,
      hinv.phase.congr rfl rfl rfl rfl rfl⟩
    rw [InOrder, if_neg (hinv.mode.direction ▸ hdir)]
    dsimp only
    rw [← List.append_assoc, horder, List.append_assoc, ← DmaFifoQueue.bytes_of_write hwrite]
    rfl

/-- So does anything else. -/
theorem Inv.rest {f : EeDmacTurn → EeDmacTurn} (hinv : Inv s u) (hs : step (.rest f) u = .ok u') : Inv s u' := by
  obtain rfl := Except.ok.inj hs
  exact ⟨⟨hinv.addresses, hinv.spr, hinv.inMemory, hinv.order.congr rfl rfl rfl⟩,
    ⟨hinv.mode.channelId, hinv.mode.control⟩, hinv.queue, hinv.ctrl, hinv.phase.congr rfl rfl rfl rfl rfl⟩

theorem Inv.step (h : Starts s) {m : Move} (hinv : Inv s u) (hclear : Clear m u) (hs : NormalRun.step m u = .ok u') :
    Inv s u' := by
  cases m with
  | turn => exact hinv.turn h hclear hs
  | peripheral n bs => exact hinv.peripheral hs
  | rest f => exact hinv.rest hs

/-! ### What holds at each move -/

theorem Inv.stands (hinv : Inv s u) : Stands s u where
  toMoves := hinv.toMoves
  atMost := by
    cases hinv.phase with
    | fresh _ _ hnone =>
      rw [hnone]
      exact Nat.zero_le _
    | going _ _ htotal => omega
    | ended _ hall => exact hall.le
  ended hoff := hinv.phase.ended_of_idle hoff
  stops hserved := by
    cases hinv.phase with
    | fresh _ _ _ _ _ hzero => omega
    | going _ _ htotal _ hle => omega
    | ended hoff => exact hoff

/-- A turn touches the flag of the channel only where it ends the transfer. -/
theorem cis_of_turn (h : Starts s) (hinv : Inv s u) (hs : step .turn u = .ok u') :
    (str.extractFrom u.turn.chcr.w ≠ 0 → str.extractFrom u'.turn.chcr.w = 0 → cis u'.turn = true) ∧
      (cis u'.turn ≠ cis u.turn → str.extractFrom u'.turn.chcr.w = 0 ∧
        (s.chcr.direction = .TO → u.turn.fifo = [] ∧ u'.turn.fifo = [])) := by
  obtain ⟨t, hturn, heq⟩ := bind_eq_ok_iff.mp hs
  obtain rfl := Except.ok.inj heq
  have hlt := u.turn.channelId.isLt
  have hkept {t : EeDmacTurn} (hstr : str.extractFrom t.chcr.w = str.extractFrom u.turn.chcr.w)
      (hcis : cis t = cis u.turn) :
      (str.extractFrom u.turn.chcr.w ≠ 0 → str.extractFrom t.chcr.w = 0 → cis t = true) ∧
        (cis t ≠ cis u.turn → str.extractFrom t.chcr.w = 0 ∧
          (s.chcr.direction = .TO → u.turn.fifo = [] ∧ t.fifo = [])) :=
    ⟨fun hon hoff => absurd (hstr.symm.trans hoff) hon, fun hne => absurd hcis hne⟩
  by_cases hstr : str.extractFrom u.turn.chcr.w = 0
  · obtain rfl := Except.ok.inj ((channelTurn_of_idle hstr).symm.trans hturn)
    exact hkept rfl rfl
  cases normalTurn_channelTurn (hinv.not8 h) (hinv.not9 h) (hinv.mod h) hstr t hturn with
  | start _ ht => exact ht ▸ hkept rfl rfl
  | wait _ _ ht => exact ht ▸ hkept rfl rfl
  | stall _ _ _ ht =>
    refine ht ▸ hkept rfl ?_
    rw [cis, cis, setDmacStallControlSis, EeDmacStat.sis, Bitfield.getLsbD_insertInto_bit _ _ _ (by omega),
      decide_eq_false (by omega), Bool.false_or]
  | qword _ _ _ _ _ hadv =>
    refine hkept (by rw [hadv.chcr]) ?_
    rw [cis, cis, hadv.stat, hadv.channelId]
  | ends _ hqwc hready ht =>
    obtain ⟨f240, heq⟩ := setStateSuspended_eq (hinv.mode.dirForced h.forced)
    rw [heq] at ht
    subst ht
    refine ⟨fun _ _ => ?_, fun _ => ⟨?_, fun hdir => ?_⟩⟩
    · rw [cis, EeDmacStat.cis, Bitfield.getLsbD_insertInto_bit _ _ _ (by omega)]
      simp
    · exact (Bitfield.extractFrom_insertInto_self _ _ _ (by decide)).trans BitVec.zero_and
    · rw [Ready, if_pos hqwc] at hready
      have hempty := hready (hinv.mode.direction.trans hdir)
      exact ⟨hempty, hempty⟩

/-- A turn that is not held back does what it is meant to. -/
theorem Inv.turns (h : Starts s) (hinv : Inv s u) (hclear : Clear .turn u) : Turns s u where
  moves u' hs hstr hstarted hqwc hready := by
    obtain ⟨t, hturn, heq⟩ := bind_eq_ok_iff.mp hs
    obtain rfl := Except.ok.inj heq
    cases normalTurn_channelTurn (hinv.not8 h) (hinv.not9 h) (hinv.mod h) hstr t hturn with
    | start hfresh => exact absurd (hfresh.symm.trans hstarted) Bool.false_ne_true
    | wait _ hwait => exact absurd hready hwait
    | stall _ _ hwaits =>
      obtain ⟨hid, hdir, hpast⟩ := (hinv.waits_iff h).mp hwaits
      exact absurd (hclear rfl hstr hstarted hqwc hready hid hdir) (by rw [BitVec.not_le]; exact hpast)
    | qword _ _ _ hlen hpasses _ => rw [note_of_passes hlen hpasses, List.length_append, List.length_singleton]
    | ends _ hzero => exact absurd hzero hqwc
  raises u' hs := (cis_of_turn h hinv hs).1
  interrupts u' hs hne := by
    obtain ⟨hoff, hempty⟩ := (cis_of_turn h hinv hs).2 hne
    exact ⟨hoff, ((hinv.turn h hclear hs).stands.ended hoff).1, hempty⟩
  returns hmapped := by
    have hqwc : u.turn.chcr.dmaStarted = false → u.turn.qwc ≠ 0 ∨ EeDmacChcr.str.extractFrom u.turn.chcr.w = 0 := by
      intro hfresh
      cases hinv.phase with
      | fresh _ _ _ _ hqwc => exact .inl (hqwc ▸ h.qwc)
      | going _ hdma => exact absurd (hfresh.symm.trans hdma) Bool.false_ne_true
      | ended hoff => exact .inr hoff
    have hreturns : ∃ t, u.turn.channelTurn = .ok t := by
      by_cases hstr : EeDmacChcr.str.extractFrom u.turn.chcr.w = 0
      · exact ⟨_, channelTurn_of_idle hstr⟩
      · exact exists_channelTurn (hinv.not8 h) (hinv.not9 h) (hinv.mod h) hinv.queue
          (fun hfresh => (hqwc hfresh).resolve_right hstr) hmapped
    obtain ⟨t, ht⟩ := hreturns
    exact ⟨_, bind_eq_ok_iff.mpr ⟨t, ht, rfl⟩⟩

/-- A turn that is held back does not. -/
theorem clear_of_turns (h : Starts s) (hinv : Inv s u) (hturns : Turns s u) : Clear .turn u := by
  intro _ hstr hstarted hqwc hready hid hdir
  by_contra hpast
  rw [BitVec.not_le] at hpast
  have hturn := channelTurn_of_waits (hinv.mod h) hstr hstarted hqwc ((hinv.waits_iff h).mpr ⟨hid, hdir, hpast⟩)
  have hmoves := hturns.moves _ (bind_eq_ok_iff.mpr ⟨_, hturn, rfl⟩) hstr hstarted hqwc hready
  have hnone : note u.turn u.turn.setDmacStallControlSis = [] := note_of_fifo_eq rfl
  rw [hnone, List.append_nil] at hmoves
  exact absurd hmoves (Nat.ne_of_lt (Nat.lt_succ_self _))

theorem delivers_iff_clear (h : Starts s) (m : Move) (hinv : Inv s u) : Delivers s m u ↔ Clear m u := by
  constructor
  · rintro ⟨-, hturns⟩ rfl
    exact clear_of_turns h hinv (hturns rfl) rfl
  · intro hclear
    exact ⟨hinv.stands, fun hm => hinv.turns h (hm ▸ hclear)⟩

/-- Whatever the peripheral does and whatever happens besides, a transfer goes as it is meant to if and only if no turn
of VIF0 is held back. -/
theorem delivers_throughout_iff (h : Starts s) (ms : List Move) :
    Run.Always step (Delivers s) ms (start s) ↔ Run.Always step Clear ms (start s) :=
  Run.always_iff_of_keeps (fun _ _ _ hinv hclear hs => hinv.step h hclear hs) (fun m _ => delivers_iff_clear h m) h.inv

/-- VIF0 just started on two quadwords at 0x1000. -/
def vif0 (stadr : Uword) : EeDmacTurn where
  ctrl := 1
  stat := 0
  stadr := stadr
  sbusF240 := 0
  memory := ⟨fun _ => true, fun _ => 0⟩
  channelId := 0
  dmaFifoQueue := some .empty
  madr := 0x1000
  qwc := 2
  chcr := ⟨0x101, false, false, false, false, .blank⟩
  tadr := none
  asr := none
  sadr := none

theorem starts_vif0 (stadr : Uword) : Starts (vif0 stadr) where
  not8 := show (0 : Fin 10) ≠ 8 by decide
  not9 := show (0 : Fin 10) ≠ 9 by decide
  queue := rfl
  forced := ⟨fun h => absurd h (show (0 : Fin 10) ≠ 5 by decide), fun h => absurd h (show (0 : Fin 10) ≠ 6 by decide)⟩
  mod := show EeDmacChcr.mod.extractFrom 0x101 = 0 by decide
  str := show EeDmacChcr.str.extractFrom 0x101 ≠ 0 by decide
  fresh := rfl
  qwc := show (2 : Uword) ≠ 0 by decide
  unwrapped := by
    rw [toNat_transferAddress]
    exact show (0x1000 : Uword).toNat / 16 % 2 ^ 25 * 16 + 16 * (2 : Uword).toNat ≤ 2 ^ 29 by decide
  std := show EeDmacCtrl.std.extractFrom 1 = 0 by decide
  sts := show EeDmacCtrl.sts.extractFrom 1 = 0 by decide

/-- Four turns and a read of the peripheral, with D_STADR past the quadwords. -/
theorem delivers_throughout_iff_vif0 :
    Run.Always step (Delivers (vif0 0x1018)) [.turn, .turn, .turn, .peripheral 32 [], .turn] (start (vif0 0x1018)) ↔
      Run.Always step Clear [.turn, .turn, .turn, .peripheral 32 [], .turn] (start (vif0 0x1018)) :=
  delivers_throughout_iff (starts_vif0 0x1018) _

/-- With D_STADR clear, as without stall control, nothing is ever moved. -/
theorem vif0_held : Starts (vif0 0) ∧ ¬∀ ms, Run.Always step (Delivers (vif0 0)) ms (start (vif0 0)) := by
  have hrun : ∃ u, step .turn (start (vif0 0)) = .ok u ∧ (∃ u', step .turn u = .ok u' ∧ u'.moved.length = 0) ∧
      str.extractFrom u.turn.chcr.w ≠ 0 ∧ u.turn.chcr.dmaStarted = true ∧ u.turn.qwc ≠ 0 ∧ u.turn.Ready := by
    decide +kernel
  obtain ⟨u, hu, ⟨u', hu', hnone⟩, hstr, hstarted, hqwc, hready⟩ := hrun
  refine ⟨starts_vif0 0, fun hall => ?_⟩
  obtain ⟨-, hrest⟩ := hall [.turn, .turn]
  have hmoves := ((hrest u hu).1.2 rfl).moves u' hu' hstr hstarted hqwc hready
  rw [hnone] at hmoves
  cases hmoves

/-! ### Ticks are runs -/

/-- A tick is a run. -/
theorem exists_moves_of_timeStep {d d' : EeDmac} {i : Fin 10} (hd : d.Numbered) (h : d.timeStep = .ok d')
    (hu : u.turn = d.turn i) : ∃ ms u', Run.run step ms u = .ok u' ∧ u'.turn = d'.turn i := by
  by_cases hdmae : EeDmacCtrl.dmae.extractFrom d.ctrl = 0
  · rw [timeStep, if_pos hdmae] at h
    obtain rfl := Except.ok.inj h
    exact ⟨[], u, rfl, hu⟩
  · obtain ⟨d₁, t, -, h₁, hturn, h₂⟩ := timeStep_ok (i := i) hdmae hd h
    have hrest {e e' : EeDmac} (hchannel : e'.channels i = e.channels i) (hctrl : e'.ctrl = e.ctrl) :
        keeping (fun _ => e'.turn i) (e.turn i) = e'.turn i := by
      rw [keeping, EeDmac.turn, EeDmac.turn, hchannel, ← hctrl]
    have hself : t = (d₁.setTurn i t).turn i := by
      rw [EeDmac.turn, channels_setTurn_self]
      rfl
    have hfirst : step (.rest fun _ => d₁.turn i) u = .ok { u with turn := d₁.turn i } := by
      rw [step, hu, hrest h₁.channel h₁.ctrl]
    have hlast (u : NormalRun) (hu : u.turn = t) :
        step (.rest fun _ => d'.turn i) u = .ok { u with turn := d'.turn i } := by
      rw [step, hu, hself, hrest h₂.channel h₂.ctrl]
    exact ⟨[.rest fun _ => d₁.turn i, .turn, .rest fun _ => d'.turn i], _, Run.run_cons_ok.mpr ⟨_, hfirst,
      Run.run_cons_ok.mpr ⟨_, bind_eq_ok_iff.mpr ⟨t, hturn, rfl⟩, Run.run_cons_ok.mpr ⟨_, hlast _ rfl, rfl⟩⟩⟩, rfl⟩

end NormalRun

end EeDmac

end Orbum
