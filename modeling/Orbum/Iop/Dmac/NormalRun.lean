import Orbum.Iop.Dmac.ChainTurn
import Orbum.Iop.Dmac.Interrupts
import Orbum.Lib.Run

/-!
# Normal transfers of the IOP DMAC

A burst transfer is meant to move BS words and a slice transfer BA blocks of BS words, where a count of 0 stands for
`0x10000`. `calculate` forms the product in 32 bits, where `0x10000` blocks of `0x10000` words are none.

## The model

A move is a turn of the channel, a read or write of its peripheral, or anything else that leaves the channel and its
queue alone, such as the turns of the other channels: `exists_moves_of_timeStep` shows that a tick is a run. The words
that turns move are recorded beside the controller, with what the peripheral has taken or given, and how many turns
found it ready.
-/

namespace Orbum

open LittleEndian

namespace IopDmac

/-! ### How many words -/

/-- A count that a field of BCR stands for. -/
def count (n : Uword) : ℕ := if n = 0 then 0x10000 else n.toNat

/-- How many words a transfer is meant to move. -/
def words (useBlocks : Bool) (bcr : Uword) : ℕ :=
  if useBlocks then count (IopDmacChannel.ba.extractFrom bcr) * count (IopDmacChannel.bs.extractFrom bcr)
  else count (IopDmacChannel.bs.extractFrom bcr)

/-- The largest slice transfer. -/
def Largest (useBlocks : Bool) (bcr : Uword) : Prop :=
  useBlocks = true ∧ IopDmacChannel.ba.extractFrom bcr = 0 ∧ IopDmacChannel.bs.extractFrom bcr = 0

theorem toNat_orMax (n : Uword) : (IopDmacChannel.orMax n).toNat = count n := by
  have hpos : n > 0 ↔ n ≠ 0 := by
    rw [gt_iff_lt, BitVec.lt_def, Ne, BitVec.toNat_eq]
    exact Nat.pos_iff_ne_zero
  unfold IopDmacChannel.orMax count
  by_cases h : n = 0
  · rw [if_neg (fun hgt => hpos.mp hgt h), if_pos h]
    rfl
  · rw [if_pos (hpos.mpr h), if_neg h]

theorem count_le (f : Bitfield) (hf : f.length = 16) (bcr : Uword) :
    count (f.extractFrom bcr) ≤ 0x10000 ∧ (f.extractFrom bcr ≠ 0 → count (f.extractFrom bcr) < 0x10000) := by
  have hlt : (f.extractFrom bcr).toNat < 2 ^ f.length := Bitfield.toNat_extractFrom_lt f bcr
  rw [hf] at hlt
  unfold count
  split_ifs with h
  · exact ⟨Nat.le_refl _, fun hne => absurd h hne⟩
  · exact ⟨Nat.le_of_lt hlt, fun _ => hlt⟩

theorem words_of_largest {useBlocks : Bool} {bcr : Uword} (h : Largest useBlocks bcr) : words useBlocks bcr = 2 ^ 32 := by
  obtain ⟨rfl, hba, hbs⟩ := h
  rw [words, if_pos rfl, hba, hbs]
  rfl

/-- The length is what is meant, modulo `2 ^ 32`. -/
theorem calculate_eq (useBlocks : Bool) (bcr : Uword) :
    IopDmacChannel.calculate useBlocks bcr = words useBlocks bcr % 2 ^ 32 := by
  have hbs := (count_le IopDmacChannel.bs rfl bcr).1
  unfold IopDmacChannel.calculate words
  split_ifs
  · rw [BitVec.toNat_mul, toNat_orMax, toNat_orMax]
  · rw [toNat_orMax, Nat.mod_eq_of_lt (by omega)]

theorem words_lt {useBlocks : Bool} {bcr : Uword} (h : ¬Largest useBlocks bcr) : words useBlocks bcr < 2 ^ 32 := by
  have hba := count_le IopDmacChannel.ba rfl bcr
  have hbs := count_le IopDmacChannel.bs rfl bcr
  unfold words
  split_ifs with hblocks
  · by_cases h0 : IopDmacChannel.ba.extractFrom bcr = 0
    · have hlt := hbs.2 fun hbs0 => h ⟨hblocks, h0, hbs0⟩
      have hmul := Nat.mul_le_mul hba.1 (Nat.le_of_lt_succ hlt)
      omega
    · have hmul := Nat.mul_le_mul (Nat.le_of_lt_succ (hba.2 h0)) hbs.1
      omega
  · omega

/-! ### A turn -/

/-- The peripheral is ready: it has taken everything, or given a word. -/
def Ready (k : Fin 13) (s : IopDmac) : Prop :=
  match (s.channels k).chcr.direction with
  | .TO => (s.fifo (dmaFifoQueue k)).bytes = []
  | .FROM => 4 ≤ (s.fifo (dmaFifoQueue k)).bytes.length

instance (k : Fin 13) (s : IopDmac) : Decidable (Ready k s) := by
  unfold Ready
  cases (s.channels k).chcr.direction with
  | FROM => exact inferInstanceAs (Decidable (_ ≤ _))
  | TO => exact inferInstanceAs (Decidable (_ = _))

/-- The word at MADR that a turn moves. -/
def Passes (k : Fin 13) (s s' : IopDmac) (packet : List Ubyte) : Prop :=
  match (s.channels k).chcr.direction with
  | .TO => s.memory.read (s.channels k).madr 4 = .ok packet ∧
      (s'.fifo (dmaFifoQueue k)).bytes = (s.fifo (dmaFifoQueue k)).bytes ++ packet
  | .FROM => s'.memory.read (s.channels k).madr 4 = .ok packet ∧
      (s.fifo (dmaFifoQueue k)).bytes = packet ++ (s'.fifo (dmaFifoQueue k)).bytes

/-- What a turn of a normal transfer does. -/
inductive NormalTurn (useBlocks : Bool) (k : Fin 13) (s s' : IopDmac) : Prop where
  /-- Nothing. -/
  | stay : s' = s → (s.isChannelEnabled k = true → ¬Ready k s ∧ (s.channels k).chcr.dmaStarted = true) → NormalTurn useBlocks k s s'
  /-- It starts the transfer. -/
  | start : (s.channels k).chcr.dmaStarted = false →
      s' = s.startTransfer k (IopDmacChannel.calculate useBlocks (s.channels k).bcr) → NormalTurn useBlocks k s s'
  /-- It moves a word. -/
  | word {packet : List Ubyte} : (s.channels k).chcr.dmaStarted = true → 0 < (s.channels k).transferLength →
      packet.length = 4 → Passes k s s' packet → s'.channels k = (s.channels k).advance → s'.icr0 = s.icr0 →
      s'.icr1 = s.icr1 → NormalTurn useBlocks k s s'
  /-- It ends the transfer. -/
  | ends : (s.channels k).chcr.dmaStarted = true → (s.channels k).transferLength = 0 → s' = s.setStateSuspended k →
      NormalTurn useBlocks k s s'

variable {s s' : IopDmac} {k : Fin 13} {useBlocks : Bool}

/-- A word is read from memory as it is there. -/
theorem read_of_readUword {m : Memory} {address : Uptr} {value : Uword} (h : m.readUword address = .ok value) :
    m.read address 4 = .ok (bytes 4 value) := by
  obtain ⟨bs, hbs, hvalue⟩ := bind_eq_ok_iff.mp h
  obtain rfl := Except.ok.inj hvalue
  have hlen : bs.length = 4 := by
    unfold Memory.read at hbs
    split_ifs at hbs
    rw [← Except.ok.inj hbs, List.length_map, List.length_range]
  rw [hbs, bytes_ofBytes hlen (by decide)]

/-- A word that was written is there. -/
theorem read_of_writeUword {m m' : Memory} {address : Uptr} {bs : List Ubyte} (hlen : bs.length = 4)
    (h : m.writeUword address (ofBytes 32 bs) = .ok m') : m'.read address 4 = .ok bs := by
  rw [Memory.writeUword, bytes_ofBytes hlen (by decide)] at h
  have hread := Memory.read_of_write h (by omega)
  rwa [hlen] at hread

theorem normalTurn_dataMoved (hdma : (s.channels k).chcr.dmaStarted = true)
    (hleft : 0 < (s.channels k).transferLength) (h : DataMoved s k s') : NormalTurn useBlocks k s s' := by
  cases h with
  | starved hfrom havail =>
    refine .stay rfl fun _ => ⟨?_, hdma⟩
    rw [DmaFifoQueue.hasReadAvailable_iff] at havail
    rw [Ready, hfrom]
    exact havail
  | @received packet q memory hfrom hread hwrite =>
    obtain ⟨hbytes, hlength⟩ := DmaFifoQueue.bytes_of_read hread
    have hicr := Interrupts.icr_setFifo
      { s with memory, stored := if k = 12 then s.stored ++ packet else s.stored } (dmaFifoQueue k) q
    refine .word hdma hleft hlength ?_ (channels_moved ..) hicr.1 hicr.2
    rw [Passes, hfrom]
    dsimp only
    rw [memory_moved, fifo_moved]
    exact ⟨read_of_writeUword hlength hwrite, hbytes⟩
  | blocked hto hroom =>
    refine .stay rfl fun _ => ⟨?_, hdma⟩
    rw [DmaFifoQueue.hasWriteAvailable_iff] at hroom
    rw [Ready, hto]
    intro hnil
    dsimp only at hnil
    rw [hnil] at hroom
    exact hroom (by decide)
  | @sent packet q hto hread hwrite =>
    have hicr := Interrupts.icr_setFifo
      { s with read := if k = 11 then s.read ++ bytes 4 packet else s.read } (dmaFifoQueue k) q
    refine .word hdma hleft (length_bytes 4 packet) ?_ (channels_moved ..) hicr.1 hicr.2
    rw [Passes, hto]
    dsimp only
    rw [fifo_moved]
    exact ⟨read_of_readUword hread, DmaFifoQueue.bytes_of_write hwrite⟩

/-- The mode that makes a transfer one of these. -/
def Normal (useBlocks : Bool) (c : IopDmacChcr) : Prop :=
  c.logicalMode = if useBlocks then .normalSlice else .normalBurst

instance (useBlocks : Bool) (c : IopDmacChcr) : Decidable (Normal useBlocks c) := inferInstanceAs (Decidable (_ = _))

/-- A turn of a started channel. -/
theorem normalTurn_turn (hmode : Normal useBlocks (s.channels k).chcr) (hstarted : (s.channels k).chcr.started = true) :
    Ensures (NormalTurn useBlocks k s) (s.turn k) := by
  have hnot (h : (s.channels k).chcr.logicalMode = .chain) : False := by
    rw [Normal, h] at hmode
    cases useBlocks <;> cases hmode
  refine ensures_turn s k (fun hoff => .stay rfl fun henabled => absurd ⟨henabled, hstarted⟩ hoff) fun _ _ s' h => ?_
  cases h with
  | @startNormal useBlocks' hmode' hfresh =>
    obtain rfl : useBlocks' = useBlocks := by
      have h := hmode'.symm.trans hmode
      cases useBlocks' <;> cases useBlocks <;> first | rfl | cases h
    exact .start hfresh rfl
  | startChain hchain => exact (hnot hchain).elim
  | data hdma hleft hdata => exact normalTurn_dataMoved hdma hleft hdata
  | ends hdma hleft =>
    unfold finish
    split_ifs with hwaits
    · refine .stay rfl fun _ => ⟨?_, hdma⟩
      rw [Ready, hwaits.1]
      exact fun hnil => hwaits.2 (DmaFifoQueue.isEmpty_iff.mpr hnil)
    · exact .ends hdma hleft rfl
  | tag hchain => exact (hnot hchain).elim

/-- A channel that is not started has no turn. -/
theorem turn_of_not_started (h : (s.channels k).chcr.started = false) : s.turn k = .ok s := by
  refine if_neg fun hon => ?_
  rw [h] at hon
  exact Bool.false_ne_true hon.2

/-- A turn throws only where MADR is outside of memory. -/
theorem exists_turn (hmode : Normal useBlocks (s.channels k).chcr) (hmapped : s.memory.isMapped (s.channels k).madr 4) :
    ∃ s', s.turn k = .ok s' := by
  have hdata : ∃ s', s.transferData k = .ok s' := by
    rw [transferData]
    cases (s.channels k).chcr.direction with
    | FROM =>
      dsimp only
      by_cases havail : (s.fifo (dmaFifoQueue k)).hasReadAvailable 4 = true
      · rw [if_neg (not_not_intro havail), DmaFifoQueue.read_eq (DmaFifoQueue.hasReadAvailable_iff.mp havail), ok_bind]
        have hwrite : s.memory.writeUword (s.channels k).madr (ofBytes 32 ((s.fifo (dmaFifoQueue k)).bytes.take 4)) =
            .ok _ := if_pos (by rw [length_bytes]; exact hmapped)
        rw [hwrite, ok_bind]
        exact ⟨_, rfl⟩
      · rw [if_pos havail]
        exact ⟨_, rfl⟩
    | TO =>
      dsimp only
      by_cases hroom : (s.fifo (dmaFifoQueue k)).hasWriteAvailable 4 = true
      · have hread : s.memory.read (s.channels k).madr 4 = .ok _ := if_pos hmapped
        have hroom' (packet : Uword) : ((s.fifo (dmaFifoQueue k)).bytes ++ bytes 4 packet).length ≤ 1024 := by
          rw [List.length_append, length_bytes]
          exact DmaFifoQueue.hasWriteAvailable_iff.mp hroom
        rw [if_neg (not_not_intro hroom), Memory.readUword, hread, ok_bind, pure_eq_ok, ok_bind,
          DmaFifoQueue.write_eq (hroom' _), ok_bind]
        exact ⟨_, rfl⟩
      · rw [if_pos hroom]
        exact ⟨_, rfl⟩
  have hnormal : ∃ s', s.transferNormal k useBlocks = .ok s' := by
    unfold transferNormal
    split_ifs
    · exact ⟨_, rfl⟩
    · exact hdata
    · exact ⟨_, rfl⟩
  unfold turn
  split_ifs
  · rw [hmode]
    cases useBlocks with
    | false => exact hnormal
    | true => exact hnormal
  · exact ⟨_, rfl⟩

/-! ### Runs -/

/-- A word that a turn has moved. -/
structure Moved where
  /-- MADR. -/
  address : Uword
  /-- The bytes that went through the queue. -/
  passed : List Ubyte
  /-- The word in memory, as it is when it is read or once it is written. -/
  memory : Except HostError (List Ubyte)

/-- The controller, and what is recorded of a run. -/
structure NormalRun where
  /-- The controller. -/
  dmac : IopDmac
  /-- The words moved. -/
  moved : List Moved
  /-- The bytes that the peripheral has taken or given. -/
  peripheral : List Ubyte
  /-- The turns of the enabled channel that found the peripheral ready. -/
  served : ℕ

namespace NormalRun

/-- A move of a run. -/
inductive Move where
  /-- A turn of the channel. -/
  | turn
  /-- The peripheral reads `n` bytes, or writes `bs`, as the direction says. -/
  | peripheral (n : ℕ) (bs : List Ubyte)
  /-- Anything else. -/
  | rest (f : IopDmac → IopDmac)

/-- The bytes in the queue of the channel. -/
def queue (k : Fin 13) (s : IopDmac) : List Ubyte := (s.fifo (dmaFifoQueue k)).bytes

/-- The bytes that a turn has put into the queue, or taken from it. -/
def passed (k : Fin 13) (s s' : IopDmac) : List Ubyte :=
  match (s.channels k).chcr.direction with
  | .TO => (queue k s').drop (queue k s).length
  | .FROM => (queue k s).take ((queue k s).length - (queue k s').length)

/-- The word that a turn has moved, if it has moved one. -/
def note (k : Fin 13) (s s' : IopDmac) : List Moved :=
  if passed k s s' = [] then []
  else
    [{ address := (s.channels k).madr
       passed := passed k s s'
       memory :=
        match (s.channels k).chcr.direction with
        | .TO => s.memory.read (s.channels k).madr 4
        | .FROM => s'.memory.read (s.channels k).madr 4 }]

/-- What `f` does, but to the channel and its queue. -/
def keeping (k : Fin 13) (f : IopDmac → IopDmac) (s : IopDmac) : IopDmac :=
  ((f s).setChannel k (s.channels k)).setFifo (dmaFifoQueue k) (s.fifo (dmaFifoQueue k))

/-- What a move does. -/
def step (k : Fin 13) : Move → NormalRun → Except HostError NormalRun
  | .turn, u => do
    let s ← u.dmac.turn k
    return {
      dmac := s
      moved := u.moved ++ note k u.dmac s
      peripheral := u.peripheral
      served := u.served + if u.dmac.isChannelEnabled k = true ∧ Ready k u.dmac then 1 else 0 }
  | .peripheral n bs, u =>
    match (u.dmac.channels k).chcr.direction with
    | .TO => do
      let (taken, q) ← (u.dmac.fifo (dmaFifoQueue k)).read n
      return { u with dmac := u.dmac.setFifo (dmaFifoQueue k) q, peripheral := u.peripheral ++ taken }
    | .FROM => do
      let q ← (u.dmac.fifo (dmaFifoQueue k)).write bs
      return { u with dmac := u.dmac.setFifo (dmaFifoQueue k) q, peripheral := u.peripheral ++ bs }
  | .rest f, u => .ok { u with dmac := keeping k f u.dmac }

/-- The start of a run. -/
def start (s : IopDmac) : NormalRun := ⟨s, [], [], 0⟩

/-- A normal transfer of the channel has just been started. -/
structure Starts (useBlocks : Bool) (k : Fin 13) (s : IopDmac) : Prop where
  /-- The mode. -/
  mode : Normal useBlocks (s.channels k).chcr
  /-- The direction is one that the register of the channel takes. -/
  forced : DirForced k (s.channels k).chcr
  /-- START. -/
  started : (s.channels k).chcr.started = true
  /-- As a write of CHCR leaves it. -/
  fresh : (s.channels k).chcr.dmaStarted = false

/-- What has gone through the queue has done so in order. -/
def InOrder (k : Fin 13) (s : IopDmac) (u : NormalRun) : Prop :=
  match (s.channels k).chcr.direction with
  | .TO => queue k s ++ u.moved.flatMap Moved.passed = u.peripheral ++ queue k u.dmac
  | .FROM => queue k s ++ u.peripheral = u.moved.flatMap Moved.passed ++ queue k u.dmac

/-- How a transfer of so many words that was started in `s` stands. -/
structure Transfers (words : ℕ) (k : Fin 13) (s : IopDmac) (u : NormalRun) : Prop where
  /-- The words are at MADR and so on, up or down. -/
  addresses : u.moved.map Moved.address =
    (List.range u.moved.length).map fun n => (s.channels k).madr + BitVec.ofNat 32 n * stride (s.channels k).chcr
  /-- What went through the queue is the word in memory. -/
  inMemory : ∀ m ∈ u.moved, m.passed.length = 4 ∧ m.memory = .ok m.passed
  /-- In order. -/
  order : InOrder k s u
  /-- No more are moved than that. -/
  atMost : u.moved.length ≤ words
  /-- Once the transfer has ended, so many have been moved. -/
  ended : (u.dmac.channels k).chcr.started = false → u.moved.length = words
  /-- The turn that ends it sets the flag of the channel, -/
  raises : ∀ u', step k .turn u = .ok u' → (u.dmac.channels k).chcr.started = true →
    (u'.dmac.channels k).chcr.started = false → u'.dmac.tci k = true
  /-- and no other turn does. -/
  interrupts : ∀ u', step k .turn u = .ok u' → u'.dmac.tci k ≠ u.dmac.tci k →
    (u'.dmac.channels k).chcr.started = false ∧ u'.moved.length = words
  /-- It has ended once enough turns have found the peripheral ready. -/
  stops : words + 2 ≤ u.served → (u.dmac.channels k).chcr.started = false
  /-- A turn does not throw where there is memory. -/
  returns : u.dmac.memory.isMapped (u.dmac.channels k).madr 4 → ∃ u', step k .turn u = .ok u'

variable {u u' : NormalRun} {n : ℕ}

/-! ### What a move records -/

theorem setFifo_fifo (s : IopDmac) (f : IopFifo) : s.setFifo f (s.fifo f) = s := by
  have hothers (f : IopFifo) : { s with others := Function.update s.others f (s.others f) } = s := by
    rw [Function.update_eq_self]
  cases f with
  | tosio2 => rfl
  | fromsio2 => rfl
  | _ => exact hothers _

theorem channels_keeping (k : Fin 13) (f : IopDmac → IopDmac) (s : IopDmac) :
    (keeping k f s).channels k = s.channels k := by
  rw [keeping, setFifo_channels, setChannel_channels, Function.update_self]

theorem queue_keeping (k : Fin 13) (f : IopDmac → IopDmac) (s : IopDmac) : queue k (keeping k f s) = queue k s := by
  rw [queue, keeping, fifo_setFifo_self, queue]

theorem note_of_queue_eq (h : queue k s' = queue k s) : note k s s' = [] := by
  have hpassed : passed k s s' = [] := by
    rw [passed, h, Nat.sub_self, List.drop_length, List.take_zero]
    cases (s.channels k).chcr.direction <;> rfl
  rw [note, if_pos hpassed]

theorem note_of_passes {packet : List Ubyte} (hlen : packet.length = 4) (h : Passes k s s' packet) :
    note k s s' = [⟨(s.channels k).madr, packet, .ok packet⟩] := by
  have hne : packet ≠ [] := by
    rintro rfl
    cases hlen
  unfold Passes at h
  unfold note passed
  cases hdir : (s.channels k).chcr.direction with
  | TO =>
    rw [hdir] at h
    have hqueue : queue k s' = queue k s ++ packet := h.2
    have hpassed : (queue k s').drop (queue k s).length = packet := by rw [hqueue, List.drop_left]
    dsimp only
    rw [hpassed, if_neg hne, h.1]
  | FROM =>
    rw [hdir] at h
    have hqueue : queue k s = packet ++ queue k s' := h.2
    have hpassed : (queue k s).take ((queue k s).length - (queue k s').length) = packet := by
      rw [hqueue, List.length_append, Nat.add_sub_cancel, List.take_left]
    dsimp only
    rw [hpassed, if_neg hne, h.1]

/-! ### The invariant -/

/-- Where a transfer of `words` words is. -/
inductive Phase (words : ℕ) (k : Fin 13) (s : IopDmac) (u : NormalRun) : Prop where
  /-- It waits for its first turn. -/
  | fresh : (u.dmac.channels k).chcr.started = true → (u.dmac.channels k).chcr.dmaStarted = false → u.moved = [] →
      (u.dmac.channels k).madr = (s.channels k).madr → (u.dmac.channels k).bcr = (s.channels k).bcr → u.served = 0 →
      Phase words k s u
  /-- It moves words. -/
  | going : (u.dmac.channels k).chcr.started = true → (u.dmac.channels k).chcr.dmaStarted = true →
      (u.dmac.channels k).transferLength + u.moved.length = words →
      (u.dmac.channels k).madr = (s.channels k).madr + BitVec.ofNat 32 u.moved.length * stride (s.channels k).chcr →
      u.served ≤ u.moved.length + 1 → Phase words k s u
  /-- It has ended. -/
  | ended : (u.dmac.channels k).chcr.started = false → u.moved.length = words → Phase words k s u

theorem Phase.going_of_started {words : ℕ} (h : Phase words k s u) (hstarted : (u.dmac.channels k).chcr.started = true)
    (hdma : (u.dmac.channels k).chcr.dmaStarted = true) : (u.dmac.channels k).transferLength + u.moved.length = words ∧
      (u.dmac.channels k).madr = (s.channels k).madr + BitVec.ofNat 32 u.moved.length * stride (s.channels k).chcr ∧
      u.served ≤ u.moved.length + 1 := by
  cases h with
  | fresh _ hfresh => exact absurd (hfresh.symm.trans hdma) Bool.false_ne_true
  | going _ _ htotal hmadr hserved => exact ⟨htotal, hmadr, hserved⟩
  | ended hoff => exact absurd (hoff.symm.trans hstarted) Bool.false_ne_true

theorem Phase.fresh_of_not_started {words : ℕ} (h : Phase words k s u)
    (hstarted : (u.dmac.channels k).chcr.started = true) (hfresh : (u.dmac.channels k).chcr.dmaStarted = false) :
    u.moved = [] ∧ (u.dmac.channels k).madr = (s.channels k).madr ∧ (u.dmac.channels k).bcr = (s.channels k).bcr ∧
      u.served = 0 := by
  cases h with
  | fresh _ _ hmoved hmadr hbcr hserved => exact ⟨hmoved, hmadr, hbcr, hserved⟩
  | going _ hdma => exact absurd (hfresh.symm.trans hdma) Bool.false_ne_true
  | ended hoff => exact absurd (hoff.symm.trans hstarted) Bool.false_ne_true

theorem Phase.ended_of_idle {words : ℕ} (h : Phase words k s u) (hoff : (u.dmac.channels k).chcr.started = false) :
    u.moved.length = words := by
  cases h with
  | fresh hon => exact absurd (hoff.symm.trans hon) Bool.false_ne_true
  | going hon => exact absurd (hoff.symm.trans hon) Bool.false_ne_true
  | ended _ hall => exact hall

/-- The transfer is under way, or it has ended. -/
structure Inv (words : ℕ) (k : Fin 13) (s : IopDmac) (u : NormalRun) : Prop where
  /-- The mode is as it was. -/
  control : ButStart (s.channels k).chcr.w (u.dmac.channels k).chcr.w
  /-- The words are at MADR and so on, up or down. -/
  addresses : u.moved.map Moved.address =
    (List.range u.moved.length).map fun n => (s.channels k).madr + BitVec.ofNat 32 n * stride (s.channels k).chcr
  /-- What went through the queue is the word in memory. -/
  inMemory : ∀ m ∈ u.moved, m.passed.length = 4 ∧ m.memory = .ok m.passed
  /-- In order. -/
  order : InOrder k s u
  /-- Where it is. -/
  phase : Phase words k s u

theorem Starts.inv (words : ℕ) (h : Starts useBlocks k s) : Inv words k s (start s) where
  control _ _ := rfl
  addresses := rfl
  inMemory _ hm := nomatch hm
  order := by
    unfold InOrder
    cases (s.channels k).chcr.direction with
    | TO => exact List.append_nil _
    | FROM => exact List.append_nil _
  phase := .fresh h.started h.fresh rfl rfl rfl rfl

/-- The mode of the channel throughout. -/
theorem Inv.normal {words : ℕ} (h : Starts useBlocks k s) (hinv : Inv words k s u) :
    Normal useBlocks (u.dmac.channels k).chcr := by
  rw [Normal, ← show (s.channels k).chcr.logicalMode = _ from h.mode, IopDmacChcr.logicalMode, IopDmacChcr.logicalMode,
    hinv.control IopDmacChcr.sm (by decide)]

theorem Inv.direction {words : ℕ} (hinv : Inv words k s u) :
    (u.dmac.channels k).chcr.direction = (s.channels k).chcr.direction := direction_of_butStart hinv.control

theorem Inv.stride_eq {words : ℕ} (hinv : Inv words k s u) :
    stride (u.dmac.channels k).chcr = stride (s.channels k).chcr := by
  rw [stride, stride, hinv.control IopDmacChcr.mas (by decide)]

theorem Inv.forced {words : ℕ} (h : Starts useBlocks k s) (hinv : Inv words k s u) :
    DirForced k (u.dmac.channels k).chcr :=
  ⟨fun h9 => hinv.direction.trans (h.forced.sif0 h9), fun h10 => hinv.direction.trans (h.forced.sif1 h10)⟩

/-- The order is kept where nothing goes through the queue. -/
theorem InOrder.congr (h : InOrder k s u) (hmoved : u'.moved = u.moved) (hperipheral : u'.peripheral = u.peripheral)
    (hqueue : queue k u'.dmac = queue k u.dmac) : InOrder k s u' := by
  rw [InOrder, hmoved, hperipheral, hqueue]
  exact h

/-- A word that a turn moves goes through the queue in order. -/
theorem InOrder.word {packet : List Ubyte} {m : Moved} (h : InOrder k s u)
    (hdir : (u.dmac.channels k).chcr.direction = (s.channels k).chcr.direction) (hpasses : Passes k u.dmac s' packet)
    (hm : m.passed = packet) (served : ℕ) : InOrder k s ⟨s', u.moved ++ [m], u.peripheral, served⟩ := by
  unfold Passes at hpasses
  rw [hdir] at hpasses
  unfold InOrder at h ⊢
  rw [List.flatMap_append, List.flatMap_singleton, hm]
  cases hs : (s.channels k).chcr.direction with
  | TO =>
    rw [hs] at h hpasses
    have hqueue : queue k s' = queue k u.dmac ++ packet := hpasses.2
    dsimp only at h ⊢
    rw [hqueue, ← List.append_assoc, h, List.append_assoc]
  | FROM =>
    rw [hs] at h hpasses
    have hqueue : queue k u.dmac = packet ++ queue k s' := hpasses.2
    dsimp only at h ⊢
    rw [h, hqueue, List.append_assoc]

/-! ### A turn -/

/-- Whether a turn is counted. -/
theorem served_le (s : IopDmac) (k : Fin 13) (n : ℕ) :
    (n + if s.isChannelEnabled k = true ∧ Ready k s then 1 else 0) ≤ n + 1 := by
  split_ifs <;> omega

/-- A turn that moves nothing. -/
theorem Inv.quiet {words served : ℕ} {t : IopDmac} (hinv : Inv words k s u)
    (hcontrol : ButStart (s.channels k).chcr.w (t.channels k).chcr.w) (hqueue : queue k t = queue k u.dmac)
    (hphase : Phase words k s ⟨t, u.moved, u.peripheral, served⟩) :
    Inv words k s ⟨t, u.moved ++ note k u.dmac t, u.peripheral, served⟩ := by
  rw [note_of_queue_eq hqueue, List.append_nil]
  exact ⟨hcontrol, hinv.addresses, hinv.inMemory, hinv.order.congr rfl rfl hqueue, hphase⟩

/-- The turn that starts the transfer. -/
theorem Inv.start {served : ℕ} (hinv : Inv (IopDmacChannel.calculate useBlocks (s.channels k).bcr) k s u)
    (hstarted : (u.dmac.channels k).chcr.started = true) (hfresh : (u.dmac.channels k).chcr.dmaStarted = false)
    (hserved : served ≤ u.served + 1) :
    Inv (IopDmacChannel.calculate useBlocks (s.channels k).bcr) k s
      ⟨u.dmac.startTransfer k (IopDmacChannel.calculate useBlocks (u.dmac.channels k).bcr), u.moved ++ note k u.dmac
        (u.dmac.startTransfer k (IopDmacChannel.calculate useBlocks (u.dmac.channels k).bcr)), u.peripheral, served⟩ := by
  have hchannel : (u.dmac.startTransfer k (IopDmacChannel.calculate useBlocks (u.dmac.channels k).bcr)).channels k = _ :=
    Function.update_self _ _ _
  obtain ⟨hmoved, hmadr, hbcr, hzero⟩ := hinv.phase.fresh_of_not_started hstarted hfresh
  refine hinv.quiet (by rw [hchannel]; exact hinv.control) (congrArg DmaFifoQueue.bytes (fifo_setChannel ..))
    (.going ?_ ?_ ?_ ?_ ?_)
  · rw [hchannel]
    exact hstarted
  · rw [hchannel]
  · rw [hchannel, hmoved, List.length_nil, Nat.add_zero, hbcr]
  · rw [hchannel, hmoved]
    exact hmadr.trans (by simp)
  · rw [hmoved, List.length_nil]
    exact hserved.trans (by omega)

/-- A turn that moves a word. -/
theorem Inv.word {words served : ℕ} {packet : List Ubyte} {t : IopDmac} (hinv : Inv words k s u)
    (hstarted : (u.dmac.channels k).chcr.started = true) (hdma : (u.dmac.channels k).chcr.dmaStarted = true)
    (hleft : 0 < (u.dmac.channels k).transferLength) (hlen : packet.length = 4) (hpasses : Passes k u.dmac t packet)
    (hchannel : t.channels k = (u.dmac.channels k).advance) (hserved : served ≤ u.served + 1) :
    Inv words k s ⟨t, u.moved ++ note k u.dmac t, u.peripheral, served⟩ := by
  rw [note_of_passes hlen hpasses]
  obtain ⟨htotal, hmadr, hturns⟩ := hinv.phase.going_of_started hstarted hdma
  refine ⟨by rw [hchannel]; exact hinv.control, Run.map_concat_eq_range hinv.addresses hmadr,
    List.forall_mem_append.mpr ⟨hinv.inMemory, List.forall_mem_singleton.mpr ⟨hlen, rfl⟩⟩,
    hinv.order.word hinv.direction hpasses rfl _, .going ?_ ?_ ?_ ?_ ?_⟩
  · rw [hchannel]
    exact hstarted
  · rw [hchannel]
    exact hdma
  · rw [hchannel, List.length_append, List.length_singleton]
    change (u.dmac.channels k).transferLength - 1 + _ = _
    omega
  · rw [hchannel, madr_advance, hmadr, hinv.stride_eq, List.length_append, List.length_singleton, BitVec.ofNat_add]
    rw [BitVec.add_mul, BitVec.add_assoc]
    simp
  · rw [List.length_append, List.length_singleton]
    exact hserved.trans (by omega)

/-- The turn that ends the transfer. -/
theorem Inv.ends {served : ℕ} (h : Starts useBlocks k s)
    (hinv : Inv (IopDmacChannel.calculate useBlocks (s.channels k).bcr) k s u)
    (hstarted : (u.dmac.channels k).chcr.started = true) (hdma : (u.dmac.channels k).chcr.dmaStarted = true)
    (hleft : (u.dmac.channels k).transferLength = 0) :
    Inv (IopDmacChannel.calculate useBlocks (s.channels k).bcr) k s
      ⟨u.dmac.setStateSuspended k, u.moved ++ note k u.dmac (u.dmac.setStateSuspended k), u.peripheral, served⟩ := by
  have hchannel := channels_setStateSuspended (hinv.forced h)
  have hstays := stays_setStateSuspended (hinv.forced h)
  obtain ⟨htotal, -, -⟩ := hinv.phase.going_of_started hstarted hdma
  refine hinv.quiet (fun f hf => (hstays.control f hf).trans (hinv.control f hf))
    (congrArg DmaFifoQueue.bytes hstays.queue) (.ended ?_ (by rw [← htotal, hleft, Nat.zero_add]))
  rw [hchannel, IopDmacChcr.started, IopDmacChcr.start, Bitfield.extractFrom_insertInto_self _ _ _ (by decide)]
  rfl

/-- A turn keeps the invariant. -/
theorem Inv.turn (h : Starts useBlocks k s) (hinv : Inv (IopDmacChannel.calculate useBlocks (s.channels k).bcr) k s u)
    (hs : step k .turn u = .ok u') : Inv (IopDmacChannel.calculate useBlocks (s.channels k).bcr) k s u' := by
  obtain ⟨t, hturn, heq⟩ := bind_eq_ok_iff.mp hs
  obtain rfl := Except.ok.inj heq
  have hle := served_le u.dmac k u.served
  by_cases hstarted : (u.dmac.channels k).chcr.started = true
  swap
  · -- the transfer has ended
    rw [Bool.not_eq_true] at hstarted
    obtain rfl := Except.ok.inj ((turn_of_not_started hstarted).symm.trans hturn)
    exact hinv.quiet hinv.control rfl (.ended hstarted (hinv.phase.ended_of_idle hstarted))
  cases normalTurn_turn (hinv.normal h) hstarted t hturn with
  | stay ht hwaits =>
    subst ht
    have hnot : ¬(u.dmac.isChannelEnabled k = true ∧ Ready k u.dmac) := fun hon => (hwaits hon.1).1 hon.2
    rw [if_neg hnot, Nat.add_zero]
    exact hinv.quiet hinv.control rfl hinv.phase
  | start hfresh ht =>
    subst ht
    exact hinv.start hstarted hfresh hle
  | word hdma hleft hlen hpasses hchannel _ _ => exact hinv.word hstarted hdma hleft hlen hpasses hchannel hle
  | ends hdma hleft ht =>
    subst ht
    exact hinv.ends h hstarted hdma hleft

/-! ### Other moves -/

theorem Phase.congr {words : ℕ} (h : Phase words k s u) (hchannel : u'.dmac.channels k = u.dmac.channels k)
    (hmoved : u'.moved = u.moved) (hserved : u'.served = u.served) : Phase words k s u' := by
  cases h with
  | fresh hon hfresh hnone hmadr hbcr hzero =>
    exact .fresh (hchannel ▸ hon) (hchannel ▸ hfresh) (hmoved.trans hnone) (hchannel ▸ hmadr) (hchannel ▸ hbcr)
      (hserved.trans hzero)
  | going hon hdma htotal hmadr hle =>
    exact .going (hchannel ▸ hon) (hchannel ▸ hdma) (hmoved ▸ hchannel ▸ htotal) (hmoved ▸ hchannel ▸ hmadr)
      (hmoved ▸ hserved ▸ hle)
  | ended hoff hall => exact .ended (hchannel ▸ hoff) (hmoved ▸ hall)

/-- What leaves the channel alone keeps the invariant, if it keeps the order. -/
theorem Inv.congr {words : ℕ} (hinv : Inv words k s u) (hchannel : u'.dmac.channels k = u.dmac.channels k)
    (hmoved : u'.moved = u.moved) (hserved : u'.served = u.served) (horder : InOrder k s u') : Inv words k s u' where
  control := hchannel ▸ hinv.control
  addresses := hmoved ▸ hinv.addresses
  inMemory := hmoved ▸ hinv.inMemory
  order := horder
  phase := hinv.phase.congr hchannel hmoved hserved

/-- The peripheral keeps the invariant. -/
theorem Inv.peripheral {words : ℕ} {bs : List Ubyte} (hinv : Inv words k s u)
    (hs : step k (.peripheral n bs) u = .ok u') : Inv words k s u' := by
  have hchannel (q : DmaFifoQueue) := congrFun (setFifo_channels u.dmac (dmaFifoQueue k) q) k
  have hqueue (q : DmaFifoQueue) : queue k (u.dmac.setFifo (dmaFifoQueue k) q) = q.bytes :=
    congrArg DmaFifoQueue.bytes (fifo_setFifo_self ..)
  have horder := hinv.order
  unfold InOrder at horder
  rw [step, hinv.direction] at hs
  cases hdir : (s.channels k).chcr.direction with
  | TO =>
    rw [hdir] at hs horder
    obtain ⟨⟨taken, q⟩, hread, heq⟩ := bind_eq_ok_iff.mp hs
    obtain rfl := Except.ok.inj heq
    refine hinv.congr (hchannel q) rfl rfl ?_
    have hbytes : queue k u.dmac = taken ++ q.bytes := (DmaFifoQueue.bytes_of_read hread).1
    rw [InOrder, hdir]
    dsimp only at horder ⊢
    rw [horder, hbytes, hqueue, List.append_assoc]
  | FROM =>
    rw [hdir] at hs horder
    obtain ⟨q, hwrite, heq⟩ := bind_eq_ok_iff.mp hs
    obtain rfl := Except.ok.inj heq
    refine hinv.congr (hchannel q) rfl rfl ?_
    have hbytes : q.bytes = queue k u.dmac ++ bs := DmaFifoQueue.bytes_of_write hwrite
    rw [InOrder, hdir]
    dsimp only at horder ⊢
    rw [← List.append_assoc, horder, hqueue, hbytes, List.append_assoc]

/-- So does anything else. -/
theorem Inv.rest {words : ℕ} {f : IopDmac → IopDmac} (hinv : Inv words k s u) (hs : step k (.rest f) u = .ok u') :
    Inv words k s u' := by
  obtain rfl := Except.ok.inj hs
  exact hinv.congr (channels_keeping k f u.dmac) rfl rfl (hinv.order.congr rfl rfl (queue_keeping k f u.dmac))

theorem Inv.step (h : Starts useBlocks k s) {m : Move}
    (hinv : Inv (IopDmacChannel.calculate useBlocks (s.channels k).bcr) k s u) (hs : NormalRun.step k m u = .ok u') :
    Inv (IopDmacChannel.calculate useBlocks (s.channels k).bcr) k s u' := by
  cases m with
  | turn => exact hinv.turn h hs
  | peripheral n bs => exact hinv.peripheral hs
  | rest f => exact hinv.rest hs

/-- A turn of the channel, as a move. -/
theorem step_turn (h : u.dmac.turn k = .ok s') : ∃ u', step k .turn u = .ok u' ∧ u'.dmac = s' :=
  ⟨_, bind_eq_ok_iff.mpr ⟨s', h, rfl⟩, rfl⟩

/-! ### The flag of the channel -/

theorem tci_congr {t t' : IopDmac} (h0 : t'.icr0 = t.icr0) (h1 : t'.icr1 = t.icr1) (j : ℕ) : t'.tci j = t.tci j := by
  rw [tci, tci, h0, h1]

/-- A transfer that ends sets it. -/
theorem tci_setStateSuspended (s : IopDmac) (k : Fin 13) : (s.setStateSuspended k).tci k = true := by
  have hset (t : IopDmac) : (t.setChannelTci k 1).tci k = true := by
    unfold setChannelTci tci
    split_ifs with hk
    · exact (Bitfield.getLsbD_insertInto_bit _ _ _ (by omega)).trans (by simp)
    · exact (Bitfield.getLsbD_insertInto_bit _ _ _ (by omega)).trans (by simp)
  have hcheck (t : IopDmac) : t.handleInterruptCheck.tci k = t.tci k := by
    unfold handleInterruptCheck
    split_ifs
    · unfold tci
      split_ifs with hk
      · exact (Bitfield.getLsbD_insertInto _ _ _ _ (by omega)).trans (if_neg (by simp only [masterInterrupt]; omega))
      · rfl
    · rfl
  rw [setStateSuspended, hcheck, hset]

/-- A turn of a normal transfer sets it where it ends the transfer, and only there. -/
theorem tci_of_turn (h : Starts useBlocks k s) {words : ℕ} (hinv : Inv words k s u) (hs : step k .turn u = .ok u') :
    ((u.dmac.channels k).chcr.started = true → (u'.dmac.channels k).chcr.started = false → u'.dmac.tci k = true) ∧
      (u'.dmac.tci k ≠ u.dmac.tci k → (u'.dmac.channels k).chcr.started = false) := by
  obtain ⟨t, hturn, heq⟩ := bind_eq_ok_iff.mp hs
  obtain rfl := Except.ok.inj heq
  by_cases hstarted : (u.dmac.channels k).chcr.started = true
  swap
  · rw [Bool.not_eq_true] at hstarted
    obtain rfl := Except.ok.inj ((turn_of_not_started hstarted).symm.trans hturn)
    exact ⟨fun hon => absurd (hstarted.symm.trans hon) Bool.false_ne_true, fun hne => absurd rfl hne⟩
  have hkept {t : IopDmac} (hchannel : (t.channels k).chcr.started = true) (htci : t.tci k = u.dmac.tci k) :
      ((u.dmac.channels k).chcr.started = true → (t.channels k).chcr.started = false → t.tci k = true) ∧
        (t.tci k ≠ u.dmac.tci k → (t.channels k).chcr.started = false) :=
    ⟨fun _ hoff => absurd (hoff.symm.trans hchannel) Bool.false_ne_true, fun hne => absurd htci hne⟩
  cases normalTurn_turn (hinv.normal h) hstarted t hturn with
  | stay ht => exact ht ▸ hkept hstarted rfl
  | start _ ht =>
    subst ht
    refine hkept ?_ (tci_congr rfl rfl k)
    rw [startTransfer, setChannel_channels, Function.update_self]
    exact hstarted
  | word _ _ _ _ hchannel h0 h1 =>
    refine hkept ?_ (tci_congr h0 h1 k)
    rw [hchannel]
    exact hstarted
  | ends _ _ ht =>
    subst ht
    refine ⟨fun _ _ => tci_setStateSuspended _ k, fun _ => ?_⟩
    rw [channels_setStateSuspended (hinv.forced h), IopDmacChcr.started, IopDmacChcr.start,
      Bitfield.extractFrom_insertInto_self _ _ _ (by decide)]
    rfl

/-! ### Runs -/

/-- A transfer moves as many words as `calculate` says. -/
theorem Inv.transfers (h : Starts useBlocks k s)
    (hinv : Inv (IopDmacChannel.calculate useBlocks (s.channels k).bcr) k s u) :
    Transfers (IopDmacChannel.calculate useBlocks (s.channels k).bcr) k s u := by
  refine ⟨hinv.addresses, hinv.inMemory, hinv.order, ?_, hinv.phase.ended_of_idle, fun u' hs => (tci_of_turn h hinv hs).1,
    fun u' hs hne => ?_, fun hserved => ?_, fun hmapped => ?_⟩
  · cases hinv.phase with
    | fresh _ _ hnone =>
      rw [hnone]
      exact Nat.zero_le _
    | going _ _ htotal => omega
    | ended _ hall => exact hall.le
  · have hoff := (tci_of_turn h hinv hs).2 hne
    exact ⟨hoff, (hinv.turn h hs).phase.ended_of_idle hoff⟩
  · cases hinv.phase with
    | fresh _ _ _ _ _ hzero => omega
    | going _ _ htotal _ hle => omega
    | ended hoff => exact hoff
  · obtain ⟨t, ht⟩ := exists_turn (hinv.normal h) hmapped
    exact ⟨_, bind_eq_ok_iff.mpr ⟨t, ht, rfl⟩⟩

theorem transfers_of_run (h : Starts useBlocks k s) {ms : List Move} (hrun : Run.run (step k) ms (start s) = .ok u) :
    Transfers (IopDmacChannel.calculate useBlocks (s.channels k).bcr) k s u :=
  (Run.invariant_run (fun _ _ _ hinv hs => hinv.step h hs) (h.inv _) hrun).transfers h

/-! ### The largest transfer -/

theorem turn_fresh (useBlocks : Bool) (henabled : s.isChannelEnabled k = true)
    (hstarted : (s.channels k).chcr.started = true) (hmode : Normal useBlocks (s.channels k).chcr)
    (hfresh : (s.channels k).chcr.dmaStarted = false) :
    s.turn k = .ok (s.startTransfer k (IopDmacChannel.calculate useBlocks (s.channels k).bcr)) := by
  have hnormal : s.transferNormal k useBlocks = .ok _ := if_pos (by rw [hfresh]; decide)
  rw [turn, if_pos ⟨henabled, hstarted⟩, hmode, ← hnormal]
  cases useBlocks <;> rfl

theorem turn_last (useBlocks : Bool) (henabled : s.isChannelEnabled k = true)
    (hstarted : (s.channels k).chcr.started = true) (hmode : Normal useBlocks (s.channels k).chcr)
    (hdma : (s.channels k).chcr.dmaStarted = true) (hleft : (s.channels k).transferLength = 0)
    (hempty : (s.channels k).chcr.direction = .TO → queue k s = []) :
    s.turn k = .ok (s.setStateSuspended k) := by
  have hfinish : s.finish k = s.setStateSuspended k :=
    if_neg fun hwaits => hwaits.2 (DmaFifoQueue.isEmpty_iff.mpr (hempty hwaits.1))
  have hnormal : s.transferNormal k useBlocks = .ok (s.setStateSuspended k) := by
    rw [transferNormal, if_neg (not_not_intro hdma), if_pos hleft, hfinish]
  rw [turn, if_pos ⟨henabled, hstarted⟩, hmode, ← hnormal]
  cases useBlocks <;> rfl

/-- All channels enabled. -/
def enabling (s : IopDmac) : IopDmac := { s with pcr0 := BitVec.allOnes 32, pcr1 := BitVec.allOnes 32 }

theorem isChannelEnabled_of_enabling (h : s'.pcr0 = BitVec.allOnes 32 ∧ s'.pcr1 = BitVec.allOnes 32) (k : Fin 13) :
    s'.isChannelEnabled k = true := by
  unfold isChannelEnabled
  split_ifs
  · rw [h.1, decide_eq_true_eq, Bitfield.zero_lt_extractFrom_bit_iff, BitVec.getLsbD_allOnes, decide_eq_true_eq]
    omega
  · rw [h.2, decide_eq_true_eq, Bitfield.zero_lt_extractFrom_bit_iff, BitVec.getLsbD_allOnes, decide_eq_true_eq]
    omega

/-- The peripheral takes what is in the queue. -/
theorem exists_drained (k : Fin 13) (u : NormalRun) : ∃ q u', step k (.peripheral (queue k u.dmac).length []) u = .ok u' ∧
    u'.dmac = u.dmac.setFifo (dmaFifoQueue k) q ∧ ((u.dmac.channels k).chcr.direction = .TO → q.bytes = []) := by
  rw [step]
  cases (u.dmac.channels k).chcr.direction with
  | TO =>
    rw [queue, DmaFifoQueue.read_eq (Nat.le_refl _)]
    exact ⟨_, _, rfl, rfl, fun _ => List.drop_length⟩
  | FROM => exact ⟨u.dmac.fifo (dmaFifoQueue k), _, rfl, rfl, fun h => nomatch h⟩

/-- A transfer of no words ends. -/
theorem exists_ended (h : Starts useBlocks k s) (hzero : IopDmacChannel.calculate useBlocks (s.channels k).bcr = 0) :
    ∃ ms u, Run.run (step k) ms (start s) = .ok u ∧ (u.dmac.channels k).chcr.started = false := by
  obtain ⟨q, u₁, h₁, hdmac, hempty⟩ := exists_drained k ⟨keeping k enabling s, [], [], 0⟩
  have hchannel : u₁.dmac.channels k = s.channels k := by
    rw [hdmac, setFifo_channels]
    exact channels_keeping k enabling s
  have hpcr : u₁.dmac.pcr0 = BitVec.allOnes 32 ∧ u₁.dmac.pcr1 = BitVec.allOnes 32 := by
    obtain ⟨-, h0, h1⟩ := setFifo_enabled (keeping k enabling s) (dmaFifoQueue k) q
    obtain ⟨-, h0', h1'⟩ :=
      setFifo_enabled ((enabling s).setChannel k (s.channels k)) (dmaFifoQueue k) (s.fifo (dmaFifoQueue k))
    exact hdmac ▸ ⟨h0.trans h0', h1.trans h1'⟩
  have hfresh := turn_fresh useBlocks (isChannelEnabled_of_enabling hpcr k) (hchannel ▸ h.started)
    (hchannel ▸ h.mode) (hchannel ▸ h.fresh)
  rw [hchannel, hzero] at hfresh
  -- after the first turn no word is left
  generalize ht : u₁.dmac.startTransfer k 0 = t at hfresh
  have hchannel' : t.channels k =
      { s.channels k with transferLength := 0, chcr := { (s.channels k).chcr with dmaStarted := true } } := by
    rw [← ht, startTransfer, hchannel]
    exact Function.update_self _ _ _
  have hqueue : queue k t = q.bytes := by
    rw [← ht, startTransfer, queue, fifo_setChannel, hdmac, fifo_setFifo_self]
  have hlast := turn_last (s := t) (k := k) useBlocks (isChannelEnabled_of_enabling (ht ▸ hpcr) k)
    (by rw [hchannel']; exact h.started) (by rw [hchannel']; exact h.mode) (by rw [hchannel']) (by rw [hchannel'])
    (fun hto => by
      rw [hchannel'] at hto
      rw [hqueue]
      exact hempty ((congrArg (fun c : IopDmacChannel => c.chcr.direction) (channels_keeping k enabling s)).trans hto))
  obtain ⟨u₂, h₂, rfl⟩ := step_turn hfresh
  obtain ⟨u₃, h₃, hu₃⟩ := step_turn hlast
  have h₀ : step k (.rest enabling) (start s) = .ok ⟨keeping k enabling s, [], [], 0⟩ := rfl
  refine ⟨_, u₃, Run.run_cons_ok.mpr ⟨_, h₀, Run.run_cons_ok.mpr ⟨u₁, h₁, Run.run_cons_ok.mpr ⟨u₂, h₂,
    Run.run_cons_ok.mpr ⟨u₃, h₃, show Run.run (step k) [] u₃ = .ok u₃ from rfl⟩⟩⟩⟩, ?_⟩
  have hforced : DirForced k (u₂.dmac.channels k).chcr := by
    rw [hchannel']
    exact ⟨h.forced.sif0, h.forced.sif1⟩
  rw [hu₃, channels_setStateSuspended hforced, IopDmacChcr.started, IopDmacChcr.start,
    Bitfield.extractFrom_insertInto_self _ _ _ (by decide)]
  rfl

/-- So the largest slice transfer ends without a word. -/
theorem not_transfers_of_largest (h : Starts useBlocks k s) (hlargest : Largest useBlocks (s.channels k).bcr) :
    ¬∀ ms u, Run.run (step k) ms (start s) = .ok u → Transfers (words useBlocks (s.channels k).bcr) k s u := by
  intro hall
  have hzero : IopDmacChannel.calculate useBlocks (s.channels k).bcr = 0 := by
    rw [calculate_eq, words_of_largest hlargest, Nat.mod_self]
  obtain ⟨ms, u, hrun, hoff⟩ := exists_ended h hzero
  have hmeant := (hall ms u hrun).ended hoff
  have hmoved := (transfers_of_run h hrun).ended hoff
  rw [words_of_largest hlargest] at hmeant
  rw [hzero] at hmoved
  omega

/-- Whatever the peripheral does and whatever happens besides, a transfer moves the words that it is meant to if and only
if it is not the largest slice transfer. -/
theorem transfers_iff (h : Starts useBlocks k s) :
    (∀ ms u, Run.run (step k) ms (start s) = .ok u → Transfers (words useBlocks (s.channels k).bcr) k s u) ↔
      ¬Largest useBlocks (s.channels k).bcr := by
  constructor
  · exact fun hall hlargest => not_transfers_of_largest h hlargest hall
  · intro hlargest ms u hrun
    have hwords : IopDmacChannel.calculate useBlocks (s.channels k).bcr = words useBlocks (s.channels k).bcr := by
      rw [calculate_eq, Nat.mod_eq_of_lt (words_lt hlargest)]
    exact hwords ▸ transfers_of_run h hrun

/-- A slice transfer of channel 4 that has just been started. -/
def sliced (bcr : Uword) : IopDmac := quiet.writeChannel 4 0x1000 bcr 0x01000201

theorem channels_sliced (bcr : Uword) :
    (sliced bcr).channels 4 = ⟨0x1000, bcr, 0, ⟨0x01000201, false, .blank⟩, 0⟩ := by
  have hwrite : IopDmacChcr.writeUword ⟨0, false, .blank⟩ (IopDmacChcr.forced 4 0x01000201) =
      ⟨0x01000201, false, .blank⟩ := by decide
  rw [← hwrite, sliced, writeChannel, writeChcr, setChannel_channels, Function.update_self, setChannel_channels,
    Function.update_self]
  rfl

theorem starts_sliced (bcr : Uword) : Starts true 4 (sliced bcr) where
  mode := by
    rw [channels_sliced]
    exact show Normal true ⟨0x01000201, false, .blank⟩ by decide
  forced := ⟨fun h => absurd h (by decide), fun h => absurd h (by decide)⟩
  started := by
    rw [channels_sliced]
    exact show IopDmacChcr.started ⟨0x01000201, false, .blank⟩ = true by decide
  fresh := by rw [channels_sliced]

/-- Two blocks of three words. -/
theorem transfers_iff_sliced :
    (∀ ms u, Run.run (step 4) ms (start (sliced 0x00020003)) = .ok u → Transfers (words true 0x00020003) 4 (sliced 0x00020003) u) ↔
      ¬Largest true 0x00020003 :=
  transfers_iff (starts_sliced 0x00020003)

/-- With BCR clear, no word is moved. -/
theorem largest_moves_none : Starts true 4 (sliced 0) ∧
    ¬∀ ms u, Run.run (step 4) ms (start (sliced 0)) = .ok u → Transfers (words true 0) 4 (sliced 0) u :=
  ⟨starts_sliced 0, not_transfers_of_largest (starts_sliced 0) ⟨rfl, by decide, by decide⟩⟩

/-! ### Ticks are runs -/

/-- A turn of any channel is a move. -/
theorem exists_move_of_turn {j : Fin 13} (h : u.dmac.turn j = .ok s') :
    ∃ m u', step k m u = .ok u' ∧ u'.dmac = s' := by
  by_cases hj : j = k
  · subst hj
    exact ⟨.turn, step_turn h⟩
  · refine ⟨.rest fun _ => s', _, rfl, ?_⟩
    have hchannel : u.dmac.channels k = s'.channels k := ((frame_turn u.dmac j s' h).channels k (Ne.symm hj)).symm
    have hfifo : u.dmac.fifo (dmaFifoQueue k) = s'.fifo (dmaFifoQueue k) :=
      (fifo_turn (dmaFifoQueue_ne_of_ne hj) s' h).symm
    have hself : s'.setChannel k (s'.channels k) = s' := by
      rw [setChannel, Function.update_eq_self]
    rw [keeping, hchannel, hfifo, hself, setFifo_fifo]

/-- A tick is a run. -/
theorem exists_moves_of_timeStep (h : u.dmac.timeStep = .ok s') :
    ∃ ms u', Run.run (step k) ms u = .ok u' ∧ u'.dmac = s' := by
  have hloop (js : List (Fin 13)) : ∀ u : NormalRun, js.foldlM IopDmac.turn u.dmac = .ok s' →
      ∃ ms u', Run.run (step k) ms u = .ok u' ∧ u'.dmac = s' := by
    induction js with
    | nil => exact fun u hu => ⟨[], u, rfl, Except.ok.inj hu⟩
    | cons j js ih =>
      intro u hu
      rw [List.foldlM_cons] at hu
      obtain ⟨t, ht, hrest⟩ := bind_eq_ok_iff.mp hu
      obtain ⟨m, u₁, h₁, rfl⟩ := exists_move_of_turn (k := k) ht
      obtain ⟨ms, u', hms, hu'⟩ := ih u₁ hrest
      exact ⟨m :: ms, u', Run.run_cons_ok.mpr ⟨u₁, h₁, hms⟩, hu'⟩
  unfold timeStep at h
  split_ifs at h
  · exact ⟨[], u, rfl, Except.ok.inj h⟩
  · exact hloop _ u h

end NormalRun

end IopDmac

end Orbum
