import Orbum.Ee.Dmac.NormalRun
import Orbum.Lib.Copy

/-!
# There and back through the scratchpad

Channels 8 and 9 move quadwords between main memory at MADR and the scratchpad at SADR, which are 29 and 14 bits wide
and advance together. They have no FIFO: what ends a transfer of theirs is QWC alone.

## The model

A program writes the registers of toSPR and has the DMAC tick until the channel has stopped, then does the same with
fromSPR. No other channel is started meanwhile: what those move has no part in the copy.
-/

namespace Orbum

open LittleEndian

/-! ### Cells of the two memories -/

/-- The `k`-th byte of main memory from `a` on. -/
def mainCell (a : Uptr) (k : ℕ) : Uptr := a + BitVec.ofNat 32 k

/-- The `k`-th byte of the scratchpad from `sadr` on: a qword's address, and the first byte follows the last. -/
def sprCell (sadr : Uword) (k : ℕ) : Uptr := 0x70000000 + BitVec.ofNat 32 (((sadr &&& 0x3FF0).toNat + k) % 0x4000)

/-- `n` qwords from `a` on are aligned, and in main memory. -/
def InMainMemory (a : Uptr) (n : ℕ) : Prop := 16 ∣ a.toNat ∧ a.toNat + 16 * n ≤ 0x2000000

instance (a : Uptr) (n : ℕ) : Decidable (InMainMemory a n) := inferInstanceAs (Decidable (_ ∧ _))

/-- Main memory and the scratchpad are in the bus. -/
structure Memory.MapsEe (m : Memory) : Prop where
  /-- Main memory. -/
  main : ∀ x : Uptr, x.toNat < 0x2000000 → m.mapped x = true
  /-- The scratchpad. -/
  spr : ∀ x : Uptr, 0x70000000 ≤ x.toNat → x.toNat < 0x70004000 → m.mapped x = true

section Cells

variable {a : Uptr} {sadr : Uword} {n k j : ℕ}

theorem toNat_mainCell (h : InMainMemory a n) (hk : k < 16 * n) : (mainCell a k).toNat = a.toNat + k := by
  have hend := h.2
  rw [mainCell, BitVec.toNat_add, BitVec.toNat_ofNat]
  omega

theorem toNat_sprMask (sadr : Uword) : (sadr &&& 0x3FF0).toNat = sadr.toNat / 16 % 2 ^ 10 * 16 := by
  have hmask : (0x3FF0 : Uword) = Bitfield.shiftedMask ⟨4, 10⟩ 32 := by decide
  exact hmask ▸ Bitfield.toNat_and_shiftedMask ⟨4, 10⟩ sadr (by decide)

theorem toNat_sprBase : (0x70000000 : Uptr).toNat = 0x70000000 := rfl

theorem toNat_sprCell (sadr : Uword) (k : ℕ) :
    (sprCell sadr k).toNat = 0x70000000 + ((sadr &&& 0x3FF0).toNat + k) % 0x4000 := by
  rw [sprCell, BitVec.toNat_add, toNat_sprBase, BitVec.toNat_ofNat]
  omega

theorem mainCell_ne_sprCell (h : InMainMemory a n) (hk : k < 16 * n) (sadr : Uword) (j : ℕ) :
    mainCell a k ≠ sprCell sadr j := by
  intro heq
  have hmain := toNat_mainCell h hk
  rw [heq, toNat_sprCell] at hmain
  have hend := h.2
  omega

theorem mainCell_ne_of_lt (h : InMainMemory a n) (hj : j < 16 * n) (hk : k < j) : mainCell a j ≠ mainCell a k := by
  intro heq
  have hcell := toNat_mainCell h hj
  rw [heq, toNat_mainCell h (hk.trans hj)] at hcell
  omega

theorem sprCell_ne_of_lt (hj : j < 0x4000) (hk : k < j) : sprCell sadr j ≠ sprCell sadr k := by
  intro heq
  have hcell := toNat_sprCell sadr j
  rw [heq, toNat_sprCell] at hcell
  omega

/-- The qword that MADR names after `j` qwords. -/
theorem transferAddress_eq {t : EeDmacTurn} (h : InMainMemory a n) (hj : j < n)
    (hmadr : t.madr = a + BitVec.ofNat 32 (16 * j)) : t.transferAddress = mainCell a (16 * j) := by
  have hcell := toNat_mainCell h (show 16 * j < 16 * n by omega)
  obtain ⟨halign, hend⟩ := h
  have hmadr' : t.madr = mainCell a (16 * j) := hmadr
  apply BitVec.eq_of_toNat_eq
  rw [EeDmacTurn.toNat_transferAddress, hmadr', hcell]
  omega

/-- The qword that SADR names after `j` qwords. -/
theorem sprAddress_eq (sadr : Uword) (j : ℕ) :
    0x70000000 + ((sadr + BitVec.ofNat 32 (16 * j)) &&& 0x3FF0) = sprCell sadr (16 * j) := by
  apply BitVec.eq_of_toNat_eq
  rw [toNat_sprCell, toNat_sprMask, BitVec.toNat_add, toNat_sprBase, toNat_sprMask, BitVec.toNat_add,
    BitVec.toNat_ofNat]
  omega

theorem mainCell_add (a : Uptr) (j i : ℕ) : mainCell (mainCell a j) i = mainCell a (j + i) := by
  rw [mainCell, mainCell, mainCell, BitVec.ofNat_add, BitVec.add_assoc]

/-- A qword does not wrap. -/
theorem sprCell_add (sadr : Uword) (j : ℕ) {i : ℕ} (hi : i < 16) :
    mainCell (sprCell sadr (16 * j)) i = sprCell sadr (16 * j + i) := by
  apply BitVec.eq_of_toNat_eq
  rw [mainCell, BitVec.toNat_add, toNat_sprCell, toNat_sprCell, toNat_sprMask, BitVec.toNat_ofNat]
  omega

end Cells

/-- What a transfer in direction `dir` reads. -/
def sprSource {α : Type} (dir : EeDmacChcr.Direction) (main spr : α) : α := if dir = .TO then main else spr

/-- What a transfer in direction `dir` writes. -/
def sprTarget {α : Type} (dir : EeDmacChcr.Direction) (main spr : α) : α := if dir = .TO then spr else main

section Route

variable {dir : EeDmacChcr.Direction} {a : Uptr} {spr : Uword} {n j k : ℕ}

theorem sprTarget_ne_of_lt (h : InMainMemory a n) (hn : n ≤ 0x400) (hj : j < 16 * n) (hk : k < j) :
    sprTarget dir (mainCell a) (sprCell spr) j ≠ sprTarget dir (mainCell a) (sprCell spr) k := by
  cases dir with
  | FROM => exact mainCell_ne_of_lt h hj hk
  | TO => exact sprCell_ne_of_lt (by omega) hk

theorem sprTarget_ne_sprSource (h : InMainMemory a n) (hj : j < 16 * n) (hk : k < 16 * n) :
    sprTarget dir (mainCell a) (sprCell spr) k ≠ sprSource dir (mainCell a) (sprCell spr) j := by
  cases dir with
  | FROM => exact mainCell_ne_sprCell h hk spr j
  | TO => exact (mainCell_ne_sprCell h hj spr k).symm

/-- The bytes of the `k`-th qword. -/
theorem mainCell_sprSource {x y : Uptr} (hx : mainCell x j = mainCell a k) (hy : mainCell y j = sprCell spr k) :
    sprSource dir (mainCell a) (sprCell spr) k = mainCell (sprSource dir x y) j := by
  cases dir with
  | FROM => exact hy.symm
  | TO => exact hx.symm

theorem mainCell_sprTarget {x y : Uptr} (hx : mainCell x j = mainCell a k) (hy : mainCell y j = sprCell spr k) :
    sprTarget dir (mainCell a) (sprCell spr) k = mainCell (sprTarget dir x y) j := by
  cases dir with
  | FROM => exact hx.symm
  | TO => exact hy.symm

end Route

/-! ### What is in the bus -/

namespace Memory

variable {m m' : Memory} {a : Uptr} {n k : ℕ}

theorem isMapped_iff : m.isMapped a n = true ↔ ∀ i < n, m.mapped (mainCell a i) = true := by
  rw [isMapped, List.all_eq_true]
  exact forall_congr' fun i => by rw [List.mem_range]; rfl

theorem MapsEe.congr (h : m.MapsEe) (hm : m'.mapped = m.mapped) : m'.MapsEe := ⟨hm ▸ h.main, hm ▸ h.spr⟩

theorem MapsEe.isMapped_mainCell (h : m.MapsEe) (ha : InMainMemory a n) (hk : k < n) :
    m.isMapped (mainCell a (16 * k)) 16 = true := by
  refine isMapped_iff.mpr fun i hi => h.main _ ?_
  have hend := ha.2
  rw [mainCell_add, toNat_mainCell ha (by omega)]
  omega

theorem MapsEe.isMapped_sprCell (h : m.MapsEe) (spr : Uword) (k : ℕ) : m.isMapped (sprCell spr (16 * k)) 16 = true := by
  refine isMapped_iff.mpr fun i hi => ?_
  rw [sprCell_add spr k hi]
  refine h.spr _ ?_ ?_ <;> rw [toNat_sprCell] <;> omega

end Memory

/-! ### A quadword copied -/

section Qword

variable {m : Memory} {a b : Uptr}

/-- The `n` bytes from `a` on. -/
def Memory.bytesAt (m : Memory) (a : Uptr) (n : ℕ) : List Ubyte := (List.range n).map fun i => m.byte (mainCell a i)

/-- A quadword read and written is its bytes stored. -/
theorem exists_readUqword (ha : m.isMapped a 16 = true) : ∃ q, m.readUqword a = .ok q ∧
    ∀ b, m.isMapped b 16 = true → m.writeUqword b q = .ok (m.store b (m.bytesAt a 16)) := by
  have hlength : (m.bytesAt a 16).length = 16 := by rw [Memory.bytesAt, List.length_map, List.length_range]
  refine ⟨ofBytes 128 (m.bytesAt a 16), ?_, fun b hb => ?_⟩
  · rw [Memory.readUqword, Memory.read, if_pos ha]
    rfl
  · rw [Memory.writeUqword, bytes_ofBytes hlength (by decide), Memory.write, hlength, if_pos hb]

theorem copied_store_bytesAt (m : Memory) (a b : Uptr) :
    Copied 16 (mainCell a) (mainCell b) m.byte (m.store b (m.bytesAt a 16)).byte where
  copied k hk := by
    rw [mainCell, Memory.byte_store_of_lt (by simpa [Memory.bytesAt] using hk) (by simp [Memory.bytesAt])]
    simp [Memory.bytesAt]
  others x hx := Memory.byte_store_of_apart fun i hi => hx i (by simpa [Memory.bytesAt] using hi)

end Qword

namespace EeDmacTurn

open EeDmacChcr EeDmacCtrl

variable {t : EeDmacTurn}

/-! ### Turns -/

/-- A started channel of the scratchpad in normal mode, in its direction, without stall control. -/
structure Scratchpad (t : EeDmacTurn) : Prop where
  /-- It is toSPR or fromSPR. -/
  channel : t.channelId = 9 ∧ t.chcr.direction = .TO ∨ t.channelId = 8 ∧ t.chcr.direction = .FROM
  /-- It is started. -/
  str : str.extractFrom t.chcr.w ≠ 0
  /-- It is in normal mode. -/
  mod : mod.extractFrom t.chcr.w = 0
  /-- There is no source of stall control. -/
  sts : sts.extractFrom t.ctrl = 0
  /-- Nor a drain. -/
  std : std.extractFrom t.ctrl = 0

namespace Scratchpad

theorem channelTurn_eq (h : t.Scratchpad) : t.channelTurn = t.transferNormal := by
  have hmod : (EeDmacChcr.mod.extractFrom t.chcr.w).toNat = 0 := by rw [h.mod]; rfl
  rw [channelTurn, if_pos h.str, hmod]
  rfl

theorem isDrainStallControlOn_eq (h : t.Scratchpad) : t.isDrainStallControlOn = false := by
  have hmap : stdMap (EeDmacCtrl.std.extractFrom t.ctrl).toNat = 0 := by rw [h.std]; rfl
  rw [isDrainStallControlOn, hmap]
  rcases h.channel with ⟨hid, -⟩ | ⟨hid, -⟩
  · simp [hid]
  · simp [hid]

theorem isSourceStallControlOn_eq (h : t.Scratchpad) : t.isSourceStallControlOn = false := by
  have hmap : stsMap (EeDmacCtrl.sts.extractFrom t.ctrl).toNat = 0 := by rw [h.sts]; rfl
  rw [isSourceStallControlOn, hmap]
  rcases h.channel with ⟨hid, -⟩ | ⟨hid, -⟩
  · simp [hid]
  · simp [hid]

/-- The first turn starts the transfer. -/
theorem channelTurn_start (h : t.Scratchpad) (hfresh : t.chcr.dmaStarted = false) (hqwc : t.qwc ≠ 0) :
    t.channelTurn = .ok { t with chcr := { t.chcr with dmaStarted := true } } := by
  rw [h.channelTurn_eq, transferNormal, hfresh, if_pos (by decide), if_neg hqwc]

/-- The last turn asks no FIFO. -/
theorem channelTurn_end (h : t.Scratchpad) (hstarted : t.chcr.dmaStarted = true) (hqwc : t.qwc = 0) :
    ∃ f240, t.channelTurn = .ok
      { t with
        stat := (EeDmacStat.cis t.channelId).insertInto t.stat 1
        sbusF240 := f240
        chcr := { t.chcr with w := EeDmacChcr.str.insertInto t.chcr.w 0 } } := by
  have hforced : t.DirForced := by
    rcases h.channel with ⟨hid, -⟩ | ⟨hid, -⟩
    · exact ⟨fun h5 => absurd (hid.symm.trans h5) (by decide), fun h6 => absurd (hid.symm.trans h6) (by decide)⟩
    · exact ⟨fun h5 => absurd (hid.symm.trans h5) (by decide), fun h6 => absurd (hid.symm.trans h6) (by decide)⟩
  have hno : ¬(t.chcr.direction = .TO ∧ t.channelId ≠ 9) := by
    rcases h.channel with ⟨hid, -⟩ | ⟨-, hdir⟩
    · exact fun hto => hto.2 hid
    · exact fun hto => absurd (hdir.symm.trans hto.1) (by decide)
  obtain ⟨f240, heq⟩ := setStateSuspended_eq hforced
  refine ⟨f240, ?_⟩
  rw [h.channelTurn_eq, transferNormal, hstarted, if_neg (by decide), if_pos hqwc, suspendWhenEmpty, if_neg hno, heq]
  rfl

theorem scratchpadId (h : t.Scratchpad) : t.channelId = 8 ∨ t.channelId = 9 := by
  rcases h.channel with ⟨hid, -⟩ | ⟨hid, -⟩
  · exact .inr hid
  · exact .inl hid

/-- What moving a quadword leaves. -/
def scratched (t : EeDmacTurn) (memory : Memory) (sadr : Uword) : EeDmacTurn :=
  { t.advance with memory, sadr := some (sadr + 0x10) }

/-- toSPR stores a quadword of main memory in the scratchpad. -/
theorem transferData_to (h : t.Scratchpad) {sadr : Uword} (hsadr : t.sadr = some sadr) (hdir : t.chcr.direction = .TO)
    (hmain : t.memory.isMapped t.transferAddress 16 = true)
    (hspr : t.memory.isMapped (0x70000000 + (sadr &&& 0x3FF0)) 16 = true) :
    t.transferData = .ok (1, scratched t
      (t.memory.store (0x70000000 + (sadr &&& 0x3FF0)) (t.memory.bytesAt t.transferAddress 16)) sadr) := by
  obtain ⟨q, hread, hwrite⟩ := exists_readUqword hmain
  rw [transferData, if_pos h.scratchpadId, transferDataSpr, hsadr, deref_some, ok_bind, hdir]
  dsimp only
  rw [show readQwordMemory t.memory t.transferAddress false = .ok q from hread, ok_bind,
    show writeQwordMemory t.memory (sadr &&& 0x3FF0) true q = _ from hwrite _ hspr]
  rfl

/-- fromSPR stores a quadword of the scratchpad in main memory. -/
theorem transferData_from (h : t.Scratchpad) {sadr : Uword} (hsadr : t.sadr = some sadr)
    (hdir : t.chcr.direction = .FROM) (hmain : t.memory.isMapped t.transferAddress 16 = true)
    (hspr : t.memory.isMapped (0x70000000 + (sadr &&& 0x3FF0)) 16 = true) :
    t.transferData = .ok (1, scratched t
      (t.memory.store t.transferAddress (t.memory.bytesAt (0x70000000 + (sadr &&& 0x3FF0)) 16)) sadr) := by
  obtain ⟨q, hread, hwrite⟩ := exists_readUqword hspr
  rw [transferData, if_pos h.scratchpadId, transferDataSpr, hsadr, deref_some, ok_bind, hdir]
  dsimp only
  rw [show readQwordMemory t.memory (sadr &&& 0x3FF0) true = .ok q from hread, ok_bind,
    show writeQwordMemory t.memory t.transferAddress false q = _ from hwrite _ hmain]
  rfl

/-- A turn in between copies a quadword. -/
theorem channelTurn_move (h : t.Scratchpad) (hstarted : t.chcr.dmaStarted = true) (hqwc : t.qwc ≠ 0) {sadr : Uword}
    (hsadr : t.sadr = some sadr) (hmain : t.memory.isMapped t.transferAddress 16 = true)
    (hspr : t.memory.isMapped (0x70000000 + (sadr &&& 0x3FF0)) 16 = true) :
    ∃ memory : Memory, t.channelTurn = .ok (scratched t memory sadr) ∧ memory.mapped = t.memory.mapped ∧
      Copied 16 (mainCell (sprSource t.chcr.direction t.transferAddress (0x70000000 + (sadr &&& 0x3FF0))))
        (mainCell (sprTarget t.chcr.direction t.transferAddress (0x70000000 + (sadr &&& 0x3FF0))))
        t.memory.byte memory.byte := by
  have hturn {memory : Memory} (hdata : t.transferData = .ok (1, scratched t memory sadr)) :
      t.channelTurn = .ok (scratched t memory sadr) := by
    have hafter : (scratched t memory sadr).Scratchpad := ⟨h.channel, h.str, h.mod, h.sts, h.std⟩
    rw [h.channelTurn_eq, transferNormal, hstarted, if_neg (by decide), if_neg hqwc, h.isDrainStallControlOn_eq,
      if_neg (fun hwaits => Bool.false_ne_true hwaits.1), hdata, ok_bind]
    dsimp only
    rw [if_neg Nat.one_ne_zero, hafter.isSourceStallControlOn_eq, if_neg (by decide)]
    rfl
  cases hdir : t.chcr.direction with
  | TO => exact ⟨_, hturn (h.transferData_to hsadr hdir hmain hspr), rfl, copied_store_bytesAt _ _ _⟩
  | FROM => exact ⟨_, hturn (h.transferData_from hsadr hdir hmain hspr), rfl, copied_store_bytesAt _ _ _⟩

end Scratchpad

/-! ### A transfer -/

/-- A transfer of `n` qwords at `a` and at `spr`, of which `k` have been moved since `t₀`. -/
structure Moving (a : Uptr) (spr : Uword) (n k : ℕ) (t₀ t : EeDmacTurn) : Prop where
  /-- The channel is started. -/
  scratchpad : t.Scratchpad
  /-- The number of the channel. -/
  channelId : t.channelId = t₀.channelId
  /-- Its direction. -/
  direction : t.chcr.direction = t₀.chcr.direction
  /-- D_CTRL. -/
  ctrl : t.ctrl = t₀.ctrl
  /-- D_STAT. -/
  stat : t.stat = t₀.stat
  /-- MADR. -/
  madr : t.madr = a + BitVec.ofNat 32 (16 * k)
  /-- SADR. -/
  sadr : t.sadr = some (spr + BitVec.ofNat 32 (16 * k))
  /-- QWC. -/
  qwc : t.qwc.toNat + k = n
  /-- What is in the bus. -/
  mapped : t.memory.mapped = t₀.memory.mapped
  /-- What has been copied. -/
  copied : Copied (16 * k) (sprSource t₀.chcr.direction (mainCell a) (sprCell spr))
    (sprTarget t₀.chcr.direction (mainCell a) (sprCell spr)) t₀.memory.byte t.memory.byte

/-- What a transfer of `n` qwords at `a` and at `spr` leaves. -/
structure Transferred (a : Uptr) (spr : Uword) (n : ℕ) (t₀ t : EeDmacTurn) : Prop where
  /-- The number of the channel. -/
  channelId : t.channelId = t₀.channelId
  /-- D_CTRL. -/
  ctrl : t.ctrl = t₀.ctrl
  /-- The interrupt has been raised. -/
  stat : t.stat = (EeDmacStat.cis t₀.channelId).insertInto t₀.stat 1
  /-- `STR` is clear. -/
  str : str.extractFrom t.chcr.w = 0
  /-- QWC. -/
  qwc : t.qwc = 0
  /-- There is an SADR. -/
  sadr : t.sadr.isSome
  /-- What is in the bus. -/
  mapped : t.memory.mapped = t₀.memory.mapped
  /-- What has been copied. -/
  copied : Copied (16 * n) (sprSource t₀.chcr.direction (mainCell a) (sprCell spr))
    (sprTarget t₀.chcr.direction (mainCell a) (sprCell spr)) t₀.memory.byte t.memory.byte

variable {a : Uptr} {spr : Uword} {n k : ℕ} {t₀ : EeDmacTurn}

namespace Moving

theorem qwc_ne_zero (h : Moving a spr n k t₀ t) (hk : k < n) : t.qwc ≠ 0 := by
  intro hzero
  have hsum := h.qwc
  rw [hzero] at hsum
  exact absurd ((Nat.zero_add k).symm.trans hsum) hk.ne

theorem start (h : Moving a spr n k t₀ t) (hfresh : t.chcr.dmaStarted = false) (hk : k < n) :
    ∃ t', t.channelTurn = .ok t' ∧ Moving a spr n k t₀ t' ∧ t'.chcr.dmaStarted = true :=
  ⟨_, h.scratchpad.channelTurn_start hfresh (h.qwc_ne_zero hk),
    { h with
      scratchpad := ⟨h.scratchpad.channel, h.scratchpad.str, h.scratchpad.mod, h.scratchpad.sts, h.scratchpad.std⟩ },
    rfl⟩

theorem move (h : Moving a spr n k t₀ t) (hmaps : t₀.memory.MapsEe) (hregion : InMainMemory a n) (hn : n ≤ 0x400)
    (hstarted : t.chcr.dmaStarted = true) (hk : k < n) :
    ∃ t', t.channelTurn = .ok t' ∧ Moving a spr n (k + 1) t₀ t' ∧ t'.chcr.dmaStarted = true := by
  have hmaps' := hmaps.congr h.mapped
  have hmainAddress := transferAddress_eq hregion hk h.madr
  have hsprAddress := sprAddress_eq spr k
  have hmain : t.memory.isMapped t.transferAddress 16 = true := by
    rw [hmainAddress]
    exact hmaps'.isMapped_mainCell hregion hk
  have hspr : t.memory.isMapped (0x70000000 + (spr + BitVec.ofNat 32 (16 * k) &&& 0x3FF0)) 16 = true := by
    rw [hsprAddress]
    exact hmaps'.isMapped_sprCell spr k
  obtain ⟨memory, hturn, hmapped, hcopied⟩ :=
    h.scratchpad.channelTurn_move hstarted (h.qwc_ne_zero hk) h.sadr hmain hspr
  rw [hmainAddress, hsprAddress, h.direction] at hcopied
  have hblock := hcopied.congr (fun j hj => mainCell_sprSource (mainCell_add a _ j) (sprCell_add spr k hj))
    fun j hj => mainCell_sprTarget (mainCell_add a _ j) (sprCell_add spr k hj)
  have hstep : BitVec.ofNat 32 (16 * k) + 0x10 = BitVec.ofNat 32 (16 * (k + 1)) := by
    rw [Nat.mul_succ, BitVec.ofNat_add]
    rfl
  refine ⟨_, hturn, ?_, hstarted⟩
  exact {
    scratchpad := ⟨h.scratchpad.channel, h.scratchpad.str, h.scratchpad.mod, h.scratchpad.sts, h.scratchpad.std⟩
    channelId := h.channelId
    direction := h.direction
    ctrl := h.ctrl
    stat := h.stat
    madr := by
      change t.madr + 0x10 = _
      rw [h.madr, BitVec.add_assoc, hstep]
    sadr := by
      change some (spr + BitVec.ofNat 32 (16 * k) + 0x10) = _
      rw [BitVec.add_assoc, hstep]
    qwc := by
      have hsum := h.qwc
      change (t.qwc - 1).toNat + (k + 1) = n
      bv_omega
    mapped := hmapped.trans h.mapped
    copied := h.copied.append hblock
      (fun l hl j hj => sprTarget_ne_of_lt hregion hn (by omega) (by omega))
      fun l hl j hj => sprTarget_ne_sprSource hregion (by omega) (by omega) }

theorem finish (h : Moving a spr n n t₀ t) (hstarted : t.chcr.dmaStarted = true) :
    ∃ t', t.channelTurn = .ok t' ∧ Transferred a spr n t₀ t' := by
  have hqwc : t.qwc = 0 := by
    have hsum := h.qwc
    exact BitVec.eq_of_toNat_eq (Nat.add_right_cancel (hsum.trans (Nat.zero_add n).symm))
  obtain ⟨f240, hturn⟩ := h.scratchpad.channelTurn_end hstarted hqwc
  refine ⟨_, hturn, ?_⟩
  exact {
    channelId := h.channelId
    ctrl := h.ctrl
    stat := by rw [h.channelId, h.stat]
    str := (Bitfield.extractFrom_insertInto_self _ _ _ (by decide)).trans BitVec.zero_and
    qwc := hqwc
    sadr := Option.isSome_iff_exists.mpr ⟨_, h.sadr⟩
    mapped := h.mapped
    copied := h.copied }

end Moving

end EeDmacTurn

namespace EeDmac

open EeDmacTurn EeDmacChcr EeDmacCtrl

/-! ### Ticks -/

/-- Calls of `time_step` for as long as channel `i` is started. -/
inductive UntilStopped (i : Fin 10) : EeDmac → EeDmac → Prop where
  /-- The channel has stopped. -/
  | stopped {d : EeDmac} : d.Idle i → UntilStopped i d d
  /-- One more tick. -/
  | tick {d d' d'' : EeDmac} : ¬d.Idle i → d.timeStep = .ok d' → UntilStopped i d' d'' → UntilStopped i d d''

/-- Only channel `i` has turns, and has had since `d₀`. -/
structure Alone (i : Fin 10) (d₀ d : EeDmac) : Prop where
  /-- Every channel has its number. -/
  numbered : d.Numbered
  /-- Transfers are enabled. -/
  dmae : dmae.extractFrom d.ctrl ≠ 0
  /-- The other channels are not started. -/
  idle : ∀ j ≠ i, d.Idle j
  /-- They are as they were. -/
  others : ∀ j ≠ i, d.channels j = d₀.channels j

variable {i : Fin 10} {a : Uptr} {spr : Uword} {n k : ℕ} {d₀ d : EeDmac} {t₀ t : EeDmacTurn}

/-- A tick is a turn of the channel. -/
theorem Alone.tick (h : Alone i d₀ d) (ht : (d.turn i).channelTurn = .ok t) :
    ∃ d', d.timeStep = .ok d' ∧ Alone i d₀ d' ∧ d'.turn i = t := by
  obtain ⟨d', htick, hchannels, hshared⟩ : ∃ d', d.timeStep = .ok d' ∧ d'.channels = (d.setTurn i t).channels ∧
      d'.toEeDmacShared = t.toEeDmacShared :=
    ⟨_, (timeStep_eq_of_idle h.dmae h.idle ht).trans (handleInterruptCheck_eq _), rfl, rfl⟩
  have hframe := frame_channelTurn (d.turn i) t ht
  have hothers (j : Fin 10) (hj : j ≠ i) : d'.channels j = d.channels j := by
    rw [hchannels, channels_setTurn_of_ne hj]
  refine ⟨d', htick, ⟨fun j => ?_, ?_, fun j hj => ?_, fun j hj => (hothers j hj).trans (h.others j hj)⟩, ?_⟩
  · rw [hchannels]
    exact numbered_setTurn h.numbered (hframe.channelId.trans (h.numbered i)) j
  · rw [show d'.ctrl = t.ctrl from congrArg EeDmacShared.ctrl hshared, hframe.ctrl]
    exact h.dmae
  · rw [Idle, hothers j hj]
    exact h.idle j hj
  · rw [turn, hchannels, hshared, channels_setTurn_self]

/-- A transfer under way comes to its end. -/
theorem Alone.exists_untilStopped (h : Alone i d₀ d) (hmaps : t₀.memory.MapsEe) (hregion : InMainMemory a n)
    (hn : n ≤ 0x400) (hmoving : Moving a spr n k t₀ (d.turn i)) (hstarted : (d.turn i).chcr.dmaStarted = true) :
    ∃ d', UntilStopped i d d' ∧ Alone i d₀ d' ∧ Transferred a spr n t₀ (d'.turn i) := by
  -- the induction is on the qwords that are left
  obtain ⟨r, hr⟩ : ∃ r, k + r = n := ⟨_, (Nat.add_comm _ _).trans hmoving.qwc⟩
  induction r generalizing k d with
  | zero =>
    rw [Nat.add_zero] at hr
    subst hr
    obtain ⟨t, hturn, hdone⟩ := hmoving.finish hstarted
    obtain ⟨d', htick, halone, rfl⟩ := h.tick hturn
    exact ⟨d', .tick hmoving.scratchpad.str htick (.stopped hdone.str), halone, hdone⟩
  | succ r ih =>
    obtain ⟨t, hturn, hnext, hstarted'⟩ := hmoving.move hmaps hregion hn hstarted (by omega)
    obtain ⟨d', htick, halone, rfl⟩ := h.tick hturn
    obtain ⟨d'', hrest, hend⟩ := ih halone hnext hstarted' (by omega)
    exact ⟨d'', .tick hmoving.scratchpad.str htick hrest, hend⟩

/-! ### There and back -/

/-- What the two transfers rely on: the DMAC is enabled, without stall control, and no channel is started. -/
structure SprReady (d : EeDmac) : Prop where
  /-- Every channel has its number. -/
  numbered : d.Numbered
  /-- fromSPR and toSPR have an SADR. -/
  sadr : ∀ i, i = 8 ∨ i = 9 → (d.channels i).sadr.isSome
  /-- No channel is started. -/
  idle : ∀ i, d.Idle i
  /-- Transfers are enabled. -/
  dmae : dmae.extractFrom d.ctrl ≠ 0
  /-- There is no source of stall control. -/
  sts : sts.extractFrom d.ctrl = 0
  /-- Nor a drain. -/
  std : std.extractFrom d.ctrl = 0
  /-- The memories are in the bus. -/
  maps : d.memory.MapsEe

/-- A value written to CHCR starts a normal transfer in direction `dir`. -/
structure StartsNormal (value : Uword) (dir : Direction) : Prop where
  /-- `STR`. -/
  str : str.extractFrom value ≠ 0
  /-- `MOD`. -/
  mod : mod.extractFrom value = 0
  /-- `DIR`. -/
  dir : EeDmacChcr.dir.extractFrom value = 0 ↔ dir = .FROM

/-- The guest writes MADR, QWC, SADR and CHCR of a channel. -/
def program (d : EeDmac) (i : Fin 10) (madr qwc sadr chcr : Uword) : EeDmac :=
  { d with
    channels := Function.update d.channels i
      { d.channels i with
        madr, qwc
        sadr := (d.channels i).sadr.map fun _ => sadr
        chcr := (d.channels i).chcr.writeUword chcr } }

variable {dir : Direction} {value : Uword}

/-- The turn of a channel that has been programmed. -/
theorem SprReady.moving (h : d.SprReady) (hchannel : i = 9 ∧ dir = .TO ∨ i = 8 ∧ dir = .FROM)
    (hvalue : StartsNormal value dir) (hn : n ≤ 0x400) {t₀ : EeDmacTurn}
    (ht₀ : t₀ = (d.program i a (BitVec.ofNat 32 n) spr value).turn i) :
    Moving a spr n 0 t₀ t₀ ∧ t₀.chcr.direction = dir ∧ t₀.chcr.dmaStarted = false := by
  have hsadr : ((d.channels i).sadr.map fun _ => spr) = some spr := by
    obtain ⟨s, hs⟩ := Option.isSome_iff_exists.mp (h.sadr i (hchannel.symm.imp And.left And.left))
    rw [hs]
    rfl
  have hchcr : (d.channels i).chcr.writeUword value = ⟨value, false, false, false, false, .blank⟩ :=
    if_pos ⟨h.idle i, hvalue.str⟩
  have hturn : t₀ =
      { toEeDmacShared := d.toEeDmacShared
        toEeDmacChannel := { d.channels i with
          madr := a
          qwc := BitVec.ofNat 32 n
          sadr := some spr
          chcr := ⟨value, false, false, false, false, .blank⟩ } } := by
    rw [ht₀, turn, program]
    dsimp only
    rw [Function.update_self, hsadr, hchcr]
  have hid : t₀.channelId = i := by
    rw [hturn]
    exact h.numbered i
  have hdir : t₀.chcr.direction = dir := by
    rw [hturn, direction]
    cases dir with
    | FROM => exact if_pos (hvalue.dir.mpr rfl)
    | TO => exact if_neg fun hzero => absurd (hvalue.dir.mp hzero) (by decide)
  refine ⟨⟨⟨?_, ?_, ?_, ?_, ?_⟩, rfl, rfl, rfl, rfl, ?_, ?_, ?_, rfl, .zero _ _ _⟩, hdir, by rw [hturn]⟩
  · rw [hid, hdir]
    exact hchannel
  · rw [hturn]
    exact hvalue.str
  · rw [hturn]
    exact hvalue.mod
  · rw [hturn]
    exact h.sts
  · rw [hturn]
    exact h.std
  · rw [hturn]
    exact (BitVec.add_zero a).symm
  · rw [hturn]
    exact congrArg some (BitVec.add_zero spr).symm
  · rw [hturn]
    exact (BitVec.toNat_ofNat _ _).trans (Nat.mod_eq_of_lt (by omega))

/-- What a transfer leaves of the DMAC as it was before the channel was programmed. -/
structure SprTransferred (i : Fin 10) (dir : Direction) (a : Uptr) (spr : Uword) (n : ℕ) (d d' : EeDmac) : Prop where
  /-- The DMAC is ready for the next. -/
  ready : d'.SprReady
  /-- The interrupt has been raised. -/
  stat : d'.stat = (EeDmacStat.cis i).insertInto d.stat 1
  /-- QWC. -/
  qwc : (d'.channels i).qwc = 0
  /-- The other channels. -/
  others : ∀ j ≠ i, d'.channels j = d.channels j
  /-- What has been copied. -/
  copied : Copied (16 * n) (sprSource dir (mainCell a) (sprCell spr)) (sprTarget dir (mainCell a) (sprCell spr))
    d.memory.byte d'.memory.byte

/-- A programmed transfer runs to its end. -/
theorem SprReady.exists_untilStopped (h : d.SprReady) (hchannel : i = 9 ∧ dir = .TO ∨ i = 8 ∧ dir = .FROM)
    (hvalue : StartsNormal value dir) (hregion : InMainMemory a n) (h0 : 0 < n) (hn : n ≤ 0x400) :
    ∃ d', UntilStopped i (d.program i a (BitVec.ofNat 32 n) spr value) d' ∧ SprTransferred i dir a spr n d d' := by
  let d₁ := d.program i a (BitVec.ofNat 32 n) spr value
  obtain ⟨hmoving, hdir, hfresh⟩ := h.moving hchannel hvalue hn (rfl : d₁.turn i = _)
  have hself : (d₁.channels i).channelId = i :=
    (congrArg EeDmacChannel.channelId (Function.update_self i _ d.channels)).trans (h.numbered i)
  have hothers (j : Fin 10) (hj : j ≠ i) : d₁.channels j = d.channels j := Function.update_of_ne hj _ _
  have halone : Alone i d₁ d₁ := by
    refine ⟨fun j => ?_, h.dmae, fun j hj => ?_, fun _ _ => rfl⟩
    · by_cases hj : j = i
      · rw [hj, hself]
      · rw [hothers j hj]
        exact h.numbered j
    · rw [Idle, hothers j hj]
      exact h.idle j
  obtain ⟨t, hturn, hnext, hstarted⟩ := hmoving.start hfresh h0
  obtain ⟨d₂, htick, halone₂, rfl⟩ := halone.tick hturn
  obtain ⟨d', hrest, halone', hdone⟩ := halone₂.exists_untilStopped h.maps hregion hn hnext hstarted
  have hrest' (j : Fin 10) (hj : j ≠ i) : d'.channels j = d.channels j := (halone'.others j hj).trans (hothers j hj)
  refine ⟨d', .tick hmoving.scratchpad.str htick hrest, ⟨halone'.numbered, fun j hj => ?_, fun j => ?_, halone'.dmae, ?_,
    ?_, h.maps.congr hdone.mapped⟩, ?_, hdone.qwc, hrest', ?_⟩
  · by_cases hji : j = i
    · rw [hji]
      exact hdone.sadr
    · rw [hrest' j hji]
      exact h.sadr j hj
  · by_cases hji : j = i
    · rw [hji]
      exact hdone.str
    · rw [Idle, hrest' j hji]
      exact h.idle j
  · exact (congrArg EeDmacCtrl.sts.extractFrom hdone.ctrl).trans h.sts
  · exact (congrArg EeDmacCtrl.std.extractFrom hdone.ctrl).trans h.std
  · exact hself ▸ hdone.stat
  · exact hdir ▸ hdone.copied

/-- What is left of a copy of `n` qwords from `src` to the scratchpad at `spr` and from there to `dst`. -/
structure RoundTrip (src dst : Uptr) (spr : Uword) (n : ℕ) (d d' : EeDmac) : Prop where
  /-- The destination is as the source was. -/
  destination : ∀ k < 16 * n, d'.memory.byte (mainCell dst k) = d.memory.byte (mainCell src k)
  /-- The rest of the scratchpad and of main memory is as it was. -/
  rest : ∀ x, (∀ k < 16 * n, mainCell dst k ≠ x) → (∀ k < 16 * n, sprCell spr k ≠ x) →
    d'.memory.byte x = d.memory.byte x
  /-- `STR` is clear. -/
  str : d'.Idle 9 ∧ d'.Idle 8
  /-- QWC. -/
  qwc : (d'.channels 9).qwc = 0 ∧ (d'.channels 8).qwc = 0
  /-- Both interrupts have been raised. -/
  cis : d'.stat.getLsbD 9 = true ∧ d'.stat.getLsbD 8 = true

/-- A copy to the scratchpad and one from there, each run to its end. -/
theorem scratchpad_roundTrip {src dst : Uptr} {v w : Uword} (h : d.SprReady) (h0 : 0 < n) (hn : n ≤ 0x400)
    (hsrc : InMainMemory src n) (hdst : InMainMemory dst n) (hv : StartsNormal v .TO) (hw : StartsNormal w .FROM) :
    ∃ d₁ d₂, UntilStopped 9 (d.program 9 src (BitVec.ofNat 32 n) spr v) d₁ ∧
      UntilStopped 8 (d₁.program 8 dst (BitVec.ofNat 32 n) spr w) d₂ ∧ RoundTrip src dst spr n d d₂ := by
  obtain ⟨d₁, hrun₁, h₁⟩ := h.exists_untilStopped (.inl ⟨rfl, rfl⟩) hv hsrc h0 hn
  obtain ⟨d₂, hrun₂, h₂⟩ := h₁.ready.exists_untilStopped (.inr ⟨rfl, rfl⟩) hw hdst h0 hn
  have hto : Copied (16 * n) (mainCell src) (sprCell spr) d.memory.byte d₁.memory.byte := h₁.copied
  have hfrom : Copied (16 * n) (sprCell spr) (mainCell dst) d₁.memory.byte d₂.memory.byte := h₂.copied
  have h9 : d₂.channels 9 = d₁.channels 9 := h₂.others 9 (by decide)
  refine ⟨d₁, d₂, hrun₁, hrun₂, fun k hk => hto.copied_trans hfrom hk, fun x hx hspr => hto.others_trans hfrom hspr hx,
    ⟨h₂.ready.idle 9, h₂.ready.idle 8⟩, ⟨by rw [h9, h₁.qwc], h₂.qwc⟩, ?_, ?_⟩
  · rw [h₂.stat, h₁.stat, EeDmacStat.cis, EeDmacStat.cis, Bitfield.getLsbD_insertInto_bit _ _ _ (by decide),
      Bitfield.getLsbD_insertInto_bit _ _ _ (by decide)]
    rfl
  · rw [h₂.stat, EeDmacStat.cis, Bitfield.getLsbD_insertInto_bit _ _ _ (by decide)]
    rfl

/-- An enabled DMAC before a program has used it. -/
def sprIdle : EeDmac where
  ctrl := 1
  stat := 0
  stadr := 0
  sbusF240 := 0
  memory := ⟨fun _ => true, fun x => x.setWidth 8⟩
  channels i :=
    { channelId := i
      dmaFifoQueue := none
      madr := 0
      qwc := 0
      chcr := ⟨0, false, false, false, false, .blank⟩
      tadr := none
      asr := none
      sadr := some 0 }
  cause := .initial

theorem sprReady_sprIdle : sprIdle.SprReady where
  numbered _ := rfl
  sadr _ _ := rfl
  idle _ := show EeDmacChcr.str.extractFrom (0 : Uword) = 0 by decide
  dmae := show EeDmacCtrl.dmae.extractFrom (1 : Uword) ≠ 0 by decide
  sts := show EeDmacCtrl.sts.extractFrom (1 : Uword) = 0 by decide
  std := show EeDmacCtrl.std.extractFrom (1 : Uword) = 0 by decide
  maps := ⟨fun _ _ => rfl, fun _ _ _ => rfl⟩

/-- Two qwords, of which the first goes to the end of the scratchpad and the second to its start. -/
theorem scratchpad_roundTrip_wraps : ∃ d₁ d₂,
    UntilStopped 9 (sprIdle.program 9 0x1000 (BitVec.ofNat 32 2) 0x3FF8 0x101) d₁ ∧
      UntilStopped 8 (d₁.program 8 0x1010 (BitVec.ofNat 32 2) 0x3FF8 0x100) d₂ ∧
      RoundTrip 0x1000 0x1010 0x3FF8 2 sprIdle d₂ :=
  scratchpad_roundTrip sprReady_sprIdle (by decide) (by decide) (by decide) (by decide)
    ⟨by decide, by decide, by decide⟩ ⟨by decide, by decide, by decide⟩

end EeDmac

end Orbum
