import Mathlib.Tactic.IntervalCases
import Orbum.Common.Memory
import Orbum.Ee.Core.Interpreter.TimeStep
import Orbum.Ee.Core.Pages
import Orbum.Lib.Lanes

/-!
# Unaligned accesses

`LDL`, `LDR`, `LWL`, `LWR`, `SDL`, `SDR`, `SWL` and `SWR` access the aligned unit that their address is in, and merge
one side of it with the register: the left instruction at the last byte and the right one at the first byte together
access a doubleword or word at any address.

A merge moves whole bytes (`lane_loadMerge`, `lane_storeMerge_index`), so one instruction is a move of the bytes of the
register that it covers, and two cover all of them, in either order.
-/

namespace Orbum

open Lanes LittleEndian EeCore

/-! ### Merges -/

/-- Which part of a unit. -/
inductive Side where
  /-- `LDL`, `LWL`, `SDL` and `SWL`. -/
  | left
  /-- `LDR`, `LWR`, `SDR` and `SWR`. -/
  | right
  deriving DecidableEq, Repr

namespace Side

variable {w : ℕ}

/-- What a load leaves in the register. -/
def loadMerge : Side → ℕ → BitVec w → BitVec w → BitVec w
  | left, shift, reg, value =>
    (reg &&& (Bitfield.unshiftedMask ⟨0, w - 8⟩ w >>> shift)) ||| (value <<< (w - 8 - shift))
  | right, shift, reg, value =>
    (reg &&& (Bitfield.shiftedMask ⟨8, w - 8⟩ w <<< (w - 8 - shift))) ||| (value >>> shift)

/-- What a store leaves in the unit. -/
def storeMerge : Side → ℕ → BitVec w → BitVec w → BitVec w
  | left, shift, reg, value =>
    (reg >>> (w - 8 - shift)) ||| (value &&& (Bitfield.shiftedMask ⟨8, w - 8⟩ w <<< shift))
  | right, shift, reg, value =>
    (reg <<< shift) ||| (value &&& (Bitfield.unshiftedMask ⟨0, w - 8⟩ w >>> (w - 8 - shift)))

/-- Byte `j` of the register is one of the unit, when the address is at byte `k` of the `n` bytes of the unit. -/
def Covers (n k : ℕ) : Side → ℕ → Prop
  | left, j => n ≤ j + k + 1
  | right, j => j + k < n

instance (n k : ℕ) (side : Side) (j : ℕ) : Decidable (side.Covers n k j) := by
  cases side <;> unfold Covers <;> infer_instance

/-- Which byte of the unit it is. -/
def index (n k : ℕ) : Side → ℕ → ℕ
  | left, j => j + k + 1 - n
  | right, j => j + k

variable {n k j : ℕ}

theorem index_lt {side : Side} (hk : k < n) (hj : j < n) (h : side.Covers n k j) : side.index n k j < n := by
  cases side with
  | left =>
    simp only [Covers, index] at *
    omega
  | right => exact h

/-- The masks, bit by bit. -/
theorem getLsbD_low (p : ℕ) : (Bitfield.unshiftedMask ⟨0, w - 8⟩ w).getLsbD p = (decide (p < w) && decide (p < w - 8)) :=
  Bitfield.getLsbD_unshiftedMask ⟨0, w - 8⟩ p

theorem getLsbD_high (p : ℕ) :
    (Bitfield.shiftedMask ⟨8, w - 8⟩ w).getLsbD p = (decide (p < w) && decide (8 ≤ p ∧ p < 8 + (w - 8))) :=
  Bitfield.getLsbD_shiftedMask ⟨8, w - 8⟩ p

section Bits

variable {s p : ℕ} (hs : s + 8 ≤ w) (hp : p < w) (reg value : BitVec w)

include hs hp

theorem getLsbD_loadMerge_left :
    (left.loadMerge s reg value).getLsbD p =
      if p + s + 8 < w then reg.getLsbD p else value.getLsbD (p + s + 8 - w) := by
  simp only [loadMerge, BitVec.getLsbD_or, BitVec.getLsbD_and, BitVec.getLsbD_ushiftRight, BitVec.getLsbD_shiftLeft,
    getLsbD_low, hp]
  split_ifs with h
  · simp [show s + p < w by omega, show s + p < w - 8 by omega, show p < w - 8 - s by omega]
  · simp [show ¬s + p < w - 8 by omega, show ¬p < w - 8 - s by omega, show p - (w - 8 - s) = p + s + 8 - w by omega]

theorem getLsbD_loadMerge_right :
    (right.loadMerge s reg value).getLsbD p = if p + s < w then value.getLsbD (p + s) else reg.getLsbD p := by
  simp only [loadMerge, BitVec.getLsbD_or, BitVec.getLsbD_and, BitVec.getLsbD_ushiftRight, BitVec.getLsbD_shiftLeft,
    getLsbD_high, hp]
  split_ifs with h
  · simp [show ¬8 ≤ p - (w - 8 - s) by omega, Nat.add_comm s p]
  · simp [show 8 ≤ p - (w - 8 - s) by omega, show p - (w - 8 - s) < w by omega,
      show p - (w - 8 - s) < 8 + (w - 8) by omega, show ¬p < w - 8 - s by omega,
      BitVec.getLsbD_of_ge value (s + p) (by omega)]

theorem getLsbD_storeMerge_left :
    (left.storeMerge s reg value).getLsbD p =
      if p < s + 8 then reg.getLsbD (p + (w - 8 - s)) else value.getLsbD p := by
  simp only [storeMerge, BitVec.getLsbD_or, BitVec.getLsbD_and, BitVec.getLsbD_ushiftRight, BitVec.getLsbD_shiftLeft,
    getLsbD_high, hp]
  split_ifs with h
  · simp [show ¬8 ≤ p - s by omega, Nat.add_comm p]
  · simp [show 8 ≤ p - s by omega, show p - s < w by omega, show p - s < 8 + (w - 8) by omega, show ¬p < s by omega,
      BitVec.getLsbD_of_ge reg (w - 8 - s + p) (by omega)]

theorem getLsbD_storeMerge_right :
    (right.storeMerge s reg value).getLsbD p = if p < s then value.getLsbD p else reg.getLsbD (p - s) := by
  simp only [storeMerge, BitVec.getLsbD_or, BitVec.getLsbD_and, BitVec.getLsbD_ushiftRight, BitVec.getLsbD_shiftLeft,
    getLsbD_low, hp]
  split_ifs with h
  · simp [h, show w - 8 - s + p < w by omega, show w - 8 - s + p < w - 8 by omega]
  · simp [h, show ¬w - 8 - s + p < w - 8 by omega]

end Bits

/-- A load fills the bytes of the register that its unit covers. -/
theorem lane_loadMerge (side : Side) (hk : k < n) (hj : j < n) (reg value : BitVec (8 * n)) :
    lane 8 j (side.loadMerge (8 * k) reg value) =
      if side.Covers n k j then lane 8 (side.index n k j) value else lane 8 j reg := by
  apply BitVec.eq_of_getLsbD_eq
  intro i hi
  cases side with
  | left =>
    rw [getLsbD_lane, getLsbD_loadMerge_left (by omega) (by omega)]
    by_cases hc : n ≤ j + k + 1
    · rw [if_neg (by omega), if_pos (show left.Covers n k j from hc), getLsbD_lane, index,
        show 8 * j + i + 8 * k + 8 - 8 * n = 8 * (j + k + 1 - n) + i by omega]
    · rw [if_pos (by omega), if_neg (show ¬left.Covers n k j from hc), getLsbD_lane]
  | right =>
    rw [getLsbD_lane, getLsbD_loadMerge_right (by omega) (by omega)]
    by_cases hc : j + k < n
    · rw [if_pos (by omega), if_pos (show right.Covers n k j from hc), getLsbD_lane, index,
        show 8 * j + i + 8 * k = 8 * (j + k) + i by omega]
    · rw [if_neg (by omega), if_neg (show ¬right.Covers n k j from hc), getLsbD_lane]

/-- A store moves the bytes of the register that its unit covers. -/
theorem lane_storeMerge_index (side : Side) (hk : k < n) (hj : j < n) (hc : side.Covers n k j)
    (reg value : BitVec (8 * n)) :
    lane 8 (side.index n k j) (side.storeMerge (8 * k) reg value) = lane 8 j reg := by
  apply BitVec.eq_of_getLsbD_eq
  intro i hi
  cases side with
  | left =>
    have hc : n ≤ j + k + 1 := hc
    rw [getLsbD_lane, getLsbD_lane, index, getLsbD_storeMerge_left (by omega) (by omega), if_pos (by omega),
      show 8 * (j + k + 1 - n) + i + (8 * n - 8 - 8 * k) = 8 * j + i by omega]
  | right =>
    have hc : j + k < n := hc
    rw [getLsbD_lane, getLsbD_lane, index, getLsbD_storeMerge_right (by omega) (by omega), if_neg (by omega),
      show 8 * (j + k) + i - 8 * k = 8 * j + i by omega]

/-- It leaves the others alone. -/
theorem lane_storeMerge_of_ne (side : Side) {i : ℕ} (hk : k < n) (hi : i < n)
    (h : ∀ j < n, side.Covers n k j → side.index n k j ≠ i) (reg value : BitVec (8 * n)) :
    lane 8 i (side.storeMerge (8 * k) reg value) = lane 8 i value := by
  apply BitVec.eq_of_getLsbD_eq
  intro b hb
  cases side with
  | left =>
    have hlt : k < i := by
      by_contra hle
      exact h (i + n - 1 - k) (by omega) (show n ≤ _ by omega) (show i + n - 1 - k + k + 1 - n = i by omega)
    rw [getLsbD_lane, getLsbD_lane, getLsbD_storeMerge_left (by omega) (by omega), if_neg (by omega)]
  | right =>
    have hlt : i < k := by
      by_contra hle
      exact h (i - k) (by omega) (show _ < n by omega) (show i - k + k = i by omega)
    rw [getLsbD_lane, getLsbD_lane, getLsbD_storeMerge_right (by omega) (by omega), if_pos (by omega)]

end Side

/-! ### The instructions -/

/-- What is accessed. -/
inductive Size where
  /-- A word. -/
  | word
  /-- A doubleword. -/
  | dword
  deriving DecidableEq, Repr

namespace Size

/-- Its bytes. -/
def bytes : Size → ℕ
  | word => 4
  | dword => 8

/-- The bits of an address inside a unit. -/
def alignment : Size → Uptr
  | word => 3
  | dword => 7

variable {σ : Type} (M : Machine σ) (inst : EeCoreInstruction) (d : EeData σ)

/-- The loads. -/
def load : Size → Side → Micro σ
  | word, .left => Micro.lwl M inst d
  | word, .right => Micro.lwr M inst d
  | dword, .left => Micro.ldl M inst d
  | dword, .right => Micro.ldr M inst d

/-- The stores. -/
def store : Size → Side → Micro σ
  | word, .left => Micro.swl M inst d
  | word, .right => Micro.swr M inst d
  | dword, .left => Micro.sdl M inst d
  | dword, .right => Micro.sdr M inst d

/-- A mask that is shifted as a number is shifted as a register. -/
theorem natCast_shiftRight {w m : ℕ} (hm : m < 2 ^ w) (s : ℕ) : ((m >>> s : ℕ) : BitVec w) = BitVec.ofNat w m >>> s := by
  apply BitVec.eq_of_toNat_eq
  rw [BitVec.toNat_ushiftRight, BitVec.toNat_ofNat, Nat.mod_eq_of_lt hm, BitVec.natCast_eq_ofNat, BitVec.toNat_ofNat,
    Nat.mod_eq_of_lt (Nat.lt_of_le_of_lt (Nat.shiftRight_le m s) hm)]

theorem word_shiftRight (s : ℕ) : ((0x00FFFFFF >>> s : ℕ) : Uword) = Bitfield.unshiftedMask ⟨0, 24⟩ 32 >>> s :=
  natCast_shiftRight (by decide) s

theorem dword_shiftRight (s : ℕ) : ((0x00FFFFFFFFFFFFFF >>> s : ℕ) : Udword) = Bitfield.unshiftedMask ⟨0, 56⟩ 64 >>> s :=
  natCast_shiftRight (by decide) s

theorem load_eq (size : Size) (side : Side) :
    size.load M inst d side = Micro.loadPart M inst d (8 * size.bytes) size.alignment side.loadMerge := by
  cases size with
  | word =>
    cases side with
    | left =>
      simp only [load, Micro.lwl, word_shiftRight]
      rfl
    | right => rfl
  | dword =>
    cases side with
    | left =>
      simp only [load, Micro.ldl, dword_shiftRight]
      rfl
    | right => rfl

theorem store_eq (size : Size) (side : Side) :
    size.store M inst d side = Micro.storePart M inst d (8 * size.bytes) size.alignment side.storeMerge := by
  cases size with
  | word =>
    cases side with
    | left => rfl
    | right =>
      simp only [store, Micro.swr, word_shiftRight]
      rfl
  | dword =>
    cases side with
    | left => rfl
    | right =>
      simp only [store, Micro.sdr, dword_shiftRight]
      rfl

/-- The part of an address inside a unit. -/
theorem toNat_and_alignment (size : Size) (x : Uptr) : (x &&& size.alignment).toNat = x.toNat % size.bytes := by
  rw [BitVec.toNat_and]
  cases size with
  | word => exact Nat.and_two_pow_sub_one_eq_mod x.toNat 2
  | dword => exact Nat.and_two_pow_sub_one_eq_mod x.toNat 3

/-- `(address & alignment) << 3`. -/
theorem shift_eq (size : Size) (x : Uptr) :
    ((x &&& size.alignment) <<< 3).toNat = 8 * (x.toNat % size.bytes) := by
  have hlt : x.toNat % size.bytes < 8 := by cases size <;> simp only [bytes] <;> omega
  rw [BitVec.toNat_shiftLeft, toNat_and_alignment, Nat.shiftLeft_eq]
  omega

theorem toNat_and_not_alignment (size : Size) (x : Uptr) :
    (x &&& ~~~size.alignment).toNat = x.toNat - x.toNat % size.bytes := by
  have hshift (n : ℕ) : x &&& ~~~(Bitfield.unshiftedMask ⟨0, n⟩ 32) = (x >>> n) <<< n := by
    apply BitVec.eq_of_getLsbD_eq
    intro i hi
    rw [BitVec.getLsbD_and, BitVec.getLsbD_not, Bitfield.getLsbD_unshiftedMask, BitVec.getLsbD_shiftLeft,
      BitVec.getLsbD_ushiftRight]
    by_cases hn : i < n
    · simp [hn]
    · simp [hi, hn, Nat.add_sub_cancel' (Nat.not_lt.mp hn)]
  have hx := x.isLt
  cases size with
  | word =>
    have h : (x &&& ~~~3 : Uptr).toNat = _ := congrArg BitVec.toNat (hshift 2)
    rw [BitVec.toNat_shiftLeft, BitVec.toNat_ushiftRight, Nat.shiftLeft_eq, Nat.shiftRight_eq_div_pow] at h
    simp only [alignment, bytes]
    omega
  | dword =>
    have h : (x &&& ~~~7 : Uptr).toNat = _ := congrArg BitVec.toNat (hshift 3)
    rw [BitVec.toNat_shiftLeft, BitVec.toNat_ushiftRight, Nat.shiftLeft_eq, Nat.shiftRight_eq_div_pow] at h
    simp only [alignment, bytes]
    omega

theorem bytes_cases (size : Size) : size.bytes = 4 ∨ size.bytes = 8 := by
  cases size
  · exact .inl rfl
  · exact .inr rfl

theorem bytes_pos (size : Size) : 0 < size.bytes := by cases size <;> decide

/-- How far the address of an instruction is from the first byte accessed. -/
def offset (size : Size) : Side → ℕ
  | .left => size.bytes - 1
  | .right => 0

end Size

/-! ### Memory behind the translation -/

/-- The machine with a byte-addressed memory on the bus. -/
def overRam (M : Machine Memory) : Machine Memory :=
  { M with
    busRead := fun w physicalAddress m => do return (ofBytes w (← m.read physicalAddress (w / 8)), m)
    busWrite := fun w physicalAddress value m => m.write physicalAddress (bytes (w / 8) value) }

/-- The bytes from `a` on are where `τ` says, in memories made of whole units. The cache holds pages, as it does in every
run (`pageAligned_of_run`). -/
structure Maps (size : Size) (τ : Uptr → Uptr) (a : Uptr) (s : EeCore Memory) : Prop where
  /-- The cache. -/
  pageAligned : s.PageAligned
  /-- The translation. -/
  translate : ∀ j < size.bytes, (s.translateAddressData (a + BitVec.ofNat 32 j) .read).answer =
    .ok (τ (a + BitVec.ofNat 32 j))
  /-- The memory. -/
  mapped : ∀ j < size.bytes, ∀ y : Uptr, y.toNat / size.bytes = (τ (a + BitVec.ofNat 32 j)).toNat / size.bytes →
    s.data.rest.mapped y

/-- The unit that an instruction accesses is at `unit`, and has the bytes that the instruction covers. -/
structure UnitAt (size : Size) (side : Side) (τ : Uptr → Uptr) (a : Uptr) (k : ℕ) (unit : Uptr) (s : EeCore Memory) :
    Prop where
  /-- The translation. -/
  translate : (s.translateAddressData
    ((a + BitVec.ofNat 32 (size.offset side)) &&& ~~~size.alignment) .read).answer = .ok unit
  /-- The memory. -/
  mapped : s.data.rest.isMapped unit size.bytes
  /-- The bytes. -/
  covered : ∀ j < size.bytes, side.Covers size.bytes k j →
    τ (a + BitVec.ofNat 32 j) = unit + BitVec.ofNat 32 (side.index size.bytes k j)

/-- What is read of a unit. -/
theorem UnitAt.read {size : Size} {side : Side} {τ : Uptr → Uptr} {a : Uptr} {k : ℕ} {unit : Uptr} {s : EeCore Memory}
    (h : UnitAt size side τ a k unit s) : s.data.rest.read unit (8 * size.bytes / 8) =
      .ok ((List.range size.bytes).map fun i => s.data.rest.byte (unit + BitVec.ofNat 32 i)) := by
  rw [Nat.mul_div_cancel_left _ (by decide), Memory.read, if_pos h.mapped]

theorem toNat_add_ofNat (x : Uptr) {j : ℕ} (hj : j < 8) : (x + BitVec.ofNat 32 j).toNat = (x.toNat + j) % 2 ^ 32 := by
  rw [BitVec.toNat_add, BitVec.toNat_ofNat, Nat.mod_eq_of_lt (by omega : j < 2 ^ 32)]

/-- The bytes covered follow the address of the unit. -/
theorem toNat_covered (size : Size) (side : Side) (a : Uptr) {j : ℕ} (hj : j < size.bytes)
    (hc : side.Covers size.bytes ((a + BitVec.ofNat 32 (size.offset side)).toNat % size.bytes) j) :
    (a + BitVec.ofNat 32 j).toNat =
      ((a + BitVec.ofNat 32 (size.offset side)) &&& ~~~size.alignment).toNat +
        side.index size.bytes ((a + BitVec.ofNat 32 (size.offset side)).toNat % size.bytes) j := by
  have ha := a.isLt
  have hadd (i : ℕ) (hi : i < 8) := toNat_add_ofNat a hi
  rw [size.toNat_and_not_alignment]
  cases size with
  | word =>
    simp only [Size.bytes] at *
    rw [hadd j (by omega)]
    cases side with
    | left =>
      simp only [Side.Covers, Side.index, Size.offset, Size.bytes, hadd 3 (by omega)] at *
      omega
    | right =>
      simp only [Side.Covers, Side.index, Size.offset, hadd 0 (by omega)] at *
      omega
  | dword =>
    simp only [Size.bytes] at *
    rw [hadd j (by omega)]
    cases side with
    | left =>
      simp only [Side.Covers, Side.index, Size.offset, Size.bytes, hadd 7 (by omega)] at *
      omega
    | right =>
      simp only [Side.Covers, Side.index, Size.offset, hadd 0 (by omega)] at *
      omega

/-- The unit of an instruction, found from the page of its address. -/
theorem Maps.unitAt {size : Size} {τ : Uptr → Uptr} {a : Uptr} {s : EeCore Memory} (h : Maps size τ a s) (side : Side) :
    ∃ unit, UnitAt size side τ a ((a + BitVec.ofNat 32 (size.offset side)).toNat % size.bytes) unit s := by
  have hn := size.bytes_cases
  have hoffset : size.offset side < size.bytes := by
    cases side with
    | left => exact Nat.sub_lt (by omega) Nat.one_pos
    | right => exact Nat.lt_of_lt_of_le (by decide : 0 < 4) (by omega)
  have hcovered {j : ℕ} (hj : j < size.bytes) := toNat_covered size side a hj
  have halign := size.toNat_and_not_alignment (a + BitVec.ofNat 32 (size.offset side))
  have htranslate := h.translate _ hoffset
  have hmapped := h.mapped _ hoffset
  obtain ⟨base, hbase, hpage⟩ := answer_of_page h.pageAligned htranslate
  have hx := hpage _ rfl
  generalize hxa : a + BitVec.ofNat 32 (size.offset side) = x at *
  have hτx : τ x = base ||| (x &&& cacheMask) := Except.ok.inj (htranslate.symm.trans hx)
  have hbase' := base.isLt
  have hjoin (va : Uptr) := toNat_or_offset hbase va
  have hunit : ((x &&& ~~~size.alignment).toNat % 4096 + size.bytes ≤ 4096 ∧
      (x &&& ~~~size.alignment).toNat / 4096 = x.toNat / 4096) ∧
      (base.toNat + (x &&& ~~~size.alignment).toNat % 4096) % size.bytes = 0 := by
    rw [halign]
    rcases hn with hn | hn
    · rw [hn]
      omega
    · rw [hn]
      omega
  have hkey {va : Uptr} (hva : va.toNat / 4096 = x.toNat / 4096) : cacheKey va = cacheKey x := by
    apply BitVec.eq_of_toNat_eq
    rw [toNat_cacheKey, toNat_cacheKey, hva]
  obtain ⟨⟨hfits, hpageEq⟩, halignedUnit⟩ := hunit
  have hunitNat := hjoin (x &&& ~~~size.alignment)
  generalize hux : x &&& ~~~size.alignment = u at *
  refine ⟨base ||| (u &&& cacheMask), hxa ▸ hux ▸ hpage u (hkey hpageEq), ?_, fun j hj hc => ?_⟩
  · refine List.all_eq_true.mpr fun i hi => hmapped _ ?_
    have hi := List.mem_range.mp hi
    rw [hτx, toNat_add_ofNat _ (by omega), hunitNat, hjoin x]
    rcases hn with hn | hn
    · rw [hn] at hi hfits halign halignedUnit ⊢
      omega
    · rw [hn] at hi hfits halign halignedUnit ⊢
      omega
  · have hva := hcovered hj hc
    have hlt := Side.index_lt (Nat.mod_lt x.toNat (by omega)) hj hc
    have hj' := hpage (a + BitVec.ofNat 32 j) (hkey (by omega))
    rw [Except.ok.inj ((h.translate j hj).symm.trans hj')]
    apply BitVec.eq_of_toNat_eq
    rw [hjoin, toNat_add_ofNat (base ||| (u &&& cacheMask)) (by omega), hunitNat]
    omega

/-! ### One instruction -/

theorem lane_setWidth {n m w j : ℕ} (h : w * (j + 1) ≤ m) (v : BitVec n) : lane w j (v.setWidth m) = lane w j v := by
  apply BitVec.eq_of_getLsbD_eq
  intro i hi
  rw [Nat.mul_succ] at h
  rw [getLsbD_lane, getLsbD_lane, BitVec.getLsbD_setWidth, decide_eq_true (by omega : w * j + i < m), Bool.true_and]

theorem lane_signExtend {n m w j : ℕ} (hn : w * (j + 1) ≤ n) (hm : w * (j + 1) ≤ m) (v : BitVec n) :
    lane w j (v.signExtend m) = lane w j v := by
  apply BitVec.eq_of_getLsbD_eq
  intro i hi
  rw [Nat.mul_succ] at hn hm
  rw [getLsbD_lane, getLsbD_lane, BitVec.getLsbD_signExtend, decide_eq_true (by omega : w * j + i < m), Bool.true_and,
    if_pos (by omega)]

/-- The bytes of a unit. -/
theorem lane_ofBytes_map {n i : ℕ} (f : ℕ → Ubyte) (hi : i < n) :
    lane 8 i (ofBytes (8 * n) ((List.range n).map f)) = f i := by
  rw [lane, extractLsb'_ofBytes _ (by omega)]
  simp [hi]

section Unit

variable {n k : ℕ} {side : Side} {unit : Uptr} {place : ℕ → Uptr} (m : Memory) (hk : k < n)
  (hcovered : ∀ j < n, side.Covers n k j → place j = unit + BitVec.ofNat 32 (side.index n k j)) (reg : BitVec (8 * n))

/-- The bytes of a unit in memory. -/
def unitValue (m : Memory) (n : ℕ) (unit : Uptr) : BitVec (8 * n) :=
  ofBytes _ ((List.range n).map fun i => m.byte (unit + BitVec.ofNat 32 i))

include hk hcovered

/-- What a load makes of the register. -/
theorem lane_loadMerge_unit {j : ℕ} (hj : j < n) :
    lane 8 j (side.loadMerge (8 * k) reg (unitValue m n unit)) =
      if side.Covers n k j then m.byte (place j) else lane 8 j reg := by
  rw [Side.lane_loadMerge side hk hj]
  by_cases hc : side.Covers n k j
  · rw [if_pos hc, if_pos hc, unitValue, lane_ofBytes_map _ (Side.index_lt hk hj hc), hcovered j hj hc]
  · rw [if_neg hc, if_neg hc]

/-- What a store makes of the memory. -/
theorem byte_store_unit (hn : n ≤ 2 ^ 32) :
    (∀ j < n, side.Covers n k j →
      (m.store unit (bytes n (side.storeMerge (8 * k) reg (unitValue m n unit)))).byte (place j) = lane 8 j reg) ∧
    ∀ y, (∀ j < n, side.Covers n k j → place j ≠ y) →
      (m.store unit (bytes n (side.storeMerge (8 * k) reg (unitValue m n unit)))).byte y = m.byte y := by
  generalize hx : side.storeMerge (8 * k) reg (unitValue m n unit) = x
  -- The bytes of the unit afterwards.
  have hbyte {i : ℕ} (hi : i < n) : (m.store unit (bytes n x)).byte (unit + BitVec.ofNat 32 i) = lane 8 i x := by
    rw [Memory.byte_store_of_lt (by rwa [length_bytes]) (by rwa [length_bytes]), List.get_eq_getElem, getElem_bytes, lane]
  constructor
  · intro j hj hc
    rw [hcovered j hj hc, hbyte (Side.index_lt hk hj hc), ← hx]
    exact Side.lane_storeMerge_index side hk hj hc _ _
  · intro y hy
    by_cases hin : ∃ i < n, unit + BitVec.ofNat 32 i = y
    · obtain ⟨i, hi, rfl⟩ := hin
      rw [hbyte hi, ← hx, Side.lane_storeMerge_of_ne side hk hi (fun j hj hc hji => ?_), unitValue, lane_ofBytes_map _ hi]
      exact hy j hj hc (by rw [hcovered j hj hc, hji])
    · exact Memory.byte_store_of_apart fun i hi hxi => hin ⟨i, by rwa [length_bytes] at hi, hxi⟩

end Unit

section One

variable (M : Machine Memory) {size : Size} {side : Side} {τ : Uptr → Uptr} {a : Uptr} {inst : EeCoreInstruction}
  {s : EeCore Memory}

/-- A load fills the bytes of the register that it covers. -/
theorem run_load (h : Maps size τ a s)
    (haddr : Micro.virtualAddress inst s.data = a + BitVec.ofNat 32 (size.offset side)) :
    ∃ s', (size.load (overRam M) inst s.data side).run s = .ok (.value () s') ∧
      ∃ x : BitVec (8 * size.bytes), s'.data = s.data.writeUdword inst.rt (x.signExtend 64) ∧
        ∀ j < size.bytes, lane 8 j x =
          if side.Covers size.bytes ((a + BitVec.ofNat 32 (size.offset side)).toNat % size.bytes) j then
            s.data.rest.byte (τ (a + BitVec.ofNat 32 j))
          else lane 8 j (s.data.gpr inst.rt) := by
  obtain ⟨unit, hu⟩ := h.unitAt side
  obtain ⟨t, ht, hdata, -⟩ := EeCore.translate_value hu.translate
  have hn := size.bytes_pos
  have hk := Nat.mod_lt (a + BitVec.ofNat 32 (size.offset side)).toNat hn
  have hread := hu.read
  let x := side.loadMerge (8 * ((a + BitVec.ofNat 32 (size.offset side)).toNat % size.bytes))
    ((s.data.gpr inst.rt).setWidth (8 * size.bytes)) (unitValue s.data.rest size.bytes unit)
  refine ⟨t.setData (s.data.writeUdword inst.rt (x.signExtend 64)), ?_, x, rfl, fun j hj => ?_⟩
  · rw [Size.load_eq]
    simp only [Micro.loadPart, haddr, Micro.run, ht, Micro.busRead, overRam, hread, Size.shift_eq]
    rfl
  · rw [lane_loadMerge_unit s.data.rest hk hu.covered _ hj, lane_setWidth (by omega)]

/-- A store moves the bytes of the register that it covers. -/
theorem run_store (h : Maps size τ a s)
    (haddr : Micro.virtualAddress inst s.data = a + BitVec.ofNat 32 (size.offset side)) :
    ∃ s', (size.store (overRam M) inst s.data side).run s = .ok (.value () s') ∧ s'.data.gpr = s.data.gpr ∧
      s'.data.rest.mapped = s.data.rest.mapped ∧
      (∀ j < size.bytes,
        side.Covers size.bytes ((a + BitVec.ofNat 32 (size.offset side)).toNat % size.bytes) j →
          s'.data.rest.byte (τ (a + BitVec.ofNat 32 j)) = lane 8 j (s.data.gpr inst.rt)) ∧
      ∀ x, (∀ j < size.bytes,
        side.Covers size.bytes ((a + BitVec.ofNat 32 (size.offset side)).toNat % size.bytes) j →
          τ (a + BitVec.ofNat 32 j) ≠ x) → s'.data.rest.byte x = s.data.rest.byte x := by
  obtain ⟨unit, hu⟩ := h.unitAt side
  obtain ⟨t, ht, hdata, hagain⟩ := EeCore.translate_value hu.translate
  obtain ⟨t', ht', -⟩ := hagain .write
  have hk := Nat.mod_lt (a + BitVec.ofNat 32 (size.offset side)).toNat size.bytes_pos
  have hn : size.bytes ≤ 2 ^ 32 := by rcases size.bytes_cases with h | h <;> omega
  have hread := hu.read
  let x := side.storeMerge (8 * ((a + BitVec.ofNat 32 (size.offset side)).toNat % size.bytes))
    ((s.data.gpr inst.rt).setWidth (8 * size.bytes)) (unitValue s.data.rest size.bytes unit)
  have hwrite : s.data.rest.write unit (bytes (8 * size.bytes / 8) x) =
      .ok (s.data.rest.store unit (bytes size.bytes x)) := by
    rw [Nat.mul_div_cancel_left _ (by decide), Memory.write, length_bytes, if_pos hu.mapped]
  obtain ⟨hmoved, hkept⟩ := byte_store_unit s.data.rest hk hu.covered ((s.data.gpr inst.rt).setWidth _) hn
  refine ⟨t'.setData { s.data with rest := s.data.rest.store unit (bytes size.bytes x) }, ?_, rfl, rfl,
    fun j hj hc => (hmoved j hj hc).trans (lane_setWidth (by omega) _), hkept⟩
  have hset : t.setData { s.data with rest := s.data.rest } = t := by
    rw [← hdata]
    rfl
  rw [Size.store_eq]
  simp only [Micro.storePart, haddr, Micro.run, ht, Micro.busRead, Micro.busWrite, overRam, hread, Size.shift_eq]
  simp only [Micro.ofExcept, Micro.run, hset, ht', bind, Except.bind, pure, Except.pure]
  simp only [x, unitValue] at hwrite
  simp only [hwrite, x, unitValue]
  rfl

end One

/-! ### Between two instructions -/

/-- What a data instruction keeps of the translation. -/
structure SameMapping {σ : Type} (s s' : EeCore σ) : Prop where
  /-- COP0. -/
  cop0 : s'.cop0 = s.cop0
  /-- The TLB. -/
  tlb : s'.tlb = s.tlb
  /-- The cache holds pages. -/
  pageAligned : s.PageAligned → s'.PageAligned
  /-- The cache holds what the walk found. -/
  filled : s.Filled → s'.Filled

theorem SameMapping.trans {σ : Type} {s t u : EeCore σ} (h : SameMapping s t) (h' : SameMapping t u) : SameMapping s u :=
  ⟨h'.cop0.trans h.cop0, h'.tlb.trans h.tlb, h'.pageAligned ∘ h.pageAligned, h'.filled ∘ h.filled⟩

theorem sameMapping_setData {σ : Type} (s : EeCore σ) (d : EeData σ) : SameMapping s (s.setData d) :=
  ⟨rfl, rfl, id, id⟩

theorem sameMapping_of_translate {σ : Type} {s s' : EeCore σ} {va pa : Uptr} {rwAccess : MmuRwAccess}
    (h : s.translateAddressData va rwAccess = .value pa s') : SameMapping s s' := by
  have hhandled : (s.lookup .data va rwAccess).handled = .ok (some pa, s') := congrArg Result.handled h
  have hpages (hs : s.PageAligned) := pageAligned_of_handled hhandled (pageAligned_lookup hs .data va rwAccess)
  have hfilled (hs : s.Filled) := filled_of_lookup hs hhandled
  unfold translateAddressData at h
  rcases lookup_cases s .data va rwAccess with ⟨pa', cache, hl⟩ | ⟨e, -, hl⟩
  · rw [hl] at h
    obtain ⟨-, rfl⟩ := Result.value.inj h
    exact ⟨rfl, rfl, hpages, hfilled⟩
  · rw [hl] at h
    cases h

theorem sameMapping_of_run {σ : Type} {m : Micro σ} {s s' : EeCore σ} (h : m.run s = .ok (.value () s')) :
    SameMapping s s' := by
  induction m generalizing s with
  | done data =>
    obtain ⟨-, rfl⟩ := Result.value.inj (Except.ok.inj h)
    exact sameMapping_setData s data
  | fail e => cases h
  | raise e => cases h
  | usable cop next ih =>
    rcases handleCopUsable_cases cop s with ⟨-, hu⟩ | ⟨-, t, hu, -⟩
    · simp only [Micro.run, hu] at h
      exact ih h
    · simp only [Micro.run, hu] at h
      cases h
  | translate va rwAccess next ih =>
    cases hl : s.translateAddressData va rwAccess with
    | value pa t =>
      simp only [Micro.run, hl] at h
      exact (sameMapping_of_translate hl).trans (ih pa h)
    | exception e t =>
      simp only [Micro.run, hl] at h
      cases h
  | write data next ih => exact (sameMapping_setData s data).trans (ih h)

/-- The caches hide nothing of the bytes from `a` on. -/
def TransparentFrom (size : Size) (a : Uptr) (s : EeCore Memory) : Prop :=
  s.Filled ∧ ∀ j < size.bytes, (MmuOp.data (a + BitVec.ofNat 32 j) .read).Transparent s

/-- Then the bytes stay where they are. -/
theorem Maps.of_sameMapping {size : Size} {τ : Uptr → Uptr} {a : Uptr} {s s' : EeCore Memory} (h : Maps size τ a s)
    (htransparent : TransparentFrom size a s) (hs : SameMapping s s')
    (hmapped : s'.data.rest.mapped = s.data.rest.mapped) : Maps size τ a s' := by
  obtain ⟨hfilled, htransparent⟩ := htransparent
  refine ⟨hs.pageAligned h.pageAligned, fun j hj => ?_, hmapped ▸ h.mapped⟩
  have hwalk : (s.translateAddressFallback (a + BitVec.ofNat 32 j) .read).answer = .ok (τ (a + BitVec.ofNat 32 j)) :=
    (htransparent j hj).symm.trans (h.translate j hj)
  generalize a + BitVec.ofNat 32 j = va at hwalk ⊢
  rw [← hwalk, translateAddressFallback_answer]
  rw [translateAddressFallback_answer, walk_cacheKey] at hwalk
  have hkey : ∃ pa, walk s.cop0 s.tlb (cacheKey va) .read = .ok pa := by
    cases hw : walk s.cop0 s.tlb (cacheKey va) .read with
    | ok pa => exact ⟨pa, rfl⟩
    | error e =>
      rw [hw] at hwalk
      cases hwalk
  obtain ⟨pa, hpa⟩ := hkey
  have haccessible := (walk_eq_iff_accessible (filledBy_of_walk hpa) .read).mp hpa
  rw [← hs.cop0, ← hs.tlb] at haccessible
  have htransparent' := (lookup_transparent_iff (hs.filled hfilled) .data va .read).mpr fun _ => haccessible
  rw [translateAddressFallback_answer, hs.cop0, hs.tlb] at htransparent'
  exact htransparent'

/-! ### Two instructions -/

/-- The two sides cover all bytes. -/
theorem covers_or (size : Size) {first second : Side} (hsides : first ≠ second) (a : Uptr) {j : ℕ} (hj : j < size.bytes) :
    first.Covers size.bytes ((a + BitVec.ofNat 32 (size.offset first)).toNat % size.bytes) j ∨
      second.Covers size.bytes ((a + BitVec.ofNat 32 (size.offset second)).toNat % size.bytes) j := by
  have hboth : Side.left.Covers size.bytes ((a + BitVec.ofNat 32 (size.offset .left)).toNat % size.bytes) j ∨
      Side.right.Covers size.bytes ((a + BitVec.ofNat 32 (size.offset .right)).toNat % size.bytes) j := by
    have ha := a.isLt
    simp only [Side.Covers, Size.offset]
    cases size with
    | word =>
      simp only [Size.bytes] at *
      rw [toNat_add_ofNat a (by decide : 4 - 1 < 8), toNat_add_ofNat a (by decide : 0 < 8)]
      omega
    | dword =>
      simp only [Size.bytes] at *
      rw [toNat_add_ofNat a (by decide : 8 - 1 < 8), toNat_add_ofNat a (by decide : 0 < 8)]
      omega
  cases first with
  | left =>
    cases second with
    | left => exact absurd rfl hsides
    | right => exact hboth
  | right =>
    cases second with
    | left => exact hboth.symm
    | right => exact absurd rfl hsides

/-- No two of the bytes are in one place. -/
theorem Maps.injective {size : Size} {τ : Uptr → Uptr} {a : Uptr} {s : EeCore Memory} (h : Maps size τ a s) {i j : ℕ}
    (hi : i < size.bytes) (hj : j < size.bytes) (hτ : τ (a + BitVec.ofNat 32 i) = τ (a + BitVec.ofNat 32 j)) : i = j := by
  have hn := size.bytes_cases
  have hoffset {i : ℕ} (hi : i < size.bytes) : (τ (a + BitVec.ofNat 32 i)).toNat % 4096 = (a.toNat + i) % 4096 := by
    obtain ⟨base, hbase, hpage⟩ := answer_of_page h.pageAligned (h.translate i hi)
    rw [Except.ok.inj ((h.translate i hi).symm.trans (hpage _ rfl)), toNat_or_offset hbase, toNat_add_ofNat a (by omega)]
    omega
  have hmod := (hoffset hi).symm.trans ((congrArg (·.toNat % 4096) hτ).trans (hoffset hj))
  omega

section Two

variable (M : Machine Memory) {size : Size} {first second : Side} {τ : Uptr → Uptr} {a : Uptr}
  {inst inst' : EeCoreInstruction} {s : EeCore Memory}

theorem load_pair (hsides : first ≠ second) (hrt : inst'.rt = inst.rt) (h : Maps size τ a s)
    (haddr : Micro.virtualAddress inst s.data = a + BitVec.ofNat 32 (size.offset first)) :
    ∃ s', (size.load (overRam M) inst s.data first).run s = .ok (.value () s') ∧
      (TransparentFrom size a s → Maps size τ a s') ∧ (∀ r ≠ inst.rt, s'.data.gpr r = s.data.gpr r) ∧
      ∀ t, t.data = s'.data → Maps size τ a t →
        Micro.virtualAddress inst' t.data = a + BitVec.ofNat 32 (size.offset second) →
        ∃ t', (size.load (overRam M) inst' t.data second).run t = .ok (.value () t') ∧
          t'.data = s.data.writeUdword inst.rt ((ofBytes (8 * size.bytes)
            ((List.range size.bytes).map fun j => s.data.rest.byte (τ (a + BitVec.ofNat 32 j)))).signExtend 64) := by
  obtain ⟨s', hs', x, hx, hlanes⟩ := run_load M h haddr
  refine ⟨s', hs', fun hfrom => h.of_sameMapping hfrom (sameMapping_of_run hs') ?_, fun r hr => ?_,
    fun t ht hmaps haddr' => ?_⟩
  · rw [hx, EeData.rest_writeUdword]
  · rw [hx, EeData.gpr_writeUdword_of_ne _ hr]
  obtain ⟨t', ht', y, hy, hlanes'⟩ := run_load M hmaps haddr'
  refine ⟨t', ht', ?_⟩
  have hrest : t.data.rest = s.data.rest := by rw [ht, hx, EeData.rest_writeUdword]
  rw [hy, ht, hx, hrt, EeData.writeUdword_writeUdword]
  by_cases hr : inst.rt = 0
  · simp only [EeData.writeUdword, EeData.writeUqword, if_pos hr]
  -- The register between the two has what the first instruction loaded.
  have hgpr {j : ℕ} (hj : j < size.bytes) : lane 8 j (t.data.gpr inst'.rt) = lane 8 j x := by
    have hn := size.bytes_cases
    have hread : t.data.readUdword inst'.rt = x.signExtend 64 := by
      rw [ht, hx, hrt, EeData.readUdword_writeUdword _ hr]
    rw [← lane_setWidth (by omega : 8 * (j + 1) ≤ 64)]
    exact (congrArg (lane 8 j) hread).trans (lane_signExtend (by omega) (by omega) x)
  have hyx : y = ofBytes (8 * size.bytes)
      ((List.range size.bytes).map fun j => s.data.rest.byte (τ (a + BitVec.ofNat 32 j))) := by
    refine eq_of_lanes rfl fun j hj => ?_
    rw [hlanes' j hj, lane_ofBytes_map _ hj, hrest]
    by_cases hc : second.Covers size.bytes ((a + BitVec.ofNat 32 (size.offset second)).toNat % size.bytes) j
    · rw [if_pos hc]
    · rw [if_neg hc, hgpr hj, hlanes j hj, if_pos ((covers_or size hsides a hj).resolve_right hc)]
  rw [hyx]

theorem store_pair (hsides : first ≠ second) (hrt : inst'.rt = inst.rt) (h : Maps size τ a s)
    (haddr : Micro.virtualAddress inst s.data = a + BitVec.ofNat 32 (size.offset first)) :
    ∃ s', (size.store (overRam M) inst s.data first).run s = .ok (.value () s') ∧
      (TransparentFrom size a s → Maps size τ a s') ∧ s'.data.gpr = s.data.gpr ∧
      ∀ t, t.data = s'.data → Maps size τ a t →
        Micro.virtualAddress inst' t.data = a + BitVec.ofNat 32 (size.offset second) →
        ∃ t', (size.store (overRam M) inst' t.data second).run t = .ok (.value () t') ∧ t'.data.gpr = s.data.gpr ∧
          (∀ j < size.bytes, t'.data.rest.byte (τ (a + BitVec.ofNat 32 j)) = lane 8 j (s.data.gpr inst.rt)) ∧
          ∀ x, (∀ j < size.bytes, τ (a + BitVec.ofNat 32 j) ≠ x) → t'.data.rest.byte x = s.data.rest.byte x := by
  obtain ⟨s', hs', hgpr, hmapped, hmoved, hkept⟩ := run_store M h haddr
  refine ⟨s', hs', fun hfrom => h.of_sameMapping hfrom (sameMapping_of_run hs') hmapped, hgpr,
    fun t ht hmaps haddr' => ?_⟩
  obtain ⟨t', ht', hgpr', -, hmoved', hkept'⟩ := run_store M hmaps haddr'
  rw [ht] at hgpr' hmoved' hkept'
  refine ⟨t', ht', hgpr'.trans hgpr, fun j hj => ?_, fun x hx => ?_⟩
  · by_cases hc : second.Covers size.bytes ((a + BitVec.ofNat 32 (size.offset second)).toNat % size.bytes) j
    · rw [hmoved' j hj hc, hrt, hgpr]
    · rw [hkept' _ fun i hi hci hτ => hc (h.injective hi hj hτ ▸ hci)]
      exact hmoved j hj ((covers_or size hsides a hj).resolve_right hc)
  · rw [hkept' x fun j hj _ => hx j hj, hkept x fun j hj _ => hx j hj]

/-- Two loads give the bytes from `a` on, whatever the register had, and two stores move all bytes of the register there
and nothing else, in either order; the second instruction runs in any state with the data that the first has left. -/
theorem unaligned_access (hsides : first ≠ second) (hrt : inst'.rt = inst.rt) (h : Maps size τ a s)
    (haddr : Micro.virtualAddress inst s.data = a + BitVec.ofNat 32 (size.offset first)) :
    (∃ s', (size.load (overRam M) inst s.data first).run s = .ok (.value () s') ∧
      (TransparentFrom size a s → Maps size τ a s') ∧ (∀ r ≠ inst.rt, s'.data.gpr r = s.data.gpr r) ∧
      ∀ t, t.data = s'.data → Maps size τ a t →
        Micro.virtualAddress inst' t.data = a + BitVec.ofNat 32 (size.offset second) →
        ∃ t', (size.load (overRam M) inst' t.data second).run t = .ok (.value () t') ∧
          t'.data = s.data.writeUdword inst.rt ((ofBytes (8 * size.bytes)
            ((List.range size.bytes).map fun j => s.data.rest.byte (τ (a + BitVec.ofNat 32 j)))).signExtend 64)) ∧
    ∃ s', (size.store (overRam M) inst s.data first).run s = .ok (.value () s') ∧
      (TransparentFrom size a s → Maps size τ a s') ∧ s'.data.gpr = s.data.gpr ∧
      ∀ t, t.data = s'.data → Maps size τ a t →
        Micro.virtualAddress inst' t.data = a + BitVec.ofNat 32 (size.offset second) →
        ∃ t', (size.store (overRam M) inst' t.data second).run t = .ok (.value () t') ∧ t'.data.gpr = s.data.gpr ∧
          (∀ j < size.bytes, t'.data.rest.byte (τ (a + BitVec.ofNat 32 j)) = lane 8 j (s.data.gpr inst.rt)) ∧
          ∀ x, (∀ j < size.bytes, τ (a + BitVec.ofNat 32 j) ≠ x) → t'.data.rest.byte x = s.data.rest.byte x :=
  ⟨load_pair M hsides hrt h haddr, store_pair M hsides hrt h haddr⟩

end Two

/-- A machine with nothing but the memory. -/
def ramMachine : Machine Memory where
  busRead _ _ _ := .error .nullPointer
  busWrite _ _ _ _ := .error .nullPointer
  fpr _ _ := 0
  setFpr _ _ m := m
  setVf _ _ m := m
  csrC _ := 0
  other _ := none
  cpi _ := 9

/-- A core in kernel mode with `0x80001003` in `gpr[9]` and a doubleword in `gpr[8]`. -/
def unalignedCore : EeCore Memory where
  pc := 0x80001000
  bdelay := ⟨0, 0⟩
  data := ⟨fun r => if r = 9 then 0x80001003 else if r = 8 then 0x8877665544332211 else 0, fun _ => true, fun _ => 0⟩
  cop0 := { EeCoreCop0.initial with status := ⟨0, true, .kernel, false⟩ }
  tlb := fun _ => firstPages
  translationCacheData := .new ..
  translationCacheInst := .new ..

theorem maps_unalignedCore : Maps .dword (· &&& 0x1FFFFFFF) 0x80001003 unalignedCore := by
  refine ⟨pageAligned_flush unalignedCore, fun j hj => ?_, fun _ _ _ _ => rfl⟩
  have hj : j < 8 := hj
  interval_cases j <;> rfl

/-- Nothing is cached. -/
theorem transparentFrom_unalignedCore : TransparentFrom .dword 0x80001003 unalignedCore :=
  ⟨filled_flush unalignedCore, fun _ _ => (lookup_transparent_iff (filled_flush unalignedCore) .data _ .read).mpr nofun⟩

/-- `SDL` and then `SDR`. -/
theorem unaligned_access_sdl_sdr :
    ∃ s' t', (Micro.sdl (overRam ramMachine) ⟨0xB1280007⟩ unalignedCore.data).run unalignedCore = .ok (.value () s') ∧
      (Micro.sdr (overRam ramMachine) ⟨0xB5280000⟩ s'.data).run s' = .ok (.value () t') ∧
      t'.data.rest.byte 0x1003 = 0x11 ∧ t'.data.rest.byte 0x100A = 0x88 ∧ t'.data.rest.byte 0x100B = 0 := by
  obtain ⟨s', hs', hmaps, hgpr, hsecond⟩ := (@unaligned_access ramMachine .dword .left .right (· &&& 0x1FFFFFFF) 0x80001003
    ⟨0xB1280007⟩ ⟨0xB5280000⟩ unalignedCore (by decide) (by decide) maps_unalignedCore (by decide)).2
  have haddr : Micro.virtualAddress ⟨0xB5280000⟩ s'.data = 0x80001003 + BitVec.ofNat 32 0 := by
    rw [Micro.virtualAddress, EeData.readUword, hgpr]
    rfl
  obtain ⟨t', ht', -, hbytes, hkept⟩ := hsecond s' rfl (hmaps transparentFrom_unalignedCore) haddr
  exact ⟨s', t', hs', ht', hbytes 0 (by decide), hbytes 7 (by decide), hkept 0x100B (by decide)⟩

end Orbum
