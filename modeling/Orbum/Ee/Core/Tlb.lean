import Orbum.Common.Bitfield

/-!
# The TLB of the EE core

`Resources/Ee/Core/EeCoreTlb.cpp` and `EeCoreTlbEntry.hpp`: 48 entries, searched one after the other
in an order tuned to the BIOS. The loops of the search end before entry 47.
-/

namespace Orbum

/-! ### Entries -/

/-- The `switch` of the constructor `Mask(pagemask)`, `none` where it throws. -/
def evenoddMaskOf (pagemask : Uword) : Option Uword :=
  match (pagemask &&& 0xFFF).toNat with
  | 0x0 => some (1 <<< 12)
  | 0x3 => some (1 <<< 14)
  | 0xF => some (1 <<< 16)
  | 0x3F => some (1 <<< 18)
  | 0xFF => some (1 <<< 20)
  | 0x3FF => some (1 <<< 22)
  | 0xFFF => some (1 <<< 24)
  | _ => none

/-- `Mask`: a page size, with the masks derived from it. -/
structure Mask where
  /-- The page mask. -/
  pagemask : Uword
  /-- The address bit that selects the even or the odd page. -/
  evenoddMask : Uword
  /-- The address bits that are compared. -/
  tlbMask : Uword
  /-- It is one of the seven page sizes. -/
  evenodd_eq : evenoddMaskOf pagemask = some evenoddMask
  /-- The compared bits follow the page mask. -/
  tlb_eq : tlbMask = 0xFE000000 ||| ((~~~pagemask &&& 0xFFF) <<< 13)

/-- The constructor `Mask(pagemask)`. -/
def Mask.ofPagemask (pagemask : Uword) : Except HostError Mask :=
  match h : evenoddMaskOf pagemask with
  | some evenoddMask => .ok ⟨pagemask, evenoddMask, _, h, rfl⟩
  | none => .error (.runtimeError "Invalid mask supplied to TLB entry")

/-- `Mask()`, 4 KB pages. -/
def Mask.fourKb : Mask := ⟨0, 1 <<< 12, _, rfl, rfl⟩

/-- One half of `physical_info`. -/
structure PhysicalInfo where
  /-- The physical page. -/
  pfn : Uword
  /-- Cached. -/
  c : Bool
  /-- Dirty: writes are allowed. -/
  d : Bool
  /-- Valid. -/
  v : Bool

/-- `EeCoreTlbEntry`. -/
structure EeCoreTlbEntry where
  /-- The page size. -/
  mask : Mask
  /-- The virtual page pair. -/
  vpn2 : Uword
  /-- Global: the ASID is not compared. -/
  g : Bool
  /-- The address space. -/
  asid : Ubyte
  /-- The scratchpad entry. -/
  s : Bool
  /-- `physical_info[0]`. -/
  even : PhysicalInfo
  /-- `physical_info[1]`. -/
  odd : PhysicalInfo

namespace EeCoreTlbEntry

/-- What `is_match(vaddress, index)` asks of the entry at `index`. -/
def IsMatch (e : EeCoreTlbEntry) (vaddress : Uptr) : Prop :=
  (e.s ∧ vaddress >>> 14 = e.vpn2 >>> 1) ∨ (vaddress &&& e.mask.tlbMask) >>> 13 = e.vpn2

instance (e : EeCoreTlbEntry) (vaddress : Uptr) : Decidable (e.IsMatch vaddress) :=
  inferInstanceAs (Decidable (_ ∨ _))

/-- `physical_info[vaddress & mask.evenodd_mask ? 1 : 0]`. -/
def physicalInfo (e : EeCoreTlbEntry) (vaddress : Uptr) : PhysicalInfo :=
  if vaddress &&& e.mask.evenoddMask ≠ 0 then e.odd else e.even

end EeCoreTlbEntry

/-! ### The search -/

/-- Entries can be written as literals. -/
instance neZeroEntries : NeZero 48 := ⟨by decide⟩

/-- `EeCoreTlb`. -/
abbrev EeCoreTlb := Fin 48 → EeCoreTlbEntry

namespace EeCoreTlb

/-- The indices `find_tlb_entry_index` tries, loop by loop. -/
def searchOrder : List (Fin 48) :=
  [0] ++ (List.range 18).map (fun i => Fin.ofNat 48 (13 + i)) ++ (List.range 12).map (fun i => Fin.ofNat 48 (1 + i)) ++
    (List.range 7).map (fun i => Fin.ofNat 48 (31 + i)) ++ (List.range 9).map (fun i => Fin.ofNat 48 (38 + i))

/-- `find_tlb_entry_index(vaddress)`, `none` for -1. -/
def findTlbEntryIndex (tlb : EeCoreTlb) (vaddress : Uptr) : Option (Fin 48) :=
  searchOrder.find? fun i => (tlb i).IsMatch vaddress

/-- `generate_new_tlb_index()`. -/
def generateNewTlbIndex : Uword := 47

/-- `set_tlb_entry_at(entry, index)`. -/
def setTlbEntryAt (tlb : EeCoreTlb) (entry : EeCoreTlbEntry) (index : ℕ) : Except HostError EeCoreTlb :=
  if h : index < 48 then .ok (Function.update tlb ⟨index, h⟩ entry) else .error .outOfBounds

/-- `tlb_entry_at(index)`. -/
def tlbEntryAt (tlb : EeCoreTlb) (index : ℕ) : Except HostError EeCoreTlbEntry :=
  if h : index < 48 then .ok (tlb ⟨index, h⟩) else .error .outOfBounds

/-- The five loops try every entry but the last. -/
theorem mem_searchOrder (i : Fin 48) : i ∈ searchOrder ↔ i ≠ 47 := by
  revert i
  decide

theorem isMatch_of_find {tlb : EeCoreTlb} {vaddress : Uptr} {i : Fin 48}
    (h : tlb.findTlbEntryIndex vaddress = some i) : (tlb i).IsMatch vaddress := by
  simpa using List.find?_some h

theorem find_eq_none_iff (tlb : EeCoreTlb) (vaddress : Uptr) :
    tlb.findTlbEntryIndex vaddress = none ↔ ∀ i, i ≠ 47 → ¬(tlb i).IsMatch vaddress := by
  simp [findTlbEntryIndex, List.find?_eq_none, mem_searchOrder]

/-- An address that some entry matches is found unless entry 47 alone does. -/
theorem find_ne_none_iff (tlb : EeCoreTlb) {vaddress : Uptr} {i : Fin 48} (h : (tlb i).IsMatch vaddress) :
    tlb.findTlbEntryIndex vaddress ≠ none ↔ (i = 47 → ∃ j, j ≠ 47 ∧ (tlb j).IsMatch vaddress) := by
  rw [Ne, find_eq_none_iff]
  push Not
  constructor
  · exact fun hj _ => hj
  · intro hj
    by_cases hi : i = 47
    · exact hj hi
    · exact ⟨i, hi, h⟩

end EeCoreTlb

end Orbum
