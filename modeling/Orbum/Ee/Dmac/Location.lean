import Orbum.Ee.Dmac.Controller

/-!
# Locations

What a MADR, TADR or ASR register says: an address of 31 bits and whether it is in the scratchpad. The
arithmetic of ADDR is arithmetic on the address; an `offset` of the whole register is too, as long as it
does not carry into the SPR bit.

## The model

`Image` is an assignment of quadwords to some addresses, in memory and in the scratchpad, and `Holds` says
that a memory agrees with it: what a chain needs of memory, whatever else is in there.
-/

namespace Orbum

/-- What an address register of the DMAC says. -/
@[ext]
structure EeDmacLocation where
  /-- `ADDR`. -/
  addr : BitVec 31
  /-- `SPR`. -/
  spr : Bool
  deriving DecidableEq, Repr

namespace EeDmacLocation

/-- The location in a register. -/
def ofReg (r : Uword) : EeDmacLocation := ⟨r.setWidth 31, r.getLsbD 31⟩

variable (l : EeDmacLocation)

/-- `n` quadwords further. -/
def after (n : ℕ) : EeDmacLocation := { l with addr := l.addr + BitVec.ofNat 31 (16 * n) }

/-- `n` quadwords further there is still address space. -/
def Within (n : ℕ) : Prop := l.addr.toNat + 16 * n < 2 ^ 31

instance (n : ℕ) : Decidable (l.Within n) := inferInstanceAs (Decidable (_ < _))

/-- The address a tag is read from. -/
def tagAddress : Uptr := l.addr.setWidth 32

/-- The address a quadword of data is moved to or from. -/
def dataAddress : Uptr := l.addr.setWidth 32 &&& 0x1FFFFFF0

/-! ### Registers -/

theorem extractFrom_addr (r : Uword) : EeDmacAddr.addr.extractFrom r = (ofReg r).addr.setWidth 32 := by
  ext i hi
  rw [← BitVec.getLsbD_eq_getElem, ← BitVec.getLsbD_eq_getElem, Bitfield.getLsbD_extractFrom]
  simp only [ofReg, EeDmacAddr.addr, Nat.zero_add, BitVec.getLsbD_setWidth, hi, decide_true, Bool.true_and]
  rfl

theorem extractFrom_spr (r : Uword) :
    EeDmacAddr.spr.extractFrom r = (BitVec.ofBool (ofReg r).spr).setWidth 32 := by
  ext i hi
  rw [← BitVec.getLsbD_eq_getElem, Bitfield.getLsbD_extractFrom]
  by_cases h0 : i = 0
  · simp [ofReg, EeDmacAddr.spr, h0]
  · simp [EeDmacAddr.spr, h0]

@[simp] theorem ofReg_insertInto_addr (r x : Uword) :
    ofReg (EeDmacAddr.addr.insertInto r x) = { ofReg r with addr := x.setWidth 31 } := by
  ext i hi
  · rw [ofReg, ← BitVec.getLsbD_eq_getElem, BitVec.getLsbD_setWidth, Bitfield.getLsbD_insertInto _ _ _ _ (by omega)]
    simp [EeDmacAddr.addr, hi]
  · rw [ofReg, Bitfield.getLsbD_insertInto _ _ _ _ (by omega)]
    rfl

@[simp] theorem ofReg_insertInto_spr (r x : Uword) :
    ofReg (EeDmacAddr.spr.insertInto r x) = { ofReg r with spr := x.getLsbD 0 } := by
  ext i hi
  · rw [ofReg, ← BitVec.getLsbD_eq_getElem, BitVec.getLsbD_setWidth, Bitfield.getLsbD_insertInto _ _ _ _ (by omega)]
    simp [EeDmacAddr.spr, ofReg, show ¬31 ≤ i by omega, hi]
  · rw [ofReg, Bitfield.getLsbD_insertInto _ _ _ _ (by omega)]
    rfl

/-- The test of the SPR bit. -/
theorem spr_pos (r : Uword) : decide (0 < EeDmacAddr.spr.extractFrom r) = (ofReg r).spr := by
  rw [extractFrom_spr]
  cases (ofReg r).spr <;> rfl

/-- `offset(0x10)` of a register, which does not carry into SPR. -/
theorem ofReg_add_qword {r : Uword} (h : (ofReg r).Within 1) : ofReg (r + 0x10) = (ofReg r).after 1 := by
  have hr : r.toNat % 2 ^ 31 + 16 < 2 ^ 31 := by simpa [Within, ofReg] using h
  have haddr : (r + 0x10).setWidth 31 = r.setWidth 31 + BitVec.ofNat 31 (16 * 1) := by bv_omega
  have hspr : (r + 0x10).toNat / 2 ^ 31 = r.toNat / 2 ^ 31 := by
    have := r.isLt
    bv_omega
  simp only [ofReg, after, haddr, BitVec.getLsbD, Nat.testBit_eq_decide_div_mod_eq, hspr]

theorem after_zero : l.after 0 = l := by ext <;> simp [after]

theorem after_after (m n : ℕ) : (l.after m).after n = l.after (m + n) := by
  ext1
  · simp only [after, BitVec.add_assoc, ← BitVec.ofNat_add, Nat.mul_add]
  · rfl

end EeDmacLocation

/-- Where a tag sends the channel. -/
def EeDmatag.location (t : EeDmatag) : EeDmacLocation := .ofReg t.tag1

namespace EeDmatag

open EeDmacLocation

variable (t : EeDmatag)

theorem setWidth_addr : t.addr.setWidth 31 = t.location.addr := by
  rw [addr, show (⟨0, 31⟩ : Bitfield) = EeDmacAddr.addr from rfl, extractFrom_addr]
  simp [location]

theorem getLsbD_spr : t.spr.getLsbD 0 = t.location.spr := by
  rw [spr, show (⟨31, 1⟩ : Bitfield) = EeDmacAddr.spr from rfl, extractFrom_spr]
  simp [location]

theorem qwc_lt : t.qwc.toNat < 2 ^ 16 := Bitfield.toNat_extractFrom_lt _ _

end EeDmatag

/-! ### Memory images -/

/-- Quadwords at some addresses, of memory or of the scratchpad. -/
abbrev EeDmacImage := Uptr → Bool → Option Uqword

namespace EeDmacImage

/-- The memory agrees with the image. -/
def Holds (img : EeDmacImage) (m : Memory) : Prop :=
  ∀ address spr q, img address spr = some q → readQwordMemory m address spr = .ok q

/-- The quadword with the tag at a location. -/
def tagAt (img : EeDmacImage) (l : EeDmacLocation) : Option Uqword := img l.tagAddress l.spr

/-- The quadword of data at a location. -/
def dataAt (img : EeDmacImage) (l : EeDmacLocation) : Option Uqword := img l.dataAddress l.spr

/-- The quadwords from `l` on are `qs`. -/
def Block (img : EeDmacImage) : EeDmacLocation → List Uqword → Prop
  | _, [] => True
  | l, q :: qs => img.dataAt l = some q ∧ (qs ≠ [] → l.Within 1) ∧ Block img (l.after 1) qs

end EeDmacImage

/-- The tag in the low half of a quadword. -/
def EeDmatag.ofUqword (q : Uqword) : EeDmatag := ⟨q.uw 0, q.uw 1⟩

end Orbum
