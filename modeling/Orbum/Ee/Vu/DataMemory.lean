import Orbum.Ee.Vu.Unit
import Orbum.Lib.Except

/-!
# VU data memory

Where `initialise_ee_vpu` of `Resources/RResources.cpp` maps the data memories: VU0's at four addresses, as it is mirrored, and
VU1's once. Both are of the size that `VuUnits.cpp` constructs them with.

## What is proved

`dataOffset_word`: what is mapped at the address of a quadword is mapped at those of its words, side by side.
`WordsWritten.exists_read`: a quadword of which some words have been written has these words, and the others as they were.
-/

namespace Orbum

/-- The VUs, `VuUnit_Vu0` and `VuUnit_Vu1`. -/
inductive VuId where
  | vu0 | vu1
  deriving DecidableEq

namespace VuId

/-- The size of `memory_mem`. -/
def memorySize : VuId → ℕ
  | vu0 => 0x1000
  | vu1 => 0x4000

/-- The addresses that `memory_mem` is mapped at. -/
def mappings : VuId → List ℕ
  | vu0 => [0x0000, 0x1000, 0x2000, 0x3000]
  | vu1 => [0x0000]

/-- Where in `memory_mem` an address is, if it is mapped to it. -/
def dataOffset (k : VuId) (address : Uhword) : Option ℕ :=
  (k.mappings.find? fun base => base ≤ address.toNat ∧ address.toNat < base + k.memorySize).map (address.toNat - ·)

/-- The bus of a VU. -/
def bus {σ : Type} (k : VuId) (readRest : σ → Uhword → Except HostError Uqword)
    (writeRest : σ → Uhword → Uword → Except HostError σ) : VuBus σ :=
  ⟨k.dataOffset, readRest, writeRest⟩

/-- The memory is as large as it was constructed, and not read only. -/
structure HasMemory (k : VuId) (m : ArrayByteMemory) : Prop where
  size : m.size = k.memorySize
  readOnly : m.readOnly = false

variable {k : VuId} {address : Uhword} {offset : ℕ}

theorem offset_of_dataOffset (h : k.dataOffset address = some offset) :
    address.toNat < 0x4000 ∧ offset = address.toNat % k.memorySize := by
  obtain ⟨base, hbase, rfl⟩ := Option.map_eq_some_iff.mp h
  have hmem := List.mem_of_find?_eq_some hbase
  have hin : base ≤ address.toNat ∧ address.toNat < base + k.memorySize := by
    simpa only [decide_eq_true_eq] using List.find?_some hbase
  cases k with
  | vu0 =>
    simp only [mappings, List.mem_cons, List.not_mem_nil, or_false] at hmem
    simp only [memorySize] at hin ⊢
    omega
  | vu1 =>
    simp only [mappings, List.mem_cons, List.not_mem_nil, or_false] at hmem
    simp only [memorySize] at hin ⊢
    omega

theorem exists_dataOffset (h : address.toNat < 0x4000) : ∃ offset, k.dataOffset address = some offset := by
  refine Option.ne_none_iff_exists'.mp fun hnone => ?_
  have hout := List.find?_eq_none.mp (Option.map_eq_none_iff.mp hnone)
  simp only [decide_eq_true_eq] at hout
  cases k with
  | vu0 =>
    have h0 := hout 0x0000 (by decide)
    have h1 := hout 0x1000 (by decide)
    have h2 := hout 0x2000 (by decide)
    have h3 := hout 0x3000 (by decide)
    simp only [memorySize] at h0 h1 h2 h3
    omega
  | vu1 =>
    have h0 := hout 0x0000 (by decide)
    simp only [memorySize] at h0
    omega

/-- The mappings are side by side from 0 on. -/
theorem dataOffset_eq_some_iff :
    k.dataOffset address = some offset ↔ address.toNat < 0x4000 ∧ offset = address.toNat % k.memorySize := by
  refine ⟨offset_of_dataOffset, ?_⟩
  rintro ⟨hlt, rfl⟩
  obtain ⟨offset, hoffset⟩ := exists_dataOffset hlt
  rw [hoffset, (offset_of_dataOffset hoffset).2]

theorem toNat_quad (quad : Uword) : ((quad * 16).setWidth 16).toNat = quad.toNat % 0x1000 * 16 := by
  rw [BitVec.toNat_setWidth, BitVec.toNat_mul, show (16 : Uword).toNat = 16 from rfl]
  omega

theorem toNat_word {quad : Uword} {i : ℕ} (hi : i < 4) :
    ((quad * 16 + BitVec.ofNat 32 (4 * i)).setWidth 16).toNat = quad.toNat % 0x1000 * 16 + 4 * i := by
  rw [BitVec.toNat_setWidth, BitVec.toNat_add, BitVec.toNat_mul, BitVec.toNat_ofNat, show (16 : Uword).toNat = 16 from rfl]
  omega

/-- The words of a quadword that is mapped. -/
theorem dataOffset_word {quad : Uword} (h : k.dataOffset ((quad * 16).setWidth 16) = some offset) (f : VuField) :
    k.dataOffset ((quad * 16 + BitVec.ofNat 32 (4 * f.index)).setWidth 16) = some (offset + 4 * f.index) := by
  obtain ⟨hlt, rfl⟩ := offset_of_dataOffset h
  have hf := f.index_lt
  rw [toNat_quad] at hlt ⊢
  rw [dataOffset_eq_some_iff, toNat_word hf]
  cases k with
  | vu0 =>
    simp only [memorySize]
    omega
  | vu1 =>
    simp only [memorySize]
    omega

/-- A quadword that is mapped lies in the memory. -/
theorem dataOffset_add_le {quad : Uword} (h : k.dataOffset ((quad * 16).setWidth 16) = some offset) :
    offset + 16 ≤ k.memorySize := by
  obtain ⟨hlt, rfl⟩ := offset_of_dataOffset h
  rw [toNat_quad]
  cases k with
  | vu0 =>
    simp only [memorySize]
    omega
  | vu1 =>
    simp only [memorySize]
    omega

end VuId

/-! ### Words of a quadword -/

namespace ArrayByteMemory

open LittleEndian

variable {m : ArrayByteMemory} {offset : ℕ}

theorem exists_write {w : ℕ} (hreadOnly : m.readOnly = false) (hin : offset + w / 8 ≤ m.size) (v : BitVec w) :
    ∃ m', m.write w offset v = .ok m' := by
  rw [← m.length_memory, ← length_bytes (w / 8) v] at hin
  refine ⟨m.store offset (bytes (w / 8) v) hin, ?_⟩
  rw [write, if_neg (Bool.eq_false_iff.mp hreadOnly), dif_pos hin]

theorem getD_bytesAt {n i : ℕ} (h : i < n) : (m.bytesAt offset n).getD i 0 = m.memory.getD (offset + i) 0 := by
  rw [bytesAt, List.getD_eq_getElem?_getD, List.getElem?_take_of_lt h, List.getElem?_drop, List.getD_eq_getElem?_getD]

/-- A quadword has the words that are read one by one. -/
theorem read_uw (hin : offset + 16 ≤ m.size) :
    ∃ q : Uqword, m.read 128 offset = .ok q ∧ ∀ f : VuField, m.read 32 (offset + 4 * f.index) = .ok (q.uw f.index) := by
  rw [← m.length_memory] at hin
  refine ⟨_, if_pos hin, fun f => ?_⟩
  have hf := f.index_lt
  rw [read, if_pos (by omega)]
  refine congrArg _ (BitVec.eq_of_getLsbD_eq fun i hi => ?_)
  rw [Uqword.uw, BitVec.getLsbD_extractLsb', decide_eq_true hi, Bool.true_and, getLsbD_ofBytes _ hi,
    getLsbD_ofBytes _ (by omega), getD_bytesAt (by omega), getD_bytesAt (by omega),
    show offset + 4 * f.index + i / 8 = offset + (32 * f.index + i) / 8 by omega,
    show i % 8 = (32 * f.index + i) % 8 by omega]

/-- The words of the quadword at `offset` that are selected get their values, and everything else is kept. -/
structure WordsWritten (m m' : ArrayByteMemory) (offset : ℕ) (selected : VuField → Prop) (value : VuField → Uword) :
    Prop where
  size : m'.size = m.size
  readOnly : m'.readOnly = m.readOnly
  written : ∀ f, selected f → m'.read 32 (offset + 4 * f.index) = .ok (value f)
  kept : ∀ w k, (∀ f, selected f → k + w / 8 ≤ offset + 4 * f.index ∨ offset + 4 * f.index + 4 ≤ k) →
    m'.read w k = m.read w k

namespace WordsWritten

variable {m' m'' : ArrayByteMemory} {selected selected' : VuField → Prop} {value : VuField → Uword}

theorem refl (h : ∀ f, ¬selected f) : WordsWritten m m offset selected value :=
  ⟨rfl, rfl, fun f hf => absurd hf (h f), fun _ _ _ => rfl⟩

/-- One word. -/
theorem of_write {f : VuField} (hreadOnly : m.readOnly = false)
    (h : m.write 32 (offset + 4 * f.index) (value f) = .ok m') : WordsWritten m m' offset (· = f) value := by
  have hsame : m'.size = m.size ∧ m'.readOnly = m.readOnly := by
    obtain ⟨-, rfl⟩ | ⟨hin, rfl⟩ := write_cases h
    · exact ⟨rfl, rfl⟩
    · exact ⟨rfl, rfl⟩
  refine ⟨hsame.1, hsame.2, ?_, fun w k hapart => read_of_write_of_apart h ?_⟩
  · rintro g rfl
    exact read_of_write hreadOnly (by decide) h
  · exact hapart f rfl

/-- Words written one after the other, no word twice. -/
theorem trans (h : WordsWritten m m' offset selected value) (h' : WordsWritten m' m'' offset selected' value)
    (hdisjoint : ∀ f, selected f → ¬selected' f) :
    WordsWritten m m'' offset (fun f => selected f ∨ selected' f) value := by
  refine ⟨h'.size.trans h.size, h'.readOnly.trans h.readOnly, ?_, fun w k hapart => ?_⟩
  · rintro f (hf | hf)
    · rw [h'.kept 32 (offset + 4 * f.index) fun g hg => ?_, h.written f hf]
      have hne : f.index ≠ g.index := fun h => hdisjoint f hf (VuField.index_inj h ▸ hg)
      omega
    · exact h'.written f hf
  · rw [h'.kept w k fun f hf => hapart f (.inr hf), h.kept w k fun f hf => hapart f (.inl hf)]

theorem hasMemory {k : VuId} (h : WordsWritten m m' offset selected value) (hm : k.HasMemory m) : k.HasMemory m' :=
  ⟨h.size.trans hm.size, h.readOnly.trans hm.readOnly⟩

theorem congr (h : WordsWritten m m' offset selected value) (hselected : ∀ f, selected' f ↔ selected f) :
    WordsWritten m m' offset selected' value := by
  have heq : selected' = selected := funext fun f => propext (hselected f)
  rw [heq]
  exact h

/-- The quadword that is read after the write. -/
theorem exists_read (h : WordsWritten m m' offset selected value) (hin : offset + 16 ≤ m.size) :
    ∃ q : Uqword, m'.read 128 offset = .ok q ∧ (∀ f, selected f → q.uw f.index = value f) ∧
      ∀ f, ¬selected f → m.read 32 (offset + 4 * f.index) = .ok (q.uw f.index) := by
  rw [← h.size] at hin
  obtain ⟨q, hq, hwords⟩ := read_uw hin
  refine ⟨q, hq, fun f hf => ?_, fun f hf => ?_⟩
  · exact Except.ok.inj ((hwords f).symm.trans (h.written f hf))
  · rw [← hwords f, h.kept]
    intro g hg
    have hne : f.index ≠ g.index := fun h => hf (VuField.index_inj h ▸ hg)
    omega

end WordsWritten

end ArrayByteMemory

end Orbum
