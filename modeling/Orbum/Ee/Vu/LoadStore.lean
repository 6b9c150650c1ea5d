import Orbum.Ee.Vu.DataMemory

/-!
# VU loads and stores

`LQ`, `LQD`, `LQI`, `SQ`, `SQD`, `SQI`, `ILW`, `ISW`, `ILWR` and `ISWR` of
`Controller/Ee/Vpu/Vu/Interpreter/CVuInterpreter_TRANSFER.cpp`. They differ in the registers that they name and in where the
address comes from; a quadword is loaded whole and stored word by word.

## What is proved

`loadStore_iff`: a load that follows the store of its kind gives back what was stored, always where the registers are
vectors. `ILW` and `ILWR` take `dest()`, where a field is a bit, as the index of a word.
-/

namespace Orbum

namespace VuUnit

variable {σ : Type}

/-- `(offset + reg.read_uhword()) * NUMBER_BYTES_IN_QWORD`. -/
def quadAddress (offset base : Uhword) : Uword := (offset.setWidth 32 + base.setWidth 32) * 16

/-- The words of `source` that are selected, to `vf[inst.ft()]`. -/
def loadFields (source : Uqword) (inst : VuInstruction) (u : VuUnit σ) : Except HostError (VuUnit σ) :=
  VuField.vectorFields.foldlM
    (fun u field =>
      if inst.testDestField field then u.writeUword inst.ft field.index (source.uw field.index) else .ok u) u

/-- `bus.write_uword(address + NUMBER_BYTES_IN_WORD * field, value)` for every field that is selected. -/
def storeFields (bus : VuBus σ) (address : Uword) (value : VuField → VuUnit σ → Except HostError Uword)
    (inst : VuInstruction) (u : VuUnit σ) : Except HostError (VuUnit σ) :=
  VuField.vectorFields.foldlM
    (fun u field => if inst.testDestField field then do
        let v ← value field u
        u.busWriteUword bus (address + BitVec.ofNat 32 (4 * field.index)) v
      else .ok u) u

variable (bus : VuBus σ) (inst : VuInstruction) (u : VuUnit σ)

/-- `LQ`. -/
def lq : Except HostError (VuUnit σ) := do
  let is ← viIndex inst.is
  let source ← u.busReadUqword bus (quadAddress inst.imm11 (u.vi is))
  u.loadFields source inst

/-- `LQD`. -/
def lqd : Except HostError (VuUnit σ) := do
  let is ← viIndex inst.is
  let u := u.writeUhword is (u.vi is - 1)
  let source ← u.busReadUqword bus (quadAddress 0 (u.vi is))
  u.loadFields source inst

/-- `LQI`. -/
def lqi : Except HostError (VuUnit σ) := do
  let is ← viIndex inst.is
  let source ← u.busReadUqword bus (quadAddress 0 (u.vi is))
  let u ← u.loadFields source inst
  return u.writeUhword is (u.vi is + 1)

/-- The words of `vf[inst.fs()]` to the bus. -/
def storeVector (address : Uword) : Except HostError (VuUnit σ) :=
  u.storeFields bus address (fun field u => u.readUword inst.fs field.index) inst

/-- `SQ`. -/
def sq : Except HostError (VuUnit σ) := do
  let it ← viIndex inst.it
  u.storeVector bus inst (quadAddress inst.imm11 (u.vi it))

/-- `SQD`. -/
def sqd : Except HostError (VuUnit σ) := do
  let it ← viIndex inst.it
  let u := u.writeUhword it (u.vi it - 1)
  u.storeVector bus inst (quadAddress 0 (u.vi it))

/-- `SQI`. -/
def sqi : Except HostError (VuUnit σ) := do
  let it ← viIndex inst.ft
  let u ← u.storeVector bus inst (quadAddress 0 (u.vi it))
  return u.writeUhword it (u.vi it + 1)

/-- `uw[i]` of a quadword. -/
def wordAt (source : Uqword) (i : ℕ) : Except HostError Uword := if i < 4 then .ok (source.uw i) else .error .outOfBounds

/-- `ILW` and `ILWR`. -/
def loadInteger (offset : Uhword) : Except HostError (VuUnit σ) := do
  let is ← viIndex inst.is
  let it ← viIndex inst.it
  let quad ← u.busReadUqword bus (quadAddress offset (u.vi is))
  let source ← wordAt quad inst.dest.toNat
  return u.writeUhword it (source.setWidth 16)

/-- `ISW` and `ISWR`. -/
def storeInteger (offset : Uhword) : Except HostError (VuUnit σ) := do
  let it ← viIndex inst.it
  let is ← viIndex inst.is
  u.storeFields bus (quadAddress offset (u.vi is)) (fun _ u => .ok ((u.vi it).setWidth 32)) inst

/-- `ILW`. -/
def ilw : Except HostError (VuUnit σ) := u.loadInteger bus inst inst.imm15

/-- `ISW`. -/
def isw : Except HostError (VuUnit σ) := u.storeInteger bus inst inst.imm15

/-- `ILWR`. -/
def ilwr : Except HostError (VuUnit σ) := u.loadInteger bus inst 0

/-- `ISWR`. -/
def iswr : Except HostError (VuUnit σ) := u.storeInteger bus inst 0

end VuUnit

/-- A store and the load that takes back what it has stored. -/
inductive VuPair where
  | sqLq | sqiLqd | sqdLqi | iswIlw | iswrIlwr
  deriving DecidableEq

namespace VuPair

variable {σ : Type}

/-- The function of the store. -/
def store : VuPair → VuBus σ → VuInstruction → VuUnit σ → Except HostError (VuUnit σ)
  | sqLq => VuUnit.sq
  | sqiLqd => VuUnit.sqi
  | sqdLqi => VuUnit.sqd
  | iswIlw => VuUnit.isw
  | iswrIlwr => VuUnit.iswr

/-- The function of the load. -/
def load : VuPair → VuBus σ → VuInstruction → VuUnit σ → Except HostError (VuUnit σ)
  | sqLq => VuUnit.lq
  | sqiLqd => VuUnit.lqd
  | sqdLqi => VuUnit.lqi
  | iswIlw => VuUnit.ilw
  | iswrIlwr => VuUnit.ilwr

/-- One after the other. -/
def run (p : VuPair) (bus : VuBus σ) (s l : VuInstruction) (u : VuUnit σ) : Except HostError (VuUnit σ) := do
  let u ← p.store bus s u
  p.load bus l u

/-- Whether what is stored is a VI register. -/
def isInteger : VuPair → Bool
  | sqLq | sqiLqd | sqdLqi => false
  | iswIlw | iswrIlwr => true

/-- The register that a store has its address in. -/
def storeBase : VuPair → VuInstruction → BitVec 5
  | sqLq | sqiLqd | sqdLqi => VuInstruction.it
  | iswIlw | iswrIlwr => VuInstruction.is

/-- The immediate of a store or a load. -/
def immediate : VuPair → VuInstruction → Uhword
  | sqLq => VuInstruction.imm11
  | iswIlw => VuInstruction.imm15
  | sqiLqd | sqdLqi | iswrIlwr => fun _ => 0

/-- The address that is stored to. -/
def address (p : VuPair) (s : VuInstruction) (u : VuUnit σ) (base : BitVec 4) : Uword :=
  VuUnit.quadAddress (p.immediate s)
    (match p with
      | sqdLqi => (u.writeUhword base (u.vi base - 1)).vi base
      | sqLq | sqiLqd | iswIlw | iswrIlwr => u.vi base)

/-- The words of the two instructions agree on what is stored where. -/
structure Matches (p : VuPair) (s l : VuInstruction) : Prop where
  mask : ∀ f, s.testDestField f = l.testDestField f
  base : p.storeBase s = l.is
  immediate : p.immediate s = p.immediate l
  /-- One field is stored of a VI register. -/
  one : p.isInteger = true → ∃ f, ∀ g, l.testDestField g = true ↔ g = f

/-- What was stored is loaded, the words of the memory that are not selected and all other registers are kept, and the base
is as it was. -/
def RoundTrips (p : VuPair) (bus : VuBus σ) (s l : VuInstruction) (u : VuUnit σ) (offset : ℕ) : Prop :=
  if p.isInteger then
    ∃ t d m, VuUnit.viIndex s.it = .ok t ∧ VuUnit.viIndex l.it = .ok d ∧
      p.run bus s l u = .ok { u.writeUhword d (u.vi t) with memoryMem := m } ∧
      u.memoryMem.WordsWritten m offset (fun f => l.testDestField f = true) fun _ => (u.vi t).setWidth 32
  else
    ∃ q m, p.run bus s l u = .ok { u with vf := Function.update u.vf l.ft q, memoryMem := m } ∧
      (∀ f : VuField, q.uw f.index = if l.testDestField f then (u.vf s.fs).uw f.index else (u.vf l.ft).uw f.index) ∧
      u.memoryMem.WordsWritten m offset (fun f => l.testDestField f = true) fun f => (u.vf s.fs).uw f.index

/-- When a pair is right. -/
def Meets (p : VuPair) (s l : VuInstruction) (u : VuUnit σ) (offset : ℕ) : Prop :=
  l.is.toNat < 16 ∧ (p.isInteger = true → s.it.toNat < 16 ∧ l.it.toNat < 16 ∧
    (l.testDestField .z = true ∨ l.testDestField .w = true ∧
      (l.it = 0 ∨ ∃ word, u.memoryMem.read 32 (offset + 4 * VuField.y.index) = .ok word ∧
        word.setWidth 16 = u.vi (s.it.setWidth 4))))

end VuPair

/-! ### Loops over the fields -/

namespace VuUnit

variable {σ : Type} {k : VuId} {bus : VuBus σ} {inst : VuInstruction} {u : VuUnit σ} {quad : Uword} {offset : ℕ}

/-- The fields that are selected are those of the quadword. -/
theorem loadFields_eq (source : Uqword) (inst : VuInstruction) (u : VuUnit σ) :
    ∃ q, u.loadFields source inst = .ok { u with vf := Function.update u.vf inst.ft q } ∧
      ∀ f : VuField, q.uw f.index = if inst.testDestField f then source.uw f.index else (u.vf inst.ft).uw f.index :=
  writeFields_eq (fun f => source.uw f.index) inst u

theorem busWriteUword_eq (hbus : bus.dataOffset = k.dataOffset) (hmemory : k.HasMemory u.memoryMem)
    (hoffset : k.dataOffset ((quad * 16).setWidth 16) = some offset) (f : VuField) (v : VuField → Uword) :
    ∃ m, u.busWriteUword bus (quad * 16 + BitVec.ofNat 32 (4 * f.index)) (v f) = .ok { u with memoryMem := m } ∧
      u.memoryMem.WordsWritten m offset (· = f) v := by
  have hin : offset + 4 * f.index + 32 / 8 ≤ u.memoryMem.size := by
    have hle := VuId.dataOffset_add_le hoffset
    have hf := f.index_lt
    rw [hmemory.size]
    omega
  obtain ⟨m, hm⟩ := ArrayByteMemory.exists_write hmemory.readOnly hin (v f)
  refine ⟨m, ?_, .of_write hmemory.readOnly hm⟩
  rw [busWriteUword, hbus, VuId.dataOffset_word hoffset, Option.elim_some, hm]
  rfl

theorem storeFields_loop (inst : VuInstruction) {value : VuField → VuUnit σ → Except HostError Uword} {v : VuField → Uword}
    (hbus : bus.dataOffset = k.dataOffset) (hmemory : k.HasMemory u.memoryMem)
    (hoffset : k.dataOffset ((quad * 16).setWidth 16) = some offset)
    (hvalue : ∀ f m, value f { u with memoryMem := m } = .ok (v f)) {fields : List VuField} (hnodup : fields.Nodup) :
    ∃ m, fields.foldlM
        (fun u field => if inst.testDestField field then do
            let v ← value field u
            u.busWriteUword bus (quad * 16 + BitVec.ofNat 32 (4 * field.index)) v
          else .ok u) u = .ok { u with memoryMem := m } ∧
      u.memoryMem.WordsWritten m offset (fun f => f ∈ fields ∧ inst.testDestField f = true) v := by
  induction fields generalizing u with
  | nil => exact ⟨u.memoryMem, rfl, .refl fun f h => List.not_mem_nil h.1⟩
  | cons g fields ih =>
    obtain ⟨hgs, hnodup⟩ := List.nodup_cons.mp hnodup
    rw [List.foldlM_cons]
    by_cases hg : inst.testDestField g = true
    · obtain ⟨m, hwrite, hwritten⟩ := busWriteUword_eq hbus hmemory hoffset g v
      obtain ⟨m', hrun, hrest⟩ := ih (u := { u with memoryMem := m }) (hwritten.hasMemory hmemory) hvalue hnodup
      refine ⟨m', ?_, ?_⟩
      · rw [if_pos hg, hvalue g u.memoryMem, ok_bind, hwrite, ok_bind, hrun]
      · refine (hwritten.trans hrest fun f hf hin => hgs (hf ▸ hin.1)).congr fun f => ?_
        rw [List.mem_cons]
        constructor
        · rintro ⟨rfl | hf, h⟩
          · exact .inl rfl
          · exact .inr ⟨hf, h⟩
        · rintro (rfl | ⟨hf, h⟩)
          · exact ⟨.inl rfl, hg⟩
          · exact ⟨.inr hf, h⟩
    · obtain ⟨m, hrun, hwritten⟩ := ih (u := u) hmemory hvalue hnodup
      refine ⟨m, ?_, hwritten.congr fun f => (mem_cons_and_iff hg f).symm⟩
      rw [if_neg hg, ok_bind, hrun]

theorem storeFields_eq (inst : VuInstruction) {value : VuField → VuUnit σ → Except HostError Uword} {v : VuField → Uword}
    (hbus : bus.dataOffset = k.dataOffset) (hmemory : k.HasMemory u.memoryMem)
    (hoffset : k.dataOffset ((quad * 16).setWidth 16) = some offset)
    (hvalue : ∀ f m, value f { u with memoryMem := m } = .ok (v f)) :
    ∃ m, u.storeFields bus (quad * 16) value inst = .ok { u with memoryMem := m } ∧
      u.memoryMem.WordsWritten m offset (fun f => inst.testDestField f = true) v := by
  obtain ⟨m, hrun, hwritten⟩ := storeFields_loop inst hbus hmemory hoffset hvalue (show VuField.vectorFields.Nodup by decide)
  refine ⟨m, hrun, hwritten.congr fun f => ?_⟩
  have hmem : f ∈ VuField.vectorFields := by
    cases f <;> decide
  exact (and_iff_right hmem).symm

theorem busReadUqword_eq (hbus : bus.dataOffset = k.dataOffset)
    (hoffset : k.dataOffset ((quad * 16).setWidth 16) = some offset) :
    u.busReadUqword bus (quad * 16) = u.memoryMem.read 128 offset := by
  rw [busReadUqword, hbus, hoffset, Option.elim_some]

/-! ### The base register -/

/-- An update of the base is undone. -/
theorem writeUhword_back {g h : Uhword → Uhword} (hback : ∀ v, h (g v) = v) (i : BitVec 4) (u : VuUnit σ) :
    (u.writeUhword i (g (u.vi i))).writeUhword i (h ((u.writeUhword i (g (u.vi i))).vi i)) = u := by
  by_cases hi : i = 0
  · rw [hi, writeUhword_zero, writeUhword_zero]
  · rw [vi_writeUhword_self hi, hback, writeUhword, writeUhword, if_neg hi, if_neg hi, Function.update_idem,
      Function.update_eq_self]

theorem writeUhword_frame (i : BitVec 4) (value : Uhword) (u : VuUnit σ) (vf : BitVec 5 → Uqword) (m : ArrayByteMemory) :
    ({ u with vf := vf, memoryMem := m } : VuUnit σ).writeUhword i value =
      { u.writeUhword i value with vf := vf, memoryMem := m } := by
  unfold writeUhword
  split_ifs <;> rfl

theorem storeVector_eq (s : VuInstruction) (hbus : bus.dataOffset = k.dataOffset) (hmemory : k.HasMemory u.memoryMem)
    (hoffset : k.dataOffset ((quad * 16).setWidth 16) = some offset) :
    ∃ m, u.storeVector bus s (quad * 16) = .ok { u with memoryMem := m } ∧
      u.memoryMem.WordsWritten m offset (fun f => s.testDestField f = true) fun f => (u.vf s.fs).uw f.index :=
  storeFields_eq s hbus hmemory hoffset fun f _ => if_pos f.index_lt

/-- A quadword that was stored from one vector register and is loaded to another. -/
theorem loadVector_eq {s l : VuInstruction} {m : ArrayByteMemory} (hmask : ∀ f, s.testDestField f = l.testDestField f)
    (hbus : bus.dataOffset = k.dataOffset) (hmemory : k.HasMemory u.memoryMem)
    (hoffset : k.dataOffset ((quad * 16).setWidth 16) = some offset) {v : VuField → Uword}
    (hwritten : u.memoryMem.WordsWritten m offset (fun f => s.testDestField f = true) v) {t : VuUnit σ}
    (ht : t.memoryMem = m) :
    ∃ source q, t.busReadUqword bus (quad * 16) = .ok source ∧
      t.loadFields source l = .ok { t with vf := Function.update t.vf l.ft q } ∧
        ∀ f : VuField, q.uw f.index = if l.testDestField f then v f else (t.vf l.ft).uw f.index := by
  obtain ⟨source, hread, hsource, -⟩ := hwritten.exists_read (by rw [hmemory.size]; exact VuId.dataOffset_add_le hoffset)
  obtain ⟨q, hrun, hq⟩ := loadFields_eq source l t
  refine ⟨source, q, ?_, hrun, fun f => ?_⟩
  · rw [busReadUqword_eq hbus hoffset, ht, hread]
  · rw [hq f]
    split_ifs with hf
    · exact hsource f ((hmask f).trans hf)
    · rfl

/-! ### Loads and stores that come to an end -/

variable {t : VuUnit σ} {b : BitVec 4} {source : Uqword}

theorem sq_eq_ok (hit : viIndex inst.it = .ok b)
    (hstore : u.storeVector bus inst (quadAddress inst.imm11 (u.vi b)) = .ok t) : u.sq bus inst = .ok t := by
  rw [sq, hit]
  exact hstore

theorem sqd_eq_ok (hit : viIndex inst.it = .ok b)
    (hstore : (u.writeUhword b (u.vi b - 1)).storeVector bus inst (quadAddress 0 ((u.writeUhword b (u.vi b - 1)).vi b)) =
      .ok t) : u.sqd bus inst = .ok t := by
  rw [sqd, hit]
  exact hstore

theorem sqi_eq_ok (hit : viIndex inst.it = .ok b)
    (hstore : u.storeVector bus inst (quadAddress 0 (u.vi b)) = .ok t) :
    u.sqi bus inst = .ok (t.writeUhword b (t.vi b + 1)) := by
  rw [sqi, show viIndex inst.ft = .ok b from hit, ok_bind, hstore]
  rfl

theorem lq_eq_ok (his : viIndex inst.is = .ok b)
    (hread : u.busReadUqword bus (quadAddress inst.imm11 (u.vi b)) = .ok source) (hload : u.loadFields source inst = .ok t) :
    u.lq bus inst = .ok t := by
  rw [lq, his, ok_bind, hread]
  exact hload

theorem lqd_eq_ok {u' : VuUnit σ} (his : viIndex inst.is = .ok b) (hu : u.writeUhword b (u.vi b - 1) = u')
    (hread : u'.busReadUqword bus (quadAddress 0 (u'.vi b)) = .ok source) (hload : u'.loadFields source inst = .ok t) :
    u.lqd bus inst = .ok t := by
  rw [lqd, his, ok_bind]
  dsimp only
  rw [hu, hread]
  exact hload

theorem lqi_eq_ok (his : viIndex inst.is = .ok b)
    (hread : u.busReadUqword bus (quadAddress 0 (u.vi b)) = .ok source) (hload : u.loadFields source inst = .ok t) :
    u.lqi bus inst = .ok (t.writeUhword b (t.vi b + 1)) := by
  rw [lqi, his, ok_bind, hread, ok_bind, hload]
  rfl

end VuUnit

namespace VuPair

variable {σ : Type} {k : VuId} {bus : VuBus σ} {s l : VuInstruction} {u : VuUnit σ} {offset : ℕ} {base : BitVec 4}

theorem run_eq_ok {p : VuPair} {t t' : VuUnit σ} (hstore : p.store bus s u = .ok t) (hload : p.load bus l t = .ok t') :
    p.run bus s l u = .ok t' := by
  rw [run, hstore]
  exact hload

theorem sqLq_roundTrips (hmatch : sqLq.Matches s l) (hbus : bus.dataOffset = k.dataOffset)
    (hmemory : k.HasMemory u.memoryMem) (hbase : VuUnit.viIndex l.is = .ok base)
    (hoffset : k.dataOffset ((sqLq.address s u base).setWidth 16) = some offset) : sqLq.RoundTrips bus s l u offset := by
  have hit : VuUnit.viIndex s.it = .ok base := (congrArg VuUnit.viIndex hmatch.base).trans hbase
  have himm : s.imm11 = l.imm11 := hmatch.immediate
  obtain ⟨m, hstore, hwritten⟩ := VuUnit.storeVector_eq s hbus hmemory hoffset
  obtain ⟨source, q, hread, hload, hq⟩ := VuUnit.loadVector_eq (t := { u with memoryMem := m }) hmatch.mask hbus hmemory hoffset
    hwritten rfl
  refine ⟨q, m, run_eq_ok (VuUnit.sq_eq_ok hit hstore) (VuUnit.lq_eq_ok hbase ?_ hload), hq, ?_⟩
  · rw [← himm]
    exact hread
  · exact hwritten.congr fun f => by rw [hmatch.mask f]

theorem sqiLqd_roundTrips (hmatch : sqiLqd.Matches s l) (hbus : bus.dataOffset = k.dataOffset)
    (hmemory : k.HasMemory u.memoryMem) (hbase : VuUnit.viIndex l.is = .ok base)
    (hoffset : k.dataOffset ((sqiLqd.address s u base).setWidth 16) = some offset) : sqiLqd.RoundTrips bus s l u offset := by
  have hit : VuUnit.viIndex s.it = .ok base := (congrArg VuUnit.viIndex hmatch.base).trans hbase
  obtain ⟨m, hstore, hwritten⟩ := VuUnit.storeVector_eq s hbus hmemory hoffset
  obtain ⟨source, q, hread, hload, hq⟩ := VuUnit.loadVector_eq (t := { u with memoryMem := m }) hmatch.mask hbus hmemory hoffset
    hwritten rfl
  have hback := VuUnit.writeUhword_back (g := (· + 1)) (h := (· - 1)) (fun v => by bv_omega) base { u with memoryMem := m }
  refine ⟨q, m, run_eq_ok (VuUnit.sqi_eq_ok hit hstore) (VuUnit.lqd_eq_ok hbase hback hread hload), hq, ?_⟩
  exact hwritten.congr fun f => by rw [hmatch.mask f]

theorem sqdLqi_roundTrips (hmatch : sqdLqi.Matches s l) (hbus : bus.dataOffset = k.dataOffset)
    (hmemory : k.HasMemory u.memoryMem) (hbase : VuUnit.viIndex l.is = .ok base)
    (hoffset : k.dataOffset ((sqdLqi.address s u base).setWidth 16) = some offset) : sqdLqi.RoundTrips bus s l u offset := by
  have hit : VuUnit.viIndex s.it = .ok base := (congrArg VuUnit.viIndex hmatch.base).trans hbase
  let t := u.writeUhword base (u.vi base - 1)
  have htmem : t.memoryMem = u.memoryMem := VuUnit.memoryMem_writeUhword
  have htvf : t.vf = u.vf := VuUnit.vf_writeUhword
  have hback := VuUnit.writeUhword_back (g := (· - 1)) (h := (· + 1)) (fun v => by bv_omega) base u
  obtain ⟨m, hstore, hwritten⟩ := VuUnit.storeVector_eq s hbus (u := t) (htmem ▸ hmemory) hoffset
  obtain ⟨source, q, hread, hload, hq⟩ := VuUnit.loadVector_eq (t := { t with memoryMem := m }) hmatch.mask hbus
    (htmem ▸ hmemory) hoffset hwritten rfl
  have hrun := run_eq_ok (p := sqdLqi) (VuUnit.sqd_eq_ok hit hstore) (VuUnit.lqi_eq_ok hbase hread hload)
  have hend (vf : BitVec 5 → Uqword) :
      ({ t with vf := vf, memoryMem := m } : VuUnit σ).writeUhword base (t.vi base + 1) =
        { u with vf := vf, memoryMem := m } := by
    rw [VuUnit.writeUhword_frame]
    exact congrArg (fun t : VuUnit σ => { t with vf := vf, memoryMem := m }) hback
  dsimp only at hrun hq
  rw [htvf] at hrun hq
  rw [htmem, htvf] at hwritten
  refine ⟨q, m, hrun.trans (congrArg _ (hend _)), hq, ?_⟩
  exact hwritten.congr fun f => by rw [hmatch.mask f]

end VuPair

/-! ### One field of a VI register -/

theorem VuInstruction.getLsbD_dest (inst : VuInstruction) (i : ℕ) :
    inst.dest.getLsbD i = (decide (i < 4) && inst.value.getLsbD (21 + i)) := by
  rw [VuInstruction.dest, BitVec.getLsbD_setWidth, Bitfield.getLsbD_extractFrom]
  simp only [VuInstruction.destField]
  by_cases hi : i < 4
  · simp [hi, show i < 8 by omega]
  · simp [hi]

theorem VuInstruction.testDestField_eq (inst : VuInstruction) (f : VuField) :
    inst.testDestField f = inst.value.getLsbD (24 - f.index) := by
  have hbit : VuInstruction.fieldBit f = ⟨24 - f.index, 1⟩ := by
    cases f <;> rfl
  rw [Bool.eq_iff_iff, VuInstruction.testDestField, decide_eq_true_iff, hbit]
  exact Bitfield.zero_lt_extractFrom_bit_iff _ _

/-- `dest()` of an instruction that selects one field. -/
theorem VuInstruction.dest_of_one {inst : VuInstruction} {f : VuField} (h : ∀ g, inst.testDestField g = true ↔ g = f) :
    inst.dest = 8 >>> f.index := by
  have hbit (g : VuField) : inst.value.getLsbD (24 - g.index) = decide (g = f) := by
    rw [← VuInstruction.testDestField_eq, Bool.eq_iff_iff, h g, decide_eq_true_iff]
  have hx : inst.value.getLsbD 24 = decide (.x = f) := hbit .x
  have hy : inst.value.getLsbD 23 = decide (.y = f) := hbit .y
  have hz : inst.value.getLsbD 22 = decide (.z = f) := hbit .z
  have hw : inst.value.getLsbD 21 = decide (.w = f) := hbit .w
  apply BitVec.eq_of_getLsbD_eq
  intro i hi
  rw [VuInstruction.getLsbD_dest]
  by_cases h4 : i < 4
  · have hi' : i = 0 ∨ i = 1 ∨ i = 2 ∨ i = 3 := by omega
    rcases hi' with rfl | rfl | rfl | rfl
    · rw [hw]
      cases f <;> rfl
    · rw [hz]
      cases f <;> rfl
    · rw [hy]
      cases f <;> rfl
    · rw [hx]
      cases f <;> rfl
  · have hi' : i = 4 ∨ i = 5 ∨ i = 6 ∨ i = 7 := by omega
    rw [decide_eq_false h4, Bool.false_and]
    rcases hi' with rfl | rfl | rfl | rfl <;> cases f <;> rfl

namespace VuUnit

variable {σ : Type} {k : VuId} {bus : VuBus σ} {inst : VuInstruction} {u : VuUnit σ} {offset : ℕ}

theorem writeUhword_memoryMem (i : BitVec 4) (value : Uhword) (u : VuUnit σ) (m : ArrayByteMemory) :
    ({ u with memoryMem := m } : VuUnit σ).writeUhword i value = { u.writeUhword i value with memoryMem := m } := by
  unfold writeUhword
  split_ifs <;> rfl

theorem storeInteger_eq_ok {t b : BitVec 4} {imm : Uhword} (hit : viIndex inst.it = .ok t) (his : viIndex inst.is = .ok b)
    (hbus : bus.dataOffset = k.dataOffset) (hmemory : k.HasMemory u.memoryMem)
    (hoffset : k.dataOffset ((quadAddress imm (u.vi b)).setWidth 16) = some offset) :
    ∃ m, u.storeInteger bus inst imm = .ok { u with memoryMem := m } ∧
      u.memoryMem.WordsWritten m offset (fun f => inst.testDestField f = true) fun _ => (u.vi t).setWidth 32 := by
  rw [storeInteger, hit, ok_bind, his, ok_bind]
  exact storeFields_eq inst hbus hmemory hoffset fun _ _ => rfl

theorem loadInteger_eq {d b : BitVec 4} {imm : Uhword} {quad : Uqword} (hit : viIndex inst.it = .ok d)
    (his : viIndex inst.is = .ok b) (hread : u.busReadUqword bus (quadAddress imm (u.vi b)) = .ok quad) :
    u.loadInteger bus inst imm = (do
      let source ← wordAt quad inst.dest.toNat
      return u.writeUhword d (source.setWidth 16)) := by
  rw [loadInteger, his, ok_bind, hit, ok_bind, hread, ok_bind]

end VuUnit

namespace VuPair

variable {σ : Type} {k : VuId} {p : VuPair} {bus : VuBus σ} {s l : VuInstruction} {u : VuUnit σ} {offset : ℕ}
  {base t d : BitVec 4}

theorem integer_eq (hp : p.isInteger = true) (bus : VuBus σ) (inst : VuInstruction) (u : VuUnit σ) :
    p.store bus inst u = u.storeInteger bus inst (p.immediate inst) ∧
      p.load bus inst u = u.loadInteger bus inst (p.immediate inst) ∧
      p.storeBase inst = inst.is ∧
      ∀ b, p.address inst u b = VuUnit.quadAddress (p.immediate inst) (u.vi b) := by
  cases p with
  | sqLq => exact absurd hp (by decide)
  | sqiLqd => exact absurd hp (by decide)
  | sqdLqi => exact absurd hp (by decide)
  | iswIlw => exact ⟨rfl, rfl, rfl, fun _ => rfl⟩
  | iswrIlwr => exact ⟨rfl, rfl, rfl, fun _ => rfl⟩

/-- What an integer pair comes to: the word that `dest()` is the index of is loaded. -/
theorem integer_run (hp : p.isInteger = true) (hmatch : p.Matches s l) (hbus : bus.dataOffset = k.dataOffset)
    (hmemory : k.HasMemory u.memoryMem) (hbase : VuUnit.viIndex l.is = .ok base) (ht : VuUnit.viIndex s.it = .ok t)
    (hd : VuUnit.viIndex l.it = .ok d) (hoffset : k.dataOffset ((p.address s u base).setWidth 16) = some offset) :
    ∃ m quad, u.memoryMem.WordsWritten m offset (fun f => l.testDestField f = true) (fun _ => (u.vi t).setWidth 32) ∧
      (∀ f : VuField, l.testDestField f = true → quad.uw f.index = (u.vi t).setWidth 32) ∧
      (∀ f : VuField, ¬l.testDestField f = true → u.memoryMem.read 32 (offset + 4 * f.index) = .ok (quad.uw f.index)) ∧
      p.run bus s l u = (do
        let source ← VuUnit.wordAt quad l.dest.toNat
        return { u.writeUhword d (source.setWidth 16) with memoryMem := m }) := by
  obtain ⟨hstore, -, hstoreBase, haddress⟩ := integer_eq hp bus s u
  have his : VuUnit.viIndex s.is = .ok base := (congrArg VuUnit.viIndex (hstoreBase.symm.trans hmatch.base)).trans hbase
  rw [haddress] at hoffset
  obtain ⟨m, hstored, hwritten⟩ := VuUnit.storeInteger_eq_ok ht his hbus hmemory hoffset
  replace hwritten := hwritten.congr fun f => (by rw [hmatch.mask f] : l.testDestField f = true ↔ s.testDestField f = true)
  obtain ⟨quad, hquad, hselected, hkept⟩ := hwritten.exists_read (by
    rw [hmemory.size]
    exact VuId.dataOffset_add_le hoffset)
  have hread : ({ u with memoryMem := m } : VuUnit σ).busReadUqword bus (VuUnit.quadAddress (p.immediate l) (u.vi base)) =
      .ok quad := by
    rw [← hmatch.immediate]
    exact (VuUnit.busReadUqword_eq hbus hoffset).trans hquad
  refine ⟨m, quad, hwritten, hselected, hkept, ?_⟩
  rw [run, hstore, hstored, ok_bind, (integer_eq hp bus l _).2.1, VuUnit.loadInteger_eq hd hbase hread]
  simp only [VuUnit.writeUhword_memoryMem]

/-- A value that was loaded is right if it was stored, or is not kept. -/
theorem roundTrips_of_run_iff (hp : p.isInteger = true) (ht : VuUnit.viIndex s.it = .ok t)
    (hd : VuUnit.viIndex l.it = .ok d) {m : ArrayByteMemory} {v : Uhword}
    (hrun : p.run bus s l u = .ok { u.writeUhword d v with memoryMem := m })
    (hwritten : u.memoryMem.WordsWritten m offset (fun f => l.testDestField f = true) fun _ => (u.vi t).setWidth 32) :
    p.RoundTrips bus s l u offset ↔ d = 0 ∨ v = u.vi t := by
  rw [RoundTrips, if_pos hp]
  constructor
  · rintro ⟨t', d', m', ht', hd', hrun', -⟩
    obtain rfl := Except.ok.inj (ht.symm.trans ht')
    obtain rfl := Except.ok.inj (hd.symm.trans hd')
    have hvi := congrArg (fun u : VuUnit σ => u.vi d) (Except.ok.inj (hrun.symm.trans hrun'))
    refine or_iff_not_imp_left.mpr fun h0 => ?_
    exact (VuUnit.vi_writeUhword_self h0).symm.trans (hvi.trans (VuUnit.vi_writeUhword_self h0))
  · rintro (rfl | rfl)
    · refine ⟨t, 0, m, ht, hd, ?_, hwritten⟩
      rw [hrun, VuUnit.writeUhword_zero, VuUnit.writeUhword_zero]
    · exact ⟨t, d, m, ht, hd, hrun, hwritten⟩

theorem not_roundTrips_of_error {e : HostError} (h : p.run bus s l u = .error e) : ¬p.RoundTrips bus s l u offset := by
  unfold RoundTrips
  split_ifs
  · rintro ⟨t, d, m, -, -, hrun, -⟩
    cases h.symm.trans hrun
  · rintro ⟨q, m, hrun, -⟩
    cases h.symm.trans hrun

/-- A base that is no VI register. -/
theorem exists_run_error (h : ¬l.is.toNat < 16) : ∃ e, p.run bus s l u = .error e := by
  have hload (u : VuUnit σ) : p.load bus l u = .error .outOfBounds := by
    have hindex := VuUnit.viIndex_of_not_lt h
    cases p with
    | sqLq => rw [load, VuUnit.lq, hindex, error_bind]
    | sqiLqd => rw [load, VuUnit.lqd, hindex, error_bind]
    | sqdLqi => rw [load, VuUnit.lqi, hindex, error_bind]
    | iswIlw => rw [load, VuUnit.ilw, VuUnit.loadInteger, hindex, error_bind]
    | iswrIlwr => rw [load, VuUnit.ilwr, VuUnit.loadInteger, hindex, error_bind]
  unfold run
  cases p.store bus s u with
  | error e => exact ⟨e, rfl⟩
  | ok t => exact ⟨.outOfBounds, hload t⟩

/-- Only the bit of `z` is the index of its word. That of `w` is the index of `y`, and the others index past the quadword. -/
theorem integer_roundTrips_iff (hp : p.isInteger = true) (hmatch : p.Matches s l) (hbus : bus.dataOffset = k.dataOffset)
    (hmemory : k.HasMemory u.memoryMem) (hbase : l.is.toNat < 16)
    (hoffset : k.dataOffset ((p.address s u (l.is.setWidth 4)).setWidth 16) = some offset) :
    p.RoundTrips bus s l u offset ↔ p.Meets s l u offset := by
  by_cases hregisters : s.it.toNat < 16 ∧ l.it.toNat < 16
  · obtain ⟨hit, hdest⟩ := hregisters
    have ht := VuUnit.viIndex_of_lt hit
    have hd := VuUnit.viIndex_of_lt hdest
    obtain ⟨m, quad, hwritten, hselected, hkept, hrun⟩ :=
      integer_run hp hmatch hbus hmemory (VuUnit.viIndex_of_lt hbase) ht hd hoffset
    obtain ⟨f, hf⟩ := hmatch.one hp
    have hnot (g : VuField) (hne : g ≠ f) : ¬l.testDestField g = true := mt (hf g).mp hne
    have hmeets : p.Meets s l u offset ↔ l.testDestField .z = true ∨ l.testDestField .w = true ∧
        (l.it = 0 ∨ ∃ word, u.memoryMem.read 32 (offset + 4 * VuField.y.index) = .ok word ∧
          word.setWidth 16 = u.vi (s.it.setWidth 4)) :=
      ⟨fun h => (h.2 hp).2.2, fun h => ⟨hbase, fun _ => ⟨hit, hdest, h⟩⟩⟩
    rw [VuInstruction.dest_of_one hf] at hrun
    rw [hmeets]
    cases f with
    | x =>
      refine iff_of_false (not_roundTrips_of_error hrun) ?_
      rintro (hz | ⟨hw, -⟩)
      · exact hnot .z (by decide) hz
      · exact hnot .w (by decide) hw
    | y =>
      refine iff_of_false (not_roundTrips_of_error hrun) ?_
      rintro (hz | ⟨hw, -⟩)
      · exact hnot .z (by decide) hz
      · exact hnot .w (by decide) hw
    | z =>
      have hz : l.testDestField .z = true := (hf .z).mpr rfl
      have hvalue : (quad.uw VuField.z.index).setWidth 16 = u.vi (s.it.setWidth 4) := by
        rw [hselected .z hz, BitVec.setWidth_setWidth_of_le _ (by decide), BitVec.setWidth_eq]
      exact iff_of_true ((roundTrips_of_run_iff hp ht hd hrun hwritten).mpr (.inr hvalue)) (.inl hz)
    | w =>
      have hw : l.testDestField .w = true := (hf .w).mpr rfl
      have hy := hkept .y (hnot .y (by decide))
      rw [roundTrips_of_run_iff hp ht hd hrun hwritten, or_iff_right (hnot .z (by decide)), and_iff_right hw]
      refine or_congr ?_ ?_
      · constructor
        · intro h
          exact VuUnit.viIndex_inj (hd.trans (congrArg _ h)) rfl
        · rintro h
          rw [h]
          rfl
      · constructor
        · exact fun h => ⟨_, hy, h⟩
        · rintro ⟨word, hword, h⟩
          obtain rfl := Except.ok.inj (hy.symm.trans hword)
          exact h
  · refine iff_of_false (fun h => hregisters ?_) fun h => hregisters ⟨(h.2 hp).1, (h.2 hp).2.1⟩
    rw [RoundTrips, if_pos hp] at h
    obtain ⟨t, d, m, ht, hd, -⟩ := h
    exact ⟨(VuUnit.viIndex_eq_ok_iff.mp ht).1, (VuUnit.viIndex_eq_ok_iff.mp hd).1⟩

/-- When a load gives back what was stored. -/
theorem loadStore_iff (p : VuPair) (k : VuId) (readRest : σ → Uhword → Except HostError Uqword)
    (writeRest : σ → Uhword → Uword → Except HostError σ) (s l : VuInstruction) (u : VuUnit σ) (offset : ℕ)
    (hmatch : p.Matches s l) (hmemory : k.HasMemory u.memoryMem)
    (hmapped : ∀ base, VuUnit.viIndex l.is = .ok base → k.dataOffset ((p.address s u base).setWidth 16) = some offset) :
    p.RoundTrips (k.bus readRest writeRest) s l u offset ↔ p.Meets s l u offset := by
  by_cases hbase : l.is.toNat < 16
  · have his := VuUnit.viIndex_of_lt hbase
    have hoffset := hmapped _ his
    have hmeets (hp : p.isInteger = false) : p.Meets s l u offset :=
      ⟨hbase, fun htrue => absurd (hp.symm.trans htrue) (by decide)⟩
    cases p with
    | sqLq => exact iff_of_true (sqLq_roundTrips hmatch rfl hmemory his hoffset) (hmeets rfl)
    | sqiLqd => exact iff_of_true (sqiLqd_roundTrips hmatch rfl hmemory his hoffset) (hmeets rfl)
    | sqdLqi => exact iff_of_true (sqdLqi_roundTrips hmatch rfl hmemory his hoffset) (hmeets rfl)
    | iswIlw => exact integer_roundTrips_iff rfl hmatch rfl hmemory hbase hoffset
    | iswrIlwr => exact integer_roundTrips_iff rfl hmatch rfl hmemory hbase hoffset
  · have hrun : ∃ e, p.run (k.bus readRest writeRest) s l u = .error e := exists_run_error hbase
    obtain ⟨e, he⟩ := hrun
    exact iff_of_false (not_roundTrips_of_error he) fun h => hbase h.1

/-- A bus of VU0 with nothing but the data memory. -/
def dataBus : VuBus Unit := VuId.vu0.bus (fun _ _ => .error .nullPointer) fun _ _ _ => .error .nullPointer

/-- A unit with numbers in `VF01`, 2 in `VI02` and 0x5A in every byte of the memory. -/
def filledUnit : VuUnit Unit :=
  { VuUnit.initial 0x1000 () with
    vf := fun r => if r = 1 then 0x3F800000400000004040000040800000 else 0
    vi := fun i => if i = 2 then 2 else 0
    memoryMem := .new 0x1000 0x5A false }

/-- `SQ.xyzw VF01, 0(VI02)` and `LQ.xyzw VF03, 0(VI02)` at the address 0x20. -/
theorem roundTrips_sqLq : sqLq.RoundTrips dataBus ⟨0x01E20800⟩ ⟨0x01E31000⟩ filledUnit 0x20 := by
  have hmatch : sqLq.Matches ⟨0x01E20800⟩ ⟨0x01E31000⟩ := by
    refine ⟨fun f => ?_, by decide, by decide, fun h => absurd h (by decide)⟩
    cases f <;> decide
  have haddress : ∀ base, VuUnit.viIndex (⟨0x01E31000⟩ : VuInstruction).is = .ok base →
      VuId.vu0.dataOffset ((sqLq.address ⟨0x01E20800⟩ filledUnit base).setWidth 16) = some 0x20 := by
    intro base hbase
    obtain rfl : 2 = base := Except.ok.inj hbase
    decide
  exact (loadStore_iff sqLq .vu0 (fun _ _ => .error .nullPointer) (fun _ _ _ => .error .nullPointer) ⟨0x01E20800⟩
    ⟨0x01E31000⟩ filledUnit 0x20 hmatch ⟨rfl, rfl⟩ haddress).mpr ⟨by decide, fun h => absurd h (by decide)⟩

/-- `ISWR.w VI01, (VI00)` and `ILWR.w VI02, (VI00)` with 1 in `VI01` load what `y` has. -/
theorem not_roundTrips_iswrIlwr :
    ¬iswrIlwr.RoundTrips dataBus ⟨0x00210000⟩ ⟨0x00220000⟩
      { VuUnit.initial 0x1000 () with vi := fun i => if i = 1 then 1 else 0 } 0 := by
  have hmatch : iswrIlwr.Matches ⟨0x00210000⟩ ⟨0x00220000⟩ := by
    refine ⟨fun f => ?_, by decide, by decide, fun _ => ⟨.w, fun g => ?_⟩⟩
    · cases f <;> decide
    · cases g <;> decide
  intro hright
  obtain ⟨-, h⟩ := (integer_roundTrips_iff (k := .vu0) rfl hmatch rfl ⟨rfl, rfl⟩ (by decide) (by decide)).mp hright
  obtain ⟨-, -, hz | ⟨-, h0 | ⟨word, hread, hword⟩⟩⟩ := h rfl
  · exact absurd hz (by decide)
  · exact absurd h0 (by decide)
  · have hzero : (ArrayByteMemory.new 0x1000 0 false).read 32 4 = .ok 0 := by
      rw [ArrayByteMemory.read, ArrayByteMemory.bytesAt, ArrayByteMemory.new, List.length_replicate, List.drop_replicate,
        List.take_replicate]
      rfl
    obtain rfl : 0 = word := Except.ok.inj (hzero.symm.trans hread)
    exact absurd hword (by decide)

end VuPair

end Orbum
