import Orbum.Common.ArrayByteMemory
import Orbum.Common.ByteBusMap
import Orbum.Ee.Core.UnalignedAccess

/-!
# The bounds of memory accesses

`ee.bus` in front of the memories and the registers mapped in it, and the loads and stores of the EE core on it.

The core translates an address without a look at its alignment, the bus finds the object of its first byte, and the
object is asked for the whole access at the offset of that byte. `get_page` and `ArrayByteMemory` check nothing in a
release build. An aligned access stays inside of an object that starts and ends at multiples of its width; a misaligned
one at the end runs past it.
-/

namespace Orbum

open LittleEndian

/-! ### The bus -/

/-- A mapped object that is no memory: a register or another `ByteBusMappable` of the machine state `ρ`. -/
structure Device (ρ : Type) where
  /-- `byte_bus_map_size()`. -/
  size : Uword
  /-- `byte_bus_read_*`, of `w` bits. -/
  read (w offset : ℕ) : ρ → Except HostError (BitVec w × ρ)
  /-- `byte_bus_write_*`, of `w` bits. -/
  write (w offset : ℕ) (value : BitVec w) : ρ → Except HostError ρ

/-- What is mapped: the memories among the objects `α`, and the state of the other ones. -/
structure BusState (α ρ : Type) where
  /-- The memories. -/
  memory : α → Option ArrayByteMemory
  /-- The rest of the machine. -/
  devices : ρ

/-- `ee.bus`. -/
structure EeBus (α ρ : Type) where
  /-- The page table. -/
  bus : ByteBus 32 α
  /-- The objects that are no memory. -/
  device : α → Device ρ

namespace EeBus

variable {α ρ : Type} (B : EeBus α ρ) (m : BusState α ρ)

/-- `get_page(address)` and the offset into the object that is dereferenced after it. -/
def locate (address : Uptr) : Except HostError (α × ℕ) :=
  match B.bus.getPage address with
  | none => .error .outOfBounds
  | some page =>
    match page.object with
    | none => .error .nullPointer
    | some object => .ok (object, (address - page.baseAddress).toNat)

/-- `read_ubyte(address)` to `read_uqword(address)`. -/
def read (w : ℕ) (address : Uptr) : Except HostError (BitVec w × BusState α ρ) := do
  let (object, offset) ← B.locate address
  match m.memory object with
  | some memory => return (← memory.read w offset, m)
  | none =>
    let (value, devices) ← (B.device object).read w offset m.devices
    return (value, { m with devices })

/-- `write_ubyte(address, value)` to `write_uqword(address, value)`. -/
def write [DecidableEq α] (w : ℕ) (address : Uptr) (value : BitVec w) : Except HostError (BusState α ρ) := do
  let (object, offset) ← B.locate address
  match m.memory object with
  | some memory => return { m with memory := Function.update m.memory object (some (← memory.write w offset value)) }
  | none => return { m with devices := ← (B.device object).write w offset value m.devices }

/-- A machine with this bus. -/
def attach [DecidableEq α] (M : Machine (BusState α ρ)) : Machine (BusState α ρ) :=
  { M with
    busRead := fun w physicalAddress m => B.read m w physicalAddress
    busWrite := fun w physicalAddress value m => B.write m w physicalAddress value }

/-- `byte_bus_map_size()` of an object. -/
def size (object : α) : ℕ :=
  match m.memory object with
  | some memory => memory.size
  | none => (B.device object).size.toNat

/-- The `n` bytes from `address` on lie inside of `object`, the first of them at `offset`. -/
structure Within (address : Uptr) (n : ℕ) (object : α) (offset : ℕ) : Prop where
  /-- The object at the address. -/
  located : B.locate address = .ok (object, offset)
  /-- Its end. -/
  inside : offset + n ≤ B.size m object

/-- The `n` bytes from `address` on lie inside of one object. -/
def Inside (address : Uptr) (n : ℕ) : Prop := ∃ object offset, B.Within m address n object offset

/-- A read of exactly the `w / 8` bytes from `address` on, all of one object: those of the array of a memory, or what a
device makes of them. -/
inductive Reads (w : ℕ) (address : Uptr) : Except HostError (BitVec w × BusState α ρ) → Prop
  /-- A memory. -/
  | memory {object : α} {offset : ℕ} {memory : ArrayByteMemory} (hwithin : B.Within m address (w / 8) object offset)
      (hmemory : m.memory object = some memory) :
      Reads w address (.ok (ofBytes w (memory.bytesAt offset (w / 8)), m))
  /-- A device. -/
  | device {object : α} {offset : ℕ} (hwithin : B.Within m address (w / 8) object offset)
      (hmemory : m.memory object = none) :
      Reads w address (((B.device object).read w offset m.devices).map fun (value, devices) =>
        (value, { m with devices }))

/-- A write of exactly the `w / 8` bytes from `address` on, all of one object; a memory that is read only keeps its
own. -/
inductive Writes [DecidableEq α] (w : ℕ) (address : Uptr) (value : BitVec w) : Except HostError (BusState α ρ) → Prop
  /-- A memory. -/
  | memory {object : α} {offset : ℕ} {memory : ArrayByteMemory} (hwithin : B.Within m address (w / 8) object offset)
      (hmemory : m.memory object = some memory) (h : offset + (bytes (w / 8) value).length ≤ memory.memory.length)
      (hwritable : memory.readOnly = false) :
      Writes w address value
        (.ok { m with memory := Function.update m.memory object (some (memory.store offset (bytes (w / 8) value) h)) })
  /-- A memory that is read only. -/
  | readOnly {object : α} {offset : ℕ} {memory : ArrayByteMemory} (hwithin : B.Within m address (w / 8) object offset)
      (hmemory : m.memory object = some memory) (hreadOnly : memory.readOnly = true) :
      Writes w address value (.ok m)
  /-- A device. -/
  | device {object : α} {offset : ℕ} (hwithin : B.Within m address (w / 8) object offset)
      (hmemory : m.memory object = none) :
      Writes w address value (((B.device object).write w offset value m.devices).map fun devices => { m with devices })

variable {B m}

theorem Reads.inside {w : ℕ} {address : Uptr} {r : Except HostError (BitVec w × BusState α ρ)}
    (h : B.Reads m w address r) : B.Inside m address (w / 8) := by
  cases h with
  | memory hwithin => exact ⟨_, _, hwithin⟩
  | device hwithin => exact ⟨_, _, hwithin⟩

theorem Writes.inside [DecidableEq α] {w : ℕ} {address : Uptr} {value : BitVec w} {r : Except HostError (BusState α ρ)}
    (h : B.Writes m w address value r) : B.Inside m address (w / 8) := by
  cases h with
  | memory hwithin => exact ⟨_, _, hwithin⟩
  | readOnly hwithin => exact ⟨_, _, hwithin⟩
  | device hwithin => exact ⟨_, _, hwithin⟩

theorem Within.le_length {address : Uptr} {n offset : ℕ} {object : α} {memory : ArrayByteMemory}
    (h : B.Within m address n object offset) (hmemory : m.memory object = some memory) :
    offset + n ≤ memory.memory.length := by
  have hinside := h.inside
  rw [size, hmemory] at hinside
  exact hinside.trans_eq memory.length_memory.symm

/-- A read inside of an object reads the bytes there. -/
theorem reads_of_inside {w : ℕ} {address : Uptr} (h : B.Inside m address (w / 8)) :
    B.Reads m w address (B.read m w address) := by
  obtain ⟨object, offset, hwithin⟩ := h
  simp only [read, hwithin.located, ok_bind]
  cases hmemory : m.memory object with
  | some memory =>
    simp only [ArrayByteMemory.read, if_pos (hwithin.le_length hmemory), ok_bind, pure_eq_ok]
    exact .memory hwithin hmemory
  | none =>
    have hdevice := Reads.device (w := w) hwithin hmemory
    cases hread : (B.device object).read w offset m.devices with
    | ok value =>
      rw [hread] at hdevice
      exact hdevice
    | error e =>
      rw [hread] at hdevice
      exact hdevice

/-- A write inside of an object writes the bytes there. -/
theorem writes_of_inside [DecidableEq α] {w : ℕ} {address : Uptr} (value : BitVec w) (h : B.Inside m address (w / 8)) :
    B.Writes m w address value (B.write m w address value) := by
  obtain ⟨object, offset, hwithin⟩ := h
  simp only [write, hwithin.located, ok_bind]
  cases hmemory : m.memory object with
  | some memory =>
    have hle : offset + (bytes (w / 8) value).length ≤ memory.memory.length := by
      rw [length_bytes]
      exact hwithin.le_length hmemory
    cases hreadOnly : memory.readOnly with
    | false =>
      simp only [ArrayByteMemory.write, hreadOnly, Bool.false_eq_true, if_false, dif_pos hle, ok_bind, pure_eq_ok]
      exact .memory hwithin hmemory hle hreadOnly
    | true =>
      simp only [ArrayByteMemory.write, hreadOnly, if_true, ok_bind, pure_eq_ok, ← hmemory, Function.update_eq_self]
      exact .readOnly hwithin hmemory hreadOnly
  | none =>
    have hdevice := @Writes.device _ _ _ _ _ _ _ value _ _ hwithin hmemory
    cases hwrite : (B.device object).write w offset value m.devices with
    | ok devices =>
      rw [hwrite] at hdevice
      exact hdevice
    | error e =>
      rw [hwrite] at hdevice
      exact hdevice

/-- A read of a memory that ends past it is one of the array past its end. -/
theorem read_past {w offset : ℕ} {address : Uptr} {object : α} {memory : ArrayByteMemory}
    (hlocate : B.locate address = .ok (object, offset)) (hmemory : m.memory object = some memory)
    (hpast : memory.size < offset + w / 8) : B.read m w address = .error .outOfBounds := by
  have hlength : ¬offset + w / 8 ≤ memory.memory.length := by
    rw [memory.length_memory]
    exact Nat.not_le.mpr hpast
  simp only [read, hlocate, ok_bind, hmemory, ArrayByteMemory.read, if_neg hlength, error_bind]

/-- A read moves no memory and no object. -/
theorem Reads.memory_eq {w : ℕ} {address : Uptr} {value : BitVec w} {m' : BusState α ρ}
    (h : B.Reads m w address (.ok (value, m'))) : m'.memory = m.memory := by
  generalize hr : Except.ok (value, m') = r at h
  cases h with
  | memory =>
    rw [(Prod.mk.inj (Except.ok.inj hr)).2]
  | @device object offset =>
    cases hread : (B.device object).read w offset m.devices with
    | error e =>
      rw [hread] at hr
      cases hr
    | ok p =>
      rw [hread] at hr
      rw [(Prod.mk.inj (Except.ok.inj hr)).2]

theorem Inside.congr {m' : BusState α ρ} {address : Uptr} {n : ℕ} (h : B.Inside m address n)
    (hmemory : m'.memory = m.memory) : B.Inside m' address n := by
  obtain ⟨object, offset, hlocated, hinside⟩ := h
  refine ⟨object, offset, hlocated, ?_⟩
  unfold size at hinside ⊢
  rwa [hmemory]

end EeBus

/-! ### Accesses -/

/-- How an instruction accesses the bus, at a width in bits and a virtual address. -/
inductive Access (σ : Type) where
  /-- It reads, and does `assign` with the value. -/
  | read (w : ℕ) (virtualAddress : Uptr) (assign : BitVec w → EeData σ → EeData σ)
  /-- It writes. -/
  | write (w : ℕ) (virtualAddress : Uptr) (value : BitVec w)
  /-- It reads and then writes in the same place. -/
  | update (w : ℕ) (virtualAddress : Uptr) (merge : BitVec w → BitVec w)

namespace Access

variable {σ : Type}

/-- How many bytes it accesses. -/
def bytes : Access σ → ℕ
  | read w .. => w / 8
  | write w .. => w / 8
  | update w .. => w / 8

/-- Where. -/
def virtualAddress : Access σ → Uptr
  | read _ va _ => va
  | write _ va _ => va
  | update _ va _ => va

/-- How it translates the address first. -/
def rwAccess : Access σ → MmuRwAccess
  | read .. => .read
  | write .. => .write
  | update .. => .read

/-- The instruction, but for its coprocessor. -/
def micro (M : Machine σ) (d : EeData σ) : Access σ → Micro σ
  | read w va assign =>
    .translate va .read fun pa => .busRead M w pa d fun value d => .done (assign value d)
  | write w va value => .translate va .write fun pa => .busWrite M w pa value d
  | update w va merge =>
    .translate va .read fun pa => .busRead M w pa d fun value d =>
      .translate va .write fun pa => .busWrite M w pa (merge value) d

/-- What it does to the data once it has the physical address. -/
def effect (M : Machine σ) (d : EeData σ) (pa : Uptr) : Access σ → Except HostError (EeData σ)
  | read w _ assign => (M.busRead w pa d.rest).map fun (value, rest) => assign value { d with rest }
  | write w _ value => (M.busWrite w pa value d.rest).map fun rest => { d with rest }
  | update w _ merge =>
    (M.busRead w pa d.rest).bind fun (value, rest) => (M.busWrite w pa (merge value) rest).map fun rest => { d with rest }

end Access

/-! ### Translation and data -/

/-- The exceptions of an access: an address error, a TLB exception, or that the coprocessor of the instruction is not
usable. -/
def EeCoreException.OfAccess (e : EeCoreException) (cop : Option EeCore.Coprocessor) : Prop :=
  (∃ rwAccess, e = addressError rwAccess ∨ e = tlbRefillInvalid rwAccess) ∨ e = .exTlbModified ∨
    (e = .exCoprocessorUnusable ∧ cop.isSome)


namespace EeCore

variable {σ : Type}

/-- A translation does not see the data. -/
theorem translateAddressData_setData {s t : EeCore σ} {va pa : Uptr} {rwAccess : MmuRwAccess}
    (h : s.translateAddressData va rwAccess = .value pa t) (d : EeData σ) :
    (s.setData d).translateAddressData va rwAccess = .value pa (t.setData d) := by
  unfold translateAddressData at h ⊢
  cases hc : (s.translationCache .data).find (cacheKey va) with
  | some base =>
    rw [lookup_of_hit rwAccess hc] at h
    rw [lookup_of_hit rwAccess (show ((s.setData d).translationCache .data).find (cacheKey va) = some base from hc)]
    obtain ⟨rfl, rfl⟩ := Result.value.inj h
    rfl
  | none =>
    rw [lookup_of_miss rwAccess hc] at h
    rw [lookup_of_miss rwAccess (show ((s.setData d).translationCache .data).find (cacheKey va) = none from hc),
      show walk (s.setData d).cop0 (s.setData d).tlb (cacheKey va) rwAccess = walk s.cop0 s.tlb (cacheKey va) rwAccess
        from rfl]
    cases hw : walk s.cop0 s.tlb (cacheKey va) rwAccess with
    | ok base =>
      rw [hw] at h
      obtain ⟨rfl, rfl⟩ := Result.value.inj h
      rfl
    | error e =>
      rw [hw] at h
      cases h

/-- A translation raises address errors and TLB exceptions, and changes no data then. -/
theorem translate_exception {s t : EeCore σ} {va : Uptr} {rwAccess : MmuRwAccess} {e : EeCoreException}
    (h : s.translateAddressData va rwAccess = .exception e t) (cop : Option Coprocessor) :
    e.OfAccess cop ∧ t.data = s.data := by
  unfold translateAddressData at h
  rcases lookup_cases s .data va rwAccess with ⟨pa, cache, hl⟩ | ⟨e', hw, hl⟩
  · rw [hl] at h
    cases h
  · rw [hl] at h
    obtain ⟨rfl, rfl⟩ := Result.exception.inj h
    rcases error_of_walk hw with h | h | h
    · exact ⟨.inl ⟨rwAccess, .inl h⟩, rfl⟩
    · exact ⟨.inl ⟨rwAccess, .inr h⟩, rfl⟩
    · exact ⟨.inr (.inl h), rfl⟩

end EeCore

/-- Once the address is translated, an access is what it does to the data. -/
theorem Access.run_micro {σ : Type} (M : Machine σ) {a : Access σ} {s t : EeCore σ} {pa : Uptr}
    (h : s.translateAddressData a.virtualAddress a.rwAccess = .value pa t) :
    ∃ t' : EeCore σ, (a.micro M s.data).run s = (a.effect M s.data pa).map fun d => .value () (t'.setData d) := by
  cases a with
  | read w va assign =>
    refine ⟨t, ?_⟩
    simp only [micro, Micro.run, show s.translateAddressData va .read = .value pa t from h, effect, Micro.busRead]
    cases M.busRead w pa s.data.rest <;> rfl
  | write w va value =>
    refine ⟨t, ?_⟩
    simp only [micro, Micro.run, show s.translateAddressData va .write = .value pa t from h, effect, Micro.busWrite]
    cases M.busWrite w pa value s.data.rest <;> rfl
  | update w va merge =>
    have ht : s.translateAddressData va .read = .value pa t := h
    obtain ⟨t₁, ht₁, -, hagain⟩ := EeCore.translate_value (congrArg Result.answer ht)
    obtain rfl := (Result.value.inj (ht₁.symm.trans ht)).2
    obtain ⟨t₂, ht₂, -⟩ := hagain .write
    refine ⟨t₂, ?_⟩
    simp only [micro, Micro.run, ht, effect, Micro.busRead]
    cases M.busRead w pa s.data.rest with
    | error e => rfl
    | ok p =>
      obtain ⟨value, rest⟩ := p
      simp only [Micro.ofExcept, Micro.run, EeCore.translateAddressData_setData ht₂, Micro.busWrite, Except.bind]
      cases M.busWrite w pa (merge value) rest <;> rfl

/-! ### Bounded accesses -/

section Bounded

variable {α ρ : Type} [DecidableEq α] (B : EeBus α ρ)

/-- What an access does to the data, at a physical address that is inside of an object with all of the bytes. -/
inductive Access.Exact (d : EeData (BusState α ρ)) (pa : Uptr) :
    Access (BusState α ρ) → Except HostError (EeData (BusState α ρ)) → Prop
  /-- The value read goes to the register. -/
  | read {w : ℕ} {va : Uptr} {assign : BitVec w → EeData (BusState α ρ) → EeData (BusState α ρ)}
      {r : Except HostError (BitVec w × BusState α ρ)} (hr : B.Reads d.rest w pa r) :
      Exact d pa (.read w va assign) (r.map fun (value, rest) => assign value { d with rest })
  /-- The memory is written. -/
  | write {w : ℕ} {va : Uptr} {value : BitVec w} {r : Except HostError (BusState α ρ)}
      (hr : B.Writes d.rest w pa value r) : Exact d pa (.write w va value) (r.map fun rest => { d with rest })
  /-- The read fails. -/
  | updateFail {w : ℕ} {va : Uptr} {merge : BitVec w → BitVec w} {e : HostError}
      (hr : B.Reads d.rest w pa (.error e)) : Exact d pa (.update w va merge) (.error e)
  /-- What was read is merged and written. -/
  | update {w : ℕ} {va : Uptr} {merge : BitVec w → BitVec w} {value : BitVec w} {rest : BusState α ρ}
      {r : Except HostError (BusState α ρ)} (hread : B.Reads d.rest w pa (.ok (value, rest)))
      (hwrite : B.Writes rest w pa (merge value) r) :
      Exact d pa (.update w va merge) (r.map fun rest => { d with rest })

/-- The outcome of an instruction: it raises an exception of its access and changes no data, or it has done the access
to exactly its bytes, all in one object. -/
inductive Access.Bounded (a : Access (BusState α ρ)) (cop : Option EeCore.Coprocessor) (s : EeCore (BusState α ρ)) :
    Except HostError (Result (BusState α ρ) Unit) → Prop
  /-- It raises. -/
  | raises {e : EeCoreException} {s' : EeCore (BusState α ρ)} (he : e.OfAccess cop) (hdata : s'.data = s.data) :
      Bounded a cop s (.ok (.exception e s'))
  /-- It accesses. -/
  | accesses {pa : Uptr} {t t' : EeCore (BusState α ρ)} {r : Except HostError (EeData (BusState α ρ))}
      (htranslate : s.translateAddressData a.virtualAddress a.rwAccess = .value pa t) (hr : a.Exact B s.data pa r) :
      Bounded a cop s (r.map fun d => .value () (t'.setData d))

variable {B} (M : Machine (BusState α ρ))

theorem Access.Exact.inside {a : Access (BusState α ρ)} {d : EeData (BusState α ρ)} {pa : Uptr}
    {r : Except HostError (EeData (BusState α ρ))} (h : a.Exact B d pa r) : B.Inside d.rest pa a.bytes := by
  cases h with
  | read hr => exact hr.inside
  | write hr => exact hr.inside
  | updateFail hr => exact hr.inside
  | update hread => exact hread.inside

/-- Inside of an object an access does what it should. -/
theorem Access.exact_of_inside {a : Access (BusState α ρ)} {d : EeData (BusState α ρ)} {pa : Uptr}
    (h : B.Inside d.rest pa a.bytes) : a.Exact B d pa (a.effect (B.attach M) d pa) := by
  cases a with
  | read w va assign => exact .read (EeBus.reads_of_inside h)
  | write w va value => exact .write (EeBus.writes_of_inside value h)
  | update w va merge =>
    have hreads := EeBus.reads_of_inside (w := w) h
    cases hread : B.read d.rest w pa with
    | error e =>
      rw [hread] at hreads
      rw [effect, show (B.attach M).busRead w pa d.rest = .error e from hread]
      exact .updateFail hreads
    | ok p =>
      obtain ⟨value, rest⟩ := p
      rw [hread] at hreads
      rw [effect, show (B.attach M).busRead w pa d.rest = .ok (value, rest) from hread]
      exact .update hreads (EeBus.writes_of_inside (merge value) (h.congr hreads.memory_eq))

/-- Whatever a translated access does, it raises no exception. -/
theorem map_value_ne_exception {σ : Type} {t' s' : EeCore σ} {e : EeCoreException} (r : Except HostError (EeData σ)) :
    (r.map fun d => Result.value () (t'.setData d)) ≠ .ok (.exception e s') := by
  cases r with
  | ok d => exact nofun
  | error e => exact nofun

/-- An access is bounded exactly where a translation that succeeds leads to an object with all of its bytes. -/
theorem Access.bounded_iff (a : Access (BusState α ρ)) (cop : Option EeCore.Coprocessor) (s : EeCore (BusState α ρ)) :
    a.Bounded B cop s ((a.micro (B.attach M) s.data).run s) ↔
      ∀ pa t, s.translateAddressData a.virtualAddress a.rwAccess = .value pa t → B.Inside s.data.rest pa a.bytes := by
  cases htranslate : s.translateAddressData a.virtualAddress a.rwAccess with
  | exception e t =>
    refine iff_of_true ?_ nofun
    have hrun : (a.micro (B.attach M) s.data).run s = .ok (.exception e t) := by
      cases a <;> simp only [micro, Micro.run] <;> simp only [virtualAddress, rwAccess] at htranslate <;> rw [htranslate]
    obtain ⟨he, hdata⟩ := EeCore.translate_exception htranslate cop
    exact hrun ▸ .raises he hdata
  | value pa t =>
    obtain ⟨t', hrun⟩ := run_micro (B.attach M) htranslate
    rw [hrun]
    constructor
    · intro h pa' t₁ hvalue
      obtain ⟨rfl, rfl⟩ := Result.value.inj hvalue
      generalize hout : ((a.effect (B.attach M) s.data pa).map fun d => Result.value () (t'.setData d)) = out at h
      cases h with
      | raises => exact absurd hout (map_value_ne_exception _)
      | accesses htranslate' hr =>
        obtain ⟨rfl, -⟩ := Result.value.inj (htranslate.symm.trans htranslate')
        exact hr.inside
    · intro h
      exact .accesses htranslate (exact_of_inside M (h pa t rfl))

/-- An aligned access is bounded if its first byte is, in an object that starts and ends at a multiple of its width. -/
theorem Access.bounded_of_aligned {a : Access (BusState α ρ)} {cop : Option EeCore.Coprocessor}
    {s t : EeCore (BusState α ρ)} {pa : Uptr} {page : ByteBus.Page 32 α} {object : α} (hunit : a.bytes ∣ 2 ^ 32)
    (htranslate : s.translateAddressData a.virtualAddress a.rwAccess = .value pa t)
    (hpage : B.bus.getPage pa = some page) (hobject : page.object = some object)
    (hfirst : (pa - page.baseAddress).toNat < B.size s.data.rest object) (haligned : a.bytes ∣ pa.toNat)
    (hstart : a.bytes ∣ page.baseAddress.toNat) (hend : a.bytes ∣ B.size s.data.rest object) :
    a.Bounded B cop s ((a.micro (B.attach M) s.data).run s) := by
  rw [bounded_iff]
  intro pa' t' hvalue
  obtain ⟨rfl, -⟩ := Result.value.inj (htranslate.symm.trans hvalue)
  refine ⟨object, (pa - page.baseAddress).toNat, ?_, ?_⟩
  · rw [EeBus.locate, hpage]
    simp only [hobject]
  · have hoffset : a.bytes ∣ (pa - page.baseAddress).toNat := by
      rw [BitVec.toNat_sub, Nat.dvd_mod_iff hunit]
      exact Nat.dvd_add (Nat.dvd_sub hunit hstart) haligned
    have hrest := Nat.le_of_dvd (Nat.sub_pos_of_lt hfirst) (Nat.dvd_sub hend hoffset)
    omega

end Bounded

/-! ### Loads and stores -/

/-- `SQC2`, with `unit_0.vf[r].read_uqword()` for `vf r`. Its opcode finds `LQC2` in `lookup()`. -/
def Micro.sqc2 {σ : Type} (M : Machine σ) (vf : BitVec 5 → σ → Uqword) (inst : EeCoreInstruction) (d : EeData σ) :
    Micro σ :=
  usable .cop2 (store M inst d 128 (vf inst.rt d.rest))

/-- The loads and stores. -/
inductive MemOp where
  /-- `LB`. -/
  | lb
  /-- `LBU`. -/
  | lbu
  /-- `LH`. -/
  | lh
  /-- `LHU`. -/
  | lhu
  /-- `LW`. -/
  | lw
  /-- `LWU`. -/
  | lwu
  /-- `LD`. -/
  | ld
  /-- `LQ`. -/
  | lq
  /-- `LWC1`. -/
  | lwc1
  /-- `LQC2`. -/
  | lqc2
  /-- `LWL`, `LWR`, `LDL` and `LDR`. -/
  | loadPart (size : Size) (side : Side)
  /-- `SB`. -/
  | sb
  /-- `SH`. -/
  | sh
  /-- `SW`. -/
  | sw
  /-- `SD`. -/
  | sd
  /-- `SQ`. -/
  | sq
  /-- `SWC1`. -/
  | swc1
  /-- `SQC2`. -/
  | sqc2
  /-- `SWL`, `SWR`, `SDL` and `SDR`. -/
  | storePart (size : Size) (side : Side)
  deriving DecidableEq, Repr

namespace MemOp

section Instruction

variable {σ : Type} (M : Machine σ) (vf : BitVec 5 → σ → Uqword) (inst : EeCoreInstruction) (d : EeData σ)

/-- The instruction. -/
def micro : MemOp → Micro σ
  | lb => .lb M inst d
  | lbu => .lbu M inst d
  | lh => .lh M inst d
  | lhu => .lhu M inst d
  | lw => .lw M inst d
  | lwu => .lwu M inst d
  | ld => .ld M inst d
  | lq => .lq M inst d
  | lwc1 => .lwc1 M inst d
  | lqc2 => .lqc2 M inst d
  | loadPart size side => size.load M inst d side
  | sb => .sb M inst d
  | sh => .sh M inst d
  | sw => .sw M inst d
  | sd => .sd M inst d
  | sq => .sq M inst d
  | swc1 => .swc1 M inst d
  | sqc2 => .sqc2 M vf inst d
  | storePart size side => size.store M inst d side

/-- The coprocessor it needs. -/
def coprocessor : MemOp → Option EeCore.Coprocessor
  | lwc1 | swc1 => some .cop1
  | lqc2 | sqc2 => some .cop2
  | _ => none

/-- The bits of the effective address before the unit that is accessed. -/
def unitAddress (size : Size) : Uptr := Micro.virtualAddress inst d &&& ~~~size.alignment

/-- Eight times the bytes of the unit before the effective address. -/
def shift (size : Size) : ℕ := ((Micro.virtualAddress inst d &&& size.alignment) <<< 3).toNat

/-- Its access. -/
def access : MemOp → Access σ
  | lb => .read 8 (Micro.virtualAddress inst d) fun value d => d.writeUdword inst.rt (value.signExtend 64)
  | lbu => .read 8 (Micro.virtualAddress inst d) fun value d => d.writeUdword inst.rt (value.setWidth 64)
  | lh => .read 16 (Micro.virtualAddress inst d) fun value d => d.writeUdword inst.rt (value.signExtend 64)
  | lhu => .read 16 (Micro.virtualAddress inst d) fun value d => d.writeUdword inst.rt (value.setWidth 64)
  | lw => .read 32 (Micro.virtualAddress inst d) fun value d => d.writeUdword inst.rt (value.signExtend 64)
  | lwu => .read 32 (Micro.virtualAddress inst d) fun value d => d.writeUdword inst.rt (value.setWidth 64)
  | ld => .read 64 (Micro.virtualAddress inst d) fun value d => d.writeUdword inst.rt value
  | lq => .read 128 (Micro.virtualAddress inst d) fun value d => d.writeUqword inst.rt value
  | lwc1 => .read 32 (Micro.virtualAddress inst d) fun value d => { d with rest := M.setFpr inst.rt value d.rest }
  | lqc2 => .read 128 (Micro.virtualAddress inst d) fun value d => { d with rest := M.setVf inst.rt value d.rest }
  | loadPart size side => .read (8 * size.bytes) (unitAddress inst d size) fun value d' =>
    d'.writeUdword inst.rt
      ((side.loadMerge (shift inst d size) ((d'.gpr inst.rt).setWidth (8 * size.bytes)) value).signExtend 64)
  | sb => .write 8 (Micro.virtualAddress inst d) ((d.gpr inst.rt).setWidth 8)
  | sh => .write 16 (Micro.virtualAddress inst d) ((d.gpr inst.rt).setWidth 16)
  | sw => .write 32 (Micro.virtualAddress inst d) (d.readUword inst.rt)
  | sd => .write 64 (Micro.virtualAddress inst d) (d.readUdword inst.rt)
  | sq => .write 128 (Micro.virtualAddress inst d) (d.gpr inst.rt)
  | swc1 => .write 32 (Micro.virtualAddress inst d) (M.fpr inst.rt d.rest)
  | sqc2 => .write 128 (Micro.virtualAddress inst d) (vf inst.rt d.rest)
  | storePart size side => .update (8 * size.bytes) (unitAddress inst d size)
    (side.storeMerge (shift inst d size) ((d.gpr inst.rt).setWidth (8 * size.bytes)))

/-- An instruction is its access, behind a check of its coprocessor. -/
theorem micro_eq (op : MemOp) : op.micro M vf inst d =
    match op.coprocessor with
    | none => (op.access M vf inst d).micro M d
    | some cop => .usable cop ((op.access M vf inst d).micro M d) := by
  cases op with
  | loadPart size side =>
    rw [micro, Size.load_eq]
    rfl
  | storePart size side =>
    rw [micro, Size.store_eq]
    rfl
  | _ => rfl

end Instruction

section Law

variable {α ρ : Type} [DecidableEq α] (B : EeBus α ρ) (M : Machine (BusState α ρ))
  (vf : BitVec 5 → BusState α ρ → Uqword) (op : MemOp) (inst : EeCoreInstruction) (s : EeCore (BusState α ρ))

/-- The instruction raises an exception of its access and changes neither register nor memory, or it accesses exactly
its bytes, all in one object. -/
def Bounded : Prop :=
  (op.access (B.attach M) vf inst s.data).Bounded B op.coprocessor s ((op.micro (B.attach M) vf inst s.data).run s)

/-- Unless the coprocessor or the translation keeps the instruction from it, all bytes from its physical address on are
inside of one object. -/
def Inside : Prop :=
  (∀ cop, op.coprocessor = some cop → EeCore.isUsable s.cop0 cop) →
    ∀ pa t, s.translateAddressData (op.access (B.attach M) vf inst s.data).virtualAddress
        (op.access (B.attach M) vf inst s.data).rwAccess = .value pa t →
      B.Inside s.data.rest pa (op.access (B.attach M) vf inst s.data).bytes

/-- In every state, for every load and store and every address: the instruction keeps the bounds if and only if its last
byte is inside of the object of its first one, or it does not get as far as the bus. -/
theorem bounded_iff_inside : op.Bounded B M vf inst s ↔ op.Inside B M vf inst s := by
  unfold Bounded Inside
  rw [micro_eq]
  generalize op.access (B.attach M) vf inst s.data = a
  cases hcop : op.coprocessor with
  | none =>
    rw [a.bounded_iff M]
    exact ⟨fun h _ => h, fun h => h fun cop hnone => absurd hnone.symm (Option.some_ne_none cop)⟩
  | some cop =>
    simp only [Option.some.injEq, forall_eq']
    rcases EeCore.handleCopUsable_cases cop s with ⟨husable, hrun⟩ | ⟨hunusable, t, hrun, -⟩
    · simp only [Micro.run, hrun, a.bounded_iff M, husable, forall_const]
    · rw [hunusable]
      refine iff_of_true ?_ fun h => absurd h Bool.false_ne_true
      simp only [Micro.run, hrun]
      refine .raises (.inr (.inr ⟨rfl, rfl⟩)) ?_
      unfold EeCore.handleCopUsable at hrun
      rw [hunusable] at hrun
      rw [← (Result.exception.inj hrun).2]
      rfl

end Law

/-! ### A load at the end of main memory -/

/-- The bus of the EE core with main memory alone, as `initialise_ee` maps it. -/
def mainMemoryBus : EeBus Unit Unit where
  bus := ((ByteBus.new 32 Unit 16).map (fun _ => 0x2000000) 0 ()).2.optimise
  device _ := ⟨0, fun _ _ _ => .error .nullPointer, fun _ _ _ _ => .error .nullPointer⟩

/-- A machine with nothing but its bus. -/
def bareMachine : Machine (BusState Unit Unit) where
  busRead _ _ _ := .error .nullPointer
  busWrite _ _ _ _ := .error .nullPointer
  fpr _ _ := 0
  setFpr _ _ m := m
  setVf _ _ m := m
  csrC _ := 0
  other _ := none
  cpi _ := 9

/-- A core in kernel mode with `0x81FFFFFE` in `gpr[9]`, two bytes before the end of main memory. -/
def endOfMemoryCore : EeCore (BusState Unit Unit) where
  pc := 0x80001000
  bdelay := ⟨0, 0⟩
  data := ⟨fun r => if r = 9 then 0x81FFFFFE else 0, fun _ => some (.new 0x2000000 0 false), ()⟩
  cop0 := { EeCoreCop0.initial with status := ⟨0, true, .kernel, false⟩ }
  tlb := fun _ => EeCore.firstPages
  translationCacheData := .new ..
  translationCacheInst := .new ..

/-- The bus finds main memory at each of its addresses. -/
theorem getPage_mainMemoryBus {x : Uptr} (hx : x.toNat < 0x2000000) :
    mainMemoryBus.bus.getPage x = some ⟨0, some ()⟩ := by
  have hsize : ((fun _ => 0x2000000 : Unit → Uword) ()).toNat = 0x2000000 := rfl
  obtain ⟨bus, hmap⟩ := ByteBus.map_new (fun _ : Unit => 0x2000000) (by decide : 16 ≤ 32) (by decide) 0
    (by decide : (fun _ : Unit => (0x2000000 : Uword)) () ≠ 0) (by decide)
  have hbuilt := (ByteBus.built_new (fun _ : Unit => 0x2000000) 16).map _ (by decide) (by decide) hmap
  rw [mainMemoryBus, hmap]
  exact ByteBus.getPage_optimise _ (by decide) hbuilt List.mem_cons_self (Nat.zero_le _) (by simpa [hsize] using hx)

theorem locate_mainMemoryBus {x : Uptr} (hx : x.toNat < 0x2000000) : mainMemoryBus.locate x = .ok ((), x.toNat) := by
  rw [EeBus.locate, getPage_mainMemoryBus hx]
  exact congrArg (fun offset : Uptr => Except.ok ((), offset.toNat)) (BitVec.sub_zero x)

/-- `LW $8, 0($9)` reads the two last bytes of main memory and two past its end. -/
theorem not_bounded_lw :
    (lw.micro (mainMemoryBus.attach bareMachine) (fun _ _ => 0) ⟨0x8D280000⟩ endOfMemoryCore.data).run endOfMemoryCore =
        .error .outOfBounds ∧
      ¬lw.Bounded mainMemoryBus bareMachine (fun _ _ => 0) ⟨0x8D280000⟩ endOfMemoryCore := by
  have hlocate := locate_mainMemoryBus (x := 0x1FFFFFE) (by decide)
  have hmemory : endOfMemoryCore.data.rest.memory () = some (.new 0x2000000 0 false) := rfl
  have hpast : (ArrayByteMemory.new 0x2000000 0 false).size < (0x1FFFFFE : Uptr).toNat + 32 / 8 := by decide
  have hread : mainMemoryBus.read endOfMemoryCore.data.rest 32 0x1FFFFFE = .error .outOfBounds :=
    EeBus.read_past hlocate hmemory hpast
  have hbus : (mainMemoryBus.attach bareMachine).busRead 32 0x1FFFFFE endOfMemoryCore.data.rest = .error .outOfBounds :=
    hread
  have htranslate : endOfMemoryCore.translateAddressData 0x81FFFFFE .read = .value 0x1FFFFFE _ := rfl
  refine ⟨?_, fun h => ?_⟩
  · obtain ⟨t', hrun⟩ := Access.run_micro (mainMemoryBus.attach bareMachine)
      (a := lw.access (mainMemoryBus.attach bareMachine) (fun _ _ => 0) ⟨0x8D280000⟩ endOfMemoryCore.data) htranslate
    refine hrun.trans ?_
    rw [access, Access.effect, hbus]
    rfl
  · have hinside := (Access.bounded_iff bareMachine
      (lw.access (mainMemoryBus.attach bareMachine) (fun _ _ => 0) ⟨0x8D280000⟩ endOfMemoryCore.data) none
      endOfMemoryCore).mp h
    obtain ⟨object, offset, hwithin⟩ := hinside 0x1FFFFFE _ htranslate
    obtain ⟨rfl, rfl⟩ := Prod.mk.inj (Except.ok.inj (hwithin.located.symm.trans hlocate))
    exact absurd hwithin.inside (by decide)

end MemOp

end Orbum
