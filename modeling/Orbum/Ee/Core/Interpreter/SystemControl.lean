import Orbum.Ee.Core.Mmu

/-!
# System control instructions

The COP0 instructions of `CEeCoreInterpreter_OTHERS.cpp`, `CEeCoreInterpreter_SPECIAL_TRANSFER.cpp`
and `ERET` of `CEeCoreInterpreter_BREAK_TRAP.cpp`. They may throw (`Except HostError`) or raise an
exception (`Result`).

`TLBWI` and `TLBWR` write an entry that the next search is meant to find. It is found at every index
but 47, the one `Random` always holds after a refill.
-/

namespace Orbum

namespace EeCore

variable {σ : Type}

/-! ### Usable coprocessors -/

/-- The coprocessors an instruction can need. -/
inductive Coprocessor where
  /-- COP0. -/
  | cop0
  /-- COP1, the FPU. -/
  | cop1
  /-- COP2, VU0. -/
  | cop2
  deriving DecidableEq

/-- The `CE` value `handle_cop0_usable` and its siblings write. -/
def Coprocessor.number : Coprocessor → Uword
  | cop0 => 0
  | cop1 => 1
  | cop2 => 2

/-- `is_usable()` of `EeCoreCop0`, `EeCoreFpu` and `VuUnit_Vu0`. -/
def isUsable (c : EeCoreCop0) : Coprocessor → Bool
  | .cop0 => c.isUsable
  | .cop1 => decide (0 < c.status.extractField EeCoreCop0Status.cu &&& 0x2)
  | .cop2 => decide (0 < c.status.extractField EeCoreCop0Status.cu &&& 0x4)

/-- `handle_cop0_usable()`, `handle_cop1_usable()` and `handle_cop2_usable()`. -/
def handleCopUsable (cop : Coprocessor) (s : EeCore σ) : Result σ Unit :=
  if isUsable s.cop0 cop then .value () s
  else .exception .exCoprocessorUnusable
    (s.setCop0 { s.cop0 with cause := s.cop0.cause.insertField EeCoreCop0Cause.ce cop.number })

/-- `if (!handle_cop0_usable()) return;` before the rest of an instruction. -/
def whenCop0Usable (s : EeCore σ) (k : EeCore σ → Except HostError (EeCore σ)) : Except HostError (Result σ Unit) :=
  match s.handleCopUsable .cop0 with
  | .value _ s => do return .value () (← k s)
  | .exception e s => .ok (.exception e s)

/-! ### Register transfer -/

/-- `MFC0`, up to the write of the value to `gpr[rt]`. -/
def mfc0 (rd : BitVec 5) (write : Uword → EeData σ → EeData σ) (s : EeCore σ) : Except HostError (Result σ Unit) :=
  s.whenCop0Usable fun s =>
    let (value, cop0) := s.cop0.readRegister rd
    .ok ((s.setCop0 cop0).setData (write value s.data))

/-- `MTC0`, `value` being what `gpr[rt]` holds. -/
def mtc0 (rd : BitVec 5) (value : Uword) (s : EeCore σ) : Except HostError (Result σ Unit) :=
  s.whenCop0Usable fun s => do return s.setCop0 (← s.cop0.writeRegister rd value)

/-! ### Interrupt enable -/

/-- The condition `DI` and `EI` share. -/
def MayChangeEie (status : EeCoreCop0Status) : Prop :=
  status.extractField EeCoreCop0Status.edi = 1 ∨ status.extractField EeCoreCop0Status.exl = 1 ∨
    status.extractField EeCoreCop0Status.erl = 1 ∨ status.extractField EeCoreCop0Status.ksu = 0

instance (status : EeCoreCop0Status) : Decidable (MayChangeEie status) := inferInstanceAs (Decidable (_ ∨ _))

/-- The body `DI` and `EI` share. -/
def setEie (value : Uword) (s : EeCore σ) : Except HostError (Result σ Unit) :=
  if MayChangeEie s.cop0.status then
    do return .value () (s.setStatus (← s.cop0.status.insertField EeCoreCop0Status.eie value))
  else .ok (.value () s)

/-- `DI`. -/
def di (s : EeCore σ) : Except HostError (Result σ Unit) := s.setEie 0

/-- `EI`. -/
def ei (s : EeCore σ) : Except HostError (Result σ Unit) := s.setEie 1

/-! ### The TLB -/

/-- The entry `TLBWI` and `TLBWR` build from `PageMask`, `EntryHi`, `EntryLo0` and `EntryLo1`. -/
def tlbEntryOf (c : EeCoreCop0) : Except HostError EeCoreTlbEntry := do
  let mask ← Mask.ofPagemask (EeCoreCop0.pagemaskMask.extractFrom c.pagemask)
  let half (lo : Uword) : PhysicalInfo :=
    { pfn := EeCoreCop0.entryLoPfn.extractFrom lo
      c := 0 < EeCoreCop0.entryLoC.extractFrom lo
      d := 0 < EeCoreCop0.entryLoD.extractFrom lo
      v := 0 < EeCoreCop0.entryLoV.extractFrom lo }
  return {
    mask
    asid := (EeCoreCop0.entryhiAsid.extractFrom c.entryhi).setWidth 8
    vpn2 := EeCoreCop0.entryhiVpn2.extractFrom c.entryhi
    s := 0 < EeCoreCop0.entryLoS.extractFrom c.entrylo0
    even := half c.entrylo0
    odd := half c.entrylo1
    g := 0 < EeCoreCop0.entryLoG.extractFrom c.entrylo0 &&& EeCoreCop0.entryLoG.extractFrom c.entrylo1 }

/-- The body `TLBWI` and `TLBWR` share. -/
def writeTlbEntry (index : Uword) (s : EeCore σ) : Except HostError (EeCore σ) := do
  let entry ← tlbEntryOf s.cop0
  let tlb ← s.tlb.setTlbEntryAt entry index.toNat
  return { s with tlb }.flush

/-- `TLBWI`. -/
def tlbwi (s : EeCore σ) : Except HostError (Result σ Unit) :=
  s.whenCop0Usable fun s => s.writeTlbEntry (EeCoreCop0.indexField.extractFrom s.cop0.index)

/-- `TLBWR`. -/
def tlbwr (s : EeCore σ) : Except HostError (Result σ Unit) :=
  s.whenCop0Usable fun s => s.writeTlbEntry (EeCoreCop0.randomField.extractFrom s.cop0.random)

/-- A flag as the word a field is set to. -/
def flag (b : Bool) : Uword := if b then 1 else 0

/-- `EntryLo` from one half of an entry, without `S`. -/
def entryLoOf (lo : Uword) (info : PhysicalInfo) (g : Bool) : Uword :=
  EeCoreCop0.entryLoG.insertInto (EeCoreCop0.entryLoV.insertInto (EeCoreCop0.entryLoD.insertInto
    (EeCoreCop0.entryLoC.insertInto (EeCoreCop0.entryLoPfn.insertInto lo info.pfn) (flag info.c)) (flag info.d))
    (flag info.v)) (flag g)

/-- `TLBR`. -/
def tlbr (s : EeCore σ) : Except HostError (Result σ Unit) :=
  s.whenCop0Usable fun s => do
    let entry ← s.tlb.tlbEntryAt (EeCoreCop0.indexField.extractFrom s.cop0.index).toNat
    return s.setCop0 { s.cop0 with
      pagemask := EeCoreCop0.pagemaskMask.insertInto s.cop0.pagemask entry.mask.pagemask
      entryhi := EeCoreCop0.entryhiVpn2.insertInto
        (EeCoreCop0.entryhiAsid.insertInto s.cop0.entryhi (entry.asid.setWidth 32)) entry.vpn2
      entrylo0 := entryLoOf (EeCoreCop0.entryLoS.insertInto s.cop0.entrylo0 (flag entry.s)) entry.even entry.g
      entrylo1 := entryLoOf s.cop0.entrylo1 entry.odd entry.g }

/-- The index `TLBP` finds; it leaves the register alone for an entry of another address space. -/
def probe (c : EeCoreCop0) (tlb : EeCoreTlb) : Option Uword :=
  match tlb.findTlbEntryIndex (EeCoreCop0.entryhiVpn2.extractFrom c.entryhi <<< 13) with
  | none => some 0x80000000
  | some i =>
    if EeCoreCop0.entryhiAsid.extractFrom c.entryhi = (tlb i).asid.setWidth 32 ∨ (tlb i).g then some (BitVec.ofNat 32 i)
    else none

/-- `TLBP`. -/
def tlbp (s : EeCore σ) : Except HostError (Result σ Unit) :=
  s.whenCop0Usable fun s =>
    match probe s.cop0 s.tlb with
    | some value =>
      .ok (s.setCop0 { s.cop0 with index := EeCoreCop0.indexField.insertInto s.cop0.index value })
    | none => .ok s

/-! ### Return from exception -/

/-- `ERET`. -/
def eret (s : EeCore σ) : Except HostError (Result σ Unit) := do
  let erl := 0 < s.cop0.status.extractField EeCoreCop0Status.erl
  let address := if erl then s.cop0.errorepc else s.cop0.epc
  let field := if erl then EeCoreCop0Status.erl else EeCoreCop0Status.exl
  let status ← s.cop0.status.insertField field 0
  return .value () ((s.setPc (address - 4)).setCop0
    { s.cop0 with status, cause := s.cop0.cause.clearAllIrq }).flush

/-! ### Refill -/

/-- The TLB after `TLBWI` or `TLBWR` wrote entry `n`. -/
structure WroteEntry (s s' : EeCore σ) (n : Fin 48) (entry : EeCoreTlbEntry) : Prop where
  /-- The entry is the one COP0 describes. -/
  entry_eq : tlbEntryOf s.cop0 = .ok entry
  /-- It is at index `n`, and the other entries are as before. -/
  tlb_eq : s'.tlb = Function.update s.tlb n entry

theorem wroteEntry_of_writeTlbEntry {index : Uword} {s s' : EeCore σ} (h : s.writeTlbEntry index = .ok s') :
    ∃ n : Fin 48, n.val = index.toNat ∧ ∃ entry, WroteEntry s s' n entry := by
  obtain ⟨entry, hentry, h⟩ := bind_eq_ok_iff.mp h
  obtain ⟨tlb, htlb, h⟩ := bind_eq_ok_iff.mp h
  obtain rfl := Except.ok.inj h
  unfold EeCoreTlb.setTlbEntryAt at htlb
  split_ifs at htlb with hn
  exact ⟨⟨index.toNat, hn⟩, rfl, entry, hentry, (Except.ok.inj htlb).symm⟩

/-- What an instruction needing COP0 has done when it returns a value. -/
theorem of_whenCop0Usable {s s' : EeCore σ} {k : EeCore σ → Except HostError (EeCore σ)}
    (h : s.whenCop0Usable k = .ok (.value () s')) : k s = .ok s' := by
  unfold whenCop0Usable handleCopUsable at h
  split_ifs at h
  · obtain ⟨t, ht, h⟩ := bind_eq_ok_iff.mp h
    obtain rfl : t = s' := by simpa using h
    exact ht
  · simp at h

/-- What an instruction that finds COP0 usable does. -/
theorem whenCop0Usable_of_usable {s : EeCore σ} (hu : isUsable s.cop0 .cop0)
    (k : EeCore σ → Except HostError (EeCore σ)) :
    s.whenCop0Usable k = do return .value () (← k s) := by
  simp [whenCop0Usable, handleCopUsable, hu]

/-- `TLBWI` or `TLBWR`, with the index they write at. -/
def tlbWrite (random : Bool) (s : EeCore σ) : Except HostError (Result σ Unit) := if random then s.tlbwr else s.tlbwi

theorem wroteEntry_of_tlbWrite {random : Bool} {s s' : EeCore σ} (h : s.tlbWrite random = .ok (.value () s')) :
    ∃ n : Fin 48, n.val = (if random then EeCoreCop0.randomField.extractFrom s.cop0.random
        else EeCoreCop0.indexField.extractFrom s.cop0.index).toNat ∧ ∃ entry, WroteEntry s s' n entry := by
  cases random with
  | false =>
    have hw := of_whenCop0Usable (show s.whenCop0Usable _ = _ from h)
    exact wroteEntry_of_writeTlbEntry hw
  | true =>
    have hw := of_whenCop0Usable (show s.whenCop0Usable _ = _ from h)
    exact wroteEntry_of_writeTlbEntry hw

/-- The TLB search finds exactly the matching entries, and the entry just written by `TLBWI` or `TLBWR`, if and only
if an address that entry 47 matches is also matched by another entry. -/
theorem tlb_search_iff :
    (∀ (tlb : EeCoreTlb) (va : Uptr),
      ((tlb.findTlbEntryIndex va = none ↔ ∀ i, ¬(tlb i).IsMatch va) ∧
        ∀ i, tlb.findTlbEntryIndex va = some i → (tlb i).IsMatch va) ↔
      ((tlb 47).IsMatch va → ∃ i, i ≠ 47 ∧ (tlb i).IsMatch va)) ∧
    ∀ (random : Bool) (s s' : EeCore σ), s.tlbWrite random = .ok (.value () s') →
      ∃ (n : Fin 48) (entry : EeCoreTlbEntry), WroteEntry s s' n entry ∧
        ∀ va, entry.IsMatch va →
          (s'.tlb.findTlbEntryIndex va ≠ none ↔ (n = 47 → ∃ i, i ≠ 47 ∧ (s.tlb i).IsMatch va)) := by
  refine ⟨fun tlb va => ⟨?_, ?_⟩, fun random s s' h => ?_⟩
  · rintro ⟨hnone, -⟩ h47
    by_contra hall
    have hnone' : tlb.findTlbEntryIndex va = none :=
      (EeCoreTlb.find_eq_none_iff tlb va).mpr fun i hi hm => hall ⟨i, hi, hm⟩
    exact hnone.mp hnone' 47 h47
  · intro h
    refine ⟨⟨fun hnone i hm => ?_, fun hall => ?_⟩, fun i => EeCoreTlb.isMatch_of_find⟩
    · rw [EeCoreTlb.find_eq_none_iff] at hnone
      by_cases hi : i = 47
      · obtain ⟨j, hj, hmj⟩ := h (hi ▸ hm)
        exact hnone j hj hmj
      · exact hnone i hi hm
    · exact (EeCoreTlb.find_eq_none_iff tlb va).mpr fun i _ => hall i
  · obtain ⟨n, -, entry, hw⟩ := wroteEntry_of_tlbWrite h
    refine ⟨n, entry, hw, fun va hm => ?_⟩
    have hmn : (s'.tlb n).IsMatch va := by simpa [hw.tlb_eq] using hm
    rw [EeCoreTlb.find_ne_none_iff _ hmn]
    refine forall_congr' fun hn => exists_congr fun i => and_congr_right fun hi => ?_
    rw [hw.tlb_eq, Function.update_of_ne (by rw [hn]; exact hi)]

/-- A mapping of the first 8 KB. -/
def firstPages : EeCoreTlbEntry := ⟨.fourKb, 0, true, 0, false, ⟨0, false, true, true⟩, ⟨1, false, true, true⟩⟩

/-- A mapping of the last 8 KB. -/
def lastPages : EeCoreTlbEntry := { firstPages with vpn2 := 0x7FFFF }

/-- Entry 47 alone matches address 0, and the search does not find it. -/
theorem tlb_search_misses_last :
    ∃ tlb : EeCoreTlb, (tlb 47).IsMatch 0 ∧ tlb.findTlbEntryIndex 0 = none :=
  ⟨fun i => if i = 47 then firstPages else lastPages, by decide, by decide⟩

end EeCore

end Orbum
