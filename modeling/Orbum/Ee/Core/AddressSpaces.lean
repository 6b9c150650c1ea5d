import Orbum.Ee.Core.Interpreter.SystemControl

/-!
# Address spaces of the EE core

What keeps the processes of a guest apart: the segments each operating context may use, and the ASID
a TLB entry is tagged with.

`translate_address_fallback` and `TLBP` both search the TLB by address alone and look at the ASID of
the first hit only. An entry of another process that comes earlier in the search hides the entry of
the current one. The bounds of supervisor mode are compared crosswise, so that the test leaves out
`kseg3` alone.
-/

namespace Orbum

/-! ### What an entry gives -/

/-- The entry matches the address and belongs to the address space `EntryHi` names. -/
def EeCoreTlbEntry.Maps (e : EeCoreTlbEntry) (c : EeCoreCop0) (va : Uptr) : Prop := e.IsMatch va ∧ e.InAddressSpace c

instance (e : EeCoreTlbEntry) (c : EeCoreCop0) (va : Uptr) : Decidable (e.Maps c va) := inferInstanceAs (Decidable (_ ∧ _))

/-- What an access through the entry comes to: the tests of `V` and `D`, then stages 3 and 4. -/
def EeCoreTlbEntry.access (e : EeCoreTlbEntry) (va : Uptr) (rw : MmuRwAccess) : Except EeCoreException Uptr :=
  if ¬(e.physicalInfo va).v then .error (tlbRefillInvalid rw)
  else if ¬(e.physicalInfo va).d ∧ rw = .write then .error .exTlbModified
  else .ok (e.physicalAddress va)

/-- The address is inside the segments of the context and translated by the TLB. -/
def Mapped (c : EeCoreCop0) (va : Uptr) : Prop := InSegment c.status.operatingContext va ∧ unmapped c va = none

instance (c : EeCoreCop0) (va : Uptr) : Decidable (Mapped c va) := inferInstanceAs (Decidable (_ ∧ _))

theorem walk_of_unmapped {c : EeCoreCop0} {va pa : Uptr} (hin : InSegment c.status.operatingContext va)
    (hun : unmapped c va = some pa) (tlb : EeCoreTlb) (rw : MmuRwAccess) : walk c tlb va rw = .ok pa := by
  unfold walk
  rw [if_neg (not_not_intro hin), hun]

theorem walk_of_find_none {c : EeCoreCop0} {va : Uptr} (hm : Mapped c va) {tlb : EeCoreTlb}
    (hf : tlb.findTlbEntryIndex va = none) (rw : MmuRwAccess) : walk c tlb va rw = .error (tlbRefillInvalid rw) := by
  unfold walk
  rw [if_neg (not_not_intro hm.1), hm.2, hf]

theorem walk_of_find {c : EeCoreCop0} {va : Uptr} (hm : Mapped c va) {tlb : EeCoreTlb} {i : Fin 48}
    (hf : tlb.findTlbEntryIndex va = some i) (rw : MmuRwAccess) :
    walk c tlb va rw = if (tlb i).InAddressSpace c then (tlb i).access va rw else .error (tlbRefillInvalid rw) := by
  unfold walk EeCoreTlbEntry.access
  rw [if_neg (not_not_intro hm.1), hm.2, hf]
  simp only [ite_not]

theorem tlbRefillInvalid_ne_addressError (rw : MmuRwAccess) : tlbRefillInvalid rw ≠ addressError rw := by
  cases rw <;> decide

theorem access_ne_addressError (e : EeCoreTlbEntry) (va : Uptr) (rw : MmuRwAccess) :
    e.access va rw ≠ .error (addressError rw) := by
  unfold EeCoreTlbEntry.access
  split_ifs <;> cases rw <;> simp [tlbRefillInvalid, addressError]

/-- An access ends in the refill exception exactly when its half of the entry is invalid. -/
theorem access_eq_tlbRefillInvalid_iff (e : EeCoreTlbEntry) (va : Uptr) (rw : MmuRwAccess) :
    e.access va rw = .error (tlbRefillInvalid rw) ↔ ¬(e.physicalInfo va).v := by
  unfold EeCoreTlbEntry.access
  split_ifs with hv hd
  · cases rw <;> simp [hv, tlbRefillInvalid]
  · simp [hv]
  · simp [hv]

/-! ### Segments -/

/-- `Status` says user mode. -/
def UserMode (w : Uword) : Prop :=
  EeCoreCop0Status.ksu.extractFrom w = 2 ∧ EeCoreCop0Status.erl.extractFrom w = 0 ∧ EeCoreCop0Status.exl.extractFrom w = 0

/-- `Status` says supervisor mode. -/
def SupervisorMode (w : Uword) : Prop :=
  EeCoreCop0Status.ksu.extractFrom w = 1 ∧ EeCoreCop0Status.erl.extractFrom w = 0 ∧ EeCoreCop0Status.exl.extractFrom w = 0

instance (w : Uword) : Decidable (UserMode w) := inferInstanceAs (Decidable (_ ∧ _))

instance (w : Uword) : Decidable (SupervisorMode w) := inferInstanceAs (Decidable (_ ∧ _))

/-- The address is in `suseg`, which is `useg` in user mode. -/
def InSuseg (virtualAddress : Uptr) : Prop := virtualAddress ≤ 0x7FFFFFFF

/-- The address is in `sseg`. -/
def InSseg (virtualAddress : Uptr) : Prop := 0xC0000000 ≤ virtualAddress ∧ virtualAddress ≤ 0xDFFFFFFF

/-- The address is in `kseg0` or `kseg1`. -/
def InKseg01 (virtualAddress : Uptr) : Prop := 0x80000000 ≤ virtualAddress ∧ virtualAddress ≤ 0xBFFFFFFF

instance (va : Uptr) : Decidable (InSuseg va) := inferInstanceAs (Decidable (_ ≤ _))

instance (va : Uptr) : Decidable (InSseg va) := inferInstanceAs (Decidable (_ ∧ _))

instance (va : Uptr) : Decidable (InKseg01 va) := inferInstanceAs (Decidable (_ ∧ _))

theorem EeCoreCop0Status.Synced.context_of_user {s : EeCoreCop0Status} (h : s.Synced) (hu : UserMode s.w) :
    s.operatingContext = .user := by
  have hc := h.context
  obtain ⟨h1, h2, h3⟩ := hu
  simp only [contextOf, h1, h2, h3, and_self, if_true] at hc
  exact (Except.ok.inj hc).symm

theorem EeCoreCop0Status.Synced.context_of_supervisor {s : EeCoreCop0Status} (h : s.Synced) (hs : SupervisorMode s.w) :
    s.operatingContext = .supervisor := by
  have hc := h.context
  obtain ⟨h1, h2, h3⟩ := hs
  simp only [contextOf, h1, h2, h3] at hc
  exact (Except.ok.inj hc).symm

/-- The walk raises an address error exactly outside the segments of the context, whatever the TLB holds. -/
theorem walk_eq_addressError_iff (c : EeCoreCop0) (tlb : EeCoreTlb) (va : Uptr) (rw : MmuRwAccess) :
    walk c tlb va rw = .error (addressError rw) ↔ ¬InSegment c.status.operatingContext va := by
  constructor
  · intro h hin
    cases hun : unmapped c va with
    | some pa =>
      rw [walk_of_unmapped hin hun] at h
      cases h
    | none =>
      cases hf : tlb.findTlbEntryIndex va with
      | none =>
        rw [walk_of_find_none ⟨hin, hun⟩ hf] at h
        exact tlbRefillInvalid_ne_addressError rw (Except.error.inj h)
      | some i =>
        rw [walk_of_find ⟨hin, hun⟩ hf] at h
        split_ifs at h
        · exact access_ne_addressError _ _ _ h
        · exact tlbRefillInvalid_ne_addressError rw (Except.error.inj h)
  · intro h
    unfold walk
    rw [if_pos h]

/-- The bounds of supervisor mode, as they are compared. -/
theorem inSegment_supervisor_iff (va : Uptr) : InSegment .supervisor va ↔ va ≤ 0xDFFFFFFF := by
  simp only [InSegment]
  bv_omega

namespace EeCore

variable {σ : Type}

/-- The fallback raises an address error and returns nothing. -/
def RaisesAddressError (s : EeCore σ) (va : Uptr) (rw : MmuRwAccess) : Prop :=
  ∃ t, s.translateAddressFallback va rw = .exception (addressError rw) t

/-- What the segments promise for an access. -/
structure SegmentsProtected (s : EeCore σ) (va : Uptr) (rw : MmuRwAccess) : Prop where
  /-- A user is confined to `useg`. -/
  user : UserMode s.cop0.status.w → (RaisesAddressError s va rw ↔ 0x7FFFFFFF < va)
  /-- A supervisor is confined to `suseg` and `sseg`. -/
  supervisor : SupervisorMode s.cop0.status.w → (RaisesAddressError s va rw ↔ ¬(InSuseg va ∨ InSseg va))
  /-- Neither reaches a physical address through a segment of the kernel. -/
  kernel : UserMode s.cop0.status.w ∨ SupervisorMode s.cop0.status.w →
    ∀ pa t, s.translateAddressFallback va rw = .value pa t →
      InSuseg va ∨ (SupervisorMode s.cop0.status.w ∧ InSseg va)

theorem raisesAddressError_iff (s : EeCore σ) (va : Uptr) (rw : MmuRwAccess) :
    RaisesAddressError s va rw ↔ ¬InSegment s.cop0.status.operatingContext va := by
  rw [← walk_eq_addressError_iff s.cop0 s.tlb va rw]
  unfold RaisesAddressError translateAddressFallback
  cases walk s.cop0 s.tlb va rw <;> simp

theorem inSegment_of_value {s t : EeCore σ} {va pa : Uptr} {rw : MmuRwAccess}
    (h : s.translateAddressFallback va rw = .value pa t) : InSegment s.cop0.status.operatingContext va := by
  by_contra hout
  obtain ⟨u, hu⟩ := (raisesAddressError_iff s va rw).mpr hout
  rw [hu] at h
  cases h

/-- The segments are protected from every access but those of a supervisor to `kseg0` and `kseg1`. -/
theorem segmentsProtected_iff {s : EeCore σ} (hs : s.cop0.status.Synced) (va : Uptr) (rw : MmuRwAccess) :
    SegmentsProtected s va rw ↔ ¬(SupervisorMode s.cop0.status.w ∧ InKseg01 va) := by
  constructor
  · rintro ⟨-, hsup, -⟩ ⟨hmode, hk⟩
    have h := hsup hmode
    rw [raisesAddressError_iff, hs.context_of_supervisor hmode, inSegment_supervisor_iff] at h
    unfold InSuseg InSseg at h
    unfold InKseg01 at hk
    bv_omega
  · intro hno
    refine ⟨fun hu => ?_, fun hsup => ?_, fun hmode pa t hv => ?_⟩
    · rw [raisesAddressError_iff, hs.context_of_user hu]
      simp only [InSegment]
      bv_omega
    · have hk : ¬InKseg01 va := fun hk => hno ⟨hsup, hk⟩
      rw [raisesAddressError_iff, hs.context_of_supervisor hsup, inSegment_supervisor_iff]
      unfold InKseg01 at hk
      unfold InSuseg InSseg
      bv_omega
    · have hin := inSegment_of_value hv
      rcases hmode with hu | hsup
      · rw [hs.context_of_user hu] at hin
        exact .inl hin
      · have hk : ¬InKseg01 va := fun hk => hno ⟨hsup, hk⟩
        rw [hs.context_of_supervisor hsup, inSegment_supervisor_iff] at hin
        simp only [hsup, true_and]
        unfold InKseg01 at hk
        unfold InSuseg InSseg
        bv_omega

/-- A core under the `Status` and the TLB given. -/
def coreUnder (status : EeCoreCop0Status) (tlb : EeCoreTlb) : EeCore Unit where
  pc := 0
  bdelay := ⟨0, 0⟩
  data := ⟨fun _ => 0, ()⟩
  cop0 := { EeCoreCop0.initial with status }
  tlb := tlb
  translationCacheData := .new ..
  translationCacheInst := .new ..

/-- `Status` in supervisor mode. -/
def supervisorStatus : EeCoreCop0Status := ⟨8, true, .supervisor, false⟩

theorem synced_supervisorStatus : supervisorStatus.Synced := ⟨by decide, by rfl, by decide⟩

/-- The supervisor is refused `kseg3`. -/
theorem segmentsProtected_iff_kseg3 : SegmentsProtected (coreUnder supervisorStatus fun _ => lastPages) 0xE0000000 .read :=
  (segmentsProtected_iff (s := coreUnder supervisorStatus fun _ => lastPages) synced_supervisorStatus 0xE0000000
    .read).mpr (by decide)

/-- A mapping of the first 8 KB of `kseg0`. -/
def kseg0Pages : EeCoreTlbEntry := { firstPages with vpn2 := 0x40000 }

/-- A supervisor reads physical address 0 through `kseg0`. -/
theorem supervisor_reaches_kseg0 :
    supervisorStatus.Synced ∧ SupervisorMode supervisorStatus.w ∧
      (coreUnder supervisorStatus fun _ => kseg0Pages).translateAddressFallback 0x80000000 .read =
        .value 0 (coreUnder supervisorStatus fun _ => kseg0Pages) ∧
      ¬SegmentsProtected (coreUnder supervisorStatus fun _ => kseg0Pages) 0x80000000 .read := by
  have hv : (coreUnder supervisorStatus fun _ => kseg0Pages).translateAddressFallback 0x80000000 .read =
      .value 0 (coreUnder supervisorStatus fun _ => kseg0Pages) := rfl
  have hmode : SupervisorMode supervisorStatus.w := by decide
  refine ⟨synced_supervisorStatus, hmode, hv, fun h => ?_⟩
  exact absurd (h.kernel (.inr hmode) _ _ hv) (by decide)

/-! ### Selection -/

/-- Entry `i` is the one searched entry that maps the address. -/
structure OnlyMappedBy (c : EeCoreCop0) (tlb : EeCoreTlb) (va : Uptr) (i : Fin 48) : Prop where
  /-- It is searched. -/
  searched : i ≠ 47
  /-- It maps the address. -/
  maps : (tlb i).Maps c va
  /-- No other searched entry does. -/
  unique : ∀ j, j ≠ 47 → (tlb j).Maps c va → j = i

/-- The walk uses the entry that maps the address exactly when the search comes to it first, or when the answer is
the refill exception anyway. -/
theorem walk_eq_access_iff {c : EeCoreCop0} {tlb : EeCoreTlb} {va : Uptr} {i : Fin 48} (hm : Mapped c va)
    (hi : OnlyMappedBy c tlb va i) (rw : MmuRwAccess) :
    walk c tlb va rw = (tlb i).access va rw ↔
      (tlb.findTlbEntryIndex va = some i ∨ ¬((tlb i).physicalInfo va).v) := by
  obtain ⟨j, hj⟩ : ∃ j, tlb.findTlbEntryIndex va = some j :=
    Option.ne_none_iff_exists'.mp ((EeCoreTlb.find_ne_none_iff tlb hi.maps.1).mpr fun h => absurd h hi.searched)
  rw [walk_of_find hm hj]
  by_cases hji : j = i
  · subst hji
    simp only [if_pos hi.maps.2, hj, true_or]
  · have hjm : (tlb j).IsMatch va := EeCoreTlb.isMatch_of_find hj
    have hj47 : j ≠ 47 := (EeCoreTlb.mem_searchOrder j).mp (List.mem_of_find?_eq_some hj)
    have hout : ¬(tlb j).InAddressSpace c := fun hin => hji (hi.unique j hj47 ⟨hjm, hin⟩)
    have hne : ¬some j = some i := fun h => hji (Option.some.inj h)
    rw [if_neg hout, hj, eq_comm, access_eq_tlbRefillInvalid_iff]
    simp only [hne, false_or]

/-- What the fallback returns for an answer of the walk. -/
def fallbackResult (s : EeCore σ) (va : Uptr) : Except EeCoreException Uptr → Result σ Uptr
  | .ok physicalAddress => .value physicalAddress s
  | .error e => .exception e (s.mmuError va)

theorem translateAddressFallback_eq_fallbackResult (s : EeCore σ) (va : Uptr) (rw : MmuRwAccess) :
    s.translateAddressFallback va rw = fallbackResult s va (walk s.cop0 s.tlb va rw) := by
  unfold translateAddressFallback
  cases walk s.cop0 s.tlb va rw <;> rfl

theorem fallbackResult_injective (s : EeCore σ) (va : Uptr) : Function.Injective (fallbackResult s va) := by
  intro a b h
  have hans (x : Except EeCoreException Uptr) : (fallbackResult s va x).answer = x := by cases x <;> rfl
  rw [← hans a, h, hans b]

/-- A mapped address that one searched entry maps is translated through that entry, to its page frame and the offset
or to the scratchpad when the half allows the access, or to the entry's exception, exactly when the search comes to
the entry first or its half is invalid. -/
theorem translateAddressFallback_uses_entry_iff {s : EeCore σ} {va : Uptr} {i : Fin 48} (hm : Mapped s.cop0 va)
    (hi : OnlyMappedBy s.cop0 s.tlb va i) (rw : MmuRwAccess) :
    (s.translateAddressFallback va rw =
      if ¬((s.tlb i).physicalInfo va).v then .exception (tlbRefillInvalid rw) (s.mmuError va)
      else if ¬((s.tlb i).physicalInfo va).d ∧ rw = .write then .exception .exTlbModified (s.mmuError va)
      else if (s.tlb i).s then .value (0x70000000 + (va &&& 0x3FFF)) s
      else .value ((((s.tlb i).physicalInfo va).pfn <<< 12) |||
        (va &&& (((s.tlb i).mask.pagemask <<< 12) ||| 0xFFF))) s) ↔
      (s.tlb.findTlbEntryIndex va = some i ∨ ¬((s.tlb i).physicalInfo va).v) := by
  rw [← walk_eq_access_iff hm hi rw, ← (fallbackResult_injective s va).eq_iff, ← translateAddressFallback_eq_fallbackResult]
  refine Iff.of_eq (congrArg _ ?_)
  unfold EeCoreTlbEntry.access EeCoreTlbEntry.physicalAddress
  split_ifs <;> rfl

/-- `Status` in kernel mode with `ERL` clear. -/
def kernelStatus : EeCoreCop0Status := ⟨0, true, .kernel, false⟩

/-- The first 8 KB as process 0 and process 1 map them, one in entry 1 and one in entry 13, which is searched
before it. -/
def twoProcesses : EeCoreTlb := fun i =>
  if i = 1 then { firstPages with g := false } else if i = 13 then { firstPages with g := false, asid := 1 } else lastPages

theorem onlyMappedBy_twoProcesses : OnlyMappedBy (coreUnder kernelStatus twoProcesses).cop0 twoProcesses 0 1 :=
  ⟨by decide, by decide, by decide⟩

/-- The valid entry of process 0 is hidden by the one of process 1. -/
theorem entry_hidden_by_other_process :
    Mapped (coreUnder kernelStatus twoProcesses).cop0 0 ∧
      OnlyMappedBy (coreUnder kernelStatus twoProcesses).cop0 twoProcesses 0 1 ∧ ((twoProcesses 1).physicalInfo 0).v ∧
      ((twoProcesses 1).physicalInfo 0).pfn = 0 ∧
      (coreUnder kernelStatus twoProcesses).translateAddressFallback 0 .read =
        .exception .exTlbRefillInvalidInstructionFetchLoad ((coreUnder kernelStatus twoProcesses).mmuError 0) :=
  ⟨by decide, onlyMappedBy_twoProcesses, rfl, rfl, rfl⟩

/-- The first 8 KB, mapped by entry 1 alone. -/
def oneProcess : EeCoreTlb := fun i => if i = 1 then { firstPages with g := false } else lastPages

/-- Without the other process the entry is used. -/
theorem translateAddressFallback_uses_entry_iff_oneProcess :
    (coreUnder kernelStatus oneProcess).translateAddressFallback 4 .read = .value 4 (coreUnder kernelStatus oneProcess) :=
  (translateAddressFallback_uses_entry_iff (s := coreUnder kernelStatus oneProcess) (by decide)
    (show OnlyMappedBy _ _ 4 1 from ⟨by decide, by decide, by decide⟩) .read).mpr (.inl (by decide))

/-! ### Probing -/

/-- Some entry matches `EntryHi`, with an equal ASID or `G` set. -/
def ProbeHit (c : EeCoreCop0) (tlb : EeCoreTlb) (i : Fin 48) : Prop :=
  (tlb i).Maps c (EeCoreCop0.entryhiVpn2.extractFrom c.entryhi <<< 13)

/-- `INDEX` of the register names the entry. -/
def Names (index : Uword) (i : Fin 48) : Prop := (EeCoreCop0.indexField.extractFrom index).toNat = i

/-- `Index` answers a probe. -/
structure AnswersProbe (c : EeCoreCop0) (tlb : EeCoreTlb) (index : Uword) : Prop where
  /-- `P` is set when no entry matches. -/
  miss : (∀ i, ¬ProbeHit c tlb i) → EeCoreCop0.indexP.extractFrom index = 1
  /-- `P` is clear and `INDEX` names a matching entry when there is one. -/
  hit : (∃ i, ProbeHit c tlb i) → EeCoreCop0.indexP.extractFrom index = 0 ∧ ∃ i, ProbeHit c tlb i ∧ Names index i

/-- When `TLBP` leaves an answer: it never writes `P`, and leaves `INDEX` alone when the search meets an entry of
another address space. -/
structure ProbeWorks (c : EeCoreCop0) (tlb : EeCoreTlb) : Prop where
  /-- `P` is set already when no entry matches. -/
  miss : (∀ i, ¬ProbeHit c tlb i) → EeCoreCop0.indexP.extractFrom c.index = 1
  /-- `P` is clear already, and the search comes first to a matching entry, or to an entry of another address space
  when `INDEX` names a matching entry already. -/
  hit : (∃ i, ProbeHit c tlb i) → EeCoreCop0.indexP.extractFrom c.index = 0 ∧
    ∃ j, tlb.findTlbEntryIndex (EeCoreCop0.entryhiVpn2.extractFrom c.entryhi <<< 13) = some j ∧
      (ProbeHit c tlb j ∨ ∃ i, ProbeHit c tlb i ∧ Names c.index i)

theorem extractFrom_indexP_insertInto (index value : Uword) :
    EeCoreCop0.indexP.extractFrom (EeCoreCop0.indexField.insertInto index value) =
      EeCoreCop0.indexP.extractFrom index :=
  Bitfield.extractFrom_insertInto_of_disjoint _ _ (by decide)

theorem names_insertInto_iff (index : Uword) (i j : Fin 48) :
    Names (EeCoreCop0.indexField.insertInto index (BitVec.ofNat 32 i)) j ↔ i = j := by
  unfold Names
  rw [Bitfield.extractFrom_insertInto_self _ _ _ (by decide), BitVec.toNat_and, BitVec.toNat_ofNat,
    show (EeCoreCop0.indexField.unshiftedMask 32).toNat = 2 ^ 6 - 1 by decide, Nat.and_two_pow_sub_one_eq_mod]
  omega

/-- The register after a probe. -/
def probedIndex (c : EeCoreCop0) (tlb : EeCoreTlb) : Uword :=
  match probe c tlb with
  | some value => EeCoreCop0.indexField.insertInto c.index value
  | none => c.index

theorem index_of_tlbp {s s' : EeCore σ} (h : s.tlbp = .ok (.value () s')) : s'.cop0.index = probedIndex s.cop0 s.tlb := by
  have hk := of_whenCop0Usable (show s.whenCop0Usable _ = _ from h)
  unfold probedIndex
  cases hp : probe s.cop0 s.tlb with
  | none =>
    simp only [hp, Except.ok.injEq] at hk
    rw [← hk]
  | some value =>
    simp only [hp, Except.ok.injEq] at hk
    rw [← hk]
    rfl

/-- A probe never writes `P`. -/
theorem indexP_probedIndex (c : EeCoreCop0) (tlb : EeCoreTlb) :
    EeCoreCop0.indexP.extractFrom (probedIndex c tlb) = EeCoreCop0.indexP.extractFrom c.index := by
  unfold probedIndex
  cases probe c tlb with
  | none => rfl
  | some value => exact extractFrom_indexP_insertInto c.index value

theorem probedIndex_of_hit {c : EeCoreCop0} {tlb : EeCoreTlb} {j : Fin 48}
    (hj : tlb.findTlbEntryIndex (EeCoreCop0.entryhiVpn2.extractFrom c.entryhi <<< 13) = some j)
    (hin : (tlb j).InAddressSpace c) :
    probedIndex c tlb = EeCoreCop0.indexField.insertInto c.index (BitVec.ofNat 32 j) := by
  unfold probedIndex probe
  simp only [hj, if_pos (Or.symm hin)]

theorem probedIndex_of_hidden {c : EeCoreCop0} {tlb : EeCoreTlb} {j : Fin 48}
    (hj : tlb.findTlbEntryIndex (EeCoreCop0.entryhiVpn2.extractFrom c.entryhi <<< 13) = some j)
    (hout : ¬(tlb j).InAddressSpace c) : probedIndex c tlb = c.index := by
  unfold probedIndex probe
  simp only [hj, if_neg fun h => hout (Or.symm h)]

theorem probedIndex_of_miss {c : EeCoreCop0} {tlb : EeCoreTlb}
    (hj : tlb.findTlbEntryIndex (EeCoreCop0.entryhiVpn2.extractFrom c.entryhi <<< 13) = none) :
    probedIndex c tlb = EeCoreCop0.indexField.insertInto c.index (BitVec.ofNat 32 (0 : Fin 48)) := by
  unfold probedIndex probe
  simp only [hj]
  ext i hi
  simp only [← BitVec.getLsbD_eq_getElem]
  rw [Bitfield.getLsbD_insertInto _ _ _ _ hi, Bitfield.getLsbD_insertInto _ _ _ _ hi]
  split_ifs with hc
  · have h31 : i - EeCoreCop0.indexField.start ≠ 31 := by
      have h6 : i < 0 + 6 := hc.2
      omega
    have hbit (k : ℕ) (hk : k ≠ 31) : (0x80000000 : Uword).getLsbD k = false := by
      rw [show (0x80000000 : Uword) = BitVec.twoPow 32 31 by decide, BitVec.getLsbD_twoPow]
      simp [Ne.symm hk]
    rw [hbit _ h31]
    exact (BitVec.getLsbD_zero).symm
  · rfl

/-- The entry `INDEX` names after a probe is a matching one exactly when the search comes to a matching entry, or to
an entry of another address space while `INDEX` names a matching entry already. -/
theorem names_probedIndex_iff (c : EeCoreCop0) (tlb : EeCoreTlb) :
    (∃ i, ProbeHit c tlb i ∧ Names (probedIndex c tlb) i) ↔
      ∃ j, tlb.findTlbEntryIndex (EeCoreCop0.entryhiVpn2.extractFrom c.entryhi <<< 13) = some j ∧
        (ProbeHit c tlb j ∨ ∃ i, ProbeHit c tlb i ∧ Names c.index i) := by
  cases hf : tlb.findTlbEntryIndex (EeCoreCop0.entryhiVpn2.extractFrom c.entryhi <<< 13) with
  | none =>
    -- INDEX names entry 0, which is searched and does not match
    have hno : ¬(tlb 0).IsMatch (EeCoreCop0.entryhiVpn2.extractFrom c.entryhi <<< 13) :=
      (EeCoreTlb.find_eq_none_iff _ _).mp hf 0 (by decide)
    rw [probedIndex_of_miss hf]
    constructor
    · rintro ⟨i, hi, hn⟩
      rw [names_insertInto_iff] at hn
      exact absurd (hn ▸ hi.1) hno
    · rintro ⟨j, hj, -⟩
      cases hj
  | some j =>
    have hjm := EeCoreTlb.isMatch_of_find hf
    by_cases hin : (tlb j).InAddressSpace c
    · rw [probedIndex_of_hit hf hin]
      have hj : ProbeHit c tlb j := ⟨hjm, hin⟩
      exact ⟨fun _ => ⟨j, rfl, .inl hj⟩, fun _ => ⟨j, hj, (names_insertInto_iff _ _ _).mpr rfl⟩⟩
    · rw [probedIndex_of_hidden hf hin]
      constructor
      · exact fun h => ⟨j, rfl, .inr h⟩
      · rintro ⟨k, hk, hhit | h⟩
        · obtain rfl := Option.some.inj hk
          exact absurd hhit.2 hin
        · exact h

/-- `TLBP` leaves an answer in `Index` exactly when `P` and, behind an entry of another address space, `INDEX` held
the answer before. -/
theorem tlbp_answers_iff {s s' : EeCore σ} (h : s.tlbp = .ok (.value () s')) :
    AnswersProbe s.cop0 s.tlb s'.cop0.index ↔ ProbeWorks s.cop0 s.tlb := by
  rw [index_of_tlbp h]
  constructor
  · rintro ⟨hmiss, hhit⟩
    simp only [indexP_probedIndex, names_probedIndex_iff] at hmiss hhit
    exact ⟨hmiss, hhit⟩
  · rintro ⟨hmiss, hhit⟩
    refine ⟨?_, ?_⟩ <;> simp only [indexP_probedIndex, names_probedIndex_iff] <;> assumption

/-- A core that probes for the first 8 KB as process 1. -/
def probingCore : EeCore Unit :=
  { coreUnder kernelStatus twoProcesses with cop0 := { EeCoreCop0.initial with status := kernelStatus, entryhi := 1 } }

/-- It finds its own entry, which is come to before the one of process 0. -/
theorem tlbp_answers_iff_hit : ∃ s', probingCore.tlbp = .ok (.value () s') ∧ s'.cop0.index = 13 ∧
    AnswersProbe probingCore.cop0 probingCore.tlb s'.cop0.index := by
  have hprobe : probingCore.tlbp = .ok (.value () { probingCore with cop0 := { probingCore.cop0 with index := 13 } }) := rfl
  have hhit : ProbeHit probingCore.cop0 probingCore.tlb 13 := ⟨by decide, by decide⟩
  refine ⟨_, hprobe, rfl, (tlbp_answers_iff hprobe).mpr ⟨fun h => absurd hhit (h 13), fun _ => ?_⟩⟩
  exact ⟨by decide, 13, rfl, .inl hhit⟩

/-- No entry matches address 0. -/
theorem not_probeHit_lastPages (i : Fin 48) :
    ¬ProbeHit (coreUnder kernelStatus fun _ => lastPages).cop0 (fun _ => lastPages) i :=
  fun h => absurd h.1 (show ¬lastPages.IsMatch 0 by decide)

/-- A probe that fails reads back as a hit on entry 0. -/
theorem failed_probe_reads_as_hit :
    (∀ i, ¬ProbeHit (coreUnder kernelStatus fun _ => lastPages).cop0 (fun _ => lastPages) i) ∧
      (coreUnder kernelStatus fun _ => lastPages).tlbp = .ok (.value () (coreUnder kernelStatus fun _ => lastPages)) ∧
      EeCoreCop0.indexP.extractFrom (coreUnder kernelStatus fun _ => lastPages).cop0.index = 0 ∧
      Names (coreUnder kernelStatus fun _ => lastPages).cop0.index 0 ∧
      ¬AnswersProbe (coreUnder kernelStatus fun _ => lastPages).cop0 (fun _ => lastPages)
        (coreUnder kernelStatus fun _ => lastPages).cop0.index := by
  have hp : EeCoreCop0.indexP.extractFrom (coreUnder kernelStatus fun _ => lastPages).cop0.index = 0 := by decide
  refine ⟨not_probeHit_lastPages, rfl, hp, by unfold Names; decide, fun h => ?_⟩
  exact absurd (hp.symm.trans (h.miss not_probeHit_lastPages)) (by decide)

end EeCore

end Orbum
