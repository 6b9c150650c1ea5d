import Orbum.Iop.Core.UnalignedAccess

/-!
# The isolated cache

While `Status.ISC` is set, stores to the cached segments should go nowhere. The fallback refuses those to the low segment
and lets those to kseg0, which is the same memory, through.

In kernel mode the translation caches cannot be seen (`outcome_run`), so what an instruction does follows from the fallback
alone: `IopMicro.eval` is the instruction without caches.
-/

namespace Orbum

open EeCore IopCore

variable {σ : Type}

/-! ### Data instructions without caches -/

namespace IopMicro

/-- What a data instruction does where `τ` translates: the exception that it raises, if any, and the data that it leaves. -/
def eval (τ : Uptr → MmuRwAccess → Except HostError (Option Uptr)) :
    IopMicro σ → IopData σ → Except HostError (Option IopCoreException × IopData σ)
  | done d, _ => .ok (none, d)
  | fail e, _ => .error e
  | raise e, d => .ok (some e, d)
  | translate virtualAddress rwAccess next, d => do
    match ← τ virtualAddress rwAccess with
    | some physicalAddress => (next physicalAddress).eval τ d
    | none => .ok (none, d)
  | write d next, _ => next.eval τ d

end IopMicro

namespace IopCore

/-- The exception of a result and its data. -/
def outcome : IopResult σ → Option IopCoreException × IopData σ
  | .value s => (none, s.data)
  | .exception e s => (some e, s.data)

/-- Nobody sees the caches. -/
theorem outcome_run (m : IopMicro σ) {s : IopCore σ} (hs : s.Filled) (hk : s.cop0.status.operatingContext = .kernel) :
    (m.run s).map outcome = m.eval (translateAddressFallback s.cop0) s.data := by
  generalize hc : s.cop0 = c at hk
  generalize hd : s.data = d
  induction m generalizing s d with
  | done data => rfl
  | fail e => rfl
  | raise e =>
    subst hd
    rfl
  | translate va rwAccess next ih =>
    have hrel := translateAddressData_rel hs (hc ▸ hk) va rwAccess
    rw [IopMicro.run, IopMicro.eval, ← hc]
    generalize translateAddressFallback s.cop0 va rwAccess = x at hrel
    generalize s.translateAddressData va rwAccess = y at hrel
    cases hrel with
    | error e => rfl
    | @ok result r h =>
      obtain ⟨rfl, hdata, hcop0, hfilled⟩ := h
      obtain ⟨_ | pa, t⟩ := r
      · exact congrArg (fun d => Except.ok (none, d)) (hdata.trans hd)
      · rw [hc]
        exact ih pa hfilled (hcop0.trans hc) d (hdata.trans hd)
  | write data next ih => exact ih (s := s.setData data) (hs.congr fun id => by cases id <;> rfl) hc data rfl

/-! ### Without isolation -/

/-- The core with `Status.ISC` cleared. -/
def unisolated (s : IopCore σ) : IopCore σ :=
  s.setCop0 { s.cop0 with status := { s.cop0.status with w := IopCoreCop0Status.isc.insertInto s.cop0.status.w 0 } }

theorem not_isolating_unisolated (s : IopCore σ) : ¬Isolating s.unisolated.cop0 := by
  refine not_not.mpr ?_
  exact Bitfield.extractFrom_insertInto_self _ _ _ (by decide)

/-- Other than by its COP0, the result is that of `s`. -/
def withCop0 (c : IopCoreCop0) : IopResult σ → IopResult σ
  | .value s => .value (s.setCop0 c)
  | .exception e s => .exception e (s.setCop0 c)

/-- Reads do not depend on the isolation. -/
theorem fallback_read {c c' : IopCoreCop0} (h : c'.status.operatingContext = c.status.operatingContext) (va : Uptr) :
    translateAddressFallback c' va .read = translateAddressFallback c va .read := by
  unfold translateAddressFallback
  rw [h]
  simp only [reduceCtorEq, and_false, if_false]

theorem lookup_setCop0 {s : IopCore σ} {c : IopCoreCop0} (h : c.status.operatingContext = s.cop0.status.operatingContext)
    (id : MmuIdAccess) (va : Uptr) :
    (s.setCop0 c).lookup id va .read = (s.lookup id va .read).map fun r => (r.1, r.2.setCop0 c) := by
  have hcache : (s.setCop0 c).translationCache id = s.translationCache id := by cases id <;> rfl
  have hset (cache : CacheTy) : (s.setCop0 c).setTranslationCache id cache = (s.setTranslationCache id cache).setCop0 c := by
    cases id <;> rfl
  unfold lookup
  simp only [hcache, hset, setCop0_cop0, fallback_read h]
  split
  · rfl
  · cases translateAddressFallback s.cop0 (cacheKey va) .read with
    | error e => rfl
    | ok result => cases result <;> rfl

/-- An instruction that only reads. -/
def Reads : IopMicro σ → Prop
  | .translate _ rwAccess next => rwAccess = .read ∧ ∀ pa, Reads (next pa)
  | .write _ next => Reads next
  | _ => True

theorem run_setCop0 {m : IopMicro σ} (hm : Reads m) {s : IopCore σ} {c : IopCoreCop0}
    (h : c.status.operatingContext = s.cop0.status.operatingContext) :
    m.run (s.setCop0 c) = (m.run s).map (withCop0 c) := by
  induction m generalizing s with
  | done data => rfl
  | fail e => rfl
  | raise e => rfl
  | translate va rwAccess next ih =>
    obtain ⟨rfl, hnext⟩ := hm
    have hcop0 := data_lookup s .data va .read
    rw [IopMicro.run, IopMicro.run, translateAddressData_read, translateAddressData_read, lookup_setCop0 h]
    generalize s.lookup .data va .read = x at hcop0
    cases x with
    | error e => rfl
    | ok r =>
      obtain ⟨_ | pa, t⟩ := r
      · rfl
      · exact ih pa (hnext pa) (h.trans (congrArg (·.status.operatingContext) (hcop0 _ rfl).2.symm))
  | write data next ih => exact ih (s := s.setData data) hm h

theorem fetch_setCop0 (M : IopMachine σ) {s : IopCore σ} {c : IopCoreCop0}
    (h : c.status.operatingContext = s.cop0.status.operatingContext) :
    (s.setCop0 c).fetch M = (s.fetch M).map fun r => (r.1, r.2.setCop0 c) := by
  rw [fetch, fetch, translateAddressInst, translateAddressInst, setCop0_pc, lookup_setCop0 h]
  cases s.lookup .instruction s.pc .read with
  | error e => rfl
  | ok r =>
    obtain ⟨_ | pa, t⟩ := r
    · rfl
    · show (M.busRead 32 pa t.data.rest >>= _) = (M.busRead 32 pa t.data.rest >>= _).map _
      cases M.busRead 32 pa t.data.rest <;> rfl

end IopCore

/-! ### The instructions -/

/-- A load. -/
inductive LoadOp where
  /-- `LB`. -/
  | lb
  /-- `LBU`. -/
  | lbu
  /-- `LH`. -/
  | lh
  /-- `LHU`. -/
  | lhu
  /-- `LW`. -/
  | lw
  /-- `LWL`. -/
  | lwl
  /-- `LWR`. -/
  | lwr

/-- A store. -/
inductive StoreOp where
  /-- `SB`. -/
  | sb
  /-- `SH`. -/
  | sh
  /-- `SW`. -/
  | sw
  /-- `SWL`. -/
  | swl
  /-- `SWR`. -/
  | swr
  deriving DecidableEq

section

variable (M : IopMachine σ) (inst : IopCoreInstruction) (d : IopData σ)

/-- What it does. -/
def LoadOp.micro : LoadOp → IopMicro σ
  | lb => .lb M inst d
  | lbu => .lbu M inst d
  | lh => .lh M inst d
  | lhu => .lhu M inst d
  | lw => .lw M inst d
  | lwl => .lwl M inst d
  | lwr => .lwr M inst d

/-- What it does. -/
def StoreOp.micro : StoreOp → IopMicro σ
  | sb => .sb M inst d
  | sh => .sh M inst d
  | sw => .sw M inst d
  | swl => .swl M inst d
  | swr => .swr M inst d

/-- It reads the word first. -/
def StoreOp.Partial (k : StoreOp) : Prop := k = swl ∨ k = swr

instance (k : StoreOp) : Decidable k.Partial := inferInstanceAs (Decidable (_ ∨ _))

/-- The address that it has translated. -/
def StoreOp.unit (k : StoreOp) : Uptr :=
  if k.Partial then IopMicro.virtualAddress inst d &&& 0xFFFFFFFC else IopMicro.virtualAddress inst d

/-- What a store does before it writes: the word read. -/
def StoreOp.prior (k : StoreOp) (pa : Uptr) : Except HostError (Uword × IopData σ) :=
  if k.Partial then (M.busRead 32 pa d.rest).map fun r => (r.1, { d with rest := r.2 }) else .ok (0, d)

end

namespace IopCore

theorem reads_ofExcept {α : Type} (x : Except HostError α) {next : α → IopMicro σ} (h : ∀ a, Reads (next a)) :
    Reads (IopMicro.ofExcept x next) := by
  cases x with
  | error e => exact trivial
  | ok a => exact h a

theorem reads_load (M : IopMachine σ) (inst : IopCoreInstruction) (d : IopData σ) (w : ℕ) (extend : BitVec w → Uword) :
    Reads (IopMicro.load M inst d w extend) :=
  ⟨rfl, fun _ => reads_ofExcept _ fun _ => trivial⟩

theorem reads_loadPart (M : IopMachine σ) (inst : IopCoreInstruction) (d : IopData σ)
    (merge : ℕ → Uword → Uword → Uword) : Reads (IopMicro.loadPart M inst d merge) :=
  ⟨rfl, fun _ => reads_ofExcept _ fun _ => trivial⟩

theorem reads_micro (l : LoadOp) (M : IopMachine σ) (inst : IopCoreInstruction) (d : IopData σ) :
    Reads (l.micro M inst d) := by
  cases l with
  | lb => exact reads_load M inst d _ _
  | lbu => exact reads_load M inst d _ _
  | lh => exact reads_load M inst d _ _
  | lhu => exact reads_load M inst d _ _
  | lw => exact reads_load M inst d _ _
  | lwl =>
    show Reads (IopMicro.lwl M inst d)
    exact reads_loadPart M inst d _
  | lwr =>
    show Reads (IopMicro.lwr M inst d)
    exact reads_loadPart M inst d _

/-- An instruction that raises no exception. -/
def Quiet : IopMicro σ → Prop
  | .raise _ => False
  | .translate _ _ next => ∀ pa, Quiet (next pa)
  | .write _ next => Quiet next
  | _ => True

theorem Quiet.run {m : IopMicro σ} (hm : Quiet m) (s : IopCore σ) :
    Ensures (fun r => ∃ t, r = .value t) (m.run s) := by
  induction m generalizing s with
  | done data => exact .ok ⟨_, rfl⟩
  | fail e => exact .error e
  | raise e => exact hm.elim
  | translate va rwAccess next ih =>
    rw [IopMicro.run]
    refine (Ensures.trivial _).bind fun r _ => ?_
    obtain ⟨_ | pa, t⟩ := r
    · exact .ok ⟨t, rfl⟩
    · exact ih pa (hm pa) t
  | write data next ih => exact ih hm (s.setData data)

theorem quiet_ofExcept {α : Type} (x : Except HostError α) {next : α → IopMicro σ} (h : ∀ a, Quiet (next a)) :
    Quiet (IopMicro.ofExcept x next) := by
  cases x with
  | error e => exact trivial
  | ok a => exact h a

theorem quiet_store (M : IopMachine σ) (inst : IopCoreInstruction) (d : IopData σ) {w : ℕ} (value : BitVec w) :
    Quiet (IopMicro.store M inst d w value) :=
  fun _ => quiet_ofExcept _ fun _ => trivial

theorem quiet_storeSide (M : IopMachine σ) (inst : IopCoreInstruction) (d : IopData σ) (side : Side) :
    Quiet (IopMicro.storeSide M inst d side) := by
  rw [IopMicro.storeSide_eq]
  exact fun _ => quiet_ofExcept _ fun _ _ => quiet_ofExcept _ fun _ => trivial

theorem quiet_micro (k : StoreOp) (M : IopMachine σ) (inst : IopCoreInstruction) (d : IopData σ) :
    Quiet (k.micro M inst d) := by
  cases k with
  | sb => exact quiet_store M inst d _
  | sh => exact quiet_store M inst d _
  | sw => exact quiet_store M inst d _
  | swl => exact quiet_storeSide M inst d .left
  | swr => exact quiet_storeSide M inst d .right

/-! ### The law -/

/-- The cached segments. -/
def Cached (va : Uptr) : Prop := va ≤ 0x001FFFFF ∨ 0x80000000 ≤ va ∧ va ≤ 0x9FFFFFFF

/-- The segment of the cached ones that is in kernel space. -/
def Kseg0 (va : Uptr) : Prop := 0x80000000 ≤ va ∧ va ≤ 0x9FFFFFFF

instance (va : Uptr) : Decidable (Kseg0 va) := inferInstanceAs (Decidable (_ ∧ _))

/-- The segment that is not cached. -/
def Kseg1 (va : Uptr) : Prop := 0xA0000000 ≤ va ∧ va ≤ 0xBFFFFFFF

/-- Every address is where its segment says. -/
def straight (va : Uptr) (_ : MmuRwAccess) : Except HostError (Option Uptr) := .ok (segment va)

/-- The store reaches the memory behind its address. -/
def Performed (M : IopMachine σ) (k : StoreOp) (inst : IopCoreInstruction) (s : IopCore σ) : Prop :=
  ((k.micro M inst s.data).run s).map outcome = (k.micro M inst s.data).eval straight s.data

/-- What a store does while the cache is isolated, and what loads and fetches do. -/
structure IsolationLaw (M : IopMachine σ) (k : StoreOp) (inst : IopCoreInstruction) (s : IopCore σ) : Prop where
  /-- A store to a cached segment does not write to the bus: what writes do there makes no difference. -/
  noWrite : Cached (IopMicro.virtualAddress inst s.data) → ∀ busWrite,
    (k.micro { M with busWrite } inst s.data).run s = (k.micro M inst s.data).run s
  /-- It raises no exception. -/
  noException : ∀ e t, (k.micro M inst s.data).run s ≠ .ok (.exception e t)
  /-- A store to the segment that is not cached is made. -/
  uncached : Kseg1 (IopMicro.virtualAddress inst s.data) → Performed M k inst s
  /-- Loads do what they do without isolation. -/
  load : ∀ (l : LoadOp) (inst' : IopCoreInstruction), (l.micro M inst' s.data).run s =
    ((l.micro M inst' s.data).run s.unisolated).map (withCop0 s.cop0)
  /-- So do fetches. -/
  fetch : s.fetch M = (s.unisolated.fetch M).map fun r => (r.1, r.2.setCop0 s.cop0)
  /-- Once the cache is not isolated any more, whatever the core has done in between, the next store to the address is
  made. -/
  afterwards : ∀ t, (k.micro M inst s.data).run s = .ok (.value t) → ∀ evs u, Run.run Event.step evs t = .ok u →
    u.cop0.status.operatingContext = .kernel → ¬Isolating u.cop0 → ∀ k' inst',
    IopMicro.virtualAddress inst' u.data = IopMicro.virtualAddress inst s.data →
    segment (IopMicro.virtualAddress inst s.data) ≠ none → Performed M k' inst' u


/-! ### What stores do without caches -/

section Eval

variable (M : IopMachine σ) (inst : IopCoreInstruction) (d : IopData σ)
  {τ τ' : Uptr → MmuRwAccess → Except HostError (Option Uptr)}

theorem eval_busWrite (w : ℕ) (pa : Uptr) (value : BitVec w) (d' : IopData σ) :
    (IopMicro.busWrite M d w pa value).eval τ d' =
      (M.busWrite w pa value d.rest).map fun rest => (none, { d with rest }) := by
  unfold IopMicro.busWrite
  cases M.busWrite w pa value d.rest <;> rfl

theorem eval_busRead (w : ℕ) (pa : Uptr) (next : BitVec w → IopData σ → IopMicro σ) :
    (IopMicro.busRead M d w pa next).eval τ d = M.busRead w pa d.rest >>= fun r =>
      (next r.1 { d with rest := r.2 }).eval τ { d with rest := r.2 } := by
  unfold IopMicro.busRead
  cases M.busRead w pa d.rest <;> rfl

theorem eval_store {w : ℕ} {pa : Uptr} (value : BitVec w)
    (h : τ (IopMicro.virtualAddress inst d) .write = .ok (some pa)) :
    (IopMicro.store M inst d w value).eval τ d = (M.busWrite w pa value d.rest).map fun rest => (none, { d with rest }) := by
  rw [IopMicro.store, IopMicro.eval, h]
  exact eval_busWrite M d w pa value d

theorem eval_storeSide (side : Side) {pa : Uptr}
    (h : ∀ rwAccess, τ (IopMicro.virtualAddress inst d &&& 0xFFFFFFFC) rwAccess = .ok (some pa))
    (busWrite : (w : ℕ) → Uptr → BitVec w → σ → Except HostError σ) :
    (IopMicro.storeSide { M with busWrite } inst d side).eval τ d =
      (M.busRead 32 pa d.rest).map (fun r => (r.1, { d with rest := r.2 })) >>= fun r =>
        (busWrite 32 pa (side.storeMerge ((IopMicro.virtualAddress inst d &&& 3) <<< 3).toNat (d.gpr inst.rt) r.1)
          r.2.rest).map fun rest => (none, { r.2 with rest }) := by
  rw [IopMicro.storeSide_eq, IopMicro.storePart, IopMicro.eval, h, ok_bind]
  refine (eval_busRead { M with busWrite } d 32 pa _).trans ?_
  show M.busRead 32 pa d.rest >>= _ = _
  cases M.busRead 32 pa d.rest with
  | error e => rfl
  | ok r =>
    rw [ok_bind, IopMicro.eval, h, ok_bind]
    exact eval_busWrite { M with busWrite } _ 32 pa _ _

/-- Where it finds its address, a store writes to the bus after that. -/
theorem eval_found (k : StoreOp) (pa : Uptr) : ∃ (w : ℕ) (value : Uword → BitVec w), ∀ τ,
    (∀ rwAccess, τ (k.unit inst d) rwAccess = .ok (some pa)) → ∀ busWrite,
      (k.micro { M with busWrite } inst d).eval τ d = k.prior M d pa >>= fun r =>
        (busWrite w pa (value r.1) r.2.rest).map fun rest => (none, { r.2 with rest }) := by
  cases k with
  | sb => exact ⟨8, fun _ => _, fun τ h bw => eval_store { M with busWrite := bw } inst d _ (h .write)⟩
  | sh => exact ⟨16, fun _ => _, fun τ h bw => eval_store { M with busWrite := bw } inst d _ (h .write)⟩
  | sw => exact ⟨32, fun _ => _, fun τ h bw => eval_store { M with busWrite := bw } inst d _ (h .write)⟩
  | swl => exact ⟨32, _, fun τ h bw => eval_storeSide M inst d .left h bw⟩
  | swr => exact ⟨32, _, fun τ h bw => eval_storeSide M inst d .right h bw⟩

end Eval

/-! ### Where the law holds -/

section Law

variable {M : IopMachine σ} {k : StoreOp} {inst : IopCoreInstruction} {s : IopCore σ} {pa : Uptr}

/-- The address translated is in the word of the address. -/
theorem unit_word (k : StoreOp) (inst : IopCoreInstruction) (d : IopData σ) :
    (k.unit inst d).toNat / 4 = (IopMicro.virtualAddress inst d).toNat / 4 := by
  unfold StoreOp.unit
  split_ifs
  · have halign : (IopMicro.virtualAddress inst d &&& 0xFFFFFFFC).toNat = _ :=
      Size.word.toNat_and_not_alignment (IopMicro.virtualAddress inst d)
    rw [halign, Size.bytes]
    omega
  · rfl

/-- In kernel mode an address that is not refused is where its segment says. -/
theorem fallback_unit (hk : s.cop0.status.operatingContext = .kernel) (hu : segment (k.unit inst s.data) = some pa)
    (hr : ¬Refused s.cop0 (k.unit inst s.data) .write) (rwAccess : MmuRwAccess) :
    translateAddressFallback s.cop0 (k.unit inst s.data) rwAccess = .ok (some pa) := by
  refine fallback_of_segment hk hu fun h => hr ?_
  obtain ⟨hi, rfl, hlow⟩ := h
  exact ⟨hi, rfl, hlow⟩

theorem performed_of_segment (hs : s.Filled) (hk : s.cop0.status.operatingContext = .kernel)
    (ha : segment (IopMicro.virtualAddress inst s.data) ≠ none) (hr : ¬Refused s.cop0 (k.unit inst s.data) .write) :
    Performed M k inst s := by
  obtain ⟨pa, hpa⟩ := Option.ne_none_iff_exists'.mp ha
  obtain ⟨pa', hu, -, -⟩ := segment_word hpa (unit_word k inst s.data)
  obtain ⟨w, value, heval⟩ := eval_found M inst s.data k pa'
  rw [Performed, outcome_run _ hs hk]
  exact (heval _ (fallback_unit hk hu hr) M.busWrite).trans
    (heval straight (fun _ => congrArg Except.ok hu) M.busWrite).symm

theorem performed_of_kseg1 (hs : s.Filled) (hk : s.cop0.status.operatingContext = .kernel)
    (ha : Kseg1 (IopMicro.virtualAddress inst s.data)) : Performed M k inst s := by
  obtain ⟨hlower, hupper⟩ := ha
  have hword := unit_word k inst s.data
  refine performed_of_segment hs hk ?_ fun hr => ?_
  · rw [segment, if_neg (by bv_omega), if_pos ⟨hlower, hupper⟩]
    exact Option.some_ne_none _
  · obtain ⟨-, -, hlow⟩ := hr
    bv_omega

/-- What a partial store writes to the bus does not matter if it is refused whenever it has read its word. -/
theorem run_storeSide_congr (side : Side)
    (h : ∀ pa t r, s.translateAddressData (IopMicro.virtualAddress inst s.data &&& 0xFFFFFFFC) .read = .ok (some pa, t) →
      M.busRead 32 pa s.data.rest = .ok r →
        translateAddressFallback s.cop0 (IopMicro.virtualAddress inst s.data &&& 0xFFFFFFFC) .write = .ok none)
    (hi : Isolating s.cop0) (busWrite : (w : ℕ) → Uptr → BitVec w → σ → Except HostError σ) :
    (IopMicro.storeSide { M with busWrite } inst s.data side).run s = (IopMicro.storeSide M inst s.data side).run s := by
  have hkept := data_translateAddressData s (IopMicro.virtualAddress inst s.data &&& 0xFFFFFFFC) .read
  simp only [IopMicro.storeSide_eq, IopMicro.storePart, IopMicro.run]
  cases hx : s.translateAddressData (IopMicro.virtualAddress inst s.data &&& 0xFFFFFFFC) .read with
  | error e => rfl
  | ok r =>
    obtain ⟨_ | pa, t⟩ := r
    · rfl
    have hi' (d : IopData σ) : Isolating (t.setData d).cop0 := by rwa [setData_cop0, (hkept _ hx).2]
    simp only [ok_bind, IopMicro.busRead]
    cases hread : M.busRead 32 pa s.data.rest with
    | error e => rfl
    | ok r =>
      have hnone := h pa t r hx hread
      rw [← (hkept _ hx).2] at hnone
      have hrefused (d : IopData σ) (next : Uptr → IopMicro σ) :
          (IopMicro.translate (IopMicro.virtualAddress inst s.data &&& 0xFFFFFFFC) .write next).run (t.setData d) =
            .ok (.value (t.setData d)) := by
        rw [run_translate_of_isolating (hi' d), setData_cop0, hnone]
        rfl
      exact (hrefused _ _).trans (hrefused _ _).symm

theorem run_store_of_refused {w : ℕ} (value : BitVec w) (hi : Isolating s.cop0)
    (h : translateAddressFallback s.cop0 (IopMicro.virtualAddress inst s.data) .write = .ok none) :
    (IopMicro.store M inst s.data w value).run s = .ok (.value s) := by
  rw [IopMicro.store, run_translate_of_isolating hi, h]
  rfl

/-- A `SWL` or `SWR` does not come to its write, the bus having no word to be read. -/
def Stops (M : IopMachine σ) (k : StoreOp) (inst : IopCoreInstruction) (s : IopCore σ) : Prop :=
  k.Partial ∧ ∃ pa e, segment (k.unit inst s.data) = some pa ∧ M.busRead 32 pa s.data.rest = .error e

theorem read_answer (hs : s.Filled) (hk : s.cop0.status.operatingContext = .kernel) {va pa pa' : Uptr} {t : IopCore σ}
    (h : segment va = some pa') (hx : s.translateAddressData va .read = .ok (some pa, t)) : pa = pa' := by
  have hrel := translateAddressData_rel hs hk va .read
  rw [fallback_of_segment hk h fun hr => absurd hr.2.1 (by decide), hx] at hrel
  cases hrel with
  | ok h => exact Option.some.inj h.1

/-- A store to the low segment, or one that stops, does not write. -/
theorem run_of_notWritten (hs : s.Filled) (hk : s.cop0.status.operatingContext = .kernel) (hi : Isolating s.cop0)
    (h : IopMicro.virtualAddress inst s.data ≤ 0x001FFFFF ∨ Stops M k inst s)
    (busWrite : (w : ℕ) → Uptr → BitVec w → σ → Except HostError σ) :
    (k.micro { M with busWrite } inst s.data).run s = (k.micro M inst s.data).run s := by
  have hnone (h : k.unit inst s.data ≤ 0x001FFFFF) :
      translateAddressFallback s.cop0 (k.unit inst s.data) .write = .ok none := fallback_of_refused hk ⟨hi, rfl, h⟩
  have hword := unit_word k inst s.data
  have hlow (h : IopMicro.virtualAddress inst s.data ≤ 0x001FFFFF) : k.unit inst s.data ≤ 0x001FFFFF := by bv_omega
  have hwhole (hk' : ¬k.Partial) {w : ℕ} (value : BitVec w) :
      (IopMicro.store { M with busWrite } inst s.data w value).run s = (IopMicro.store M inst s.data w value).run s := by
    have ha := h.resolve_right fun hstops => hk' hstops.1
    have hunit : k.unit inst s.data = IopMicro.virtualAddress inst s.data := if_neg hk'
    have hrefused := hunit ▸ hnone (hlow ha)
    rw [run_store_of_refused value hi hrefused, run_store_of_refused value hi hrefused]
  have hpart (hk' : k.Partial) (side : Side) : (IopMicro.storeSide { M with busWrite } inst s.data side).run s =
      (IopMicro.storeSide M inst s.data side).run s := by
    have hunit : k.unit inst s.data = IopMicro.virtualAddress inst s.data &&& 0xFFFFFFFC := if_pos hk'
    rw [hunit] at hnone hlow
    refine run_storeSide_congr side (fun pa t r hx hread => ?_) hi busWrite
    rcases h with ha | ⟨-, pa', e, hpa', herror⟩
    · exact hnone (hlow ha)
    · rw [hunit] at hpa'
      rw [read_answer hs hk hpa' hx, herror] at hread
      cases hread
  cases k with
  | sb => exact hwhole (by decide) _
  | sh => exact hwhole (by decide) _
  | sw => exact hwhole (by decide) _
  | swl => exact hpart (by decide) .left
  | swr => exact hpart (by decide) .right

/-- The write of a store that gets that far is seen. -/
theorem written_of_kseg0 (hs : s.Filled) (hk : s.cop0.status.operatingContext = .kernel)
    (ha : Kseg0 (IopMicro.virtualAddress inst s.data)) (hstops : ¬Stops M k inst s) :
    ∃ busWrite : (w : ℕ) → Uptr → BitVec w → σ → Except HostError σ,
      (k.micro { M with busWrite } inst s.data).run s ≠ (k.micro M inst s.data).run s := by
  have hseg : segment (IopMicro.virtualAddress inst s.data) = some _ := if_pos ha
  obtain ⟨pa, hu, -, -⟩ := segment_word hseg (unit_word k inst s.data)
  have hr : ¬Refused s.cop0 (k.unit inst s.data) .write := by
    rintro ⟨-, -, hlow⟩
    have hword := unit_word k inst s.data
    obtain ⟨h0, -⟩ := ha
    bv_omega
  obtain ⟨w, value, heval⟩ := eval_found M inst s.data k pa
  have hfound := heval _ (fallback_unit hk hu hr)
  have hprior : ∃ r, k.prior M s.data pa = .ok r := by
    unfold StoreOp.prior
    split_ifs with hk'
    · cases hread : M.busRead 32 pa s.data.rest with
      | error e => exact absurd ⟨hk', pa, e, hu, hread⟩ hstops
      | ok r => exact ⟨_, rfl⟩
    · exact ⟨_, rfl⟩
  obtain ⟨r, hr⟩ := hprior
  -- A bus that fails and one that does nothing are told apart.
  by_contra hall
  have hsame (bw) : ((k.micro { M with busWrite := bw } inst s.data).run s).map outcome =
      ((k.micro M inst s.data).run s).map outcome :=
    congrArg (Except.map outcome) (not_not.mp fun hne => hall ⟨bw, hne⟩)
  have hfail := (outcome_run _ hs hk).symm.trans (hsame fun _ _ _ _ => .error .nullPointer)
  have hskip := (outcome_run _ hs hk).symm.trans (hsame fun _ _ _ rest => .ok rest)
  rw [hfound, hr] at hfail hskip
  cases hfail.trans hskip.symm

/-- The law holds but for stores to kseg0, whatever the core has done before. -/
theorem isolation_iff {σ : Type} (M : IopMachine σ) {evs : List (Event σ)} {s₀ s : IopCore σ}
    (hrun : Run.run Event.step evs s₀.flush = .ok s) (hk : s.cop0.status.operatingContext = .kernel)
    (hi : Isolating s.cop0) (k : StoreOp) (inst : IopCoreInstruction) :
    IsolationLaw M k inst s ↔ ¬Kseg0 (IopMicro.virtualAddress inst s.data) ∨ Stops M k inst s := by
  have hs := filled_of_run (filled_flush s₀) hrun
  constructor
  · intro hlaw
    by_contra h
    obtain ⟨ha, hstops⟩ := not_or.mp h
    obtain ⟨busWrite, hne⟩ := written_of_kseg0 hs hk (not_not.mp ha) hstops
    exact hne (hlaw.noWrite (.inr (not_not.mp ha)) busWrite)
  · intro h
    refine ⟨fun hc => run_of_notWritten hs hk hi ?_, fun e t => ?_, fun h1 => ?_, fun l inst' => ?_, ?_, ?_⟩
    · exact hc.imp id fun h0 => h.resolve_left (not_not.mpr h0)
    · intro hrun
      obtain ⟨u, hu⟩ := (quiet_micro k M inst s.data).run s _ hrun
      cases hu
    · exact performed_of_kseg1 hs hk h1
    · exact run_setCop0 (reads_micro l M inst' s.data) (s := s.unisolated) rfl
    · exact fetch_setCop0 M (s := s.unisolated) rfl
    · intro t ht evs' u hu hku hiu k' inst' haddr hseg
      have htfilled : t.Filled := (k.micro M inst s.data).run_filled hs _ ht
      refine performed_of_segment (filled_of_run htfilled hu) hku ?_ fun hr => hiu hr.1
      rwa [haddr]

end Law

/-- `MTC0` of `0x10000` to `Status`. -/
def isolatedIop : IopCore Memory :=
  let s := (unalignedIop 0 0x10000).flush
  s.setCop0 { s.cop0 with status := ⟨0x10000, true, .kernel⟩ }

/-- `SW` to `0x10000` after it. -/
theorem isolation_iff_sw : IsolationLaw iopRamMachine.overRam .sw ⟨0xAD280000⟩ isolatedIop := by
  have hrun : Run.run Event.step [.operation (.mtc0 9 12)] (unalignedIop 0 0x10000).flush = .ok isolatedIop := rfl
  have hnot : ¬Kseg0 (IopMicro.virtualAddress ⟨0xAD280000⟩ isolatedIop.data) := by decide
  exact (isolation_iff iopRamMachine.overRam hrun rfl (by decide) .sw ⟨0xAD280000⟩).mpr (.inl hnot)

/-- `SW` to `0x80001000` with the cache isolated writes to the memory. -/
theorem not_isolationLaw_kseg0 :
    Isolating (unalignedIop 0x10000 0x80001000).cop0 ∧
    ¬IsolationLaw iopRamMachine.overRam .sw ⟨0xAD280000⟩ (unalignedIop 0x10000 0x80001000) ∧
    ∃ t, (IopMicro.sw iopRamMachine.overRam ⟨0xAD280000⟩ (unalignedIop 0x10000 0x80001000).data).run
        (unalignedIop 0x10000 0x80001000) = .ok (.value t) ∧ t.data.rest.byte 0x1000 = 0x11 := by
  have ha : Kseg0 (IopMicro.virtualAddress ⟨0xAD280000⟩ (unalignedIop 0x10000 0x80001000).data) := by decide
  refine ⟨by decide, fun hlaw => ?_, ?_⟩
  · obtain ⟨busWrite, hne⟩ := written_of_kseg0 (M := iopRamMachine.overRam) (k := .sw)
      (filled_unalignedIop 0x10000 0x80001000) rfl ha fun hstops => absurd hstops.1 (by decide)
    exact hne (hlaw.noWrite (.inr ha) busWrite)
  · have hi : Isolating (unalignedIop 0x10000 0x80001000).cop0 := by decide
    have hfallback : translateAddressFallback (unalignedIop 0x10000 0x80001000).cop0 0x80001000 .write = .ok (some 0x1000) :=
      rfl
    have hmapped : (unalignedIop 0x10000 0x80001000).data.rest.isMapped 0x1000 4 := by decide
    have haddr : IopMicro.virtualAddress ⟨0xAD280000⟩ (unalignedIop 0x10000 0x80001000).data = 0x80001000 := by decide
    have hrun := IopMicro.run_busWrite (s := unalignedIop 0x10000 0x80001000) iopRamMachine hmapped 0x44332211
    refine ⟨_, Eq.trans ?_ hrun, byte_store_word (unalignedIop 0x10000 0x80001000).data.rest 0x1000 0x44332211⟩
    rw [IopMicro.sw, IopMicro.store, haddr, run_translate_of_isolating hi, hfallback]
    rfl

end IopCore

end Orbum
