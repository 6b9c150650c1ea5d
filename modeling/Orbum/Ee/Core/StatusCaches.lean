import Orbum.Ee.Core.Interpreter.SystemControl
import Orbum.Lib.Run

/-!
# The values cached from `Status`

`EeCoreCop0Register_Status::write_uword` stores the value and then derives from it, one after the other, whether
interrupts are masked, the operating context and whether `Count` raises interrupts.

The second derivation throws for `KSU = 3` with `ERL` and `EXL` clear. By then the value is stored and the
other two derivations are not both made: `store` is the write with the register it leaves when it throws,
which `writeUword` forgets.
-/

namespace Orbum

namespace EeCoreCop0Status

/-! ### The write, throw included -/

/-- `handle_interrupts_masked_update()`. -/
def handleInterruptsMaskedUpdate (s : EeCoreCop0Status) : EeCoreCop0Status :=
  { s with interruptsMasked := maskedOf s.w }

/-- `handle_operating_context_update()`: what it threw, and the register it leaves. -/
def handleOperatingContextUpdate (s : EeCoreCop0Status) : Except HostError Unit × EeCoreCop0Status :=
  match contextOf s.w with
  | .ok operatingContext => (.ok (), { s with operatingContext })
  | .error e => (.error e, s)

/-- `handle_count_interrupt_state_update()`. -/
def handleCountInterruptStateUpdate (s : EeCoreCop0Status) : EeCoreCop0Status :=
  { s with countInterruptsEnabled := !s.interruptsMasked && s.w &&& 0x8000 != 0 }

/-- `write_uword(value)`: what it threw, and the register it leaves. -/
def store (s : EeCoreCop0Status) (value : Uword) : Except HostError Unit × EeCoreCop0Status :=
  match { s with w := value }.handleInterruptsMaskedUpdate.handleOperatingContextUpdate with
  | (.error e, s) => (.error e, s)
  | (.ok (), s) => (.ok (), s.handleCountInterruptStateUpdate)

/-- `writeUword` is `store` without the register that a throw leaves. -/
theorem writeUword_eq_store (s : EeCoreCop0Status) (value : Uword) :
    s.writeUword value = match s.store value with
      | (.error e, _) => .error e
      | (.ok (), s') => .ok s' := by
  simp only [store, writeUword, handleInterruptsMaskedUpdate, handleOperatingContextUpdate]
  cases contextOf value <;> rfl

/-- The value has an operating context: it is not `KSU = 3` with `ERL` and `EXL` clear. -/
def HasContext (value : Uword) : Prop := ¬(ksu.extractFrom value = 3 ∧ erl.extractFrom value = 0 ∧ exl.extractFrom value = 0)

instance (value : Uword) : Decidable (HasContext value) := inferInstanceAs (Decidable (¬_))

theorem contextOf_returns_iff (value : Uword) : (∃ context, contextOf value = .ok context) ↔ HasContext value := by
  simp only [contextOf, HasContext]
  rcases extractFrom_bit (f := exl) rfl value with he | he <;>
    rcases extractFrom_bit (f := erl) rfl value with hr | hr <;>
      rcases extractFrom_ksu value with hk | hk | hk | hk <;> simp [he, hr, hk]

/-- The write returns, and the register it leaves holds the value with all three caches up to date. -/
structure Stores (s : EeCoreCop0Status) (value : Uword) : Prop where
  /-- It does not throw. -/
  returns : (s.store value).1 = .ok ()
  /-- The value is stored. -/
  stored : (s.store value).2.w = value
  /-- The caches are those of the value. -/
  synced : (s.store value).2.Synced

theorem stores_iff (s : EeCoreCop0Status) (value : Uword) : Stores s value ↔ HasContext value := by
  rw [← contextOf_returns_iff]
  constructor
  · intro h
    have hcontext := h.synced.context
    rw [h.stored] at hcontext
    exact ⟨_, hcontext⟩
  · rintro ⟨context, hcontext⟩
    have hstore : s.store value = (.ok (), ⟨value, maskedOf value, context, countEnabledOf value⟩) := by
      simp only [store, handleInterruptsMaskedUpdate, handleOperatingContextUpdate, hcontext,
        handleCountInterruptStateUpdate, countEnabledOf]
    exact ⟨by rw [hstore], by rw [hstore], by rw [hstore]; exact ⟨rfl, hcontext, rfl⟩⟩

/-- A value without context is stored all the same, and the context and the count state stay what they were. -/
theorem store_of_not_hasContext (s : EeCoreCop0Status) {value : Uword} (h : ¬HasContext value) :
    ∃ e, s.store value = (.error e, { s with w := value, interruptsMasked := maskedOf value }) := by
  rw [← contextOf_returns_iff] at h
  cases hcontext : contextOf value with
  | ok context => exact absurd ⟨context, hcontext⟩ h
  | error e =>
    refine ⟨e, ?_⟩
    simp only [store, handleInterruptsMaskedUpdate, handleOperatingContextUpdate, hcontext]

/-! ### Who writes `Status` -/

/-- A call of `write_uword`. -/
inductive Write where
  /-- `write_uword(value)`. -/
  | word (value : Uword)
  /-- `insert_field(field, value)`. -/
  | field (f : Bitfield) (value : Uword)

/-- The value the call stores. -/
def Write.value (s : EeCoreCop0Status) : Write → Uword
  | word value => value
  | field f value => f.insertInto s.w value

/-- One call. -/
def Write.step (a : Write) (s : EeCoreCop0Status) : Except HostError EeCoreCop0Status := s.writeUword (a.value s)

/-- The instructions and exceptions that write `Status`. -/
inductive Writer where
  /-- `MTC0`. -/
  | mtc0 (value : Uword)
  /-- `handle_exception`. -/
  | exception (e : EeCoreException)
  /-- `ERET`. -/
  | eret
  /-- `DI`. -/
  | di
  /-- `EI`. -/
  | ei

/-- The calls a writer makes. -/
def Writer.writes (s : EeCoreCop0Status) : Writer → List Write
  | mtc0 value => [.word value]
  | exception e =>
    .field erl (if e.IsLevel2 then 1 else 0) ::
      if (e = .exReset ∨ e = .exNmi) ∨ s.extractField exl ≠ 0 then [] else [.field exl 1]
  | eret => [.field (if 0 < s.extractField erl then erl else exl) 0]
  | di => if EeCore.MayChangeEie s then [.field eie 0] else []
  | ei => if EeCore.MayChangeEie s then [.field eie 1] else []

/-- All calls of a writer. -/
def Writer.step (a : Writer) (s : EeCoreCop0Status) : Except HostError EeCoreCop0Status :=
  Run.run Write.step (a.writes s) s

/-- Each call of the writer stores its value and keeps the caches up to date. -/
def Writer.Stores (a : Writer) (s : EeCoreCop0Status) : Prop :=
  Run.Always Write.step (fun a s => EeCoreCop0Status.Stores s (a.value s)) (a.writes s) s

/-- Each value the writer stores has an operating context. -/
def Writer.HasContext (a : Writer) (s : EeCoreCop0Status) : Prop :=
  Run.Always Write.step (fun a s => EeCoreCop0Status.HasContext (a.value s)) (a.writes s) s

instance (a : Writer) (s : EeCoreCop0Status) : Decidable (a.HasContext s) :=
  inferInstanceAs (Decidable (Run.Always _ _ _ _))

/-! ### The writers are those of the core -/

theorem step_mtc0 (c : EeCoreCop0) (value : Uword) :
    (Writer.mtc0 value).step c.status = (c.writeRegister 12 value).map EeCoreCop0.status := by
  have hwrite : c.writeRegister 12 value = do return { c with status := ← c.status.writeUword value } := rfl
  have hstep : (Writer.mtc0 value).step c.status = c.status.writeUword value >>= .ok := rfl
  rw [hwrite, hstep]
  cases c.status.writeUword value <;> rfl

section Core

variable {σ : Type} (s : EeCore σ)

theorem step_eret : Writer.eret.step s.cop0.status = s.eret.map (·.state.cop0.status) := by
  simp only [Writer.step, Writer.writes, EeCore.eret, Run.run, Write.step, Write.value, insertField]
  split_ifs with herl
  · cases s.cop0.status.writeUword (erl.insertInto s.cop0.status.w 0) <;> rfl
  · cases s.cop0.status.writeUword (exl.insertInto s.cop0.status.w 0) <;> rfl

/-- `DI` and `EI`. -/
theorem run_setEie (value : Uword) :
    Run.run Write.step (if EeCore.MayChangeEie s.cop0.status then [.field eie value] else []) s.cop0.status =
      (s.setEie value).map (·.state.cop0.status) := by
  unfold EeCore.setEie
  split_ifs
  · simp only [Run.run, Write.step, Write.value, insertField]
    cases s.cop0.status.writeUword (eie.insertInto s.cop0.status.w value) <;> rfl
  · rfl

theorem step_di : Writer.di.step s.cop0.status = s.di.map (·.state.cop0.status) := run_setEie s 0

theorem step_ei : Writer.ei.step s.cop0.status = s.ei.map (·.state.cop0.status) := run_setEie s 1

theorem step_exception (e : EeCoreException) :
    (Writer.exception e).step s.cop0.status = (s.handleException e).map (·.cop0.status) := by
  unfold EeCore.handleException
  simp only [Writer.step, Writer.writes, Run.run, Write.step, Write.value]
  rw [← insertField]
  cases hst : s.cop0.status.insertField erl (if e.IsLevel2 then 1 else 0) with
  | error err => rfl
  | ok status =>
    have hexl : status.extractField exl = s.cop0.status.extractField exl := by
      rw [extractField, (synced_of_writeUword hst).2]
      exact extractFrom_insertInto_erl (by decide) _ _
    simp only [ok_bind, hexl]
    by_cases hreset : e = .exReset ∨ e = .exNmi
    · simp only [hreset, true_or, if_true]
      rfl
    · by_cases hset : s.cop0.status.extractField exl ≠ 0
      · rw [if_pos (Or.inr hset), if_neg hreset, if_pos hset]
        rfl
      · simp only [hreset, hset, or_self, if_false, Run.run, Write.step, Write.value]
        rw [← insertField]
        cases status.insertField exl 1 <;> rfl

end Core

/-! ### Every sequence of writers -/

/-- From the register as constructed, whatever is written and by whom: every write returns with the caches up to date
if and only if no value written is `KSU = 3` with `ERL` and `EXL` clear. -/
theorem status_caches_iff (writers : List Writer) :
    initial.Synced ∧ Run.Always Writer.step Writer.Stores writers initial ↔
      Run.Always Writer.step Writer.HasContext writers initial := by
  have hwriter (a : Writer) (s : EeCoreCop0Status) : a.Stores s ↔ a.HasContext s :=
    Run.always_congr (fun (a : Write) s => stores_iff s (a.value s)) (a.writes s) s
  rw [Run.always_congr hwriter]
  exact and_iff_right synced_initial

/-- `MTC0` of `KSU = 3` to the register as constructed throws, with the value stored and the context stale. -/
theorem status_caches_stale :
    ¬∀ writers : List Writer, initial.Synced ∧ Run.Always Writer.step Writer.Stores writers initial := by
  intro h
  exact absurd (h [.mtc0 0x18]).2.1.1.returns (by decide)

end EeCoreCop0Status

end Orbum
