import Orbum.Common.WordRegister

/-!
# Classes of channel control registers

What the classes derived from the CHCR of the EE and of the IOP do beyond a write of the register: `_To` and `_From` set
the direction, bit 0, and those of the SIF update SBUS_F240 on a transfer that starts towards the FIFO or ends away from
it.
-/

namespace Orbum

/-- What a class of CHCR does besides. -/
structure ChcrClass where
  /-- The direction it sets, if any. -/
  direction : Option Bool
  /-- The bit of SBUS_F240 that a start sets. -/
  start : Option ℕ
  /-- The bits of SBUS_F240 that a finish clears. -/
  finish : Option (ℕ × ℕ)

namespace ChcrClass

variable (cls : ChcrClass) (value f240 : Uword)

/-- A class that only writes the register. -/
def base : ChcrClass := ⟨none, none, none⟩

/-- The value with the direction of the class. -/
def force : Uword :=
  match cls.direction with
  | none => value
  | some true => value ||| 1
  | some false => value &&& ~~~1

/-- `handle_sbus_update_start()`, of a class that has it. -/
def sbusUpdateStart : Uword :=
  match cls.start with
  | none => f240
  | some n => f240 ||| BitVec.twoPow 32 n

/-- `handle_sbus_update_finish()`, of a class that has it. -/
def sbusUpdateFinish : Uword :=
  match cls.finish with
  | none => f240
  | some (a, b) => (f240 &&& ~~~BitVec.twoPow 32 a) &&& ~~~BitVec.twoPow 32 b

/-- SBUS_F240 after the register has been written, the channel being started or not and the direction being `TO` (`towards`) or not. -/
def sbusUpdate (started towards : Bool) : Uword :=
  if started ∧ towards then cls.sbusUpdateStart f240
  else if ¬started ∧ ¬towards then cls.sbusUpdateFinish f240
  else f240

/-- The class has nothing to do when `value` is written: the direction is right, and the bits of SBUS_F240 are. -/
structure Plain (started : Bool) : Prop where
  /-- The direction. -/
  direction : ∀ d, cls.direction = some d → value.getLsbD 0 = d
  /-- The bit a start sets. -/
  start : started = true → value.getLsbD 0 = true → ∀ n, cls.start = some n → f240.getLsbD n = true
  /-- The bits a finish clears. -/
  finish : started = false → value.getLsbD 0 = false → ∀ a b, cls.finish = some (a, b) →
    f240.getLsbD a = false ∧ f240.getLsbD b = false

/-- The bits exist. -/
structure Wf : Prop where
  /-- The bit a start sets. -/
  start : ∀ n, cls.start = some n → n < 32
  /-- The bits a finish clears. -/
  finish : ∀ a b, cls.finish = some (a, b) → a < 32 ∧ b < 32

variable {cls value f240}

theorem getLsbD_force {i : ℕ} (hi : i ≠ 0) : (cls.force value).getLsbD i = value.getLsbD i := by
  have hone : (1 : Uword).getLsbD i = false := by
    rw [show (1 : Uword) = BitVec.twoPow 32 0 from rfl, BitVec.getLsbD_twoPow]
    simp [Ne.symm hi]
  unfold force
  split
  · rfl
  · rw [BitVec.getLsbD_or, hone, Bool.or_false]
  · by_cases h32 : i < 32
    · rw [BitVec.getLsbD_and, BitVec.getLsbD_not, hone]
      simp [h32]
    · rw [BitVec.getLsbD_of_ge _ _ (by omega), BitVec.getLsbD_of_ge _ _ (by omega)]

theorem force_eq_self_iff : cls.force value = value ↔ ∀ d, cls.direction = some d → value.getLsbD 0 = d := by
  have hone : (1 : Uword) = BitVec.twoPow 32 0 := rfl
  unfold force
  split
  · rename_i h
    simp [h]
  · rename_i h
    rw [hone, or_twoPow_eq_self_iff (by decide), h]
    simp
  · rename_i h
    rw [hone, and_not_twoPow_eq_self_iff (by decide), h]
    simp

theorem sbusUpdateStart_eq_self_iff (h : cls.Wf) :
    cls.sbusUpdateStart f240 = f240 ↔ ∀ n, cls.start = some n → f240.getLsbD n = true := by
  unfold sbusUpdateStart
  split
  · rename_i hn
    simp [hn]
  · rename_i n hn
    rw [or_twoPow_eq_self_iff (h.start n hn), hn]
    simp

theorem sbusUpdateFinish_eq_self_iff (h : cls.Wf) : cls.sbusUpdateFinish f240 = f240 ↔
    ∀ a b, cls.finish = some (a, b) → f240.getLsbD a = false ∧ f240.getLsbD b = false := by
  unfold sbusUpdateFinish
  split
  · rename_i hn
    simp [hn]
  · rename_i a b hab
    obtain ⟨ha, hb⟩ := h.finish a b hab
    have hboth : f240 &&& ~~~BitVec.twoPow 32 a &&& ~~~BitVec.twoPow 32 b = f240 ↔
        f240.getLsbD a = false ∧ f240.getLsbD b = false := by
      constructor
      · intro h
        constructor
        · rw [← h]
          simp [ha]
        · rw [← h]
          simp [hb]
      · rintro ⟨hfa, hfb⟩
        rw [(and_not_twoPow_eq_self_iff ha f240).mpr hfa, (and_not_twoPow_eq_self_iff hb f240).mpr hfb]
    rw [hboth, hab]
    simp

/-- A write of a word that the class has nothing to do for. -/
theorem plain_iff (h : cls.Wf) (value f240 : Uword) (started : Bool) : cls.Plain value f240 started ↔
    cls.force value = value ∧ cls.sbusUpdate f240 started (value.getLsbD 0) = f240 := by
  have hupdate : cls.sbusUpdate f240 started (value.getLsbD 0) = f240 ↔
      (started = true → value.getLsbD 0 = true → cls.sbusUpdateStart f240 = f240) ∧
        (started = false → value.getLsbD 0 = false → cls.sbusUpdateFinish f240 = f240) := by
    unfold sbusUpdate
    cases started <;> cases value.getLsbD 0 <;> simp
  rw [force_eq_self_iff, hupdate, sbusUpdateStart_eq_self_iff h, sbusUpdateFinish_eq_self_iff h]
  exact ⟨fun hp => ⟨hp.direction, hp.start, hp.finish⟩, fun ⟨hd, hs, hf⟩ => ⟨hd, hs, hf⟩⟩

end ChcrClass

end Orbum
