import Mathlib.Data.List.Forall2
import Mathlib.Tactic.Common

/-!
# Fallible computations

`Except` computations taken apart: what a bind that returns has passed through, what a computation
ensures of its result, and what two computations have in common that agree up to a relation on what
they return.
-/

namespace Orbum

variable {α β γ δ ε : Type}

theorem bind_eq_ok_iff {x : Except ε α} {f : α → Except ε β} {b : β} :
    x >>= f = .ok b ↔ ∃ a, x = .ok a ∧ f a = .ok b := by
  cases x with
  | error e => simp [bind, Except.bind]
  | ok a => simp [bind, Except.bind]

theorem bind_eq_error_iff {x : Except ε α} {f : α → Except ε β} {e : ε} :
    x >>= f = .error e ↔ x = .error e ∨ ∃ a, x = .ok a ∧ f a = .error e := by
  cases x with
  | error e' => simp [bind, Except.bind]
  | ok a => simp [bind, Except.bind]

@[simp] theorem ok_bind (a : α) (f : α → Except ε β) : Except.ok a >>= f = f a := rfl

@[simp] theorem error_bind (e : ε) (f : α → Except ε β) : Except.error e >>= f = .error e := rfl

@[simp] theorem pure_eq_ok (a : α) : (pure a : Except ε α) = .ok a := rfl

/-- A loop that collects results returns just what its rounds return. -/
theorem mapM_eq_ok_iff {f : α → Except ε β} {as : List α} {bs : List β} :
    as.mapM f = .ok bs ↔ List.Forall₂ (fun a b => f a = .ok b) as bs := by
  induction as generalizing bs with
  | nil =>
    rw [List.mapM_nil, pure_eq_ok, Except.ok.injEq, List.forall₂_nil_left_iff]
    exact eq_comm
  | cons a as ih =>
    rw [List.mapM_cons, bind_eq_ok_iff, List.forall₂_cons_left_iff]
    constructor
    · rintro ⟨b, hb, h⟩
      obtain ⟨bs', hbs', h⟩ := bind_eq_ok_iff.mp h
      exact ⟨b, bs', hb, ih.mp hbs', (Except.ok.inj h).symm⟩
    · rintro ⟨b, bs', hb, hbs', rfl⟩
      exact ⟨b, hb, bind_eq_ok_iff.mpr ⟨bs', ih.mpr hbs', rfl⟩⟩

/-- Whether the computation returns `a`. -/
instance decidableEqOk [DecidableEq α] (x : Except ε α) (a : α) : Decidable (x = .ok a) :=
  match x with
  | .ok b => decidable_of_iff (b = a) ⟨congrArg _, Except.ok.inj⟩
  | .error _ => isFalse nofun

/-- Whether the computation returns something with a property. -/
instance decidableExistsOk {P : α → Prop} [DecidablePred P] (x : Except ε α) : Decidable (∃ a, x = .ok a ∧ P a) :=
  match x with
  | .ok a => decidable_of_iff (P a) ⟨fun h => ⟨a, rfl, h⟩, fun ⟨_, ha, h⟩ => Except.ok.inj ha ▸ h⟩
  | .error _ => isFalse fun ⟨_, ha, _⟩ => nomatch ha

/-! ### What a computation ensures -/

/-- What the computation returns, if it returns, satisfies `P`. -/
def Ensures (P : α → Prop) (x : Except ε α) : Prop := ∀ a, x = .ok a → P a

namespace Ensures

variable {P P' : α → Prop} {Q : β → Prop} {x : Except ε α}

theorem ok {a : α} (h : P a) : Ensures P (.ok a : Except ε α) := by
  intro b hb
  obtain rfl := Except.ok.inj hb
  exact h

theorem error (e : ε) : Ensures P (.error e : Except ε α) := fun _ h => nomatch h

theorem trivial (x : Except ε α) : Ensures (fun _ => True) x := fun _ _ => True.intro

theorem mono (hx : Ensures P x) (h : ∀ a, P a → P' a) : Ensures P' x := fun a ha => h a (hx a ha)

theorem bind {f : α → Except ε β} (hx : Ensures P x) (hf : ∀ a, P a → Ensures Q (f a)) : Ensures Q (x >>= f) := by
  intro b hb
  obtain ⟨a, ha, hb⟩ := bind_eq_ok_iff.mp hb
  exact hf a (hx a ha) b hb

/-- A loop over a list keeps an invariant that each round keeps. -/
theorem foldlM {f : β → α → Except ε β} (hf : ∀ b a, Q b → Ensures Q (f b a)) (l : List α) {b : β} (hb : Q b) :
    Ensures Q (l.foldlM f b) := by
  induction l generalizing b with
  | nil => exact .ok hb
  | cons a l ih =>
    rw [List.foldlM_cons]
    exact (hf b a hb).bind fun b' hb' => ih hb'

end Ensures

/-! ### What a computation fails with -/

/-- The error, if the computation fails, satisfies `E`. -/
def Throws (E : ε → Prop) (x : Except ε α) : Prop := ∀ e, x = .error e → E e

namespace Throws

variable {E : ε → Prop} {x : Except ε α}

theorem ok (a : α) : Throws E (.ok a : Except ε α) := fun _ h => nomatch h

theorem error {e : ε} (h : E e) : Throws E (.error e : Except ε α) := by
  intro e' he'
  obtain rfl := Except.error.inj he'
  exact h

theorem bind {f : α → Except ε β} (hx : Throws E x) (hf : ∀ a, x = .ok a → Throws E (f a)) : Throws E (x >>= f) := by
  intro e he
  rcases bind_eq_error_iff.mp he with he | ⟨a, ha, he⟩
  · exact hx e he
  · exact hf a ha e he

theorem foldlM {f : β → α → Except ε β} (hf : ∀ b a, Throws E (f b a)) (l : List α) (b : β) :
    Throws E (l.foldlM f b) := by
  induction l generalizing b with
  | nil => exact ok b
  | cons a l ih =>
    rw [List.foldlM_cons]
    exact (hf b a).bind fun b' _ => ih b'

end Throws

/-! ### Two computations -/

/-- Both fail, alike, or both return, with what `R` relates. -/
inductive ExceptRel (R : α → β → Prop) : Except ε α → Except ε β → Prop where
  /-- Both fail. -/
  | error (e : ε) : ExceptRel R (.error e) (.error e)
  /-- Both return. -/
  | ok {a : α} {b : β} : R a b → ExceptRel R (.ok a) (.ok b)

namespace ExceptRel

variable {R : α → β → Prop} {S : γ → δ → Prop} {x : Except ε α} {y : Except ε β}

theorem refl {R : α → α → Prop} (h : ∀ a, R a a) (x : Except ε α) : ExceptRel R x x := by
  cases x with
  | error e => exact .error e
  | ok a => exact .ok (h a)

theorem bind {f : α → Except ε γ} {g : β → Except ε δ} (hxy : ExceptRel R x y)
    (hfg : ∀ a b, R a b → ExceptRel S (f a) (g b)) : ExceptRel S (x >>= f) (y >>= g) := by
  cases hxy with
  | error e => exact .error e
  | ok hab => exact hfg _ _ hab

end ExceptRel

end Orbum
