import Orbum.Lib.Run

/-!
# Latches

A value that each operation either writes or leaves alone: `touch a` is what operation `a` writes. After a list of
operations it is what the last of those wrote that writes at all.

A run of a system keeps such a value if each step does (`last_run`), so that a register is known from what has been done
to it and not from the states in between.
-/

namespace Orbum.Latch

variable {α β : Type} (touch : α → Option β)

/-- The value after a list of operations. -/
def last (init : β) (as : List α) : β := as.foldl (fun value a => (touch a).getD value) init

variable {touch} {init : β} {a : α} {as bs : List α}

@[simp] theorem last_nil : last touch init [] = init := rfl

theorem last_cons : last touch init (a :: as) = last touch ((touch a).getD init) as := rfl

theorem last_append : last touch init (as ++ bs) = last touch (last touch init as) bs := List.foldl_append

/-- Where nothing writes another value, the value is the first one. -/
theorem last_eq_init (h : ∀ a ∈ as, (touch a).getD init = init) : last touch init as = init := by
  induction as with
  | nil => rfl
  | cons a as ih =>
    rw [last_cons, h a List.mem_cons_self]
    exact ih fun b hb => h b (List.mem_cons_of_mem a hb)

/-- Operations that do not write may be left out. -/
theorem last_filter {p : α → Bool} (h : ∀ a ∈ as, p a = false → touch a = none) :
    last touch init (as.filter p) = last touch init as := by
  induction as generalizing init with
  | nil => rfl
  | cons a as ih =>
    have ih := @ih ((touch a).getD init) fun b hb => h b (List.mem_cons_of_mem a hb)
    cases hp : p a with
    | true => rw [List.filter_cons_of_pos hp, last_cons, last_cons, ih]
    | false =>
      rw [h a List.mem_cons_self hp, Option.getD_none] at ih
      rw [List.filter_cons_of_neg (by simp [hp]), ih, last_cons, h a List.mem_cons_self hp, Option.getD_none]

/-- What was written last. -/
theorem last_eq_of_touch {value : β} (ha : touch a = some value) (hbs : ∀ b ∈ bs, touch b = none) :
    last touch init (as ++ a :: bs) = value := by
  rw [last_append, last_cons, ha, Option.getD_some]
  exact last_eq_init fun b hb => by rw [hbs b hb, Option.getD_none]

/-- Where something holds of an operation, there is the last one that it holds of. -/
theorem exists_last {P : α → Prop} {as : List α} (h : ∃ a ∈ as, P a) :
    ∃ before a after, as = before ++ a :: after ∧ P a ∧ ∀ b ∈ after, ¬P b := by
  induction as with
  | nil => simp at h
  | cons a as ih =>
    by_cases hlater : ∃ b ∈ as, P b
    · obtain ⟨before, b, after, rfl, hb, hafter⟩ := ih hlater
      exact ⟨a :: before, b, after, rfl, hb, hafter⟩
    · have hnone : ∀ b ∈ as, ¬P b := fun b hb hP => hlater ⟨b, hb, hP⟩
      obtain ⟨b, hb, hP⟩ := h
      obtain rfl | hb := List.mem_cons.mp hb
      · exact ⟨[], b, as, rfl, hP, hnone⟩
      · exact absurd hP (hnone b hb)

variable {σ ε : Type} {step : α → σ → Except ε σ}

/-- The run rule: a value that each step writes or leaves alone. -/
theorem last_run (get : σ → β) {as : List α} {s t : σ} (h : Run.run step as s = .ok t)
    (hstep : ∀ a s s', step a s = .ok s' → get s' = (touch a).getD (get s)) : get t = last touch (get s) as := by
  induction as generalizing s with
  | nil =>
    obtain rfl := Except.ok.inj h
    rfl
  | cons a as ih =>
    obtain ⟨s', hs', h⟩ := Run.run_cons_ok.mp h
    rw [ih h, hstep a s s' hs', last_cons]

end Orbum.Latch
