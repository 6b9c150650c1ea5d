import Orbum.Lib.Except

/-!
# Runs

A system that takes one operation after another, each of which may fail: `step a s` is what
operation `a` does in state `s`. `run` makes a list of operations, up to the first that fails, and
`Always P` says that `P` held at each operation made.

`Both C` says that `C` holds at each pair of operations of two runs made side by side, and `Lockstep R` that
the runs fail alike or keep `R`.

An invariant is carried through a run by two rules: `Always.invariant` when the step keeps it
wherever `Q` holds, and `always_congr` when two properties agree at every single step.
-/

namespace Orbum.Run

variable {σ α ε : Type} (step : α → σ → Except ε σ)

/-- The state after a list of operations. -/
def run : List α → σ → Except ε σ
  | [], s => .ok s
  | a :: as, s => do run as (← step a s)

/-- `P` holds of each operation and the state it is made in. -/
def Always (P : α → σ → Prop) : List α → σ → Prop
  | [], _ => True
  | a :: as, s => P a s ∧ ∀ s', step a s = .ok s' → Always P as s'

variable {step} {P Q : α → σ → Prop}

/-- Whether `P` held can be found out by making the run. -/
instance Always.decidable [∀ a s, Decidable (P a s)] : ∀ (as : List α) (s : σ), Decidable (Always step P as s)
  | [], _ => isTrue trivial
  | a :: as, s =>
    match h : step a s with
    | .error _ => decidable_of_iff (P a s) ⟨fun hP => ⟨hP, fun _ hs => nomatch h.symm.trans hs⟩, And.left⟩
    | .ok t =>
      have := Always.decidable as t
      decidable_of_iff (P a s ∧ Always step P as t)
        ⟨fun ⟨hP, ht⟩ => ⟨hP, fun _ hs => Except.ok.inj (h.symm.trans hs) ▸ ht⟩, fun ⟨hP, hall⟩ => ⟨hP, hall t h⟩⟩

theorem run_cons_ok {a : α} {as : List α} {s t : σ} :
    run step (a :: as) s = .ok t ↔ ∃ s', step a s = .ok s' ∧ run step as s' = .ok t := by
  cases h : step a s with
  | error e => simp [run, h, bind, Except.bind]
  | ok s' => simp [run, h, bind, Except.bind]

theorem run_append {as bs : List α} {s t : σ} :
    run step (as ++ bs) s = .ok t ↔ ∃ s', run step as s = .ok s' ∧ run step bs s' = .ok t := by
  induction as generalizing s with
  | nil => simp [run]
  | cons a as ih =>
    simp only [List.cons_append, run_cons_ok, ih]
    constructor
    · rintro ⟨s₁, h1, s₂, h2, h3⟩
      exact ⟨s₂, ⟨s₁, h1, h2⟩, h3⟩
    · rintro ⟨s₂, ⟨s₁, h1, h2⟩, h3⟩
      exact ⟨s₁, h1, s₂, h2, h3⟩

theorem Always.append {as bs : List α} {s : σ} (has : Always step P as s)
    (hbs : ∀ t, run step as s = .ok t → Always step P bs t) : Always step P (as ++ bs) s := by
  induction as generalizing s with
  | nil => exact hbs s rfl
  | cons a as ih => exact ⟨has.1, fun s' hs' => ih (has.2 s' hs') fun t ht => hbs t (run_cons_ok.mpr ⟨s', hs', ht⟩)⟩

theorem Always.of_append {as bs : List α} {s t : σ} (h : Always step P (as ++ bs) s) (hrun : run step as s = .ok t) :
    Always step P bs t := by
  induction as generalizing s with
  | nil =>
    obtain rfl := Except.ok.inj hrun
    exact h
  | cons a as ih =>
    obtain ⟨s', hs', hrun⟩ := run_cons_ok.mp hrun
    exact ih (h.2 s' hs') hrun

/-- A property of every step holds over every run. -/
theorem always_of_forall (h : ∀ a s, P a s) (as : List α) (s : σ) : Always step P as s := by
  induction as generalizing s with
  | nil => trivial
  | cons a as ih => exact ⟨h a s, fun s' _ => ih s'⟩

theorem Always.and {as : List α} {s : σ} (hP : Always step P as s) (hQ : Always step Q as s) :
    Always step (fun a s => P a s ∧ Q a s) as s := by
  induction as generalizing s with
  | nil => trivial
  | cons a as ih => exact ⟨⟨hP.1, hQ.1⟩, fun s' hs' => ih (hP.2 s' hs') (hQ.2 s' hs')⟩

/-- Properties that agree at every step agree over every run. -/
theorem always_congr (h : ∀ a s, P a s ↔ Q a s) (as : List α) (s : σ) : Always step P as s ↔ Always step Q as s := by
  induction as generalizing s with
  | nil => rfl
  | cons a as ih =>
    simp only [Always]
    exact and_congr (h a s) (forall₂_congr fun s' _ => ih s')

/-- The induction rule: an invariant that each step keeps where `Q` holds, and that gives `P` there. -/
theorem Always.invariant {I : σ → Prop} (hstep : ∀ a s s', I s → Q a s → step a s = .ok s' → I s')
    (hP : ∀ a s, I s → Q a s → P a s) {as : List α} {s : σ} (hs : I s) (h : Always step Q as s) :
    Always step P as s := by
  induction as generalizing s with
  | nil => trivial
  | cons a as ih => exact ⟨hP a s hs h.1, fun s' hs' => ih (hstep a s s' hs h.1 hs') (h.2 s' hs')⟩

/-- Under an invariant, properties that agree at every step where it holds agree over the run. -/
theorem always_iff {I : σ → Prop} {R : α → σ → Prop}
    (hstep : ∀ a s s', I s → Q a s → step a s = .ok s' → I s') (hPR : ∀ a s, I s → (P a s ↔ R a s))
    {as : List α} {s : σ} (hs : I s) (h : Always step Q as s) : Always step P as s ↔ Always step R as s := by
  induction as generalizing s with
  | nil => rfl
  | cons a as ih =>
    simp only [Always]
    exact and_congr (hPR a s hs) (forall₂_congr fun s' hs' => ih (hstep a s s' hs h.1 hs') (h.2 s' hs'))

/-- Properties that agree where an invariant holds agree over every run if the one keeps it. -/
theorem always_iff_of_keeps {I : σ → Prop} (hstep : ∀ a s s', I s → Q a s → step a s = .ok s' → I s')
    (hPQ : ∀ a s, I s → (P a s ↔ Q a s)) {as : List α} {s : σ} (hs : I s) :
    Always step P as s ↔ Always step Q as s := by
  constructor
  · intro h
    exact (always_iff (fun a s s' hI hP => hstep a s s' hI ((hPQ a s hI).mp hP)) hPQ hs h).mp h
  · intro h
    exact (always_iff hstep hPQ hs h).mpr h

/-- A run of steps that cannot fail. -/
theorem exists_run (h : ∀ a s, ∃ s', step a s = .ok s') (as : List α) (s : σ) : ∃ t, run step as s = .ok t := by
  induction as generalizing s with
  | nil => exact ⟨s, rfl⟩
  | cons a as ih =>
    obtain ⟨s', hs'⟩ := h a s
    obtain ⟨t, ht⟩ := ih s'
    exact ⟨t, run_cons_ok.mpr ⟨s', hs', ht⟩⟩

/-- Over a run that fails nowhere and meets `R`, properties that agree where an invariant holds agree if the one keeps
it. -/
theorem Always.iff_of_run {I : σ → Prop} {R : α → σ → Prop}
    (hstep : ∀ a s s', I s → R a s → step a s = .ok s' → (P a s ↔ Q a s) ∧ (Q a s → I s')) {as : List α} {s t : σ}
    (hs : I s) (hR : Always step R as s) (h : run step as s = .ok t) : Always step P as s ↔ Always step Q as s := by
  induction as generalizing s with
  | nil => rfl
  | cons a as ih =>
    obtain ⟨s', h1, h2⟩ := run_cons_ok.mp h
    obtain ⟨hPQ, hkeep⟩ := hstep a s s' hs hR.1 h1
    have hrest : Q a s → (Always step P as s' ↔ Always step Q as s') := fun hQ => ih (hkeep hQ) (hR.2 s' h1) h2
    constructor
    · rintro ⟨hP, hall⟩
      refine ⟨hPQ.mp hP, fun u hu => ?_⟩
      obtain rfl := Except.ok.inj (h1.symm.trans hu)
      exact (hrest (hPQ.mp hP)).mp (hall s' h1)
    · rintro ⟨hQ, hall⟩
      refine ⟨hPQ.mpr hQ, fun u hu => ?_⟩
      obtain rfl := Except.ok.inj (h1.symm.trans hu)
      exact (hrest hQ).mpr (hall s' h1)

/-- Over a run that fails nowhere, properties that agree where an invariant holds agree if the one keeps it. -/
theorem always_iff_of_run {I : σ → Prop}
    (hstep : ∀ a s s', I s → step a s = .ok s' → (P a s ↔ Q a s) ∧ (Q a s → I s')) {as : List α} {s t : σ} (hs : I s)
    (h : run step as s = .ok t) : Always step P as s ↔ Always step Q as s :=
  Always.iff_of_run (R := fun _ _ => True) (fun a s s' hs _ => hstep a s s' hs) hs
    (always_of_forall (fun _ _ => trivial) as s) h

/-- An invariant that each step keeps where `Q` holds is there at the end of the run. -/
theorem Always.invariant_run {I : σ → Prop} (hstep : ∀ a s s', I s → Q a s → step a s = .ok s' → I s') {as : List α}
    {s t : σ} (hs : I s) (hQ : Always step Q as s) (h : run step as s = .ok t) : I t := by
  induction as generalizing s with
  | nil =>
    obtain rfl := Except.ok.inj h
    exact hs
  | cons a as ih =>
    obtain ⟨s', h1, h2⟩ := run_cons_ok.mp h
    exact ih (hstep a s s' hs hQ.1 h1) (hQ.2 s' h1) h2

/-- An invariant holds at the end of a run. -/
theorem invariant_run {I : σ → Prop} (hstep : ∀ a s s', I s → step a s = .ok s' → I s') {as : List α} {s t : σ}
    (hs : I s) (h : run step as s = .ok t) : I t :=
  Always.invariant_run (Q := fun _ _ => True) (fun a s s' hs _ => hstep a s s' hs) hs
    (always_of_forall (fun _ _ => trivial) as s) h

/-! ### What a run writes down -/

/-- Entries that go by their number still do when the next is written behind them. -/
theorem map_concat_eq_range {β γ : Type} {f : β → γ} {g : ℕ → γ} {log : List β} {b : β}
    (h : log.map f = (List.range log.length).map g) (hb : f b = g log.length) :
    (log ++ [b]).map f = (List.range (log ++ [b]).length).map g := by
  rw [List.map_append, h, List.length_append, List.length_singleton, List.range_succ, List.map_append,
    List.map_singleton, List.map_singleton, hb]

/-! ### Two runs side by side -/

/-- `C` holds at each pair of operations that two runs make. -/
def Both (step : α → σ → Except ε σ) (C : α → α → σ → σ → Prop) : List (α × α) → σ → σ → Prop
  | [], _, _ => True
  | (a, b) :: ops, s, t => C a b s t ∧ ∀ s' t', step a s = .ok s' → step b t = .ok t' → Both step C ops s' t'

/-- Two runs fail together, with the same error, and `R` holds wherever they have got. -/
def Lockstep (step : α → σ → Except ε σ) (R : σ → σ → Prop) : List (α × α) → σ → σ → Prop
  | [], s, t => R s t
  | (a, b) :: ops, s, t => R s t ∧ ExceptRel (fun s' t' => Lockstep step R ops s' t') (step a s) (step b t)

/-- The induction rule: a relation that each pair of operations keeps where `C` holds. -/
theorem lockstep_of_both {C : α → α → σ → σ → Prop} {R : σ → σ → Prop}
    (hstep : ∀ a b s t, R s t → C a b s t → ExceptRel R (step a s) (step b t)) {ops : List (α × α)} {s t : σ}
    (hR : R s t) (hC : Both step C ops s t) : Lockstep step R ops s t := by
  induction ops generalizing s t with
  | nil => exact hR
  | cons ab ops ih =>
    obtain ⟨a, b⟩ := ab
    refine ⟨hR, ?_⟩
    have hrel := hstep a b s t hR hC.1
    generalize hs : step a s = x at hrel ⊢
    generalize ht : step b t = y at hrel ⊢
    cases hrel with
    | error e => exact .error e
    | ok hR' => exact .ok (ih hR' (hC.2 _ _ hs ht))

end Orbum.Run
