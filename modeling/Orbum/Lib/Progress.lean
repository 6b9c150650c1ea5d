import Orbum.Lib.Run

/-!
# Progress

Agents that take turns at a system. An agent that can do something does it at its turn, which `count` counts, and one
that cannot leaves everything as it is. So in a list of rounds, in each of which every agent has a turn, `count` grows
with every round, until no agent can do anything more.
-/

namespace Orbum.Progress

variable {σ α κ ε : Type} {step : α → σ → Except ε σ} {agent : α → Option κ} {I : σ → Prop} {can : κ → σ → Prop}
  {count : σ → ℕ}

/-- Something is done, and some agent could. -/
def Does (can : κ → σ → Prop) (count : σ → ℕ) (s s' : σ) : Prop := (∃ k, can k s) ∧ count s < count s'

/-- No agent does anything that matters, since none that has its turn can. -/
structure Rests (can : κ → σ → Prop) (count : σ → ℕ) (as : List (Option κ)) (s s' : σ) : Prop where
  /-- Nothing is counted. -/
  counted : count s' = count s
  /-- Those can do something that could. -/
  able : ∀ k, can k s' ↔ can k s
  /-- Those that have their turn cannot. -/
  cannot : ∀ k, some k ∈ as → ¬can k s

/-- What a step does where `I` holds. -/
structure Rules (step : α → σ → Except ε σ) (agent : α → Option κ) (I : σ → Prop) (can : κ → σ → Prop)
    (count : σ → ℕ) : Prop where
  /-- `I` still holds. -/
  keeps : ∀ a s s', I s → step a s = .ok s' → I s'
  /-- Something is done, or nothing happens. -/
  moves : ∀ a s s', I s → step a s = .ok s' → Does can count s s' ∨ Rests can count [agent a] s s'

variable {s t : σ} {as : List α} {bs bs' : List (Option κ)} {u : σ}

theorem Rests.refl (s : σ) : Rests can count [] s s := ⟨rfl, fun _ => Iff.rfl, fun _ h => absurd h List.not_mem_nil⟩

/-- If the agents of fewer turns are looked at. -/
theorem Rests.sub (h : Rests can count bs s t) (hsub : ∀ k, some k ∈ bs' → some k ∈ bs) : Rests can count bs' s t :=
  ⟨h.counted, h.able, fun k hk => h.cannot k (hsub k hk)⟩

theorem Rests.trans (h : Rests can count bs s t) (h' : Rests can count bs' t u) :
    Rests can count (bs ++ bs') s u where
  counted := h'.counted.trans h.counted
  able k := (h'.able k).trans (h.able k)
  cannot k hk := by
    rcases List.mem_append.mp hk with hk | hk
    · exact h.cannot k hk
    · exact fun hcan => h'.cannot k hk ((h.able k).mpr hcan)

theorem Does.trans (h : Does can count s t) (h' : Does can count t u ∨ Rests can count bs t u) : Does can count s u := by
  refine ⟨h.1, ?_⟩
  rcases h' with h' | h'
  · exact Nat.lt_trans h.2 h'.2
  · exact h'.counted ▸ h.2

theorem Rests.does (h : Rests can count bs s t) (h' : Does can count t u) : Does can count s u := by
  obtain ⟨⟨k, hcan⟩, hlt⟩ := h'
  exact ⟨⟨k, (h.able k).mp hcan⟩, h.counted ▸ hlt⟩

/-- Over a run something is done, or nothing happens. -/
theorem Rules.run (h : Rules step agent I can count) (hs : I s) (hrun : Run.run step as s = .ok t) :
    Does can count s t ∨ Rests can count (as.map agent) s t := by
  induction as generalizing s with
  | nil =>
    obtain rfl := Except.ok.inj hrun
    exact .inr (.refl s)
  | cons a as ih =>
    obtain ⟨s', hs', hrun⟩ := Run.run_cons_ok.mp hrun
    have hrest := ih (h.keeps a s s' hs hs') hrun
    rcases h.moves a s s' hs hs' with hdoes | hrests
    · exact .inl (hdoes.trans hrest)
    · exact hrest.imp hrests.does hrests.trans

/-- A round in which every agent has its turn. -/
theorem Rules.round (h : Rules step agent I can count) (hs : I s) (hfair : ∀ k, some k ∈ as.map agent)
    (hrun : Run.run step as s = .ok t) : count s < count t ∨ ∀ k, ¬can k s := by
  rcases h.run hs hrun with ⟨-, hlt⟩ | hrests
  · exact .inl hlt
  · exact .inr fun k => hrests.cannot k (hfair k)

/-- Where no agent can do anything, none can ever. -/
theorem Rules.ended (h : Rules step agent I can count) (hs : I s) (hnone : ∀ k, ¬can k s)
    (hrun : Run.run step as s = .ok t) : ∀ k, ¬can k t := by
  rcases h.run hs hrun with ⟨⟨k, hcan⟩, -⟩ | hrests
  · exact absurd hcan (hnone k)
  · exact fun k hcan => hnone k ((hrests.able k).mp hcan)

/-- Every round counts, until no agent can do anything. -/
theorem Rules.rounds (h : Rules step agent I can count) {rounds : List (List α)} (hs : I s)
    (hfair : ∀ as ∈ rounds, ∀ k, some k ∈ as.map agent) (hrun : Run.run step rounds.flatten s = .ok t) :
    count s + rounds.length ≤ count t ∨ ∀ k, ¬can k t := by
  induction rounds generalizing s with
  | nil =>
    obtain rfl := Except.ok.inj hrun
    exact .inl (Nat.le_refl _)
  | cons as rounds ih =>
    obtain ⟨s', hs', hrest⟩ := Run.run_append.mp hrun
    have hI : I s' := Run.invariant_run h.keeps hs hs'
    rcases h.round hs (hfair as List.mem_cons_self) hs' with hlt | hnone
    · rcases ih hI (fun bs hbs => hfair bs (List.mem_cons_of_mem _ hbs)) hrest with hle | hended
      · left
        rw [List.length_cons]
        omega
      · exact .inr hended
    · exact .inr (h.ended hs hnone hrun)

end Orbum.Progress
