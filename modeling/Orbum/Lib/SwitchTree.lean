import Mathlib.Data.List.Basic
import Mathlib.Tactic.Common

/-!
# Nested switches

A function that finds its result by switches on the keys of what it is given, one inside the other. A `SwitchTree` is
the text of such a function and `eval` is what it returns.

The cases of a tree are also a list: `paths` has an entry for each `return`, with what the keys have to be on the way
to it. In a tree whose switches have no value twice (`Separated`) the entry alone says when the function returns there,
and no two entries are met at once.
-/

namespace Orbum

/-- The body of a function made of switches. -/
inductive SwitchTree (κ α : Type) where
  /-- The function does not return. -/
  | default
  /-- It returns. -/
  | ret (a : α)
  /-- One case of a switch on a key, and the cases after it. -/
  | case (k : κ) (n : ℕ) (body others : SwitchTree κ α)

namespace SwitchTree

variable {κ α : Type}

/-- A switch on a key. -/
def switch (k : κ) (cases : List (ℕ × SwitchTree κ α)) : SwitchTree κ α :=
  cases.foldr (fun c others => .case k c.1 c.2 others) .default

/-- Cases that return. -/
def rets (cases : List (ℕ × α)) : List (ℕ × SwitchTree κ α) := cases.map fun c => (c.1, .ret c.2)

/-- What the function returns, if it does. -/
def eval (read : κ → ℕ) : SwitchTree κ α → Option α
  | default => none
  | ret a => some a
  | case k n body others => if read k = n then body.eval read else others.eval read

/-- What the keys are on the way to each `return`. -/
def paths : SwitchTree κ α → List (List (κ × ℕ) × α)
  | default => []
  | ret a => [([], a)]
  | case k n body others => body.paths.map (fun p => ((k, n) :: p.1, p.2)) ++ others.paths

/-- The keys are as the path says. -/
def Follows (read : κ → ℕ) (path : List (κ × ℕ)) : Prop := ∀ c ∈ path, read c.1 = c.2

/-- The path asks for another value of the key. -/
def Avoids (k : κ) (n : ℕ) (path : List (κ × ℕ)) : Prop := ∃ c ∈ path, c.1 = k ∧ c.2 ≠ n

/-- No case hides one after it. -/
def Separated : SwitchTree κ α → Prop
  | default => True
  | ret _ => True
  | case k n body others => body.Separated ∧ others.Separated ∧ ∀ p ∈ others.paths, Avoids k n p.1

/-- The cases are all on the key, none of them for the value. -/
def lacks [BEq κ] (k : κ) (n : ℕ) : SwitchTree κ α → Bool
  | default => true
  | ret _ => false
  | case k' n' _ others => k' == k && n' != n && others.lacks k n

/-- Each `case` is followed by cases on its key alone, for other values. -/
def distinct [BEq κ] : SwitchTree κ α → Bool
  | default => true
  | ret _ => true
  | case k n body others => others.lacks k n && body.distinct && others.distinct

/-- What the function returns where all that is known of the keys is the path, if that says enough. -/
def along [BEq κ] (path : List (κ × ℕ)) : SwitchTree κ α → Option α
  | default => none
  | ret a => some a
  | case k n body others => (path.lookup k).bind fun m => if m = n then body.along path else others.along path

/-- What the function may return where all that is known of the keys is the path. -/
def reach [BEq κ] (path : List (κ × ℕ)) : SwitchTree κ α → List α
  | default => []
  | ret a => [a]
  | case k n body others =>
    (path.lookup k).elim (body.reach path ++ others.reach path) fun m =>
      if m = n then body.reach path else others.reach path

variable {read : κ → ℕ} {t : SwitchTree κ α} {a b : α}

@[simp] theorem eval_default : (default : SwitchTree κ α).eval read = none := rfl

@[simp] theorem eval_ret (a : α) : (ret a : SwitchTree κ α).eval read = some a := rfl

theorem eval_case (k : κ) (n : ℕ) (body others : SwitchTree κ α) :
    (case k n body others).eval read = if read k = n then body.eval read else others.eval read := rfl

@[simp] theorem follows_nil : Follows read [] := by simp [Follows]

theorem follows_cons (k : κ) (n : ℕ) (path : List (κ × ℕ)) :
    Follows read ((k, n) :: path) ↔ read k = n ∧ Follows read path := by
  simp [Follows]

/-- Keys that avoid a value do not have it. -/
theorem Avoids.ne {k : κ} {n : ℕ} {path : List (κ × ℕ)} (h : Avoids k n path) (hf : Follows read path) : read k ≠ n := by
  obtain ⟨c, hc, rfl, hn⟩ := h
  rw [hf c hc]
  exact hn

theorem avoids_of_lacks [BEq κ] [LawfulBEq κ] {k : κ} {n : ℕ} (h : t.lacks k n = true) :
    ∀ p ∈ t.paths, Avoids k n p.1 := by
  induction t with
  | default => simp [paths]
  | ret a => cases h
  | case k' n' body others _ iho =>
    simp only [lacks, Bool.and_eq_true, beq_iff_eq, bne_iff_ne] at h
    obtain ⟨⟨rfl, hn⟩, ho⟩ := h
    intro p hp
    rw [paths, List.mem_append, List.mem_map] at hp
    obtain ⟨q, -, rfl⟩ | hp := hp
    · exact ⟨(k', n'), List.mem_cons_self, rfl, hn⟩
    · exact iho ho p hp

/-- A tree of switches without a value twice. -/
theorem separated_of_distinct [BEq κ] [LawfulBEq κ] (h : t.distinct = true) : t.Separated := by
  induction t with
  | default => trivial
  | ret a => trivial
  | case k n body others ihb iho =>
    simp only [distinct, Bool.and_eq_true] at h
    exact ⟨ihb h.1.2, iho h.2, avoids_of_lacks h.1.1⟩

/-- The function returns at the end of a path that the keys follow. -/
theorem exists_path (h : t.eval read = some a) : ∃ p, (p, a) ∈ t.paths ∧ Follows read p := by
  induction t with
  | default => cases h
  | ret b =>
    cases h
    exact ⟨[], List.mem_singleton_self _, follows_nil⟩
  | case k n body others ihb iho =>
    rw [eval_case] at h
    by_cases hk : read k = n
    · rw [if_pos hk] at h
      obtain ⟨p, hp, hf⟩ := ihb h
      refine ⟨(k, n) :: p, List.mem_append_left _ ?_, (follows_cons k n p).mpr ⟨hk, hf⟩⟩
      exact List.mem_map.mpr ⟨(p, a), hp, rfl⟩
    · rw [if_neg hk] at h
      obtain ⟨p, hp, hf⟩ := iho h
      exact ⟨p, List.mem_append_right _ hp, hf⟩

/-- Where no case hides another, the keys decide alone. -/
theorem eval_of_mem_paths (ht : t.Separated) {p : List (κ × ℕ)} (hp : (p, a) ∈ t.paths) (hf : Follows read p) :
    t.eval read = some a := by
  induction t generalizing p with
  | default => cases hp
  | ret b =>
    rw [paths, List.mem_singleton] at hp
    cases hp
    rfl
  | case k n body others ihb iho =>
    obtain ⟨hb, ho, hav⟩ := ht
    rw [eval_case]
    rw [paths, List.mem_append, List.mem_map] at hp
    obtain ⟨q, hq, hqp⟩ | hp := hp
    · cases hqp
      obtain ⟨hk, hf⟩ := (follows_cons k n q.1).mp hf
      rw [if_pos hk]
      exact ihb hb hq hf
    · rw [if_neg ((hav _ hp).ne hf)]
      exact iho ho hp hf

/-- A tree is the list of its paths. -/
theorem eval_eq_some_iff (ht : t.Separated) : t.eval read = some a ↔ ∃ p, (p, a) ∈ t.paths ∧ Follows read p :=
  ⟨exists_path, fun ⟨_, hp, hf⟩ => eval_of_mem_paths ht hp hf⟩

/-- Where a result is returned at one place alone, the way to that place says when. -/
theorem eval_eq_some_iff_of_unique (ht : t.Separated) {p : List (κ × ℕ)} (hp : (p, a) ∈ t.paths)
    (huniq : ∀ q, (q, a) ∈ t.paths → q = p) : t.eval read = some a ↔ Follows read p := by
  rw [eval_eq_some_iff ht]
  constructor
  · rintro ⟨q, hq, hf⟩
    rwa [huniq q hq] at hf
  · intro hf
    exact ⟨p, hp, hf⟩

/-! ### Partial knowledge -/

section Partial

variable [BEq κ] [LawfulBEq κ] {path : List (κ × ℕ)}

/-- What a path says of a key. -/
theorem Follows.eq_of_lookup (hf : Follows read path) {k : κ} {m : ℕ} (h : path.lookup k = some m) : read k = m := by
  obtain ⟨before, after, rfl, -⟩ := List.lookup_eq_some_iff.mp h
  exact hf (k, m) (List.mem_append_right _ List.mem_cons_self)

/-- Where the path says enough, it says what is returned. -/
theorem eval_of_along (hf : Follows read path) (h : t.along path = some a) : t.eval read = some a := by
  induction t with
  | default => cases h
  | ret b => exact h
  | case k n body others ihb iho =>
    obtain ⟨m, hm, h⟩ := Option.bind_eq_some_iff.mp h
    rw [eval_case, hf.eq_of_lookup hm]
    by_cases hmn : m = n
    · rw [if_pos hmn] at h ⊢
      exact ihb h
    · rw [if_neg hmn] at h ⊢
      exact iho h

/-- Nothing else is returned. -/
theorem mem_reach_of_eval (hf : Follows read path) (h : t.eval read = some a) : a ∈ t.reach path := by
  induction t with
  | default => cases h
  | ret b =>
    cases h
    exact List.mem_singleton_self _
  | case k n body others ihb iho =>
    rw [eval_case] at h
    cases hm : path.lookup k with
    | none =>
      rw [reach, hm, Option.elim_none, List.mem_append]
      by_cases hk : read k = n
      · rw [if_pos hk] at h
        exact .inl (ihb h)
      · rw [if_neg hk] at h
        exact .inr (iho h)
    | some m =>
      rw [hf.eq_of_lookup hm] at h
      rw [reach, hm, Option.elim_some]
      by_cases hmn : m = n
      · rw [if_pos hmn] at h ⊢
        exact ihb h
      · rw [if_neg hmn] at h ⊢
        exact iho h

end Partial

/-! ### Switches -/

/-- A switch looks its key up. -/
theorem eval_switch (k : κ) (cases : List (ℕ × SwitchTree κ α)) :
    (switch k cases).eval read = (cases.lookup (read k)).bind (eval read) := by
  induction cases with
  | nil => rfl
  | cons c cases ih =>
    rw [List.lookup_cons, show switch k (c :: cases) = .case k c.1 c.2 (switch k cases) from rfl, eval_case, ih]
    by_cases h : read k = c.1
    · rw [if_pos h, beq_iff_eq.mpr h]
      rfl
    · rw [if_neg h, beq_eq_false_iff_ne.mpr h]

/-- A switch whose key is found goes on with the case. -/
theorem eval_switch_of_lookup {k : κ} {cases : List (ℕ × SwitchTree κ α)} {n : ℕ} {body : SwitchTree κ α}
    (hk : read k = n) (hb : cases.lookup n = some body) : (switch k cases).eval read = body.eval read := by
  rw [eval_switch, hk, hb, Option.bind_some]

/-- Nothing comes of a tree none of whose results has any. -/
theorem eval_bind_eq_none {g : α → Option β} (h : ∀ p ∈ t.paths, g p.2 = none) : (t.eval read).bind g = none := by
  cases ha : t.eval read with
  | none => rfl
  | some a =>
    obtain ⟨p, hp, -⟩ := exists_path ha
    exact h (p, a) hp

/-- Nothing comes of a switch on a key that has none of the values that something comes of. -/
theorem eval_switch_bind_eq_none {k : κ} {cases : List (ℕ × SwitchTree κ α)} {g : α → Option β} (values : List ℕ)
    (hk : read k ∉ values) (h : ∀ c ∈ cases, c.1 ∈ values ∨ ∀ p ∈ c.2.paths, g p.2 = none) :
    ((switch k cases).eval read).bind g = none := by
  rw [eval_switch]
  cases hc : cases.lookup (read k) with
  | none => rfl
  | some body =>
    rw [Option.bind_some]
    obtain ⟨before, after, rfl, -⟩ := List.lookup_eq_some_iff.mp hc
    obtain hv | hnone := h (read k, body) (List.mem_append_right _ List.mem_cons_self)
    · exact absurd hv hk
    · exact eval_bind_eq_none hnone

end SwitchTree

end Orbum
