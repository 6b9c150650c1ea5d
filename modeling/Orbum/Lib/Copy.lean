import Mathlib.Data.Nat.Basic

/-!
# Copies

What a memory holds once cells of it have been copied to others, one block after another.
-/

namespace Orbum

variable {A V : Type} {n b : ℕ} {src mid dst : ℕ → A} {m m' m'' : A → V}

/-- The cells `src 0`, …, `src (n - 1)` have been copied to `dst 0`, …, `dst (n - 1)`. -/
structure Copied (n : ℕ) (src dst : ℕ → A) (m m' : A → V) : Prop where
  /-- What was copied is there. -/
  copied : ∀ k < n, m' (dst k) = m (src k)
  /-- The other cells are as before. -/
  others : ∀ x, (∀ k < n, dst k ≠ x) → m' x = m x

namespace Copied

theorem zero (src dst : ℕ → A) (m : A → V) : Copied 0 src dst m m :=
  ⟨fun _ hk => absurd hk (Nat.not_lt_zero _), fun _ _ => rfl⟩

theorem congr {src' dst' : ℕ → A} (h : Copied n src dst m m') (hsrc : ∀ k < n, src' k = src k)
    (hdst : ∀ k < n, dst' k = dst k) : Copied n src' dst' m m' where
  copied k hk := by rw [hdst k hk, hsrc k hk, h.copied k hk]
  others x hx := h.others x fun k hk => hdst k hk ▸ hx k hk

/-- A block copied after others, from cells and to cells to which nothing has been copied yet. -/
theorem append (h : Copied n src dst m m') (h' : Copied b (fun j => src (n + j)) (fun j => dst (n + j)) m' m'')
    (hdst : ∀ k < n, ∀ j < b, dst (n + j) ≠ dst k) (hsrc : ∀ k < n, ∀ j < b, dst k ≠ src (n + j)) :
    Copied (n + b) src dst m m'' where
  copied k hk := by
    by_cases hkn : k < n
    · rw [h'.others _ (hdst k hkn), h.copied k hkn]
    · obtain ⟨j, rfl⟩ := Nat.exists_eq_add_of_le (not_lt.mp hkn)
      have hj : j < b := Nat.lt_of_add_lt_add_left hk
      rw [h'.copied j hj, h.others _ fun k hk => hsrc k hk j hj]
  others x hx := by
    rw [h'.others x fun j hj => hx (n + j) (Nat.add_lt_add_left hj n),
      h.others x fun k hk => hx k (Nat.lt_add_right b hk)]

/-- What has been copied there and from there on. -/
theorem copied_trans (h : Copied n src mid m m') (h' : Copied n mid dst m' m'') {k : ℕ} (hk : k < n) :
    m'' (dst k) = m (src k) := (h'.copied k hk).trans (h.copied k hk)

/-- The cells that neither copy has written. -/
theorem others_trans (h : Copied n src mid m m') (h' : Copied n mid dst m' m'') {x : A} (hmid : ∀ k < n, mid k ≠ x)
    (hdst : ∀ k < n, dst k ≠ x) : m'' x = m x := (h'.others x hdst).trans (h.others x hmid)

end Copied

end Orbum
