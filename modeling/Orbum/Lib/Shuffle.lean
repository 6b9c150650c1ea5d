import Orbum.Lib.Lanes

/-!
# Shuffles

A bit vector put together from lanes of others. Where every lane comes from is a table, and what tables do one after the
other is again a table, so that laws of shuffles are facts about their tables.
-/

namespace Orbum

namespace Shuffle

open Lanes

variable {ι κ : Type} {n w : ℕ}

/-- For each lane an operand, and which of its lanes it is. -/
abbrev Table (ι : Type) := List (ι × ℕ)

/-- The lanes that a table names. -/
def element (w : ℕ) (t : Table ι) (x : ι → BitVec n) (k : ℕ) : BitVec w :=
  match t[k]? with
  | some e => lane w e.2 (x e.1)
  | none => 0

/-- Writes them to `q`. -/
def shuffle (w : ℕ) (t : Table ι) (x : ι → BitVec n) (q : BitVec n) : BitVec n := setLanes (element w t x) t.length q

/-- The lanes of one operand as they are. -/
def identity (i : ι) (m : ℕ) : Table ι := (List.range m).map fun k => (i, k)

/-- The same lanes of other operands. -/
def rename (f : ι → κ) (t : Table ι) : Table κ := t.map fun e => (f e.1, e.2)

/-- `t`, of what the tables `s` make, is `r`. -/
def Composes (t : Table ι) (s : ι → Table κ) (r : Table κ) : Prop :=
  ∀ k < r.length, (t[k]?.bind fun e => (s e.1)[e.2]?) = r[k]?

instance [DecidableEq κ] (t : Table ι) (s : ι → Table κ) (r : Table κ) : Decidable (Composes t s r) :=
  inferInstanceAs (Decidable (∀ k < r.length, _))

/-- `t`, of lanes that are `c` times as wide, is `r`. -/
def Splits (c : ℕ) (t r : Table ι) : Prop := ∀ k < r.length, (t[k / c]?.map fun e => (e.1, c * e.2 + k % c)) = r[k]?

instance [DecidableEq ι] (c : ℕ) (t r : Table ι) : Decidable (Splits c t r) :=
  inferInstanceAs (Decidable (∀ k < r.length, _))

theorem element_of_some {t : Table ι} {k : ℕ} {e : ι × ℕ} (h : t[k]? = some e) (x : ι → BitVec n) :
    element w t x k = lane w e.2 (x e.1) := by
  rw [element, h]

theorem lane_shuffle {t : Table ι} (h : w * t.length ≤ n) (x : ι → BitVec n) (q : BitVec n) {k : ℕ} (hk : k < t.length) :
    lane w k (shuffle w t x q) = element w t x k := by
  rw [shuffle, lane_setLanes _ h, if_pos hk]

/-- Where all lanes are written, `q` makes no difference. -/
theorem shuffle_eq_iff {t : Table ι} (h : n = w * t.length) (x : ι → BitVec n) (q q' : BitVec n) :
    shuffle w t x q = q' ↔ ∀ k < t.length, element w t x k = lane w k q' :=
  setLanes_eq_iff h _ q q'

theorem shuffle_congr {t : Table ι} (h : n = w * t.length) (x : ι → BitVec n) (q q' : BitVec n) :
    shuffle w t x q = shuffle w t x q' :=
  setLanes_congr h (fun _ _ => rfl) q q'

/-- Only the operands that the table names matter. -/
theorem shuffle_congr_operands {t : Table ι} {x x' : ι → BitVec n} (h : ∀ e ∈ t, x e.1 = x' e.1) (q : BitVec n) :
    shuffle w t x q = shuffle w t x' q := by
  have hval : element w t x = element w t x' := by
    funext k
    rcases hk : t[k]? with _ | e
    · rw [element, element, hk]
    · rw [element_of_some hk, element_of_some hk, h e (List.mem_of_getElem? hk)]
  rw [shuffle, shuffle, hval]

theorem shuffle_rename (f : ι → κ) (t : Table ι) (x : κ → BitVec n) (q : BitVec n) :
    shuffle w (rename f t) x q = shuffle w t (fun i => x (f i)) q := by
  have hval : element w (rename f t) x = element w t fun i => x (f i) := by
    funext k
    rcases hk : t[k]? with _ | e
    · rw [element, element, rename, List.getElem?_map, hk, Option.map_none]
    · rw [element_of_some hk, element, rename, List.getElem?_map, hk, Option.map_some]
  rw [shuffle, shuffle, hval, rename, List.length_map]

/-- An operand, put together from its own lanes. -/
theorem shuffle_identity {m : ℕ} (h : n = w * m) (i : ι) (x : ι → BitVec n) (q : BitVec n) :
    shuffle w (identity i m) x q = x i := by
  have hlen : (identity i m).length = m := by rw [identity, List.length_map, List.length_range]
  rw [shuffle_eq_iff (by rw [hlen, h])]
  intro k hk
  have hkm : k < m := hlen ▸ hk
  have he : (identity i m)[k]? = some (i, k) := by
    rw [identity, List.getElem?_map, List.getElem?_range hkm, Option.map_some]
  exact element_of_some he x

/-- Two shuffles, one after the other. -/
theorem shuffle_shuffle {t : Table ι} {s : ι → Table κ} {r : Table κ} (hc : Composes t s r) (ht : n = w * t.length)
    (hs : ∀ i, n = w * (s i).length) (hr : t.length = r.length) (x : κ → BitVec n) (y : ι → BitVec n) (q q' : BitVec n) :
    shuffle w t (fun i => shuffle w (s i) x (y i)) q = shuffle w r x q' := by
  rw [shuffle_eq_iff ht]
  intro k hk
  have hkr : k < r.length := hr ▸ hk
  have hk' := hc k hkr
  obtain ⟨e, he⟩ : ∃ e, t[k]? = some e := ⟨_, List.getElem?_eq_getElem hk⟩
  obtain ⟨e', he'⟩ : ∃ e', r[k]? = some e' := ⟨_, List.getElem?_eq_getElem hkr⟩
  rw [he, he', Option.bind_some] at hk'
  have hlt : e.2 < (s e.1).length := (List.getElem?_eq_some_iff.mp hk').1
  rw [lane_shuffle (Nat.le_of_eq (hr ▸ ht).symm) x q' hkr, element_of_some he, element_of_some he',
    lane_shuffle (Nat.le_of_eq (hs e.1).symm) x _ hlt, element_of_some hk']

theorem lane_lane {c j : ℕ} (hc : j < c) (i : ℕ) (q : BitVec n) :
    lane w j (lane (w * c) i q) = lane w (c * i + j) q := by
  apply BitVec.eq_of_getLsbD_eq
  intro b hb
  have hlt : w * j + b < w * c := by
    have hle := Nat.mul_le_mul_left w hc
    rw [Nat.mul_succ] at hle
    omega
  rw [getLsbD_lane, getLsbD_lane, getLsbD_lane, decide_eq_true hlt, Bool.true_and]
  congr 2
  rw [Nat.mul_add, ← Nat.mul_assoc, Nat.add_assoc]

/-- A shuffle of wide lanes as one of narrow lanes. -/
theorem shuffle_split {c : ℕ} {t r : Table ι} (h : Splits c t r) (hc : 0 < c) (hn : n = w * r.length)
    (hlen : r.length = c * t.length) (x : ι → BitVec n) (q q' : BitVec n) :
    shuffle (w * c) t x q = shuffle w r x q' := by
  have hwide : n = w * c * t.length := by rw [hn, hlen, Nat.mul_assoc]
  refine Eq.symm ((shuffle_eq_iff hn x q' _).mpr fun k hk => ?_)
  have hkt : k / c < t.length := Nat.div_lt_of_lt_mul (hlen ▸ hk)
  have hk' := h k hk
  obtain ⟨e, he⟩ : ∃ e, t[k / c]? = some e := ⟨_, List.getElem?_eq_getElem hkt⟩
  rw [he, Option.map_some] at hk'
  have hlane : lane w k (shuffle (w * c) t x q) = lane w (k % c) (lane (w * c) (k / c) (shuffle (w * c) t x q)) := by
    rw [lane_lane (Nat.mod_lt k hc), Nat.div_add_mod]
  rw [element_of_some hk'.symm, hlane, lane_shuffle (Nat.le_of_eq hwide.symm) x q hkt, element_of_some he,
    lane_lane (Nat.mod_lt k hc)]

end Shuffle

end Orbum
