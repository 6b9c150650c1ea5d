import Orbum.Ee.Core.Interpreter.Reordering

/-!
# Reordering back

What the extending instructions interleave the packing ones take apart, the exchanging and reversing ones are their own
inverses, a rotation of three words is one after three times, and the interleaving ones are made of the others. Each law
is one of the tables.
-/

namespace Orbum

open Lanes Shuffle

namespace R5900

variable {σ : Type} {w m h : ℕ} {t t' s s' : Table Operand} {a b x : Uqword}

/-- With `a` in `Rs` and `b` in `Rt`, whatever registers these and `Rd` are, the instruction writes `q` to `Rd` and does
nothing else. -/
def Gives (op : EeCoreInstruction → R5900 σ → R5900 σ) (a b q : Uqword) : Prop :=
  ∀ (inst : EeCoreInstruction) (d : R5900 σ), d.gpr inst.rs = a → d.gpr inst.rt = b → op inst d = d.writeUqword inst.rd q

/-- Both operands. -/
def values (a b : Uqword) : Operand → Uqword
  | .rs => a
  | .rt => b

/-- The table of an instruction that reads `Rt` only. -/
def ReadsRt (t : Table Operand) : Prop := ∀ e ∈ t, e.1 = .rt

instance (t : Table Operand) : Decidable (ReadsRt t) := inferInstanceAs (Decidable (∀ e ∈ t, _))

theorem gives_reorder (ht : 128 = w * t.length) (a b : Uqword) :
    Gives (σ := σ) (fun inst d => reorder inst d w t) a b (shuffle w t (values a b) 0) := by
  rintro inst d rfl rfl
  have hoperand : operand inst d = values (d.gpr inst.rs) (d.gpr inst.rt) := by
    funext i
    cases i <;> rfl
  rw [← hoperand]
  exact congrArg _ (shuffle_congr ht _ _ _)

theorem gives_rt (ht : 128 = w * t.length) (hrt : ReadsRt t) (x b : Uqword) :
    Gives (σ := σ) (fun inst d => reorder inst d w t) x b (shuffle w t (fun _ => b) 0) := by
  have hvalues : shuffle w t (values x b) 0 = shuffle w t (fun _ => b) 0 := by
    refine shuffle_congr_operands (fun e he => ?_) 0
    rw [hrt e he, values]
  rw [← hvalues]
  exact gives_reorder ht x b

/-- Operands that are shuffled themselves. -/
theorem values_shuffle {κ : Type} (s s' : Table κ) (y : κ → Uqword) :
    values (shuffle w s y 0) (shuffle w s' y 0) = fun i => shuffle w (match i with | .rs => s | .rt => s') y 0 := by
  funext i
  cases i <;> rfl

/-- Of shuffled operands, one table instead of three. -/
theorem shuffle_values {κ : Type} {t : Table Operand} {s s' r : Table κ}
    (hc : Composes t (fun | .rs => s | .rt => s') r) (ht : 128 = w * t.length) (hs : s.length = t.length)
    (hs' : s'.length = t.length) (hr : t.length = r.length) (y : κ → Uqword) :
    shuffle w t (values (shuffle w s y 0) (shuffle w s' y 0)) 0 = shuffle w r y 0 := by
  rw [values_shuffle]
  refine shuffle_shuffle hc ht (fun i => ?_) hr y (fun _ => 0) 0 0
  cases i
  · exact hs ▸ ht
  · exact hs' ▸ ht

/-! ### Taking apart -/

/-- `ppac` gives back the `Rt` of `pextl` and `pextu`, and the odd elements of what these give are their `Rs`. -/
def PacksBack (w h : ℕ) (pextl pextu ppac : EeCoreInstruction → R5900 σ → R5900 σ) (a b : Uqword) : Prop :=
  ∃ l u, Gives pextl a b l ∧ Gives pextu a b u ∧ Gives ppac u l b ∧
    ∀ k < h, lane w (2 * k + 1) l = lane w k a ∧ lane w (2 * k + 1) u = lane w (h + k) a

/-- The tables of instructions that give back. -/
structure PackingTables (m h : ℕ) (l u p : Table Operand) : Prop where
  /-- The lengths. -/
  length : l.length = m ∧ u.length = m ∧ p.length = m
  /-- There are as many odd elements as even ones. -/
  half : m = 2 * h
  /-- Packing takes the elements of `Rt`. -/
  packs : Composes p (fun | .rs => u | .rt => l) (identity .rt m)
  /-- Between them are those of `Rs`. -/
  odd : ∀ k < h, l[2 * k + 1]? = some (.rs, k) ∧ u[2 * k + 1]? = some (.rs, h + k)

theorem packsBack {l u p : Table Operand} (ht : PackingTables m h l u p) (hm : 128 = w * m) (a b : Uqword) :
    PacksBack (σ := σ) w h (fun i d => reorder i d w l) (fun i d => reorder i d w u) (fun i d => reorder i d w p) a b := by
  obtain ⟨hl, hu, hp⟩ := ht.length
  have hlen : (identity Operand.rt m).length = m := by rw [identity, List.length_map, List.length_range]
  refine ⟨_, _, gives_reorder (hl ▸ hm) a b, gives_reorder (hu ▸ hm) a b, ?_, fun k hk => ⟨?_, ?_⟩⟩
  · have hback : shuffle w p (values (shuffle w u (values a b) 0) (shuffle w l (values a b) 0)) 0 = b := by
      rw [shuffle_values ht.packs (hp ▸ hm) (hu.trans hp.symm) (hl.trans hp.symm) (hp.trans hlen.symm),
        shuffle_identity hm Operand.rt, values]
    have hgives := gives_reorder (σ := σ) (hp ▸ hm) (shuffle w u (values a b) 0) (shuffle w l (values a b) 0)
    rwa [hback] at hgives
  · have hlt : 2 * k + 1 < l.length := by
      rw [hl, ht.half]
      omega
    rw [lane_shuffle (Nat.le_of_eq (hl ▸ hm).symm) _ _ hlt, element_of_some (ht.odd k hk).1, values]
  · have hlt : 2 * k + 1 < u.length := by
      rw [hu, ht.half]
      omega
    rw [lane_shuffle (Nat.le_of_eq (hu ▸ hm).symm) _ _ hlt, element_of_some (ht.odd k hk).2, values]

/-! ### Permutations -/

/-- What the instruction gives for `a` it takes back to `a`, whatever `Rs` is. -/
def Involution (op : EeCoreInstruction → R5900 σ → R5900 σ) (a : Uqword) : Prop :=
  ∃ q, (∀ x, Gives op x a q) ∧ ∀ x, Gives op x q a

/-- Two tables one after the other, on `Rt`. -/
theorem shuffle_rt (ht : 128 = w * t.length) (hs : 128 = w * s.length) (hm : t.length = t'.length)
    (hc : Composes t (fun _ => s) t') (a : Uqword) :
    shuffle w t (fun _ => shuffle w s (fun _ => a) 0) 0 = shuffle w t' (fun _ : Operand => a) 0 :=
  shuffle_shuffle hc ht (fun _ => hs) hm (fun _ => a) (fun _ : Operand => 0) 0 0

theorem involution (ht : 128 = w * t.length) (hrt : ReadsRt t) (hc : Composes t (fun _ => t) (identity .rt t.length))
    (a : Uqword) : Involution (σ := σ) (fun inst d => reorder inst d w t) a := by
  have hlen : t.length = (identity Operand.rt t.length).length := by rw [identity, List.length_map, List.length_range]
  have hback : shuffle w t (fun _ => shuffle w t (fun _ => a) 0) 0 = a := by
    rw [shuffle_rt ht ht hlen hc, shuffle_identity ht]
  refine ⟨_, fun x => gives_rt ht hrt x a, fun x => ?_⟩
  have hgives := gives_rt (σ := σ) ht hrt x (shuffle w t (fun _ => a) 0)
  rwa [hback] at hgives

/-- Three times the instruction gives `a` back. -/
def OrderThree (op : EeCoreInstruction → R5900 σ → R5900 σ) (a : Uqword) : Prop :=
  ∃ q q', (∀ x, Gives op x a q) ∧ (∀ x, Gives op x q q') ∧ ∀ x, Gives op x q' a

theorem orderThree (ht : 128 = w * t.length) (hrt : ReadsRt t) (hs : t.length = s.length)
    (hc : Composes t (fun _ => t) s) (hc' : Composes s (fun _ => t) (identity .rt t.length)) (a : Uqword) :
    OrderThree (σ := σ) (fun inst d => reorder inst d w t) a := by
  have hlen : t.length = (identity Operand.rt t.length).length := by rw [identity, List.length_map, List.length_range]
  have hback : shuffle w t (fun _ => shuffle w t (fun _ => shuffle w t (fun _ => a) 0) 0) 0 = a := by
    rw [shuffle_rt ht ht hs hc, shuffle_rt (hs ▸ ht) ht (hs ▸ hlen) hc', shuffle_identity ht]
  refine ⟨_, _, fun x => gives_rt ht hrt x a, fun x => gives_rt ht hrt x _, fun x => ?_⟩
  have hgives := gives_rt (σ := σ) ht hrt x (shuffle w t (fun _ => shuffle w t (fun _ => a) 0) 0)
  rwa [hback] at hgives

/-! ### Interleaving -/

/-- The upper halfwords of `Rs`, twice. -/
def upperHwords : Table Operand := [(.rs, 4), (.rs, 5), (.rs, 6), (.rs, 7), (.rs, 4), (.rs, 5), (.rs, 6), (.rs, 7)]

/-- `PINTH` is `PEXTLH` of the upper half of `Rs`, as `PCPYUD` gives it, and `Rt`. -/
theorem gives_pinth (a b : Uqword) :
    ∃ u q, Gives (σ := σ) pcpyud a a u ∧ Gives (σ := σ) pextlh u b q ∧ Gives (σ := σ) pinth a b q := by
  have hupper : shuffle 64 Elements.pcpyud (values a a) 0 = shuffle 16 upperHwords (values a b) 0 := by
    have hvalues : values a a = fun i => values a b ((fun _ => Operand.rs) i) := by
      funext i
      cases i <;> rfl
    have hsplit : Splits 4 (rename (fun _ => Operand.rs) Elements.pcpyud) upperHwords := by decide
    have hn : 128 = 16 * upperHwords.length := rfl
    rw [hvalues, ← shuffle_rename]
    exact shuffle_split (w := 16) (c := 4) hsplit (by decide) hn rfl (values a b) 0 0
  have hlower : shuffle 16 (identity .rt 8) (values a b) 0 = b :=
    shuffle_identity (w := 16) (m := 8) rfl Operand.rt (values a b) 0
  have hpinth : shuffle 16 Elements.pextlh (values (shuffle 64 Elements.pcpyud (values a a) 0) b) 0 =
      shuffle 16 Elements.pinth (values a b) 0 := by
    have hcomposes : Composes Elements.pextlh (fun | .rs => upperHwords | .rt => identity .rt 8) Elements.pinth := by
      decide
    have hshuffle := shuffle_values (w := 16) hcomposes rfl rfl rfl rfl (values a b)
    rwa [← hupper, hlower] at hshuffle
  refine ⟨_, _, gives_reorder rfl a a, gives_reorder rfl _ b, ?_⟩
  rw [hpinth]
  exact gives_reorder rfl a b

/-- `PINTEH` is `PEXTLH` of the even halfwords, as `PPACH` gives them, whatever else `PPACH` packs. -/
theorem gives_pinteh (x a b : Uqword) :
    ∃ p p' q, Gives (σ := σ) ppach x a p ∧ Gives (σ := σ) ppach x b p' ∧ Gives (σ := σ) pextlh p p' q ∧
      Gives (σ := σ) pinteh a b q := by
  let y : Option Operand → Uqword
    | none => x
    | some i => values a b i
  let packed (i : Operand) : Operand → Option Operand
    | .rs => none
    | .rt => some i
  have hpacked (i : Operand) : shuffle 16 Elements.ppach (values x (values a b i)) 0 =
      shuffle 16 (rename (packed i) Elements.ppach) y 0 := by
    rw [shuffle_rename]
    refine shuffle_congr_operands (fun e _ => ?_) 0
    rcases e with ⟨_ | _, _⟩ <;> rfl
  have hpinteh : shuffle 16 Elements.pextlh
      (values (shuffle 16 Elements.ppach (values x a) 0) (shuffle 16 Elements.ppach (values x b) 0)) 0 =
      shuffle 16 Elements.pinteh (values a b) 0 := by
    have hcomposes : Composes Elements.pextlh
        (fun | .rs => rename (packed .rs) Elements.ppach | .rt => rename (packed .rt) Elements.ppach)
        (rename some Elements.pinteh) := by decide
    have hrs : shuffle 16 Elements.ppach (values x a) 0 = _ := hpacked .rs
    have hrt : shuffle 16 Elements.ppach (values x b) 0 = _ := hpacked .rt
    rw [hrs, hrt, shuffle_values hcomposes rfl rfl rfl rfl y, shuffle_rename]
  refine ⟨_, _, _, gives_reorder rfl x a, gives_reorder rfl x b, gives_reorder rfl _ _, ?_⟩
  rw [hpinteh]
  exact gives_reorder rfl a b

/-- For all operands, in whatever registers: the packing instructions give back what the extending ones interleave, the
exchanging and reversing ones undo themselves, `PROT3W` does so after three times, and the interleaving ones are made of the
others. -/
theorem reordering_back (a b x : Uqword) :
    (PacksBack (σ := σ) 8 8 pextlb pextub ppacb a b ∧ PacksBack (σ := σ) 16 4 pextlh pextuh ppach a b ∧
      PacksBack (σ := σ) 32 2 pextlw pextuw ppacw a b) ∧
    (Involution (σ := σ) pexeh a ∧ Involution (σ := σ) pexew a ∧ Involution (σ := σ) pexch a ∧
      Involution (σ := σ) pexcw a ∧ Involution (σ := σ) prevh a) ∧
    OrderThree (σ := σ) prot3w a ∧
    (∃ u q, Gives (σ := σ) pcpyud a a u ∧ Gives (σ := σ) pextlh u b q ∧ Gives (σ := σ) pinth a b q) ∧
    ∃ p p' q, Gives (σ := σ) ppach x a p ∧ Gives (σ := σ) ppach x b p' ∧ Gives (σ := σ) pextlh p p' q ∧
      Gives (σ := σ) pinteh a b q := by
  refine ⟨⟨?_, ?_, ?_⟩, ⟨?_, ?_, ?_, ?_, ?_⟩, ?_, gives_pinth a b, gives_pinteh x a b⟩
  · exact packsBack (m := 16) ⟨by decide, rfl, by decide, by decide⟩ rfl a b
  · exact packsBack (m := 8) ⟨by decide, rfl, by decide, by decide⟩ rfl a b
  · exact packsBack (m := 4) ⟨by decide, rfl, by decide, by decide⟩ rfl a b
  · exact involution rfl (by decide) (by decide) a
  · exact involution rfl (by decide) (by decide) a
  · exact involution rfl (by decide) (by decide) a
  · exact involution rfl (by decide) (by decide) a
  · exact involution rfl (by decide) (by decide) a
  · exact orderThree (w := 32) (t := Elements.prot3w) (s := [(.rt, 2), (.rt, 0), (.rt, 1), (.rt, 3)]) rfl (by decide) rfl
      (by decide) (by decide) a

end R5900

end Orbum
