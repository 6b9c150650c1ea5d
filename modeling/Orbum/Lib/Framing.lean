import Mathlib.Data.List.Induction
import Mathlib.Data.List.ModifyLast
import Mathlib.Tactic.Common

/-!
# Framing

Blocks on a queue: a tag, and behind it the items that it announces. The sender and the receiver each count the items
that are still to come of the last tag they have seen. What is on the queue then tells the receiver nothing wrong: it
finds a tag where it looks for one, and items where it looks for these, however sends and receives are interleaved.

`InFlight` is the invariant of the queue. Behind what is on the way there may be padding, too short to be read as a tag,
if nothing follows it.
-/

namespace Orbum.Framing

variable {τ α β γ : Type}

/-! ### Blocks -/

/-- A tag with the items behind it. -/
@[ext]
structure Block (τ α : Type) where
  /-- The tag. -/
  tag : τ
  /-- The items. -/
  items : List α
  deriving DecidableEq

/-- What stands on the queue. -/
inductive Symbol (τ α : Type) where
  /-- A tag. -/
  | tag (t : τ)
  /-- An item. -/
  | item (a : α)

/-- A block, symbol by symbol. -/
def Block.symbols (b : Block τ α) : List (Symbol τ α) := .tag b.tag :: b.items.map .item

/-- The block with a function applied to its tag, and some items in place of each. -/
def Block.expand {τ' : Type} (f : τ → τ') (g : α → List γ) (b : Block τ α) : Block τ' γ := ⟨f b.tag, b.items.flatMap g⟩

/-- Blocks, symbol by symbol. -/
def symbols (bs : List (Block τ α)) : List (Symbol τ α) := bs.flatMap Block.symbols

/-- More items for the last block. -/
def addItems (bs : List (Block τ α)) (as : List α) : List (Block τ α) :=
  bs.modifyLast fun b => { b with items := b.items ++ as }

@[simp] theorem symbols_nil : symbols ([] : List (Block τ α)) = [] := rfl

@[simp] theorem symbols_cons (b : Block τ α) (bs : List (Block τ α)) : symbols (b :: bs) = b.symbols ++ symbols bs := rfl

theorem symbols_concat (bs : List (Block τ α)) (b : Block τ α) : symbols (bs ++ [b]) = symbols bs ++ b.symbols := by
  simp [symbols]

@[simp] theorem addItems_nil (as : List α) : addItems ([] : List (Block τ α)) as = [] := rfl

theorem addItems_concat (bs : List (Block τ α)) (b : Block τ α) (as : List α) :
    addItems (bs ++ [b]) as = bs ++ [{ b with items := b.items ++ as }] := List.modifyLast_concat _ b bs

variable {bs received sent : List (Block τ α)} {as as' : List α}

/-- The tags stay. -/
theorem map_tag_addItems (bs : List (Block τ α)) (as : List α) : (addItems bs as).map Block.tag = bs.map Block.tag := by
  rcases List.eq_nil_or_concat bs with rfl | ⟨bs', b, rfl⟩
  · rfl
  · rw [List.concat_eq_append, addItems_concat, List.map_append, List.map_append]
    rfl

/-- What holds of the tags with more items holds of them. -/
theorem forall_tag_of_addItems {P : τ → Prop} (h : ∀ b ∈ addItems bs as, P b.tag) : ∀ b ∈ bs, P b.tag := by
  have htags : ∀ t ∈ (addItems bs as).map Block.tag, P t := List.forall_mem_map.mpr h
  rw [map_tag_addItems] at htags
  exact List.forall_mem_map.mp htags

theorem expand_addItems {τ' : Type} (f : τ → τ') (g : α → List γ) (bs : List (Block τ α)) (as : List α) :
    (addItems bs as).map (Block.expand f g) = addItems (bs.map (Block.expand f g)) (as.flatMap g) := by
  rcases List.eq_nil_or_concat bs with rfl | ⟨bs', b, rfl⟩
  · rfl
  · rw [List.concat_eq_append, addItems_concat, List.map_append, List.map_append, List.map_singleton, List.map_singleton,
      addItems_concat, Block.expand, Block.expand, List.flatMap_append]

theorem symbols_addItems (hne : bs ≠ []) (as : List α) : symbols (addItems bs as) = symbols bs ++ as.map .item := by
  obtain ⟨bs', b, rfl⟩ := (List.eq_nil_or_concat bs).resolve_left hne
  rw [List.concat_eq_append, addItems_concat, symbols_concat, symbols_concat, Block.symbols, Block.symbols, List.map_append,
    ← List.cons_append, List.append_assoc]

theorem length_symbols_concat (bs : List (Block τ α)) (t : τ) :
    (symbols (bs ++ [⟨t, []⟩])).length = (symbols bs).length + 1 := by
  rw [symbols_concat, List.length_append]
  rfl

theorem length_symbols_addItem (hne : bs ≠ []) (a : α) : (symbols (addItems bs [a])).length = (symbols bs).length + 1 := by
  rw [symbols_addItems hne, List.length_append]
  rfl

/-- What has arrived of the blocks that were sent: one after the other, and of the last one the items so far. -/
inductive Arrived : List (Block τ α) → List (Block τ α) → Prop where
  /-- Nothing. -/
  | nil (sent : List (Block τ α)) : Arrived [] sent
  /-- The items so far of one block. -/
  | last {b b' : Block τ α} (sent : List (Block τ α)) : b.tag = b'.tag → b.items <+: b'.items → Arrived [b] (b' :: sent)
  /-- A block, and what comes behind it. -/
  | cons {received sent : List (Block τ α)} (b : Block τ α) : Arrived received sent → Arrived (b :: received) (b :: sent)

/-- The tags arrive in order. -/
theorem Arrived.tags (h : Arrived received sent) : received.map Block.tag <+: sent.map Block.tag := by
  induction h with
  | nil sent => exact List.nil_prefix
  | last sent htag _ =>
    rw [List.map_cons, List.map_cons, htag]
    exact List.prefix_append _ _
  | cons b _ ih => exact List.prefix_cons_inj _ |>.mpr ih

/-- Items before a tag or the end are all items before a tag. -/
theorem items_of_isPrefix {r s : List (Symbol τ α)} (hr : ∀ a r', r ≠ .item a :: r') (hs : ∀ a s', s ≠ .item a :: s')
    (h : as.map .item ++ r <+: as'.map .item ++ s) : as <+: as' ∧ (r ≠ [] → as = as' ∧ r <+: s) := by
  induction as generalizing as' with
  | nil =>
    cases as' with
    | nil => exact ⟨⟨[], rfl⟩, fun _ => ⟨rfl, h⟩⟩
    | cons a' as' =>
      refine ⟨⟨a' :: as', rfl⟩, fun hne => ?_⟩
      obtain ⟨x, r', rfl⟩ := List.exists_cons_of_ne_nil hne
      obtain ⟨hx, -⟩ := List.cons_prefix_cons.mp h
      exact absurd (congrArg (· :: r') hx) (hr a' r')
  | cons a as ih =>
    cases as' with
    | nil =>
      obtain ⟨t, ht⟩ := h
      exact absurd ht.symm (hs a _)
    | cons a' as' =>
      obtain ⟨ha, hrest⟩ := List.cons_prefix_cons.mp h
      obtain rfl := Symbol.item.inj ha
      obtain ⟨hitems, hall⟩ := ih hrest
      exact ⟨List.cons_prefix_cons.mpr ⟨rfl, hitems⟩, fun hne => ⟨congrArg _ (hall hne).1, (hall hne).2⟩⟩

theorem symbols_ne_item (bs : List (Block τ α)) (a : α) (s : List (Symbol τ α)) : symbols bs ≠ .item a :: s := by
  cases bs with
  | nil => exact (List.cons_ne_nil _ _).symm
  | cons b bs => simp [Block.symbols]

/-- The symbols tell what the blocks are. -/
theorem symbols_injective : Function.Injective (symbols : List (Block τ α) → List (Symbol τ α)) := by
  intro bs bs' h
  induction bs generalizing bs' with
  | nil =>
    cases bs' with
    | nil => rfl
    | cons b' bs' => cases h
  | cons b bs ih =>
    cases bs' with
    | nil => cases h
    | cons b' bs' =>
      obtain ⟨htag, hrest⟩ := List.cons.inj h
      have hle := (items_of_isPrefix (symbols_ne_item bs) (symbols_ne_item bs') ⟨[], by rw [List.append_nil]; exact hrest⟩).1
      have hge := (items_of_isPrefix (symbols_ne_item bs') (symbols_ne_item bs) ⟨[], by rw [List.append_nil]; exact hrest.symm⟩).1
      have hitems : b.items = b'.items := hle.eq_of_length_le hge.length_le
      rw [hitems] at hrest
      obtain rfl : b = b' := Block.ext (Symbol.tag.inj htag) hitems
      rw [ih (List.append_cancel_left hrest)]

section Placed

variable {ρ Λ : Type} (address : τ → ℕ → ρ) (loc : ρ → Λ)

/-- The items of each block, recorded with a location, are one behind the other, and `r` says where the next one is. -/
structure Placed (bs : List (Block τ (Λ × α))) (r : ρ) : Prop where
  /-- The locations. -/
  items : ∀ b ∈ bs, b.items.map Prod.fst = (List.range b.items.length).map fun j => loc (address b.tag j)
  /-- The next one. -/
  next : ∀ b ∈ bs.getLast?, r = address b.tag b.items.length

variable {address loc} {bs : List (Block τ (Λ × α))} {r r' : ρ}

theorem placed_nil (r : ρ) : Placed address loc ([] : List (Block τ (Λ × α))) r :=
  ⟨fun _ hb => absurd hb List.not_mem_nil, fun _ hb => nomatch hb⟩

/-- A block begins. -/
theorem Placed.concat (h : Placed address loc bs r) {t : τ} (hr : r' = address t 0) :
    Placed address loc (bs ++ [⟨t, []⟩]) r' where
  items b hb := by
    rcases List.mem_append.mp hb with hb | hb
    · exact h.items b hb
    · rw [List.mem_singleton.mp hb]
      rfl
  next b hb := by
    rw [List.getLast?_concat] at hb
    obtain rfl := Option.some.inj hb
    exact hr

/-- An item goes where the next one is. -/
theorem Placed.addItem (h : Placed address loc bs r) (hne : bs ≠ []) (hr : ∀ t n, r = address t n → r' = address t (n + 1))
    (a : α) : Placed address loc (addItems bs [(loc r, a)]) r' := by
  obtain ⟨bs, b, rfl⟩ := (List.eq_nil_or_concat bs).resolve_left hne
  rw [List.concat_eq_append] at h ⊢
  have hnext : r = address b.tag b.items.length := h.next b (by rw [List.getLast?_concat]; rfl)
  rw [addItems_concat]
  refine ⟨fun c hc => ?_, fun c hc => ?_⟩
  · rcases List.mem_append.mp hc with hc | hc
    · exact h.items c (List.mem_append_left _ hc)
    · rw [List.mem_singleton.mp hc, List.map_append, List.length_append, List.length_singleton, List.range_succ,
        List.map_append, h.items b List.mem_concat_self, hnext]
      rfl
  · rw [List.getLast?_concat] at hc
    obtain rfl := Option.some.inj hc
    rw [List.length_append, List.length_singleton]
    exact hr _ _ hnext

end Placed

/-! ### Counting the items to come -/

section Count

variable (len : τ → ℕ)

/-- The items to come after a symbol, `none` if it is not one that can come. -/
def next : ℕ → Symbol τ α → Option ℕ
  | 0, .tag t => some (len t)
  | n + 1, .item _ => some n
  | _, _ => none

/-- The items to come after symbols that begin with a tag. -/
def left (s : List (Symbol τ α)) : Option ℕ := s.foldlM (next len) 0

variable {len} {r s : List (Symbol τ α)} {x : Symbol τ α} {m n : ℕ}

theorem left_append : left len (r ++ s) = (left len r).bind fun n => s.foldlM (next len) n := List.foldlM_append

theorem foldlM_items (as : List α) (hle : as.length ≤ n) :
    (as.map Symbol.item).foldlM (next len) n = some (n - as.length) := by
  induction as generalizing n with
  | nil => rfl
  | cons a as ih =>
    rw [List.length_cons] at hle
    obtain ⟨n, rfl⟩ : ∃ n', n = n' + 1 := ⟨n - 1, by omega⟩
    rw [List.map_cons, List.foldlM_cons, next, Option.bind_eq_bind, Option.bind_some, ih (by omega), List.length_cons,
      Nat.add_sub_add_right]

theorem add_eq_of_foldlM_items {as : List α} (h : (as.map Symbol.item).foldlM (next len) m = some n) : as.length + n = m := by
  induction as generalizing m with
  | nil => exact (Nat.zero_add n).trans (Option.some.inj h).symm
  | cons a as ih =>
    cases m with
    | zero => cases h
    | succ m => rw [List.length_cons, Nat.add_right_comm, ih h]

theorem left_append_items (h : left len s = some n) (hle : as.length ≤ n) :
    left len (s ++ as.map .item) = some (n - as.length) := by
  rw [left_append, h, Option.bind_some, foldlM_items as hle]

/-- Where symbols that can come go on. -/
theorem next_of_left (h : left len (r ++ x :: s) = some n) (hr : left len r = some m) : (next len m x).isSome := by
  rw [left_append, hr, Option.bind_some, List.foldlM_cons] at h
  obtain ⟨k, hk, -⟩ := Option.bind_eq_some_iff.mp h
  rw [hk]
  rfl

/-- When no items are to come, what comes is a tag. -/
theorem exists_tag (h : left len (r ++ x :: s) = some n) (hr : left len r = some 0) : ∃ t, x = .tag t := by
  have hx := next_of_left h hr
  cases x with
  | tag t => exact ⟨t, rfl⟩
  | item a => simp [next] at hx

/-- When items are to come, what comes is one. -/
theorem exists_item (h : left len (r ++ x :: s) = some n) (hr : left len r = some (m + 1)) : ∃ a, x = .item a := by
  have hx := next_of_left h hr
  cases x with
  | tag t => simp [next] at hx
  | item a => exact ⟨a, rfl⟩

/-- The items to come of the last block. -/
theorem left_concat_block {b : Block τ α} :
    left len (symbols (bs ++ [b])) = some n ↔ left len (symbols bs) = some 0 ∧ b.items.length + n = len b.tag := by
  rw [symbols_concat, Block.symbols, left_append]
  constructor
  · intro h
    obtain ⟨m, hm, h⟩ := Option.bind_eq_some_iff.mp h
    cases m with
    | succ m => cases h
    | zero =>
      refine ⟨hm, ?_⟩
      change (b.items.map Symbol.item).foldlM (next len) (len b.tag) = some n at h
      exact add_eq_of_foldlM_items h
  · rintro ⟨hzero, hn⟩
    rw [hzero]
    change (b.items.map Symbol.item).foldlM (next len) (len b.tag) = some n
    rw [← hn, foldlM_items b.items (Nat.le_add_right _ _), Nat.add_sub_cancel_left]

/-- Items come only behind a tag. -/
theorem ne_nil_of_left (h : left len (symbols bs) = some n) (hn : 0 < n) : bs ≠ [] := by
  rintro rfl
  obtain rfl := Option.some.inj h
  omega

theorem left_addItems (h : left len (symbols bs) = some (as.length + n)) :
    left len (symbols (addItems bs as)) = some n := by
  rcases List.eq_nil_or_concat bs with rfl | ⟨bs', b, rfl⟩
  · have hzero := Option.some.inj h
    rw [addItems_nil, show n = 0 by omega]
    rfl
  · rw [List.concat_eq_append] at h ⊢
    rw [addItems_concat, left_concat_block, List.length_append]
    obtain ⟨hbs, hb⟩ := left_concat_block.mp h
    exact ⟨hbs, by rwa [Nat.add_assoc]⟩

/-- Blocks that a function makes of whole ones are whole. -/
theorem left_map_zero {τ' α' : Type} {len' : τ' → ℕ} {f : Block τ α → Block τ' α'}
    (hf : ∀ b ∈ bs, b.items.length = len b.tag → (f b).items.length = len' (f b).tag)
    (h : left len (symbols bs) = some 0) : left len' (symbols (bs.map f)) = some 0 := by
  induction bs using List.reverseRecOn with
  | nil => rfl
  | append_singleton bs b ih =>
    obtain ⟨hbs, hb⟩ := left_concat_block.mp h
    rw [List.map_append, List.map_singleton, left_concat_block]
    exact ⟨ih (fun b hb => hf b (List.mem_append_left _ hb)) hbs, hf b List.mem_concat_self hb⟩

theorem length_flatMap {g : α → List γ} {k : ℕ} (hg : ∀ a, (g a).length = k) (as : List α) :
    (as.flatMap g).length = as.length * k := by
  simp only [List.length_flatMap, hg, List.map_const', List.sum_replicate_nat]

/-- With `k` items in place of each, `k` times as many are to come. -/
theorem left_expand {τ' : Type} {len' : τ' → ℕ} {f : τ → τ'} {g : α → List γ} {k : ℕ} (hg : ∀ a, (g a).length = k)
    (hlen : ∀ b ∈ bs, len' (f b.tag) = len b.tag * k) (h : left len (symbols bs) = some n) :
    left len' (symbols (bs.map (Block.expand f g))) = some (n * k) := by
  rcases List.eq_nil_or_concat bs with rfl | ⟨bs', b, rfl⟩
  · rw [← Option.some.inj h, Nat.zero_mul]
    rfl
  · rw [List.concat_eq_append] at h hlen ⊢
    obtain ⟨hzero, hb⟩ := left_concat_block.mp h
    rw [List.map_append, List.map_singleton, left_concat_block, Block.expand, length_flatMap hg, ← Nat.add_mul, hb]
    refine ⟨left_map_zero (fun b' hb' hwhole => ?_) hzero, (hlen b List.mem_concat_self).symm⟩
    rw [Block.expand, length_flatMap hg, hwhole]
    exact (hlen b' (List.mem_append_left _ hb')).symm

end Count

/-! ### The queue -/

variable {enc : Symbol τ α → List β} {len : τ → ℕ} {r s : List (Symbol τ α)} {queue padding packet : List β} {m n w : ℕ}

/-- Of the symbols `s` that were sent `r` have been taken. The others are on the queue, and behind them is padding. -/
def InFlight (enc : Symbol τ α → List β) (s r : List (Symbol τ α)) (queue padding : List β) : Prop :=
  ∃ waiting, s = r ++ waiting ∧ queue = waiting.flatMap enc ++ padding

theorem InFlight.send (h : InFlight enc s r queue []) (xs : List (Symbol τ α)) :
    InFlight enc (s ++ xs) r (queue ++ xs.flatMap enc) [] := by
  obtain ⟨waiting, hs, hqueue⟩ := h
  refine ⟨waiting ++ xs, ?_, ?_⟩
  · rw [hs, List.append_assoc]
  · rw [hqueue, List.append_nil, List.append_nil, List.flatMap_append]

theorem InFlight.pad (h : InFlight enc s r queue padding) (bs : List β) :
    InFlight enc s r (queue ++ bs) (padding ++ bs) := by
  obtain ⟨waiting, hs, hqueue⟩ := h
  exact ⟨waiting, hs, by rw [hqueue, List.append_assoc]⟩

/-- The receiver takes what is a symbol on the queue. -/
theorem InFlight.take {x : Symbol τ α} {waiting : List (Symbol τ α)} (hlen : packet.length = (enc x).length)
    (hs : s = r ++ x :: waiting) (hqueue : packet ++ queue = (x :: waiting).flatMap enc ++ padding) :
    packet = enc x ∧ InFlight enc s (r ++ [x]) queue padding := by
  rw [List.flatMap_cons, List.append_assoc] at hqueue
  obtain ⟨hpacket, hrest⟩ := List.append_inj hqueue hlen
  exact ⟨hpacket, waiting, by rw [hs, List.append_cons], hrest⟩

/-- A receiver that looks for a tag takes one. -/
theorem InFlight.takeTag (h : InFlight enc s r (packet ++ queue) padding) (hs : left len s = some n)
    (hr : left len r = some 0) (hlen : ∀ t, packet.length = (enc (.tag t)).length)
    (hpadding : padding.length < packet.length) :
    ∃ t, packet = enc (.tag t) ∧ InFlight enc s (r ++ [.tag t]) queue padding := by
  obtain ⟨waiting, hs', hqueue⟩ := h
  cases waiting with
  | nil =>
    have hle := congrArg List.length hqueue
    rw [List.flatMap_nil, List.nil_append, List.length_append] at hle
    omega
  | cons x waiting =>
    obtain ⟨t, rfl⟩ := exists_tag (hs' ▸ hs) hr
    exact ⟨t, take (hlen t) hs' hqueue⟩

/-- A receiver that looks for items takes them. -/
theorem InFlight.takeItems (hw : 0 < w) (hitem : ∀ a, (enc (.item a)).length = w) (hs : left len s = some n)
    (hpadding : 0 < n → padding = []) {k : ℕ} (h : InFlight enc s r (packet ++ queue) padding)
    (hr : left len r = some m) (hk : k ≤ m) (hlen : packet.length = k * w) :
    ∃ as : List α, as.length = k ∧ packet = as.flatMap (enc ∘ .item) ∧ InFlight enc s (r ++ as.map .item) queue padding := by
  induction k generalizing packet r m with
  | zero =>
    obtain rfl : packet = [] := List.eq_nil_of_length_eq_zero (by omega)
    exact ⟨[], rfl, rfl, by rwa [List.map_nil, List.append_nil]⟩
  | succ k ih =>
    obtain ⟨m, rfl⟩ : ∃ m', m = m' + 1 := ⟨m - 1, by omega⟩
    rw [Nat.add_mul, Nat.one_mul] at hlen
    obtain ⟨waiting, hs', hqueue⟩ := h
    cases waiting with
    | nil =>
      -- everything has been taken, so that the sender has as many items to send as the receiver looks for
      rw [List.append_nil] at hs'
      obtain rfl : n = m + 1 := Option.some.inj (hs.symm.trans (hs' ▸ hr))
      have hnil := congrArg List.length (hpadding (Nat.succ_pos m))
      have hle := congrArg List.length hqueue
      rw [List.flatMap_nil, List.nil_append, List.length_append] at hle
      rw [List.length_nil] at hnil
      omega
    | cons x waiting =>
      obtain ⟨a, rfl⟩ := exists_item (hs' ▸ hs) hr
      have hfirst : (packet.take w).length = (enc (.item a)).length := by
        rw [hitem, List.length_take]
        omega
      have hsplit : packet.take w ++ (packet.drop w ++ queue) = packet ++ queue := by
        rw [← List.append_assoc, List.take_append_drop]
      obtain ⟨hpacket, hflight⟩ := take hfirst hs' (hsplit.trans hqueue)
      have hleft : left len (r ++ [a].map .item) = some m := left_append_items hr (Nat.succ_pos m)
      have hrest : (packet.drop w).length = k * w := by
        rw [List.length_drop]
        omega
      obtain ⟨as, has, hdrop, hflight⟩ := ih hflight hleft (Nat.le_of_succ_le_succ hk) hrest
      refine ⟨a :: as, congrArg _ has, ?_, ?_⟩
      · rw [List.flatMap_cons, ← hdrop, Function.comp, ← hpacket, List.take_append_drop]
      · rwa [List.append_assoc] at hflight

/-! ### What is on the way -/

/-- The items that are to come are among the symbols that bring them. -/
theorem le_of_foldlM (hitem : ∀ a, (enc (.item a)).length = w) {waiting : List (Symbol τ α)}
    (h : waiting.foldlM (next len) m = some 0) : m * w ≤ (waiting.flatMap enc).length := by
  induction waiting generalizing m with
  | nil =>
    obtain rfl := Option.some.inj h
    rw [Nat.zero_mul]
    exact Nat.zero_le _
  | cons x waiting ih =>
    obtain ⟨m', hm', hrest⟩ := Option.bind_eq_some_iff.mp h
    cases m with
    | zero =>
      rw [Nat.zero_mul]
      exact Nat.zero_le _
    | succ m =>
      cases x with
      | tag t => cases hm'
      | item a =>
        obtain rfl := Option.some.inj hm'
        have hle := ih hrest
        rw [List.flatMap_cons, List.length_append, hitem, Nat.succ_mul]
        omega

/-- When the sender has sent all that belongs to its tags, and the receiver does not find on the queue what it looks for,
it has received everything. -/
theorem InFlight.all_received (h : InFlight enc s r queue padding) (hs : left len s = some 0) (hr : left len r = some m)
    (hitem : ∀ a, (enc (.item a)).length = w) (hitems : 0 < m → queue.length < m * w)
    (htag : m = 0 → ∀ t, queue.length < (enc (.tag t)).length) : r = s := by
  obtain ⟨waiting, hs', hqueue⟩ := h
  have hlength : queue.length = (waiting.flatMap enc).length + padding.length := by rw [hqueue, List.length_append]
  rw [hs', left_append, hr, Option.bind_some] at hs
  rcases Nat.eq_zero_or_pos m with rfl | hm
  · cases waiting with
    | nil => rw [hs', List.append_nil]
    | cons x waiting =>
      obtain ⟨t, rfl⟩ : ∃ t, x = .tag t := by
        cases x with
        | tag t => exact ⟨t, rfl⟩
        | item a => cases hs
      have hlt := htag rfl t
      rw [hlength, List.flatMap_cons, List.length_append] at hlt
      omega
  · have hle := le_of_foldlM hitem hs
    have hlt := hitems hm
    omega

end Orbum.Framing
