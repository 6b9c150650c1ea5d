import Orbum.Common.Primitive
import Orbum.Lib.LittleEndian
import Orbum.Lib.Machine

/-!
# `vsnprintf_list_convert`

The function of `Utilities/Utilities.cpp` that prints what the IOP hands to `ksprintf`: it copies the format string and,
at a `%`, looks for the specifier of the conversion and has it printed with the next argument.

## The model

An iterator is how far it is into the format string, and the function is a machine whose states are those of its two
loops. To read at the end of the string or to go past it is a failure of its own, beside those that are thrown. What
prints an argument and what converts a pointer are parameters, which may throw. The arguments are bytes that there are
enough of.

## What is proved

`convertEnds_iff`: the function returns or throws, and goes past the end nowhere, unless the string ends in a `%` that
begins a conversion and all before it is printed.
-/

namespace Orbum

/-- An exception, which may be one of those of what the function calls. -/
inductive ConvertError (ε : Type) where
  /-- A `std::runtime_error` with its message. -/
  | runtimeError (what : String)
  /-- Another. -/
  | other (e : ε)

/-- How the function ends when it does not return. -/
inductive ConvertFault (ε : Type) where
  /-- It throws. -/
  | throws (e : ConvertError ε)
  /-- It has used an iterator past the end of the string. -/
  | pastEnd

/-- What the function calls. -/
structure ConvertHost (ε : Type) where
  /-- `boost::format(spec) % value` of a word. -/
  formatWord : List Char → Uword → Except ε (List Char)
  /-- `boost::format(spec) % value` of a doubleword. -/
  formatDword : List Char → Udword → Except ε (List Char)
  /-- `boost::format(spec) % host_pointer`. -/
  formatPointer : List Char → Udword → Except ε (List Char)
  /-- `convert_pointer_fn(guest_pointer)`. -/
  convertPointerFn : Uptr → Except ε Udword

/-- What is done at a specifier. -/
inductive Specifier where
  /-- It throws. -/
  | n
  /-- A pointer, which is printed as it is. -/
  | p
  /-- A word. -/
  | word
  /-- A doubleword. -/
  | dword
  /-- A string. -/
  | s
  deriving DecidableEq

/-- The cases of `switch (specifier_type)`. -/
def specifierOf (c : Char) : Option Specifier :=
  if c = 'n' then some .n
  else if c = 'p' then some .p
  else if c ∈ ['i', 'd', 'u', 'o', 'x', 'X', 'c'] then some .word
  else if c ∈ ['f', 'F', 'e', 'E', 'g', 'G', 'a', 'A'] then some .dword
  else if c = 's' then some .s
  else none

/-- Where the function is. -/
inductive ConvertState where
  /-- At the test of the loop over the string. -/
  | scan (it1 pos : ℕ) (buffer : List Char)
  /-- At the beginning of a round of the search for a specifier. -/
  | search (it1 it2 pos : ℕ) (buffer : List Char)
  /-- It has returned. -/
  | returned (buffer : List Char)

namespace Vsnprintf

variable {ε : Type}

/-- What a called function throws is thrown. -/
def called {α : Type} (x : Except ε α) : Except (ConvertFault ε) α := x.mapError fun e => .throws (.other e)

/-- `*reinterpret_cast<const Ty*>(args_list + pos)` of a type of `n` bytes. -/
def readArg (w n : ℕ) (argsList : ℕ → Ubyte) (pos : ℕ) : BitVec w :=
  LittleEndian.ofBytes w ((List.range n).map fun i => argsList (pos + i))

/-- What is printed for a specifier, and how far the arguments are moved on. -/
def printArg (H : ConvertHost ε) (argsList : ℕ → Ubyte) (spec : List Char) (pos : ℕ) :
    Specifier → Except (ConvertFault ε) (List Char × ℕ)
  | .n => .error (.throws (.runtimeError "%n not handled yet."))
  | .p | .word => do
    let text ← called (H.formatWord spec (readArg 32 4 argsList pos))
    return (text, 4)
  | .dword => do
    let text ← called (H.formatDword spec (readArg 64 8 argsList pos))
    return (text, 8)
  | .s => do
    let hostPointer ← called (H.convertPointerFn (readArg 32 4 argsList pos))
    let text ← called (H.formatPointer spec hostPointer)
    return (text, 4)

/-- `*it`. -/
def deref (formatStr : List Char) (it : ℕ) : Except (ConvertFault ε) Char := formatStr[it]?.elim (.error .pastEnd) .ok

/-- `it++`. -/
def advance (formatStr : List Char) (it : ℕ) : Except (ConvertFault ε) ℕ :=
  if it < formatStr.length then .ok (it + 1) else .error .pastEnd

variable (H : ConvertHost ε) (argsList : ℕ → Ubyte) (formatStr : List Char)

/-- One round of a loop. -/
def step : ConvertState → Except (ConvertFault ε) ConvertState
  | .scan it1 pos buffer =>
    if it1 = formatStr.length then .ok (.returned buffer)
    else do
      let currentChar ← deref formatStr it1
      let it2 ← advance formatStr it1
      if currentChar ≠ '%' then .ok (.scan it2 pos (buffer ++ [currentChar]))
      else do
        let nextChar ← deref formatStr it2
        if nextChar = '%' then do
          let it1 ← advance formatStr it2
          .ok (.scan it1 pos (buffer ++ ['%']))
        else .ok (.search it1 it2 pos buffer)
  | .search it1 it2 pos buffer => do
    let specifierType ← deref formatStr it2
    let next ← advance formatStr it2
    (specifierOf specifierType).elim
      (if next = formatStr.length then .error (.throws (.runtimeError "Specifier end not found, at end of string."))
        else .ok (.search it1 next pos buffer))
      fun kind => do
        let r ← printArg H argsList ((formatStr.drop it1).take (next - it1)) pos kind
        .ok (.scan next (pos + r.2) (buffer ++ r.1))
  | .returned buffer => .ok (.returned buffer)

/-- Where the function begins. -/
def start : ConvertState := .scan 0 0 []

/-- The function returns or throws, and goes past the end of the string nowhere. -/
def Ends : Prop :=
  ((∃ buffer, Machine.Leads (step H argsList formatStr) start (.ok (.returned buffer))) ∨
    ∃ e, Machine.Leads (step H argsList formatStr) start (.error (.throws e))) ∧
  ¬Machine.Leads (step H argsList formatStr) start (.error .pastEnd)

end Vsnprintf

/-! ### Format strings -/

/-- What a format string is made of. -/
inductive FormatItem where
  /-- A character that stands for itself. -/
  | literal (c : Char)
  /-- `%%`. -/
  | percent
  /-- A conversion, from what is between its `%` and its specifier. -/
  | conversion (body : List Char) (specifier : Char)
  deriving DecidableEq

namespace FormatItem

/-- How the item is written. -/
def text : FormatItem → List Char
  | literal c => [c]
  | percent => ['%', '%']
  | conversion body specifier => '%' :: (body ++ [specifier])

/-- The item is what it is read as. -/
def WellFormed : FormatItem → Prop
  | literal c => c ≠ '%'
  | percent => True
  | conversion body specifier =>
    body.head? ≠ some '%' ∧ (∀ c ∈ body, specifierOf c = none) ∧ specifierOf specifier ≠ none

/-- What is printed for the item, and where the arguments are after it. -/
def convert {ε : Type} (H : ConvertHost ε) (argsList : ℕ → Ubyte) (pos : ℕ) (item : FormatItem) :
    Except (ConvertFault ε) (List Char × ℕ) :=
  match item with
  | literal c => .ok ([c], pos)
  | percent => .ok (['%'], pos)
  | conversion _ specifier =>
    (specifierOf specifier).elim (.ok ([], pos)) fun kind => do
      let r ← Vsnprintf.printArg H argsList item.text pos kind
      return (r.1, pos + r.2)

/-- Each of the items is printed. -/
def Printed {ε : Type} (H : ConvertHost ε) (argsList : ℕ → Ubyte) : List FormatItem → ℕ → Prop
  | [], _ => True
  | item :: items, pos => ∃ r, item.convert H argsList pos = .ok r ∧ Printed H argsList items r.2

end FormatItem

namespace Vsnprintf

/-- The string does not end in a `%` that the function comes to and that begins a conversion. -/
def Meets {ε : Type} (H : ConvertHost ε) (argsList : ℕ → Ubyte) (formatStr : List Char) : Prop :=
  ¬∃ items : List FormatItem, (∀ item ∈ items, item.WellFormed) ∧ FormatItem.Printed H argsList items 0 ∧
    formatStr = items.flatMap FormatItem.text ++ ['%']

variable {ε : Type} {H : ConvertHost ε} {argsList : ℕ → Ubyte} {formatStr pre rest buffer : List Char} {c : Char}
  {pos it1 : ℕ}

/-! ### Iterators -/

theorem deref_eq (h : formatStr = pre ++ c :: rest) :
    deref formatStr pre.length = (.ok c : Except (ConvertFault ε) Char) := by
  subst h
  rw [deref, List.getElem?_append_right (Nat.le_refl _), Nat.sub_self, List.getElem?_cons_zero]
  rfl

theorem deref_end : deref pre pre.length = (.error .pastEnd : Except (ConvertFault ε) Char) := by
  rw [deref, List.getElem?_eq_none (Nat.le_refl _)]
  rfl

theorem advance_eq (h : formatStr = pre ++ c :: rest) :
    advance formatStr pre.length = (.ok (pre ++ [c]).length : Except (ConvertFault ε) ℕ) := by
  subst h
  rw [advance, if_pos (by rw [List.length_append, List.length_cons]; omega), List.length_append]
  rfl

theorem length_ne (h : formatStr = pre ++ c :: rest) : pre.length ≠ formatStr.length := by
  subst h
  rw [List.length_append, List.length_cons]
  omega

/-- The same string with a character moved to what has been read. -/
theorem eq_snoc (h : formatStr = pre ++ c :: rest) : formatStr = (pre ++ [c]) ++ rest := by
  rw [h, List.append_assoc, List.singleton_append]

/-! ### Steps of the scan -/

theorem step_end : step H argsList formatStr (.scan formatStr.length pos buffer) = .ok (.returned buffer) := if_pos rfl

theorem step_literal (h : formatStr = pre ++ c :: rest) (hc : c ≠ '%') :
    step H argsList formatStr (.scan pre.length pos buffer) = .ok (.scan (pre ++ [c]).length pos (buffer ++ [c])) := by
  rw [step, if_neg (length_ne h), deref_eq h, ok_bind, advance_eq h, ok_bind, if_pos hc]

theorem step_percent (h : formatStr = pre ++ '%' :: '%' :: rest) :
    step H argsList formatStr (.scan pre.length pos buffer) =
      .ok (.scan (pre ++ ['%'] ++ ['%']).length pos (buffer ++ ['%'])) := by
  rw [step, if_neg (length_ne h), deref_eq h, ok_bind, advance_eq h, ok_bind, if_neg (not_not_intro rfl),
    deref_eq (eq_snoc h), ok_bind, if_pos rfl, advance_eq (eq_snoc h), ok_bind]

/-- `*(it1 + 1)` of a `%` that the string ends in. -/
theorem step_last (h : formatStr = pre ++ ['%']) :
    step H argsList formatStr (.scan pre.length pos buffer) = .error .pastEnd := by
  have hend := eq_snoc h
  rw [List.append_nil] at hend
  rw [step, if_neg (length_ne h), deref_eq h, ok_bind, advance_eq h, ok_bind, if_neg (not_not_intro rfl), ← hend,
    deref_end, error_bind]

theorem step_conversion (h : formatStr = pre ++ '%' :: c :: rest) (hc : c ≠ '%') :
    step H argsList formatStr (.scan pre.length pos buffer) =
      .ok (.search pre.length (pre ++ ['%']).length pos buffer) := by
  rw [step, if_neg (length_ne h), deref_eq h, ok_bind, advance_eq h, ok_bind, if_neg (not_not_intro rfl),
    deref_eq (eq_snoc h), ok_bind, if_neg hc]

/-! ### Steps of the search -/

theorem step_search_none (h : formatStr = pre ++ c :: rest) (hc : specifierOf c = none) (hrest : rest ≠ []) :
    step H argsList formatStr (.search it1 pre.length pos buffer) =
      .ok (.search it1 (pre ++ [c]).length pos buffer) := by
  have hne : (pre ++ [c]).length ≠ formatStr.length := by
    have hlength := congrArg List.length (eq_snoc h)
    rw [List.length_append] at hlength
    have hpos := List.length_pos_iff.mpr hrest
    omega
  rw [step, deref_eq h, ok_bind, advance_eq h, ok_bind, hc, Option.elim_none, if_neg hne]

theorem step_search_end (h : formatStr = pre ++ [c]) (hc : specifierOf c = none) :
    step H argsList formatStr (.search it1 pre.length pos buffer) =
      .error (.throws (.runtimeError "Specifier end not found, at end of string.")) := by
  rw [step, deref_eq h, ok_bind, advance_eq h, ok_bind, hc, Option.elim_none, if_pos (by rw [h])]

theorem step_search_some (h : formatStr = pre ++ c :: rest) {kind : Specifier} (hc : specifierOf c = some kind) :
    step H argsList formatStr (.search it1 pre.length pos buffer) = (do
      let r ← printArg H argsList ((formatStr.drop it1).take ((pre ++ [c]).length - it1)) pos kind
      .ok (.scan (pre ++ [c]).length (pos + r.2) (buffer ++ r.1))) := by
  rw [step, deref_eq h, ok_bind, advance_eq h, ok_bind, hc, Option.elim_some]

/-! ### Conversions -/

/-- The search passes what is no specifier. -/
theorem leads_search {body : List Char} (h : formatStr = pre ++ (body ++ c :: rest))
    (hbody : ∀ b ∈ body, specifierOf b = none) :
    Machine.Leads (step H argsList formatStr) (.search it1 pre.length pos buffer)
      (.ok (.search it1 (pre ++ body).length pos buffer)) := by
  induction body generalizing pre with
  | nil =>
    rw [List.append_nil]
    exact .refl _
  | cons b body ih =>
    have hrest := ih (eq_snoc h) fun a ha => hbody a (List.mem_cons_of_mem _ ha)
    rw [List.append_assoc, List.singleton_append] at hrest
    refine .head (step_search_none h (hbody b List.mem_cons_self) ?_) hrest
    exact List.append_ne_nil_of_right_ne_nil _ (List.cons_ne_nil _ _)

/-- It throws if there is nothing else. -/
theorem leads_search_end {body : List Char} (h : formatStr = pre ++ body) (hne : body ≠ [])
    (hbody : ∀ b ∈ body, specifierOf b = none) :
    ∃ e, Machine.Leads (step H argsList formatStr) (.search it1 pre.length pos buffer) (.error (.throws e)) := by
  obtain ⟨body, c, rfl⟩ := (List.eq_nil_or_concat body).resolve_left hne
  rw [List.concat_eq_append] at h hbody
  have hend : formatStr = (pre ++ body) ++ [c] := h.trans (List.append_assoc _ _ _).symm
  have hc := hbody c (List.mem_append_right _ (List.mem_singleton_self c))
  exact ⟨_, .trans (leads_search h fun b hb => hbody b (List.mem_append_left _ hb)) (.fail (step_search_end hend hc))⟩

theorem ne_percent (hc : specifierOf c ≠ none) : c ≠ '%' := by
  rintro rfl
  exact hc (by decide)

/-- The characters of an item, from the iterators around it. -/
theorem take_drop_text {text : List Char} (h : formatStr = pre ++ (text ++ rest)) :
    (formatStr.drop pre.length).take ((pre ++ text).length - pre.length) = text := by
  rw [h, List.drop_left, List.length_append, Nat.add_sub_cancel_left, List.take_left]

/-- From the `%` of a conversion to its specifier. -/
theorem leads_specifier {body : List Char} (h : formatStr = pre ++ ((FormatItem.conversion body c).text ++ rest))
    (hwf : (FormatItem.conversion body c).WellFormed) :
    Machine.Leads (step H argsList formatStr) (.scan pre.length pos buffer)
      (.ok (.search pre.length (pre ++ ['%'] ++ body).length pos buffer)) := by
  obtain ⟨hhead, hbody, hc⟩ := hwf
  have htext : formatStr = pre ++ '%' :: (body ++ c :: rest) := by
    rw [h, FormatItem.text, List.cons_append, List.append_assoc, List.singleton_append]
  refine .head ?_ (leads_search (eq_snoc htext) hbody)
  cases body with
  | nil => exact step_conversion htext (ne_percent hc)
  | cons b body => exact step_conversion htext fun hb => hhead (congrArg some hb)

theorem step_specifier {body : List Char} (h : formatStr = pre ++ ((FormatItem.conversion body c).text ++ rest))
    {kind : Specifier} (hc : specifierOf c = some kind) :
    step H argsList formatStr (.search pre.length (pre ++ ['%'] ++ body).length pos buffer) = (do
      let r ← printArg H argsList (FormatItem.conversion body c).text pos kind
      .ok (.scan (pre ++ (FormatItem.conversion body c).text).length (pos + r.2) (buffer ++ r.1))) := by
  have htext : pre ++ ['%'] ++ body ++ [c] = pre ++ (FormatItem.conversion body c).text := by
    rw [FormatItem.text, List.append_assoc, List.append_assoc, List.singleton_append]
  have hsplit : formatStr = (pre ++ ['%'] ++ body) ++ c :: rest := by
    rw [h, ← List.append_assoc, ← htext, List.append_assoc, List.singleton_append]
  rw [step_search_some hsplit hc, htext, take_drop_text h]

/-! ### Items -/

theorem leads_item {item : FormatItem} (hwf : item.WellFormed) (h : formatStr = pre ++ (item.text ++ rest))
    {r : List Char × ℕ} (hr : item.convert H argsList pos = .ok r) :
    Machine.Leads (step H argsList formatStr) (.scan pre.length pos buffer)
      (.ok (.scan (pre ++ item.text).length r.2 (buffer ++ r.1))) := by
  cases item with
  | literal c =>
    obtain rfl := Except.ok.inj hr
    exact .single (step_literal h hwf)
  | percent =>
    obtain rfl := Except.ok.inj hr
    have hstep : step H argsList formatStr (.scan pre.length pos buffer) = _ := step_percent h
    rw [List.append_assoc] at hstep
    exact .single hstep
  | conversion body c =>
    obtain ⟨kind, hkind⟩ := Option.ne_none_iff_exists'.mp hwf.2.2
    rw [FormatItem.convert, hkind, Option.elim_some] at hr
    obtain ⟨q, hq, hr⟩ := bind_eq_ok_iff.mp hr
    obtain rfl := Except.ok.inj hr
    refine .trans (leads_specifier h hwf) (.single ?_)
    rw [step_specifier h hkind, hq, ok_bind]

/-- What goes wrong in printing is thrown. -/
theorem printArg_error {spec : List Char} {kind : Specifier} {f : ConvertFault ε}
    (h : printArg H argsList spec pos kind = .error f) : ∃ e, f = .throws e := by
  have hcalled {α : Type} {x : Except ε α} (hx : called x = .error f) : ∃ e, f = .throws e := by
    cases x with
    | ok a => cases hx
    | error e => exact ⟨_, (Except.error.inj hx).symm⟩
  cases kind with
  | n => exact ⟨_, (Except.error.inj h).symm⟩
  | p | word | dword =>
    obtain hx | ⟨text, -, htext⟩ := bind_eq_error_iff.mp h
    · exact hcalled hx
    · cases htext
  | s =>
    obtain hx | ⟨hostPointer, -, h⟩ := bind_eq_error_iff.mp h
    · exact hcalled hx
    · obtain hx | ⟨text, -, htext⟩ := bind_eq_error_iff.mp h
      · exact hcalled hx
      · cases htext

/-- An item that is not printed makes the function throw. -/
theorem leads_item_error {item : FormatItem} (hwf : item.WellFormed) (h : formatStr = pre ++ (item.text ++ rest))
    {f : ConvertFault ε} (hf : item.convert H argsList pos = .error f) :
    ∃ e, Machine.Leads (step H argsList formatStr) (.scan pre.length pos buffer) (.error (.throws e)) := by
  cases item with
  | literal c => cases hf
  | percent => cases hf
  | conversion body c =>
    obtain ⟨kind, hkind⟩ := Option.ne_none_iff_exists'.mp hwf.2.2
    rw [FormatItem.convert, hkind, Option.elim_some] at hf
    obtain hprint | ⟨r, -, hr⟩ := bind_eq_error_iff.mp hf
    · obtain ⟨e, rfl⟩ := printArg_error hprint
      refine ⟨e, .trans (leads_specifier h hwf) (.fail ?_)⟩
      rw [step_specifier h hkind, hprint, error_bind]
    · cases hr

/-- The function comes to the end of items that are all printed. -/
theorem leads_items (buffer : List Char) {items : List FormatItem} (hwf : ∀ item ∈ items, item.WellFormed)
    (h : formatStr = pre ++ (items.flatMap FormatItem.text ++ rest))
    (hprinted : FormatItem.Printed H argsList items pos) :
    ∃ pos' buffer', Machine.Leads (step H argsList formatStr) (.scan pre.length pos buffer)
      (.ok (.scan (pre ++ items.flatMap FormatItem.text).length pos' buffer')) := by
  induction items generalizing pre pos buffer with
  | nil =>
    rw [List.flatMap_nil, List.append_nil]
    exact ⟨_, _, .refl _⟩
  | cons item items ih =>
    obtain ⟨r, hr, hprinted⟩ := hprinted
    rw [List.flatMap_cons, List.append_assoc] at h
    rw [List.flatMap_cons, ← List.append_assoc]
    have hitem : Machine.Leads (step H argsList formatStr) (.scan pre.length pos buffer) _ :=
      leads_item (hwf item List.mem_cons_self) h hr
    obtain ⟨pos', buffer', hrest⟩ := ih _ (fun i hi => hwf i (List.mem_cons_of_mem _ hi))
      (h.trans (List.append_assoc _ _ _).symm) hprinted
    exact ⟨pos', buffer', hitem.trans hrest⟩

/-- It throws at the first that is not. -/
theorem printed_or_throws (pos : ℕ) (buffer : List Char) {items : List FormatItem}
    (hwf : ∀ item ∈ items, item.WellFormed) (h : formatStr = pre ++ (items.flatMap FormatItem.text ++ rest)) :
    FormatItem.Printed H argsList items pos ∨
      ∃ e, Machine.Leads (step H argsList formatStr) (.scan pre.length pos buffer) (.error (.throws e)) := by
  induction items generalizing pre pos buffer with
  | nil => exact .inl trivial
  | cons item items ih =>
    rw [List.flatMap_cons, List.append_assoc] at h
    have hitem := hwf item List.mem_cons_self
    cases hr : item.convert H argsList pos with
    | error f => exact .inr (leads_item_error hitem h hr)
    | ok r =>
      obtain hprinted | ⟨e, he⟩ := ih r.2 (buffer ++ r.1)
        (fun i hi => hwf i (List.mem_cons_of_mem _ hi)) (h.trans (List.append_assoc _ _ _).symm)
      · exact .inl ⟨r, hr, hprinted⟩
      · exact .inr ⟨e, (leads_item hitem h hr).trans he⟩

end Vsnprintf

/-! ### Strings as items -/

/-- What no specifier is in, or what is before the first and what is after it. -/
theorem exists_specifier (cs : List Char) :
    (∀ c ∈ cs, specifierOf c = none) ∨
      ∃ body c rest, cs = body ++ c :: rest ∧ (∀ b ∈ body, specifierOf b = none) ∧ specifierOf c ≠ none := by
  induction cs with
  | nil => exact .inl fun c hc => absurd hc List.not_mem_nil
  | cons c cs ih =>
    by_cases hc : specifierOf c = none
    · rcases ih with hcs | ⟨body, d, rest, rfl, hbody, hd⟩
      · exact .inl (List.forall_mem_cons.mpr ⟨hc, hcs⟩)
      · exact .inr ⟨c :: body, d, rest, rfl, List.forall_mem_cons.mpr ⟨hc, hbody⟩, hd⟩
    · exact .inr ⟨[], c, cs, rfl, fun b hb => absurd hb List.not_mem_nil, hc⟩

/-- How a string may go on after its items: not at all, with a last `%`, or with a conversion that does not end. -/
def FormatTail (tail : List Char) : Prop :=
  tail = [] ∨ tail = ['%'] ∨
    ∃ c body, tail = '%' :: c :: body ∧ c ≠ '%' ∧ ∀ b ∈ c :: body, specifierOf b = none

/-- The string is some items and such a tail. -/
def Itemised (formatStr : List Char) : Prop :=
  ∃ items : List FormatItem, ∃ tail, (∀ item ∈ items, item.WellFormed) ∧
    formatStr = items.flatMap FormatItem.text ++ tail ∧ FormatTail tail

theorem Itemised.of_tail {tail : List Char} (h : FormatTail tail) : Itemised tail :=
  ⟨[], tail, fun _ hitem => absurd hitem List.not_mem_nil, rfl, h⟩

theorem Itemised.cons {item : FormatItem} {rest : List Char} (hitem : item.WellFormed) (h : Itemised rest) :
    Itemised (item.text ++ rest) := by
  obtain ⟨items, tail, hitems, rfl, htail⟩ := h
  exact ⟨item :: items, tail, List.forall_mem_cons.mpr ⟨hitem, hitems⟩, (List.append_assoc _ _ _).symm, htail⟩

/-- Every string is. -/
theorem itemised (formatStr : List Char) : Itemised formatStr := by
  -- By induction on the length, as a conversion takes more than one character.
  induction hn : formatStr.length using Nat.strongRecOn generalizing formatStr with
  | _ n ih =>
    have hrest (rest : List Char) (hlt : rest.length < n) : Itemised rest := ih _ hlt rest rfl
    rcases formatStr with _ | ⟨c, cs⟩
    · exact .of_tail (.inl rfl)
    · rw [List.length_cons] at hn
      by_cases hc : c = '%'
      · subst hc
        rcases cs with _ | ⟨d, cs⟩
        · exact .of_tail (.inr (.inl rfl))
        · rw [List.length_cons] at hn
          by_cases hd : d = '%'
          · subst hd
            exact .cons (show FormatItem.percent.WellFormed from trivial) (hrest cs (by omega))
          · obtain hcs | ⟨body, s, rest, hsplit, hbody, hs⟩ := exists_specifier (d :: cs)
            · exact .of_tail (.inr (.inr ⟨d, cs, rfl, hd, hcs⟩))
            · have hlength := congrArg List.length hsplit
              simp only [List.length_append, List.length_cons] at hlength
              have hhead : body.head? ≠ some '%' := by
                intro hhead
                obtain ⟨body', rfl⟩ := List.head?_eq_some_iff.mp hhead
                exact hd (List.cons.inj hsplit).1
              have htext : '%' :: d :: cs = (FormatItem.conversion body s).text ++ rest := by
                rw [hsplit, FormatItem.text, List.cons_append, List.append_assoc, List.singleton_append]
              rw [htext]
              exact .cons ⟨hhead, hbody, hs⟩ (hrest rest (by omega))
      · exact .cons (show (FormatItem.literal c).WellFormed from hc) (hrest cs (by omega))

namespace Vsnprintf

variable {ε : Type} {H : ConvertHost ε} {argsList : ℕ → Ubyte} {formatStr pre rest buffer : List Char} {c : Char}
  {pos it1 : ℕ}

/-- What follows from where the items end. -/
theorem ends_of_tail {tail : List Char} (h : formatStr = pre ++ tail) (htail : FormatTail tail) (hne : tail ≠ ['%']) :
    (∃ buffer', Machine.Leads (step H argsList formatStr) (.scan pre.length pos buffer) (.ok (.returned buffer'))) ∨
      ∃ e, Machine.Leads (step H argsList formatStr) (.scan pre.length pos buffer) (.error (.throws e)) := by
  rcases htail with rfl | htail | ⟨c, body, rfl, hc, hbody⟩
  · rw [List.append_nil] at h
    subst h
    exact .inl ⟨buffer, .single step_end⟩
  · exact absurd htail hne
  · obtain ⟨e, he⟩ := leads_search_end (H := H) (eq_snoc h) (List.cons_ne_nil c body) hbody
    exact .inr ⟨e, .head (step_conversion h hc) he⟩

theorem ends_of_leads
    (h : (∃ buffer, Machine.Leads (step H argsList formatStr) start (.ok (.returned buffer))) ∨
      ∃ e, Machine.Leads (step H argsList formatStr) start (.error (.throws e))) : Ends H argsList formatStr := by
  refine ⟨h, fun hpast => ?_⟩
  rcases h with ⟨buffer, h⟩ | ⟨e, h⟩
  · exact Machine.Leads.not_error_of_stays (show step H argsList formatStr (.returned buffer) = _ from rfl) h hpast
  · cases h.error_unique hpast

/-- The empty host prints nothing. -/
def silent : ConvertHost Unit := ⟨fun _ _ => .ok [], fun _ _ => .ok [], fun _ _ => .ok [], fun _ => .ok 0⟩

/-- The format string `%`. -/
theorem not_ends_percent : ¬Ends silent (fun _ => 0) ['%'] := fun h => h.2 (.fail (step_last (List.nil_append _).symm))

/-- When the function returns or throws, and goes past the end nowhere. -/
theorem convertEnds_iff (H : ConvertHost ε) (argsList : ℕ → Ubyte) (formatStr : List Char) :
    Ends H argsList formatStr ↔ Meets H argsList formatStr := by
  constructor
  · rintro ⟨-, hpast⟩ ⟨items, hwf, hprinted, h⟩
    obtain ⟨pos, buffer, hitems⟩ := leads_items [] hwf ((List.nil_append _).trans h.symm).symm hprinted
    exact hpast (hitems.trans (.fail (step_last h)))
  · intro h
    obtain ⟨items, tail, hwf, htext, htail⟩ := itemised formatStr
    have htext' : formatStr = [] ++ (items.flatMap FormatItem.text ++ tail) := htext
    apply ends_of_leads
    obtain hprinted | hthrows := printed_or_throws 0 [] hwf htext'
    · obtain ⟨pos, buffer, hitems⟩ := leads_items [] hwf htext' hprinted
      have hlast (hlast : tail = ['%']) := h ⟨items, hwf, hprinted, hlast ▸ htext⟩
      rcases ends_of_tail htext htail hlast with ⟨buffer', hend⟩ | ⟨e, hend⟩
      · exact .inl ⟨buffer', hitems.trans hend⟩
      · exact .inr ⟨e, hitems.trans hend⟩
    · exact .inr hthrows

end Vsnprintf

end Orbum
