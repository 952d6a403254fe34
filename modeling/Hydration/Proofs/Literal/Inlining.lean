import Hydration.Proofs.Fragment.Literal
import Hydration.Proofs.Template.Word
/-!
# Variables replaced by literals

    {title: t, tags: [a, b|upper]}    {title: "Hello", tags: [{x: 1}, b|upper]}

Some variables of a literal, each standing alone as a value, are replaced by literals of the same
values. The relation is stated on derivations, so a variable inside a string, in front of a filter
or as a key is none, and on what derivations mean; meaning takes one to the other.

* `rel_value?`: literals that differ by replaced variables mean expressions that do, or neither
  means anything.
-/
namespace Hydration
open Literal (Derivation Key)

/-- Variables with the values of the literals that replace them. -/
abbrev Bindings := List (Text × Value)

/-- The atom is the name of a variable: no constant, no number, and no path or filters. -/
structure IsVariable (x : Text) : Prop where
  word : Literal.wordConstant? x = none
  number : Literal.isNumber x = false
  pipe : Pipe.compile x = .ok (.plain x)

/-- Names are variables, unless they are constants or numbers or start with a low line. -/
theorem isVariable_of_name {x : Text} (hne : x ≠ []) (hx : ∀ c ∈ x, Text.isWord c = true)
    (hword : Literal.wordConstant? x = none) (hnumber : Literal.isNumber x = false)
    (hnone : Operand.number? x = none) (hlow : Text.opensWith ['_'] x = false) : IsVariable x :=
  ⟨hword, hnumber, Pipe.compile_name hne hx hnone hlow⟩

theorem IsVariable.compileAtom {x : Text} (h : IsVariable x) :
    Literal.compileAtom (some Pipe.compile) x = .ok (.variable x (.plain x)) := by
  simp only [Literal.compileAtom, h.word, h.number, h.pipe]
  rfl

/-! ## Results that are related -/

theorem rel_refl {α : Type} {r : α → α → Prop} (h : ∀ x, r x x) (o : Option α) :
    Option.Rel r o o := by
  cases o with
  | none => exact .none
  | some x => exact .some (h x)

theorem rel_bind {α β γ δ : Type} {r : α → β → Prop} {s : γ → δ → Prop} {o : Option α}
    {o' : Option β} {f : α → Option γ} {g : β → Option δ} (h : Option.Rel r o o')
    (hf : ∀ x y, r x y → Option.Rel s (f x) (g y)) : Option.Rel s (o.bind f) (o'.bind g) := by
  cases h with
  | none => exact .none
  | some h => exact hf _ _ h

/-! ## Expressions -/

namespace Expression

mutual

/-- The second expression is the first one with some variables replaced. -/
def Inlines (b : Bindings) : Expression → Expression → Prop
  | .constant v, e' => e' = .constant v
  | .variable source pipe, e' =>
    e' = .variable source pipe ∨
      ∃ v, (source, v) ∈ b ∧ pipe = .plain source ∧ e'.literal? = some v
  | .object entries, e' => ∃ entries', e' = .object entries' ∧ EntriesInline b entries entries'
  | .array items, e' => ∃ items', e' = .array items' ∧ ItemsInline b items items'

def EntriesInline (b : Bindings) : List (Text × Expression) → List (Text × Expression) → Prop
  | [], entries' => entries' = []
  | (k, e) :: rest, entries' =>
    ∃ e' more, entries' = (k, e') :: more ∧ Inlines b e e' ∧ EntriesInline b rest more

def ItemsInline (b : Bindings) : List Expression → List Expression → Prop
  | [], items' => items' = []
  | e :: rest, items' => ∃ e' more, items' = e' :: more ∧ Inlines b e e' ∧ ItemsInline b rest more

end

variable {b : Bindings}

mutual

theorem inlines_refl : ∀ e : Expression, e.Inlines b e
  | .constant _ => rfl
  | .variable _ _ => .inl rfl
  | .object entries => ⟨entries, rfl, entriesInline_refl entries⟩
  | .array items => ⟨items, rfl, itemsInline_refl items⟩

theorem entriesInline_refl : ∀ entries : List (Text × Expression), EntriesInline b entries entries
  | [] => rfl
  | (_, e) :: rest => ⟨e, rest, rfl, inlines_refl e, entriesInline_refl rest⟩

theorem itemsInline_refl : ∀ items : List Expression, ItemsInline b items items
  | [] => rfl
  | e :: rest => ⟨e, rest, rfl, inlines_refl e, itemsInline_refl rest⟩

end

theorem keys_of_inlines : ∀ {entries entries' : List (Text × Expression)},
    EntriesInline b entries entries' → keys entries' = keys entries
  | [], _, h => by
    obtain rfl := h
    rfl
  | (k, e) :: rest, _, h => by
    obtain ⟨e', more, rfl, -, hmore⟩ := h
    exact congrArg (k :: ·) (keys_of_inlines hmore)

end Expression

/-! ## Derivations -/

namespace Literal.Derivation

/-- The value of a derivation without variables. -/
def Denotes (d : Derivation) (v : Value) : Prop :=
  ∃ e, d.value? (some Pipe.compile) = some e ∧ e.literal? = some v

mutual

/-- The second derivation is the first one with some variables replaced by literals. -/
def Inlines (b : Bindings) : Derivation → Derivation → Prop
  | .atom x, d' => d' = .atom x ∨ ∃ v, (x, v) ∈ b ∧ IsVariable x ∧ d'.Denotes v
  | .string t, d' => d' = .string t
  | .emptyObject, d' => d' = .emptyObject
  | .object key value more comma, d' =>
    ∃ value' more', d' = .object key value' more' comma ∧ Inlines b value value' ∧
      FieldsInline b more more'
  | .emptyArray, d' => d' = .emptyArray
  | .array item more comma, d' =>
    ∃ item' more', d' = .array item' more' comma ∧ Inlines b item item' ∧ ItemsInline b more more'

def FieldsInline (b : Bindings) : List (Key × Derivation) → List (Key × Derivation) → Prop
  | [], fields' => fields' = []
  | (key, value) :: rest, fields' =>
    ∃ value' more, fields' = (key, value') :: more ∧ Inlines b value value' ∧
      FieldsInline b rest more

def ItemsInline (b : Bindings) : List Derivation → List Derivation → Prop
  | [], items' => items' = []
  | item :: rest, items' =>
    ∃ item' more, items' = item' :: more ∧ Inlines b item item' ∧ ItemsInline b rest more

end

variable {b : Bindings}

mutual

/-- The expressions that two derivations mean differ as the derivations do, or there are none. -/
theorem rel_value? : ∀ (d : Derivation) {d' : Derivation}, d.Inlines b d' →
    Option.Rel (Expression.Inlines b) (d.value? (some Pipe.compile))
      (d'.value? (some Pipe.compile))
  | .atom x, d', h => by
    rcases h with rfl | ⟨v, hv, hx, e', he', hlit⟩
    · exact rel_refl Expression.inlines_refl _
    · rw [value?, hx.compileAtom, he']
      exact .some (.inr ⟨v, hv, rfl, hlit⟩)
  | .string _, _, h | .emptyObject, _, h | .emptyArray, _, h => by
    obtain rfl := h
    exact rel_refl Expression.inlines_refl _
  | .object key value more comma, d', h => by
    obtain ⟨value', more', rfl, hvalue, hmore⟩ := h
    rw [value?, value?]
    refine rel_bind (rel_value? value hvalue) fun e e' he => ?_
    refine rel_bind (rel_fieldValues? more hmore) fun entries entries' hentries => ?_
    rw [Expression.keys_of_inlines hentries]
    split
    · exact .some ⟨_, rfl, e', entries', rfl, he, hentries⟩
    · exact .none
  | .array item more comma, d', h => by
    obtain ⟨item', more', rfl, hitem, hmore⟩ := h
    rw [value?, value?]
    refine rel_bind (rel_value? item hitem) fun e e' he => ?_
    refine rel_bind (rel_itemValues? more hmore) fun items items' hitems => ?_
    exact .some ⟨_, rfl, e', items', rfl, he, hitems⟩

theorem rel_fieldValues? : ∀ (more : List (Key × Derivation)) {more' : List (Key × Derivation)},
    FieldsInline b more more' →
    Option.Rel (Expression.EntriesInline b) (fieldValues? (some Pipe.compile) more)
      (fieldValues? (some Pipe.compile) more')
  | [], _, h => by
    obtain rfl := h
    exact .some rfl
  | (key, value) :: rest, more', h => by
    obtain ⟨value', more', rfl, hvalue, hmore⟩ := h
    rw [fieldValues?, fieldValues?]
    refine rel_bind (rel_value? value hvalue) fun e e' he => ?_
    refine rel_bind (rel_fieldValues? rest hmore) fun entries entries' hentries => ?_
    exact .some ⟨e', entries', rfl, he, hentries⟩

theorem rel_itemValues? : ∀ (more : List Derivation) {more' : List Derivation},
    ItemsInline b more more' →
    Option.Rel (Expression.ItemsInline b) (itemValues? (some Pipe.compile) more)
      (itemValues? (some Pipe.compile) more')
  | [], _, h => by
    obtain rfl := h
    exact .some rfl
  | item :: rest, more', h => by
    obtain ⟨item', more', rfl, hitem, hmore⟩ := h
    rw [itemValues?, itemValues?]
    refine rel_bind (rel_value? item hitem) fun e e' he => ?_
    refine rel_bind (rel_itemValues? rest hmore) fun items items' hitems => ?_
    exact .some ⟨e', items', rfl, he, hitems⟩

end

end Literal.Derivation
end Hydration
