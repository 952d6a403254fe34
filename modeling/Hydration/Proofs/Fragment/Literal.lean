import Hydration.Fragment
import Hydration.Proofs.Json.Values
import Hydration.Proofs.Literal.Meaning
/-!
# Expressions without variables

An expression without variables has its value before there is a context. What a tag is compiled to
has no constants but scalars, so such a value is built of scalars, lists and dicts with texts for
keys, and it always has a text.

* `evaluate_of_literal?`: in every context the expression has its value and changes nothing.
* `compile_ofScalars`: constants that were read are scalars, and integers among them are within the
  limit.
* `exists_toText_of_literal?`: the value has a text.
-/
namespace Hydration

namespace Expression

mutual

/-- The value of an expression without variables. -/
def literal? : Expression → Option Value
  | .constant v => some v
  | .variable _ _ => none
  | .object entries => (literalEntries? entries).map .dict
  | .array items => (literalItems? items).map .list

def literalEntries? : List (Text × Expression) → Option (List (Value × Value))
  | [] => some []
  | (k, e) :: rest => do
    let v ← literal? e
    let more ← literalEntries? rest
    some ((.str k, v) :: more)

def literalItems? : List Expression → Option (List Value)
  | [] => some []
  | e :: rest => do
    let v ← literal? e
    let more ← literalItems? rest
    some (v :: more)

end

theorem literalEntries?_cons_iff {k : Text} {e : Expression} {rest : List (Text × Expression)}
    {values : List (Value × Value)} :
    literalEntries? ((k, e) :: rest) = some values ↔
      ∃ v more, literal? e = some v ∧ literalEntries? rest = some more ∧
        (.str k, v) :: more = values := by
  simp only [literalEntries?, Option.bind_eq_bind, Option.bind_eq_some_iff, Option.some.injEq,
    exists_and_left]

theorem literalItems?_cons_iff {e : Expression} {rest : List Expression} {values : List Value} :
    literalItems? (e :: rest) = some values ↔
      ∃ v more, literal? e = some v ∧ literalItems? rest = some more ∧ v :: more = values := by
  simp only [literalItems?, Option.bind_eq_bind, Option.bind_eq_some_iff, Option.some.injEq,
    exists_and_left]

mutual

theorem evaluate_of_literal? : ∀ (e : Expression) {v : Value},
    e.literal? = some v → e.evaluate = pure v
  | .constant w, v, h => by
    cases h
    rfl
  | .variable _ _, v, h => by cases h
  | .object entries, v, h => by
    obtain ⟨values, hvalues, rfl⟩ := Option.map_eq_some_iff.1 h
    rw [evaluate, evaluateEntries_of_literal entries hvalues, pure_bind]
  | .array items, v, h => by
    obtain ⟨values, hvalues, rfl⟩ := Option.map_eq_some_iff.1 h
    rw [evaluate, evaluateItems_of_literal items hvalues, pure_bind]

theorem evaluateEntries_of_literal : ∀ (entries : List (Text × Expression))
    {values : List (Value × Value)},
    literalEntries? entries = some values → evaluateEntries entries = pure values
  | [], values, h => by
    cases h
    rfl
  | (k, e) :: rest, values, h => by
    obtain ⟨v, more, hv, hmore, rfl⟩ := literalEntries?_cons_iff.1 h
    rw [evaluateEntries, evaluate_of_literal? e hv, evaluateEntries_of_literal rest hmore]
    simp only [pure_bind]

theorem evaluateItems_of_literal : ∀ (items : List Expression) {values : List Value},
    literalItems? items = some values → evaluateItems items = pure values
  | [], values, h => by
    cases h
    rfl
  | e :: rest, values, h => by
    obtain ⟨v, more, hv, hmore, rfl⟩ := literalItems?_cons_iff.1 h
    rw [evaluateItems, evaluate_of_literal? e hv, evaluateItems_of_literal rest hmore]
    simp only [pure_bind]

end

end Expression

/-! ## Constants that are read -/

/-- A value that may be written as a constant: no collection, and no integer beyond the limit. -/
def Value.IsScalar : Value → Prop
  | .none | .bool _ | .float _ => True
  | .int i => i.natAbs < Nat.pow 10 Number.maxDigits
  | .text safe _ => safe = false
  | _ => False

namespace Expression

mutual

/-- All constants of the expression are scalars. -/
def OfScalars : Expression → Prop
  | .constant v => v.IsScalar
  | .variable _ _ => True
  | .object entries => EntriesOfScalars entries
  | .array items => ItemsOfScalars items

def EntriesOfScalars : List (Text × Expression) → Prop
  | [] => True
  | (_, e) :: rest => OfScalars e ∧ EntriesOfScalars rest

def ItemsOfScalars : List Expression → Prop
  | [] => True
  | e :: rest => OfScalars e ∧ ItemsOfScalars rest

end

end Expression

namespace Number

theorem valueOf_concat (digits : List Nat) (d : Nat) :
    valueOf (digits ++ [d]) = 10 * valueOf digits + d := by
  simp [valueOf]

/-- A number is below the power of ten with as many digits. -/
theorem valueOf_lt {digits : List Nat} (h : ∀ d ∈ digits, d < 10) :
    valueOf digits < Nat.pow 10 digits.length := by
  induction digits using List.reverseRecOn with
  | nil => exact Nat.one_pos
  | append_singleton digits d ih =>
    have hd := h d (by simp)
    have ih := ih fun x hx => h x (List.mem_append_left _ hx)
    have hpow : Nat.pow 10 (digits ++ [d]).length = Nat.pow 10 digits.length * 10 := by
      rw [List.length_append]
      rfl
    rw [valueOf_concat, hpow]
    omega

theorem digits?_lt {t : Text} {ds : List Nat} (h : digits? t = some ds) : ∀ d ∈ ds, d < 10 := by
  fun_induction digits? t generalizing ds with
  | case1 => cases h
  | case2 => cases h
  | case3 c v hv =>
    cases h
    simpa using Text.digitValue?_lt hv
  | case4 c v hv more ih =>
    obtain ⟨es, hes, rfl⟩ := Option.map_eq_some_iff.1 h
    exact List.forall_mem_cons.2 ⟨Text.digitValue?_lt hv, ih hes⟩
  | case5 c v hv d more _ ih =>
    obtain ⟨es, hes, rfl⟩ := Option.map_eq_some_iff.1 h
    exact List.forall_mem_cons.2 ⟨Text.digitValue?_lt hv, ih hes⟩

theorem natAbs_value (n : Numeral) : n.value.natAbs = valueOf n.digits := by
  unfold Numeral.value
  split <;> simp

end Number

namespace Literal

theorem ReadWord.isScalar {v : Value} (h : ReadWord v) : v.IsScalar := by
  cases h <;> trivial

theorem ReadNumber.isScalar {t : Text} {v : Value} (h : ReadNumber t v) : v.IsScalar := by
  cases h with
  | float => trivial
  | @int n hn hlength =>
    have hdigits : ∀ d ∈ n.digits, d < 10 := by
      subst hn
      cases hread : Number.readNumeral? t with
      | none => simp
      | some n =>
        obtain ⟨ds, hds, rfl⟩ := Option.map_eq_some_iff.1 hread
        exact Number.digits?_lt hds
    rw [Value.IsScalar, Number.natAbs_value]
    -- the power must not be evaluated
    generalize Number.maxDigits = most at hlength ⊢
    exact (Number.valueOf_lt hdigits).trans_le (Nat.pow_le_pow_right (Nat.succ_pos 9) hlength)

theorem ReadAtom.ofScalars {reader : Option FilterReader} {t : Text} {e : Expression}
    (h : ReadAtom reader t e) : e.OfScalars := by
  cases h with
  | word h => exact h.isScalar
  | number _ h => exact (readNumber h).isScalar
  | filter _ _ => trivial

end Literal

namespace Expression

theorem entriesOfScalars_of_forall {entries : List (Text × Expression)}
    (h : ∀ entry ∈ entries, entry.2.OfScalars) : EntriesOfScalars entries := by
  induction entries with
  | nil => trivial
  | cons entry rest ih => exact ⟨(List.forall_mem_cons.1 h).1, ih (List.forall_mem_cons.1 h).2⟩

theorem itemsOfScalars_of_forall {items : List Expression} (h : ∀ e ∈ items, e.OfScalars) :
    ItemsOfScalars items := by
  induction items with
  | nil => trivial
  | cons e rest ih => exact ⟨(List.forall_mem_cons.1 h).1, ih (List.forall_mem_cons.1 h).2⟩

theorem compile_ofScalars {reader : Option Literal.FilterReader} {text : Text} {e : Expression}
    (h : Expression.compile reader text = .ok e) : e.OfScalars := by
  replace h := Literal.meaning_of_compile h
  induction h with
  | atom h => exact (Literal.readAtom h).ofScalars
  | string _ => exact rfl
  | object _ _ ih => exact entriesOfScalars_of_forall ih
  | array _ ih => exact itemsOfScalars_of_forall ih

/-! ## Texts of values -/

/-- An integer that has a text is shown by it. -/
theorem inspect_int {i : Int} {t : Text} (h : Number.intText? i = some t) :
    (Value.int i).inspect = .ok t := by
  rw [Value.inspect]
  unfold Value.intText
  rw [h]

theorem exists_inspect_of_isScalar {v : Value} (h : v.IsScalar) : ∃ t, v.inspect = .ok t := by
  cases v with
  | int i =>
    rw [Value.IsScalar] at h
    exact ⟨_, inspect_int (Value.intText?_of_lt h)⟩
  | none | bool _ | float _ | text _ _ => exact ⟨_, rfl⟩
  | _ => exact h.elim

mutual

theorem exists_inspect_of_literal? : ∀ (e : Expression) {v : Value}, e.OfScalars →
    e.literal? = some v → ∃ t, v.inspect = .ok t
  | .constant w, v, hs, h => by
    cases h
    exact exists_inspect_of_isScalar hs
  | .variable _ _, v, _, h => by cases h
  | .object entries, v, hs, h => by
    obtain ⟨values, hvalues, rfl⟩ := Option.map_eq_some_iff.1 h
    obtain ⟨parts, hparts⟩ := exists_inspectEntries_of_literal entries hs hvalues
    exact ⟨_, by rw [Value.inspect, hparts]; rfl⟩
  | .array items, v, hs, h => by
    obtain ⟨values, hvalues, rfl⟩ := Option.map_eq_some_iff.1 h
    obtain ⟨parts, hparts⟩ := exists_inspectItems_of_literal items hs hvalues
    exact ⟨_, by rw [Value.inspect, hparts]; rfl⟩

theorem exists_inspectEntries_of_literal : ∀ (entries : List (Text × Expression))
    {values : List (Value × Value)}, EntriesOfScalars entries →
    literalEntries? entries = some values → ∃ parts, Value.inspectEntries values = .ok parts
  | [], values, _, h => by
    cases h
    exact ⟨[], rfl⟩
  | (k, e) :: rest, values, hs, h => by
    obtain ⟨v, more, hv, hmore, rfl⟩ := literalEntries?_cons_iff.1 h
    obtain ⟨part, hpart⟩ := exists_inspect_of_literal? e hs.1 hv
    obtain ⟨parts, hparts⟩ := exists_inspectEntries_of_literal rest hs.2 hmore
    have hkey : (Value.str k).inspect = .ok (Text.inspect k) := rfl
    exact ⟨_, by rw [Value.inspectEntries, hkey, hpart, hparts]; rfl⟩

theorem exists_inspectItems_of_literal : ∀ (items : List Expression) {values : List Value},
    ItemsOfScalars items → literalItems? items = some values →
    ∃ parts, Value.inspectItems values = .ok parts
  | [], values, _, h => by
    cases h
    exact ⟨[], rfl⟩
  | e :: rest, values, hs, h => by
    obtain ⟨v, more, hv, hmore, rfl⟩ := literalItems?_cons_iff.1 h
    obtain ⟨part, hpart⟩ := exists_inspect_of_literal? e hs.1 hv
    obtain ⟨parts, hparts⟩ := exists_inspectItems_of_literal rest hs.2 hmore
    exact ⟨_, by rw [Value.inspectItems, hpart, hparts]; rfl⟩

end

theorem exists_toText_of_literal? {e : Expression} {v : Value} (hs : e.OfScalars)
    (h : e.literal? = some v) : ∃ t, v.toText = .ok t := by
  have hinspect := exists_inspect_of_literal? e hs h
  cases e with
  | constant w =>
    cases h
    cases v with
    | text _ t => exact ⟨t, rfl⟩
    | none | bool _ | int _ | float _ => exact hinspect
    | _ => exact hs.elim
  | «variable» _ _ => cases h
  | object entries =>
    obtain ⟨values, -, rfl⟩ := Option.map_eq_some_iff.1 h
    exact hinspect
  | array items =>
    obtain ⟨values, -, rfl⟩ := Option.map_eq_some_iff.1 h
    exact hinspect

end Expression
end Hydration
