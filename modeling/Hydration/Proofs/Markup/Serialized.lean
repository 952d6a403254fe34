import Hydration.Markup
import Hydration.Proofs.Fragment.Equality
import Hydration.Proofs.Json.Grammatical
/-!
# Props as JSON texts

The attribute for the props holds a document, with its quotes escaped. The document is a JSON text
exactly if every floating-point number among the values of the props is finite; keys are written as
strings and do not matter. The numbers of an inline literal are doubles, but a number that is too
large is read as infinite, so there are literals whose document is no JSON text.

* `Value.floats_encode`: the numbers of a value are those of its document.
* `Expression.float_of_compile`: where the numbers of a literal come from.
* `Markup.serialized_iff_finite`: when the props are a JSON text.
-/
namespace Hydration
open Binary64 (IsDouble IsFinite)

/-! ## The numbers of a value -/

namespace Value

mutual

/-- The floating-point numbers of a value, those of keys left out. -/
def floats : Value → List Binary64
  | .float x => [x]
  | .list items => itemFloats items
  | .tuple items => itemFloats items
  | .record _ items => itemFloats items
  | .dict entries => entryFloats entries
  | _ => []

def itemFloats : List Value → List Binary64
  | [] => []
  | v :: rest => floats v ++ itemFloats rest

def entryFloats : List (Value × Value) → List Binary64
  | [] => []
  | (_, v) :: rest => floats v ++ entryFloats rest

end

theorem floats_encode_int {i : Int} {j : Json} (h : encode (.int i) = .ok j) : j.floats = [] := by
  have hleaf : encode (.int i) = (intText i).map fun _ => .int i := rfl
  rw [hleaf] at h
  obtain ⟨_, _, rfl⟩ := Failure.map_ok h
  rfl

theorem floats_encode_clock {c : Clock} {j : Json} (h : encode (.clock c) = .ok j) :
    j.floats = [] := by
  have hleaf : encode (.clock c) =
      if c.zone.isSome then .error (.value .zonedTime) else .ok (.string c.toMilliseconds) := rfl
  rw [hleaf] at h
  split at h <;> cases h
  rfl

mutual

/-- The document has the numbers of the value. -/
theorem floats_encode : ∀ (v : Value) {j : Json}, v.encode = .ok j → j.floats = v.floats
  | .list items | .tuple items | .record _ items => by
    intro h
    obtain ⟨js, hjs, rfl⟩ := Failure.map_ok h
    exact floats_encodeItems items hjs
  | .dict entries => by
    intro h
    obtain ⟨fields, hfields, rfl⟩ := Failure.map_ok h
    exact floats_encodeEntries entries hfields
  | .int _ => floats_encode_int
  | .clock _ => floats_encode_clock
  | .none | .bool _ | .float _ | .text _ _ | .lazy _ _ | .decimal _ | .uuid _ | .day _ | .moment _
  | .span _ => by
    intro h
    cases h
    rfl
  | .bytes _ | .set _ | .mapping _ | .view _ _ | .object _ _ | .call _ => by
    intro h
    cases h

theorem floats_encodeItems : ∀ (items : List Value) {js : List Json},
    encodeItems items = .ok js → Json.itemFloats js = itemFloats items
  | [], js, h => by
    cases h
    rfl
  | v :: rest, js, h => by
    obtain ⟨j, hj, h⟩ := Failure.bind_ok h
    obtain ⟨more, hmore, h⟩ := Failure.bind_ok h
    cases h
    exact congrArg₂ (· ++ ·) (floats_encode v hj) (floats_encodeItems rest hmore)

theorem floats_encodeEntries : ∀ (entries : List (Value × Value)) {fields : List (Text × Json)},
    encodeEntries entries = .ok fields → Json.fieldFloats fields = entryFloats entries
  | [], fields, h => by
    cases h
    rfl
  | (k, v) :: rest, fields, h => by
    obtain ⟨key, -, h⟩ := Failure.bind_ok h
    obtain ⟨j, hj, h⟩ := Failure.bind_ok h
    obtain ⟨more, hmore, h⟩ := Failure.bind_ok h
    cases h
    exact congrArg₂ (· ++ ·) (floats_encode v hj) (floats_encodeEntries rest hmore)

end

end Value

/-! ## The numbers of a literal -/

namespace Expression

mutual

/-- The constants and variables in an expression, in the order in which they are written. -/
def leaves : Expression → List Expression
  | .constant v => [.constant v]
  | .variable source pipe => [.variable source pipe]
  | .object entries => entriesLeaves entries
  | .array items => itemsLeaves items

def entriesLeaves : List (Text × Expression) → List Expression
  | [] => []
  | (_, e) :: rest => leaves e ++ entriesLeaves rest

def itemsLeaves : List Expression → List Expression
  | [] => []
  | e :: rest => leaves e ++ itemsLeaves rest

end

/-- The number is one in a value that the expression has in some context. -/
def MayHold (e : Expression) (x : Binary64) : Prop :=
  ∃ c v d, e.evaluate.run c = .ok (v, d) ∧ x ∈ v.floats

variable {x : Binary64}

mutual

/-- The numbers of a value come from the leaves of its expression. -/
theorem float_of_evaluate : ∀ (e : Expression) {c d : Context} {v : Value},
    e.evaluate.run c = .ok (v, d) → x ∈ v.floats → ∃ leaf ∈ e.leaves, leaf.MayHold x
  | .constant w, _, _, _, h, hx => ⟨.constant w, List.mem_singleton.2 rfl, _, _, _, h, hx⟩
  | .variable source pipe, _, _, _, h, hx =>
    ⟨.variable source pipe, List.mem_singleton.2 rfl, _, _, _, h, hx⟩
  | .object entries, c, d, v, h, hx => by
    rw [evaluate, Evaluation.run_bind_ok_iff] at h
    obtain ⟨values, b, hvalues, h⟩ := h
    cases h
    exact float_of_evaluateEntries entries hvalues hx
  | .array items, c, d, v, h, hx => by
    rw [evaluate, Evaluation.run_bind_ok_iff] at h
    obtain ⟨values, b, hvalues, h⟩ := h
    cases h
    exact float_of_evaluateItems items hvalues hx

theorem float_of_evaluateEntries : ∀ (entries : List (Text × Expression)) {c d : Context}
    {values : List (Value × Value)}, (evaluateEntries entries).run c = .ok (values, d) →
    x ∈ Value.entryFloats values → ∃ leaf ∈ entriesLeaves entries, leaf.MayHold x
  | [], c, d, values, h, hx => by
    cases h
    cases hx
  | (k, e) :: rest, c, d, values, h, hx => by
    rw [evaluateEntries, Evaluation.run_bind_ok_iff] at h
    obtain ⟨v, a, hv, h⟩ := h
    rw [Evaluation.run_bind_ok_iff] at h
    obtain ⟨more, b, hmore, h⟩ := h
    cases h
    rcases List.mem_append.1 hx with hx | hx
    · obtain ⟨leaf, hleaf, hhold⟩ := float_of_evaluate e hv hx
      exact ⟨leaf, List.mem_append_left _ hleaf, hhold⟩
    · obtain ⟨leaf, hleaf, hhold⟩ := float_of_evaluateEntries rest hmore hx
      exact ⟨leaf, List.mem_append_right _ hleaf, hhold⟩

theorem float_of_evaluateItems : ∀ (items : List Expression) {c d : Context}
    {values : List Value}, (evaluateItems items).run c = .ok (values, d) →
    x ∈ Value.itemFloats values → ∃ leaf ∈ itemsLeaves items, leaf.MayHold x
  | [], c, d, values, h, hx => by
    cases h
    cases hx
  | e :: rest, c, d, values, h, hx => by
    rw [evaluateItems, Evaluation.run_bind_ok_iff] at h
    obtain ⟨v, a, hv, h⟩ := h
    rw [Evaluation.run_bind_ok_iff] at h
    obtain ⟨more, b, hmore, h⟩ := h
    cases h
    rcases List.mem_append.1 hx with hx | hx
    · obtain ⟨leaf, hleaf, hhold⟩ := float_of_evaluate e hv hx
      exact ⟨leaf, List.mem_append_left _ hleaf, hhold⟩
    · obtain ⟨leaf, hleaf, hhold⟩ := float_of_evaluateItems rest hmore hx
      exact ⟨leaf, List.mem_append_right _ hleaf, hhold⟩

end

theorem mem_entriesLeaves {leaf : Expression} {entries : List (Text × Expression)} :
    leaf ∈ entriesLeaves entries ↔ ∃ entry ∈ entries, leaf ∈ entry.2.leaves := by
  induction entries with
  | nil => simp [entriesLeaves]
  | cons entry rest ih => simp [entriesLeaves, ih]

theorem mem_itemsLeaves {leaf : Expression} {items : List Expression} :
    leaf ∈ itemsLeaves items ↔ ∃ e ∈ items, leaf ∈ e.leaves := by
  induction items with
  | nil => simp [itemsLeaves]
  | cons e rest ih => simp [itemsLeaves, ih]

end Expression

namespace Literal

variable {reader : Option FilterReader} {leaf : Expression}

/-- A leaf that was read: the text of a string, or what an atom is compiled to. -/
def IsReadLeaf (reader : Option FilterReader) (leaf : Expression) : Prop :=
  (∃ t, leaf = .constant (.str t)) ∨ ∃ t, compileAtom reader t = .ok leaf

theorem ReadAtom.leaves {t : Text} {e : Expression} (h : ReadAtom reader t e) :
    e.leaves = [e] := by
  cases h <;> rfl

/-- The leaves of what is compiled are those that were read. -/
theorem isReadLeaf_of_compile {text : Text} {e : Expression}
    (h : Expression.compile reader text = .ok e) (hleaf : leaf ∈ e.leaves) :
    IsReadLeaf reader leaf := by
  replace h := meaning_of_compile h
  induction h with
  | atom h =>
    rw [(readAtom h).leaves, List.mem_singleton] at hleaf
    exact .inr ⟨_, hleaf ▸ h⟩
  | string t => exact .inl ⟨t, List.mem_singleton.1 hleaf⟩
  | object _ _ ih =>
    obtain ⟨entry, hentry, hleaf⟩ := Expression.mem_entriesLeaves.1 hleaf
    exact ih entry hentry hleaf
  | array _ ih =>
    obtain ⟨e, he, hleaf⟩ := Expression.mem_itemsLeaves.1 hleaf
    exact ih e he hleaf

/-- A number that an atom is read as. -/
def IsNumberAtom (t : Text) (x : Binary64) : Prop :=
  isNumber t = true ∧ numberValue t = .ok (.float x)

theorem IsNumberAtom.isDouble {t : Text} {x : Binary64} (h : IsNumberAtom t x) : x.IsDouble := by
  cases readNumber h.2 with
  | float =>
    cases hread : Number.readFloat? t with
    | none => trivial
    | some x => exact Binary64.isDouble_of_readFloat hread

theorem ReadWord.floats {v : Value} (h : ReadWord v) : v.floats = [] := by
  cases h <;> rfl

theorem ReadNumber.eq_float {t : Text} {v : Value} {x : Binary64} (h : ReadNumber t v)
    (hx : x ∈ v.floats) : v = .float x := by
  cases h with
  | float => rw [List.mem_singleton.1 hx]
  | int _ _ => cases hx

/-- A number of a leaf is what an atom is read as, or the leaf is a variable. -/
theorem float_of_isReadLeaf {x : Binary64} (h : IsReadLeaf reader leaf) (hx : leaf.MayHold x) :
    (∃ t, IsNumberAtom t x) ∨ ∃ source pipe, leaf = .variable source pipe := by
  obtain ⟨c, v, d, hv, hx⟩ := hx
  rcases h with ⟨t, rfl⟩ | ⟨t, h⟩
  · cases hv
    cases hx
  cases readAtom h with
  | word hword =>
    cases hv
    rw [hword.floats] at hx
    cases hx
  | number ht hnumber =>
    cases hv
    exact .inl ⟨t, ht, (readNumber hnumber).eq_float hx ▸ hnumber⟩
  | filter _ _ => exact .inr ⟨t, _, rfl⟩

end Literal

/-- The numbers of a literal are doubles that its atoms are read as, or come from its variables. -/
theorem Expression.float_of_compile {reader : Option Literal.FilterReader} {text : Text}
    {e : Expression} {c d : Context} {v : Value} {x : Binary64}
    (h : Expression.compile reader text = .ok e) (hv : e.evaluate.run c = .ok (v, d))
    (hx : x ∈ v.floats) :
    (∃ t, Literal.IsNumberAtom t x ∧ x.IsDouble) ∨
      ∃ source pipe, .variable source pipe ∈ e.leaves ∧
        (Expression.variable source pipe).MayHold x := by
  obtain ⟨leaf, hleaf, hhold⟩ := e.float_of_evaluate hv hx
  rcases Literal.float_of_isReadLeaf (Literal.isReadLeaf_of_compile h hleaf) hhold with
    ⟨t, ht⟩ | ⟨source, pipe, rfl⟩
  · exact .inl ⟨t, ht, ht.isDouble⟩
  · exact .inr ⟨source, pipe, hleaf, hhold⟩

/-! ## The props -/

namespace Markup

/-- **The props are a JSON text exactly if their numbers are finite.** Whatever props have JSON, to
any depth and with keys of any kind, the attribute holds a document with its quotes escaped, and the
document is a JSON text if and only if each floating-point number among the values is finite. If the
props are those of a literal, their numbers are doubles that its atoms are read as, or they come
from the values of its variables. -/
theorem serialized_iff_finite {v : Value} {text : Text} (hdoubles : ∀ x ∈ v.floats, x.IsDouble)
    (h : serializeProps v = .ok text) :
    (∃ j, v.encode = .ok j ∧ text = Text.escapeQuotes j.write ∧
      (Json.IsText j.write ↔ ∀ x ∈ v.floats, x.IsFinite)) ∧
    ∀ (reader : Option Literal.FilterReader) (source : Text) (e : Expression) (c d : Context),
      Expression.compile reader source = .ok e → e.evaluate.run c = .ok (v, d) →
      ∀ x ∈ v.floats, (∃ t, Literal.IsNumberAtom t x ∧ x.IsDouble) ∨
        ∃ name pipe, .variable name pipe ∈ e.leaves ∧
          (Expression.variable name pipe).MayHold x := by
  refine ⟨?_, fun _ _ _ _ _ hcompile hv _ => Expression.float_of_compile hcompile hv⟩
  obtain ⟨j, hj, rfl⟩ := Failure.map_ok h
  have hfloats := Value.floats_encode v hj
  rw [← hfloats] at hdoubles ⊢
  exact ⟨j, hj, rfl, Json.isText_write_iff hdoubles⟩

/-- The number one half stands for itself. -/
theorem serialized_half :
    ∃ j, (Value.dict [(.str "n", .float (.finite false 4503599627370496 (-53)))]).encode = .ok j ∧
      ("\x7b&quot;n&quot;:0.5\x7d" : Text) = Text.escapeQuotes j.write ∧ Json.IsText j.write := by
  have hdoubles : ∀ x ∈ (Value.dict [(.str "n",
      .float (.finite false 4503599627370496 (-53)))]).floats, x.IsDouble :=
    fun x hx => List.mem_singleton.1 hx ▸ ⟨⟨by decide, by decide, by decide⟩, by decide⟩
  obtain ⟨⟨j, hj, htext, hiff⟩, -⟩ := serialized_iff_finite hdoubles
    (show serializeProps _ = .ok "\x7b&quot;n&quot;:0.5\x7d" by decide +kernel)
  exact ⟨j, hj, htext, hiff.2 fun x hx => List.mem_singleton.1 hx ▸ trivial⟩

/-- A number of a literal that is too large is infinite, and its document is no JSON text. -/
theorem serialized_infinite :
    Expression.compile (some Pipe.compile) "\x7bn: 1e999\x7d" =
      .ok (.object [("n", .constant (.float (.infinity false)))]) ∧
    serializeProps (.dict [(.str "n", .float (.infinity false))]) =
      .ok "\x7b&quot;n&quot;:Infinity\x7d" ∧
    ¬ Json.IsText "\x7b\"n\":Infinity\x7d" := by
  refine ⟨?_, by decide, fun h => ?_⟩
  · have hlex : Literal.lex "\x7bn: 1e999\x7d" =
      .ok [.mark '\x7b', .atom "n", .mark ':', .atom "1e999", .mark '\x7d'] := by cbv
    rw [Literal.compile_eq_read (some Pipe.compile) (by decide)]
    have htrim : Text.trim "\x7bn: 1e999\x7d" = "\x7bn: 1e999\x7d" := by decide
    rw [htrim, Literal.read, hlex]
    rfl
  · have hwrite : (Json.object [("n", .float (.infinity false))]).write =
      "\x7b\"n\":Infinity\x7d" := by decide
    have hdoubles : ∀ x ∈ (Json.object [("n", .float (.infinity false))]).floats, x.IsDouble :=
      fun x hx => List.mem_singleton.1 hx ▸ trivial
    rw [← hwrite, Json.isText_write_iff hdoubles] at h
    exact h (.infinity false) (List.mem_singleton.2 rfl)

end Markup
end Hydration
