import Hydration.Template.Lookup
/-!
# Expressions

What the clauses of a tag are compiled to: constants, filter expressions, and the objects and
arrays of inline literals. An expression is evaluated anew for every page.

* `get?_isSome_iff`: an object has an entry under exactly its keys.
-/
namespace Hydration

/-- An expression. A filter expression keeps the text that it was written as. -/
inductive Expression
  | constant (v : Value)
  | variable (source : Text) (pipe : Pipe)
  | object (entries : List (Text × Expression))
  | array (items : List Expression)

namespace Expression

/-- The keys of an object, in the order in which they were written. -/
def keys (entries : List (Text × Expression)) : List Text := entries.map (·.1)

/-- The expression under a key of an object. -/
def get? (entries : List (Text × Expression)) (key : Text) : Option Expression :=
  entries.lookup key

theorem get?_isSome_iff (entries : List (Text × Expression)) (key : Text) :
    (get? entries key).isSome ↔ key ∈ keys entries := by
  induction entries with
  | nil => simp [get?, keys]
  | cons e rest ih =>
    obtain ⟨k, v⟩ := e
    by_cases h : key = k
    · subst h
      simp [get?, keys]
    · have hb : (key == k) = false := by simp [h]
      simp only [get?, keys, List.lookup_cons, hb, List.map_cons, List.mem_cons, h, false_or]
        at ih ⊢
      exact ih

mutual

/-- The value of an expression in a context. Entries and items are evaluated in order. -/
def evaluate : Expression → Evaluation Value
  | .constant v => pure v
  | .variable _ pipe => pipe.evaluate
  | .object entries => do
    let values ← evaluateEntries entries
    pure (.dict values)
  | .array items => do
    let values ← evaluateItems items
    pure (.list values)

/-- The values of entries under their keys. -/
def evaluateEntries : List (Text × Expression) → Evaluation (List (Value × Value))
  | [] => pure []
  | (k, e) :: rest => do
    let v ← evaluate e
    let more ← evaluateEntries rest
    pure ((.str k, v) :: more)

/-- The values of items. -/
def evaluateItems : List Expression → Evaluation (List Value)
  | [] => pure []
  | e :: rest => do
    let v ← evaluate e
    let more ← evaluateItems rest
    pure (v :: more)

end

mutual

/-- Whether two expressions are written alike: constants by value, filter expressions by their
text. -/
def same : Expression → Expression → Bool
  | .constant v, .constant w => v.equals w
  | .variable s _, .variable t _ => s == t
  | .object a, .object b => sameEntries a b
  | .array a, .array b => sameItems a b
  | _, _ => false

/-- Whether two lists of entries are alike, in order. -/
def sameEntries : List (Text × Expression) → List (Text × Expression) → Bool
  | [], [] => true
  | (k, e) :: a, (l, f) :: b => k == l && same e f && sameEntries a b
  | _, _ => false

/-- Whether two lists of items are alike. -/
def sameItems : List Expression → List Expression → Bool
  | [], [] => true
  | e :: a, f :: b => same e f && sameItems a b
  | _, _ => false

end

/-- The name of the kind of an expression. -/
def kindName : Expression → Text
  | .constant _ => "Literal"
  | .variable _ _ => "Variable"
  | .object _ => "ObjectLiteral"
  | .array _ => "ArrayLiteral"

/-- The entries of an object; nothing else has keys. -/
def entries : Expression → Except Failure (List (Text × Expression))
  | .object entries => .ok entries
  | e => .error (.missingAttribute e.kindName "keys")

end Expression
end Hydration
