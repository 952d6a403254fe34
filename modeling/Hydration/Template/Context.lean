import Hydration.Template.Place
/-!
# Contexts

What a page is made from: its variables, and the text that its engine shows for what is missing. An
expression is evaluated in a context and may leave it changed, since methods of values can change
the values that they belong to.

* `get?_user`: what the page sets hides the constants that are always there.
* `get?_put`: a variable that was changed has its new value.
* `put_get?`: a variable that is given the value which it has changes nothing.
-/
namespace Hydration

/-- The variables of a page in the order in which they were set, and the text for what is missing. A
page of no engine has no such text. -/
structure Context where
  values : List (Text × Value)
  invalid : Option Text

/-- A computation in a context, which it may change. -/
abbrev Evaluation (α : Type) := StateT Context (Except Failure) α

/-- A computation that does not look at the context. -/
def Evaluation.ofExcept {α : Type} (r : Except Failure α) : Evaluation α := StateT.lift r

theorem Evaluation.run_ofExcept {α : Type} (x : α) (c : Context) :
    (Evaluation.ofExcept (.ok x)).run c = .ok (x, c) := rfl

namespace Context

/-- The context of a page of no engine. -/
def ofValues (values : List (Text × Value)) : Context := ⟨values, none⟩

/-- The constants that every context has. -/
def constants : List (Text × Value) := [("True", .bool true), ("False", .bool false), ("None", .none)]

/-- The value of a variable. -/
def get? (c : Context) (name : Text) : Option Value :=
  (c.values.lookup name).or (constants.lookup name)

/-- The context with another value for a variable; constants stay as they are. -/
def put (c : Context) (name : Text) (v : Value) : Context :=
  { c with values := putFirst name v c.values }

theorem get?_user {c : Context} {name : Text} {v : Value} (h : c.values.lookup name = some v) :
    c.get? name = some v := by
  simp [get?, h]

theorem get?_put {c : Context} {name : Text} {v : Value} (new : Value)
    (h : c.values.lookup name = some v) : (c.put name new).get? name = some new :=
  get?_user (lookup_putFirst new h)

theorem put_get? {c : Context} {name : Text} {v : Value} (h : c.values.lookup name = some v) :
    c.put name v = c := by
  simp [put, putFirst_lookup h]

end Context
end Hydration
