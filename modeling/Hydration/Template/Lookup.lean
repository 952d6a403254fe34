import Hydration.Member
import Hydration.Template.Context
import Hydration.Text.Percent
/-!
# Filter expressions in a context

The first name of a path is looked up in the context, each further one in the value found so far:
as a key, as an attribute or a member of the value's type, or as a position. A function found on the
way is called, and so is a method. A look-up that fails makes the whole variable missing. A method
that wants arguments stands for the text for what is missing.

* `follow_nil`: a path that ends is at its value and changes nothing.
-/
namespace Hydration

/-- What following a path comes to: a value, or a name that is missing. -/
inductive Reached
  | found (v : Value)
  | missing (name : Text)

namespace Value

/-- What a name leads to from a value: a place in it, or a member. -/
inductive Way
  | place (p : Place)
  | member (m : Member)

/-- The way under a name: by key, by attribute, by member, or by position. -/
def way? (name : Text) (v : Value) : Option Way :=
  (((keyed? name v).or (attribute? name v)).map Way.place).or
    (((member? name v).map Way.member).or
      (((Number.readInt? name).bind fun i => positioned? i v).map Way.place))

/-- What stands for a method without its arguments, given the text for what is missing. -/
def unanswered (invalid : Option Text) : Except Failure Value :=
  match invalid with
  | some t => .ok (str t)
  | Option.none => .error (.missingAttribute "NoneType" "engine")

/-- Follows names from a value on. Gives what is reached, and the value as it is after that. -/
def follow (invalid : Option Text) (v : Value) : List Text → Except Failure (Reached × Value)
  | [] => .ok (.found v, v)
  | name :: rest =>
    match way? name v with
    | Option.none => .ok (.missing name, v)
    | some (.place p) => do
      let (r, w) ← follow invalid p.called.part rest
      pure (r, p.called.replace w)
    | some (.member (.found w)) => do
      let (r, _) ← follow invalid w rest
      pure (r, v)
    | some (.member (.changed w after)) => do
      let (r, _) ← follow invalid w rest
      pure (r, after)
    | some (.member (.failed f)) => .error f
    | some (.member .wantsArguments) => do
      let w ← unanswered invalid
      let (r, _) ← follow invalid w rest
      pure (r, v)

theorem follow_nil (invalid : Option Text) (v : Value) : follow invalid v [] = .ok (.found v, v) :=
  rfl

end Value

namespace Operand

/-- Follows a path from a context on. -/
def followPath : List Text → Evaluation Reached
  | [] => pure (.missing [])
  | name :: rest => do
    let c ← get
    match c.get? name with
    | none => pure (.missing name)
    | some v =>
      let place := (Place.whole v).called
      let (r, w) ← Evaluation.ofExcept (place.part.follow c.invalid rest)
      set (c.put name (place.replace w))
      pure r

/-- What an operand comes to. -/
def reach : Operand → Evaluation Reached
  | .constant v => pure (.found v)
  | .variable _ path => followPath path

/-- The value of an operand that must not be missing. -/
def resolve (o : Operand) : Evaluation Value := do
  match ← o.reach with
  | .found v => pure v
  | .missing name => throw (.lookup name)

end Operand

namespace Pipe

/-- The value of the argument of a filter. -/
def argumentValue : Option Operand → Evaluation (Option Value)
  | none => pure none
  | some o => do
    let v ← o.resolve
    pure (some v)

/-- Hands a value through filters. -/
def runCalls : List FilterCall → Value → Evaluation Value
  | [], v => pure v
  | call :: rest, v => do
    let argument ← argumentValue call.argument
    let v ← Evaluation.ofExcept (call.filter.run v argument)
    runCalls rest v

/-- The value of an expression. A missing variable is nothing, and goes through the filters. -/
def evaluate (p : Pipe) : Evaluation Value := do
  match p.operand with
  | none => runCalls p.calls .none
  | some operand =>
    match ← operand.reach with
    | .found v => runCalls p.calls v
    | .missing _ => runCalls p.calls .none

/-- The text in the place of a missing variable: the text for what is missing, with the variable put
into its directives if it has one for text. -/
def missingText (invalid source : Text) : Except Failure Text :=
  if Text.occursIn "%s" invalid then
    let shown : Text := "<Variable: " ++ Text.inspect source ++ ['>']
    (Text.Percent.fill ⟨source, shown, "Variable"⟩ invalid).mapError .directive
  else .ok invalid

/-- The value of an expression that is put into a page. In the place of a missing variable stands
the text for that, without filters unless it is empty. -/
def output (p : Pipe) : Evaluation Value := do
  match p.operand with
  | none => runCalls p.calls .none
  | some (.constant v) => runCalls p.calls v
  | some (.variable source path) =>
    match ← Operand.followPath path with
    | .found v => runCalls p.calls v
    | .missing _ =>
      let invalid := (← get).invalid.getD []
      if invalid.isEmpty then runCalls p.calls (.str [])
      else
        let t ← Evaluation.ofExcept (missingText invalid source)
        pure (.str t)

end Pipe
end Hydration
