import Hydration.Literal.Reader
import Hydration.Markup
import Hydration.Path
import Hydration.Tag.Arguments
/-!
# Component fragments

What a component tag is compiled to: where its component is, and the expressions of its clauses.
Whatever can be told about the props and the container without a context is checked here, so that a
fault in a literal is found when the template is read.
-/
namespace Hydration

/-- Where a component is: at a path that is known, or at the path of a reference that is evaluated
for every page. The root is the directory of the components. -/
inductive ComponentSource
  | path (root resolved : Text)
  | reference (root source : Text) (pipe : Pipe)

namespace ComponentSource

/-- The directory of the components. -/
def root : ComponentSource → Text
  | .path root _ => root
  | .reference root _ _ => root

/-- The source of a tag's component under the given root. -/
def ofArguments (root : Text) (arguments : Tag.TagArguments) : Except Failure ComponentSource :=
  if arguments.isLiteral then .ok (.path root (Path.resolve root arguments.reference))
  else (Pipe.compile arguments.reference).map (.reference root arguments.reference)

/-- The path of the component in a context. A reference must be a text that is not empty. -/
def resolvedPath : ComponentSource → Evaluation Text
  | .path _ resolved => pure resolved
  | .reference root source pipe => do
    match ← pipe.evaluate with
    | .text _ (x :: rest) => pure (Path.resolve root (x :: rest))
    | v =>
      let shown ← Evaluation.ofExcept v.inspect
      throw (.resolution source (.reference shown))

/-- How a log names the component: by its path, or by its reference. -/
def describe : ComponentSource → Text
  | .path _ resolved => resolved
  | .reference _ source _ => source

/-- Whether two sources are written alike. -/
def same : ComponentSource → ComponentSource → Bool
  | .path r p, .path s q => r == s && p == q
  | .reference r a _, .reference s b _ => r == s && a == b
  | _, _ => false

end ComponentSource

/-- A compiled tag. The extension is the name under which its renderer is registered. -/
structure Fragment where
  tag : Text
  component : ComponentSource
  props : Option Expression
  container : Option Expression
  extension : Text

namespace Fragment

/-- The name under which the renderer of components is registered. -/
def defaultExtension : Text := "react"

/-! ## Checks before rendering -/

/-- Checks the props as far as they are known: no array, and no constant but one that stands for
no props. -/
def checkProps : Expression → Except Failure Unit
  | .array _ => .error (.props .array)
  | .constant v =>
    if Markup.isOmitted v then .ok ()
    else do
      let shown ← v.inspect
      .error (.props (.literal shown))
  | _ => .ok ()

/-- Checks the names of the attributes, in order. -/
def checkNames : List Text → Except Failure Unit
  | [] => .ok ()
  | name :: rest =>
    if name = Markup.tagKey then checkNames rest
    else do
      let _ ← Markup.checkAttributeName (.str name)
      checkNames rest

/-- Checks the entries of a container: a tag name, if it is a constant, and all attribute names. -/
def checkEntries (entries : List (Text × Expression)) : Except Failure Unit :=
  match Expression.get? entries Markup.tagKey with
  | none => .error (.container .missingTag)
  | some tag => do
    match tag with
    | .constant v => let _ ← Markup.checkTagName v
    | _ => pure ()
    checkNames (Expression.keys entries)

/-- Checks the container as far as it is known. -/
def checkContainer : Expression → Except Failure Unit
  | .variable _ _ => .ok ()
  | .constant v =>
    if Markup.isOmitted v then .ok ()
    else (Markup.checkTagName v).map fun _ => ()
  | .array _ => .error (.container .array)
  | .object entries => checkEntries entries

/-! ## Compiling -/

/-- Compiles a clause and checks it; a clause that is left out is no expression. -/
def compileClause (check : Expression → Except Failure Unit) :
    Option Text → Except Failure (Option Expression)
  | none => .ok none
  | some text => do
    let e ← Expression.compile (some Pipe.compile) text
    check e
    pure (some e)

/-- Compiles a tag. A token that was handed back is a fault. -/
def compile (root extension : Text) (tag : Tag.ParsedTag) : Except Failure Fragment :=
  match tag.forwarded with
  | token :: _ => .error (.unexpectedArgument token.text tag.name)
  | [] => do
    let component ← ComponentSource.ofArguments root tag.arguments
    let props ← compileClause checkProps tag.arguments.props
    let container ← compileClause checkContainer tag.arguments.container
    pure ⟨tag.name, component, props, container, extension⟩

/-- What a log says about a compiled tag: its clauses as they were written. -/
def describe (f : Fragment) (arguments : Tag.TagArguments) : Text :=
  let clause : Option Text → Text := fun c => c.getD "None"
  "compiled " ++ f.tag ++ " tag: component=" ++ f.component.describe ++
    " props=" ++ clause arguments.props ++ " container=" ++ clause arguments.container

/-! ## Values -/

/-- The value of a clause in a context; a clause that is left out is nothing. -/
def clauseValue : Option Expression → Evaluation Value
  | none => pure .none
  | some e => e.evaluate

/-- The path, the props and the container of a tag in a context, evaluated in this order. -/
def values (f : Fragment) : Evaluation (Text × Value × Value) := do
  let path ← f.component.resolvedPath
  let props ← clauseValue f.props
  let container ← clauseValue f.container
  pure (path, props, container)

/-- Whether two clauses are written alike. -/
def sameClause : Option Expression → Option Expression → Bool
  | none, none => true
  | some a, some b => a.same b
  | _, _ => false

/-- Whether two fragments are alike. -/
def same (a b : Fragment) : Bool :=
  a.tag == b.tag && a.component.same b.component && sameClause a.props b.props &&
    sameClause a.container b.container && a.extension == b.extension

end Fragment
end Hydration
