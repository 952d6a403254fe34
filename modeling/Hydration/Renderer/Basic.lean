import Hydration.Template.Filter
/-!
# Renderers

A renderer takes the path of a component and the props, and gives the body of the element. It works
on the very props that are sent to the client afterwards, so it may change what is sent. The usual
renderer runs the module at the path; any other depends on its arguments alone.

* `run_label_props`: a renderer that names its arguments leaves the props as they are.
-/
namespace Hydration

/-- The props of a component: entries with keys of any kind. -/
abbrev Props := List (Value × Value)

/-- What a renderer gives: the body, and the props as it leaves them. -/
structure Rendered where
  body : Value
  props : Props

/-- A renderer: the modules of components, or a function of the path and the props, with a name to
know it by. -/
inductive Renderer
  | components
  | function (name : Text) (run : Text → Props → Except Failure Rendered)

/-- What may be registered under a name: a renderer, or a value that cannot be called. -/
inductive Extension
  | renderer (r : Renderer)
  | notCallable

namespace Renderer

/-- The name of the renderer of component modules. -/
def componentsName : Text := "apps.prerender.renderer.render_component_to_string"

/-- The name by which a renderer is known. -/
def name : Renderer → Text
  | .components => componentsName
  | .function name _ => name

/-! ## Renderers for trying out

They need no component files. -/

/-- The keys of the props as text, in the order of their characters. -/
def sortedKeys (props : Props) : Except Failure (List Text) := do
  let keys ← props.mapM fun e => e.1.toText
  pure (keys.mergeSort Text.precedes)

/-- Writes its label, the path and the keys of the props. -/
def runLabel (label path : Text) (props : Props) : Except Failure Rendered := do
  let keys ← sortedKeys props
  pure ⟨.str ('[' :: label ++ '|' :: path ++ '|' :: [','].intercalate keys ++ [']']), props⟩

theorem run_label_props {label path : Text} {props : Props} {r : Rendered}
    (h : runLabel label path props = .ok r) : r.props = props := by
  unfold runLabel at h
  cases hk : sortedKeys props with
  | error f => rw [hk] at h; cases h
  | ok keys => rw [hk] at h; cases h; rfl

/-- A renderer that writes what it is given. -/
def label (name : Text) : Renderer := .function ("label:" ++ name) (runLabel name)

/-- A renderer that always gives the same body, and changes the props by a function. -/
def fixed (name : Text) (body : Value) (change : Props → Props) : Renderer :=
  .function name fun _ props => .ok ⟨body, change props⟩

/-- Adds an entry to the props. -/
def mutating : Renderer :=
  fixed "mutate" (.str "<m/>") (Value.insert (.str "mutated") (.bool true))

/-- Empties the props. -/
def clearing : Renderer := fixed "clear" (.str "<c/>") fun _ => []

/-- Gives a number. -/
def numeric : Renderer := fixed "int" (.int 42) id

/-- Gives nothing. -/
def silent : Renderer := fixed "none" .none id

/-- Gives markup with every character that needs escaping in an attribute. -/
def quoting : Renderer := fixed "quote" (.str "<b class=\"x\">\"&'</b>") id

/-- Always fails. -/
def failing : Renderer :=
  .function "raise" fun _ _ => .error (.value (.raised "renderer failed"))

/-- The fixed renderers for trying out. -/
def samples : List Renderer := [mutating, clearing, failing, numeric, silent, quoting]

/-- The renderer that a description names, or a value that cannot be called. -/
def ofDescription? (t : Text) : Option Extension :=
  match Text.after? "label:" t with
  | some name => some (.renderer (label name))
  | none =>
    if t = "not_callable".toList then some .notCallable
    else ((components :: samples).find? fun r => r.name == t).map .renderer

end Renderer
end Hydration
