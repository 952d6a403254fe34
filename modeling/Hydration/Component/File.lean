import Hydration.Renderer.Basic
/-!
# Components

What component modules contain. A module shows attributes; the one that the configuration names must
be callable. It is called with a copy of the props and gives an instance, which is the markup, or
has a way to render it. Most kinds of modules take one value that their markup depends on.

* `member_eq_own`: but for one kind, a module shows under any but the usual name what all modules
  show.
* `markup_plain`: an instance that does not render is its own markup.
-/
namespace Hydration

/-- The kinds of component modules. -/
inductive ComponentKind
  | simple
  | hello
  | keys
  | given
  | explode
  | explodeAtStart
  | broken
  | empty
  | notCallable
  | textualRender
  | renderGiven
  | renderTwice
  | mutate
  | counter
  | attributes
  deriving DecidableEq, Repr

/-- The content of a component file: its kind and the value that it was given. -/
structure ComponentFile where
  kind : ComponentKind
  given : Value

namespace ComponentFile

/-- What a callable attribute does: what the kind of the module says, or always the same. The
functions that every module has answer with a text, or do not take what they are called with. -/
inductive Behaviour
  | byKind
  | constant (t : Text)
  | own (answer : Except Text Text)

/-- What a module shows under a name. -/
inductive Member
  | absent
  | plain
  | callable (b : Behaviour)

/-- The name under which a module usually shows its component. -/
def usualName : Text := "Component"

/-- The comparisons that every module has. None of them knows what to do with a mapping. -/
def comparisons : List Text :=
  ["__eq__", "__ge__", "__gt__", "__le__", "__lt__", "__ne__", "__subclasshook__"]

/-- The other functions that every module has, with what they say to a mapping. -/
def ownFunctions : List (Text × Text) :=
  let alone (name : Text) : Text × Text := (name, name ++ "() takes no arguments (1 given)")
  let without (name : Text) : Text × Text := (name, "expected 0 arguments, got 1")
  let named (name : Text) : Text × Text := (name, "attribute name must be string, not 'dict'")
  let made (name : Text) : Text × Text := (name, "module() argument 'name' must be str, not dict")
  [alone "__dir__", alone "__getstate__", alone "__reduce__", alone "__sizeof__",
    without "__hash__", without "__repr__", without "__str__",
    named "__delattr__", named "__getattribute__", made "__class__", made "__init__",
    ("__format__", "__format__() argument must be str, not dict"),
    ("__init_subclass__", "module.__init_subclass__() takes no arguments (1 given)"),
    ("__new__", "module.__new__(X): X is not a type object (dict)"),
    ("__reduce_ex__", "'dict' object cannot be interpreted as an integer"),
    ("__setattr__", " expected 2 arguments, got 1")]

/-- What every module shows under a name. -/
def ownMember (name : Text) : Member :=
  if comparisons.contains name then .callable (.own (.ok "NotImplemented"))
  else
    match ownFunctions.lookup name with
    | some message => .callable (.own (.error message))
    | none => .absent

/-- What the module shows under a name. -/
def member (f : ComponentFile) (name : Text) : Member :=
  match f.kind with
  | .empty => ownMember name
  | .attributes =>
    if name = "Widget".toList then .callable (.constant "widget")
    else if name = usualName then .callable (.constant "component")
    else if name = "render".toList then .plain
    else ownMember name
  | .notCallable => if name = usualName then .plain else ownMember name
  | _ => if name = usualName then .callable .byKind else ownMember name

theorem member_eq_own {f : ComponentFile} {name : Text} (hk : f.kind ≠ .attributes)
    (hn : name ≠ usualName) : f.member name = ownMember name := by
  unfold member
  split
  · rfl
  · next h => exact absurd h hk
  · rw [if_neg hn]
  · rw [if_neg hn]

/-- What is said when the module cannot be imported. -/
def importFault? (f : ComponentFile) : Option (Except Failure Text) :=
  match f.kind with
  | .broken => some f.given.toText
  | _ => none

/-! ## Calling -/

/-- What a component gives when it is called. -/
inductive Instance
  | plain (v : Value)
  | rendering (result : Except Failure Value)

/-- The failure that a component raises with a value. -/
def raised {α : Type} (v : Value) : Except Failure α := do
  let t ← v.toText
  .error (.value (.raised t))

/-- The key under which some components look for a name, and the name if there is none. -/
def greeted (props : Props) : Value :=
  (Value.lookup? (.str "name") props).getD (.str "you")

/-- Calls the component of a module by its kind. Calls are counted from one. -/
def callByKind (f : ComponentFile) (count : Nat) (props : Props) :
    Except Failure Instance :=
  match f.kind with
  | .simple => .ok (.rendering (.ok (.str "<div>Hello, test!</div>")))
  | .hello => .ok (.rendering do
      let t ← (greeted props).toText
      pure (.str ("<p>Hello, " ++ Text.escape t ++ "!</p>")))
  | .keys => do
    let keys ← Renderer.sortedKeys props
    pure (.plain (.str ("<f>" ++ [','].intercalate keys ++ "</f>")))
  | .given => .ok (.plain f.given)
  | .explode => .ok (.rendering (raised f.given))
  | .explodeAtStart => raised f.given
  | .textualRender => .ok (.plain (.str "<str/>"))
  | .renderGiven => .ok (.rendering (.ok f.given))
  | .renderTwice => .ok (.rendering (.ok (.str "<inner/>")))
  | .mutate =>
    let props := Value.insert (.str "mutated") (.bool true) props
    .ok (.plain (.str (Text.ofNat props.length)))
  | .counter => do
    let t ← f.given.toText
    pure (.plain (.str (t ++ Text.ofNat count)))
  | .broken | .empty | .notCallable | .attributes => .ok (.plain .none)

/-- Calls a callable attribute of a module. -/
def call (f : ComponentFile) (b : Behaviour) (count : Nat) (props : Props) :
    Except Failure Instance :=
  match b with
  | .byKind => f.callByKind count props
  | .constant t | .own (.ok t) => .ok (.plain (.str t))
  | .own (.error message) => .error (.type (.arguments message))

/-- What an object renders to, if it has a function for that. -/
def renderOf : Value → Option Value
  | .object _ attributes =>
    match attributes.lookup "render".toList with
    | some (.call result) => some result
    | _ => none
  | _ => none

/-- The markup that an instance gives. -/
def Instance.markup : Instance → Except Failure Text
  | .plain v => ((renderOf v).getD v).toText
  | .rendering result => do
    let v ← result
    v.toText

theorem markup_plain {v : Value} (h : renderOf v = none) :
    (Instance.plain v).markup = v.toText := by
  simp [Instance.markup, h]

/-! ## Props -/

/-- Puts pairs into the props, one after the other. Each must have two parts, the first of which can
be a key. -/
def addPairs : Nat → Props → List Value → Except Failure Props
  | _, props, [] => .ok props
  | index, props, pair :: rest =>
    match pair.iterate? with
    | none => .error (.type (.notAPair index))
    | some [key, value] =>
      match key.unhashable? with
      | some name => .error (.type (.unhashable name))
      | none => addPairs (index + 1) (Value.insert key value props) rest
    | some parts => .error (.value (.pairLength index parts.length))

/-- The props that an object describes which names its keys. An object has no value under a key, so
there must be none. -/
def propsByKeys (type : Text) (keys : Value) : Except Failure Props :=
  match keys with
  | .call keys =>
    match keys.iterate? with
    | none => .error (.type (.keysNotIterable type keys.fullTypeName))
    | some [] => .ok []
    | some _ => .error (.type (.notSubscriptable type))
  | keys => .error (.type (.notCallable keys.fullTypeName))

/-- The props as a component gets them: none for a value that is empty, a copy of a mapping, or the
pairs of any other value that has parts. -/
def copyProps (v : Value) : Except Failure Props :=
  if v.isTrue then
    match v with
    | .dict entries | .mapping entries => .ok entries
    | .object form attributes =>
      match attributes.lookup "keys".toList with
      | some keys => propsByKeys form.type keys
      | none => .error (.type (.notIterable v.fullTypeName))
    | v =>
      match v.iterate? with
      | some pairs => addPairs 0 [] pairs
      | none => .error (.type (.notIterable v.fullTypeName))
  else .ok []

end ComponentFile
end Hydration
