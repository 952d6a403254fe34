import Hydration.Json.Encode
import Hydration.Text.Escape
import Hydration.Text.Blank
/-!
# The fragment of a component

    <TAG attr="…" data-react-class="PATH" data-react-props="JSON">BODY</TAG>

The element that a component is rendered into: first the attributes of its container, in order,
then the two attributes that the client reads. Attribute values are escaped, names are checked, and
the two reserved names cannot be taken.

* `checkAttributeName_reserved`: a reserved name is a conflict.
* `openTag_attributes`: attributes stand one after the other.
-/
namespace Hydration.Markup

/-- The attribute that holds the path of the component. -/
def classAttribute : Text := "data-react-class"

/-- The attribute that holds the props. -/
def propsAttribute : Text := "data-react-props"

/-- The key of a container under which its tag name stands. -/
def tagKey : Text := "tag"

/-- The tag name of a container that is not given. -/
def defaultTag : Text := "div"

/-! ## Names -/

/-- An ASCII letter. -/
def isLetter (c : Char) : Bool := c.isAlpha

/-- Whether the text is a tag name: a letter, then letters, digits and hyphens. -/
def isTagName : Text → Bool
  | [] => false
  | c :: rest => isLetter c && rest.all fun x => isLetter x || x.isDigit || x == '-'

/-- The characters of attribute names: no blank, no quote, none of `>`, `/` and `=`, no control. -/
def isAttributeChar (c : Char) : Bool :=
  !(Text.isBlank c || c == '"' || c == '\'' || c == '>' || c == '/' || c == '=' || c.toNat < 32)

/-- Whether the text is an attribute name. -/
def isAttributeName (t : Text) : Bool := !t.isEmpty && t.all isAttributeChar

/-- Whether the name belongs to one of the two attributes for the client. -/
def isReserved (t : Text) : Bool := t == classAttribute || t == propsAttribute

/-- The tag name that a value is. -/
def checkTagName (v : Value) : Except Failure Text :=
  match v with
  | .text _ t => if isTagName t then .ok t else refuse
  | _ => refuse
where
  /-- The failure that shows the value. -/
  refuse : Except Failure Text := do
    let shown ← v.inspect
    .error (.container (.tagName shown))

/-- The attribute name that a value is. -/
def checkAttributeName (v : Value) : Except Failure Text :=
  match v with
  | .text _ t =>
    if isAttributeName t then if isReserved t then .error (.reserved t) else .ok t
    else refuse
  | _ => refuse
where
  /-- The failure that shows the value. -/
  refuse : Except Failure Text := do
    let shown ← v.inspect
    .error (.container (.attributeName shown))

theorem checkAttributeName_reserved (safe : Bool) :
    checkAttributeName (.text safe classAttribute) = .error (.reserved classAttribute) ∧
      checkAttributeName (.text safe propsAttribute) = .error (.reserved propsAttribute) := by
  cases safe <;> constructor <;> rfl

/-! ## Props and containers -/

/-- Whether the value is given in no other way than by being left out. -/
def isOmitted (v : Value) : Bool :=
  match v with
  | .none => true
  | v => v.equals (.str [])

/-- The props as entries: none if they are left out, and nothing but a mapping else. -/
def normalizeProps (v : Value) : Except Failure (List (Value × Value)) :=
  if isOmitted v then .ok []
  else
    match v.entries? with
    | some entries => .ok entries
    | none => .error (.propsType v.typeName)

/-- A container: its tag name and its attributes with their values. -/
structure Container where
  tag : Text
  attributes : List (Text × Text)
  deriving DecidableEq, Repr

/-- Whether an attribute with this value is left out. -/
def isDropped : Value → Bool
  | .none => true
  | .bool b => !b
  | _ => false

/-- The attributes of a container's entries, in order. -/
def readAttributes : List (Value × Value) → Except Failure (List (Text × Text))
  | [] => .ok []
  | (k, v) :: rest =>
    if k.equals (.str tagKey) then readAttributes rest
    else do
      let name ← checkAttributeName k
      if isDropped v then readAttributes rest
      else
        let value ← v.toText
        let more ← readAttributes rest
        pure ((name, Text.escapeQuotes value) :: more)

/-- The container that a value describes: left out, a tag name, or a mapping with one. -/
def normalizeContainer (v : Value) : Except Failure Container :=
  if isOmitted v then .ok ⟨defaultTag, []⟩
  else
    match v with
    | .text _ _ => (checkTagName v).map fun tag => ⟨tag, []⟩
    | v =>
      match v.entries? with
      | none => .error (.container (.notAMapping v.typeName))
      | some entries =>
        match Value.lookup? (.str tagKey) entries with
        | none => .error (.container .missingTag)
        | some tag => do
          let tag ← checkTagName tag
          let attributes ← readAttributes entries
          pure ⟨tag, attributes⟩

/-! ## Writing -/

/-- The props as compact JSON, fit to stand between double quotes. -/
def serializeProps (v : Value) : Except Failure Text :=
  v.encode.map fun j => Text.escapeQuotes j.write

/-- One attribute with a blank before it. -/
def writeAttribute (name value : Text) : Text := ' ' :: name ++ '=' :: '"' :: value ++ ['"']

/-- The opening tag of a fragment. Values are escaped already, but for the path. -/
def openTag (tag : Text) (attributes : List (Text × Text)) (path propsJson : Text) : Text :=
  '<' :: tag ++ (attributes.flatMap fun (k, v) => writeAttribute k v) ++
    writeAttribute classAttribute (Text.escapeQuotes path) ++
    writeAttribute propsAttribute propsJson ++ ['>']

theorem openTag_attributes (tag : Text) (attributes : List (Text × Text)) (path json : Text) :
    openTag tag attributes path json =
      '<' :: tag ++ ((attributes ++ [(classAttribute, Text.escapeQuotes path),
        (propsAttribute, json)]).flatMap fun (k, v) => writeAttribute k v) ++ ['>'] := by
  simp [openTag]

/-- The whole fragment around a body. -/
def writeFragment (container : Container) (path propsJson body : Text) : Text :=
  openTag container.tag container.attributes path propsJson ++ body ++
    '<' :: '/' :: container.tag ++ ['>']

end Hydration.Markup
