import Hydration.Value.Basic
/-!
# Values as text

`Value.toText` is what stands in a page when a value is put there; `Value.inspect` is how a message
shows a value, with quotes around text and the type around values that have no notation. Inside a
list, a tuple, a set or a mapping the items are always shown as in a message. An integer of too
many digits has no text.
-/
namespace Hydration.Value

/-- The text of an integer within the limit. -/
def intText (i : Int) : Except Failure Text :=
  match Number.intText? i with
  | some t => .ok t
  | Option.none => .error (.value (.tooManyDigits Option.none))

/-- The parts with commas between and the given brackets around. -/
def bracketed (opening closing : Text) (parts : List Text) : Text :=
  opening ++ (", ".toList).intercalate parts ++ closing

/-- A tuple shows a comma after a single item. -/
def tupleText : List Text → Text
  | [part] => '(' :: part ++ ",)"
  | parts => bracketed "(" ")" parts

/-- A set without items shows its type. -/
def setText : List Text → Text
  | [] => "set()"
  | parts => bracketed ['{'] ['}'] parts

/-- A view shows its type around its parts. -/
def viewText (part : ViewPart) (parts : List Text) : Text :=
  viewName part ++ '(' :: bracketed "[" "]" parts ++ [')']

/-- A record shows its type around its items, each after its name. -/
def recordText (kind : RecordKind) (parts : List Text) : Text :=
  kind.fullName ++
    bracketed "(" ")" (kind.fields.zipWith (fun name part => name ++ '=' :: part) parts)

mutual

/-- The value as a message shows it. -/
def inspect : Value → Except Failure Text
  | .none => .ok "None"
  | .bool b => .ok (if b then "True" else "False")
  | .int i => intText i
  | .float x => .ok x.toText
  | .text _ t => .ok (Text.inspect t)
  | .lazy _ t => .ok (Text.inspect t)
  | .bytes b => .ok (Text.inspectBytes b)
  | .list items => (inspectItems items).map (bracketed "[" "]")
  | .tuple items => (inspectItems items).map tupleText
  | .set items => (inspectItems items).map setText
  | .dict entries => (inspectEntries entries).map (bracketed ['{'] ['}'])
  | .mapping entries =>
    (inspectEntries entries).map fun parts => "mappingproxy(" ++ bracketed ['{'] ['}'] parts ++ ")"
  | .decimal d => .ok ("Decimal('" ++ d.toText ++ "')")
  | .uuid t => .ok ("UUID('" ++ t ++ "')")
  | .day d => .ok d.inspect
  | .moment m => .ok m.inspect
  | .clock c => .ok c.inspect
  | .span s => .ok s.inspect
  | .view .keys entries => (inspectKeys entries).map (viewText .keys)
  | .view .values entries => (inspectValues entries).map (viewText .values)
  | .view .items entries => (inspectPairs entries).map (viewText .items)
  | .record kind items => (inspectItems items).map (recordText kind)
  | .object form _ => .ok form.shown
  | .call _ => .ok "<function>"

/-- The items as a message shows them. -/
def inspectItems : List Value → Except Failure (List Text)
  | [] => .ok []
  | v :: rest => do
    let part ← inspect v
    let parts ← inspectItems rest
    pure (part :: parts)

/-- The entries as a message shows them, each key before a colon. -/
def inspectEntries : List (Value × Value) → Except Failure (List Text)
  | [] => .ok []
  | (k, v) :: rest => do
    let key ← inspect k
    let value ← inspect v
    let parts ← inspectEntries rest
    pure ((key ++ ": " ++ value) :: parts)

/-- The keys of entries as a message shows them. -/
def inspectKeys : List (Value × Value) → Except Failure (List Text)
  | [] => .ok []
  | (k, _) :: rest => do
    let key ← inspect k
    let parts ← inspectKeys rest
    pure (key :: parts)

/-- The values of entries as a message shows them. -/
def inspectValues : List (Value × Value) → Except Failure (List Text)
  | [] => .ok []
  | (_, v) :: rest => do
    let value ← inspect v
    let parts ← inspectValues rest
    pure (value :: parts)

/-- The entries as a message shows them, each as a pair. -/
def inspectPairs : List (Value × Value) → Except Failure (List Text)
  | [] => .ok []
  | (k, v) :: rest => do
    let key ← inspect k
    let value ← inspect v
    let parts ← inspectPairs rest
    pure (tupleText [key, value] :: parts)

end

/-- The value as text. A mapping is written as a dict is. -/
def toText : Value → Except Failure Text
  | .mapping entries => inspect (.dict entries)
  | .text _ t => .ok t
  | .lazy _ t => .ok t
  | .decimal d => .ok d.toText
  | .uuid t => .ok t
  | .day d => .ok d.toText
  | .moment m => .ok m.toText
  | .clock c => .ok c.toText
  | .span s => .ok s.toText
  | .object form _ => .ok form.text
  | v => inspect v

end Hydration.Value
