import Hydration.Json.Basic
import Hydration.Value.Text
/-!
# Values as JSON

Which document a value becomes when it is sent to the client. Text, numbers, truth values, lists
and dicts have documents of their own; dates and spans become ISO 8601 text, and other decimal
numbers, identifiers and lazy text their text. Keys that are numbers or truth values become text.
-/
namespace Hydration.Value

/-- The name of the field under which an entry is written. -/
def encodeKey : Value → Except Failure Text
  | .text _ t => .ok t
  | .float x => .ok (Json.writeFloat x)
  | .bool b => .ok (if b then "true" else "false")
  | .none => .ok "null"
  | .int i => intText i
  | v => .error (.type (.key v.fullTypeName))

/-- The document of a value that holds no other values. -/
def encodeLeaf : Value → Except Failure Json
  | .none => .ok .null
  | .bool b => .ok (.bool b)
  | .int i => (intText i).map fun _ => .int i
  | .float x => .ok (.float x)
  | .text _ t => .ok (.string t)
  | .lazy _ t => .ok (.string t)
  | .decimal d => .ok (.string d.toText)
  | .uuid t => .ok (.string t)
  | .moment m => .ok (.string m.toMilliseconds)
  | .day d => .ok (.string d.toText)
  | .clock c =>
    if c.zone.isSome then .error (.value .zonedTime) else .ok (.string c.toMilliseconds)
  | .span s => .ok (.string s.toDuration)
  | v => .error (.type (.notSerializable v.typeName))

mutual

/-- The document of a value. -/
def encode : Value → Except Failure Json
  | .list items => (encodeItems items).map .array
  | .tuple items | .record _ items => (encodeItems items).map .array
  | .dict entries => (encodeEntries entries).map .object
  | v => encodeLeaf v

/-- The documents of the items. -/
def encodeItems : List Value → Except Failure (List Json)
  | [] => .ok []
  | v :: rest => do
    let item ← encode v
    let items ← encodeItems rest
    pure (item :: items)

/-- The fields of the entries. -/
def encodeEntries : List (Value × Value) → Except Failure (List (Text × Json))
  | [] => .ok []
  | (k, v) :: rest => do
    let key ← encodeKey k
    let value ← encode v
    let fields ← encodeEntries rest
    pure ((key, value) :: fields)

end

end Hydration.Value
