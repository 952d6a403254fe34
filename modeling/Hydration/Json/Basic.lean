import Hydration.Number.Binary64
/-!
# JSON documents

Documents with the fields of an object in order, and their compact text: no blanks between
lexemes, and every character of a string as itself unless it must be escaped.
-/
namespace Hydration

/-- A JSON document. -/
inductive Json
  | null
  | bool (b : Bool)
  | int (i : Int)
  | float (x : Binary64)
  | string (t : Text)
  | array (items : List Json)
  | object (fields : List (Text × Json))
  deriving Inhabited

namespace Json

/-- One character of a string: the quote and the backslash with a backslash before, a control by
its letter or its number, any other character as itself. -/
def writeChar (c : Char) : Text :=
  if c = '"' then "\\\""
  else if c = '\\' then "\\\\"
  else if c = '\n' then "\\n"
  else if c = '\r' then "\\r"
  else if c = '\t' then "\\t"
  else if c = '\x0c' then "\\f"
  else if c = '\x08' then "\\b"
  else if c.toNat < 32 then "\\u" ++ Text.ofHex 4 c.toNat
  else [c]

/-- A string between its quotes. -/
def writeString (t : Text) : Text := '"' :: t.flatMap writeChar ++ ['"']

/-- An integer. -/
def writeInt (i : Int) : Text :=
  if i < 0 then '-' :: Text.ofNat i.natAbs else Text.ofNat i.natAbs

/-- A floating-point number, with words for those that are not finite. -/
def writeFloat : Binary64 → Text
  | .nan => "NaN"
  | .infinity negative => Binary64.signText negative ++ "Infinity"
  | x => x.toText

mutual

/-- The compact text of a document. -/
def write : Json → Text
  | .null => "null"
  | .bool b => if b then "true" else "false"
  | .int i => writeInt i
  | .float x => writeFloat x
  | .string t => writeString t
  | .array items => '[' :: writeItems items
  | .object fields => '{' :: writeFields fields

/-- The items after the opening bracket, and the closing bracket. -/
def writeItems : List Json → Text
  | [] => [']']
  | v :: rest => write v ++ writeMoreItems rest

/-- The items after the first, each with a comma before, and the closing bracket. -/
def writeMoreItems : List Json → Text
  | [] => [']']
  | v :: rest => ',' :: write v ++ writeMoreItems rest

/-- The fields after the opening brace, and the closing brace. -/
def writeFields : List (Text × Json) → Text
  | [] => ['}']
  | (k, v) :: rest => writeString k ++ ':' :: write v ++ writeMoreFields rest

/-- The fields after the first, each with a comma before, and the closing brace. -/
def writeMoreFields : List (Text × Json) → Text
  | [] => ['}']
  | (k, v) :: rest => ',' :: writeString k ++ ':' :: write v ++ writeMoreFields rest

end

/-- The value of the first field of the given name. -/
def field? (name : Text) : Json → Option Json
  | .object fields => fields.lookup name
  | _ => none

end Json
end Hydration
