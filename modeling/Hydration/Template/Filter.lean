import Hydration.Template.Pipe
import Hydration.Text.Letters
import Hydration.Text.Escape
import Hydration.Value.Text
/-!
# What filters do

A filter turns a value into another, with the argument that it was given. Text that is marked as
safe stays so only through the filters that cannot make it unsafe.

* `run_safe_text`: the filter `safe` changes the mark of a text and nothing else.
-/
namespace Hydration

namespace Value

/-- Whether the value is text that may stand in a page as it is. -/
def isSafe : Value → Bool
  | .text safe _ => safe
  | _ => false

/-- The text of a value and whether it is safe. -/
def asText (v : Value) : Except Failure (Bool × Text) :=
  match v with
  | .text safe t => .ok (safe, t)
  | .lazy safe t => .ok (safe, t)
  | v => (toText v).map fun t => (false, t)

/-- The value as safe text. -/
def markSafe (v : Value) : Except Failure Value :=
  match v with
  | .lazy _ t => .ok (.text true t)
  | v => (asText v).map fun (_, t) => .text true t

/-- The text of a value as it stands in a page: escaped, unless it is safe. -/
def escaped (v : Value) : Except Failure Text :=
  (asText v).map fun (safe, t) => if safe then t else Text.escape t

/-- The number of parts of a value that has parts. -/
def length? : Value → Option Nat
  | .text _ t | .lazy _ t => some t.length
  | .bytes b => some b.length
  | .list items | .tuple items | .set items | .record _ items => some items.length
  | .dict entries | .mapping entries | .view _ entries => some entries.length
  | _ => Option.none

/-- The parts of a value one after the other: characters, items, keys or bytes. -/
def iterate? : Value → Option (List Value)
  | .text _ t | .lazy _ t => some (t.map fun c => str [c])
  | .bytes b => some (b.map fun x => .int x.toNat)
  | .list items | .tuple items | .set items | .record _ items => some items
  | .dict entries | .mapping entries | .view .keys entries => some (entries.map (·.1))
  | .view .values entries => some (entries.map (·.2))
  | .view .items entries => some (entries.map fun (k, v) => .tuple [k, v])
  | _ => Option.none

/-- What a subscript of a value gives. -/
inductive Subscript
  | found (v : Value)
  | outOfRange
  | noKey
  | notSubscriptable

/-- The part at a position: counted from the end if the position is negative, or under that number
as a key. -/
def subscript (v : Value) (i : Int) : Subscript :=
  match v with
  | .text _ t | .lazy _ t => ofList (t.map fun c => str [c])
  | .bytes b => ofList (b.map fun x => .int x.toNat)
  | .list items | .tuple items | .record _ items => ofList items
  | .dict entries | .mapping entries =>
    match lookup? (.int i) entries with
    | some v => .found v
    | Option.none => .noKey
  | _ => .notSubscriptable
where
  /-- The item at the position in a list. -/
  ofList (items : List Value) : Subscript :=
    let position := if i < 0 then i + items.length else i
    if position < 0 then .outOfRange
    else
      match items[position.toNat]? with
      | some v => .found v
      | Option.none => .outOfRange

/-- The integer that a value is converted to, if its type allows. -/
def toInt? : Value → Except Failure (Option Int)
  | .bool b => .ok (some (boolInt b))
  | .int i => .ok (some i)
  | .float (.infinity _) => .error (.overflow .infiniteFloat)
  | .float x => .ok x.truncate?
  | .decimal (.infinity _) => .error (.overflow .infiniteDecimal)
  | .decimal d => .ok d.truncate?
  | .text _ t => .ok (Number.readInt? t)
  | .bytes b =>
    .ok (if b.all (· < 128) then Number.readInt? (b.map fun x => Char.ofNat x.toNat) else Option.none)
  | .uuid t => .ok (some (Int.ofNat ((t.filterMap Text.hexValue?).foldl (fun n d => 16 * n + d) 0)))
  | _ => .ok Option.none

/-- Two values put together, if their types allow: texts, lists, spans, or a span and the day or the
moment that it is counted from. Two safe texts make safe text. Numbers arrive here only if one of
them is no number. -/
def append? : Value → Value → Option Value
  | .text a s, .text b t | .text a s, .lazy b t | .lazy a s, .text b t | .lazy a s, .lazy b t =>
    some (.text (a && b) (s ++ t))
  | .bytes a, .bytes b => some (.bytes (a ++ b))
  | .list a, .list b => some (.list (a ++ b))
  | .tuple a, .tuple b | .tuple a, .record _ b | .record _ a, .tuple b | .record _ a, .record _ b =>
    some (.tuple (a ++ b))
  | .span a, .span b => (a.add? b).map .span
  | .day d, .span s | .span s, .day d => (d.add? s.days).map .day
  | .moment m, .span s | .span s, .moment m => (m.add? s).map .moment
  | .float _, .float _ | .float _, .int _ | .float _, .bool _ => some (.float .nan)
  | .int _, .float _ | .bool _, .float _ => some (.float .nan)
  | .decimal (.nan _ true _), _ | _, .decimal (.nan _ true _) => Option.none
  | .decimal (.nan s _ p), .int _ | .decimal (.nan s _ p), .bool _
  | .decimal (.nan s _ p), .decimal _ => some (.decimal (.nan s false p))
  | .int _, .decimal d | .bool _, .decimal d | .decimal _, .decimal d => some (.decimal d)
  | _, _ => Option.none

end Value

namespace Filter

/-- The words of a text, each starting with a capital: a letter after an apostrophe between letters
stays small, and so does one after a digit. -/
def titleCase (t : Text) : Text :=
  afterDigit (afterApostrophe (Text.title t))
where
  /-- Makes a capital small that follows a small letter and an apostrophe. -/
  afterApostrophe : Text → Text
    | a :: '\'' :: b :: rest =>
      if a.isLower && b.isUpper then a :: '\'' :: b.toLower :: afterApostrophe rest
      else a :: afterApostrophe ('\'' :: b :: rest)
    | c :: rest => c :: afterApostrophe rest
    | [] => []
  /-- Makes a capital small that follows a digit. -/
  afterDigit : Text → Text
    | a :: b :: rest =>
      if Text.isDigit a && b.isUpper then a :: b.toLower :: afterDigit rest
      else a :: afterDigit (b :: rest)
    | [c] => [c]
    | [] => []

/-- The first or the last part of a value, or empty text if there is none. -/
def subscriptOrEmpty (v : Value) (i : Int) : Except Failure Value :=
  match v.subscript i with
  | .found part => .ok part
  | .outOfRange => .ok (.str [])
  | .noKey => .error (.key (positionText i))
  | .notSubscriptable => .error (.type (.notSubscriptable v.fullTypeName))
where
  /-- A position as a message shows it. -/
  positionText (i : Int) : Text :=
    if i < 0 then '-' :: Text.ofNat i.natAbs else Text.ofNat i.natAbs

/-- The parts of a value escaped and put together with a separator; a value without parts stays as
it is. -/
def joinWith (v separator : Value) : Except Failure Value :=
  match v.iterate? with
  | none => .ok v
  | some parts => do
    let separator ← separator.escaped
    let parts ← parts.mapM Value.escaped
    pure (.text true (separator.intercalate parts))

/-- The sum of two integers, or two values put together, or empty text. -/
def addTo (v argument : Value) : Except Failure Value := do
  match ← v.toInt? with
  | none => pure ((v.append? argument).getD (.str []))
  | some a =>
    match ← argument.toInt? with
    | none => pure ((v.append? argument).getD (.str []))
    | some b => pure (.int (a + b))

/-- The text without the occurrences of another; safe text stays safe unless semicolons go. -/
def cutFrom (v argument : Value) : Except Failure Value := do
  let (marked, t) ← v.asText
  match argument with
  | .text _ pattern => pure (.text (marked && pattern != [';']) (Text.without pattern t))
  | .none => .error (.type (.notReplaceable "None"))
  | argument => .error (.type (.notReplaceable argument.fullTypeName))

/-- One of the words that stand for yes, no and maybe. -/
def chooseWord (v argument : Value) : Except Failure Value :=
  match argument with
  | .none => .ok (choose ["yes", "no", "maybe"])
  | .text _ t | .lazy _ t => .ok (choose (Text.parts ',' t))
  | .bytes _ => .error (.type .bytesExpected)
  | argument => .error (.missingAttribute argument.fullTypeName "split")
where
  /-- Chooses from the words; fewer than two are no choice. -/
  choose (words : List Text) : Value :=
    match words with
    | yes :: no :: rest =>
      let maybe := match rest with
        | [maybe] => maybe
        | _ => no
      match v with
      | .none => .str maybe
      | v => if v.isTrue then .str yes else .str no
    | _ => v

/-- Whether safe text stays safe through the filter. -/
def keepsSafe : Filter → Bool
  | .lower | .title | .last | .join | .safe => true
  | _ => false

/-- What the filter makes of a value, before its safety is looked at. -/
def apply (f : Filter) (v : Value) (argument : Option Value) : Except Failure Value :=
  let given := argument.getD .none
  match f with
  | .default => .ok (if v.isTrue then v else given)
  | .defaultIfNone =>
    match v with
    | .none => .ok given
    | v => .ok v
  | .upper => v.asText.map fun (_, t) => .str (Text.upper t)
  | .lower => v.asText.map fun (marked, t) => .text marked (Text.lower t)
  | .title => v.asText.map fun (marked, t) => .text marked (titleCase t)
  | .length => .ok (.int (v.length?.getD 0))
  | .first => subscriptOrEmpty v 0
  | .last => subscriptOrEmpty v (-1)
  | .join => joinWith v given
  | .add => addTo v given
  | .cut => cutFrom v given
  | .yesno => chooseWord v given
  | .safe => v.markSafe

/-- What the filter makes of a value. -/
def run (f : Filter) (v : Value) (argument : Option Value) : Except Failure Value := do
  let result ← f.apply v argument
  if f.keepsSafe && v.isSafe then result.markSafe else pure result

theorem run_safe_text (marked : Bool) (t : Text) :
    Filter.safe.run (.text marked t) none = .ok (.text true t) := by
  cases marked <;> rfl

end Filter
end Hydration
