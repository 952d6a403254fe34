import Hydration.Member.Basic
import Hydration.Text.Blank
import Hydration.Text.Bytes
import Hydration.Text.Fields
import Hydration.Text.Fold
import Hydration.Text.Forms
import Hydration.Text.Identifier
import Hydration.Text.Utf8
/-!
# Members of texts and bytes

The forms of a text, its words and lines, its bytes, and the classes that it may be in. Bytes have
the same as far as ASCII goes. A lazy text has what its text has, but for one thing: a method that
wants arguments fails with what is said about them.

* `lazy_wanting`: a lazy text never leaves a method without arguments.
-/
namespace Hydration.Member

/-! ## Texts -/

/-- The methods of a text that give a value whatever the text is. -/
def textTable : List (Text × (Text → Value)) :=
  [("capitalize", fun t => .str (Text.capitalize t)),
    ("casefold", fun t => .str (Text.fold t)),
    ("encode", fun t => .bytes (Text.Utf8.encode t)),
    ("expandtabs", fun t => .str (Text.expandTabs t)),
    ("isalnum", fun t => .bool (Text.isAll Text.isAlphanumeric t)),
    ("isalpha", fun t => .bool (Text.isAll Text.isAlphabetic t)),
    ("isascii", fun t => .bool (t.all (·.toNat < 128))),
    ("isdecimal", fun t => .bool (Text.isAll Text.isDigit t)),
    ("isdigit", fun t => .bool (Text.isAll Text.isAnyDigit t)),
    ("isidentifier", fun t => .bool (Text.isIdentifier t)),
    ("islower", fun t => .bool (Text.isLowerText t)),
    ("isnumeric", fun t => .bool (Text.isAll Text.isNumeric t)),
    ("isprintable", fun t => .bool (t.all Text.isPrintable)),
    ("isspace", fun t => .bool (Text.isSpace t)),
    ("istitle", fun t => .bool (Text.isTitleText t)),
    ("isupper", fun t => .bool (Text.isUpperText t)),
    ("lower", fun t => .str (Text.lower t)),
    ("lstrip", fun t => .str (Text.trimLeft t)),
    ("rsplit", fun t => .list ((Text.words t).map .str)),
    ("rstrip", fun t => .str (Text.trimRight t)),
    ("split", fun t => .list ((Text.words t).map .str)),
    ("splitlines", fun t => .list ((Text.lines t).map .str)),
    ("strip", fun t => .str (Text.trim t)),
    ("swapcase", fun t => .str (Text.swapCase t)),
    ("title", fun t => .str (Text.title t)),
    ("upper", fun t => .str (Text.upper t))]

/-- The methods of a text that want arguments, with what is said when there are none. -/
def textWanting : List (Text × Text) :=
  [("center", "center expected at least 1 argument, got 0"),
    ("count", "count() takes at least 1 argument (0 given)"),
    ("endswith", "endswith() takes at least 1 argument (0 given)"),
    ("find", "find() takes at least 1 argument (0 given)"),
    ("format_map", "str.format_map() takes exactly one argument (0 given)"),
    ("index", "index() takes at least 1 argument (0 given)"),
    ("join", "str.join() takes exactly one argument (0 given)"),
    ("ljust", "ljust expected at least 1 argument, got 0"),
    ("maketrans", "maketrans expected at least 1 argument, got 0"),
    ("partition", "str.partition() takes exactly one argument (0 given)"),
    ("removeprefix", "str.removeprefix() takes exactly one argument (0 given)"),
    ("removesuffix", "str.removesuffix() takes exactly one argument (0 given)"),
    ("replace", "replace expected at least 2 arguments, got 0"),
    ("rfind", "rfind() takes at least 1 argument (0 given)"),
    ("rindex", "rindex() takes at least 1 argument (0 given)"),
    ("rjust", "rjust expected at least 1 argument, got 0"),
    ("rpartition", "str.rpartition() takes exactly one argument (0 given)"),
    ("startswith", "startswith() takes at least 1 argument (0 given)"),
    ("translate", "str.translate() takes exactly one argument (0 given)"),
    ("zfill", "str.zfill() takes exactly one argument (0 given)")]

/-- A text with its fields filled from nothing. -/
def filled (t : Text) : Except Failure Value :=
  match Text.Fields.withoutFields t with
  | .ok t => .ok (.str t)
  | .error fault => .error (.field fault)

/-- What a text gives under a name, but for the methods that want arguments. -/
def textPlain? (name t : Text) : Option Member :=
  if name = "format".toList then some (ofExcept (filled t))
  else (textTable.lookup name).map fun method => .found (method t)

/-- What a text has under a name. -/
def ofText? (name t : Text) : Option Member :=
  (textPlain? name t).or ((textWanting.lookup name).map fun _ => .wantsArguments)

/-- What a lazy text has under a name. -/
def ofLazy? (name t : Text) : Option Member :=
  (textPlain? name t).or
    ((textWanting.lookup name).map fun message => .failed (.type (.arguments message)))

theorem textPlain?_ne_wantsArguments (name t : Text) :
    textPlain? name t ≠ some .wantsArguments := by
  unfold textPlain?
  split
  · simp only [ofExcept]
    split <;> simp
  · cases textTable.lookup name <;> simp

theorem lazy_wanting (name t : Text) : ofLazy? name t ≠ some .wantsArguments := by
  unfold ofLazy?
  intro h
  rcases Option.or_eq_some_iff.1 h with h | ⟨-, h⟩
  · exact textPlain?_ne_wantsArguments name t h
  · cases textWanting.lookup name <;> simp at h

/-! ## Bytes -/

/-- The methods of bytes that give a value whatever the bytes are. -/
def bytesTable : List (Text × (List UInt8 → Value)) :=
  [("capitalize", fun b => .bytes (Bytes.capitalize b)),
    ("expandtabs", fun b => .bytes (Bytes.expandTabs b)),
    ("hex", fun b => .str (b.flatMap fun x => Text.ofHex 2 x.toNat)),
    ("isalnum", fun b => .bool (Bytes.isAll Char.isAlphanum b)),
    ("isalpha", fun b => .bool (Bytes.isAll Char.isAlpha b)),
    ("isascii", fun b => .bool (b.all (· < 128))),
    ("isdigit", fun b => .bool (Bytes.isAll Char.isDigit b)),
    ("islower", fun b => .bool (Bytes.isLower b)),
    ("isspace", fun b => .bool (Bytes.isAll Bytes.isBlank b)),
    ("istitle", fun b => .bool (Bytes.isTitle b)),
    ("isupper", fun b => .bool (Bytes.isUpper b)),
    ("lower", fun b => .bytes (Bytes.lower b)),
    ("lstrip", fun b => .bytes (Bytes.trimLeft b)),
    ("rsplit", fun b => .list ((Bytes.words b).map .bytes)),
    ("rstrip", fun b => .bytes (Bytes.trimRight b)),
    ("split", fun b => .list ((Bytes.words b).map .bytes)),
    ("splitlines", fun b => .list ((Bytes.lines b).map .bytes)),
    ("strip", fun b => .bytes (Bytes.trimRight (Bytes.trimLeft b))),
    ("swapcase", fun b => .bytes (Bytes.swapCase b)),
    ("title", fun b => .bytes (Bytes.title b)),
    ("upper", fun b => .bytes (Bytes.upper b))]

/-- The methods of bytes that want arguments. -/
def bytesWanting : List Text :=
  ["center", "count", "endswith", "find", "fromhex", "index", "join", "ljust", "maketrans",
    "partition", "removeprefix", "removesuffix", "replace", "rfind", "rindex", "rjust",
    "rpartition", "startswith", "translate", "zfill"]

/-- The text that bytes stand for. -/
def decoded (b : List UInt8) : Except Failure Value :=
  match Text.Utf8.fault? b, Text.Utf8.decode? b with
  | none, some t => .ok (.str t)
  | some fault, _ => .error (.utf8 fault)
  | none, none => .ok (.str [])

/-- What bytes have under a name. -/
def ofBytes? (name : Text) (b : List UInt8) : Option Member :=
  if name = "decode".toList then some (ofExcept (decoded b))
  else
    ((bytesTable.lookup name).map fun method => .found (method b)).or (wanting? bytesWanting name)

end Hydration.Member
