import Hydration.Text.Blank
import Hydration.Text.Quoted
/-!
# Files of environment variables

    # comment
    export NAME=value   # comment
    'NAME'="quoted \n value"
    OTHER=${NAME:-default}/more

One binding stands on a line, but a quoted value may go over several. A line that cannot be read is
left out, from where reading stops to the end of that line. A name without an equals sign is bound
to nothing, and one with no more than a comment behind its equals sign to the empty text. Of
several bindings of a name the last one counts.

* `takeQuoted?_append`: what is read up to a quote, the quote and the rest make up the text.
* `lookup_putLast`: the last binding of a name counts.
-/
namespace Hydration.Dotenv

/-- A binding of a name, to a value or to nothing. -/
structure Binding where
  name : Text
  value : Option Text
  deriving DecidableEq, Repr

/-! ## Lines -/

/-- Line ends of all systems as line feeds. -/
def unifyLines : Text → Text
  | '\r' :: '\n' :: rest => '\n' :: unifyLines rest
  | '\r' :: rest => '\n' :: unifyLines rest
  | c :: rest => c :: unifyLines rest
  | [] => []

/-- A blank that does not end the line. -/
def isInlineBlank (c : Char) : Bool := Text.isBlank c && c != '\n' && c != '\r'

/-- The text after blanks that do not end the line. -/
def skipBlanks (t : Text) : Text := t.dropWhile isInlineBlank

/-- The text after the rest of the line and its end. -/
def skipLine (t : Text) : Text := (t.dropWhile (· ≠ '\n')).drop 1

/-- The text after the word that may stand before a name. -/
def skipExport (t : Text) : Text :=
  match Text.after? "export" t with
  | some (c :: rest) => if isInlineBlank c then skipBlanks rest else t
  | _ => t

/-! ## Quotes -/

/-- What stands between quotes, after the opening one, and what follows the closing one. A backslash
takes the next character with it. -/
def takeQuoted? (q : Char) (t : Text) : Option (Text × Text) := Text.Quoted.scan true q t

theorem takeQuoted?_append {q : Char} {t body after : Text}
    (h : takeQuoted? q t = some (body, after)) : t = body ++ q :: after :=
  Text.Quoted.scan_eq_some h

/-- The character that a letter after a backslash stands for, between the given quotes. -/
def escape? (q c : Char) : Option Char :=
  if c = '\\' ∨ c = '\'' then some c
  else if q = '\'' then none
  else if c = '"' then some c
  else if c = 'a' then some '\x07'
  else if c = 'b' then some '\x08'
  else if c = 'f' then some '\x0c'
  else if c = 'n' then some '\n'
  else if c = 'r' then some '\r'
  else if c = 't' then some '\t'
  else if c = 'v' then some '\x0b'
  else none

/-- The value that was written between the given quotes. -/
def unescape (q : Char) : Text → Text
  | '\\' :: c :: rest =>
    match escape? q c with
    | some e => e :: unescape q rest
    | none => '\\' :: unescape q (c :: rest)
  | c :: rest => c :: unescape q rest
  | [] => []

/-! ## Names and values -/

/-- The characters of a name without quotes. -/
def isNameChar (c : Char) : Bool := !(c == '=' || c == '#' || Text.isBlank c)

/-- A part that was read and the text that follows it, or the text at which reading stops. -/
abbrev Reading (α : Type) := Except Text (α × Text)

/-- Reads a name; a comment has none. -/
def readName (t : Text) : Reading (Option Text) :=
  match t with
  | '#' :: _ => .ok (none, t)
  | '\'' :: rest =>
    match rest.takeWhile (· ≠ '\''), rest.dropWhile (· ≠ '\'') with
    | c :: name, _ :: after => .ok (some (c :: name), after)
    | _, _ => .error t
  | t =>
    match t.takeWhile isNameChar with
    | [] => .error t
    | name => .ok (some name, t.dropWhile isNameChar)

/-- A value without quotes, up to a comment after a blank. -/
def plainValue (line : Text) : Text := Text.trimRight (go line)
where
  /-- Goes on up to a blank with a number sign after it. -/
  go : Text → Text
    | c :: '#' :: rest => if Text.isBlank c then [] else c :: go ('#' :: rest)
    | c :: rest => c :: go rest
    | [] => []

/-- Reads a value after the equals sign. A number sign starts a comment after blanks, and belongs to
the value without them. -/
def readValue (t : Text) : Reading Text :=
  match skipBlanks t with
  | [] => .ok ([], [])
  | c :: rest =>
    if c = '\n' ∨ (c = '#' ∧ t.head? ≠ some '#') then .ok ([], c :: rest)
    else if c = '\'' ∨ c = '"' then
      match takeQuoted? c rest with
      | some (body, after) => .ok (unescape c body, after)
      | none => .error (c :: rest)
    else
      let line := (c :: rest).takeWhile (· ≠ '\n')
      .ok (plainValue line, (c :: rest).dropWhile (· ≠ '\n'))

/-- Reads what may stand between a binding and the end of its line, and the end. -/
def readEnd (t : Text) : Reading Unit :=
  let t := match skipBlanks t with
    | '#' :: rest => rest.dropWhile (· ≠ '\n')
    | _ => t
  match skipBlanks t with
  | [] => .ok ((), [])
  | c :: rest => if c = '\n' then .ok ((), rest) else .error t

/-- Reads a line from its first character that is not blank. -/
def readLine (t : Text) : Except Text (Option Binding × Text) := do
  let (name, t) ← readName (skipExport t)
  let t := skipBlanks t
  let (value, t) ← match t with
    | '=' :: rest => do
      let (value, t) ← readValue rest
      pure (some value, t)
    | t => pure (none, t)
  let ((), t) ← readEnd t
  pure (name.map fun name => ⟨name, value⟩, t)

/-- The bindings of a text, with as many lines as the first argument at most. -/
def bindingsWithin : Nat → Text → List Binding
  | 0, _ => []
  | fuel + 1, t =>
    match Text.trimLeft t with
    | [] => []
    | c :: rest =>
      match readLine (c :: rest) with
      | .ok (binding, after) => binding.toList ++ bindingsWithin fuel after
      | .error stopped => bindingsWithin fuel (skipLine stopped)

/-- The text without the mark of byte order that it may start with. -/
def skipMark : Text → Text
  | '\ufeff' :: rest => rest
  | t => t

/-- The bindings of a file, in order. -/
def bindings (t : Text) : List Binding :=
  let t := unifyLines (skipMark t)
  bindingsWithin (t.length + 1) t

/-! ## Variables in values -/

/-- A part of a value: text as it is, or the value of a variable with a default. -/
inductive Atom
  | text (t : Text)
  | variable (name default : Text)
  deriving DecidableEq, Repr

/-- A variable after its dollar sign and brace, and what follows it. -/
def takeVariable? (t : Text) : Option (Atom × Text) :=
  let name := t.takeWhile fun c => c != '\x7d' && c != ':'
  match t.dropWhile fun c => c != '\x7d' && c != ':' with
  | ':' :: '-' :: rest =>
    match rest.dropWhile (· ≠ '\x7d') with
    | _ :: after => some (.variable name (rest.takeWhile (· ≠ '\x7d')), after)
    | [] => none
  | '\x7d' :: after => some (.variable name [], after)
  | _ => none

/-- The parts of a value. -/
def atomsWithin : Nat → Text → List Atom
  | 0, t => [.text t]
  | _, [] => []
  | fuel + 1, c :: rest =>
    match Text.after? ['$', '\x7b'] (c :: rest) with
    | some inner =>
      match takeVariable? inner with
      | some (atom, after) => atom :: atomsWithin fuel after
      | none => .text [c] :: atomsWithin fuel rest
    | none => .text [c] :: atomsWithin fuel rest

/-- The parts of a value. -/
def atoms (t : Text) : List Atom := atomsWithin t.length t

/-- Names with their values, or with nothing. -/
abbrev Bound := List (Text × Option Text)

/-- The value of a part. Variables of the environment come first, then those bound before. -/
def Atom.resolve (environment : List (Text × Text)) (bound : Bound) : Atom → Text
  | .text t => t
  | .variable name default =>
    match environment.lookup name with
    | some v => v
    | none =>
      match bound.lookup name with
      | some v => v.getD []
      | none => default

/-- Binds a name anew: in place if it is bound, else at the end. -/
def putLast (name : Text) (value : Option Text) : Bound → Bound
  | [] => [(name, value)]
  | (n, v) :: rest =>
    if n = name then (name, value) :: rest else (n, v) :: putLast name value rest

theorem lookup_putLast (name : Text) (value : Option Text) (bound : Bound) :
    (putLast name value bound).lookup name = some value := by
  induction bound with
  | nil => simp [putLast]
  | cons e rest ih =>
    obtain ⟨n, v⟩ := e
    by_cases h : n = name
    · simp [putLast, h]
    · have hb : (name == n) = false := by simp [Ne.symm h]
      simpa [putLast, h, List.lookup_cons, hb] using ih

/-- The values of bindings with their variables filled in. -/
def resolve (environment : List (Text × Text)) : Bound → List Binding → Bound
  | bound, [] => bound
  | bound, b :: rest =>
    let value := b.value.map fun t => (atoms t).flatMap (Atom.resolve environment bound)
    resolve environment (putLast b.name value bound) rest

/-- The names that a file binds, with their values. -/
def read (environment : List (Text × Text)) (t : Text) : Bound :=
  resolve environment [] (bindings t)

end Hydration.Dotenv
