import Hydration.Json.Basic
import Hydration.Number.Reading
/-!
# Reading JSON

A document is cut into lexemes, and the lexemes drive an automaton with a stack: one frame for
every array or object that is still open, holding what was read of it. Each lexeme is looked at
once, so the recursion is on the list of lexemes and nesting may be of any depth.

* `readString_length`: reading a string leaves less text.
-/
namespace Hydration.Json

/-! ## Lexemes -/

/-- The pieces of a document: a mark of punctuation, a string by its value, or a word, which is a
number or a constant. -/
inductive Lexeme
  | mark (c : Char)
  | string (t : Text)
  | word (t : Text)
  deriving DecidableEq, Repr

/-- The white space between lexemes. -/
def isSpace (c : Char) : Bool := c == ' ' || c == '\t' || c == '\n' || c == '\r'

/-- The characters that are lexemes by themselves. -/
def isMark (c : Char) : Bool :=
  c == '{' || c == '}' || c == '[' || c == ']' || c == ':' || c == ','

/-- The value of four hexadecimal digits. -/
def hex4? (a b c d : Char) : Option Nat := do
  let a ← Text.hexValue? a
  let b ← Text.hexValue? b
  let c ← Text.hexValue? c
  let d ← Text.hexValue? d
  some (((a * 16 + b) * 16 + c) * 16 + d)

/-- The character that a letter after a backslash stands for. -/
def escape? (c : Char) : Option Char :=
  if c = '"' ∨ c = '\\' ∨ c = '/' then some c
  else if c = 'n' then some '\n'
  else if c = 'r' then some '\r'
  else if c = 't' then some '\t'
  else if c = 'b' then some '\x08'
  else if c = 'f' then some '\x0c'
  else none

/-- The value of a string after its opening quote, and what follows the closing one. Two escaped
surrogates in a row are one character; a surrogate alone is refused. -/
def readString : Text → Option (Text × Text)
  | [] => none
  | '"' :: rest => some ([], rest)
  | '\\' :: 'u' :: a :: b :: c :: d :: '\\' :: 'u' :: e :: f :: g :: h :: rest =>
    match hex4? a b c d, hex4? e f g h with
    | some n, some m =>
      if 0xD800 ≤ n ∧ n < 0xDC00 then
        if 0xDC00 ≤ m ∧ m < 0xE000 then
          (readString rest).map fun (t, after) =>
            (Char.ofNat (0x10000 + (n - 0xD800) * 0x400 + (m - 0xDC00)) :: t, after)
        else none
      else if n.isValidChar then
        (readString ('\\' :: 'u' :: e :: f :: g :: h :: rest)).map fun (t, after) =>
          (Char.ofNat n :: t, after)
      else none
    | _, _ => none
  | '\\' :: 'u' :: a :: b :: c :: d :: rest =>
    match hex4? a b c d with
    | some n =>
      if n.isValidChar then
        (readString rest).map fun (t, after) => (Char.ofNat n :: t, after)
      else none
    | none => none
  | '\\' :: c :: rest =>
    match escape? c with
    | some e => (readString rest).map fun (t, after) => (e :: t, after)
    | none => none
  | c :: rest =>
    if c.toNat < 32 ∨ c = '\\' then none
    else (readString rest).map fun (t, after) => (c :: t, after)

private theorem map_cons_length {r : Option (Text × Text)} {c : Char} {n : Nat}
    (ih : ∀ t after, r = some (t, after) → after.length < n) {t after : Text}
    (h : (r.map fun (t, after) => (c :: t, after)) = some (t, after)) : after.length < n := by
  obtain ⟨⟨u, a⟩, hr, he⟩ := Option.map_eq_some_iff.1 h
  simp only [Prod.mk.injEq] at he
  obtain ⟨-, rfl⟩ := he
  exact ih _ _ hr

theorem readString_length {s t after : Text} (h : readString s = some (t, after)) :
    after.length < s.length := by
  fun_induction readString s generalizing t after with
  | case1 => simp at h
  | case2 =>
    simp only [Option.some.injEq, Prod.mk.injEq] at h
    simp [← h.2]
  | case3 _ _ _ _ _ _ _ _ _ _ _ _ _ _ _ ih =>
    have := map_cons_length (n := _) (fun _ _ => ih) h
    simp
    omega
  | case4 => simp at h
  | case5 _ _ _ _ _ _ _ _ _ _ _ _ _ _ _ ih =>
    have := map_cons_length (n := _) (fun _ _ => ih) h
    simp at this ⊢
    omega
  | case6 => simp at h
  | case7 => simp at h
  | case8 _ _ _ _ _ _ _ _ _ ih =>
    have := map_cons_length (n := _) (fun _ _ => ih) h
    simp
    omega
  | case9 => simp at h
  | case10 => simp at h
  | case11 _ _ _ _ _ _ ih =>
    have := map_cons_length (n := _) (fun _ _ => ih) h
    simp
    omega
  | case12 => simp at h
  | case13 => simp at h
  | case14 _ _ _ _ _ _ _ ih =>
    have := map_cons_length (n := _) (fun _ _ => ih) h
    simp
    omega

/-- The characters of a word. -/
def isWordChar (c : Char) : Bool := !(isSpace c || isMark c || c == '"')

/-- Cuts a document into lexemes. -/
def lex : Text → Option (List Lexeme)
  | [] => some []
  | c :: rest =>
    if isSpace c then lex rest
    else if isMark c then (.mark c :: ·) <$> lex rest
    else if c = '"' then
      match _h : readString rest with
      | some (t, after) => (.string t :: ·) <$> lex after
      | none => none
    else (.word (c :: rest.takeWhile isWordChar) :: ·) <$> lex (rest.dropWhile isWordChar)
termination_by t => t.length
decreasing_by
  · simp
  · simp
  · have := readString_length _h
    simp
    omega
  · have := (List.dropWhile_suffix isWordChar (l := rest)).length_le
    simp
    omega

/-! ## Words -/

/-- The digits of a run of ASCII digits, at least one. -/
def asciiDigits? (t : Text) : Option (List Nat) :=
  if !t.isEmpty && t.all Char.isDigit then some (t.map fun c => c.toNat - 48) else none

/-- The whole part of a number: no zero before other digits. -/
def wholeDigits? (t : Text) : Option (List Nat) := do
  let ds ← asciiDigits? t
  if ds.length = 1 ∨ ds.head? ≠ some 0 then some ds else none

/-- The exponent of a number. -/
def exponentOf? : Option Text → Option Int
  | none => some 0
  | some t =>
    let (negative, body) := Number.takeSign t
    (asciiDigits? body).map fun ds => (Number.Numeral.mk negative ds).value

/-- A number: an integer unless it has a point or an exponent. -/
def number? (t : Text) : Option Json := do
  let (negative, body) := match t with
    | '-' :: rest => (true, rest)
    | t => (false, t)
  let (mantissa, exponent) := Text.cutAt 'e' (body.map fun c => if c = 'E' then 'e' else c)
  let (whole, fraction) := Text.cutAt '.' mantissa
  let whole ← wholeDigits? whole
  match fraction, exponent with
  | none, none => some (.int (Number.Numeral.mk negative whole).value)
  | _, _ =>
    let fraction ← match fraction with
      | none => some []
      | some t => asciiDigits? t
    let exponent ← exponentOf? exponent
    some (.float (.ofDecimal negative (Number.valueOf (whole ++ fraction))
      (exponent - Int.ofNat fraction.length)))

/-- The document that a word is. With `wide`, the words for numbers that are not finite count. -/
def ofWord? (wide : Bool) (t : Text) : Option Json :=
  if t = "null".toList then some .null
  else if t = "true".toList then some (.bool true)
  else if t = "false".toList then some (.bool false)
  else if wide ∧ t = "NaN".toList then some (.float .nan)
  else if wide ∧ t = "Infinity".toList then some (.float (.infinity false))
  else if wide ∧ t = "-Infinity".toList then some (.float (.infinity true))
  else number? t

/-! ## The automaton -/

/-- An array or object that is still open, with what was read of it, last part first. -/
inductive Frame
  | item (before : List Json)
  | field (before : List (Text × Json)) (key : Text)

/-- What may come next. -/
inductive State
  | value (open' : List Frame)
  | firstItem (open' : List Frame)
  | firstKey (open' : List Frame)
  | key (before : List (Text × Json)) (open' : List Frame)
  | colon (before : List (Text × Json)) (key : Text) (open' : List Frame)
  | afterItem (before : List Json) (open' : List Frame)
  | afterField (before : List (Text × Json)) (open' : List Frame)
  | done (document : Json)

/-- Hands a complete document to the innermost open array or object. -/
def deliver (v : Json) : List Frame → State
  | [] => .done v
  | .item before :: rest => .afterItem (v :: before) rest
  | .field before key :: rest => .afterField ((key, v) :: before) rest

/-- Reads the start of a value, or a value of one lexeme. -/
def readValue (wide : Bool) (open' : List Frame) : Lexeme → Option State
  | .mark '[' => some (.firstItem open')
  | .mark '{' => some (.firstKey open')
  | .string t => some (deliver (.string t) open')
  | .word t => (ofWord? wide t).map (deliver · open')
  | .mark _ => none

/-- Reads one lexeme. -/
def step (wide : Bool) : State → Lexeme → Option State
  | .value fs, l => readValue wide fs l
  | .firstItem fs, .mark ']' => some (deliver (.array []) fs)
  | .firstItem fs, l => readValue wide (.item [] :: fs) l
  | .firstKey fs, .mark '}' => some (deliver (.object []) fs)
  | .firstKey fs, .string k => some (.colon [] k fs)
  | .key before fs, .string k => some (.colon before k fs)
  | .colon before k fs, .mark ':' => some (.value (.field before k :: fs))
  | .afterItem before fs, .mark ',' => some (.value (.item before :: fs))
  | .afterItem before fs, .mark ']' => some (deliver (.array before.reverse) fs)
  | .afterField before fs, .mark ',' => some (.key before fs)
  | .afterField before fs, .mark '}' => some (deliver (.object before.reverse) fs)
  | _, _ => none

/-- Reads lexemes to the end. -/
def run (wide : Bool) : State → List Lexeme → Option State
  | s, [] => some s
  | s, l :: rest => (step wide s l).bind (run wide · rest)

/-- The document that the text is. With `wide`, the words for numbers that are not finite are
accepted as well. -/
def read? (wide : Bool) (t : Text) : Option Json := do
  let lexemes ← lex t
  match ← run wide (.value []) lexemes with
  | .done v => some v
  | _ => none

end Hydration.Json
