import Hydration.Failure
import Hydration.Text.Blank
/-!
# Lexemes of inline literals

    {title: 'Hello', tags: ["a", b|upper]}

An inline literal is cut into quoted strings, marks of punctuation and atoms; blanks separate
lexemes and are dropped. A quote that opens no closed string is the only thing that cannot be cut.

* `lexFrom_blank`: blanks in front do not matter.
-/
namespace Hydration.Literal

/-- The pieces of an inline literal. Strings and atoms are kept as they were written. -/
inductive Lexeme
  | string (text : Text)
  | mark (c : Char)
  | atom (text : Text)
  deriving DecidableEq, Repr

/-- A lexeme as it was written. -/
def Lexeme.text : Lexeme → Text
  | .string t => t
  | .mark c => [c]
  | .atom t => t

/-- The characters that are lexemes by themselves. -/
def isMark (c : Char) : Bool :=
  c == '{' || c == '}' || c == '[' || c == ']' || c == ':' || c == ','

/-- The characters of atoms. -/
def isAtomChar (c : Char) : Bool :=
  !(Text.isBlank c || isMark c || Text.Quoted.isQuote c)

/-- Whether a text starts with an opening brace or bracket, as inline literals do. -/
def opens : Text → Bool
  | c :: _ => c == '{' || c == '['
  | [] => false

/-- Cuts the rest of a literal; the failure is the quote at which that is not possible. -/
def lexFrom : Text → Except Char (List Lexeme)
  | [] => .ok []
  | c :: rest =>
    if Text.Quoted.isQuote c then
      match _h : Text.Quoted.scan true c rest with
      | none => .error c
      | some (body, after) => (.string (c :: body ++ [c]) :: ·) <$> lexFrom after
    else if isMark c then (.mark c :: ·) <$> lexFrom rest
    else if Text.isBlank c then lexFrom rest
    else (.atom (c :: rest.takeWhile isAtomChar) :: ·) <$> lexFrom (rest.dropWhile isAtomChar)
termination_by t => t.length
decreasing_by
  · have := Text.Quoted.scan_length _h
    simp
    omega
  · simp
  · simp
  · have := (List.dropWhile_suffix isAtomChar (l := rest)).length_le
    simp
    omega

/-- Cuts a literal into lexemes. -/
def lex (t : Text) : Except Failure (List Lexeme) :=
  match lexFrom t with
  | .ok lexemes => .ok lexemes
  | .error c => .error (.literal t (.unexpectedCharacter c))

theorem isBlank_of_isMark {c : Char} (h : isMark c = true) : Text.isBlank c = false := by
  simp only [isMark, Bool.or_eq_true, beq_iff_eq] at h
  rcases h with ((((rfl | rfl) | rfl) | rfl) | rfl) | rfl <;> decide

theorem isMark_of_isBlank {c : Char} (h : Text.isBlank c = true) : isMark c = false := by
  refine Bool.eq_false_iff.2 fun hm => ?_
  rw [isBlank_of_isMark hm] at h
  cases h

theorem lexFrom_blank {c : Char} (h : Text.isBlank c = true) (t : Text) :
    lexFrom (c :: t) = lexFrom t := by
  rw [lexFrom]
  simp [Text.Quoted.isQuote_of_isBlank h, isMark_of_isBlank h, h]

end Hydration.Literal
