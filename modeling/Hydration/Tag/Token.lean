import Hydration.Literal.Lexeme
/-!
# Tokens of a tag

A bit that is one quoted string is a string token, any other bit a variable expression. Brackets
are counted outside strings, to tell where an inline literal that spans several bits ends.

* `tokenize_length`: there is one token for every bit, and the end.
-/
namespace Hydration.Tag

/-- The kinds of tokens. -/
inductive TokenKind
  | string
  | variable
  | stop
  deriving DecidableEq, Repr

/-- A token: its kind and its text as written. -/
structure Token where
  kind : TokenKind
  text : Text
  deriving DecidableEq, Repr

/-- The end of the tokens. -/
def Token.stop : Token := ⟨.stop, []⟩

/-- The token that a bit is. -/
def classify (bit : Text) : Token :=
  if Text.Quoted.isString bit then ⟨.string, bit⟩ else ⟨.variable, bit⟩

/-- The tokens of the bits after the tag's name, and the end. -/
def tokenize (bits : List Text) : List Token := bits.map classify ++ [Token.stop]

theorem tokenize_length (bits : List Text) : (tokenize bits).length = bits.length + 1 := by
  simp [tokenize]

/-- What a character adds to the depth of brackets. -/
def bracketWeight (c : Char) : Int :=
  if c = '{' ∨ c = '[' then 1 else if c = '}' ∨ c = ']' then -1 else 0

/-- Brackets opened less brackets closed, outside strings. -/
def bracketDepth (t : Text) : Int := 
  (Text.Quoted.outside t).foldr (fun c depth => bracketWeight c + depth) 0

end Hydration.Tag
