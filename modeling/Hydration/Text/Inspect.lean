import Hydration.Text.Quoted
import Hydration.Text.Printable
/-!
# Texts and bytes as messages show them

A message shows a text between quotes: single quotes, unless the text has a single quote and no
double one. The quote and the backslash are escaped, line ends and tabs have their letters, and a
character that is not printable stands as its number in hexadecimal with two, four or eight
digits. Bytes are shown in the same way after a `b`, with every byte outside printable ASCII as a
number.
-/
namespace Hydration.Text

/-- The quote for showing: single, unless only a single quote occurs inside. -/
def showQuote (t : Text) : Char :=
  if t.contains '\'' && !t.contains '"' then '"' else '\''

/-- One character between the given quotes. -/
def showChar (q c : Char) : Text :=
  if c = q ∨ c = '\\' then ['\\', c]
  else if c = '\n' then "\\n"
  else if c = '\r' then "\\r"
  else if c = '\t' then "\\t"
  else if isPrintable c then [c]
  else
    let n := c.toNat
    if n < 0x100 then "\\x" ++ ofHex 2 n
    else if n < 0x10000 then "\\u" ++ ofHex 4 n
    else "\\U" ++ ofHex 8 n

/-- The text between quotes, fit for a message. -/
def inspect (t : Text) : Text :=
  let q := showQuote t
  q :: t.flatMap (showChar q) ++ [q]

/-- One byte between the given quotes. -/
def showByte (q : Char) (b : UInt8) : Text :=
  let n := b.toNat
  if 32 ≤ n ∧ n < 127 then
    let c := Char.ofNat n
    if c = q ∨ c = '\\' then ['\\', c] else [c]
  else if n = 9 then "\\t"
  else if n = 10 then "\\n"
  else if n = 13 then "\\r"
  else "\\x" ++ ofHex 2 n

/-- The bytes between quotes, fit for a message. -/
def inspectBytes (bytes : List UInt8) : Text :=
  let q := showQuote (bytes.map fun b => Char.ofNat b.toNat)
  'b' :: q :: bytes.flatMap (showByte q) ++ [q]

end Hydration.Text
