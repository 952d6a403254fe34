import Hydration.Number.Binary64
import Hydration.Text.Digit
import Hydration.Text.Blank
/-!
# Reading numbers

Numerals may use the digits of any script, single low lines between two digits, a sign and blanks
around them; the separators U+001C to U+001F do not count as blanks. An integer of more digits than
`maxDigits` is refused, and so is the writing of one: the conversion takes quadratic time.

* `digits?_length_le`: reading finds no more digits than there are characters.
-/
namespace Hydration.Number

/-- The most decimal digits that are converted between text and integers. -/
def maxDigits : Nat := 4300

/-- The values of a run of digits, with single low lines allowed between two of them. -/
def digits? : Text → Option (List Nat)
  | [] => none
  | c :: rest =>
    match Text.digitValue? c with
    | none => none
    | some v =>
      match rest with
      | [] => some [v]
      | '_' :: more => (v :: ·) <$> digits? more
      | d :: more => (v :: ·) <$> digits? (d :: more)

theorem digits?_length_le {t : Text} {ds : List Nat} (h : digits? t = some ds) :
    ds.length ≤ t.length := by
  fun_induction digits? t generalizing ds with
  | case1 => simp at h
  | case2 => simp at h
  | case3 => obtain rfl := Option.some.inj h; simp
  | case4 _ _ _ _ ih =>
    obtain ⟨es, he, rfl⟩ := Option.map_eq_some_iff.1 h
    have := ih he
    simp
    omega
  | case5 _ _ _ _ _ _ ih =>
    obtain ⟨es, he, rfl⟩ := Option.map_eq_some_iff.1 h
    have := ih he
    simp at this ⊢
    omega

/-- The number that decimal digits stand for. -/
def valueOf (digits : List Nat) : Nat := digits.foldl (fun n d => 10 * n + d) 0

/-- An integer as it was written. -/
structure Numeral where
  negative : Bool
  digits : List Nat

/-- The integer that a numeral stands for. -/
def Numeral.value (n : Numeral) : Int :=
  if n.negative then -Int.ofNat (valueOf n.digits) else Int.ofNat (valueOf n.digits)

/-- A sign in front of the text. -/
def takeSign : Text → Bool × Text
  | '-' :: rest => (true, rest)
  | '+' :: rest => (false, rest)
  | t => (false, t)

/-- The blanks that may stand around a numeral: all but the separators from U+001C to U+001F. -/
def isNumeralBlank (c : Char) : Bool := Text.isBlank c && (c.toNat < 28 || 31 < c.toNat)

/-- A numeral without the blanks around it. -/
def trim (t : Text) : Text :=
  ((t.dropWhile isNumeralBlank).reverse.dropWhile isNumeralBlank).reverse

/-- Reads an integer of any length. -/
def readNumeral? (t : Text) : Option Numeral :=
  let (negative, body) := takeSign (trim t)
  (digits? body).map fun ds => ⟨negative, ds⟩

/-- Reads an integer within the limit. -/
def readInt? (t : Text) : Option Int := do
  let n ← readNumeral? t
  if n.digits.length ≤ maxDigits then some n.value else none

/-- The digits of a part that may be empty. -/
def optionalDigits? (t : Text) : Option (List Nat) := if t.isEmpty then some [] else digits? t

/-- A decimal fraction without exponent: its digits and how many stand after the point. -/
def readFraction? (t : Text) : Option (List Nat × Nat) := do
  let (whole, fraction) := Text.cutAt '.' t
  let whole ← optionalDigits? whole
  let fraction ← optionalDigits? (fraction.getD [])
  if whole.isEmpty && fraction.isEmpty then none else some (whole ++ fraction, fraction.length)

/-- The exponent after the mark, if there is one. -/
def readExponent? : Option Text → Option Int
  | none => some 0
  | some t =>
    let (negative, body) := takeSign t
    (digits? body).map fun ds => (Numeral.mk negative ds).value

/-- A decimal number with an optional exponent, as digits and the exponent of the last digit. -/
def readScientific? (t : Text) : Option (List Nat × Int) := do
  let lowered := t.map fun c => if c = 'E' then 'e' else c
  let (mantissa, exponent) := Text.cutAt 'e' lowered
  let (digits, places) ← readFraction? mantissa
  let exponent ← readExponent? exponent
  some (digits, exponent - Int.ofNat places)

/-- Reads a floating-point number: decimal, or a name of infinity or of no number. -/
def readFloat? (t : Text) : Option Binary64 :=
  let (negative, body) := takeSign (trim t)
  let lowered := body.map Char.toLower
  if lowered = "inf".toList ∨ lowered = "infinity".toList then some (.infinity negative)
  else if lowered = "nan".toList then some .nan
  else
    (readScientific? body).map fun (digits, exponent) =>
      .ofDecimal negative (valueOf digits) exponent

/-- An integer as text, unless it has too many digits. -/
def intText? (i : Int) : Option Text :=
  if i.natAbs < Nat.pow 10 maxDigits then
    some (if i < 0 then '-' :: Text.ofNat i.natAbs else Text.ofNat i.natAbs)
  else none

end Hydration.Number
