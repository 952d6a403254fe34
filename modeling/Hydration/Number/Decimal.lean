import Hydration.Number.Reading
/-!
# Decimal numbers

Exact decimal numbers that remember their last place: `1.0` and `1.00` are equal and are written
differently. Beside the finite numbers there are infinities and the values that are no number.
-/
namespace Hydration

/-- A decimal number. A finite one is `digits · 10 ^ exponent` with a sign. -/
inductive Decimal
  | finite (negative : Bool) (digits : Nat) (exponent : Int)
  | infinity (negative : Bool)
  | nan (negative signaling : Bool) (payload : Text)
  deriving DecidableEq, Repr

namespace Decimal

/-- The digits of a payload without leading zeros. -/
private def payload? (t : Text) : Option Text :=
  if t.isEmpty then some []
  else (Number.digits? t).map fun ds =>
    let n := Number.valueOf ds
    if n = 0 then [] else Text.ofNat n

/-- Reads a decimal number. -/
def read? (t : Text) : Option Decimal :=
  let trimmed := (Text.trim t).filter (· ≠ '_')
  let (negative, body) := Number.takeSign trimmed
  let lowered := body.map Char.toLower
  if lowered = "inf".toList ∨ lowered = "infinity".toList then some (.infinity negative)
  else
    match Text.after? "nan" lowered with
    | some rest => (payload? rest).map (.nan negative false)
    | none =>
      match Text.after? "snan" lowered with
      | some rest => (payload? rest).map (.nan negative true)
      | none =>
        (Number.readScientific? body).map fun (digits, exponent) =>
          .finite negative (Number.valueOf digits) exponent

/-- Whether the number is a zero, of any sign and place. -/
def isZero : Decimal → Bool
  | .finite _ digits _ => digits == 0
  | _ => false

/-- The exact value as a quotient. -/
def ratio? : Decimal → Option (Int × Nat)
  | .finite negative digits exponent =>
    let n : Int := if negative then -Int.ofNat digits else Int.ofNat digits
    if exponent < 0 then some (n, Nat.pow 10 exponent.natAbs)
    else some (n * Int.ofNat (Nat.pow 10 exponent.natAbs), 1)
  | _ => none

/-- Equality of numbers. -/
def equals (a b : Decimal) : Bool :=
  match a, b with
  | .infinity x, .infinity y => x == y
  | _, _ =>
    match a.ratio?, b.ratio? with
    | some (p, q), some (r, s) => p * Int.ofNat s == r * Int.ofNat q
    | _, _ => false

/-- Equality with a floating-point number. -/
def equalsBinary (a : Decimal) (x : Binary64) : Bool :=
  match a, x with
  | .infinity n, .infinity m => n == m
  | _, _ =>
    match a.ratio? with
    | some (p, q) => x.equalsRatio p q
    | none => false

/-- The integer part of a finite number. -/
def truncate? (a : Decimal) : Option Int := a.ratio?.map fun (p, q) => p.tdiv (Int.ofNat q)

private def sign (negative : Bool) : Text := if negative then ['-'] else []

/-- Digits with the point after the given number of them. -/
private def pointed (digits : Text) (point : Int) : Text :=
  if point ≤ 0 then "0." ++ List.replicate point.natAbs '0' ++ digits
  else if digits.length ≤ point.natAbs then
    digits ++ List.replicate (point.natAbs - digits.length) '0'
  else digits.take point.natAbs ++ '.' :: digits.drop point.natAbs

/-- One digit, the point if more follow, and the exponent with its sign. -/
private def withExponent (mark : Char) (digits : Text) (exponent : Int) : Text :=
  pointed digits 1 ++ mark :: (if exponent < 0 then '-' else '+') :: Text.ofNat exponent.natAbs

private def nanText (signaling : Bool) (payload : Text) : Text :=
  (if signaling then "sNaN" else "NaN") ++ payload

/-- The number as text that keeps its last place: positional unless zeros would have to be added
after the digits or more than six of them before. -/
def toText : Decimal → Text
  | .infinity negative => sign negative ++ "Infinity"
  | .nan negative signaling payload => sign negative ++ nanText signaling payload
  | .finite negative n exponent =>
    let digits := Text.ofNat n
    let point := exponent + Int.ofNat digits.length
    sign negative ++
      if exponent ≤ 0 ∧ -6 < point then pointed digits point
      else withExponent 'E' digits (point - 1)

/-- The number without an exponent. -/
def fixedText : Decimal → Text
  | .finite negative n exponent =>
    let digits := Text.ofNat n
    sign negative ++
      if n = 0 ∧ 0 ≤ exponent then digits else pointed digits (exponent + Int.ofNat digits.length)
  | d => d.toText

/-- The number with an exponent, always. -/
def scientificText : Decimal → Text
  | .finite negative n exponent =>
    let digits := Text.ofNat n
    sign negative ++ withExponent 'e' digits (exponent + Int.ofNat digits.length - 1)
  | d => d.toText

end Decimal
end Hydration
