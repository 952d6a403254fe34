import Hydration.Text.Basic
/-!
# Binary floating-point numbers of 64 bits

A finite number is a sign, a mantissa below 2^53 and an exponent of two. Everything is exact
arithmetic on natural numbers: a quotient is rounded to the nearest number, a tie to the even
mantissa, and the digits that are written are the fewest that read back as the same number.

* `equals_self_iff`: only the number that is no number differs from itself.
-/
namespace Hydration

/-- A double: no number, an infinity, or a sign with `mantissa · 2 ^ exponent`. Numbers built by
`Binary64.ofRatio` have a mantissa of 53 bits, or the least exponent. -/
inductive Binary64
  | nan
  | infinity (negative : Bool)
  | finite (negative : Bool) (mantissa : Nat) (exponent : Int)
  deriving DecidableEq, Repr

namespace Binary64

/-- Zero with the given sign. -/
def zero (negative : Bool) : Binary64 := .finite negative 0 (-1074)

/-- Mantissas are below this number, 2^53. -/
def mantissaLimit : Nat := 9007199254740992

/-- `numerator / denominator / 2 ^ exponent` as a quotient of natural numbers. -/
def scaled (numerator denominator : Nat) (exponent : Int) : Nat × Nat :=
  if exponent < 0 then (numerator * Nat.pow 2 exponent.natAbs, denominator)
  else (numerator, denominator * Nat.pow 2 exponent.natAbs)

/-- The nearest natural number to a quotient; of two equally near ones the even one. -/
def roundQuotient (numerator denominator : Nat) : Nat :=
  let q := numerator / denominator
  let r := numerator % denominator
  if 2 * r < denominator then q
  else if denominator < 2 * r then q + 1
  else if q % 2 = 0 then q else q + 1

/-- The number nearest to a quotient, a tie going to the even mantissa; from half a step above the
largest number on it is infinite. -/
def ofRatio (negative : Bool) (numerator denominator : Nat) : Binary64 :=
  if numerator = 0 then zero negative
  else
    let least : Int := -1074
    let guess : Int := Int.ofNat numerator.log2 - Int.ofNat denominator.log2 - 53
    let low := max least guess
    let (n, d) := scaled numerator denominator low
    let exponent := if mantissaLimit ≤ n / d then low + 1 else low
    let (n, d) := scaled numerator denominator exponent
    let mantissa := roundQuotient n d
    let (mantissa, exponent) :=
      if mantissa = mantissaLimit then (mantissaLimit / 2, exponent + 1) else (mantissa, exponent)
    if 971 < exponent then .infinity negative else .finite negative mantissa exponent

/-- The number nearest to `digits · 10 ^ exponent`. Exponents far outside the range are answered
without computing the power. -/
def ofDecimal (negative : Bool) (digits : Nat) (exponent : Int) : Binary64 :=
  if digits = 0 then zero negative
  else
    let magnitude : Int := Int.ofNat (Text.ofNat digits).length + exponent
    if 320 < magnitude then .infinity negative
    else if magnitude < -330 then zero negative
    else if 0 ≤ exponent then ofRatio negative (digits * Nat.pow 10 exponent.natAbs) 1
    else ofRatio negative digits (Nat.pow 10 exponent.natAbs)

/-- The exact value of a finite number, without its sign, as a quotient. -/
def magnitude (mantissa : Nat) (exponent : Int) : Nat × Nat :=
  if exponent < 0 then (mantissa, Nat.pow 2 exponent.natAbs) else (mantissa * Nat.pow 2 exponent.natAbs, 1)

/-- Whether the number is zero, of either sign. -/
def isZero : Binary64 → Bool
  | .finite _ mantissa _ => mantissa == 0
  | _ => false

/-- Equality of numbers: the two zeros are equal, and what is no number equals nothing. -/
def equals : Binary64 → Binary64 → Bool
  | .nan, _ => false
  | _, .nan => false
  | .infinity a, .infinity b => a == b
  | .finite a m e, .finite b n f =>
    if m = 0 then n == 0
    else
      let (p, q) := magnitude m e
      let (r, s) := magnitude n f
      a == b && p * s == r * q
  | _, _ => false

theorem equals_self_iff (x : Binary64) : x.equals x = true ↔ x ≠ .nan := by
  cases x with
  | nan => simp [equals]
  | infinity _ => simp [equals]
  | finite _ m _ => by_cases h : m = 0 <;> simp [equals, h]

/-- The integer part of a finite number. -/
def truncate? : Binary64 → Option Int
  | .finite negative mantissa exponent =>
    let (p, q) := magnitude mantissa exponent
    some (if negative then -Int.ofNat (p / q) else Int.ofNat (p / q))
  | _ => none

/-- Whether the number equals the given quotient of an integer by a positive natural number. -/
def equalsRatio (x : Binary64) (numerator : Int) (denominator : Nat) : Bool :=
  match x with
  | .finite negative mantissa exponent =>
    let (p, q) := magnitude mantissa exponent
    let signed : Int := if negative then -Int.ofNat p else Int.ofNat p
    signed * Int.ofNat denominator == numerator * Int.ofNat q
  | _ => false

/-! ## The fewest digits -/

/-- The decimal exponent of the leading digit of `mantissa · 2 ^ exponent`, a positive number. -/
def leadingExponent (mantissa : Nat) (exponent : Int) : Int :=
  if exponent < 0 then
    Int.ofNat (Text.ofNat (mantissa * Nat.pow 5 exponent.natAbs)).length - 1 + exponent
  else Int.ofNat (Text.ofNat (mantissa * Nat.pow 2 exponent.natAbs)).length - 1

/-- The multiple of `10 ^ power` that is nearest to the number and reads back as it, if the one
above or the one below does; of two that are equally near, the even one. -/
def onGrid? (mantissa : Nat) (exponent power : Int) : Option Nat :=
  let (p, q) := magnitude mantissa exponent
  let (p, q) := if power < 0 then (p * Nat.pow 10 power.natAbs, q) else (p, q * Nat.pow 10 power.natAbs)
  let value : Binary64 := .finite false mantissa exponent
  let nearest := roundQuotient p q
  let other := if nearest = p / q then p / q + 1 else p / q
  if ofDecimal false nearest power = value then some nearest
  else if ofDecimal false other power = value then some other
  else none

/-- The first grid, from the given one to finer ones, that has a reading. -/
def shortestFrom (mantissa : Nat) (exponent : Int) : Nat → Int → Nat × Int
  | 0, power => ((onGrid? mantissa exponent power).getD 0, power)
  | finer + 1, power =>
    match onGrid? mantissa exponent power with
    | some digits => (digits, power)
    | none => shortestFrom mantissa exponent finer (power - 1)

/-- The fewest digits that read back as the positive number `mantissa · 2 ^ exponent`, with the
decimal exponent of the last one. Seventeen digits are always enough. -/
def shortest (mantissa : Nat) (exponent : Int) : Nat × Int :=
  shortestFrom mantissa exponent 16 (leadingExponent mantissa exponent)

/-- Zeros at the end of the digits counted in the exponent instead. -/
def stripZeros : Nat → Nat → Int → Nat × Int
  | 0, digits, power => (digits, power)
  | fuel + 1, digits, power =>
    if digits ≠ 0 ∧ digits % 10 = 0 then stripZeros fuel (digits / 10) (power + 1)
    else (digits, power)

/-- The sign of a number that has one to write. -/
def signText (negative : Bool) : Text := if negative then ['-'] else []

/-- Digits with the decimal point at the given place: before the first digit, between two of
them, or after the last with zeros between. -/
def positional (digits : Text) (point : Int) : Text :=
  if point ≤ 0 then "0." ++ List.replicate point.natAbs '0' ++ digits
  else if digits.length ≤ point.natAbs then
    digits ++ List.replicate (point.natAbs - digits.length) '0' ++ ".0"
  else digits.take point.natAbs ++ '.' :: digits.drop point.natAbs

/-- Digits with one before the point and an exponent of at least two digits. -/
def scientific (digits : Text) (exponent : Int) : Text :=
  (match digits with
    | [] => []
    | [d] => [d]
    | d :: rest => d :: '.' :: rest) ++
  (if exponent < 0 then "e-" else "e+") ++ Text.ofNatPadded 2 exponent.natAbs

/-- The number as text: the fewest digits that read back, positional from 0.0001 up to below
10^16, and otherwise with an exponent. -/
def toText : Binary64 → Text
  | .nan => "nan"
  | .infinity negative => signText negative ++ "inf"
  | .finite negative mantissa exponent =>
    if mantissa = 0 then signText negative ++ "0.0"
    else
      let (n, power) := shortest mantissa exponent
      let (n, power) := stripZeros 400 n power
      let digits := Text.ofNat n
      let point := Int.ofNat digits.length + power
      signText negative ++
        (if -4 < point ∧ point ≤ 16 then positional digits point else scientific digits (point - 1))

end Binary64
end Hydration
