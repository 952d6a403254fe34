import Hydration.Failure
import Hydration.Number.Decimal
import Hydration.Number.Parts
/-!
# Decimal arithmetic

Operations on decimal numbers that give a decimal number of at most 28 digits, rounded to the
nearest one with ties to the even digit. An operation without a result signals that.
-/
namespace Hydration.Decimal

/-- The most digits of a result. -/
def precision : Nat := 28

/-- The greatest exponent of the leading digit of a result; the least one is its negative. -/
def maxExponent : Int := 999999

/-- The exponent of the last place of a number below the normal ones. -/
def tinyExponent : Int := -maxExponent - Int.ofNat precision + 1

/-- How many digits a natural number has; zero has one. -/
def digitCount (n : Nat) : Nat := (Text.ofNat n).length

/-- The exponent of the leading digit. -/
def adjusted (digits : Nat) (exponent : Int) : Int := exponent + Int.ofNat (digitCount digits) - 1

/-- A quotient rounded by dropping places: the nearest number, a tie to the even one. `more` says
that the exact value lies above the quotient. -/
def roundPlaces (digits places : Nat) (more : Bool) : Nat :=
  if digitCount digits < places then 0
  else
    let unit := Nat.pow 10 places
    let q := digits / unit
    let r := digits % unit
    if 2 * r < unit then q
    else if unit < 2 * r ∨ more then q + 1
    else if q % 2 = 0 then q else q + 1

/-- The number fitted into the precision and the range of exponents. -/
def fit (negative : Bool) (digits : Nat) (exponent : Int) (more : Bool) :
    Except DecimalSignal Decimal :=
  if digits = 0 then
    .ok (.finite negative 0 (max (min exponent maxExponent) tinyExponent))
  else
    let last := max tinyExponent (adjusted digits exponent - Int.ofNat precision + 1)
    let (digits, exponent) :=
      if exponent < last then
        (roundPlaces digits (last - exponent).toNat more, last)
      else (digits, exponent)
    let (digits, exponent) :=
      if digitCount digits = precision + 1 then (digits / 10, exponent + 1) else (digits, exponent)
    if digits ≠ 0 ∧ maxExponent < adjusted digits exponent then .error .overflow
    else .ok (.finite negative digits exponent)

/-- What is no number passes through an operation, unless it signals. -/
def passNan (negative signaling : Bool) (payload : Text) : Except DecimalSignal Decimal :=
  if signaling then .error .invalid else .ok (.nan negative false payload)

/-- The digits without zeros at their end, and the exponent that goes with them. -/
def stripZeros : Nat → Nat → Int → Nat × Int
  | 0, digits, exponent => (digits, exponent)
  | fuel + 1, digits, exponent =>
    if digits ≠ 0 ∧ digits % 10 = 0 then stripZeros fuel (digits / 10) (exponent + 1)
    else (digits, exponent)

/-- The number without zeros at its end. -/
def normalize : Decimal → Except DecimalSignal Decimal
  | .finite negative digits exponent =>
    if digits = 0 then .ok (.finite negative 0 0)
    else
      match fit negative digits exponent false with
      | .ok (.finite negative digits exponent) =>
        let (digits, exponent) := stripZeros precision digits exponent
        .ok (.finite negative digits (if digits = 0 then 0 else exponent))
      | r => r
  | .nan negative signaling payload => passNan negative signaling payload
  | d => .ok d

/-- The nearest integer, a tie to the even one. -/
def toIntegral : Decimal → Except DecimalSignal Decimal
  | .finite negative digits exponent =>
    if 0 ≤ exponent then .ok (.finite negative digits exponent)
    else .ok (.finite negative (roundPlaces digits exponent.natAbs false) 0)
  | .nan negative signaling payload => passNan negative signaling payload
  | d => .ok d

/-- The largest number. -/
def largest (negative : Bool) : Decimal :=
  .finite negative (Nat.pow 10 precision - 1) (maxExponent - Int.ofNat precision + 1)

/-- A number with the full precision, as far as the least exponent allows, and whether places were
dropped for that. -/
def widen (digits : Nat) (exponent : Int) : Nat × Int × Bool :=
  let last := max tinyExponent (adjusted digits exponent - Int.ofNat precision + 1)
  if last ≤ exponent then (digits * Nat.pow 10 (exponent - last).toNat, last, false)
  else if digitCount digits < (last - exponent).toNat then (0, last, digits != 0)
  else
    let unit := Nat.pow 10 (last - exponent).toNat
    (digits / unit, last, digits % unit != 0)

/-- The next number with a greater magnitude. -/
def outwards (negative : Bool) (digits : Nat) (exponent : Int) : Decimal :=
  let (n, e, _) := if digits = 0 then (0, tinyExponent, false) else widen digits exponent
  if n + 1 = Nat.pow 10 precision then
    if maxExponent < e + Int.ofNat precision then .infinity negative
    else .finite negative (Nat.pow 10 (precision - 1)) (e + 1)
  else .finite negative (n + 1) e

/-- The next number with a smaller magnitude, of a number that is not zero. -/
def inwards (negative : Bool) (digits : Nat) (exponent : Int) : Decimal :=
  let (n, e, dropped) := widen digits exponent
  if dropped then .finite negative n e
  else if n = Nat.pow 10 (precision - 1) ∧ tinyExponent < e then
    .finite negative (Nat.pow 10 precision - 1) (e - 1)
  else .finite negative (n - 1) e

/-- The next number in a direction. -/
def next (down : Bool) : Decimal → Except DecimalSignal Decimal
  | .finite negative digits exponent =>
    if digits = 0 then .ok (outwards down 0 0)
    else if maxExponent < adjusted digits exponent then
      .ok (if negative = down then .infinity negative else largest negative)
    else .ok (if negative = down then outwards negative digits exponent
      else inwards negative digits exponent)
  | .infinity negative => .ok (if negative = down then .infinity negative else largest negative)
  | .nan negative signaling payload => passNan negative signaling payload

/-- The exponent of the leading digit as a number. -/
def logb : Decimal → Except DecimalSignal Decimal
  | .finite _ digits exponent =>
    if digits = 0 then .error .divisionByZero
    else
      let n := adjusted digits exponent
      fit (n < 0) n.natAbs 0 false
  | .infinity _ => .ok (.infinity false)
  | .nan negative signaling payload => passNan negative signaling payload

/-- The greatest natural number whose square is not above the given one, below `high`. -/
def rootBetween : Nat → Nat → Nat → Nat → Nat
  | 0, _, low, _ => low
  | fuel + 1, n, low, high =>
    if high ≤ low + 1 then low
    else
      let middle := (low + high) / 2
      if middle * middle ≤ n then rootBetween fuel n middle high
      else rootBetween fuel n low middle

/-- The greatest natural number whose square is not above the given one. -/
def root (n : Nat) : Nat :=
  let high := Nat.pow 2 (n.log2 / 2 + 1)
  rootBetween (n.log2 + 2) n 0 high

/-- The square root. An exact root keeps half the exponent, if it fits. -/
def sqrt : Decimal → Except DecimalSignal Decimal
  | .finite negative digits exponent =>
    let half := exponent.fdiv 2
    if digits = 0 then fit negative 0 half false
    else if negative then .error .invalid
    else
      let even := if exponent.fmod 2 = 1 then digits * 10 else digits
      let length := (digitCount even + 1) / 2
      let places := precision + 1 - length
      let cut := length - (precision + 1)
      let scaled := even * Nat.pow 100 places / Nat.pow 100 cut
      let lost : Bool := even % Nat.pow 100 cut != 0
      let n := root scaled
      if n * n = scaled ∧ !lost then
        let n := n / Nat.pow 10 places
        fit false (n * Nat.pow 10 cut) half false
      else
        let n := if n % 5 = 0 then n + 1 else n
        fit false n (half - Int.ofNat places + Int.ofNat cut) false
  | .infinity negative => if negative then .error .invalid else .ok (.infinity false)
  | .nan negative signaling payload => passNan negative signaling payload

/-- A number of zeros and ones with its last digits turned over, as many as results have. -/
def invert : Decimal → Except DecimalSignal Decimal
  | .finite false digits 0 =>
    let t := Text.ofNat digits
    if t.all fun c => c == '0' || c == '1' then
      let ones := (Nat.pow 10 precision - 1) / 9
      .ok (.finite false (ones - digits % Nat.pow 10 precision) 0)
    else .error .invalid
  | _ => .error .invalid

/-- The number as text whose exponent, if there is one, is a multiple of three. -/
def engineeringText : Decimal → Text
  | .finite negative digits exponent =>
    let t := Text.ofNat digits
    let left := exponent + Int.ofNat t.length
    let point : Int :=
      if exponent ≤ 0 ∧ -6 < left then left
      else if digits = 0 then (left + 1).fmod 3 - 1
      else (left - 1).fmod 3 + 1
    let body : Text :=
      if point ≤ 0 then "0." ++ List.replicate point.natAbs '0' ++ t
      else if t.length ≤ point.natAbs then t ++ List.replicate (point.natAbs - t.length) '0'
      else t.take point.natAbs ++ '.' :: t.drop point.natAbs
    let power := left - point
    (if negative then ['-'] else []) ++ body ++
      if power = 0 then []
      else 'E' :: (if power < 0 then '-' else '+') :: Text.ofNat power.natAbs
  | d => d.toText

/-- A finite number as a quotient in lowest terms. -/
def ratio : Decimal → Except Failure (Int × Nat)
  | .nan _ _ _ => .error (.value .notARatio)
  | .infinity _ => .error (.overflow .infiniteRatio)
  | d => .ok ((d.ratio?.map fun (p, q) => Number.reduced p q).getD (0, 1))

/-- What kind of number it is, in words. -/
def className : Decimal → Text
  | .nan _ signaling _ => if signaling then "sNaN" else "NaN"
  | .infinity negative => (if negative then ['-'] else ['+']) ++ "Infinity"
  | .finite negative digits exponent =>
    (if negative then ['-'] else ['+']) ++
      if digits = 0 then "Zero"
      else if adjusted digits exponent < -maxExponent then "Subnormal"
      else "Normal"

end Hydration.Decimal
