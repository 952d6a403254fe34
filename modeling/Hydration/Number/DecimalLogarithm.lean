import Hydration.Number.DecimalContext
/-!
# Exponentials and logarithms of decimal numbers

Series in integers: a number stands for itself divided by a power of ten that leaves many places
beyond those that are kept.
-/
namespace Hydration.Decimal

/-- `1 + x / 1 + x · x / (1 · 2) + …` for a number `x / scale`, from a term on. -/
def exponentialSeries (x scale : Int) : Nat → Nat → Int → Int
  | 0, _, _ => 0
  | fuel + 1, n, term =>
    if term = 0 then 0
    else term + exponentialSeries x scale fuel (n + 1) ((term * x).tdiv (scale * Int.ofNat (n + 1)))

/-- `y + y ^ 3 / 3 + y ^ 5 / 5 + …`, given the square of `y / scale`, from a power on. -/
def areaTangentSeries (square scale : Int) : Nat → Nat → Int → Int
  | 0, _, _ => 0
  | fuel + 1, n, power =>
    if power = 0 then 0
    else
      power.tdiv (Int.ofNat n) +
        areaTangentSeries square scale fuel (n + 2) ((power * square).tdiv scale)

/-- The natural logarithm of the quotient `x / scale`, which lies between one and ten. -/
def logarithmWithin (x scale : Int) (places : Nat) : Int :=
  let y := ((x - scale) * scale).tdiv (x + scale)
  2 * areaTangentSeries ((y * y).tdiv scale) scale (16 * places + 16) 1 y

/-- Ten to a power, as an integer. -/
def tenTo (places : Nat) : Int := Int.ofNat (Nat.pow 10 places)

/-- The natural logarithm of a number, with the given number of places. -/
def logarithm (digits : Nat) (exponent : Int) (places : Nat) : Int :=
  let scale := tenTo places
  let length := digitCount digits
  let x := Int.ofNat (digits * Nat.pow 10 (places + 1 - length) / Nat.pow 10 (length - (places + 1)))
  let power := exponent + Int.ofNat length - 1
  logarithmWithin x scale places + power * logarithmWithin (10 * scale) scale places

/-- The number of a given number of places, with more behind them. -/
def ofPlaces (n : Int) (places : Nat) : Except DecimalSignal Decimal :=
  fit (n < 0) n.natAbs (-Int.ofNat places) true

/-- Whether the digits are a one and zeros. -/
def isPowerOfTen (digits : Nat) : Bool := digits == Nat.pow 10 (digitCount digits - 1)

/-- The places that logarithms of the given digits need. -/
def workingPlaces (digits : Nat) : Nat := 2 * digitCount digits + 2 * precision + 12

/-- The natural logarithm. -/
def ln : Decimal → Except DecimalSignal Decimal
  | .finite negative digits exponent =>
    if digits = 0 then .ok (.infinity true)
    else if negative then .error .invalid
    else if isPowerOfTen digits ∧ adjusted digits exponent = 0 then .ok (.finite false 0 0)
    else
      let places := workingPlaces digits
      ofPlaces (logarithm digits exponent places) places
  | .infinity negative => if negative then .error .invalid else .ok (.infinity false)
  | .nan negative signaling payload => passNan negative signaling payload

/-- The logarithm to the base ten; that of a power of ten is exact. -/
def log10 : Decimal → Except DecimalSignal Decimal
  | .finite negative digits exponent =>
    if digits = 0 then .ok (.infinity true)
    else if negative then .error .invalid
    else if isPowerOfTen digits then
      let n := adjusted digits exponent
      fit (n < 0) n.natAbs 0 false
    else
      let places := workingPlaces digits
      let scale := tenTo places
      let n := logarithm digits exponent places
      ofPlaces ((n * scale).tdiv (logarithmWithin (10 * scale) scale places)) places
  | .infinity negative => if negative then .error .invalid else .ok (.infinity false)
  | .nan negative signaling payload => passNan negative signaling payload

/-- The exponential of a number of moderate size. -/
def exponential (negative : Bool) (digits : Nat) (exponent : Int) : Except DecimalSignal Decimal :=
  let places := 2 * precision + 20
  let scale := tenTo places
  let magnitude :=
    if exponent < 0 then Int.ofNat digits * scale / Int.ofNat (Nat.pow 10 exponent.natAbs)
    else Int.ofNat digits * tenTo exponent.natAbs * scale
  let x := if negative then -magnitude else magnitude
  let ten := logarithmWithin (10 * scale) scale places
  let power := x.fdiv ten
  let n := exponentialSeries (x - power * ten) scale (16 * places) 0 scale
  fit false n.natAbs (power - Int.ofNat places) true

/-- Numbers with an exponent of the leading digit from here on are too large for an exponential. -/
def exponentialLimit : Int := 8

/-- Numbers with an exponent of the leading digit up to this one are as good as zero. -/
def exponentialFloor : Int := -40

/-- The exponential. -/
def exp : Decimal → Except DecimalSignal Decimal
  | .finite negative digits exponent =>
    if digits = 0 then .ok (.finite false 1 0)
    else
      let size := adjusted digits exponent
      if exponentialLimit ≤ size then
        if negative then .ok (.finite false 0 tinyExponent) else .error .overflow
      else if size ≤ exponentialFloor then
        fit false (Nat.pow 10 40 - if negative then 1 else 0) (-40) true
      else exponential negative digits exponent
  | .infinity negative => .ok (if negative then .finite false 0 0 else .infinity false)
  | .nan negative signaling payload => passNan negative signaling payload

end Hydration.Decimal
