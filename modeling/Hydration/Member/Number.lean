import Hydration.Member.Basic
import Hydration.Number.DecimalLogarithm
/-!
# Members of numbers

The parts of a number as a complex number and as a fraction, its bits and digits, and the decimal
operations of one number. A truth value has what the integer has that it counts as.
-/
namespace Hydration.Member

/-- A pair of integers. -/
def pair (p : Int × Nat) : Value := .tuple [.int p.1, .int p.2]

/-! ## Integers -/

/-- The members of an integer. -/
def intTable : Table Int :=
  [("real", fun i => .found (.int i)),
    ("imag", fun _ => .found (.int 0)),
    ("numerator", fun i => .found (.int i)),
    ("denominator", fun _ => .found (.int 1)),
    ("conjugate", fun i => .found (.int i)),
    ("as_integer_ratio", fun i => .found (pair (i, 1))),
    ("bit_length", fun i => .found (.int (Number.bitLength i))),
    ("bit_count", fun i => .found (.int (Number.bitCount i))),
    ("to_bytes", fun i =>
      match Number.toByte i with
      | .ok b => .found (.bytes [b])
      | .error fault => .failed (.overflow fault)),
    ("from_bytes", fun _ => .wantsArguments)]

/-- What an integer has under a name. -/
def ofInt? (name : Text) (i : Int) : Option Member := intTable.find? name i

/-! ## Floating-point numbers -/

/-- The members of a floating-point number. -/
def floatTable : Table Binary64 :=
  [("real", fun x => .found (.float x)),
    ("imag", fun _ => .found (.float (.zero false))),
    ("conjugate", fun x => .found (.float x)),
    ("as_integer_ratio", fun x => ofExcept (x.ratio.map pair)),
    ("is_integer", fun x => .found (.bool x.isInteger)),
    ("hex", fun x => .found (.str x.hexText)),
    ("fromhex", fun _ => .wantsArguments)]

/-- What a floating-point number has under a name. -/
def ofFloat? (name : Text) (x : Binary64) : Option Member := floatTable.find? name x

/-! ## Decimal numbers -/

/-- The result of a decimal operation. -/
def ofDecimalResult : Except DecimalSignal Decimal → Member
  | .ok d => .found (.decimal d)
  | .error signal => .failed (.decimal signal)

/-- The sign, the digits and the exponent of a decimal number. -/
def decimalParts : Decimal → List Value
  | .finite negative digits exponent =>
    parts negative (Text.ofNat digits) (.int exponent)
  | .infinity negative => parts negative ['0'] (.str "F")
  | .nan negative signaling payload =>
    parts negative payload (.str (if signaling then "N" else "n"))
where
  /-- The parts from the digits as text. -/
  parts (negative : Bool) (digits : Text) (exponent : Value) : List Value :=
    [.int (Value.boolInt negative), .tuple (digits.map fun c => .int (c.toNat - 48)), exponent]

/-- Whether the number has the sign of negative numbers. -/
def isNegative : Decimal → Bool
  | .finite negative _ _ | .infinity negative | .nan negative _ _ => negative

/-- The number with the given sign. -/
def withSign (negative : Bool) : Decimal → Decimal
  | .finite _ digits exponent => .finite negative digits exponent
  | .infinity _ => .infinity negative
  | .nan _ signaling payload => .nan negative signaling payload

/-- The exponent of the leading digit; zero if there are no digits. -/
def leadingPlace : Decimal → Int
  | .finite _ digits exponent => Decimal.adjusted digits exponent
  | _ => 0

/-- The properties that tell kinds of decimal numbers apart. -/
def decimalTests : List (Text × (Decimal → Bool)) :=
  [("is_canonical", fun _ => true),
    ("is_finite", fun d => match d with | .finite _ _ _ => true | _ => false),
    ("is_infinite", fun d => match d with | .infinity _ => true | _ => false),
    ("is_nan", fun d => match d with | .nan _ _ _ => true | _ => false),
    ("is_qnan", fun d => match d with | .nan _ signaling _ => !signaling | _ => false),
    ("is_snan", fun d => match d with | .nan _ signaling _ => signaling | _ => false),
    ("is_signed", isNegative),
    ("is_zero", Decimal.isZero),
    ("is_normal", fun d => d.className.drop 1 == "Normal".toList),
    ("is_subnormal", fun d => d.className.drop 1 == "Subnormal".toList)]

/-- The members of a decimal number but for those that tell kinds apart. -/
def decimalTable : Table Decimal :=
  [("real", fun d => .found (.decimal d)),
    ("imag", fun _ => .found (.decimal (.finite false 0 0))),
    ("conjugate", fun d => .found (.decimal d)),
    ("canonical", fun d => .found (.decimal d)),
    ("copy_abs", fun d => .found (.decimal (withSign false d))),
    ("copy_negate", fun d => .found (.decimal (withSign (!isNegative d) d))),
    ("radix", fun _ => .found (.decimal (.finite false 10 0))),
    ("adjusted", fun d => .found (.int (leadingPlace d))),
    ("as_tuple", fun d => .found (.record .decimal (decimalParts d))),
    ("as_integer_ratio", fun d => ofExcept (d.ratio.map pair)),
    ("number_class", fun d => .found (.str d.className)),
    ("to_eng_string", fun d => .found (.str d.engineeringText)),
    ("to_integral", fun d => ofDecimalResult d.toIntegral),
    ("to_integral_value", fun d => ofDecimalResult d.toIntegral),
    ("to_integral_exact", fun d => ofDecimalResult d.toIntegral),
    ("normalize", fun d => ofDecimalResult d.normalize),
    ("next_plus", fun d => ofDecimalResult (d.next false)),
    ("next_minus", fun d => ofDecimalResult (d.next true)),
    ("logb", fun d => ofDecimalResult d.logb),
    ("sqrt", fun d => ofDecimalResult d.sqrt),
    ("exp", fun d => ofDecimalResult d.exp),
    ("ln", fun d => ofDecimalResult d.ln),
    ("log10", fun d => ofDecimalResult d.log10),
    ("logical_invert", fun d => ofDecimalResult d.invert)]

/-- The methods of a decimal number that want arguments. -/
def decimalWanting : List Text :=
  ["compare", "compare_signal", "compare_total", "compare_total_mag", "copy_sign", "fma",
    "from_float", "logical_and", "logical_or", "logical_xor", "max", "max_mag", "min", "min_mag",
    "next_toward", "quantize", "remainder_near", "rotate", "same_quantum", "scaleb", "shift"]

/-- What a decimal number has under a name. -/
def ofDecimal? (name : Text) (d : Decimal) : Option Member :=
  ((decimalTable.find? name d).or
    ((decimalTests.lookup name).map fun test => .found (.bool (test d)))).or
      (wanting? decimalWanting name)

end Hydration.Member
