import Hydration.Failure
import Hydration.Number.Binary64
/-!
# Parts of numbers

Numbers taken apart: an integer into bits and bytes, a floating-point number into a quotient in
lowest terms and into hexadecimal digits.

* `bitCount_le_bitLength`: no more bits are one than there are.
* `reduced_coprime`: a reduced quotient is in lowest terms.
-/
namespace Hydration.Number

/-- The bits of a natural number without leading zeros. -/
def bits (n : Nat) : List Char := if n = 0 then [] else Nat.toDigits 2 n

/-- How many bits an integer has, its sign apart. -/
def bitLength (i : Int) : Nat := (bits i.natAbs).length

/-- How many bits of an integer are one, its sign apart. -/
def bitCount (i : Int) : Nat := (bits i.natAbs).count '1'

theorem bitCount_le_bitLength (i : Int) : bitCount i ≤ bitLength i := List.count_le_length

/-- The one byte that an integer is. -/
def toByte (i : Int) : Except OverflowFault UInt8 :=
  if i < 0 then .error .negativeBytes
  else if 256 ≤ i then .error .bytesTooFew
  else .ok i.toNat.toUInt8

/-- A quotient in lowest terms. -/
def reduced (numerator : Int) (denominator : Nat) : Int × Nat :=
  let g := Nat.gcd numerator.natAbs denominator
  (numerator.tdiv (Int.ofNat g), denominator / g)

theorem reduced_coprime (numerator : Int) {denominator : Nat} (h : 0 < denominator) :
    Nat.gcd (reduced numerator denominator).1.natAbs (reduced numerator denominator).2 = 1 := by
  have hg : 0 < Nat.gcd numerator.natAbs denominator := Nat.gcd_pos_of_pos_right _ h
  simp only [reduced, Int.natAbs_tdiv]
  exact (Nat.gcd_div (Nat.gcd_dvd_left _ _) (Nat.gcd_dvd_right _ _)).trans (Nat.div_self hg)

end Hydration.Number

namespace Hydration.Binary64

/-- A finite number as a quotient in lowest terms. -/
def ratio : Binary64 → Except Failure (Int × Nat)
  | .nan => .error (.value .notARatio)
  | .infinity _ => .error (.overflow .infiniteRatio)
  | .finite negative mantissa exponent =>
    let (p, q) := magnitude mantissa exponent
    .ok (Number.reduced (if negative then -Int.ofNat p else Int.ofNat p) q)

/-- Whether the number is finite and an integer. -/
def isInteger : Binary64 → Bool
  | .finite _ mantissa exponent =>
    let (p, q) := magnitude mantissa exponent
    p % q == 0
  | _ => false

/-- The number in hexadecimal digits and a power of two: one digit before the point, zero only if
the number has the least exponent, and thirteen behind it. -/
def hexText : Binary64 → Text
  | .finite negative mantissa exponent =>
    if mantissa = 0 then signText negative ++ "0x0.0p+0"
    else
      let whole := mantissa / (mantissaLimit / 2)
      let power := exponent + 52
      signText negative ++ "0x" ++ Text.ofNat whole ++
        '.' :: Text.ofHex 13 (mantissa % (mantissaLimit / 2)) ++
        'p' :: (if power < 0 then '-' else '+') :: Text.ofNat power.natAbs
  | x => x.toText

end Hydration.Binary64
