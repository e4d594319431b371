import Scaffold.Json.Number

/-!
Decimals rounded to double precision, as far as it decides which of them are whole numbers.
-/

namespace Scaffold.Json.Number

/-- A quotient rounded to the nearest whole number, a half to the even one. -/
def roundDiv (numerator denominator : Nat) : Nat :=
  let quotient := numerator / denominator
  let rest := numerator % denominator
  if 2 * rest < denominator then quotient
  else if denominator < 2 * rest then quotient + 1
  else quotient + quotient % 2

/-- What a decimal becomes in double precision. -/
inductive Rounded where
  | whole (n : Nat)
  | fractional
  | overflow
  deriving DecidableEq, Repr

/--
The positive fraction `numerator / denominator` as the nearest multiple of the power of two that
leaves 53 binary digits, or of the least power of double precision.
-/
def roundFraction (numerator denominator : Nat) : Rounded :=
  let mantissa (e : Int) : Nat := roundDiv (numerator <<< (-e).toNat) (denominator <<< e.toNat)
  let least : Int := max (-1074) ((numerator.log2 : Int) - denominator.log2 - 53)
  let e := if mantissa least < 1 <<< 53 then least else least + 1
  let m := mantissa e
  if 0 ≤ e then
    let n := m <<< e.toNat
    if n < 1 <<< 1024 then .whole n else .overflow
  else if m % (1 <<< (-e).toNat) = 0 then .whole (m >>> (-e).toNat)
  else .fractional

/-- The magnitude `significand · 10 ^ exponent` in double precision. -/
def roundDecimal (significand : Nat) (exponent : Int) : Rounded :=
  let digits : Int := (Text.ofNat significand).length
  if significand = 0 then .whole 0
  else if 400 < digits + exponent then .overflow
  else if digits + exponent < -400 then .whole 0
  else roundFraction (significand * Nat.pow 10 exponent.toNat) (Nat.pow 10 (-exponent).toNat)

end Scaffold.Json.Number
