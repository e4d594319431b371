import Scaffold.Text.Digit

/-!
The numbers of JSON texts: whole numbers, decimals in scientific notation, and the three values
that are not finite.
-/

namespace Scaffold.Json

inductive Number where
  | whole (n : Int)
  /-- The decimal `significand · 10 ^ exponent`. -/
  | decimal (significand exponent : Int)
  | nan
  | infinity (negative : Bool)
  deriving DecidableEq, Repr

namespace Number

/-- The notation of a number. -/
def toText : Number → Text
  | whole n => Text.ofInt n
  | decimal significand exponent => Text.ofInt significand ++ "e" ++ Text.ofInt exponent
  | nan => "NaN"
  | infinity negative => if negative then "-Infinity" else "Infinity"

/-- The digits at the front of a text, and what follows them. -/
def spanDigits (t : Text) : Text × Text :=
  (t.takeWhile Char.isDigit, t.dropWhile Char.isDigit)

/-- The whole part: a zero, or digits of which the first is no zero. -/
def spanWhole : Text → Option (Text × Text)
  | '0' :: rest => some (['0'], rest)
  | c :: rest => if c.isDigit then some (spanDigits (c :: rest)) else none
  | [] => none

/-- The digits of a fraction, where a point with a digit after it opens one. -/
def spanFraction : Text → Option (Text × Text)
  | '.' :: c :: rest => if c.isDigit then some (spanDigits (c :: rest)) else none
  | _ => none

/-- An exponent, where a complete one follows. -/
def spanExponent : Text → Option (Int × Text)
  | e :: rest =>
    if e = 'e' ∨ e = 'E' then
      let (negative, rest) := Text.cutSign rest
      match spanDigits rest with
      | ([], _) => none
      | (digits, rest) =>
        let n : Int := Nat.ofDigitChars 10 digits 0
        some (if negative then -n else n, rest)
    else none
  | [] => none

/-- The longest number at the front of a text. -/
inductive Scan where
  /-- No number stands there. -/
  | missing
  /-- A number has too long a whole part. -/
  | tooLong
  | found (n : Number) (rest : Text)

/--
Scans a number: minus sign, whole part, fraction, exponent. A whole number has at most
`Text.digitLimit` digits, and so has the whole part of a decimal where `bounded` says so.
-/
def scan (bounded : Bool) (t : Text) : Scan :=
  let (negative, unsigned) := match t with
    | '-' :: rest => (true, rest)
    | _ => (false, t)
  match spanWhole unsigned with
  | none => .missing
  | some (digits, rest) =>
    let fraction := spanFraction rest
    let rest := (fraction.map Prod.snd).getD rest
    let exponent := spanExponent rest
    let rest := (exponent.map Prod.snd).getD rest
    let places := (fraction.map Prod.fst).getD []
    let magnitude : Int := Nat.ofDigitChars 10 (digits ++ places) 0
    let n := if negative then -magnitude else magnitude
    let whole := fraction.isNone && exponent.isNone
    if (whole || bounded) && Text.digitLimit < digits.length then .tooLong
    else if whole then .found (.whole n) rest
    else .found (.decimal n ((exponent.map Prod.fst).getD 0 - places.length)) rest

end Number

end Scaffold.Json
