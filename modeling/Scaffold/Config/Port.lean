import Scaffold.Json.Double
import Scaffold.Validation

/-!
Port numbers and the values that are accepted for one.
-/

namespace Scaffold

/-- A port number. -/
structure Port where
  number : Nat
  positive : 1 ≤ number
  le_max : number ≤ 65535
  deriving DecidableEq

namespace Port

open Validation (Fault)

/-- The port with a given number, if it is in range. -/
def ofInt (n : Int) : Except Fault Port :=
  if positive : n < 1 then .error (.tooSmall 1)
  else if le_max : 65535 < n then .error (.tooLarge 65535)
  else .ok ⟨n.toNat, by omega, by omega⟩

/-- Whether a number without leading zeros can begin with a character. -/
def opensNumber (c : Char) : Bool :=
  c = '-' || (c ≠ '0' && c.isDigit)

/--
A text without its leading zeros and the underscores among them; the last one stays where a point
follows or nothing at all.
-/
def dropZeros? : Text → Option Text
  | [] => none
  | c :: rest => if c = '0' then go c rest else if opensNumber c then some (c :: rest) else none
where
  /-- Goes on after a zero or an underscore. -/
  go (last : Char) : Text → Option Text
    | [] => some [last]
    | c :: rest =>
      if c = '0' || c = '_' then go c rest
      else if opensNumber c then some (c :: rest)
      else if c = '.' then some (last :: c :: rest)
      else none

/-- A fraction of nothing but zeros, at least one, is dropped. -/
def dropZeroFraction (t : Text) : Text :=
  match Text.cutFirst '.' t with
  | some (whole, fraction) => if fraction ≠ [] ∧ fraction.all (· = '0') then whole else t
  | none => t

/-- A text without its underscores if each of them stands alone between other characters. -/
def dropUnderscores (t : Text) : Text :=
  let pieces := Text.cut (· = '_') t
  if pieces.any List.isEmpty then t else pieces.flatten

/-- What remains of a text without leading zeros, a fraction of zeros and underscores. -/
def cleanDigits? (t : Text) : Option Text := do
  return dropUnderscores (dropZeroFraction (← dropZeros? t))

/--
What remains of a text without white space at its ends, a plus sign, and what is cleaned from the
digits. A minus sign at the front stays there.
-/
def clean? (t : Text) : Option Text :=
  match Text.trim Text.isWhiteSpace t with
  | '+' :: '-' :: _ => none
  | '+' :: digits => cleanDigits? digits
  | '-' :: digits => (cleanDigits? digits).map ('-' :: ·)
  | digits => cleanDigits? digits

/--
The integer that a text stands for: as JSON writes it, or so after cleaning. Only an integer that
needs no cleaning is told to have too many digits.
-/
def integerOfText (t : Text) : Except Fault Int :=
  match Json.Number.scan true t with
  | .found (.whole n) [] => .ok n
  | .tooLong => .error .oversized
  | _ =>
    match (clean? t).map (Json.Number.scan true) with
    | some (.found (.whole n) []) => .ok n
    | _ => .error .unreadableInteger

/-- The integer that a number stands for, if it has no fraction in double precision. -/
def integerOf : Json.Number → Except Fault Int
  | .whole n => .ok n
  | .decimal significand exponent =>
    match Json.Number.roundDecimal significand.natAbs exponent with
    | .whole n => if n < 1 <<< 63 then .ok (significand.sign * n) else .error .oversized
    | .fractional => .error .fractional
    | .overflow => .error .notFinite
  | .nan => .error .notFinite
  | .infinity _ => .error .notFinite

/-- The port that a value of a record stands for. -/
def ofJson : Json → Except Fault Port
  | .bool b => ofInt (if b then 1 else 0)
  | .number n => do ofInt (← integerOf n)
  | .string t => do ofInt (← integerOfText t)
  | _ => .error .notInteger

end Port

end Scaffold
