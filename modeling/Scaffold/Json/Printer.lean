import Scaffold.Json.Basic
import Scaffold.Json.StringLiteral

/-!
Writing JSON texts: in one line of printable ASCII, or indented with all but control characters
left as they are.
-/

namespace Scaffold.Json

mutual

/-- A value in one line of ASCII, with a space after each comma and colon. -/
def compact : Json → Text
  | .null => "null"
  | .bool b => if b then "true" else "false"
  | .number n => n.toText
  | .string t => literal isAsciiPrintable t
  | .array items => "[" ++ Text.join ", " (compactItems items) ++ "]"
  | .object fields => "\x7b" ++ Text.join ", " (compactFields fields) ++ "\x7d"

def compactItems : List Json → List Text
  | [] => []
  | item :: rest => compact item :: compactItems rest

def compactFields : List (Text × Json) → List Text
  | [] => []
  | (name, value) :: rest =>
    (literal isAsciiPrintable name ++ ": " ++ compact value) :: compactFields rest

end

/-- A group of members on lines of their own, or the two brackets alone where there are none. -/
def block (indent : Nat) (opening closing : Char) : List Text → Text
  | [] => [opening, closing]
  | members =>
    let line := ['\n'] ++ List.replicate (2 * indent) ' '
    [opening] ++ line ++ "  " ++ Text.join (',' :: line ++ "  ") members ++ line ++ [closing]

mutual

/-- A value with every member on its own line, two spaces further in than what holds it; the
characters of `plain` stand in strings as they are. -/
def indented (plain : Char → Bool) (indent : Nat) : Json → Text
  | .null => "null"
  | .bool b => if b then "true" else "false"
  | .number n => n.toText
  | .string t => literal plain t
  | .array items => block indent '[' ']' (indentedItems plain (indent + 1) items)
  | .object fields => block indent '\x7b' '\x7d' (indentedFields plain (indent + 1) fields)

def indentedItems (plain : Char → Bool) (indent : Nat) : List Json → List Text
  | [] => []
  | item :: rest => indented plain indent item :: indentedItems plain indent rest

def indentedFields (plain : Char → Bool) (indent : Nat) : List (Text × Json) → List Text
  | [] => []
  | (name, value) :: rest =>
    (literal plain name ++ ": " ++ indented plain indent value) :: indentedFields plain indent rest

end

/-- A value on several lines. -/
def pretty (value : Json) : Text :=
  indented isUnrestricted 0 value

end Scaffold.Json
