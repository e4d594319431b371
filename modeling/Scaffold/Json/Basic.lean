import Scaffold.Entries
import Scaffold.Json.Number
import Scaffold.Text.Quoted

/-!
JSON values. Objects keep the order of their fields. The strings of a value are texts; while a value
is read they may be raw texts.
-/

namespace Scaffold

inductive Json (σ : Type := Text) where
  | null
  | bool (b : Bool)
  | number (n : Json.Number)
  | string (t : σ)
  | array (items : List (Json σ))
  | object (fields : List (σ × Json σ))

namespace Json

/-- A whole number. -/
abbrev int (n : Int) : Json := .number (.whole n)

/-- A list of texts as a value. -/
def texts (ts : List Text) : Json :=
  .array (ts.map .string)

/-- A mapping from texts to texts as a value. -/
def textFields (entries : Entries Text) : Json :=
  .object (entries.map fun (key, value) => (key, .string value))

/-- A value counts as filled unless it is null, false, zero or empty. -/
def isFilled : Json → Bool
  | .null => false
  | .bool b => b
  | .number (.whole n) => n ≠ 0
  | .number (.decimal significand _) => significand ≠ 0
  | .number _ => true
  | .string t => !t.isEmpty
  | .array items => !items.isEmpty
  | .object fields => !fields.isEmpty

mutual

/-- A value inside a list or mapping that is shown as text: strings are quoted. -/
def shown : Json → Text
  | .null => "None"
  | .bool b => if b then "True" else "False"
  | .number n => n.toText
  | .string t => t.quoted
  | .array items => "[" ++ Text.join ", " (shownItems items) ++ "]"
  | .object fields => "\x7b" ++ Text.join ", " (shownFields fields) ++ "\x7d"

def shownItems : List Json → List Text
  | [] => []
  | item :: rest => shown item :: shownItems rest

def shownFields : List (Text × Json) → List Text
  | [] => []
  | (key, value) :: rest => (key.quoted ++ ": " ++ shown value) :: shownFields rest

end

/-- A value as text: a string is its own text. -/
def toText : Json → Text
  | .string t => t
  | value => value.shown

end Json

end Scaffold
