import Scaffold.Json.Basic
import Scaffold.Json.StringLiteral

/-!
Reading JSON texts. Of two fields with one name the later value counts.
-/

namespace Scaffold.Json

/-- Why a text cannot be read as JSON. -/
inductive ReadError where
  | malformed (fault : Fault)
  /-- The whole part of a number has more than `Text.digitLimit` digits. -/
  | numberTooLong
  /-- Arrays and objects are nested too deeply. -/
  | tooDeep
  deriving DecidableEq, Repr

/-- What a reader of JSON texts lets pass. -/
structure Dialect (σ : Type) where
  /-- The string that a raw text gives. -/
  string : RawText → Except Fault σ
  /-- Whether decimals, and not only whole numbers, have at most `Text.digitLimit` whole digits. -/
  boundsDecimals : Bool
  /-- How deeply arrays and objects that are not empty may be nested. -/
  depth : Nat

variable {σ : Type}

/-- White space between the symbols of a JSON text. -/
def isGap (c : Char) : Bool :=
  c = ' ' || c = '\t' || c = '\n' || c = '\r'

def skipGap (t : Text) : Text :=
  t.dropWhile isGap

/-- The words that stand for a value. -/
def keywords : List (Text × Json σ) :=
  [("null", .null), ("true", .bool true), ("false", .bool false), ("NaN", .number .nan),
    ("Infinity", .number (.infinity false)), ("-Infinity", .number (.infinity true))]

/-- The value of the keyword at the front of a text, and what follows it. -/
def readKeyword? (t : Text) : Option (Json σ × Text) :=
  (keywords.find? fun (word, _) => word.startsWith t).map fun (word, value) =>
    (value, t.drop word.length)

/-- Reads the rest of a literal, and makes the string of the dialect of it. -/
def readString (dialect : Dialect σ) (t : Text) : Except ReadError (σ × Text) := do
  let (raw, rest) ← (readLiteral t).mapError .malformed
  let s ← (dialect.string raw).mapError .malformed
  return (s, rest)

variable [DecidableEq σ]

mutual

/--
Reads the value at the front of a text; `fuel` bounds the number of values and separators, `depth`
the arrays and objects inside one another.
-/
def readValue (dialect : Dialect σ) : Nat → Nat → Text → Except ReadError (Json σ × Text)
  | 0, _, _ => .error (.malformed .expectingValue)
  | fuel + 1, depth, t =>
    match t with
    | '"' :: rest => do
      let (s, rest) ← readString dialect rest
      return (.string s, rest)
    | '\x7b' :: rest =>
      match skipGap rest, depth with
      | '\x7d' :: rest, _ => .ok (.object [], rest)
      | _, 0 => .error .tooDeep
      | rest, depth + 1 => do
        let (fields, rest) ← readFields dialect fuel depth [] rest
        return (.object fields, rest)
    | '[' :: rest =>
      match skipGap rest, depth with
      | ']' :: rest, _ => .ok (.array [], rest)
      | _, 0 => .error .tooDeep
      | rest, depth + 1 => do
        let (items, rest) ← readItems dialect fuel depth rest
        return (.array items, rest)
    | t =>
      match readKeyword? t with
      | some result => .ok result
      | none =>
        match Number.scan dialect.boundsDecimals t with
        | .missing => .error (.malformed .expectingValue)
        | .tooLong => .error .numberTooLong
        | .found n rest => .ok (.number n, rest)

/-- Reads the items of an array that has at least one, and the closing bracket. -/
def readItems (dialect : Dialect σ) : Nat → Nat → Text → Except ReadError (List (Json σ) × Text)
  | 0, _, _ => .error (.malformed .expectingValue)
  | fuel + 1, depth, t => do
    let (item, rest) ← readValue dialect fuel depth t
    match skipGap rest with
    | ']' :: rest => return ([item], rest)
    | ',' :: rest =>
      let (items, rest) ← readItems dialect fuel depth (skipGap rest)
      return (item :: items, rest)
    | _ => .error (.malformed .expectingComma)

/-- Reads the fields of an object that has at least one more, and the closing brace. -/
def readFields (dialect : Dialect σ) :
    Nat → Nat → Entries (Json σ) σ → Text → Except ReadError (Entries (Json σ) σ × Text)
  | 0, _, _, _ => .error (.malformed .expectingValue)
  | fuel + 1, depth, fields, t =>
    match t with
    | '"' :: rest => do
      let (name, rest) ← readString dialect rest
      match skipGap rest with
      | ':' :: rest =>
        let (value, rest) ← readValue dialect fuel depth (skipGap rest)
        match skipGap rest with
        | '\x7d' :: rest => return (fields.put name value, rest)
        | ',' :: rest => readFields dialect fuel depth (fields.put name value) (skipGap rest)
        | _ => .error (.malformed .expectingComma)
      | _ => .error (.malformed .expectingColon)
    | _ => .error (.malformed .expectingName)

end

/-- Reads a text that holds one value and nothing else. -/
def read (dialect : Dialect σ) (t : Text) : Except ReadError (Json σ) :=
  match t with
  | '\uFEFF' :: _ => .error (.malformed .byteOrderMark)
  | t => do
    let (value, rest) ← readValue dialect (2 * t.length + 2) dialect.depth (skipGap t)
    if skipGap rest = [] then return value
    else .error (.malformed .extraData)

end Scaffold.Json
