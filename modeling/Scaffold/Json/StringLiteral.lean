import Scaffold.Text.Quoted
import Scaffold.Text.Raw

/-!
String literals of JSON: escaping, and reading with the errors that can occur. Characters beyond the
basic plane are escaped as two surrogates, which reading puts together again. Other surrogates stay
alone, so that a literal spells a raw text.
-/

namespace Scaffold.Json

/-- What is wrong with a text that should be JSON. -/
inductive Fault where
  | expectingValue
  | expectingName
  | expectingColon
  | expectingComma
  | extraData
  | unterminatedString
  | controlCharacter
  | unknownEscape
  | unicodeEscape
  | loneSurrogate
  | byteOrderMark
  deriving DecidableEq, Repr

namespace Fault

def message : Fault → Text
  | expectingValue => "Expecting value"
  | expectingName => "Expecting property name enclosed in double quotes"
  | expectingColon => "Expecting ':' delimiter"
  | expectingComma => "Expecting ',' delimiter"
  | extraData => "Extra data"
  | unterminatedString => "Unterminated string starting at"
  | controlCharacter => "Invalid control character at"
  | unknownEscape => "Invalid \\escape"
  | unicodeEscape => "Invalid \\uXXXX escape"
  | loneSurrogate => "Lone surrogate"
  | byteOrderMark => "Unexpected UTF-8 BOM (decode using utf-8-sig)"

end Fault

/-- The UTF-16 code units of a character. -/
def units (c : Char) : List Nat :=
  if c.toNat < 0x10000 then [c.toNat]
  else [0xD800 + (c.toNat - 0x10000) / 0x400, 0xDC00 + (c.toNat - 0x10000) % 0x400]

/-- A character inside a literal; `plain` holds of those that may stand as they are. -/
def escapeChar (plain : Char → Bool) (c : Char) : Text :=
  if c = '"' then "\\\""
  else if c = '\\' then "\\\\"
  else if c = '\n' then "\\n"
  else if c = '\r' then "\\r"
  else if c = '\t' then "\\t"
  else if c = '\x08' then "\\b"
  else if c = '\x0c' then "\\f"
  else if plain c then [c]
  else (units c).flatMap fun unit => "\\u" ++ Text.hex 4 unit

/-- The literal of a text. -/
def literal (plain : Char → Bool) (t : Text) : Text :=
  ['"'] ++ t.flatMap (escapeChar plain) ++ ['"']

/-- The printable characters of ASCII. -/
def isAsciiPrintable (c : Char) : Bool :=
  0x20 ≤ c.toNat && c.toNat ≤ 0x7E

/-- All characters but the control characters that JSON forbids. -/
def isUnrestricted (c : Char) : Bool :=
  0x20 ≤ c.toNat

/-- What one character or escape of a literal stands for. -/
inductive Piece where
  | char (c : Char)
  /-- A code unit given by its number. -/
  | unit (n : Nat)
  deriving DecidableEq, Repr

def hexValue? (c : Char) : Option Nat :=
  if c.isDigit then some (c.toNat - 48)
  else if 'a' ≤ c ∧ c ≤ 'f' then some (c.toNat - 87)
  else if 'A' ≤ c ∧ c ≤ 'F' then some (c.toNat - 55)
  else none

/-- The number with four hexadecimal digits. -/
def hex4? (a b c d : Char) : Option Nat := do
  return (((← hexValue? a) * 16 + (← hexValue? b)) * 16 + (← hexValue? c)) * 16 + (← hexValue? d)

/-- The characters that one letter after a backslash stands for. -/
def namedEscape? : Char → Option Char
  | '"' => some '"'
  | '\\' => some '\\'
  | '/' => some '/'
  | 'b' => some '\x08'
  | 'f' => some '\x0c'
  | 'n' => some '\n'
  | 'r' => some '\r'
  | 't' => some '\t'
  | _ => none

/--
Reads the rest of a literal whose opening quote has been read, and the text after it. An escape by
number needs a character after its digits.
-/
def readPieces : Text → Except Fault (List Piece × Text)
  | [] => .error .unterminatedString
  | '"' :: rest => .ok ([], rest)
  | ['\\'] => .error .unterminatedString
  | '\\' :: 'u' :: a :: b :: c :: d :: rest =>
    match rest, hex4? a b c d with
    | _ :: _, some n => do
      let (pieces, rest) ← readPieces rest
      return (.unit n :: pieces, rest)
    | _, _ => .error .unicodeEscape
  | '\\' :: c :: rest =>
    if c = 'u' then .error .unicodeEscape
    else match namedEscape? c with
      | none => .error .unknownEscape
      | some e => do
        let (pieces, rest) ← readPieces rest
        return (.char e :: pieces, rest)
  | c :: rest =>
    if isUnrestricted c then do
      let (pieces, rest) ← readPieces rest
      return (.char c :: pieces, rest)
    else .error .controlCharacter

def isHighSurrogate (n : Nat) : Bool := 0xD800 ≤ n && n < 0xDC00

def isLowSurrogate (n : Nat) : Bool := 0xDC00 ≤ n && n < 0xE000

/-- The character that a pair of surrogates stands for. -/
def ofSurrogates (high low : Nat) : Char :=
  Char.ofNat (0x10000 + (high - 0xD800) * 0x400 + (low - 0xDC00))

/-- The raw text that the pieces of a literal spell. -/
def ofPieces : List Piece → RawText
  | [] => []
  | .unit high :: .unit low :: rest =>
    if isHighSurrogate high && isLowSurrogate low then
      .char (ofSurrogates high low) :: ofPieces rest
    else .ofUnit high :: ofPieces (.unit low :: rest)
  | .unit n :: rest => .ofUnit n :: ofPieces rest
  | .char c :: rest => .char c :: ofPieces rest

/-- Reads the rest of a literal whose opening quote has been read. -/
def readLiteral (t : Text) : Except Fault (RawText × Text) := do
  let (pieces, rest) ← readPieces t
  return (ofPieces pieces, rest)

end Scaffold.Json
