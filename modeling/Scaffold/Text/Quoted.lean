import Scaffold.Text.Digit
import Scaffold.Text.UnprintableTable

/-!
Texts in quotes, for messages: single quotes unless the text holds one and no double quote, and
every character that does not print given by its code.
-/

namespace Scaffold.Text

/-- The lower-case hexadecimal notation of a number, padded with zeros to a number of digits. -/
def hex (digits n : Nat) : Text :=
  let t := Nat.toDigits 16 n
  List.replicate (digits - t.length) '0' ++ t

/-- A character inside quotes of the given kind. -/
def quotedChar (quote c : Char) : Text :=
  if c = quote || c = '\\' then ['\\', c]
  else if c = '\n' then "\\n"
  else if c = '\r' then "\\r"
  else if c = '\t' then "\\t"
  else if unprintable.has c then
    if c.toNat < 0x100 then "\\x" ++ hex 2 c.toNat
    else if c.toNat < 0x10000 then "\\u" ++ hex 4 c.toNat
    else "\\U" ++ hex 8 c.toNat
  else [c]

/-- A text in quotes. -/
def quoted (t : Text) : Text :=
  let quote := if t.contains '\'' && !t.contains '"' then '"' else '\''
  [quote] ++ t.flatMap (quotedChar quote) ++ [quote]

end Scaffold.Text
