import Scaffold.Disk.Basic

/-!
Files as texts: UTF-8, and on reading a newline for each kind of line ending.
-/

namespace Scaffold.Disk

/-- A text with each carriage return, and each carriage return before a newline, made a newline. -/
def unifyNewlines : Text → Text
  | [] => []
  | '\r' :: '\n' :: rest => '\n' :: unifyNewlines rest
  | '\r' :: rest => '\n' :: unifyNewlines rest
  | c :: rest => c :: unifyNewlines rest

/-- The bytes of a text. -/
def encode (t : Text) : ByteArray :=
  (String.ofList t).toByteArray

/-- The text that some bytes spell, if they are UTF-8. -/
def decode? (content : ByteArray) : Option Text :=
  content.utf8Decode?.map fun chars => unifyNewlines chars.toList

end Scaffold.Disk
