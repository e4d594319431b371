import Scaffold.Console.Basic
import Scaffold.Console.Styled
import Scaffold.Text.Digit

/-!
Markup for styled output. A tag is a bracketed name. It prints nothing, but the text up to the tag
that closes it is a span of its own; a closing tag must have an open one. An odd number of
backslashes before a tag makes it an ordinary text, and `escape` puts them there.
-/

namespace Scaffold.Markup

open Console (Span Styled printed)

/-- Whether a tag can begin with a character. -/
def opensTag (c : Char) : Bool :=
  ('a' ≤ c && c ≤ 'z') || c = '#' || c = '/' || c = '@'

/-- What stands before the first closing bracket, if no opening one comes before it. -/
def untilBracket : Text → Option Text
  | [] => none
  | c :: rest =>
    if c = ']' then some []
    else if c = '[' then none
    else (untilBracket rest).map (c :: ·)

/-- What stands between the brackets of a tag at the front of a text. -/
def tagBody? : Text → Option Text
  | '[' :: c :: rest => if opensTag c then (untilBracket rest).map (c :: ·) else none
  | _ => none

/-- A character, or a tag with the number of backslashes right before it. -/
inductive Part where
  | char (c : Char)
  | tag (backslashes : Nat) (body : Text)
  deriving DecidableEq, Repr

/-- The tag at the front of a text, after any number of backslashes. -/
def tagAfterBackslashes? (t : Text) : Option (Nat × Text) :=
  (tagBody? (t.dropWhile (· = '\\'))).map fun body => ((t.takeWhile (· = '\\')).length, body)

/-- The parts of a text after its first `skip` characters. -/
def partsAfter (skip : Nat) : Text → List Part
  | [] => []
  | c :: rest =>
    match skip with
    | skip + 1 => partsAfter skip rest
    | 0 =>
      match tagAfterBackslashes? (c :: rest) with
      | some (backslashes, body) =>
        .tag backslashes body :: partsAfter (backslashes + body.length + 1) rest
      | none => .char c :: partsAfter 0 rest

/-- The parts of a text. -/
def parts (t : Text) : List Part :=
  partsAfter 0 t

/-- Why a text cannot be printed; positions count characters. -/
inductive Error where
  | unmatched (body : Text) (position : Nat)
  | nothingToClose (position : Nat)
  /-- The console can make nothing of the name of a tag or of its parameters. -/
  | unreadable (message : Text)
  deriving DecidableEq, Repr

def Error.message : Error → Text
  | unmatched body position =>
    "closing tag '[" ++ body ++ "]' at position " ++ Text.ofNat position ++
      " doesn't match any open tag"
  | nothingToClose position =>
    "closing tag '[/]' at position " ++ Text.ofNat position ++ " has nothing to close"
  | unreadable message => message

/-- The name of a tag: what stands before an equals sign. -/
def tagName (body : Text) : Text :=
  body.takeWhile (· ≠ '=')

/-- What stands behind the slash in the name of a closing tag. -/
def closingName? (body : Text) : Option Text :=
  match tagName body with
  | '/' :: name => some name
  | _ => none

/-- The parameters of a tag: what stands behind its first equals sign. -/
def tagParameters (body : Text) : Text :=
  (body.dropWhile (· ≠ '=')).drop 1

/-- What is known of a tag as long as it is open. -/
structure Tag where
  name : Text
  parameters : Text

/-- A tag that is still open, with its position in the printed text. -/
structure Opened where
  tag : Tag
  start : Nat

/-- Which open tag a closing tag can end: any one if it has no name. -/
def closes (name : Option Text) (tag : Tag) : Bool :=
  name.all (· = tag.name)

/-- The tag that a closing tag ends, and those that stay open, the last one first. -/
def closed? (name : Option Text) : List Opened → Option (Opened × List Opened)
  | [] => none
  | opened :: rest =>
    if closes name opened.tag then some (opened, rest)
    else (closed? name rest).map fun (found, others) => (found, opened :: others)

/-- What is wrong with a tag that is closed. Only those for handlers have parameters that are read.
-/
def Tag.fault? (console : Console) (tag : Tag) : Option Text :=
  if tag.name.head? = some '@' ∧ tag.parameters ≠ [] then console.parameterFault? tag.parameters
  else none

/-- The name of a style as the console reads it. -/
def readStyle (console : Console) (name : Text) : Except Error Text :=
  (console.styleName name).mapError .unreadable

/-- The name of the tag that a closing tag is for, if it says one. -/
def closedName (console : Console) (name : Text) : Except Error (Option Text) :=
  if name.strip = [] then .ok none else some <$> readStyle console name.strip

/-- The span that a tag ends, if it closes another, and the tags that are open after it. -/
def afterTag (console : Console) (opened : List Opened) (body : Text) (position shown : Nat) :
    Except Error (List Span × List Opened) :=
  match closingName? body with
  | some name => do
    let name ← closedName console name
    match closed? name opened with
    | some (found, others) =>
      match found.tag.fault? console with
      | some message => .error (.unreadable message)
      | none => .ok ([⟨found.start, shown⟩], others)
    | none => .error (if name.isNone then .nothingToClose position else .unmatched body position)
  | none => do
    return ([], ⟨⟨← readStyle console (tagName body), tagParameters body⟩, shown⟩ :: opened)

/-- A text without the backslash before each opening bracket. -/
def unescaped : Text → Text
  | '\\' :: '[' :: rest => '[' :: unescaped rest
  | c :: rest => c :: unescaped rest
  | [] => []

/-- What a text between tags prints. -/
def plain (console : Console) (t : Text) : Text :=
  printed (console.withEmojis (unescaped t))

/--
The text that some parts print and the spans that end in it. They stand at a position of the markup
after the characters `run`, where `shown` characters are printed and the tags in `opened` are open.
-/
def renderParts (console : Console) (position shown : Nat) (run : Text) (opened : List Opened) :
    List Part → Except Error (Text × List Span)
  | [] =>
    let here := plain console run
    .ok (here, opened.map fun opened => ⟨opened.start, shown + here.length⟩)
  | .char c :: rest => renderParts console (position + 1) shown (run ++ [c]) opened rest
  | .tag backslashes body :: rest => do
    let next := position + backslashes + body.length + 2
    let before := plain console run ++ List.replicate (backslashes / 2) '\\'
    if backslashes % 2 = 1 then
      let here := before ++ plain console ('[' :: (body ++ [']']))
      let (text, spans) ← renderParts console next (shown + here.length) [] opened rest
      return (here ++ text, spans)
    else
      let shown := shown + before.length
      let (ended, opened) ← afterTag console opened body (position + backslashes) shown
      let (text, spans) ← renderParts console next shown [] opened rest
      return (before ++ text, ended ++ spans)

/-- What markup prints. A tag that is left open goes up to the end. -/
def render (console : Console) (t : Text) : Except Error Styled := do
  let (text, spans) ← renderParts console 0 0 [] [] (parts t)
  return ⟨text, spans⟩

/-- A part as it has to be written to be printed as it is. -/
def Part.escaped : Part → Text
  | char c => [c]
  | tag backslashes body => List.replicate (2 * backslashes + 1) '\\' ++ ['['] ++ body ++ [']']

/-- Whether a text ends in one backslash and not in two. -/
def endsInOneBackslash (t : Text) : Bool :=
  match t.reverse with
  | '\\' :: '\\' :: _ => false
  | '\\' :: _ => true
  | _ => false

/-- The markup that prints a text as it is; a backslash at the end is doubled. -/
def escape (t : Text) : Text :=
  let escaped := (parts t).flatMap Part.escaped
  if endsInOneBackslash escaped then escaped ++ ['\\'] else escaped

end Scaffold.Markup
