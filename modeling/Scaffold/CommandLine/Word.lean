import Scaffold.Text.Digit
import Scaffold.Text.Quoted

/-!
The words of a command line. A word that begins with a hyphen names an option: by its name, by the
beginning of a long name that no other one has, or by a short name with more behind it.
-/

namespace Scaffold.CommandLine

inductive Effect where
  | help
  | version
  /-- The option is given or not. -/
  | switch
  /-- The option takes one argument. -/
  | value
  deriving DecidableEq, Repr

structure Flag where
  names : List Text
  effect : Effect
  deriving DecidableEq, Repr

/-- How an option is called in messages. -/
def Flag.label (f : Flag) : Text :=
  Text.join "/" f.names

/-- What a word is before it is used. -/
inductive Word where
  | argument
  /-- After it, every word is an argument. -/
  | terminator
  /-- An option, the name it was recognised by, and the text attached to it. -/
  | flag (f : Flag) (name : Text) (attached : Option Text)
  | unknownFlag
  deriving DecidableEq, Repr

/-- All names of some options, in order. -/
def spellings (flags : List Flag) : List (Text × Flag) :=
  flags.flatMap fun f => f.names.map fun name => (name, f)

def allDigits (t : Text) : Bool :=
  t.all fun c => (Text.digitValue? c).isSome

/-- A minus sign before digits of any script, which may have a point among them or before them; a
newline may follow. -/
def isNegativeNumber (t : Text) : Bool :=
  let line := if t.getLast? = some '\n' then t.dropLast else t
  match line with
  | '-' :: digits =>
    match Text.cutFirst '.' digits with
    | none => allDigits digits && !digits.isEmpty
    | some (whole, fraction) => allDigits whole && allDigits fraction && !fraction.isEmpty
  | _ => false

/-- The options that a word with one or two hyphens may mean, if no name is the word itself. -/
def candidates (flags : List Flag) (t : Text) : List (Text × Flag × Option Text) :=
  match t with
  | '-' :: '-' :: _ =>
    let (start, attached) := match Text.cutFirst '=' t with
      | some (start, attached) => (start, some attached)
      | none => (t, none)
    (spellings flags).filterMap fun (name, f) =>
      if Text.startsWith start name then some (name, f, attached) else none
  | _ =>
    (spellings flags).filterMap fun (name, f) =>
      if name = t.take 2 then some (name, f, some (t.drop 2)) else none

/-- What a word before the terminator is; the error is a message. -/
def classify (flags : List Flag) (t : Text) : Except Text Word :=
  if !Text.startsWith ['-'] t || t = ['-'] then .ok .argument
  else match (spellings flags).lookup t with
  | some f => .ok (.flag f t none)
  | none =>
    let exact := (Text.cutFirst '=' t).bind fun (name, attached) =>
      ((spellings flags).lookup name).map fun f => Word.flag f name (some attached)
    match exact, candidates flags t with
    | some word, _ => .ok word
    | none, [(name, f, attached)] => .ok (.flag f name attached)
    | none, [] =>
      if isNegativeNumber t || t.contains ' ' then .ok .argument else .ok .unknownFlag
    | none, several =>
      .error ("ambiguous option: " ++ t ++ " could match " ++
        Text.join ", " (several.map fun (name, _) => name))

/-- The words of a command line with what they are. -/
def classifyAll (flags : List Flag) : List Text → Except Text (List (Text × Word))
  | [] => .ok []
  | t :: rest =>
    if t = ['-', '-'] then .ok ((t, .terminator) :: rest.map fun t => (t, .argument))
    else do
      let word ← classify flags t
      return (t, word) :: (← classifyAll flags rest)

/-- The message about a text attached to an option that takes none. -/
def ignoredText (f : Flag) (attached : Text) : Text :=
  "argument " ++ f.label ++ ": ignored explicit argument " ++ attached.quoted

/-- Reads what is attached to an option as an argument, or as more options with short names. -/
def unbundle (flags : List Flag) (f : Flag) (name : Text) :
    Text → Except Text (List Flag × Option Text)
  | [] => .ok ([f], none)
  | c :: rest =>
    if f.effect = .value then .ok ([f], some (c :: rest))
    else
      let next := if Text.startsWith ['-', '-'] name then none
        else (spellings flags).lookup ['-', c]
      match next with
      | none => .error (ignoredText f (c :: rest))
      | some g => do
        let (fs, attached) ← unbundle flags g ['-', c] rest
        return (f :: fs, attached)

/-- The options that one word stands for, and the argument attached to the last one. -/
def flagsOfWord (flags : List Flag) (f : Flag) (name : Text) :
    Option Text → Except Text (List Flag × Option Text)
  | none => .ok ([f], none)
  | some [] => if f.effect = .value then .ok ([f], some []) else .error (ignoredText f [])
  | some attached => unbundle flags f name attached

end Scaffold.CommandLine
