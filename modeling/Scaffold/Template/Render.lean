import Scaffold.Json.Printer
import Scaffold.Template.Basic
import Scaffold.Text.Blank
import Scaffold.Text.Case

/-!
Filling in a template. The text that results has no blank at either end but the newline of its last
line.
-/

namespace Scaffold.Template

abbrev Context := Entries Json

/-- Why a template cannot be filled in. -/
inductive RenderError where
  | unknownTemplate (name : Text)
  /-- The context uses a name that templates keep for themselves. -/
  | reservedName
  | undefined (name : Text)
  /-- The entries of a value without entries are asked for. -/
  | notMapping (kind : Text)
  /-- A filter or a repetition cannot work on the value. -/
  | unsuitable
  /-- A whole number has more than `Text.digitLimit` digits. -/
  | numberTooLong
  /-- Lists and mappings are nested too deeply. -/
  | tooDeep
  deriving DecidableEq, Repr

def RenderError.message : RenderError → Text
  | unknownTemplate name => name
  | reservedName => "the name self is reserved"
  | undefined name => "'" ++ name ++ "' is undefined"
  | notMapping kind => "'" ++ kind ++ "' has no attribute 'items'"
  | unsuitable => "value not suitable"
  | numberTooLong => "number too long"
  | tooDeep => "value nested too deeply"

/-- What a value is, in messages. -/
def kind : Json → Text
  | .null => "None"
  | .bool _ => "bool object"
  | .number (.whole _) => "int object"
  | .number _ => "float object"
  | .string _ => "str object"
  | .array _ => "list object"
  | .object _ => "dict object"

/-- What a repetition runs through: the items of a list, the characters of a text, the keys of a
mapping. -/
def elements : Json → Except RenderError (List Json)
  | .array items => .ok items
  | .string t => .ok (t.map fun c => .string [c])
  | .object fields => .ok (fields.map fun (key, _) => .string key)
  | _ => .error .unsuitable

/-- The entries of a mapping. -/
def entries : Json → Except RenderError (List (Text × Json))
  | .object fields => .ok fields
  | value => .error (.notMapping (kind value))

/-- How deeply lists and mappings that are not empty may be nested to be written. -/
def depthLimit : Nat := 992

mutual

/-- The first obstacle to writing a value, if it may be nested so deep. -/
def obstacle? : Nat → Json → Option RenderError
  | _, .number (.whole n) => if Text.numberLimit ≤ n.natAbs then some .numberTooLong else none
  | 0, .array items => if items.isEmpty then none else some .tooDeep
  | depth + 1, .array items => obstacleInItems? depth items
  | 0, .object fields => if fields.isEmpty then none else some .tooDeep
  | depth + 1, .object fields => obstacleInFields? depth fields
  | _, _ => none

def obstacleInItems? (depth : Nat) : List Json → Option RenderError
  | [] => none
  | item :: rest => (obstacle? depth item).or (obstacleInItems? depth rest)

def obstacleInFields? (depth : Nat) : List (Text × Json) → Option RenderError
  | [] => none
  | (_, value) :: rest => (obstacle? depth value).or (obstacleInFields? depth rest)

end

/-- Writes a value with a printer, unless there is an obstacle. -/
def write (print : Json → Text) (value : Json) : Except RenderError Text :=
  match obstacle? depthLimit value with
  | some error => .error error
  | none => .ok (print value)

namespace Filter

/-- The text of a value. -/
def apply : Filter → Json → Except RenderError Text
  | plain, value => write Json.toText value
  | json, value => write Json.compact value
  | camelCase, .string t => .ok t.camelCase
  | camelCase, _ => .error .unsuitable
  | joined separator, value => do
    let items ← elements value
    return Text.join separator (← items.mapM (write Json.toText))

/-- The error where there is no value. -/
def missing (name : Text) : Filter → RenderError
  | plain | joined _ => .undefined name
  | json | camelCase => .unsuitable

end Filter

/-- The value of a variable. -/
def lookup (context : Context) (name : Text) : Except RenderError Json :=
  match context.get? name with
  | some value => .ok value
  | none => .error (.undefined name)

def Fragment.render (context : Context) : Fragment → Except RenderError Text
  | text t => .ok t
  | slot name filter =>
    match context.get? name with
    | some value => filter.apply value
    | none => .error (filter.missing name)

/-- The text of a line. -/
def renderLine (context : Context) (fragments : List Fragment) : Except RenderError Text := do
  return (← fragments.mapM (·.render context)).flatten ++ ['\n']

def ItemFragment.render (key value : Json) (last : Bool) :
    ItemFragment → Except RenderError Text
  | text t => .ok t
  | .key filter => filter.apply key
  | .value filter => filter.apply value
  | comma => .ok (if last then [] else [','])

/-- The text of a repeated line, once for each key and value. -/
def renderItems (fragments : List ItemFragment) : List (Json × Json) → Except RenderError Text
  | [] => .ok []
  | (key, value) :: rest => do
    let line ← fragments.mapM (·.render key value rest.isEmpty)
    return line.flatten ++ ['\n'] ++ (← renderItems fragments rest)

def Block.render (context : Context) : Block → Except RenderError Text
  | line fragments => renderLine context fragments
  | optional name fragments => do
    let value ← lookup context name
    if value.isFilled then renderLine context fragments else return []
  | each list fragments => do
    let items ← elements (← lookup context list)
    renderItems fragments (items.map fun item => (item, item))
  | eachEntry mapping fragments => do
    let entries ← entries (← lookup context mapping)
    renderItems fragments (entries.map fun (key, value) => (.string key, value))

/-- A text without blanks at its ends, and one newline after it. -/
def endWithNewline (t : Text) : Text :=
  t.strip ++ ['\n']

/-- The text of a template in a context. -/
def render (template : Template) (context : Context) : Except RenderError Text :=
  if context.keys.contains "self" then .error .reservedName
  else do
    return endWithNewline (← template.mapM (·.render context)).flatten

end Scaffold.Template
