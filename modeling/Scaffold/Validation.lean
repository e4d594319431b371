import Scaffold.Json.Basic
import Scaffold.Text.Raw

/-!
Checking the fields of a record. All problems of a record are reported together, in the order of its
fields.
-/

namespace Scaffold.Validation

/-- What can be wrong with one value, or with a whole record. -/
inductive Fault where
  | required
  | notText
  /-- A surrogate stands alone in a string. -/
  | notUnicode
  | empty
  | notPath
  | notInteger
  | unreadableInteger
  | fractional
  | notFinite
  /-- An integer has more digits than are read, or a decimal is beyond 64 bits. -/
  | oversized
  | tooSmall (least : Nat)
  | tooLarge (greatest : Nat)
  | duplicateAttribute (name : Text)
  | notObject
  | notJson
  deriving DecidableEq, Repr

def Fault.message : Fault → Text
  | required => "Field required"
  | notText => "Input should be a valid string"
  | notUnicode => "Input should be a valid string, unable to parse raw data as a unicode string"
  | empty => "String should have at least 1 character"
  | notPath => "Input is not a valid path for <class 'pathlib.Path'>"
  | notInteger => "Input should be a valid integer"
  | unreadableInteger => "Input should be a valid integer, unable to parse string as an integer"
  | fractional => "Input should be a valid integer, got a number with a fractional part"
  | notFinite => "Input should be a finite number"
  | oversized => "Unable to parse input string as an integer, exceeded maximum size"
  | tooSmall least => "Input should be greater than or equal to " ++ Text.ofNat least
  | tooLarge greatest => "Input should be less than or equal to " ++ Text.ofNat greatest
  | duplicateAttribute name => "Value error, duplicate attribute name: " ++ name
  | notObject => "Input should be an object"
  | notJson => "Invalid JSON"

/-- A fault and the field it was found in; the whole record has the empty name. -/
structure Problem where
  field : Text
  fault : Fault
  deriving DecidableEq, Repr

/-- A problem of the record as a whole. -/
def Problem.ofWhole (fault : Fault) : Problem := ⟨[], fault⟩

def Problem.message (problem : Problem) : Text :=
  problem.field ++ ": " ++ problem.fault.message

/-- The messages of several problems in one line. -/
def messages (problems : List Problem) : Text :=
  Text.join "; " (problems.map Problem.message)

/-- A checked value, or everything that is wrong with it. -/
abbrev Checked (α : Type _) := Except (List Problem) α

variable {α β : Type _} {σ : Type}

/-- Two checked values together, with the problems of both. -/
def Checked.and : Checked α → Checked β → Checked (α × β)
  | .ok a, .ok b => .ok (a, b)
  | .ok _, .error problems => .error problems
  | .error problems, .ok _ => .error problems
  | .error problems, .error others => .error (problems ++ others)

/-- The field of a record under a name, which may be left out if it has a default. -/
def field (fields : Entries (Json σ)) (name : Text) (check : Json σ → Except Fault α)
    (default? : Option α) : Checked α :=
  match fields.get? name with
  | some value => (check value).mapError fun fault => [⟨name, fault⟩]
  | none =>
    match default? with
    | some value => .ok value
    | none => .error [⟨name, .required⟩]

def text : Json σ → Except Fault σ
  | .string t => .ok t
  | _ => .error .notText

/-- A text with at least one character, from strings that `text?` makes texts of. -/
def filled (text? : σ → Option Text) (value : Json σ) : Except Fault Text.Filled := do
  match text? (← text value) with
  | none => .error .notUnicode
  | some t => if h : t = [] then .error .empty else .ok ⟨t, h⟩

def filledText : Json → Except Fault Text.Filled :=
  filled some

def filledRawText : Json RawText → Except Fault Text.Filled :=
  filled RawText.text?

theorem filledRawText_raw (t : Text.Filled) : filledRawText (.string t.val.raw) = .ok t := by
  change filled RawText.text? (.string t.val.raw) = _
  simp only [filled, text, bind, Except.bind, RawText.text?_raw, dif_neg t.ne_nil]

theorem filledRawText_of_none {t : RawText} (h : t.text? = none) :
    filledRawText (.string t) = .error .notUnicode := by
  change filled RawText.text? (.string t) = _
  simp only [filled, text, bind, Except.bind, h]

end Scaffold.Validation
