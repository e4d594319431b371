import Scaffold.Text.Blank
import Scaffold.Text.Case

/-!
Names of apps. An app is a single directory, so its name must be one component of a path.
-/

namespace Scaffold

namespace AppName

/-- Letters and digits of ASCII, the underscore and the hyphen. -/
def isSafe (c : Char) : Bool :=
  c.isAlphanum || c = '_' || c = '-'

/-- The lower-case name with one hyphen for each run of other characters, and none at the ends. -/
def sanitize (t : Text) : Text :=
  let hyphenated := t.strip.lower.map fun c => if isSafe c then c else '-'
  Text.join "-" ((Text.cut (· = '-') hyphenated).filter (· ≠ []))

/-- What keeps a text from being the name of an app. -/
inductive Fault where
  | empty
  /-- The name is no single component; the text is a name to use in its place, or empty. -/
  | notSingle (suggestion : Text)
  deriving DecidableEq, Repr

def Fault.message : Fault → Text
  | empty => "name is empty"
  | notSingle [] => "must be a single directory name"
  | notSingle suggestion => "must be a single directory name (try '" ++ suggestion ++ "')"

/-- Accepts a name that is not blank and would be a single directory on any system. -/
def check (t : Text) : Except Fault Unit :=
  if t.blank then .error .empty
  else if t = ['.'] ∨ t = ['.', '.'] ∨ '/' ∈ t ∨ '\\' ∈ t then .error (.notSingle (sanitize t))
  else .ok ()

theorem ne_nil_of_check {t : Text} (h : check t = .ok ()) : t ≠ [] := by
  rintro rfl
  cases h

end AppName

end Scaffold
