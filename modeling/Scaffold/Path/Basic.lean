import Scaffold.Text.Basic

/-!
Paths as they are written, and how they are joined and taken apart. Empty components, `.` and a
slash at the end mean nothing; `..` is kept. Two slashes at the front differ from one and from
three.
-/

namespace Scaffold

/-- A text names an entry of a directory unless it is empty, has a slash, or is `.` or `..`. -/
def IsName (t : Text) : Prop :=
  t ≠ [] ∧ '/' ∉ t ∧ t ≠ ['.'] ∧ t ≠ ['.', '.']

instance : DecidablePred IsName := fun _ => inferInstanceAs (Decidable (_ ∧ _))

/-- The name of an entry of a directory. -/
abbrev Name := { t : Text // IsName t }

namespace Path

/-- Where a path starts. -/
inductive Anchor where
  | relative
  | root
  | doubleRoot
  deriving DecidableEq, Repr

def Anchor.toText : Anchor → Text
  | relative => ""
  | root => "/"
  | doubleRoot => "//"

/-- A component of a path. -/
inductive Step where
  | up
  | into (name : Name)
  deriving DecidableEq

def Step.toText : Step → Text
  | up => ".."
  | into name => name.val

/-- The step that a text between slashes stands for, if any. -/
def Step.ofText? (t : Text) : Option Step :=
  if t = ['.', '.'] then some .up
  else if h : IsName t then some (.into ⟨t, h⟩)
  else none

end Path

structure Path where
  anchor : Path.Anchor
  steps : List Path.Step
  deriving DecidableEq

namespace Path

def anchorOf : Text → Anchor
  | '/' :: '/' :: '/' :: _ => .root
  | '/' :: '/' :: _ => .doubleRoot
  | '/' :: _ => .root
  | _ => .relative

/-- The path that a text spells. -/
def ofText (t : Text) : Path :=
  ⟨anchorOf t, (Text.cut (· = '/') t).filterMap Step.ofText?⟩

/-- The text of a path; the empty path is `.`. -/
def toText (p : Path) : Text :=
  if p.anchor = .relative ∧ p.steps = [] then "."
  else p.anchor.toText ++ Text.join "/" (p.steps.map Step.toText)

def isAbsolute (p : Path) : Bool :=
  p.anchor ≠ .relative

/-- The second path as seen from the first; an absolute one stays what it is. -/
def join (p q : Path) : Path :=
  if q.isAbsolute then q else ⟨p.anchor, p.steps ++ q.steps⟩

/-- The path that a text spells, as seen from another path. -/
def below (p : Path) (t : Text) : Path :=
  p.join (ofText t)

/-- The last component, or nothing where there is none. -/
def name (p : Path) : Text :=
  (p.steps.getLast?.map Step.toText).getD []

/-- The path without its last component. -/
def parent (p : Path) : Path :=
  ⟨p.anchor, p.steps.dropLast⟩

/-- What follows another path in this one. -/
def relativeTo? (p start : Path) : Option Path :=
  if p.anchor = start.anchor ∧ start.steps <+: p.steps then
    some ⟨.relative, p.steps.drop start.steps.length⟩
  else none

end Path

end Scaffold
