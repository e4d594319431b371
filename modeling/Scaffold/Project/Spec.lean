import Scaffold.Path.Location
import Scaffold.Validation

/-!
What a project is generated from: its name and the directory that is created for it.
-/

namespace Scaffold

structure ProjectSpec where
  name : Text
  target : Path
  name_ne : name ≠ []

namespace ProjectSpec

open Validation

def path : Json → Except Fault Path
  | .string t => .ok (.ofText t)
  | _ => .error .notPath

/-- The project that a record describes. -/
def ofFields (fields : Entries Json) : Checked ProjectSpec := do
  let (name, target) ←
    (field fields "project_name" filledText none).and (field fields "target_dir" path none)
  return ⟨name, target, name.ne_nil⟩

/-- The project at a location, which gives it its name; there is none at the root. -/
def ofLocation (location : Location) : Checked ProjectSpec :=
  match location.getLast? with
  | some name => .ok ⟨name.val, location.toPath, name.property.1⟩
  | none => .error [⟨"project_name", .empty⟩]

end ProjectSpec

end Scaffold
