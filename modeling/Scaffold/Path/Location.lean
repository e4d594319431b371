import Scaffold.Path.Basic

/-!
Locations: the chain of names from the root of the tree to a place in it, with no `..` left. A path
leads from a location to another one (`locate`), and `route` is a relative path that does so.
-/

namespace Scaffold

/-- A place in the tree of directories; the root is the empty list. -/
abbrev Location := List Name

namespace Location

/-- Where a step leads; above the root is the root itself. -/
def step (location : Location) : Path.Step → Location
  | .up => location.dropLast
  | .into name => location ++ [name]

/-- The absolute path of a location. -/
def toPath (location : Location) : Path :=
  ⟨.root, location.map .into⟩

def toText (location : Location) : Text :=
  location.toPath.toText

/-- The relative path from the first location to the second. -/
def route : Location → Location → Path
  | a :: here, b :: there =>
    if a = b then route here there
    else ⟨.relative, (a :: here).map (fun _ => .up) ++ (b :: there).map .into⟩
  | here, there => ⟨.relative, here.map (fun _ => .up) ++ there.map .into⟩

end Location

/-- Where a path leads from a location, each `..` undoing the name before it. -/
def Path.locate (p : Path) (cwd : Location) : Location :=
  p.steps.foldl Location.step (if p.isAbsolute then [] else cwd)

/-- Following a joined path is following one path after the other. -/
theorem Path.locate_join (p q : Path) (cwd : Location) :
    (p.join q).locate cwd = q.locate (p.locate cwd) := by
  unfold Path.join
  cases h : q.isAbsolute
  · simp only [h, Bool.false_eq_true, if_false, Path.locate, List.foldl_append]
    rfl
  · simp [Path.locate, h]

/-- The absolute path of a location leads there. -/
theorem Location.locate_toPath (location cwd : Location) :
    location.toPath.locate cwd = location := by
  have h (before : Location) :
      (location.map Path.Step.into).foldl Location.step before = before ++ location := by
    induction location generalizing before with
    | nil => simp
    | cons name rest ih => simp [Location.step, ih]
  simpa [Path.locate, Location.toPath, Path.isAbsolute] using h []

end Scaffold
