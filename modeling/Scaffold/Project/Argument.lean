import Scaffold.Failure
import Scaffold.Project.Spec

/-!
The project that is meant by a path as it is typed.
-/

namespace Scaffold.ProjectSpec

/-- The project at the place that a path leads to from a directory given by an absolute path. Both
are texts, in which no surrogate stands alone. -/
def ofArgument (argument : Text) (cwd : Path) : Except Failure ProjectSpec := do
  let location ← (Disk.resolve (cwd.below argument) []).mapError .system
  (ofLocation location).mapError .invalid

end Scaffold.ProjectSpec
