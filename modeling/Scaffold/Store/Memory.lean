import Scaffold.Failure
import Scaffold.Plan

/-!
A store that only remembers what was created in it. Paths are compared as they are written, and
directories above a path need not exist.
-/

namespace Scaffold

structure Memory where
  /-- What was there before. -/
  existing : List Path := []
  /-- The created directories, the earliest first. -/
  directories : List Path := []
  /-- The created files with their contents, the earliest first. -/
  files : List (Path × Text) := []
  deriving DecidableEq

namespace Memory

def has (m : Memory) (p : Path) : Bool :=
  p ∈ m.existing || p ∈ m.directories || p ∈ m.files.map Prod.fst

/-- Creates something, unless its path is taken. -/
def perform (m : Memory) (w : Plan.Write) : Except Refusal Memory :=
  if m.has w.path then .error (.targetExists w.path)
  else match w with
    | .directory p => .ok { m with directories := m.directories ++ [p] }
    | .file p content => .ok { m with files := m.files ++ [(p, content)] }

end Memory

end Scaffold
