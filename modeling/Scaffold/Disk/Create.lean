import Scaffold.Disk.Basic

/-!
Creating directories and files. A new entry needs a directory to stand in, and a place that is free;
missing directories above a new directory are created with it.
-/

namespace Scaffold.Disk

/-- The directory and the name that a path has for a new entry. Without a name at its end the path
leads to a directory that is there already. -/
def slot (d : Disk) (cwd : Location) (p : Path) : Except SystemError (Location × Name) := do
  checkPath p
  let parent ← d.follow (startOf p cwd) p.steps.dropLast
  if d.lookup parent = some .directory then
    match p.steps.getLast? with
    | some (.into name) => do
      checkName name
      return (parent, name)
    | _ => .error .exists
  else .error .notDirectory

/-- Creates an entry that is not there yet. -/
def create (d : Disk) (cwd : Location) (p : Path) (entry : Entry) : Except SystemError Disk := do
  let (parent, name) ← d.slot cwd p
  if h : d.lookup parent = some .directory ∧ d.lookup (parent ++ [name]) = none then
    return d.put parent name entry h.1 (by simp [h.2])
  else .error .exists

/-- Creates a file, or replaces the content of one that is there. -/
def overwrite (d : Disk) (cwd : Location) (p : Path) (content : ByteArray) :
    Except SystemError Disk := do
  match d.slot cwd p with
  | .ok (parent, name) =>
    if h : d.lookup parent = some .directory ∧ d.lookup (parent ++ [name]) ≠ some .directory then
      return d.put parent name (.file content) h.1 h.2
    else .error .isDirectory
  | .error .exists => .error .isDirectory
  | .error e => .error e

/-- An error is overlooked where a directory may be there already and is. -/
def unlessDirectory (d : Disk) (cwd : Location) (p : Path) (mayExist : Bool) (e : SystemError) :
    Except SystemError Unit :=
  match mayExist, d.isDirectory cwd p with
  | true, .ok true => .ok ()
  | _, _ => .error e

/--
Creates the directory of a path whose steps are given from the last to the first. Where a directory
above it is missing, that one is created first, and what was created stays when the rest fails.
-/
def makeDirectoryBack (cwd : Location) (anchor : Path.Anchor) (mayExist : Bool) (d : Disk) :
    List Path.Step → Disk × Except SystemError Unit
  | [] => (d, d.unlessDirectory cwd ⟨anchor, []⟩ mayExist .exists)
  | last :: above =>
    let p : Path := ⟨anchor, (last :: above).reverse⟩
    match d.create cwd p .directory with
    | .ok d => (d, .ok ())
    | .error .noEntry =>
      match makeDirectoryBack cwd anchor true d above with
      | (d, .error e) => (d, .error e)
      | (d, .ok ()) =>
        match d.create cwd p .directory with
        | .ok d => (d, .ok ())
        | .error .noEntry => (d, .error .noEntry)
        | .error e => (d, d.unlessDirectory cwd p mayExist e)
    | .error e => (d, d.unlessDirectory cwd p mayExist e)

/-- Creates a directory and the missing ones above it; it may be there already or not. -/
def makeDirectory (d : Disk) (cwd : Location) (p : Path) (mayExist : Bool) :
    Disk × Except SystemError Unit :=
  makeDirectoryBack cwd p.anchor mayExist d p.steps.reverse

/-- Where two disks differ, with what the second one has there. -/
def changes (before after : Disk) : List (Location × Entry) :=
  (after.entries.map Prod.fst).eraseDups.filterMap fun location =>
    match after.lookup location with
    | some entry => if before.lookup location = some entry then none else some (location, entry)
    | none => none

end Scaffold.Disk
