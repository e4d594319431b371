import Scaffold.Disk.Create
import Scaffold.Disk.Text
import Scaffold.Store.Memory

/-!
Where a scaffolder works: a disk, the directory it works in, and the store that it creates things
in. Nothing is ever overwritten; when something fails, what was created before stays.
-/

namespace Scaffold

/-- What created things are put in. -/
inductive Store where
  | memory (m : Memory)
  /-- The disk; relative paths are seen from a base directory. -/
  | disk (base : Path)
  deriving DecidableEq

structure Workspace where
  disk : Disk
  cwd : Location
  store : Store

namespace Workspace

/-- Whether the store has something at a path. -/
def has (w : Workspace) (p : Path) : Except Failure Bool :=
  match w.store with
  | .memory m => .ok (m.has p)
  | .disk base => (w.disk.present w.cwd (base.join p)).mapError .system

/-- The failure of creating something on the disk. -/
def refusalOf (p : Path) : SystemError → Failure
  | .exists => .refused (.targetExists p)
  | e => .system e

/-- Creates one thing in the store. The content of a file is a text, so that it can be encoded. -/
def perform (w : Workspace) (x : Plan.Write) : Workspace × Except Failure Unit :=
  match w.store with
  | .memory m =>
    match m.perform x with
    | .ok m => ({ w with store := .memory m }, .ok ())
    | .error refusal => (w, .error (.refused refusal))
  | .disk base =>
    let p := base.join x.path
    match x with
    | .directory _ =>
      let (disk, result) := w.disk.makeDirectory w.cwd p false
      ({ w with disk }, result.mapError (refusalOf p))
    | .file _ content =>
      match w.disk.create w.cwd p (.file (Disk.encode content)) with
      | .ok disk => ({ w with disk }, .ok ())
      | .error e => (w, .error (refusalOf p e))

/-- Creates one thing after the other, up to the first that fails. -/
def performAll (w : Workspace) : List Plan.Write → Workspace × Except Failure Unit
  | [] => (w, .ok ())
  | x :: rest =>
    match w.perform x with
    | (w, .ok ()) => w.performAll rest
    | (w, .error failure) => (w, .error failure)

end Workspace

end Scaffold
