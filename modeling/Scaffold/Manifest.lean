import Scaffold.Disk.Text
import Scaffold.Failure
import Scaffold.Json.Reader

/-!
The manifest of a project, from which apps take the project's name.
-/

namespace Scaffold.Manifest

/-- Manifests may hold lone surrogates, decimals of any length, and values nested 990 deep. -/
def dialect : Json.Dialect RawText := ⟨.ok, false, 990⟩

/-- The name in the text of a manifest, without blanks at its ends. -/
def nameOf (t : Text) : Except Json.ReadError (Except ManifestFault RawText.Filled) := do
  match ← Json.read dialect t with
  | .object fields =>
    match Entries.get? fields (Text.raw "name") with
    | some (.string name) =>
      if h : name.strip = [] then return .error .nameless else return .ok ⟨name.strip, h⟩
    | _ => return .error .nameless
  | _ => return .error .notObject

/-- Reads the name of the project in a directory from the file with a given name. -/
def readName (disk : Disk) (cwd : Location) (directory : Path) (file : Text) :
    Except Failure RawText.Filled := do
  let path := directory.below file
  let refuse (fault : ManifestFault) : Except Failure RawText.Filled :=
    .error (.refused (.manifest path fault))
  if ← (disk.isFile cwd path).mapError .system then
    let content ← (disk.read cwd path).mapError .system
    match Disk.decode? content with
    | none => .error .undecodable
    | some t =>
      match nameOf t with
      | .ok (.ok name) => return name
      | .ok (.error fault) => refuse fault
      | .error (.malformed fault) => refuse (.malformed fault)
      | .error .numberTooLong => .error .numberTooLong
      | .error .tooDeep => .error .tooDeep
  else refuse .missing

end Scaffold.Manifest
