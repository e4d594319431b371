import Scaffold.Config.Basic
import Scaffold.Disk.Create
import Scaffold.Disk.Text
import Scaffold.Failure
import Scaffold.Json.Printer
import Scaffold.Json.Reader

/-!
Configuration files: JSON with one field for each setting.
-/

namespace Scaffold.Config

open Validation (Checked Problem)

/-- The text of a string without lone surrogates. -/
def textOf (raw : RawText) : Except Json.Fault Text :=
  match raw.text? with
  | none => .error .loneSurrogate
  | some t => .ok t

/-- Configuration files hold no lone surrogate, and no value nested deeper than 200. -/
def dialect : Json.Dialect Text := ⟨textOf, true, 200⟩

/-- The text of a configuration file. -/
def toText (c : Config) : Text :=
  (Json.object c.toFields).pretty

/-- The configuration that the text of a file describes. -/
def ofText (t : Text) : Checked Config :=
  match Json.read dialect t with
  | .error _ => .error [.ofWhole .notJson]
  | .ok (.object fields) => ofFields fields
  | .ok _ => .error [.ofWhole .notObject]

/-- Writes a configuration to a file, with the directories above it that are missing. -/
def save (c : Config) (disk : Disk) (cwd : Location) (path : Path) :
    Disk × Except SystemError Unit :=
  match disk.makeDirectory cwd path.parent true with
  | (disk, .error e) => (disk, .error e)
  | (disk, .ok ()) =>
    match disk.overwrite cwd path (Disk.encode c.toText) with
    | .ok disk => (disk, .ok ())
    | .error e => (disk, .error e)

/-- Reads a configuration from a file. -/
def load (disk : Disk) (cwd : Location) (path : Path) : Except Failure Config := do
  let content ← (disk.read cwd path).mapError .system
  match Disk.decode? content with
  | none => .error .undecodable
  | some t => (ofText t).mapError .invalid

end Scaffold.Config
