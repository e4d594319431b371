import Scaffold.App.Name
import Scaffold.Disk.Basic
import Scaffold.Json.StringLiteral
import Scaffold.Schema
import Scaffold.Template.Render

/-!
Everything that can go wrong between a request and its result. Refusals are the errors that are
reported to the user.
-/

namespace Scaffold

/-- Why no project name can be read from a manifest. -/
inductive ManifestFault where
  | missing
  | malformed (fault : Json.Fault)
  | notObject
  | nameless
  deriving DecidableEq, Repr

def ManifestFault.message : ManifestFault → Text
  | missing => "file not found"
  | malformed fault => "invalid JSON (" ++ fault.message ++ ")"
  | notObject => "expected a JSON object"
  | nameless => "no 'name' field"

/-- Why a request is refused. -/
inductive Refusal where
  | malformedAttribute (token : RawText) (fault : Attribute.TokenFault)
  | duplicateAttribute (name : Text)
  | targetExists (path : Path)
  | manifest (path : Path) (fault : ManifestFault)
  | invalidName (name : Text) (fault : AppName.Fault)
  deriving DecidableEq

def Refusal.message : Refusal → RawText
  | malformedAttribute token fault =>
    ("Malformed attribute '" : RawText) ++ token ++ ("': " ++ fault.message : Text)
  | duplicateAttribute name => ("Duplicate attribute '" ++ name ++ "'" : Text)
  | targetExists path => ("Target already exists: " ++ path.toText : Text)
  | manifest path fault =>
    ("Cannot read project manifest " ++ path.toText ++ ": " ++ fault.message : Text)
  | invalidName name fault => ("Invalid app name '" ++ name ++ "': " ++ fault.message : Text)

inductive Failure where
  | refused (refusal : Refusal)
  /-- A record has problems. -/
  | invalid (problems : List Validation.Problem)
  | system (error : SystemError)
  | template (error : Template.RenderError)
  /-- A file is not UTF-8. -/
  | undecodable
  /-- A number in a file has more than `Text.digitLimit` digits. -/
  | numberTooLong
  /-- Arrays and objects in a file are nested too deeply. -/
  | tooDeep
  deriving DecidableEq

def Failure.message : Failure → RawText
  | refused refusal => refusal.message
  | invalid problems => Validation.messages problems
  | system error => error.message
  | template error => error.message
  | undecodable => "a file is not UTF-8"
  | numberTooLong => "a number has too many digits"
  | tooDeep => "values are nested too deeply"

/-- The failure of a request whose tokens make no schema. -/
def Failure.ofTokens : Schema.TokenError → Failure
  | .malformed token fault => .refused (.malformedAttribute token fault)
  | .duplicate name => .refused (.duplicateAttribute name)
  | .invalid problems => .invalid problems

end Scaffold
