import Scaffold.Config.Basic

/-!
Configuration from environment variables. An empty variable counts as one that is not set.
-/

namespace Scaffold.Config

/-- Why environment variables describe no configuration. -/
inductive EnvironmentError where
  | portNotInteger (raw : Text)
  | invalid (problems : List Validation.Problem)
  deriving DecidableEq, Repr

def EnvironmentError.message : EnvironmentError → Text
  | portNotInteger raw => "MURAL_PORT must be an integer, got '" ++ raw ++ "'"
  | invalid problems =>
    "Invalid configuration from environment: " ++ Validation.messages problems

/-- The variables that have a meaning. -/
def settingNames : List Text :=
  ["MURAL_NODE_ENV", "MURAL_APP_URL", "MURAL_PORT", "MURAL_MONGO_URL_BASE"]

/-- The value of a variable that is set and not empty. -/
def setting? (environment : Entries Text) (key : Text) : Option Text :=
  (environment.get? key).filter (· ≠ [])

/-- A record field for a setting, if there is one. -/
def settingField (environment : Entries Text) (key name : Text) : Entries Json :=
  match setting? environment key with
  | some value => [(name, .string value)]
  | none => []

/-- The record field for the port, which must be written as a whole number. -/
def portField (environment : Entries Text) : Except EnvironmentError (Entries Json) :=
  match setting? environment "MURAL_PORT" with
  | none => .ok []
  | some raw =>
    match raw.int? with
    | some n => .ok [("port", .int n)]
    | none => .error (.portNotInteger raw)

/-- The configuration that environment variables describe. -/
def ofEnvironment (environment : Entries Text) : Except EnvironmentError Config := do
  let port ← portField environment
  let fields := settingField environment "MURAL_NODE_ENV" "node_env" ++
    settingField environment "MURAL_APP_URL" "app_url" ++ port ++
    settingField environment "MURAL_MONGO_URL_BASE" "mongo_url_base"
  (ofFields fields).mapError .invalid

end Scaffold.Config
