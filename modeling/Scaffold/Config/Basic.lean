import Scaffold.Config.Port

/-!
The configuration of generated projects. Of the variables in a project's environment file, one with
the name of an earlier one takes that one's place.
-/

namespace Scaffold

/-- The values that generated projects are made with. -/
structure Config where
  nodeEnv : Text := "development"
  appUrl : Text := "http://localhost:3000"
  port : Port := ⟨3000, by decide, by decide⟩
  mongoUrlBase : Text := "mongodb://localhost:27017"
  /-- The variable from which generated controllers read the base URL. -/
  appUrlVariable : Text := "APP_URL"
  appsDir : Text := "apps"
  libDir : Text := "lib"
  manifestName : Text := "package.json"
  deriving DecidableEq

namespace Config

open Validation

/-- The configuration without any setting. -/
def default : Config := {}

/-- The configuration that a record describes; what it leaves out has its default. -/
def ofFields (fields : Entries Json) : Checked Config := do
  let entry (name : Text) (default : Text) := field fields name text (some default)
  let (nodeEnv, appUrl, port, mongoUrlBase, appUrlVariable, appsDir, libDir, manifestName) ←
    (entry "node_env" default.nodeEnv).and <| (entry "app_url" default.appUrl).and <|
    (field fields "port" Port.ofJson (some default.port)).and <|
    (entry "mongo_url_base" default.mongoUrlBase).and <|
    (entry "app_url_env_var" default.appUrlVariable).and <|
    (entry "apps_dir" default.appsDir).and <| (entry "lib_dir" default.libDir).and <|
    entry "manifest_name" default.manifestName
  return { nodeEnv, appUrl, port, mongoUrlBase, appUrlVariable, appsDir, libDir, manifestName }

/-- The record of a configuration. -/
def toFields (c : Config) : Entries Json :=
  [("node_env", .string c.nodeEnv), ("app_url", .string c.appUrl), ("port", .int c.port.number),
    ("mongo_url_base", .string c.mongoUrlBase), ("app_url_env_var", .string c.appUrlVariable),
    ("apps_dir", .string c.appsDir), ("lib_dir", .string c.libDir),
    ("manifest_name", .string c.manifestName)]

/-- The database URL of a project. -/
def mongoUrl (c : Config) (project : Text) : Text :=
  Text.trimEnd (· = '/') c.mongoUrlBase ++ "/" ++ project

/-- The variables of a project's environment file. -/
def environment (c : Config) (project : Text) : Entries Text :=
  .ofPairs [("NODE_ENV", c.nodeEnv), (c.appUrlVariable, c.appUrl),
    ("PORT", Text.ofNat c.port.number), ("MONGO_URL", c.mongoUrl project)]

end Config

end Scaffold
