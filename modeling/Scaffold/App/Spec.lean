import Scaffold.Query
import Scaffold.Schema

/-!
What an app is generated from.
-/

namespace Scaffold

/-- An app: the module it holds, its schema, and the project it belongs to. -/
structure AppSpec where
  name : Text
  schema : Schema
  project : Text
  appUrlVariable : Text := "APP_URL"
  name_ne : name ≠ []
  project_ne : project ≠ []

namespace AppSpec

open Validation

/-- The app that a record describes, with a given schema. -/
def ofFields (fields : Entries Json) (schema : Schema) : Checked AppSpec := do
  let (name, project, appUrlVariable) ←
    (field fields "module_name" filledText none).and <|
    (field fields "project_name" filledText none).and <|
    field fields "app_url_env_var" text (some "APP_URL")
  return ⟨name, schema, project, appUrlVariable, name.ne_nil, project.ne_nil⟩

/-- The query for all fields of the app. -/
def query (spec : AppSpec) : Text :=
  Scaffold.query spec.name spec.schema.names

end AppSpec

end Scaffold
