import Scaffold.App.Spec
import Scaffold.Config.Basic
import Scaffold.Template.Library
import Scaffold.Template.Render

/-!
The files of an app and the message shown after its creation. Controller, model and view agree on
the names of the fields because all three are filled in from one context.
-/

namespace Scaffold.AppSpec

open Template (Context RenderError)

/-- The values that the templates of an app's files are filled in with. -/
def context (spec : AppSpec) : Context :=
  [("module_name", .string spec.name), ("project_name", .string spec.project),
    ("app_url_env_var", .string spec.appUrlVariable), ("query", .string spec.query),
    ("field_names", .texts spec.schema.names),
    ("field_declarations", .string spec.schema.declarations),
    ("imported_types", .texts spec.schema.importedTypes),
    ("model_imports", .texts ("model" :: spec.schema.importedTypes)),
    ("view_body", .string (viewBody spec.name spec.schema.names))]

/-- The files whose change restarts the server. -/
def serverWatch : List Text :=
  ["views/**/*", "controllers/**/*", "models/**/*", "router.js", "server.js"]

/-- The files whose change rebuilds the part that runs in the browser. -/
def clientWatch : List Text :=
  ["views/**/*", "controllers/**/*", "router.js", "client.js"]

def controller (spec : AppSpec) : Except RenderError Text :=
  Template.controller.render spec.context

def model (spec : AppSpec) : Except RenderError Text :=
  Template.model.render spec.context

def view (spec : AppSpec) : Except RenderError Text :=
  Template.view.render spec.context

def head (_ : AppSpec) : Except RenderError Text :=
  Template.head.render []

def router (spec : AppSpec) : Except RenderError Text :=
  Template.router.render spec.context

def client (_ : AppSpec) : Except RenderError Text :=
  Template.client.render []

def server (spec : AppSpec) : Except RenderError Text :=
  Template.server.render spec.context

/-- The values that only the file that starts an app needs. -/
def indexContext (config : Config) (spec : AppSpec) : Context :=
  [("server_watch", .texts serverWatch), ("client_watch", .texts clientWatch),
    ("mongo_url", .string (config.mongoUrl spec.project))]

def index (config : Config) (spec : AppSpec) : Except RenderError Text :=
  Template.appIndex.render (spec.context ++ indexContext config spec)

/-- What to do once the app was created. -/
def message (config : Config) (spec : AppSpec) : Except RenderError Text :=
  Template.appMessage.render
    [("module_name", .string spec.name), ("apps_dir", .string config.appsDir)]

end Scaffold.AppSpec
