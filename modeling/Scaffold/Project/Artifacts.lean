import Scaffold.Config.Basic
import Scaffold.Project.Spec
import Scaffold.Template.Library
import Scaffold.Template.Render

/-!
The files of a project and the message shown after its creation.
-/

namespace Scaffold.ProjectSpec

open Template (RenderError)

/-- The commands that the manifest gives names to. -/
def scripts : Entries Text :=
  [("node", "NODE_PATH=$NODE_PATH:./lib node -r dotenv/config -r babel-core/register"),
    ("start", "concurrently 'npm run node .' 'mongod'")]

def babelPresets : List Text := ["es2015", "stage-3"]

def babelPlugins : List Text := ["transform-runtime"]

/-- The packages that the generated code depends on, with their versions. -/
def dependencies : Entries Text :=
  [("babel", "^6.5.2"), ("babel-core", "^6.13.0"), ("babel-plugin-transform-runtime", "^6.12.0"),
    ("babel-preset-es2015", "^6.13.0"), ("babel-preset-stage-3", "^6.11.0"),
    ("babelify", "^7.3.0"), ("concurrently", "^2.1.0"), ("dotenv", "^2.0.0"),
    ("envify", "^3.4.0"), ("graphql", "^0.7.0"), ("hotglue", "0.0.2"), ("joiql-mongo", "^1.0.7"),
    ("koa", "^2.0.0-alpha.4"), ("lokka", "^1.7.0"), ("lokka-transport-http", "^1.4.0"),
    ("react", "^15.3.1"), ("react-dom", "^15.3.1"), ("unikoa", "0.0.1"),
    ("unikoa-bootstrap", "0.0.2"), ("unikoa-react-render", "0.0.3"), ("universal-tree", "0.0.2"),
    ("veact", "0.0.5")]

/-- The app and the attributes that comments and messages use as an example. -/
def exampleApp : Text := "article"

def exampleAttributes : List Text := ["title:string", "body:string"]

def manifest (spec : ProjectSpec) : Except RenderError Text :=
  Template.manifest.render
    [("project_name", .string spec.name), ("scripts", .textFields scripts),
      ("babel_presets", .texts babelPresets), ("babel_plugins", .texts babelPlugins),
      ("dependencies", .textFields dependencies)]

def environmentFile (config : Config) (spec : ProjectSpec) : Except RenderError Text :=
  Template.environmentFile.render [("env", .textFields (config.environment spec.name))]

def index (config : Config) (_ : ProjectSpec) : Except RenderError Text :=
  Template.projectIndex.render
    [("example_app", .string exampleApp), ("apps_dir", .string config.appsDir)]

/-- What to do once a project was created at a place. -/
def message (place : Text) : Except RenderError Text :=
  Template.projectMessage.render
    [("location", .string place), ("example_app", .string exampleApp),
      ("example_attributes", .texts exampleAttributes)]

end Scaffold.ProjectSpec
