import Scaffold.Manifest
import Scaffold.Store.Workspace

/-!
The requests: to carry out a plan, to create a project, and to create an app in a project. All
checks come before anything is created.
-/

namespace Scaffold

/-- What a request has created, and what to do next. -/
structure Report where
  root : Path
  directories : List Path
  files : List Path
  message : Text := []
  deriving DecidableEq

/-- What a plan creates when it is carried out. -/
def Plan.report (plan : Plan) : Report :=
  ⟨plan.root, plan.directoryPaths, plan.filePaths, []⟩

/-- The root of an app in a project. -/
def Config.appRoot (config : Config) (project : Path) (name : Text) : Except Failure Path :=
  match AppName.check name with
  | .ok () => .ok ((project.below config.appsDir).below name)
  | .error fault => .error (.refused (.invalidName name fault))

namespace Workspace

/-- Carries out a plan, unless its root exists. -/
def apply (w : Workspace) (plan : Plan) : Workspace × Except Failure Report :=
  match w.has plan.root with
  | .error failure => (w, .error failure)
  | .ok true => (w, .error (.refused (.targetExists plan.root)))
  | .ok false =>
    match w.performAll plan.writes with
    | (w, .ok ()) => (w, .ok plan.report)
    | (w, .error failure) => (w, .error failure)

/-- Carries out a plan and adds a message to the report. -/
def applyWithMessage (w : Workspace) (plan : Except Template.RenderError Plan)
    (message : Except Template.RenderError Text) : Workspace × Except Failure Report :=
  match plan with
  | .error e => (w, .error (.template e))
  | .ok plan =>
    match w.apply plan with
    | (w, .error failure) => (w, .error failure)
    | (w, .ok report) =>
      (w, (message.mapError .template).map fun message => { report with message })

/-- The path of a project as seen from a directory, the working directory if none is given. -/
def placeFrom (w : Workspace) (target : Path) (seenFrom : Option Path) : Path :=
  let here := match seenFrom with
    | some p => p.locate w.cwd
    | none => w.cwd
  Location.route here (target.locate w.cwd)

/-- Creates a project. -/
def newProject (w : Workspace) (config : Config) (spec : ProjectSpec) (seenFrom : Option Path) :
    Workspace × Except Failure Report :=
  w.applyWithMessage (Plan.ofProject config spec)
    (ProjectSpec.message (w.placeFrom spec.target seenFrom).toText)

/-- Creates an app in a project. -/
def newApp (w : Workspace) (config : Config) (spec : AppSpec) (project : Path) :
    Workspace × Except Failure Report :=
  match config.appRoot project spec.name with
  | .error failure => (w, .error failure)
  | .ok root => w.applyWithMessage (Plan.ofApp config spec root) (spec.message config)

/-- The app with a name and attributes given by tokens, in the project whose manifest is read. -/
def appSpec (w : Workspace) (config : Config) (name : Text) (tokens : List RawText)
    (project : Path) : Except Failure AppSpec :=
  match h : AppName.check name with
  | .error fault => .error (.refused (.invalidName name fault))
  | .ok () => do
    let schema ← (Schema.ofTokens tokens).mapError Failure.ofTokens
    let declared ← Manifest.readName w.disk w.cwd project config.manifestName
    let projectName ← (Validation.filledRawText (.string declared.val)).mapError fun fault =>
      .invalid [⟨"project_name", fault⟩]
    return ⟨name, schema, projectName, config.appUrlVariable, AppName.ne_nil_of_check h,
      projectName.ne_nil⟩

/-- Creates an app from its name and the tokens of its attributes. -/
def newAppFromTokens (w : Workspace) (config : Config) (name : Text) (tokens : List RawText)
    (project : Path) : Workspace × Except Failure Report :=
  match w.appSpec config name tokens project with
  | .error failure => (w, .error failure)
  | .ok spec => w.newApp config spec project

end Workspace

end Scaffold
