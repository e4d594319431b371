import Scaffold.App.Artifacts
import Scaffold.Project.Artifacts

/-!
Plans: everything that one run creates, with the files' contents, before anything is written.
-/

namespace Scaffold

structure PlannedFile where
  path : Text
  content : Text
  deriving DecidableEq

/-- Directories and files are given as seen from the root. -/
structure Plan where
  root : Path
  directories : List Text
  files : List PlannedFile
  deriving DecidableEq

namespace Plan

open Template (RenderError)

/-- The first planned file with a path. -/
def file? (plan : Plan) (path : Text) : Option PlannedFile :=
  plan.files.find? (·.path = path)

/-- The plan of a project: its manifest, environment file and entry point. -/
def ofProject (config : Config) (spec : ProjectSpec) : Except RenderError Plan := do
  let files := [⟨"package.json", ← spec.manifest⟩, ⟨".env", ← spec.environmentFile config⟩,
    ⟨"index.js", ← spec.index config⟩]
  return ⟨spec.target, [config.appsDir, config.libDir], files⟩

/-- The plan of an app at a root. -/
def ofApp (config : Config) (spec : AppSpec) (root : Path) : Except RenderError Plan := do
  let files := [⟨"models/index.js", ← spec.model⟩, ⟨"controllers/index.js", ← spec.controller⟩,
    ⟨"views/index.js", ← spec.view⟩, ⟨"views/head.js", ← spec.head⟩,
    ⟨"router.js", ← spec.router⟩, ⟨"client.js", ← spec.client⟩, ⟨"server.js", ← spec.server⟩,
    ⟨"index.js", ← spec.index config⟩]
  return ⟨root, ["controllers", "models", "views"], files⟩

/-- One thing to be created. -/
inductive Write where
  | directory (path : Path)
  | file (path : Path) (content : Text)
  deriving DecidableEq

def Write.path : Write → Path
  | directory path => path
  | file path _ => path

/-- Where the directories of a plan are created, the root first. -/
def directoryPaths (plan : Plan) : List Path :=
  plan.root :: plan.directories.map plan.root.below

/-- Where the files of a plan are created. -/
def filePaths (plan : Plan) : List Path :=
  plan.files.map fun file => plan.root.below file.path

/-- What a plan creates, in order: the root, the directories in it, and the files. -/
def writes (plan : Plan) : List Write :=
  plan.directoryPaths.map .directory ++
    plan.files.map fun file => .file (plan.root.below file.path) file.content

end Plan

end Scaffold
