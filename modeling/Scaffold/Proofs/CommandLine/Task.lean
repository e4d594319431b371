import Scaffold.CommandLine.Run
import Scaffold.Proofs.Config.Environment
import Scaffold.Proofs.Plan.Layout
import Scaffold.Proofs.Project.Location

namespace Scaffold

open Outcome

/-- The root of a run, and the plan with the message of the report, unless there is none. -/
structure Task where
  root : Path
  work : Except Failure (Plan × Except Template.RenderError Text)

def Workspace.carryOut (w : Workspace) (task : Task) : Workspace × Except Failure Report :=
  match task.work with
  | .error failure => (w, .error failure)
  | .ok (plan, message) => w.applyWithMessage (.ok plan) message

/-- The task of creating a project, as seen from a directory. -/
def ProjectSpec.task (spec : ProjectSpec) (config : Config) (cwd : Location) : Task where
  root := spec.target
  work := do
    let plan ← (Plan.ofProject config spec).mapError .template
    return (plan, message (Location.route cwd (spec.target.locate cwd)).toText)

def AppSpec.task (config : Config) (name : Text) (tokens : List RawText) (disk : Disk)
    (cwd : Location) (project : Path) : Task where
  root := (project.below config.appsDir).below name
  work := do
    let spec ← Workspace.appSpec ⟨disk, cwd, .disk cwd.toPath⟩ config name tokens project
    let root ← config.appRoot project spec.name
    let plan ← (Plan.ofApp config spec root).mapError .template
    return (plan, spec.message config)

/-- The task of a request; there is none for a run that never starts. -/
def CommandLine.Request.task (config : Config) (disk : Disk) (cwd : Location) :
    Request → Except Abort Task
  | .newProject argument => do
    let spec ← (ProjectSpec.ofArgument argument cwd.toPath).mapError .failed
    return spec.task config cwd
  | .newApp _ _ none => .error .noDirectory
  | .newApp name tokens (some directory) => do
    let location ← (Disk.resolve (.ofText directory) cwd).mapError fun e => .failed (.system e)
    return AppSpec.task config name (tokens.map Text.raw) disk cwd location.toPath

namespace Workspace

variable {config : Config} {name : Text} {tokens : List RawText} {project : Path}

theorem newProject_eq (w : Workspace) (config : Config) (spec : ProjectSpec) :
    w.newProject config spec none = w.carryOut (spec.task config w.cwd) := by
  unfold newProject carryOut ProjectSpec.task placeFrom
  cases Plan.ofProject config spec <;> rfl

theorem newAppFromTokens_eq (w : Workspace) : w.newAppFromTokens config name tokens project =
    w.carryOut (AppSpec.task config name tokens w.disk w.cwd project) := by
  have hspec : Workspace.appSpec ⟨w.disk, w.cwd, .disk w.cwd.toPath⟩ config name tokens project =
      w.appSpec config name tokens project := rfl
  unfold newAppFromTokens carryOut AppSpec.task
  rw [hspec]
  cases w.appSpec config name tokens project with
  | error failure => rfl
  | ok spec =>
    simp only [newApp, bind, Except.bind]
    cases config.appRoot project spec.name with
    | error failure => rfl
    | ok root =>
      simp only
      cases Plan.ofApp config spec root <;> rfl

end Workspace

namespace CommandLine

variable {config : Config} {disk : Disk} {cwd : Location} {dryRun : Bool} {w : Workspace}

theorem workspaceFor_eq_ok {root : Path} (h : workspaceFor dryRun disk cwd root = .ok w) :
    w.disk = disk ∧ w.cwd = cwd := by
  rw [workspaceFor] at h
  split at h
  · obtain ⟨present, -, h⟩ := bind_eq_ok.1 h
    cases h
    exact ⟨rfl, rfl⟩
  · cases h
    exact ⟨rfl, rfl⟩

/-- A run carries out the task of its request in the place where it works. -/
theorem scaffold_eq (config : Config) (request : Request) (dryRun : Bool) (disk : Disk)
    (cwd : Location) :
    scaffold config ⟨request, dryRun⟩ disk cwd = do
      let task ← request.task config disk cwd
      let w ← (workspaceFor dryRun disk cwd task.root).mapError .failed
      return w.carryOut task := by
  have hlast {root : Path} {f g : Workspace → Workspace × Except Failure Report}
      (hfg : ∀ w, w.disk = disk → w.cwd = cwd → f w = g w) :
      (do let w ← (workspaceFor dryRun disk cwd root).mapError Abort.failed; return f w) =
        (do let w ← (workspaceFor dryRun disk cwd root).mapError Abort.failed; return g w) := by
    cases hw : workspaceFor dryRun disk cwd root with
    | error failure => rfl
    | ok w =>
      obtain ⟨hdisk, hcwd⟩ := workspaceFor_eq_ok hw
      exact congrArg Except.ok (hfg w hdisk hcwd)
  cases request with
  | newProject argument =>
    simp only [scaffold, Request.task]
    cases ProjectSpec.ofArgument argument cwd.toPath with
    | error failure => rfl
    | ok spec =>
      refine hlast fun w _ hcwd => ?_
      rw [w.newProject_eq, hcwd]
  | newApp name tokens directory =>
    cases directory with
    | none => rfl
    | some directory =>
      simp only [scaffold, Request.task]
      cases Disk.resolve (.ofText directory) cwd with
      | error error => rfl
      | ok location =>
        refine hlast fun w hdisk hcwd => ?_
        rw [w.newAppFromTokens_eq, hdisk, hcwd]

end CommandLine

theorem ProjectSpec.target_of_ofArgument {argument : Text} {cwd : Path} {spec : ProjectSpec}
    (h : ofArgument argument cwd = .ok spec) :
    ∃ location name, spec.target = Location.toPath (location ++ [name]) := by
  obtain ⟨there, -, h⟩ := ofArgument_eq_ok.1 h
  obtain ⟨htarget, above, name, rfl⟩ := ofLocation_eq_ok h
  exact ⟨above, name, htarget⟩

theorem Config.appRoot_eq_ok {config : Config} {location : Location} {name : Text} {root : Path}
    (happs : config.appsDir = default.appsDir)
    (h : config.appRoot location.toPath name = .ok root) :
    root = (location.toPath.below config.appsDir).below name ∧
      ∃ above last, root = Location.toPath (above ++ [last]) := by
  rw [appRoot] at h
  split at h
  · rename_i hcheck
    cases h
    have hname := (AppName.check_eq_ok hcheck).2.1
    let apps : Name := ⟨"apps", by decide⟩
    refine ⟨rfl, location ++ [apps], ⟨name, hname⟩, ?_⟩
    rw [happs]
    exact (congrArg (Path.below · name) (Path.below_name location apps)).trans
      (Path.below_name _ ⟨name, hname⟩)
  · cases h

theorem Workspace.name_of_appSpec {w : Workspace} {config : Config} {name : Text}
    {tokens : List RawText} {project : Path} {spec : AppSpec}
    (h : w.appSpec config name tokens project = .ok spec) : spec.name = name := by
  rw [appSpec] at h
  split at h
  · cases h
  · obtain ⟨schema, -, h⟩ := bind_eq_ok.1 h
    obtain ⟨declared, -, h⟩ := bind_eq_ok.1 h
    obtain ⟨projectName, -, h⟩ := bind_eq_ok.1 h
    cases h
    rfl

theorem CommandLine.Request.layout_of_task {config : Config} {request : Request} {disk : Disk}
    {cwd : Location} {task : Task} {plan : Plan} {message : Except Template.RenderError Text}
    (happs : config.appsDir = Config.default.appsDir)
    (hlib : config.libDir = Config.default.libDir)
    (htask : request.task config disk cwd = .ok task) (hwork : task.work = .ok (plan, message)) :
    plan.root = task.root ∧ (∃ location name, plan.root = Location.toPath (location ++ [name])) ∧
      Plan.Layout plan.directories (plan.files.map (·.path)) := by
  cases request with
  | newProject argument =>
    obtain ⟨spec, hspec, htask⟩ := bind_eq_ok.1 htask
    cases htask
    obtain ⟨planned, hplan, hwork⟩ := bind_eq_ok.1 hwork
    cases hwork
    obtain ⟨hroot, hlayout⟩ := Plan.layout_of_ofProject happs hlib (mapError_eq_ok.1 hplan)
    obtain ⟨location, name, htarget⟩ := ProjectSpec.target_of_ofArgument (mapError_eq_ok.1 hspec)
    exact ⟨hroot, ⟨location, name, hroot.trans htarget⟩, hlayout⟩
  | newApp name tokens directory =>
    cases directory with
    | none => cases htask
    | some directory =>
      obtain ⟨location, -, htask⟩ := bind_eq_ok.1 htask
      cases htask
      obtain ⟨spec, hspec, hwork⟩ := bind_eq_ok.1 hwork
      obtain ⟨root, happ, hwork⟩ := bind_eq_ok.1 hwork
      obtain ⟨planned, hplan, hwork⟩ := bind_eq_ok.1 hwork
      cases hwork
      obtain ⟨hroot, hlayout⟩ := Plan.layout_of_ofApp (mapError_eq_ok.1 hplan)
      rw [Workspace.name_of_appSpec hspec] at happ
      obtain ⟨heq, above, last, hlast⟩ := Config.appRoot_eq_ok happs happ
      exact ⟨hroot.trans heq, ⟨above, last, hroot.trans hlast⟩, hlayout⟩

end Scaffold
