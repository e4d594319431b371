import Scaffold.CommandLine.Request
import Scaffold.Config.Environment
import Scaffold.Console.Message
import Scaffold.Project.Argument
import Scaffold.Scaffolder

/-!
Running the program: a request is carried out on the disk, or in memory in a dry run, and the report
is printed. Refusals and errors in the configuration are printed as well; anything else aborts.
-/

namespace Scaffold.CommandLine

/-- Why the program ends without an exit status of its own. -/
inductive Abort where
  | failed (failure : Failure)
  /-- The console cannot read something that is to be printed as markup. -/
  | markup (error : Markup.Error)
  /-- A surrogate stands alone in a message that is to be printed. -/
  | unencodable
  /-- The option for the project directory has no argument. -/
  | noDirectory
  deriving DecidableEq

def Abort.message : Abort → RawText
  | failed failure => failure.message
  | markup error => error.message
  | unencodable => "a message cannot be encoded"
  | noDirectory => "no project directory is given"

/-- Where a run works that creates something at a root. In a dry run only the store is changed,
which knows whether the root exists. -/
def workspaceFor (dryRun : Bool) (disk : Disk) (cwd : Location) (root : Path) :
    Except Failure Workspace := do
  if dryRun then
    let present ← (disk.present cwd root).mapError .system
    return { disk, cwd, store := .memory { existing := if present then [root] else [] } }
  else return { disk, cwd, store := .disk cwd.toPath }

/-- Creates what an invocation asks for; the outer error is that of a run that never starts. -/
def scaffold (config : Config) (invocation : Invocation) (disk : Disk) (cwd : Location) :
    Except Abort (Workspace × Except Failure Report) :=
  match invocation.request with
  | .newProject argument => do
    let spec ← (ProjectSpec.ofArgument argument cwd.toPath).mapError .failed
    let w ← (workspaceFor invocation.dryRun disk cwd spec.target).mapError .failed
    return w.newProject config spec none
  | .newApp _ _ none => .error .noDirectory
  | .newApp name tokens (some directory) => do
    let location ← (Disk.resolve (.ofText directory) cwd).mapError fun e => .failed (.system e)
    let project := location.toPath
    let root := (project.below config.appsDir).below name
    let w ← (workspaceFor invocation.dryRun disk cwd root).mapError .failed
    return w.newAppFromTokens config name (tokens.map Text.raw) project

/-- What a request creates, as it is called in a report. -/
def Request.kind : Request → Text
  | newProject _ => "Project"
  | newApp _ _ _ => "App"

/-- What is printed about a run, piece by piece. -/
def reportPieces (console : Console) (invocation : Invocation) (report : Report) :
    List (Except Markup.Error Text) :=
  let kind := invocation.request.kind
  let root := report.root.toText
  [console.summaryTable "mural" [(kind, report.root.name), ("Location", root),
      ("Files", Text.ofNat report.files.length)],
    console.fileTable Console.fileTitle report.root (report.directories ++ report.files)] ++
  if invocation.dryRun then [console.warning "Dry run: nothing was written."]
  else [console.success ("Created " ++ kind.lower ++ " at " ++ root),
    console.nextSteps Console.nextTitle report.message]

/-- What the program prints and leaves behind, and its exit status if it has one. -/
structure Outcome where
  disk : Disk
  output : Text := []
  errors : Text := []
  ending : Except Abort Nat

/-- Prints pieces up to the first that cannot be printed. -/
def printPieces : List (Except Markup.Error Text) → Text × Except Abort Unit
  | [] => ([], .ok ())
  | .ok piece :: rest =>
    let (output, ending) := printPieces rest
    (piece ++ output, ending)
  | .error e :: _ => ([], .error (.markup e))

/-- The outcome of printing some pieces. -/
def Outcome.ofPieces (disk : Disk) (status : Nat) (pieces : List (Except Markup.Error Text)) :
    Outcome :=
  let (output, ending) := printPieces pieces
  { disk, output, ending := ending.map fun () => status }

/-- The outcome of an error that is reported. -/
def Outcome.ofMessage (console : Console) (disk : Disk) (message : RawText) : Outcome :=
  match message.text? with
  | some t => .ofPieces disk 1 [console.error ("Error: " ++ t)]
  | none => { disk, ending := .error .unencodable }

/-- The paths on whose way a run finds all that it needs to know about the disk. -/
def Invocation.inspected (invocation : Invocation) (config : Config) (cwd : Location) : List Path :=
  match invocation.request with
  | .newProject argument => [(cwd.toPath.below argument).locate [] |>.toPath]
  | .newApp name _ directory =>
    let project := (cwd.toPath.below (directory.getD [])).locate [] |>.toPath
    [project.below config.manifestName, (project.below config.appsDir).below name]

/-- Runs an invocation. -/
def runInvocation (console : Console) (invocation : Invocation) (environment : Entries Text)
    (disk : Disk) (cwd : Location) : Outcome :=
  match Config.ofEnvironment environment with
  | .error e => .ofMessage console disk e.message
  | .ok config =>
    match scaffold config invocation disk cwd with
    | .error abort => { disk, ending := .error abort }
    | .ok (w, .ok report) => .ofPieces w.disk 0 (reportPieces console invocation report)
    | .ok (w, .error (.refused refusal)) => .ofMessage console w.disk refusal.message
    | .ok (w, .error failure) => { disk := w.disk, ending := .error (.failed failure) }

/-- Runs the program in a directory. -/
def run (console : Console) (arguments : List Text) (environment : Entries Text) (disk : Disk)
    (cwd : Location) : Outcome :=
  match read arguments with
  | .ok invocation => runInvocation console invocation environment disk cwd
  | .error (.help g) => { disk, output := g.usage ++ g.help, ending := .ok 0 }
  | .error .version => { disk, output := versionText ++ ['\n'], ending := .ok 0 }
  | .error (.wrong g message) =>
    { disk, errors := g.usage ++ g.program ++ ": error: " ++ message ++ "\n", ending := .ok 2 }

end Scaffold.CommandLine
