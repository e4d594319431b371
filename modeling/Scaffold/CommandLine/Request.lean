import Scaffold.CommandLine.Grammar

/-!
The commands of the program: `new` creates a project and `app` an app in a project.
-/

namespace Scaffold.CommandLine

/-- The name and version of the program. -/
def versionText : Text := "mural 0.1.0"

def helpFlag : Flag := ⟨["-h", "--help"], .help⟩

def versionFlag : Flag := ⟨["--version"], .version⟩

def dryRunFlag : Flag := ⟨["--dry-run"], .switch⟩

def projectDirFlag : Flag := ⟨["--project-dir"], .value⟩

/-- The argument that names what is created. -/
def nameArgument : Positional := ⟨"name", .one⟩

def attributesArgument : Positional := ⟨"name:type", .many⟩

def commandArgument : Positional := ⟨"command", .command⟩

/-- Several lines as one text. -/
def ofLines (ls : List Text) : Text :=
  (ls.map (· ++ ['\n'])).flatten

/-- The command line as a whole. -/
def mainGrammar : Grammar where
  program := "mural"
  usage := ofLines [
    "usage: mural [-h] [--version] \x7bnew,app\x7d ..."]
  help := ofLines [
    "",
    "mural -- scaffold Koa + joiql-mongo projects and apps",
    "",
    "positional arguments:",
    "  \x7bnew,app\x7d",
    "    new       Create a new project skeleton",
    "    app       Create an app inside the current project",
    "",
    "options:",
    "  -h, --help  show this help message and exit",
    "  --version   show program's version number and exit",
    "",
    "Examples:",
    "  mural new blog",
    "  mural app article title:string body:string",
    "  mural app comment body:string --project-dir ./blog --dry-run"]
  flags := [helpFlag, versionFlag]
  positionals := [commandArgument]

/-- The arguments of the command that creates a project. -/
def newGrammar : Grammar where
  program := "mural new"
  usage := ofLines [
    "usage: mural new [-h] [--dry-run] name"]
  help := ofLines [
    "",
    "positional arguments:",
    "  name        Project directory; its last component names the project",
    "",
    "options:",
    "  -h, --help  show this help message and exit",
    "  --dry-run   Show what would be generated without writing anything"]
  flags := [helpFlag, dryRunFlag]
  positionals := [nameArgument]

/-- The arguments of the command that creates an app. -/
def appGrammar : Grammar where
  program := "mural app"
  usage := ofLines [
    "usage: mural app [-h] [--project-dir PROJECT_DIR] [--dry-run]",
    "                 name [name:type ...]"]
  help := ofLines [
    "",
    "positional arguments:",
    "  name                  App name, e.g. article",
    "  name:type             Model fields, e.g. title:string body:string",
    "",
    "options:",
    "  -h, --help            show this help message and exit",
    "  --project-dir PROJECT_DIR",
    "                        Project root containing package.json (default: current",
    "                        directory)",
    "  --dry-run             Show what would be generated without writing anything"]
  flags := [helpFlag, projectDirFlag, dryRunFlag]
  positionals := [nameArgument, attributesArgument]

/-- What is asked for. -/
inductive Request where
  | newProject (argument : Text)
  /-- The project directory is missing where its option has no argument. -/
  | newApp (name : Text) (tokens : List Text) (directory : Option Text)
  deriving DecidableEq, Repr

structure Invocation where
  request : Request
  dryRun : Bool
  deriving DecidableEq, Repr

/-- The words of an option or argument; of an option that is repeated, the last ones. -/
def Reading.words? (r : Reading) (label : Text) : Option (List Text) :=
  r.found.reverse.lookup label

/-- The only word of an argument. -/
def Reading.word (r : Reading) (p : Positional) : Text :=
  ((r.words? p.name).bind List.head?).getD []

def Reading.dryRun (r : Reading) : Bool :=
  (r.words? dryRunFlag.label).isSome

def newRequest (r : Reading) : Request :=
  .newProject (r.word nameArgument)

def appRequest (r : Reading) : Request :=
  let directory := match r.words? projectDirFlag.label with
    | none => some ['.']
    | some ts => ts.head?
  .newApp (r.word nameArgument) ((r.words? attributesArgument.name).getD []) directory

/-- The commands, with their grammars and what they ask for. -/
def commands : List (Text × Grammar × (Reading → Request)) :=
  [("new", newGrammar, newRequest), ("app", appGrammar, appRequest)]

def unknownCommand (name : Text) : Text :=
  "argument command: invalid choice: " ++ name.quoted ++ " (choose from " ++
    Text.join ", " (commands.map fun (name, _) => name.quoted) ++ ")"

/-- Reads the arguments of the program. -/
def read (arguments : List Text) : Except Stop Invocation := do
  let outer ← mainGrammar.read arguments
  let words := (outer.words? commandArgument.name).getD []
  let name := words.head?.getD []
  match commands.lookup name with
  | none => .error (.wrong mainGrammar (unknownCommand name))
  | some (grammar, request) =>
    let inner ← grammar.read (words.drop 1)
    let extras := outer.extras ++ inner.extras
    if extras = [] then return ⟨request inner, inner.dryRun⟩
    else .error (.wrong mainGrammar ("unrecognized arguments: " ++ Text.join " " extras))

end Scaffold.CommandLine
