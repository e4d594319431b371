import Scaffold.CommandLine.Run

/-!
The program. What it needs to know about the disk is read first, and what a run has added is written
at the end.
-/

namespace Scaffold

/-- Adds what stands at the end of a path to a disk; `false` means that nothing can lie below it. -/
def inspect (disk : Disk) (p : Path) : IO (Disk × Bool) := do
  let place := (← IO.currentDir) / String.ofList p.toText
  if ← place.isDir then
    return ((disk.makeDirectory [] p true).1, true)
  else if ← place.pathExists then
    let content ← IO.FS.readBinFile place
    return ((disk.overwrite [] p content).toOption.getD disk, false)
  else return (disk, false)

/-- Adds what stands on the way of an absolute path to a disk. -/
def inspectWay (disk : Disk) (p : Path) : IO Disk := do
  let mut disk := disk
  for length in List.range (p.steps.length + 1) do
    let (known, further) ← inspect disk { p with steps := p.steps.take length }
    disk := known
    if !further then return disk
  return disk

/-- The variables that have a meaning, as far as they are set. -/
def readEnvironment : IO (Entries Text) :=
  Config.settingNames.filterMapM fun name => do
    return (← IO.getEnv (String.ofList name)).map fun value => (name, value.toList)

/-- Creates one entry. -/
def writeEntry (location : Location) (entry : Disk.Entry) : IO Unit := do
  let place := (← IO.currentDir) / String.ofList location.toText
  match entry with
  | .directory => IO.FS.createDir place
  | .file content => IO.FS.writeBinFile place content

/-- The console, as wide as the environment says. -/
def readConsole : IO Console := do
  return .ofWidth (((← IO.getEnv "COLUMNS").bind String.toNat?).getD 80)

/-- A raw text as it is shown among errors, with surrogates escaped. -/
def RawText.escaped (t : RawText) : Text :=
  t.flatMap fun
    | .char c => [c]
    | .surrogate n => "\\u" ++ Text.hex 4 (0xD800 + n)

/-- Runs the program and gives its exit status. -/
def runProgram (arguments : List Text) : IO UInt32 := do
  let cwd := (Path.ofText (← IO.currentDir).toString.toList).locate []
  let environment ← readEnvironment
  let ways := match CommandLine.read arguments with
    | .ok invocation => invocation.inspected .default cwd
    | .error _ => []
  let disk ← (cwd.toPath :: ways).foldlM inspectWay .empty
  let outcome := CommandLine.run (← readConsole) arguments environment disk cwd
  for (location, entry) in (disk.changes outcome.disk).reverse do
    writeEntry location entry
  IO.print (String.ofList outcome.output)
  IO.eprint (String.ofList outcome.errors)
  match outcome.ending with
  | .ok status => return status.toUInt32
  | .error abort =>
    IO.eprintln (String.ofList abort.message.escaped)
    return 1

end Scaffold

def main (arguments : List String) : IO UInt32 :=
  Scaffold.runProgram (arguments.map String.toList)
