import Scaffold.CommandLine.Word

/-!
Reading a command line by a grammar of options and positional arguments. The positional arguments
are taken from runs of words between options, as many as one run has room for.
-/

namespace Scaffold.CommandLine

/-- What a positional argument takes. -/
inductive Arity where
  | one
  | many
  /-- One word and everything after it. -/
  | command
  deriving DecidableEq, Repr

structure Positional where
  name : Text
  arity : Arity
  deriving DecidableEq, Repr

structure Grammar where
  program : Text
  /-- The lines that are shown when a command line is wrong. -/
  usage : Text
  /-- What is shown after the usage on request. -/
  help : Text
  flags : List Flag
  positionals : List Positional

/-- Why reading ends before everything is read. -/
inductive Stop where
  | help (g : Grammar)
  | version
  | wrong (g : Grammar) (message : Text)

/-- What has been read: the words for each option and argument, and those that found no place. -/
structure Reading where
  found : List (Text × List Text) := []
  extras : List Text := []
  missing : List Positional

/-- The words of one positional argument at the front of a run, and what follows them. -/
def takePositional (arity : Arity) (words : List (Text × Word)) :
    Option (List (Text × Word) × List (Text × Word)) :=
  let isTerminator (w : Text × Word) : Bool := w.2 = .terminator
  let (before, rest) := words.span isTerminator
  match arity, rest with
  | .many, _ =>
    some (words.span fun w => w.2 = .argument || w.2 = .terminator)
  | .one, w :: rest =>
    if w.2 = .argument then
      let (after, rest) := rest.span isTerminator
      some (before ++ [w] ++ after, rest)
    else none
  | .command, w :: _ => if w.2 = .argument then some (words, []) else none
  | _, [] => none

/-- The arguments among some words: one terminator is dropped, except before a command. -/
def argumentsOf (arity : Arity) (words : List (Text × Word)) : List Text :=
  let ts := words.map Prod.fst
  if arity = .command then ts else ts.erase ['-', '-']

/-- Fills the positional arguments in order, as many as the words at the front allow. -/
def takePositionals : List Positional → List (Text × Word) →
    List (Text × List Text) × List Positional × List (Text × Word)
  | [], words => ([], [], words)
  | p :: rest, words =>
    match takePositional p.arity words with
    | none => ([], p :: rest, words)
    | some (own, words) =>
      let (found, missing, words) := takePositionals rest words
      ((p.name, argumentsOf p.arity own) :: found, missing, words)

/-- A reading with the words for one more option. -/
def Reading.add (r : Reading) (f : Flag) (arguments : List Text) : Reading :=
  { r with found := r.found ++ [(f.label, arguments)] }

/-- Carries out the options of one word. -/
def useFlags (g : Grammar) (attached : Option Text) (r : Reading) :
    List Flag → List (Text × Word) → Except Stop (Reading × List (Text × Word))
  | [], words => .ok (r, words)
  | f :: rest, words =>
    match f.effect, attached, words with
    | .help, _, _ => .error (.help g)
    | .version, _, _ => .error .version
    | .switch, _, words => useFlags g attached (r.add f []) rest words
    | .value, some t, words => useFlags g attached (r.add f ([t].erase ['-', '-'])) rest words
    | .value, none, (t, .argument) :: words => useFlags g attached (r.add f [t]) rest words
    | .value, none, _ => .error (.wrong g ("argument " ++ f.label ++ ": expected one argument"))

def isFlag : Text × Word → Bool
  | (_, .flag _ _ _) => true
  | (_, .unknownFlag) => true
  | _ => false

/-- Reads words; `fuel` is at least their number. -/
def readWords (g : Grammar) : Nat → Reading → List (Text × Word) → Except Stop Reading
  | 0, r, _ => .ok r
  | _ + 1, r, [] => .ok r
  | fuel + 1, r, (t, .unknownFlag) :: words =>
    readWords g fuel { r with extras := r.extras ++ [t] } words
  | fuel + 1, r, (_, .flag f name attached) :: words => do
    let (flags, attached) ← (flagsOfWord g.flags f name attached).mapError (.wrong g)
    let (r, words) ← useFlags g attached r flags words
    readWords g fuel r words
  | fuel + 1, r, words =>
    let (found, missing, rest) := takePositionals r.missing words
    if rest.length < words.length then
      readWords g fuel { r with found := r.found ++ found, missing } rest
    else
      let (strays, rest) := words.span fun w => !isFlag w
      readWords g fuel { r with extras := r.extras ++ strays.map Prod.fst } rest

/-- Reads the arguments of a command line. -/
def Grammar.read (g : Grammar) (arguments : List Text) : Except Stop Reading := do
  let words ← (classifyAll g.flags arguments).mapError (.wrong g)
  let r ← readWords g words.length { missing := g.positionals } words
  if r.missing = [] then return r
  else
    .error (.wrong g ("the following arguments are required: " ++
      Text.join ", " (r.missing.map (·.name))))

end Scaffold.CommandLine
