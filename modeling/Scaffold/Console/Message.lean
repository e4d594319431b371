import Scaffold.Console.Layout
import Scaffold.Path.Basic

/-!
What is printed about a run: messages, a table of facts, a table of created paths, and the steps
that come next.
-/

namespace Scaffold.Console

variable (console : Console)

/-- Markup in one style, on lines of its own. -/
def styled (style markup : Text) : Except Markup.Error Text := do
  let text ← Markup.render console ("[" ++ style ++ "]" ++ markup ++ "[/" ++ style ++ "]")
  return ended console ((flow ⟨true, .fold⟩ console.lineWidth text).map Styled.runs)

/-- The message is markup. -/
def success (message : Text) : Except Markup.Error Text :=
  styled console "bold green" message

/-- The message is markup. -/
def warning (message : Text) : Except Markup.Error Text :=
  styled console "bold yellow" message

/-- The message is printed as it is. -/
def error (message : Text) : Except Markup.Error Text :=
  styled console "bold red" (Markup.escape message)

/-- The titles that are used where no other is given. -/
def summaryTitle : Text := "Summary"

def fileTitle : Text := "Generated"

def nextTitle : Text := "Next steps"

/-- A table of names and values, of which only the values are wrapped. -/
def summaryTable (title : Text) (facts : List (Text × Text)) : Except Markup.Error Text :=
  table console title [⟨"Item", false, facts.map Prod.fst⟩, ⟨"Value", true, facts.map Prod.snd⟩]

/-- A path as seen from a root, which itself is shown by its name. -/
def shownPath (root p : Path) : Text :=
  let shown := (p.relativeTo? root).getD p
  if shown.toText = ['.'] then root.name ++ ['/'] else shown.toText

/-- A table of paths. -/
def fileTable (title : Text) (root : Path) (paths : List Path) : Except Markup.Error Text :=
  table console title [⟨"Path", false, paths.map (shownPath root)⟩]

/-- What to do next. -/
def nextSteps (title message : Text) : Except Markup.Error Text :=
  panel console title message

end Scaffold.Console
