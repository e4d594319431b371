import Scaffold.Text.Basic

/-!
The two expressions of generated code that list the fields of a module: the query of the controller
and the arguments of the view's outer element.
-/

namespace Scaffold

/-- The query for some fields of a module; without fields it has no inner block. -/
def query (module : Text) : List Text → Text
  | [] => "\x7b " ++ module ++ " \x7d"
  | fields => "\x7b " ++ module ++ " \x7b " ++ Text.join " " fields ++ " \x7d \x7d"

/-- The expression that shows one field of a module's state. -/
def viewElement (module field : Text) : Text :=
  "div(state.get('" ++ module ++ "')." ++ field ++ ")"

/-- The elements for some fields, each on a line of its own; nothing without fields. -/
def viewBody (module : Text) : List Text → Text
  | [] => []
  | fields => "\n    " ++ Text.join ",\n    " (fields.map (viewElement module))

end Scaffold
