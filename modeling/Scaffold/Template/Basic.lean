import Scaffold.Json.Basic

/-!
Templates: lines of text with slots that are filled from a context. A line may depend on a value, or
be repeated for the items of a list or the entries of a mapping.
-/

namespace Scaffold

namespace Template

/-- How a value is written into a slot. -/
inductive Filter where
  | plain
  | json
  | camelCase
  /-- The items of the value with a separator between neighbours. -/
  | joined (separator : Text)
  deriving DecidableEq, Repr

/-- A part of a line. -/
inductive Fragment where
  | text (t : Text)
  | slot (name : Text) (filter : Filter)
  deriving DecidableEq, Repr

instance : Coe String Fragment := ⟨fun s => .text s⟩

/-- A part of a line that is repeated. -/
inductive ItemFragment where
  | text (t : Text)
  /-- The key of the entry. -/
  | key (filter : Filter)
  /-- The value of the entry, or the item of the list. -/
  | value (filter : Filter)
  /-- A comma after all lines but the last. -/
  | comma
  deriving DecidableEq, Repr

instance : Coe String ItemFragment := ⟨fun s => .text s⟩

inductive Block where
  | line (fragments : List Fragment)
  /-- A line that is left out unless a value is filled. -/
  | optional (name : Text) (fragments : List Fragment)
  | each (list : Text) (fragments : List ItemFragment)
  | eachEntry (mapping : Text) (fragments : List ItemFragment)
  deriving DecidableEq, Repr

instance : Coe String Block := ⟨fun s => .line [s]⟩

end Template

abbrev Template := List Template.Block

namespace Template

/-- The variables that a fragment takes from the context. -/
def Fragment.freeNames : Fragment → List Text
  | text _ => []
  | slot name _ => [name]

def Block.freeNames : Block → List Text
  | line fragments => fragments.flatMap Fragment.freeNames
  | optional name fragments => name :: fragments.flatMap Fragment.freeNames
  | each list _ => [list]
  | eachEntry mapping _ => [mapping]

/-- The variables that a template takes from the context. -/
def freeNames (template : Template) : List Text :=
  template.flatMap Block.freeNames

end Template

end Scaffold
