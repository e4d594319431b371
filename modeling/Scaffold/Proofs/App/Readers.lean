import Scaffold.Proofs.Text.Marker

namespace Scaffold.Naming

open Text

/-- The place of the module in the address of the server, behind the variable with its host. -/
def addressMarker : Marker :=
  ⟨'+', " '/api/", by decide, by decide⟩

/-- The place of the key in the state tree. -/
def treeMarker : Marker :=
  ⟨'=', " tree(\x7b\n  ", by decide, by decide⟩

/-- The place of the name that the answer to the query is bound to. -/
def bindingMarker : Marker :=
  ⟨'=', "> \x7b\n  const \x7b ", by decide, by decide⟩

def queryMarker : Marker :=
  ⟨'(', "() =>\n    api.query('", by decide, by decide⟩

/-- The place of the arguments with which the state is set. -/
def setMarker : Marker :=
  ⟨')', "\n  state.set('", by decide, by decide⟩

/-- The place of the model's module, behind the import. -/
def modelMarker : Marker :=
  ⟨'\x7d', " from 'joiql-mongo'\n\nexport default model('", by decide, by decide⟩

/-- The place of a view element's module. -/
def elementMarker : Marker :=
  ⟨'\n', "    div(state.get('", by decide, by decide⟩

def routeMarker : Marker :=
  ⟨'\n', "router.get('/", by decide, by decide⟩

def apiMarker : Marker :=
  ⟨'\n', "\nrouter.all('/api/", by decide, by decide⟩

/-- The module that a query selects and the fields in its inner block. -/
def selection? (t : Text) : Option (Text × List Text) :=
  match (cut (· = '\x7b') t).map wordsIn with
  | [[], [module]] => some (module, [])
  | [[], [module], fields] => some (module, fields)
  | _ => none

/-- The key and the type of a declaration. -/
def declaration? (t : Text) : Option (Text × Text) :=
  match (cut (· = ':') t).map wordsIn with
  | [[key], [type]] => some (key, type)
  | _ => none

/-- The declarations between commas; pieces without a word are none. -/
def declarations? (t : Text) : Option (List (Text × Text)) :=
  ((cut (· = ',') t).filter (wordsIn · ≠ [])).mapM declaration?

/-- The module and the field of a view element, from its module on. -/
def element? (t : Text) : Option (Text × Text) :=
  if startsWith "')." (t.dropWhile isWordChar) then
    some (firstWord t, firstWord ((t.dropWhile isWordChar).drop 3))
  else none

/-- What a controller says about its module and the fields. -/
structure ControllerNames where
  address : Text
  treeKey : Text
  binding : Text
  selection : Text × List Text
  arguments : List Text
  deriving DecidableEq

/-- The variable with the host can be any text, so that the last occurrence of a marker counts. -/
def readController (t : Text) : Option ControllerNames := do
  let address ← (addressMarker.read '\'' t).getLast?
  let treeKey ← (treeMarker.read ':' t).getLast?
  let binding ← (bindingMarker.read ' ' t).getLast?
  let selection ← selection? (← (queryMarker.read '\'' t).getLast?)
  let arguments ← (setMarker.read ')' t).getLast?
  return ⟨address, treeKey, binding, selection, wordsIn arguments⟩

/-- The module of a model, and its fields with their types. -/
def modelOf? (t : Text) : Option (Text × List (Text × Text)) :=
  match cut (· = '\x7b') t with
  | [head, body] => do
    let fields ← declarations? body
    return (head.takeWhile (· ≠ '\''), fields)
  | _ => none

def readModels (t : Text) : Option (List (Text × List (Text × Text))) :=
  (modelMarker.read '\x7d' t).mapM modelOf?

/-- The module and the field of each element of a view. -/
def readView (t : Text) : Option (List (Text × Text)) :=
  (elementMarker.after t).mapM element?

def readRouter (t : Text) : List Text :=
  routeMarker.read '/' t

def readServer (t : Text) : List Text :=
  apiMarker.read '\'' t

end Scaffold.Naming
