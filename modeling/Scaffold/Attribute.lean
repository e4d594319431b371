import Scaffold.Validation

/-!
Attributes of a model: a name and a type, written `name:type`.
-/

namespace Scaffold

/-- A typed field of a generated model. -/
structure Attribute where
  name : Text
  type : Text
  name_ne : name ≠ []
  type_ne : type ≠ []
  deriving DecidableEq

namespace Attribute

/-- What is malformed about a token. -/
inductive TokenFault where
  | missingColon
  | emptyName
  | emptyType
  deriving DecidableEq, Repr

def TokenFault.message : TokenFault → Text
  | missingColon => "missing ':' between name and type"
  | emptyName => "attribute name is empty"
  | emptyType => "attribute type is empty"

/-- The attribute that a record describes. -/
def ofFields (fields : Entries (Json RawText)) : Validation.Checked Attribute := do
  let (name, type) ← Validation.Checked.and
    (Validation.field fields "name" Validation.filledRawText none)
    (Validation.field fields "type" Validation.filledRawText none)
  return ⟨name, type, name.ne_nil, type.ne_nil⟩

/-- The record of a name and a type. -/
def toFields (name type : RawText) : Entries (Json RawText) :=
  [("name", .string name), ("type", .string type)]

/-- Why a token is no attribute. -/
inductive TokenError where
  | malformed (fault : TokenFault)
  /-- Its name and type have problems as a record. -/
  | invalid (problems : List Validation.Problem)
  deriving DecidableEq, Repr

/-- Reads a token; its first colon separates name and type, and blanks around both are dropped. -/
def ofToken (token : RawText) : Except TokenError Attribute :=
  match Text.cutFirst (.char ':') token with
  | none => .error (.malformed .missingColon)
  | some (name, type) =>
    let name := RawText.strip name
    let type := RawText.strip type
    if name = [] then .error (.malformed .emptyName)
    else if type = [] then .error (.malformed .emptyType)
    else (ofFields (toFields name type)).mapError .invalid

/-- The token of an attribute. -/
def toToken (a : Attribute) : Text :=
  a.name ++ ":" ++ a.type

/-- The declaration of an attribute in a generated model. -/
def declaration (a : Attribute) : Text :=
  a.name ++ ": " ++ a.type ++ "()"

end Attribute

end Scaffold
