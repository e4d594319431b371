import Scaffold.Attribute

/-!
Schemas: lists of attributes with distinct names. The order of the attributes is the order of the
fields in every generated file.
-/

namespace Scaffold

/-- The attributes of a model. -/
structure Schema where
  attributes : List Attribute
  distinct : (attributes.map (·.name)).Nodup
  deriving DecidableEq

namespace Schema

def empty : Schema := ⟨[], by simp⟩

def names (s : Schema) : List Text :=
  s.attributes.map (·.name)

def types (s : Schema) : List Text :=
  s.attributes.map (·.type)

/-- The names with their types, in order. -/
def pairs (s : Schema) : List (Text × Text) :=
  s.attributes.map fun a => (a.name, a.type)

/-- A schema with one more attribute, unless its name is taken. -/
def add? (s : Schema) (a : Attribute) : Option Schema :=
  if h : a.name ∈ s.names then none
  else some ⟨s.attributes ++ [a], by
    rw [List.map_append, List.nodup_append]
    refine ⟨s.distinct, by simp, ?_⟩
    intro x hx y hy
    simp only [List.map_cons, List.map_nil, List.mem_singleton] at hy
    subst hy
    rintro rfl
    exact h hx⟩

/-- Why a list of tokens is no schema. -/
inductive TokenError where
  | malformed (token : RawText) (fault : Attribute.TokenFault)
  | duplicate (name : Text)
  /-- The name and type of a token have problems as a record. -/
  | invalid (problems : List Validation.Problem)
  deriving DecidableEq, Repr

/-- Reads tokens one after the other into a schema that already has some attributes. -/
def addTokens (s : Schema) : List RawText → Except TokenError Schema
  | [] => .ok s
  | token :: rest =>
    match Attribute.ofToken token with
    | .error (.malformed fault) => .error (.malformed token fault)
    | .error (.invalid problems) => .error (.invalid problems)
    | .ok a =>
      match s.add? a with
      | none => .error (.duplicate a.name)
      | some s => addTokens s rest

/-- The schema that a list of tokens describes. -/
def ofTokens (tokens : List RawText) : Except TokenError Schema :=
  empty.addTokens tokens

/-- The tokens of a schema. -/
def toTokens (s : Schema) : List Text :=
  s.attributes.map Attribute.toToken

/-- The first text of a list that stands in `seen` or earlier in the list. -/
def firstRepeat? (seen : List Text) : List Text → Option Text
  | [] => none
  | t :: rest => if t ∈ seen then some t else firstRepeat? (t :: seen) rest

theorem firstRepeat?_eq_none {seen ts : List Text} (h : firstRepeat? seen ts = none) :
    ts.Nodup ∧ ∀ t ∈ ts, t ∉ seen := by
  induction ts generalizing seen with
  | nil => simp
  | cons t rest ih =>
    unfold firstRepeat? at h
    split at h
    · cases h
    · rename_i ht
      obtain ⟨hn, hs⟩ := ih h
      refine ⟨List.nodup_cons.2 ⟨fun hm => hs t hm (by simp), hn⟩, ?_⟩
      intro u hu
      rcases List.mem_cons.1 hu with rfl | hu
      · exact ht
      · exact fun hm => hs u hu (List.mem_cons_of_mem _ hm)

/-- The schema with given attributes, if their names are distinct. -/
def ofAttributes (attributes : List Attribute) : Except Validation.Fault Schema :=
  match h : firstRepeat? [] (attributes.map (·.name)) with
  | none => .ok ⟨attributes, (firstRepeat?_eq_none h).1⟩
  | some name => .error (.duplicateAttribute name)

/-- The schema that a list of records describes; the first record with a problem counts. -/
def ofRecords (records : List (Entries (Json RawText))) : Validation.Checked Schema := do
  let attributes ← records.mapM Attribute.ofFields
  (ofAttributes attributes).mapError fun fault => [.ofWhole fault]

/-- A list without the elements that have occurred before. -/
def distinctFrom (seen : List Text) : List Text → List Text
  | [] => []
  | t :: rest =>
    if t ∈ seen then distinctFrom seen rest else t :: distinctFrom (t :: seen) rest

/-- The elements of a list in the order of their first occurrence. -/
def firstOccurrences (ts : List Text) : List Text :=
  distinctFrom [] ts

/-- The types of a schema, each one once. -/
def importedTypes (s : Schema) : List Text :=
  firstOccurrences s.types

/-- The declarations of all attributes, as they stand in a model. -/
def declarations (s : Schema) : Text :=
  Text.join ",\n  " (s.attributes.map Attribute.declaration)

end Schema

end Scaffold
