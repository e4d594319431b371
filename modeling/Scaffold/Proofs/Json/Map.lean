import Mathlib.Data.List.Nodup
import Scaffold.Entries
import Scaffold.Json.Basic
import Scaffold.Proofs.Json.Depth

namespace Scaffold

namespace Json

variable {σ τ : Type} {f : σ → τ} {fields : Entries (Json σ) σ}

mutual

/-- A value with each string, names of fields included, replaced by what `f` makes of it. -/
def map (f : σ → τ) : Json σ → Json τ
  | .null => .null
  | .bool b => .bool b
  | .number n => .number n
  | .string t => .string (f t)
  | .array items => .array (mapItems f items)
  | .object fields => .object (mapFields f fields)

def mapItems (f : σ → τ) : List (Json σ) → List (Json τ)
  | [] => []
  | item :: rest => map f item :: mapItems f rest

def mapFields (f : σ → τ) : List (σ × Json σ) → List (τ × Json τ)
  | [] => []
  | (name, value) :: rest => (f name, map f value) :: mapFields f rest

end

/-- A value with texts for strings as one with raw texts. -/
def raw (v : Json) : Json RawText :=
  v.map Text.raw

instance : Coe Json (Json RawText) := ⟨raw⟩

mutual

theorem map_id : ∀ v : Json σ, v.map id = v
  | .null | .bool _ | .number _ | .string _ => rfl
  | .array items => congrArg array (mapItems_id items)
  | .object fields => congrArg object (mapFields_id fields)

theorem mapItems_id : ∀ items : List (Json σ), mapItems id items = items
  | [] => rfl
  | item :: rest => congrArg₂ List.cons (map_id item) (mapItems_id rest)

theorem mapFields_id : ∀ fields : List (σ × Json σ), mapFields id fields = fields
  | [] => rfl
  | (name, value) :: rest =>
    congrArg₂ (fun v more => (name, v) :: more) (map_id value) (mapFields_id rest)

end

theorem keys_mapFields (f : σ → τ) (fields : Entries (Json σ) σ) :
    Entries.keys (mapFields f fields) = (Entries.keys fields).map f := by
  induction fields with
  | nil => rfl
  | cons field rest ih => exact congrArg (f field.1 :: ·) ih

mutual

theorem depth_map (f : σ → τ) : ∀ v : Json σ, (v.map f).depth = v.depth
  | .null | .bool _ | .number _ | .string _ | .array [] | .object [] => rfl
  | .array (item :: rest) =>
    congrArg₂ (fun m n => max m n + 1) (depth_map f item) (itemsDepth_map f rest)
  | .object ((_, value) :: rest) =>
    congrArg₂ (fun m n => max m n + 1) (depth_map f value) (fieldsDepth_map f rest)

theorem itemsDepth_map (f : σ → τ) : ∀ items : List (Json σ),
    itemsDepth (mapItems f items) = itemsDepth items
  | [] => rfl
  | item :: rest => congrArg₂ max (depth_map f item) (itemsDepth_map f rest)

theorem fieldsDepth_map (f : σ → τ) : ∀ fields : List (σ × Json σ),
    fieldsDepth (mapFields f fields) = fieldsDepth fields
  | [] => rfl
  | (_, value) :: rest => congrArg₂ max (depth_map f value) (fieldsDepth_map f rest)

end

end Json

end Scaffold
