import Scaffold.Text.Basic

/-!
Ordered mappings, as lists of keys and values without a repeated key. A value put under a key that
is already there takes the earlier one's place (`keys_put`, `get?_put`).
-/

namespace Scaffold

/-- An ordered mapping, from texts if not said otherwise. -/
abbrev Entries (α : Type _) (κ : Type := Text) := List (κ × α)

namespace Entries

variable {α : Type _} {κ : Type}

section

variable [DecidableEq κ]

/-- The value under a key. -/
def get? : Entries α κ → κ → Option α
  | [], _ => none
  | (k, v) :: rest, key => if k = key then some v else get? rest key

/-- Puts a value in place of the one under the same key, or else at the end. -/
def put : Entries α κ → κ → α → Entries α κ
  | [], key, value => [(key, value)]
  | (k, v) :: rest, key, value =>
    if k = key then (key, value) :: rest else (k, v) :: put rest key value

/-- The mapping that arises when pairs are put one after the other. -/
def ofPairs (pairs : List (κ × α)) : Entries α κ :=
  pairs.foldl (fun entries (key, value) => entries.put key value) []

end

/-- The keys in their order. -/
def keys (entries : Entries α κ) : List κ :=
  entries.map Prod.fst

variable [DecidableEq κ]

@[simp] theorem get?_put (key other : κ) (value : α) (entries : Entries α κ) :
    (entries.put key value).get? other =
      if key = other then some value else entries.get? other := by
  induction entries with
  | nil => simp [put, get?]
  | cons e rest ih =>
    obtain ⟨k, v⟩ := e
    unfold put
    by_cases hk : k = key
    · subst hk
      by_cases ho : k = other <;> simp [get?, ho]
    · by_cases ho : k = other
      · subst ho
        simp [get?, hk, Ne.symm hk]
      · simp [get?, hk, ho, ih]

theorem keys_put (key : κ) (value : α) (entries : Entries α κ) :
    (entries.put key value).keys =
      if key ∈ entries.keys then entries.keys else entries.keys ++ [key] := by
  induction entries with
  | nil => simp [put, keys]
  | cons e rest ih =>
    obtain ⟨k, v⟩ := e
    unfold put
    by_cases hk : k = key
    · subst hk; simp [keys]
    · simp only [keys] at ih
      simp only [keys, hk, if_false, List.map_cons, List.mem_cons, ih, Ne.symm hk, false_or]
      by_cases h : key ∈ rest.map Prod.fst <;> simp [h]

end Entries

end Scaffold
