import Scaffold.Entries

namespace Scaffold.Entries

variable {α : Type _} {κ : Type} [DecidableEq κ] {entries pairs : Entries α κ} {key : κ}

theorem get?_append {first second : Entries α κ} :
    get? (first ++ second) key = (first.get? key).or (second.get? key) := by
  induction first with
  | nil => rfl
  | cons entry rest ih =>
    obtain ⟨k, value⟩ := entry
    simp only [List.cons_append, get?]
    split
    · rfl
    · exact ih

theorem put_of_notMem (h : key ∉ entries.keys) (value : α) :
    entries.put key value = entries ++ [(key, value)] := by
  induction entries with
  | nil => rfl
  | cons entry rest ih =>
    obtain ⟨k, v⟩ := entry
    have hk : k ≠ key := fun hk => h (hk ▸ List.mem_cons_self)
    rw [put, if_neg hk, ih fun hrest => h (List.mem_cons_of_mem k hrest)]
    rfl

theorem mem_keys_put {other : κ} {value : α} :
    other ∈ (entries.put key value).keys ↔ other = key ∨ other ∈ entries.keys := by
  rw [keys_put]
  split
  · rename_i hkey
    exact ⟨.inr, fun h => h.elim (fun heq => heq ▸ hkey) id⟩
  · rw [List.mem_append, List.mem_singleton, or_comm]

theorem put_cons (key : κ) (value : α) (k : κ) (v : α) (rest : Entries α κ) :
    ∃ first more, put ((k, v) :: rest) key value = (k, first) :: more := by
  by_cases hk : k = key
  · subst hk
    exact ⟨value, rest, if_pos rfl⟩
  · exact ⟨v, rest.put key value, if_neg hk⟩

theorem mem_put {entry : κ × α} {value : α} (h : entry ∈ entries.put key value) :
    entry = (key, value) ∨ entry ∈ entries := by
  induction entries with
  | nil => exact .inl (List.mem_singleton.1 h)
  | cons e rest ih =>
    obtain ⟨k, v⟩ := e
    rw [put] at h
    split at h
    · exact (List.mem_cons.1 h).imp_right (List.mem_cons_of_mem _)
    · rcases List.mem_cons.1 h with rfl | h
      · exact .inr List.mem_cons_self
      · exact (ih h).imp_right (List.mem_cons_of_mem _)

theorem mem_of_mem_foldl_put {entry : κ × α}
    (h : entry ∈ pairs.foldl (fun entries (key, value) => entries.put key value) entries) :
    entry ∈ entries ∨ entry ∈ pairs := by
  induction pairs generalizing entries with
  | nil => exact .inl h
  | cons pair rest ih =>
    rcases ih h with h | h
    · rcases mem_put h with rfl | h
      · exact .inr List.mem_cons_self
      · exact .inl h
    · exact .inr (List.mem_cons_of_mem _ h)

theorem mem_of_mem_ofPairs {entry : κ × α} (h : entry ∈ ofPairs pairs) : entry ∈ pairs :=
  (mem_of_mem_foldl_put h).resolve_left List.not_mem_nil

theorem foldl_put_of_nodup (h : (entries ++ pairs).keys.Nodup) :
    pairs.foldl (fun entries (key, value) => entries.put key value) entries = entries ++ pairs := by
  induction pairs generalizing entries with
  | nil => exact (List.append_nil entries).symm
  | cons pair rest ih =>
    obtain ⟨key, value⟩ := pair
    have hkey : key ∉ entries.keys := by
      rw [keys, List.map_append, List.nodup_append] at h
      exact fun hmem => h.2.2 key hmem key List.mem_cons_self rfl
    have hput : entries.put key value = entries ++ [(key, value)] := put_of_notMem hkey value
    rw [List.append_cons] at h ⊢
    rw [← ih h, ← hput]
    rfl

theorem ofPairs_of_nodup (h : pairs.keys.Nodup) : ofPairs pairs = pairs :=
  foldl_put_of_nodup h

/-- A value under a key is that of the last pair with the key, if there is one. -/
theorem get?_foldl_put {value : α} :
    (pairs.foldl (fun entries (key, value) => entries.put key value) entries).get? key =
        some value ↔
      (∃ before after, pairs = before ++ (key, value) :: after ∧ key ∉ keys after) ∨
        key ∉ keys pairs ∧ entries.get? key = some value := by
  induction pairs generalizing entries with
  | nil =>
    refine ⟨fun h => .inr ⟨List.not_mem_nil, h⟩, ?_⟩
    rintro (⟨before, after, h, -⟩ | ⟨-, h⟩)
    · cases before <;> cases h
    · exact h
  | cons pair rest ih =>
    obtain ⟨k, v⟩ := pair
    refine ih.trans ?_
    rw [get?_put]
    constructor
    · rintro (⟨before, after, rfl, hafter⟩ | ⟨hrest, h⟩)
      · exact .inl ⟨(k, v) :: before, after, rfl, hafter⟩
      · by_cases hk : k = key
        · rw [if_pos hk] at h
          cases h
          exact .inl ⟨[], rest, by rw [hk]; rfl, hrest⟩
        · rw [if_neg hk] at h
          exact .inr ⟨fun hmem => (List.mem_cons.1 hmem).elim (hk ·.symm) hrest, h⟩
    · rintro (⟨before, after, h, hafter⟩ | ⟨hkey, h⟩)
      · cases before with
        | nil =>
          cases h
          exact .inr ⟨hafter, if_pos rfl⟩
        | cons first before =>
          obtain ⟨-, rfl⟩ := List.cons.inj h
          exact .inl ⟨before, after, rfl, hafter⟩
      · have hk : k ≠ key := fun hk => hkey (hk ▸ List.mem_cons_self)
        exact .inr ⟨fun hmem => hkey (List.mem_cons_of_mem k hmem), by rw [if_neg hk]; exact h⟩

theorem get?_ofPairs {value : α} : (ofPairs pairs).get? key = some value ↔
    ∃ before after, pairs = before ++ (key, value) :: after ∧ key ∉ keys after := by
  refine get?_foldl_put.trans ⟨fun h => h.resolve_right fun h => ?_, .inl⟩
  cases h.2

end Scaffold.Entries
