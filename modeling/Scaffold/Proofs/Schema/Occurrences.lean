import Mathlib.Data.Finset.Card
import Mathlib.Data.List.Induction
import Scaffold.Schema

namespace Scaffold.Schema

variable {seen other ts us kept : List Text} {t u : Text}

theorem mem_distinctFrom : t ∈ distinctFrom seen ts ↔ t ∈ ts ∧ t ∉ seen := by
  induction ts generalizing seen with
  | nil => simp [distinctFrom]
  | cons u rest ih =>
    rw [distinctFrom]
    split
    · rename_i hseen
      rw [ih, List.mem_cons]
      constructor
      · rintro ⟨hmem, hnew⟩
        exact ⟨.inr hmem, hnew⟩
      · rintro ⟨rfl | hmem, hnew⟩
        · exact absurd hseen hnew
        · exact ⟨hmem, hnew⟩
    · rename_i hseen
      rw [List.mem_cons, ih, List.mem_cons, List.mem_cons]
      by_cases hu : t = u
      · subst hu
        simp [hseen]
      · simp [hu]

theorem mem_firstOccurrences : t ∈ firstOccurrences ts ↔ t ∈ ts := by
  simp [firstOccurrences, mem_distinctFrom]

/-- What stands in a list in the order of its first occurrence in another one does so when something
else comes before that. -/
theorem pairwise_idxOf_cons (h : kept.Pairwise fun t u => ts.idxOf t < ts.idxOf u) (hu : u ∉ kept) :
    kept.Pairwise fun t v => (u :: ts).idxOf t < (u :: ts).idxOf v := by
  refine h.imp_of_mem fun {t v} ht hv hlt => ?_
  have hindex {w : Text} (hw : w ∈ kept) : (u :: ts).idxOf w = ts.idxOf w + 1 :=
    List.idxOf_cons_ne ts fun huw => hu (huw ▸ hw)
  rw [hindex ht, hindex hv]
  exact Nat.succ_lt_succ hlt

theorem pairwise_distinctFrom (seen ts : List Text) :
    (distinctFrom seen ts).Pairwise fun t u => ts.idxOf t < ts.idxOf u := by
  induction ts generalizing seen with
  | nil => exact .nil
  | cons u rest ih =>
    rw [distinctFrom]
    split
    · rename_i hseen
      exact pairwise_idxOf_cons (ih seen) fun hu => (mem_distinctFrom.1 hu).2 hseen
    · have hnew : u ∉ distinctFrom (u :: seen) rest := fun hu =>
        (mem_distinctFrom.1 hu).2 List.mem_cons_self
      refine .cons (fun t ht => ?_) (pairwise_idxOf_cons (ih (u :: seen)) hnew)
      have hne : u ≠ t := fun hut => hnew (hut ▸ ht)
      rw [List.idxOf_cons_self, List.idxOf_cons_ne rest hne]
      exact Nat.zero_lt_succ _

theorem pairwise_firstOccurrences (ts : List Text) :
    (firstOccurrences ts).Pairwise fun t u => ts.idxOf t < ts.idxOf u :=
  pairwise_distinctFrom [] ts

theorem nodup_firstOccurrences (ts : List Text) : (firstOccurrences ts).Nodup := by
  refine (pairwise_firstOccurrences ts).imp ?_
  rintro t _ hlt rfl
  exact Nat.lt_irrefl _ hlt

theorem distinctFrom_congr (h : ∀ t, t ∈ seen ↔ t ∈ other) (ts : List Text) :
    distinctFrom seen ts = distinctFrom other ts := by
  induction ts generalizing seen other with
  | nil => rfl
  | cons t rest ih =>
    have hcons (v : Text) : v ∈ t :: seen ↔ v ∈ t :: other := by
      rw [List.mem_cons, List.mem_cons, h v]
    simp only [distinctFrom, h t, ih h, ih hcons]

theorem distinctFrom_append (seen ts us : List Text) :
    distinctFrom seen (ts ++ us) = distinctFrom seen ts ++ distinctFrom (ts ++ seen) us := by
  induction ts generalizing seen with
  | nil => rfl
  | cons t rest ih =>
    rw [List.cons_append, distinctFrom, distinctFrom]
    split
    · rename_i hseen
      have hsame (v : Text) : v ∈ rest ++ seen ↔ v ∈ t :: rest ++ seen := by
        simp only [List.mem_append, List.mem_cons]
        constructor
        · rintro (hv | hv)
          · exact .inl (.inr hv)
          · exact .inr hv
        · rintro ((rfl | hv) | hv)
          · exact .inr hseen
          · exact .inl hv
          · exact .inr hv
      rw [ih, distinctFrom_congr hsame]
    · have hsame (v : Text) : v ∈ rest ++ t :: seen ↔ v ∈ t :: rest ++ seen := by
        rw [List.cons_append]
        exact List.perm_middle.mem_iff
      rw [ih, distinctFrom_congr hsame]
      rfl

theorem distinctFrom_append_left (other seen ts : List Text) :
    distinctFrom (other ++ seen) ts = (distinctFrom seen ts).filter (· ∉ other) := by
  induction ts generalizing seen with
  | nil => rfl
  | cons t rest ih =>
    rw [distinctFrom, distinctFrom]
    by_cases hseen : t ∈ seen
    · rw [if_pos (List.mem_append_right other hseen), if_pos hseen, ih]
    · have hsame (v : Text) : v ∈ t :: (other ++ seen) ↔ v ∈ other ++ t :: seen :=
        List.perm_middle.mem_iff.symm
      by_cases hother : t ∈ other
      · have hknown (v : Text) : v ∈ other ++ seen ↔ v ∈ other ++ t :: seen := by
          rw [← hsame, List.mem_cons]
          constructor
          · exact .inr
          · rintro (rfl | hv)
            · exact List.mem_append_left seen hother
            · exact hv
        rw [if_pos (List.mem_append_left seen hother), if_neg hseen, distinctFrom_congr hknown, ih,
          List.filter_cons_of_neg (by simpa using hother)]
      · have hnew : t ∉ other ++ seen := by
          rw [List.mem_append]
          rintro (ht | ht)
          · exact hother ht
          · exact hseen ht
        rw [if_neg hnew, if_neg hseen, distinctFrom_congr hsame, ih,
          List.filter_cons_of_pos (by simpa using hother)]

theorem firstOccurrences_append (ts us : List Text) : firstOccurrences (ts ++ us) =
    firstOccurrences ts ++ (firstOccurrences us).filter (· ∉ ts) := by
  rw [firstOccurrences, distinctFrom_append, distinctFrom_append_left]
  rfl

theorem firstOccurrences_eq_eraseDups (ts : List Text) : firstOccurrences ts = ts.eraseDups := by
  induction ts using List.reverseRecOn with
  | nil => rfl
  | append_singleton ts t ih =>
    rw [firstOccurrences_append, List.eraseDups_append, ih]
    by_cases ht : t ∈ ts
    · simp [firstOccurrences, distinctFrom, List.removeAll, ht]
    · simp [firstOccurrences, distinctFrom, List.removeAll, ht, List.eraseDups_cons]

theorem toFinset_firstOccurrences (ts : List Text) :
    (firstOccurrences ts).toFinset = ts.toFinset := by
  ext t
  rw [List.mem_toFinset, List.mem_toFinset, mem_firstOccurrences]

theorem length_firstOccurrences (ts : List Text) :
    (firstOccurrences ts).length = ts.toFinset.card := by
  rw [← toFinset_firstOccurrences, List.toFinset_card_of_nodup (nodup_firstOccurrences ts)]

/--
The first occurrences of a list are what is left of it without later repetitions: its elements, each
of them once, one before another just if it occurs before it. A list behind another one adds those
of its own first occurrences that do not stand in the other one. The types that a schema imports are
the first occurrences of its types, as many as there are different ones.
-/
theorem firstOccurrences_exact (ts us : List Text) (s : Schema) :
    firstOccurrences ts = ts.eraseDups ∧
    (firstOccurrences ts).Nodup ∧
    (∀ t, t ∈ firstOccurrences ts ↔ t ∈ ts) ∧
    ((firstOccurrences ts).Pairwise fun t u => ts.idxOf t < ts.idxOf u) ∧
    firstOccurrences (ts ++ us) = firstOccurrences ts ++ (firstOccurrences us).filter (· ∉ ts) ∧
    s.importedTypes = firstOccurrences s.types ∧
    s.importedTypes.length = s.types.toFinset.card :=
  ⟨firstOccurrences_eq_eraseDups ts, nodup_firstOccurrences ts, fun _ => mem_firstOccurrences,
    pairwise_firstOccurrences ts, firstOccurrences_append ts us, rfl,
    length_firstOccurrences s.types⟩

end Scaffold.Schema
