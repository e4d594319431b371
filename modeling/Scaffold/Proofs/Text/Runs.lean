import Scaffold.Proofs.Text.Basic

namespace Scaffold.Text

/-- The pieces of a text between the characters that satisfy `p`, empty ones left out. -/
def runs (p : Char → Bool) (t : Text) : List Text :=
  (cut p t).filter (· ≠ [])

variable {p : Char → Bool} {t u piece : Text} {ts : List Text} {c : Char}

theorem of_mem_cut (h : piece ∈ cut p t) : piece ⊆ t ∧ ∀ c ∈ piece, p c = false := by
  induction t generalizing piece with
  | nil =>
    cases List.mem_singleton.1 h
    exact ⟨List.Subset.refl [], nofun⟩
  | cons d rest ih =>
    rw [cut] at h
    split at h
    · rcases List.mem_cons.1 h with rfl | h
      · exact ⟨List.nil_subset _, nofun⟩
      · exact ⟨List.subset_cons_of_subset d (ih h).1, (ih h).2⟩
    · rename_i hd
      obtain ⟨first, pieces, hpieces⟩ := List.exists_cons_of_ne_nil (cut_ne_nil p rest)
      rw [hpieces] at h
      rcases List.mem_cons.1 h with rfl | h
      · obtain ⟨hsub, hall⟩ := ih (hpieces ▸ List.mem_cons_self)
        exact ⟨List.cons_subset_cons d hsub,
          List.forall_mem_cons.2 ⟨Bool.eq_false_iff.2 hd, hall⟩⟩
      · obtain ⟨hsub, hall⟩ := ih (hpieces ▸ List.mem_cons_of_mem first h)
        exact ⟨List.subset_cons_of_subset d hsub, hall⟩

theorem of_mem_runs (h : piece ∈ runs p t) :
    piece ≠ [] ∧ piece ⊆ t ∧ ∀ c ∈ piece, p c = false := by
  obtain ⟨hmem, hne⟩ := List.mem_filter.1 h
  exact ⟨of_decide_eq_true hne, of_mem_cut hmem⟩

theorem runs_separated (hc : p c = true) (t u : Text) :
    runs p (t ++ c :: u) = runs p t ++ runs p u := by
  rw [runs, cut_separated hc, List.filter_append]
  rfl

theorem runs_cons (hc : p c = true) (t : Text) : runs p (c :: t) = runs p t :=
  runs_separated hc [] t

theorem runs_of_forall (hne : t ≠ []) (h : ∀ c ∈ t, p c = false) : runs p t = [t] := by
  rw [runs, cut_of_forall h]
  exact List.filter_cons_of_pos (decide_eq_true hne)

theorem runs_join (hc : p c = true) (ts : List Text) :
    runs p (join [c] ts) = ts.flatMap (runs p) := by
  induction ts with
  | nil => rfl
  | cons t rest ih =>
    cases rest with
    | nil => exact (List.append_nil _).symm
    | cons u rest =>
      rw [join_cons _ (List.cons_ne_nil u rest), List.append_assoc, List.singleton_append,
        runs_separated hc, ih]
      rfl

end Scaffold.Text
